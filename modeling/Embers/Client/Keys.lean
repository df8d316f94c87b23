import Embers.Core.Model
import Embers.Lib.Decimal

/-!
# Keys, key events and key tokens

A key has two representations in the client. The host terminal is read into `KeyEvent`s, and
bindings are written in a notation that `parseKeySequence` reads into `KeyToken`s; a binding fires
when `keyEventToToken` turns the event into its token. Both sides have variants for the keys a
legacy terminal can tell apart and a `key` variant, with a set of modifiers, for the rest, so what
a key is called depends on which of them the code picks.
-/

namespace Embers

structure Modifiers where
  shift : Bool
  alt : Bool
  ctrl : Bool
  super : Bool
  deriving DecidableEq, Repr

namespace Modifiers

def none : Modifiers := ⟨false, false, false, false⟩

def onlyShift : Modifiers := ⟨true, false, false, false⟩

def onlyAlt : Modifiers := ⟨false, true, false, false⟩

def onlyCtrl : Modifiers := ⟨false, false, true, false⟩

def altShift : Modifiers := ⟨true, true, false, false⟩

def isEmpty (mods : Modifiers) : Bool := !mods.shift && !mods.alt && !mods.ctrl && !mods.super

/-- The kitty modifier encoding: one more than a bitmask. -/
def kittyCode (mods : Modifiers) : ℕ :=
  mods.shift.toNat + 2 * mods.alt.toNat + 4 * mods.ctrl.toNat + 8 * mods.super.toNat + 1

end Modifiers

/-- A logical key, independent of its wire encoding. -/
inductive KeyCode where
  | char (ch : Char)
  | enter
  | tab
  | backspace
  | escape
  | up
  | down
  | left
  | right
  | home
  | «end»
  | insert
  | delete
  | pageUp
  | pageDown
  | function (number : ℕ)
  deriving DecidableEq, Repr

inductive KeyEvent where
  | char (ch : Char)
  | bytes (bytes : List UInt8)
  | enter
  | tab
  | backspace
  | escape
  | ctrl (ch : Char)
  | alt (ch : Char)
  | up
  | down
  | left
  | right
  | home
  | «end»
  | insert
  | delete
  | pageUp
  | pageDown
  | key (code : KeyCode) (mods : Modifiers)
  deriving DecidableEq, Repr

inductive KeyToken where
  | char (ch : Char)
  | ctrl (ch : Char)
  | alt (ch : Char)
  | enter
  | escape
  | backspace
  | tab
  | space
  | leader
  | up
  | down
  | left
  | right
  | home
  | «end»
  | insert
  | delete
  | pageUp
  | pageDown
  | key (code : KeyCode) (mods : Modifiers)
  deriving DecidableEq, Repr

/-! ## The notation of bindings -/

inductive KeyParseError where
  | emptySequence
  | invalidToken (token : List Char)
  | invalidModifier (token : List Char)
  | invalidModifiedKey (token : List Char)
  | nonAsciiControl (token : List Char)
  | unterminatedToken (keys : List Char)
  deriving DecidableEq, Repr

/-- Text in lower case, as far as ASCII goes. -/
def asciiLower (cs : List Char) : String := String.ofList (cs.map Char.toLower)

def isAscii (ch : Char) : Bool := ch.toNat < 128

def KeyCode.isNonAscii : KeyCode → Bool
  | .char ch => !isAscii ch
  | _ => false

def singleCharToken : List Char → Option Char
  | [ch] => some ch
  | _ => none

/-- The function key a name in lower case stands for. -/
def functionKey : List Char → Option ℕ
  | 'f' :: number =>
    (Decimal.parse 256 (number.map Char.toNat)).filter fun number ↦ 1 ≤ number ∧ number ≤ 12
  | _ => none

/-- The key with a name. -/
def parseBaseKey (key : List Char) : Option KeyCode :=
  match asciiLower key with
  | "enter" | "return" | "cr" => some .enter
  | "esc" | "escape" => some .escape
  | "bs" | "backspace" => some .backspace
  | "tab" => some .tab
  | "space" => some (.char ' ')
  | "up" => some .up
  | "down" => some .down
  | "left" => some .left
  | "right" => some .right
  | "home" => some .home
  | "end" => some .end
  | "ins" | "insert" => some .insert
  | "del" | "delete" => some .delete
  | "pageup" | "pgup" => some .pageUp
  | "pagedown" | "pgdown" | "pgdn" => some .pageDown
  | _ =>
    match functionKey (key.map Char.toLower) with
    | some number => some (.function number)
    | none => (singleCharToken key).map .char

/-- The modifiers with one more set, by its name. -/
def addModifier (mods : Modifiers) (name : List Char) : Option Modifiers :=
  match asciiLower name with
  | "c" | "ctrl" => some { mods with ctrl := true }
  | "a" | "alt" | "m" => some { mods with alt := true }
  | "s" | "shift" => some { mods with shift := true }
  | "d" | "super" | "cmd" | "win" => some { mods with super := true }
  | _ => none

/-- The leading modifiers of a token, whether there are any, and the rest. `head` is what stands
since the last of them; a hyphen right after it is the key itself. -/
def takeModifiers (mods : Modifiers) (hadModifier : Bool) (head : List Char) :
    List Char → Option (Modifiers × Bool × List Char)
  | [] => some (mods, hadModifier, head)
  | ch :: tail =>
    if ch ≠ '-' then takeModifiers mods hadModifier (head ++ [ch]) tail
    else if head = [] then some (mods, hadModifier, ch :: tail)
    else (addModifier mods head).bind fun mods ↦ takeModifiers mods true [] tail

/-- The token of a key with modifiers. A single Ctrl or Alt has a token of its own, and with an
upper-case letter means the shifted key. -/
def modifiedToken (code : KeyCode) (mods : Modifiers) : KeyToken :=
  match code with
  | .char ch =>
    if mods = .onlyCtrl ∧ ¬ch.isUpper then .ctrl ch
    else if mods = .onlyAlt ∧ ¬ch.isUpper then .alt ch
    else if mods = .onlyCtrl ∨ mods = .onlyAlt then
      .key (.char ch.toLower) { mods with shift := true }
    else .key (.char ch.toLower) mods
  | code => .key code mods

def parseModifiedToken (token : List Char) : Except KeyParseError KeyToken :=
  match takeModifiers .none false [] token with
  | none => .error (.invalidModifier token)
  | some (mods, hadModifier, key) =>
    match parseBaseKey key with
    | none =>
      .error (if hadModifier then .invalidModifiedKey token else .invalidToken token)
    | some code =>
      -- a control encoding exists for ASCII keys only
      if mods.ctrl ∧ code.isNonAscii then .error (.nonAsciiControl token)
      else if ¬hadModifier then
        .ok (match code with
          | .char ch => .char ch
          | code => .key code .none)
      else .ok (modifiedToken code mods)

/-- A token between angle brackets. -/
def parseToken (token : List Char) : Except KeyParseError KeyToken :=
  match asciiLower token with
  | "leader" => .ok .leader
  | "enter" | "return" | "cr" => .ok .enter
  | "esc" | "escape" => .ok .escape
  | "bs" | "backspace" => .ok .backspace
  | "tab" => .ok .tab
  | "space" => .ok .space
  | "up" => .ok .up
  | "down" => .ok .down
  | "left" => .ok .left
  | "right" => .ok .right
  | "home" => .ok .home
  | "end" => .ok .end
  | "ins" | "insert" => .ok .insert
  | "del" | "delete" => .ok .delete
  | "pageup" | "pgup" => .ok .pageUp
  | "pagedown" | "pgdown" | "pgdn" => .ok .pageDown
  | _ => parseModifiedToken token

/-- The tokens of a notation, from left to right. `token?` is the text since an open bracket. -/
def parseTokens (keys : List Char) (token? : Option (List Char)) :
    List Char → Except KeyParseError (List KeyToken)
  | [] =>
    match token? with
    | none => .ok []
    | some _ => .error (.unterminatedToken keys)
  | ch :: rest =>
    match token? with
    | some token =>
      if ch = '>' then do
        let parsed ← parseToken token
        let tokens ← parseTokens keys none rest
        pure (parsed :: tokens)
      else parseTokens keys (some (token ++ [ch])) rest
    | none =>
      if ch = '<' then parseTokens keys (some []) rest
      else do
        let tokens ← parseTokens keys none rest
        pure ((if ch = ' ' then .space else .char ch) :: tokens)

def parseKeySequence (keys : List Char) : Except KeyParseError (List KeyToken) :=
  if keys = [] then .error .emptySequence else parseTokens keys none keys

/-! ## From events to tokens -/

/-- An unmodified report of a text key as its legacy event. -/
def normalizeTextKey : KeyEvent → KeyEvent
  | .key code mods =>
    if mods.isEmpty then
      match code with
      | .char ch => .char ch
      | .tab => .tab
      | .enter => .enter
      | .backspace => .backspace
      | .escape => .escape
      | code => .key code mods
    else .key code mods
  | key => key

/-- A character with a single Ctrl or Alt as its legacy token. -/
def normalizeKeyToken (code : KeyCode) (mods : Modifiers) : KeyToken :=
  match code with
  | .char ch =>
    if mods = .onlyCtrl then .ctrl ch.toLower
    else if mods = .onlyAlt then .alt ch.toLower
    else .key (.char ch.toLower) mods
  | code => .key code mods

def keyEventToToken : KeyEvent → Except MuxError KeyToken
  | .char ch => .ok (if ch = ' ' then .space else .char ch)
  | .enter => .ok .enter
  | .tab => .ok .tab
  | .backspace => .ok .backspace
  | .escape => .ok .escape
  | .ctrl ch => .ok (.ctrl ch.toLower)
  -- a legacy host sends Alt+Shift+h as ESC H
  | .alt ch => .ok (if ch.isUpper then .key (.char ch.toLower) .altShift else .alt ch)
  | .up => .ok .up
  | .down => .ok .down
  | .left => .ok .left
  | .right => .ok .right
  | .home => .ok .home
  | .end => .ok .end
  | .insert => .ok .insert
  | .delete => .ok .delete
  | .pageUp => .ok .pageUp
  | .pageDown => .ok .pageDown
  | .key code mods => .ok (normalizeKeyToken code mods)
  | .bytes _ => .error (.invalidInput "raw bytes are handled separately")

/-- The key and modifiers a token stands for, as `sequence_to_bytes` sends them. A leader stands
for a sequence of its own. -/
def KeyToken.chord : KeyToken → Option (KeyCode × Modifiers)
  | .char ch => some (.char ch, .none)
  | .space => some (.char ' ', .none)
  | .tab => some (.tab, .none)
  | .enter => some (.enter, .none)
  | .backspace => some (.backspace, .none)
  | .escape => some (.escape, .none)
  | .ctrl ch => some (.char ch, .onlyCtrl)
  | .alt ch => some (.char ch, .onlyAlt)
  | .up => some (.up, .none)
  | .down => some (.down, .none)
  | .left => some (.left, .none)
  | .right => some (.right, .none)
  | .home => some (.home, .none)
  | .end => some (.end, .none)
  | .insert => some (.insert, .none)
  | .delete => some (.delete, .none)
  | .pageUp => some (.pageUp, .none)
  | .pageDown => some (.pageDown, .none)
  | .key code mods => some (code, mods)
  | .leader => none

end Embers
