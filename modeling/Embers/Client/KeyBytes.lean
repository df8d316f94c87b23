import Embers.Client.HostKeys

/-!
# Keys as bytes for a pane

How a key is sent to the program in a pane, by the keyboard mode the program asked for: legacy VT
sequences, or the kitty protocol's `CSI u` forms.
-/

namespace Embers

def modeDisambiguates (mode : UInt8) : Bool := mode &&& 0b00000001 ≠ 0

def modeReportsAllKeys (mode : UInt8) : Bool := mode &&& 0b00001000 ≠ 0

/-- `ESC [` and parameters, the modifiers last unless there are none, and a final byte. -/
def csiWithModifier (number : Option ℕ) (modifier : ℕ) (finalByte : UInt8) : List UInt8 :=
  if modifier = 1 then [0x1b, 0x5b] ++ number.elim [] decimalBytes ++ [finalByte]
  else [0x1b, 0x5b] ++ decimalBytes (number.getD 1) ++ 0x3b :: decimalBytes modifier ++ [finalByte]

/-- F1 to F12 as xterm sends them. -/
def functionKeyCsi (n modifier : ℕ) : Option (List UInt8) :=
  match n with
  | 1 | 2 | 3 | 4 =>
    let letter := UInt8.ofNat (0x50 + (n - 1))
    if modifier = 1 then some [0x1b, 0x4f, letter]
    else if n = 3 then some (csiWithModifier (some 13) modifier 0x7e)
    else some (csiWithModifier none modifier letter)
  | 5 => some (csiWithModifier (some 15) modifier 0x7e)
  | 6 => some (csiWithModifier (some 17) modifier 0x7e)
  | 7 => some (csiWithModifier (some 18) modifier 0x7e)
  | 8 => some (csiWithModifier (some 19) modifier 0x7e)
  | 9 => some (csiWithModifier (some 20) modifier 0x7e)
  | 10 => some (csiWithModifier (some 21) modifier 0x7e)
  | 11 => some (csiWithModifier (some 23) modifier 0x7e)
  | 12 => some (csiWithModifier (some 24) modifier 0x7e)
  | _ => none

/-- Arrows, navigation and function keys. -/
def functionalCsi (code : KeyCode) (mods : Modifiers) : Option (List UInt8) :=
  let modifier := mods.kittyCode
  match code with
  | .up => some (csiWithModifier none modifier 0x41)
  | .down => some (csiWithModifier none modifier 0x42)
  | .right => some (csiWithModifier none modifier 0x43)
  | .left => some (csiWithModifier none modifier 0x44)
  | .home => some (csiWithModifier none modifier 0x48)
  | .end => some (csiWithModifier none modifier 0x46)
  | .insert => some (csiWithModifier (some 2) modifier 0x7e)
  | .delete => some (csiWithModifier (some 3) modifier 0x7e)
  | .pageUp => some (csiWithModifier (some 5) modifier 0x7e)
  | .pageDown => some (csiWithModifier (some 6) modifier 0x7e)
  | .function n => functionKeyCsi n modifier
  | .char _ | .enter | .tab | .backspace | .escape => none

/-- The control byte of a character, if it has one. -/
def ctrlByte (ch : Char) : Option UInt8 :=
  if ch ∈ [' ', '2', '@'] then some 0x00
  else if ch = '3' then some 0x1b
  else if ch = '4' then some 0x1c
  else if ch = '5' then some 0x1d
  else if ch = '6' then some 0x1e
  else if ch ∈ ['7', '/', '-'] then some 0x1f
  else if ch ∈ ['8', '?'] then some 0x7f
  else if ch.isAlpha ∨ ch ∈ ['[', '\\', ']', '^', '_'] then some (ch.toUpper.toUInt8 &&& 0x1f)
  else none

def legacyBase (code : KeyCode) (mods : Modifiers) : List UInt8 :=
  if mods.shift ∧ code = .tab then [0x1b, 0x5b, 0x5a]
  else
    match code with
    | .enter => [0x0d]
    | .backspace => [0x7f]
    | .escape => [0x1b]
    | _ => [0x09]

def encodeLegacy (code : KeyCode) (mods : Modifiers) : List UInt8 :=
  match functionalCsi code mods with
  | some sequence => sequence
  | none =>
    match code with
    | .char ch =>
      let ch := if mods.shift then ch.toUpper else ch
      let base := if mods.ctrl then (ctrlByte ch).elim (String.utf8EncodeChar ch) ([·])
        else String.utf8EncodeChar ch
      if mods.alt then 0x1b :: base else base
    | .enter | .tab | .backspace | .escape =>
      if mods.alt then 0x1b :: legacyBase code mods else legacyBase code mods
    | _ => []

/-- The number the kitty protocol names a key by. -/
def kittyKeyNumber : KeyCode → Option ℕ
  | .char ch => some ch.toNat
  | .enter => some 13
  | .tab => some 9
  | .backspace => some 127
  | .escape => some 27
  | _ => none

def KeyCode.isChar : KeyCode → Bool
  | .char _ => true
  | _ => false

def encodeKitty (code : KeyCode) (mods : Modifiers) (mode : UInt8) : List UInt8 :=
  match functionalCsi code mods with
  | some sequence => sequence
  | none =>
    match kittyKeyNumber code with
    | none => encodeLegacy code mods
    | some number =>
      if (mods.isEmpty ∨ (code.isChar ∧ mods = .onlyShift)) ∧ ¬modeReportsAllKeys mode then
        encodeLegacy code mods
      else csiWithModifier (some number) mods.kittyCode 0x75

def encodeKey (code : KeyCode) (mods : Modifiers) (mode : UInt8) : List UInt8 :=
  if modeDisambiguates mode ∨ modeReportsAllKeys mode then encodeKitty code mods mode
  else encodeLegacy code mods

def sequenceToBytes (mode : UInt8) : List KeyToken → Except MuxError (List UInt8)
  | [] => .ok []
  | token :: tokens =>
    match token.chord with
    | none => .error (.invalidInput "leader placeholders cannot be sent directly")
    | some (code, mods) => do
      let bytes ← sequenceToBytes mode tokens
      return encodeKey code mods mode ++ bytes

end Embers
