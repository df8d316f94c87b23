import Embers.Client.Keys

/-!
# Reading keys from the host terminal

The bytes of one event come in one go, and what follows it only after a pause: a list of bytes is
what can be read before a timeout, so that an escape with nothing behind it is the Escape key. A
key comes as legacy bytes, as a `CSI` sequence of its own, or as a report with a modifier parameter
(`parseExtendedKey`).
-/

namespace Embers

inductive MouseButton where
  | left
  | middle
  | right
  deriving DecidableEq, Repr

structure MouseModifiers where
  shift : Bool
  alt : Bool
  ctrl : Bool
  deriving DecidableEq, Repr

inductive MouseEventKind where
  | press (button : MouseButton)
  | release (button : Option MouseButton)
  | drag (button : MouseButton)
  | wheelUp
  | wheelDown
  deriving DecidableEq, Repr

structure MouseEvent where
  row : ℕ
  column : ℕ
  modifiers : MouseModifiers
  kind : MouseEventKind
  deriving DecidableEq, Repr

/-- What the host terminal can send. -/
inductive TerminalEvent where
  | key (key : KeyEvent)
  | mouse (event : MouseEvent)
  | paste (bytes : List UInt8)
  | focus (focused : Bool)
  /-- A reply to a query, not typed input. -/
  | hostReply (bytes : List UInt8)
  /-- A recognized report that carries no input. -/
  | ignored
  deriving DecidableEq, Repr

/-! ## Reports with parameters -/

/-- The text of a number, in bytes. -/
def decimalBytes (n : ℕ) : List UInt8 := (Decimal.text n).map UInt8.ofNat

def parseUnsigned (limit : ℕ) (bytes : List UInt8) : Option ℕ :=
  Decimal.parse limit (bytes.map UInt8.toNat)

/-- The lock bits are ignored; masks with modifiers there is no name for are not. -/
def decodeKittyMods (value : ℕ) : Option Modifiers :=
  if value = 0 then none
  else
    let mask := (value - 1) &&& (2 ^ 32 - 1 - 192)
    if 16 ≤ mask then none
    else some ⟨mask.testBit 0, mask.testBit 1, mask.testBit 2, mask.testBit 3⟩

/-- The text before and after the first separator. -/
def splitOnce (sep : UInt8) : List UInt8 → Option (List UInt8 × List UInt8)
  | [] => none
  | byte :: rest =>
    if byte = sep then some ([], rest)
    else (splitOnce sep rest).map fun (head, tail) ↦ (byte :: head, tail)

def isDigitByte (byte : UInt8) : Bool := 0x30 ≤ byte && byte ≤ 0x39

def stripSuffix (byte : UInt8) (bytes : List UInt8) : Option (List UInt8) :=
  if bytes.getLast? = some byte then some bytes.dropLast else none

/-- xterm's `CSI 27 ; mods ; code ~` as `CSI code ; mods u`. -/
def modifyOtherKeysAsKitty : List UInt8 → Option (List UInt8)
  | 0x1b :: 0x5b :: 0x32 :: 0x37 :: 0x3b :: rest =>
    match (stripSuffix 0x7e rest).bind (splitOnce 0x3b) with
    | some (mods, code) =>
      if mods ≠ [] ∧ code ≠ [] ∧ mods.all isDigitByte ∧ code.all isDigitByte then
        some ([0x1b, 0x5b] ++ code ++ [0x3b] ++ mods ++ [0x75])
      else none
    | none => none
  | _ => none

inductive ExtendedKey where
  | event (key : KeyEvent)
  | consumed
  deriving DecidableEq, Repr

/-- The modifier value and the event type of a report. -/
def modifierField (field : List UInt8) : Option (ℕ × Option (List UInt8)) :=
  match field.splitOn 0x3a with
  | [value] => (parseUnsigned (2 ^ 32) value).map fun value ↦ (value, none)
  | [value, eventType] =>
    (parseUnsigned (2 ^ 32) value).map fun value ↦ (value, some eventType)
  | _ => none

/-- The numbers of a report: the key, the modifiers and the event type. -/
def reportFields (params : List UInt8) : Option (ℕ × ℕ × Option (List UInt8)) :=
  match params.splitOn 0x3b with
  | [first] => (parseUnsigned (2 ^ 32) first).map fun first ↦ (first, 1, none)
  | [first, modifier] => do
    let first ← parseUnsigned (2 ^ 32) first
    let (value, eventType) ← modifierField modifier
    pure (first, value, eventType)
  | _ => none

/-- The key with a code point. The private-use area names functional keys there is no key for. -/
def kittyKeyCode (code : ℕ) : Option KeyCode :=
  match code with
  | 9 => some .tab
  | 13 => some .enter
  | 27 => some .escape
  | 127 => some .backspace
  | code =>
    if 57344 ≤ code ∧ code ≤ 63743 then none
    else if code.isValidChar then some (.char (Char.ofNat code))
    else none

/-- The key with a final letter. Modified F3 has none, being a cursor report. -/
def letterKeyCode (finalByte : UInt8) : Option KeyCode :=
  if finalByte = 0x41 then some .up
  else if finalByte = 0x42 then some .down
  else if finalByte = 0x43 then some .right
  else if finalByte = 0x44 then some .left
  else if finalByte = 0x48 then some .home
  else if finalByte = 0x46 then some .end
  else if finalByte = 0x50 then some (.function 1)
  else if finalByte = 0x51 then some (.function 2)
  else if finalByte = 0x53 then some (.function 4)
  else none

/-- The key with a vt220 number. -/
def tildeKeyCode : ℕ → Option KeyCode
  | 2 => some .insert
  | 3 => some .delete
  | 5 => some .pageUp
  | 6 => some .pageDown
  | 13 => some (.function 3)
  | 15 => some (.function 5)
  | 17 => some (.function 6)
  | 18 => some (.function 7)
  | 19 => some (.function 8)
  | 20 => some (.function 9)
  | 21 => some (.function 10)
  | 23 => some (.function 11)
  | 24 => some (.function 12)
  | _ => none

def reportKeyCode (finalByte : UInt8) (first : ℕ) : Option KeyCode :=
  if finalByte = 0x75 then kittyKeyCode first
  else if finalByte = 0x7e then tildeKeyCode first
  else if first = 1 then letterKeyCode finalByte
  else none

/-- `CSI code ; mods u`, `CSI 1 ; mods letter` or `CSI n ; mods ~`, the modifiers optional. Text
that is not ASCII is in no number, so it is not told from other malformed text. -/
def parseKittyKey : List UInt8 → Option ExtendedKey
  | 0x1b :: 0x5b :: body => do
    let finalByte ← body.getLast?
    let (first, modifierValue, eventType) ← reportFields body.dropLast
    let code ← reportKeyCode finalByte first
    if eventType = some [0x33] then some .consumed
    else if eventType ∉ [none, some [0x31], some [0x32]] then none
    else do
      let mods ← decodeKittyMods modifierValue
      some (.event (.key code mods))
  | _ => none

/-- A rewritten report is none to rewrite again. -/
def parseExtendedKey (bytes : List UInt8) : Option ExtendedKey :=
  parseKittyKey ((modifyOtherKeysAsKitty bytes).getD bytes)

/-! ## Mouse reports -/

/-- `CSI < b ; x ; y M` or `m`. -/
def isSgrMouseReport : List UInt8 → Bool
  | 0x1b :: 0x5b :: 0x3c :: body =>
    (body.getLast? = some 0x4d ∨ body.getLast? = some 0x6d) ∧
      (body.dropLast.splitOn 0x3b).length = 3 ∧
      ∀ byte ∈ body.dropLast, isDigitByte byte ∨ byte = 0x3b
  | _ => false

def mouseButton : ℕ → Option MouseButton
  | 0 => some .left
  | 1 => some .middle
  | 2 => some .right
  | _ => none

def mouseEventKind (code : ℕ) (released : Bool) : Option MouseEventKind :=
  let button := code % 4
  if code.testBit 6 then
    match button with
    | 0 => some .wheelUp
    | 1 => some .wheelDown
    | _ => none
  else if code.testBit 5 then (mouseButton button).map .drag
  else if released then some (.release (mouseButton button))
  else (mouseButton button).map .press

def parseSgrMouse : List UInt8 → Option MouseEvent
  | 0x1b :: 0x5b :: 0x3c :: body => do
    let suffix ← body.getLast?
    if suffix ≠ 0x4d ∧ suffix ≠ 0x6d then none
    else match body.dropLast.splitOn 0x3b with
      | [code, column, row] => do
        let code ← parseUnsigned (2 ^ 16) code
        let column ← parseUnsigned (2 ^ 16) column
        let row ← parseUnsigned (2 ^ 16) row
        let kind ← mouseEventKind code (suffix = 0x6d)
        some ⟨row - 1, column - 1, ⟨code.testBit 2, code.testBit 3, code.testBit 4⟩, kind⟩
      | _ => none
  | _ => none

/-! ## Control sequences -/

/-- The sequences with no parameters to read. -/
def plainCsi : List (List UInt8 × TerminalEvent) :=
  [([0x41], .key .up), ([0x42], .key .down), ([0x43], .key .right), ([0x44], .key .left),
    ([0x31, 0x7e], .key .home), ([0x48], .key .home), ([0x32, 0x7e], .key .insert),
    ([0x33, 0x7e], .key .delete), ([0x34, 0x7e], .key .end), ([0x46], .key .end),
    ([0x35, 0x7e], .key .pageUp), ([0x36, 0x7e], .key .pageDown),
    -- legacy backtab
    ([0x5a], .key (.key .tab .onlyShift)),
    ([0x49], .focus true), ([0x4f], .focus false)]

/-- The event of the sequence `CSI body`. -/
def parseCsiEvent (body : List UInt8) : Option TerminalEvent :=
  match plainCsi.lookup body with
  | some event => some event
  | none =>
    let bytes := 0x1b :: 0x5b :: body
    match parseExtendedKey bytes with
    | some (.event key) => some (.key key)
    | some .consumed => some .ignored
    | none =>
      match parseSgrMouse bytes with
      | some event => some (.mouse event)
      | none => if isSgrMouseReport bytes then some .ignored else none

/-- Whether `CSI body`, no event, is a report from the host. -/
def isCsiReport (body : List UInt8) : Bool :=
  body.head? ∈ [some 0x3f, some 0x3e, some 0x3d] ∨
    (2 < body.length ∧ [0x24, 0x79].isSuffixOf body)

def isCsiFinalByte (byte : UInt8) : Bool := 0x40 ≤ byte && byte ≤ 0x7e

/-- A control sequence up to its final byte, or as far as it comes. -/
def readControlSequence : List UInt8 → List UInt8 × List UInt8
  | [] => ([], [])
  | byte :: rest =>
    if isCsiFinalByte byte then ([byte], rest)
    else
      let (body, rest) := readControlSequence rest
      (byte :: body, rest)

/-- Pasted text up to the sequence that ends it. -/
def readBracketedPaste (read : List UInt8) : List UInt8 → List UInt8 × List UInt8
  | [] => (read, [])
  | byte :: rest =>
    let read := read ++ [byte]
    if [0x1b, 0x5b, 0x32, 0x30, 0x31, 0x7e].isSuffixOf read then (read.take (read.length - 6), rest)
    else readBracketedPaste read rest

def readCsiEvent (input : List UInt8) : TerminalEvent × List UInt8 :=
  let (body, rest) := readControlSequence input
  if body = [0x32, 0x30, 0x30, 0x7e] then
    let (pasted, rest) := readBracketedPaste [] rest
    (.paste pasted, rest)
  else
    match parseCsiEvent body with
    | some event => (event, rest)
    | none =>
      if isCsiReport body then (.hostReply (0x1b :: 0x5b :: body), rest)
      else (.key (.bytes (0x1b :: 0x5b :: body)), rest)

/-! ## Other escapes -/

def readSs3Event : List UInt8 → TerminalEvent × List UInt8
  | [] => (.key (.bytes [0x1b, 0x4f]), [])
  | finalByte :: rest =>
    let key : KeyEvent :=
      if finalByte = 0x41 then .up
      else if finalByte = 0x42 then .down
      else if finalByte = 0x43 then .right
      else if finalByte = 0x44 then .left
      else if 0x50 ≤ finalByte ∧ finalByte ≤ 0x53 then
        .key (.function (finalByte.toNat - 0x50 + 1)) .none
      else .bytes [0x1b, 0x4f, finalByte]
    (.key key, rest)

/-- The string terminator, or BEL for OSC. -/
def endsControlString (bytes : List UInt8) (introducer : UInt8) : Bool :=
  (4 ≤ bytes.length ∧ [0x1b, 0x5c].isSuffixOf bytes) ∨
    (introducer = 0x5d ∧ [0x07].isSuffixOf bytes)

def maxHostStringLen : ℕ := 64 * 1024

def readHostString (introducer : UInt8) (read : List UInt8) :
    List UInt8 → List UInt8 × List UInt8
  | [] => (read, [])
  | byte :: rest =>
    if read.length < maxHostStringLen ∧ ¬endsControlString read introducer then
      readHostString introducer (read ++ [byte]) rest
    else (read, byte :: rest)

/-- A DCS, APC or OSC string is a reply; the two bytes alone are a key with Alt. -/
def readStringEvent (introducer : UInt8) : List UInt8 → TerminalEvent × List UInt8
  | [] => (.key (.alt (Char.ofNat introducer.toNat)), [])
  | first :: rest =>
    let (bytes, rest) := readHostString introducer [0x1b, introducer, first] rest
    (.hostReply bytes, rest)

def readEscapeEvent : List UInt8 → TerminalEvent × List UInt8
  | [] => (.key .escape, [])
  | next :: rest =>
    if next = 0x5b then readCsiEvent rest
    else if next = 0x4f then readSs3Event rest
    else if next = 0x50 ∨ next = 0x5f ∨ next = 0x5d then readStringEvent next rest
    else if next < 0x80 then (.key (.alt (Char.ofNat next.toNat)), rest)
    else (.key (.bytes (0x1b :: next :: rest)), [])

/-! ## Single keys -/

def utf8Width (first : UInt8) : ℕ :=
  if first < 0x80 then 1
  else if 0xc0 ≤ first ∧ first ≤ 0xdf then 2
  else if 0xe0 ≤ first ∧ first ≤ 0xef then 3
  else if 0xf0 ≤ first ∧ first ≤ 0xf7 then 4
  else 0

/-- The character that starts with `first`. The bytes are as many as it says, so text they start
with is all of them. -/
def decodeUtf8Key (first : UInt8) (input : List UInt8) : KeyEvent × List UInt8 :=
  let width := utf8Width first
  if width ≤ 1 then (.bytes [first], input)
  else
    let bytes := first :: input.take (width - 1)
    let rest := input.drop (width - 1)
    if bytes.length < width then (.bytes bytes, rest)
    else
      match bytes.toByteArray.utf8DecodeChar? 0 with
      | some ch => (.char ch, rest)
      | none => (.bytes bytes, rest)

def readTerminalEvent : List UInt8 → Option (TerminalEvent × List UInt8)
  | [] => none
  | first :: rest =>
    if first = 0x0d ∨ first = 0x0a then some (.key .enter, rest)
    else if first = 0x09 then some (.key .tab, rest)
    else if first = 0x7f then some (.key .backspace, rest)
    else if first = 0x1b then some (readEscapeEvent rest)
    else if first < 0x20 then
      some (.key (.ctrl (Char.ofNat (first ||| 0x40).toNat).toLower), rest)
    else if first < 0x80 then some (.key (.char (Char.ofNat first.toNat)), rest)
    else
      let (key, rest) := decodeUtf8Key first rest
      some (.key key, rest)

/-- The token bindings are looked up by, for the first event read. -/
def readToken (input : List UInt8) : Option KeyToken :=
  match readTerminalEvent input with
  | some (.key key, _) => (keyEventToToken (normalizeTextKey key)).toOption
  | _ => none

end Embers
