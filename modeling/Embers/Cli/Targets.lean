import Embers.Lib.Decimal
import Embers.Lib.Op
import Embers.Core.Model

/-!
# Target strings

What commands take after `-t`: a session, a window or a pane, by id, by name, by number or by where
it is relative to the current one. The same characters mean different things by where they stand and
by what the command expects. A word without a colon is a window first and a session second; a dot
separates a pane from its window only where a pane is expected and what follows it reads as one, so
that names may contain dots; and a leading `%`, `@` or `$` makes the rest an id.

Texts are lists of characters.
-/

namespace Embers.Cli

/-- The answer of a CLI call. -/
abbrev Reply (α : Type) := Answer MuxError α

/-! ## Reading text -/

/-- The rest of a text that begins with the character. -/
def after (c : Char) : List Char → Option (List Char)
  | [] => none
  | d :: rest => if d = c then some rest else none

/-- `str::split_once`: around the first occurrence. -/
def splitOnce (c : Char) : List Char → Option (List Char × List Char)
  | [] => none
  | d :: rest =>
    if d = c then some ([], rest)
    else (splitOnce c rest).map fun parts ↦ (d :: parts.1, parts.2)

/-- `str::rsplit_once`: around the last occurrence. -/
def rsplitOnce (c : Char) (text : List Char) : Option (List Char × List Char) :=
  (splitOnce c text.reverse).map fun parts ↦ (parts.2.reverse, parts.1.reverse)

/-- `str::parse` for an unsigned integer below `limit`. -/
def parseNumber (limit : ℕ) (text : List Char) : Option ℕ :=
  Decimal.parse limit (text.map Char.toNat)

/-- The text of a number. -/
def numberText (n : ℕ) : List Char := (Decimal.text n).map Char.ofNat

def isAsciiDigit (c : Char) : Bool := 48 ≤ c.toNat && c.toNat ≤ 57

/-- An id: digits only, and at most 64 bits. -/
def parseId (text : List Char) : Option UInt64 :=
  if text ≠ [] ∧ text.all isAsciiDigit then (parseNumber (2 ^ 64) text).map UInt64.ofNat else none

/-! ## Targets -/

/-- What a command's target names, which decides how a word without a colon is read. -/
inductive TargetKind where
  | session
  | window
  | pane
  deriving DecidableEq, Repr

inductive SessionSpec where
  | current
  | id (id : SessionId)
  | exact (name : List Char)
  | name (name : List Char)
  deriving DecidableEq, Repr

inductive WindowSpec where
  | current
  | id (id : NodeId)
  | exact (name : List Char)
  /-- A window number or name, or the start of a name. -/
  | name (name : List Char)
  | start
  | last
  | next (offset : ℕ)
  | previous (offset : ℕ)
  deriving DecidableEq, Repr

inductive PaneSpec where
  | current
  | index (index : ℕ)
  | buffer (id : BufferId)
  deriving DecidableEq, Repr

inductive Target where
  /-- `%N`: the pane showing buffer `N`. -/
  | buffer (id : BufferId)
  /-- `@N`: the window whose root node is `N`. -/
  | windowId (id : NodeId)
  /-- A plain number given as a pane target: that pane. -/
  | node (id : NodeId)
  /-- `[session][:[window][.pane]]`, any part of which may be left out. -/
  | path (session : SessionSpec) (window : WindowSpec) (pane : PaneSpec)
  /-- A word without a colon given as a window or pane target. -/
  | word (window : WindowSpec) (session : SessionSpec)
  deriving DecidableEq, Repr

def invalid (raw : List Char) (what : String) : MuxError :=
  .invalidInput s!"'{String.ofList raw}' is not a valid {what} target"

/-- Split `window.pane` at the last dot, only when what follows reads as a pane. -/
def splitPane (raw : List Char) : List Char × Option (List Char) :=
  match rsplitOnce '.' raw with
  | some (window, pane) =>
    if pane = [] ∨ (parseId pane).isSome ∨ ((after '%' pane).bind parseId).isSome then
      (window, some pane)
    else (raw, none)
  | none => (raw, none)

def parseSession (raw : List Char) : Reply SessionSpec :=
  if raw = [] then pure .current
  else
    match after '$' raw with
    | some id => .ofOption (invalid raw "session") ((parseId id).map fun id ↦ .id ⟨id⟩)
    | none =>
      match after '=' raw with
      | some name => pure (.exact name)
      | none => pure (.name raw)

/-- The number after a sign: one when it is left out. -/
def parseOffset (raw rest : List Char) : Reply ℕ :=
  if rest = [] then pure 1 else .ofOption (invalid raw "window") (parseNumber (2 ^ 32) rest)

def parseWindow (raw : List Char) : Reply WindowSpec :=
  if raw = [] ∨ raw = ['@'] ∨ raw = "\x7bcurrent\x7d".toList then pure .current
  else if raw = ['^'] ∨ raw = "\x7bstart\x7d".toList then pure .start
  else if raw = ['$'] ∨ raw = "\x7bend\x7d".toList then pure .last
  else if raw = "\x7bnext\x7d".toList then pure (.next 1)
  else if raw = "\x7bprevious\x7d".toList then pure (.previous 1)
  else
    match after '+' raw with
    | some rest => do pure (.next (← parseOffset raw rest))
    | none =>
      match after '-' raw with
      | some rest => do pure (.previous (← parseOffset raw rest))
      | none =>
        match after '@' raw with
        | some id => .ofOption (invalid raw "window") ((parseId id).map fun id ↦ .id ⟨id⟩)
        | none =>
          match after '=' raw with
          | some name => pure (.exact name)
          | none => pure (.name raw)

def parsePane (raw : List Char) : Reply PaneSpec :=
  if raw = [] ∨ raw = ['@'] ∨ raw = "\x7bactive\x7d".toList then pure .current
  else
    match after '%' raw with
    | some id => .ofOption (invalid raw "pane") ((parseId id).map fun id ↦ .buffer ⟨id⟩)
    | none => .ofOption (invalid raw "pane") ((parseId raw).map fun index ↦ .index index.toNat)

/-- The pane of a target, the current one when it is left out. -/
def parsePaneOf : Option (List Char) → Reply PaneSpec
  | some pane => parsePane pane
  | none => pure .current

/-- A word without a colon: a window of the current session, else a session. -/
def parseWord (raw : List Char) : Reply Target := do
  match ← parseWindow raw with
  | .name name => pure (.word (.name name) (← parseSession raw))
  | .exact name => pure (.word (.exact name) (← parseSession raw))
  | window => pure (.path .current window .current)

/-- A target without a colon, given as a pane. -/
def parsePaneWord (raw : List Char) : Reply Target :=
  match after '.' raw with
  | some pane => do pure (.path .current .current (← parsePane pane))
  | none =>
    match parseId raw with
    | some id => pure (.node ⟨id⟩)
    | none =>
      match splitPane raw with
      | (window, some pane) => do
        pure (.path .current (← parseWindow window) (← parsePane pane))
      | (_, none) => parseWord raw

/-- The window and the pane of what stands after the colon. -/
def splitWindow (kind : TargetKind) (rest : List Char) : List Char × Option (List Char) :=
  match kind with
  | .pane => splitPane rest
  | .session => (rest, none)
  | .window => (rest, none)

/-- A target that is no id of a pane or window. -/
def parsePath (raw : List Char) (kind : TargetKind) : Reply Target :=
  match splitOnce ':' raw with
  | some (session, rest) => do
    let parts := splitWindow kind rest
    pure (.path (← parseSession session) (← parseWindow parts.1) (← parsePaneOf parts.2))
  | none =>
    if raw.head? = some '$' ∧ raw.length > 1 then do
      pure (.path (← parseSession raw) .current .current)
    else
      match kind with
      | .session => do pure (.path (← parseSession raw) .current .current)
      | .window => parseWord raw
      | .pane => parsePaneWord raw

def Target.parse (raw : List Char) (kind : TargetKind) : Reply Target :=
  match after '%' raw with
  | some id => .ofOption (invalid raw "pane") ((parseId id).map fun id ↦ .buffer ⟨id⟩)
  | none =>
    match (after '@' raw).filter (· ≠ []) with
    | some id => .ofOption (invalid raw "window") ((parseId id).map fun id ↦ .windowId ⟨id⟩)
    | none => parsePath raw kind

end Embers.Cli
