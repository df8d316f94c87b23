import Embers.Client.Grid
import Embers.Client.Keys
import Embers.Core.Model

/-!
# The line of a command prompt

A line is edited by characters, and its string by bytes: each edit looks up the bytes its characters
start at and then cuts there. A cut elsewhere than where a character starts, or a range that ends before
it starts, is a panic, which is `none` here, as is an index past the end of a list. With vi keys the
line has two modes, and keys that the vi table does not take go on to the default ones.
-/

namespace Embers.Client

/-- The keys prompts are edited with. -/
inductive StatusKeys where
  | emacs
  /-- Emacs-style keys while inserting, and a vi normal mode after Esc. -/
  | vi
  deriving DecidableEq, Repr

inductive ViMode where
  /-- Typed text goes into the line. -/
  | insert
  /-- Keys are commands (`h`, `w`, `x`, `dw`, `i`, ...). -/
  | normal
  deriving DecidableEq, Repr

structure ViState where
  mode : ViMode
  /-- An operator (`d` or `c`) waiting for its motion. -/
  pending : Option Char
  deriving DecidableEq, Repr

/-- What is edited of a prompt. -/
structure PromptLine where
  input : List Char
  /-- Cursor position in the input, in characters. -/
  cursor : ℕ
  /-- The history entry shown, while browsing. -/
  historyIndex : Option ℕ
  /-- The input typed before browsing history. -/
  draft : List Char
  vi : Option ViState
  deriving DecidableEq, Repr

/-! ## Strings -/

/-- The characters of a text, with the bytes they start at. -/
def charIndices : ℕ → List Char → List (ℕ × Char)
  | _, [] => []
  | start, c :: text => (start, c) :: charIndices (start + c.utf8Size) text

/-- `String::replace_range` -/
def replaceRange (text : List Char) (start finish : ℕ) (new : List Char) : Option (List Char) :=
  if start ≤ finish then do
    let (before, rest) ← splitBytes start text
    let (_, after) ← splitBytes (finish - start) rest
    some (before ++ new ++ after)
  else none

/-- `String::insert_str` -/
def insertStr (text : List Char) (start : ℕ) (new : List Char) : Option (List Char) := do
  let (before, after) ← splitBytes start text
  some (before ++ new ++ after)

/-- `String::truncate` -/
def truncateStr (text : List Char) (newLen : ℕ) : Option (List Char) :=
  if newLen ≤ byteLength text then (splitBytes newLen text).map (·.1) else some text

/-! ## Loops over characters -/

/-- Up, while the next character passes. -/
def forwardWhile (p : Char → Bool) (chars : List Char) (index : ℕ) : ℕ :=
  if index < chars.length ∧ chars[index]?.any p then forwardWhile p chars (index + 1) else index
termination_by chars.length - index

/-- Down, while the character before passes. -/
def backWhile (p : Char → Bool) (chars : List Char) : ℕ → Option ℕ
  | 0 => some 0
  | index + 1 => do
    let ch ← chars[index]?
    if p ch then backWhile p chars index else some (index + 1)

namespace PromptLine

/-- What a character is, for vi word motions. -/
inductive CharClass where
  | blank
  | word
  | punctuation
  deriving DecidableEq, Repr

section Editing

variable (line : PromptLine)

def new (initial : List Char) : PromptLine := ⟨initial, initial.length, none, [], none⟩

def withViKeys : PromptLine := { line with vi := some ⟨.insert, none⟩ }

/-- The prompt as it is opened. -/
def opened (keys : StatusKeys) (initial : List Char) : PromptLine :=
  match keys with
  | .vi => (new initial).withViKeys
  | .emacs => new initial

def viMode : Option ViMode := line.vi.map (·.mode)

def setVi (mode : ViMode) : PromptLine := { line with vi := some ⟨mode, none⟩ }

def setInput (input : List Char) : PromptLine := { line with cursor := input.length, input }

def byteIndex (chars : ℕ) : ℕ := (charIndices 0 line.input)[chars]?.elim (byteLength line.input) (·.1)

/-! ## Editing -/

/-- Text at the cursor. Newlines and other controls become spaces. -/
def insert (text : List Char) : Option PromptLine := do
  let text := text.map fun ch ↦ if isControl ch then ' ' else ch
  let input ← insertStr line.input (line.byteIndex line.cursor) text
  some { line with input, cursor := line.cursor + text.length }

def backspace : Option PromptLine :=
  if line.cursor = 0 then some line
  else do
    let input ← replaceRange line.input (line.byteIndex (line.cursor - 1))
      (line.byteIndex line.cursor) []
    some { line with input, cursor := line.cursor - 1 }

def delete : Option PromptLine :=
  if line.input.length ≤ line.cursor then some line
  else do
    let input ← replaceRange line.input (line.byteIndex line.cursor)
      (line.byteIndex (line.cursor + 1)) []
    some { line with input }

def left : PromptLine := { line with cursor := line.cursor - 1 }

def right : PromptLine := { line with cursor := min (line.cursor + 1) line.input.length }

def home : PromptLine := { line with cursor := 0 }

def «end» : PromptLine := { line with cursor := line.input.length }

/-- Delete from the start of the line to the cursor (C-u). -/
def killToStart : Option PromptLine := do
  let input ← replaceRange line.input 0 (line.byteIndex line.cursor) []
  some { line with input, cursor := 0 }

/-- Delete from the cursor to the end of the line (C-k). -/
def killToEnd : Option PromptLine := do
  let input ← truncateStr line.input (line.byteIndex line.cursor)
  some { line with input }

/-- Delete the word before the cursor (C-w). -/
def deleteWord : Option PromptLine := do
  let start ← backWhile isWhitespace line.input line.cursor
  let start ← backWhile (!isWhitespace ·) line.input start
  let input ← replaceRange line.input (line.byteIndex start) (line.byteIndex line.cursor) []
  some { line with input, cursor := start }

/-! ## History -/

variable (history : List (List Char))

/-- An entry shown. -/
def showEntry (index : ℕ) : Option PromptLine := do
  let entry ← history[index]?
  some ({ line with historyIndex := some index }.setInput entry)

/-- Show the previous (older) history entry. -/
def historyUp : Option PromptLine :=
  match line.historyIndex with
  | none =>
    if history = [] then some line
    else { line with draft := line.input }.showEntry history (history.length - 1)
  | some 0 => some line
  | some (index + 1) => line.showEntry history index

/-- Show the next (newer) history entry, or the draft past the newest. -/
def historyDown : Option PromptLine :=
  match line.historyIndex with
  | none => some line
  | some index =>
    if index + 1 < history.length then line.showEntry history (index + 1)
    else some ({ line with historyIndex := none, draft := [] }.setInput line.draft)

end Editing

section Keys

/-! ## Words -/

variable (alphanumeric : Char → Bool) (line : PromptLine)

def charClass (ch : Char) : CharClass :=
  if isWhitespace ch then .blank
  else if alphanumeric ch || ch = '_' then .word
  else .punctuation

/-- Whether a character is of a class. -/
def ofClass (c : CharClass) (ch : Char) : Bool := charClass alphanumeric ch = c

/-- `w`: the start of the next word, or the end of the line. -/
def nextWordStart : ℕ :=
  let index :=
    match line.input[line.cursor]? with
    | some ch =>
      if charClass alphanumeric ch ≠ .blank then
        forwardWhile (ofClass alphanumeric (charClass alphanumeric ch)) line.input line.cursor
      else line.cursor
    | none => line.cursor
  forwardWhile (ofClass alphanumeric .blank) line.input index

/-- `b`: the start of this word, or of the previous one when already there. -/
def previousWordStart : Option ℕ := do
  let index ← backWhile (ofClass alphanumeric .blank) line.input (min line.cursor line.input.length)
  if index = 0 then some 0
  else do
    let ch ← line.input[index - 1]?
    backWhile (ofClass alphanumeric (charClass alphanumeric ch)) line.input index

/-- The last character of the word that the index is in. -/
def wordEndFrom (index : ℕ) : ℕ :=
  match line.input[index]? with
  | none => index
  | some ch =>
    forwardWhile (ofClass alphanumeric (charClass alphanumeric ch)) line.input (index + 1) - 1

/-- `e`: the end of this word, or of the next one when already there. -/
def nextWordEnd : ℕ :=
  let index := forwardWhile (ofClass alphanumeric .blank) line.input (line.cursor + 1)
  if line.input.length ≤ index then line.input.length - 1 else wordEndFrom alphanumeric line index

/-! ## Vi keys -/

variable (history : List (List Char))

/-- Apply an operator (`d` or `c`) with a motion. Only `w` is a motion. -/
def viOperator (operator motion : Char) : Option PromptLine :=
  let line := line.setVi .normal
  if motion ≠ 'w' then some line
  else do
    let finish :=
      if operator = 'c' ∧ line.input[line.cursor]?.any (!isWhitespace ·) then
        wordEndFrom alphanumeric line line.cursor + 1
      else nextWordStart alphanumeric line
    let input ← replaceRange line.input (line.byteIndex line.cursor) (line.byteIndex finish) []
    let line := { line with input }
    some (if operator = 'c' then line.setVi .insert else line)

def viCommand (ch : Char) : Option PromptLine :=
  match ch with
  | 'h' => some line.left
  | 'l' => some line.right
  | '0' => some line.home
  | '$' => some line.end
  | 'w' => some { line with cursor := nextWordStart alphanumeric line }
  | 'b' => (previousWordStart alphanumeric line).map fun cursor ↦ { line with cursor }
  | 'e' => some { line with cursor := nextWordEnd alphanumeric line }
  | 'x' => line.delete
  | 'D' => line.killToEnd
  | 'C' => line.killToEnd.map (·.setVi .insert)
  | 'i' => some (line.setVi .insert)
  | 'a' => some (line.right.setVi .insert)
  | 'A' => some (line.end.setVi .insert)
  | 'I' => some (line.home.setVi .insert)
  | 'k' => line.historyUp history
  | 'j' => line.historyDown history
  | 'd' | 'c' => some { line with vi := some ⟨.normal, some ch⟩ }
  | _ => some line

/-- A character in normal mode: the motion of an operator that waits for one, or a command. -/
def viChar (pending : Option Char) (ch : Char) : Option PromptLine :=
  match pending with
  | some operator => viOperator alphanumeric line operator ch
  | none => viCommand alphanumeric line history ch

/-- Keep the cursor on a character in normal mode, as vi does. -/
def clampNormalCursor : PromptLine :=
  if line.viMode = some .normal then { line with cursor := min line.cursor (line.input.length - 1) }
  else line

/-- The keys that the table leaves to the default ones in normal mode. -/
def passedOn : List KeyEvent :=
  [.enter, .escape, .ctrl 'c', .ctrl 'g', .left, .right, .up, .down, .home, .end, .backspace,
    .delete]

/-- A key with the vi key table: whether it takes the key, and the line then. -/
def viKey (key : KeyEvent) : Option (Bool × PromptLine) :=
  match line.vi with
  | none => some (false, line)
  | some ⟨.insert, _⟩ =>
    if key = .escape then some (true, (line.setVi .normal).left) else some (false, line)
  | some ⟨.normal, pending⟩ =>
    match key with
    | .char ch => (viChar alphanumeric line history pending ch).map (true, ·.clampNormalCursor)
    | _ => some (key ∉ passedOn, line.setVi .normal)

/-! ## The client's keys -/

/-- What a key makes of the prompt. -/
inductive Outcome where
  | edited (line : PromptLine)
  | committed
  | cancelled
  deriving DecidableEq

variable (lossy : List UInt8 → List Char)

/-- The default keys with Ctrl, the most of them as another key does. -/
def defaultCtrl (ch : Char) : Option Outcome :=
  match ch with
  | 'c' | 'g' => some .cancelled
  | 'h' => line.backspace.map .edited
  | 'd' => line.delete.map .edited
  | 'b' => some (.edited line.left)
  | 'f' => some (.edited line.right)
  | 'a' => some (.edited line.home)
  | 'e' => some (.edited line.end)
  | 'u' => line.killToStart.map .edited
  | 'k' => line.killToEnd.map .edited
  | 'w' => line.deleteWord.map .edited
  | 'p' => (line.historyUp history).map .edited
  | 'n' => (line.historyDown history).map .edited
  | _ => some (.edited line)

/-- The default keys. -/
def defaultKey (key : KeyEvent) : Option Outcome :=
  match key with
  | .enter => some .committed
  | .escape => some .cancelled
  | .ctrl ch => defaultCtrl line history ch
  | .char ch => (line.insert [ch]).map .edited
  | .bytes bytes => (line.insert (lossy bytes)).map .edited
  | .backspace => line.backspace.map .edited
  | .delete => line.delete.map .edited
  | .left => some (.edited line.left)
  | .right => some (.edited line.right)
  | .home => some (.edited line.home)
  | .end => some (.edited line.end)
  | .up => (line.historyUp history).map .edited
  | .down => (line.historyDown history).map .edited
  | _ => some (.edited line)

def handlePromptKey (key : KeyEvent) : Option Outcome := do
  let (taken, line) ← viKey alphanumeric line history key
  if taken then some (.edited line) else defaultKey line history lossy key

end Keys

end PromptLine

/-! ## Cuts where characters start -/

theorem charIndices_elim (text : List Char) (start n : ℕ) :
    (charIndices start text)[n]?.elim (start + byteLength text) (·.1) =
      start + byteLength (text.take n) := by
  induction text generalizing start n with
  | nil => rw [List.take_nil]; rfl
  | cons c text ih =>
    cases n with
    | zero => rfl
    | succ n =>
      have hrest := ih (start + c.utf8Size) n
      rw [Nat.add_assoc, Nat.add_assoc] at hrest
      exact hrest

theorem PromptLine.byteIndex_eq (line : PromptLine) (n : ℕ) :
    line.byteIndex n = byteLength (line.input.take n) := by
  have h := charIndices_elim line.input 0 n
  rw [Nat.zero_add, Nat.zero_add] at h
  exact h

theorem replaceRange_take (text new : List Char) {m n : ℕ} (h : m ≤ n) :
    replaceRange text (byteLength (text.take m)) (byteLength (text.take n)) new =
      some (text.take m ++ new ++ text.drop n) := by
  have htake : text.take n = text.take m ++ (text.drop m).take (n - m) := by
    rw [← List.take_add, Nat.add_sub_cancel' h]
  have hdrop : (text.drop m).drop (n - m) = text.drop n := by
    rw [List.drop_drop, Nat.add_sub_cancel' h]
  rw [htake, byteLength_append, replaceRange, if_pos (Nat.le_add_right _ _), splitBytes_take,
    Nat.add_sub_cancel_left]
  dsimp only [Option.bind_eq_bind, Option.bind_some]
  rw [splitBytes_take, Option.bind_some, hdrop]

theorem insertStr_take (text new : List Char) (n : ℕ) :
    insertStr text (byteLength (text.take n)) new = some (text.take n ++ new ++ text.drop n) := by
  rw [insertStr, splitBytes_take]
  rfl

theorem byteLength_take_le (text : List Char) (n : ℕ) : byteLength (text.take n) ≤ byteLength text := by
  have h := byteLength_append (text.take n) (text.drop n)
  rw [List.take_append_drop] at h
  omega

theorem truncateStr_take (text : List Char) (n : ℕ) :
    truncateStr text (byteLength (text.take n)) = some (text.take n) := by
  rw [truncateStr, if_pos (byteLength_take_le text n), splitBytes_take]
  rfl

/-! ## Where the loops end -/

theorem le_forwardWhile (p : Char → Bool) (chars : List Char) (index : ℕ) :
    index ≤ forwardWhile p chars index := by
  fun_induction forwardWhile p chars index with
  | case1 index h ih => omega
  | case2 index h => exact Nat.le_refl _

theorem forwardWhile_le (p : Char → Bool) {chars : List Char} {index : ℕ} (h : index ≤ chars.length) :
    forwardWhile p chars index ≤ chars.length := by
  fun_induction forwardWhile p chars index with
  | case1 index hin ih => exact ih hin.1
  | case2 index hout => exact h

theorem backWhile_le (p : Char → Bool) {chars : List Char} {index : ℕ} (h : index ≤ chars.length) :
    ∃ start ≤ index, backWhile p chars index = some start := by
  induction index with
  | zero => exact ⟨0, Nat.le_refl 0, rfl⟩
  | succ index ih =>
    rw [backWhile, List.getElem?_eq_getElem h]
    dsimp only [Option.bind_eq_bind, Option.bind_some]
    by_cases hp : p chars[index] = true
    · rw [if_pos hp]
      obtain ⟨start, hle, hstart⟩ := ih (by omega)
      exact ⟨start, by omega, hstart⟩
    · rw [if_neg hp]
      exact ⟨index + 1, Nat.le_refl _, rfl⟩

namespace PromptLine

section Edits

variable {line : PromptLine}

theorem insert_eq (text : List Char) :
    line.insert text = some { line with
      input := line.input.take line.cursor ++
        (text.map fun ch ↦ if isControl ch then ' ' else ch) ++ line.input.drop line.cursor
      cursor := line.cursor + text.length } := by
  rw [insert, byteIndex_eq, insertStr_take, List.length_map]
  rfl

theorem backspace_eq :
    line.backspace = some { line with
      input := line.input.take (line.cursor - 1) ++ line.input.drop line.cursor
      cursor := line.cursor - 1 } := by
  rw [backspace]
  split
  · next hzero =>
    rw [hzero, Nat.zero_sub, List.take_zero, List.drop_zero, List.nil_append, ← hzero]
  · rw [byteIndex_eq, byteIndex_eq, replaceRange_take _ _ (Nat.sub_le _ _), List.append_nil]
    rfl

theorem delete_eq :
    line.delete = some { line with
      input := line.input.take line.cursor ++ line.input.drop (line.cursor + 1) } := by
  rw [delete]
  split
  · next hpast =>
    rw [List.take_of_length_le hpast, List.drop_of_length_le (by omega), List.append_nil]
  · rw [byteIndex_eq, byteIndex_eq, replaceRange_take _ _ (Nat.le_succ _), List.append_nil]
    rfl

theorem killToStart_eq :
    line.killToStart = some { line with input := line.input.drop line.cursor, cursor := 0 } := by
  have h := replaceRange_take line.input [] (Nat.zero_le line.cursor)
  rw [List.take_zero, byteLength_nil, List.nil_append, List.nil_append] at h
  rw [killToStart, byteIndex_eq, h]
  rfl

theorem killToEnd_eq :
    line.killToEnd = some { line with input := line.input.take line.cursor } := by
  rw [killToEnd, byteIndex_eq, truncateStr_take]
  rfl

theorem deleteWord_eq (h : line.cursor ≤ line.input.length) :
    ∃ start ≤ line.cursor, line.deleteWord = some { line with
      input := line.input.take start ++ line.input.drop line.cursor, cursor := start } := by
  obtain ⟨blank, hblank, hfirst⟩ := backWhile_le isWhitespace h
  obtain ⟨start, hstart, hsecond⟩ := backWhile_le (!isWhitespace ·) (hblank.trans h)
  have hle := hstart.trans hblank
  refine ⟨start, hle, ?_⟩
  rw [deleteWord, hfirst]
  dsimp only [Option.bind_eq_bind, Option.bind_some]
  rw [hsecond, Option.bind_some, byteIndex_eq, byteIndex_eq, replaceRange_take _ _ hle,
    List.append_nil]
  rfl

end Edits

section Words

variable (alphanumeric : Char → Bool) {line : PromptLine}

theorem nextWordStart_bounds (h : line.cursor ≤ line.input.length) :
    line.cursor ≤ nextWordStart alphanumeric line ∧
      nextWordStart alphanumeric line ≤ line.input.length := by
  have hblank {index : ℕ} (hle : line.cursor ≤ index) (hin : index ≤ line.input.length) :
      line.cursor ≤ forwardWhile (ofClass alphanumeric .blank) line.input index ∧
        forwardWhile (ofClass alphanumeric .blank) line.input index ≤ line.input.length :=
    ⟨hle.trans (le_forwardWhile _ _ _), forwardWhile_le _ hin⟩
  rw [nextWordStart]
  apply hblank
  · split
    · split
      · exact le_forwardWhile _ _ _
      · exact Nat.le_refl _
    · exact Nat.le_refl _
  · split
    · split
      · exact forwardWhile_le _ h
      · exact h
    · exact h

theorem previousWordStart_eq (line : PromptLine) :
    ∃ start ≤ line.input.length, previousWordStart alphanumeric line = some start := by
  obtain ⟨index, hindex, hfirst⟩ := backWhile_le (ofClass alphanumeric .blank)
    (Nat.min_le_right line.cursor line.input.length)
  have hin := hindex.trans (Nat.min_le_right _ _)
  rw [previousWordStart, hfirst]
  dsimp only [Option.bind_eq_bind, Option.bind_some]
  split
  · exact ⟨0, Nat.zero_le _, rfl⟩
  · rw [List.getElem?_eq_getElem (by omega), Option.bind_some]
    obtain ⟨start, hle, hstart⟩ := backWhile_le _ hin
    exact ⟨start, hle.trans hin, hstart⟩

theorem wordEndFrom_bounds {index : ℕ} (h : index < line.input.length) :
    index ≤ wordEndFrom alphanumeric line index ∧
      wordEndFrom alphanumeric line index + 1 ≤ line.input.length := by
  rw [wordEndFrom, List.getElem?_eq_getElem h]
  have hle := le_forwardWhile (ofClass alphanumeric (charClass alphanumeric line.input[index]))
    line.input (index + 1)
  have hin := forwardWhile_le (ofClass alphanumeric (charClass alphanumeric line.input[index]))
    (show index + 1 ≤ line.input.length from h)
  dsimp only
  omega

theorem nextWordEnd_le : nextWordEnd alphanumeric line ≤ line.input.length := by
  rw [nextWordEnd]
  split
  · exact Nat.sub_le _ _
  · next hin => exact Nat.le_of_succ_le (wordEndFrom_bounds alphanumeric (Nat.lt_of_not_le hin)).2

end Words

end PromptLine

end Embers.Client
