import Embers.Lib.Seek
import Embers.Client.CopyCells

/-!
# Word motions of copy mode

The walker goes through a text cell by cell. Each line ends in a position past its last cell that
reads as blank, so a word never goes on in the next line, and an empty line has only that position.
The motions are loops of steps with different tests.

`WordStart` and `WordEnd` say what the motions look for, and `Declared` where each should go: to the
nearest of these after or before the cursor, and to the end or the start of the text when there is
none. The cursor counts as the cell that covers its column, or as the position past the end, and a
cursor below the text counts as on its last line. The end of the text is its last line's last cell,
and the line's start when it is empty.
-/

namespace Embers.Client

/-! ## The walker -/

inductive CharClass where
  | blank
  | separator
  | word
  deriving DecidableEq, Repr

/-- `char::is_ascii_punctuation`. -/
def isAsciiPunctuation (c : Char) : Bool :=
  (0x21 ≤ c.toNat && c.toNat ≤ 0x2F) || (0x3A ≤ c.toNat && c.toNat ≤ 0x40)
    || (0x5B ≤ c.toNat && c.toNat ≤ 0x60) || (0x7B ≤ c.toNat && c.toNat ≤ 0x7E)

def classOf (text : List Char) (spaceSeparated : Bool) : CharClass :=
  match text with
  | [] => .blank
  | ch :: _ =>
    if isWhitespace ch then .blank
    else if !spaceSeparated && isAsciiPunctuation ch && decide (ch ≠ '_') then .separator
    else .word

/-- What a motion reads: the lines of the buffer, the last of them it goes to, and whether only
blanks separate words. -/
structure Text where
  unicode : Unicode
  lines : List (List Char)
  lastLine : ℕ
  spaceSeparated : Bool

structure Walker where
  line : ℕ
  index : ℕ
  deriving DecidableEq, Repr

namespace Text

variable (t : Text)

/-- The cells of a line. Lines past the buffer read as empty. -/
def row (line : ℕ) : List Cell := cells t.unicode (t.lines[line]?.getD [])

def classAt (line index : ℕ) : CharClass :=
  match (t.row line)[index]? with
  | some cell => classOf cell.text t.spaceSeparated
  | none => .blank

/-- The walker at a point of the screen. -/
def walkerAt (cursor : SelectionPoint) : Walker :=
  let line := min cursor.line t.lastLine
  ⟨line, cellIndex (t.row line) cursor.column⟩

def charClass (w : Walker) : CharClass := t.classAt w.line w.index

def onEmptyLine (w : Walker) : Bool := (t.row w.line).isEmpty

/-- The walker one step on, unless it is at the end. -/
def forward (w : Walker) : Option Walker :=
  if w.index < (t.row w.line).length then some ⟨w.line, w.index + 1⟩
  else if w.line < t.lastLine then some ⟨w.line + 1, 0⟩
  else none

/-- The walker one step back, unless it is at the start. -/
def backward (w : Walker) : Option Walker :=
  if w.index > 0 then some ⟨w.line, w.index - 1⟩
  else if w.line > 0 then some ⟨w.line - 1, (t.row (w.line - 1)).length⟩
  else none

/-- The point of a walker, on the last cell when the walker is past the end of a line. -/
def point (w : Walker) : SelectionPoint :=
  let index := min w.index ((t.row w.line).length - 1)
  ⟨w.line, ((t.row w.line)[index]?.map (·.column)).getD 0⟩

/-! ## The motions -/

/-- A step that leaves the motion early when there is none to take. -/
def step (next : Walker → Option Walker) (w : Walker) : Answer Walker Walker :=
  match next w with
  | some w' => .ok w'
  | none => .fail w

def nextWordStart (fuel : ℕ) (cursor : SelectionPoint) : Answer Walker Walker := do
  let walker := t.walkerAt cursor
  let start := t.charClass walker
  let walker ← step t.forward walker
  let walker ← if start ≠ .blank then seek t.forward (fun w ↦ t.charClass w = start) fuel walker
    else pure walker
  -- An empty line is a word of its own.
  seek t.forward (fun w ↦ decide (t.charClass w = .blank) && !t.onEmptyLine w) fuel walker

def nextWordEnd (fuel : ℕ) (cursor : SelectionPoint) : Answer Walker Walker := do
  let walker ← step t.forward (t.walkerAt cursor)
  let walker ← seek t.forward (fun w ↦ t.charClass w = .blank) fuel walker
  let start := t.charClass walker
  seek (fun w ↦ some ⟨w.line, w.index + 1⟩)
    (fun w ↦ t.classAt w.line (w.index + 1) = start) fuel walker

/-- The start of the run of one class that ends at an index. -/
def runStart (line : ℕ) (start : CharClass) : ℕ → ℕ
  | 0 => 0
  | index + 1 => if t.classAt line index = start then runStart line start index else index + 1

def previousWordStart (fuel : ℕ) (cursor : SelectionPoint) : Answer Walker Walker := do
  let walker ← step t.backward (t.walkerAt cursor)
  let walker ←
    seek t.backward (fun w ↦ decide (t.charClass w = .blank) && !t.onEmptyLine w) fuel walker
  if t.onEmptyLine walker then pure walker
  else pure ⟨walker.line, t.runStart walker.line (t.charClass walker) walker.index⟩

end Text

/-- The motions by words. Those by spaces are the same with words that only blanks separate. -/
inductive WordMotion where
  | nextWord
  | nextSpace
  | previousWord
  | previousSpace
  | nextWordEnd
  | nextSpaceEnd
  deriving DecidableEq, Repr

def WordMotion.spaceSeparated : WordMotion → Bool
  | .nextWord | .previousWord | .nextWordEnd => false
  | .nextSpace | .previousSpace | .nextSpaceEnd => true

/-- Where a motion leaves its walker, early or not. -/
def stopped : Answer Walker Walker → Option Walker
  | .ok w => some w
  | .error (.error w) => some w
  | .error .diverges => none

/-- The point a word motion goes to, unless it runs out of fuel. -/
def applyMotion (u : Unicode) (fuel : ℕ) (motion : WordMotion) (cursor : SelectionPoint)
    (lines : List (List Char)) (lastLine : ℕ) : Option SelectionPoint :=
  let t : Text := ⟨u, lines, lastLine, motion.spaceSeparated⟩
  let walked := match motion with
    | .nextWord | .nextSpace => t.nextWordStart fuel cursor
    | .previousWord | .previousSpace => t.previousWordStart fuel cursor
    | .nextWordEnd | .nextSpaceEnd => t.nextWordEnd fuel cursor
  (stopped walked).map t.point

/-! ## What the motions are for -/

/-- In the order of reading. -/
def Walker.Before (a b : Walker) : Prop := a.line < b.line ∨ a.line = b.line ∧ a.index < b.index

namespace Text

variable (t : Text)

/-- A position of the text: a cell, or past the last cell of a line. -/
def Within (w : Walker) : Prop := w.line ≤ t.lastLine ∧ w.index ≤ (t.row w.line).length

/-- A cell that is not blank and begins a run of its class, or an empty line. -/
def WordStart (w : Walker) : Prop :=
  (t.charClass w ≠ .blank ∧ (w.index = 0 ∨ t.classAt w.line (w.index - 1) ≠ t.charClass w)) ∨
    t.row w.line = []

/-- A cell that is not blank and ends a run of its class. -/
def WordEnd (w : Walker) : Prop :=
  t.charClass w ≠ .blank ∧
    ((t.row w.line)[w.index + 1]? = none ∨ t.classAt w.line (w.index + 1) ≠ t.charClass w)

/-- The point is that of the first position after the cursor with the property, or the end of the
text when there is none. -/
def FirstAfter (P : Walker → Prop) (cursor found : SelectionPoint) : Prop :=
  (∃ w, t.Within w ∧ P w ∧ (t.walkerAt cursor).Before w ∧ found = t.point w ∧
    ∀ w', t.Within w' → P w' → (t.walkerAt cursor).Before w' → ¬ w'.Before w) ∨
  ((∀ w, t.Within w → (t.walkerAt cursor).Before w → ¬ P w) ∧
    found = t.point ⟨t.lastLine, (t.row t.lastLine).length⟩)

/-- The point is that of the last position before the cursor with the property, or the start of the
text when there is none. -/
def LastBefore (P : Walker → Prop) (cursor found : SelectionPoint) : Prop :=
  (∃ w, t.Within w ∧ P w ∧ w.Before (t.walkerAt cursor) ∧ found = t.point w ∧
    ∀ w', t.Within w' → P w' → w'.Before (t.walkerAt cursor) → ¬ w.Before w') ∨
  ((∀ w, t.Within w → w.Before (t.walkerAt cursor) → ¬ P w) ∧ found = ⟨0, 0⟩)

end Text

/-- Where a motion should go. -/
def WordMotion.Declared (motion : WordMotion) (u : Unicode) (cursor : SelectionPoint)
    (lines : List (List Char)) (lastLine : ℕ) (found : SelectionPoint) : Prop :=
  let t : Text := ⟨u, lines, lastLine, motion.spaceSeparated⟩
  match motion with
  | .nextWord | .nextSpace => t.FirstAfter t.WordStart cursor found
  | .previousWord | .previousSpace => t.LastBefore t.WordStart cursor found
  | .nextWordEnd | .nextSpaceEnd => t.FirstAfter t.WordEnd cursor found

/-! ## The order of reading -/

theorem Walker.Before.trans {a b c : Walker} (h : a.Before b) (h' : b.Before c) : a.Before c := by
  rw [Walker.Before] at h h' ⊢
  omega

theorem Walker.Before.irrefl {a : Walker} (h : a.Before a) : False := by
  rw [Walker.Before] at h
  omega

theorem Walker.before_or_eq (a b : Walker) : a.Before b ∨ a = b ∨ b.Before a := by
  rcases Nat.lt_trichotomy a.line b.line with hline | hline | hline
  · exact .inl (.inl hline)
  · rcases Nat.lt_trichotomy a.index b.index with hindex | hindex | hindex
    · exact .inl (.inr ⟨hline, hindex⟩)
    · refine .inr (.inl ?_)
      rcases a with ⟨line, index⟩
      rcases b with ⟨line', index'⟩
      cases hline
      cases hindex
      rfl
    · exact .inr (.inr (.inr ⟨hline.symm, hindex⟩))
  · exact .inr (.inr (.inl hline))

namespace Text

variable {t : Text} {w w' : Walker}

theorem charClass_past (h : (t.row w.line).length ≤ w.index) : t.charClass w = .blank := by
  rw [charClass, classAt, List.getElem?_eq_none h]

theorem lt_length_of_charClass (h : t.charClass w ≠ .blank) : w.index < (t.row w.line).length := by
  by_contra hge
  exact h (charClass_past (Nat.not_lt.mp hge))

theorem walkerAt_within (cursor : SelectionPoint) : t.Within (t.walkerAt cursor) :=
  ⟨Nat.min_le_right _ _, List.findIdx_le_length⟩

/-- The walker goes forward through every position. -/
theorem forward_steps : Steps t.Within Walker.Before t.forward where
  trans := Walker.Before.trans
  some := by
    rintro ⟨line, index⟩ b ⟨hline, hindex⟩ hnext
    rw [forward] at hnext
    dsimp only at hline hindex hnext
    split at hnext
    · next hlt =>
      cases hnext
      refine ⟨⟨hline, hlt⟩, .inr ⟨rfl, Nat.lt_succ_self index⟩, ?_⟩
      rintro ⟨line', index'⟩ - hafter
      rcases Walker.before_or_eq ⟨line', index'⟩ ⟨line, index + 1⟩ with hback | heq | hon
      · simp only [Walker.Before] at hafter hback
        omega
      · exact .inl heq
      · exact .inr hon
    · next hge =>
      split at hnext
      · next hlt =>
        cases hnext
        refine ⟨⟨hlt, Nat.zero_le _⟩, .inl (Nat.lt_succ_self line), ?_⟩
        rintro ⟨line', index'⟩ ⟨-, hindex'⟩ hafter
        rcases Walker.before_or_eq ⟨line', index'⟩ ⟨line + 1, 0⟩ with hback | heq | hon
        · simp only [Walker.Before] at hafter hback
          obtain rfl : line' = line := by omega
          dsimp only at hindex'
          omega
        · exact .inl heq
        · exact .inr hon
      · cases hnext
  none := by
    rintro ⟨line, index⟩ ⟨hline, hindex⟩ hnext ⟨line', index'⟩ ⟨hline', hindex'⟩ hafter
    rw [forward] at hnext
    dsimp only at hline hindex hnext hline' hindex'
    split at hnext
    · cases hnext
    · next hge =>
      split at hnext
      · cases hnext
      · simp only [Walker.Before] at hafter
        obtain rfl : line' = line := by omega
        omega

/-- The walker goes back through every position. -/
theorem backward_steps : Steps t.Within (fun a b ↦ b.Before a) t.backward where
  trans := fun h h' ↦ h'.trans h
  some := by
    rintro ⟨line, index⟩ b ⟨hline, hindex⟩ hnext
    rw [backward] at hnext
    dsimp only at hline hindex hnext
    split at hnext
    · next hpos =>
      cases hnext
      refine ⟨⟨hline, by dsimp only; omega⟩, .inr ⟨rfl, by dsimp only; omega⟩, ?_⟩
      rintro ⟨line', index'⟩ - hafter
      rcases Walker.before_or_eq ⟨line, index - 1⟩ ⟨line', index'⟩ with hback | heq | hon
      · simp only [Walker.Before] at hafter hback
        omega
      · exact .inl heq.symm
      · exact .inr hon
    · next hzero =>
      split at hnext
      · next hpos =>
        cases hnext
        refine ⟨⟨by dsimp only; omega, Nat.le_refl _⟩, .inl (by dsimp only; omega), ?_⟩
        rintro ⟨line', index'⟩ ⟨-, hindex'⟩ hafter
        rcases Walker.before_or_eq ⟨line - 1, (t.row (line - 1)).length⟩ ⟨line', index'⟩ with
          hback | heq | hon
        · simp only [Walker.Before] at hafter hback
          obtain rfl : line' = line - 1 := by omega
          dsimp only at hindex'
          omega
        · exact .inl heq.symm
        · exact .inr hon
      · cases hnext
  none := by
    rintro ⟨line, index⟩ ⟨hline, hindex⟩ hnext ⟨line', index'⟩ - hafter
    rw [backward] at hnext
    dsimp only at hnext
    split at hnext
    · cases hnext
    · split at hnext
      · cases hnext
      · simp only [Walker.Before] at hafter
        omega

end Text

end Embers.Client
