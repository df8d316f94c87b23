import Embers.Client.State

/-!
# Cells of a line, and jumps to a character

Copy mode reads a line as the cells that show it, one for each grapheme, with the columns they take.
Segmentation into graphemes and their display widths come from libraries and are given here.

A jump looks for a character among the cells before or after the cursor and lands on it or beside
it. The cursor may be past the end of the line, where it is beside the last cell on the right. A
jump back to just after a character finds no cell to land on there when that character is the last
of the line, and the source indexes past the cells.
-/

namespace Embers.Client

/-- How a text divides into graphemes, and the columns that a grapheme takes. -/
structure Unicode where
  graphemes : List Char → List (List Char)
  width : List Char → ℕ

/-- The sum, or the largest number of 16 bits. -/
def saturatingAdd16 (a b : UInt16) : UInt16 := UInt16.ofNat (min (a.toNat + b.toNat) (2 ^ 16 - 1))

structure Cell where
  column : UInt16
  width : UInt16
  text : List Char
  deriving DecidableEq, Repr

namespace Cell

/-- The column after the cell. -/
def finish (cell : Cell) : UInt16 := saturatingAdd16 cell.column cell.width

end Cell

/-- The columns a grapheme takes, at least one. -/
def Unicode.cellWidth (u : Unicode) (text : List Char) : UInt16 :=
  UInt16.ofNat (max (min (u.width text) (2 ^ 16 - 1)) 1)

/-- The cells of graphemes from a column on. -/
def cellsFrom (u : Unicode) (column : UInt16) : List (List Char) → List Cell
  | [] => []
  | text :: rest =>
    let cell : Cell := ⟨column, u.cellWidth text, text⟩
    cell :: cellsFrom u cell.finish rest

def cells (u : Unicode) (line : List Char) : List Cell := cellsFrom u 0 (u.graphemes line)

/-- The cell covering a column, or the number of cells when the column is past the end. -/
def cellIndex (cells : List Cell) (column : UInt16) : ℕ :=
  cells.findIdx fun cell ↦ column < cell.finish

/-! ## Jumps -/

inductive JumpKind where
  | forward
  | backward
  | toForward
  | toBackward
  deriving DecidableEq, Repr

/-- An index past the end of a slice, where the client panics. -/
structure OutOfBounds where
  index : ℕ
  length : ℕ
  deriving DecidableEq, Repr

/-- The cell at an index. -/
def cellAt (cells : List Cell) (index : ℕ) : Except OutOfBounds Cell :=
  match cells[index]? with
  | some cell => .ok cell
  | none => .error ⟨index, cells.length⟩

/-- Whether the cell at an index shows the character. -/
def isTarget (cells : List Cell) (target : Char) (index : ℕ) : Bool :=
  (cells[index]?).any (·.text = [target])

/-- The cell a jump lands on. -/
def jumpIndex (kind : JumpKind) (target : Char) (cells : List Cell) (column : UInt16)
    (again : Bool) : Option ℕ :=
  let index := min (cellIndex cells column) cells.length
  let skip := again.toNat
  match kind with
  | .forward => (List.range' (index + 1) (cells.length - (index + 1))).find? (isTarget cells target)
  | .toForward =>
    ((List.range' (index + 1 + skip) (cells.length - (index + 1 + skip))).find?
      (isTarget cells target)).map (· - 1)
  | .backward => (List.range index).reverse.find? (isTarget cells target)
  | .toBackward => ((List.range (index - skip)).reverse.find? (isTarget cells target)).map (· + 1)

/-- A jump on the cursor's line: the new column, or none when the character does not occur. `again`
is set when the last jump is repeated. -/
def jump (u : Unicode) (kind : JumpKind) (target : Char) (cursor : SelectionPoint)
    (line : List Char) (again : Bool) : Except OutOfBounds (Option UInt16) :=
  match jumpIndex kind target (cells u line) cursor.column again with
  | none => .ok none
  | some found => do pure (some (← cellAt (cells u line) found).column)

/-! ## What a jump is for -/

/-- The cell is on the side of the cursor that the jump looks at. -/
def JumpKind.Wants (kind : JumpKind) (column : UInt16) (cell : Cell) : Prop :=
  match kind with
  | .forward | .toForward => column < cell.column
  | .backward | .toBackward => cell.finish ≤ column

/-- A repeated jump to beside a character passes over the cell next to the cursor. -/
def JumpKind.PassesOver (kind : JumpKind) (again : Bool) (cursor index : ℕ) : Prop :=
  match kind with
  | .forward | .backward => False
  | .toForward => again = true ∧ index = cursor + 1
  | .toBackward => again = true ∧ index + 1 = cursor

/-- The cell at the index shows the character and the jump may take it. -/
def Eligible (kind : JumpKind) (target : Char) (cells : List Cell) (column : UInt16)
    (again : Bool) (index : ℕ) : Prop :=
  ∃ cell, cells[index]? = some cell ∧ cell.text = [target] ∧ kind.Wants column cell ∧
    ¬ kind.PassesOver again (cellIndex cells column) index

/-- The first index is at least as near to the cursor as the second. -/
def JumpKind.Nearer (kind : JumpKind) (first second : ℕ) : Prop :=
  match kind with
  | .forward | .toForward => first ≤ second
  | .backward | .toBackward => second ≤ first

/-- The cell a jump to the character at the index lands on. -/
def JumpKind.landing (kind : JumpKind) (index : ℕ) : ℕ :=
  match kind with
  | .forward | .backward => index
  | .toForward => index - 1
  | .toBackward => index + 1

/-- The jump indexes no cell that there is not, finds nothing exactly when no cell is eligible, and
otherwise answers the column it should for the nearest eligible cell. -/
def JumpsRight (u : Unicode) (kind : JumpKind) (target : Char) (cursor : SelectionPoint)
    (line : List Char) (again : Bool) : Prop :=
  ∃ found, jump u kind target cursor line again = .ok found ∧
    (found = none ↔ ∀ index, ¬ Eligible kind target (cells u line) cursor.column again index) ∧
    ∀ column, found = some column →
      ∃ index cell, Eligible kind target (cells u line) cursor.column again index ∧
        (∀ other, Eligible kind target (cells u line) cursor.column again other →
          kind.Nearer index other) ∧
        (cells u line)[kind.landing index]? = some cell ∧ cell.column = column

/-- The cursor is past the end of a line that ends in the character, and the jump goes back to just
after it for the first time. -/
def LeavesLine (u : Unicode) (kind : JumpKind) (target : Char) (cursor : SelectionPoint)
    (line : List Char) (again : Bool) : Prop :=
  kind = .toBackward ∧ again = false ∧
    ∃ cell, (cells u line).getLast? = some cell ∧ cell.text = [target] ∧
      cell.finish ≤ cursor.column

/-! ## Columns of cells -/

theorem toNat_saturatingAdd16 (a b : UInt16) :
    (saturatingAdd16 a b).toNat = min (a.toNat + b.toNat) (2 ^ 16 - 1) := by
  rw [saturatingAdd16, UInt16.toNat_ofNat', Nat.mod_eq_of_lt (by omega)]

theorem le_saturatingAdd16 (a b : UInt16) : a ≤ saturatingAdd16 a b := by
  have ha := a.toNat_lt
  rw [UInt16.le_iff_toNat_le, toNat_saturatingAdd16]
  omega

theorem Cell.column_le_finish (cell : Cell) : cell.column ≤ cell.finish :=
  le_saturatingAdd16 cell.column cell.width

/-- A cell begins where the one before it ends. -/
theorem cellsFrom_next {u : Unicode} {first second : Cell} :
    ∀ {texts : List (List Char)} {column : UInt16} {index : ℕ},
      (cellsFrom u column texts)[index]? = some first →
      (cellsFrom u column texts)[index + 1]? = some second → second.column = first.finish
  | [], _, _, hfirst, _ => nomatch hfirst
  | [text], _, _, _, hsecond => nomatch hsecond
  | text :: text' :: rest, column, 0, hfirst, hsecond => by
    cases hfirst
    cases hsecond
    rfl
  | text :: text' :: rest, column, index + 1, hfirst, hsecond => by
    rw [cellsFrom] at hfirst hsecond
    exact cellsFrom_next (List.getElem?_cons_succ ▸ hfirst) (List.getElem?_cons_succ ▸ hsecond)

section

variable {u : Unicode} {line : List Char} {index other : ℕ} {cell cell' : Cell} {column : UInt16}

theorem cells_next (h : (cells u line)[index]? = some cell)
    (h' : (cells u line)[index + 1]? = some cell') : cell'.column = cell.finish :=
  cellsFrom_next h h'

theorem cells_zero (h : (cells u line)[0]? = some cell) : cell.column = 0 := by
  rw [cells] at h
  cases hline : u.graphemes line with
  | nil =>
    rw [hline] at h
    cases h
  | cons text rest =>
    rw [hline] at h
    cases h
    rfl

/-- Later cells end later. -/
theorem finish_le_finish (hle : index ≤ other) (h : (cells u line)[index]? = some cell) :
    ∀ {cell' : Cell}, (cells u line)[other]? = some cell' → cell.finish ≤ cell'.finish := by
  induction hle with
  | refl =>
    intro cell' h'
    rw [h] at h'
    cases h'
    exact UInt16.le_refl _
  | @step other hle ih =>
    intro cell' h'
    have hlt : other < (cells u line).length :=
      Nat.lt_of_succ_lt (List.getElem?_eq_some_iff.mp h').1
    have hbefore := List.getElem?_eq_getElem hlt
    calc cell.finish ≤ ((cells u line)[other]).finish := ih hbefore
      _ = cell'.column := (cells_next hbefore h').symm
      _ ≤ cell'.finish := cell'.column_le_finish

/-- The cells in front of the one under the cursor are those that end before its column. -/
theorem lt_cellIndex_iff (h : (cells u line)[index]? = some cell) :
    index < cellIndex (cells u line) column ↔ cell.finish ≤ column := by
  obtain ⟨hlt, hcell⟩ := List.getElem?_eq_some_iff.mp h
  rw [cellIndex]
  constructor
  · intro hindex
    have hnot := List.not_of_lt_findIdx hindex
    rw [hcell] at hnot
    simpa using hnot
  · intro hfinish
    refine List.lt_findIdx_of_not hlt fun j hj ↦ ?_
    have hj' : (cells u line)[j]? = some (cells u line)[j] := List.getElem?_eq_getElem (by omega)
    have hle := finish_le_finish hj hj' h
    simpa using UInt16.le_trans hle hfinish

/-- The cells behind the one under the cursor are those that begin after its column. -/
theorem cellIndex_lt_iff (h : (cells u line)[index]? = some cell) :
    cellIndex (cells u line) column < index ↔ column < cell.column := by
  rcases index with _ | index
  · rw [cells_zero h]
    simp
  · have hlt : index < (cells u line).length :=
      Nat.lt_of_succ_lt (List.getElem?_eq_some_iff.mp h).1
    have hbefore := List.getElem?_eq_getElem hlt
    rw [cells_next hbefore h, ← UInt16.not_le, ← lt_cellIndex_iff hbefore]
    omega

theorem cellIndex_le_length : cellIndex (cells u line) column ≤ (cells u line).length :=
  List.findIdx_le_length

end

/-! ## Jumps find the nearest eligible cell -/

theorem isTarget_iff {cells : List Cell} {target : Char} {index : ℕ} :
    isTarget cells target index = true ↔
      ∃ cell, cells[index]? = some cell ∧ cell.text = [target] := by
  simp [isTarget, Option.any_eq_true]

/-- A search downward finds the largest number that passes. -/
theorem find?_reverse_range {p : ℕ → Bool} :
    ∀ {n i : ℕ}, (List.range n).reverse.find? p = some i →
      i < n ∧ p i = true ∧ ∀ j, j < n → p j = true → j ≤ i
  | 0, _, h => nomatch h
  | n + 1, i, h => by
    rw [List.range_succ, List.reverse_append, List.reverse_singleton, List.singleton_append,
      List.find?_cons] at h
    split at h
    · next hn =>
      cases h
      exact ⟨Nat.lt_succ_self n, hn, fun j hj _ ↦ Nat.le_of_lt_succ hj⟩
    · next hn =>
      obtain ⟨hlt, hi, hmax⟩ := find?_reverse_range h
      refine ⟨Nat.lt_succ_of_lt hlt, hi, fun j hj hpj ↦ hmax j ?_ hpj⟩
      rcases Nat.lt_succ_iff_lt_or_eq.mp hj with hj | rfl
      · exact hj
      · rw [hn] at hpj
        cases hpj

section

variable {u : Unicode} {line : List Char} {target : Char} {column : UInt16} {again : Bool}
  {index : ℕ}

/-- Which cells the jump's search goes over. -/
def JumpKind.Searches (kind : JumpKind) (again : Bool) (cursor index : ℕ) : Prop :=
  match kind with
  | .forward => cursor + 1 ≤ index
  | .toForward => cursor + 1 + again.toNat ≤ index
  | .backward => index < cursor
  | .toBackward => index < cursor - again.toNat

/-- A cell is eligible when it shows the character and the search goes over it. -/
theorem eligible_iff {kind : JumpKind} :
    Eligible kind target (cells u line) column again index ↔
      isTarget (cells u line) target index = true ∧
        kind.Searches again (cellIndex (cells u line) column) index := by
  rw [isTarget_iff]
  have hside : ∀ cell, (cells u line)[index]? = some cell →
      (kind.Wants column cell ∧ ¬ kind.PassesOver again (cellIndex (cells u line) column) index ↔
        kind.Searches again (cellIndex (cells u line) column) index) := by
    intro cell hcell
    have hbehind : cellIndex (cells u line) column < index ↔ column < cell.column :=
      cellIndex_lt_iff hcell
    have hfront : index < cellIndex (cells u line) column ↔ cell.finish ≤ column :=
      lt_cellIndex_iff hcell
    cases kind <;> cases again <;>
      simp only [JumpKind.Wants, JumpKind.PassesOver, JumpKind.Searches, ← hbehind, ← hfront,
        Bool.toNat_true, Bool.toNat_false, Bool.false_eq_true, false_and, true_and,
        not_false_eq_true, and_true] <;> omega
  constructor
  · rintro ⟨cell, hcell, htext, hwants⟩
    exact ⟨⟨cell, hcell, htext⟩, (hside cell hcell).mp hwants⟩
  · rintro ⟨⟨cell, hcell, htext⟩, hsearches⟩
    exact ⟨cell, hcell, htext, (hside cell hcell).mpr hsearches⟩

theorem isTarget_lt (h : isTarget (cells u line) target index = true) :
    index < (cells u line).length := by
  obtain ⟨cell, hcell, -⟩ := isTarget_iff.mp h
  exact (List.getElem?_eq_some_iff.mp hcell).1

/-- A search upward finds the first eligible cell. -/
theorem search_up {kind : JumpKind} {first : ℕ} {found : Option ℕ}
    (hsearches : ∀ index, kind.Searches again (cellIndex (cells u line) column) index ↔
      first ≤ index)
    (hfind : (List.range' first ((cells u line).length - first)).find?
      (isTarget (cells u line) target) = found) :
    (found = none ∧ ∀ index, ¬ Eligible kind target (cells u line) column again index) ∨
    ∃ index, found = some index ∧ Eligible kind target (cells u line) column again index ∧
      ∀ other, Eligible kind target (cells u line) column again other → index ≤ other := by
  rcases found with _ | index
  · refine .inl ⟨rfl, fun index heligible ↦ ?_⟩
    obtain ⟨htarget, hsearch⟩ := eligible_iff.mp heligible
    have hlt := isTarget_lt htarget
    have hnone := List.find?_range'_eq_none.mp hfind index ((hsearches index).mp hsearch)
      (by omega)
    rw [htarget] at hnone
    cases hnone
  · obtain ⟨htarget, hmem, hfirst⟩ := List.find?_range'_eq_some.mp hfind
    rw [List.mem_range'_1] at hmem
    refine .inr ⟨index, rfl, eligible_iff.mpr ⟨htarget, (hsearches index).mpr hmem.1⟩, ?_⟩
    intro other hother
    obtain ⟨htarget', hsearch⟩ := eligible_iff.mp hother
    by_contra hlt
    have hnone := hfirst other ((hsearches other).mp hsearch) (by omega)
    rw [htarget'] at hnone
    cases hnone

/-- A search downward finds the last eligible cell. -/
theorem search_down {kind : JumpKind} {last : ℕ} {found : Option ℕ}
    (hsearches : ∀ index, kind.Searches again (cellIndex (cells u line) column) index ↔
      index < last)
    (hfind : (List.range last).reverse.find? (isTarget (cells u line) target) = found) :
    (found = none ∧ ∀ index, ¬ Eligible kind target (cells u line) column again index) ∨
    ∃ index, found = some index ∧ Eligible kind target (cells u line) column again index ∧
      ∀ other, Eligible kind target (cells u line) column again other → other ≤ index := by
  rcases found with _ | index
  · refine .inl ⟨rfl, fun index heligible ↦ ?_⟩
    obtain ⟨htarget, hsearch⟩ := eligible_iff.mp heligible
    rw [List.find?_eq_none] at hfind
    refine hfind index ?_ htarget
    rw [List.mem_reverse, List.mem_range]
    exact (hsearches index).mp hsearch
  · obtain ⟨hlt, htarget, hlast⟩ := find?_reverse_range hfind
    refine .inr ⟨index, rfl, eligible_iff.mpr ⟨htarget, (hsearches index).mpr hlt⟩, ?_⟩
    intro other hother
    obtain ⟨htarget', hsearch⟩ := eligible_iff.mp hother
    exact hlast other ((hsearches other).mp hsearch) htarget'

/-- The cell that a jump lands on is the one beside, or at, the nearest eligible cell. -/
theorem jumpIndex_spec (u : Unicode) (kind : JumpKind) (target : Char) (column : UInt16)
    (line : List Char) (again : Bool) :
    (jumpIndex kind target (cells u line) column again = none ∧
      ∀ index, ¬ Eligible kind target (cells u line) column again index) ∨
    ∃ index, jumpIndex kind target (cells u line) column again = some (kind.landing index) ∧
      Eligible kind target (cells u line) column again index ∧
      ∀ other, Eligible kind target (cells u line) column again other →
        kind.Nearer index other := by
  have hmin : min (cellIndex (cells u line) column) (cells u line).length =
      cellIndex (cells u line) column := Nat.min_eq_left cellIndex_le_length
  cases kind with
  | forward =>
    simp only [jumpIndex, hmin]
    exact search_up (fun _ ↦ Iff.rfl) rfl
  | backward =>
    simp only [jumpIndex, hmin]
    exact search_down (fun _ ↦ Iff.rfl) rfl
  | toForward =>
    simp only [jumpIndex, hmin]
    have hsearches : ∀ index, JumpKind.toForward.Searches again (cellIndex (cells u line) column)
        index ↔ cellIndex (cells u line) column + 1 + again.toNat ≤ index := fun _ ↦ Iff.rfl
    rcases search_up hsearches rfl with ⟨hfind, hnone⟩ | ⟨index, hfind, hindex⟩
    · exact .inl ⟨by rw [hfind]; rfl, hnone⟩
    · exact .inr ⟨index, by rw [hfind]; rfl, hindex⟩
  | toBackward =>
    simp only [jumpIndex, hmin]
    have hsearches : ∀ index, JumpKind.toBackward.Searches again (cellIndex (cells u line) column)
        index ↔ index < cellIndex (cells u line) column - again.toNat := fun _ ↦ Iff.rfl
    rcases search_down hsearches rfl with ⟨hfind, hnone⟩ | ⟨index, hfind, hindex⟩
    · exact .inl ⟨by rw [hfind]; rfl, hnone⟩
    · exact .inr ⟨index, by rw [hfind]; rfl, hindex⟩

end

section

variable {u : Unicode} {kind : JumpKind} {target : Char} {cursor : SelectionPoint}
  {line : List Char} {again : Bool} {index : ℕ}

/-- There is no cell to land on exactly when the jump leaves the line. -/
theorem landing_none_iff (h : Eligible kind target (cells u line) cursor.column again index)
    (hnearest : ∀ other, Eligible kind target (cells u line) cursor.column again other →
      kind.Nearer index other) :
    (cells u line)[kind.landing index]? = none ↔ LeavesLine u kind target cursor line again := by
  obtain ⟨htarget, hsearch⟩ := eligible_iff.mp h
  have hlt := isTarget_lt htarget
  have hle : cellIndex (cells u line) cursor.column ≤ (cells u line).length := cellIndex_le_length
  rw [List.getElem?_eq_none_iff]
  constructor
  · intro hpast
    cases kind with
    | forward => exact absurd hpast (by simp only [JumpKind.landing]; omega)
    | backward => exact absurd hpast (by simp only [JumpKind.landing]; omega)
    | toForward => exact absurd hpast (by simp only [JumpKind.landing]; omega)
    | toBackward =>
      simp only [JumpKind.landing] at hpast
      simp only [JumpKind.Searches] at hsearch
      have hagain : again = false := by
        rcases again with _ | _
        · rfl
        · rw [Bool.toNat_true] at hsearch
          omega
      obtain ⟨cell, hcell, htext, hwants, -⟩ := h
      refine ⟨rfl, hagain, cell, ?_, htext, hwants⟩
      rw [List.getLast?_eq_getElem?, ← hcell]
      congr 1
      omega
  · rintro ⟨rfl, rfl, cell, hlast, htext, hfinish⟩
    rw [List.getLast?_eq_getElem?] at hlast
    have hlastEligible : Eligible .toBackward target (cells u line) cursor.column false
        ((cells u line).length - 1) := by
      refine ⟨cell, hlast, htext, hfinish, ?_⟩
      rintro ⟨hfalse, -⟩
      cases hfalse
    have hge := hnearest _ hlastEligible
    simp only [JumpKind.Nearer] at hge
    simp only [JumpKind.landing]
    omega

/-- **Jumps.** A jump answers as it should exactly when it does not leave the line. -/
theorem jumpsRight_iff :
    JumpsRight u kind target cursor line again ↔ ¬ LeavesLine u kind target cursor line again := by
  rcases jumpIndex_spec u kind target cursor.column line again with
    ⟨hfind, hnone⟩ | ⟨index, hfind, hindex, hnearest⟩
  · have hjump : jump u kind target cursor line again = .ok none := by
      rw [jump, hfind]
    refine iff_of_true ⟨none, hjump, iff_of_true rfl hnone, nofun⟩ ?_
    rintro ⟨rfl, rfl, cell, hlast, htext, hfinish⟩
    rw [List.getLast?_eq_getElem?] at hlast
    refine hnone _ ⟨cell, hlast, htext, hfinish, ?_⟩
    rintro ⟨hfalse, -⟩
    cases hfalse
  · rw [← landing_none_iff hindex hnearest]
    cases hcell : (cells u line)[kind.landing index]? with
    | none =>
      have hjump : jump u kind target cursor line again =
          .error ⟨kind.landing index, (cells u line).length⟩ := by
        rw [jump, hfind]
        simp only [cellAt, hcell]
        rfl
      refine iff_of_false ?_ (fun hsome ↦ hsome rfl)
      rintro ⟨found, hfound, -⟩
      rw [hjump] at hfound
      cases hfound
    | some cell =>
      have hjump : jump u kind target cursor line again = .ok (some cell.column) := by
        rw [jump, hfind]
        simp only [cellAt, hcell]
        rfl
      refine iff_of_true ⟨some cell.column, hjump, ?_, ?_⟩ nofun
      · exact iff_of_false nofun fun hnone ↦ hnone index hindex
      · intro column hcolumn
        cases hcolumn
        exact ⟨index, cell, hindex, hnearest, hcell, rfl⟩

/-- Every character a grapheme of one column. -/
def narrow : Unicode := ⟨fun line ↦ line.map ([·]), fun _ ↦ 1⟩

/-- From past the end of `a,` a jump back to just after the comma indexes past the line. -/
theorem jump_past_last_cell :
    jump narrow .toBackward ',' ⟨0, 5⟩ "a,".toList false = .error ⟨2, 2⟩ ∧
      ¬ JumpsRight narrow .toBackward ',' ⟨0, 5⟩ "a,".toList false := by
  have hjump : jump narrow .toBackward ',' ⟨0, 5⟩ "a,".toList false = .error ⟨2, 2⟩ := by decide
  refine ⟨hjump, ?_⟩
  rintro ⟨found, hfound, -⟩
  rw [hjump] at hfound
  cases hfound

end

end Embers.Client
