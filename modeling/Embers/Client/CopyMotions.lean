import Embers.Client.Rows
import Embers.Client.WordSearch

/-!
# Motions of copy mode

A motion moves the cursor by its own rule, and the view by half a page or a page when it is one of
these. Whatever the rule, the view is then scrolled as little as shows the cursor. So after a motion
the cursor is on the screen, if it is in the buffer at all. The one motion that can leave the buffer
goes to the top row of a view with no rows that is scrolled past the last line.

A count repeats a motion until nothing changes any more.
-/

namespace Embers.Client

open Embers.Protocol

/-- A copy-mode motion. -/
inductive CopyMotion where
  | left
  | right
  | up
  | down
  | nextWord
  | previousWord
  | nextWordEnd
  | nextSpace
  | previousSpace
  | nextSpaceEnd
  | startOfLine
  | backToIndentation
  | endOfLine
  | historyTop
  | historyBottom
  | topLine
  | middleLine
  | bottomLine
  | previousParagraph
  | nextParagraph
  | halfPageUp
  | halfPageDown
  | pageUp
  | pageDown
  deriving DecidableEq, Repr

/-- Whether a count repeats the motion. Motions to an absolute position ignore it. -/
def CopyMotion.repeats : CopyMotion → Bool
  | .startOfLine | .backToIndentation | .endOfLine | .historyTop | .historyBottom | .topLine
  | .middleLine | .bottomLine => false
  | _ => true

/-- A view of a terminal with columns. -/
structure CopyPane extends CopyViewport where
  cols : UInt16
  deriving DecidableEq, Repr

def CopyViewport.lastLine (viewport : CopyViewport) : ℕ := viewport.total - 1

/-- Where a motion leaves the cursor and the view. -/
structure MotionOutcome where
  cursor : SelectionPoint
  top : ℕ
  deriving DecidableEq, Repr

/-! ## Paragraphs -/

section

variable (lines : List (List Char))

def lineText (line : ℕ) : List Char := lines[line]?.getD []

def isBlankLine (line : ℕ) : Bool := (lineText lines line).all isWhitespace

/-- The last line up from a line that is not blank, or the first line. -/
def textAbove : ℕ → ℕ
  | 0 => 0
  | line + 1 => if isBlankLine lines (line + 1) then textAbove line else line + 1

/-- The last blank line above a line. -/
def blankAbove : ℕ → Option ℕ
  | 0 => none
  | line + 1 => if isBlankLine lines line then some line else blankAbove line

def previousParagraph (cursor : SelectionPoint) : SelectionPoint :=
  ⟨(blankAbove lines (textAbove lines cursor.line)).getD 0, 0⟩

/-- The first line from a line on that is not blank, or the last one of `left` more. -/
def textBelow (line : ℕ) : ℕ → ℕ
  | 0 => line
  | left + 1 => if isBlankLine lines line then textBelow (line + 1) left else line

/-- The first blank line of `left` below a line. -/
def blankBelow (line : ℕ) : ℕ → Option ℕ
  | 0 => none
  | left + 1 => if isBlankLine lines (line + 1) then some (line + 1) else blankBelow (line + 1) left

def nextParagraph (u : Unicode) (lastLine : ℕ) (cursor : SelectionPoint) : SelectionPoint :=
  let line := textBelow lines cursor.line (lastLine - cursor.line)
  match blankBelow lines line (lastLine - line) with
  | some line => ⟨line, 0⟩
  | none =>
    ⟨lastLine, ((cells u (lineText lines lastLine)).getLast?.map (·.column)).getD 0⟩

end

/-! ## One motion -/

def pageDelta (motion : CopyMotion) (rows : ℕ) : ℕ :=
  match motion with
  | .halfPageUp | .halfPageDown => max (max rows 1 / 2) 1
  | _ => max rows 1

section

variable (u : Unicode) (fuel : ℕ) (lines : List (List Char)) (pane : CopyPane)

/-- The cursor after a motion, and the view as far as the motion scrolls it. Without an answer, a
word motion has run out of fuel. -/
def moveCursor (motion : CopyMotion) (cursor : SelectionPoint) : Option (SelectionPoint × ℕ) :=
  let lastLine := pane.lastLine
  let top := pane.top
  let word (motion : WordMotion) :=
    (applyMotion u fuel motion cursor lines lastLine).map fun cursor ↦ (cursor, top)
  let delta := pageDelta motion pane.rows
  match motion with
  | .left => some ({ cursor with column := .ofNat (cursor.column.toNat - 1) }, top)
  | .right =>
    let column := min (saturatingAdd16 cursor.column 1) (.ofNat (pane.cols.toNat - 1))
    some ({ cursor with column }, top)
  | .up => some ({ cursor with line := cursor.line - 1 }, top)
  | .down => some ({ cursor with line := min (saturatingAdd cursor.line 1) lastLine }, top)
  | .nextWord => word .nextWord
  | .nextSpace => word .nextSpace
  | .previousWord => word .previousWord
  | .previousSpace => word .previousSpace
  | .nextWordEnd => word .nextWordEnd
  | .nextSpaceEnd => word .nextSpaceEnd
  | .startOfLine => some ({ cursor with column := 0 }, top)
  | .backToIndentation =>
    let first := (cells u (lineText lines cursor.line)).find? fun cell ↦
      classOf cell.text true ≠ .blank
    some ({ cursor with column := (first.map (·.column)).getD 0 }, top)
  | .endOfLine =>
    let last := (cells u (lineText lines cursor.line)).getLast?
    some ({ cursor with column := (last.map (·.column)).getD 0 }, top)
  | .historyTop => some (⟨0, 0⟩, top)
  | .historyBottom => some (⟨lastLine, 0⟩, top)
  | .topLine => some (⟨top, 0⟩, top)
  | .middleLine =>
    some (⟨min (saturatingAdd top ((max pane.rows 1 - 1) / 2)) lastLine, 0⟩, top)
  | .bottomLine => some (⟨min (saturatingAdd top (max pane.rows 1 - 1)) lastLine, 0⟩, top)
  | .previousParagraph => some (previousParagraph lines cursor, top)
  | .nextParagraph => some (nextParagraph lines u lastLine cursor, top)
  | .halfPageUp | .pageUp =>
    some ({ cursor with line := cursor.line - delta }, top - delta)
  | .halfPageDown | .pageDown =>
    some ({ cursor with line := min (saturatingAdd cursor.line delta) lastLine },
      min (saturatingAdd top delta) pane.bottomTop)

/-- Apply a motion once and reveal the cursor. -/
def applyCopyMotion (motion : CopyMotion) (outcome : MotionOutcome) : Option MotionOutcome :=
  let pane := { pane with top := outcome.top }
  (moveCursor u fuel lines pane motion outcome.cursor).map fun moved ↦
    ⟨moved.1, pane.reveal moved.2 moved.1.line⟩

end

/-- A step taken some times over, or until it changes nothing. -/
def repeatStep {α : Type} [DecidableEq α] (step : α → Option α) : ℕ → α → Option α
  | 0, a => some a
  | count + 1, a => do
    let next ← step a
    if next = a then some a else repeatStep step count next

section

variable (u : Unicode) (fuel : ℕ) (lines : List (List Char)) (pane : CopyPane)

/-- A motion with a count. -/
def copyMotion (motion : CopyMotion) (count : ℕ) (outcome : MotionOutcome) : Option MotionOutcome :=
  repeatStep (applyCopyMotion u fuel lines pane motion)
    (if motion.repeats then max count 1 else 1) outcome

/-- What some motions with counts lead to, one after the other. -/
def copyMotions : List (CopyMotion × ℕ) → MotionOutcome → Option (List MotionOutcome)
  | [], _ => some []
  | (motion, count) :: motions, outcome => do
    let next ← copyMotion u fuel lines pane motion count outcome
    let others ← copyMotions motions next
    some (next :: others)

end

/-! ## Where the cursor is -/

/-- The cursor is in the buffer and on the screen, and the view does not end below the buffer. -/
structure OnView (pane : CopyPane) (outcome : MotionOutcome) : Prop where
  line : outcome.cursor.line < pane.total
  top : outcome.top ≤ pane.bottomTop
  above : outcome.top ≤ outcome.cursor.line
  below : outcome.cursor.line < outcome.top + max pane.rows 1

/-- The cursor and the top of the view are in the buffer, and the view does not end below it. -/
structure InBuffer (pane : CopyPane) (outcome : MotionOutcome) : Prop where
  line : outcome.cursor.line < pane.total
  top : outcome.top ≤ pane.bottomTop
  topLine : outcome.top < pane.total

section

variable {u : Unicode} {fuel : ℕ} {lines : List (List Char)} {pane : CopyPane}
  {outcome : MotionOutcome}

theorem OnView.inBuffer (h : OnView pane outcome) : InBuffer pane outcome :=
  ⟨h.line, h.top, h.above.trans_lt h.line⟩

/-- What is on the screen is revealed where it is. -/
theorem reveal_eq_self {top line : ℕ} (htotal : pane.total < 2 ^ 64) (hline : line < pane.total)
    (htop : top ≤ pane.bottomTop) (habove : top ≤ line) (hbelow : line < top + max pane.rows 1) :
    pane.reveal top line = top := by
  have hshown : ¬ saturatingAdd top (max pane.rows 1) ≤ line := by
    rw [saturatingAdd]
    omega
  simp only [CopyViewport.reveal, if_neg (Nat.not_lt.mpr habove), ge_iff_le, if_neg hshown]
  exact Nat.min_eq_left htop

theorem onView_reveal {cursor : SelectionPoint} {top : ℕ} (htotal : pane.total < 2 ^ 64)
    (hline : cursor.line < pane.total) (htop : top ≤ pane.bottomTop) :
    OnView pane ⟨cursor, pane.reveal top cursor.line⟩ := by
  have hbottom : pane.bottomTop = pane.total - pane.rows := rfl
  rcases Nat.lt_or_ge cursor.line top with hlt | hge
  · have hreveal : pane.reveal top cursor.line = cursor.line := by
      simp only [CopyViewport.reveal, if_pos hlt]
      omega
    rw [hreveal]
    exact ⟨hline, by simp only; omega, Nat.le_refl _, by simp only; omega⟩
  · rcases Nat.lt_or_ge cursor.line (top + max pane.rows 1) with hshown | hpast
    · rw [reveal_eq_self htotal hline htop hge hshown]
      exact ⟨hline, htop, hge, hshown⟩
    · have hpast' : saturatingAdd top (max pane.rows 1) ≤ cursor.line := by
        rw [saturatingAdd]
        omega
      have hreveal : pane.reveal top cursor.line = cursor.line - (max pane.rows 1 - 1) := by
        simp only [CopyViewport.reveal, if_neg (Nat.not_lt.mpr hge), ge_iff_le, if_pos hpast']
        omega
      rw [hreveal]
      exact ⟨hline, by simp only; omega, by simp only; omega, by simp only; omega⟩

/-! ## One motion -/

theorem textAbove_le (line : ℕ) : textAbove lines line ≤ line := by
  induction line with
  | zero => exact Nat.le_refl 0
  | succ line ih =>
    rw [textAbove]
    split
    · exact ih.trans (Nat.le_succ line)
    · exact Nat.le_refl _

theorem blankAbove_lt {line above : ℕ} (h : blankAbove lines line = some above) : above < line := by
  induction line with
  | zero => cases h
  | succ line ih =>
    rw [blankAbove] at h
    split at h
    · cases h
      exact Nat.lt_succ_self _
    · exact (ih h).trans (Nat.lt_succ_self _)

theorem previousParagraph_line_le (cursor : SelectionPoint) :
    (previousParagraph lines cursor).line ≤ cursor.line := by
  have hle : textAbove lines cursor.line ≤ cursor.line := textAbove_le _
  rw [previousParagraph]
  cases hblank : blankAbove lines (textAbove lines cursor.line) with
  | none => exact Nat.zero_le _
  | some above => exact (blankAbove_lt hblank).le.trans hle

theorem textBelow_le (line left : ℕ) : textBelow lines line left ≤ line + left := by
  induction left generalizing line with
  | zero => exact Nat.le_refl _
  | succ left ih =>
    rw [textBelow]
    split
    · have hle := ih (line + 1)
      omega
    · exact Nat.le_add_right _ _

theorem blankBelow_le {line left below : ℕ} (h : blankBelow lines line left = some below) :
    below ≤ line + left := by
  induction left generalizing line with
  | zero => cases h
  | succ left ih =>
    rw [blankBelow] at h
    split at h
    · cases h
      omega
    · have hle := ih h
      omega

theorem nextParagraph_line_le {lastLine : ℕ} {cursor : SelectionPoint} (h : cursor.line ≤ lastLine) :
    (nextParagraph lines u lastLine cursor).line ≤ lastLine := by
  have hle : textBelow lines cursor.line (lastLine - cursor.line) ≤
      cursor.line + (lastLine - cursor.line) := textBelow_le _ _
  rw [nextParagraph]
  split
  · next hblank =>
    have hbelow := blankBelow_le hblank
    simp only
    omega
  · exact Nat.le_refl _

/-- A word motion stays in the text. -/
theorem WordMotion.Declared.line_le {motion : WordMotion} {cursor found : SelectionPoint}
    {lastLine : ℕ} (h : motion.Declared u cursor lines lastLine found) : found.line ≤ lastLine := by
  have hafter : ∀ (t : Text) {P : Walker → Prop}, t.FirstAfter P cursor found →
      found.line ≤ t.lastLine := by
    rintro t P (⟨w, hw, -, -, rfl, -⟩ | ⟨-, rfl⟩)
    · exact hw.1
    · exact Nat.le_refl _
  have hbefore : ∀ (t : Text) {P : Walker → Prop}, t.LastBefore P cursor found →
      found.line ≤ t.lastLine := by
    rintro t P (⟨w, hw, -, -, rfl, -⟩ | ⟨-, rfl⟩)
    · exact hw.1
    · exact Nat.zero_le _
  cases motion with
  | nextWord | nextSpace | nextWordEnd | nextSpaceEnd => exact hafter _ h
  | previousWord | previousSpace => exact hbefore _ h

/-- Word motions have fuel enough and stay in the buffer. -/
def Walks (u : Unicode) (fuel : ℕ) (lines : List (List Char)) (lastLine : ℕ) : Prop :=
  ∀ (motion : WordMotion) (cursor : SelectionPoint), ∃ found,
    applyMotion u fuel motion cursor lines lastLine = some found ∧ found.line ≤ lastLine

theorem exists_walks (u : Unicode) (lines : List (List Char)) (lastLine : ℕ) :
    ∃ enough, ∀ fuel, enough ≤ fuel → Walks u fuel lines lastLine := by
  obtain ⟨enough, henough⟩ := exists_fuel_applyMotion u lines lastLine
  refine ⟨enough, fun fuel hfuel motion cursor ↦ ?_⟩
  obtain ⟨found, hfound, hdeclared⟩ := henough fuel hfuel motion cursor
  exact ⟨found, hfound, hdeclared.line_le⟩

/-- A motion keeps the cursor in the buffer and the view from ending below it. -/
theorem moveCursor_ok (hwalks : Walks u fuel lines pane.lastLine) {cursor : SelectionPoint}
    (h : InBuffer pane ⟨cursor, pane.top⟩) (motion : CopyMotion) :
    ∃ moved, moveCursor u fuel lines pane motion cursor = some moved ∧
      moved.1.line < pane.total ∧ moved.2 ≤ pane.bottomTop := by
  obtain ⟨hline, htop, htopLine⟩ := h
  simp only at hline htop htopLine
  have hlast : pane.lastLine = pane.total - 1 := rfl
  have hword : ∀ motion : WordMotion, ∃ moved,
      (applyMotion u fuel motion cursor lines pane.lastLine).map (·, pane.top) = some moved ∧
        moved.1.line < pane.total ∧ moved.2 ≤ pane.bottomTop := by
    intro motion
    obtain ⟨found, hfound, hle⟩ := hwalks motion cursor
    exact ⟨(found, pane.top), by rw [hfound]; rfl, by simp only; omega, htop⟩
  cases motion with
  | left | right | startOfLine | backToIndentation | endOfLine => exact ⟨_, rfl, hline, htop⟩
  | up => exact ⟨_, rfl, by simp only; omega, htop⟩
  | down => exact ⟨_, rfl, by simp only; omega, htop⟩
  | nextWord => exact hword .nextWord
  | nextSpace => exact hword .nextSpace
  | previousWord => exact hword .previousWord
  | previousSpace => exact hword .previousSpace
  | nextWordEnd => exact hword .nextWordEnd
  | nextSpaceEnd => exact hword .nextSpaceEnd
  | historyTop => exact ⟨_, rfl, Nat.zero_lt_of_lt hline, htop⟩
  | historyBottom => exact ⟨_, rfl, by simp only; omega, htop⟩
  | topLine => exact ⟨_, rfl, htopLine, htop⟩
  | middleLine | bottomLine => exact ⟨_, rfl, by simp only; omega, htop⟩
  | previousParagraph =>
    exact ⟨_, rfl, (previousParagraph_line_le cursor).trans_lt hline, htop⟩
  | nextParagraph =>
    have hle : (nextParagraph lines u pane.lastLine cursor).line ≤ pane.lastLine :=
      nextParagraph_line_le (by omega)
    exact ⟨_, rfl, by simp only; omega, htop⟩
  | halfPageUp | pageUp => exact ⟨_, rfl, by simp only; omega, (Nat.sub_le _ _).trans htop⟩
  | halfPageDown | pageDown => exact ⟨_, rfl, by simp only; omega, Nat.min_le_right _ _⟩

/-- After a motion the cursor is on the screen. -/
theorem applyCopyMotion_ok (htotal : pane.total < 2 ^ 64)
    (hwalks : Walks u fuel lines pane.lastLine) (h : InBuffer pane outcome) (motion : CopyMotion) :
    ∃ next, applyCopyMotion u fuel lines pane motion outcome = some next ∧ OnView pane next := by
  obtain ⟨moved, hmoved, hline, htop⟩ := @moveCursor_ok _ _ _ { pane with top := outcome.top } hwalks
    outcome.cursor ⟨h.line, h.top, h.topLine⟩ motion
  refine ⟨⟨moved.1, pane.reveal moved.2 moved.1.line⟩, ?_, onView_reveal htotal hline htop⟩
  rw [applyCopyMotion, hmoved]
  rfl

/-- A motion to an absolute position goes nowhere from there. -/
theorem applyCopyMotion_again (htotal : pane.total < 2 ^ 64)
    (hwalks : Walks u fuel lines pane.lastLine) (h : InBuffer pane outcome) {motion : CopyMotion}
    (hmotion : motion.repeats = false) {next : MotionOutcome}
    (hnext : applyCopyMotion u fuel lines pane motion outcome = some next) :
    applyCopyMotion u fuel lines pane motion next = some next := by
  obtain ⟨next', hnext', hview⟩ := applyCopyMotion_ok htotal hwalks h motion
  obtain rfl := Option.some.inj (hnext'.symm.trans hnext)
  have hreveal : pane.reveal next'.top next'.cursor.line = next'.top :=
    reveal_eq_self htotal hview.line hview.top hview.above hview.below
  -- What the motion does to the cursor once more leaves it, with the view as it is now.
  have hagain : ∀ {moved : SelectionPoint × ℕ}, moveCursor u fuel lines
      { pane with top := next'.top } motion next'.cursor = some moved → moved = (next'.cursor, next'.top) →
      applyCopyMotion u fuel lines pane motion next' = some next' := by
    rintro moved hmoved rfl
    rw [applyCopyMotion]
    simp only [hmoved, Option.map_some, Option.some.injEq]
    exact congrArg (MotionOutcome.mk next'.cursor) hreveal
  obtain ⟨hline, htop, htopLine⟩ := h
  -- A row of the view is on the screen as it is.
  have hrow : ∀ {line : ℕ}, outcome.top ≤ line → line < outcome.top + max pane.rows 1 →
      line < pane.total → pane.reveal outcome.top line = outcome.top :=
    fun habove hbelow hline ↦ reveal_eq_self htotal hline htop habove hbelow
  have hlast : pane.lastLine = pane.total - 1 := rfl
  cases motion with
  | startOfLine | backToIndentation | endOfLine | historyTop | historyBottom =>
    cases hnext
    exact hagain rfl rfl
  | topLine =>
    have hstays := hrow (Nat.le_refl _) (by omega) htopLine
    obtain rfl : next' = ⟨⟨outcome.top, 0⟩, outcome.top⟩ := by
      rw [← Option.some.inj hnext]
      exact congrArg (MotionOutcome.mk _) hstays
    exact hagain rfl rfl
  | middleLine =>
    let line := min (saturatingAdd outcome.top ((max pane.rows 1 - 1) / 2)) pane.lastLine
    have hsum : saturatingAdd outcome.top ((max pane.rows 1 - 1) / 2) =
      min (outcome.top + (max pane.rows 1 - 1) / 2) (2 ^ 64 - 1) := rfl
    have hstays := @hrow line (by omega) (by omega) (by omega)
    obtain rfl : next' = ⟨⟨line, 0⟩, outcome.top⟩ := by
      rw [← Option.some.inj hnext]
      exact congrArg (MotionOutcome.mk _) hstays
    exact hagain rfl rfl
  | bottomLine =>
    let line := min (saturatingAdd outcome.top (max pane.rows 1 - 1)) pane.lastLine
    have hsum : saturatingAdd outcome.top (max pane.rows 1 - 1) =
      min (outcome.top + (max pane.rows 1 - 1)) (2 ^ 64 - 1) := rfl
    have hstays := @hrow line (by omega) (by omega) (by omega)
    obtain rfl : next' = ⟨⟨line, 0⟩, outcome.top⟩ := by
      rw [← Option.some.inj hnext]
      exact congrArg (MotionOutcome.mk _) hstays
    exact hagain rfl rfl
  | left | right | up | down => cases hmotion
  | nextWord | previousWord | nextWordEnd | nextSpace | previousSpace | nextSpaceEnd => cases hmotion
  | previousParagraph | nextParagraph | halfPageUp | halfPageDown | pageUp | pageDown => cases hmotion

/-! ## Counts -/

/-- Steps that are left out once nothing changes would change nothing. -/
theorem repeatStep_eq {α : Type} [DecidableEq α] (step : α → Option α) (count : ℕ) (a : α) :
    repeatStep step count a = (fun o ↦ o.bind step)^[count] (some a) := by
  induction count generalizing a with
  | zero => rfl
  | succ count ih =>
    rw [repeatStep, Function.iterate_succ_apply, Option.bind_some]
    cases hstep : step a with
    | none =>
      have hnone : (fun o : Option α ↦ o.bind step) none = none := rfl
      exact (Function.iterate_fixed hnone count).symm
    | some next =>
      simp only [Option.bind_eq_bind, Option.bind_some]
      split
      · next heq =>
        subst heq
        have hfixed : (fun o : Option α ↦ o.bind step) (some next) = some next := hstep
        exact (Function.iterate_fixed hfixed count).symm
      · exact ih next

theorem copyMotion_one (motion : CopyMotion) (outcome : MotionOutcome) :
    copyMotion u fuel lines pane motion 1 outcome =
      applyCopyMotion u fuel lines pane motion outcome := by
  rw [copyMotion, Nat.max_self, ite_self, repeatStep_eq]
  rfl

/-- A count stands for as many motions. -/
theorem copyMotion_eq_iterate (htotal : pane.total < 2 ^ 64)
    (hwalks : Walks u fuel lines pane.lastLine) (h : InBuffer pane outcome) (motion : CopyMotion)
    (count : ℕ) :
    copyMotion u fuel lines pane motion count outcome =
      (fun o ↦ o.bind (copyMotion u fuel lines pane motion 1))^[max count 1] (some outcome) := by
  have hone : copyMotion u fuel lines pane motion 1 = applyCopyMotion u fuel lines pane motion :=
    funext (copyMotion_one motion)
  rw [hone]
  cases hmotion : motion.repeats with
  | true => rw [copyMotion, hmotion, if_pos rfl, repeatStep_eq]
  | false =>
    obtain ⟨count', hcount⟩ : ∃ k, max count 1 = k + 1 := ⟨max count 1 - 1, by omega⟩
    obtain ⟨next, hnext, -⟩ := applyCopyMotion_ok htotal hwalks h motion
    have hfixed : (fun o : Option MotionOutcome ↦
        o.bind (applyCopyMotion u fuel lines pane motion)) (some next) = some next :=
      applyCopyMotion_again htotal hwalks h hmotion hnext
    rw [copyMotion, hmotion, if_neg Bool.false_ne_true, repeatStep_eq, Function.iterate_one, hcount,
      Function.iterate_succ_apply, Option.bind_some, hnext, Function.iterate_fixed hfixed]

/-- After a motion with a count the cursor is on the screen. -/
theorem copyMotion_ok (htotal : pane.total < 2 ^ 64) (hwalks : Walks u fuel lines pane.lastLine)
    (h : InBuffer pane outcome) (motion : CopyMotion) (count : ℕ) :
    ∃ next, copyMotion u fuel lines pane motion count outcome = some next ∧ OnView pane next := by
  have hmany : ∀ (count : ℕ) {outcome : MotionOutcome}, InBuffer pane outcome → ∃ next,
      (fun o ↦ o.bind (applyCopyMotion u fuel lines pane motion))^[count + 1] (some outcome) =
        some next ∧ OnView pane next := by
    intro count
    induction count with
    | zero => exact fun h ↦ applyCopyMotion_ok htotal hwalks h motion
    | succ count ih =>
      intro outcome h
      obtain ⟨next, hnext, hview⟩ := applyCopyMotion_ok htotal hwalks h motion
      rw [Function.iterate_succ_apply, Option.bind_some, hnext]
      exact ih hview.inBuffer
  obtain ⟨count', hcount⟩ : ∃ k, (if motion.repeats then max count 1 else 1) = k + 1 := by
    split
    · exact ⟨max count 1 - 1, by omega⟩
    · exact ⟨0, rfl⟩
  rw [copyMotion, hcount, repeatStep_eq]
  exact hmany count' h

theorem copyMotions_ok (htotal : pane.total < 2 ^ 64) (hwalks : Walks u fuel lines pane.lastLine)
    (motions : List (CopyMotion × ℕ)) :
    ∀ {outcome : MotionOutcome}, InBuffer pane outcome → ∃ outcomes,
      copyMotions u fuel lines pane motions outcome = some outcomes ∧
        outcomes.length = motions.length ∧ ∀ next ∈ outcomes, OnView pane next := by
  induction motions with
  | nil => exact fun _ ↦ ⟨[], rfl, rfl, fun next hnext ↦ absurd hnext List.not_mem_nil⟩
  | cons motion motions ih =>
    intro outcome h
    obtain ⟨next, hnext, hview⟩ := copyMotion_ok htotal hwalks h motion.1 motion.2
    obtain ⟨others, hothers, hlength, hall⟩ := ih hview.inBuffer
    refine ⟨next :: others, ?_, by rw [List.length_cons, List.length_cons, hlength], ?_⟩
    · rw [copyMotions, hnext, Option.bind_eq_bind, Option.bind_some, hothers]
      rfl
    · exact fun next' hnext' ↦ (List.mem_cons.mp hnext').elim (fun h ↦ h ▸ hview) (hall next')

end

/-- **The copy cursor stays on the screen.** With fuel enough for the text, any motions with any
counts from a cursor and a view in the buffer leave the cursor on the screen after each of them, and
a motion with a count ends where as many motions end. -/
theorem copyMotions_onView (u : Unicode) (lines : List (List Char)) (pane : CopyPane)
    (htotal : pane.total < 2 ^ 64) :
    ∃ enough, ∀ fuel, enough ≤ fuel → ∀ outcome, InBuffer pane outcome →
      (∀ motions, ∃ outcomes, copyMotions u fuel lines pane motions outcome = some outcomes ∧
        outcomes.length = motions.length ∧ ∀ next ∈ outcomes, OnView pane next) ∧
      ∀ motion count, copyMotion u fuel lines pane motion count outcome =
        (fun o ↦ o.bind (copyMotion u fuel lines pane motion 1))^[max count 1] (some outcome) := by
  obtain ⟨enough, hwalks⟩ := exists_walks u lines pane.lastLine
  refine ⟨enough, fun fuel hfuel outcome h ↦ ⟨fun motions ↦ ?_, fun motion count ↦ ?_⟩⟩
  · exact copyMotions_ok htotal (hwalks fuel hfuel) motions h
  · exact copyMotion_eq_iterate htotal (hwalks fuel hfuel) h motion count

/-- Three words on from the first line of a view of two rows. -/
theorem copyMotions_onView_words :
    let pane : CopyPane := ⟨⟨0, 2, 4⟩, 80⟩
    let lines := ["ab cd", "", "ef", "gh"].map (·.toList)
    ∃ fuel outcomes, copyMotions narrow fuel lines pane [(.nextWord, 3)] ⟨⟨0, 0⟩, 0⟩ =
      some outcomes ∧ outcomes.length = 1 ∧ ∀ next ∈ outcomes, OnView pane next := by
  intro pane lines
  obtain ⟨enough, h⟩ := copyMotions_onView narrow lines pane (by decide)
  have hstart : InBuffer pane ⟨⟨0, 0⟩, 0⟩ := ⟨by decide, by decide, by decide⟩
  exact ⟨enough, (h enough (Nat.le_refl enough) ⟨⟨0, 0⟩, 0⟩ hstart).1 [(.nextWord, 3)]⟩

/-- The top row of a view with no rows, scrolled past a buffer of one line, is below the buffer. -/
theorem topLine_below_buffer :
    let pane : CopyPane := ⟨⟨1, 0, 1⟩, 80⟩
    let start : MotionOutcome := ⟨⟨0, 0⟩, 1⟩
    1 ≤ pane.total ∧ start.cursor.line < pane.total ∧ start.top ≤ pane.total - pane.rows ∧
      copyMotions narrow 0 [] pane [(.topLine, 1)] start = some [⟨⟨1, 0⟩, 1⟩] ∧
      ¬ OnView pane ⟨⟨1, 0⟩, 1⟩ := by
  refine ⟨by decide, by decide, by decide, by decide, fun h ↦ ?_⟩
  exact absurd h.line (by decide)

end Embers.Client
