import Embers.Server.LineBuild

/-!
# What the cells of a row contribute

A wide character takes two cells of a row, and either half may have been overwritten. A cell shows its
own text, is covered by the wide character before it, or is a half whose other half is gone. In a row
whose cells are kept accordingly, whatever its flags, each cell that is kept stands at the column
after the ones before it (`keptWidth_eq`): a cell that is covered is passed over exactly where a wide
character was two columns wide.
-/

namespace Embers.Server

open Client Client.CellPiece

/-- Which part of a character a cell holds. -/
inductive CellFlag where
  | narrow
  | wide
  | spacer
  /-- The place of a wide character that was wrapped to the next row. -/
  | leadingSpacer
  deriving DecidableEq, Repr

/-- What a cell contributes to its row's text. -/
inductive CellGlyph where
  | shown
  | covered
  | blank
  deriving DecidableEq, Repr

def glyphAt (flags : List CellFlag) (column : ℕ) : CellGlyph :=
  match flags[column]? with
  | some .leadingSpacer => .covered
  | some .spacer =>
    if 0 < column ∧ flags[column - 1]? = some .wide then .covered else .blank
  | some .wide => if flags[column + 1]? = some .spacer then .shown else .blank
  | _ => .shown

/-- The columns of what a cell contributes. -/
def glyphWidth (flags : List CellFlag) (column : ℕ) : ℕ :=
  match glyphAt flags column with
  | .covered => 0
  | .blank => 1
  | .shown => if flags[column]? = some .wide then 2 else 1

/-- The columns of the first cells of a row. -/
def keptWidth (flags : List CellFlag) : ℕ → ℕ
  | 0 => 0
  | n + 1 => keptWidth flags n + glyphWidth flags n

/-- The cell before a column is a whole wide character, which covers the column. -/
def Reaches (flags : List CellFlag) (n : ℕ) : Prop :=
  0 < n ∧ flags[n - 1]? = some .wide ∧ flags[n]? = some .spacer

instance (flags : List CellFlag) (n : ℕ) : Decidable (Reaches flags n) :=
  inferInstanceAs (Decidable (_ ∧ _))

/-- A row may hold the place of a wrapped character in its last column. -/
def LeadsLast (flags : List CellFlag) : Prop :=
  ∀ column, flags[column]? = some .leadingSpacer → column + 1 = flags.length

section Widths

variable {flags : List CellFlag}

theorem glyphAt_eq_covered_iff {column : ℕ} :
    glyphAt flags column = .covered ↔
      flags[column]? = some .leadingSpacer ∨ Reaches flags column := by
  rw [glyphAt, Reaches]
  cases h : flags[column]? with
  | none => simp
  | some flag =>
    cases flag with
    | narrow => simp
    | wide =>
      dsimp only
      split
      · simp
      · simp
    | spacer =>
      dsimp only
      split
      · next hcovered => simpa using hcovered
      · next hcovered => simpa using hcovered
    | leadingSpacer => simp

theorem reaches_succ {column : ℕ} :
    Reaches flags (column + 1) ↔
      flags[column]? = some .wide ∧ flags[column + 1]? = some .spacer := by
  rw [Reaches, Nat.add_sub_cancel]
  exact and_iff_right (Nat.succ_pos column)

theorem glyphWidth_succ (column : ℕ) (hlead : flags[column]? ≠ some .leadingSpacer) :
    glyphWidth flags column + (if Reaches flags column then 1 else 0) =
      1 + if Reaches flags (column + 1) then 1 else 0 := by
  by_cases hwide : flags[column]? = some .wide
  · have hreach : ¬Reaches flags column := by
      rintro ⟨-, -, hspacer⟩
      rw [hwide] at hspacer
      cases hspacer
    have hglyph : glyphAt flags column =
        if flags[column + 1]? = some .spacer then .shown else .blank := by
      rw [glyphAt, hwide]
    rw [if_neg hreach, glyphWidth, hglyph]
    by_cases hnext : flags[column + 1]? = some .spacer
    · rw [if_pos hnext, if_pos (reaches_succ.mpr ⟨hwide, hnext⟩)]
      exact if_pos hwide
    · rw [if_neg hnext, if_neg fun h ↦ hnext (reaches_succ.mp h).2]
  · rw [if_neg fun h ↦ hwide (reaches_succ.mp h).1]
    by_cases hreach : Reaches flags column
    · rw [if_pos hreach, glyphWidth, glyphAt_eq_covered_iff.mpr (.inr hreach)]
    · rw [if_neg hreach, glyphWidth]
      cases hglyph : glyphAt flags column with
      | covered => exact absurd (glyphAt_eq_covered_iff.mp hglyph) (not_or.mpr ⟨hlead, hreach⟩)
      | blank => rfl
      | shown => exact if_neg hwide

/-- The columns of the cells up to a column are that column, and one more when it is covered. -/
theorem keptWidth_eq {n : ℕ} (hlead : ∀ column < n, flags[column]? ≠ some .leadingSpacer) :
    keptWidth flags n = n + if Reaches flags n then 1 else 0 := by
  induction n with
  | zero => simp [keptWidth, Reaches]
  | succ n ih =>
    have hrest := ih fun column hcolumn ↦ hlead column (Nat.lt_succ_of_lt hcolumn)
    have hstep := glyphWidth_succ n (hlead n (Nat.lt_succ_self n))
    rw [keptWidth, hrest]
    omega

theorem LeadsLast.ne_leadingSpacer (h : LeadsLast flags) {column : ℕ}
    (hlt : column + 1 < flags.length) : flags[column]? ≠ some .leadingSpacer :=
  fun hlead ↦ hlt.ne (h column hlead)

/-- A cell that is kept stands at the column after the ones before it. -/
theorem keptWidth_of_kept (h : LeadsLast flags) {column : ℕ} (hlt : column < flags.length)
    (hkept : glyphAt flags column ≠ .covered) : keptWidth flags column = column := by
  have hreach : ¬Reaches flags column := fun hreach ↦ hkept (glyphAt_eq_covered_iff.mpr (.inr hreach))
  rw [keptWidth_eq fun other hother ↦ h.ne_leadingSpacer (by omega), if_neg hreach, Nat.add_zero]

/-- What is kept of a row is at most as wide as the row. -/
theorem keptWidth_le (h : LeadsLast flags) {n : ℕ} (hle : n ≤ flags.length) :
    keptWidth flags n ≤ flags.length := by
  cases n with
  | zero => exact Nat.zero_le _
  | succ n =>
    have hbefore : keptWidth flags n = n + if Reaches flags n then 1 else 0 :=
      keptWidth_eq fun column hcolumn ↦ h.ne_leadingSpacer (by omega)
    by_cases hlead : flags[n]? = some .leadingSpacer
    · have hcovered : glyphWidth flags n = 0 := by
        rw [glyphWidth, glyphAt_eq_covered_iff.mpr (.inl hlead)]
      have hreach : ¬Reaches flags n := by
        rintro ⟨-, -, hspacer⟩
        rw [hlead] at hspacer
        cases hspacer
      rw [keptWidth, hcovered, hbefore, if_neg hreach]
      omega
    · have hstep := glyphWidth_succ n hlead
      have hnext : Reaches flags (n + 1) → n + 1 < flags.length :=
        fun hreach ↦ (List.getElem?_eq_some_iff.mp hreach.2.2).1
      rw [keptWidth, hbefore]
      by_cases hreach : Reaches flags (n + 1)
      · have hroom := hnext hreach
        rw [if_pos hreach] at hstep
        omega
      · rw [if_neg hreach] at hstep
        omega

end Widths

/-! ## The last column that shows -/

section Last

variable {p : ℕ → Bool} {start count last : ℕ}

theorem find?_reverse_range'_none (h : (List.range' start count).reverse.find? p = none) {column : ℕ}
    (hle : start ≤ column) (hlt : column < start + count) : p column = false := by
  have hnone := List.find?_eq_none.mp h column
    (List.mem_reverse.mpr (List.mem_range'_1.mpr ⟨hle, hlt⟩))
  rwa [Bool.not_eq_true] at hnone

/-- A search from the end finds the last one. -/
theorem find?_reverse_range'_some (h : (List.range' start count).reverse.find? p = some last) :
    start ≤ last ∧ last < start + count ∧ p last = true ∧
      ∀ column, last < column → column < start + count → p column = false := by
  obtain ⟨hlast, before, after, hsplit, hbefore⟩ := List.find?_eq_some_iff_append.mp h
  have hmem : last ∈ List.range' start count := by
    rw [← List.mem_reverse, hsplit]
    exact List.mem_append_right _ List.mem_cons_self
  have hrange := List.mem_range'_1.mp hmem
  refine ⟨hrange.1, hrange.2, hlast, fun column hcolumn hlt ↦ ?_⟩
  -- A column after the last one comes before it in the search.
  have hin : column ∈ before ++ last :: after := by
    rw [← hsplit, List.mem_reverse]
    exact List.mem_range'_1.mpr ⟨by omega, hlt⟩
  have hsorted : (before ++ last :: after).Pairwise (· > ·) := by
    rw [← hsplit, List.pairwise_reverse]
    exact List.pairwise_lt_range'
  rcases List.mem_append.mp hin with hearly | hlate
  · simpa using hbefore column hearly
  · rcases List.mem_cons.mp hlate with rfl | hlate
    · omega
    · have := List.rel_of_pairwise_cons (List.pairwise_append.mp hsorted).2.1 hlate
      omega

end Last

/-! ## The cells kept of a row -/

section Kept

variable {flags : List CellFlag} {keep : ℕ → Option ShownCell}

/-- The cells kept of the first columns of a row. -/
def keptCells (keep : ℕ → Option ShownCell) (n : ℕ) : List ShownCell := (List.range n).filterMap keep

/-- A cell is kept at its column with the width of its glyph, unless it is covered. -/
structure Keeps (flags : List CellFlag) (keep : ℕ → Option ShownCell) : Prop where
  covered : ∀ column, glyphAt flags column = .covered → keep column = none
  kept : ∀ column < flags.length, glyphAt flags column ≠ .covered →
    ∃ c, keep column = some c ∧ c.column = column ∧ c.piece.text ≠ [] ∧
      c.piece.width = glyphWidth flags column

theorem keptCells_succ (n : ℕ) :
    keptCells keep (n + 1) = keptCells keep n ++ (keep n).toList := by
  rw [keptCells, List.range_succ, List.filterMap_append, ← keptCells]
  cases h : keep n with
  | none => rw [List.filterMap_cons_none h, List.filterMap_nil, Option.toList_none]
  | some c => rw [List.filterMap_cons_some h, List.filterMap_nil, Option.toList_some]

theorem mem_keptCells {n : ℕ} {c : ShownCell} :
    c ∈ keptCells keep n ↔ ∃ column < n, keep column = some c := by
  rw [keptCells, List.mem_filterMap]
  exact exists_congr fun column ↦ and_congr_left' List.mem_range

theorem Keeps.exists_of_some (h : Keeps flags keep) {column : ℕ} (hlt : column < flags.length)
    {c : ShownCell} (hc : keep column = some c) :
    glyphAt flags column ≠ .covered ∧ c.column = column ∧ c.piece.text ≠ [] ∧
      c.piece.width = glyphWidth flags column := by
  have hkept : glyphAt flags column ≠ .covered := by
    intro hcovered
    rw [h.covered column hcovered] at hc
    cases hc
  obtain ⟨d, hd, hrest⟩ := h.kept column hlt hkept
  obtain rfl : d = c := Option.some_inj.mp (hd.symm.trans hc)
  exact ⟨hkept, hrest⟩

theorem Keeps.widthOf_keptCells (h : Keeps flags keep) {n : ℕ} (hle : n ≤ flags.length) :
    widthOf (pieces (keptCells keep n)) = keptWidth flags n := by
  induction n with
  | zero => rfl
  | succ n ih =>
    rw [keptCells_succ, pieces_append, widthOf_append, ih (by omega), keptWidth]
    congr 1
    by_cases hcovered : glyphAt flags n = .covered
    · rw [h.covered n hcovered, glyphWidth, hcovered]
      rfl
    · obtain ⟨c, hc, -, -, hwidth⟩ := h.kept n (by omega) hcovered
      rw [hc, ← hwidth]
      exact Nat.add_zero _

/-- What comes before a kept cell is what is kept of the columns before its own. -/
theorem Keeps.before_eq (h : Keeps flags keep) {n : ℕ} (hle : n ≤ flags.length)
    {before after : List ShownCell} {c : ShownCell}
    (hsplit : keptCells keep n = before ++ c :: after) :
    before = keptCells keep c.column ∧ c.column < n ∧ keep c.column = some c := by
  induction n generalizing after with
  | zero => cases before <;> cases hsplit
  | succ n ih =>
    rw [keptCells_succ] at hsplit
    cases hkeep : keep n with
    | none =>
      rw [hkeep, Option.toList_none, List.append_nil] at hsplit
      obtain ⟨hbefore, hlt, hc⟩ := ih (by omega) hsplit
      exact ⟨hbefore, by omega, hc⟩
    | some d =>
      rw [hkeep, Option.toList_some] at hsplit
      rcases List.eq_nil_or_concat' after with rfl | ⟨after, e, rfl⟩
      · obtain ⟨hbefore, hd⟩ := List.append_inj' hsplit rfl
        obtain rfl := (List.cons.inj hd).1
        obtain ⟨-, hcolumn, -⟩ := h.exists_of_some (by omega) hkeep
        rw [hcolumn]
        exact ⟨hbefore.symm, Nat.lt_succ_self n, hkeep⟩
      · rw [← List.cons_append, ← List.append_assoc] at hsplit
        obtain ⟨hbegin, -⟩ := List.append_inj' hsplit rfl
        obtain ⟨hbefore, hlt, hc⟩ := ih (by omega) hbegin
        exact ⟨hbefore, by omega, hc⟩

/-- The cells kept of a row are placed one after the other. -/
theorem Keeps.placed (h : Keeps flags keep) (hlead : LeadsLast flags)
    (hlen : flags.length < 2 ^ 16) {n : ℕ} (hle : n ≤ flags.length) : Placed (keptCells keep n) where
  filled p hp := by
    obtain ⟨c, hc, rfl⟩ := List.mem_map.mp hp
    obtain ⟨column, hcolumn, hkeep⟩ := mem_keptCells.mp hc
    exact (h.exists_of_some (by omega) hkeep).2.2.1
  wide p hp := by
    obtain ⟨c, hc, rfl⟩ := List.mem_map.mp hp
    obtain ⟨column, hcolumn, hkeep⟩ := mem_keptCells.mp hc
    obtain ⟨hglyph, -, -, hwidth⟩ := h.exists_of_some (by omega) hkeep
    rw [hwidth, glyphWidth]
    cases hcase : glyphAt flags column with
    | covered => exact absurd hcase hglyph
    | blank => exact Nat.le_refl 1
    | shown =>
      dsimp only
      split
      · exact one_le_two
      · exact Nat.le_refl 1
  columns := by
    rw [h.widthOf_keptCells hle]
    exact (keptWidth_le hlead hle).trans_lt hlen
  column before c after hsplit := by
    obtain ⟨rfl, hlt, hkeep⟩ := h.before_eq hle hsplit
    have hcolumn : c.column < flags.length := by omega
    rw [h.widthOf_keptCells (by omega)]
    exact keptWidth_of_kept hlead hcolumn (h.exists_of_some hcolumn hkeep).1

/-- Nothing of a row is missing among the cells kept of it: a column is kept, or is covered by the wide
character kept before it, or is the place of a wrapped character in the last column, or shows nothing
and nor does any column after it. -/
def Complete (flags : List CellFlag) (shows : ℕ → Bool) (kept : List ShownCell) : Prop :=
  ∀ column < flags.length,
    (∃ c ∈ kept, c.column = column) ∨
      (∃ c ∈ kept, c.column + 1 = column ∧ c.piece.width = 2) ∨
      (flags[column]? = some .leadingSpacer ∧ column + 1 = flags.length) ∨
      ∀ later < flags.length, column ≤ later → shows later = false

/-- A column of a row is kept, or is covered by the wide character kept before it, or is past the
columns that are walked, or is the place of a wrapped character. -/
theorem Keeps.kept_or (h : Keeps flags keep) {n column : ℕ} (hlt : column < flags.length) :
    (∃ c ∈ keptCells keep n, keep column = some c ∧ c.column = column) ∨
      (∃ c ∈ keptCells keep n, c.column + 1 = column ∧ c.piece.width = 2) ∨
      n ≤ column ∨ flags[column]? = some .leadingSpacer := by
  by_cases hwalked : n ≤ column
  · exact .inr (.inr (.inl hwalked))
  by_cases hcovered : glyphAt flags column = .covered
  · rcases glyphAt_eq_covered_iff.mp hcovered with hlead | hreach
    · exact .inr (.inr (.inr hlead))
    · -- The wide character before it is kept over both columns.
      obtain ⟨hpos, hwide, hspacer⟩ := hreach
      have hglyph : glyphAt flags (column - 1) = .shown := by
        rw [glyphAt, hwide]
        dsimp only
        rw [Nat.sub_add_cancel hpos, if_pos hspacer]
      have hnot : glyphAt flags (column - 1) ≠ .covered := by
        rw [hglyph]
        exact CellGlyph.noConfusion
      obtain ⟨c, hc, hcolumn, -, hwidth⟩ := h.kept (column - 1) (by omega) hnot
      refine .inr (.inl ⟨c, mem_keptCells.mpr ⟨column - 1, by omega, hc⟩, by omega, ?_⟩)
      rw [hwidth, glyphWidth, hglyph]
      exact if_pos hwide
  · obtain ⟨c, hc, hcolumn, -⟩ := h.kept column hlt hcovered
    exact .inl ⟨c, mem_keptCells.mpr ⟨column, by omega, hc⟩, hc, hcolumn⟩

theorem Keeps.complete (h : Keeps flags keep) (hlead : LeadsLast flags) {n : ℕ} {shows : ℕ → Bool}
    (hshows : ∀ column < flags.length, n ≤ column → shows column = false) :
    Complete flags shows (keptCells keep n) := by
  intro column hlt
  rcases h.kept_or hlt with ⟨c, hc, -, hcolumn⟩ | hcovered | hpast | hwrapped
  · exact .inl ⟨c, hc, hcolumn⟩
  · exact .inr (.inl hcovered)
  · exact .inr (.inr (.inr fun later hlater hle ↦ hshows later hlater (hpast.trans hle)))
  · exact .inr (.inr (.inl ⟨hwrapped, hlead column hwrapped⟩))

end Kept

end Embers.Server
