import Embers.Client.Grid
import Embers.Lib.Gives
import Embers.Lib.Tiling

/-!
# What drawing a character does to the cells

A row of the grid is tiled when its characters, each over the columns it was drawn on, follow one
another without a gap. Drawing a character clears a stretch between two characters, and puts blanks
around the new one: the row stays tiled, and nothing outside that stretch changes.
-/

namespace Embers.Client

theorem add16_of_le {a b n : ℕ} (hn : n < 65535) (h : add16 a b ≤ n) : add16 a b = a + b := by
  rw [add16] at h ⊢
  omega

theorem add16_le {a b n : ℕ} (h : a + b ≤ n) : add16 a b ≤ n := by
  rw [add16]
  omega

namespace RenderGrid

variable {g g' : RenderGrid} {x y : ℕ}

/-! ## Places -/

theorem index_lt (h : g.Contains x y) : g.index x y < g.cells.length := by
  obtain ⟨hx, hy⟩ := h
  have hrow : (y + 1) * g.width ≤ g.width * g.height := by
    rw [Nat.mul_comm]
    exact Nat.mul_le_mul_left _ hy
  rw [Nat.add_mul, Nat.one_mul] at hrow
  rw [index, g.sized]
  omega

/-- Two places of the grid with one index are the same. -/
theorem index_inj {x' y' : ℕ} (hx : x < g.width) (hx' : x' < g.width)
    (h : g.index x y = g.index x' y') : x = x' ∧ y = y' := by
  have hw : 0 < g.width := by omega
  rw [index, index, Nat.mul_comm y, Nat.mul_comm y'] at h
  have hcolumn := congrArg (· % g.width) h
  have hrow := congrArg (· / g.width) h
  simp only [Nat.mul_add_mod_self_left, Nat.mod_eq_of_lt hx, Nat.mod_eq_of_lt hx'] at hcolumn
  simp only [Nat.mul_add_div hw, Nat.div_eq_of_lt hx, Nat.div_eq_of_lt hx', Nat.add_zero] at hrow
  exact ⟨hcolumn, hrow⟩

theorem cell_ok (h : g.Contains x y) : g.cell x y = .ok (g.look x y) := if_pos h

/-! ## Changes -/

/-- One grid is the other with the cells of a stretch of a row changed. -/
structure Recast (y start stop : ℕ) (f : GridCell → GridCell) (g g' : RenderGrid) : Prop where
  width_eq : g'.width = g.width
  height_eq : g'.height = g.height
  look_eq : ∀ {x' y'}, g.Contains x' y' → g'.look x' y' =
    if y' = y ∧ start ≤ x' ∧ x' < stop then f (g.look x' y') else g.look x' y'

theorem contains_congr {x' y' : ℕ} (hw : g'.width = g.width) (hh : g'.height = g.height) :
    g'.Contains x' y' ↔ g.Contains x' y' := by
  rw [Contains, Contains, hw, hh]

theorem gives_modify {f : GridCell → GridCell} (h : g.Contains x y) :
    Gives (g.modify x y f) (Recast y x (x + 1) f g) := by
  refine ⟨_, if_pos h, rfl, rfl, fun {x' y'} h' ↦ ?_⟩
  change ((g.cells.modify (g.index x y) f)[g.index x' y']?).getD default = _
  rw [List.getElem?_modify]
  by_cases heq : g.index x y = g.index x' y'
  · obtain ⟨rfl, rfl⟩ := index_inj h.1 h'.1 heq
    simp only [if_true]
    rw [if_pos ⟨trivial, Nat.le_refl _, Nat.lt_succ_self _⟩, look,
      List.getElem?_eq_getElem (index_lt h)]
    rfl
  · have hne : ¬ (y' = y ∧ x ≤ x' ∧ x' < x + 1) := by
      rintro ⟨rfl, hle, hlt⟩
      obtain rfl : x = x' := by omega
      exact heq rfl
    simp only [if_neg heq]
    rw [if_neg hne, look]
    rcases g.cells[g.index x' y']? with _ | c <;> rfl

/-- A change of the cells from a column on is done one by one, and each cell is changed once. -/
theorem gives_foldlM_modify {f : GridCell → GridCell} (hy : y < g.height) :
    ∀ {count start : ℕ}, start + count ≤ g.width → Gives
      ((List.range' start count).foldlM (fun g x ↦ g.modify x y f) g)
      (Recast y start (start + count) f g) := by
  intro count
  induction count generalizing g with
  | zero =>
    intro start _
    refine .pure ⟨rfl, rfl, fun {x' y'} _ ↦ ?_⟩
    rw [if_neg (by omega)]
  | succ count ih =>
    intro start hle
    rw [List.range'_succ, List.foldlM_cons]
    refine (gives_modify (f := f) ⟨by omega, hy⟩).bind fun g₁ h₁ ↦ ?_
    have hy₁ : y < g₁.height := by rw [h₁.height_eq]; exact hy
    have hle₁ : start + 1 + count ≤ g₁.width := by rw [h₁.width_eq]; omega
    refine (ih hy₁ hle₁).mono fun g₂ h₂ ↦ ?_
    refine ⟨h₂.width_eq.trans h₁.width_eq, h₂.height_eq.trans h₁.height_eq, fun {x' y'} h' ↦ ?_⟩
    rw [h₂.look_eq ((contains_congr h₁.width_eq h₁.height_eq).mpr h'), h₁.look_eq h']
    by_cases hrow : y' = y
    · rcases Nat.lt_trichotomy x' start with hlt | heq | hgt
      · rw [if_neg (by omega), if_neg (by omega), if_neg (by omega)]
      · rw [if_neg (by omega), if_pos (by omega), if_pos (by omega)]
      · by_cases hin : x' < start + 1 + count
        · rw [if_pos (by omega), if_neg (by omega), if_pos (by omega)]
        · rw [if_neg (by omega), if_neg (by omega), if_neg (by omega)]
    · rw [if_neg (by omega), if_neg (by omega), if_neg (by omega)]

theorem gives_modifyRange {f : GridCell → GridCell} {start stop : ℕ} (hy : y < g.height)
    (hle : start ≤ stop) (hstop : stop ≤ g.width) :
    Gives (g.modifyRange y start stop f) (Recast y start stop f g) := by
  have hsum : start + (stop - start) = stop := by omega
  have hle' : start + (stop - start) ≤ g.width := by omega
  have h := gives_foldlM_modify (f := f) hy hle'
  rw [hsum] at h
  exact h

/-! ## The ends of a character -/

/-- The column begins a character. -/
def Leads (g : RenderGrid) (y x : ℕ) : Prop := (g.look x y).continuation = false

/-- A character may be cut off before the column: it begins one or is the end of the row. -/
def Edge (g : RenderGrid) (y x : ℕ) : Prop := g.Leads y x ∨ g.width ≤ x

theorem gives_snapStart (hy : y < g.height) : ∀ {x : ℕ}, x < g.width →
    Gives (g.snapStart y x) fun start ↦ start ≤ x ∧ (start = 0 ∨ g.Leads y start) ∧
      ∀ i, start < i → i ≤ x → ¬ g.Leads y i := by
  intro x
  induction x with
  | zero => exact fun _ ↦ .pure ⟨Nat.le_refl 0, .inl rfl, by omega⟩
  | succ x ih =>
    intro hx
    rw [snapStart, cell_ok ⟨hx, hy⟩]
    change Gives (if (g.look (x + 1) y).continuation then _ else _) _
    split
    · next hcont =>
      refine (ih (by omega)).mono fun start ⟨hle, hstart, hall⟩ ↦ ?_
      refine ⟨by omega, hstart, fun i hi hix ↦ ?_⟩
      rcases Nat.lt_or_ge x i with hlt | hge
      · obtain rfl : i = x + 1 := by omega
        rw [Leads, hcont]
        exact nofun
      · exact hall i hi hge
    · next hcont =>
      exact .pure ⟨Nat.le_refl _, .inr (Bool.eq_false_iff.mpr hcont), by omega⟩

theorem gives_snapEnd (hy : y < g.height) : ∀ {left x : ℕ}, x + left = g.width →
    Gives (g.snapEnd y left x) fun stop ↦ x ≤ stop ∧ stop ≤ g.width ∧ g.Edge y stop ∧
      ∀ i, x ≤ i → i < stop → ¬ g.Leads y i := by
  intro left
  induction left with
  | zero => exact fun h ↦ .pure ⟨Nat.le_refl _, by omega, .inr (by omega), by omega⟩
  | succ left ih =>
    intro x h
    have hx : x < g.width := by omega
    rw [snapEnd, if_pos hx, cell_ok ⟨hx, hy⟩]
    change Gives (if (g.look x y).continuation then _ else _) _
    split
    · next hcont =>
      refine (ih (by omega)).mono fun stop ⟨hle, hstop, hedge, hall⟩ ↦ ?_
      refine ⟨by omega, hstop, hedge, fun i hi histop ↦ ?_⟩
      rcases Nat.eq_or_lt_of_le hi with rfl | hlt
      · rw [Leads, hcont]
        exact nofun
      · exact hall i hlt histop
    · next hcont =>
      exact .pure ⟨Nat.le_refl _, by omega, .inl (Bool.eq_false_iff.mpr hcont), by omega⟩

/-! ## Drawing a character -/

/-- The characters of a row, each over the columns it was drawn on, follow one another. -/
def TiledRow (g : RenderGrid) (y : ℕ) : Prop :=
  Tiles (g.Leads y) (fun x ↦ (g.look x y).span) 0 g.width

/-- The cells after a character is drawn at columns `x` to `x + width`. The stretch from `start` to
`stop` held the characters that it overlaps. -/
structure Placed (x y width start stop : ℕ) (grapheme : List Char) (style : CellStyle)
    (link : Option Hyperlink) (g g' : RenderGrid) : Prop where
  width_eq : g'.width = g.width
  height_eq : g'.height = g.height
  start_le : start ≤ x
  le_stop : x + width ≤ stop
  stop_le : stop ≤ g.width
  leads_start : start = 0 ∨ g.Leads y start
  edge_stop : g.Edge y stop
  before : ∀ i, start < i → i ≤ x → ¬ g.Leads y i
  after : ∀ i, x + width ≤ i → i < stop → ¬ g.Leads y i
  look_eq : ∀ {x' y'}, g.Contains x' y' → g'.look x' y' =
    if y' = y ∧ start ≤ x' ∧ x' < stop then
      if x' = x then ⟨grapheme, style, false, link, width⟩
      else if x < x' ∧ x' < x + width then ⟨[], style, true, link, 0⟩
      else default
    else g.look x' y'

theorem gives_place {width : ℕ} {grapheme : List Char} {style : CellStyle}
    {link : Option Hyperlink} (hnarrow : g.width < 65535) (hy : y < g.height) (hpos : 0 < width)
    (hfit : x + width ≤ g.width) :
    Gives (g.place x y grapheme style width link)
      fun g' ↦ ∃ start stop, Placed x y width start stop grapheme style link g g' := by
  have hsum : add16 x width = x + width := add16_of_le hnarrow (add16_le hfit)
  rw [place, clearOverlappingCells, hsum]
  simp only [bind_assoc]
  refine (gives_snapStart hy (by omega)).bind fun start ⟨hstart, hlead, hbefore⟩ ↦ ?_
  refine (gives_snapEnd hy (by omega)).bind fun stop ⟨hstop, hle, hedge, hafter⟩ ↦ ?_
  refine (gives_modifyRange hy (by omega) hle).bind fun g₁ h₁ ↦ ?_
  rw [setCell]
  have hplace : g₁.Contains x y := (contains_congr h₁.width_eq h₁.height_eq).mpr ⟨by omega, hy⟩
  refine (gives_modify hplace).bind fun g₂ h₂ ↦ ?_
  have hy₂ : y < g₂.height := by rw [h₂.height_eq]; exact hplace.2
  have hfit₂ : x + width ≤ g₂.width := by rw [h₂.width_eq, h₁.width_eq]; exact hfit
  refine (gives_modifyRange hy₂ (by omega) hfit₂).mono fun g₃ h₃ ↦ ?_
  refine ⟨start, stop, h₃.width_eq.trans (h₂.width_eq.trans h₁.width_eq),
    h₃.height_eq.trans (h₂.height_eq.trans h₁.height_eq), hstart, hstop, hle, hlead, hedge, hbefore,
    hafter, fun {x' y'} h' ↦ ?_⟩
  have h'₁ : g₁.Contains x' y' := (contains_congr h₁.width_eq h₁.height_eq).mpr h'
  have h'₂ : g₂.Contains x' y' := (contains_congr h₂.width_eq h₂.height_eq).mpr h'₁
  rw [h₃.look_eq h'₂, h₂.look_eq h'₁, h₁.look_eq h']
  by_cases hin : y' = y ∧ start ≤ x' ∧ x' < stop
  · simp only [if_pos hin]
    by_cases hx : x' = x
    · rw [if_neg (by omega), if_pos (by omega), if_pos hx]
    · rw [if_neg hx, if_neg (by omega : ¬ (y' = y ∧ x ≤ x' ∧ x' < x + 1))]
      by_cases hrest : x < x' ∧ x' < x + width
      · rw [if_pos (by omega), if_pos hrest]
      · rw [if_neg (by omega), if_neg hrest]
  · simp only [if_neg hin]
    rw [if_neg (by omega), if_neg (by omega)]

end RenderGrid

end Embers.Client
