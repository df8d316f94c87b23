import Embers.Client.TabBars

/-!
# Who drew a cell

Texts drawn in a row leave a column to the last of their characters over it. A later character takes
away the whole of those that it overlaps, so a wide one loses both of its columns when it is drawn
over by half. Who drew a cell is read off the link that a text is drawn with, which no drawing
operation looks at.
-/

namespace Embers.Client

open RenderGrid

/-! ## Strokes -/

/-- A character that is drawn for the text of an index, on `width` columns from `x`. -/
structure Stroke where
  index : ℕ
  x : ℕ
  width : ℕ
  deriving DecidableEq, Repr

namespace Stroke

def Covers (s : Stroke) (x : ℕ) : Prop := s.x ≤ x ∧ x < s.x + s.width

/-- The characters share a column. -/
def Meets (s t : Stroke) : Prop := max s.x t.x < min (s.x + s.width) (t.x + t.width)

instance (s : Stroke) (x : ℕ) : Decidable (s.Covers x) := inferInstanceAs (Decidable (_ ∧ _))

instance (s t : Stroke) : Decidable (s.Meets t) := inferInstanceAs (Decidable (_ < _))

end Stroke

/-- The text whose character is on a column after strokes are drawn one after the other. No text has
one there when a later stroke took a part of the last character over the column, but not the column
itself. -/
def shown (x : ℕ) : List Stroke → Option ℕ
  | [] => none
  | s :: strokes =>
    if ∃ t ∈ strokes, t.Covers x then shown x strokes
    else if s.Covers x ∧ ∀ t ∈ strokes, ¬ s.Meets t then some s.index
    else none

/-- The strokes of the characters that fit a row of the given width. -/
def graphemeStrokes (u : Unicode) (width index : ℕ) : ℕ → List (List Char) → List Stroke
  | _, [] => []
  | x, grapheme :: rest =>
    if x + u.graphemeWidth grapheme > width then []
    else ⟨index, x, u.graphemeWidth grapheme⟩ ::
      graphemeStrokes u width index (x + u.graphemeWidth grapheme) rest

/-- The strokes of texts drawn one after the other. -/
def strokes (u : Unicode) (width : ℕ) : ℕ → List BarCells → List Stroke
  | _, [] => []
  | index, c :: cells =>
    graphemeStrokes u width index c.x (u.graphemes c.text) ++ strokes u width (index + 1) cells

section

variable {u : Unicode} {g g' g'' : RenderGrid} {y : ℕ} {style : CellStyle}
  {link : Option Hyperlink}

namespace RenderGrid

/-- No character begins between two columns, so that they are of one. -/
def Joined (g : RenderGrid) (y i x : ℕ) : Prop := ∀ j, min i x < j → j ≤ max i x → ¬ g.Leads y j

theorem joined_self {x : ℕ} : g.Joined y x x := by
  intro j hlt hle
  omega

theorem not_joined {i x : ℕ} (j : ℕ) (hj : g.Leads y j) (hlt : min i x < j) (hle : j ≤ max i x) :
    ¬ g.Joined y i x := fun h ↦ h j hlt hle hj

/-- The stroke takes away what is on a column: it covers a column of the same character. -/
def Touched (g : RenderGrid) (y x : ℕ) (s : Stroke) : Prop :=
  ∃ i, i < g.width ∧ s.Covers i ∧ g.Joined y i x

/-- A character ends where the next one may begin. -/
theorem Placed.edge_end {x width start stop : ℕ} {grapheme : List Char}
    (h : Placed x y width start stop grapheme style link g g') (hy : y < g.height)
    (hpos : 0 < width) : g'.Edge y (x + width) := by
  have hstart := h.start_le
  have hstop := h.le_stop
  have hwidth := h.width_eq
  rcases Nat.lt_or_ge (x + width) g.width with hlt | hge
  · have hlook : g'.look (x + width) y =
        if stop = x + width then g.look (x + width) y else default := by
      rw [h.look_eq ⟨hlt, hy⟩]
      split
      · rw [if_neg (by omega), if_neg (by omega), if_neg (by omega)]
      · rw [if_pos (by omega)]
    refine .inl ?_
    rw [Leads, hlook]
    split
    · next heq =>
      have hedge := h.edge_stop
      rw [heq] at hedge
      exact hedge.resolve_right (by omega)
    · rfl
  · exact .inr (by omega)

variable {s : Stroke} {start stop x : ℕ} {grapheme : List Char}

/-- A stroke's columns are one character, with the stroke's link. -/
theorem Placed.on_stroke (h : Placed s.x y s.width start stop grapheme style link g g')
    (hy : y < g.height) (hx : s.Covers x) : (g'.look x y).link = link ∧
      ∀ {i}, i < g.width → (g'.Joined y i x ↔ s.Covers i) := by
  obtain ⟨hx, hx'⟩ := hx
  have hstart := h.start_le
  have hstop := h.le_stop
  have hle := h.stop_le
  have hwidth := h.width_eq
  constructor
  · rw [h.look_eq ⟨by omega, hy⟩, if_pos (by omega)]
    split
    · rfl
    · rw [if_pos (by omega)]
  · intro i hi
    constructor
    · intro hjoined
      by_contra hout
      rw [Stroke.Covers] at hout
      rcases Nat.lt_or_ge i s.x with hlt | hge
      · refine not_joined s.x ?_ (by omega) (by omega) hjoined
        rw [Leads, h.look_eq ⟨by omega, hy⟩, if_pos (by omega), if_pos rfl]
      · have hend := (h.edge_end hy (by omega)).resolve_right (by omega)
        exact not_joined (s.x + s.width) hend (by omega) (by omega) hjoined
    · rintro ⟨hi, hi'⟩ j hlt hle
      rw [Leads, h.look_eq ⟨by omega, hy⟩, if_pos (by omega), if_neg (by omega),
        if_pos (by omega)]
      exact Bool.noConfusion

theorem Placed.touched_on_stroke (h : Placed s.x y s.width start stop grapheme style link g g')
    (hy : y < g.height) (hx : s.Covers x) {t : Stroke} : g'.Touched y x t ↔ s.Meets t := by
  have hjoined := fun {i} ↦ (h.on_stroke hy hx).2 (i := i)
  have hstop := h.le_stop
  have hle := h.stop_le
  have hwidth := h.width_eq
  constructor
  · rintro ⟨i, hi, ⟨hti, hti'⟩, hj⟩
    obtain ⟨hsi, hsi'⟩ := (hjoined (by omega)).mp hj
    rw [Stroke.Meets]
    omega
  · intro hmeets
    rw [Stroke.Meets] at hmeets
    exact ⟨max s.x t.x, by omega, ⟨by omega, by omega⟩,
      (hjoined (by omega)).mpr ⟨by omega, by omega⟩⟩

/-- What a stroke takes away beside its own columns is left without a link. -/
theorem Placed.beside_stroke (h : Placed s.x y s.width start stop grapheme style link g g')
    (hy : y < g.height) (hpos : 0 < s.width) (hx : x < g.width) (hout : ¬ s.Covers x)
    (htouched : g.Touched y x s) : (g'.look x y).link = none := by
  obtain ⟨i, hi, ⟨hix, hix'⟩, hjoined⟩ := htouched
  rw [Stroke.Covers] at hout
  have hle := h.stop_le
  have hstop := h.le_stop
  have hstart := h.start_le
  have hleft : start ≤ x := by
    by_contra hlt
    have hlead := h.leads_start.resolve_left (by omega)
    exact not_joined start hlead (by omega) (by omega) hjoined
  have hright : x < stop := by
    by_contra hge
    have hlead := h.edge_stop.resolve_right (by omega)
    exact not_joined stop hlead (by omega) (by omega) hjoined
  rw [h.look_eq ⟨hx, hy⟩, if_pos (by omega), if_neg (by omega), if_neg (by omega)]
  rfl

/-- The characters that a stroke does not overlap stay as they are. -/
theorem Placed.off_stroke (h : Placed s.x y s.width start stop grapheme style link g g')
    (hy : y < g.height) (hpos : 0 < s.width) (hx : x < g.width) (hout : ¬ g.Touched y x s) :
    g'.look x y = g.look x y ∧ ∀ {i}, i < g.width → (g'.Joined y i x ↔ g.Joined y i x) := by
  have hstart := h.start_le
  have hstop := h.le_stop
  have hle := h.stop_le
  have hbefore : ¬ (start ≤ x ∧ x < s.x) := fun hin ↦ hout
    ⟨s.x, by omega, ⟨by omega, by omega⟩, fun j hlt hj ↦ h.before j (by omega) (by omega)⟩
  have hafter : ¬ (s.x + s.width ≤ x ∧ x < stop) := fun hin ↦ hout
    ⟨s.x + s.width - 1, by omega, ⟨by omega, by omega⟩,
      fun j hlt hj ↦ h.after j (by omega) (by omega)⟩
  have hover : ¬ (s.x ≤ x ∧ x < s.x + s.width) := fun hin ↦ hout ⟨x, hx, hin, joined_self⟩
  have hsame : ∀ {j}, j < g.width → j < start ∨ stop ≤ j → g'.look j y = g.look j y := by
    intro j hj hside
    rw [h.look_eq ⟨hj, hy⟩, if_neg (by omega)]
  refine ⟨hsame hx (by omega), fun {i} hi ↦ ?_⟩
  have hcongr : (∀ j, min i x < j → j ≤ max i x → j < start ∨ stop ≤ j) →
      (g'.Joined y i x ↔ g.Joined y i x) := by
    intro hside
    refine forall_congr' fun j ↦ forall_congr' fun hlt ↦ forall_congr' fun hj ↦ ?_
    rw [Leads, Leads, hsame (by omega) (hside j hlt hj)]
  rcases Nat.lt_or_ge x start with hlt | hge
  · rcases Nat.lt_or_ge i start with hi' | hi'
    · exact hcongr fun j _ hj ↦ .inl (by omega)
    · -- A character begins at `start`, before and after.
      have hlead : g'.Leads y start := by
        rw [Leads, h.look_eq ⟨by omega, hy⟩, if_pos (by omega)]
        split
        · rfl
        · rw [if_neg (by omega)]
          rfl
      exact iff_of_false (not_joined start hlead (by omega) (by omega))
        (not_joined start (h.leads_start.resolve_left (by omega)) (by omega) (by omega))
  · rcases Nat.lt_or_ge i stop with hi' | hi'
    · have hlead := h.edge_stop.resolve_right (by omega)
      have hlead' : g'.Leads y stop := by
        rw [Leads, hsame (by omega) (.inr (Nat.le_refl stop))]
        exact hlead
      exact iff_of_false (not_joined stop hlead' (by omega) (by omega))
        (not_joined stop hlead (by omega) (by omega))
    · exact hcongr fun j hlt _ ↦ .inr (by omega)

theorem Placed.touched_off_stroke (h : Placed s.x y s.width start stop grapheme style link g g')
    (hy : y < g.height) (hpos : 0 < s.width) (hx : x < g.width) (hout : ¬ g.Touched y x s)
    {t : Stroke} : g'.Touched y x t ↔ g.Touched y x t := by
  refine exists_congr fun i ↦ ?_
  rw [h.width_eq]
  refine and_congr_right fun hi ↦ and_congr_right fun _ ↦ ?_
  exact (h.off_stroke hy hpos hx hout).2 hi

end RenderGrid

/-! ## Drawing strokes -/

/-- Strokes drawn one after the other, each with the link of its index. -/
inductive Strikes (y : ℕ) (link : ℕ → Option Hyperlink) :
    List Stroke → RenderGrid → RenderGrid → Prop
  | nil {g : RenderGrid} : Strikes y link [] g g
  | cons {s : Stroke} {strokes : List Stroke} {g g' g'' : RenderGrid} {start stop : ℕ}
      {grapheme : List Char} {style : CellStyle} (hpos : 0 < s.width)
      (hplaced : Placed s.x y s.width start stop grapheme style (link s.index) g g')
      (hrest : Strikes y link strokes g' g'') : Strikes y link (s :: strokes) g g''

namespace Strikes

variable {link : ℕ → Option Hyperlink} {ss ts : List Stroke}

theorem append (h : Strikes y link ss g g') (h' : Strikes y link ts g' g'') :
    Strikes y link (ss ++ ts) g g'' := by
  induction h with
  | nil => exact h'
  | cons hpos hplaced _ ih => exact .cons hpos hplaced (ih h')

/-- The link of every column after strokes are drawn. -/
theorem look (h : Strikes y link ss g g') (hy : y < g.height) {x : ℕ} (hx : x < g.width) :
    ((∃ s ∈ ss, s.Covers x) → (g'.look x y).link = (shown x ss).bind link) ∧
      ((∀ s ∈ ss, ¬ s.Covers x) → (∃ s ∈ ss, g.Touched y x s) → (g'.look x y).link = none) ∧
      ((∀ s ∈ ss, ¬ g.Touched y x s) → g'.look x y = g.look x y) := by
  induction h with
  | nil => exact ⟨fun ⟨s, hs, _⟩ ↦ absurd hs List.not_mem_nil,
      fun _ ⟨s, hs, _⟩ ↦ absurd hs List.not_mem_nil, fun _ ↦ rfl⟩
  | @cons s strokes g g₁ g₂ start stop grapheme style hpos hplaced hrest ih =>
    have hwidth := hplaced.width_eq
    obtain ⟨hshown, hlost, hkept⟩ := ih (by rw [hplaced.height_eq]; exact hy) (by omega)
    refine ⟨fun hcovers ↦ ?_, fun hnone htouched ↦ ?_, fun hnone ↦ ?_⟩
    · rw [shown]
      split
      · next hlater => exact hshown hlater
      · next hlater =>
        have hnot : ∀ t ∈ strokes, ¬ t.Covers x := fun t ht h ↦ hlater ⟨t, ht, h⟩
        have hs : s.Covers x := by
          obtain ⟨t, ht, hcovers⟩ := hcovers
          rcases List.mem_cons.mp ht with rfl | ht
          · exact hcovers
          · exact absurd hcovers (hnot t ht)
        have hmeets := fun t ↦ hplaced.touched_on_stroke (t := t) hy hs
        split
        · next hwhole =>
          rw [hkept fun t ht htouched ↦ hwhole.2 t ht ((hmeets t).mp htouched)]
          exact (hplaced.on_stroke hy hs).1
        · next hcut =>
          have hcut : ∃ t ∈ strokes, s.Meets t := by
            by_contra hno
            exact hcut ⟨hs, fun t ht hm ↦ hno ⟨t, ht, hm⟩⟩
          obtain ⟨t, ht, hm⟩ := hcut
          exact hlost hnot ⟨t, ht, (hmeets t).mpr hm⟩
    · obtain ⟨hs, hnot⟩ := List.forall_mem_cons.mp hnone
      by_cases hlater : ∃ t ∈ strokes, g₁.Touched y x t
      · exact hlost hnot hlater
      · rw [hkept fun t ht h ↦ hlater ⟨t, ht, h⟩]
        by_cases hfirst : g.Touched y x s
        · exact hplaced.beside_stroke hy hpos hx hs hfirst
        · obtain ⟨t, ht, htouched⟩ := htouched
          rcases List.mem_cons.mp ht with rfl | ht
          · exact absurd htouched hfirst
          · exact absurd ⟨t, ht, (hplaced.touched_off_stroke hy hpos hx hfirst).mpr htouched⟩ hlater
    · obtain ⟨hs, hnot⟩ := List.forall_mem_cons.mp hnone
      rw [hkept fun t ht h ↦ hnot t ht ((hplaced.touched_off_stroke hy hpos hx hs).mp h)]
      exact (hplaced.off_stroke hy hpos hx hs).1

end Strikes

end

/-! ## Links are not looked at -/

def GridCell.unlinked (cell : GridCell) : GridCell := { cell with link := none }

namespace RenderGrid

/-- The grid without its links. -/
def unlinked (g : RenderGrid) : RenderGrid :=
  { g with
    cells := g.cells.map (·.unlinked)
    sized := by rw [List.length_map, g.sized] }

variable {g : RenderGrid} {x y : ℕ}

end RenderGrid

end Embers.Client
