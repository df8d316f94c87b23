import Embers.Client.LeafAreas

/-!
# Cells that were drawn over

A cell of a grid that holds a link and a plain style is stained once something is drawn or styled
over it: its link is gone, or its style has some property. No later operation washes a stain out,
unless it takes the property from the style.
-/

namespace Embers.Client

open RenderGrid

/-- The cell has no link, or its style the property. -/
def Stained (p : CellStyle → Prop) (cell : GridCell) : Prop := cell.link = none ∨ p cell.style

/-- A change of a grid that keeps its size and a stain at a place. -/
structure Stains (p : CellStyle → Prop) (i j : ℕ) (g g' : RenderGrid) : Prop where
  width_eq : g'.width = g.width
  height_eq : g'.height = g.height
  kept : Stained p (g.look i j) → Stained p (g'.look i j)

section

variable {p : CellStyle → Prop} {i j : ℕ} {u : Unicode} {g g' g'' : RenderGrid}

namespace Stains

theorem refl : Stains p i j g g := ⟨rfl, rfl, id⟩

theorem trans (h : Stains p i j g g') (h' : Stains p i j g' g'') : Stains p i j g g'' :=
  ⟨h'.width_eq.trans h.width_eq, h'.height_eq.trans h.height_eq, fun hs ↦ h'.kept (h.kept hs)⟩

end Stains

/-- The place is not among some columns of a row. -/
def Misses (i j y start stop : ℕ) : Prop := j ≠ y ∨ i < start ∨ stop ≤ i

theorem stains_place {x y width : ℕ} {grapheme : List Char} {style : CellStyle}
    {link : Option Hyperlink} (hnarrow : g.width < 65535) (hy : y < g.height) (hpos : 0 < width)
    (hfit : x + width ≤ g.width) (hi : i < g.width) (hj : j < g.height)
    (hlink : link = none ∨ Misses i j y x (x + width)) :
    Gives (g.place x y grapheme style width link) (Stains p i j g) := by
  refine (gives_place hnarrow hy hpos hfit).mono fun g' ⟨start, stop, hplaced⟩ ↦ ?_
  refine ⟨hplaced.width_eq, hplaced.height_eq, fun hstained ↦ ?_⟩
  rw [hplaced.look_eq ⟨hi, hj⟩]
  split
  · next hin =>
    rcases hlink with rfl | hmiss
    · split
      · exact .inl rfl
      · split <;> exact .inl rfl
    · rw [Misses] at hmiss
      rw [if_neg (by omega), if_neg (by omega)]
      exact .inl rfl
  · exact hstained

theorem stains_putGraphemes {y : ℕ} {style : CellStyle} {link : Option Hyperlink} :
    ∀ {texts : List (List Char)} {x : ℕ} {g : RenderGrid}, g.width < 65535 → y < g.height →
    i < g.width → j < g.height →
    (link = none ∨ Misses i j y x (x + (texts.map u.graphemeWidth).sum)) →
    Gives (putGraphemes u y style link texts x g) (Stains p i j g) := by
  intro texts
  induction texts with
  | nil => exact fun _ _ _ _ _ ↦ .pure .refl
  | cons text texts ih =>
    intro x g hnarrow hy hi hj hlink
    rw [putGraphemes]
    split
    · exact .pure .refl
    rw [if_neg (Nat.ne_of_gt (u.graphemeWidth_pos text))]
    split
    · exact .pure .refl
    · next hx hfit =>
      have hsum : add16 x (u.graphemeWidth text) = x + u.graphemeWidth text :=
        add16_of_le hnarrow (by omega)
      rw [hsum] at hfit ⊢
      rw [List.map_cons, List.sum_cons] at hlink
      have hfirst : link = none ∨ Misses i j y x (x + u.graphemeWidth text) := by
        refine hlink.imp_right fun h ↦ ?_
        rw [Misses] at h ⊢
        omega
      have hplace : Gives (g.place x y text style (u.graphemeWidth text) link) (Stains p i j g) :=
        stains_place hnarrow hy (u.graphemeWidth_pos text) (by omega) hi hj hfirst
      refine hplace.bind fun g' hg' ↦ ?_
      have hwidth := hg'.width_eq
      have hheight := hg'.height_eq
      refine (ih (by omega) (by omega) (by omega) (by omega) ?_).mono fun g'' hg'' ↦ hg'.trans hg''
      refine hlink.imp_right fun h ↦ ?_
      rw [Misses] at h ⊢
      omega

theorem stains_putStrLinked {x y : ℕ} {text : List Char} {style : CellStyle}
    {link : Option Hyperlink} (hnarrow : g.width < 65535) (hi : i < g.width) (hj : j < g.height)
    (hlink : link = none ∨ Misses i j y x (x + u.drawnWidth text)) :
    Gives (g.putStrLinked u x y text style link) (Stains p i j g) := by
  rw [putStrLinked]
  split
  · exact .pure .refl
  · next hin => exact stains_putGraphemes hnarrow (by omega) hi hj hlink

/-! ## Lines -/

theorem stains_putLineCell {x y : ℕ} {line : StyledLine} {cell : LineCell} (hu : u.Ascii)
    (hnarrow : g.width < 65535) (hy : y < g.height) (hpos : 0 < cell.width) (hi : i < g.width)
    (hj : j < g.height) (hmiss : Misses i j y x (x + cell.width)) :
    Gives (g.putLineCell u line x y cell) (Stains p i j g) := by
  unfold putLineCell
  simp only
  split
  · refine stains_putStrLinked hnarrow hi hj (.inr ?_)
    have hspaces : ∀ ch ∈ List.replicate cell.width ' ', Printable ch := by
      intro ch hch
      rw [List.eq_of_mem_replicate hch]
      decide
    rw [hu.drawnWidth hspaces, List.length_replicate]
    exact hmiss
  · split
    · next hfit =>
      have hsum := add16_of_le hnarrow hfit
      rw [hsum] at hfit
      exact stains_place hnarrow hy hpos hfit hi hj (.inr hmiss)
    · exact .pure .refl

theorem stains_putLineCells {x y budget : ℕ} {line : StyledLine} (hu : u.Ascii)
    (hmiss : Misses i j y x (x + budget)) : ∀ {cells : List LineCell} {column : ℕ}
    {g : RenderGrid}, (∀ cell ∈ cells, 0 < cell.width) → g.width < 65535 → y < g.height →
    i < g.width → j < g.height → Gives (putLineCells u line x y budget cells column g)
      fun (g', _) ↦ Stains p i j g g' := by
  intro cells
  induction cells with
  | nil => exact fun _ _ _ _ _ ↦ .pure .refl
  | cons cell cells ih =>
    intro column g hpos hnarrow hy hi hj
    rw [putLineCells]
    split
    · exact .pure .refl
    next hfit =>
    have hmiss' : Misses i j y (add16 x column) (add16 x column + cell.width) := by
      rw [Misses] at hmiss ⊢
      rw [add16] at hfit ⊢
      omega
    have hcell : Gives (g.putLineCell u line (add16 x column) y cell) (Stains p i j g) :=
      stains_putLineCell hu hnarrow hy (hpos cell List.mem_cons_self) hi hj hmiss'
    refine hcell.bind fun g' hg' ↦ ?_
    have hwidth := hg'.width_eq
    have hheight := hg'.height_eq
    refine (ih (fun c hc ↦ hpos c (List.mem_cons_of_mem _ hc)) (by omega) (by omega) (by omega)
      (by omega)).mono ?_
    rintro ⟨g'', column'⟩ hg''
    exact hg'.trans hg''

theorem stains_putSnapshotLine {x y width : ℕ} {line : StyledLine} (hu : u.Ascii)
    (hnarrow : g.width < 65535) (hi : i < g.width) (hj : j < g.height)
    (hmiss : Misses i j y x (x + width)) :
    Gives (g.putSnapshotLine u x y width line) (Stains p i j g) := by
  rw [putSnapshotLine]
  split
  · exact .pure .refl
  next hin =>
  simp only
  have hmiss' : Misses i j y x (x + if line.width u > width then width - 1 else width) := by
    rw [Misses] at hmiss ⊢
    split <;> omega
  have hcells : Gives (putLineCells u line x y _ (line.cells u) 0 g)
      fun (g', _) ↦ Stains p i j g g' :=
    stains_putLineCells hu hmiss' (fun cell ↦ width_pos_of_mem_cells) hnarrow (by omega) hi hj
  refine hcells.bind ?_
  rintro ⟨g', column⟩ hg'
  have hwidth := hg'.width_eq
  have hheight := hg'.height_eq
  simp only
  split
  · refine (stains_putStrLinked ?_ ?_ ?_ (.inl rfl)).mono fun g'' hg'' ↦ hg'.trans hg''
    all_goals omega
  · exact .pure hg'

/-! ## Styles -/

/-- A change of styles changes a stretch of a row. The stretch takes in the first of the columns it
is asked for. -/
theorem recast_restyleRange {x y startCol endCol : ℕ} {f : CellStyle → CellStyle}
    (hnarrow : g.width < 65535) : Gives (g.restyleRange x y startCol endCol f) fun g' ↦
      ∃ start stop, Recast y start stop (fun cell ↦ { cell with style := f cell.style }) g g' ∧
        (y < g.height → startCol < endCol → x + endCol ≤ g.width →
          start ≤ x + startCol ∧ x + startCol < stop) := by
  have hnone : ∀ {f : GridCell → GridCell}, Recast y 0 0 f g g :=
    ⟨rfl, rfl, fun _ ↦ by rw [if_neg (by omega)]⟩
  rw [restyleRange]
  split
  · exact .pure ⟨0, 0, hnone, fun hy hlt _ ↦ absurd hlt (by omega)⟩
  next hin =>
  simp only
  split
  · next hempty =>
    refine .pure ⟨0, 0, hnone, fun _ hlt hle ↦ absurd hempty ?_⟩
    rw [add16, add16]
    omega
  next hlt =>
  have hy : y < g.height := by omega
  refine (gives_snapStart hy (by omega)).bind fun start hsnapped ↦ ?_
  obtain ⟨hstart, -⟩ := hsnapped
  refine (gives_snapEnd hy (by omega)).bind fun stop hsnapped ↦ ?_
  obtain ⟨hstop, hle, -⟩ := hsnapped
  refine (gives_modifyRange hy (by omega) hle).mono fun g' hrecast ↦ ?_
  refine ⟨start, stop, hrecast, fun _ hlt hle ↦ ?_⟩
  rw [add16] at hstart hstop
  omega

theorem stains_restyleRange {x y startCol endCol : ℕ} {f : CellStyle → CellStyle}
    (hnarrow : g.width < 65535) (hi : i < g.width) (hj : j < g.height)
    (h : j ≠ y ∨ ∀ style, p style → p (f style)) :
    Gives (g.restyleRange x y startCol endCol f) (Stains p i j g) := by
  refine (recast_restyleRange hnarrow).mono fun g' ⟨start, stop, hrecast, _⟩ ↦ ?_
  refine ⟨hrecast.width_eq, hrecast.height_eq, fun hstained ↦ ?_⟩
  rw [hrecast.look_eq ⟨hi, hj⟩]
  split
  · next hin =>
    have hf := h.resolve_left (by omega)
    exact hstained.imp_right fun hp ↦ hf _ hp
  · exact hstained

/-- Styling over a cell. -/
theorem stained_restyleRange {q : CellStyle → Prop} {x y startCol endCol : ℕ}
    {f : CellStyle → CellStyle} (hnarrow : g.width < 65535) (hy : y < g.height)
    (hlt : startCol < endCol) (hle : x + endCol ≤ g.width) (h : ∀ style, p style → q (f style))
    (hstained : Stained p (g.look (x + startCol) y)) :
    Gives (g.restyleRange x y startCol endCol f) fun g' ↦ g'.width = g.width ∧
      g'.height = g.height ∧ Stained q (g'.look (x + startCol) y) := by
  refine (recast_restyleRange hnarrow).mono fun g' ⟨start, stop, hrecast, hin⟩ ↦ ?_
  refine ⟨hrecast.width_eq, hrecast.height_eq, ?_⟩
  obtain ⟨hstart, hstop⟩ := hin hy hlt hle
  rw [hrecast.look_eq ⟨by omega, hy⟩, if_pos ⟨rfl, hstart, hstop⟩]
  exact hstained.imp_right (h _)

/-! ## Texts past a column -/

/-- A text that ends right of a column is drawn over it. -/
theorem stained_putGraphemes {y right : ℕ} {style : CellStyle} :
    ∀ {texts : List (List Char)} {x n : ℕ} {g : RenderGrid}, g.width < 65535 → y < g.height →
    x ≤ right → right < x + ((texts.take n).map u.graphemeWidth).sum →
    x + ((texts.take n).map u.graphemeWidth).sum ≤ g.width →
    Gives (putGraphemes u y style none texts x g) fun g' ↦ g'.width = g.width ∧
      g'.height = g.height ∧ (g'.look right y).link = none := by
  intro texts
  induction texts with
  | nil =>
    intro x n g _ _ hx hlt _
    rw [List.take_nil, List.map_nil, List.sum_nil] at hlt
    omega
  | cons text texts ih =>
    intro x n g hnarrow hy hx hlt hle
    rcases n with _ | n
    · rw [List.take_zero, List.map_nil, List.sum_nil] at hlt
      omega
    rw [List.take_succ_cons, List.map_cons, List.sum_cons] at hlt hle
    have hpos := u.graphemeWidth_pos text
    have hsum : add16 x (u.graphemeWidth text) = x + u.graphemeWidth text := by
      rw [add16]
      omega
    rw [putGraphemes, if_neg (by omega), if_neg (by omega), hsum, if_neg (by omega)]
    refine (gives_place hnarrow hy hpos (by omega)).bind fun g₁ hdrawn ↦ ?_
    obtain ⟨start, stop, hplaced⟩ := hdrawn
    have hwidth := hplaced.width_eq
    have hheight := hplaced.height_eq
    rcases Nat.lt_or_ge right (x + u.graphemeWidth text) with hcovers | hnext
    · -- The character is drawn over the column, and what follows takes no link from a cell.
      have hlink : Stained (fun _ ↦ False) (g₁.look right y) := by
        have hstart := hplaced.start_le
        have hstop := hplaced.le_stop
        refine .inl ?_
        rw [hplaced.look_eq ⟨by omega, hy⟩, if_pos (by omega)]
        split
        · rfl
        · rw [if_pos (by omega)]
      have hrest : Gives (putGraphemes u y style none texts (x + u.graphemeWidth text) g₁)
          (Stains (fun _ ↦ False) right y g₁) :=
        stains_putGraphemes (by omega) (by omega) (by omega) (by omega) (.inl rfl)
      refine hrest.mono fun g₂ hg₂ ↦ ?_
      refine ⟨hg₂.width_eq.trans hwidth, hg₂.height_eq.trans hheight, ?_⟩
      exact (hg₂.kept hlink).resolve_right id
    · refine (ih (n := n) (by omega) (by omega) hnext (by omega) (by omega)).mono ?_
      rintro g₂ ⟨hw, hh, hlink⟩
      exact ⟨hw.trans hwidth, hh.trans hheight, hlink⟩

theorem stained_putStr {x y right wide : ℕ} {text : List Char} {style : CellStyle}
    (hnarrow : wide < 65535) (hwide : g.width = wide) (hy : y < g.height) (hx : x ≤ right)
    (h : Spills u right wide x text) :
    Gives ((DrawOp.putStr x y text style).draw u g) fun g' ↦ g'.width = g.width ∧
      g'.height = g.height ∧ Stained p (g'.look right y) := by
  obtain ⟨n, hlt, hle⟩ := h
  change Gives (g.putStrLinked u x y text style none) _
  rw [putStrLinked, if_neg (by omega)]
  refine (stained_putGraphemes (by omega) hy hx hlt (by omega)).mono ?_
  rintro g' ⟨hw, hh, hlink⟩
  exact ⟨hw, hh, .inl hlink⟩

/-! ## Operations -/

/-- The operation keeps a stain at a place. -/
def DrawOp.Harmless (p : CellStyle → Prop) (i j : ℕ) : DrawOp → Prop
  | putStr _ _ _ _ => True
  | putChar _ _ _ _ => True
  | putSnapshotLine x y width _ => Misses i j y x (x + width)
  | restyleRange _ y _ _ f => j ≠ y ∨ ∀ style, p style → p (f style)
  | _ => False

theorem stains_draw (hu : u.Ascii) (hnarrow : g.width < 65535) (hi : i < g.width)
    (hj : j < g.height) {op : DrawOp} (h : op.Harmless p i j) :
    Gives (op.draw u g) (Stains p i j g) := by
  rcases op with _ | ⟨x, y, text, style⟩ | ⟨x, y, ch, style⟩ | ⟨x, y, width, line⟩ |
    ⟨x, y, startCol, endCol, f⟩ | _ | _ | _ | _
  · exact absurd h id
  · exact stains_putStrLinked hnarrow hi hj (.inl rfl)
  · exact stains_putStrLinked hnarrow hi hj (.inl rfl)
  · exact stains_putSnapshotLine hu hnarrow hi hj h
  · exact stains_restyleRange hnarrow hi hj h
  all_goals exact absurd h id

theorem stains_draws (hu : u.Ascii) (hnarrow : g.width < 65535) (hi : i < g.width)
    (hj : j < g.height) {ops : List DrawOp} (h : ∀ op ∈ ops, op.Harmless p i j) :
    Gives (draws u ops g) (Stains p i j g) := by
  refine Gives.foldlM (fun op hop g' hg' ↦ ?_) .refl
  have hwidth := hg'.width_eq
  have hheight := hg'.height_eq
  refine (stains_draw hu ?_ ?_ ?_ (h op hop)).mono fun g'' hg'' ↦ hg'.trans hg''
  all_goals omega

end

end Embers.Client
