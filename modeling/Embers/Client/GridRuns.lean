import Embers.Client.GridAreas

/-!
# Grids reached by drawing

Whatever is drawn, and wherever, no place outside the grid is reached and every row stays tiled:
each continuation belongs to the character before it, and the characters of a row, with the widths
read back from their continuations, cover every column once.
-/

namespace Embers.Client

open RenderGrid

/-- The operations that draw on a grid. -/
inductive DrawOp where
  | clear (fill : Char)
  | putStr (x y : ℕ) (text : List Char) (style : CellStyle)
  | putChar (x y : ℕ) (ch : Char) (style : CellStyle)
  | putSnapshotLine (x y width : ℕ) (line : StyledLine)
  | restyleRange (x y startCol endCol : ℕ) (restyle : CellStyle → CellStyle)
  | drawHline (x y width : ℕ) (ch : Char) (style : CellStyle)
  | drawVline (x y height : ℕ) (ch : Char) (style : CellStyle)
  | fillRect (rect : Rect) (fill : Char) (style : CellStyle)
  | drawBox (rect : Rect) (border : BorderStyle) (style : CellStyle)

def DrawOp.draw (u : Unicode) (g : RenderGrid) : DrawOp → Drawn RenderGrid
  | clear fill => pure (g.clear fill)
  | putStr x y text style => g.putStrStyled u x y text style
  | putChar x y ch style => g.putCharStyled u x y ch style
  | putSnapshotLine x y width line => g.putSnapshotLine u x y width line
  | restyleRange x y startCol endCol restyle => g.restyleRange x y startCol endCol restyle
  | drawHline x y width ch style => g.drawHlineStyled u x y width ch style
  | drawVline x y height ch style => g.drawVlineStyled u x y height ch style
  | fillRect rect fill style => g.fillRect u rect fill style
  | drawBox rect border style => g.drawBoxStyled u rect border style

def draws (u : Unicode) (ops : List DrawOp) (g : RenderGrid) : Drawn RenderGrid :=
  ops.foldlM (DrawOp.draw u) g

namespace RenderGrid

variable {u : Unicode} {g g' : RenderGrid} {x y : ℕ}

/-! ## Drawing on the whole grid -/

/-- A grid all of whose rows are tiled. -/
def Whole (g : RenderGrid) : Prop := Uncut g.area g

/-- A change of a grid that leaves its rows tiled. -/
structure Redrawn (g g' : RenderGrid) : Prop where
  whole : g'.Whole
  width_eq : g'.width = g.width
  height_eq : g'.height = g.height

theorem Redrawn.refl (h : g.Whole) : g.Redrawn g := ⟨h, rfl, rfl⟩

theorem Redrawn.trans {g'' : RenderGrid} (h : g.Redrawn g') (h' : g'.Redrawn g'') :
    g.Redrawn g'' :=
  ⟨h'.whole, h'.width_eq.trans h.width_eq, h'.height_eq.trans h.height_eq⟩

theorem Redrawn.of_drew (h : Drew g.area g g') : g.Redrawn g' := by
  refine ⟨?_, h.width_eq, h.height_eq⟩
  rw [Whole, area, h.width_eq, h.height_eq]
  exact h.uncut

theorem Redrawn.foldlM {β : Type} {l : List β} {f : RenderGrid → β → Drawn RenderGrid}
    (hf : ∀ b ∈ l, ∀ g' : RenderGrid, g'.Whole → Gives (f g' b) g'.Redrawn) (h : g.Whole) :
    Gives (l.foldlM f g) g.Redrawn := by
  refine Gives.foldlM (fun b hb g' hg' ↦ ?_) (.refl h)
  exact (hf b hb g' hg'.whole).mono fun g'' hg'' ↦ hg'.trans hg''

theorem Redrawn.of_blank {cell : GridCell} (h : g.Whole) (hlead : cell.continuation = false)
    (hspan : cell.span = 1) (hwidth : g'.width = g.width) (hheight : g'.height = g.height)
    (hcells : g'.cells = List.replicate (g.width * g.height) cell) : g.Redrawn g' := by
  have hlook : ∀ {x y}, g.Contains x y → g'.look x y = cell := by
    intro x y hin
    have hlt : g'.index x y < g.width * g.height := by
      rw [← hheight, ← hwidth, ← g'.sized]
      exact index_lt ((contains_congr hwidth hheight).mpr hin)
    rw [look, hcells, List.getElem?_replicate, if_pos hlt]
    rfl
  refine ⟨uncut_area (hwidth ▸ h.narrow) fun {y} hy ↦ ?_, hwidth, hheight⟩
  rw [hheight] at hy
  rw [TiledRow, hwidth]
  refine .ones (fun x _ hx ↦ ?_) fun x _ hx ↦ ?_
  · rw [Leads, hlook ⟨hx, hy⟩]
    exact hlead
  · rw [hlook ⟨hx, hy⟩]
    exact hspan

theorem redrawn_putStrLinked {text : List Char} {style : CellStyle} {link : Option Hyperlink}
    (h : g.Whole) : Gives (g.putStrLinked u x y text style link) g.Redrawn := by
  by_cases hy : y < g.height
  · exact (gives_putStrLinked h ⟨Nat.zero_le y, hy⟩ (Nat.zero_le x) (.inl rfl)).mono
      fun _ ↦ .of_drew
  · rw [putStrLinked, if_pos (.inl (by omega))]
    exact .pure (.refl h)

theorem redrawn_putCharStyled {ch : Char} {style : CellStyle} (h : g.Whole) :
    Gives (g.putCharStyled u x y ch style) g.Redrawn := redrawn_putStrLinked h

theorem redrawn_putSnapshotLine {width : ℕ} {line : StyledLine} (h : g.Whole) :
    Gives (g.putSnapshotLine u x y width line) g.Redrawn := by
  by_cases hy : y < g.height
  · exact (gives_putSnapshotLine h ⟨Nat.zero_le y, hy⟩ (Nat.zero_le x) (.inl rfl) (.inl rfl)).mono
      fun _ ↦ .of_drew
  · rw [putSnapshotLine, if_pos (.inr (.inl (by omega)))]
    exact .pure (.refl h)

theorem redrawn_restyleRange {startCol endCol : ℕ} {restyle : CellStyle → CellStyle}
    (h : g.Whole) : Gives (g.restyleRange x y startCol endCol restyle) g.Redrawn := by
  have hrow : g.area.HasRow y ∨ g.height ≤ y := by
    rcases Nat.lt_or_ge y g.height with hlt | hge
    · exact .inl ⟨Nat.zero_le y, hlt⟩
    · exact .inr hge
  exact (gives_restyleRange h hrow (Nat.zero_le x) (.inl rfl)).mono fun _ ↦ .of_drew

theorem redrawn_drawHlineStyled {width : ℕ} {ch : Char} {style : CellStyle} (h : g.Whole) :
    Gives (g.drawHlineStyled u x y width ch style) g.Redrawn :=
  Redrawn.foldlM (fun _ _ _ ↦ redrawn_putCharStyled) h

theorem redrawn_drawVlineStyled {height : ℕ} {ch : Char} {style : CellStyle} (h : g.Whole) :
    Gives (g.drawVlineStyled u x y height ch style) g.Redrawn :=
  Redrawn.foldlM (fun _ _ _ ↦ redrawn_putCharStyled) h

theorem redrawn_fillRect {rect : Rect} {fill : Char} {style : CellStyle} (h : g.Whole) :
    Gives (g.fillRect u rect fill style) g.Redrawn := by
  rw [fillRect]
  split
  · exact .pure (.refl h)
  · refine Redrawn.foldlM (fun _ _ g' hg' ↦ ?_) h
    exact Redrawn.foldlM (fun _ _ _ ↦ redrawn_putCharStyled) hg'

/-- What is drawn after something else. -/
theorem Redrawn.bind {m : Drawn RenderGrid} {f : RenderGrid → Drawn RenderGrid}
    (hm : Gives m g.Redrawn) (hf : ∀ g' : RenderGrid, g'.Whole → Gives (f g') g'.Redrawn) :
    Gives (m >>= f) g.Redrawn :=
  hm.bind fun g' hg' ↦ (hf g' hg'.whole).mono fun _ hg'' ↦ hg'.trans hg''

theorem redrawn_drawBoxStyled {rect : Rect} {border : BorderStyle} {style : CellStyle}
    (h : g.Whole) : Gives (g.drawBoxStyled u rect border style) g.Redrawn := by
  rw [drawBoxStyled]
  split
  · exact .pure (.refl h)
  refine Redrawn.bind (redrawn_putCharStyled h) fun _ h ↦ ?_
  refine Redrawn.bind (redrawn_putCharStyled h) fun _ h ↦ ?_
  refine Redrawn.bind (redrawn_putCharStyled h) fun _ h ↦ ?_
  refine Redrawn.bind (redrawn_putCharStyled h) fun _ h ↦ ?_
  simp only [pure_bind]
  split <;> split
  · refine Redrawn.bind (redrawn_drawHlineStyled h) fun _ h ↦ ?_
    refine Redrawn.bind (redrawn_drawHlineStyled h) fun _ h ↦ ?_
    exact Redrawn.bind (redrawn_drawVlineStyled h) fun _ ↦ redrawn_drawVlineStyled
  · refine Redrawn.bind (redrawn_drawHlineStyled h) fun _ h ↦ ?_
    exact Redrawn.bind (redrawn_drawHlineStyled h) fun _ h ↦ .pure (.refl h)
  · exact Redrawn.bind (redrawn_drawVlineStyled h) fun _ ↦ redrawn_drawVlineStyled
  · exact .pure (.refl h)

theorem redrawn_clear {fill : Char} (h : g.Whole) : g.Redrawn (g.clear fill) := by
  have hcells : (g.clear fill).cells = List.replicate (g.width * g.height) (.blank fill) := rfl
  exact .of_blank h rfl rfl rfl rfl hcells

theorem whole_new {width height : ℕ} (h : width < 65535) : (new width height).Whole := by
  refine uncut_area h fun {y} hy ↦ ?_
  have hlook : ∀ {x}, x < width → (new width height).look x y = default := by
    intro x hx
    have hlt : (new width height).index x y < width * height := by
      have := index_lt (g := new width height) ⟨hx, hy⟩
      rwa [(new width height).sized] at this
    rw [look]
    change ((List.replicate (width * height) default)[_]?).getD default = _
    rw [List.getElem?_replicate, if_pos hlt]
    rfl
  refine .ones (fun x _ hx ↦ ?_) fun x _ hx ↦ ?_
  · rw [Leads, hlook hx]
    rfl
  · rw [hlook hx]
    rfl

/-- Each drawing operation stays in the grid and leaves its rows tiled. -/
theorem redrawn_draw (h : g.Whole) (op : DrawOp) : Gives (op.draw u g) g.Redrawn := by
  rcases op with _ | _ | _ | _ | _ | _ | _ | _ | _
  · exact .pure (redrawn_clear h)
  · exact redrawn_putStrLinked h
  · exact redrawn_putCharStyled h
  · exact redrawn_putSnapshotLine h
  · exact redrawn_restyleRange h
  · exact redrawn_drawHlineStyled h
  · exact redrawn_drawVlineStyled h
  · exact redrawn_fillRect h
  · exact redrawn_drawBoxStyled h

theorem redrawn_draws (h : g.Whole) (ops : List DrawOp) : Gives (draws u ops g) g.Redrawn :=
  Redrawn.foldlM (fun op _ _ h ↦ redrawn_draw h op) h

/-! ## Reading a row back -/

theorem length_takeWhile_range' {p : ℕ → Bool} {count : ℕ} : ∀ {start n : ℕ}, count ≤ n →
    (∀ i, start ≤ i → i < start + count → p i = true) → (count < n → p (start + count) = false) →
    ((List.range' start n).takeWhile p).length = count := by
  induction count with
  | zero =>
    intro start n _ _ hstop
    rcases n with _ | n
    · rfl
    · rw [List.range'_succ, List.takeWhile_cons_of_neg]
      · rfl
      · have hfalse : p start = false := hstop (Nat.succ_pos n)
        rw [hfalse]
        exact nofun
  | succ count ih =>
    intro start n hle hall hstop
    rcases n with _ | n
    · omega
    · rw [List.range'_succ, List.takeWhile_cons_of_pos (hall start (Nat.le_refl _) (by omega)),
        List.length_cons]
      rw [ih (by omega) (fun i hi hi' ↦ hall i (by omega) (by omega)) fun hlt ↦ ?_]
      rw [Nat.add_right_comm]
      exact hstop (by omega)

/-- The width read back from the continuations is the one the character was drawn with. -/
theorem cellWidth_eq_span (h : g.TiledRow y) (hx : x < g.width) (hlead : g.Leads y x) :
    g.cellWidth x y = (g.look x y).span := by
  have hpos := h.pos (Nat.zero_le x) hx hlead
  have hfits := h.fits (Nat.zero_le x) hx hlead
  have hcount : ((List.range' (x + 1) (g.width - (x + 1))).takeWhile fun x ↦
      (g.look x y).continuation).length = (g.look x y).span - 1 := by
    refine length_takeWhile_range' (by omega) (fun i hi hi' ↦ ?_) fun hlt ↦ ?_
    · have hinner := h.inner (Nat.zero_le x) hx hlead (i := i) (by omega) (by omega)
      exact Bool.of_not_eq_false hinner
    · have hnext := h.next (Nat.zero_le x) hx hlead (by omega)
      have hsum : x + 1 + ((g.look x y).span - 1) = x + (g.look x y).span := by omega
      rw [hsum]
      exact hnext
  rw [cellWidth, hcount]
  omega

/-- The cell at `i` continues the character that begins at `x`. -/
structure Continues (g : RenderGrid) (y x i : ℕ) : Prop where
  lead : g.Leads y x
  before : x < i
  drawn : i < x + (g.look x y).span
  between : ∀ j, x < j → j ≤ i → (g.look j y).continuation = true

theorem TiledRow.continues (h : g.TiledRow y) {i : ℕ} (hi : i < g.width)
    (hcont : (g.look i y).continuation = true) : ∃ x, g.Continues y x i := by
  obtain ⟨x, hax, hxi, hlead, hend⟩ := h.covered (Nat.zero_le i) hi
  have hne : x ≠ i := by
    rintro rfl
    rw [Leads, hcont] at hlead
    cases hlead
  refine ⟨x, hlead, by omega, hend, fun j hj hji ↦ ?_⟩
  have hinner := h.inner hax (by omega) hlead hj (by omega)
  exact Bool.of_not_eq_false hinner

theorem TiledRow.existsUnique_cell (h : g.TiledRow y) {i : ℕ} (hi : i < g.width) :
    ∃! x, x ≤ i ∧ g.Leads y x ∧ i < x + g.cellWidth x y := by
  obtain ⟨x, hax, hxi, hlead, hend⟩ := h.covered (Nat.zero_le i) hi
  refine ⟨x, ⟨hxi, hlead, ?_⟩, fun x' ⟨hxi', hlead', hend'⟩ ↦ ?_⟩
  · rw [cellWidth_eq_span h (by omega) hlead]
    exact hend
  · rw [cellWidth_eq_span h (by omega) hlead'] at hend'
    exact h.unique hlead' hlead (Nat.zero_le _) hax hxi' hxi hi hend' hend

end RenderGrid

/-- Any drawing on a grid narrower than 65535 columns stays inside it. In the grid it leaves, each
continuation belongs to the character before it, and every column of a row is covered once by a
cell that begins a character, with the width read back for it. -/
theorem draws_whole (u : Unicode) {width height : ℕ} (hwidth : width < 65535)
    (ops : List DrawOp) : ∃ g, draws u ops (new width height) = .ok g ∧
      g.width = width ∧ g.height = height ∧ ∀ y < height,
        (∀ i < width, (g.look i y).continuation = true → ∃ x, g.Continues y x i) ∧
          ∀ i < width, ∃! x, x ≤ i ∧ g.Leads y x ∧ i < x + g.cellWidth x y := by
  obtain ⟨g, hdraws, hg⟩ := redrawn_draws (u := u) (whole_new hwidth) ops
  have hw : g.width = width := hg.width_eq
  have hh : g.height = height := hg.height_eq
  refine ⟨g, hdraws, hw, hh, fun y hy ↦ ?_⟩
  have htiled : g.TiledRow y := hg.whole.tiled (hh ▸ hy)
  constructor
  · exact fun i hi hcont ↦ htiled.continues (hw ▸ hi) hcont
  · exact fun i hi ↦ htiled.existsUnique_cell (hw ▸ hi)

/-- A wide character cut in half by a line, on three columns. -/
theorem draws_whole_cut : ∃ g,
    draws ⟨fun text ↦ text.map ([·]), fun text ↦ text.length + text.count '界'⟩
      [.putStr 0 0 ['界'] .plain, .drawHline 1 0 2 '-' .plain] (new 3 1) = .ok g ∧
    g.width = 3 ∧ g.height = 1 ∧ ∀ y < 1,
      (∀ i < 3, (g.look i y).continuation = true → ∃ x, g.Continues y x i) ∧
        ∀ i < 3, ∃! x, x ≤ i ∧ g.Leads y x ∧ i < x + g.cellWidth x y :=
  draws_whole _ (by decide) _

end Embers.Client
