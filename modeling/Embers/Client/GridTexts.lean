import Embers.Client.GridRuns

/-!
# The texts of drawn cells

Graphemes have at least one character, and so do the cells of a pane's line: whatever is drawn, only
continuations are without text.
-/

namespace Embers.Client

open RenderGrid

/-- A text divides into graphemes that each have a character. -/
def Unicode.Segments (u : Unicode) : Prop := ∀ text, [] ∉ u.graphemes text

/-- Only continuations are without text. -/
def Filled (g : RenderGrid) : Prop := ∀ c ∈ g.cells, c.text = [] → c.continuation = true

namespace RenderGrid

variable {u : Unicode} {g : RenderGrid} {x y : ℕ} {style : CellStyle} {link : Option Hyperlink}

theorem text_of_leads (h : Filled g) (hlead : g.Leads y x) : (g.look x y).text ≠ [] := by
  rw [Leads] at hlead
  rw [look] at hlead ⊢
  rcases hcell : g.cells[g.index x y]? with _ | c
  · intro hempty
    cases hempty
  · rw [hcell] at hlead
    intro hempty
    have hcont := h c (List.mem_of_getElem? hcell) hempty
    rw [show c.continuation = false from hlead] at hcont
    cases hcont

/-! ## Changes of cells -/

theorem filled_modify {f : GridCell → GridCell} (h : Filled g)
    (hf : ∀ c, (c.text = [] → c.continuation = true) →
      (f c).text = [] → (f c).continuation = true) : Yields (g.modify x y f) Filled := by
  intro g' hg'
  rw [modify] at hg'
  split at hg'
  · obtain rfl := Except.ok.inj hg'
    intro c hc
    obtain ⟨i, hi⟩ := List.getElem?_of_mem hc
    simp only [List.getElem?_modify] at hi
    obtain ⟨c', hc', rfl⟩ := Option.map_eq_some_iff.mp hi
    have hc'' := h c' (List.mem_of_getElem? hc')
    split
    · exact hf c' hc''
    · exact hc''
  · exact nomatch hg'

theorem filled_modifyRange {start stop : ℕ} {f : GridCell → GridCell} (h : Filled g)
    (hf : ∀ c, (c.text = [] → c.continuation = true) →
      (f c).text = [] → (f c).continuation = true) :
    Yields (g.modifyRange y start stop f) Filled :=
  Yields.foldlM (fun _ _ _ hg ↦ filled_modify hg hf) h

theorem filled_place {grapheme : List Char} {width : ℕ} (h : Filled g) (htext : grapheme ≠ []) :
    Yields (g.place x y grapheme style width link) Filled := by
  have hcleared : Yields (g.clearOverlappingCells x y width) Filled := by
    rw [clearOverlappingCells]
    refine Yields.bind (P := fun _ ↦ True) (fun _ _ ↦ trivial) fun start _ ↦ ?_
    refine Yields.bind (P := fun _ ↦ True) (fun _ _ ↦ trivial) fun stop _ ↦ ?_
    refine filled_modifyRange h fun _ _ hempty ↦ ?_
    cases hempty
  refine hcleared.bind fun g₁ h₁ ↦ ?_
  rw [setCell]
  refine (filled_modify h₁ fun _ _ hempty ↦ absurd hempty htext).bind fun g₂ h₂ ↦ ?_
  exact filled_modifyRange h₂ fun _ _ _ ↦ rfl

/-! ## Text -/

theorem filled_putGraphemes : ∀ {texts : List (List Char)} {x : ℕ} {g : RenderGrid},
    [] ∉ texts → Filled g → Yields (putGraphemes u y style link texts x g) Filled := by
  intro texts
  induction texts with
  | nil => exact fun _ h ↦ .pure h
  | cons text texts ih =>
    intro x g htexts h
    have hrest : [] ∉ texts := fun hmem ↦ htexts (List.mem_cons_of_mem _ hmem)
    have htext : text ≠ [] := fun hempty ↦ htexts (hempty ▸ List.mem_cons_self)
    rw [putGraphemes]
    split
    · exact .pure h
    split
    · exact ih hrest h
    split
    · exact .pure h
    · exact (filled_place h htext).bind fun g' h' ↦ ih hrest h'

theorem filled_putStrLinked {text : List Char} (hu : u.Segments) (h : Filled g) :
    Yields (g.putStrLinked u x y text style link) Filled := by
  rw [putStrLinked]
  split
  · exact .pure h
  · exact filled_putGraphemes (hu text) h

theorem ne_nil_of_splitBytes {n : ℕ} {text : List Char} {parts : List Char × List Char}
    (hn : n ≠ 0) (h : splitBytes n text = some parts) : parts.1 ≠ [] := by
  rcases n with _ | n
  · exact absurd rfl hn
  rcases text with _ | ⟨c, text⟩
  · rw [splitBytes] at h
    cases h
  · rw [splitBytes] at h
    split at h
    · obtain ⟨rest, _, rfl⟩ := Option.map_eq_some_iff.mp h
      exact List.cons_ne_nil _ _
    · cases h

theorem text_of_mem_spanCells {offset : ℕ} {text : List Char} {spans : List CellSpan}
    {cells : List LineCell} (h : spanCells offset text spans = some cells) :
    ∀ cell ∈ cells, cell.text ≠ [] := by
  induction spans generalizing offset text cells with
  | nil =>
    rw [spanCells] at h
    split at h
    · obtain rfl := Option.some.inj h
      intro cell hcell
      cases hcell
    · cases h
  | cons span spans ih =>
    rw [spanCells] at h
    split at h
    · cases h
    next hlen =>
    obtain ⟨parts, hparts, h⟩ := Option.bind_eq_some_iff.mp h
    obtain ⟨rest, hrest, rfl⟩ := Option.map_eq_some_iff.mp h
    intro cell hcell
    rcases List.mem_cons.mp hcell with rfl | hcell
    · exact ne_nil_of_splitBytes hlen hparts
    · exact ih hrest cell hcell

theorem text_of_mem_graphemeCells {texts : List (List Char)} {offset : ℕ} (h : [] ∉ texts) :
    ∀ cell ∈ graphemeCells u offset texts, cell.text ≠ [] := by
  induction texts generalizing offset with
  | nil => exact nofun
  | cons text texts ih =>
    intro cell hcell
    rcases List.mem_cons.mp hcell with rfl | hcell
    · exact fun hempty ↦ h (List.mem_cons.mpr (.inl hempty.symm))
    · exact ih (fun hmem ↦ h (List.mem_cons_of_mem _ hmem)) cell hcell

theorem text_of_mem_cells {line : StyledLine} (hu : u.Segments) {cell : LineCell}
    (h : cell ∈ line.cells u) : cell.text ≠ [] := by
  rw [StyledLine.cells] at h
  split at h
  · exact text_of_mem_graphemeCells (hu _) cell h
  rcases hspans : spanCells 0 line.text line.cellSpans with _ | cells
  · rw [hspans] at h
    exact text_of_mem_graphemeCells (hu _) cell h
  · rw [hspans] at h
    exact text_of_mem_spanCells hspans cell h

theorem filled_putLineCells {line : StyledLine} {budget : ℕ} (hu : u.Segments) :
    ∀ {cells : List LineCell} {column : ℕ} {g : RenderGrid}, (∀ cell ∈ cells, cell.text ≠ []) →
    Filled g → Yields (putLineCells u line x y budget cells column g) fun (g', _) ↦ Filled g' := by
  intro cells
  induction cells with
  | nil => exact fun _ h ↦ .pure h
  | cons cell cells ih =>
    intro column g htexts h
    have hcell : Yields (g.putLineCell u line (add16 x column) y cell) Filled := by
      unfold putLineCell
      simp only
      split
      · exact filled_putStrLinked hu h
      · split
        · exact filled_place h (htexts cell List.mem_cons_self)
        · exact .pure h
    rw [putLineCells]
    split
    · exact .pure h
    · exact hcell.bind fun g' h' ↦ ih (fun c hc ↦ htexts c (List.mem_cons_of_mem _ hc)) h'

theorem filled_putSnapshotLine {line : StyledLine} {width : ℕ} (hu : u.Segments) (h : Filled g) :
    Yields (g.putSnapshotLine u x y width line) Filled := by
  rw [putSnapshotLine]
  split
  · exact .pure h
  simp only
  refine (filled_putLineCells hu (fun cell ↦ text_of_mem_cells hu) h).bind ?_
  rintro ⟨g', column⟩ h'
  simp only
  split
  · exact filled_putStrLinked hu h'
  · exact .pure h'

theorem filled_restyleRange {startCol endCol : ℕ} {restyle : CellStyle → CellStyle}
    (h : Filled g) : Yields (g.restyleRange x y startCol endCol restyle) Filled := by
  rw [restyleRange]
  split
  · exact .pure h
  simp only
  split
  · exact .pure h
  refine Yields.bind (P := fun _ ↦ True) (fun _ _ ↦ trivial) fun start _ ↦ ?_
  refine Yields.bind (P := fun _ ↦ True) (fun _ _ ↦ trivial) fun stop _ ↦ ?_
  exact filled_modifyRange h fun _ hc ↦ hc

/-! ## Lines and boxes -/

theorem filled_putCharStyled {ch : Char} (hu : u.Segments) (h : Filled g) :
    Yields (g.putCharStyled u x y ch style) Filled := filled_putStrLinked hu h

theorem filled_drawHlineStyled {width : ℕ} {ch : Char} (hu : u.Segments) (h : Filled g) :
    Yields (g.drawHlineStyled u x y width ch style) Filled :=
  Yields.foldlM (fun _ _ _ hg ↦ filled_putCharStyled hu hg) h

theorem filled_drawVlineStyled {height : ℕ} {ch : Char} (hu : u.Segments) (h : Filled g) :
    Yields (g.drawVlineStyled u x y height ch style) Filled :=
  Yields.foldlM (fun _ _ _ hg ↦ filled_putCharStyled hu hg) h

theorem filled_fillRect {rect : Rect} {fill : Char} (hu : u.Segments) (h : Filled g) :
    Yields (g.fillRect u rect fill style) Filled := by
  rw [fillRect]
  split
  · exact .pure h
  · refine Yields.foldlM (fun _ _ g' hg' ↦ ?_) h
    exact Yields.foldlM (fun _ _ _ hg ↦ filled_putCharStyled hu hg) hg'

theorem filled_drawBoxStyled {rect : Rect} {border : BorderStyle} (hu : u.Segments)
    (h : Filled g) : Yields (g.drawBoxStyled u rect border style) Filled := by
  rw [drawBoxStyled]
  split
  · exact .pure h
  refine (filled_putCharStyled hu h).bind fun _ h ↦ ?_
  refine (filled_putCharStyled hu h).bind fun _ h ↦ ?_
  refine (filled_putCharStyled hu h).bind fun _ h ↦ ?_
  refine (filled_putCharStyled hu h).bind fun _ h ↦ ?_
  simp only [pure_bind]
  split <;> split
  · refine (filled_drawHlineStyled hu h).bind fun _ h ↦ ?_
    refine (filled_drawHlineStyled hu h).bind fun _ h ↦ ?_
    exact (filled_drawVlineStyled hu h).bind fun _ ↦ filled_drawVlineStyled hu
  · refine (filled_drawHlineStyled hu h).bind fun _ h ↦ ?_
    exact (filled_drawHlineStyled hu h).bind fun _ h ↦ .pure h
  · exact (filled_drawVlineStyled hu h).bind fun _ ↦ filled_drawVlineStyled hu
  · exact .pure h

theorem filled_of_replicate {n : ℕ} {cell : GridCell} (hcells : g.cells = List.replicate n cell)
    (htext : cell.text ≠ []) : Filled g := by
  intro c hc hempty
  rw [hcells] at hc
  rw [List.eq_of_mem_replicate hc] at hempty
  exact absurd hempty htext

theorem filled_draw (hu : u.Segments) (h : Filled g) (op : DrawOp) :
    Yields (op.draw u g) Filled := by
  rcases op with _ | _ | _ | _ | _ | _ | _ | _ | _
  · exact .pure (filled_of_replicate rfl nofun)
  · exact filled_putStrLinked hu h
  · exact filled_putCharStyled hu h
  · exact filled_putSnapshotLine hu h
  · exact filled_restyleRange h
  · exact filled_drawHlineStyled hu h
  · exact filled_drawVlineStyled hu h
  · exact filled_fillRect hu h
  · exact filled_drawBoxStyled hu h

theorem filled_draws {width height : ℕ} (hu : u.Segments) (ops : List DrawOp) :
    Yields (draws u ops (new width height)) Filled :=
  Yields.foldlM (fun op _ _ h ↦ filled_draw hu h op) (filled_of_replicate rfl nofun)

end RenderGrid

end Embers.Client
