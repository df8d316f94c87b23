import Embers.Client.LeafStains
import Embers.Client.ProjectedFrames

/-!
# Panes that draw outside themselves

A pane whose title, search, selection or hints do not stay in it leaves a stain outside it on a grid
of linked cells. So a pane changes the cells of its rectangle only exactly when `LeafKept` holds.
-/

namespace Embers.Client

open Protocol RenderGrid

/-- However the grid looks, drawing the pane changes the cells of its rectangle only. -/
def LeafConfined (u : Unicode) (looks : SnapshotLine → LineLooks) (c : ClientState)
    (leaf : LeafFrame) (wide high : ℕ) : Prop :=
  ∀ g : RenderGrid, g.width = wide → g.height = high → Uncut leaf.area g →
    Gives (renderLeaf u looks c leaf g) (Drew leaf.area g)

/-! ## A grid of linked cells -/

def linkedCell : GridCell := ⟨[' '], .plain, false, some ⟨none, ""⟩, 1⟩

def linkedGrid (wide high : ℕ) : RenderGrid :=
  ⟨wide, high, List.replicate (wide * high) linkedCell, List.length_replicate⟩

theorem look_linkedGrid {wide high x y : ℕ} (hx : x < wide) (hy : y < high) :
    (linkedGrid wide high).look x y = linkedCell := by
  have hlt : (linkedGrid wide high).index x y < wide * high := by
    have hindex := index_lt (g := linkedGrid wide high) ⟨hx, hy⟩
    rw [(linkedGrid wide high).sized] at hindex
    exact hindex
  change ((List.replicate (wide * high) linkedCell)[(linkedGrid wide high).index x y]?).getD _ = _
  rw [List.getElem?_replicate, if_pos hlt]
  rfl

theorem uncut_linkedGrid {a : Area} {wide high : ℕ} (hnarrow : wide < 65535)
    (hright : a.right ≤ wide) (hbottom : a.bottom ≤ high) : Uncut a (linkedGrid wide high) := by
  have hedge : ∀ {x y}, y < high → (linkedGrid wide high).Edge y x := by
    intro x y hy
    rcases Nat.lt_or_ge x wide with hx | hx
    · refine .inl ?_
      rw [Leads, look_linkedGrid hx hy]
      rfl
    · exact .inr hx
  refine ⟨hnarrow, fun {y} hy ↦ ?_, hright, hbottom, fun {y} hrow ↦ hedge ?_,
    fun {y} hrow ↦ hedge ?_⟩
  · have hlook : ∀ x < wide, (linkedGrid wide high).look x y = linkedCell :=
      fun x hx ↦ look_linkedGrid hx hy
    refine .ones (fun x _ hx ↦ ?_) fun x _ hx ↦ ?_
    · rw [Leads, hlook x hx]
      rfl
    · rw [hlook x hx]
      rfl
  · exact Nat.lt_of_lt_of_le hrow.2 hbottom
  · exact Nat.lt_of_lt_of_le hrow.2 hbottom

/-! ## Stains -/

/-- Underlined, as what a search found. -/
def Underlined (style : CellStyle) : Prop := style.underline ≠ .none

/-- Underlined or inverted, as a selection. -/
def Inverted (style : CellStyle) : Prop := style.underline ≠ .none ∨ style.reverse = true

/-- Underlined or not inverted, as what is about to be selected. -/
def Upright (style : CellStyle) : Prop := style.underline ≠ .none ∨ style.reverse = false

theorem underline_composeOverlay {overlay base : CellStyle} (h : overlay.underline ≠ .none) :
    (composeOverlay overlay base).underline ≠ .none := by
  rw [composeOverlay]
  simp only [if_neg h]
  exact h

theorem underline_searchStyles {active : Prop} [Decidable active] :
    (if active then activeSearchStyle else searchStyle).underline ≠ .none := by
  split <;> decide

section

variable {p : CellStyle → Prop} {i j : ℕ} {u : Unicode} {looks : SnapshotLine → LineLooks}
  {c : ClientState} {leaf : LeafFrame} {wide high : ℕ}

theorem misses_of_not_mem (hin : ContentIn leaf) {row : ℕ} (hrow : row < leaf.contentRect.height)
    (hout : ¬ leaf.area.Mem i j) :
    Misses i j (leaf.contentY + row) leaf.contentX (leaf.contentX + leaf.contentRect.width) := by
  obtain ⟨hleft, hright, htop, hbottom⟩ := hin
  by_contra hhit
  rw [Misses] at hhit
  exact hout ⟨by omega, by omega, by omega, by omega⟩

theorem harmless_blankOps {op : DrawOp} (hop : op ∈ blankOps leaf) : op.Harmless p i j := by
  obtain ⟨row, -, rfl⟩ := List.mem_map.mp hop
  exact trivial

theorem harmless_titleOps {op : DrawOp} (hop : op ∈ titleOps u leaf) : op.Harmless p i j := by
  obtain ⟨rect, -, rfl⟩ := List.mem_map.mp hop
  exact trivial

theorem harmless_contentOps (hin : ContentIn leaf) (hout : ¬ leaf.area.Mem i j)
    {lines : List SnapshotLine} {op : DrawOp} (hop : op ∈ contentOps looks leaf.contentX
      leaf.contentY leaf.contentRect.width leaf.contentRect.height lines) : op.Harmless p i j := by
  rw [contentOps, List.mem_mapIdx] at hop
  obtain ⟨row, hrow, rfl⟩ := hop
  rw [List.length_take] at hrow
  exact misses_of_not_mem hin (by omega) hout

theorem harmless_searchOps (h : ∀ style, style.underline ≠ .none → p style) {x y : ℕ}
    {search : SearchState} {op : DrawOp} (hop : op ∈ searchOps c leaf x y search) :
    op.Harmless p i j := by
  obtain ⟨activeIndex, -, index, found, -, row, -, rfl⟩ := mem_searchOps.mp hop
  refine .inr fun style _ ↦ h _ (underline_composeOverlay ?_)
  exact underline_searchStyles

theorem harmless_selectionOps (h : ∀ style, p style → p (invert style)) {x y : ℕ}
    {selection : SelectionState} {op : DrawOp} (hop : op ∈ selectionOps u c leaf x y selection) :
    op.Harmless p i j := by
  obtain ⟨row, -, line, -, hop⟩ := mem_selectionOps.mp hop
  obtain ⟨range, -, rfl⟩ := mem_selectionOp.mp hop
  exact .inr h

theorem harmless_hintsOps (h : ∀ style, p style → p (fade style)) {x y : ℕ} {hints : HintsState}
    {op : DrawOp} (hop : op ∈ hintsOps c leaf x y hints) : op.Harmless p i j := by
  obtain ⟨hint, -, hop⟩ := List.mem_flatMap.mp hop
  obtain ⟨row, -, hop⟩ := List.mem_flatMap.mp hop
  rcases List.mem_cons.mp hop with rfl | hop
  · exact .inr h
  · obtain ⟨k, ch, -, -, rfl⟩ := mem_labelOps hop
    exact trivial

theorem harmless_scrollIndicatorOps {x y width topLine totalLines : ℕ} {op : DrawOp}
    (hop : op ∈ scrollIndicatorOps u x y width topLine totalLines) : op.Harmless p i j := by
  rw [scrollIndicatorOps] at hop
  split at hop
  · cases hop
  · obtain rfl := List.mem_singleton.mp hop
    exact trivial

/-- Every operation of a pane keeps a stain of links and underlines outside it. -/
theorem harmless_leafOps (hon : LeafOn leaf wide high) (hout : ¬ leaf.area.Mem i j) {op : DrawOp}
    (hop : op ∈ leafOps u looks c leaf) : op.Harmless Underlined i j := by
  rw [leafOps] at hop
  split at hop
  · cases hop
  rcases List.mem_append.mp hop with hop | hop
  · rcases List.mem_append.mp hop with hop | hop
    · exact harmless_blankOps hop
    · exact harmless_titleOps hop
  split at hop
  · cases hop
  rcases List.mem_append.mp hop with hop | hop
  · exact harmless_contentOps hon.contentIn hout hop
  obtain ⟨view, -, hop⟩ := List.mem_flatMap.mp hop
  rw [overlayOps] at hop
  split at hop
  · cases hop
  rcases List.mem_append.mp hop with hop | hop
  · rcases List.mem_append.mp hop with hop | hop
    · rcases List.mem_append.mp hop with hop | hop
      · obtain ⟨search, -, hop⟩ := List.mem_flatMap.mp hop
        exact harmless_searchOps (fun _ h ↦ h) hop
      · obtain ⟨selection, -, hop⟩ := List.mem_flatMap.mp hop
        exact harmless_selectionOps (fun _ h ↦ h) hop
    · obtain ⟨hints, -, hop⟩ := List.mem_flatMap.mp hop
      exact harmless_hintsOps (fun _ h ↦ h) hop
  · split at hop
    · cases hop
    · exact harmless_scrollIndicatorOps hop

/-! ## Leaks -/

theorem gives_draws_append {g : RenderGrid} {ops ops' : List DrawOp} {P Q : RenderGrid → Prop}
    (h : Gives (draws u ops g) P) (h' : ∀ g', P g' → Gives (draws u ops' g') Q) :
    Gives (draws u (ops ++ ops') g) Q := by
  rw [draws, List.foldlM_append]
  exact h.bind h'

/-- On the grid of linked cells a confined pane leaves no stain outside itself. -/
theorem LeafConfined.unstained (h : LeafConfined u looks c leaf wide high)
    (hon : LeafOn leaf wide high) (hi : i < wide) (hj : j < high) (hout : ¬ leaf.area.Mem i j)
    (hp : ¬ p .plain) :
    ¬ Gives (renderLeaf u looks c leaf (linkedGrid wide high)) fun g ↦ Stained p (g.look i j) := by
  rintro ⟨g, hg, hstained⟩
  obtain ⟨g', hg', hdrew⟩ := h (linkedGrid wide high) rfl rfl
    (uncut_linkedGrid hon.narrow hon.area_right_le hon.area_bottom_le)
  obtain rfl := Except.ok.inj (hg.symm.trans hg')
  rw [hdrew.same ⟨hi, hj⟩ hout, look_linkedGrid hi hj] at hstained
  rcases hstained with hlink | hstyle
  · exact nomatch hlink
  · exact hp hstyle

/-- A confined pane has no operation that stains a cell outside it. -/
theorem LeafConfined.no_leak (h : LeafConfined u looks c leaf wide high) (hu : u.Ascii)
    (hon : LeafOn leaf wide high) (hi : i < wide) (hj : j < high) (hout : ¬ leaf.area.Mem i j)
    {op : DrawOp} (hop : op ∈ leafOps u looks c leaf) :
    ¬ ∀ g : RenderGrid, g.width = wide → g.height = high → Gives (op.draw u g) fun g' ↦
      g'.width = g.width ∧ g'.height = g.height ∧ Stained Underlined (g'.look i j) := by
  intro hleak
  refine h.unstained (p := Underlined) hon hi hj hout (fun hplain ↦ hplain rfl) ?_
  have hnarrow := hon.narrow
  obtain ⟨before, after, hops⟩ := List.append_of_mem hop
  have hharmless : ∀ op' ∈ before ++ op :: after, op'.Harmless Underlined i j := by
    rw [← hops]
    exact fun op' hop' ↦ harmless_leafOps hon hout hop'
  rw [renderLeaf, hops]
  have hbefore : Gives (draws u before (linkedGrid wide high))
      (Stains Underlined i j (linkedGrid wide high)) :=
    stains_draws hu hnarrow hi hj fun op' hop' ↦ hharmless op' (List.mem_append_left _ hop')
  refine gives_draws_append hbefore fun g₁ hg₁ ↦ ?_
  have hw₁ : g₁.width = wide := hg₁.width_eq
  have hh₁ : g₁.height = high := hg₁.height_eq
  rw [draws, List.foldlM_cons]
  refine (hleak g₁ hw₁ hh₁).bind fun g₂ ⟨hw₂, hh₂, hstained⟩ ↦ ?_
  have hafter : Gives (draws u after g₂) (Stains Underlined i j g₂) := by
    refine stains_draws hu ?_ ?_ ?_ fun op' hop' ↦
      hharmless op' (List.mem_append_right _ (List.mem_cons_of_mem _ hop'))
    all_goals omega
  exact hafter.mono fun g₃ hg₃ ↦ hg₃.kept hstained

theorem title_mem_leafOps (hwidth : leaf.rect.width ≠ 0) (hheight : leaf.rect.height ≠ 0)
    {op : DrawOp} (hop : op ∈ titleOps u leaf) : op ∈ leafOps u looks c leaf := by
  rw [leafOps, if_neg (not_or.mpr ⟨hwidth, hheight⟩)]
  exact List.mem_append_left _ (List.mem_append_right _ hop)

/-- The pane shows the history through a view, with overlays. -/
structure Overlaid (c : ClientState) (leaf : LeafFrame) (view : BufferViewState) : Prop where
  width : leaf.rect.width ≠ 0
  height : leaf.rect.height ≠ 0
  content : leaf.contentRect.height ≠ 0
  shown : view ∈ c.viewState[leaf.nodeId]?
  history : view.alternateScreen = false

/-- What is drawn before the selection. -/
def opsBefore (u : Unicode) (looks : SnapshotLine → LineLooks) (c : ClientState) (leaf : LeafFrame)
    (view : BufferViewState) : List DrawOp :=
  blankOps leaf ++ titleOps u leaf ++
    contentOps looks leaf.contentX leaf.contentY leaf.contentRect.width leaf.contentRect.height
      (c.displayedLines leaf.content) ++
    view.searchState.toList.flatMap (searchOps c leaf leaf.contentX leaf.contentY)

/-- What is drawn after the selection. -/
def opsAfter (u : Unicode) (c : ClientState) (leaf : LeafFrame) (view : BufferViewState) :
    List DrawOp :=
  view.hintsState.toList.flatMap (hintsOps c leaf leaf.contentX leaf.contentY) ++
    if view.followOutput then []
    else
      scrollIndicatorOps u leaf.contentX
        ((leaf.titleRect.map fun title ↦ clampI32ToU16 title.y).getD leaf.contentY)
        leaf.contentRect.width view.scrollTopLine view.totalLineCount

theorem leafOps_overlaid {view : BufferViewState} (h : Overlaid c leaf view) :
    leafOps u looks c leaf = opsBefore u looks c leaf view ++
      (view.selectionState.toList.flatMap (selectionOps u c leaf leaf.contentX leaf.contentY) ++
        opsAfter u c leaf view) := by
  obtain ⟨hwidth, hheight, hcontent, hview, hhistory⟩ := h
  have hsome : c.viewState[leaf.nodeId]? = some view := hview
  rw [leafOps, if_neg (not_or.mpr ⟨hwidth, hheight⟩), hsome]
  simp only [if_neg hcontent, Option.toList_some, List.flatMap_cons, List.flatMap_nil,
    List.append_nil]
  rw [overlayOps, if_neg (by rw [hhistory]; exact Bool.false_ne_true), opsBefore, opsAfter]
  simp only [List.append_assoc]
  rfl

theorem harmless_opsBefore (hin : ContentIn leaf) (hout : ¬ leaf.area.Mem i j)
    (h : ∀ style, style.underline ≠ .none → p style) {view : BufferViewState} {op : DrawOp}
    (hop : op ∈ opsBefore u looks c leaf view) : op.Harmless p i j := by
  rcases List.mem_append.mp hop with hop | hop
  · rcases List.mem_append.mp hop with hop | hop
    · rcases List.mem_append.mp hop with hop | hop
      · exact harmless_blankOps hop
      · exact harmless_titleOps hop
    · exact harmless_contentOps hin hout hop
  · obtain ⟨search, -, hop⟩ := List.mem_flatMap.mp hop
    exact harmless_searchOps h hop

theorem harmless_opsAfter (h : ∀ style, p style → p (fade style)) {view : BufferViewState}
    {op : DrawOp} (hop : op ∈ opsAfter u c leaf view) : op.Harmless p i j := by
  rcases List.mem_append.mp hop with hop | hop
  · obtain ⟨hints, -, hop⟩ := List.mem_flatMap.mp hop
    exact harmless_hintsOps h hop
  · split at hop
    · exact nomatch hop
    · exact harmless_scrollIndicatorOps hop

/-- The cell right of a row of the pane is outside it. -/
theorem right_not_mem : ¬ leaf.area.Mem leaf.area.right j := fun h ↦ Nat.lt_irrefl _ h.2.1

theorem LeafConfined.title (h : LeafConfined u looks c leaf wide high) (hu : u.Ascii)
    (hon : LeafOn leaf wide high) (hwidth : leaf.rect.width ≠ 0) (hheight : leaf.rect.height ≠ 0)
    {rect : Rect} (hrect : rect ∈ leaf.titleRect) :
    ¬ Spills u leaf.area.right wide leaf.area.left (leafTitle u leaf rect.width) := by
  intro hspills
  have hin := hon.titleIn hheight hrect
  have hright : leaf.area.right < wide := by
    obtain ⟨n, hlt, hle⟩ := hspills
    omega
  have hrow : clampI32ToU16 rect.y < high := Nat.lt_of_lt_of_le hin.row.2 hon.area_bottom_le
  refine h.no_leak hu hon hright hrow right_not_mem
    (title_mem_leafOps hwidth hheight (List.mem_map.mpr ⟨rect, Option.mem_toList.mpr hrect, rfl⟩)) ?_
  intro g hw hh
  rw [hin.left]
  exact stained_putStr hon.narrow hw (by omega) (Nat.le_add_right _ _) hspills

/-- A cell of a row below the pane, in the columns of its content. -/
structure CellBelow (leaf : LeafFrame) (wide high row column : ℕ) : Prop where
  row_eq : add16 leaf.contentY row = leaf.contentY + row
  column_lt : leaf.contentX + column < wide
  row_lt : leaf.contentY + row < high
  outside : ¬ leaf.area.Mem (leaf.contentX + column) (leaf.contentY + row)

theorem BelowPane.cellBelow (hon : LeafOn leaf wide high) {row column : ℕ}
    (h : BelowPane leaf high row) (hcolumn : column < leaf.contentRect.width) :
    CellBelow leaf wide high row column := by
  have hright := hon.contentIn.right
  have hwide := hon.area_right_le
  have hshort := hon.short
  obtain ⟨hbottom, hlow⟩ := h
  refine ⟨?_, by omega, hlow, ?_⟩
  · rw [add16]
    omega
  · rintro ⟨-, -, -, hin⟩
    omega

theorem LeafConfined.search (h : LeafConfined u looks c leaf wide high) (hu : u.Ascii)
    (hon : LeafOn leaf wide high) {view : BufferViewState} (hover : Overlaid c leaf view)
    {search : SearchState} (hsearch : search ∈ view.searchState)
    (hactive : search.activeMatchIndex ≠ none) {found : SearchMatch} (hfound : found ∈ search.found)
    {row : ℕ} (hrow : row ∈ c.searchRow leaf.content found.line)
    (hbelow : BelowPane leaf high row) :
    min found.endColumn.toNat leaf.contentRect.width ≤
      min found.startColumn.toNat leaf.contentRect.width := by
  by_contra hlt
  obtain ⟨activeIndex, hactive⟩ := Option.ne_none_iff_exists'.mp hactive
  obtain ⟨index, hindex⟩ := List.mem_iff_getElem?.mp hfound
  obtain ⟨op, hop, hopeq⟩ : ∃ op ∈ searchOps c leaf leaf.contentX leaf.contentY search, op = _ :=
    ⟨_, mem_searchOps.mpr ⟨activeIndex, hactive, index, found, hindex, row, hrow, rfl⟩, rfl⟩
  have hmem : op ∈ leafOps u looks c leaf := by
    rw [leafOps_overlaid hover]
    refine List.mem_append_left _ (List.mem_append_right _ ?_)
    exact List.mem_flatMap.mpr ⟨search, Option.mem_toList.mpr hsearch, hop⟩
  have hcell : CellBelow leaf wide high row (min found.startColumn.toNat leaf.contentRect.width) :=
    hbelow.cellBelow hon (by omega)
  obtain ⟨hadd, hcolumn, hlow, hout⟩ := hcell
  refine h.no_leak hu hon hcolumn hlow hout hmem fun g hw hh ↦ ?_
  have hright := hon.contentIn.right
  have hwide := hon.area_right_le
  have hnarrow := hon.narrow
  rw [hopeq, hadd]
  refine stained_restyleRange (p := fun _ ↦ True) (by omega) (by omega) (by omega) (by omega)
    (fun style _ ↦ underline_composeOverlay underline_searchStyles) (.inr trivial)

theorem putChar_mem_labelOps {x y width startCol typedLen : ℕ} {ch : Char} :
    ∀ {label : List Char} {offset k : ℕ}, ch ∈ label[k]? → startCol + (offset + k) < width →
    width ≤ 65535 → DrawOp.putChar (add16 x (startCol + (offset + k))) y ch
      (hintLabelStyle (offset + k < typedLen)) ∈
        labelOps x y width startCol typedLen offset label := by
  intro label
  induction label with
  | nil => exact fun h ↦ (nomatch h)
  | cons ch' label ih =>
    intro offset k hch hlt hwidth
    have hadd : add16 startCol offset = startCol + offset := by
      rw [add16]
      omega
    rw [labelOps, hadd, if_neg (by omega)]
    rcases k with _ | k
    · obtain rfl : ch' = ch := Option.some.inj hch
      exact List.mem_cons_self
    · refine List.mem_cons_of_mem _ ?_
      have hshift : offset + (k + 1) = offset + 1 + k := by omega
      rw [hshift] at hlt ⊢
      exact ih hch hlt hwidth

theorem LeafConfined.hints (h : LeafConfined u looks c leaf wide high) (hu : u.Ascii)
    (hon : LeafOn leaf wide high) {view : BufferViewState} (hover : Overlaid c leaf view)
    {hints : HintsState} (hhints : hints ∈ view.hintsState) {hint : HintMatch}
    (hhint : hint ∈ hints.found) (htyped : hints.typed.toList.isPrefixOf hint.label.toList)
    (hrow : c.hintRow leaf.content hint.line ≠ none) {k : ℕ}
    (hk : hint.startCol.toNat + k < leaf.contentRect.width) {ch : Char}
    (hch : ch ∈ hint.label.toList[k]?) :
    ¬ Spills u leaf.area.right wide (leaf.contentX + hint.startCol.toNat + k) [ch] := by
  intro hspills
  obtain ⟨row, hrow⟩ := Option.ne_none_iff_exists'.mp hrow
  have hlt := lt_of_hintRow hrow
  have hin := hon.contentIn
  have hwide := hon.area_right_le
  have hhigh := hon.area_bottom_le
  have hnarrow := hon.narrow
  have hshort := hon.short
  obtain ⟨hleft, hright, htop, hbottom⟩ := hin
  have hrowEq : add16 leaf.contentY row = leaf.contentY + row := by
    rw [add16]
    omega
  obtain ⟨style, hlabel⟩ : ∃ style, DrawOp.putChar (leaf.contentX + hint.startCol.toNat + k)
      (leaf.contentY + row) ch style ∈ labelOps leaf.contentX (add16 leaf.contentY row)
        leaf.contentRect.width hint.startCol.toNat hints.typed.toList.length 0
        hint.label.toList := by
    have hadd : add16 leaf.contentX (hint.startCol.toNat + (0 + k)) =
        leaf.contentX + hint.startCol.toNat + k := by
      rw [add16]
      omega
    refine ⟨hintLabelStyle (0 + k < hints.typed.toList.length), ?_⟩
    rw [hrowEq, ← hadd]
    exact putChar_mem_labelOps hch (by omega) (by omega)
  have hmem : DrawOp.putChar (leaf.contentX + hint.startCol.toNat + k) (leaf.contentY + row) ch
      style ∈ leafOps u looks c leaf := by
    rw [leafOps_overlaid hover]
    refine List.mem_append_right _ (List.mem_append_right _ (List.mem_append_left _ ?_))
    refine List.mem_flatMap.mpr ⟨hints, Option.mem_toList.mpr hhints, ?_⟩
    refine List.mem_flatMap.mpr ⟨hint, List.mem_filter.mpr ⟨hhint, htyped⟩, ?_⟩
    exact List.mem_flatMap.mpr ⟨row, Option.mem_toList.mpr hrow, List.mem_cons_of_mem _ hlabel⟩
  have hin' : leaf.area.right < wide := by
    obtain ⟨n, hlt, hle⟩ := hspills
    omega
  refine h.no_leak hu hon hin' (j := leaf.contentY + row) (by omega) right_not_mem hmem
    fun g hw hh ↦ ?_
  exact stained_putStr hnarrow hw (by omega) (by omega) hspills

theorem harmless_selectionOp {x k row : ℕ} {selection : SelectionState} {line : SnapshotLine}
    (hrow : leaf.contentY + row < 65535) (hk : k ≠ row) {op : DrawOp}
    (hop : op ∈ selectionOp u c leaf x leaf.contentY selection k line) :
    op.Harmless p i (leaf.contentY + row) := by
  obtain ⟨range, -, rfl⟩ := mem_selectionOp.mp hop
  refine .inl ?_
  rw [add16]
  omega

/-- The selection of a row is drawn once, between what is drawn for the rows before and after it. -/
theorem selectionOps_split (u : Unicode) (x : ℕ) (selection : SelectionState) (i : ℕ) {row : ℕ}
    {line : SnapshotLine} (hline : line ∈ (c.displayedLines leaf.content)[row]?)
    (hrow : leaf.contentY + row < 65535) :
    ∃ before after, selectionOps u c leaf x leaf.contentY selection =
        before ++ (selectionOp u c leaf x leaf.contentY selection row line ++ after) ∧
      ∀ p : CellStyle → Prop, ∀ op ∈ before ++ after, op.Harmless p i (leaf.contentY + row) := by
  obtain ⟨hlt, hget⟩ := List.getElem?_eq_some_iff.mp hline
  have hlt' : row < ((c.displayedLines leaf.content).take (2 ^ 16)).length := by
    rw [List.length_take]
    omega
  have hget' : ((c.displayedLines leaf.content).take (2 ^ 16))[row] = line := by
    rw [List.getElem_take]
    exact hget
  rw [selectionOps]
  generalize (c.displayedLines leaf.content).take (2 ^ 16) = lines at hlt' hget' ⊢
  have hsplit : lines = lines.take row ++ line :: lines.drop (row + 1) := by
    rw [← hget', ← List.drop_eq_getElem_cons hlt', List.take_append_drop]
  have hlength : (lines.take row).length = row := by
    rw [List.length_take]
    omega
  refine ⟨((lines.take row).mapIdx (selectionOp u c leaf x leaf.contentY selection)).flatten,
    ((lines.drop (row + 1)).mapIdx fun k ↦
      selectionOp u c leaf x leaf.contentY selection (k + 1 + row)).flatten, ?_, ?_⟩
  · conv_lhs => rw [hsplit]
    rw [List.mapIdx_append, List.mapIdx_cons, List.flatten_append, List.flatten_cons, hlength,
      Nat.zero_add]
  · intro p op hop
    rcases List.mem_append.mp hop with hop | hop
    · obtain ⟨ops, hops, hop⟩ := List.mem_flatten.mp hop
      obtain ⟨k, hk, rfl⟩ := List.mem_mapIdx.mp hops
      exact harmless_selectionOp hrow (by omega) hop
    · obtain ⟨ops, hops, hop⟩ := List.mem_flatten.mp hop
      obtain ⟨k, hk, rfl⟩ := List.mem_mapIdx.mp hops
      exact harmless_selectionOp hrow (by omega) hop

theorem inverted_invert {style : CellStyle} (h : Upright style) : Inverted (invert style) := by
  refine h.imp_right fun hreverse ↦ ?_
  rw [invert]
  simp only [hreverse]
  rfl

theorem LeafConfined.selection (h : LeafConfined u looks c leaf wide high) (hu : u.Ascii)
    (hon : LeafOn leaf wide high) {view : BufferViewState} (hover : Overlaid c leaf view)
    {selection : SelectionState} (hselection : selection ∈ view.selectionState) {row : ℕ}
    (hbelow : BelowPane leaf high row) {line : SnapshotLine}
    (hline : line ∈ (c.displayedLines leaf.content)[row]?) {range : ℕ × ℕ}
    (hrange : range ∈ selectionRangeForLine u selection (c.selectionLine leaf.content row)
      leaf.contentRect.width line.text.toList) :
    min range.2 leaf.contentRect.width ≤ min range.1 leaf.contentRect.width := by
  by_contra hlt
  have hnarrow := hon.narrow
  have hshort := hon.short
  have hright := hon.contentIn.right
  have hwide := hon.area_right_le
  have hcell : CellBelow leaf wide high row (min range.1 leaf.contentRect.width) :=
    hbelow.cellBelow hon (by omega)
  obtain ⟨hadd, hcolumn, hlow, hout⟩ := hcell
  refine h.unstained (p := Inverted) hon hcolumn hlow hout ?_ ?_
  · rintro (hunderline | hreverse)
    · exact hunderline rfl
    · cases hreverse
  have hsome : view.selectionState = some selection := hselection
  obtain ⟨before, after, hops, hharmless⟩ := selectionOps_split u leaf.contentX selection
    (leaf.contentX + min range.1 leaf.contentRect.width) hline (by omega)
  have hop : selectionOp u c leaf leaf.contentX leaf.contentY selection row line =
      [.restyleRange leaf.contentX (leaf.contentY + row) (min range.1 leaf.contentRect.width)
        (min range.2 leaf.contentRect.width) invert] := by
    have hrange' : selectionRangeForLine u selection (c.selectionLine leaf.content row)
      leaf.contentRect.width line.text.toList = some range := hrange
    rw [selectionOp, hrange', hadd]
    rfl
  rw [renderLeaf, leafOps_overlaid hover, hsome]
  simp only [Option.toList_some, List.flatMap_cons, List.flatMap_nil, List.append_nil]
  rw [hops, hop, List.append_assoc, ← List.append_assoc]
  have hfirst : Gives (draws u (opsBefore u looks c leaf view ++ before) (linkedGrid wide high))
      (Stains Upright (leaf.contentX + min range.1 leaf.contentRect.width) (leaf.contentY + row)
        (linkedGrid wide high)) := by
    refine stains_draws hu hnarrow hcolumn hlow fun op hop ↦ ?_
    rcases List.mem_append.mp hop with hop | hop
    · exact harmless_opsBefore hon.contentIn hout (fun _ ↦ .inl) hop
    · exact hharmless Upright op (List.mem_append_left _ hop)
  refine gives_draws_append hfirst fun g₁ hg₁ ↦ ?_
  have hw₁ : g₁.width = wide := hg₁.width_eq
  have hh₁ : g₁.height = high := hg₁.height_eq
  have hupright : Stained Upright (g₁.look (leaf.contentX + min range.1 leaf.contentRect.width)
      (leaf.contentY + row)) := by
    refine hg₁.kept ?_
    rw [look_linkedGrid hcolumn hlow]
    exact .inr (.inr rfl)
  rw [draws, List.append_assoc, List.singleton_append, List.foldlM_cons]
  refine (stained_restyleRange (by omega) (by omega) (by omega) (by omega)
    (fun _ ↦ inverted_invert) hupright).bind fun g₂ hg₂ ↦ ?_
  obtain ⟨hw₂, hh₂, hinverted⟩ := hg₂
  have hrest : Gives (draws u (after ++ opsAfter u c leaf view) g₂) (Stains Inverted
      (leaf.contentX + min range.1 leaf.contentRect.width) (leaf.contentY + row) g₂) := by
    refine stains_draws hu (by omega) (by omega) (by omega) fun op hop ↦ ?_
    rcases List.mem_append.mp hop with hop | hop
    · exact hharmless Inverted op (List.mem_append_right _ hop)
    · exact harmless_opsAfter (fun _ h ↦ h) hop
  exact hrest.mono fun g₃ hg₃ ↦ hg₃.kept hinverted

end

/-- Every pane of a projection is one, on a grid of the size of the screen that it is for. -/
theorem leafOn_of_projectNode {c : ClientState} {focused : Option NodeId} {layout : LayoutOptions}
    {fuel : ℕ} {id : NodeId} {viewport : Size} {isRoot : Bool} {p : Projection} {leaf : LeafFrame}
    (hnarrow : viewport.width.toNat < 65535)
    (h : projectNode c focused layout fuel id (viewportRect viewport) isRoot = .ok p)
    (hleaf : leaf ∈ p.leaves) : LeafOn leaf viewport.width.toNat viewport.height.toNat := by
  obtain ⟨⟨hl, hr, ht, hb⟩, hrows⟩ :=
    (framesIn_projectNode (onScreen_viewportRect viewport) h).leaves leaf hleaf
  simp only [viewportRect] at hl ht hr hb
  have hshort := viewport.height.toNat_lt
  exact ⟨hnarrow, by omega, hl, by omega, ht, by omega, hrows⟩

/-- A pane on a grid narrower than 65535 columns changes the cells of its rectangle only, exactly
when its title and the labels of its hints end in it, and its search and its selection have nothing
to show on the rows below it. -/
theorem leafConfined_iff {u : Unicode} (hu : u.Ascii) (looks : SnapshotLine → LineLooks)
    (c : ClientState) {leaf : LeafFrame} {wide high : ℕ} (hon : LeafOn leaf wide high) :
    LeafConfined u looks c leaf wide high ↔ LeafKept u c leaf wide high := by
  constructor
  · intro h
    refine ⟨fun hwidth hheight rect hrect ↦ h.title hu hon hwidth hheight hrect, ?_⟩
    intro hcontent view hview halternate
    have hin := hon.contentIn
    rcases eq_or_ne leaf.contentRect.width 0 with hzero | hne
    · -- There are no columns.
      refine ⟨?_, ?_, ?_⟩
      · intro search _ _ found _ row _ _
        rw [hzero]
        omega
      · intro selection _ row _ line _ range _
        rw [hzero]
        omega
      · intro hints _ hint _ _ _ k hk
        omega
    have hwidth : leaf.rect.width ≠ 0 := by
      have hright := hin.right
      have hleft := hin.left
      have harea : leaf.area.right = leaf.area.left + leaf.rect.width := rfl
      omega
    have hheight : leaf.rect.height ≠ 0 := by
      have htop := hin.top
      have hbottom := hin.bottom
      have harea : leaf.area.bottom = leaf.area.top + leaf.rect.height := rfl
      omega
    have hover : Overlaid c leaf view := ⟨hwidth, hheight, hcontent, hview, halternate⟩
    refine ⟨?_, ?_, ?_⟩
    · intro search hsearch hactive found hfound row hrow hbelow
      exact h.search hu hon hover hsearch hactive hfound hrow hbelow
    · intro selection hselection row hbelow line hline range hrange
      exact h.selection hu hon hover hselection hbelow hline hrange
    · intro hints hhints hint hhint htyped hrow k hk ch hch
      exact h.hints hu hon hover hhints hhint htyped hrow hk hch
  · intro h g hw hh hg
    exact renderLeaf_drew hu hon h hw hh hg

/-! ### A selection below its pane -/

/-- A pane of one row and two columns, in the first row. -/
def smallLeaf : LeafFrame := ⟨1, 1, ⟨0, 0, 2, 1⟩, ⟨0, 0, 2, 1⟩, none, "", .idle, true⟩

theorem smallLeaf_on : LeafOn smallLeaf 2 2 :=
  ⟨by decide, by decide, by decide, by decide, by decide, by decide, .off, rfl⟩

/-- Its view, scrolled back, with two lines at hand and one of them selected. -/
def selectingView (line : ℕ) : BufferViewState :=
  ⟨1, false, 0, 1, 2, false, [⟨"a", 0⟩, ⟨"b", 1⟩], none, some ⟨.line, ⟨line, 0⟩, ⟨line, 0⟩⟩, none,
    none⟩

def selectingClient (line : ℕ) : ClientState :=
  { ClientState.empty with
    viewState := (∅ : Table NodeId BufferViewState).insert 1 (selectingView line) }

/-- Lines without styles. -/
def plainLooks : SnapshotLine → LineLooks := fun _ ↦ ⟨[], [], []⟩

/-- The second line is selected, and the row below the pane is inverted. -/
theorem selection_below_pane : LeafOn smallLeaf 2 2 ∧
    ¬ LeafConfined plainText plainLooks (selectingClient 1) smallLeaf 2 2 := by
  refine ⟨smallLeaf_on, fun h ↦ ?_⟩
  have hover : Overlaid (selectingClient 1) smallLeaf (selectingView 1) :=
    ⟨by decide, by decide, by decide, rfl, rfl⟩
  have hselection : ⟨.line, ⟨1, 0⟩, ⟨1, 0⟩⟩ ∈ (selectingView 1).selectionState := rfl
  have hbelow : BelowPane smallLeaf 2 1 := ⟨by decide, by decide⟩
  have hline : ⟨"b", 1⟩ ∈ ((selectingClient 1).displayedLines smallLeaf.content)[1]? := rfl
  have hle := h.selection ascii_plainText smallLeaf_on hover hselection hbelow hline rfl
  exact absurd hle (by decide)

theorem selectingClient_kept : LeafKept plainText (selectingClient 0) smallLeaf 2 2 := by
  refine ⟨fun _ _ rect hrect ↦ (nomatch hrect), fun _ view hview _ ↦ ?_⟩
  obtain rfl : selectingView 0 = view := Option.some.inj hview
  refine ⟨fun _ hsearch ↦ (nomatch hsearch), ?_, fun _ hhints ↦ (nomatch hhints)⟩
  intro selection hselection row hbelow line _ range hrange
  obtain rfl : ⟨.line, ⟨0, 0⟩, ⟨0, 0⟩⟩ = selection := Option.some.inj hselection
  have hrow : row = 1 := by
    obtain ⟨hbottom, hhigh⟩ := hbelow
    change 1 ≤ 0 + row at hbottom
    change 0 + row < 2 at hhigh
    omega
  rw [hrow] at hrange
  exact nomatch hrange

theorem stackedClient_kept {leaf : LeafFrame} {wide high : ℕ} (h : leaf.titleRect = none) :
    LeafKept plainText stackedClient leaf wide high := by
  refine ⟨fun _ _ rect hrect ↦ ?_, fun _ view hview _ ↦ nomatch hview⟩
  rw [h] at hrect
  exact nomatch hrect

/-- The first line is selected, and only the pane's own row is changed. Three panes below each other
change their own cells only. -/
theorem selection_in_pane :
    (LeafOn smallLeaf 2 2 ∧ LeafConfined plainText plainLooks (selectingClient 0) smallLeaf 2 2) ∧
      ∃ p, projectNode stackedClient none plainLayout 3 1 (viewportRect ⟨80, 24⟩) true = .ok p ∧
        p.leaves.length = 3 ∧
        ∀ leaf ∈ p.leaves, LeafConfined plainText plainLooks stackedClient leaf 80 24 := by
  constructor
  · exact ⟨smallLeaf_on, (leafConfined_iff ascii_plainText plainLooks (selectingClient 0)
      smallLeaf_on).mpr selectingClient_kept⟩
  · obtain ⟨p, hp⟩ : ∃ p,
        projectNode stackedClient none plainLayout 3 1 (viewportRect ⟨80, 24⟩) true = .ok p :=
      ⟨_, rfl⟩
    have htitles : p.leaves.length = 3 ∧ ∀ leaf ∈ p.leaves, leaf.titleRect = none := by
      obtain rfl := Except.ok.inj hp
      decide
    refine ⟨p, hp, htitles.1, fun leaf hleaf ↦ ?_⟩
    have hon : LeafOn leaf 80 24 := leafOn_of_projectNode (by decide) hp hleaf
    exact (leafConfined_iff ascii_plainText plainLooks stackedClient hon).mpr
      (stackedClient_kept (htitles.2 leaf hleaf))

end Embers.Client
