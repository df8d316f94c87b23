import Embers.Client.Leaves
import Embers.Client.Strips

/-!
# Panes that draw inside themselves

Each operation that draws a pane stays in the pane's area, with four exceptions: a title and the
label of a hint may be drawn on more columns than they measure, and the overlays of a search and of
a selection go on below the pane where the view holds more lines than the pane has rows. `LeafKept`
says that none of the four happens.
-/

namespace Embers.Client

open Protocol RenderGrid

/-! ## Operations that stay in an area -/

/-- Some leading graphemes of a text that is drawn from column `x` end right of a column and still
in the grid. -/
def Spills (u : Unicode) (right wide x : ℕ) (text : List Char) : Prop :=
  ∃ n, right < x + (((u.graphemes text).take n).map u.graphemeWidth).sum ∧
    x + (((u.graphemes text).take n).map u.graphemeWidth).sum ≤ wide

/-- On a grid of a given size, the operation changes cells of the area only. -/
def DrawOp.Stays (u : Unicode) (a : Area) (wide high : ℕ) (op : DrawOp) : Prop :=
  ∀ g : RenderGrid, g.width = wide → g.height = high → Uncut a g → Gives (op.draw u g) (Drew a g)

section

variable {u : Unicode} {a : Area} {wide high : ℕ} {g : RenderGrid}

theorem gives_draws_of_stays {ops : List DrawOp} (h : ∀ op ∈ ops, op.Stays u a wide high)
    (hwide : g.width = wide) (hhigh : g.height = high) (hg : Uncut a g) :
    Gives (draws u ops g) (Drew a g) := by
  refine Drew.foldlM (fun op hop g' hg' ↦ ?_) hg
  exact h op hop g' (hg'.width_eq.trans hwide) (hg'.height_eq.trans hhigh) hg'.uncut

theorem gives_putGraphemes_of_not_spills {y : ℕ} {style : CellStyle} {link : Option Hyperlink}
    (hrow : a.HasRow y) : ∀ {texts : List (List Char)} {x : ℕ} {g : RenderGrid}, Uncut a g →
    a.left ≤ x → (∀ n, x + ((texts.take n).map u.graphemeWidth).sum ≤ g.width →
      x + ((texts.take n).map u.graphemeWidth).sum ≤ a.right) →
    Gives (putGraphemes u y style link texts x g) (Drew a g) := by
  intro texts
  induction texts with
  | nil => exact fun h _ _ ↦ .pure (.refl h)
  | cons text texts ih =>
    intro x g h hleft hin
    rw [putGraphemes]
    split
    · exact .pure (.refl h)
    rw [if_neg (Nat.ne_of_gt (u.graphemeWidth_pos text))]
    split
    · exact .pure (.refl h)
    · next hx hfit =>
      have hsum : add16 x (u.graphemeWidth text) = x + u.graphemeWidth text :=
        add16_of_le h.narrow (by omega)
      rw [hsum] at hfit ⊢
      have hfirst : x + u.graphemeWidth text ≤ a.right := by
        have hone := hin 1
        simp only [List.take_succ_cons, List.take_zero, List.map_cons, List.map_nil, List.sum_cons,
          List.sum_nil, Nat.add_zero] at hone
        exact hone (by omega)
      refine (gives_place_drew h (u.graphemeWidth_pos text) hrow hleft (by omega)
        (.inr hfirst)).bind fun g' hdrew ↦ ?_
      refine (ih hdrew.uncut (by omega) fun n hle ↦ ?_).mono fun g'' hdrew' ↦ hdrew.trans hdrew'
      have hnext := hin (n + 1)
      rw [List.take_succ_cons, List.map_cons, List.sum_cons, ← Nat.add_assoc] at hnext
      rw [hdrew.width_eq] at hle
      exact hnext hle

theorem stays_putStr {x y : ℕ} {text : List Char} {style : CellStyle} (hrow : a.HasRow y)
    (hleft : a.left ≤ x) (hspills : ¬ Spills u a.right wide x text) :
    (DrawOp.putStr x y text style).Stays u a wide high := by
  intro g hwide _ hg
  change Gives (g.putStrLinked u x y text style none) (Drew a g)
  rw [putStrLinked]
  split
  · exact .pure (.refl hg)
  · refine gives_putGraphemes_of_not_spills hrow hg hleft fun n hle ↦ ?_
    by_contra hlt
    exact hspills ⟨n, by omega, by omega⟩

/-- A text that is drawn on the columns up to the end of the area does not go past it. -/
theorem not_spills_of_le {x : ℕ} {text : List Char} (h : x + u.drawnWidth text ≤ a.right) :
    ¬ Spills u a.right wide x text := by
  rintro ⟨n, hlt, -⟩
  have hle : (((u.graphemes text).take n).map u.graphemeWidth).sum ≤ u.drawnWidth text := by
    have hsum := List.sum_take_add_sum_drop ((u.graphemes text).map u.graphemeWidth) n
    rw [Unicode.drawnWidth, List.map_take]
    omega
  omega

theorem stays_putChar {x y : ℕ} {ch : Char} {style : CellStyle} (hrow : a.HasRow y)
    (hleft : a.left ≤ x) (hspills : ¬ Spills u a.right wide x [ch]) :
    (DrawOp.putChar x y ch style).Stays u a wide high :=
  stays_putStr hrow hleft hspills

theorem stays_putSnapshotLine {x y width : ℕ} {line : StyledLine} (hu : u.Ascii)
    (hrow : a.HasRow y) (hleft : a.left ≤ x) (hright : x + width ≤ a.right) :
    (DrawOp.putSnapshotLine x y width line).Stays u a wide high := by
  intro g _ _ hg
  exact gives_putSnapshotLine hg hrow hleft (.inr hu) (.inr hright)

/-- A change of styles in the area, below the grid or of no columns. -/
theorem stays_restyleRange {x y startCol endCol : ℕ} {f : CellStyle → CellStyle}
    (hleft : a.left ≤ x) (hright : x + endCol ≤ a.right)
    (hrow : a.HasRow y ∨ high ≤ y ∨ endCol ≤ startCol) :
    (DrawOp.restyleRange x y startCol endCol f).Stays u a wide high := by
  intro g _ hhigh hg
  rcases hrow with hrow | hrow | hrow
  · exact gives_restyleRange hg (.inl hrow) hleft (.inr hright)
  · exact gives_restyleRange hg (.inr (by omega)) hleft (.inr hright)
  · change Gives (g.restyleRange x y startCol endCol f) (Drew a g)
    rw [restyleRange, if_pos (.inr hrow)]
    exact .pure (.refl hg)

end

/-! ## The pane's rectangle -/

/-- A pane as it is projected on a grid of some size. -/
structure LeafOn (leaf : LeafFrame) (wide high : ℕ) : Prop where
  narrow : wide < 65535
  short : high ≤ 65535
  left : 0 ≤ leaf.rect.x
  right : leaf.rect.x + leaf.rect.width ≤ wide
  top : 0 ≤ leaf.rect.y
  bottom : leaf.rect.y + leaf.rect.height ≤ high
  rows : ∃ titles, splitTitleRow leaf.rect titles = .ok (leaf.titleRect, leaf.contentRect)

namespace LeafFrame

variable (leaf : LeafFrame)

/-- The cells of the pane's rectangle. -/
def area : Area where
  left := clampI32ToU16 leaf.rect.x
  right := clampI32ToU16 leaf.rect.x + leaf.rect.width
  top := clampI32ToU16 leaf.rect.y
  bottom := clampI32ToU16 leaf.rect.y + leaf.rect.height

/-- The first column and row of the content. -/
def contentX : ℕ := clampI32ToU16 leaf.contentRect.x

def contentY : ℕ := clampI32ToU16 leaf.contentRect.y

end LeafFrame

/-- A row of the content would be on the grid, but below the pane. -/
def BelowPane (leaf : LeafFrame) (high row : ℕ) : Prop :=
  leaf.area.bottom ≤ leaf.contentY + row ∧ leaf.contentY + row < high

/-- The overlays of a view stay in the pane: a search and a selection have no columns to restyle on
the rows below it, and no label of a hint ends right of it. -/
structure OverlaysKept (u : Unicode) (c : ClientState) (leaf : LeafFrame) (wide high : ℕ)
    (view : BufferViewState) : Prop where
  search : ∀ search ∈ view.searchState, search.activeMatchIndex ≠ none → ∀ found ∈ search.found,
    ∀ row ∈ c.searchRow leaf.content found.line, BelowPane leaf high row →
      min found.endColumn.toNat leaf.contentRect.width ≤
        min found.startColumn.toNat leaf.contentRect.width
  selection : ∀ selection ∈ view.selectionState, ∀ row, BelowPane leaf high row →
    ∀ line ∈ (c.displayedLines leaf.content)[row]?,
    ∀ range ∈ selectionRangeForLine u selection (c.selectionLine leaf.content row)
      leaf.contentRect.width line.text.toList,
      min range.2 leaf.contentRect.width ≤ min range.1 leaf.contentRect.width
  hints : ∀ hints ∈ view.hintsState, ∀ hint ∈ hints.found,
    hints.typed.toList.isPrefixOf hint.label.toList → c.hintRow leaf.content hint.line ≠ none →
    ∀ i, hint.startCol.toNat + i < leaf.contentRect.width → ∀ ch ∈ hint.label.toList[i]?,
      ¬ Spills u leaf.area.right wide (leaf.contentX + hint.startCol.toNat + i) [ch]

/-- Nothing of a pane is drawn outside it. -/
structure LeafKept (u : Unicode) (c : ClientState) (leaf : LeafFrame) (wide high : ℕ) : Prop where
  title : leaf.rect.width ≠ 0 → leaf.rect.height ≠ 0 → ∀ rect ∈ leaf.titleRect,
    ¬ Spills u leaf.area.right wide leaf.area.left (leafTitle u leaf rect.width)
  overlays : leaf.contentRect.height ≠ 0 → ∀ view ∈ c.viewState[leaf.nodeId]?,
    view.alternateScreen = false → OverlaysKept u c leaf wide high view

section

variable {u : Unicode} {looks : SnapshotLine → LineLooks} {c : ClientState} {leaf : LeafFrame}
  {wide high : ℕ}

/-- The content is as wide as the pane, on some of its rows. -/
structure ContentIn (leaf : LeafFrame) : Prop where
  left : leaf.contentX = leaf.area.left
  right : leaf.contentX + leaf.contentRect.width = leaf.area.right
  top : leaf.area.top ≤ leaf.contentY
  bottom : leaf.contentY + leaf.contentRect.height ≤ leaf.area.bottom

/-- The title is as wide as the pane, on one of its rows. -/
structure TitleIn (leaf : LeafFrame) (rect : Rect) : Prop where
  left : clampI32ToU16 rect.x = leaf.area.left
  width : rect.width = leaf.rect.width
  row : leaf.area.HasRow (clampI32ToU16 rect.y)

theorem clampI32ToU16_eq {value : ℤ} (h : 0 ≤ value) (hle : value ≤ 65535) :
    clampI32ToU16 value = value.toNat := by
  rw [clampI32ToU16]
  omega

theorem insetTop_eq_ok {rect content : Rect} {amount : ℕ}
    (h : insetTop rect amount = .ok content) :
    content = ⟨rect.x, rect.y + (min amount rect.height : ℕ), rect.width,
      rect.height - min amount rect.height⟩ := by
  obtain ⟨y, hy, h⟩ := Answer.ok_bind h
  obtain ⟨-, rfl⟩ := addI32_eq_ok.mp hy
  exact (Except.ok.inj h).symm

theorem LeafOn.area_right_le (h : LeafOn leaf wide high) : leaf.area.right ≤ wide := by
  obtain ⟨hnarrow, hshort, hleft, hright, htop, hbottom, -⟩ := h
  have hl : leaf.area.left = leaf.rect.x.toNat := clampI32ToU16_eq hleft (by omega)
  have hr : leaf.area.right = leaf.area.left + leaf.rect.width := rfl
  omega

theorem LeafOn.area_bottom_le (h : LeafOn leaf wide high) : leaf.area.bottom ≤ high := by
  obtain ⟨hnarrow, hshort, hleft, hright, htop, hbottom, -⟩ := h
  have ht : leaf.area.top = leaf.rect.y.toNat := clampI32ToU16_eq htop (by omega)
  have hb : leaf.area.bottom = leaf.area.top + leaf.rect.height := rfl
  omega

theorem LeafOn.contentIn (h : LeafOn leaf wide high) : ContentIn leaf := by
  obtain ⟨hnarrow, hshort, hleft, hright, htop, hbottom, titles, hrows⟩ := h
  have hparts : leaf.contentRect.x = leaf.rect.x ∧ leaf.contentRect.width = leaf.rect.width ∧
      leaf.rect.y ≤ leaf.contentRect.y ∧ leaf.contentRect.y + leaf.contentRect.height ≤
        leaf.rect.y + leaf.rect.height := by
    rcases titles with _ | _ | _
    · obtain ⟨-, hcontent⟩ := Prod.mk.inj (Except.ok.inj hrows)
      rw [← hcontent]
      exact ⟨rfl, rfl, Int.le_refl _, Int.le_refl _⟩
    · obtain ⟨content, hinset, hrows⟩ := Answer.ok_bind hrows
      obtain ⟨-, hcontent⟩ := Prod.mk.inj (Except.ok.inj hrows)
      rw [← hcontent, insetTop_eq_ok hinset]
      refine ⟨rfl, rfl, ?_, ?_⟩
      · simp only
        omega
      · simp only
        omega
    · obtain ⟨y, -, hrows⟩ := Answer.ok_bind hrows
      obtain ⟨-, hcontent⟩ := Prod.mk.inj (Except.ok.inj hrows)
      rw [← hcontent]
      refine ⟨rfl, rfl, Int.le_refl _, ?_⟩
      simp only [insetBottom]
      omega
  obtain ⟨hx, hwidth, hy, hy'⟩ := hparts
  have hcx : leaf.contentX = leaf.rect.x.toNat := by
    rw [LeafFrame.contentX, clampI32ToU16_eq (by omega) (by omega), hx]
  have hcy : leaf.contentY = leaf.contentRect.y.toNat := clampI32ToU16_eq (by omega) (by omega)
  have hl : leaf.area.left = leaf.rect.x.toNat := clampI32ToU16_eq hleft (by omega)
  have ht : leaf.area.top = leaf.rect.y.toNat := clampI32ToU16_eq htop (by omega)
  have hr : leaf.area.right = leaf.area.left + leaf.rect.width := rfl
  have hb : leaf.area.bottom = leaf.area.top + leaf.rect.height := rfl
  refine ⟨by omega, by omega, by omega, by omega⟩

theorem LeafOn.titleIn (h : LeafOn leaf wide high) (hheight : leaf.rect.height ≠ 0) {rect : Rect}
    (hrect : rect ∈ leaf.titleRect) : TitleIn leaf rect := by
  obtain ⟨hnarrow, hshort, hleft, hright, htop, hbottom, titles, hrows⟩ := h
  have hparts : rect.x = leaf.rect.x ∧ rect.width = leaf.rect.width ∧ leaf.rect.y ≤ rect.y ∧
      rect.y < leaf.rect.y + leaf.rect.height := by
    rcases titles with _ | _ | _
    · obtain ⟨htitle, -⟩ := Prod.mk.inj (Except.ok.inj hrows)
      rw [← htitle] at hrect
      exact nomatch hrect
    · obtain ⟨content, -, hrows⟩ := Answer.ok_bind hrows
      obtain ⟨htitle, -⟩ := Prod.mk.inj (Except.ok.inj hrows)
      rw [← htitle] at hrect
      obtain rfl := Option.some.inj hrect
      exact ⟨rfl, rfl, Int.le_refl _, by simp only; omega⟩
    · obtain ⟨y, hy, hrows⟩ := Answer.ok_bind hrows
      obtain ⟨htitle, -⟩ := Prod.mk.inj (Except.ok.inj hrows)
      rw [← htitle] at hrect
      obtain rfl := Option.some.inj hrect
      obtain ⟨-, rfl⟩ := addI32_eq_ok.mp hy
      refine ⟨rfl, rfl, ?_, ?_⟩
      · simp only
        omega
      · simp only [insetBottom]
        omega
  obtain ⟨hx, hwidth, hy, hy'⟩ := hparts
  have ht : leaf.area.top = leaf.rect.y.toNat := clampI32ToU16_eq htop (by omega)
  have hb : leaf.area.bottom = leaf.area.top + leaf.rect.height := rfl
  have hty : clampI32ToU16 rect.y = rect.y.toNat := clampI32ToU16_eq (by omega) (by omega)
  refine ⟨?_, hwidth, ?_⟩
  · rw [hx]
    rfl
  · exact ⟨by omega, by omega⟩

/-! ## Blanks, title and content -/

theorem stays_blankOps (hu : u.Ascii) (hon : LeafOn leaf wide high) {op : DrawOp}
    (hop : op ∈ blankOps leaf) : op.Stays u leaf.area wide high := by
  obtain ⟨row, hrow, rfl⟩ := List.mem_map.mp hop
  rw [List.mem_range] at hrow
  obtain ⟨hnarrow, hshort, hleft, hright, htop, hbottom, -⟩ := hon
  have ht : leaf.area.top = leaf.rect.y.toNat := clampI32ToU16_eq htop (by omega)
  have hb : leaf.area.bottom = leaf.area.top + leaf.rect.height := rfl
  have hadd : add16 (clampI32ToU16 leaf.rect.y) row = leaf.area.top + row := by
    change add16 leaf.area.top row = _
    rw [add16]
    omega
  rw [hadd]
  refine stays_putStr ⟨by omega, by omega⟩ (Nat.le_refl _) (not_spills_of_le ?_)
  have hspaces : ∀ ch ∈ List.replicate leaf.rect.width ' ', Printable ch := by
    intro ch hch
    rw [List.eq_of_mem_replicate hch]
    decide
  rw [hu.drawnWidth hspaces, List.length_replicate]
  exact Nat.le_refl _

theorem stays_titleOps (hon : LeafOn leaf wide high) (hwidth : leaf.rect.width ≠ 0)
    (hheight : leaf.rect.height ≠ 0)
    (hkept : LeafKept u c leaf wide high) {op : DrawOp} (hop : op ∈ titleOps u leaf) :
    op.Stays u leaf.area wide high := by
  obtain ⟨rect, hrect, rfl⟩ := List.mem_map.mp hop
  rw [Option.mem_toList] at hrect
  have hin := hon.titleIn hheight hrect
  rw [hin.left]
  exact stays_putStr hin.row (Nat.le_refl _) (hkept.title hwidth hheight rect hrect)

theorem stays_contentOps (hu : u.Ascii) (hin : ContentIn leaf) {lines : List SnapshotLine}
    {op : DrawOp} (hop : op ∈ contentOps looks leaf.contentX leaf.contentY leaf.contentRect.width
      leaf.contentRect.height lines) : op.Stays u leaf.area wide high := by
  rw [contentOps, List.mem_mapIdx] at hop
  obtain ⟨row, hrow, rfl⟩ := hop
  rw [List.length_take] at hrow
  have htop := hin.top
  have hbottom := hin.bottom
  exact stays_putSnapshotLine hu ⟨by omega, by omega⟩ (Nat.le_of_eq hin.left.symm)
    (Nat.le_of_eq hin.right)

/-! ## Overlays -/

/-- A row of the content that is not below the pane is in it, or below the grid. -/
theorem hasRow_of_not_belowPane (hin : ContentIn leaf) (hshort : high ≤ 65535) {row : ℕ}
    (h : ¬ BelowPane leaf high row) :
    leaf.area.HasRow (add16 leaf.contentY row) ∨ high ≤ add16 leaf.contentY row := by
  have htop := hin.top
  have hbottom := hin.bottom
  rw [BelowPane] at h
  rcases Nat.lt_or_ge (leaf.contentY + row) high with hlt | hge
  · left
    rw [add16, Nat.min_eq_left (by omega)]
    exact ⟨by omega, by omega⟩
  · right
    rw [add16]
    omega

/-- A restyled stretch of a row stays in the pane, unless it has columns below it. -/
theorem stays_overlay (hin : ContentIn leaf) (hshort : high ≤ 65535) {row start stop : ℕ}
    {f : CellStyle → CellStyle}
    (h : BelowPane leaf high row →
      min stop leaf.contentRect.width ≤ min start leaf.contentRect.width) :
    (DrawOp.restyleRange leaf.contentX (add16 leaf.contentY row) (min start leaf.contentRect.width)
      (min stop leaf.contentRect.width) f).Stays u leaf.area wide high := by
  have hright := hin.right
  refine stays_restyleRange (Nat.le_of_eq hin.left.symm) (by omega) ?_
  by_cases hbelow : BelowPane leaf high row
  · exact .inr (.inr (h hbelow))
  · rcases hasRow_of_not_belowPane hin hshort hbelow with hrow | hrow
    · exact .inl hrow
    · exact .inr (.inl hrow)

theorem mem_searchOps {x y : ℕ} {search : SearchState} {op : DrawOp} :
    op ∈ searchOps c leaf x y search ↔ ∃ activeIndex ∈ search.activeMatchIndex,
      ∃ index, ∃ found ∈ search.found[index]?, ∃ row ∈ c.searchRow leaf.content found.line,
        op = .restyleRange x (add16 y row) (min found.startColumn.toNat leaf.contentRect.width)
          (min found.endColumn.toNat leaf.contentRect.width)
          (composeOverlay (if index = activeIndex then activeSearchStyle else searchStyle)) := by
  rw [searchOps]
  rcases search.activeMatchIndex with _ | activeIndex
  · simp
  · simp only [List.mem_flatten, List.mem_mapIdx, Option.mem_def, Option.some.injEq,
      exists_eq_left']
    constructor
    · rintro ⟨_, ⟨index, hindex, rfl⟩, hop⟩
      obtain ⟨row, hrow, rfl⟩ := List.mem_map.mp hop
      exact ⟨index, _, List.getElem?_eq_getElem hindex, row, Option.mem_toList.mp hrow, rfl⟩
    · rintro ⟨index, found, hfound, row, hrow, rfl⟩
      obtain ⟨hindex, rfl⟩ := List.getElem?_eq_some_iff.mp hfound
      exact ⟨_, ⟨index, hindex, rfl⟩, List.mem_map.mpr ⟨row, Option.mem_toList.mpr hrow, rfl⟩⟩

theorem stays_searchOps {view : BufferViewState} (hin : ContentIn leaf) (hshort : high ≤ 65535)
    (hkept : OverlaysKept u c leaf wide high view) {search : SearchState}
    (hsearch : search ∈ view.searchState) {op : DrawOp}
    (hop : op ∈ searchOps c leaf leaf.contentX leaf.contentY search) :
    op.Stays u leaf.area wide high := by
  obtain ⟨activeIndex, hactive, index, found, hfound, row, hrow, rfl⟩ := mem_searchOps.mp hop
  refine stays_overlay hin hshort fun hbelow ↦ ?_
  refine hkept.search search hsearch ?_ found (List.mem_of_getElem? hfound) row hrow hbelow
  rw [hactive]
  exact Option.some_ne_none activeIndex

theorem mem_selectionOps {x y : ℕ} {selection : SelectionState} {op : DrawOp} :
    op ∈ selectionOps u c leaf x y selection ↔ ∃ row < 2 ^ 16,
      ∃ line ∈ (c.displayedLines leaf.content)[row]?, op ∈ selectionOp u c leaf x y selection row line := by
  simp only [selectionOps, List.mem_flatten, List.mem_mapIdx]
  constructor
  · rintro ⟨_, ⟨row, hrow, rfl⟩, hop⟩
    have hlt := hrow
    rw [List.length_take] at hlt
    refine ⟨row, by omega, _, ?_, hop⟩
    rw [List.getElem_take, Option.mem_def, List.getElem?_eq_getElem]
  · rintro ⟨row, hlt, line, hline, hop⟩
    obtain ⟨hrow, rfl⟩ := List.getElem?_eq_some_iff.mp hline
    have htake : row < ((c.displayedLines leaf.content).take (2 ^ 16)).length := by
      rw [List.length_take]
      omega
    refine ⟨_, ⟨row, htake, rfl⟩, ?_⟩
    rw [List.getElem_take]
    exact hop

theorem mem_selectionOp {x y row : ℕ} {selection : SelectionState} {line : SnapshotLine}
    {op : DrawOp} : op ∈ selectionOp u c leaf x y selection row line ↔
      ∃ range ∈ selectionRangeForLine u selection (c.selectionLine leaf.content row)
        leaf.contentRect.width line.text.toList,
        op = .restyleRange x (add16 y row) (min range.1 leaf.contentRect.width)
          (min range.2 leaf.contentRect.width) invert := by
  rw [selectionOp, List.mem_map]
  constructor
  · rintro ⟨range, hrange, rfl⟩
    exact ⟨range, Option.mem_toList.mp hrange, rfl⟩
  · rintro ⟨range, hrange, rfl⟩
    exact ⟨range, Option.mem_toList.mpr hrange, rfl⟩

theorem stays_selectionOps {view : BufferViewState} (hin : ContentIn leaf) (hshort : high ≤ 65535)
    (hkept : OverlaysKept u c leaf wide high view) {selection : SelectionState}
    (hselection : selection ∈ view.selectionState) {op : DrawOp}
    (hop : op ∈ selectionOps u c leaf leaf.contentX leaf.contentY selection) :
    op.Stays u leaf.area wide high := by
  obtain ⟨row, -, line, hline, hop⟩ := mem_selectionOps.mp hop
  obtain ⟨range, hrange, rfl⟩ := mem_selectionOp.mp hop
  exact stays_overlay hin hshort fun hbelow ↦
    hkept.selection selection hselection row hbelow line hline range hrange

theorem mem_labelOps {x y width startCol typedLen : ℕ} {op : DrawOp} : ∀ {label : List Char}
    {offset : ℕ}, op ∈ labelOps x y width startCol typedLen offset label →
    ∃ i, ∃ ch ∈ label[i]?, add16 startCol (offset + i) < width ∧
      op = .putChar (add16 x (add16 startCol (offset + i))) y ch
        (hintLabelStyle (offset + i < typedLen)) := by
  intro label
  induction label with
  | nil => exact fun h ↦ (nomatch h)
  | cons ch label ih =>
    intro offset h
    rw [labelOps] at h
    split at h
    · exact nomatch h
    · next hin =>
      rcases List.mem_cons.mp h with rfl | h
      · exact ⟨0, ch, rfl, by rw [Nat.add_zero]; omega, rfl⟩
      · obtain ⟨i, ch', hch', hlt, rfl⟩ := ih h
        have hshift : offset + 1 + i = offset + (i + 1) := by omega
        rw [hshift] at hlt ⊢
        exact ⟨i + 1, ch', hch', hlt, rfl⟩

theorem lt_of_hintRow {line row : ℕ} (h : row ∈ c.hintRow leaf.content line) :
    row < leaf.contentRect.height := by
  have hle : leaf.content.height.toNat ≤ leaf.contentRect.height := by
    rw [LeafFrame.content, UInt16.toNat_ofNat']
    exact Nat.mod_le _ _
  rw [ClientState.hintRow] at h
  split at h
  · exact nomatch h
  split at h
  · exact nomatch h
  split at h
  · exact nomatch h
  · next hrow =>
    obtain rfl := Option.some.inj h
    omega

theorem stays_hintsOps {view : BufferViewState} (hon : LeafOn leaf wide high)
    (hin : ContentIn leaf) (hkept : OverlaysKept u c leaf wide high view) {hints : HintsState}
    (hhints : hints ∈ view.hintsState) {op : DrawOp}
    (hop : op ∈ hintsOps c leaf leaf.contentX leaf.contentY hints) :
    op.Stays u leaf.area wide high := by
  obtain ⟨hint, hhint, hop⟩ := List.mem_flatMap.mp hop
  obtain ⟨hhint, htyped⟩ := List.mem_filter.mp hhint
  obtain ⟨row, hrow, hop⟩ := List.mem_flatMap.mp hop
  rw [Option.mem_toList] at hrow
  have hlt : row < leaf.contentRect.height := lt_of_hintRow hrow
  have hnarrow := hon.narrow
  have hwide : leaf.area.right ≤ wide := hon.area_right_le
  have hin' := hin
  obtain ⟨hleft, hright, htop, hbottom⟩ := hin'
  have hbelow : ¬ BelowPane leaf high row := by
    rw [BelowPane]
    omega
  rcases List.mem_cons.mp hop with rfl | hop
  · exact stays_overlay hin hon.short fun h ↦ absurd h hbelow
  · obtain ⟨i, ch, hch, hcolumn, rfl⟩ := mem_labelOps hop
    rw [Nat.zero_add] at hcolumn ⊢
    have hsum : add16 hint.startCol.toNat i = hint.startCol.toNat + i := by
      rw [add16] at hcolumn ⊢
      omega
    rw [hsum] at hcolumn ⊢
    have hx : add16 leaf.contentX (hint.startCol.toNat + i) =
        leaf.contentX + hint.startCol.toNat + i := by
      rw [add16]
      omega
    rw [hx]
    have hrow' : leaf.area.HasRow (add16 leaf.contentY row) := by
      rw [add16, Nat.min_eq_left (by have := hon.area_bottom_le; have := hon.short; omega)]
      exact ⟨by omega, by omega⟩
    refine stays_putChar hrow' (by omega) ?_
    exact hkept.hints hints hhints hint hhint htyped (by rw [hrow]; exact Option.some_ne_none row) i
      hcolumn ch hch

theorem printable_decimal {n : ℕ} {ch : Char} (h : ch ∈ decimal n) : Printable ch := by
  obtain ⟨d, hd, rfl⟩ := List.mem_map.mp h
  obtain ⟨hlow, hhigh⟩ := Decimal.isDigit_of_mem_text hd
  interval_cases d <;> decide

theorem replaceControls_of_printable {text : List Char} (h : ∀ ch ∈ text, Printable ch) :
    replaceControls text = text := by
  refine (List.map_congr_left fun ch hch ↦ ?_).trans (List.map_id text)
  obtain ⟨hlow, hhigh⟩ := h ch hch
  have hlow' : 32 ≤ ch.toNat := hlow
  have hhigh' : ch.toNat ≤ 126 := hhigh
  have hcontrol : isControl ch = false := by
    rw [isControl, decide_eq_false_iff_not]
    omega
  rw [hcontrol]
  rfl

theorem leadingGraphemes_printable (hu : u.Ascii) (limit : ℕ) :
    ∀ {chars : List Char} {used : ℕ}, (∀ ch ∈ chars, Printable ch) → used ≤ limit →
      (∀ ch ∈ leadingGraphemes u limit (chars.map ([·])) used, Printable ch) ∧
        used + (leadingGraphemes u limit (chars.map ([·])) used).length ≤ limit := by
  intro chars
  induction chars with
  | nil => exact fun _ hused ↦ ⟨fun ch hch ↦ absurd hch List.not_mem_nil, hused⟩
  | cons ch chars ih =>
    intro used hchars hused
    have hone : u.width [ch] = 1 := hu.width fun d hd ↦ by
      rw [List.mem_singleton.mp hd]
      exact hchars ch List.mem_cons_self
    rw [List.map_cons, leadingGraphemes, hone]
    split
    · exact ⟨fun d hd ↦ absurd hd List.not_mem_nil, hused⟩
    next hfit =>
    have hnext : used + 1 ≤ limit := Nat.le_of_not_lt hfit
    obtain ⟨hprintable, hlength⟩ := ih (fun d hd ↦ hchars d (List.mem_cons_of_mem _ hd)) hnext
    refine ⟨fun d hd ↦ ?_, ?_⟩
    · rcases List.mem_cons.mp hd with rfl | hd
      · exact hchars d List.mem_cons_self
      · exact hprintable d hd
    · change used + (leadingGraphemes u limit (chars.map ([·])) (used + 1)).length.succ ≤ limit
      omega

/-- A printable text that is fitted in some columns is printable and takes no more of them. -/
theorem truncate_printable (hu : u.Ascii) {text : List Char} (h : ∀ ch ∈ text, Printable ch)
    (width : ℕ) : (∀ ch ∈ truncate u text width, Printable ch) ∧
      (truncate u text width).length ≤ width := by
  have htilde : Printable '~' := by decide
  rw [truncate, replaceControls_of_printable h, hu.width h, hu.graphemes h]
  split
  · exact ⟨fun ch hch ↦ absurd hch List.not_mem_nil, Nat.zero_le _⟩
  split
  · next hle => exact ⟨h, hle⟩
  split
  · next hone =>
    refine ⟨fun ch hch ↦ ?_, Nat.le_of_eq hone.symm⟩
    rw [List.mem_singleton.mp hch]
    exact htilde
  · obtain ⟨hprintable, hlength⟩ := leadingGraphemes_printable hu (width - 1) h (Nat.zero_le _)
    refine ⟨fun ch hch ↦ ?_, ?_⟩
    · rcases List.mem_append.mp hch with hch | hch
      · exact hprintable ch hch
      · rw [List.mem_singleton.mp hch]
        exact htilde
    · rw [List.length_append, List.length_singleton]
      omega

/-- The place in the history is drawn up to the right side of the pane. -/
theorem stays_scrollIndicatorOps (hu : u.Ascii) (hon : LeafOn leaf wide high) (hin : ContentIn leaf)
    {y topLine totalLines : ℕ} (hrow : leaf.area.HasRow y) {op : DrawOp}
    (hop : op ∈ scrollIndicatorOps u leaf.contentX y leaf.contentRect.width topLine totalLines) :
    op.Stays u leaf.area wide high := by
  rw [scrollIndicatorOps] at hop
  split at hop
  · exact nomatch hop
  obtain rfl := List.mem_singleton.mp hop
  have hlabel : ∀ ch ∈ decimal (saturatingAdd topLine 1) ++ ['/'] ++ decimal totalLines,
      Printable ch := by
    intro ch hch
    rcases List.mem_append.mp hch with hch | hch
    · rcases List.mem_append.mp hch with hch | hch
      · exact printable_decimal hch
      · rw [List.mem_singleton.mp hch]
        decide
    · exact printable_decimal hch
  obtain ⟨hprintable, hlength⟩ := truncate_printable hu hlabel leaf.contentRect.width
  generalize truncate u _ leaf.contentRect.width = label at hprintable hlength ⊢
  have hwidth : min (u.displayWidth label) leaf.contentRect.width = label.length := by
    have hright := hin.right
    have hwide := hon.area_right_le
    have hnarrow := hon.narrow
    rw [Unicode.displayWidth, hu.width hprintable]
    omega
  have hright := hin.right
  have hwide := hon.area_right_le
  have hnarrow := hon.narrow
  have hx : add16 leaf.contentX (leaf.contentRect.width - label.length) =
      leaf.contentX + (leaf.contentRect.width - label.length) := by
    rw [add16]
    omega
  rw [hwidth, hx]
  refine stays_putStr hrow (by rw [hin.left]; omega) (not_spills_of_le ?_)
  rw [hu.drawnWidth hprintable]
  omega

theorem stays_overlayOps (hu : u.Ascii) (hon : LeafOn leaf wide high)
    (hheight : leaf.rect.height ≠ 0) (hcontent : leaf.contentRect.height ≠ 0)
    {view : BufferViewState}
    (hkept : view.alternateScreen = false → OverlaysKept u c leaf wide high view) {op : DrawOp}
    (hop : op ∈ overlayOps u c leaf leaf.contentX leaf.contentY view) :
    op.Stays u leaf.area wide high := by
  have hin := hon.contentIn
  rw [overlayOps] at hop
  split at hop
  · exact nomatch hop
  next halternate =>
  have hkept := hkept (Bool.eq_false_iff.mpr halternate)
  rcases List.mem_append.mp hop with hop | hop
  · rcases List.mem_append.mp hop with hop | hop
    · rcases List.mem_append.mp hop with hop | hop
      · obtain ⟨search, hsearch, hop⟩ := List.mem_flatMap.mp hop
        exact stays_searchOps hin hon.short hkept (Option.mem_toList.mp hsearch) hop
      · obtain ⟨selection, hselection, hop⟩ := List.mem_flatMap.mp hop
        exact stays_selectionOps hin hon.short hkept (Option.mem_toList.mp hselection) hop
    · obtain ⟨hints, hhints, hop⟩ := List.mem_flatMap.mp hop
      exact stays_hintsOps hon hin hkept (Option.mem_toList.mp hhints) hop
  · split at hop
    · exact nomatch hop
    refine stays_scrollIndicatorOps hu hon hin ?_ hop
    rcases htitle : leaf.titleRect with _ | rect
    · have htop := hin.top
      have hbottom := hin.bottom
      exact ⟨htop, by change leaf.contentY < _; omega⟩
    · exact (hon.titleIn hheight htitle).row

/-- A pane is drawn inside itself if its title and its overlays stay in it. -/
theorem renderLeaf_drew (hu : u.Ascii) (hon : LeafOn leaf wide high)
    (hkept : LeafKept u c leaf wide high) {g : RenderGrid} (hwide : g.width = wide)
    (hhigh : g.height = high) (hg : Uncut leaf.area g) :
    Gives (renderLeaf u looks c leaf g) (Drew leaf.area g) := by
  refine gives_draws_of_stays (fun op hop ↦ ?_) hwide hhigh hg
  rw [leafOps] at hop
  split at hop
  · exact nomatch hop
  next hempty =>
  obtain ⟨hwidth, hheight⟩ := not_or.mp hempty
  rcases List.mem_append.mp hop with hop | hop
  · rcases List.mem_append.mp hop with hop | hop
    · exact stays_blankOps hu hon hop
    · exact stays_titleOps hon hwidth hheight hkept hop
  · split at hop
    · exact nomatch hop
    next hcontent =>
    rcases List.mem_append.mp hop with hop | hop
    · exact stays_contentOps hu hon.contentIn hop
    · obtain ⟨view, hview, hop⟩ := List.mem_flatMap.mp hop
      exact stays_overlayOps hu hon hheight hcontent
        (hkept.overlays hcontent view (Option.mem_toList.mp hview)) hop

end

end Embers.Client
