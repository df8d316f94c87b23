import Embers.Client.ProjectedFrames
import Embers.Client.Screens

/-!
# The viewport a session was drawn at

`drawnViewport` works the viewport out from the terminals of the panes: each has the size of the
content it was drawn with. Up the tree the extents of the children are put together as the projection
took them apart, so the extent of a node is the rectangle it was drawn in. For the node that the screen
is drawn from this is the viewport, unless that node is a zoomed one in a popup.
-/

namespace Embers.Client

open Protocol

/-! ## Extents -/

/-- A width and a height of 16 bits. -/
structure Extent where
  width : ℕ
  height : ℕ
  deriving DecidableEq, Repr

/-- The extent of a split. Along its axis the children and the dividers add up. -/
def splitExtent (direction : SplitDirection) (children : List Extent) : Answer Unit Extent :=
  if children = [] ∨ 65536 < children.length then .fail ()
  else
    let sum (extent : Extent → ℕ) := (children.map extent).foldl add16 (children.length - 1)
    let largest (extent : Extent → ℕ) := (children.map extent).foldr max 0
    match direction with
    | .horizontal => pure ⟨largest (·.width), sum (·.height)⟩
    | .vertical => pure ⟨sum (·.width), largest (·.height)⟩

def drawnExtent (c : ClientState) (titleRows : ℕ) : ℕ → NodeId → Answer Unit Extent
  | 0, _ => .error .diverges
  | fuel + 1, nodeId => do
    let node ← Answer.ofOption () c.nodes[nodeId]?
    match node.kind with
    | .bufferView => do
      let view ← Answer.ofOption () node.bufferView
      let buffer ← Answer.ofOption () c.buffers[view.bufferId]?
      pure ⟨buffer.ptySize.cols.toNat, add16 buffer.ptySize.rows.toNat titleRows⟩
    | .tabs => do
      let tabs ← Answer.ofOption () node.tabs
      let active ← Answer.ofOption () tabs.tabs[tabs.active.toNat]?
      let child ← drawnExtent c titleRows fuel active.childId
      pure { child with height := add16 child.height 1 }
    | .split => do
      let split ← Answer.ofOption () node.split
      let children ← split.childIds.mapM (drawnExtent c titleRows fuel)
      splitExtent split.direction children

/-- The node that the screen of a session is drawn from. -/
def drawnNode (c : ClientState) (session : SessionRecord) : NodeId :=
  (session.zoomedNodeId.filter (c.nodes[·]?.isSome)).getD session.rootNodeId

def titleRows (titles : PaneTitles) : ℕ := if titles.shown then 1 else 0

def drawnViewport (c : ClientState) (fuel : ℕ) (sessionId : SessionId) : Answer Unit Size := do
  let session ← Answer.ofOption () c.sessions[sessionId]?
  let extent ← drawnExtent c (titleRows (.reported session)) fuel (drawnNode c session)
  pure ⟨.ofNat extent.width, .ofNat extent.height⟩

/-! ## Panes and their terminals -/

/-- The panes that can be seen below a node, from left to right, with what they show. -/
inductive VisiblePanes (c : ClientState) : NodeId → List (NodeId × Protocol.BufferRecord) → Prop where
  | view {id : NodeId} {node : NodeRecord} {view : BufferViewRecord} {buffer : Protocol.BufferRecord}
      (hnode : c.nodes[id]? = some node) (hkind : node.kind = .bufferView)
      (hview : node.bufferView = some view) (hbuffer : c.buffers[view.bufferId]? = some buffer) :
      VisiblePanes c id [(id, buffer)]
  | tabs {id : NodeId} {node : NodeRecord} {tabs : TabsRecord} {tab : TabRecord}
      {panes : List (NodeId × Protocol.BufferRecord)}
      (hnode : c.nodes[id]? = some node) (hkind : node.kind = .tabs)
      (htabs : node.tabs = some tabs) (hactive : tabs.tabs[tabs.active.toNat]? = some tab)
      (hpanes : VisiblePanes c tab.childId panes) : VisiblePanes c id panes
  | split {id : NodeId} {node : NodeRecord} {split : SplitRecord}
      {panes : NodeId → List (NodeId × Protocol.BufferRecord)}
      (hnode : c.nodes[id]? = some node) (hkind : node.kind = .split)
      (hsplit : node.split = some split) (hne : split.childIds ≠ [])
      (hpanes : ∀ child ∈ split.childIds, VisiblePanes c child (panes child)) :
      VisiblePanes c id (split.childIds.flatMap panes)

/-- A pane is drawn with at least one cell of content, and its terminal has the content's size. -/
structure Sized (pane : NodeId × Protocol.BufferRecord) (leaf : LeafFrame) : Prop where
  nodeId : leaf.nodeId = pane.1
  content : leaf.contentRect.width ≠ 0 ∧ leaf.contentRect.height ≠ 0
  cols : pane.2.ptySize.cols.toNat = leaf.contentRect.width
  rows : pane.2.ptySize.rows.toNat = leaf.contentRect.height

/-- With enough fuel the terminals give a node this extent. -/
def HasExtent (c : ClientState) (rows : ℕ) (id : NodeId) (extent : Extent) : Prop :=
  ∃ n, ∀ fuel ≥ n, drawnExtent c rows fuel id = .ok extent

section

variable {c : ClientState} {rows : ℕ} {id : NodeId} {node : NodeRecord} {extent : Extent}

theorem hasExtent_view {view : BufferViewRecord} {buffer : Protocol.BufferRecord}
    (hnode : c.nodes[id]? = some node) (hkind : node.kind = .bufferView)
    (hview : node.bufferView = some view) (hbuffer : c.buffers[view.bufferId]? = some buffer) :
    HasExtent c rows id ⟨buffer.ptySize.cols.toNat, add16 buffer.ptySize.rows.toNat rows⟩ := by
  refine ⟨1, fun fuel hfuel ↦ ?_⟩
  obtain ⟨fuel, rfl⟩ := Nat.exists_eq_add_of_le' hfuel
  rw [drawnExtent, hnode]
  simp only [Answer.ofOption_some, Answer.bind_ok, hkind, hview, hbuffer]
  rfl

theorem hasExtent_tabs {tabs : TabsRecord} {tab : TabRecord}
    (hnode : c.nodes[id]? = some node) (hkind : node.kind = .tabs) (htabs : node.tabs = some tabs)
    (hactive : tabs.tabs[tabs.active.toNat]? = some tab) (h : HasExtent c rows tab.childId extent) :
    HasExtent c rows id { extent with height := add16 extent.height 1 } := by
  obtain ⟨n, hn⟩ := h
  refine ⟨n + 1, fun fuel hfuel ↦ ?_⟩
  obtain ⟨fuel, rfl⟩ : ∃ k, fuel = k + 1 := ⟨fuel - 1, by omega⟩
  rw [drawnExtent, hnode]
  simp only [Answer.ofOption_some, Answer.bind_ok, hkind, htabs, hactive, hn fuel (by omega)]
  rfl

theorem exists_mapM {children : List NodeId} {extents : List Extent}
    (h : List.Forall₂ (HasExtent c rows) children extents) :
    ∃ n, ∀ fuel ≥ n, children.mapM (drawnExtent c rows fuel) = .ok extents := by
  induction h with
  | nil => exact ⟨0, fun _ _ ↦ rfl⟩
  | cons hchild _ ih =>
    obtain ⟨n, hn⟩ := hchild
    obtain ⟨m, hm⟩ := ih
    refine ⟨max n m, fun fuel hfuel ↦ ?_⟩
    rw [List.mapM_cons, hn fuel (by omega), hm fuel (by omega)]
    rfl

theorem hasExtent_split {split : SplitRecord} {extents : List Extent}
    (hnode : c.nodes[id]? = some node) (hkind : node.kind = .split)
    (hsplit : node.split = some split)
    (h : List.Forall₂ (HasExtent c rows) split.childIds extents)
    (hextent : splitExtent split.direction extents = .ok extent) : HasExtent c rows id extent := by
  obtain ⟨n, hn⟩ := exists_mapM h
  refine ⟨n + 1, fun fuel hfuel ↦ ?_⟩
  obtain ⟨fuel, rfl⟩ : ∃ k, fuel = k + 1 := ⟨fuel - 1, by omega⟩
  rw [drawnExtent, hnode]
  simp only [Answer.ofOption_some, Answer.bind_ok, hkind, hsplit, hn fuel (by omega), hextent]

end

/-! ## Taking rectangles apart and putting extents together -/

theorem foldl_add16 (values : List ℕ) {a : ℕ} (ha : a ≤ 65535) :
    values.foldl add16 a = min (a + values.sum) 65535 := by
  induction values generalizing a with
  | nil => exact (Nat.min_eq_left ha).symm
  | cons value values ih =>
    have hle : add16 a value ≤ 65535 := Nat.min_le_right _ _
    rw [List.foldl_cons, ih hle, List.sum_cons, add16]
    omega

theorem foldr_max_eq {values : List ℕ} {n : ℕ} (hne : values ≠ []) (h : ∀ value ∈ values, value = n) :
    values.foldr max 0 = n := by
  induction values with
  | nil => exact absurd rfl hne
  | cons value values ih =>
    obtain ⟨rfl, hrest⟩ := List.forall_mem_cons.mp h
    by_cases hnil : values = []
    · rw [hnil]
      exact Nat.max_zero value
    · rw [List.foldr_cons, ih hnil hrest, Nat.max_self]

/-- The extent of what is drawn in a rectangle, whose height is known when the title rows are. -/
structure Matches (titled : Prop) (rect : Rect) (extent : Extent) : Prop where
  width : extent.width = rect.width
  height : titled → extent.height = rect.height

section

variable {titled : Prop} {rect bar content : Rect} {direction : SplitDirection} {lengths : List ℕ}
  {extents : List Extent} {a : ℕ}

/-- What the children of a split measure across its axis, and along it. -/
theorem matches_childStrips (h : List.Forall₂ (Matches titled) (childStrips rect direction lengths a)
    extents) :
    match direction with
    | .horizontal => (∀ width ∈ extents.map Extent.width, width = rect.width) ∧
        (titled → extents.map Extent.height = lengths)
    | .vertical => extents.map Extent.width = lengths ∧
        (titled → ∀ height ∈ extents.map Extent.height, height = rect.height) := by
  induction lengths generalizing extents a with
  | nil =>
    obtain rfl := List.forall₂_nil_left_iff.mp h
    cases direction <;> simp
  | cons length lengths ih =>
    obtain ⟨extent, rest, hextent, hrest, rfl⟩ := List.forall₂_cons_left_iff.mp h
    have hothers := ih hrest
    cases direction with
    | horizontal =>
      obtain ⟨hwidths, hheights⟩ := hothers
      refine ⟨List.forall_mem_cons.mpr ⟨hextent.width, hwidths⟩, fun ht ↦ ?_⟩
      rw [List.map_cons, hheights ht, hextent.height ht]
      rfl
    | vertical =>
      obtain ⟨hwidths, hheights⟩ := hothers
      refine ⟨?_, fun ht ↦ List.forall_mem_cons.mpr ⟨hextent.height ht, hheights ht⟩⟩
      rw [List.map_cons, hwidths, hextent.width]
      rfl

theorem splitExtent_childStrips (hscreen : OnScreen rect) (hne : lengths ≠ [])
    (hfill : lengths.sum + (lengths.length - 1) = axisLength rect direction)
    (h : List.Forall₂ (Matches titled) (childStrips rect direction lengths a) extents) :
    ∃ extent, splitExtent direction extents = .ok extent ∧ Matches titled rect extent := by
  have haxis := hscreen.axisLength_lt direction
  have hlength : extents.length = lengths.length := by
    rw [← h.length_eq, length_childStrips]
  have hextents : extents ≠ [] := by
    rw [← List.length_pos_iff, hlength]
    exact List.length_pos_iff.mpr hne
  have hsome : ¬(extents = [] ∨ 65536 < extents.length) := by
    rw [not_or]
    exact ⟨hextents, by omega⟩
  have hdividers : extents.length - 1 ≤ 65535 := by omega
  have hmatches := matches_childStrips h
  cases direction with
  | horizontal =>
    obtain ⟨hwidths, hheights⟩ := hmatches
    refine ⟨_, if_neg hsome, foldr_max_eq (mt List.map_eq_nil_iff.mp hextents) hwidths, fun ht ↦ ?_⟩
    have hsum := foldl_add16 (extents.map Extent.height) hdividers
    rw [hheights ht] at hsum
    refine (congrArg (List.foldl add16 _) (hheights ht)).trans (hsum.trans ?_)
    rw [axisLength] at hfill haxis
    omega
  | vertical =>
    obtain ⟨hwidths, hheights⟩ := hmatches
    refine ⟨_, if_neg hsome, ?_, fun ht ↦
      foldr_max_eq (mt List.map_eq_nil_iff.mp hextents) (hheights ht)⟩
    have hsum := foldl_add16 (extents.map Extent.width) hdividers
    rw [hwidths] at hsum
    refine (congrArg (List.foldl add16 _) hwidths).trans (hsum.trans ?_)
    rw [axisLength] at hfill haxis
    omega

/-- A pane's content and its title row make up its rectangle. -/
theorem add16_titleRows {titles : PaneTitles} {titleRect : Option Rect} (hscreen : OnScreen rect)
    (h : splitTitleRow rect titles = .ok (titleRect, content)) (hcontent : content.height ≠ 0) :
    content.width = rect.width ∧ add16 content.height (titleRows titles) = rect.height := by
  have hbottom := hscreen.bottom
  have htop := hscreen.top
  cases titles with
  | off =>
    obtain ⟨-, rfl⟩ := Prod.mk.inj (Except.ok.inj h)
    have hnone : titleRows .off = 0 := rfl
    rw [hnone, add16]
    refine ⟨rfl, ?_⟩
    omega
  | top =>
    rw [splitTitleRow, insetTop_ok hscreen, Answer.bind_ok] at h
    obtain ⟨-, rfl⟩ := Prod.mk.inj (Except.ok.inj h)
    simp only [titleRows, PaneTitles.shown, add16] at hcontent ⊢
    refine ⟨trivial, ?_⟩
    simp only [ne_eq, reduceCtorEq, not_false_eq_true, decide_true, if_true]
    omega
  | bottom =>
    obtain ⟨y, -, hrects⟩ := Answer.ok_bind h
    obtain ⟨-, rfl⟩ := Prod.mk.inj (Except.ok.inj hrects)
    simp only [insetBottom, titleRows, PaneTitles.shown, add16] at hcontent ⊢
    refine ⟨trivial, ?_⟩
    simp only [ne_eq, reduceCtorEq, not_false_eq_true, decide_true, if_true]
    omega

/-- A bar is a row of the rectangle that its node is drawn in, unless it is hidden. -/
theorem add16_barRow {tabBar : RootTabBar} {rootBar : Bool} (hscreen : OnScreen rect)
    (hheight : rect.height ≠ 0) (h : splitTabBar rect tabBar rootBar = .ok (bar, content)) :
    content.width = rect.width ∧
      add16 content.height 1 = add16 rect.height (if bar.height = 0 then 1 else 0) := by
  have hbottom := hscreen.bottom
  have htop := hscreen.top
  rw [splitTabBar] at h
  generalize hrows : (if !rootBar ∨ tabBar.visible then 1 else 0) = rows at h
  have hle : rows ≤ 1 := by
    rw [← hrows]
    split <;> omega
  simp only at h
  split at h
  · obtain ⟨y, -, hrects⟩ := Answer.ok_bind h
    obtain ⟨rfl, rfl⟩ := Prod.mk.inj (Except.ok.inj hrects)
    refine ⟨rfl, ?_⟩
    simp only [insetBottom, add16]
    split <;> omega
  · rw [insetTop_ok hscreen, Answer.bind_ok] at h
    obtain ⟨rfl, rfl⟩ := Prod.mk.inj (Except.ok.inj h)
    refine ⟨rfl, ?_⟩
    simp only [add16]
    split <;> omega

end

/-! ## Bars of the session's root -/

section

variable {c : ClientState} {focused : Option NodeId} {layout : LayoutOptions}

theorem isRoot_projectChildren {project : NodeId → Rect → Answer ProjectError Projection}
    {direction : SplitDirection} {splitNodeId : NodeId} {childCount : ℕ}
    {children : List (NodeId × Rect)} {index : ℕ} {q : Projection}
    (hchildren : ∀ child ∈ children, ∀ p, project child.1 child.2 = .ok p →
      ∀ bar ∈ p.tabBars, bar.isRoot = false)
    (h : projectChildren project direction splitNodeId childCount index children = .ok q) :
    ∀ bar ∈ q.tabBars, bar.isRoot = false := by
  induction children generalizing index q with
  | nil =>
    obtain rfl := Except.ok.inj h
    exact List.forall_mem_nil _
  | cons child children ih =>
    obtain ⟨p, hp, h⟩ := Answer.ok_bind h
    obtain ⟨divider, -, h⟩ := Answer.ok_bind h
    obtain ⟨others, hothers, h⟩ := Answer.ok_bind h
    obtain rfl := Except.ok.inj h
    obtain ⟨hchild, hrest⟩ := List.forall_mem_cons.mp hchildren
    intro bar hbar
    obtain hbar | hbar := List.mem_append.mp hbar
    · obtain hbar | hbar := List.mem_append.mp hbar
      · exact hchild p hp bar hbar
      · cases hbar
    · exact ih hrest hothers bar hbar

/-- Below the root no bar is the root's. -/
theorem isRoot_projectNode {fuel : ℕ} {id : NodeId} {rect : Rect} {p : Projection}
    (h : projectNode c focused layout fuel id rect false = .ok p) :
    ∀ bar ∈ p.tabBars, bar.isRoot = false := by
  induction fuel generalizing id rect p with
  | zero => cases h
  | succ fuel ih =>
    by_cases hempty : rect.width = 0 ∨ rect.height = 0
    · rw [projectNode_empty hempty] at h
      obtain rfl := Except.ok.inj h
      exact List.forall_mem_nil _
    rw [projectNode, if_neg hempty] at h
    obtain ⟨node, -, h⟩ := Answer.ok_bind h
    cases hkind : node.kind with
    | bufferView =>
      simp only [hkind] at h
      obtain ⟨view, -, h⟩ := Answer.ok_bind h
      obtain ⟨buffer, -, h⟩ := Answer.ok_bind h
      obtain ⟨rects, -, h⟩ := Answer.ok_bind h
      obtain rfl := Except.ok.inj h
      exact List.forall_mem_nil _
    | split =>
      simp only [hkind] at h
      obtain ⟨split, -, h⟩ := Answer.ok_bind h
      split at h
      · obtain rfl := Except.ok.inj h
        exact List.forall_mem_nil _
      · obtain ⟨rects, -, h⟩ := Answer.ok_bind h
        obtain ⟨q, hq, h⟩ := Answer.ok_bind h
        obtain rfl := Except.ok.inj h
        have hbars : ∀ bar ∈ q.tabBars, bar.isRoot = false :=
          isRoot_projectChildren (fun child _ p hp ↦ ih hp) hq
        exact hbars
    | tabs =>
      simp only [hkind] at h
      obtain ⟨tabs, -, h⟩ := Answer.ok_bind h
      obtain ⟨active, -, h⟩ := Answer.ok_bind h
      obtain ⟨rects, -, h⟩ := Answer.ok_bind h
      obtain ⟨q, hq, h⟩ := Answer.ok_bind h
      obtain rfl := Except.ok.inj h
      exact List.forall_mem_cons.mpr ⟨rfl, ih hq⟩

/-- The row of the root's bar that is not drawn. -/
def hiddenRow (p : Projection) : ℕ :=
  if (p.tabBars.find? (·.isRoot)).any (·.rect.height = 0) then 1 else 0

theorem find?_isRoot {bars : List TabsFrame} (h : ∀ bar ∈ bars, bar.isRoot = false) :
    bars.find? (·.isRoot) = none :=
  List.find?_eq_none.mpr fun bar hbar ↦ Bool.not_eq_true _ ▸ h bar hbar

theorem hiddenRow_of_not_isRoot {p : Projection} (h : ∀ bar ∈ p.tabBars, bar.isRoot = false) :
    hiddenRow p = 0 := by
  rw [hiddenRow, find?_isRoot h]
  rfl

end

/-! ## The extent of what is drawn -/

theorem VisiblePanes.ne_nil {c : ClientState} {id : NodeId}
    {panes : List (NodeId × Protocol.BufferRecord)} (h : VisiblePanes c id panes) : panes ≠ [] := by
  induction h with
  | view => exact List.cons_ne_nil _ _
  | tabs _ _ _ _ _ ih => exact ih
  | @split _ _ split panes _ _ _ hne _ ih =>
    obtain ⟨child, rest, hchildren⟩ := List.exists_cons_of_ne_nil hne
    rw [hchildren, List.flatMap_cons]
    refine List.append_ne_nil_of_left_ne_nil (ih child ?_) _
    rw [hchildren]
    exact List.mem_cons_self

section

variable {c : ClientState} {focused : Option NodeId} {layout : LayoutOptions}
  {project : NodeId → Rect → Answer ProjectError Projection}
  {panesOf : NodeId → List (NodeId × Protocol.BufferRecord)}
  {direction : SplitDirection} {splitNodeId : NodeId} {childCount : ℕ}

theorem length_leaves_projectChildren {children : List (NodeId × Rect)} {index : ℕ} {q : Projection}
    (hchildren : ∀ child ∈ children, ∀ p, project child.1 child.2 = .ok p →
      p.leaves.length ≤ (panesOf child.1).length)
    (h : projectChildren project direction splitNodeId childCount index children = .ok q) :
    q.leaves.length ≤ (children.flatMap fun child ↦ panesOf child.1).length := by
  induction children generalizing index q with
  | nil =>
    obtain rfl := Except.ok.inj h
    exact Nat.le_refl 0
  | cons child children ih =>
    obtain ⟨p, hp, h⟩ := Answer.ok_bind h
    obtain ⟨divider, -, h⟩ := Answer.ok_bind h
    obtain ⟨others, hothers, h⟩ := Answer.ok_bind h
    obtain rfl := Except.ok.inj h
    obtain ⟨hchild, hrest⟩ := List.forall_mem_cons.mp hchildren
    have hleaves : (p ++ ⟨[], [], divider.toList.map fun rect ↦ ⟨direction, rect, splitNodeId, index⟩,
        []⟩ ++ others).leaves = p.leaves ++ [] ++ others.leaves := rfl
    rw [hleaves, List.append_nil, List.length_append, List.flatMap_cons, List.length_append]
    exact Nat.add_le_add (hchild p hp) (ih hrest hothers)

/-- When as many panes are drawn as can be seen, this is so for every child. -/
theorem sized_projectChildren {children : List (NodeId × Rect)} {index : ℕ} {q : Projection}
    (hchildren : ∀ child ∈ children, ∀ p, project child.1 child.2 = .ok p →
      p.leaves.length ≤ (panesOf child.1).length)
    (h : projectChildren project direction splitNodeId childCount index children = .ok q)
    (hsized : List.Forall₂ Sized (children.flatMap fun child ↦ panesOf child.1) q.leaves) :
    ∀ child ∈ children, ∃ p, project child.1 child.2 = .ok p ∧
      List.Forall₂ Sized (panesOf child.1) p.leaves := by
  induction children generalizing index q with
  | nil => exact List.forall_mem_nil _
  | cons child children ih =>
    obtain ⟨p, hp, h⟩ := Answer.ok_bind h
    obtain ⟨divider, -, h⟩ := Answer.ok_bind h
    obtain ⟨others, hothers, h⟩ := Answer.ok_bind h
    obtain rfl := Except.ok.inj h
    obtain ⟨hchild, hrest⟩ := List.forall_mem_cons.mp hchildren
    have hleaves : (p ++ ⟨[], [], divider.toList.map fun rect ↦ ⟨direction, rect, splitNodeId, index⟩,
        []⟩ ++ others).leaves = p.leaves ++ [] ++ others.leaves := rfl
    rw [hleaves, List.append_nil, List.flatMap_cons] at hsized
    have hlength := hsized.length_eq
    have hfirst := hchild p hp
    have hothers' := length_leaves_projectChildren hrest hothers
    rw [List.length_append, List.length_append] at hlength
    have hequal : (panesOf child.1).length = p.leaves.length := by omega
    have htake := List.forall₂_take_append _ _ _ hsized
    have hdrop := List.forall₂_drop_append _ _ _ hsized
    rw [List.take_left' hequal] at htake
    rw [List.drop_left' hequal] at hdrop
    exact List.forall_mem_cons.mpr ⟨⟨p, hp, htake⟩, ih hrest hothers hdrop⟩

variable {fuel : ℕ} {id : NodeId} {node : NodeRecord} {rect : Rect} {isRoot : Bool} {p : Projection}
  {panes : List (NodeId × Protocol.BufferRecord)}

theorem exists_of_projectNode_view {view : BufferViewRecord} {buffer : Protocol.BufferRecord}
    (hrect : ¬(rect.width = 0 ∨ rect.height = 0)) (hnode : c.nodes[id]? = some node)
    (hkind : node.kind = .bufferView) (hview : node.bufferView = some view)
    (hbuffer : c.buffers[view.bufferId]? = some buffer)
    (h : projectNode c focused layout (fuel + 1) id rect isRoot = .ok p) :
    ∃ titleRect content, splitTitleRow rect layout.paneTitles = .ok (titleRect, content) ∧
      p = ⟨[], [⟨node.id, buffer.id, rect, content, titleRect, buffer.title, buffer.activity,
        focused = some node.id⟩], [], []⟩ := by
  rw [projectNode, if_neg hrect, hnode] at h
  simp only [Answer.ofOption_some, Answer.bind_ok, hkind, hview, hbuffer] at h
  obtain ⟨⟨titleRect, content⟩, htitle, h⟩ := Answer.ok_bind h
  exact ⟨titleRect, content, htitle, (Except.ok.inj h).symm⟩

theorem exists_of_projectNode_tabs {tabs : TabsRecord} {tab : TabRecord}
    (hrect : ¬(rect.width = 0 ∨ rect.height = 0)) (hnode : c.nodes[id]? = some node)
    (hkind : node.kind = .tabs) (htabs : node.tabs = some tabs)
    (hactive : tabs.tabs[tabs.active.toNat]? = some tab)
    (h : projectNode c focused layout (fuel + 1) id rect isRoot = .ok p) :
    ∃ bar content q, splitTabBar rect layout.tabBar isRoot = .ok (bar, content) ∧
      projectNode c focused layout fuel tab.childId content false = .ok q ∧
        p = ⟨[barFrame c fuel node tabs bar isRoot], [], [], []⟩ ++ q := by
  rw [projectNode, if_neg hrect, hnode] at h
  simp only [Answer.ofOption_some, Answer.bind_ok, hkind, htabs, hactive] at h
  obtain ⟨⟨bar, content⟩, hbar, h⟩ := Answer.ok_bind h
  obtain ⟨q, hq, h⟩ := Answer.ok_bind h
  exact ⟨bar, content, q, hbar, hq, (Except.ok.inj h).symm⟩

theorem exists_of_projectNode_split {split : SplitRecord}
    (hrect : ¬(rect.width = 0 ∨ rect.height = 0)) (hnode : c.nodes[id]? = some node)
    (hkind : node.kind = .split) (hsplit : node.split = some split) (hne : split.childIds ≠ [])
    (h : projectNode c focused layout (fuel + 1) id rect isRoot = .ok p) :
    ∃ rects q frames, splitRects rect split.direction split.sizes split.childIds.length = .ok rects ∧
      projectChildren (fun child rect ↦ projectNode c focused layout fuel child rect false)
        split.direction node.id split.childIds.length 0 (split.childIds.zip rects) = .ok q ∧
          p = ⟨[], [], [], frames⟩ ++ q := by
  rw [projectNode_split hrect hnode hkind hsplit hne] at h
  obtain ⟨rects, hrects, h⟩ := Answer.ok_bind h
  obtain ⟨q, hq, h⟩ := Answer.ok_bind h
  exact ⟨rects, q, _, hrects, hq, (Except.ok.inj h).symm⟩

theorem map_fst_zip_initial {α β : Type} (as : List α) (bs : List β) :
    (as.zip bs).map Prod.fst <+: as := by
  induction as generalizing bs with
  | nil => exact List.nil_prefix
  | cons a as ih =>
    cases bs with
    | nil => exact List.nil_prefix
    | cons b bs => exact (List.prefix_cons_inj a).mpr (ih bs)

theorem flatMap_zip (panesOf : NodeId → List (NodeId × Protocol.BufferRecord)) (children : List NodeId)
    (rects : List Rect) : ((children.zip rects).flatMap fun child ↦ panesOf child.1) =
      ((children.zip rects).map Prod.fst).flatMap panesOf := by
  rw [List.flatMap_map]

/-- No more panes are drawn than can be seen. -/
theorem VisiblePanes.length_leaves (h : VisiblePanes c id panes)
    (hp : projectNode c focused layout fuel id rect isRoot = .ok p) :
    p.leaves.length ≤ panes.length := by
  induction h generalizing fuel rect isRoot p with
  | view hnode hkind hview hbuffer =>
    cases fuel with
    | zero => cases hp
    | succ fuel =>
      by_cases hrect : rect.width = 0 ∨ rect.height = 0
      · rw [projectNode_empty hrect] at hp
        obtain rfl := Except.ok.inj hp
        exact Nat.zero_le 1
      · obtain ⟨titleRect, content, -, rfl⟩ :=
          exists_of_projectNode_view hrect hnode hkind hview hbuffer hp
        exact Nat.le_refl 1
  | tabs hnode hkind htabs hactive _ ih =>
    cases fuel with
    | zero => cases hp
    | succ fuel =>
      by_cases hrect : rect.width = 0 ∨ rect.height = 0
      · rw [projectNode_empty hrect] at hp
        obtain rfl := Except.ok.inj hp
        exact Nat.zero_le _
      · obtain ⟨bar, content, q, -, hq, rfl⟩ :=
          exists_of_projectNode_tabs hrect hnode hkind htabs hactive hp
        have hle := ih hq
        exact hle
  | @split id node split panes hnode hkind hsplit hne _ ih =>
    cases fuel with
    | zero => cases hp
    | succ fuel =>
      by_cases hrect : rect.width = 0 ∨ rect.height = 0
      · rw [projectNode_empty hrect] at hp
        obtain rfl := Except.ok.inj hp
        exact Nat.zero_le _
      · obtain ⟨rects, q, frames, -, hq, rfl⟩ :=
          exists_of_projectNode_split hrect hnode hkind hsplit hne hp
        have hle := length_leaves_projectChildren
          (fun child hchild p hp ↦ ih child.1 (List.of_mem_zip hchild).1 hp) hq
        rw [flatMap_zip] at hle
        exact hle.trans ((map_fst_zip_initial _ _).flatMap panes).length_le

theorem exists_forall₂ {α β γ : Type} {R : α → γ → Prop} {S : β → γ → Prop} {as : List α}
    {bs : List β} (h : List.Forall₂ (fun a b ↦ ∃ x, R a x ∧ S b x) as bs) :
    ∃ xs, List.Forall₂ R as xs ∧ List.Forall₂ S bs xs := by
  induction h with
  | nil => exact ⟨[], .nil, .nil⟩
  | cons hab _ ih =>
    obtain ⟨x, hR, hS⟩ := hab
    obtain ⟨xs, hRs, hSs⟩ := ih
    exact ⟨x :: xs, .cons hR hRs, .cons hS hSs⟩

theorem add16_zero (hscreen : OnScreen rect) : add16 rect.height 0 = rect.height := by
  have htop := hscreen.top
  have hbottom := hscreen.bottom
  rw [add16]
  omega

theorem hiddenRow_barFrame {tabs : TabsRecord} {bar content : Rect} {q : Projection}
    (hbar : splitTabBar rect layout.tabBar isRoot = .ok (bar, content))
    (hq : ∀ bar ∈ q.tabBars, bar.isRoot = false) :
    hiddenRow (⟨[barFrame c fuel node tabs bar isRoot], [], [], []⟩ ++ q) =
      if bar.height = 0 then 1 else 0 := by
  have hbars : (⟨[barFrame c fuel node tabs bar isRoot], [], [], []⟩ ++ q : Projection).tabBars =
      barFrame c fuel node tabs bar isRoot :: q.tabBars := rfl
  rw [hiddenRow, hbars]
  cases isRoot with
  | true => simp [barFrame]
  | false =>
    have hshown : bar.height = 1 := by
      rw [splitTabBar] at hbar
      simp only [Bool.false_eq_true, false_and, if_false] at hbar
      obtain ⟨content', -, hrects⟩ := Answer.ok_bind hbar
      obtain ⟨rfl, -⟩ := Prod.mk.inj (Except.ok.inj hrects)
      rfl
    have hother : (barFrame c fuel node tabs bar false).isRoot = false := rfl
    rw [List.find?_cons_of_neg (by rw [hother]; exact Bool.false_ne_true), find?_isRoot hq, hshown]
    rfl

/-- A node is drawn when it has panes and all of them are. -/
theorem VisiblePanes.drawn (h : VisiblePanes c id panes)
    (hp : projectNode c focused layout fuel id rect isRoot = .ok p)
    (hsized : List.Forall₂ Sized panes p.leaves) :
    ∃ k, fuel = k + 1 ∧ ¬(rect.width = 0 ∨ rect.height = 0) := by
  cases fuel with
  | zero => cases hp
  | succ fuel =>
    refine ⟨fuel, rfl, fun hrect ↦ h.ne_nil ?_⟩
    rw [projectNode_empty hrect] at hp
    obtain rfl := Except.ok.inj hp
    exact List.forall₂_nil_right_iff.mp hsized

theorem length_le_sum {direction : SplitDirection} {children : List NodeId} {rects : List Rect}
    (h : List.Forall₂ (fun _ rect ↦ axisLength rect direction ≠ 0) children rects) :
    children.length ≤ (rects.map (axisLength · direction)).sum := by
  induction h with
  | nil => exact Nat.le_refl 0
  | cons hlength _ ih =>
    rw [List.length_cons, List.map_cons, List.sum_cons]
    omega

/-- The terminals of the panes give a node the extent of the rectangle that it was drawn in, when the
title rows are those that were drawn; and in any case its width. -/
theorem VisiblePanes.hasExtent (h : VisiblePanes c id panes) (rows : ℕ)
    (hscreen : OnScreen rect) (hp : projectNode c focused layout fuel id rect isRoot = .ok p)
    (hsized : List.Forall₂ Sized panes p.leaves) :
    ∃ extent, HasExtent c rows id extent ∧ extent.width = rect.width ∧
      (rows = titleRows layout.paneTitles → extent.height = add16 rect.height (hiddenRow p)) := by
  obtain ⟨k, rfl, hrect⟩ := h.drawn hp hsized
  induction h generalizing k rect isRoot p with
  | @view id node view buffer hnode hkind hview hbuffer =>
    obtain ⟨titleRect, content, htitle, rfl⟩ :=
      exists_of_projectNode_view hrect hnode hkind hview hbuffer hp
    obtain ⟨hpane, -⟩ := List.forall₂_cons.mp hsized
    obtain ⟨hwidth, hheight⟩ := add16_titleRows hscreen htitle hpane.content.2
    refine ⟨_, hasExtent_view hnode hkind hview hbuffer, hpane.cols.trans hwidth, ?_⟩
    rintro rfl
    have hrows : buffer.ptySize.rows.toNat = content.height := hpane.rows
    have hnone : hiddenRow ⟨[], [⟨node.id, buffer.id, rect, content, titleRect, buffer.title,
        buffer.activity, focused = some node.id⟩], [], []⟩ = 0 := rfl
    rw [hnone, add16_zero hscreen, hrows]
    exact hheight
  | tabs hnode hkind htabs hactive hpanes ih =>
    obtain ⟨bar, content, q, hbar, hq, rfl⟩ :=
      exists_of_projectNode_tabs hrect hnode hkind htabs hactive hp
    obtain ⟨bar', content', hbar', hparts⟩ := splitTabBar_ok hscreen (not_or.mp hrect).2
    obtain ⟨rfl, rfl⟩ := Prod.mk.inj (Except.ok.inj (hbar'.symm.trans hbar))
    have hcontent := hscreen.of_inside hparts.content_inside
    have hleaves : List.Forall₂ Sized _ q.leaves := hsized
    obtain ⟨k, rfl, hinner⟩ := hpanes.drawn hq hleaves
    obtain ⟨extent, hextent, hwidth, hheight⟩ := ih hcontent hleaves k hinner hq
    obtain ⟨hwidth', hheight'⟩ := add16_barRow hscreen (not_or.mp hrect).2 hbar
    refine ⟨_, hasExtent_tabs hnode hkind htabs hactive hextent, hwidth.trans hwidth', fun hrows ↦ ?_⟩
    rw [hiddenRow_barFrame hbar (isRoot_projectNode hq), hheight hrows,
      hiddenRow_of_not_isRoot (isRoot_projectNode hq), add16_zero hcontent]
    exact hheight'
  | @split id node split panes hnode hkind hsplit hne hpanes ih =>
    obtain ⟨rects, q, frames, hrects, hq, rfl⟩ :=
      exists_of_projectNode_split hrect hnode hkind hsplit hne hp
    have hcount : split.childIds.length ≠ 0 := fun h ↦ hne (List.eq_nil_of_length_eq_zero h)
    obtain ⟨lengths, hlengths, rfl⟩ := splitRects_eq_ok hscreen hcount hrects
    have hlength := hlengths.length
    have hsum := hlengths.sum
    have haxis := hscreen.axisLength_lt split.direction
    have hstrips : split.childIds.length = (childStrips rect split.direction lengths 0).length := by
      rw [length_childStrips, hlength]
    have hchildren : split.childIds.flatMap panes =
        (split.childIds.zip (childStrips rect split.direction lengths 0)).flatMap
          fun child ↦ panes child.1 := by
      rw [flatMap_zip, List.map_fst_zip hstrips.le]
    rw [hchildren] at hsized
    have hdrawn := sized_projectChildren
      (fun child hchild p hp ↦ (hpanes child.1 (List.of_mem_zip hchild).1).length_leaves hp) hq hsized
    -- Every child is drawn, so there is room for the dividers.
    have hcells : List.Forall₂ (fun _ rect ↦ axisLength rect split.direction ≠ 0) split.childIds
        (childStrips rect split.direction lengths 0) := by
      refine List.forall₂_iff_zip.mpr ⟨hstrips, fun {child strip} hchild ↦ ?_⟩
      obtain ⟨p, hp, hsized⟩ := hdrawn _ hchild
      obtain ⟨-, -, hcells⟩ := (hpanes child (List.of_mem_zip hchild).1).drawn hp hsized
      rw [not_or] at hcells
      cases split.direction with
      | horizontal => exact hcells.2
      | vertical => exact hcells.1
    have hroom := length_le_sum hcells
    rw [lengths_childStrips] at hroom
    have hfill : lengths.sum + (lengths.length - 1) = axisLength rect split.direction := by omega
    have hextents : List.Forall₂ (fun child strip ↦ ∃ extent, HasExtent c rows child extent ∧
        Matches (rows = titleRows layout.paneTitles) strip extent) split.childIds
          (childStrips rect split.direction lengths 0) := by
      refine List.forall₂_iff_zip.mpr ⟨hstrips, fun {child strip} hchild ↦ ?_⟩
      obtain ⟨hmem, hstrip⟩ := List.of_mem_zip hchild
      obtain ⟨p, hp, hsized⟩ := hdrawn _ hchild
      have hinside : strip.Inside rect := inside_of_mem_childStrips hstrip (by omega)
      have hscreen' := hscreen.of_inside hinside
      obtain ⟨k, rfl, hcells⟩ := (hpanes child hmem).drawn hp hsized
      obtain ⟨extent, hextent, hwidth, hheight⟩ := ih child hmem hscreen' hsized k hcells hp
      refine ⟨extent, hextent, hwidth, fun hrows ↦ ?_⟩
      rw [hheight hrows, hiddenRow_of_not_isRoot (isRoot_projectNode hp), add16_zero hscreen']
    obtain ⟨extents, hchildExtents, hmatches⟩ := exists_forall₂ hextents
    obtain ⟨extent, hextent, hwidth, hheight⟩ :=
      splitExtent_childStrips hscreen (List.ne_nil_of_length_pos (by omega)) hfill hmatches
    refine ⟨extent, hasExtent_split hnode hkind hsplit hchildExtents hextent, hwidth, fun hrows ↦ ?_⟩
    have hbars : ∀ bar ∈ q.tabBars, bar.isRoot = false :=
      isRoot_projectChildren (fun child _ p hp ↦ isRoot_projectNode hp) hq
    have hnone : hiddenRow (⟨[], [], [], frames⟩ ++ q) = 0 := hiddenRow_of_not_isRoot hbars
    rw [hheight hrows, hnone, add16_zero hscreen]

end

/-! ## Layers -/

section

variable {c : ClientState} {session : SessionRecord} {layout : LayoutOptions} {fuel : ℕ}
  {viewport : Size} {window : FloatingRecord} {bounds : Rect} {nodeId : NodeId}

theorem exists_of_projectLayer {floatingId : Option FloatingId} {rect : Rect} {isRoot : Bool}
    {layer : Layer}
    (h : projectLayer c session layout fuel floatingId nodeId rect isRoot = .ok layer) :
    projectNode c session.focusedLeafId { layout with paneTitles := paneTitlesIn c layout floatingId }
      fuel nodeId rect isRoot = .ok layer.frames := by
  obtain ⟨frames, hframes, h⟩ := Answer.ok_bind h
  obtain rfl := Except.ok.inj h
  exact hframes

/-- The rectangle of a popup's content. -/
def popupRect (window : FloatingRecord) (bounds : Rect) : Rect :=
  let rect := clipRect (geometryRect window.geometry) bounds
  if window.border then insetBorder rect else rect

/-- A popup is one layer at most. -/
theorem exists_of_projectFloatingWindow {popups : List (FloatingFrame × Layer)}
    (h : projectFloatingWindow c session layout fuel window bounds nodeId = .ok popups) :
    popups = [] ∨ ((clipRect (geometryRect window.geometry) bounds).width ≠ 0 ∧
      (clipRect (geometryRect window.geometry) bounds).height ≠ 0 ∧ ∃ frame layer,
        popups = [(frame, layer)] ∧ projectLayer c session layout fuel (some window.id) nodeId
          (popupRect window bounds) false = .ok layer) := by
  rw [projectFloatingWindow] at h
  split at h
  · exact .inl (Except.ok.inj h).symm
  simp only at h
  split at h
  · exact .inl (Except.ok.inj h).symm
  · next hcells =>
    obtain ⟨layer, hlayer, h⟩ := Answer.ok_bind h
    rw [not_or] at hcells
    exact .inr ⟨hcells.1, hcells.2, _, layer, (Except.ok.inj h).symm, hlayer⟩

theorem isRoot_projectFloatingWindow {popups : List (FloatingFrame × Layer)}
    (h : projectFloatingWindow c session layout fuel window bounds nodeId = .ok popups) :
    ∀ popup ∈ popups, ∀ bar ∈ popup.2.frames.tabBars, bar.isRoot = false := by
  obtain rfl | ⟨-, -, frame, layer, rfl, hlayer⟩ := exists_of_projectFloatingWindow h
  · exact List.forall_mem_nil _
  · intro popup hpopup
    rw [List.mem_singleton.mp hpopup]
    exact isRoot_projectNode (exists_of_projectLayer hlayer)

theorem isRoot_projectFloating {ids : List FloatingId} {popups : List (FloatingFrame × Layer)}
    (h : projectFloating c session layout fuel bounds ids = .ok popups) :
    ∀ popup ∈ popups, ∀ bar ∈ popup.2.frames.tabBars, bar.isRoot = false := by
  induction ids generalizing popups with
  | nil =>
    obtain rfl := Except.ok.inj h
    exact List.forall_mem_nil _
  | cons id ids ih =>
    rw [projectFloating] at h
    cases hwindow : c.floating[id]? with
    | none =>
      rw [hwindow] at h
      exact ih h
    | some window =>
      rw [hwindow] at h
      obtain ⟨belongs, -, h⟩ := Answer.ok_bind h
      have hshows : ∃ shown others, (∀ popup ∈ shown, ∀ bar ∈ popup.2.frames.tabBars,
          bar.isRoot = false) ∧ projectFloating c session layout fuel bounds ids = .ok others ∧
            shown ++ others = popups := by
        cases belongs with
        | true =>
          rw [if_pos rfl] at h
          obtain ⟨shown, hshown, h⟩ := Answer.ok_bind h
          obtain ⟨others, hothers, h⟩ := Answer.ok_bind h
          exact ⟨shown, others, isRoot_projectFloatingWindow hshown, hothers, Except.ok.inj h⟩
        | false =>
          rw [if_neg Bool.false_ne_true] at h
          obtain ⟨shown, hshown, h⟩ := Answer.ok_bind h
          obtain rfl := Except.ok.inj hshown
          obtain ⟨others, hothers, h⟩ := Answer.ok_bind h
          exact ⟨[], others, List.forall_mem_nil _, hothers, Except.ok.inj h⟩
      obtain ⟨shown, others, hshown, hothers, rfl⟩ := hshows
      exact List.forall_mem_append.mpr ⟨hshown, ih hothers⟩

/-- The zoomed node is in this popup. -/
def ZoomedIn (c : ClientState) (session : SessionRecord) (fuel : ℕ) (window : FloatingRecord) : Prop :=
  ∃ nodeId ∈ session.zoomedNodeId, c.nodes[nodeId]?.isSome = true ∧
    floatingAncestorForNode c session fuel nodeId = .ok (some window)

/-- What the screen is drawn from. -/
inductive DrawnFrom (c : ClientState) (session : SessionRecord) (layout : LayoutOptions) (fuel : ℕ)
    (viewport : Size) (layers : List Layer) : Prop where
  | tiled {layer : Layer} {rest : List Layer} {isRoot : Bool}
      (hzoomed : ∀ window, ¬ZoomedIn c session fuel window) (hlayers : layers = layer :: rest)
      (hrest : ∀ other ∈ rest, ∀ bar ∈ other.frames.tabBars, bar.isRoot = false)
      (hlayer : projectLayer c session layout fuel none (drawnNode c session) (viewportRect viewport)
        isRoot = .ok layer)
  | hidden (hlayers : layers = [])
  | popup {window : FloatingRecord} {layer : Layer} (hzoomed : ZoomedIn c session fuel window)
      (hwidth : (clipRect (geometryRect window.geometry) (viewportRect viewport)).width ≠ 0)
      (hheight : (clipRect (geometryRect window.geometry) (viewportRect viewport)).height ≠ 0)
      (hlayers : layers = [layer])
      (hlayer : projectLayer c session layout fuel (some window.id) (drawnNode c session)
        (popupRect window (viewportRect viewport)) false = .ok layer)

/-- A zoomed node that the client has is one of the session's. -/
def ZoomBelongs (c : ClientState) (session : SessionRecord) (fuel : ℕ) : Prop :=
  ∀ nodeId ∈ session.zoomedNodeId, c.nodes[nodeId]?.isSome = true →
    nodeBelongsToSession c session fuel nodeId = .ok true

theorem zoomedNode_eq (h : ZoomBelongs c session fuel) {zoomed : Option NodeId}
    (hzoomed : zoomedNode c session fuel = .ok zoomed) :
    zoomed = session.zoomedNodeId.filter (c.nodes[·]?.isSome) := by
  rw [zoomedNode] at hzoomed
  cases hid : session.zoomedNodeId with
  | none =>
    rw [hid] at hzoomed
    obtain rfl := Except.ok.inj hzoomed
    rfl
  | some nodeId =>
    rw [hid] at hzoomed
    obtain ⟨belongs, hbelongs, hzoomed⟩ := Answer.ok_bind hzoomed
    obtain rfl := Except.ok.inj hzoomed
    cases hnode : c.nodes[nodeId]? with
    | none =>
      cases fuel with
      | zero => cases hbelongs
      | succ fuel =>
        rw [nodeBelongsToSession, hnode] at hbelongs
        obtain rfl := Except.ok.inj hbelongs
        rw [Option.filter_some, hnode]
        rfl
    | some node =>
      have hsome : c.nodes[nodeId]?.isSome = true := by rw [hnode]; rfl
      obtain rfl := Except.ok.inj ((h nodeId hid hsome).symm.trans hbelongs)
      rw [Option.filter_some, hsome]

theorem drawn_of_projectLayers (hzoom : ZoomBelongs c session fuel) {layers : List Layer}
    {floating : List FloatingFrame}
    (h : projectLayers c session layout fuel (viewportRect viewport) = .ok (layers, floating)) :
    DrawnFrom c session layout fuel viewport layers := by
  obtain ⟨zoomed, hzoomed, h⟩ := Answer.ok_bind h
  have heq := zoomedNode_eq hzoom hzoomed
  cases zoomed with
  | none =>
    obtain ⟨layer, hlayer, h⟩ := Answer.ok_bind h
    obtain ⟨popups, hpopups, h⟩ := Answer.ok_bind h
    obtain ⟨rfl, -⟩ := Prod.mk.inj (Except.ok.inj h)
    have hnode : drawnNode c session = session.rootNodeId := by
      rw [drawnNode, ← heq]
      rfl
    rw [← hnode] at hlayer
    refine .tiled (fun window hin ↦ ?_) rfl (fun other hother ↦ ?_) hlayer
    · obtain ⟨nodeId, hmem, hcached, -⟩ := hin
      rw [Option.mem_def.mp hmem, Option.filter_some, hcached] at heq
      cases heq
    · obtain ⟨popup, hpopup, rfl⟩ := List.mem_map.mp hother
      exact isRoot_projectFloating hpopups popup hpopup
  | some nodeId =>
    obtain ⟨hmem, hcached⟩ := Option.filter_eq_some_iff.mp heq.symm
    have hnode : drawnNode c session = nodeId := by
      rw [drawnNode, ← heq]
      rfl
    obtain ⟨window, hwindow, h⟩ := Answer.ok_bind h
    cases window with
    | none =>
      obtain ⟨layer, hlayer, h⟩ := Answer.ok_bind h
      obtain ⟨rfl, -⟩ := Prod.mk.inj (Except.ok.inj h)
      rw [← hnode] at hlayer
      refine .tiled (fun window hin ↦ ?_) rfl (List.forall_mem_nil _) hlayer
      obtain ⟨nodeId', hmem', -, hin⟩ := hin
      obtain rfl := Option.some.inj (hmem.symm.trans hmem')
      rw [hwindow] at hin
      cases hin
    | some window =>
      obtain ⟨popups, hpopups, h⟩ := Answer.ok_bind h
      obtain ⟨rfl, -⟩ := Prod.mk.inj (Except.ok.inj h)
      obtain rfl | ⟨hwidth, hheight, frame, layer, rfl, hlayer⟩ :=
        exists_of_projectFloatingWindow hpopups
      · exact .hidden rfl
      · rw [← hnode] at hlayer
        exact .popup ⟨nodeId, hmem, hcached, hwindow⟩ hwidth hheight rfl hlayer

theorem exists_cached (h : floatingAncestorForNode c session fuel nodeId = .ok (some window)) :
    ∃ floatingId : FloatingId, c.floating[floatingId]? = some window := by
  induction fuel generalizing nodeId with
  | zero => cases h
  | succ fuel ih =>
    rw [floatingAncestorForNode] at h
    cases hroot : floatingWindowForRoot c session nodeId with
    | some found =>
      rw [hroot] at h
      obtain rfl := Option.some.inj (Except.ok.inj h)
      obtain ⟨floatingId, -, hfloating⟩ := List.mem_filterMap.mp (List.mem_of_find?_eq_some hroot)
      exact ⟨floatingId, hfloating⟩
    | none =>
      rw [hroot] at h
      cases hparent : c.nodes[nodeId]?.bind (·.parentId) with
      | none =>
        rw [hparent] at h
        cases h
      | some parentId =>
        rw [hparent] at h
        exact ih h

/-! ### Rectangles of popups -/

/-- The popup has no frame and is all over the viewport. -/
structure Covers (window : FloatingRecord) (viewport : Size) : Prop where
  border : window.border = false
  left : window.geometry.x.toNat = 0
  top : window.geometry.y.toNat = 0
  width : viewport.width.toNat ≤ window.geometry.width.toNat
  height : viewport.height.toNat ≤ window.geometry.height.toNat

theorem clipRect_inside (rect : Rect) (hwidth : (clipRect rect (viewportRect viewport)).width ≠ 0) :
    (clipRect rect (viewportRect viewport)).Inside (viewportRect viewport) := by
  rw [clipRect] at hwidth ⊢
  split
  · next hempty =>
    rw [if_pos hempty] at hwidth
    exact absurd rfl hwidth
  · next hcells =>
    rw [not_or] at hcells
    refine ⟨?_, ?_, ?_, ?_⟩ <;> simp only [viewportRect] at hcells ⊢ <;> omega

theorem popupRect_inside (hwidth : (clipRect (geometryRect window.geometry) (viewportRect viewport)).width ≠ 0)
    (hheight : (clipRect (geometryRect window.geometry) (viewportRect viewport)).height ≠ 0) :
    (popupRect window (viewportRect viewport)).Inside (viewportRect viewport) := by
  have hinside := clipRect_inside (geometryRect window.geometry) hwidth
  rw [popupRect]
  split
  · refine .trans ⟨?_, ?_, ?_, ?_⟩ hinside <;> simp only [insetBorder] <;> omega
  · exact hinside

/-- The content of a popup is the whole viewport when the popup covers it without a frame. A frame
takes two columns. -/
theorem popupRect_eq_iff (hwidth : (popupRect window (viewportRect viewport)).width ≠ 0)
    (hheight : (popupRect window (viewportRect viewport)).height ≠ 0)
    (hcells : (clipRect (geometryRect window.geometry) (viewportRect viewport)).width ≠ 0) :
    (popupRect window (viewportRect viewport)).width = viewport.width.toNat ∧
        (window.border = false →
          (popupRect window (viewportRect viewport)).height = viewport.height.toNat) ↔
      Covers window viewport := by
  have hinside := clipRect_inside (geometryRect window.geometry) hcells
  have hright := hinside.right
  have hleft := hinside.left
  rw [popupRect] at hwidth hheight ⊢
  cases hborder : window.border with
  | true =>
    rw [hborder, if_pos rfl] at hwidth
    constructor
    · rintro ⟨heq, -⟩
      simp only [if_true, insetBorder, viewportRect] at heq hwidth hright hleft
      omega
    · intro h
      rw [h.border] at hborder
      cases hborder
  | false =>
    rw [hborder, if_neg Bool.false_ne_true] at hwidth hheight
    simp only [Bool.false_eq_true, if_false, true_implies]
    rw [clipRect] at hwidth hheight ⊢
    split
    · next hempty =>
      rw [if_pos hempty] at hwidth
      exact absurd rfl hwidth
    · next hsome =>
      rw [not_or] at hsome
      simp only [geometryRect, viewportRect] at hsome ⊢
      constructor
      · rintro ⟨hw, hh⟩
        exact ⟨hborder, by omega, by omega, by omega, by omega⟩
      · rintro ⟨-, hleft, htop, hw, hh⟩
        omega

end

/-! ## The viewport -/

section

variable {c : ClientState} {session : SessionRecord} {layout : LayoutOptions} {fuel : ℕ}
  {sessionId : SessionId} {viewport : Size} {m : PresentationModel} {extent : Extent}

theorem drawnViewport_eq (hsession : c.sessions[sessionId]? = some session)
    (h : HasExtent c (titleRows (.reported session)) (drawnNode c session) extent) :
    ∃ n, ∀ fuel ≥ n, drawnViewport c fuel sessionId =
      .ok ⟨.ofNat extent.width, .ofNat extent.height⟩ := by
  obtain ⟨n, hn⟩ := h
  refine ⟨n, fun fuel hfuel ↦ ?_⟩
  rw [drawnViewport, hsession, Answer.ofOption_some, Answer.bind_ok, hn fuel hfuel]
  rfl

/-- What comes out for all large fuels is one size. -/
theorem eventually_eq_iff {f : ℕ → Answer Unit Size} {a b : Size} (h : ∃ n, ∀ fuel ≥ n, f fuel = .ok a) :
    (∃ n, ∀ fuel ≥ n, f fuel = .ok b) ↔ a = b := by
  obtain ⟨n, hn⟩ := h
  constructor
  · rintro ⟨k, hk⟩
    have hboth := (hn (max n k) (Nat.le_max_left _ _)).symm.trans (hk (max n k) (Nat.le_max_right _ _))
    exact Except.ok.inj hboth
  · rintro rfl
    exact ⟨n, hn⟩

theorem layoutViewport_eq {layer : Layer} {rest : List Layer} (hlayers : m.layers = layer :: rest)
    (hrest : ∀ other ∈ rest, ∀ bar ∈ other.frames.tabBars, bar.isRoot = false) :
    m.layoutViewport =
      ⟨m.viewport.width, .ofNat (add16 m.viewport.height.toNat (hiddenRow layer.frames))⟩ := by
  have hothers : ∀ bar ∈ rest.flatMap (·.frames.tabBars), bar.isRoot = false := by
    intro bar hbar
    obtain ⟨other, hother, hmem⟩ := List.mem_flatMap.mp hbar
    exact hrest other hother bar hmem
  have hroot : m.rootTabs = layer.frames.tabBars.find? (·.isRoot) := by
    rw [PresentationModel.rootTabs, PresentationModel.tabBars, hlayers, List.flatMap_cons,
      List.find?_append, find?_isRoot hothers, Option.or_none]
  rw [PresentationModel.layoutViewport, hroot]
  rfl

/-- Every popup is under its own id. -/
def Filed (c : ClientState) : Prop :=
  ∀ (floatingId : FloatingId) (window : FloatingRecord),
    c.floating[floatingId]? = some window → window.id = floatingId

theorem ZoomedIn.cached {window : FloatingRecord} (h : ZoomedIn c session fuel window)
    (hfiled : Filed c) : c.floating[window.id]? = some window := by
  obtain ⟨nodeId, -, -, hin⟩ := h
  obtain ⟨floatingId, hcached⟩ := exists_cached hin
  rw [hfiled floatingId window hcached]
  exact hcached

theorem ZoomedIn.unique {window other : FloatingRecord} (h : ZoomedIn c session fuel window)
    (hother : ZoomedIn c session fuel other) : other = window := by
  obtain ⟨nodeId, hmem, -, hin⟩ := h
  obtain ⟨nodeId', hmem', -, hin'⟩ := hother
  obtain rfl := Option.some.inj ((Option.mem_def.mp hmem).symm.trans hmem')
  exact Option.some.inj (Except.ok.inj (hin'.symm.trans hin))

theorem paneTitlesIn_popup {window : FloatingRecord} (hcached : c.floating[window.id]? = some window)
    (hborder : window.border = false) : paneTitlesIn c layout (some window.id) = layout.paneTitles := by
  rw [paneTitlesIn]
  simp [hcached, hborder]

/-- With every pane drawn that can be seen, and its terminal as large as its content, the viewport
comes out as it is unless a node is zoomed in a popup that does not cover it or has a frame. -/
theorem drawnViewport_eq_iff (hfiled : Filed c)
    (hsession : c.sessions[sessionId]? = some session) (hzoom : ZoomBelongs c session fuel)
    (hproject : PresentationModel.projectWith c fuel sessionId viewport layout = some (.ok m))
    (htitles : layout.paneTitles.shown = (PaneTitles.reported session).shown)
    {panes : List (NodeId × Protocol.BufferRecord)}
    (hpanes : VisiblePanes c (drawnNode c session) panes)
    (hdrawn : ∃ layer ∈ m.layers.head?, List.Forall₂ Sized panes layer.frames.leaves) :
    (∃ n, ∀ fuel ≥ n, drawnViewport c fuel sessionId = .ok m.layoutViewport) ↔
      ∀ window, ZoomedIn c session fuel window → Covers window viewport := by
  obtain ⟨session', hsession', hmodel⟩ := Option.map_eq_some_iff.mp hproject
  obtain rfl := Option.some.inj (hsession.symm.trans hsession')
  obtain ⟨⟨layers, floating⟩, hlayers, hm⟩ := Answer.ok_bind hmodel
  obtain rfl := Except.ok.inj hm
  obtain ⟨layer, hhead, hsized⟩ := hdrawn
  have hrows : titleRows (.reported session) = titleRows layout.paneTitles := by
    rw [titleRows, titleRows, htitles]
  cases drawn_of_projectLayers hzoom hlayers with
  | hidden hnone =>
    rw [hnone] at hhead
    cases hhead
  | @tiled top rest isRoot hzoomed hcons hrest hlayer =>
    subst hcons
    obtain rfl := Option.some.inj hhead
    have hnode := exists_of_projectLayer hlayer
    obtain ⟨extent, hextent, hwidth, hheight⟩ := hpanes.hasExtent (titleRows (.reported session))
      (onScreen_viewportRect viewport) hnode hsized
    rw [eventually_eq_iff (drawnViewport_eq hsession hextent), layoutViewport_eq rfl hrest, hwidth,
      hheight hrows]
    exact iff_of_true (by simp [viewportRect]) fun window hin ↦ absurd hin (hzoomed window)
  | @popup window top hin hwidth hheight hcons hlayer =>
    subst hcons
    obtain rfl := Option.some.inj hhead
    have hnode := exists_of_projectLayer hlayer
    have hinside := popupRect_inside hwidth hheight
    have hscreen := (onScreen_viewportRect viewport).of_inside hinside
    obtain ⟨-, -, hcells⟩ := hpanes.drawn hnode hsized
    obtain ⟨extent, hextent, hextentWidth, hextentHeight⟩ :=
      hpanes.hasExtent (titleRows (.reported session)) hscreen hnode hsized
    have hbars := isRoot_projectNode hnode
    have hcached : c.floating[window.id]? = some window := hin.cached hfiled
    have hwide : extent.width < 2 ^ 16 := by
      have hleft := hscreen.left
      have hright := hscreen.right
      omega
    -- Without a frame the title rows of the popup's panes are those of the tiled ones.
    have htall : window.border = false →
        extent.height = (popupRect window (viewportRect viewport)).height := by
      intro hborder
      rw [paneTitlesIn_popup hcached hborder] at hextentHeight
      rw [hextentHeight hrows, hiddenRow_of_not_isRoot hbars, add16_zero hscreen]
    have hlayout : (⟨sessionId, viewport, [top], floating⟩ : PresentationModel).layoutViewport =
        viewport := by
      have hzero : add16 viewport.height.toNat 0 = viewport.height.toNat :=
        add16_zero (onScreen_viewportRect viewport)
      rw [layoutViewport_eq rfl (List.forall_mem_nil _), hiddenRow_of_not_isRoot hbars]
      simp only [hzero, UInt16.ofNat_toNat]
    have hcovers := popupRect_eq_iff (not_or.mp hcells).1 (not_or.mp hcells).2 hwidth
    rw [eventually_eq_iff (drawnViewport_eq hsession hextent), hlayout]
    constructor
    · intro heq other hother
      rw [hin.unique hother]
      have hcols : extent.width = viewport.width.toNat := by
        rw [← congrArg Size.width heq]
        exact (UInt16.toNat_ofNat_of_lt' hwide).symm
      refine hcovers.mp ⟨hextentWidth.symm.trans hcols, fun hborder ↦ ?_⟩
      have hlow : extent.height < 2 ^ 16 := by
        have htop := hscreen.top
        have hbottom := hscreen.bottom
        rw [htall hborder]
        omega
      rw [← htall hborder, ← congrArg Size.height heq]
      exact (UInt16.toNat_ofNat_of_lt' hlow).symm
    · intro h
      have hcover := h window hin
      obtain ⟨hcols, hlines⟩ := hcovers.mpr hcover
      rw [hextentWidth, hcols, htall hcover.border, hlines hcover.border]
      simp only [UInt16.ofNat_toNat]

end

/-! ### A pane and a popup over it -/

def popupSession (zoomed : Option NodeId) : SessionRecord :=
  ⟨1, "main", 1, [7], some 2, some 7, zoomed, none, none, false⟩

/-- The pane has 80 columns and 24 rows, and the popup a frame and 38 columns and 8 rows in it. -/
def popupClient (zoomed : Option NodeId) : ClientState :=
  { ClientState.empty with
    sessions := Table.insertAll (·.id) ∅ [popupSession zoomed]
    buffers := Table.insertAll (·.id) ∅
      [shell 1 1, { shell 2 2 with ptySize := .new 38 8 }]
    nodes := Table.insertAll (·.id) ∅
      [⟨1, 1, none, .bufferView, some ⟨1, false, false, true, .new 80 24⟩, none, none, some 1⟩,
        ⟨2, 1, none, .bufferView, some ⟨2, true, false, true, .new 38 8⟩, none, none, some 2⟩]
    floating := Table.insertAll (·.id) ∅
      [⟨7, 1, 2, none, ⟨5, 3, 40, 10⟩, true, true, false, true⟩] }

/-- Zoomed in the popup, the screen of 80 columns and 24 rows comes out as one of 38 and 8. -/
theorem popup_zoomed :
    ∃ m, PresentationModel.projectWith (popupClient (some 2)) 5 1 ⟨80, 24⟩ plainLayout = some (.ok m) ∧
      (∃ panes, VisiblePanes (popupClient (some 2)) 2 panes ∧
        ∃ layer ∈ m.layers.head?, List.Forall₂ Sized panes layer.frames.leaves) ∧
      drawnViewport (popupClient (some 2)) 5 1 = .ok ⟨38, 8⟩ ∧ m.layoutViewport = ⟨80, 24⟩ := by
  refine ⟨_, rfl, ⟨_, .view rfl rfl rfl rfl, _, rfl, .cons ⟨rfl, by decide, rfl, rfl⟩ .nil⟩, rfl, rfl⟩

/-! ### A window of three panes -/

/-- A pane with two more beside it, one above the other in tabs of their own, and a popup. -/
def windowClient : ClientState :=
  { ClientState.empty with
    sessions := Table.insertAll (·.id) ∅
      [⟨1, "main", 1, [9], some 3, none, none, some ⟨80, 24⟩, none, true⟩]
    buffers := Table.insertAll (·.id) ∅
      [{ shell 1 3 with ptySize := .new 39 22 }, { shell 2 6 with ptySize := .new 40 9 },
        { shell 3 7 with ptySize := .new 40 10 }, { shell 4 8 with ptySize := .new 30 8 }]
    nodes := Table.insertAll (·.id) ∅
      [⟨1, 1, none, .tabs, none, none, some ⟨0, [⟨"edit", 2, false⟩]⟩, some 3⟩,
        ⟨2, 1, some 1, .split, none, some ⟨.vertical, [3, 4], [1, 1]⟩, none, some 3⟩,
        ⟨3, 1, some 2, .bufferView, some ⟨1, true, false, true, .new 39 22⟩, none, none, some 3⟩,
        ⟨4, 1, some 2, .tabs, none, none, some ⟨0, [⟨"build", 5, false⟩]⟩, some 6⟩,
        ⟨5, 1, some 4, .split, none, some ⟨.horizontal, [6, 7], [1, 1]⟩, none, some 6⟩,
        ⟨6, 1, some 5, .bufferView, some ⟨2, false, false, true, .new 40 9⟩, none, none, some 6⟩,
        ⟨7, 1, some 5, .bufferView, some ⟨3, false, false, true, .new 40 10⟩, none, none, some 7⟩,
        ⟨8, 1, none, .bufferView, some ⟨4, false, false, true, .new 30 8⟩, none, none, some 8⟩]
    floating := Table.insertAll (·.id) ∅
      [⟨9, 1, 8, none, ⟨5, 3, 32, 10⟩, false, true, false, true⟩] }

/-- The tab bar and the pane titles above. -/
def titledLayout : LayoutOptions := ⟨⟨.top, true⟩, .top⟩

/-- The panes of a split of two. -/
theorem visiblePanes_pair {c : ClientState} {id first second : NodeId} {node : NodeRecord}
    {split : SplitRecord} {panes panes' : List (NodeId × Protocol.BufferRecord)}
    (hnode : c.nodes[id]? = some node) (hkind : node.kind = .split)
    (hsplit : node.split = some split) (hkids : split.childIds = [first, second])
    (hne : first ≠ second) (h : VisiblePanes c first panes) (h' : VisiblePanes c second panes') :
    VisiblePanes c id (panes ++ panes') := by
  have hpanes : ∀ child ∈ split.childIds,
      VisiblePanes c child (if child = first then panes else panes') := by
    intro child hchild
    rw [hkids, List.mem_pair] at hchild
    rcases hchild with rfl | rfl
    · rwa [if_pos rfl]
    · rwa [if_neg (Ne.symm hne)]
  have hpair := VisiblePanes.split hnode hkind hsplit (by rw [hkids]; exact List.cons_ne_nil _ _)
    hpanes
  rwa [hkids, List.flatMap_cons, List.flatMap_cons, List.flatMap_nil, List.append_nil, if_pos rfl,
    if_neg (Ne.symm hne)] at hpair

theorem filed_windowClient : Filed windowClient := by
  intro floatingId window hwindow
  obtain hid | hempty := Table.get?_insertAll_eq_some hwindow
  · exact hid
  · simp at hempty

/-- The sizes of the three panes, their titles, the dividers and both tab bars add up to the screen. -/
theorem drawnViewport_windowClient :
    ∃ m, PresentationModel.projectWith windowClient 8 1 ⟨80, 24⟩ titledLayout = some (.ok m) ∧
      ∃ n, ∀ fuel ≥ n, drawnViewport windowClient fuel 1 = .ok m.layoutViewport := by
  have hpanes : VisiblePanes windowClient 1
      [(3, { shell 1 3 with ptySize := .new 39 22 }), (6, { shell 2 6 with ptySize := .new 40 9 }),
        (7, { shell 3 7 with ptySize := .new 40 10 })] := by
    have hlower : VisiblePanes windowClient 5
        [(6, { shell 2 6 with ptySize := .new 40 9 }), (7, { shell 3 7 with ptySize := .new 40 10 })] :=
      visiblePanes_pair rfl rfl rfl rfl (by decide) (.view rfl rfl rfl rfl) (.view rfl rfl rfl rfl)
    exact .tabs rfl rfl rfl rfl (visiblePanes_pair rfl rfl rfl rfl (by decide)
      (.view rfl rfl rfl rfl) (.tabs rfl rfl rfl rfl hlower))
  obtain ⟨m, hm, hdrawn⟩ : ∃ m, PresentationModel.projectWith windowClient 8 1 ⟨80, 24⟩ titledLayout =
      some (.ok m) ∧ ∃ layer ∈ m.layers.head?, List.Forall₂ Sized
        [(3, { shell 1 3 with ptySize := .new 39 22 }), (6, { shell 2 6 with ptySize := .new 40 9 }),
          (7, { shell 3 7 with ptySize := .new 40 10 })] layer.frames.leaves :=
    ⟨_, rfl, _, rfl, .cons ⟨rfl, by decide, rfl, rfl⟩ (.cons ⟨rfl, by decide, rfl, rfl⟩
      (.cons ⟨rfl, by decide, rfl, rfl⟩ .nil))⟩
  have hzoom : ZoomBelongs windowClient ⟨1, "main", 1, [9], some 3, none, none, some ⟨80, 24⟩, none, true⟩
      8 := by
    intro nodeId hmem
    cases hmem
  refine ⟨m, hm, (drawnViewport_eq_iff filed_windowClient rfl hzoom hm rfl hpanes hdrawn).mpr ?_⟩
  rintro window ⟨nodeId, hmem, -⟩
  cases hmem

end Embers.Client
