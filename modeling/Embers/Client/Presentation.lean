import Embers.Client.Grid
import Embers.Lib.Op

/-!
# Where the client draws a session

The projection places a session's nodes on the screen: a pane in a rectangle, a tab bar above or
below the active tab, and the children of a split side by side with a divider between them, in
shares by their sizes. This is the tiled layer, drawn before any floating window.

Sizes have 16 bits and saturate; places have 32 bits and a sign, and their sums are checked, as are
the sums of weights and of lengths.
-/

namespace Embers.Client

open Protocol

/-! ## Options -/

inductive TabBarPosition where
  | top
  | bottom
  deriving DecidableEq, Repr

structure RootTabBar where
  position : TabBarPosition
  visible : Bool
  deriving DecidableEq, Repr

/-- Where each pane draws its title row, if at all. -/
inductive PaneTitles where
  | off
  | top
  | bottom
  deriving DecidableEq, Repr

structure LayoutOptions where
  tabBar : RootTabBar
  paneTitles : PaneTitles
  deriving DecidableEq, Repr

/-! ## Frames -/

structure TabItem where
  title : String
  childId : NodeId
  active : Bool
  activity : ActivityState
  synchronizePanes : Bool
  deriving DecidableEq, Repr

structure TabsFrame where
  nodeId : NodeId
  rect : Rect
  tabs : List TabItem
  active : ℕ
  isRoot : Bool
  deriving DecidableEq, Repr

structure LeafFrame where
  nodeId : NodeId
  bufferId : BufferId
  rect : Rect
  /-- The part of `rect` the pane's terminal content is drawn in. -/
  contentRect : Rect
  /-- The row of `rect` the pane's title is drawn in, if it has one. -/
  titleRect : Option Rect
  title : String
  activity : ActivityState
  focused : Bool
  deriving DecidableEq, Repr

structure DividerFrame where
  direction : SplitDirection
  rect : Rect
  splitNodeId : NodeId
  /-- The divider is between child `index` and the next one. -/
  index : ℕ
  deriving DecidableEq, Repr

structure SplitFrame where
  nodeId : NodeId
  direction : SplitDirection
  rect : Rect
  childIds : List NodeId
  lengths : List ℕ
  deriving DecidableEq, Repr

structure Projection where
  tabBars : List TabsFrame
  leaves : List LeafFrame
  dividers : List DividerFrame
  splits : List SplitFrame
  deriving DecidableEq, Repr

namespace Projection

def empty : Projection := ⟨[], [], [], []⟩

/-- What is drawn after something else. -/
def append (p q : Projection) : Projection where
  tabBars := p.tabBars ++ q.tabBars
  leaves := p.leaves ++ q.leaves
  dividers := p.dividers ++ q.dividers
  splits := p.splits ++ q.splits

instance : Append Projection := ⟨append⟩

end Projection

inductive ProjectError where
  | nodeNotCached (id : NodeId)
  | missingPayload (id : NodeId)
  | bufferNotCached (id : BufferId)
  | invalidActive (id : NodeId) (active : UInt32)
  /-- A sum that does not fit its type, where the client panics. -/
  | overflow
  deriving DecidableEq, Repr

/-! ## Rectangles -/

/-- A sum of 32 bits with a sign. -/
def addI32 (a b : ℤ) : Answer ProjectError ℤ :=
  if -2 ^ 31 ≤ a + b ∧ a + b < 2 ^ 31 then pure (a + b) else .fail .overflow

/-- A sum of unsigned numbers of some bits. -/
def sumBits (bits : ℕ) (values : List ℕ) : Answer ProjectError ℕ :=
  if values.sum < 2 ^ bits then pure values.sum else .fail .overflow

def insetBottom (rect : Rect) (amount : ℕ) : Rect := { rect with height := rect.height - amount }

def insetTop (rect : Rect) (amount : ℕ) : Answer ProjectError Rect := do
  let consumed := min amount rect.height
  let y ← addI32 rect.y consumed
  pure { rect with y := y, height := rect.height - consumed }

/-- A pane's rectangle split into its title row, if it has one, and the rest. -/
def splitTitleRow (rect : Rect) : PaneTitles → Answer ProjectError (Option Rect × Rect)
  | .off => pure (none, rect)
  | .top => do
    let content ← insetTop rect 1
    pure (some { rect with height := 1 }, content)
  | .bottom => do
    let content := insetBottom rect 1
    let y ← addI32 rect.y content.height
    pure (some { rect with y := y, height := 1 }, content)

def axisLength (rect : Rect) : SplitDirection → ℕ
  | .horizontal => rect.height
  | .vertical => rect.width

/-- The shares of weights in a length: rounded down, and what is left for the last. -/
def shares (total weightSum : ℕ) : List ℕ → ℕ → Answer ProjectError (List ℕ)
  | [], _ => pure []
  | [_], used => pure [total - used]
  | weight :: weights, used => do
    let product ← sumBits 32 [total * weight]
    let length := product / weightSum % 2 ^ 16
    let rest ← shares total weightSum weights (add16 used length)
    pure (length :: rest)

/-- One more for each child in turn, while something is left. -/
def spread (lengths : List ℕ) : ℕ → ℕ → List ℕ
  | 0, _ => lengths
  | remainder + 1, index =>
    spread (lengths.modify (index % lengths.length) (add16 · 1)) remainder (index + 1)

def proportionalLengths (total : ℕ) (sizes : List UInt16) (childCount : ℕ) :
    Answer ProjectError (List ℕ) :=
  if childCount = 0 then pure []
  else if total = 0 then pure (List.replicate childCount 0)
  else do
    let weights :=
      if sizes.length = childCount ∧ sizes.any (· > 0) then sizes.map (·.toNat)
      else List.replicate childCount 1
    let weightSum ← sumBits 32 weights
    let lengths ← shares total (max weightSum 1) weights 0
    let sum ← sumBits 16 lengths
    pure (spread lengths (total - sum) 0)

/-- Children of some lengths, one after the other with a cell between them. -/
def placeChildren (rect : Rect) (direction : SplitDirection) :
    List ℕ → ℤ → ℤ → Answer ProjectError (List Rect)
  | [], _, _ => pure []
  | length :: lengths, x, y =>
    match direction with
    | .horizontal => do
      let next ← addI32 y (length + 1)
      let rest ← placeChildren rect direction lengths x next
      pure (⟨x, y, rect.width, length⟩ :: rest)
    | .vertical => do
      let next ← addI32 x (length + 1)
      let rest ← placeChildren rect direction lengths next y
      pure (⟨x, y, length, rect.height⟩ :: rest)

def splitRects (rect : Rect) (direction : SplitDirection) (sizes : List UInt16) (childCount : ℕ) :
    Answer ProjectError (List Rect) :=
  if childCount = 0 then pure []
  else do
    let dividerCount := min (childCount - 1) 65535
    let available := axisLength rect direction - dividerCount
    let lengths ← proportionalLengths available sizes childCount
    placeChildren rect direction lengths rect.x rect.y

/-- The divider after a child, unless it is the last. -/
def dividerRectFor (direction : SplitDirection) (rect : Rect) (index childCount : ℕ) :
    Answer ProjectError (Option Rect) :=
  if index + 1 = childCount then pure none
  else
    match direction with
    | .horizontal => do
      let y ← addI32 rect.y rect.height
      pure (some ⟨rect.x, y, rect.width, 1⟩)
    | .vertical => do
      let x ← addI32 rect.x rect.width
      pure (some ⟨x, rect.y, 1, rect.height⟩)

/-! ## Nodes -/

def activityRank : ActivityState → ℕ
  | .idle => 0
  | .activity => 1
  | .bell => 2

def maxActivity (left right : ActivityState) : ActivityState :=
  if activityRank right > activityRank left then right else left

/-- The strongest activity in a subtree. -/
def subtreeActivity (c : ClientState) : ℕ → NodeId → ActivityState
  | 0, _ => .idle
  | fuel + 1, nodeId =>
    match c.nodes[nodeId]? with
    | none => .idle
    | some node =>
      match node.kind with
      | .bufferView =>
        ((node.bufferView.bind fun view ↦ c.buffers[view.bufferId]?).map (·.activity)).getD .idle
      | .tabs =>
        (node.tabs.map fun tabs ↦ tabs.tabs.foldl (fun strongest tab ↦
          maxActivity strongest (subtreeActivity c fuel tab.childId)) .idle).getD .idle
      | .split =>
        (node.split.map fun split ↦ split.childIds.foldl (fun strongest childId ↦
          maxActivity strongest (subtreeActivity c fuel childId)) .idle).getD .idle

/-- The bar of a tabs node and the rest of its rectangle. Only the session's own bar may be at the
bottom, or hidden and without rows. -/
def splitTabBar (rect : Rect) (tabBar : RootTabBar) (rootBar : Bool) :
    Answer ProjectError (Rect × Rect) :=
  let barRows := if !rootBar ∨ tabBar.visible then 1 else 0
  if rootBar ∧ tabBar.position = .bottom then do
    let content := insetBottom rect barRows
    let y ← addI32 rect.y content.height
    pure ({ rect with y := y, height := barRows }, content)
  else do
    let content ← insetTop rect barRows
    pure ({ rect with height := barRows }, content)

/-- The children of a split, each with the divider after it. -/
def projectChildren (project : NodeId → Rect → Answer ProjectError Projection)
    (direction : SplitDirection) (splitNodeId : NodeId) (childCount : ℕ) :
    ℕ → List (NodeId × Rect) → Answer ProjectError Projection
  | _, [] => pure .empty
  | index, (childId, rect) :: rest => do
    let child ← project childId rect
    let divider ← dividerRectFor direction rect index childCount
    let others ← projectChildren project direction splitNodeId childCount (index + 1) rest
    let dividers := divider.toList.map fun rect ↦ ⟨direction, rect, splitNodeId, index⟩
    pure (child ++ ⟨[], [], dividers, []⟩ ++ others)

def projectNode (c : ClientState) (focusedLeafId : Option NodeId) (layout : LayoutOptions) :
    ℕ → NodeId → Rect → Bool → Answer ProjectError Projection
  | 0, _, _, _ => .error .diverges
  | fuel + 1, nodeId, rect, isRoot =>
    if rect.width = 0 ∨ rect.height = 0 then pure .empty
    else do
      let node ← Answer.ofOption (.nodeNotCached nodeId) c.nodes[nodeId]?
      match node.kind with
      | .bufferView => do
        let view ← Answer.ofOption (.missingPayload node.id) node.bufferView
        let buffer ← Answer.ofOption (.bufferNotCached view.bufferId) c.buffers[view.bufferId]?
        let (titleRect, contentRect) ← splitTitleRow rect layout.paneTitles
        pure ⟨[], [⟨node.id, buffer.id, rect, contentRect, titleRect, buffer.title, buffer.activity,
          focusedLeafId = some node.id⟩], [], []⟩
      | .tabs => do
        let tabs ← Answer.ofOption (.missingPayload node.id) node.tabs
        let activeChild ←
          Answer.ofOption (.invalidActive node.id tabs.active) tabs.tabs[tabs.active.toNat]?
        let (barRect, contentRect) ← splitTabBar rect layout.tabBar isRoot
        let items := tabs.tabs.mapIdx fun index tab ↦
          ⟨tab.title, tab.childId, index = tabs.active.toNat, subtreeActivity c fuel tab.childId,
            tab.synchronizePanes⟩
        let content ← projectNode c focusedLeafId layout fuel activeChild.childId contentRect false
        pure (⟨[⟨node.id, barRect, items, tabs.active.toNat, isRoot⟩], [], [], []⟩ ++ content)
      | .split => do
        let split ← Answer.ofOption (.missingPayload node.id) node.split
        if split.childIds = [] then pure .empty
        else do
          let rects ← splitRects rect split.direction split.sizes split.childIds.length
          let frame : SplitFrame := ⟨node.id, split.direction, rect, split.childIds,
            rects.map (axisLength · split.direction)⟩
          let children ← projectChildren
            (fun childId rect ↦ projectNode c focusedLeafId layout fuel childId rect false)
            split.direction node.id split.childIds.length 0 (split.childIds.zip rects)
          pure (⟨[], [], [], [frame]⟩ ++ children)

/-- The whole of a viewport. -/
def viewportRect (viewport : Size) : Rect := ⟨0, 0, viewport.width.toNat, viewport.height.toNat⟩

end Embers.Client
