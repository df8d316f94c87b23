import Embers.Lib.Reorder
import Embers.State.Close

/-!
# Placing nodes in a layout

Adding tabs, wrapping nodes in new containers, and moving panes: what puts a node somewhere in an
existing layout. Operations that take a node out of one place before they put it in another
remember the place, and go back to it when the second half fails.
-/

namespace Embers

/-- The view a buffer is attached to. -/
def BufferAttachment.view : BufferAttachment → Option NodeId
  | .attached nodeId => some nodeId
  | .detached => none

/-- Where a joined buffer goes, next to a node. -/
inductive NodeJoinPlacement where
  | tabBefore
  | tabAfter
  | left
  | right
  | up
  | down
  deriving DecidableEq, Repr

namespace ServerState

/-! ## Tabs -/

/-- What a node must be to become a tab of `tabsId`, and where. -/
def checkNewTab (tabsId : NodeId) (index : ℕ) (child : NodeId) (sessionId : SessionId)
    (s : ServerState) : Read Unit := do
  s.ensureNodeBelongsTo child sessionId
  if child = tabsId then
    .fail (.invalidInput "tabs container cannot contain itself")
  else do
    let tabs ← s.tabsNode tabsId
    if (← s.nodeParent child).isSome then
      .fail (.invalidInput "new tab child must not already have a parent")
    else if s.isSessionRoot child then
      .fail (.conflict "session root cannot become a tab child")
    else if (s.floatingIdByRoot child).isSome then
      .fail (.conflict "floating root cannot become a tab child")
    else if tabs.tabs.length < index then
      .fail (.notFound s!"tab insertion index {index} is out of range for node {tabsId}")
    else
      pure ()

/-- The new tab becomes the active one, whether or not it is focused. -/
def addTabSiblingAtWithFocus (fuel : ℕ) (tabsId : NodeId) (index : ℕ) (title : String)
    (child : NodeId) (doFocus : Bool) : StateOp ℕ := do
  let sessionId ← .ask (·.nodeSessionId tabsId)
  .ask (checkNewTab tabsId index child sessionId)
  setParent child (some tabsId)
  .modify (mapNode tabsId (Node.mapTabs fun tabs ↦ { tabs with
    tabs := tabs.tabs.insertIdx index (TabEntry.new title child)
    active := index }))
  if doFocus then do
    focusCandidateOrHeal fuel sessionId child
    pure index
  else
    pure index

def addTabSiblingAt (fuel : ℕ) (tabsId : NodeId) (index : ℕ) (title : String) (child : NodeId) :
    StateOp ℕ :=
  addTabSiblingAtWithFocus fuel tabsId index title child true

def addTabSibling (fuel : ℕ) (tabsId : NodeId) (title : String) (child : NodeId) : StateOp ℕ := do
  let tabs ← .ask (·.tabsNode tabsId)
  addTabSiblingAtWithFocus fuel tabsId tabs.tabs.length title child true

/-- Place a new view, and take it back when that fails. -/
def placeNewView {α : Type} (fuel : ℕ) (view : NodeId) (place : StateOp α) : StateOp α := do
  match ← place.attempt with
  | .ok a => pure a
  | .error error => do
    discardBufferView fuel view
    .throw error

def addTabFromBufferAt (fuel : ℕ) (tabsId : NodeId) (index : ℕ) (title : String)
    (bufferId : BufferId) : StateOp ℕ := do
  let tabs ← .ask (·.tabsNode tabsId)
  let child ← createBufferView tabs.sessionId bufferId
  placeNewView fuel child (addTabSiblingAt fuel tabsId index title child)

def addTabFromBuffer (fuel : ℕ) (tabsId : NodeId) (title : String) (bufferId : BufferId) :
    StateOp ℕ := do
  let tabs ← .ask (·.tabsNode tabsId)
  addTabFromBufferAt fuel tabsId tabs.tabs.length title bufferId

def addRootTabFromBuffer (fuel : ℕ) (sessionId : SessionId) (title : String)
    (bufferId : BufferId) : StateOp ℕ := do
  let rootTabs ← .ask (·.rootTabs sessionId)
  let child ← createBufferView sessionId bufferId
  placeNewView fuel child (addTabSibling fuel rootTabs title child)

def addRootTabFromSubtree (fuel : ℕ) (sessionId : SessionId) (title : String) (child : NodeId) :
    StateOp ℕ := do
  let rootTabs ← .ask (·.rootTabs sessionId)
  addTabSibling fuel rootTabs title child

/-! ## Wrapping -/

def wrapNodeInTabs (nodeId : NodeId) (title : String) : StateOp NodeId := do
  let sessionId ← .ask (·.nodeSessionId nodeId)
  let oldParent ← .ask (·.nodeParent nodeId)
  let tabsId ← nextNodeId
  let node ← .ask (·.node nodeId)
  .modify (insertNode tabsId (.tabs {
    sessionId
    parent := oldParent
    tabs := [TabEntry.new title nodeId]
    active := 0
    lastFocusedDescendant := node.lastFocusedDescendant nodeId }))
  setParent nodeId (some tabsId)
  repointOwnerReference sessionId oldParent nodeId tabsId
  pure tabsId

/-- What a node must be to share a new split with `nodeId`. -/
def checkSplitSibling (nodeId sibling : NodeId) (sessionId : SessionId) (s : ServerState) :
    Read Unit := do
  s.ensureNodeBelongsTo sibling sessionId
  if nodeId = sibling then
    .fail (.invalidInput "split sibling cannot be the same node")
  else if (← s.nodeParent sibling).isSome then
    .fail (.invalidInput "split sibling must not already have a parent")
  else if s.isSessionRoot sibling then
    .fail (.conflict "session root cannot become a split child")
  else if (s.floatingIdByRoot sibling).isSome then
    .fail (.conflict "floating root cannot become a split child")
  else if s.isSessionRoot nodeId then
    .fail (.conflict "session root tabs cannot be wrapped in a split")
  else
    pure ()

/-- Put a new split of the two children where `nodeId`, one of them, was. -/
def insertSplitAround (sessionId : SessionId) (nodeId : NodeId) (oldParent : Option NodeId)
    (splitId : NodeId) (direction : SplitDirection) (first second : NodeId)
    (lastFocusedDescendant : Option NodeId) : StateOp Unit := do
  .modify (insertNode splitId (.split {
    sessionId, direction, lastFocusedDescendant
    parent := oldParent
    children := [first, second]
    sizes := [1, 1] }))
  setParent first (some splitId)
  setParent second (some splitId)
  repointOwnerReference sessionId oldParent nodeId splitId

def wrapNodeInSplitWithFocus (fuel : ℕ) (nodeId : NodeId) (direction : SplitDirection)
    (sibling : NodeId) (insertBefore doFocus : Bool) : StateOp NodeId := do
  let sessionId ← .ask (·.nodeSessionId nodeId)
  .ask (checkSplitSibling nodeId sibling sessionId)
  let oldParent ← .ask (·.nodeParent nodeId)
  let splitId ← nextNodeId
  let candidate ← .ask (·.resolveFocusCandidate fuel sibling)
  if insertBefore then
    insertSplitAround sessionId nodeId oldParent splitId direction sibling nodeId candidate
  else
    insertSplitAround sessionId nodeId oldParent splitId direction nodeId sibling candidate
  if doFocus then do
    focusCandidateOrHeal fuel sessionId sibling
    pure splitId
  else
    pure splitId

def wrapNodeInSplit (fuel : ℕ) (nodeId : NodeId) (direction : SplitDirection) (sibling : NodeId)
    (insertBefore : Bool) : StateOp NodeId :=
  wrapNodeInSplitWithFocus fuel nodeId direction sibling insertBefore true

def splitLeafWithNewBuffer (fuel : ℕ) (leafId : NodeId) (direction : SplitDirection)
    (newBuffer : BufferId) : StateOp NodeId := do
  .ask (·.ensureLeaf leafId)
  let sessionId ← .ask (·.nodeSessionId leafId)
  let oldParent ← .ask (·.nodeParent leafId)
  let newLeaf ← createBufferView sessionId newBuffer
  let splitId ← nextNodeId
  insertSplitAround sessionId leafId oldParent splitId direction leafId newLeaf (some newLeaf)
  focusLeaf fuel sessionId newLeaf
  pure splitId

def createFloatingFromBufferWithOptions (fuel : ℕ) (sessionId : SessionId) (bufferId : BufferId)
    (geometry : FloatGeometry) (title : Option String) (focus closeOnEmpty : Bool) :
    StateOp FloatingId := do
  let rootNode ← createBufferView sessionId bufferId
  placeNewView fuel rootNode
    (createFloatingWindowWithOptions fuel sessionId rootNode geometry title focus closeOnEmpty)

/-! ## Moving among siblings -/

def sharedParent (firstNodeId secondNodeId : NodeId) (s : ServerState) : Read NodeId := do
  if firstNodeId = secondNodeId then
    .fail (.invalidInput "sibling operations require two distinct nodes")
  else do
    let firstParent ← .ofOption (.invalidInput s!"node {firstNodeId} has no parent")
      (← s.nodeParent firstNodeId)
    let secondParent ← .ofOption (.invalidInput s!"node {secondNodeId} has no parent")
      (← s.nodeParent secondNodeId)
    if firstParent ≠ secondParent then
      .fail (.conflict "node ergonomics are restricted to siblings with the same parent")
    else
      pure firstParent

/-- The positions of two children, or the error for the first that is missing. -/
def siblingPositions (children : List NodeId) (first second : NodeId)
    (missing : NodeId → MuxError) : Read (ℕ × ℕ) := do
  let i ← .ofOption (missing first) (children.idxOf? first)
  let j ← .ofOption (missing second) (children.idxOf? second)
  pure (i, j)

/-- Change the order of two children of one parent, by their positions. -/
def rearrange (firstNodeId secondNodeId : NodeId)
    (missingInSplit missingInTabs : NodeId → NodeId → MuxError)
    (inSplit : ℕ → ℕ → SplitNode → SplitNode) (inTabs : ℕ → ℕ → TabsNode → TabsNode) :
    StateOp Unit :=
  if firstNodeId = secondNodeId then
    pure ()
  else do
    let parentId ← .ask (sharedParent firstNodeId secondNodeId)
    match ← .ask (·.node parentId) with
    | .split split => do
      let (first, second) ← .ask fun _ ↦
        siblingPositions split.children firstNodeId secondNodeId (missingInSplit parentId)
      .modify (mapNode parentId (Node.mapSplit (inSplit first second)))
    | .tabs tabs => do
      let (first, second) ← .ask fun _ ↦
        siblingPositions tabs.children firstNodeId secondNodeId (missingInTabs parentId)
      .modify (mapNode parentId (Node.mapTabs (inTabs first second)))
    | .bufferView _ => .throw (.invalidInput "buffer views do not have sibling children")

def swapSiblingNodes (firstNodeId secondNodeId : NodeId) : StateOp Unit :=
  rearrange firstNodeId secondNodeId
    (fun parentId child ↦ .notFound s!"node {child} is not a child of split {parentId}")
    (fun parentId child ↦ .notFound s!"node {child} is not a child of tabs {parentId}")
    (fun first second split ↦ { split with
      children := swapIdx split.children first second
      sizes := swapIdx split.sizes first second })
    (fun first second tabs ↦ { tabs with
      tabs := swapIdx tabs.tabs first second
      active :=
        if tabs.active = first then second
        else if tabs.active = second then first
        else tabs.active })

/-- Where a child taken from `source` goes to stand before or after the one at `target`. -/
def insertPosition (source target : ℕ) (before : Bool) : ℕ :=
  let insertAt := if source < target then target - 1 else target
  if before then insertAt else insertAt + 1

/-- The active index after the tab at `source` moved to `insertAt`. -/
def activeAfterMove (active source insertAt : ℕ) : ℕ :=
  if active = source then insertAt
  else if source < active ∧ active ≤ insertAt then active - 1
  else if active < source ∧ insertAt ≤ active then active + 1
  else active

def reorderSiblingNode (nodeId siblingNodeId : NodeId) (before : Bool) : StateOp Unit :=
  rearrange nodeId siblingNodeId
    (fun parentId child ↦ .notFound s!"node {child} is not in split {parentId}")
    (fun parentId child ↦ .notFound s!"node {child} is not in tabs {parentId}")
    (fun source target split ↦
      let insertAt := insertPosition source target before
      { split with
        children := moveIdx split.children source insertAt
        sizes := moveIdx split.sizes source insertAt })
    (fun source target tabs ↦
      let insertAt := insertPosition source target before
      { tabs with
        tabs := moveIdx tabs.tabs source insertAt
        active := activeAfterMove tabs.active source insertAt })

def moveNodeBefore (nodeId siblingNodeId : NodeId) : StateOp Unit :=
  reorderSiblingNode nodeId siblingNodeId true

def moveNodeAfter (nodeId siblingNodeId : NodeId) : StateOp Unit :=
  reorderSiblingNode nodeId siblingNodeId false

/-! ## Moving a buffer -/

/-- Close the view the buffer is moved from. -/
def leaveSource (fuel : ℕ) (targetSession : SessionId) : Option NodeId → StateOp Unit
  | none => pure ()
  | some sourceView => do
    let sourceSession ← .ask (·.nodeSessionId sourceView)
    if sourceSession ≠ targetSession then
      .throw (.conflict "attached buffers must be detached before moving across sessions")
    else
      closeNode fuel sourceView

def moveBufferToLeaf (fuel : ℕ) (bufferId : BufferId) (targetLeaf : NodeId) : StateOp Unit := do
  .ask (·.ensureLeaf targetLeaf)
  let targetSession ← .ask (·.nodeSessionId targetLeaf)
  let sourceView := (← .ask (·.buffer bufferId)).attachment.view
  if sourceView = some targetLeaf then
    focusLeaf fuel targetSession targetLeaf
  else do
    leaveSource fuel targetSession sourceView
    attachBuffer bufferId targetLeaf
    focusLeaf fuel targetSession targetLeaf

end ServerState

end Embers
