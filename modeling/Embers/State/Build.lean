import Embers.State.Focus

/-!
# Building layouts

Sessions, buffers and views, the containers that hold them, and popups. A node given to one of
these operations is adopted: it gets the new container as its parent. Each operation checks for
itself what it adopts.
-/

namespace Embers

namespace ServerState

/-! ## Sessions and buffers -/

/-- A tabs node without tabs. -/
def emptyTabs (sessionId : SessionId) : Node :=
  .tabs ⟨sessionId, none, [], 0, none⟩

def createSession (name : String) (now : Timestamp) : StateOp SessionId := do
  let sessionId ← .update fun s ↦ (s.sessionIds.peek, { s with sessionIds := s.sessionIds.advance })
  let rootNode ← nextNodeId
  .modify (insertNode rootNode (emptyTabs sessionId))
  .modify fun s ↦ { s with sessions := s.sessions.insert sessionId {
    name, rootNode
    floating := []
    focusedLeaf := none
    focusedFloating := none
    zoomedNode := none
    viewport := s.lastViewport
    paneTitles := s.lastPaneTitles
    baseIndex := s.lastBaseIndex
    focusHistory := []
    createdAt := now } }
  pure sessionId

def nextBufferId : StateOp BufferId :=
  .update fun s ↦ (s.bufferIds.peek, { s with bufferIds := s.bufferIds.advance })

def insertBuffer (bufferId : BufferId) (buffer : Buffer) (s : ServerState) : ServerState :=
  { s with buffers := s.buffers.insert bufferId buffer }

def createBufferWithEnv (title : String) (command : List String) (cwd : Option String)
    (env : Table String String) (now : Timestamp) : StateOp BufferId := do
  let bufferId ← nextBufferId
  .modify (insertBuffer bufferId (Buffer.new title command cwd env now))
  pure bufferId

def createHelperBuffer (title : String) (sourceBufferId : BufferId) (scope : HelperBufferScope)
    (cwd : Option String) (lines : List String) (now : Timestamp) : StateOp BufferId := do
  let source ← .ask (·.buffer sourceBufferId)
  let bufferId ← nextBufferId
  .modify (insertBuffer bufferId { Buffer.new title [] cwd ∅ now with
    ptySize := source.ptySize
    lastSnapshotSeq := 1
    kind := .helper ⟨sourceBufferId, scope, lines⟩ })
  pure bufferId

/-! ## Views -/

def setBufferAttached (bufferId : BufferId) (viewId : NodeId) : StateOp Unit :=
  bufferMut bufferId fun buffer ↦ { buffer with attachment := .attached viewId, everAttached := true }

/-- Whether the buffer is attached to a view other than `nodeId`. -/
def attachedElsewhere (bufferId : BufferId) (nodeId : NodeId) : BufferAttachment → Read Unit
  | .attached existingView =>
    if existingView ≠ nodeId then
      .fail (.conflict s!"buffer {bufferId} is already attached to view {existingView}")
    else
      pure ()
  | .detached => pure ()

def attachBuffer (bufferId : BufferId) (nodeId : NodeId) : StateOp Unit := do
  let buffer ← .ask (·.buffer bufferId)
  .ask fun _ ↦ attachedElsewhere bufferId nodeId buffer.attachment
  let currentBuffer ← .ask (·.bufferViewBufferId nodeId)
  if currentBuffer ≠ bufferId then do
    .modify (mapBuffer currentBuffer fun previous ↦
      if previous.attachment = .attached nodeId then
        { previous with attachment := .detached }
      else
        previous)
    .modify (mapNode nodeId (Node.mapView fun leaf ↦ { leaf with bufferId }))
    setBufferAttached bufferId nodeId
  else
    setBufferAttached bufferId nodeId

def createUnattachedBufferView (sessionId : SessionId) (bufferId : BufferId) : StateOp NodeId := do
  .ask (·.ensureSessionExists sessionId)
  let buffer ← .ask (·.buffer bufferId)
  let nodeId ← nextNodeId
  .modify (insertNode nodeId (.bufferView {
    sessionId, bufferId
    parent := none
    view := ⟨false, false, true, buffer.ptySize⟩ }))
  pure nodeId

def createBufferView (sessionId : SessionId) (bufferId : BufferId) : StateOp NodeId := do
  let nodeId ← createUnattachedBufferView sessionId bufferId
  match ← (attachBuffer bufferId nodeId).attempt with
  | .ok () => pure nodeId
  | .error error => do
    .modify (eraseNode nodeId)
    .throw error

/-! ## Containers -/

/-- The children a new container may take: nodes of the session, each once, without a parent. -/
def checkAdoptable (sessionId : SessionId) (reused : NodeId → MuxError)
    (hasParent : NodeId → MuxError) (s : ServerState) : List NodeId → List NodeId → Read Unit
  | _, [] => pure ()
  | seen, child :: rest => do
    s.ensureNodeBelongsTo child sessionId
    if child ∈ seen then
      .fail (reused child)
    else if (← s.nodeParent child).isSome then
      .fail (hasParent child)
    else
      checkAdoptable sessionId reused hasParent s (child :: seen) rest

def createSplitNode (sessionId : SessionId) (direction : SplitDirection) (children : List NodeId) :
    StateOp NodeId := do
  .ask (·.ensureSessionExists sessionId)
  if children.length < 2 then
    .throw (.invalidInput "split nodes require at least two children")
  else do
    let nodeId ← nextNodeId
    .ask fun s ↦ checkAdoptable sessionId
      (fun child ↦ .invalidInput s!"split node {nodeId} reuses child {child}")
      (fun child ↦ .invalidInput s!"split child {child} already has a parent") s [] children
    Op.forEach (fun child ↦ setParent child (some nodeId)) children
    .modify (insertNode nodeId (.split {
      sessionId, direction, children
      parent := none
      sizes := List.replicate children.length 1
      lastFocusedDescendant := none }))
    pure nodeId

def createTabsNode (sessionId : SessionId) (tabs : List TabEntry) (active : ℕ) :
    StateOp NodeId := do
  .ask (·.ensureSessionExists sessionId)
  let nodeId ← nextNodeId
  .ask fun s ↦ checkAdoptable sessionId
    (fun child ↦ .invalidInput s!"tabs node {nodeId} reuses child {child}")
    (fun child ↦ .invalidInput s!"tabs child {child} already has a parent") s []
    (tabs.map TabEntry.child)
  Op.forEach (fun child ↦ setParent child (some nodeId)) (tabs.map TabEntry.child)
  .modify (insertNode nodeId (.tabs {
    sessionId, tabs
    parent := none
    active := if tabs.isEmpty then 0 else min active (tabs.length - 1)
    lastFocusedDescendant := none }))
  pure nodeId

/-! ## Popups -/

def defaultFloatingWidthPadding : ℕ := 8
def defaultFloatingHeightPadding : ℕ := 4
def defaultFloatingMinWidth : ℕ := 40
def defaultFloatingMaxWidth : ℕ := 120
def defaultFloatingMinHeight : ℕ := 10
def defaultFloatingMaxHeight : ℕ := 40

/-- On numbers below `2¹⁶`; the subtraction saturates at zero. -/
def defaultFloatingDimension (total padding min max : ℕ) : ℕ :=
  let available := Max.max (total - padding) 1
  Max.max (Min.min available max) (Min.min min (Max.max total 1))

/-- `u16::saturating_add`. -/
def saturatingAdd (a b : UInt16) : UInt16 := .ofNat (min (a.toNat + b.toNat) 65535)

/-- The size of a split from those of the children it shows, with a divider between each two. -/
def splitSize (direction : SplitDirection) (sizes : List PtySize) : Option PtySize :=
  if sizes.isEmpty then
    none
  else
    let dividerCount := UInt16.ofNat (min (sizes.length - 1) 65535)
    let across := fun (extent : PtySize → UInt16) ↦
      (sizes.map extent).foldl (fun widest size ↦ if widest < size then size else widest) 0
    let along := fun (extent : PtySize → UInt16) ↦
      saturatingAdd ((sizes.map extent).foldl saturatingAdd 0) dividerCount
    match direction with
    | .horizontal => some (PtySize.new (across PtySize.cols) (along PtySize.rows))
    | .vertical => some (PtySize.new (along PtySize.cols) (across PtySize.rows))

def visibleNodeSize (s : ServerState) : ℕ → NodeId → Read (Option PtySize)
  | 0, _ => .error .diverges
  | fuel + 1, nodeId => do
    match ← s.node nodeId with
    | .bufferView node => pure (some node.view.lastRenderSize)
    | .split split => do
      let sizes ← Answer.collect (fun child ↦ do
        pure (← visibleNodeSize s fuel child).toList) split.children
      pure (splitSize split.direction sizes)
    | .tabs tabs =>
      match tabs.activeChild with
      | some child => visibleNodeSize s fuel child
      | none => pure none

/-- The size a pane was last drawn at. -/
def anchorSize (s : ServerState) : Option NodeId → Read (Option PtySize)
  | none => pure none
  | some leafId => do
    match ← s.node leafId with
    | .bufferView node => pure (some node.view.lastRenderSize)
    | _ => .fail (.internal s!"floating geometry anchor {leafId} is not a buffer view")

def defaultFloatingGeometry (fuel : ℕ) (sessionId : SessionId) (s : ServerState) :
    Read FloatGeometry := do
  let session ← s.session sessionId
  let visibleLeaf ← s.resolveVisibleLeaf fuel session.rootNode
  let firstLeaf ← s.resolveFirstLeaf fuel session.rootNode
  let rootSize ← s.visibleNodeSize fuel session.rootNode
  let anchored ← s.anchorSize ((session.focusedLeaf.or visibleLeaf).or firstLeaf)
  let size := (rootSize.or anchored).getD (PtySize.new 80 24)
  let width := defaultFloatingDimension size.cols.toNat defaultFloatingWidthPadding
    defaultFloatingMinWidth defaultFloatingMaxWidth
  let height := defaultFloatingDimension size.rows.toNat defaultFloatingHeightPadding
    defaultFloatingMinHeight defaultFloatingMaxHeight
  pure ⟨.ofNat ((size.cols.toNat - width) / 2), .ofNat ((size.rows.toNat - height) / 2),
    .ofNat width, .ofNat height⟩

/-- What a node must be to become the root of a popup. -/
def checkFloatingRoot (rootNode : NodeId) (s : ServerState) : Read Unit := do
  if (← s.nodeParent rootNode).isSome then
    .fail (.invalidInput "floating roots must not already have a parent")
  else if s.isSessionRoot rootNode then
    .fail (.invalidInput "session root cannot also become a floating root")
  else if (s.floatingIdByRoot rootNode).isSome then
    .fail (.invalidInput "node is already a floating root")
  else
    pure ()

/-- Take back a floating window whose focus failed. -/
def forgetFloating (floatingId : FloatingId) (sessionId : SessionId) (s : ServerState) :
    ServerState :=
  mapSession sessionId
    (fun session ↦ { session with floating := session.floating.filter (· ≠ floatingId) })
    { s with floating := s.floating.erase floatingId }

def createFloatingWindowWithOptions (fuel : ℕ) (sessionId : SessionId) (rootNode : NodeId)
    (geometry : FloatGeometry) (title : Option String) (focus closeOnEmpty : Bool) :
    StateOp FloatingId := do
  .ask (·.ensureSessionExists sessionId)
  .ask (·.ensureNodeBelongsTo rootNode sessionId)
  .ask (checkFloatingRoot rootNode)
  let floatingId ← .update fun s ↦
    (s.floatingIds.peek, { s with floatingIds := s.floatingIds.advance })
  .modify fun s ↦ { s with floating := s.floating.insert floatingId {
    sessionId, rootNode, title, geometry, closeOnEmpty
    focused := false
    visible := true
    border := true
    lastFocusedLeaf := none } }
  sessionMut sessionId fun session ↦ { session with floating := session.floating ++ [floatingId] }
  if focus then do
    match ← (focusFloating fuel floatingId).attempt with
    | .ok () => pure floatingId
    | .error error => do
      .modify (forgetFloating floatingId sessionId)
      .throw error
  else
    pure floatingId

end ServerState

end Embers
