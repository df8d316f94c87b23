import Embers.State.Walk

/-!
# Changing the links of the layout

The private half of `ServerState`: the `*_mut` accessors, the rewriting of child lists and parent
pointers, the removal of whole subtrees, and the normalization that follows a removal. A container
left with one child is replaced by it in its own owner; a tabs node left with none is removed.
-/

namespace Embers

/-! ## Pure changes to one record -/

namespace Node

/-- Change a tabs node; any other node is left alone. -/
def mapTabs (f : TabsNode → TabsNode) : Node → Node
  | .tabs node => .tabs (f node)
  | node => node

/-- Change a split node; any other node is left alone. -/
def mapSplit (f : SplitNode → SplitNode) : Node → Node
  | .split node => .split (f node)
  | node => node

/-- Change a buffer view; any other node is left alone. -/
def mapView (f : BufferViewNode → BufferViewNode) : Node → Node
  | .bufferView node => .bufferView (f node)
  | node => node

/-- Put `newChild` where the child list names `oldChild` first. -/
def replaceChildId (oldChild newChild : NodeId) : Node → Node
  | .bufferView node => .bufferView node
  | .split node => .split { node with children := node.children.replace oldChild newChild }
  | .tabs node => .tabs { node with tabs := node.tabs.replaceF fun tab ↦
      if tab.child = oldChild then some { tab with child := newChild } else none }

end Node

/-- The active index after the tab at `index` was removed, leaving `tabs`. -/
def activeAfterRemoval (tabs : List TabEntry) (active index : ℕ) : ℕ :=
  if tabs.isEmpty then 0
  else if index < active then active - 1
  else if tabs.length ≤ active then tabs.length - 1
  else active

namespace Node

/-- Take the first mention of `childId` out of the child list, with its size or its tab. -/
def removeChildId (childId : NodeId) : Node → Node
  | .bufferView node => .bufferView node
  | .split node => .split { node with
      children := node.children.erase childId
      sizes := node.sizes.eraseIdx (node.children.idxOf childId) }
  | .tabs node =>
    let remaining := node.tabs.eraseP fun tab ↦ tab.child = childId
    .tabs { node with
      tabs := remaining
      active := activeAfterRemoval remaining node.active (node.children.idxOf childId) }

end Node

/-- The split with its sizes reset to equal ones when they do not fit its children. -/
def SplitNode.fitSizes (split : SplitNode) : SplitNode :=
  if split.sizes.length ≠ split.children.length ∨ 0 ∈ split.sizes then
    { split with sizes := List.replicate split.children.length 1 }
  else
    split

namespace ServerState

def mapSession (sessionId : SessionId) (f : Session → Session) (s : ServerState) : ServerState :=
  { s with sessions := s.sessions.modify sessionId f }

def mapBuffer (bufferId : BufferId) (f : Buffer → Buffer) (s : ServerState) : ServerState :=
  { s with buffers := s.buffers.modify bufferId f }

def mapNode (nodeId : NodeId) (f : Node → Node) (s : ServerState) : ServerState :=
  { s with nodes := s.nodes.modify nodeId f }

def mapFloating (floatingId : FloatingId) (f : FloatingWindow → FloatingWindow)
    (s : ServerState) : ServerState :=
  { s with floating := s.floating.modify floatingId f }

def insertNode (nodeId : NodeId) (node : Node) (s : ServerState) : ServerState :=
  { s with nodes := s.nodes.insert nodeId node }

def eraseNode (nodeId : NodeId) (s : ServerState) : ServerState :=
  { s with nodes := s.nodes.erase nodeId }

/-- `node_ids.next()`. -/
def nextNodeId : StateOp NodeId :=
  .update fun s ↦ (s.nodeIds.peek, { s with nodeIds := s.nodeIds.advance })

/-! ## The `*_mut` accessors -/

def sessionMut (sessionId : SessionId) (f : Session → Session) : StateOp Unit := do
  let _ ← .ask (·.session sessionId)
  .modify (mapSession sessionId f)

def bufferMut (bufferId : BufferId) (f : Buffer → Buffer) : StateOp Unit := do
  let _ ← .ask (·.buffer bufferId)
  .modify (mapBuffer bufferId f)

def nodeMut (nodeId : NodeId) (f : Node → Node) : StateOp Unit := do
  let _ ← .ask (·.node nodeId)
  .modify (mapNode nodeId f)

def floatingMut (floatingId : FloatingId) (f : FloatingWindow → FloatingWindow) :
    StateOp Unit := do
  let _ ← .ask (·.floatingWindow floatingId)
  .modify (mapFloating floatingId f)

/-- Change a tabs node, refusing any other node. -/
def tabsMut (nodeId : NodeId) (f : TabsNode → TabsNode) : StateOp Unit := do
  let _ ← .ask (·.tabsNode nodeId)
  .modify (mapNode nodeId (Node.mapTabs f))

/-! An accessor fails on a missing entry, and then changes nothing: in every case the state it
leaves is the mapped one. -/

section Accessors

variable {s s' : ServerState}

theorem sessionMut_snd (sessionId : SessionId) (f : Session → Session) (s : ServerState) :
    (sessionMut sessionId f s).2 = s.mapSession sessionId f := by
  cases h : s.sessions[sessionId]? with
  | some session => simp [sessionMut, Op.bind_apply, ServerState.session, h]
  | none => simp [sessionMut, Op.bind_apply, ServerState.session, h, mapSession, Answer.fail,
      Table.modify_of_get?_none h]

theorem bufferMut_snd (bufferId : BufferId) (f : Buffer → Buffer) (s : ServerState) :
    (bufferMut bufferId f s).2 = s.mapBuffer bufferId f := by
  cases h : s.buffers[bufferId]? with
  | some buffer => simp [bufferMut, Op.bind_apply, ServerState.buffer, h]
  | none => simp [bufferMut, Op.bind_apply, ServerState.buffer, h, mapBuffer, Answer.fail,
      Table.modify_of_get?_none h]

theorem nodeMut_snd (nodeId : NodeId) (f : Node → Node) (s : ServerState) :
    (nodeMut nodeId f s).2 = s.mapNode nodeId f := by
  cases h : s.nodes[nodeId]? with
  | some node => simp [nodeMut, Op.bind_apply, ServerState.node, h]
  | none => simp [nodeMut, Op.bind_apply, ServerState.node, h, mapNode, Answer.fail,
      Table.modify_of_get?_none h]

theorem floatingMut_snd (floatingId : FloatingId) (f : FloatingWindow → FloatingWindow)
    (s : ServerState) : (floatingMut floatingId f s).2 = s.mapFloating floatingId f := by
  cases h : s.floating[floatingId]? with
  | some floating => simp [floatingMut, Op.bind_apply, ServerState.floatingWindow, h]
  | none => simp [floatingMut, Op.bind_apply, ServerState.floatingWindow, h, mapFloating,
      Answer.fail, Table.modify_of_get?_none h]

end Accessors

/-! ## Child lists and owners -/

def setParent (nodeId : NodeId) (parent : Option NodeId) : StateOp Unit :=
  nodeMut nodeId (Node.setParent parent)

def replaceChild (parentId oldChild newChild : NodeId) : StateOp Unit := do
  let sessionId ← .ask (·.nodeSessionId parentId)
  .ask (·.ensureNodeBelongsTo oldChild sessionId)
  .ask (·.ensureNodeBelongsTo newChild sessionId)
  let parent ← .ask (·.node parentId)
  if parent.isBufferView then
    .throw (.invalidInput "buffer views cannot replace child references")
  else if oldChild ∈ parent.childIds then do
    .modify (mapNode parentId (Node.replaceChildId oldChild newChild))
    setParent oldChild none
    setParent newChild (some parentId)
  else
    .throw (.notFound s!"node {oldChild} is not a child of parent {parentId}")

def removeChild (parentId childId : NodeId) : StateOp Unit := do
  let parent ← .ask (·.node parentId)
  if parent.isBufferView then
    .throw (.invalidInput "buffer views cannot remove child references")
  else if childId ∈ parent.childIds then do
    .modify (mapNode parentId (Node.removeChildId childId))
    setParent childId none
  else
    .throw (.notFound s!"node {childId} is not a child of parent {parentId}")

/-- Make `newNode` the root of the session, of the floating window or of nothing, whichever
`oldNode` is. -/
def repointRoot (sessionId : SessionId) (oldNode newNode : NodeId) : StateOp Unit := do
  if ← .gets (·.isSessionRoot oldNode) then do
    sessionMut sessionId fun session ↦ { session with rootNode := newNode }
    setParent newNode none
  else do
    match ← .gets (·.floatingIdByRoot oldNode) with
    | some floatingId => do
      floatingMut floatingId fun floating ↦ { floating with rootNode := newNode }
      setParent newNode none
    | none => .throw (.conflict s!"node {oldNode} does not have a replaceable owner")

/-- Put `newNode` where the owner of `oldNode` names it. The parent of `oldNode` itself is left
to the caller. -/
def repointOwnerReference (sessionId : SessionId) (owner : Option NodeId)
    (oldNode newNode : NodeId) : StateOp Unit :=
  match owner with
  | some parentId => do
    match ← .ask (·.node parentId) with
    | .split split =>
      if oldNode ∈ split.children then do
        .modify (mapNode parentId (Node.replaceChildId oldNode newNode))
        setParent newNode (some parentId)
      else
        .throw (.notFound s!"node {oldNode} is not a child of split {parentId}")
    | .tabs tabs =>
      if oldNode ∈ tabs.children then do
        .modify (mapNode parentId (Node.replaceChildId oldNode newNode))
        setParent newNode (some parentId)
      else
        .throw (.notFound s!"node {oldNode} is not a tab child of {parentId}")
    | .bufferView _ => .throw (.invalidInput "buffer views cannot own child nodes")
  | none => repointRoot sessionId oldNode newNode

/-- Whether the pane `parentId` last focused is lost when `oldNode` is replaced below it. -/
def focusLostWith (fuel : ℕ) (parentId oldNode : NodeId) (s : ServerState) : Read Bool := do
  match (← s.node parentId).lastFocusedDescendant parentId with
  | some leafId =>
    if s.nodes.contains leafId then s.subtreeContains leafId fuel oldNode else pure true
  | none => pure false

/-- Put `newNode` in the place of `oldNode`, which ends up without an owner. -/
def replaceNodeInOwner (fuel : ℕ) (oldNode newNode : NodeId) : StateOp Unit := do
  let sessionId ← .ask (·.nodeSessionId oldNode)
  let owner ← .ask (·.nodeParent oldNode)
  let replacementFocus ← .ask (·.resolveFocusCandidate fuel newNode)
  match owner with
  | some parentId => do
    let shouldUpdateFocus ← .ask (focusLostWith fuel parentId oldNode)
    replaceChild parentId oldNode newNode
    if shouldUpdateFocus then
      nodeMut parentId (Node.setLastFocusedDescendant replacementFocus)
    else
      pure ()
  | none => do
    repointRoot sessionId oldNode newNode
    setParent oldNode none

/-! ## Removal -/

def detachBufferRaw (bufferId : BufferId) : StateOp Unit :=
  bufferMut bufferId fun buffer ↦ { buffer with attachment := .detached }

def detachBufferIfAttachedTo (bufferId : BufferId) (nodeId : NodeId) : StateOp Unit := do
  let buffer ← .gets (·.buffers[bufferId]?)
  if buffer.map Buffer.attachment = some (.attached nodeId) then
    detachBufferRaw bufferId
  else
    pure ()

/-- Detach the buffer a view shows, if it is attached to that view. -/
def detachView (nodeId : NodeId) : StateOp Unit := do
  match ← .ask (·.node nodeId) with
  | .bufferView leaf => detachBufferIfAttachedTo leaf.bufferId nodeId
  | _ => pure ()

def removeSubtreeNodes : ℕ → NodeId → StateOp Unit
  | 0, _ => .diverge
  | fuel + 1, nodeId => do
    let node ← .ask (·.node nodeId)
    Op.forEach (removeSubtreeNodes fuel) node.childIds
    detachView nodeId
    .modify (eraseNode nodeId)

def removeFloatingWindow (floatingId : FloatingId) : StateOp FloatingWindow := do
  let floating ← .ask (·.floatingWindow floatingId)
  .modify fun s ↦ { s with floating := s.floating.erase floatingId }
  .modify (mapSession floating.sessionId fun session ↦ { session with
    floating := session.floating.filter (· ≠ floatingId)
    focusedFloating :=
      if session.focusedFloating = some floatingId then none else session.focusedFloating })
  pure floating

/-! ## Normalization -/

/-- Normalize a split after a child went away; answers where to go on. -/
def normalizeSplitNode (fuel : ℕ) (nodeId : NodeId) (split : SplitNode) :
    StateOp (Option NodeId) :=
  match split.children with
  | [] => .throw (.conflict s!"split node {nodeId} cannot be empty after mutation")
  | [child] => do
    replaceNodeInOwner fuel nodeId child
    .modify (eraseNode nodeId)
    pure (some child)
  | _ => do
    .modify (mapNode nodeId (Node.mapSplit SplitNode.fitSizes))
    pure split.parent

/-- Normalize a tabs node after a tab went away; answers where to go on. A single tab collapses
into its child, except in a popup's root and in the session's root. -/
def normalizeTabsNode (fuel : ℕ) (nodeId : NodeId) (tabs : TabsNode) :
    StateOp (Option NodeId) := do
  let isRoot ← .gets (·.isSessionRoot nodeId)
  let floatingOwner ← .gets (·.floatingIdByRoot nodeId)
  match tabs.tabs with
  | [] =>
    if isRoot then do
      .modify (mapNode nodeId (Node.mapTabs fun tabs ↦
        { tabs with active := 0, lastFocusedDescendant := none }))
      pure tabs.parent
    else
      match floatingOwner with
      | some floatingId => do
        let floating ← removeFloatingWindow floatingId
        .modify (eraseNode floating.rootNode)
        pure none
      | none => do
        .modify (eraseNode nodeId)
        pure tabs.parent
  | first :: rest =>
    if rest.isEmpty ∧ floatingOwner = none ∧ ¬ isRoot then do
      replaceNodeInOwner fuel nodeId first.child
      .modify (eraseNode nodeId)
      pure (some first.child)
    else do
      .modify (mapNode nodeId (Node.mapTabs fun tabs ↦
        if tabs.tabs.length ≤ tabs.active then
          { tabs with active := tabs.tabs.length - 1 }
        else
          tabs))
      pure tabs.parent

/-- One turn of the loop of `normalize_upwards`. -/
def normalizeNode (fuel : ℕ) (nodeId : NodeId) : Node → StateOp (Option NodeId)
  | .bufferView view => pure view.parent
  | .split split => normalizeSplitNode fuel nodeId split
  | .tabs tabs => normalizeTabsNode fuel nodeId tabs

/-- Normalize the node and go on from where that leads, until the links run out. -/
def normalizeUpwards (walk : ℕ) : ℕ → Option NodeId → StateOp Unit
  | _, none => pure ()
  | 0, some _ => .diverge
  | fuel + 1, some nodeId => do
    match ← .gets (·.nodes[nodeId]?) with
    | none => pure ()
    | some node => do
      let next ← normalizeNode walk nodeId node
      normalizeUpwards walk fuel next

end ServerState

end Embers
