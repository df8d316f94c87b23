import Embers.State.Build

/-!
# Closing

Closing a node takes it out of its owner, deletes everything below it, normalizes the containers
above the gap and gives the session a visible zoom and focus again. Exited buffers are disposed of
by closing their views.
-/

namespace Embers

/-- The tabs without the one at `index`; the last one to go takes the remembered pane with it. -/
def TabsNode.removeTab (index : ℕ) (tabs : TabsNode) : TabsNode :=
  let remaining := tabs.tabs.eraseIdx index
  { tabs with
    tabs := remaining
    active := activeAfterRemoval remaining tabs.active index
    lastFocusedDescendant := if remaining.isEmpty then none else tabs.lastFocusedDescendant }

namespace ServerState

/-- After a removal: drop a zoom that is gone and focus something that is still there. -/
def settleSession (fuel : ℕ) (sessionId : SessionId) : StateOp Unit := do
  normalizeZoomedNode fuel sessionId
  healFocus fuel sessionId

/-- Replace the session's root, and everything below it, by empty tabs. -/
def clearSessionRoot (fuel : ℕ) (sessionId : SessionId) : StateOp Unit := do
  let oldRoot ← .ask (·.rootNode sessionId)
  removeSubtreeNodes fuel oldRoot
  let newRoot ← nextNodeId
  .modify (insertNode newRoot (emptyTabs sessionId))
  sessionMut sessionId fun session ↦ { session with rootNode := newRoot }
  sessionMut sessionId fun session ↦ { session with zoomedNode := none }
  healFocus fuel sessionId

/-- Take the node out of its parent's list and delete it with everything below it. -/
def removeFromParent (fuel : ℕ) (parent nodeId : NodeId) : StateOp Unit := do
  removeChild parent nodeId
  removeSubtreeNodes fuel nodeId
  normalizeUpwards fuel fuel (some parent)

def closeNode (fuel : ℕ) (nodeId : NodeId) : StateOp Unit := do
  let sessionId ← .ask (·.nodeSessionId nodeId)
  if ← .gets (·.isSessionRoot nodeId) then
    clearSessionRoot fuel sessionId
  else do
    match ← .ask (·.nodeParent nodeId) with
    | some parent => do
      removeFromParent fuel parent nodeId
      settleSession fuel sessionId
    | none => do
      match ← .gets (·.floatingIdByRoot nodeId) with
      | some floatingId => do
        let floating ← removeFloatingWindow floatingId
        removeSubtreeNodes fuel floating.rootNode
        settleSession fuel sessionId
      | none => .throw (.invalidInput s!"node {nodeId} has no owning container")

def closeTab (fuel : ℕ) (tabsId : NodeId) (index : ℕ) : StateOp Unit := do
  let sessionId ← .ask (·.nodeSessionId tabsId)
  let child ← .ask (tabChild tabsId index)
  .modify (mapNode tabsId (Node.mapTabs (TabsNode.removeTab index)))
  setParent child none
  removeSubtreeNodes fuel child
  normalizeUpwards fuel fuel (some tabsId)
  settleSession fuel sessionId

def closeFloating (fuel : ℕ) (floatingId : FloatingId) : StateOp Unit := do
  let floating ← removeFloatingWindow floatingId
  removeSubtreeNodes fuel floating.rootNode
  settleSession fuel floating.sessionId

def closeSession (fuel : ℕ) (sessionId : SessionId) : StateOp Unit := do
  let session ← .ask (·.session sessionId)
  Op.forEach (closeFloating fuel) session.floating
  removeSubtreeNodes fuel session.rootNode
  .modify fun s ↦ { s with sessions := s.sessions.erase sessionId }

/-- What a node must be to replace another. -/
def checkReplacement (nodeId replacement : NodeId) (s : ServerState) : Read Unit := do
  if s.isSessionRoot nodeId then
    .fail (.conflict "session root tabs cannot be replaced")
  else if (← s.nodeParent replacement).isSome then
    .fail (.invalidInput "replacement node must not already have a parent")
  else if s.isSessionRoot replacement then
    .fail (.conflict "session root cannot become a replacement child")
  else if (s.floatingIdByRoot replacement).isSome then
    .fail (.conflict "floating root cannot become a replacement child")
  else
    pure ()

def replaceNode (fuel : ℕ) (nodeId replacement : NodeId) : StateOp Unit := do
  let sessionId ← .ask (·.nodeSessionId nodeId)
  .ask (·.ensureNodeBelongsTo replacement sessionId)
  if nodeId = replacement then
    pure ()
  else do
    .ask (checkReplacement nodeId replacement)
    replaceNodeInOwner fuel nodeId replacement
    removeSubtreeNodes fuel nodeId
    focusCandidateOrHeal fuel sessionId replacement
    normalizeZoomedNode fuel sessionId

/-- Take back a view: close it where it was placed, else delete it alone. -/
def deleteView (nodeId : NodeId) : StateOp Unit := do
  let _ ← (detachView nodeId).attempt
  .modify (eraseNode nodeId)

def discardBufferView (fuel : ℕ) (nodeId : NodeId) : StateOp Unit := do
  let node ← .gets (·.nodes[nodeId]?)
  if (node.bind Node.parent).isSome then do
    match ← (closeNode fuel nodeId).attempt with
    | .ok () => pure ()
    | .error _ => deleteView nodeId
  else
    deleteView nodeId

def detachBuffer (fuel : ℕ) (bufferId : BufferId) : StateOp Unit := do
  match (← .ask (·.buffer bufferId)).attachment with
  | .attached nodeId => closeNode fuel nodeId
  | .detached => pure ()

/-! ## Disposing of exited buffers -/

def removeBuffer (bufferId : BufferId) : StateOp Buffer := do
  let buffer ← .ask (·.buffer bufferId)
  if buffer.attachment ≠ .detached then
    .throw (.conflict s!"buffer {bufferId} must be detached before removal")
  else do
    .modify fun s ↦ { s with buffers := s.buffers.erase bufferId }
    pure buffer

/-- What `dispose_exited_buffers` cleaned up. -/
structure DisposedBuffers where
  /-- Buffers whose records were removed. -/
  removedBuffers : List BufferId
  /-- Sessions in which a view was closed. -/
  changedSessions : Std.ExtTreeSet SessionId

/-- Remove the record if it is detached; a refusal is no error. -/
def tryRemoveBuffer (bufferId : BufferId) (disposed : DisposedBuffers) :
    StateOp DisposedBuffers := do
  match ← (removeBuffer bufferId).attempt with
  | .ok _ => pure { disposed with removedBuffers := disposed.removedBuffers ++ [bufferId] }
  | .error _ => pure disposed

/-- The helper buffers whose view closed. -/
def closedHelpers (s : ServerState) : List BufferId :=
  (s.buffers.toList.filter fun entry ↦
    match entry.2.kind with
    | .helper _ => entry.2.attachment = .detached
    | .pty => false).map Prod.fst

/-- What decides about an exited buffer, as read before any of them is disposed of. -/
structure ExitedEntry where
  bufferId : BufferId
  attachment : BufferAttachment
  doneWith : Bool
  remainsOnExit : Bool

def exitedEntries (s : ServerState) : List ExitedEntry :=
  (s.buffers.toList.filter fun entry ↦
    match entry.2.kind, entry.2.state with
    | .pty, .exited _ _ => true
    | _, _ => false).map fun entry ↦
      ⟨entry.1, entry.2.attachment, entry.2.everAttached && !entry.2.watched,
        entry.2.remainsOnExit s.remainOnExit⟩

/-- Close the view of an exited buffer and remove its record. -/
def disposeView (fuel : ℕ) (bufferId : BufferId) (viewId : NodeId) (disposed : DisposedBuffers) :
    StateOp DisposedBuffers := do
  match ← .gets (·.nodes[viewId]?) with
  | none => pure disposed
  | some view => do
    match ← (closeNode fuel viewId).attempt with
    | .error _ => pure disposed
    | .ok () => do
      let changed := disposed.changedSessions.insert view.sessionId
      tryRemoveBuffer bufferId { disposed with changedSessions := changed }

/-- One turn of the loop over the exited buffers. -/
def disposeEntry (fuel : ℕ) (disposed : DisposedBuffers) (entry : ExitedEntry) :
    StateOp DisposedBuffers :=
  match entry.attachment with
  | .attached viewId =>
    if entry.remainsOnExit then
      pure disposed
    else
      disposeView fuel entry.bufferId viewId disposed
  | .detached => if entry.doneWith then tryRemoveBuffer entry.bufferId disposed else pure disposed

/-- Clean up buffers whose command has exited: close the views of the attached ones that do not
remain on exit, and remove the records of those and of the detached ones that were shown before
and are not watched. Helper buffers whose view closed go too. -/
def disposeExitedBuffers (fuel : ℕ) : StateOp DisposedBuffers := do
  let helpers ← .gets closedHelpers
  let disposed ← Op.fold (fun disposed bufferId ↦ tryRemoveBuffer bufferId disposed) ⟨[], ∅⟩ helpers
  let exited ← .gets exitedEntries
  Op.fold (disposeEntry fuel) disposed exited

end ServerState

end Embers
