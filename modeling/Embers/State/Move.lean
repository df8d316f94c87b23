import Embers.State.Place

/-!
# Breaking a node out and joining a buffer in

`breakNode` gives a node a tab or a popup of its own, and `joinBufferAtNode` puts a buffer next to
a node. Both change an owner before they know that the new place takes the node, so both undo:
`breakNode` from a snapshot of the old owner, `joinBufferAtNode` by discarding the new view.
-/

namespace Embers

/-! ## Where a node was -/

/-- A place in a child list, with what removing the child changed there. -/
inductive ParentSlotSnapshot where
  | split (index : ℕ) (size : UInt16) (lastFocusedDescendant : Option NodeId)
  | tabs (index : ℕ) (tab : TabEntry) (active : ℕ) (lastFocusedDescendant : Option NodeId)

/-- The owner of a node, and the node's place in it. -/
inductive NodeOwnerSnapshot where
  | parent (parentId : NodeId) (slot : ParentSlotSnapshot)
  | floating (floatingId : FloatingId) (window : FloatingWindow) (index : ℕ)
      (focusedFloating : Option FloatingId)

/-- Where a broken-out node goes: a popup, or a tab at an index. -/
inductive BrokenPlace where
  | popup (geometry : FloatGeometry)
  | tab (tabsId : NodeId) (index : ℕ)

namespace ServerState

def captureParentSlot (parentId nodeId : NodeId) (s : ServerState) : Read ParentSlotSnapshot := do
  let missing : MuxError := .notFound s!"node {nodeId} is not a child of parent {parentId}"
  match ← s.node parentId with
  | .split split => do
    let index ← .ofOption missing (split.children.idxOf? nodeId)
    pure (.split index (split.sizes[index]?.getD 1) split.lastFocusedDescendant)
  | .tabs tabs => do
    let index ← .ofOption missing (tabs.tabs.findIdx? fun tab ↦ tab.child = nodeId)
    let tab ← .ofOption missing tabs.tabs[index]?
    pure (.tabs index tab tabs.active tabs.lastFocusedDescendant)
  | .bufferView _ => .fail (.invalidInput "buffer views do not own child nodes")

def captureNodeOwnerSnapshot (nodeId : NodeId) (s : ServerState) : Read NodeOwnerSnapshot := do
  match ← s.nodeParent nodeId with
  | some parentId => do
    let slot ← captureParentSlot parentId nodeId s
    pure (.parent parentId slot)
  | none =>
    match s.floatingIdByRoot nodeId with
    | some floatingId => do
      let window ← s.floatingWindow floatingId
      let session ← s.session window.sessionId
      let index ← .ofOption (.notFound
        s!"floating window {floatingId} is not registered in session {window.sessionId}")
        (session.floating.idxOf? floatingId)
      pure (.floating floatingId window index session.focusedFloating)
    | none => .fail (.invalidInput s!"node {nodeId} has no owning container")

/-- Take the node out of its owner; answers the parent it had, if any. -/
def detachNodeFromOwner (nodeId : NodeId) : StateOp (Option NodeId) := do
  if ← .gets (·.isSessionRoot nodeId) then
    .throw (.conflict "session root cannot be broken out of its owner")
  else do
    match ← .ask (·.nodeParent nodeId) with
    | some parentId => do
      removeChild parentId nodeId
      pure (some parentId)
    | none => do
      match ← .gets (·.floatingIdByRoot nodeId) with
      | some floatingId => do
        let _ ← removeFloatingWindow floatingId
        pure none
      | none => .throw (.invalidInput s!"node {nodeId} has no owning container")

/-- Put the node back in the child list it was in. -/
def restoreParentSlot (parentId nodeId : NodeId) : ParentSlotSnapshot → StateOp Unit
  | .split index size lastFocusedDescendant => do
    match ← .ask (·.node parentId) with
    | .split _ => .modify (mapNode parentId (Node.mapSplit fun split ↦
        let insertIndex := min index split.children.length
        { split with
          children := split.children.insertIdx insertIndex nodeId
          sizes := split.sizes.insertIdx (min insertIndex split.sizes.length) size
          lastFocusedDescendant }))
    | _ => .throw (.invalidInput "node is not a split")
  | .tabs index tab active lastFocusedDescendant =>
    tabsMut parentId fun tabs ↦
      let restored := tabs.tabs.insertIdx (min index tabs.tabs.length) tab
      { tabs with
        tabs := restored
        active := min active (restored.length - 1)
        lastFocusedDescendant }

def restoreNodeOwner (nodeId : NodeId) : NodeOwnerSnapshot → StateOp Unit
  | .parent parentId slot => do
    restoreParentSlot parentId nodeId slot
    setParent nodeId (some parentId)
  | .floating floatingId window index focusedFloating => do
    .modify fun s ↦ { s with floating := s.floating.insert floatingId window }
    sessionMut window.sessionId fun session ↦ { session with
      floating := session.floating.insertIdx (min index session.floating.length) floatingId
      focusedFloating }
    setParent nodeId none

def rollbackDetachedNode (nodeId : NodeId) (owner : NodeOwnerSnapshot) : StateOp Unit := do
  let parent ← .ask (·.nodeParent nodeId)
  let floatingId ← .gets (·.floatingIdByRoot nodeId)
  if parent.isSome ∨ floatingId.isSome then do
    let _ ← detachNodeFromOwner nodeId
    restoreNodeOwner nodeId owner
  else
    restoreNodeOwner nodeId owner

/-! ## Breaking out -/

/-- Whether the node already is where `break_node` would put it. -/
def alreadyBroken (nodeId : NodeId) (toFloating : Bool) (s : ServerState) : Read Bool := do
  match ← s.nodeParent nodeId with
  | none => pure (toFloating && (s.floatingIdByRoot nodeId).isSome)
  | some parentId =>
    if toFloating then
      pure false
    else do
      pure (← s.node parentId).isTabs

/-- The tabs a broken-out node joins: the nearest above its old parent, or the session's own. -/
def breakTarget (fuel : ℕ) (sessionId : SessionId) (oldParent : Option NodeId) (s : ServerState) :
    Read NodeId := do
  match ← s.nearestTabsAncestor fuel oldParent with
  | some tabsId => pure tabsId
  | none => s.rootTabs sessionId

/-- Where the broken-out node goes, worked out once it has left its owner. -/
def brokenPlace (fuel : ℕ) (sessionId : SessionId) (oldParent : Option NodeId) (toFloating : Bool)
    (s : ServerState) : Read BrokenPlace := do
  if toFloating then do
    pure (.popup (← defaultFloatingGeometry fuel sessionId s))
  else do
    let tabsId ← breakTarget fuel sessionId oldParent s
    let tabs ← s.tabsNode tabsId
    pure (.tab tabsId tabs.tabs.length)

/-- Give the detached node its new place. -/
def placeBroken (fuel : ℕ) (sessionId : SessionId) (nodeId : NodeId) (title : String)
    (doFocus : Bool) : BrokenPlace → StateOp Unit
  | .popup geometry => do
    let _ ← createFloatingWindowWithOptions fuel sessionId nodeId geometry (some title) true true
  | .tab tabsId index => do
    let _ ← addTabSiblingAtWithFocus fuel tabsId index title nodeId doFocus

/-- Run the second half of a move, and go back to the old owner when it fails. -/
def orRollback (nodeId : NodeId) (owner : NodeOwnerSnapshot) (place : StateOp Unit) :
    StateOp Unit := do
  match ← place.attempt with
  | .ok () => pure ()
  | .error error => do
    match ← (rollbackDetachedNode nodeId owner).attempt with
    | .ok () => .throw error
    | .error rollbackError => .throw (.internal
        s!"failed to roll back break_node({nodeId}) after {error}: {rollbackError}")

def breakNode (fuel : ℕ) (nodeId : NodeId) (toFloating : Bool) : StateOp Unit := do
  if ← .ask (alreadyBroken nodeId toFloating) then
    pure ()
  else do
    let sessionId ← .ask (·.nodeSessionId nodeId)
    let title ← .ask (·.defaultTabTitle fuel nodeId)
    let doFocus ← .ask (·.isNodeVisibleInSession fuel sessionId nodeId)
    let owner ← .ask (captureNodeOwnerSnapshot nodeId)
    let oldParent ← detachNodeFromOwner nodeId
    let place ← .ask (brokenPlace fuel sessionId oldParent toFloating)
    orRollback nodeId owner (placeBroken fuel sessionId nodeId title doFocus place)
    normalizeUpwards fuel fuel oldParent
    normalizeZoomedNode fuel sessionId

/-! ## Joining in -/

/-- The view the joined buffer leaves, once nothing speaks against moving it next to `nodeId`. -/
def joinSource (fuel : ℕ) (nodeId : NodeId) (bufferId : BufferId) (targetSession : SessionId)
    (s : ServerState) : Read (Option NodeId) := do
  match (← s.buffer bufferId).attachment with
  | .detached => pure none
  | .attached sourceView => do
    let sourceSession ← s.nodeSessionId sourceView
    if sourceSession ≠ targetSession then
      .fail (.conflict (s!"buffer {bufferId} is attached in session {sourceSession} and cannot be "
        ++ s!"joined into session {targetSession}"))
    else do
      let contained : MuxError := .conflict
        (s!"buffer {bufferId} is already contained by node {nodeId} via view {sourceView}")
      if sourceView = nodeId then
        .fail contained
      else if ← s.nodeIsDescendantOf nodeId fuel sourceView then
        .fail contained
      else
        pure (some sourceView)

/-- The view to join: attached now when the buffer has no other, else attached at the end. -/
def createJoinView (targetSession : SessionId) (bufferId : BufferId) (sourceView : Option NodeId) :
    StateOp NodeId :=
  if sourceView.isSome then
    createUnattachedBufferView targetSession bufferId
  else
    createBufferView targetSession bufferId

/-- The tabs a tab placement puts the view in: the node itself, its parent, or a new wrapper. The
flag says whether it is a new wrapper. -/
def joinTabs (fuel : ℕ) (nodeId : NodeId) : StateOp (NodeId × Bool) := do
  let node ← .ask (·.node nodeId)
  if node.isTabs then
    pure (nodeId, false)
  else do
    let parent ← .ask fun s ↦ match node.parent with
      | some parentId => do
        let parent ← s.node parentId
        pure (if parent.isTabs then some parentId else none)
      | none => pure none
    match parent with
    | some parentId => pure (parentId, false)
    | none => do
      let title ← .ask (·.defaultTabTitle fuel nodeId)
      let tabsId ← wrapNodeInTabs nodeId title
      pure (tabsId, true)

/-- Where among the tabs the joined view goes. -/
def joinIndex (tabsId nodeId : NodeId) (after : Bool) (s : ServerState) : Read ℕ := do
  let tabs ← s.tabsNode tabsId
  let length := tabs.tabs.length
  let current ←
    if tabsId = nodeId then
      pure (min tabs.active length)
    else
      .ofOption (.notFound s!"node {nodeId} is not a child of tabs {tabsId}")
        (tabs.children.idxOf? nodeId)
  pure (if after then min (current + 1) length else current)

/-- Delete a view that found no place, and collapse the wrapper made for it. -/
def undoJoin (fuel : ℕ) (newView : NodeId) (wrapper : Option NodeId) : StateOp Unit := do
  discardBufferView fuel newView
  match wrapper with
  | some tabsId => do
    let _ ← (normalizeUpwards fuel fuel (some tabsId)).attempt
    pure ()
  | none => pure ()

/-- Place the new view, taking it back when the placing call fails. -/
def orUndoJoin (fuel : ℕ) (newView : NodeId) (wrapper : Option NodeId) (place : StateOp Unit) :
    StateOp Unit := do
  match ← place.attempt with
  | .ok () => pure ()
  | .error error => do
    undoJoin fuel newView wrapper
    .throw error

def joinSplit (fuel : ℕ) (nodeId newView : NodeId) (direction : SplitDirection)
    (insertBefore doFocus : Bool) : StateOp Unit :=
  orUndoJoin fuel newView none do
    let _ ← wrapNodeInSplitWithFocus fuel nodeId direction newView insertBefore doFocus

/-- A tab placement. Everything before the tab is added returns its errors at once, past the
handler that takes the new view back. -/
def joinTab (fuel : ℕ) (nodeId newView : NodeId) (bufferId : BufferId) (after doFocus : Bool) :
    StateOp Unit := do
  let title := (← .ask (·.buffer bufferId)).title
  let (tabsId, wrapped) ← joinTabs fuel nodeId
  let insertIndex ← .ask (joinIndex tabsId nodeId after)
  orUndoJoin fuel newView (if wrapped then some tabsId else none) do
    let _ ← addTabSiblingAtWithFocus fuel tabsId insertIndex title newView doFocus

def placeJoined (fuel : ℕ) (nodeId newView : NodeId) (bufferId : BufferId)
    (placement : NodeJoinPlacement) (doFocus : Bool) : StateOp Unit :=
  match placement with
  | .left => joinSplit fuel nodeId newView .vertical true doFocus
  | .right => joinSplit fuel nodeId newView .vertical false doFocus
  | .up => joinSplit fuel nodeId newView .horizontal true doFocus
  | .down => joinSplit fuel nodeId newView .horizontal false doFocus
  | .tabBefore => joinTab fuel nodeId newView bufferId false doFocus
  | .tabAfter => joinTab fuel nodeId newView bufferId true doFocus

/-- Close the view the buffer left, and attach the buffer to its new one. -/
def finishJoin (fuel : ℕ) (bufferId : BufferId) (newView : NodeId) : Option NodeId → StateOp Unit
  | none => pure ()
  | some sourceView => do
    match ← (closeNode fuel sourceView).attempt with
    | .ok () => setBufferAttached bufferId newView
    | .error error => do
      match ← (closeNode fuel newView).attempt with
      | .ok () => .throw error
      | .error rollbackError => .throw (.internal
          (s!"failed to close original view {sourceView} after joining buffer {bufferId}: {error}; "
            ++ s!"rollback failed while closing new view {newView}: {rollbackError}"))

def joinBufferAtNode (fuel : ℕ) (nodeId : NodeId) (bufferId : BufferId)
    (placement : NodeJoinPlacement) : StateOp Unit := do
  let targetSession ← .ask (·.nodeSessionId nodeId)
  let doFocus ← .ask (·.isNodeVisibleInSession fuel targetSession nodeId)
  let sourceView ← .ask (joinSource fuel nodeId bufferId targetSession)
  let newView ← createJoinView targetSession bufferId sourceView
  placeJoined fuel nodeId newView bufferId placement doFocus
  finishJoin fuel bufferId newView sourceView
  normalizeZoomedNode fuel targetSession

end ServerState

end Embers
