import Embers.State.Edit

/-!
# Focus, tabs shown and zoom

Focusing a pane touches five places: the session's focused pane and focused popup, the flag of the
pane, the flags of the popups, and every tabs node above the pane, whose active tab becomes the
branch that holds it. `healFocus` picks a pane after a change took the focused one away.
-/

namespace Embers

/-- A container on the way up from `leafId`, entered from `child`: it remembers the pane, and a
tabs node shows the branch that holds it. -/
def Node.focusThrough (leafId child : NodeId) : Node → Node
  | .bufferView node => .bufferView node
  | .split node => .split { node with lastFocusedDescendant := some leafId }
  | .tabs node => .tabs { node with
      lastFocusedDescendant := some leafId
      active := if child ∈ node.children then node.children.idxOf child else node.active }

namespace ServerState

/-! ## Buffer records -/

def setBufferActivity (bufferId : BufferId) (newActivity : ActivityState) : StateOp Unit :=
  bufferMut bufferId fun buffer ↦ { buffer with activity := newActivity }

/-- The panes a session shows, window first, then its visible popups. -/
def shownLeaves (fuel : ℕ) (sessionId : SessionId) (s : ServerState) : Read (List NodeId) := do
  let session ← s.session sessionId
  let leaves ← s.visibleLeafIds fuel session.rootNode
  let rest ← Answer.collect (fun floatingId ↦
    match s.floating[floatingId]? with
    | some floating => if floating.visible then s.visibleLeafIds fuel floating.rootNode else pure []
    | none => pure []) session.floating
  pure (leaves ++ rest)

/-- Make the buffer a view shows idle; answers whether it was not. -/
def acknowledgeLeaf (leafId : NodeId) : StateOp Bool := do
  let bufferId ← .ask (·.bufferViewBufferId leafId)
  let buffer ← .ask (·.buffer bufferId)
  if buffer.activity ≠ .idle then do
    .modify (mapBuffer bufferId fun buffer ↦ { buffer with activity := .idle })
    pure true
  else
    pure false

/-- `acknowledge_leaf` for each pane in turn; answers whether any changed. -/
def acknowledgeLeaves : List NodeId → StateOp Bool
  | [] => pure false
  | leafId :: rest => do
    let changed ← acknowledgeLeaf leafId
    let restChanged ← acknowledgeLeaves rest
    pure (changed || restChanged)

/-- Acknowledge the activity and bells of every pane the session shows, as tmux clears a window's
flags when the window becomes current. Answers whether any pane's state changed. -/
def acknowledgeShownActivity (fuel : ℕ) (sessionId : SessionId) : StateOp Bool := do
  let leaves ← .ask (shownLeaves fuel sessionId)
  acknowledgeLeaves leaves

/-! ## Focusing a pane -/

def setLeafFocus (leafId : NodeId) (focused : Bool) : StateOp Unit := do
  .ask (·.ensureLeaf leafId)
  .modify (mapNode leafId (Node.mapView fun leaf ↦ { leaf with view := { leaf.view with focused } }))

/-- Change every floating window of a list that exists. -/
def mapFloatings (f : FloatingId → FloatingWindow → FloatingWindow) :
    List FloatingId → ServerState → ServerState
  | [], s => s
  | floatingId :: rest, s => mapFloatings f rest (s.mapFloating floatingId (f floatingId))

/-- Unset the flag of the pane the session focused; a pane that is gone is no error. -/
def clearLeafFocus : Option NodeId → StateOp Unit
  | some previousLeaf => do
    let _ ← (setLeafFocus previousLeaf false).attempt
    pure ()
  | none => pure ()

def clearSessionFocus (sessionId : SessionId) : StateOp Unit := do
  let session ← .ask (·.session sessionId)
  clearLeafFocus session.focusedLeaf
  .modify (mapFloatings (fun _ floating ↦ { floating with focused := false }) session.floating)
  sessionMut sessionId fun session ↦ { session with focusedLeaf := none, focusedFloating := none }

/-- Most entries kept in a session's focus history. -/
def focusHistoryLimit : ℕ := 64

def rememberFocus (sessionId : SessionId) (leafId : NodeId) : StateOp Unit := do
  let session ← .ask (·.session sessionId)
  let s ← .gets id
  let kept := session.focusHistory.filter fun entry ↦ entry ≠ leafId ∧ s.nodes.contains entry
  let history := kept ++ [leafId]
  sessionMut sessionId fun session ↦
    { session with focusHistory := history.drop (history.length - focusHistoryLimit) }

/-- The pane that loses the focus to another one goes into the history. -/
def rememberPrevious (sessionId : SessionId) (leafId : NodeId) : Option NodeId → StateOp Unit
  | some previousLeaf =>
    if previousLeaf ≠ leafId then rememberFocus sessionId previousLeaf else pure ()
  | none => pure ()

/-- The climb of `focus_leaf` from `child`. -/
def focusUpwards (leafId : NodeId) : ℕ → NodeId → StateOp Unit
  | 0, _ => .diverge
  | fuel + 1, child => do
    match ← .ask (·.nodeParent child) with
    | some parent => do
      nodeMut parent (Node.focusThrough leafId child)
      focusUpwards leafId fuel parent
    | none => pure ()

def focusLeaf (fuel : ℕ) (sessionId : SessionId) (leafId : NodeId) : StateOp Unit := do
  .ask (·.ensureLeafBelongsTo leafId sessionId)
  .ask (·.ensureLeafIsFocusable fuel sessionId leafId)
  let bufferId ← .ask (·.bufferViewBufferId leafId)
  let previousLeaf := (← .ask (·.session sessionId)).focusedLeaf
  clearSessionFocus sessionId
  setLeafFocus leafId true
  rememberPrevious sessionId leafId previousLeaf
  let floatingOwner ← .ask (·.floatingIdForNode fuel leafId)
  sessionMut sessionId fun session ↦
    { session with focusedLeaf := some leafId, focusedFloating := floatingOwner }
  let floatingIds := (← .ask (·.session sessionId)).floating
  .modify (mapFloatings (fun floatingId floating ↦
    if some floatingId = floatingOwner then
      { floating with focused := true, lastFocusedLeaf := some leafId }
    else
      { floating with focused := false }) floatingIds)
  focusUpwards leafId fuel leafId
  setBufferActivity bufferId .idle
  let _ ← acknowledgeShownActivity fuel sessionId

/-- The first floating window of the list with a pane to focus, and that pane. -/
def firstFloatingFocus (fuel : ℕ) (floatingIds : List FloatingId) (s : ServerState) :
    Read (Option NodeId) :=
  Answer.firstSome (s.resolveFloatingFocus fuel) floatingIds

/-- The pane the focused popup would focus, when the session has one that still exists. -/
def preferredFloatingFocus (fuel : ℕ) (session : Session) (s : ServerState) :
    Read (Option NodeId) :=
  match session.focusedFloating.filter s.floating.contains with
  | some floatingId => s.resolveFloatingFocus fuel floatingId
  | none => pure none

/-- The pane `heal_focus` focuses: in the focused popup, else in the session's window, else in the
first popup that has one. -/
def healedLeaf (fuel : ℕ) (sessionId : SessionId) (s : ServerState) : Read (Option NodeId) := do
  let session ← s.session sessionId
  match ← preferredFloatingFocus fuel session s with
  | some leaf => pure (some leaf)
  | none =>
    match ← s.resolveFocusCandidate fuel session.rootNode with
    | some leaf => pure (some leaf)
    | none => firstFloatingFocus fuel session.floating s

/-- Focus the pane if there is one, else leave the session without a focus. -/
def focusOrClear (fuel : ℕ) (sessionId : SessionId) : Option NodeId → StateOp Unit
  | some leaf => focusLeaf fuel sessionId leaf
  | none => clearSessionFocus sessionId

def healFocus (fuel : ℕ) (sessionId : SessionId) : StateOp Unit := do
  let leaf ← .ask (healedLeaf fuel sessionId)
  focusOrClear fuel sessionId leaf

/-- Focus the pane `nodeId` leads to, or any pane of the session when it leads to none. -/
def focusCandidateOrHeal (fuel : ℕ) (sessionId : SessionId) (nodeId : NodeId) : StateOp Unit := do
  match ← .ask (·.resolveFocusCandidate fuel nodeId) with
  | some leaf => focusLeaf fuel sessionId leaf
  | none => healFocus fuel sessionId

/-! ## Selecting panes and tabs -/

/-- The climb of `select_pane` from `child` to the window. -/
def selectUpwards (window leafId : NodeId) : ℕ → NodeId → StateOp Unit
  | 0, _ => .diverge
  | fuel + 1, child =>
    if child = window then
      pure ()
    else do
      match ← .ask (·.nodeParent child) with
      | some parent => do
        nodeMut parent (Node.focusThrough leafId child)
        selectUpwards window leafId fuel parent
      | none => .throw (.conflict s!"leaf {leafId} is not inside window {window}")

/-- The window of a pane, when it is not the one the session shows. -/
def backgroundWindow (fuel : ℕ) (sessionId : SessionId) (leafId : NodeId) (s : ServerState) :
    Read (Option NodeId) := do
  let root := (← s.session sessionId).rootNode
  match ← s.windowOfLeaf fuel sessionId leafId with
  | some window =>
    if window ≠ root then do
      if ← s.isNodeVisibleFrom fuel root window then pure none else pure (some window)
    else
      pure none
  | none => pure none

/-- Make the pane the active one of its window, like tmux `select-pane`. In the session's current
window, or in a popup, that is focusing it. -/
def selectPane (fuel : ℕ) (sessionId : SessionId) (leafId : NodeId) : StateOp Unit := do
  .ask (·.ensureLeafBelongsTo leafId sessionId)
  .ask (·.ensureLeafIsFocusable fuel sessionId leafId)
  match ← .ask (backgroundWindow fuel sessionId leafId) with
  | some window => selectUpwards window leafId fuel leafId
  | none => focusLeaf fuel sessionId leafId

def showNode (fuel : ℕ) (sessionId : SessionId) (nodeId : NodeId) : StateOp Unit := do
  .ask (·.ensureNodeBelongsTo nodeId sessionId)
  match ← .ask (·.resolveFocusCandidate fuel nodeId) with
  | some leafId => focusLeaf fuel sessionId leafId
  | none => .throw (.invalidInput s!"node {nodeId} has no focusable leaf")

def focusLastPane (fuel : ℕ) (sessionId : SessionId) : StateOp Unit := do
  match ← .ask (·.lastPane fuel sessionId) with
  | some leafId => focusLeaf fuel sessionId leafId
  | none => .throw (.notFound "no last pane")

def focusFloating (fuel : ℕ) (floatingId : FloatingId) : StateOp Unit := do
  let floating ← .ask (·.floatingWindow floatingId)
  match ← .ask (·.resolveFloatingFocus fuel floatingId) with
  | some leaf => focusLeaf fuel floating.sessionId leaf
  | none => .throw (.notFound s!"floating window {floatingId} has no focusable leaf")

/-- The child the tab at `index` shows. -/
def tabChild (tabsId : NodeId) (index : ℕ) (s : ServerState) : Read NodeId := do
  let tabs ← s.tabsNode tabsId
  match tabs.tabs[index]? with
  | some tab => pure tab.child
  | none => .fail (.notFound s!"tab index {index} is out of range for node {tabsId}")

def switchTab (fuel : ℕ) (tabsId : NodeId) (index : ℕ) : StateOp Unit := do
  let sessionId ← .ask (·.nodeSessionId tabsId)
  let child ← .ask (tabChild tabsId index)
  .modify (mapNode tabsId (Node.mapTabs fun tabs ↦ { tabs with active := index }))
  if ← .ask (·.isNodeVisibleInSession fuel sessionId tabsId) then
    focusCandidateOrHeal fuel sessionId child
  else
    pure ()

/-! ## Zoom -/

/-- Whether a zoomed node may stay zoomed. -/
def zoomStays (fuel : ℕ) (sessionId : SessionId) (nodeId : NodeId) (s : ServerState) :
    Read Bool := do
  if s.nodes[nodeId]?.any fun node ↦ node.sessionId = sessionId then
    s.isNodeVisibleInSession fuel sessionId nodeId
  else
    pure false

/-- What a session's zoomed node is normalized to. -/
def keptZoom (fuel : ℕ) (sessionId : SessionId) (s : ServerState) : Read (Option NodeId) := do
  match (← s.session sessionId).zoomedNode with
  | some nodeId => do
    if ← zoomStays fuel sessionId nodeId s then pure (some nodeId) else pure none
  | none => pure none

def normalizeZoomedNode (fuel : ℕ) (sessionId : SessionId) : StateOp Unit := do
  let keep ← .ask (keptZoom fuel sessionId)
  sessionMut sessionId fun session ↦ { session with zoomedNode := keep }

/-- Whether the session's focused pane is inside the node. -/
def focusIsInside (fuel : ℕ) (sessionId : SessionId) (nodeId : NodeId) (s : ServerState) :
    Read Bool := do
  match (← s.session sessionId).focusedLeaf with
  | some focusedLeaf => s.nodeIsDescendantOf nodeId fuel focusedLeaf
  | none => pure false

def refocusZoomedSubtree (fuel : ℕ) (sessionId : SessionId) (nodeId : NodeId) : StateOp Unit := do
  .ask (·.ensureNodeVisibleInSession fuel sessionId nodeId)
  if ← .ask (focusIsInside fuel sessionId nodeId) then
    pure ()
  else do
    let candidate ← .ask (·.resolveFocusCandidate fuel nodeId)
    focusOrClear fuel sessionId candidate

def zoomNode (fuel : ℕ) (nodeId : NodeId) : StateOp Unit := do
  let sessionId ← .ask (·.nodeSessionId nodeId)
  .ask (·.ensureNodeVisibleInSession fuel sessionId nodeId)
  refocusZoomedSubtree fuel sessionId nodeId
  sessionMut sessionId fun session ↦ { session with zoomedNode := some nodeId }

def unzoomSession (sessionId : SessionId) : StateOp Unit :=
  sessionMut sessionId fun session ↦ { session with zoomedNode := none }

def toggleZoomNode (fuel : ℕ) (nodeId : NodeId) : StateOp Unit := do
  let sessionId ← .ask (·.nodeSessionId nodeId)
  let session ← .ask (·.session sessionId)
  if session.zoomedNode = some nodeId then
    unzoomSession sessionId
  else
    zoomNode fuel nodeId

end ServerState

end Embers
