import Embers.State.Move

/-!
# Changes to single records

Names, titles, sizes, options and states: operations that leave the layout, the focus and the
attachments as they are. Clock readings are parameters.
-/

namespace Embers

namespace ServerState

/-! ## Sessions -/

def renameSession (sessionId : SessionId) (name : String) : StateOp Unit :=
  let trimmed := trim name.toList
  if trimmed.isEmpty then
    .throw (.invalidInput "session name cannot be empty or whitespace")
  else
    sessionMut sessionId fun session ↦ { session with name := String.ofList trimmed }

def setSessionBaseIndex (sessionId : SessionId) (baseIndex : Option UInt32) : StateOp Unit := do
  sessionMut sessionId fun session ↦ { session with baseIndex }
  .modify fun s ↦ { s with lastBaseIndex := baseIndex }

def setSessionViewport (sessionId : SessionId) (viewport : Size) (paneTitles : Bool) :
    StateOp Unit := do
  sessionMut sessionId fun session ↦ { session with viewport := some viewport, paneTitles }
  .modify fun s ↦ { s with lastViewport := some viewport, lastPaneTitles := paneTitles }

/-! ## Tabs, splits and popups -/

def selectRootTab (fuel : ℕ) (sessionId : SessionId) (index : ℕ) : StateOp Unit := do
  let rootTabs ← .ask (·.rootTabs sessionId)
  switchTab fuel rootTabs index

def closeRootTab (fuel : ℕ) (sessionId : SessionId) (index : ℕ) : StateOp Unit := do
  let rootTabs ← .ask (·.rootTabs sessionId)
  closeTab fuel rootTabs index

def renameTab (tabsId : NodeId) (index : ℕ) (title : String) : StateOp Unit := do
  let _ ← .ask (tabChild tabsId index)
  .modify (mapNode tabsId (Node.mapTabs fun tabs ↦
    { tabs with tabs := tabs.tabs.modify index fun tab ↦ { tab with title } }))

def renameRootTab (sessionId : SessionId) (index : ℕ) (title : String) : StateOp Unit := do
  let rootTabs ← .ask (·.rootTabs sessionId)
  renameTab rootTabs index title

/-- Set tmux `synchronize-panes` for the window at `index`, or flip it; answers the new value. -/
def setRootTabSynchronizePanes (sessionId : SessionId) (index : ℕ) (enabled : Option Bool) :
    StateOp Bool := do
  let rootTabs ← .ask (·.rootTabs sessionId)
  let tabs ← .ask (·.tabsNode rootTabs)
  match tabs.tabs[index]? with
  | none => .throw (.notFound s!"tab index {index} is out of range for session {sessionId}")
  | some tab => do
    let synchronizePanes := enabled.getD (!tab.synchronizePanes)
    .modify (mapNode rootTabs (Node.mapTabs fun tabs ↦
      { tabs with tabs := tabs.tabs.modify index fun tab ↦ { tab with synchronizePanes } }))
    pure synchronizePanes

def resizeSplitChildren (splitId : NodeId) (sizes : List UInt16) : StateOp Unit := do
  match ← .ask (·.node splitId) with
  | .split split =>
    if sizes.length ≠ split.children.length then
      .throw (.invalidInput
        s!"split {splitId} expected {split.children.length} sizes but received {sizes.length}")
    else if 0 ∈ sizes then
      .throw (.invalidInput "split sizes must be greater than zero")
    else
      .modify (mapNode splitId (Node.mapSplit fun split ↦ { split with sizes }))
  | _ => .throw (.invalidInput "node is not a split")

/-- Frame the popup with its title, or let its content fill it. -/
def setFloatingBorder (floatingId : FloatingId) (border : Bool) : StateOp Unit :=
  floatingMut floatingId fun floating ↦ { floating with border }

def moveFloating (floatingId : FloatingId) (geometry : FloatGeometry) : StateOp Unit :=
  floatingMut floatingId fun floating ↦ { floating with geometry }

/-! ## Buffers -/

def hasExited (buffer : Buffer) : Bool :=
  match buffer.state with
  | .exited _ _ => true
  | _ => false

def markBufferRunning (bufferId : BufferId) (pid : Option UInt32) : StateOp Unit := do
  let buffer ← .ask (·.buffer bufferId)
  if hasExited buffer then
    .throw (.conflict s!"buffer {bufferId} has already exited")
  else
    bufferMut bufferId fun buffer ↦ { buffer with state := .running pid }

def markBufferInterrupted (bufferId : BufferId) (pid : Option UInt32) : StateOp Unit :=
  bufferMut bufferId fun buffer ↦
    if hasExited buffer then buffer else { buffer with state := .interrupted pid }

def markBufferExited (bufferId : BufferId) (exitCode : Option Int32) (now : Timestamp) :
    StateOp Unit :=
  bufferMut bufferId fun buffer ↦ { buffer with state := .exited exitCode now }

/-- What becomes of a buffer whose runtime did not survive a restart. -/
def interruptedState : BufferState → BufferState
  | .exited exitCode exitedAt => .exited exitCode exitedAt
  | .running pid => .interrupted pid
  | .interrupted lastKnownPid => .interrupted lastKnownPid
  | .created => .interrupted none

def interruptUnrecoverableBuffers : StateOp Unit :=
  .modify fun s ↦ { s with buffers := s.buffers.map fun _ buffer ↦
    { buffer with state := interruptedState buffer.state } }

def setBufferPlacement (bufferId : BufferId) (placement : Placement) : StateOp Unit :=
  bufferMut bufferId fun buffer ↦ { buffer with placement }

def setBufferSize (bufferId : BufferId) (size : PtySize) : StateOp Unit :=
  bufferMut bufferId fun buffer ↦ { buffer with ptySize := size }

def setBufferTitle (bufferId : BufferId) (title : String) : StateOp Unit :=
  bufferMut bufferId fun buffer ↦ { buffer with title }

/-- Record the buffer's size as the size of the view showing it; answers the view's session when
that changed it. -/
def syncBufferViewSize (bufferId : BufferId) : StateOp (Option SessionId) := do
  let buffer ← .ask (·.buffer bufferId)
  match buffer.attachment with
  | .detached => pure none
  | .attached nodeId => do
    match ← .ask (·.node nodeId) with
    | .bufferView view =>
      if view.view.lastRenderSize ≠ buffer.ptySize then do
        .modify (mapNode nodeId (Node.mapView fun view ↦
          { view with view := { view.view with lastRenderSize := buffer.ptySize } }))
        pure (some view.sessionId)
      else
        pure none
    | _ => pure none

/-- Count one chunk of output; answers the new count, which stays at `2⁶⁴ - 1` once there. -/
def noteBufferOutput (bufferId : BufferId) : StateOp UInt64 := do
  let buffer ← .ask (·.buffer bufferId)
  let sequence := if buffer.lastSnapshotSeq + 1 = 0 then buffer.lastSnapshotSeq
    else buffer.lastSnapshotSeq + 1
  bufferMut bufferId fun buffer ↦ { buffer with lastSnapshotSeq := sequence, activity := .activity }
  pure sequence

end ServerState

end Embers
