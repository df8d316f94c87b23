import Embers.Protocol.Records

/-!
# What a client knows of the server

A client keeps a copy of the server's sessions, layout nodes, floating windows and buffers, put
together from three kinds of news: events, which say that something changed and sometimes to what;
snapshots of one session at a time; and lists of the buffers that no pane shows. Each is applied on
its own, so the tables may disagree with one another until all of them have been fetched again.

Beside the copy stand what a buffer last showed and how each pane of this client looks at it.

Line numbers are 64-bit in the source; additions to them saturate, which `saturatingAdd` writes out.
-/

namespace Embers.Client

open Embers.Protocol

/-- The sum, or the largest number of 64 bits. -/
def saturatingAdd (a b : ℕ) : ℕ := min (a + b) (2 ^ 64 - 1)

/-! ## Snapshots of a buffer -/

/-- A line of a terminal. Its styles, links and cells are left out. `number` is the line's number in
the history of its buffer; the source does not keep it, and no function here reads it. It says where
a line that is drawn came from. -/
structure SnapshotLine where
  text : String
  number : ℕ
  deriving DecidableEq, Repr

structure CursorPosition where
  row : UInt16
  col : UInt16
  deriving DecidableEq, Repr

/-- The program's cursor in its terminal. Its shape is left out. -/
structure CursorState where
  position : CursorPosition
  deriving DecidableEq, Repr

/-- What a buffer shows. The first of `lines` is line `viewportTopLine` of its history. -/
structure VisibleSnapshotResponse where
  bufferId : BufferId
  sequence : UInt64
  size : PtySize
  lines : List SnapshotLine
  title : Option String
  cwd : Option String
  viewportTopLine : ℕ
  totalLines : ℕ
  alternateScreen : Bool
  cursor : Option CursorState
  deriving DecidableEq

/-! ## Views -/

structure SearchMatch where
  line : ℕ
  startColumn : UInt16
  endColumn : UInt16
  deriving DecidableEq, Repr

structure SearchState where
  query : String
  found : List SearchMatch
  activeMatchIndex : Option ℕ
  deriving DecidableEq, Repr

structure HintMatch where
  label : String
  text : String
  line : ℕ
  startCol : UInt16
  endCol : UInt16
  deriving DecidableEq, Repr

structure HintsState where
  found : List HintMatch
  typed : String
  onSelect : Option String
  deriving DecidableEq, Repr

inductive SelectionKind where
  | character
  | line
  | block
  deriving DecidableEq, Repr

structure SelectionPoint where
  line : ℕ
  column : UInt16
  deriving DecidableEq, Repr

structure SelectionState where
  kind : SelectionKind
  anchor : SelectionPoint
  cursor : SelectionPoint
  deriving DecidableEq, Repr

/-- How a pane of this client looks at its buffer. -/
structure BufferViewState where
  bufferId : BufferId
  followOutput : Bool
  scrollTopLine : ℕ
  visibleLineCount : UInt16
  totalLineCount : ℕ
  alternateScreen : Bool
  visibleLines : List SnapshotLine
  searchState : Option SearchState
  selectionState : Option SelectionState
  hintsState : Option HintsState
  /-- The copy-mode cursor, set while the view is in copy mode. -/
  copyCursor : Option SelectionPoint
  deriving DecidableEq

/-- The first line of the last screen of the history. -/
def bottomTopLine (totalLineCount : ℕ) (visibleLineCount : UInt16) : ℕ :=
  totalLineCount - visibleLineCount.toNat

def clampTopLine (scrollTopLine totalLineCount : ℕ) (visibleLineCount : UInt16) : ℕ :=
  min scrollTopLine (bottomTopLine totalLineCount visibleLineCount)

/-! ## The state -/

structure ClientState where
  sessions : Table SessionId SessionRecord
  buffers : Table BufferId Protocol.BufferRecord
  nodes : Table NodeId NodeRecord
  floating : Table FloatingId FloatingRecord
  snapshots : Table BufferId VisibleSnapshotResponse
  viewState : Table NodeId BufferViewState
  dirtySessions : Std.ExtTreeSet SessionId compare
  invalidatedBuffers : Std.ExtTreeSet BufferId compare
  /-- Rows of terminal content this client draws for each pane. -/
  drawnRows : Table NodeId UInt16

namespace ClientState

def empty : ClientState := ⟨∅, ∅, ∅, ∅, ∅, ∅, ∅, ∅, ∅⟩

def sessionNodeIds (c : ClientState) (sessionId : SessionId) : List NodeId :=
  (c.nodes.toList.filter (·.2.sessionId = sessionId)).map (·.2.id)

def attachedBuffersForNodes (c : ClientState) (nodeIds : List NodeId) : List BufferId :=
  c.buffers.toList.filterMap fun entry ↦ do
    let nodeId ← entry.2.attachmentNodeId
    if nodeId ∈ nodeIds then some entry.2.id else none

/-- The buffer's record once the nodes are gone that may show it. -/
def detachFrom (nodeIds : List NodeId) (buffer : Protocol.BufferRecord) : Protocol.BufferRecord :=
  if buffer.attachmentNodeId.any (· ∈ nodeIds) then { buffer with attachmentNodeId := none }
  else buffer

def detachBuffersForNodes (c : ClientState) (nodeIds : List NodeId) : ClientState :=
  { c with buffers := c.buffers.map fun _ buffer ↦ detachFrom nodeIds buffer }

/-! ## Views follow their buffers -/

/-- A view that has not been looked at yet. -/
def freshView (view : BufferViewRecord) (snapshot : Option VisibleSnapshotResponse)
    (visibleLineCount : UInt16) (totalLineCount : ℕ) : BufferViewState where
  bufferId := view.bufferId
  followOutput := view.followOutput
  scrollTopLine :=
    (snapshot.map (·.viewportTopLine)).getD (bottomTopLine totalLineCount visibleLineCount)
  visibleLineCount := visibleLineCount
  totalLineCount := totalLineCount
  alternateScreen := snapshot.any (·.alternateScreen)
  visibleLines := (snapshot.map (·.lines)).getD []
  searchState := none
  selectionState := none
  hintsState := none
  copyCursor := none

/-- A view of the same buffer as before, brought up to date with the buffer's snapshot. -/
def updatedView (state : BufferViewState) (snapshot : Option VisibleSnapshotResponse)
    (visibleLineCount : UInt16) (totalLineCount : ℕ) (resetHints : Bool) : BufferViewState :=
  let alternateScreen := snapshot.any (·.alternateScreen)
  let snapshotLines := (snapshot.map (·.lines)).getD []
  let state := { state with
    hintsState := if resetHints then none else state.hintsState
    visibleLineCount, totalLineCount, alternateScreen }
  if alternateScreen then { state with visibleLines := snapshotLines }
  else
    let scrollTopLine :=
      if state.followOutput then bottomTopLine totalLineCount visibleLineCount
      else clampTopLine state.scrollTopLine totalLineCount visibleLineCount
    let liveTopLine := (snapshot.map (·.viewportTopLine)).getD scrollTopLine
    { state with
      scrollTopLine
      visibleLines :=
        if state.followOutput ∨ scrollTopLine = liveTopLine ∨ state.visibleLines = [] then
          snapshotLines
        else [] }

/-- The state that a sync gives the view of a node, none when it leaves the node alone. Hints are
reset when the sync follows a new snapshot of the buffer, whose content they would no longer match. -/
def syncedView (c : ClientState) (resetHints : Bool) (nodeId : NodeId) :
    Option BufferViewState := do
  let node ← c.nodes[nodeId]?
  if node.kind ≠ .bufferView then none
  else
    let view ← node.bufferView
    let snapshot := c.snapshots[view.bufferId]?
    let visibleLineCount := c.drawnRows[nodeId]?.getD view.lastRenderSize.rows
    let totalLineCount :=
      (snapshot.map fun snapshot ↦ max snapshot.totalLines visibleLineCount.toNat).getD
        visibleLineCount.toNat
    match c.viewState[nodeId]? with
    | some state =>
      if state.bufferId = view.bufferId then
        some (updatedView state snapshot visibleLineCount totalLineCount resetHints)
      else some (freshView view snapshot visibleLineCount totalLineCount)
    | none => some (freshView view snapshot visibleLineCount totalLineCount)

/-- One round of `sync_view_states_for_nodes`. -/
def syncViewState (resetHints : Bool) (c : ClientState) (nodeId : NodeId) : ClientState :=
  match c.syncedView resetHints nodeId with
  | none => c
  | some state => { c with viewState := c.viewState.insert nodeId state }

/-- The ids are a set in the source, so none is visited twice. -/
def syncViewStatesForNodes (c : ClientState) (nodeIds : List NodeId) (resetHints : Bool) :
    ClientState :=
  nodeIds.dedup.foldl (syncViewState resetHints) c

/-- The panes that show a buffer. -/
def viewsOf (c : ClientState) (bufferId : BufferId) : List NodeId :=
  (c.nodes.toList.filter fun entry ↦
    entry.2.kind = .bufferView ∧ entry.2.bufferView.any (·.bufferId = bufferId)).map (·.2.id)

def syncViewStatesForBuffer (c : ClientState) (bufferId : BufferId) : ClientState :=
  c.syncViewStatesForNodes (c.viewsOf bufferId) true

/-! ## What the user does with a view -/

def setViewFollowOutput (c : ClientState) (nodeId : NodeId) (followOutput : Bool) : ClientState :=
  match c.viewState[nodeId]? with
  | none => c
  | some state =>
    let snapshotLines := (c.snapshots[state.bufferId]?.map (·.lines)).getD []
    let state := { state with followOutput }
    let state :=
      if followOutput then
        { state with
          scrollTopLine := bottomTopLine state.totalLineCount state.visibleLineCount
          visibleLines := if snapshotLines = [] then state.visibleLines else snapshotLines }
      else state
    { c with viewState := c.viewState.insert nodeId state }

/-- The client draws `rows` rows of a pane, and its scroll position is sized to match. -/
def setViewDrawnRows (c : ClientState) (nodeId : NodeId) (rows : UInt16) : ClientState :=
  if c.drawnRows[nodeId]? = some rows then c
  else
    let c := { c with drawnRows := c.drawnRows.insert nodeId rows }
    match c.viewState[nodeId]? with
    | none => c
    | some state =>
      let totalLineCount := max state.totalLineCount rows.toNat
      let state := { state with
        visibleLineCount := rows
        totalLineCount
        scrollTopLine :=
          if state.followOutput then bottomTopLine totalLineCount rows
          else clampTopLine state.scrollTopLine totalLineCount rows }
      { c with viewState := c.viewState.insert nodeId state }

def setViewScrollTop (c : ClientState) (nodeId : NodeId) (scrollTopLine : ℕ) : ClientState :=
  match c.viewState[nodeId]? with
  | none => c
  | some state =>
    let scrollTopLine := clampTopLine scrollTopLine state.totalLineCount state.visibleLineCount
    let state := { state with
      scrollTopLine
      followOutput :=
        decide (scrollTopLine = bottomTopLine state.totalLineCount state.visibleLineCount) }
    { c with viewState := c.viewState.insert nodeId state }

def setViewVisibleLines (c : ClientState) (nodeId : NodeId) (scrollTopLine : ℕ)
    (lines : List SnapshotLine) : ClientState :=
  match c.viewState[nodeId]? with
  | none => c
  | some state =>
    let scrollTopLine := clampTopLine scrollTopLine state.totalLineCount state.visibleLineCount
    let state := { state with
      scrollTopLine
      followOutput :=
        decide (scrollTopLine = bottomTopLine state.totalLineCount state.visibleLineCount)
      visibleLines := lines }
    { c with viewState := c.viewState.insert nodeId state }

/-! ## News from the server -/

/-- The tables after a session's snapshot, before its views are synced. -/
def replaceSession (c : ClientState) (snapshot : SessionSnapshot) : ClientState :=
  let sessionId := snapshot.session.id
  let previousNodeIds := c.sessionNodeIds sessionId
  let previousAttachedBuffers := c.attachedBuffersForNodes previousNodeIds
  let currentNodeIds := snapshot.nodes.map (·.id)
  let currentBufferIds := snapshot.buffers.map (·.id)
  let currentFloatingIds := snapshot.floating.map (·.id)
  let nodes : Table NodeId NodeRecord := c.nodes.filter fun nodeId node ↦
    node.sessionId ≠ sessionId ∨ nodeId ∈ currentNodeIds
  let floating : Table FloatingId FloatingRecord := c.floating.filter fun floatingId window ↦
    window.sessionId ≠ sessionId ∨ floatingId ∈ currentFloatingIds
  let kept := fun nodeId ↦ decide (nodeId ∉ previousNodeIds ∨ nodeId ∈ currentNodeIds)
  let buffers := c.buffers.insertAll (·.id) snapshot.buffers
  { c with
    sessions := c.sessions.insert sessionId snapshot.session
    nodes := nodes.insertAll (·.id) snapshot.nodes
    floating := floating.insertAll (·.id) snapshot.floating
    viewState := c.viewState.filter fun nodeId _ ↦ kept nodeId
    drawnRows := c.drawnRows.filter fun nodeId _ ↦ kept nodeId
    -- The buffers the session showed before and no longer lists.
    buffers := buffers.modifyAll (detachFrom previousNodeIds)
      (previousAttachedBuffers.filter (· ∉ currentBufferIds)) }

def applySessionSnapshot (c : ClientState) (snapshot : SessionSnapshot) : ClientState :=
  let c := (c.replaceSession snapshot).syncViewStatesForNodes (snapshot.nodes.map (·.id)) false
  { c with dirtySessions := c.dirtySessions.erase snapshot.session.id }

/-- Forget a buffer the server no longer has. -/
def removeBuffer (c : ClientState) (bufferId : BufferId) : ClientState :=
  { c with
    buffers := c.buffers.erase bufferId
    snapshots := c.snapshots.erase bufferId
    viewState := c.viewState.filter fun _ state ↦ state.bufferId ≠ bufferId
    invalidatedBuffers := c.invalidatedBuffers.erase bufferId }

/-- The buffers the client believes no pane shows. -/
def detachedIds (c : ClientState) : List BufferId :=
  (c.buffers.toList.filter (·.2.attachmentNodeId.isNone)).map (·.2.id)

def applyDetachedBuffers (c : ClientState) (buffers : List Protocol.BufferRecord) : ClientState :=
  let incomingIds := buffers.map (·.id)
  let c := (c.detachedIds.filter (· ∉ incomingIds)).foldl removeBuffer c
  { c with buffers := c.buffers.insertAll (·.id) buffers }

def applyBufferRecord (c : ClientState) (buffer : Protocol.BufferRecord) : ClientState :=
  { c with buffers := c.buffers.insert buffer.id buffer }

/-- The tables after a buffer's snapshot, before its views are synced. -/
def recordSnapshot (c : ClientState) (snapshot : VisibleSnapshotResponse) : ClientState :=
  { c with
    buffers := c.buffers.modify snapshot.bufferId fun buffer ↦
      { buffer with
        lastSnapshotSeq := snapshot.sequence
        ptySize := snapshot.size
        title := snapshot.title.getD buffer.title
        cwd := snapshot.cwd.or buffer.cwd }
    invalidatedBuffers := c.invalidatedBuffers.erase snapshot.bufferId
    snapshots := c.snapshots.insert snapshot.bufferId snapshot }

def applyBufferSnapshot (c : ClientState) (snapshot : VisibleSnapshotResponse) : ClientState :=
  (c.recordSnapshot snapshot).syncViewStatesForBuffer snapshot.bufferId

def removeSession (c : ClientState) (sessionId : SessionId) : ClientState :=
  let nodeIds := c.sessionNodeIds sessionId
  let c := { c with
    sessions := c.sessions.erase sessionId
    nodes := c.nodes.filter fun _ node ↦ node.sessionId ≠ sessionId
    floating := c.floating.filter fun _ window ↦ window.sessionId ≠ sessionId
    viewState := c.viewState.filter fun nodeId _ ↦ nodeId ∉ nodeIds
    drawnRows := c.drawnRows.filter fun nodeId _ ↦ nodeId ∉ nodeIds }
  let c := c.detachBuffersForNodes nodeIds
  { c with dirtySessions := c.dirtySessions.erase sessionId }

end ClientState

/-- What a server tells its clients unasked. The events that do not touch the client's state carry
nothing here. -/
inductive ServerEvent where
  | sessionCreated (session : SessionRecord)
  | sessionClosed (sessionId : SessionId)
  | sessionRenamed (sessionId : SessionId) (name : String)
  | bufferCreated (buffer : Protocol.BufferRecord)
  | bufferPipeChanged (sessionId : Option SessionId) (buffer : Protocol.BufferRecord)
  | bufferDetached (bufferId : BufferId)
  | nodeChanged (sessionId : SessionId)
  | floatingChanged (sessionId : SessionId) (floatingId : Option FloatingId)
  | focusChanged (sessionId : SessionId) (focusedLeafId : Option NodeId)
      (focusedFloatingId : Option FloatingId)
  | renderInvalidated (bufferId : BufferId)
  | clientChanged
  | clipboard
  | displayMessage
  | passthrough
  | serverShutdown

namespace ClientState

def applyEvent (c : ClientState) : ServerEvent → ClientState
  | .sessionCreated session =>
    { c with
      sessions := c.sessions.insert session.id session
      dirtySessions := c.dirtySessions.insert session.id }
  | .sessionClosed sessionId => c.removeSession sessionId
  | .sessionRenamed sessionId name =>
    if c.sessions.contains sessionId then
      { c with sessions := c.sessions.modify sessionId fun session ↦ { session with name } }
    else { c with dirtySessions := c.dirtySessions.insert sessionId }
  | .bufferCreated buffer => { c with buffers := c.buffers.insert buffer.id buffer }
  | .bufferPipeChanged _ buffer => { c with buffers := c.buffers.insert buffer.id buffer }
  | .bufferDetached bufferId =>
    { c with
      buffers := c.buffers.modify bufferId fun buffer ↦
        { buffer with attachmentNodeId := none } }
  | .nodeChanged sessionId => { c with dirtySessions := c.dirtySessions.insert sessionId }
  | .floatingChanged sessionId _ => { c with dirtySessions := c.dirtySessions.insert sessionId }
  | .focusChanged sessionId focusedLeafId focusedFloatingId =>
    match c.sessions[sessionId]? with
    | none => c
    | some session =>
      { c with
        sessions := c.sessions.insert sessionId { session with focusedLeafId, focusedFloatingId }
        floating := session.floatingIds.foldl
          (fun windows floatingId ↦ windows.modify floatingId fun window ↦
            { window with focused := decide (some floatingId = focusedFloatingId) })
          c.floating }
  | .renderInvalidated bufferId =>
    { c with invalidatedBuffers := c.invalidatedBuffers.insert bufferId }
  | .clientChanged => c
  | .clipboard => c
  | .displayMessage => c
  | .passthrough => c
  | .serverShutdown => c

end ClientState

end Embers.Client
