import Embers.Cli.Targets
import Embers.Protocol.Records

/-!
# Resolving targets

A target is resolved against what the server answers: the sessions with their snapshots, and where
buffers are shown. The walks along a session's nodes follow the links they find, as the server's own
do, and take fuel for it.

`targetPane`, `targetWindow` and `targetSession` each parse the string for what they expect.
`switchTarget` parses it once to decide which of them to ask and then hands them the string again.
-/

namespace Embers.Cli

open Embers.Protocol

/-! ## What the server answers -/

inductive BufferLocationAttachment where
  | session (sessionId : SessionId) (nodeId : NodeId)
  | floating (sessionId : SessionId) (nodeId : NodeId) (floatingId : FloatingId)
  | detached
  deriving DecidableEq, Repr

def BufferLocationAttachment.sessionId : BufferLocationAttachment → Option SessionId
  | .session sessionId _ => some sessionId
  | .floating sessionId _ _ => some sessionId
  | .detached => none

def BufferLocationAttachment.nodeId : BufferLocationAttachment → Option NodeId
  | .session _ nodeId => some nodeId
  | .floating _ nodeId _ => some nodeId
  | .detached => none

/-- Where a buffer is shown. -/
structure BufferLocation where
  bufferId : BufferId
  attachment : BufferLocationAttachment
  deriving DecidableEq, Repr

def BufferLocation.sessionId (location : BufferLocation) : Option SessionId :=
  location.attachment.sessionId

def BufferLocation.nodeId (location : BufferLocation) : Option NodeId := location.attachment.nodeId

/-- What a command sees: the server's sessions, where its buffers are, and what the command was told
about the window numbers, its session and the pane it runs in. -/
structure Connection where
  snapshots : List SessionSnapshot
  location : BufferId → Option BufferLocationAttachment
  /-- The base index given to the command. -/
  baseIndex : Option UInt32
  /-- The session of the command prompt. -/
  defaultSession : Option SessionId
  /-- The buffer of the pane the command runs in. -/
  paneBuffer : Option BufferId

structure ResolvedWindow where
  snapshot : SessionSnapshot
  index : ℕ
  childId : NodeId
  deriving DecidableEq

structure ResolvedPane where
  snapshot : SessionSnapshot
  leafId : NodeId
  bufferId : BufferId
  deriving DecidableEq

/-! ## Reading a snapshot -/

def nodeRecord (snapshot : SessionSnapshot) (nodeId : NodeId) : Reply NodeRecord :=
  .ofOption (.notFound s!"node {nodeId} is not present in snapshot")
    (snapshot.nodes.find? (·.id = nodeId))

/-- The session's root tabs, whose tabs are its windows. -/
def rootTabs (snapshot : SessionSnapshot) : Reply (NodeRecord × TabsRecord) := do
  let node ← nodeRecord snapshot snapshot.session.rootNodeId
  match node.tabs with
  | some tabs => pure (node, tabs)
  | none =>
    .fail (.protocol s!"session {snapshot.session.id} root node {node.id} is not tabs")

def protocolTab (tabs : TabsRecord) (index : ℕ) : Option TabRecord := tabs.tabs[index]?

/-- The panes shown under a node, following each tabs node's active tab. -/
def visibleLeafIds (snapshot : SessionSnapshot) : ℕ → NodeId → Reply (List NodeId)
  | 0, _ => .error .diverges
  | fuel + 1, nodeId => do
    let node ← nodeRecord snapshot nodeId
    match node.kind with
    | .bufferView => pure [node.id]
    | .split =>
      match node.split with
      | none => .fail (.protocol s!"split node {nodeId} is malformed")
      | some split => Answer.collect (visibleLeafIds snapshot fuel) split.childIds
    | .tabs =>
      match node.tabs with
      | none => .fail (.protocol s!"tabs node {nodeId} is malformed")
      | some tabs =>
        match protocolTab tabs tabs.active.toNat with
        | none => .fail (.protocol s!"tabs node {nodeId} has invalid active index")
        | some tab => visibleLeafIds snapshot fuel tab.childId

/-- The child of the root that the chain of parents of a node goes through. -/
def rootChild (snapshot : SessionSnapshot) (rootId origin : NodeId) : ℕ → NodeId → Reply NodeId
  | 0, _ => .error .diverges
  | fuel + 1, childId => do
    let node ← nodeRecord snapshot childId
    match node.parentId with
    | none => .fail (.notFound s!"node {origin} is not in a window of its session")
    | some parentId =>
      if parentId = rootId then pure childId else rootChild snapshot rootId origin fuel parentId

/-- The root window holding a node: its index and the node it shows. -/
def windowContaining (fuel : ℕ) (snapshot : SessionSnapshot) (nodeId : NodeId) :
    Reply (ℕ × NodeId) := do
  let (tabsNode, tabs) ← rootTabs snapshot
  let childId ← rootChild snapshot tabsNode.id nodeId fuel nodeId
  match tabs.tabs.findIdx? (·.childId = childId) with
  | some index => pure (index, childId)
  | none => .fail (.protocol s!"window of node {nodeId} is not a root tab")

def resolvedPane (snapshot : SessionSnapshot) (paneId : NodeId) : Reply ResolvedPane := do
  let leaf ← nodeRecord snapshot paneId
  match leaf.bufferView with
  | some view => pure ⟨snapshot, paneId, view.bufferId⟩
  | none => .fail (.invalidInput s!"node {paneId} is not a pane leaf")

/-- The active pane of a window with these visible panes. -/
def windowActivePane (snapshot : SessionSnapshot) (childId : NodeId) (leaves : List NodeId) :
    Option NodeId :=
  (snapshot.session.focusedLeafId.filter (· ∈ leaves)).or
    ((((snapshot.nodes.find? (·.id = childId)).bind (·.focusLeafId)).filter (· ∈ leaves)).or
      leaves.head?)

/-! ## Windows -/

/-- The position of a window number among `count` windows. -/
def windowPosition (number count : ℕ) (baseIndex : UInt32) : Option ℕ :=
  if number < baseIndex.toNat then none
  else if number - baseIndex.toNat < count then some (number - baseIndex.toNat)
  else none

/-- The positions of the tabs whose title passes a test. -/
def tabsWith (tabs : TabsRecord) (p : List Char → Bool) : List ℕ :=
  (List.range tabs.tabs.length).filter fun index ↦
    (tabs.tabs[index]?).any fun tab ↦ p tab.title.toList

/-- A window by number, else by title. Without a base index a number may count from zero or one, and
is refused where both are windows. -/
def resolveWindowIndex (tabs : TabsRecord) (selector : List Char) (baseIndex : Option UInt32) :
    Reply ℕ :=
  let text := String.ofList selector
  let outOfRange : MuxError := .notFound s!"window index '{text}' is out of range"
  match baseIndex, parseNumber (2 ^ 64) selector with
  | some base, some number =>
    .ofOption outOfRange (windowPosition number tabs.tabs.length base)
  | _, _ =>
    match parseNumber (2 ^ 32) selector with
    | some index =>
      let zeroBased := (protocolTab tabs index).isSome
      let oneBased := decide (0 < index) && (protocolTab tabs (index - 1)).isSome
      match zeroBased, oneBased with
      | true, true => .fail (.invalidInput
          s!"window index '{text}' is ambiguous between 0-based and 1-based addressing")
      | true, false => pure index
      | false, true => pure (index - 1)
      | false, false => .fail outOfRange
    | none =>
      match tabsWith tabs (· = selector) with
      | [index] => pure index
      | [] => .fail (.notFound s!"window '{text}' was not found")
      | _ => .fail (.conflict s!"window title '{text}' matched multiple root tabs")

def windowNotFound : WindowSpec → MuxError
  | .id nodeId => .notFound s!"window @{nodeId} was not found"
  | .exact name => .notFound s!"window '{String.ofList name}' was not found"
  | .name name => .notFound s!"window '{String.ofList name}' was not found"
  | _ => .notFound "the session has no windows"

/-- The window so many after the current one, or before it, around the end. -/
def relativeWindow (count current : ℕ) (forward : Bool) (offset : ℕ) : Option ℕ :=
  if count = 0 ∨ 2 ^ 32 ≤ count then none
  else if forward then some ((current + offset % count) % count)
  else some ((current + count - offset % count) % count)

/-- A window by its whole title. -/
def exactWindow (tabs : TabsRecord) (name : List Char) : Reply (Option ℕ) :=
  match tabsWith tabs (· = name) with
  | [index] => pure (some index)
  | [] => pure none
  | _ => .fail (.conflict s!"window title '{String.ofList name}' matched multiple root tabs")

/-- A window by number or title, else by the start of a title. -/
def namedWindow (tabs : TabsRecord) (name : List Char) (baseIndex : Option UInt32) :
    Reply (Option ℕ) :=
  match resolveWindowIndex tabs name baseIndex with
  | .ok index => pure (some index)
  | .error (.error (.notFound message)) =>
    if (parseNumber (2 ^ 64) name).isNone then
      match tabsWith tabs (name.isPrefixOf ·) with
      | [index] => pure (some index)
      | [] => .fail (.notFound message)
      | _ => .fail (.conflict s!"window '{String.ofList name}' matches more than one window")
    else .fail (.notFound message)
  | .error fault => .error fault

/-- The index of a window among the root tabs. -/
def windowIndex (tabs : TabsRecord) (spec : WindowSpec) (baseIndex : Option UInt32)
    (current : Option ℕ) : Reply (Option ℕ) :=
  let count := tabs.tabs.length
  let currentIndex := current.getD tabs.active.toNat
  match spec with
  | .current => pure (some currentIndex)
  | .start => pure (if count > 0 then some 0 else none)
  | .last => pure (if count > 0 then some (count - 1) else none)
  | .next offset => pure (relativeWindow count currentIndex true offset)
  | .previous offset => pure (relativeWindow count currentIndex false offset)
  | .id nodeId => pure (tabs.tabs.findIdx? (·.childId = nodeId))
  | .exact name => exactWindow tabs name
  | .name name => namedWindow tabs name baseIndex

/-- A window of a session: its root tab index and the node it shows. -/
def windowIn (snapshot : SessionSnapshot) (spec : WindowSpec) (baseIndex : Option UInt32)
    (current : Option ℕ) : Reply (ℕ × NodeId) := do
  let (_, tabs) ← rootTabs snapshot
  match ← windowIndex tabs spec baseIndex current with
  | none => .fail (windowNotFound spec)
  | some index => do
    let tab ← .ofOption
      (.notFound s!"window index {index} is not present in session {snapshot.session.id}")
      (protocolTab tabs index)
    pure (index, tab.childId)

/-! ## Sessions -/

/-- A target with one of these characters is read as a pane when switching to it. -/
def readsAsPane (raw : List Char) : Bool := raw.any fun c ↦ c = ':' || c = '.' || c = '%'

namespace Connection

variable (w : Connection)

def sessions : List SessionRecord := w.snapshots.map (·.session)

def sessionSnapshot (sessionId : SessionId) : Reply SessionSnapshot :=
  .ofOption (.notFound s!"unknown session {sessionId}")
    (w.snapshots.find? (·.session.id = sessionId))

def baseIndexFor (snapshot : SessionSnapshot) : Option UInt32 :=
  w.baseIndex.or snapshot.session.baseIndex

def getLocation (bufferId : BufferId) : Reply BufferLocation :=
  .ofOption (.notFound s!"unknown buffer {bufferId}")
    ((w.location bufferId).map (BufferLocation.mk bufferId))

/-- Where the pane the command runs in is shown, if it runs in one. -/
def paneLocation : Reply (Option BufferLocation) :=
  match w.paneBuffer with
  | none => pure none
  | some bufferId => do pure (some (← w.getLocation bufferId))

/-- The session of the pane the command runs in, else the command prompt's, else the only one. -/
def currentSession : Reply SessionRecord := do
  let location ← w.paneLocation
  match location.bind (·.sessionId) with
  | some sessionId =>
    .ofOption (.notFound s!"session {sessionId} was not found")
      (w.sessions.find? (·.id = sessionId))
  | none =>
    match w.defaultSession.bind fun sessionId ↦ w.sessions.find? (·.id = sessionId) with
    | some session => pure session
    | none =>
      match w.sessions with
      | [session] => pure session
      | [] => .fail (.notFound "no sessions exist")
      | _ => .fail (.invalidInput "session target is required when multiple sessions exist")

/-- The one session of a list. -/
def onlySession (label : String) : List SessionRecord → Reply SessionRecord
  | [session] => pure session
  | [] => .fail (.notFound s!"session {label} was not found")
  | sessions => .fail (.invalidInput
      (s!"session {label} matches more than one session: "
        ++ String.intercalate ", " (sessions.map (·.name))))

def sessionBySpec : SessionSpec → Reply SessionRecord
  | .current => w.currentSession
  | .id id => onlySession s!"${id}" (w.sessions.filter (·.id = id))
  | .exact name =>
    onlySession s!"'{String.ofList name}'" (w.sessions.filter (·.name.toList = name))
  | .name name =>
    let whole := w.sessions.filter (·.name.toList = name)
    onlySession s!"'{String.ofList name}'"
      (if whole = [] then w.sessions.filter (name.isPrefixOf ·.name.toList) else whole)

/-! ## Targets -/

def paneShowing (bufferId : BufferId) : Reply ResolvedPane := do
  match (← w.getLocation bufferId).attachment with
  | .session sessionId nodeId => resolvedPane (← w.sessionSnapshot sessionId) nodeId
  | .floating sessionId nodeId _ => resolvedPane (← w.sessionSnapshot sessionId) nodeId
  | .detached => .fail (.notFound s!"buffer {bufferId} is not shown in a session")

/-- The window the command runs in, if it is one of this session. -/
def callerWindow (fuel : ℕ) (snapshot : SessionSnapshot) :
    Option BufferLocation → Reply (Option ℕ)
  | some ⟨_, .session sessionId nodeId⟩ =>
    if sessionId = snapshot.session.id then do
      pure (some (← windowContaining fuel snapshot nodeId).1)
    else pure none
  | _ => pure none

def windowBySpec (fuel : ℕ) (session : SessionSpec) (window : WindowSpec) :
    Reply ResolvedWindow := do
  let caller ← w.paneLocation
  let record ← w.sessionBySpec session
  let snapshot ← w.sessionSnapshot record.id
  let current ← callerWindow fuel snapshot caller
  let (index, childId) ← windowIn snapshot window (w.baseIndexFor snapshot) current
  pure ⟨snapshot, index, childId⟩

/-- The session's snapshot, if it has the node. -/
def snapshotWith (paneId : NodeId) (session : SessionRecord) : Reply (Option SessionSnapshot) := do
  let snapshot ← w.sessionSnapshot session.id
  match nodeRecord snapshot paneId with
  | .ok _ => pure (some snapshot)
  | .error _ => pure none

/-- The first session that has the node. -/
def findSessionContainingPane (paneId : NodeId) : Reply SessionSnapshot := do
  let found ← Answer.firstSome (w.snapshotWith paneId) w.sessions
  .ofOption (.notFound s!"pane {paneId} was not found") found

def windowById (nodeId : NodeId) : Reply ResolvedWindow := do
  let snapshot ← w.findSessionContainingPane nodeId
  let (index, childId) ← windowIn snapshot (.id nodeId) none none
  pure ⟨snapshot, index, childId⟩

/-- A window of the current session, else the current window of a session. When neither exists the
window's error is reported. -/
def windowFromWord (fuel : ℕ) (window : WindowSpec) (session : SessionSpec) :
    Reply ResolvedWindow :=
  match w.windowBySpec fuel .current window with
  | .ok window => pure window
  | .error .diverges => .error .diverges
  | .error (.error windowError) =>
    match w.windowBySpec fuel session .current with
    | .ok window => pure window
    | .error .diverges => .error .diverges
    | .error (.error sessionError) =>
      match windowError with
      | .notFound message => .fail (.notFound message)
      | _ => .fail sessionError

/-- A pane of a window. The current one is the one the command runs in when it is in the window,
else the window's active pane. -/
def paneIn (fuel : ℕ) (window : ResolvedWindow) (spec : PaneSpec) : Reply ResolvedPane := do
  let leaves ← visibleLeafIds window.snapshot fuel window.childId
  match spec with
  | .buffer bufferId => w.paneShowing bufferId
  | .index index =>
    match leaves[index]? with
    | some paneId => resolvedPane window.snapshot paneId
    | none => .fail (.notFound s!"pane index {index} is out of range")
  | .current =>
    let caller := (← w.paneLocation).bind (·.nodeId)
    match (caller.filter (· ∈ leaves)).or
      (windowActivePane window.snapshot window.childId leaves) with
    | some paneId => resolvedPane window.snapshot paneId
    | none => .fail (.notFound "window has no panes")

/-- The variable that names a pane's buffer to the programs in it. -/
def bufferEnvVar : String := "EMBERS_BUFFER"

/-- The pane the command runs in, else the current session's focused pane. -/
def currentPane : Reply ResolvedPane := do
  match ← w.paneLocation with
  | some location =>
    match location.sessionId, location.nodeId with
    | some sessionId, some paneId => resolvedPane (← w.sessionSnapshot sessionId) paneId
    | _, _ => .fail (.notFound
        s!"buffer {location.bufferId} of this pane ({bufferEnvVar}) is not shown in a session")
  | none =>
    let session ← w.currentSession
    let snapshot ← w.sessionSnapshot session.id
    match snapshot.session.focusedLeafId with
    | some paneId => resolvedPane snapshot paneId
    | none => .fail (.notFound "session has no focused pane")

def paneByTarget (fuel : ℕ) : Target → Reply ResolvedPane
  | .buffer bufferId => w.paneShowing bufferId
  | .node paneId => do resolvedPane (← w.findSessionContainingPane paneId) paneId
  | .windowId nodeId => do w.paneIn fuel (← w.windowById nodeId) .current
  | .word window session => do w.paneIn fuel (← w.windowFromWord fuel window session) .current
  | .path session window pane =>
    match pane with
    | .buffer bufferId => w.paneShowing bufferId
    | pane =>
      if session = .current ∧ window = .current ∧ pane = .current then w.currentPane
      else do w.paneIn fuel (← w.windowBySpec fuel session window) pane

def targetPane (fuel : ℕ) (raw : List Char) : Reply ResolvedPane := do
  w.paneByTarget fuel (← Target.parse raw .pane)

def targetWindow (fuel : ℕ) (raw : List Char) : Reply ResolvedWindow := do
  match ← Target.parse raw .window with
  | .buffer bufferId => do
    let pane ← w.paneByTarget fuel (.buffer bufferId)
    let (index, childId) ← windowContaining fuel pane.snapshot pane.leafId
    pure ⟨pane.snapshot, index, childId⟩
  | .node nodeId => do
    let pane ← w.paneByTarget fuel (.node nodeId)
    let (index, childId) ← windowContaining fuel pane.snapshot pane.leafId
    pure ⟨pane.snapshot, index, childId⟩
  | .windowId nodeId => w.windowById nodeId
  | .path session window _ => w.windowBySpec fuel session window
  | .word window session => w.windowFromWord fuel window session

def targetSession (fuel : ℕ) (raw : List Char) : Reply SessionRecord := do
  match ← Target.parse raw .session with
  | .path .current .current .current => w.currentSession
  | .path session .current .current => w.sessionBySpec session
  | .buffer _ => do w.sessionBySpec (.id (← w.targetPane fuel raw).snapshot.session.id)
  | .node _ => do w.sessionBySpec (.id (← w.targetPane fuel raw).snapshot.session.id)
  | _ => do w.sessionBySpec (.id (← w.targetWindow fuel raw).snapshot.session.id)

/-- What switching shows for a target read from a string, by the resolver for what it names. -/
def switchTo (fuel : ℕ) (raw : List Char) : Target → Reply (SessionId × Option NodeId)
  | .path _ .current .current => do pure ((← w.targetSession fuel raw).id, none)
  | .buffer _ | .node _ | .path _ _ (.index _) | .path _ _ (.buffer _) => do
    let pane ← w.targetPane fuel raw
    pure (pane.snapshot.session.id, some pane.leafId)
  | .windowId _ | .path _ _ .current | .word _ _ => do
    let window ← w.targetWindow fuel raw
    pure (window.snapshot.session.id, some window.childId)

/-- What `switch-client` shows: the session a target names, and the window or pane it names, if any.
A target with a colon, a dot or a percent sign is read as a pane, anything else as a session. -/
def switchTarget (fuel : ℕ) (raw : List Char) : Reply (SessionId × Option NodeId) := do
  w.switchTo fuel raw (← Target.parse raw (if readsAsPane raw then .pane else .session))

end Connection

end Embers.Cli
