import Embers.State.Records
import Embers.State.CloseFrame
import Embers.Persist.Workspace

/-!
# Buffer runtimes and the saves that release them

A keeper outlives its server, so that a restart finds the program it runs. Once the program has
exited, or the server is done with it, the keeper waits to hear that no saved workspace needs it any
more: `BufferRuntimes.awaitingSave` holds those that wait, and `ExitRecorded` tells them.

A save takes a snapshot of the state and, under the same lock, the buffers waiting that the snapshot
no longer needs (`exitsRecordedIn`). It writes the snapshot, unless the file holds it already, and
only then tells their keepers. Registrations, exits and releases go on meanwhile, in other tasks:
`SaveStep` is one acquisition of a lock, one write, or one message to a keeper.
-/

namespace Embers

/-- A keeper process. -/
structure KeeperId where
  raw : ℕ
  deriving DecidableEq, Repr

inductive BufferRuntimeHandle where
  | keeper (keeper : KeeperId)
  | remote
  deriving DecidableEq, Repr

inductive RuntimeEnd where
  | exited (exitCode : Option Int32)
  | interrupted
  deriving DecidableEq, Repr

/-- The runtimes a server follows, as far as exits and saves go. -/
structure BufferRuntimes where
  running : Table BufferId BufferRuntimeHandle
  /-- Keepers waiting to hear that the workspace no longer needs them. -/
  awaitingSave : Table BufferId KeeperId
  /-- Buffers whose runtime reported an exit before it was registered. -/
  exitedEarly : List BufferId
  /-- Buffers whose runtimes the server is shutting down. -/
  shuttingDown : List BufferId

namespace BufferRuntimes

def new : BufferRuntimes := ⟨∅, ∅, [], []⟩

/-- Only a keeper is held for a save. -/
def awaitSave (r : BufferRuntimes) (bufferId : BufferId) :
    BufferRuntimeHandle → BufferRuntimes
  | .keeper keeper => { r with awaitingSave := r.awaitingSave.insert bufferId keeper }
  | .remote => r

/-- The runtime of a buffer ended. An exited one stays registered, and one that is not registered
yet is noted. -/
def ended (r : BufferRuntimes) (bufferId : BufferId) (runtimeEnd : RuntimeEnd) : BufferRuntimes :=
  let shuttingDown := bufferId ∈ r.shuttingDown
  let r := { r with shuttingDown := r.shuttingDown.filter (· ≠ bufferId) }
  match (if shuttingDown then .interrupted else runtimeEnd : RuntimeEnd) with
  | .interrupted => { r with running := r.running.erase bufferId }
  | .exited _ =>
    match r.running[bufferId]? with
    | some runtime => r.awaitSave bufferId runtime
    | none => { r with exitedEarly := bufferId :: r.exitedEarly }

/-- The first half of `register`. -/
def insertRunning (r : BufferRuntimes) (bufferId : BufferId) (runtime : BufferRuntimeHandle) :
    BufferRuntimes :=
  { r with running := r.running.insert bufferId runtime }

/-- The second half of `register`: the program may have exited before it was registered. -/
def finishRegister (r : BufferRuntimes) (bufferId : BufferId) (runtime : BufferRuntimeHandle)
    (exited : Bool) : BufferRuntimes :=
  let early := bufferId ∈ r.exitedEarly
  let r := { r with exitedEarly := r.exitedEarly.filter (· ≠ bufferId) }
  if early ∨ exited then r.awaitSave bufferId runtime else r

/-- The first half of `release` and `discard`. -/
def takeRunning (r : BufferRuntimes) (bufferId : BufferId) : BufferRuntimes :=
  { r with running := r.running.erase bufferId }

/-- The second half of `stop_unregistered`, and so of `discard`. -/
def stopUnregistered (r : BufferRuntimes) (bufferId : BufferId) (runtime : BufferRuntimeHandle) :
    BufferRuntimes :=
  { r with exitedEarly := r.exitedEarly.filter (· ≠ bufferId) }.awaitSave bufferId runtime

/-- The keepers of the given buffers that still wait, which wait no longer. -/
def saved (r : BufferRuntimes) : List BufferId → List (BufferId × KeeperId) × BufferRuntimes
  | [] => ([], r)
  | bufferId :: bufferIds =>
    match r.awaitingSave[bufferId]? with
    | none => r.saved bufferIds
    | some keeper =>
      let (keepers, r) :=
        saved { r with awaitingSave := r.awaitingSave.erase bufferId } bufferIds
      ((bufferId, keeper) :: keepers, r)

end BufferRuntimes

/-! ## Saves -/

deriving instance DecidableEq for PersistedSession, PersistedRemoteBuffer,
  PersistedHelperBufferScope, PersistedBufferKind, PersistedBufferState, PersistedBufferAttachment,
  PersistedActivityState, PersistedBuffer, PersistedSplitDirection, PersistedTabEntry, PersistedNode,
  PersistedFloatingWindow, PersistedWorkspace

/-- Whether two workspaces are the same apart from the activity of buffers. -/
def sameSavedState (a b : PersistedWorkspace) : Bool :=
  a.formatVersion = b.formatVersion ∧ a.sessions = b.sessions ∧ a.nodes = b.nodes ∧
    a.floating = b.floating ∧ a.nextSessionId = b.nextSessionId ∧
    a.nextBufferId = b.nextBufferId ∧ a.nextNodeId = b.nextNodeId ∧
    a.nextFloatingId = b.nextFloatingId ∧ a.buffers.length = b.buffers.length ∧
    (a.buffers.zip b.buffers).all fun (a, b) ↦ { a with activity := b.activity } = b

/-- The buffers waiting that the state, about to be saved, no longer needs the keepers of: exited,
gone, or without a keeper in its record. -/
def exitsRecordedIn (r : BufferRuntimes) (s : ServerState) : List BufferId :=
  r.awaitingSave.keys.filter fun bufferId ↦
    match s.buffers[bufferId]? with
    | none => true
    | some buffer => ServerState.hasExited buffer ∨ buffer.placement.socketPath = none

/-- Where `persist_workspace` stands while it holds `last_saved_workspace`. -/
inductive SavePhase where
  | idle
  | writing (snapshot : PersistedWorkspace) (released : List BufferId)
  /-- The file is replaced, and its directory has yet to be synced and the save noted. -/
  | written (snapshot : PersistedWorkspace) (released : List BufferId)

/-- The state, the runtimes and the saves of a server. The saves completed and the keepers told are
history; a keeper is told on account of a completed save, which is kept beside it. -/
structure SaveWorld where
  server : ServerState
  runtimes : BufferRuntimes
  phase : SavePhase
  lastSaved : Option PersistedWorkspace
  /-- What the server has left in the file, which is what a crash leaves the next one. -/
  file : Option PersistedWorkspace
  /-- The saves that are through, with the buffers whose keepers they are to tell. -/
  finished : List (List BufferId × PersistedWorkspace)
  /-- Keepers about to be told. -/
  telling : List (BufferId × KeeperId × PersistedWorkspace)
  /-- Every buffer there has been. -/
  created : List BufferId
  completed : List PersistedWorkspace
  told : List (BufferId × KeeperId × PersistedWorkspace)

namespace SaveWorld

def start (s : ServerState) : SaveWorld :=
  ⟨s, .new, .idle, none, none, [], [], s.buffers.keys, [], []⟩

/-- The last save that has completed. -/
def lastCompleted (w : SaveWorld) : Option PersistedWorkspace := w.completed.getLast?

/-- The snapshot of a save, and what it skips when the file holds it already. -/
def begin (w : SaveWorld) : SaveWorld :=
  let persisted := w.server.toPersisted
  let released := exitsRecordedIn w.runtimes w.server
  match w.lastSaved with
  | none => { w with phase := .writing persisted released }
  | some lastSaved =>
    if sameSavedState lastSaved persisted then
      { w with finished := w.finished ++ [(released, lastSaved)] }
    else { w with phase := .writing persisted released }

/-- The keepers of a finished save are taken off the list of those that wait. -/
def collect (w : SaveWorld) (released : List BufferId) (save : PersistedWorkspace) : SaveWorld :=
  let (keepers, runtimes) := w.runtimes.saved released
  { w with
    runtimes
    finished := w.finished.erase (released, save)
    telling := w.telling ++ keepers.map fun (bufferId, keeper) ↦ (bufferId, keeper, save) }

end SaveWorld

end Embers
