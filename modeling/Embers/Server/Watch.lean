import Embers.State.CloseFrame
import Embers.State.Records

/-!
# Watched buffers

Each connection keeps the set of buffers its client watches, under the lock of the clients. Each
buffer keeps a flag that says whether some client watches it, under the lock of the state. A
request takes the two locks one after the other, so the requests of different connections run
interleaved at the granularity of one acquisition: `WatchSystem.step` is one of them.

The requests of one connection are handled one after another, and its clean-up runs after the last
of them. A `WatchPhase` is where a connection stands between two acquisitions.
-/

namespace Embers

/-- What a connection does next, when it is its turn. -/
inductive WatchPhase where
  /-- No request in progress. -/
  | idle
  /-- A `Watch` that set the flag and has yet to register its client. -/
  | insertWatch (bufferId : BufferId)
  /-- `sync_watched_buffers`, about to read what the clients watch. -/
  | syncRead (bufferIds : List BufferId) (closing : Bool)
  /-- `sync_watched_buffers`, about to write the flags by what it read. -/
  | syncWrite (bufferIds watched : List BufferId) (closing : Bool)
  /-- `sync_watched_buffers`, about to dispose of the exited buffers nothing watches. -/
  | syncDispose (closing : Bool)
  deriving DecidableEq, Repr

/-- A synchronization of the buffer that has yet to write. -/
def WatchPhase.Syncs (bufferId : BufferId) : WatchPhase → Prop
  | .syncRead bufferIds _ => bufferId ∈ bufferIds
  | .syncWrite bufferIds _ _ => bufferId ∈ bufferIds
  | _ => False

instance (bufferId : BufferId) : (phase : WatchPhase) → Decidable (phase.Syncs bufferId)
  | .syncRead bufferIds _ => inferInstanceAs (Decidable (bufferId ∈ bufferIds))
  | .syncWrite bufferIds _ _ => inferInstanceAs (Decidable (bufferId ∈ bufferIds))
  | .idle => inferInstanceAs (Decidable False)
  | .insertWatch _ => inferInstanceAs (Decidable False)
  | .syncDispose _ => inferInstanceAs (Decidable False)

/-- The sets of the clients that are registered, the state of the server, and where each open
connection stands. -/
structure WatchSystem where
  clients : Table ClientId (Std.ExtTreeSet BufferId compare)
  server : ServerState
  tasks : Table ClientId WatchPhase

/-- One acquisition of a lock. -/
inductive WatchAction where
  | connect (clientId : ClientId)
  /-- A `Watch` request sets the flag. -/
  | watch (clientId : ClientId) (bufferId : BufferId)
  /-- An `Unwatch` request drops the buffer from its client's set. -/
  | unwatch (clientId : ClientId) (bufferId : BufferId)
  /-- The clean-up of a connection takes its client out. -/
  | disconnect (clientId : ClientId)
  /-- A `Detach` request takes a client out, whichever connection it came on. -/
  | detach (clientId : ClientId)
  /-- A connection goes on with the request or the clean-up it is in. -/
  | proceed (clientId : ClientId)
  deriving DecidableEq, Repr

namespace ServerState

/-- A `Watch` sets the flag, and the buffer counts as attached. -/
def markWatched (bufferId : BufferId) (s : ServerState) : ServerState :=
  s.mapBuffer bufferId fun buffer ↦ { buffer with watched := true, everAttached := true }

/-- The flags of the given buffers, by a list of what is watched. -/
def writeWatched (bufferIds watched : List BufferId) (s : ServerState) : ServerState :=
  bufferIds.foldl (fun s bufferId ↦ s.mapBuffer bufferId fun buffer ↦
    { buffer with watched := watched.contains bufferId }) s

end ServerState

namespace WatchSystem

/-- What the registered clients watch. -/
def watchedBuffers (sys : WatchSystem) : List BufferId :=
  sys.clients.toList.flatMap fun client ↦ client.2.toList

/-- A connection after its last step, when it is closing. -/
def finish (clientId : ClientId) (closing : Bool) (sys : WatchSystem) : WatchSystem :=
  { sys with tasks := if closing then sys.tasks.erase clientId else sys.tasks.insert clientId .idle }

/-- The next step of a request or a clean-up that stands in the given phase. -/
def proceed (fuel : ℕ) (clientId : ClientId) (sys : WatchSystem) :
    WatchPhase → Option WatchSystem
  | .idle => none
  | .insertWatch bufferId =>
    -- A client that was detached meanwhile is not registered any more.
    some { sys with
      clients := sys.clients.modify clientId (·.insert bufferId)
      tasks := sys.tasks.insert clientId .idle }
  | .syncRead bufferIds closing =>
    some { sys with
      tasks := sys.tasks.insert clientId (.syncWrite bufferIds sys.watchedBuffers closing) }
  | .syncWrite bufferIds watched closing =>
    some { sys with
      server := sys.server.writeWatched bufferIds watched
      tasks := sys.tasks.insert clientId (.syncDispose closing) }
  | .syncDispose closing =>
    match sys.server.disposeExitedBuffers fuel with
    | (.ok _, server) => some (finish clientId closing { sys with server })
    | (.error _, _) => none

/-- One acquisition of a lock, when it can come next. -/
def step (fuel : ℕ) (sys : WatchSystem) : WatchAction → Option WatchSystem
  | .connect clientId =>
    if (sys.tasks[clientId]?).isNone ∧ (sys.clients[clientId]?).isNone then
      some { sys with
        clients := sys.clients.insert clientId ∅
        tasks := sys.tasks.insert clientId .idle }
    else
      none
  | .watch clientId bufferId =>
    if sys.tasks[clientId]? = some .idle then
      match sys.server.buffers[bufferId]? with
      | some _ => some { sys with
          server := sys.server.markWatched bufferId
          tasks := sys.tasks.insert clientId (.insertWatch bufferId) }
      | none => some sys
    else
      none
  | .unwatch clientId bufferId =>
    if sys.tasks[clientId]? = some .idle then
      some { sys with
        clients := sys.clients.modify clientId (·.erase bufferId)
        tasks := sys.tasks.insert clientId (.syncRead [bufferId] false) }
    else
      none
  | .disconnect clientId =>
    if sys.tasks[clientId]? = some .idle then
      let watched := (sys.clients[clientId]?).elim [] (·.toList)
      some { sys with
        clients := sys.clients.erase clientId
        tasks := if watched = [] then sys.tasks.erase clientId
          else sys.tasks.insert clientId (.syncRead watched true) }
    else
      none
  | .detach clientId => some { sys with clients := sys.clients.erase clientId }
  | .proceed clientId => sys.tasks[clientId]?.bind (sys.proceed fuel clientId)

/-! ## What the flags should say -/

/-- No request and no clean-up is in progress. -/
def Quiescent (sys : WatchSystem) : Prop :=
  ∀ (clientId : ClientId) (phase : WatchPhase), sys.tasks[clientId]? = some phase → phase = .idle

/-- The client is connected and watches the buffer. -/
def Watches (sys : WatchSystem) (clientId : ClientId) (bufferId : BufferId) : Prop :=
  ∃ watched, sys.clients[clientId]? = some watched ∧ bufferId ∈ watched

/-- The flag of every buffer says whether a connected client watches it. -/
def FlagsAgree (sys : WatchSystem) : Prop :=
  ∀ (bufferId : BufferId) (buffer : Buffer), sys.server.buffers[bufferId]? = some buffer →
    (buffer.watched = true ↔ ∃ clientId, sys.Watches clientId bufferId)

/-- The client watches the buffer, or is about to. -/
def Claims (sys : WatchSystem) (clientId : ClientId) (bufferId : BufferId) : Prop :=
  sys.Watches clientId bufferId ∨ sys.tasks[clientId]? = some (.insertWatch bufferId)

/-- The connection is in a synchronization of the buffer that has yet to write. -/
def Syncs (sys : WatchSystem) (clientId : ClientId) (bufferId : BufferId) : Prop :=
  ∃ phase, sys.tasks[clientId]? = some phase ∧ phase.Syncs bufferId

def Claimed (sys : WatchSystem) (bufferId : BufferId) : Prop :=
  ∃ clientId, sys.Claims clientId bufferId

def Pending (sys : WatchSystem) (bufferId : BufferId) : Prop :=
  ∃ clientId, sys.Syncs clientId bufferId

def ClaimedElsewhere (sys : WatchSystem) (clientId : ClientId) (bufferId : BufferId) : Prop :=
  ∃ other, other ≠ clientId ∧ sys.Claims other bufferId

def PendingElsewhere (sys : WatchSystem) (clientId : ClientId) (bufferId : BufferId) : Prop :=
  ∃ other, other ≠ clientId ∧ sys.Syncs other bufferId

/-- The flag is right, counting the requests that are about to register a watcher, or some
synchronization of the buffer has yet to write. -/
def Settling (sys : WatchSystem) (bufferId : BufferId) (flag : Bool) : Prop :=
  (flag = true ↔ sys.Claimed bufferId) ∨ sys.Pending bufferId

/-- The invariant of the flags. -/
def FlagsSettling (sys : WatchSystem) : Prop :=
  ∀ (bufferId : BufferId) (buffer : Buffer), sys.server.buffers[bufferId]? = some buffer →
    sys.Settling bufferId buffer.watched

/-! ## When a step leaves the flags right -/

/-- The step is not disturbed by another connection's: a synchronization writes an answer that
is still right, and a client is only taken out when it leaves no flag behind. -/
def Undisturbed (sys : WatchSystem) : WatchAction → Prop
  | .detach clientId => ∀ bufferId ∈ sys.server.buffers, sys.Watches clientId bufferId →
    sys.tasks[clientId]? = some (.insertWatch bufferId) ∨ sys.ClaimedElsewhere clientId bufferId ∨
      sys.Pending bufferId
  | .proceed clientId => match sys.tasks[clientId]? with
    | some (.insertWatch bufferId) =>
      clientId ∈ sys.clients ∨ bufferId ∉ sys.server.buffers ∨
        sys.ClaimedElsewhere clientId bufferId ∨ sys.Pending bufferId
    | some (.syncWrite bufferIds watched _) => ∀ bufferId ∈ bufferIds,
      bufferId ∈ sys.server.buffers →
        (bufferId ∈ watched ↔ sys.Claimed bufferId) ∨ sys.PendingElsewhere clientId bufferId
    | _ => True
  | _ => True

/-- What the rest of the server does: it never changes the flag of a buffer, and the buffers it
adds are new, so that nobody watches them. -/
def Elsewhere (sys : WatchSystem) (server : ServerState) : Prop :=
  ∀ (bufferId : BufferId) (buffer : Buffer), server.buffers[bufferId]? = some buffer →
    (∃ buffer', sys.server.buffers[bufferId]? = some buffer' ∧ buffer'.watched = buffer.watched) ∨
      buffer.watched = false ∧ ¬ sys.Claimed bufferId ∧ bufferId ∉ sys.server.buffers

/-- One undisturbed step of a connection, or a step of the rest of the server. -/
inductive CalmStep (fuel : ℕ) (sys : WatchSystem) : WatchSystem → Prop
  | act {action : WatchAction} {sys' : WatchSystem} (hstep : sys.step fuel action = some sys')
      (hcalm : sys.Undisturbed action) : CalmStep fuel sys sys'
  | other {server : ServerState} (h : sys.Elsewhere server) : CalmStep fuel sys { sys with server }

/-- A server that has just started: no client, and no buffer watched. -/
def Started (sys : WatchSystem) : Prop :=
  sys.clients = ∅ ∧ sys.tasks = ∅ ∧
    ∀ (bufferId : BufferId) (buffer : Buffer), sys.server.buffers[bufferId]? = some buffer →
      buffer.watched = false

end WatchSystem

end Embers
