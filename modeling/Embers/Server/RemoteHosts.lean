import Embers.Core.Model

/-!
# Connections to other hosts

One connection is kept per host, opened when a buffer first needs one. Whoever opens it holds the
host's gate meanwhile, so that calls for one host at once share a connection. The gate is an `Arc`
of a mutex in a map, cloned by each call; the last call to let go of it removes it from the map,
which it tells by the `Arc`'s reference count.

`RemoteHosts.step` is one step of one call: the locks of the two maps, the awaits, and the drops of
the guard, of `GateCleanup` and of the call's own `Arc`, which leave the scope one after the other.
-/

namespace Embers

/-- Whether a host may be passed to the remote command. -/
def validateHost (host : String) : Bool :=
  ¬(host.toList = [] ∨ host.toList.head? = some '-' ∨
    host.toList.any fun ch ↦ isWhitespace ch ∨ isControl ch)

abbrev GateId : Type := ℕ

abbrev ConnectionId : Type := ℕ

/-- How a call of `connect` ends. -/
inductive ConnectOutcome where
  | returned (connection : ConnectionId)
  | failed
  | cancelled
  deriving DecidableEq, Repr

/-- Where a call of `connect` is. -/
inductive ConnectPhase where
  /-- Before it looks for an open connection. -/
  | called
  /-- Before it takes the gate from the map. -/
  | unopened
  /-- Waiting for the gate. -/
  | waiting (gate : GateId)
  /-- With the gate held, before it looks again. -/
  | holding (gate : GateId)
  /-- In `connector.connect`. -/
  | connecting (gate : GateId)
  /-- Waiting for the answer to the subscription. -/
  | subscribing (gate : GateId)
  /-- Before the guard is dropped. -/
  | leaving (gate : GateId) (outcome : ConnectOutcome)
  /-- Before `GateCleanup` is dropped. -/
  | unlocked (gate : GateId) (outcome : ConnectOutcome)
  /-- Before the call's own `Arc` is dropped. -/
  | cleaned (gate : GateId) (outcome : ConnectOutcome)
  | done (outcome : ConnectOutcome)
  deriving DecidableEq, Repr

namespace ConnectPhase

/-- The gate a call has an `Arc` of. -/
def arc : ConnectPhase → Option GateId
  | .waiting gate | .holding gate | .connecting gate | .subscribing gate | .leaving gate _
  | .unlocked gate _ | .cleaned gate _ => some gate
  | .called | .unopened | .done _ => none

/-- The gate a call holds. -/
def guarded : ConnectPhase → Option GateId
  | .holding gate | .connecting gate | .subscribing gate | .leaving gate _ => some gate
  | _ => none

/-- The gate a call has yet to clean up after. -/
def uncleaned : ConnectPhase → Option GateId
  | .waiting gate | .holding gate | .connecting gate | .subscribing gate | .leaving gate _
  | .unlocked gate _ => some gate
  | _ => none

/-- Whether a connection is being made. -/
def makes : ConnectPhase → Bool
  | .connecting _ | .subscribing _ => true
  | _ => false

/-- Whether a call has the gate before it, and has yet to look for a connection behind it. -/
def waits : ConnectPhase → Bool
  | .waiting _ | .holding _ => true
  | _ => false

def outcome : ConnectPhase → Option ConnectOutcome
  | .leaving _ outcome | .unlocked _ outcome | .cleaned _ outcome | .done outcome => some outcome
  | _ => none

end ConnectPhase

/-- A call of `connect`. -/
structure ConnectCall where
  host : String
  phase : ConnectPhase
  /-- The connection another call made while this one waited. -/
  made : Option ConnectionId

/-- An `Arc` of a mutex: how many there are of it, and whether it is locked. -/
structure Gate where
  strongCount : ℕ
  locked : Bool

structure RemoteHosts where
  /-- The connections made, by host. Lost ones stay until replaced. -/
  openConnections : String → Option ConnectionId
  connecting : String → Option GateId
  gates : GateId → Gate
  /-- The connections that are lost. -/
  lost : ConnectionId → Bool
  calls : List ConnectCall
  nextGate : GateId
  nextConnection : ConnectionId

inductive ConnectStep where
  | call (host : String)
  /-- `open_connection`, before the gate is taken. -/
  | look (call : ℕ)
  | take (call : ℕ)
  | lock (call : ℕ)
  /-- `open_connection` again, with the gate held. -/
  | lookAgain (call : ℕ)
  | connected (call : ℕ) (ok : Bool)
  | subscribed (call : ℕ) (ok : Bool)
  | cancel (call : ℕ)
  | dropGuard (call : ℕ)
  | dropCleanup (call : ℕ)
  | dropArc (call : ℕ)
  | lose (connection : ConnectionId)
  deriving DecidableEq, Repr

namespace RemoteHosts

def new : RemoteHosts :=
  ⟨fun _ ↦ none, fun _ ↦ none, fun _ ↦ ⟨0, false⟩, fun _ ↦ false, [], 0, 0⟩

variable (s : RemoteHosts)

def openConnection (host : String) : Option ConnectionId :=
  (s.openConnections host).filter fun connection ↦ ¬s.lost connection

/-- The call `i` goes on to `phase`. -/
def setPhase (i : ℕ) (call : ConnectCall) (phase : ConnectPhase) : RemoteHosts :=
  { s with calls := s.calls.set i { call with phase } }

def setGate (gate : GateId) (value : Gate) : RemoteHosts :=
  { s with gates := Function.update s.gates gate value }

/-- The gate of a host, made if it has none, and one more `Arc` of it. -/
def takeGate (host : String) : GateId × RemoteHosts :=
  match s.connecting host with
  | some gate =>
    (gate, s.setGate gate { s.gates gate with strongCount := (s.gates gate).strongCount + 1 })
  | none =>
    (s.nextGate, { s with
      connecting := Function.update s.connecting host (some s.nextGate)
      nextGate := s.nextGate + 1 }.setGate s.nextGate ⟨2, false⟩)

def lockGate (gate : GateId) (locked : Bool) : RemoteHosts :=
  s.setGate gate { s.gates gate with locked }

/-- One `Arc` less. -/
def releaseArc (gate : GateId) : RemoteHosts :=
  s.setGate gate { s.gates gate with strongCount := (s.gates gate).strongCount - 1 }

/-- `GateCleanup::drop`: the map's `Arc` and the call's own are the only ones. -/
def cleanUp (host : String) (gate : GateId) : RemoteHosts :=
  if (s.gates gate).strongCount = 2 then
    { s with connecting := Function.update s.connecting host none }.releaseArc gate
  else s

/-- A new connection is put in the map; calls that wait for the gate will find it. -/
def insertConnection (host : String) : RemoteHosts :=
  { s with
    openConnections := Function.update s.openConnections host (some s.nextConnection)
    nextConnection := s.nextConnection + 1
    calls := s.calls.map fun call ↦
      if call.host = host ∧ call.phase.waits then { call with made := some s.nextConnection }
      else call }

/-- One step, if it can be taken. -/
def step : ConnectStep → Option RemoteHosts
  | .call host => some { s with
      calls := s.calls ++
        [⟨host, if validateHost host then .called else .done .failed, none⟩] }
  | .look i => do
    let call ← s.calls[i]?
    match call.phase with
    | .called =>
      match s.openConnection call.host with
      | some connection => some (s.setPhase i call (.done (.returned connection)))
      | none => some (s.setPhase i call .unopened)
    | _ => none
  | .take i => do
    let call ← s.calls[i]?
    match call.phase with
    | .unopened =>
      let (gate, s) := s.takeGate call.host
      some (s.setPhase i call (.waiting gate))
    | _ => none
  | .lock i => do
    let call ← s.calls[i]?
    match call.phase with
    | .waiting gate =>
      if (s.gates gate).locked then none
      else some ((s.lockGate gate true).setPhase i call (.holding gate))
    | _ => none
  | .lookAgain i => do
    let call ← s.calls[i]?
    match call.phase with
    | .holding gate =>
      match s.openConnection call.host with
      | some connection => some (s.setPhase i call (.leaving gate (.returned connection)))
      | none => some (s.setPhase i call (.connecting gate))
    | _ => none
  | .connected i ok => do
    let call ← s.calls[i]?
    match call.phase with
    | .connecting gate =>
      some (s.setPhase i call (if ok then .subscribing gate else .leaving gate .failed))
    | _ => none
  | .subscribed i ok => do
    let call ← s.calls[i]?
    match call.phase with
    | .subscribing gate =>
      if ok then
        some ((s.insertConnection call.host).setPhase i call
          (.leaving gate (.returned s.nextConnection)))
      else some (s.setPhase i call (.leaving gate .failed))
    | _ => none
  | .cancel i => do
    let call ← s.calls[i]?
    match call.phase with
    | .waiting gate => some (s.setPhase i call (.unlocked gate .cancelled))
    | .connecting gate => some (s.setPhase i call (.leaving gate .cancelled))
    | .subscribing gate => some (s.setPhase i call (.leaving gate .cancelled))
    | _ => none
  | .dropGuard i => do
    let call ← s.calls[i]?
    match call.phase with
    | .leaving gate outcome =>
      some ((s.lockGate gate false).setPhase i call (.unlocked gate outcome))
    | _ => none
  | .dropCleanup i => do
    let call ← s.calls[i]?
    match call.phase with
    | .unlocked gate outcome =>
      some ((s.cleanUp call.host gate).setPhase i call (.cleaned gate outcome))
    | _ => none
  | .dropArc i => do
    let call ← s.calls[i]?
    match call.phase with
    | .cleaned gate outcome => some ((s.releaseArc gate).setPhase i call (.done outcome))
    | _ => none
  | .lose connection =>
    if connection < s.nextConnection then
      some { s with lost := Function.update s.lost connection true }
    else none

end RemoteHosts

end Embers
