import Embers.Protocol.Records
import Embers.Server.RuntimeStatus
import Embers.Server.Runtimes
import Embers.Keeper.Router

/-!
# Following a buffer on another host

A buffer whose program runs on another host is a detached buffer of that host's server. The host
reports that the buffer changed, and what its program writes for the terminal, over the connection
that also carries the answers to requests; `serve_host` routes the reports to the buffer's pump over
two channels, one of which holds a single report of a change. The pump reads the host's record
whenever a change is reported, and hands on what changed and what was written.

`RemotePump` is the host's record, the messages on their way, the channels and the pump, while the
connection stays open. What it handed to the callbacks is its `log`.
-/

namespace Embers

inductive ClipboardSelection where
  | clipboard
  | primary
  deriving DecidableEq, Repr

structure ClipboardWrite where
  selection : ClipboardSelection
  text : String
  deriving DecidableEq, Repr

/-- Clipboard writes and passthrough from a buffer on the host. -/
inductive HostWrite where
  | clipboard (write : ClipboardWrite)
  | passthrough (writes : List PassthroughWrite)
  deriving DecidableEq, Repr

/-- What a buffer's runtime tells the server. -/
inductive RuntimeCallback where
  | output (update : BufferRuntimeUpdate)
  | write (write : HostWrite)
  | ended (runtimeEnd : RuntimeEnd)

/-- The answer to a request for the buffer's record. -/
inductive HostAnswer where
  | record (record : Protocol.BufferRecord)
  | notFound
  /-- Any other error. -/
  | failed
  deriving DecidableEq

inductive HostMessage where
  | invalidated
  | write (write : HostWrite)
  | answer (answer : HostAnswer)
  deriving DecidableEq

inductive PumpPhase where
  /-- About to read the record. -/
  | ready
  /-- Waiting for the record. -/
  | asked
  | replied (answer : HostAnswer)
  /-- In the `select!` over the two channels. -/
  | waiting
  | ended (runtimeEnd : RuntimeEnd)
  deriving DecidableEq

def pipeStatus (pipe : Protocol.BufferPipeRecord) : BufferRuntimePipeStatus where
  command := pipe.command
  running := pipe.state = .running
  pid := pipe.pid
  exitCode := pipe.exitCode
  stopReason := pipe.stopReason.bind fun
    | .requested => some .requested
    | .pipeExited => some .pipeExited
    | .writeFailed => some .writeFailed
    | .bufferExited => some .bufferExited
    | .runtimeInterrupted => none

/-- What the host's record says, in the terms of a local runtime's status. -/
def statusFromRecord (record : Protocol.BufferRecord) : BufferRuntimeStatus where
  pid := none
  sequence := record.lastSnapshotSeq
  activity := .idle
  title := if record.title ≠ "" then some record.title else none
  running := record.state ≠ .exited
  exitCode := record.exitCode
  pipe := record.pipe.map pipeStatus
  cwd := record.cwd
  bellSequence := record.bellSequence
  foregroundCommand := record.foregroundCommand

/-- The options that changed, set or unset, or nothing when none did. -/
def optionsDelta (last current : Table String String) : Option (Table String (Option String)) :=
  let delta : Table String (Option String) := current.toList.foldl (fun delta entry ↦
    if last[entry.1]? ≠ some entry.2 then delta.insert entry.1 (some entry.2) else delta) ∅
  let delta := last.keys.foldl (fun delta key ↦
    if current.contains key then delta else delta.insert key none) delta
  if delta.isEmpty then none else some delta

/-- What a record read says since the last one. -/
def recordUpdate (last : BufferRuntimeStatus) (options : Table String String)
    (record : Protocol.BufferRecord) : Option BufferRuntimeUpdate :=
  let status := statusFromRecord record
  let update := (statusUpdateDelta status last).map fun update ↦
    if update.sequence > last.sequence then { update with activity := .activity } else update
  match optionsDelta options record.userOptions with
  | none => update
  | some options => some { update.getD {
      sequence := status.sequence
      activity := .idle
      title := none
      pipe := none
      cwd := none
      foregroundCommand := none
      bellSequence := status.bellSequence
      userOptions := none } with userOptions := some options }

structure RemotePump where
  /-- The host's record, if it still has the buffer. -/
  record : Option Protocol.BufferRecord
  /-- Whether the record changed and the host has yet to say so. -/
  unreported : Bool
  /-- Whether the host has yet to answer a request for the record. -/
  requested : Bool
  /-- What the host sent and `serve_host` has yet to route, oldest first. -/
  wire : List HostMessage
  /-- Whether a report waits in the channel of changes. -/
  changes : Bool
  writes : List HostWrite
  phase : PumpPhase
  status : BufferRuntimeStatus
  options : Table String String
  log : List RuntimeCallback
  /-- The writes routed to the pump before it saw the buffer's end. -/
  routed : List HostWrite

inductive PumpStep where
  /-- The host's record changes, or the buffer is removed there. -/
  | change (record : Option Protocol.BufferRecord)
  /-- The host reports that the record changed. -/
  | report
  | write (write : HostWrite)
  /-- The host answers, unless it fails to. -/
  | answer (ok : Bool)
  /-- `serve_host` routes what came first. -/
  | route
  | takeChange
  | takeWrite
  | ask
  | resume

namespace RemotePump

variable (s : RemotePump)

/-- A pump starts with a status from an earlier record and reads the record once at the outset. -/
def start (initial : Protocol.BufferRecord) (record : Option Protocol.BufferRecord) (unreported : Bool) :
    RemotePump :=
  ⟨record, unreported, false, [], false, [], .ready, statusFromRecord initial, ∅, [], []⟩

def HasEnded : Prop := ∃ runtimeEnd, s.phase = .ended runtimeEnd

instance : Decidable s.HasEnded :=
  match h : s.phase with
  | .ended runtimeEnd => isTrue ⟨runtimeEnd, h⟩
  | .ready | .asked | .replied _ | .waiting => isFalse fun ⟨_, h'⟩ ↦ nomatch h.symm.trans h'

def answerNow (ok : Bool) : HostAnswer :=
  if ok then s.record.elim .notFound .record else .failed

/-- The channels' receivers are gone with the pump. -/
def route (message : HostMessage) : RemotePump :=
  match message with
  | .invalidated => if s.HasEnded then s else { s with changes := true }
  | .write write =>
    if s.HasEnded then s
    else { s with writes := s.writes ++ [write], routed := s.routed ++ [write] }
  | .answer answer => if s.phase = .asked then { s with phase := .replied answer } else s

def endPump (runtimeEnd : RuntimeEnd) : RemotePump :=
  { s with phase := .ended runtimeEnd, log := s.log ++ [.ended runtimeEnd] }

/-- The record read is taken over, and what it changes handed on. -/
def takeRecord (record : Protocol.BufferRecord) : RemotePump :=
  { s with
    phase := .waiting
    status := statusFromRecord record
    options := record.userOptions
    log := s.log ++ ((recordUpdate s.status s.options record).map .output).toList }

def resumeWith : HostAnswer → RemotePump
  | .record record =>
    if record.state = .exited then (s.takeRecord record).endPump (.exited record.exitCode)
    else s.takeRecord record
  | .notFound => s.endPump (.exited none)
  | .failed => { s with phase := .waiting }

/-- One step, if it can be taken. -/
def step : PumpStep → Option RemotePump
  | .change record => some { s with record, unreported := true }
  | .report =>
    if s.unreported then some { s with unreported := false, wire := s.wire ++ [.invalidated] }
    else none
  | .write write => some { s with wire := s.wire ++ [.write write] }
  | .answer ok =>
    if s.requested then
      some { s with requested := false, wire := s.wire ++ [.answer (s.answerNow ok)] }
    else none
  | .route =>
    match s.wire with
    | [] => none
    | message :: wire => some (route { s with wire } message)
  | .takeChange =>
    if s.phase = .waiting ∧ s.changes then some { s with changes := false, phase := .ready }
    else none
  | .takeWrite =>
    match s.writes with
    | [] => none
    | write :: writes =>
      if s.phase = .waiting then some { s with writes, log := s.log ++ [.write write] } else none
  | .ask => if s.phase = .ready then some { s with phase := .asked, requested := true } else none
  | .resume =>
    match s.phase with
    | .replied answer => some (s.resumeWith answer)
    | _ => none

def run (s : RemotePump) : List PumpStep → Option RemotePump
  | [] => some s
  | st :: steps => (s.step st).bind fun s' ↦ run s' steps

end RemotePump

end Embers
