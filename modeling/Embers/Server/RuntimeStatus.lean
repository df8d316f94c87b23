import Embers.State.Records

/-!
# Runtime status updates

A poller reads the status of a buffer's runtime again and again and reports what changed since the
last report. Each report is recorded by a task of its own, and the tasks of one buffer may run in
any order.

The record of a buffer is guarded by the status's sequence number, so that an update that comes
late does not undo a newer one.
-/

namespace Embers

/-! ## Statuses and updates -/

inductive BufferRuntimePipeStopReason where
  | requested
  | pipeExited
  | writeFailed
  | bufferExited
  deriving DecidableEq, Repr

structure BufferRuntimePipeStatus where
  command : List String
  running : Bool
  pid : Option UInt32
  exitCode : Option Int32
  stopReason : Option BufferRuntimePipeStopReason
  deriving DecidableEq, Repr

structure BufferRuntimeStatus where
  pid : Option UInt32
  sequence : UInt64
  activity : ActivityState
  title : Option String
  running : Bool
  exitCode : Option Int32
  pipe : Option BufferRuntimePipeStatus
  cwd : Option String
  /-- Count of output chunks that rang the bell since the runtime started. -/
  bellSequence : UInt64
  /-- Command line of the job in the foreground when that is not the pane's own process. -/
  foregroundCommand : Option (List String)
  deriving DecidableEq, Repr

/-- What changed since the last report: a field is `none` when it did not change. -/
structure BufferRuntimeUpdate where
  sequence : UInt64
  activity : ActivityState
  title : Option (Option String)
  pipe : Option (Option BufferRuntimePipeStatus)
  cwd : Option (Option String)
  foregroundCommand : Option (Option (List String))
  bellSequence : UInt64
  userOptions : Option (Table String (Option String))

/-- The value if the test holds: `bool::then`. -/
def changedTo {α : Type} [DecidableEq α] (new old : α) : Option α :=
  if new ≠ old then some new else none

/-- The fields a poll compares. -/
def BufferRuntimeStatus.Changed (status last : BufferRuntimeStatus) : Prop :=
  status.sequence ≠ last.sequence ∨ status.bellSequence ≠ last.bellSequence
    ∨ status.title ≠ last.title ∨ status.activity ≠ last.activity ∨ status.pipe ≠ last.pipe
    ∨ status.cwd ≠ last.cwd ∨ status.foregroundCommand ≠ last.foregroundCommand

instance (status last : BufferRuntimeStatus) : Decidable (status.Changed last) :=
  inferInstanceAs (Decidable (_ ∨ _))

/-- The update to emit for a polled status, or nothing when nothing changed. -/
def statusUpdateDelta (status last : BufferRuntimeStatus) : Option BufferRuntimeUpdate :=
  if status.Changed last then
    some {
      sequence := status.sequence
      activity := status.activity
      title := changedTo status.title last.title
      pipe := changedTo status.pipe last.pipe
      cwd := changedTo status.cwd last.cwd
      foregroundCommand := changedTo status.foregroundCommand last.foregroundCommand
      bellSequence := status.bellSequence
      userOptions := none }
  else
    none

/-- The last update of a poller that lost its runtime: the pipe is gone. -/
def notifyPipeRemoved (last : BufferRuntimeStatus) (sawExit : Bool) : Option BufferRuntimeUpdate :=
  if last.pipe.isNone ∧ sawExit then
    none
  else
    some {
      sequence := if last.sequence + 1 = 0 then last.sequence else last.sequence + 1
      activity := last.activity
      title := none
      pipe := some none
      cwd := none
      foregroundCommand := none
      bellSequence := last.bellSequence
      userOptions := none }

/-- The loop of the poller over the statuses it polls, until it is stopped or a poll fails. -/
def pollUpdates (failed : Bool) (last : BufferRuntimeStatus) (sawExit : Bool) :
    List BufferRuntimeStatus → List BufferRuntimeUpdate
  | [] => if failed then (notifyPipeRemoved last sawExit).toList else []
  | status :: rest =>
    match statusUpdateDelta status last with
    | some update => update :: pollUpdates failed status (sawExit || !status.running) rest
    | none => pollUpdates failed last (sawExit || !status.running) rest

/-- The updates a poller emits from an attach with status `initial`. The working directory starts
out unknown, so the first poll always reports it. -/
def spawnStatusPoller (failed : Bool) (initial : BufferRuntimeStatus)
    (statuses : List BufferRuntimeStatus) : List BufferRuntimeUpdate :=
  pollUpdates failed { initial with cwd := none } (!initial.running) statuses

/-! ## Recording an update -/

def modelPipeFromRuntime (status : BufferRuntimePipeStatus) : BufferPipe where
  command := status.command
  state :=
    if status.running then
      .running status.pid
    else
      .stopped status.exitCode (match status.stopReason.getD .pipeExited with
        | .requested => .requested
        | .pipeExited => .pipeExited
        | .writeFailed => .writeFailed
        | .bufferExited => .bufferExited)

def maxActivity : ActivityState → ActivityState → ActivityState
  | .bell, _ => .bell
  | _, .bell => .bell
  | .activity, _ => .activity
  | _, .activity => .activity
  | .idle, .idle => .idle

/-- A buffer being updated, and what the update means for clients and the saved workspace. -/
structure Recording where
  buffer : Buffer
  renderInvalidated : Bool
  workspaceChanged : Bool

namespace Recording

/-- A bell counts even when its output's sequence was already applied. A window a client shows is
not flagged. -/
def recordBell (shown : Bool) (update : BufferRuntimeUpdate) (r : Recording) : Recording :=
  if r.buffer.runtimeBellSequence < update.bellSequence then
    { r with
      buffer := { r.buffer with
        runtimeBellSequence := update.bellSequence
        activity := if shown then r.buffer.activity else .bell }
      renderInvalidated := true }
  else
    r

/-- New output: its number, its activity and the title it set, an unset one as the empty text. -/
def recordOutput (shown : Bool) (update : BufferRuntimeUpdate) (r : Recording) : Recording :=
  let title := match update.title with
    | some title => title.getD ""
    | none => r.buffer.title
  { buffer := { r.buffer with
      lastSnapshotSeq := update.sequence
      activity := if shown then r.buffer.activity
        else maxActivity r.buffer.activity update.activity
      title }
    renderInvalidated := true
    workspaceChanged := r.workspaceChanged || title != r.buffer.title }

/-- An unresolved directory never wipes a known one. -/
def recordCwd (update : BufferRuntimeUpdate) (r : Recording) : Recording :=
  match update.cwd with
  | some (some cwd) =>
    if some cwd ≠ r.buffer.cwd then
      ⟨{ r.buffer with cwd := some cwd }, true, true⟩
    else
      r
  | _ => r

def recordForegroundCommand (update : BufferRuntimeUpdate) (r : Recording) : Recording :=
  match update.foregroundCommand with
  | some foregroundCommand =>
    if foregroundCommand ≠ r.buffer.foregroundCommand then
      ⟨{ r.buffer with foregroundCommand }, true, true⟩
    else
      r
  | none => r

def recordPipe (update : BufferRuntimeUpdate) (r : Recording) : Recording :=
  match update.pipe with
  | some pipe =>
    if pipe.map modelPipeFromRuntime ≠ r.buffer.pipe then
      { r with
        buffer := { r.buffer with pipe := pipe.map modelPipeFromRuntime }
        renderInvalidated := true }
    else
      r
  | none => r

/-- Set or unset one option. -/
def recordOption (r : Recording) (option : String × Option String) : Recording :=
  let options := match option.2 with
    | some value => r.buffer.userOptions.insert option.1 value
    | none => r.buffer.userOptions.erase option.1
  if options[option.1]? ≠ r.buffer.userOptions[option.1]? then
    ⟨{ r.buffer with userOptions := options }, true, true⟩
  else
    r

def recordUserOptions (update : BufferRuntimeUpdate) (r : Recording) : Recording :=
  match update.userOptions with
  | some options => options.toList.foldl recordOption r
  | none => r

/-- The fields an update of the current or a newer sequence changes, besides the title. -/
def recordFields (update : BufferRuntimeUpdate) (r : Recording) : Recording :=
  recordUserOptions update
    (recordPipe update (recordForegroundCommand update (recordCwd update r)))

/-- What the update does to the record of its buffer. Same-sequence updates of everything but the
title are accepted; only lower-sequence ones are stale. -/
def record (shown : Bool) (update : BufferRuntimeUpdate) (buffer : Buffer) : Recording :=
  let belled := recordBell shown update ⟨buffer, false, false⟩
  let output := if buffer.lastSnapshotSeq < update.sequence then recordOutput shown update belled
    else belled
  if buffer.lastSnapshotSeq ≤ update.sequence then recordFields update output else output

end Recording

/-- What recording an update tells the clients: whether to redraw, the session of a changed pipe,
and whether there is something to save. -/
structure RecordedEvents where
  renderInvalidated : Bool
  pipeEvent : Option (Option SessionId)
  workspaceChanged : Bool

/-- The record with what the status of a newly attached runtime says. Bells are counted from the
runtime's own start. -/
def Buffer.withStatus (status : BufferRuntimeStatus) (buffer : Buffer) : Buffer :=
  { buffer with
    lastSnapshotSeq := status.sequence
    runtimeBellSequence := status.bellSequence
    pipe := status.pipe.map modelPipeFromRuntime
    foregroundCommand := status.foregroundCommand
    title := status.title.getD buffer.title
    activity := maxActivity buffer.activity status.activity }

namespace ServerState

/-- The session a changed pipe is announced with; nothing when the view is gone. -/
def bufferPipeChangedEvent (s : ServerState) (buffer : Buffer) : Option (Option SessionId) :=
  match buffer.attachment with
  | .detached => some none
  | .attached nodeId => s.nodes[nodeId]?.map fun node ↦ some node.sessionId

/-- Whether one of the sessions clients show is showing the buffer. -/
def shownIn (fuel : ℕ) (shownSessions : List SessionId) (bufferId : BufferId) (s : ServerState) :
    Read Bool := do
  let showing ← s.sessionShowingBuffer fuel bufferId
  pure (showing.any shownSessions.contains)

/-- Record an update, given the sessions clients show. -/
def recordBufferUpdate (fuel : ℕ) (shownSessions : List SessionId) (bufferId : BufferId)
    (update : BufferRuntimeUpdate) : StateOp RecordedEvents := do
  let shown ← .ask (shownIn fuel shownSessions bufferId)
  match ← .gets (·.buffers[bufferId]?) with
  | none => pure ⟨false, none, false⟩
  | some buffer => do
    let recorded := Recording.record shown update buffer
    .modify (mapBuffer bufferId fun _ ↦ recorded.buffer)
    let pipeEvent ← .gets fun s ↦
      if recorded.buffer.pipe ≠ buffer.pipe then s.bufferPipeChangedEvent recorded.buffer else none
    pure ⟨recorded.renderInvalidated, pipeEvent, recorded.workspaceChanged⟩

/-- A spawned task: the sessions clients showed when it ran, and the update it records. -/
structure RecordTask where
  shownSessions : List SessionId
  update : BufferRuntimeUpdate

/-- The tasks of one buffer, in the order they run. -/
def recordUpdates (fuel : ℕ) (bufferId : BufferId) (tasks : List RecordTask) : StateOp Unit :=
  Op.forEach (fun task ↦ do
    let _ ← recordBufferUpdate fuel task.shownSessions bufferId task.update) tasks

/-- Apply the status a runtime had when the server attached to it. -/
def applyRuntimeStatus (bufferId : BufferId) (status : BufferRuntimeStatus) (now : Timestamp) :
    StateOp Unit := do
  .modify (mapBuffer bufferId (Buffer.withStatus status))
  if status.running then do
    let _ ← (markBufferRunning bufferId status.pid).attempt
    pure ()
  else do
    let _ ← (markBufferExited bufferId status.exitCode now).attempt
    pure ()

end ServerState

end Embers
