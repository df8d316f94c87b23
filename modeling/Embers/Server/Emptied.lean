import Embers.State.Records

/-!
# Destroying emptied sessions

A request that closes a view first records which sessions show a pane. After the close, and after
exited buffers have been disposed of, it destroys every recorded session that shows none any more.
So does whatever disposes of exited buffers, for the sessions in which that closed a view.

Each of these is one acquisition of the state's lock, and other requests run in between.
`CloseSystem.step` is one acquisition; a `CloseTask` is where a request or the end of a buffer's
program stands between two of them. What a session was emptied by, where a task closed a view and
which sessions were destroyed is written down along the way: nothing in a step reads it.
-/

namespace Embers

/-- The requests that close a view. -/
inductive CloseRequest where
  | closeRootTab (sessionId : SessionId) (index : ℕ)
  | closeNode (nodeId : NodeId)
  | closeFloating (floatingId : FloatingId)
  deriving DecidableEq, Repr

namespace CloseRequest

def run (fuel : ℕ) : CloseRequest → StateOp Unit
  | closeRootTab sessionId index => ServerState.closeRootTab fuel sessionId index
  | closeNode nodeId => ServerState.closeNode fuel nodeId
  | closeFloating floatingId => ServerState.closeFloating fuel floatingId

/-- The session of the view a request is to close. -/
def sessionId (s : ServerState) : CloseRequest → Option SessionId
  | closeRootTab sessionId _ => some sessionId
  | closeNode nodeId => s.nodes[nodeId]?.map Node.sessionId
  | closeFloating floatingId => s.floating[floatingId]?.map FloatingWindow.sessionId

end CloseRequest

/-- The next acquisition of a request, or of the end of a program. -/
inductive ClosePhase where
  /-- Carry the request out. -/
  | close (request : CloseRequest)
  | disposeExitedBuffers
  /-- Destroy the sessions in which disposing closed the last view. -/
  | destroyChanged (changedSessions : List SessionId)
  /-- Destroy the sessions that had panes when the request came. -/
  | destroyEmptied
  deriving DecidableEq, Repr

structure CloseTask where
  phase : ClosePhase
  /-- The sessions that showed a pane when the request came; none for what is no close. -/
  hadPanes : List SessionId
  /-- The sessions in which the task has closed a view. -/
  closedIn : List SessionId
  deriving DecidableEq, Repr

/-- A session that was destroyed because it showed no pane. -/
structure DestroyedSession where
  sessionId : SessionId
  /-- The sessions in which the task that destroyed it had closed a view. -/
  closedIn : List SessionId
  /-- Whether it was a close that left the session without panes. -/
  emptiedByClose : Option Bool
  deriving DecidableEq, Repr

/-- The session lost its last pane to a close, or the task that destroyed it had closed a view
in it. -/
def DestroyedSession.Justified (destroyed : DestroyedSession) : Prop :=
  destroyed.sessionId ∈ destroyed.closedIn ∨ destroyed.emptiedByClose = some true

structure CloseSystem where
  server : ServerState
  tasks : Table ℕ CloseTask
  /-- For each session that came to show no pane: whether a close did that. -/
  emptiedByClose : Table SessionId Bool
  destroyed : List DestroyedSession

inductive CloseAction where
  /-- A request to close a view comes, and the sessions with panes are recorded. -/
  | request (taskId : ℕ) (request : CloseRequest)
  /-- Any other request, or the end of a program, has done what it does and cleans up. -/
  | cleanUp (taskId : ℕ)
  /-- A task goes on. -/
  | proceed (taskId : ℕ)
  /-- Any other change of the state: a request that closes nothing, or the end of a program. -/
  | change (f : ServerState → ServerState)

namespace ServerState

/-- Every session that shows at least one pane. -/
def sessionsWithPanes (fuel : ℕ) (s : ServerState) : Read (List SessionId) :=
  Answer.collect (fun sessionId ↦ do
    pure (if ← s.sessionHasPanes fuel sessionId then [sessionId] else [])) s.sessions.keys

/-- The session exists and shows no pane. -/
def isBare (fuel : ℕ) (s : ServerState) (sessionId : SessionId) : Bool :=
  s.sessions.contains sessionId && decide (s.sessionHasPanes fuel sessionId = .ok false)

end ServerState

namespace CloseSystem

/-- The state changes, by a close or not; the sessions that thereby came to show no pane are
written down. -/
def moveTo (fuel : ℕ) (closing : Bool) (server : ServerState) (sys : CloseSystem) : CloseSystem :=
  { sys with
    server
    emptiedByClose := (server.sessions.keys.filter fun sessionId ↦
      server.isBare fuel sessionId && !sys.server.isBare fuel sessionId).foldl
        (fun emptied sessionId ↦ emptied.insert sessionId closing) sys.emptiedByClose }

/-- One turn of `destroy_emptied_sessions`. -/
def destroyIfEmptied (fuel : ℕ) (closedIn : List SessionId) (sys : CloseSystem)
    (sessionId : SessionId) : Option CloseSystem :=
  if sys.server.sessions.contains sessionId then
    match sys.server.sessionHasPanes fuel sessionId with
    | .ok true => some sys
    | .ok false =>
      match sys.server.closeSession fuel sessionId with
      | (.ok (), server) => some { sys.moveTo fuel true server with
          destroyed := ⟨sessionId, closedIn, sys.emptiedByClose[sessionId]?⟩ :: sys.destroyed }
      | (.error (.error _), server) => some (sys.moveTo fuel true server)
      | (.error .diverges, _) => none
    | .error _ => none
  else
    some sys

/-- Destroy every session of the list that shows no pane. -/
def destroyEmptiedSessions (fuel : ℕ) (closedIn sessionIds : List SessionId) (sys : CloseSystem) :
    Option CloseSystem :=
  sessionIds.foldlM (destroyIfEmptied fuel closedIn) sys

def setTask (taskId : ℕ) (task : CloseTask) (sys : CloseSystem) : CloseSystem :=
  { sys with tasks := sys.tasks.insert taskId task }

/-- The next acquisition of a task. -/
def proceed (fuel : ℕ) (sys : CloseSystem) (taskId : ℕ) (task : CloseTask) : Option CloseSystem :=
  match task.phase with
  | .close request =>
    match request.run fuel sys.server with
    | (.ok (), server) => some ((sys.moveTo fuel true server).setTask taskId { task with
        phase := .disposeExitedBuffers
        closedIn := (request.sessionId sys.server).toList ++ task.closedIn })
    | (.error (.error _), server) => some ((sys.moveTo fuel true server).setTask taskId { task with
        phase := .disposeExitedBuffers })
    | (.error .diverges, _) => none
  | .disposeExitedBuffers =>
    match sys.server.disposeExitedBuffers fuel with
    | (.ok disposed, server) => some ((sys.moveTo fuel true server).setTask taskId { task with
        phase := .destroyChanged disposed.changedSessions.toList
        closedIn := disposed.changedSessions.toList ++ task.closedIn })
    | (.error _, _) => none
  | .destroyChanged changedSessions => do
    let sys ← sys.destroyEmptiedSessions fuel task.closedIn changedSessions
    pure (sys.setTask taskId { task with phase := .destroyEmptied })
  | .destroyEmptied => do
    let sys ← sys.destroyEmptiedSessions fuel task.closedIn task.hadPanes
    pure { sys with tasks := sys.tasks.erase taskId }

/-- One acquisition of the lock, when it can come next. -/
def step (fuel : ℕ) (sys : CloseSystem) : CloseAction → Option CloseSystem
  | .request taskId request =>
    if (sys.tasks[taskId]?).isNone then
      match sys.server.sessionsWithPanes fuel with
      | .ok hadPanes => some (sys.setTask taskId ⟨.close request, hadPanes, []⟩)
      | .error _ => none
    else
      none
  | .cleanUp taskId =>
    if (sys.tasks[taskId]?).isNone then
      some (sys.setTask taskId ⟨.disposeExitedBuffers, [], []⟩)
    else
      none
  | .proceed taskId => sys.tasks[taskId]?.bind (sys.proceed fuel taskId)
  | .change f => some (sys.moveTo fuel false (f sys.server))

/-! ## When a step does not get in a close's way -/

/-- A change that is no close leaves a session without panes only while no close that recorded
the session is under way, but for one that has already closed a view in it. -/
def Undisturbed (fuel : ℕ) (sys : CloseSystem) : CloseAction → Prop
  | .change f => ∀ sessionId, (f sys.server).isBare fuel sessionId →
    ¬ sys.server.isBare fuel sessionId → ∀ (taskId : ℕ) (task : CloseTask),
      sys.tasks[taskId]? = some task → sessionId ∈ task.hadPanes → sessionId ∈ task.closedIn
  | _ => True

/-- A step that gets in no close's way. -/
def CalmStep (fuel : ℕ) (sys sys' : CloseSystem) : Prop :=
  ∃ action, sys.Undisturbed fuel action ∧ sys.step fuel action = some sys'

/-- Nothing is under way, and nothing has been destroyed. -/
def Started (sys : CloseSystem) : Prop := sys.tasks = ∅ ∧ sys.destroyed = []

end CloseSystem

end Embers
