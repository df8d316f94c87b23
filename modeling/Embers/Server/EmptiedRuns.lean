import Embers.Server.Emptied

/-!
# What emptied the destroyed sessions

In a run in which no other change empties a session behind the back of a close, a session is only
destroyed when a close emptied it, or when the task that destroys it closed a view in it.

`Sound` is the invariant: for each session a task has recorded and that shows no pane now, it is
already so. A task records sessions that show a pane, so nothing is to be shown when it does; after
that, only a step that leaves the session without panes matters, and that step is a close or is
ruled out.

A request that detaches a session's last buffer between the record and the destruction is such a
change, and the close of another client then destroys the session.
-/

namespace Embers

namespace CloseSystem

variable {fuel : ℕ} {sys sys' : CloseSystem} {server : ServerState} {sessionId : SessionId}

/-! ## What is written down -/

theorem foldl_insert_get? (closing : Bool) (sessionId : SessionId) :
    ∀ (sessionIds : List SessionId) (emptied : Table SessionId Bool),
      (sessionIds.foldl (fun emptied sessionId ↦ emptied.insert sessionId closing) emptied)[
        sessionId]? = if sessionId ∈ sessionIds then some closing else emptied[sessionId]?
  | [], emptied => by simp
  | first :: rest, emptied => by
    rw [List.foldl_cons, foldl_insert_get? closing sessionId rest, Table.get?_insert]
    by_cases hrest : sessionId ∈ rest
    · rw [if_pos hrest, if_pos (List.mem_cons_of_mem first hrest)]
    · rw [if_neg hrest]
      by_cases hfirst : first = sessionId
      · rw [if_pos hfirst, if_pos (List.mem_cons.mpr (.inl hfirst.symm))]
      · rw [if_neg hfirst, if_neg]
        simp [hrest, Ne.symm hfirst]

/-- A session that came to show no pane is written down. -/
theorem moveTo_emptied_of_bare {closing : Bool} (hbare : server.isBare fuel sessionId)
    (hbefore : ¬ sys.server.isBare fuel sessionId) :
    (sys.moveTo fuel closing server).emptiedByClose[sessionId]? = some closing := by
  rw [moveTo, foldl_insert_get?, if_pos]
  have hexists : server.sessions.contains sessionId := (Bool.and_eq_true_iff.mp hbare).1
  rw [List.mem_filter]
  refine ⟨Table.mem_keys.mpr (Table.contains_iff.mp hexists), ?_⟩
  rw [hbare, Bool.eq_false_iff.mpr hbefore]
  rfl

theorem moveTo_emptied_of_bare_before {closing : Bool}
    (hbefore : sys.server.isBare fuel sessionId) :
    (sys.moveTo fuel closing server).emptiedByClose[sessionId]? =
      sys.emptiedByClose[sessionId]? := by
  rw [moveTo, foldl_insert_get?, if_neg]
  rw [List.mem_filter, hbefore]
  simp

/-! ## The invariant -/

/-- Nothing has been destroyed without reason, and nothing is going to be. -/
structure Sound (fuel : ℕ) (sys : CloseSystem) : Prop where
  recorded (taskId : ℕ) (task : CloseTask) (htask : sys.tasks[taskId]? = some task)
    (sessionId : SessionId) (hmem : sessionId ∈ task.hadPanes)
    (hbare : sys.server.isBare fuel sessionId) :
    sessionId ∈ task.closedIn ∨ sys.emptiedByClose[sessionId]? = some true
  changed (taskId : ℕ) (task : CloseTask) (htask : sys.tasks[taskId]? = some task)
    (changedSessions : List SessionId) (hphase : task.phase = .destroyChanged changedSessions) :
    changedSessions ⊆ task.closedIn
  destroyed (d : DestroyedSession) (hmem : d ∈ sys.destroyed) : d.Justified

theorem Started.sound (h : sys.Started) : Sound fuel sys := by
  obtain ⟨htasks, hdestroyed⟩ := h
  constructor
  · intro taskId task htask
    simp [htasks] at htask
  · intro taskId task htask
    simp [htasks] at htask
  · simp [hdestroyed]

/-- A change of the state: a close, or one that empties no session a task has recorded. -/
theorem Sound.moveTo (h : Sound fuel sys) {closing : Bool}
    (hcalm : closing = false → ∀ sessionId, server.isBare fuel sessionId →
      ¬ sys.server.isBare fuel sessionId → ∀ (taskId : ℕ) (task : CloseTask),
        sys.tasks[taskId]? = some task → sessionId ∈ task.hadPanes → sessionId ∈ task.closedIn) :
    Sound fuel (sys.moveTo fuel closing server) := by
  refine ⟨fun taskId task htask sessionId hmem hbare ↦ ?_, h.changed, h.destroyed⟩
  by_cases hbefore : sys.server.isBare fuel sessionId
  · rw [moveTo_emptied_of_bare_before hbefore]
    exact h.recorded taskId task htask sessionId hmem hbefore
  · cases closing with
    | true => exact .inr (moveTo_emptied_of_bare hbare hbefore)
    | false => exact .inl (hcalm rfl sessionId hbare hbefore taskId task htask hmem)

theorem Sound.close (h : Sound fuel sys) (server : ServerState) :
    Sound fuel (sys.moveTo fuel true server) := h.moveTo nofun

/-- A task that is new, or goes on. -/
theorem Sound.setTask (h : Sound fuel sys) {taskId : ℕ} {task : CloseTask}
    (hrecorded : ∀ sessionId ∈ task.hadPanes, sys.server.isBare fuel sessionId →
      sessionId ∈ task.closedIn ∨ sys.emptiedByClose[sessionId]? = some true)
    (hchanged : ∀ changedSessions, task.phase = .destroyChanged changedSessions →
      changedSessions ⊆ task.closedIn) :
    Sound fuel (sys.setTask taskId task) := by
  constructor
  · intro other task' htask'
    rw [CloseSystem.setTask, Table.get?_insert] at htask'
    split at htask'
    · cases htask'
      exact hrecorded
    · exact h.recorded other task' htask'
  · intro other task' htask'
    rw [CloseSystem.setTask, Table.get?_insert] at htask'
    split at htask'
    · cases htask'
      exact hchanged
    · exact h.changed other task' htask'
  · exact h.destroyed

/-- A task that goes on and has closed a view in further sessions. -/
theorem Sound.goOn (h : Sound fuel sys) {taskId : ℕ} {task : CloseTask}
    (htask : sys.tasks[taskId]? = some task) {phase : ClosePhase} (closedIn : List SessionId)
    (hchanged : ∀ changedSessions, phase = .destroyChanged changedSessions →
      changedSessions ⊆ closedIn ++ task.closedIn) :
    Sound fuel (sys.setTask taskId { task with phase, closedIn := closedIn ++ task.closedIn }) := by
  refine h.setTask (fun sessionId hmem hbare ↦ ?_) hchanged
  exact (h.recorded taskId task htask sessionId hmem hbare).imp_left (List.mem_append_right _)

/-! ## Destroying -/

/-- A turn of the loop leaves the tasks alone. -/
theorem destroyIfEmptied_tasks {closedIn : List SessionId}
    (h : sys.destroyIfEmptied fuel closedIn sessionId = some sys') : sys'.tasks = sys.tasks := by
  rw [destroyIfEmptied] at h
  split at h
  · split at h
    · cases h
      rfl
    · split at h
      · cases h
        rfl
      · cases h
        rfl
      · cases h
    · cases h
  · cases h
    rfl

theorem destroyIfEmptied_sound {closedIn : List SessionId} (hsound : Sound fuel sys)
    (hreason : sys.server.isBare fuel sessionId →
      sessionId ∈ closedIn ∨ sys.emptiedByClose[sessionId]? = some true)
    (h : sys.destroyIfEmptied fuel closedIn sessionId = some sys') : Sound fuel sys' := by
  rw [destroyIfEmptied] at h
  split at h
  next hexists =>
    split at h
    · cases h
      exact hsound
    next hpanes =>
      have hbare : sys.server.isBare fuel sessionId := by
        rw [ServerState.isBare, hexists, hpanes]
        rfl
      split at h
      next server _ =>
        cases h
        refine ⟨(hsound.close server).recorded, (hsound.close server).changed, fun d hd ↦ ?_⟩
        rcases List.mem_cons.mp hd with rfl | hd
        · exact hreason hbare
        · exact hsound.destroyed d hd
      next server _ =>
        cases h
        exact hsound.close server
      · cases h
    · cases h
  · cases h
    exact hsound

/-- The loop, over sessions a task has recorded or closed a view in. -/
theorem destroyEmptiedSessions_sound {taskId : ℕ} {task : CloseTask} :
    ∀ {sessionIds : List SessionId} {sys : CloseSystem}, Sound fuel sys →
      sys.tasks[taskId]? = some task →
      (∀ sessionId ∈ sessionIds, sessionId ∈ task.closedIn ∨ sessionId ∈ task.hadPanes) →
      sys.destroyEmptiedSessions fuel task.closedIn sessionIds = some sys' →
      Sound fuel sys' ∧ sys'.tasks = sys.tasks
  | [], sys, hsound, _, _, h => by
    cases h
    exact ⟨hsound, rfl⟩
  | first :: rest, sys, hsound, htask, hmem, h => by
    obtain ⟨next, hnext, hrest⟩ := Option.bind_eq_some_iff.mp h
    have htasks := destroyIfEmptied_tasks hnext
    have hreason : sys.server.isBare fuel first →
        first ∈ task.closedIn ∨ sys.emptiedByClose[first]? = some true := fun hbare ↦
      (hmem first List.mem_cons_self).elim .inl fun hhad ↦
        hsound.recorded taskId task htask first hhad hbare
    obtain ⟨hsound', htasks'⟩ := destroyEmptiedSessions_sound
      (destroyIfEmptied_sound hsound hreason hnext) (htasks ▸ htask)
      (fun sessionId h ↦ hmem sessionId (List.mem_cons_of_mem first h)) hrest
    exact ⟨hsound', htasks'.trans htasks⟩

/-! ## One step -/

/-- A session that showed a pane is not bare. -/
theorem not_isBare_of_mem_sessionsWithPanes {s : ServerState} {hadPanes : List SessionId}
    (h : s.sessionsWithPanes fuel = .ok hadPanes) (hmem : sessionId ∈ hadPanes) :
    ¬ s.isBare fuel sessionId := by
  have hpanes : s.sessionHasPanes fuel sessionId = .ok true := by
    obtain ⟨other, -, others, hothers, hmem'⟩ := Answer.mem_collect h hmem
    obtain ⟨shows, hshows, heq⟩ := Answer.ok_bind hothers
    cases heq
    cases shows with
    | false => simp at hmem'
    | true =>
      rw [if_pos rfl, List.mem_singleton] at hmem'
      rw [hmem', hshows]
  simp [ServerState.isBare, hpanes]

theorem proceed_sound {taskId : ℕ} {task : CloseTask} (hsound : Sound fuel sys)
    (htask : sys.tasks[taskId]? = some task) (h : sys.proceed fuel taskId task = some sys') :
    Sound fuel sys' := by
  rw [proceed] at h
  split at h
  next request hphase =>
    split at h
    next server _ =>
      cases h
      exact (hsound.close server).goOn htask _ nofun
    next server _ =>
      cases h
      exact (hsound.close server).goOn htask [] nofun
    · cases h
  next hphase =>
    split at h
    next disposed server _ =>
      cases h
      refine (hsound.close server).goOn htask _ fun changedSessions heq ↦ ?_
      cases heq
      exact List.subset_append_left _ _
    · cases h
  next changedSessions hphase =>
    obtain ⟨sys₁, hdestroy, heq⟩ := Option.bind_eq_some_iff.mp h
    cases heq
    obtain ⟨hsound₁, htasks⟩ := destroyEmptiedSessions_sound hsound htask
      (fun sessionId hmem ↦ .inl (hsound.changed taskId task htask _ hphase hmem)) hdestroy
    exact hsound₁.goOn (htasks ▸ htask) [] nofun
  next hphase =>
    obtain ⟨sys₁, hdestroy, heq⟩ := Option.bind_eq_some_iff.mp h
    cases heq
    obtain ⟨hsound₁, -⟩ := destroyEmptiedSessions_sound hsound htask (fun _ hmem ↦ .inr hmem) hdestroy
    have hothers : ∀ (other : ℕ) (task' : CloseTask),
        (sys₁.tasks.erase taskId)[other]? = some task' → sys₁.tasks[other]? = some task' := by
      intro other task' htask'
      rw [Table.get?_erase] at htask'
      split at htask'
      · cases htask'
      · exact htask'
    exact ⟨fun other task' htask' ↦ hsound₁.recorded other task' (hothers other task' htask'),
      fun other task' htask' ↦ hsound₁.changed other task' (hothers other task' htask'),
      hsound₁.destroyed⟩

theorem CalmStep.sound (h : CalmStep fuel sys sys') (hsound : Sound fuel sys) :
    Sound fuel sys' := by
  obtain ⟨action, hcalm, hstep⟩ := h
  cases action with
  | request taskId request =>
    obtain ⟨-, hstep⟩ := Option.ite_none_right_eq_some.mp hstep
    split at hstep
    next hadPanes hpanes =>
      cases hstep
      refine hsound.setTask (fun sessionId hmem hbare ↦ ?_) nofun
      exact absurd hbare (not_isBare_of_mem_sessionsWithPanes hpanes hmem)
    · cases hstep
  | cleanUp taskId =>
    obtain ⟨-, hstep⟩ := Option.ite_none_right_eq_some.mp hstep
    cases hstep
    exact hsound.setTask nofun nofun
  | proceed taskId =>
    obtain ⟨task, htask, hstep⟩ := Option.bind_eq_some_iff.mp hstep
    exact proceed_sound hsound htask hstep
  | change f =>
    cases hstep
    exact hsound.moveTo fun _ ↦ hcalm

/-! ## Whole runs -/

/-- In every run in which no other change empties a session behind the back of a close, every
session that was destroyed lost its last pane to a close, or was destroyed by a task that had
closed a view in it. -/
theorem destroyed_justified_of_calm_run {start : CloseSystem} (hstart : start.Started)
    (hrun : Relation.ReflTransGen (CalmStep fuel) start sys) :
    ∀ d ∈ sys.destroyed, d.Justified := by
  have hsound : Sound fuel sys := by
    induction hrun with
    | refl => exact hstart.sound
    | tail _ hstep ih => exact hstep.sound ih
  exact hsound.destroyed

/-! ### Two sessions with one pane each -/

/-- One step after another. -/
def run (fuel : ℕ) (sys : CloseSystem) (actions : List CloseAction) : Option CloseSystem :=
  actions.foldlM (step fuel) sys

/-- A run of actions that cannot get in the way of a close. -/
theorem calm_of_run {actions : List CloseAction} (hcalm : ∀ action ∈ actions, ∀ sys : CloseSystem,
    sys.Undisturbed fuel action) (h : sys.run fuel actions = some sys') :
    Relation.ReflTransGen (CalmStep fuel) sys sys' := by
  induction actions generalizing sys with
  | nil =>
    cases h
    exact .refl
  | cons action actions ih =>
    obtain ⟨next, hnext, hrest⟩ := Option.bind_eq_some_iff.mp h
    refine .head ⟨action, hcalm action List.mem_cons_self sys, hnext⟩ (ih ?_ hrest)
    exact fun action' hmem ↦ hcalm action' (List.mem_cons_of_mem action hmem)

/-- A session with one pane in its only window. -/
def paneSession (name : String) : StateOp Unit := do
  let sessionId ← ServerState.createSession name ⟨0⟩
  let bufferId ← ServerState.createBufferWithEnv name [] none ∅ ⟨0⟩
  let _ ← ServerState.addRootTabFromBuffer 8 sessionId name bufferId
  pure ()

def twoSessions : CloseSystem where
  server := ((do paneSession "a"; paneSession "b") ServerState.new).2
  tasks := ∅
  emptiedByClose := ∅
  destroyed := []

/-- A close of the only pane of the first session, with nothing in between. -/
theorem destroyed_justified_of_calm_run_close :
    ∃ sys, twoSessions.run 8 [.request 1 (.closeNode 2), .proceed 1, .proceed 1, .proceed 1,
        .proceed 1] = some sys ∧
      sys.destroyed.map DestroyedSession.sessionId = [1] ∧ ∀ d ∈ sys.destroyed, d.Justified := by
  have hrun : (twoSessions.run 8 [.request 1 (.closeNode 2), .proceed 1, .proceed 1, .proceed 1,
      .proceed 1]).map (fun sys ↦ sys.destroyed.map DestroyedSession.sessionId) = some [1] := by
    decide +kernel
  obtain ⟨sys, hsys, hids⟩ := Option.map_eq_some_iff.mp hrun
  refine ⟨sys, hsys, hids, @destroyed_justified_of_calm_run 8 _ twoSessions
    ⟨rfl, rfl⟩ (calm_of_run ?_ hsys)⟩
  simp [Undisturbed]

/-- The second session's last buffer is detached after the close in the first session has recorded
the sessions with panes. The close then destroys the second session too. -/
theorem destroyed_after_detach :
    twoSessions.Started ∧
    ∃ sys, twoSessions.run 8 [.request 1 (.closeNode 2),
        .change fun s ↦ (ServerState.detachBuffer 8 2 s).2, .proceed 1, .proceed 1, .proceed 1,
        .proceed 1] = some sys ∧
      ∃ d ∈ sys.destroyed, d = ⟨2, [1], some false⟩ ∧ ¬ d.Justified := by
  have hrun : (twoSessions.run 8 [.request 1 (.closeNode 2),
      .change fun s ↦ (ServerState.detachBuffer 8 2 s).2, .proceed 1, .proceed 1, .proceed 1,
      .proceed 1]).map (fun sys ↦ sys.destroyed) =
        some [⟨2, [1], some false⟩, ⟨1, [1], some true⟩] := by
    decide +kernel
  obtain ⟨sys, hsys, hdestroyed⟩ := Option.map_eq_some_iff.mp hrun
  refine ⟨⟨rfl, rfl⟩, sys, hsys, ⟨2, [1], some false⟩, ?_, rfl, ?_⟩
  · rw [hdestroyed]
    exact List.mem_cons_self
  · rintro (hmem | hclose)
    · exact absurd hmem (by decide)
    · cases hclose

end CloseSystem

end Embers
