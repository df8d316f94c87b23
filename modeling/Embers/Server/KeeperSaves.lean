import Embers.Server.Runtimes

/-!
# When a keeper may go

A keeper that is told `ExitRecorded` quits once its program has exited, and with it the exit status
goes if no save has it. What tells a keeper is a save that has completed and no longer needs it; and
what such a save shows of an exited or removed buffer, every later one shows, because exited buffers
never run again and ids are not used twice (`ServerState.Onward`).

The argument follows one buffer through `SaveWorld.Final`: once a completed save has it exited or
gone, so have the state, the snapshot in hand, and the save that completes next. The file can be
ahead of the completed saves, when a write fails after it has replaced the file; of an exit that a
save records it cannot fall behind (`SaveWorld.InFile`).
-/

namespace Embers

/-! ## Exited or gone -/

namespace ServerState

/-- The buffer has exited or is gone. -/
def DoneWith (s : ServerState) (bufferId : BufferId) : Prop :=
  ∀ buffer, s.buffers[bufferId]? = some buffer → hasExited buffer = true

/-- A change of the state that brings no new buffer and runs none again that has exited. -/
def Onward (s s' : ServerState) : Prop :=
  ∀ (bufferId : BufferId) (buffer' : Buffer), s'.buffers[bufferId]? = some buffer' →
    ∃ buffer, s.buffers[bufferId]? = some buffer ∧
      (hasExited buffer = true → hasExited buffer' = true)

instance : Std.Refl Onward := ⟨fun _ _ buffer h ↦ ⟨buffer, h, id⟩⟩

instance : IsTrans ServerState Onward where
  trans _ _ _ h h' bufferId buffer'' hbuffer'' := by
    obtain ⟨buffer', hbuffer', hexited'⟩ := h' bufferId buffer'' hbuffer''
    obtain ⟨buffer, hbuffer, hexited⟩ := h bufferId buffer' hbuffer'
    exact ⟨buffer, hbuffer, hexited' ∘ hexited⟩

/-- What had exited has exited, and what was gone is. -/
theorem Onward.doneWith {s s' : ServerState} (h : Onward s s') {bufferId : BufferId}
    (hdone : s.DoneWith bufferId) : s'.DoneWith bufferId := by
  intro buffer' hbuffer'
  obtain ⟨buffer, hbuffer, hexited⟩ := h bufferId buffer' hbuffer'
  exact hexited (hdone buffer hbuffer)

open Op

theorem onward_mapBuffer (s : ServerState) (bufferId : BufferId) {f : Buffer → Buffer}
    (hf : ∀ buffer, s.buffers[bufferId]? = some buffer → hasExited buffer = true →
      hasExited (f buffer) = true) :
    Onward s (s.mapBuffer bufferId f) := by
  intro bufferId' buffer' hbuffer'
  rw [mapBuffer, Table.get?_modify] at hbuffer'
  split at hbuffer'
  next heq =>
    subst heq
    obtain ⟨buffer, hbuffer, rfl⟩ := Option.map_eq_some_iff.mp hbuffer'
    exact ⟨buffer, hbuffer, hf buffer hbuffer⟩
  next => exact ⟨buffer', hbuffer', id⟩

theorem bufferMut_onward (bufferId : BufferId) {f : Buffer → Buffer}
    (hf : ∀ buffer, hasExited buffer = true → hasExited (f buffer) = true) :
    Keeps Onward (bufferMut bufferId f) := fun s ↦ by
  rw [bufferMut_snd]
  exact onward_mapBuffer s bufferId fun buffer _ ↦ hf buffer

/-- A buffer that has exited is not marked running again. -/
theorem markBufferRunning_onward (bufferId : BufferId) (pid : Option UInt32) :
    Keeps Onward (markBufferRunning bufferId pid) := by
  intro s
  rcases hbuffer : s.buffers[bufferId]? with _ | buffer
  · simpa [markBufferRunning, Op.bind_apply, ServerState.buffer, hbuffer, Answer.fail] using
      Std.Refl.refl s
  · by_cases hexited : hasExited buffer = true
    · simpa [markBufferRunning, Op.bind_apply, ServerState.buffer, hbuffer, hexited] using
        Std.Refl.refl s
    -- it had not exited, so nothing is asked of it
    · have hsnd : (markBufferRunning bufferId pid s).2 =
          s.mapBuffer bufferId fun buffer ↦ { buffer with state := .running pid } := by
        simp [markBufferRunning, Op.bind_apply, ServerState.buffer, hbuffer, hexited, bufferMut_snd]
      rw [hsnd]
      refine onward_mapBuffer s bufferId fun buffer' hbuffer' hexited' ↦ absurd ?_ hexited
      rw [hbuffer] at hbuffer'
      exact Option.some.inj hbuffer' ▸ hexited'

theorem markBufferInterrupted_onward (bufferId : BufferId) (pid : Option UInt32) :
    Keeps Onward (markBufferInterrupted bufferId pid) := by
  refine bufferMut_onward bufferId fun buffer h ↦ ?_
  rw [if_pos h]
  exact h

theorem markBufferExited_onward (bufferId : BufferId) (exitCode : Option Int32) (now : Timestamp) :
    Keeps Onward (markBufferExited bufferId exitCode now) :=
  bufferMut_onward bufferId fun _ _ ↦ rfl

theorem setBufferPlacement_onward (bufferId : BufferId) (placement : Placement) :
    Keeps Onward (setBufferPlacement bufferId placement) :=
  bufferMut_onward bufferId fun _ h ↦ h

/-- Closing views and disposing of buffers only ever removes them. -/
theorem BuffersDrop.onward {s s' : ServerState} (h : BuffersDrop s s') : Onward s s' := by
  intro bufferId buffer' hbuffer'
  obtain ⟨buffer, hbuffer, hstanding⟩ := h bufferId buffer' hbuffer'
  have hstate : buffer'.standing.state = buffer.standing.state := by rw [hstanding]
  refine ⟨buffer, hbuffer, fun hexited ↦ ?_⟩
  calc hasExited buffer' = hasExited buffer'.standing := rfl
    _ = hasExited buffer.standing := by rw [hasExited, hasExited, hstate]
    _ = true := hexited

end ServerState

/-! ## What a save shows -/

/-- The record of a saved buffer says it has exited. -/
def PersistedBuffer.hasExited (buffer : PersistedBuffer) : Prop :=
  ∃ exitCode exitedAtMs, buffer.state = .exited exitCode exitedAtMs

namespace PersistedWorkspace

/-- The save records the buffer as exited, or does not have it. -/
def Settles (p : PersistedWorkspace) (bufferId : BufferId) : Prop :=
  ∀ buffer ∈ p.buffers, buffer.id = bufferId.raw → buffer.hasExited

/-- The save has the buffer, as exited. -/
def Records (p : PersistedWorkspace) (bufferId : BufferId) : Prop :=
  p.Settles bufferId ∧ ∃ buffer ∈ p.buffers, buffer.id = bufferId.raw

/-- The save records the buffer as exited or as without a keeper, or does not have it. -/
def Spares (p : PersistedWorkspace) (bufferId : BufferId) : Prop :=
  ∀ buffer ∈ p.buffers, buffer.id = bufferId.raw →
    buffer.hasExited ∨ buffer.runtimeSocketPath = none

/-- What of a saved buffer matters to its keeper. -/
def AgreeOn (x y : PersistedBuffer) : Prop :=
  x.id = y.id ∧ x.state = y.state ∧ x.runtimeSocketPath = y.runtimeSocketPath

/-- A save that is the same but for activity shows the same of every buffer. -/
theorem agree_of_same {a b : PersistedWorkspace} (h : sameSavedState a b = true) :
    (∀ x ∈ a.buffers, ∃ y ∈ b.buffers, AgreeOn x y) ∧
      ∀ y ∈ b.buffers, ∃ x ∈ a.buffers, AgreeOn x y := by
  simp only [sameSavedState, decide_eq_true_eq] at h
  obtain ⟨-, -, -, -, -, -, -, -, hlength, hall⟩ := h
  have hpair : ∀ i (ha : i < a.buffers.length) (hb : i < b.buffers.length),
      AgreeOn a.buffers[i] b.buffers[i] := by
    intro i ha hb
    have hzip : i < (a.buffers.zip b.buffers).length := by
      rw [List.length_zip]
      omega
    have hmem : (a.buffers[i], b.buffers[i]) ∈ a.buffers.zip b.buffers := by
      rw [← List.getElem_zip (h := hzip)]
      exact List.getElem_mem hzip
    have heq : { a.buffers[i] with activity := b.buffers[i].activity } = b.buffers[i] := by
      simpa using List.all_eq_true.mp hall _ hmem
    refine ⟨?_, ?_, ?_⟩
    all_goals rw [← heq]
  constructor
  · intro x hx
    obtain ⟨i, hi, rfl⟩ := List.getElem_of_mem hx
    exact ⟨b.buffers[i], List.getElem_mem _, hpair i hi (hlength ▸ hi)⟩
  · intro y hy
    obtain ⟨i, hi, rfl⟩ := List.getElem_of_mem hy
    exact ⟨a.buffers[i], List.getElem_mem _, hpair i (hlength ▸ hi) hi⟩

theorem Settles.of_same {a b : PersistedWorkspace} (h : sameSavedState a b = true)
    {bufferId : BufferId} (ha : a.Settles bufferId) : b.Settles bufferId := by
  intro y hy hid
  obtain ⟨x, hx, hxid, hstate, -⟩ := (agree_of_same h).2 y hy
  obtain ⟨exitCode, exitedAtMs, hexited⟩ := ha x hx (hxid.trans hid)
  exact ⟨exitCode, exitedAtMs, hstate.symm.trans hexited⟩

theorem Spares.of_same {a b : PersistedWorkspace} (h : sameSavedState a b = true)
    {bufferId : BufferId} (hb : b.Spares bufferId) : a.Spares bufferId := by
  intro x hx hid
  obtain ⟨y, hy, hxid, hstate, hsocket⟩ := (agree_of_same h).1 x hx
  rcases hb y hy (hxid.symm.trans hid) with ⟨exitCode, exitedAtMs, hexited⟩ | hnone
  · exact Or.inl ⟨exitCode, exitedAtMs, hstate.trans hexited⟩
  · exact Or.inr (hsocket.trans hnone)

end PersistedWorkspace

namespace ServerState

variable {s : ServerState} {bufferId : BufferId}

theorem mem_persisted_buffers {buffer : PersistedBuffer} :
    buffer ∈ s.toPersisted.buffers ↔
      ∃ bufferId record, s.buffers[bufferId]? = some record ∧
        persistedBuffer (bufferId, record) = buffer := by
  simp only [toPersisted, List.mem_map, Prod.exists, Table.mem_toList]

theorem persisted_hasExited (bufferId : BufferId) (record : Buffer) :
    (persistedBuffer (bufferId, record)).hasExited ↔ hasExited record = true := by
  simp only [PersistedBuffer.hasExited, persistedBuffer, hasExited, persistedBufferState]
  cases record.state <;> simp

/-- A snapshot shows the buffer as the state has it. -/
theorem settles_toPersisted : s.toPersisted.Settles bufferId ↔ s.DoneWith bufferId := by
  constructor
  · intro h record hrecord
    have hmem := mem_persisted_buffers.mpr ⟨bufferId, record, hrecord, rfl⟩
    exact (persisted_hasExited bufferId record).mp (h _ hmem rfl)
  · intro h buffer hbuffer hid
    obtain ⟨bufferId', record, hrecord, rfl⟩ := mem_persisted_buffers.mp hbuffer
    obtain rfl : bufferId' = bufferId := by
      cases bufferId'
      cases bufferId
      exact congrArg EntityId.mk hid
    exact (persisted_hasExited bufferId' record).mpr (h record hrecord)

/-- A buffer that a snapshot records is one of the state, and has exited. -/
theorem records_toPersisted (h : s.toPersisted.Records bufferId) :
    s.DoneWith bufferId ∧ s.buffers.contains bufferId = true := by
  refine ⟨settles_toPersisted.mp h.1, ?_⟩
  obtain ⟨buffer, hbuffer, hid⟩ := h.2
  obtain ⟨bufferId', record, hrecord, rfl⟩ := mem_persisted_buffers.mp hbuffer
  obtain rfl : bufferId' = bufferId := by
    cases bufferId'
    cases bufferId
    exact congrArg EntityId.mk hid
  rw [Std.ExtTreeMap.contains_eq_isSome_getElem?, hrecord, Option.isSome_some]

/-- What is released at a snapshot is spared by it. -/
theorem spares_of_exitsRecorded {r : BufferRuntimes} (h : bufferId ∈ exitsRecordedIn r s) :
    s.toPersisted.Spares bufferId := by
  intro buffer hbuffer hid
  obtain ⟨bufferId', record, hrecord, rfl⟩ := mem_persisted_buffers.mp hbuffer
  obtain rfl : bufferId' = bufferId := by
    cases bufferId'
    cases bufferId
    exact congrArg EntityId.mk hid
  have hcond := (List.mem_filter.mp h).2
  rw [hrecord] at hcond
  simp only [Bool.decide_or, Bool.decide_eq_true, Bool.or_eq_true, decide_eq_true_eq] at hcond
  rcases hcond with hexited | hsocket
  · exact Or.inl ((persisted_hasExited bufferId' record).mpr hexited)
  · exact Or.inr hsocket

end ServerState

/-! ## Whose runtimes there are -/

namespace BufferRuntimes

/-- The buffers with a runtime, running or waiting for a save, are among these. -/
structure Within (r : BufferRuntimes) (ids : List BufferId) : Prop where
  running : ∀ bufferId, r.running.contains bufferId = true → bufferId ∈ ids
  awaiting : ∀ bufferId, r.awaitingSave.contains bufferId = true → bufferId ∈ ids

variable {r : BufferRuntimes} {ids : List BufferId} {bufferId : BufferId}

theorem Within.mono (h : r.Within ids) {ids' : List BufferId} (hids : ∀ id ∈ ids, id ∈ ids') :
    r.Within ids' :=
  ⟨fun id hid ↦ hids id (h.running id hid), fun id hid ↦ hids id (h.awaiting id hid)⟩

theorem Within.takeRunning (h : r.Within ids) (bufferId : BufferId) :
    (r.takeRunning bufferId).Within ids := by
  refine ⟨?_, h.awaiting⟩
  intro id hid
  rw [BufferRuntimes.takeRunning, Std.ExtTreeMap.contains_erase, Bool.and_eq_true] at hid
  exact h.running id hid.2

theorem Within.insertRunning (h : r.Within ids) (hid : bufferId ∈ ids)
    (runtime : BufferRuntimeHandle) : (r.insertRunning bufferId runtime).Within ids := by
  refine ⟨?_, h.awaiting⟩
  intro id hcontains
  rw [BufferRuntimes.insertRunning, Std.ExtTreeMap.contains_insert, Bool.or_eq_true] at hcontains
  rcases hcontains with heq | hcontains
  · have heq' : bufferId = id := by simpa using heq
    exact heq' ▸ hid
  · exact h.running id hcontains

theorem Within.awaitSave (h : r.Within ids) (hid : bufferId ∈ ids)
    (runtime : BufferRuntimeHandle) : (r.awaitSave bufferId runtime).Within ids := by
  rcases runtime with keeper | _
  · refine ⟨h.running, ?_⟩
    intro id hcontains
    rw [BufferRuntimes.awaitSave, Std.ExtTreeMap.contains_insert, Bool.or_eq_true] at hcontains
    rcases hcontains with heq | hcontains
    · have heq' : bufferId = id := by simpa using heq
      exact heq' ▸ hid
    · exact h.awaiting id hcontains
  · exact h

theorem Within.ended (h : r.Within ids) (bufferId : BufferId) (runtimeEnd : RuntimeEnd) :
    (r.ended bufferId runtimeEnd).Within ids := by
  have h' : BufferRuntimes.Within
      { r with shuttingDown := r.shuttingDown.filter (· ≠ bufferId) } ids :=
    ⟨h.running, h.awaiting⟩
  simp only [BufferRuntimes.ended]
  split
  · exact h'.takeRunning bufferId
  · split
    · next runtime hrunning =>
      have hid : bufferId ∈ ids := by
        refine h.running bufferId ?_
        rw [Std.ExtTreeMap.contains_eq_isSome_getElem?, hrunning, Option.isSome_some]
      exact h'.awaitSave hid runtime
    · exact ⟨h.running, h.awaiting⟩

theorem Within.finishRegister (h : r.Within ids) (hid : bufferId ∈ ids)
    (runtime : BufferRuntimeHandle) (exited : Bool) :
    (r.finishRegister bufferId runtime exited).Within ids := by
  have h' : BufferRuntimes.Within
      { r with exitedEarly := r.exitedEarly.filter (· ≠ bufferId) } ids :=
    ⟨h.running, h.awaiting⟩
  simp only [BufferRuntimes.finishRegister]
  split
  · exact h'.awaitSave hid runtime
  · exact h'

theorem Within.stopUnregistered (h : r.Within ids) (hid : bufferId ∈ ids)
    (runtime : BufferRuntimeHandle) : (r.stopUnregistered bufferId runtime).Within ids :=
  Within.awaitSave (r := { r with exitedEarly := r.exitedEarly.filter (· ≠ bufferId) })
    ⟨h.running, h.awaiting⟩ hid runtime

theorem Within.saved (released : List BufferId) (h : r.Within ids) :
    (r.saved released).2.Within ids := by
  fun_induction BufferRuntimes.saved r released with
  | case1 r => exact h
  | case2 r bufferId bufferIds hnone ih => exact ih h
  | case3 r bufferId bufferIds keeper hkeeper keepers r' hrest ih =>
    rw [hrest] at ih
    refine ih ⟨h.running, ?_⟩
    intro id hid
    rw [Std.ExtTreeMap.contains_erase, Bool.and_eq_true] at hid
    exact h.awaiting id hid.2

/-- Only keepers of the given buffers are taken. -/
theorem mem_of_mem_saved (released : List BufferId) {entry : BufferId × KeeperId}
    (h : entry ∈ (r.saved released).1) : entry.1 ∈ released := by
  fun_induction BufferRuntimes.saved r released with
  | case1 r => exact absurd h List.not_mem_nil
  | case2 r bufferId bufferIds hnone ih => exact List.mem_cons_of_mem _ (ih h)
  | case3 r bufferId bufferIds keeper hkeeper keepers r' hrest ih =>
    rw [hrest] at ih
    rcases List.mem_cons.mp h with rfl | hmem
    · exact List.mem_cons_self
    · exact List.mem_cons_of_mem _ (ih hmem)

end BufferRuntimes

/-! ## Runs -/

/-- One acquisition of a lock, one write of the file, or one message to a keeper. -/
inductive SaveStep : SaveWorld → SaveWorld → Prop where
  /-- A request, or the report of an end, changes the state. -/
  | serve (w : SaveWorld) (server : ServerState) (h : w.server.Onward server) :
      SaveStep w { w with server }
  /-- A buffer is created, under an id of its own. -/
  | create (w : SaveWorld) (bufferId : BufferId) (buffer : Buffer) (h : bufferId ∉ w.created) :
      SaveStep w { w with
        server := { w.server with buffers := w.server.buffers.insert bufferId buffer }
        created := w.created ++ [bufferId] }
  | ended (w : SaveWorld) (bufferId : BufferId) (runtimeEnd : RuntimeEnd) :
      SaveStep w { w with runtimes := w.runtimes.ended bufferId runtimeEnd }
  | insertRunning (w : SaveWorld) (bufferId : BufferId) (runtime : BufferRuntimeHandle)
      (h : bufferId ∈ w.created) :
      SaveStep w { w with runtimes := w.runtimes.insertRunning bufferId runtime }
  | finishRegister (w : SaveWorld) (bufferId : BufferId) (runtime : BufferRuntimeHandle)
      (exited : Bool) (h : bufferId ∈ w.created) :
      SaveStep w { w with runtimes := w.runtimes.finishRegister bufferId runtime exited }
  | takeRunning (w : SaveWorld) (bufferId : BufferId) :
      SaveStep w { w with runtimes := w.runtimes.takeRunning bufferId }
  /-- The second half of `release`. -/
  | awaitSave (w : SaveWorld) (bufferId : BufferId) (runtime : BufferRuntimeHandle)
      (h : bufferId ∈ w.created) :
      SaveStep w { w with runtimes := w.runtimes.awaitSave bufferId runtime }
  | stopUnregistered (w : SaveWorld) (bufferId : BufferId) (runtime : BufferRuntimeHandle)
      (h : bufferId ∈ w.created) :
      SaveStep w { w with runtimes := w.runtimes.stopUnregistered bufferId runtime }
  | begin (w : SaveWorld) (h : w.phase = .idle) : SaveStep w w.begin
  /-- The temporary file is renamed over the workspace file. -/
  | write (w : SaveWorld) {snapshot : PersistedWorkspace} {released : List BufferId}
      (h : w.phase = .writing snapshot released) :
      SaveStep w { w with phase := .written snapshot released, file := some snapshot }
  | writeFailed (w : SaveWorld) {snapshot : PersistedWorkspace} {released : List BufferId}
      (h : w.phase = .writing snapshot released) : SaveStep w { w with phase := .idle }
  /-- The save fails with the file replaced already, as its directory cannot be synced. -/
  | syncFailed (w : SaveWorld) {snapshot : PersistedWorkspace} {released : List BufferId}
      (h : w.phase = .written snapshot released) : SaveStep w { w with phase := .idle }
  | finish (w : SaveWorld) {snapshot : PersistedWorkspace} {released : List BufferId}
      (h : w.phase = .written snapshot released) :
      SaveStep w { w with
        phase := .idle
        lastSaved := some snapshot
        finished := w.finished ++ [(released, snapshot)]
        completed := w.completed ++ [snapshot] }
  | collect (w : SaveWorld) {released : List BufferId} {save : PersistedWorkspace}
      (h : (released, save) ∈ w.finished) : SaveStep w (w.collect released save)
  | tell (w : SaveWorld) {entry : BufferId × KeeperId × PersistedWorkspace}
      (h : entry ∈ w.telling) :
      SaveStep w { w with telling := w.telling.erase entry, told := w.told ++ [entry] }
  /-- A keeper that cannot be reached is not told. -/
  | tellFailed (w : SaveWorld) {entry : BufferId × KeeperId × PersistedWorkspace}
      (h : entry ∈ w.telling) : SaveStep w { w with telling := w.telling.erase entry }

namespace SaveWorld

/-- Every state of a server that started with some state. -/
def Reachable (w : SaveWorld) : Prop := ∃ s, Relation.ReflTransGen SaveStep (start s) w

/-- The snapshot a save in progress has taken. -/
def snapshot? (w : SaveWorld) : Option (PersistedWorkspace × List BufferId) :=
  match w.phase with
  | .idle => none
  | .writing snapshot released => some (snapshot, released)
  | .written snapshot released => some (snapshot, released)

/-- The buffer has exited or is gone for good: in the state, in the snapshot of a save in progress,
and in the save that completed last. -/
structure Final (w : SaveWorld) (bufferId : BufferId) : Prop where
  server : w.server.DoneWith bufferId
  snapshot : ∀ snapshot released, w.snapshot? = some (snapshot, released) →
    snapshot.Settles bufferId
  completed : ∀ saved, w.lastCompleted = some saved → saved.Settles bufferId

/-- The file has the buffer exited or gone, and so has whatever will replace it. -/
structure InFile (w : SaveWorld) (bufferId : BufferId) : Prop extends Final w bufferId where
  file : ∃ saved, w.file = some saved ∧ saved.Settles bufferId

/-- What lets a keeper go: a save that completed and no longer needs it. -/
structure Justified (w : SaveWorld) (bufferId : BufferId) (save : PersistedWorkspace) : Prop where
  created : bufferId ∈ w.created
  completed : save ∈ w.completed
  spares : save.Spares bufferId
  final : save.Settles bufferId → w.Final bufferId
  inFile : save.Records bufferId → w.InFile bufferId

structure Inv (w : SaveWorld) : Prop where
  runtimes : w.runtimes.Within w.created
  server : ∀ bufferId, w.server.buffers.contains bufferId = true → bufferId ∈ w.created
  /-- A snapshot is not ahead of the state. -/
  snapshot : ∀ snapshot released, w.snapshot? = some (snapshot, released) →
    ∀ bufferId, snapshot.Records bufferId → bufferId ∈ w.created ∧ w.server.DoneWith bufferId
  /-- A snapshot is spared what it is to release. -/
  released : ∀ snapshot released, w.snapshot? = some (snapshot, released) →
    ∀ bufferId ∈ released, bufferId ∈ w.created ∧ snapshot.Spares bufferId ∧
      (snapshot.Settles bufferId → w.server.DoneWith bufferId)
  written : ∀ snapshot released, w.phase = .written snapshot released → w.file = some snapshot
  /-- What is compared with is what completed last. -/
  lastSaved : w.lastSaved = w.lastCompleted
  recorded : ∀ saved, w.lastCompleted = some saved → ∀ bufferId, saved.Records bufferId →
    bufferId ∈ w.created ∧ w.InFile bufferId
  finished : ∀ entry ∈ w.finished, ∀ bufferId ∈ entry.1, w.Justified bufferId entry.2
  telling : ∀ entry ∈ w.telling, w.Justified entry.1 entry.2.2
  told : ∀ entry ∈ w.told, w.Justified entry.1 entry.2.2

variable {w w' : SaveWorld} {bufferId : BufferId}

/-! ### One buffer that is done with -/

theorem begin_cases (w : SaveWorld) :
    (∃ saved, w.lastSaved = some saved ∧ sameSavedState saved w.server.toPersisted = true ∧
        w.begin = { w with
          finished := w.finished ++ [(exitsRecordedIn w.runtimes w.server, saved)] }) ∨
      w.begin = { w with
        phase := .writing w.server.toPersisted (exitsRecordedIn w.runtimes w.server) } := by
  rcases hsaved : w.lastSaved with _ | saved
  · right
    simp only [begin, hsaved]
  · by_cases hsame : sameSavedState saved w.server.toPersisted = true
    · left
      refine ⟨saved, rfl, hsame, ?_⟩
      simp only [begin, hsaved, hsame, if_true]
    · right
      simp only [begin, hsaved, hsame]
      rfl

/-- What is done with stays so. -/
theorem Final.step (h : w.Final bufferId) (hid : bufferId ∈ w.created) (hs : SaveStep w w') :
    w'.Final bufferId := by
  cases hs with
  | serve server honward => exact ⟨honward.doneWith h.server, h.snapshot, h.completed⟩
  | create created buffer hnew =>
    refine ⟨?_, h.snapshot, h.completed⟩
    intro record hrecord
    have hne : created ≠ bufferId := fun heq ↦ hnew (heq ▸ hid)
    rw [Table.get?_insert, if_neg hne] at hrecord
    exact h.server record hrecord
  | begin hphase =>
    rcases w.begin_cases with ⟨saved, -, -, hbegin⟩ | hbegin
    · rw [hbegin]
      exact ⟨h.server, h.snapshot, h.completed⟩
    · rw [hbegin]
      refine ⟨h.server, ?_, h.completed⟩
      intro snapshot released hsnapshot
      cases hsnapshot
      exact ServerState.settles_toPersisted.mpr h.server
  | @write snapshot released hphase =>
    refine ⟨h.server, ?_, h.completed⟩
    intro snapshot' released' hsnapshot
    cases hsnapshot
    exact h.snapshot snapshot released (by simp [snapshot?, hphase])
  | writeFailed hphase | syncFailed hphase =>
    refine ⟨h.server, ?_, h.completed⟩
    intro snapshot released hsnapshot
    cases hsnapshot
  | @finish snapshot released hphase =>
    refine ⟨h.server, ?_, ?_⟩
    · intro snapshot' released' hsnapshot
      cases hsnapshot
    · intro saved hsaved
      rw [lastCompleted, List.getLast?_concat] at hsaved
      exact Option.some.inj hsaved ▸ h.snapshot snapshot released (by simp [snapshot?, hphase])
  | _ => exact ⟨h.server, h.snapshot, h.completed⟩

/-- Only a snapshot replaces the file. -/
theorem InFile.step (h : w.InFile bufferId) (hid : bufferId ∈ w.created) (hs : SaveStep w w') :
    w'.InFile bufferId := by
  refine ⟨h.toFinal.step hid hs, ?_⟩
  cases hs with
  | @write snapshot released hphase =>
    exact ⟨snapshot, rfl, h.snapshot snapshot released (by simp [snapshot?, hphase])⟩
  | begin hphase =>
    rcases w.begin_cases with ⟨saved, -, -, hbegin⟩ | hbegin
    all_goals
      rw [hbegin]
      exact h.file
  | _ => exact h.file

theorem created_mono (hs : SaveStep w w') : ∀ bufferId ∈ w.created, bufferId ∈ w'.created := by
  intro bufferId hid
  cases hs with
  | create created buffer hnew => exact List.mem_append_left _ hid
  | begin hphase =>
    rcases w.begin_cases with ⟨saved, -, -, hbegin⟩ | hbegin
    all_goals
      rw [hbegin]
      exact hid
  | _ => exact hid

theorem completed_mono (hs : SaveStep w w') : ∀ save ∈ w.completed, save ∈ w'.completed := by
  intro save hsave
  cases hs with
  | finish hphase => exact List.mem_append_left _ hsave
  | begin hphase =>
    rcases w.begin_cases with ⟨saved, -, -, hbegin⟩ | hbegin
    all_goals
      rw [hbegin]
      exact hsave
  | _ => exact hsave

theorem Justified.step {save : PersistedWorkspace} (h : w.Justified bufferId save)
    (hs : SaveStep w w') : w'.Justified bufferId save where
  created := created_mono hs bufferId h.created
  completed := completed_mono hs save h.completed
  spares := h.spares
  final hsettles := (h.final hsettles).step h.created hs
  inFile hrecords := (h.inFile hrecords).step h.created hs

/-! ### The whole run -/

/-- Whatever a save releases at its snapshot waited for it, so it is no buffer of the future. -/
theorem mem_created_of_exitsRecorded (h : w.Inv)
    (hid : bufferId ∈ exitsRecordedIn w.runtimes w.server) : bufferId ∈ w.created := by
  refine h.runtimes.awaiting bufferId ?_
  have hkey := (List.mem_filter.mp hid).1
  rwa [Std.ExtTreeMap.mem_keys, ← Std.ExtTreeMap.contains_iff_mem] at hkey

/-- A save that is skipped counts as the one it is the same as. -/
theorem justified_of_same (h : w.Inv) (hidle : w.phase = .idle) {saved : PersistedWorkspace}
    (hsaved : w.lastSaved = some saved)
    (hsame : sameSavedState saved w.server.toPersisted = true)
    (hid : bufferId ∈ exitsRecordedIn w.runtimes w.server) : w.Justified bufferId saved := by
  have hlast : w.lastCompleted = some saved := h.lastSaved ▸ hsaved
  refine ⟨mem_created_of_exitsRecorded h hid, List.mem_of_getLast? hlast,
    (ServerState.spares_of_exitsRecorded hid).of_same hsame, ?_,
    fun hrecords ↦ (h.recorded saved hlast bufferId hrecords).2⟩
  intro hsettles
  refine ⟨ServerState.settles_toPersisted.mp (hsettles.of_same hsame), ?_, ?_⟩
  · intro snapshot released hsnapshot
    rw [snapshot?, hidle] at hsnapshot
    cases hsnapshot
  · intro saved' hsaved'
    rw [hlast] at hsaved'
    exact Option.some.inj hsaved' ▸ hsettles

/-- Once a snapshot is in the file and noted, what it settles is final. -/
theorem inFile_of_written (h : w.Inv) {snapshot : PersistedWorkspace} {released : List BufferId}
    (hphase : w.phase = .written snapshot released) (hsettles : snapshot.Settles bufferId)
    (hserver : w.server.DoneWith bufferId) (finished : List (List BufferId × PersistedWorkspace)) :
    SaveWorld.InFile { w with
      phase := .idle, lastSaved := some snapshot, finished,
      completed := w.completed ++ [snapshot] } bufferId where
  server := hserver
  snapshot := by
    intro snapshot' released' hsnapshot
    cases hsnapshot
  completed := by
    intro saved hsaved
    rw [lastCompleted, List.getLast?_concat] at hsaved
    exact Option.some.inj hsaved ▸ hsettles
  file := ⟨snapshot, h.written snapshot released hphase, hsettles⟩

/-- A step that leaves the saves as they are keeps the invariant, if it keeps the runtimes and the
buffers among those there have been and takes no exited buffer back. -/
theorem Inv.of_saves_eq (h : w.Inv) (hs : SaveStep w w')
    (hruntimes : w'.runtimes.Within w'.created)
    (hbuffers : ∀ bufferId, w'.server.buffers.contains bufferId = true → bufferId ∈ w'.created)
    (hserver : ∀ bufferId ∈ w.created, w.server.DoneWith bufferId → w'.server.DoneWith bufferId)
    (hphase : w'.phase = w.phase) (hfile : w'.file = w.file) (hlast : w'.lastSaved = w.lastSaved)
    (hcompleted : w'.completed = w.completed)
    (hfinished : ∀ entry ∈ w'.finished, ∀ bufferId ∈ entry.1, w'.Justified bufferId entry.2)
    (htelling : ∀ entry ∈ w'.telling, w'.Justified entry.1 entry.2.2)
    (htold : ∀ entry ∈ w'.told, w'.Justified entry.1 entry.2.2) : w'.Inv where
  runtimes := hruntimes
  server := hbuffers
  snapshot := by
    intro snapshot released hsnapshot bufferId hrecords
    rw [snapshot?, hphase] at hsnapshot
    obtain ⟨hcreated, hdone⟩ := h.snapshot snapshot released hsnapshot bufferId hrecords
    exact ⟨created_mono hs bufferId hcreated, hserver bufferId hcreated hdone⟩
  released := by
    intro snapshot released hsnapshot bufferId hid
    rw [snapshot?, hphase] at hsnapshot
    obtain ⟨hcreated, hspares, hsettled⟩ := h.released snapshot released hsnapshot bufferId hid
    exact ⟨created_mono hs bufferId hcreated, hspares,
      fun hsettles ↦ hserver bufferId hcreated (hsettled hsettles)⟩
  written := by
    intro snapshot released hwritten
    rw [hfile]
    exact h.written snapshot released (hphase ▸ hwritten)
  lastSaved := by
    rw [hlast, lastCompleted, hcompleted]
    exact h.lastSaved
  recorded := by
    intro saved hsaved bufferId hrecords
    rw [lastCompleted, hcompleted] at hsaved
    obtain ⟨hcreated, hinFile⟩ := h.recorded saved hsaved bufferId hrecords
    exact ⟨created_mono hs bufferId hcreated, hinFile.step hcreated hs⟩
  finished := hfinished
  telling := htelling
  told := htold

/-- A step that only changes the runtimes keeps the invariant, if they stay those of buffers there
have been. -/
theorem Inv.of_runtimes (h : w.Inv) {runtimes : BufferRuntimes}
    (hs : SaveStep w { w with runtimes }) (hruntimes : runtimes.Within w.created) :
    SaveWorld.Inv { w with runtimes } :=
  h.of_saves_eq hs hruntimes h.server (fun _ _ hdone ↦ hdone) rfl rfl rfl rfl
    (fun entry hentry bufferId hid ↦ (h.finished entry hentry bufferId hid).step hs)
    (fun entry hentry ↦ (h.telling entry hentry).step hs)
    (fun entry hentry ↦ (h.told entry hentry).step hs)

/-- A save that fails, before or after it replaced the file, is as if it had not begun. -/
theorem Inv.of_failed (h : w.Inv) (hs : SaveStep w { w with phase := .idle }) :
    SaveWorld.Inv { w with phase := .idle } where
  runtimes := h.runtimes
  server := h.server
  snapshot := by
    intro snapshot released hsnapshot
    cases hsnapshot
  released := by
    intro snapshot released hsnapshot
    cases hsnapshot
  written := by
    intro snapshot released hphase
    cases hphase
  lastSaved := h.lastSaved
  recorded := by
    intro saved hsaved bufferId hrecords
    obtain ⟨hcreated, hinFile⟩ := h.recorded saved hsaved bufferId hrecords
    exact ⟨hcreated, hinFile.step hcreated hs⟩
  finished entry hentry bufferId hid := (h.finished entry hentry bufferId hid).step hs
  telling entry hentry := (h.telling entry hentry).step hs
  told entry hentry := (h.told entry hentry).step hs

/-- Every step keeps the invariant. -/
theorem Inv.step (h : w.Inv) (hs : SaveStep w w') : w'.Inv := by
  -- what has been decided stays justified; each case adds its own
  have hfinished : ∀ entry ∈ w.finished, ∀ bufferId ∈ entry.1, w'.Justified bufferId entry.2 :=
    fun entry hentry bufferId hid ↦ (h.finished entry hentry bufferId hid).step hs
  have htelling : ∀ entry ∈ w.telling, w'.Justified entry.1 entry.2.2 :=
    fun entry hentry ↦ (h.telling entry hentry).step hs
  have htold : ∀ entry ∈ w.told, w'.Justified entry.1 entry.2.2 :=
    fun entry hentry ↦ (h.told entry hentry).step hs
  have hmono := created_mono hs
  cases hs' : hs with
  | serve server honward =>
    refine h.of_saves_eq hs h.runtimes ?_ (fun bufferId _ ↦ honward.doneWith) rfl rfl rfl rfl
      hfinished htelling htold
    intro bufferId hcontains
    rw [Std.ExtTreeMap.contains_eq_isSome_getElem?, Option.isSome_iff_exists] at hcontains
    obtain ⟨buffer', hbuffer'⟩ := hcontains
    obtain ⟨buffer, hbuffer, -⟩ := honward bufferId buffer' hbuffer'
    refine h.server bufferId ?_
    rw [Std.ExtTreeMap.contains_eq_isSome_getElem?, hbuffer, Option.isSome_some]
  | create created buffer hnew =>
    refine h.of_saves_eq hs (h.runtimes.mono hmono) ?_ ?_ rfl rfl rfl rfl hfinished htelling htold
    · intro bufferId hcontains
      rw [Std.ExtTreeMap.contains_insert, Bool.or_eq_true] at hcontains
      rcases hcontains with heq | hcontains
      · have heq' : created = bufferId := by simpa using heq
        exact heq' ▸ List.mem_append_right _ List.mem_cons_self
      · exact hmono bufferId (h.server bufferId hcontains)
    · intro bufferId hid hsettled record hrecord
      have hne : created ≠ bufferId := fun heq ↦ hnew (heq ▸ hid)
      rw [Table.get?_insert, if_neg hne] at hrecord
      exact hsettled record hrecord
  | ended bufferId runtimeEnd => exact h.of_runtimes hs (h.runtimes.ended bufferId runtimeEnd)
  | insertRunning bufferId runtime hid =>
    exact h.of_runtimes hs (h.runtimes.insertRunning hid runtime)
  | finishRegister bufferId runtime exited hid =>
    exact h.of_runtimes hs (h.runtimes.finishRegister hid runtime exited)
  | takeRunning bufferId => exact h.of_runtimes hs (h.runtimes.takeRunning bufferId)
  | awaitSave bufferId runtime hid => exact h.of_runtimes hs (h.runtimes.awaitSave hid runtime)
  | stopUnregistered bufferId runtime hid =>
    exact h.of_runtimes hs (h.runtimes.stopUnregistered hid runtime)
  | begin hidle =>
    rcases w.begin_cases with ⟨saved, hsaved, hsame, hbegin⟩ | hbegin
    · rw [hbegin] at hs hfinished htelling htold ⊢
      refine h.of_saves_eq hs h.runtimes h.server (fun _ _ hs ↦ hs) rfl rfl rfl rfl ?_ htelling htold
      intro entry hentry bufferId hid
      rcases List.mem_append.mp hentry with hentry | hentry
      · exact hfinished entry hentry bufferId hid
      · obtain rfl := List.mem_singleton.mp hentry
        have hjust := justified_of_same h hidle hsaved hsame hid
        refine ⟨hjust.created, hjust.completed, hjust.spares, fun hsettles ↦ ?_, fun hrecords ↦ ?_⟩
        · exact ⟨(hjust.final hsettles).server, (hjust.final hsettles).snapshot,
            (hjust.final hsettles).completed⟩
        · exact (hjust.inFile hrecords).step hjust.created hs
    · rw [hbegin] at hs hfinished htelling htold ⊢
      refine ⟨h.runtimes, h.server, ?_, ?_, ?_, h.lastSaved, ?_, hfinished, htelling, htold⟩
      · intro snapshot released hsnapshot bufferId hrecords
        cases hsnapshot
        obtain ⟨hdone, hcontains⟩ := ServerState.records_toPersisted hrecords
        exact ⟨h.server bufferId hcontains, hdone⟩
      · intro snapshot released hsnapshot bufferId hid
        cases hsnapshot
        exact ⟨mem_created_of_exitsRecorded (w := w) h hid, ServerState.spares_of_exitsRecorded hid,
          ServerState.settles_toPersisted.mp⟩
      · intro snapshot released hphase
        cases hphase
      · intro saved hsaved bufferId hrecords
        obtain ⟨hcreated, hinFile⟩ := h.recorded saved hsaved bufferId hrecords
        exact ⟨hcreated, hinFile.step hcreated hs⟩
  | @write snapshot released hphase =>
    have hsnapshot : w.snapshot? = some (snapshot, released) := by simp [snapshot?, hphase]
    refine ⟨h.runtimes, h.server, ?_, ?_, ?_, h.lastSaved, ?_, hfinished, htelling, htold⟩
    · intro snapshot' released' hsnapshot'
      cases hsnapshot'
      exact h.snapshot snapshot released hsnapshot
    · intro snapshot' released' hsnapshot'
      cases hsnapshot'
      exact h.released snapshot released hsnapshot
    · intro snapshot' released' hphase'
      cases hphase'
      rfl
    · intro saved hsaved bufferId hrecords
      obtain ⟨hcreated, hinFile⟩ := h.recorded saved hsaved bufferId hrecords
      exact ⟨hcreated, hinFile.step hcreated hs⟩
  | writeFailed hphase | syncFailed hphase => exact h.of_failed hs
  | @finish snapshot released hphase =>
    have hsnapshot : w.snapshot? = some (snapshot, released) := by simp [snapshot?, hphase]
    refine ⟨h.runtimes, h.server, ?_, ?_, ?_, ?_, ?_, ?_, htelling, htold⟩
    · intro snapshot' released' hsnapshot'
      cases hsnapshot'
    · intro snapshot' released' hsnapshot'
      cases hsnapshot'
    · intro snapshot' released' hphase'
      cases hphase'
    · exact List.getLast?_concat.symm
    · intro saved hsaved bufferId hrecords
      rw [lastCompleted, List.getLast?_concat] at hsaved
      obtain rfl := Option.some.inj hsaved
      obtain ⟨hcreated, hdone⟩ := h.snapshot snapshot released hsnapshot bufferId hrecords
      exact ⟨hcreated, inFile_of_written h hphase hrecords.1 hdone _⟩
    · intro entry hentry bufferId hid
      rcases List.mem_append.mp hentry with hentry | hentry
      · exact hfinished entry hentry bufferId hid
      · obtain rfl := List.mem_singleton.mp hentry
        obtain ⟨hcreated, hspares, hdone⟩ := h.released snapshot released hsnapshot bufferId hid
        refine ⟨hcreated, List.mem_append_right _ List.mem_cons_self, hspares, fun hsettles ↦ ?_,
          fun hrecords ↦ ?_⟩
        · exact (inFile_of_written h hphase hsettles (hdone hsettles) _).toFinal
        · exact inFile_of_written h hphase hrecords.1 (hdone hrecords.1) _
  | @collect released save hentry =>
    refine h.of_saves_eq hs (h.runtimes.saved released) h.server (fun _ _ hs ↦ hs) rfl rfl rfl rfl
      ?_ ?_ htold
    · intro entry hmem
      exact hfinished entry (List.mem_of_mem_erase hmem)
    · intro entry hmem
      rcases List.mem_append.mp hmem with hmem | hmem
      · exact htelling entry hmem
      · obtain ⟨⟨bufferId, keeper⟩, hkeeper, rfl⟩ := List.mem_map.mp hmem
        have hid : bufferId ∈ released := BufferRuntimes.mem_of_mem_saved released hkeeper
        exact hfinished _ hentry bufferId hid
  | @tell entry hentry =>
    refine h.of_saves_eq hs h.runtimes h.server (fun _ _ hs ↦ hs) rfl rfl rfl rfl hfinished ?_ ?_
    · intro entry' hmem
      exact htelling entry' (List.mem_of_mem_erase hmem)
    · intro entry' hmem
      rcases List.mem_append.mp hmem with hmem | hmem
      · exact htold entry' hmem
      · obtain rfl := List.mem_singleton.mp hmem
        exact htelling entry' hentry
  | @tellFailed entry hentry =>
    refine h.of_saves_eq hs h.runtimes h.server (fun _ _ hs ↦ hs) rfl rfl rfl rfl hfinished ?_ htold
    intro entry' hmem
    exact htelling entry' (List.mem_of_mem_erase hmem)

theorem Inv.start (s : ServerState) : (SaveWorld.start s).Inv where
  runtimes := by
    refine ⟨?_, ?_⟩
    all_goals
      intro bufferId hid
      simp [SaveWorld.start, BufferRuntimes.new] at hid
  server bufferId hcontains := by
    rwa [SaveWorld.start, Std.ExtTreeMap.mem_keys, ← Std.ExtTreeMap.contains_iff_mem]
  snapshot := by
    intro snapshot released hsnapshot
    cases hsnapshot
  released := by
    intro snapshot released hsnapshot
    cases hsnapshot
  written := by
    intro snapshot released hphase
    cases hphase
  lastSaved := rfl
  recorded := by
    intro saved hsaved
    cases hsaved
  finished := by simp [SaveWorld.start]
  telling := by simp [SaveWorld.start]
  told := by simp [SaveWorld.start]

theorem Reachable.inv (h : w.Reachable) : w.Inv := by
  obtain ⟨s, hrun⟩ := h
  induction hrun with
  | refl => exact Inv.start s
  | tail _ hs ih => exact ih.step hs

/-- A keeper is told `ExitRecorded` only after a save has completed that has its buffer exited, gone,
or without a keeper. One that has it exited or gone is never followed by one that does not; and if it
has it exited, a crash at any later point finds it exited or gone in the file. -/
theorem told_after_save (h : w.Reachable) {keeper : KeeperId} {save : PersistedWorkspace}
    (htold : (bufferId, keeper, save) ∈ w.told) :
    save ∈ w.completed ∧ save.Spares bufferId ∧
      (save.Settles bufferId →
        ∀ last, w.lastCompleted = some last → last.Settles bufferId) ∧
      (save.Records bufferId → ∃ file, w.file = some file ∧ file.Settles bufferId) := by
  have hjust := h.inv.told _ htold
  exact ⟨hjust.completed, hjust.spares, fun hsettles ↦ (hjust.final hsettles).completed,
    fun hrecords ↦ (hjust.inFile hrecords).file⟩

/-! ### Two runs -/

/-- The world after a first save with nothing else going on. -/
def saveOnce (w : SaveWorld) : SaveWorld :=
  let (keepers, runtimes) := w.runtimes.saved (exitsRecordedIn w.runtimes w.server)
  { w with
    runtimes
    lastSaved := some w.server.toPersisted
    file := some w.server.toPersisted
    telling := w.telling ++ keepers.map fun (bufferId, keeper) ↦
      (bufferId, keeper, w.server.toPersisted)
    completed := w.completed ++ [w.server.toPersisted] }

theorem run_saveOnce (hidle : w.phase = .idle) (hlast : w.lastSaved = none)
    (hfinished : w.finished = []) : Relation.ReflTransGen SaveStep w w.saveOnce := by
  obtain ⟨server, runtimes, phase, lastSaved, file, finished, telling, created, completed, told⟩ := w
  obtain rfl : phase = .idle := hidle
  obtain rfl : lastSaved = none := hlast
  obtain rfl : finished = [] := hfinished
  refine .tail (.tail (.tail (.tail .refl (.begin _ rfl)) (.write _ rfl)) (.finish _ rfl)) ?_
  have hcollect := SaveStep.collect (w := SaveWorld.mk server runtimes .idle
    (some server.toPersisted) (some server.toPersisted)
    [(exitsRecordedIn runtimes server, server.toPersisted)] telling created
    (completed ++ [server.toPersisted]) told) List.mem_cons_self
  simpa [begin, collect, saveOnce] using hcollect

/-- A buffer running a program that a keeper at a socket of its own follows. -/
def oneRunning : ServerState :=
  { ServerState.new with
    buffers := (∅ : Table BufferId Buffer).insert 1
      { Buffer.new "sh" ["sh"] none ∅ ⟨0⟩ with
        placement := .local (some "1.sock"), state := .running (some 7) } }

/-- The keeper is registered, its program exits, and the exit is recorded and saved. -/
def exitSaved : SaveWorld :=
  { start oneRunning with
    runtimes := (BufferRuntimes.new.insertRunning 1 (.keeper ⟨7⟩)).ended 1 (.exited (some 3))
    server := (ServerState.markBufferExited 1 (some 3) ⟨0⟩ oneRunning).2 }.saveOnce

/-- The keeper answers no status request when it is taken up again. It is let go of, its buffer is
marked interrupted, and that is saved. -/
def lossSaved : SaveWorld :=
  { start oneRunning with
    runtimes := BufferRuntimes.new.stopUnregistered 1 (.keeper ⟨7⟩)
    server := ((do
      ServerState.setBufferPlacement 1 (.local none)
      ServerState.markBufferInterrupted 1 (some 7)) oneRunning).2 }.saveOnce

/-- What is about to be told may all be told. -/
def tellAll (w : SaveWorld) : SaveWorld := { w with telling := [], told := w.told ++ w.telling }

theorem run_tellAll (w : SaveWorld) : Relation.ReflTransGen SaveStep w w.tellAll := by
  obtain ⟨server, runtimes, phase, lastSaved, file, finished, telling, created, completed, told⟩ := w
  induction telling generalizing told with
  | nil => simpa [tellAll] using Relation.ReflTransGen.refl
  | cons entry telling ih =>
    have htell := SaveStep.tell (w := SaveWorld.mk server runtimes phase lastSaved file finished
      (entry :: telling) created completed told) List.mem_cons_self
    rw [List.erase_cons_head] at htell
    refine .head htell ?_
    simpa [tellAll] using ih (told ++ [entry])

theorem reachable_exitSaved : exitSaved.tellAll.Reachable := by
  refine ⟨oneRunning, .trans ?_ (run_tellAll _)⟩
  refine .trans ?_ (run_saveOnce rfl rfl rfl)
  exact .tail (.tail (.tail .refl (.insertRunning _ 1 (.keeper ⟨7⟩) (by decide +kernel)))
    (.ended _ 1 (.exited (some 3))))
    (.serve _ _ (ServerState.markBufferExited_onward 1 (some 3) ⟨0⟩ oneRunning))

theorem reachable_lossSaved : lossSaved.tellAll.Reachable := by
  refine ⟨oneRunning, .trans ?_ (run_tellAll _)⟩
  refine .trans ?_ (run_saveOnce rfl rfl rfl)
  refine .tail (.tail .refl (.stopUnregistered _ 1 (.keeper ⟨7⟩) (by decide +kernel))) (.serve _ _ ?_)
  exact Op.Keeps.bind (ServerState.setBufferPlacement_onward 1 (.local none))
    (fun _ ↦ ServerState.markBufferInterrupted_onward 1 (some 7)) oneRunning

theorem told_after_save_exited :
    ∃ save, (1, ⟨7⟩, save) ∈ exitSaved.tellAll.told ∧ save ∈ exitSaved.tellAll.completed ∧
      save.Spares 1 ∧ (∀ last, exitSaved.tellAll.lastCompleted = some last → last.Settles 1) ∧
      ∃ file, exitSaved.tellAll.file = some file ∧ file.Settles 1 := by
  have htold : (1, ⟨7⟩, exitSaved.server.toPersisted) ∈ exitSaved.tellAll.told := by
    decide +kernel
  have hsettles : exitSaved.server.toPersisted.Settles 1 := by
    refine ServerState.settles_toPersisted.mpr ?_
    intro buffer hbuffer
    have hexited : exitSaved.server.buffers[(1 : BufferId)]?.map ServerState.hasExited =
        some true := by
      decide +kernel
    rw [hbuffer] at hexited
    exact Option.some.inj hexited
  have hhas : ∃ buffer ∈ exitSaved.server.toPersisted.buffers, buffer.id = (1 : BufferId).raw := by
    decide +kernel
  obtain ⟨hcompleted, hspares, hlast, hfile⟩ := told_after_save reachable_exitSaved htold
  exact ⟨_, htold, hcompleted, hspares, hlast hsettles, hfile ⟨hsettles, hhas⟩⟩

/-- The keeper is told although the only save there is has its buffer interrupted. -/
theorem told_of_interrupted :
    ∃ w, Reachable w ∧ ∃ save, (1, ⟨7⟩, save) ∈ w.told ∧ ∀ saved ∈ w.completed, ¬ saved.Settles 1 := by
  refine ⟨lossSaved.tellAll, reachable_lossSaved, lossSaved.server.toPersisted, ?_, ?_⟩
  · decide +kernel
  · intro saved hsaved hsettles
    obtain rfl : saved = lossSaved.server.toPersisted := List.mem_singleton.mp hsaved
    have hstate : lossSaved.server.buffers[(1 : BufferId)]?.map ServerState.hasExited =
        some false := by
      decide +kernel
    obtain ⟨buffer, hbuffer, hrunning⟩ := Option.map_eq_some_iff.mp hstate
    have hexited := ServerState.settles_toPersisted.mp hsettles buffer hbuffer
    rw [hrunning] at hexited
    cases hexited

end SaveWorld

end Embers
