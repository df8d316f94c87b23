import Embers.Lib.Register
import Embers.State.Links
import Embers.Server.RuntimeStatus

/-!
# Status updates in any order

Title, working directory and foreground command of a buffer are registers guarded by the sequence
number of its runtime's status, and the bell count is a maximum. What holds after all tasks have
run is then read off the registers: the number and the bells whatever the order, each field when
the last update to carry it lands.

## Main results

* `ServerState.recordUpdates_settled`: the record after the tasks of a poller ran in any order.
-/

namespace Embers

/-! ## One update -/

namespace Recording

variable (shown : Bool) (update : BufferRuntimeUpdate)

private theorem recordPipe_buffer (r : Recording) :
    ∃ pipe, (recordPipe update r).buffer = { r.buffer with pipe } := by
  rw [recordPipe]
  split
  · split
    · exact ⟨_, rfl⟩
    · exact ⟨_, rfl⟩
  · exact ⟨_, rfl⟩

private theorem recordOption_buffer (option : String × Option String) (r : Recording) :
    ∃ userOptions, (recordOption r option).buffer = { r.buffer with userOptions } := by
  rcases option with ⟨key, _ | value⟩ <;> simp only [recordOption] <;> split <;> exact ⟨_, rfl⟩

private theorem foldl_recordOption_buffer (options : List (String × Option String)) (r : Recording) :
    ∃ userOptions, (options.foldl recordOption r).buffer = { r.buffer with userOptions } := by
  induction options generalizing r with
  | nil => exact ⟨_, rfl⟩
  | cons option options ih =>
    obtain ⟨userOptions, h⟩ := ih (recordOption r option)
    obtain ⟨_, hoption⟩ := recordOption_buffer option r
    exact ⟨userOptions, by rw [List.foldl_cons, h, hoption]⟩

private theorem recordUserOptions_buffer (r : Recording) :
    ∃ userOptions, (recordUserOptions update r).buffer = { r.buffer with userOptions } := by
  rw [recordUserOptions]
  split
  · exact foldl_recordOption_buffer _ r
  · exact ⟨_, rfl⟩

private theorem recordCwd_buffer (r : Recording) :
    (recordCwd update r).buffer = { r.buffer with cwd := update.cwd.join.or r.buffer.cwd } := by
  rw [recordCwd]
  split
  next cwd h =>
    rw [h]
    split
    · rfl
    next hsame => rw [Option.join_some, Option.some_or, of_not_not hsame]
  next h =>
    have hnone : update.cwd.join = none := by
      rcases hcwd : update.cwd with _ | _ | cwd
      · rfl
      · rfl
      · exact absurd hcwd (h cwd)
    rw [hnone, Option.none_or]

private theorem recordForegroundCommand_buffer (r : Recording) :
    (recordForegroundCommand update r).buffer = { r.buffer with
      foregroundCommand := update.foregroundCommand.getD r.buffer.foregroundCommand } := by
  rw [recordForegroundCommand]
  split
  next command h =>
    rw [h]
    split
    · rfl
    next hsame => rw [Option.getD_some, of_not_not hsame]
  next h => rw [h, Option.getD_none]


private theorem recordFields_buffer (r : Recording) : ∃ pipe userOptions,
    (recordFields update r).buffer = { r.buffer with
      cwd := update.cwd.join.or r.buffer.cwd
      foregroundCommand := update.foregroundCommand.getD r.buffer.foregroundCommand
      pipe, userOptions } := by
  obtain ⟨pipe, hpipe⟩ := recordPipe_buffer update (recordForegroundCommand update (recordCwd update r))
  obtain ⟨userOptions, hoptions⟩ := recordUserOptions_buffer update
    (recordPipe update (recordForegroundCommand update (recordCwd update r)))
  refine ⟨pipe, userOptions, ?_⟩
  rw [recordFields, hoptions, hpipe, recordForegroundCommand_buffer, recordCwd_buffer]

private theorem recordBell_buffer (r : Recording) : ∃ flag,
    (recordBell shown update r).buffer = { r.buffer with
      activity := flag
      runtimeBellSequence := if r.buffer.runtimeBellSequence < update.bellSequence
        then update.bellSequence else r.buffer.runtimeBellSequence } := by
  rw [recordBell]
  split
  · exact ⟨_, rfl⟩
  · exact ⟨_, rfl⟩

private theorem recordOutput_buffer (r : Recording) : ∃ flag,
    (recordOutput shown update r).buffer = { r.buffer with
      activity := flag
      lastSnapshotSeq := update.sequence
      title := (update.title.map (·.getD "")).getD r.buffer.title } := by
  rw [recordOutput]
  rcases update.title with _ | title
  · exact ⟨_, rfl⟩
  · exact ⟨_, rfl⟩

/-- The record after one update, up to its activity, its pipe and its options. -/
theorem record_buffer (buffer : Buffer) : ∃ flag pipe userOptions,
    (record shown update buffer).buffer = { buffer with
      lastSnapshotSeq := if buffer.lastSnapshotSeq < update.sequence then update.sequence
        else buffer.lastSnapshotSeq
      runtimeBellSequence := if buffer.runtimeBellSequence < update.bellSequence
        then update.bellSequence else buffer.runtimeBellSequence
      title := if buffer.lastSnapshotSeq < update.sequence
        then (update.title.map (·.getD "")).getD buffer.title else buffer.title
      cwd := if buffer.lastSnapshotSeq ≤ update.sequence then update.cwd.join.or buffer.cwd
        else buffer.cwd
      foregroundCommand := if buffer.lastSnapshotSeq ≤ update.sequence
        then update.foregroundCommand.getD buffer.foregroundCommand else buffer.foregroundCommand
      activity := flag, pipe, userOptions } := by
  obtain ⟨flag, hbell⟩ := recordBell_buffer shown update ⟨buffer, false, false⟩
  rw [record]
  set belled := recordBell shown update ⟨buffer, false, false⟩
  -- A strictly newer update goes through both halves, one of the same sequence only the second.
  by_cases hnew : buffer.lastSnapshotSeq < update.sequence
  · obtain ⟨flag', houtput⟩ := recordOutput_buffer shown update belled
    obtain ⟨pipe, userOptions, hfields⟩ := recordFields_buffer update (recordOutput shown update belled)
    refine ⟨flag', pipe, userOptions, ?_⟩
    have hle : buffer.lastSnapshotSeq ≤ update.sequence := UInt64.le_of_lt hnew
    simp only [hnew, hle, if_true, hfields, houtput, hbell]
  · by_cases hle : buffer.lastSnapshotSeq ≤ update.sequence
    · obtain ⟨pipe, userOptions, hfields⟩ := recordFields_buffer update belled
      refine ⟨flag, pipe, userOptions, ?_⟩
      simp only [hnew, hle, if_true, if_false, hfields, hbell]
    · refine ⟨flag, buffer.pipe, buffer.userOptions, ?_⟩
      simp only [hnew, hle, if_false, hbell]

/-- A bell flag stays, and a new bell sets it unless a client shows the buffer. -/
theorem record_activity (buffer : Buffer)
    (h : buffer.activity = .bell ∨
      (shown = false ∧ buffer.runtimeBellSequence < update.bellSequence)) :
    (record shown update buffer).buffer.activity = .bell := by
  have hbelled : (recordBell shown update ⟨buffer, false, false⟩).buffer.activity = .bell := by
    rw [recordBell]
    split
    next hnew =>
      rcases h with h | ⟨rfl, -⟩
      · cases shown
        · rfl
        · exact h
      · rfl
    next hold => exact h.resolve_right fun h ↦ hold h.2
  rw [record]
  set belled := recordBell shown update ⟨buffer, false, false⟩
  have houtput : (if buffer.lastSnapshotSeq < update.sequence
      then recordOutput shown update belled else belled).buffer.activity = .bell := by
    split
    · rw [recordOutput]
      cases shown
      · simp only [Bool.false_eq_true, if_false, hbelled, maxActivity]
      · simp only [if_true, hbelled]
    · exact hbelled
  set output := if buffer.lastSnapshotSeq < update.sequence then recordOutput shown update belled
    else belled
  obtain ⟨pipe, userOptions, hfields⟩ := recordFields_buffer update output
  split
  · rw [hfields]
    exact houtput
  · exact houtput

end Recording

/-! ## Registers -/

namespace Buffer

/-- A field of the record with the sequence number that guards it. -/
def register {β : Type} (field : Buffer → β) (buffer : Buffer) : Register ℕ β :=
  ⟨buffer.lastSnapshotSeq.toNat, field buffer⟩

end Buffer

namespace BufferRuntimeUpdate

/-- The title an update brings, an unset one as the empty text. -/
def titleText (update : BufferRuntimeUpdate) : Option String := update.title.map (·.getD "")

/-- The directory an update brings. That the directory became unknown brings nothing. -/
def knownCwd (update : BufferRuntimeUpdate) : Option String := update.cwd.join

/-- A field of the update as a message. -/
def message {β : Type} (value : BufferRuntimeUpdate → Option β) (update : BufferRuntimeUpdate) :
    Message ℕ β :=
  ⟨update.sequence.toNat, value update⟩

end BufferRuntimeUpdate

open BufferRuntimeUpdate Buffer

section Registers

variable (shown : Bool) (update : BufferRuntimeUpdate) (buffer : Buffer)

private theorem toNat_if_lt (a b : UInt64) : (if a < b then b else a).toNat = max a.toNat b.toNat := by
  split
  next h => exact (max_eq_right (UInt64.le_iff_toNat_le.mp (UInt64.le_of_lt h))).symm
  next h => exact (max_eq_left (UInt64.le_iff_toNat_le.mp (UInt64.not_lt.mp h))).symm

theorem register_title_record :
    register Buffer.title (Recording.record shown update buffer).buffer =
      (register Buffer.title buffer).receive .above (message titleText update) := by
  obtain ⟨_, _, _, h⟩ := Recording.record_buffer shown update buffer
  rw [h]
  ext1
  · exact toNat_if_lt _ _
  · exact if_congr UInt64.lt_iff_toNat_lt rfl rfl

theorem register_cwd_record :
    register Buffer.cwd (Recording.record shown update buffer).buffer =
      (register Buffer.cwd buffer).receive .atLeast (message (fun u ↦ u.knownCwd.map some) update) := by
  obtain ⟨_, _, _, h⟩ := Recording.record_buffer shown update buffer
  rw [h]
  ext1
  · exact toNat_if_lt _ _
  · refine if_congr UInt64.le_iff_toNat_le ?_ rfl
    simp only [message, knownCwd]
    rcases update.cwd.join with _ | cwd <;> rfl

theorem register_foregroundCommand_record :
    register Buffer.foregroundCommand (Recording.record shown update buffer).buffer =
      (register Buffer.foregroundCommand buffer).receive .atLeast
        (message BufferRuntimeUpdate.foregroundCommand update) := by
  obtain ⟨_, _, _, h⟩ := Recording.record_buffer shown update buffer
  rw [h]
  ext1
  · exact toNat_if_lt _ _
  · exact if_congr UInt64.le_iff_toNat_le rfl rfl

theorem record_runtimeBellSequence :
    (Recording.record shown update buffer).buffer.runtimeBellSequence.toNat =
      max buffer.runtimeBellSequence.toNat update.bellSequence.toNat := by
  obtain ⟨_, _, _, h⟩ := Recording.record_buffer shown update buffer
  rw [h]
  exact toNat_if_lt _ _

/-! ## Runs of updates -/

/-- The record after the updates, each with whether a client showed the buffer. -/
def recordAll (updates : List (Bool × BufferRuntimeUpdate)) (buffer : Buffer) : Buffer :=
  updates.foldl (fun buffer update ↦ (Recording.record update.1 update.2 buffer).buffer) buffer

variable {buffer} {updates : List (Bool × BufferRuntimeUpdate)}

theorem recordAll_append (before after : List (Bool × BufferRuntimeUpdate)) (buffer : Buffer) :
    recordAll (before ++ after) buffer = recordAll after (recordAll before buffer) :=
  List.foldl_append

/-- A field that one update treats as a register is a register along a run. -/
theorem register_recordAll {β : Type} {g : Guard} {field : Buffer → β}
    {value : BufferRuntimeUpdate → Option β}
    (hstep : ∀ shown update buffer, register field (Recording.record shown update buffer).buffer =
      (register field buffer).receive g (message value update)) :
    register field (recordAll updates buffer) =
      (register field buffer).run g ((updates.map Prod.snd).map (message value)) := by
  induction updates generalizing buffer with
  | nil => rfl
  | cons update updates ih =>
    rw [recordAll, List.foldl_cons, ← recordAll, ih, hstep]
    rfl

theorem recordAll_lastSnapshotSeq : (recordAll updates buffer).lastSnapshotSeq.toNat =
    ((register Buffer.foregroundCommand buffer).run .atLeast
      ((updates.map Prod.snd).map (message BufferRuntimeUpdate.foregroundCommand))).seq :=
  congrArg Register.seq (register_recordAll register_foregroundCommand_record)

theorem le_recordAll_lastSnapshotSeq :
    buffer.lastSnapshotSeq ≤ (recordAll updates buffer).lastSnapshotSeq := by
  rw [UInt64.le_iff_toNat_le, recordAll_lastSnapshotSeq]
  exact Register.le_run_seq (r := register Buffer.foregroundCommand buffer)

theorem sequence_le_recordAll (hupdate : update ∈ updates.map Prod.snd) :
    update.sequence ≤ (recordAll updates buffer).lastSnapshotSeq := by
  rw [UInt64.le_iff_toNat_le, recordAll_lastSnapshotSeq]
  exact Register.seq_le_run_seq (m := message BufferRuntimeUpdate.foregroundCommand update)
    (List.mem_map_of_mem hupdate)

theorem recordAll_lastSnapshotSeq_le {bound : UInt64} (hbuffer : buffer.lastSnapshotSeq ≤ bound)
    (hupdates : ∀ update ∈ updates.map Prod.snd, update.sequence ≤ bound) :
    (recordAll updates buffer).lastSnapshotSeq ≤ bound := by
  rw [UInt64.le_iff_toNat_le, recordAll_lastSnapshotSeq]
  refine Register.run_seq_le (UInt64.le_iff_toNat_le.mp hbuffer) fun m hm ↦ ?_
  obtain ⟨update, hupdate, rfl⟩ := List.mem_map.mp hm
  exact UInt64.le_iff_toNat_le.mp (hupdates update hupdate)

/-- The bell count only grows, and never misses a reported one. -/
theorem recordAll_runtimeBellSequence :
    buffer.runtimeBellSequence ≤ (recordAll updates buffer).runtimeBellSequence ∧
      ∀ update ∈ updates.map Prod.snd,
        update.bellSequence ≤ (recordAll updates buffer).runtimeBellSequence := by
  induction updates generalizing buffer with
  | nil => exact ⟨UInt64.le_refl _, by simp⟩
  | cons update updates ih =>
    obtain ⟨hgrows, hreported⟩ := @ih (Recording.record update.1 update.2 buffer).buffer
    have hbell := record_runtimeBellSequence update.1 update.2 buffer
    rw [recordAll, List.foldl_cons, ← recordAll]
    refine ⟨?_, fun u hu ↦ ?_⟩
    · rw [UInt64.le_iff_toNat_le] at hgrows ⊢
      omega
    · rcases List.mem_cons.mp hu with rfl | hu
      · rw [UInt64.le_iff_toNat_le] at hgrows ⊢
        omega
      · exact hreported u hu

theorem recordAll_activity_of_bell (h : buffer.activity = .bell) :
    (recordAll updates buffer).activity = .bell := by
  induction updates generalizing buffer with
  | nil => exact h
  | cons update updates ih => exact ih (Recording.record_activity _ _ _ (.inl h))

/-- Whatever keeps the count below a reported one lets the report through. -/
theorem recordAll_runtimeBellSequence_lt {bound : UInt64}
    (hbuffer : buffer.runtimeBellSequence < bound)
    (hupdates : ∀ update ∈ updates.map Prod.snd, update.bellSequence < bound) :
    (recordAll updates buffer).runtimeBellSequence < bound := by
  induction updates generalizing buffer with
  | nil => exact hbuffer
  | cons update updates ih =>
    refine ih ?_ fun u hu ↦ hupdates u (List.mem_cons_of_mem _ hu)
    have hbell := record_runtimeBellSequence update.1 update.2 buffer
    have hupdate := hupdates update.2 List.mem_cons_self
    rw [UInt64.lt_iff_toNat_lt] at hbuffer hupdate ⊢
    rw [hbell]
    exact max_lt hbuffer hupdate

/-- Whether an update gets its values through the guard after the updates `earlier`: neither the
status the server attached with nor one of them outran it. -/
def LetThrough (g : Guard) (start : UInt64) (earlier : List BufferRuntimeUpdate)
    (update : BufferRuntimeUpdate) : Prop :=
  g.Passes start.toNat update.sequence.toNat ∧
    ∀ u ∈ earlier, g.Passes u.sequence.toNat update.sequence.toNat

theorem passes_run_message {β : Type} {g : Guard} {value : BufferRuntimeUpdate → Option β}
    {start : Register ℕ β} {earlier : List BufferRuntimeUpdate}
    (hstart : start.seq = buffer.lastSnapshotSeq.toNat) :
    g.Passes (start.run g (earlier.map (message value))).seq (message value update).seq ↔
      LetThrough g buffer.lastSnapshotSeq earlier update := by
  rw [Register.passes_run_iff, hstart, List.forall_mem_map]
  rfl

/-- The value reported last got through, and no update that ran after it got another one through.
Those that were outrun themselves, by this update or another, may still have run after it. -/
def Lands {β : Type} (g : Guard) (value : BufferRuntimeUpdate → Option β) (start : UInt64)
    (spawned ran : List BufferRuntimeUpdate) : Prop :=
  ∃ before update after v, ran = before ++ update :: after ∧ value update = some v ∧
    (spawned.filterMap value).getLast? = some v ∧ LetThrough g start before update ∧
    ∀ mid u rest, after = mid ++ u :: rest → LetThrough g start (before ++ update :: mid) u →
      value u = none

/-- A field whose last update lands holds the value that update brings. -/
theorem recordAll_of_lands {β : Type} {g : Guard} {field : Buffer → β}
    {value : BufferRuntimeUpdate → Option β}
    (hstep : ∀ shown update buffer, register field (Recording.record shown update buffer).buffer =
      (register field buffer).receive g (message value update))
    {spawned : List BufferRuntimeUpdate}
    (hlands : Lands g value buffer.lastSnapshotSeq spawned (updates.map Prod.snd)) :
    (spawned.filterMap value).getLast? = some (field (recordAll updates buffer)) := by
  obtain ⟨before, update, after, v, hran, hv, hlast, hbefore, hafter⟩ := hlands
  have hvalue := congrArg Register.value (@register_recordAll buffer updates _ _ _ _ hstep)
  rw [hran, List.map_append, List.map_cons,
    Register.run_value_of_last (m := message value update) hv] at hvalue
  · rw [hlast, ← hvalue]
    rfl
  · exact (passes_run_message update rfl).mpr hbefore
  · intro mid m rest hms hpasses
    obtain ⟨mid, tail, rfl, rfl, htail⟩ := List.map_eq_append_iff.mp hms
    obtain ⟨u, rest, rfl, rfl, rfl⟩ := List.map_eq_cons_iff.mp htail
    rw [← List.map_cons, ← List.map_append] at hpasses
    exact hafter mid u rest rfl ((passes_run_message u rfl).mp hpasses)

/-- The value reported last lands when the update that brings it gets through and those that bring
one after it are outrun by it. -/
theorem lands_of_outrun {β : Type} {g : Guard} {value : BufferRuntimeUpdate → Option β}
    {start : UInt64} {spawned before after : List BufferRuntimeUpdate} {v : β}
    (hv : value update = some v) (hlast : (spawned.filterMap value).getLast? = some v)
    (hbefore : LetThrough g start before update)
    (hafter : ∀ u ∈ after, g.Passes update.sequence.toNat u.sequence.toNat → value u = none) :
    Lands g value start spawned (before ++ update :: after) := by
  refine ⟨before, update, after, v, rfl, hv, hlast, hbefore, ?_⟩
  rintro mid u rest rfl ⟨-, hu⟩
  exact hafter u (by simp) (hu update (by simp))

/-- What lands still lands when its value is read through a function. -/
theorem Lands.map {β γ : Type} {g : Guard} {value : BufferRuntimeUpdate → Option β} {start : UInt64}
    {spawned ran : List BufferRuntimeUpdate} (f : β → γ) (h : Lands g value start spawned ran) :
    Lands g (fun u ↦ (value u).map f) start spawned ran := by
  obtain ⟨before, update, after, v, hran, hv, hlast, hbefore, hafter⟩ := h
  refine ⟨before, update, after, f v, hran, ?_, ?_, hbefore, fun mid u rest hmid hu ↦ ?_⟩
  · dsimp only
    rw [hv, Option.map_some]
  · rw [← List.map_filterMap, List.getLast?_map, hlast, Option.map_some]
  · dsimp only
    rw [hafter mid u rest hmid hu, Option.map_none]

/-- A field no update carries keeps its value. -/
theorem recordAll_of_none {β : Type} {g : Guard} {field : Buffer → β}
    {value : BufferRuntimeUpdate → Option β}
    (hstep : ∀ shown update buffer, register field (Recording.record shown update buffer).buffer =
      (register field buffer).receive g (message value update))
    (hnone : ∀ u ∈ updates.map Prod.snd, value u = none) :
    field (recordAll updates buffer) = field buffer := by
  have hvalue := congrArg Register.value (@register_recordAll buffer updates _ _ _ _ hstep)
  rw [Register.run_value_of_none] at hvalue
  · exact hvalue
  · intro m hm
    obtain ⟨u, hu, rfl⟩ := List.mem_map.mp hm
    exact hnone u hu

end Registers

/-! ## The updates of a poller -/

section Poller

variable {failed : Bool} {last : BufferRuntimeStatus} {sawExit : Bool}
  {statuses : List BufferRuntimeStatus}

/-- A field the poller reports when it changes: the last report is the latest status. -/
theorem pollUpdates_getLastD {β : Type} [DecidableEq β] {field : BufferRuntimeStatus → β}
    {value : BufferRuntimeUpdate → Option β}
    (hdelta : ∀ status last update, statusUpdateDelta status last = some update →
      value update = changedTo (field status) (field last))
    (hsame : ∀ status last, statusUpdateDelta status last = none → field status = field last)
    (hpipe : ∀ last sawExit, ∀ u ∈ notifyPipeRemoved last sawExit, value u = none) :
    ((pollUpdates failed last sawExit statuses).filterMap value).getLastD (field last) =
      (statuses.map field).getLastD (field last) := by
  induction statuses generalizing last sawExit with
  | nil =>
    rw [pollUpdates]
    cases failed with
    | false => rfl
    | true =>
      rcases hnotify : notifyPipeRemoved last sawExit with _ | u
      · rfl
      · simp [hpipe last sawExit u hnotify]
  | cons status statuses ih =>
    rw [List.map_cons, List.getLastD_cons, pollUpdates]
    cases hupdate : statusUpdateDelta status last with
    | none =>
      rw [hsame status last hupdate]
      exact ih
    | some update =>
      have hvalue := hdelta status last update hupdate
      rw [← @ih status]
      by_cases hchanged : field status = field last
      · rw [changedTo, if_neg (not_not_intro hchanged)] at hvalue
        rw [List.filterMap_cons_none hvalue, hchanged]
      · rw [changedTo, if_pos hchanged] at hvalue
        rw [List.filterMap_cons_some hvalue, List.getLastD_cons]

theorem statusUpdateDelta_eq_some {status : BufferRuntimeStatus} {update : BufferRuntimeUpdate}
    (h : statusUpdateDelta status last = some update) :
    update.sequence = status.sequence ∧ update.title = changedTo status.title last.title ∧
      update.cwd = changedTo status.cwd last.cwd ∧
      update.foregroundCommand = changedTo status.foregroundCommand last.foregroundCommand := by
  rw [statusUpdateDelta] at h
  split at h
  · cases h
    exact ⟨rfl, rfl, rfl, rfl⟩
  · cases h

theorem statusUpdateDelta_eq_none {status : BufferRuntimeStatus}
    (h : statusUpdateDelta status last = none) :
    status.sequence = last.sequence ∧ status.title = last.title ∧ status.cwd = last.cwd ∧
      status.foregroundCommand = last.foregroundCommand := by
  rw [statusUpdateDelta] at h
  split at h
  · cases h
  next hsame =>
    simp only [BufferRuntimeStatus.Changed, not_or, not_not] at hsame
    exact ⟨hsame.1, hsame.2.2.1, hsame.2.2.2.2.2.1, hsame.2.2.2.2.2.2⟩

theorem mem_notifyPipeRemoved {u : BufferRuntimeUpdate} (h : u ∈ notifyPipeRemoved last sawExit) :
    u.title = none ∧ u.cwd = none ∧ u.foregroundCommand = none ∧ last.sequence ≤ u.sequence := by
  rw [notifyPipeRemoved] at h
  split at h
  · cases h
  · cases h
    refine ⟨rfl, rfl, rfl, ?_⟩
    dsimp only
    split
    · exact UInt64.le_refl _
    next hmax =>
      have hlt := last.sequence.toNat_lt
      rw [← UInt64.toNat_inj, UInt64.toNat_add, UInt64.toNat_one, UInt64.toNat_zero] at hmax
      rw [UInt64.le_iff_toNat_le, UInt64.toNat_add, UInt64.toNat_one]
      omega

private theorem getLast?_filterMap_cons_or {α β : Type} (f : α → Option β) (a : α) (l : List α)
    (d : Option β) :
    (((a :: l).filterMap f).getLast?).or d = ((l.filterMap f).getLast?).or ((f a).or d) := by
  cases ha : f a with
  | none => rw [List.filterMap_cons_none ha, Option.none_or]
  | some b =>
    rw [List.filterMap_cons_some ha, List.getLast?_cons]
    cases (l.filterMap f).getLast? <;> rfl

/-- The last directory reported is the last one any poll resolved. The default `d` stands for what
was known before, which a resolved directory of `last` has to agree with. -/
theorem pollUpdates_knownCwd {d : Option String} (hd : last.cwd.or d = d) :
    (((pollUpdates failed last sawExit statuses).filterMap knownCwd).getLast?).or d =
      ((statuses.filterMap BufferRuntimeStatus.cwd).getLast?).or d := by
  induction statuses generalizing last sawExit d with
  | nil =>
    rw [pollUpdates]
    cases failed with
    | false => rfl
    | true =>
      rcases hnotify : notifyPipeRemoved last sawExit with _ | u
      · rfl
      · simp [knownCwd, (mem_notifyPipeRemoved hnotify).2.1]
  | cons status statuses ih =>
    rw [pollUpdates, getLast?_filterMap_cons_or BufferRuntimeStatus.cwd]
    cases hupdate : statusUpdateDelta status last with
    | none =>
      obtain ⟨-, -, hcwd, -⟩ := statusUpdateDelta_eq_none hupdate
      rw [hcwd, hd]
      exact ih hd
    | some update =>
      obtain ⟨-, -, hcwd, -⟩ := statusUpdateDelta_eq_some hupdate
      -- An update without a directory comes from a status that repeats the last one.
      have hknown : update.knownCwd.or d = status.cwd.or d := by
        rw [knownCwd, hcwd, changedTo]
        split
        · rfl
        next hsame => rw [of_not_not hsame, hd, Option.join_none, Option.none_or]
      dsimp only
      rw [getLast?_filterMap_cons_or, hknown]
      exact ih (by cases status.cwd <;> rfl)

theorem pollUpdates_foregroundCommand :
    ((pollUpdates failed last sawExit statuses).filterMap
      BufferRuntimeUpdate.foregroundCommand).getLastD last.foregroundCommand =
      (statuses.map BufferRuntimeStatus.foregroundCommand).getLastD last.foregroundCommand :=
  @pollUpdates_getLastD _ _ _ _ _ _ BufferRuntimeStatus.foregroundCommand _
    (fun _ _ _ h ↦ (statusUpdateDelta_eq_some h).2.2.2)
    (fun _ _ h ↦ (statusUpdateDelta_eq_none h).2.2.2)
    (fun _ _ _ h ↦ (mem_notifyPipeRemoved h).2.2.1)

theorem pollUpdates_title :
    ((pollUpdates failed last sawExit statuses).filterMap
      BufferRuntimeUpdate.title).getLastD last.title =
      (statuses.map BufferRuntimeStatus.title).getLastD last.title :=
  @pollUpdates_getLastD _ _ _ _ _ _ BufferRuntimeStatus.title _
    (fun _ _ _ h ↦ (statusUpdateDelta_eq_some h).2.1)
    (fun _ _ h ↦ (statusUpdateDelta_eq_none h).2.1)
    (fun _ _ _ h ↦ (mem_notifyPipeRemoved h).1)

/-- Every polled sequence number that differs from the last report's is reported. -/
theorem exists_mem_pollUpdates {status : BufferRuntimeStatus} (h : status ∈ statuses) :
    status.sequence = last.sequence ∨
      ∃ u ∈ pollUpdates failed last sawExit statuses, u.sequence = status.sequence := by
  induction statuses generalizing last sawExit with
  | nil => cases h
  | cons first statuses ih =>
    rw [pollUpdates]
    cases hupdate : statusUpdateDelta first last with
    | none =>
      rcases List.mem_cons.mp h with rfl | h
      · exact .inl (statusUpdateDelta_eq_none hupdate).1
      · exact ih h
    | some update =>
      right
      have hsequence := (statusUpdateDelta_eq_some hupdate).1
      rcases List.mem_cons.mp h with rfl | h
      · exact ⟨update, List.mem_cons_self, hsequence⟩
      · rcases @ih first (sawExit || !first.running) h with hfirst | ⟨u, hu, hseq⟩
        · exact ⟨update, List.mem_cons_self, hsequence.trans hfirst.symm⟩
        · exact ⟨u, List.mem_cons_of_mem _ hu, hseq⟩

/-- While polls succeed, every reported sequence number is a polled one. -/
theorem sequence_of_mem_pollUpdates {u : BufferRuntimeUpdate}
    (h : u ∈ pollUpdates false last sawExit statuses) :
    ∃ status ∈ statuses, u.sequence = status.sequence := by
  induction statuses generalizing last sawExit with
  | nil => simp [pollUpdates] at h
  | cons first statuses ih =>
    rw [pollUpdates] at h
    cases hupdate : statusUpdateDelta first last with
    | none =>
      rw [hupdate] at h
      obtain ⟨status, hstatus, hseq⟩ := ih h
      exact ⟨status, List.mem_cons_of_mem _ hstatus, hseq⟩
    | some update =>
      rw [hupdate] at h
      rcases List.mem_cons.mp h with rfl | h
      · exact ⟨first, List.mem_cons_self, (statusUpdateDelta_eq_some hupdate).1⟩
      · obtain ⟨status, hstatus, hseq⟩ := ih h
        exact ⟨status, List.mem_cons_of_mem _ hstatus, hseq⟩

/-- A poller of statuses whose numbers never go down reports numbers that never go down. -/
theorem pairwise_pollUpdates
    (h : (last :: statuses).Pairwise fun a b ↦ a.sequence ≤ b.sequence) :
    (∀ u ∈ pollUpdates failed last sawExit statuses, last.sequence ≤ u.sequence) ∧
      (pollUpdates failed last sawExit statuses).Pairwise fun a b ↦ a.sequence ≤ b.sequence := by
  induction statuses generalizing last sawExit with
  | nil =>
    rw [pollUpdates]
    cases failed with
    | false => simp
    | true =>
      rcases hnotify : notifyPipeRemoved last sawExit with _ | u
      · simp
      · simp [(mem_notifyPipeRemoved hnotify).2.2.2]
  | cons first statuses ih =>
    rw [pollUpdates]
    obtain ⟨hlast, hrest⟩ := List.pairwise_cons.mp h
    have hfirst := hlast first List.mem_cons_self
    cases hupdate : statusUpdateDelta first last with
    | none =>
      refine ih (List.pairwise_cons.mpr ⟨fun status hstatus ↦ ?_, (List.pairwise_cons.mp hrest).2⟩)
      exact hlast status (List.mem_cons_of_mem _ hstatus)
    | some update =>
      obtain ⟨hle, hsorted⟩ := @ih first (sawExit || !first.running) hrest
      have hsequence := (statusUpdateDelta_eq_some hupdate).1
      refine ⟨fun u hu ↦ ?_, List.pairwise_cons.mpr ⟨fun u hu ↦ ?_, hsorted⟩⟩
      · rcases List.mem_cons.mp hu with rfl | hu
        · rwa [hsequence]
        · exact UInt64.le_trans hfirst (hle u hu)
      · rw [hsequence]
        exact hle u hu

end Poller

/-- Run in the order they were spawned, with numbers that never go down, the updates land. -/
theorem lands_of_pairwise {β : Type} {value : BufferRuntimeUpdate → Option β} {start : UInt64}
    {spawned : List BufferRuntimeUpdate} (hstart : ∀ u ∈ spawned, start ≤ u.sequence)
    (hsorted : spawned.Pairwise fun a b ↦ a.sequence ≤ b.sequence) {v : β}
    (hv : (spawned.filterMap value).getLast? = some v) :
    Lands .atLeast value start spawned spawned := by
  -- The split is at the last update that carries a value.
  have hsplit : ∀ l : List BufferRuntimeUpdate, (l.filterMap value).getLast? = some v →
      ∃ before update after, l = before ++ update :: after ∧ value update = some v ∧
        ∀ u ∈ after, value u = none := by
    intro l
    induction l with
    | nil => intro h; cases h
    | cons update l ih =>
      intro h
      rcases hrest : (l.filterMap value).getLast? with _ | w
      · have hnone := List.getLast?_eq_none_iff.mp hrest
        refine ⟨[], update, l, rfl, ?_, fun u hu ↦ List.filterMap_eq_nil_iff.mp hnone u hu⟩
        cases hupdate : value update with
        | none =>
          rw [List.filterMap_cons_none hupdate, hrest] at h
          cases h
        | some w =>
          rw [List.filterMap_cons_some hupdate, hnone] at h
          exact h
      · have hw : (l.filterMap value).getLast? = some v := by
          cases hupdate : value update with
          | none => rwa [List.filterMap_cons_none hupdate] at h
          | some x =>
            rw [List.filterMap_cons_some hupdate, List.getLast?_cons, hrest] at h
            rw [hrest]
            exact h
        obtain ⟨before, u, after, rfl, hu, hafter⟩ := ih hw
        exact ⟨update :: before, u, after, rfl, hu, hafter⟩
  obtain ⟨before, update, after, rfl, hupdate, hafter⟩ := hsplit spawned hv
  refine lands_of_outrun update hupdate hv ⟨?_, fun u hu ↦ ?_⟩ fun u hu _ ↦ hafter u hu
  · exact UInt64.le_iff_toNat_le.mp (hstart update (by simp))
  · exact UInt64.le_iff_toNat_le.mp
      ((List.pairwise_append.mp hsorted).2.2 u hu update List.mem_cons_self)

/-! ## Tasks on the server state -/

namespace ServerState

/-- The buffer's record changes and its attachment stays: who shows it stays. -/
theorem shownIn_mapBuffer (s : ServerState) (fuel : ℕ) (shownSessions : List SessionId)
    (bufferId : BufferId) {f : Buffer → Buffer}
    (hf : ∀ buffer, s.buffers[bufferId]? = some buffer → (f buffer).attachment = buffer.attachment) :
    shownIn fuel shownSessions bufferId (s.mapBuffer bufferId f) =
      shownIn fuel shownSessions bufferId s := by
  have hlinks : SameLinks (s.mapBuffer bufferId f) s := fun _ ↦ rfl
  have hroots : SameRoots (s.mapBuffer bufferId f) s := ⟨fun _ ↦ rfl, fun _ ↦ rfl⟩
  have hbuffer : (s.mapBuffer bufferId f).buffers[bufferId]? = s.buffers[bufferId]?.map f := by
    simp [mapBuffer]
  rw [shownIn, shownIn, sessionShowingBuffer, sessionShowingBuffer, ServerState.buffer,
    ServerState.buffer, hbuffer]
  cases h : s.buffers[bufferId]? with
  | none => rfl
  | some buffer =>
    simp only [Option.map_some, Answer.ofOption_some, Answer.bind_ok, hf buffer h,
      hlinks.nodeSessionId, hlinks.isNodeVisibleInSession hroots]

/-- Whether the task finds the buffer shown. -/
def RecordTask.findsShown (fuel : ℕ) (bufferId : BufferId) (s : ServerState) (task : RecordTask) : Bool :=
  match shownIn fuel task.shownSessions bufferId s with
  | .ok shown => shown
  | .error _ => false

/-- A task that ran to its end changed the record as the pure function says, and nothing else. -/
theorem recordBufferUpdate_eq {fuel : ℕ} {bufferId : BufferId} {task : RecordTask}
    {s s' : ServerState} {events : RecordedEvents} {buffer : Buffer}
    (hbuffer : s.buffers[bufferId]? = some buffer)
    (h : recordBufferUpdate fuel task.shownSessions bufferId task.update s = (.ok events, s')) :
    s' = s.mapBuffer bufferId fun _ ↦
      (Recording.record (task.findsShown fuel bufferId s) task.update buffer).buffer := by
  obtain ⟨shown, hshown, h⟩ := Op.ok_ask_bind h
  rw [Op.gets_bind_apply, hbuffer] at h
  have hflag : task.findsShown fuel bufferId s = shown := by rw [RecordTask.findsShown, hshown]
  rw [hflag]
  exact (congrArg Prod.snd h).symm

/-- The record after a run of tasks. -/
theorem recordUpdates_eq {fuel : ℕ} {bufferId : BufferId} {tasks : List RecordTask}
    {s s' : ServerState} {buffer : Buffer} (hbuffer : s.buffers[bufferId]? = some buffer)
    (h : recordUpdates fuel bufferId tasks s = (.ok (), s')) :
    s'.buffers[bufferId]? =
      some (recordAll (tasks.map fun task ↦ (task.findsShown fuel bufferId s, task.update)) buffer) := by
  induction tasks generalizing s buffer with
  | nil =>
    cases h
    exact hbuffer
  | cons task tasks ih =>
    obtain ⟨_, t, htask, hrest⟩ := Op.ok_bind h
    obtain ⟨events, t', hrecord, hpure⟩ := Op.ok_bind htask
    cases hpure
    have ht := recordBufferUpdate_eq hbuffer hrecord
    set recorded := (Recording.record (task.findsShown fuel bufferId s) task.update buffer).buffer
    have hrecorded : t.buffers[bufferId]? = some recorded := by
      rw [ht]
      simp [mapBuffer, hbuffer]
    have hattachment : recorded.attachment = buffer.attachment := by
      obtain ⟨_, _, _, hr⟩ := Recording.record_buffer (task.findsShown fuel bufferId s) task.update buffer
      rw [show recorded = _ from hr]
    have hshown : ∀ task : RecordTask, task.findsShown fuel bufferId t = task.findsShown fuel bufferId s := by
      intro task
      rw [RecordTask.findsShown, RecordTask.findsShown, ht, shownIn_mapBuffer]
      intro b hb
      rw [hbuffer] at hb
      cases hb
      exact hattachment
    rw [ih hrecorded hrest]
    simp only [hshown]
    rfl

private theorem markBufferRunning_buffer {s : ServerState} {bufferId : BufferId} {buffer : Buffer}
    {pid : Option UInt32} (h : s.buffers[bufferId]? = some buffer) :
    ∃ command, (markBufferRunning bufferId pid s).2.buffers[bufferId]? =
      some { buffer with state := command } := by
  have hask : s.buffer bufferId = .ok buffer := by rw [ServerState.buffer, h]; rfl
  rw [markBufferRunning, Op.bind_of_ok (show Op.ask (·.buffer bufferId) s = (.ok buffer, s) by
    rw [Op.ask_apply, hask])]
  split
  · exact ⟨buffer.state, h⟩
  · rw [bufferMut_snd]
    exact ⟨.running pid, by simp only [mapBuffer, Table.get?_modify, if_true, h, Option.map_some]⟩

/-- Attaching to a runtime gives the record the runtime's number, bells and foreground command, its
title if it has one, and leaves the directory. -/
theorem applyRuntimeStatus_buffer {bufferId : BufferId} {initial : BufferRuntimeStatus}
    {now : Timestamp} {s s' : ServerState} {buffer : Buffer}
    (hbuffer : s.buffers[bufferId]? = some buffer)
    (h : applyRuntimeStatus bufferId initial now s = (.ok (), s')) :
    ∃ attached, s'.buffers[bufferId]? = some attached ∧
      attached.lastSnapshotSeq = initial.sequence ∧
      attached.runtimeBellSequence = initial.bellSequence ∧
      attached.foregroundCommand = initial.foregroundCommand ∧
      attached.title = initial.title.getD buffer.title ∧ attached.cwd = buffer.cwd := by
  have hattached : (s.mapBuffer bufferId (Buffer.withStatus initial)).buffers[bufferId]? =
      some (buffer.withStatus initial) := by
    simp only [mapBuffer, Table.get?_modify, if_true, hbuffer, Option.map_some]
  have hs' : s' = (applyRuntimeStatus bufferId initial now s).2 := by rw [h]
  rw [applyRuntimeStatus, Op.modify_bind_apply] at hs'
  -- The last step only sets the state of the command.
  have hstate : ∃ command, s'.buffers[bufferId]? =
      some { buffer.withStatus initial with state := command } := by
    split at hs'
    · rw [hs', Op.bind_pure_snd, Op.attempt_snd]
      exact markBufferRunning_buffer hattached
    · rw [hs', Op.bind_pure_snd, Op.attempt_snd, markBufferExited, bufferMut_snd]
      exact ⟨_, by simp only [mapBuffer, Table.get?_modify, if_true] at hattached ⊢; rw [hattached]; rfl⟩
  obtain ⟨command, hcommand⟩ := hstate
  exact ⟨_, hcommand, rfl, rfl, rfl, rfl, rfl⟩

/-! ## After the last task -/

/-- What the record holds after the updates `spawned` of a poller were recorded in the order
`ran`, from the record `old` before the server attached to the runtime. -/
structure Settled (failed : Bool) (initial : BufferRuntimeStatus)
    (statuses : List BufferRuntimeStatus) (ran : List BufferRuntimeUpdate) (old recorded : Buffer) :
    Prop where
  /-- The number is at least every reported one, and no higher than it has to be. -/
  sequence : ∀ bound, recorded.lastSnapshotSeq ≤ bound ↔ initial.sequence ≤ bound ∧
    ∀ u ∈ spawnStatusPoller failed initial statuses, u.sequence ≤ bound
  /-- It is the latest status's when numbers never go down and no poll failed. -/
  sequence_latest : failed = false →
    (initial :: statuses).Pairwise (fun a b ↦ a.sequence ≤ b.sequence) →
    recorded.lastSnapshotSeq = (statuses.getLastD initial).sequence
  /-- No reported bell is missed. -/
  bell : initial.bellSequence ≤ recorded.runtimeBellSequence ∧
    ∀ u ∈ spawnStatusPoller failed initial statuses, u.bellSequence ≤ recorded.runtimeBellSequence
  /-- The title is the latest one, if the update that brought it landed. -/
  title : Lands .above titleText initial.sequence (spawnStatusPoller failed initial statuses) ran →
    recorded.title = (statuses.getLastD initial).title.getD ""
  /-- A title that never changed is the one of the attach. -/
  title_unreported : (∀ u ∈ spawnStatusPoller failed initial statuses, u.title = none) →
    (statuses.getLastD initial).title = initial.title ∧
      recorded.title = initial.title.getD old.title
  /-- The directory is the last one resolved, if the update that brought it landed. -/
  cwd : Lands .atLeast knownCwd initial.sequence (spawnStatusPoller failed initial statuses) ran →
    recorded.cwd = (statuses.filterMap BufferRuntimeStatus.cwd).getLast?
  /-- A directory that was never resolved is the one known before. -/
  cwd_unreported : (statuses.filterMap BufferRuntimeStatus.cwd) = [] → recorded.cwd = old.cwd
  /-- The foreground command is the latest one, if the update that brought it landed or it never
  changed. -/
  foregroundCommand :
    (Lands .atLeast BufferRuntimeUpdate.foregroundCommand initial.sequence
      (spawnStatusPoller failed initial statuses) ran ∨
      ∀ u ∈ spawnStatusPoller failed initial statuses, u.foregroundCommand = none) →
    recorded.foregroundCommand = (statuses.getLastD initial).foregroundCommand
  /-- Run as spawned, with numbers that never go down, nothing but the title can get lost. -/
  in_order : ran = spawnStatusPoller failed initial statuses →
    (initial :: statuses).Pairwise (fun a b ↦ a.sequence ≤ b.sequence) →
    recorded.foregroundCommand = (statuses.getLastD initial).foregroundCommand ∧
      recorded.cwd = ((statuses.filterMap BufferRuntimeStatus.cwd).getLast?).or old.cwd

section Settled

variable {failed : Bool} {initial : BufferRuntimeStatus} {statuses : List BufferRuntimeStatus}
  {updates : List (Bool × BufferRuntimeUpdate)} {old attached : Buffer}

private theorem getLastD_of_getLast? {α : Type} {l : List α} {a d : α} (h : l.getLast? = some a) :
    l.getLastD d = a := by
  rw [List.getLastD_eq_getLast?, h]
  rfl

private theorem getLastD_map {α β : Type} (f : α → β) (l : List α) (d : α) :
    (l.map f).getLastD (f d) = f (l.getLastD d) := by
  rw [List.getLastD_eq_getLast?, List.getLastD_eq_getLast?, List.getLast?_map]
  cases l.getLast? <;> rfl

theorem latest_foregroundCommand :
    ((spawnStatusPoller failed initial statuses).filterMap
      BufferRuntimeUpdate.foregroundCommand).getLastD initial.foregroundCommand =
      (statuses.getLastD initial).foregroundCommand := by
  rw [← getLastD_map BufferRuntimeStatus.foregroundCommand]
  exact @pollUpdates_foregroundCommand _ { initial with cwd := none } _ _

theorem latest_title :
    ((spawnStatusPoller failed initial statuses).filterMap
      BufferRuntimeUpdate.title).getLastD initial.title = (statuses.getLastD initial).title := by
  rw [← getLastD_map BufferRuntimeStatus.title]
  exact @pollUpdates_title _ { initial with cwd := none } _ _

theorem latest_cwd :
    ((spawnStatusPoller failed initial statuses).filterMap knownCwd).getLast? =
      (statuses.filterMap BufferRuntimeStatus.cwd).getLast? := by
  have h := @pollUpdates_knownCwd failed { initial with cwd := none } (!initial.running) statuses
    none rfl
  rwa [Option.or_none, Option.or_none] at h

/-- What `spawned` brings last, as the empty text when it is no title. -/
private theorem getLast?_titleText (spawned : List BufferRuntimeUpdate) :
    (spawned.filterMap titleText).getLast? =
      ((spawned.filterMap BufferRuntimeUpdate.title).getLast?).map (·.getD "") := by
  rw [← List.getLast?_map, List.map_filterMap]
  rfl

theorem recordAll_cwd (hsequence : attached.lastSnapshotSeq = initial.sequence)
    (hlands : Lands .atLeast knownCwd initial.sequence (spawnStatusPoller failed initial statuses)
      (updates.map Prod.snd)) :
    (recordAll updates attached).cwd = (statuses.filterMap BufferRuntimeStatus.cwd).getLast? := by
  rw [← hsequence] at hlands
  have hlast := recordAll_of_lands register_cwd_record (hlands.map some)
  rw [← List.map_filterMap, List.getLast?_map, Option.map_eq_some_iff] at hlast
  obtain ⟨cwd, hcwd, heq⟩ := hlast
  rw [← heq, ← @latest_cwd failed initial, hcwd]

theorem recordAll_cwd_unreported
    (hspawned : (updates.map Prod.snd).Perm (spawnStatusPoller failed initial statuses))
    (hnone : statuses.filterMap BufferRuntimeStatus.cwd = []) :
    (recordAll updates attached).cwd = attached.cwd := by
  refine recordAll_of_none register_cwd_record fun u hu ↦ ?_
  have hlast := @latest_cwd failed initial statuses
  rw [hnone, List.getLast?_nil, List.getLast?_eq_none_iff] at hlast
  rw [List.filterMap_eq_nil_iff.mp hlast u (hspawned.mem_iff.mp hu), Option.map_none]

theorem recordAll_foregroundCommand (hsequence : attached.lastSnapshotSeq = initial.sequence)
    (hcommand : attached.foregroundCommand = initial.foregroundCommand)
    (hspawned : (updates.map Prod.snd).Perm (spawnStatusPoller failed initial statuses))
    (h : Lands .atLeast BufferRuntimeUpdate.foregroundCommand initial.sequence
        (spawnStatusPoller failed initial statuses) (updates.map Prod.snd) ∨
      ∀ u ∈ spawnStatusPoller failed initial statuses, u.foregroundCommand = none) :
    (recordAll updates attached).foregroundCommand =
      (statuses.getLastD initial).foregroundCommand := by
  rw [← @latest_foregroundCommand failed]
  rcases h with hlands | hnone
  · rw [← hsequence] at hlands
    exact (getLastD_of_getLast? (recordAll_of_lands register_foregroundCommand_record hlands)).symm
  · rw [List.filterMap_eq_nil_iff.mpr hnone]
    refine (recordAll_of_none register_foregroundCommand_record fun u hu ↦ ?_).trans hcommand
    exact hnone u (hspawned.mem_iff.mp hu)

variable (hsequence : attached.lastSnapshotSeq = initial.sequence)
  (hbell : attached.runtimeBellSequence = initial.bellSequence)
  (hcommand : attached.foregroundCommand = initial.foregroundCommand)
  (htitle : attached.title = initial.title.getD old.title) (hcwd : attached.cwd = old.cwd)
  (hspawned : (updates.map Prod.snd).Perm (spawnStatusPoller failed initial statuses))

include hsequence hspawned

theorem recordAll_sequence (bound : UInt64) :
    (recordAll updates attached).lastSnapshotSeq ≤ bound ↔ initial.sequence ≤ bound ∧
      ∀ u ∈ spawnStatusPoller failed initial statuses, u.sequence ≤ bound := by
  constructor
  · intro h
    refine ⟨?_, fun u hu ↦ ?_⟩
    · rw [← hsequence]
      exact UInt64.le_trans le_recordAll_lastSnapshotSeq h
    · exact UInt64.le_trans (sequence_le_recordAll u (hspawned.mem_iff.mpr hu)) h
  · rintro ⟨hinitial, hupdates⟩
    refine recordAll_lastSnapshotSeq_le (by rwa [hsequence]) fun u hu ↦ ?_
    exact hupdates u (hspawned.mem_iff.mp hu)

theorem recordAll_sequence_latest (hfailed : failed = false)
    (hsorted : (initial :: statuses).Pairwise fun a b ↦ a.sequence ≤ b.sequence) :
    (recordAll updates attached).lastSnapshotSeq = (statuses.getLastD initial).sequence := by
  subst hfailed
  obtain ⟨hinitial, hupdates⟩ := (recordAll_sequence hsequence hspawned _).mp (UInt64.le_refl _)
  rcases List.eq_nil_or_concat statuses with rfl | ⟨l, latest, rfl⟩
  · refine UInt64.le_antisymm ?_ hinitial
    exact (recordAll_sequence hsequence hspawned _).mpr
      ⟨UInt64.le_refl _, by simp [spawnStatusPoller, pollUpdates]⟩
  · rw [List.concat_eq_append] at *
    have hget : (l ++ [latest]).getLastD initial = latest := by simp
    -- The latest status has the highest number, and it was either reported or no news.
    have hlatest : ∀ status ∈ initial :: (l ++ [latest]), status.sequence ≤ latest.sequence := by
      rw [← List.cons_append] at hsorted ⊢
      intro status hstatus
      rcases List.mem_append.mp hstatus with hstatus | hstatus
      · exact (List.pairwise_append.mp hsorted).2.2 status hstatus latest (by simp)
      · rw [List.mem_singleton.mp hstatus]
        exact UInt64.le_refl _
    rw [hget]
    apply UInt64.le_antisymm
    · refine (recordAll_sequence hsequence hspawned _).mpr
        ⟨hlatest initial List.mem_cons_self, fun u hu ↦ ?_⟩
      obtain ⟨status, hstatus, hseq⟩ := sequence_of_mem_pollUpdates hu
      rw [hseq]
      exact hlatest status (List.mem_cons_of_mem _ hstatus)
    · rcases @exists_mem_pollUpdates false { initial with cwd := none } (!initial.running) _ _
        (List.mem_append_right l (List.mem_singleton_self latest)) with hseq | ⟨u, hu, hseq⟩
      · rw [hseq]
        exact hinitial
      · rw [← hseq]
        exact hupdates u hu

include hbell hcommand htitle hcwd

/-- The record after a run of a poller's updates, whatever their order. -/
theorem recordAll_settled :
    Settled failed initial statuses (updates.map Prod.snd) old (recordAll updates attached) where
  sequence := recordAll_sequence hsequence hspawned
  sequence_latest := recordAll_sequence_latest hsequence hspawned
  bell := by
    obtain ⟨hgrows, hreported⟩ := @recordAll_runtimeBellSequence attached updates
    rw [hbell] at hgrows
    exact ⟨hgrows, fun u hu ↦ hreported u (hspawned.mem_iff.mpr hu)⟩
  title hlands := by
    rw [← hsequence] at hlands
    have hlast := recordAll_of_lands register_title_record hlands
    rw [getLast?_titleText, Option.map_eq_some_iff] at hlast
    obtain ⟨title, htitle', heq⟩ := hlast
    rw [← heq, ← @latest_title failed, getLastD_of_getLast? htitle']
  title_unreported hnone := by
    refine ⟨?_, ?_⟩
    · rw [← @latest_title failed, List.filterMap_eq_nil_iff.mpr hnone]
      rfl
    · rw [← htitle]
      refine recordAll_of_none register_title_record fun u hu ↦ ?_
      rw [titleText, hnone u (hspawned.mem_iff.mp hu), Option.map_none]
  cwd hlands := recordAll_cwd hsequence hlands
  cwd_unreported hnone := (recordAll_cwd_unreported hspawned hnone).trans hcwd
  foregroundCommand h := recordAll_foregroundCommand hsequence hcommand hspawned h
  in_order hran hsorted := by
    have hsorted' : ({ initial with cwd := none } :: statuses).Pairwise
        fun a b ↦ a.sequence ≤ b.sequence := by
      rwa [List.pairwise_cons] at hsorted ⊢
    obtain ⟨hstart, hpairwise⟩ := @pairwise_pollUpdates failed _
      (!initial.running) _ hsorted'
    constructor
    · apply recordAll_foregroundCommand hsequence hcommand hspawned
      rcases hlast : ((spawnStatusPoller failed initial statuses).filterMap
        BufferRuntimeUpdate.foregroundCommand).getLast? with _ | command
      · exact .inr (List.filterMap_eq_nil_iff.mp (List.getLast?_eq_none_iff.mp hlast))
      · rw [hran]
        exact .inl (lands_of_pairwise hstart hpairwise hlast)
    · rcases hlast : (statuses.filterMap BufferRuntimeStatus.cwd).getLast? with _ | cwd
      · rw [Option.none_or, ← hcwd]
        exact recordAll_cwd_unreported hspawned (List.getLast?_eq_none_iff.mp hlast)
      · rw [Option.some_or, ← hlast]
        refine @recordAll_cwd failed _ _ _ _ hsequence ?_
        rw [hran]
        exact lands_of_pairwise hstart hpairwise (latest_cwd.trans hlast)

end Settled

/-- The tasks of a poller run in any order. The number and the bells end as if they had run as
spawned, the number never goes down on the way, and a bell flags the buffer unless the task that
reports it finds it shown; each field ends at its latest value when the update that brings it
lands. -/
theorem recordUpdates_settled {fuel : ℕ} {bufferId : BufferId} {now : Timestamp} {failed : Bool}
    {initial : BufferRuntimeStatus} {statuses : List BufferRuntimeStatus} {tasks : List RecordTask}
    {s₀ s s' : ServerState} {old : Buffer} (hold : s₀.buffers[bufferId]? = some old)
    (hattach : applyRuntimeStatus bufferId initial now s₀ = (.ok (), s))
    (hspawned : (tasks.map RecordTask.update).Perm (spawnStatusPoller failed initial statuses))
    (hrun : recordUpdates fuel bufferId tasks s = (.ok (), s')) :
    (∃ recorded, s'.buffers[bufferId]? = some recorded ∧
      Settled failed initial statuses (tasks.map RecordTask.update) old recorded ∧
      ∀ before task after, tasks = before ++ task :: after →
        shownIn fuel task.shownSessions bufferId s = .ok false →
        initial.bellSequence < task.update.bellSequence →
        (∀ t ∈ before, t.update.bellSequence < task.update.bellSequence) →
        recorded.activity = .bell) ∧
    ∀ before between after, tasks = before ++ between ++ after →
      ∃ t t' b b', recordUpdates fuel bufferId before s = (.ok (), t) ∧
        recordUpdates fuel bufferId (before ++ between) s = (.ok (), t') ∧
        t.buffers[bufferId]? = some b ∧ t'.buffers[bufferId]? = some b' ∧
        b.lastSnapshotSeq ≤ b'.lastSnapshotSeq := by
  obtain ⟨attached, hattached, hsequence, hbell, hcommand, htitle, hcwd⟩ :=
    applyRuntimeStatus_buffer hold hattach
  set flagged : RecordTask → Bool × BufferRuntimeUpdate :=
    fun task ↦ (task.findsShown fuel bufferId s, task.update)
  have hmap : (tasks.map flagged).map Prod.snd = tasks.map RecordTask.update := by
    rw [List.map_map]
    rfl
  refine ⟨⟨_, recordUpdates_eq hattached hrun, ?_, ?_⟩, ?_⟩
  · rw [← hmap] at hspawned ⊢
    exact recordAll_settled hsequence hbell hcommand htitle hcwd hspawned
  · rintro before task after rfl hshown hinitial hbefore
    rw [List.map_append, List.map_cons, recordAll_append]
    refine @recordAll_activity_of_bell _ (after.map flagged)
      (Recording.record_activity _ _ _ (.inr ⟨?_, ?_⟩))
    · simp only [RecordTask.findsShown, hshown]
    · refine recordAll_runtimeBellSequence_lt (by rwa [hbell]) fun u hu ↦ ?_
      rw [List.map_map] at hu
      obtain ⟨t, ht, rfl⟩ := List.mem_map.mp hu
      exact hbefore t ht
  · rintro before between after rfl
    obtain ⟨t', hprefix, -⟩ := Op.ok_forEach_append hrun
    obtain ⟨t, hbefore, hbetween⟩ := Op.ok_forEach_append hprefix
    refine ⟨t, t', _, _, hbefore, hprefix, recordUpdates_eq hattached hbefore,
      recordUpdates_eq hattached hprefix, ?_⟩
    rw [List.map_append, recordAll_append]
    exact le_recordAll_lastSnapshotSeq

/-! ### Two polls of one shell -/

/-- A status with the given number, directory and foreground command. -/
def sampleStatus (sequence : UInt64) (cwd : Option String) (command : Option (List String)) :
    BufferRuntimeStatus :=
  ⟨none, sequence, .idle, none, true, none, none, cwd, 0, command⟩

/-- A state with one buffer. -/
def sampleState : ServerState :=
  insertBuffer 1 (Buffer.new "shell" [] none ∅ ⟨0⟩) ServerState.new

/-- The state after the server attached to the buffer's runtime and recorded the updates, while no
client shows anything. -/
def sampleRun (updates : List BufferRuntimeUpdate) : ServerState :=
  (recordUpdates 1 1 (updates.map (RecordTask.mk []))
    (applyRuntimeStatus 1 (sampleStatus 1 none none) ⟨0⟩ sampleState).2).2

/-- The update of the second poll runs first, and the one it overtakes is refused. -/
theorem recordUpdates_settled_sample :
    ∃ recorded, (sampleRun (spawnStatusPoller false (sampleStatus 1 none none)
        [sampleStatus 2 (some "/a") (some ["vi"]),
          sampleStatus 3 (some "/b") (some ["top"])]).reverse).buffers[(1 : BufferId)]? =
        some recorded ∧
      recorded.cwd = some "/b" ∧ recorded.foregroundCommand = some ["top"] := by
  let initial := sampleStatus 1 none none
  let statuses := [sampleStatus 2 (some "/a") (some ["vi"]), sampleStatus 3 (some "/b") (some ["top"])]
  obtain ⟨⟨recorded, hrecorded, hsettled, -⟩, -⟩ := @recordUpdates_settled 1 1 ⟨0⟩ false
    initial statuses (((spawnStatusPoller false initial statuses).reverse).map (RecordTask.mk []))
    sampleState _ _ (Buffer.new "shell" [] none ∅ ⟨0⟩) rfl rfl
    (List.reverse_perm (spawnStatusPoller false initial statuses)) rfl
  refine ⟨recorded, hrecorded, hsettled.cwd ?_, hsettled.foregroundCommand (.inl ?_)⟩
  · exact @lands_of_outrun _ _ .atLeast knownCwd 1 _ [] _ "/b" rfl rfl ⟨by decide, by simp⟩ (by decide)
  · exact @lands_of_outrun _ _ .atLeast BufferRuntimeUpdate.foregroundCommand 1 _ [] _
      (some ["top"]) rfl rfl ⟨by decide, by simp⟩ (by decide)

/-- The latest status does not decide the record. A directory that became unresolved leaves the old
one, and an update that is overtaken is dropped with the only report of a foreground command. -/
theorem recordUpdates_not_latest :
    (∃ recorded, (sampleRun (spawnStatusPoller false (sampleStatus 1 none none)
        [sampleStatus 2 (some "/a") none, sampleStatus 3 none none])).buffers[(1 : BufferId)]? =
          some recorded ∧ recorded.cwd ≠ (sampleStatus 3 none none).cwd) ∧
    ∃ recorded, (sampleRun (spawnStatusPoller false (sampleStatus 1 none none)
        [sampleStatus 2 none (some ["vi"]),
          sampleStatus 3 none (some ["vi"])]).reverse).buffers[(1 : BufferId)]? = some recorded ∧
        recorded.foregroundCommand ≠ (sampleStatus 3 none (some ["vi"])).foregroundCommand :=
  ⟨⟨_, rfl, by decide⟩, ⟨_, rfl, by decide⟩⟩

end ServerState

end Embers
