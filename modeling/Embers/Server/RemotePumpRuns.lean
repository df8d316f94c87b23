import Embers.Server.RemotePump

/-!
# Nothing lost between a host and its buffer's pump

What the callbacks were handed, followed by what waits in the channel, is what was routed, in order
(`Accounted`), until the buffer ends: the pump then returns without looking at the channel again. And
as long as a report of a change is on its way the record will be read once more (`Fresh`), but a read
that fails is not repeated. With no write waiting when the end is seen, and a read failing only while
another report is on its way or nothing is left to learn, both hold to the end (`pump_soundly`).
-/

namespace Embers

/-- The writes among what the callbacks were handed. -/
def handed (log : List RuntimeCallback) : List HostWrite :=
  log.filterMap fun
    | .write write => some write
    | _ => none

def NotEnded (log : List RuntimeCallback) : Prop := ∀ runtimeEnd, .ended runtimeEnd ∉ log

namespace RemotePump

variable {s s' : RemotePump}

/-- A report of a change is on its way to the pump. -/
def Pending (s : RemotePump) : Prop :=
  s.unreported = true ∨ .invalidated ∈ s.wire ∨ s.changes = true

/-- What was read last is what the host's record says. -/
def Cached (s : RemotePump) : Prop :=
  ∃ record, s.record = some record ∧ s.status = statusFromRecord record ∧
    s.options = record.userOptions

/-- Nothing is in transit and the buffer has not ended. -/
structure Quiescent (s : RemotePump) : Prop where
  reported : s.unreported = false
  wire : s.wire = []
  changes : s.changes = false
  phase : s.phase = .waiting

/-- That no write waits when the pump sees the buffer's end, and that a read fails only while another
report is on its way, or when there was nothing new to read. -/
def ResumeSound (s : RemotePump) : HostAnswer → Prop
  | .record record => record.state = .exited → s.writes = []
  | .notFound => s.writes = []
  | .failed => s.Pending ∨ s.Cached

def StepSound (s : RemotePump) : PumpStep → Prop
  | .resume => ∀ answer, s.phase = .replied answer → s.ResumeSound answer
  | _ => True

instance : Decidable s.Pending := inferInstanceAs (Decidable (_ ∨ _))

instance : Decidable s.Cached :=
  match h : s.record with
  | none => isFalse fun ⟨_, hrecord, _⟩ ↦ nomatch h.symm.trans hrecord
  | some record =>
    decidable_of_iff (s.status = statusFromRecord record ∧ s.options = record.userOptions)
      ⟨fun hread ↦ ⟨record, h, hread⟩, fun ⟨_, hrecord, hread⟩ ↦
        Option.some.inj (h.symm.trans hrecord) ▸ hread⟩

instance : (answer : HostAnswer) → Decidable (s.ResumeSound answer)
  | .record record => inferInstanceAs (Decidable (record.state = .exited → s.writes = []))
  | .notFound => inferInstanceAs (Decidable (s.writes = []))
  | .failed => inferInstanceAs (Decidable (s.Pending ∨ s.Cached))

instance : (st : PumpStep) → Decidable (s.StepSound st)
  | .resume =>
    match h : s.phase with
    | .replied answer => decidable_of_iff (s.ResumeSound answer)
      ⟨fun hsound _ hanswer ↦ PumpPhase.replied.inj (h.symm.trans hanswer) ▸ hsound,
        fun hsound ↦ hsound answer h⟩
    | .ready | .asked | .waiting | .ended _ =>
      isTrue fun _ hanswer ↦ nomatch h.symm.trans hanswer
  | .change _ | .report | .write _ | .answer _ | .route | .takeChange | .takeWrite | .ask =>
    isTrue trivial

/-! ## Writes -/

/-- What was routed is what was handed on and what waits; at the end, all of it was handed on
first. -/
structure Accounted (s : RemotePump) : Prop where
  open_ : ¬s.HasEnded → handed s.log ++ s.writes = s.routed ∧ NotEnded s.log
  ended : ∀ runtimeEnd, s.phase = .ended runtimeEnd →
    ∃ before, s.log = before ++ [.ended runtimeEnd] ∧ handed before = s.routed ∧ NotEnded before

theorem Accounted.of_same (h : s.Accounted) (hphase : s'.phase = s.phase) (hlog : s'.log = s.log)
    (hwrites : s'.writes = s.writes) (hrouted : s'.routed = s.routed) : s'.Accounted := by
  refine ⟨?_, ?_⟩
  · rw [HasEnded, hphase, hlog, hwrites, hrouted]
    exact h.open_
  · rw [hphase, hlog, hrouted]
    exact h.ended

/-- The pump goes on, with nothing handed on. -/
theorem Accounted.goOn (h : s.Accounted) (hopen : ¬s.HasEnded) (hlog : s'.log = s.log)
    (hwrites : s'.writes = s.writes) (hrouted : s'.routed = s.routed) (hopen' : ¬s'.HasEnded) :
    s'.Accounted := by
  refine ⟨fun _ ↦ ?_, fun runtimeEnd hphase ↦ absurd ⟨runtimeEnd, hphase⟩ hopen'⟩
  rw [hlog, hwrites, hrouted]
  exact h.open_ hopen

theorem handed_append (log : List RuntimeCallback) (callback : RuntimeCallback) :
    handed (log ++ [callback]) = handed log ++ handed [callback] := List.filterMap_append

theorem notEnded_append {log more : List RuntimeCallback} (h : NotEnded log) (h' : NotEnded more) :
    NotEnded (log ++ more) := by
  intro runtimeEnd hmem
  rcases List.mem_append.1 hmem with hmem | hmem
  · exact h runtimeEnd hmem
  · exact h' runtimeEnd hmem

theorem handed_takeRecord (s : RemotePump) (record : Protocol.BufferRecord) :
    handed (s.takeRecord record).log = handed s.log ∧
      (NotEnded s.log → NotEnded (s.takeRecord record).log) := by
  rw [takeRecord]
  rcases recordUpdate s.status s.options record with _ | update
  · simp
  · refine ⟨?_, fun h ↦ notEnded_append h ?_⟩
    · exact (handed_append s.log _).trans (List.append_nil _)
    · rintro runtimeEnd (hmem | hmem)
      contradiction

/-- The end comes after everything routed, if no write waits. -/
theorem Accounted.endPump (h : s.Accounted) (hopen : ¬s.HasEnded) (hwrites : s.writes = [])
    (runtimeEnd : RuntimeEnd) : (s.endPump runtimeEnd).Accounted := by
  obtain ⟨hrouted, hlog⟩ := h.open_ hopen
  rw [hwrites, List.append_nil] at hrouted
  refine ⟨fun hnot ↦ absurd ⟨runtimeEnd, rfl⟩ hnot, ?_⟩
  rintro _ ⟨⟩
  exact ⟨s.log, rfl, hrouted, hlog⟩

theorem Accounted.takeRecord (h : s.Accounted) (hopen : ¬s.HasEnded) (record : Protocol.BufferRecord) :
    (s.takeRecord record).Accounted := by
  obtain ⟨hrouted, hlog⟩ := h.open_ hopen
  obtain ⟨hhanded, hnot⟩ := handed_takeRecord s record
  refine ⟨fun _ ↦ ⟨?_, hnot hlog⟩, nofun⟩
  rw [hhanded]
  exact hrouted

theorem not_hasEnded_of_phase {phase : PumpPhase} (h : s.phase = phase)
    (hne : ∀ runtimeEnd, phase ≠ .ended runtimeEnd) : ¬s.HasEnded := by
  rintro ⟨runtimeEnd, hended⟩
  exact hne runtimeEnd (h.symm.trans hended)

theorem Accounted.resume (h : s.Accounted) {answer : HostAnswer} (hphase : s.phase = .replied answer)
    (hsound : s.ResumeSound answer) : (s.resumeWith answer).Accounted := by
  have hopen : ¬s.HasEnded := not_hasEnded_of_phase hphase nofun
  cases answer with
  | record record =>
    rw [resumeWith]
    split
    · next hexited =>
      exact (h.takeRecord hopen record).endPump (not_hasEnded_of_phase rfl nofun) (hsound hexited) _
    · exact h.takeRecord hopen record
  | notFound => exact h.endPump hopen hsound _
  | failed => exact h.goOn hopen rfl rfl rfl (not_hasEnded_of_phase rfl nofun)

theorem Accounted.route (h : s.Accounted) (message : HostMessage) :
    (s.route message).Accounted := by
  cases message with
  | invalidated =>
    rw [RemotePump.route]
    split
    · exact h
    · exact h.of_same rfl rfl rfl rfl
  | write write =>
    rw [RemotePump.route]
    split
    · exact h
    · next hopen =>
      obtain ⟨hrouted, hlog⟩ := h.open_ hopen
      refine ⟨fun _ ↦ ⟨?_, hlog⟩, fun runtimeEnd hphase ↦ absurd ⟨runtimeEnd, hphase⟩ hopen⟩
      rw [← hrouted, List.append_assoc]
  | answer answer =>
    rw [RemotePump.route]
    split
    · next hasked =>
      exact h.goOn (not_hasEnded_of_phase hasked nofun) rfl rfl rfl
        (not_hasEnded_of_phase rfl nofun)
    · exact h

theorem Accounted.step (h : s.Accounted) {st : PumpStep} (hsound : s.StepSound st)
    (hstep : s.step st = some s') : s'.Accounted := by
  cases st with
  | change record =>
    obtain rfl := Option.some.inj hstep
    exact h.of_same rfl rfl rfl rfl
  | report =>
    rw [RemotePump.step, Option.ite_none_right_eq_some] at hstep
    obtain rfl := Option.some.inj hstep.2
    exact h.of_same rfl rfl rfl rfl
  | write write =>
    obtain rfl := Option.some.inj hstep
    exact h.of_same rfl rfl rfl rfl
  | answer ok =>
    rw [RemotePump.step, Option.ite_none_right_eq_some] at hstep
    obtain rfl := Option.some.inj hstep.2
    exact h.of_same rfl rfl rfl rfl
  | route =>
    rw [RemotePump.step] at hstep
    split at hstep
    · exact nomatch hstep
    · next message wire hwire =>
      obtain rfl := Option.some.inj hstep
      have h' : Accounted { s with wire } := h.of_same rfl rfl rfl rfl
      exact h'.route message
  | takeChange =>
    rw [RemotePump.step, Option.ite_none_right_eq_some] at hstep
    obtain ⟨⟨hwaiting, -⟩, hstep⟩ := hstep
    obtain rfl := Option.some.inj hstep
    exact h.goOn (not_hasEnded_of_phase hwaiting nofun) rfl rfl rfl (not_hasEnded_of_phase rfl nofun)
  | takeWrite =>
    rw [RemotePump.step] at hstep
    split at hstep
    · exact nomatch hstep
    · next write writes hwrites =>
      rw [Option.ite_none_right_eq_some] at hstep
      obtain ⟨hwaiting, hstep⟩ := hstep
      obtain rfl := Option.some.inj hstep
      have hopen : ¬s.HasEnded := not_hasEnded_of_phase hwaiting nofun
      obtain ⟨hrouted, hlog⟩ := h.open_ hopen
      refine ⟨fun _ ↦ ⟨?_, notEnded_append hlog ?_⟩, fun runtimeEnd hphase ↦
        absurd ⟨runtimeEnd, hphase⟩ hopen⟩
      · rw [← hrouted, hwrites, handed_append, List.append_assoc]
        rfl
      · rintro runtimeEnd (hmem | hmem)
        contradiction
  | ask =>
    rw [RemotePump.step, Option.ite_none_right_eq_some] at hstep
    obtain ⟨hready, hstep⟩ := hstep
    obtain rfl := Option.some.inj hstep
    exact h.goOn (not_hasEnded_of_phase hready nofun) rfl rfl rfl (not_hasEnded_of_phase rfl nofun)
  | resume =>
    rw [RemotePump.step] at hstep
    split at hstep
    · next answer hphase =>
      obtain rfl := Option.some.inj hstep
      exact h.resume hphase (hsound answer hphase)
    · exact nomatch hstep

/-! ## Changes -/

/-- The answers on their way. -/
def answers (wire : List HostMessage) : List HostAnswer :=
  wire.filterMap fun
    | .answer answer => some answer
    | _ => none

/-- One request is answered at a time. -/
structure InFlight (s : RemotePump) : Prop where
  requested : s.requested = true → s.phase = .asked ∧ answers s.wire = []
  asked : s.phase = .asked → (answers s.wire).length ≤ 1
  idle : s.phase ≠ .asked → answers s.wire = []

/-- An answer says what the host's record is, if anything. -/
def Current (s : RemotePump) : HostAnswer → Prop
  | .record record => s.record = some record
  | .notFound => s.record = none
  | .failed => True

/-- What has been or will be read is what the host's record is. -/
def Settled (s : RemotePump) : Prop :=
  match s.phase with
  | .ready | .ended _ => True
  | .asked => ∀ answer ∈ answers s.wire, s.Current answer
  | .replied answer => s.Current answer
  | .waiting => s.Cached

/-- Either another report is on its way, or nothing is left to learn. -/
def Fresh (s : RemotePump) : Prop := s.Pending ∨ s.Settled

theorem answers_append (wire : List HostMessage) (message : HostMessage) :
    answers (wire ++ [message]) = answers wire ++ answers [message] := List.filterMap_append

/-- A message that is no answer comes in. -/
theorem InFlight.send (h : s.InFlight) {message : HostMessage} (hmessage : answers [message] = []) :
    InFlight { s with wire := s.wire ++ [message] } := by
  have heq : answers (s.wire ++ [message]) = answers s.wire := by
    rw [answers_append, hmessage, List.append_nil]
  refine ⟨?_, ?_, ?_⟩
  · intro hrequested
    rw [heq]
    exact h.requested hrequested
  · intro hasked
    rw [heq]
    exact h.asked hasked
  · intro hidle
    rw [heq]
    exact h.idle hidle

theorem Current.answerNow (s : RemotePump) (ok : Bool) : s.Current (s.answerNow ok) := by
  rw [RemotePump.answerNow]
  cases ok with
  | false => trivial
  | true =>
    rcases hrecord : s.record with _ | record
    · exact hrecord
    · exact hrecord

/-- The host answers with what its record is then. -/
theorem Settled.answer (hflight : s.InFlight) (hrequested : s.requested = true) (ok : Bool) :
    Settled { s with requested := false, wire := s.wire ++ [.answer (s.answerNow ok)] } := by
  obtain ⟨hasked, hnone⟩ := hflight.requested hrequested
  rw [Settled]
  simp only [hasked]
  intro answer hanswer
  rw [answers_append, hnone] at hanswer
  obtain rfl : answer = s.answerNow ok := List.mem_singleton.1 hanswer
  exact Current.answerNow s ok

theorem Pending.append (h : s.Pending) (message : HostMessage) :
    Pending { s with wire := s.wire ++ [message] } := by
  rcases h with hunreported | hwire | hchanges
  · exact Or.inl hunreported
  · exact Or.inr (Or.inl (List.mem_append_left _ hwire))
  · exact Or.inr (Or.inr hchanges)

theorem InFlight.answer (h : s.InFlight) (hrequested : s.requested = true) (answer : HostAnswer) :
    InFlight { s with requested := false, wire := s.wire ++ [.answer answer] } := by
  obtain ⟨hasked, hnone⟩ := h.requested hrequested
  refine ⟨nofun, fun _ ↦ ?_, fun hidle ↦ absurd hasked hidle⟩
  rw [answers_append, hnone]
  exact le_refl 1

/-- A message is taken from the wire. -/
theorem InFlight.route (h : s.InFlight) {message : HostMessage} {wire : List HostMessage}
    (hwire : s.wire = message :: wire) : (route { s with wire } message).InFlight := by
  have hsplit : answers s.wire = answers [message] ++ answers wire := by
    rw [hwire]
    exact List.filterMap_append (l := [message])
  have hless : (answers wire).length ≤ (answers s.wire).length := by
    rw [hsplit, List.length_append]
    omega
  have hempty : answers s.wire = [] → answers wire = [] := by
    intro hnone
    rw [hsplit] at hnone
    exact (List.append_eq_nil_iff.1 hnone).2
  have hkept (t : RemotePump) (hphase : t.phase = s.phase) (hrequested : t.requested = s.requested)
      (htwire : t.wire = wire) : t.InFlight := by
    refine ⟨?_, ?_, ?_⟩
    · rw [hphase, hrequested, htwire]
      intro hreq
      exact ⟨(h.requested hreq).1, hempty (h.requested hreq).2⟩
    · rw [hphase, htwire]
      intro hasked
      exact hless.trans (h.asked hasked)
    · rw [hphase, htwire]
      intro hidle
      exact hempty (h.idle hidle)
  cases message with
  | invalidated =>
    rw [RemotePump.route]
    split
    · exact hkept _ rfl rfl rfl
    · exact hkept _ rfl rfl rfl
  | write write =>
    rw [RemotePump.route]
    split
    · exact hkept _ rfl rfl rfl
    · exact hkept _ rfl rfl rfl
  | answer answer =>
    rw [RemotePump.route]
    split
    · next hasked =>
      have hone := h.asked hasked
      have hlength : (answers s.wire).length = (answers wire).length + 1 := by
        rw [hsplit, List.length_append, Nat.add_comm]
        rfl
      have hrest : answers wire = [] := by
        rw [← List.length_eq_zero_iff]
        omega
      refine ⟨fun hreq ↦ ?_, nofun, fun _ ↦ hrest⟩
      have hnone := (h.requested hreq).2
      rw [hnone] at hlength
      simp at hlength
    · exact hkept _ rfl rfl rfl

/-- What is settled stays so while the pump waits, if no answer comes in. -/
theorem Settled.of_same (h : s.Settled) (hphase : s'.phase = s.phase)
    (hrecord : s'.record = s.record) (hstatus : s'.status = s.status)
    (hoptions : s'.options = s.options)
    (hanswers : ∀ answer ∈ answers s'.wire, answer ∈ answers s.wire) : s'.Settled := by
  have hcurrent (answer : HostAnswer) (hanswer : s.Current answer) : s'.Current answer := by
    cases answer with
    | record record => exact hrecord.trans hanswer
    | notFound => exact hrecord.trans hanswer
    | failed => trivial
  rw [Settled] at h ⊢
  rw [hphase]
  split at h
  · trivial
  · trivial
  · exact fun answer hanswer ↦ hcurrent answer (h answer (hanswers answer hanswer))
  · exact hcurrent _ h
  · obtain ⟨record, h1, h2, h3⟩ := h
    exact ⟨record, hrecord.trans h1, hstatus.trans h2, hoptions.trans h3⟩

/-- A report is still on its way when another message is routed. -/
theorem Pending.rest (h : s.Pending) {message : HostMessage} {wire : List HostMessage}
    (hwire : s.wire = message :: wire) (hne : message ≠ .invalidated)
    (hunreported : s'.unreported = s.unreported) (hchanges : s'.changes = s.changes)
    (hwire' : s'.wire = wire) : s'.Pending := by
  rw [Pending, hunreported, hchanges, hwire']
  rcases h with hp | hp | hp
  · exact Or.inl hp
  · rw [hwire] at hp
    rcases List.mem_cons.1 hp with heq | hp
    · exact absurd heq.symm hne
    · exact Or.inr (Or.inl hp)
  · exact Or.inr (Or.inr hp)

theorem Fresh.route (h : s.Fresh) {message : HostMessage}
    {wire : List HostMessage} (hwire : s.wire = message :: wire) :
    (route { s with wire } message).Fresh := by
  have hanswers : ∀ answer ∈ answers wire, answer ∈ answers s.wire := by
    intro answer hanswer
    rw [hwire]
    exact List.filterMap_subset _ (List.subset_cons_self _ _) hanswer
  have hended (t : RemotePump) (hphase : t.phase = s.phase) (hend : s.HasEnded) : t.Fresh := by
    obtain ⟨runtimeEnd, hend⟩ := hend
    refine Or.inr ?_
    rw [Settled, hphase, hend]
    trivial
  cases message with
  | invalidated =>
    rw [RemotePump.route]
    split
    · next hend => exact hended _ rfl hend
    · exact Or.inl (Or.inr (Or.inr rfl))
  | write write =>
    rw [RemotePump.route]
    split
    · next hend => exact hended _ rfl hend
    · rcases h with h | h
      · exact Or.inl (h.rest hwire nofun rfl rfl rfl)
      · exact Or.inr (h.of_same rfl rfl rfl rfl hanswers)
  | answer answer =>
    rw [RemotePump.route]
    split
    · next hasked =>
      rcases h with h | h
      · exact Or.inl (h.rest hwire nofun rfl rfl rfl)
      · change s.phase = .asked at hasked
        rw [Settled, hasked] at h
        have hcurrent := h answer (by
          rw [hwire]
          exact List.mem_cons_self)
        refine Or.inr ?_
        cases answer with
        | record record => exact hcurrent
        | notFound => exact hcurrent
        | failed => trivial
    · rcases h with h | h
      · exact Or.inl (h.rest hwire nofun rfl rfl rfl)
      · exact Or.inr (h.of_same rfl rfl rfl rfl hanswers)

/-- The pump goes on, with what is on its way left alone. -/
theorem InFlight.setPhase (h : s.InFlight) (hidle : s.phase ≠ .asked) (hidle' : s'.phase ≠ .asked)
    (hrequested : s'.requested = s.requested) (hwire : s'.wire = s.wire) : s'.InFlight := by
  refine ⟨fun hreq ↦ ?_, fun hasked ↦ absurd hasked hidle', fun _ ↦ hwire ▸ h.idle hidle⟩
  exact absurd (h.requested (hrequested ▸ hreq)).1 hidle

theorem InFlight.step (h : s.InFlight) {st : PumpStep} (hstep : s.step st = some s') :
    s'.InFlight := by
  cases st with
  | change record =>
    obtain rfl := Option.some.inj hstep
    exact ⟨h.1, h.2, h.3⟩
  | report =>
    rw [RemotePump.step, Option.ite_none_right_eq_some] at hstep
    obtain rfl := Option.some.inj hstep.2
    have hsend : InFlight { s with wire := s.wire ++ [.invalidated] } := h.send rfl
    exact ⟨hsend.1, hsend.2, hsend.3⟩
  | write write =>
    obtain rfl := Option.some.inj hstep
    exact h.send rfl
  | answer ok =>
    rw [RemotePump.step, Option.ite_none_right_eq_some] at hstep
    obtain rfl := Option.some.inj hstep.2
    exact h.answer hstep.1 _
  | route =>
    rw [RemotePump.step] at hstep
    split at hstep
    · exact nomatch hstep
    · next message wire hwire =>
      obtain rfl := Option.some.inj hstep
      exact h.route hwire
  | takeChange =>
    rw [RemotePump.step, Option.ite_none_right_eq_some] at hstep
    obtain ⟨⟨hwaiting, -⟩, hstep⟩ := hstep
    obtain rfl := Option.some.inj hstep
    exact h.setPhase (by rw [hwaiting]; nofun) nofun rfl rfl
  | takeWrite =>
    rw [RemotePump.step] at hstep
    split at hstep
    · exact nomatch hstep
    · rw [Option.ite_none_right_eq_some] at hstep
      obtain rfl := Option.some.inj hstep.2
      exact ⟨h.1, h.2, h.3⟩
  | ask =>
    rw [RemotePump.step, Option.ite_none_right_eq_some] at hstep
    obtain ⟨hready, hstep⟩ := hstep
    obtain rfl := Option.some.inj hstep
    have hnone : answers s.wire = [] := h.idle (by rw [hready]; nofun)
    exact ⟨fun _ ↦ ⟨rfl, hnone⟩, fun _ ↦ by simp [hnone], fun hidle ↦ absurd rfl hidle⟩
  | resume =>
    rw [RemotePump.step] at hstep
    split at hstep
    · next answer hphase =>
      obtain rfl := Option.some.inj hstep
      have hidle : s.phase ≠ .asked := by
        rw [hphase]
        nofun
      cases answer with
      | record record =>
        rw [resumeWith]
        split
        · exact h.setPhase hidle nofun rfl rfl
        · exact h.setPhase hidle nofun rfl rfl
      | notFound => exact h.setPhase hidle nofun rfl rfl
      | failed => exact h.setPhase hidle nofun rfl rfl
    · exact nomatch hstep

/-- The pump goes on where it has to read again, or has nothing to learn. -/
theorem Fresh.resume (h : s.Fresh) {answer : HostAnswer} (hphase : s.phase = .replied answer)
    (hsound : s.ResumeSound answer) : (s.resumeWith answer).Fresh := by
  cases answer with
  | record record =>
    rw [resumeWith]
    split
    · exact Or.inr trivial
    · rcases h with h | h
      · exact Or.inl h
      · rw [Settled, hphase] at h
        exact Or.inr ⟨record, h, rfl, rfl⟩
  | notFound => exact Or.inr trivial
  | failed =>
    rcases hsound with hpending | ⟨record, hrecord⟩
    · exact Or.inl hpending
    · exact Or.inr ⟨record, hrecord⟩

theorem Fresh.step (h : s.Fresh) (hflight : s.InFlight) {st : PumpStep} (hsound : s.StepSound st)
    (hstep : s.step st = some s') : s'.Fresh := by
  cases st with
  | change record =>
    obtain rfl := Option.some.inj hstep
    exact Or.inl (Or.inl rfl)
  | report =>
    rw [RemotePump.step, Option.ite_none_right_eq_some] at hstep
    obtain rfl := Option.some.inj hstep.2
    exact Or.inl (Or.inr (Or.inl (List.mem_append_right _ List.mem_cons_self)))
  | write write =>
    obtain rfl := Option.some.inj hstep
    rcases h with h | h
    · exact Or.inl (h.append _)
    · refine Or.inr (h.of_same rfl rfl rfl rfl fun answer hanswer ↦ ?_)
      rwa [answers_append, show answers [.write write] = [] from rfl, List.append_nil] at hanswer
  | answer ok =>
    rw [RemotePump.step, Option.ite_none_right_eq_some] at hstep
    obtain rfl := Option.some.inj hstep.2
    exact Or.inr (Settled.answer hflight hstep.1 ok)
  | route =>
    rw [RemotePump.step] at hstep
    split at hstep
    · exact nomatch hstep
    · next message wire hwire =>
      obtain rfl := Option.some.inj hstep
      exact h.route hwire
  | takeChange =>
    rw [RemotePump.step, Option.ite_none_right_eq_some] at hstep
    obtain rfl := Option.some.inj hstep.2
    exact Or.inr trivial
  | takeWrite =>
    rw [RemotePump.step] at hstep
    split at hstep
    · exact nomatch hstep
    · rw [Option.ite_none_right_eq_some] at hstep
      obtain rfl := Option.some.inj hstep.2
      exact h
  | ask =>
    rw [RemotePump.step, Option.ite_none_right_eq_some] at hstep
    obtain ⟨hready, hstep⟩ := hstep
    obtain rfl := Option.some.inj hstep
    have hnone : answers s.wire = [] := hflight.idle (by rw [hready]; nofun)
    refine Or.inr fun answer hanswer ↦ ?_
    change answer ∈ answers s.wire at hanswer
    rw [hnone] at hanswer
    exact nomatch hanswer
  | resume =>
    rw [RemotePump.step] at hstep
    split at hstep
    · next answer hphase =>
      obtain rfl := Option.some.inj hstep
      exact h.resume hphase (hsound answer hphase)
    · exact nomatch hstep

/-! ## Runs -/

/-- Every step is sound in the state it is taken in. -/
def SoundRun (s : RemotePump) : List PumpStep → Prop
  | [] => True
  | st :: steps => s.StepSound st ∧ ∀ s', s.step st = some s' → SoundRun s' steps

instance SoundRun.decidable : (steps : List PumpStep) → (s : RemotePump) →
    Decidable (s.SoundRun steps)
  | [], _ => isTrue trivial
  | st :: steps, s =>
    match h : s.step st with
    | none => decidable_of_iff (s.StepSound st)
      ⟨fun hsound ↦ ⟨hsound, fun _ hstep ↦ nomatch h.symm.trans hstep⟩, And.left⟩
    | some s' =>
      have := SoundRun.decidable steps s'
      decidable_of_iff (s.StepSound st ∧ s'.SoundRun steps)
        ⟨fun hsound ↦ ⟨hsound.1, fun _ hstep ↦ Option.some.inj (h.symm.trans hstep) ▸ hsound.2⟩,
          fun hsound ↦ ⟨hsound.1, hsound.2 s' h⟩⟩

theorem invariant_of_run {steps : List PumpStep} (h : s.Accounted ∧ s.InFlight ∧ s.Fresh)
    (hrun : s.run steps = some s') (hsound : s.SoundRun steps) :
    s'.Accounted ∧ s'.InFlight ∧ s'.Fresh := by
  induction steps generalizing s with
  | nil =>
    obtain rfl := Option.some.inj hrun
    exact h
  | cons st steps ih =>
    obtain ⟨next, hstep, hrun⟩ := Option.bind_eq_some_iff.1 hrun
    obtain ⟨haccounted, hflight, hfresh⟩ := h
    refine ih ⟨?_, ?_, ?_⟩ hrun (hsound.2 next hstep)
    · exact haccounted.step hsound.1 hstep
    · exact hflight.step hstep
    · exact hfresh.step hflight hsound.1 hstep

theorem start_invariant (initial : Protocol.BufferRecord) (record : Option Protocol.BufferRecord) (unreported : Bool) :
    (start initial record unreported).Accounted ∧ (start initial record unreported).InFlight ∧
      (start initial record unreported).Fresh := by
  refine ⟨⟨fun _ ↦ ⟨rfl, nofun⟩, nofun⟩, ⟨nofun, nofun, fun _ ↦ rfl⟩, Or.inr trivial⟩

theorem Fresh.cached (h : s.Fresh) (hquiet : s.Quiescent) : s.Cached := by
  rcases h with (hp | hp | hp) | h
  · exact nomatch hquiet.reported.symm.trans hp
  · rw [hquiet.wire] at hp
    exact nomatch hp
  · exact nomatch hquiet.changes.symm.trans hp
  · rw [Settled, hquiet.phase] at h
    exact h

/-- Over every run of sound steps: what was routed is handed on once and in order, all of it before
the buffer's end, and once nothing is in transit what was read last is what the host's record
says. -/
theorem pump_soundly {initial : Protocol.BufferRecord} {record : Option Protocol.BufferRecord} {unreported : Bool}
    {steps : List PumpStep} (hrun : (start initial record unreported).run steps = some s)
    (hsound : (start initial record unreported).SoundRun steps) :
    (¬s.HasEnded → handed s.log ++ s.writes = s.routed ∧ NotEnded s.log) ∧
    (∀ runtimeEnd, s.phase = .ended runtimeEnd → ∃ before, s.log = before ++ [.ended runtimeEnd] ∧
      handed before = s.routed ∧ NotEnded before) ∧
    (s.Quiescent → s.Cached) := by
  obtain ⟨haccounted, -, hfresh⟩ :=
    invariant_of_run (start_invariant initial record unreported) hrun hsound
  exact ⟨haccounted.open_, haccounted.ended, hfresh.cached⟩

/-- A shell on another host. -/
def shellRecord : Protocol.BufferRecord where
  id := 3
  title := "shell"
  command := ["sh"]
  cwd := none
  pipe := none
  kind := .pty
  state := .running
  pid := none
  attachmentNodeId := none
  readOnly := false
  helperSourceBufferId := none
  helperScope := none
  ptySize := PtySize.new 80 24
  activity := .idle
  lastSnapshotSeq := 1
  exitCode := none
  env := ∅
  userOptions := ∅
  foregroundCommand := none
  bellSequence := 0
  host := none

def copied : HostWrite := .clipboard ⟨.clipboard, "yanked"⟩

/-- The shell copies a line, which is handed on, and exits. -/
def exitAfterCopy : List PumpStep :=
  [.ask, .answer true, .route, .resume, .write copied, .route, .takeWrite,
    .change (some { shellRecord with state := .exited, exitCode := some 0 }), .report, .route,
    .takeChange, .ask, .answer true, .route, .resume]

theorem pump_soundly_exit :
    ∃ s, (start shellRecord (some shellRecord) false).run exitAfterCopy = some s ∧
      s.routed = [copied] ∧ ∃ before, s.log = before ++ [.ended (.exited (some 0))] ∧
        handed before = s.routed ∧ NotEnded before := by
  have hmap : ((start shellRecord (some shellRecord) false).run exitAfterCopy).map
      (fun s ↦ (s.phase, s.routed)) = some (.ended (.exited (some 0)), [copied]) := by
    decide +kernel
  obtain ⟨s, hrun, heq⟩ := Option.map_eq_some_iff.1 hmap
  have hsound : (start shellRecord (some shellRecord) false).SoundRun exitAfterCopy := by
    decide +kernel
  refine ⟨s, hrun, congrArg Prod.snd heq, ?_⟩
  exact (pump_soundly hrun hsound).2.1 _ (congrArg Prod.fst heq)

/-- The shell copies a line and exits while the pump reads the record: the copy waits in its channel
as the pump returns. -/
def exitWithCopy : List PumpStep :=
  [.ask, .write copied, .change (some { shellRecord with state := .exited, exitCode := some 0 }),
    .answer true, .route, .route, .resume]

/-- The shell's title changes, and the read of the record that the report asks for fails. -/
def failedRead : List PumpStep :=
  [.ask, .answer true, .route, .resume, .change (some { shellRecord with title := "make" }),
    .report, .route, .takeChange, .ask, .answer false, .route, .resume]

/-- A write routed before the end is never handed on, and a change is never read though the host is
silent since. -/
theorem copy_and_title_lost :
    ((start shellRecord (some shellRecord) false).run exitWithCopy).map
      (fun s ↦ (s.phase, s.routed, handed s.log)) =
        some (.ended (.exited (some 0)), [copied], []) ∧
    ((start shellRecord (some shellRecord) false).run failedRead).map
      (fun s ↦ ((s.unreported, s.wire.length, s.changes), s.phase, s.status.title,
        s.record.map Protocol.BufferRecord.title)) =
        some ((false, 0, false), .waiting, some "shell", some "make") := by
  constructor
  · decide +kernel
  · decide +kernel

end RemotePump

end Embers
