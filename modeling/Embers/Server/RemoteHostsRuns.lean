import Embers.Server.RemoteHosts
import Embers.Lib.Count

/-!
# One connection at a time, and no gate left behind

The gate in the map is the one every call has that has yet to clean up after itself, so that the
reference count tells how many there are of them, and calls for one host exclude each other
(`Counted`). But a call that has cleaned up still has its `Arc` for a moment, and another that cleans
up in that moment takes it for one that waits. If no call is the last to clean up while another's
`Arc` is still to be dropped, and no connection is lost before those that waited for it have looked
it up, then all that is promised of the gates holds (`connect_soundly`).
-/

namespace Embers

namespace RemoteHosts

variable {s s' : RemoteHosts} {i : ℕ} {call : ConnectCall} {gate : GateId}

/-- How many calls are in a phase of the kind `p`. -/
def count (s : RemoteHosts) (p : ConnectPhase → Bool) : ℕ := s.calls.countP fun call ↦ p call.phase

theorem count_setPhase (h : s.calls[i]? = some call) (phase : ConnectPhase)
    (p : ConnectPhase → Bool) :
    (s.setPhase i call phase).count p + (if p call.phase then 1 else 0) =
      s.count p + if p phase then 1 else 0 :=
  Count.countP_set_add h { call with phase }

def hasArc (gate : GateId) (phase : ConnectPhase) : Bool := phase.arc = some gate

def hasGuard (gate : GateId) (phase : ConnectPhase) : Bool := phase.guarded = some gate

theorem hasArc_congr {phase phase' : ConnectPhase} (h : phase.arc = phase'.arc) :
    hasArc gate phase = hasArc gate phase' := by
  rw [hasArc, hasArc, h]

theorem hasGuard_congr {phase phase' : ConnectPhase} (h : phase.guarded = phase'.guarded) :
    hasGuard gate phase = hasGuard gate phase' := by
  rw [hasGuard, hasGuard, h]

theorem uncleaned_arc {phase : ConnectPhase} (h : phase.uncleaned = some gate) :
    phase.arc = some gate := by
  cases phase <;> first | exact h | exact nomatch h

theorem guarded_uncleaned {phase : ConnectPhase} (h : phase.guarded = some gate) :
    phase.uncleaned = some gate := by
  cases phase <;> first | exact h | exact nomatch h

theorem makes_guarded {phase : ConnectPhase} (h : phase.makes) :
    ∃ gate, phase.guarded = some gate := by
  cases phase <;> first | exact ⟨_, rfl⟩ | exact nomatch h

/-- A call that is over makes no connection, waits for none and is not just beginning. -/
theorem of_outcome {phase : ConnectPhase} {outcome : ConnectOutcome}
    (h : phase.outcome = some outcome) :
    phase.makes = false ∧ phase.waits = false ∧ phase ≠ .called ∧ phase ≠ .unopened := by
  cases phase <;> simp_all [ConnectPhase.outcome, ConnectPhase.makes, ConnectPhase.waits]

/-- The reference counts and the locks are those of the calls, and the map has the gate of every call
that has yet to clean up. -/
structure Counted (s : RemoteHosts) : Prop where
  mapped : ∀ call ∈ s.calls, ∀ gate, call.phase.uncleaned = some gate →
    s.connecting call.host = some gate
  distinct : ∀ host host' gate, s.connecting host = some gate → s.connecting host' = some gate →
    host = host'
  strongCount : ∀ host gate, s.connecting host = some gate →
    (s.gates gate).strongCount = s.count (hasArc gate) + 1
  strongCount_removed : ∀ gate, (∀ host, s.connecting host ≠ some gate) →
    (s.gates gate).strongCount = s.count (hasArc gate)
  locked : ∀ gate, s.count (hasGuard gate) = if (s.gates gate).locked then 1 else 0
  mapped_lt : ∀ host gate, s.connecting host = some gate → gate < s.nextGate
  arc_lt : ∀ call ∈ s.calls, ∀ gate, call.phase.arc = some gate → gate < s.nextGate

/-- What a call becomes, among all calls. -/
theorem mem_setPhase {phase : ConnectPhase} {other : ConnectCall}
    (h : other ∈ (s.setPhase i call phase).calls) :
    other ∈ s.calls ∨ other = { call with phase } :=
  List.mem_or_eq_of_mem_set h

/-- A call goes on and changes one gate's counter and lock along with its own `Arc` and guard. -/
theorem Counted.change (h : s.Counted) (hcall : s.calls[i]? = some call) {phase : ConnectPhase}
    {gate : GateId} {value : Gate}
    (harc : ∀ other, other ≠ gate → hasArc other phase = hasArc other call.phase)
    (hguard : ∀ other, other ≠ gate → hasGuard other phase = hasGuard other call.phase)
    (hcount : value.strongCount + (if hasArc gate call.phase then 1 else 0) =
      (s.gates gate).strongCount + if hasArc gate phase then 1 else 0)
    (hlocked : (if value.locked then 1 else 0) + (if hasGuard gate call.phase then 1 else 0) =
      (if (s.gates gate).locked then 1 else 0) + if hasGuard gate phase then 1 else 0)
    (hmapped : ∀ other, phase.uncleaned = some other → s.connecting call.host = some other)
    (hlt : ∀ other, phase.arc = some other → other < s.nextGate) :
    ((s.setGate gate value).setPhase i call phase).Counted := by
  have hset (p : ConnectPhase → Bool) : ((s.setGate gate value).setPhase i call phase).count p +
      (if p call.phase then 1 else 0) = s.count p + if p phase then 1 else 0 :=
    count_setPhase hcall phase p
  refine ⟨?_, h.distinct, ?_, ?_, ?_, h.mapped_lt, ?_⟩
  · intro other hother gate' hgate
    rcases mem_setPhase hother with hother | rfl
    · exact h.mapped other hother gate' hgate
    · exact hmapped gate' hgate
  · intro host gate' hgate
    have hold := h.strongCount host gate' hgate
    have hnew := hset (hasArc gate')
    change (Function.update s.gates gate value gate').strongCount = _
    by_cases heq : gate' = gate
    · subst heq
      rw [Function.update_self]
      omega
    · rw [harc gate' heq] at hnew
      rw [Function.update_of_ne heq]
      omega
  · intro gate' hgate
    have hold := h.strongCount_removed gate' hgate
    have hnew := hset (hasArc gate')
    change (Function.update s.gates gate value gate').strongCount = _
    by_cases heq : gate' = gate
    · subst heq
      rw [Function.update_self]
      omega
    · rw [harc gate' heq] at hnew
      rw [Function.update_of_ne heq]
      omega
  · intro gate'
    have hold := h.locked gate'
    have hnew := hset (hasGuard gate')
    change _ = if (Function.update s.gates gate value gate').locked then 1 else 0
    by_cases heq : gate' = gate
    · subst heq
      rw [Function.update_self]
      omega
    · rw [hguard gate' heq] at hnew
      rw [Function.update_of_ne heq]
      omega
  · intro other hother gate' hgate
    rcases mem_setPhase hother with hother | rfl
    · exact h.arc_lt other hother gate' hgate
    · exact hlt gate' hgate

/-- A call goes on with the same `Arc` and guard. -/
theorem Counted.setPhase (h : s.Counted) (hcall : s.calls[i]? = some call) {phase : ConnectPhase}
    (harc : phase.arc = call.phase.arc) (hguard : phase.guarded = call.phase.guarded)
    (hclean : phase.uncleaned = call.phase.uncleaned ∨ phase.uncleaned = none) :
    (s.setPhase i call phase).Counted := by
  have hmem : call ∈ s.calls := List.mem_of_getElem? hcall
  have hsame : s.setGate 0 (s.gates 0) = s := by
    rw [setGate, Function.update_eq_self]
  rw [← hsame]
  apply h.change hcall
  · exact fun _ _ ↦ hasArc_congr harc
  · exact fun _ _ ↦ hasGuard_congr hguard
  · rw [hasArc_congr harc]
  · rw [hasGuard_congr hguard]
  · intro gate hgate
    rcases hclean with heq | heq
    · exact h.mapped call hmem gate (heq ▸ hgate)
    · rw [heq] at hgate
      exact nomatch hgate
  · intro gate hgate
    exact h.arc_lt call hmem gate (harc ▸ hgate)

/-- A host without a gate gets a fresh one, with the map's `Arc` and the call's. -/
theorem Counted.take_fresh (h : s.Counted) (hcall : s.calls[i]? = some call)
    (hphase : call.phase = .unopened) (hgate : s.connecting call.host = none) :
    (({ s with
        connecting := Function.update s.connecting call.host (some s.nextGate)
        nextGate := s.nextGate + 1 }.setGate s.nextGate ⟨2, false⟩).setPhase i call
      (.waiting s.nextGate)).Counted := by
  have harc (gate gate' : GateId) : (s.setPhase i call (.waiting gate)).count (hasArc gate') =
      s.count (hasArc gate') + if gate = gate' then 1 else 0 := by
    have hset := count_setPhase hcall (.waiting gate) (hasArc gate')
    simpa [hphase, hasArc, ConnectPhase.arc] using hset
  have hguard (gate gate' : GateId) : (s.setPhase i call (.waiting gate)).count (hasGuard gate') =
      s.count (hasGuard gate') := by
    have hset := count_setPhase hcall (.waiting gate) (hasGuard gate')
    simpa [hphase, hasGuard, ConnectPhase.guarded] using hset
  have hnone (host : String) : s.connecting host ≠ some s.nextGate := fun hsome ↦
    absurd (h.mapped_lt host _ hsome) (Nat.lt_irrefl _)
  have hcount : s.count (hasArc s.nextGate) = 0 := by
    refine List.countP_eq_zero.2 fun other hother hasarc ↦ ?_
    exact absurd (h.arc_lt other hother _ (of_decide_eq_true hasarc)) (Nat.lt_irrefl _)
  have hguards : s.count (hasGuard s.nextGate) = 0 := by
    refine List.countP_eq_zero.2 fun other hother hasguard ↦ ?_
    have hother' := uncleaned_arc (guarded_uncleaned (of_decide_eq_true hasguard))
    exact absurd (h.arc_lt other hother _ hother') (Nat.lt_irrefl _)
  have hmapped (host : String) (gate : GateId)
      (hsome : Function.update s.connecting call.host (some s.nextGate) host = some gate) :
      (host = call.host ∧ gate = s.nextGate) ∨
        (host ≠ call.host ∧ gate ≠ s.nextGate ∧ s.connecting host = some gate) := by
    by_cases hhost : host = call.host
    · rw [hhost, Function.update_self, Option.some.injEq] at hsome
      exact Or.inl ⟨hhost, hsome.symm⟩
    · rw [Function.update_of_ne hhost] at hsome
      refine Or.inr ⟨hhost, fun heq ↦ ?_, hsome⟩
      exact hnone host (heq ▸ hsome)
  refine ⟨?_, ?_, ?_, ?_, ?_, ?_, ?_⟩
  · intro other hother gate hsome
    change Function.update s.connecting call.host (some s.nextGate) other.host = some gate
    rcases mem_setPhase hother with hother | rfl
    · have hold := h.mapped other hother gate hsome
      have hne : other.host ≠ call.host := by
        intro heq
        rw [heq, hgate] at hold
        exact nomatch hold
      rwa [Function.update_of_ne hne]
    · rw [Function.update_self]
      exact hsome
  · intro host host' gate hsome hsome'
    rcases hmapped host gate hsome with ⟨rfl, rfl⟩ | ⟨-, hne, hold⟩
    · rcases hmapped host' _ hsome' with ⟨rfl, -⟩ | ⟨-, hne, -⟩
      · rfl
      · exact absurd rfl hne
    · rcases hmapped host' gate hsome' with ⟨-, heq⟩ | ⟨-, -, hold'⟩
      · exact absurd heq hne
      · exact h.distinct host host' gate hold hold'
  · intro host gate hsome
    change (Function.update s.gates s.nextGate ⟨2, false⟩ gate).strongCount =
      (s.setPhase i call (.waiting s.nextGate)).count (hasArc gate) + 1
    rw [harc]
    rcases hmapped host gate hsome with ⟨-, rfl⟩ | ⟨-, hne, hold⟩
    · rw [Function.update_self, hcount, if_pos rfl]
    · rw [Function.update_of_ne hne, if_neg (Ne.symm hne), h.strongCount host gate hold]
  · intro gate hunmapped
    change (Function.update s.gates s.nextGate ⟨2, false⟩ gate).strongCount =
      (s.setPhase i call (.waiting s.nextGate)).count (hasArc gate)
    have hne : gate ≠ s.nextGate := by
      rintro rfl
      exact hunmapped call.host (Function.update_self ..)
    rw [harc, Function.update_of_ne hne, if_neg (Ne.symm hne)]
    apply h.strongCount_removed
    intro host hsome
    have hhost : host ≠ call.host := by
      rintro rfl
      rw [hgate] at hsome
      exact nomatch hsome
    exact hunmapped host ((Function.update_of_ne hhost ..).trans hsome)
  · intro gate
    change (s.setPhase i call (.waiting s.nextGate)).count (hasGuard gate) =
      if (Function.update s.gates s.nextGate ⟨2, false⟩ gate).locked then 1 else 0
    rw [hguard]
    by_cases hne : gate = s.nextGate
    · rw [hne, Function.update_self, hguards, if_neg Bool.false_ne_true]
    · rw [Function.update_of_ne hne, h.locked]
  · intro host gate hsome
    rcases hmapped host gate hsome with ⟨-, rfl⟩ | ⟨-, -, hold⟩
    · exact Nat.lt_succ_self _
    · exact Nat.lt_succ_of_lt (h.mapped_lt host gate hold)
  · intro other hother gate hsome
    rcases mem_setPhase hother with hother | rfl
    · exact Nat.lt_succ_of_lt (h.arc_lt other hother gate hsome)
    · obtain rfl : s.nextGate = gate := Option.some.inj hsome
      exact Nat.lt_succ_self _

theorem Counted.take (h : s.Counted) (hcall : s.calls[i]? = some call)
    (hphase : call.phase = .unopened) :
    ((s.takeGate call.host).2.setPhase i call (.waiting (s.takeGate call.host).1)).Counted := by
  rw [takeGate]
  rcases hgate : s.connecting call.host with _ | gate
  · exact h.take_fresh hcall hphase hgate
  · apply h.change hcall
    · intro other hne
      simp [hasArc, hphase, ConnectPhase.arc, hne.symm]
    · intro other _
      simp [hasGuard, hphase, ConnectPhase.guarded]
    · simp [hasArc, hphase, ConnectPhase.arc]
    · simp [hasGuard, hphase, ConnectPhase.guarded]
    · rintro other ⟨⟩
      exact hgate
    · rintro other ⟨⟩
      exact h.mapped_lt call.host gate hgate

theorem Counted.lock (h : s.Counted) (hcall : s.calls[i]? = some call)
    (hphase : call.phase = .waiting gate) (hfree : (s.gates gate).locked = false) :
    ((s.lockGate gate true).setPhase i call (.holding gate)).Counted := by
  have hmem : call ∈ s.calls := List.mem_of_getElem? hcall
  apply h.change hcall
  · intro other _
    exact hasArc_congr (by rw [hphase]; rfl)
  · intro other hne
    simp [hasGuard, hphase, ConnectPhase.guarded, hne.symm]
  · simp [hasArc, hphase, ConnectPhase.arc]
  · simp [hasGuard, hphase, ConnectPhase.guarded, hfree]
  · rintro other ⟨⟩
    exact h.mapped call hmem gate (by rw [hphase]; rfl)
  · rintro other ⟨⟩
    exact h.arc_lt call hmem gate (by rw [hphase]; rfl)

/-- Whoever holds a gate keeps it locked. -/
theorem Counted.locked_of_guarded (h : s.Counted) (hcall : call ∈ s.calls)
    (hguard : call.phase.guarded = some gate) : (s.gates gate).locked = true := by
  have hpos : 0 < s.count (hasGuard gate) :=
    List.countP_pos_iff.2 ⟨call, hcall, decide_eq_true hguard⟩
  rw [h.locked] at hpos
  by_contra hfree
  rw [if_neg hfree] at hpos
  exact absurd hpos (Nat.lt_irrefl _)

theorem Counted.dropGuard (h : s.Counted) (hcall : s.calls[i]? = some call)
    {outcome : ConnectOutcome} (hphase : call.phase = .leaving gate outcome) :
    ((s.lockGate gate false).setPhase i call (.unlocked gate outcome)).Counted := by
  have hmem : call ∈ s.calls := List.mem_of_getElem? hcall
  have hlocked := h.locked_of_guarded hmem (by rw [hphase]; rfl : _ = some gate)
  apply h.change hcall
  · intro other _
    exact hasArc_congr (by rw [hphase]; rfl)
  · intro other hne
    simp [hasGuard, hphase, ConnectPhase.guarded, hne.symm]
  · simp [hasArc, hphase, ConnectPhase.arc]
  · simp [hasGuard, hphase, ConnectPhase.guarded, hlocked]
  · rintro other ⟨⟩
    exact h.mapped call hmem gate (by rw [hphase]; rfl)
  · rintro other ⟨⟩
    exact h.arc_lt call hmem gate (by rw [hphase]; rfl)

theorem Counted.strongCount_pos (h : s.Counted) (hcall : call ∈ s.calls)
    (harc : call.phase.arc = some gate) : 0 < (s.gates gate).strongCount := by
  have hpos : 0 < s.count (hasArc gate) :=
    List.countP_pos_iff.2 ⟨call, hcall, decide_eq_true harc⟩
  by_cases hmapped : ∃ host, s.connecting host = some gate
  · obtain ⟨host, hhost⟩ := hmapped
    have := h.strongCount host gate hhost
    omega
  · have := h.strongCount_removed gate fun host hhost ↦ hmapped ⟨host, hhost⟩
    omega

theorem Counted.dropArc (h : s.Counted) (hcall : s.calls[i]? = some call)
    {outcome : ConnectOutcome} (hphase : call.phase = .cleaned gate outcome) :
    ((s.releaseArc gate).setPhase i call (.done outcome)).Counted := by
  have hmem : call ∈ s.calls := List.mem_of_getElem? hcall
  have hpos := h.strongCount_pos hmem (by rw [hphase]; rfl : _ = some gate)
  apply h.change hcall
  · intro other hne
    simp [hasArc, hphase, ConnectPhase.arc, hne.symm]
  · intro other _
    simp [hasGuard, hphase, ConnectPhase.guarded]
  · simp only [hasArc, hphase, ConnectPhase.arc, decide_true, if_true, reduceCtorEq, decide_false,
      Bool.false_eq_true, if_false]
    omega
  · simp [hasGuard, hphase, ConnectPhase.guarded]
  · rintro other ⟨⟩
  · rintro other ⟨⟩

/-- A count of two is the map's and the call's own: no other call has an `Arc` of the gate. -/
theorem Counted.alone (h : s.Counted) (hcall : s.calls[i]? = some call)
    (hclean : call.phase.uncleaned = some gate) (htwo : (s.gates gate).strongCount = 2) {j : ℕ}
    {other : ConnectCall} (hother : s.calls[j]? = some other)
    (harc : other.phase.arc = some gate) : j = i := by
  have hmapped := h.mapped call (List.mem_of_getElem? hcall) gate hclean
  have hcount := h.strongCount call.host gate hmapped
  have hone : s.count (hasArc gate) ≤ 1 := by omega
  exact Count.eq_of_countP_le_one hone hother hcall (decide_eq_true harc)
    (decide_eq_true (uncleaned_arc hclean))

/-- The last of the calls removes the gate from the map. -/
theorem Counted.remove (h : s.Counted) (hcall : s.calls[i]? = some call)
    {outcome : ConnectOutcome} (hphase : call.phase = .unlocked gate outcome)
    (htwo : (s.gates gate).strongCount = 2) :
    (({ s with connecting := Function.update s.connecting call.host none }.releaseArc gate).setPhase
      i call (.cleaned gate outcome)).Counted := by
  have hmem : call ∈ s.calls := List.mem_of_getElem? hcall
  have hclean : call.phase.uncleaned = some gate := by rw [hphase]; rfl
  have hmapped := h.mapped call hmem gate hclean
  have harcs (gate' : GateId) :
      (s.setPhase i call (.cleaned gate outcome)).count (hasArc gate') = s.count (hasArc gate') := by
    have hset := count_setPhase hcall (.cleaned gate outcome) (hasArc gate')
    rw [hphase, hasArc_congr (show (ConnectPhase.cleaned gate outcome).arc =
      (ConnectPhase.unlocked gate outcome).arc from rfl)] at hset
    omega
  have hguards (gate' : GateId) : (s.setPhase i call (.cleaned gate outcome)).count
      (hasGuard gate') = s.count (hasGuard gate') := by
    have hset := count_setPhase hcall (.cleaned gate outcome) (hasGuard gate')
    rw [hphase, hasGuard_congr (show (ConnectPhase.cleaned gate outcome).guarded =
      (ConnectPhase.unlocked gate outcome).guarded from rfl)] at hset
    omega
  have hold (host : String) (gate' : GateId)
      (hsome : Function.update s.connecting call.host none host = some gate') :
      host ≠ call.host ∧ gate' ≠ gate ∧ s.connecting host = some gate' := by
    by_cases hhost : host = call.host
    · rw [hhost, Function.update_self] at hsome
      exact nomatch hsome
    · rw [Function.update_of_ne hhost] at hsome
      refine ⟨hhost, fun heq ↦ ?_, hsome⟩
      exact hhost (h.distinct host call.host gate (heq ▸ hsome) hmapped)
  refine ⟨?_, ?_, ?_, ?_, ?_, ?_, ?_⟩
  · intro other hother gate' hgate'
    change Function.update s.connecting call.host none other.host = some gate'
    change other ∈ s.calls.set i { call with phase := .cleaned gate outcome } at hother
    obtain ⟨j, hj⟩ := List.getElem?_of_mem hother
    rw [List.getElem?_set] at hj
    split_ifs at hj with hij hlt
    · obtain rfl := Option.some.inj hj
      exact nomatch hgate'
    · have hother := h.mapped other (List.mem_of_getElem? hj) gate' hgate'
      have hne : other.host ≠ call.host := by
        intro heq
        rw [heq, hmapped, Option.some.injEq] at hother
        subst hother
        exact hij (h.alone hcall hclean htwo hj (uncleaned_arc hgate')).symm
      rwa [Function.update_of_ne hne]
  · intro host host' gate' hsome hsome'
    exact h.distinct host host' gate' (hold host gate' hsome).2.2 (hold host' gate' hsome').2.2
  · intro host gate' hsome
    obtain ⟨-, hne, hsome⟩ := hold host gate' hsome
    change (Function.update s.gates gate _ gate').strongCount =
      (s.setPhase i call (.cleaned gate outcome)).count (hasArc gate') + 1
    rw [Function.update_of_ne hne, harcs, h.strongCount host gate' hsome]
  · intro gate' hunmapped
    change (Function.update s.gates gate
      { s.gates gate with strongCount := (s.gates gate).strongCount - 1 } gate').strongCount =
        (s.setPhase i call (.cleaned gate outcome)).count (hasArc gate')
    rw [harcs]
    by_cases heq : gate' = gate
    · have hcount := h.strongCount call.host gate hmapped
      rw [heq, Function.update_self]
      change (s.gates gate).strongCount - 1 = _
      omega
    · rw [Function.update_of_ne heq]
      apply h.strongCount_removed
      intro host hsome
      have hhost : host ≠ call.host := by
        rintro rfl
        rw [hmapped, Option.some.injEq] at hsome
        exact heq hsome.symm
      exact hunmapped host ((Function.update_of_ne hhost ..).trans hsome)
  · intro gate'
    change (s.setPhase i call (.cleaned gate outcome)).count (hasGuard gate') =
      if (Function.update s.gates gate
        { s.gates gate with strongCount := (s.gates gate).strongCount - 1 } gate').locked then 1
      else 0
    rw [hguards, h.locked]
    by_cases heq : gate' = gate
    · rw [heq, Function.update_self]
    · rw [Function.update_of_ne heq]
  · intro host gate' hsome
    exact h.mapped_lt host gate' (hold host gate' hsome).2.2
  · intro other hother gate' hgate'
    rcases mem_setPhase hother with hother | rfl
    · exact h.arc_lt other hother gate' hgate'
    · exact h.arc_lt call hmem gate' (uncleaned_arc (hclean.trans hgate'))

theorem Counted.cleanUp (h : s.Counted) (hcall : s.calls[i]? = some call)
    {outcome : ConnectOutcome} (hphase : call.phase = .unlocked gate outcome) :
    ((s.cleanUp call.host gate).setPhase i call (.cleaned gate outcome)).Counted := by
  rw [RemoteHosts.cleanUp]
  split
  · next htwo => exact h.remove hcall hphase htwo
  · exact h.setPhase hcall (by rw [hphase]; rfl) (by rw [hphase]; rfl) (Or.inr rfl)

/-! ## What a step can do -/

/-- The ways a call goes on that leave its `Arc`, its guard and its duty to clean up alone. -/
inductive Quiet (s : RemoteHosts) (call : ConnectCall) : ConnectPhase → Prop
  | found {connection : ConnectionId} (hphase : call.phase = .called)
      (hopen : s.openConnection call.host = some connection) :
      Quiet s call (.done (.returned connection))
  | unopened (hphase : call.phase = .called) (hopen : s.openConnection call.host = none) :
      Quiet s call .unopened
  | foundBehind {gate : GateId} {connection : ConnectionId} (hphase : call.phase = .holding gate)
      (hopen : s.openConnection call.host = some connection) :
      Quiet s call (.leaving gate (.returned connection))
  | connecting {gate : GateId} (hphase : call.phase = .holding gate)
      (hopen : s.openConnection call.host = none) : Quiet s call (.connecting gate)
  | subscribing {gate : GateId} (hphase : call.phase = .connecting gate) :
      Quiet s call (.subscribing gate)
  | given {gate : GateId} {outcome : ConnectOutcome} (hmakes : call.phase.makes)
      (hguard : call.phase.guarded = some gate) (houtcome : outcome = .failed ∨ outcome = .cancelled) :
      Quiet s call (.leaving gate outcome)
  | waited {gate : GateId} (hphase : call.phase = .waiting gate) :
      Quiet s call (.unlocked gate .cancelled)

/-- What a step can do. -/
inductive Moves (s : RemoteHosts) : ConnectStep → RemoteHosts → Prop
  | call (host : String) : Moves s (.call host) { s with
      calls := s.calls ++
        [⟨host, if validateHost host then .called else .done .failed, none⟩] }
  | quiet {st : ConnectStep} {i : ℕ} {call : ConnectCall} {phase : ConnectPhase}
      (hcall : s.calls[i]? = some call) (hquiet : Quiet s call phase)
      (hst : ∀ j, st ≠ .dropCleanup j) : Moves s st (s.setPhase i call phase)
  | take {i : ℕ} {call : ConnectCall} (hcall : s.calls[i]? = some call)
      (hphase : call.phase = .unopened) :
      Moves s (.take i)
        ((s.takeGate call.host).2.setPhase i call (.waiting (s.takeGate call.host).1))
  | lock {i : ℕ} {call : ConnectCall} {gate : GateId} (hcall : s.calls[i]? = some call)
      (hphase : call.phase = .waiting gate) (hfree : (s.gates gate).locked = false) :
      Moves s (.lock i) ((s.lockGate gate true).setPhase i call (.holding gate))
  | insert {i : ℕ} {call : ConnectCall} {gate : GateId} (hcall : s.calls[i]? = some call)
      (hphase : call.phase = .subscribing gate) :
      Moves s (.subscribed i true) ((s.insertConnection call.host).setPhase i call
        (.leaving gate (.returned s.nextConnection)))
  | dropGuard {i : ℕ} {call : ConnectCall} {gate : GateId} {outcome : ConnectOutcome}
      (hcall : s.calls[i]? = some call) (hphase : call.phase = .leaving gate outcome) :
      Moves s (.dropGuard i) ((s.lockGate gate false).setPhase i call (.unlocked gate outcome))
  | dropCleanup {i : ℕ} {call : ConnectCall} {gate : GateId} {outcome : ConnectOutcome}
      (hcall : s.calls[i]? = some call) (hphase : call.phase = .unlocked gate outcome) :
      Moves s (.dropCleanup i)
        ((s.cleanUp call.host gate).setPhase i call (.cleaned gate outcome))
  | dropArc {i : ℕ} {call : ConnectCall} {gate : GateId} {outcome : ConnectOutcome}
      (hcall : s.calls[i]? = some call) (hphase : call.phase = .cleaned gate outcome) :
      Moves s (.dropArc i) ((s.releaseArc gate).setPhase i call (.done outcome))
  | lose {connection : ConnectionId} (hlt : connection < s.nextConnection) :
      Moves s (.lose connection) { s with lost := Function.update s.lost connection true }

theorem moves_of_step {st : ConnectStep} (h : s.step st = some s') : s.Moves st s' := by
  cases st with
  | call host =>
    obtain rfl := Option.some.inj h
    exact .call host
  | look i =>
    obtain ⟨call, hcall, h⟩ := Option.bind_eq_some_iff.1 h
    split at h
    · next hphase =>
      split at h
      · next hopen =>
        obtain rfl := Option.some.inj h
        exact .quiet hcall (.found hphase hopen) (by simp)
      · next hopen =>
        obtain rfl := Option.some.inj h
        exact .quiet hcall (.unopened hphase hopen) (by simp)
    · exact nomatch h
  | take i =>
    obtain ⟨call, hcall, h⟩ := Option.bind_eq_some_iff.1 h
    split at h
    · next hphase =>
      obtain rfl := Option.some.inj h
      exact .take hcall hphase
    · exact nomatch h
  | lock i =>
    obtain ⟨call, hcall, h⟩ := Option.bind_eq_some_iff.1 h
    split at h
    · next gate hphase =>
      split at h
      · exact nomatch h
      · next hfree =>
        obtain rfl := Option.some.inj h
        exact .lock hcall hphase (by simpa using hfree)
    · exact nomatch h
  | lookAgain i =>
    obtain ⟨call, hcall, h⟩ := Option.bind_eq_some_iff.1 h
    split at h
    · next gate hphase =>
      split at h
      · next hopen =>
        obtain rfl := Option.some.inj h
        exact .quiet hcall (.foundBehind hphase hopen) (by simp)
      · next hopen =>
        obtain rfl := Option.some.inj h
        exact .quiet hcall (.connecting hphase hopen) (by simp)
    · exact nomatch h
  | connected i ok =>
    obtain ⟨call, hcall, h⟩ := Option.bind_eq_some_iff.1 h
    split at h
    · next gate hphase =>
      obtain rfl := Option.some.inj h
      cases ok with
      | true => exact .quiet hcall (.subscribing hphase) (by simp)
      | false =>
        exact .quiet hcall (.given (by rw [hphase]; rfl) (by rw [hphase]; rfl) (Or.inl rfl)) (by simp)
    · exact nomatch h
  | subscribed i ok =>
    obtain ⟨call, hcall, h⟩ := Option.bind_eq_some_iff.1 h
    split at h
    · next gate hphase =>
      cases ok with
      | true =>
        obtain rfl := Option.some.inj h
        exact .insert hcall hphase
      | false =>
        obtain rfl := Option.some.inj h
        exact .quiet hcall (.given (by rw [hphase]; rfl) (by rw [hphase]; rfl) (Or.inl rfl)) (by simp)
    · exact nomatch h
  | cancel i =>
    obtain ⟨call, hcall, h⟩ := Option.bind_eq_some_iff.1 h
    split at h
    · next gate hphase =>
      obtain rfl := Option.some.inj h
      exact .quiet hcall (.waited hphase) (by simp)
    · next gate hphase =>
      obtain rfl := Option.some.inj h
      exact .quiet hcall (.given (by rw [hphase]; rfl) (by rw [hphase]; rfl) (Or.inr rfl)) (by simp)
    · next gate hphase =>
      obtain rfl := Option.some.inj h
      exact .quiet hcall (.given (by rw [hphase]; rfl) (by rw [hphase]; rfl) (Or.inr rfl)) (by simp)
    · exact nomatch h
  | dropGuard i =>
    obtain ⟨call, hcall, h⟩ := Option.bind_eq_some_iff.1 h
    split at h
    · next gate outcome hphase =>
      obtain rfl := Option.some.inj h
      exact .dropGuard hcall hphase
    · exact nomatch h
  | dropCleanup i =>
    obtain ⟨call, hcall, h⟩ := Option.bind_eq_some_iff.1 h
    split at h
    · next gate outcome hphase =>
      obtain rfl := Option.some.inj h
      exact .dropCleanup hcall hphase
    · exact nomatch h
  | dropArc i =>
    obtain ⟨call, hcall, h⟩ := Option.bind_eq_some_iff.1 h
    split at h
    · next gate outcome hphase =>
      obtain rfl := Option.some.inj h
      exact .dropArc hcall hphase
    · exact nomatch h
  | lose connection =>
    rw [step] at h
    split at h
    · next hlt =>
      obtain rfl := Option.some.inj h
      exact .lose hlt
    · exact nomatch h

/-- Such a call keeps its `Arc`, its guard and its duty to clean up. -/
theorem Quiet.same {phase : ConnectPhase} (h : s.Quiet call phase) :
    phase.arc = call.phase.arc ∧ phase.guarded = call.phase.guarded ∧
      phase.uncleaned = call.phase.uncleaned := by
  cases h with
  | found hphase _ => rw [hphase]; exact ⟨rfl, rfl, rfl⟩
  | unopened hphase _ => rw [hphase]; exact ⟨rfl, rfl, rfl⟩
  | foundBehind hphase _ => rw [hphase]; exact ⟨rfl, rfl, rfl⟩
  | connecting hphase _ => rw [hphase]; exact ⟨rfl, rfl, rfl⟩
  | subscribing hphase => rw [hphase]; exact ⟨rfl, rfl, rfl⟩
  | given _ hguard _ =>
    exact ⟨(uncleaned_arc (guarded_uncleaned hguard)).symm, hguard.symm, (guarded_uncleaned hguard).symm⟩
  | waited hphase => rw [hphase]; exact ⟨rfl, rfl, rfl⟩

/-! ## Exclusion -/

/-- What a new connection says to the calls that wait for it leaves their phases alone. -/
theorem count_insertConnection (host : String) (p : ConnectPhase → Bool) :
    (s.insertConnection host).count p = s.count p := by
  rw [count, insertConnection, List.countP_map]
  congr 1
  funext call
  rw [Function.comp_apply]
  split <;> rfl

theorem mem_insertConnection {host : String} {other : ConnectCall}
    (h : other ∈ (s.insertConnection host).calls) :
    ∃ call ∈ s.calls, other.host = call.host ∧ other.phase = call.phase ∧
      other.made = if call.host = host ∧ call.phase.waits then some s.nextConnection
        else call.made := by
  obtain ⟨call, hcall, rfl⟩ := List.mem_map.1 h
  refine ⟨call, hcall, ?_⟩
  split
  · exact ⟨rfl, rfl, rfl⟩
  · exact ⟨rfl, rfl, rfl⟩

theorem Counted.insertConnection (h : s.Counted) (host : String) :
    (s.insertConnection host).Counted := by
  refine ⟨?_, h.distinct, ?_, ?_, ?_, h.mapped_lt, ?_⟩
  · intro other hother gate hgate
    obtain ⟨call, hcall, hhost, hphase, -⟩ := mem_insertConnection hother
    rw [hhost]
    exact h.mapped call hcall gate (hphase ▸ hgate)
  · intro host' gate hgate
    rw [count_insertConnection]
    exact h.strongCount host' gate hgate
  · intro gate hgate
    rw [count_insertConnection]
    exact h.strongCount_removed gate hgate
  · intro gate
    rw [count_insertConnection]
    exact h.locked gate
  · intro other hother gate hgate
    obtain ⟨call, hcall, -, hphase, -⟩ := mem_insertConnection hother
    exact h.arc_lt call hcall gate (hphase ▸ hgate)

/-- A call that makes a connection is none of those that wait for it. -/
theorem getElem?_insertConnection (hcall : s.calls[i]? = some call) (hwaits : ¬call.phase.waits)
    (host : String) : (s.insertConnection host).calls[i]? = some call := by
  rw [RemoteHosts.insertConnection, List.getElem?_map, hcall, Option.map_some]
  exact congrArg some (if_neg fun hboth ↦ hwaits hboth.2)

theorem Counted.append (h : s.Counted) (host : String) (phase : ConnectPhase)
    (hphase : phase.arc = none) : Counted { s with calls := s.calls ++ [⟨host, phase, none⟩] } := by
  have harc (gate : GateId) : hasArc gate phase = false := by simp [hasArc, hphase]
  have hclean (gate : GateId) : phase.uncleaned ≠ some gate := by
    intro hsome
    rw [uncleaned_arc hsome] at hphase
    exact nomatch hphase
  have hguard (gate : GateId) : hasGuard gate phase = false :=
    decide_eq_false fun hsome ↦ hclean gate (guarded_uncleaned hsome)
  have hmem {other : ConnectCall} (hother : other ∈ s.calls ++ [⟨host, phase, none⟩]) :
      other ∈ s.calls ∨ other = ⟨host, phase, none⟩ := by simpa using hother
  refine ⟨?_, h.distinct, ?_, ?_, ?_, h.mapped_lt, ?_⟩
  · intro other hother gate hgate
    rcases hmem hother with hother | rfl
    · exact h.mapped other hother gate hgate
    · exact absurd hgate (hclean gate)
  · intro host' gate hgate
    simpa [count, harc] using h.strongCount host' gate hgate
  · intro gate hgate
    simpa [count, harc] using h.strongCount_removed gate hgate
  · intro gate
    simpa [count, hguard] using h.locked gate
  · intro other hother gate hgate
    rcases hmem hother with hother | rfl
    · exact h.arc_lt other hother gate hgate
    · rw [hphase] at hgate
      exact nomatch hgate

theorem Counted.moves (h : s.Counted) {st : ConnectStep} (hmove : s.Moves st s') : s'.Counted := by
  cases hmove with
  | call host => exact h.append host _ (by split <;> rfl)
  | quiet hcall hquiet _ =>
    obtain ⟨harc, hguard, hclean⟩ := hquiet.same
    exact h.setPhase hcall harc hguard (Or.inl hclean)
  | take hcall hphase => exact h.take hcall hphase
  | lock hcall hphase hfree => exact h.lock hcall hphase hfree
  | @insert _ call _ hcall hphase =>
    have hcall' := getElem?_insertConnection hcall (by rw [hphase]; simp [ConnectPhase.waits])
      call.host
    exact (h.insertConnection _).setPhase hcall' (by rw [hphase]; rfl) (by rw [hphase]; rfl)
      (Or.inl (by rw [hphase]; rfl))
  | dropGuard hcall hphase => exact h.dropGuard hcall hphase
  | dropCleanup hcall hphase => exact h.cleanUp hcall hphase
  | dropArc hcall hphase => exact h.dropArc hcall hphase
  | lose _ => exact ⟨h.1, h.2, h.3, h.4, h.5, h.6, h.7⟩

/-- Calls that hold the gate of one host are one call. -/
theorem Counted.exclusive (h : s.Counted) {j : ℕ} {other : ConnectCall} {gate' : GateId}
    (hi : s.calls[i]? = some call) (hj : s.calls[j]? = some other) (hhost : call.host = other.host)
    (hguard : call.phase.guarded = some gate) (hguard' : other.phase.guarded = some gate') :
    i = j := by
  have hgate := h.mapped call (List.mem_of_getElem? hi) gate (guarded_uncleaned hguard)
  have hgate' := h.mapped other (List.mem_of_getElem? hj) gate' (guarded_uncleaned hguard')
  rw [hhost, hgate', Option.some.injEq] at hgate
  subst hgate
  have hone : s.count (hasGuard gate') ≤ 1 := by
    rw [h.locked]
    split <;> omega
  exact Count.eq_of_countP_le_one hone hi hj (decide_eq_true hguard) (decide_eq_true hguard')

/-! ## Connections made while others wait -/

/-- While a call makes a connection there is none. If it waited while one was made it will find that,
or has returned it unless it was cancelled. -/
structure PromisedCall (s : RemoteHosts) (call : ConnectCall) : Prop where
  making : call.phase.makes → s.openConnection call.host = none ∧ call.made = none
  waiting : call.phase.waits → ∀ connection, call.made = some connection →
    s.openConnection call.host = some connection
  early : call.phase = .called ∨ call.phase = .unopened → call.made = none
  given : ∀ connection outcome, call.made = some connection →
    call.phase.outcome = some outcome → outcome = .returned connection ∨ outcome = .cancelled

structure Promised (s : RemoteHosts) : Prop where
  calls : ∀ call ∈ s.calls, s.PromisedCall call
  lost_lt : ∀ connection, s.lost connection → connection < s.nextConnection

/-- A call goes on while the connections stay as they are. -/
theorem Promised.setPhase (h : s.Promised) {t : RemoteHosts} (hcalls : t.calls = s.calls)
    (hopen : t.openConnections = s.openConnections) (hlost : t.lost = s.lost)
    (hnext : t.nextConnection = s.nextConnection) {phase : ConnectPhase}
    (hphase : s.PromisedCall { call with phase }) : (t.setPhase i call phase).Promised := by
  have hsame (other : ConnectCall) (hother : s.PromisedCall other) :
      (t.setPhase i call phase).PromisedCall other := by
    have heq (host : String) : (t.setPhase i call phase).openConnection host =
        s.openConnection host := by
      simp only [openConnection, RemoteHosts.setPhase, hopen, hlost]
    refine ⟨?_, ?_, hother.early, hother.given⟩
    · rw [heq]
      exact hother.making
    · rw [heq]
      exact hother.waiting
  refine ⟨fun other hother ↦ ?_, ?_⟩
  · rcases mem_setPhase hother with hother | rfl
    · exact hsame other (h.calls other (hcalls ▸ hother))
    · exact hsame _ hphase
  · change ∀ connection, t.lost connection → connection < t.nextConnection
    rw [hlost, hnext]
    exact h.lost_lt

theorem PromisedCall.quiet (h : s.PromisedCall call) {phase : ConnectPhase}
    (hquiet : s.Quiet call phase) : s.PromisedCall { call with phase } := by
  cases hquiet with
  | found hphase _ =>
    have hmade := h.early (Or.inl hphase)
    exact ⟨nofun, nofun, nofun, fun _ _ hsome _ ↦ nomatch hmade.symm.trans hsome⟩
  | unopened hphase _ =>
    exact ⟨nofun, nofun, fun _ ↦ h.early (Or.inl hphase), nofun⟩
  | @foundBehind gate connection hphase hopen =>
    refine ⟨nofun, nofun, nofun, ?_⟩
    rintro connection' outcome hmade ⟨⟩
    have hwaited := h.waiting (by rw [hphase]; rfl) connection' hmade
    rw [hopen, Option.some.injEq] at hwaited
    exact Or.inl (congrArg _ hwaited)
  | connecting hphase hopen =>
    refine ⟨fun _ ↦ ⟨hopen, ?_⟩, nofun, nofun, nofun⟩
    by_contra hmade
    obtain ⟨connection, hmade⟩ := Option.ne_none_iff_exists'.1 hmade
    have hwaited := h.waiting (by rw [hphase]; rfl) connection hmade
    rw [hopen] at hwaited
    exact nomatch hwaited
  | subscribing hphase =>
    exact ⟨fun _ ↦ h.making (by rw [hphase]; rfl), nofun, nofun, nofun⟩
  | given hmakes _ _ =>
    have hmade := (h.making hmakes).2
    exact ⟨nofun, nofun, nofun, fun _ _ hsome _ ↦ nomatch hmade.symm.trans hsome⟩
  | waited hphase =>
    refine ⟨nofun, nofun, nofun, ?_⟩
    rintro _ outcome _ ⟨⟩
    exact Or.inr rfl

/-- A call that goes on after it is over keeps what it returns. -/
theorem PromisedCall.over (h : s.PromisedCall call) {phase : ConnectPhase}
    {outcome : ConnectOutcome} (hold : call.phase.outcome = some outcome)
    (hnew : phase.outcome = some outcome) : s.PromisedCall { call with phase } := by
  obtain ⟨hmakes, hwaits, hcalled, hunopened⟩ := of_outcome hnew
  refine ⟨?_, ?_, ?_, ?_⟩
  · intro hmakes'
    exact absurd (hmakes.symm.trans hmakes') Bool.false_ne_true
  · intro hwaits'
    exact absurd (hwaits.symm.trans hwaits') Bool.false_ne_true
  · rintro (hearly | hearly)
    · exact absurd hearly hcalled
    · exact absurd hearly hunopened
  · intro connection outcome' hmade houtcome
    exact h.given connection outcome' hmade (hold.trans (hnew.symm.trans houtcome))

theorem openConnection_insertConnection (hlost : ∀ connection, s.lost connection →
    connection < s.nextConnection) (host host' : String) :
    (s.insertConnection host).openConnection host' =
      if host' = host then some s.nextConnection else s.openConnection host' := by
  have hfresh : s.lost s.nextConnection = false := by
    by_contra hlost'
    exact absurd (hlost _ (by simpa using hlost')) (Nat.lt_irrefl _)
  change (Function.update s.openConnections host (some s.nextConnection) host').filter
    (fun connection ↦ ¬s.lost connection) = _
  by_cases heq : host' = host
  · rw [heq, Function.update_self, if_pos rfl, Option.filter_some]
    simp [hfresh]
  · rw [Function.update_of_ne heq, if_neg heq]
    rfl

/-- The connection made is what those that wait for it will find. -/
theorem Promised.insert (h : s.Promised) (hcounted : s.Counted) (hcall : s.calls[i]? = some call)
    (hphase : call.phase = .subscribing gate) :
    ((s.insertConnection call.host).setPhase i call
      (.leaving gate (.returned s.nextConnection))).Promised := by
  have hopen := openConnection_insertConnection h.lost_lt call.host
  have hmade : call.made = none :=
    ((h.calls call (List.mem_of_getElem? hcall)).making (by rw [hphase]; rfl)).2
  refine ⟨fun other hother ↦ ?_, fun connection hlost ↦ ?_⟩
  · change other ∈ (s.insertConnection call.host).calls.set i _ at hother
    obtain ⟨j, hj⟩ := List.getElem?_of_mem hother
    rw [List.getElem?_set] at hj
    split_ifs at hj with hij hlt
    · obtain rfl := Option.some.inj hj
      exact ⟨nofun, nofun, nofun, fun _ _ hsome _ ↦ nomatch hmade.symm.trans hsome⟩
    · -- Another call, with the connection noted if it waits for it.
      change (s.calls.map _)[j]? = some other at hj
      rw [List.getElem?_map, Option.map_eq_some_iff] at hj
      obtain ⟨old, hold, rfl⟩ := hj
      have hp := h.calls old (List.mem_of_getElem? hold)
      by_cases hwaits : old.host = call.host ∧ old.phase.waits
      · rw [if_pos hwaits]
        refine ⟨?_, ?_, ?_, ?_⟩
        · intro hmakes
          obtain ⟨gate', hguard⟩ := makes_guarded hmakes
          have hguard' : call.phase.guarded = some gate := by rw [hphase]; rfl
          exact absurd (hcounted.exclusive hcall hold hwaits.1.symm hguard' hguard) hij
        · rintro _ connection ⟨⟩
          exact (hopen old.host).trans (if_pos hwaits.1)
        · rintro (hearly | hearly)
          · exact nomatch hearly ▸ hwaits.2
          · exact nomatch hearly ▸ hwaits.2
        · intro connection outcome _ houtcome
          exact absurd ((of_outcome houtcome).2.1.symm.trans hwaits.2) Bool.false_ne_true
      · rw [if_neg hwaits]
        refine ⟨?_, ?_, hp.early, hp.given⟩
        · intro hmakes
          obtain ⟨gate', hguard⟩ := makes_guarded hmakes
          have hguard' : call.phase.guarded = some gate := by rw [hphase]; rfl
          have hhost : old.host ≠ call.host := fun heq ↦
            hij (hcounted.exclusive hcall hold heq.symm hguard' hguard)
          refine ⟨?_, (hp.making hmakes).2⟩
          exact (hopen old.host).trans ((if_neg hhost).trans (hp.making hmakes).1)
        · intro hwaits' connection hsome
          have hhost : old.host ≠ call.host := fun heq ↦ hwaits ⟨heq, hwaits'⟩
          exact (hopen old.host).trans ((if_neg hhost).trans (hp.waiting hwaits' connection hsome))
  · exact Nat.lt_succ_of_lt (h.lost_lt connection hlost)

end RemoteHosts

/-! ## Sound runs -/

/-- That no call is the last to clean up while another has yet to drop its `Arc` of the gate, and that
no connection is lost before those that waited for it have looked it up. -/
def ConnectStep.Sound (s : RemoteHosts) : ConnectStep → Prop
  | .dropCleanup i => ∀ call, s.calls[i]? = some call →
    (∀ j other, j ≠ i → s.calls[j]? = some other → other.host = call.host →
      other.phase.uncleaned = none) →
    ∀ j other, j ≠ i → s.calls[j]? = some other → other.phase.arc ≠ call.phase.arc
  | .lose connection => ∀ call ∈ s.calls, call.phase.waits → call.made ≠ some connection
  | _ => True

namespace RemoteHosts

variable {s s' : RemoteHosts} {i : ℕ} {call : ConnectCall} {gate : GateId}

theorem Promised.moves (h : s.Promised) (hcounted : s.Counted) {st : ConnectStep}
    (hsound : st.Sound s) (hmove : s.Moves st s') : s'.Promised := by
  cases hmove with
  | call host =>
    refine ⟨fun other hother ↦ ?_, h.lost_lt⟩
    rcases List.mem_append.1 hother with hother | hother
    · exact ⟨(h.calls other hother).1, (h.calls other hother).2, (h.calls other hother).3,
        (h.calls other hother).4⟩
    · obtain rfl := List.mem_singleton.1 hother
      refine ⟨?_, nofun, fun _ ↦ rfl, nofun⟩
      intro hmakes
      split at hmakes <;> exact nomatch hmakes
  | quiet hcall hquiet _ =>
    exact h.setPhase rfl rfl rfl rfl ((h.calls _ (List.mem_of_getElem? hcall)).quiet hquiet)
  | @take i call hcall hphase =>
    have hmade := (h.calls _ (List.mem_of_getElem? hcall)).early (Or.inr hphase)
    have hp : s.PromisedCall { call with phase := .waiting (s.takeGate call.host).1 } :=
      ⟨nofun, fun _ _ hsome ↦ (nomatch hmade.symm.trans hsome), nofun, nofun⟩
    have htake : (s.takeGate call.host).2.calls = s.calls ∧
        (s.takeGate call.host).2.openConnections = s.openConnections ∧
        (s.takeGate call.host).2.lost = s.lost ∧
        (s.takeGate call.host).2.nextConnection = s.nextConnection := by
      rw [takeGate]
      split <;> exact ⟨rfl, rfl, rfl, rfl⟩
    exact h.setPhase htake.1 htake.2.1 htake.2.2.1 htake.2.2.2 hp
  | @lock i call gate hcall hphase hfree =>
    have hold := h.calls _ (List.mem_of_getElem? hcall)
    have hp : s.PromisedCall { call with phase := .holding gate } :=
      ⟨nofun, fun _ ↦ hold.waiting (by rw [hphase]; rfl), nofun, nofun⟩
    exact h.setPhase (t := s.lockGate gate true) rfl rfl rfl rfl hp
  | insert hcall hphase => exact h.insert hcounted hcall hphase
  | @dropGuard i call gate outcome hcall hphase =>
    have hp : s.PromisedCall { call with phase := .unlocked gate outcome } :=
      (h.calls _ (List.mem_of_getElem? hcall)).over (by rw [hphase]; rfl) rfl
    exact h.setPhase (t := s.lockGate gate false) rfl rfl rfl rfl hp
  | @dropCleanup i call gate outcome hcall hphase =>
    have hclean : (s.cleanUp call.host gate).calls = s.calls ∧
        (s.cleanUp call.host gate).openConnections = s.openConnections ∧
        (s.cleanUp call.host gate).lost = s.lost ∧
        (s.cleanUp call.host gate).nextConnection = s.nextConnection := by
      rw [cleanUp]
      split <;> exact ⟨rfl, rfl, rfl, rfl⟩
    exact h.setPhase hclean.1 hclean.2.1 hclean.2.2.1 hclean.2.2.2
      ((h.calls _ (List.mem_of_getElem? hcall)).over (by rw [hphase]; rfl) rfl)
  | @dropArc i call gate outcome hcall hphase =>
    have hp : s.PromisedCall { call with phase := .done outcome } :=
      (h.calls _ (List.mem_of_getElem? hcall)).over (by rw [hphase]; rfl) rfl
    exact h.setPhase (t := s.releaseArc gate) rfl rfl rfl rfl hp
  | @lose lostOne hlt =>
    refine ⟨fun other hother ↦ ?_, fun connection hlost ↦ ?_⟩
    · have hp := h.calls other hother
      have hopen (host : String) : openConnection { s with
          lost := Function.update s.lost lostOne true } host =
          (s.openConnection host).filter fun connection ↦ connection ≠ lostOne := by
        rw [openConnection, openConnection, Option.filter_filter]
        congr 1
        funext connection
        by_cases heq : connection = lostOne
        · simp [heq]
        · simp [heq]
      refine ⟨fun hmakes ↦ ⟨?_, (hp.making hmakes).2⟩, fun hwaits connection hmade ↦ ?_, hp.early,
        hp.given⟩
      · rw [hopen, (hp.making hmakes).1]
        rfl
      · have hne : connection ≠ lostOne := by
          rintro rfl
          exact hsound other hother hwaits hmade
        rw [hopen, hp.waiting hwaits connection hmade, Option.filter_some]
        simp [hne]
    · by_cases heq : connection = lostOne
      · rw [heq]
        exact hlt
      · change Function.update s.lost lostOne true connection = true at hlost
        rw [Function.update_of_ne heq] at hlost
        exact h.lost_lt connection hlost

/-! ## No gate is left behind -/

/-- A gate is in the map for a call that has yet to clean up. -/
def Kept (s : RemoteHosts) : Prop :=
  ∀ host gate, s.connecting host = some gate →
    ∃ (i : ℕ) (call : ConnectCall), s.calls[i]? = some call ∧ call.host = host ∧
      call.phase.uncleaned = some gate

theorem Kept.setPhase (h : s.Kept) (hcall : s.calls[i]? = some call) {phase : ConnectPhase}
    (hclean : phase.uncleaned = call.phase.uncleaned) {t : RemoteHosts} (hcalls : t.calls = s.calls)
    (hmap : t.connecting = s.connecting) : (t.setPhase i call phase).Kept := by
  intro host gate hgate
  change t.connecting host = some gate at hgate
  rw [hmap] at hgate
  obtain ⟨j, other, hj, hhost, hother⟩ := h host gate hgate
  have hlt : i < s.calls.length := (List.getElem?_eq_some_iff.1 hcall).1
  by_cases hij : i = j
  · subst hij
    obtain rfl := Option.some.inj (hcall.symm.trans hj)
    refine ⟨i, { call with phase }, ?_, hhost, hclean.trans hother⟩
    simp [RemoteHosts.setPhase, hcalls, hlt]
  · refine ⟨j, other, ?_, hhost, hother⟩
    simp [RemoteHosts.setPhase, hcalls, hij, hj]

theorem Kept.take (h : s.Kept) (hcall : s.calls[i]? = some call) :
    ((s.takeGate call.host).2.setPhase i call (.waiting (s.takeGate call.host).1)).Kept := by
  have hlt : i < s.calls.length := (List.getElem?_eq_some_iff.1 hcall).1
  have hcalls : (s.takeGate call.host).2.calls = s.calls := by
    rw [takeGate]
    split <;> rfl
  have hself : (s.takeGate call.host).2.connecting call.host = some (s.takeGate call.host).1 := by
    rw [takeGate]
    split
    · next hgate => exact hgate
    · exact Function.update_self ..
  have hothers (host : String) (hne : host ≠ call.host) :
      (s.takeGate call.host).2.connecting host = s.connecting host := by
    rw [takeGate]
    split
    · rfl
    · exact Function.update_of_ne hne ..
  intro host gate hgate
  change (s.takeGate call.host).2.connecting host = some gate at hgate
  by_cases hhost : host = call.host
  · rw [hhost, hself] at hgate
    refine ⟨i, { call with phase := .waiting (s.takeGate call.host).1 }, ?_, hhost.symm, hgate⟩
    simp [RemoteHosts.setPhase, hcalls, hlt]
  · rw [hothers host hhost] at hgate
    obtain ⟨j, other, hj, hhost', hother⟩ := h host gate hgate
    have hij : i ≠ j := by
      rintro rfl
      obtain rfl := Option.some.inj (hcall.symm.trans hj)
      exact hhost hhost'.symm
    refine ⟨j, other, ?_, hhost', hother⟩
    simp [RemoteHosts.setPhase, hcalls, hij, hj]

/-- The last call to clean up finds a count of two, if no `Arc` is left of a call that did so
before. -/
theorem Kept.cleanUp (h : s.Kept) (hcounted : s.Counted) (hcall : s.calls[i]? = some call)
    {outcome : ConnectOutcome} (hphase : call.phase = .unlocked gate outcome)
    (hsound : (ConnectStep.dropCleanup i).Sound s) :
    ((s.cleanUp call.host gate).setPhase i call (.cleaned gate outcome)).Kept := by
  have hclean : call.phase.uncleaned = some gate := by rw [hphase]; rfl
  have hmapped := hcounted.mapped call (List.mem_of_getElem? hcall) gate hclean
  have hothers (host : String) (gate' : GateId) (j : ℕ) (other : ConnectCall) (hij : i ≠ j)
      (hj : s.calls[j]? = some other) (hhost : other.host = host)
      (hother : other.phase.uncleaned = some gate') :
      ∃ (j : ℕ) (other : ConnectCall), ((s.cleanUp call.host gate).setPhase i call
        (.cleaned gate outcome)).calls[j]? = some other ∧ other.host = host ∧
        other.phase.uncleaned = some gate' := by
    refine ⟨j, other, ?_, hhost, hother⟩
    have hcalls : (s.cleanUp call.host gate).calls = s.calls := by
      rw [RemoteHosts.cleanUp]
      split <;> rfl
    simp [RemoteHosts.setPhase, hcalls, hij, hj]
  intro host gate' hgate
  change (s.cleanUp call.host gate).connecting host = some gate' at hgate
  rw [RemoteHosts.cleanUp] at hgate
  split at hgate
  · -- The gate is gone; those of other hosts are not this call's.
    have hhost : host ≠ call.host := by
      rintro rfl
      exact nomatch (Function.update_self ..).symm.trans hgate
    have hold : s.connecting host = some gate' := (Function.update_of_ne hhost ..).symm.trans hgate
    obtain ⟨j, other, hj, hhost', hother⟩ := h host gate' hold
    have hij : i ≠ j := by
      rintro rfl
      obtain rfl := Option.some.inj (hcall.symm.trans hj)
      exact hhost hhost'.symm
    exact hothers host gate' j other hij hj hhost' hother
  · next htwo =>
    obtain ⟨j, other, hj, hhost, hother⟩ := h host gate' hgate
    by_cases hij : i = j
    swap
    · exact hothers host gate' j other hij hj hhost hother
    -- The call itself: were it the last, the count would be two.
    subst hij
    obtain rfl := Option.some.inj (hcall.symm.trans hj)
    obtain rfl : gate = gate' := Option.some.inj (hclean.symm.trans hother)
    by_contra hnone
    refine htwo ?_
    have halone : ∀ j other, j ≠ i → s.calls[j]? = some other → other.host = call.host →
        other.phase.uncleaned = none := by
      intro j other hne hj hhost'
      by_contra hsome
      obtain ⟨gate', hsome⟩ := Option.ne_none_iff_exists'.1 hsome
      have hmapped' := hcounted.mapped other (List.mem_of_getElem? hj) gate' hsome
      rw [hhost', hmapped, Option.some.injEq] at hmapped'
      subst hmapped'
      exact hnone (hothers host gate j other (Ne.symm hne) hj (hhost'.trans hhost) hsome)
    have harcs := hsound call hcall halone
    have hone : s.count (hasArc gate) ≤ 1 := by
      refine Count.countP_le_one (i := i) fun j other hne hj harc ↦ ?_
      exact harcs j other hne hj ((of_decide_eq_true harc).trans (uncleaned_arc hclean).symm)
    have hpos : 0 < s.count (hasArc gate) := List.countP_pos_iff.2
      ⟨call, List.mem_of_getElem? hcall, decide_eq_true (uncleaned_arc hclean)⟩
    have hcount := hcounted.strongCount call.host gate hmapped
    omega

theorem Kept.moves (h : s.Kept) (hcounted : s.Counted) {st : ConnectStep} (hsound : st.Sound s)
    (hmove : s.Moves st s') : s'.Kept := by
  cases hmove with
  | call host =>
    intro host gate hgate
    obtain ⟨j, other, hj, hother⟩ := h host gate hgate
    have hlt : j < s.calls.length := (List.getElem?_eq_some_iff.1 hj).1
    exact ⟨j, other, (List.getElem?_append_left hlt).trans hj, hother⟩
  | quiet hcall hquiet _ => exact h.setPhase hcall hquiet.same.2.2 rfl rfl
  | take hcall _ => exact h.take hcall
  | @lock i call gate hcall hphase hfree =>
    exact h.setPhase (t := s.lockGate gate true) hcall (by rw [hphase]; rfl) rfl rfl
  | @insert i call gate hcall hphase =>
    have hcall' := getElem?_insertConnection hcall (by rw [hphase]; simp [ConnectPhase.waits])
      call.host
    have h' : (s.insertConnection call.host).Kept := by
      intro host gate hgate
      obtain ⟨j, other, hj, hhost, hother⟩ := h host gate hgate
      have hmap : (s.insertConnection call.host).calls[j]? = some
          (if other.host = call.host ∧ other.phase.waits then
            { other with made := some s.nextConnection } else other) := by
        rw [insertConnection, List.getElem?_map, hj, Option.map_some]
      refine ⟨j, _, hmap, ?_, ?_⟩
      · split
        · exact hhost
        · exact hhost
      · split
        · exact hother
        · exact hother
    exact h'.setPhase hcall' (by rw [hphase]; rfl) rfl rfl
  | @dropGuard i call gate outcome hcall hphase =>
    exact h.setPhase (t := s.lockGate gate false) hcall (by rw [hphase]; rfl) rfl rfl
  | dropCleanup hcall hphase => exact h.cleanUp hcounted hcall hphase hsound
  | @dropArc i call gate outcome hcall hphase =>
    exact h.setPhase (t := s.releaseArc gate) hcall (by rw [hphase]; rfl) rfl rfl
  | lose _ => exact h

/-- Steps one after the other, if they can be taken. -/
def run (s : RemoteHosts) : List ConnectStep → Option RemoteHosts
  | [] => some s
  | st :: steps => (s.step st).bind fun s' ↦ run s' steps

/-- Every step is sound in the state it is taken in. -/
def SoundRun (s : RemoteHosts) : List ConnectStep → Prop
  | [] => True
  | st :: steps => st.Sound s ∧ ∀ s', s.step st = some s' → SoundRun s' steps

theorem invariant_of_run {steps : List ConnectStep} (h : s.Counted ∧ s.Promised ∧ s.Kept)
    (hrun : s.run steps = some s') (hsound : s.SoundRun steps) :
    s'.Counted ∧ s'.Promised ∧ s'.Kept := by
  induction steps generalizing s with
  | nil =>
    obtain rfl := Option.some.inj hrun
    exact h
  | cons st steps ih =>
    obtain ⟨next, hstep, hrun⟩ := Option.bind_eq_some_iff.1 hrun
    obtain ⟨hcounted, hpromised, hkept⟩ := h
    have hmove := moves_of_step hstep
    refine ih ⟨hcounted.moves hmove, ?_, ?_⟩ hrun (hsound.2 next hstep)
    · exact hpromised.moves hcounted hsound.1 hmove
    · exact hkept.moves hcounted hsound.1 hmove

theorem new_invariant : new.Counted ∧ new.Promised ∧ new.Kept := by
  refine ⟨⟨nofun, nofun, nofun, fun _ _ ↦ rfl, fun _ ↦ rfl, nofun, nofun⟩, ⟨nofun, nofun⟩, nofun⟩

/-- In every state that sound steps reach: at most one connection to a host is being made, a call that
waited while another made one returns that unless it is cancelled, and a host that no call is in
progress for has no gate. -/
theorem connect_soundly {steps : List ConnectStep} (hrun : new.run steps = some s)
    (hsound : new.SoundRun steps) :
    (∀ (i j : ℕ) (call other : ConnectCall), s.calls[i]? = some call → s.calls[j]? = some other →
      call.host = other.host → call.phase.makes → other.phase.makes → i = j) ∧
    (∀ call ∈ s.calls, ∀ connection outcome, call.made = some connection →
      call.phase.outcome = some outcome → outcome = .returned connection ∨ outcome = .cancelled) ∧
    (∀ host, (∀ call ∈ s.calls, call.host = host → ∃ outcome, call.phase = .done outcome) →
      s.connecting host = none) := by
  obtain ⟨hcounted, hpromised, hkept⟩ := invariant_of_run new_invariant hrun hsound
  refine ⟨?_, ?_, ?_⟩
  · intro i j call other hi hj hhost hmakes hmakes'
    obtain ⟨gate, hguard⟩ := makes_guarded hmakes
    obtain ⟨gate', hguard'⟩ := makes_guarded hmakes'
    exact hcounted.exclusive hi hj hhost hguard hguard'
  · intro call hcall
    exact (hpromised.calls call hcall).given
  · intro host hdone
    by_contra hsome
    obtain ⟨gate, hgate⟩ := Option.ne_none_iff_exists'.1 hsome
    obtain ⟨i, call, hcall, hhost, hclean⟩ := hkept host gate hgate
    obtain ⟨outcome, hphase⟩ := hdone call (List.mem_of_getElem? hcall) hhost
    rw [hphase] at hclean
    exact nomatch hclean

/-- Two calls for a host, of which the second waits while the first makes the connection. -/
def sharedRun : List ConnectStep :=
  [.call "moss", .call "moss", .look 0, .look 1, .take 0, .take 1, .lock 0, .lookAgain 0,
    .connected 0 true, .subscribed 0 true, .dropGuard 0, .lock 1, .lookAgain 1]

/-- Both return it. -/
theorem connect_soundly_shared :
    ∃ s, new.run sharedRun = some s ∧
      s.calls.map (·.phase.outcome) = [some (.returned 0), some (.returned 0)] ∧
      s.calls.map (·.made) = [none, some 0] ∧
      ∀ call ∈ s.calls, ∀ connection outcome, call.made = some connection →
        call.phase.outcome = some outcome →
        outcome = .returned connection ∨ outcome = .cancelled := by
  have hmap : (new.run sharedRun).map (fun s ↦
      (s.calls.map (·.phase.outcome), s.calls.map (·.made))) =
        some ([some (.returned 0), some (.returned 0)], [none, some 0]) := by decide +kernel
  obtain ⟨s, hrun, heq⟩ := Option.map_eq_some_iff.1 hmap
  have hsound : new.SoundRun sharedRun := by
    simp only [sharedRun, SoundRun, ConnectStep.Sound, true_and, implies_true]
  refine ⟨s, hrun, congrArg Prod.fst heq, congrArg Prod.snd heq, ?_⟩
  exact (connect_soundly hrun hsound).2.1

/-- The first call cleans up while the second waits, and keeps its `Arc` until the second has cleaned
up as well. -/
def lateDrop : List ConnectStep :=
  sharedRun ++ [.dropCleanup 0, .dropGuard 1, .dropCleanup 1, .dropArc 0, .dropArc 1]

/-- Every call is over, and the gate is still in the map. -/
theorem gate_left_behind :
    (new.run lateDrop).map (fun s ↦ (s.calls.map (·.phase), s.connecting "moss")) =
      some ([.done (.returned 0), .done (.returned 0)], some 0) := by
  decide +kernel

end RemoteHosts

end Embers
