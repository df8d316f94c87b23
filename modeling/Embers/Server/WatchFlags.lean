import Embers.Server.Watch

/-!
# The flags of watched buffers

A flag and the sets it stands for are changed under different locks, so in the middle of a request
they disagree. `FlagsSettling` is what holds all the same, as long as no step is disturbed: a flag
is right counting the requests that are about to register their client, or some synchronization of
its buffer has yet to write. When nothing is in progress, only the first is left, and the flag says
who watches the buffer.

A synchronization that writes what it read before a concurrent `Watch` is such a disturbance, and
so is a `Detach`, which takes a client out without any synchronization.
-/

namespace Embers

namespace WatchSystem

/-! ## One connection against the others -/

variable {sys sys' : WatchSystem} {clientId : ClientId} {bufferId : BufferId}

theorem claimed_iff (sys : WatchSystem) (clientId : ClientId) (bufferId : BufferId) :
    sys.Claimed bufferId ↔ sys.Claims clientId bufferId ∨ sys.ClaimedElsewhere clientId bufferId := by
  constructor
  · rintro ⟨other, hother⟩
    by_cases h : other = clientId
    · exact .inl (h ▸ hother)
    · exact .inr ⟨other, h, hother⟩
  · rintro (h | ⟨other, -, hother⟩)
    · exact ⟨clientId, h⟩
    · exact ⟨other, hother⟩

theorem pending_iff (sys : WatchSystem) (clientId : ClientId) (bufferId : BufferId) :
    sys.Pending bufferId ↔ sys.Syncs clientId bufferId ∨ sys.PendingElsewhere clientId bufferId := by
  constructor
  · rintro ⟨other, hother⟩
    by_cases h : other = clientId
    · exact .inl (h ▸ hother)
    · exact .inr ⟨other, h, hother⟩
  · rintro (h | ⟨other, -, hother⟩)
    · exact ⟨clientId, h⟩
    · exact ⟨other, hother⟩

/-- Every other connection stands where it stood, and its client watches what it watched. -/
def OthersStand (clientId : ClientId) (sys sys' : WatchSystem) : Prop :=
  ∀ other, other ≠ clientId →
    sys'.clients[other]? = sys.clients[other]? ∧ sys'.tasks[other]? = sys.tasks[other]?

theorem OthersStand.claimedElsewhere (h : OthersStand clientId sys sys') :
    sys'.ClaimedElsewhere clientId bufferId ↔ sys.ClaimedElsewhere clientId bufferId := by
  refine exists_congr fun other ↦ and_congr_right fun hne ↦ ?_
  rw [Claims, Claims, Watches, Watches, (h other hne).1, (h other hne).2]

theorem OthersStand.pendingElsewhere (h : OthersStand clientId sys sys') :
    sys'.PendingElsewhere clientId bufferId ↔ sys.PendingElsewhere clientId bufferId := by
  refine exists_congr fun other ↦ and_congr_right fun hne ↦ ?_
  rw [Syncs, Syncs, (h other hne).2]

/-- A step of one connection leaves a flag settling when it does not change the flag, does not
change whether its client claims the buffer, and ends no synchronization of it. -/
theorem OthersStand.settling (h : OthersStand clientId sys sys') {flag : Bool}
    (hclaims : sys'.Claims clientId bufferId ↔ sys.Claims clientId bufferId)
    (hsyncs : sys.Syncs clientId bufferId → sys'.Syncs clientId bufferId)
    (hold : sys.Settling bufferId flag) : sys'.Settling bufferId flag := by
  rw [Settling, claimed_iff sys' clientId, pending_iff sys' clientId, h.claimedElsewhere,
    h.pendingElsewhere, hclaims]
  rw [Settling, claimed_iff sys clientId, pending_iff sys clientId] at hold
  exact hold.imp_right (Or.imp_left hsyncs)

theorem claims_of_task {phase : WatchPhase} (h : sys.tasks[clientId]? = some phase) :
    sys.Claims clientId bufferId ↔ sys.Watches clientId bufferId ∨ phase = .insertWatch bufferId := by
  rw [Claims, h, Option.some_inj]

theorem syncs_of_task {phase : WatchPhase} (h : sys.tasks[clientId]? = some phase) :
    sys.Syncs clientId bufferId ↔ phase.Syncs bufferId := by
  rw [Syncs, h]
  exact ⟨fun ⟨_, heq, hsyncs⟩ ↦ Option.some_inj.mp heq ▸ hsyncs, fun hsyncs ↦ ⟨phase, rfl, hsyncs⟩⟩

theorem claims_of_closed (h : sys.tasks[clientId]? = none) :
    sys.Claims clientId bufferId ↔ sys.Watches clientId bufferId := by
  rw [Claims, h]
  exact or_iff_left nofun

/-! ## The flags written -/

theorem writeWatched_get? (watched : List BufferId) (bufferId : BufferId) :
    ∀ (bufferIds : List BufferId) (s : ServerState),
      (s.writeWatched bufferIds watched).buffers[bufferId]? =
        if bufferId ∈ bufferIds then
          s.buffers[bufferId]?.map fun buffer ↦ { buffer with watched := watched.contains bufferId }
        else s.buffers[bufferId]?
  | [], s => by simp [ServerState.writeWatched]
  | first :: rest, s => by
    have hrest := writeWatched_get? watched bufferId rest (s.mapBuffer first fun buffer ↦
      { buffer with watched := watched.contains first })
    have hfirst := Table.get?_modify s.buffers first bufferId fun buffer ↦
      { buffer with watched := watched.contains first }
    rw [ServerState.writeWatched, List.foldl_cons, ← ServerState.writeWatched, hrest,
      ServerState.mapBuffer, hfirst]
    by_cases h : first = bufferId
    · subst h
      rw [if_pos rfl, if_pos List.mem_cons_self]
      split
      · rw [Option.map_map]
        rfl
      · rfl
    · rw [if_neg h]
      simp only [List.mem_cons, Ne.symm h, false_or]

theorem markWatched_get? (s : ServerState) (bufferId bufferId' : BufferId) :
    (s.markWatched bufferId).buffers[bufferId']? =
      if bufferId = bufferId' then
        s.buffers[bufferId']?.map fun buffer ↦ { buffer with watched := true, everAttached := true }
      else s.buffers[bufferId']? :=
  Table.get?_modify s.buffers bufferId bufferId' _

/-! ## One step -/

variable {fuel : ℕ}

theorem settling_connect (hsettling : sys.FlagsSettling)
    (hstep : sys.step fuel (.connect clientId) = some sys') : sys'.FlagsSettling := by
  obtain ⟨⟨htask, hclient⟩, heq⟩ := Option.ite_none_right_eq_some.mp hstep
  rw [Option.isNone_iff_eq_none] at htask hclient
  cases heq
  intro bufferId buffer hbuffer
  refine @OthersStand.settling _ _ clientId _ ?_ _ ?_ ?_ (hsettling bufferId buffer hbuffer)
  · intro other hne
    exact ⟨by rw [Table.get?_insert, if_neg hne.symm], by rw [Table.get?_insert, if_neg hne.symm]⟩
  · rw [claims_of_closed htask, claims_of_task Std.ExtTreeMap.getElem?_insert_self]
    simp [Watches, hclient]
  · rintro ⟨phase, hphase, -⟩
    rw [htask] at hphase
    cases hphase

theorem settling_watch (hsettling : sys.FlagsSettling)
    (hstep : sys.step fuel (.watch clientId bufferId) = some sys') : sys'.FlagsSettling := by
  obtain ⟨htask, heq⟩ := Option.ite_none_right_eq_some.mp hstep
  split at heq
  · cases heq
    intro bufferId' buffer' hbuffer'
    have hnow : (sys.tasks.insert clientId (.insertWatch bufferId))[clientId]? =
      some (.insertWatch bufferId) := Std.ExtTreeMap.getElem?_insert_self
    rw [markWatched_get?] at hbuffer'
    split at hbuffer'
    next h =>
      -- The buffer itself: its flag is set, and its client is about to watch it.
      subst h
      obtain ⟨buffer, -, rfl⟩ := Option.map_eq_some_iff.mp hbuffer'
      exact .inl ⟨fun _ ↦ ⟨clientId, .inr hnow⟩, fun _ ↦ rfl⟩
    next h =>
      refine @OthersStand.settling _ _ clientId _ ?_ _ ?_ ?_
        (hsettling bufferId' buffer' hbuffer')
      · intro other hne
        exact ⟨rfl, by rw [Table.get?_insert, if_neg hne.symm]⟩
      · rw [claims_of_task htask, claims_of_task hnow]
        simp [Watches, h]
      · rw [syncs_of_task htask]
        exact False.elim
  · cases heq
    exact hsettling

theorem settling_unwatch (hsettling : sys.FlagsSettling)
    (hstep : sys.step fuel (.unwatch clientId bufferId) = some sys') : sys'.FlagsSettling := by
  obtain ⟨htask, heq⟩ := Option.ite_none_right_eq_some.mp hstep
  cases heq
  intro bufferId' buffer' hbuffer'
  have hnow : (sys.tasks.insert clientId (.syncRead [bufferId] false))[clientId]? =
    some (.syncRead [bufferId] false) := Std.ExtTreeMap.getElem?_insert_self
  by_cases h : bufferId' = bufferId
  · exact .inr ⟨clientId, _, hnow, List.mem_singleton.mpr h⟩
  · refine @OthersStand.settling _ _ clientId _ ?_ _ ?_ ?_
      (hsettling bufferId' buffer' hbuffer')
    · intro other hne
      exact ⟨by rw [Table.get?_modify, if_neg hne.symm], by rw [Table.get?_insert, if_neg hne.symm]⟩
    · rw [claims_of_task htask, claims_of_task hnow]
      simp [Watches, Ne.symm h]
    · rw [syncs_of_task htask]
      exact False.elim

theorem settling_disconnect (hsettling : sys.FlagsSettling)
    (hstep : sys.step fuel (.disconnect clientId) = some sys') : sys'.FlagsSettling := by
  obtain ⟨htask, heq⟩ := Option.ite_none_right_eq_some.mp hstep
  cases heq
  intro bufferId buffer hbuffer
  by_cases hwatches : sys.Watches clientId bufferId
  · -- What the client watched is to be synchronized.
    obtain ⟨watched, hwatched, hmem⟩ := hwatches
    have hmem' : bufferId ∈ watched.toList := Std.ExtTreeSet.mem_toList.mpr hmem
    refine .inr ⟨clientId, .syncRead watched.toList true, ?_, hmem'⟩
    simp [hwatched, List.ne_nil_of_mem hmem']
  · refine @OthersStand.settling _ _ clientId _ ?_ _ ?_ ?_
      (hsettling bufferId buffer hbuffer)
    · intro other hne
      refine ⟨by rw [Table.get?_erase, if_neg hne.symm], ?_⟩
      simp only
      split
      · rw [Table.get?_erase, if_neg hne.symm]
      · rw [Table.get?_insert, if_neg hne.symm]
    · rw [claims_of_task htask]
      refine iff_of_false ?_ (not_or_intro hwatches nofun)
      rintro (⟨watched, hwatched, -⟩ | hinsert)
      · rw [Table.get?_erase, if_pos rfl] at hwatched
        cases hwatched
      · simp only at hinsert
        split at hinsert <;> simp at hinsert
    · rw [syncs_of_task htask]
      exact False.elim

/-- A client that is taken out leaves no flag behind when it watched nothing that nobody else
claims and no synchronization is to settle. -/
theorem settling_detach (hsettling : sys.FlagsSettling)
    (hcalm : sys.Undisturbed (.detach clientId))
    (hstep : sys.step fuel (.detach clientId) = some sys') : sys'.FlagsSettling := by
  cases hstep
  intro bufferId buffer hbuffer
  have hothers : OthersStand clientId sys { sys with clients := sys.clients.erase clientId } :=
    fun other hne ↦ ⟨by rw [Table.get?_erase, if_neg hne.symm], rfl⟩
  have hgone : ¬ Watches { sys with clients := sys.clients.erase clientId } clientId bufferId := by
    simp [Watches]
  by_cases hwatches : sys.Watches clientId bufferId
  · have hclaimed : sys.Claimed bufferId := ⟨clientId, .inl hwatches⟩
    have hold := hsettling bufferId buffer hbuffer
    have hexists : bufferId ∈ sys.server.buffers := by
      rw [← Std.ExtTreeMap.isSome_getElem?_iff_mem, hbuffer]
      rfl
    rcases hcalm bufferId hexists hwatches with htask | helsewhere | hpending
    · exact hold.imp_left fun hflag ↦ hflag.trans (iff_of_true hclaimed ⟨clientId, .inr htask⟩)
    · refine hold.imp_left fun hflag ↦ hflag.trans (iff_of_true hclaimed ?_)
      exact (claimed_iff _ clientId bufferId).mpr (.inr (hothers.claimedElsewhere.mpr helsewhere))
    · exact .inr hpending
  · refine hothers.settling ?_ id (hsettling bufferId buffer hbuffer)
    exact or_congr_left (iff_of_false hgone hwatches)

/-- Registering the client settles the flag its `Watch` has set. -/
theorem settling_insertWatch (hsettling : sys.FlagsSettling)
    (htask : sys.tasks[clientId]? = some (.insertWatch bufferId))
    (hcalm : clientId ∈ sys.clients ∨ bufferId ∉ sys.server.buffers ∨
      sys.ClaimedElsewhere clientId bufferId ∨ sys.Pending bufferId)
    (hstep : sys.proceed fuel clientId (.insertWatch bufferId) = some sys') :
    sys'.FlagsSettling := by
  cases hstep
  intro bufferId' buffer' hbuffer'
  have hold := hsettling bufferId' buffer' hbuffer'
  have hothers : OthersStand clientId sys { sys with
      clients := sys.clients.modify clientId (·.insert bufferId)
      tasks := sys.tasks.insert clientId .idle } := fun other hne ↦
    ⟨by rw [Table.get?_modify, if_neg hne.symm], by rw [Table.get?_insert, if_neg hne.symm]⟩
  have hsyncs : ¬ sys.Syncs clientId bufferId' := by
    rw [syncs_of_task htask]
    exact id
  by_cases h : bufferId' = bufferId
  · subst h
    have hclaimed : sys.Claimed bufferId' := ⟨clientId, .inr htask⟩
    have hexists : bufferId' ∈ sys.server.buffers := by
      rw [← Std.ExtTreeMap.isSome_getElem?_iff_mem, hbuffer']
      rfl
    have hpending : sys.Pending bufferId' → sys.PendingElsewhere clientId bufferId' := fun hpending ↦
      ((pending_iff sys clientId bufferId').mp hpending).resolve_left hsyncs
    rw [Settling, claimed_iff _ clientId, pending_iff _ clientId, hothers.claimedElsewhere,
      hothers.pendingElsewhere]
    rcases hcalm with hclient | hgone | helsewhere | hcalm
    · refine hold.imp (fun hflag ↦ hflag.trans (iff_of_true hclaimed (.inl (.inl ?_))))
        fun hp ↦ .inr (hpending hp)
      obtain ⟨watched, hwatched⟩ :=
        Option.isSome_iff_exists.mp (Std.ExtTreeMap.isSome_getElem?_iff_mem.mpr hclient)
      refine ⟨watched.insert bufferId', ?_, by simp⟩
      rw [Table.get?_modify, if_pos rfl, hwatched, Option.map_some]
    · exact absurd hexists hgone
    · exact hold.imp (fun hflag ↦ hflag.trans (iff_of_true hclaimed (.inr helsewhere)))
        fun hp ↦ .inr (hpending hp)
    · exact .inr (.inr (hpending hcalm))
  · refine hothers.settling ?_ (fun hs ↦ absurd hs hsyncs) hold
    rw [claims_of_task htask, claims_of_task Std.ExtTreeMap.getElem?_insert_self]
    simp [Watches, Ne.symm h]

theorem settling_syncRead {bufferIds : List BufferId} {closing : Bool}
    (hsettling : sys.FlagsSettling)
    (htask : sys.tasks[clientId]? = some (.syncRead bufferIds closing))
    (hstep : sys.proceed fuel clientId (.syncRead bufferIds closing) = some sys') :
    sys'.FlagsSettling := by
  cases hstep
  intro bufferId buffer hbuffer
  have hnow : (sys.tasks.insert clientId (.syncWrite bufferIds sys.watchedBuffers closing))[
    clientId]? = some (.syncWrite bufferIds sys.watchedBuffers closing) :=
    Std.ExtTreeMap.getElem?_insert_self
  refine @OthersStand.settling _ _ clientId _ ?_ _ ?_ ?_ (hsettling bufferId buffer hbuffer)
  · intro other hne
    exact ⟨rfl, by rw [Table.get?_insert, if_neg hne.symm]⟩
  · rw [claims_of_task htask, claims_of_task hnow]
    simp [Watches]
  · rw [syncs_of_task htask, syncs_of_task hnow]
    exact id

/-- Flags written by an answer that is still right are right. -/
theorem settling_syncWrite {bufferIds watched : List BufferId} {closing : Bool}
    (hsettling : sys.FlagsSettling)
    (htask : sys.tasks[clientId]? = some (.syncWrite bufferIds watched closing))
    (hcalm : ∀ bufferId ∈ bufferIds, bufferId ∈ sys.server.buffers →
      (bufferId ∈ watched ↔ sys.Claimed bufferId) ∨ sys.PendingElsewhere clientId bufferId)
    (hstep : sys.proceed fuel clientId (.syncWrite bufferIds watched closing) = some sys') :
    sys'.FlagsSettling := by
  cases hstep
  intro bufferId buffer' hbuffer'
  have hnow : (sys.tasks.insert clientId (.syncDispose closing))[clientId]? =
    some (.syncDispose closing) := Std.ExtTreeMap.getElem?_insert_self
  have hothers : OthersStand clientId sys { sys with
      server := sys.server.writeWatched bufferIds watched
      tasks := sys.tasks.insert clientId (.syncDispose closing) } := fun other hne ↦
    ⟨rfl, by rw [Table.get?_insert, if_neg hne.symm]⟩
  have hclaims : ({ sys with
      server := sys.server.writeWatched bufferIds watched
      tasks := sys.tasks.insert clientId (.syncDispose closing) } : WatchSystem).Claims
        clientId bufferId ↔ sys.Claims clientId bufferId := by
    rw [claims_of_task htask, claims_of_task hnow]
    simp [Watches]
  rw [writeWatched_get?] at hbuffer'
  split at hbuffer'
  next hmem =>
    obtain ⟨buffer, hbuffer, rfl⟩ := Option.map_eq_some_iff.mp hbuffer'
    have hexists : bufferId ∈ sys.server.buffers := by
      rw [← Std.ExtTreeMap.isSome_getElem?_iff_mem, hbuffer]
      rfl
    rw [Settling, claimed_iff _ clientId, pending_iff _ clientId, hothers.claimedElsewhere,
      hothers.pendingElsewhere, hclaims, ← claimed_iff]
    refine (hcalm bufferId hmem hexists).imp (fun hright ↦ ?_) .inr
    rw [← hright]
    exact List.contains_iff_mem
  next hmem =>
    refine hothers.settling hclaims ?_ (hsettling bufferId buffer' hbuffer')
    rw [syncs_of_task htask]
    exact fun h ↦ absurd h hmem

theorem settling_syncDispose {closing : Bool} (hsettling : sys.FlagsSettling)
    (htask : sys.tasks[clientId]? = some (.syncDispose closing))
    (hstep : sys.proceed fuel clientId (.syncDispose closing) = some sys') :
    sys'.FlagsSettling := by
  have hdrop := ServerState.disposeExitedBuffers_buffersDrop fuel sys.server
  rw [proceed] at hstep
  split at hstep
  next server hdispose =>
    rw [hdispose] at hdrop
    cases hstep
    intro bufferId buffer' hbuffer'
    obtain ⟨buffer, hbuffer, hstanding⟩ := hdrop bufferId buffer' hbuffer'
    have hflag : buffer'.standing.watched = buffer.standing.watched := by rw [hstanding]
    change buffer'.watched = buffer.watched at hflag
    rw [hflag]
    refine @OthersStand.settling _ _ clientId _ ?_ _ ?_ ?_ (hsettling bufferId buffer hbuffer)
    · intro other hne
      refine ⟨rfl, ?_⟩
      simp only [finish]
      split
      · rw [Table.get?_erase, if_neg hne.symm]
      · rw [Table.get?_insert, if_neg hne.symm]
    · rw [claims_of_task htask]
      cases closing with
      | true =>
        have hnow : (sys.tasks.erase clientId)[clientId]? = none := by
          rw [Table.get?_erase, if_pos rfl]
        exact (claims_of_closed hnow).trans (or_iff_left nofun).symm
      | false =>
        have hnow : (sys.tasks.insert clientId .idle)[clientId]? = some .idle :=
          Std.ExtTreeMap.getElem?_insert_self
        exact (claims_of_task hnow).trans (or_congr_right (iff_of_false nofun nofun))
    · rw [syncs_of_task htask]
      exact False.elim
  next => cases hstep

theorem settling_proceed (hsettling : sys.FlagsSettling)
    (hcalm : sys.Undisturbed (.proceed clientId))
    (hstep : sys.step fuel (.proceed clientId) = some sys') : sys'.FlagsSettling := by
  obtain ⟨phase, htask, hphase⟩ := Option.bind_eq_some_iff.mp hstep
  rw [Undisturbed, htask] at hcalm
  cases phase with
  | idle => cases hphase
  | insertWatch bufferId => exact settling_insertWatch hsettling htask hcalm hphase
  | syncRead bufferIds closing => exact settling_syncRead hsettling htask hphase
  | syncWrite bufferIds watched closing => exact settling_syncWrite hsettling htask hcalm hphase
  | syncDispose closing => exact settling_syncDispose hsettling htask hphase

/-- What the rest of the server does leaves every flag settling. -/
theorem settling_elsewhere {server : ServerState} (hsettling : sys.FlagsSettling)
    (h : sys.Elsewhere server) : FlagsSettling { sys with server } := by
  intro bufferId buffer hbuffer
  rcases h bufferId buffer hbuffer with ⟨buffer', hbuffer', hflag⟩ | ⟨hflag, hclaimed, -⟩
  · rw [← hflag]
    exact hsettling bufferId buffer' hbuffer'
  · rw [hflag]
    exact .inl (iff_of_false nofun hclaimed)

theorem CalmStep.settling (h : CalmStep fuel sys sys') (hsettling : sys.FlagsSettling) :
    sys'.FlagsSettling := by
  cases h with
  | other h => exact settling_elsewhere hsettling h
  | @act action _ hstep hcalm =>
    cases action with
    | connect => exact settling_connect hsettling hstep
    | watch => exact settling_watch hsettling hstep
    | unwatch => exact settling_unwatch hsettling hstep
    | disconnect => exact settling_disconnect hsettling hstep
    | detach => exact settling_detach hsettling hcalm hstep
    | proceed => exact settling_proceed hsettling hcalm hstep

/-! ## Whole runs -/

theorem Started.settling (h : sys.Started) : sys.FlagsSettling := by
  obtain ⟨hclients, htasks, hflags⟩ := h
  intro bufferId buffer hbuffer
  refine .inl (iff_of_false (by rw [hflags bufferId buffer hbuffer]; exact nofun) ?_)
  rintro ⟨clientId, ⟨watched, hwatched, -⟩ | htask⟩
  · simp [hclients] at hwatched
  · simp [htasks] at htask

/-- When nothing is in progress, a settling flag is right. -/
theorem Quiescent.flagsAgree (h : sys.Quiescent) (hsettling : sys.FlagsSettling) :
    sys.FlagsAgree := by
  intro bufferId buffer hbuffer
  rcases hsettling bufferId buffer hbuffer with hflag | ⟨clientId, phase, hphase, hsyncs⟩
  · refine hflag.trans (exists_congr fun clientId ↦ or_iff_left fun htask ↦ ?_)
    cases h clientId _ htask
  · cases h clientId phase hphase
    exact hsyncs.elim

theorem settling_of_calm_run {start : WatchSystem} (hstart : start.Started)
    (hrun : Relation.ReflTransGen (CalmStep fuel) start sys) : sys.FlagsSettling := by
  induction hrun with
  | refl => exact hstart.settling
  | tail _ hstep ih => exact hstep.settling ih

/-- In every run of undisturbed steps, the flags say who watches the buffers whenever nothing is
in progress. -/
theorem flagsAgree_of_calm_run {start : WatchSystem} (hstart : start.Started)
    (hrun : Relation.ReflTransGen (CalmStep fuel) start sys) (hquiescent : sys.Quiescent) :
    sys.FlagsAgree :=
  hquiescent.flagsAgree (settling_of_calm_run hstart hrun)

/-! ### Two clients and one buffer -/

/-- One step after another. -/
def run (fuel : ℕ) (sys : WatchSystem) (actions : List WatchAction) : Option WatchSystem :=
  actions.foldlM (step fuel) sys

theorem quiescent_of_toList (h : ∀ entry ∈ sys.tasks.toList, entry.2 = .idle) : sys.Quiescent :=
  fun clientId phase hphase ↦ h (clientId, phase) (Table.mem_toList.mpr hphase)

/-- A server that has started with one buffer. -/
def oneBuffer : WatchSystem where
  clients := ∅
  server := ServerState.insertBuffer 1 (Buffer.new "shell" [] none ∅ ⟨0⟩) ServerState.new
  tasks := ∅

theorem oneBuffer_started : oneBuffer.Started := by
  refine ⟨rfl, rfl, fun bufferId buffer hbuffer ↦ ?_⟩
  have hmem := Table.mem_toList.mpr hbuffer
  have hlist : oneBuffer.server.buffers.toList = [(1, Buffer.new "shell" [] none ∅ ⟨0⟩)] := rfl
  rw [hlist, List.mem_singleton] at hmem
  cases hmem
  rfl

/-- A client that connects and watches the buffer, undisturbed. -/
theorem flagsAgree_of_calm_run_watch :
    ∃ sys, oneBuffer.run 1 [.connect 1, .watch 1 1, .proceed 1] = some sys ∧ sys.FlagsAgree := by
  refine ⟨_, rfl, @flagsAgree_of_calm_run _ 1 _ oneBuffer_started
    (.tail (.tail (.single (@CalmStep.act _ _ (.connect 1) _ rfl trivial))
      (@CalmStep.act _ _ (.watch 1 1) _ rfl trivial)) (@CalmStep.act _ _ (.proceed 1) _ rfl ?_))
    (quiescent_of_toList (by decide))⟩
  exact .inl (by decide)

/-- The second client watches the buffer between the read and the write of the first one's
`Unwatch`, which then clears the flag. And a client that is detached leaves its flag set. -/
theorem flags_disagree :
    oneBuffer.Started ∧
    (∃ sys, oneBuffer.run 1 [.connect 1, .connect 2, .watch 1 1, .proceed 1, .unwatch 1 1,
        .proceed 1, .watch 2 1, .proceed 2, .proceed 1, .proceed 1] = some sys ∧
      sys.Quiescent ∧ ¬ sys.FlagsAgree) ∧
    ∃ sys, oneBuffer.run 1 [.connect 1, .watch 1 1, .proceed 1, .detach 1, .disconnect 1] =
        some sys ∧ sys.Quiescent ∧ ¬ sys.FlagsAgree := by
  refine ⟨oneBuffer_started, ⟨_, rfl, quiescent_of_toList (by decide), fun hagree ↦ ?_⟩,
    _, rfl, quiescent_of_toList (by decide), fun hagree ↦ ?_⟩
  · exact absurd ((hagree 1 _ rfl).mpr ⟨2, _, rfl, by decide⟩) (by decide)
  · obtain ⟨clientId, watched, hwatched, -⟩ := (hagree 1 _ rfl).mp rfl
    have hmem := Table.mem_toList.mpr hwatched
    change _ ∈ ([] : List _) at hmem
    exact List.not_mem_nil hmem

end WatchSystem

end Embers
