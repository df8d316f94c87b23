import Embers.Client.PtySizes

/-!
# How often a client resizes

Any number of clients run `PtySizeSync` against one server. What they learn of a buffer's size may
be out of date, so the size a sync is told is left open: whatever the server has done with the other
clients' requests, some value of it is what the sync sees.

## The credit

Each request a client sends for a buffer is paid for by one event: the first time it draws the
buffer, a change of its wanted size, an input of its user, or a failed request. `PtySizeSync.credit`
is what has been paid and not used: a flag or a table entry that is consumed by the request it
causes. A failed request is waited on, and while it is the wanted size is not recorded, so a change
of it is credit as well.
-/

namespace Embers

/-- What happens at one client. -/
inductive SizeEvent where
  | activity
  | sync (input : SyncInput)
  /-- A request planned by the last sync has failed. -/
  | failed (bufferId : BufferId)

namespace PtySizeSync

/-- One event, with the requests it sends. -/
def step (s : PtySizeSync) : SizeEvent → PtySizeSync × List (BufferId × PtySize)
  | .activity => (s.noteUserActivity, [])
  | .sync input => s.plan input
  | .failed bufferId => (s.resizeFailed bufferId, [])

/-- How many of the requests are for the buffer. -/
def requestsFor (bufferId : BufferId) (requests : List (BufferId × PtySize)) : ℕ :=
  requests.countP (·.1 = bufferId)

end PtySizeSync

/-- The clients of a server. -/
abbrev SizeClients := ClientId → PtySizeSync

namespace SizeClients

open PtySizeSync

def new : SizeClients := fun _ ↦ .new

/-- A run of the clients, with the number of requests one of them has sent for a buffer. -/
def sends (clientId : ClientId) (bufferId : BufferId) :
    SizeClients → List (ClientId × SizeEvent) → ℕ
  | _, [] => 0
  | clients, (actor, event) :: events =>
    let (s, requests) := (clients actor).step event
    (if actor = clientId then requestsFor bufferId requests else 0) +
      sends clientId bufferId (Function.update clients actor s) events

/-- The clients after a run. -/
def after : SizeClients → List (ClientId × SizeEvent) → SizeClients
  | clients, [] => clients
  | clients, (actor, event) :: events =>
    after (Function.update clients actor ((clients actor).step event).1) events

/-- The buffer is known to the client at each of its syncs. -/
def Knows (clientId : ClientId) (bufferId : BufferId) (events : List (ClientId × SizeEvent)) :
    Prop :=
  ∀ input, (clientId, .sync input) ∈ events → input.buffers.contains bufferId

end SizeClients

/-! ## What a request is counted against -/

namespace SizeClients

/-- The sizes the client wants for the buffer, one sync after another; a sync that does not draw the
buffer wants none. -/
def wantedSizes (clientId : ClientId) (bufferId : BufferId)
    (events : List (ClientId × SizeEvent)) : List PtySize :=
  events.filterMap fun
    | (actor, .sync input) => if actor = clientId then input.wanted bufferId else none
    | _ => none

/-- How often a list goes on with another value. -/
def changes : List PtySize → ℕ
  | previous :: wanted :: sizes =>
    (if previous = wanted then 0 else 1) + changes (wanted :: sizes)
  | _ => 0

/-- The `note_user_activity` calls of the client. -/
def activities (clientId : ClientId) (events : List (ClientId × SizeEvent)) : ℕ :=
  events.countP fun
    | (actor, .activity) => actor = clientId
    | _ => false

/-- The failed requests of the client for the buffer. -/
def failures (clientId : ClientId) (bufferId : BufferId) (events : List (ClientId × SizeEvent)) :
    ℕ :=
  events.countP fun
    | (actor, .failed failedId) => actor = clientId ∧ failedId = bufferId
    | _ => false

/-- No user is active, no request fails, and each client lays out the buffer as it did. -/
def Idle (bufferId : BufferId) (want : ClientId → PtySize) (events : List (ClientId × SizeEvent)) :
    Prop :=
  ∀ entry ∈ events, ∃ input, entry.2 = .sync input ∧
    ∀ wanted, input.wanted bufferId = some wanted → wanted = want entry.1

end SizeClients

/-- A wanted size that differs from the one wanted last. -/
def changeOf (last : Option PtySize) (wanted : PtySize) : ℕ :=
  if last.isSome ∧ last ≠ some wanted then 1 else 0

/-- What one event of a client adds to what its requests for a buffer may be, given the size it
wanted last. -/
def SizeEvent.cost (bufferId : BufferId) (last : Option PtySize) : SizeEvent → ℕ
  | .activity => 1
  | .failed failedId => if failedId = bufferId then 1 else 0
  | .sync input => ((input.wanted bufferId).map (changeOf last)).getD 0

/-- The size wanted last, after one more event. -/
def SizeEvent.lastWanted (bufferId : BufferId) (last : Option PtySize) : SizeEvent → Option PtySize
  | .sync input => (input.wanted bufferId).or last
  | _ => last

namespace SizeClients

/-- What the events of a client add up to. -/
def costs (clientId : ClientId) (bufferId : BufferId) :
    Option PtySize → List (ClientId × SizeEvent) → ℕ
  | _, [] => 0
  | last, (actor, event) :: events =>
    if actor = clientId then
      event.cost bufferId last + costs clientId bufferId (event.lastWanted bufferId last) events
    else costs clientId bufferId last events

end SizeClients

/-! ## One buffer of one client -/

namespace PtySizeSync

variable {s : PtySizeSync} {bufferId : BufferId}

/-- Paid for and not used. -/
def credit (s : PtySizeSync) (bufferId : BufferId) (last : Option PtySize) : ℕ :=
  (if s.reclaim then 1 else 0) + (if s.failed[bufferId]?.isSome then 1 else 0) +
    if s.wanted[bufferId]?.isSome ∧ s.wanted[bufferId]? = last then 0 else 1

theorem requestsFor_append (xs ys : List (BufferId × PtySize)) :
    requestsFor bufferId (xs ++ ys) = requestsFor bufferId xs + requestsFor bufferId ys :=
  List.countP_append

/-- A target of another buffer leaves this one alone. -/
structure SameFor (bufferId : BufferId) (s : PtySizeSync)
    (after : PtySizeSync × List (BufferId × PtySize)) : Prop where
  wanted : after.1.wanted[bufferId]? = s.wanted[bufferId]?
  failed : after.1.failed[bufferId]? = s.failed[bufferId]?
  reclaim : after.1.reclaim = s.reclaim
  requests : requestsFor bufferId after.2 = 0

theorem want_same (s : PtySizeSync) {t : SizeTarget} (h : t.bufferId ≠ bufferId)
    (reclaim retry : Bool) (now : ℕ) : SameFor bufferId s (s.want reclaim retry now t) := by
  by_cases hchanged : s.changed reclaim retry t
  · simp only [want, hchanged, if_true]
    exact ⟨by simp [Table.get?_insert, h], rfl, rfl, by simp [requestsFor, h]⟩
  · simp only [want, hchanged]
    exact ⟨by simp [Table.get?_insert, h], rfl, rfl, rfl⟩

theorem planTarget_same (s : PtySizeSync) {t : SizeTarget} (h : t.bufferId ≠ bufferId)
    (reclaim : Bool) (now : ℕ) : SameFor bufferId s (s.planTarget reclaim now t) := by
  -- dropping the failed request of another buffer is not seen here
  have hdrop : ∀ retry, SameFor bufferId s
      (want { s with failed := s.failed.erase t.bufferId } reclaim retry now t) := by
    intro retry
    have hwant := want_same { s with failed := s.failed.erase t.bufferId } h reclaim retry now
    exact ⟨hwant.wanted, hwant.failed.trans (by simp [Table.get?_erase, h]), hwant.reclaim,
      hwant.requests⟩
  rw [planTarget]
  rcases s.failed[t.bufferId]? with _ | failure
  · exact want_same s h reclaim false now
  · dsimp only
    split
    · exact hdrop false
    · split
      · exact ⟨rfl, rfl, rfl, rfl⟩
      · exact hdrop true

theorem SameFor.trans {after : PtySizeSync × List (BufferId × PtySize)}
    {later : PtySizeSync × List (BufferId × PtySize)} (h : SameFor bufferId s after)
    (h' : SameFor bufferId after.1 later) : SameFor bufferId s (later.1, after.2 ++ later.2) where
  wanted := h'.wanted.trans h.wanted
  failed := h'.failed.trans h.failed
  reclaim := h'.reclaim.trans h.reclaim
  requests := by rw [requestsFor_append, h.requests, h'.requests]

theorem planLoop_same (reclaim : Bool) (now : ℕ) (targets : List SizeTarget)
    (h : bufferId ∉ targets.map SizeTarget.bufferId) :
    ∀ s : PtySizeSync, SameFor bufferId s (planLoop reclaim now s targets) := by
  induction targets with
  | nil => intro s; exact ⟨rfl, rfl, rfl, rfl⟩
  | cons t targets ih =>
    intro s
    rw [List.map_cons, List.mem_cons, not_or] at h
    exact (planTarget_same s (Ne.symm h.1) reclaim now).trans (ih h.2 _)

/-- What recording a wanted size does to the buffer it is for: the request is one at most, and it
is not made when the size is the one recorded and nothing asks for it to be sent again. -/
theorem want_self (s : PtySizeSync) (reclaim retry : Bool) (now : ℕ) (t : SizeTarget) :
    (s.want reclaim retry now t).1.wanted[t.bufferId]? = some t.wanted ∧
      (s.want reclaim retry now t).1.failed = s.failed ∧
      (s.want reclaim retry now t).1.reclaim = s.reclaim ∧
      requestsFor t.bufferId (s.want reclaim retry now t).2 ≤ 1 ∧
      (s.wanted[t.bufferId]? = some t.wanted → reclaim = false → retry = false →
        requestsFor t.bufferId (s.want reclaim retry now t).2 = 0) := by
  by_cases hchanged : s.changed reclaim retry t
  · rw [want, if_pos hchanged]
    refine ⟨by simp, rfl, rfl, by simp [requestsFor], ?_⟩
    rintro hwanted rfl rfl
    simp [changed, hwanted] at hchanged
  · rw [want, if_neg hchanged]
    exact ⟨by simp, rfl, rfl, Nat.zero_le _, fun _ _ _ ↦ rfl⟩

/-- The credit of a buffer whose own target has just been seen, in the loop of a sync that took the
flag `reclaim`. -/
theorem planTarget_self (s : PtySizeSync) (hs : s.reclaim = false) (reclaim : Bool) (now : ℕ)
    (t : SizeTarget) (last : Option PtySize) :
    requestsFor t.bufferId (s.planTarget reclaim now t).2 +
          (s.planTarget reclaim now t).1.credit t.bufferId (some t.wanted) ≤
        { s with reclaim }.credit t.bufferId last + changeOf last t.wanted ∧
      (requestsFor t.bufferId (s.planTarget reclaim now t).2 = 0 ∨
        requestsFor t.bufferId (s.planTarget reclaim now t).2 = 1 ∧
          (s.planTarget reclaim now t).1.credit t.bufferId (some t.wanted) = 0) := by
  -- recording the size uses up the credit of a change, or else that of what asks for it again
  have hwant : ∀ failed retry, (retry = true → s.failed[t.bufferId]?.isSome) →
      failed[t.bufferId]? = none →
      requestsFor t.bufferId (want { s with failed } reclaim retry now t).2 +
            (want { s with failed } reclaim retry now t).1.credit t.bufferId (some t.wanted) ≤
          { s with reclaim }.credit t.bufferId last + changeOf last t.wanted ∧
        (requestsFor t.bufferId (want { s with failed } reclaim retry now t).2 = 0 ∨
          requestsFor t.bufferId (want { s with failed } reclaim retry now t).2 = 1 ∧
            (want { s with failed } reclaim retry now t).1.credit t.bufferId (some t.wanted) = 0) := by
    intro failed retry hretry hfailed
    obtain ⟨hw, hf, hr, hone, hnone⟩ := want_self { s with failed } reclaim retry now t
    have hcredit : (want { s with failed } reclaim retry now t).1.credit t.bufferId
        (some t.wanted) = 0 := by
      rw [credit, hw, hf, hr, hs]
      simp [hfailed]
    refine ⟨?_, by omega⟩
    rw [hcredit]
    by_cases hsame : s.wanted[t.bufferId]? = some t.wanted ∧ reclaim = false ∧ retry = false
    · rw [hnone hsame.1 hsame.2.1 hsame.2.2]
      exact Nat.zero_le _
    · have hpaid : 1 ≤ { s with reclaim }.credit t.bufferId last + changeOf last t.wanted := by
        simp only [credit, changeOf]
        grind
      omega
  rw [planTarget]
  rcases hfailed : s.failed[t.bufferId]? with _ | failure
  · exact hwant s.failed false (by simp) hfailed
  · have herase : (s.failed.erase t.bufferId)[t.bufferId]? = none := by simp
    dsimp only
    split
    · exact hwant _ false (by simp) herase
    · split
      -- nothing is recorded while the request waits, and the change is still to be sent
      · refine ⟨?_, Or.inl rfl⟩
        simp only [credit, changeOf, requestsFor, List.countP_nil]
        grind
      · exact hwant _ true (by simp [hfailed]) herase

theorem credit_congr {s s' : PtySizeSync} (hwanted : s'.wanted[bufferId]? = s.wanted[bufferId]?)
    (hfailed : s'.failed[bufferId]? = s.failed[bufferId]?) (hreclaim : s'.reclaim = s.reclaim)
    (last : Option PtySize) : s'.credit bufferId last = s.credit bufferId last := by
  rw [credit, credit, hwanted, hfailed, hreclaim]

/-- What a step may do to the credit of a buffer: each request is paid for, there is one at most,
and after it nothing is left. -/
structure Pays (bufferId : BufferId) (before : ℕ) (last : Option PtySize)
    (after : PtySizeSync × List (BufferId × PtySize)) : Prop where
  paid : requestsFor bufferId after.2 + after.1.credit bufferId last ≤ before
  once : requestsFor bufferId after.2 = 0 ∨
    requestsFor bufferId after.2 = 1 ∧ after.1.credit bufferId last = 0

theorem planLoop_pays (reclaim : Bool) (now : ℕ) (last : Option PtySize)
    (targets : List SizeTarget) (hdistinct : (targets.map SizeTarget.bufferId).Nodup) :
    ∀ s : PtySizeSync, s.reclaim = false →
      Pays bufferId
        ({ s with reclaim }.credit bufferId last +
          (((targets.find? (·.bufferId = bufferId)).map (·.wanted)).map (changeOf last)).getD 0)
        (((targets.find? (·.bufferId = bufferId)).map (·.wanted)).or last)
        (planLoop reclaim now s targets) := by
  induction targets with
  | nil =>
    intro s hs
    refine ⟨?_, Or.inl rfl⟩
    simp only [planLoop, requestsFor, List.countP_nil, credit, hs, List.find?_nil, Option.map_none,
      Option.none_or]
    grind
  | cons t targets ih =>
    intro s hs
    rw [List.map_cons, List.nodup_cons] at hdistinct
    by_cases hb : t.bufferId = bufferId
    -- its own target: the rest of the loop does not touch it
    · subst hb
      have hself := planTarget_self s hs reclaim now t last
      have hrest := planLoop_same reclaim now targets hdistinct.1 (s.planTarget reclaim now t).1
      have hcredit := credit_congr hrest.wanted hrest.failed hrest.reclaim (some t.wanted)
      have hrequests : requestsFor t.bufferId (planLoop reclaim now s (t :: targets)).2 =
          requestsFor t.bufferId (s.planTarget reclaim now t).2 := by
        rw [planLoop, requestsFor_append, hrest.requests, Nat.add_zero]
      simp only [List.find?_cons_of_pos, decide_true, Option.map_some, Option.getD_some,
        Option.some_or]
      refine ⟨?_, ?_⟩
      · rw [hrequests]
        exact hcredit ▸ hself.1
      · rw [hrequests]
        exact hcredit ▸ hself.2
    · have hother := planTarget_same s hb reclaim now
      have hrest := ih hdistinct.2 (s.planTarget reclaim now t).1 (hother.reclaim.trans hs)
      have hcredit : { (s.planTarget reclaim now t).1 with reclaim }.credit bufferId last =
          { s with reclaim }.credit bufferId last := by
        simp only [credit, hother.wanted, hother.failed]
      have hrequests : requestsFor bufferId (planLoop reclaim now s (t :: targets)).2 =
          requestsFor bufferId (planLoop reclaim now (s.planTarget reclaim now t).1 targets).2 := by
        rw [planLoop, requestsFor_append, hother.requests, Nat.zero_add]
      rw [hcredit] at hrest
      rw [List.find?_cons_of_neg (by simpa using hb)]
      refine ⟨?_, ?_⟩
      · rw [hrequests]
        exact hrest.paid
      · rw [hrequests]
        exact hrest.once

/-- A target is named after its leaf. -/
theorem target_bufferId {i : SyncInput} {leaf : LeafFrame} {t : SizeTarget}
    (h : i.target leaf = some t) : t.bufferId = leaf.bufferId := by
  simp only [SyncInput.target, Option.bind_eq_bind, Option.bind_eq_some_iff] at h
  obtain ⟨buffer, -, h⟩ := h
  split at h
  · cases h
  · obtain ⟨size, -, h⟩ := Option.bind_eq_some_iff.mp h
    exact Option.some.inj h ▸ rfl

theorem targets_distinct (i : SyncInput) : (i.targets.map SizeTarget.bufferId).Nodup := by
  have hsub : ∀ leaves : List LeafFrame,
      ((leaves.filterMap i.target).map SizeTarget.bufferId).Sublist
        (leaves.map LeafFrame.bufferId) := by
    intro leaves
    induction leaves with
    | nil => exact List.Sublist.refl _
    | cons leaf leaves ih =>
      rcases ht : i.target leaf with _ | t
      · rw [List.filterMap_cons_none ht]
        exact ih.cons _
      · rw [List.filterMap_cons_some ht, List.map_cons, List.map_cons, target_bufferId ht]
        exact ih.cons_cons _
  exact i.distinct.sublist (hsub i.leaves)

theorem plan_pays (s : PtySizeSync) (i : SyncInput) (hknown : i.buffers.contains bufferId)
    (last : Option PtySize) :
    Pays bufferId (s.credit bufferId last + SizeEvent.cost bufferId last (.sync i))
      (SizeEvent.lastWanted bufferId last (.sync i)) (s.plan i) := by
  have hloop := @planLoop_pays bufferId s.reclaim i.now last i.targets
    (targets_distinct i)
    { s with
      wanted := s.wanted.filter fun bufferId _ ↦ i.buffers.contains bufferId
      failed := s.failed.filter fun bufferId _ ↦ i.buffers.contains bufferId
      reclaim := false
      planned := ∅ } rfl
  have hcredit : PtySizeSync.credit
      { s with
        wanted := s.wanted.filter fun bufferId _ ↦ i.buffers.contains bufferId
        failed := s.failed.filter fun bufferId _ ↦ i.buffers.contains bufferId
        planned := ∅ } bufferId last = s.credit bufferId last := by
    have hkept : ∀ {α : Type} (o : Option α), o.filter (fun _ ↦ true) = o := by
      intro α o
      cases o <;> rfl
    simp only [credit, Std.ExtTreeMap.getElem?_filter', hknown, hkept]
  rw [hcredit] at hloop
  exact hloop

theorem resizeFailed_pays (s : PtySizeSync) (failedId : BufferId) (last : Option PtySize) :
    Pays bufferId (s.credit bufferId last + SizeEvent.cost bufferId last (.failed failedId)) last
      (s.resizeFailed failedId, []) := by
  refine ⟨?_, Or.inl rfl⟩
  simp only [requestsFor, List.countP_nil, SizeEvent.cost, resizeFailed]
  rcases s.planned[failedId]? with _ | attempt
  · dsimp only
    omega
  · by_cases hb : failedId = bufferId
    · subst hb
      simp only [credit, Table.get?_insert]
      grind
    · simp only [credit, Table.get?_insert, hb, if_false]
      omega

/-- One event of a client: the requests it sends for a buffer are paid for by what was left and by
the event. -/
theorem step_pays (s : PtySizeSync) (e : SizeEvent)
    (hknown : ∀ i, e = .sync i → i.buffers.contains bufferId) (last : Option PtySize) :
    Pays bufferId (s.credit bufferId last + e.cost bufferId last) (e.lastWanted bufferId last)
      (s.step e) := by
  cases e with
  | activity =>
    refine ⟨?_, Or.inl rfl⟩
    simp only [step, requestsFor, List.countP_nil, noteUserActivity, credit, SizeEvent.cost,
      SizeEvent.lastWanted]
    grind
  | sync i => exact plan_pays s i (hknown i rfl) last
  | failed failedId => exact resizeFailed_pays s failedId last

/-- A client that has recorded the size it wants, and has nothing to send again. -/
structure Settled (s : PtySizeSync) (bufferId : BufferId) (wanted : PtySize) : Prop where
  recorded : s.wanted[bufferId]? = some wanted
  noReclaim : s.reclaim = false
  noFailure : s.failed[bufferId]? = none

theorem credit_eq_zero {wanted : PtySize} (h : s.Settled bufferId wanted) :
    s.credit bufferId (some wanted) = 0 := by
  rw [credit, h.recorded, h.noReclaim, h.noFailure]
  simp

end PtySizeSync

/-! ## Runs of the clients -/

namespace SizeClients

open PtySizeSync

variable {clientId : ClientId} {bufferId : BufferId}

theorem Knows.tail {actor : ClientId} {event : SizeEvent} {events : List (ClientId × SizeEvent)}
    (h : Knows clientId bufferId ((actor, event) :: events)) : Knows clientId bufferId events :=
  fun i hi ↦ h i (List.mem_cons_of_mem _ hi)

/-- The requests of a run, and what is left at its end, are paid for by what there was and by what
happened. -/
theorem sends_le (events : List (ClientId × SizeEvent)) (hknown : Knows clientId bufferId events) :
    ∀ (clients : SizeClients) (last : Option PtySize),
      sends clientId bufferId clients events ≤
        (clients clientId).credit bufferId last + costs clientId bufferId last events := by
  induction events with
  | nil => intro clients last; exact Nat.zero_le _
  | cons entry events ih =>
    intro clients last
    obtain ⟨actor, event⟩ := entry
    have hrest := ih hknown.tail (Function.update clients actor ((clients actor).step event).1)
    by_cases hactor : actor = clientId
    · subst hactor
      have hstep := step_pays (clients actor) event
        (fun i hi ↦ hknown i (hi ▸ List.mem_cons_self)) last
      have hrest := hrest (event.lastWanted bufferId last)
      have hpaid := hstep.paid
      rw [Function.update_self] at hrest
      simp only [sends, costs, if_true]
      omega
    · have hrest := hrest last
      rw [Function.update_of_ne (Ne.symm hactor)] at hrest
      simp only [sends, costs, hactor, if_false, Nat.zero_add]
      exact hrest

theorem changes_cons (last : Option PtySize) (wanted : PtySize) (sizes : List PtySize) :
    changes (last.toList ++ wanted :: sizes) = changeOf last wanted + changes (wanted :: sizes) := by
  rcases last with _ | previous
  · simp [changeOf]
  · by_cases h : previous = wanted
    · simp [changes, changeOf, h]
    · simp [changes, changeOf, h]

theorem costs_eq (events : List (ClientId × SizeEvent)) :
    ∀ last : Option PtySize, costs clientId bufferId last events =
      changes (last.toList ++ wantedSizes clientId bufferId events) + activities clientId events +
        failures clientId bufferId events := by
  induction events with
  | nil =>
    intro last
    rcases last with _ | previous
    · rfl
    · rfl
  | cons entry events ih =>
    intro last
    obtain ⟨actor, event⟩ := entry
    by_cases hactor : actor = clientId
    · subst hactor
      simp only [costs, if_true, ih]
      cases event with
      | activity =>
        simp [SizeEvent.cost, SizeEvent.lastWanted, wantedSizes, activities, failures]
        omega
      | failed failedId =>
        by_cases hb : failedId = bufferId
        · simp [SizeEvent.cost, SizeEvent.lastWanted, wantedSizes, activities, failures, hb]
          omega
        · simp [SizeEvent.cost, SizeEvent.lastWanted, wantedSizes, activities, failures, hb]
      | sync input =>
        rcases hwanted : input.wanted bufferId with _ | wanted
        · simp [SizeEvent.cost, SizeEvent.lastWanted, wantedSizes, activities, failures, hwanted]
        · have hchange := changes_cons last wanted (wantedSizes actor bufferId events)
          simp only [SizeEvent.cost, SizeEvent.lastWanted, wantedSizes, activities, failures, hwanted,
            Option.map_some, Option.getD_some, Option.some_or, Option.toList_some,
            List.singleton_append, List.filterMap_cons, List.countP_cons, if_true] at hchange ⊢
          simp only [Bool.false_eq_true, if_false, Nat.add_zero]
          omega
    · simp only [costs, hactor, if_false, ih]
      cases event with
      | activity => simp [wantedSizes, activities, failures, hactor]
      | failed failedId => simp [wantedSizes, activities, failures, hactor]
      | sync input => simp [wantedSizes, activities, failures, hactor]

/-! ### Idle clients -/

section Idle

variable {want : ClientId → PtySize}

theorem Idle.tail {entry : ClientId × SizeEvent} {events : List (ClientId × SizeEvent)}
    (h : Idle bufferId want (entry :: events)) : Idle bufferId want events :=
  fun other hother ↦ h other (List.mem_cons_of_mem _ hother)

/-- A sync that lays the buffer out as before costs nothing. -/
theorem Idle.head {actor : ClientId} {event : SizeEvent} {events : List (ClientId × SizeEvent)}
    (h : Idle bufferId want ((actor, event) :: events)) :
    event.cost bufferId (some (want actor)) = 0 ∧
      event.lastWanted bufferId (some (want actor)) = some (want actor) := by
  obtain ⟨input, rfl, hwant⟩ := h _ List.mem_cons_self
  rcases hwanted : input.wanted bufferId with _ | wanted
  · simp [SizeEvent.cost, SizeEvent.lastWanted, hwanted]
  · have heq : wanted = want actor := hwant wanted hwanted
    simp [SizeEvent.cost, SizeEvent.lastWanted, hwanted, heq, changeOf]

theorem idle_costs (events : List (ClientId × SizeEvent)) (h : Idle bufferId want events) :
    costs clientId bufferId (some (want clientId)) events = 0 := by
  induction events with
  | nil => rfl
  | cons entry events ih =>
    obtain ⟨actor, event⟩ := entry
    by_cases hactor : actor = clientId
    · subst hactor
      obtain ⟨hcost, hlast⟩ := h.head
      rw [costs, if_pos rfl, hcost, hlast, ih h.tail]
    · rw [costs, if_neg hactor, ih h.tail]

/-- Once a client has sent a request there is nothing left to send another for. -/
theorem idle_sends_le_one (events : List (ClientId × SizeEvent))
    (hknown : Knows clientId bufferId events) (h : Idle bufferId want events) :
    ∀ clients : SizeClients, sends clientId bufferId clients events ≤ 1 := by
  induction events with
  | nil => intro clients; exact Nat.zero_le _
  | cons entry events ih =>
    intro clients
    obtain ⟨actor, event⟩ := entry
    have hrest := ih hknown.tail h.tail
      (Function.update clients actor ((clients actor).step event).1)
    by_cases hactor : actor = clientId
    · subst hactor
      obtain ⟨-, hlast⟩ := h.head
      have hstep := step_pays (clients actor) event
        (fun i hi ↦ hknown i (hi ▸ List.mem_cons_self)) (some (want actor))
      rw [hlast] at hstep
      simp only [sends, if_true]
      rcases hstep.once with hnone | ⟨hone, hcredit⟩
      · rw [hnone, Nat.zero_add]
        exact hrest
      · have hlater := sends_le events hknown.tail
          (Function.update clients actor ((clients actor).step event).1) (some (want actor))
        rw [Function.update_self, hcredit, idle_costs events h.tail] at hlater
        omega
    · simp only [sends, hactor, if_false, Nat.zero_add]
      exact hrest

end Idle

/-- In every run of any number of clients, a client sends at most one request for a buffer beyond
the changes of its own wanted size, its user's inputs and its failed requests. Once the clients are
idle, a client sends at most one more however long the run goes on, and none if it has recorded the
size it wants and has nothing to send again. -/
theorem resizes_bounded (clientId : ClientId) (bufferId : BufferId)
    (events idle : List (ClientId × SizeEvent))
    (hknown : Knows clientId bufferId (events ++ idle)) :
    sends clientId bufferId new events ≤
        1 + changes (wantedSizes clientId bufferId events) + activities clientId events +
          failures clientId bufferId events ∧
      ∀ want : ClientId → PtySize, Idle bufferId want idle →
        sends clientId bufferId (after new events) idle ≤ 1 ∧
          ((after new events clientId).Settled bufferId (want clientId) →
            sends clientId bufferId (after new events) idle = 0) := by
  have hpast : Knows clientId bufferId events := fun i hi ↦
    hknown i (List.mem_append_left _ hi)
  have hidle : Knows clientId bufferId idle := fun i hi ↦
    hknown i (List.mem_append_right _ hi)
  refine ⟨?_, fun want h ↦ ⟨idle_sends_le_one idle hidle h _, fun hsettled ↦ ?_⟩⟩
  · have hsends := sends_le events hpast new none
    have hcredit : (new clientId).credit bufferId none = 1 := by
      simp [SizeClients.new, PtySizeSync.new, credit]
    rw [hcredit, costs_eq] at hsends
    simp only [Option.toList_none, List.nil_append] at hsends
    omega
  · have hsends := sends_le idle hidle (after new events) (some (want clientId))
    rw [credit_eq_zero hsettled, idle_costs idle h] at hsends
    omega

/-- One buffer drawn at 100 by 30, while the server reports 80 by 24. -/
def sampleInput (now : ℕ) : SyncInput where
  now := now
  buffers := (∅ : Table BufferId BufferRecord).insert 1 ⟨.pty, .running, .new 80 24⟩
  leaves := [⟨1, ⟨100, 30⟩⟩]
  cell := none
  distinct := List.pairwise_singleton _ _

/-- A first sync, a failed request, and its retry once it is due. -/
def retried : List (ClientId × SizeEvent) :=
  [(1, .sync (sampleInput 0)), (1, .failed 1), (1, .sync (sampleInput 1000))]

theorem resizes_bounded_retried :
    sends 1 1 new retried = 2 ∧
      sends 1 1 new retried ≤
        1 + changes (wantedSizes 1 1 retried) + activities 1 retried + failures 1 1 retried := by
  refine ⟨by decide +kernel, (resizes_bounded 1 1 retried [] ?_).1⟩
  intro i hi
  simp only [retried, List.append_nil, List.mem_cons, Prod.mk.injEq, true_and, SizeEvent.sync.injEq,
    reduceCtorEq, List.not_mem_nil, or_false, false_or] at hi
  rcases hi with rfl | rfl
  · decide +kernel
  · decide +kernel

end SizeClients

end Embers
