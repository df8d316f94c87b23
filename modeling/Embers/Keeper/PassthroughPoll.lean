import Embers.Keeper.PassthroughQueue

/-!
# The poller of passthrough writes

A server that attaches to a keeper polls it. A poll asks for the status, which names the number of
the latest write pushed; if that is above the poller's cursor it fetches batches from the cursor on
until it has reached the number, and then hands over what it fetched and advances the cursor. The
keeper pushes at any time, between two requests of one poll as well, so `PollStep` is one push or
one request.

## The accounting

`Poll.upto` is the number up to which a poll has decided: the cursor between two polls, the last
write fetched during one, and the cursor it will set once it is done. Every write pushed after the
poller attached and numbered up to `upto` is delivered, in hand or dropped by the queue; the queue
holds none of them. That is the invariant, `Poll.Accounted`, and it says that advancing the cursor
over a number never skips a write.
-/

namespace Embers

/-- Where the poller stands. -/
inductive PollPhase where
  /-- Between two polls. -/
  | idle
  /-- Fetching until the status's number `latest` is reached, with `after` the number reached. -/
  | fetching (latest after : ℕ) (writes : List KeeperPassthrough)
  /-- Every batch is fetched, and the writes are to be handed over. -/
  | fetched (latest : ℕ) (writes : List KeeperPassthrough)
  /-- No poller is attached: none was yet, or a request failed, or it was stopped. -/
  | ended
  deriving DecidableEq, Repr

/-- A keeper's queue and the poller of the server attached to it. The last four fields are history:
the writes pushed and dropped so far, the number of the last write when the poller attached, and
what it has handed over. -/
structure Poll where
  queue : PassthroughQueue
  phase : PollPhase
  /-- `last_passthrough`. -/
  cursor : ℕ
  pushed : List KeeperPassthrough
  evicted : List KeeperPassthrough
  attachedAt : ℕ
  delivered : List KeeperPassthrough

namespace Poll

def new : Poll := ⟨.new, .ended, 0, [], [], 0, []⟩

/-- The number of the last write, or `0`. -/
def lastNumber (writes : List KeeperPassthrough) : ℕ :=
  (writes.getLast?.map (·.sequence)).getD 0

/-- The cursor after a poll that fetched the writes. -/
def nextCursor (p : Poll) (latest : ℕ) (writes : List KeeperPassthrough) : ℕ :=
  max (max (lastNumber writes) latest) p.cursor

def push (p : Poll) (write : PassthroughWrite) : Poll :=
  { p with
    queue := p.queue.push write
    pushed := p.pushed ++ [p.queue.numbered write]
    evicted := p.evicted ++ p.queue.droppedBy write }

/-- The status at attach seeds the cursor. -/
def attach (p : Poll) : Poll :=
  { p with
    phase := .idle
    cursor := p.queue.lastSequence
    attachedAt := p.queue.lastSequence
    delivered := [] }

/-- The status of a poll: it fetches only if the number is above the cursor. -/
def status (p : Poll) : Poll :=
  let latest := p.queue.lastSequence
  if latest > p.cursor then { p with phase := .fetching latest p.cursor [] }
  else { p with phase := .fetched latest [] }

/-- One turn of the loop of `passthrough_since`. -/
def fetch (p : Poll) (latest after : ℕ) (writes : List KeeperPassthrough) : Poll :=
  let (batch, queue) := p.queue.takeAfter after
  match batch.getLast? with
  | none => { p with queue, phase := .fetched latest writes }
  | some last =>
    { p with
      queue
      phase :=
        if last.sequence < latest then .fetching latest last.sequence (writes ++ batch)
        else .fetched latest (writes ++ batch) }

/-- The end of a poll. -/
def deliver (p : Poll) (latest : ℕ) (writes : List KeeperPassthrough) : Poll :=
  { p with
    phase := .idle
    cursor := p.nextCursor latest writes
    delivered := p.delivered ++ writes }

/-- A fetch whose answer is lost: the keeper took the writes out, and the poller ends. -/
def lose (p : Poll) (after : ℕ) : Poll :=
  { p with queue := (p.queue.takeAfter after).2, phase := .ended }

end Poll

/-- One push, or one request of a poll. -/
inductive PollStep : Poll → Poll → Prop where
  | push (p : Poll) (write : PassthroughWrite) : PollStep p (p.push write)
  | attach (p : Poll) (hp : p.phase = .ended) : PollStep p p.attach
  | status (p : Poll) (hp : p.phase = .idle) : PollStep p p.status
  | fetch (p : Poll) {latest after : ℕ} {writes : List KeeperPassthrough}
      (hp : p.phase = .fetching latest after writes) : PollStep p (p.fetch latest after writes)
  | deliver (p : Poll) {latest : ℕ} {writes : List KeeperPassthrough}
      (hp : p.phase = .fetched latest writes) : PollStep p (p.deliver latest writes)
  /-- A request that does not reach the keeper, or a poller told to stop. -/
  | stop (p : Poll) : PollStep p { p with phase := .ended }
  | lose (p : Poll) {latest after : ℕ} {writes : List KeeperPassthrough}
      (hp : p.phase = .fetching latest after writes) : PollStep p (p.lose after)

namespace Poll

/-- Every state of a keeper and its pollers, one after another. -/
def Reachable (p : Poll) : Prop := Relation.ReflTransGen PollStep new p

/-! ## The invariant -/

/-- The writes fetched and not handed over. -/
def inHand (p : Poll) : List KeeperPassthrough :=
  match p.phase with
  | .fetching _ _ writes => writes
  | .fetched _ writes => writes
  | _ => []

/-- The number up to which the poller has decided. -/
def upto (p : Poll) : ℕ :=
  match p.phase with
  | .fetching _ after _ => after
  | .fetched latest writes => p.nextCursor latest writes
  | _ => p.cursor

/-- What the queue alone keeps: its entries are the latest of the writes pushed, its byte count is
theirs, and what it dropped is older than what it holds. -/
structure Queued (p : Poll) : Prop where
  numbered : p.pushed.map (·.sequence) = List.range' 1 p.queue.lastSequence
  bytes : p.queue.bytes = PassthroughQueue.size p.queue.entries
  latest : p.queue.entries <:+ p.pushed
  evicted_pushed : ∀ e ∈ p.evicted, e ∈ p.pushed
  evicted_lt : ∀ e ∈ p.evicted, ∀ x ∈ p.queue.entries, e.sequence < x.sequence

/-- What the poller has done with the writes up to `upto`. -/
structure Accounted (p : Poll) : Prop where
  attached_le : p.attachedAt ≤ p.cursor
  cursor_le : p.cursor ≤ p.upto
  upto_le : p.upto ≤ p.queue.lastSequence
  sorted : (p.delivered ++ p.inHand).Pairwise (·.sequence < ·.sequence)
  taken_pushed : ∀ e ∈ p.delivered ++ p.inHand, e ∈ p.pushed
  taken_gt : ∀ e ∈ p.delivered ++ p.inHand, p.attachedAt < e.sequence
  taken_le : ∀ e ∈ p.delivered ++ p.inHand, e.sequence ≤ p.upto
  delivered_le : ∀ e ∈ p.delivered, e.sequence ≤ p.cursor
  inHand_gt : ∀ e ∈ p.inHand, p.cursor < e.sequence
  queue_gt : ∀ e ∈ p.queue.entries, e.sequence ≤ p.attachedAt ∨ p.upto < e.sequence
  decided : ∀ e ∈ p.pushed, p.attachedAt < e.sequence → e.sequence ≤ p.upto →
    e ∈ p.delivered ++ p.inHand ∨ e ∈ p.evicted
  disjoint : ∀ e ∈ p.evicted, e ∉ p.delivered ++ p.inHand
  /-- During a poll the loop has further to go, and what it holds reaches to `after`. -/
  fetching : ∀ latest after writes, p.phase = .fetching latest after writes →
    after < latest ∧ latest ≤ p.queue.lastSequence ∧ lastNumber writes ≤ after
  /-- While a poller is attached, nothing above what it has decided is lost. -/
  held : p.phase ≠ .ended → ∀ e ∈ p.pushed, p.upto < e.sequence →
    e ∈ p.queue.entries ∨ e ∈ p.evicted

variable {p p' : Poll}

theorem Queued.sorted (h : p.Queued) : p.pushed.Pairwise (·.sequence < ·.sequence) := by
  have hrange : (p.pushed.map (·.sequence)).Pairwise (· < ·) := by
    rw [h.numbered]
    exact List.pairwise_lt_range' 1 Nat.one_pos
  exact List.pairwise_map.mp hrange

theorem Queued.le_last (h : p.Queued) {e : KeeperPassthrough} (he : e ∈ p.pushed) :
    e.sequence ≤ p.queue.lastSequence := by
  have hmem : e.sequence ∈ p.pushed.map (·.sequence) := List.mem_map_of_mem he
  rw [h.numbered, List.mem_range'_1] at hmem
  omega

theorem Queued.entries_pushed (h : p.Queued) {e : KeeperPassthrough}
    (he : e ∈ p.queue.entries) : e ∈ p.pushed :=
  h.latest.mem he

/-- The queue after a push, however much of it the push drops. -/
theorem Queued.push (h : p.Queued) (write : PassthroughWrite) : (p.push write).Queued := by
  obtain ⟨hentries, hbytes⟩ := p.queue.push_entries write h.bytes
  have hlatest : p.queue.entries ++ [p.queue.numbered write] <:+
      p.pushed ++ [p.queue.numbered write] := by
    obtain ⟨older, holder⟩ := h.latest
    exact ⟨older, by rw [← holder, List.append_assoc]⟩
  refine ⟨?_, hbytes, ?_, ?_, ?_⟩
  · simp [Poll.push, h.numbered, List.range'_concat, PassthroughQueue.numbered, Nat.add_comm]
  · refine List.IsSuffix.trans ?_ hlatest
    rw [← hentries]
    exact List.suffix_append _ _
  · intro e he
    rcases List.mem_append.mp he with he | he
    · exact List.mem_append_left _ (h.evicted_pushed e he)
    · refine hlatest.mem ?_
      rw [← hentries]
      exact List.mem_append_left _ he
  · intro e he x hx
    have hsorted : (p.pushed ++ [p.queue.numbered write]).Pairwise (·.sequence < ·.sequence) := by
      refine List.pairwise_append.mpr ⟨h.sorted, List.pairwise_singleton _ _, ?_⟩
      intro y hy z hz
      have hle := h.le_last hy
      rw [List.mem_singleton.mp hz]
      exact Nat.lt_succ_of_le hle
    have hnew : x ∈ p.queue.entries ++ [p.queue.numbered write] := by
      rw [← hentries]
      exact List.mem_append_right _ hx
    rcases List.mem_append.mp he with he | he
    · rcases List.mem_append.mp hnew with hold | hnew
      · exact h.evicted_lt e he x hold
      · rw [List.mem_singleton.mp hnew]
        exact Nat.lt_succ_of_le (h.le_last (h.evicted_pushed e he))
    · have hpair := hsorted.sublist hlatest.sublist
      rw [← hentries] at hpair
      exact (List.pairwise_append.mp hpair).2.2 e he x hx

/-- A fetch takes from the front, so what is left is still the latest. -/
theorem Queued.take (h : p.Queued) (after : ℕ) (phase : PollPhase) :
    Queued { p with queue := (p.queue.takeAfter after).2, phase } := by
  obtain ⟨front, hfront, -, hbytes, -⟩ := p.queue.takeAfter_entries after h.bytes
  have hsuffix : (p.queue.takeAfter after).2.entries <:+ p.queue.entries := ⟨front, hfront.symm⟩
  refine ⟨h.numbered, hbytes, hsuffix.trans h.latest, h.evicted_pushed, ?_⟩
  intro e he x hx
  exact h.evicted_lt e he x (hsuffix.mem hx)

/-- A turn of the loop ends it with an empty batch, or goes on from the last write of the batch. -/
theorem fetch_cases (p : Poll) (latest after : ℕ) (writes : List KeeperPassthrough) :
    ((p.queue.takeAfter after).1 = [] ∧ p.fetch latest after writes =
        { p with queue := (p.queue.takeAfter after).2, phase := .fetched latest writes }) ∨
      ∃ last, (p.queue.takeAfter after).1.getLast? = some last ∧ p.fetch latest after writes =
        { p with
          queue := (p.queue.takeAfter after).2
          phase :=
            if last.sequence < latest then
              .fetching latest last.sequence (writes ++ (p.queue.takeAfter after).1)
            else .fetched latest (writes ++ (p.queue.takeAfter after).1) } := by
  rcases hlast : (p.queue.takeAfter after).1.getLast? with _ | last
  · left
    refine ⟨List.getLast?_eq_none_iff.mp hlast, ?_⟩
    simp only [fetch, hlast]
  · right
    refine ⟨last, rfl, ?_⟩
    simp only [fetch, hlast]

theorem Queued.step (h : p.Queued) (hs : PollStep p p') : p'.Queued := by
  have hsame : ∀ phase cursor attachedAt delivered,
      Queued { p with phase, cursor, attachedAt, delivered } := fun _ _ _ _ ↦
    ⟨h.numbered, h.bytes, h.latest, h.evicted_pushed, h.evicted_lt⟩
  cases hs with
  | push write => exact h.push write
  | attach hp => exact hsame _ _ _ _
  | status hp =>
    rw [status]
    split
    all_goals exact hsame _ _ _ _
  | fetch hp =>
    rcases p.fetch_cases _ _ _ with ⟨-, hfetch⟩ | ⟨last, -, hfetch⟩
    all_goals
      rw [hfetch]
      exact h.take _ _
  | deliver hp => exact hsame _ _ _ _
  | stop => exact hsame _ _ _ _
  | lose hp => exact h.take _ _

/-! ## One step -/

/-- A push adds a write that is above all the poller knows of. -/
theorem Accounted.push (h : p.Accounted) (hq : p.Queued) (write : PassthroughWrite) :
    (p.push write).Accounted := by
  obtain ⟨hentries, -⟩ := p.queue.push_entries write hq.bytes
  have hnew : (p.queue.numbered write).sequence = p.queue.lastSequence + 1 := rfl
  have hupto : (p.push write).upto = p.upto := rfl
  have hhand : (p.push write).inHand = p.inHand := rfl
  have hdropped : ∀ e ∈ p.queue.droppedBy write, e ∈ p.queue.entries ++ [p.queue.numbered write] := by
    intro e he
    rw [← hentries]
    exact List.mem_append_left _ he
  -- what the queue holds or drops is never among the writes taken
  have hfresh : ∀ e ∈ p.queue.entries ++ [p.queue.numbered write],
      e.sequence ≤ p.attachedAt ∨ p.upto < e.sequence := by
    intro e he
    rcases List.mem_append.mp he with he | he
    · exact h.queue_gt e he
    · rw [List.mem_singleton.mp he, hnew]
      exact Or.inr (Nat.lt_succ_of_le h.upto_le)
  refine ⟨h.attached_le, h.cursor_le, ?_, h.sorted, ?_, h.taken_gt, h.taken_le, h.delivered_le,
    h.inHand_gt, ?_, ?_, ?_, ?_, ?_⟩
  · rw [hupto]
    exact Nat.le_succ_of_le h.upto_le
  · intro e he
    exact List.mem_append_left _ (h.taken_pushed e he)
  · intro e he
    refine hfresh e ?_
    rw [← hentries]
    exact List.mem_append_right _ he
  · intro e he hattached hle
    rcases List.mem_append.mp he with he | he
    · exact (h.decided e he hattached hle).imp_right fun he ↦ List.mem_append_left _ he
    · have := h.upto_le
      rw [List.mem_singleton.mp he, hnew, hupto] at hle
      omega
  · intro e he htaken
    rcases List.mem_append.mp he with he | he
    · exact h.disjoint e he htaken
    · have hgt := h.taken_gt e htaken
      have hle := h.taken_le e htaken
      have := hfresh e (hdropped e he)
      omega
  · intro latest after writes hp
    obtain ⟨hlt, hlast, hnumber⟩ := h.fetching latest after writes hp
    exact ⟨hlt, Nat.le_succ_of_le hlast, hnumber⟩
  · intro hp e he hgt
    have hkept : e ∈ p.queue.entries ++ [p.queue.numbered write] ∨ e ∈ p.evicted := by
      rcases List.mem_append.mp he with he | he
      · exact (h.held hp e he hgt).imp_left fun he ↦ List.mem_append_left _ he
      · exact Or.inl (List.mem_append_right _ he)
    rcases hkept with hkept | hkept
    · rw [← hentries] at hkept
      rcases List.mem_append.mp hkept with hdrop | hkept
      · exact Or.inr (List.mem_append_right _ hdrop)
      · exact Or.inl hkept
    · exact Or.inr (List.mem_append_left _ hkept)

theorem Accounted.attach (hq : p.Queued) : p.attach.Accounted := by
  have hupto : p.attach.upto = p.queue.lastSequence := rfl
  have hat : p.attach.attachedAt = p.queue.lastSequence := rfl
  have hle : ∀ e ∈ p.pushed, e.sequence ≤ p.queue.lastSequence := fun e he ↦ hq.le_last he
  refine ⟨le_rfl, le_rfl, le_rfl, List.Pairwise.nil, ?_, ?_, ?_, ?_, ?_, ?_, ?_, ?_, ?_, ?_⟩
  · intro e he; exact absurd he List.not_mem_nil
  · intro e he; exact absurd he List.not_mem_nil
  · intro e he; exact absurd he List.not_mem_nil
  · intro e he; exact absurd he List.not_mem_nil
  · intro e he; exact absurd he List.not_mem_nil
  · intro e he
    exact Or.inl (hle e (hq.entries_pushed he))
  · intro e he hgt _
    have := hle e he
    rw [hat] at hgt
    omega
  · intro e _ he; exact absurd he List.not_mem_nil
  · intro latest after writes hp; cases hp
  · intro _ e he hgt
    have := hle e he
    rw [hupto] at hgt
    omega

theorem Accounted.status (h : p.Accounted) (hp : p.phase = .idle) : p.status.Accounted := by
  have hhand : p.inHand = [] := by simp [inHand, hp]
  have hupto : p.upto = p.cursor := by simp [upto, hp]
  have hlast := h.upto_le
  -- whether or not it fetches, the poll starts with nothing in hand at the cursor
  have hsame : p.status.inHand = p.inHand ∧ p.status.upto = p.upto ∧ p.status.phase ≠ .ended ∧
      ∃ phase, p.status = { p with phase } := by
    rw [Poll.status]
    split
    · exact ⟨hhand.symm, hupto.symm, by simp, _, rfl⟩
    · have hnext : max (max 0 p.queue.lastSequence) p.cursor = p.cursor := by omega
      exact ⟨hhand.symm, by simpa [upto, nextCursor, lastNumber, hp] using hnext, by simp, _, rfl⟩
  obtain ⟨hhand', hupto', -, phase, hstatus⟩ := hsame
  rw [hstatus] at hhand' hupto'
  have hfetching : ∀ latest after writes, phase = .fetching latest after writes →
      after < latest ∧ latest ≤ p.queue.lastSequence ∧ lastNumber writes ≤ after := by
    intro latest after writes hphase
    have hs : p.status.phase = .fetching latest after writes := by rw [hstatus, hphase]
    rw [Poll.status] at hs
    split at hs
    · cases hs
      exact ⟨by assumption, le_rfl, Nat.zero_le _⟩
    · cases hs
  rw [hstatus]
  refine ⟨h.attached_le, ?_, ?_, ?_, ?_, ?_, ?_, h.delivered_le, ?_, ?_, ?_, ?_, hfetching, ?_⟩
  all_goals simp only [hhand', hupto']
  · exact h.cursor_le
  · exact h.upto_le
  · exact h.sorted
  · exact h.taken_pushed
  · exact h.taken_gt
  · exact h.taken_le
  · exact h.inHand_gt
  · exact h.queue_gt
  · exact h.decided
  · exact h.disjoint
  · intro _
    exact h.held (by simp [hp])

/-- Advancing the cursor hands over what was in hand. -/
theorem Accounted.deliver (h : p.Accounted) {latest : ℕ} {writes : List KeeperPassthrough}
    (hp : p.phase = .fetched latest writes) : (p.deliver latest writes).Accounted := by
  have hhand : p.inHand = writes := by simp [inHand, hp]
  have hupto : p.upto = p.nextCursor latest writes := by simp [upto, hp]
  have htaken : (p.deliver latest writes).delivered ++ (p.deliver latest writes).inHand =
      p.delivered ++ p.inHand := by
    rw [hhand]
    exact List.append_nil _
  have hupto' : (p.deliver latest writes).upto = p.upto := hupto.symm
  refine ⟨?_, le_rfl, ?_, ?_, ?_, ?_, ?_, ?_, ?_, ?_, ?_, ?_, ?_, ?_⟩
  all_goals try simp only [htaken, hupto']
  · exact (h.attached_le.trans h.cursor_le).trans_eq hupto
  · exact h.upto_le
  · exact h.sorted
  · exact h.taken_pushed
  · exact h.taken_gt
  · exact h.taken_le
  · intro e he
    have hle := h.taken_le e (by rw [hhand]; exact he)
    exact hle.trans_eq hupto
  · intro e he
    exact absurd he List.not_mem_nil
  · exact h.queue_gt
  · exact h.decided
  · exact h.disjoint
  · intro latest after writes hphase
    cases hphase
  · intro _
    exact h.held (by simp [hp])

/-- A poller that ends leaves its cursor where it was, whatever the keeper has taken out for it. -/
theorem Accounted.ended (h : p.Accounted) {queue : PassthroughQueue}
    (hlast : queue.lastSequence = p.queue.lastSequence)
    (hsub : ∀ e ∈ queue.entries, e ∈ p.queue.entries) :
    Accounted { p with queue, phase := .ended } := by
  have hdelivered : ∀ e ∈ p.delivered, e ∈ p.delivered ++ p.inHand := fun e he ↦
    List.mem_append_left _ he
  refine ⟨h.attached_le, le_rfl, ?_, ?_, ?_, ?_, ?_, h.delivered_le, ?_, ?_, ?_, ?_, ?_, ?_⟩
  all_goals simp only [inHand, upto, List.append_nil]
  · exact hlast ▸ h.cursor_le.trans h.upto_le
  · exact h.sorted.sublist (List.sublist_append_left _ _)
  · intro e he
    exact h.taken_pushed e (hdelivered e he)
  · intro e he
    exact h.taken_gt e (hdelivered e he)
  · exact h.delivered_le
  · intro e he
    exact absurd he List.not_mem_nil
  · intro e he
    exact (h.queue_gt e (hsub e he)).imp_right fun hgt ↦ h.cursor_le.trans_lt hgt
  · intro e he hgt hle
    -- nothing that was in hand is numbered up to the cursor
    rcases h.decided e he hgt (hle.trans h.cursor_le) with htaken | hevicted
    · rcases List.mem_append.mp htaken with hdone | hhand
      · exact Or.inl hdone
      · exact absurd (h.inHand_gt e hhand) (Nat.not_lt.mpr hle)
    · exact Or.inr hevicted
  · intro e he htaken
    exact h.disjoint e he (hdelivered e htaken)
  · intro latest after writes hphase
    cases hphase
  · intro hne
    exact absurd rfl hne

section Fetch

variable {latest after : ℕ} {writes : List KeeperPassthrough}

/-- An empty batch ends the poll: nothing is left in the queue, so what is missing up to the number
of the status was dropped. -/
theorem Accounted.fetch_empty (h : p.Accounted) (hq : p.Queued)
    (hp : p.phase = .fetching latest after writes) (hbatch : (p.queue.takeAfter after).1 = []) :
    Accounted { p with queue := (p.queue.takeAfter after).2, phase := .fetched latest writes } := by
  obtain ⟨front, hfront, htake, -, hempty⟩ := p.queue.takeAfter_entries after hq.bytes
  obtain ⟨hlt, hlast, hnumber⟩ := h.fetching latest after writes hp
  have hhand : writes = p.inHand := by simp [inHand, hp]
  have hupto : p.upto = after := by simp [upto, hp]
  have hcursor : p.cursor ≤ after := hupto ▸ h.cursor_le
  subst hhand
  have hnext : p.nextCursor latest p.inHand = latest := by
    rw [nextCursor]
    omega
  have hupto' : Poll.upto { p with
      queue := (p.queue.takeAfter after).2, phase := .fetched latest p.inHand } = latest := hnext
  have hgone : ∀ e ∈ p.queue.entries, ¬after < e.sequence := by
    intro e he hgt
    rw [hfront, hempty hbatch, List.append_nil] at he
    have hmem : e ∈ front.filter (after < ·.sequence) := List.mem_filter.mpr ⟨he, by simpa using hgt⟩
    rw [← htake, hbatch] at hmem
    exact absurd hmem List.not_mem_nil
  refine ⟨h.attached_le, ?_, ?_, ?_, ?_, ?_, ?_, h.delivered_le, ?_, ?_, ?_, ?_, ?_, ?_⟩
  all_goals try simp only [hupto']
  · exact hcursor.trans hlt.le
  · exact hlast
  · exact h.sorted
  · exact h.taken_pushed
  · exact h.taken_gt
  · intro e he
    have hle := h.taken_le e he
    omega
  · exact h.inHand_gt
  · intro e he
    rw [hempty hbatch] at he
    exact absurd he List.not_mem_nil
  · intro e he hgt hle
    by_cases hold : e.sequence ≤ after
    · exact h.decided e he hgt (hupto ▸ hold)
    · have hheld := h.held (by simp [hp]) e he (by omega)
      exact hheld.elim (fun hmem ↦ absurd (Nat.lt_of_not_le hold) (hgone e hmem)) Or.inr
  · exact h.disjoint
  · intro latest' after' writes' hphase
    cases hphase
  · intro _ e he hgt
    have hheld := h.held (by simp [hp]) e he (by omega)
    exact hheld.elim (fun hmem ↦ absurd (by omega) (hgone e hmem)) Or.inr

/-- A batch goes on from its last write: the queue holds nothing between what was reached and that,
and what it still holds is above. -/
theorem Accounted.fetch_batch (h : p.Accounted) (hq : p.Queued)
    (hp : p.phase = .fetching latest after writes) {last : KeeperPassthrough}
    (hbatch : (p.queue.takeAfter after).1.getLast? = some last) {phase : PollPhase}
    (hphase : phase = if last.sequence < latest then
        .fetching latest last.sequence (writes ++ (p.queue.takeAfter after).1)
      else .fetched latest (writes ++ (p.queue.takeAfter after).1)) :
    Accounted { p with queue := (p.queue.takeAfter after).2, phase } := by
  obtain ⟨front, hfront, htake, -, -⟩ := p.queue.takeAfter_entries after hq.bytes
  obtain ⟨hlt, hlast, hnumber⟩ := h.fetching latest after writes hp
  have hupto : p.upto = after := by simp [upto, hp]
  have hcursor : p.cursor ≤ after := hupto ▸ h.cursor_le
  have hattached := h.attached_le
  have hhand : writes = p.inHand := by simp [inHand, hp]
  subst hhand
  set batch := (p.queue.takeAfter after).1 with hb
  set rest := (p.queue.takeAfter after).2.entries with hr
  have hsorted : (front ++ rest).Pairwise (·.sequence < ·.sequence) :=
    hfront ▸ hq.sorted.sublist hq.latest.sublist
  have hbatchMem : ∀ e, e ∈ batch ↔ e ∈ front ∧ after < e.sequence := by
    intro e
    rw [htake, List.mem_filter]
    simp
  have hlastMem : last ∈ batch := List.mem_of_getLast? hbatch
  have hfrontMem : ∀ e ∈ front, e ∈ p.queue.entries := fun e he ↦
    hfront ▸ List.mem_append_left _ he
  have hbatchLe : ∀ e ∈ batch, e.sequence ≤ last.sequence := by
    intro e he
    obtain ⟨init, hinit⟩ := List.getLast?_eq_some_iff.mp hbatch
    have hpair : batch.Pairwise (·.sequence < ·.sequence) := by
      rw [htake]
      exact (List.pairwise_append.mp hsorted).1.filter _
    rw [hinit] at hpair he
    rcases List.mem_append.mp he with he | he
    · exact ((List.pairwise_append.mp hpair).2.2 e he last (List.mem_singleton_self _)).le
    · exact (List.mem_singleton.mp he ▸ le_rfl)
  have hrestGt : ∀ e ∈ rest, last.sequence < e.sequence := by
    intro e he
    exact (List.pairwise_append.mp hsorted).2.2 last ((hbatchMem last).mp hlastMem).1 e he
  have hgt : after < last.sequence := ((hbatchMem last).mp hlastMem).2
  have hnumber' : lastNumber (p.inHand ++ batch) = last.sequence := by
    simp [lastNumber, List.getLast?_append, hbatch]
  -- in both outcomes the poll has the same writes in hand, decided up to the last of them
  have hnew : (Poll.inHand { p with queue := (p.queue.takeAfter after).2, phase }) =
        p.inHand ++ batch ∧
      Poll.upto { p with queue := (p.queue.takeAfter after).2, phase } = last.sequence := by
    rw [hphase]
    by_cases hmore : last.sequence < latest
    · rw [if_pos hmore]
      exact ⟨rfl, rfl⟩
    · have hnext : max (max (lastNumber (p.inHand ++ batch)) latest) p.cursor = last.sequence := by
        omega
      rw [if_neg hmore]
      exact ⟨rfl, hnext⟩
  obtain ⟨hhand, hupto'⟩ := hnew
  refine ⟨h.attached_le, ?_, ?_, ?_, ?_, ?_, ?_, h.delivered_le, ?_, ?_, ?_, ?_, ?_, ?_⟩
  all_goals try simp only [hhand, hupto', ← List.append_assoc]
  · omega
  · exact hq.le_last (hq.entries_pushed (hfrontMem _ ((hbatchMem last).mp hlastMem).1))
  · refine List.pairwise_append.mpr ⟨h.sorted, ?_, ?_⟩
    · rw [htake]
      exact (List.pairwise_append.mp hsorted).1.filter _
    · intro x hx y hy
      have hle := h.taken_le x hx
      have hlt := ((hbatchMem y).mp hy).2
      omega
  · intro e he
    rcases List.mem_append.mp he with he | he
    · exact h.taken_pushed e he
    · exact hq.entries_pushed (hfrontMem e ((hbatchMem e).mp he).1)
  · intro e he
    rcases List.mem_append.mp he with he | he
    · exact h.taken_gt e he
    · have hlt := ((hbatchMem e).mp he).2
      change p.attachedAt < _
      omega
  · intro e he
    rcases List.mem_append.mp he with he | he
    · have hle := h.taken_le e he
      omega
    · exact hbatchLe e he
  · intro e he
    rcases List.mem_append.mp he with he | he
    · exact h.inHand_gt e he
    · exact hcursor.trans_lt ((hbatchMem e).mp he).2
  · intro e he
    exact Or.inr (hrestGt e he)
  · intro e he hattached' hle
    by_cases hold : e.sequence ≤ after
    · exact (h.decided e he hattached' (hupto ▸ hold)).imp_left fun hmem ↦ List.mem_append_left _ hmem
    · rcases h.held (by simp [hp]) e he (by omega) with hmem | hevicted
      · rw [hfront] at hmem
        rcases List.mem_append.mp hmem with hmem | hmem
        · exact Or.inl (List.mem_append_right _ ((hbatchMem e).mpr ⟨hmem, by omega⟩))
        · exact absurd (hrestGt e hmem) (Nat.not_lt.mpr hle)
      · exact Or.inr hevicted
  · intro e he htaken
    rcases List.mem_append.mp htaken with htaken | htaken
    · exact h.disjoint e he htaken
    · exact absurd (hq.evicted_lt e he e (hfrontMem e ((hbatchMem e).mp htaken).1)) (lt_irrefl _)
  · intro latest' after' writes' hphase'
    by_cases hmore : last.sequence < latest
    · simp only [hphase, hmore, if_true] at hphase'
      cases hphase'
      exact ⟨hmore, hlast, hnumber'.le⟩
    · simp only [hphase, hmore, if_false] at hphase'
      cases hphase'
  · intro _ e he habove
    rcases h.held (by simp [hp]) e he (by omega) with hmem | hevicted
    · rw [hfront] at hmem
      rcases List.mem_append.mp hmem with hmem | hmem
      · have hle := hbatchLe e ((hbatchMem e).mpr ⟨hmem, by omega⟩)
        omega
      · exact Or.inl hmem
    · exact Or.inr hevicted

end Fetch

theorem Accounted.step (h : p.Accounted) (hq : p.Queued) (hs : PollStep p p') :
    p'.Accounted := by
  cases hs with
  | push write => exact h.push hq write
  | attach hp => exact Accounted.attach hq
  | status hp => exact h.status hp
  | fetch hp =>
    rcases p.fetch_cases _ _ _ with ⟨hbatch, hfetch⟩ | ⟨last, hbatch, hfetch⟩
    · exact hfetch ▸ h.fetch_empty hq hp hbatch
    · exact hfetch ▸ h.fetch_batch hq hp hbatch rfl
  | deliver hp => exact h.deliver hp
  | stop => exact h.ended rfl fun e he ↦ he
  | lose hp =>
    obtain ⟨front, hfront, -⟩ := p.queue.takeAfter_entries _ hq.bytes
    refine h.ended rfl fun e he ↦ ?_
    rw [hfront]
    exact List.mem_append_right _ he

/-! ## Every run -/

theorem queued_new : new.Queued := by
  refine ⟨rfl, rfl, List.suffix_rfl, ?_, ?_⟩
  · intro e he; exact absurd he List.not_mem_nil
  · intro e he; exact absurd he List.not_mem_nil

theorem accounted_new : new.Accounted :=
  (Accounted.attach queued_new).ended rfl fun _ he ↦ he

theorem Reachable.invariant (h : Reachable p) : p.Queued ∧ p.Accounted := by
  induction h with
  | refl => exact ⟨queued_new, accounted_new⟩
  | tail _ hs ih => exact ⟨ih.1.step hs, ih.2.step ih.1 hs⟩

/-- The last number counts the writes pushed. -/
theorem Queued.lastSequence_eq (h : p.Queued) : p.queue.lastSequence = p.pushed.length := by
  have hlength := congrArg List.length h.numbered
  rwa [List.length_map, List.length_range', eq_comm] at hlength

/-- While fewer than `2⁶⁴` writes have been pushed, every number fits in a `u64`: those of the writes,
the last one, and how far the poller has got. -/
theorem numbers_lt (h : Reachable p) (hpushed : p.pushed.length < 2 ^ 64) :
    p.queue.lastSequence < 2 ^ 64 ∧ (∀ e ∈ p.pushed, e.sequence < 2 ^ 64) ∧ p.attachedAt < 2 ^ 64 ∧
      p.cursor < 2 ^ 64 ∧ p.upto < 2 ^ 64 := by
  obtain ⟨hq, ha⟩ := h.invariant
  have hlast : p.queue.lastSequence < 2 ^ 64 := hq.lastSequence_eq ▸ hpushed
  have hupto := ha.upto_le.trans_lt hlast
  have hcursor := ha.cursor_le.trans_lt hupto
  exact ⟨hlast, fun e he ↦ (hq.le_last he).trans_lt hlast, ha.attached_le.trans_lt hcursor, hcursor, hupto⟩

/-- Strictly increasing numbers, all of them of writes that were pushed: the writes were pushed in
this order, each of them once. -/
theorem Queued.sublist (h : p.Queued) {writes : List KeeperPassthrough}
    (hsorted : writes.Pairwise (·.sequence < ·.sequence)) (hmem : ∀ e ∈ writes, e ∈ p.pushed) :
    writes.Sublist p.pushed := by
  let below : KeeperPassthrough → KeeperPassthrough → Prop := fun x y ↦ x.sequence < y.sequence
  have : Std.Irrefl below := ⟨fun x ↦ lt_irrefl x.sequence⟩
  have : Std.Antisymm below := ⟨fun x y hxy hyx ↦ absurd (hxy.trans hyx) (lt_irrefl x.sequence)⟩
  have hnodup : writes.Nodup := List.Pairwise.nodup (r := below) hsorted
  exact List.sublist_of_subperm_of_pairwise (r := below) (List.subperm_of_subset hnodup hmem)
    hsorted h.sorted

/-- In every run: the poller hands over writes in the order they were pushed and none twice; a write
its cursor has passed was handed over, dropped by the queue before a poll took it, or pushed before
the poller attached, and while the poller lives every other write is in its hands or waiting above
the cursor; a write that was dropped is never handed over; and the byte count of the queue is the
total length of its writes. -/
theorem delivers_once_in_order (h : Reachable p) :
    p.pushed.Pairwise (·.sequence < ·.sequence) ∧ p.delivered.Sublist p.pushed ∧
      (∀ e ∈ p.pushed, e.sequence ≤ p.cursor → e ∉ p.delivered →
        e ∈ p.evicted ∨ e.sequence ≤ p.attachedAt) ∧
      (p.phase ≠ .ended → ∀ e ∈ p.pushed, e ∉ p.delivered →
        e ∈ p.evicted ∨ e.sequence ≤ p.attachedAt ∨ e ∈ p.inHand ∨
          e ∈ p.queue.entries ∧ p.cursor < e.sequence) ∧
      (∀ e ∈ p.evicted, e ∉ p.delivered) ∧
      p.queue.bytes = PassthroughQueue.size p.queue.entries := by
  obtain ⟨hq, ha⟩ := h.invariant
  have hdelivered : ∀ e ∈ p.delivered, e ∈ p.delivered ++ p.inHand := fun e he ↦
    List.mem_append_left _ he
  refine ⟨hq.sorted, ?_, ?_, ?_, ?_, hq.bytes⟩
  · exact hq.sublist (ha.sorted.sublist (List.sublist_append_left _ _))
      fun e he ↦ ha.taken_pushed e (hdelivered e he)
  · intro e he hle hnot
    by_cases hold : e.sequence ≤ p.attachedAt
    · exact Or.inr hold
    · rcases ha.decided e he (by omega) (hle.trans ha.cursor_le) with htaken | hevicted
      · rcases List.mem_append.mp htaken with hdone | hhand
        · exact absurd hdone hnot
        · exact absurd (ha.inHand_gt e hhand) (Nat.not_lt.mpr hle)
      · exact Or.inl hevicted
  · intro hp e he hnot
    by_cases hold : e.sequence ≤ p.attachedAt
    · exact Or.inr (Or.inl hold)
    · by_cases hle : e.sequence ≤ p.upto
      · rcases ha.decided e he (by omega) hle with htaken | hevicted
        · rcases List.mem_append.mp htaken with hdone | hhand
          · exact absurd hdone hnot
          · exact Or.inr (Or.inr (Or.inl hhand))
        · exact Or.inl hevicted
      · rcases ha.held hp e he (by omega) with hwaiting | hevicted
        · exact Or.inr (Or.inr (Or.inr ⟨hwaiting, by have := ha.cursor_le; omega⟩))
        · exact Or.inl hevicted
  · intro e he hmem
    exact ha.disjoint e he (hdelivered e hmem)

/-- A keeper whose program sends a write before a server attaches and one after, polled once. -/
def polledOnce : Poll :=
  let attached := (new.push ⟨[0x41], ⟨0, 0⟩⟩).attach
  let asked := (attached.push ⟨[0x42, 0x43], ⟨0, 1⟩⟩).status
  (asked.fetch 2 1 []).deliver 2 [⟨2, [0x42, 0x43], ⟨0, 1⟩⟩]

theorem polledOnce_reachable : Reachable polledOnce := by
  refine .tail (.tail (.tail (.tail (.tail (.tail .refl (.push _ _)) (.attach _ ?_)) (.push _ _))
    (.status _ ?_)) (.fetch _ ?_)) (.deliver _ ?_)
  all_goals decide +kernel

theorem delivers_once_in_order_polledOnce :
    polledOnce.delivered = [⟨2, [0x42, 0x43], ⟨0, 1⟩⟩] ∧
      polledOnce.delivered.Sublist polledOnce.pushed :=
  ⟨by decide +kernel, (delivers_once_in_order polledOnce_reachable).2.1⟩

end Poll

end Embers
