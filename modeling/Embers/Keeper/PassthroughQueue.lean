import Embers.Keeper.Router

/-!
# The queue of passthrough writes

A keeper queues what its pane's program sends to the host terminal, numbered from 1, until a poll of
the server takes it. The numbers are of type `u64`; here they are natural numbers, which is the same
while fewer than `2⁶⁴` writes are pushed (`Poll.numbers_lt`). The queue is bounded in bytes: `push`
drops the oldest writes, and with a write beyond the bound the write itself. `takeAfter` hands over
the writes above the number the poller has reached, in batches that fit one reply.

Both loops only ever take entries off the front (`push_entries`, `takeAfter_entries`), which is why
the entries are always the latest of the writes pushed.
-/

namespace Embers

/-- A queued passthrough write. -/
structure KeeperPassthrough where
  sequence : ℕ
  bytes : List UInt8
  cursor : CursorPosition
  deriving DecidableEq, Repr

def maxQueuedPassthroughBytes : ℕ := 8 * 1024 * 1024
def maxPassthroughReplyBytes : ℕ := 8 * 1024 * 1024

/-- Passthrough writes waiting for the server, oldest first. -/
structure PassthroughQueue where
  lastSequence : ℕ
  entries : List KeeperPassthrough
  bytes : ℕ
  deriving DecidableEq, Repr

namespace PassthroughQueue

def new : PassthroughQueue := ⟨0, [], 0⟩

/-- The total length of some writes. -/
def size (entries : List KeeperPassthrough) : ℕ := (entries.map (·.bytes.length)).sum

/-- The loop of `push`: the entries dropped, those kept, and the bytes left. -/
def dropOldest : List KeeperPassthrough → ℕ → List KeeperPassthrough × List KeeperPassthrough × ℕ
  | [], bytes => ([], [], bytes)
  | entry :: entries, bytes =>
    if bytes > maxQueuedPassthroughBytes then
      let (dropped, kept, bytes) := dropOldest entries (bytes - entry.bytes.length)
      (entry :: dropped, kept, bytes)
    else ([], entry :: entries, bytes)

/-- The entry a write is queued as. -/
def numbered (q : PassthroughQueue) (write : PassthroughWrite) : KeeperPassthrough :=
  ⟨q.lastSequence + 1, write.bytes, write.cursor⟩

/-- The writes a push drops. -/
def droppedBy (q : PassthroughQueue) (write : PassthroughWrite) : List KeeperPassthrough :=
  (dropOldest (q.entries ++ [q.numbered write]) (q.bytes + write.bytes.length)).1

def push (q : PassthroughQueue) (write : PassthroughWrite) : PassthroughQueue :=
  let (_, entries, bytes) :=
    dropOldest (q.entries ++ [q.numbered write]) (q.bytes + write.bytes.length)
  ⟨q.lastSequence + 1, entries, bytes⟩

/-- The loop of `takeAfter`: what is taken, the entries left, and the bytes left. -/
def takeLoop (after : ℕ) : List KeeperPassthrough → List KeeperPassthrough → ℕ → ℕ →
    List KeeperPassthrough × List KeeperPassthrough × ℕ
  | [], taken, _, bytes => (taken, [], bytes)
  | entry :: entries, taken, takenBytes, bytes =>
    if entry.sequence > after ∧ ¬taken.isEmpty ∧
        takenBytes + entry.bytes.length > maxPassthroughReplyBytes then
      (taken, entry :: entries, bytes)
    else if entry.sequence > after then
      takeLoop after entries (taken ++ [entry]) (takenBytes + entry.bytes.length)
        (bytes - entry.bytes.length)
    else takeLoop after entries taken takenBytes (bytes - entry.bytes.length)

/-- Remove and return the writes numbered above `after`, oldest first, up to what one reply holds.
Writes up to `after` are dropped. -/
def takeAfter (q : PassthroughQueue) (after : ℕ) : List KeeperPassthrough × PassthroughQueue :=
  let (taken, entries, bytes) := takeLoop after q.entries [] 0 q.bytes
  (taken, ⟨q.lastSequence, entries, bytes⟩)

/-! ## What the loops take off the front -/

@[simp] theorem size_nil : size [] = 0 := rfl

@[simp] theorem size_cons (entry : KeeperPassthrough) (entries : List KeeperPassthrough) :
    size (entry :: entries) = entry.bytes.length + size entries := by
  simp [size]

@[simp] theorem size_append (xs ys : List KeeperPassthrough) :
    size (xs ++ ys) = size xs + size ys := by
  simp [size]

theorem dropOldest_eq (entries : List KeeperPassthrough) :
    ∀ bytes, bytes = size entries →
      (dropOldest entries bytes).1 ++ (dropOldest entries bytes).2.1 = entries ∧
        (dropOldest entries bytes).2.2 = size (dropOldest entries bytes).2.1 := by
  induction entries with
  | nil => intro bytes h; simpa [dropOldest] using h
  | cons entry entries ih =>
    intro bytes h
    by_cases hfull : bytes > maxQueuedPassthroughBytes
    · have hrest : bytes - entry.bytes.length = size entries := by
        rw [h, size_cons]
        omega
      obtain ⟨happend, hsize⟩ := ih _ hrest
      simp only [dropOldest, hfull, if_true, List.cons_append, happend, hsize, and_self]
    · simpa [dropOldest, hfull] using h

/-- A push takes the oldest entries off, the new one being the last of them. -/
theorem push_entries (q : PassthroughQueue) (write : PassthroughWrite)
    (h : q.bytes = size q.entries) :
    q.droppedBy write ++ (q.push write).entries = q.entries ++ [q.numbered write] ∧
      (q.push write).bytes = size (q.push write).entries := by
  refine dropOldest_eq _ _ ?_
  simp [h, numbered]

@[simp] theorem push_lastSequence (q : PassthroughQueue) (write : PassthroughWrite) :
    (q.push write).lastSequence = q.lastSequence + 1 := rfl

theorem takeLoop_eq (after : ℕ) (entries : List KeeperPassthrough) :
    ∀ (taken : List KeeperPassthrough) (takenBytes bytes : ℕ), bytes = size entries →
      ∃ front, entries = front ++ (takeLoop after entries taken takenBytes bytes).2.1 ∧
        (takeLoop after entries taken takenBytes bytes).1 =
          taken ++ front.filter (after < ·.sequence) ∧
        (takeLoop after entries taken takenBytes bytes).2.2 =
          size (takeLoop after entries taken takenBytes bytes).2.1 ∧
        ((takeLoop after entries taken takenBytes bytes).1 = [] →
          (takeLoop after entries taken takenBytes bytes).2.1 = []) := by
  induction entries with
  | nil => intro taken takenBytes bytes h; exact ⟨[], by simpa [takeLoop] using h⟩
  | cons entry entries ih =>
    intro taken takenBytes bytes h
    have hrest : bytes - entry.bytes.length = size entries := by
      rw [h, size_cons]
      omega
    by_cases hcut : entry.sequence > after ∧ ¬taken.isEmpty ∧
        takenBytes + entry.bytes.length > maxPassthroughReplyBytes
    -- a batch is cut only when it holds something
    · have hne : taken ≠ [] := by
        intro hnil
        exact hcut.2.1 (by simp [hnil])
      exact ⟨[], by simp [takeLoop, hcut, h, hne]⟩
    · by_cases hafter : entry.sequence > after
      · obtain ⟨front, hfront, htaken, hsize, hempty⟩ :=
          ih (taken ++ [entry]) (takenBytes + entry.bytes.length) _ hrest
        rw [takeLoop, if_neg hcut, if_pos hafter]
        refine ⟨entry :: front, by rw [List.cons_append, ← hfront], ?_, hsize, hempty⟩
        rw [htaken]
        simp [hafter]
      · obtain ⟨front, hfront, htaken, hsize, hempty⟩ := ih taken takenBytes _ hrest
        rw [takeLoop, if_neg hcut, if_neg hafter]
        refine ⟨entry :: front, by rw [List.cons_append, ← hfront], ?_, hsize, hempty⟩
        rw [htaken]
        simp [hafter]

/-- What is taken are the entries above the number among those taken off the front, and a batch is
empty only if the queue is then. -/
theorem takeAfter_entries (q : PassthroughQueue) (after : ℕ) (h : q.bytes = size q.entries) :
    ∃ front, q.entries = front ++ (q.takeAfter after).2.entries ∧
      (q.takeAfter after).1 = front.filter (after < ·.sequence) ∧
      (q.takeAfter after).2.bytes = size (q.takeAfter after).2.entries ∧
      ((q.takeAfter after).1 = [] → (q.takeAfter after).2.entries = []) := by
  simpa [takeAfter] using takeLoop_eq after q.entries [] 0 q.bytes h

@[simp] theorem takeAfter_lastSequence (q : PassthroughQueue) (after : ℕ) :
    (q.takeAfter after).2.lastSequence = q.lastSequence := rfl

end PassthroughQueue

end Embers
