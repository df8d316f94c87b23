import Embers.Keeper.ReplyHold

/-!
# The order of terminal replies

Three threads of a keeper pass replies on to the writer queue: the read loop, the thread that
handles the server's requests (`write` and `set_host_graphics`), and the reply hold loop. Each takes
replies out of the surface under its lock. The hold loop sends what it took before it lets the lock
go; the two others let it go first. Between the two, another thread can take newer replies and send
them.

`KeeperReplies.taken` lists what has been taken and not sent, in the order in which it was taken. So
long as the batches are sent in that order, the queue, then the batches, then the replies held are
one list in the order the emulator produced them (`KeeperReplies.line`): a send moves its boundary
and nothing else.
-/

namespace Embers

/-- A byte of a reply, with its place among all the emulator has produced. -/
abbrev ReplyByte := UInt8 × ℕ

/-- The threads that let the lock go before they send. -/
inductive ReplyThread where
  | reader
  | handler
  deriving DecidableEq, Repr

/-- What is handed to the writer thread. -/
inductive WriterItem where
  | input (bytes : List UInt8)
  | replies (replies : List ReplyByte)
  deriving DecidableEq, Repr

/-- The replies of a keeper. `produced` counts the bytes the emulator has produced and `queue` is
everything that has entered the writer queue, oldest first. -/
structure KeeperReplies where
  hold : ReplyHold ReplyByte
  produced : ℕ
  /-- Taken and not sent, in the order taken; a thread takes again only when it has sent. -/
  taken : List (ReplyThread × List ReplyByte)
  /-- The input of a `write` that has yet to enter the queue. -/
  input : Option (List UInt8)
  queue : List WriterItem

/-- One acquisition of the lock of the surface, or one send. -/
inductive ReplyStep where
  /-- The read loop routes what it read: for each sequence for the host, the replies the emulator
  has produced by then, and those after the last of them. -/
  | read (now : ℕ) (segments : List (List UInt8 × List UInt8)) (last : List UInt8)
  | write (bytes : List UInt8)
  /-- The input of a `write` enters the queue. -/
  | sendInput
  /-- The writer is gone: `write` fails with what it took. -/
  | writeFailed
  | setHostGraphics (enabled : Bool)
  /-- The hold loop takes and sends under the lock, into a queue that may be full. -/
  | expire (now : ℕ) (full : Bool)
  | send (thread : ReplyThread) (full : Bool)
  deriving DecidableEq, Repr

namespace KeeperReplies

def new : KeeperReplies := ⟨.new, 0, [], none, []⟩

/-- The bytes of the segments, each with its place. -/
def stamp : ℕ → List (List UInt8 × List UInt8) → List (List ReplyByte × List UInt8)
  | _, [] => []
  | start, (before, write) :: segments =>
    (before.zipIdx start, write) :: stamp (start + before.length) segments

/-- A thread has nothing of its own to send. -/
def Free (w : KeeperReplies) (thread : ReplyThread) : Prop :=
  ∀ batch ∈ w.taken, batch.1 ≠ thread

instance (w : KeeperReplies) (thread : ReplyThread) : Decidable (w.Free thread) :=
  inferInstanceAs (Decidable (∀ batch ∈ w.taken, batch.1 ≠ thread))

/-- Replies taken out of the hold by a thread; an empty batch is not sent. -/
def take (w : KeeperReplies) (thread : ReplyThread)
    (after : List ReplyByte × ReplyHold ReplyByte) : KeeperReplies :=
  { w with
    hold := after.2
    taken := if after.1.isEmpty then w.taken else w.taken ++ [(thread, after.1)] }

/-- A batch handed to the writer without blocking; a full queue drops it. -/
def submit (w : KeeperReplies) (replies : List ReplyByte) (full : Bool) : KeeperReplies :=
  if full ∨ replies.isEmpty then w else { w with queue := w.queue ++ [.replies replies] }

/-- One step of a thread, when it is at that point. -/
def step (w : KeeperReplies) : ReplyStep → Option KeeperReplies
  | .read now segments last =>
    if w.Free .reader then
      let bytes := (segments.flatMap (·.1)).length
      let routed := w.hold.routeOutput now (stamp w.produced segments)
        (last.zipIdx (w.produced + bytes))
      some ({ w with produced := w.produced + bytes + last.length }.take .reader routed)
    else none
  | .write bytes =>
    if w.Free .handler ∧ w.input = none then
      some ({ w with input := some bytes }.take .handler (w.hold.input bytes))
    else none
  | .sendInput =>
    w.input.map fun bytes ↦ { w with input := none, queue := w.queue ++ [.input bytes] }
  | .writeFailed =>
    w.input.map fun _ ↦
      { w with input := none, taken := w.taken.filter (·.1 ≠ .handler) }
  | .setHostGraphics enabled =>
    if w.Free .handler ∧ w.input = none then some (w.take .handler (w.hold.setEnabled enabled))
    else none
  | .expire now full =>
    let (released, hold) := w.hold.expire now
    some ({ w with hold }.submit released full)
  | .send thread full =>
    if thread = .handler ∧ w.input ≠ none then none
    else
      (w.taken.find? (·.1 = thread)).map fun batch ↦
        { w with taken := w.taken.filter (·.1 ≠ thread) }.submit batch.2 full

/-- A run of the keeper. -/
def run : KeeperReplies → List ReplyStep → Option KeeperReplies
  | w, [] => some w
  | w, s :: steps => (w.step s).bind (run · steps)

/-- The replies that entered the queue, in the order they did. -/
def sent (w : KeeperReplies) : List ReplyByte :=
  w.queue.flatMap fun
    | .input _ => []
    | .replies replies => replies

/-- The replies entered the queue in the order in which the emulator produced them. -/
def InOrder (w : KeeperReplies) : Prop := w.sent.Pairwise (·.2 < ·.2)

instance (w : KeeperReplies) : Decidable w.InOrder :=
  inferInstanceAs (Decidable (w.sent.Pairwise _))

/-- A thread that sends is the one that took its replies first of those with replies to send. -/
def InTurn (w : KeeperReplies) : ReplyStep → Prop
  | .send thread full => full = false → (w.taken.head?.map (·.1)) = some thread
  | .expire now full => full = false → (w.hold.expire now).1 ≠ [] → w.taken = []
  | _ => True

instance (w : KeeperReplies) : (s : ReplyStep) → Decidable (w.InTurn s)
  | .send thread full =>
    inferInstanceAs (Decidable (full = false → (w.taken.head?.map (·.1)) = some thread))
  | .expire now full =>
    inferInstanceAs (Decidable (full = false → (w.hold.expire now).1 ≠ [] → w.taken = []))
  | .read .. => inferInstanceAs (Decidable True)
  | .write .. => inferInstanceAs (Decidable True)
  | .sendInput => inferInstanceAs (Decidable True)
  | .writeFailed => inferInstanceAs (Decidable True)
  | .setHostGraphics .. => inferInstanceAs (Decidable True)

/-- Every step of a run is in turn. -/
def AllInTurn : KeeperReplies → List ReplyStep → Prop
  | _, [] => True
  | w, s :: steps => w.InTurn s ∧ ∀ w' ∈ w.step s, AllInTurn w' steps

instance decidableAllInTurn : (w : KeeperReplies) → (steps : List ReplyStep) →
    Decidable (w.AllInTurn steps)
  | _, [] => inferInstanceAs (Decidable True)
  | w, s :: steps =>
    have := fun w' ↦ decidableAllInTurn w' steps
    inferInstanceAs (Decidable (w.InTurn s ∧ ∀ w' ∈ w.step s, AllInTurn w' steps))

/-! ## The line of replies -/

/-- What entered the queue, what is on its way there, and what is held. -/
def line (w : KeeperReplies) : List ReplyByte :=
  w.sent ++ w.taken.flatMap (·.2) ++ w.hold.held

/-- The line is in order and ends where the emulator's production does, nothing waits in a hold with
nothing pending, and no batch is empty. -/
structure Lined (w : KeeperReplies) : Prop where
  sorted : w.line.Pairwise (·.2 < ·.2)
  lt_produced : ∀ reply ∈ w.line, reply.2 < w.produced
  idle : w.hold.Idle
  once : (w.taken.map (·.1)).Nodup

variable {w w' : KeeperReplies}

theorem lined_new : new.Lined where
  sorted := List.Pairwise.nil
  lt_produced _ h := absurd h List.not_mem_nil
  idle := ReplyHold.idle_new
  once := List.nodup_nil

/-- Replies that are dropped leave the rest of the line in order. -/
theorem Lined.of_sublist (h : w.Lined) (hline : w'.line.Sublist w.line)
    (hproduced : w'.produced = w.produced) (hidle : w'.hold.Idle)
    (htaken : w'.taken.Sublist w.taken) : w'.Lined where
  sorted := h.sorted.sublist hline
  lt_produced reply hr := hproduced ▸ h.lt_produced reply (hline.mem hr)
  idle := hidle
  once := h.once.sublist (htaken.map _)

/-! ### Taking -/

theorem flatMap_stamp (segments : List (List UInt8 × List UInt8)) :
    ∀ start, (stamp start segments).flatMap (·.1) = (segments.flatMap (·.1)).zipIdx start := by
  induction segments with
  | nil => intro start; rfl
  | cons segment segments ih =>
    intro start
    obtain ⟨before, write⟩ := segment
    simp [stamp, ih, List.zipIdx_append]

/-- The bytes of one read, each with its place, go on where the production stood. -/
theorem stamped_eq (start : ℕ) (segments : List (List UInt8 × List UInt8)) (last : List UInt8) :
    (stamp start segments).flatMap (·.1) ++
        last.zipIdx (start + (segments.flatMap (·.1)).length) =
      (segments.flatMap (·.1) ++ last).zipIdx start := by
  rw [flatMap_stamp, List.zipIdx_append]

theorem zipIdx_sorted (bytes : List UInt8) (start : ℕ) :
    (bytes.zipIdx start).Pairwise (·.2 < ·.2) := by
  have hrange : ((bytes.zipIdx start).map Prod.snd).Pairwise (· < ·) := by
    rw [List.zipIdx_map_snd]
    exact List.pairwise_lt_range' 1 Nat.one_pos
  exact List.pairwise_map.mp hrange

theorem Lined.take (h : w.Lined) {thread : ReplyThread} (hfree : w.Free thread)
    {came : List UInt8} {after : List ReplyByte × ReplyHold ReplyByte}
    (hafter : w.hold.Conserves (came.zipIdx w.produced) after) (input : Option (List UInt8)) :
    ({ w with produced := w.produced + came.length, input }.take thread after).Lined := by
  -- what was held and what came is now what was taken and what is held
  have hline : ({ w with produced := w.produced + came.length, input }.take thread after).line =
      w.line ++ came.zipIdx w.produced := by
    have htaken : (if after.1.isEmpty then w.taken else w.taken ++ [(thread, after.1)]).flatMap (·.2) =
        w.taken.flatMap (·.2) ++ after.1 := by
      rcases after.1 with _ | ⟨first, rest⟩
      · simp
      · simp
    simp only [line, sent, KeeperReplies.take, htaken]
    rw [List.append_assoc, List.append_assoc, hafter.append]
    simp only [List.append_assoc]
  refine ⟨?_, ?_, hafter.idle, ?_⟩
  · rw [hline, List.pairwise_append]
    refine ⟨h.sorted, zipIdx_sorted came w.produced, ?_⟩
    intro x hx y hy
    have hlt := h.lt_produced x hx
    have hle := (List.mem_zipIdx (x := y.1) (i := y.2) hy).1
    omega
  · intro reply hr
    rw [hline] at hr
    rcases List.mem_append.mp hr with hr | hr
    · exact (h.lt_produced reply hr).trans_le (Nat.le_add_right _ _)
    · exact (List.mem_zipIdx (x := reply.1) (i := reply.2) hr).2.1
  · simp only [KeeperReplies.take]
    split
    · exact h.once
    · rw [List.map_append, List.nodup_append]
      refine ⟨h.once, List.pairwise_singleton _ _, ?_⟩
      intro x hx y hy
      obtain ⟨batch, hbatch, rfl⟩ := List.mem_map.mp hx
      obtain rfl : y = thread := List.mem_singleton.mp hy
      exact hfree batch hbatch

/-! ### Sending -/

theorem sent_submit (w : KeeperReplies) (replies : List ReplyByte) (full : Bool) :
    (w.submit replies full).sent = w.sent ++ if full then [] else replies := by
  rcases replies with _ | ⟨first, rest⟩
  · simp [submit]
  · cases full with
    | true => simp [submit]
    | false => simp [submit, sent]

@[simp] theorem submit_taken (w : KeeperReplies) (replies : List ReplyByte) (full : Bool) :
    (w.submit replies full).taken = w.taken := by
  rw [submit]
  split <;> rfl

@[simp] theorem submit_hold (w : KeeperReplies) (replies : List ReplyByte) (full : Bool) :
    (w.submit replies full).hold = w.hold := by
  rw [submit]
  split <;> rfl

@[simp] theorem submit_produced (w : KeeperReplies) (replies : List ReplyByte) (full : Bool) :
    (w.submit replies full).produced = w.produced := by
  rw [submit]
  split <;> rfl

theorem line_submit (w : KeeperReplies) (replies : List ReplyByte) (full : Bool) :
    (w.submit replies full).line =
      w.sent ++ (if full then [] else replies) ++ w.taken.flatMap (·.2) ++ w.hold.held := by
  rw [line, sent_submit, submit_taken, submit_hold]

/-- The batch a thread took first is the head of the line. -/
theorem taken_of_head (h : w.Lined) {thread : ReplyThread} {batch : ReplyThread × List ReplyByte}
    (hfind : w.taken.find? (·.1 = thread) = some batch)
    (hhead : w.taken.head?.map (·.1) = some thread) :
    w.taken = batch :: w.taken.filter (·.1 ≠ thread) := by
  rcases htaken : w.taken with _ | ⟨first, rest⟩
  · simp [htaken] at hfind
  · have hthread : first.1 = thread := by simpa [htaken] using hhead
    have honce := h.once
    rw [htaken, List.map_cons, List.nodup_cons] at honce
    have hrest : rest.filter (·.1 ≠ thread) = rest := by
      refine List.filter_eq_self.mpr fun other hother ↦ ?_
      have hne : other.1 ≠ thread := by
        intro hsame
        exact honce.1 (hthread ▸ hsame ▸ List.mem_map_of_mem hother)
      simpa using hne
    have hbatch : first = batch := by
      rw [htaken, List.find?_cons_of_pos (by simpa using hthread)] at hfind
      exact Option.some.inj hfind
    rw [List.filter_cons_of_neg (by simpa using hthread), hrest, hbatch]

theorem Lined.send (h : w.Lined) {thread : ReplyThread} {batch : ReplyThread × List ReplyByte}
    (hfind : w.taken.find? (·.1 = thread) = some batch) {full : Bool}
    (hturn : w.InTurn (.send thread full)) :
    ({ w with taken := w.taken.filter (·.1 ≠ thread) }.submit batch.2 full).Lined := by
  have hfilter : (w.taken.filter (·.1 ≠ thread)).Sublist w.taken := List.filter_sublist
  refine h.of_sublist ?_ (submit_produced _ _ _) ?_ ?_
  · rw [line_submit]
    cases full with
    | true =>
      simp only [if_true, List.append_nil]
      exact ((List.Sublist.refl w.sent).append (hfilter.flatMap _)).append (List.Sublist.refl _)
    | false =>
      -- the boundary of the queue moves over the batch
      have htaken := taken_of_head h hfind (hturn rfl)
      have hline : w.line =
          w.sent ++ (batch :: w.taken.filter (·.1 ≠ thread)).flatMap (·.2) ++ w.hold.held := by
        rw [← htaken]
        rfl
      rw [hline]
      simp [sent]
  · rw [submit_hold]
    exact h.idle
  · rw [submit_taken]
    exact hfilter

theorem Lined.expire (h : w.Lined) {now : ℕ} {full : Bool} (hturn : w.InTurn (.expire now full)) :
    ({ w with hold := (w.hold.expire now).2 }.submit (w.hold.expire now).1 full).Lined := by
  have hexpire := ReplyHold.expire_conserves h.idle now
  have happend : (w.hold.expire now).1 ++ (w.hold.expire now).2.held = w.hold.held := by
    simpa using hexpire.append
  refine h.of_sublist ?_ (submit_produced _ _ _) ?_ ?_
  · rw [line_submit, line, ← happend]
    cases full with
    | true =>
      simp only [if_true, List.append_nil]
      exact (List.Sublist.refl (w.sent ++ w.taken.flatMap (·.2))).append
        (List.sublist_append_right _ _)
    | false =>
      by_cases hreleased : (w.hold.expire now).1 = []
      · simp [hreleased, sent]
      · simp [hturn rfl hreleased, sent]
  · rw [submit_hold]
    exact hexpire.idle
  · simp only [submit_taken, List.Sublist.refl]

theorem Lined.step (h : w.Lined) {s : ReplyStep} (hturn : w.InTurn s) (hs : w.step s = some w') :
    w'.Lined := by
  cases s with
  | read now segments last =>
    simp only [KeeperReplies.step] at hs
    split at hs
    · rename_i hfree
      have hroute := ReplyHold.routeOutput_conserves now (stamp w.produced segments)
        (last.zipIdx (w.produced + (segments.flatMap (·.1)).length)) w.hold h.idle
      rw [stamped_eq] at hroute
      have htake := h.take hfree hroute w.input
      rw [List.length_append, ← Nat.add_assoc] at htake
      exact Option.some.inj hs ▸ htake
    · cases hs
  | write bytes =>
    simp only [KeeperReplies.step] at hs
    split at hs
    · rename_i hfree
      have hinput := ReplyHold.input_conserves h.idle bytes
      exact Option.some.inj hs ▸ @Lined.take _ h _ hfree.1 [] _ hinput (some bytes)
    · cases hs
  | sendInput =>
    simp only [KeeperReplies.step, Option.map_eq_some_iff] at hs
    obtain ⟨bytes, -, rfl⟩ := hs
    refine h.of_sublist ?_ rfl h.idle (List.Sublist.refl _)
    simp [line, sent]
  | writeFailed =>
    simp only [KeeperReplies.step, Option.map_eq_some_iff] at hs
    obtain ⟨bytes, -, rfl⟩ := hs
    have hfilter : (w.taken.filter (·.1 ≠ .handler)).Sublist w.taken := List.filter_sublist
    refine h.of_sublist ?_ rfl h.idle hfilter
    exact ((List.Sublist.refl w.sent).append (hfilter.flatMap _)).append (List.Sublist.refl _)
  | setHostGraphics enabled =>
    simp only [KeeperReplies.step] at hs
    split at hs
    · rename_i hfree
      have hset := ReplyHold.setEnabled_conserves h.idle enabled
      exact Option.some.inj hs ▸ @Lined.take _ h _ hfree.1 [] _ hset w.input
    · cases hs
  | expire now full =>
    simp only [KeeperReplies.step] at hs
    exact Option.some.inj hs ▸ h.expire hturn
  | send thread full =>
    simp only [KeeperReplies.step] at hs
    split at hs
    · cases hs
    · obtain ⟨batch, hfind, rfl⟩ := Option.map_eq_some_iff.mp hs
      exact h.send hfind hturn

theorem Lined.inOrder (h : w.Lined) : w.InOrder :=
  h.sorted.sublist ((List.sublist_append_left _ _).trans (List.sublist_append_left _ _))

theorem Lined.run (steps : List ReplyStep) :
    ∀ w : KeeperReplies, w.Lined → w.AllInTurn steps →
      ∀ w', w.run steps = some w' → w'.Lined := by
  induction steps with
  | nil =>
    intro w h _ w' hrun
    exact Option.some.inj hrun ▸ h
  | cons s steps ih =>
    intro w h hturns w' hrun
    obtain ⟨next, hnext, hrest⟩ := Option.bind_eq_some_iff.mp hrun
    exact ih next (h.step hturns.1 hnext) (hturns.2 next hnext) w' hrest

/-- In every run in which each batch is sent by the thread that took it first of those still to be
sent, the replies enter the queue in the order the emulator produced them. -/
theorem inOrder_of_inTurn {steps : List ReplyStep} (hturns : new.AllInTurn steps)
    {w : KeeperReplies} (hrun : new.run steps = some w) : w.InOrder :=
  (Lined.run steps new lined_new hturns w hrun).inOrder

/-- `ESC _ G i=31,a=q ESC \`. -/
def sampleQuery : List UInt8 :=
  [esc, 0x5f, 0x47, 0x69, 0x3d, 0x33, 0x31, 0x2c, 0x61, 0x3d, 0x71, esc, backslash]

/-- `ESC _ G i=31;OK ESC \`. -/
def sampleAnswer : List UInt8 :=
  [esc, 0x5f, 0x47, 0x69, 0x3d, 0x33, 0x31, 0x3b, 0x4f, 0x4b, esc, backslash]

/-- A reply is held behind a graphics query, the host's answer lets it go, and the program asks
something else. -/
def answeredThenAsked : List ReplyStep :=
  [.setHostGraphics true, .read 0 [([], sampleQuery)] [0x63], .write sampleAnswer, .sendInput,
    .send .handler false, .read 1 [] [0x64], .send .reader false]

theorem inOrder_answeredThenAsked :
    ∃ w, new.run answeredThenAsked = some w ∧ w.sent = [(0x63, 0), (0x64, 1)] ∧ w.InOrder := by
  have hsent : (new.run answeredThenAsked).map sent = some [(0x63, 0), (0x64, 1)] := by
    decide +kernel
  obtain ⟨w, hrun, hw⟩ := Option.map_eq_some_iff.mp hsent
  refine ⟨w, hrun, hw, inOrder_of_inTurn ?_ hrun⟩
  decide +kernel

/-- The same, but the reply to the second query is sent before the handler gets to send the first. -/
def askedWhileAnswered : List ReplyStep :=
  [.setHostGraphics true, .read 0 [([], sampleQuery)] [0x63], .write sampleAnswer,
    .read 1 [] [0x64], .send .reader false, .sendInput, .send .handler false]

theorem replies_overtake :
    ∃ w, new.run askedWhileAnswered = some w ∧ w.sent = [(0x64, 1), (0x63, 0)] ∧ ¬w.InOrder := by
  have hsent : (new.run askedWhileAnswered).map sent = some [(0x64, 1), (0x63, 0)] := by
    decide +kernel
  obtain ⟨w, hrun, hw⟩ := Option.map_eq_some_iff.mp hsent
  refine ⟨w, hrun, hw, ?_⟩
  rw [InOrder, hw]
  decide

end KeeperReplies

end Embers
