import Embers.Keeper.ReplyHold

/-!
# Runs of a reply hold

A hold is driven by the read loop, by the server's requests and by a timer, in any order and at any
times. Over a whole run it returns every reply it was given, in order; what it keeps back is bounded
and has a deadline.

## What a held reply waits for

A query has no identity of its own: several may be pending under one name, and an answer removes the
first of them. So the answers are counted. A reply given while queries are pending goes out by
itself only when, for every name, the input since then has named it at least as often as queries
were pending under it (`Freed.answered`). Later queries of the same name do not disturb the count:
they only take answers that come after those of the earlier ones.
-/

namespace Embers

/-- An operation on a hold. -/
inductive HoldOp (α : Type*) where
  | setEnabled (enabled : Bool)
  | forwarded (write : List UInt8) (now : ℕ)
  | replies (replies : List α)
  | input (input : List UInt8)
  | expire (now : ℕ)

namespace HoldOp

variable {α : Type*}

/-- The replies passed in. -/
def came : HoldOp α → List α
  | replies came => came
  | _ => []

/-- The names in the graphics commands of the input. -/
def named : HoldOp α → List GraphicsId
  | input bytes => (graphicsCommands bytes).flatMap graphicsIds
  | _ => []

end HoldOp

namespace ReplyHold

variable {α : Type*}

/-- What an operation returns, and the hold after it. -/
def perform (hold : ReplyHold α) : HoldOp α → List α × ReplyHold α
  | .setEnabled enabled => hold.setEnabled enabled
  | .forwarded write now => ([], hold.forwarded write now)
  | .replies replies => hold.replies replies
  | .input input => hold.input input
  | .expire now => hold.expire now

/-- What a run returns, one operation after the other, and the hold after it. -/
def run : ReplyHold α → List (HoldOp α) → List α × ReplyHold α
  | hold, [] => ([], hold)
  | hold, op :: ops =>
    let (out, hold) := hold.perform op
    let (rest, hold) := run hold ops
    (out ++ rest, hold)

/-- Something in the run lets go of what is held. -/
inductive Freed (hold : ReplyHold α) (ops : List (HoldOp α)) : Prop where
  /-- Every query pending at its start has been answered. -/
  | answered (h : ∀ id, hold.pending.count id ≤ (ops.flatMap HoldOp.named).count id)
  /-- The deadline has passed. -/
  | expired (before after : List (HoldOp α)) {now deadline : ℕ}
      (hops : ops = before ++ .expire now :: after)
      (hdeadline : (hold.run before).2.deadline = some deadline) (hpassed : deadline ≤ now)
  /-- The cap was exceeded. -/
  | exceeded (before after : List (HoldOp α)) {replies : List α}
      (hops : ops = before ++ .replies replies :: after)
      (hover : maxHeldReplyBytes < ((hold.run before).2.held ++ replies).length)
  | disabled (h : .setEnabled false ∈ ops)

/-- What a run keeps to. -/
structure Keeps (ops : List (HoldOp α)) : Prop where
  append : (new.run ops).1 ++ (new.run ops).2.held = ops.flatMap HoldOp.came
  deadline : (new.run ops).2.deadline.isSome ↔ (new.run ops).2.pending ≠ []
  idle : (new.run ops).2.pending = [] → (new.run ops).2.held = []
  bounded : (new.run ops).2.held.length ≤ maxHeldReplyBytes
  /-- A reply given while a query is pending has not begun to go out before it was let go. -/
  waits {before after : List (HoldOp α)} {replies : List α}
    (hops : ops = before ++ .replies replies :: after)
    (hpending : (new.run before).2.pending ≠ [])
    (hout : (new.run before).2.held.length <
      ((new.run before).2.run (.replies replies :: after)).1.length) :
    (new.run before).2.Freed (.replies replies :: after)

/-! ## States -/

/-- What holds of every hold between operations. -/
structure Sound (hold : ReplyHold α) : Prop where
  idle : hold.Idle
  deadline : hold.deadline.isSome ↔ hold.pending ≠ []
  bounded : hold.held.length ≤ maxHeldReplyBytes

theorem sound_new : (new : ReplyHold α).Sound := ⟨idle_new, by simp [new], Nat.zero_le _⟩

theorem sound_release (hold : ReplyHold α) : hold.release.2.Sound :=
  ⟨hold.release_idle, by simp [release], Nat.zero_le _⟩

variable {hold : ReplyHold α}

theorem Sound.forwarded (h : hold.Sound) (write : List UInt8) (now : ℕ) :
    (hold.forwarded write now).Sound := by
  refine ⟨forwarded_idle h.idle write now, ?_, (forwarded_held hold write now).symm ▸ h.bounded⟩
  rw [ReplyHold.forwarded]
  split
  · exact h.deadline
  · generalize List.filterMap _ _ = queries
    have hiff := h.deadline
    rcases queries with _ | ⟨query, queries⟩
    · simpa using hiff
    · -- with a new query there is a new deadline
      simp

/-- What pending queries make of replies: nothing goes out, unless there are too many. -/
theorem replies_of_pending (h : hold.pending ≠ []) (replies : List α) :
    hold.replies replies =
      if (hold.held ++ replies).length > maxHeldReplyBytes then
        ((hold.held ++ replies), { hold with pending := [], deadline := none, held := [] })
      else ([], { hold with held := hold.held ++ replies }) := by
  rw [ReplyHold.replies, if_neg (by simpa using h)]
  rfl

/-- What input makes of pending queries. -/
theorem input_of_pending (h : hold.pending ≠ []) (input : List UInt8) :
    hold.input input =
      let pending := ((graphicsCommands input).flatMap graphicsIds).foldl List.erase hold.pending
      if pending = [] then (hold.held, { hold with pending := [], deadline := none, held := [] })
      else ([], { hold with pending }) := by
  rw [ReplyHold.input, if_neg (by simpa using h)]
  simp only [List.isEmpty_iff]
  rfl

theorem Sound.perform (h : hold.Sound) (op : HoldOp α) : (hold.perform op).2.Sound := by
  cases op with
  | setEnabled enabled =>
    rw [ReplyHold.perform, setEnabled]
    split
    · exact ⟨h.idle, h.deadline, h.bounded⟩
    · exact sound_release _
  | forwarded write now => exact h.forwarded write now
  | replies replies =>
    rw [ReplyHold.perform]
    by_cases hpending : hold.pending = []
    · rw [ReplyHold.replies, if_pos (by simpa using hpending)]
      exact h
    · rw [replies_of_pending hpending]
      split
      · exact sound_release hold
      · next hle => exact ⟨fun hnil ↦ absurd hnil hpending, h.deadline, Nat.le_of_not_lt hle⟩
  | input input =>
    rw [ReplyHold.perform]
    by_cases hpending : hold.pending = []
    · rw [ReplyHold.input, if_pos (by simpa using hpending)]
      exact h
    · rw [input_of_pending hpending]
      simp only
      split
      · exact sound_release hold
      · next hleft =>
        refine ⟨fun hnil ↦ absurd hnil hleft, ?_, h.bounded⟩
        exact iff_of_true (h.deadline.mpr hpending) hleft
  | expire now =>
    rw [ReplyHold.perform, ReplyHold.expire]
    split
    · exact sound_release hold
    · exact h

/-- What goes out, then what stays, is what was held, then what came. -/
theorem Sound.conserves (h : hold.Sound) (op : HoldOp α) :
    hold.Conserves op.came (hold.perform op) := by
  cases op with
  | setEnabled enabled => exact setEnabled_conserves h.idle enabled
  | forwarded write now =>
    refine ⟨forwarded_idle h.idle write now, ?_⟩
    simp only [ReplyHold.perform, HoldOp.came, forwarded_held, List.nil_append, List.append_nil]
  | replies replies => exact replies_conserves h.idle replies
  | input input => exact input_conserves h.idle input
  | expire now => exact expire_conserves h.idle now

/-! ## Runs -/

@[simp] theorem run_nil (hold : ReplyHold α) : hold.run [] = ([], hold) := rfl

theorem run_cons (hold : ReplyHold α) (op : HoldOp α) (ops : List (HoldOp α)) :
    hold.run (op :: ops) =
      ((hold.perform op).1 ++ ((hold.perform op).2.run ops).1, ((hold.perform op).2.run ops).2) :=
  rfl

theorem Sound.run (h : hold.Sound) (ops : List (HoldOp α)) : (hold.run ops).2.Sound := by
  induction ops generalizing hold with
  | nil => exact h
  | cons op ops ih =>
    rw [run_cons]
    exact ih (h.perform op)

theorem Sound.run_append (h : hold.Sound) (ops : List (HoldOp α)) :
    (hold.run ops).1 ++ (hold.run ops).2.held = hold.held ++ ops.flatMap HoldOp.came := by
  induction ops generalizing hold with
  | nil => simp
  | cons op ops ih =>
    have hop := (h.conserves op).append
    have hops := ih (h.perform op)
    calc (hold.run (op :: ops)).1 ++ (hold.run (op :: ops)).2.held
        = (hold.perform op).1 ++
            (((hold.perform op).2.run ops).1 ++ ((hold.perform op).2.run ops).2.held) := by
          rw [run_cons, List.append_assoc]
      _ = ((hold.perform op).1 ++ (hold.perform op).2.held) ++ ops.flatMap HoldOp.came := by
          rw [hops, List.append_assoc]
      _ = hold.held ++ (op :: ops).flatMap HoldOp.came := by
          rw [hop, List.append_assoc, List.flatMap_cons]

/-! ## What lets go -/

theorem Freed.cons {op : HoldOp α} {ops : List (HoldOp α)} (h : (hold.perform op).2.Freed ops)
    (hcount : ∀ id, hold.pending.count id ≤
      (hold.perform op).2.pending.count id + op.named.count id) :
    hold.Freed (op :: ops) := by
  cases h with
  | answered h =>
    refine .answered fun id ↦ (hcount id).trans ?_
    have hlater := h id
    rw [List.flatMap_cons, List.count_append]
    omega
  | @expired before after now deadline hops hdeadline hpassed =>
    exact .expired (op :: before) after (congrArg (op :: ·) hops) hdeadline hpassed
  | @exceeded before after replies hops hover =>
    exact .exceeded (op :: before) after (congrArg (op :: ·) hops) hover
  | disabled h => exact .disabled (List.mem_cons_of_mem op h)

theorem count_foldl_erase {β : Type*} [DecidableEq β] (names pending : List β) (id : β) :
    (names.foldl List.erase pending).count id = pending.count id - names.count id := by
  induction names generalizing pending with
  | nil => simp
  | cons name names ih =>
    have herase := ih (pending.erase name)
    rw [List.count_erase] at herase
    rw [List.foldl_cons, herase, List.count_cons]
    omega

/-- An operation while a query is pending either lets go of what is held or returns nothing, and
then a query is still pending and only the answers that came are taken off. -/
theorem perform_of_pending (hpending : hold.pending ≠ []) (op : HoldOp α) :
    (∀ ops, hold.Freed (op :: ops)) ∨
      ((hold.perform op).1 = [] ∧ (hold.perform op).2.pending ≠ [] ∧
        ∀ id, hold.pending.count id ≤
          (hold.perform op).2.pending.count id + op.named.count id) := by
  cases op with
  | setEnabled enabled =>
    cases enabled with
    | false => exact .inl fun ops ↦ .disabled List.mem_cons_self
    | true => exact .inr ⟨rfl, hpending, fun id ↦ Nat.le_add_right _ _⟩
  | forwarded write now =>
    obtain ⟨queries, hqueries⟩ :
        ∃ queries, (hold.forwarded write now).pending = hold.pending ++ queries := by
      rw [ReplyHold.forwarded]
      split
      · exact ⟨[], (List.append_nil _).symm⟩
      · exact ⟨_, rfl⟩
    refine .inr ⟨rfl, ?_, fun id ↦ ?_⟩
    · rw [perform, hqueries]
      exact List.append_ne_nil_of_left_ne_nil hpending queries
    · rw [perform, hqueries, List.count_append]
      omega
  | replies replies =>
    by_cases hover : (hold.held ++ replies).length > maxHeldReplyBytes
    · exact .inl fun ops ↦ .exceeded [] ops rfl hover
    · rw [perform, replies_of_pending hpending, if_neg hover]
      exact .inr ⟨rfl, hpending, fun id ↦ Nat.le_add_right _ _⟩
  | input input =>
    have hcount := count_foldl_erase ((graphicsCommands input).flatMap graphicsIds) hold.pending
    by_cases hnil : ((graphicsCommands input).flatMap graphicsIds).foldl List.erase hold.pending = []
    · -- the input has answered whatever was pending
      refine .inl fun ops ↦ .answered fun id ↦ ?_
      have hzero := hcount id
      rw [hnil, List.count_nil] at hzero
      rw [List.flatMap_cons, List.count_append, HoldOp.named]
      omega
    · rw [perform, input_of_pending hpending]
      simp only [if_neg hnil]
      refine .inr ⟨trivial, hnil, fun id ↦ ?_⟩
      have hleft := hcount id
      rw [HoldOp.named]
      omega
  | expire now =>
    rw [perform, ReplyHold.expire]
    cases hdeadline : hold.deadline with
    | none => exact .inr ⟨rfl, hpending, fun id ↦ Nat.le_add_right _ _⟩
    | some deadline =>
      by_cases hpassed : deadline ≤ now
      · exact .inl fun ops ↦ .expired [] ops rfl hdeadline hpassed
      · rw [Option.any_some, if_neg (by simpa using hpassed)]
        exact .inr ⟨rfl, hpending, fun id ↦ Nat.le_add_right _ _⟩

/-- While a query is pending nothing goes out that was not let go. -/
theorem freed_of_out {ops : List (HoldOp α)} (hpending : hold.pending ≠ [])
    (hout : (hold.run ops).1 ≠ []) : hold.Freed ops := by
  induction ops generalizing hold with
  | nil => exact absurd rfl hout
  | cons op ops ih =>
    rcases perform_of_pending hpending op with hfreed | ⟨hnil, hstill, hcount⟩
    · exact hfreed ops
    · rw [run_cons, hnil, List.nil_append] at hout
      exact (ih hstill hout).cons hcount

/-- A hold returns every reply in order, has a deadline exactly while a query is pending, holds
nothing but then and never much, and lets no reply go early. -/
theorem keeps_run (ops : List (HoldOp α)) : Keeps ops := by
  have hsound : (new : ReplyHold α).Sound := sound_new
  have hafter := hsound.run ops
  refine ⟨hsound.run_append ops, hafter.deadline, hafter.idle, hafter.bounded, ?_⟩
  intro before after replies _ hpending hout
  refine freed_of_out hpending fun hnil ↦ ?_
  rw [hnil, List.length_nil] at hout
  omega

/-- `a=q,i=1` is forwarded, and two replies come while it is pending. -/
def asked : List (HoldOp ℕ) :=
  [.setEnabled true,
    .forwarded [0x1b, 0x5f, 0x47, 0x61, 0x3d, 0x71, 0x2c, 0x69, 0x3d, 0x31, 0x1b, 0x5c] 10, .replies [1, 2]]

/-- The answer `i=1;OK`. -/
def answer : HoldOp ℕ := .input [0x1b, 0x5f, 0x47, 0x69, 0x3d, 0x31, 0x3b, 0x4f, 0x4b, 0x1b, 0x5c]

-- The replies wait for the answer of the host or for the deadline, and a later one goes out behind them.
example : (new.run asked).1 = [] ∧ (new.run asked).2.pending = [.image 1] ∧
    (new.run asked).2.deadline = some 510 ∧ (new.run asked).2.held = [1, 2] := by decide

example : (new.run (asked ++ [answer, .replies [3]])).1 = [1, 2, 3] ∧
    (new.run (asked ++ [.expire 509])).1 = [] ∧ (new.run (asked ++ [.expire 510])).1 = [1, 2] := by decide

end ReplyHold

end Embers
