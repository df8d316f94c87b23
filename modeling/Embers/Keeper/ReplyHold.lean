import Embers.Keeper.Router

/-!
# Replies held behind graphics queries

The emulator's replies that follow a forwarded graphics query are kept until the host terminal's
answer has been written to the pane, or until a deadline. Nothing here looks at a reply: `ReplyHold`
is generic in what one is, so that a run may number them.

Every operation obeys one law: what goes out, followed by what stays held, is what was held followed
by what came. It rests on `ReplyHold.Idle`, that nothing is held when nothing is pending: only then
may new replies go out past the hold.
-/

namespace Embers

/-! ## Graphics commands -/

/-- How a graphics command names its image. -/
inductive GraphicsId where
  | image (id : ℕ)
  | number (number : ℕ)
  deriving DecidableEq, Repr

/-- What stands before and after the first place where `needle` occurs. -/
def splitAtFirst (needle : List UInt8) : List UInt8 → Option (List UInt8 × List UInt8)
  | [] => if needle.isEmpty then some ([], []) else none
  | byte :: bytes =>
    match (byte :: bytes).dropPrefix? needle with
    | some rest => some ([], rest)
    | none => (splitAtFirst needle bytes).map fun (before, rest) ↦ (byte :: before, rest)

/-- The control data of every complete graphics command, with a bound on how many there are. -/
def graphicsCommandsUpTo : ℕ → List UInt8 → List (List UInt8)
  | 0, _ => []
  | fuel + 1, bytes =>
    match splitAtFirst [esc, 0x5f, 0x47] bytes with
    | none => []
    | some (_, rest) =>
      match splitAtFirst [esc, backslash] rest with
      | none => []
      | some (command, rest) =>
        -- the control data is what comes before the `;` of the payload
        command.takeWhile (· ≠ 0x3b) :: graphicsCommandsUpTo fuel rest

/-- Every command takes more than one byte, so the length bounds their number. -/
def graphicsCommands (bytes : List UInt8) : List (List UInt8) :=
  graphicsCommandsUpTo bytes.length bytes

/-- The `key=value` pairs of a graphics command's control data. -/
def controlKeys (control : List UInt8) : List (List UInt8 × List UInt8) :=
  (control.splitOn 0x2c).filterMap (splitAtFirst [0x3d])

/-- The loop of `isAnsweredQuery`, with whether an `a=q` was the last `a` so far. -/
def answeredLoop : Bool → List (List UInt8 × List UInt8) → Bool
  | query, [] => query
  | query, (key, value) :: keys =>
    if key = [0x61] then answeredLoop (value = [0x71]) keys
    else if key = [0x71] ∧ value ≠ [0x30] then false
    else answeredLoop query keys

/-- A query the terminal answers: `a=q`, without asking to stay quiet. -/
def isAnsweredQuery (control : List UInt8) : Bool := answeredLoop false (controlKeys control)

/-- A decimal number of 32 bits, with an optional plus sign. -/
def parseU32 (value : List UInt8) : Option ℕ :=
  let digits := (value.dropPrefix? [0x2b]).getD value
  if digits.isEmpty ∨ ¬digits.all (fun byte ↦ 0x30 ≤ byte ∧ byte ≤ 0x39) then none
  else
    let number := digits.foldl (fun number byte ↦ number * 10 + (byte.toNat - 0x30)) 0
    if number < 2 ^ 32 then some number else none

def graphicsIds (control : List UInt8) : List GraphicsId :=
  (controlKeys control).filterMap fun (key, value) ↦
    if key = [0x69] then (parseU32 value).map .image
    else if key = [0x49] then (parseU32 value).map .number
    else none

/-! ## The hold -/

/-- How long replies wait, in milliseconds. -/
def replyHoldTimeout : ℕ := 500

def maxHeldReplyBytes : ℕ := 64 * 1024

/-- Replies held while forwarded graphics queries wait for the host terminal's answer. -/
structure ReplyHold (α : Type*) where
  enabled : Bool
  pending : List GraphicsId
  deadline : Option ℕ
  held : List α

namespace ReplyHold

variable {α : Type*}

def new : ReplyHold α := ⟨false, [], none, []⟩

def release (hold : ReplyHold α) : List α × ReplyHold α :=
  (hold.held, { hold with pending := [], deadline := none, held := [] })

def setEnabled (hold : ReplyHold α) (enabled : Bool) : List α × ReplyHold α :=
  let hold := { hold with enabled }
  if enabled then ([], hold) else hold.release

def forwarded (hold : ReplyHold α) (write : List UInt8) (now : ℕ) : ReplyHold α :=
  if ¬hold.enabled then hold
  else
    let queries := ((graphicsCommands write).filter isAnsweredQuery).filterMap
      fun control ↦ (graphicsIds control).head?
    let pending := hold.pending ++ queries
    { hold with
      pending
      deadline := if pending.length > hold.pending.length then some (now + replyHoldTimeout)
        else hold.deadline }

def replies (hold : ReplyHold α) (replies : List α) : List α × ReplyHold α :=
  if hold.pending.isEmpty then (replies, hold)
  else
    let hold := { hold with held := hold.held ++ replies }
    if hold.held.length > maxHeldReplyBytes then hold.release else ([], hold)

def input (hold : ReplyHold α) (input : List UInt8) : List α × ReplyHold α :=
  if hold.pending.isEmpty then ([], hold)
  else
    let ids := (graphicsCommands input).flatMap graphicsIds
    -- each answer removes the first pending query of its name
    let pending := ids.foldl List.erase hold.pending
    let hold := { hold with pending }
    if pending.isEmpty then hold.release else ([], hold)

def expire (hold : ReplyHold α) (now : ℕ) : List α × ReplyHold α :=
  if hold.deadline.any (· ≤ now) then hold.release else ([], hold)

/-- What a read makes of the replies: those the emulator has produced by each sequence for the host
go through the hold before the sequence does, and the rest after the last of them. -/
def routeOutput (now : ℕ) : ReplyHold α → List (List α × List UInt8) → List α →
    List α × ReplyHold α
  | hold, [], last => hold.replies last
  | hold, (before, write) :: segments, last =>
    let (out, hold) := hold.replies before
    let (rest, hold) := routeOutput now (hold.forwarded write now) segments last
    (out ++ rest, hold)

/-! ## The law -/

/-- Nothing is held when nothing is pending. -/
def Idle (hold : ReplyHold α) : Prop := hold.pending = [] → hold.held = []

theorem idle_new : (new : ReplyHold α).Idle := fun _ ↦ rfl

theorem release_idle (hold : ReplyHold α) : hold.release.2.Idle := fun _ ↦ rfl

/-- What goes out, then what stays, is what was held, then what came; and the hold keeps its
invariant. -/
structure Conserves (hold : ReplyHold α) (came : List α) (after : List α × ReplyHold α) : Prop where
  idle : after.2.Idle
  append : after.1 ++ after.2.held = hold.held ++ came

theorem release_conserves (hold : ReplyHold α) : hold.Conserves [] hold.release :=
  ⟨hold.release_idle, rfl⟩

variable {hold : ReplyHold α}

theorem setEnabled_conserves (h : hold.Idle) (enabled : Bool) :
    hold.Conserves [] (hold.setEnabled enabled) := by
  cases enabled with
  | true => exact ⟨h, by simp [setEnabled]⟩
  | false =>
    have hrelease := release_conserves { hold with enabled := false }
    exact ⟨hrelease.idle, hrelease.append⟩

theorem forwarded_held (hold : ReplyHold α) (write : List UInt8) (now : ℕ) :
    (hold.forwarded write now).held = hold.held := by
  rw [forwarded]
  split <;> rfl

theorem forwarded_idle (h : hold.Idle) (write : List UInt8) (now : ℕ) :
    (hold.forwarded write now).Idle := by
  intro hpending
  rw [forwarded_held]
  refine h ?_
  rw [forwarded] at hpending
  split at hpending
  · exact hpending
  · exact (List.append_eq_nil_iff.mp hpending).1

theorem replies_conserves (h : hold.Idle) (replies : List α) :
    hold.Conserves replies (hold.replies replies) := by
  by_cases hpending : hold.pending = []
  -- the replies pass, and there is nothing they could pass by
  · have hheld : hold.held = [] := h hpending
    simp only [ReplyHold.replies, hpending, List.isEmpty_nil, if_true]
    exact ⟨h, by simp [hheld]⟩
  · have hne : hold.pending.isEmpty = false := by simpa using hpending
    simp only [ReplyHold.replies, hne, Bool.false_eq_true, if_false]
    split
    · have hrelease := release_conserves { hold with held := hold.held ++ replies }
      exact ⟨hrelease.idle, by simpa using hrelease.append⟩
    · exact ⟨fun hnil ↦ absurd hnil hpending, rfl⟩

theorem input_conserves (h : hold.Idle) (input : List UInt8) :
    hold.Conserves [] (hold.input input) := by
  by_cases hpending : hold.pending = []
  · simp only [ReplyHold.input, hpending, List.isEmpty_nil, if_true]
    exact ⟨h, by simp⟩
  · have hne : hold.pending.isEmpty = false := by simpa using hpending
    simp only [ReplyHold.input, hne, Bool.false_eq_true, if_false]
    split
    · exact ⟨release_idle _, by simp [release]⟩
    · rename_i hleft
      exact ⟨fun hnil ↦ absurd (by simpa using hnil) hleft, by simp⟩

theorem expire_conserves (h : hold.Idle) (now : ℕ) : hold.Conserves [] (hold.expire now) := by
  rw [expire]
  split
  · exact release_conserves hold
  · exact ⟨h, by simp⟩

theorem routeOutput_conserves (now : ℕ) (segments : List (List α × List UInt8)) (last : List α) :
    ∀ hold : ReplyHold α, hold.Idle →
      hold.Conserves (segments.flatMap (·.1) ++ last) (hold.routeOutput now segments last) := by
  induction segments with
  | nil => intro hold h; exact replies_conserves h last
  | cons segment segments ih =>
    intro hold h
    obtain ⟨before, write⟩ := segment
    have hbefore := replies_conserves h before
    have hrest := ih _ (forwarded_idle hbefore.idle write now)
    refine ⟨hrest.idle, ?_⟩
    have happend := hrest.append
    rw [forwarded_held] at happend
    have hroute : hold.routeOutput now ((before, write) :: segments) last =
        ((hold.replies before).1 ++
            (routeOutput now ((hold.replies before).2.forwarded write now) segments last).1,
          (routeOutput now ((hold.replies before).2.forwarded write now) segments last).2) := rfl
    rw [hroute, List.append_assoc, happend, ← List.append_assoc, hbefore.append]
    simp

end ReplyHold

end Embers
