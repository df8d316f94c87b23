import Mathlib

/-!
# Registers guarded by a sequence number

A register keeps a value and the highest sequence number it has been sent. A message carries a
number and, possibly, a value; the value is stored only when the number passes the register's
guard, so a stale message never overwrites a newer one. The guard is what makes the messages
commute for the number — whatever order they come in, the register ends at the largest — and what
makes them fail to commute for the value: a message that is overtaken by a higher-numbered one is
dropped, even when nobody else carries a value.

`run_value_of_last` is the positive side: the last message whose value gets through decides it,
whatever refused values come after.
-/

namespace Embers

/-- Which messages a register takes a value from: those numbered at least as high as the register,
or only those numbered higher. -/
inductive Guard where
  | atLeast
  | above
  deriving DecidableEq

/-- Whether a message numbered `seq` passes the guard of a register at `stored`. -/
def Guard.Passes {σ : Type} [LinearOrder σ] : Guard → σ → σ → Prop
  | .atLeast, stored, seq => stored ≤ seq
  | .above, stored, seq => stored < seq

instance {σ : Type} [LinearOrder σ] (g : Guard) (stored seq : σ) : Decidable (g.Passes stored seq) :=
  match g with
  | .atLeast => inferInstanceAs (Decidable (stored ≤ seq))
  | .above => inferInstanceAs (Decidable (stored < seq))

/-- A value and the highest sequence number received. -/
@[ext] structure Register (σ β : Type) where
  seq : σ
  value : β

/-- A sequence number and the value it brings, if any. -/
structure Message (σ β : Type) where
  seq : σ
  value : Option β

namespace Register

variable {σ β : Type} [LinearOrder σ] (g : Guard)

/-- The register after one message. -/
def receive (r : Register σ β) (m : Message σ β) : Register σ β where
  seq := max r.seq m.seq
  value := if g.Passes r.seq m.seq then m.value.getD r.value else r.value

/-- The register after the messages, in the order given. -/
def run (r : Register σ β) (ms : List (Message σ β)) : Register σ β := ms.foldl (receive g) r

variable {g} {r : Register σ β} {m : Message σ β} {ms : List (Message σ β)}

@[simp] theorem run_nil : run g r [] = r := rfl

@[simp] theorem run_cons : run g r (m :: ms) = run g (receive g r m) ms := rfl

theorem run_append (ms ms' : List (Message σ β)) :
    run g r (ms ++ ms') = run g (run g r ms) ms' := List.foldl_append

theorem le_run_seq : r.seq ≤ (run g r ms).seq := by
  induction ms generalizing r with
  | nil => exact le_rfl
  | cons m ms ih => exact (le_max_left r.seq m.seq).trans (ih (r := receive g r m))

theorem seq_le_run_seq (hm : m ∈ ms) : m.seq ≤ (run g r ms).seq := by
  obtain ⟨ms₁, ms₂, rfl⟩ := List.append_of_mem hm
  rw [run_append]
  exact (le_max_right _ _).trans (le_run_seq (r := receive g (run g r ms₁) m))

/-- The number stays below any bound on what was sent. -/
theorem run_seq_le {b : σ} (hr : r.seq ≤ b) (hms : ∀ m ∈ ms, m.seq ≤ b) :
    (run g r ms).seq ≤ b := by
  induction ms generalizing r with
  | nil => exact hr
  | cons m ms ih =>
    exact ih (max_le hr (hms m List.mem_cons_self)) fun m' hm' ↦ hms m' (List.mem_cons_of_mem _ hm')

/-- Messages without a value leave it alone. -/
theorem run_value_of_none (h : ∀ m ∈ ms, m.value = none) : (run g r ms).value = r.value := by
  induction ms generalizing r with
  | nil => rfl
  | cons m ms ih =>
    rw [run_cons, ih fun m' hm' ↦ h m' (List.mem_cons_of_mem _ hm')]
    simp [receive, h m List.mem_cons_self]

/-- What passes the register after a run passes it before and every message of the run. -/
theorem passes_run_iff {b : σ} : g.Passes (run g r ms).seq b ↔
    g.Passes r.seq b ∧ ∀ m ∈ ms, g.Passes m.seq b := by
  induction ms generalizing r with
  | nil => simp
  | cons m ms ih =>
    rw [run_cons, ih, List.forall_mem_cons, ← and_assoc]
    refine and_congr_left' ?_
    cases g with
    | atLeast => exact max_le_iff
    | above => exact max_lt_iff

/-- Messages whose values are refused leave the value alone. -/
theorem run_value_of_refused (h : ∀ before m after, ms = before ++ m :: after →
    g.Passes (run g r before).seq m.seq → m.value = none) : (run g r ms).value = r.value := by
  induction ms generalizing r with
  | nil => rfl
  | cons m ms ih =>
    rw [run_cons, ih fun before m' after hms ↦ h (m :: before) m' after (by rw [hms]; rfl)]
    by_cases hpasses : g.Passes r.seq m.seq
    · simp [receive, h [] m ms rfl hpasses]
    · rw [receive, if_neg hpasses]

/-- The last message to get a value through decides it. -/
theorem run_value_of_last {before after : List (Message σ β)} {v : β} (hv : m.value = some v)
    (hpasses : g.Passes (run g r before).seq m.seq)
    (hafter : ∀ mid m' rest, after = mid ++ m' :: rest →
      g.Passes (run g r (before ++ m :: mid)).seq m'.seq → m'.value = none) :
    (run g r (before ++ m :: after)).value = v := by
  rw [run_append, run_cons, run_value_of_refused fun mid m' rest hms h ↦ hafter mid m' rest hms ?_]
  · simp [receive, hpasses, hv]
  · rwa [run_append, run_cons]

end Register

end Embers
