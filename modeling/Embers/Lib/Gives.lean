import Mathlib

/-!
# Computations that succeed

`Gives` says of a fallible computation that it succeeds, with a value that satisfies a
postcondition. A loop over a list succeeds when each turn does from the states that an invariant
allows. `Yields` says the same of the value only, if there is one.
-/

namespace Embers

variable {ε α β : Type}

/-- The computation succeeds, and its value satisfies `P`. -/
def Gives (m : Except ε α) (P : α → Prop) : Prop := ∃ a, m = .ok a ∧ P a

namespace Gives

variable {m : Except ε α} {P Q : α → Prop}

theorem pure {a : α} (h : P a) : Gives (Pure.pure a : Except ε α) P := ⟨a, rfl, h⟩

theorem mono (h : Gives m P) (himp : ∀ a, P a → Q a) : Gives m Q := by
  obtain ⟨a, hm, ha⟩ := h
  exact ⟨a, hm, himp a ha⟩

theorem bind {f : α → Except ε β} {R : β → Prop} (h : Gives m P)
    (hf : ∀ a, P a → Gives (f a) R) : Gives (m >>= f) R := by
  obtain ⟨a, rfl, ha⟩ := h
  exact hf a ha

/-- What a loop keeps, each turn keeps. -/
theorem foldlM {l : List β} {f : α → β → Except ε α} {I : α → Prop}
    (hf : ∀ b ∈ l, ∀ a, I a → Gives (f a b) I) : ∀ {a : α}, I a → Gives (l.foldlM f a) I := by
  induction l with
  | nil => exact fun ha ↦ .pure ha
  | cons b bs ih =>
    intro a ha
    rw [List.foldlM_cons]
    refine (hf b List.mem_cons_self a ha).bind fun a' ha' ↦ ?_
    exact ih (fun b' hb' ↦ hf b' (List.mem_cons_of_mem _ hb')) ha'

end Gives

/-- The value of the computation, if it succeeds, satisfies `P`. -/
def Yields (m : Except ε α) (P : α → Prop) : Prop := ∀ a, m = .ok a → P a

namespace Yields

variable {m : Except ε α} {P Q : α → Prop}

theorem pure {a : α} (h : P a) : Yields (Pure.pure a : Except ε α) P := by
  intro a' ha'
  exact Except.ok.inj ha' ▸ h

theorem bind {f : α → Except ε β} {R : β → Prop} (h : Yields m P)
    (hf : ∀ a, P a → Yields (f a) R) : Yields (m >>= f) R := by
  rcases m with e | a
  · exact fun b hb ↦ nomatch hb
  · exact hf a (h a rfl)

theorem foldlM {l : List β} {f : α → β → Except ε α} {I : α → Prop}
    (hf : ∀ b ∈ l, ∀ a, I a → Yields (f a b) I) : ∀ {a : α}, I a → Yields (l.foldlM f a) I := by
  induction l with
  | nil => exact fun ha ↦ .pure ha
  | cons b bs ih =>
    intro a ha
    rw [List.foldlM_cons]
    refine (hf b List.mem_cons_self a ha).bind fun a' ha' ↦ ?_
    exact ih (fun b' hb' ↦ hf b' (List.mem_cons_of_mem _ hb')) ha'

end Yields

end Embers
