import Mathlib

/-!
# Counting entries of a kind

Entries of a list are told apart by their place, so that two of them may be equal. What a count of
one says of the places, and how a count follows the change of one entry.
-/

namespace Embers

namespace Count

variable {α : Type} {p : α → Bool} {l : List α} {i j : ℕ} {a b : α}

theorem countP_set_add (h : l[i]? = some a) (b : α) :
    (l.set i b).countP p + (if p a then 1 else 0) = l.countP p + if p b then 1 else 0 := by
  obtain ⟨hi, rfl⟩ := List.getElem?_eq_some_iff.1 h
  have hpos : p l[i] → 0 < l.countP p := fun hp ↦
    List.countP_pos_iff.2 ⟨_, List.getElem_mem hi, hp⟩
  rw [List.countP_set hi]
  by_cases hp : p l[i] = true
  · have := hpos hp
    rw [if_pos hp]
    omega
  · rw [if_neg hp]
    omega

/-- With at most one entry of a kind, there is one place for it. -/
theorem eq_of_countP_le_one (hone : l.countP p ≤ 1) (hi : l[i]? = some a) (hj : l[j]? = some b)
    (ha : p a) (hb : p b) : i = j := by
  induction l generalizing i j with
  | nil => simp at hi
  | cons x l ih =>
    rw [List.countP_cons] at hone
    rcases i with _ | i
    · rcases j with _ | j
      · rfl
      · have hx : p x := by
          rw [List.getElem?_cons_zero, Option.some.injEq] at hi
          exact hi ▸ ha
        have hpos : 0 < l.countP p := List.countP_pos_iff.2 ⟨b, List.mem_of_getElem? hj, hb⟩
        rw [if_pos hx] at hone
        omega
    · rcases j with _ | j
      · have hx : p x := by
          rw [List.getElem?_cons_zero, Option.some.injEq] at hj
          exact hj ▸ hb
        have hpos : 0 < l.countP p := List.countP_pos_iff.2 ⟨a, List.mem_of_getElem? hi, ha⟩
        rw [if_pos hx] at hone
        omega
      · rw [ih (by omega) hi hj]

/-- A kind that only one place is of is counted once. -/
theorem countP_le_one (h : ∀ j b, j ≠ i → l[j]? = some b → ¬p b) : l.countP p ≤ 1 := by
  induction l generalizing i with
  | nil => simp
  | cons x l ih =>
    rw [List.countP_cons]
    rcases i with _ | i
    · have hnone : l.countP p = 0 := by
        rw [List.countP_eq_zero]
        intro b hb
        obtain ⟨j, hj⟩ := List.getElem?_of_mem hb
        exact h (j + 1) b (by omega) hj
      rw [hnone]
      split <;> omega
    · have hx : ¬p x := h 0 x (by omega) rfl
      have hrest : l.countP p ≤ 1 := @ih i fun j b hne hj ↦ h (j + 1) b (by omega) hj
      rw [if_neg hx]
      omega

end Count

end Embers
