import Mathlib

/-!
# Changing the order of a list

Swapping two elements and moving one, by position. Both only permute the list, and both commute
with whatever is done to each element, so lists that are kept in step stay in step.

On a list without duplicates the results have a description without positions: a swap renames its
two elements into each other, and a move is undone by erasing what was moved.
-/

namespace Embers

variable {α β : Type}

/-- `slice::swap`. -/
def swapIdx (l : List α) (i j : ℕ) : List α :=
  match l[i]?, l[j]? with
  | some a, some b => (l.set i b).set j a
  | _, _ => l

/-- Move the element at `i` to `j`. -/
def moveIdx (l : List α) (i j : ℕ) : List α :=
  match l[i]? with
  | some a => (l.eraseIdx i).insertIdx j a
  | none => l

variable {l : List α} {m : List β} {i j k : ℕ} {a b : α}

theorem eq_of_getElem? (hl : l.Nodup) (hi : l[i]? = some a) (hj : l[j]? = some a) : i = j := by
  obtain ⟨hilt, hia⟩ := List.getElem?_eq_some_iff.mp hi
  obtain ⟨hjlt, hja⟩ := List.getElem?_eq_some_iff.mp hj
  exact hl.getElem_inj_iff.mp (hia.trans hja.symm)

/-! ## Swaps -/

theorem swapIdx_of_get (hi : l[i]? = some a) (hj : l[j]? = some b) :
    swapIdx l i j = (l.set i b).set j a := by
  rw [swapIdx, hi, hj]

theorem getElem?_swapIdx (hi : i < l.length) (hj : j < l.length) (k : ℕ) :
    (swapIdx l i j)[k]? = l[Equiv.swap i j k]? := by
  rw [swapIdx_of_get (List.getElem?_eq_getElem hi) (List.getElem?_eq_getElem hj)]
  rw [List.getElem?_set, List.getElem?_set, Equiv.swap_apply_def, List.length_set]
  split_ifs with hkj _ hki <;> grind

@[simp] theorem length_swapIdx : (swapIdx l i j).length = l.length := by
  rw [swapIdx]
  split <;> simp

theorem swapIdx_comm (l : List α) (i j : ℕ) : swapIdx l i j = swapIdx l j i := by
  rw [swapIdx, swapIdx]
  rcases hi : l[i]? with _ | a <;> rcases hj : l[j]? with _ | b
  · rfl
  · rfl
  · rfl
  · by_cases hij : i = j
    · subst hij
      rw [Option.some.inj (hi.symm.trans hj)]
    · exact List.set_comm b a hij

theorem swapIdx_swapIdx (hi : i < l.length) (hj : j < l.length) :
    swapIdx (swapIdx l i j) i j = l := by
  apply List.ext_getElem?
  intro k
  rw [getElem?_swapIdx (by simpa using hi) (by simpa using hj), getElem?_swapIdx hi hj,
    Equiv.swap_apply_self]

theorem swapIdx_perm (hi : i < l.length) (hj : j < l.length) : (swapIdx l i j).Perm l := by
  rw [swapIdx_of_get (List.getElem?_eq_getElem hi) (List.getElem?_eq_getElem hj)]
  exact List.set_set_perm hi hj

theorem map_swapIdx (f : α → β) (hi : i < l.length) (hj : j < l.length) :
    (swapIdx l i j).map f = swapIdx (l.map f) i j := by
  apply List.ext_getElem?
  intro k
  rw [getElem?_swapIdx (by simpa using hi) (by simpa using hj), List.getElem?_map,
    List.getElem?_map, getElem?_swapIdx hi hj]

theorem zip_swapIdx (hi : i < l.length) (hj : j < l.length) (hlength : m.length = l.length) :
    (swapIdx l i j).zip (swapIdx m i j) = swapIdx (l.zip m) i j := by
  have hzip : (l.zip m).length = l.length := by rw [List.length_zip, hlength, Nat.min_self]
  apply List.ext_getElem?
  intro k
  rw [getElem?_swapIdx (hzip ▸ hi) (hzip ▸ hj), List.zip, List.getElem?_zipWith,
    List.getElem?_zipWith, getElem?_swapIdx hi hj, getElem?_swapIdx (hlength ▸ hi) (hlength ▸ hj)]

/-- Among different elements, a swap renames two into each other. -/
theorem swapIdx_eq_map [DecidableEq α] (hl : l.Nodup) (hi : l[i]? = some a) (hj : l[j]? = some b) :
    swapIdx l i j = l.map (Equiv.swap a b) := by
  obtain ⟨hilt, hia⟩ := List.getElem?_eq_some_iff.mp hi
  obtain ⟨hjlt, hjb⟩ := List.getElem?_eq_some_iff.mp hj
  apply List.ext_getElem?
  intro k
  rw [getElem?_swapIdx hilt hjlt, List.getElem?_map]
  by_cases hki : k = i
  · rw [hki, Equiv.swap_apply_left, hi, hj, Option.map_some, Equiv.swap_apply_left]
  · by_cases hkj : k = j
    · rw [hkj, Equiv.swap_apply_right, hi, hj, Option.map_some, Equiv.swap_apply_right]
    · rw [Equiv.swap_apply_of_ne_of_ne hki hkj]
      -- no other position holds one of the two
      by_cases hk : k < l.length
      · have hka : l[k] ≠ a := fun heq ↦ hki ((hl.getElem_inj_iff).mp (heq.trans hia.symm))
        have hkb : l[k] ≠ b := fun heq ↦ hkj ((hl.getElem_inj_iff).mp (heq.trans hjb.symm))
        rw [List.getElem?_eq_getElem hk, Option.map_some, Equiv.swap_apply_of_ne_of_ne hka hkb]
      · rw [List.getElem?_eq_none (Nat.le_of_not_lt hk), Option.map_none]

/-! ## Moves -/

theorem moveIdx_of_get (hi : l[i]? = some a) : moveIdx l i j = (l.eraseIdx i).insertIdx j a := by
  rw [moveIdx, hi]

theorem moveIdx_perm (hi : i < l.length) (hj : j < l.length) : (moveIdx l i j).Perm l := by
  rw [moveIdx_of_get (List.getElem?_eq_getElem hi)]
  have hle : j ≤ (l.eraseIdx i).length := by
    rw [List.length_eraseIdx_of_lt hi]
    exact Nat.le_sub_one_of_lt hj
  exact (List.perm_insertIdx _ _ hle).trans (List.getElem_cons_eraseIdx_perm hi)

theorem map_moveIdx (f : α → β) : (moveIdx l i j).map f = moveIdx (l.map f) i j := by
  rw [moveIdx, moveIdx, List.getElem?_map]
  cases l[i]? with
  | none => rfl
  | some a => rw [List.map_insertIdx, ← List.eraseIdx_map, Option.map_some]

theorem zip_moveIdx (hi : i < l.length) (hlength : m.length = l.length) :
    (moveIdx l i j).zip (moveIdx m i j) = moveIdx (l.zip m) i j := by
  have hzip : (l.zip m)[i]? = some (l[i], m[i]) := by
    rw [List.getElem?_zip_eq_some]
    exact ⟨List.getElem?_eq_getElem hi, List.getElem?_eq_getElem (hlength ▸ hi)⟩
  rw [moveIdx_of_get hzip, moveIdx_of_get (List.getElem?_eq_getElem hi),
    moveIdx_of_get (List.getElem?_eq_getElem (hlength ▸ hi))]
  apply List.ext_getElem?
  intro k
  simp only [List.zip, List.getElem?_zipWith, List.getElem?_insertIdx, List.getElem?_eraseIdx,
    List.length_eraseIdx, List.length_zipWith, hlength, Nat.min_self]
  split_ifs <;> simp_all

/-- What was moved is found where it was moved to, and the others in the order they had. -/
theorem getElem?_moveIdx (hi : i < l.length) (hj : j < l.length) (hk : k < l.length) :
    (moveIdx l i j)[if k = i then j
      else if i < k ∧ k ≤ j then k - 1
      else if k < i ∧ j ≤ k then k + 1
      else k]? = l[k]? := by
  have hle : j ≤ (l.eraseIdx i).length := by
    rw [List.length_eraseIdx_of_lt hi]
    exact Nat.le_sub_one_of_lt hj
  rw [moveIdx_of_get (List.getElem?_eq_getElem hi), List.getElem?_insertIdx,
    List.getElem?_eraseIdx]
  grind

theorem erase_insertIdx [DecidableEq α] {l : List α} (ha : a ∉ l) (hj : j ≤ l.length) :
    (l.insertIdx j a).erase a = l := by
  induction l generalizing j with
  | nil =>
    obtain rfl : j = 0 := Nat.le_zero.mp hj
    exact List.erase_cons_head a []
  | cons c l ih =>
    cases j with
    | zero => exact List.erase_cons_head a (c :: l)
    | succ j =>
      have hne : (c == a) = false := beq_false_of_ne fun h ↦ ha (h ▸ List.mem_cons_self)
      rw [List.insertIdx_succ_cons, List.erase_cons_tail (by simpa using hne),
        ih (fun h ↦ ha (List.mem_cons_of_mem c h)) (Nat.le_of_succ_le_succ hj)]

theorem eraseIdx_eq_erase [DecidableEq α] (hl : l.Nodup) (hi : l[i]? = some a) :
    l.eraseIdx i = l.erase a := by
  obtain ⟨hilt, rfl⟩ := List.getElem?_eq_some_iff.mp hi
  exact (hl.erase_getElem i hilt).symm

/-- Among different elements, the others keep their order. -/
theorem erase_moveIdx [DecidableEq α] (hl : l.Nodup) (hi : l[i]? = some a) (hj : j < l.length) :
    (moveIdx l i j).erase a = l.erase a := by
  obtain ⟨hilt, hia⟩ := List.getElem?_eq_some_iff.mp hi
  rw [moveIdx_of_get hi, eraseIdx_eq_erase hl hi]
  apply erase_insertIdx
  · exact hl.not_mem_erase
  · rw [List.length_erase_of_mem (hia ▸ List.getElem_mem hilt)]
    exact Nat.le_sub_one_of_lt hj

/-- Inserted at the position of an element, another stands right before it. -/
theorem insertIdx_before (hj : l[j]? = some b) : [a, b] <:+: l.insertIdx j a := by
  induction l generalizing j with
  | nil => cases hj
  | cons c l ih =>
    cases j with
    | zero =>
      obtain rfl := Option.some.inj hj
      exact ⟨[], l, rfl⟩
    | succ j => exact List.infix_cons (ih hj)

/-- Inserted one past the position of an element, another stands right after it. -/
theorem insertIdx_after (hj : l[j]? = some b) : [b, a] <:+: l.insertIdx (j + 1) a := by
  induction l generalizing j with
  | nil => cases hj
  | cons c l ih =>
    cases j with
    | zero =>
      obtain rfl := Option.some.inj hj
      exact ⟨[], l, rfl⟩
    | succ j => exact List.infix_cons (ih hj)

end Embers
