import Mathlib

/-!
# Sparse tables

A list is sent as the entries of those items that differ from a default, each tagged with its place,
and scattered over a list of defaults on the other side. Scattering brings every item back when an
entry, put in its place, makes the item of the default: the entries come in the order of the items,
so the items before the one at hand are done and those after it are still defaults.
-/

namespace Embers

variable {α β γ : Type*}

/-- The entries of the items that have one, each made of the item and its place. -/
def sparseEntries (has : α → Bool) (entry : α → ℕ → γ) (items : List α) (start : ℕ) : List γ :=
  ((items.zipIdx start).filter fun item ↦ has item.1).map fun item ↦ entry item.1 item.2

variable {has : α → Bool} {entry : α → ℕ → γ}

theorem sparseEntries_cons (item : α) (items : List α) (start : ℕ) :
    sparseEntries has entry (item :: items) start =
      if has item then entry item start :: sparseEntries has entry items (start + 1)
      else sparseEntries has entry items (start + 1) := by
  rw [sparseEntries, List.zipIdx_cons, List.filter_cons]
  split
  · rfl
  · rfl

theorem sparseEntries_eq_nil {items : List α} (h : ∀ item ∈ items, has item = false) (start : ℕ) :
    sparseEntries has entry items start = [] := by
  induction items generalizing start with
  | nil => rfl
  | cons item items ih =>
    rw [sparseEntries_cons, h item List.mem_cons_self, if_neg Bool.false_ne_true]
    exact ih (fun i hi ↦ h i (List.mem_cons_of_mem _ hi)) (start + 1)

/-- The item after those that are done is the one with their number. -/
theorem modify_length_append (done rest : List β) (item : β) (f : β → β) :
    (done ++ item :: rest).modify done.length f = done ++ f item :: rest := by
  rw [List.modify_eq_take_cons_drop (by simp)]
  simp

/-- Scattering undoes `sparseEntries`: `before` is the default of an item and `after` what comes
back. Places from `limit` on have no tag of their own. -/
theorem foldl_sparseEntries {place : List β → γ → List β} (before after : α → β) (limit : ℕ)
    {items : List α}
    (hplace : ∀ item ∈ items, has item = true → ∀ done rest : List β, done.length < limit →
      place (done ++ before item :: rest) (entry item done.length) = done ++ after item :: rest)
    (hplain : ∀ item ∈ items, has item = false → before item = after item)
    (done : List β) (hlimit : done.length + items.length ≤ limit) :
    (sparseEntries has entry items done.length).foldl place (done ++ items.map before) =
      done ++ items.map after := by
  induction items generalizing done with
  | nil => rfl
  | cons item items ih =>
    rw [List.length_cons] at hlimit
    have hrest := ih (fun i hi ↦ hplace i (List.mem_cons_of_mem _ hi))
      (fun i hi ↦ hplain i (List.mem_cons_of_mem _ hi)) (done ++ [after item])
      (by rw [List.length_append, List.length_singleton]; omega)
    rw [List.length_append, List.length_singleton, List.append_assoc, List.append_assoc,
      List.singleton_append, List.singleton_append] at hrest
    rw [sparseEntries_cons, List.map_cons, List.map_cons]
    split
    · next hhas =>
      rw [List.foldl_cons, hplace item List.mem_cons_self hhas done _ (by omega)]
      exact hrest
    · next hhas =>
      rw [hplain item List.mem_cons_self (Bool.eq_false_of_not_eq_true hhas)]
      exact hrest

end Embers
