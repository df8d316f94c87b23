import Embers.Lib.Table

/-!
# Reading back what was written

A writer that checks its data first, and a reader that can fail. A check passes if all its parts do, and
a list that was written element by element is read back when each element is. A table that was written
as the list of its entries is the one that inserting them again gives.
-/

namespace Embers

section Checks

variable {ε α β γ : Type}

theorem ok_bind_iff {m : Except ε α} {f : α → Except ε β} {b : β} :
    (m >>= f) = .ok b ↔ ∃ a, m = .ok a ∧ f a = .ok b := by
  constructor
  · intro h
    cases m with
    | error e => cases h
    | ok a => exact ⟨a, rfl, h⟩
  · rintro ⟨a, rfl, hf⟩
    exact hf

theorem ok_andThen (a : α) (f : α → Except ε β) : ((.ok a : Except ε α) >>= f) = f a := rfl

theorem checks_iff {m : Except ε Unit} {f : Unit → Except ε Unit} :
    (m >>= f) = .ok () ↔ m = .ok () ∧ f () = .ok () := by
  rw [ok_bind_iff]
  exact Unique.exists_iff

theorem checksEach_iff {f : α → Except ε Unit} {l : List α} :
    l.forM f = .ok () ↔ ∀ a ∈ l, f a = .ok () := by
  induction l with
  | nil => exact ⟨fun _ a ha ↦ absurd ha List.not_mem_nil, fun _ ↦ rfl⟩
  | cons a l ih =>
    rw [List.forall_mem_cons, ← ih]
    exact checks_iff

/-- A list that was written one by one is read back one by one. -/
theorem mapM_written {write : α → β} {read : β → Except ε γ} {result : α → γ} {l : List α}
    (h : ∀ a ∈ l, read (write a) = .ok (result a)) :
    (l.map write).mapM read = .ok (l.map result) := by
  induction l with
  | nil => rfl
  | cons a l ih =>
    rw [List.forall_mem_cons] at h
    rw [List.map_cons, List.mapM_cons, h.1, ih h.2]
    rfl

/-- When some elements cannot be read back, the list is if all can. -/
theorem mapM_written_iff {write : α → β} {read : β → Except ε γ} {readable : α → Prop} {result : α → γ}
    {l : List α} {cs : List γ}
    (h : ∀ a ∈ l, ∀ c, read (write a) = .ok c ↔ readable a ∧ c = result a) :
    (l.map write).mapM read = .ok cs ↔ (∀ a ∈ l, readable a) ∧ cs = l.map result := by
  induction l generalizing cs with
  | nil => simp [pure, Except.pure, eq_comm]
  | cons a l ih =>
    rw [List.forall_mem_cons] at h
    rw [List.map_cons, List.mapM_cons, ok_bind_iff, List.forall_mem_cons]
    constructor
    · rintro ⟨c, hc, hrest⟩
      obtain ⟨cs', hcs', hcs⟩ := ok_bind_iff.mp hrest
      obtain ⟨hreadable, rfl⟩ := (h.1 c).mp hc
      obtain ⟨hall, rfl⟩ := (ih h.2).mp hcs'
      exact ⟨⟨hreadable, hall⟩, (Except.ok.inj hcs).symm⟩
    · rintro ⟨⟨hreadable, hall⟩, rfl⟩
      exact ⟨_, (h.1 _).mpr ⟨hreadable, rfl⟩, ok_bind_iff.mpr ⟨_, (ih h.2).mpr ⟨hall, rfl⟩, rfl⟩⟩

end Checks

namespace Table

variable {κ α : Type} [Ord κ] [Std.TransOrd κ] [Std.LawfulEqOrd κ] [DecidableEq κ]

/-- The entries of a list whose keys differ, inserted one after another. -/
theorem get?_foldl_insert {entries : List (κ × α)} (h : (entries.map Prod.fst).Nodup) (t : Table κ α)
    (k : κ) (v : α) :
    (entries.foldl (fun t entry ↦ t.insert entry.1 entry.2) t)[k]? = some v ↔
      (k, v) ∈ entries ∨ k ∉ entries.map Prod.fst ∧ t[k]? = some v := by
  induction entries generalizing t with
  | nil => simp
  | cons entry entries ih =>
    obtain ⟨key, value⟩ := entry
    rw [List.map_cons, List.nodup_cons] at h
    have hnotMem (hmem : (key, v) ∈ entries) : False := h.1 (List.mem_map.mpr ⟨_, hmem, rfl⟩)
    rw [List.foldl_cons, ih h.2, get?_insert]
    by_cases hk : key = k
    · subst hk
      simp only [if_true, Option.some.injEq, List.mem_cons, Prod.mk.injEq, true_and, List.map_cons,
        true_or, not_true_eq_false, false_and, or_false]
      constructor
      · rintro (hmem | ⟨-, rfl⟩)
        · exact absurd hmem hnotMem
        · exact .inl rfl
      · rintro (rfl | hmem)
        · exact .inr ⟨h.1, rfl⟩
        · exact absurd hmem hnotMem
    · simp [hk, Ne.symm hk]

/-- A table is made of its entries. -/
theorem foldl_insert_toList (t : Table κ α) :
    t.toList.foldl (fun t entry ↦ t.insert entry.1 entry.2) ∅ = t := by
  apply Std.ExtTreeMap.ext_getElem?
  intro k
  have hkeys : (t.toList.map Prod.fst).Nodup := by
    rw [Std.ExtTreeMap.map_fst_toList_eq_keys]
    exact Std.ExtTreeMap.nodup_keys
  refine Option.ext fun v ↦ ?_
  rw [get?_foldl_insert hkeys, mem_toList]
  simp

end Table

end Embers
