import Mathlib

/-!
# Ordered tables

A table is a finite map that is read in ascending key order: `Std.ExtTreeMap`, whose equality is
extensional. The library states its lookup lemmas through the comparison function; a lawful
order turns every such test into an equality of keys, which is the form proofs use.
-/

namespace Embers

/-- A finite map from `κ` to `α`, read in ascending key order. -/
abbrev Table (κ α : Type) [Ord κ] := Std.ExtTreeMap κ α compare

namespace Table

variable {κ α : Type} [Ord κ] [Std.TransOrd κ] {t : Table κ α} {k : κ} {v : α}

theorem contains_iff : t.contains k = true ↔ ∃ v, t[k]? = some v := by
  rw [Std.ExtTreeMap.contains_iff_mem, ← Std.ExtTreeMap.isSome_getElem?_iff_mem,
    Option.isSome_iff_exists]

variable [Std.LawfulEqOrd κ]

theorem mem_toList : (k, v) ∈ t.toList ↔ t[k]? = some v :=
  Std.ExtTreeMap.mem_toList_iff_getElem?_eq_some

theorem mem_keys : k ∈ t.keys ↔ ∃ v, t[k]? = some v := by
  rw [Std.ExtTreeMap.mem_keys, ← Std.ExtTreeMap.isSome_getElem?_iff_mem, Option.isSome_iff_exists]

/-- The values of a table whose values know their keys. -/
theorem mem_values {key : α → κ} (hkey : ∀ {k v}, t[k]? = some v → key v = k) :
    v ∈ t.toList.map (·.2) ↔ t[key v]? = some v := by
  constructor
  · intro hmem
    obtain ⟨⟨k, v⟩, hentry, rfl⟩ := List.mem_map.mp hmem
    have hget : t[k]? = some v := mem_toList.mp hentry
    exact hkey hget ▸ hget
  · intro hget
    exact List.mem_map.mpr ⟨(key v, v), mem_toList.mpr hget, rfl⟩

/-- Two tables that agree through `f` and `g` list the same keys with the same images. -/
theorem toList_map_congr {β γ : Type} {t : Table κ α} {t' : Table κ β} {f : α → γ} {g : β → γ}
    (h : ∀ k : κ, t[k]?.map f = t'[k]?.map g) :
    t.toList.map (fun entry ↦ (entry.1, f entry.2)) =
      t'.toList.map (fun entry ↦ (entry.1, g entry.2)) := by
  have hmap : t.map (fun _ a ↦ f a) = t'.map (fun _ b ↦ g b) := by
    apply Std.ExtTreeMap.ext_getElem?
    intro k
    rw [Std.ExtTreeMap.getElem?_map, Std.ExtTreeMap.getElem?_map, h]
  have hlist := congrArg Std.ExtTreeMap.toList hmap
  rwa [Std.ExtTreeMap.toList_map, Std.ExtTreeMap.toList_map] at hlist

@[grind =] theorem get?_filter (t : Table κ α) (p : κ → α → Bool) (k : κ) :
    (t.filter p)[k]? = t[k]?.filter (p k) :=
  Std.ExtTreeMap.getElem?_filter'

variable [DecidableEq κ]

@[grind =] theorem get?_insert (t : Table κ α) (k k' : κ) (v : α) :
    (t.insert k v)[k']? = if k = k' then some v else t[k']? := by
  rw [Std.ExtTreeMap.getElem?_insert]
  simp only [Std.LawfulEqCmp.compare_eq_iff_eq]

@[grind =] theorem get?_erase (t : Table κ α) (k k' : κ) :
    (t.erase k)[k']? = if k = k' then none else t[k']? := by
  rw [Std.ExtTreeMap.getElem?_erase]
  simp only [Std.LawfulEqCmp.compare_eq_iff_eq]

@[grind =] theorem get?_modify (t : Table κ α) (k k' : κ) (f : α → α) :
    (t.modify k f)[k']? = if k = k' then t[k']?.map f else t[k']? := by
  rw [Std.ExtTreeMap.getElem?_modify]
  simp only [Std.LawfulEqCmp.compare_eq_iff_eq]
  split
  next h => rw [h]
  next => rfl

/-- Inserting under a key twice is inserting the second value. -/
theorem insert_insert_self (t : Table κ α) (k : κ) (v w : α) :
    (t.insert k v).insert k w = t.insert k w := by
  apply Std.ExtTreeMap.ext_getElem?
  intro k'
  rw [get?_insert, get?_insert, get?_insert]
  split <;> rfl

/-- A change that `g` does not see. -/
theorem map_modify {β : Type} {f : α → α} {g : α → β} (h : ∀ a, g (f a) = g a) (t : Table κ α)
    (k : κ) : (t.modify k f).map (fun _ a ↦ g a) = t.map fun _ a ↦ g a := by
  apply Std.ExtTreeMap.ext_getElem?
  intro k'
  rw [Std.ExtTreeMap.getElem?_map, Std.ExtTreeMap.getElem?_map, get?_modify]
  split
  · rw [Option.map_map, show g ∘ f = g from funext h]
  · rfl

/-- Inserting what is there changes nothing. -/
theorem insert_of_get? {t : Table κ α} {k : κ} {v : α} (h : t[k]? = some v) : t.insert k v = t := by
  apply Std.ExtTreeMap.ext_getElem?
  intro k'
  rw [get?_insert]
  split
  next hk => rw [← hk, h]
  next => rfl

theorem modify_of_get? {t : Table κ α} {k : κ} {v : α} (h : t[k]? = some v) (f : α → α) :
    t.modify k f = t.insert k (f v) := by
  apply Std.ExtTreeMap.ext_getElem?
  intro k'
  rw [get?_modify, get?_insert]
  split
  next hk => rw [← hk, h, Option.map_some]
  next => rfl

/-- Changing a missing entry changes nothing. -/
theorem modify_of_get?_none {t : Table κ α} {k : κ} (h : t[k]? = none) (f : α → α) :
    t.modify k f = t := by
  apply Std.ExtTreeMap.ext_getElem?
  intro k'
  rw [get?_modify]
  split
  next hk => rw [← hk, h, Option.map_none]
  next => rfl

/-! ## Several entries at once -/

/-- Insert every value under its own key, later ones over earlier ones. -/
def insertAll (key : α → κ) (t : Table κ α) (values : List α) : Table κ α :=
  values.foldl (fun t v ↦ t.insert (key v) v) t

/-- Change the entries of several keys, one after another. -/
def modifyAll (f : α → α) (t : Table κ α) (keys : List κ) : Table κ α :=
  keys.foldl (fun t k ↦ t.modify k f) t

/-- Forget several keys. -/
def eraseAll (t : Table κ α) (keys : List κ) : Table κ α := keys.foldl (fun t k ↦ t.erase k) t

theorem get?_eraseAll (t : Table κ α) (keys : List κ) (k : κ) :
    (eraseAll t keys)[k]? = if k ∈ keys then none else t[k]? := by
  induction keys generalizing t with
  | nil => rfl
  | cons k' keys ih =>
    refine (ih _).trans ?_
    rw [get?_erase]
    by_cases hk : k' = k
    · simp [hk]
    · simp [hk, Ne.symm hk]

theorem get?_insertAll_of_notMem {key : α → κ} {values : List α} (h : k ∉ values.map key)
    (t : Table κ α) : (insertAll key t values)[k]? = t[k]? := by
  induction values generalizing t with
  | nil => rfl
  | cons v values ih =>
    rw [List.map_cons, List.mem_cons, not_or] at h
    refine (ih h.2 _).trans ?_
    rw [get?_insert, if_neg (Ne.symm h.1)]

/-- Values that share a key only with themselves are all found again. -/
theorem get?_insertAll_of_mem {key : α → κ} {values : List α} (hv : v ∈ values)
    (h : ∀ w ∈ values, key w = key v → w = v) (t : Table κ α) :
    (insertAll key t values)[key v]? = some v := by
  induction values generalizing t with
  | nil => cases hv
  | cons w values ih =>
    by_cases hmem : v ∈ values
    · exact ih hmem (fun u hu ↦ h u (List.mem_cons_of_mem w hu)) _
    · have hw : v = w := (List.mem_cons.mp hv).resolve_right hmem
      -- No later value has the key, so the one inserted first stays.
      have hkey : key v ∉ values.map key := by
        rintro hk
        obtain ⟨u, hu, hku⟩ := List.mem_map.mp hk
        exact hmem (h u (List.mem_cons_of_mem w hu) hku ▸ hu)
      refine (get?_insertAll_of_notMem hkey _).trans ?_
      rw [hw, get?_insert, if_pos rfl]

theorem get?_insertAll_eq_some {key : α → κ} {values : List α} {t : Table κ α}
    (h : (insertAll key t values)[k]? = some v) : key v = k ∨ t[k]? = some v := by
  induction values generalizing t with
  | nil => exact .inr h
  | cons w values ih =>
    rcases ih h with hkey | hget
    · exact .inl hkey
    · rw [get?_insert] at hget
      split at hget
      next hw => exact .inl (Option.some.inj hget ▸ hw)
      next => exact .inr hget

theorem get?_modifyAll {f : α → α} (hf : ∀ a, f (f a) = f a) (keys : List κ) (t : Table κ α)
    (k : κ) : (modifyAll f t keys)[k]? = if k ∈ keys then t[k]?.map f else t[k]? := by
  induction keys generalizing t with
  | nil => rfl
  | cons k' keys ih =>
    refine (ih _).trans ?_
    rw [get?_modify]
    by_cases hk : k' = k <;> by_cases hmem : k ∈ keys
    · simp [hk, hmem, Function.comp_def, hf]
    · simp [hk, hmem]
    · simp [hk, hmem]
    · simp [hk, Ne.symm hk, hmem]

/-- Replacing what one owner has by what it has in another table `t'`: its entries come from there,
and the others' stay. -/
theorem get?_insertAll_owned {ο : Type} [DecidableEq ο] {key : α → κ} {owner : α → ο} {o : ο}
    {t' : Table κ α} {values : List α} (hkey : ∀ {k v}, t'[k]? = some v → key v = k)
    (h : ∀ v, v ∈ values ↔ t'[key v]? = some v ∧ owner v = o) (t : Table κ α) (k : κ) :
    (insertAll key (t.filter fun k v ↦ owner v ≠ o ∨ k ∈ values.map key) values)[k]? =
      if t'[k]?.map owner = some o then t'[k]? else t[k]?.filter (owner · ≠ o) := by
  split
  next howner =>
    obtain ⟨v, hv, hvo⟩ := Option.map_eq_some_iff.mp howner
    have hvk : key v = k := hkey hv
    subst hvk
    have hmem : v ∈ values := (h v).mpr ⟨hv, hvo⟩
    refine (get?_insertAll_of_mem hmem ?_ _).trans hv.symm
    intro w hw hwv
    have hw' : t'[key w]? = some w := ((h w).mp hw).1
    rw [hwv, hv] at hw'
    exact (Option.some.inj hw').symm
  next howner =>
    have hk : k ∉ values.map key := by
      intro hk
      obtain ⟨v, hv, rfl⟩ := List.mem_map.mp hk
      obtain ⟨hv, hvo⟩ := (h v).mp hv
      exact howner (Option.map_eq_some_iff.mpr ⟨v, hv, hvo⟩)
    rw [get?_insertAll_of_notMem hk, get?_filter]
    simp only [hk, or_false]

/-- Replacing what the owner `o` has and then what the owners `os` have is replacing what all of
them have. `new` is the entry to take and `old` the entry before. -/
theorem owned_cons {ο α : Type} [DecidableEq ο] (owner : α → ο) (new old : Option α) (o : ο)
    (os : List ο) :
    (if (new.map owner).any (· ∈ os) then new
      else (if new.map owner = some o then new
        else old.filter (owner · ≠ o)).filter (owner · ∉ os)) =
      if (new.map owner).any (· ∈ o :: os) then new else old.filter (owner · ∉ o :: os) := by
  rcases new with _ | new
  · simp [Option.filter_filter]
  · by_cases hmem : owner new ∈ os
    · simp [hmem]
    · by_cases ho : owner new = o
      · simp [ho, ho ▸ hmem]
      · simp [hmem, ho, Option.filter_filter]

end Table

end Embers
