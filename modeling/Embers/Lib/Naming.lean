import Embers.Lib.Table

/-!
# Names

A table takes the ids of its entries from a counter, and an id is not handed out twice. `Since` compares
a table with an earlier one: each entry was there before, up to changes that leave it the same thing, or
its id was handed out in between. In between entries may have come and gone in any order, also one that
was taken out and put back.
-/

namespace Embers

variable {κ α : Type} [Ord κ] [Std.TransOrd κ] {number : κ → ℕ} {same : α → α → Prop}
  {t t' t'' : Table κ α} {n n' n'' : ℕ}

/-- The ids in use have been handed out. -/
def HandedOut (number : κ → ℕ) (t : Table κ α) (n : ℕ) : Prop :=
  ∀ (k : κ) (v : α), t[k]? = some v → number k < n

/-- The second table, when `n'` is the next id, after the first, when it was `n`. -/
structure Since (number : κ → ℕ) (same : α → α → Prop) (t : Table κ α) (n : ℕ) (t' : Table κ α)
    (n' : ℕ) : Prop where
  le : n ≤ n'
  entries (k : κ) (v' : α) (h : t'[k]? = some v') :
    (∃ v, t[k]? = some v ∧ same v v') ∨ n ≤ number k ∧ number k < n'

/-- Every entry of the second table is one of the first, the same thing. -/
def Shrinks (same : α → α → Prop) (t t' : Table κ α) : Prop :=
  ∀ (k : κ) (v' : α), t'[k]? = some v' → ∃ v, t[k]? = some v ∧ same v v'

namespace Shrinks

theorem refl [Std.Refl same] (t : Table κ α) : Shrinks same t t := fun _ v h ↦ ⟨v, h, Std.Refl.refl v⟩

theorem trans [IsTrans α same] (h : Shrinks same t t') (h' : Shrinks same t' t'') :
    Shrinks same t t'' := by
  intro k v'' hv''
  obtain ⟨v', hv', hsame'⟩ := h' k v'' hv''
  obtain ⟨v, hv, hsame⟩ := h k v' hv'
  exact ⟨v, hv, Trans.trans hsame hsame'⟩

variable [Std.LawfulEqOrd κ]

/-- Two tables that agree through a function that tells different things apart. -/
theorem of_map {β : Type} {f : α → β} (hf : ∀ {v v'}, f v = f v' → same v v')
    (h : t.map (fun _ v ↦ f v) = t'.map fun _ v ↦ f v) : Shrinks same t t' := by
  intro k v' hv'
  have hget := congrArg (fun t : Table κ β ↦ t[k]?) h
  rw [Std.ExtTreeMap.getElem?_map, Std.ExtTreeMap.getElem?_map, hv', Option.map_some,
    Option.map_eq_some_iff] at hget
  obtain ⟨v, hv, heq⟩ := hget
  exact ⟨v, hv, hf heq⟩

theorem map {f : α → α} (hf : ∀ v, same v (f v)) (t : Table κ α) :
    Shrinks same t (t.map fun _ v ↦ f v) := by
  intro k v' hv'
  rw [Std.ExtTreeMap.getElem?_map, Option.map_eq_some_iff] at hv'
  obtain ⟨v, hv, rfl⟩ := hv'
  exact ⟨v, hv, hf v⟩

variable [DecidableEq κ]

theorem modify [Std.Refl same] {f : α → α} (hf : ∀ v, same v (f v)) (t : Table κ α) (k : κ) :
    Shrinks same t (t.modify k f) := by
  intro k' v' hv'
  rw [Table.get?_modify] at hv'
  split at hv'
  · obtain ⟨v, hv, rfl⟩ := Option.map_eq_some_iff.mp hv'
    exact ⟨v, hv, hf v⟩
  · exact ⟨v', hv', Std.Refl.refl v'⟩

theorem erase [Std.Refl same] (t : Table κ α) (k : κ) : Shrinks same t (t.erase k) := by
  intro k' v' hv'
  rw [Table.get?_erase] at hv'
  split at hv'
  · cases hv'
  · exact ⟨v', hv', Std.Refl.refl v'⟩

end Shrinks

namespace Since

theorem refl [Std.Refl same] : Since number same t n t n :=
  ⟨le_rfl, fun _ v h ↦ .inl ⟨v, h, Std.Refl.refl v⟩⟩

theorem trans [IsTrans α same] (h : Since number same t n t' n') (h' : Since number same t' n' t'' n'') :
    Since number same t n t'' n'' := by
  refine ⟨h.le.trans h'.le, fun k v'' hv'' ↦ ?_⟩
  rcases h'.entries k v'' hv'' with ⟨v', hv', hsame'⟩ | ⟨hge, hlt⟩
  · rcases h.entries k v' hv' with ⟨v, hv, hsame⟩ | ⟨hge, hlt⟩
    · exact .inl ⟨v, hv, Trans.trans hsame hsame'⟩
    · exact .inr ⟨hge, hlt.trans_le h'.le⟩
  · exact .inr ⟨h.le.trans hge, hlt⟩

/-- Ids handed out and not used. -/
theorem later (h : Since number same t n t' n') (hle : n' ≤ n'') : Since number same t n t' n'' := by
  refine ⟨h.le.trans hle, fun k v' hv' ↦ ?_⟩
  rcases h.entries k v' hv' with hold | ⟨hge, hlt⟩
  · exact .inl hold
  · exact .inr ⟨hge, hlt.trans_le hle⟩

/-- Entries may go and may become other versions of the same things. -/
theorem shrinks [IsTrans α same] (h : Since number same t n t' n') (hshrinks : Shrinks same t' t'') :
    Since number same t n t'' n' := by
  refine ⟨h.le, fun k v'' hv'' ↦ ?_⟩
  obtain ⟨v', hv', hsame'⟩ := hshrinks k v'' hv''
  rcases h.entries k v' hv' with ⟨v, hv, hsame⟩ | hnew
  · exact .inl ⟨v, hv, Trans.trans hsame hsame'⟩
  · exact .inr hnew

theorem handedOut (h : Since number same t n t' n') (hout : HandedOut number t n) :
    HandedOut number t' n' := by
  intro k v' hv'
  rcases h.entries k v' hv' with ⟨v, hv, -⟩ | ⟨-, hlt⟩
  · exact (hout k v hv).trans_le h.le
  · exact hlt

/-- An id that is in use before and after names the same thing. -/
theorem same_of_get? (h : Since number same t n t' n') (hout : HandedOut number t n) {k : κ} {v v' : α}
    (hv : t[k]? = some v) (hv' : t'[k]? = some v') : same v v' := by
  rcases h.entries k v' hv' with ⟨u, hu, hsame⟩ | ⟨hge, -⟩
  · obtain rfl := Option.some.inj (hu.symm.trans hv)
    exact hsame
  · exact absurd (hout k v hv) (Nat.not_lt.mpr hge)

/-- An id that has been handed out and is not in use is not used again. -/
theorem get?_eq_none (h : Since number same t n t' n') {k : κ} (hlt : number k < n) (hgone : t[k]? = none) :
    t'[k]? = none := by
  refine Option.eq_none_iff_forall_ne_some.mpr fun v' hv' ↦ ?_
  rcases h.entries k v' hv' with ⟨v, hv, -⟩ | ⟨hge, -⟩
  · rw [hgone] at hv
    cases hv
  · exact absurd hlt (Nat.not_lt.mpr hge)

variable [Std.LawfulEqOrd κ] [DecidableEq κ]

/-- An entry whose id was handed out in between. -/
theorem insert (h : Since number same t n t' n') {k : κ} (hge : n ≤ number k) (hlt : number k < n') (v : α) :
    Since number same t n (t'.insert k v) n' := by
  refine ⟨h.le, fun k' v' hv' ↦ ?_⟩
  rw [Table.get?_insert] at hv'
  split at hv'
  · next heq =>
    subst heq
    exact .inr ⟨hge, hlt⟩
  · exact h.entries k' v' hv'

/-- An earlier entry that is put back. -/
theorem putBack (h : Since number same t n t' n') {k : κ} {v v' : α} (hv : t[k]? = some v)
    (hsame : same v v') : Since number same t n (t'.insert k v') n' := by
  refine ⟨h.le, fun k' u hu ↦ ?_⟩
  rw [Table.get?_insert] at hu
  split at hu
  · next heq =>
    subst heq
    obtain rfl := Option.some.inj hu
    exact .inl ⟨v, hv, hsame⟩
  · exact h.entries k' u hu

end Since

end Embers
