import Mathlib.Data.List.Pairwise

/-!
# Words told apart while they are typed

Each of some items is marked with a word, and one is chosen by typing its word letter by letter. A
letter that no word goes on with is refused. When no item's word begins another's, what has been typed
always leads on to some item, and the word that is complete is the only one it could be.
-/

namespace Embers

variable {α ι : Type*} {word : ι → List α} {items : List ι} {typed : List α} {a : α}

/-- No item's word begins the word of another. -/
def ToldApart (word : ι → List α) (items : List ι) : Prop :=
  items.Pairwise fun i j ↦ ¬word i <+: word j ∧ ¬word j <+: word i

/-- What a letter does. -/
inductive Letter (α ι : Type*) where
  | refused
  | goesOn (typed : List α)
  | chooses (item : ι)

def typeLetter [DecidableEq α] (word : ι → List α) (items : List ι) (typed : List α) (a : α) : Letter α ι :=
  if items.any fun item ↦ (typed ++ [a]).isPrefixOf (word item) then
    match items.find? fun item ↦ decide (word item = typed ++ [a]) with
    | some item => .chooses item
    | none => .goesOn (typed ++ [a])
  else .refused

/-- What has been typed begins some word and is not all of it. -/
def LeadsOn (word : ι → List α) (items : List ι) (typed : List α) : Prop :=
  ∃ item ∈ items, typed <+: word item ∧ typed ≠ word item

theorem ToldApart.eq_of_prefix (h : ToldApart word items) {i j : ι} (hi : i ∈ items) (hj : j ∈ items)
    (hij : word i <+: word j) : i = j := by
  by_contra hne
  have hsymm : Std.Symm fun i j : ι ↦ ¬word i <+: word j ∧ ¬word j <+: word i := ⟨fun _ _ ↦ And.symm⟩
  exact (h.forall hi hj hne).1 hij

/-- Different words of one length. -/
theorem toldApart_of_length {n : ℕ} (hnodup : (items.map word).Nodup)
    (hlength : ∀ item ∈ items, (word item).length = n) : ToldApart word items := by
  refine (List.pairwise_map.mp hnodup).imp_of_mem fun {i j} hi hj hne ↦ ⟨fun h ↦ hne ?_, fun h ↦ hne ?_⟩
  · exact h.eq_of_length ((hlength i hi).trans (hlength j hj).symm)
  · exact (h.eq_of_length ((hlength j hj).trans (hlength i hi).symm)).symm

/-- Before the first letter any item can be chosen. -/
theorem leadsOn_nil (hwords : ∀ item ∈ items, word item ≠ []) (hne : items ≠ []) :
    LeadsOn word items [] := by
  obtain ⟨item, rest, rfl⟩ := List.exists_cons_of_ne_nil hne
  exact ⟨item, List.mem_cons_self, List.nil_prefix, (hwords item List.mem_cons_self).symm⟩

theorem LeadsOn.dropLast (h : LeadsOn word items typed) : LeadsOn word items typed.dropLast := by
  obtain ⟨item, hitem, hbegins, hne⟩ := h
  refine ⟨item, hitem, (List.dropLast_prefix typed).trans hbegins, fun heq ↦ hne ?_⟩
  have hle := hbegins.length_le
  rw [← heq, List.length_dropLast] at hle
  have hnil : typed = [] := List.eq_nil_of_length_eq_zero (by omega)
  rw [hnil] at heq
  rw [hnil, ← heq]
  rfl

variable [DecidableEq α]

theorem leadsOn_of_goesOn {typed' : List α} (h : typeLetter word items typed a = .goesOn typed') :
    typed' = typed ++ [a] ∧ LeadsOn word items typed' := by
  rw [typeLetter] at h
  split at h
  · next hany =>
    cases hfind : items.find? fun item ↦ decide (word item = typed ++ [a]) with
    | some item =>
      rw [hfind] at h
      cases h
    | none =>
      rw [hfind] at h
      cases h
      obtain ⟨item, hitem, hbegins⟩ := List.any_eq_true.mp hany
      refine ⟨rfl, item, hitem, List.isPrefixOf_iff_prefix.mp hbegins, fun heq ↦ ?_⟩
      exact List.find?_eq_none.mp hfind item hitem (decide_eq_true heq.symm)
  · cases h

/-- The item that is chosen is the only one that what was typed could stand for. -/
theorem chosen_of_chooses (hapart : ToldApart word items) {item : ι}
    (h : typeLetter word items typed a = .chooses item) :
    item ∈ items ∧ word item = typed ++ [a] ∧
      ∀ other ∈ items, typed ++ [a] <+: word other → other = item := by
  rw [typeLetter] at h
  split at h
  · cases hfind : items.find? fun item ↦ decide (word item = typed ++ [a]) with
    | none =>
      rw [hfind] at h
      cases h
    | some found =>
      rw [hfind] at h
      cases h
      have hmem := List.mem_of_find?_eq_some hfind
      have hword : word item = typed ++ [a] := by simpa using List.find?_some hfind
      refine ⟨hmem, hword, fun other hother hbegins ↦ ?_⟩
      rw [← hword] at hbegins
      exact (hapart.eq_of_prefix hmem hother hbegins).symm
  · cases h

/-- The next letter of an item's word extends what was typed, or chooses the item. -/
theorem typeLetter_of_mem (hapart : ToldApart word items) {item : ι} {rest : List α}
    (hitem : item ∈ items) (hword : word item = typed ++ a :: rest) :
    typeLetter word items typed a = if rest = [] then .chooses item else .goesOn (typed ++ [a]) := by
  have hbegins : typed ++ [a] <+: word item := by
    rw [hword]
    exact ⟨rest, by rw [List.append_assoc, List.singleton_append]⟩
  have hany : (items.any fun item ↦ (typed ++ [a]).isPrefixOf (word item)) = true :=
    List.any_eq_true.mpr ⟨item, hitem, List.isPrefixOf_iff_prefix.mpr hbegins⟩
  rw [typeLetter, if_pos hany]
  split
  · next found hfind =>
    have hmem := List.mem_of_find?_eq_some hfind
    have hfound : word found = typed ++ [a] := by simpa using List.find?_some hfind
    rw [← hfound] at hbegins
    obtain rfl := hapart.eq_of_prefix hmem hitem hbegins
    rw [hfound] at hword
    have hrest : rest = [] := by simpa using hword
    rw [if_pos hrest]
  · next hfind =>
    have hrest : rest ≠ [] := by
      rintro rfl
      exact List.find?_eq_none.mp hfind item hitem (decide_eq_true hword)
    rw [if_neg hrest]

end Embers
