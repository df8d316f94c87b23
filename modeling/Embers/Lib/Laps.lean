import Mathlib

/-!
# Going round a finite set

From any place the next element of a finite set is the least one after it, or the least of all when
there is none. After the first step this goes round the set, so two walks from one place end at the
same element exactly when they differ by whole laps (`Laps.iterate_next_eq_iff`).

`Laps.firstAfter` searches a sorted list for the next element. Items of one key count as one element,
the first of them.
-/

namespace Laps

variable {α β : Type*} [LinearOrder α]

section

variable {s : Finset α} (hs : s.Nonempty)

/-- The least element after a place, or the least of all. -/
def next (a : α) : α :=
  if h : (s.filter (a < ·)).Nonempty then (s.filter (a < ·)).min' h else s.min' hs

theorem next_mem (a : α) : next hs a ∈ s := by
  rw [next]
  split
  · next h => exact Finset.mem_of_mem_filter _ (Finset.min'_mem _ h)
  · exact Finset.min'_mem s hs

/-- The elements in order, lap after lap. -/
def element (m : ℕ) : α := s.orderEmbOfFin rfl ⟨m % s.card, Nat.mod_lt m hs.card_pos⟩

theorem element_eq_iff {m n : ℕ} : element hs m = element hs n ↔ m ≡ n [MOD s.card] := by
  rw [element, element, EmbeddingLike.apply_eq_iff_eq, Fin.mk.injEq, Nat.ModEq]

theorem exists_element {a : α} (ha : a ∈ s) : ∃ m, element hs m = a := by
  have hrange : a ∈ Set.range (s.orderEmbOfFin rfl) := by
    rw [Finset.range_orderEmbOfFin]
    exact ha
  obtain ⟨i, rfl⟩ := hrange
  refine ⟨i, ?_⟩
  rw [element]
  congr 1
  exact Fin.ext (Nat.mod_eq_of_lt i.isLt)

theorem next_element (m : ℕ) : next hs (element hs m) = element hs (m + 1) := by
  have hpos := hs.card_pos
  have hlt := Nat.mod_lt m hpos
  rcases Nat.lt_or_ge (m % s.card + 1) s.card with hmore | hlast
  · -- The element with the next index comes next.
    have hsucc : (m + 1) % s.card = m % s.card + 1 := by
      rw [Nat.add_mod, Nat.mod_eq_of_lt (show 1 < s.card by omega), Nat.mod_eq_of_lt hmore]
    have hmem : element hs (m + 1) ∈ s.filter (element hs m < ·) := by
      refine Finset.mem_filter.mpr ⟨Finset.orderEmbOfFin_mem s rfl _, ?_⟩
      rw [element, element, OrderEmbedding.lt_iff_lt, Fin.mk_lt_mk, hsucc]
      omega
    rw [next, dif_pos ⟨_, hmem⟩]
    refine le_antisymm (Finset.min'_le _ _ hmem) (Finset.le_min' _ _ _ fun b hb ↦ ?_)
    obtain ⟨hb, hafter⟩ := Finset.mem_filter.mp hb
    obtain ⟨n, rfl⟩ := exists_element hs hb
    rw [element, element, OrderEmbedding.lt_iff_lt, Fin.mk_lt_mk] at hafter
    rw [element, element, OrderEmbedding.le_iff_le, Fin.mk_le_mk, hsucc]
    exact hafter
  · -- Nothing comes after the last element.
    have hzero : (m + 1) % s.card = 0 := by
      have hcard : m % s.card + 1 = s.card := by omega
      rw [← Nat.mod_add_mod, hcard, Nat.mod_self]
    have hnone : ¬ (s.filter (element hs m < ·)).Nonempty := by
      rintro ⟨b, hb⟩
      obtain ⟨hb, hafter⟩ := Finset.mem_filter.mp hb
      obtain ⟨n, rfl⟩ := exists_element hs hb
      rw [element, element, OrderEmbedding.lt_iff_lt, Fin.mk_lt_mk] at hafter
      have := Nat.mod_lt n hpos
      omega
    rw [next, dif_neg hnone, element]
    simp only [hzero]
    exact (Finset.orderEmbOfFin_zero rfl hpos).symm

theorem iterate_next_element (m n : ℕ) :
    (next hs)^[n] (element hs m) = element hs (m + n) := by
  induction n generalizing m with
  | zero => rfl
  | succ n ih => rw [Function.iterate_succ_apply, next_element, ih, Nat.add_right_comm, Nat.add_assoc]

/-- Walks from one place end at one element when they differ by whole laps. -/
theorem iterate_next_eq_iff (a : α) (m n : ℕ) :
    (next hs)^[m + 1] a = (next hs)^[n + 1] a ↔ m ≡ n [MOD s.card] := by
  obtain ⟨first, hfirst⟩ := exists_element hs (next_mem hs a)
  rw [Function.iterate_succ_apply, Function.iterate_succ_apply, ← hfirst, iterate_next_element,
    iterate_next_element, element_eq_iff]
  exact ⟨Nat.ModEq.add_left_cancel' first, Nat.ModEq.add_left first⟩

end

/-! ## Lists in order -/

section

variable (key : β → α) (items : List β)

def keys : Finset α := (items.map key).toFinset

/-- The index of the first item after a place, or of the first one. -/
def firstAfter (a : α) : ℕ := (items.findIdx? fun b ↦ a < key b).getD 0

variable {key items}

theorem keys_nonempty (key : β → α) (hne : items ≠ []) : (keys key items).Nonempty := by
  obtain ⟨b, hb⟩ := List.exists_mem_of_ne_nil items hne
  exact ⟨key b, List.mem_toFinset.mpr (List.mem_map_of_mem hb)⟩

variable (hsorted : items.Pairwise (key · ≤ key ·)) (hne : items ≠ [])

include hsorted

theorem key_mono {i j : ℕ} (hi : i < items.length) (hj : j < items.length) (hij : i ≤ j) :
    key items[i] ≤ key items[j] := by
  rcases Nat.eq_or_lt_of_le hij with rfl | hlt
  · exact le_refl _
  · exact List.pairwise_iff_getElem.mp hsorted i j hi hj hlt

/-- The item that is found has the next key, and is the first with it. -/
theorem key_firstAfter (a : α) :
    ∃ h : firstAfter key items a < items.length,
      key items[firstAfter key items a] = next (keys_nonempty key hne) a ∧
        ∀ j (hj : j < firstAfter key items a), key items[j] ≠ next (keys_nonempty key hne) a := by
  have hmem : ∀ {x : α}, x ∈ keys key items ↔ ∃ i, ∃ h : i < items.length, key items[i] = x := by
    intro x
    rw [keys, List.mem_toFinset, List.mem_map]
    constructor
    · rintro ⟨b, hb, rfl⟩
      obtain ⟨i, hi, rfl⟩ := List.mem_iff_getElem.mp hb
      exact ⟨i, hi, rfl⟩
    · rintro ⟨i, hi, rfl⟩
      exact ⟨_, List.getElem_mem hi, rfl⟩
  have hpos : 0 < items.length := List.length_pos_iff.mpr hne
  cases hfind : items.findIdx? fun b ↦ decide (a < key b) with
  | none =>
    have hnone : ¬ ((keys key items).filter (a < ·)).Nonempty := by
      rintro ⟨x, hx⟩
      obtain ⟨hx, hafter⟩ := Finset.mem_filter.mp hx
      obtain ⟨i, hi, rfl⟩ := hmem.mp hx
      have hfails := List.findIdx?_eq_none_iff.mp hfind _ (List.getElem_mem hi)
      exact of_decide_eq_false hfails hafter
    have hfirst : firstAfter key items a = 0 := by
      rw [firstAfter, hfind]
      rfl
    simp only [hfirst]
    refine ⟨hpos, ?_, fun j hj ↦ absurd hj (Nat.not_lt_zero j)⟩
    rw [next, dif_neg hnone]
    refine le_antisymm (Finset.le_min' _ _ _ fun x hx ↦ ?_)
      (Finset.min'_le _ _ (hmem.mpr ⟨0, hpos, rfl⟩))
    obtain ⟨i, hi, rfl⟩ := hmem.mp hx
    exact key_mono hsorted hpos hi (Nat.zero_le i)
  | some i =>
    obtain ⟨hi, hafter, hbefore⟩ := List.findIdx?_eq_some_iff_getElem.mp hfind
    have hafter : a < key items[i] := of_decide_eq_true hafter
    have hfilter : key items[i] ∈ (keys key items).filter (a < ·) :=
      Finset.mem_filter.mpr ⟨hmem.mpr ⟨i, hi, rfl⟩, hafter⟩
    have hfirst : firstAfter key items a = i := by
      rw [firstAfter, hfind]
      rfl
    have hnext : next (keys_nonempty key hne) a = key items[i] := by
      rw [next, dif_pos ⟨_, hfilter⟩]
      refine le_antisymm (Finset.min'_le _ _ hfilter) (Finset.le_min' _ _ _ fun x hx ↦ ?_)
      obtain ⟨hx, hxa⟩ := Finset.mem_filter.mp hx
      obtain ⟨j, hj, rfl⟩ := hmem.mp hx
      refine key_mono hsorted hi hj (Nat.le_of_not_lt fun hlt ↦ ?_)
      exact hbefore j hlt (decide_eq_true hxa)
    simp only [hfirst, hnext]
    refine ⟨hi, trivial, fun j hj heq ↦ ?_⟩
    exact hbefore j hj (decide_eq_true (heq ▸ hafter))

/-- The same item is found from two places when the same key is next. -/
theorem firstAfter_eq_iff (a b : α) :
    firstAfter key items a = firstAfter key items b ↔
      next (keys_nonempty key hne) a = next (keys_nonempty key hne) b := by
  obtain ⟨ha, hkey, hfirst⟩ := key_firstAfter hsorted hne a
  obtain ⟨hb, hkey', hfirst'⟩ := key_firstAfter hsorted hne b
  constructor
  · intro heq
    simp only [← heq] at hkey'
    exact hkey.symm.trans hkey'
  · intro heq
    rcases Nat.lt_trichotomy (firstAfter key items a) (firstAfter key items b) with hlt | heq' | hlt
    · exact absurd (hkey.trans heq) (hfirst' _ hlt)
    · exact heq'
    · exact absurd (hkey'.trans heq.symm) (hfirst _ hlt)

end

end Laps
