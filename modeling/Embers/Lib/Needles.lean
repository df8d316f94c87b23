import Mathlib

/-!
# Where a text has another in it

`find` is the first place at which a needle stands in a text and `rfind` the last one. A separator cuts
a text into what stands before it and what stands after it.
-/

namespace Needles

variable {α : Type*}

theorem prefix_drop_append {needle text more : List α} {place : ℕ} (hne : needle ≠ []) :
    needle <+: text.drop place → needle <+: (text ++ more).drop place := by
  intro h
  have hlt : place < text.length := by
    have hlength := h.length_le
    have hpos := List.length_pos_iff.mpr hne
    rw [List.length_drop] at hlength
    omega
  rw [List.drop_append_of_le_length hlt.le]
  exact h.trans (List.prefix_append _ _)

theorem notMem_intercalate {c : α} {separator : List α} {pieces : List (List α)} (h : c ∉ separator)
    (hpieces : ∀ piece ∈ pieces, c ∉ piece) : c ∉ separator.intercalate pieces := by
  induction pieces with
  | nil => exact List.not_mem_nil
  | cons piece pieces ih =>
    obtain ⟨hpiece, hrest⟩ := List.forall_mem_cons.mp hpieces
    by_cases hne : pieces = []
    · rw [hne, List.intercalate_singleton]
      exact hpiece
    · rw [List.intercalate_cons_of_ne_nil hne]
      simp only [List.mem_append, not_or]
      exact ⟨⟨hpiece, h⟩, ih hrest⟩

variable [DecidableEq α]

/-- The first place of a needle in a text. -/
def find (needle : List α) : List α → Option ℕ
  | [] => none
  | c :: text => if needle.isPrefixOf (c :: text) then some 0 else (find needle text).map (· + 1)

/-- The last place of a needle in a text. -/
def rfind (needle : List α) : List α → Option ℕ
  | [] => none
  | c :: text =>
    match rfind needle text with
    | some place => some (place + 1)
    | none => if needle.isPrefixOf (c :: text) then some 0 else none

variable {needle text more : List α} {c : α} {place : ℕ}

theorem find_eq_none_iff (hne : needle ≠ []) :
    find needle text = none ↔ ∀ place, ¬needle <+: text.drop place := by
  induction text with
  | nil =>
    refine iff_of_true rfl fun place hbegin ↦ hne ?_
    rw [List.drop_nil] at hbegin
    exact List.prefix_nil.mp hbegin
  | cons c text ih =>
    rw [find]
    by_cases hfirst : needle <+: c :: text
    · rw [if_pos (List.isPrefixOf_iff_prefix.mpr hfirst)]
      exact iff_of_false (Option.some_ne_none 0) fun h ↦ h 0 hfirst
    · rw [if_neg (mt List.isPrefixOf_iff_prefix.mp hfirst), Option.map_eq_none_iff, ih]
      constructor
      · intro h place
        cases place with
        | zero => exact hfirst
        | succ place => exact h place
      · exact fun h place ↦ h (place + 1)

theorem find_eq_some_iff (hne : needle ≠ []) :
    find needle text = some place ↔
      needle <+: text.drop place ∧ ∀ before < place, ¬needle <+: text.drop before := by
  induction text generalizing place with
  | nil =>
    refine iff_of_false (Option.some_ne_none place ∘ Eq.symm) fun hand ↦ hne ?_
    rw [List.drop_nil] at hand
    exact List.prefix_nil.mp hand.1
  | cons c text ih =>
    rw [find]
    by_cases hfirst : needle <+: c :: text
    · rw [if_pos (List.isPrefixOf_iff_prefix.mpr hfirst), Option.some_inj]
      constructor
      · rintro rfl
        exact ⟨hfirst, fun before hlt ↦ absurd hlt (Nat.not_lt_zero before)⟩
      · rintro ⟨-, hbefore⟩
        by_contra hne0
        exact hbefore 0 (Nat.pos_of_ne_zero (Ne.symm hne0)) hfirst
    · rw [if_neg (mt List.isPrefixOf_iff_prefix.mp hfirst)]
      cases place with
      | zero =>
        refine iff_of_false (fun h ↦ ?_) fun hand ↦ hfirst hand.1
        obtain ⟨found, -, hfound⟩ := Option.map_eq_some_iff.mp h
        exact Nat.succ_ne_zero found hfound
      | succ place =>
        have hsucc : (find needle text).map (· + 1) = some (place + 1) ↔
            find needle text = some place := by
          rw [Option.map_eq_some_iff]
          constructor
          · rintro ⟨found, hfound, heq⟩
            exact Nat.succ_injective heq ▸ hfound
          · exact fun hfound ↦ ⟨place, hfound, rfl⟩
        rw [hsucc, ih, List.drop_succ_cons]
        refine and_congr_right fun _ ↦ ⟨fun h before hlt ↦ ?_, fun h before hlt ↦ ?_⟩
        · cases before with
          | zero => exact hfirst
          | succ before => exact h before (Nat.lt_of_succ_lt_succ hlt)
        · exact h (before + 1) (Nat.succ_lt_succ hlt)

/-- The first place does not change as the text goes on. -/
theorem find_append (hne : needle ≠ []) (h : find needle text = some place) (more : List α) :
    find needle (text ++ more) = some place := by
  rw [find_eq_some_iff hne] at h ⊢
  obtain ⟨hbegin, hbefore⟩ := h
  refine ⟨prefix_drop_append hne hbegin, fun before hlt hearlier ↦ hbefore before hlt ?_⟩
  have hlength := hbegin.length_le
  rw [List.length_drop] at hlength
  have hpos := List.length_pos_iff.mpr hne
  rw [List.drop_append_of_le_length (by omega)] at hearlier
  refine List.prefix_of_prefix_length_le hearlier (List.prefix_append _ more) ?_
  rw [List.length_drop]
  omega

/-- There is none as long as the text has not come to the end of the first one. -/
theorem find_start (hne : needle ≠ []) (h : find needle text = some place) {start : List α}
    (hstart : start <+: text) (hlt : start.length < place + needle.length) :
    find needle start = none := by
  rw [find_eq_some_iff hne] at h
  rw [find_eq_none_iff hne]
  obtain ⟨rest, rfl⟩ := hstart
  intro early hearly
  have hlength := hearly.length_le
  rw [List.length_drop] at hlength
  have hpos := List.length_pos_iff.mpr hne
  exact h.2 early (by omega) (prefix_drop_append hne hearly)

/-- A needle after a text that has not its first symbol. -/
theorem find_of_notMem {tail : List α} (h : c ∉ text) :
    find (c :: tail) (text ++ (c :: tail)) = some text.length := by
  rw [find_eq_some_iff (List.cons_ne_nil c tail)]
  refine ⟨by rw [List.drop_left], fun before hlt hbegin ↦ h ?_⟩
  rw [List.drop_append_of_le_length hlt.le] at hbegin
  obtain ⟨first, rest, hdrop⟩ := List.exists_cons_of_length_pos
    (l := text.drop before) (by rw [List.length_drop]; omega)
  rw [hdrop, List.cons_append, List.cons_prefix_cons] at hbegin
  have hmem : first ∈ text.drop before := hdrop ▸ List.mem_cons_self
  exact hbegin.1 ▸ List.mem_of_mem_drop hmem

theorem rfind_sound (h : rfind needle text = some place) : needle <+: text.drop place := by
  induction text generalizing place with
  | nil => cases h
  | cons c text ih =>
    rw [rfind] at h
    cases hrest : rfind needle text with
    | some later =>
      rw [hrest] at h
      obtain rfl := Option.some.inj h
      exact ih hrest
    | none =>
      rw [hrest] at h
      obtain ⟨hbegin, hplace⟩ := Option.ite_none_right_eq_some.mp h
      obtain rfl := Option.some.inj hplace
      exact List.isPrefixOf_iff_prefix.mp hbegin

theorem rfind_of_notMem {tail : List α} (h : c ∉ text) : rfind (c :: tail) text = none := by
  cases hfind : rfind (c :: tail) text with
  | none => rfl
  | some place =>
    have hmem : c ∈ text.drop place := (rfind_sound hfind).subset List.mem_cons_self
    exact absurd (List.mem_of_mem_drop hmem) h

/-- A needle whose first symbol does not come again. -/
theorem rfind_append {tail : List α} (h : c ∉ tail ++ more) (text : List α) :
    rfind (c :: tail) (text ++ (c :: tail ++ more)) = some text.length := by
  induction text with
  | nil =>
    have hbegin : (c :: tail).isPrefixOf (c :: (tail ++ more)) = true :=
      List.isPrefixOf_iff_prefix.mpr (List.prefix_append (c :: tail) more)
    rw [List.nil_append, List.cons_append, rfind, rfind_of_notMem h]
    exact if_pos hbegin
  | cons d text ih =>
    rw [List.cons_append, rfind, ih]
    rfl

/-! ## Separators -/

/-- What stands before a separator, and after it. -/
theorem exists_separated (c : α) (text : List α) :
    c ∉ text.takeWhile (· ≠ c) ∧
      ∃ after : Option (List α), text = text.takeWhile (· ≠ c) ++ after.elim [] (c :: ·) := by
  refine ⟨fun hmem ↦ by simpa using List.mem_takeWhile_imp hmem, ?_⟩
  have hsplit := List.takeWhile_append_dropWhile (p := (· ≠ c)) (l := text)
  cases hrest : text.dropWhile (· ≠ c) with
  | nil =>
    rw [hrest] at hsplit
    exact ⟨none, hsplit.symm⟩
  | cons first rest =>
    have hfirst : first = c := by
      have hhead := List.head?_dropWhile_not (· ≠ c) text
      rw [hrest] at hhead
      simpa using hhead
    rw [hrest, hfirst] at hsplit
    exact ⟨some rest, hsplit.symm⟩

theorem takeWhile_separated (h : c ∉ text) (after : Option (List α)) :
    (text ++ after.elim [] (c :: ·)).takeWhile (· ≠ c) = text := by
  have htext : ∀ d ∈ text, decide (d ≠ c) = true := fun d hmem ↦
    decide_eq_true (ne_of_mem_of_not_mem hmem h)
  rw [List.takeWhile_append_of_pos htext]
  cases after <;> simp

/-- The pieces of a text, none of which has the separator. -/
theorem notMem_of_mem_splitOn {piece : List α} (h : piece ∈ text.splitOn c) : c ∉ piece := by
  induction text generalizing piece with
  | nil =>
    rw [List.splitOn_nil, List.mem_singleton] at h
    rw [h]
    exact List.not_mem_nil
  | cons d text ih =>
    rw [List.splitOn_cons_eq_if_modifyHead] at h
    obtain ⟨first, rest, hpieces⟩ := List.exists_cons_of_ne_nil (List.splitOn_ne_nil c text)
    rw [hpieces] at h ih
    split at h
    · obtain rfl | hmem := List.mem_cons.mp h
      · exact List.not_mem_nil
      · exact ih hmem
    · next hne =>
      rw [List.modifyHead_cons] at h
      obtain rfl | hmem := List.mem_cons.mp h
      · rw [List.mem_cons, not_or]
        exact ⟨fun heq ↦ hne (beq_iff_eq.mpr heq.symm), ih List.mem_cons_self⟩
      · exact ih (List.mem_cons_of_mem _ hmem)

theorem subset_of_mem_splitOn {piece : List α} (h : piece ∈ text.splitOn c) : piece ⊆ text := by
  induction text generalizing piece with
  | nil =>
    rw [List.splitOn_nil, List.mem_singleton] at h
    rw [h]
    exact List.nil_subset _
  | cons d text ih =>
    rw [List.splitOn_cons_eq_if_modifyHead] at h
    obtain ⟨first, rest, hpieces⟩ := List.exists_cons_of_ne_nil (List.splitOn_ne_nil c text)
    rw [hpieces] at h ih
    split at h
    · obtain rfl | hmem := List.mem_cons.mp h
      · exact List.nil_subset _
      · exact List.subset_cons_of_subset d (ih hmem)
    · rw [List.modifyHead_cons] at h
      obtain rfl | hmem := List.mem_cons.mp h
      · exact List.cons_subset_cons d (ih List.mem_cons_self)
      · exact List.subset_cons_of_subset d (ih (List.mem_cons_of_mem _ hmem))

end Needles
