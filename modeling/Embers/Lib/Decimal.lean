import Mathlib

/-!
# Decimal numbers as text

The text of a number is its decimal digits, as code units; `parse` reads one back as the standard
integer parsers do, with an optional leading plus sign, leading zeros allowed, and nothing that does
not fit.
-/

namespace Embers.Decimal

/-- The text of a number. -/
def text (n : ℕ) : List ℕ :=
  if n = 0 then [48] else (Nat.digits 10 n).reverse.map (48 + ·)

def IsDigit (c : ℕ) : Prop := 48 ≤ c ∧ c ≤ 57

instance (c : ℕ) : Decidable (IsDigit c) := inferInstanceAs (Decidable (_ ∧ _))

/-- The number a list of digits stands for. -/
def value (cs : List ℕ) : ℕ := cs.foldl (fun n c ↦ n * 10 + (c - 48)) 0

/-- The number in the text, if it is one below `limit`. -/
def parse (limit : ℕ) (cs : List ℕ) : Option ℕ :=
  let digits := if cs.head? = some 43 then cs.tail else cs
  if digits ≠ [] ∧ (∀ c ∈ digits, IsDigit c) ∧ value digits < limit then some (value digits)
  else none

theorem isDigit_of_mem_text {n c : ℕ} (h : c ∈ text n) : IsDigit c := by
  rw [text] at h
  split at h
  · rw [List.mem_singleton.mp h]
    decide
  · obtain ⟨d, hd, rfl⟩ := List.mem_map.mp h
    have hlt : d < 10 := Nat.digits_lt_base (by norm_num) (List.mem_reverse.mp hd)
    exact ⟨by omega, by omega⟩

theorem text_ne_nil (n : ℕ) : text n ≠ [] := by
  rw [text]
  split
  · exact List.cons_ne_nil 48 []
  · next hn =>
    intro h
    rw [List.map_eq_nil_iff, List.reverse_eq_nil_iff] at h
    exact hn (Nat.digits_eq_nil_iff_eq_zero.mp h)

theorem value_map_reverse (ds : List ℕ) :
    value (ds.reverse.map (48 + ·)) = Nat.ofDigits 10 ds := by
  induction ds with
  | nil => rfl
  | cons d ds ih =>
    have hvalue : value ((d :: ds).reverse.map (48 + ·)) =
        value (ds.reverse.map (48 + ·)) * 10 + (48 + d - 48) := by
      simp only [value, List.reverse_cons, List.map_append, List.map_cons, List.map_nil,
        List.foldl_append, List.foldl_cons, List.foldl_nil]
    rw [hvalue, ih, Nat.ofDigits_cons]
    omega

theorem value_text (n : ℕ) : value (text n) = n := by
  rw [text]
  split
  · next hn => rw [hn]; rfl
  · rw [value_map_reverse, Nat.ofDigits_digits]

/-- A number that fits is read back from its text. -/
theorem parse_text {limit n : ℕ} (h : n < limit) : parse limit (text n) = some n := by
  have hhead : (text n).head? ≠ some 43 := by
    intro hplus
    have hdigit := isDigit_of_mem_text (List.mem_of_head? hplus)
    exact absurd hdigit (by decide)
  have hfits : text n ≠ [] ∧ (∀ c ∈ text n, IsDigit c) ∧ value (text n) < limit :=
    ⟨text_ne_nil n, fun c hc ↦ isDigit_of_mem_text hc, by rwa [value_text]⟩
  simp only [parse, hhead, if_false]
  rw [if_pos hfits, value_text]

/-- Reading succeeds for one bound as for another, as long as the number is below it. -/
theorem parse_eq_some {limit n : ℕ} {cs : List ℕ} (h : parse limit cs = some n) :
    n < limit ∧ ∀ limit', n < limit' → parse limit' cs = some n := by
  simp only [parse] at h ⊢
  generalize (if cs.head? = some 43 then cs.tail else cs) = digits at h ⊢
  by_cases hfits : digits ≠ [] ∧ (∀ c ∈ digits, IsDigit c) ∧ value digits < limit
  · rw [if_pos hfits, Option.some.injEq] at h
    subst h
    exact ⟨hfits.2.2, fun limit' hlt ↦ if_pos ⟨hfits.1, hfits.2.1, hlt⟩⟩
  · rw [if_neg hfits] at h
    cases h

/-- Nothing is read from a text with a character that is neither a digit nor a sign. -/
theorem parse_eq_none {limit c : ℕ} {cs : List ℕ} (hmem : c ∈ cs) (hdigit : ¬ IsDigit c)
    (hsign : c ≠ 43) : parse limit cs = none := by
  have hdigits : c ∈ if cs.head? = some 43 then cs.tail else cs := by
    split
    · next hhead =>
      rcases cs with _ | ⟨d, ds⟩
      · cases hmem
      · cases hhead
        exact (List.mem_cons.mp hmem).resolve_left hsign
    · exact hmem
  simp only [parse]
  rw [if_neg]
  rintro ⟨-, hall, -⟩
  exact hdigit (hall c hdigits)

end Embers.Decimal
