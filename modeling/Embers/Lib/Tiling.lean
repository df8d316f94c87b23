import Mathlib

/-!
# Intervals cut into pieces

A function says which positions start a piece, and another how many positions a piece takes. The
pieces tile an interval when each ends where the next one starts, the last with the interval. Two
tilings side by side make one, and a tiling is cut in two wherever a piece starts.
-/

namespace Embers

/-- The pieces that start in `[a, b)` cover it without a gap and without an overlap. -/
structure Tiles (starts : ℕ → Prop) (size : ℕ → ℕ) (a b : ℕ) : Prop where
  first : a < b → starts a
  pos : ∀ {x}, a ≤ x → x < b → starts x → 0 < size x
  fits : ∀ {x}, a ≤ x → x < b → starts x → x + size x ≤ b
  inner : ∀ {x i}, a ≤ x → x < b → starts x → x < i → i < x + size x → ¬ starts i
  next : ∀ {x}, a ≤ x → x < b → starts x → x + size x < b → starts (x + size x)

namespace Tiles

variable {starts starts' : ℕ → Prop} {size size' : ℕ → ℕ} {a b c : ℕ}

/-- A tiling is decided by the positions of its interval. -/
theorem congr (h : Tiles starts size a b) (hstarts : ∀ x, a ≤ x → x < b → (starts' x ↔ starts x))
    (hsize : ∀ x, a ≤ x → x < b → starts x → size' x = size x) : Tiles starts' size' a b := by
  have back : ∀ {x}, a ≤ x → x < b → starts' x → starts x ∧ size' x = size x := by
    intro x hax hxb hx
    have hstart := (hstarts x hax hxb).mp hx
    exact ⟨hstart, hsize x hax hxb hstart⟩
  constructor
  · intro hab
    exact (hstarts a (Nat.le_refl a) hab).mpr (h.first hab)
  · intro x hax hxb hx
    obtain ⟨hstart, hs⟩ := back hax hxb hx
    rw [hs]
    exact h.pos hax hxb hstart
  · intro x hax hxb hx
    obtain ⟨hstart, hs⟩ := back hax hxb hx
    rw [hs]
    exact h.fits hax hxb hstart
  · intro x i hax hxb hx hxi hi
    obtain ⟨hstart, hs⟩ := back hax hxb hx
    rw [hs] at hi
    have hfits := h.fits hax hxb hstart
    rw [hstarts i (by omega) (by omega)]
    exact h.inner hax hxb hstart hxi hi
  · intro x hax hxb hx hend
    obtain ⟨hstart, hs⟩ := back hax hxb hx
    rw [hs] at hend ⊢
    rw [hstarts _ (by omega) hend]
    exact h.next hax hxb hstart hend

/-- One piece over the whole interval. -/
theorem piece (hstart : starts a) (hsize : size a = b - a) (hab : a < b)
    (hinner : ∀ i, a < i → i < b → ¬ starts i) : Tiles starts size a b := by
  have only : ∀ {x}, a ≤ x → x < b → starts x → x = a := by
    intro x hax hxb hx
    by_contra hne
    exact hinner x (by omega) hxb hx
  constructor
  · exact fun _ ↦ hstart
  · intro x hax hxb hx
    obtain rfl := only hax hxb hx
    omega
  · intro x hax hxb hx
    obtain rfl := only hax hxb hx
    omega
  · intro x i hax hxb hx hxi hi
    obtain rfl := only hax hxb hx
    exact hinner i hxi (by omega)
  · intro x hax hxb hx hend
    obtain rfl := only hax hxb hx
    omega

/-- Pieces of one position each. -/
theorem ones (hstarts : ∀ x, a ≤ x → x < b → starts x)
    (hsize : ∀ x, a ≤ x → x < b → size x = 1) : Tiles starts size a b := by
  constructor
  · exact fun hab ↦ hstarts a (Nat.le_refl a) hab
  · intro x hax hxb _
    rw [hsize x hax hxb]
    omega
  · intro x hax hxb _
    rw [hsize x hax hxb]
    omega
  · intro x i hax hxb _ hxi hi
    rw [hsize x hax hxb] at hi
    omega
  · intro x hax hxb _ hend
    rw [hsize x hax hxb] at hend ⊢
    exact hstarts _ (by omega) hend

theorem append (hab : Tiles starts size a b) (hbc : Tiles starts size b c) (hle : a ≤ b)
    (hle' : b ≤ c) : Tiles starts size a c := by
  constructor
  · intro hac
    rcases Nat.lt_or_ge a b with hlt | hge
    · exact hab.first hlt
    · obtain rfl : a = b := by omega
      exact hbc.first hac
  · intro x hax hxc hx
    rcases Nat.lt_or_ge x b with hlt | hge
    · exact hab.pos hax hlt hx
    · exact hbc.pos hge hxc hx
  · intro x hax hxc hx
    rcases Nat.lt_or_ge x b with hlt | hge
    · have := hab.fits hax hlt hx
      omega
    · exact hbc.fits hge hxc hx
  · intro x i hax hxc hx
    rcases Nat.lt_or_ge x b with hlt | hge
    · exact hab.inner hax hlt hx
    · exact hbc.inner hge hxc hx
  · intro x hax hxc hx hend
    rcases Nat.lt_or_ge x b with hlt | hge
    · have hfits := hab.fits hax hlt hx
      rcases Nat.lt_or_ge (x + size x) b with hin | hout
      · exact hab.next hax hlt hx hin
      · have hsum : x + size x = b := by omega
        rw [hsum] at hend ⊢
        exact hbc.first hend
    · exact hbc.next hge hxc hx hend

/-- No piece that starts before a start reaches past it. -/
theorem fits_before (h : Tiles starts size a c) (hb : starts b ∨ c ≤ b) {x : ℕ} (hax : a ≤ x)
    (hxb : x < b) (hxc : x < c) (hx : starts x) : x + size x ≤ b := by
  rcases hb with hb | hb
  · by_contra hlt
    exact h.inner hax hxc hx hxb (by omega) hb
  · exact Nat.le_trans (h.fits hax hxc hx) hb

/-- The tiling up to a place where a piece starts. -/
theorem take (h : Tiles starts size a c) (hb : starts b ∨ c ≤ b) (hle : b ≤ c) :
    Tiles starts size a b := by
  constructor
  · exact fun hab ↦ h.first (by omega)
  · exact fun hax hxb hx ↦ h.pos hax (by omega) hx
  · exact fun hax hxb hx ↦ h.fits_before hb hax hxb (by omega) hx
  · exact fun hax hxb hx hxi hi ↦ h.inner hax (by omega) hx hxi hi
  · exact fun hax hxb hx hend ↦ h.next hax (by omega) hx (by omega)

/-- The tiling from a place where a piece starts. -/
theorem drop (h : Tiles starts size a c) (hb : starts b ∨ c ≤ b) (hle : a ≤ b) :
    Tiles starts size b c := by
  constructor
  · intro hbc
    rcases hb with hb | hb
    · exact hb
    · omega
  · exact fun hbx hxc hx ↦ h.pos (by omega) hxc hx
  · exact fun hbx hxc hx ↦ h.fits (by omega) hxc hx
  · exact fun hbx hxc hx hxi hi ↦ h.inner (by omega) hxc hx hxi hi
  · exact fun hbx hxc hx hend ↦ h.next (by omega) hxc hx hend

/-- A stretch between two starts may be tiled anew. -/
theorem retile {d : ℕ} (h : Tiles starts size a d) (hb : starts b ∨ d ≤ b) (hc : starts c ∨ d ≤ c)
    (hab : a ≤ b) (hbc : b ≤ c) (hcd : c ≤ d) (hnew : Tiles starts' size' b c)
    (hsame : ∀ x, x < d → x < b ∨ c ≤ x → (starts' x ↔ starts x) ∧ size' x = size x) :
    Tiles starts' size' a d := by
  have hbefore : Tiles starts' size' a b := by
    refine (h.take hb (by omega)).congr ?_ ?_
    · exact fun x _ hxb ↦ (hsame x (by omega) (.inl hxb)).1
    · exact fun x _ hxb _ ↦ (hsame x (by omega) (.inl hxb)).2
  have hafter : Tiles starts' size' c d := by
    refine (h.drop hc (by omega)).congr ?_ ?_
    · exact fun x hcx hxd ↦ (hsame x hxd (.inr hcx)).1
    · exact fun x hcx hxd _ ↦ (hsame x hxd (.inr hcx)).2
  exact (hbefore.append hnew hab hbc).append hafter (by omega) hcd

/-- Every position of the interval is in a piece. -/
theorem covered (h : Tiles starts size a b) :
    ∀ {i : ℕ}, a ≤ i → i < b → ∃ x, a ≤ x ∧ x ≤ i ∧ starts x ∧ i < x + size x := by
  intro i
  induction i with
  | zero =>
    intro hai hib
    obtain rfl : a = 0 := by omega
    have hstart := h.first hib
    exact ⟨0, hai, hai, hstart, by simpa using h.pos hai hib hstart⟩
  | succ i ih =>
    intro hai hib
    rcases Nat.lt_or_ge i a with hlt | hge
    · obtain rfl : a = i + 1 := by omega
      have hstart := h.first hib
      exact ⟨i + 1, hai, hai, hstart, by have := h.pos hai hib hstart; omega⟩
    · obtain ⟨x, hax, hxi, hx, hi⟩ := ih hge (by omega)
      rcases Nat.lt_or_ge (i + 1) (x + size x) with hin | hout
      · exact ⟨x, hax, by omega, hx, hin⟩
      · -- The piece ends with `i`, so the next one starts at `i + 1`.
        have hend : x + size x = i + 1 := by omega
        have hstart := h.next hax (by omega) hx (by omega)
        rw [hend] at hstart
        exact ⟨i + 1, hai, Nat.le_refl _, hstart, by have := h.pos hai hib hstart; omega⟩

/-- No two pieces share a position. -/
theorem unique (h : Tiles starts size a b) {x x' i : ℕ} (hx : starts x) (hx' : starts x')
    (hax : a ≤ x) (hax' : a ≤ x') (hxi : x ≤ i) (hxi' : x' ≤ i) (hib : i < b)
    (hi : i < x + size x) (hi' : i < x' + size x') : x = x' := by
  rcases Nat.lt_trichotomy x x' with hlt | heq | hgt
  · exact absurd hx' (h.inner hax (by omega) hx hlt (by omega))
  · exact heq
  · exact absurd hx (h.inner hax' (by omega) hx' hgt (by omega))

end Tiles

end Embers
