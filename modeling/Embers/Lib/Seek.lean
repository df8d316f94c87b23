import Embers.Lib.Op

/-!
# Stepping until a test fails

A loop that steps along an order for as long as a test passes, and stops early where there is no
step to take. `Steps` says that a step function goes through the valid elements one by one, each
time to the next one after. The loop then stops at the first element that fails the test, or finds
that none from its start on does.
-/

namespace Embers

variable {α : Type}

/-- The step function goes from each valid element to the one directly after it. -/
structure Steps (Valid : α → Prop) (After : α → α → Prop) (next : α → Option α) : Prop where
  trans : ∀ {a b c}, After a b → After b c → After a c
  some : ∀ {a b}, Valid a → next a = some b →
    Valid b ∧ After a b ∧ ∀ c, Valid c → After a c → c = b ∨ After b c
  none : ∀ {a}, Valid a → next a = none → ∀ c, Valid c → ¬ After a c

/-- Step while the test passes. Where there is no step to take, the loop is left early. -/
def seek (next : α → Option α) (p : α → Bool) : ℕ → α → Answer α α
  | 0, _ => .error .diverges
  | fuel + 1, a =>
    if p a then
      match next a with
      | some b => seek next p fuel b
      | none => .fail a
    else pure a

section

variable {Valid : α → Prop} {After : α → α → Prop} {next : α → Option α} {p : α → Bool}

/-- A loop that ends does so at the first element that fails the test. -/
theorem seek_ok (hsteps : Steps Valid After next) :
    ∀ {fuel : ℕ} {a b : α}, Valid a → seek next p fuel a = .ok b →
      Valid b ∧ p b = false ∧ (b = a ∨ After a b) ∧
        ∀ c, Valid c → c = a ∨ After a c → p c = true ∨ c = b ∨ After b c
  | 0, _, _, _, h => nomatch h
  | fuel + 1, a, b, ha, h => by
    rw [seek] at h
    split at h
    · next hp =>
      cases hnext : next a with
      | none =>
        rw [hnext] at h
        cases h
      | some a' =>
        rw [hnext] at h
        obtain ⟨ha', hafter, hleast⟩ := hsteps.some ha hnext
        obtain ⟨hb, hpb, hreach, hall⟩ := seek_ok hsteps ha' h
        refine ⟨hb, hpb, .inr ?_, fun c hc hfrom ↦ ?_⟩
        · rcases hreach with rfl | hreach
          · exact hafter
          · exact hsteps.trans hafter hreach
        · rcases hfrom with rfl | hfrom
          · exact .inl hp
          · exact hall c hc (hleast c hc hfrom)
    · next hp =>
      cases h
      exact ⟨ha, Bool.eq_false_iff.mpr hp, .inl rfl, fun c _ hfrom ↦ .inr hfrom⟩

/-- A loop that is left early is at the last element, and every element from its start on passes. -/
theorem seek_stuck (hsteps : Steps Valid After next) :
    ∀ {fuel : ℕ} {a b : α}, Valid a → seek next p fuel a = .error (.error b) →
      Valid b ∧ next b = none ∧ (b = a ∨ After a b) ∧
        ∀ c, Valid c → c = a ∨ After a c → p c = true
  | 0, _, _, _, h => nomatch h
  | fuel + 1, a, b, ha, h => by
    rw [seek] at h
    split at h
    · next hp =>
      cases hnext : next a with
      | none =>
        rw [hnext] at h
        cases h
        refine ⟨ha, hnext, .inl rfl, fun c hc hfrom ↦ ?_⟩
        rcases hfrom with rfl | hfrom
        · exact hp
        · exact absurd hfrom (hsteps.none ha hnext c hc)
      | some a' =>
        rw [hnext] at h
        obtain ⟨ha', hafter, hleast⟩ := hsteps.some ha hnext
        obtain ⟨hb, hstuck, hreach, hall⟩ := seek_stuck hsteps ha' h
        refine ⟨hb, hstuck, .inr ?_, fun c hc hfrom ↦ ?_⟩
        · rcases hreach with rfl | hreach
          · exact hafter
          · exact hsteps.trans hafter hreach
        · rcases hfrom with rfl | hfrom
          · exact hp
          · exact hall c hc (hleast c hc hfrom)
    · cases h

/-- The loop returns when each of its turns takes something from a number below the fuel. -/
theorem seek_ne_diverges (Valid : α → Prop) (left : α → ℕ)
    (hleft : ∀ {a b}, Valid a → p a = true → next a = some b → Valid b ∧ left b < left a) :
    ∀ {fuel : ℕ} {a : α}, Valid a → left a < fuel → seek next p fuel a ≠ .error .diverges
  | 0, _, _, hfuel => absurd hfuel (Nat.not_lt_zero _)
  | fuel + 1, a, ha, hfuel => by
    rw [seek]
    split
    · next hp =>
      cases hnext : next a with
      | none => exact nofun
      | some b =>
        obtain ⟨hb, hlt⟩ := hleft ha hp hnext
        exact seek_ne_diverges Valid left hleft hb (by omega)
    · exact nofun

end

end Embers
