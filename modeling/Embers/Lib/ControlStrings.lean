import Mathlib

/-!
# Control strings

A program writes control strings among its text: an escape and an introducer open one, and what
follows is its body. A string is complete when a symbol that ends strings closes it, or an escape
with a closing symbol after it. Any other escape cuts the string short and may itself open the next,
and an aborting symbol drops it.

`Grammar.step` reads one symbol. `Grammar.step_eq_some_iff` says without the states which strings a
text completes: wherever an escape and the introducer stand, a string opens.
-/

namespace ControlStrings

/-- The symbols that delimit the control strings of one kind. -/
structure Grammar (α : Type*) where
  escape : α
  introducer : α
  /-- Completes a string when it comes after an escape. -/
  closer : α
  /-- Complete a string by themselves. -/
  ends : α → Bool
  aborts : α → Bool

inductive State (α : Type*) where
  | ground
  | escaped
  | inside (body : List α)
  /-- An escape has come after the body. -/
  | closing (body : List α)

namespace Grammar

variable {α : Type*} [DecidableEq α] (g : Grammar α)

/-- The symbol after an escape that closes nothing. -/
def afterEscape (c : α) : State α :=
  if c = g.escape then .escaped else if c = g.introducer then .inside [] else .ground

/-- Read one symbol, with the body of the string that it completes. -/
def step : State α → α → State α × Option (List α)
  | .ground, c => (if c = g.escape then .escaped else .ground, none)
  | .escaped, c => (g.afterEscape c, none)
  | .inside body, c =>
    if c = g.escape then (.closing body, none)
    else if g.ends c then (.ground, some body)
    else if g.aborts c then (.ground, none)
    else (.inside (body ++ [c]), none)
  | .closing body, c => if c = g.closer then (.ground, some body) else (g.afterEscape c, none)

/-- The state after a text. -/
def state (s : State α) (text : List α) : State α := text.foldl (fun s c ↦ (g.step s c).1) s

/-- The bodies of the strings that a text completes, in order. -/
def strings (s : State α) : List α → List (List α)
  | [] => []
  | c :: text => (g.step s c).2.toList ++ strings (g.step s c).1 text

/-- A symbol that stands in a body. -/
def Plain (c : α) : Prop := c ≠ g.escape ∧ g.ends c = false ∧ g.aborts c = false

/-- The text ends with an opened string of this body. -/
def Opens (text body : List α) : Prop :=
  ∃ before, text = before ++ g.escape :: g.introducer :: body ∧ ∀ c ∈ body, g.Plain c

/-- The symbols of a grammar can be told apart. -/
structure Distinct : Prop where
  introducer_ne_escape : g.introducer ≠ g.escape
  introducer_ne_closer : g.introducer ≠ g.closer
  closer_ne_escape : g.closer ≠ g.escape

variable {g} {text body : List α} {c : α} {s : State α}

@[simp] theorem state_nil : g.state s [] = s := rfl

@[simp] theorem state_cons : g.state s (c :: text) = g.state (g.step s c).1 text := rfl

theorem state_append (more : List α) : g.state s (text ++ more) = g.state (g.state s text) more := by
  simp [state]

theorem state_concat : g.state s (text ++ [c]) = (g.step (g.state s text) c).1 := by
  simp [state]

@[simp] theorem strings_nil : g.strings s [] = [] := rfl

theorem strings_append (more : List α) :
    g.strings s (text ++ more) = g.strings s text ++ g.strings (g.state s text) more := by
  induction text generalizing s with
  | nil => rfl
  | cons c text ih => simp [strings, ih]

/-- A plain symbol goes to the body. -/
theorem step_inside_plain (h : g.Plain c) :
    g.step (.inside body) c = (.inside (body ++ [c]), none) := by
  simp [step, h.1, h.2.1, h.2.2]

/-- An open string takes plain symbols and completes nothing. -/
theorem read_plain (h : ∀ c ∈ text, g.Plain c) :
    g.state (.inside body) text = .inside (body ++ text) ∧ g.strings (.inside body) text = [] := by
  induction text generalizing body with
  | nil => simp
  | cons c text ih =>
    have hc : g.step (.inside body) c = (.inside (body ++ [c]), none) :=
      step_inside_plain (h c List.mem_cons_self)
    have hrest := @ih (body ++ [c]) fun d hd ↦ h d (List.mem_cons_of_mem _ hd)
    simpa [strings, hc] using hrest

/-! ## The strings of a text -/

/-- Whatever was being read, an escape leaves it and the introducer then opens a string. -/
theorem state_escape_introducer (hg : g.Distinct) :
    g.state s [g.escape, g.introducer] = .inside [] := by
  have hafter : g.afterEscape g.introducer = .inside [] := by
    simp [afterEscape, hg.introducer_ne_escape]
  cases s with
  | ground => simp [step, hafter]
  | escaped => simp [step, afterEscape, hg.introducer_ne_escape]
  | inside body => simp [step, hafter, hg.introducer_ne_closer]
  | closing body =>
    simp [step, afterEscape, hg.introducer_ne_escape, Ne.symm hg.closer_ne_escape]

/-- What the text read so far says about the state. -/
def Reading (g : Grammar α) (text : List α) : State α → Prop
  | .ground => True
  | .escaped => text.getLast? = some g.escape
  | .inside body => g.Opens text body
  | .closing body => ∃ opened, text = opened ++ [g.escape] ∧ g.Opens opened body

theorem reading_afterEscape (hg : g.Distinct) {before : List α} :
    Reading g (before ++ [g.escape] ++ [c]) (g.afterEscape c) := by
  by_cases hescape : c = g.escape
  · simp [afterEscape, Reading, hescape]
  · by_cases hintro : c = g.introducer
    · subst hintro
      simp only [afterEscape, hg.introducer_ne_escape, if_false, if_true, Reading]
      exact ⟨before, by simp, by simp⟩
    · simp [afterEscape, Reading, hescape, hintro]

/-- The state says which string is open. -/
theorem reading_state (hg : g.Distinct) (text : List α) : Reading g text (g.state .ground text) := by
  induction text using List.reverseRecOn with
  | nil => simp [Reading]
  | append_singleton text c ih =>
    rw [state_concat]
    cases hs : g.state .ground text with
    | ground => by_cases hc : c = g.escape <;> simp [step, Reading, hc]
    | escaped =>
      rw [hs] at ih
      obtain ⟨before, rfl⟩ : ∃ before, text = before ++ [g.escape] :=
        ⟨text.dropLast, (List.dropLast_append_getLast? _ ih).symm⟩
      exact reading_afterEscape hg
    | inside body =>
      rw [hs] at ih
      by_cases hescape : c = g.escape
      · subst hescape
        simpa [step, Reading] using ih
      by_cases hends : g.ends c
      · simp [step, Reading, hescape, hends]
      by_cases haborts : g.aborts c
      · simp [step, Reading, hescape, hends, haborts]
      have hplain : g.Plain c := ⟨hescape, by simpa using hends, by simpa using haborts⟩
      obtain ⟨before, rfl, hbody⟩ := ih
      rw [step_inside_plain hplain]
      refine ⟨before, by simp, fun d hd ↦ ?_⟩
      obtain hd | rfl : d ∈ body ∨ d = c := by simpa using hd
      · exact hbody d hd
      · exact hplain
    | closing body =>
      rw [hs] at ih
      obtain ⟨opened, rfl, -⟩ := ih
      by_cases hc : c = g.closer
      · simp [step, hc, Reading]
      · simpa only [step, hc, if_false] using reading_afterEscape hg

/-- A string is open exactly when the text ends with its introducer and its body. -/
theorem state_eq_inside_iff (hg : g.Distinct) :
    g.state .ground text = .inside body ↔ g.Opens text body := by
  constructor
  · intro h
    have := reading_state hg text
    rwa [h] at this
  · rintro ⟨before, rfl, hbody⟩
    have hsplit : before ++ g.escape :: g.introducer :: body =
        before ++ ([g.escape, g.introducer] ++ body) := by simp
    rw [hsplit, state_append, state_append, state_escape_introducer hg, (read_plain hbody).1]
    rfl

theorem state_eq_closing_iff (hg : g.Distinct) :
    g.state .ground text = .closing body ↔
      ∃ opened, text = opened ++ [g.escape] ∧ g.Opens opened body := by
  constructor
  · intro h
    have := reading_state hg text
    rwa [h] at this
  · rintro ⟨opened, rfl, hopened⟩
    rw [state_concat, (state_eq_inside_iff hg).2 hopened]
    simp [step]

/-- **The strings a text completes.** A symbol completes a string exactly when the text before it
opens that string and the symbol ends it, or an escape comes between and the symbol closes it. -/
theorem step_eq_some_iff (hg : g.Distinct) :
    (g.step (g.state .ground text) c).2 = some body ↔
      (g.Opens text body ∧ c ≠ g.escape ∧ g.ends c) ∨
        (∃ opened, text = opened ++ [g.escape] ∧ g.Opens opened body) ∧ c = g.closer := by
  rw [← state_eq_inside_iff hg, ← state_eq_closing_iff hg]
  cases g.state .ground text with
  | ground => simp [step]
  | escaped => simp [step]
  | inside opened =>
    by_cases hescape : c = g.escape
    · simp [step, hescape]
    by_cases hends : g.ends c
    · simp [step, hescape, hends]
    by_cases haborts : g.aborts c
    all_goals simp [step, hescape, hends, haborts]
  | closing opened => by_cases hc : c = g.closer <;> simp [step, hc]

end Grammar

end ControlStrings
