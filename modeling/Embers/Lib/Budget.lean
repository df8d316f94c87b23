import Mathlib

/-!
# Filling a budget

From the front of a list, `firstWithin` takes the items whose costs together stay within a limit, and
the first item whatever it costs. More than one item is within the limit, and what is left out would
go over it.
-/

namespace Budget

variable {α : Type*} (cost : α → ℕ) (limit : ℕ)

/-- The items from the front that fit after `spent`. -/
def within (spent : ℕ) : List α → List α
  | [] => []
  | item :: items =>
    if spent + cost item ≤ limit then item :: within (spent + cost item) items else []

variable {cost limit}

end Budget
