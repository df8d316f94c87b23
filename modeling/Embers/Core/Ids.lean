import Embers.Lib.Table

/-!
# Ids

Every entity of the server is named by a 64-bit id of its own kind. The kinds are kept apart by
an index, so a node id is never passed for a buffer id, and one definition serves the whole
family of newtypes.

An allocator hands out consecutive ids and wraps at `2⁶⁴`, as the atomic counter behind it does.
-/

namespace Embers

/-- What an id names. -/
inductive IdKind where
  | session
  | buffer
  | node
  | floating
  | client
  deriving DecidableEq, Repr

/-- A 64-bit id of the given kind. -/
structure EntityId (κ : IdKind) where
  raw : UInt64
  deriving DecidableEq, Repr

abbrev SessionId := EntityId .session

abbrev BufferId := EntityId .buffer

abbrev NodeId := EntityId .node

abbrev FloatingId := EntityId .floating

abbrev ClientId := EntityId .client

namespace EntityId

variable {κ : IdKind}

instance : Ord (EntityId κ) := ⟨fun a b ↦ compare a.raw b.raw⟩

instance : Std.TransOrd (EntityId κ) := inferInstanceAs (Std.TransCmp (compareOn EntityId.raw))

instance : Std.LawfulEqOrd (EntityId κ) where
  eq_of_compare {a b} h := by
    cases a
    cases b
    exact congrArg EntityId.mk (Std.LawfulEqOrd.eq_of_compare (α := UInt64) h)

-- Named once, so that every membership test of a definition rests on the same proof.
instance : LawfulBEq (EntityId κ) := inferInstance

instance (n : ℕ) : OfNat (EntityId κ) n := ⟨⟨UInt64.ofNat n⟩⟩

instance : ToString (EntityId κ) := ⟨fun id ↦ toString id.raw⟩

end EntityId

/-- Hands out consecutive ids. -/
structure IdAllocator (κ : IdKind) where
  counter : UInt64
  deriving DecidableEq, Repr

namespace IdAllocator

variable {κ : IdKind}

/-- The id the next allocation returns. -/
def peek (a : IdAllocator κ) : EntityId κ := ⟨a.counter⟩

/-- The allocator after one allocation: `fetch_add` wraps. -/
def advance (a : IdAllocator κ) : IdAllocator κ := ⟨a.counter + 1⟩

end IdAllocator

end Embers
