import Mathlib

/-!
# Streams of items

A reader takes items from the front of a stream, one a call, until it finds the end or an error. When it
reads what a writer writes, whatever follows, and takes no item from less than that, it reads a whole
stream back (`readAll_write`), and of a stream that is cut the items before the cut (`readAll_cut`).
-/

namespace Streams

/-- What one call reads. -/
inductive Read (ε α β : Type) where
  | done
  | failed (error : ε)
  | item (a : α) (rest : List β)

/-- A reader, which takes something of the stream with each item. -/
structure Reader (ε α β : Type) where
  read : List β → Read ε α β
  shrinks : ∀ {stream a rest}, read stream = .item a rest → rest.length < stream.length

variable {ε α β : Type}

/-- The items of a stream, and the error that ends it. -/
def Reader.readAll (r : Reader ε α β) (stream : List β) : List α × Option ε :=
  match _h : r.read stream with
  | .done => ([], none)
  | .failed error => ([], some error)
  | .item a rest => (a :: (r.readAll rest).1, (r.readAll rest).2)
termination_by stream.length
decreasing_by exact r.shrinks _h

/-- The reader reads what is written of the items that fit, and takes no item from less. -/
structure Reads (r : Reader ε α β) (Fits : α → Prop) (write : α → List β) : Prop where
  empty : r.read [] = .done
  whole : ∀ {a}, Fits a → ∀ rest, r.read (write a ++ rest) = .item a rest
  cut : ∀ {a}, Fits a → ∀ {stream}, stream <+: write a → stream ≠ write a →
    ∀ b rest, r.read stream ≠ .item b rest

variable {r : Reader ε α β} {Fits : α → Prop} {write : α → List β}

theorem readAll_done {stream : List β} (h : r.read stream = .done) :
    r.readAll stream = ([], none) := by
  rw [Reader.readAll]
  split
  · rfl
  · next hread => cases h.symm.trans hread
  · next hread => cases h.symm.trans hread

theorem readAll_item {stream rest : List β} {a : α} (h : r.read stream = .item a rest) :
    r.readAll stream = (a :: (r.readAll rest).1, (r.readAll rest).2) := by
  rw [Reader.readAll]
  split
  · next hread => cases h.symm.trans hread
  · next hread => cases h.symm.trans hread
  · next hread =>
    cases h.symm.trans hread
    rfl

theorem readAll_of_ne_item {stream : List β} (h : ∀ b rest, r.read stream ≠ .item b rest) :
    (r.readAll stream).1 = [] := by
  rw [Reader.readAll]
  split
  · rfl
  · rfl
  · next hread => exact absurd hread (h _ _)

/-- What is written is read back. -/
theorem readAll_write (h : Reads r Fits write) {items : List α} (hfit : ∀ a ∈ items, Fits a) :
    r.readAll (items.flatMap write) = (items, none) := by
  induction items with
  | nil => exact readAll_done h.empty
  | cons a items ih =>
    obtain ⟨hfirst, hrest⟩ := List.forall_mem_cons.mp hfit
    rw [List.flatMap_cons, readAll_item (h.whole hfirst _), ih hrest]

/-- A stream that is cut has the items before the cut. -/
theorem readAll_cut (h : Reads r Fits write) {items : List α} (hfit : ∀ a ∈ items, Fits a)
    {stream : List β} (hcut : stream <+: items.flatMap write) : (r.readAll stream).1 <+: items := by
  induction items generalizing stream with
  | nil =>
    rw [List.prefix_nil.mp hcut, readAll_done h.empty]
  | cons a items ih =>
    obtain ⟨hfirst, hrest⟩ := List.forall_mem_cons.mp hfit
    rw [List.flatMap_cons] at hcut
    have hread : write a <+: stream → (r.readAll stream).1 <+: a :: items := by
      rintro ⟨rest, rfl⟩
      rw [readAll_item (h.whole hfirst rest)]
      exact List.cons_prefix_cons.mpr ⟨rfl, ih hrest ((List.prefix_append_right_inj _).mp hcut)⟩
    rcases List.prefix_or_prefix_of_prefix hcut (List.prefix_append _ _) with hshort | hlong
    · by_cases hall : stream = write a
      · exact hread (hall ▸ List.prefix_refl _)
      · rw [readAll_of_ne_item (h.cut hfirst hshort hall)]
        exact List.nil_prefix
    · exact hread hlong

end Streams
