import Mathlib

/-!
# Slices of a list

A slice is some elements from an index on, as many as there are. Slices one after the other are one
slice, so it does not matter how a range is cut (`flatten_slices`).
-/

namespace Slices

variable {α β : Type*}

/-- At most `count` elements from an index on. -/
def slice (items : List α) (start count : ℕ) : List α := (items.drop start).take count

/-- Slices one after the other, of some lengths. -/
def slices (items : List α) : ℕ → List ℕ → List (List α)
  | _, [] => []
  | start, count :: counts => slice items start count :: slices items (start + count) counts

theorem slice_add (items : List α) (start m n : ℕ) :
    slice items start (m + n) = slice items start m ++ slice items (start + m) n := by
  rw [slice, slice, slice, List.take_add, List.drop_drop]

theorem slice_all (items : List α) : slice items 0 items.length = items := List.take_length

/-- However a range is cut, its slices are the range. -/
theorem flatten_slices (items : List α) (start : ℕ) (counts : List ℕ) :
    (slices items start counts).flatten = slice items start counts.sum := by
  induction counts generalizing start with
  | nil => exact (List.take_zero).symm
  | cons count counts ih => rw [slices, List.flatten_cons, ih, List.sum_cons, slice_add]

theorem map_slice (f : α → β) (items : List α) (start count : ℕ) :
    (slice items start count).map f = slice (items.map f) start count := by
  rw [slice, slice, List.map_take, List.map_drop]

/-- A slice that is cut at the end of the list. -/
theorem slice_clamped (items : List α) (start count : ℕ) :
    slice items (min start items.length)
        (min (min start items.length + count) items.length - min start items.length) =
      slice items start count := by
  rcases Nat.lt_or_ge start items.length with hin | hout
  · rw [Nat.min_eq_left hin.le]
    rcases Nat.le_total (start + count) items.length with hfits | hlong
    · rw [Nat.min_eq_left hfits, Nat.add_sub_cancel_left]
    · have hall : (items.drop start).length ≤ items.length - start := by rw [List.length_drop]
      have hmore : (items.drop start).length ≤ count := by
        rw [List.length_drop]
        omega
      rw [Nat.min_eq_right hlong, slice, slice, List.take_of_length_le hall,
        List.take_of_length_le hmore]
  · rw [Nat.min_eq_right hout, slice, slice, List.drop_length, List.drop_of_length_le hout,
      List.take_nil, List.take_nil]

/-- The elements of a slice by their indices. -/
theorem slice_map_range (f : ℕ → α) {n start count : ℕ} (h : start + count ≤ n) :
    slice ((List.range n).map f) start count = (List.range' start count).map f := by
  have hsplit : List.range n = List.range' 0 start ++
      (List.range' start count ++ List.range' (start + count) (n - (start + count))) := by
    have hbefore := List.range'_append_1 (s := 0) (m := start) (n := n - start)
    have hafter := List.range'_append_1 (s := start) (m := count) (n := n - (start + count))
    rw [show count + (n - (start + count)) = n - start by omega] at hafter
    rw [Nat.zero_add, show start + (n - start) = n by omega] at hbefore
    rw [hafter, hbefore, List.range_eq_range']
  rw [← map_slice, slice, hsplit, List.drop_left' List.length_range',
    List.take_left' List.length_range']

/-! ## Pages -/

/-- What a page that starts above a line has from the line on. -/
theorem page_slice (items : List α) {top line : ℕ} (height count : ℕ) (h : top ≤ line) :
    ((slice items top height).drop (line - top)).take count =
      slice items line (min count (top + height - line)) := by
  rw [slice, slice, List.drop_take, List.drop_drop, List.take_take,
    show top + (line - top) = line by omega, show height - (line - top) = top + height - line by omega]

/-- A page, and then the rest from its end on. -/
theorem page_append (items : List α) {top line height finish : ℕ} (htop : top ≤ line)
    (hline : line ≤ finish) (hpage : line ≤ top + height) :
    ((slice items top height).drop (line - top)).take (finish - line) ++
        slice items (top + height) (finish - (top + height)) =
      slice items line (finish - line) := by
  rw [page_slice items height _ htop]
  rcases Nat.le_total (top + height) finish with hmore | hlast
  · have hcount : min (finish - line) (top + height - line) = top + height - line := by omega
    have hrest := slice_add items line (top + height - line) (finish - (top + height))
    rw [show line + (top + height - line) = top + height by omega,
      show top + height - line + (finish - (top + height)) = finish - line by omega] at hrest
    rw [hcount, hrest]
  · have hcount : min (finish - line) (top + height - line) = finish - line := by omega
    rw [hcount, show finish - (top + height) = 0 by omega]
    exact List.append_nil _

theorem length_slice {items : List α} {start count : ℕ} (h : start + count ≤ items.length) :
    (slice items start count).length = count := by
  rw [slice, List.length_take, List.length_drop]
  omega

end Slices
