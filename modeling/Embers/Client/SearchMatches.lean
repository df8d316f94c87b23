import Embers.Client.Grid
import Embers.Client.WordSearch

/-!
# Searching the text of a buffer

A search goes through each line by byte offsets and slices it at what it finds. Slicing inside a
character would panic; but a text that is found begins and ends where characters do, and so does
every slice. The matches of a line are the leftmost occurrences of the query that do not overlap
(`Leftmost`).
-/

namespace Embers.Client

/-- A slice of a string that begins or ends inside a character, where the source panics. -/
inductive SliceError where
  | insideCharacter
  deriving DecidableEq, Repr

/-- `str::find`: the byte offset of the first occurrence. -/
def findText (query : List Char) : List Char → Option ℕ
  | [] => if query = [] then some 0 else none
  | c :: text =>
    if query.isPrefixOf (c :: text) then some 0
    else (findText query text).map (c.utf8Size + ·)

def displayWidth (u : Unicode) (text : List Char) : UInt16 := .ofNat (min (u.width text) 65535)

section

variable (u : Unicode)

/-- The matches in a line from a byte on. -/
def lineMatches (query : List Char) (lineIndex : ℕ) (line : List Char) :
    ℕ → ℕ → Answer SliceError (List SearchMatch)
  | 0, _ => .error .diverges
  | fuel + 1, searchFrom => do
    let (_, rest) ← Answer.ofOption .insideCharacter (splitBytes searchFrom line)
    match findText query rest with
    | none => pure []
    | some found => do
      let byteStart := searchFrom + found
      let byteEnd := byteStart + byteLength query
      let (before, _) ← Answer.ofOption .insideCharacter (splitBytes byteStart line)
      let (upTo, _) ← Answer.ofOption .insideCharacter (splitBytes byteEnd line)
      let (_, text) ← Answer.ofOption .insideCharacter (splitBytes byteStart upTo)
      let startColumn := displayWidth u before
      let endColumn := saturatingAdd16 startColumn (displayWidth u text)
      let others ← lineMatches query lineIndex line fuel (max byteEnd (searchFrom + 1))
      pure (⟨lineIndex, startColumn, endColumn⟩ :: others)

/-- The matches in the lines from an index on. -/
def linesMatches (query : List Char) (fuel : ℕ) :
    ℕ → List (List Char) → Answer SliceError (List SearchMatch)
  | _, [] => pure []
  | lineIndex, line :: lines => do
    let first ← lineMatches u query lineIndex line fuel 0
    let others ← linesMatches query fuel (lineIndex + 1) lines
    pure (first ++ others)

def computeSearchMatches (fuel : ℕ) (lines : List (List Char)) (query : List Char) :
    Answer SliceError (List SearchMatch) :=
  if query = [] then pure [] else linesMatches u query fuel 0 lines

end

/-! ## Occurrences -/

/-- The query is in the line after so many characters. -/
def Occurs (query line : List Char) (place : ℕ) : Prop := query <+: line.drop place

/-- From a character on, the leftmost occurrences that do not overlap: each is the first from where
the one before ends. -/
inductive Leftmost (query line : List Char) : ℕ → List ℕ → Prop where
  | none {first : ℕ} (h : ∀ i, first ≤ i → ¬ Occurs query line i) : Leftmost query line first []
  | some {first i : ℕ} {rest : List ℕ} (hfirst : first ≤ i) (h : Occurs query line i)
      (hbefore : ∀ j, first ≤ j → j < i → ¬ Occurs query line j)
      (hrest : Leftmost query line (i + query.length) rest) : Leftmost query line first (i :: rest)

/-- The match of an occurrence, with the columns of the text up to it and over it. -/
def matchAt (u : Unicode) (query : List Char) (lineIndex : ℕ) (line : List Char) (i : ℕ) :
    SearchMatch :=
  let startColumn := displayWidth u (line.take i)
  ⟨lineIndex, startColumn, saturatingAdd16 startColumn (displayWidth u query)⟩

variable {u : Unicode} {query line text : List Char}

/-- There is only one list of leftmost occurrences. -/
theorem Leftmost.unique {first : ℕ} {starts starts' : List ℕ} (h : Leftmost query line first starts)
    (h' : Leftmost query line first starts') : starts = starts' := by
  induction h generalizing starts' with
  | none hnone =>
    cases h' with
    | none => rfl
    | some hfirst hoccurs => exact absurd hoccurs (hnone _ hfirst)
  | @some first i rest hfirst hoccurs hbefore _ ih =>
    cases h' with
    | none hnone => exact absurd hoccurs (hnone _ hfirst)
    | @some _ i' _ hfirst' hoccurs' hbefore' hrest' =>
      obtain rfl : i = i' := by
        rcases Nat.lt_trichotomy i i' with hlt | heq | hlt
        · exact absurd hoccurs (hbefore' i hfirst hlt)
        · exact heq
        · exact absurd hoccurs' (hbefore i' hfirst' hlt)
      rw [ih hrest']

theorem findText_eq_none (hquery : query ≠ []) (h : findText query text = none) (i : ℕ) :
    ¬ Occurs query text i := by
  induction text generalizing i with
  | nil =>
    rw [Occurs, List.drop_nil, List.prefix_nil]
    exact hquery
  | cons c text ih =>
    rw [findText] at h
    split at h
    · cases h
    · next hhere =>
      cases i with
      | zero => exact fun hoccurs ↦ hhere (List.isPrefixOf_iff_prefix.mpr hoccurs)
      | succ i => exact ih (Option.map_eq_none_iff.mp h) i

theorem findText_eq_some {found : ℕ} (h : findText query text = some found) :
    ∃ i ≤ text.length, found = byteLength (text.take i) ∧ Occurs query text i ∧
      ∀ j < i, ¬ Occurs query text j := by
  induction text generalizing found with
  | nil =>
    rw [findText] at h
    split at h
    · next hquery =>
      cases h
      exact ⟨0, Nat.le_refl 0, rfl, hquery ▸ List.nil_prefix, fun j hj ↦ absurd hj (Nat.not_lt_zero j)⟩
    · cases h
  | cons c text ih =>
    rw [findText] at h
    split at h
    · next hhere =>
      cases h
      exact ⟨0, Nat.zero_le _, rfl, List.isPrefixOf_iff_prefix.mp hhere,
        fun j hj ↦ absurd hj (Nat.not_lt_zero j)⟩
    · next hhere =>
      obtain ⟨rest, hrest, rfl⟩ := Option.map_eq_some_iff.mp h
      obtain ⟨i, hi, rfl, hoccurs, hbefore⟩ := ih hrest
      refine ⟨i + 1, Nat.succ_le_succ hi, ?_, hoccurs, fun j hj ↦ ?_⟩
      · rw [List.take_succ_cons, byteLength, byteLength, List.map_cons, List.sum_cons]
      · cases j with
        | zero => exact fun hoccurs ↦ hhere (List.isPrefixOf_iff_prefix.mpr hoccurs)
        | succ j => exact hbefore j (Nat.lt_of_succ_lt_succ hj)

theorem occurs_drop {n i : ℕ} : Occurs query (line.drop n) i ↔ Occurs query line (n + i) := by
  rw [Occurs, Occurs, List.drop_drop]

/-! ## The search -/

/-- In one line the search finds the leftmost occurrences. -/
theorem lineMatches_ok (hquery : query ≠ []) (lineIndex : ℕ) :
    ∀ {fuel first : ℕ}, first ≤ line.length → line.length - first < fuel →
      ∃ starts, Leftmost query line first starts ∧
        lineMatches u query lineIndex line fuel (byteLength (line.take first)) =
          .ok (starts.map (matchAt u query lineIndex line)) := by
  intro fuel
  induction fuel with
  | zero => exact fun _ h ↦ absurd h (Nat.not_lt_zero _)
  | succ fuel ih =>
    intro first hfirst hfuel
    rw [lineMatches, splitBytes_take]
    simp only [Answer.ofOption_some, Answer.bind_ok]
    cases hfind : findText query (line.drop first) with
    | none =>
      refine ⟨[], .none fun i hi ↦ ?_, rfl⟩
      have hnone := findText_eq_none hquery hfind (i - first)
      rwa [occurs_drop, Nat.add_sub_cancel' hi] at hnone
    | some found =>
      obtain ⟨i, -, rfl, hoccurs, hbefore⟩ := findText_eq_some hfind
      rw [occurs_drop] at hoccurs
      obtain ⟨rest, hrest⟩ := hoccurs
      have hpos : 0 < query.length := List.length_pos_iff.mpr hquery
      have hlength := congrArg List.length hrest
      rw [List.length_append, List.length_drop] at hlength
      -- The offsets are those of the occurrence and of its end.
      have hstart : byteLength (line.take first) + byteLength ((line.drop first).take i) =
          byteLength (line.take (first + i)) := by
        rw [← byteLength_append, ← List.take_add]
      have htext : line.take (first + i) ++ query = line.take (first + i + query.length) := by
        have htake : line.take (first + i + query.length) =
            line.take (first + i) ++ (line.drop (first + i)).take query.length := List.take_add
        rw [htake, ← hrest, List.take_left]
      have hend : byteLength (line.take (first + i)) + byteLength query =
          byteLength (line.take (first + i + query.length)) := by
        rw [← byteLength_append, htext]
      have hupTo : splitBytes (byteLength (line.take (first + i)))
          (line.take (first + i + query.length)) = some (line.take (first + i), query) := by
        rw [← htext]
        exact splitBytes_append _ _
      obtain ⟨others, hothers, hmatches⟩ :=
        @ih (first + i + query.length) (by omega) (by omega)
      have hnext : max (byteLength (line.take (first + i + query.length)))
          (byteLength (line.take first) + 1) = byteLength (line.take (first + i + query.length)) := by
        have hquery' : 0 < byteLength query := by
          cases query with
          | nil => exact absurd rfl hquery
          | cons c query =>
            have := c.utf8Size_pos
            rw [byteLength, List.map_cons, List.sum_cons]
            omega
        omega
      refine ⟨(first + i) :: others, .some (Nat.le_add_right _ _) ⟨rest, hrest⟩ (fun j hj hlt ↦ ?_)
        hothers, ?_⟩
      · have hnot := hbefore (j - first) (by omega)
        rwa [occurs_drop, Nat.add_sub_cancel' hj] at hnot
      · simp only [hstart, hend, splitBytes_take, hupTo, hnext, hmatches, Answer.ofOption_some,
          Answer.bind_ok]
        rfl

/-- The matches of lines with the occurrences in each. -/
def matchesAt (u : Unicode) (query : List Char) :
    ℕ → List (List Char) → List (List ℕ) → List SearchMatch
  | lineIndex, line :: lines, starts :: more =>
    starts.map (matchAt u query lineIndex line) ++ matchesAt u query (lineIndex + 1) lines more
  | _, _, _ => []

/-- The search finds the leftmost occurrences in each line, one line after the other. -/
theorem linesMatches_ok (hquery : query ≠ []) {fuel : ℕ} {lines : List (List Char)}
    (hfuel : ∀ line ∈ lines, line.length < fuel) (lineIndex : ℕ) :
    ∃ starts, List.Forall₂ (fun line starts ↦ Leftmost query line 0 starts) lines starts ∧
      linesMatches u query fuel lineIndex lines =
        .ok (matchesAt u query lineIndex lines starts) := by
  induction lines generalizing lineIndex with
  | nil => exact ⟨[], .nil, rfl⟩
  | cons line lines ih =>
    have hline := hfuel line List.mem_cons_self
    have hzeroFuel : line.length - 0 < fuel := by omega
    obtain ⟨starts, hstarts, hfirst⟩ := lineMatches_ok hquery lineIndex (Nat.zero_le _) hzeroFuel
    obtain ⟨more, hmore, hothers⟩ :=
      ih (fun line' hline' ↦ hfuel line' (List.mem_cons_of_mem _ hline')) (lineIndex + 1)
    refine ⟨starts :: more, .cons hstarts hmore, ?_⟩
    have hzero : byteLength (line.take 0) = 0 := rfl
    rw [hzero] at hfirst
    rw [linesMatches, hfirst, Answer.bind_ok, hothers]
    rfl

theorem computeSearchMatches_ok (hquery : query ≠ []) (lines : List (List Char)) :
    ∃ enough, ∀ fuel, enough ≤ fuel → ∃ starts,
      List.Forall₂ (fun line starts ↦ Leftmost query line 0 starts) lines starts ∧
        computeSearchMatches u fuel lines query = .ok (matchesAt u query 0 lines starts) := by
  obtain ⟨most, hmost⟩ := Text.exists_le_of_mem List.length lines
  refine ⟨most + 1, fun fuel hfuel ↦ ?_⟩
  have hlines : ∀ line ∈ lines, line.length < fuel := by
    intro line hline
    have := hmost line hline
    omega
  obtain ⟨starts, hstarts, hmatches⟩ := linesMatches_ok (u := u) hquery hlines 0
  exact ⟨starts, hstarts, by rw [computeSearchMatches, if_neg hquery, hmatches]⟩

end Embers.Client
