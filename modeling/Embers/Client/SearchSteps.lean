import Embers.Lib.Laps
import Embers.Client.SearchMatches

/-!
# Going from match to match

Going to the next match in copy mode looks for the first match after the cursor, or the last before
it, and goes round the buffer; outside of copy mode it counts from the active match. A count is
taken modulo the number of matches, as whole laps end where they began.

Matches that begin at one place, such as two marks on one letter, are passed in one step. There a
lap has fewer steps than there are matches, and a count above the number of matches can end
elsewhere than as many single steps.
-/

namespace Embers.Client

/-- Where a match begins, in the order of reading. -/
def SearchMatch.position (found : SearchMatch) : ℕ ×ₗ ℕ :=
  toLex (found.line, found.startColumn.toNat)

def SelectionPoint.position (point : SelectionPoint) : ℕ ×ₗ ℕ := toLex (point.line, point.column.toNat)

/-- `Iterator::rposition`: the index of the last item that passes a test. -/
def rposition {α : Type} (p : α → Bool) (items : List α) : Option ℕ :=
  (items.reverse.findIdx? p).map (items.length - 1 - ·)

/-- The match that `n` or `N` lands on from a cursor, going round the buffer. -/
def nextMatchIndex (found : List SearchMatch) (cursor : SelectionPoint) (forward : Bool) :
    Option ℕ :=
  if found = [] then none
  else if forward then
    some ((found.findIdx? fun found ↦ cursor.position < found.position).getD 0)
  else
    some ((rposition (fun found ↦ found.position < cursor.position) found).getD (found.length - 1))

/-- The point that motions move: a selection's free end, else the copy cursor. -/
def BufferViewState.copyPoint (view : BufferViewState) : Option SelectionPoint :=
  (view.selectionState.map (·.cursor)).or view.copyCursor

/-- Some steps from match to match, with the cursor on each of them where there is a cursor. -/
def searchSteps (found : List SearchMatch) (forward : Bool) :
    ℕ → Option SelectionPoint → Option ℕ → Option ℕ
  | 0, _, current => current
  | steps + 1, cursor, current =>
    let next :=
      match cursor with
      | some point => (nextMatchIndex found point forward).getD 0
      | none =>
        let current := current.getD 0
        if forward then (current + 1) % found.length
        else if current = 0 then found.length - 1
        else current - 1
    let cursor := cursor.bind fun _ ↦ found[next]?.map fun found ↦ ⟨found.line, found.startColumn⟩
    searchSteps found forward steps cursor (some next)

/-- Make a match the active one, with the copy cursor on it in copy mode. Scrolling to it is left
out. -/
def BufferViewState.jumpToSearchIndex (view : BufferViewState) (index : ℕ) : BufferViewState :=
  match view.searchState with
  | none => view
  | some search =>
    match search.found[index]? with
    | none => view
    | some selected =>
      let point : SelectionPoint := ⟨selected.line, selected.startColumn⟩
      let view := { view with
        searchState := some { search with activeMatchIndex := some index }
        followOutput := false }
      if view.copyCursor.isSome then
        { view with
          copyCursor := some point
          selectionState := view.selectionState.map fun selection ↦
            { selection with cursor := point } }
      else view

/-- `n`, or `N`, with a count. After a backward search the directions swap. -/
def BufferViewState.navigateSearch (view : BufferViewState) (searchBackward forward : Bool)
    (count : ℕ) : BufferViewState :=
  if view.alternateScreen then view
  else
    match view.searchState with
    | none => view
    | some search =>
      if search.found = [] then view
      else
        let steps := (max count 1 - 1) % search.found.length + 1
        match searchSteps search.found (forward != searchBackward) steps view.copyPoint
          search.activeMatchIndex with
        | some index => view.jumpToSearchIndex index
        | none => view

/-! ## Places -/

section

variable {found : List SearchMatch}

/-- The list is in the order of reading. -/
def InOrder (found : List SearchMatch) : Prop :=
  found.Pairwise fun first second ↦ first.position ≤ second.position

instance (found : List SearchMatch) : Decidable (InOrder found) :=
  inferInstanceAs (Decidable (List.Pairwise _ _))

/-- The places where matches begin. -/
def places (found : List SearchMatch) : Finset (ℕ ×ₗ ℕ) := Laps.keys SearchMatch.position found

/-- The index of the match that a direction goes to from a place. -/
def indexFrom (found : List SearchMatch) (forward : Bool) (place : ℕ ×ₗ ℕ) : ℕ :=
  if forward then Laps.firstAfter SearchMatch.position found place
  else found.length - 1 -
    Laps.firstAfter (fun found ↦ OrderDual.toDual found.position) found.reverse
      (OrderDual.toDual place)

theorem nextMatchIndex_eq (hne : found ≠ []) (cursor : SelectionPoint) (forward : Bool) :
    nextMatchIndex found cursor forward = some (indexFrom found forward cursor.position) := by
  rw [nextMatchIndex, if_neg hne, indexFrom]
  cases forward with
  | true => rfl
  | false =>
    rw [if_neg Bool.false_ne_true, if_neg Bool.false_ne_true, rposition, Laps.firstAfter]
    congr 1
    simp only [OrderDual.toDual_lt_toDual]
    cases found.reverse.findIdx? fun found ↦ decide (found.position < cursor.position) <;> rfl

theorem reverse_inOrder (h : InOrder found) :
    found.reverse.Pairwise fun first second ↦
      OrderDual.toDual first.position ≤ OrderDual.toDual second.position :=
  List.pairwise_reverse.mpr h

/-- The place that a direction goes to next, round the buffer. -/
def nextPlace (hne : found ≠ []) (forward : Bool) (place : ℕ ×ₗ ℕ) : ℕ ×ₗ ℕ :=
  if forward then Laps.next (Laps.keys_nonempty SearchMatch.position hne) place
  else OrderDual.ofDual (Laps.next (Laps.keys_nonempty
    (fun found : SearchMatch ↦ OrderDual.toDual found.position) (List.reverse_ne_nil_iff.mpr hne))
      (OrderDual.toDual place))

theorem indexFrom_spec (h : InOrder found) (hne : found ≠ []) (forward : Bool) (place : ℕ ×ₗ ℕ) :
    ∃ selected, found[indexFrom found forward place]? = some selected ∧
      selected.position = nextPlace hne forward place := by
  cases forward with
  | true =>
    obtain ⟨hlt, hkey, -⟩ := Laps.key_firstAfter h hne place
    exact ⟨_, List.getElem?_eq_getElem hlt, hkey⟩
  | false =>
    obtain ⟨hlt, hkey, -⟩ := Laps.key_firstAfter (reverse_inOrder h)
      (List.reverse_ne_nil_iff.mpr hne) (OrderDual.toDual place)
    rw [List.getElem_reverse] at hkey
    exact ⟨_, List.getElem?_eq_getElem _, congrArg OrderDual.ofDual hkey⟩

theorem indexFrom_eq_iff (h : InOrder found) (hne : found ≠ []) (forward : Bool)
    (place place' : ℕ ×ₗ ℕ) :
    indexFrom found forward place = indexFrom found forward place' ↔
      nextPlace hne forward place = nextPlace hne forward place' := by
  cases forward with
  | true => exact Laps.firstAfter_eq_iff h hne place place'
  | false =>
    have hiff := Laps.firstAfter_eq_iff (reverse_inOrder h) (List.reverse_ne_nil_iff.mpr hne)
      (OrderDual.toDual place) (OrderDual.toDual place')
    obtain ⟨hlt, -⟩ := Laps.key_firstAfter (reverse_inOrder h)
      (List.reverse_ne_nil_iff.mpr hne) (OrderDual.toDual place)
    obtain ⟨hlt', -⟩ := Laps.key_firstAfter (reverse_inOrder h)
      (List.reverse_ne_nil_iff.mpr hne) (OrderDual.toDual place')
    rw [List.length_reverse] at hlt hlt'
    rw [nextPlace, nextPlace, if_neg Bool.false_ne_true, if_neg Bool.false_ne_true,
      EmbeddingLike.apply_eq_iff_eq, ← hiff, indexFrom, indexFrom, if_neg Bool.false_ne_true,
      if_neg Bool.false_ne_true]
    omega

/-- There are as many places in the one direction as in the other. -/
theorem card_keys_reverse :
    (Laps.keys (fun found : SearchMatch ↦ OrderDual.toDual found.position) found.reverse).card =
      (places found).card := by
  have himage : Laps.keys (fun found : SearchMatch ↦ OrderDual.toDual found.position)
      found.reverse = (places found).map OrderDual.toDual.toEmbedding := by
    ext place
    simp only [Laps.keys, places, List.mem_toFinset, List.mem_map, List.mem_reverse,
      Finset.mem_map_equiv]
    exact Iff.rfl
  rw [himage, Finset.card_map]

/-- Steps from one place end at one place when they differ by whole laps. -/
theorem iterate_nextPlace_eq_iff (hne : found ≠ []) (forward : Bool) (place : ℕ ×ₗ ℕ) (m n : ℕ) :
    (nextPlace hne forward)^[m + 1] place = (nextPlace hne forward)^[n + 1] place ↔
      m ≡ n [MOD (places found).card] := by
  cases forward with
  | true => exact Laps.iterate_next_eq_iff (Laps.keys_nonempty SearchMatch.position hne) place m n
  | false =>
    let back := Laps.next (Laps.keys_nonempty
      (fun found : SearchMatch ↦ OrderDual.toDual found.position) (List.reverse_ne_nil_iff.mpr hne))
    have hback : ∀ k : ℕ, (nextPlace hne false)^[k] place =
        OrderDual.ofDual (back^[k] (OrderDual.toDual place)) := by
      intro k
      induction k with
      | zero => rfl
      | succ k ih =>
        rw [Function.iterate_succ_apply', Function.iterate_succ_apply', ih]
        rfl
    rw [hback, hback, EmbeddingLike.apply_eq_iff_eq, ← card_keys_reverse]
    exact Laps.iterate_next_eq_iff _ _ m n

/-! ## Steps -/

/-- One step without a cursor. -/
def turn (count : ℕ) (forward : Bool) (current : ℕ) : ℕ :=
  if forward then (current + 1) % count else if current = 0 then count - 1 else current - 1

/-- Steps from a cursor go from place to place. -/
theorem searchSteps_cursor (h : InOrder found) (hne : found ≠ []) (forward : Bool) (steps : ℕ)
    (cursor : SelectionPoint) (current : Option ℕ) :
    searchSteps found forward (steps + 1) (some cursor) current =
      some (indexFrom found forward ((nextPlace hne forward)^[steps] cursor.position)) := by
  induction steps generalizing cursor current with
  | zero =>
    simp only [searchSteps, nextMatchIndex_eq hne, Option.getD_some]
    rfl
  | succ steps ih =>
    obtain ⟨selected, hselected, hplace⟩ := indexFrom_spec h hne forward cursor.position
    have hstep : searchSteps found forward (steps + 2) (some cursor) current =
        searchSteps found forward (steps + 1) (some ⟨selected.line, selected.startColumn⟩)
          (some (indexFrom found forward cursor.position)) := by
      conv_lhs => rw [searchSteps]
      simp only [nextMatchIndex_eq hne, Option.getD_some, Option.bind_some, hselected,
        Option.map_some]
    rw [hstep, ih, Function.iterate_succ_apply, ← hplace]
    rfl

theorem searchSteps_none (forward : Bool) (steps : ℕ) (current : Option ℕ) :
    searchSteps found forward (steps + 1) none current =
      some ((turn found.length forward)^[steps + 1] (current.getD 0)) := by
  induction steps generalizing current with
  | zero => rfl
  | succ steps ih =>
    have hstep : searchSteps found forward (steps + 2) none current =
        searchSteps found forward (steps + 1) none
          (some (turn found.length forward (current.getD 0))) := rfl
    rw [hstep, ih, Option.getD_some, ← Function.iterate_succ_apply]

/-- Turns go round the matches. -/
theorem iterate_turn {count current : ℕ} (hcurrent : current < count) (forward : Bool) (m : ℕ) :
    (turn count forward)^[m] current =
      (current + m * if forward then 1 else count - 1) % count := by
  induction m with
  | zero => rw [Function.iterate_zero_apply, Nat.zero_mul, Nat.add_zero, Nat.mod_eq_of_lt hcurrent]
  | succ m ih =>
    have hturn : ∀ i < count, turn count forward i =
        (i + if forward then 1 else count - 1) % count := by
      intro i hi
      cases forward with
      | true => rfl
      | false =>
        rw [turn, if_neg Bool.false_ne_true, if_neg Bool.false_ne_true]
        split
        · next hzero => rw [hzero, Nat.zero_add, Nat.mod_eq_of_lt (by omega)]
        · have hsum : i + (count - 1) = i - 1 + count := by omega
          rw [hsum, Nat.add_mod_right, Nat.mod_eq_of_lt (by omega)]
    rw [Function.iterate_succ_apply', ih, hturn _ (Nat.mod_lt _ (by omega)), Nat.mod_add_mod,
      Nat.succ_mul, Nat.add_assoc]

/-! ## Views -/

variable {view : BufferViewState} {search : SearchState} {index : ℕ} {selected : SearchMatch}

/-- The match that is the active one. -/
def BufferViewState.activeMatch (view : BufferViewState) : Option ℕ :=
  view.searchState.bind (·.activeMatchIndex)

theorem jumpToSearchIndex_searchState (hsearch : view.searchState = some search)
    (hselected : search.found[index]? = some selected) :
    (view.jumpToSearchIndex index).searchState =
      some { search with activeMatchIndex := some index } := by
  simp only [BufferViewState.jumpToSearchIndex, hsearch, hselected]
  split <;> rfl

theorem jumpToSearchIndex_alternateScreen (index : ℕ) :
    (view.jumpToSearchIndex index).alternateScreen = view.alternateScreen := by
  rw [BufferViewState.jumpToSearchIndex]
  split
  · rfl
  · split
    · rfl
    · simp only
      split <;> rfl

theorem jumpToSearchIndex_copyPoint (hsearch : view.searchState = some search)
    (hselected : search.found[index]? = some selected) :
    (view.jumpToSearchIndex index).copyPoint =
      if view.copyCursor.isSome then some ⟨selected.line, selected.startColumn⟩
      else view.copyPoint := by
  simp only [BufferViewState.jumpToSearchIndex, hsearch, hselected, BufferViewState.copyPoint]
  split
  · cases view.selectionState <;> rfl
  · rfl

/-- The last jump counts. -/
theorem jumpToSearchIndex_again (hsearch : view.searchState = some search)
    (hselected : search.found[index]? = some selected) (index' : ℕ) {selected' : SearchMatch}
    (hselected' : search.found[index']? = some selected') :
    (view.jumpToSearchIndex index).jumpToSearchIndex index' = view.jumpToSearchIndex index' := by
  cases hcursor : view.copyCursor with
  | none => simp [BufferViewState.jumpToSearchIndex, hsearch, hselected, hselected', hcursor]
  | some cursor =>
    simp [BufferViewState.jumpToSearchIndex, hsearch, hselected, hselected', hcursor,
      Function.comp_def]

theorem navigateSearch_eq (halternate : view.alternateScreen = false)
    (hsearch : view.searchState = some search) (hne : search.found ≠ [])
    (searchBackward forward : Bool) (count : ℕ)
    (hsteps : searchSteps search.found (forward != searchBackward)
      ((max count 1 - 1) % search.found.length + 1) view.copyPoint search.activeMatchIndex =
        some index) :
    view.navigateSearch searchBackward forward count = view.jumpToSearchIndex index := by
  simp only [BufferViewState.navigateSearch, halternate, Bool.false_eq_true, if_false, hsearch,
    if_neg hne, hsteps]

theorem activeMatch_jumpToSearchIndex (hsearch : view.searchState = some search)
    (hselected : search.found[index]? = some selected) :
    (view.jumpToSearchIndex index).activeMatch = some index := by
  rw [BufferViewState.activeMatch, jumpToSearchIndex_searchState hsearch hselected]
  rfl

section

variable (halternate : view.alternateScreen = false) (hsearch : view.searchState = some search)
  (hne : search.found ≠ []) (searchBackward forward : Bool)

include halternate hsearch hne

/-- Single steps from a cursor land where as many steps do. -/
theorem iterate_navigateSearch_cursor (horder : InOrder search.found) {cursor : SelectionPoint}
    (hcopy : view.copyCursor.isSome) (hcursor : view.copyPoint = some cursor) (k : ℕ) :
    (fun view : BufferViewState ↦ view.navigateSearch searchBackward forward 1)^[k + 1] view =
      view.jumpToSearchIndex (indexFrom search.found (forward != searchBackward)
        ((nextPlace hne (forward != searchBackward))^[k] cursor.position)) := by
  induction k with
  | zero =>
    refine navigateSearch_eq halternate hsearch hne searchBackward forward 1 ?_
    rw [hcursor, Nat.max_self, Nat.sub_self, Nat.zero_mod]
    exact searchSteps_cursor horder hne _ 0 cursor _
  | succ k ih =>
    let place := (nextPlace hne (forward != searchBackward))^[k] cursor.position
    obtain ⟨selected, hselected, hplace⟩ :=
      indexFrom_spec horder hne (forward != searchBackward) place
    obtain ⟨selected', hselected', -⟩ := indexFrom_spec horder hne (forward != searchBackward)
      (nextPlace hne (forward != searchBackward) place)
    rw [Function.iterate_succ_apply', ih, Function.iterate_succ_apply',
      ← jumpToSearchIndex_again hsearch hselected _ hselected']
    refine navigateSearch_eq ?_ (jumpToSearchIndex_searchState hsearch hselected) hne _ _ 1 ?_
    · rw [jumpToSearchIndex_alternateScreen, halternate]
    · rw [jumpToSearchIndex_copyPoint hsearch hselected, if_pos hcopy, Nat.max_self, Nat.sub_self,
        Nat.zero_mod, ← hplace]
      exact searchSteps_cursor horder hne _ 0 ⟨selected.line, selected.startColumn⟩ _

/-- Single steps without a cursor land where as many turns do. -/
theorem iterate_navigateSearch_none (hcopy : view.copyPoint = none)
    (hactive : ∀ i ∈ search.activeMatchIndex, i < search.found.length) (k : ℕ) :
    (fun view : BufferViewState ↦ view.navigateSearch searchBackward forward 1)^[k + 1] view =
      view.jumpToSearchIndex ((turn search.found.length (forward != searchBackward))^[k + 1]
        (search.activeMatchIndex.getD 0)) := by
  have hpos : 0 < search.found.length := List.length_pos_iff.mpr hne
  have hcurrent : search.activeMatchIndex.getD 0 < search.found.length := by
    cases hindex : search.activeMatchIndex with
    | none => exact hpos
    | some i => exact hactive i hindex
  have hvalid : ∀ m, ∃ selected, search.found[(turn search.found.length
      (forward != searchBackward))^[m] (search.activeMatchIndex.getD 0)]? = some selected := by
    intro m
    rw [iterate_turn hcurrent]
    exact ⟨_, List.getElem?_eq_getElem (Nat.mod_lt _ hpos)⟩
  induction k with
  | zero =>
    refine navigateSearch_eq halternate hsearch hne searchBackward forward 1 ?_
    rw [hcopy, Nat.max_self, Nat.sub_self, Nat.zero_mod]
    exact searchSteps_none _ 0 _
  | succ k ih =>
    obtain ⟨selected, hselected⟩ := hvalid (k + 1)
    obtain ⟨selected', hselected'⟩ := hvalid (k + 2)
    have hnone : view.copyCursor.isSome = false := by
      rw [BufferViewState.copyPoint] at hcopy
      cases hcursor : view.copyCursor with
      | none => rfl
      | some cursor =>
        rw [hcursor] at hcopy
        cases hselection : view.selectionState.map (·.cursor) <;> rw [hselection] at hcopy <;>
          cases hcopy
    rw [Function.iterate_succ_apply', ih, ← jumpToSearchIndex_again hsearch hselected _ hselected']
    refine navigateSearch_eq ?_ (jumpToSearchIndex_searchState hsearch hselected) hne _ _ 1 ?_
    · rw [jumpToSearchIndex_alternateScreen, halternate]
    · rw [jumpToSearchIndex_copyPoint hsearch hselected, hnone, if_neg Bool.false_ne_true, hcopy,
        Nat.max_self, Nat.sub_self, Nat.zero_mod]
      refine (searchSteps_none _ 0 _).trans (congrArg some ?_)
      exact (Function.iterate_succ_apply' _ _ _).symm

/-- A count lands on the same match as so many single steps exactly without a cursor, or when the
steps that it leaves out are laps of the places. -/
theorem activeMatch_navigateSearch_iff (horder : InOrder search.found)
    (hactive : ∀ i ∈ search.activeMatchIndex, i < search.found.length)
    (hselection : view.selectionState.isSome → view.copyCursor.isSome) (count : ℕ) :
    (view.navigateSearch searchBackward forward count).activeMatch =
        ((fun view : BufferViewState ↦
          view.navigateSearch searchBackward forward 1)^[max count 1] view).activeMatch ↔
      view.copyPoint = none ∨ (places search.found).card ∣
        search.found.length * ((max count 1 - 1) / search.found.length) := by
  have hpos : 0 < search.found.length := List.length_pos_iff.mpr hne
  obtain ⟨k, hk⟩ : ∃ k, max count 1 = k + 1 := ⟨max count 1 - 1, by omega⟩
  have hleft : k % search.found.length + search.found.length * (k / search.found.length) = k :=
    Nat.mod_add_div k search.found.length
  rw [hk, Nat.add_sub_cancel]
  cases hcursor : view.copyPoint with
  | none =>
    have hcurrent : search.activeMatchIndex.getD 0 < search.found.length := by
      cases hindex : search.activeMatchIndex with
      | none => exact hpos
      | some i => exact hactive i hindex
    have hsteps := @searchSteps_none search.found (forward != searchBackward)
      (k % search.found.length) search.activeMatchIndex
    rw [iterate_navigateSearch_none halternate hsearch hne searchBackward forward hcursor hactive]
    have hnavigate : view.navigateSearch searchBackward forward count = _ :=
      navigateSearch_eq halternate hsearch hne searchBackward forward count
        (by rw [hk, Nat.add_sub_cancel, hcursor]; exact hsteps)
    -- A lap of turns is left out.
    have hlap : (turn search.found.length (forward != searchBackward))^[k % search.found.length + 1]
        (search.activeMatchIndex.getD 0) = (turn search.found.length
          (forward != searchBackward))^[k + 1] (search.activeMatchIndex.getD 0) := by
      rw [iterate_turn hcurrent, iterate_turn hcurrent]
      refine Nat.ModEq.add_left _ (Nat.ModEq.mul_right _ (Nat.ModEq.add_right 1 ?_))
      exact Nat.mod_modEq k search.found.length
    rw [hnavigate, hlap]
    exact iff_of_true rfl (.inl rfl)
  | some cursor =>
    have hcopy : view.copyCursor.isSome := by
      cases hselect : view.selectionState with
      | some selection => exact hselection (by rw [hselect]; rfl)
      | none =>
        rw [BufferViewState.copyPoint, hselect] at hcursor
        rw [Option.isSome_iff_exists]
        exact ⟨cursor, hcursor⟩
    have hsteps := searchSteps_cursor horder hne (forward != searchBackward)
      (k % search.found.length) cursor search.activeMatchIndex
    have hnavigate : view.navigateSearch searchBackward forward count = _ :=
      navigateSearch_eq halternate hsearch hne searchBackward forward count
        (by rw [hk, Nat.add_sub_cancel, hcursor]; exact hsteps)
    obtain ⟨_, hselected, -⟩ := indexFrom_spec horder hne (forward != searchBackward)
      ((nextPlace hne (forward != searchBackward))^[k % search.found.length] cursor.position)
    obtain ⟨_, hselected', -⟩ := indexFrom_spec horder hne (forward != searchBackward)
      ((nextPlace hne (forward != searchBackward))^[k] cursor.position)
    have hplaces : ∀ m, nextPlace hne (forward != searchBackward)
        ((nextPlace hne (forward != searchBackward))^[m] cursor.position) =
          (nextPlace hne (forward != searchBackward))^[m + 1] cursor.position :=
      fun m ↦ (Function.iterate_succ_apply' _ m _).symm
    rw [iterate_navigateSearch_cursor halternate hsearch hne searchBackward forward horder hcopy
      hcursor, hnavigate, activeMatch_jumpToSearchIndex hsearch hselected,
      activeMatch_jumpToSearchIndex hsearch hselected', Option.some.injEq,
      indexFrom_eq_iff horder hne, hplaces, hplaces, iterate_nextPlace_eq_iff]
    have hmod : k % search.found.length ≡ k [MOD (places search.found).card] ↔
        (places search.found).card ∣ search.found.length * (k / search.found.length) := by
      rw [Nat.modEq_iff_dvd' (Nat.mod_le _ _)]
      have hdiff : k - k % search.found.length =
          search.found.length * (k / search.found.length) := by omega
      rw [hdiff]
    rw [hmod]
    exact (or_iff_right (by simp)).symm

end

end

/-- **Search.** The search of a buffer slices no character and finds the leftmost occurrences of a
query that do not overlap, line by line. From any state of a view with matches in order, going to
the next match with a count lands where as many single steps do exactly without a copy cursor, or
when the steps that the count leaves out are laps of the places where matches begin. -/
theorem search_matches_and_steps (u : Unicode) (lines : List (List Char)) (query : List Char)
    (view : BufferViewState) (search : SearchState) (searchBackward forward : Bool) (count : ℕ) :
    (query ≠ [] → ∃ enough, ∀ fuel, enough ≤ fuel → ∃ starts,
      List.Forall₂ (fun line starts ↦ Leftmost query line 0 starts) lines starts ∧
        computeSearchMatches u fuel lines query = .ok (matchesAt u query 0 lines starts)) ∧
    (view.alternateScreen = false → view.searchState = some search → InOrder search.found →
      (∀ i ∈ search.activeMatchIndex, i < search.found.length) →
      (view.selectionState.isSome → view.copyCursor.isSome) →
        ((view.navigateSearch searchBackward forward count).activeMatch =
            ((fun view : BufferViewState ↦
              view.navigateSearch searchBackward forward 1)^[max count 1] view).activeMatch ↔
          view.copyPoint = none ∨ (places search.found).card ∣
            search.found.length * ((max count 1 - 1) / search.found.length))) := by
  refine ⟨fun hquery ↦ computeSearchMatches_ok hquery lines, ?_⟩
  intro halternate hsearch horder hactive hselection
  by_cases hne : search.found = []
  · -- Without a match nothing moves.
    have hstays : ∀ count, view.navigateSearch searchBackward forward count = view := by
      intro count
      simp only [BufferViewState.navigateSearch, halternate, Bool.false_eq_true, if_false, hsearch,
        if_pos hne]
    have hfixed : (fun view : BufferViewState ↦ view.navigateSearch searchBackward forward 1) view =
        view := hstays 1
    rw [hstays, Function.iterate_fixed hfixed]
    exact iff_of_true rfl (.inr (by simp [hne]))
  · exact activeMatch_navigateSearch_iff halternate hsearch hne searchBackward forward horder hactive
      hselection count

/-! ### Marks on one letter -/

/-- The mark is shown over the letter before it. -/
def marks : Unicode := ⟨fun line ↦ line.map ([·]), fun text ↦ (text.filter (· ≠ '\u0301')).length⟩

/-- A letter with two marks above a letter with one. -/
def markedLines : List (List Char) := ["e\u0301\u0301".toList, "x\u0301".toList]

/-- What a search for the mark finds there. -/
def markMatches : List SearchMatch := [⟨0, 1, 1⟩, ⟨0, 1, 1⟩, ⟨1, 1, 1⟩]

/-- The view in copy mode at the start of the buffer. -/
def markedView (found : List SearchMatch) : BufferViewState :=
  ⟨1, false, 0, 2, 2, false, [], some ⟨"\u0301", found, none⟩, none, none, some ⟨0, 0⟩⟩

/-- Three steps over two matches, and a search for a letter. -/
theorem search_matches_and_steps_samples :
    (∃ fuel starts, List.Forall₂ (fun line starts ↦ Leftmost ['x'] line 0 starts) markedLines
      starts ∧ computeSearchMatches marks fuel markedLines ['x'] =
        .ok (matchesAt marks ['x'] 0 markedLines starts)) ∧
    ((markedView [⟨0, 1, 1⟩, ⟨1, 1, 1⟩]).navigateSearch false true 3).activeMatch =
      ((fun view : BufferViewState ↦ view.navigateSearch false true 1)^[max 3 1]
        (markedView [⟨0, 1, 1⟩, ⟨1, 1, 1⟩])).activeMatch := by
  obtain ⟨hmatches, hsteps⟩ := search_matches_and_steps marks markedLines ['x']
    (markedView [⟨0, 1, 1⟩, ⟨1, 1, 1⟩]) ⟨"\u0301", [⟨0, 1, 1⟩, ⟨1, 1, 1⟩], none⟩ false true 3
  constructor
  · obtain ⟨enough, h⟩ := hmatches (List.cons_ne_nil _ _)
    exact ⟨enough, h enough (Nat.le_refl enough)⟩
  · exact (hsteps rfl rfl (by decide) (by simp) (by simp [markedView])).mpr (.inr (by decide))

/-- Of three matches two begin at one place: four single steps end on the last match, and a count of
four on the first. -/
theorem four_steps_differ :
    computeSearchMatches marks 4 markedLines ['\u0301'] = .ok markMatches ∧
      InOrder markMatches ∧
      ((markedView markMatches).navigateSearch false true 4).activeMatch = some 0 ∧
      ((fun view : BufferViewState ↦ view.navigateSearch false true 1)^[4]
        (markedView markMatches)).activeMatch = some 2 := by
  refine ⟨?_, by decide, by decide, by decide⟩
  simp [computeSearchMatches, linesMatches, lineMatches, findText, splitBytes, markedLines,
    byteLength, Char.utf8Size, displayWidth, marks, saturatingAdd16, markMatches]

end Embers.Client
