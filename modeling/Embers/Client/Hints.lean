import Embers.Client.Keys
import Embers.Client.SearchMatches
import Embers.Client.State
import Embers.Lib.TypedWords
import Mathlib.Data.List.Sort

/-!
# Hints

What the patterns find in the lines of a pane is marked with labels, and typing a label chooses its
text. Of matches that overlap the one that starts first stays, and of those the longest. The labels
are single characters while these suffice and pairs of them otherwise, so no label begins another;
the last match gets the first label. There are 729 pairs, and only so many matches from the end get a
label.

Patterns are taken as given: each finds ranges of bytes in a text.
-/

namespace Embers.Client

/-! ## Labels -/

/-- The characters that labels are made of. -/
def hintAlphabet : List Char := "asdfghjkl;qwertyuiopzxcvbnm".toList

/-- As many labels as asked for, or as there are. -/
def assignLabels (count : ℕ) : List String :=
  if count ≤ hintAlphabet.length then (hintAlphabet.take count).map fun ch ↦ .ofList [ch]
  else (hintAlphabet.flatMap fun first ↦ hintAlphabet.map fun second ↦ String.ofList [first, second]).take count

/-! ## Scanning -/

/-- The ranges of bytes that a compiled pattern finds in a text. -/
abbrev Pattern := List Char → List (ℕ × ℕ)

/-- Earliest start first, and of ranges with one start the longest. -/
def RangeBefore (a b : ℕ × ℕ) : Prop := a.1 < b.1 ∨ a.1 = b.1 ∧ b.2 ≤ a.2

instance : DecidableRel RangeBefore := fun _ _ ↦ inferInstanceAs (Decidable (_ ∨ _))

/-- Leave out ranges that start before the end of the last that stays. -/
def dropOverlaps : Option ℕ → List (ℕ × ℕ) → List (ℕ × ℕ)
  | _, [] => []
  | lastEnd, range :: ranges =>
    if lastEnd.any (range.1 < ·) then dropOverlaps lastEnd ranges
    else range :: dropOverlaps (some range.2) ranges

/-- The ranges of a line that get a hint. -/
def keptRanges (patterns : List Pattern) (text : List Char) : List (ℕ × ℕ) :=
  dropOverlaps none ((patterns.flatMap fun pattern ↦ pattern text).insertionSort RangeBefore)

/-- A match without its label. -/
structure HintSpan where
  line : ℕ
  startCol : UInt16
  endCol : UInt16
  text : List Char
  deriving DecidableEq, Repr

section

variable (u : Unicode)

def hintSpan (line : ℕ) (text : List Char) (range : ℕ × ℕ) : Answer SliceError HintSpan := do
  let (before, _) ← Answer.ofOption .insideCharacter (splitBytes range.1 text)
  let (upTo, _) ← Answer.ofOption .insideCharacter (splitBytes range.2 text)
  let (_, found) ← Answer.ofOption .insideCharacter (splitBytes range.1 upTo)
  let startCol := u.width before
  let endCol := startCol + u.width found
  pure ⟨line, .ofNat (min startCol 65535), .ofNat (min endCol 65535), found⟩

/-- The matches in lines, of which the first is line `topLine` of the buffer. -/
def hintSpans (patterns : List Pattern) (topLine : ℕ) :
    ℕ → List (List Char) → Answer SliceError (List HintSpan)
  | _, [] => pure []
  | row, text :: lines => do
    let spans ← (keptRanges patterns text).mapM (hintSpan u (saturatingAdd topLine row) text)
    let others ← hintSpans patterns topLine (row + 1) lines
    pure (spans ++ others)

/-- The last matches that there are labels for, the labels in reverse. -/
def labelSpans (spans : List HintSpan) : List HintMatch :=
  let labels := assignLabels spans.length
  (spans.drop (spans.length - labels.length)).mapIdx fun index span ↦
    ⟨labels.getD (labels.length - 1 - index) "", .ofList span.text, span.line, span.startCol, span.endCol⟩

def scan (lines : List (List Char)) (patterns : List Pattern) (topLine : ℕ) :
    Answer SliceError (List HintMatch) := do
  let spans ← hintSpans u patterns topLine 0 lines
  pure (labelSpans spans)

end

/-! ## Typing -/

/-- What a key does in hints mode. -/
inductive HintsOutcome where
  | open (state : HintsState)
  | cancelled
  | selected (hint : HintMatch)
  deriving DecidableEq, Repr

/-- A character goes on with a label, completes one, or is ignored. -/
def hintsTypeChar (state : HintsState) (ch : Char) : HintsOutcome :=
  let typed := state.typed.push ch
  if state.found.any fun hint ↦ typed.toList.isPrefixOf hint.label.toList then
    match state.found.find? fun hint ↦ decide (hint.label = typed) with
    | some hint => .selected hint
    | none => .open { state with typed }
  else .open state

def handleHintsKey (state : HintsState) : KeyEvent → HintsOutcome
  | .escape => .cancelled
  | .backspace | .ctrl 'h' => .open { state with typed := .ofList state.typed.toList.dropLast }
  | .char ch => hintsTypeChar state ch
  | _ => .open state

/-- Keys one after another, as long as the hints are open. -/
def runHints : HintsState → List KeyEvent → HintsOutcome
  | state, [] => .open state
  | state, key :: keys =>
    match handleHintsKey state key with
    | .open state => runHints state keys
    | .cancelled => .cancelled
    | .selected hint => .selected hint

/-! ## Labels are told apart -/

theorem nodup_hintAlphabet : hintAlphabet.Nodup := by decide

theorem ofList_injective : Function.Injective String.ofList := fun xs ys h ↦ by
  rw [← String.toList_ofList (l := xs), h, String.toList_ofList]

theorem nodup_pairs : (hintAlphabet.flatMap fun first ↦
    hintAlphabet.map fun second ↦ String.ofList [first, second]).Nodup := by
  refine List.nodup_flatMap.mpr ⟨fun first _ ↦ ?_, nodup_hintAlphabet.imp fun {a b} hne ↦ ?_⟩
  · refine nodup_hintAlphabet.map fun second second' h ↦ ?_
    have hpair := ofList_injective h
    simpa using hpair
  · intro label hleft hright
    obtain ⟨second, -, rfl⟩ := List.mem_map.mp hleft
    obtain ⟨second', -, h⟩ := List.mem_map.mp hright
    have hpair := ofList_injective h
    simp only [List.cons.injEq] at hpair
    exact hne hpair.1.symm

theorem nodup_assignLabels (count : ℕ) : (assignLabels count).Nodup := by
  rw [assignLabels]
  split
  · refine ((List.take_sublist _ _).nodup nodup_hintAlphabet).map fun a b h ↦ ?_
    simpa using ofList_injective h
  · exact (List.take_sublist _ _).nodup nodup_pairs

theorem length_assignLabels (count : ℕ) : (assignLabels count).length = min count 729 := by
  have halphabet : hintAlphabet.length = 27 := rfl
  rw [assignLabels]
  split
  · rw [List.length_map, List.length_take]
    omega
  · have hpairs : (hintAlphabet.flatMap fun first ↦
        hintAlphabet.map fun second ↦ String.ofList [first, second]).length = 729 := by
      simp only [List.length_flatMap, List.length_map, List.map_const', List.sum_replicate, halphabet]
      rfl
    rw [List.length_take, hpairs]

/-- All labels have one character, or all have two. -/
theorem exists_length_assignLabels (count : ℕ) :
    ∃ n ≠ 0, ∀ label ∈ assignLabels count, label.toList.length = n := by
  rw [assignLabels]
  split
  · refine ⟨1, Nat.one_ne_zero, fun label hlabel ↦ ?_⟩
    obtain ⟨ch, -, rfl⟩ := List.mem_map.mp hlabel
    rw [String.toList_ofList]
    rfl
  · refine ⟨2, two_ne_zero, fun label hlabel ↦ ?_⟩
    obtain ⟨first, -, hlabel⟩ := List.mem_flatMap.mp (List.mem_of_mem_take hlabel)
    obtain ⟨second, -, rfl⟩ := List.mem_map.mp hlabel
    rw [String.toList_ofList]
    rfl

theorem map_label_labelSpans (spans : List HintSpan) :
    (labelSpans spans).map HintMatch.label = (assignLabels spans.length).reverse := by
  have hlength := length_assignLabels spans.length
  refine List.ext_getElem ?_ fun i hi hi' ↦ ?_
  · rw [List.length_map, labelSpans, List.length_mapIdx, List.length_drop, List.length_reverse]
    omega
  · rw [List.length_reverse] at hi'
    simp only [labelSpans, List.getElem_map, List.getElem_mapIdx, List.getElem_reverse]
    rw [List.getD_eq_getElem _ _ (by omega)]

/-- The characters of a label. -/
def HintMatch.word (hint : HintMatch) : List Char := hint.label.toList

theorem label_mem_assignLabels {spans : List HintSpan} {hint : HintMatch}
    (h : hint ∈ labelSpans spans) : hint.label ∈ assignLabels spans.length := by
  rw [← List.mem_reverse, ← map_label_labelSpans]
  exact List.mem_map_of_mem h

theorem exists_length_labelSpans (spans : List HintSpan) :
    ∃ n ≠ 0, ∀ hint ∈ labelSpans spans, hint.label.toList.length = n := by
  obtain ⟨n, hne, hn⟩ := exists_length_assignLabels spans.length
  exact ⟨n, hne, fun hint hhint ↦ hn hint.label (label_mem_assignLabels hhint)⟩

theorem toldApart_labelSpans (spans : List HintSpan) : ToldApart HintMatch.word (labelSpans spans) := by
  obtain ⟨n, -, hn⟩ := exists_length_labelSpans spans
  refine toldApart_of_length (n := n) ?_ hn
  have hword : HintMatch.word = String.toList ∘ HintMatch.label := rfl
  rw [hword, ← List.map_map, map_label_labelSpans]
  exact (List.nodup_reverse.mpr (nodup_assignLabels _)).map fun _ _ h ↦ String.toList_injective h

theorem word_ne_nil {spans : List HintSpan} {hint : HintMatch} (h : hint ∈ labelSpans spans) :
    hint.word ≠ [] := by
  obtain ⟨n, hne, hn⟩ := exists_length_labelSpans spans
  rw [← List.length_pos_iff, HintMatch.word, hn hint h]
  exact Nat.pos_of_ne_zero hne

/-! ## Choosing by typing -/

section

variable {found : List HintMatch} {state state' : HintsState} {hint : HintMatch}

/-- A character is read as a letter of a label. -/
theorem hintsTypeChar_eq (state : HintsState) (ch : Char) :
    hintsTypeChar state ch =
      match typeLetter HintMatch.word state.found state.typed.toList ch with
      | .refused => .open state
      | .goesOn typed => .open { state with typed := .ofList typed }
      | .chooses hint => .selected hint := by
  have htyped : (state.typed.push ch).toList = state.typed.toList ++ [ch] := String.toList_push ch
  have hfind : (fun hint : HintMatch ↦ decide (hint.label = state.typed.push ch)) =
      fun hint ↦ decide (hint.word = state.typed.toList ++ [ch]) := by
    funext hint
    rw [← htyped, HintMatch.word]
    exact decide_eq_decide.mpr String.toList_inj.symm
  rw [hintsTypeChar, typeLetter, htyped, hfind]
  change (if state.found.any (fun hint ↦ (state.typed.toList ++ [ch]).isPrefixOf hint.word) = true then _
    else _) = _
  split
  · cases hopt : state.found.find? fun hint ↦ decide (hint.word = state.typed.toList ++ [ch]) with
    | none =>
      dsimp only
      rw [← htyped, String.ofList_toList]
    | some hint => rfl
  · rfl

/-- The hints are those that were found, and what has been typed leads on to one of them. -/
structure Choosing (found : List HintMatch) (state : HintsState) : Prop where
  same : state.found = found
  leadsOn : LeadsOn HintMatch.word found state.typed.toList

theorem Choosing.dropLast (h : Choosing found state) :
    Choosing found { state with typed := .ofList state.typed.toList.dropLast } := by
  refine ⟨h.same, ?_⟩
  dsimp only
  rw [String.toList_ofList]
  exact h.leadsOn.dropLast

theorem Choosing.typeChar (h : Choosing found state) {ch : Char}
    (hkey : hintsTypeChar state ch = .open state') : Choosing found state' := by
  rw [hintsTypeChar_eq, h.same] at hkey
  cases hletter : typeLetter HintMatch.word found state.typed.toList ch with
  | refused =>
    rw [hletter] at hkey
    cases hkey
    exact h
  | goesOn typed =>
    rw [hletter] at hkey
    cases hkey
    refine ⟨rfl, ?_⟩
    dsimp only
    rw [String.toList_ofList]
    exact (leadsOn_of_goesOn hletter).2
  | chooses hint =>
    rw [hletter] at hkey
    cases hkey

theorem Choosing.key (h : Choosing found state) {key : KeyEvent}
    (hkey : handleHintsKey state key = .open state') : Choosing found state' := by
  rw [handleHintsKey.eq_def] at hkey
  split at hkey
  · cases hkey
  · cases hkey
    exact h.dropLast
  · cases hkey
    exact h.dropLast
  · exact h.typeChar hkey
  · cases hkey
    exact h

/-- A key that selects a hint is the last character of its label. -/
theorem Choosing.selects (h : Choosing found state) (hapart : ToldApart HintMatch.word found)
    {key : KeyEvent} (hkey : handleHintsKey state key = .selected hint) :
    ∃ ch, key = .char ch ∧ hint ∈ found ∧ hint.word = state.typed.toList ++ [ch] := by
  rw [handleHintsKey.eq_def] at hkey
  split at hkey
  · cases hkey
  · cases hkey
  · cases hkey
  · next ch =>
    rw [hintsTypeChar_eq, h.same] at hkey
    cases hletter : typeLetter HintMatch.word found state.typed.toList ch with
    | refused =>
      rw [hletter] at hkey
      cases hkey
    | goesOn typed =>
      rw [hletter] at hkey
      cases hkey
    | chooses item =>
      rw [hletter] at hkey
      cases hkey
      obtain ⟨hmem, hword, -⟩ := chosen_of_chooses hapart hletter
      exact ⟨ch, rfl, hmem, hword⟩
  · exact absurd hkey HintsOutcome.noConfusion

theorem Choosing.run (h : Choosing found state) {keys : List KeyEvent}
    (hrun : runHints state keys = .open state') : Choosing found state' := by
  induction keys generalizing state with
  | nil =>
    cases hrun
    exact h
  | cons key keys ih =>
    rw [runHints] at hrun
    cases hkey : handleHintsKey state key with
    | «open» next =>
      rw [hkey] at hrun
      exact ih (h.key hkey) hrun
    | cancelled =>
      rw [hkey] at hrun
      cases hrun
    | selected hint =>
      rw [hkey] at hrun
      cases hrun

theorem Choosing.run_selects (h : Choosing found state) (hapart : ToldApart HintMatch.word found)
    {keys : List KeyEvent} (hrun : runHints state keys = .selected hint) :
    ∃ before ch after state', keys = before ++ .char ch :: after ∧
      runHints state before = .open state' ∧ hint ∈ found ∧
        hint.word = state'.typed.toList ++ [ch] := by
  induction keys generalizing state with
  | nil => cases hrun
  | cons key keys ih =>
    rw [runHints] at hrun
    cases hkey : handleHintsKey state key with
    | «open» next =>
      rw [hkey] at hrun
      obtain ⟨before, ch, after, state', rfl, hbefore, hchosen⟩ := ih (h.key hkey) hrun
      refine ⟨key :: before, ch, after, state', rfl, ?_, hchosen⟩
      rw [runHints, hkey]
      exact hbefore
    | cancelled =>
      rw [hkey] at hrun
      cases hrun
    | selected item =>
      rw [hkey] at hrun
      cases hrun
      obtain ⟨ch, rfl, hchosen⟩ := h.selects hapart hkey
      exact ⟨[], ch, keys, state, rfl, rfl, hchosen⟩

theorem runHints_append {keys keys' : List KeyEvent} (hrun : runHints state keys = .open state') :
    runHints state (keys ++ keys') = runHints state' keys' := by
  induction keys generalizing state with
  | nil =>
    cases hrun
    rfl
  | cons key keys ih =>
    rw [runHints] at hrun
    rw [List.cons_append, runHints]
    cases hkey : handleHintsKey state key with
    | «open» next =>
      rw [hkey] at hrun
      exact ih hrun
    | cancelled =>
      rw [hkey] at hrun
      cases hrun
    | selected item =>
      rw [hkey] at hrun
      cases hrun

/-- As many backspaces as characters were typed. -/
theorem runHints_backspaces {n : ℕ} (hlength : state.typed.toList.length = n) :
    runHints state (List.replicate n .backspace) = .open { state with typed := "" } := by
  induction n generalizing state with
  | zero =>
    have hempty : state.typed = "" := String.toList_inj.mp (List.eq_nil_of_length_eq_zero hlength)
    rw [← hempty]
    rfl
  | succ n ih =>
    rw [List.replicate_succ, runHints]
    have hshorter : (String.ofList state.typed.toList.dropLast).toList.length = n := by
      rw [String.toList_ofList, List.length_dropLast, hlength]
      omega
    exact @ih { state with typed := .ofList state.typed.toList.dropLast } hshorter

/-- The rest of a label. -/
theorem runHints_word (hapart : ToldApart HintMatch.word found) (hsame : state.found = found)
    (hhint : hint ∈ found) {rest : List Char} (hrest : rest ≠ [])
    (hword : hint.word = state.typed.toList ++ rest) :
    runHints state (rest.map .char) = .selected hint := by
  induction rest generalizing state with
  | nil => exact absurd rfl hrest
  | cons ch rest ih =>
    have hletter := typeLetter_of_mem hapart hhint hword
    rw [List.map_cons, runHints]
    change (match hintsTypeChar state ch with
      | .open state => runHints state (rest.map .char)
      | .cancelled => .cancelled
      | .selected hint => .selected hint) = _
    rw [hintsTypeChar_eq, hsame, hletter]
    by_cases hnil : rest = []
    · rw [if_pos hnil]
    · rw [if_neg hnil]
      refine @ih ⟨found, .ofList (state.typed.toList ++ [ch]), state.onSelect⟩ rfl hnil ?_
      dsimp only
      rw [String.toList_ofList, List.append_assoc, List.singleton_append]
      exact hword

/-- Hints from a scan, over every run of keys. While they are open what has been typed leads on to one
of them, and from there every hint can be chosen by deleting what was typed and typing its label. When
one is chosen the last key was the last character of its label, after the others. -/
theorem scan_chosen {u : Unicode} {patterns : List Pattern} {lines : List (List Char)} {topLine : ℕ}
    (hscan : scan u lines patterns topLine = .ok found) (hfound : found ≠ [])
    (onSelect : Option String) (keys : List KeyEvent) :
    (∀ state, runHints ⟨found, "", onSelect⟩ keys = .open state →
      LeadsOn HintMatch.word found state.typed.toList ∧
        ∀ hint ∈ found, runHints ⟨found, "", onSelect⟩ (keys ++
          (List.replicate state.typed.toList.length .backspace ++ hint.word.map .char)) =
            .selected hint) ∧
    ∀ hint, runHints ⟨found, "", onSelect⟩ keys = .selected hint →
      ∃ before ch after state, keys = before ++ .char ch :: after ∧
        runHints ⟨found, "", onSelect⟩ before = .open state ∧ hint ∈ found ∧
          hint.word = state.typed.toList ++ [ch] := by
  obtain ⟨spans, -, hspans⟩ := Answer.ok_bind hscan
  obtain rfl := Except.ok.inj hspans
  have hapart := toldApart_labelSpans spans
  have hstart : Choosing (labelSpans spans) ⟨labelSpans spans, "", onSelect⟩ :=
    ⟨rfl, leadsOn_nil (fun hint hhint ↦ word_ne_nil hhint) hfound⟩
  refine ⟨fun state hrun ↦ ?_, fun hint hrun ↦ hstart.run_selects hapart hrun⟩
  have hchoosing := hstart.run hrun
  refine ⟨hchoosing.leadsOn, fun hint hhint ↦ ?_⟩
  rw [runHints_append hrun, runHints_append (runHints_backspaces rfl)]
  have hempty : hint.word = ("" : String).toList ++ hint.word := rfl
  exact @runHints_word _ { state with typed := "" } hint hapart hchoosing.same hhint hint.word
    (word_ne_nil hhint) hempty

end

/-! ## What is marked -/

/-- The ranges that stay of those that were found: apart from each other, and each that was found
stays or overlaps one that comes before it and stays. -/
structure KeptRanges (found kept : List (ℕ × ℕ)) : Prop where
  mem : ∀ range ∈ kept, range ∈ found
  apart : kept.Pairwise fun a b ↦ a.2 ≤ b.1
  covers : ∀ range ∈ found, range ∈ kept ∨ ∃ other ∈ kept, RangeBefore other range ∧ range.1 < other.2

section

variable {ranges : List (ℕ × ℕ)} {lastEnd : Option ℕ}

theorem dropOverlaps_sublist (lastEnd : Option ℕ) (ranges : List (ℕ × ℕ)) :
    (dropOverlaps lastEnd ranges).Sublist ranges := by
  induction ranges generalizing lastEnd with
  | nil => exact List.nil_sublist _
  | cons range ranges ih =>
    rw [dropOverlaps]
    split
    · exact (ih lastEnd).cons range
    · exact (ih (some range.2)).cons_cons range

theorem dropOverlaps_after (hsorted : ranges.Pairwise RangeBefore) (hranges : ∀ range ∈ ranges, range.1 ≤ range.2)
    {stop : ℕ} : ∀ range ∈ dropOverlaps (some stop) ranges, stop ≤ range.1 := by
  induction ranges with
  | nil => exact List.forall_mem_nil _
  | cons range ranges ih =>
    obtain ⟨hfirst, hrest⟩ := List.pairwise_cons.mp hsorted
    obtain ⟨-, hranges'⟩ := List.forall_mem_cons.mp hranges
    rw [dropOverlaps]
    split
    · exact ih hrest hranges'
    · next hstop =>
      have hstop : stop ≤ range.1 := by simpa using hstop
      refine List.forall_mem_cons.mpr ⟨hstop, fun other hother ↦ ?_⟩
      have hbefore := hfirst other ((dropOverlaps_sublist _ _).subset hother)
      rw [RangeBefore] at hbefore
      omega

theorem dropOverlaps_apart (hsorted : ranges.Pairwise RangeBefore)
    (hranges : ∀ range ∈ ranges, range.1 ≤ range.2) :
    (dropOverlaps lastEnd ranges).Pairwise fun a b ↦ a.2 ≤ b.1 := by
  induction ranges generalizing lastEnd with
  | nil => exact .nil
  | cons range ranges ih =>
    obtain ⟨-, hrest⟩ := List.pairwise_cons.mp hsorted
    obtain ⟨-, hranges'⟩ := List.forall_mem_cons.mp hranges
    rw [dropOverlaps]
    split
    · exact ih hrest hranges'
    · exact List.pairwise_cons.mpr ⟨dropOverlaps_after hrest hranges', ih hrest hranges'⟩

theorem dropOverlaps_covers (hsorted : ranges.Pairwise RangeBefore) :
    ∀ range ∈ ranges, lastEnd.any (range.1 < ·) ∨ range ∈ dropOverlaps lastEnd ranges ∨
      ∃ other ∈ dropOverlaps lastEnd ranges, RangeBefore other range ∧ range.1 < other.2 := by
  induction ranges generalizing lastEnd with
  | nil => exact List.forall_mem_nil _
  | cons range ranges ih =>
    obtain ⟨hfirst, hrest⟩ := List.pairwise_cons.mp hsorted
    rw [dropOverlaps]
    split
    · next hover => exact List.forall_mem_cons.mpr ⟨.inl hover, ih hrest⟩
    · refine List.forall_mem_cons.mpr ⟨.inr (.inl List.mem_cons_self), fun later hlater ↦ .inr ?_⟩
      rcases @ih (some range.2) hrest later hlater with hover | hkept | ⟨other, hother, hcover⟩
      · exact .inr ⟨range, List.mem_cons_self, hfirst later hlater, by simpa using hover⟩
      · exact .inl (List.mem_cons_of_mem _ hkept)
      · exact .inr ⟨other, List.mem_cons_of_mem _ hother, hcover⟩

end

/-- The pattern finds ranges from one end of a character to another. -/
def Cuts (pattern : Pattern) : Prop :=
  ∀ text, ∀ range ∈ pattern text, ∃ before found after,
    text = before ++ found ++ after ∧ range = (byteLength before, byteLength before + byteLength found)

theorem keptRanges_of_cuts {patterns : List Pattern} (hcuts : ∀ pattern ∈ patterns, Cuts pattern)
    (text : List Char) : KeptRanges (patterns.flatMap fun pattern ↦ pattern text) (keptRanges patterns text) := by
  have hperm := List.perm_insertionSort RangeBefore (patterns.flatMap fun pattern ↦ pattern text)
  have htotal : Std.Total RangeBefore := ⟨fun a b ↦ by
    rw [RangeBefore, RangeBefore]
    omega⟩
  have htrans : IsTrans (ℕ × ℕ) RangeBefore := ⟨fun a b c hab hbc ↦ by
    rw [RangeBefore] at *
    omega⟩
  have hsorted := List.pairwise_insertionSort RangeBefore (patterns.flatMap fun pattern ↦ pattern text)
  have hranges : ∀ range ∈ (patterns.flatMap fun pattern ↦ pattern text).insertionSort RangeBefore,
      range.1 ≤ range.2 := by
    intro range hrange
    obtain ⟨pattern, hpattern, hrange⟩ := List.mem_flatMap.mp (hperm.mem_iff.mp hrange)
    obtain ⟨before, found, after, -, rfl⟩ := hcuts pattern hpattern text range hrange
    exact Nat.le_add_right _ _
  refine ⟨fun range hrange ↦ hperm.mem_iff.mp ((dropOverlaps_sublist _ _).subset hrange),
    dropOverlaps_apart hsorted hranges, fun range hrange ↦ ?_⟩
  exact (dropOverlaps_covers hsorted range (hperm.mem_iff.mpr hrange)).resolve_left Bool.false_ne_true

/-- The span of a range: the text that was found, and the columns that it takes. -/
def Marks (u : Unicode) (line : ℕ) (text : List Char) (range : ℕ × ℕ) (span : HintSpan) : Prop :=
  ∃ before found after, text = before ++ found ++ after ∧
    range = (byteLength before, byteLength before + byteLength found) ∧
    span = ⟨line, .ofNat (min (u.width before) 65535),
      .ofNat (min (u.width before + u.width found) 65535), found⟩

section

variable {u : Unicode} {patterns : List Pattern} {topLine line : ℕ} {text : List Char}

theorem hintSpan_marks {before found after : List Char} (htext : text = before ++ found ++ after) :
    hintSpan u line text (byteLength before, byteLength before + byteLength found) =
      .ok ⟨line, .ofNat (min (u.width before) 65535),
        .ofNat (min (u.width before + u.width found) 65535), found⟩ := by
  have hstart := splitBytes_append before (found ++ after)
  have hstop := splitBytes_append (before ++ found) after
  have hslice := splitBytes_append before found
  rw [byteLength_append] at hstop
  rw [← List.append_assoc, ← htext] at hstart
  rw [← htext] at hstop
  rw [hintSpan]
  simp only [hstart, hstop, hslice, Answer.ofOption_some, Answer.bind_ok]
  rfl

theorem mapM_hintSpan {ranges : List (ℕ × ℕ)} (hranges : ∀ range ∈ ranges, ∃ before found after,
    text = before ++ found ++ after ∧ range = (byteLength before, byteLength before + byteLength found)) :
    ∃ spans, ranges.mapM (hintSpan u line text) = .ok spans ∧
      List.Forall₂ (Marks u line text) ranges spans := by
  induction ranges with
  | nil => exact ⟨[], rfl, .nil⟩
  | cons range ranges ih =>
    obtain ⟨⟨before, found, after, htext, rfl⟩, hrest⟩ := List.forall_mem_cons.mp hranges
    obtain ⟨spans, hspans, hmarks⟩ := ih hrest
    refine ⟨_ :: spans, ?_, .cons ⟨before, found, after, htext, rfl, rfl⟩ hmarks⟩
    rw [List.mapM_cons, hintSpan_marks htext, hspans]
    rfl

/-- The spans line by line. -/
theorem hintSpans_marks (hcuts : ∀ pattern ∈ patterns, Cuts pattern) (lines : List (List Char))
    (row : ℕ) :
    ∃ spans : List (List HintSpan), hintSpans u patterns topLine row lines = .ok spans.flatten ∧
      spans.length = lines.length ∧ ∀ i text, lines[i]? = some text →
        List.Forall₂ (Marks u (saturatingAdd topLine (row + i)) text) (keptRanges patterns text)
          (spans.getD i []) := by
  induction lines generalizing row with
  | nil => exact ⟨[], rfl, rfl, fun i text h ↦ by simp at h⟩
  | cons text lines ih =>
    have hranges : ∀ range ∈ keptRanges patterns text, ∃ before found after,
        text = before ++ found ++ after ∧
          range = (byteLength before, byteLength before + byteLength found) := by
      intro range hrange
      obtain ⟨pattern, hpattern, hrange⟩ := List.mem_flatMap.mp
        ((keptRanges_of_cuts hcuts text).mem range hrange)
      exact hcuts pattern hpattern text range hrange
    obtain ⟨first, hfirst, hmarks⟩ := @mapM_hintSpan u (saturatingAdd topLine row) _ _ hranges
    obtain ⟨spans, hspans, hlength, hothers⟩ := ih (row + 1)
    refine ⟨first :: spans, ?_, by rw [List.length_cons, List.length_cons, hlength], ?_⟩
    · rw [hintSpans, hfirst, Answer.bind_ok, hspans]
      rfl
    · intro i text' hi
      cases i with
      | zero =>
        obtain rfl := Option.some.inj hi
        exact hmarks
      | succ i =>
        have hrow : row + (i + 1) = row + 1 + i := by omega
        rw [hrow]
        exact hothers i text' hi

/-- Patterns that find whole characters. In every line the hints mark matches that do not overlap and
leave none out that overlaps none of them; of all of them the last 729 have labels, all different and
of one length. -/
theorem scan_marks (hcuts : ∀ pattern ∈ patterns, Cuts pattern) (lines : List (List Char)) :
    ∃ spans : List (List HintSpan), ∃ found, scan u lines patterns topLine = .ok found ∧
      spans.length = lines.length ∧
      (∀ row text, lines[row]? = some text → ∃ kept,
        KeptRanges (patterns.flatMap fun pattern ↦ pattern text) kept ∧
          List.Forall₂ (Marks u (saturatingAdd topLine row) text) kept (spans.getD row [])) ∧
      found.map (fun hint ↦ (hint.line, hint.startCol, hint.endCol, hint.text.toList)) =
        (spans.flatten.drop (spans.flatten.length - 729)).map
          (fun span ↦ (span.line, span.startCol, span.endCol, span.text)) ∧
      (found.map HintMatch.label).Nodup ∧
      ∃ n ≠ 0, ∀ hint ∈ found, hint.label.toList.length = n := by
  obtain ⟨spans, hspans, hlength, hmarks⟩ := @hintSpans_marks u patterns topLine hcuts lines 0
  refine ⟨spans, labelSpans spans.flatten, ?_, hlength, fun row text hrow ↦ ?_, ?_, ?_,
    exists_length_labelSpans spans.flatten⟩
  · rw [scan, hspans]
    rfl
  · have hline := hmarks row text hrow
    rw [Nat.zero_add] at hline
    exact ⟨_, keptRanges_of_cuts hcuts text, hline⟩
  · have hcount : spans.flatten.length - (assignLabels spans.flatten.length).length =
        spans.flatten.length - 729 := by
      rw [length_assignLabels]
      omega
    rw [labelSpans]
    rw [hcount]
    refine List.ext_getElem (by simp only [List.length_map, List.length_mapIdx]) fun i hi hi' ↦ ?_
    simp only [List.getElem_map, List.getElem_mapIdx, String.toList_ofList]
  · rw [map_label_labelSpans, List.nodup_reverse]
    exact nodup_assignLabels _

end

/-! ### One word in two lines -/

/-- Characters of one column. -/
def plainUnicode : Unicode := ⟨fun text ↦ text.map fun ch ↦ [ch], List.length⟩

/-- The first two characters, if the text begins with these. -/
def goPattern : Pattern := fun text ↦ if ['g', 'o'].isPrefixOf text then [(0, 2)] else []

theorem cuts_goPattern : Cuts goPattern := by
  intro text range hrange
  rw [goPattern] at hrange
  split at hrange
  · next hgo =>
    obtain ⟨after, rfl⟩ := List.isPrefixOf_iff_prefix.mp hgo
    exact ⟨[], ['g', 'o'], after, rfl, List.mem_singleton.mp hrange⟩
  · cases hrange

theorem hintSpan_go (line : ℕ) (after : List Char) :
    hintSpan plainUnicode line ('g' :: 'o' :: after) (0, 2) = .ok ⟨line, 0, 2, ['g', 'o']⟩ := by
  have hmarks : ('g' :: 'o' :: after) = [] ++ ['g', 'o'] ++ after := rfl
  exact hintSpan_marks hmarks

/-- The second line has the first label. -/
theorem scan_go : scan plainUnicode ["go on".toList, "going".toList] [goPattern] 7 =
    .ok [⟨"s", "go", 7, 0, 2⟩, ⟨"a", "go", 8, 0, 2⟩] := by
  have hon : keptRanges [goPattern] "go on".toList = [(0, 2)] := rfl
  have hing : keptRanges [goPattern] "going".toList = [(0, 2)] := rfl
  have hfirst : hintSpan plainUnicode 7 "go on".toList (0, 2) = .ok ⟨7, 0, 2, ['g', 'o']⟩ :=
    hintSpan_go 7 " on".toList
  have hsecond : hintSpan plainUnicode 8 "going".toList (0, 2) = .ok ⟨8, 0, 2, ['g', 'o']⟩ :=
    hintSpan_go 8 "ing".toList
  have hrow : saturatingAdd 7 0 = 7 := rfl
  have hrow' : saturatingAdd 7 (0 + 1) = 8 := rfl
  simp only [scan, hintSpans, hon, hing, hrow, hrow', List.mapM_cons, List.mapM_nil, hfirst, hsecond]
  rfl

/-- The hints of `scan_go`. -/
def goHints : HintsState := ⟨[⟨"s", "go", 7, 0, 2⟩, ⟨"a", "go", 8, 0, 2⟩], "", none⟩

/-- A letter that begins no label is passed over, and the next one chooses the second hint. -/
theorem scan_go_chosen :
    runHints goHints [.char 'x', .char 'a'] = .selected ⟨"a", "go", 8, 0, 2⟩ ∧
    (∀ state, runHints goHints [.char 'x', .char 'a'] = .open state →
      LeadsOn HintMatch.word goHints.found state.typed.toList ∧
        ∀ hint ∈ goHints.found, runHints goHints ([.char 'x', .char 'a'] ++
          (List.replicate state.typed.toList.length .backspace ++ hint.word.map .char)) =
            .selected hint) ∧
    ∀ hint, runHints goHints [.char 'x', .char 'a'] = .selected hint →
      ∃ before ch after state, [.char 'x', .char 'a'] = before ++ .char ch :: after ∧
        runHints goHints before = .open state ∧ hint ∈ goHints.found ∧
          hint.word = state.typed.toList ++ [ch] :=
  ⟨by decide, scan_chosen scan_go (List.cons_ne_nil _ _) none [.char 'x', .char 'a']⟩

theorem scan_go_marks : ∃ spans : List (List HintSpan), ∃ found,
    scan plainUnicode ["go on".toList, "going".toList] [goPattern] 7 = .ok found ∧ spans.length = 2 ∧
      (∀ row text, ["go on".toList, "going".toList][row]? = some text → ∃ kept,
        KeptRanges ([goPattern].flatMap fun pattern ↦ pattern text) kept ∧
          List.Forall₂ (Marks plainUnicode (saturatingAdd 7 row) text) kept (spans.getD row [])) ∧
      found.map (fun hint ↦ (hint.line, hint.startCol, hint.endCol, hint.text.toList)) =
        (spans.flatten.drop (spans.flatten.length - 729)).map
          (fun span ↦ (span.line, span.startCol, span.endCol, span.text)) ∧
      (found.map HintMatch.label).Nodup ∧
      ∃ n ≠ 0, ∀ hint ∈ found, hint.label.toList.length = n :=
  scan_marks (List.forall_mem_singleton.mpr cuts_goPattern) ["go on".toList, "going".toList]

end Embers.Client
