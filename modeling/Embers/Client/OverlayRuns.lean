import Embers.Client.Overlays

/-!
# What is shown and where keys go

`Overlays.Agree` says that whatever is shown is what reads the keys: a prompt is open only in the
mode of prompts, the picker only in its own or under a prompt, hints only over the view they were
asked for and in their mode. Not every step keeps it. `ClientStep.Sound` says of a step, and of the
state it is taken in, that it leaves nothing behind: nothing changes the mode while something is
open, no prompt opens over hints, and a prompt over the picker returns to it. A run agrees throughout
if and only if its steps are sound (`agree_throughout_iff`).
-/

namespace Embers

namespace Overlays

variable {π : Type} {s : Overlays π} {editing : LineEditing π}

/-- Neither a prompt nor the picker is open. -/
structure NoPrompt (s : Overlays π) : Prop where
  commandPrompt : s.commandPrompt = none
  confirm : s.confirm = none
  searchPrompt : s.searchPrompt = none
  chooser : s.chooser = none

def NoHints (s : Overlays π) : Prop := ∀ nodeId, s.hintsAt nodeId = none

/-- Nothing is shown over the panes. -/
def Bare (s : Overlays π) : Prop := s.NoPrompt ∧ s.NoHints

/-- A prompt, a question or the picker is shown. -/
def Shows (s : Overlays π) : Prop :=
  s.commandPrompt ≠ none ∨ s.confirm ≠ none ∨ s.searchPrompt ≠ none ∨ s.chooser ≠ none

/-- What is shown is what reads the keys. -/
structure Agree (s : Overlays π) : Prop where
  commandPrompt : s.commandPrompt ≠ none → s.mode = promptMode
  confirm : s.confirm ≠ none → s.mode = promptMode
  searchPrompt : s.searchPrompt ≠ none → s.mode = searchMode
  chooser : s.chooser ≠ none → s.mode = treeMode ∨
    (s.mode = promptMode ∧ (s.commandPrompt ≠ none ∨ s.confirm ≠ none))
  hints : ∀ nodeId, s.hintsAt nodeId ≠ none → s.mode = hintsMode ∧ s.hintsNode = some nodeId

/-- A key never reaches the pane's program past what is shown. -/
theorem Agree.reader_ne_bindings (h : s.Agree) (hshows : s.Shows) : s.reader ≠ .bindings := by
  have hmode : s.mode = promptMode ∨ s.mode = treeMode ∨ s.mode = searchMode := by
    rcases hshows with hprompt | hconfirm | hsearch | hchooser
    · exact Or.inl (h.commandPrompt hprompt)
    · exact Or.inl (h.confirm hconfirm)
    · exact Or.inr (Or.inr (h.searchPrompt hsearch))
    · rcases h.chooser hchooser with htree | ⟨hprompt, -⟩
      · exact Or.inr (Or.inl htree)
      · exact Or.inl hprompt
  rw [reader]
  rcases hmode with hmode | hmode | hmode
  · rw [if_pos hmode]
    split <;> decide
  · rw [if_neg (by rw [hmode]; decide), if_pos hmode]
    decide
  · rw [if_neg (by rw [hmode]; decide), if_neg (by rw [hmode]; decide), if_pos hmode]
    decide

/-- Both branches of a test agree. -/
theorem ite_cases {p : Prop} [Decidable p] {t : Overlays π} (h : s.Agree) (h' : t.Agree) :
    (if p then s else t).Agree := by
  split
  · exact h
  · exact h'

/-! ## Modes of their own -/

theorem Bare.agree (h : s.Bare) : s.Agree where
  commandPrompt hprompt := absurd h.1.commandPrompt hprompt
  confirm hconfirm := absurd h.1.confirm hconfirm
  searchPrompt hsearch := absurd h.1.searchPrompt hsearch
  chooser hchooser := absurd h.1.chooser hchooser
  hints nodeId hhints := absurd (h.2 nodeId) hhints

/-- Nothing is open in a mode that is none of theirs. -/
theorem Agree.bare (h : s.Agree) (hmode : s.mode ∉ [promptMode, searchMode, treeMode, hintsMode]) :
    s.Bare := by
  simp only [List.mem_cons, List.not_mem_nil, or_false, not_or] at hmode
  obtain ⟨hprompt, hsearch, htree, hhints⟩ := hmode
  refine ⟨⟨?_, ?_, ?_, ?_⟩, ?_⟩
  · by_contra hsome
    exact hprompt (h.commandPrompt hsome)
  · by_contra hsome
    exact hprompt (h.confirm hsome)
  · by_contra hsome
    exact hsearch (h.searchPrompt hsome)
  · by_contra hsome
    rcases h.chooser hsome with hmode | ⟨hmode, -⟩
    · exact htree hmode
    · exact hprompt hmode
  · intro nodeId
    by_contra hsome
    exact hhints (h.hints nodeId hsome).1

/-- Two different modes agree with nothing but a bare screen. -/
theorem Agree.setMode_iff (h : s.Agree) {mode : String} (hne : s.mode ≠ mode) :
    (s.setMode mode).Agree ↔ s.Bare := by
  constructor
  · intro h'
    have hprompt : s.commandPrompt = none := by
      by_contra hsome
      exact hne ((h.commandPrompt hsome).trans (h'.commandPrompt hsome).symm)
    have hconfirm : s.confirm = none := by
      by_contra hsome
      exact hne ((h.confirm hsome).trans (h'.confirm hsome).symm)
    have hnone : ¬(s.commandPrompt ≠ none ∨ s.confirm ≠ none) := by simp [hprompt, hconfirm]
    refine ⟨⟨hprompt, hconfirm, ?_, ?_⟩, ?_⟩
    · by_contra hsome
      exact hne ((h.searchPrompt hsome).trans (h'.searchPrompt hsome).symm)
    · by_contra hsome
      rcases h.chooser hsome with htree | ⟨-, hover⟩
      · rcases h'.chooser hsome with htree' | ⟨-, hover⟩
        · exact hne (htree.trans htree'.symm)
        · exact hnone hover
      · exact hnone hover
    · intro nodeId
      by_contra hsome
      exact hne ((h.hints nodeId hsome).1.trans (h'.hints nodeId hsome).1.symm)
  · intro hbare
    exact Bare.agree (s := s.setMode mode) ⟨⟨hbare.1.1, hbare.1.2, hbare.1.3, hbare.1.4⟩, hbare.2⟩

/-- The same, whether or not the mode changes, for a mode that is none of theirs. -/
theorem Agree.setMode_own_iff (h : s.Agree) {mode : String}
    (hmode : mode ∉ [promptMode, searchMode, treeMode, hintsMode]) :
    (s.setMode mode).Agree ↔ s.Bare := by
  by_cases heq : s.mode = mode
  · have hbare : s.Bare := h.bare (heq ▸ hmode)
    exact ⟨fun _ ↦ hbare, fun _ ↦ Bare.agree (s := s.setMode mode)
      ⟨⟨hbare.1.1, hbare.1.2, hbare.1.3, hbare.1.4⟩, hbare.2⟩⟩
  · exact h.setMode_iff heq

/-! ## Hints -/

theorem hintsAt_setHints (s : Overlays π) (nodeId other : NodeId) (hints : Option HintsState) :
    (s.setHints nodeId hints).hintsAt other =
      if nodeId = other then (if nodeId ∈ s.views then hints else none) else s.hintsAt other := by
  rw [hintsAt, setHints, Table.get?_modify]
  split
  · next heq =>
    subst heq
    by_cases hview : nodeId ∈ s.views
    · rw [if_pos hview]
      obtain ⟨view, hview⟩ := Option.isSome_iff_exists.1
        (Std.ExtTreeMap.isSome_getElem?_iff_mem.2 hview)
      rw [hview]
      rfl
    · rw [if_neg hview, Std.ExtTreeMap.getElem?_eq_none hview]
      rfl
  · rfl

/-- Dropping the hints of a view shows no more than before. -/
theorem hintsAt_of_setHints_none {nodeId other : NodeId}
    (h : (s.setHints nodeId none).hintsAt other ≠ none) :
    nodeId ≠ other ∧ s.hintsAt other ≠ none := by
  rw [hintsAt_setHints] at h
  by_cases heq : nodeId = other
  · rw [if_pos heq] at h
    simp at h
  · rw [if_neg heq] at h
    exact ⟨heq, h⟩

/-- Under the hints' own view there are none left once they are dropped. -/
theorem Agree.noHints_setHints (h : s.Agree) {nodeId : NodeId} (hnode : s.hintsNode = some nodeId) :
    (s.setHints nodeId none).NoHints := by
  intro other
  by_contra hsome
  obtain ⟨hne, hother⟩ := hintsAt_of_setHints_none hsome
  have heq : s.hintsNode = some other := (h.hints other hother).2
  rw [hnode, Option.some.injEq] at heq
  exact hne heq

theorem Agree.noHints (h : s.Agree) (hnode : s.hintsNode = none) : s.NoHints := by
  intro nodeId
  by_contra hsome
  have heq : s.hintsNode = some nodeId := (h.hints nodeId hsome).2
  rw [hnode] at heq
  exact nomatch heq

theorem Agree.noHints_of_mode (h : s.Agree) (hmode : s.mode ≠ hintsMode) : s.NoHints := by
  intro nodeId
  by_contra hsome
  exact hmode (h.hints nodeId hsome).1

/-- A normal mode agrees with no prompt at all. -/
theorem Agree.noPrompt (h : s.Agree) (hmode : s.mode ≠ promptMode) (hsearch : s.mode ≠ searchMode)
    (htree : s.mode ≠ treeMode) : s.NoPrompt := by
  refine ⟨?_, ?_, ?_, ?_⟩
  · by_contra hsome
    exact hmode (h.commandPrompt hsome)
  · by_contra hsome
    exact hmode (h.confirm hsome)
  · by_contra hsome
    exact hsearch (h.searchPrompt hsome)
  · by_contra hsome
    rcases h.chooser hsome with heq | ⟨heq, -⟩
    · exact htree heq
    · exact hmode heq

/-- Cancelling the hints resets the mode, so that no prompt may be open. -/
theorem Agree.cancelActiveHints_iff (h : s.Agree) :
    s.cancelActiveHints.Agree ↔ (s.hintsNode.isSome → s.NoPrompt) := by
  rcases hnode : s.hintsNode with _ | nodeId
  · have heq : s.cancelActiveHints = s := by rw [cancelActiveHints, hnode]
    rw [heq]
    simpa using h
  · have heq : s.cancelActiveHints =
        ({ s with hintsNode := none }.setHints nodeId none).setMode normalMode := by
      rw [cancelActiveHints, hnode]
    rw [heq]
    constructor
    · intro h' _
      have hprompt := h'.noPrompt (show normalMode ≠ promptMode by decide)
        (show normalMode ≠ searchMode by decide) (show normalMode ≠ treeMode by decide)
      exact ⟨hprompt.1, hprompt.2, hprompt.3, hprompt.4⟩
    · intro hprompt
      have hprompt := hprompt rfl
      exact Bare.agree ⟨⟨hprompt.1, hprompt.2, hprompt.3, hprompt.4⟩, h.noHints_setHints hnode⟩

theorem Agree.cancelHints (h : s.Agree) (hmode : s.mode = hintsMode) {nodeId : NodeId}
    (hnode : s.hintsNode = some nodeId) : (s.cancelHints nodeId).Agree := by
  have hprompt : s.NoPrompt := h.noPrompt (by rw [hmode]; decide) (by rw [hmode]; decide)
    (by rw [hmode]; decide)
  exact Bare.agree ⟨⟨hprompt.1, hprompt.2, hprompt.3, hprompt.4⟩, h.noHints_setHints hnode⟩

/-- The hints of the hints' own view may change as they like. -/
theorem Agree.setHints (h : s.Agree) (hmode : s.mode = hintsMode) {nodeId : NodeId}
    (hnode : s.hintsNode = some nodeId) (hints : Option HintsState) :
    (s.setHints nodeId hints).Agree := by
  refine ⟨h.1, h.2, h.3, h.4, ?_⟩
  intro other hother
  rw [hintsAt_setHints] at hother
  by_cases heq : nodeId = other
  · subst heq
    exact ⟨hmode, hnode⟩
  · rw [if_neg heq] at hother
    exact h.hints other hother

theorem Agree.hintsTypeChar (h : s.Agree) (hmode : s.mode = hintsMode) {nodeId : NodeId}
    (hnode : s.hintsNode = some nodeId) (hints : HintsState) (ch : Char) :
    (s.hintsTypeChar nodeId hints ch).Agree := by
  rw [Overlays.hintsTypeChar]
  split_ifs
  · exact h.cancelHints hmode hnode
  · exact h.setHints hmode hnode _
  · exact h

theorem Agree.handleHintsKey (h : s.Agree) (hmode : s.mode = hintsMode) (key : KeyEvent) :
    (s.handleHintsKey key).Agree := by
  rcases hnode : s.hintsNode with _ | nodeId
  · have heq : s.handleHintsKey key = s.setMode normalMode := by
      rw [Overlays.handleHintsKey, hnode]
    have hprompt : s.NoPrompt := h.noPrompt (by rw [hmode]; decide) (by rw [hmode]; decide)
      (by rw [hmode]; decide)
    rw [heq, h.setMode_own_iff (by decide)]
    exact ⟨hprompt, h.noHints hnode⟩
  · rcases hhints : s.hintsAt nodeId with _ | hints
    · have heq : s.handleHintsKey key = s.cancelHints nodeId := by
        rw [Overlays.handleHintsKey, hnode]
        simp only [hhints]
      rw [heq]
      exact h.cancelHints hmode hnode
    · unfold Overlays.handleHintsKey
      rw [hnode]
      simp only [hhints]
      cases key with
      | escape => exact h.cancelHints hmode hnode
      | backspace => exact h.setHints hmode hnode _
      | ctrl ch =>
        change (if ch = 'h' then _ else s).Agree
        split_ifs
        · exact h.setHints hmode hnode _
        · exact h
      | char ch => exact h.hintsTypeChar hmode hnode hints ch
      | _ => exact h

theorem enterHintsMode_agree_iff {nodeId : NodeId} {labels : List (List Char)}
    (hlabels : labels ≠ []) (hview : nodeId ∈ s.views) (onSelect : Option String) :
    (s.enterHintsMode (some nodeId) false labels onSelect).Agree ↔
      s.NoPrompt ∧ ∀ other, other ≠ nodeId → s.hintsAt other = none := by
  have heq : s.enterHintsMode (some nodeId) false labels onSelect =
      { s.setHints nodeId (some ⟨labels, [], onSelect⟩) with hintsNode := some nodeId }.setMode
        hintsMode := by
    simp [enterHintsMode, hlabels, hview]
  rw [heq]
  constructor
  · intro h'
    have hprompt := h'.noPrompt (show hintsMode ≠ promptMode by decide)
      (show hintsMode ≠ searchMode by decide) (show hintsMode ≠ treeMode by decide)
    refine ⟨⟨hprompt.1, hprompt.2, hprompt.3, hprompt.4⟩, ?_⟩
    intro other hne
    by_contra hsome
    have hafter : (s.setHints nodeId (some ⟨labels, [], onSelect⟩)).hintsAt other ≠ none := by
      rwa [hintsAt_setHints, if_neg hne.symm]
    exact hne (Option.some.inj (h'.hints other hafter).2).symm
  · rintro ⟨hprompt, hother⟩
    refine ⟨fun hne ↦ absurd hprompt.1 hne, fun hne ↦ absurd hprompt.2 hne,
      fun hne ↦ absurd hprompt.3 hne, fun hne ↦ absurd hprompt.4 hne, ?_⟩
    intro other hsome
    by_cases hne : other = nodeId
    · exact ⟨rfl, congrArg some hne.symm⟩
    · change (s.setHints nodeId (some ⟨labels, [], onSelect⟩)).hintsAt other ≠ none at hsome
      rw [hintsAt_setHints, if_neg (Ne.symm hne)] at hsome
      exact absurd (hother other hne) hsome

/-! ## Prompts -/

/-- A prompt reads every key, so that it may be opened over anything but hints. -/
theorem openCommandPrompt_agree_iff (line : π) :
    (s.openCommandPrompt line).Agree ↔ s.NoHints := by
  constructor
  · intro h' nodeId
    exact h'.noHints_of_mode (show promptMode ≠ hintsMode by decide) nodeId
  · intro hhints
    exact ⟨fun _ ↦ rfl, fun _ ↦ rfl, fun hne ↦ absurd rfl hne,
      fun _ ↦ Or.inr ⟨rfl, Or.inl (by simp [openCommandPrompt, setMode])⟩,
      fun nodeId hne ↦ absurd (hhints nodeId) hne⟩

theorem openConfirm_agree_iff (prompt : String) :
    (s.openConfirm prompt).Agree ↔ s.NoHints := by
  constructor
  · intro h' nodeId
    exact h'.noHints_of_mode (show promptMode ≠ hintsMode by decide) nodeId
  · intro hhints
    exact ⟨fun hne ↦ absurd rfl hne, fun _ ↦ rfl, fun hne ↦ absurd rfl hne,
      fun _ ↦ Or.inr ⟨rfl, Or.inr (by simp [openConfirm, setMode])⟩,
      fun nodeId hne ↦ absurd (hhints nodeId) hne⟩

theorem openChooser_agree_iff : s.openChooser.Agree ↔ s.NoHints := by
  constructor
  · intro h' nodeId
    exact h'.noHints_of_mode (show treeMode ≠ hintsMode by decide) nodeId
  · intro hhints
    exact ⟨fun hne ↦ absurd rfl hne, fun hne ↦ absurd rfl hne, fun hne ↦ absurd rfl hne,
      fun _ ↦ Or.inl rfl, fun nodeId hne ↦ absurd (hhints nodeId) hne⟩

/-- With only the picker shown, the mode has to be its own. -/
theorem agree_iff_of_only_chooser (hprompt : s.commandPrompt = none) (hconfirm : s.confirm = none)
    (hsearch : s.searchPrompt = none) (hhints : s.NoHints) :
    s.Agree ↔ (s.chooser ≠ none → s.mode = treeMode) := by
  constructor
  · intro h hchooser
    rcases h.chooser hchooser with htree | ⟨-, hover | hover⟩
    · exact htree
    · exact absurd hprompt hover
    · exact absurd hconfirm hover
  · intro htree
    exact ⟨fun hne ↦ absurd hprompt hne, fun hne ↦ absurd hconfirm hne,
      fun hne ↦ absurd hsearch hne, fun hne ↦ Or.inl (htree hne),
      fun nodeId hne ↦ absurd (hhints nodeId) hne⟩

/-- Where prompts are read, neither a search nor hints are shown. -/
theorem Agree.of_promptMode (h : s.Agree) (hmode : s.mode = promptMode) :
    s.searchPrompt = none ∧ s.NoHints := by
  constructor
  · by_contra hsome
    have hsearch := h.searchPrompt hsome
    rw [hmode] at hsearch
    exact absurd hsearch (by decide)
  · exact h.noHints_of_mode (by rw [hmode]; decide)

/-- A question answered leaves no other prompt behind, and returns to the picker it was over. -/
theorem Agree.answerConfirm_iff (h : s.Agree) (hmode : s.mode = promptMode)
    (confirm : PendingConfirm) :
    (s.answerConfirm confirm).Agree ↔
      s.commandPrompt = none ∧ (s.chooser ≠ none → confirm.returnMode.1 = treeMode) := by
  obtain ⟨hsearch, hhints⟩ := h.of_promptMode hmode
  have hiff (hprompt : s.commandPrompt = none) : (s.answerConfirm confirm).Agree ↔
      (s.chooser ≠ none → confirm.returnMode.1 = treeMode) :=
    agree_iff_of_only_chooser (s := s.answerConfirm confirm) hprompt rfl hsearch hhints
  constructor
  · intro h'
    have hprompt : s.commandPrompt = none := by
      by_contra hsome
      have hreturn : confirm.returnMode.1 = promptMode := h'.commandPrompt hsome
      exact confirm.returnMode.2 (by simp [hreturn])
    exact ⟨hprompt, (hiff hprompt).1 h'⟩
  · rintro ⟨hprompt, hchooser⟩
    exact (hiff hprompt).2 hchooser

theorem Agree.closeCommandPrompt_iff (h : s.Agree) (hmode : s.mode = promptMode)
    (hconfirm : s.confirm = none) (prompt : CommandPrompt π) :
    (s.closeCommandPrompt prompt).Agree ↔
      (s.chooser ≠ none → prompt.returnMode.1 = treeMode) := by
  obtain ⟨hsearch, hhints⟩ := h.of_promptMode hmode
  exact agree_iff_of_only_chooser (s := s.closeCommandPrompt prompt) rfl hconfirm hsearch hhints

/-- A prompt's line may change as it likes. -/
theorem Agree.setCommandPrompt (h : s.Agree) {prompt : CommandPrompt π}
    (hprompt : s.commandPrompt = some prompt) (prompt' : CommandPrompt π) :
    Agree { s with commandPrompt := some prompt' } := by
  have hmode : s.mode = promptMode := h.commandPrompt (by simp [hprompt])
  exact ⟨fun _ ↦ hmode, h.2, h.3, fun _ ↦ Or.inr ⟨hmode, Or.inl (by simp)⟩, h.5⟩

/-! ## The picker -/

theorem Agree.of_treeMode (h : s.Agree) (hmode : s.mode = treeMode) :
    s.commandPrompt = none ∧ s.confirm = none ∧ s.searchPrompt = none ∧ s.NoHints := by
  refine ⟨?_, ?_, ?_, ?_⟩
  · by_contra hsome
    exact absurd (hmode.symm.trans (h.commandPrompt hsome)) (by decide)
  · by_contra hsome
    exact absurd (hmode.symm.trans (h.confirm hsome)) (by decide)
  · by_contra hsome
    exact absurd (hmode.symm.trans (h.searchPrompt hsome)) (by decide)
  · exact h.noHints_of_mode (by rw [hmode]; decide)

theorem Agree.setChooser (h : s.Agree) (hmode : s.mode = treeMode) (chooser : Option Chooser) :
    Agree { s with chooser } :=
  ⟨h.1, h.2, h.3, fun _ ↦ Or.inl hmode, h.5⟩

theorem Agree.closeChooser (h : s.Agree) (hmode : s.mode = treeMode) : s.closeChooser.Agree := by
  obtain ⟨hprompt, hconfirm, hsearch, hhints⟩ := h.of_treeMode hmode
  rw [Overlays.closeChooser]
  rcases hchooser : s.chooser with _ | chooser
  · exact Bare.agree ⟨⟨hprompt, hconfirm, hsearch, hchooser⟩, hhints⟩
  · exact Bare.agree ⟨⟨hprompt, hconfirm, hsearch, rfl⟩, hhints⟩

theorem Agree.handleChooserKey (h : s.Agree) (hmode : s.mode = treeMode) (key : KeyEvent)
    (target : Option ChooserItem) (targetExists : Bool) :
    (s.handleChooserKey editing key target targetExists).Agree := by
  unfold Overlays.handleChooserKey
  rcases hchooser : s.chooser with _ | chooser
  · obtain ⟨hprompt, hconfirm, hsearch, hhints⟩ := h.of_treeMode hmode
    exact Bare.agree ⟨⟨hprompt, hconfirm, hsearch, hchooser⟩, hhints⟩
  · have hset := h.setChooser hmode
    -- Every branch keeps the state, changes the picker or closes it.
    refine ite_cases (hset _) (ite_cases (hset _) (ite_cases h (ite_cases (hset _)
      (ite_cases (ite_cases h (hset _)) (ite_cases (hset _)
        (ite_cases (h.closeChooser hmode) ?_))))))
    cases key with
    | char ch => exact ite_cases h (hset _)
    | _ => exact h

/-! ## Search -/

theorem Agree.of_searchMode (h : s.Agree) (hmode : s.mode = searchMode) :
    s.commandPrompt = none ∧ s.confirm = none ∧ s.chooser = none ∧ s.NoHints := by
  refine ⟨?_, ?_, ?_, ?_⟩
  · by_contra hsome
    exact absurd (hmode.symm.trans (h.commandPrompt hsome)) (by decide)
  · by_contra hsome
    exact absurd (hmode.symm.trans (h.confirm hsome)) (by decide)
  · by_contra hsome
    rcases h.chooser hsome with htree | ⟨hprompt, -⟩
    · exact absurd (hmode.symm.trans htree) (by decide)
    · exact absurd (hmode.symm.trans hprompt) (by decide)
  · exact h.noHints_of_mode (by rw [hmode]; decide)

theorem enterSearchMode_agree_iff (nodeId : NodeId) (backward : Bool) :
    (s.enterSearchMode (some nodeId) false backward).Agree ↔
      s.commandPrompt = none ∧ s.confirm = none ∧ s.chooser = none ∧ s.NoHints := by
  constructor
  · intro h'
    exact h'.of_searchMode rfl
  · rintro ⟨hprompt, hconfirm, hchooser, hhints⟩
    exact ⟨fun hne ↦ absurd hprompt hne, fun hne ↦ absurd hconfirm hne, fun _ ↦ rfl,
      fun hne ↦ absurd hchooser hne, fun nodeId hne ↦ absurd (hhints nodeId) hne⟩

/-- A search ends in the mode it began in, or in the normal one if there is none. -/
theorem Agree.cancelSearchPrompt_iff (h : s.Agree) :
    s.cancelSearchPrompt.Agree ↔ (s.searchPrompt = none → s.Bare) := by
  rw [Overlays.cancelSearchPrompt]
  rcases hsearch : s.searchPrompt with _ | prompt
  · simp only [forall_const]
    exact h.setMode_own_iff (by decide)
  · have hmode : s.mode = searchMode := h.searchPrompt (by simp [hsearch])
    obtain ⟨hprompt, hconfirm, hchooser, hhints⟩ := h.of_searchMode hmode
    have hagree : (({ s with searchPrompt := none } : Overlays π).setMode prompt.returnMode).Agree :=
      Bare.agree ⟨⟨hprompt, hconfirm, rfl, hchooser⟩, hhints⟩
    simpa using hagree

theorem commitSearchPrompt_eq : s.commitSearchPrompt = s.cancelSearchPrompt := by
  rw [commitSearchPrompt, cancelSearchPrompt]
  cases s.searchPrompt <;> rfl

theorem Agree.setSearchPrompt (h : s.Agree) (hmode : s.mode = searchMode)
    (prompt : Option SearchPrompt) : Agree { s with searchPrompt := prompt } :=
  ⟨h.1, h.2, fun _ ↦ hmode, h.4, h.5⟩

theorem Agree.handleSearchKey (h : s.Agree) (hmode : s.mode = searchMode) (key : KeyEvent)
    (leaf : Option NodeId) (alternate : Bool) :
    (s.handleSearchKey editing key leaf alternate).Agree := by
  unfold Overlays.handleSearchKey
  rcases hsearch : s.searchPrompt with _ | prompt
  · obtain ⟨hprompt, hconfirm, hchooser, hhints⟩ := h.of_searchMode hmode
    rcases leaf with _ | nodeId
    · exact h
    · cases alternate with
      | true => exact h
      | false => exact (enterSearchMode_agree_iff nodeId false).2 ⟨hprompt, hconfirm, hchooser, hhints⟩
  · have hset := h.setSearchPrompt hmode
    have hcancel : s.cancelSearchPrompt.Agree := h.cancelSearchPrompt_iff.2 (by simp [hsearch])
    cases key with
    | char ch => exact hset _
    | tab => exact hset _
    | backspace => exact hset _
    | ctrl ch => exact ite_cases (hset _) h
    | enter =>
      change s.commitSearchPrompt.Agree
      rwa [commitSearchPrompt_eq]
    | escape => exact hcancel
    | bytes bytes => exact hset _
    | _ => exact h

/-! ## Modes -/

/-- A script changes the mode only where nothing is shown. -/
theorem Agree.transitionMode_iff (h : s.Agree) (mode : String) (leaveHook enterHook : Bool) :
    (s.transitionMode mode leaveHook enterHook).Agree ↔
      (mode ∈ s.modes → s.mode ≠ mode → leaveHook → enterHook → s.Bare) := by
  unfold transitionMode
  by_cases hmodes : mode ∈ s.modes
  swap
  · rw [if_pos hmodes]
    exact ⟨fun _ hmem ↦ absurd hmem hmodes, fun _ ↦ h⟩
  rw [if_neg (not_not.2 hmodes)]
  by_cases hmode : s.mode = mode
  · rw [if_pos hmode]
    exact ⟨fun _ _ hne ↦ absurd hmode hne, fun _ ↦ h⟩
  rw [if_neg hmode]
  cases leaveHook with
  | false => simpa using h
  | true =>
    cases enterHook with
    | false =>
      -- A failing enter hook puts the old mode back.
      have heq : (s.setMode mode).setMode s.mode = s := rfl
      simpa [heq] using h
    | true => simpa [hmodes, hmode] using h.setMode_iff hmode

theorem copyMode_own : copyMode ∉ [promptMode, searchMode, treeMode, hintsMode] := by decide

theorem selectMode_own : selectMode ∉ [promptMode, searchMode, treeMode, hintsMode] := by decide

theorem normalMode_own : normalMode ∉ [promptMode, searchMode, treeMode, hintsMode] := by decide

theorem Agree.enterCopyInputMode_iff (h : s.Agree) (supported : Bool) :
    (s.enterCopyInputMode supported).Agree ↔ (supported → ¬s.inCopyMode → s.Bare) := by
  rw [enterCopyInputMode]
  by_cases hboth : supported ∧ ¬s.inCopyMode
  · rw [if_pos hboth, h.setMode_own_iff copyMode_own]
    exact ⟨fun hbare _ _ ↦ hbare, fun hbare ↦ hbare hboth.1 hboth.2⟩
  · rw [if_neg hboth]
    exact ⟨fun _ hsupported hcopy ↦ absurd ⟨hsupported, hcopy⟩ hboth, fun _ ↦ h⟩

/-- In copy mode nothing is shown. -/
theorem Agree.bare_of_inCopyMode (h : s.Agree) (hcopy : s.inCopyMode = true) : s.Bare := by
  simp only [inCopyMode, decide_eq_true_eq] at hcopy
  rcases hcopy with hmode | hmode
  · exact h.bare (hmode ▸ copyMode_own)
  · exact h.bare (hmode ▸ selectMode_own)

theorem Agree.exitCopyMode (h : s.Agree) : s.exitCopyMode.Agree := by
  rw [Overlays.exitCopyMode]
  split
  · next hcopy => exact (h.setMode_own_iff normalMode_own).2 (h.bare_of_inCopyMode hcopy)
  · exact h

theorem Agree.cancelSelection_iff (h : s.Agree) (hasCursor : Bool) :
    (s.cancelSelection hasCursor).Agree ↔ s.Bare := by
  cases hasCursor with
  | false => exact h.setMode_own_iff normalMode_own
  | true => exact h.setMode_own_iff copyMode_own

theorem Agree.enterSelectMode_iff (h : s.Agree) (active : Option Bool) (supported hasCursor : Bool) :
    (s.enterSelectMode active supported hasCursor).Agree ↔
      (active = some true ∨ (active = none ∧ supported) → s.Bare) := by
  rcases active with _ | same
  · cases supported with
    | false => simpa [enterSelectMode] using h
    | true => simpa [enterSelectMode] using h.setMode_own_iff selectMode_own
  · cases same with
    | false => simpa [enterSelectMode] using h
    | true => simpa [enterSelectMode] using h.cancelSelection_iff hasCursor

theorem Agree.enterCopyModeByScrolling (h : s.Agree) (canScroll supported : Bool) :
    (s.enterCopyModeByScrolling canScroll supported).Agree := by
  rw [Overlays.enterCopyModeByScrolling]
  split
  · exact h
  · next hnot =>
    rw [not_or, not_not] at hnot
    rw [h.enterCopyInputMode_iff]
    intro _ _
    exact h.bare (hnot.1 ▸ normalMode_own)

theorem Agree.leaveCopyModeByScrolling (h : s.Agree) (backAtBottom : Bool) :
    (s.leaveCopyModeByScrolling backAtBottom).Agree := ite_cases h.exitCopyMode h

/-! ## Events -/

/-- The session on screen has no part in what agrees. -/
theorem agree_activeSession_iff (s : Overlays π) (activeSession : Option SessionId) :
    Agree { s with activeSession } ↔ s.Agree :=
  ⟨fun h ↦ ⟨h.1, h.2, h.3, h.4, h.5⟩, fun h ↦ ⟨h.1, h.2, h.3, h.4, h.5⟩⟩

theorem Agree.setActiveSession_iff (h : s.Agree) (sessionId : SessionId) :
    (s.setActiveSession sessionId).Agree ↔
      (s.activeSession ≠ some sessionId → s.hintsNode.isSome → s.NoPrompt) := by
  rw [setActiveSession]
  by_cases hactive : s.activeSession = some sessionId
  · rw [if_pos hactive]
    exact ⟨fun _ hne ↦ absurd hactive hne, fun _ ↦ h⟩
  · rw [if_neg hactive, agree_activeSession_iff, h.cancelActiveHints_iff]
    exact ⟨fun hprompt _ ↦ hprompt, fun hprompt ↦ hprompt hactive⟩

theorem Agree.leaveDestroyedSession_iff (h : s.Agree) (target : Option SessionId) :
    (s.leaveDestroyedSession target).Agree ↔
      (s.activeSession ≠ none → s.hintsNode.isSome → s.NoPrompt) := by
  rw [leaveDestroyedSession]
  rcases hactive : s.activeSession with _ | sessionId
  · simpa using h
  · have h' : Agree { s with activeSession := none } := (agree_activeSession_iff s none).2 h
    change Agree { Overlays.cancelActiveHints { s with activeSession := none } with
      activeSession := target } ↔ _
    rw [agree_activeSession_iff, h'.cancelActiveHints_iff]
    constructor
    · intro hprompt _ hnode
      obtain ⟨h1, h2, h3, h4⟩ := hprompt hnode
      exact ⟨h1, h2, h3, h4⟩
    · intro hprompt hnode
      obtain ⟨h1, h2, h3, h4⟩ := hprompt (by simp) hnode
      exact ⟨h1, h2, h3, h4⟩

/-- Leaving a session is being moved to none. -/
theorem clearActiveSession_agree_iff :
    s.clearActiveSession.Agree ↔ (s.leaveDestroyedSession none).Agree := by
  rw [clearActiveSession, leaveDestroyedSession]
  rcases s.activeSession with _ | sessionId
  · rfl
  · exact (agree_activeSession_iff _ none).symm

theorem Agree.focusChanged_iff (h : s.Agree) (sessionId : SessionId) (focusedLeaf : Option NodeId) :
    (s.focusChanged sessionId focusedLeaf).Agree ↔
      (s.activeSession = some sessionId → s.hintsNode.isSome → focusedLeaf ≠ s.hintsNode →
        s.NoPrompt) := by
  rw [focusChanged]
  split
  · next hguard =>
    rw [h.cancelActiveHints_iff]
    exact ⟨fun hprompt _ hnode _ ↦ hprompt hnode, fun hprompt hnode ↦
      hprompt hguard.1 hnode hguard.2.2⟩
  · next hguard =>
    exact ⟨fun _ hactive hnode hleaf ↦ absurd ⟨hactive, hnode, hleaf⟩ hguard, fun _ ↦ h⟩

theorem Agree.finishConfigReload (h : s.Agree) (modes : List String) :
    (s.finishConfigReload modes).Agree := by
  rw [Overlays.finishConfigReload]
  split
  · exact ⟨h.1, h.2, h.3, h.4, h.5⟩
  · rcases hnode : s.hintsNode with _ | nodeId
    · simp only [setMode]
      exact Bare.agree ⟨⟨rfl, rfl, rfl, rfl⟩, h.noHints hnode⟩
    · simp only [setMode]
      exact Bare.agree ⟨⟨rfl, rfl, rfl, rfl⟩, h.noHints_setHints hnode⟩

/-- Views that come have no hints over them. -/
theorem join_foldl_insert (added : List NodeId) (views : Table NodeId (Option HintsState))
    (nodeId : NodeId)
    (h : (added.foldl (fun views nodeId ↦ views.insert nodeId none) views)[nodeId]?.join ≠ none) :
    views[nodeId]?.join ≠ none := by
  induction added generalizing views with
  | nil => exact h
  | cons added rest ih =>
    have hinsert := ih (views.insert added none) h
    rw [Table.get?_insert] at hinsert
    split at hinsert
    · simp at hinsert
    · exact hinsert

/-- Views that change lose theirs. -/
theorem join_foldl_modify (changed : List NodeId) (views : Table NodeId (Option HintsState))
    (nodeId : NodeId)
    (h : (changed.foldl (fun views nodeId ↦ views.modify nodeId fun _ ↦ none)
      views)[nodeId]?.join ≠ none) :
    views[nodeId]?.join ≠ none := by
  induction changed generalizing views with
  | nil => exact h
  | cons changed rest ih =>
    have hmodify := ih (views.modify changed fun _ ↦ none) h
    rw [Table.get?_modify] at hmodify
    split at hmodify
    · rcases hview : views[nodeId]? with _ | view
      · simp [hview] at hmodify
      · simp [hview] at hmodify
    · exact hmodify

theorem Agree.syncViews (h : s.Agree) (gone added changed : List NodeId) :
    (s.syncViews gone added changed).Agree := by
  refine ⟨h.1, h.2, h.3, h.4, ?_⟩
  intro nodeId hnode
  have hkept := join_foldl_modify _ _ _ (join_foldl_insert _ _ _ hnode)
  apply h.hints nodeId
  intro hnone
  rw [Std.ExtTreeMap.getElem?_filter'] at hkept
  rw [hintsAt] at hnone
  rcases hview : s.views[nodeId]? with _ | view
  · simp [hview] at hkept
  · simp only [hview, Option.join_some] at hnone
    subst hnone
    rw [hview] at hkept
    by_cases hgone : nodeId ∈ gone
    · simp [hgone] at hkept
    · rw [Option.filter_some, if_pos (by simpa using hgone)] at hkept
      exact hkept rfl

/-! ## Keys -/

/-- What a key has to leave behind: it may close a prompt only if nothing else is open, or if it is
over the picker and returns to it. -/
def KeySound (editing : LineEditing π) (s : Overlays π) (key : KeyEvent) : Prop :=
  s.mode = promptMode →
    match s.confirm with
    | some confirm =>
      s.commandPrompt = none ∧ (s.chooser ≠ none → confirm.returnMode.1 = treeMode)
    | none => ∀ prompt, s.commandPrompt = some prompt → editing.viKey prompt.line key = none →
        closesPrompt key → s.chooser ≠ none → prompt.returnMode.1 = treeMode

theorem Agree.handlePromptKey_iff (h : s.Agree) (hmode : s.mode = promptMode)
    (hconfirm : s.confirm = none) (key : KeyEvent) :
    (s.handlePromptKey editing key).Agree ↔
      ∀ prompt, s.commandPrompt = some prompt → editing.viKey prompt.line key = none →
        closesPrompt key → s.chooser ≠ none → prompt.returnMode.1 = treeMode := by
  unfold Overlays.handlePromptKey
  rcases hprompt : s.commandPrompt with _ | prompt
  · -- With no prompt to read it, the key only leaves the mode.
    obtain ⟨hsearch, hhints⟩ := h.of_promptMode hmode
    have hchooser : s.chooser = none := by
      by_contra hsome
      rcases h.chooser hsome with htree | ⟨-, hover | hover⟩
      · exact absurd (hmode.symm.trans htree) (by decide)
      · exact hover hprompt
      · exact hover hconfirm
    have hagree : (s.setMode normalMode).Agree :=
      (h.setMode_own_iff normalMode_own).2 ⟨⟨hprompt, hconfirm, hsearch, hchooser⟩, hhints⟩
    refine ⟨fun _ _ hsome ↦ ?_, fun _ ↦ hagree⟩
    exact nomatch hsome
  · rcases hvi : editing.viKey prompt.line key with _ | line
    · by_cases hcloses : closesPrompt key = true
      · simp only [hvi, if_pos hcloses]
        rw [h.closeCommandPrompt_iff hmode hconfirm]
        constructor
        · rintro hreturn _ ⟨⟩ _ _
          exact hreturn
        · intro hreturn
          exact hreturn prompt rfl hvi hcloses
      · simp only [hvi, if_neg hcloses]
        exact ⟨fun _ _ _ _ hkey ↦ absurd hkey hcloses, fun _ ↦ h.setCommandPrompt hprompt _⟩
    · simp only [hvi]
      constructor
      · rintro _ _ ⟨⟩ hnone
        rw [hvi] at hnone
        exact nomatch hnone
      · intro _
        exact h.setCommandPrompt hprompt _

theorem Agree.handleKey_iff (h : s.Agree) (key : KeyEvent) (leaf : Option NodeId) (alternate : Bool)
    (target : Option ChooserItem) (targetExists : Bool) :
    (s.handleKey editing key leaf alternate target targetExists).Agree ↔ s.KeySound editing key := by
  unfold handleKey KeySound
  by_cases hprompt : s.mode = promptMode
  · rw [if_pos hprompt]
    simp only [hprompt, forall_const]
    rcases hconfirm : s.confirm with _ | confirm
    · exact h.handlePromptKey_iff hprompt hconfirm key
    · exact h.answerConfirm_iff hprompt confirm
  · rw [if_neg hprompt]
    have hagree : (if s.mode = treeMode then s.handleChooserKey editing key target targetExists
        else if s.mode = searchMode then s.handleSearchKey editing key leaf alternate
        else if s.mode = hintsMode then s.handleHintsKey key else s).Agree := by
      split_ifs with htree hsearch hhints
      · exact h.handleChooserKey htree key target targetExists
      · exact h.handleSearchKey hsearch key leaf alternate
      · exact h.handleHintsKey hhints key
      · exact h
    exact ⟨fun _ hmode ↦ absurd hmode hprompt, fun _ ↦ hagree⟩

theorem Agree.handlePaste (h : s.Agree) (insert : π → List Char → π) (bytes : List UInt8) :
    (s.handlePaste editing insert bytes).Agree := by
  unfold Overlays.handlePaste
  split_ifs with hprompt htree hsearch
  · rcases hcommand : s.commandPrompt with _ | prompt
    · exact h
    · exact h.setCommandPrompt hcommand _
  · rcases s.chooser with _ | chooser
    · exact h
    · exact ite_cases (h.setChooser htree _) h
  · rcases hquery : s.searchPrompt with _ | prompt
    · obtain ⟨hprompt, hconfirm, hchooser, hhints⟩ := h.of_searchMode hsearch
      exact h.cancelSearchPrompt_iff.2 fun _ ↦ ⟨⟨hprompt, hconfirm, hquery, hchooser⟩, hhints⟩
    · exact h.setSearchPrompt hsearch _
  · exact h

end Overlays

/-! ## Runs -/

/-- That a step, taken in a state, leaves nothing shown that does not read the keys: nothing else
changes the mode while something is open, and no prompt opens over hints. -/
def ClientStep.Sound {π : Type} (editing : LineEditing π) (s : Overlays π) : ClientStep π → Prop
  | .key event _ _ _ _ => s.KeySound editing (normalizeTextKey event)
  | .enterMode mode leaveHook enterHook =>
    mode ∈ s.modes → s.mode ≠ mode → leaveHook → enterHook → s.Bare
  | .leaveMode leaveHook enterHook =>
    normalMode ∈ s.modes → s.mode ≠ normalMode → leaveHook → enterHook → s.Bare
  | .toggleMode mode leaveHook enterHook =>
    s.toggledMode mode ∈ s.modes → s.mode ≠ s.toggledMode mode → leaveHook → enterHook → s.Bare
  | .commandPrompt _ | .confirm _ | .chooseTree => s.NoHints
  | .runCommand argv => Overlays.opensChooser argv → s.NoHints
  | .enterHints leaf alternate labels _ =>
    ∀ nodeId ∈ leaf, ¬alternate → labels ≠ [] → nodeId ∈ s.views →
      s.NoPrompt ∧ ∀ other, other ≠ nodeId → s.hintsAt other = none
  | .enterSearch leaf alternate _ =>
    leaf.isSome → ¬alternate →
      s.commandPrompt = none ∧ s.confirm = none ∧ s.chooser = none ∧ s.NoHints
  | .commitSearch | .cancelSearch => s.searchPrompt = none → s.Bare
  | .enterCopyMode supported | .copyMotion supported | .copyJump supported =>
    supported → ¬s.inCopyMode → s.Bare
  | .enterSelect active supported _ => active = some true ∨ (active = none ∧ supported) → s.Bare
  | .cancelSelection _ => s.Bare
  | .drag supported => supported → s.Bare
  | .wheel nodeId => s.hintsNode = some nodeId → s.NoPrompt
  | .clickElsewhere => s.hintsNode.isSome → s.NoPrompt
  | .activate sessionId => s.activeSession ≠ some sessionId → s.hintsNode.isSome → s.NoPrompt
  | .deactivate | .sessionDestroyed _ => s.activeSession ≠ none → s.hintsNode.isSome → s.NoPrompt
  | .focusChanged sessionId focusedLeaf =>
    s.activeSession = some sessionId → s.hintsNode.isSome → focusedLeaf ≠ s.hintsNode → s.NoPrompt
  | .paste _ _ | .exitCopyMode | .copySelection | .scrollBack _ _ | .scrollDown _ | .reload _
  | .syncViews _ _ _ => True

namespace Overlays

variable {π : Type} {s : Overlays π} {editing : LineEditing π}

theorem Agree.runCommandLine_iff (h : s.Agree) (argv : List String) :
    (s.runCommandLine argv).Agree ↔ (opensChooser argv → s.NoHints) := by
  rw [runCommandLine]
  split
  · next hopens => simpa [hopens] using openChooser_agree_iff
  · next hopens => exact ⟨fun _ hopen ↦ absurd hopen hopens, fun _ ↦ h⟩

theorem Agree.enterHints_iff (h : s.Agree) (leaf : Option NodeId) (alternate : Bool)
    (labels : List (List Char)) (onSelect : Option String) :
    (s.enterHintsMode leaf alternate labels onSelect).Agree ↔
      ∀ nodeId ∈ leaf, ¬alternate → labels ≠ [] → nodeId ∈ s.views →
        s.NoPrompt ∧ ∀ other, other ≠ nodeId → s.hintsAt other = none := by
  rcases leaf with _ | nodeId
  · simpa [enterHintsMode] using h
  · by_cases heffect : alternate = false ∧ labels ≠ [] ∧ nodeId ∈ s.views
    · obtain ⟨rfl, hlabels, hview⟩ := heffect
      rw [enterHintsMode_agree_iff hlabels hview]
      simp [hlabels, hview]
    · have heq : s.enterHintsMode (some nodeId) alternate labels onSelect = s := by
        rw [enterHintsMode]
        apply if_pos
        cases alternate with
        | true => exact Or.inl rfl
        | false =>
          by_contra hnone
          simp only [not_or] at hnone
          exact heffect ⟨rfl, hnone.2.1, not_not.1 hnone.2.2⟩
      rw [heq]
      refine ⟨fun _ _ hmem halternate hlabels hview ↦ absurd ?_ heffect, fun _ ↦ h⟩
      obtain rfl := Option.some.inj hmem
      exact ⟨by simpa using halternate, hlabels, hview⟩

theorem Agree.enterSearch_iff (h : s.Agree) (leaf : Option NodeId) (alternate backward : Bool) :
    (s.enterSearchMode leaf alternate backward).Agree ↔
      (leaf.isSome → ¬alternate →
        s.commandPrompt = none ∧ s.confirm = none ∧ s.chooser = none ∧ s.NoHints) := by
  rcases leaf with _ | nodeId
  · simpa [enterSearchMode] using h
  · cases alternate with
    | true => simpa [enterSearchMode] using h
    | false => simpa using enterSearchMode_agree_iff nodeId backward

/-- One step: what is shown and where keys go still agree just when the step is sound. -/
theorem Agree.step_iff (h : s.Agree) (st : ClientStep π) :
    (s.step editing st).Agree ↔ st.Sound editing s := by
  have hcancel := h.cancelActiveHints_iff
  cases st with
  | key key leaf alternate target targetExists => exact h.handleKey_iff _ _ _ _ _
  | paste insert bytes => exact iff_of_true (h.handlePaste _ _) trivial
  | enterMode mode leaveHook enterHook => exact h.transitionMode_iff _ _ _
  | leaveMode leaveHook enterHook => exact h.transitionMode_iff _ _ _
  | toggleMode mode leaveHook enterHook => exact h.transitionMode_iff _ _ _
  | commandPrompt line => exact openCommandPrompt_agree_iff line
  | confirm prompt => exact openConfirm_agree_iff prompt
  | chooseTree => exact openChooser_agree_iff
  | runCommand argv => exact h.runCommandLine_iff argv
  | enterHints leaf alternate labels onSelect => exact h.enterHints_iff _ _ _ _
  | enterSearch leaf alternate backward => exact h.enterSearch_iff _ _ _
  | commitSearch =>
    change s.commitSearchPrompt.Agree ↔ _
    rw [commitSearchPrompt_eq]
    exact h.cancelSearchPrompt_iff
  | cancelSearch => exact h.cancelSearchPrompt_iff
  | enterCopyMode supported => exact h.enterCopyInputMode_iff supported
  | copyMotion supported => exact h.enterCopyInputMode_iff supported
  | copyJump supported => exact h.enterCopyInputMode_iff supported
  | exitCopyMode => exact iff_of_true h.exitCopyMode trivial
  | copySelection => exact iff_of_true h.exitCopyMode trivial
  | enterSelect active supported hasCursor => exact h.enterSelectMode_iff _ _ _
  | cancelSelection hasCursor => exact h.cancelSelection_iff hasCursor
  | scrollBack canScroll supported => exact iff_of_true (h.enterCopyModeByScrolling _ _) trivial
  | scrollDown backAtBottom => exact iff_of_true (h.leaveCopyModeByScrolling _) trivial
  | wheel nodeId =>
    change (if s.hintsNode = some nodeId then s.cancelActiveHints else s).Agree ↔
      (s.hintsNode = some nodeId → s.NoPrompt)
    split
    · next hnode => simpa [hnode] using hcancel
    · next hnode => exact ⟨fun _ heq ↦ absurd heq hnode, fun _ ↦ h⟩
  | clickElsewhere => exact hcancel
  | drag supported =>
    change (if supported = true then s.setMode selectMode else s).Agree ↔
      (supported = true → s.Bare)
    split
    · next hsupported => simpa [hsupported] using h.setMode_own_iff selectMode_own
    · next hsupported => exact ⟨fun _ heq ↦ absurd heq hsupported, fun _ ↦ h⟩
  | activate sessionId => exact h.setActiveSession_iff sessionId
  | deactivate => exact clearActiveSession_agree_iff.trans (h.leaveDestroyedSession_iff none)
  | sessionDestroyed target => exact h.leaveDestroyedSession_iff target
  | focusChanged sessionId focusedLeaf => exact h.focusChanged_iff _ _
  | reload modes => exact iff_of_true (h.finishConfigReload modes) trivial
  | syncViews gone added changed => exact iff_of_true (h.syncViews _ _ _) trivial

def run (editing : LineEditing π) (s : Overlays π) (steps : List (ClientStep π)) : Overlays π :=
  steps.foldl (step editing) s

/-- Every step is sound in the state it is taken in. -/
def SoundRun (editing : LineEditing π) (s : Overlays π) : List (ClientStep π) → Prop
  | [] => True
  | st :: steps => st.Sound editing s ∧ SoundRun editing (s.step editing st) steps

theorem Agree.run_iff (steps : List (ClientStep π)) (h : s.Agree) :
    (∀ before, before <+: steps → (s.run editing before).Agree) ↔ s.SoundRun editing steps := by
  induction steps generalizing s with
  | nil =>
    refine iff_of_true (fun before hbefore ↦ ?_) trivial
    rw [List.prefix_nil.1 hbefore]
    exact h
  | cons st steps ih =>
    constructor
    · intro hall
      have hstep : (s.step editing st).Agree := hall [st] (List.cons_prefix_cons.2 ⟨rfl, by simp⟩)
      refine ⟨(h.step_iff st).1 hstep, (ih hstep).1 fun before hbefore ↦ ?_⟩
      exact hall (st :: before) (List.cons_prefix_cons.2 ⟨rfl, hbefore⟩)
    · rintro ⟨hsound, hrun⟩ before hbefore
      have hstep := (h.step_iff st).2 hsound
      rcases before with _ | ⟨st', before⟩
      · exact h
      · obtain ⟨rfl, hrest⟩ := List.cons_prefix_cons.1 hbefore
        exact (ih hstep).2 hrun before hrest

theorem new_bare (modes : List String) : (new modes : Overlays π).Bare := by
  refine ⟨⟨rfl, rfl, rfl, rfl⟩, fun nodeId ↦ ?_⟩
  simp [hintsAt, new]

/-- Over every run from the start: what is shown and where keys go agree throughout just when each
step is sound in its state, and then no key typed while a prompt, a question or the picker is shown
goes to bindings and the pane's program. -/
theorem agree_throughout_iff (editing : LineEditing π) (modes : List String)
    (steps : List (ClientStep π)) :
    ((∀ before, before <+: steps → ((new modes).run editing before).Agree) ↔
      (new modes).SoundRun editing steps) ∧
    ((new modes).SoundRun editing steps → ∀ before, before <+: steps →
      ((new modes).run editing before).Shows →
      ((new modes).run editing before).reader ≠ .bindings) := by
  have hiff := @Agree.run_iff π _ editing steps (new_bare modes).agree
  refine ⟨hiff, fun hsound before hbefore hshows ↦ ?_⟩
  exact (hiff.2 hsound before hbefore).reader_ne_bindings hshows

/-- A line of text that every key leaves alone. -/
def plainEditing : LineEditing String := ⟨fun _ _ ↦ none, fun line _ ↦ line, fun _ ↦ []⟩

/-- Session 1 with hints over view 7, a question a script asks there, and the focus moving to
view 8. -/
def questionOverHints : List (ClientStep String) :=
  [.activate ⟨1⟩, .syncViews [] [⟨7⟩, ⟨8⟩] [], .enterHints (some ⟨7⟩) false [['a']] none,
    .confirm "kill-pane? (y/n)", .focusChanged ⟨1⟩ (some ⟨8⟩)]

/-- The question is still shown, and its answer goes to the program in the pane. -/
theorem question_answered_to_pane :
    let s := (new [normalMode, copyMode, searchMode, selectMode, hintsMode, promptMode,
      treeMode]).run plainEditing questionOverHints
    s.confirm ≠ none ∧ s.mode = normalMode ∧ s.reader = .bindings ∧ ¬s.Agree := by
  have hmode : ((new [normalMode, copyMode, searchMode, selectMode, hintsMode, promptMode,
      treeMode]).run plainEditing questionOverHints).mode = normalMode := by decide +kernel
  have hconfirm : ((new [normalMode, copyMode, searchMode, selectMode, hintsMode, promptMode,
      treeMode]).run plainEditing questionOverHints).confirm.isSome := by decide +kernel
  have hsome := Option.isSome_iff_ne_none.1 hconfirm
  refine ⟨hsome, hmode, by decide +kernel, fun h ↦ ?_⟩
  have hprompt := h.confirm hsome
  rw [hmode] at hprompt
  exact absurd hprompt (by decide)

end Overlays

end Embers
