import Embers.Client.PromptLine

/-!
# Runs of a command prompt

Keys and pasted text, one after the other. `Next` is what one of them leaves: a cursor within the
line, and the history browsed no further than a step. The draft is set when browsing begins and stays
until it is shown again, whatever is done between. In vi normal mode the cursor stays on a character
but for the keys that the vi table passes on, and pasted text: `Slips` names those.
-/

namespace Embers.Client

namespace PromptLine

variable (alphanumeric : Char → Bool) (lossy : List UInt8 → List Char) (history : List (List Char))

/-! ## Runs -/

inductive PromptInput where
  | key (key : KeyEvent)
  | paste (bytes : List UInt8)

/-- What a key or a paste leaves of a prompt: nothing when it closes. -/
def step (line : PromptLine) : PromptInput → Option (Option PromptLine)
  | .key key => (handlePromptKey alphanumeric line history lossy key).map fun
    | .edited line => some line
    | .committed | .cancelled => none
  | .paste bytes => (line.insert (lossy bytes)).map some

/-- What is left after some keys and pastes. A closed prompt takes no more of them. -/
def run (line : PromptLine) : List PromptInput → Option (Option PromptLine)
  | [] => some (some line)
  | input :: inputs =>
    (step alphanumeric lossy history line input).bind fun
      | some line => run line inputs
      | none => some none

/-! ## What is kept -/

/-- The cursor is within the line, and the entry shown is one there is. -/
structure Sound (line : PromptLine) : Prop where
  cursor : line.cursor ≤ line.input.length
  index : ∀ i, line.historyIndex = some i → i < history.length

/-- What is done about the history. -/
inductive Browse (line line' : PromptLine) : Prop where
  | stay (index : line'.historyIndex = line.historyIndex) (draft : line'.draft = line.draft)
  | begin (i : ℕ) (entry : i < history.length) (index : line.historyIndex = none)
    (index' : line'.historyIndex = some i) (draft : line'.draft = line.input)
  | move (i j : ℕ) (entry : j < history.length) (index : line.historyIndex = some i)
    (index' : line'.historyIndex = some j) (draft : line'.draft = line.draft)
  | finish (i : ℕ) (index : line.historyIndex = some i) (index' : line'.historyIndex = none)
    (input : line'.input = line.draft)

/-- A line that a key or a paste leaves. -/
structure Next (line line' : PromptLine) : Prop where
  cursor : line'.cursor ≤ line'.input.length
  browse : Browse history line line'

/-- The text that the older entry shown is. -/
def older (line : PromptLine) : Option (List Char) :=
  match line.historyIndex with
  | none => history.getLast?
  | some 0 => none
  | some (index + 1) => history[index]?

/-- The text that the newer entry is, or the draft. -/
def newer (line : PromptLine) : Option (List Char) :=
  match line.historyIndex with
  | none => none
  | some index => if index + 1 < history.length then history[index + 1]? else some line.draft

/-- In normal mode, the cursor is on a character of a line that has one. -/
def OnCharacter (line : PromptLine) : Prop :=
  line.viMode = some .normal → line.input ≠ [] → line.cursor < line.input.length

/-- What takes the cursor past the last character: the keys that go there, entries shown with the arrow
keys, and text pasted into an empty line. -/
def GoesPast (line : PromptLine) : PromptInput → Prop
  | .key .right => line.cursor + 1 = line.input.length
  | .key .end => line.input ≠ []
  | .key .delete => line.cursor + 1 = line.input.length ∧ 1 < line.input.length
  | .key .up => ∃ entry ∈ line.older history, entry ≠ []
  | .key .down => ∃ entry ∈ line.newer history, entry ≠ []
  | .paste bytes => line.input = [] ∧ lossy bytes ≠ []
  | .key _ => False

/-- What takes the cursor off the characters in normal mode. -/
def Slips (line : PromptLine) (input : PromptInput) : Prop :=
  line.viMode = some .normal ∧ GoesPast lossy history line input

section Steps

variable {history} {line line' : PromptLine}

theorem Sound.next (h : Sound history line) (hnext : Next history line line') :
    Sound history line' where
  cursor := hnext.cursor
  index i hi := by
    cases hnext.browse with
    | stay index draft => exact h.index i (index.symm.trans hi)
    | «begin» j entry index index' draft =>
      obtain rfl : j = i := Option.some_inj.mp (index'.symm.trans hi)
      exact entry
    | move k j entry index index' draft =>
      obtain rfl : j = i := Option.some_inj.mp (index'.symm.trans hi)
      exact entry
    | finish k index index' input => cases index'.symm.trans hi

/-- An older entry is shown, at its end, if there is one. -/
theorem historyUp_spec (h : Sound history line) :
    ∃ line', line.historyUp history = some line' ∧ Next history line line' ∧ line'.vi = line.vi ∧
      (line.older history = none ∧ line' = line ∨ ∃ entry, line.older history = some entry ∧
        line'.input = entry ∧ line'.cursor = entry.length) := by
  rw [historyUp, older]
  cases hindex : line.historyIndex with
  | none =>
    dsimp only
    by_cases hempty : history = []
    · rw [if_pos hempty]
      refine ⟨line, rfl, ⟨h.cursor, .stay rfl rfl⟩, rfl, .inl ⟨?_, rfl⟩⟩
      rw [hempty]
      rfl
    · have hlast : history.length - 1 < history.length :=
        Nat.sub_one_lt (List.length_eq_zero_iff.not.mpr hempty)
      rw [if_neg hempty, showEntry, List.getElem?_eq_getElem hlast]
      refine ⟨_, rfl, ⟨Nat.le_refl _, .begin _ hlast hindex rfl rfl⟩, rfl, .inr ⟨_, ?_, rfl, rfl⟩⟩
      rw [List.getLast?_eq_getElem?, List.getElem?_eq_getElem hlast]
      rfl
  | some index =>
    cases index with
    | zero => exact ⟨line, rfl, ⟨h.cursor, .stay rfl rfl⟩, rfl, .inl ⟨rfl, rfl⟩⟩
    | succ index =>
      have hin : index < history.length := Nat.lt_of_succ_lt (h.index _ hindex)
      dsimp only
      rw [showEntry, List.getElem?_eq_getElem hin]
      exact ⟨_, rfl, ⟨Nat.le_refl _, .move _ _ hin hindex rfl rfl⟩, rfl, .inr ⟨_, rfl, rfl, rfl⟩⟩

/-- A newer entry is shown, or the draft, at its end. -/
theorem historyDown_spec (h : Sound history line) :
    ∃ line', line.historyDown history = some line' ∧ Next history line line' ∧ line'.vi = line.vi ∧
      (line.newer history = none ∧ line' = line ∨ ∃ entry, line.newer history = some entry ∧
        line'.input = entry ∧ line'.cursor = entry.length) := by
  rw [historyDown, newer]
  cases hindex : line.historyIndex with
  | none => exact ⟨line, rfl, ⟨h.cursor, .stay rfl rfl⟩, rfl, .inl ⟨rfl, rfl⟩⟩
  | some index =>
    dsimp only
    by_cases hmore : index + 1 < history.length
    · rw [if_pos hmore, if_pos hmore, showEntry, List.getElem?_eq_getElem hmore]
      exact ⟨_, rfl, ⟨Nat.le_refl _, .move _ _ hmore hindex rfl rfl⟩, rfl, .inr ⟨_, rfl, rfl, rfl⟩⟩
    · rw [if_neg hmore, if_neg hmore]
      exact ⟨_, rfl, ⟨Nat.le_refl _, .finish _ hindex rfl rfl⟩, rfl, .inr ⟨_, rfl, rfl, rfl⟩⟩

/-- An operation that does not panic, and leaves the vi mode. -/
def Keeps (history : List (List Char)) (line : PromptLine) (op : Option PromptLine) : Prop :=
  ∃ line', op = some line' ∧ Next history line line' ∧ line'.vi = line.vi

/-- An edit of the line: the history is as it was. -/
theorem keeps_edit {input : List Char} {cursor : ℕ} (h : cursor ≤ input.length) :
    Keeps history line (some { line with input, cursor }) :=
  ⟨_, rfl, ⟨h, .stay rfl rfl⟩, rfl⟩

theorem keeps_insert (h : Sound history line) (text : List Char) :
    Keeps history line (line.insert text) := by
  have hcursor := h.cursor
  rw [insert_eq]
  refine keeps_edit ?_
  rw [List.length_append, List.length_append, List.length_take, List.length_map]
  omega

theorem keeps_backspace (h : Sound history line) : Keeps history line line.backspace := by
  have hcursor := h.cursor
  rw [backspace_eq]
  refine keeps_edit ?_
  rw [List.length_append, List.length_take]
  omega

theorem keeps_delete (h : Sound history line) : Keeps history line line.delete := by
  have hcursor := h.cursor
  rw [delete_eq]
  refine keeps_edit ?_
  rw [List.length_append, List.length_take]
  omega

theorem keeps_killToEnd (h : Sound history line) : Keeps history line line.killToEnd := by
  have hcursor := h.cursor
  rw [killToEnd_eq]
  refine keeps_edit ?_
  rw [List.length_take]
  omega

theorem keeps_deleteWord (h : Sound history line) : Keeps history line line.deleteWord := by
  have hcursor := h.cursor
  obtain ⟨start, hle, heq⟩ := deleteWord_eq h.cursor
  rw [heq]
  refine keeps_edit ?_
  rw [List.length_append, List.length_take]
  omega

theorem keeps_historyUp (h : Sound history line) : Keeps history line (line.historyUp history) := by
  obtain ⟨line', heq, hnext, hvi, -⟩ := historyUp_spec h
  exact ⟨line', heq, hnext, hvi⟩

theorem keeps_historyDown (h : Sound history line) :
    Keeps history line (line.historyDown history) := by
  obtain ⟨line', heq, hnext, hvi, -⟩ := historyDown_spec h
  exact ⟨line', heq, hnext, hvi⟩

theorem keeps_right : Keeps history line (some line.right) := keeps_edit (Nat.min_le_right _ _)

theorem keeps_left (h : Sound history line) : Keeps history line (some line.left) :=
  keeps_edit ((Nat.sub_le _ _).trans h.cursor)

/-- What a default key leaves, unless it closes the prompt. -/
def Handles (history : List (List Char)) (line : PromptLine) (handled : Option Outcome) : Prop :=
  ∃ outcome, handled = some outcome ∧
    ∀ line', outcome = .edited line' → Next history line line' ∧ line'.vi = line.vi

theorem Keeps.handles {op : Option PromptLine} (h : Keeps history line op) :
    Handles history line (op.map Outcome.edited) := by
  obtain ⟨line', rfl, hnext, hvi⟩ := h
  refine ⟨_, rfl, fun other hother ↦ ?_⟩
  obtain rfl := Outcome.edited.inj hother
  exact ⟨hnext, hvi⟩

theorem handles_cancelled : Handles history line (some .cancelled) :=
  ⟨_, rfl, fun _ h ↦ Outcome.noConfusion h⟩

theorem keeps_home : Keeps history line (some line.home) := keeps_edit (Nat.zero_le _)

theorem keeps_end : Keeps history line (some line.end) := keeps_edit (Nat.le_refl _)

theorem keeps_killToStart : Keeps history line line.killToStart := by
  rw [killToStart_eq]
  exact keeps_edit (Nat.zero_le _)

theorem handles_defaultCtrl (h : Sound history line) (ch : Char) :
    Handles history line (defaultCtrl line history ch) := by
  unfold defaultCtrl
  split
  · exact handles_cancelled
  · exact handles_cancelled
  · exact (keeps_backspace h).handles
  · exact (keeps_delete h).handles
  · exact (keeps_left h).handles
  · exact keeps_right.handles
  · exact keeps_home.handles
  · exact keeps_end.handles
  · exact keeps_killToStart.handles
  · exact (keeps_killToEnd h).handles
  · exact (keeps_deleteWord h).handles
  · exact (keeps_historyUp h).handles
  · exact (keeps_historyDown h).handles
  · exact (keeps_edit h.cursor).handles

theorem handles_defaultKey (h : Sound history line) (key : KeyEvent) :
    Handles history line (defaultKey line history lossy key) := by
  have hsame : Handles history line (some (.edited line)) := (keeps_edit h.cursor).handles
  cases key with
  | enter => exact ⟨_, rfl, fun _ h ↦ Outcome.noConfusion h⟩
  | escape => exact handles_cancelled
  | ctrl ch => exact handles_defaultCtrl h ch
  | char ch => exact (keeps_insert h _).handles
  | bytes bytes => exact (keeps_insert h _).handles
  | backspace => exact (keeps_backspace h).handles
  | delete => exact (keeps_delete h).handles
  | left => exact (keeps_left h).handles
  | right => exact keeps_right.handles
  | home => exact keeps_home.handles
  | «end» => exact keeps_end.handles
  | up => exact (keeps_historyUp h).handles
  | down => exact (keeps_historyDown h).handles
  | tab => exact hsame
  | alt ch => exact hsame
  | insert => exact hsame
  | pageUp => exact hsame
  | pageDown => exact hsame
  | key code mods => exact hsame

/-! ## Vi keys -/

/-- An operation that does not panic. -/
def Commands (history : List (List Char)) (line : PromptLine) (op : Option PromptLine) : Prop :=
  ∃ line', op = some line' ∧ Next history line line'

theorem Keeps.commands {op : Option PromptLine} (h : Keeps history line op) :
    Commands history line op := by
  obtain ⟨line', heq, hnext, -⟩ := h
  exact ⟨line', heq, hnext⟩

theorem Next.setVi (h : Next history line line') (mode : ViMode) :
    Next history line (line'.setVi mode) := by
  obtain ⟨hcursor, hbrowse⟩ := h
  refine ⟨hcursor, ?_⟩
  cases hbrowse with
  | stay index draft => exact .stay index draft
  | «begin» i entry index index' draft => exact .begin i entry index index' draft
  | move i j entry index index' draft => exact .move i j entry index index' draft
  | finish i index index' input => exact .finish i index index' input

theorem viCommand_spec (h : Sound history line) (ch : Char) :
    Commands history line (viCommand alphanumeric line history ch) := by
  have hset (mode : ViMode) {op : Option PromptLine} (hop : Keeps history line op) :
      Commands history line (op.map (·.setVi mode)) := by
    obtain ⟨line', rfl, hnext, -⟩ := hop
    exact ⟨_, rfl, hnext.setVi mode⟩
  unfold viCommand
  split
  · exact (keeps_left h).commands
  · exact keeps_right.commands
  · exact keeps_home.commands
  · exact keeps_end.commands
  · exact (keeps_edit (nextWordStart_bounds alphanumeric h.cursor).2).commands
  · obtain ⟨start, hle, hstart⟩ := previousWordStart_eq alphanumeric line
    rw [hstart]
    exact (keeps_edit hle).commands
  · exact (keeps_edit (nextWordEnd_le alphanumeric)).commands
  · exact (keeps_delete h).commands
  · exact (keeps_killToEnd h).commands
  · exact hset .insert (keeps_killToEnd h)
  · exact hset .insert (keeps_edit h.cursor)
  · exact hset .insert keeps_right
  · exact hset .insert keeps_end
  · exact hset .insert keeps_home
  · exact (keeps_historyUp h).commands
  · exact (keeps_historyDown h).commands
  · exact ⟨_, rfl, h.cursor, .stay rfl rfl⟩
  · exact ⟨_, rfl, h.cursor, .stay rfl rfl⟩
  · exact (keeps_edit h.cursor).commands

theorem viOperator_spec (h : Sound history line) (operator motion : Char) :
    Commands history line (viOperator alphanumeric line operator motion) := by
  have hcursor := h.cursor
  rw [viOperator]
  dsimp only
  split
  · exact ⟨_, rfl, hcursor, .stay rfl rfl⟩
  · generalize hfinish : (if operator = 'c' ∧
        (line.setVi .normal).input[(line.setVi .normal).cursor]?.any (!isWhitespace ·) = true then
      wordEndFrom alphanumeric (line.setVi .normal) (line.setVi .normal).cursor + 1
      else nextWordStart alphanumeric (line.setVi .normal)) = finish
    have hle : line.cursor ≤ finish := by
      rw [← hfinish]
      split
      · next hword =>
        have hin : line.cursor < (line.setVi .normal).input.length := by
          by_contra hout
          have hnone : (line.setVi .normal).input[line.cursor]? = none :=
            List.getElem?_eq_none (Nat.le_of_not_lt hout)
          have hany := hword.2
          rw [show (line.setVi .normal).cursor = line.cursor from rfl, hnone] at hany
          cases hany
        exact (wordEndFrom_bounds alphanumeric hin).1.trans (Nat.le_succ _)
      · exact (nextWordStart_bounds alphanumeric (show (line.setVi .normal).cursor ≤ _ from hcursor)).1
    have hbound (rest : List Char) : line.cursor ≤ (line.input.take line.cursor ++ rest).length := by
      rw [List.length_append, List.length_take]
      omega
    have hcut := replaceRange_take line.input [] hle
    rw [List.append_nil] at hcut
    rw [byteIndex_eq, byteIndex_eq, show (line.setVi .normal).input = line.input from rfl,
      show (line.setVi .normal).cursor = line.cursor from rfl, hcut]
    dsimp only [Option.bind_eq_bind, Option.bind_some]
    split
    · exact ⟨_, rfl, hbound _, .stay rfl rfl⟩
    · exact ⟨_, rfl, hbound _, .stay rfl rfl⟩

theorem Next.clampNormalCursor (h : Next history line line') :
    Next history line line'.clampNormalCursor := by
  obtain ⟨hcursor, hbrowse⟩ := h
  rw [PromptLine.clampNormalCursor]
  split
  · refine ⟨(Nat.min_le_left _ _).trans hcursor, ?_⟩
    cases hbrowse with
    | stay index draft => exact .stay index draft
    | «begin» i entry index index' draft => exact .begin i entry index index' draft
    | move i j entry index index' draft => exact .move i j entry index index' draft
    | finish i index index' input => exact .finish i index index' input
  · exact ⟨hcursor, hbrowse⟩

theorem viChar_spec (h : Sound history line) (pending : Option Char) (ch : Char) :
    Commands history line (viChar alphanumeric line history pending ch) := by
  cases pending with
  | none => exact viCommand_spec alphanumeric h ch
  | some operator => exact viOperator_spec alphanumeric h operator ch

/-- What the vi key table leaves, of which the text and the history are as they were if it does not take
the key. -/
theorem viKey_spec (h : Sound history line) (key : KeyEvent) :
    ∃ taken line', viKey alphanumeric line history key = some (taken, line') ∧
      Next history line line' ∧ (taken = false → line' = line ∨ line' = line.setVi .normal) := by
  have hset : Next history line (line.setVi .normal) := ⟨h.cursor, .stay rfl rfl⟩
  have hsame : Next history line line := ⟨h.cursor, .stay rfl rfl⟩
  rw [viKey]
  split
  · exact ⟨false, line, rfl, hsame, fun _ ↦ .inl rfl⟩
  · split
    · exact ⟨true, _, rfl, ⟨(Nat.sub_le _ _).trans h.cursor, .stay rfl rfl⟩, Bool.noConfusion⟩
    · exact ⟨false, line, rfl, hsame, fun _ ↦ .inl rfl⟩
  · next pending hvi =>
    split
    · next ch =>
      obtain ⟨line', hline', hnext⟩ := viChar_spec alphanumeric h pending ch
      rw [hline']
      exact ⟨true, _, rfl, hnext.clampNormalCursor, Bool.noConfusion⟩
    · exact ⟨_, _, rfl, hset, fun _ ↦ .inr rfl⟩

/-- What follows a key that the vi table does not take follows from the line before it. -/
theorem Next.of_setVi {mode : ViMode} (h : Next history (line.setVi mode) line') :
    Next history line line' := by
  obtain ⟨hcursor, hbrowse⟩ := h
  refine ⟨hcursor, ?_⟩
  cases hbrowse with
  | stay index draft => exact .stay index draft
  | «begin» i entry index index' draft => exact .begin i entry index index' draft
  | move i j entry index index' draft => exact .move i j entry index index' draft
  | finish i index index' input => exact .finish i index index' input

/-- No key panics, and what it leaves keeps its cursor and its place in the history. -/
theorem handlePromptKey_spec (h : Sound history line) (key : KeyEvent) :
    ∃ outcome, handlePromptKey alphanumeric line history lossy key = some outcome ∧
      ∀ line', outcome = .edited line' → Next history line line' := by
  obtain ⟨taken, left, hleft, hnext, hpassed⟩ := viKey_spec alphanumeric h key
  rw [handlePromptKey, hleft]
  dsimp only [Option.bind_eq_bind, Option.bind_some]
  cases taken with
  | true =>
    refine ⟨_, rfl, fun line' hedited ↦ ?_⟩
    obtain rfl := Outcome.edited.inj hedited
    exact hnext
  | false =>
    rw [if_neg Bool.false_ne_true]
    obtain ⟨outcome, houtcome, hline'⟩ := handles_defaultKey lossy (h.next hnext) key
    refine ⟨outcome, houtcome, fun line' hedited ↦ ?_⟩
    obtain ⟨hnext', -⟩ := hline' line' hedited
    rcases hpassed rfl with rfl | rfl
    · exact hnext'
    · exact hnext'.of_setVi

theorem step_spec (h : Sound history line) (input : PromptInput) :
    ∃ left, step alphanumeric lossy history line input = some left ∧
      ∀ line', left = some line' → Next history line line' := by
  cases input with
  | key key =>
    obtain ⟨outcome, houtcome, hnext⟩ := handlePromptKey_spec alphanumeric lossy h key
    rw [step, houtcome]
    refine ⟨_, rfl, fun line' hleft ↦ ?_⟩
    cases outcome with
    | edited line => exact hnext line' (congrArg Outcome.edited (Option.some_inj.mp hleft))
    | committed => cases hleft
    | cancelled => cases hleft
  | paste bytes =>
    obtain ⟨line', hline', hnext, -⟩ := keeps_insert h (lossy bytes)
    rw [step, hline']
    refine ⟨_, rfl, fun other hother ↦ ?_⟩
    obtain rfl := Option.some_inj.mp hother
    exact hnext

/-- No run panics, and the cursor stays within the line. -/
theorem run_spec (h : Sound history line) (inputs : List PromptInput) :
    ∃ left, run alphanumeric lossy history line inputs = some left ∧
      ∀ line', left = some line' → Sound history line' := by
  induction inputs generalizing line with
  | nil =>
    refine ⟨_, rfl, fun line' hleft ↦ ?_⟩
    obtain rfl := Option.some_inj.mp hleft
    exact h
  | cons input inputs ih =>
    obtain ⟨left, hleft, hnext⟩ := step_spec alphanumeric lossy h input
    rw [run, hleft, Option.bind_some]
    cases left with
    | none => exact ⟨none, rfl, fun _ hnone ↦ by cases hnone⟩
    | some line' => exact ih (h.next (hnext line' rfl))

/-! ## The cursor in normal mode -/

theorem onCharacter_of_vi (h : line.viMode ≠ some .normal) : OnCharacter line :=
  fun hnormal ↦ absurd hnormal h

theorem onCharacter_iff (h : line.viMode = some .normal) :
    OnCharacter line ↔ (line.input ≠ [] → line.cursor < line.input.length) :=
  ⟨fun hon ↦ hon h, fun hon _ ↦ hon⟩

theorem onCharacter_clamp (line : PromptLine) : OnCharacter line.clampNormalCursor := by
  rw [PromptLine.clampNormalCursor]
  split
  · intro _ hfilled
    have hpos := List.length_pos_iff.mpr hfilled
    refine (Nat.min_le_right _ _).trans_lt ?_
    exact Nat.sub_one_lt hpos.ne'
  · next hvi => exact onCharacter_of_vi hvi

/-- A text shown, with the cursor at its end, has it on a character only when there is none. -/
theorem onCharacter_atEnd (h : line.viMode = some .normal) (hcursor : line.cursor = line.input.length) :
    OnCharacter line ↔ line.input = [] := by
  rw [onCharacter_iff h, hcursor]
  exact ⟨fun hon ↦ by_contra fun hfilled ↦ Nat.lt_irrefl _ (hon hfilled),
    fun hempty hfilled ↦ absurd hempty hfilled⟩

theorem edited_inj {op : Option PromptLine}
    (h : op.map Outcome.edited = some (.edited line')) : op = some line' := by
  cases op with
  | none => cases h
  | some line => exact congrArg some (Outcome.edited.inj (Option.some_inj.mp h))

/-- An entry that is shown has the cursor at its end. -/
theorem onCharacter_shown {entry : Option (List Char)} (hnormal : line'.viMode = some .normal)
    (hon : OnCharacter line)
    (h : entry = none ∧ line' = line ∨
      ∃ text, entry = some text ∧ line'.input = text ∧ line'.cursor = text.length) :
    OnCharacter line' ↔ ¬∃ text ∈ entry, text ≠ [] := by
  rcases h with ⟨rfl, rfl⟩ | ⟨text, rfl, rfl, hcursor⟩
  · exact iff_of_true hon fun hsome ↦ by
      obtain ⟨text, htext, -⟩ := hsome
      cases htext
  · rw [onCharacter_atEnd hnormal hcursor]
    constructor
    · rintro hempty ⟨text, htext, hfilled⟩
      obtain rfl := Option.some_inj.mp htext
      exact hfilled hempty
    · intro hnone
      by_contra hfilled
      exact hnone ⟨_, rfl, hfilled⟩

/-- A default key in normal mode leaves the cursor on a character unless it slips. -/
theorem onCharacter_defaultKey (h : Sound history line) (hnormal : line.viMode = some .normal)
    (hon : OnCharacter line) {key : KeyEvent} (hkey : key ∈ passedOn)
    (hedited : defaultKey line history lossy key = some (.edited line')) :
    OnCharacter line' ↔ ¬GoesPast lossy history line (.key key) := by
  have hcursor := h.cursor
  have hfilled (text : List Char) : text ≠ [] ↔ 0 < text.length := List.length_pos_iff.symm
  have hin : 0 < line.input.length → line.cursor < line.input.length := by
    rw [← hfilled]
    exact hon hnormal
  simp only [passedOn, List.mem_cons, List.not_mem_nil, or_false] at hkey
  rcases hkey with rfl | rfl | rfl | rfl | rfl | rfl | rfl | rfl | rfl | rfl | rfl | rfl
  · cases hedited
  · cases hedited
  · cases hedited
  · cases hedited
  · -- left
    obtain rfl := Outcome.edited.inj (Option.some_inj.mp hedited)
    refine iff_of_true (fun _ hne ↦ ?_) id
    exact (Nat.sub_le _ _).trans_lt (hin ((hfilled _).mp hne))
  · -- right
    obtain rfl := Outcome.edited.inj (Option.some_inj.mp hedited)
    rw [GoesPast, onCharacter_iff (show line.right.viMode = some .normal from hnormal), hfilled,
      right]
    dsimp only
    omega
  · -- up
    obtain ⟨shown, hshown, -, hvi, hentry⟩ := historyUp_spec h
    obtain rfl := Option.some_inj.mp (hshown.symm.trans (edited_inj hedited))
    exact onCharacter_shown (by rw [viMode, hvi]; exact hnormal) hon hentry
  · -- down
    obtain ⟨shown, hshown, -, hvi, hentry⟩ := historyDown_spec h
    obtain rfl := Option.some_inj.mp (hshown.symm.trans (edited_inj hedited))
    exact onCharacter_shown (by rw [viMode, hvi]; exact hnormal) hon hentry
  · -- home
    obtain rfl := Outcome.edited.inj (Option.some_inj.mp hedited)
    exact iff_of_true (fun _ hne ↦ List.length_pos_iff.mpr hne) id
  · -- end
    obtain rfl := Outcome.edited.inj (Option.some_inj.mp hedited)
    rw [GoesPast, onCharacter_atEnd (show line.end.viMode = some .normal from hnormal) rfl, not_not]
    rfl
  · -- backspace
    obtain rfl := Option.some_inj.mp (backspace_eq.symm.trans (edited_inj hedited))
    refine iff_of_true (fun _ hne ↦ ?_) id
    rw [hfilled] at hne
    simp only [List.length_append, List.length_take, List.length_drop] at hne ⊢
    omega
  · -- delete
    obtain rfl := Option.some_inj.mp (delete_eq.symm.trans (edited_inj hedited))
    have hlen : (line.input.take line.cursor ++ line.input.drop (line.cursor + 1)).length =
        line.cursor + (line.input.length - (line.cursor + 1)) := by
      rw [List.length_append, List.length_take, List.length_drop, Nat.min_eq_left hcursor]
    refine (onCharacter_iff ?_).trans ?_
    · exact hnormal
    · rw [GoesPast, hfilled]
      dsimp only
      omega

theorem goesPast_setVi (mode : ViMode) (key : KeyEvent) :
    GoesPast lossy history (line.setVi mode) (.key key) ↔ GoesPast lossy history line (.key key) := by
  cases key <;> exact Iff.rfl

theorem mem_passedOn {key : KeyEvent} (h : GoesPast lossy history line (.key key)) :
    key ∈ passedOn := by
  cases key <;> first | decide | exact absurd h id

/-- A key leaves the cursor on a character in normal mode unless it slips. -/
theorem onCharacter_key (h : Sound history line) (hon : OnCharacter line) {key : KeyEvent}
    (hedited : handlePromptKey alphanumeric line history lossy key = some (.edited line')) :
    OnCharacter line' ↔ ¬Slips lossy history line (.key key) := by
  have hslips (hmode : line.viMode ≠ some .normal) : ¬Slips lossy history line (.key key) :=
    fun hslip ↦ hmode hslip.1
  have hdefault (hmode : line.viMode ≠ some .normal)
      (hkey : defaultKey line history lossy key = some (.edited line')) : OnCharacter line' := by
    obtain ⟨outcome, houtcome, hkept⟩ := handles_defaultKey lossy h key
    obtain rfl := Option.some_inj.mp (hkey.symm.trans houtcome)
    refine onCharacter_of_vi ?_
    rw [viMode, (hkept line' rfl).2]
    exact hmode
  rw [handlePromptKey, viKey] at hedited
  split at hedited
  · next hvi =>
    have hmode : line.viMode ≠ some .normal := by
      rw [viMode, hvi]
      exact (Option.some_ne_none _).symm
    exact iff_of_true (hdefault hmode hedited) (hslips hmode)
  · next hvi =>
    have hmode : line.viMode ≠ some .normal := by
      rw [viMode, hvi]
      exact fun hmode ↦ ViMode.noConfusion (Option.some_inj.mp hmode)
    split at hedited
    · -- Escape steps back onto the last character.
      obtain rfl := Outcome.edited.inj (Option.some_inj.mp hedited)
      refine iff_of_true (fun _ hne ↦ ?_) (hslips hmode)
      have hpos := List.length_pos_iff.mpr hne
      have hcursor := h.cursor
      change line.cursor - 1 < line.input.length
      change 0 < line.input.length at hpos
      omega
    · exact iff_of_true (hdefault hmode hedited) (hslips hmode)
  · next hvi =>
    have hmode : line.viMode = some .normal := by
      rw [viMode, hvi]
      rfl
    split at hedited
    · next ch =>
      refine iff_of_true ?_ fun hslip ↦ hslip.2
      obtain ⟨left, hleft, -⟩ := viChar_spec alphanumeric h _ ch
      rw [hleft] at hedited
      obtain rfl := Outcome.edited.inj (Option.some_inj.mp hedited)
      exact onCharacter_clamp left
    · next hchar =>
      by_cases hkey : key ∈ passedOn
      · have hset : Sound history (line.setVi .normal) := ⟨h.cursor, h.index⟩
        have honSet : OnCharacter (line.setVi .normal) := fun _ ↦ hon hmode
        have hkept : defaultKey (line.setVi .normal) history lossy key = some (.edited line') := by
          simpa [hkey] using hedited
        rw [onCharacter_defaultKey lossy hset rfl honSet hkey hkept, goesPast_setVi]
        exact not_congr ⟨fun hpast ↦ ⟨hmode, hpast⟩, And.right⟩
      · have hsame : line.setVi .normal = line' := by simpa [hkey] using hedited
        subst hsame
        exact iff_of_true (fun _ ↦ hon hmode) fun hslip ↦ hkey (mem_passedOn lossy hslip.2)

theorem onCharacter_paste (h : Sound history line) (hon : OnCharacter line) {bytes : List UInt8}
    (hpasted : line.insert (lossy bytes) = some line') :
    OnCharacter line' ↔ ¬Slips lossy history line (.paste bytes) := by
  have hcursor := h.cursor
  obtain rfl := Option.some_inj.mp ((insert_eq (lossy bytes)).symm.trans hpasted)
  by_cases hmode : line.viMode = some .normal
  · have hin := hon hmode
    have hfilled (text : List Char) : text ≠ [] ↔ 0 < text.length := List.length_pos_iff.symm
    have hempty : line.input = [] ↔ line.input.length = 0 := List.length_eq_zero_iff.symm
    refine (onCharacter_iff ?_).trans ?_
    · exact hmode
    · rw [hfilled] at hin
      rw [Slips, GoesPast, hfilled, hfilled, hempty, List.length_append, List.length_append,
        List.length_take, List.length_drop, List.length_map, and_iff_right hmode]
      dsimp only
      omega
  · exact iff_of_true (fun hmode' ↦ absurd hmode' hmode) fun hslip ↦ hmode hslip.1

theorem onCharacter_step (h : Sound history line) (hon : OnCharacter line) {input : PromptInput}
    (hstep : step alphanumeric lossy history line input = some (some line')) :
    OnCharacter line' ↔ ¬Slips lossy history line input := by
  cases input with
  | key key =>
    rw [step] at hstep
    obtain ⟨outcome, houtcome, hleft⟩ := Option.map_eq_some_iff.mp hstep
    cases outcome with
    | edited line =>
      obtain rfl := Option.some_inj.mp hleft
      exact onCharacter_key alphanumeric lossy h hon houtcome
    | committed => cases hleft
    | cancelled => cases hleft
  | paste bytes =>
    rw [step] at hstep
    obtain ⟨pasted, hpasted, hleft⟩ := Option.map_eq_some_iff.mp hstep
    obtain rfl := Option.some_inj.mp hleft
    exact onCharacter_paste lossy h hon hpasted

end Steps

/-- No key or paste of a run slips. -/
def NeverSlips : PromptLine → List PromptInput → Prop
  | _, [] => True
  | line, input :: inputs =>
    ∀ line', step alphanumeric lossy history line input = some (some line') →
      ¬Slips lossy history line input ∧ NeverSlips line' inputs

section Runs

variable {history} {line line' last : PromptLine}

/-- The cursor is on a character throughout a run that never slips, and no other. -/
theorem onCharacter_run (h : Sound history line) (hon : OnCharacter line)
    (inputs : List PromptInput) :
    (∀ before after line', inputs = before ++ after →
      run alphanumeric lossy history line before = some (some line') → OnCharacter line') ↔
      NeverSlips alphanumeric lossy history line inputs := by
  induction inputs generalizing line with
  | nil =>
    refine iff_of_true (fun before after line' hinputs hrun ↦ ?_) trivial
    obtain ⟨rfl, -⟩ := List.append_eq_nil_iff.mp hinputs.symm
    obtain rfl := Option.some_inj.mp (Option.some_inj.mp hrun)
    exact hon
  | cons input inputs ih =>
    constructor
    · intro hall line' hstep
      have hone : run alphanumeric lossy history line [input] = some (some line') := by
        rw [run, hstep]
        rfl
      have hon' := hall [input] inputs line' rfl hone
      obtain ⟨left, hleft, hnext⟩ := step_spec alphanumeric lossy h input
      have hsound := h.next (hnext line' (Option.some_inj.mp (hleft.symm.trans hstep)))
      refine ⟨(onCharacter_step alphanumeric lossy h hon hstep).mp hon', (ih hsound hon').mp ?_⟩
      rintro before after last rfl hrun
      refine hall (input :: before) after last rfl ?_
      rw [run, hstep]
      exact hrun
    · intro hnever before after last hinputs hrun
      cases before with
      | nil =>
        obtain rfl := Option.some_inj.mp (Option.some_inj.mp hrun)
        exact hon
      | cons first before =>
        obtain ⟨rfl, rfl⟩ := List.cons_eq_cons.mp hinputs
        obtain ⟨left, hleft, hnext⟩ := step_spec alphanumeric lossy h input
        rw [run, hleft, Option.bind_some] at hrun
        cases left with
        | none => cases hrun
        | some line' =>
          obtain ⟨hslips, hrest⟩ := hnever line' hleft
          have hon' := (onCharacter_step alphanumeric lossy h hon hleft).mpr hslips
          exact (ih (h.next (hnext line' rfl)) hon').mpr hrest before after last rfl hrun

end Runs

/-! ## Browsing -/

/-- From a line that shows an entry on, until the draft is shown again, whatever is done between. -/
inductive Browsed : PromptLine → PromptLine → Prop where
  | shown {line last : PromptLine} (input : PromptInput)
    (step_eq : step alphanumeric lossy history line input = some (some last))
    (index : last.historyIndex = none) : Browsed line last
  | more {line next last : PromptLine} (input : PromptInput)
    (step_eq : step alphanumeric lossy history line input = some (some next))
    (index : next.historyIndex ≠ none) (rest : Browsed next last) : Browsed line last

section Browsing

variable {history} {line line' last : PromptLine}

theorem browse_step (h : Sound history line) {input : PromptInput}
    (hstep : step alphanumeric lossy history line input = some (some line')) :
    Next history line line' := by
  obtain ⟨left, hleft, hnext⟩ := step_spec alphanumeric lossy h input
  exact hnext line' (Option.some_inj.mp (hleft.symm.trans hstep))

/-- The draft is kept until it is shown. -/
theorem Browsed.restores (hbrowsed : Browsed alphanumeric lossy history line last)
    (h : Sound history line) (hindex : line.historyIndex ≠ none) : last.input = line.draft := by
  induction hbrowsed with
  | shown input hstep hlast =>
    cases (browse_step alphanumeric lossy h hstep).browse with
    | stay index draft => exact absurd (index.symm.trans hlast) hindex
    | «begin» i entry index index' draft => exact absurd index hindex
    | move i j entry index index' draft => exact absurd (index'.symm.trans hlast) (Option.some_ne_none _)
    | finish i index index' input => exact input
  | more input hstep hnext rest ih =>
    have hnext' := browse_step alphanumeric lossy h hstep
    rw [ih (h.next hnext') hnext]
    cases hnext'.browse with
    | stay index draft => exact draft
    | «begin» i entry index index' draft => exact absurd index hindex
    | move i j entry index index' draft => exact draft
    | finish i index index' input => exact absurd index' hnext

/-- The text that was edited when browsing began is shown again. -/
theorem restores (h : Sound history line) (hindex : line.historyIndex = none) {input : PromptInput}
    (hstep : step alphanumeric lossy history line input = some (some line'))
    (hindex' : line'.historyIndex ≠ none)
    (hbrowsed : Browsed alphanumeric lossy history line' last) : last.input = line.input := by
  have hnext := browse_step alphanumeric lossy h hstep
  rw [hbrowsed.restores alphanumeric lossy (h.next hnext) hindex']
  cases hnext.browse with
  | stay index draft => exact absurd (index.trans hindex) hindex'
  | «begin» i entry index index' draft => exact draft
  | move i j entry index index' draft => cases hindex.symm.trans index
  | finish i index index' input => exact absurd index' hindex'

/-! ### Up, and down again -/

/-- How many entries the one shown is from the draft. -/
def depth (history : List (List Char)) (line : PromptLine) : ℕ :=
  line.historyIndex.elim 0 (history.length - ·)

/-- The text that the draft is, shown or kept. -/
structure Drafts (text : List Char) (line : PromptLine) : Prop where
  shown : line.historyIndex = none → line.input = text
  kept : line.historyIndex ≠ none → line.draft = text

/-- An arrow key goes to the default ones, in each mode. -/
theorem step_arrow (history : List (List Char)) (line : PromptLine) {key : KeyEvent} (hkey : key ∈ [.up, .down]) :
    ∃ start, (start = line ∨ start = line.setVi .normal) ∧
      handlePromptKey alphanumeric line history lossy key =
        defaultKey start history lossy key := by
  have hpassed : key ∈ passedOn := by
    rcases List.mem_pair.mp hkey with rfl | rfl
    · decide
    · decide
  have hescape : key ≠ .escape := by
    rintro rfl
    cases List.mem_pair.mp hkey with
    | inl h => cases h
    | inr h => cases h
  rw [handlePromptKey, viKey]
  split
  · exact ⟨line, .inl rfl, rfl⟩
  · rw [if_neg hescape]
    exact ⟨line, .inl rfl, rfl⟩
  · split
    · next ch =>
      cases List.mem_pair.mp hkey with
      | inl h => cases h
      | inr h => cases h
    · refine ⟨line.setVi .normal, .inr rfl, ?_⟩
      rw [show decide (key ∉ passedOn) = false from decide_eq_false (not_not.mpr hpassed)]
      rfl

theorem historyUp_drafts {text : List Char} (h : Sound history line) (hdrafts : Drafts text line) :
    ∃ line', line.historyUp history = some line' ∧ Sound history line' ∧ Drafts text line' ∧
      depth history line' = min (depth history line + 1) history.length := by
  obtain ⟨line', hline', hnext, -⟩ := historyUp_spec h
  refine ⟨line', hline', h.next hnext, ?_⟩
  rw [historyUp] at hline'
  rw [depth, depth]
  cases hindex : line.historyIndex with
  | none =>
    rw [hindex] at hline'
    dsimp only at hline'
    split at hline'
    · next hempty =>
      obtain rfl := Option.some_inj.mp hline'
      rw [hindex, hempty]
      exact ⟨hdrafts, rfl⟩
    · next hsome =>
      have hpos := List.length_pos_iff.mpr hsome
      rw [showEntry, List.getElem?_eq_getElem (by omega)] at hline'
      obtain rfl := Option.some_inj.mp hline'
      refine ⟨⟨fun hnone ↦ absurd hnone (Option.some_ne_none _), fun _ ↦ hdrafts.shown hindex⟩, ?_⟩
      change history.length - (history.length - 1) = min (0 + 1) history.length
      omega
  | some index =>
    have hin := h.index index hindex
    rw [hindex] at hline'
    cases index with
    | zero =>
      obtain rfl := Option.some_inj.mp hline'
      rw [hindex]
      refine ⟨hdrafts, ?_⟩
      change history.length - 0 = min (history.length - 0 + 1) history.length
      omega
    | succ index =>
      dsimp only at hline'
      rw [showEntry, List.getElem?_eq_getElem (by omega)] at hline'
      obtain rfl := Option.some_inj.mp hline'
      refine ⟨⟨fun hnone ↦ absurd hnone (Option.some_ne_none _), fun _ ↦ hdrafts.kept ?_⟩, ?_⟩
      · rw [hindex]
        exact Option.some_ne_none _
      · change history.length - index = min (history.length - (index + 1) + 1) history.length
        omega

theorem historyDown_drafts {text : List Char} (h : Sound history line) (hdrafts : Drafts text line) :
    ∃ line', line.historyDown history = some line' ∧ Sound history line' ∧ Drafts text line' ∧
      depth history line' = depth history line - 1 := by
  obtain ⟨line', hline', hnext, -⟩ := historyDown_spec h
  refine ⟨line', hline', h.next hnext, ?_⟩
  rw [historyDown] at hline'
  rw [depth, depth]
  cases hindex : line.historyIndex with
  | none =>
    rw [hindex] at hline'
    obtain rfl := Option.some_inj.mp hline'
    rw [hindex]
    exact ⟨hdrafts, rfl⟩
  | some index =>
    have hin := h.index index hindex
    have hkept : line.draft = text := hdrafts.kept (by rw [hindex]; exact Option.some_ne_none _)
    rw [hindex] at hline'
    dsimp only at hline'
    split at hline'
    · next hmore =>
      rw [showEntry, List.getElem?_eq_getElem hmore] at hline'
      obtain rfl := Option.some_inj.mp hline'
      refine ⟨⟨fun hnone ↦ absurd hnone (Option.some_ne_none _), fun _ ↦ hkept⟩, ?_⟩
      change history.length - (index + 1) = history.length - index - 1
      omega
    · obtain rfl := Option.some_inj.mp hline'
      refine ⟨⟨fun _ ↦ hkept, fun hsome ↦ absurd rfl hsome⟩, ?_⟩
      change 0 = history.length - index - 1
      omega

theorem step_arrow_drafts {text : List Char} {key : KeyEvent} (hkey : key ∈ [.up, .down])
    (op : PromptLine → Option PromptLine) (moves : ℕ → ℕ)
    (hdefault : ∀ start, defaultKey start history lossy key = (op start).map .edited)
    (hop : ∀ {start}, Sound history start → Drafts text start → ∃ line', op start = some line' ∧
      Sound history line' ∧ Drafts text line' ∧ depth history line' = moves (depth history start))
    (h : Sound history line) (hdrafts : Drafts text line) :
    ∃ line', step alphanumeric lossy history line (.key key) = some (some line') ∧
      Sound history line' ∧ Drafts text line' ∧
      depth history line' = moves (depth history line) := by
  obtain ⟨start, hstart, hhandled⟩ := step_arrow alphanumeric lossy history line hkey
  have hbegins : Sound history start ∧ Drafts text start ∧
      depth history start = depth history line := by
    rcases hstart with rfl | rfl
    · exact ⟨h, hdrafts, rfl⟩
    · exact ⟨⟨h.cursor, h.index⟩, ⟨hdrafts.shown, hdrafts.kept⟩, rfl⟩
  obtain ⟨line', hline', hsound, hkept, hdepth⟩ := hop hbegins.1 hbegins.2.1
  refine ⟨line', ?_, hsound, hkept, by rw [hdepth, hbegins.2.2]⟩
  rw [step, hhandled, hdefault, hline']
  rfl

theorem step_up {text : List Char} (h : Sound history line) (hdrafts : Drafts text line) :
    ∃ line', step alphanumeric lossy history line (.key .up) = some (some line') ∧
      Sound history line' ∧ Drafts text line' ∧
      depth history line' = min (depth history line + 1) history.length :=
  step_arrow_drafts alphanumeric lossy List.mem_cons_self (·.historyUp history)
    (fun k ↦ min (k + 1) history.length) (fun _ ↦ rfl) historyUp_drafts h hdrafts

theorem step_down {text : List Char} (h : Sound history line) (hdrafts : Drafts text line) :
    ∃ line', step alphanumeric lossy history line (.key .down) = some (some line') ∧
      Sound history line' ∧ Drafts text line' ∧ depth history line' = (depth history line).pred :=
  step_arrow_drafts alphanumeric lossy (List.mem_cons_of_mem _ List.mem_cons_self)
    (·.historyDown history) Nat.pred (fun _ ↦ rfl) historyDown_drafts h hdrafts

/-- Keys that all move by as much. -/
theorem run_replicate {text : List Char} (input : PromptInput) (moves : ℕ → ℕ)
    (hmoves : ∀ {line}, Sound history line → Drafts text line →
      ∃ line', step alphanumeric lossy history line input = some (some line') ∧
        Sound history line' ∧ Drafts text line' ∧ depth history line' = moves (depth history line))
    (n : ℕ) (rest : List PromptInput) (h : Sound history line) (hdrafts : Drafts text line) :
    ∃ line', run alphanumeric lossy history line (List.replicate n input ++ rest) =
        run alphanumeric lossy history line' rest ∧
      Sound history line' ∧ Drafts text line' ∧ depth history line' = moves^[n] (depth history line) := by
  induction n generalizing line with
  | zero => exact ⟨line, rfl, h, hdrafts, rfl⟩
  | succ n ih =>
    obtain ⟨next, hstep, hsound, hkept, hdepth⟩ := hmoves h hdrafts
    obtain ⟨last, hrun, hlast⟩ := ih hsound hkept
    refine ⟨last, ?_, by rw [Function.iterate_succ_apply, ← hdepth]; exact hlast⟩
    rw [List.replicate_succ, List.cons_append, run, hstep]
    exact hrun

theorem iterate_min_succ (len n : ℕ) : (fun k ↦ min (k + 1) len)^[n] 0 = min n len := by
  induction n with
  | zero => rw [Function.iterate_zero_apply, Nat.zero_min]
  | succ n ih =>
    rw [Function.iterate_succ_apply', ih]
    omega

/-- Up any number of times, and down as often as it takes, shows the text that was there. -/
theorem upDown_restores (h : Sound history line) (hindex : line.historyIndex = none) (n : ℕ) :
    ∃ last, run alphanumeric lossy history line (List.replicate n (.key .up) ++
        List.replicate (min n history.length) (.key .down)) = some (some last) ∧
      last.historyIndex = none ∧ last.input = line.input := by
  have hdrafts : Drafts line.input line := ⟨fun _ ↦ rfl, fun hsome ↦ absurd hindex hsome⟩
  have hdepth : depth history line = 0 := by
    rw [depth, hindex]
    rfl
  obtain ⟨top, hup, hsound, hkept, htop⟩ := run_replicate alphanumeric lossy
    (.key .up) (fun k ↦ min (k + 1) history.length)
    (step_up alphanumeric lossy) n
    (List.replicate (min n history.length) (.key .down)) h hdrafts
  obtain ⟨last, hdown, hsound', hkept', hlast⟩ := run_replicate alphanumeric lossy
    (.key .down) Nat.pred
    (step_down alphanumeric lossy) (min n history.length) [] hsound hkept
  rw [htop, hdepth, iterate_min_succ, Nat.pred_iterate, Nat.sub_self] at hlast
  have hnone : last.historyIndex = none := by
    rw [depth] at hlast
    cases hshown : last.historyIndex with
    | none => rfl
    | some index =>
      rw [hshown] at hlast
      have hin := hsound'.index index hshown
      change history.length - index = 0 at hlast
      omega
  rw [List.append_nil] at hdown
  exact ⟨last, hup.trans hdown, hnone, hkept'.shown hnone⟩

end Browsing

/-! ## A prompt from its opening -/

theorem sound_opened (keys : StatusKeys) (initial : List Char) :
    Sound history (opened keys initial) := by
  cases keys with
  | emacs => exact ⟨Nat.le_refl _, fun i hi ↦ by cases hi⟩
  | vi => exact ⟨Nat.le_refl _, fun i hi ↦ by cases hi⟩

theorem onCharacter_opened (keys : StatusKeys) (initial : List Char) :
    OnCharacter (opened keys initial) := by
  cases keys with
  | emacs => exact fun hnormal ↦ by cases hnormal
  | vi => exact fun hnormal ↦ by cases hnormal

/-- **A prompt's line.** No key and no paste panics, the cursor stays within the line, and browsing the
history gives the text back that was edited when it began. In vi normal mode the cursor is on a
character throughout if and only if no key or paste slips. -/
theorem prompt_runs (keys : StatusKeys) (initial : List Char) (inputs : List PromptInput) :
    (∃ left, run alphanumeric lossy history (opened keys initial) inputs = some left) ∧
      (∀ line, run alphanumeric lossy history (opened keys initial) inputs = some (some line) →
        line.cursor ≤ line.input.length ∧
          (line.historyIndex = none →
            (∀ input first last,
              step alphanumeric lossy history line input = some (some first) →
              first.historyIndex ≠ none → Browsed alphanumeric lossy history first last →
              last.input = line.input) ∧
              ∀ n, ∃ last, run alphanumeric lossy history line (List.replicate n (.key .up) ++
                  List.replicate (min n history.length) (.key .down)) = some (some last) ∧
                last.historyIndex = none ∧ last.input = line.input)) ∧
        ((∀ before after line, inputs = before ++ after →
          run alphanumeric lossy history (opened keys initial) before = some (some line) →
          OnCharacter line) ↔
          NeverSlips alphanumeric lossy history (opened keys initial) inputs) := by
  have hopened := sound_opened history keys initial
  obtain ⟨left, hrun, hsound⟩ := run_spec alphanumeric lossy hopened inputs
  refine ⟨⟨left, hrun⟩, fun line hline ↦ ?_,
    onCharacter_run alphanumeric lossy hopened (onCharacter_opened keys initial) inputs⟩
  have hkept := hsound line (Option.some_inj.mp (hrun.symm.trans hline))
  refine ⟨hkept.cursor, fun hindex ↦ ⟨fun input first last hstep hbrowsing hbrowsed ↦ ?_,
    fun n ↦ upDown_restores alphanumeric lossy hkept hindex n⟩⟩
  exact restores alphanumeric lossy hkept hindex hstep hbrowsing hbrowsed

/-- End in normal mode takes the cursor past the last character. -/
theorem end_goesPast :
    run (fun _ ↦ false) (fun _ ↦ []) [] (opened .vi ['a', 'b']) [.key .escape, .key .end] =
        some (some ⟨['a', 'b'], 2, none, [], some ⟨.normal, none⟩⟩) ∧
      ¬OnCharacter ⟨['a', 'b'], 2, none, [], some ⟨.normal, none⟩⟩ :=
  ⟨rfl, fun hon ↦ Nat.lt_irrefl 2 (hon rfl (List.cons_ne_nil _ _))⟩

end PromptLine

end Embers.Client
