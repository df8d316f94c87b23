import Mathlib

/-!
# Words of a shell line

A shell reads a line as words with blanks between them. What is in quotes or after a backslash
stands for itself, so a word may hold blanks and quotes, or nothing. Shells differ in what a
backslash does between quotes and in the characters that need quotes.

`Rules.split` reads a line of words. It gives nothing for a line that is more than words: one with an
operator, an expansion or an open quote. `Rules.split_joined` says that words that are each spelt
right can be written after each other.
-/

namespace ShellWords

/-- How a shell reads the characters of a word. -/
structure Rules where
  /-- Characters that stand for themselves without quotes. -/
  plain : Char → Bool
  /-- What a backslash and a character stand for outside of quotes: nothing where they continue the
  line, and `none` where they do not stand for themselves. -/
  bare : Char → Option (List Char)
  /-- What they stand for between single quotes. With `none` the backslash stands for itself. -/
  single : Char → Option (List Char)
  /-- What they stand for between double quotes. -/
  double : Char → Option (List Char)
  /-- Begins an expansion between double quotes. -/
  expands : Char → Bool

inductive State where
  /-- Outside of quotes, in a word or between words. -/
  | bare (word : Option (List Char))
  | bareEscape (word : Option (List Char))
  | single (word : List Char)
  | singleEscape (word : List Char)
  | double (word : List Char)
  | doubleEscape (word : List Char)
  deriving DecidableEq

def isBlank (c : Char) : Bool := c = ' ' ∨ c = '\t'

namespace Rules

variable (r : Rules)

def readSingle (word : List Char) (c : Char) : State :=
  if c = '\'' then .bare (some word)
  else if c = '\\' then .singleEscape word
  else .single (word ++ [c])

def readDouble (word : List Char) (c : Char) : Option State :=
  if c = '"' then some (.bare (some word))
  else if c = '\\' then some (.doubleEscape word)
  else if r.expands c then none
  else some (.double (word ++ [c]))

/-- Read one character, with the word that it ends. -/
def step : State → Char → Option (State × Option (List Char))
  | .bare word, c =>
    if isBlank c then some (.bare none, word)
    else if c = '\'' then some (.single (word.getD []), none)
    else if c = '"' then some (.double (word.getD []), none)
    else if c = '\\' then some (.bareEscape word, none)
    else if r.plain c then some (.bare (some (word.getD [] ++ [c])), none)
    else none
  | .bareEscape word, c =>
    (r.bare c).map fun stands ↦
      if stands = [] then (.bare word, none) else (.bare (some (word.getD [] ++ stands)), none)
  | .single word, c => some (readSingle word c, none)
  | .singleEscape word, c =>
    match r.single c with
    | some stands => some (.single (word ++ stands), none)
    | none => some (readSingle (word ++ ['\\']) c, none)
  | .double word, c => (r.readDouble word c).map (·, none)
  | .doubleEscape word, c =>
    match r.double c with
    | some stands => some (.double (word ++ stands), none)
    | none => (r.readDouble (word ++ ['\\']) c).map (·, none)

/-- Read a text from a state, with the words that it ends. -/
def run : State → List Char → Option (State × List (List Char))
  | s, [] => some (s, [])
  | s, c :: text => do
    let (s', word) ← r.step s c
    let (last, words) ← run s' text
    pure (last, word.toList ++ words)

/-- The words of a line. -/
def split (line : List Char) : Option (List (List Char)) :=
  match r.run (.bare none) line with
  | some (.bare word, words) => some (words ++ word.toList)
  | _ => none

/-- From one state a text leads to another and ends no word. -/
def Leads (s : State) (text : List Char) (s' : State) : Prop := r.run s text = some (s', [])

/-- A text that is read as one word. -/
def Spells (text word : List Char) : Prop := r.Leads (.bare none) text (.bare (some word))

variable {r} {s s' s'' : State} {text more word : List Char} {c : Char}

theorem run_append (s : State) (text more : List Char) :
    r.run s (text ++ more) = (r.run s text).bind fun read ↦
      (r.run read.1 more).map fun rest ↦ (rest.1, read.2 ++ rest.2) := by
  induction text generalizing s with
  | nil => simp [run]
  | cons c text ih =>
    rw [List.cons_append, run, run]
    cases hstep : r.step s c with
    | none => rfl
    | some stepped =>
      have hrest := ih stepped.1
      cases hrun : r.run stepped.1 text with
      | none => simp_all
      | some read =>
        cases hmore : r.run read.1 more <;> simp_all

theorem Leads.refl (s : State) : r.Leads s [] s := rfl

theorem Leads.append (h : r.Leads s text s') (h' : r.Leads s' more s'') :
    r.Leads s (text ++ more) s'' := by
  rw [Leads] at h h' ⊢
  rw [run_append, h, Option.bind_some, h']
  rfl

/-- One character that ends no word. -/
theorem leads_step (h : r.step s c = some (s', none)) : r.Leads s [c] s' := by
  simp [Leads, run, h]

theorem Leads.cons (h : r.step s c = some (s', none)) (h' : r.Leads s' text s'') :
    r.Leads s (c :: text) s'' :=
  (leads_step h).append h'

/-! ## Spelling -/

/-- Characters that stand for themselves spell what they are. -/
theorem leads_plain (h : ∀ c ∈ text, r.plain c = true ∧ isBlank c = false ∧ c ∉ ['\'', '"', '\\']) :
    r.Leads (.bare (some word)) text (.bare (some (word ++ text))) := by
  induction text generalizing word with
  | nil =>
    rw [List.append_nil]
    exact .refl _
  | cons c text ih =>
    obtain ⟨hplain, hblank, hquotes⟩ := h c List.mem_cons_self
    simp only [List.mem_cons, List.not_mem_nil, or_false, not_or] at hquotes
    have hstep : r.step (.bare (some word)) c = some (.bare (some (word ++ [c])), none) := by
      simp [step, hplain, hblank, hquotes]
    have hrest := @ih (word ++ [c]) fun d hd ↦ h d (List.mem_cons_of_mem _ hd)
    rw [List.append_assoc, List.singleton_append] at hrest
    exact .cons hstep hrest

theorem spells_plain (hne : text ≠ [])
    (h : ∀ c ∈ text, r.plain c = true ∧ isBlank c = false ∧ c ∉ ['\'', '"', '\\']) :
    r.Spells text text := by
  cases text with
  | nil => exact absurd rfl hne
  | cons c text =>
    obtain ⟨hplain, hblank, hquotes⟩ := h c List.mem_cons_self
    simp only [List.mem_cons, List.not_mem_nil, or_false, not_or] at hquotes
    have hstep : r.step (.bare none) c = some (.bare (some [c]), none) := by
      simp [step, hplain, hblank, hquotes]
    exact .cons hstep (leads_plain fun d hd ↦ h d (List.mem_cons_of_mem _ hd))

/-- Between single quotes all but quotes and backslashes stand for themselves. -/
theorem leads_single (hquote : c ≠ '\'') (hbackslash : c ≠ '\\') :
    r.Leads (.single word) [c] (.single (word ++ [c])) :=
  leads_step (by simp [step, readSingle, hquote, hbackslash])

/-- The quotes are closed for an escaped character and opened again. -/
theorem leads_reopened (h : r.bare c = some [c]) :
    r.Leads (.single word) ['\'', '\\', c, '\''] (.single (word ++ [c])) := by
  have hclose : r.step (.single word) '\'' = some (.bare (some word), none) := rfl
  have hescape : r.step (.bare (some word)) '\\' = some (.bareEscape (some word), none) := rfl
  have hstands : r.step (.bareEscape (some word)) c = some (.bare (some (word ++ [c])), none) := by
    simp [step, h]
  have hopen : r.step (.bare (some (word ++ [c]))) '\'' = some (.single (word ++ [c]), none) := rfl
  exact .cons hclose (.cons hescape (.cons hstands (leads_step hopen)))

/-- What leads from an open quote to an open quote spells a word between two quotes. -/
theorem spells_single (h : r.Leads (.single []) text (.single word)) :
    r.Spells ('\'' :: text ++ ['\'']) word := by
  have hopen : r.step (.bare none) '\'' = some (.single [], none) := rfl
  have hclose : r.step (.single word) '\'' = some (.bare (some word), none) := rfl
  exact .append (.cons hopen h) (leads_step hclose)

/-! ## Lines -/

/-- Words that are spelt right can be written after each other. -/
theorem split_joined {α : Type*} {spelling : α → List Char} {word : α → List Char} {items : List α}
    (h : ∀ a ∈ items, r.Spells (spelling a) (word a)) :
    r.split ([' '].intercalate (items.map spelling)) = some (items.map word) := by
  have hrun : ∀ items : List α, items ≠ [] → (∀ a ∈ items, r.Spells (spelling a) (word a)) →
      ∃ words last, r.run (.bare none) ([' '].intercalate (items.map spelling)) =
        some (.bare (some last), words) ∧ words ++ [last] = items.map word := by
    intro items
    induction items with
    | nil => exact fun hne ↦ absurd rfl hne
    | cons a items ih =>
      intro _ h
      have ha : r.run (.bare none) (spelling a) = some (.bare (some (word a)), []) :=
        h a List.mem_cons_self
      rcases items with _ | ⟨b, items⟩
      · exact ⟨[], word a, by simpa [List.intercalate] using ha, rfl⟩
      · obtain ⟨words, last, hrun, hwords⟩ := ih (List.cons_ne_nil b items)
          fun a' ha' ↦ h a' (List.mem_cons_of_mem _ ha')
        have hblank : r.run (.bare (some (word a))) [' '] = some (.bare none, [word a]) := by
          rfl
        refine ⟨word a :: words, last, ?_, by rw [List.cons_append, hwords]; rfl⟩
        have hline : [' '].intercalate ((a :: b :: items).map spelling) =
            spelling a ++ ([' '] ++ [' '].intercalate ((b :: items).map spelling)) := by
          simp [List.intercalate]
        rw [hline, run_append, ha, Option.bind_some, run_append, hblank, Option.bind_some, hrun]
        rfl
  rcases items with _ | ⟨a, items⟩
  · rfl
  · obtain ⟨words, last, hlast, hwords⟩ := hrun (a :: items) (List.cons_ne_nil a items) h
    rw [split, hlast]
    simpa using hwords

/-! ## Two shells -/

/-- A POSIX shell. -/
def posix : Rules where
  plain c := c ∉ "|&;<>()$`\\\"' \t\n*?[#~".toList
  bare c := some (if c = '\n' then [] else [c])
  single _ := none
  double c := if c = '\n' then some [] else if c ∈ "$`\"\\".toList then some [c] else none
  expands c := c ∈ "$`".toList

/-- The character that a letter after a backslash stands for in fish. -/
def fishControl (c : Char) : Option Char :=
  match c with
  | 'a' => some '\x07'
  | 'b' => some '\x08'
  | 'e' => some '\x1b'
  | 'f' => some '\x0c'
  | 'n' => some '\n'
  | 'r' => some '\r'
  | 't' => some '\t'
  | 'v' => some '\x0b'
  | _ => none

/-- The shell fish. Escapes by a code are not words here. -/
def fish : Rules where
  plain c := c ∉ "|&;<>()$\\\"' \t\n*?[]{}#~^".toList
  bare c :=
    if c = '\n' then some []
    else if c ∈ "xXuUc01234567".toList then none
    else some [(fishControl c).getD c]
  single c := if c = '\'' ∨ c = '\\' then some [c] else none
  double c := if c = '\n' then some [] else if c ∈ "$\"\\".toList then some [c] else none
  expands c := c = '$'

end Rules

end ShellWords
