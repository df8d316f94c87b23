import Embers.Lib.ShellWords

/-!
# Command lines for a restored shell

A pane that is restored runs its program from a shell, which gets the program's arguments as a line.
Each argument is a word of the line. One with other than plain characters is put in single quotes,
and the quotes are closed for a quote or a backslash, where shells disagree about what they mean.
-/

namespace Embers.Server

open ShellWords

/-- `char::is_ascii_alphanumeric`. -/
def isAsciiAlphanumeric (c : Char) : Bool :=
  ('0' ≤ c && c ≤ '9') || ('A' ≤ c && c ≤ 'Z') || ('a' ≤ c && c ≤ 'z')

def isPlain (c : Char) : Bool := isAsciiAlphanumeric c || c ∈ "_-./:=@%+,".toList

/-- A character of a word in quotes. -/
def quotedChar (c : Char) : List Char :=
  if c = '\'' then "'\\''".toList
  else if c = '\\' then "'\\\\'".toList
  else [c]

def shellWord (arg : List Char) : List Char :=
  if arg ≠ [] ∧ arg.all isPlain then arg
  else '\'' :: arg.flatMap quotedChar ++ ['\'']

def shellCommandLine (argv : List (List Char)) : List Char := [' '].intercalate (argv.map shellWord)

/-- A shell that reads plain characters as they are, and an escaped quote or backslash. -/
structure Reads (r : Rules) : Prop where
  plain : ∀ c, isPlain c = true → r.plain c = true
  quote : r.bare '\'' = some ['\'']
  backslash : r.bare '\\' = some ['\\']

variable {r : Rules}

/-- A plain character is none of a list of others. -/
theorem notMem_of_isPlain {c : Char} {others : List Char} (h : ∀ d ∈ others, isPlain d = false)
    (hc : isPlain c = true) : c ∉ others := by
  intro hmem
  rw [h c hmem] at hc
  cases hc

theorem Reads.leads_quotedChar (h : Reads r) (word : List Char) (c : Char) :
    r.Leads (.single word) (quotedChar c) (.single (word ++ [c])) := by
  rw [quotedChar]
  split
  · next hquote =>
    subst hquote
    exact Rules.leads_reopened h.quote
  · next hquote =>
    split
    · next hbackslash =>
      subst hbackslash
      exact Rules.leads_reopened h.backslash
    · next hbackslash => exact Rules.leads_single hquote hbackslash

theorem Reads.leads_quoted (h : Reads r) (arg word : List Char) :
    r.Leads (.single word) (arg.flatMap quotedChar) (.single (word ++ arg)) := by
  induction arg generalizing word with
  | nil =>
    rw [List.append_nil]
    exact .refl _
  | cons c arg ih =>
    have hrest := ih (word ++ [c])
    rw [List.append_assoc, List.singleton_append] at hrest
    exact (h.leads_quotedChar word c).append hrest

theorem Reads.spells_shellWord (h : Reads r) (arg : List Char) : r.Spells (shellWord arg) arg := by
  rw [shellWord]
  split
  · next hplain =>
    refine Rules.spells_plain hplain.1 fun c hc ↦ ?_
    have hc : isPlain c = true := List.all_eq_true.mp hplain.2 c hc
    refine ⟨h.plain c hc, ?_, notMem_of_isPlain (by simp; decide) hc⟩
    have hblank : c ∉ [' ', '\t'] := notMem_of_isPlain (by simp; decide) hc
    simpa [isBlank] using hblank
  · exact Rules.spells_single (h.leads_quoted arg [])

theorem reads_posix : Reads Rules.posix := by
  refine ⟨fun c hc ↦ ?_, rfl, rfl⟩
  have hspecial : c ∉ "|&;<>()$`\\\"' \t\n*?[#~".toList := notMem_of_isPlain (by simp; decide) hc
  exact decide_eq_true hspecial

theorem reads_fish : Reads Rules.fish := by
  refine ⟨fun c hc ↦ ?_, by decide, by decide⟩
  have hspecial : c ∉ "|&;<>()$\\\"' \t\n*?[]{}#~^".toList := notMem_of_isPlain (by simp; decide) hc
  exact decide_eq_true hspecial

/-- **A line for each shell.** A POSIX shell and fish both read the line of some arguments as these
arguments. -/
theorem split_shellCommandLine (argv : List (List Char)) :
    Rules.posix.split (shellCommandLine argv) = some argv ∧
      Rules.fish.split (shellCommandLine argv) = some argv := by
  have hposix := Rules.split_joined fun arg (_ : arg ∈ argv) ↦ reads_posix.spells_shellWord arg
  have hfish := Rules.split_joined fun arg (_ : arg ∈ argv) ↦ reads_fish.spells_shellWord arg
  rw [List.map_id'] at hposix hfish
  exact ⟨hposix, hfish⟩

/-- The line of the source's own test. -/
example : shellCommandLine (["less", "-R", "a b.txt", "it's", "$(x)", "c\\d", ""].map (·.toList)) =
    "less -R 'a b.txt' 'it'\\''s' '$(x)' 'c'\\\\'d' ''".toList := by
  decide

end Embers.Server
