import Mathlib

/-!
# Words of a command line

A command line is words with blanks between them. Outside of quotes and between double quotes a
backslash escapes: some letters and three octal digits stand for control characters, and any other
character for itself. Between single quotes every character stands for itself. A character that means
more than itself where it stands ends the reading, as does a quote or an escape left open.
-/

namespace CommandWords

inductive Part where
  | bare
  | double
  | single
  deriving DecidableEq

inductive Reading where
  /-- In a part, of which nothing has come yet while it is fresh. -/
  | plain (fresh : Bool)
  /-- After a backslash, and some octal digits. -/
  | escape (digits : List Char)
  deriving DecidableEq

structure State where
  words : List (List Char)
  /-- The word that is read, once it has begun. -/
  word : Option (List Char)
  part : Part
  reading : Reading
  deriving DecidableEq

def isBlank (c : Char) : Bool := c = ' ' ∨ c = '\t'

def isOctal (c : Char) : Bool := '0' ≤ c ∧ c ≤ '7'

/-- The character of three octal digits. -/
def octal (digits : List Char) : Char :=
  Char.ofNat (digits.foldl (fun n c ↦ 8 * n + (c.toNat - '0'.toNat)) 0)

/-- What a letter stands for after a backslash. -/
def letter (c : Char) : Char :=
  if c = 'n' then '\n' else if c = 't' then '\t' else if c = 'r' then '\r' else c

/-- The characters that mean more than themselves outside of quotes. -/
def specials : List Char := ['\n', ';', '#', '$', '{', '}']

namespace State

def push (s : State) (c : Char) : State :=
  { s with word := some (s.word.getD [] ++ [c]), reading := .plain false }

def escaping (s : State) (digits : List Char) : State := { s with reading := .escape digits }

def enter (s : State) (part : Part) : State :=
  { s with word := some (s.word.getD []), part, reading := .plain true }

def leave (s : State) : State := { s with part := .bare, reading := .plain false }

def endWord (s : State) : State :=
  { s with words := s.words ++ s.word.toList, word := none, reading := .plain true }

def stepBare (s : State) (fresh : Bool) (c : Char) : Option State :=
  if isBlank c then some s.endWord
  else if c = '\'' then some (s.enter .single)
  else if c = '"' then some (s.enter .double)
  else if c = '\\' then some (s.escaping [])
  else if c ∈ specials ∨ c = '~' ∧ fresh then none
  else some (s.push c)

def stepDouble (s : State) (fresh : Bool) (c : Char) : Option State :=
  if c = '"' then some s.leave
  else if c = '\\' then some (s.escaping [])
  else if c = '$' ∨ c = '~' ∧ fresh then none
  else some (s.push c)

def stepSingle (s : State) (c : Char) : Option State :=
  if c = '\'' then some s.leave else some (s.push c)

def stepEscape (s : State) (digits : List Char) (c : Char) : Option State :=
  if isOctal c then
    if digits.length = 2 then some (s.push (octal (digits ++ [c])))
    else some (s.escaping (digits ++ [c]))
  else if digits = [] then some (s.push (letter c))
  else none

/-- Read one character. -/
def step (s : State) (c : Char) : Option State :=
  match s.reading, s.part with
  | .escape digits, _ => s.stepEscape digits c
  | .plain fresh, .bare => s.stepBare fresh c
  | .plain fresh, .double => s.stepDouble fresh c
  | .plain _, .single => s.stepSingle c

def start : State := ⟨[], none, .bare, .plain true⟩

/-- Where a text leads. -/
def run (s : State) (text : List Char) : Option State := text.foldlM step s

end State

/-- The words of a line. -/
def split (line : List Char) : Option (List (List Char)) :=
  match State.start.run line with
  | some ⟨words, word, .bare, .plain _⟩ => some (words ++ word.toList)
  | _ => none

namespace State

variable {s : State} {c : Char} {text more : List Char}

@[simp] theorem run_nil (s : State) : s.run [] = some s := rfl

theorem run_cons (s : State) (c : Char) (text : List Char) :
    s.run (c :: text) = (s.step c).bind (·.run text) := rfl

theorem run_append (s : State) (text more : List Char) :
    s.run (text ++ more) = (s.run text).bind (·.run more) := List.foldlM_append

theorem push_escaping (s : State) (digits : List Char) (c : Char) :
    (s.escaping digits).push c = s.push c := rfl

/-- A character that is not an octal digit, after a backslash. -/
theorem run_letter (hbackslash : s.step '\\' = some (s.escaping [])) (hoctal : isOctal c = false) :
    s.run ['\\', c] = some (s.push (letter c)) := by
  have hletter : (s.escaping []).step c = some (s.push (letter c)) := by
    change (s.escaping []).stepEscape [] c = _
    rw [stepEscape, hoctal, if_neg Bool.false_ne_true, if_pos rfl, push_escaping]
  rw [run_cons, hbackslash, Option.bind_some, run_cons, hletter]
  rfl

theorem step_digit {digits : List Char} (hlen : digits.length ≠ 2) (hoctal : isOctal c = true) :
    (s.escaping digits).step c = some (s.escaping (digits ++ [c])) := by
  change (s.escaping digits).stepEscape digits c = _
  rw [stepEscape, if_pos hoctal, if_neg hlen]
  rfl

theorem step_lastDigit {digits : List Char} (hlen : digits.length = 2) (hoctal : isOctal c = true) :
    (s.escaping digits).step c = some (s.push (octal (digits ++ [c]))) := by
  change (s.escaping digits).stepEscape digits c = _
  rw [stepEscape, if_pos hoctal, if_pos hlen]
  rfl

/-- Three octal digits after a backslash. -/
theorem run_octal (hbackslash : s.step '\\' = some (s.escaping [])) {d e : Char}
    (hc : isOctal c = true) (hd : isOctal d = true) (he : isOctal e = true) :
    s.run ['\\', c, d, e] = some (s.push (octal [c, d, e])) := by
  have hone : [c].length ≠ 2 := show 1 ≠ 2 by decide
  have hfirst : (s.escaping []).step c = some (s.escaping [c]) := step_digit (by decide) hc
  have hsecond : (s.escaping [c]).step d = some (s.escaping [c, d]) := step_digit hone hd
  have hthird : (s.escaping [c, d]).step e = some (s.push (octal [c, d, e])) :=
    step_lastDigit rfl he
  rw [run_cons, hbackslash, Option.bind_some, run_cons, hfirst, Option.bind_some, run_cons,
    hsecond, Option.bind_some, run_cons, hthird]
  rfl

/-- Outside of single quotes a backslash escapes. -/
theorem step_backslash {fresh : Bool} (hreading : s.reading = .plain fresh)
    (hpart : s.part ≠ .single) : s.step '\\' = some (s.escaping []) := by
  obtain ⟨words, word, part, reading⟩ := s
  obtain rfl : reading = .plain fresh := hreading
  cases part with
  | bare => rfl
  | double => rfl
  | single => exact absurd rfl hpart

/-- A run of characters that stand for themselves. -/
theorem foldl_push (hword : s.word = some text) (hreading : s.reading = .plain false)
    (more : List Char) : more.foldl push s = { s with word := some (text ++ more) } := by
  induction more generalizing s text with
  | nil =>
    obtain ⟨words, word, part, reading⟩ := s
    obtain rfl : word = some text := hword
    rw [List.append_nil]
    rfl
  | cons c more ih =>
    have hpush : (s.push c).word = some (text ++ [c]) := by rw [push, hword]; rfl
    rw [List.foldl_cons, ih hpush rfl, List.append_assoc, push, hreading]
    rfl

theorem foldl_push_cons (s : State) (c : Char) (more : List Char) :
    (c :: more).foldl push s =
      { s with word := some (s.word.getD [] ++ c :: more), reading := .plain false } := by
  have hpush : (s.push c).word = some (s.word.getD [] ++ [c]) := rfl
  rw [List.foldl_cons, foldl_push hpush rfl, List.append_assoc]
  rfl

theorem step_single (fresh : Bool) (words : List (List Char)) (word : Option (List Char))
    (hquote : c ≠ '\'') :
    (State.mk words word .single (.plain fresh)).step c =
      some ⟨words, some (word.getD [] ++ [c]), .single, .plain false⟩ := by
  change (State.mk words word .single (.plain fresh)).stepSingle c = _
  rw [stepSingle, if_neg hquote]
  rfl

/-- Between single quotes, everything but a quote stands for itself. -/
theorem run_single (words : List (List Char)) (word : List Char) (fresh : Bool)
    (hquote : '\'' ∉ text) :
    ∃ fresh', (State.mk words (some word) .single (.plain fresh)).run text =
      some ⟨words, some (word ++ text), .single, .plain fresh'⟩ := by
  induction text generalizing word fresh with
  | nil => exact ⟨fresh, by rw [run_nil, List.append_nil]⟩
  | cons c text ih =>
    rw [List.mem_cons, not_or] at hquote
    obtain ⟨hc, htext⟩ := hquote
    obtain ⟨fresh', hrun⟩ := ih (word ++ [c]) false htext
    refine ⟨fresh', ?_⟩
    rw [run_cons, step_single _ _ _ (Ne.symm hc), Option.bind_some, Option.getD_some, hrun,
      List.append_assoc]
    rfl

end State

end CommandWords
