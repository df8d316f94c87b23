import Embers.Core.Model
import Embers.Lib.CommandWords

/-!
# Option values as `show-options` prints them

A value is quoted the way tmux prints it, so that it reads back as one argument. Which quotes it gets is
decided by the characters in it; backslashes and control characters are escaped whatever the quotes.
-/

namespace Embers.Cli

open CommandWords CommandWords.State

def doubleQuoted : List Char := [' ', '#', '\'', ';', '$', '{', '}', '%']

def singleQuoted : List Char := [' ', '"']

/-- The quote around a value. -/
def quoteOf (value : List Char) : Option Char :=
  if value.any (· ∈ doubleQuoted) then some '"'
  else if value.any (· ∈ singleQuoted) then some '\''
  else none

/-- `{:03o}` -/
def formatOctal (n : ℕ) : List Char :=
  let digits := Nat.toDigits 8 n
  List.replicate (3 - digits.length) '0' ++ digits

def escapeChar (quote : Option Char) (ch : Char) : List Char :=
  if ch = '\\' then ['\\', '\\']
  else if ch = '\n' then ['\\', 'n']
  else if ch = '\t' then ['\\', 't']
  else if ch = '\r' then ['\\', 'r']
  else if (ch = '"' ∨ ch = '$') ∧ quote = some '"' then ['\\', ch]
  else if isControl ch then '\\' :: formatOctal ch.toNat
  else [ch]

/-- A value quoted the way tmux's `show-options` prints it. -/
def escape (value : List Char) : List Char :=
  if value = [] then ['\'', '\'']
  else
    let quote := quoteOf value
    let escaped := value.flatMap (escapeChar quote)
    let tilde := if escaped.head? = some '~' then ['\\'] else []
    match quote with
    | some '\'' => '\'' :: escaped ++ ['\'']
    | some _ => '"' :: (tilde ++ escaped) ++ ['"']
    | none => tilde ++ escaped

/-- The values that read back: one with a quotation mark, and nothing that double quotes are for, has
no backslash and no control character. -/
def ReadsBack (value : List Char) : Prop :=
  '"' ∈ value → (∀ ch ∈ value, ch ∉ doubleQuoted) →
    ∀ ch ∈ value, ch ≠ '\\' ∧ isControl ch = false

/-! ## Characters -/

theorem formatOctal_control :
    ∀ n < 0xa0, formatOctal n =
      [Nat.digitChar (n / 64), Nat.digitChar (n / 8 % 8), Nat.digitChar (n % 8)] := by
  decide +kernel

theorem octal_formatOctal : ∀ n < 0xa0, octal (formatOctal n) = Char.ofNat n := by
  decide +kernel

theorem isOctal_digitChar : ∀ n < 8, isOctal (Nat.digitChar n) = true := by decide

theorem run_formatOctal {s : State} (hbackslash : s.step '\\' = some (s.escaping [])) {ch : Char}
    (hcontrol : isControl ch = true) :
    s.run ('\\' :: formatOctal ch.toNat) = some (s.push ch) := by
  have hlow : ch.toNat < 0xa0 := by
    simp only [isControl, decide_eq_true_eq] at hcontrol
    omega
  have hread := octal_formatOctal ch.toNat hlow
  rw [Char.ofNat_toNat] at hread
  rw [formatOctal_control _ hlow] at hread ⊢
  have hrun := run_octal hbackslash (isOctal_digitChar (ch.toNat / 64) (by omega))
    (isOctal_digitChar (ch.toNat / 8 % 8) (by omega)) (isOctal_digitChar (ch.toNat % 8) (by omega))
  rw [hread] at hrun
  exact hrun

/-- A part that a value's quotes open, and a character that may be in it. -/
structure Fits (s : State) (quote : Option Char) (ch : Char) : Prop where
  parts : s.part = .bare ∧ quote = none ∨ s.part = .double ∧ quote = some '"'
  bare : s.part = .bare → ch ∉ doubleQuoted ∧ ch ∉ singleQuoted

namespace Fits

variable {s : State} {quote : Option Char} {ch : Char} {fresh : Bool}

theorem step_backslash (h : Fits s quote ch) (hreading : s.reading = .plain fresh) :
    s.step '\\' = some (s.escaping []) := by
  refine CommandWords.State.step_backslash hreading ?_
  obtain ⟨hpart, -⟩ | ⟨hpart, -⟩ := h.parts
  · rw [hpart]; decide
  · rw [hpart]; decide

/-- A character that the escape leaves as it is. -/
theorem step_plain (h : Fits s quote ch) (hreading : s.reading = .plain fresh)
    (htilde : ¬(ch = '~' ∧ fresh = true)) (hbackslash : ch ≠ '\\') (hnewline : ch ≠ '\n')
    (htab : ch ≠ '\t') (hescape : ¬((ch = '"' ∨ ch = '$') ∧ quote = some '"')) :
    s.step ch = some (s.push ch) := by
  obtain ⟨words, word, part, reading⟩ := s
  obtain rfl : reading = .plain fresh := hreading
  obtain ⟨rfl, rfl⟩ | ⟨rfl, rfl⟩ : part = .bare ∧ quote = none ∨ part = .double ∧ quote = some '"' :=
    h.parts
  · obtain ⟨hdouble, hsingle⟩ := h.bare rfl
    simp only [doubleQuoted, List.mem_cons, List.not_mem_nil, or_false, not_or] at hdouble
    simp only [singleQuoted, List.mem_cons, List.not_mem_nil, or_false, not_or] at hsingle
    change stepBare _ fresh ch = _
    have hblank : isBlank ch = false := by simp [isBlank, hdouble, htab]
    have hspecial : ¬(ch ∈ specials ∨ ch = '~' ∧ fresh = true) := by
      simp [specials, hdouble, hnewline, htilde]
    rw [stepBare, hblank, if_neg Bool.false_ne_true, if_neg hdouble.2.2.1, if_neg hsingle.2,
      if_neg hbackslash, if_neg hspecial]
  · have hplain : ch ≠ '"' ∧ ch ≠ '$' := by simpa using hescape
    change stepDouble _ fresh ch = _
    rw [stepDouble, if_neg hplain.1, if_neg hbackslash,
      if_neg (not_or.mpr ⟨hplain.2, htilde⟩)]

/-- Where the escape of a character leads. -/
theorem run_escapeChar (h : Fits s quote ch) (hreading : s.reading = .plain fresh)
    (htilde : ¬(ch = '~' ∧ fresh = true)) :
    s.run (escapeChar quote ch) = some (s.push ch) := by
  have hbackslash := h.step_backslash hreading
  unfold escapeChar
  split
  case isTrue heq => subst heq; exact run_letter hbackslash rfl
  case isFalse hne =>
  split
  case isTrue heq => subst heq; exact run_letter hbackslash rfl
  case isFalse hnewline =>
  split
  case isTrue heq => subst heq; exact run_letter hbackslash rfl
  case isFalse htab =>
  split
  case isTrue heq => subst heq; exact run_letter hbackslash rfl
  case isFalse hreturn =>
  split
  case isTrue heq =>
    obtain ⟨rfl | rfl, -⟩ := heq
    · exact run_letter hbackslash rfl
    · exact run_letter hbackslash rfl
  case isFalse hescape =>
  split
  case isTrue hcontrol => exact run_formatOctal hbackslash hcontrol
  case isFalse hcontrol =>
    rw [run_cons, h.step_plain hreading htilde hne hnewline htab hescape]
    rfl

end Fits

/-- Where the escape of a value leads, after its first character. -/
theorem run_escaped {s : State} {quote : Option Char} (hreading : s.reading = .plain false)
    {value : List Char} (hfits : ∀ ch ∈ value, Fits s quote ch) :
    s.run (value.flatMap (escapeChar quote)) = some (value.foldl push s) := by
  induction value generalizing s with
  | nil => rfl
  | cons ch value ih =>
    obtain ⟨hfirst, hrest⟩ := List.forall_mem_cons.mp hfits
    have htilde : ¬(ch = '~' ∧ false = true) := fun hand ↦ Bool.false_ne_true hand.2
    have hpush : ∀ other ∈ value, Fits (s.push ch) quote other := fun other hmem ↦
      ⟨(hrest other hmem).parts, (hrest other hmem).bare⟩
    rw [List.flatMap_cons, run_append, hfirst.run_escapeChar hreading htilde, Option.bind_some,
      ih rfl hpush, List.foldl_cons]

/-! ## Between single quotes -/

/-- A character that no escape is for, outside of double quotes. -/
def Literal (ch : Char) : Prop := ch ≠ '\\' ∧ isControl ch = false

theorem escapeChar_literal {quote : Option Char} (hquote : quote ≠ some '"') {ch : Char}
    (h : Literal ch) : escapeChar quote ch = [ch] := by
  obtain ⟨hbackslash, hcontrol⟩ := h
  have hnewline : ch ≠ '\n' := fun heq ↦ by subst heq; exact absurd hcontrol (by decide)
  have htab : ch ≠ '\t' := fun heq ↦ by subst heq; exact absurd hcontrol (by decide)
  have hreturn : ch ≠ '\r' := fun heq ↦ by subst heq; exact absurd hcontrol (by decide)
  rw [escapeChar, if_neg hbackslash, if_neg hnewline, if_neg htab, if_neg hreturn,
    if_neg fun hand ↦ hquote hand.2, hcontrol, if_neg Bool.false_ne_true]

theorem one_lt_length_escapeChar {quote : Option Char} {ch : Char} (h : ¬Literal ch) :
    1 < (escapeChar quote ch).length := by
  have hcontrol : ch ≠ '\\' → isControl ch = true := fun hne ↦
    Bool.of_not_eq_false fun hfalse ↦ h ⟨hne, hfalse⟩
  unfold escapeChar
  split_ifs with hbackslash
  · decide
  · decide
  · decide
  · decide
  · simp
  · have hlow : ch.toNat < 0xa0 := by
      have := hcontrol hbackslash
      simp only [isControl, decide_eq_true_eq] at this
      omega
    rw [formatOctal_control _ hlow]
    simp
  · exact absurd (hcontrol hbackslash) ‹_›

theorem one_le_length_escapeChar {quote : Option Char} (hquote : quote ≠ some '"') (ch : Char) :
    1 ≤ (escapeChar quote ch).length := by
  by_cases h : Literal ch
  · rw [escapeChar_literal hquote h]
    exact le_rfl
  · exact (one_lt_length_escapeChar h).le

/-- Outside of double quotes, the values that are escaped as themselves. -/
theorem flatMap_escapeChar_eq_self {quote : Option Char} (hquote : quote ≠ some '"')
    {value : List Char} :
    value.flatMap (escapeChar quote) = value ↔ ∀ ch ∈ value, Literal ch := by
  constructor
  · intro heq ch hmem
    by_contra hliteral
    have hlen : value.length < (value.flatMap (escapeChar quote)).length := by
      have hsum : (value.map fun _ ↦ 1).sum < (value.map (List.length ∘ escapeChar quote)).sum :=
        List.sum_lt_sum _ _ (fun ch _ ↦ one_le_length_escapeChar hquote ch)
          ⟨ch, hmem, one_lt_length_escapeChar hliteral⟩
      rw [List.map_const', List.sum_replicate, smul_eq_mul, mul_one] at hsum
      rw [List.length_flatMap]
      exact hsum
    rw [heq] at hlen
    exact lt_irrefl _ hlen
  · intro h
    induction value with
    | nil => rfl
    | cons ch value ih =>
      obtain ⟨hfirst, hrest⟩ := List.forall_mem_cons.mp h
      rw [List.flatMap_cons, escapeChar_literal hquote hfirst, ih hrest]
      rfl

/-- No escape has a single quote that the value has not. -/
theorem not_mem_escapeChar {quote : Option Char} {ch : Char} (hne : ch ≠ '\'') :
    '\'' ∉ escapeChar quote ch := by
  unfold escapeChar
  split_ifs with hbackslash hnewline htab hreturn hquoted hcontrol
  · decide
  · decide
  · decide
  · decide
  · simp [hne.symm]
  · have hlow : ch.toNat < 0xa0 := by
      simp only [isControl, decide_eq_true_eq] at hcontrol
      omega
    have hdigit : ∀ n < 8, Nat.digitChar n ≠ '\'' := by decide
    rw [formatOctal_control _ hlow]
    simp only [List.mem_cons, List.not_mem_nil, or_false, not_or]
    exact ⟨by decide, (hdigit _ (by omega)).symm, (hdigit _ (by omega)).symm,
      (hdigit _ (by omega)).symm⟩
  · simpa using hne.symm

/-! ## A whole value -/

theorem head_escapeChar {quote : Option Char} {ch : Char} :
    (escapeChar quote ch).head? = some '~' ↔ ch = '~' := by
  unfold escapeChar
  split_ifs with hbackslash hnewline htab hreturn hquoted hcontrol
  · subst hbackslash; decide
  · subst hnewline; decide
  · subst htab; decide
  · subst hreturn; decide
  · obtain ⟨rfl | rfl, -⟩ := hquoted
    · decide
    · decide
  · refine iff_of_false (by simp) ?_
    rintro rfl
    exact absurd hcontrol (by decide)
  · simp

/-- The escape of a value, with a backslash before a tilde at its start. -/
def guarded (quote : Option Char) (value : List Char) : List Char :=
  let escaped := value.flatMap (escapeChar quote)
  (if escaped.head? = some '~' then ['\\'] else []) ++ escaped

theorem run_guarded {s : State} {quote : Option Char} {fresh : Bool}
    (hreading : s.reading = .plain fresh) {value : List Char} (hvalue : value ≠ [])
    (hfits : ∀ ch ∈ value, Fits s quote ch) :
    s.run (guarded quote value) = some (value.foldl push s) := by
  obtain ⟨ch, value, rfl⟩ := List.exists_cons_of_ne_nil hvalue
  obtain ⟨hfirst, hrest⟩ := List.forall_mem_cons.mp hfits
  have hpush : ∀ other ∈ value, Fits (s.push ch) quote other := fun other hmem ↦
    ⟨(hrest other hmem).parts, (hrest other hmem).bare⟩
  have hescaped := run_escaped rfl hpush
  have hne : escapeChar quote ch ≠ [] := by
    unfold escapeChar
    split_ifs <;> simp
  rw [guarded, List.flatMap_cons, List.head?_append_of_ne_nil _ hne]
  by_cases htilde : ch = '~'
  · subst htilde
    have hletter := run_letter (c := '~') (hfirst.step_backslash hreading) rfl
    have hplain : escapeChar quote '~' = ['~'] := by
      simp [escapeChar, isControl]
    rw [hplain, List.head?_singleton, if_pos rfl]
    change s.run (['\\', '~'] ++ value.flatMap (escapeChar quote)) = _
    rw [run_append, hletter, Option.bind_some]
    exact hescaped
  · rw [if_neg (mt head_escapeChar.mp htilde), List.nil_append, run_append,
      hfirst.run_escapeChar hreading fun hand ↦ htilde hand.1, Option.bind_some, hescaped,
      List.foldl_cons]

theorem quoteOf_none {value : List Char} (hquote : quoteOf value = none) {ch : Char}
    (hmem : ch ∈ value) : ch ∉ doubleQuoted ∧ ch ∉ singleQuoted := by
  unfold quoteOf at hquote
  split_ifs at hquote with hdouble hsingle
  simp only [List.any_eq_true, decide_eq_true_eq, not_exists, not_and] at hdouble hsingle
  exact ⟨hdouble ch hmem, hsingle ch hmem⟩

theorem split_escape_bare {value : List Char} (hvalue : value ≠ []) (hquote : quoteOf value = none) :
    split (escape value) = some [value] := by
  have hescape : escape value = guarded none value := by
    rw [escape, if_neg hvalue, hquote]
    rfl
  have hfits : ∀ ch ∈ value, Fits start none ch := fun ch hmem ↦
    ⟨.inl ⟨rfl, rfl⟩, fun _ ↦ quoteOf_none hquote hmem⟩
  have hrun := run_guarded rfl hvalue hfits
  obtain ⟨ch, rest, rfl⟩ := List.exists_cons_of_ne_nil hvalue
  rw [foldl_push_cons] at hrun
  rw [split, hescape, hrun]
  rfl

theorem split_escape_double {value : List Char} (hquote : quoteOf value = some '"') :
    split (escape value) = some [value] := by
  have hvalue : value ≠ [] := by
    rintro rfl
    exact absurd hquote (by decide)
  have hescape : escape value = '"' :: (guarded (some '"') value ++ ['"']) := by
    rw [escape, if_neg hvalue, hquote]
    rfl
  have hfits : ∀ ch ∈ value, Fits (start.enter .double) (some '"') ch := fun ch _ ↦
    ⟨.inr ⟨rfl, rfl⟩, fun hbare ↦ absurd hbare (by decide)⟩
  have hopen : start.step '"' = some (start.enter .double) := rfl
  have hrun := run_guarded rfl hvalue hfits
  obtain ⟨ch, rest, rfl⟩ := List.exists_cons_of_ne_nil hvalue
  rw [foldl_push_cons] at hrun
  rw [split, hescape, run_cons, hopen, Option.bind_some, run_append, hrun]
  rfl

/-- Between single quotes the escape itself is what is read. -/
theorem split_escape_single {value : List Char} (hquote : quoteOf value = some '\'') :
    split (escape value) = some [value.flatMap (escapeChar (some '\''))] := by
  have hvalue : value ≠ [] := by
    rintro rfl
    exact absurd hquote (by decide)
  have hescape : escape value =
      '\'' :: (value.flatMap (escapeChar (some '\'')) ++ ['\'']) := by
    rw [escape, if_neg hvalue, hquote]
    rfl
  have hopen : start.step '\'' = some (start.enter .single) := rfl
  have hquotes : '\'' ∉ value.flatMap (escapeChar (some '\'')) := by
    intro hmem
    obtain ⟨ch, hch, hin⟩ := List.mem_flatMap.mp hmem
    refine not_mem_escapeChar ?_ hin
    rintro rfl
    unfold quoteOf at hquote
    split_ifs at hquote with hdouble
    · simp at hquote
    · simp only [List.any_eq_true, decide_eq_true_eq, not_exists, not_and] at hdouble
      exact hdouble _ hch (by decide)
  obtain ⟨fresh, hrun⟩ := run_single [] [] true hquotes
  have hinside : start.enter .single = ⟨[], some [], .single, .plain true⟩ := rfl
  rw [split, hescape, run_cons, hopen, Option.bind_some, run_append, hinside, hrun]
  rfl

theorem quoteOf_cases (value : List Char) :
    quoteOf value = none ∨ quoteOf value = some '"' ∨ quoteOf value = some '\'' := by
  unfold quoteOf
  split_ifs
  · exact .inr (.inl rfl)
  · exact .inr (.inr rfl)
  · exact .inl rfl

theorem quoteOf_single_iff {value : List Char} :
    quoteOf value = some '\'' ↔ '"' ∈ value ∧ ∀ ch ∈ value, ch ∉ doubleQuoted := by
  unfold quoteOf
  split_ifs with hdouble hsingle
  · simp only [List.any_eq_true, decide_eq_true_eq] at hdouble
    obtain ⟨ch, hmem, hin⟩ := hdouble
    exact iff_of_false (by decide) fun hand ↦ hand.2 ch hmem hin
  · simp only [List.any_eq_true, decide_eq_true_eq, not_exists, not_and] at hdouble hsingle
    obtain ⟨ch, hmem, hin⟩ := hsingle
    refine iff_of_true rfl ⟨?_, hdouble⟩
    simp only [singleQuoted, List.mem_cons, List.not_mem_nil, or_false] at hin
    obtain rfl | rfl := hin
    · exact absurd (by decide) (hdouble _ hmem)
    · exact hmem
  · simp only [List.any_eq_true, decide_eq_true_eq, not_exists, not_and] at hsingle
    exact iff_of_false (by decide) fun hand ↦ hsingle _ hand.1 (by decide)

/-- A value reads back as the one argument it is unless single quotes keep the escapes of a
backslash or a control character in it. -/
theorem split_escape_iff (value : List Char) :
    split (escape value) = some [value] ↔ ReadsBack value := by
  obtain hquote | hquote | hquote := quoteOf_cases value
  · refine iff_of_true ?_ fun hmark hplain ↦
      absurd (hquote.symm.trans (quoteOf_single_iff.mpr ⟨hmark, hplain⟩)) (by decide)
    by_cases hvalue : value = []
    · subst hvalue
      rfl
    · exact split_escape_bare hvalue hquote
  · exact iff_of_true (split_escape_double hquote) fun hmark hplain ↦
      absurd (hquote.symm.trans (quoteOf_single_iff.mpr ⟨hmark, hplain⟩)) (by decide)
  · rw [split_escape_single hquote, Option.some_inj, List.singleton_inj,
      flatMap_escapeChar_eq_self (by decide)]
    obtain ⟨hmark, hplain⟩ := quoteOf_single_iff.mp hquote
    exact ⟨fun h _ _ ↦ h, fun h ↦ h hmark hplain⟩

/-- A quotation mark asks for single quotes, and between them the backslash comes back twice. -/
theorem split_escape_doubled :
    split (escape ['a', '"', 'b', '\\', 'c']) = some [['a', '"', 'b', '\\', '\\', 'c']] ∧
      ¬∀ value, split (escape value) = some [value] := by
  have hdoubled : split (escape ['a', '"', 'b', '\\', 'c']) =
      some [['a', '"', 'b', '\\', '\\', 'c']] := by decide
  exact ⟨hdoubled, fun h ↦ absurd (hdoubled.symm.trans (h _)) (by decide)⟩

end Embers.Cli
