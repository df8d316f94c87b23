import Embers.Lib.Rendition

/-!
# A terminal that reads a row

A terminal reads a row character by character. `ESC [ … m` changes the look of what is shown from then
on, `ESC [ n G` puts the cursor in a column, `ESC [ n X` erases cells from the cursor on, and
`ESC ] 8 ; … ; … ESC \` opens a link or closes it. A character of a text is shown where the cursor is.

How far a text moves the cursor is the terminal's own affair: it may draw several characters as one,
so `advance` is given for the whole text since the last sequence, one that comes after an erasure and
one that does not.
-/

namespace TerminalRow

open Rendition

/-! ## Looks -/

/-- A pen that may blink. -/
@[ext] structure Look where
  pen : Pen
  blink : Bool
  deriving DecidableEq, Repr

namespace Look

def plain : Look := ⟨.plain, false⟩

/-- The look and what is still expected of a color, after one parameter. A number that belongs to a
color says nothing about blinking. -/
def param (s : Parameters × Bool) (parts : List ℕ) : Parameters × Bool :=
  (s.1.param parts,
    match s.1.pending, parts with
    | .nothing, [0] => false
    | .nothing, [5] => true
    | .nothing, [25] => false
    | _, _ => s.2)

/-- The look after parameters. -/
def apply (look : Look) (fields : List (List ℕ)) : Look :=
  let s := fields.foldl param (⟨look.pen, .nothing⟩, look.blink)
  ⟨s.1.pen, s.2⟩

theorem foldl_param_fst (fields : List (List ℕ)) (s : Parameters × Bool) :
    (fields.foldl param s).1 = s.1.params fields := by
  induction fields generalizing s with
  | nil => rfl
  | cons parts fields ih => exact ih (param s parts)

/-- The pen of the look is changed as a pen is. -/
theorem apply_pen (look : Look) (fields : List (List ℕ)) :
    (look.apply fields).pen = look.pen.apply fields := by
  rw [apply, foldl_param_fst]
  rfl

/-- Parameters that select a pen and say nothing about blinking. -/
theorem apply_of_selects {fields : List (List ℕ)} {f : Pen → Pen} (h : Selects fields f) (look : Look)
    (hblink : (look.apply fields).blink = look.blink) :
    look.apply fields = { look with pen := f look.pen } :=
  Look.ext ((apply_pen look fields).trans (h.apply look.pen)) hblink

section Colors

variable {n : ℕ} {goal : ColorSlot}

theorem of_target (h : target n = some goal) : n = 38 ∨ n = 48 ∨ n = 58 := by
  rw [target] at h
  split_ifs at h with hfg hbg hunder
  · exact .inl hfg
  · exact .inr (.inl hbg)
  · exact .inr (.inr hunder)

/-- The numbers of a color do not blink. -/
theorem apply_rgb (h : target n = some goal) (look : Look) (r g b : UInt8) :
    look.apply [[n], [2], [r.toNat], [g.toNat], [b.toNat]] =
      { look with pen := look.pen.setColor (.rgb r g b) goal } := by
  refine apply_of_selects (Selects.rgb h r g b) look ?_
  obtain rfl | rfl | rfl := of_target h <;> rfl

theorem apply_indexed (h : target n = some goal) (look : Look) (index : UInt8) :
    look.apply [[n], [5], [index.toNat]] =
      { look with pen := look.pen.setColor (.indexed index) goal } := by
  refine apply_of_selects (Selects.indexed h index) look ?_
  obtain rfl | rfl | rfl := of_target h <;> rfl

end Colors

end Look

/-- The text of parameters that change the look. -/
def Sets (text : List Char) (f : Look → Look) : Prop :=
  ∃ fields, text = join fields ∧ fields ≠ [] ∧ Numeric fields ∧
    ∀ look : Look, look.apply (numbers fields) = f look

/-- A text sets the look when it is that of parameters which change it so. -/
theorem sets_of_parts {text : List Char} {f : Look → Look} (fields : List (List (Option ℕ)))
    (htext : text = join (partTexts fields)) (hne : fields ≠ [])
    (hparts : ∀ field ∈ fields, field ≠ [])
    (h : ∀ look : Look, look.apply (fields.map fun field ↦ field.map (·.getD 0)) = f look) :
    Sets text f := by
  refine ⟨partTexts fields, htext, fun hnil ↦ hne (List.map_eq_nil_iff.mp hnil),
    numeric_partTexts hparts, ?_⟩
  rwa [numbers_partTexts]

/-! ## The terminal -/

/-- A link as a sequence opens it. -/
structure Link where
  id : Option (List Char)
  uri : List Char
  deriving DecidableEq, Repr

/-- The link that a sequence opens: none without an address, and no name where it is empty. -/
def openLink (id : Option (List Char)) (uri : List Char) : Option Link :=
  if uri = [] then none else some ⟨id.filter (· ≠ []), uri⟩

/-- The value of `id=` among the parameters of a link. -/
def linkId (params : List Char) : Option (List Char) :=
  (params.splitOn ':').findSome? fun param ↦
    match param with
    | 'i' :: 'd' :: '=' :: value => some value
    | _ => none

/-- What a command says of the link: nothing, or the link that is open from then on. -/
def parseLink : List Char → Option (Option Link)
  | '8' :: ';' :: rest =>
    match rest.dropWhile (· ≠ ';') with
    | [] => none
    | _ :: uri => some (openLink (linkId (rest.takeWhile (· ≠ ';'))) uri)
  | _ => none

/-- A character that was shown. -/
structure Mark where
  column : ℕ
  look : Look
  link : Option Link
  char : Char
  deriving DecidableEq, Repr

inductive Reading where
  | ground
  | escape
  /-- After `ESC [`. -/
  | sequence (text : List Char)
  /-- After `ESC ]`. -/
  | command (text : List Char)
  /-- An escape has come after the text of a command. -/
  | commandEscape (text : List Char)
  deriving DecidableEq, Repr

structure Terminal where
  /-- The column where the text since the last sequence began. -/
  origin : ℕ
  /-- The text since the last sequence. -/
  run : List Char
  /-- Cells were erased, and the cursor was not placed since. -/
  erased : Bool
  look : Look
  link : Option Link
  reading : Reading
  shown : List Mark
  deriving DecidableEq, Repr

namespace Terminal

/-- At the start of a row. -/
def start : Terminal := ⟨0, [], false, .plain, none, .ground, []⟩

variable (advance : Bool → List Char → ℕ)

def cursor (t : Terminal) : ℕ := t.origin + if t.run = [] then 0 else advance t.erased t.run

/-- The cursor stays where the text before a sequence has left it. -/
def flush (t : Terminal) : Terminal := { t with origin := t.cursor advance, run := [] }

/-- The character after an escape. -/
def afterEscape (t : Terminal) (c : Char) : Terminal :=
  { t with reading := if c = '[' then .sequence [] else if c = ']' then .command [] else .ground }

/-- The column of a sequence that places the cursor: they are counted from one. -/
def placed (text : List Char) : Option ℕ :=
  match parse text with
  | some [[n]] => some (n - 1)
  | _ => none

/-- The end of a sequence. -/
def finish (t : Terminal) (text : List Char) (final : Char) : Terminal :=
  let t := { t with reading := .ground }
  if final = 'm' then { t with look := ((parse text).map t.look.apply).getD t.look }
  else if final = 'G' then
    match placed text with
    | some column => { t with origin := column, run := [], erased := false }
    | none => t
  else if final = 'X' then { t with erased := true }
  else t

/-- The end of a command. -/
def command (t : Terminal) (text : List Char) : Terminal :=
  { t with link := (parseLink text).getD t.link, reading := .ground }

def showChar (t : Terminal) (c : Char) : Terminal :=
  { t with run := t.run ++ [c], shown := t.shown ++ [⟨t.cursor advance, t.look, t.link, c⟩] }

/-- Read one character. A control character other than an escape is not shown. -/
def step (t : Terminal) (c : Char) : Terminal :=
  match t.reading with
  | .ground =>
    if c = '\x1b' then { t.flush advance with reading := .escape }
    else if IsControl c then t
    else t.showChar advance c
  | .escape => t.afterEscape c
  | .sequence text =>
    if c = '\x1b' then { t with reading := .escape }
    else if IsFinal c then t.finish text c
    else { t with reading := .sequence (text ++ [c]) }
  | .command text =>
    if c = '\x1b' then { t with reading := .commandEscape text }
    else if c = '\x07' then t.command text
    else { t with reading := .command (text ++ [c]) }
  | .commandEscape text => if c = '\\' then t.command text else t.afterEscape c

def read (t : Terminal) (text : List Char) : Terminal := text.foldl (step advance) t

variable {advance} {t : Terminal} {text more : List Char}

@[simp] theorem read_nil : t.read advance [] = t := rfl

theorem read_cons {c : Char} : t.read advance (c :: text) = (t.step advance c).read advance text := rfl

theorem read_append : t.read advance (text ++ more) = (t.read advance text).read advance more :=
  List.foldl_append

@[simp] theorem cursor_flush : (t.flush advance).cursor advance = t.cursor advance := rfl

/-! ## What is shown -/

/-- No control character is ever shown. -/
theorem step_shown (h : ∀ m ∈ t.shown, ¬IsControl m.char) (c : Char) :
    ∀ m ∈ (t.step advance c).shown, ¬IsControl m.char := by
  have hfinish : ∀ text, (t.finish text c).shown = t.shown := by
    intro text
    simp only [finish]
    split_ifs
    · rfl
    · split <;> rfl
    · rfl
    · rfl
  rw [step]
  split
  · split_ifs with hescape hcontrol
    · exact h
    · exact h
    · intro m hm
      rcases List.mem_append.mp hm with hm | hm
      · exact h m hm
      · rw [List.mem_singleton.mp hm]
        exact hcontrol
  · exact h
  · split_ifs
    · exact h
    · rw [hfinish]
      exact h
    · exact h
  · split_ifs <;> exact h
  · split_ifs <;> exact h

variable (advance) in
theorem read_shown (h : ∀ m ∈ t.shown, ¬IsControl m.char) (text : List Char) :
    ∀ m ∈ (t.read advance text).shown, ¬IsControl m.char := by
  induction text generalizing t with
  | nil => exact h
  | cons c text ih => exact ih (step_shown h c)

/-- The marks of a text that is shown from a state on. -/
def marks (advance : Bool → List Char → ℕ) (t : Terminal) : List Char → List Mark
  | [] => []
  | c :: text => ⟨t.cursor advance, t.look, t.link, c⟩ :: marks advance (t.showChar advance c) text

theorem map_char_marks : (t.marks advance text).map Mark.char = text := by
  induction text generalizing t with
  | nil => rfl
  | cons c text ih => rw [marks, List.map_cons, ih]

theorem look_of_mem_marks {m : Mark} (h : m ∈ t.marks advance text) :
    m.look = t.look ∧ m.link = t.link := by
  induction text generalizing t with
  | nil => cases h
  | cons c text ih =>
    rcases List.mem_cons.mp h with rfl | h
    · exact ⟨rfl, rfl⟩
    · exact ih (t := t.showChar advance c) h

/-- The first mark of a text is where the cursor was. -/
theorem column_of_mem_head {m : Mark} (h : m ∈ (t.marks advance text).head?) :
    m.column = t.cursor advance := by
  cases text with
  | nil => cases h
  | cons c text =>
    cases h
    rfl

theorem read_text (hreading : t.reading = .ground) (h : ∀ c ∈ text, ¬IsControl c) :
    t.read advance text =
      { t with run := t.run ++ text, shown := t.shown ++ t.marks advance text } := by
  induction text generalizing t with
  | nil => simp [marks]
  | cons c text ih =>
    obtain ⟨hc, htext⟩ := List.forall_mem_cons.mp h
    have hescape : c ≠ '\x1b' := by
      rintro rfl
      exact hc (by decide)
    have hstep : t.step advance c = t.showChar advance c := by
      rw [step, hreading]
      simp only [if_neg hescape, if_neg hc]
    rw [read_cons, hstep, ih (t := t.showChar advance c) hreading htext, marks]
    simp [showChar]

/-! ## Sequences -/

theorem step_escape (hreading : t.reading = .ground) :
    t.step advance '\x1b' = { t.flush advance with reading := .escape } := by
  rw [step, hreading]
  rfl

/-- Characters that neither end a sequence nor escape from it. -/
theorem read_within {before : List Char} (hreading : t.reading = .sequence before)
    (h : ∀ c ∈ text, ¬IsFinal c ∧ c ≠ '\x1b') :
    t.read advance text = { t with reading := .sequence (before ++ text) } := by
  induction text generalizing t before with
  | nil =>
    rw [List.append_nil, ← hreading]
    rfl
  | cons c text ih =>
    obtain ⟨⟨hfinal, hescape⟩, htext⟩ := List.forall_mem_cons.mp h
    have hstep : t.step advance c = { t with reading := .sequence (before ++ [c]) } := by
      rw [step, hreading]
      simp only [if_neg hescape, if_neg hfinal]
    rw [read_cons, hstep, ih rfl htext, List.append_assoc]
    rfl

theorem read_sequence (hreading : t.reading = .ground) (h : ∀ c ∈ text, ¬IsFinal c ∧ c ≠ '\x1b')
    {final : Char} (hfinal : IsFinal final) :
    t.read advance ('\x1b' :: '[' :: (text ++ [final])) = (t.flush advance).finish text final := by
  have hopen : (t.step advance '\x1b').step advance '[' =
      { t.flush advance with reading := .sequence [] } := by
    rw [step_escape hreading]
    rfl
  have hescape : final ≠ '\x1b' := by
    rintro rfl
    exact absurd hfinal (by decide)
  rw [read_cons, read_cons, hopen, read_append, read_within rfl h, read_cons, read_nil, step]
  simp only [List.nil_append, if_neg hescape, if_pos hfinal]
  rfl

/-- The characters of numbers stay inside a sequence. -/
theorem inside_of_join {fields : List (List (List Char))} (h : Numeric fields) :
    ∀ c ∈ join fields, ¬IsFinal c ∧ c ≠ '\x1b' := by
  intro c hmem
  obtain hdigit | rfl | rfl := mem_join h hmem
  · have hhigh : c.toNat ≤ 57 := (Char.isDigit_iff_toNat.mp hdigit).2
    refine ⟨fun hfinal ↦ absurd hfinal.1 (by omega), ?_⟩
    rintro rfl
    exact absurd hdigit (by decide)
  · decide
  · decide

/-- A sequence that sets the look. -/
theorem read_sets {f : Look → Look} (hreading : t.reading = .ground) (h : Sets text f) :
    t.read advance ('\x1b' :: '[' :: (text ++ ['m'])) = { t.flush advance with look := f t.look } := by
  obtain ⟨fields, rfl, hne, hnumeric, happly⟩ := h
  rw [read_sequence hreading (inside_of_join hnumeric) (by decide), finish, if_pos rfl,
    parse_join hnumeric hne, Option.map_some, Option.getD_some, ← happly t.look, ← hreading]
  rfl

/-- The text of one number. -/
theorem numeric_toDecimal (n : ℕ) : Numeric [[toDecimal n]] :=
  numeric_partTexts (by simp : ∀ field ∈ [[some n]], field ≠ [])

theorem join_toDecimal (n : ℕ) : join [[toDecimal n]] = toDecimal n := by
  simp [join]

theorem parse_toDecimal (n : ℕ) : parse (toDecimal n) = some [[n]] := by
  rw [← join_toDecimal, parse_join (numeric_toDecimal n) (List.cons_ne_nil _ _)]
  exact congrArg some (numbers_partTexts [[some n]])

variable (advance) in
theorem read_place (hreading : t.reading = .ground) (n : ℕ) :
    t.read advance ('\x1b' :: '[' :: (toDecimal n ++ ['G'])) =
      { t with origin := n - 1, run := [], erased := false } := by
  have hinside := inside_of_join (numeric_toDecimal n)
  rw [join_toDecimal] at hinside
  have hplaced : placed (toDecimal n) = some (n - 1) := by rw [placed, parse_toDecimal]
  rw [read_sequence hreading hinside (by decide), finish, if_neg (by decide), if_pos rfl]
  simp only [hplaced, ← hreading]
  rfl

theorem read_erase (hreading : t.reading = .ground) (n : ℕ) :
    t.read advance ('\x1b' :: '[' :: (toDecimal n ++ ['X'])) =
      { t.flush advance with erased := true } := by
  have hinside := inside_of_join (numeric_toDecimal n)
  rw [join_toDecimal] at hinside
  rw [read_sequence hreading hinside (by decide), finish, if_neg (by decide), if_neg (by decide),
    if_pos rfl, ← hreading]
  rfl

/-! ## Links -/

theorem read_inCommand {before : List Char} (hreading : t.reading = .command before)
    (h : ∀ c ∈ text, ¬IsControl c) :
    t.read advance text = { t with reading := .command (before ++ text) } := by
  induction text generalizing t before with
  | nil =>
    rw [List.append_nil, ← hreading]
    rfl
  | cons c text ih =>
    obtain ⟨hc, htext⟩ := List.forall_mem_cons.mp h
    have hescape : c ≠ '\x1b' := by
      rintro rfl
      exact hc (by decide)
    have hbell : c ≠ '\x07' := by
      rintro rfl
      exact hc (by decide)
    have hstep : t.step advance c = { t with reading := .command (before ++ [c]) } := by
      rw [step, hreading]
      simp only [if_neg hescape, if_neg hbell]
    rw [read_cons, hstep, ih rfl htext, List.append_assoc]
    rfl

/-- A command opens the link it is parsed to. -/
theorem read_command (hreading : t.reading = .ground) (h : ∀ c ∈ text, ¬IsControl c)
    {link : Option Link} (hlink : parseLink text = some link) :
    t.read advance ('\x1b' :: ']' :: (text ++ ['\x1b', '\\'])) =
      { t.flush advance with link := link } := by
  have hopen : (t.step advance '\x1b').step advance ']' =
      { t.flush advance with reading := .command [] } := by
    rw [step_escape hreading]
    rfl
  rw [read_cons, read_cons, hopen, read_append, read_inCommand rfl h, List.nil_append, read_cons,
    read_cons, read_nil]
  change command { t.flush advance with reading := .commandEscape text } text = _
  rw [command, hlink, Option.getD_some, ← hreading]
  rfl

/-- The parameters and the address of a link come apart at the first semicolon. -/
theorem parseLink_append {params uri : List Char} (h : ';' ∉ params) :
    parseLink ('8' :: ';' :: (params ++ ';' :: uri)) = some (openLink (linkId params) uri) := by
  have hne : ∀ c ∈ params, (decide (c ≠ ';')) = true := by
    intro c hc
    refine decide_eq_true ?_
    rintro rfl
    exact h hc
  have hdrop : (params ++ ';' :: uri).dropWhile (· ≠ ';') = ';' :: uri := by
    rw [List.dropWhile_append_of_pos hne]
    rfl
  have htake : (params ++ ';' :: uri).takeWhile (· ≠ ';') = params := by
    rw [List.takeWhile_append_of_pos hne, List.takeWhile_cons_of_neg (by simp), List.append_nil]
  rw [parseLink, hdrop, htake]

@[simp] theorem linkId_nil : linkId [] = none := rfl

theorem linkId_eq {id : List Char} (h : ':' ∉ id) : linkId ('i' :: 'd' :: '=' :: id) = some id := by
  have hsplit : ('i' :: 'd' :: '=' :: id).splitOn ':' = ['i' :: 'd' :: '=' :: id] := by
    have hsingle := List.splitOn_intercalate ':'
      (by simpa using h : ∀ l ∈ ['i' :: 'd' :: '=' :: id], ':' ∉ l) (List.cons_ne_nil _ _)
    rwa [List.intercalate_singleton] at hsingle
  rw [linkId, hsplit]
  rfl

/-! ## Sequences that show nothing -/

/-- `t'` is `t` after sequences that neither show anything nor move the cursor. -/
structure Still (advance : Bool → List Char → ℕ) (t t' : Terminal) : Prop where
  shown : t'.shown = t.shown
  reading : t'.reading = t.reading
  erased : t'.erased = t.erased
  cursor : t'.cursor advance = t.cursor advance
  run : t'.run = [] ∨ t'.run = t.run ∧ t'.origin = t.origin

theorem Still.refl : Still advance t t := ⟨rfl, rfl, rfl, rfl, .inr ⟨rfl, rfl⟩⟩

theorem Still.trans {t' t'' : Terminal} (h : Still advance t t') (h' : Still advance t' t'') :
    Still advance t t'' where
  shown := h'.shown.trans h.shown
  reading := h'.reading.trans h.reading
  erased := h'.erased.trans h.erased
  cursor := h'.cursor.trans h.cursor
  run := by
    rcases h'.run with hnil | ⟨hrun, horigin⟩
    · exact .inl hnil
    · rw [hrun, horigin]
      exact h.run

theorem still_flush {look : Look} {link : Option Link} :
    Still advance t { t.flush advance with look := look, link := link } :=
  ⟨rfl, rfl, rfl, rfl, .inl rfl⟩

end Terminal

end TerminalRow
