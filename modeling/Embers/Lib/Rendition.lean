import Mathlib

/-!
# Select Graphic Rendition

A terminal shows each character in the pen that is set then, and `ESC [ … m` changes the pen. Its
parameters are separated by semicolons and the parts of one by colons; a number that is missing is zero.
A color beyond the basic ones is in the parts of one parameter, or in the parameters after it, so
parameters are applied one after another with what is still expected of a color (`Pending`).
-/

namespace Rendition

inductive Color where
  | default
  | indexed (index : UInt8)
  | rgb (r g b : UInt8)
  deriving DecidableEq, Repr

inductive Underline where
  | none
  | single
  | double
  | curly
  | dotted
  | dashed
  deriving DecidableEq, Repr

@[ext] structure Pen where
  bold : Bool
  dim : Bool
  italic : Bool
  underline : Underline
  inverse : Bool
  hidden : Bool
  strikeout : Bool
  fg : Color
  bg : Color
  underlineColor : Color
  deriving DecidableEq, Repr

/-- What a color is for. -/
inductive ColorSlot where
  | fg
  | bg
  | underline
  deriving DecidableEq, Repr

namespace Pen

def plain : Pen :=
  ⟨false, false, false, .none, false, false, false, .default, .default, .default⟩

def setColor (pen : Pen) (color : Color) : ColorSlot → Pen
  | .fg => { pen with fg := color }
  | .bg => { pen with bg := color }
  | .underline => { pen with underlineColor := color }

/-- A parameter of one number that no color follows. -/
def basic (pen : Pen) (n : ℕ) : Pen :=
  match n with
  | 0 => plain
  | 1 => { pen with bold := true }
  | 2 => { pen with dim := true }
  | 3 => { pen with italic := true }
  | 4 => { pen with underline := .single }
  | 7 => { pen with inverse := true }
  | 8 => { pen with hidden := true }
  | 9 => { pen with strikeout := true }
  | 21 => { pen with underline := .double }
  | 22 => { pen with bold := false, dim := false }
  | 23 => { pen with italic := false }
  | 24 => { pen with underline := .none }
  | 27 => { pen with inverse := false }
  | 28 => { pen with hidden := false }
  | 29 => { pen with strikeout := false }
  | 39 => { pen with fg := .default }
  | 49 => { pen with bg := .default }
  | 59 => { pen with underlineColor := .default }
  | n =>
    if 30 ≤ n ∧ n < 38 then { pen with fg := .indexed (UInt8.ofNat (n - 30)) }
    else if 40 ≤ n ∧ n < 48 then { pen with bg := .indexed (UInt8.ofNat (n - 40)) }
    else if 90 ≤ n ∧ n < 98 then { pen with fg := .indexed (UInt8.ofNat (n - 90 + 8)) }
    else if 100 ≤ n ∧ n < 108 then { pen with bg := .indexed (UInt8.ofNat (n - 100 + 8)) }
    else pen

/-- The style of an underline by its number. -/
def setUnderline (pen : Pen) : ℕ → Pen
  | 0 => { pen with underline := .none }
  | 1 => { pen with underline := .single }
  | 2 => { pen with underline := .double }
  | 3 => { pen with underline := .curly }
  | 4 => { pen with underline := .dotted }
  | 5 => { pen with underline := .dashed }
  | _ => pen

end Pen

/-! ## Parameters -/

def target (n : ℕ) : Option ColorSlot :=
  if n = 38 then some .fg else if n = 48 then some .bg else if n = 58 then some .underline else none

def byte (n : ℕ) : Option UInt8 := if n < 256 then some (UInt8.ofNat n) else none

def rgb (r g b : ℕ) : Option Color := do
  let r ← byte r
  let g ← byte g
  let b ← byte b
  return .rgb r g b

/-- The color in the parts of a parameter. -/
def colorOf : List ℕ → Option Color
  | [5, index] => (byte index).map .indexed
  | [2, r, g, b] => rgb r g b
  -- The number of a color space comes before the color.
  | [2, _, r, g, b] => rgb r g b
  | _ => none

/-- What the parameters so far expect of the next one. -/
inductive Pending where
  | nothing
  | color (target : ColorSlot)
  | index (target : ColorSlot)
  | red (target : ColorSlot)
  | green (target : ColorSlot) (r : ℕ)
  | blue (target : ColorSlot) (r g : ℕ)
  deriving DecidableEq, Repr

structure Parameters where
  pen : Pen
  pending : Pending
  deriving DecidableEq, Repr

namespace Parameters

def set (s : Parameters) (target : ColorSlot) (color : Option Color) : Parameters :=
  ⟨(color.map fun color ↦ s.pen.setColor color target).getD s.pen, .nothing⟩

/-- A parameter that nothing was expected of. -/
def start (s : Parameters) : List ℕ → Parameters
  | [] => s
  | [n] =>
    match target n with
    | some target => { s with pending := .color target }
    | none => { s with pen := s.pen.basic n }
  | n :: parts =>
    match target n with
    | some target => s.set target (colorOf parts)
    | none => if n = 4 then { s with pen := s.pen.setUnderline (parts.headD 0) } else s

/-- Apply one parameter. One that is not what was expected ends the color. -/
def param (s : Parameters) (parts : List ℕ) : Parameters :=
  match s.pending, parts with
  | .nothing, parts => s.start parts
  | .color target, [5] => { s with pending := .index target }
  | .color target, [2] => { s with pending := .red target }
  | .index target, [index] => s.set target ((byte index).map .indexed)
  | .red target, [r] => { s with pending := .green target r }
  | .green target r, [g] => { s with pending := .blue target r g }
  | .blue target r g, [b] => s.set target (rgb r g b)
  | _, _ => { s with pending := .nothing }

def params (s : Parameters) (fields : List (List ℕ)) : Parameters := fields.foldl param s

end Parameters

/-- The pen after parameters. -/
def Pen.apply (pen : Pen) (fields : List (List ℕ)) : Pen := (Parameters.params ⟨pen, .nothing⟩ fields).pen

/-! ## The text of parameters -/

def number (text : List Char) : Option ℕ :=
  if text.all Char.isDigit then some (Nat.ofDigitChars 10 text 0) else none

def parse (text : List Char) : Option (List (List ℕ)) :=
  (text.splitOn ';').mapM fun field ↦ (field.splitOn ':').mapM number

/-- The text of parameters from the texts of their parts. -/
def join (fields : List (List (List Char))) : List Char :=
  [';'].intercalate (fields.map [':'].intercalate)

/-! ## The terminal -/

inductive Reading where
  | ground
  | escape
  /-- After `ESC [`. -/
  | sequence (text : List Char)
  deriving DecidableEq, Repr

structure Display where
  /-- The characters that were shown, each with its pen. -/
  shown : List (Char × Pen)
  pen : Pen
  reading : Reading
  deriving DecidableEq, Repr

def IsControl (c : Char) : Prop := c.toNat < 0x20 ∨ 0x7f ≤ c.toNat ∧ c.toNat < 0xa0

instance (c : Char) : Decidable (IsControl c) := inferInstanceAs (Decidable (_ ∨ _ ∧ _))

/-- The characters that end a sequence. -/
def IsFinal (c : Char) : Prop := 0x40 ≤ c.toNat ∧ c.toNat ≤ 0x7e

instance (c : Char) : Decidable (IsFinal c) := inferInstanceAs (Decidable (_ ∧ _))

namespace Display

def start : Display := ⟨[], .plain, .ground⟩

/-- The end of a sequence. -/
def finish (t : Display) (text : List Char) (final : Char) : Display :=
  { t with
    pen := if final = 'm' then ((parse text).map t.pen.apply).getD t.pen else t.pen
    reading := .ground }

def step (t : Display) (c : Char) : Display :=
  match t.reading with
  | .ground =>
    if c = '\x1b' then { t with reading := .escape }
    else if IsControl c then t
    else { t with shown := t.shown ++ [(c, t.pen)] }
  | .escape => { t with reading := if c = '[' then .sequence [] else .ground }
  | .sequence text =>
    if IsFinal c then t.finish text c else { t with reading := .sequence (text ++ [c]) }

def run (t : Display) (text : List Char) : Display := text.foldl step t

end Display

/-! ## Reading what was joined -/

section Texts

variable {fields more : List (List (List Char))}

/-- Parameters with at least one part each, and digits in the parts. -/
def Numeric (fields : List (List (List Char))) : Prop :=
  ∀ field ∈ fields, field ≠ [] ∧ ∀ part ∈ field, part.all Char.isDigit = true

theorem Numeric.append (h : Numeric fields) (hmore : Numeric more) : Numeric (fields ++ more) := by
  intro field hmem
  obtain hmem | hmem := List.mem_append.mp hmem
  · exact h field hmem
  · exact hmore field hmem

/-- The numbers that texts stand for. -/
def numbers (fields : List (List (List Char))) : List (List ℕ) :=
  fields.map fun field ↦ field.map fun part ↦ Nat.ofDigitChars 10 part 0

theorem not_mem_part {c : Char} (hc : c.isDigit = false) {part : List Char}
    (h : part.all Char.isDigit = true) : c ∉ part := by
  intro hmem
  rw [List.all_eq_true.mp h c hmem] at hc
  cases hc

theorem mapM_number {field : List (List Char)} (h : ∀ part ∈ field, part.all Char.isDigit = true) :
    field.mapM number = some (field.map fun part ↦ Nat.ofDigitChars 10 part 0) := by
  induction field with
  | nil => rfl
  | cons part field ih =>
    obtain ⟨hpart, hfield⟩ := List.forall_mem_cons.mp h
    rw [List.mapM_cons, ih hfield, number, if_pos hpart]
    rfl

theorem mem_intercalate {α : Type} {sep : List α} {texts : List (List α)} {c : α}
    (h : c ∈ sep.intercalate texts) : c ∈ sep ∨ ∃ text ∈ texts, c ∈ text := by
  induction texts with
  | nil => cases h
  | cons text texts ih =>
    by_cases hne : texts = []
    · subst hne
      rw [List.intercalate_singleton] at h
      exact .inr ⟨text, List.mem_cons_self, h⟩
    · rw [List.intercalate_cons_of_ne_nil hne, List.mem_append, List.mem_append] at h
      obtain (hfirst | hsep) | hrest := h
      · exact .inr ⟨text, List.mem_cons_self, hfirst⟩
      · exact .inl hsep
      · exact (ih hrest).imp_right fun hin ↦
          hin.imp fun other hand ↦ ⟨List.mem_cons_of_mem _ hand.1, hand.2⟩

theorem intercalate_append {α : Type} {sep : List α} {texts others : List (List α)}
    (hne : texts ≠ []) (hothers : others ≠ []) :
    sep.intercalate (texts ++ others) =
      sep.intercalate texts ++ sep ++ sep.intercalate others := by
  induction texts with
  | nil => exact absurd rfl hne
  | cons text texts ih =>
    by_cases hrest : texts = []
    · subst hrest
      rw [List.singleton_append, List.intercalate_cons_of_ne_nil hothers,
        List.intercalate_singleton]
    · have happend : texts ++ others ≠ [] := fun hnil ↦ hrest (List.append_eq_nil_iff.mp hnil).1
      rw [List.cons_append, List.intercalate_cons_of_ne_nil happend, ih hrest,
        List.intercalate_cons_of_ne_nil hrest]
      simp only [List.append_assoc]

/-- Every character of joined texts is a digit or separates. -/
theorem mem_field {c : Char} {field : List (List Char)}
    (h : ∀ part ∈ field, part.all Char.isDigit = true) (hmem : c ∈ [':'].intercalate field) :
    c.isDigit = true ∨ c = ':' := by
  obtain hsep | ⟨part, hpart, hin⟩ := mem_intercalate hmem
  · exact .inr (List.mem_singleton.mp hsep)
  · exact .inl (List.all_eq_true.mp (h part hpart) c hin)

theorem mem_join {c : Char} (h : Numeric fields) (hmem : c ∈ join fields) :
    c.isDigit = true ∨ c = ';' ∨ c = ':' := by
  obtain hsep | ⟨text, htext, hin⟩ := mem_intercalate hmem
  · exact .inr (.inl (List.mem_singleton.mp hsep))
  · obtain ⟨field, hfield, rfl⟩ := List.mem_map.mp htext
    exact (mem_field (h field hfield).2 hin).imp_right .inr

theorem mapM_fields (h : Numeric fields) :
    (fields.map [':'].intercalate).mapM (fun field ↦ (field.splitOn ':').mapM number) =
      some (numbers fields) := by
  induction fields with
  | nil => rfl
  | cons field fields ih =>
    obtain ⟨⟨hne, hparts⟩, hfields⟩ := List.forall_mem_cons.mp h
    have hsplit : ([':'].intercalate field).splitOn ':' = field :=
      List.splitOn_intercalate ':' (fun part hmem ↦ not_mem_part rfl (hparts part hmem)) hne
    rw [List.map_cons, List.mapM_cons, hsplit, mapM_number hparts, ih hfields]
    rfl

theorem parse_join (h : Numeric fields) (hne : fields ≠ []) :
    parse (join fields) = some (numbers fields) := by
  have hsplit : (join fields).splitOn ';' = fields.map [':'].intercalate := by
    refine List.splitOn_intercalate ';' ?_ (by simpa using hne)
    intro text hmem
    obtain ⟨field, hfield, rfl⟩ := List.mem_map.mp hmem
    intro hin
    obtain hdigit | heq := mem_field (h field hfield).2 hin
    · cases hdigit
    · cases heq
  rw [parse, hsplit, mapM_fields h]

theorem join_append (hne : fields ≠ []) (hmore : more ≠ []) :
    join (fields ++ more) = join fields ++ ';' :: join more := by
  rw [join, List.map_append, intercalate_append (by simpa using hne) (by simpa using hmore),
    List.append_assoc]
  rfl

end Texts

/-! ## Runs -/

namespace Display

variable {t : Display} {text more : List Char}

theorem run_append (t : Display) (text more : List Char) :
    t.run (text ++ more) = (t.run text).run more := List.foldl_append

theorem run_cons (t : Display) (c : Char) (text : List Char) :
    t.run (c :: text) = (t.step c).run text := rfl

/-- Characters that are no control characters are shown in the pen. -/
theorem run_text (shown : List (Char × Pen)) (pen : Pen) (h : ∀ c ∈ text, ¬IsControl c) :
    (Display.mk shown pen .ground).run text =
      ⟨shown ++ text.map fun c ↦ (c, pen), pen, .ground⟩ := by
  induction text generalizing shown with
  | nil =>
    rw [List.map_nil, List.append_nil]
    rfl
  | cons c text ih =>
    obtain ⟨hc, htext⟩ := List.forall_mem_cons.mp h
    have hescape : c ≠ '\x1b' := by
      rintro rfl
      exact hc (by decide)
    have hstep : (Display.mk shown pen .ground).step c = ⟨shown ++ [(c, pen)], pen, .ground⟩ := by
      simp only [step, if_neg hescape, if_neg hc]
    rw [run_cons, hstep, ih _ htext, List.map_cons, List.append_assoc]
    rfl

theorem run_within (shown : List (Char × Pen)) (pen : Pen) (before : List Char)
    (h : ∀ c ∈ text, ¬IsFinal c) :
    (Display.mk shown pen (.sequence before)).run text = ⟨shown, pen, .sequence (before ++ text)⟩ := by
  induction text generalizing before with
  | nil =>
    rw [List.append_nil]
    rfl
  | cons c text ih =>
    obtain ⟨hc, htext⟩ := List.forall_mem_cons.mp h
    have hstep : (Display.mk shown pen (.sequence before)).step c =
        ⟨shown, pen, .sequence (before ++ [c])⟩ := if_neg hc
    rw [run_cons, hstep, ih _ htext, List.append_assoc]
    rfl

/-- A sequence that sets the pen. -/
theorem run_sgr {fields : List (List (List Char))} (shown : List (Char × Pen)) (pen : Pen)
    (h : Numeric fields) (hne : fields ≠ []) :
    (Display.mk shown pen .ground).run ('\x1b' :: '[' :: (join fields ++ ['m'])) =
      ⟨shown, pen.apply (numbers fields), .ground⟩ := by
  have hfinal : ∀ c ∈ join fields, ¬IsFinal c := by
    intro c hmem
    obtain hdigit | rfl | rfl := mem_join h hmem
    · have hhigh : c.toNat ≤ 57 := (Char.isDigit_iff_toNat.mp hdigit).2
      exact fun hfinal ↦ absurd hfinal.1 (by omega)
    · decide
    · decide
  have hopen : ((Display.mk shown pen .ground).step '\x1b').step '[' =
      ⟨shown, pen, .sequence []⟩ := rfl
  have hend : (Display.mk shown pen (.sequence (join fields))).step 'm' =
      (Display.mk shown pen (.sequence (join fields))).finish (join fields) 'm' := rfl
  rw [run_cons, run_cons, run_append, hopen, run_within shown pen [] hfinal, List.nil_append,
    run_cons, hend, finish, if_pos rfl, parse_join h hne]
  rfl

end Display

/-! ## Applying parameters -/

/-- Parameters that change the pen and expect nothing after them. -/
def Selects (fields : List (List ℕ)) (f : Pen → Pen) : Prop :=
  ∀ pen : Pen, Parameters.params ⟨pen, .nothing⟩ fields = ⟨f pen, .nothing⟩

namespace Selects

variable {fields more : List (List ℕ)} {f g : Pen → Pen} {n : ℕ} {goal : ColorSlot}

theorem append (h : Selects fields f) (hmore : Selects more g) : Selects (fields ++ more) (g ∘ f) := by
  intro pen
  rw [Parameters.params, List.foldl_append]
  change Parameters.params (Parameters.params ⟨pen, .nothing⟩ fields) more = _
  rw [h pen, hmore (f pen)]
  rfl

theorem apply (h : Selects fields f) (pen : Pen) : pen.apply fields = f pen := by
  rw [Pen.apply, h pen]

theorem basic (h : target n = none) : Selects [[n]] (·.basic n) := by
  intro pen
  change Parameters.start ⟨pen, .nothing⟩ [n] = _
  rw [Parameters.start, h]

theorem underline (n : ℕ) : Selects [[4, n]] (·.setUnderline n) := fun _ ↦ rfl

theorem start_color (h : target n = some goal) (pen : Pen) :
    Parameters.param ⟨pen, .nothing⟩ [n] = ⟨pen, .color goal⟩ := by
  change Parameters.start ⟨pen, .nothing⟩ [n] = _
  rw [Parameters.start, h]

theorem start_parts (h : target n = some goal) (pen : Pen) (part : ℕ) (parts : List ℕ) :
    Parameters.param ⟨pen, .nothing⟩ (n :: part :: parts) =
      Parameters.set ⟨pen, .nothing⟩ goal (colorOf (part :: parts)) := by
  change Parameters.start ⟨pen, .nothing⟩ (n :: part :: parts) = _
  rw [Parameters.start, h]
  exact fun hnil ↦ List.cons_ne_nil _ _ hnil

theorem byte_toNat (index : UInt8) : byte index.toNat = some index := by
  rw [byte, if_pos index.toNat_lt, UInt8.ofNat_toNat]

theorem rgb_toNat (r g b : UInt8) : rgb r.toNat g.toNat b.toNat = some (.rgb r g b) := by
  rw [rgb, byte_toNat, byte_toNat, byte_toNat]
  rfl

/-- An indexed color over three parameters. -/
theorem indexed (h : target n = some goal) (index : UInt8) :
    Selects [[n], [5], [index.toNat]] (·.setColor (.indexed index) goal) := by
  intro pen
  rw [Parameters.params, List.foldl_cons, start_color h]
  change Parameters.set ⟨pen, .index goal⟩ goal ((byte index.toNat).map .indexed) = _
  rw [byte_toNat]
  rfl

theorem rgb (h : target n = some goal) (r g b : UInt8) :
    Selects [[n], [2], [r.toNat], [g.toNat], [b.toNat]] (·.setColor (.rgb r g b) goal) := by
  intro pen
  rw [Parameters.params, List.foldl_cons, start_color h]
  change Parameters.set ⟨pen, .blue goal r.toNat g.toNat⟩ goal
    (Rendition.rgb r.toNat g.toNat b.toNat) = _
  rw [rgb_toNat]
  rfl

/-- An indexed color in the parts of one parameter. -/
theorem indexedParts (h : target n = some goal) (index : UInt8) :
    Selects [[n, 5, index.toNat]] (·.setColor (.indexed index) goal) := by
  intro pen
  rw [Parameters.params, List.foldl_cons, start_parts h, colorOf, byte_toNat]
  rfl

/-- A true color in the parts of one parameter, with no number for the color space. -/
theorem rgbParts (h : target n = some goal) (r g b : UInt8) :
    Selects [[n, 2, 0, r.toNat, g.toNat, b.toNat]] (·.setColor (.rgb r g b) goal) := by
  intro pen
  rw [Parameters.params, List.foldl_cons, start_parts h, colorOf, rgb_toNat]
  rfl

end Selects

/-! ## Texts that set the pen -/

/-- The text of parameters that change the pen. -/
def Setting (text : List Char) (f : Pen → Pen) : Prop :=
  ∃ fields, text = join fields ∧ fields ≠ [] ∧ Numeric fields ∧ Selects (numbers fields) f

/-- A number as text. -/
def toDecimal (n : ℕ) : List Char := Nat.toDigits 10 n

/-- The texts of parameters, whose parts may be missing. -/
def partTexts (fields : List (List (Option ℕ))) : List (List (List Char)) :=
  fields.map fun field ↦ field.map fun part ↦ part.elim [] toDecimal

theorem numeric_partTexts {fields : List (List (Option ℕ))} (h : ∀ field ∈ fields, field ≠ []) :
    Numeric (partTexts fields) := by
  intro texts hmem
  obtain ⟨field, hfield, rfl⟩ := List.mem_map.mp hmem
  refine ⟨fun hnil ↦ h field hfield (List.map_eq_nil_iff.mp hnil), fun text htext ↦ ?_⟩
  obtain ⟨part, -, rfl⟩ := List.mem_map.mp htext
  cases part with
  | none => rfl
  | some n =>
    exact List.all_eq_true.mpr fun c hc ↦
      Nat.isDigit_of_mem_toDigits (by decide) (by decide) hc

theorem numbers_partTexts (fields : List (List (Option ℕ))) :
    numbers (partTexts fields) = fields.map fun field ↦ field.map (·.getD 0) := by
  have hpart : ∀ part : Option ℕ, Nat.ofDigitChars 10 (part.elim [] toDecimal) 0 = part.getD 0 := by
    intro part
    cases part with
    | none => exact Nat.ofDigitChars_nil
    | some n => exact Nat.ofDigitChars_ten_toDigits
  rw [numbers, partTexts, List.map_map]
  refine List.map_congr_left fun field _ ↦ ?_
  rw [Function.comp_apply, List.map_map]
  exact List.map_congr_left fun part _ ↦ hpart part

/-- A text is a setting when it is that of parameters which select the change. -/
theorem setting_of_parts {text : List Char} {f : Pen → Pen} (fields : List (List (Option ℕ)))
    (htext : text = join (partTexts fields)) (hne : fields ≠ [])
    (hparts : ∀ field ∈ fields, field ≠ [])
    (h : Selects (fields.map fun field ↦ field.map (·.getD 0)) f) : Setting text f := by
  refine ⟨partTexts fields, htext, fun hnil ↦ hne (List.map_eq_nil_iff.mp hnil),
    numeric_partTexts hparts, ?_⟩
  rw [numbers_partTexts]
  exact h

/-- A text that resets the pen and goes on with settings changes it by them, one after another. -/
theorem exists_join_settings {texts : List (List Char)} {changes : List (Pen → Pen)}
    (h : List.Forall₂ Setting texts changes) {fields : List (List (List Char))} {f : Pen → Pen}
    (hne : fields ≠ []) (hnumeric : Numeric fields) (hselects : Selects (numbers fields) f) :
    Setting (join fields ++ texts.flatMap (';' :: ·)) fun pen ↦
      changes.foldl (fun pen change ↦ change pen) (f pen) := by
  induction h generalizing fields f with
  | nil => exact ⟨fields, by rw [List.flatMap_nil, List.append_nil], hne, hnumeric, hselects⟩
  | @cons text change texts changes hsetting _ ih =>
    obtain ⟨more, rfl, hmore, hnumericMore, hselectsMore⟩ := hsetting
    have happend : join (fields ++ more) = join fields ++ ';' :: join more := join_append hne hmore
    have hnumbers : numbers (fields ++ more) = numbers fields ++ numbers more := List.map_append
    have hchanges : Selects (numbers (fields ++ more)) (change ∘ f) := by
      rw [hnumbers]
      exact hselects.append hselectsMore
    have hrest := ih (List.append_ne_nil_of_left_ne_nil hne more)
      (hnumeric.append hnumericMore) hchanges
    rw [happend, List.append_assoc] at hrest
    rw [List.flatMap_cons]
    exact hrest

/-- A sequence that resets the pen and goes on with settings. -/
theorem Display.run_settings {texts : List (List Char)} {changes : List (Pen → Pen)}
    (h : List.Forall₂ Setting texts changes) (shown : List (Char × Pen)) (pen : Pen) :
    (Display.mk shown pen .ground).run
        ('\x1b' :: '[' :: ('0' :: texts.flatMap (';' :: ·) ++ ['m'])) =
      ⟨shown, changes.foldl (fun pen change ↦ change pen) .plain, .ground⟩ := by
  have hreset : Numeric [[['0']]] := by
    intro field hmem
    obtain rfl := List.mem_singleton.mp hmem
    exact ⟨List.cons_ne_nil _ _, by decide⟩
  obtain ⟨fields, htext, hne, hnumeric, hselects⟩ :=
    exists_join_settings h (List.cons_ne_nil _ _) hreset (Selects.basic (n := 0) rfl)
  have hzero : '0' :: texts.flatMap (';' :: ·) = join fields := htext
  rw [hzero, Display.run_sgr shown pen hnumeric hne, hselects.apply]
  rfl

end Rendition
