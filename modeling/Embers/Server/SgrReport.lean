import Embers.Lib.Rendition
import Embers.Server.LineBuild

/-!
# The pen as parameters

A program asks for the pen its terminal draws in, and is answered with the parameters that set it:
`sgr_report`. Each attribute that is on has its code, each color that is not the default the parts of
one parameter, and a reset stands before all of them. Whatever the pen was, read by a terminal they
set the pen they were written for (`run_sgrReport`).
-/

namespace Embers.Server

open Client Rendition

/-! ## The report -/

/-- The attributes with their codes. -/
def sgrCodes : List (UInt16 × List Char) :=
  [(CellAttrs.bold, ['1']), (CellAttrs.dim, ['2']), (CellAttrs.italic, ['3']),
    (CellAttrs.underline, ['4']), (CellAttrs.doubleUnderline, ['4', ':', '2']),
    (CellAttrs.curlyUnderline, ['4', ':', '3']), (CellAttrs.dottedUnderline, ['4', ':', '4']),
    (CellAttrs.dashedUnderline, ['4', ':', '5']), (CellAttrs.inverse, ['7']),
    (CellAttrs.hidden, ['8']), (CellAttrs.strikeout, ['9'])]

/-- The codes of the attributes that are on. -/
def attrParams (attrs : CellAttrs) : List (List Char) :=
  sgrCodes.flatMap fun code ↦ if attrs.contains code.1 then [code.2] else []

def reportColor (base : ℕ) : TermColor → List (List Char)
  | .default => []
  | .indexed index => [toDecimal base ++ [':', '5', ':'] ++ toDecimal index.toNat]
  | .rgb r g b =>
    [toDecimal base ++ [':', '2', ':', ':'] ++ toDecimal r.toNat ++ ':' :: toDecimal g.toNat ++
      ':' :: toDecimal b.toNat]

/-- The parameters that recreate a pen. -/
def sgrReport (pen : Server.Pen) : List Char :=
  '0' :: (attrParams pen.attrs ++ reportColor 38 pen.fg ++ reportColor 48 pen.bg ++
    reportColor 58 pen.underlineColor).flatMap (';' :: ·)

/-! ## The pen of a terminal -/

/-- The underlines with their styles. -/
def underlines : List (UInt16 × Underline) :=
  [(CellAttrs.underline, .single), (CellAttrs.doubleUnderline, .double),
    (CellAttrs.curlyUnderline, .curly), (CellAttrs.dottedUnderline, .dotted),
    (CellAttrs.dashedUnderline, .dashed)]

/-- At most one underline is on. -/
def OneUnderline (attrs : CellAttrs) : Prop :=
  underlines.Pairwise fun one other ↦ ¬(attrs.contains one.1 ∧ attrs.contains other.1)

instance (attrs : CellAttrs) : Decidable (OneUnderline attrs) :=
  inferInstanceAs (Decidable (List.Pairwise _ _))

def underlineOf (attrs : CellAttrs) : Underline :=
  ((underlines.find? fun one ↦ attrs.contains one.1).map (·.2)).getD .none

def colorOf : TermColor → Rendition.Color
  | .default => .default
  | .indexed index => .indexed index
  | .rgb r g b => .rgb r g b

/-- A pen as a terminal has it. -/
def Pen.rendition (pen : Server.Pen) : Rendition.Pen where
  bold := pen.attrs.contains CellAttrs.bold
  dim := pen.attrs.contains CellAttrs.dim
  italic := pen.attrs.contains CellAttrs.italic
  underline := underlineOf pen.attrs
  inverse := pen.attrs.contains CellAttrs.inverse
  hidden := pen.attrs.contains CellAttrs.hidden
  strikeout := pen.attrs.contains CellAttrs.strikeout
  fg := colorOf pen.fg
  bg := colorOf pen.bg
  underlineColor := colorOf pen.underlineColor

/-! ## What the attributes come to -/

/-- What the code of an attribute does. -/
def sgrChanges : List (UInt16 × (Rendition.Pen → Rendition.Pen)) :=
  [(CellAttrs.bold, (·.basic 1)), (CellAttrs.dim, (·.basic 2)), (CellAttrs.italic, (·.basic 3)),
    (CellAttrs.underline, (·.basic 4)), (CellAttrs.doubleUnderline, (·.setUnderline 2)),
    (CellAttrs.curlyUnderline, (·.setUnderline 3)), (CellAttrs.dottedUnderline, (·.setUnderline 4)),
    (CellAttrs.dashedUnderline, (·.setUnderline 5)), (CellAttrs.inverse, (·.basic 7)),
    (CellAttrs.hidden, (·.basic 8)), (CellAttrs.strikeout, (·.basic 9))]

def attrChanges (attrs : CellAttrs) : List (Rendition.Pen → Rendition.Pen) :=
  sgrChanges.flatMap fun change ↦ if attrs.contains change.1 then [change.2] else []

/-- Each code does what its attribute asks for. -/
theorem forall₂_sgrChanges : List.Forall₂ (fun (code : UInt16 × List Char)
    (change : UInt16 × (Rendition.Pen → Rendition.Pen)) ↦
      code.1 = change.1 ∧ Setting code.2 change.2) sgrCodes sgrChanges := by
  have hbasic : ∀ (n : ℕ) (text : List Char), text = join (partTexts [[some n]]) → target n = none →
      Setting text (·.basic n) := fun n text htext htarget ↦
    setting_of_parts [[some n]] htext (List.cons_ne_nil _ _) (by simp) (Selects.basic htarget)
  have hunderline : ∀ (n : ℕ) (text : List Char), text = join (partTexts [[some 4, some n]]) →
      Setting text (·.setUnderline n) := fun n text htext ↦
    setting_of_parts [[some 4, some n]] htext (List.cons_ne_nil _ _) (by simp) (Selects.underline n)
  refine .cons ⟨rfl, hbasic 1 _ rfl rfl⟩ <| .cons ⟨rfl, hbasic 2 _ rfl rfl⟩ <|
    .cons ⟨rfl, hbasic 3 _ rfl rfl⟩ <| .cons ⟨rfl, hbasic 4 _ rfl rfl⟩ <|
    .cons ⟨rfl, hunderline 2 _ rfl⟩ <| .cons ⟨rfl, hunderline 3 _ rfl⟩ <|
    .cons ⟨rfl, hunderline 4 _ rfl⟩ <| .cons ⟨rfl, hunderline 5 _ rfl⟩ <|
    .cons ⟨rfl, hbasic 7 _ rfl rfl⟩ <| .cons ⟨rfl, hbasic 8 _ rfl rfl⟩ <|
    .cons ⟨rfl, hbasic 9 _ rfl rfl⟩ .nil

theorem forall₂_attrChanges (attrs : CellAttrs) :
    List.Forall₂ Setting (attrParams attrs) (attrChanges attrs) := by
  have hcodes := forall₂_sgrChanges
  unfold attrParams attrChanges
  generalize sgrCodes = codes at hcodes ⊢
  generalize sgrChanges = changes at hcodes ⊢
  induction hcodes with
  | nil => exact .nil
  | @cons code change codes changes hboth _ ih =>
    obtain ⟨hflag, hsetting⟩ := hboth
    rw [List.flatMap_cons, List.flatMap_cons, ← hflag]
    split
    · exact .cons hsetting ih
    · exact ih

/-- A change that is made when a flag is on. -/
theorem foldl_flag (on : Bool) (change : Rendition.Pen → Rendition.Pen) (pen : Rendition.Pen) :
    (if on then [change] else []).foldl (fun pen change ↦ change pen) pen =
      if on then change pen else pen := by
  cases on <;> rfl

/-- At most one underline is on, so the first of them is the last. -/
theorem underlineOf_last {attrs : CellAttrs} (h : OneUnderline attrs) :
    underlineOf attrs =
      underlines.foldl (fun style one ↦ if attrs.contains one.1 then one.2 else style) .none := by
  unfold OneUnderline at h
  unfold underlineOf
  generalize underlines = styles at h ⊢
  induction styles with
  | nil => rfl
  | cons one styles ih =>
    obtain ⟨hone, hrest⟩ := List.pairwise_cons.mp h
    rw [List.find?_cons, List.foldl_cons]
    cases hon : attrs.contains one.1 with
    | false => exact ih hrest
    | true =>
      -- None of the others is on.
      have hoff : ∀ other ∈ styles, attrs.contains other.1 = false := fun other hmem ↦
        Bool.of_not_eq_true fun hother ↦ hone other hmem ⟨hon, hother⟩
      have hstays : ∀ (styles : List (UInt16 × Underline)) (style : Underline),
          (∀ other ∈ styles, attrs.contains other.1 = false) →
          styles.foldl (fun style one ↦ if attrs.contains one.1 then one.2 else style) style =
            style := by
        intro styles style hoff
        induction styles with
        | nil => rfl
        | cons other styles ih =>
          obtain ⟨hother, hothers⟩ := List.forall_mem_cons.mp hoff
          rw [List.foldl_cons, hother, if_neg Bool.false_ne_true, ih hothers]
      exact (hstays styles one.2 hoff).symm

section Flags

variable (on b d i v h s : Bool) (u style : Underline) (f g c : Rendition.Color)

theorem flag_bold : (if on then (Rendition.Pen.mk false d i u v h s f g c).basic 1
    else ⟨false, d, i, u, v, h, s, f, g, c⟩) = ⟨on, d, i, u, v, h, s, f, g, c⟩ := by
  cases on <;> rfl

theorem flag_dim : (if on then (Rendition.Pen.mk b false i u v h s f g c).basic 2
    else ⟨b, false, i, u, v, h, s, f, g, c⟩) = ⟨b, on, i, u, v, h, s, f, g, c⟩ := by
  cases on <;> rfl

theorem flag_italic : (if on then (Rendition.Pen.mk b d false u v h s f g c).basic 3
    else ⟨b, d, false, u, v, h, s, f, g, c⟩) = ⟨b, d, on, u, v, h, s, f, g, c⟩ := by
  cases on <;> rfl

theorem flag_inverse : (if on then (Rendition.Pen.mk b d i u false h s f g c).basic 7
    else ⟨b, d, i, u, false, h, s, f, g, c⟩) = ⟨b, d, i, u, on, h, s, f, g, c⟩ := by
  cases on <;> rfl

theorem flag_hidden : (if on then (Rendition.Pen.mk b d i u v false s f g c).basic 8
    else ⟨b, d, i, u, v, false, s, f, g, c⟩) = ⟨b, d, i, u, v, on, s, f, g, c⟩ := by
  cases on <;> rfl

theorem flag_strikeout : (if on then (Rendition.Pen.mk b d i u v h false f g c).basic 9
    else ⟨b, d, i, u, v, h, false, f, g, c⟩) = ⟨b, d, i, u, v, h, on, f, g, c⟩ := by
  cases on <;> rfl

theorem flag_single : (if on then (Rendition.Pen.mk b d i u v h s f g c).basic 4
    else ⟨b, d, i, u, v, h, s, f, g, c⟩) =
      ⟨b, d, i, if on then .single else u, v, h, s, f, g, c⟩ := by
  cases on <;> rfl

/-- The styles of underlines by their numbers. -/
theorem flag_underline {n : ℕ} (hstyle : ∀ pen : Rendition.Pen, pen.setUnderline n =
    { pen with underline := style }) :
    (if on then (Rendition.Pen.mk b d i u v h s f g c).setUnderline n
      else ⟨b, d, i, u, v, h, s, f, g, c⟩) =
      ⟨b, d, i, if on then style else u, v, h, s, f, g, c⟩ := by
  rw [hstyle]
  cases on <;> rfl

end Flags

/-- From the plain pen, the attributes come to those that are on. -/
theorem foldl_attrChanges {attrs : CellAttrs} (h : OneUnderline attrs) :
    (attrChanges attrs).foldl (fun pen change ↦ change pen) Rendition.Pen.plain =
      (Server.Pen.mk .default .default attrs .default).rendition := by
  have hunderline := underlineOf_last h
  simp only [underlines, List.foldl_cons, List.foldl_nil] at hunderline
  simp only [attrChanges, sgrChanges, List.flatMap_cons, List.flatMap_nil, List.append_nil,
    List.foldl_append, foldl_flag, Rendition.Pen.plain]
  have hdouble : ∀ pen : Rendition.Pen, pen.setUnderline 2 = { pen with underline := .double } :=
    fun _ ↦ rfl
  have hcurly : ∀ pen : Rendition.Pen, pen.setUnderline 3 = { pen with underline := .curly } :=
    fun _ ↦ rfl
  have hdotted : ∀ pen : Rendition.Pen, pen.setUnderline 4 = { pen with underline := .dotted } :=
    fun _ ↦ rfl
  have hdashed : ∀ pen : Rendition.Pen, pen.setUnderline 5 = { pen with underline := .dashed } :=
    fun _ ↦ rfl
  rw [flag_bold, flag_dim, flag_italic, flag_single, flag_underline _ _ _ _ _ _ _ _ _ _ _ _ hdouble,
    flag_underline _ _ _ _ _ _ _ _ _ _ _ _ hcurly, flag_underline _ _ _ _ _ _ _ _ _ _ _ _ hdotted,
    flag_underline _ _ _ _ _ _ _ _ _ _ _ _ hdashed, flag_inverse, flag_hidden, flag_strikeout,
    ← hunderline]
  rfl

/-! ## Colors -/

/-- Parameters that change a color from the default one. -/
def WritesColor (params : List (List Char)) (color : TermColor) (goal : ColorSlot) : Prop :=
  ∃ changes, List.Forall₂ Setting params changes ∧
    ∀ pen : Rendition.Pen, pen.setColor .default goal = pen →
      changes.foldl (fun pen change ↦ change pen) pen = pen.setColor (colorOf color) goal

theorem WritesColor.nil (goal : ColorSlot) : WritesColor [] .default goal :=
  ⟨[], .nil, fun _ hplain ↦ hplain.symm⟩

theorem WritesColor.singleton {text : List Char} {color : TermColor} {goal : ColorSlot}
    (h : Setting text (·.setColor (colorOf color) goal)) : WritesColor [text] color goal :=
  ⟨[(·.setColor (colorOf color) goal)], .cons h .nil, fun _ _ ↦ rfl⟩

theorem writesColor_reportColor {base : ℕ} {goal : ColorSlot} (h : target base = some goal)
    (color : TermColor) : WritesColor (reportColor base color) color goal := by
  cases color with
  | default => exact .nil goal
  | indexed index =>
    have hfive : toDecimal 5 = ['5'] := rfl
    exact .singleton (setting_of_parts [[some base, some 5, some index.toNat]]
      (by simp [join, partTexts, hfive]) (List.cons_ne_nil _ _) (by simp)
      (Selects.indexedParts h index))
  | rgb r g b =>
    have htwo : toDecimal 2 = ['2'] := rfl
    exact .singleton (setting_of_parts
      [[some base, some 2, none, some r.toNat, some g.toNat, some b.toNat]]
      (by simp [join, partTexts, htwo]) (List.cons_ne_nil _ _) (by simp)
      (Selects.rgbParts h r g b))

/-! ## A pen -/

/-- A reset, the attributes and the colors, whatever the pen was. -/
theorem run_penParams {pen : Server.Pen} (h : OneUnderline pen.attrs)
    {fg bg underline : List (List Char)} (hfg : WritesColor fg pen.fg .fg)
    (hbg : WritesColor bg pen.bg .bg)
    (hunderline : WritesColor underline pen.underlineColor .underline)
    (shown : List (Char × Rendition.Pen)) (previous : Rendition.Pen) :
    (Display.mk shown previous .ground).run ('\x1b' :: '[' ::
      ('0' :: (attrParams pen.attrs ++ fg ++ bg ++ underline).flatMap (';' :: ·) ++ ['m'])) =
      ⟨shown, pen.rendition, .ground⟩ := by
  obtain ⟨fgChanges, hfgSettings, hfgFold⟩ := hfg
  obtain ⟨bgChanges, hbgSettings, hbgFold⟩ := hbg
  obtain ⟨underlineChanges, hunderlineSettings, hunderlineFold⟩ := hunderline
  have hsettings := List.rel_append (List.rel_append (List.rel_append
    (forall₂_attrChanges pen.attrs) hfgSettings) hbgSettings) hunderlineSettings
  rw [Display.run_settings hsettings, List.foldl_append, List.foldl_append, List.foldl_append,
    foldl_attrChanges h, hfgFold _ rfl, hbgFold _ rfl, hunderlineFold _ rfl]
  rfl

/-! ### Every pen of a terminal -/

/-- The attributes of a terminal's pen. -/
def attrsOf (pen : Rendition.Pen) : CellAttrs :=
  [(pen.bold, CellAttrs.bold), (pen.dim, CellAttrs.dim), (pen.italic, CellAttrs.italic),
    (pen.inverse, CellAttrs.inverse), (pen.hidden, CellAttrs.hidden),
    (pen.strikeout, CellAttrs.strikeout), (decide (pen.underline = .single), CellAttrs.underline),
    (decide (pen.underline = .double), CellAttrs.doubleUnderline),
    (decide (pen.underline = .curly), CellAttrs.curlyUnderline),
    (decide (pen.underline = .dotted), CellAttrs.dottedUnderline),
    (decide (pen.underline = .dashed), CellAttrs.dashedUnderline)].foldl insertAttr ⟨0⟩

def termColor : Rendition.Color → TermColor
  | .default => .default
  | .indexed index => .indexed index
  | .rgb r g b => .rgb r g b

theorem colorOf_termColor (color : Rendition.Color) : colorOf (termColor color) = color := by
  cases color <;> rfl

/-- What there is to check of the attributes of a pen. -/
def FlagsKept (pen : Rendition.Pen) : Prop :=
  OneUnderline (attrsOf pen) ∧ (attrsOf pen).contains CellAttrs.bold = pen.bold ∧
    (attrsOf pen).contains CellAttrs.dim = pen.dim ∧
    (attrsOf pen).contains CellAttrs.italic = pen.italic ∧ underlineOf (attrsOf pen) = pen.underline ∧
    (attrsOf pen).contains CellAttrs.inverse = pen.inverse ∧
    (attrsOf pen).contains CellAttrs.hidden = pen.hidden ∧
    (attrsOf pen).contains CellAttrs.strikeout = pen.strikeout

instance (pen : Rendition.Pen) : Decidable (FlagsKept pen) := inferInstanceAs (Decidable (_ ∧ _))

theorem flagsKept_plain : ∀ b d i v h s : Bool,
    ∀ u ∈ [Underline.none, .single, .double, .curly, .dotted, .dashed],
      FlagsKept ⟨b, d, i, u, v, h, s, .default, .default, .default⟩ := by
  decide +kernel

theorem flagsKept_attrsOf (pen : Rendition.Pen) : FlagsKept pen := by
  obtain ⟨b, d, i, u, v, h, s, fg, bg, underlineColor⟩ := pen
  exact flagsKept_plain b d i v h s u (by cases u <;> decide)

/-- The pen of a terminal as the server keeps it. -/
def penOf (pen : Rendition.Pen) : Server.Pen :=
  ⟨termColor pen.fg, termColor pen.bg, attrsOf pen, termColor pen.underlineColor⟩

theorem rendition_penOf (pen : Rendition.Pen) : (penOf pen).rendition = pen := by
  obtain ⟨-, hbold, hdim, hitalic, hunderline, hinverse, hhidden, hstrikeout⟩ := flagsKept_attrsOf pen
  ext1
  · exact hbold
  · exact hdim
  · exact hitalic
  · exact hunderline
  · exact hinverse
  · exact hhidden
  · exact hstrikeout
  · exact colorOf_termColor pen.fg
  · exact colorOf_termColor pen.bg
  · exact colorOf_termColor pen.underlineColor

/-- **The report of a pen.** Applied from any pen, its parameters leave the pen it was written for. -/
theorem run_sgrReport {pen : Server.Pen} (h : OneUnderline pen.attrs)
    (shown : List (Char × Rendition.Pen)) (previous : Rendition.Pen) :
    (Display.mk shown previous .ground).run ('\x1b' :: '[' :: (sgrReport pen ++ ['m'])) =
      ⟨shown, pen.rendition, .ground⟩ :=
  run_penParams h (writesColor_reportColor rfl pen.fg) (writesColor_reportColor rfl pen.bg)
    (writesColor_reportColor rfl pen.underlineColor) shown previous

/-- Every pen of a terminal is reported. -/
theorem run_sgrReport_penOf (pen : Rendition.Pen) (shown : List (Char × Rendition.Pen))
    (previous : Rendition.Pen) :
    (Display.mk shown previous .ground).run ('\x1b' :: '[' :: (sgrReport (penOf pen) ++ ['m'])) =
      ⟨shown, pen, .ground⟩ := by
  rw [run_sgrReport (flagsKept_attrsOf pen).1, rendition_penOf]

end Embers.Server
