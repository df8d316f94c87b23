import Embers.Server.SgrReport

/-!
# Captured lines with their styles

`capture-pane -e` prints a line with escape sequences for the colors and attributes of its runs:
before the text of a run, a sequence that resets the pen and sets the run's, unless both the run and
the one before it are plain; and a reset at the end of the line, unless its last run is plain.

Read by a terminal, the line shows each character in the pen of its run, and the pen is plain after
it (`capture_sgr`). The report a program gets of the pen sets the same pen, in other words for the colors.
-/

namespace Embers.Cli

open Client Server Rendition

/-! ## Rendering -/

/-- The parameter that selects a color: `base + n` for the eight basic colors and `bright + n - 8` for their
bright forms, when the attribute has them. -/
def colorParam (color : TermColor) (base bright extended : ℕ) : Option (List Char) :=
  match color with
  | .default => none
  | .indexed index =>
    if base ≠ 0 ∧ index.toNat < 8 then some (toDecimal (base + index.toNat))
    else if bright ≠ 0 ∧ index.toNat < 16 then some (toDecimal (bright + index.toNat - 8))
    else some (toDecimal extended ++ [';', '5', ';'] ++ toDecimal index.toNat)
  | .rgb r g b =>
    some (toDecimal extended ++ [';', '2', ';'] ++ toDecimal r.toNat ++ ';' :: toDecimal g.toNat ++
      ';' :: toDecimal b.toNat)

def sgrParams (run : StyledRun) : List (List Char) :=
  attrParams run.attrs ++ (colorParam run.fg 30 90 38).toList ++
    (colorParam run.bg 40 100 48).toList ++ (colorParam run.underlineColor 0 0 58).toList

/-- `str::get(start..stop)`, or nothing. -/
def textBetween (text : List Char) (start stop : ℕ) : List Char :=
  (do
    let (_, rest) ← splitBytes start text
    let (part, _) ← splitBytes (stop - start) rest
    return part).getD []

/-- `str::get(start..)`, or nothing. -/
def textFrom (text : List Char) (start : ℕ) : List Char :=
  ((splitBytes start text).map (·.2)).getD []

structure Rendering where
  output : List Char
  offset : ℕ
  /-- Whether the pen was set to what is not plain. -/
  styled : Bool

def resetSequence (params : List (List Char)) : List Char :=
  '\x1b' :: '[' :: ('0' :: params.flatMap (';' :: ·) ++ ['m'])

def renderRun (text : List Char) (s : Rendering) (run : StyledRun) : Rendering :=
  let stop := min (s.offset + run.len) (byteLength text)
  let params := sgrParams run
  let set := params ≠ [] ∨ s.styled = true
  { output := s.output ++ (if set then resetSequence params else []) ++ textBetween text s.offset stop
    offset := stop
    styled := if set then decide (params ≠ []) else s.styled }

/-- A line with sequences for its colors and attributes, which ends in a reset when any style is set. -/
def renderWithEscapes (line : StyledLine) : List Char :=
  if line.runs = [] then line.text
  else
    let s := line.runs.foldl (renderRun line.text) ⟨[], 0, false⟩
    s.output ++ textFrom line.text s.offset ++ if s.styled then resetSequence [] else []

/-! ## What a line shows -/

/-- The text of each run, if the runs cover the text on character boundaries. -/
def pieces : List Char → List StyledRun → Option (List (StyledRun × List Char))
  | text, [] => if text = [] then some [] else none
  | text, run :: runs =>
    (splitBytes run.len text).bind fun parts ↦
      (pieces parts.2 runs).map ((run, parts.1) :: ·)

def runPen (run : StyledRun) : Rendition.Pen := (runStyle run).1.rendition

/-- A run's text in its pen. -/
def shownPiece (piece : StyledRun × List Char) : List (Char × Rendition.Pen) :=
  piece.2.map fun ch ↦ (ch, runPen piece.1)

/-- The characters of a line in the pens of their runs. -/
def shownLine (line : StyledLine) : Option (List (Char × Rendition.Pen)) :=
  if line.runs = [] then some (line.text.map fun ch ↦ (ch, Rendition.Pen.plain))
  else (pieces line.text line.runs).map (·.flatMap shownPiece)

/-! ## The parameters -/

theorem basic_add {base : ℕ} {n : ℕ} {goal : ColorSlot} (hn : n < 8)
    (hbase : base = 30 ∧ goal = .fg ∨ base = 40 ∧ goal = .bg) (pen : Rendition.Pen) :
    pen.basic (base + n) = pen.setColor (.indexed (UInt8.ofNat n)) goal := by
  obtain ⟨rfl, rfl⟩ | ⟨rfl, rfl⟩ := hbase
  · interval_cases n <;> rfl
  · interval_cases n <;> rfl

theorem basic_bright {bright : ℕ} {n : ℕ} {goal : ColorSlot} (hlow : 8 ≤ n) (hn : n < 16)
    (hbright : bright = 90 ∧ goal = .fg ∨ bright = 100 ∧ goal = .bg) (pen : Rendition.Pen) :
    pen.basic (bright + n - 8) = pen.setColor (.indexed (UInt8.ofNat n)) goal := by
  obtain ⟨rfl, rfl⟩ | ⟨rfl, rfl⟩ := hbright
  · interval_cases n <;> rfl
  · interval_cases n <;> rfl

/-- A number that selects an indexed color. -/
theorem setting_indexed {n : ℕ} {index : UInt8} {goal : ColorSlot} (h : target n = none)
    (hbasic : ∀ pen : Rendition.Pen,
      pen.basic n = pen.setColor (.indexed (UInt8.ofNat index.toNat)) goal) :
    Setting (toDecimal n) (·.setColor (.indexed index) goal) := by
  have hchange : (fun pen : Rendition.Pen ↦ pen.basic n) =
      (·.setColor (.indexed index) goal) := by
    funext pen
    rw [hbasic, UInt8.ofNat_toNat]
  rw [← hchange]
  exact setting_of_parts [[some n]] (by simp [join, partTexts]) (List.cons_ne_nil _ _) (by simp)
    (Selects.basic h)

theorem target_of_basic {n : ℕ} (h : n < 38 ∨ 38 < n ∧ n < 48 ∨ 58 < n) : target n = none := by
  rw [target, if_neg (by omega), if_neg (by omega), if_neg (by omega)]

/-- The numbers for what a color is for: the basic ones, the bright ones and that of the longer forms. -/
inductive ColorNumbers : ℕ → ℕ → ℕ → ColorSlot → Prop where
  | fg : ColorNumbers 30 90 38 .fg
  | bg : ColorNumbers 40 100 48 .bg
  | underline : ColorNumbers 0 0 58 .underline

theorem writesColor_colorParam {base bright extended : ℕ} {goal : ColorSlot}
    (h : ColorNumbers base bright extended goal) (color : TermColor) :
    WritesColor (colorParam color base bright extended).toList color goal := by
  have htarget : target extended = some goal := by cases h <;> rfl
  cases color with
  | default => exact .nil goal
  | indexed index =>
    simp only [colorParam]
    split_ifs with hbasic hbright
    · obtain ⟨hbase, hlow⟩ := hbasic
      refine .singleton (setting_indexed (target_of_basic ?_) (basic_add hlow ?_))
      · cases h with
        | fg => omega
        | bg => omega
        | underline => omega
      · cases h with
        | fg => exact .inl ⟨rfl, rfl⟩
        | bg => exact .inr ⟨rfl, rfl⟩
        | underline => exact absurd rfl hbase
    · obtain ⟨hbright, hhigh⟩ := hbright
      refine .singleton (setting_indexed (target_of_basic ?_) (basic_bright ?_ hhigh ?_))
      · cases h with
        | fg => omega
        | bg => omega
        | underline => omega
      · cases h with
        | fg => omega
        | bg => omega
        | underline => omega
      · cases h with
        | fg => exact .inl ⟨rfl, rfl⟩
        | bg => exact .inr ⟨rfl, rfl⟩
        | underline => exact absurd rfl hbright
    · have hfive : toDecimal 5 = ['5'] := rfl
      exact .singleton (setting_of_parts [[some extended], [some 5], [some index.toNat]]
        (by simp [join, partTexts, hfive]) (List.cons_ne_nil _ _) (by simp)
        (Selects.indexed htarget index))
  | rgb r g b =>
    have htwo : toDecimal 2 = ['2'] := rfl
    exact .singleton (setting_of_parts
      [[some extended], [some 2], [some r.toNat], [some g.toNat], [some b.toNat]]
      (by simp [join, partTexts, htwo]) (List.cons_ne_nil _ _) (by simp)
      (Selects.rgb htarget r g b))

/-- A run's sequence sets its pen, whatever the pen was. -/
theorem run_sgrParams {run : StyledRun} (h : OneUnderline run.attrs)
    (shown : List (Char × Rendition.Pen)) (previous : Rendition.Pen) :
    (Display.mk shown previous .ground).run (resetSequence (sgrParams run)) =
      ⟨shown, runPen run, .ground⟩ := by
  have hattrs : OneUnderline (runStyle run).1.attrs := h
  exact run_penParams hattrs (writesColor_colorParam .fg run.fg) (writesColor_colorParam .bg run.bg)
    (writesColor_colorParam .underline run.underlineColor) shown previous

theorem run_reset (shown : List (Char × Rendition.Pen)) (previous : Rendition.Pen) :
    (Display.mk shown previous .ground).run (resetSequence []) = ⟨shown, .plain, .ground⟩ :=
  Display.run_settings .nil shown previous

/-- A run without parameters is plain. -/
theorem runPen_of_nil {run : StyledRun} (h : OneUnderline run.attrs) (hnil : sgrParams run = []) :
    runPen run = .plain := by
  have hrun := run_sgrParams h [] Rendition.Pen.plain
  rw [hnil, run_reset] at hrun
  exact (congrArg Display.pen hrun).symm

/-! ## Whole lines -/

theorem textBetween_append (before part rest : List Char) :
    textBetween (before ++ (part ++ rest)) (byteLength before) (byteLength before + byteLength part) =
      part := by
  have hstart := splitBytes_append before (part ++ rest)
  have hstop := splitBytes_append part rest
  rw [textBetween, Nat.add_sub_cancel_left]
  simp only [hstart, hstop, Option.bind_eq_bind, Option.bind_some, Option.pure_def,
    Option.getD_some]

theorem textFrom_end (text : List Char) : textFrom text (byteLength text) = [] := by
  have h := splitBytes_append text []
  rw [List.append_nil] at h
  rw [textFrom, h]
  rfl

/-- What has been written of a line: it shows `shown`, and the pen is plain unless a style is set. -/
structure Shows (s : Rendering) (shown : List (Char × Rendition.Pen)) (pen : Rendition.Pen) : Prop where
  run : Display.start.run s.output = ⟨shown, pen, .ground⟩
  plain : s.styled = false → pen = .plain

/-- One run. -/
theorem Shows.renderRun {s : Rendering} {shown : List (Char × Rendition.Pen)} {pen : Rendition.Pen}
    {run : StyledRun} {before part : List Char} (h : Shows s shown pen) (rest : List Char)
    (hoffset : s.offset = byteLength before) (hlen : byteLength part = run.len)
    (hone : OneUnderline run.attrs) (hpart : ∀ ch ∈ part, ¬IsControl ch) :
    Shows (renderRun (before ++ (part ++ rest)) s run) (shown ++ shownPiece (run, part))
        (runPen run) ∧
      (Cli.renderRun (before ++ (part ++ rest)) s run).offset = byteLength (before ++ part) := by
  have hstop : min (s.offset + run.len) (byteLength (before ++ (part ++ rest))) =
      byteLength before + byteLength part := by
    rw [byteLength_append, byteLength_append, hoffset, hlen]
    omega
  have htext : textBetween (before ++ (part ++ rest)) s.offset
      (byteLength before + byteLength part) = part := by
    rw [hoffset]
    exact textBetween_append before part rest
  refine ⟨?_, by rw [Cli.renderRun, hstop, byteLength_append]⟩
  have hshown : ∀ (sent : List Char), (Display.mk shown pen .ground).run sent =
      ⟨shown, runPen run, .ground⟩ → Display.start.run (s.output ++ sent ++ part) =
        ⟨shown ++ shownPiece (run, part), runPen run, .ground⟩ := by
    intro sent hsent
    rw [Display.run_append, Display.run_append, h.run, hsent, Display.run_text _ _ hpart]
    rfl
  by_cases hset : sgrParams run ≠ [] ∨ s.styled = true
  · refine ⟨?_, fun hstyled ↦ ?_⟩
    · simp only [Cli.renderRun, if_pos hset, hstop, htext]
      exact hshown _ (run_sgrParams hone shown pen)
    · simp only [Cli.renderRun, if_pos hset, decide_eq_false_iff_not, not_not] at hstyled
      exact runPen_of_nil hone hstyled
  · obtain ⟨hparams, hstyled⟩ := not_or.mp hset
    have hnil := runPen_of_nil hone (not_not.mp hparams)
    have hpen : pen = .plain := h.plain (Bool.of_not_eq_true hstyled)
    refine ⟨?_, fun _ ↦ hnil⟩
    simp only [Cli.renderRun, if_neg hset, hstop, htext]
    refine hshown [] ?_
    rw [hnil, hpen]
    rfl

theorem shows_renderRuns {runs : List StyledRun} {rest : List Char}
    {parts : List (StyledRun × List Char)} (hpieces : pieces rest runs = some parts)
    (hone : ∀ run ∈ runs, OneUnderline run.attrs) (hplain : ∀ ch ∈ rest, ¬IsControl ch)
    {before : List Char} {s : Rendering} {shown : List (Char × Rendition.Pen)} {pen : Rendition.Pen}
    (h : Shows s shown pen) (hoffset : s.offset = byteLength before) :
    ∃ pen', Shows (runs.foldl (renderRun (before ++ rest)) s) (shown ++ parts.flatMap shownPiece)
        pen' ∧
      (runs.foldl (renderRun (before ++ rest)) s).offset = byteLength (before ++ rest) := by
  induction runs generalizing rest parts before s shown pen with
  | nil =>
    obtain ⟨rfl, hparts⟩ := Option.ite_none_right_eq_some.mp hpieces
    obtain rfl := Option.some.inj hparts
    refine ⟨pen, ?_, ?_⟩
    · simpa only [List.flatMap_nil, List.append_nil, List.foldl_nil] using h
    · simpa only [List.append_nil, List.foldl_nil] using hoffset
  | cons run runs ih =>
    obtain ⟨⟨part, rest'⟩, hsplit, hpieces⟩ := Option.bind_eq_some_iff.mp hpieces
    obtain ⟨parts', hparts, rfl⟩ := Option.map_eq_some_iff.mp hpieces
    obtain ⟨rfl, hlen⟩ := eq_append_of_splitBytes hsplit
    obtain ⟨hrun, hruns⟩ := List.forall_mem_cons.mp hone
    have hpart : ∀ ch ∈ part, ¬IsControl ch := fun ch hmem ↦
      hplain ch (List.mem_append_left _ hmem)
    have hrest : ∀ ch ∈ rest', ¬IsControl ch := fun ch hmem ↦
      hplain ch (List.mem_append_right _ hmem)
    obtain ⟨hshows, hoffset'⟩ := h.renderRun rest' hoffset hlen hrun hpart
    obtain ⟨pen', hend, hstop⟩ := ih hparts hruns hrest hshows hoffset'
    rw [List.append_assoc] at hend hstop
    rw [List.append_assoc] at hend
    exact ⟨pen', hend, hstop⟩

theorem map_fst_pieces {text : List Char} {runs : List StyledRun}
    {parts : List (StyledRun × List Char)} (h : pieces text runs = some parts) :
    (parts.flatMap shownPiece).map (·.1) = text := by
  induction runs generalizing text parts with
  | nil =>
    obtain ⟨rfl, hparts⟩ := Option.ite_none_right_eq_some.mp h
    obtain rfl := Option.some.inj hparts
    rfl
  | cons run runs ih =>
    obtain ⟨⟨part, rest⟩, hsplit, hpieces⟩ := Option.bind_eq_some_iff.mp h
    obtain ⟨parts', hparts, rfl⟩ := Option.map_eq_some_iff.mp hpieces
    obtain ⟨rfl, -⟩ := eq_append_of_splitBytes hsplit
    have hpart : (shownPiece (run, part)).map (·.1) = part := by
      rw [shownPiece, List.map_map]
      exact List.map_id part
    rw [List.flatMap_cons, List.map_append, hpart, ih hparts]

theorem map_fst_shownLine {line : StyledLine} {shown : List (Char × Rendition.Pen)}
    (h : shownLine line = some shown) : shown.map (·.1) = line.text := by
  unfold shownLine at h
  split at h
  · obtain rfl := Option.some.inj h
    rw [List.map_map]
    exact List.map_id line.text
  · obtain ⟨parts, hparts, rfl⟩ := Option.map_eq_some_iff.mp h
    exact map_fst_pieces hparts

/-- A line that is captured with its styles shows what it shows, and leaves the pen plain. -/
theorem run_renderWithEscapes {line : StyledLine} {shown : List (Char × Rendition.Pen)}
    (h : shownLine line = some shown) (hone : ∀ run ∈ line.runs, OneUnderline run.attrs)
    (htext : ∀ ch ∈ line.text, isControl ch = false) :
    Display.start.run (renderWithEscapes line) = ⟨shown, .plain, .ground⟩ := by
  have hplain : ∀ ch ∈ line.text, ¬IsControl ch := fun ch hmem ↦
    of_decide_eq_false (htext ch hmem)
  unfold shownLine at h
  unfold renderWithEscapes
  split at h
  · next hruns =>
    obtain rfl := Option.some.inj h
    rw [if_pos hruns]
    exact Display.run_text [] .plain hplain
  · next hruns =>
    obtain ⟨parts, hparts, rfl⟩ := Option.map_eq_some_iff.mp h
    have hstart : Shows ⟨[], 0, false⟩ [] .plain := ⟨rfl, fun _ ↦ rfl⟩
    have hbefore : (Rendering.mk [] 0 false).offset = byteLength [] := rfl
    obtain ⟨pen, hshows, hoffset⟩ := shows_renderRuns hparts hone hplain hstart hbefore
    rw [List.nil_append, List.nil_append] at hshows
    rw [List.nil_append] at hoffset
    rw [if_neg hruns]
    simp only [hoffset, textFrom_end, List.append_nil]
    cases hstyled : (line.runs.foldl (renderRun line.text) ⟨[], 0, false⟩).styled with
    | false =>
      rw [if_neg Bool.false_ne_true, List.append_nil, hshows.run, hshows.plain hstyled]
    | true => rw [if_pos rfl, Display.run_append, hshows.run, run_reset]

/-- **Styles in escape sequences.** A line that is captured shows each of its characters in the pen of
its run and leaves the pen plain, and the report of a pen leaves that pen whatever it was before: of a
pen as the server keeps it, with one underline at most, and so of every pen of a terminal. -/
theorem capture_sgr :
    (∀ (line : StyledLine) (shown : List (Char × Rendition.Pen)), shownLine line = some shown →
      (∀ run ∈ line.runs, OneUnderline run.attrs) → (∀ ch ∈ line.text, isControl ch = false) →
      shown.map (·.1) = line.text ∧
        Display.start.run (renderWithEscapes line) = ⟨shown, .plain, .ground⟩) ∧
      (∀ (pen : Server.Pen) (shown : List (Char × Rendition.Pen)) (previous : Rendition.Pen),
        OneUnderline pen.attrs →
        (Display.mk shown previous .ground).run ('\x1b' :: '[' :: (sgrReport pen ++ ['m'])) =
          ⟨shown, pen.rendition, .ground⟩) ∧
      ∀ (pen : Rendition.Pen) (shown : List (Char × Rendition.Pen)) (previous : Rendition.Pen),
        (Display.mk shown previous .ground).run
          ('\x1b' :: '[' :: (sgrReport (penOf pen) ++ ['m'])) = ⟨shown, pen, .ground⟩ := by
  refine ⟨fun line shown h hone htext ↦ ?_, fun pen shown previous hone ↦ ?_, run_sgrReport_penOf⟩
  · exact ⟨map_fst_shownLine h, run_renderWithEscapes h hone htext⟩
  · exact run_sgrReport hone shown previous

/-! ### A line in two styles -/

def sampleRun (len : ℕ) (fg underlineColor : TermColor) (bits : UInt16) : StyledRun where
  len := len
  fg := fg
  bg := .default
  attrs := ⟨bits⟩
  underlineColor := underlineColor
  link := 0

/-- Bold red, then plain, then a curly underline in a color of its own. -/
def sampleLine : StyledLine where
  text := ['r', 'e', 'd', ' ', 'o', 'k']
  runs := [sampleRun 3 (.indexed 1) .default CellAttrs.bold, sampleRun 1 .default .default 0,
    sampleRun 2 (.rgb 1 2 3) (.indexed 9) CellAttrs.curlyUnderline]
  links := []
  cellSpans := []

/-- Bold red over a palette color, with a curly underline. -/
def samplePen : Server.Pen where
  fg := .indexed 1
  bg := .indexed 200
  attrs := ⟨CellAttrs.bold ||| CellAttrs.curlyUnderline⟩
  underlineColor := .rgb 1 2 3

theorem capture_sgr_sample :
    (∃ shown, shownLine sampleLine = some shown ∧ shown.map (·.1) = sampleLine.text ∧
      Display.start.run (renderWithEscapes sampleLine) = ⟨shown, .plain, .ground⟩) ∧
    (∀ previous, (Display.mk [] previous .ground).run ('\x1b' :: '[' :: (sgrReport samplePen ++ ['m'])) =
      ⟨[], samplePen.rendition, .ground⟩) ∧
    ∀ previous, (Display.mk [] previous .ground).run
      ('\x1b' :: '[' :: (sgrReport (penOf samplePen.rendition) ++ ['m'])) =
        ⟨[], samplePen.rendition, .ground⟩ := by
  have hone : ∀ run ∈ sampleLine.runs, OneUnderline run.attrs := by
    intro run hmem
    simp only [sampleLine, List.mem_cons, List.not_mem_nil, or_false] at hmem
    obtain rfl | rfl | rfl := hmem
    · decide
    · decide
    · decide
  have htext : ∀ ch ∈ sampleLine.text, isControl ch = false := by
    simp [sampleLine, isControl]
  obtain ⟨shown, hshown⟩ : ∃ shown, shownLine sampleLine = some shown :=
    Option.isSome_iff_exists.mp (by
      simp [shownLine, pieces, sampleLine, sampleRun, splitBytes, Char.utf8Size])
  exact ⟨⟨shown, hshown, capture_sgr.1 sampleLine shown hshown hone htext⟩,
    fun previous ↦ capture_sgr.2.1 samplePen [] previous (by decide),
    capture_sgr.2.2 samplePen.rendition []⟩

end Embers.Cli
