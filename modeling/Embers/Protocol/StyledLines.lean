import Embers.Client.Grid
import Embers.Lib.Scatter

/-!
# Styled lines on the wire

The styling of a pane's lines travels beside their texts, as a table of the lines that have any. An
entry carries the runs of its line, and three tables beside them: the underline colors of the runs
that set one, the links of the line with each run's index into them, and the cells.

The vectors of a message hold what was stored in them. They are counted in 32 bits, as are the tags
of the tables, so the runs of a line never cover more bytes than 64 bits count, and their sum is
taken exactly here.
-/

namespace Embers.Protocol

open Client

/-! ## The tables of a message -/

structure StyledRunWire where
  len : ℕ
  fgKind : UInt8
  fgR : UInt8
  fgG : UInt8
  fgB : UInt8
  bgKind : UInt8
  bgR : UInt8
  bgG : UInt8
  bgB : UInt8
  attrs : UInt16
  deriving DecidableEq, Repr

structure RunColorWire where
  runIndex : ℕ
  kind : UInt8
  r : UInt8
  g : UInt8
  b : UInt8
  deriving DecidableEq, Repr

structure CellSpanWire where
  len : ℕ
  width : ℕ
  deriving DecidableEq, Repr

structure HyperlinkWire where
  id : Option String
  uri : Option String
  deriving DecidableEq, Repr

structure StyledLineWire where
  lineIndex : ℕ
  runs : Option (List StyledRunWire)
  underlineColors : Option (List RunColorWire)
  links : Option (List HyperlinkWire)
  runLinks : Option (List ℕ)
  cells : Option (List CellSpanWire)
  deriving DecidableEq, Repr

/-- A place as a tag of 32 bits: `u32::try_from(index).unwrap_or(u32::MAX)`. -/
def tag32 (index : ℕ) : ℕ := if index < 2 ^ 32 then index else 2 ^ 32 - 1

/-! ## Encoding -/

/-- The kind of a color, 0 for the default, 1 for an index and 2 for a color of its own, and three
bytes. -/
def encodeTermColor : TermColor → UInt8 × UInt8 × UInt8 × UInt8
  | .default => (0, 0, 0, 0)
  | .indexed index => (1, index, 0, 0)
  | .rgb r g b => (2, r, g, b)

def encodeStyledRun (run : StyledRun) : StyledRunWire :=
  let (fgKind, fgR, fgG, fgB) := encodeTermColor run.fg
  let (bgKind, bgR, bgG, bgB) := encodeTermColor run.bg
  ⟨run.len, fgKind, fgR, fgG, fgB, bgKind, bgR, bgG, bgB, run.attrs.bits⟩

/-- A line's link table and each run's index into it, unless no run is linked. -/
def encodeLineLinks (line : StyledLine) : Option (List HyperlinkWire) × Option (List ℕ) :=
  if line.links.isEmpty || line.runs.all fun run ↦ run.link = 0 then (none, none)
  else (some (line.links.map fun link ↦ ⟨link.id, some link.uri⟩), some (line.runs.map (·.link)))

def encodeRunColor (run : StyledRun) (index : ℕ) : RunColorWire :=
  let (kind, r, g, b) := encodeTermColor run.underlineColor
  ⟨tag32 index, kind, r, g, b⟩

/-- The underline colors that are not the default, unless there are none. -/
def encodeUnderlineColors (runs : List StyledRun) : Option (List RunColorWire) :=
  if runs.all fun run ↦ run.underlineColor = .default then none
  else some (sparseEntries (fun run ↦ run.underlineColor ≠ .default) encodeRunColor runs 0)

def encodeStyledLine (line : StyledLine) (index : ℕ) : StyledLineWire :=
  let (links, runLinks) := encodeLineLinks line
  { lineIndex := tag32 index
    runs := some (line.runs.map encodeStyledRun)
    underlineColors := encodeUnderlineColors line.runs
    links
    runLinks
    cells :=
      if line.cellSpans.isEmpty then none
      else some (line.cellSpans.map fun span ↦ ⟨span.len, span.width⟩) }

def annotated (line : StyledLine) : Bool := !line.runs.isEmpty || !line.cellSpans.isEmpty

/-- The entries of the lines that have styles or cells, or nothing when all are plain. -/
def encodeStyledLines (lines : List StyledLine) : Option (List StyledLineWire) :=
  if lines.any annotated then some (sparseEntries annotated encodeStyledLine lines 0) else none

/-! ## Decoding -/

/-- Unknown kinds are the default. -/
def decodeTermColor (kind r g b : UInt8) : TermColor :=
  if kind = 1 then .indexed r else if kind = 2 then .rgb r g b else .default

def decodeStyledRun (run : StyledRunWire) : StyledRun where
  len := run.len
  fg := decodeTermColor run.fgKind run.fgR run.fgG run.fgB
  bg := decodeTermColor run.bgKind run.bgR run.bgG run.bgB
  attrs := ⟨run.attrs⟩
  underlineColor := .default
  link := 0

/-- One underline color, put on the run it names if there is one. -/
def colorRun (runs : List StyledRun) (color : RunColorWire) : List StyledRun :=
  runs.modify color.runIndex fun run ↦
    { run with underlineColor := decodeTermColor color.kind color.r color.g color.b }

/-- The runs with their links, and the link table. Indexes that are not one for each run are
ignored. -/
def decodeLineLinks (entry : StyledLineWire) (runs : List StyledRun) :
    List StyledRun × List Hyperlink :=
  match entry.links, entry.runLinks with
  | some links, some runLinks =>
    if runLinks.length ≠ runs.length then (runs, [])
    else (runs.zipWith (fun run link ↦ { run with link }) runLinks,
      links.map fun link ↦ ⟨link.id, link.uri.getD ""⟩)
  | _, _ => (runs, [])

/-- What is gathered for a line: its runs, links and cells. -/
abbrev LineStyle := List StyledRun × List Hyperlink × List CellSpan

def decodeStyledLine (entry : StyledLineWire) (runs : List StyledRunWire) : LineStyle :=
  let decoded := (entry.underlineColors.getD []).foldl colorRun (runs.map decodeStyledRun)
  let (decoded, links) := decodeLineLinks entry decoded
  (decoded, links, (entry.cells.getD []).map fun span ↦ ⟨span.len, span.width⟩)

/-- One entry, put on the line it names. An entry for no line, or without runs, is ignored. -/
def placeStyledLine (perLine : List LineStyle) (entry : StyledLineWire) : List LineStyle :=
  match entry.runs with
  | some runs =>
    if entry.lineIndex < perLine.length then
      perLine.set entry.lineIndex (decodeStyledLine entry runs)
    else perLine
  | none => perLine

/-- The bytes that runs cover. -/
def coveredBytes (runs : List StyledRun) : ℕ := (runs.map (·.len)).sum

/-- A line of its text and what was gathered for it. Runs that do not cover the text are dropped,
and the links with them. -/
def styleLine (text : List Char) (style : LineStyle) : StyledLine :=
  let (runs, links, cellSpans) := style
  let (runs, links) :=
    if runs.isEmpty || coveredBytes runs = byteLength text then (runs, links) else ([], [])
  ⟨text, runs, links, cellSpans⟩

def decodeStyledLines (texts : List (List Char)) (styles : Option (List StyledLineWire)) :
    List StyledLine :=
  let perLine := (styles.getD []).foldl placeStyledLine (List.replicate texts.length ([], [], []))
  texts.zipWith styleLine perLine

/-! ## Any styles at all -/

/-- The runs are none or cover exactly the text. -/
def Covered (line : StyledLine) : Prop :=
  line.runs = [] ∨ coveredBytes line.runs = byteLength line.text

theorem styleLine_text (text : List Char) (style : LineStyle) :
    (styleLine text style).text = text := rfl

theorem covered_styleLine (text : List Char) (style : LineStyle) :
    Covered (styleLine text style) := by
  obtain ⟨runs, links, cellSpans⟩ := style
  rw [styleLine]
  dsimp only
  split
  · next hcovers =>
    rw [Bool.or_eq_true, List.isEmpty_iff, decide_eq_true_eq] at hcovers
    exact hcovers
  · exact .inl rfl

theorem length_placeStyledLine (perLine : List LineStyle) (entry : StyledLineWire) :
    (placeStyledLine perLine entry).length = perLine.length := by
  rw [placeStyledLine]
  split
  · split
    · exact List.length_set
    · rfl
  · rfl

theorem length_foldl_placeStyledLine (perLine : List LineStyle) (styles : List StyledLineWire) :
    (styles.foldl placeStyledLine perLine).length = perLine.length := by
  induction styles generalizing perLine with
  | nil => rfl
  | cons entry styles ih => rw [List.foldl_cons, ih, length_placeStyledLine]

theorem forall₂_styleLine {texts : List (List Char)} {perLine : List LineStyle}
    (h : perLine.length = texts.length) :
    List.Forall₂ (fun text line ↦ StyledLine.text line = text ∧ Covered line) texts
      (texts.zipWith styleLine perLine) := by
  induction texts generalizing perLine with
  | nil => exact .nil
  | cons text texts ih =>
    cases perLine with
    | nil => cases h
    | cons style perLine =>
      exact .cons ⟨styleLine_text text style, covered_styleLine text style⟩
        (ih (Nat.succ.inj h))

theorem decodeStyledLines_sound (texts : List (List Char)) (styles : Option (List StyledLineWire)) :
    List.Forall₂ (fun text line ↦ StyledLine.text line = text ∧ Covered line) texts
      (decodeStyledLines texts styles) := by
  refine forall₂_styleLine ?_
  rw [length_foldl_placeStyledLine, List.length_replicate]

/-! ## The run tables -/

theorem decodeTermColor_encodeTermColor (color : TermColor) :
    decodeTermColor (encodeTermColor color).1 (encodeTermColor color).2.1
      (encodeTermColor color).2.2.1 (encodeTermColor color).2.2.2 = color := by
  cases color <;> rfl

theorem tag32_of_lt {index : ℕ} (h : index < 2 ^ 32) : tag32 index = index := if_pos h

/-- A run as `StyledRunWire` carries it. -/
def bareRun (run : StyledRun) : StyledRun := { run with underlineColor := .default, link := 0 }

def unlinked (run : StyledRun) : StyledRun := { run with link := 0 }

theorem decodeStyledRun_encodeStyledRun (run : StyledRun) :
    decodeStyledRun (encodeStyledRun run) = bareRun run := by
  have hfg := decodeTermColor_encodeTermColor run.fg
  have hbg := decodeTermColor_encodeTermColor run.bg
  rw [encodeStyledRun, decodeStyledRun]
  dsimp only
  rw [hfg, hbg]
  rfl

theorem getD_encodeUnderlineColors (runs : List StyledRun) :
    (encodeUnderlineColors runs).getD [] =
      sparseEntries (fun run ↦ run.underlineColor ≠ .default) encodeRunColor runs 0 := by
  rw [encodeUnderlineColors]
  split
  · next hall =>
    rw [sparseEntries_eq_nil]
    · rfl
    · intro run hrun
      have hdefault := List.all_eq_true.mp hall run hrun
      simpa using hdefault
  · rfl

/-- Each color comes back to its run. -/
theorem foldl_colorRun {runs : List StyledRun} (h : runs.length ≤ 2 ^ 32) :
    ((encodeUnderlineColors runs).getD []).foldl colorRun (runs.map bareRun) =
      runs.map unlinked := by
  rw [getD_encodeUnderlineColors]
  refine foldl_sparseEntries bareRun unlinked (2 ^ 32) ?_ ?_ []
    (by rwa [List.length_nil, Nat.zero_add])
  · intro run _ _ done rest hdone
    have hcolor := decodeTermColor_encodeTermColor run.underlineColor
    rw [colorRun, encodeRunColor]
    dsimp only
    rw [tag32_of_lt hdone, modify_length_append, hcolor]
    rfl
  · intro run _ hhas
    have hdefault : run.underlineColor = .default := by simpa using hhas
    rw [bareRun, unlinked, hdefault]

/-! ## What comes back -/

/-- The runs that come back: links are sent only with a table. -/
def sentRuns (line : StyledLine) : List StyledRun :=
  if line.links = [] then line.runs.map unlinked else line.runs

/-- The link table comes back if some run is linked. -/
def sentLinks (line : StyledLine) : List Hyperlink :=
  if ∀ run ∈ line.runs, run.link = 0 then [] else line.links

def sentStyle (line : StyledLine) : LineStyle := (sentRuns line, sentLinks line, line.cellSpans)

theorem map_unlinked {runs : List StyledRun} (h : ∀ run ∈ runs, run.link = 0) :
    runs.map unlinked = runs := by
  refine (List.map_congr_left fun run hrun ↦ ?_).trans (List.map_id _)
  rw [unlinked, ← h run hrun]
  rfl

theorem zipWith_link (runs : List StyledRun) :
    (runs.map unlinked).zipWith (fun run link ↦ { run with link }) (runs.map (·.link)) = runs := by
  rw [List.zipWith_map, List.zipWith_self]
  exact List.map_id _

theorem encodeLineLinks_eq_none {line : StyledLine}
    (h : line.links = [] ∨ ∀ run ∈ line.runs, run.link = 0) :
    encodeLineLinks line = (none, none) := by
  rw [encodeLineLinks, if_pos]
  rw [Bool.or_eq_true, List.isEmpty_iff, List.all_eq_true]
  exact h.imp_right fun hall run hrun ↦ decide_eq_true (hall run hrun)

theorem decodeLineLinks_encodeStyledLine (line : StyledLine) (index : ℕ) :
    decodeLineLinks (encodeStyledLine line index) (line.runs.map unlinked) =
      (sentRuns line, sentLinks line) := by
  rw [decodeLineLinks, encodeStyledLine, sentRuns, sentLinks]
  by_cases hlinks : line.links = []
  · rw [encodeLineLinks_eq_none (.inl hlinks), if_pos hlinks, hlinks, ite_self]
  · by_cases hall : ∀ run ∈ line.runs, run.link = 0
    · rw [encodeLineLinks_eq_none (.inr hall), if_neg hlinks, if_pos hall, map_unlinked hall]
    · have hsent : (line.links.isEmpty || line.runs.all fun run ↦ run.link = 0) = false := by
        rw [Bool.or_eq_false_iff, List.isEmpty_eq_false_iff, List.all_eq_false]
        refine ⟨hlinks, ?_⟩
        push Not at hall
        obtain ⟨run, hrun, hlinked⟩ := hall
        exact ⟨run, hrun, by simpa using hlinked⟩
      rw [encodeLineLinks, hsent, if_neg Bool.false_ne_true, if_neg hlinks, if_neg hall]
      dsimp only
      rw [List.length_map, List.length_map, if_neg (not_not.mpr rfl), zipWith_link, List.map_map]
      exact congrArg (line.runs, ·) (List.map_id _)

theorem decodeStyledLine_encodeStyledLine {line : StyledLine} (h : line.runs.length ≤ 2 ^ 32)
    (index : ℕ) :
    decodeStyledLine (encodeStyledLine line index) (line.runs.map encodeStyledRun) =
      sentStyle line := by
  have hruns : (line.runs.map encodeStyledRun).map decodeStyledRun = line.runs.map bareRun := by
    rw [List.map_map]
    exact List.map_congr_left fun run _ ↦ decodeStyledRun_encodeStyledRun run
  have hcolors : (encodeStyledLine line index).underlineColors = encodeUnderlineColors line.runs :=
    rfl
  have hcells : ((encodeStyledLine line index).cells.getD []).map
      (fun span ↦ (⟨span.len, span.width⟩ : CellSpan)) = line.cellSpans := by
    rw [encodeStyledLine]
    dsimp only
    split
    · next hempty => exact (List.isEmpty_iff.mp hempty).symm
    · rw [Option.getD_some, List.map_map]
      exact List.map_id _
  rw [decodeStyledLine, hruns, hcolors, foldl_colorRun h, decodeLineLinks_encodeStyledLine, hcells]
  rfl

theorem sentStyle_of_plain {line : StyledLine} (h : annotated line = false) :
    sentStyle line = ([], [], []) := by
  rw [annotated, Bool.or_eq_false_iff, Bool.not_eq_false', Bool.not_eq_false', List.isEmpty_iff,
    List.isEmpty_iff] at h
  rw [sentStyle, sentRuns, sentLinks, h.1, h.2, if_pos (List.forall_mem_nil _), List.map_nil,
    ite_self]

theorem getD_encodeStyledLines (lines : List StyledLine) :
    (encodeStyledLines lines).getD [] = sparseEntries annotated encodeStyledLine lines 0 := by
  rw [encodeStyledLines]
  split
  · rfl
  · next hplain =>
    rw [Bool.not_eq_true, List.any_eq_false] at hplain
    rw [sparseEntries_eq_nil fun line hline ↦ Bool.eq_false_of_not_eq_true (hplain line hline)]
    rfl

/-- Each entry comes back to its line. -/
theorem foldl_placeStyledLine {lines : List StyledLine} (hlines : lines.length ≤ 2 ^ 32)
    (hruns : ∀ line ∈ lines, line.runs.length ≤ 2 ^ 32) :
    ((encodeStyledLines lines).getD []).foldl placeStyledLine
      (List.replicate lines.length ([], [], [])) = lines.map sentStyle := by
  rw [getD_encodeStyledLines, ← List.map_const']
  refine foldl_sparseEntries (fun _ ↦ ([], [], [])) sentStyle (2 ^ 32) ?_ ?_ []
    (by rwa [List.length_nil, Nat.zero_add])
  · intro line hline _ done rest hdone
    have hstyle := decodeStyledLine_encodeStyledLine (hruns line hline) done.length
    have hindex : (encodeStyledLine line done.length).lineIndex = done.length :=
      tag32_of_lt hdone
    have hentry : (encodeStyledLine line done.length).runs =
      some (line.runs.map encodeStyledRun) := rfl
    rw [placeStyledLine, hentry]
    dsimp only
    rw [hindex, if_pos (by simp), hstyle, List.set_append_right _ _ le_rfl, Nat.sub_self,
      List.set_cons_zero]
  · intro line _ hplain
    exact (sentStyle_of_plain hplain).symm

theorem coveredBytes_sentRuns (line : StyledLine) :
    coveredBytes (sentRuns line) = coveredBytes line.runs := by
  rw [sentRuns]
  split
  · rw [coveredBytes, coveredBytes, List.map_map]
    rfl
  · rfl

/-- Runs that cover the text are kept, and all that was sent with them. -/
theorem styleLine_sentStyle {line : StyledLine} (h : Covered line) :
    styleLine line.text (sentStyle line) =
      ⟨line.text, sentRuns line, sentLinks line, line.cellSpans⟩ := by
  rw [styleLine, sentStyle]
  dsimp only
  rw [if_pos]
  rw [Bool.or_eq_true, List.isEmpty_iff, decide_eq_true_eq, coveredBytes_sentRuns]
  refine h.imp_left fun hempty ↦ ?_
  rw [sentRuns, hempty, List.map_nil, ite_self]

/-- What is kept of a line: all but the link indexes of a line without a link table, and a link
table that no run uses. -/
structure Restores (line back : StyledLine) : Prop where
  text : back.text = line.text
  runs : back.runs = if line.links = [] then line.runs.map unlinked else line.runs
  cellSpans : back.cellSpans = line.cellSpans
  links : (∃ run ∈ line.runs, run.link ≠ 0) → back.links = line.links

theorem restores_styleLine {line : StyledLine} (h : Covered line) :
    Restores line (styleLine line.text (sentStyle line)) := by
  rw [styleLine_sentStyle h]
  refine ⟨rfl, rfl, rfl, fun hlinked ↦ ?_⟩
  obtain ⟨run, hrun, hne⟩ := hlinked
  exact if_neg fun hall ↦ hne (hall run hrun)

/-- Styles come back to their lines, and whatever the styles are, the lines keep their texts and no
run is left that does not fit. A vector of a message has no more than `2 ^ 32` items. -/
theorem styledLines_codec :
    (∀ lines : List StyledLine, (∀ line ∈ lines, Covered line) → lines.length ≤ 2 ^ 32 →
      (∀ line ∈ lines, line.runs.length ≤ 2 ^ 32) →
      List.Forall₂ Restores lines
        (decodeStyledLines (lines.map (·.text)) (encodeStyledLines lines))) ∧
    ∀ texts styles, List.Forall₂ (fun text line ↦ StyledLine.text line = text ∧ Covered line) texts
      (decodeStyledLines texts styles) := by
  refine ⟨fun lines hcovered hlines hruns ↦ ?_, decodeStyledLines_sound⟩
  have hback : decodeStyledLines (lines.map (·.text)) (encodeStyledLines lines) =
      lines.map fun line ↦ styleLine line.text (sentStyle line) := by
    rw [decodeStyledLines, List.length_map, foldl_placeStyledLine hlines hruns, List.zipWith_map,
      List.zipWith_self]
  rw [hback, List.forall₂_map_right_iff, List.forall₂_same]
  exact fun line hline ↦ restores_styleLine (hcovered line hline)

/-- A line of one character, underlined in red and with a link. -/
def linkedLine : StyledLine where
  text := ['é']
  runs := [⟨2, .default, .indexed 4, ⟨8⟩, .rgb 255 0 0, 1⟩]
  links := [⟨none, "https://a"⟩]
  cellSpans := [⟨2, 1⟩]

theorem styledLines_codec_linkedLine :
    List.Forall₂ Restores [linkedLine, ⟨['a'], [], [], []⟩]
      (decodeStyledLines [['é'], ['a']] (encodeStyledLines [linkedLine, ⟨['a'], [], [], []⟩])) := by
  refine styledLines_codec.1 [linkedLine, ⟨['a'], [], [], []⟩] ?_ (by decide) ?_
  · rw [List.forall_mem_cons, List.forall_mem_singleton]
    exact ⟨.inr rfl, .inl rfl⟩
  · rw [List.forall_mem_cons, List.forall_mem_singleton]
    exact ⟨by decide, by decide⟩

/-- A line with a linked run and no link table. -/
def danglingLine : StyledLine := ⟨['a'], [⟨1, .default, .default, ⟨0⟩, .default, 1⟩], [], []⟩

theorem link_lost_danglingLine :
    Covered danglingLine ∧
      (decodeStyledLines [danglingLine.text] (encodeStyledLines [danglingLine])).map (·.runs) =
        [[⟨1, .default, .default, ⟨0⟩, .default, 0⟩]] ∧
      danglingLine.runs ≠ [⟨1, .default, .default, ⟨0⟩, .default, 0⟩] := by
  refine ⟨.inr rfl, ?_, ?_⟩
  · decide
  · decide

end Embers.Protocol
