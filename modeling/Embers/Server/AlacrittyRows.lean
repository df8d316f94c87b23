import Embers.Server.RowGlyphs

/-!
# Lines from alacritty's rows

The walk that builds a styled line, and the one that only collects the text. Where a row's text ends is
the emulator's to say; from there to the end of the row there are only spaces, and the walk goes on to
the last one that is painted.
-/

namespace Embers.Server

open Client Client.CellPiece

/-! ## The emulator's cells -/

inductive NamedColor where
  | black | red | green | yellow | blue | magenta | cyan | white
  | brightBlack | brightRed | brightGreen | brightYellow | brightBlue | brightMagenta | brightCyan
  | brightWhite
  | foreground | background | cursor
  | dimBlack | dimRed | dimGreen | dimYellow | dimBlue | dimMagenta | dimCyan | dimWhite
  | brightForeground | dimForeground
  deriving DecidableEq, Repr

inductive AnsiColor where
  | named (color : NamedColor)
  | spec (r g b : UInt8)
  | indexed (index : UInt8)
  deriving DecidableEq, Repr

structure AlacrittyHyperlink where
  id : String
  uri : String
  deriving DecidableEq, Repr

/-- A cell's flags, with the one that says which part of a character it holds. -/
structure CellFlags where
  part : CellFlag
  inverse : Bool
  bold : Bool
  italic : Bool
  dim : Bool
  hidden : Bool
  strikeout : Bool
  underline : Bool
  doubleUnderline : Bool
  undercurl : Bool
  dottedUnderline : Bool
  dashedUnderline : Bool
  deriving DecidableEq, Repr

namespace CellFlags

def allUnderlines (flags : CellFlags) : Bool :=
  flags.underline || flags.doubleUnderline || flags.undercurl || flags.dottedUnderline
    || flags.dashedUnderline

end CellFlags

structure AlacrittyCell where
  c : Char
  /-- The characters of no width after the first. -/
  zerowidth : List Char
  fg : AnsiColor
  bg : AnsiColor
  flags : CellFlags
  underlineColor : Option AnsiColor
  hyperlink : Option AlacrittyHyperlink
  deriving DecidableEq, Repr

abbrev AlacrittyRow := List AlacrittyCell

def AlacrittyRow.flags (row : AlacrittyRow) : List CellFlag := row.map (·.flags.part)

/-! ## Styles -/

def mapNamedColor : NamedColor → TermColor
  | .black | .dimBlack => .indexed 0
  | .red | .dimRed => .indexed 1
  | .green | .dimGreen => .indexed 2
  | .yellow | .dimYellow => .indexed 3
  | .blue | .dimBlue => .indexed 4
  | .magenta | .dimMagenta => .indexed 5
  | .cyan | .dimCyan => .indexed 6
  | .white | .dimWhite => .indexed 7
  | .brightBlack => .indexed 8
  | .brightRed => .indexed 9
  | .brightGreen => .indexed 10
  | .brightYellow => .indexed 11
  | .brightBlue => .indexed 12
  | .brightMagenta => .indexed 13
  | .brightCyan => .indexed 14
  | .brightWhite => .indexed 15
  | .foreground | .background | .cursor | .brightForeground | .dimForeground => .default

def mapColor : AnsiColor → TermColor
  | .spec r g b => .rgb r g b
  | .indexed index => .indexed index
  | .named color => mapNamedColor color

def mapAttrs (flags : CellFlags) : CellAttrs :=
  [(flags.bold, CellAttrs.bold), (flags.dim, CellAttrs.dim), (flags.italic, CellAttrs.italic),
    (flags.underline, CellAttrs.underline), (flags.doubleUnderline, CellAttrs.doubleUnderline),
    (flags.undercurl, CellAttrs.curlyUnderline), (flags.dottedUnderline, CellAttrs.dottedUnderline),
    (flags.dashedUnderline, CellAttrs.dashedUnderline), (flags.inverse, CellAttrs.inverse),
    (flags.hidden, CellAttrs.hidden), (flags.strikeout, CellAttrs.strikeout)].foldl
      insertAttr ⟨0⟩

def AlacrittyCell.pen (cell : AlacrittyCell) : Pen where
  fg := mapColor cell.fg
  bg := mapColor cell.bg
  attrs := mapAttrs cell.flags
  underlineColor := cell.underlineColor.elim .default mapColor

/-! ## Links -/

def mapHyperlink (link : AlacrittyHyperlink) : Hyperlink := ⟨some link.id, link.uri⟩

/-- Per-line hyperlink table built during the row walk. -/
structure LineLinks where
  table : List Hyperlink
  /-- The emulator link most recently resolved and its index. -/
  last : Option (AlacrittyHyperlink × ℕ)

/-- The index of a link that is looked up in the table, and added on first sight. -/
def LineLinks.resolve (links : LineLinks) (link : AlacrittyHyperlink) : ℕ × LineLinks :=
  let mapped := mapHyperlink link
  let (index, table) :=
    match links.table.findIdx? (· = mapped) with
    | some position => (position + 1, links.table)
    | none => ((links.table ++ [mapped]).length, links.table ++ [mapped])
  let index := min index 65535
  (index, ⟨table, some (link, index)⟩)

def LineLinks.indexOf (links : LineLinks) : Option AlacrittyHyperlink → ℕ × LineLinks
  | none => (0, links)
  | some link =>
    match links.last with
    | some (last, index) => if last = link then (index, links) else links.resolve link
    | none => links.resolve link

/-! ## The walks -/

/-- Whether a cell shows anything even when it holds no glyph: a background, or a line drawn through or
under it. -/
def cellShowsWithoutGlyph (cell : AlacrittyCell) : Bool :=
  cell.bg ≠ .named .background || cell.flags.inverse || cell.flags.allUnderlines
    || cell.flags.strikeout

section Walks

variable (lineLength : AlacrittyRow → ℕ)

/-- Occupied width of a row, extended to keep trailing painted cells. -/
def contentLength (row : AlacrittyRow) : ℕ :=
  if row.length = 0 then 0
  else
    let contentLen := lineLength row
    match (List.range' contentLen (row.length - contentLen)).reverse.find? fun column ↦
        row[column]?.any cellShowsWithoutGlyph with
    | some column => column + 1
    | none => contentLen

def cellGlyph (row : AlacrittyRow) (column : ℕ) : CellGlyph := glyphAt row.flags column

/-- The text of a cell. A tab is a single space. -/
def emitCellText (cell : AlacrittyCell) : List Char :=
  if cell.c = '\t' then [' '] else cell.c :: cell.zerowidth

def lineTextStep (row : AlacrittyRow) (text : List Char) (column : ℕ) : List Char :=
  match cellGlyph row column with
  | .covered => text
  | .blank => text ++ [' ']
  | .shown => text ++ row[column]?.elim [] emitCellText

/-- Plain-text projection of a single row. -/
def lineText (row : AlacrittyRow) : List Char :=
  (List.range (contentLength lineLength row)).foldl (lineTextStep row) []

/-- The columns of a cell that shows its own text. -/
def shownWidth (cell : AlacrittyCell) : ℕ := if cell.flags.part = .wide then 2 else 1

def styledLineStep (row : AlacrittyRow) (s : LineBuild × LineLinks) (column : ℕ) :
    LineBuild × LineLinks :=
  match cellGlyph row column, row[column]? with
  | .covered, _ => s
  | .blank, _ => (s.1.put ⟨[' '], 1⟩ Pen.plain 0, s.2)
  | .shown, none => s
  | .shown, some cell =>
    let (index, links) := s.2.indexOf cell.hyperlink
    (s.1.put ⟨emitCellText cell, shownWidth cell⟩ cell.pen index, links)

/-- Walk one grid row into a styled line. -/
def styledLine (u : Unicode) (row : AlacrittyRow) : StyledLine :=
  let s := (List.range (contentLength lineLength row)).foldl (styledLineStep row)
    (.empty, ⟨[], none⟩)
  (s.1.line s.2.table).setCells u s.1.cells

end Walks

/-! ## What is kept -/

/-- The cell kept at a column: its own text, style and link, or a plain space where half of a wide
character is left. -/
def AlacrittyRow.keep (row : AlacrittyRow) (column : ℕ) : Option ShownCell :=
  match cellGlyph row column, row[column]? with
  | .blank, _ => some ⟨column, ⟨[' '], 1⟩, Pen.plain, none⟩
  | .shown, some cell =>
    some ⟨column, ⟨emitCellText cell, shownWidth cell⟩, cell.pen, cell.hyperlink.map mapHyperlink⟩
  | _, _ => none

/-- Whether a cell shows anything: a glyph other than a space, or something without one. -/
def AlacrittyCell.shows (cell : AlacrittyCell) : Bool :=
  cell.c ≠ ' ' || cell.zerowidth ≠ [] || cellShowsWithoutGlyph cell

def AlacrittyRow.shows (row : AlacrittyRow) (column : ℕ) : Bool := row[column]?.any (·.shows)

/-- A row's text ends where only spaces follow. -/
structure EndsText (lineLength : AlacrittyRow → ℕ) (row : AlacrittyRow) : Prop where
  le : lineLength row ≤ row.length
  space : ∀ column cell, lineLength row ≤ column → row[column]? = some cell →
    cell.c = ' ' ∧ cell.zerowidth = []

/-! ## The walks keep what they should -/

/-- The last link resolved is in the table, under its index. -/
structure Tracks (table : List Hyperlink) (links : LineLinks) : Prop where
  table_eq : links.table = table
  last : ∀ link index, links.last = some (link, index) →
    mapHyperlink link ∈ table ∧ index = table.idxOf (mapHyperlink link) + 1

section Links

variable {table : List Hyperlink} {links : LineLinks}

theorem Tracks.resolve (h : Tracks table links) (hlen : table.length < 65535)
    (link : AlacrittyHyperlink) :
    (links.resolve link).1 = (linkIndex table (some (mapHyperlink link))).1 ∧
      Tracks (linkIndex table (some (mapHyperlink link))).2 (links.resolve link).2 := by
  rw [LineLinks.resolve, h.table_eq, findIdx?_eq_ite, linkIndex]
  by_cases hmem : mapHyperlink link ∈ table
  · have hlt := List.idxOf_lt_length_of_mem hmem
    have hmin : min (table.idxOf (mapHyperlink link) + 1) 65535 =
        table.idxOf (mapHyperlink link) + 1 := by omega
    rw [if_pos hmem, if_pos hmem]
    refine ⟨hmin, rfl, fun other index hlast ↦ ?_⟩
    obtain ⟨rfl, rfl⟩ := Prod.mk.inj (Option.some_inj.mp hlast)
    exact ⟨hmem, hmin⟩
  · have hmin : min (table ++ [mapHyperlink link]).length 65535 = table.length + 1 := by
      rw [List.length_append, List.length_singleton]
      omega
    rw [if_neg hmem, if_neg hmem]
    refine ⟨hmin, rfl, fun other index hlast ↦ ?_⟩
    obtain ⟨rfl, rfl⟩ := Prod.mk.inj (Option.some_inj.mp hlast)
    refine ⟨List.mem_append_right _ (List.mem_singleton_self _), hmin.trans ?_⟩
    rw [List.idxOf_append, if_neg hmem, List.idxOf_cons_self, Nat.zero_add]

theorem Tracks.indexOf (h : Tracks table links) (hlen : table.length < 65535)
    (link : Option AlacrittyHyperlink) :
    (links.indexOf link).1 = (linkIndex table (link.map mapHyperlink)).1 ∧
      Tracks (linkIndex table (link.map mapHyperlink)).2 (links.indexOf link).2 := by
  cases link with
  | none => exact ⟨rfl, h⟩
  | some link =>
    rw [LineLinks.indexOf, Option.map_some]
    cases hlast : links.last with
    | none => exact h.resolve hlen link
    | some last =>
      dsimp only
      by_cases hsame : last.1 = link
      · obtain ⟨hmem, hindex⟩ := h.last last.1 last.2 hlast
        rw [if_pos hsame, linkIndex, if_pos (hsame ▸ hmem)]
        exact ⟨hsame ▸ hindex, h⟩
      · rw [if_neg hsame]
        exact h.resolve hlen link

end Links

section Rows

variable (row : AlacrittyRow)

/-- The walk builds the line of the cells that are kept. -/
theorem foldl_styledLineStep {n : ℕ} (hle : n ≤ row.length) (hlen : row.length < 2 ^ 16) :
    ((List.range n).foldl (styledLineStep row) (.empty, ⟨[], none⟩)).1 =
        (build (keptCells row.keep n)).1 ∧
      Tracks (build (keptCells row.keep n)).2
        ((List.range n).foldl (styledLineStep row) (.empty, ⟨[], none⟩)).2 := by
  induction n with
  | zero => exact ⟨rfl, rfl, fun _ _ h ↦ by cases h⟩
  | succ n ih =>
    obtain ⟨hbuild, htracks⟩ := ih (by omega)
    obtain ⟨cell, hcell⟩ : ∃ cell, row[n]? = some cell :=
      ⟨row[n], List.getElem?_eq_getElem (by omega)⟩
    rw [List.range_succ, List.foldl_concat, keptCells_succ]
    generalize (List.range n).foldl (styledLineStep row) (.empty, ⟨[], none⟩) = s at hbuild htracks
    rw [styledLineStep, AlacrittyRow.keep, hcell]
    cases hglyph : cellGlyph row n with
    | covered =>
      dsimp only
      rw [Option.toList_none, List.append_nil]
      exact ⟨hbuild, htracks⟩
    | blank =>
      dsimp only
      rw [Option.toList_some, build, List.foldl_concat, ← build, addCell, linkIndex, hbuild]
      exact ⟨rfl, htracks⟩
    | shown =>
      have hroom : (build (keptCells row.keep n)).2.length < 65535 := by
        have hcount : (keptCells row.keep n).length ≤ n :=
          (List.length_filterMap_le _ _).trans_eq List.length_range
        exact (built _).links.trans_lt (by omega)
      obtain ⟨hindex, hnext⟩ := htracks.indexOf hroom cell.hyperlink
      dsimp only
      rw [Option.toList_some, build, List.foldl_concat, ← build, addCell, ← hbuild]
      exact ⟨by rw [hindex], hnext⟩

theorem flags_getElem? (column : ℕ) :
    row.flags[column]? = row[column]?.map (·.flags.part) := List.getElem?_map

theorem emitCellText_ne_nil (cell : AlacrittyCell) : emitCellText cell ≠ [] := by
  rw [emitCellText]
  split
  · exact List.cons_ne_nil _ _
  · exact List.cons_ne_nil _ _

theorem keeps : Keeps row.flags row.keep where
  covered column h := by
    rw [AlacrittyRow.keep, cellGlyph, h]
  kept column hlt h := by
    have hlt : column < row.length := by rwa [AlacrittyRow.flags, List.length_map] at hlt
    have hcell := List.getElem?_eq_getElem hlt
    rw [AlacrittyRow.keep, cellGlyph, glyphWidth, hcell]
    cases hglyph : glyphAt row.flags column with
    | covered => exact absurd hglyph h
    | blank => exact ⟨_, rfl, rfl, List.cons_ne_nil _ _, rfl⟩
    | shown =>
      refine ⟨_, rfl, rfl, emitCellText_ne_nil _, ?_⟩
      rw [flags_getElem?, hcell, Option.map_some]
      dsimp only [shownWidth]
      simp only [Option.some_inj]

theorem foldl_lineTextStep (n : ℕ) (hle : n ≤ row.length) :
    (List.range n).foldl (lineTextStep row) [] = textOf (pieces (keptCells row.keep n)) := by
  induction n with
  | zero => rfl
  | succ n ih =>
    have hcell := List.getElem?_eq_getElem (show n < row.length by omega)
    rw [List.range_succ, List.foldl_concat, ih (by omega), keptCells_succ, pieces_append,
      textOf_append, lineTextStep, AlacrittyRow.keep, hcell]
    cases cellGlyph row n with
    | covered => exact (List.append_nil _).symm
    | blank => rfl
    | shown => exact congrArg (_ ++ ·) (List.append_nil _).symm

section Content

variable {row} {lineLength : AlacrittyRow → ℕ}

/-- The walk goes on to the last painted cell after the text. -/
theorem contentLength_spec (h : EndsText lineLength row) :
    contentLength lineLength row ≤ row.length ∧
      ∀ column cell, contentLength lineLength row ≤ column → row[column]? = some cell →
        cell.c = ' ' ∧ cell.zerowidth = [] ∧ cellShowsWithoutGlyph cell = false := by
  have hle := h.le
  have hspace := h.space
  rw [contentLength]
  split
  · next hempty =>
    refine ⟨Nat.zero_le _, fun column cell _ hcell ↦ ?_⟩
    rw [List.length_eq_zero_iff.mp hempty] at hcell
    cases hcell
  · dsimp only
    cases hfind : (List.range' (lineLength row) (row.length - lineLength row)).reverse.find?
        fun column ↦ row[column]?.any cellShowsWithoutGlyph with
    | none =>
      refine ⟨hle, fun column cell hcolumn hcell ↦ ?_⟩
      have hlt := (List.getElem?_eq_some_iff.mp hcell).1
      have hnone := find?_reverse_range'_none hfind hcolumn (by omega)
      rw [hcell, Option.any_some] at hnone
      obtain ⟨hc, hzero⟩ := hspace column cell hcolumn hcell
      exact ⟨hc, hzero, hnone⟩
    | some last =>
      obtain ⟨hfirst, hlast, -, hafter⟩ := find?_reverse_range'_some hfind
      refine ⟨by dsimp only; omega, fun column cell hcolumn hcell ↦ ?_⟩
      dsimp only at hcolumn
      have hlt := (List.getElem?_eq_some_iff.mp hcell).1
      have hnot := hafter column (by omega) (by omega)
      rw [hcell, Option.any_some] at hnot
      obtain ⟨hc, hzero⟩ := hspace column cell (by omega) hcell
      exact ⟨hc, hzero, hnot⟩

/-- **Lines from alacritty's rows.** The line shows the cells kept of the row, of which none is missing,
and the text alone is the line's. -/
theorem styledLine_shows (u : Unicode) (hlen : row.length < 2 ^ 16) (hlead : LeadsLast row.flags)
    (hends : EndsText lineLength row) (hu : u.Cuts (lineText lineLength row))
    (hbreak : ¬lineBreak <:+: lineText lineLength row) :
    Shows u (styledLine lineLength u row) (keptCells row.keep (contentLength lineLength row)) ∧
      Complete row.flags row.shows (keptCells row.keep (contentLength lineLength row)) ∧
      lineText lineLength row = (styledLine lineLength u row).text := by
  obtain ⟨hle, hend⟩ := contentLength_spec hends
  obtain ⟨hbuild, htracks⟩ := foldl_styledLineStep row hle hlen
  have htext := foldl_lineTextStep row (contentLength lineLength row) hle
  have hline : styledLine lineLength u row =
      (builtLine (keptCells row.keep (contentLength lineLength row))).setCells u
        (build (keptCells row.keep (contentLength lineLength row))).1.cells := by
    rw [styledLine, hbuild, htracks.table_eq]
    rfl
  rw [lineText, htext] at hu hbreak ⊢
  have hflags : row.flags.length = row.length := List.length_map _
  have hplaced := (keeps row).placed hlead (hflags ▸ hlen) (hflags ▸ hle)
  have hshows := shows_setCells u hplaced hu fun h ↦ hbreak h.2
  have hcomplete : Complete row.flags row.shows
      (keptCells row.keep (contentLength lineLength row)) := by
    refine (keeps row).complete hlead fun column hlt hcolumn ↦ ?_
    have hcell := List.getElem?_eq_getElem (hflags ▸ hlt)
    obtain ⟨hc, hzero, hpaint⟩ := hend column _ hcolumn hcell
    rw [AlacrittyRow.shows, hcell, Option.any_some, AlacrittyCell.shows, hc, hzero, hpaint]
    rfl
  rw [hline]
  exact ⟨hshows, hcomplete, hshows.text.symm⟩

end Content

end Rows

end Embers.Server
