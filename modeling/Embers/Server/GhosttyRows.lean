import Embers.Server.RowGlyphs

/-!
# Lines from Ghostty's rows

A row is read from libghostty a cell at a time: the text of a cluster and the link of a cell are kept
once for the row, and the cell refers to them. The walk then builds the line, with an index of its own
for each of the row's links that it comes to.
-/

namespace Embers.Server

open Client Client.CellPiece

/-! ## The emulator's cells -/

inductive StyleColor where
  | none
  | palette (index : UInt8)
  | rgb (r g b : UInt8)
  deriving DecidableEq, Repr

inductive SgrUnderline where
  | none
  | single
  | double
  | curly
  | dotted
  | dashed
  deriving DecidableEq, Repr

structure GhosttyStyle where
  fgColor : StyleColor
  bgColor : StyleColor
  underlineColor : StyleColor
  bold : Bool
  faint : Bool
  italic : Bool
  inverse : Bool
  invisible : Bool
  strikethrough : Bool
  underline : SgrUnderline
  deriving DecidableEq, Repr

/-- What a cell holds: nothing, a single character or a cluster of several. -/
inductive CellContent where
  | none
  | codepoint (c : Char)
  | grapheme (text : List Char)
  deriving DecidableEq, Repr

structure GhosttyCell where
  part : CellFlag
  content : CellContent
  /-- The background of a blank cell erased in a background color. -/
  erasedBackground : Option TermColor
  style : GhosttyStyle
  link : Option Hyperlink
  deriving DecidableEq, Repr

/-! ## Styles -/

def styleColor : StyleColor → TermColor
  | .none => .default
  | .palette index => .indexed index
  | .rgb r g b => .rgb r g b

def underlineAttr : SgrUnderline → Option UInt16
  | .none => none
  | .single => some CellAttrs.underline
  | .double => some CellAttrs.doubleUnderline
  | .curly => some CellAttrs.curlyUnderline
  | .dotted => some CellAttrs.dottedUnderline
  | .dashed => some CellAttrs.dashedUnderline

def styleAttrs (style : GhosttyStyle) : CellAttrs :=
  let attrs :=
    [(style.bold, CellAttrs.bold), (style.faint, CellAttrs.dim), (style.italic, CellAttrs.italic),
      (style.inverse, CellAttrs.inverse), (style.invisible, CellAttrs.hidden),
      (style.strikethrough, CellAttrs.strikeout)].foldl insertAttr ⟨0⟩
  match underlineAttr style.underline with
  | some underline => insertAttr attrs (true, underline)
  | none => attrs

namespace Pen

def of (style : GhosttyStyle) : Pen where
  fg := styleColor style.fgColor
  bg := styleColor style.bgColor
  attrs := styleAttrs style
  underlineColor := styleColor style.underlineColor

/-- Whether a cell in this pen shows without a glyph: a background, or a line drawn through or under
it. -/
def showsAlone (pen : Pen) : Bool :=
  pen.bg ≠ .default || pen.attrs.contains CellAttrs.inverse
    || pen.attrs.contains CellAttrs.anyUnderline || pen.attrs.contains CellAttrs.strikeout

end Pen

/-! ## Rows -/

/-- A cell's text: most cells hold one character; a cluster of several is kept in its row. -/
inductive CellText where
  | empty
  | char (c : Char)
  | cluster (index : ℕ)
  deriving DecidableEq, Repr

structure CellView where
  wide : CellFlag
  text : CellText
  pen : Pen
  /-- Counted from one into the row's links; zero for none. -/
  link : ℕ
  deriving DecidableEq, Repr

/-- A row's cells, with the clusters and links they point into. -/
structure GhosttyRow where
  cells : List CellView
  clusters : List (List Char)
  links : List Hyperlink

namespace CellView

def new (cell : GhosttyCell) (text : CellText) (link : ℕ) : CellView where
  wide := cell.part
  text := text
  pen := { Pen.of cell.style with bg := cell.erasedBackground.getD (Pen.of cell.style).bg }
  link := link

/-- Whether the cell shows anything: a glyph other than a space, or a background or line drawn without
one. -/
def shows (cell : CellView) : Bool :=
  (match cell.text with
    | .empty => false
    | .char c => c ≠ ' '
    | .cluster _ => true) || cell.pen.showsAlone

end CellView

namespace GhosttyRow

def empty : GhosttyRow := ⟨[], [], []⟩

def cluster (row : GhosttyRow) (text : List Char) : CellText × GhosttyRow :=
  (.cluster row.clusters.length, { row with clusters := row.clusters ++ [text] })

def link (row : GhosttyRow) : Option Hyperlink → ℕ × GhosttyRow
  | none => (0, row)
  | some link =>
    let (index, links) :=
      match row.links.findIdx? (· = link) with
      | some index => (index, row.links)
      | none => (row.links.length, row.links ++ [link])
    (min (index + 1) 65535, { row with links })

/-- The text that is read of a cell. -/
def text (row : GhosttyRow) : CellContent → CellText × GhosttyRow
  | .none => (.empty, row)
  | .codepoint c => (.char c, row)
  | .grapheme text => row.cluster text

/-- A cell read into its row. -/
def readCell (row : GhosttyRow) (cell : GhosttyCell) : GhosttyRow :=
  let (text, row) := row.text cell.content
  let (link, row) := row.link cell.link
  { row with cells := row.cells ++ [.new cell text link] }

/-- The row that is read of the emulator's cells. -/
def read (cells : List GhosttyCell) : GhosttyRow := cells.foldl readCell empty

def pushText (row : GhosttyRow) : CellText → List Char
  | .empty => [' ']
  | .char c => [c]
  | .cluster index => row.clusters[index]?.getD []

def flags (row : GhosttyRow) : List CellFlag := row.cells.map (·.wide)

end GhosttyRow

/-! ## The walk -/

/-- The links of a line, and the line's index for each of its row's links, once used. -/
structure UsedLinks where
  links : List Hyperlink
  lineLinks : List ℕ

def UsedLinks.indexOf (row : GhosttyRow) (used : UsedLinks) : ℕ → ℕ × UsedLinks
  | 0 => (0, used)
  | index + 1 =>
    let used : UsedLinks :=
      if used.lineLinks[index]? = some 0 then
        let links := used.links ++ row.links[index]?.toList
        ⟨links, used.lineLinks.set index (min links.length 65535)⟩
      else used
    (used.lineLinks[index]?.getD 0, used)

section Walk

variable (row : GhosttyRow)

/-- The columns up to the last cell that shows anything. -/
def GhosttyRow.contentLen : ℕ :=
  ((List.range row.cells.length).reverse.find? fun column ↦ row.cells[column]?.any (·.shows)).elim 0
    (· + 1)

def rowLineStep (s : LineBuild × UsedLinks) (column : ℕ) : LineBuild × UsedLinks :=
  match glyphAt row.flags column, row.cells[column]? with
  | .covered, _ => s
  | _, none => s
  | .blank, some cell =>
    let (link, used) := s.2.indexOf row cell.link
    (s.1.put ⟨[' '], 1⟩ cell.pen link, used)
  | .shown, some cell =>
    let (link, used) := s.2.indexOf row cell.link
    let width := if cell.wide = .wide then 2 else 1
    (s.1.put ⟨row.pushText cell.text, width⟩ cell.pen link, used)

/-- A row as a snapshot line without its cells, and the cells to set on it. -/
def rowLine : StyledLine × List CellSpan :=
  let s := (List.range row.contentLen).foldl (rowLineStep row)
    (.empty, ⟨[], List.replicate row.links.length 0⟩)
  (s.1.line s.2.links, s.1.cells)

/-- A row's cells as a snapshot line. -/
def snapshotLine (u : Unicode) : StyledLine := (rowLine row).1.setCells u (rowLine row).2

end Walk

/-! ## What is kept -/

namespace GhosttyCell

def text (cell : GhosttyCell) : List Char :=
  match cell.content with
  | .none => [' ']
  | .codepoint c => [c]
  | .grapheme text => text

/-- The style of a cell, in the color it was erased in. -/
def pen (cell : GhosttyCell) : Pen :=
  { Pen.of cell.style with bg := cell.erasedBackground.getD (Pen.of cell.style).bg }

def shows (cell : GhosttyCell) : Bool :=
  (match cell.content with
    | .none => false
    | .codepoint c => c ≠ ' '
    | .grapheme _ => true) || cell.pen.showsAlone

end GhosttyCell

/-- The parts of characters that the cells of a row hold. -/
def partsOf (cells : List GhosttyCell) : List CellFlag := cells.map (·.part)

/-- The cell kept at a column: its own text, or a space where half of a wide character is left, in its
own style and link. -/
def keepCell (cells : List GhosttyCell) (column : ℕ) : Option ShownCell :=
  match glyphAt (partsOf cells) column, cells[column]? with
  | .covered, _ => none
  | _, none => none
  | .blank, some cell => some ⟨column, ⟨[' '], 1⟩, cell.pen, cell.link⟩
  | .shown, some cell =>
    some ⟨column, ⟨cell.text, if cell.part = .wide then 2 else 1⟩, cell.pen, cell.link⟩

def showsAt (cells : List GhosttyCell) (column : ℕ) : Bool := cells[column]?.any (·.shows)

/-! ## Rows are read right -/

/-- A cell as its row has it. -/
structure ReadsCell (row : GhosttyRow) (cell : GhosttyCell) (view : CellView) : Prop where
  wide : view.wide = cell.part
  pen : view.pen = cell.pen
  text : row.pushText view.text = cell.text
  inside : ∀ index, view.text = .cluster index → index < row.clusters.length
  shows : view.shows = cell.shows
  link : Names row.links view.link cell.link

/-- A row that has been read of some cells. -/
structure ReadsRow (cells : List GhosttyCell) (row : GhosttyRow) : Prop where
  views : List.Forall₂ (ReadsCell row) cells row.cells
  nodup : row.links.Nodup
  length_links : row.links.length ≤ cells.length

section Read

variable {row row' : GhosttyRow} {cells : List GhosttyCell} {cell : GhosttyCell} {view : CellView}

/-- What is added to the row leaves what its cells refer to. -/
theorem ReadsCell.of_prefix (h : ReadsCell row cell view) (hlinks : row.links <+: row'.links)
    (hclusters : row.clusters <+: row'.clusters) : ReadsCell row' cell view where
  wide := h.wide
  pen := h.pen
  text := by
    rw [← h.text]
    cases htext : view.text with
    | empty => rfl
    | char c => rfl
    | cluster index =>
      obtain ⟨more, hmore⟩ := hclusters
      rw [GhosttyRow.pushText, GhosttyRow.pushText, ← hmore,
        List.getElem?_append_left (h.inside index htext)]
  inside index htext := (h.inside index htext).trans_le hclusters.length_le
  shows := h.shows
  link := h.link.of_prefix hlinks

theorem link_eq (hlen : row.links.length < 65535) (link : Option Hyperlink) :
    row.link link =
      ((linkIndex row.links link).1, { row with links := (linkIndex row.links link).2 }) := by
  cases link with
  | none => rfl
  | some link =>
    rw [GhosttyRow.link, findIdx?_eq_ite, linkIndex]
    by_cases hmem : link ∈ row.links
    · have hlt := List.idxOf_lt_length_of_mem hmem
      have hmin : min (row.links.idxOf link + 1) 65535 = row.links.idxOf link + 1 := by omega
      rw [if_pos hmem, if_pos hmem]
      dsimp only
      rw [hmin]
    · have hmin : min (row.links.length + 1) 65535 = row.links.length + 1 := by omega
      rw [if_neg hmem, if_neg hmem]
      dsimp only
      rw [hmin]

theorem ReadsRow.readCell (h : ReadsRow cells row) (hlen : cells.length < 65535) (cell : GhosttyCell) :
    ReadsRow (cells ++ [cell]) (row.readCell cell) := by
  have htext : ∃ text clusters, row.text cell.content = (text, { row with clusters := clusters }) ∧
      row.clusters <+: clusters ∧
      GhosttyRow.pushText ⟨row.cells, clusters, row.links⟩ text = cell.text ∧
      (∀ index, text = .cluster index → index < clusters.length) ∧
      ∀ link, (CellView.new cell text link).shows = cell.shows := by
    rw [GhosttyCell.text]
    have hshows (text : CellText) (link : ℕ) : (CellView.new cell text link).shows =
        ((match text with
          | .empty => false
          | .char c => c ≠ ' '
          | .cluster _ => true) || cell.pen.showsAlone) := rfl
    cases hcontent : cell.content with
    | none =>
      refine ⟨.empty, row.clusters, rfl, List.prefix_refl _, rfl, fun _ ↦ CellText.noConfusion,
        fun link ↦ ?_⟩
      rw [hshows, GhosttyCell.shows, hcontent]
    | codepoint c =>
      refine ⟨.char c, row.clusters, rfl, List.prefix_refl _, rfl, fun _ ↦ CellText.noConfusion,
        fun link ↦ ?_⟩
      rw [hshows, GhosttyCell.shows, hcontent]
    | grapheme text =>
      refine ⟨.cluster row.clusters.length, row.clusters ++ [text], rfl, List.prefix_append _ _, ?_,
        fun index h ↦ ?_, fun link ↦ ?_⟩
      · rw [GhosttyRow.pushText, List.getElem?_concat_length]
        rfl
      · cases h
        rw [List.length_append, List.length_singleton]
        exact Nat.lt_succ_self _
      · rw [hshows, GhosttyCell.shows, hcontent]
  obtain ⟨text, clusters, heq, hclusters, hpush, hinside, hshows⟩ := htext
  have hlinks := prefix_linkIndex row.links cell.link
  have hread : row.readCell cell =
      ⟨row.cells ++ [.new cell text (linkIndex row.links cell.link).1], clusters,
        (linkIndex row.links cell.link).2⟩ := by
    have hlink := link_eq
      (show (GhosttyRow.mk row.cells clusters row.links).links.length < 65535 from
        h.length_links.trans_lt hlen) cell.link
    rw [GhosttyRow.readCell, heq]
    dsimp only
    rw [hlink]
  rw [hread]
  refine ⟨List.rel_append (R := ReadsCell _) (h.views.imp fun _ _ hcell ↦
      hcell.of_prefix hlinks hclusters) (.cons ?_ .nil), nodup_linkIndex h.nodup cell.link, ?_⟩
  · exact ⟨rfl, rfl, hpush, hinside, hshows _, names_linkIndex _ _⟩
  · rw [List.length_append]
    exact (length_linkIndex_le _ _).trans (Nat.add_le_add_right h.length_links 1)

theorem readsRow (hlen : cells.length < 2 ^ 16) : ReadsRow cells (.read cells) := by
  induction cells using List.reverseRecOn with
  | nil => exact ⟨.nil, List.nodup_nil, Nat.le_refl 0⟩
  | append_singleton cells cell ih =>
    rw [List.length_append, List.length_singleton] at hlen
    rw [GhosttyRow.read, List.foldl_concat]
    exact (ih (by omega)).readCell (by omega) cell

end Read

/-! ## The walk keeps what it should -/

/-- The line's links, and the index of each of the row's links that is among them. -/
structure Indexes (row : GhosttyRow) (table : List Hyperlink) (used : UsedLinks) : Prop where
  links : used.links = table
  lineLinks : ∀ (index : ℕ) (link : Hyperlink), row.links[index]? = some link →
    used.lineLinks[index]? = some (if link ∈ table then table.idxOf link + 1 else 0)

section Walk

variable {row : GhosttyRow} {table : List Hyperlink} {used : UsedLinks}

theorem Indexes.indexOf (h : Indexes row table used) (hnodup : row.links.Nodup)
    (hlen : table.length < 65535) {index : ℕ} {link : Option Hyperlink}
    (hnames : Names row.links index link) :
    (used.indexOf row index).1 = (linkIndex table link).1 ∧
      Indexes row (linkIndex table link).2 (used.indexOf row index).2 := by
  cases link with
  | none =>
    obtain rfl : index = 0 := hnames
    exact ⟨rfl, h⟩
  | some link =>
    obtain ⟨hpos, hlink⟩ := hnames
    obtain ⟨index, rfl⟩ := Nat.exists_eq_add_of_lt hpos
    rw [Nat.zero_add, Nat.add_sub_cancel] at hlink
    rw [Nat.zero_add, UsedLinks.indexOf, linkIndex, h.lineLinks index link hlink]
    by_cases hmem : link ∈ table
    · rw [if_pos hmem, if_pos hmem, if_neg (by simp)]
      exact ⟨by rw [h.lineLinks index link hlink, if_pos hmem, Option.getD_some], h⟩
    · have hlinks : used.links ++ row.links[index]?.toList = table ++ [link] := by
        rw [h.links, hlink, Option.toList_some]
      have hmin : min (table ++ [link]).length 65535 = table.length + 1 := by
        rw [List.length_append, List.length_singleton]
        omega
      have hin : index < used.lineLinks.length :=
        (List.getElem?_eq_some_iff.mp (h.lineLinks index link hlink)).1
      rw [if_neg hmem, if_neg hmem, if_pos rfl]
      dsimp only
      rw [hlinks, hmin, List.getElem?_set_self hin, Option.getD_some]
      refine ⟨rfl, rfl, fun other known hknown ↦ ?_⟩
      by_cases hother : index = other
      · subst hother
        obtain rfl : link = known := Option.some_inj.mp (hlink.symm.trans hknown)
        rw [List.getElem?_set_self hin, if_pos (List.mem_append_right _ (List.mem_singleton_self _)),
          List.idxOf_append, if_neg hmem, List.idxOf_cons_self, Nat.zero_add]
      · -- Links of the row differ, so another one is where it was.
        have hne : known ≠ link := by
          rintro rfl
          obtain ⟨hlt, hget⟩ := List.getElem?_eq_some_iff.mp hlink
          obtain ⟨hlt', hget'⟩ := List.getElem?_eq_some_iff.mp hknown
          exact hother ((List.Nodup.getElem_inj_iff hnodup).mp (hget.trans hget'.symm))
        rw [List.getElem?_set_ne hother, h.lineLinks other known hknown, List.idxOf_append]
        by_cases hold : known ∈ table
        · rw [if_pos hold, if_pos (List.mem_append_left _ hold), if_pos hold]
        · rw [if_neg hold, if_neg fun hmem ↦ (List.mem_append.mp hmem).elim hold fun hmem ↦
            hne (List.mem_singleton.mp hmem)]

variable {cells : List GhosttyCell}

theorem ReadsRow.length_eq (h : ReadsRow cells row) : row.cells.length = cells.length := h.views.length_eq.symm

theorem ReadsRow.flags_eq (h : ReadsRow cells row) : row.flags = partsOf cells := by
  obtain ⟨hviews, -, -⟩ := h
  rw [GhosttyRow.flags, partsOf]
  generalize row.cells = views at hviews
  induction hviews with
  | nil => rfl
  | cons hcell _ ih => rw [List.map_cons, List.map_cons, hcell.wide, ih]

theorem ReadsRow.exists_view (h : ReadsRow cells row) {column : ℕ} {cell : GhosttyCell}
    (hcell : cells[column]? = some cell) :
    ∃ view, row.cells[column]? = some view ∧ ReadsCell row cell view := by
  obtain ⟨hlt, rfl⟩ := List.getElem?_eq_some_iff.mp hcell
  have hlt' : column < row.cells.length := h.length_eq ▸ hlt
  exact ⟨row.cells[column], List.getElem?_eq_getElem hlt', h.views.get hlt hlt'⟩

/-- The walk builds the line of the cells that are kept. -/
theorem foldl_rowLineStep (h : ReadsRow cells row) {n : ℕ} (hle : n ≤ cells.length)
    (hlen : cells.length < 2 ^ 16) :
    ((List.range n).foldl (rowLineStep row) (.empty, ⟨[], List.replicate row.links.length 0⟩)).1 =
        (build (keptCells (keepCell cells) n)).1 ∧
      Indexes row (build (keptCells (keepCell cells) n)).2
        ((List.range n).foldl (rowLineStep row)
          (.empty, ⟨[], List.replicate row.links.length 0⟩)).2 := by
  induction n with
  | zero =>
    refine ⟨rfl, rfl, fun index link hlink ↦ ?_⟩
    exact List.getElem?_replicate_of_lt (List.getElem?_eq_some_iff.mp hlink).1
  | succ n ih =>
    obtain ⟨hbuild, hindexes⟩ := ih (by omega)
    have hcell := List.getElem?_eq_getElem (show n < cells.length by omega)
    obtain ⟨view, hview, hread⟩ := h.exists_view hcell
    have hroom : (build (keptCells (keepCell cells) n)).2.length < 65535 := by
      have hcount : (keptCells (keepCell cells) n).length ≤ n :=
        (List.length_filterMap_le _ _).trans_eq List.length_range
      exact (built _).links.trans_lt (by omega)
    rw [List.range_succ, List.foldl_concat, keptCells_succ]
    generalize (List.range n).foldl (rowLineStep row)
      (.empty, ⟨[], List.replicate row.links.length 0⟩) = s at hbuild hindexes
    obtain ⟨hindex, hnext⟩ := hindexes.indexOf h.nodup hroom hread.link
    rw [rowLineStep, keepCell, h.flags_eq, hcell, hview]
    cases glyphAt (partsOf cells) n with
    | covered =>
      dsimp only
      rw [Option.toList_none, List.append_nil]
      exact ⟨hbuild, hindexes⟩
    | blank =>
      dsimp only
      rw [Option.toList_some, build, List.foldl_concat, ← build, addCell, ← hbuild]
      exact ⟨by rw [hindex, hread.pen], hnext⟩
    | shown =>
      dsimp only
      rw [Option.toList_some, build, List.foldl_concat, ← build, addCell, ← hbuild]
      exact ⟨by rw [hindex, hread.pen, hread.text, hread.wide], hnext⟩

theorem keepsCell (hfilled : ∀ cell ∈ cells, cell.text ≠ []) : Keeps (partsOf cells) (keepCell cells) where
  covered column h := by
    rw [keepCell, h]
  kept column hlt h := by
    have hlt : column < cells.length := by rwa [partsOf, List.length_map] at hlt
    have hcell := List.getElem?_eq_getElem hlt
    rw [keepCell, glyphWidth, hcell]
    cases hglyph : glyphAt (partsOf cells) column with
    | covered => exact absurd hglyph h
    | blank => exact ⟨_, rfl, rfl, List.cons_ne_nil _ _, rfl⟩
    | shown =>
      refine ⟨_, rfl, rfl, hfilled _ (List.getElem_mem hlt), ?_⟩
      rw [partsOf, List.getElem?_map, hcell, Option.map_some]
      simp only [Option.some_inj]

theorem contentLen_spec (h : ReadsRow cells row) :
    row.contentLen ≤ cells.length ∧
      ∀ column < cells.length, row.contentLen ≤ column → showsAt cells column = false := by
  have hshows : ∀ column, row.cells[column]?.any (·.shows) = showsAt cells column := by
    intro column
    rw [showsAt]
    cases hcell : cells[column]? with
    | none =>
      rw [List.getElem?_eq_none_iff, ← h.length_eq, ← List.getElem?_eq_none_iff] at hcell
      rw [hcell]
      rfl
    | some cell =>
      obtain ⟨view, hview, hread⟩ := h.exists_view hcell
      rw [hview, Option.any_some, Option.any_some, hread.shows]
  rw [GhosttyRow.contentLen, h.length_eq, List.range_eq_range']
  simp only [hshows]
  cases hfind : (List.range' 0 cells.length).reverse.find? (showsAt cells) with
  | none =>
    refine ⟨Nat.zero_le _, fun column hlt _ ↦ ?_⟩
    exact find?_reverse_range'_none hfind (Nat.zero_le _) (by omega)
  | some last =>
    obtain ⟨-, hlast, -, hafter⟩ := find?_reverse_range'_some hfind
    rw [Option.elim_some]
    exact ⟨by omega, fun column hlt hcolumn ↦ hafter column (by omega) (by omega)⟩

/-- **Lines from Ghostty's rows.** The line shows the cells kept of the row, of which none is
missing. -/
theorem snapshotLine_shows (u : Unicode) (hfilled : ∀ cell ∈ cells, cell.text ≠ [])
    (hlen : cells.length < 2 ^ 16) (hlead : LeadsLast (partsOf cells))
    (hu : u.Cuts (rowLine (.read cells)).1.text)
    (hbreak : ¬lineBreak <:+: (rowLine (.read cells)).1.text) :
    Shows u (snapshotLine (.read cells) u)
        (keptCells (keepCell cells) (GhosttyRow.read cells).contentLen) ∧
      Complete (partsOf cells) (showsAt cells)
        (keptCells (keepCell cells) (GhosttyRow.read cells).contentLen) := by
  have hreads := readsRow hlen
  obtain ⟨hle, hend⟩ := contentLen_spec hreads
  obtain ⟨hbuild, hindexes⟩ := foldl_rowLineStep hreads hle hlen
  have hrow : rowLine (.read cells) =
      (builtLine (keptCells (keepCell cells) (GhosttyRow.read cells).contentLen),
        (build (keptCells (keepCell cells) (GhosttyRow.read cells).contentLen)).1.cells) := by
    rw [rowLine, hbuild, hindexes.links]
    rfl
  have hflags : (partsOf cells).length = cells.length := List.length_map _
  have hplaced := (keepsCell hfilled).placed hlead (hflags ▸ hlen) (hflags ▸ hle)
  rw [hrow] at hu hbreak
  have htext : (builtLine (keptCells (keepCell cells) (GhosttyRow.read cells).contentLen)).text =
      textOf (pieces (keptCells (keepCell cells) (GhosttyRow.read cells).contentLen)) :=
    (built _).text
  rw [htext] at hu hbreak
  have hshows := shows_setCells u hplaced hu fun h ↦ hbreak h.2
  rw [snapshotLine, hrow]
  refine ⟨hshows, (keepsCell hfilled).complete hlead fun column hlt hcolumn ↦ ?_⟩
  exact hend column (hflags ▸ hlt) hcolumn

end Walk

end Embers.Server
