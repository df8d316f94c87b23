import Embers.Client.CopyCells

/-!
# The grid a frame is drawn on

A grid is a flat list of cells, row after row. A character may cover several columns: the first cell
holds its text and the others continue it. Whatever is drawn over a part of a character first clears
the whole character, so that nothing of it is left on either side.

The source computes the index of a column and a row and trusts it. Here a column or a row outside the
grid is an error, so that the drawing operations return one exactly where the source would leave the
row or the grid. Coordinates are 16-bit numbers, whose sums saturate.
-/

namespace Embers.Client

/-- A 16-bit sum, or the largest number of 16 bits. -/
def add16 (a b : ℕ) : ℕ := min (a + b) 65535

/-! ## Styles -/

structure Color where
  red : UInt8
  green : UInt8
  blue : UInt8
  deriving DecidableEq, Repr

inductive TerminalColor where
  | rgb (color : Color)
  | indexed (index : UInt8)
  deriving DecidableEq, Repr

inductive UnderlineStyle where
  | none
  | single
  | double
  | curly
  | dotted
  | dashed
  deriving DecidableEq, Repr

structure CellStyle where
  fg : Option TerminalColor
  bg : Option TerminalColor
  bold : Bool
  italic : Bool
  underline : UnderlineStyle
  /-- The underline's own color, none when it follows the text. -/
  underlineColor : Option TerminalColor
  dim : Bool
  reverse : Bool
  blink : Bool
  strikeout : Bool
  deriving DecidableEq, Repr

def CellStyle.plain : CellStyle :=
  ⟨none, none, false, false, .none, none, false, false, false, false⟩

structure Hyperlink where
  id : Option String
  uri : String
  deriving DecidableEq, Repr

/-! ## Lines of a snapshot -/

inductive TermColor where
  | default
  | indexed (index : UInt8)
  | rgb (r g b : UInt8)
  deriving DecidableEq, Repr

/-- Attribute flags of a run. -/
structure CellAttrs where
  bits : UInt16
  deriving DecidableEq, Repr

namespace CellAttrs

def bold : UInt16 := 1
def dim : UInt16 := 2
def italic : UInt16 := 4
def underline : UInt16 := 8
def doubleUnderline : UInt16 := 16
def inverse : UInt16 := 32
def hidden : UInt16 := 64
def strikeout : UInt16 := 128
def curlyUnderline : UInt16 := 256
def dottedUnderline : UInt16 := 512
def dashedUnderline : UInt16 := 1024

def anyUnderline : UInt16 :=
  underline ||| doubleUnderline ||| curlyUnderline ||| dottedUnderline ||| dashedUnderline

def contains (attrs : CellAttrs) (flag : UInt16) : Bool := attrs.bits &&& flag ≠ 0

end CellAttrs

/-- The style of `len` bytes of a line. -/
structure StyledRun where
  len : ℕ
  fg : TermColor
  bg : TermColor
  attrs : CellAttrs
  underlineColor : TermColor
  /-- The hyperlink over the run: zero for none, else counted from one. -/
  link : ℕ
  deriving DecidableEq, Repr

/-- A cell as the emulator laid it out: `len` bytes of text, `width` columns wide. -/
structure CellSpan where
  len : ℕ
  width : ℕ
  deriving DecidableEq, Repr

/-- A line of a pane with its styles, links and cells. -/
structure StyledLine where
  text : List Char
  runs : List StyledRun
  links : List Hyperlink
  cellSpans : List CellSpan
  deriving DecidableEq, Repr

structure LineCell where
  offset : ℕ
  text : List Char
  width : ℕ
  deriving DecidableEq, Repr

def byteLength (text : List Char) : ℕ := (text.map Char.utf8Size).sum

/-- The text split after some bytes, if a character ends there. -/
def splitBytes : ℕ → List Char → Option (List Char × List Char)
  | 0, text => some ([], text)
  | _ + 1, [] => none
  | n + 1, c :: text =>
    if c.utf8Size ≤ n + 1 then
      (splitBytes (n + 1 - c.utf8Size) text).map fun parts ↦ (c :: parts.1, parts.2)
    else none
termination_by _ text => text.length

@[simp] theorem byteLength_nil : byteLength [] = 0 := rfl

theorem byteLength_append (xs ys : List Char) :
    byteLength (xs ++ ys) = byteLength xs + byteLength ys := by
  simp [byteLength]

theorem splitBytes_append (xs ys : List Char) :
    splitBytes (byteLength xs) (xs ++ ys) = some (xs, ys) := by
  induction xs with
  | nil => simp [splitBytes]
  | cons c xs ih =>
    have hpos := c.utf8Size_pos
    have hlen : byteLength (c :: xs) = c.utf8Size - 1 + byteLength xs + 1 := by
      simp [byteLength]
      omega
    rw [hlen, List.cons_append, splitBytes, if_pos (by omega)]
    have hrest : c.utf8Size - 1 + byteLength xs + 1 - c.utf8Size = byteLength xs := by omega
    rw [hrest, ih]
    rfl

theorem splitBytes_take (text : List Char) (n : ℕ) :
    splitBytes (byteLength (text.take n)) text = some (text.take n, text.drop n) := by
  have h := splitBytes_append (text.take n) (text.drop n)
  rwa [List.take_append_drop] at h

/-- Where a text is split, its parts are the text, and the first has the bytes asked for. -/
theorem eq_append_of_splitBytes {n : ℕ} {text : List Char} {parts : List Char × List Char}
    (h : splitBytes n text = some parts) : text = parts.1 ++ parts.2 ∧ byteLength parts.1 = n := by
  induction text generalizing n parts with
  | nil =>
    cases n with
    | zero =>
      rw [splitBytes] at h
      cases h
      exact ⟨rfl, rfl⟩
    | succ n =>
      rw [splitBytes] at h
      cases h
  | cons c text ih =>
    cases n with
    | zero =>
      rw [splitBytes] at h
      cases h
      exact ⟨rfl, rfl⟩
    | succ n =>
      rw [splitBytes] at h
      obtain ⟨hsize, h⟩ := Option.ite_none_right_eq_some.mp h
      obtain ⟨rest, hrest, rfl⟩ := Option.map_eq_some_iff.mp h
      obtain ⟨htext, hlength⟩ := ih hrest
      refine ⟨congrArg (c :: ·) htext, ?_⟩
      change c.utf8Size + byteLength rest.1 = n + 1
      omega

/-- The columns a grapheme covers as one cell: its width, at least one. -/
def Unicode.graphemeWidth (u : Unicode) (text : List Char) : ℕ := min (max (u.width text) 1) 65535

/-- The cells that spans give, if they cover the text exactly. -/
def spanCells (offset : ℕ) (text : List Char) : List CellSpan → Option (List LineCell)
  | [] => if text = [] then some [] else none
  | span :: spans =>
    if span.len = 0 then none
    else
      (splitBytes span.len text).bind fun parts ↦
        (spanCells (offset + span.len) parts.2 spans).map
          (⟨offset, parts.1, max span.width 1⟩ :: ·)

def graphemeCells (u : Unicode) (offset : ℕ) : List (List Char) → List LineCell
  | [] => []
  | text :: rest =>
    ⟨offset, text, u.graphemeWidth text⟩ :: graphemeCells u (offset + byteLength text) rest

namespace StyledLine

/-- The line's cells: its own where they cover the text, else one for each grapheme. -/
def cells (u : Unicode) (line : StyledLine) : List LineCell :=
  let graphemes := graphemeCells u 0 (u.graphemes line.text)
  if line.cellSpans = [] then graphemes
  else (spanCells 0 line.text line.cellSpans).getD graphemes

/-- The columns the line covers. -/
def width (u : Unicode) (line : StyledLine) : ℕ := ((line.cells u).map (·.width)).sum

end StyledLine

/-- The run that covers a byte of the line. -/
def runAt : List StyledRun → ℕ → Option StyledRun
  | [], _ => none
  | run :: runs, offset => if offset < run.len then some run else runAt runs (offset - run.len)

def termColorToCell : TermColor → Option TerminalColor
  | .default => none
  | .indexed index => some (.indexed index)
  | .rgb r g b => some (.rgb ⟨r, g, b⟩)

def underlineForAttrs (attrs : CellAttrs) : UnderlineStyle :=
  if !attrs.contains CellAttrs.anyUnderline then .none
  else if attrs.contains CellAttrs.curlyUnderline then .curly
  else if attrs.contains CellAttrs.doubleUnderline then .double
  else if attrs.contains CellAttrs.dottedUnderline then .dotted
  else if attrs.contains CellAttrs.dashedUnderline then .dashed
  else .single

def styleForRun (run : StyledRun) : CellStyle where
  fg := termColorToCell run.fg
  bg := termColorToCell run.bg
  bold := run.attrs.contains CellAttrs.bold
  italic := run.attrs.contains CellAttrs.italic
  underline := underlineForAttrs run.attrs
  underlineColor := termColorToCell run.underlineColor
  dim := run.attrs.contains CellAttrs.dim
  reverse := run.attrs.contains CellAttrs.inverse
  blink := false
  strikeout := run.attrs.contains CellAttrs.strikeout

/-! ## Cells and grids -/

/-- A cell of the grid. `span` is the number of columns that the character in a first cell was drawn
over; the source does not keep it, and no function here reads it. -/
structure GridCell where
  text : List Char
  style : CellStyle
  continuation : Bool
  link : Option Hyperlink
  span : ℕ
  deriving DecidableEq, Repr

namespace GridCell

def blank (fill : Char) : GridCell := ⟨[fill], .plain, false, none, 1⟩

instance : Inhabited GridCell := ⟨blank ' '⟩

end GridCell

structure RenderGrid where
  width : ℕ
  height : ℕ
  cells : List GridCell
  sized : cells.length = width * height

/-- A place outside the grid. -/
structure Outside where
  column : ℕ
  row : ℕ
  deriving DecidableEq, Repr

abbrev Drawn (α : Type) := Except Outside α

namespace RenderGrid

def new (width height : ℕ) : RenderGrid :=
  ⟨width, height, List.replicate (width * height) default, List.length_replicate⟩

def clear (g : RenderGrid) (fill : Char) : RenderGrid :=
  { g with
    cells := List.replicate (g.width * g.height) (.blank fill)
    sized := List.length_replicate }

def index (g : RenderGrid) (x y : ℕ) : ℕ := y * g.width + x

/-- The place is in the grid. -/
def Contains (g : RenderGrid) (x y : ℕ) : Prop := x < g.width ∧ y < g.height

instance (g : RenderGrid) (x y : ℕ) : Decidable (g.Contains x y) :=
  inferInstanceAs (Decidable (_ ∧ _))

/-- The cell at a place. -/
def look (g : RenderGrid) (x y : ℕ) : GridCell := g.cells[g.index x y]?.getD default

def cell (g : RenderGrid) (x y : ℕ) : Drawn GridCell :=
  if g.Contains x y then .ok (g.look x y) else .error ⟨x, y⟩

/-- The grid with the cell at a place changed. -/
def modify (g : RenderGrid) (x y : ℕ) (f : GridCell → GridCell) : Drawn RenderGrid :=
  if g.Contains x y then
    .ok
      { g with
        cells := g.cells.modify (g.index x y) f
        sized := by rw [List.length_modify, g.sized] }
  else .error ⟨x, y⟩

/-- The cells from one column up to another changed, one by one. -/
def modifyRange (g : RenderGrid) (y start stop : ℕ) (f : GridCell → GridCell) :
    Drawn RenderGrid :=
  (List.range' start (stop - start)).foldlM (fun g x ↦ g.modify x y f) g

/-- Back over continuations to the first cell of a character. -/
def snapStart (g : RenderGrid) (y : ℕ) : ℕ → Drawn ℕ
  | 0 => pure 0
  | x + 1 => do
    if (← g.cell (x + 1) y).continuation then g.snapStart y x else pure (x + 1)

/-- On over continuations, at most `left` of them, to the end of a character. -/
def snapEnd (g : RenderGrid) (y : ℕ) : ℕ → ℕ → Drawn ℕ
  | 0, x => pure x
  | left + 1, x => do
    if x < g.width then
      if (← g.cell x y).continuation then g.snapEnd y left (x + 1) else pure x
    else pure x

def clearOverlappingCells (g : RenderGrid) (x y width : ℕ) : Drawn RenderGrid := do
  let start ← g.snapStart y x
  let stop ← g.snapEnd y (g.width - add16 x width) (add16 x width)
  g.modifyRange y start stop fun _ ↦ default

def setCell (g : RenderGrid) (x y : ℕ) (grapheme : List Char) (style : CellStyle) (width : ℕ)
    (link : Option Hyperlink) : Drawn RenderGrid := do
  let g ← g.modify x y fun _ ↦ ⟨grapheme, style, false, link, width⟩
  g.modifyRange y (x + 1) (x + width) fun _ ↦ ⟨[], style, true, link, 0⟩

/-- A character drawn over what is there. -/
def place (g : RenderGrid) (x y : ℕ) (grapheme : List Char) (style : CellStyle) (width : ℕ)
    (link : Option Hyperlink) : Drawn RenderGrid := do
  let g ← g.clearOverlappingCells x y width
  g.setCell x y grapheme style width link

/-! ## Text -/

def putGraphemes (u : Unicode) (y : ℕ) (style : CellStyle) (link : Option Hyperlink) :
    List (List Char) → ℕ → RenderGrid → Drawn RenderGrid
  | [], _, g => pure g
  | grapheme :: rest, x, g =>
    if x ≥ g.width then pure g
    else if u.graphemeWidth grapheme = 0 then putGraphemes u y style link rest x g
    else if add16 x (u.graphemeWidth grapheme) > g.width then pure g
    else do
      let g ← g.place x y grapheme style (u.graphemeWidth grapheme) link
      putGraphemes u y style link rest (add16 x (u.graphemeWidth grapheme)) g

def putStrLinked (u : Unicode) (g : RenderGrid) (x y : ℕ) (text : List Char) (style : CellStyle)
    (link : Option Hyperlink) : Drawn RenderGrid :=
  if y ≥ g.height ∨ x ≥ g.width then pure g
  else putGraphemes u y style link (u.graphemes text) x g

def putStrStyled (u : Unicode) (g : RenderGrid) (x y : ℕ) (text : List Char) (style : CellStyle) :
    Drawn RenderGrid := g.putStrLinked u x y text style none

def putCharStyled (u : Unicode) (g : RenderGrid) (x y : ℕ) (ch : Char) (style : CellStyle) :
    Drawn RenderGrid := g.putStrStyled u x y [ch] style

/-- One cell of a pane's line. A hidden run shows blanks, and a cell that does not fit the grid is
left out. -/
def putLineCell (u : Unicode) (line : StyledLine) (x y : ℕ) (cell : LineCell) (g : RenderGrid) :
    Drawn RenderGrid :=
  let run := runAt line.runs cell.offset
  let style := (run.map styleForRun).getD .plain
  let hidden := run.any (·.attrs.contains CellAttrs.hidden)
  let link := run.bind fun run ↦ if run.link = 0 then none else line.links[run.link - 1]?
  if hidden then g.putStrLinked u x y (List.replicate cell.width ' ') style link
  else if add16 x cell.width ≤ g.width then g.place x y cell.text style cell.width link
  else pure g

/-- The cells of a pane's line up to a number of columns, and the columns they take. -/
def putLineCells (u : Unicode) (line : StyledLine) (x y budget : ℕ) :
    List LineCell → ℕ → RenderGrid → Drawn (RenderGrid × ℕ)
  | [], column, g => pure (g, column)
  | cell :: rest, column, g =>
    if add16 column cell.width > budget then pure (g, column)
    else do
      let g ← g.putLineCell u line (add16 x column) y cell
      putLineCells u line x y budget rest (add16 column cell.width) g

/-- A pane's line, cut off with a tilde where it is wider than `width`. -/
def putSnapshotLine (u : Unicode) (g : RenderGrid) (x y width : ℕ) (line : StyledLine) :
    Drawn RenderGrid :=
  if width = 0 ∨ y ≥ g.height ∨ x ≥ g.width then pure g
  else do
    let truncated := line.width u > width
    let budget := if truncated then width - 1 else width
    let (g, column) ← putLineCells u line x y budget (line.cells u) 0 g
    if truncated then g.putCharStyled u (add16 x column) y '~' .plain else pure g

/-- Change the styles of a span of cells. The span takes in the whole of every character it meets. -/
def restyleRange (g : RenderGrid) (x y startCol endCol : ℕ) (restyle : CellStyle → CellStyle) :
    Drawn RenderGrid :=
  if y ≥ g.height ∨ startCol ≥ endCol then pure g
  else
    let absStart := min (add16 x startCol) g.width
    let absEnd := min (add16 x endCol) g.width
    if absStart ≥ absEnd then pure g
    else do
      let start ← g.snapStart y absStart
      let stop ← g.snapEnd y (g.width - absEnd) absEnd
      g.modifyRange y start stop fun cell ↦ { cell with style := restyle cell.style }

/-! ## Lines and boxes -/

def drawHlineStyled (u : Unicode) (g : RenderGrid) (x y width : ℕ) (ch : Char) (style : CellStyle) :
    Drawn RenderGrid :=
  (List.range width).foldlM (fun g offset ↦ g.putCharStyled u (add16 x offset) y ch style) g

def drawVlineStyled (u : Unicode) (g : RenderGrid) (x y height : ℕ) (ch : Char)
    (style : CellStyle) : Drawn RenderGrid :=
  (List.range height).foldlM (fun g offset ↦ g.putCharStyled u x (add16 y offset) ch style) g

end RenderGrid

/-- A rectangle of the screen. Its origin may be off the screen. -/
structure Rect where
  x : ℤ
  y : ℤ
  width : ℕ
  height : ℕ
  deriving DecidableEq, Repr

structure BorderStyle where
  topLeft : Char
  topRight : Char
  bottomLeft : Char
  bottomRight : Char
  horizontal : Char
  vertical : Char
  deriving DecidableEq, Repr

/-- The value, or the nearest that 32 bits hold. -/
def clampI32 (value : ℤ) : ℤ := max (-2 ^ 31) (min value (2 ^ 31 - 1))

def clampI32ToU16 (value : ℤ) : ℕ := (max 0 (min value 65535)).toNat

namespace RenderGrid

/-- The part of a rectangle that is in the grid. -/
def clipRect (g : RenderGrid) (rect : Rect) : Option Rect :=
  let left := max rect.x 0
  let top := max rect.y 0
  let right := min (clampI32 (rect.x + rect.width)) g.width
  let bottom := min (clampI32 (rect.y + rect.height)) g.height
  if right ≤ left ∨ bottom ≤ top then none
  else some ⟨left, top, (right - left).toNat, (bottom - top).toNat⟩

def fillRect (u : Unicode) (g : RenderGrid) (rect : Rect) (fill : Char) (style : CellStyle) :
    Drawn RenderGrid :=
  match g.clipRect rect with
  | none => pure g
  | some rect =>
    let x := clampI32ToU16 rect.x
    let y := clampI32ToU16 rect.y
    (List.range rect.height).foldlM (fun g row ↦
      (List.range rect.width).foldlM (fun g col ↦
        g.putCharStyled u (add16 x col) (add16 y row) fill style) g) g

def drawBoxStyled (u : Unicode) (g : RenderGrid) (rect : Rect) (border : BorderStyle)
    (style : CellStyle) : Drawn RenderGrid :=
  match g.clipRect rect with
  | none => pure g
  | some rect => do
    let x := clampI32ToU16 rect.x
    let y := clampI32ToU16 rect.y
    let right := add16 x (rect.width - 1)
    let bottom := add16 y (rect.height - 1)
    let g ← g.putCharStyled u x y border.topLeft style
    let g ← g.putCharStyled u right y border.topRight style
    let g ← g.putCharStyled u x bottom border.bottomLeft style
    let g ← g.putCharStyled u right bottom border.bottomRight style
    let g ← if rect.width > 2 then do
        let g ← g.drawHlineStyled u (add16 x 1) y (rect.width - 2) border.horizontal style
        g.drawHlineStyled u (add16 x 1) bottom (rect.width - 2) border.horizontal style
      else pure g
    if rect.height > 2 then do
      let g ← g.drawVlineStyled u x (add16 y 1) (rect.height - 2) border.vertical style
      g.drawVlineStyled u right (add16 y 1) (rect.height - 2) border.vertical style
    else pure g

/-- The columns that the cell at a column covers: its own and its continuations. -/
def cellWidth (g : RenderGrid) (x y : ℕ) : ℕ :=
  1 + ((List.range' (x + 1) (g.width - (x + 1))).takeWhile fun x ↦
    (g.look x y).continuation).length

end RenderGrid

end Embers.Client
