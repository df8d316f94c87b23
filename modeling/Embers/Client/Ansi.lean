import Embers.Client.Grid

/-!
# Rows for the host terminal

A row is written as text with escape sequences: the style and the link are set where they change,
and a cell whose text the host could size otherwise is erased first and followed by a placement of
the cursor. Cells that a host would join to one character are written from right to left into
cleared columns.

What is written is kept as pieces, one for each escape sequence and one for each text, and
`Piece.encode` gives the characters that are sent for them.
-/

namespace Embers.Client

/-- What the host terminal supports of what a row may use. -/
structure HostCapabilities where
  underlineStyles : Bool
  underlineColor : Bool
  hyperlinks : Bool
  deriving DecidableEq, Repr

namespace CellStyle

def isPlain (style : CellStyle) : Bool := style = plain

/-- The style as the host can show it. -/
def forHost (style : CellStyle) (host : HostCapabilities) : CellStyle :=
  let style :=
    if !host.underlineStyles ∧ style.underline ≠ .none then { style with underline := .single }
    else style
  if !host.underlineColor then { style with underlineColor := none } else style

end CellStyle

/-! ## Pieces of a row -/

/-- An attribute that a sequence sets, or the end of all of them. -/
inductive Sgr where
  | reset
  | bold
  | dim
  | italic
  | underline (style : UnderlineStyle)
  | blink
  | reverse
  | strikeout
  | fg (color : TerminalColor)
  | bg (color : TerminalColor)
  | underlineColor (color : TerminalColor)
  deriving DecidableEq, Repr

inductive Piece where
  | sgr (code : Sgr)
  /-- A link opened, or closed when there is no address. -/
  | hyperlink (id : Option (List Char)) (uri : List Char)
  /-- The cursor put in a column, counted from one. -/
  | placeCursor (column : ℕ)
  /-- Cells erased from the cursor on. -/
  | erase (count : ℕ)
  | text (text : List Char)
  deriving DecidableEq, Repr

def UnderlineStyle.code : UnderlineStyle → ℕ
  | none => 0
  | single => 1
  | double => 2
  | curly => 3
  | dotted => 4
  | dashed => 5

namespace Sgr

/-- A color after the number of what it colors, its parts separated by `sep`. -/
def colorText (sep : String) (space : String) : TerminalColor → String
  | .rgb color =>
    sep ++ "2" ++ space ++ sep ++ toString color.red ++ sep ++ toString color.green ++ sep ++
      toString color.blue
  | .indexed index => sep ++ "5" ++ sep ++ toString index

def parameters : Sgr → String
  | reset => "0"
  | bold => "1"
  | dim => "2"
  | italic => "3"
  | underline .single => "4"
  | underline style => "4:" ++ toString style.code
  | blink => "5"
  | reverse => "7"
  | strikeout => "9"
  | fg color => "38" ++ colorText ";" "" color
  | bg color => "48" ++ colorText ";" "" color
  | underlineColor color => "58" ++ colorText ":" ":" color

end Sgr

/-- The characters that are sent for a piece. -/
def Piece.encode : Piece → List Char
  | sgr code => ("\x1b[" ++ code.parameters ++ "m").toList
  | hyperlink id uri =>
    "\x1b]8;".toList ++ (id.map fun id ↦ "id=".toList ++ id).getD [] ++ [';'] ++ uri ++
      "\x1b\\".toList
  | placeCursor column => ("\x1b[" ++ toString column ++ "G").toList
  | erase count => ("\x1b[" ++ toString count ++ "X").toList
  | .text shown => shown

/-! ## Styles and links -/

open Piece in
def writeStyleTransition (current next : CellStyle) : List Piece :=
  if current = next then []
  else
    [sgr .reset] ++ (if next.bold then [sgr .bold] else []) ++
      (if next.dim then [sgr .dim] else []) ++ (if next.italic then [sgr .italic] else []) ++
      (if next.underline = .none then [] else [sgr (.underline next.underline)]) ++
      (if next.blink then [sgr .blink] else []) ++ (if next.reverse then [sgr .reverse] else []) ++
      (if next.strikeout then [sgr .strikeout] else []) ++
      (next.fg.map fun color ↦ sgr (.fg color)).toList ++
      (next.bg.map fun color ↦ sgr (.bg color)).toList ++
      (next.underlineColor.map fun color ↦ sgr (.underlineColor color)).toList

/-- Control characters would end the sequence early, and `:` and `;` separate its parameters. -/
def writeHyperlink : Option Hyperlink → Piece
  | some link =>
    .hyperlink
      ((link.id.filter (· ≠ "")).map fun id ↦
        id.toList.filter fun ch ↦ !isControl ch ∧ ch ≠ ':' ∧ ch ≠ ';')
      (link.uri.toList.filter fun ch ↦ !isControl ch)
  | none => .hyperlink none []

/-! ## The text of a cell -/

def isRegionalIndicator (ch : Char) : Bool := 0x1F1E6 ≤ ch.toNat ∧ ch.toNat ≤ 0x1F1FF

/-- Asks for the wide form of a character. -/
def emojiPresentation : Char := '\uFE0F'

def zeroWidthJoiner : Char := '\u200D'

def replacement : Char := '\uFFFD'

/-- The text that is erased for and then drawn, where the host could size the cell's otherwise. -/
def fittedText (u : Unicode) (text : List Char) (width : ℕ) : List Char :=
  if text.any isRegionalIndicator ∧ width < 2 then [replacement]
  else if u.graphemeWidth text ≤ width then text
  else
    let narrowed := text.filter fun ch ↦ ch ≠ emojiPresentation ∧ ch ≠ zeroWidthJoiner
    if u.graphemeWidth narrowed ≤ width then narrowed else List.replicate width replacement

/-- Whether a cell's text is written as it is: it is measured as wide as the cell. -/
def WrittenPlainly (u : Unicode) (text : List Char) (width : ℕ) : Prop :=
  u.graphemeWidth text = width ∧ text.any isRegionalIndicator = false

instance (u : Unicode) (text : List Char) (width : ℕ) : Decidable (WrittenPlainly u text width) :=
  inferInstanceAs (Decidable (_ ∧ _))

def writeCellText (u : Unicode) (text : List Char) (column width : ℕ) : List Piece :=
  if text = [] then [.text [' ']]
  else if WrittenPlainly u text width then [.text text]
  else [.erase width, .text (fittedText u text width), .placeCursor (column + width + 1)]

/-! ## Rows -/

/-- Writes a row, with the style and the link that are set. -/
structure RowWriter where
  host : HostCapabilities
  output : List Piece
  style : CellStyle
  link : Option Hyperlink
  deriving DecidableEq, Repr

namespace RowWriter

def write (w : RowWriter) (pieces : List Piece) : RowWriter :=
  { w with output := w.output ++ pieces }

def setStyle (w : RowWriter) (style : CellStyle) : RowWriter :=
  { w with output := w.output ++ writeStyleTransition w.style style, style := style }

def setLink (w : RowWriter) (link : Option Hyperlink) : RowWriter :=
  if w.host.hyperlinks ∧ link ≠ w.link then
    { w with output := w.output ++ [writeHyperlink link], link := link }
  else w

def cell (u : Unicode) (w : RowWriter) (cell : GridCell) (column width : ℕ) : RowWriter :=
  ((w.setStyle (cell.style.forHost w.host)).setLink cell.link).write
    (writeCellText u cell.text column width)

/-- A link never goes on into the next row, nor does a style. -/
def finish (w : RowWriter) : List Piece :=
  w.output ++ (if w.link.isSome then [writeHyperlink none] else []) ++
    if w.style.isPlain then [] else [.sgr .reset]

end RowWriter

namespace RenderGrid

/-- The cell after the one at a column, when a host would draw the two as one character. -/
def joinedNext (u : Unicode) (g : RenderGrid) (y column : ℕ) : Option ℕ :=
  let next := column + g.cellWidth column y
  if next < g.width then
    let text := (g.look next y).text
    if text.any (fun ch ↦ 128 ≤ ch.toNat) ∧
        (u.graphemes ((g.look column y).text ++ text)).length ≤ 1 then some next
    else none
  else none

/-- The columns of the cells after one that each join the cell before. -/
def joinedAfter (u : Unicode) (g : RenderGrid) (y : ℕ) : ℕ → ℕ → List ℕ
  | 0, _ => []
  | fuel + 1, column =>
    match g.joinedNext u y column with
    | some next => next :: g.joinedAfter u y fuel next
    | none => []

def joinedCells (u : Unicode) (g : RenderGrid) (y column : ℕ) : List ℕ :=
  column :: g.joinedAfter u y g.width column

def writeCell (u : Unicode) (g : RenderGrid) (y : ℕ) (w : RowWriter) (column : ℕ) : RowWriter :=
  w.cell u (g.look column y) column (g.cellWidth column y)

/-- Cells that would join, from right to left into cleared columns up to `stop`. -/
def writeJoined (u : Unicode) (g : RenderGrid) (y : ℕ) (w : RowWriter) (joined : List ℕ)
    (column stop : ℕ) : RowWriter :=
  let w := w.write [.placeCursor (column + 1), .erase (stop - column)]
  let w := joined.reverse.foldl
    (fun w part ↦ g.writeCell u y (w.write [.placeCursor (part + 1)]) part) w
  w.write [.placeCursor (stop + 1)]

/-- The cells of a row from a column on. Each turn goes on by one column at least. -/
def writeRow (u : Unicode) (g : RenderGrid) (y : ℕ) : ℕ → ℕ → RowWriter → RowWriter
  | 0, _, w => w
  | fuel + 1, column, w =>
    if column < g.width then
      if (g.look column y).continuation then g.writeRow u y fuel (column + 1) w
      else if g.joinedNext u y column = none then
        g.writeRow u y fuel (column + g.cellWidth column y) (g.writeCell u y w column)
      else
        let joined := g.joinedCells u y column
        let last := joined.getLastD column
        let stop := last + g.cellWidth last y
        g.writeRow u y fuel stop (g.writeJoined u y w joined column stop)
    else w

def ansiRow (u : Unicode) (host : HostCapabilities) (g : RenderGrid) (y : ℕ) : List Piece :=
  (g.writeRow u y g.width 0 ⟨host, [], .plain, none⟩).finish

/-- The rows as they are sent. -/
def ansiLinesFor (u : Unicode) (host : HostCapabilities) (g : RenderGrid) : List (List Char) :=
  (List.range g.height).map fun y ↦ (g.ansiRow u host y).flatMap Piece.encode

end RenderGrid

end Embers.Client
