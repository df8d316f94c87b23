import Embers.Client.GridAreas
import Embers.Client.Presentation

/-!
# Tab bars

A tab bar draws the session's name and its tabs one after the other, or what a formatter of the user
returns: segments on the left, on the right and in the center. What is drawn and what a click
selects both come from one layout, a list of texts with the columns they start in.

The bars are those of the tiled layer, and clicks those that no floating window takes.
-/

namespace Embers.Client

open Protocol

/-! ## Text -/

/-- Titles come from programs; a control character in them is drawn as a space. -/
def replaceControls (text : List Char) : List Char :=
  text.map fun ch ↦ if isControl ch then ' ' else ch

def Unicode.displayWidth (u : Unicode) (text : List Char) : ℕ := min (u.width text) 65535

/-- The first graphemes of a text, up to `limit` columns. -/
def leadingGraphemes (u : Unicode) (limit : ℕ) : List (List Char) → ℕ → List Char
  | [], _ => []
  | grapheme :: rest, used =>
    if used + max (u.width grapheme) 1 > limit then []
    else grapheme ++ leadingGraphemes u limit rest (used + max (u.width grapheme) 1)

/-- A text fitted in some columns. It ends in `~` when it is cut. -/
def truncate (u : Unicode) (text : List Char) (width : ℕ) : List Char :=
  if width = 0 then []
  else if u.width (replaceControls text) ≤ width then replaceControls text
  else if width = 1 then ['~']
  else leadingGraphemes u (width - 1) (u.graphemes (replaceControls text)) 0 ++ ['~']

/-! ## Segments of a formatter -/

inductive BarTarget where
  | tab (tabsNodeId : NodeId) (index : ℕ)
  | floating (floatingId : FloatingId)
  | buffer (bufferId : BufferId)
  deriving DecidableEq, Repr

/-- A text of a tab bar, and what a click on it selects. -/
structure BarCells where
  x : ℕ
  text : List Char
  style : CellStyle
  target : Option BarTarget
  deriving DecidableEq, Repr

def activityMarker : ActivityState → Char
  | .idle => ' '
  | .activity => '+'
  | .bell => '!'

/-- Texts drawn one after the other, the text at each index with the link given for it. -/
def drawCells (u : Unicode) (y : ℕ) (link : ℕ → Option Hyperlink) :
    ℕ → List BarCells → RenderGrid → Drawn RenderGrid
  | _, [], g => pure g
  | index, cells :: rest, g => do
    let g ← g.putStrLinked u cells.x y cells.text cells.style (link index)
    drawCells u y link (index + 1) rest g

/-- A laid out bar drawn on a cleared row. The client draws its texts without links: `renderTabs`.
-/
def renderCells (u : Unicode) (g : RenderGrid) (tabs : TabsFrame) (cells : List BarCells)
    (link : ℕ → Option Hyperlink) : Drawn RenderGrid :=
  if tabs.rect.height = 0 ∨ tabs.rect.width = 0 then pure g
  else do
    let x := clampI32ToU16 tabs.rect.x
    let y := clampI32ToU16 tabs.rect.y
    let g ← g.putStrLinked u x y (List.replicate tabs.rect.width ' ') .plain none
    drawCells u y link 0 cells g

def renderTabs (u : Unicode) (g : RenderGrid) (tabs : TabsFrame) (cells : List BarCells) :
    Drawn RenderGrid := renderCells u g tabs cells fun _ ↦ none

def Rect.contains (rect : Rect) (x y : ℤ) : Bool :=
  rect.x ≤ x ∧ rect.y ≤ y ∧ x < rect.x + rect.width ∧ y < rect.y + rect.height

/-- The text of a bar that measures over a column. -/
def cellsAt (u : Unicode) (x : ℕ) (cells : List BarCells) : Option BarCells :=
  cells.find? fun cells ↦ cells.x ≤ x ∧ x < add16 cells.x (u.displayWidth cells.text)

end Embers.Client
