import Embers.Client.GridRuns
import Embers.Client.Rows
import Embers.Client.TabBars
import Embers.Lib.Decimal

/-!
# Drawing a pane

A pane is drawn in steps, each over the one before: blanks, its title, the lines its view looks at,
what a search found, the selection, the labels of hints and where the view is in the history. None
of the steps reads the grid, so a pane is drawn by a list of operations.

The styles of lines are a parameter. The cursor is left out.
-/

namespace Embers.Client

open Protocol

/-- The pane as the lines of its content are found. -/
def LeafFrame.content (leaf : LeafFrame) : Leaf :=
  ⟨leaf.nodeId, leaf.bufferId, .ofNat leaf.contentRect.width, .ofNat leaf.contentRect.height,
    leaf.focused⟩

/-! ## Styles -/

def leafTitleStyle (focused : Bool) : CellStyle := { CellStyle.plain with bold := focused }

def scrollIndicatorStyle : CellStyle := { CellStyle.plain with dim := true, reverse := true }

def hintLabelStyle (typed : Bool) : CellStyle :=
  { CellStyle.plain with
    bold := true
    reverse := !typed
    underline := if typed then .single else .none }

def searchStyle : CellStyle := { CellStyle.plain with underline := .single, italic := true }

def activeSearchStyle : CellStyle :=
  { CellStyle.plain with underline := .single, reverse := true, italic := true }

/-- A style over another: its attributes are added, its colors win where it has them. -/
def composeOverlay (overlay base : CellStyle) : CellStyle where
  fg := overlay.fg <|> base.fg
  bg := overlay.bg <|> base.bg
  bold := base.bold || overlay.bold
  italic := base.italic || overlay.italic
  underline := if overlay.underline = .none then base.underline else overlay.underline
  underlineColor := overlay.underlineColor <|> base.underlineColor
  dim := base.dim || overlay.dim
  reverse := base.reverse || overlay.reverse
  blink := base.blink || overlay.blink
  strikeout := base.strikeout || overlay.strikeout

def invert (base : CellStyle) : CellStyle := { base with reverse := !base.reverse }

def fade (base : CellStyle) : CellStyle := { base with dim := true }

/-! ## Title and content -/

/-- The styles, links and cells of a line. -/
structure LineLooks where
  runs : List StyledRun
  links : List Hyperlink
  cellSpans : List CellSpan
  deriving DecidableEq, Repr

def LineLooks.style (looks : LineLooks) (line : SnapshotLine) : StyledLine :=
  ⟨line.text.toList, looks.runs, looks.links, looks.cellSpans⟩

def blankOps (leaf : LeafFrame) : List DrawOp :=
  (List.range leaf.rect.height).map fun row ↦
    .putStr (clampI32ToU16 leaf.rect.x) (add16 (clampI32ToU16 leaf.rect.y) row)
      (List.replicate leaf.rect.width ' ') .plain

def leafTitle (u : Unicode) (leaf : LeafFrame) (width : ℕ) : List Char :=
  truncate u ([if leaf.focused then '>' else ' ', activityMarker leaf.activity, ' '] ++
    leaf.title.toList) width

def titleOps (u : Unicode) (leaf : LeafFrame) : List DrawOp :=
  leaf.titleRect.toList.map fun rect ↦
    .putStr (clampI32ToU16 rect.x) (clampI32ToU16 rect.y) (leafTitle u leaf rect.width)
      (leafTitleStyle leaf.focused)

def contentOps (looks : SnapshotLine → LineLooks) (x y width rows : ℕ)
    (lines : List SnapshotLine) : List DrawOp :=
  (lines.take rows).mapIdx fun row line ↦
    .putSnapshotLine x (y + row) width ((looks line).style line)

/-! ## Overlays -/

/-- What a search found, each match on its row if there is a line for it. -/
def searchOps (c : ClientState) (leaf : LeafFrame) (x y : ℕ) (search : SearchState) :
    List DrawOp :=
  let width := leaf.contentRect.width
  match search.activeMatchIndex with
  | none => []
  | some activeIndex =>
    (search.found.mapIdx fun index found ↦
      (c.searchRow leaf.content found.line).toList.map fun row ↦
        let overlay := if index = activeIndex then activeSearchStyle else searchStyle
        DrawOp.restyleRange x (add16 y row) (min found.startColumn.toNat width)
          (min found.endColumn.toNat width) (composeOverlay overlay)).flatten

def orderedPoints (left right : SelectionPoint) : SelectionPoint × SelectionPoint :=
  if left.line < right.line ∨ (left.line = right.line ∧ left.column ≤ right.column) then
    (left, right)
  else (right, left)

/-- The columns of a line that are selected. -/
def selectionRangeForLine (u : Unicode) (selection : SelectionState) (lineNumber width : ℕ)
    (text : List Char) : Option (ℕ × ℕ) :=
  let startLine := min selection.anchor.line selection.cursor.line
  let endLine := max selection.anchor.line selection.cursor.line
  match selection.kind with
  | .line => if startLine ≤ lineNumber ∧ lineNumber ≤ endLine then some (0, width) else none
  | .block =>
    if startLine ≤ lineNumber ∧ lineNumber ≤ endLine then
      some (min selection.anchor.column.toNat selection.cursor.column.toNat,
        add16 (max selection.anchor.column.toNat selection.cursor.column.toNat) 1)
    else none
  | .character =>
    let (start, stop) := orderedPoints selection.anchor selection.cursor
    if start.line ≤ lineNumber ∧ lineNumber ≤ stop.line then
      let lineWidth := max (u.displayWidth text) 1
      if start.line = stop.line then some (start.column.toNat, add16 stop.column.toNat 1)
      else if lineNumber = start.line then
        some (start.column.toNat, max lineWidth (add16 start.column.toNat 1))
      else if lineNumber = stop.line then some (0, add16 stop.column.toNat 1)
      else some (0, lineWidth)
    else none

/-- The selection on a line in some row. -/
def selectionOp (u : Unicode) (c : ClientState) (leaf : LeafFrame) (x y : ℕ)
    (selection : SelectionState) (row : ℕ) (line : SnapshotLine) : List DrawOp :=
  let width := leaf.contentRect.width
  (selectionRangeForLine u selection (c.selectionLine leaf.content row) width
      line.text.toList).toList.map fun range ↦
    .restyleRange x (add16 y row) (min range.1 width) (min range.2 width) invert

def selectionOps (u : Unicode) (c : ClientState) (leaf : LeafFrame) (x y : ℕ)
    (selection : SelectionState) : List DrawOp :=
  (((c.displayedLines leaf.content).take (2 ^ 16)).mapIdx
    (selectionOp u c leaf x y selection)).flatten

/-- The characters of a hint's label, while they are in the pane. -/
def labelOps (x y width startCol typedLen : ℕ) : ℕ → List Char → List DrawOp
  | _, [] => []
  | offset, ch :: rest =>
    if offset ≥ 2 ^ 16 ∨ add16 startCol offset ≥ width then []
    else
      .putChar (add16 x (add16 startCol offset)) y ch (hintLabelStyle (offset < typedLen)) ::
        labelOps x y width startCol typedLen (offset + 1) rest

/-- The hints whose labels begin with what was typed, on the rows of the pane. -/
def hintsOps (c : ClientState) (leaf : LeafFrame) (x y : ℕ) (hints : HintsState) : List DrawOp :=
  let width := leaf.contentRect.width
  (hints.found.filter fun hint ↦ hints.typed.toList.isPrefixOf hint.label.toList).flatMap fun hint ↦
    (c.hintRow leaf.content hint.line).toList.flatMap fun row ↦
      .restyleRange x (add16 y row) (min hint.startCol.toNat width) (min hint.endCol.toNat width)
          fade ::
        labelOps x (add16 y row) width hint.startCol.toNat hints.typed.toList.length 0
          hint.label.toList

/-- The decimal digits of a number. -/
def decimal (n : ℕ) : List Char := (Decimal.text n).map Char.ofNat

def scrollIndicatorOps (u : Unicode) (x y width topLine totalLines : ℕ) : List DrawOp :=
  if width = 0 ∨ totalLines = 0 then []
  else
    let label := truncate u (decimal (saturatingAdd topLine 1) ++ ['/'] ++ decimal totalLines) width
    let labelWidth := min (u.displayWidth label) width
    [.putStr (add16 x (width - labelWidth)) y label scrollIndicatorStyle]

/-- What is drawn over the lines of a view that shows the history. -/
def overlayOps (u : Unicode) (c : ClientState) (leaf : LeafFrame) (x y : ℕ)
    (view : BufferViewState) : List DrawOp :=
  if view.alternateScreen then []
  else
    view.searchState.toList.flatMap (searchOps c leaf x y) ++
    view.selectionState.toList.flatMap (selectionOps u c leaf x y) ++
    view.hintsState.toList.flatMap (hintsOps c leaf x y) ++
    if view.followOutput then []
    else
      let indicatorY := (leaf.titleRect.map fun title ↦ clampI32ToU16 title.y).getD y
      scrollIndicatorOps u x indicatorY leaf.contentRect.width view.scrollTopLine
        view.totalLineCount

/-! ## The whole pane -/

def leafOps (u : Unicode) (looks : SnapshotLine → LineLooks) (c : ClientState) (leaf : LeafFrame) :
    List DrawOp :=
  if leaf.rect.width = 0 ∨ leaf.rect.height = 0 then []
  else
    let x := clampI32ToU16 leaf.contentRect.x
    let y := clampI32ToU16 leaf.contentRect.y
    blankOps leaf ++ titleOps u leaf ++
      if leaf.contentRect.height = 0 then []
      else
        contentOps looks x y leaf.contentRect.width leaf.contentRect.height
          (c.displayedLines leaf.content) ++
        c.viewState[leaf.nodeId]?.toList.flatMap (overlayOps u c leaf x y)

def renderLeaf (u : Unicode) (looks : SnapshotLine → LineLooks) (c : ClientState) (leaf : LeafFrame)
    (g : RenderGrid) : Drawn RenderGrid :=
  draws u (leafOps u looks c leaf) g

end Embers.Client
