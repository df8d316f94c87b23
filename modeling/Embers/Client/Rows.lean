import Embers.Client.Resync

/-!
# Rows of a pane and lines of a history

A pane draws a window of its buffer's history. Which line a row shows is worked out in several
places: drawing takes the lines the view holds, or else the buffer's snapshot, and while it follows
the output skips so many of them that the last line with text is on the last row; the highlights of
searches, selections and hints count from the scroll position plus what was skipped; a press or a
drag of the mouse counts from the scroll position alone; and the program's cursor is drawn at its row
in the terminal.

They agree when nothing is skipped and the lines that are drawn begin at the scroll position. A
snapshot of a terminal with as many rows as the pane draws gives that, and `Level` says so for every
step a client takes. Where the terminal is taller, because another client sized it, lines are
skipped; the highlights then count the skipped lines twice and the cursor not at all. Where it is
shorter, the scroll position is below the first line that is drawn. And a view that is scrolled back
loses its lines at a sync and gets the live ones at the next, unless it is drawn in between.
-/

namespace Embers.Client

open Embers.Protocol

/-! ## Drawing -/

/-- A pane on the screen: its content area and whether it has the focus. -/
structure Leaf where
  nodeId : NodeId
  bufferId : BufferId
  width : UInt16
  height : UInt16
  focused : Bool
  deriving DecidableEq, Repr

/-- The number of lines up to the last one with text. -/
def significant (lines : List SnapshotLine) : ℕ :=
  (lines.reverse.dropWhile (·.text.isEmpty)).length

structure FollowOutputView where
  /-- Leading lines to skip so that the bottom rows are shown. -/
  displayOffset : ℕ
  /-- The number the first displayed line is taken to have. -/
  displayedTopLine : ℕ
  deriving DecidableEq, Repr

def followOutputPosition (lines : List SnapshotLine) (contentRows scrollTopLine : ℕ)
    (followOutput : Bool) : FollowOutputView :=
  let displayOffset := if followOutput then significant lines - contentRows else 0
  ⟨displayOffset, saturatingAdd scrollTopLine displayOffset⟩

namespace ClientState

def snapshotLines (c : ClientState) (bufferId : BufferId) : List SnapshotLine :=
  (c.snapshots[bufferId]?.map (·.lines)).getD []

/-- The lines a pane is drawn from. -/
def renderedLines (c : ClientState) (leaf : Leaf) : List SnapshotLine :=
  match c.viewState[leaf.nodeId]? with
  | some view =>
    if view.visibleLines = [] then c.snapshotLines leaf.bufferId else view.visibleLines
  | none => c.snapshotLines leaf.bufferId

/-- Without a view state, a pane follows the output. -/
def position (c : ClientState) (leaf : Leaf) : FollowOutputView :=
  match c.viewState[leaf.nodeId]? with
  | some view =>
    followOutputPosition (c.renderedLines leaf) leaf.height.toNat view.scrollTopLine
      view.followOutput
  | none => followOutputPosition (c.renderedLines leaf) leaf.height.toNat 0 true

/-- The lines from the first displayed one on. -/
def displayedLines (c : ClientState) (leaf : Leaf) : List SnapshotLine :=
  (c.renderedLines leaf).drop (c.position leaf).displayOffset

/-- The line `render_leaf` draws on a row of the content area. -/
def drawnLine (c : ClientState) (leaf : Leaf) (row : ℕ) : Option SnapshotLine :=
  ((c.displayedLines leaf).take leaf.height.toNat)[row]?

/-- The number a selection is compared with on a row. -/
def selectionLine (c : ClientState) (leaf : Leaf) (row : ℕ) : ℕ :=
  saturatingAdd (c.position leaf).displayedTopLine row

/-- The row a search match is highlighted on. -/
def searchRow (c : ClientState) (leaf : Leaf) (line : ℕ) : Option ℕ :=
  let row := line - (c.position leaf).displayedTopLine
  if line < (c.position leaf).displayedTopLine then none
  else if row ≥ 2 ^ 16 then none
  else if row ≥ min (c.displayedLines leaf).length (2 ^ 16 - 1) then none
  else some row

/-- The row a hint is labelled on. -/
def hintRow (c : ClientState) (leaf : Leaf) (line : ℕ) : Option ℕ :=
  let row := line - (c.position leaf).displayedTopLine
  if line < (c.position leaf).displayedTopLine then none
  else if row ≥ 2 ^ 16 then none
  else if row ≥ leaf.height.toNat then none
  else some row

/-- Where the program's cursor is drawn, unless the pane is in copy mode, selects, is scrolled away
from the live screen or too small. -/
def drawnCursor (c : ClientState) (leaf : Leaf) : Option CursorPosition := do
  let view := c.viewState[leaf.nodeId]?
  if view.any fun view ↦ !view.alternateScreen && view.copyCursor.isSome then none
  else
    let snapshot ← c.snapshots[leaf.bufferId]?
    let locallyScrolled := view.any fun view ↦
      !view.alternateScreen && view.scrollTopLine ≠ snapshot.viewportTopLine
    let selectionActive := view.any (·.selectionState.isSome)
    if ¬ leaf.focused ∨ locallyScrolled ∨ selectionActive then none
    else
      let cursor ← snapshot.cursor
      if cursor.position.col < leaf.width ∧ cursor.position.row < leaf.height then
        some cursor.position
      else none

/-! ## The mouse -/

/-- The line a press on a row is given; presses on the alternate screen select nothing. -/
def pressLine (c : ClientState) (leaf : Leaf) (row : ℕ) : Option ℕ := do
  let view ← c.viewState[leaf.nodeId]?
  if view.alternateScreen then none else some (saturatingAdd view.scrollTopLine row)

end ClientState

/-- The part of a pane's history a motion can see and scroll. -/
structure CopyViewport where
  top : ℕ
  rows : ℕ
  total : ℕ
  deriving DecidableEq, Repr

def CopyViewport.bottomTop (viewport : CopyViewport) : ℕ := viewport.total - viewport.rows

/-- The scroll position closest to `top` that shows `line`. -/
def CopyViewport.reveal (viewport : CopyViewport) (top line : ℕ) : ℕ :=
  let rows := max viewport.rows 1
  let top :=
    if line < top then line
    else if line ≥ saturatingAdd top rows then line - (rows - 1)
    else top
  min top viewport.bottomTop

namespace ClientState

def copyViewport (c : ClientState) (nodeId : NodeId) : Option CopyViewport := do
  let view ← c.viewState[nodeId]?
  some ⟨view.scrollTopLine, max view.visibleLineCount.toNat 1, max view.totalLineCount 1⟩

/-- The line a drag to a row of the pane is given. Below the rows the view has, it scrolls. -/
def dragLine (c : ClientState) (leaf : Leaf) (row : ℕ) : Option ℕ := do
  let viewport ← c.copyViewport leaf.nodeId
  let top :=
    if row ≥ viewport.rows then
      viewport.reveal viewport.top (saturatingAdd viewport.top viewport.rows)
    else viewport.top
  some (min (saturatingAdd top (min row (viewport.rows - 1))) (viewport.total - 1))

end ClientState

/-! ## The steps of a client -/

/-- Lines of a buffer's history, and how many it has. -/
structure ScrollbackSlice where
  startLine : ℕ
  totalLines : ℕ
  lines : List SnapshotLine
  deriving DecidableEq

/-- What is laid over a view: a search, a selection, hints and the copy-mode cursor. -/
structure Overlay where
  searchState : Option SearchState
  selectionState : Option SelectionState
  hintsState : Option HintsState
  copyCursor : Option SelectionPoint
  deriving DecidableEq

namespace ClientState

/-- The alternate screen is not scrolled. -/
def followOutputForView (c : ClientState) (nodeId : NodeId) : ClientState :=
  match c.viewState[nodeId]? with
  | none => c
  | some view => if view.alternateScreen then c else c.setViewFollowOutput nodeId true

/-- The view shows the history from a line on, as the server answered. -/
def fetchViewSlice (c : ClientState) (nodeId : NodeId) (scrollTopLine : ℕ)
    (response : ScrollbackSlice) : ClientState :=
  match c.viewState[nodeId]? with
  | none => c
  | some view =>
    if view.visibleLineCount = 0 then c
    else
      let view := { view with
        totalLineCount := max response.totalLines view.visibleLineCount.toNat }
      { c with viewState := c.viewState.insert nodeId view }.setViewVisibleLines nodeId
        scrollTopLine response.lines

/-- Searching, selecting, hints and copy mode change what lies over a view, and may stop it from
following the output. -/
def setOverlay (c : ClientState) (nodeId : NodeId) (overlay : Overlay) (freeze : Bool) :
    ClientState :=
  match c.viewState[nodeId]? with
  | none => c
  | some view =>
    let view := { view with
      searchState := overlay.searchState
      selectionState := overlay.selectionState
      hintsState := overlay.hintsState
      copyCursor := overlay.copyCursor
      followOutput := view.followOutput && !freeze }
    { c with viewState := c.viewState.insert nodeId view }

end ClientState

/-- The steps that change what panes show: news of the server, a new height for a pane, going back to
the live screen, and a part of the history that was asked for. Scrolling asks for a slice and then
stops following; drawing asks for one for a scrolled pane that has no lines. -/
inductive ViewStep where
  | ofNews (news : News)
  | drawnRows (nodeId : NodeId) (rows : UInt16)
  | followOutput (nodeId : NodeId)
  | slice (nodeId : NodeId) (scrollTopLine : ℕ) (response : ScrollbackSlice)
  | overlay (nodeId : NodeId) (overlay : Overlay) (freeze : Bool)

def ClientState.viewStep (c : ClientState) : ViewStep → ClientState
  | .ofNews news => c.applyNews news
  | .drawnRows nodeId rows => c.setViewDrawnRows nodeId rows
  | .followOutput nodeId => c.followOutputForView nodeId
  | .slice nodeId scrollTopLine response => c.fetchViewSlice nodeId scrollTopLine response
  | .overlay nodeId overlay freeze => c.setOverlay nodeId overlay freeze

/-- The lines are consecutive lines of a history from `top` on. -/
def Numbered (top : ℕ) (lines : List SnapshotLine) : Prop :=
  ∀ i line, lines[i]? = some line → line.number = top + i

/-- What servers send: a snapshot's lines are the ones from its top line on, a slice's the ones from
its start, and a history has fewer than `2⁶⁴` lines. -/
def ViewStep.Sent : ViewStep → Prop
  | .ofNews (.visibleSnapshot snapshot) =>
    Numbered snapshot.viewportTopLine snapshot.lines ∧ snapshot.totalLines < 2 ^ 64
  | .ofNews news => news.Sent
  | .slice _ _ response => Numbered response.startLine response.lines ∧ response.totalLines < 2 ^ 64
  | _ => True

/-- The states reached by such steps. -/
inductive ViewReachable : ClientState → Prop
  | empty : ViewReachable .empty
  | step {c : ClientState} {step : ViewStep} (hc : ViewReachable c) (hsent : step.Sent) :
    ViewReachable (c.viewStep step)

/-! ## Agreement -/

/-- A pane is drawn from a view that has lines or needs none: a scrolled view without lines is
fetched before it is drawn. -/
def Ready (view : BufferViewState) : Prop :=
  view.alternateScreen ∨ view.followOutput ∨ view.visibleLines ≠ []

/-- The leaf shows the node's buffer. -/
structure Shows (c : ClientState) (leaf : Leaf) (view : BufferViewState) : Prop where
  node : ∃ node record, c.nodes[leaf.nodeId]? = some node ∧ node.kind = .bufferView ∧
    node.bufferView = some record ∧ record.bufferId = leaf.bufferId
  viewState : c.viewState[leaf.nodeId]? = some view
  ready : Ready view

/-- Every place that maps rows to lines says the same as what is drawn. On the alternate screen there
is only the cursor to place. -/
structure RowsAgree (c : ClientState) (leaf : Leaf) (view : BufferViewState) : Prop where
  press_drag : view.alternateScreen = false → ∀ row < leaf.height.toNat,
    c.pressLine leaf row = c.dragLine leaf row
  press_overlay : view.alternateScreen = false → ∀ row < leaf.height.toNat,
    c.pressLine leaf row = some (c.selectionLine leaf row)
  drawn : view.alternateScreen = false → ∀ row line, c.drawnLine leaf row = some line →
    c.selectionLine leaf row = line.number
  search : view.alternateScreen = false → ∀ number row, row < leaf.height.toNat →
    c.searchRow leaf number = some row → number = c.selectionLine leaf row
  hint : view.alternateScreen = false → ∀ number row,
    c.hintRow leaf number = some row → number = c.selectionLine leaf row
  cursor : ∀ snapshot position line, c.snapshots[leaf.bufferId]? = some snapshot →
    c.drawnCursor leaf = some position → c.drawnLine leaf position.row.toNat = some line →
    snapshot.viewportTopLine + position.row.toNat = line.number

/-! ## Level steps -/

/-- A terminal fits a pane of `rows` rows: outside of the alternate screen its first line is the
first line of the pane's last screen, and no more than `rows` of its lines are worth showing. A
terminal with as many rows as the pane draws does. -/
structure Fits (snapshot : VisibleSnapshotResponse) (rows : UInt16) : Prop where
  top : snapshot.alternateScreen = false →
    snapshot.viewportTopLine = bottomTopLine (max snapshot.totalLines rows.toNat) rows
  short : significant snapshot.lines ≤ rows.toNat

namespace ClientState

/-- A sync of a node is level: the buffer's terminal fits the rows the pane draws, and a view that is
scrolled back is still within the history and has not lost its lines before. -/
def SyncLevel (c : ClientState) (nodeId : NodeId) : Prop :=
  ∀ (node : NodeRecord) (record : BufferViewRecord) (snapshot : VisibleSnapshotResponse),
    c.nodes[nodeId]? = some node → node.bufferView = some record →
    c.snapshots[record.bufferId]? = some snapshot →
    Fits snapshot (c.drawnRows[nodeId]?.getD record.lastRenderSize.rows) ∧
      ∀ view, c.viewState[nodeId]? = some view → view.followOutput = false →
        snapshot.alternateScreen = false →
        view.scrollTopLine ≤ bottomTopLine
          (max snapshot.totalLines (c.drawnRows[nodeId]?.getD record.lastRenderSize.rows).toNat)
          (c.drawnRows[nodeId]?.getD record.lastRenderSize.rows) ∧
        (view.scrollTopLine = snapshot.viewportTopLine ∨ view.visibleLines ≠ [])

end ClientState

/-- The lines a view is drawn from, given its buffer's snapshot. -/
def BufferViewState.lines (view : BufferViewState) (snapshot : Option VisibleSnapshotResponse) :
    List SnapshotLine :=
  if view.visibleLines = [] then (snapshot.map (·.lines)).getD [] else view.visibleLines

/-- A step keeps rows and lines together. For a new height: the scroll position the view gets is the
one it has, or it draws no line. For going back to the live screen: the terminal fits. For a slice:
it begins where the view then scrolls to, has a line and no more lines than were asked for. -/
def ViewStep.Level (c : ClientState) : ViewStep → Prop
  | .ofNews (.sessionSnapshot snapshot) =>
    ∀ node ∈ snapshot.nodes, (c.replaceSession snapshot).SyncLevel node.id
  | .ofNews (.visibleSnapshot snapshot) =>
    ∀ nodeId ∈ c.viewsOf snapshot.bufferId, (c.recordSnapshot snapshot).SyncLevel nodeId
  | .ofNews _ => True
  | .drawnRows nodeId rows => ∀ view, c.viewState[nodeId]? = some view →
    (view.followOutput → significant (view.lines c.snapshots[view.bufferId]?) ≤ rows.toNat) ∧
      (view.alternateScreen = false →
        if view.followOutput then
          view.lines c.snapshots[view.bufferId]? = [] ∨
            view.scrollTopLine = bottomTopLine (max view.totalLineCount rows.toNat) rows
        else view.scrollTopLine ≤ bottomTopLine (max view.totalLineCount rows.toNat) rows)
  | .followOutput nodeId => ∀ view, c.viewState[nodeId]? = some view →
    view.alternateScreen = false →
    (c.snapshotLines view.bufferId = [] → view.visibleLines = []) ∧
      ∀ snapshot, c.snapshots[view.bufferId]? = some snapshot → snapshot.lines ≠ [] →
        snapshot.viewportTopLine = bottomTopLine view.totalLineCount view.visibleLineCount ∧
        significant snapshot.lines ≤ view.visibleLineCount.toNat
  | .slice nodeId scrollTopLine response => ∀ view, c.viewState[nodeId]? = some view →
    view.alternateScreen = false ∧ response.lines ≠ [] ∧
      response.lines.length ≤ view.visibleLineCount.toNat ∧
      response.startLine = clampTopLine scrollTopLine
        (max response.totalLines view.visibleLineCount.toNat) view.visibleLineCount
  | .overlay _ _ _ => True

/-- The states of the runs whose steps are level. -/
inductive LevelReachable : ClientState → Prop
  | empty : LevelReachable .empty
  | step {c : ClientState} {step : ViewStep} (hc : LevelReachable c) (hsent : step.Sent)
    (hlevel : step.Level c) : LevelReachable (c.viewStep step)

end Embers.Client
