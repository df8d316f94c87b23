import Embers.Client.Keys
import Embers.Lib.Table
import Embers.Core.Ids

/-!
# Prompts, the picker and hints over the panes

Over the panes the client can show a command prompt, a `confirm-before` question, a search prompt,
the picker of sessions, windows and panes, and labels on a pane's text (hints). Each has a field that
says it is shown, and one mode string decides who reads the keys. Actions, handlers and server events
change the fields and the mode in combinations of their own.

A `ClientStep` is one of them, with what it reads from elsewhere (the focused pane, a hook's outcome,
an answer of the server) as its arguments. What an action does besides, such as running the command
line of a prompt, is a step of its own.
-/

namespace Embers

def normalMode : String := "normal"
def copyMode : String := "copy"
def searchMode : String := "search"
def selectMode : String := "select"
def hintsMode : String := "hints"
def promptMode : String := "prompt"
def treeMode : String := "tree"

/-- Where a prompt or question returns to: the mode it was opened in, unless that reads keys itself,
with the picker's as the exception. -/
abbrev PromptReturn : Type := { mode : String // mode ∉ [searchMode, hintsMode, promptMode] }

/-- Where the picker returns to. -/
abbrev ChooserReturn : Type :=
  { mode : String // mode ∉ [searchMode, hintsMode, promptMode, treeMode] }

/-- Where a search returns to. -/
abbrev SearchReturn : Type := { mode : String // mode ∈ [normalMode, copyMode, selectMode] }

structure SearchPrompt where
  nodeId : NodeId
  query : List Char
  backward : Bool
  returnMode : SearchReturn

/-- A command prompt, its line being of some type `π`. -/
structure CommandPrompt (π : Type) where
  line : π
  returnMode : PromptReturn

/-- A `confirm-before` question. What runs if it is answered is a matter of the steps that follow. -/
structure PendingConfirm where
  prompt : String
  returnMode : PromptReturn

inductive ChooserItem where
  | session (sessionId : SessionId)
  | window (sessionId : SessionId) (nodeId : NodeId)
  | pane (sessionId : SessionId) (nodeId : NodeId)
  deriving DecidableEq, Repr

/-- The picker, as far as keys go that do not move its selection. -/
structure Chooser where
  editingFilter : Bool
  filter : List Char
  confirmKill : Option ChooserItem
  returnMode : ChooserReturn

structure HintsState where
  labels : List (List Char)
  typed : List Char
  onSelect : Option String

/-- How the line of a command prompt is edited, and how bytes are read as text. -/
structure LineEditing (π : Type) where
  /-- The line after a key that vi keys take. -/
  viKey : π → KeyEvent → Option π
  edit : π → KeyEvent → π
  lossy : List UInt8 → List Char

/-- The fields that say what is shown over the panes, and what decides where keys go. -/
structure Overlays (π : Type) where
  mode : String
  /-- The modes the configuration has. -/
  modes : List String
  searchPrompt : Option SearchPrompt
  commandPrompt : Option (CommandPrompt π)
  confirm : Option PendingConfirm
  chooser : Option Chooser
  hintsNode : Option NodeId
  /-- The views there are, with the hints over each. -/
  views : Table NodeId (Option HintsState)
  activeSession : Option SessionId

/-- Who reads a key. -/
inductive KeyReader where
  | question
  | prompt
  | chooser
  | search
  | hints
  /-- Bindings, and the pane's program if none takes it. -/
  | bindings
  deriving DecidableEq, Repr

namespace Overlays

variable {π : Type} (s : Overlays π)

def setMode (mode : String) : Overlays π := { s with mode }

def hintsAt (nodeId : NodeId) : Option HintsState := s.views[nodeId]?.join

def setHints (nodeId : NodeId) (hints : Option HintsState) : Overlays π :=
  { s with views := s.views.modify nodeId fun _ ↦ hints }

def inCopyMode : Bool := s.mode = copyMode ∨ s.mode = selectMode

/-- Who reads a key, by the mode. -/
def reader : KeyReader :=
  if s.mode = promptMode then if s.confirm.isSome then .question else .prompt
  else if s.mode = treeMode then .chooser
  else if s.mode = searchMode then .search
  else if s.mode = hintsMode then .hints
  else .bindings

/-! ## Hints -/

/-- Hints are dropped with the mode, whatever is open by now. -/
def cancelActiveHints : Overlays π :=
  match s.hintsNode with
  | none => s
  | some nodeId => { s with hintsNode := none }.setHints nodeId none |>.setMode normalMode

def cancelHints (nodeId : NodeId) : Overlays π :=
  { s.setHints nodeId none with hintsNode := none }.setMode normalMode

/-- Labels on the text of the focused view, if it has any and is not a full-screen program's. -/
def enterHintsMode (leaf : Option NodeId) (alternate : Bool) (labels : List (List Char))
    (onSelect : Option String) : Overlays π :=
  match leaf with
  | none => s
  | some nodeId =>
    if alternate ∨ labels = [] ∨ nodeId ∉ s.views then s
    else { s.setHints nodeId (some ⟨labels, [], onSelect⟩) with hintsNode := some nodeId }.setMode
      hintsMode

/-- A character of a label: the last one selects it, and one no label continues with is ignored. -/
def hintsTypeChar (nodeId : NodeId) (hints : HintsState) (ch : Char) : Overlays π :=
  let typed := hints.typed ++ [ch]
  if ¬hints.labels.any typed.isPrefixOf then s
  else if typed ∈ hints.labels then s.cancelHints nodeId
  else s.setHints nodeId (some { hints with typed })

def handleHintsKey (key : KeyEvent) : Overlays π :=
  match s.hintsNode with
  | none => s.setMode normalMode
  | some nodeId =>
    match s.hintsAt nodeId with
    | none => s.cancelHints nodeId
    | some hints =>
      match key with
      | .escape => s.cancelHints nodeId
      | .backspace => s.setHints nodeId (some { hints with typed := hints.typed.dropLast })
      | .ctrl ch =>
        if ch = 'h' then s.setHints nodeId (some { hints with typed := hints.typed.dropLast })
        else s
      | .char ch => s.hintsTypeChar nodeId hints ch
      | _ => s

/-! ## Prompts -/

/-- The mode a prompt opened now returns to. -/
def promptReturn : PromptReturn :=
  if h : s.mode ∈ [searchMode, hintsMode, promptMode] then ⟨normalMode, by decide⟩ else ⟨s.mode, h⟩

def openCommandPrompt (line : π) : Overlays π :=
  { s with
    searchPrompt := none
    commandPrompt := some ⟨line, s.promptReturn⟩ }.setMode promptMode

def openConfirm (prompt : String) : Overlays π :=
  { s with
    searchPrompt := none
    commandPrompt := none
    confirm := some ⟨prompt, s.promptReturn⟩ }.setMode promptMode

/-- Any key answers a question. -/
def answerConfirm (confirm : PendingConfirm) : Overlays π :=
  { s with confirm := none }.setMode confirm.returnMode

/-- The prompt is closed; its command runs after. -/
def closeCommandPrompt (prompt : CommandPrompt π) : Overlays π :=
  { s with commandPrompt := none }.setMode prompt.returnMode

/-- Whether a key that vi keys do not take closes a prompt. -/
def closesPrompt (key : KeyEvent) : Bool :=
  key ∈ [.enter, .escape, .ctrl 'c', .ctrl 'g']

def handlePromptKey (editing : LineEditing π) (key : KeyEvent) : Overlays π :=
  match s.commandPrompt with
  | none => s.setMode normalMode
  | some prompt =>
    match editing.viKey prompt.line key with
    | some line => { s with commandPrompt := some { prompt with line } }
    | none =>
      if closesPrompt key then s.closeCommandPrompt prompt
      else { s with commandPrompt := some { prompt with line := editing.edit prompt.line key } }

/-! ## The picker -/

/-- The mode a picker opened now returns to. -/
def chooserReturn : ChooserReturn :=
  if h : s.mode ∈ [searchMode, hintsMode, promptMode, treeMode] then ⟨normalMode, by decide⟩
  else ⟨s.mode, h⟩

def openChooser : Overlays π :=
  { s with
    searchPrompt := none
    commandPrompt := none
    confirm := none
    chooser := some ⟨false, [], none, s.chooserReturn⟩ }.setMode treeMode

def closeChooser : Overlays π :=
  match s.chooser with
  | none => s.setMode normalMode
  | some chooser => { s with chooser := none }.setMode chooser.returnMode

/-- A key while the filter is edited. -/
def editFilter (editing : LineEditing π) (chooser : Chooser) (key : KeyEvent) : Chooser :=
  match key with
  | .char ch => { chooser with filter := chooser.filter ++ [ch] }
  | .bytes bytes => { chooser with filter := chooser.filter ++ editing.lossy bytes }
  | .backspace | .ctrl 'h' =>
    if chooser.filter = [] then { chooser with editingFilter := false }
    else { chooser with filter := chooser.filter.dropLast }
  | .ctrl 'u' => { chooser with filter := [] }
  | .escape => { chooser with filter := [], editingFilter := false }
  | .enter | .tab => { chooser with editingFilter := false }
  | _ => chooser

/-- Keys that move the selection, or open and close what it is on. -/
def movesSelection (key : KeyEvent) : Bool :=
  key ∈ [.char 'j', .down, .ctrl 'n', .char 'k', .up, .ctrl 'p', .pageDown, .ctrl 'd', .pageUp,
    .ctrl 'u', .char 'g', .home, .char 'G', .end, .char 'l', .char '+', .right, .char 'h',
    .char '-', .left]

/-- A key in the picker, on the item `target`. -/
def handleChooserKey (editing : LineEditing π) (key : KeyEvent) (target : Option ChooserItem)
    (targetExists : Bool) : Overlays π :=
  match s.chooser with
  | none => s.setMode normalMode
  | some chooser =>
    if chooser.confirmKill.isSome then { s with chooser := some { chooser with confirmKill := none } }
    else if chooser.editingFilter then { s with chooser := some (editFilter editing chooser key) }
    else if movesSelection key then s
    else if key = .char '/' then { s with chooser := some { chooser with editingFilter := true } }
    else if key = .char 'x' then
      if target.isSome ∧ ¬targetExists then s
      else { s with chooser := some { chooser with confirmKill := target } }
    else if key = .escape ∧ chooser.filter ≠ [] then
      { s with chooser := some { chooser with filter := [] } }
    else if key ∈ [.char 'q', .escape, .ctrl 'c', .enter] then s.closeChooser
    else
      match key with
      | .char ch =>
        if ch.toNat < 0x20 ∨ (0x7f ≤ ch.toNat ∧ ch.toNat < 0xa0) then s
        else { s with
          chooser := some { chooser with editingFilter := true, filter := chooser.filter ++ [ch] } }
      | _ => s

/-- Whether a command line opens the picker. -/
def opensChooser (argv : List String) : Bool :=
  argv.head? ∈ [some "choose-tree", some "choose-window", some "choose-session"]

def runCommandLine (argv : List String) : Overlays π :=
  if opensChooser argv then s.openChooser else s

/-! ## Search -/

def enterSearchMode (leaf : Option NodeId) (alternate backward : Bool) : Overlays π :=
  match leaf with
  | none => s
  | some nodeId =>
    if alternate then s
    else
      let returnMode : SearchReturn :=
        if h : s.mode = copyMode ∨ s.mode = selectMode then ⟨s.mode, by simp [h]⟩
        else ⟨normalMode, by decide⟩
      { s with searchPrompt := some ⟨nodeId, [], backward, returnMode⟩ }.setMode searchMode

def cancelSearchPrompt : Overlays π :=
  match s.searchPrompt with
  | none => s.setMode normalMode
  | some prompt => { s with searchPrompt := none }.setMode prompt.returnMode

/-- The search runs after. -/
def commitSearchPrompt : Overlays π :=
  match s.searchPrompt with
  | none => s.cancelSearchPrompt
  | some prompt => { s with searchPrompt := none }.setMode prompt.returnMode

def editQuery (prompt : SearchPrompt) (query : List Char) : Overlays π :=
  { s with searchPrompt := some { prompt with query } }

def handleSearchKey (editing : LineEditing π) (key : KeyEvent) (leaf : Option NodeId)
    (alternate : Bool) : Overlays π :=
  match s.searchPrompt with
  | none => s.enterSearchMode leaf alternate false
  | some prompt =>
    match key with
    | .char ch => s.editQuery prompt (prompt.query ++ [ch])
    | .tab => s.editQuery prompt (prompt.query ++ ['\t'])
    | .backspace => s.editQuery prompt prompt.query.dropLast
    | .ctrl ch => if ch = 'h' then s.editQuery prompt prompt.query.dropLast else s
    | .enter => s.commitSearchPrompt
    | .escape => s.cancelSearchPrompt
    | .bytes bytes => s.editQuery prompt (prompt.query ++ editing.lossy bytes)
    | _ => s

/-! ## Modes -/

/-- A mode a script asks for, with the outcomes of its hooks. -/
def transitionMode (mode : String) (leaveHook enterHook : Bool) : Overlays π :=
  if mode ∉ s.modes then s
  else if s.mode = mode then s
  else if ¬leaveHook then s
  else if ¬enterHook then (s.setMode mode).setMode s.mode
  else s.setMode mode

def toggledMode (mode : String) : String := if s.mode = mode then normalMode else mode

/-- Copy mode, unless the view does not support it. -/
def enterCopyInputMode (supported : Bool) : Overlays π :=
  if supported ∧ ¬s.inCopyMode then s.setMode copyMode else s

def exitCopyMode : Overlays π := if s.inCopyMode then s.setMode normalMode else s

/-- A selection is over; the view is in copy mode or not. -/
def cancelSelection (hasCursor : Bool) : Overlays π :=
  s.setMode (if hasCursor then copyMode else normalMode)

/-- `active` says of an active selection whether it is of the same kind. -/
def enterSelectMode (active : Option Bool) (supported hasCursor : Bool) : Overlays π :=
  match active with
  | some true => s.cancelSelection hasCursor
  | some false => s
  | none => if supported then s.setMode selectMode else s

def enterCopyModeByScrolling (canScroll supported : Bool) : Overlays π :=
  if s.mode ≠ normalMode ∨ ¬canScroll then s else s.enterCopyInputMode supported

/-- Scrolling down to the end leaves copy mode if scrolling entered it. -/
def leaveCopyModeByScrolling (backAtBottom : Bool) : Overlays π :=
  if s.mode = copyMode ∧ backAtBottom then s.exitCopyMode else s

/-! ## Events -/

def setActiveSession (sessionId : SessionId) : Overlays π :=
  if s.activeSession = some sessionId then s
  else { s.cancelActiveHints with activeSession := some sessionId }

def clearActiveSession : Overlays π :=
  match s.activeSession with
  | none => s
  | some _ => { s with activeSession := none }.cancelActiveHints

/-- `target` is where `detach-on-destroy` moves to. -/
def leaveDestroyedSession (target : Option SessionId) : Overlays π :=
  match s.activeSession with
  | none => s
  | some _ => { { s with activeSession := none }.cancelActiveHints with activeSession := target }

def focusChanged (sessionId : SessionId) (focusedLeaf : Option NodeId) : Overlays π :=
  if s.activeSession = some sessionId ∧ s.hintsNode.isSome ∧ focusedLeaf ≠ s.hintsNode then
    s.cancelActiveHints
  else s

/-- Everything is closed when the mode is gone. -/
def finishConfigReload (modes : List String) : Overlays π :=
  if s.mode ∈ modes then { s with modes }
  else
    let s := { s with
      modes
      searchPrompt := none
      commandPrompt := none
      confirm := none
      chooser := none }.setMode normalMode
    match s.hintsNode with
    | none => s
    | some nodeId => { s with hintsNode := none }.setHints nodeId none

/-- Views that are gone, views that are new, and views whose content changed. -/
def syncViews (gone added changed : List NodeId) : Overlays π :=
  let kept := s.views.filter fun nodeId _ ↦ nodeId ∉ gone
  let reset := changed.foldl (fun views nodeId ↦ views.modify nodeId fun _ ↦ none) kept
  { s with views := added.foldl (fun views nodeId ↦ views.insert nodeId none) reset }

/-- A key, read by whoever the mode says. -/
def handleKey (editing : LineEditing π) (key : KeyEvent) (leaf : Option NodeId) (alternate : Bool)
    (target : Option ChooserItem) (targetExists : Bool) : Overlays π :=
  if s.mode = promptMode then
    match s.confirm with
    | some confirm => s.answerConfirm confirm
    | none => s.handlePromptKey editing key
  else if s.mode = treeMode then s.handleChooserKey editing key target targetExists
  else if s.mode = searchMode then s.handleSearchKey editing key leaf alternate
  else if s.mode = hintsMode then s.handleHintsKey key
  else s

/-- Pasted text goes where keys go. -/
def handlePaste (editing : LineEditing π) (insert : π → List Char → π) (bytes : List UInt8) :
    Overlays π :=
  if s.mode = promptMode then
    match s.commandPrompt with
    | some prompt =>
      { s with
        commandPrompt := some { prompt with line := insert prompt.line (editing.lossy bytes) } }
    | none => s
  else if s.mode = treeMode then
    match s.chooser with
    | some chooser =>
      if chooser.editingFilter then
        { s with
          chooser := some { chooser with filter := chooser.filter ++ editing.lossy bytes } }
      else s
    | none => s
  else if s.mode = searchMode then
    match s.searchPrompt with
    | some prompt => s.editQuery prompt (prompt.query ++ editing.lossy bytes)
    | none => s.cancelSearchPrompt
  else s

end Overlays

/-! ## Steps -/

/-- One change of what is shown or of the mode. -/
inductive ClientStep (π : Type) where
  | key (key : KeyEvent) (leaf : Option NodeId) (alternate : Bool) (target : Option ChooserItem)
      (targetExists : Bool)
  | paste (insert : π → List Char → π) (bytes : List UInt8)
  | enterMode (mode : String) (leaveHook enterHook : Bool)
  | leaveMode (leaveHook enterHook : Bool)
  | toggleMode (mode : String) (leaveHook enterHook : Bool)
  | commandPrompt (line : π)
  | confirm (prompt : String)
  | chooseTree
  | runCommand (argv : List String)
  | enterHints (leaf : Option NodeId) (alternate : Bool) (labels : List (List Char))
      (onSelect : Option String)
  | enterSearch (leaf : Option NodeId) (alternate backward : Bool)
  | commitSearch
  | cancelSearch
  | enterCopyMode (supported : Bool)
  | copyMotion (supported : Bool)
  | copyJump (supported : Bool)
  | exitCopyMode
  | copySelection
  | enterSelect (active : Option Bool) (supported hasCursor : Bool)
  | cancelSelection (hasCursor : Bool)
  | scrollBack (canScroll supported : Bool)
  | scrollDown (backAtBottom : Bool)
  /-- The wheel over a view. -/
  | wheel (nodeId : NodeId)
  /-- A click that moves the focus. -/
  | clickElsewhere
  /-- The first motion of a drag. -/
  | drag (supported : Bool)
  | activate (sessionId : SessionId)
  | deactivate
  | sessionDestroyed (target : Option SessionId)
  | focusChanged (sessionId : SessionId) (focusedLeaf : Option NodeId)
  | reload (modes : List String)
  | syncViews (gone added changed : List NodeId)

namespace Overlays

variable {π : Type}

def step (editing : LineEditing π) (s : Overlays π) : ClientStep π → Overlays π
  | .key key leaf alternate target targetExists =>
    s.handleKey editing (normalizeTextKey key) leaf alternate target targetExists
  | .paste insert bytes => s.handlePaste editing insert bytes
  | .enterMode mode leaveHook enterHook => s.transitionMode mode leaveHook enterHook
  | .leaveMode leaveHook enterHook => s.transitionMode normalMode leaveHook enterHook
  | .toggleMode mode leaveHook enterHook =>
    s.transitionMode (s.toggledMode mode) leaveHook enterHook
  | .commandPrompt line => s.openCommandPrompt line
  | .confirm prompt => s.openConfirm prompt
  | .chooseTree => s.openChooser
  | .runCommand argv => s.runCommandLine argv
  | .enterHints leaf alternate labels onSelect => s.enterHintsMode leaf alternate labels onSelect
  | .enterSearch leaf alternate backward => s.enterSearchMode leaf alternate backward
  | .commitSearch => s.commitSearchPrompt
  | .cancelSearch => s.cancelSearchPrompt
  | .enterCopyMode supported => s.enterCopyInputMode supported
  | .copyMotion supported => s.enterCopyInputMode supported
  | .copyJump supported => s.enterCopyInputMode supported
  | .exitCopyMode => s.exitCopyMode
  | .copySelection => s.exitCopyMode
  | .enterSelect active supported hasCursor => s.enterSelectMode active supported hasCursor
  | .cancelSelection hasCursor => s.cancelSelection hasCursor
  | .scrollBack canScroll supported => s.enterCopyModeByScrolling canScroll supported
  | .scrollDown backAtBottom => s.leaveCopyModeByScrolling backAtBottom
  | .wheel nodeId => if s.hintsNode = some nodeId then s.cancelActiveHints else s
  | .clickElsewhere => s.cancelActiveHints
  | .drag supported => if supported then s.setMode selectMode else s
  | .activate sessionId => s.setActiveSession sessionId
  | .deactivate => s.clearActiveSession
  | .sessionDestroyed target => s.leaveDestroyedSession target
  | .focusChanged sessionId focusedLeaf => s.focusChanged sessionId focusedLeaf
  | .reload modes => s.finishConfigReload modes
  | .syncViews gone added changed => s.syncViews gone added changed

/-- The state a client starts in. -/
def new (modes : List String) : Overlays π :=
  ⟨normalMode, modes, none, none, none, none, none, ∅, none⟩

end Overlays

end Embers
