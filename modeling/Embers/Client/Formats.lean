import Embers.Client.Leaves

/-!
# Formats

A small subset of tmux's formats. `FormatContext` has the values for one pane of a session as a client
knows it, and `expandFormat` puts them into a template. A window is numbered by its position among the
session's root tabs, from the base index on, and a pane by its position among the panes that its window
shows.

The walks along nodes follow the links they find and take fuel for it.
-/

namespace Embers

namespace Protocol

/-! ## Programs -/

/-- `Path::file_name`: the last part of a path, unless that is `..`. -/
def fileName (path : List Char) : Option (List Char) :=
  ((path.splitOn '/').filter fun part ↦ part ≠ [] ∧ part ≠ ['.']).getLast?.filter (· ≠ ['.', '.'])

/-- The name of the program a command line runs, without the dash of a login shell. -/
def programName : List String → Option (List Char)
  | [] => none
  | first :: _ =>
    let program := if first.toList.head? = some '-' then first.toList.tail else first.toList
    let name := (fileName program).getD program
    if name = [] then none else some name

namespace BufferRecord

def currentCommand (buffer : BufferRecord) : List String := buffer.foregroundCommand.getD buffer.command

def processName (buffer : BufferRecord) : Option (List Char) := programName buffer.currentCommand

end BufferRecord

end Protocol

namespace Client

open Protocol

/-- The number of the window at a position. -/
def windowNumber (position : ℕ) (baseIndex : Option UInt32) : ℕ := position + (baseIndex.getD 0).toNat

/-! ## Walks -/

/-- The panes shown under a node, following each tabs node's active tab. -/
def visibleLeaves (c : ClientState) : ℕ → NodeId → Answer Unit (List NodeId)
  | 0, _ => .error .diverges
  | fuel + 1, nodeId =>
    match c.nodes[nodeId]? with
    | none => pure []
    | some node =>
      match node.kind with
      | .bufferView => pure [nodeId]
      | .split => Answer.collect (visibleLeaves c fuel) ((node.split.map (·.childIds)).getD [])
      | .tabs =>
        match node.tabs.bind fun tabs ↦ tabs.tabs[tabs.active.toNat]? with
        | some tab => visibleLeaves c fuel tab.childId
        | none => pure []

/-- The position of the tab that holds a node, the node itself or one that it is below. -/
def tabHolding (c : ClientState) (tabs : TabsRecord) : ℕ → NodeId → Answer Unit (Option ℕ)
  | 0, _ => .error .diverges
  | fuel + 1, current =>
    match tabs.tabs.findIdx? (·.childId = current) with
    | some position => pure (some position)
    | none =>
      match c.nodes[current]?.bind (·.parentId) with
      | some parentId => tabHolding c tabs fuel parentId
      | none => pure none

def rootTabPosition (c : ClientState) (fuel : ℕ) (rootId nodeId : NodeId) : Answer Unit (Option ℕ) :=
  match c.nodes[rootId]?.bind (·.tabs) with
  | some tabs => tabHolding c tabs fuel nodeId
  | none => pure none

/-! ## Contexts -/

/-- The values format variables expand to, for one pane. -/
structure FormatContext where
  sessionName : List Char
  windowIndex : ℕ
  windowName : List Char
  paneId : Option NodeId
  paneTitle : List Char
  paneCurrentPath : List Char
  paneCurrentCommand : List Char
  paneHost : List Char
  sessionId : Option SessionId
  /-- The node a window shows: its root tab's child. -/
  windowId : Option NodeId
  windowActive : Bool
  windowPanes : ℕ
  sessionWindows : ℕ
  bufferId : Option BufferId
  paneIndex : Option ℕ
  paneActive : Bool
  panePid : Option UInt32
  paneWidth : UInt16
  paneHeight : UInt16
  paneDead : Bool
  paneDeadStatus : Option Int32
  userOptions : Table String String
  /-- More variables by name, which stand after the others. -/
  extra : Table String String

namespace FormatContext

/-- The position and the name of the window of a pane, or of the active window. -/
def windowOf (c : ClientState) (fuel : ℕ) (session : SessionRecord) (paneId : Option NodeId) :
    Answer Unit (ℕ × List Char) :=
  match c.nodes[session.rootNodeId]?.bind fun root ↦ if root.kind = .tabs then root.tabs else none with
  | none => pure (0, [])
  | some tabs => do
    let held ←
      match paneId with
      | some paneId => rootTabPosition c fuel session.rootNodeId paneId
      | none => pure none
    let position := held.getD tabs.active.toNat
    pure (position, (tabs.tabs[position]?.map (·.title.toList)).getD [])

/-- The context of a pane of a session, or of its focused pane, if the session is known. -/
def fromState (c : ClientState) (fuel : ℕ) (sessionId : SessionId) (pane : Option NodeId)
    (baseIndex : Option UInt32) : Answer Unit FormatContext := do
  let session ← Answer.ofOption () c.sessions[sessionId]?
  let paneId := pane.or session.focusedLeafId
  let buffer := ((paneId.bind (c.nodes[·]?)).bind (·.bufferView)).bind fun view ↦ c.buffers[view.bufferId]?
  let window ← windowOf c fuel session paneId
  let rootTabs := c.nodes[session.rootNodeId]?.bind (·.tabs)
  let windowId := (rootTabs.bind (·.tabs[window.1]?)).map (·.childId)
  let windowLeaves ←
    match windowId with
    | some windowId => visibleLeaves c fuel windowId
    | none => pure []
  pure {
    sessionName := session.name.toList
    windowIndex := windowNumber window.1 baseIndex
    windowName := window.2
    paneId
    paneTitle := (buffer.map (·.title.toList)).getD []
    paneCurrentPath := ((buffer.bind (·.cwd)).map (·.toList)).getD []
    paneCurrentCommand := (buffer.bind (·.processName)).getD []
    paneHost := ((buffer.bind (·.host)).map (·.toList)).getD []
    sessionId := some sessionId
    windowId
    windowActive := rootTabs.any (·.active.toNat = window.1)
    windowPanes := windowLeaves.length
    sessionWindows := (rootTabs.map (·.tabs.length)).getD 0
    bufferId := buffer.map (·.id)
    paneIndex := paneId.bind fun paneId ↦ windowLeaves.idxOf? paneId
    paneActive := paneId.isSome && paneId = session.focusedLeafId
    panePid := buffer.bind (·.pid)
    paneWidth := (buffer.map (·.ptySize.cols)).getD 0
    paneHeight := (buffer.map (·.ptySize.rows)).getD 0
    paneDead := buffer.any (·.state = .exited)
    paneDeadStatus := buffer.bind (·.exitCode)
    userOptions := (buffer.map (·.userOptions)).getD ∅
    extra := ∅ }

/-! ## Variables -/

def flag (value : Bool) : List Char := if value then ['1'] else ['0']

/-- An id after a sigil, or nothing. -/
def idText {κ : IdKind} (sigil : List Char) (id : Option (EntityId κ)) : List Char :=
  (id.map fun id ↦ sigil ++ decimal id.raw.toNat).getD []

/-- The number with its sign. -/
def signed (n : ℤ) : List Char := if n < 0 then '-' :: decimal n.natAbs else decimal n.natAbs

/-- The value of a variable, if it is one. -/
def lookup (context : FormatContext) (name : String) : Option (List Char) :=
  if name.toList.head? = some '@' then
    some ((context.userOptions[String.ofList name.toList.tail]?.map (·.toList)).getD [])
  else match name with
    | "session_name" => some context.sessionName
    | "window_index" => some (decimal context.windowIndex)
    | "window_name" => some context.windowName
    | "pane_id" => some (idText ['%'] context.bufferId)
    | "node_id" => some (idText [] context.paneId)
    | "pane_title" => some context.paneTitle
    | "pane_current_path" => some context.paneCurrentPath
    | "pane_current_command" => some context.paneCurrentCommand
    | "pane_host" => some context.paneHost
    | "session_id" => some (idText ['$'] context.sessionId)
    | "window_id" => some (idText ['@'] context.windowId)
    | "window_active" => some (flag context.windowActive)
    | "window_panes" => some (decimal context.windowPanes)
    | "session_windows" => some (decimal context.sessionWindows)
    | "buffer_id" => some (idText [] context.bufferId)
    | "pane_index" => some ((context.paneIndex.map decimal).getD [])
    | "pane_active" => some (flag context.paneActive)
    | "pane_pid" => some ((context.panePid.map fun pid ↦ decimal pid.toNat).getD [])
    | "pane_width" => some (decimal context.paneWidth.toNat)
    | "pane_height" => some (decimal context.paneHeight.toNat)
    | "pane_dead" => some (flag context.paneDead)
    | "pane_dead_status" => some ((context.paneDeadStatus.map fun status ↦ signed status.toInt).getD [])
    | _ => context.extra[name]?.map (·.toList)

end FormatContext

/-! ## Templates -/

def shortAlias : Char → Option String
  | 'S' => some "session_name"
  | 'I' => some "window_index"
  | 'W' => some "window_name"
  | 'D' => some "pane_id"
  | 'T' => some "pane_title"
  | _ => none

mutual

/-- Put the values of the context in the place of the variables. A variable that does not exist leaves
nothing, and any other `#` stays. -/
def expandFormat (context : FormatContext) : List Char → List Char
  | [] => []
  | ['#'] => ['#']
  | '#' :: '#' :: rest => '#' :: expandFormat context rest
  | '#' :: '\x7b' :: rest => expandName context [] rest
  | '#' :: short :: rest =>
    match shortAlias short with
    | some name => (context.lookup name).getD [] ++ expandFormat context rest
    | none => '#' :: expandFormat context (short :: rest)
  | c :: rest => c :: expandFormat context rest

/-- The rest of a template after an opening brace and a part of the name. -/
def expandName (context : FormatContext) (name : List Char) : List Char → List Char
  | [] => '#' :: '\x7b' :: name
  | '\x7d' :: rest => (context.lookup (String.ofList name)).getD [] ++ expandFormat context rest
  | c :: rest => expandName context (name ++ [c]) rest

end

example (context : FormatContext) : expandFormat context "100## #x #".toList = "100# #x #".toList := rfl

end Client

end Embers
