import Embers.Core.Ids

/-!
# The server's data model

Sessions, buffers, layout nodes and floating windows, as the server keeps them. An entity's id is
its key in the table that holds it; the source repeats it inside the record, so here it is left
to the table and a record cannot disagree with its key.

A layout is a forest of nodes linked both ways: a container lists its children and every node
names its parent. Nothing in these types keeps the two directions consistent.
-/

namespace Embers

/-! ## Geometry and time -/

structure PtySize where
  cols : UInt16
  rows : UInt16
  pixelWidth : UInt16
  pixelHeight : UInt16
  deriving DecidableEq, Repr

/-- A size in cells whose pixel size is unknown. -/
def PtySize.new (cols rows : UInt16) : PtySize := ⟨cols, rows, 0, 0⟩

structure Size where
  width : UInt16
  height : UInt16
  deriving DecidableEq, Repr

structure FloatGeometry where
  x : UInt16
  y : UInt16
  width : UInt16
  height : UInt16
  deriving DecidableEq, Repr

inductive SplitDirection where
  | horizontal
  | vertical
  deriving DecidableEq, Repr

/-- A point in system time, in nanoseconds from the Unix epoch. -/
structure Timestamp where
  nanos : ℤ
  deriving DecidableEq, Repr

/-- The errors of the server and its clients, each with its message. -/
inductive MuxError where
  | protocol (message : String)
  | invalidInput (message : String)
  | notFound (message : String)
  | conflict (message : String)
  | internal (message : String)
  deriving DecidableEq, Repr

instance : ToString MuxError where
  toString
    | .protocol message => s!"protocol error: {message}"
    | .invalidInput message => s!"invalid input: {message}"
    | .notFound message => s!"not found: {message}"
    | .conflict message => s!"conflict: {message}"
    | .internal message => s!"internal error: {message}"

/-! ## Text -/

/-- The code points with the Unicode `White_Space` property. -/
def isWhitespace (c : Char) : Bool :=
  (0x9 ≤ c.toNat && c.toNat ≤ 0xD) || (0x2000 ≤ c.toNat && c.toNat ≤ 0x200A)
    || [0x20, 0x85, 0xA0, 0x1680, 0x2028, 0x2029, 0x202F, 0x205F, 0x3000].contains c.toNat

/-- Unicode's `Cc`. -/
def isControl (ch : Char) : Bool :=
  ch.toNat < 0x20 ∨ (0x7f ≤ ch.toNat ∧ ch.toNat < 0xa0)

/-- `str::trim`, on the characters of the text. -/
def trim (text : List Char) : List Char :=
  ((text.dropWhile isWhitespace).reverse.dropWhile isWhitespace).reverse

/-! ## Sessions -/

structure Session where
  name : String
  rootNode : NodeId
  floating : List FloatingId
  focusedLeaf : Option NodeId
  focusedFloating : Option FloatingId
  zoomedNode : Option NodeId
  /-- The area an attached client last drew the session in. -/
  viewport : Option Size
  paneTitles : Bool
  baseIndex : Option UInt32
  /-- Panes focused before the current one, oldest first. Kept in memory only. -/
  focusHistory : List NodeId
  createdAt : Timestamp
  deriving DecidableEq, Repr

/-! ## Buffers -/

inductive HelperBufferScope where
  | full
  | visible
  deriving DecidableEq, Repr

structure HelperBuffer where
  sourceBufferId : BufferId
  scope : HelperBufferScope
  lines : List String
  deriving DecidableEq, Repr

inductive BufferKind where
  | pty
  | helper (helper : HelperBuffer)
  deriving DecidableEq, Repr

inductive BufferPipeStopReason where
  | requested
  | pipeExited
  | writeFailed
  | bufferExited
  | runtimeInterrupted
  deriving DecidableEq, Repr

inductive BufferPipeState where
  | running (pid : Option UInt32)
  | stopped (exitCode : Option Int32) (reason : BufferPipeStopReason)
  deriving DecidableEq, Repr

structure BufferPipe where
  command : List String
  state : BufferPipeState
  deriving DecidableEq, Repr

inductive ActivityState where
  | idle
  | activity
  | bell
  deriving DecidableEq, Repr

/-- Where a buffer's program runs. -/
inductive Placement where
  | local (socketPath : Option String)
  | remote (host : String) (bufferId : Option BufferId)
  deriving DecidableEq, Repr

inductive BufferState where
  | created
  | running (pid : Option UInt32)
  | interrupted (lastKnownPid : Option UInt32)
  | exited (exitCode : Option Int32) (exitedAt : Timestamp)
  deriving DecidableEq, Repr

inductive BufferAttachment where
  | attached (node : NodeId)
  | detached
  deriving DecidableEq, Repr

structure Buffer where
  title : String
  command : List String
  cwd : Option String
  env : Table String String
  userOptions : Table String String
  foregroundCommand : Option (List String)
  placement : Placement
  state : BufferState
  attachment : BufferAttachment
  ptySize : PtySize
  activity : ActivityState
  lastSnapshotSeq : UInt64
  kind : BufferKind
  pipe : Option BufferPipe
  createdAt : Timestamp
  /-- Whether the buffer has been shown in a view since it was created. -/
  everAttached : Bool
  /-- The bell count of the buffer's runtime as last applied. -/
  runtimeBellSequence : UInt64
  /-- Whether some connection watches the buffer. -/
  watched : Bool
  deriving DecidableEq

/-- A `remain-on-exit` setting: whether an exited buffer stays in its view. -/
inductive RemainOnExit where
  | off
  | on
  /-- Stay only when the command did not exit with status 0. -/
  | failed
  deriving DecidableEq, Repr

/-- Parse an option value: `on` and `failed`, anything else is off. -/
def RemainOnExit.parse (value : String) : RemainOnExit :=
  match (trim value.toList).map Char.toLower with
  | ['o', 'n'] => .on
  | ['f', 'a', 'i', 'l', 'e', 'd'] => .failed
  | _ => .off

/-- The buffer option that overrides the server-wide `remain-on-exit`. -/
def remainOnExitOption : String := "remain-on-exit"

namespace Buffer

def new (title : String) (command : List String) (cwd : Option String)
    (env : Table String String) (now : Timestamp) : Buffer where
  title := title
  command := command
  cwd := cwd
  env := env
  userOptions := ∅
  foregroundCommand := none
  placement := .local none
  state := .created
  attachment := .detached
  ptySize := PtySize.new 80 24
  activity := .idle
  lastSnapshotSeq := 0
  kind := .pty
  pipe := none
  createdAt := now
  everAttached := false
  runtimeBellSequence := 0
  watched := false

/-- Whether the buffer stays in its view after its command exits: its own option, or `default`
when that is not set. -/
def remainsOnExit (buffer : Buffer) (default : RemainOnExit) : Bool :=
  match buffer.userOptions[remainOnExitOption]?.elim default RemainOnExit.parse with
  | .on => true
  | .failed =>
    match buffer.state with
    | .exited exitCode _ => exitCode != some 0
    | _ => true
  | .off => false

end Buffer

/-! ## Layout nodes -/

structure BufferViewState where
  focused : Bool
  zoomed : Bool
  followOutput : Bool
  lastRenderSize : PtySize
  deriving DecidableEq, Repr

structure BufferViewNode where
  sessionId : SessionId
  parent : Option NodeId
  bufferId : BufferId
  view : BufferViewState
  deriving DecidableEq, Repr

structure SplitNode where
  sessionId : SessionId
  parent : Option NodeId
  direction : SplitDirection
  children : List NodeId
  sizes : List UInt16
  lastFocusedDescendant : Option NodeId
  deriving DecidableEq, Repr

structure TabEntry where
  title : String
  child : NodeId
  /-- tmux `synchronize-panes` for the window the tab holds. -/
  synchronizePanes : Bool
  deriving DecidableEq, Repr

def TabEntry.new (title : String) (child : NodeId) : TabEntry := ⟨title, child, false⟩

structure TabsNode where
  sessionId : SessionId
  parent : Option NodeId
  tabs : List TabEntry
  active : ℕ
  lastFocusedDescendant : Option NodeId
  deriving DecidableEq, Repr

inductive Node where
  | bufferView (view : BufferViewNode)
  | split (split : SplitNode)
  | tabs (tabs : TabsNode)
  deriving DecidableEq, Repr

/-- The children of a tabs node, in tab order. -/
def TabsNode.children (tabs : TabsNode) : List NodeId := tabs.tabs.map TabEntry.child

/-- The child the active index selects, when it is in range. -/
def TabsNode.activeChild (tabs : TabsNode) : Option NodeId := tabs.tabs[tabs.active]?.map TabEntry.child

/-- The child a walk through the active tab enters: the first one when the index is out of
range. -/
def TabsNode.shownChild (tabs : TabsNode) : Option NodeId :=
  (tabs.tabs[tabs.active]?.or tabs.tabs.head?).map TabEntry.child

namespace Node

def sessionId : Node → SessionId
  | .bufferView node => node.sessionId
  | .split node => node.sessionId
  | .tabs node => node.sessionId

def parent : Node → Option NodeId
  | .bufferView node => node.parent
  | .split node => node.parent
  | .tabs node => node.parent

def setParent (parent : Option NodeId) : Node → Node
  | .bufferView node => .bufferView { node with parent }
  | .split node => .split { node with parent }
  | .tabs node => .tabs { node with parent }

def childIds : Node → List NodeId
  | .bufferView _ => []
  | .split node => node.children
  | .tabs node => node.children

/-- The pane the node `id` last focused: itself, for a focused view. -/
def lastFocusedDescendant (id : NodeId) : Node → Option NodeId
  | .bufferView node => if node.view.focused then some id else none
  | .split node => node.lastFocusedDescendant
  | .tabs node => node.lastFocusedDescendant

def setLastFocusedDescendant (leaf : Option NodeId) : Node → Node
  | .bufferView node => .bufferView node
  | .split node => .split { node with lastFocusedDescendant := leaf }
  | .tabs node => .tabs { node with lastFocusedDescendant := leaf }

def isBufferView : Node → Bool
  | .bufferView _ => true
  | _ => false

def isTabs : Node → Bool
  | .tabs _ => true
  | _ => false

end Node

structure FloatingWindow where
  sessionId : SessionId
  rootNode : NodeId
  title : Option String
  geometry : FloatGeometry
  focused : Bool
  visible : Bool
  closeOnEmpty : Bool
  border : Bool
  lastFocusedLeaf : Option NodeId
  deriving DecidableEq, Repr

/-! ## The whole state -/

structure ServerState where
  sessions : Table SessionId Session
  buffers : Table BufferId Buffer
  nodes : Table NodeId Node
  floating : Table FloatingId FloatingWindow
  /-- The viewport most recently reported for any session, which new sessions start with. -/
  lastViewport : Option Size
  lastPaneTitles : Bool
  lastBaseIndex : Option UInt32
  /-- Whether exited buffers that do not set the option stay in their views. -/
  remainOnExit : RemainOnExit
  sessionIds : IdAllocator .session
  bufferIds : IdAllocator .buffer
  nodeIds : IdAllocator .node
  floatingIds : IdAllocator .floating
  deriving DecidableEq

/-- The empty state a server starts from. -/
def ServerState.new : ServerState where
  sessions := ∅
  buffers := ∅
  nodes := ∅
  floating := ∅
  lastViewport := none
  lastPaneTitles := false
  lastBaseIndex := none
  remainOnExit := .off
  sessionIds := ⟨1⟩
  bufferIds := ⟨1⟩
  nodeIds := ⟨1⟩
  floatingIds := ⟨1⟩

end Embers
