import Embers.State.Walk

/-!
# The saved workspace

The types a workspace is saved as, and the conversions of single records both ways. Ids are saved
as raw numbers; a record's own id, which the state keeps as its key, is a field here. Not saved:
the focus history, `synchronize-panes`, the lines of helper buffers, and what only a running
server knows about a buffer.
-/

namespace Embers

/-! ## The format -/

structure PersistedSession where
  id : UInt64
  name : String
  rootNode : UInt64
  floating : List UInt64
  focusedLeaf : Option UInt64
  focusedFloating : Option UInt64
  zoomedNode : Option UInt64
  viewport : Option Size
  paneTitles : Bool
  baseIndex : Option UInt32
  createdAtMs : UInt64

structure PersistedRemoteBuffer where
  host : String
  bufferId : Option UInt64

inductive PersistedHelperBufferScope where
  | full
  | visible

inductive PersistedBufferKind where
  | pty
  | helper (sourceBufferId : UInt64) (scope : PersistedHelperBufferScope) (lines : List String)

inductive PersistedBufferState where
  | created
  | running (pid : Option UInt32)
  | interrupted (lastKnownPid : Option UInt32)
  | exited (exitCode : Option Int32) (exitedAtMs : UInt64)

inductive PersistedBufferAttachment where
  | attached (nodeId : UInt64)
  | detached

inductive PersistedActivityState where
  | idle
  | activity
  | bell

structure PersistedBuffer where
  id : UInt64
  title : String
  command : List String
  cwd : Option String
  env : Table String String
  userOptions : Table String String
  foregroundCommand : Option (List String)
  runtimeSocketPath : Option String
  remote : Option PersistedRemoteBuffer
  state : PersistedBufferState
  attachment : PersistedBufferAttachment
  ptySize : PtySize
  activity : PersistedActivityState
  kind : PersistedBufferKind
  createdAtMs : UInt64

inductive PersistedSplitDirection where
  | horizontal
  | vertical

structure PersistedTabEntry where
  title : String
  child : UInt64

inductive PersistedNode where
  | bufferView (id sessionId : UInt64) (parent : Option UInt64) (bufferId : UInt64)
      (focused zoomed followOutput : Bool) (lastRenderSize : PtySize)
  | split (id sessionId : UInt64) (parent : Option UInt64) (direction : PersistedSplitDirection)
      (children : List UInt64) (sizes : List UInt16) (lastFocusedDescendant : Option UInt64)
  | tabs (id sessionId : UInt64) (parent : Option UInt64) (tabs : List PersistedTabEntry)
      (active : ℕ) (lastFocusedDescendant : Option UInt64)

structure PersistedFloatingWindow where
  id : UInt64
  sessionId : UInt64
  rootNode : UInt64
  title : Option String
  geometry : FloatGeometry
  focused : Bool
  visible : Bool
  closeOnEmpty : Bool
  border : Bool
  lastFocusedLeaf : Option UInt64

structure PersistedWorkspace where
  formatVersion : Option UInt32
  sessions : List PersistedSession
  buffers : List PersistedBuffer
  nodes : List PersistedNode
  floating : List PersistedFloatingWindow
  nextSessionId : UInt64
  nextBufferId : UInt64
  nextNodeId : UInt64
  nextFloatingId : UInt64

def currentFormatVersion : UInt32 := 2

/-! ## Time

Times are saved as whole milliseconds from the Unix epoch; earlier times as zero. -/

def timestampToMillis (timestamp : Timestamp) : UInt64 :=
  .ofNat (min (timestamp.nanos.toNat / 1000000) (2 ^ 64 - 1))

/-- Every 64-bit count of milliseconds is a time the system clock can hold. -/
def timestampFromMillis (millis : UInt64) : Timestamp := ⟨(millis.toNat * 1000000 : ℕ)⟩

/-! ## Sessions -/

def persistedSession (entry : SessionId × Session) : PersistedSession where
  id := entry.1.raw
  name := entry.2.name
  rootNode := entry.2.rootNode.raw
  floating := entry.2.floating.map EntityId.raw
  focusedLeaf := entry.2.focusedLeaf.map EntityId.raw
  focusedFloating := entry.2.focusedFloating.map EntityId.raw
  zoomedNode := entry.2.zoomedNode.map EntityId.raw
  viewport := entry.2.viewport
  paneTitles := entry.2.paneTitles
  baseIndex := entry.2.baseIndex
  createdAtMs := timestampToMillis entry.2.createdAt

def restoredSession (session : PersistedSession) : SessionId × Session where
  fst := ⟨session.id⟩
  snd :=
    { name := session.name
      rootNode := ⟨session.rootNode⟩
      floating := session.floating.map EntityId.mk
      focusedLeaf := session.focusedLeaf.map EntityId.mk
      focusedFloating := session.focusedFloating.map EntityId.mk
      zoomedNode := session.zoomedNode.map EntityId.mk
      viewport := session.viewport
      paneTitles := session.paneTitles
      baseIndex := session.baseIndex
      focusHistory := []
      createdAt := timestampFromMillis session.createdAtMs }

/-! ## Buffers -/

def persistedBufferState : BufferState → PersistedBufferState
  | .created => .created
  | .running pid => .running pid
  | .interrupted lastKnownPid => .interrupted lastKnownPid
  | .exited exitCode exitedAt => .exited exitCode (timestampToMillis exitedAt)

/-- A saved command no longer runs: it is restored as interrupted. -/
def restoredBufferState : PersistedBufferState → BufferState
  | .created => .created
  | .running pid => .interrupted pid
  | .interrupted lastKnownPid => .interrupted lastKnownPid
  | .exited exitCode exitedAtMs => .exited exitCode (timestampFromMillis exitedAtMs)

def persistedBufferAttachment : BufferAttachment → PersistedBufferAttachment
  | .attached nodeId => .attached nodeId.raw
  | .detached => .detached

def restoredBufferAttachment : PersistedBufferAttachment → BufferAttachment
  | .attached nodeId => .attached ⟨nodeId⟩
  | .detached => .detached

def persistedActivity : ActivityState → PersistedActivityState
  | .idle => .idle
  | .activity => .activity
  | .bell => .bell

def restoredActivity : PersistedActivityState → ActivityState
  | .idle => .idle
  | .activity => .activity
  | .bell => .bell

def persistedHelperScope : HelperBufferScope → PersistedHelperBufferScope
  | .full => .full
  | .visible => .visible

def restoredHelperScope : PersistedHelperBufferScope → HelperBufferScope
  | .full => .full
  | .visible => .visible

/-- The lines a helper buffer shows are not saved. -/
def persistedBufferKind : BufferKind → PersistedBufferKind
  | .pty => .pty
  | .helper helper => .helper helper.sourceBufferId.raw (persistedHelperScope helper.scope) []

def restoredBufferKind : PersistedBufferKind → BufferKind
  | .pty => .pty
  | .helper sourceBufferId scope lines => .helper ⟨⟨sourceBufferId⟩, restoredHelperScope scope, lines⟩

def Placement.socketPath : Placement → Option String
  | .local socketPath => socketPath
  | .remote _ _ => none

def Placement.persistedRemote : Placement → Option PersistedRemoteBuffer
  | .local _ => none
  | .remote host bufferId => some ⟨host, bufferId.map EntityId.raw⟩

def restoredPlacement (socketPath : Option String) : Option PersistedRemoteBuffer → Placement
  | some remote => .remote remote.host (remote.bufferId.map EntityId.mk)
  | none => .local socketPath

def persistedBuffer (entry : BufferId × Buffer) : PersistedBuffer where
  id := entry.1.raw
  title := entry.2.title
  command := entry.2.command
  cwd := entry.2.cwd
  env := entry.2.env
  userOptions := entry.2.userOptions
  foregroundCommand := entry.2.foregroundCommand
  runtimeSocketPath := entry.2.placement.socketPath
  remote := entry.2.placement.persistedRemote
  state := persistedBufferState entry.2.state
  attachment := persistedBufferAttachment entry.2.attachment
  ptySize := entry.2.ptySize
  activity := persistedActivity entry.2.activity
  kind := persistedBufferKind entry.2.kind
  createdAtMs := timestampToMillis entry.2.createdAt

/-- Built from a new buffer, so everything not saved starts over; it counts as shown before. -/
def restoredBuffer (buffer : PersistedBuffer) : BufferId × Buffer where
  fst := ⟨buffer.id⟩
  snd :=
    { Buffer.new buffer.title buffer.command buffer.cwd buffer.env
        (timestampFromMillis buffer.createdAtMs) with
      userOptions := buffer.userOptions
      foregroundCommand := buffer.foregroundCommand
      placement := restoredPlacement buffer.runtimeSocketPath buffer.remote
      state := restoredBufferState buffer.state
      attachment := restoredBufferAttachment buffer.attachment
      ptySize := buffer.ptySize
      activity := restoredActivity buffer.activity
      kind := restoredBufferKind buffer.kind
      everAttached := true }

/-! ## Nodes -/

def persistedSplitDirection : SplitDirection → PersistedSplitDirection
  | .horizontal => .horizontal
  | .vertical => .vertical

def restoredSplitDirection : PersistedSplitDirection → SplitDirection
  | .horizontal => .horizontal
  | .vertical => .vertical

def persistedNode (entry : NodeId × Node) : PersistedNode :=
  match entry.2 with
  | .bufferView node => .bufferView entry.1.raw node.sessionId.raw (node.parent.map EntityId.raw)
      node.bufferId.raw node.view.focused node.view.zoomed node.view.followOutput
      node.view.lastRenderSize
  | .split node => .split entry.1.raw node.sessionId.raw (node.parent.map EntityId.raw)
      (persistedSplitDirection node.direction) (node.children.map EntityId.raw) node.sizes
      (node.lastFocusedDescendant.map EntityId.raw)
  | .tabs node => .tabs entry.1.raw node.sessionId.raw (node.parent.map EntityId.raw)
      (node.tabs.map fun tab ↦ ⟨tab.title, tab.child.raw⟩) node.active
      (node.lastFocusedDescendant.map EntityId.raw)

def restoredNode : PersistedNode → NodeId × Node
  | .bufferView id sessionId parent bufferId focused zoomed followOutput lastRenderSize =>
    (⟨id⟩, .bufferView ⟨⟨sessionId⟩, parent.map EntityId.mk, ⟨bufferId⟩,
      ⟨focused, zoomed, followOutput, lastRenderSize⟩⟩)
  | .split id sessionId parent direction children sizes lastFocusedDescendant =>
    (⟨id⟩, .split ⟨⟨sessionId⟩, parent.map EntityId.mk, restoredSplitDirection direction,
      children.map EntityId.mk, sizes, lastFocusedDescendant.map EntityId.mk⟩)
  | .tabs id sessionId parent tabs active lastFocusedDescendant =>
    (⟨id⟩, .tabs ⟨⟨sessionId⟩, parent.map EntityId.mk,
      tabs.map fun tab ↦ TabEntry.new tab.title ⟨tab.child⟩, active,
      lastFocusedDescendant.map EntityId.mk⟩)

/-! ## Floating windows -/

def persistedFloating (entry : FloatingId × FloatingWindow) : PersistedFloatingWindow where
  id := entry.1.raw
  sessionId := entry.2.sessionId.raw
  rootNode := entry.2.rootNode.raw
  title := entry.2.title
  geometry := entry.2.geometry
  focused := entry.2.focused
  visible := entry.2.visible
  closeOnEmpty := entry.2.closeOnEmpty
  border := entry.2.border
  lastFocusedLeaf := entry.2.lastFocusedLeaf.map EntityId.raw

def restoredFloating (window : PersistedFloatingWindow) : FloatingId × FloatingWindow where
  fst := ⟨window.id⟩
  snd :=
    { sessionId := ⟨window.sessionId⟩
      rootNode := ⟨window.rootNode⟩
      title := window.title
      geometry := window.geometry
      focused := window.focused
      visible := window.visible
      closeOnEmpty := window.closeOnEmpty
      border := window.border
      lastFocusedLeaf := window.lastFocusedLeaf.map EntityId.mk }

end Embers
