import Embers.Core.Model

/-!
# Records of the protocol

What the server tells its clients, and other servers, about sessions, layout nodes, buffers and
floating windows. A record repeats its id, and a node's record names its kind besides the data of
that kind, so that unlike the server's own types these can contradict themselves.
-/

namespace Embers.Protocol

inductive BufferRecordState where
  | created
  | running
  | interrupted
  | exited
  deriving DecidableEq, Repr

/-- Whether a pipe runs. The reasons a pipe stops for are the server's own. -/
inductive PipeRecordState where
  | running
  | stopped
  deriving DecidableEq, Repr

structure BufferPipeRecord where
  command : List String
  state : PipeRecordState
  pid : Option UInt32
  exitCode : Option Int32
  stopReason : Option BufferPipeStopReason
  deriving DecidableEq, Repr

inductive BufferRecordKind where
  | pty
  | helper
  deriving DecidableEq, Repr

structure BufferRecord where
  id : BufferId
  title : String
  command : List String
  cwd : Option String
  pipe : Option BufferPipeRecord
  kind : BufferRecordKind
  state : BufferRecordState
  pid : Option UInt32
  attachmentNodeId : Option NodeId
  readOnly : Bool
  helperSourceBufferId : Option BufferId
  helperScope : Option HelperBufferScope
  ptySize : PtySize
  activity : ActivityState
  lastSnapshotSeq : UInt64
  exitCode : Option Int32
  env : Table String String
  userOptions : Table String String
  /-- Command line of the job in the foreground when that is not the buffer's own process. -/
  foregroundCommand : Option (List String)
  /-- Bells rung in the buffer since its program started. -/
  bellSequence : UInt64
  /-- The machine whose server runs the buffer, none for this one. -/
  host : Option String
  deriving DecidableEq

structure SessionRecord where
  id : SessionId
  name : String
  rootNodeId : NodeId
  floatingIds : List FloatingId
  focusedLeafId : Option NodeId
  focusedFloatingId : Option FloatingId
  zoomedNodeId : Option NodeId
  viewport : Option Size
  baseIndex : Option UInt32
  paneTitles : Bool
  deriving DecidableEq, Repr

inductive NodeRecordKind where
  | bufferView
  | split
  | tabs
  deriving DecidableEq, Repr

structure BufferViewRecord where
  bufferId : BufferId
  focused : Bool
  zoomed : Bool
  followOutput : Bool
  lastRenderSize : PtySize
  deriving DecidableEq, Repr

structure SplitRecord where
  direction : SplitDirection
  childIds : List NodeId
  sizes : List UInt16
  deriving DecidableEq, Repr

structure TabRecord where
  title : String
  childId : NodeId
  synchronizePanes : Bool
  deriving DecidableEq, Repr

structure TabsRecord where
  active : UInt32
  tabs : List TabRecord
  deriving DecidableEq, Repr

structure NodeRecord where
  id : NodeId
  sessionId : SessionId
  parentId : Option NodeId
  kind : NodeRecordKind
  bufferView : Option BufferViewRecord
  split : Option SplitRecord
  tabs : Option TabsRecord
  /-- The pane that focusing this node lands on. -/
  focusLeafId : Option NodeId
  deriving DecidableEq, Repr

structure FloatingRecord where
  id : FloatingId
  sessionId : SessionId
  rootNodeId : NodeId
  title : Option String
  geometry : FloatGeometry
  focused : Bool
  visible : Bool
  closeOnEmpty : Bool
  border : Bool
  deriving DecidableEq, Repr

structure SessionSnapshot where
  session : SessionRecord
  nodes : List NodeRecord
  buffers : List BufferRecord
  floating : List FloatingRecord
  deriving DecidableEq

end Embers.Protocol
