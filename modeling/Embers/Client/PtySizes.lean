import Embers.Core.Model

/-!
# Which panes a client resizes

Several clients can show one buffer at different sizes, and its terminal has only one. A client asks
for a resize when its own wanted size changes, or after input of its user, but not because another
client resized the buffer. `PtySizeSync` is what a client remembers for that: the size it last
wanted for each buffer, whether its user has been active since the last sync, and the requests that
failed, which are tried again after an interval while the server still reports the size they were
planned at.
-/

namespace Embers

/-! ## Sizes in pixels -/

/-- The size of one terminal cell in pixels. -/
structure CellSize where
  width : UInt16
  height : UInt16
  deriving DecidableEq, Repr

/-- The product, or the largest number of 16 bits. -/
def saturatingMul (a b : UInt16) : UInt16 := UInt16.ofNat (min (a.toNat * b.toNat) 65535)

/-- The size of one cell, unless a part of the size is unknown. -/
def PtySize.cellSize (size : PtySize) : Option CellSize :=
  if size.cols = 0 ∨ size.rows = 0 then none
  else
    let cell : CellSize := ⟨size.pixelWidth / size.cols, size.pixelHeight / size.rows⟩
    if cell.width > 0 ∧ cell.height > 0 then some cell else none

/-- These cells, with the pixels they take; none without a cell size. -/
def PtySize.withCellSize (size : PtySize) (cell : Option CellSize) : PtySize :=
  let cell := cell.getD ⟨0, 0⟩
  { size with
    pixelWidth := saturatingMul size.cols cell.width
    pixelHeight := saturatingMul size.rows cell.height }

/-! ## What is drawn -/

inductive BufferRecordKind where
  | pty
  | helper
  deriving DecidableEq, Repr

inductive BufferRecordState where
  | created
  | running
  | interrupted
  | exited
  deriving DecidableEq, Repr

/-- What a client's record of a buffer says about its terminal. -/
structure BufferRecord where
  kind : BufferRecordKind
  state : BufferRecordState
  ptySize : PtySize
  deriving DecidableEq, Repr

/-- A leaf as it is drawn: the buffer and the size of its content area. -/
structure LeafFrame where
  bufferId : BufferId
  content : Size
  deriving DecidableEq, Repr

/-- The size of the terminal, unless there is no room for content. -/
def LeafFrame.ptySize (leaf : LeafFrame) : Option PtySize :=
  if leaf.content.width > 0 ∧ leaf.content.height > 0 then
    some (PtySize.new leaf.content.width leaf.content.height)
  else none

/-- What one sync works on: the buffers the client knows, the leaves it draws, the size of its
terminal's cells and the time. A view shows one buffer and a buffer has one view, so no buffer is
drawn twice. -/
structure SyncInput where
  now : ℕ
  buffers : Table BufferId BufferRecord
  leaves : List LeafFrame
  cell : Option CellSize
  distinct : (leaves.map LeafFrame.bufferId).Nodup

/-- A resizable visible buffer: the size this client wants and the size the server reports. -/
structure SizeTarget where
  bufferId : BufferId
  wanted : PtySize
  current : PtySize
  deriving DecidableEq, Repr

namespace SyncInput

/-- The target of a leaf. Only a running terminal can be resized, and helper buffers have none. -/
def target (i : SyncInput) (leaf : LeafFrame) : Option SizeTarget := do
  let buffer ← i.buffers[leaf.bufferId]?
  if buffer.kind ≠ .pty ∨ buffer.state ≠ .running then none
  else
    let size ← leaf.ptySize
    some ⟨leaf.bufferId, size.withCellSize i.cell, buffer.ptySize⟩

def targets (i : SyncInput) : List SizeTarget := i.leaves.filterMap i.target

/-- The size wanted for a buffer, while it is drawn and can be resized. -/
def wanted (i : SyncInput) (bufferId : BufferId) : Option PtySize :=
  (i.targets.find? (·.bufferId = bufferId)).map (·.wanted)

end SyncInput

/-! ## The sync -/

/-- The interval between two attempts, in milliseconds. -/
def retryInterval : ℕ := 1000

/-- A request: the size the server reported when it was planned, and when that was. -/
structure Attempt where
  serverSize : PtySize
  plannedAt : ℕ
  deriving DecidableEq, Repr

structure PtySizeSync where
  wanted : Table BufferId PtySize
  reclaim : Bool
  planned : Table BufferId Attempt
  failed : Table BufferId Attempt

/-- Whether the server's size already is the wanted one. A size without pixels only has to match in
cells. -/
def matchesServer (current wanted : PtySize) : Bool :=
  if current.cellSize = none then current.cols = wanted.cols ∧ current.rows = wanted.rows
  else current = wanted

namespace PtySizeSync

def new : PtySizeSync := ⟨∅, false, ∅, ∅⟩

def noteUserActivity (s : PtySizeSync) : PtySizeSync := { s with reclaim := true }

def resizeFailed (s : PtySizeSync) (bufferId : BufferId) : PtySizeSync :=
  match s.planned[bufferId]? with
  | none => s
  | some attempt =>
    { s with
      planned := s.planned.erase bufferId
      failed := s.failed.insert bufferId attempt }

/-- Whether a request is due: the wanted size has changed, or it is to be sent again, or the buffer
is drawn for the first time, and the server does not have it. -/
def changed (s : PtySizeSync) (reclaim retry : Bool) (t : SizeTarget) : Bool :=
  match s.wanted[t.bufferId]? with
  | some previous =>
    if ¬reclaim ∧ ¬retry then previous ≠ t.wanted else !matchesServer t.current t.wanted
  | none => t.current ≠ t.wanted

/-- Record the wanted size, and plan a request if it is due. -/
def want (s : PtySizeSync) (reclaim retry : Bool) (now : ℕ) (t : SizeTarget) :
    PtySizeSync × List (BufferId × PtySize) :=
  let wanted := s.wanted.insert t.bufferId t.wanted
  if s.changed reclaim retry t then
    ({ s with wanted, planned := s.planned.insert t.bufferId ⟨t.current, now⟩ },
      [(t.bufferId, t.wanted)])
  else ({ s with wanted }, [])

def planTarget (s : PtySizeSync) (reclaim : Bool) (now : ℕ) (t : SizeTarget) :
    PtySizeSync × List (BufferId × PtySize) :=
  match s.failed[t.bufferId]? with
  | none => s.want reclaim false now t
  | some failure =>
    -- another client has resized the buffer since, and its size stands
    if failure.serverSize ≠ t.current then
      want { s with failed := s.failed.erase t.bufferId } reclaim false now t
    -- `wanted` stays as it was, so that a change made meanwhile is noticed when the retry is due
    else if now - failure.plannedAt < retryInterval then (s, [])
    else want { s with failed := s.failed.erase t.bufferId } reclaim true now t

def planLoop (reclaim : Bool) (now : ℕ) :
    PtySizeSync → List SizeTarget → PtySizeSync × List (BufferId × PtySize)
  | s, [] => (s, [])
  | s, t :: targets =>
    let (s, resize) := s.planTarget reclaim now t
    let (s, resizes) := planLoop reclaim now s targets
    (s, resize ++ resizes)

def planTargets (s : PtySizeSync) (targets : List SizeTarget) (now : ℕ) :
    PtySizeSync × List (BufferId × PtySize) :=
  planLoop s.reclaim now { s with reclaim := false, planned := ∅ } targets

/-- The resizes to request. What the client no longer knows is forgotten. -/
def plan (s : PtySizeSync) (i : SyncInput) : PtySizeSync × List (BufferId × PtySize) :=
  planTargets
    { s with
      wanted := s.wanted.filter fun bufferId _ ↦ i.buffers.contains bufferId
      failed := s.failed.filter fun bufferId _ ↦ i.buffers.contains bufferId }
    i.targets i.now

end PtySizeSync

end Embers
