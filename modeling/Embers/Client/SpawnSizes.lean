import Embers.Client.Twins

/-!
# The size of a pane before there is one

A program is started at the size its pane will have, so that it is not resized as soon as a client
draws it. The pane is put into a copy of the session's records where the server's request will put
it, under an id that no record has, and the copy is projected.
-/

namespace Embers.Client

open Protocol

/-- Where a pane about to be created will be placed, by the request that places it. -/
inductive PanePlacement where
  | split (leafId : NodeId) (direction : SplitDirection)
  | rootTab
  | tab (tabsNodeId : NodeId)
  | floating (geometry : FloatGeometry) (border : Bool)
  | replace (leafId : NodeId)
  deriving DecidableEq, Repr

/-! ## The ids of what is added -/

def newLeaf : NodeId := ⟨.ofNat (2 ^ 64 - 1)⟩
def newContainer : NodeId := ⟨.ofNat (2 ^ 64 - 2)⟩
def newBuffer : BufferId := ⟨.ofNat (2 ^ 64 - 1)⟩
def newFloating : FloatingId := ⟨.ofNat (2 ^ 64 - 1)⟩

/-! ## The copy -/

/-- The records that the session is projected from. -/
def sessionLayout (c : ClientState) (sessionId : SessionId) : Option ClientState := do
  let session ← c.sessions[sessionId]?
  let nodes : Table NodeId NodeRecord := c.nodes.filter fun _ node ↦ node.sessionId = sessionId
  let buffers := nodes.toList.filterMap fun entry ↦
    entry.2.bufferView.bind fun view ↦ c.buffers[view.bufferId]?
  some { ClientState.empty with
    sessions := Std.ExtTreeMap.empty.insert sessionId session
    buffers := Table.insertAll (·.id) ∅ buffers
    nodes := nodes
    floating := c.floating.filter fun floatingId _ ↦ floatingId ∈ session.floatingIds }

/-- The records of the new pane and its buffer, in no place yet. -/
def newBufferRecord : Protocol.BufferRecord where
  id := newBuffer
  title := ""
  command := []
  cwd := none
  pipe := none
  kind := .pty
  state := .created
  pid := none
  attachmentNodeId := some newLeaf
  readOnly := false
  helperSourceBufferId := none
  helperScope := none
  ptySize := .new 0 0
  activity := .idle
  lastSnapshotSeq := 0
  exitCode := none
  env := ∅
  userOptions := ∅
  foregroundCommand := none
  bellSequence := 0
  host := none

def newLeafRecord (sessionId : SessionId) : NodeRecord where
  id := newLeaf
  sessionId
  parentId := none
  kind := .bufferView
  bufferView := some ⟨newBuffer, false, false, true, .new 0 0⟩
  split := none
  tabs := none
  focusLeafId := none

def addNewLeaf (sessionId : SessionId) (layout : ClientState) : ClientState :=
  { layout with
    buffers := layout.buffers.insert newBuffer newBufferRecord
    nodes := layout.nodes.insert newLeaf (newLeafRecord sessionId) }

def setParent (nodeId parentId : NodeId) (layout : ClientState) : ClientState :=
  { layout with
    nodes := layout.nodes.modify nodeId fun node ↦ { node with parentId := some parentId } }

/-- The tabs with the first one of `old` showing `new`. -/
def replaceTab (old new : NodeId) (tabs : List TabRecord) : List TabRecord :=
  tabs.replaceF fun tab ↦ if tab.childId = old then some { tab with childId := new } else none

/-- Put `new` where the payload of a container names `old` first. -/
def replacePayload (old new : NodeId) (record : NodeRecord) : Option NodeRecord :=
  match record.split with
  | some split =>
    if old ∈ split.childIds then
      some { record with split := some { split with childIds := split.childIds.replace old new } }
    else none
  | none => do
    let tabs ← record.tabs
    if old ∈ tabs.tabs.map (·.childId) then
      some { record with tabs := some { tabs with tabs := replaceTab old new tabs.tabs } }
    else none

/-- Point whatever holds `old` at `new` instead. -/
def replaceChild (sessionId : SessionId) (parentId : Option NodeId) (old new : NodeId)
    (layout : ClientState) : Option ClientState :=
  match parentId with
  | none => do
    let session ← layout.sessions[sessionId]?
    if session.rootNodeId = old then
      some { layout with
        sessions := layout.sessions.insert sessionId { session with rootNodeId := new } }
    else do
      let (floatingId, window) ← layout.floating.toList.find? fun entry ↦ entry.2.rootNodeId = old
      some { layout with
        floating := layout.floating.insert floatingId { window with rootNodeId := new } }
  | some parentId => do
    let parent ← layout.nodes[parentId]?
    let parent ← replacePayload old new parent
    some { layout with nodes := layout.nodes.insert parentId parent }

/-! ## Placements -/

/-- Wrap a pane in an even split with the new one second. -/
def splitLeaf (sessionId : SessionId) (leafId : NodeId) (direction : SplitDirection)
    (layout : ClientState) : Option ClientState := do
  let leaf ← layout.nodes[leafId]?
  if leaf.sessionId ≠ sessionId ∨ leaf.kind ≠ .bufferView then none
  else do
    let replaced ← replaceChild sessionId leaf.parentId leafId newContainer layout
    let container : NodeRecord := {
      id := newContainer
      sessionId
      parentId := leaf.parentId
      kind := .split
      bufferView := none
      split := some ⟨direction, [leafId, newLeaf], [1, 1]⟩
      tabs := none
      focusLeafId := none }
    some (setParent newLeaf newContainer (setParent leafId newContainer
      { replaced with nodes := replaced.nodes.insert newContainer container }))

/-- The session's own tabs. -/
def rootTabs (layout : ClientState) (sessionId : SessionId) : Option NodeId := do
  let session ← layout.sessions[sessionId]?
  let root ← layout.nodes[session.rootNodeId]?
  if root.kind = .tabs then some session.rootNodeId else none

/-- Add the new pane as the active tab. -/
def addActiveTab (tabsNodeId : NodeId) (layout : ClientState) : Option ClientState := do
  let node ← layout.nodes[tabsNodeId]?
  let tabs ← node.tabs
  if tabs.tabs.length < 2 ^ 32 then
    some (setParent newLeaf tabsNodeId { layout with
      nodes := layout.nodes.insert tabsNodeId { node with
        tabs := some ⟨.ofNat tabs.tabs.length, tabs.tabs ++ [⟨"", newLeaf, false⟩]⟩ } })
  else none

/-- Open the new pane in a popup on top of the others. -/
def addFloating (sessionId : SessionId) (geometry : FloatGeometry) (border : Bool)
    (layout : ClientState) : Option ClientState := do
  let session ← layout.sessions[sessionId]?
  some { layout with
    floating := layout.floating.insert newFloating {
      id := newFloating
      sessionId
      rootNodeId := newLeaf
      title := none
      geometry
      focused := true
      visible := true
      closeOnEmpty := true
      border }
    sessions := layout.sessions.insert sessionId { session with
      floatingIds := session.floatingIds ++ [newFloating] } }

/-- The copy with the pane in its place, and the pane. -/
def placePane (sessionId : SessionId) (layout : ClientState) :
    PanePlacement → Option (ClientState × NodeId)
  | .split leafId direction => do
    let layout ← splitLeaf sessionId leafId direction layout
    some (layout, newLeaf)
  | .rootTab => do
    let tabsNodeId ← rootTabs layout sessionId
    let layout ← addActiveTab tabsNodeId layout
    some (layout, newLeaf)
  | .tab tabsNodeId => do
    let node ← layout.nodes[tabsNodeId]?
    if node.sessionId ≠ sessionId then none
    else do
      let layout ← addActiveTab tabsNodeId layout
      some (layout, newLeaf)
  | .floating geometry border => do
    let layout ← addFloating sessionId geometry border layout
    some (layout, newLeaf)
  | .replace leafId => some (layout, leafId)

/-! ## Sizes -/

/-- The size of a terminal that is drawn in a rectangle, if there is room. -/
def Rect.ptySize (rect : Rect) : Option PtySize :=
  if 0 < rect.width ∧ 0 < rect.height then some (.new (.ofNat rect.width) (.ofNat rect.height)) else none

/-- The size of the terminal of a pane on a screen. -/
def PresentationModel.ptySize (m : PresentationModel) (leafId : NodeId) : Option PtySize := do
  let leaf ← m.leaves.find? (·.2.nodeId = leafId)
  leaf.2.contentRect.ptySize

/-- The size at which a pane will be drawn that is about to be created. A projection that fails is no
size; here, so is one that runs out of fuel. -/
def spawnPtySizeWith (c : ClientState) (fuel : ℕ) (sessionId : SessionId) (viewport : Size)
    (options : LayoutOptions) (placement : PanePlacement) : Option PtySize := do
  let layout ← sessionLayout c sessionId
  let (layout, drawnLeaf) ← placePane sessionId (addNewLeaf sessionId layout) placement
  match ← PresentationModel.projectWith layout fuel sessionId viewport options with
  | .ok m => m.ptySize drawnLeaf
  | .error _ => none

end Embers.Client
