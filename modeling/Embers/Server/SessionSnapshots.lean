import Embers.Client.Resync
import Embers.Client.Twins
import Embers.Protocol.RecordsSent
import Embers.Server.BufferList
import Embers.State.EditCases

/-!
# Snapshots of sessions

A request that changes a layout is answered with the whole session: its record, every node below its
roots, the buffers its panes show and its popups. `Mirrors` is what a client has once it applied such
an answer. Later news of a buffer or of the focus leave it the records that the layout is drawn from:
`Caches`.
-/

namespace Embers

namespace Answer

variable {ε α β : Type}

/-- What a list is collected from has all its answers in it. -/
theorem collect_mem {f : α → Answer ε (List β)} {a : α} :
    ∀ {l : List α} {bs : List β}, collect f l = .ok bs → a ∈ l →
      ∃ bs', f a = .ok bs' ∧ ∀ b ∈ bs', b ∈ bs
  | first :: rest, bs, h, hmem => by
    obtain ⟨bs', hbs', h⟩ := ok_bind h
    obtain ⟨others, hothers, h⟩ := ok_bind h
    cases h
    rcases List.mem_cons.mp hmem with rfl | hmem
    · exact ⟨bs', hbs', fun b hb ↦ List.mem_append_left _ hb⟩
    · obtain ⟨bs'', hbs'', hin⟩ := collect_mem hothers hmem
      exact ⟨bs'', hbs'', fun b hb ↦ List.mem_append_right _ (hin b hb)⟩

end Answer

namespace Server

open Protocol

/-! ## Records -/

def sessionRecord (sessionId : SessionId) (session : Session) : SessionRecord where
  id := sessionId
  name := session.name
  rootNodeId := session.rootNode
  floatingIds := session.floating
  focusedLeafId := session.focusedLeaf
  focusedFloatingId := session.focusedFloating
  zoomedNodeId := session.zoomedNode
  viewport := session.viewport
  baseIndex := session.baseIndex
  paneTitles := session.paneTitles

def tabRecord (tab : TabEntry) : TabRecord := ⟨tab.title, tab.child, tab.synchronizePanes⟩

/-- The record of a node, unless its active index has more than 32 bits, where the server panics. -/
def nodeRecord (nodeId : NodeId) (focusLeafId : Option NodeId) : Node → Option NodeRecord
  | .bufferView node => some {
      id := nodeId
      sessionId := node.sessionId
      parentId := node.parent
      kind := .bufferView
      bufferView := some ⟨node.bufferId, node.view.focused, node.view.zoomed, node.view.followOutput,
        node.view.lastRenderSize⟩
      split := none
      tabs := none
      focusLeafId }
  | .split node => some {
      id := nodeId
      sessionId := node.sessionId
      parentId := node.parent
      kind := .split
      bufferView := none
      split := some ⟨node.direction, node.children, node.sizes⟩
      tabs := none
      focusLeafId }
  | .tabs node =>
    if node.active < 2 ^ 32 then some {
      id := nodeId
      sessionId := node.sessionId
      parentId := node.parent
      kind := .tabs
      bufferView := none
      split := none
      tabs := some ⟨.ofNat node.active, node.tabs.map tabRecord⟩
      focusLeafId }
    else none

def floatingRecord (floatingId : FloatingId) (floating : FloatingWindow) : FloatingRecord where
  id := floatingId
  sessionId := floating.sessionId
  rootNodeId := floating.rootNode
  title := floating.title
  geometry := floating.geometry
  focused := floating.focused
  visible := floating.visible
  closeOnEmpty := floating.closeOnEmpty
  border := floating.border

/-! ## Snapshots -/

section

variable (s : ServerState) (fuel : ℕ)

/-- The buffers that the panes of a session show. -/
def sessionBufferIds (sessionId : SessionId) : Read (List BufferId) := do
  let nodeIds ← s.sessionNodeIds fuel sessionId
  let buffers ← Answer.collect (fun nodeId ↦ do
    match ← s.node nodeId with
    | .bufferView leaf => pure [leaf.bufferId]
    | _ => pure []) nodeIds
  pure (buffers.foldl Std.ExtTreeSet.insert (∅ : Std.ExtTreeSet BufferId)).toList

/-- The record of a node of a snapshot. -/
def snapshotNode (nodeId : NodeId) : Read (List NodeRecord) := do
  let node ← s.node nodeId
  let focusLeafId ← s.resolveFocusCandidate fuel nodeId
  match nodeRecord nodeId focusLeafId node with
  | some record => pure [record]
  -- the panic does not answer
  | none => .error .diverges

def sessionSnapshot (sessionId : SessionId) : Read SessionSnapshot := do
  let session ← s.session sessionId
  let nodeIds ← s.sessionNodeIds fuel sessionId
  let nodes ← Answer.collect (snapshotNode s fuel) nodeIds
  let bufferIds ← sessionBufferIds s fuel sessionId
  let buffers ← Answer.collect (fun bufferId ↦ do
    let buffer ← s.buffer bufferId
    pure [bufferRecord bufferId buffer]) bufferIds
  let floating ← Answer.collect (fun floatingId ↦ do
    let floating ← s.floatingWindow floatingId
    pure [floatingRecord floatingId floating]) session.floating
  if nodes.any (·.id = session.rootNode) then
    pure ⟨sessionRecord sessionId session, nodes, buffers, floating⟩
  else
    .fail (.conflict
      s!"session snapshot for {sessionId} is missing its root node {session.rootNode}")

end

/-! ## A client that is up to date with a session -/

/-- The roots of a session: its own, and those of its popups. -/
def SessionRoot (s : ServerState) (session : Session) (root : NodeId) : Prop :=
  root = session.rootNode ∨ ∃ floatingId ∈ session.floating, ∃ floating,
    s.floating[floatingId]? = some floating ∧ floating.rootNode = root

/-- The node is below a root of the session. -/
def InSession (s : ServerState) (session : Session) (nodeId : NodeId) : Prop :=
  ∃ root, SessionRoot s session root ∧ Relation.ReflTransGen s.Lists root nodeId

/-- The record of a node as it arrives. -/
def arrivedNode (nodeId : NodeId) (focusLeafId : Option NodeId) (node : Node) : Option NodeRecord :=
  (nodeRecord nodeId focusLeafId node).map NodeRecord.sent

/-- The client has the server's records of all that is in the session as they arrive, and of no other
node in it. A node's record has the leaf that the server would focus below it, and a buffer's is the one
of the server's buffer under this id. -/
structure Mirrors (s : ServerState) (sessionId : SessionId) (session : Session)
    (c : Client.ClientState) : Prop where
  kept : s.sessions[sessionId]? = some session
  recorded : c.sessions[sessionId]? = some (sessionRecord sessionId session)
  node {nodeId : NodeId} (h : InSession s session nodeId) : ∃ node fuel leaf record,
    s.nodes[nodeId]? = some node ∧ s.resolveFocusCandidate fuel nodeId = .ok leaf ∧
      arrivedNode nodeId leaf node = some record ∧ c.nodes[nodeId]? = some record
  buffer {nodeId : NodeId} {view : BufferViewNode} (h : InSession s session nodeId)
    (hview : s.nodes[nodeId]? = some (.bufferView view)) : ∃ buffer,
      s.buffers[view.bufferId]? = some buffer ∧
        c.buffers[view.bufferId]? = some (bufferRecord view.bufferId buffer).sent
  floating {floatingId : FloatingId} (h : floatingId ∈ session.floating) : ∃ floating,
    s.floating[floatingId]? = some floating ∧
      c.floating[floatingId]? = some (floatingRecord floatingId floating)
  only {nodeId : NodeId} {record : NodeRecord} (h : c.nodes[nodeId]? = some record)
    (hsession : record.sessionId = sessionId) : InSession s session nodeId

/-- What a layout is drawn from: as a mirror, but the leaf that a node would focus may be out of date,
and so may be what is known of a buffer. -/
structure Caches (s : ServerState) (sessionId : SessionId) (session : Session)
    (c : Client.ClientState) : Prop where
  kept : s.sessions[sessionId]? = some session
  recorded : c.sessions[sessionId]? = some (sessionRecord sessionId session)
  node {nodeId : NodeId} (h : InSession s session nodeId) : ∃ node leaf record,
    s.nodes[nodeId]? = some node ∧ arrivedNode nodeId leaf node = some record ∧
      c.nodes[nodeId]? = some record
  buffer {nodeId : NodeId} {view : BufferViewNode} (h : InSession s session nodeId)
    (hview : s.nodes[nodeId]? = some (.bufferView view)) : c.buffers[view.bufferId]?.isSome
  floating {floatingId : FloatingId} (h : floatingId ∈ session.floating) : ∃ floating,
    s.floating[floatingId]? = some floating ∧
      c.floating[floatingId]? = some (floatingRecord floatingId floating)
  only {nodeId : NodeId} {record : NodeRecord} (h : c.nodes[nodeId]? = some record)
    (hsession : record.sessionId = sessionId) : InSession s session nodeId

theorem Mirrors.caches {s : ServerState} {sessionId : SessionId} {session : Session}
    {c : Client.ClientState} (h : Mirrors s sessionId session c) : Caches s sessionId session c where
  kept := h.kept
  recorded := h.recorded
  node hin := by
    obtain ⟨node, -, leaf, record, hnode, -, hrecord, hcached⟩ := h.node hin
    exact ⟨node, leaf, record, hnode, hrecord, hcached⟩
  buffer hin hview := by
    obtain ⟨buffer, -, hcached⟩ := h.buffer hin hview
    rw [hcached]
    rfl
  floating := h.floating
  only := h.only

end Server

end Embers
