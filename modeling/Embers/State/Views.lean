import Embers.State.FocusFrame
import Embers.State.Links
import Embers.State.Move

/-!
# Views and the buffers they show

A buffer's record names the view it is attached to, and a view names the buffer it shows. `Paired`
says that the two tables are inverse to each other: each buffer in at most one view, each view of
a buffer that is attached to it. While a buffer is being moved, the view it moves to is *spare*: it
shows the buffer and the buffer is still attached elsewhere.

Next to that, `Tied` keeps what the operations that make and delete views rely on: ids in use are
below their counters, so that a new id is new, and a session's root is never a view or a split.

Most operations change links, flags and titles only. They keep `SameViews`, and what is tied stays
tied.
-/

namespace Embers

namespace Node

/-- The buffer a node shows. -/
def shows : Node → Option BufferId
  | .bufferView node => some node.bufferId
  | _ => none

/-- What a node is, as far as views go. -/
def kind (node : Node) : Option BufferId × Bool := (node.shows, node.isTabs)

@[simp] theorem kind_setParent (parent : Option NodeId) (node : Node) :
    (node.setParent parent).kind = node.kind := by cases node <;> rfl

@[simp] theorem kind_replaceChildId (oldChild newChild : NodeId) (node : Node) :
    (node.replaceChildId oldChild newChild).kind = node.kind := by cases node <;> rfl

@[simp] theorem kind_removeChildId (child : NodeId) (node : Node) :
    (node.removeChildId child).kind = node.kind := by cases node <;> rfl

@[simp] theorem kind_setLastFocusedDescendant (leaf : Option NodeId) (node : Node) :
    (node.setLastFocusedDescendant leaf).kind = node.kind := by cases node <;> rfl

@[simp] theorem kind_mapTabs (f : TabsNode → TabsNode) (node : Node) :
    (node.mapTabs f).kind = node.kind := by cases node <;> rfl

@[simp] theorem kind_mapSplit (f : SplitNode → SplitNode) (node : Node) :
    (node.mapSplit f).kind = node.kind := by cases node <;> rfl

@[simp] theorem kind_frame (node : Node) : node.frame.kind = node.kind := by cases node <;> rfl

theorem kind_mapView {f : BufferViewNode → BufferViewNode}
    (hf : ∀ view, (f view).bufferId = view.bufferId) (node : Node) :
    (node.mapView f).kind = node.kind := by
  cases node with
  | bufferView view => simp only [mapView, kind, shows, isTabs, hf]
  | split => rfl
  | tabs => rfl

end Node

namespace ServerState

/-- The buffer the node shows, if it is a view. -/
def shown (s : ServerState) (nodeId : NodeId) : Option BufferId := s.nodes[nodeId]?.bind Node.shows

/-- The view the buffer is attached to. -/
def attachedTo (s : ServerState) (bufferId : BufferId) : Option NodeId :=
  s.buffers[bufferId]?.bind fun buffer ↦ buffer.attachment.view

/-- A buffer is attached to a view exactly when the view shows it. -/
def Paired (s : ServerState) : Prop :=
  ∀ nodeId bufferId, s.attachedTo bufferId = some nodeId ↔ s.shown nodeId = some bufferId

/-- Views and buffers name each other, but for the spare view, to which nothing is attached; ids
in use have been handed out; and the root of a session is tabs. -/
structure Tied (spare : Option NodeId) (s : ServerState) : Prop where
  paired (nodeId : NodeId) (bufferId : BufferId) :
    s.attachedTo bufferId = some nodeId ↔ s.shown nodeId = some bufferId ∧ spare ≠ some nodeId
  nodesIssued (nodeId : NodeId) (h : nodeId ∈ s.nodes) : nodeId.raw < s.nodeIds.counter
  buffersIssued (bufferId : BufferId) (h : bufferId ∈ s.buffers) :
    bufferId.raw < s.bufferIds.counter
  rootsIssued (sessionId : SessionId) (session : Session)
    (h : s.sessions[sessionId]? = some session) : session.rootNode.raw < s.nodeIds.counter
  rootsTabs (sessionId : SessionId) (session : Session) (node : Node)
    (h : s.sessions[sessionId]? = some session) (hroot : s.nodes[session.rootNode]? = some node) :
    node.isTabs = true

theorem Tied.isPaired {s : ServerState} (h : Tied none s) : s.Paired := by
  intro nodeId bufferId
  rw [h.paired]
  exact and_iff_left nofun

/-- The same views of the same buffers, attached alike, and no session root that was neither a
root nor tabs. -/
structure SameViews (s s' : ServerState) : Prop where
  nodes (nodeId : NodeId) : s'.nodes[nodeId]?.map Node.kind = s.nodes[nodeId]?.map Node.kind
  attachments (bufferId : BufferId) :
    s'.buffers[bufferId]?.map Buffer.attachment = s.buffers[bufferId]?.map Buffer.attachment
  nodeIds : s'.nodeIds = s.nodeIds
  bufferIds : s'.bufferIds = s.bufferIds
  roots (sessionId : SessionId) (session' : Session)
    (h : s'.sessions[sessionId]? = some session') :
    (∃ (sessionId₀ : SessionId) (session : Session),
      s.sessions[sessionId₀]? = some session ∧ session.rootNode = session'.rootNode) ∨
      ∃ node, s.nodes[session'.rootNode]? = some node ∧ node.isTabs = true

variable {s s' : ServerState} {spare : Option NodeId}

theorem kind_eq_of_map {nodeId : NodeId} {node : Node}
    (h : s'.nodes[nodeId]?.map Node.kind = s.nodes[nodeId]?.map Node.kind)
    (hnode : s'.nodes[nodeId]? = some node) :
    ∃ node₀, s.nodes[nodeId]? = some node₀ ∧ node₀.kind = node.kind := by
  rw [hnode, Option.map_some, eq_comm, Option.map_eq_some_iff] at h
  exact h

theorem SameViews.mem_nodes (h : SameViews s s') (nodeId : NodeId) :
    nodeId ∈ s'.nodes ↔ nodeId ∈ s.nodes := by
  rw [← Std.ExtTreeMap.isSome_getElem?_iff_mem, ← Std.ExtTreeMap.isSome_getElem?_iff_mem,
    ← Option.isSome_map (f := Node.kind), h.nodes, Option.isSome_map]

theorem SameViews.shown (h : SameViews s s') (nodeId : NodeId) :
    s'.shown nodeId = s.shown nodeId := by
  have hkind := congrArg (fun kind : Option (Option BufferId × Bool) ↦ kind.bind Prod.fst)
    (h.nodes nodeId)
  simp only [Option.bind_map] at hkind
  exact hkind

theorem SameViews.attachedTo (h : SameViews s s') (bufferId : BufferId) :
    s'.attachedTo bufferId = s.attachedTo bufferId := by
  have hattachment := congrArg (fun attachment ↦ attachment.bind BufferAttachment.view)
    (h.attachments bufferId)
  simp only [Option.bind_map] at hattachment
  exact hattachment

theorem SameViews.tabs (h : SameViews s s') {nodeId : NodeId}
    (htabs : ∃ node, s.nodes[nodeId]? = some node ∧ node.isTabs = true) :
    ∃ node, s'.nodes[nodeId]? = some node ∧ node.isTabs = true := by
  obtain ⟨node, hnode, htabs⟩ := htabs
  obtain ⟨node', hnode', hkind⟩ := kind_eq_of_map (h.nodes nodeId).symm hnode
  have hsame : node'.isTabs = node.isTabs := congrArg Prod.snd hkind
  exact ⟨node', hnode', hsame.trans htabs⟩

/-- What is tied stays tied. -/
theorem SameViews.tied (h : SameViews s s') (htied : Tied spare s) : Tied spare s' where
  paired nodeId bufferId := by rw [h.attachedTo, h.shown, htied.paired]
  nodesIssued nodeId hmem := by
    rw [h.nodeIds]
    exact htied.nodesIssued nodeId ((h.mem_nodes nodeId).mp hmem)
  buffersIssued bufferId hmem := by
    rw [← Std.ExtTreeMap.isSome_getElem?_iff_mem, ← Option.isSome_map (f := Buffer.attachment),
      h.attachments, Option.isSome_map, Std.ExtTreeMap.isSome_getElem?_iff_mem] at hmem
    rw [h.bufferIds]
    exact htied.buffersIssued bufferId hmem
  rootsIssued sessionId session' hsession' := by
    rw [h.nodeIds]
    rcases h.roots sessionId session' hsession' with
      ⟨sessionId₀, session, hsession, hroot⟩ | ⟨node, hnode, -⟩
    · rw [← hroot]
      exact htied.rootsIssued sessionId₀ session hsession
    · refine htied.nodesIssued _ ?_
      rw [← Std.ExtTreeMap.isSome_getElem?_iff_mem, hnode]
      rfl
  rootsTabs sessionId session' node hsession' hnode := by
    obtain ⟨node₀, hnode₀, hkind⟩ := kind_eq_of_map (h.nodes _) hnode
    have htabs : node₀.isTabs = node.isTabs := congrArg Prod.snd hkind
    rw [← htabs]
    rcases h.roots sessionId session' hsession' with
      ⟨sessionId₀, session, hsession, hroot⟩ | ⟨root, hroot, hrootTabs⟩
    · rw [← hroot] at hnode₀
      exact htied.rootsTabs sessionId₀ session node₀ hsession hnode₀
    · rw [hnode₀, Option.some_inj] at hroot
      rw [hroot, hrootTabs]

instance : Std.Refl SameViews :=
  ⟨fun _ ↦ ⟨fun _ ↦ rfl, fun _ ↦ rfl, rfl, rfl, fun sessionId session h ↦
    .inl ⟨sessionId, session, h, rfl⟩⟩⟩

instance : IsTrans ServerState SameViews where
  trans s t u hst htu := by
    refine ⟨fun nodeId ↦ (htu.nodes nodeId).trans (hst.nodes nodeId),
      fun bufferId ↦ (htu.attachments bufferId).trans (hst.attachments bufferId),
      htu.nodeIds.trans hst.nodeIds, htu.bufferIds.trans hst.bufferIds, ?_⟩
    intro sessionId session hsession
    rcases htu.roots sessionId session hsession with
      ⟨sessionId₁, session₁, hsession₁, hroot⟩ | ⟨node, hnode, htabs⟩
    · have hroots := hst.roots sessionId₁ session₁ hsession₁
      rwa [hroot] at hroots
    · obtain ⟨node₀, hnode₀, hkind⟩ := kind_eq_of_map (hst.nodes _) hnode
      have htabs' : node₀.isTabs = node.isTabs := congrArg Prod.snd hkind
      exact .inr ⟨node₀, hnode₀, htabs'.trans htabs⟩

/-! ## Single changes -/

theorem sameViews_mapNode (s : ServerState) (nodeId : NodeId) {f : Node → Node}
    (hf : ∀ node, (f node).kind = node.kind) : SameViews s (s.mapNode nodeId f) := by
  refine ⟨fun nodeId' ↦ ?_, fun _ ↦ rfl, rfl, rfl, fun sessionId session h ↦
    .inl ⟨sessionId, session, h, rfl⟩⟩
  rw [mapNode, Table.get?_modify]
  split
  · rw [Option.map_map, show Node.kind ∘ f = Node.kind from funext hf]
  · rfl

theorem sameViews_mapBuffer (s : ServerState) (bufferId : BufferId) {f : Buffer → Buffer}
    (hf : ∀ buffer, (f buffer).attachment = buffer.attachment) :
    SameViews s (s.mapBuffer bufferId f) := by
  refine ⟨fun _ ↦ rfl, fun bufferId' ↦ ?_, rfl, rfl, fun sessionId session h ↦
    .inl ⟨sessionId, session, h, rfl⟩⟩
  rw [mapBuffer, Table.get?_modify]
  split
  · rw [Option.map_map, show Buffer.attachment ∘ f = Buffer.attachment from funext hf]
  · rfl

/-- A change of sessions and popups that makes no node a session's root. -/
theorem sameViews_of_sessions (hnodes : s'.nodes = s.nodes) (hbuffers : s'.buffers = s.buffers)
    (hnodeIds : s'.nodeIds = s.nodeIds) (hbufferIds : s'.bufferIds = s.bufferIds)
    (hroots : ∀ (sessionId : SessionId) (session' : Session),
      s'.sessions[sessionId]? = some session' → ∃ (sessionId₀ : SessionId) (session : Session),
        s.sessions[sessionId₀]? = some session ∧ session.rootNode = session'.rootNode) :
    SameViews s s' :=
  ⟨fun _ ↦ by rw [hnodes], fun _ ↦ by rw [hbuffers], hnodeIds, hbufferIds,
    fun sessionId session' h ↦ .inl (hroots sessionId session' h)⟩

theorem sameViews_mapSession (s : ServerState) (sessionId : SessionId) {f : Session → Session}
    (hf : ∀ session, (f session).rootNode = session.rootNode) :
    SameViews s (s.mapSession sessionId f) := by
  refine sameViews_of_sessions rfl rfl rfl rfl fun sessionId' session' h ↦ ?_
  rw [mapSession, Table.get?_modify] at h
  split at h
  · obtain ⟨session, hsession, rfl⟩ := Option.map_eq_some_iff.mp h
    exact ⟨sessionId', session, hsession, (hf session).symm⟩
  · exact ⟨sessionId', session', h, rfl⟩

/-- A change of popups only. -/
theorem sameViews_floating (s : ServerState) (floating : Table FloatingId FloatingWindow)
    (floatingIds : IdAllocator .floating) : SameViews s { s with floating, floatingIds } :=
  sameViews_of_sessions rfl rfl rfl rfl fun sessionId session h ↦ ⟨sessionId, session, h, rfl⟩

/-- Focusing changes no view. -/
theorem SameFrame.sameViews (h : SameFrame s s') : SameViews s s' := by
  have hnodes := fun nodeId : NodeId ↦ congrArg (fun t : ServerState ↦ t.nodes[nodeId]?) h
  have hbuffers := fun bufferId : BufferId ↦ congrArg (fun t : ServerState ↦ t.buffers[bufferId]?) h
  have hsessions := fun sessionId : SessionId ↦
    congrArg (fun t : ServerState ↦ t.sessions[sessionId]?) h
  simp only [frame, Std.ExtTreeMap.getElem?_map] at hnodes hbuffers hsessions
  refine ⟨fun nodeId ↦ ?_, fun bufferId ↦ ?_, (congrArg ServerState.nodeIds h).symm,
    (congrArg ServerState.bufferIds h).symm, fun sessionId session' hsession' ↦ .inl ?_⟩
  · have hkind := congrArg (Option.map Node.kind) (hnodes nodeId)
    simp only [Option.map_map, Function.comp_def, Node.kind_frame] at hkind
    exact hkind.symm
  · have hattachment := congrArg (Option.map Buffer.attachment) (hbuffers bufferId)
    simp only [Option.map_map] at hattachment
    exact hattachment.symm
  · have hsession := hsessions sessionId
    rw [hsession', Option.map_some, Option.map_eq_some_iff] at hsession
    obtain ⟨session, hsession, hframe⟩ := hsession
    have hroot : session.frame.rootNode = session'.frame.rootNode := by rw [hframe]
    exact ⟨sessionId, session, hsession, hroot⟩

end ServerState

end Embers
