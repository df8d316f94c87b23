import Embers.State.Walk

/-!
# What walks depend on

A walk reads the links of the nodes it passes — session, parent, children, active tab — and none
of the rest: flags, titles, sizes drawn at, remembered panes. `Node.bare` keeps just the links,
and two states whose nodes agree there answer every walk alike.
-/

namespace Embers

/-! ## Bare nodes -/

namespace TabEntry

/-- The tab without its title and its option. -/
def bare (tab : TabEntry) : TabEntry := ⟨"", tab.child, false⟩

@[simp] theorem bare_child (tab : TabEntry) : tab.bare.child = tab.child := rfl

end TabEntry

namespace Node

/-- The node with everything erased that walks do not follow. -/
def bare : Node → Node
  | .bufferView node => .bufferView { node with view := ⟨false, false, false, ⟨0, 0, 0, 0⟩⟩ }
  | .split node => .split { node with lastFocusedDescendant := none }
  | .tabs node => .tabs { node with
      tabs := node.tabs.map TabEntry.bare
      lastFocusedDescendant := none }

@[simp] theorem bare_sessionId (node : Node) : node.bare.sessionId = node.sessionId := by
  cases node <;> rfl

@[simp] theorem bare_parent (node : Node) : node.bare.parent = node.parent := by cases node <;> rfl

@[simp] theorem bare_isTabs (node : Node) : node.bare.isTabs = node.isTabs := by cases node <;> rfl

@[simp] theorem bare_isBufferView (node : Node) : node.bare.isBufferView = node.isBufferView := by
  cases node <;> rfl

@[simp] theorem bare_childIds (node : Node) : node.bare.childIds = node.childIds := by
  cases node with
  | bufferView => rfl
  | split => rfl
  | tabs node =>
    simp only [bare, childIds, TabsNode.children, List.map_map]
    rfl

/-- The child a tabs node has active; nothing for any other node. -/
def activeTab : Node → Option NodeId
  | .tabs node => node.activeChild
  | _ => none

/-- The children a walk through active tabs enters. -/
def shownChildren : Node → List NodeId
  | .bufferView _ => []
  | .split node => node.children
  | .tabs node => node.shownChild.toList

@[simp] theorem bare_activeTab (node : Node) : node.bare.activeTab = node.activeTab := by
  cases node with
  | bufferView => rfl
  | split => rfl
  | tabs node =>
    simp only [bare, activeTab, TabsNode.activeChild, List.getElem?_map, Option.map_map]
    rfl

@[simp] theorem bare_shownChildren (node : Node) :
    node.bare.shownChildren = node.shownChildren := by
  cases node with
  | bufferView => rfl
  | split => rfl
  | tabs node =>
    simp only [bare, shownChildren, TabsNode.shownChild, List.getElem?_map, List.head?_map,
      ← Option.map_or, Option.map_map]
    rfl

end Node

namespace ServerState

/-- The links of a node, if it exists. -/
def links (s : ServerState) (nodeId : NodeId) : Option Node := s.nodes[nodeId]?.map Node.bare

/-- The nodes of the two states have the same links. -/
def SameLinks (s s' : ServerState) : Prop := ∀ nodeId, s.links nodeId = s'.links nodeId

theorem SameLinks.refl (s : ServerState) : SameLinks s s := fun _ ↦ rfl

theorem SameLinks.symm {s s' : ServerState} (h : SameLinks s s') : SameLinks s' s :=
  fun nodeId ↦ (h nodeId).symm

theorem SameLinks.trans {s s' s'' : ServerState} (h : SameLinks s s') (h' : SameLinks s' s'') :
    SameLinks s s'' := fun nodeId ↦ (h nodeId).trans (h' nodeId)

variable {s s' : ServerState}

/-- Looking a node up fails in both states or finds nodes with the same links. -/
theorem SameLinks.node (h : SameLinks s s') (nodeId : NodeId) :
    (∃ e, s.node nodeId = .error e ∧ s'.node nodeId = .error e) ∨
    ∃ node node', s.node nodeId = .ok node ∧ s'.node nodeId = .ok node' ∧ node.bare = node'.bare := by
  have hn := h nodeId
  rw [links, links] at hn
  rw [ServerState.node, ServerState.node]
  cases hs : s.nodes[nodeId]? with
  | none =>
    rw [hs, Option.map_none, eq_comm, Option.map_eq_none_iff] at hn
    rw [hn]
    exact .inl ⟨_, rfl, rfl⟩
  | some node =>
    rw [hs, Option.map_some, eq_comm, Option.map_eq_some_iff] at hn
    obtain ⟨node', hs', hbare⟩ := hn
    rw [hs']
    exact .inr ⟨node, node', rfl, rfl, hbare.symm⟩

/-- A field that only depends on the links is read alike. -/
theorem SameLinks.map_node {α : Type} (h : SameLinks s s') {f : Node → α}
    (hf : ∀ node, f node.bare = f node) (nodeId : NodeId) :
    (do pure (f (← s.node nodeId)) : Read α) = (do pure (f (← s'.node nodeId))) := by
  rcases h.node nodeId with ⟨e, hs, hs'⟩ | ⟨node, node', hs, hs', hbare⟩
  · rw [hs, hs']
  · rw [hs, hs', Answer.bind_ok, Answer.bind_ok, ← hf node, ← hf node', hbare]

theorem SameLinks.nodeParent (h : SameLinks s s') (nodeId : NodeId) :
    s.nodeParent nodeId = s'.nodeParent nodeId :=
  h.map_node Node.bare_parent nodeId

theorem SameLinks.nodeSessionId (h : SameLinks s s') (nodeId : NodeId) :
    s.nodeSessionId nodeId = s'.nodeSessionId nodeId :=
  h.map_node Node.bare_sessionId nodeId

theorem SameLinks.ensureNodeBelongsTo (h : SameLinks s s') (nodeId : NodeId)
    (sessionId : SessionId) :
    s.ensureNodeBelongsTo nodeId sessionId = s'.ensureNodeBelongsTo nodeId sessionId := by
  rw [ServerState.ensureNodeBelongsTo, ServerState.ensureNodeBelongsTo]
  rcases h.node nodeId with ⟨e, hs, hs'⟩ | ⟨node, node', hs, hs', hbare⟩
  · rw [hs, hs']
  · have hsession : node.sessionId = node'.sessionId := by
      rw [← node.bare_sessionId, hbare, node'.bare_sessionId]
    simp only [hs, hs', Answer.bind_ok, hsession]

/-! ## Walks -/

theorem SameLinks.topRootForNode (h : SameLinks s s') (fuel : ℕ) (nodeId : NodeId) :
    s.topRootForNode fuel nodeId = s'.topRootForNode fuel nodeId := by
  induction fuel generalizing nodeId with
  | zero => rfl
  | succ fuel ih =>
    rw [ServerState.topRootForNode, ServerState.topRootForNode, h.nodeParent]
    simp only [ih]

theorem SameLinks.subtreeContains (h : SameLinks s s') (needle : NodeId) (fuel : ℕ)
    (rootId : NodeId) :
    s.subtreeContains needle fuel rootId = s'.subtreeContains needle fuel rootId := by
  induction fuel generalizing rootId with
  | zero => rfl
  | succ fuel ih =>
    rw [ServerState.subtreeContains, ServerState.subtreeContains]
    rcases h.node rootId with ⟨e, hs, hs'⟩ | ⟨node, node', hs, hs', hbare⟩
    · simp only [hs, hs', Answer.bind_error]
    · have hkids : node.childIds = node'.childIds := by
        rw [← node.bare_childIds, hbare, node'.bare_childIds]
      simp only [hs, hs', Answer.bind_ok, hkids, ih]

theorem SameLinks.climbsThroughActive (h : SameLinks s s') (rootId nodeId : NodeId) (fuel : ℕ)
    (current : NodeId) :
    s.climbsThroughActive rootId nodeId fuel current =
      s'.climbsThroughActive rootId nodeId fuel current := by
  induction fuel generalizing current with
  | zero => rfl
  | succ fuel ih =>
    rw [ServerState.climbsThroughActive, ServerState.climbsThroughActive, h.nodeParent]
    split
    · rfl
    · congr! 2 with parent
      rcases parent with _ | parent
      · rfl
      rw [Answer.ofOption_some, Answer.bind_ok, Answer.bind_ok]
      rcases h.node parent with ⟨e, hs, hs'⟩ | ⟨node, node', hs, hs', hbare⟩
      · simp only [hs, hs', Answer.bind_error]
      · rw [hs, hs', Answer.bind_ok, Answer.bind_ok]
        have hactive : node.activeTab = node'.activeTab := by
          rw [← node.bare_activeTab, hbare, node'.bare_activeTab]
        cases node <;> cases node' <;> simp_all [Node.bare, Node.activeTab]

theorem SameLinks.isNodeVisibleFrom (h : SameLinks s s') (fuel : ℕ) (rootId nodeId : NodeId) :
    s.isNodeVisibleFrom fuel rootId nodeId = s'.isNodeVisibleFrom fuel rootId nodeId := by
  rw [ServerState.isNodeVisibleFrom, ServerState.isNodeVisibleFrom, h.subtreeContains,
    h.climbsThroughActive]

/-! ## Owners of roots -/

theorem isSessionRoot_iff {nodeId : NodeId} :
    s.isSessionRoot nodeId = true ↔
      ∃ (sessionId : SessionId) (session : Session),
        s.sessions[sessionId]? = some session ∧ session.rootNode = nodeId := by
  rw [isSessionRoot, List.any_eq_true]
  constructor
  · rintro ⟨⟨sessionId, session⟩, hmem, hroot⟩
    exact ⟨sessionId, session, Table.mem_toList.mp hmem, beq_iff_eq.mp hroot⟩
  · rintro ⟨sessionId, session, hsession, hroot⟩
    exact ⟨(sessionId, session), Table.mem_toList.mpr hsession, beq_iff_eq.mpr hroot⟩

theorem floatingIdByRoot_eq_some {rootNode : NodeId} {floatingId : FloatingId}
    (h : s.floatingIdByRoot rootNode = some floatingId) :
    ∃ floating, s.floating[floatingId]? = some floating ∧ floating.rootNode = rootNode := by
  obtain ⟨⟨id, floating⟩, hfind, rfl⟩ := Option.map_eq_some_iff.mp h
  have hroot := List.find?_some hfind
  exact ⟨floating, Table.mem_toList.mp (List.mem_of_find?_eq_some hfind), beq_iff_eq.mp hroot⟩

theorem floatingIdByRoot_eq_none {rootNode : NodeId} :
    s.floatingIdByRoot rootNode = none ↔
      ∀ (floatingId : FloatingId) floating, s.floating[floatingId]? = some floating →
        floating.rootNode ≠ rootNode := by
  rw [floatingIdByRoot, Option.map_eq_none_iff, List.find?_eq_none]
  constructor
  · intro h floatingId floating hfloating hroot
    exact h (floatingId, floating) (Table.mem_toList.mpr hfloating) (beq_iff_eq.mpr hroot)
  · rintro h ⟨floatingId, floating⟩ hmem hroot
    exact h floatingId floating (Table.mem_toList.mp hmem) (beq_iff_eq.mp hroot)

/-- Sessions have the same roots, and floating windows the same roots and the same visibility. -/
structure SameRoots (s s' : ServerState) : Prop where
  session : ∀ sessionId : SessionId,
    s.sessions[sessionId]?.map Session.rootNode = s'.sessions[sessionId]?.map Session.rootNode
  floating : ∀ floatingId : FloatingId,
    s.floating[floatingId]?.map (fun floating ↦ (floating.rootNode, floating.visible)) =
      s'.floating[floatingId]?.map (fun floating ↦ (floating.rootNode, floating.visible))

theorem SameRoots.refl (s : ServerState) : SameRoots s s := ⟨fun _ ↦ rfl, fun _ ↦ rfl⟩

theorem SameRoots.symm (h : SameRoots s s') : SameRoots s' s :=
  ⟨fun sessionId ↦ (h.session sessionId).symm, fun floatingId ↦ (h.floating floatingId).symm⟩

theorem SameRoots.trans {s'' : ServerState} (h : SameRoots s s') (h' : SameRoots s' s'') :
    SameRoots s s'' :=
  ⟨fun sessionId ↦ (h.session sessionId).trans (h'.session sessionId),
    fun floatingId ↦ (h.floating floatingId).trans (h'.floating floatingId)⟩

theorem SameRoots.session_cases (h : SameRoots s s') (sessionId : SessionId) :
    (∃ e, s.session sessionId = .error e ∧ s'.session sessionId = .error e) ∨
    ∃ session session', s.session sessionId = .ok session ∧ s'.session sessionId = .ok session' ∧
      session.rootNode = session'.rootNode := by
  have hroot := h.session sessionId
  rw [ServerState.session, ServerState.session]
  cases hs : s.sessions[sessionId]? <;> cases hs' : s'.sessions[sessionId]? <;>
    simp_all [Answer.fail]

theorem SameRoots.floating_cases (h : SameRoots s s') (floatingId : FloatingId) :
    (∃ e, s.floatingWindow floatingId = .error e ∧ s'.floatingWindow floatingId = .error e) ∨
    ∃ floating floating', s.floatingWindow floatingId = .ok floating ∧
      s'.floatingWindow floatingId = .ok floating' ∧
      floating.rootNode = floating'.rootNode ∧ floating.visible = floating'.visible := by
  have hfloating := h.floating floatingId
  rw [ServerState.floatingWindow, ServerState.floatingWindow]
  cases hs : s.floating[floatingId]? <;> cases hs' : s'.floating[floatingId]? <;>
    simp_all [Answer.fail]

theorem SameRoots.floatingIdByRoot (h : SameRoots s s') (rootNode : NodeId) :
    s.floatingIdByRoot rootNode = s'.floatingIdByRoot rootNode := by
  have hlist := Table.toList_map_congr h.floating
  have hfind := congrArg (fun entries ↦ ((entries.find? fun entry : FloatingId × NodeId × Bool ↦
    entry.2.1 == rootNode).map Prod.fst)) hlist
  simpa only [ServerState.floatingIdByRoot, List.find?_map, Option.map_map, Function.comp_def]
    using hfind

/-- Visibility in a session only depends on the links and the roots. -/
theorem SameLinks.isNodeVisibleInSession (h : SameLinks s s') (hroots : SameRoots s s') (fuel : ℕ)
    (sessionId : SessionId) (nodeId : NodeId) :
    s.isNodeVisibleInSession fuel sessionId nodeId =
      s'.isNodeVisibleInSession fuel sessionId nodeId := by
  rw [ServerState.isNodeVisibleInSession, ServerState.isNodeVisibleInSession,
    h.ensureNodeBelongsTo, h.topRootForNode]
  congr! 3 with _
  funext root
  rw [hroots.floatingIdByRoot]
  rcases hroots.session_cases sessionId with ⟨e, hs, hs'⟩ | ⟨session, session', hs, hs', hroot⟩
  · simp only [hs, hs', Answer.bind_error]
  · simp only [hs, hs', Answer.bind_ok, hroot, h.isNodeVisibleFrom]
    split
    · rfl
    · cases s'.floatingIdByRoot root with
      | none => rfl
      | some floatingId =>
        rcases hroots.floating_cases floatingId with
          ⟨e, hf, hf'⟩ | ⟨floating, floating', hf, hf', -, hvisible⟩
        · simp only [hf, hf', Answer.bind_error]
        · simp only [hf, hf', Answer.bind_ok, hvisible]

end ServerState

end Embers
