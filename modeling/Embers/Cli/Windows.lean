import Embers.Cli.Resolve

/-!
# Consistent sessions

What the server promises about the sessions it describes: every link leads to a node of the same
session that links back, no chain of links goes on for ever, every node has the data of its kind,
and the places it reports for buffers are the places where the snapshots show them. A session may
have no window at all.

In a consistent session both walks of the target resolver return. The walk down from a window finds
panes that are below the window, and the walk up from anything below a window finds that window.
-/

namespace Embers.Cli

open Embers.Protocol

/-- The snapshot's record of a node. -/
def Has (snapshot : SessionSnapshot) (nodeId : NodeId) (node : NodeRecord) : Prop :=
  snapshot.nodes.find? (·.id = nodeId) = some node

/-- The nodes a node's record lists as its children. -/
def childrenOf (node : NodeRecord) : List NodeId :=
  match node.kind with
  | .bufferView => []
  | .split => (node.split.map (·.childIds)).getD []
  | .tabs => (node.tabs.map fun tabs ↦ tabs.tabs.map (·.childId)).getD []

/-- A node has the data of its kind, and shows something unless it is the session's root. -/
def Shaped (rootId : NodeId) (node : NodeRecord) : Prop :=
  match node.kind with
  | .bufferView => node.bufferView.isSome
  | .split => ∃ split, node.split = some split ∧ split.childIds ≠ []
  | .tabs => ∃ tabs, node.tabs = some tabs ∧
      (node.id ≠ rootId → tabs.active.toNat < tabs.tabs.length)

/-- A node is below another by the chain of its parents, or the same. -/
inductive Under (snapshot : SessionSnapshot) (top : NodeId) : NodeId → Prop
  | top : Under snapshot top top
  | link {nodeId parentId : NodeId} {node : NodeRecord} (hnode : Has snapshot nodeId node)
      (hparent : node.parentId = some parentId) (h : Under snapshot top parentId) :
      Under snapshot top nodeId

/-- The windows of a session, as its root tabs list them. -/
def windows (snapshot : SessionSnapshot) : List NodeId :=
  ((snapshot.nodes.find? (·.id = snapshot.session.rootNodeId)).map childrenOf).getD []

/-- The node is in one of the session's windows. -/
def InWindow (snapshot : SessionSnapshot) (nodeId : NodeId) : Prop :=
  ∃ childId ∈ windows snapshot, Under snapshot childId nodeId

/-- A session whose links agree. Ranks grow along them from parents to children. -/
structure Intact (rank : NodeId → ℕ) (depth : ℕ) (snapshot : SessionSnapshot) : Prop where
  nodup : (snapshot.nodes.map (·.id)).Nodup
  root : ∃ node, Has snapshot snapshot.session.rootNodeId node ∧ node.kind = .tabs ∧
    node.parentId = none
  shaped : ∀ node ∈ snapshot.nodes, Shaped snapshot.session.rootNodeId node
  linked : ∀ node ∈ snapshot.nodes, ∀ childId ∈ childrenOf node,
    ∃ child, Has snapshot childId child ∧ child.parentId = some node.id
  ranked : ∀ node ∈ snapshot.nodes, rank node.id ≤ depth ∧
    ∀ parentId, node.parentId = some parentId → rank parentId < rank node.id

/-- What the server answers, and what it was asked about, is consistent. -/
structure Consistent (w : Connection) : Prop where
  sessionIds : (w.sessions.map (·.id)).Nodup
  intact : ∃ rank depth, ∀ snapshot ∈ w.snapshots, Intact rank depth snapshot
  /-- No node is in two sessions. -/
  apart : ∀ first ∈ w.snapshots, ∀ second ∈ w.snapshots, ∀ nodeId node node',
    Has first nodeId node → Has second nodeId node' → first = second
  /-- The panes of windows are where their buffers are said to be. -/
  located : ∀ snapshot ∈ w.snapshots, ∀ nodeId node view, Has snapshot nodeId node →
    node.bufferView = some view → InWindow snapshot nodeId →
    w.location view.bufferId = some (.session snapshot.session.id nodeId)
  /-- A buffer said to be in a session's window is there. -/
  shown : ∀ bufferId sessionId nodeId, w.location bufferId = some (.session sessionId nodeId) →
    ∃ snapshot ∈ w.snapshots, snapshot.session.id = sessionId ∧ InWindow snapshot nodeId
  /-- The server knows the buffer of the pane the command runs in. -/
  caller : ∀ bufferId, w.paneBuffer = some bufferId → (w.location bufferId).isSome

/-! ## Records -/

section

variable {snapshot : SessionSnapshot} {nodeId : NodeId} {node : NodeRecord}

theorem Has.mem (h : Has snapshot nodeId node) : node ∈ snapshot.nodes :=
  List.mem_of_find?_eq_some h

theorem Has.id (h : Has snapshot nodeId node) : node.id = nodeId := by
  have hid := List.find?_some h
  exact of_decide_eq_true hid

theorem Has.nodeRecord (h : Has snapshot nodeId node) : nodeRecord snapshot nodeId = .ok node := by
  rw [Cli.nodeRecord, show snapshot.nodes.find? (·.id = nodeId) = some node from h]
  rfl

theorem has_of_nodeRecord (h : nodeRecord snapshot nodeId = .ok node) : Has snapshot nodeId node :=
  Answer.ofOption_eq_ok.mp h

theorem Under.trans {snapshot : SessionSnapshot} {top middle nodeId : NodeId}
    (h : Under snapshot top middle) (h' : Under snapshot middle nodeId) :
    Under snapshot top nodeId := by
  induction h' with
  | top => exact h
  | link hnode hparent _ ih => exact .link hnode hparent ih

end

namespace Intact

variable {rank : NodeId → ℕ} {depth : ℕ} {snapshot : SessionSnapshot}

/-- The root is tabs, and its tabs are the windows. -/
theorem rootTabs_ok (h : Intact rank depth snapshot) :
    ∃ node tabs, rootTabs snapshot = .ok (node, tabs) ∧
      node.id = snapshot.session.rootNodeId ∧ windows snapshot = tabs.tabs.map (·.childId) := by
  obtain ⟨node, hnode, hkind, -⟩ := h.root
  have hshaped := h.shaped node hnode.mem
  rw [Shaped, hkind] at hshaped
  obtain ⟨tabs, htabs, -⟩ := hshaped
  refine ⟨node, tabs, ?_, hnode.id, ?_⟩
  · rw [rootTabs, hnode.nodeRecord, Answer.bind_ok, htabs]
    rfl
  · rw [windows, show snapshot.nodes.find? _ = some node from hnode]
    simp only [Option.map_some, Option.getD_some, childrenOf, hkind, htabs]

/-- Every window is a node below the root. -/
theorem window_has (h : Intact rank depth snapshot) {childId : NodeId}
    (hchild : childId ∈ windows snapshot) :
    ∃ child, Has snapshot childId child ∧
      child.parentId = some snapshot.session.rootNodeId := by
  obtain ⟨node, hnode, -⟩ := h.root
  rw [windows, show snapshot.nodes.find? _ = some node from hnode, Option.map_some,
    Option.getD_some] at hchild
  obtain ⟨child, hhas, hparent⟩ := h.linked node hnode.mem childId hchild
  rw [hnode.id] at hparent
  exact ⟨child, hhas, hparent⟩

theorem rank_le_of_under (h : Intact rank depth snapshot) {top nodeId : NodeId}
    (hunder : Under snapshot top nodeId) : rank top ≤ rank nodeId := by
  induction hunder with
  | top => exact Nat.le_refl _
  | link hnode hparent _ ih =>
    have hlt := (h.ranked _ hnode.mem).2 _ hparent
    rw [hnode.id] at hlt
    omega

/-! ## The walk up -/

theorem rootChild_ok (h : Intact rank depth snapshot) {childId nodeId origin : NodeId}
    (hchild : childId ∈ windows snapshot) (hunder : Under snapshot childId nodeId) :
    ∀ {fuel : ℕ}, rank nodeId < fuel →
      rootChild snapshot snapshot.session.rootNodeId origin fuel nodeId = .ok childId := by
  obtain ⟨child, hhas, hroot⟩ := h.window_has hchild
  induction hunder with
  | top =>
    intro fuel hfuel
    obtain ⟨fuel, rfl⟩ : ∃ n, fuel = n + 1 := ⟨fuel - 1, by omega⟩
    rw [rootChild, hhas.nodeRecord, Answer.bind_ok, hroot]
    exact if_pos rfl
  | @link nodeId parentId node hnode hparent habove ih =>
    intro fuel hfuel
    obtain ⟨fuel, rfl⟩ : ∃ n, fuel = n + 1 := ⟨fuel - 1, by omega⟩
    have hlt := (h.ranked _ hnode.mem).2 _ hparent
    rw [hnode.id] at hlt
    -- The parent is the window or below it, so it is not the root.
    have hne : parentId ≠ snapshot.session.rootNodeId := by
      rintro rfl
      have hwindow := (h.ranked _ hhas.mem).2 _ hroot
      rw [hhas.id] at hwindow
      have hle := h.rank_le_of_under habove
      omega
    rw [rootChild, hnode.nodeRecord, Answer.bind_ok, hparent]
    refine (if_neg hne).trans ?_
    exact ih (by omega)

/-- What is below a window is found in that window. -/
theorem windowContaining_ok (h : Intact rank depth snapshot) {childId nodeId : NodeId}
    (hchild : childId ∈ windows snapshot) (hunder : Under snapshot childId nodeId) {fuel : ℕ}
    (hfuel : rank nodeId < fuel) :
    ∃ index, windowContaining fuel snapshot nodeId = .ok (index, childId) ∧
      (windows snapshot).findIdx? (· = childId) = some index := by
  obtain ⟨node, tabs, hroot, hid, hwindows⟩ := h.rootTabs_ok
  have hsome : ((windows snapshot).findIdx? (· = childId)).isSome := by
    rw [List.findIdx?_isSome]
    exact List.any_eq_true.mpr ⟨childId, hchild, by simp⟩
  obtain ⟨index, hindex⟩ := Option.isSome_iff_exists.mp hsome
  refine ⟨index, ?_, hindex⟩
  rw [hwindows, List.findIdx?_map] at hindex
  rw [windowContaining, hroot, Answer.bind_ok]
  simp only [hid]
  rw [h.rootChild_ok hchild hunder hfuel, Answer.bind_ok]
  have hindex' : tabs.tabs.findIdx? (·.childId = childId) = some index := hindex
  rw [hindex']
  rfl

/-! ## The walk down -/

/-- The walk down from a node that has a parent returns, and finds a pane. -/
theorem visibleLeafIds_ok (h : Intact rank depth snapshot) :
    ∀ {fuel : ℕ} {nodeId : NodeId} {node : NodeRecord}, Has snapshot nodeId node →
      node.parentId ≠ none → depth < rank nodeId + fuel →
      ∃ leaves, visibleLeafIds snapshot fuel nodeId = .ok leaves ∧ leaves ≠ []
  | 0, nodeId, node, hnode, _, hfuel => by
    have hle := (h.ranked _ hnode.mem).1
    rw [hnode.id] at hle
    omega
  | fuel + 1, nodeId, node, hnode, hparent, hfuel => by
    have hchild : ∀ childId ∈ childrenOf node,
        ∃ leaves, visibleLeafIds snapshot fuel childId = .ok leaves ∧ leaves ≠ [] := by
      intro childId hmem
      obtain ⟨child, hhas, hback⟩ := h.linked node hnode.mem childId hmem
      have hlt := (h.ranked _ hhas.mem).2 _ hback
      rw [hhas.id, hnode.id] at hlt
      refine h.visibleLeafIds_ok hhas (by simp [hback]) (by omega)
    have hshaped := h.shaped node hnode.mem
    rw [visibleLeafIds, hnode.nodeRecord, Answer.bind_ok]
    rw [Shaped] at hshaped
    cases hkind : node.kind with
    | bufferView => exact ⟨[node.id], rfl, List.cons_ne_nil _ _⟩
    | split =>
      rw [hkind] at hshaped
      obtain ⟨split, hsplit, hne⟩ := hshaped
      simp only [childrenOf, hkind, hsplit, Option.map_some, Option.getD_some] at hchild
      simp only [hsplit]
      exact Answer.collect_ok_ne_nil hne hchild
    | tabs =>
      rw [hkind] at hshaped
      obtain ⟨tabs, htabs, hactive⟩ := hshaped
      simp only [childrenOf, hkind, htabs, Option.map_some, Option.getD_some] at hchild
      -- A node with a parent is not the root.
      have hroot : node.id ≠ snapshot.session.rootNodeId := by
        obtain ⟨root, hroot, -, hnone⟩ := h.root
        intro heq
        have hsame : Has snapshot nodeId root := by
          rwa [← hnode.id, heq]
        rw [Has] at hnode hsame
        rw [hnode] at hsame
        cases hsame
        exact hparent hnone
      obtain ⟨tab, htab⟩ : ∃ tab, protocolTab tabs tabs.active.toNat = some tab :=
        ⟨_, List.getElem?_eq_getElem (hactive hroot)⟩
      simp only [htabs, htab]
      exact hchild _ (List.mem_map.mpr ⟨tab, List.mem_of_getElem? htab, rfl⟩)

/-- The walk down finds panes below where it starts. -/
theorem under_of_mem_visibleLeafIds (h : Intact rank depth snapshot) :
    ∀ {fuel : ℕ} {nodeId leafId : NodeId} {leaves : List NodeId},
      visibleLeafIds snapshot fuel nodeId = .ok leaves → leafId ∈ leaves →
      Under snapshot nodeId leafId ∧
        ∃ leaf view, Has snapshot leafId leaf ∧ leaf.kind = .bufferView ∧
          leaf.bufferView = some view
  | 0, _, _, _, hwalk, _ => nomatch hwalk
  | fuel + 1, nodeId, leafId, leaves, hwalk, hleaf => by
    obtain ⟨node, hnode, hwalk⟩ := Answer.ok_bind hwalk
    have hhas := has_of_nodeRecord hnode
    have hshaped := h.shaped node hhas.mem
    have hchild : ∀ childId ∈ childrenOf node, ∀ leaves',
        visibleLeafIds snapshot fuel childId = .ok leaves' → leafId ∈ leaves' →
        Under snapshot nodeId leafId ∧
          ∃ leaf view, Has snapshot leafId leaf ∧ leaf.kind = .bufferView ∧
            leaf.bufferView = some view := by
      intro childId hmem leaves' hwalk' hleaf'
      obtain ⟨child, hhas', hback⟩ := h.linked node hhas.mem childId hmem
      rw [hhas.id] at hback
      obtain ⟨hunder, hview⟩ := h.under_of_mem_visibleLeafIds hwalk' hleaf'
      exact ⟨(Under.link hhas' hback .top).trans hunder, hview⟩
    rw [Shaped] at hshaped
    cases hkind : node.kind with
    | bufferView =>
      rw [hkind] at hwalk hshaped
      obtain ⟨view, hview⟩ := Option.isSome_iff_exists.mp hshaped
      cases hwalk
      rw [List.mem_singleton, hhas.id] at hleaf
      subst hleaf
      exact ⟨.top, node, view, hhas, hkind, hview⟩
    | split =>
      rw [hkind] at hwalk hshaped
      obtain ⟨split, hsplit, -⟩ := hshaped
      simp only [childrenOf, hkind, hsplit, Option.map_some, Option.getD_some] at hchild
      simp only [hsplit] at hwalk
      obtain ⟨childId, hmem, leaves', hwalk', hleaf'⟩ := Answer.mem_collect hwalk hleaf
      exact hchild childId hmem leaves' hwalk' hleaf'
    | tabs =>
      rw [hkind] at hwalk hshaped
      obtain ⟨tabs, htabs, -⟩ := hshaped
      simp only [childrenOf, hkind, htabs, Option.map_some, Option.getD_some] at hchild
      simp only [htabs] at hwalk
      cases htab : protocolTab tabs tabs.active.toNat with
      | none =>
        rw [htab] at hwalk
        cases hwalk
      | some tab =>
        rw [htab] at hwalk
        exact hchild tab.childId (List.mem_map.mpr ⟨tab, List.mem_of_getElem? htab, rfl⟩) leaves
          hwalk hleaf

end Intact

end Embers.Cli
