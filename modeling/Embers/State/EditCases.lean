import Embers.State.Edit
import Embers.State.Links

/-!
# What an edit of the links can do

One lemma for each operation that rewrites child lists and owners: it fails and leaves the state
alone, or it succeeds and the state it leaves is one of a few, written out. Everything that is
proved about links goes through these, and none of it unfolds the operations again.
-/

namespace Embers

/-! ## Child lists -/

theorem map_replaceF_child (oldChild newChild : NodeId) (tabs : List TabEntry) :
    (tabs.replaceF fun tab ↦ if tab.child = oldChild then some { tab with child := newChild }
      else none).map TabEntry.child = (tabs.map TabEntry.child).replace oldChild newChild := by
  induction tabs with
  | nil => rfl
  | cons tab tabs ih =>
    rw [List.replaceF_cons, List.map_cons, List.replace_cons]
    by_cases h : tab.child = oldChild
    · rw [if_pos h, h, beq_self_eq_true]
      rfl
    · rw [if_neg h, beq_false_of_ne (Ne.symm h), List.map_cons, ih]

theorem map_eraseP_child (childId : NodeId) (tabs : List TabEntry) :
    (tabs.eraseP fun tab ↦ tab.child = childId).map TabEntry.child =
      (tabs.map TabEntry.child).erase childId := by
  induction tabs with
  | nil => rfl
  | cons tab tabs ih =>
    rw [List.eraseP_cons, List.map_cons, List.erase_cons]
    by_cases h : tab.child = childId
    · simp only [h, decide_true, cond_true, beq_self_eq_true, if_true]
    · simp only [h, decide_false, cond_false, List.map_cons, ih, beq_iff_eq, if_false]

namespace Node

@[simp] theorem childIds_replaceChildId (oldChild newChild : NodeId) (node : Node) :
    (node.replaceChildId oldChild newChild).childIds = node.childIds.replace oldChild newChild := by
  cases node with
  | bufferView => rfl
  | split => rfl
  | tabs node => exact map_replaceF_child oldChild newChild node.tabs

@[simp] theorem childIds_removeChildId (childId : NodeId) (node : Node) :
    (node.removeChildId childId).childIds = node.childIds.erase childId := by
  cases node with
  | bufferView => rfl
  | split => rfl
  | tabs node => exact map_eraseP_child childId node.tabs

@[simp] theorem childIds_setParent (parent : Option NodeId) (node : Node) :
    (node.setParent parent).childIds = node.childIds := by cases node <;> rfl

@[simp] theorem childIds_setLastFocusedDescendant (leaf : Option NodeId) (node : Node) :
    (node.setLastFocusedDescendant leaf).childIds = node.childIds := by cases node <;> rfl

@[simp] theorem parent_replaceChildId (oldChild newChild : NodeId) (node : Node) :
    (node.replaceChildId oldChild newChild).parent = node.parent := by cases node <;> rfl

@[simp] theorem parent_removeChildId (childId : NodeId) (node : Node) :
    (node.removeChildId childId).parent = node.parent := by cases node <;> rfl

@[simp] theorem parent_setLastFocusedDescendant (leaf : Option NodeId) (node : Node) :
    (node.setLastFocusedDescendant leaf).parent = node.parent := by cases node <;> rfl

@[simp] theorem parent_setParent (parent : Option NodeId) (node : Node) :
    (node.setParent parent).parent = parent := by cases node <;> rfl

theorem setParent_parent (node : Node) : node.setParent node.parent = node := by cases node <;> rfl

end Node

theorem mem_replace_self {α : Type} [BEq α] [LawfulBEq α] {a b : α} {l : List α} (h : a ∈ l) :
    b ∈ l.replace a b := by
  induction l with
  | nil => cases h
  | cons c l ih =>
    rw [List.replace_cons]
    split
    · exact List.mem_cons_self
    next hne =>
      rcases List.mem_cons.mp h with rfl | h
      · rw [beq_self_eq_true] at hne
        cases hne
      · exact List.mem_cons_of_mem _ (ih h)

theorem mem_replace_of_ne {α : Type} [BEq α] [LawfulBEq α] {a b c : α} {l : List α} (h : c ∈ l)
    (hne : c ≠ a) : c ∈ l.replace a b := by
  induction l with
  | nil => cases h
  | cons d l ih =>
    rw [List.replace_cons]
    split
    next heq =>
      rcases List.mem_cons.mp h with rfl | h
      · exact absurd (eq_of_beq heq).symm hne
      · exact List.mem_cons_of_mem _ h
    next =>
      rcases List.mem_cons.mp h with rfl | h
      · exact List.mem_cons_self
      · exact List.mem_cons_of_mem _ (ih h)

namespace ServerState

open Op

variable {s s' : ServerState}

/-! ## Lookups -/

theorem nodeParent_eq_ok {nodeId : NodeId} {parent : Option NodeId} :
    s.nodeParent nodeId = .ok parent ↔
      ∃ node, s.nodes[nodeId]? = some node ∧ node.parent = parent := by
  rw [nodeParent, ServerState.node]
  cases s.nodes[nodeId]? with
  | none =>
    constructor
    · intro h
      cases h
    · rintro ⟨node, hnone, -⟩
      cases hnone
  | some node =>
    constructor
    · intro h
      cases h
      exact ⟨node, rfl, rfl⟩
    · rintro ⟨node', hnode', rfl⟩
      cases hnode'
      rfl

theorem nodeSessionId_eq_ok {nodeId : NodeId} {sessionId : SessionId} :
    s.nodeSessionId nodeId = .ok sessionId ↔
      ∃ node, s.nodes[nodeId]? = some node ∧ node.sessionId = sessionId := by
  rw [nodeSessionId, ServerState.node]
  cases s.nodes[nodeId]? with
  | none =>
    constructor
    · intro h
      cases h
    · rintro ⟨node, hnone, -⟩
      cases hnone
  | some node =>
    constructor
    · intro h
      cases h
      exact ⟨node, rfl, rfl⟩
    · rintro ⟨node', hnode', rfl⟩
      cases hnode'
      rfl

theorem ensureNodeBelongsTo_eq_ok {nodeId : NodeId} {sessionId : SessionId} :
    s.ensureNodeBelongsTo nodeId sessionId = .ok () ↔
      ∃ node, s.nodes[nodeId]? = some node ∧ node.sessionId = sessionId := by
  rw [ensureNodeBelongsTo, ServerState.node]
  cases s.nodes[nodeId]? with
  | none =>
    constructor
    · intro h
      cases h
    · rintro ⟨node, hnone, -⟩
      cases hnone
  | some node =>
    simp only [Answer.ofOption_some, Answer.bind_ok, Option.some_inj, exists_eq_left']
    split
    next hne => exact iff_of_false Answer.fail_ne_ok hne
    next heq => exact iff_of_true rfl (not_not.mp heq)

theorem mem_nodes_iff {nodeId : NodeId} :
    nodeId ∈ s.nodes ↔ ∃ node, s.nodes[nodeId]? = some node := by
  rw [← Std.ExtTreeMap.isSome_getElem?_iff_mem, Option.isSome_iff_exists]

/-- The node keeps a list of children in which the other one stands. -/
def Lists (s : ServerState) (parentId childId : NodeId) : Prop :=
  ∃ parent, s.nodes[parentId]? = some parent ∧ childId ∈ parent.childIds

/-! ## Single changes -/

theorem setParent_eq {nodeId : NodeId} (parent : Option NodeId) (h : nodeId ∈ s.nodes) :
    setParent nodeId parent s = (.ok (), s.mapNode nodeId (Node.setParent parent)) := by
  obtain ⟨node, hnode⟩ := mem_nodes_iff.mp h
  rw [setParent, nodeMut, bind_apply, ask_apply, ServerState.node, hnode]
  rfl

theorem mem_nodes_mapNode {nodeId nodeId' : NodeId} {f : Node → Node} :
    nodeId ∈ (s.mapNode nodeId' f).nodes ↔ nodeId ∈ s.nodes := Std.ExtTreeMap.mem_modify

/-- The state after `childId` leaves the child list of its parent. -/
def unlink (parentId childId : NodeId) (s : ServerState) : ServerState :=
  (s.mapNode parentId (Node.removeChildId childId)).mapNode childId (Node.setParent none)

theorem removeChild_cases {parentId childId : NodeId} (hchild : childId ∈ s.nodes) :
    (¬ s.Lists parentId childId ∧ ∃ e, removeChild parentId childId s = (.error e, s)) ∨
    s.Lists parentId childId ∧
      removeChild parentId childId s = (.ok (), s.unlink parentId childId) := by
  rw [removeChild, bind_apply, ask_apply, ServerState.node]
  cases hparent : s.nodes[parentId]? with
  | none =>
    refine .inl ⟨?_, _, rfl⟩
    rintro ⟨parent, hsome, -⟩
    rw [hparent] at hsome
    cases hsome
  | some parent =>
    have hlists : s.Lists parentId childId ↔ childId ∈ parent.childIds := by
      rw [Lists, hparent]
      constructor
      · rintro ⟨parent', heq, hmem⟩
        cases heq
        exact hmem
      · intro hmem
        exact ⟨parent, rfl, hmem⟩
    simp only [Answer.ofOption_some]
    split
    next hview =>
      refine .inl ⟨?_, _, rfl⟩
      rw [hlists]
      cases parent with
      | bufferView => exact List.not_mem_nil
      | split => cases hview
      | tabs => cases hview
    · split
      next hmem =>
        refine .inr ⟨hlists.mpr hmem, ?_⟩
        rw [modify_bind_apply, setParent_eq none (mem_nodes_mapNode.mpr hchild)]
        rfl
      next hnot => exact .inl ⟨fun h ↦ hnot (hlists.mp h), _, rfl⟩

/-- The state after `newChild` takes the place of `oldChild` in a child list. -/
def relink (parentId oldChild newChild : NodeId) (s : ServerState) : ServerState :=
  ((s.mapNode parentId (Node.replaceChildId oldChild newChild)).mapNode oldChild
    (Node.setParent none)).mapNode newChild (Node.setParent (some parentId))

theorem replaceChild_cases (parentId oldChild newChild : NodeId) (s : ServerState) :
    (∃ e, replaceChild parentId oldChild newChild s = (.error e, s)) ∨
    s.Lists parentId oldChild ∧
      (∃ parent new, s.nodes[parentId]? = some parent ∧ s.nodes[newChild]? = some new ∧
        new.sessionId = parent.sessionId) ∧
      replaceChild parentId oldChild newChild s = (.ok (), s.relink parentId oldChild newChild) := by
  rw [replaceChild, bind_apply, ask_apply]
  cases hsession : s.nodeSessionId parentId with
  | error e => exact .inl ⟨e, rfl⟩
  | ok sessionId =>
    obtain ⟨parent, hparent, rfl⟩ := nodeSessionId_eq_ok.mp hsession
    simp only
    rw [bind_apply, ask_apply]
    cases hold : s.ensureNodeBelongsTo oldChild parent.sessionId with
    | error e => exact .inl ⟨e, rfl⟩
    | ok =>
      obtain ⟨old, hold, -⟩ := ensureNodeBelongsTo_eq_ok.mp hold
      simp only
      rw [bind_apply, ask_apply]
      cases hnew : s.ensureNodeBelongsTo newChild parent.sessionId with
      | error e => exact .inl ⟨e, rfl⟩
      | ok =>
        obtain ⟨new, hnew, hsame⟩ := ensureNodeBelongsTo_eq_ok.mp hnew
        have hold' : oldChild ∈ s.nodes := mem_nodes_iff.mpr ⟨old, hold⟩
        have hnew' : newChild ∈ s.nodes := mem_nodes_iff.mpr ⟨new, hnew⟩
        simp only
        rw [bind_apply, ask_apply, ServerState.node, hparent]
        simp only [Answer.ofOption_some]
        split
        · exact .inl ⟨_, rfl⟩
        · split
          next hmem =>
            refine .inr ⟨⟨parent, hparent, hmem⟩, ⟨parent, new, rfl, hnew, hsame⟩, ?_⟩
            rw [modify_bind_apply, bind_of_ok (setParent_eq none (mem_nodes_mapNode.mpr hold')),
              setParent_eq (some parentId)
                (mem_nodes_mapNode.mpr (mem_nodes_mapNode.mpr hnew'))]
            rfl
          · exact .inl ⟨_, rfl⟩

/-- The state after the session's root is another node. -/
def reroot (sessionId : SessionId) (newNode : NodeId) (s : ServerState) : ServerState :=
  (s.mapSession sessionId fun session ↦ { session with rootNode := newNode }).mapNode newNode
    (Node.setParent none)

/-- The state after the popup's root is another node. -/
def refloat (floatingId : FloatingId) (newNode : NodeId) (s : ServerState) : ServerState :=
  (s.mapFloating floatingId fun floating ↦ { floating with rootNode := newNode }).mapNode newNode
    (Node.setParent none)

theorem repointRoot_cases (sessionId : SessionId) (oldNode : NodeId) {newNode : NodeId}
    (hnew : newNode ∈ s.nodes) :
    (∃ e, repointRoot sessionId oldNode newNode s = (.error e, s) ∧
      (s.isSessionRoot oldNode = true ∨ s.floatingIdByRoot oldNode = none)) ∨
    (s.isSessionRoot oldNode = true ∧
      repointRoot sessionId oldNode newNode s = (.ok (), s.reroot sessionId newNode)) ∨
    ∃ floatingId, s.isSessionRoot oldNode = false ∧
      s.floatingIdByRoot oldNode = some floatingId ∧
      repointRoot sessionId oldNode newNode s = (.ok (), s.refloat floatingId newNode) := by
  rw [repointRoot, gets_bind_apply]
  split
  next hroot =>
    rw [sessionMut, bind_apply, bind_apply, ask_apply, ServerState.session]
    cases s.sessions[sessionId]? with
    | none => exact .inl ⟨_, rfl, .inl hroot⟩
    | some session => exact .inr (.inl ⟨hroot, setParent_eq none hnew⟩)
  next hroot =>
    rw [gets_bind_apply]
    cases hfloating : s.floatingIdByRoot oldNode with
    | none => exact .inl ⟨_, rfl, .inr rfl⟩
    | some floatingId =>
      obtain ⟨floating, hget, -⟩ := floatingIdByRoot_eq_some hfloating
      refine .inr (.inr ⟨floatingId, Bool.not_eq_true _ ▸ hroot, rfl, ?_⟩)
      dsimp only
      rw [floatingMut, bind_apply, bind_apply, ask_apply, ServerState.floatingWindow, hget]
      exact setParent_eq none hnew

/-- The state after a popup of the session went away. -/
def dropFloating (floatingId : FloatingId) (sessionId : SessionId) (s : ServerState) : ServerState :=
  mapSession sessionId (fun session ↦ { session with
    floating := session.floating.filter (· ≠ floatingId)
    focusedFloating :=
      if session.focusedFloating = some floatingId then none else session.focusedFloating })
    { s with floating := s.floating.erase floatingId }

theorem removeFloatingWindow_eq {floatingId : FloatingId} {floating : FloatingWindow}
    (h : s.floating[floatingId]? = some floating) : removeFloatingWindow floatingId s =
      (.ok floating, s.dropFloating floatingId floating.sessionId) := by
  rw [removeFloatingWindow, bind_apply, ask_apply, ServerState.floatingWindow, h]
  rfl

/-- A change that leaves the entry as it is. -/
theorem mapNode_eq_self {nodeId : NodeId} {f : Node → Node}
    (h : ∀ node, s.nodes[nodeId]? = some node → f node = node) : s.mapNode nodeId f = s := by
  have hnodes : s.nodes.modify nodeId f = s.nodes := by
    apply Std.ExtTreeMap.ext_getElem?
    intro nodeId'
    rw [Table.get?_modify]
    split
    next heq =>
      subst heq
      cases hnode : s.nodes[nodeId]? with
      | none => rfl
      | some node => rw [Option.map_some, h node hnode]
    next => rfl
  rw [mapNode, hnodes]

/-- A node that has no parent is left alone. -/
theorem mapNode_setParent_none {nodeId : NodeId}
    (h : ∀ node, s.nodes[nodeId]? = some node → node.parent = none) :
    s.mapNode nodeId (Node.setParent none) = s :=
  mapNode_eq_self fun node hnode ↦ by rw [← h node hnode, Node.setParent_parent]

/-- A container that keeps the pane it remembers. -/
theorem exists_setLastFocusedDescendant (nodeId : NodeId) (s : ServerState) :
    ∃ leaf, s.mapNode nodeId (Node.setLastFocusedDescendant leaf) = s := by
  cases hnode : s.nodes[nodeId]? with
  | none =>
    refine ⟨none, mapNode_eq_self fun node hnode' ↦ ?_⟩
    rw [hnode] at hnode'
    cases hnode'
  | some node =>
    refine ⟨node.lastFocusedDescendant nodeId, mapNode_eq_self fun node' hnode' ↦ ?_⟩
    rw [hnode] at hnode'
    cases hnode'
    cases node <;> rfl

theorem resolveFocusCandidate_mem {fuel : ℕ} {nodeId : NodeId} {leaf : Option NodeId}
    (h : s.resolveFocusCandidate fuel nodeId = .ok leaf) : nodeId ∈ s.nodes := by
  cases fuel with
  | zero => cases h
  | succ fuel =>
    obtain ⟨node, hnode, -⟩ := Answer.ok_bind h
    exact mem_nodes_iff.mpr ⟨node, Answer.ofOption_eq_ok.mp hnode⟩

theorem parent_mapNode_setParent {nodeId nodeId' : NodeId} {node : Node}
    (hparent : ∀ node, s.nodes[nodeId]? = some node → node.parent = none)
    (hnode : (s.mapNode nodeId' (Node.setParent none)).nodes[nodeId]? = some node) :
    node.parent = none := by
  rw [mapNode, Table.get?_modify] at hnode
  split at hnode
  · obtain ⟨node₀, -, rfl⟩ := Option.map_eq_some_iff.mp hnode
    exact Node.parent_setParent none node₀
  · exact hparent node hnode

/-- Replacing a node fails and changes nothing, or puts the new node where its owner, a container,
a session or a popup, named the old one. -/
theorem replaceNodeInOwner_cases (fuel : ℕ) (oldNode newNode : NodeId) (s : ServerState) :
    (∃ e, replaceNodeInOwner fuel oldNode newNode s = (.error e, s)) ∨
    ∃ old, s.nodes[oldNode]? = some old ∧ newNode ∈ s.nodes ∧
      ((∃ parentId leaf, old.parent = some parentId ∧ s.Lists parentId oldNode ∧
        (∃ parent new, s.nodes[parentId]? = some parent ∧ s.nodes[newNode]? = some new ∧
          new.sessionId = parent.sessionId) ∧
        replaceNodeInOwner fuel oldNode newNode s = (.ok (), (s.relink parentId oldNode newNode).mapNode
          parentId (Node.setLastFocusedDescendant leaf))) ∨
      (old.parent = none ∧ s.isSessionRoot oldNode = true ∧
        replaceNodeInOwner fuel oldNode newNode s = (.ok (), s.reroot old.sessionId newNode)) ∨
      ∃ floatingId, old.parent = none ∧ s.isSessionRoot oldNode = false ∧
        s.floatingIdByRoot oldNode = some floatingId ∧
        replaceNodeInOwner fuel oldNode newNode s = (.ok (), s.refloat floatingId newNode)) := by
  rw [replaceNodeInOwner, bind_apply, ask_apply]
  cases hsession : s.nodeSessionId oldNode with
  | error e => exact .inl ⟨e, rfl⟩
  | ok sessionId =>
    obtain ⟨old, hold, rfl⟩ := nodeSessionId_eq_ok.mp hsession
    simp only
    rw [bind_apply, ask_apply, nodeParent_eq_ok.mpr ⟨old, hold, rfl⟩]
    simp only
    rw [bind_apply, ask_apply]
    cases hfocus : s.resolveFocusCandidate fuel newNode with
    | error e => exact .inl ⟨e, rfl⟩
    | ok replacement =>
      have hnew := resolveFocusCandidate_mem hfocus
      cases howner : old.parent with
      | some parentId =>
        simp only
        rw [bind_apply, ask_apply]
        cases hlost : focusLostWith fuel parentId oldNode s with
        | error e => exact .inl ⟨e, rfl⟩
        | ok lost =>
          simp only
          rw [bind_apply]
          rcases replaceChild_cases parentId oldNode newNode s with ⟨e, he⟩ | ⟨hlists, hsame, hok⟩
          · rw [he]
            exact .inl ⟨e, rfl⟩
          · rw [hok]
            refine .inr ⟨old, hold, hnew, .inl ?_⟩
            have hparent : parentId ∈ (s.relink parentId oldNode newNode).nodes := by
              obtain ⟨parent, hparent, -⟩ := hlists
              exact mem_nodes_mapNode.mpr (mem_nodes_mapNode.mpr
                (mem_nodes_mapNode.mpr (mem_nodes_iff.mpr ⟨parent, hparent⟩)))
            cases lost with
            | true =>
              refine ⟨parentId, replacement, howner, hlists, hsame, ?_⟩
              obtain ⟨parent, hparent⟩ := mem_nodes_iff.mp hparent
              simp only [if_true]
              rw [nodeMut, bind_apply, ask_apply, ServerState.node, hparent]
              rfl
            | false =>
              obtain ⟨leaf, hleaf⟩ := exists_setLastFocusedDescendant parentId
                (s.relink parentId oldNode newNode)
              refine ⟨parentId, leaf, howner, hlists, hsame, ?_⟩
              rw [hleaf]
              rfl
      | none =>
        have hnone : ∀ node, s.nodes[oldNode]? = some node → node.parent = none := by
          intro node hnode
          rw [hold] at hnode
          cases hnode
          exact howner
        have hold' : oldNode ∈ s.nodes := mem_nodes_iff.mpr ⟨old, hold⟩
        simp only
        rw [bind_apply]
        rcases repointRoot_cases old.sessionId oldNode hnew with
          ⟨e, he, -⟩ | ⟨hroot, hok⟩ | ⟨floatingId, hroot, hfloating, hok⟩
        · rw [he]
          exact .inl ⟨e, rfl⟩
        · rw [hok]
          refine .inr ⟨old, hold, hnew, .inr (.inl ⟨howner, hroot, ?_⟩)⟩
          have hmem : oldNode ∈ (s.reroot old.sessionId newNode).nodes :=
            mem_nodes_mapNode.mpr hold'
          refine (setParent_eq none hmem).trans (congrArg (Prod.mk _) ?_)
          exact mapNode_setParent_none fun node hnode ↦
            parent_mapNode_setParent (s := s.mapSession old.sessionId _) hnone hnode
        · rw [hok]
          refine .inr ⟨old, hold, hnew, .inr (.inr ⟨floatingId, howner, hroot, hfloating, ?_⟩)⟩
          have hmem : oldNode ∈ (s.refloat floatingId newNode).nodes :=
            mem_nodes_mapNode.mpr hold'
          refine (setParent_eq none hmem).trans (congrArg (Prod.mk _) ?_)
          exact mapNode_setParent_none fun node hnode ↦
            parent_mapNode_setParent (s := s.mapFloating floatingId _) hnone hnode

end ServerState

end Embers
