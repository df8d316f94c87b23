import Embers.State.Anchored
import Embers.State.Outline
import Embers.State.Validate

/-!
# What validation accepts

The checks walk every layout once and carry the nodes they have seen along. `Sound` collects what
they find out about a node: its container's size is right, it lists no child twice, and parents and
children name each other. Every node of an accepted state that has children is sound.
-/

namespace Embers

namespace ServerState

/-- What the parent field of a node stands for: the node is a child of its parent, or a root. -/
def Named (s : ServerState) (nodeId : NodeId) : Option NodeId → Prop
  | some parentId => s.Lists parentId nodeId
  | none => s.isSessionRoot nodeId = true ∨ s.PopupRoot nodeId

/-- A node that the checks walked through. -/
structure Sound (s : ServerState) (nodeId : NodeId) (node : Node) : Prop where
  shape : validateShape nodeId node = .ok ()
  named : s.Named nodeId node.parent
  home : (s.sessionRoots node.sessionId).isSome
  nodup : node.childIds.Nodup
  notSelf : nodeId ∉ node.childIds
  child {childId : NodeId} (h : childId ∈ node.childIds) :
    ∃ child, s.nodes[childId]? = some child ∧ child.parent = some nodeId ∧
      child.sessionId = node.sessionId

/-- From the one set of seen nodes to the other, only sound nodes were added. -/
def Visited (s : ServerState) (seen seen' : Std.ExtTreeSet NodeId) : Prop :=
  (∀ nodeId ∈ seen, nodeId ∈ seen') ∧
    ∀ nodeId ∈ seen', nodeId ∈ seen ∨ ∃ node, s.nodes[nodeId]? = some node ∧ s.Sound nodeId node

variable {s : ServerState} {seen seen' seen'' : Std.ExtTreeSet NodeId} {sessionId : SessionId}
  {nodeId : NodeId}

theorem Visited.refl (s : ServerState) (seen : Std.ExtTreeSet NodeId) : s.Visited seen seen :=
  ⟨fun _ h ↦ h, fun _ h ↦ .inl h⟩

theorem Visited.trans (h : s.Visited seen seen') (h' : s.Visited seen' seen'') :
    s.Visited seen seen'' := by
  refine ⟨fun nodeId hmem ↦ h'.1 nodeId (h.1 nodeId hmem), fun nodeId hmem ↦ ?_⟩
  rcases h'.2 nodeId hmem with hseen | hsound
  · exact h.2 nodeId hseen
  · exact .inr hsound

/-! ## Loops -/

/-- A loop whose turns each visit only adds sound nodes. -/
theorem visited_foldlM {β : Type} {l : List β}
    {f : Std.ExtTreeSet NodeId → β → Read (Std.ExtTreeSet NodeId)}
    (hf : ∀ b ∈ l, ∀ seen seen', f seen b = .ok seen' → s.Visited seen seen') :
    ∀ {seen seen' : Std.ExtTreeSet NodeId},
      (l.foldlM f seen : Read (Std.ExtTreeSet NodeId)) = .ok seen' → s.Visited seen seen' := by
  induction l with
  | nil =>
    intro seen seen' h
    cases h
    exact .refl s seen
  | cons b l ih =>
    intro seen seen' h
    rw [List.foldlM_cons] at h
    obtain ⟨mid, hstep, hrest⟩ := Answer.ok_bind h
    exact (hf b List.mem_cons_self seen mid hstep).trans
      (ih (fun b' hb' ↦ hf b' (List.mem_cons_of_mem b hb')) hrest)

/-- A loop whose turns each enter a node that was not seen before enters no node twice. -/
theorem entered_foldlM {β : Type} {key : β → NodeId} {l : List β}
    {f : Std.ExtTreeSet NodeId → β → Read (Std.ExtTreeSet NodeId)}
    (hf : ∀ b ∈ l, ∀ seen seen', f seen b = .ok seen' →
      s.Visited seen seen' ∧ key b ∉ seen ∧ key b ∈ seen') :
    ∀ {seen seen' : Std.ExtTreeSet NodeId},
      (l.foldlM f seen : Read (Std.ExtTreeSet NodeId)) = .ok seen' →
        (l.map key).Nodup ∧ ∀ b ∈ l, key b ∉ seen := by
  induction l with
  | nil => exact fun _ ↦ ⟨List.nodup_nil, nofun⟩
  | cons b l ih =>
    intro seen seen' h
    rw [List.foldlM_cons] at h
    obtain ⟨mid, hstep, hrest⟩ := Answer.ok_bind h
    obtain ⟨hvisited, hfresh, hmem⟩ := hf b List.mem_cons_self seen mid hstep
    obtain ⟨hnodup, hlater⟩ := ih (fun b' hb' ↦ hf b' (List.mem_cons_of_mem b hb')) hrest
    refine ⟨List.nodup_cons.mpr ⟨fun hagain ↦ ?_, hnodup⟩, fun b' hb' ↦ ?_⟩
    · -- the rest of the loop would have to enter the node again
      obtain ⟨b', hb', heq⟩ := List.mem_map.mp hagain
      exact hlater b' hb' (heq ▸ hmem)
    · rcases List.mem_cons.mp hb' with rfl | hb'
      · exact hfresh
      · exact fun hseen ↦ hlater b' hb' (hvisited.1 _ hseen)

/-! ## A subtree -/

theorem validateNode_ok {expectedParent : Option NodeId} {node : Node}
    (h : validateNode sessionId nodeId expectedParent seen node = .ok ()) :
    node.sessionId = sessionId ∧ node.parent = expectedParent ∧ nodeId ∉ seen ∧
      validateShape nodeId node = .ok () := by
  unfold validateNode at h
  split at h
  · cases h
  next hsession =>
    split at h
    · cases h
    next hparent =>
      split at h
      · cases h
      next hseen =>
        exact ⟨not_not.mp hsession, not_not.mp hparent,
          fun hmem ↦ hseen (Std.ExtTreeSet.contains_iff_mem.mpr hmem), h⟩

/-- What a walk from `nodeId` that was given `seen` finds out. -/
structure Walked (s : ServerState) (sessionId : SessionId) (nodeId : NodeId)
    (parent : Option NodeId) (seen seen' : Std.ExtTreeSet NodeId) : Prop where
  visited : s.Visited seen seen'
  fresh : nodeId ∉ seen
  mem : nodeId ∈ seen'
  node : ∃ node, s.nodes[nodeId]? = some node ∧ node.parent = parent ∧ node.sessionId = sessionId

theorem validateSubtree_ok (hhome : (s.sessionRoots sessionId).isSome) :
    ∀ {fuel : ℕ} {nodeId : NodeId} {parent : Option NodeId} {seen seen' : Std.ExtTreeSet NodeId},
      s.Named nodeId parent →
      s.validateSubtree sessionId fuel nodeId parent seen = .ok seen' →
        s.Walked sessionId nodeId parent seen seen' := by
  intro fuel
  induction fuel with
  | zero =>
    intro nodeId parent seen seen' _ h
    cases h
  | succ fuel ih =>
    intro nodeId parent seen seen' hnamed h
    rw [validateSubtree] at h
    obtain ⟨node, hnode, h⟩ := Answer.ok_bind h
    obtain ⟨_, hcheck, h⟩ := Answer.ok_bind h
    have hget := node_eq_ok.mp hnode
    obtain ⟨hsession, hparent, hfresh, hshape⟩ := validateNode_ok hcheck
    have hturn : ∀ child ∈ node.childIds, ∀ seen seen',
        s.validateSubtree sessionId fuel child (some nodeId) seen = .ok seen' →
          s.Walked sessionId child (some nodeId) seen seen' := by
      intro child hchild seen seen' hstep
      exact ih ⟨node, hget, hchild⟩ hstep
    have hvisited := visited_foldlM (fun child hchild seen seen' hstep ↦
      (hturn child hchild seen seen' hstep).visited) h
    have hentered : (node.childIds.map id).Nodup ∧
        ∀ child ∈ node.childIds, child ∉ seen.insert nodeId :=
      entered_foldlM (fun child hchild seen seen' hstep ↦
        ⟨(hturn child hchild seen seen' hstep).visited, (hturn child hchild seen seen' hstep).fresh,
          (hturn child hchild seen seen' hstep).mem⟩) h
    rw [List.map_id] at hentered
    have hchildren : ∀ child ∈ node.childIds,
        ∃ seen seen', s.Walked sessionId child (some nodeId) seen seen' := by
      intro child hchild
      obtain ⟨before, after, hstep⟩ := Answer.foldlM_step h hchild
      exact ⟨before, after, hturn child hchild before after hstep⟩
    have hsound : s.Sound nodeId node := by
      refine ⟨hshape, hparent ▸ hnamed, hsession ▸ hhome, hentered.1, fun hmem ↦ ?_,
        fun {child} hchild ↦ ?_⟩
      · exact hentered.2 nodeId hmem Std.ExtTreeSet.mem_insert_self
      · obtain ⟨_, _, hwalked⟩ := hchildren child hchild
        exact hsession ▸ hwalked.node
    refine ⟨⟨fun i hi ↦ ?_, fun i hi ↦ ?_⟩, hfresh, ?_, ⟨node, hget, hparent, hsession⟩⟩
    · exact hvisited.1 i (Std.ExtTreeSet.mem_insert.mpr (.inr hi))
    · rcases hvisited.2 i hi with hseen | hnew
      · rcases Std.ExtTreeSet.mem_insert.mp hseen with heq | hseen
        · obtain rfl := Std.LawfulEqCmp.compare_eq_iff_eq.mp heq
          exact .inr ⟨node, hget, hsound⟩
        · exact .inl hseen
      · exact .inr hnew
    · exact hvisited.1 nodeId Std.ExtTreeSet.mem_insert_self

/-! ## A whole state -/

theorem validateFloating_ok (hhome : (s.sessionRoots sessionId).isSome) {fuel : ℕ}
    {session : Session} {floatingId : FloatingId}
    (h : s.validateFloating fuel sessionId session seen floatingId = .ok seen') :
    s.Visited seen seen' := by
  unfold validateFloating at h
  obtain ⟨floating, hfloating, h⟩ := Answer.ok_bind h
  have hpopup : s.PopupRoot floating.rootNode :=
    ⟨floatingId, floating, floatingWindow_eq_ok.mp hfloating, rfl⟩
  split at h
  · cases h
  · split at h
    · cases h
    · obtain ⟨parent, -, h⟩ := Answer.ok_bind h
      split at h
      · cases h
      · exact (validateSubtree_ok hhome (show s.Named _ none from .inr hpopup) h).visited

theorem validateSession_ok {fuel : ℕ} {entry : SessionId × Session}
    (hentry : entry ∈ s.sessions.toList)
    (h : s.validateSession fuel seen entry = .ok seen') : s.Visited seen seen' := by
  have hget := Table.mem_toList.mp hentry
  have hroots := sessionRoots_of_get hget
  have hhome : (s.sessionRoots entry.1).isSome := by rw [hroots, Option.isSome_some]
  have hroot : s.isSessionRoot entry.2.rootNode = true :=
    isSessionRoot_iff_sessionRoots.mpr ⟨entry.1, entry.2.floating, hroots⟩
  unfold validateSession at h
  obtain ⟨_, -, h⟩ := Answer.ok_bind h
  obtain ⟨mid, htree, h⟩ := Answer.ok_bind h
  obtain ⟨last, hfloating, h⟩ := Answer.ok_bind h
  obtain ⟨_, -, h⟩ := Answer.ok_bind h
  obtain ⟨_, -, h⟩ := Answer.ok_bind h
  cases h
  exact (validateSubtree_ok hhome (show s.Named _ none from .inl hroot) htree).visited.trans
    (visited_foldlM (fun _ _ _ _ ↦ validateFloating_ok hhome) hfloating)

/-- A node left out of every layout is empty. -/
theorem validateNoOrphans_ok (h : s.validateNoOrphans seen = .ok ()) {node : Node}
    (hnode : s.nodes[nodeId]? = some node) (hunseen : nodeId ∉ seen) : node.childIds = [] := by
  simp only [validateNoOrphans] at h
  split at h
  · cases h
  next hfind =>
    have hmem : nodeId ∈ s.nodes.keys.filter fun nodeId ↦ !seen.contains nodeId := by
      apply List.mem_filter.mpr
      refine ⟨Table.mem_keys.mpr ⟨node, hnode⟩, ?_⟩
      rw [Bool.not_eq_true', ← Bool.not_eq_true, Std.ExtTreeSet.contains_iff_mem]
      exact hunseen
    have hdetached := List.find?_eq_none.mp hfind nodeId hmem
    rw [Bool.not_eq_true, Bool.not_eq_false', isDetachedEmptyTabsNode, hnode] at hdetached
    cases node with
    | bufferView view => rfl
    | split split => cases hdetached
    | tabs tabs =>
      simp only [Bool.and_eq_true, List.isEmpty_iff] at hdetached
      rw [Node.childIds, TabsNode.children, hdetached.1.1.2, List.map_nil]

/-- Every node of an accepted state that has children is sound. -/
theorem sound_of_validate {fuel : ℕ} (h : s.validate fuel = .ok ()) {node : Node}
    (hnode : s.nodes[nodeId]? = some node) (hkids : node.childIds ≠ []) : s.Sound nodeId node := by
  unfold validate at h
  obtain ⟨seen, hsessions, h⟩ := Answer.ok_bind h
  obtain ⟨_, horphans, -⟩ := Answer.ok_bind h
  have hseen : nodeId ∈ seen := by
    by_contra hunseen
    exact hkids (validateNoOrphans_ok horphans hnode hunseen)
  rcases (visited_foldlM (fun _ hentry _ _ ↦ validateSession_ok hentry) hsessions).2 nodeId hseen with
    hempty | ⟨node', hnode', hsound⟩
  · exact absurd hempty Std.ExtTreeSet.not_mem_empty
  · obtain rfl := Option.some.inj (hnode.symm.trans hnode')
    exact hsound

end ServerState

end Embers
