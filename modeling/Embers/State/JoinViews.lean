import Embers.State.Anchored
import Embers.State.CloseFrame
import Embers.State.Command

/-!
# Buffers and views over whole runs

Joining a buffer that is attached makes a second view of it, places that view and only then closes
the first one. Until then the new view is spare, and every way out of the operation must delete one
of the two. The handlers do: a view that could not be placed is discarded, and when the old view
cannot be closed the new one, which is anchored, is closed instead.

What no handler covers is the part of a tab placement before the tab is added. There the operation
returns its errors at once and leaves two views of one buffer. `Command.Calm` asks that a step finds
a place for its tab, and that ids are left; in runs of calm steps, whatever their outcome, buffers
and views stay in one-to-one correspondence.
-/

namespace Embers

namespace ServerState

open Op

variable {s s' : ServerState} {bufferId : BufferId} {newView sourceView : NodeId}

/-! ## While two views show the buffer -/

/-- The new view is spare, and the buffer it shows is attached to the old one. -/
def Joining (bufferId : BufferId) (newView sourceView : NodeId) (r : ℕ) (s : ServerState) : Prop :=
  TiedWith (some newView) r s ∧ s.shown newView = some bufferId ∧
    s.attachedTo bufferId = some sourceView

theorem mem_of_shown {nodeId : NodeId} (h : s.shown nodeId = some bufferId) : nodeId ∈ s.nodes := by
  obtain ⟨node, hnode, -⟩ := Option.bind_eq_some_iff.mp h
  exact mem_nodes_iff.mpr ⟨node, hnode⟩

theorem joining_steady : Steady (Joining bufferId newView sourceView) where
  wastes r k s h := ⟨tiedWith_wastes r k s h.1, h.2⟩
  tied h := ⟨_, h.1⟩
  sameViews hsame h := by
    refine ⟨hsame.tiedWith h.1, ?_, ?_⟩
    · rw [hsame.shown]
      exact h.2.1
    · rw [hsame.attachedTo]
      exact h.2.2
  next h := ⟨nextNodeId_spends _ h.1, h.2⟩
  insertNode hfresh hshows h := by
    refine ⟨⟨h.1.1.insertNode hfresh hshows, h.1.2⟩, ?_, h.2.2⟩
    rw [shown_insertNode, if_neg]
    · exact h.2.1
    · rintro rfl
      exact hfresh.1 (mem_of_shown h.2.1)

/-- The old view is another view of the buffer. -/
theorem Joining.source {r : ℕ} (h : Joining bufferId newView sourceView r s) :
    s.shown sourceView = some bufferId ∧ sourceView ≠ newView := by
  obtain ⟨hshown, hspare⟩ := (h.1.1.paired sourceView bufferId).mp h.2.2
  exact ⟨hshown, fun heq ↦ hspare (congrArg some heq.symm)⟩

/-- Discarding a view deletes it, if it returns. -/
theorem discardBufferView_gone (fuel : ℕ) {spare : Option NodeId} (htied : Tied spare s)
    (hview : s.shown newView = some bufferId)
    (hends : (discardBufferView fuel newView s).1 ≠ .error .diverges) :
    (discardBufferView fuel newView s).2.shown newView = none := by
  have hdelete : ∀ t : ServerState, (deleteView newView t).2.shown newView = none := fun t ↦ by
    rw [deleteView_snd]
    exact shown_deleteView t newView
  obtain ⟨leaf, hleaf, -⟩ := exists_view_of_shown hview
  rw [discardBufferView, gets_bind_apply] at hends ⊢
  split at hends
  next hparent =>
    rw [if_pos hparent]
    rw [bind_apply, attempt] at hends ⊢
    rcases @closeNode_view _ _ bufferId _ fuel _ htied hleaf with
      hdiverges | hgone | ⟨-, e, he⟩
    · rcases hclose : closeNode fuel newView s with ⟨r, t⟩
      rw [hclose] at hdiverges hends
      change r = _ at hdiverges
      rw [hdiverges] at hends
      exact absurd rfl hends
    · rcases hclose : closeNode fuel newView s with ⟨(e | _) | _, t⟩
      · exact hdelete t
      · rw [hclose] at hends
        exact absurd rfl hends
      · rw [hclose] at hgone
        exact hgone
    · rw [he]
      cases e with
      | error => exact hdelete s
      | diverges =>
        rw [he] at hends
        exact absurd rfl hends
  next hparent =>
    rw [if_neg hparent]
    exact hdelete s

/-- A view that found no place is gone, if the handler returns. -/
theorem undoJoin_gone (fuel : ℕ) {spare : Option NodeId} (htied : Tied spare s)
    (hview : s.shown newView = some bufferId) (wrapper : Option NodeId)
    (hends : (undoJoin fuel newView wrapper s).1 ≠ .error .diverges) :
    (undoJoin fuel newView wrapper s).2.shown newView = none := by
  have hgone := discardBufferView_gone fuel htied hview
  rw [undoJoin.eq_def, bind_apply] at hends ⊢
  rcases hdiscard : discardBufferView fuel newView s with ⟨e | _, t⟩
  · rw [hdiscard] at hgone hends
    exact hgone hends
  · rw [hdiscard] at hgone
    have hnone : t.shown newView = none := hgone nofun
    cases wrapper with
    | none => exact hnone
    | some tabsId =>
      dsimp only
      rw [bind_pure_snd, attempt_snd]
      exact (normalizeUpwards_fewerViews fuel fuel (some tabsId) t).gone hnone

theorem undoJoin_spends (fuel : ℕ) {spare : Option NodeId} (newView : NodeId)
    (wrapper : Option NodeId) (s : ServerState) :
    Spends (TiedWith spare) 1 (undoJoin fuel newView wrapper) s := by
  refine .bind_left tiedWith_wastes (discardBufferView_spends fuel newView s) fun _ t _ ↦ ?_
  cases wrapper with
  | none => exact .pure _
  | some tabsId =>
    exact .bind_right tiedWith_wastes (.attempt (normalizeUpwards_spends fuel fuel (some tabsId) t))
      fun _ _ _ ↦ .pure _

/-! ## Placing the new view -/

/-- What placing the new view leaves: a view that can be closed, or none. -/
def Placed (bufferId : BufferId) (newView sourceView : NodeId) (r : ℕ) (outcome : Read Unit × ServerState) :
    Prop :=
  match outcome.1 with
  | .ok () => Joining bufferId newView sourceView r outcome.2 ∧ Anchored bufferId newView outcome.2
  | .error (.error _) => TiedWith none r outcome.2
  | .error .diverges => True

/-- A placing call that returns leaves the view placed, and one that fails has it taken back. -/
theorem orUndoJoin_placed (fuel : ℕ) {r : ℕ} (wrapper : Option NodeId) {place : StateOp Unit} {k : ℕ}
    (h : Joining bufferId newView sourceView (r + 1 + k) s)
    (hspends : Spends (Joining bufferId newView sourceView) k place s)
    (hanchored : ∀ t, place s = (.ok (), t) → Anchored bufferId newView t) :
    Placed bufferId newView sourceView r (orUndoJoin fuel newView wrapper place s) := by
  have hafter := hspends (r + 1) h
  rw [orUndoJoin, bind_apply, attempt]
  rcases hplace : place s with ⟨(e | _) | _, t⟩
  · rw [hplace] at hafter
    obtain ⟨htied, hview, -⟩ := hafter
    dsimp only
    have hundo := undoJoin_spends fuel newView wrapper t r htied
    have hgone := undoJoin_gone fuel htied.1 hview wrapper
    rw [bind_apply]
    rcases hcall : undoJoin fuel newView wrapper t with ⟨(e' | _) | _, u⟩
    · rw [hcall] at hundo hgone
      exact ⟨hundo.1.spareGone (hgone (by simp)), hundo.2⟩
    · exact trivial
    · rw [hcall] at hundo hgone
      exact ⟨hundo.1.spareGone (hgone (by simp)), hundo.2⟩
  · exact trivial
  · rw [hplace] at hafter
    exact ⟨joining_steady.wastes r 1 t hafter, hanchored t hplace⟩

/-- An owner is repointed from another node to another node. -/
theorem repointOwnerReference_anchored {nodeId : NodeId} (sessionId : SessionId)
    (owner : Option NodeId) {oldNode newNode : NodeId} (h : Anchored bufferId nodeId s)
    (hold : oldNode ≠ nodeId) (hnew : newNode ≠ nodeId) (hmem : newNode ∈ s.nodes) :
    Anchored bufferId nodeId (repointOwnerReference sessionId owner oldNode newNode s).2 := by
  cases owner with
  | none =>
    rw [repointOwnerReference]
    rcases repointRoot_cases sessionId oldNode hmem with
      ⟨e, he, -⟩ | ⟨-, hok⟩ | ⟨floatingId, -, hfloating, hok⟩
    · rw [he]
      exact h
    · rw [hok]
      have hrooted : Anchored bufferId nodeId (s.mapSession sessionId fun session ↦
        { session with rootNode := newNode }) := h.congr rfl id
      exact hrooted.setParent_other hnew none
    · rw [hok]
      exact h.refloat hold hfloating
  | some parentId =>
    have hrepoint : Anchored bufferId nodeId ((do
        modify (mapNode parentId (Node.replaceChildId oldNode newNode))
        setParent newNode (some parentId) : StateOp Unit) s).2 := by
      rw [modify_bind_apply, setParent_snd]
      refine Anchored.setParent_other (h.mapNode (Node.kind_replaceChildId oldNode newNode)
        (Node.parent_replaceChildId oldNode newNode) fun node hmem ↦ ?_) hnew (some parentId)
      rw [Node.childIds_replaceChildId]
      exact mem_replace_of_ne hmem (Ne.symm hold)
    rw [repointOwnerReference, bind_apply, ask_apply, ServerState.node]
    rcases s.nodes[parentId]? with _ | (_ | split | tabs)
    · exact h
    · exact h
    · dsimp only [Answer.ofOption_some]
      split
      · exact hrepoint
      · exact h
    · dsimp only [Answer.ofOption_some]
      split
      · exact hrepoint
      · exact h

/-- The new view in a new split around a node. -/
theorem insertSplitAround_anchored {sessionId : SessionId} {nodeId splitId : NodeId}
    {oldParent : Option NodeId} {direction : SplitDirection} {first second : NodeId}
    {lastFocusedDescendant : Option NodeId} (hview : s.shown newView = some bufferId)
    (hsplit : splitId ∉ s.nodes) (hplace : newView = first ∧ nodeId = second ∨
      nodeId = first ∧ newView = second) (hne : nodeId ≠ newView)
    (h : insertSplitAround sessionId nodeId oldParent splitId direction first second
      lastFocusedDescendant s = (.ok (), s')) : Anchored bufferId newView s' := by
  have hnew : splitId ≠ newView := by
    rintro rfl
    exact hsplit (mem_of_shown hview)
  obtain ⟨_, t, ht, h⟩ := ok_bind h
  cases ht
  obtain ⟨_, u, hu, h⟩ := ok_bind h
  obtain ⟨_, v, hv, h⟩ := ok_bind h
  have hu' := congrArg Prod.snd hu
  have hv' := congrArg Prod.snd hv
  rw [setParent_snd] at hu' hv'
  change _ = u at hu'
  change _ = v at hv'
  have hlists : ∀ child, child = first ∨ child = second → (s.insertNode splitId (.split {
      sessionId, direction, lastFocusedDescendant
      parent := oldParent
      children := [first, second]
      sizes := [1, 1] })).Lists splitId child := by
    intro child hchild
    refine ⟨_, Std.ExtTreeMap.getElem?_insert_self, ?_⟩
    change child ∈ [first, second]
    rcases hchild with rfl | rfl <;> simp
  have hshown : (s.insertNode splitId (.split {
      sessionId, direction, lastFocusedDescendant
      parent := oldParent
      children := [first, second]
      sizes := [1, 1] })).shown newView = some bufferId := by
    rw [shown_insertNode, if_neg hnew]
    exact hview
  have hsome : ∀ {t : ServerState}, t.Lists splitId newView →
      ∀ parentId, some splitId = some parentId → t.Lists parentId newView := by
    intro t ht parentId heq
    rw [← Option.some_inj.mp heq]
    exact ht
  have hanchored : Anchored bufferId newView v := by
    rcases hplace with ⟨rfl, rfl⟩ | ⟨rfl, rfl⟩
    · rw [← hv', ← hu']
      exact (anchored_setParent_self hshown (hsome (hlists newView (.inl rfl)))
        nofun).setParent_other hne (some splitId)
    · rw [← hv', ← hu']
      refine anchored_setParent_self ?_ (hsome (hlists newView (.inr rfl)).setParent) nofun
      rw [(sameViews_mapNode _ nodeId (Node.kind_setParent _)).shown]
      exact hshown
  have hmem : splitId ∈ v.nodes := by
    rw [← hv', ← hu']
    refine mem_nodes_mapNode.mpr (mem_nodes_mapNode.mpr ?_)
    exact mem_nodes_insertNode.mpr (.inl rfl)
  have hlast := repointOwnerReference_anchored sessionId oldParent hanchored hne hnew hmem
  rw [h] at hlast
  exact hlast

/-- The new view next to a node, in a split of the two. -/
theorem wrapNodeInSplitWithFocus_anchored (fuel : ℕ) {nodeId : NodeId} {direction : SplitDirection}
    {insertBefore doFocus : Bool} {r : ℕ} {splitId : NodeId}
    (htied : Joining bufferId newView sourceView (r + 1) s)
    (h : wrapNodeInSplitWithFocus fuel nodeId direction newView insertBefore doFocus s =
      (.ok splitId, s')) : Anchored bufferId newView s' := by
  obtain ⟨sessionId, -, h⟩ := ok_ask_bind h
  obtain ⟨_, hcheck, h⟩ := ok_ask_bind h
  have hne : nodeId ≠ newView := by
    obtain ⟨_, -, hcheck⟩ := Answer.ok_bind hcheck
    split at hcheck
    · cases hcheck
    next hne => exact hne
  obtain ⟨oldParent, -, h⟩ := ok_ask_bind h
  obtain ⟨fresh, t, hnext, h⟩ := ok_bind h
  have hfresh := nextNodeId_fresh htied.1 hnext
  have hview : t.shown newView = some bufferId := by
    cases hnext
    exact htied.2.1
  obtain ⟨candidate, -, h⟩ := ok_ask_bind h
  have hfocus : ∀ u, Anchored bufferId newView u → (if doFocus = true then do
      focusCandidateOrHeal fuel sessionId newView
      pure fresh
    else pure fresh : StateOp NodeId) u = (.ok splitId, s') → Anchored bufferId newView s' := by
    intro u hu hok
    split at hok
    · have hframe := Keeps.bind (focusCandidateOrHeal_sameFrame fuel sessionId newView)
        (fun _ ↦ Keeps.pure fresh) u
      rw [hok] at hframe
      exact SameFrame.anchored hframe hu
    · cases hok
      exact hu
  dsimp only at h
  split at h
  · obtain ⟨_, u, hinsert, h⟩ := ok_bind h
    exact hfocus u (insertSplitAround_anchored hview hfresh.1 (.inl ⟨rfl, rfl⟩) hne hinsert) h
  · obtain ⟨_, u, hinsert, h⟩ := ok_bind h
    exact hfocus u (insertSplitAround_anchored hview hfresh.1 (.inr ⟨rfl, rfl⟩) hne hinsert) h

/-- A node that may become a tab. -/
theorem checkNewTab_ok {tabsId child : NodeId} {index : ℕ} {sessionId : SessionId}
    (h : checkNewTab tabsId index child sessionId s = .ok ()) :
    child ≠ tabsId ∧ ∃ tabs, s.nodes[tabsId]? = some (.tabs tabs) ∧ index ≤ tabs.tabs.length := by
  obtain ⟨_, -, h⟩ := Answer.ok_bind h
  split at h
  · cases h
  next hne =>
    obtain ⟨tabs, htabs, h⟩ := Answer.ok_bind h
    obtain ⟨parent, -, h⟩ := Answer.ok_bind h
    split at h
    · cases h
    split at h
    · cases h
    split at h
    · cases h
    split at h
    · cases h
    next hindex =>
      refine ⟨hne, tabs, ?_, Nat.not_lt.mp hindex⟩
      obtain ⟨node, hnode, htabs⟩ := Answer.ok_bind htabs
      rw [node_eq_ok] at hnode
      cases node with
      | bufferView => cases htabs
      | split => cases htabs
      | tabs =>
        cases htabs
        exact hnode

/-- The new view in a tab. -/
theorem addTabSiblingAtWithFocus_anchored (fuel : ℕ) {tabsId : NodeId} {index index' : ℕ}
    {title : String} {doFocus : Bool} (hview : s.shown newView = some bufferId)
    (h : addTabSiblingAtWithFocus fuel tabsId index title newView doFocus s = (.ok index', s')) :
    Anchored bufferId newView s' := by
  obtain ⟨sessionId, -, h⟩ := ok_ask_bind h
  obtain ⟨_, hcheck, h⟩ := ok_ask_bind h
  obtain ⟨hne, tabs, htabs, hindex⟩ := checkNewTab_ok hcheck
  rw [bind_of_ok (setParent_eq (some tabsId) (mem_of_shown hview)), modify_bind_apply] at h
  -- The parent is set before the tab is there; the two together anchor the view.
  have hanchored : Anchored bufferId newView ((s.mapNode newView (Node.setParent (some tabsId))).mapNode
      tabsId (Node.mapTabs fun tabs ↦ { tabs with
        tabs := tabs.tabs.insertIdx index (TabEntry.new title newView)
        active := index })) := by
    have hparent : ((s.mapNode newView (Node.setParent (some tabsId))).mapNode
        tabsId (Node.mapTabs fun tabs ↦ { tabs with
          tabs := tabs.tabs.insertIdx index (TabEntry.new title newView)
          active := index })).parentOf newView = some tabsId := by
      rw [parentOf_mapNode, parentOf_setParent_self _ (mem_of_shown hview)]
      intro node
      cases node <;> rfl
    refine ⟨?_, fun parentId heq ↦ ?_, fun heq ↦ ?_⟩
    · rw [(sameViews_mapNode _ tabsId (Node.kind_mapTabs _)).shown,
        (sameViews_mapNode _ newView (Node.kind_setParent _)).shown, hview]
    · rw [hparent, Option.some_inj] at heq
      subst heq
      refine ⟨.tabs { tabs with
        tabs := tabs.tabs.insertIdx index (TabEntry.new title newView)
        active := index }, ?_, ?_⟩
      · rw [mapNode, Table.get?_modify, if_pos rfl, mapNode, Table.get?_modify, if_neg hne, htabs]
        rfl
      · refine List.mem_map.mpr ⟨TabEntry.new title newView, ?_, rfl⟩
        exact (List.mem_insertIdx hindex).mpr (.inl rfl)
    · rw [hparent] at heq
      cases heq
  split at h
  · have hframe := Keeps.bind (focusCandidateOrHeal_sameFrame fuel sessionId newView)
      (fun _ ↦ Keeps.pure index) ((s.mapNode newView (Node.setParent (some tabsId))).mapNode
        tabsId (Node.mapTabs fun tabs ↦ { tabs with
          tabs := tabs.tabs.insertIdx index (TabEntry.new title newView)
          active := index }))
    rw [h] at hframe
    exact SameFrame.anchored hframe hanchored
  · cases h
    exact hanchored

theorem joinSplit_placed (fuel : ℕ) {r : ℕ} (nodeId : NodeId) (direction : SplitDirection)
    (insertBefore doFocus : Bool) (h : Joining bufferId newView sourceView (r + 2) s) :
    Placed bufferId newView sourceView r
      (joinSplit fuel nodeId newView direction insertBefore doFocus s) := by
  refine orUndoJoin_placed (k := 1) fuel none h ?_ fun t ht ↦ ?_
  · exact .bind_left joining_steady.wastes (wrapNodeInSplitWithFocus_spends joining_steady fuel nodeId
      direction newView insertBefore doFocus s) fun _ _ _ ↦ .pure _
  · obtain ⟨splitId, u, hwrap, hrest⟩ := ok_bind ht
    cases hrest
    exact wrapNodeInSplitWithFocus_anchored fuel h hwrap

/-! ## A place for the tab -/

/-- There are tabs to put another tab in, next to the node or in it: the node is tabs, or tabs list
it; or it can be wrapped, because a container lists it or it is the root of a popup, and there is a
title for its own tab. -/
def HasTabPlace (fuel : ℕ) (nodeId : NodeId) (s : ServerState) : Prop :=
  ∃ node, s.nodes[nodeId]? = some node ∧
    (node.isTabs = true ∨
    (∃ parentId parent, node.parent = some parentId ∧ s.nodes[parentId]? = some parent ∧
      nodeId ∈ parent.childIds ∧
      (parent.isTabs = true ∨ ∃ title, s.defaultTabTitle fuel nodeId = .ok title)) ∨
    (node.parent = none ∧ s.PopupRoot nodeId ∧ ∃ title, s.defaultTabTitle fuel nodeId = .ok title))

theorem idxOf?_of_mem {nodeId : NodeId} {children : List NodeId} (h : nodeId ∈ children) :
    ∃ i, children.idxOf? nodeId = some i := by
  rw [← Option.isSome_iff_exists, List.isSome_idxOf?]
  exact h

theorem joinIndex_listed {tabsId nodeId : NodeId} {tabs : TabsNode} (after : Bool)
    (htabs : s.nodes[tabsId]? = some (.tabs tabs))
    (hlisted : tabsId = nodeId ∨ nodeId ∈ tabs.children) :
    ∃ i, joinIndex tabsId nodeId after s = .ok i := by
  have htabs' : s.tabsNode tabsId = .ok tabs := by
    rw [tabsNode, node_eq_ok.mpr htabs]
    rfl
  rw [joinIndex, htabs', Answer.bind_ok]
  by_cases hself : tabsId = nodeId
  · simp only [if_pos hself]
    exact ⟨_, rfl⟩
  · obtain ⟨i, hi⟩ := idxOf?_of_mem (hlisted.resolve_left hself)
    simp only [if_neg hself, hi]
    exact ⟨_, rfl⟩

/-- A container that lists the node is repointed to tabs around it. -/
theorem repointOwnerReference_listed {sessionId : SessionId} {parentId oldNode newNode : NodeId}
    (hlists : s.Lists parentId oldNode) (hmem : newNode ∈ s.nodes) :
    repointOwnerReference sessionId (some parentId) oldNode newNode s =
      (.ok (), (s.mapNode parentId (Node.replaceChildId oldNode newNode)).mapNode newNode
        (Node.setParent (some parentId))) := by
  obtain ⟨parent, hparent, hchild⟩ := hlists
  rw [repointOwnerReference, bind_apply, ask_apply, node_eq_ok.mpr hparent]
  cases parent with
  | bufferView => cases hchild
  | split split =>
    change oldNode ∈ split.children at hchild
    simp only [if_pos hchild]
    exact setParent_eq _ (mem_nodes_mapNode.mpr hmem)
  | tabs tabs =>
    change oldNode ∈ tabs.children at hchild
    simp only [if_pos hchild]
    exact setParent_eq _ (mem_nodes_mapNode.mpr hmem)

/-- A node that its owner names can be wrapped in tabs, and the tabs list it. -/
theorem wrapNodeInTabs_eq {nodeId : NodeId} {node : Node} (title : String) {spare : Option NodeId}
    {r : ℕ} (htied : TiedWith spare (r + 1) s) (hnode : s.nodes[nodeId]? = some node)
    (htabs : node.isTabs = false)
    (howner : (∃ parentId, node.parent = some parentId ∧ s.Lists parentId nodeId) ∨
      node.parent = none ∧ s.PopupRoot nodeId) :
    ∃ t tabs, wrapNodeInTabs nodeId title s = (.ok s.nodeIds.peek, t) ∧
      t.nodes[s.nodeIds.peek]? = some (.tabs tabs) ∧ nodeId ∈ tabs.children := by
  have hfresh : s.nodeIds.peek ∉ s.nodes := (nextNodeId_fresh htied rfl).1
  have hmem : nodeId ∈ s.nodes := mem_nodes_iff.mpr ⟨node, hnode⟩
  have hne : nodeId ≠ s.nodeIds.peek := fun heq ↦ hfresh (heq ▸ hmem)
  have hroot := htied.1.isSessionRoot_eq_false hnode htabs
  -- The state in which the owner is repointed: the new tabs hold the node.
  obtain ⟨u, hu, hwrapped⟩ : ∃ u : ServerState,
      (u.nodes[s.nodeIds.peek]? = some (.tabs ⟨node.sessionId, node.parent, [TabEntry.new title nodeId],
        0, node.lastFocusedDescendant nodeId⟩) ∧
        (∀ parentId, s.Lists parentId nodeId → u.Lists parentId nodeId) ∧
        u.isSessionRoot nodeId = s.isSessionRoot nodeId ∧
        u.floatingIdByRoot nodeId = s.floatingIdByRoot nodeId) ∧
      wrapNodeInTabs nodeId title s = ((repointOwnerReference node.sessionId node.parent nodeId
        s.nodeIds.peek >>= fun _ ↦ pure s.nodeIds.peek : StateOp NodeId) u) := by
    refine ⟨(({ s with nodeIds := s.nodeIds.advance } : ServerState).insertNode s.nodeIds.peek
      (.tabs ⟨node.sessionId, node.parent, [TabEntry.new title nodeId], 0,
        node.lastFocusedDescendant nodeId⟩)).mapNode nodeId (Node.setParent (some s.nodeIds.peek)),
      ⟨?_, fun parentId hlists ↦ ?_, rfl, rfl⟩, ?_⟩
    · rw [mapNode, Table.get?_modify, if_neg hne]
      exact Std.ExtTreeMap.getElem?_insert_self
    · refine Lists.setParent ?_
      obtain ⟨parent, hparent, hchild⟩ := hlists
      have hother : s.nodeIds.peek ≠ parentId := by
        rintro heq
        exact hfresh (heq ▸ mem_nodes_iff.mpr ⟨parent, hparent⟩)
      refine ⟨parent, ?_, hchild⟩
      change (s.nodes.insert _ _)[parentId]? = some parent
      rw [Table.get?_insert, if_neg hother]
      exact hparent
    · rw [wrapNodeInTabs, bind_apply, ask_apply, nodeSessionId_eq_ok.mpr ⟨node, hnode, rfl⟩]
      dsimp only
      rw [bind_apply, ask_apply, nodeParent_eq_ok.mpr ⟨node, hnode, rfl⟩]
      dsimp only
      rw [bind_apply, nextNodeId]
      dsimp only [update]
      rw [bind_apply, ask_apply, node_eq_ok.mpr (show ({ s with nodeIds := s.nodeIds.advance } :
        ServerState).nodes[nodeId]? = some node from hnode)]
      dsimp only
      rw [modify_bind_apply]
      exact bind_of_ok (setParent_eq _ (mem_nodes_insertNode.mpr (.inr hmem)))
  obtain ⟨hnew, hlisted, hroots, hfloatings⟩ := hu
  have hnewMem : s.nodeIds.peek ∈ u.nodes := mem_nodes_iff.mpr ⟨_, hnew⟩
  rcases howner with ⟨parentId, hparent, hlists⟩ | ⟨hparent, floatingId, floating, hget, hfloatRoot⟩
  · have hother : parentId ≠ s.nodeIds.peek := by
      rintro heq
      obtain ⟨parent, hget, -⟩ := hlists
      exact hfresh (heq ▸ mem_nodes_iff.mpr ⟨parent, hget⟩)
    rw [hparent, bind_of_ok (repointOwnerReference_listed (hlisted parentId hlists) hnewMem)] at hwrapped
    refine ⟨_, ⟨node.sessionId, some parentId, [TabEntry.new title nodeId], 0,
      node.lastFocusedDescendant nodeId⟩, hwrapped, ?_, List.mem_singleton_self nodeId⟩
    rw [mapNode, Table.get?_modify, if_pos rfl, mapNode, Table.get?_modify, if_neg hother, hnew]
    rfl
  · rw [hparent] at hwrapped
    rcases repointRoot_cases node.sessionId nodeId hnewMem with
      ⟨-, -, htrue | hnone⟩ | ⟨htrue, -⟩ | ⟨floatingId', -, -, hok⟩
    · rw [hroots, hroot] at htrue
      cases htrue
    · rw [hfloatings, floatingIdByRoot_eq_none] at hnone
      exact absurd hfloatRoot (hnone floatingId floating hget)
    · rw [hroots, hroot] at htrue
      cases htrue
    · have hrepoint : repointOwnerReference node.sessionId none nodeId s.nodeIds.peek u =
        (.ok (), u.refloat floatingId' s.nodeIds.peek) := hok
      rw [bind_of_ok hrepoint] at hwrapped
      refine ⟨_, ⟨node.sessionId, none, [TabEntry.new title nodeId], 0,
        node.lastFocusedDescendant nodeId⟩, hwrapped, ?_, List.mem_singleton_self nodeId⟩
      rw [refloat, mapNode, Table.get?_modify, if_pos rfl]
      change (u.nodes[s.nodeIds.peek]?).map _ = _
      rw [hnew]
      rfl

/-- Where there is a place for a tab, the tabs and the index are found. -/
theorem joinTabs_ok {fuel : ℕ} {nodeId : NodeId} {spare : Option NodeId} {r : ℕ}
    (htied : TiedWith spare (r + 1) s) (hplace : HasTabPlace fuel nodeId s) :
    ∃ tabsId wrapped t, joinTabs fuel nodeId s = (.ok (tabsId, wrapped), t) ∧
      ∀ after, ∃ i, joinIndex tabsId nodeId after t = .ok i := by
  obtain ⟨node, hnode, hplace⟩ := hplace
  rw [joinTabs, bind_apply, ask_apply, node_eq_ok.mpr hnode]
  dsimp only
  by_cases htabs : node.isTabs = true
  · rw [if_pos htabs]
    cases node with
    | bufferView => cases htabs
    | split => cases htabs
    | tabs tabs => exact ⟨nodeId, false, s, rfl, fun after ↦ joinIndex_listed after hnode (.inl rfl)⟩
  · rw [if_neg htabs]
    have hwrap : ∀ title, ((∃ parentId, node.parent = some parentId ∧ s.Lists parentId nodeId) ∨
        node.parent = none ∧ s.PopupRoot nodeId) → s.defaultTabTitle fuel nodeId = .ok title →
        ∃ tabsId wrapped t, ((do
          let title ← .ask (·.defaultTabTitle fuel nodeId)
          let tabsId ← wrapNodeInTabs nodeId title
          pure (tabsId, true) : StateOp (NodeId × Bool)) s) = (.ok (tabsId, wrapped), t) ∧
          ∀ after, ∃ i, joinIndex tabsId nodeId after t = .ok i := by
      intro title howner htitle
      obtain ⟨t, tabs, hwrapped, htabsNode, hlisted⟩ :=
        wrapNodeInTabs_eq title htied hnode (Bool.not_eq_true _ ▸ htabs) howner
      refine ⟨s.nodeIds.peek, true, t, ?_, fun after ↦
        joinIndex_listed after htabsNode (.inr hlisted)⟩
      rw [bind_apply, ask_apply, htitle]
      exact bind_of_ok hwrapped
    rcases hplace with htrue | ⟨parentId, parent, hparent, hget, hlisted, hrest⟩ |
      ⟨hparent, hpopup, title, htitle⟩
    · exact absurd htrue htabs
    · rw [bind_apply, ask_apply, hparent]
      dsimp only
      rw [node_eq_ok.mpr hget]
      by_cases hparentTabs : parent.isTabs = true
      · simp only [Answer.bind_ok, hparentTabs, if_true, Answer.pure_eq_ok]
        cases parent with
        | bufferView => cases hparentTabs
        | split => cases hparentTabs
        | tabs tabs =>
          exact ⟨parentId, false, s, rfl, fun after ↦ joinIndex_listed after hget (.inr hlisted)⟩
      · obtain ⟨title, htitle⟩ := hrest.resolve_left hparentTabs
        simp only [Answer.bind_ok, if_neg hparentTabs, Answer.pure_eq_ok]
        exact hwrap title (.inl ⟨parentId, hparent, parent, hget, hlisted⟩) htitle
    · rw [bind_apply, ask_apply, hparent]
      exact hwrap title (.inr ⟨hparent, hpopup⟩) htitle

theorem joinTabs_spends {I : ℕ → ServerState → Prop} (hI : Steady I) (fuel : ℕ) (nodeId : NodeId)
    (s : ServerState) : Spends I 1 (joinTabs fuel nodeId) s := by
  have hnothing : ∀ a : NodeId × Bool, Spends I 1 (pure a : StateOp (NodeId × Bool)) s := fun a ↦
    .mono hI.wastes (.pure a) (Nat.zero_le 1)
  refine .ask_bind hI.wastes fun node _ ↦ ?_
  split
  · exact hnothing _
  · refine .ask_bind hI.wastes fun parent _ ↦ ?_
    cases parent with
    | some parentId => exact hnothing _
    | none =>
      exact .ask_bind hI.wastes fun title _ ↦ .bind_left hI.wastes
        (wrapNodeInTabs_spends hI nodeId title s) fun _ _ _ ↦ .pure _

theorem joinTab_placed (fuel : ℕ) {r : ℕ} {nodeId : NodeId} (after doFocus : Bool)
    (h : Joining bufferId newView sourceView (r + 2) s) (hplace : HasTabPlace fuel nodeId s) :
    Placed bufferId newView sourceView r (joinTab fuel nodeId newView bufferId after doFocus s) := by
  have hbuffer : ∃ buffer, s.buffer bufferId = .ok buffer := by
    obtain ⟨buffer, hget, -⟩ := Option.bind_eq_some_iff.mp h.2.2
    exact ⟨buffer, buffer_eq_ok.mpr hget⟩
  obtain ⟨buffer, hbuffer⟩ := hbuffer
  obtain ⟨tabsId, wrapped, t, htabs, hindex⟩ := joinTabs_ok h.1 hplace
  obtain ⟨i, hi⟩ := hindex after
  have hjoining := joinTabs_spends joining_steady fuel nodeId s (r + 1) h
  rw [htabs] at hjoining
  rw [joinTab, bind_apply, ask_apply, hbuffer]
  dsimp only
  rw [bind_of_ok htabs]
  dsimp only
  rw [bind_apply, ask_apply, hi]
  refine orUndoJoin_placed (k := 0) fuel _ hjoining ?_ fun u hu ↦ ?_
  · exact joining_steady.same ((Keeps.bind (addTabSiblingAtWithFocus_sameViews fuel tabsId i
      buffer.title newView doFocus) fun _ ↦ .pure _) t)
  · obtain ⟨index, v, hadd, hrest⟩ := ok_bind hu
    cases hrest
    exact addTabSiblingAtWithFocus_anchored fuel hjoining.2.1 hadd

/-- The placements that add a tab. -/
def joinsTab (placement : NodeJoinPlacement) : Prop :=
  placement = .tabBefore ∨ placement = .tabAfter

theorem placeJoined_placed (fuel : ℕ) {r : ℕ} {nodeId : NodeId} (placement : NodeJoinPlacement)
    (doFocus : Bool) (h : Joining bufferId newView sourceView (r + 2) s)
    (hplace : joinsTab placement → HasTabPlace fuel nodeId s) :
    Placed bufferId newView sourceView r
      (placeJoined fuel nodeId newView bufferId placement doFocus s) := by
  cases placement with
  | left => exact joinSplit_placed fuel nodeId .vertical true doFocus h
  | right => exact joinSplit_placed fuel nodeId .vertical false doFocus h
  | up => exact joinSplit_placed fuel nodeId .horizontal true doFocus h
  | down => exact joinSplit_placed fuel nodeId .horizontal false doFocus h
  | tabBefore => exact joinTab_placed fuel false doFocus h (hplace (.inl rfl))
  | tabAfter => exact joinTab_placed fuel true doFocus h (hplace (.inr rfl))

/-! ## Leaving the old view -/

/-- Once the old view is closed, the buffer is attached nowhere. -/
theorem attachedTo_of_closed {fuel : ℕ} {r : ℕ} (h : Joining bufferId newView sourceView r s)
    (htied : Tied (some newView) s') (hclose : closeNode fuel sourceView s = (.ok (), s')) :
    s'.attachedTo bufferId = none ∧ bufferId ∈ s'.buffers := by
  obtain ⟨leaf, hleaf, -⟩ := exists_view_of_shown h.source.1
  have hfewer := closeNode_fewerViews fuel h.1.1 hleaf
  rw [hclose] at hfewer
  have hgone : s'.shown sourceView = none := by
    have hclosed := @closeNode_view _ _ bufferId _ fuel _ h.1.1 hleaf
    rw [hclose] at hclosed
    rcases hclosed with hdiverges | hgone | ⟨-, e, he⟩
    · cases hdiverges
    · exact hgone
    · cases he
  constructor
  · -- Another view of the buffer would have been one before, and there was only the old one.
    rw [Option.eq_none_iff_forall_ne_some]
    intro nodeId hattached
    obtain ⟨hshown, hspare⟩ := (htied.paired nodeId bufferId).mp hattached
    have hbefore := (h.1.1.paired nodeId bufferId).mpr ⟨hfewer.shown nodeId bufferId hshown, hspare⟩
    rw [h.2.2, Option.some_inj] at hbefore
    rw [← hbefore, hgone] at hshown
    cases hshown
  · obtain ⟨buffer, hget, -⟩ := Option.bind_eq_some_iff.mp h.2.2
    refine hfewer.buffers bufferId ?_
    rw [← Std.ExtTreeMap.isSome_getElem?_iff_mem, hget]
    rfl

theorem finishJoin_tied (fuel : ℕ) {r : ℕ} (h : Joining bufferId newView sourceView (r + 1) s)
    (hanchored : Anchored bufferId newView s)
    (hends : (finishJoin fuel bufferId newView (some sourceView) s).1 ≠ .error .diverges) :
    TiedWith none r (finishJoin fuel bufferId newView (some sourceView) s).2 := by
  obtain ⟨hshown, hne⟩ := h.source
  obtain ⟨leaf, hleaf, -⟩ := exists_view_of_shown hshown
  have hafter := closeNode_anchoring fuel hleaf hne (r + 1) ⟨h.1, hanchored⟩
  rw [finishJoin, bind_apply, attempt] at hends ⊢
  rcases hclose : closeNode fuel sourceView s with ⟨(e | _) | _, t⟩
  · -- The old view stays, so the new one goes.
    rw [hclose] at hafter hends
    obtain ⟨htied, hanchored'⟩ := hafter
    obtain ⟨leaf', hleaf', -⟩ := exists_view_of_shown hanchored'.view
    have hspends := closeNode_spends fuel newView t r htied
    have hgone := @closeNode_view _ _ bufferId _ fuel _ htied.1 hleaf'
    dsimp only at hends ⊢
    rw [bind_apply, attempt] at hends ⊢
    rcases hback : closeNode fuel newView t with ⟨(e' | _) | _, u⟩
    · rw [hback] at hspends hgone
      rcases hgone with hdiverges | hgone | ⟨hnot, -⟩
      · cases hdiverges
      · exact ⟨hspends.1.spareGone hgone, hspends.2⟩
      · exact absurd hanchored' hnot
    · rw [hback] at hends
      exact absurd rfl hends
    · rw [hback] at hspends hgone
      rcases hgone with hdiverges | hgone | ⟨hnot, -⟩
      · cases hdiverges
      · exact ⟨hspends.1.spareGone hgone, hspends.2⟩
      · exact absurd hanchored' hnot
  · rw [hclose] at hends
    exact absurd rfl hends
  · rw [hclose] at hafter
    obtain ⟨htied, hanchored'⟩ := hafter
    obtain ⟨hfree, hmem⟩ := attachedTo_of_closed h htied.1 hclose
    have hroom := tiedWith_wastes r 1 t htied
    dsimp only
    rw [setBufferAttached_eq hmem]
    exact ⟨hroom.1.attach (.inr rfl) hmem (.inl hfree) hanchored'.view fun _ ↦ rfl, hroom.2⟩

/-! ## Joining -/

/-- Placing a view that is attached. -/
theorem orUndoJoin_spends {spare : Option NodeId} (fuel : ℕ) (newView : NodeId)
    (wrapper : Option NodeId) {place : StateOp Unit} {k : ℕ}
    (hplace : Spends (TiedWith spare) k place s) :
    Spends (TiedWith spare) (k + 1) (orUndoJoin fuel newView wrapper place) s := by
  refine .bind tiedWith_wastes (.attempt hplace) fun result t _ ↦ ?_
  cases result with
  | ok => exact .mono tiedWith_wastes (.pure _) (Nat.zero_le 1)
  | error =>
    exact .bind_left tiedWith_wastes (undoJoin_spends fuel newView wrapper t) fun _ _ _ ↦ .throw _

theorem placeJoined_spends {spare : Option NodeId} (fuel : ℕ) (nodeId newView : NodeId)
    (bufferId : BufferId) (placement : NodeJoinPlacement) (doFocus : Bool) (s : ServerState) :
    Spends (TiedWith spare) 2 (placeJoined fuel nodeId newView bufferId placement doFocus) s := by
  have hsplit : ∀ direction insertBefore, Spends (TiedWith spare) 2
      (joinSplit fuel nodeId newView direction insertBefore doFocus) s := fun direction insertBefore ↦
    orUndoJoin_spends fuel newView none (.bind_left tiedWith_wastes (wrapNodeInSplitWithFocus_spends
      tiedWith_steady fuel nodeId direction newView insertBefore doFocus s) fun _ _ _ ↦ .pure _)
  have htab : ∀ after, Spends (TiedWith spare) 2
      (joinTab fuel nodeId newView bufferId after doFocus) s := fun after ↦
    .ask_bind tiedWith_wastes fun buffer _ ↦ .bind (k := 1) (l := 1) tiedWith_wastes
      (joinTabs_spends tiedWith_steady fuel nodeId s) fun tabs t _ ↦
      .ask_bind tiedWith_wastes fun index _ ↦ orUndoJoin_spends (k := 0) fuel newView _
        (spends_of_sameViews ((Keeps.bind (addTabSiblingAtWithFocus_sameViews fuel tabs.1 index
          buffer.title newView doFocus) fun _ ↦ .pure _) t))
  cases placement with
  | left => exact hsplit .vertical true
  | right => exact hsplit .vertical false
  | up => exact hsplit .horizontal true
  | down => exact hsplit .horizontal false
  | tabBefore => exact htab false
  | tabAfter => exact htab true

/-- The join finds a place for its tab, when it is one that moves a view: one for which the checks
before the new view is made pass, of a buffer that is attached. The place is looked for once the
view is made. -/
def FindsTabPlace (fuel : ℕ) (nodeId : NodeId) (bufferId : BufferId) (placement : NodeJoinPlacement)
    (s : ServerState) : Prop :=
  ∀ targetSession visible sourceView, joinsTab placement →
    s.nodeSessionId nodeId = .ok targetSession →
    s.isNodeVisibleInSession fuel targetSession nodeId = .ok visible →
    joinSource fuel nodeId bufferId targetSession s = .ok (some sourceView) →
    HasTabPlace fuel nodeId (createUnattachedBufferView targetSession bufferId s).2

theorem joinSource_some {fuel : ℕ} {nodeId : NodeId} {targetSession : SessionId}
    (h : joinSource fuel nodeId bufferId targetSession s = .ok (some sourceView)) :
    s.attachedTo bufferId = some sourceView := by
  obtain ⟨buffer, hbuffer, h⟩ := Answer.ok_bind h
  rw [attachedTo, buffer_eq_ok.mp hbuffer, Option.bind_some]
  cases hattachment : buffer.attachment with
  | detached =>
    rw [hattachment] at h
    cases h
  | attached view =>
    rw [hattachment] at h
    obtain ⟨sourceSession, -, h⟩ := Answer.ok_bind h
    split at h
    · cases h
    · split at h
      · cases h
      · obtain ⟨inside, -, h⟩ := Answer.ok_bind h
        cases inside with
        | true => cases h
        | false =>
          cases h
          rfl

theorem joinBufferAtNode_tied {fuel : ℕ} {r : ℕ} {nodeId : NodeId} {placement : NodeJoinPlacement}
    (h : TiedWith none (r + 4) s) (hfinds : FindsTabPlace fuel nodeId bufferId placement s)
    (hends : (joinBufferAtNode fuel nodeId bufferId placement s).1 ≠ .error .diverges) :
    TiedWith none r (joinBufferAtNode fuel nodeId bufferId placement s).2 := by
  have hkept : TiedWith none r s := tiedWith_wastes r 4 s h
  have hzoom : ∀ (sessionId : SessionId) (t : ServerState), TiedWith none r t →
      TiedWith none r (normalizeZoomedNode fuel sessionId t).2 := fun sessionId t ht ↦
    (keeps_sameViews_of_sameFrame (normalizeZoomedNode_sameFrame fuel sessionId) t).tiedWith ht
  rw [joinBufferAtNode, bind_apply, ask_apply] at hends ⊢
  rcases hsession : s.nodeSessionId nodeId with e | targetSession
  · exact hkept
  rw [hsession] at hends
  dsimp only at hends ⊢
  rw [bind_apply, ask_apply] at hends ⊢
  rcases hvisible : s.isNodeVisibleInSession fuel targetSession nodeId with e | doFocus
  · exact hkept
  rw [hvisible] at hends
  dsimp only at hends ⊢
  rw [bind_apply, ask_apply] at hends ⊢
  rcases hsource : joinSource fuel nodeId bufferId targetSession s with e | source
  · exact hkept
  rw [hsource] at hends
  dsimp only at hends ⊢
  cases source with
  | none =>
    -- The new view is attached from the start.
    have hspends : Spends (TiedWith none) 4 (do
        let newView ← createJoinView targetSession bufferId none
        placeJoined fuel nodeId newView bufferId placement doFocus
        finishJoin fuel bufferId newView none
        normalizeZoomedNode fuel targetSession : StateOp Unit) s := by
      refine .mono tiedWith_wastes (.bind (k := 1) (l := 2) tiedWith_wastes
        (createBufferView_spends targetSession bufferId s) fun newView t _ ↦
        .bind_left tiedWith_wastes (placeJoined_spends fuel nodeId newView bufferId placement doFocus t)
        fun _ u _ ↦ .bind_right tiedWith_wastes (.pure _) fun _ v _ ↦ ?_) (by decide)
      exact spends_of_sameViews (keeps_sameViews_of_sameFrame
        (normalizeZoomedNode_sameFrame fuel targetSession) v)
    exact hspends r h
  | some sourceView =>
    have hattached := joinSource_some hsource
    have hfound := hfinds targetSession doFocus sourceView
    have hcreateJoin : createJoinView targetSession bufferId (some sourceView) =
      createUnattachedBufferView targetSession bufferId := rfl
    rw [hcreateJoin, bind_apply] at hends ⊢
    rcases hcreate : createUnattachedBufferView targetSession bufferId s with ⟨e | newView, t⟩
    · rw [createUnattachedBufferView_error hcreate]
      exact hkept
    obtain ⟨htied, hview, -, hbuffers, -⟩ := createUnattachedBufferView_ok h hcreate
    have hjoining : Joining bufferId newView sourceView (r + 1 + 2) t := by
      refine ⟨htied, hview, ?_⟩
      rw [attachedTo, hbuffers]
      exact hattached
    rw [hcreate] at hends hfound
    dsimp only at hends ⊢
    have hplaced := placeJoined_placed fuel placement doFocus hjoining fun htab ↦
      hfound htab hsession hvisible hsource
    rw [bind_apply] at hends ⊢
    rcases hplace : placeJoined fuel nodeId newView bufferId placement doFocus t with ⟨(e | _) | _, u⟩
    · rw [hplace] at hplaced
      exact tiedWith_wastes r 1 u hplaced
    · rw [hplace] at hends
      exact absurd rfl hends
    · rw [hplace] at hplaced hends
      obtain ⟨hjoined, hanchored⟩ := hplaced
      have hfinish := finishJoin_tied fuel hjoined hanchored
      dsimp only at hends ⊢
      rw [bind_apply] at hends ⊢
      rcases hcall : finishJoin fuel bufferId newView (some sourceView) u with ⟨e | _, v⟩
      · rw [hcall] at hfinish hends
        exact hfinish hends
      · rw [hcall] at hfinish
        exact hzoom targetSession v (hfinish (by simp))

/-! ## Single records -/

theorem renameTab_sameViews (tabsId : NodeId) (index : ℕ) (title : String) :
    Keeps SameViews (renameTab tabsId index title) :=
  .bind (.ask _) fun _ ↦ .modify fun s ↦ sameViews_mapNode s tabsId (Node.kind_mapTabs _)

theorem setRootTabSynchronizePanes_sameViews (sessionId : SessionId) (index : ℕ)
    (enabled : Option Bool) :
    Keeps SameViews (setRootTabSynchronizePanes sessionId index enabled) := by
  refine .bind (.ask _) fun rootTabs ↦ .bind (.ask _) fun tabs ↦ ?_
  split
  · exact .throw _
  · exact .bind (.modify fun s ↦ sameViews_mapNode s rootTabs (Node.kind_mapTabs _)) fun _ ↦ .pure _

theorem resizeSplitChildren_sameViews (splitId : NodeId) (sizes : List UInt16) :
    Keeps SameViews (resizeSplitChildren splitId sizes) := by
  refine .bind (.ask _) fun node ↦ ?_
  split
  · split
    · exact .throw _
    · split
      · exact .throw _
      · exact .modify fun s ↦ sameViews_mapNode s splitId (Node.kind_mapSplit _)
  · exact .throw _

theorem syncBufferViewSize_sameViews (bufferId : BufferId) :
    Keeps SameViews (syncBufferViewSize bufferId) := by
  refine .bind (.ask _) fun buffer ↦ ?_
  split
  · exact .pure _
  next nodeId _ =>
    refine .bind (.ask _) fun node ↦ ?_
    split
    · split
      · exact .bind (.modify fun s ↦ sameViews_mapNode s nodeId (Node.kind_mapView fun _ ↦ rfl))
          fun _ ↦ .pure _
      · exact .pure _
    · exact .pure _

theorem interruptUnrecoverableBuffers_sameViews :
    Keeps SameViews interruptUnrecoverableBuffers := by
  refine .modify fun s ↦ ⟨fun _ ↦ rfl, fun bufferId ↦ ?_, rfl, rfl, fun sessionId session h ↦
    .inl ⟨sessionId, session, h, rfl⟩⟩
  rw [Std.ExtTreeMap.getElem?_map, Option.map_map]
  rfl

end ServerState

/-! ## Runs -/

namespace Command

open ServerState Op

/-- What a step must meet: ids are left for the nodes and the buffer it may make, and a join that
moves a view finds a place for its tab. -/
structure Calm (fuel : ℕ) (command : Command) (s : ServerState) : Prop where
  nodeIds : s.nodeIds.counter.toNat + s.buffers.size + 4 < 2 ^ 64
  bufferIds : s.bufferIds.counter.toNat + 1 < 2 ^ 64
  finds (nodeId : NodeId) (bufferId : BufferId) (placement : NodeJoinPlacement)
    (h : command = .joinBufferAtNode nodeId bufferId placement) :
    FindsTabPlace fuel nodeId bufferId placement s

/-- A command that is carried out, whether it returns or fails, in a state it may be. -/
def CalmStep (s s' : ServerState) : Prop :=
  ∃ fuel command, Calm fuel command s ∧ Ends fuel command s s'

variable {s s' : ServerState}

/-- What each command but a join spends. -/
theorem run_spends (fuel : ℕ) (command : Command) (hroom : s.bufferIds.counter.toNat + 1 < 2 ^ 64)
    (hjoin : ∀ nodeId bufferId placement, command ≠ .joinBufferAtNode nodeId bufferId placement) :
    Spends (TiedWith none) (s.buffers.size + 4) (command.run fuel) s := by
  have few : ∀ {α : Type} {m : StateOp α} {k : ℕ}, Spends (TiedWith none) k m s → k ≤ 2 →
      Spends (TiedWith none) (s.buffers.size + 4) m s := fun hm hk ↦
    .mono tiedWith_wastes hm (by omega)
  have dropped : ∀ {α : Type} {m : StateOp α} {k : ℕ}, Spends (TiedWith none) k m s → k ≤ 2 →
      Spends (TiedWith none) (s.buffers.size + 4) (void m) s := fun hm hk ↦
    .mono tiedWith_wastes (.bind_left tiedWith_wastes hm fun _ _ _ ↦ .pure _) (by omega)
  have same : ∀ {m : StateOp Unit}, Keeps SameViews m →
      Spends (TiedWith none) (s.buffers.size + 4) m s := fun hm ↦
    few (spends_of_sameViews (hm s)) (Nat.zero_le 2)
  have framed : ∀ {m : StateOp Unit}, Keeps SameFrame m →
      Spends (TiedWith none) (s.buffers.size + 4) m s := fun hm ↦
    same (keeps_sameViews_of_sameFrame hm)
  cases command with
  | createSession name now => exact dropped (createSession_spends name now s) (by decide)
  | closeSession sessionId => exact few (closeSession_spends fuel sessionId s) (Nat.zero_le 2)
  | renameSession sessionId name =>
    refine same ?_
    rw [run, ServerState.renameSession]
    split
    · exact .throw _
    · exact sessionMut_sameViews sessionId fun _ ↦ rfl
  | setSessionBaseIndex sessionId baseIndex =>
    exact same (.bind (sessionMut_sameViews sessionId fun _ ↦ rfl) fun _ ↦ .modify fun s ↦
      sameViews_of_sessions rfl rfl rfl rfl fun sessionId session h ↦ ⟨sessionId, session, h, rfl⟩)
  | setSessionViewport sessionId viewport paneTitles =>
    exact same (.bind (sessionMut_sameViews sessionId fun _ ↦ rfl) fun _ ↦ .modify fun s ↦
      sameViews_of_sessions rfl rfl rfl rfl fun sessionId session h ↦ ⟨sessionId, session, h, rfl⟩)
  | createBufferWithEnv title command cwd env now =>
    exact dropped (insertBuffer_spends hroom rfl) (Nat.zero_le 2)
  | createHelperBuffer title sourceBufferId scope cwd lines now =>
    exact dropped (.ask_bind tiedWith_wastes fun source _ ↦ insertBuffer_spends hroom rfl)
      (Nat.zero_le 2)
  | removeBuffer bufferId => exact dropped (removeBuffer_spends bufferId s) (Nat.zero_le 2)
  | disposeExitedBuffers =>
    exact .mono tiedWith_wastes (.bind_left tiedWith_wastes (disposeExitedBuffers_spends fuel s)
      fun _ _ _ ↦ .pure _) (Nat.le_add_right _ _)
  | markBufferRunning bufferId pid =>
    refine same (.bind (.ask _) fun buffer ↦ ?_)
    split
    · exact .throw _
    · exact bufferMut_sameViews bufferId fun _ ↦ rfl
  | markBufferInterrupted bufferId pid =>
    refine same (bufferMut_sameViews bufferId fun buffer ↦ ?_)
    split <;> rfl
  | markBufferExited bufferId exitCode now => exact same (bufferMut_sameViews bufferId fun _ ↦ rfl)
  | interruptUnrecoverableBuffers => exact same interruptUnrecoverableBuffers_sameViews
  | setBufferPlacement bufferId placement => exact same (bufferMut_sameViews bufferId fun _ ↦ rfl)
  | setBufferSize bufferId size => exact same (bufferMut_sameViews bufferId fun _ ↦ rfl)
  | syncBufferViewSize bufferId =>
    exact same (.bind (syncBufferViewSize_sameViews bufferId) fun _ ↦ .pure _)
  | noteBufferOutput bufferId =>
    exact same (.bind (.bind (.ask _) fun _ ↦ .bind (bufferMut_sameViews bufferId fun _ ↦ rfl)
      fun _ ↦ .pure _) fun _ ↦ .pure _)
  | setBufferTitle bufferId title => exact same (bufferMut_sameViews bufferId fun _ ↦ rfl)
  | setBufferActivity bufferId newActivity =>
    exact framed (setBufferActivity_sameFrame bufferId newActivity)
  | acknowledgeShownActivity sessionId =>
    exact framed (.bind (acknowledgeShownActivity_sameFrame fuel sessionId) fun _ ↦ .pure _)
  | createBufferView sessionId bufferId =>
    exact dropped (createBufferView_spends sessionId bufferId s) (by decide)
  | createSplitNode sessionId direction children =>
    exact dropped (createSplitNode_spends sessionId direction children s) (by decide)
  | createTabsNode sessionId tabs active =>
    exact dropped (createTabsNode_spends sessionId tabs active s) (by decide)
  | createFloatingWindow sessionId rootNode geometry title focus closeOnEmpty =>
    exact same (.bind (createFloatingWindow_sameViews fuel sessionId rootNode geometry title focus
      closeOnEmpty) fun _ ↦ .pure _)
  | createFloatingFromBuffer sessionId bufferId geometry title focus closeOnEmpty =>
    exact dropped (createFloatingFromBuffer_spends fuel sessionId bufferId geometry title focus
      closeOnEmpty s) (by decide)
  | closeFloating floatingId => exact few (closeFloating_spends fuel floatingId s) (Nat.zero_le 2)
  | focusFloating floatingId => exact framed (focusFloating_sameFrame fuel floatingId)
  | moveFloating floatingId geometry => exact same (floatingMut_sameViews floatingId _)
  | setFloatingBorder floatingId border => exact same (floatingMut_sameViews floatingId _)
  | addRootTabFromBuffer sessionId title bufferId =>
    exact dropped (addRootTabFromBuffer_spends fuel sessionId title bufferId s) (by decide)
  | addRootTabFromSubtree sessionId title child =>
    exact same (.bind (addRootTabFromSubtree_sameViews fuel sessionId title child) fun _ ↦ .pure _)
  | addTabSiblingAt tabsId index title child =>
    exact same (.bind (addTabSiblingAtWithFocus_sameViews fuel tabsId index title child true)
      fun _ ↦ .pure _)
  | addTabFromBufferAt tabsId index title bufferId =>
    exact dropped (addTabFromBufferAt_spends fuel tabsId index title bufferId s) (by decide)
  | selectRootTab sessionId index =>
    exact framed (.bind (.ask _) fun rootTabs ↦ switchTab_sameFrame fuel rootTabs index)
  | renameRootTab sessionId index title =>
    exact same (.bind (.ask _) fun rootTabs ↦ renameTab_sameViews rootTabs index title)
  | renameTab tabsId index title => exact same (renameTab_sameViews tabsId index title)
  | setRootTabSynchronizePanes sessionId index enabled =>
    exact same (.bind (setRootTabSynchronizePanes_sameViews sessionId index enabled) fun _ ↦ .pure _)
  | closeRootTab sessionId index =>
    exact few (.ask_bind tiedWith_wastes fun rootTabs _ ↦ closeTab_spends fuel rootTabs index s)
      (Nat.zero_le 2)
  | switchTab tabsId index => exact framed (switchTab_sameFrame fuel tabsId index)
  | closeTab tabsId index => exact few (closeTab_spends fuel tabsId index s) (Nat.zero_le 2)
  | wrapNodeInTabs nodeId title =>
    exact dropped (wrapNodeInTabs_spends tiedWith_steady nodeId title s) (by decide)
  | wrapNodeInSplit nodeId direction sibling insertBefore =>
    exact dropped (wrapNodeInSplitWithFocus_spends tiedWith_steady fuel nodeId direction sibling
      insertBefore true s) (by decide)
  | splitLeafWithNewBuffer leafId direction newBuffer =>
    exact dropped (splitLeafWithNewBuffer_spends fuel leafId direction newBuffer s) (by decide)
  | resizeSplitChildren splitId sizes => exact same (resizeSplitChildren_sameViews splitId sizes)
  | replaceNode nodeId replacement =>
    exact few (replaceNode_spends fuel nodeId replacement s) (Nat.zero_le 2)
  | closeNode nodeId => exact few (closeNode_spends fuel nodeId s) (by decide)
  | swapSiblingNodes firstNodeId secondNodeId => exact same (rearrange_sameViews _ _ _ _ _ _)
  | moveNodeBefore nodeId siblingNodeId => exact same (rearrange_sameViews _ _ _ _ _ _)
  | moveNodeAfter nodeId siblingNodeId => exact same (rearrange_sameViews _ _ _ _ _ _)
  | breakNode nodeId toFloating => exact few (breakNode_spends fuel nodeId toFloating s) (Nat.zero_le 2)
  | joinBufferAtNode nodeId bufferId placement => exact absurd rfl (hjoin nodeId bufferId placement)
  | attachBuffer bufferId nodeId => exact few (attachBuffer_spends bufferId nodeId s) (Nat.zero_le 2)
  | moveBufferToLeaf bufferId targetLeaf =>
    exact few (moveBufferToLeaf_spends fuel bufferId targetLeaf s) (by decide)
  | detachBuffer bufferId => exact few (detachBuffer_spends fuel bufferId s) (by decide)
  | focusLeaf sessionId leafId => exact framed (focusLeaf_sameFrame fuel sessionId leafId)
  | selectPane sessionId leafId => exact framed (selectPane_sameFrame fuel sessionId leafId)
  | showNode sessionId nodeId => exact framed (showNode_sameFrame fuel sessionId nodeId)
  | focusLastPane sessionId => exact framed (focusLastPane_sameFrame fuel sessionId)
  | zoomNode nodeId => exact framed (zoomNode_sameFrame fuel nodeId)
  | unzoomSession sessionId => exact framed (unzoomSession_sameFrame sessionId)
  | toggleZoomNode nodeId => exact framed (toggleZoomNode_sameFrame fuel nodeId)

/-- A calm step keeps views and buffers tied. -/
theorem CalmStep.tied (h : CalmStep s s') (htied : Tied none s) : Tied none s' := by
  obtain ⟨fuel, command, hcalm, rfl, hends⟩ := h
  have hroom : s.nodeIds.counter.toNat + (0 + (s.buffers.size + 4)) < 2 ^ 64 := by
    have := hcalm.nodeIds
    omega
  by_cases hjoin : ∃ nodeId bufferId placement, command = .joinBufferAtNode nodeId bufferId placement
  · obtain ⟨nodeId, bufferId, placement, rfl⟩ := hjoin
    have hfour : TiedWith none (0 + 4) s := ⟨htied, by omega⟩
    exact (joinBufferAtNode_tied hfour (hcalm.finds nodeId bufferId placement rfl) hends).1
  · refine (run_spends fuel command hcalm.bufferIds (fun nodeId bufferId placement heq ↦
      hjoin ⟨nodeId, bufferId, placement, heq⟩) 0 ⟨htied, hroom⟩).1

theorem tied_new : Tied none ServerState.new where
  paired _ _ := iff_of_false nofun fun h ↦ nomatch h.1
  nodesIssued _ h := absurd h Std.ExtTreeMap.not_mem_empty
  buffersIssued _ h := absurd h Std.ExtTreeMap.not_mem_empty
  rootsIssued _ _ h := nomatch h
  rootsTabs _ _ _ h := nomatch h

/-- In every state a run of calm steps reaches, whatever their outcomes, a buffer is attached to a
node exactly when that node is a view of it, no two views show one buffer, and no view shows a
buffer that is not in the table. -/
theorem paired_of_calm_run (hrun : Relation.ReflTransGen CalmStep ServerState.new s) :
    s.Paired ∧
    (∀ nodeId nodeId' bufferId, s.shown nodeId = some bufferId → s.shown nodeId' = some bufferId →
      nodeId = nodeId') ∧
    ∀ nodeId bufferId, s.shown nodeId = some bufferId → bufferId ∈ s.buffers := by
  have htied : Tied none s := by
    induction hrun with
    | refl => exact tied_new
    | tail _ hstep ih => exact hstep.tied ih
  have hpaired := htied.isPaired
  refine ⟨hpaired, fun nodeId nodeId' bufferId h h' ↦ ?_, fun nodeId bufferId h ↦ ?_⟩
  · rw [← hpaired] at h h'
    rwa [h, Option.some_inj] at h'
  · rw [← hpaired] at h
    obtain ⟨buffer, hget, -⟩ := Option.bind_eq_some_iff.mp h
    rw [← Std.ExtTreeMap.isSome_getElem?_iff_mem, hget]
    rfl

/-- The state after the commands, if each of them may be carried out and returns or fails. -/
def runEach (fuel : ℕ) (may : Command → ServerState → Bool) :
    List Command → ServerState → Option ServerState
  | [], s => some s
  | command :: commands, s =>
    match (command.run fuel s).1 with
    | .error .diverges => none
    | _ => if may command s then runEach fuel may commands (command.run fuel s).2 else none

theorem runEach_steps {fuel : ℕ} {may : Command → ServerState → Bool}
    {R : ServerState → ServerState → Prop}
    (hstep : ∀ command s s', may command s = true → Ends fuel command s s' → R s s') :
    ∀ {commands : List Command} {s s' : ServerState}, runEach fuel may commands s = some s' →
      Relation.ReflTransGen R s s'
  | [], s, s', h => by
    cases h
    exact .refl
  | command :: commands, s, s', h => by
    rw [runEach] at h
    split at h
    · cases h
    next hends =>
      split at h
      next hmay => exact .head (hstep command s _ hmay ⟨rfl, hends⟩) (runEach_steps hstep h)
      · cases h

/-- The joins that add a tab. -/
def addsJoinedTab : Command → Bool
  | .joinBufferAtNode _ _ .tabBefore => true
  | .joinBufferAtNode _ _ .tabAfter => true
  | _ => false

/-- Commands that join no tab, while few ids are in use. -/
def early (command : Command) (s : ServerState) : Bool :=
  !command.addsJoinedTab && s.nodeIds.counter.toNat + s.buffers.size + 4 < 100 &&
    s.bufferIds.counter.toNat < 100

theorem calmStep_of_early {fuel : ℕ} (command : Command) (s s' : ServerState)
    (hearly : early command s = true) (hends : Ends fuel command s s') : CalmStep s s' := by
  rw [early, Bool.and_eq_true, Bool.and_eq_true, decide_eq_true_eq, decide_eq_true_eq] at hearly
  obtain ⟨⟨hplacement, hnodes⟩, hbuffers⟩ := hearly
  refine ⟨fuel, command, ⟨by omega, by omega, ?_⟩, hends⟩
  rintro nodeId bufferId placement rfl
  intro targetSession visible sourceView htab
  rcases htab with rfl | rfl <;> cases hplacement

/-- Two windows, and the buffer of the second joined to the pane of the first. -/
def joinedPanes : List Command :=
  [.createSession "main" ⟨0⟩, .createBufferWithEnv "one" [] none ∅ ⟨0⟩,
    .createBufferWithEnv "two" [] none ∅ ⟨0⟩, .addRootTabFromBuffer ⟨1⟩ "one" ⟨1⟩,
    .addRootTabFromBuffer ⟨1⟩ "two" ⟨2⟩, .joinBufferAtNode ⟨2⟩ ⟨2⟩ .left]

theorem joinedPanes_attached : (runEach 20 early joinedPanes ServerState.new).map
    (fun s ↦ (s.attachedTo ⟨1⟩, s.attachedTo ⟨2⟩)) = some (some ⟨2⟩, some ⟨4⟩) := by
  decide +kernel

/-- After the join, the second buffer is shown by its new view and no other. -/
theorem paired_of_calm_run_joined : ∃ s, Relation.ReflTransGen CalmStep ServerState.new s ∧
    s.attachedTo ⟨2⟩ = some ⟨4⟩ ∧ s.shown ⟨4⟩ = some ⟨2⟩ := by
  obtain ⟨s, hs, hattached⟩ := Option.map_eq_some_iff.mp joinedPanes_attached
  have hrun := runEach_steps calmStep_of_early hs
  have htwo : s.attachedTo ⟨2⟩ = some ⟨4⟩ := congrArg Prod.snd hattached
  exact ⟨s, hrun, htwo, ((paired_of_calm_run hrun).1 ⟨4⟩ ⟨2⟩).mp htwo⟩

/-- A view outside every layout, and the buffer of a window joined to it as a tab. -/
def joinedToLooseView : List Command :=
  [.createSession "main" ⟨0⟩, .createBufferWithEnv "one" [] none ∅ ⟨0⟩,
    .createBufferWithEnv "two" [] none ∅ ⟨0⟩, .addRootTabFromBuffer ⟨1⟩ "one" ⟨1⟩,
    .createBufferView ⟨1⟩ ⟨2⟩, .joinBufferAtNode ⟨3⟩ ⟨1⟩ .tabAfter]

theorem joinedToLooseView_shown : (runEach 20 (fun _ _ ↦ true) joinedToLooseView ServerState.new).map
    (fun s ↦ (s.shown ⟨2⟩, s.shown ⟨4⟩)) = some (some ⟨1⟩, some ⟨1⟩) := by
  decide +kernel

/-- The join fails and leaves a second view of the buffer behind. -/
theorem views_share_buffer : ∃ s,
    Relation.ReflTransGen (fun s s' ↦ ∃ fuel command, Ends fuel command s s') ServerState.new s ∧
    ¬ (s.Paired ∧
      (∀ nodeId nodeId' bufferId, s.shown nodeId = some bufferId → s.shown nodeId' = some bufferId →
        nodeId = nodeId') ∧
      ∀ nodeId bufferId, s.shown nodeId = some bufferId → bufferId ∈ s.buffers) := by
  obtain ⟨s, hs, hshown⟩ := Option.map_eq_some_iff.mp joinedToLooseView_shown
  have hrun := runEach_steps (R := fun s s' ↦ ∃ fuel command, Ends fuel command s s')
    (fun command s s' _ hends ↦ ⟨20, command, hends⟩) hs
  refine ⟨s, hrun, fun h ↦ ?_⟩
  have hsame := h.2.1 ⟨2⟩ ⟨4⟩ ⟨1⟩ (congrArg Prod.fst hshown) (congrArg Prod.snd hshown)
  cases hsame

end Command

end Embers
