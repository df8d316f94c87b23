import Embers.State.EditCases
import Embers.State.ViewsPlaced

/-!
# Views that can be closed

Closing a view takes it out of the list of its parent, or takes down the popup whose root it is.
A view for which one of these works is `Anchored`. Closing another view normalizes the containers
above that one, which may move this one up or make it the root of a popup; it stays anchored
whatever happens, and that is what makes closing it a safe way back.
-/

namespace Embers

namespace ServerState

open Op

variable {s s' : ServerState} {spare : Option NodeId} {bufferId : BufferId}

/-! ## Views that can be closed -/

/-- The parent of the node, if it exists and has one. -/
def parentOf (s : ServerState) (nodeId : NodeId) : Option NodeId := s.nodes[nodeId]?.bind Node.parent

/-- Some popup has this root. -/
def PopupRoot (s : ServerState) (nodeId : NodeId) : Prop :=
  ∃ (floatingId : FloatingId) (floating : FloatingWindow),
    s.floating[floatingId]? = some floating ∧ floating.rootNode = nodeId

/-- A view of the buffer whose parent lists it, or that is the root of a popup. -/
structure Anchored (bufferId : BufferId) (nodeId : NodeId) (s : ServerState) : Prop where
  view : s.shown nodeId = some bufferId
  listed (parentId : NodeId) (h : s.parentOf nodeId = some parentId) : s.Lists parentId nodeId
  popup (h : s.parentOf nodeId = none) : s.PopupRoot nodeId

/-- A view has no children. -/
theorem Anchored.not_lists {nodeId childId : NodeId} (h : Anchored bufferId nodeId s) :
    ¬ s.Lists nodeId childId := by
  rintro ⟨node, hnode, hchild⟩
  have hshown := h.view
  rw [shown_eq hnode] at hshown
  cases node with
  | bufferView => cases hchild
  | split => cases hshown
  | tabs => cases hshown

theorem parentOf_mapNode (nodeId nodeId' : NodeId) {f : Node → Node}
    (hf : ∀ node, (f node).parent = node.parent) :
    (s.mapNode nodeId' f).parentOf nodeId = s.parentOf nodeId := by
  rw [parentOf, parentOf, mapNode, Table.get?_modify]
  split
  · rw [Option.bind_map]
    exact congrArg (Option.bind _) (funext hf)
  · rfl

theorem Lists.mapNode {parentId childId nodeId : NodeId} {f : Node → Node}
    (h : s.Lists parentId childId) (hf : ∀ node, childId ∈ node.childIds → childId ∈ (f node).childIds) :
    (s.mapNode nodeId f).Lists parentId childId := by
  obtain ⟨parent, hparent, hchild⟩ := h
  rw [Lists, ServerState.mapNode, Table.get?_modify, hparent]
  split
  · exact ⟨f parent, rfl, hf parent hchild⟩
  · exact ⟨parent, rfl, hchild⟩

/-- A change of one node that keeps its parent and the view in its list. -/
theorem Anchored.mapNode {nodeId nodeId' : NodeId} {f : Node → Node} (h : Anchored bufferId nodeId s)
    (hkind : ∀ node, (f node).kind = node.kind) (hparent : ∀ node, (f node).parent = node.parent)
    (hkids : ∀ node, nodeId ∈ node.childIds → nodeId ∈ (f node).childIds) :
    Anchored bufferId nodeId (s.mapNode nodeId' f) where
  view := by
    rw [(sameViews_mapNode s nodeId' hkind).shown]
    exact h.view
  listed parentId hparentOf := by
    rw [parentOf_mapNode nodeId nodeId' hparent] at hparentOf
    exact (h.listed parentId hparentOf).mapNode hkids
  popup hparentOf := by
    rw [parentOf_mapNode nodeId nodeId' hparent] at hparentOf
    exact h.popup hparentOf

theorem Lists.setParent {parentId childId nodeId : NodeId} {parent : Option NodeId}
    (h : s.Lists parentId childId) :
    (s.mapNode nodeId (Node.setParent parent)).Lists parentId childId :=
  h.mapNode fun node hmem ↦ by rwa [Node.childIds_setParent]

theorem parentOf_setParent_self {nodeId : NodeId} (parent : Option NodeId) (h : nodeId ∈ s.nodes) :
    (s.mapNode nodeId (Node.setParent parent)).parentOf nodeId = parent := by
  obtain ⟨node, hnode⟩ := mem_nodes_iff.mp h
  rw [parentOf, mapNode, Table.get?_modify, if_pos rfl, hnode]
  exact Node.parent_setParent parent node

theorem parentOf_setParent_other {nodeId nodeId' : NodeId} (parent : Option NodeId)
    (h : nodeId' ≠ nodeId) :
    (s.mapNode nodeId' (Node.setParent parent)).parentOf nodeId = s.parentOf nodeId := by
  rw [parentOf, mapNode, Table.get?_modify, if_neg h, parentOf]

/-- Another node gets another parent. -/
theorem Anchored.setParent_other {nodeId nodeId' : NodeId} (h : Anchored bufferId nodeId s)
    (hne : nodeId' ≠ nodeId) (parent : Option NodeId) :
    Anchored bufferId nodeId (s.mapNode nodeId' (Node.setParent parent)) where
  view := by
    rw [(sameViews_mapNode s nodeId' (Node.kind_setParent parent)).shown]
    exact h.view
  listed parentId hparentOf := by
    rw [parentOf_setParent_other parent hne] at hparentOf
    exact (h.listed parentId hparentOf).setParent
  popup hparentOf := by
    rw [parentOf_setParent_other parent hne] at hparentOf
    exact h.popup hparentOf

/-- The view gets a parent that lists it, or becomes the root of a popup. -/
theorem anchored_setParent_self {nodeId : NodeId} {parent : Option NodeId}
    (hview : s.shown nodeId = some bufferId)
    (hlisted : ∀ parentId, parent = some parentId → s.Lists parentId nodeId)
    (hpopup : parent = none → s.PopupRoot nodeId) :
    Anchored bufferId nodeId (s.mapNode nodeId (Node.setParent parent)) := by
  have hmem : nodeId ∈ s.nodes := by
    obtain ⟨node, hnode, -⟩ := Option.bind_eq_some_iff.mp hview
    exact mem_nodes_iff.mpr ⟨node, hnode⟩
  have hparentOf := parentOf_setParent_self parent hmem
  refine ⟨?_, fun parentId heq ↦ ?_, fun heq ↦ ?_⟩
  · rw [(sameViews_mapNode s nodeId (Node.kind_setParent parent)).shown]
    exact hview
  · exact (hlisted parentId (hparentOf.symm.trans heq)).setParent
  · exact hpopup (hparentOf.symm.trans heq)

/-- A node goes away that is not the view's parent. -/
theorem Anchored.eraseNode {nodeId nodeId' : NodeId} (h : Anchored bufferId nodeId s) (hne : nodeId' ≠ nodeId)
    (hparent : s.parentOf nodeId ≠ some nodeId') : Anchored bufferId nodeId (s.eraseNode nodeId') := by
  have hsame : (s.eraseNode nodeId').parentOf nodeId = s.parentOf nodeId := by
    rw [parentOf, ServerState.eraseNode, Table.get?_erase, if_neg hne, parentOf]
  refine ⟨?_, fun parentId hparentOf ↦ ?_, fun hparentOf ↦ h.popup (hsame ▸ hparentOf)⟩
  · rw [shown_eraseNode, if_neg hne]
    exact h.view
  · rw [hsame] at hparentOf
    obtain ⟨parent, hget, hchild⟩ := h.listed parentId hparentOf
    refine ⟨parent, ?_, hchild⟩
    rw [ServerState.eraseNode, Table.get?_erase, if_neg]
    · exact hget
    · rintro rfl
      exact hparent hparentOf

/-- Only nodes and popups matter. -/
theorem Anchored.congr {nodeId : NodeId} (h : Anchored bufferId nodeId s) (hnodes : s'.nodes = s.nodes)
    (hpopups : s.PopupRoot nodeId → s'.PopupRoot nodeId) : Anchored bufferId nodeId s' := by
  have hparent : s'.parentOf nodeId = s.parentOf nodeId := by rw [parentOf, hnodes, parentOf]
  refine ⟨?_, fun parentId heq ↦ ?_, fun heq ↦ hpopups (h.popup (hparent ▸ heq))⟩
  · rw [shown, hnodes]
    exact h.view
  · obtain ⟨parent, hget, hchild⟩ := h.listed parentId (hparent ▸ heq)
    exact ⟨parent, hnodes ▸ hget, hchild⟩

/-- Focusing moves no view. -/
theorem SameFrame.anchored {nodeId : NodeId} (h : SameFrame s s') (hanchored : Anchored bufferId nodeId s) :
    Anchored bufferId nodeId s' := by
  have hnodes := fun nodeId : NodeId ↦ congrArg (fun t : ServerState ↦ t.nodes[nodeId]?) h
  have hfloating := fun floatingId : FloatingId ↦
    congrArg (fun t : ServerState ↦ t.floating[floatingId]?) h
  simp only [frame, Std.ExtTreeMap.getElem?_map] at hnodes hfloating
  have hparent : s'.parentOf nodeId = s.parentOf nodeId := by
    have hframe := congrArg (fun o : Option Node ↦ o.bind Node.parent) (hnodes nodeId)
    simp only [Option.bind_map] at hframe
    have hsame : Node.parent ∘ Node.frame = Node.parent :=
      funext fun node ↦ by cases node <;> rfl
    rw [hsame] at hframe
    exact hframe.symm
  refine ⟨?_, fun parentId heq ↦ ?_, fun heq ↦ ?_⟩
  · rw [h.sameViews.shown]
    exact hanchored.view
  · obtain ⟨parent, hget, hchild⟩ := hanchored.listed parentId (hparent ▸ heq)
    have hframe := hnodes parentId
    rw [hget, Option.map_some, eq_comm, Option.map_eq_some_iff] at hframe
    obtain ⟨parent', hget', hsame⟩ := hframe
    refine ⟨parent', hget', ?_⟩
    have hkids : parent'.frame.childIds = parent.frame.childIds := by rw [hsame]
    have hframeKids : ∀ node : Node, node.frame.childIds = node.childIds := fun node ↦ by
      cases node <;> rfl
    rw [hframeKids, hframeKids] at hkids
    rw [hkids]
    exact hchild
  · obtain ⟨floatingId, floating, hget, hroot⟩ := hanchored.popup (hparent ▸ heq)
    have hframe := hfloating floatingId
    rw [hget, Option.map_some, eq_comm, Option.map_eq_some_iff] at hframe
    obtain ⟨floating', hget', hsame⟩ := hframe
    have hroots : floating'.frame.rootNode = floating.frame.rootNode := by rw [hsame]
    exact ⟨floatingId, floating', hget', hroots.trans hroot⟩

/-! ## Normalizing around an anchored view -/

theorem Lists.replaceChildId {parentId oldChild : NodeId} (newChild : NodeId)
    (h : s.Lists parentId oldChild) :
    (s.mapNode parentId (Node.replaceChildId oldChild newChild)).Lists parentId newChild := by
  obtain ⟨parent, hparent, hmem⟩ := h
  refine ⟨parent.replaceChildId oldChild newChild, ?_, ?_⟩
  · rw [ServerState.mapNode, Table.get?_modify, if_pos rfl, hparent]
    rfl
  · rw [Node.childIds_replaceChildId]
    exact mem_replace_self hmem

/-- The replacement of another node in a child list. -/
theorem Anchored.relink {nodeId parentId oldChild newChild : NodeId} (h : Anchored bufferId nodeId s)
    (hne : oldChild ≠ nodeId) (hlists : s.Lists parentId oldChild) :
    Anchored bufferId nodeId (s.relink parentId oldChild newChild) := by
  have hreplaced : Anchored bufferId nodeId (s.mapNode parentId (Node.replaceChildId oldChild newChild)) :=
    h.mapNode (Node.kind_replaceChildId oldChild newChild)
      (Node.parent_replaceChildId oldChild newChild) fun node hmem ↦ by
        rw [Node.childIds_replaceChildId]
        exact mem_replace_of_ne hmem (Ne.symm hne)
  have hunlinked := hreplaced.setParent_other hne none
  by_cases hnew : newChild = nodeId
  · subst hnew
    refine anchored_setParent_self hunlinked.view (fun parentId' heq ↦ ?_) nofun
    rw [← Option.some_inj.mp heq]
    exact (hlists.replaceChildId newChild).setParent
  · exact hunlinked.setParent_other hnew (some parentId)

theorem parentOf_relink {nodeId parentId oldChild newChild : NodeId} (hne : oldChild ≠ nodeId)
    (hmem : nodeId ∈ s.nodes) : (s.relink parentId oldChild newChild).parentOf nodeId =
      if newChild = nodeId then some parentId else s.parentOf nodeId := by
  rw [ServerState.relink]
  split
  next hnew =>
    subst hnew
    exact parentOf_setParent_self (some parentId)
      (mem_nodes_mapNode.mpr (mem_nodes_mapNode.mpr hmem))
  next hnew =>
    rw [parentOf_setParent_other _ hnew, parentOf_setParent_other _ hne,
      parentOf_mapNode nodeId parentId (Node.parent_replaceChildId oldChild newChild)]

/-- The replacement of the root of a popup. -/
theorem Anchored.refloat {nodeId oldNode newNode : NodeId} {floatingId : FloatingId}
    (h : Anchored bufferId nodeId s) (hne : oldNode ≠ nodeId)
    (hfloating : s.floatingIdByRoot oldNode = some floatingId) :
    Anchored bufferId nodeId (s.refloat floatingId newNode) := by
  obtain ⟨floating, hget, hroot⟩ := floatingIdByRoot_eq_some hfloating
  have hrepointed : Anchored bufferId nodeId (s.mapFloating floatingId fun floating ↦
      { floating with rootNode := newNode }) := by
    refine h.congr rfl ?_
    rintro ⟨floatingId', floating', hget', hroot'⟩
    refine ⟨floatingId', floating', ?_, hroot'⟩
    rw [mapFloating, Table.get?_modify, if_neg]
    · exact hget'
    · rintro rfl
      rw [hget, Option.some_inj] at hget'
      subst hget'
      exact hne (hroot.symm.trans hroot')
  by_cases hnew : newNode = nodeId
  · subst hnew
    refine anchored_setParent_self hrepointed.view (fun p hp ↦ by cases hp) fun _ ↦
      ⟨floatingId, { floating with rootNode := newNode }, ?_, rfl⟩
    rw [mapFloating, Table.get?_modify, if_pos rfl, hget]
    rfl
  · exact hrepointed.setParent_other hnew none

theorem parentOf_refloat {nodeId newNode : NodeId} {floatingId : FloatingId}
    (hmem : nodeId ∈ s.nodes) : (s.refloat floatingId newNode).parentOf nodeId =
      if newNode = nodeId then none else s.parentOf nodeId := by
  rw [ServerState.refloat]
  split
  next hnew =>
    subst hnew
    exact parentOf_setParent_self none hmem
  next hnew =>
    rw [parentOf_setParent_other _ hnew]
    rfl

theorem Anchored.mem {nodeId : NodeId} (h : Anchored bufferId nodeId s) : nodeId ∈ s.nodes := by
  obtain ⟨node, hnode, -⟩ := Option.bind_eq_some_iff.mp h.view
  exact mem_nodes_iff.mpr ⟨node, hnode⟩

/-- Replacing a container by its one child leaves the view anchored, and not below the
container. -/
theorem Anchored.replaceNodeInOwner {nodeId containerId child : NodeId} {container : Node}
    (fuel : ℕ) (h : Anchored bufferId nodeId s) (hget : s.nodes[containerId]? = some container)
    (hkids : container.childIds = [child]) (hroot : s.isSessionRoot containerId = false) :
    Anchored bufferId nodeId (replaceNodeInOwner fuel containerId child s).2 ∧
      ∀ t, replaceNodeInOwner fuel containerId child s = (.ok (), t) →
        t.parentOf nodeId ≠ some containerId := by
  have hchild : ∀ other, s.Lists containerId other → other = child := by
    rintro other ⟨node, hnode, hmem⟩
    rw [hget, Option.some_inj] at hnode
    rw [← hnode, hkids] at hmem
    exact List.mem_singleton.mp hmem
  have hne : containerId ≠ nodeId := by
    rintro rfl
    exact h.not_lists ⟨container, hget, hkids ▸ List.mem_singleton_self child⟩
  have hbelow : child ≠ nodeId → s.parentOf nodeId ≠ some containerId := fun hother hparent ↦
    hother (hchild nodeId (h.listed containerId hparent)).symm
  rcases replaceNodeInOwner_cases fuel containerId child s with ⟨e, he⟩ | ⟨old, hold, -, hcases⟩
  · rw [he]
    exact ⟨h, nofun⟩
  rcases hcases with ⟨parentId, leaf, -, hlists, -, hok⟩ | ⟨-, htrue, -⟩ |
    ⟨floatingId, -, -, hfloating, hok⟩
  · rw [hok]
    refine ⟨(h.relink hne hlists).mapNode (Node.kind_setLastFocusedDescendant leaf)
      (Node.parent_setLastFocusedDescendant leaf) fun node hmem ↦ ?_, ?_⟩
    · rwa [Node.childIds_setLastFocusedDescendant]
    · rintro t ht hparent
      cases ht
      rw [parentOf_mapNode nodeId parentId (Node.parent_setLastFocusedDescendant leaf),
        parentOf_relink hne h.mem] at hparent
      split at hparent
      next heq =>
        rw [Option.some_inj] at hparent
        rw [hparent] at hlists
        exact hne ((hchild containerId hlists).trans heq)
      next hother => exact hbelow hother hparent
  · rw [hroot] at htrue
    cases htrue
  · rw [hok]
    refine ⟨h.refloat hne hfloating, ?_⟩
    rintro t ht hparent
    cases ht
    rw [parentOf_refloat h.mem] at hparent
    split at hparent
    · cases hparent
    next hother => exact hbelow hother hparent

/-- Collapsing a container that is no session's root. -/
theorem Anchored.collapse {nodeId containerId child : NodeId} {container : Node} {α : Type} (a : α)
    (fuel : ℕ) (h : Anchored bufferId nodeId s) (hget : s.nodes[containerId]? = some container)
    (hkids : container.childIds = [child]) (hroot : s.isSessionRoot containerId = false) :
    Anchored bufferId nodeId ((do
      ServerState.replaceNodeInOwner fuel containerId child
      modify (ServerState.eraseNode containerId)
      pure a : StateOp α) s).2 := by
  have hne : containerId ≠ nodeId := by
    rintro rfl
    exact h.not_lists ⟨container, hget, hkids ▸ List.mem_singleton_self child⟩
  obtain ⟨hanchored, hbelow⟩ := h.replaceNodeInOwner fuel hget hkids hroot
  rw [bind_apply]
  rcases hreplace : ServerState.replaceNodeInOwner fuel containerId child s with ⟨e | _, t⟩
  · rw [hreplace] at hanchored
    exact hanchored
  · rw [hreplace] at hanchored
    exact hanchored.eraseNode hne (hbelow t hreplace)

/-- What is tied, with ids left and a view that can be closed. -/
def Anchoring (spare : Option NodeId) (bufferId : BufferId) (nodeId : NodeId) (r : ℕ) (s : ServerState) : Prop :=
  TiedWith spare r s ∧ Anchored bufferId nodeId s

variable {nodeId : NodeId}

theorem anchoring_wastes : Wastes (Anchoring spare bufferId nodeId) :=
  fun r k s h ↦ ⟨tiedWith_wastes r k s h.1, h.2⟩

/-- The two halves of `Anchoring` apart. -/
theorem spends_anchoring {α : Type} {m : StateOp α} {k : ℕ} (hspends : Spends (TiedWith spare) k m s)
    (hanchored : Tied spare s → Anchored bufferId nodeId s → Anchored bufferId nodeId (m s).2) :
    Spends (Anchoring spare bufferId nodeId) k m s :=
  fun r h ↦ ⟨hspends r h.1, hanchored h.1.1 h.2⟩

theorem Anchored.mapTabs {tabsId : NodeId} {f : TabsNode → TabsNode} (h : Anchored bufferId nodeId s)
    (hf : ∀ tabs, (f tabs).parent = tabs.parent ∧ (f tabs).tabs = tabs.tabs) :
    Anchored bufferId nodeId (s.mapNode tabsId (Node.mapTabs f)) := by
  refine h.mapNode (Node.kind_mapTabs f) (fun node ↦ ?_) fun node hmem ↦ ?_
  · cases node with
    | tabs tabs => exact (hf tabs).1
    | bufferView => rfl
    | split => rfl
  · cases node with
    | tabs tabs =>
      change nodeId ∈ (f tabs).tabs.map TabEntry.child
      rw [(hf tabs).2]
      exact hmem
    | bufferView => exact hmem
    | split => exact hmem

theorem normalizeSplitNode_anchored (fuel : ℕ) {splitId : NodeId} {split : SplitNode}
    (hnode : s.nodes[splitId]? = some (.split split)) (htied : Tied spare s)
    (h : Anchored bufferId nodeId s) : Anchored bufferId nodeId (normalizeSplitNode fuel splitId split s).2 := by
  rcases hchildren : split.children with _ | ⟨child, _ | ⟨second, rest⟩⟩ <;>
    simp only [normalizeSplitNode, hchildren]
  · exact h
  · exact h.collapse (some child) fuel hnode hchildren (htied.isSessionRoot_eq_false hnode rfl)
  · refine h.mapNode (Node.kind_mapSplit _) (fun node ↦ ?_) fun node hmem ↦ ?_
    · cases node with
      | split split =>
        change (SplitNode.fitSizes split).parent = split.parent
        rw [SplitNode.fitSizes]
        split <;> rfl
      | bufferView => rfl
      | tabs => rfl
    · cases node with
      | split split =>
        change nodeId ∈ (SplitNode.fitSizes split).children
        rw [SplitNode.fitSizes]
        split <;> exact hmem
      | bufferView => exact hmem
      | tabs => exact hmem

/-- A popup that is not the view's goes away. -/
theorem Anchored.removeFloatingWindow {floatingId : FloatingId} (h : Anchored bufferId nodeId s)
    (hother : ∀ floating, s.floating[floatingId]? = some floating → floating.rootNode ≠ nodeId) :
    Anchored bufferId nodeId (removeFloatingWindow floatingId s).2 := by
  rw [ServerState.removeFloatingWindow, bind_apply, ask_apply, ServerState.floatingWindow]
  cases hget : s.floating[floatingId]? with
  | none => exact h
  | some floating =>
    refine h.congr rfl ?_
    rintro ⟨floatingId', floating', hget', hroot⟩
    refine ⟨floatingId', floating', ?_, hroot⟩
    change (s.floating.erase floatingId)[floatingId']? = some floating'
    rw [Table.get?_erase, if_neg]
    · exact hget'
    · rintro rfl
      exact hother floating' hget' hroot

theorem normalizeTabsNode_anchored (fuel : ℕ) {tabsId : NodeId} {tabs : TabsNode}
    (hnode : s.nodes[tabsId]? = some (.tabs tabs)) (h : Anchored bufferId nodeId s) :
    Anchored bufferId nodeId (normalizeTabsNode fuel tabsId tabs s).2 := by
  have hne : tabsId ≠ nodeId := by
    rintro rfl
    have hshown := h.view
    rw [shown_eq hnode] at hshown
    cases hshown
  have hempty : tabs.tabs = [] → s.parentOf nodeId ≠ some tabsId := by
    intro htabs hparent
    obtain ⟨node, hget, hmem⟩ := h.listed tabsId hparent
    rw [hnode, Option.some_inj] at hget
    rw [← hget] at hmem
    change nodeId ∈ tabs.tabs.map TabEntry.child at hmem
    rw [htabs] at hmem
    cases hmem
  rcases htabs : tabs.tabs with _ | ⟨first, rest⟩ <;>
    simp only [normalizeTabsNode, gets_bind_apply, htabs]
  · split
    · exact h.mapTabs fun _ ↦ ⟨rfl, rfl⟩
    · cases hfloating : s.floatingIdByRoot tabsId with
      | none => exact h.eraseNode hne (hempty htabs)
      | some floatingId =>
        obtain ⟨floating, hget, hroot⟩ := floatingIdByRoot_eq_some hfloating
        have hremoved := @Anchored.removeFloatingWindow _ _ _ floatingId h fun floating' hget' ↦ by
          rw [hget, Option.some_inj] at hget'
          rw [← hget', hroot]
          exact hne
        dsimp only
        rw [bind_apply]
        rcases hremove : ServerState.removeFloatingWindow floatingId s with ⟨e | window, t⟩
        · rw [hremove] at hremoved
          exact hremoved
        · rw [hremove] at hremoved
          obtain ⟨window', hwindow', hrest⟩ := ok_ask_bind hremove
          rw [floatingWindow_eq_ok, hget, Option.some_inj] at hwindow'
          cases hrest
          refine hremoved.eraseNode ?_ ?_
          · rw [← hwindow', hroot]
            exact hne
          · rw [← hwindow', hroot]
            exact hempty htabs
  · split
    next hcollapse =>
      refine h.collapse (some first.child) fuel hnode ?_ (Bool.not_eq_true _ ▸ hcollapse.2.2)
      change tabs.tabs.map TabEntry.child = [first.child]
      rw [htabs, List.isEmpty_iff.mp hcollapse.1]
      rfl
    · refine h.mapTabs fun tabs ↦ ?_
      split <;> exact ⟨rfl, rfl⟩

theorem normalizeNode_anchoring (fuel : ℕ) {nodeId' : NodeId} {node : Node}
    (hnode : s.nodes[nodeId']? = some node) :
    Spends (Anchoring spare bufferId nodeId) 0 (normalizeNode fuel nodeId' node) s := by
  refine spends_anchoring (normalizeNode_spends fuel hnode) fun htied h ↦ ?_
  cases node with
  | bufferView => exact h
  | split => exact normalizeSplitNode_anchored fuel hnode htied h
  | tabs => exact normalizeTabsNode_anchored fuel hnode h

theorem normalizeUpwards_anchoring (walk : ℕ) :
    ∀ (fuel : ℕ) (start : Option NodeId) (s : ServerState),
      Spends (Anchoring spare bufferId nodeId) 0 (normalizeUpwards walk fuel start) s
  | 0, none, _ => .pure _
  | 0, some _, _ => .diverge
  | _ + 1, none, _ => .pure _
  | fuel + 1, some start, s => by
    refine .gets_bind ?_
    cases hnode : s.nodes[start]? with
    | none => exact .pure _
    | some node =>
      exact .bind_right anchoring_wastes (normalizeNode_anchoring walk hnode) fun next t _ ↦
        normalizeUpwards_anchoring walk fuel next t

/-! ## Normalizing makes no view -/

/-- No node is a view that was none or shows what it did not show, and no record is gone. -/
structure FewerViews (s s' : ServerState) : Prop where
  shown (nodeId : NodeId) (bufferId : BufferId) (h : s'.shown nodeId = some bufferId) :
    s.shown nodeId = some bufferId
  buffers (bufferId : BufferId) (h : bufferId ∈ s.buffers) : bufferId ∈ s'.buffers

instance : Std.Refl FewerViews := ⟨fun _ ↦ ⟨fun _ _ h ↦ h, fun _ h ↦ h⟩⟩

instance : IsTrans ServerState FewerViews where
  trans _ _ _ h h' := ⟨fun nodeId bufferId hshown ↦
    h.shown nodeId bufferId (h'.shown nodeId bufferId hshown),
    fun bufferId hmem ↦ h'.buffers bufferId (h.buffers bufferId hmem)⟩

/-- What is no view stays none. -/
theorem FewerViews.gone {nodeId : NodeId} (h : FewerViews s s') (hnone : s.shown nodeId = none) :
    s'.shown nodeId = none := by
  rw [Option.eq_none_iff_forall_ne_some]
  intro bufferId hshown
  rw [h.shown nodeId bufferId hshown] at hnone
  cases hnone

theorem SameViews.fewerViews (h : SameViews s s') : FewerViews s s' := by
  refine ⟨fun nodeId bufferId hshown ↦ h.shown nodeId ▸ hshown, fun bufferId hmem ↦ ?_⟩
  rw [← Std.ExtTreeMap.isSome_getElem?_iff_mem, ← Option.isSome_map (f := Buffer.attachment),
    h.attachments, Option.isSome_map, Std.ExtTreeMap.isSome_getElem?_iff_mem]
  exact hmem

theorem keeps_fewerViews_of_sameViews {α : Type} {m : StateOp α} (h : Keeps SameViews m) :
    Keeps FewerViews m := fun s ↦ (h s).fewerViews

theorem fewerViews_eraseNode (s : ServerState) (nodeId : NodeId) :
    FewerViews s (s.eraseNode nodeId) := by
  refine ⟨fun nodeId' bufferId hshown ↦ ?_, fun _ hmem ↦ hmem⟩
  rw [shown_eraseNode] at hshown
  split at hshown
  · cases hshown
  · exact hshown

theorem replaceNodeInOwner_fewerViews (fuel : ℕ) (oldNode newNode : NodeId) :
    Keeps FewerViews (replaceNodeInOwner fuel oldNode newNode) := fun s ↦ by
  have hmap : ∀ (t : ServerState) (nodeId : NodeId) {f : Node → Node},
      (∀ node, (f node).kind = node.kind) → FewerViews t (t.mapNode nodeId f) := fun t nodeId _ hf ↦
    (sameViews_mapNode t nodeId hf).fewerViews
  rcases replaceNodeInOwner_cases fuel oldNode newNode s with ⟨e, he⟩ | ⟨old, -, -, hcases⟩
  · rw [he]
    exact Std.Refl.refl s
  rcases hcases with ⟨parentId, leaf, -, -, -, hok⟩ | ⟨-, -, hok⟩ | ⟨floatingId, -, -, -, hok⟩
  · rw [hok]
    have hreplace := hmap s parentId (Node.kind_replaceChildId oldNode newNode)
    refine IsTrans.trans _ _ _ hreplace (IsTrans.trans _ _ _ (hmap _ oldNode
      (Node.kind_setParent none)) (IsTrans.trans _ _ _ (hmap _ newNode
      (Node.kind_setParent (some parentId))) (hmap _ parentId
      (Node.kind_setLastFocusedDescendant leaf))))
  · rw [hok]
    have hroot : FewerViews s (s.mapSession old.sessionId fun session ↦
      { session with rootNode := newNode }) := ⟨fun _ _ h ↦ h, fun _ h ↦ h⟩
    exact IsTrans.trans _ _ _ hroot (hmap _ newNode (Node.kind_setParent none))
  · rw [hok]
    have hroot : FewerViews s (s.mapFloating floatingId fun floating ↦
      { floating with rootNode := newNode }) := ⟨fun _ _ h ↦ h, fun _ h ↦ h⟩
    exact IsTrans.trans _ _ _ hroot (hmap _ newNode (Node.kind_setParent none))

theorem normalizeNode_fewerViews (fuel : ℕ) (nodeId : NodeId) (node : Node) :
    Keeps FewerViews (normalizeNode fuel nodeId node) := by
  have hcollapse : ∀ child, Keeps FewerViews (do
      replaceNodeInOwner fuel nodeId child
      modify (eraseNode nodeId)
      pure (some child) : StateOp (Option NodeId)) := fun child ↦
    .bind (replaceNodeInOwner_fewerViews fuel nodeId child) fun _ ↦
      .bind (.modify fun s ↦ fewerViews_eraseNode s nodeId) fun _ ↦ .pure _
  cases node with
  | bufferView => exact .pure _
  | split split =>
    rw [normalizeNode, normalizeSplitNode.eq_def]
    split
    · exact .throw _
    next child _ => exact hcollapse child
    · exact .bind (.modify fun s ↦ (sameViews_mapNode s nodeId (Node.kind_mapSplit _)).fewerViews)
        fun _ ↦ .pure _
  | tabs tabs =>
    have hmap : ∀ f : TabsNode → TabsNode, Keeps FewerViews (do
        modify (mapNode nodeId (Node.mapTabs f))
        pure tabs.parent : StateOp (Option NodeId)) := fun f ↦
      .bind (.modify fun s ↦ (sameViews_mapNode s nodeId (Node.kind_mapTabs f)).fewerViews)
        fun _ ↦ .pure _
    refine .bind (.gets _) fun isRoot ↦ .bind (.gets _) fun floatingOwner ↦ ?_
    split
    · split
      · exact hmap _
      · split
        · exact .bind (keeps_fewerViews_of_sameViews (removeFloatingWindow_sameViews _)) fun floating ↦
            .bind (.modify fun s ↦ fewerViews_eraseNode s floating.rootNode) fun _ ↦ .pure _
        · exact .bind (.modify fun s ↦ fewerViews_eraseNode s nodeId) fun _ ↦ .pure _
    · split
      · exact hcollapse _
      · exact hmap _

theorem normalizeUpwards_fewerViews (walk : ℕ) :
    ∀ (fuel : ℕ) (start : Option NodeId), Keeps FewerViews (normalizeUpwards walk fuel start)
  | 0, none => .pure _
  | 0, some _ => .diverge
  | _ + 1, none => .pure _
  | fuel + 1, some start => by
    refine .bind (.gets _) fun node ↦ ?_
    cases node with
    | none => exact .pure _
    | some node =>
      exact .bind (normalizeNode_fewerViews walk start node) fun next ↦
        normalizeUpwards_fewerViews walk fuel next

/-! ## Closing a view -/

theorem detachView_eq {leaf : BufferViewNode} (hnode : s.nodes[nodeId]? = some (.bufferView leaf)) :
    detachView nodeId s = (.ok (), s.detachShown nodeId) := by
  have hsnd := detachView_snd nodeId s
  have hok : (detachView nodeId s).1 = .ok () := by
    rw [detachView, bind_apply, ask_apply, ServerState.node, hnode]
    simp only [Answer.ofOption_some, detachBufferIfAttachedTo, gets_bind_apply]
    split
    next hattached =>
      obtain ⟨buffer, hbuffer, -⟩ := Option.map_eq_some_iff.mp hattached
      rw [detachBufferRaw, bufferMut, bind_apply, ask_apply, ServerState.buffer, hbuffer]
      rfl
    · rfl
  exact Prod.ext hok hsnd

/-- A view is a subtree of its own. -/
theorem removeSubtreeNodes_view (fuel : ℕ) {leaf : BufferViewNode}
    (hnode : s.nodes[nodeId]? = some (.bufferView leaf)) :
    removeSubtreeNodes (fuel + 1) nodeId s = (.ok (), (s.detachShown nodeId).eraseNode nodeId) := by
  rw [removeSubtreeNodes, bind_apply, ask_apply, ServerState.node, hnode]
  exact bind_of_ok (detachView_eq hnode)

theorem shown_deleteView (s : ServerState) (nodeId : NodeId) :
    ((s.detachShown nodeId).eraseNode nodeId).shown nodeId = none := by
  rw [shown_eraseNode, if_pos rfl]

theorem exists_view_of_shown {bufferId : BufferId} (h : s.shown nodeId = some bufferId) :
    ∃ leaf : BufferViewNode, s.nodes[nodeId]? = some (.bufferView leaf) ∧ leaf.bufferId = bufferId := by
  obtain ⟨node, hnode, hshows⟩ := Option.bind_eq_some_iff.mp h
  cases node with
  | bufferView leaf => exact ⟨leaf, hnode, Option.some_inj.mp hshows⟩
  | split => cases hshows
  | tabs => cases hshows

/-- Closing a view does not return, deletes it, or refuses a view that is not anchored. -/
theorem closeNode_view (fuel : ℕ) {leaf : BufferViewNode} (htied : Tied spare s)
    (hnode : s.nodes[nodeId]? = some (.bufferView leaf)) :
    (closeNode fuel nodeId s).1 = .error .diverges ∨ (closeNode fuel nodeId s).2.shown nodeId = none ∨
      ¬ Anchored bufferId nodeId s ∧ ∃ e, closeNode fuel nodeId s = (.error e, s) := by
  have hsettle : ∀ (sessionId : SessionId) (t : ServerState), t.shown nodeId = none →
      (settleSession fuel sessionId t).2.shown nodeId = none := fun sessionId t hnone ↦
    (settleSession_sameViews fuel sessionId t).fewerViews.gone hnone
  rw [closeNode, bind_apply, ask_apply, nodeSessionId_eq_ok.mpr ⟨_, hnode, rfl⟩]
  simp only [gets_bind_apply, htied.isSessionRoot_eq_false hnode rfl, Bool.false_eq_true, if_false]
  rw [bind_apply, ask_apply, nodeParent_eq_ok.mpr ⟨_, hnode, rfl⟩]
  cases hparent : (Node.bufferView leaf).parent with
  | some parentId =>
    simp only
    rcases @removeChild_cases _ parentId _ (mem_nodes_iff.mpr ⟨_, hnode⟩) with
      ⟨hnot, e, he⟩ | ⟨-, hok⟩
    · refine .inr (.inr ⟨fun hanchored ↦ hnot (hanchored.listed parentId ?_), e, ?_⟩)
      · rw [parentOf, hnode]
        exact hparent
      · exact bind_of_error (bind_of_error he)
    · cases fuel with
      | zero =>
        refine .inl ?_
        rw [removeFromParent, bind_apply, bind_of_ok hok]
        rfl
      | succ fuel =>
        refine .inr (.inl ?_)
        have hshown : (s.unlink parentId nodeId).shown nodeId = some leaf.bufferId := by
          rw [unlink, (sameViews_mapNode _ nodeId (Node.kind_setParent none)).shown,
            (sameViews_mapNode s parentId (Node.kind_removeChildId nodeId)).shown, shown_eq hnode]
          rfl
        obtain ⟨leaf', hnode', -⟩ := exists_view_of_shown hshown
        have hgone : ((removeFromParent (fuel + 1) parentId nodeId) s).2.shown nodeId = none := by
          rw [removeFromParent, bind_of_ok hok, bind_of_ok (removeSubtreeNodes_view fuel hnode')]
          exact (normalizeUpwards_fewerViews _ _ _ _).gone (shown_deleteView _ nodeId)
        rw [bind_apply]
        rcases hremove : removeFromParent (fuel + 1) parentId nodeId s with ⟨e | _, t⟩
        · rw [hremove] at hgone
          exact hgone
        · rw [hremove] at hgone
          exact hsettle leaf.sessionId t hgone
  | none =>
    simp only [gets_bind_apply]
    cases hfloating : s.floatingIdByRoot nodeId with
    | none =>
      refine .inr (.inr ⟨fun hanchored ↦ ?_, _, rfl⟩)
      have hpopup : s.parentOf nodeId = none := by
        rw [parentOf, hnode]
        exact hparent
      obtain ⟨floatingId, floating, hget, hroot⟩ := hanchored.popup hpopup
      exact floatingIdByRoot_eq_none.mp hfloating floatingId floating hget hroot
    | some floatingId =>
      obtain ⟨floating, hget, hroot⟩ := floatingIdByRoot_eq_some hfloating
      dsimp only
      rw [bind_of_ok (removeFloatingWindow_eq hget), hroot]
      cases fuel with
      | zero => exact .inl rfl
      | succ fuel =>
        have hview : (s.dropFloating floatingId floating.sessionId).nodes[nodeId]? =
          some (.bufferView leaf) := hnode
        rw [bind_of_ok (removeSubtreeNodes_view fuel hview)]
        exact .inr (.inl (hsettle leaf.sessionId _ (shown_deleteView _ nodeId)))

theorem spends_anchoring_of_sameFrame {α : Type} {m : StateOp α} (h : Keeps SameFrame m)
    (s : ServerState) : Spends (Anchoring spare bufferId nodeId) 0 m s :=
  spends_anchoring (spends_of_sameViews (h s).sameViews) fun _ hanchored ↦ (h s).anchored hanchored

/-- To say what an operation spends, one may use what is tied before it. -/
theorem spends_anchoring_of_tied {α : Type} {m : StateOp α} {k : ℕ}
    (h : Tied spare s → Spends (Anchoring spare bufferId nodeId) k m s) :
    Spends (Anchoring spare bufferId nodeId) k m s := fun r hall ↦ h hall.1.1 r hall

/-- Another view leaves the list of its parent. -/
theorem removeChild_anchoring (parentId : NodeId) {sourceView : NodeId}
    (hsource : sourceView ∈ s.nodes) (hne : sourceView ≠ nodeId) :
    Spends (Anchoring spare bufferId nodeId) 0 (removeChild parentId sourceView) s := by
  refine spends_anchoring (spends_of_sameViews (removeChild_sameViews parentId sourceView s))
    fun _ hanchored ↦ ?_
  rcases @removeChild_cases _ parentId _ hsource with ⟨-, e, he⟩ | ⟨-, hok⟩
  · rw [he]
    exact hanchored
  · rw [hok]
    refine Anchored.setParent_other (hanchored.mapNode (Node.kind_removeChildId sourceView)
      (Node.parent_removeChildId sourceView) fun node hmem ↦ ?_) hne none
    rw [Node.childIds_removeChildId]
    exact (List.mem_erase_of_ne (Ne.symm hne)).mpr hmem

/-- Another view is deleted. -/
theorem removeSubtreeNodes_anchoring (fuel : ℕ) {sourceView : NodeId} {leaf : BufferViewNode}
    (hsource : s.nodes[sourceView]? = some (.bufferView leaf)) (hne : sourceView ≠ nodeId) :
    Spends (Anchoring spare bufferId nodeId) 0 (removeSubtreeNodes fuel sourceView) s := by
  refine spends_anchoring (removeSubtreeNodes_spends fuel sourceView s) fun _ hanchored ↦ ?_
  cases fuel with
  | zero => exact hanchored
  | succ fuel =>
    rw [removeSubtreeNodes_view fuel hsource]
    have hdetached : Anchored bufferId nodeId (s.detachShown sourceView) := hanchored.congr rfl id
    refine hdetached.eraseNode hne fun hparent ↦ ?_
    -- The parent of a view lists it, and views list nothing.
    obtain ⟨node, hnode, hmem⟩ := hdetached.listed sourceView hparent
    change s.nodes[sourceView]? = some node at hnode
    rw [hsource, Option.some_inj] at hnode
    rw [← hnode] at hmem
    cases hmem

/-- Closing another view leaves an anchored one anchored. -/
theorem closeNode_anchoring (fuel : ℕ) {sourceView : NodeId} {leaf : BufferViewNode}
    (hsource : s.nodes[sourceView]? = some (.bufferView leaf)) (hne : sourceView ≠ nodeId) :
    Spends (Anchoring spare bufferId nodeId) 0 (closeNode fuel sourceView) s := by
  refine spends_anchoring_of_tied fun htied ↦ .ask_bind anchoring_wastes fun sessionId _ ↦
    .gets_bind ?_
  rw [if_neg (by rw [htied.isSessionRoot_eq_false hsource rfl]; exact Bool.false_ne_true)]
  have hsettle : ∀ t, Spends (Anchoring spare bufferId nodeId) 0 (settleSession fuel sessionId) t :=
    spends_anchoring_of_sameFrame (.bind (normalizeZoomedNode_sameFrame fuel sessionId) fun _ ↦
      healFocus_sameFrame fuel sessionId)
  refine .ask_bind anchoring_wastes fun parent _ ↦ ?_
  cases parent with
  | some parentId =>
    have hmem : sourceView ∈ s.nodes := mem_nodes_iff.mpr ⟨_, hsource⟩
    refine .bind_right anchoring_wastes (.bind_right anchoring_wastes
      (removeChild_anchoring parentId hmem hne) fun _ t ht ↦ ?_) fun _ u _ ↦ hsettle u
    have hview : t.shown sourceView = some leaf.bufferId := by
      have hsame := removeChild_sameViews parentId sourceView s
      rw [ht] at hsame
      rw [hsame.shown, shown_eq hsource]
      rfl
    obtain ⟨leaf', hleaf', -⟩ := exists_view_of_shown hview
    exact .bind_right anchoring_wastes (removeSubtreeNodes_anchoring fuel hleaf' hne) fun _ u _ ↦
      normalizeUpwards_anchoring fuel fuel (some parentId) u
  | none =>
    refine .gets_bind ?_
    cases hfloating : s.floatingIdByRoot sourceView with
    | none => exact .throw _
    | some floatingId =>
      obtain ⟨floating, hget, hroot⟩ := floatingIdByRoot_eq_some hfloating
      refine .bind_right anchoring_wastes (spends_anchoring
        (spends_of_sameViews (removeFloatingWindow_sameViews floatingId s)) fun _ hanchored ↦
        hanchored.removeFloatingWindow fun floating' hget' ↦ ?_) fun window t ht ↦ ?_
      · rw [hget, Option.some_inj] at hget'
        rw [← hget', hroot]
        exact hne
      · rw [removeFloatingWindow_eq hget] at ht
        cases ht
        rw [hroot]
        exact .bind_right anchoring_wastes (removeSubtreeNodes_anchoring fuel hsource hne)
          fun _ u _ ↦ hsettle u

/-- Closing a view makes no view and drops no record. -/
theorem closeNode_fewerViews (fuel : ℕ) {sourceView : NodeId} {leaf : BufferViewNode}
    (htied : Tied spare s) (hsource : s.nodes[sourceView]? = some (.bufferView leaf)) :
    FewerViews s (closeNode fuel sourceView s).2 := by
  have hdelete : ∀ (t : ServerState) (leaf : BufferViewNode),
      t.nodes[sourceView]? = some (.bufferView leaf) →
      FewerViews t (removeSubtreeNodes fuel sourceView t).2 := by
    intro t leaf hleaf
    cases fuel with
    | zero => exact Std.Refl.refl t
    | succ fuel =>
      rw [removeSubtreeNodes_view fuel hleaf]
      refine IsTrans.trans _ (t.detachShown sourceView) _ ⟨fun _ _ h ↦ h, fun bufferId hmem ↦ ?_⟩
        (fewerViews_eraseNode _ sourceView)
      rw [detachShown]
      dsimp only
      split
      · split
        · exact Std.ExtTreeMap.mem_modify.mpr hmem
        · exact hmem
      · exact hmem
  refine moves_ask_bind fun sessionId _ ↦ ?_
  rw [gets_bind_apply, if_neg (by rw [htied.isSessionRoot_eq_false hsource rfl]; exact Bool.false_ne_true)]
  have hsettle : Keeps FewerViews (settleSession fuel sessionId) :=
    keeps_fewerViews_of_sameViews (settleSession_sameViews fuel sessionId)
  refine moves_ask_bind fun parent _ ↦ ?_
  cases parent with
  | some parentId =>
    have hremove := removeChild_sameViews parentId sourceView s
    refine moves_bind (moves_bind hremove.fewerViews fun _ t ht ↦ moves_bind ?_ fun _ u _ ↦
      normalizeUpwards_fewerViews fuel fuel (some parentId) u) fun _ u _ ↦ hsettle u
    rw [ht] at hremove
    have hview : t.shown sourceView = some leaf.bufferId := by
      rw [hremove.shown, shown_eq hsource]
      rfl
    obtain ⟨leaf', hleaf', -⟩ := exists_view_of_shown hview
    exact hdelete t leaf' hleaf'
  | none =>
    dsimp only
    rw [gets_bind_apply]
    cases hfloating : s.floatingIdByRoot sourceView with
    | none => exact Std.Refl.refl s
    | some floatingId =>
      obtain ⟨floating, hget, hroot⟩ := floatingIdByRoot_eq_some hfloating
      have hdrop := (removeFloatingWindow_sameViews floatingId s).fewerViews
      dsimp only
      rw [bind_of_ok (removeFloatingWindow_eq hget), hroot]
      rw [removeFloatingWindow_eq hget] at hdrop
      refine IsTrans.trans _ _ _ hdrop (moves_bind (hdelete _ leaf hsource) fun _ u _ ↦ hsettle u)

end ServerState

end Embers
