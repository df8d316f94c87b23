import Embers.State.EditCases
import Embers.State.NamesKept
import Embers.State.Place
import Embers.State.Scenes

/-!
# The scene after a pane was put into a session

Each request that shows a new pane creates a view, puts it into the layout and focuses it. The scene
it leaves is the scene there was with the pane in it, as long as the pane is drawn in that one: then
focusing it shows no other tabs.
-/

namespace Embers.ServerState

open Op

variable {s s' t : ServerState} {sessionId : SessionId} {session : Session} {bufferId : BufferId}
  {nodeId paneId splitId leafId : NodeId} {fuel : ℕ}

/-! ## New views -/

/-- The ids that come next name nothing yet. -/
structure Spare (s : ServerState) : Prop where
  pane : s.nodes[s.nodeIds.peek]? = none
  split : s.nodes[s.nodeIds.advance.peek]? = none
  ne : s.nodeIds.advance.peek ≠ s.nodeIds.peek
  floating : s.floating[s.floatingIds.peek]? = none

theorem node_eq_none (h : Command.Numbered s) (hle : s.nodeIds.next ≤ nodeId.number) :
    s.nodes[nodeId]? = none := by
  rw [Option.eq_none_iff_forall_ne_some]
  exact fun node hnode ↦ absurd (h.nodes nodeId node hnode) (not_lt.mpr hle)

theorem floating_eq_none (h : Command.Numbered s) {floatingId : FloatingId}
    (hle : s.floatingIds.next ≤ floatingId.number) : s.floating[floatingId]? = none := by
  rw [Option.eq_none_iff_forall_ne_some]
  exact fun floating hget ↦ absurd (h.floating floatingId floating hget) (not_lt.mpr hle)

theorem spare_of_numbered (h : Command.Numbered s) (hroom : Room 2 s) : Spare s := by
  have hnext : s.nodeIds.advance.peek.number = s.nodeIds.next + 1 := by
    have hroom := hroom.nodes
    simp only [IdAllocator.next, EntityId.number, IdAllocator.advance, IdAllocator.peek] at hroom ⊢
    rw [UInt64.toNat_add]
    exact Nat.mod_eq_of_lt (by have : (1 : UInt64).toNat = 1 := rfl; omega)
  refine ⟨node_eq_none h le_rfl, node_eq_none h (hnext ▸ Nat.le_succ _), fun heq ↦ ?_,
    floating_eq_none h le_rfl⟩
  exact absurd (congrArg EntityId.number heq) (hnext ▸ Nat.succ_ne_self _)

/-- What creating a view does: there is a new node, which hangs nowhere yet. -/
structure ViewMade (s : ServerState) (sessionId : SessionId) (paneId : NodeId) (t : ServerState) :
    Prop where
  id : paneId = s.nodeIds.peek
  node : ∃ view : BufferViewNode, view.sessionId = sessionId ∧ view.parent = none ∧
    t.nodes = s.nodes.insert paneId (.bufferView view)
  sessions : t.sessions = s.sessions
  floating : t.floating = s.floating
  nodeIds : t.nodeIds = s.nodeIds.advance
  floatingIds : t.floatingIds = s.floatingIds

theorem createBufferView_made (h : createBufferView sessionId bufferId s = (.ok paneId, t)) :
    ViewMade s sessionId paneId t := by
  obtain ⟨nodeId, u, hcreate, h⟩ := ok_bind h
  obtain ⟨result, v, hattach, h⟩ := ok_bind h
  obtain ⟨_, -, hcreate⟩ := ok_ask_bind hcreate
  obtain ⟨buffer, -, hcreate⟩ := ok_ask_bind hcreate
  cases hcreate
  cases result with
  | error e => exact absurd h throw_ne_ok
  | ok =>
    cases h
    rw [attempt_eq_ok_ok] at hattach
    obtain ⟨_, -, hattach⟩ := ok_ask_bind hattach
    obtain ⟨_, -, hattach⟩ := ok_ask_bind hattach
    obtain ⟨current, hcurrent, hattach⟩ := ok_ask_bind hattach
    -- the view shows the buffer already
    have hshown : current = bufferId := by
      rw [bufferViewBufferId, ServerState.node, insertNode, Table.get?_insert, if_pos rfl] at hcurrent
      exact (Except.ok.inj hcurrent).symm
    rw [hshown, if_neg (not_not.mpr rfl)] at hattach
    have hset := congrArg Prod.snd hattach
    rw [setBufferAttached, bufferMut_snd] at hset
    subst hset
    exact ⟨rfl, ⟨_, rfl, rfl, rfl⟩, rfl, rfl, rfl, rfl⟩

/-! ## Nodes that stay in their place -/

/-- The node hangs where it did, in the session it was of. -/
def Stays (s t : ServerState) (nodeId : NodeId) : Prop :=
  ∀ node, s.nodes[nodeId]? = some node → ∃ node', t.outline nodeId = some node' ∧
    node'.parent = node.parent ∧ node'.sessionId = node.sessionId

theorem Stays.child (h : Stays s t nodeId) {k : ℕ} (hvalid : s.validate k = .ok ()) {parentId : NodeId}
    (hdraws : Draws s.shapeOf parentId nodeId) :
    ∃ node, t.outline nodeId = some node ∧ node.parent = some parentId := by
  obtain ⟨child, hchild, hup⟩ := child_of_validate hvalid hdraws
  obtain ⟨node, hnode, heq, -⟩ := h child hchild
  exact ⟨node, hnode, heq.trans hup⟩

theorem Stays.root (h : Stays s t nodeId) (haccepted : Accepted s sessionId session)
    (hroot : (s.sceneOf session).Root nodeId) :
    ∃ node, t.outline nodeId = some node ∧ node.parent = none ∧ node.sessionId = sessionId := by
  obtain ⟨root, hget, hup, hhome⟩ := haccepted.root_parent hroot
  obtain ⟨node, hnode, heq, heq'⟩ := h root hget
  exact ⟨node, hnode, heq.trans hup, heq'.trans hhome⟩

/-! ## Splitting a pane -/

/-- What splitting a pane does before it focuses the new one. -/
structure SplitIn (s : ServerState) (parentId : Option NodeId) (leafId : NodeId)
    (direction : SplitDirection) (splitId paneId : NodeId) (t : ServerState) : Prop where
  pane : ∃ view : BufferViewNode, t.nodes[paneId]? = some (.bufferView view) ∧ view.parent = some splitId
  split : ∃ split : SplitNode, t.nodes[splitId]? = some (.split split) ∧ split.parent = parentId ∧
    split.direction = direction ∧ split.children = [leafId, paneId] ∧ split.sizes = [1, 1] ∧
    ∀ leaf, s.nodes[leafId]? = some leaf → split.sessionId = leaf.sessionId
  leaf : ∃ view : BufferViewNode, t.nodes[leafId]? = some (.bufferView view) ∧ view.parent = some splitId
  parent {id : NodeId} (h : parentId = some id) : ∃ node, s.nodes[id]? = some node ∧
    t.nodes[id]? = some (node.replaceChildId leafId splitId)
  other {id : NodeId} (hpane : id ≠ paneId) (hsplit : id ≠ splitId) (hleaf : id ≠ leafId)
    (hparent : parentId ≠ some id) : t.nodes[id]? = s.nodes[id]?
  sessions : t.sessions = s.sessions
  floating (id : FloatingId) : t.floating[id]? =
    if parentId = none then s.floating[id]?.map fun floating ↦
      if floating.rootNode = leafId then { floating with rootNode := splitId } else floating
    else s.floating[id]?

theorem setParent_ok {parent : Option NodeId} (h : setParent nodeId parent s = (.ok (), t)) :
    t = s.mapNode nodeId (Node.setParent parent) := by
  have hsnd := congrArg Prod.snd h
  rw [setParent, nodeMut_snd] at hsnd
  exact hsnd.symm

/-- A split with the pane and the new view below it, in no place yet. -/
structure SplitLoose (s : ServerState) (leafId : NodeId) (split : SplitNode) (splitId paneId : NodeId)
    (t : ServerState) : Prop where
  pane : ∃ view : BufferViewNode, t.nodes[paneId]? = some (.bufferView view) ∧ view.parent = some splitId
  split : t.nodes[splitId]? = some (.split split)
  leaf : ∃ view : BufferViewNode, t.nodes[leafId]? = some (.bufferView view) ∧ view.parent = some splitId
  other {id : NodeId} (hpane : id ≠ paneId) (hsplit : id ≠ splitId) (hleaf : id ≠ leafId) :
    t.nodes[id]? = s.nodes[id]?
  sessions : t.sessions = s.sessions
  floating : t.floating = s.floating

/-- A split with two children, which hangs nowhere. -/
theorem splitLoose_insertNode {split : SplitNode} {view leaf : BufferViewNode}
    (hleaf : s.nodes[leafId]? = some (.bufferView leaf)) (hpane : leafId ≠ paneId)
    (hsplit : leafId ≠ splitId) (hne : splitId ≠ paneId)
    (hnodes : t.nodes = s.nodes.insert paneId (.bufferView view)) (hsessions : t.sessions = s.sessions)
    (hfloating : t.floating = s.floating) :
    SplitLoose s leafId split splitId paneId
      (((insertNode splitId (.split split) t).mapNode leafId (Node.setParent (some splitId))).mapNode paneId
        (Node.setParent (some splitId))) := by
  have hget (id : NodeId) :
      (((insertNode splitId (.split split) t).mapNode leafId (Node.setParent (some splitId))).mapNode paneId
        (Node.setParent (some splitId))).nodes[id]? =
      if id = paneId then some (.bufferView { view with parent := some splitId })
      else if id = splitId then some (.split split)
      else if id = leafId then some (.bufferView { leaf with parent := some splitId })
      else s.nodes[id]? := by
    rw [mapNode, Table.get?_modify, mapNode, Table.get?_modify, insertNode, Table.get?_insert, hnodes,
      Table.get?_insert]
    by_cases hid : id = paneId
    · subst hid
      rw [if_pos rfl, if_neg hpane, if_neg hne, if_pos rfl, if_pos rfl]
      rfl
    · rw [if_neg (Ne.symm hid), if_neg hid]
      by_cases hid' : id = splitId
      · subst hid'
        rw [if_neg hsplit, if_pos rfl, if_pos rfl]
      · rw [if_neg (Ne.symm hid'), if_neg (Ne.symm hid), if_neg hid']
        by_cases hid'' : id = leafId
        · subst hid''
          rw [if_pos rfl, if_pos rfl, hleaf]
          rfl
        · rw [if_neg (Ne.symm hid''), if_neg hid'']
  constructor
  case pane => exact ⟨_, (hget paneId).trans (if_pos rfl), rfl⟩
  case split => rw [hget, if_neg hne, if_pos rfl]
  case leaf =>
    refine ⟨{ leaf with parent := some splitId }, ?_, rfl⟩
    rw [hget, if_neg hpane, if_neg hsplit, if_pos rfl]
  case other =>
    intro id hidPane hidSplit hidLeaf
    rw [hget, if_neg hidPane, if_neg hidSplit, if_neg hidLeaf]
  case sessions => exact hsessions
  case floating => exact hfloating

namespace SplitLoose

variable {split : SplitNode} {leaf : BufferViewNode} {parentId : NodeId} {parent : Node}

/-- The split takes the pane's place below its parent. -/
theorem below (h : SplitLoose s leafId split splitId paneId t)
    (hleaf : s.nodes[leafId]? = some (.bufferView leaf)) (hparent : s.nodes[parentId]? = some parent)
    (hpane : parentId ≠ paneId) (hsplit : parentId ≠ splitId) (hne : parentId ≠ leafId)
    (hpaneSplit : splitId ≠ paneId) (hleafSplit : leafId ≠ splitId)
    (hchildren : split.children = [leafId, paneId]) (hsizes : split.sizes = [1, 1])
    (hhome : split.sessionId = leaf.sessionId) (hup : split.parent = some parentId) :
    SplitIn s (some parentId) leafId split.direction splitId paneId
      ((t.mapNode parentId (Node.replaceChildId leafId splitId)).mapNode splitId
        (Node.setParent (some parentId))) := by
  have hget (id : NodeId) : ((t.mapNode parentId (Node.replaceChildId leafId splitId)).mapNode splitId
      (Node.setParent (some parentId))).nodes[id]? =
        if id = parentId then some (parent.replaceChildId leafId splitId) else t.nodes[id]? := by
    rw [mapNode, Table.get?_modify, mapNode, Table.get?_modify]
    by_cases hid : id = parentId
    · subst hid
      rw [if_neg hsplit.symm, if_pos rfl, if_pos rfl, h.other hpane hsplit hne, hparent, Option.map_some]
    · rw [if_neg (Ne.symm hid), if_neg hid]
      by_cases hid' : id = splitId
      · subst hid'
        rw [if_pos rfl, h.split, ← hup]
        rfl
      · rw [if_neg (Ne.symm hid')]
  constructor
  case pane =>
    obtain ⟨view, hview, hup⟩ := h.pane
    exact ⟨view, by rw [hget, if_neg hpane.symm, hview], hup⟩
  case split =>
    refine ⟨split, by rw [hget, if_neg hsplit.symm, h.split], hup, rfl, hchildren, hsizes,
      fun node hnode ↦ ?_⟩
    obtain rfl := Option.some.inj (hleaf.symm.trans hnode)
    exact hhome
  case leaf =>
    obtain ⟨view, hview, hup⟩ := h.leaf
    exact ⟨view, by rw [hget, if_neg hne.symm, hview], hup⟩
  case parent =>
    intro id hid
    obtain rfl := Option.some.inj hid
    exact ⟨parent, hparent, (hget parentId).trans (if_pos rfl)⟩
  case other =>
    intro id hidPane hidSplit hidLeaf hidParent
    rw [hget, if_neg fun heq ↦ hidParent (congrArg some heq.symm), h.other hidPane hidSplit hidLeaf]
  case sessions => exact h.sessions
  case floating =>
    intro id
    rw [if_neg (Option.some_ne_none _)]
    exact congrArg (·[id]?) h.floating

/-- The split takes the pane's place as the root of the one popup that has it. -/
theorem afloat (h : SplitLoose s leafId split splitId paneId t)
    (hleaf : s.nodes[leafId]? = some (.bufferView leaf)) (hchildren : split.children = [leafId, paneId])
    (hsizes : split.sizes = [1, 1]) (hhome : split.sessionId = leaf.sessionId) (hup : split.parent = none)
    {floatingId : FloatingId} {floating : FloatingWindow} (hfloating : s.floating[floatingId]? = some floating)
    (hroot : floating.rootNode = leafId)
    (honce : ∀ id window, s.floating[id]? = some window → window.rootNode = leafId → floatingId = id) :
    SplitIn s none leafId split.direction splitId paneId (t.refloat floatingId splitId) := by
  have hget (id : NodeId) : (t.refloat floatingId splitId).nodes[id]? = t.nodes[id]? := by
    have hnone : ∀ node, t.nodes[splitId]? = some node → node.parent = none := by
      intro node hnode
      obtain rfl := Option.some.inj (h.split.symm.trans hnode)
      exact hup
    rw [refloat, @mapNode_setParent_none (t.mapFloating floatingId _) splitId hnone]
    rfl
  constructor
  case pane =>
    obtain ⟨view, hview, hup⟩ := h.pane
    exact ⟨view, (hget paneId).trans hview, hup⟩
  case split =>
    refine ⟨split, (hget splitId).trans h.split, hup, rfl, hchildren, hsizes, fun node hnode ↦ ?_⟩
    obtain rfl := Option.some.inj (hleaf.symm.trans hnode)
    exact hhome
  case leaf =>
    obtain ⟨view, hview, hup⟩ := h.leaf
    exact ⟨view, (hget leafId).trans hview, hup⟩
  case parent =>
    intro id hid
    cases hid
  case other => exact fun hidPane hidSplit hidLeaf _ ↦ (hget _).trans (h.other hidPane hidSplit hidLeaf)
  case sessions => exact h.sessions
  case floating =>
    intro id
    rw [if_pos rfl, refloat, mapNode, mapFloating, Table.get?_modify, h.floating]
    split
    next heq =>
      obtain rfl := heq
      rw [hfloating, Option.map_some, Option.map_some, if_pos hroot]
    next hidNe =>
      cases hother : s.floating[id]? with
      | none => rfl
      | some other => rw [Option.map_some, if_neg fun heq ↦ hidNe (honce id other hother heq)]

end SplitLoose

/-- A split around a pane and a new view takes the pane's place. -/
theorem insertSplitAround_in {k : ℕ} (hvalid : s.validate k = .ok ()) (hlisted : s.FloatingListed)
    (hpane : s.nodes[paneId]? = none) (hsplit : s.nodes[splitId]? = none) (hne : splitId ≠ paneId)
    {direction : SplitDirection} {leaf view : BufferViewNode} {last : Option NodeId} {t u : ServerState}
    (hleaf : s.nodes[leafId]? = some (.bufferView leaf))
    (hnodes : t.nodes = s.nodes.insert paneId (.bufferView view)) (hsessions : t.sessions = s.sessions)
    (hfloating : t.floating = s.floating)
    (h : insertSplitAround leaf.sessionId leafId leaf.parent splitId direction leafId paneId last t =
      (.ok (), u)) : SplitIn s leaf.parent leafId direction splitId paneId u := by
  have hapart {nodeId fresh : NodeId} {node : Node} (hnode : s.nodes[nodeId]? = some node)
      (hfresh : s.nodes[fresh]? = none) : nodeId ≠ fresh := by
    rintro rfl
    rw [hfresh] at hnode
    cases hnode
  rw [insertSplitAround, modify_bind_apply] at h
  obtain ⟨_, t₁, hfirst, h⟩ := ok_bind h
  obtain ⟨_, t₂, hsecond, h⟩ := ok_bind h
  have ht₂ := setParent_ok hsecond
  rw [setParent_ok hfirst] at ht₂
  have hloose : SplitLoose s leafId ⟨leaf.sessionId, leaf.parent, direction, [leafId, paneId], [1, 1],
      last⟩ splitId paneId t₂ := ht₂ ▸ splitLoose_insertNode hleaf (hapart hleaf hpane)
    (hapart hleaf hsplit) hne hnodes hsessions hfloating
  have hsplitMem := mem_nodes_iff.mpr ⟨_, hloose.split⟩
  have hnamed := (sound_of_view hvalid hleaf).named
  rw [show (Node.bufferView leaf).parent = leaf.parent from rfl] at hnamed
  cases hparent : leaf.parent with
  | some parentId =>
    rw [hparent] at h hnamed
    obtain ⟨parent, hget, hmem⟩ := hnamed
    have hparentLeaf : parentId ≠ leafId := by
      rintro rfl
      obtain rfl := Option.some.inj (hleaf.symm.trans hget)
      cases hmem
    have hget' := (hloose.other (hapart hget hpane) (hapart hget hsplit) hparentLeaf).trans hget
    rw [repointOwnerReference_listed ⟨parent, hget', hmem⟩ hsplitMem] at h
    obtain rfl : _ = u := congrArg Prod.snd h
    exact hloose.below hleaf hget (hapart hget hpane) (hapart hget hsplit) hparentLeaf hne
      (hapart hleaf hsplit) rfl rfl rfl hparent
  | none =>
    rw [hparent] at h hnamed
    rw [repointOwnerReference] at h
    rcases repointRoot_cases leaf.sessionId leafId hsplitMem with
      ⟨e, he, -⟩ | ⟨hroot, -⟩ | ⟨floatingId, -, hfloatingId, hok⟩
    · rw [he] at h
      cases h
    · -- the root of a session is tabs
      obtain ⟨sessionId, session, hsession, rfl⟩ := isSessionRoot_iff.mp hroot
      rw [hloose.sessions] at hsession
      obtain ⟨root, hrootGet, -, htabs, -⟩ := (accepted_of_validate hvalid hsession).root
      obtain rfl := Option.some.inj (hleaf.symm.trans hrootGet)
      cases htabs
    · rw [hok] at h
      obtain rfl : _ = u := congrArg Prod.snd h
      obtain ⟨floating, hfloatingGet, hroot⟩ := floatingIdByRoot_eq_some hfloatingId
      rw [hloose.floating] at hfloatingGet
      exact hloose.afloat hleaf rfl rfl rfl hparent hfloatingGet hroot fun id window hwindow heq ↦
        popup_once hvalid hlisted hfloatingGet hwindow (hroot.trans heq.symm)

theorem splitLeafWithNewBuffer_in {k : ℕ} (hvalid : s.validate k = .ok ()) (hlisted : s.FloatingListed)
    (hspare : Spare s) {direction : SplitDirection} {view : BufferViewNode}
    (hleaf : s.nodes[leafId]? = some (.bufferView view))
    (h : splitLeafWithNewBuffer fuel leafId direction bufferId s = (.ok splitId, s')) :
    splitId = s.nodeIds.advance.peek ∧ ∃ t, SplitIn s view.parent leafId direction splitId
      s.nodeIds.peek t ∧ focusLeaf fuel view.sessionId s.nodeIds.peek t = (.ok (), s') := by
  obtain ⟨_, -, h⟩ := ok_ask_bind h
  obtain ⟨_, hhome, h⟩ := ok_ask_bind h
  obtain ⟨_, hparent, h⟩ := ok_ask_bind h
  obtain ⟨node, hnode, rfl⟩ := nodeSessionId_eq_ok.mp hhome
  obtain ⟨node', hnode', rfl⟩ := nodeParent_eq_ok.mp hparent
  obtain rfl := Option.some.inj (hleaf.symm.trans hnode)
  obtain rfl := Option.some.inj (hleaf.symm.trans hnode')
  obtain ⟨pane, t₁, hmade, h⟩ := ok_bind h
  obtain ⟨rfl, ⟨newView, -, -, hnodes⟩, hsessions, hfloating, hnodeIds, -⟩ := createBufferView_made hmade
  obtain ⟨fresh, t₂, hnext, h⟩ := ok_bind h
  obtain ⟨hfresh, ht₂⟩ := Prod.mk.inj hnext
  obtain rfl : t₁.nodeIds.peek = fresh := Except.ok.inj hfresh
  obtain ⟨_, t₃, hinsert, h⟩ := ok_bind h
  obtain ⟨_, t₄, hfocus, h⟩ := ok_bind h
  cases h
  rw [hnodeIds] at hinsert ⊢
  refine ⟨rfl, t₃, ?_, hfocus⟩
  subst ht₂
  exact insertSplitAround_in (t := { t₁ with nodeIds := t₁.nodeIds.advance }) hvalid hlisted hspare.pane
    hspare.split hspare.ne hleaf hnodes hsessions hfloating hinsert

theorem shape_replaceChildId {node : Node} (hnodup : node.childIds.Nodup) (oldChild newChild : NodeId) :
    (node.replaceChildId oldChild newChild).shape = node.shape.replaceChild oldChild newChild := by
  cases node with
  | bufferView => rfl
  | split => rfl
  | tabs node =>
    have hactive (tabs : TabsNode) : tabs.activeChild = tabs.children[tabs.active]? := by
      rw [TabsNode.activeChild, TabsNode.children, List.getElem?_map]
    rw [Node.replaceChildId, Node.shape, Node.shape, Shape.replaceChild, hactive, hactive]
    refine congrArg Shape.tabs (Eq.trans ?_ (getElem?_replace hnodup node.active))
    exact congrArg (·[node.active]?) (map_replaceF_child oldChild newChild node.tabs)

theorem drawn_nodup {node : Node} (hnodup : node.childIds.Nodup) : node.shape.drawn.Nodup := by
  cases node with
  | bufferView => exact List.nodup_nil
  | split => exact hnodup
  | tabs node =>
    rw [Node.shape, Shape.drawn]
    cases node.activeChild with
    | none => exact List.nodup_nil
    | some => exact List.nodup_singleton _

namespace SplitIn

variable {parentId : Option NodeId} {direction : SplitDirection} {k : ℕ}

/-- The parent of the pane, as it was. -/
theorem parent_nodup (h : SplitIn s parentId leafId direction splitId paneId t)
    (hvalid : s.validate k = .ok ()) {id : NodeId} (hid : parentId = some id) : ∃ node,
      s.nodes[id]? = some node ∧ t.nodes[id]? = some (node.replaceChildId leafId splitId) ∧
        node.childIds.Nodup := by
  obtain ⟨node, hnode, hnode'⟩ := h.parent hid
  refine ⟨node, hnode, hnode', ?_⟩
  by_cases hnil : node.childIds = []
  · rw [hnil]
    exact List.nodup_nil
  · exact (sound_of_validate hvalid hnode hnil).nodup

theorem sceneOf (h : SplitIn s parentId leafId direction splitId paneId t)
    (hvalid : s.validate k = .ok ()) {view : BufferViewNode}
    (hleaf : s.nodes[leafId]? = some (.bufferView view)) (session : Session) : t.sceneOf session =
      (s.sceneOf session).splitPane parentId leafId direction splitId paneId := by
  have hshapes : t.shapeOf =
      ((s.sceneOf session).splitPane parentId leafId direction splitId paneId).shapes := by
    funext id
    rw [shapeOf]
    by_cases hpane : id = paneId
    · obtain ⟨_, hview, -⟩ := h.pane
      rw [hpane, hview, Scene.shapes_splitPane_pane]
      rfl
    by_cases hsplit : id = splitId
    · obtain ⟨split, hsplitGet, -, hdirection, hchildren, hsizes, -⟩ := h.split
      rw [hsplit, hsplitGet, Scene.shapes_splitPane_split _ fun heq ↦ hpane (hsplit.trans heq),
        ← hdirection, ← hchildren, ← hsizes]
      rfl
    rw [Scene.shapes_splitPane_of_ne _ hpane hsplit]
    by_cases hparentId : parentId = some id
    · obtain ⟨node, hnode, hnode', hnodup⟩ := h.parent_nodup hvalid hparentId
      rw [if_pos hparentId, hnode', Option.map_some, shape_replaceChildId hnodup]
      exact (congrArg (Option.map (Shape.replaceChild leafId splitId))
        (show s.shapeOf id = some node.shape by rw [shapeOf, hnode, Option.map_some])).symm
    · rw [if_neg hparentId]
      by_cases hleafId : id = leafId
      · obtain ⟨_, hview, -⟩ := h.leaf
        rw [hleafId, hview]
        exact (show s.shapeOf leafId = some .view by rw [shapeOf, hleaf]; rfl).symm
      · rw [h.other hpane hsplit hleafId hparentId]
        rfl
  have hpopups : (fun id : FloatingId ↦ t.floating[id]?.map FloatingWindow.popup) =
      ((s.sceneOf session).splitPane parentId leafId direction splitId paneId).popups := by
    funext id
    rw [h.floating]
    simp only [Scene.splitPane, ServerState.sceneOf]
    split
    · rw [Option.map_map, Option.map_map]
      refine congrArg (Option.map · _) (funext fun floating ↦ ?_)
      change FloatingWindow.popup (if floating.rootNode = leafId then _ else floating) =
        if floating.rootNode = leafId then _ else floating.popup
      by_cases hroot : floating.rootNode = leafId
      · rw [if_pos hroot, if_pos hroot]
        rfl
      · rw [if_neg hroot, if_neg hroot]
    · rfl
  rw [ServerState.sceneOf, hshapes, hpopups]
  rfl

theorem laid (h : SplitIn s parentId leafId direction splitId paneId t) (hvalid : s.validate k = .ok ())
    (hspare : s.nodes[paneId]? = none) (hspare' : s.nodes[splitId]? = none) (hne : splitId ≠ paneId)
    {view : BufferViewNode} (hleaf : s.nodes[leafId]? = some (.bufferView view))
    (hparent : view.parent = parentId) (hhome : view.sessionId = sessionId)
    (haccepted : Accepted s sessionId session) : Laid t sessionId session := by
  have hapart {id fresh : NodeId} {node : Node} (hnode : s.nodes[id]? = some node)
      (hfresh : s.nodes[fresh]? = none) : id ≠ fresh := by
    rintro rfl
    rw [hfresh] at hnode
    cases hnode
  have hstays {id : NodeId} (hid : id ≠ leafId) : Stays s t id := by
    intro node hnode
    by_cases hparentId : parentId = some id
    · obtain ⟨before, hbefore, hafter⟩ := h.parent hparentId
      obtain rfl := Option.some.inj (hnode.symm.trans hbefore)
      refine ⟨_, outline_of_get hafter, Node.parent_replaceChildId leafId splitId node, ?_⟩
      cases node <;> rfl
    · refine ⟨_, outline_of_get (n := node) ?_, rfl, rfl⟩
      rw [h.other (hapart hnode hspare) (hapart hnode hspare') hid hparentId, hnode]
  have hscene := h.sceneOf hvalid hleaf session
  have hshapes : t.shapeOf = _ := congrArg Scene.shapes hscene
  constructor
  case child =>
    rintro above below ⟨shape, hshape, hmem⟩
    rw [hshapes] at hshape
    by_cases hpane : above = paneId
    · rw [hpane, Scene.shapes_splitPane_pane] at hshape
      obtain rfl := Option.some.inj hshape
      cases hmem
    by_cases hsplit : above = splitId
    · rw [hsplit, Scene.shapes_splitPane_split _ hne] at hshape
      obtain rfl := Option.some.inj hshape
      rcases List.mem_cons.mp hmem with rfl | hmem
      · obtain ⟨leaf, hget, hup⟩ := h.leaf
        exact ⟨_, outline_of_get hget, hup.trans (congrArg some hsplit.symm)⟩
      · obtain rfl := List.mem_singleton.mp hmem
        obtain ⟨pane, hget, hup⟩ := h.pane
        exact ⟨_, outline_of_get hget, hup.trans (congrArg some hsplit.symm)⟩
    rw [Scene.shapes_splitPane_of_ne _ hpane hsplit] at hshape
    split at hshape
    next hparentId =>
      obtain ⟨before, hbefore, rfl⟩ := Option.map_eq_some_iff.mp hshape
      obtain ⟨node, hnode, -, hnodup⟩ := h.parent_nodup hvalid hparentId
      have hbefore' : s.shapeOf above = some before := hbefore
      rw [shapeOf, hnode] at hbefore'
      obtain rfl := Option.some.inj hbefore'
      rcases Shape.mem_drawn_replaceChild (drawn_nodup hnodup) hmem with rfl | ⟨hmem, hbelow⟩
      · obtain ⟨split, hget, hup, -⟩ := h.split
        exact ⟨_, outline_of_get hget, hup.trans hparentId⟩
      · exact (hstays hbelow).child hvalid ⟨_, hbefore, hmem⟩
    next hparentId =>
      refine (hstays ?_).child hvalid ⟨shape, hshape, hmem⟩
      rintro rfl
      obtain ⟨child, hchild, hup⟩ := child_of_validate hvalid ⟨shape, hshape, hmem⟩
      obtain rfl := Option.some.inj (hleaf.symm.trans hchild)
      exact hparentId (hparent.symm.trans hup)
  case root =>
    rintro rootId hroot
    rw [hscene] at hroot
    rcases hroot with rfl | ⟨floatingId, hmem, popup, hpopup, rfl⟩
    · obtain ⟨root, hget, -, htabs, -⟩ := haccepted.root
      refine (hstays fun heq ↦ ?_).root haccepted (.inl rfl)
      rw [show session.rootNode = leafId from heq] at hget
      obtain rfl := Option.some.inj (hleaf.symm.trans hget)
      cases htabs
    · obtain ⟨floating, root, hfloating, -, hget, hup, -⟩ := haccepted.popup hmem
      simp only [Scene.splitPane, ServerState.sceneOf, hfloating, Option.map_some] at hpopup
      have hroot : (s.sceneOf session).Root floating.rootNode :=
        .inr ⟨floatingId, hmem, floating.popup, congrArg (Option.map FloatingWindow.popup) hfloating, rfl⟩
      split at hpopup
      next hnone =>
        obtain rfl := Option.some.inj hpopup
        split
        · obtain ⟨split, hsplitGet, hsplitUp, -, -, -, hsplitHome⟩ := h.split
          exact ⟨_, outline_of_get hsplitGet, hsplitUp.trans hnone, (hsplitHome _ hleaf).trans hhome⟩
        next hid => exact (hstays hid).root haccepted hroot
      next hsome =>
        obtain rfl := Option.some.inj hpopup
        refine (hstays fun heq ↦ hsome ?_).root haccepted hroot
        rw [show floating.rootNode = leafId from heq] at hget
        obtain rfl := Option.some.inj (hleaf.symm.trans hget)
        exact hparent.symm.trans hup

end SplitIn

/-! ## Adding a tab -/

/-- What adding a tab does before it focuses the tab's pane. -/
structure TabIn (s : ServerState) (tabsId paneId : NodeId) (t : ServerState) : Prop where
  pane : ∃ view : BufferViewNode, t.nodes[paneId]? = some (.bufferView view) ∧ view.parent = some tabsId
  tabs : ∃ before after : TabsNode, s.nodes[tabsId]? = some (.tabs before) ∧
    t.nodes[tabsId]? = some (.tabs after) ∧ after.parent = before.parent ∧
      after.sessionId = before.sessionId ∧ after.activeChild = some paneId
  other {id : NodeId} (hpane : id ≠ paneId) (htabs : id ≠ tabsId) : t.nodes[id]? = s.nodes[id]?
  sessions : t.sessions = s.sessions
  floating : t.floating = s.floating

theorem tabsNode_eq_ok {tabs : TabsNode} :
    s.tabsNode nodeId = .ok tabs ↔ s.nodes[nodeId]? = some (.tabs tabs) := by
  rw [tabsNode, ServerState.node]
  cases hnode : s.nodes[nodeId]? with
  | none => exact iff_of_false (fun h ↦ by cases h) fun h ↦ by cases h
  | some node =>
    cases node with
    | bufferView => exact iff_of_false (fun h ↦ by cases h) fun h ↦ by cases h
    | split => exact iff_of_false (fun h ↦ by cases h) fun h ↦ by cases h
    | tabs tabs' =>
      constructor
      · intro h
        obtain rfl : tabs' = tabs := Except.ok.inj h
        rfl
      · intro h
        cases h
        rfl

/-- Focusing through a view comes down to focusing the view. -/
theorem focusCandidateOrHeal_view {view : BufferViewNode} (hview : s.nodes[paneId]? = some (.bufferView view))
    (h : focusCandidateOrHeal fuel sessionId paneId s = (.ok (), s')) :
    focusLeaf fuel sessionId paneId s = (.ok (), s') := by
  obtain ⟨leaf, hleaf, h⟩ := ok_ask_bind h
  cases fuel with
  | zero => cases hleaf
  | succ fuel =>
    rw [resolveFocusCandidate, ServerState.node, hview] at hleaf
    obtain rfl : some paneId = leaf := Except.ok.inj hleaf
    exact h

/-- A new view, not yet in its place, becomes the tab at an index. -/
theorem addTabSiblingAtWithFocus_in {tabsId : NodeId} {index position : ℕ} {title : String}
    {view : BufferViewNode} {t u : ServerState} (hpane : s.nodes[paneId]? = none)
    (hnodes : t.nodes = s.nodes.insert paneId (.bufferView view)) (hsessions : t.sessions = s.sessions)
    (hfloating : t.floating = s.floating)
    (h : addTabSiblingAtWithFocus fuel tabsId index title paneId true t = (.ok position, u)) :
    ∃ tabs v, s.nodes[tabsId]? = some (.tabs tabs) ∧ TabIn s tabsId paneId v ∧
      focusLeaf fuel tabs.sessionId paneId v = (.ok (), u) := by
  obtain ⟨_, hhome, h⟩ := ok_ask_bind h
  obtain ⟨_, hcheck, h⟩ := ok_ask_bind h
  obtain ⟨node, hnode, rfl⟩ := nodeSessionId_eq_ok.mp hhome
  -- the tab goes where there is room for it
  have hfits : ∃ tabs, t.nodes[tabsId]? = some (.tabs tabs) ∧ paneId ≠ tabsId ∧
      index ≤ tabs.tabs.length := by
    unfold checkNewTab at hcheck
    obtain ⟨_, -, hcheck⟩ := Answer.ok_bind hcheck
    split at hcheck
    · cases hcheck
    next hself =>
      obtain ⟨tabs, htabs, hcheck⟩ := Answer.ok_bind hcheck
      obtain ⟨_, -, hcheck⟩ := Answer.ok_bind hcheck
      split at hcheck
      · cases hcheck
      split at hcheck
      · cases hcheck
      split at hcheck
      · cases hcheck
      split at hcheck
      · cases hcheck
      next hindex => exact ⟨tabs, tabsNode_eq_ok.mp htabs, hself, not_lt.mp hindex⟩
  obtain ⟨tabs, htabs, hne, hindex⟩ := hfits
  obtain rfl := Option.some.inj (hnode.symm.trans htabs)
  have htabs' : s.nodes[tabsId]? = some (.tabs tabs) := by
    rwa [hnodes, Table.get?_insert, if_neg hne] at htabs
  obtain ⟨_, v₀, hparent, h⟩ := ok_bind h
  obtain rfl := setParent_ok hparent
  rw [modify_bind_apply, if_pos rfl] at h
  obtain ⟨_, v, hfocus, h⟩ := ok_bind h
  cases h
  have hget (id : NodeId) : ((t.mapNode paneId (Node.setParent (some tabsId))).mapNode tabsId
      (Node.mapTabs fun tabs ↦ { tabs with
        tabs := tabs.tabs.insertIdx index (TabEntry.new title paneId), active := index })).nodes[id]? =
      if id = paneId then some (.bufferView { view with parent := some tabsId })
      else if id = tabsId then some (.tabs { tabs with
        tabs := tabs.tabs.insertIdx index (TabEntry.new title paneId), active := index })
      else s.nodes[id]? := by
    rw [mapNode, Table.get?_modify, mapNode, Table.get?_modify, hnodes, Table.get?_insert]
    by_cases hid : id = paneId
    · subst hid
      rw [if_neg (Ne.symm hne), if_pos rfl, if_pos rfl, if_pos rfl]
      rfl
    · rw [if_neg (Ne.symm hid), if_neg (Ne.symm hid), if_neg hid]
      by_cases hid' : id = tabsId
      · subst hid'
        rw [if_pos rfl, if_pos rfl, htabs']
        rfl
      · rw [if_neg (Ne.symm hid'), if_neg hid']
  generalize hv : mapNode tabsId _ (t.mapNode paneId _) = v at hget hfocus
  have hsessions' : v.sessions = s.sessions := by rw [← hv]; exact hsessions
  have hfloating' : v.floating = s.floating := by rw [← hv]; exact hfloating
  have hpaneGet : v.nodes[paneId]? = some (.bufferView { view with parent := some tabsId }) := by
    rw [hget, if_pos rfl]
  have htabsGet := (hget tabsId).trans ((if_neg (Ne.symm hne)).trans (if_pos rfl))
  refine ⟨tabs, v, htabs', ⟨⟨_, hpaneGet, rfl⟩, ⟨tabs, _, htabs', htabsGet, rfl, rfl, ?_⟩,
    fun hidPane hidTabs ↦ ?_, hsessions', hfloating'⟩, focusCandidateOrHeal_view hpaneGet hfocus⟩
  · rw [TabsNode.activeChild]
    dsimp only
    rw [List.getElem?_insertIdx_self, if_pos hindex]
    rfl
  · rw [hget, if_neg hidPane, if_neg hidTabs]

namespace TabIn

variable {tabsId : NodeId} {k : ℕ}

theorem sceneOf (h : TabIn s tabsId paneId t) (session : Session) :
    t.sceneOf session = (s.sceneOf session).addTab tabsId paneId := by
  have hshapes : t.shapeOf = ((s.sceneOf session).addTab tabsId paneId).shapes := by
    funext id
    rw [shapeOf]
    simp only [Scene.addTab]
    by_cases hpane : id = paneId
    · obtain ⟨_, hview, -⟩ := h.pane
      rw [hpane, hview, if_pos rfl]
      rfl
    rw [if_neg hpane]
    by_cases htabs : id = tabsId
    · obtain ⟨_, after, -, hafter, -, -, hactive⟩ := h.tabs
      rw [htabs, hafter, if_pos rfl, Option.map_some, Node.shape, hactive]
    · rw [h.other hpane htabs, if_neg htabs]
      rfl
  rw [ServerState.sceneOf, hshapes, h.floating]
  rfl

theorem laid (h : TabIn s tabsId paneId t) (hvalid : s.validate k = .ok ())
    (hspare : s.nodes[paneId]? = none) (haccepted : Accepted s sessionId session) :
    Laid t sessionId session := by
  have hstays (id : NodeId) : Stays s t id := by
    intro node hnode
    by_cases htabs : id = tabsId
    · obtain ⟨before, after, hbefore, hafter, hparent, hsame, -⟩ := h.tabs
      obtain rfl := htabs
      obtain rfl := Option.some.inj (hnode.symm.trans hbefore)
      exact ⟨_, outline_of_get hafter, hparent, hsame⟩
    · refine ⟨_, outline_of_get (n := node) ?_, rfl, rfl⟩
      rw [h.other _ htabs, hnode]
      rintro rfl
      rw [hspare] at hnode
      cases hnode
  have hscene := h.sceneOf session
  have hshapes : t.shapeOf = _ := congrArg Scene.shapes hscene
  constructor
  case child =>
    rintro above below ⟨shape, hshape, hmem⟩
    rw [hshapes] at hshape
    simp only [Scene.addTab] at hshape
    split at hshape
    · obtain rfl := Option.some.inj hshape
      cases hmem
    split at hshape
    next habove =>
      obtain rfl := Option.some.inj hshape
      obtain rfl := List.mem_singleton.mp hmem
      obtain ⟨pane, hget, hup⟩ := h.pane
      exact ⟨_, outline_of_get hget, hup.trans (congrArg some habove.symm)⟩
    · exact (hstays below).child hvalid ⟨shape, hshape, hmem⟩
  case root =>
    intro rootId hroot
    rw [hscene] at hroot
    exact (hstays rootId).root haccepted hroot

end TabIn

/-! ## Opening a popup -/

/-- What opening a popup does before it focuses the popup's pane. -/
structure PopupIn (s : ServerState) (sessionId : SessionId) (session : Session) (floatingId : FloatingId)
    (geometry : FloatGeometry) (paneId : NodeId) (t : ServerState) : Prop where
  pane : ∃ view : BufferViewNode, t.nodes = s.nodes.insert paneId (.bufferView view) ∧
    view.parent = none ∧ view.sessionId = sessionId
  session : t.sessions[sessionId]? = some { session with floating := session.floating ++ [floatingId] }
  floating : ∃ window : FloatingWindow, t.floating = s.floating.insert floatingId window ∧
    window.popup = ⟨paneId, geometry, true, true⟩

/-- Focusing a popup that has just been opened comes down to focusing its pane. -/
theorem focusFloating_view {floatingId : FloatingId} {window : FloatingWindow} {view : BufferViewNode}
    (hwindow : s.floating[floatingId]? = some window) (hvisible : window.visible = true)
    (hlast : window.lastFocusedLeaf = none) (hview : s.nodes[window.rootNode]? = some (.bufferView view))
    (h : focusFloating fuel floatingId s = (.ok (), s')) :
    focusLeaf fuel window.sessionId window.rootNode s = (.ok (), s') := by
  obtain ⟨floating, hfloating, h⟩ := ok_ask_bind h
  obtain ⟨leaf, hleaf, h⟩ := ok_ask_bind h
  obtain rfl := Option.some.inj (hwindow.symm.trans (floatingWindow_eq_ok.mp hfloating))
  rw [resolveFloatingFocus, hfloating, Answer.bind_ok, if_pos hvisible, floatingLastFocused, hlast] at hleaf
  cases fuel with
  | zero => cases hleaf
  | succ fuel =>
    have hresolved : s.resolveFocusCandidate (fuel + 1) window.rootNode = .ok leaf := hleaf
    rw [resolveFocusCandidate, ServerState.node, hview] at hresolved
    obtain rfl : some window.rootNode = leaf := Except.ok.inj hresolved
    exact h

theorem createFloatingWindowWithOptions_in {geometry : FloatGeometry} {title : Option String}
    {focus closeOnEmpty : Bool} {floatingId : FloatingId} {view : BufferViewNode} {t u : ServerState}
    (hview : view.parent = none) (hhome : view.sessionId = sessionId)
    (hnodes : t.nodes = s.nodes.insert paneId (.bufferView view)) (hsessions : t.sessions = s.sessions)
    (hfloating : t.floating = s.floating)
    (hids : t.floatingIds = s.floatingIds) (hsession : s.sessions[sessionId]? = some session)
    (h : createFloatingWindowWithOptions fuel sessionId paneId geometry title focus closeOnEmpty t =
      (.ok floatingId, u)) :
    floatingId = s.floatingIds.peek ∧ ∃ v, PopupIn s sessionId session floatingId geometry paneId v ∧
      (u = v ∨ focusLeaf fuel sessionId paneId v = (.ok (), u)) := by
  obtain ⟨_, -, h⟩ := ok_ask_bind h
  obtain ⟨_, -, h⟩ := ok_ask_bind h
  obtain ⟨_, -, h⟩ := ok_ask_bind h
  obtain ⟨opened, t₁, hnext, h⟩ := ok_bind h
  obtain ⟨hopened, rfl⟩ := Prod.mk.inj hnext
  obtain rfl : t.floatingIds.peek = opened := Except.ok.inj hopened
  rw [modify_bind_apply] at h
  obtain ⟨_, v, hlist, h⟩ := ok_bind h
  have hv : _ = v := congrArg Prod.snd hlist
  rw [sessionMut_snd] at hv
  have hvFloating : v.floating = s.floating.insert t.floatingIds.peek
      ⟨sessionId, paneId, title, geometry, false, true, closeOnEmpty, true, none⟩ := by
    rw [← hv, ← hfloating]
    rfl
  have hvNodes : v.nodes = s.nodes.insert paneId (.bufferView view) := by
    rw [← hv, ← hnodes]
    rfl
  have hmade : PopupIn s sessionId session t.floatingIds.peek geometry paneId v := by
    refine ⟨⟨view, hvNodes, hview, hhome⟩, ?_, ⟨_, hvFloating, rfl⟩⟩
    rw [← hv, mapSession, Table.get?_modify, if_pos rfl]
    exact congrArg (Option.map _) ((congrArg (·[sessionId]?) hsessions).trans hsession)
  have hget : v.floating[t.floatingIds.peek]? =
      some ⟨sessionId, paneId, title, geometry, false, true, closeOnEmpty, true, none⟩ := by
    rw [hvFloating, Table.get?_insert, if_pos rfl]
  have hpane : v.nodes[paneId]? = some (.bufferView view) := by
    rw [hvNodes, Table.get?_insert, if_pos rfl]
  split at h
  · obtain ⟨result, w, hfocus, h⟩ := ok_bind h
    cases result with
    | error e => exact absurd h throw_ne_ok
    | ok =>
      cases h
      rw [attempt_eq_ok_ok] at hfocus
      have hfocused := focusFloating_view hget rfl rfl hpane hfocus
      exact ⟨congrArg IdAllocator.peek hids, v, hmade, .inr hfocused⟩
  · cases h
    exact ⟨congrArg IdAllocator.peek hids, _, hmade, .inl rfl⟩

namespace PopupIn

variable {floatingId : FloatingId} {geometry : FloatGeometry} {k : ℕ}

theorem sceneOf (h : PopupIn s sessionId session floatingId geometry paneId t) :
    t.sceneOf { session with floating := session.floating ++ [floatingId] } =
      (s.sceneOf session).addPopup floatingId geometry true paneId := by
  have hshapes : t.shapeOf = ((s.sceneOf session).addPopup floatingId geometry true paneId).shapes := by
    funext id
    obtain ⟨view, hnodes, -⟩ := h.pane
    rw [shapeOf, hnodes, Table.get?_insert]
    simp only [Scene.addPopup]
    by_cases hpane : id = paneId
    · rw [if_pos hpane.symm, if_pos hpane]
      rfl
    · rw [if_neg (Ne.symm hpane), if_neg hpane]
      rfl
  have hpopups : (fun id : FloatingId ↦ t.floating[id]?.map FloatingWindow.popup) =
      ((s.sceneOf session).addPopup floatingId geometry true paneId).popups := by
    funext id
    obtain ⟨window, hfloating, hpopup⟩ := h.floating
    rw [hfloating, Table.get?_insert]
    simp only [Scene.addPopup]
    by_cases hid : id = floatingId
    · rw [if_pos hid.symm, if_pos hid, Option.map_some, hpopup]
    · rw [if_neg (Ne.symm hid), if_neg hid]
      rfl
  rw [ServerState.sceneOf, hshapes, hpopups]
  rfl

theorem laid (h : PopupIn s sessionId session floatingId geometry paneId t)
    (hvalid : s.validate k = .ok ()) (hspare : s.nodes[paneId]? = none)
    (haccepted : Accepted s sessionId session) :
    Laid t sessionId { session with floating := session.floating ++ [floatingId] } := by
  obtain ⟨view, hnodes, hup, hhome⟩ := h.pane
  have hpane : t.outline paneId = some (Node.bufferView view).outline :=
    outline_of_get (by rw [hnodes, Table.get?_insert, if_pos rfl])
  have hstays (id : NodeId) : Stays s t id := by
    intro node hnode
    refine ⟨_, outline_of_get (n := node) ?_, rfl, rfl⟩
    rw [hnodes, Table.get?_insert, if_neg, hnode]
    rintro rfl
    rw [hspare] at hnode
    cases hnode
  have hscene := h.sceneOf
  have hshapes : t.shapeOf = _ := congrArg Scene.shapes hscene
  constructor
  case child =>
    rintro above below ⟨shape, hshape, hmem⟩
    rw [hshapes] at hshape
    simp only [Scene.addPopup] at hshape
    split at hshape
    · obtain rfl := Option.some.inj hshape
      cases hmem
    · exact (hstays below).child hvalid ⟨shape, hshape, hmem⟩
  case root =>
    intro rootId hroot
    rw [hscene] at hroot
    rcases hroot with rfl | ⟨listed, hmem, popup, hpopup, rfl⟩
    · exact (hstays _).root haccepted (.inl rfl)
    · simp only [Scene.addPopup] at hpopup
      split at hpopup
      · obtain rfl := Option.some.inj hpopup
        exact ⟨_, hpane, hup, hhome⟩
      next hother =>
        have hlisted : listed ∈ session.floating := by
          rcases List.mem_append.mp hmem with hmem | hmem
          · exact hmem
          · exact absurd (List.mem_singleton.mp hmem) hother
        exact (hstays _).root haccepted (.inr ⟨listed, hlisted, popup, hpopup, rfl⟩)

end PopupIn

/-! ## Showing a buffer in a pane there is -/

/-- Attaching a buffer changes which buffer a view shows, and no other node. -/
theorem attachBuffer_nodes (h : attachBuffer bufferId nodeId s = (.ok (), t)) :
    t.sessions = s.sessions ∧ t.floating = s.floating ∧
      (t.nodes = s.nodes ∨
        t.nodes = s.nodes.modify nodeId (Node.mapView fun leaf ↦ { leaf with bufferId })) := by
  obtain ⟨_, -, h⟩ := ok_ask_bind h
  obtain ⟨_, -, h⟩ := ok_ask_bind h
  obtain ⟨current, -, h⟩ := ok_ask_bind h
  split at h
  · rw [modify_bind_apply, modify_bind_apply] at h
    have ht : _ = t := congrArg Prod.snd h
    rw [setBufferAttached, bufferMut_snd] at ht
    subst ht
    exact ⟨rfl, rfl, .inr rfl⟩
  · have ht : _ = t := congrArg Prod.snd h
    rw [setBufferAttached, bufferMut_snd] at ht
    subst ht
    exact ⟨rfl, rfl, .inl rfl⟩

theorem attachBuffer_scene {k : ℕ} (hvalid : s.validate k = .ok ())
    (haccepted : Accepted s sessionId session) (h : attachBuffer bufferId nodeId s = (.ok (), t)) :
    t.sessions = s.sessions ∧ t.sceneOf session = s.sceneOf session ∧ Laid t sessionId session := by
  obtain ⟨hsessions, hfloating, hnodes⟩ := attachBuffer_nodes h
  have hget (id : NodeId) : t.nodes[id]?.map (fun node ↦ (node.shape, node.parent, node.sessionId)) =
      s.nodes[id]?.map fun node ↦ (node.shape, node.parent, node.sessionId) := by
    rcases hnodes with hnodes | hnodes
    · rw [hnodes]
    · rw [hnodes, Table.get?_modify]
      split
      · rw [Option.map_map]
        refine congrArg (Option.map · _) (funext fun node ↦ ?_)
        cases node <;> rfl
      · rfl
  have hshapes : t.shapeOf = s.shapeOf := by
    funext id
    have hshape := congrArg (Option.map Prod.fst) (hget id)
    rwa [Option.map_map, Option.map_map] at hshape
  have hstays (id : NodeId) : Stays s t id := by
    intro node hnode
    have hsame := hget id
    rw [hnode] at hsame
    obtain ⟨node', hnode', heq⟩ := Option.map_eq_some_iff.mp hsame
    exact ⟨_, outline_of_get hnode', congrArg (·.2.1) heq, congrArg (·.2.2) heq⟩
  have hscene : t.sceneOf session = s.sceneOf session := by
    rw [ServerState.sceneOf, ServerState.sceneOf, hshapes, hfloating]
  exact ⟨hsessions, hscene, fun {above below} hdraws ↦ (hstays below).child hvalid (hshapes ▸ hdraws),
    fun {rootId} hroot ↦ (hstays rootId).root haccepted (hscene ▸ hroot)⟩

/-! ## The requests -/

section

variable {k : ℕ} (hvalid : s.validate k = .ok ()) (hsession : s.sessions[sessionId]? = some session)
include hvalid hsession

theorem splitLeafWithNewBuffer_scene (hlisted : s.FloatingListed) (hspare : Spare s)
    {direction : SplitDirection} {view : BufferViewNode}
    (hleaf : s.nodes[leafId]? = some (.bufferView view)) (hhome : view.sessionId = sessionId)
    (hdrawn : ((s.sceneOf session).splitPane view.parent leafId direction s.nodeIds.advance.peek
      s.nodeIds.peek).Drawn s.nodeIds.peek)
    (h : splitLeafWithNewBuffer fuel leafId direction bufferId s = (.ok splitId, s')) :
    Leaves sessionId session ((s.sceneOf session).splitPane view.parent leafId direction
      s.nodeIds.advance.peek s.nodeIds.peek) s' := by
  obtain ⟨rfl, t, hin, hfocus⟩ := splitLeafWithNewBuffer_in hvalid hlisted hspare hleaf h
  have hscene := hin.sceneOf hvalid hleaf session
  have hlaid := hin.laid hvalid hspare.pane hspare.split hspare.ne hleaf rfl hhome
    (accepted_of_validate hvalid hsession)
  rw [hhome] at hfocus
  rw [← hscene] at hdrawn ⊢
  exact hlaid.focusLeaf (by rw [hin.sessions]; exact hsession) hdrawn hfocus

/-- The tabs' own session is the one that focuses the pane. -/
theorem addTab_scene (hspare : Spare s) {tabsId : NodeId} {index position : ℕ} {title : String}
    {tabs : TabsNode} (htabs : s.nodes[tabsId]? = some (.tabs tabs)) (hhome : tabs.sessionId = sessionId)
    (hdrawn : ((s.sceneOf session).addTab tabsId s.nodeIds.peek).Drawn s.nodeIds.peek) {t : ServerState}
    (hmade : ViewMade s sessionId s.nodeIds.peek t)
    (h : addTabSiblingAtWithFocus fuel tabsId index title s.nodeIds.peek true t = (.ok position, s')) :
    Leaves sessionId session ((s.sceneOf session).addTab tabsId s.nodeIds.peek) s' := by
  obtain ⟨view, -, -, hnodes⟩ := hmade.node
  obtain ⟨tabs', v, htabs', hin, hfocus⟩ :=
    addTabSiblingAtWithFocus_in hspare.pane hnodes hmade.sessions hmade.floating h
  obtain rfl : tabs = tabs' := by
    rw [htabs] at htabs'
    exact Node.tabs.inj (Option.some.inj htabs')
  have hscene := hin.sceneOf session
  have hlaid := hin.laid hvalid hspare.pane (accepted_of_validate hvalid hsession)
  rw [hhome] at hfocus
  rw [← hscene] at hdrawn ⊢
  exact hlaid.focusLeaf (by rw [hin.sessions]; exact hsession) hdrawn hfocus

theorem addTabFromBufferAt_scene (hspare : Spare s) {tabsId : NodeId} {index position : ℕ}
    {title : String} {tabs : TabsNode} (htabs : s.nodes[tabsId]? = some (.tabs tabs))
    (hhome : tabs.sessionId = sessionId)
    (hdrawn : ((s.sceneOf session).addTab tabsId s.nodeIds.peek).Drawn s.nodeIds.peek)
    (h : addTabFromBufferAt fuel tabsId index title bufferId s = (.ok position, s')) :
    Leaves sessionId session ((s.sceneOf session).addTab tabsId s.nodeIds.peek) s' := by
  obtain ⟨tabs', htabs', h⟩ := ok_ask_bind h
  obtain rfl : tabs = tabs' := by
    rw [tabsNode_eq_ok.mp htabs'] at htabs
    exact (Node.tabs.inj (Option.some.inj htabs)).symm
  obtain ⟨pane, t, hcreate, h⟩ := ok_bind h
  have hmade := createBufferView_made hcreate
  obtain rfl := hmade.id
  obtain ⟨result, u, hplace, h⟩ := ok_bind h
  cases result with
  | error e =>
    obtain ⟨_, _, -, h⟩ := ok_bind h
    exact absurd h throw_ne_ok
  | ok =>
    cases h
    exact addTab_scene hvalid hsession hspare htabs hhome hdrawn (hhome ▸ hmade)
      (attempt_eq_ok_ok.mp hplace)

theorem addRootTabFromBuffer_scene (hspare : Spare s) {position : ℕ} {title : String}
    (hdrawn : ((s.sceneOf session).addTab session.rootNode s.nodeIds.peek).Drawn s.nodeIds.peek)
    (h : addRootTabFromBuffer fuel sessionId title bufferId s = (.ok position, s')) :
    Leaves sessionId session ((s.sceneOf session).addTab session.rootNode s.nodeIds.peek) s' := by
  obtain ⟨rootId, hroot, h⟩ := ok_ask_bind h
  obtain ⟨root, hget, -, htabs, hhome⟩ := (accepted_of_validate hvalid hsession).root
  obtain rfl : session.rootNode = rootId := by
    rw [ServerState.rootTabs, ServerState.rootNode, session_eq_ok.mpr hsession] at hroot
    obtain ⟨_, hid, hroot⟩ := Answer.ok_bind hroot
    cases hid
    obtain ⟨_, -, hroot⟩ := Answer.ok_bind hroot
    split at hroot
    · exact Except.ok.inj hroot
    · cases hroot
  cases root with
  | bufferView => cases htabs
  | split => cases htabs
  | tabs tabs =>
    obtain ⟨pane, t, hcreate, h⟩ := ok_bind h
    have hmade := createBufferView_made hcreate
    obtain rfl := hmade.id
    obtain ⟨result, u, hplace, h⟩ := ok_bind h
    cases result with
    | error e =>
      obtain ⟨_, _, -, h⟩ := ok_bind h
      exact absurd h throw_ne_ok
    | ok =>
      cases h
      obtain ⟨_, -, hplace⟩ := ok_ask_bind (attempt_eq_ok_ok.mp hplace)
      exact addTab_scene hvalid hsession hspare hget hhome hdrawn hmade hplace

/-- A popup is framed, or not, after it was opened and focused. -/
theorem createFloatingFromBufferWithOptions_scene (hspare : Spare s) {geometry : FloatGeometry}
    {title : Option String} {focus closeOnEmpty border : Bool} {floatingId : FloatingId} {t : ServerState}
    (hdrawn : ((s.sceneOf session).addPopup s.floatingIds.peek geometry border s.nodeIds.peek).Drawn
      s.nodeIds.peek)
    (h : createFloatingFromBufferWithOptions fuel sessionId bufferId geometry title focus closeOnEmpty s =
      (.ok floatingId, t)) (hborder : setFloatingBorder floatingId border t = (.ok (), s')) :
    Leaves sessionId session
      ((s.sceneOf session).addPopup s.floatingIds.peek geometry border s.nodeIds.peek) s' := by
  obtain ⟨pane, t₁, hcreate, h⟩ := ok_bind h
  have hmade := createBufferView_made hcreate
  obtain rfl := hmade.id
  obtain ⟨view, hhome, hview, hnodes⟩ := hmade.node
  obtain ⟨result, u, hplace, h⟩ := ok_bind h
  cases result with
  | error e =>
    obtain ⟨_, _, -, h⟩ := ok_bind h
    exact absurd h throw_ne_ok
  | ok =>
    cases h
    obtain ⟨rfl, v, hin, hfocus⟩ := createFloatingWindowWithOptions_in hview hhome hnodes
      hmade.sessions hmade.floating hmade.floatingIds hsession (attempt_eq_ok_ok.mp hplace)
    have hscene := hin.sceneOf
    have hlaid := hin.laid hvalid hspare.pane (accepted_of_validate hvalid hsession)
    -- whether there is a border decides nothing about which nodes are drawn
    have hdrawn' : ((s.sceneOf session).addPopup s.floatingIds.peek geometry true s.nodeIds.peek).Drawn
        s.nodeIds.peek := hdrawn.addPopup_border
    have hleft : Leaves sessionId session
        ((s.sceneOf session).addPopup s.floatingIds.peek geometry true s.nodeIds.peek) t := by
      rw [← hscene] at hdrawn' ⊢
      rcases hfocus with rfl | hfocus
      · exact ⟨_, hin.session, rfl, rfl, hlaid⟩
      · exact hlaid.focusLeaf hin.session hdrawn' hfocus
    obtain ⟨session', hsession', hzoom, hscene', hlaid'⟩ := hleft
    have hs' : _ = s' := congrArg Prod.snd hborder
    rw [setFloatingBorder, floatingMut_snd] at hs'
    subst hs'
    have hpopups : (fun id : FloatingId ↦ (t.mapFloating s.floatingIds.peek fun floating ↦
        { floating with border }).floating[id]?.map FloatingWindow.popup) =
        ((s.sceneOf session).addPopup s.floatingIds.peek geometry border s.nodeIds.peek).popups := by
      funext id
      have hbefore : t.floating[id]?.map FloatingWindow.popup = _ :=
        congrFun (congrArg Scene.popups hscene') id
      rw [mapFloating, Table.get?_modify]
      simp only [Scene.addPopup] at hbefore ⊢
      by_cases hid : id = s.floatingIds.peek
      · rw [if_pos hid] at hbefore
        obtain ⟨window, hwindow, hpopup⟩ := Option.map_eq_some_iff.mp hbefore
        rw [if_pos hid.symm, if_pos hid, hwindow]
        exact congrArg (fun popup : Popup ↦ some { popup with border }) hpopup
      · rw [if_neg hid] at hbefore
        rw [if_neg (Ne.symm hid), if_neg hid, hbefore]
    refine ⟨session', hsession', hzoom, Scene.ext (show t.shapeOf = _ from congrArg Scene.shapes hscene')
      (show session'.rootNode = _ from congrArg Scene.root hscene')
      (show session'.floating = _ from congrArg Scene.floatingIds hscene') hpopups, hlaid'.child, ?_⟩
    intro rootId hroot
    refine hlaid'.root ?_
    rcases hroot with rfl | ⟨listed, hmem, popup, hpopup, rfl⟩
    · exact .inl rfl
    · change (t.floating.modify s.floatingIds.peek _)[listed]?.map FloatingWindow.popup = some popup at hpopup
      obtain ⟨window, hwindow, rfl⟩ := Option.map_eq_some_iff.mp hpopup
      rw [Table.get?_modify] at hwindow
      split at hwindow
      · obtain ⟨before, hbefore, rfl⟩ := Option.map_eq_some_iff.mp hwindow
        exact .inr ⟨listed, hmem, before.popup, congrArg (Option.map FloatingWindow.popup) hbefore, rfl⟩
      · exact .inr ⟨listed, hmem, window.popup, congrArg (Option.map FloatingWindow.popup) hwindow, rfl⟩

theorem moveBufferToLeaf_scene {buffer : Buffer} (hbuffer : s.buffers[bufferId]? = some buffer)
    (hdetached : buffer.attachment = .detached) {view : BufferViewNode}
    (hleaf : s.nodes[leafId]? = some (.bufferView view)) (hhome : view.sessionId = sessionId)
    (hdrawn : (s.sceneOf session).Drawn leafId)
    (h : moveBufferToLeaf fuel bufferId leafId s = (.ok (), s')) :
    Leaves sessionId session (s.sceneOf session) s' := by
  obtain ⟨_, -, h⟩ := ok_ask_bind h
  obtain ⟨_, hsessionId, h⟩ := ok_ask_bind h
  obtain ⟨node, hnode, rfl⟩ := nodeSessionId_eq_ok.mp hsessionId
  obtain rfl := Option.some.inj (hleaf.symm.trans hnode)
  obtain ⟨buffer', hbuffer', h⟩ := ok_ask_bind h
  obtain rfl := Option.some.inj (hbuffer.symm.trans (buffer_eq_ok.mp hbuffer'))
  rw [hdetached] at h
  simp only [BufferAttachment.view, reduceCtorEq, if_false] at h
  obtain ⟨_, t₀, hleave, h⟩ := ok_bind h
  cases hleave
  obtain ⟨_, t, hattach, hfocus⟩ := ok_bind h
  obtain ⟨hsessions, hscene, hlaid⟩ :=
    attachBuffer_scene hvalid (accepted_of_validate hvalid hsession) hattach
  rw [show (Node.bufferView view).sessionId = sessionId from hhome] at hfocus
  rw [← hscene] at hdrawn ⊢
  exact hlaid.focusLeaf (by rw [hsessions]; exact hsession) hdrawn hfocus

end

end Embers.ServerState
