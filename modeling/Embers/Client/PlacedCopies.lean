import Embers.Client.SceneTwins
import Embers.Client.SpawnSizes
import Embers.State.PlacedScenes

/-!
# Copies with a pane put in

A client that caches a session copies its records, adds a pane that hangs nowhere (`SessionCopy`),
and puts the pane in place. The scene of the copy is then the session's scene with the pane in it,
under the ids that no record has.
-/

namespace Embers.Client

open Protocol Server ServerState

/-! ## Changes of records -/

theorem shapeOf_insert (c : ClientState) (nodeId : NodeId) (record : NodeRecord) (id : NodeId) :
    ({ c with nodes := c.nodes.insert nodeId record } : ClientState).shapeOf id =
      if id = nodeId then record.shape else c.shapeOf id := by
  rw [ClientState.shapeOf, Table.get?_insert]
  by_cases hid : id = nodeId
  · rw [if_pos hid.symm, if_pos hid]
    rfl
  · rw [if_neg (Ne.symm hid), if_neg hid]
    rfl

theorem shapeOf_setParent (nodeId parentId : NodeId) (c : ClientState) :
    (setParent nodeId parentId c).shapeOf = c.shapeOf := by
  funext id
  rw [ClientState.shapeOf, setParent, Table.get?_modify, ClientState.shapeOf]
  split
  · cases c.nodes[id]? <;> rfl
  · rfl

/-- Records under their own ids, all of one session. -/
def Tidy (sessionId : SessionId) (c : ClientState) : Prop :=
  ∀ (nodeId : NodeId) (record : NodeRecord), c.nodes[nodeId]? = some record →
    record.id = nodeId ∧ record.sessionId = sessionId

theorem Tidy.insert {sessionId : SessionId} {c : ClientState} (h : Tidy sessionId c) {nodeId : NodeId}
    {record : NodeRecord} (hid : record.id = nodeId) (hsession : record.sessionId = sessionId) :
    Tidy sessionId { c with nodes := c.nodes.insert nodeId record } := by
  intro id found hfound
  rw [Table.get?_insert] at hfound
  split at hfound
  next heq =>
    obtain rfl := Option.some.inj hfound
    exact ⟨hid.trans heq, hsession⟩
  next => exact h id found hfound

theorem Tidy.setParent {sessionId : SessionId} {c : ClientState} (h : Tidy sessionId c)
    (nodeId parentId : NodeId) : Tidy sessionId (setParent nodeId parentId c) := by
  intro id found hfound
  rw [Client.setParent, Table.get?_modify] at hfound
  split at hfound
  · obtain ⟨before, hbefore, rfl⟩ := Option.map_eq_some_iff.mp hfound
    exact h id before hbefore
  · exact h id found hfound

/-! ## The copy -/

/-- A copy of the session's records, with a pane that hangs nowhere. -/
structure SessionCopy (s : ServerState) (sessionId : SessionId) (session : Session) (c : ClientState) :
    Prop where
  cached : c.sessions[sessionId]? = some (sessionRecord sessionId session)
  tidy : Tidy sessionId c
  added : c.nodes[newLeaf]? = some (newLeafRecord sessionId)
  node {nodeId : NodeId} {record : NodeRecord} (h : c.nodes[nodeId]? = some record)
    (hne : nodeId ≠ newLeaf) : InSession s session nodeId ∧ ∃ node leaf,
      s.nodes[nodeId]? = some node ∧ arrivedNode nodeId leaf node = some record
  held {nodeId : NodeId} (h : InSession s session nodeId) : nodeId ≠ newLeaf ∧
    ∃ record, c.nodes[nodeId]? = some record
  window {floatingId : FloatingId} {window : FloatingRecord} (h : c.floating[floatingId]? = some window) :
    floatingId ∈ session.floating ∧ ∃ floating, s.floating[floatingId]? = some floating ∧
      window = floatingRecord floatingId floating
  listed {floatingId : FloatingId} (h : floatingId ∈ session.floating) : ∃ window,
    c.floating[floatingId]? = some window

variable {s : ServerState} {sessionId : SessionId} {session : Session} {c layout copied : ClientState}
  {k : ℕ}

theorem sessionLayout_some (h : sessionLayout c sessionId = some layout) : ∃ session,
    c.sessions[sessionId]? = some session ∧ layout.sessions[sessionId]? = some session ∧
      layout.nodes = (c.nodes.filter fun _ node ↦ node.sessionId = sessionId) ∧
      layout.floating = c.floating.filter fun floatingId _ ↦ floatingId ∈ session.floatingIds := by
  obtain ⟨session, hsession, h⟩ := Option.bind_eq_some_iff.mp h
  obtain rfl := Option.some.inj h
  exact ⟨session, hsession, (Table.get?_insert _ _ _ _).trans (if_pos rfl), rfl, rfl⟩

/-- The nodes of an accepted session belong to it. -/
theorem home_of_inSession (hvalid : s.validate k = .ok ()) (haccepted : Accepted s sessionId session)
    {nodeId : NodeId} (h : InSession s session nodeId) :
    ∃ node, s.nodes[nodeId]? = some node ∧ node.sessionId = sessionId := by
  obtain ⟨root, hroot, hbelow⟩ := h
  induction hbelow with
  | refl =>
    rcases hroot with rfl | ⟨floatingId, hmem, floating, hfloating, rfl⟩
    · obtain ⟨node, hnode, -, -, hhome⟩ := haccepted.root
      exact ⟨node, hnode, hhome⟩
    · obtain ⟨floating', node, hfloating', -, hnode, -, hhome⟩ := haccepted.popup hmem
      obtain rfl := Option.some.inj (hfloating.symm.trans hfloating')
      exact ⟨node, hnode, hhome⟩
  | tail _ hlists ih =>
    obtain ⟨parent, hparent, hhome⟩ := ih
    obtain ⟨parent', hparent', hmem⟩ := hlists
    obtain rfl := Option.some.inj (hparent.symm.trans hparent')
    obtain ⟨child, hchild, -, hsame⟩ :=
      (sound_of_validate hvalid hparent (List.ne_nil_of_mem hmem)).child hmem
    exact ⟨child, hchild, hsame.trans hhome⟩

theorem sessionCopy_of_caches (h : Caches s sessionId session c) (hvalid : s.validate k = .ok ())
    (hspare : s.nodes[newLeaf]? = none) (hlayout : sessionLayout c sessionId = some layout) :
    SessionCopy s sessionId session (addNewLeaf sessionId layout) := by
  obtain ⟨record, hrecord, hcached, hnodes, hfloating⟩ := sessionLayout_some hlayout
  obtain rfl := Option.some.inj (h.recorded.symm.trans hrecord)
  have hget (id : NodeId) : (addNewLeaf sessionId layout).nodes[id]? =
      if id = newLeaf then some (newLeafRecord sessionId)
      else c.nodes[id]?.filter (·.sessionId = sessionId) := by
    rw [addNewLeaf, Table.get?_insert, hnodes, Table.get?_filter]
    by_cases hid : id = newLeaf
    · rw [if_pos hid.symm, if_pos hid]
    · rw [if_neg (Ne.symm hid), if_neg hid]
  have hfoundIn {id : NodeId} {found : NodeRecord}
      (hfound : (addNewLeaf sessionId layout).nodes[id]? = some found) (hne : id ≠ newLeaf) :
      found.sessionId = sessionId ∧ InSession s session id ∧ ∃ node leaf, s.nodes[id]? = some node ∧
        arrivedNode id leaf node = some found := by
    rw [hget, if_neg hne] at hfound
    obtain ⟨hfound, hhome⟩ := Option.filter_eq_some_iff.mp hfound
    have hin := h.only hfound (of_decide_eq_true hhome)
    obtain ⟨node, leaf, found', hnode, hrecord, hfound'⟩ := h.node hin
    obtain rfl := Option.some.inj (hfound.symm.trans hfound')
    exact ⟨of_decide_eq_true hhome, hin, node, leaf, hnode, hrecord⟩
  constructor
  case cached => exact hcached
  case tidy =>
    intro id found hfound
    by_cases hne : id = newLeaf
    · rw [hget, if_pos hne] at hfound
      obtain rfl := Option.some.inj hfound
      exact ⟨hne.symm, rfl⟩
    · obtain ⟨hhome, -, node, leaf, -, hrecord⟩ := hfoundIn hfound hne
      exact ⟨(arrivedNode_some hrecord).1, hhome⟩
  case added => rw [hget, if_pos rfl]
  case node => exact fun hfound hne ↦ (hfoundIn hfound hne).2
  case held =>
    intro id hin
    obtain ⟨node, leaf, record, hnode, hrecord, hfound⟩ := h.node hin
    obtain ⟨node', hnode', hhome⟩ := home_of_inSession hvalid (accepted_of_validate hvalid h.kept) hin
    obtain rfl := Option.some.inj (hnode.symm.trans hnode')
    have hne : id ≠ newLeaf := by
      rintro rfl
      rw [hspare] at hnode
      cases hnode
    refine ⟨hne, record, ?_⟩
    rw [hget, if_neg hne, hfound]
    exact Option.filter_eq_some_iff.mpr
      ⟨rfl, decide_eq_true ((arrivedNode_some hrecord).2.1.trans hhome)⟩
  case window =>
    intro floatingId window hwindow
    change layout.floating[floatingId]? = some window at hwindow
    rw [hfloating, Table.get?_filter] at hwindow
    obtain ⟨hwindow, hmem⟩ := Option.filter_eq_some_iff.mp hwindow
    have hmem : floatingId ∈ session.floating := of_decide_eq_true hmem
    obtain ⟨floating, hget, hcached⟩ := h.floating hmem
    exact ⟨hmem, floating, hget, Option.some.inj (hwindow.symm.trans hcached)⟩
  case listed =>
    intro floatingId hmem
    obtain ⟨floating, -, hcached⟩ := h.floating hmem
    refine ⟨floatingRecord floatingId floating, ?_⟩
    change layout.floating[floatingId]? = _
    rw [hfloating, Table.get?_filter, hcached]
    exact Option.filter_eq_some_iff.mpr ⟨rfl, decide_eq_true hmem⟩

namespace SessionCopy

/-- The copy has what the session draws. -/
theorem agrees (h : SessionCopy s sessionId session c) :
    Scene.Agrees (InSession s session) (c.sceneOf (sessionRecord sessionId session)) (s.sceneOf session) where
  root := rfl
  rootWithin := ⟨_, .inl rfl, .refl⟩
  floatingIds := rfl
  popup {floatingId} hmem := by
    obtain ⟨window, hwindow⟩ := h.listed hmem
    obtain ⟨-, floating, hfloating, rfl⟩ := h.window hwindow
    exact ⟨floating.popup, congrArg (Option.map FloatingRecord.popup) hwindow,
      congrArg (Option.map FloatingWindow.popup) hfloating, _,
      .inr ⟨floatingId, hmem, floating, hfloating, rfl⟩, .refl⟩
  shape {nodeId} hnode := by
    obtain ⟨hne, record, hrecord⟩ := h.held hnode
    obtain ⟨-, node, leaf, hget, hmade⟩ := h.node hrecord hne
    obtain ⟨-, -, -, hshape⟩ := arrivedNode_some hmade
    have hserver : s.shapeOf nodeId = some node.shape := congrArg (Option.map Node.shape) hget
    have hclient : c.shapeOf nodeId = some node.shape := by
      rw [ClientState.shapeOf, hrecord, Option.bind_some, hshape]
    exact ⟨node.shape, hclient, hserver, fun child hmem ↦
      inSession_child hnode (ServerState.lists_of_draws ⟨_, hserver, hmem⟩)⟩

end SessionCopy

/-! ## Payloads -/

theorem map_replaceTab (old new : NodeId) (tabs : List TabRecord) :
    (replaceTab old new tabs).map (·.childId) = (tabs.map (·.childId)).replace old new := by
  induction tabs with
  | nil => rfl
  | cons tab tabs ih =>
    rw [replaceTab, List.replaceF_cons, List.map_cons, List.replace_cons]
    by_cases htab : tab.childId = old
    · rw [if_pos htab, htab, beq_self_eq_true]
      rfl
    · rw [if_neg htab, beq_false_of_ne (Ne.symm htab), List.map_cons, ← ih]
      rfl

/-- What the record of a container of the server becomes. -/
theorem replacePayload_some {nodeId old new : NodeId} {leaf : Option NodeId} {node : Node}
    {record replaced : NodeRecord} (hrecord : arrivedNode nodeId leaf node = some record)
    (hnodup : node.childIds.Nodup) (h : replacePayload old new record = some replaced) :
    replaced.id = record.id ∧ replaced.sessionId = record.sessionId ∧
      replaced.shape = some (node.shape.replaceChild old new) := by
  cases node with
  | bufferView view =>
    obtain rfl := Option.some.inj hrecord
    cases h
  | split split =>
    obtain rfl := Option.some.inj hrecord
    simp only [replacePayload, NodeRecord.sent, if_true] at h
    split at h
    · obtain rfl := Option.some.inj h
      exact ⟨rfl, rfl, rfl⟩
    · cases h
  | tabs tabs =>
    rw [arrivedNode, nodeRecord] at hrecord
    split at hrecord
    next hactive =>
      obtain rfl := Option.some.inj hrecord
      simp only [replacePayload, NodeRecord.sent, reduceCtorEq, if_true, if_false, Option.bind_eq_bind,
        Option.bind_some] at h
      split at h
      · obtain rfl := Option.some.inj h
        refine ⟨rfl, rfl, congrArg (some ∘ Shape.tabs) ?_⟩
        rw [UInt32.toNat_ofNat_of_lt' hactive, TabsNode.activeChild, ← List.getElem?_map,
          ← List.getElem?_map, map_replaceTab, List.map_map]
        exact getElem?_replace hnodup tabs.active
      · cases h
    · cases hrecord

/-! ## Next to another pane -/

/-- The copy after whatever holds the pane holds another node instead. -/
structure Repointed (sessionId : SessionId) (parentId : Option NodeId) (old new : NodeId)
    (c c' : ClientState) : Prop where
  sessions : c'.sessions = c.sessions
  tidy : Tidy sessionId c'
  shape (nodeId : NodeId) : c'.shapeOf nodeId =
    if parentId = some nodeId then (c.shapeOf nodeId).map (Shape.replaceChild old new)
    else c.shapeOf nodeId
  popup (floatingId : FloatingId) : c'.floating[floatingId]?.map FloatingRecord.popup =
    if parentId = none then (c.floating[floatingId]?.map FloatingRecord.popup).map fun popup ↦
      if popup.root = old then { popup with root := new } else popup
    else c.floating[floatingId]?.map FloatingRecord.popup
  window {floatingId : FloatingId} {window : FloatingRecord} (h : c'.floating[floatingId]? = some window) :
    window.id = floatingId

namespace SessionCopy

/-- What the copy has of a node of the server. -/
theorem recorded (h : SessionCopy s sessionId session c) {nodeId : NodeId} {record : NodeRecord}
    (hrecord : c.nodes[nodeId]? = some record) {node : Node} (hnode : s.nodes[nodeId]? = some node)
    (hne : nodeId ≠ newLeaf) :
    InSession s session nodeId ∧ ∃ leaf, arrivedNode nodeId leaf node = some record := by
  obtain ⟨hin, node', leaf, hnode', hmade⟩ := h.node hrecord hne
  obtain rfl := Option.some.inj (hnode.symm.trans hnode')
  exact ⟨hin, leaf, hmade⟩

theorem window_id (h : SessionCopy s sessionId session c) {floatingId : FloatingId}
    {window : FloatingRecord} (hwindow : c.floating[floatingId]? = some window) : window.id = floatingId := by
  obtain ⟨-, floating, -, rfl⟩ := h.window hwindow
  rfl

theorem replaceChild (h : SessionCopy s sessionId session c) (hvalid : s.validate k = .ok ())
    (hsession : s.sessions[sessionId]? = some session) (hspare : s.nodes[newLeaf]? = none)
    {leafId new : NodeId} {view : BufferViewNode} (hleaf : s.nodes[leafId]? = some (.bufferView view))
    {c' : ClientState} (hreplaced : replaceChild sessionId view.parent leafId new c = some c') :
    Repointed sessionId view.parent leafId new c c' := by
  have hnamed := (sound_of_view hvalid hleaf).named
  rw [show (Node.bufferView view).parent = view.parent from rfl] at hnamed
  cases hparent : view.parent with
  | some parentId =>
    rw [hparent] at hreplaced hnamed
    obtain ⟨record, hrecord, hreplaced⟩ := Option.bind_eq_some_iff.mp hreplaced
    obtain ⟨replaced, hreplace, hreplaced⟩ := Option.bind_eq_some_iff.mp hreplaced
    obtain rfl := Option.some.inj hreplaced
    obtain ⟨parent, hget, hmem⟩ := hnamed
    have hne : parentId ≠ newLeaf := by
      rintro rfl
      rw [hspare] at hget
      cases hget
    obtain ⟨-, leaf, hmade⟩ := h.recorded hrecord hget hne
    have hnodup := (sound_of_validate hvalid hget (List.ne_nil_of_mem hmem)).nodup
    obtain ⟨hid, hhome, hshape⟩ := replacePayload_some hmade hnodup hreplace
    have hold := h.tidy _ _ hrecord
    constructor
    case sessions => rfl
    case tidy => exact h.tidy.insert (hid.trans hold.1) (hhome.trans hold.2)
    case shape =>
      intro id
      rw [shapeOf_insert]
      by_cases hid : id = parentId
      · subst hid
        rw [if_pos rfl, if_pos rfl, hshape, ClientState.shapeOf, hrecord, Option.bind_some,
          (arrivedNode_some hmade).2.2.2]
        rfl
      · rw [if_neg hid, if_neg fun heq ↦ hid (Option.some.inj heq).symm]
    case popup =>
      intro id
      rw [if_neg (Option.some_ne_none _)]
    case window => exact h.window_id
  | none =>
    rw [hparent] at hreplaced
    obtain ⟨record, hrecord, hreplaced⟩ := Option.bind_eq_some_iff.mp hreplaced
    obtain rfl := Option.some.inj (h.cached.symm.trans hrecord)
    have haccepted := accepted_of_validate hvalid hsession
    split at hreplaced
    next hroot =>
      -- the root of a session is tabs
      obtain ⟨root, hget, -, htabs, -⟩ := haccepted.root
      rw [show session.rootNode = leafId from hroot, hleaf] at hget
      obtain rfl := Option.some.inj hget
      cases htabs
    next =>
      obtain ⟨⟨floatingId, window⟩, hfind, hreplaced⟩ := Option.bind_eq_some_iff.mp hreplaced
      obtain rfl := Option.some.inj hreplaced
      have hwindow : c.floating[floatingId]? = some window :=
        Table.mem_toList.mp (List.mem_of_find?_eq_some hfind)
      have hroot := List.find?_some hfind
      rw [decide_eq_true_iff] at hroot
      constructor
      case sessions => rfl
      case tidy => exact h.tidy
      case shape =>
        intro id
        rw [if_neg fun heq ↦ Option.some_ne_none _ heq.symm]
        rfl
      case popup =>
        intro id
        rw [if_pos rfl, Table.get?_insert]
        by_cases hid : floatingId = id
        · subst hid
          rw [if_pos rfl, hwindow, Option.map_some, Option.map_some, Option.map_some]
          exact congrArg some (if_pos hroot).symm
        · rw [if_neg hid]
          cases hother : c.floating[id]? with
          | none => rfl
          | some other =>
            rw [Option.map_some, Option.map_some]
            refine congrArg some (if_neg fun heq ↦ hid ?_).symm
            obtain ⟨hmem, floating, hfloating, rfl⟩ := h.window hwindow
            obtain ⟨hmem', floating', hfloating', rfl⟩ := h.window hother
            exact haccepted.once hmem hmem' hfloating hfloating' (hroot.trans heq.symm)
      case window =>
        intro id found hfound
        rw [Table.get?_insert] at hfound
        split at hfound
        next heq =>
          obtain rfl := Option.some.inj hfound
          exact (h.window_id hwindow).trans heq
        next => exact h.window_id hfound

theorem shapeOf_newLeaf (h : SessionCopy s sessionId session c) : c.shapeOf newLeaf = some .view := by
  rw [ClientState.shapeOf, h.added]
  rfl

theorem newContainer_ne_newLeaf : newContainer ≠ newLeaf := by decide

theorem splitLeaf (h : SessionCopy s sessionId session c) (hvalid : s.validate k = .ok ())
    (hsession : s.sessions[sessionId]? = some session) (hunzoomed : session.zoomedNode = none)
    (hspare : s.nodes[newLeaf]? = none) {leafId : NodeId} {view : BufferViewNode}
    (hleaf : s.nodes[leafId]? = some (.bufferView view)) {direction : SplitDirection} {c' : ClientState}
    (hsplit : splitLeaf sessionId leafId direction c = some c') :
    view.sessionId = sessionId ∧ InSession s session leafId ∧
      Copy sessionId ((c.sceneOf (sessionRecord sessionId session)).splitPane view.parent leafId direction
        newContainer newLeaf) c' (sessionRecord sessionId session) := by
  obtain ⟨record, hrecord, hsplit⟩ := Option.bind_eq_some_iff.mp hsplit
  split at hsplit
  · cases hsplit
  next hkind =>
    have hhome := not_not.mp (not_or.mp hkind).1
    obtain ⟨replaced, hreplaced, hsplit⟩ := Option.bind_eq_some_iff.mp hsplit
    obtain rfl := Option.some.inj hsplit
    have hne : leafId ≠ newLeaf := by
      rintro rfl
      rw [hspare] at hleaf
      cases hleaf
    obtain ⟨hin, focused, hmade⟩ := h.recorded hrecord hleaf hne
    obtain ⟨-, hhome', hparent, -⟩ := arrivedNode_some hmade
    rw [show record.parentId = view.parent from hparent] at hreplaced ⊢
    have hpointed := h.replaceChild hvalid hsession hspare hleaf hreplaced
    refine ⟨hhome'.symm.trans hhome, hin, ?_⟩
    constructor
    case cached => exact (congrArg (·[sessionId]?) hpointed.sessions).trans h.cached
    case id => rfl
    case unzoomed => exact hunzoomed
    case scene =>
      ext1
      case shapes =>
        funext id
        change ClientState.shapeOf (setParent newLeaf newContainer _) id = _
        rw [shapeOf_setParent, shapeOf_setParent, shapeOf_insert, hpointed.shape]
        by_cases hid : id = newLeaf
        · subst hid
          rw [Scene.shapes_splitPane_pane, if_neg newContainer_ne_newLeaf.symm, h.shapeOf_newLeaf]
          exact ite_self _
        · by_cases hid' : id = newContainer
          · subst hid'
            rw [if_pos rfl, Scene.shapes_splitPane_split _ newContainer_ne_newLeaf]
            rfl
          · rw [if_neg hid', Scene.shapes_splitPane_of_ne _ hid hid']
            rfl
      case root => rfl
      case floatingIds => rfl
      case popups => exact funext hpointed.popup
    case node =>
      intro id found hget
      refine Tidy.setParent (Tidy.setParent (hpointed.tidy.insert ?_ ?_) _ _) _ _ _ _ hget
      · rfl
      · rfl
    case window => exact hpointed.window

/-! ## Tabs, popups and panes in place -/

/-- The record of tabs is the record of tabs. -/
theorem arrivedNode_tabs {nodeId : NodeId} {leaf : Option NodeId} {node : Node} {record : NodeRecord}
    (h : arrivedNode nodeId leaf node = some record) (hne : record.tabs ≠ none) :
    record.kind = .tabs ∧ ∃ tabs, node = .tabs tabs := by
  cases node with
  | bufferView =>
    obtain rfl := Option.some.inj h
    exact absurd rfl hne
  | split =>
    obtain rfl := Option.some.inj h
    exact absurd rfl hne
  | tabs tabs =>
    rw [arrivedNode, nodeRecord] at h
    split at h
    · obtain rfl := Option.some.inj h
      exact ⟨rfl, tabs, rfl⟩
    · cases h

theorem addActiveTab (h : SessionCopy s sessionId session c) (hunzoomed : session.zoomedNode = none)
    {tabsId : NodeId} {c' : ClientState} (hadd : addActiveTab tabsId c = some c') :
    ∃ tabs, s.nodes[tabsId]? = some (.tabs tabs) ∧ tabs.sessionId = sessionId ∧
      Copy sessionId ((c.sceneOf (sessionRecord sessionId session)).addTab tabsId newLeaf) c'
        (sessionRecord sessionId session) := by
  obtain ⟨record, hrecord, hadd⟩ := Option.bind_eq_some_iff.mp hadd
  obtain ⟨tabsRecord, htabs, hadd⟩ := Option.bind_eq_some_iff.mp hadd
  split at hadd
  next hlength =>
    obtain rfl := Option.some.inj hadd
    have hne : tabsId ≠ newLeaf := by
      rintro rfl
      obtain rfl := Option.some.inj (h.added.symm.trans hrecord)
      cases htabs
    obtain ⟨-, node, leaf, hnode, hmade⟩ := h.node hrecord hne
    obtain ⟨hkind, tabs, rfl⟩ := arrivedNode_tabs hmade (by rw [htabs]; exact Option.some_ne_none _)
    obtain ⟨hid, hhome⟩ := h.tidy _ _ hrecord
    refine ⟨tabs, hnode, (arrivedNode_some hmade).2.1.symm.trans hhome, ?_⟩
    constructor
    case cached => exact h.cached
    case id => rfl
    case unzoomed => exact hunzoomed
    case scene =>
      ext1
      case shapes =>
        funext id
        change ClientState.shapeOf (setParent newLeaf tabsId _) id = _
        rw [shapeOf_setParent, shapeOf_insert]
        simp only [Scene.addTab]
        by_cases hnew : id = newLeaf
        · subst hnew
          rw [if_neg hne.symm, if_pos rfl, h.shapeOf_newLeaf]
        · rw [if_neg hnew]
          by_cases htabsId : id = tabsId
          · rw [if_pos htabsId, if_pos htabsId, NodeRecord.shape, hkind]
            simp only [Option.map_some]
            rw [UInt32.toNat_ofNat_of_lt' hlength, List.getElem?_concat_length]
            rfl
          · rw [if_neg htabsId, if_neg htabsId]
            rfl
      case root => rfl
      case floatingIds => rfl
      case popups => rfl
    case node =>
      intro id found hget
      refine Tidy.setParent (h.tidy.insert ?_ ?_) _ _ _ _ hget
      · exact hid
      · exact hhome
    case window => exact h.window_id
  · cases hadd

theorem addFloating (h : SessionCopy s sessionId session c) (hunzoomed : session.zoomedNode = none)
    {geometry : FloatGeometry} {border : Bool} {c' : ClientState}
    (hadd : addFloating sessionId geometry border c = some c') :
    Copy sessionId ((c.sceneOf (sessionRecord sessionId session)).addPopup newFloating geometry border newLeaf)
      c' { sessionRecord sessionId session with floatingIds := session.floating ++ [newFloating] } := by
  obtain ⟨record, hrecord, hadd⟩ := Option.bind_eq_some_iff.mp hadd
  obtain rfl := Option.some.inj (h.cached.symm.trans hrecord)
  obtain rfl := Option.some.inj hadd
  constructor
  case cached => exact (Table.get?_insert _ _ _ _).trans (if_pos rfl)
  case id => rfl
  case unzoomed => exact hunzoomed
  case scene =>
    ext1
    case shapes =>
      funext id
      simp only [Scene.addPopup]
      split
      next hnew =>
        subst hnew
        exact h.shapeOf_newLeaf
      · rfl
    case root => rfl
    case floatingIds => rfl
    case popups =>
      funext id
      simp only [Scene.addPopup, ClientState.sceneOf]
      rw [Table.get?_insert]
      by_cases hid : id = newFloating
      · rw [if_pos hid.symm, if_pos hid]
        rfl
      · rw [if_neg (Ne.symm hid), if_neg hid]
  case node => exact fun hget ↦ h.tidy _ _ hget
  case window =>
    intro id found hfound
    rw [Table.get?_insert] at hfound
    split at hfound
    next heq =>
      obtain rfl := Option.some.inj hfound
      exact heq
    next => exact h.window_id hfound

theorem copy (h : SessionCopy s sessionId session c) (hunzoomed : session.zoomedNode = none) :
    Copy sessionId (c.sceneOf (sessionRecord sessionId session)) c (sessionRecord sessionId session) where
  cached := h.cached
  id := rfl
  unzoomed := hunzoomed
  scene := rfl
  node hget := h.tidy _ _ hget
  window := h.window_id

end SessionCopy

end Embers.Client
