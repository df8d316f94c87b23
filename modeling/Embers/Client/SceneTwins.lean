import Embers.Client.Twins
import Embers.Server.SessionSnapshots
import Embers.State.Scenes

/-!
# Scenes of clients

The scene a client's records give. A client that caches a session of the server has the session's
scene, and two clients whose scenes are the same under other ids draw the same panes
(`twinScreens_of_renames`).
-/

namespace Embers

namespace Protocol

def FloatingRecord.popup (window : FloatingRecord) : Popup :=
  ⟨window.rootNodeId, window.geometry, window.visible, window.border⟩

end Protocol

namespace Client

open Protocol Server

def ClientState.sceneOf (c : ClientState) (session : SessionRecord) : Scene where
  shapes := c.shapeOf
  root := session.rootNodeId
  floatingIds := session.floatingIds
  popups floatingId := c.floating[floatingId]?.map FloatingRecord.popup

/-! ## Records of the server -/

/-- What a client has of a node. -/
theorem arrivedNode_some {nodeId : NodeId} {leaf : Option NodeId} {node : Node} {record : NodeRecord}
    (h : arrivedNode nodeId leaf node = some record) : record.id = nodeId ∧
      record.sessionId = node.sessionId ∧ record.parentId = node.parent ∧
      record.shape = some node.shape := by
  cases node with
  | bufferView view =>
    obtain rfl := Option.some.inj h
    exact ⟨rfl, rfl, rfl, rfl⟩
  | split split =>
    obtain rfl := Option.some.inj h
    exact ⟨rfl, rfl, rfl, rfl⟩
  | tabs tabs =>
    rw [arrivedNode, nodeRecord] at h
    split at h
    next hactive =>
      obtain rfl := Option.some.inj h
      refine ⟨rfl, rfl, rfl, ?_⟩
      simp only [NodeRecord.shape, NodeRecord.sent, if_true, Option.map_some, Node.shape, TabsNode.activeChild]
      rw [UInt32.toNat_ofNat_of_lt' hactive, List.getElem?_map, Option.map_map]
      rfl
    · cases h

variable {s : ServerState} {sessionId : SessionId} {session : Session} {c : ClientState}

theorem inSession_child {nodeId childId : NodeId} (h : InSession s session nodeId)
    (hlists : s.Lists nodeId childId) : InSession s session childId := by
  obtain ⟨root, hroot, hbelow⟩ := h
  exact ⟨root, hroot, hbelow.tail hlists⟩

/-- What a session draws is in the session. -/
theorem inSession_of_drawn {nodeId : NodeId} (h : (s.sceneOf session).Drawn nodeId) :
    InSession s session nodeId := by
  refine h.mem_of_closed ?_ fun parent (hparent : InSession s session parent) shape hshape child hmem ↦
    inSession_child hparent (ServerState.lists_of_draws ⟨shape, hshape, hmem⟩)
  rintro root (rfl | ⟨floatingId, hmem, popup, hpopup, rfl⟩)
  · exact ⟨_, .inl rfl, .refl⟩
  · obtain ⟨floating, hfloating, rfl⟩ := Option.map_eq_some_iff.mp hpopup
    exact ⟨_, .inr ⟨floatingId, hmem, floating, hfloating, rfl⟩, .refl⟩

/-- A client that caches a session has its scene. -/
theorem agrees_of_caches (h : Caches s sessionId session c) :
    Scene.Agrees (InSession s session) (s.sceneOf session)
      (c.sceneOf (sessionRecord sessionId session)) where
  root := rfl
  rootWithin := ⟨_, .inl rfl, .refl⟩
  floatingIds := rfl
  popup {floatingId} hmem := by
    obtain ⟨floating, hfloating, hrecord⟩ := h.floating hmem
    refine ⟨floating.popup, congrArg (Option.map FloatingWindow.popup) hfloating,
      congrArg (Option.map FloatingRecord.popup) hrecord, _, .inr ⟨floatingId, hmem, floating, hfloating, rfl⟩,
      .refl⟩
  shape {nodeId} hnode := by
    obtain ⟨node, leaf, record, hget, hrecord, hcached⟩ := h.node hnode
    obtain ⟨-, -, -, hshape⟩ := arrivedNode_some hrecord
    have hserver : s.shapeOf nodeId = some node.shape := congrArg (Option.map Node.shape) hget
    have hclient : c.shapeOf nodeId = some node.shape := by
      rw [ClientState.shapeOf, hcached, Option.bind_some, hshape]
    exact ⟨node.shape, hserver, hclient, fun child hmem ↦
      inSession_child hnode (ServerState.lists_of_draws ⟨_, hserver, hmem⟩)⟩

theorem drawable_of_caches (h : Caches s sessionId session c) {nodeId : NodeId}
    (hnode : InSession s session nodeId) : ∃ record, Drawable c record nodeId := by
  obtain ⟨node, leaf, record, hget, hrecord, hcached⟩ := h.node hnode
  refine ⟨record, hcached, (arrivedNode_some hrecord).1, fun view hkind hview ↦ ?_⟩
  cases node with
  | bufferView shown =>
    obtain rfl := Option.some.inj hrecord
    obtain rfl := Option.some.inj hview
    exact Option.isSome_iff_exists.mp (h.buffer hnode hget)
  | split =>
    obtain rfl := Option.some.inj hrecord
    cases hview
  | tabs =>
    rw [arrivedNode, nodeRecord] at hrecord
    split at hrecord
    · obtain rfl := Option.some.inj hrecord
      cases hview
    · cases hrecord

/-! ## Copies -/

/-- Records that give the scene of an unzoomed session, all under their own ids and all of the
session. -/
structure Copy (sessionId : SessionId) (scene : Scene) (c : ClientState) (session : SessionRecord) :
    Prop where
  cached : c.sessions[sessionId]? = some session
  id : session.id = sessionId
  unzoomed : session.zoomedNodeId = none
  scene : c.sceneOf session = scene
  node {nodeId : NodeId} {record : NodeRecord} (h : c.nodes[nodeId]? = some record) :
    record.id = nodeId ∧ record.sessionId = sessionId
  window {floatingId : FloatingId} {window : FloatingRecord} (h : c.floating[floatingId]? = some window) :
    window.id = floatingId

/-- What a copy draws is complete. -/
theorem Copy.closed {ids : NodeId → NodeId} {windows : FloatingId → FloatingId} {within : NodeId → Prop}
    {scene scene' : Scene} {copied : ClientState} {record : SessionRecord}
    (h : Copy sessionId scene copied record)
    (hrenames : Scene.Renames ids windows within scene scene') : DrawClosed copied scene.Drawn := by
  obtain rfl := h.scene
  intro nodeId hdrawn
  obtain ⟨shape, hshape, -⟩ := hrenames.shape (hrenames.within_of_drawn hdrawn)
  obtain ⟨node, hnode, hnodeShape⟩ := Option.bind_eq_some_iff.mp hshape
  exact ⟨node, shape, hnode, (h.node hnode).1, hnodeShape, fun child hmem ↦ hdrawn.child hshape hmem⟩

/-- A copy whose scene is the server's under other ids, and a client that caches it. -/
theorem twinScreens_of_renames {ids : NodeId → NodeId} {windows : FloatingId → FloatingId}
    {within : NodeId → Prop} {scene : Scene} {copied : ClientState} {record : SessionRecord}
    (hcopy : Copy sessionId scene copied record)
    (h : Scene.Renames ids windows within scene (s.sceneOf session))
    (hcaches : Caches s sessionId session c) (hlaid : s.Laid sessionId session)
    (hunzoomed : session.zoomedNode = none) :
    TwinScreens ids windows copied c record (sessionRecord sessionId session) scene.Drawn := by
  have hagrees := agrees_of_caches hcaches
  have hclosed := hcopy.closed h
  obtain rfl := hcopy.scene
  -- what the copy draws is under its new id in the session
  have hin {nodeId : NodeId} (hdrawn : (copied.sceneOf record).Drawn nodeId) :
      InSession s session (ids nodeId) := inSession_of_drawn (h.drawn hdrawn)
  have hroot {rootId : NodeId} (hroot : (copied.sceneOf record).Root rootId) :
      (copied.sceneOf record).Drawn rootId := ⟨rootId, hroot, .refl⟩
  constructor
  case twins =>
    refine ⟨hclosed, fun {nodeId} hdrawn {shape} hshape ↦ ?_,
      fun {nodeId} hdrawn ↦ drawable_of_caches hcaches (hin hdrawn)⟩
    obtain ⟨shape', hshape', hrenamed, -⟩ := h.shape (h.within_of_drawn hdrawn)
    obtain rfl := Option.some.inj (hshape.symm.trans hshape')
    obtain ⟨shape'', hserver, hclient, -⟩ := hagrees.shape (hin hdrawn)
    obtain rfl := Option.some.inj (hserver.symm.trans hrenamed)
    exact hclient
  case rootDrawn => exact hroot (.inl rfl)
  case root => exact h.root
  case unzoomed => exact hcopy.unzoomed
  case unzoomed' => exact hunzoomed
  case listed => exact h.floatingIds
  case window =>
    intro floatingId hmem
    obtain ⟨popup, hpopup, hrenamed, hwithin⟩ := h.popup hmem
    obtain ⟨window, hwindow, rfl⟩ := Option.map_eq_some_iff.mp hpopup
    have hmem' : windows floatingId ∈ session.floating := by
      have hlisted : session.floating = _ := h.floatingIds
      rw [hlisted]
      exact List.mem_map_of_mem hmem
    obtain ⟨floating, hfloating, hrecord⟩ := hcaches.floating hmem'
    have hsame : floating.popup = { window.popup with root := ids window.popup.root } := by
      have hserver : s.floating[windows floatingId]?.map FloatingWindow.popup = _ := hrenamed
      rw [hfloating] at hserver
      exact Option.some.inj hserver
    have hdrawn : (copied.sceneOf record).Root window.rootNodeId :=
      .inr ⟨floatingId, hmem, window.popup, hpopup, rfl⟩
    have hdrawn' : (s.sceneOf session).Root floating.rootNode :=
      .inr ⟨windows floatingId, hmem', floating.popup,
        congrArg (Option.map FloatingWindow.popup) hfloating, rfl⟩
    refine ⟨window, floatingRecord (windows floatingId) floating, hcopy.window hwindow, rfl, ?_⟩
    constructor
    case cached => rw [hcopy.window hwindow, hwindow]
    case cached' => exact hrecord
    case rootDrawn => exact hroot hdrawn
    case root => exact congrArg Popup.root hsame
    case geometry => exact congrArg Popup.geometry hsame
    case visible => exact congrArg Popup.visible hsame
    case border => exact congrArg Popup.border hsame
    case own =>
      obtain ⟨shape, hshape, -⟩ := h.shape hwithin
      obtain ⟨node, hnode, -⟩ := Option.bind_eq_some_iff.mp hshape
      exact ⟨node, hnode, (hcopy.node hnode).2.trans hcopy.id.symm⟩
    case own' =>
      obtain ⟨outline, houtline, -, hhome⟩ := hlaid.root hdrawn'
      obtain ⟨node, leaf, record, hget, hnode, hcached⟩ :=
        hcaches.node (inSession_of_drawn ⟨_, hdrawn', .refl⟩)
      obtain rfl := Option.some.inj ((ServerState.outline_of_get hget).symm.trans houtline)
      exact ⟨record, hcached, (arrivedNode_some hnode).2.1.trans hhome⟩

end Client

end Embers
