import Embers.Persist.RoundTrip
import Embers.Protocol.Scenes
import Embers.State.Shapes
import Embers.State.Validated

/-!
# Scenes of the server's sessions

The scene a session's state gives. `Laid` is what focusing needs of it: what is drawn below a node
has that node as its parent, and the roots have none. Validation checks it, and where it holds,
focusing a pane that the scene draws leaves the scene as it is (`Laid.focusLeaf`).
-/

namespace Embers

def FloatingWindow.popup (floating : FloatingWindow) : Popup :=
  ⟨floating.rootNode, floating.geometry, floating.visible, floating.border⟩

namespace ServerState

variable {s s' : ServerState} {sessionId : SessionId} {session : Session} {nodeId leafId : NodeId}

def sceneOf (s : ServerState) (session : Session) : Scene where
  shapes := s.shapeOf
  root := session.rootNode
  floatingIds := session.floating
  popups floatingId := s.floating[floatingId]?.map FloatingWindow.popup

/-- The links of what the session draws. -/
structure Laid (s : ServerState) (sessionId : SessionId) (session : Session) : Prop where
  child {parentId childId : NodeId} (h : Draws s.shapeOf parentId childId) :
    ∃ node, s.outline childId = some node ∧ node.parent = some parentId
  root {rootId : NodeId} (h : (s.sceneOf session).Root rootId) :
    ∃ node, s.outline rootId = some node ∧ node.parent = none ∧ node.sessionId = sessionId

/-- In `s'` the session is still there, zoomed as before, and has the scene. -/
def Leaves (sessionId : SessionId) (session : Session) (scene : Scene) (s' : ServerState) : Prop :=
  ∃ session', s'.sessions[sessionId]? = some session' ∧ session'.zoomedNode = session.zoomedNode ∧
    s'.sceneOf session' = scene ∧ Laid s' sessionId session'

/-! ## Focus -/

theorem floating_frame (s : ServerState) (floatingId : FloatingId) :
    s.frame.floating[floatingId]? = s.floating[floatingId]?.map FloatingWindow.frame :=
  Std.ExtTreeMap.getElem?_map

/-- States that draw alike have one scene of each session. -/
theorem Alike.scene (h : Alike s s') (hsession : s.sessions[sessionId]? = some session) :
    ∃ session', s'.sessions[sessionId]? = some session' ∧ session'.zoomedNode = session.zoomedNode ∧
      s'.sceneOf session' = s.sceneOf session := by
  have hroots := congrFun h.frame.sessionRoots sessionId
  rw [sessionRoots_of_get hsession] at hroots
  obtain ⟨session', hsession', heq⟩ := Option.map_eq_some_iff.mp hroots.symm
  obtain ⟨hroot, hfloating⟩ := Prod.mk.inj heq
  have hzoom : s.sessions[sessionId]?.map Session.zoomedNode =
      s'.sessions[sessionId]?.map Session.zoomedNode := congrFun h.zoomOf sessionId
  rw [hsession, hsession'] at hzoom
  refine ⟨session', hsession', (Option.some.inj hzoom).symm, ?_⟩
  have hpopups : (fun floatingId ↦ s'.floating[floatingId]?.map FloatingWindow.popup) =
      fun floatingId : FloatingId ↦ s.floating[floatingId]?.map FloatingWindow.popup := by
    funext floatingId
    have hframe : s.floating[floatingId]?.map FloatingWindow.frame =
        s'.floating[floatingId]?.map FloatingWindow.frame := by
      rw [← floating_frame, ← floating_frame, show s.frame = s'.frame from h.frame]
    -- what is drawn of a popup is in its frame
    have hpopup : ∀ o : Option FloatingWindow,
        o.map FloatingWindow.popup = (o.map FloatingWindow.frame).map FloatingWindow.popup := by
      intro o
      cases o <;> rfl
    rw [hpopup, hpopup s.floating[floatingId]?, hframe]
  rw [sceneOf, sceneOf, hroot, hfloating, h.shapeOf, hpopups]

theorem Laid.of_alike (h : Laid s sessionId session) (halike : Alike s s') {session' : Session}
    (hscene : s'.sceneOf session' = s.sceneOf session) : Laid s' sessionId session' where
  child hdraws := halike.outline ▸ h.child (halike.shapeOf ▸ hdraws)
  root hroot := halike.outline ▸ h.root (hscene ▸ hroot)

theorem Laid.onShow (h : Laid s sessionId session) (hdrawn : (s.sceneOf session).Drawn nodeId) :
    OnShow s nodeId := by
  obtain ⟨root, hroot, hreaches⟩ := hdrawn
  obtain ⟨node, hnode, hparent, -⟩ := h.root hroot
  exact onShow_of_reaches hnode hparent h.child hreaches

/-- Focusing a pane that the session draws changes nothing of what it draws. -/
theorem Laid.focusLeaf (h : Laid s sessionId session) (hsession : s.sessions[sessionId]? = some session)
    (hdrawn : (s.sceneOf session).Drawn leafId) {fuel : ℕ}
    (hok : ServerState.focusLeaf fuel sessionId leafId s = (.ok (), s')) :
    Leaves sessionId session (s.sceneOf session) s' := by
  have halike := focusLeaf_alike fuel sessionId (h.onShow hdrawn) hok
  obtain ⟨session', hsession', hzoom, hscene⟩ := halike.scene hsession
  exact ⟨session', hsession', hzoom, hscene, h.of_alike halike hscene⟩

/-! ## What validation finds out about a session -/

/-- What an accepted state has of a session. -/
structure Accepted (s : ServerState) (sessionId : SessionId) (session : Session) : Prop where
  root : ∃ root, s.nodes[session.rootNode]? = some root ∧ root.parent = none ∧ root.isTabs = true ∧
    root.sessionId = sessionId
  popup {floatingId : FloatingId} (h : floatingId ∈ session.floating) : ∃ floating root,
    s.floating[floatingId]? = some floating ∧ floating.sessionId = sessionId ∧
      s.nodes[floating.rootNode]? = some root ∧ root.parent = none ∧ root.sessionId = sessionId
  once {floatingId floatingId' : FloatingId} {floating floating' : FloatingWindow}
    (h : floatingId ∈ session.floating) (h' : floatingId' ∈ session.floating)
    (hget : s.floating[floatingId]? = some floating) (hget' : s.floating[floatingId']? = some floating')
    (heq : floating.rootNode = floating'.rootNode) : floatingId = floatingId'

/-- What the walk through one popup finds out. -/
theorem validateFloating_walked (hhome : (s.sessionRoots sessionId).isSome) {fuel : ℕ}
    {seen seen' : Std.ExtTreeSet NodeId} {floatingId : FloatingId}
    (h : s.validateFloating fuel sessionId session seen floatingId = .ok seen') :
    ∃ floating, s.floating[floatingId]? = some floating ∧ floating.sessionId = sessionId ∧
      s.Walked sessionId floating.rootNode none seen seen' := by
  unfold validateFloating at h
  obtain ⟨floating, hfloating, h⟩ := Answer.ok_bind h
  have hget := floatingWindow_eq_ok.mp hfloating
  split at h
  · cases h
  next hsession =>
    split at h
    · cases h
    · obtain ⟨parent, -, h⟩ := Answer.ok_bind h
      split at h
      · cases h
      · exact ⟨floating, hget, not_not.mp hsession,
          validateSubtree_ok hhome (show s.Named _ none from .inr ⟨floatingId, floating, hget, rfl⟩) h⟩

theorem accepted_of_validate {fuel : ℕ} (h : s.validate fuel = .ok ())
    (hsession : s.sessions[sessionId]? = some session) : Accepted s sessionId session := by
  unfold validate at h
  obtain ⟨_, hsessions, -⟩ := Answer.ok_bind h
  obtain ⟨seen, seen', hstep⟩ := Answer.foldlM_step hsessions (Table.mem_toList.mpr hsession)
  have hroots := sessionRoots_of_get hsession
  have hhome : (s.sessionRoots sessionId).isSome := by rw [hroots, Option.isSome_some]
  have hroot : s.isSessionRoot session.rootNode = true :=
    isSessionRoot_iff_sessionRoots.mpr ⟨sessionId, session.floating, hroots⟩
  unfold validateSession at hstep
  obtain ⟨_, hcheck, hstep⟩ := Answer.ok_bind hstep
  obtain ⟨mid, htree, hstep⟩ := Answer.ok_bind hstep
  obtain ⟨last, hpopups, -⟩ := Answer.ok_bind hstep
  obtain ⟨root, hget, hparent, htabs⟩ := validateRoot_ok hcheck
  obtain ⟨root', hget', -, hhome'⟩ :=
    (validateSubtree_ok hhome (show s.Named _ none from .inl hroot) htree).node
  obtain rfl := Option.some.inj (hget.symm.trans hget')
  have hrootOf : ∀ {floatingId : FloatingId} {floating : FloatingWindow},
      s.floating[floatingId]? = some floating →
      ((s.floating[floatingId]?.map FloatingWindow.rootNode).getD session.rootNode) = floating.rootNode := by
    intro floatingId floating hfloating
    rw [hfloating, Option.map_some, Option.getD_some]
  have hentered : (session.floating.map fun floatingId ↦
      (s.floating[floatingId]?.map FloatingWindow.rootNode).getD session.rootNode).Nodup := by
    refine (entered_foldlM (s := s) (fun floatingId _ before after hturn ↦ ?_) hpopups).1
    obtain ⟨floating, hfloating, -, hwalked⟩ := validateFloating_walked hhome hturn
    rw [hrootOf hfloating]
    exact ⟨hwalked.visited, hwalked.fresh, hwalked.mem⟩
  constructor
  case root => exact ⟨root, hget, hparent, htabs, hhome'⟩
  case popup =>
    intro floatingId hmem
    obtain ⟨before, after, hturn⟩ := Answer.foldlM_step hpopups hmem
    obtain ⟨floating, hfloating, howner, hwalked⟩ := validateFloating_walked hhome hturn
    obtain ⟨node, hnode, hparent, hsession⟩ := hwalked.node
    exact ⟨floating, node, hfloating, howner, hnode, hparent, hsession⟩
  case once =>
    intro floatingId floatingId' floating floating' hmem hmem' hfloating hfloating' heq
    refine List.inj_on_of_nodup_map hentered hmem hmem' ?_
    rw [hrootOf hfloating, hrootOf hfloating', heq]

/-- What is drawn below a node of an accepted state is a child of the node. -/
theorem child_of_validate {fuel : ℕ} (h : s.validate fuel = .ok ()) {parentId childId : NodeId}
    (hdraws : Draws s.shapeOf parentId childId) :
    ∃ node, s.nodes[childId]? = some node ∧ node.parent = some parentId := by
  obtain ⟨parent, hparent, hmem⟩ := lists_of_draws hdraws
  obtain ⟨node, hnode, hparent, -⟩ :=
    (sound_of_validate h hparent (List.ne_nil_of_mem hmem)).child hmem
  exact ⟨node, hnode, hparent⟩

/-- Every view of an accepted state was walked through. -/
theorem sound_of_view {fuel : ℕ} (h : s.validate fuel = .ok ()) {view : BufferViewNode}
    (hview : s.nodes[nodeId]? = some (.bufferView view)) : s.Sound nodeId (.bufferView view) := by
  unfold validate at h
  obtain ⟨seen, hsessions, h⟩ := Answer.ok_bind h
  obtain ⟨_, horphans, -⟩ := Answer.ok_bind h
  have hseen : nodeId ∈ seen := by
    by_contra hunseen
    simp only [validateNoOrphans] at horphans
    split at horphans
    · cases horphans
    next hfind =>
      have hmem : nodeId ∈ s.nodes.keys.filter fun nodeId ↦ !seen.contains nodeId := by
        refine List.mem_filter.mpr ⟨Table.mem_keys.mpr ⟨_, hview⟩, ?_⟩
        rw [Bool.not_eq_true', ← Bool.not_eq_true, Std.ExtTreeSet.contains_iff_mem]
        exact hunseen
      have hdetached := List.find?_eq_none.mp hfind nodeId hmem
      rw [Bool.not_eq_true, Bool.not_eq_false', isDetachedEmptyTabsNode, hview] at hdetached
      cases hdetached
  rcases (visited_foldlM (fun _ hentry _ _ ↦ validateSession_ok hentry) hsessions).2 nodeId hseen with
    hempty | ⟨node', hnode', hsound⟩
  · exact absurd hempty Std.ExtTreeSet.not_mem_empty
  · obtain rfl := Option.some.inj (hview.symm.trans hnode')
    exact hsound

/-- No two popups have one root. -/
theorem popup_once {fuel : ℕ} (h : s.validate fuel = .ok ()) (hlisted : s.FloatingListed)
    {floatingId floatingId' : FloatingId} {floating floating' : FloatingWindow}
    (hget : s.floating[floatingId]? = some floating) (hget' : s.floating[floatingId']? = some floating')
    (heq : floating.rootNode = floating'.rootNode) : floatingId = floatingId' := by
  obtain ⟨session, hsession, hmem⟩ := hlisted floatingId floating hget
  obtain ⟨session', hsession', hmem'⟩ := hlisted floatingId' floating' hget'
  have haccepted := accepted_of_validate h hsession
  have haccepted' := accepted_of_validate h hsession'
  obtain ⟨_, root, hfloating, -, hroot, -, hhome⟩ := haccepted.popup hmem
  obtain ⟨_, root', hfloating', -, hroot', -, hhome'⟩ := haccepted'.popup hmem'
  obtain rfl := Option.some.inj (hget.symm.trans hfloating)
  obtain rfl := Option.some.inj (hget'.symm.trans hfloating')
  -- the root is in one session, which lists both
  rw [heq] at hroot
  obtain rfl := Option.some.inj (hroot.symm.trans hroot')
  rw [← hhome', hhome] at hsession'
  obtain rfl := Option.some.inj (hsession.symm.trans hsession')
  exact haccepted.once hmem hmem' hget hget' heq

theorem Accepted.root_parent (h : Accepted s sessionId session) {rootId : NodeId}
    (hroot : (s.sceneOf session).Root rootId) :
    ∃ node, s.nodes[rootId]? = some node ∧ node.parent = none ∧ node.sessionId = sessionId := by
  rcases hroot with rfl | ⟨floatingId, hmem, popup, hpopup, rfl⟩
  · obtain ⟨root, hget, hparent, -, hhome⟩ := h.root
    exact ⟨root, hget, hparent, hhome⟩
  · obtain ⟨floating, root, hfloating, -, hget, hparent, hhome⟩ := h.popup hmem
    obtain ⟨floating', hfloating', rfl⟩ := Option.map_eq_some_iff.mp hpopup
    obtain rfl := Option.some.inj (hfloating.symm.trans hfloating')
    exact ⟨root, hget, hparent, hhome⟩

end ServerState

end Embers
