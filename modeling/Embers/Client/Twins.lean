import Embers.Client.Screens
import Embers.Protocol.Shapes

/-!
# Layouts that are drawn alike

Where a pane is drawn depends on the shapes of the nodes above it and on nothing else of them. So two
clients draw their panes in the same places when the nodes they reach have the same shapes, also
under other ids, as long as the second has what drawing needs: records under their own ids, and a
buffer for each view.

`Twins` says this of two clients over a set of nodes that is closed under what is drawn below them;
the induction of `Twins.projectNode` is on the fuel, with one case for each kind of node.
-/

namespace Embers.Client

open Protocol

def ClientState.shapeOf (c : ClientState) (nodeId : NodeId) : Option Shape :=
  c.nodes[nodeId]?.bind NodeRecord.shape

/-- The node's pane, where its content is drawn. -/
def LeafFrame.spot (leaf : LeafFrame) : NodeId × Rect := (leaf.nodeId, leaf.contentRect)

def Projection.spots (p : Projection) : List (NodeId × Rect) := p.leaves.map LeafFrame.spot

@[simp] theorem spots_append (p q : Projection) : (p ++ q).spots = p.spots ++ q.spots :=
  List.map_append

/-- The record is filed under its own id, and the buffer of a view is cached. -/
structure Drawable (c : ClientState) (record : NodeRecord) (nodeId : NodeId) : Prop where
  cached : c.nodes[nodeId]? = some record
  id : record.id = nodeId
  buffer (view : BufferViewRecord) (hkind : record.kind = .bufferView)
    (h : record.bufferView = some view) : ∃ buffer, c.buffers[view.bufferId]? = some buffer

/-- A set of nodes with all that is drawn below them. -/
def DrawClosed (c : ClientState) (drawn : NodeId → Prop) : Prop :=
  ∀ nodeId, drawn nodeId → ∃ record shape, c.nodes[nodeId]? = some record ∧ record.id = nodeId ∧
    record.shape = some shape ∧ ∀ child ∈ shape.drawn, drawn child

/-- What the first client draws in the set, the second draws too, under other ids. -/
structure Twins (ids : NodeId → NodeId) (c c' : ClientState) (drawn : NodeId → Prop) : Prop where
  closed : DrawClosed c drawn
  shape {nodeId : NodeId} (h : drawn nodeId) {shape : Shape} (hshape : c.shapeOf nodeId = some shape) :
    c'.shapeOf (ids nodeId) = some (shape.rename ids)
  drawable {nodeId : NodeId} (h : drawn nodeId) : ∃ record, Drawable c' record (ids nodeId)

variable {ids : NodeId → NodeId} {c c' : ClientState} {drawn : NodeId → Prop} {layout : LayoutOptions}
  {focused focused' : Option NodeId}

/-! ## Children -/

/-- The children of two splits, side by side. -/
theorem projectChildren_twin {project project' : NodeId → Rect → Answer ProjectError Projection}
    {direction : SplitDirection} {splitNodeId splitNodeId' : NodeId} {count : ℕ} :
    ∀ {placed : List (NodeId × Rect)} {index : ℕ} {p : Projection},
      (∀ childId rect p, (childId, rect) ∈ placed → project childId rect = .ok p →
        ∃ p', project' (ids childId) rect = .ok p' ∧ p'.spots = p.spots.map (Prod.map ids id)) →
      projectChildren project direction splitNodeId count index placed = .ok p →
      ∃ p', projectChildren project' direction splitNodeId' count index (placed.map (Prod.map ids id))
        = .ok p' ∧ p'.spots = p.spots.map (Prod.map ids id)
  | [], _, p, _, h => by
    cases h
    exact ⟨.empty, rfl, rfl⟩
  | (childId, rect) :: rest, index, p, hproject, h => by
    obtain ⟨child, hchild, h⟩ := Answer.ok_bind h
    obtain ⟨divider, hdivider, h⟩ := Answer.ok_bind h
    obtain ⟨others, hothers, h⟩ := Answer.ok_bind h
    cases h
    obtain ⟨child', hchild', hspots⟩ := hproject childId rect child List.mem_cons_self hchild
    obtain ⟨others', hothers', hspots'⟩ := projectChildren_twin
      (fun childId rect p hmem ↦ hproject childId rect p (List.mem_cons_of_mem _ hmem)) hothers
    refine ⟨child' ++ ⟨[], [], divider.toList.map fun rect ↦ ⟨direction, rect, splitNodeId', index⟩, []⟩
      ++ others', ?_, ?_⟩
    · rw [List.map_cons, Prod.map_apply, projectChildren, id_eq, hchild', Answer.bind_ok, hdivider,
        Answer.bind_ok, hothers']
      rfl
    · simp only [spots_append, hspots, hspots', List.map_append]
      rfl

theorem mem_spots_projectChildren {project : NodeId → Rect → Answer ProjectError Projection}
    {direction : SplitDirection} {splitNodeId : NodeId} {count : ℕ} {spot : NodeId × Rect} :
    ∀ {placed : List (NodeId × Rect)} {index : ℕ} {p : Projection},
      projectChildren project direction splitNodeId count index placed = .ok p → spot ∈ p.spots →
      ∃ childId rect p, (childId, rect) ∈ placed ∧ project childId rect = .ok p ∧ spot ∈ p.spots
  | [], _, _, h, hmem => by
    cases h
    cases hmem
  | (childId, rect) :: rest, index, _, h, hmem => by
    obtain ⟨child, hchild, h⟩ := Answer.ok_bind h
    obtain ⟨divider, -, h⟩ := Answer.ok_bind h
    obtain ⟨others, hothers, h⟩ := Answer.ok_bind h
    cases h
    rw [spots_append, spots_append, List.mem_append, List.mem_append] at hmem
    rcases hmem with (hmem | hmem) | hmem
    · exact ⟨childId, rect, child, List.mem_cons_self, hchild, hmem⟩
    · cases hmem
    · obtain ⟨childId', rect', p, hplaced, hp, hspot⟩ := mem_spots_projectChildren hothers hmem
      exact ⟨childId', rect', p, List.mem_cons_of_mem _ hplaced, hp, hspot⟩

/-! ## Nodes -/

/-- What two records of one shape are, each with the payload of its kind. -/
theorem shape_eq_view {record : NodeRecord} (h : record.shape = some .view) :
    record.kind = .bufferView ∧ record.bufferView.isSome := by
  rw [NodeRecord.shape] at h
  cases hkind : record.kind with
  | bufferView =>
    rw [hkind] at h
    obtain ⟨view, hview, -⟩ := Option.map_eq_some_iff.mp h
    exact ⟨rfl, by rw [hview]; rfl⟩
  | split => simp [hkind] at h
  | tabs => simp [hkind] at h

theorem shape_eq_split {record : NodeRecord} {direction : SplitDirection} {childIds : List NodeId}
    {sizes : List UInt16} (h : record.shape = some (.split direction childIds sizes)) :
    record.kind = .split ∧ record.split = some ⟨direction, childIds, sizes⟩ := by
  rw [NodeRecord.shape] at h
  cases hkind : record.kind with
  | bufferView => simp [hkind] at h
  | split =>
    rw [hkind] at h
    obtain ⟨split, hsplit, heq⟩ := Option.map_eq_some_iff.mp h
    cases heq
    exact ⟨rfl, hsplit⟩
  | tabs => simp [hkind] at h

theorem shape_eq_tabs {record : NodeRecord} {active : Option NodeId}
    (h : record.shape = some (.tabs active)) : record.kind = .tabs ∧
      ∃ tabs, record.tabs = some tabs ∧ tabs.tabs[tabs.active.toNat]?.map (·.childId) = active := by
  rw [NodeRecord.shape] at h
  cases hkind : record.kind with
  | bufferView => simp [hkind] at h
  | split => simp [hkind] at h
  | tabs =>
    rw [hkind] at h
    obtain ⟨tabs, htabs, heq⟩ := Option.map_eq_some_iff.mp h
    cases heq
    exact ⟨rfl, tabs, htabs, rfl⟩

/-- A layout that the first client draws, the second draws with its panes in the same places. -/
theorem Twins.projectNode (h : Twins ids c c' drawn) : ∀ (fuel : ℕ) {nodeId : NodeId} {rect : Rect}
    {isRoot : Bool} {p : Projection}, drawn nodeId →
      Client.projectNode c focused layout fuel nodeId rect isRoot = .ok p →
      ∃ p', Client.projectNode c' focused' layout fuel (ids nodeId) rect isRoot = .ok p' ∧
        p'.spots = p.spots.map (Prod.map ids id)
  | 0, _, _, _, _, _, hproject => by cases hproject
  | fuel + 1, nodeId, rect, isRoot, p, hdrawn, hproject => by
    obtain ⟨record, shape, hrecord, hid, hshape, hclosed⟩ := h.closed nodeId hdrawn
    obtain ⟨record', hcached', hid', hbuffer'⟩ := h.drawable hdrawn
    have hshape' := h.shape hdrawn (by rw [ClientState.shapeOf, hrecord, Option.bind_some, hshape])
    rw [ClientState.shapeOf, hcached', Option.bind_some] at hshape'
    rw [Client.projectNode] at hproject ⊢
    split at hproject
    · next hempty =>
      cases hproject
      rw [if_pos hempty]
      exact ⟨.empty, rfl, rfl⟩
    · next hroom =>
      rw [if_neg hroom, hcached', Answer.ofOption_some, Answer.bind_ok]
      rw [hrecord, Answer.ofOption_some, Answer.bind_ok] at hproject
      cases shape with
      | view =>
        obtain ⟨hkind, hview⟩ := shape_eq_view hshape
        obtain ⟨hkind', hview'⟩ := shape_eq_view hshape'
        obtain ⟨view', hview'⟩ := Option.isSome_iff_exists.mp hview'
        obtain ⟨buffer', hbuffer'⟩ := hbuffer' view' hkind' hview'
        rw [hkind] at hproject
        obtain ⟨view, -, hproject⟩ := Answer.ok_bind hproject
        obtain ⟨buffer, -, hproject⟩ := Answer.ok_bind hproject
        obtain ⟨⟨titleRect, contentRect⟩, hrows, hproject⟩ := Answer.ok_bind hproject
        cases hproject
        rw [hkind', hview', hrows]
        dsimp only
        rw [Answer.ofOption_some, Answer.bind_ok, hbuffer', Answer.ofOption_some, Answer.bind_ok,
          Answer.bind_ok]
        refine ⟨_, rfl, ?_⟩
        simp only [Projection.spots, List.map_cons, List.map_nil, LeafFrame.spot, hid, hid',
          Prod.map_apply, id_eq]
      | split direction childIds sizes =>
        obtain ⟨hkind, hsplit⟩ := shape_eq_split hshape
        obtain ⟨hkind', hsplit'⟩ := shape_eq_split hshape'
        rw [hkind, hsplit] at hproject
        rw [hkind', hsplit']
        dsimp only at hproject ⊢
        rw [Answer.ofOption_some, Answer.bind_ok] at hproject ⊢
        split at hproject
        · next hnone =>
          cases hproject
          rw [if_pos (List.map_eq_nil_iff.mpr hnone)]
          exact ⟨.empty, rfl, rfl⟩
        · next hsome =>
          obtain ⟨rects, hrects, hproject⟩ := Answer.ok_bind hproject
          obtain ⟨children, hchildren, hproject⟩ := Answer.ok_bind hproject
          cases hproject
          have hkids : ∀ childId rect p, (childId, rect) ∈ childIds.zip rects →
              Client.projectNode c focused layout fuel childId rect false = .ok p →
              ∃ p', Client.projectNode c' focused' layout fuel (ids childId) rect false = .ok p' ∧
                p'.spots = p.spots.map (Prod.map ids id) := fun childId rect p hmem hp ↦
            h.projectNode fuel (hclosed childId (List.of_mem_zip hmem).1) hp
          obtain ⟨children', hchildren', hspots⟩ := @projectChildren_twin _ _
            (fun childId rect ↦ Client.projectNode c' focused' layout fuel childId rect false)
            _ _ record'.id _ _ _ _ hkids hchildren
          rw [if_neg (mt List.map_eq_nil_iff.mp hsome), List.length_map, hrects, Answer.bind_ok]
          rw [← List.zip_map_left] at hchildren'
          rw [hchildren', Answer.bind_ok]
          exact ⟨_, rfl, hspots⟩
      | tabs active =>
        obtain ⟨hkind, tabs, htabs, hactive⟩ := shape_eq_tabs hshape
        obtain ⟨hkind', tabs', htabs', hactive'⟩ := shape_eq_tabs hshape'
        rw [hkind, htabs] at hproject
        rw [hkind', htabs']
        dsimp only at hproject ⊢
        rw [Answer.ofOption_some, Answer.bind_ok] at hproject ⊢
        obtain ⟨tab, htab, hproject⟩ := Answer.ok_bind hproject
        obtain ⟨⟨barRect, contentRect⟩, hbar, hproject⟩ := Answer.ok_bind hproject
        obtain ⟨content, hcontent, hproject⟩ := Answer.ok_bind hproject
        cases hproject
        rw [Answer.ofOption_eq_ok.mp htab, Option.map_some] at hactive
        subst hactive
        obtain ⟨tab', htab', hchild⟩ := Option.map_eq_some_iff.mp hactive'
        obtain ⟨content', hcontent', hspots⟩ := h.projectNode fuel
          (hclosed tab.childId List.mem_cons_self) hcontent
        rw [htab', Answer.ofOption_some, Answer.bind_ok, hbar, Answer.bind_ok]
        dsimp only
        rw [hchild, hcontent', Answer.bind_ok]
        exact ⟨_, rfl, hspots⟩

/-- The panes that are drawn are in the set. -/
theorem DrawClosed.drawn_of_spot (h : DrawClosed c drawn) {spot : NodeId × Rect} : ∀ (fuel : ℕ)
    {nodeId : NodeId} {rect : Rect} {isRoot : Bool} {p : Projection}, drawn nodeId →
      Client.projectNode c focused layout fuel nodeId rect isRoot = .ok p → spot ∈ p.spots → drawn spot.1
  | 0, _, _, _, _, _, hproject, _ => by cases hproject
  | fuel + 1, nodeId, rect, isRoot, p, hdrawn, hproject, hmem => by
    obtain ⟨record, shape, hrecord, hid, hshape, hclosed⟩ := h nodeId hdrawn
    rw [Client.projectNode] at hproject
    split at hproject
    · cases hproject
      cases hmem
    · rw [hrecord, Answer.ofOption_some, Answer.bind_ok] at hproject
      cases shape with
      | view =>
        rw [(shape_eq_view hshape).1] at hproject
        obtain ⟨view, -, hproject⟩ := Answer.ok_bind hproject
        obtain ⟨buffer, -, hproject⟩ := Answer.ok_bind hproject
        obtain ⟨rows, -, hproject⟩ := Answer.ok_bind hproject
        cases hproject
        obtain rfl := List.mem_singleton.mp hmem
        exact hid.symm ▸ hdrawn
      | split direction childIds sizes =>
        obtain ⟨hkind, hsplit⟩ := shape_eq_split hshape
        rw [hkind, hsplit] at hproject
        dsimp only at hproject
        rw [Answer.ofOption_some, Answer.bind_ok] at hproject
        split at hproject
        · cases hproject
          cases hmem
        · obtain ⟨rects, -, hproject⟩ := Answer.ok_bind hproject
          obtain ⟨children, hchildren, hproject⟩ := Answer.ok_bind hproject
          cases hproject
          obtain ⟨childId, rect', child, hplaced, hchild, hspot⟩ :=
            mem_spots_projectChildren hchildren hmem
          exact h.drawn_of_spot fuel (hclosed childId (List.of_mem_zip hplaced).1) hchild hspot
      | tabs active =>
        obtain ⟨hkind, tabs, htabs, hactive⟩ := shape_eq_tabs hshape
        rw [hkind, htabs] at hproject
        dsimp only at hproject
        rw [Answer.ofOption_some, Answer.bind_ok] at hproject
        obtain ⟨tab, htab, hproject⟩ := Answer.ok_bind hproject
        obtain ⟨bar, -, hproject⟩ := Answer.ok_bind hproject
        obtain ⟨content, hcontent, hproject⟩ := Answer.ok_bind hproject
        cases hproject
        rw [Answer.ofOption_eq_ok.mp htab, Option.map_some] at hactive
        subst hactive
        exact h.drawn_of_spot fuel (hclosed tab.childId List.mem_cons_self) hcontent hmem

/-! ## Screens -/

def PresentationModel.spots (m : PresentationModel) : List (NodeId × Rect) :=
  m.layers.flatMap (·.frames.spots)

/-- A popup of the first client's session, and the one the second has for it. -/
structure TwinWindow (ids : NodeId → NodeId) (c c' : ClientState) (session session' : SessionRecord)
    (drawn : NodeId → Prop) (window window' : FloatingRecord) : Prop where
  cached : c.floating[window.id]? = some window
  cached' : c'.floating[window'.id]? = some window'
  rootDrawn : drawn window.rootNodeId
  root : window'.rootNodeId = ids window.rootNodeId
  geometry : window'.geometry = window.geometry
  visible : window'.visible = window.visible
  border : window'.border = window.border
  own : ∃ node, c.nodes[window.rootNodeId]? = some node ∧ node.sessionId = session.id
  own' : ∃ node, c'.nodes[window'.rootNodeId]? = some node ∧ node.sessionId = session'.id

/-- Two clients whose screens of a session, in which no node is zoomed, show the same panes. -/
structure TwinScreens (ids : NodeId → NodeId) (windows : FloatingId → FloatingId) (c c' : ClientState)
    (session session' : SessionRecord) (drawn : NodeId → Prop) : Prop where
  twins : Twins ids c c' drawn
  rootDrawn : drawn session.rootNodeId
  root : session'.rootNodeId = ids session.rootNodeId
  unzoomed : session.zoomedNodeId = none
  unzoomed' : session'.zoomedNodeId = none
  listed : session'.floatingIds = session.floatingIds.map windows
  window {floatingId : FloatingId} (h : floatingId ∈ session.floatingIds) : ∃ window window',
    window.id = floatingId ∧ window'.id = windows floatingId ∧
      TwinWindow ids c c' session session' drawn window window'

theorem paneTitlesIn_twin {window window' : FloatingRecord}
    (hcached : c.floating[window.id]? = some window) (hcached' : c'.floating[window'.id]? = some window')
    (hborder : window'.border = window.border) :
    paneTitlesIn c' layout (some window'.id) = paneTitlesIn c layout (some window.id) := by
  simp only [paneTitlesIn, Option.bind_some, hcached, hcached', Option.any_some, hborder]

variable {session session' : SessionRecord} {windows : FloatingId → FloatingId} {fuel : ℕ} {bounds : Rect}

/-- A popup that is in its session's list belongs to the session by its root. -/
theorem nodeBelongsToSession_root {window : FloatingRecord} (hlisted : window.id ∈ session.floatingIds)
    (hcached : c.floating[window.id]? = some window)
    (hown : ∃ node, c.nodes[window.rootNodeId]? = some node ∧ node.sessionId = session.id) :
    nodeBelongsToSession c session (fuel + 1) window.rootNodeId = .ok true := by
  obtain ⟨node, hnode, hsession⟩ := hown
  have hroot : (floatingWindowForRoot c session window.rootNodeId).isSome := by
    rw [floatingWindowForRoot, List.find?_isSome]
    exact ⟨window, List.mem_filterMap.mpr ⟨window.id, hlisted, hcached⟩, decide_eq_true rfl⟩
  rw [nodeBelongsToSession, hnode]
  dsimp only
  rw [if_neg (not_not.mpr hsession)]
  split <;> rfl

theorem Twins.projectLayer (h : Twins ids c c' drawn) {floatingId floatingId' : Option FloatingId}
    (htitles : paneTitlesIn c' layout floatingId' = paneTitlesIn c layout floatingId) {nodeId : NodeId}
    {rect : Rect} {isRoot : Bool} {layer : Layer} (hdrawn : drawn nodeId)
    (hlayer : Client.projectLayer c session layout fuel floatingId nodeId rect isRoot = .ok layer) :
    ∃ layer', Client.projectLayer c' session' layout fuel floatingId' (ids nodeId) rect isRoot
      = .ok layer' ∧ layer'.frames.spots = layer.frames.spots.map (Prod.map ids id) := by
  obtain ⟨p, hp, hlayer⟩ := Answer.ok_bind hlayer
  cases hlayer
  have hnode : ∃ p', Client.projectNode c' session'.focusedLeafId
      { layout with paneTitles := paneTitlesIn c layout floatingId } fuel (ids nodeId) rect isRoot = .ok p' ∧
      p'.spots = p.spots.map (Prod.map ids id) := h.projectNode fuel hdrawn hp
  obtain ⟨p', hp', hspots⟩ := hnode
  refine ⟨⟨floatingId', p'⟩, ?_, hspots⟩
  rw [Client.projectLayer, htitles, hp']
  rfl

/-- What a list of popups shows. -/
def popupSpots (shown : List (FloatingFrame × Layer)) : List (NodeId × Rect) :=
  shown.flatMap (·.2.frames.spots)

theorem TwinScreens.projectFloatingWindow (h : TwinScreens ids windows c c' session session' drawn)
    {window window' : FloatingRecord} (hwindow : TwinWindow ids c c' session session' drawn window window')
    {shown : List (FloatingFrame × Layer)}
    (hshown : Client.projectFloatingWindow c session layout fuel window bounds window.rootNodeId = .ok shown) :
    ∃ shown', Client.projectFloatingWindow c' session' layout fuel window' bounds window'.rootNodeId
      = .ok shown' ∧ popupSpots shown' = (popupSpots shown).map (Prod.map ids id) := by
  rw [Client.projectFloatingWindow] at hshown ⊢
  rw [hwindow.visible, hwindow.geometry, hwindow.border, hwindow.root]
  split at hshown
  · next hhidden =>
    cases hshown
    rw [if_pos hhidden]
    exact ⟨[], rfl, rfl⟩
  · next hvisible =>
    rw [if_neg hvisible]
    dsimp only at hshown ⊢
    split at hshown
    · next hempty =>
      cases hshown
      rw [if_pos hempty]
      exact ⟨[], rfl, rfl⟩
    · next hroom =>
      rw [if_neg hroom]
      obtain ⟨layer, hlayer, hshown⟩ := Answer.ok_bind hshown
      cases hshown
      have htitles := @paneTitlesIn_twin _ _ layout _ _ hwindow.cached hwindow.cached' hwindow.border
      obtain ⟨layer', hlayer', hspots⟩ := @Twins.projectLayer _ _ _ _ _ _ session' _ h.twins _ _ htitles
        _ _ _ _ hwindow.rootDrawn hlayer
      rw [hlayer', Answer.bind_ok]
      refine ⟨_, rfl, ?_⟩
      simpa [popupSpots] using hspots

theorem TwinScreens.projectFloating (h : TwinScreens ids windows c c' session session' drawn) :
    ∀ {floatingIds : List FloatingId} {shown : List (FloatingFrame × Layer)},
      (∀ floatingId ∈ floatingIds, floatingId ∈ session.floatingIds) →
      Client.projectFloating c session layout (fuel + 1) bounds floatingIds = .ok shown →
      ∃ shown', Client.projectFloating c' session' layout (fuel + 1) bounds (floatingIds.map windows)
        = .ok shown' ∧ popupSpots shown' = (popupSpots shown).map (Prod.map ids id)
  | [], _, _, hshown => by
    cases hshown
    exact ⟨[], rfl, rfl⟩
  | floatingId :: rest, shown, hlisted, hshown => by
    have hmem := hlisted floatingId List.mem_cons_self
    obtain ⟨window, window', hid, hid', hwindow⟩ := h.window hmem
    have hmem' : window'.id ∈ session'.floatingIds := by
      rw [h.listed, hid']
      exact List.mem_map_of_mem hmem
    have hcached := hwindow.cached
    have hcached' := hwindow.cached'
    have hbelongs : nodeBelongsToSession c session (fuel + 1) window.rootNodeId = .ok true :=
      nodeBelongsToSession_root (hid ▸ hmem) hcached hwindow.own
    have hbelongs' : nodeBelongsToSession c' session' (fuel + 1) window'.rootNodeId = .ok true :=
      nodeBelongsToSession_root hmem' hcached' hwindow.own'
    rw [hid] at hcached
    rw [hid'] at hcached'
    rw [Client.projectFloating, hcached] at hshown
    dsimp only at hshown
    rw [hbelongs, Answer.bind_ok, if_pos rfl] at hshown
    obtain ⟨first, hfirst, hshown⟩ := Answer.ok_bind hshown
    obtain ⟨others, hothers, hshown⟩ := Answer.ok_bind hshown
    cases hshown
    obtain ⟨first', hfirst', hspots⟩ := h.projectFloatingWindow hwindow hfirst
    obtain ⟨others', hothers', hspots'⟩ := h.projectFloating
      (fun id hid ↦ hlisted id (List.mem_cons_of_mem _ hid)) hothers
    refine ⟨first' ++ others', ?_, ?_⟩
    · rw [List.map_cons, Client.projectFloating, hcached']
      dsimp only
      rw [hbelongs', Answer.bind_ok, if_pos rfl, hfirst', Answer.bind_ok, hothers']
      rfl
    · rw [popupSpots, popupSpots, List.flatMap_append, List.flatMap_append, List.map_append]
      exact congrArg₂ (· ++ ·) hspots hspots'

/-- The second client draws the panes of the session where the first does. -/
theorem TwinScreens.projectWith (h : TwinScreens ids windows c c' session session' drawn)
    {sessionId : SessionId} (hsession : c.sessions[sessionId]? = some session)
    (hsession' : c'.sessions[sessionId]? = some session') {viewport : Size} {m : PresentationModel}
    (hm : PresentationModel.projectWith c fuel sessionId viewport layout = some (.ok m)) :
    ∃ m', PresentationModel.projectWith c' fuel sessionId viewport layout = some (.ok m') ∧
      m'.spots = m.spots.map (Prod.map ids id) := by
  obtain ⟨_, hcached, hmodel⟩ := Option.map_eq_some_iff.mp hm
  obtain rfl := Option.some.inj (hsession.symm.trans hcached)
  obtain ⟨⟨layers, floating⟩, hlayers, hmodel⟩ := Answer.ok_bind hmodel
  cases hmodel
  have hzoom : zoomedNode c session fuel = .ok none := by
    rw [zoomedNode, h.unzoomed]
    rfl
  have hzoom' : zoomedNode c' session' fuel = .ok none := by
    rw [zoomedNode, h.unzoomed']
    rfl
  rw [projectLayers, hzoom, Answer.bind_ok] at hlayers
  obtain ⟨layer, hlayer, hlayers⟩ := Answer.ok_bind hlayers
  obtain ⟨popups, hpopups, hlayers⟩ := Answer.ok_bind hlayers
  cases hlayers
  cases fuel with
  | zero =>
    obtain ⟨p, hp, -⟩ := Answer.ok_bind hlayer
    cases hp
  | succ fuel =>
    obtain ⟨layer', hlayer', hspots⟩ := @Twins.projectLayer _ _ _ _ _ _ session' _ h.twins none none rfl
      _ _ _ _ h.rootDrawn hlayer
    obtain ⟨popups', hpopups', hspots'⟩ := h.projectFloating (fun _ hmem ↦ hmem) hpopups
    refine ⟨⟨sessionId, viewport, layer' :: popups'.map (·.2), popups'.map (·.1)⟩, ?_, ?_⟩
    · rw [PresentationModel.projectWith, hsession', Option.map_some, projectLayers, hzoom', Answer.bind_ok]
      dsimp only
      rw [h.root, h.listed, hlayer', Answer.bind_ok, hpopups']
      rfl
    · simp only [PresentationModel.spots, List.flatMap_cons, List.flatMap_map, List.map_append]
      exact congrArg₂ (· ++ ·) hspots hspots'

/-! ## What is on a screen -/

theorem DrawClosed.drawn_of_layer (h : DrawClosed c drawn) {floatingId : Option FloatingId} {nodeId : NodeId}
    {rect : Rect} {isRoot : Bool} {layer : Layer} (hdrawn : drawn nodeId)
    (hlayer : projectLayer c session layout fuel floatingId nodeId rect isRoot = .ok layer)
    {spot : NodeId × Rect} (hmem : spot ∈ layer.frames.spots) : drawn spot.1 := by
  obtain ⟨p, hp, hlayer⟩ := Answer.ok_bind hlayer
  cases hlayer
  exact h.drawn_of_spot fuel hdrawn hp hmem

theorem DrawClosed.drawn_of_popup (h : DrawClosed c drawn) {window : FloatingRecord} {nodeId : NodeId}
    {shown : List (FloatingFrame × Layer)} (hdrawn : drawn nodeId)
    (hshown : projectFloatingWindow c session layout fuel window bounds nodeId = .ok shown)
    {spot : NodeId × Rect} (hmem : spot ∈ popupSpots shown) : drawn spot.1 := by
  rw [projectFloatingWindow] at hshown
  split at hshown
  · cases hshown
    cases hmem
  · dsimp only at hshown
    split at hshown
    · cases hshown
      cases hmem
    · obtain ⟨layer, hlayer, hshown⟩ := Answer.ok_bind hshown
      cases hshown
      rw [popupSpots, List.flatMap_singleton] at hmem
      exact h.drawn_of_layer hdrawn hlayer hmem

theorem DrawClosed.drawn_of_popups (h : DrawClosed c drawn) {spot : NodeId × Rect} :
    ∀ {floatingIds : List FloatingId} {shown : List (FloatingFrame × Layer)},
      (∀ floatingId ∈ floatingIds, ∀ window, c.floating[floatingId]? = some window →
        drawn window.rootNodeId) →
      projectFloating c session layout fuel bounds floatingIds = .ok shown → spot ∈ popupSpots shown →
      drawn spot.1
  | [], _, _, hshown, hmem => by
    cases hshown
    cases hmem
  | floatingId :: rest, shown, hroots, hshown, hmem => by
    have hrest : ∀ id ∈ rest, ∀ window, c.floating[id]? = some window → drawn window.rootNodeId :=
      fun id hid ↦ hroots id (List.mem_cons_of_mem _ hid)
    rw [projectFloating] at hshown
    split at hshown
    · exact h.drawn_of_popups hrest hshown hmem
    next window hwindow =>
      obtain ⟨belongs, -, hshown⟩ := Answer.ok_bind hshown
      dsimp only at hshown
      split at hshown
      · obtain ⟨first, hfirst, hshown⟩ := Answer.ok_bind hshown
        obtain ⟨others, hothers, hshown⟩ := Answer.ok_bind hshown
        cases hshown
        rw [popupSpots, List.flatMap_append, List.mem_append] at hmem
        rcases hmem with hmem | hmem
        · exact h.drawn_of_popup (hroots floatingId List.mem_cons_self window hwindow) hfirst hmem
        · exact h.drawn_of_popups hrest hothers hmem
      · obtain ⟨first, hfirst, hshown⟩ := Answer.ok_bind hshown
        obtain ⟨others, hothers, hshown⟩ := Answer.ok_bind hshown
        cases hfirst
        cases hshown
        exact h.drawn_of_popups hrest hothers hmem

/-- The panes on a screen without zoom are drawn below the session's root or the root of a popup. -/
theorem DrawClosed.drawn_of_screen (h : DrawClosed c drawn) {sessionId : SessionId}
    (hsession : c.sessions[sessionId]? = some session) (hunzoomed : session.zoomedNodeId = none)
    (hroot : drawn session.rootNodeId) (hpopups : ∀ floatingId ∈ session.floatingIds, ∀ window,
      c.floating[floatingId]? = some window → drawn window.rootNodeId) {viewport : Size}
    {m : PresentationModel}
    (hm : PresentationModel.projectWith c fuel sessionId viewport layout = some (.ok m))
    {spot : NodeId × Rect} (hmem : spot ∈ m.spots) : drawn spot.1 := by
  obtain ⟨_, hcached, hmodel⟩ := Option.map_eq_some_iff.mp hm
  obtain rfl := Option.some.inj (hsession.symm.trans hcached)
  obtain ⟨⟨layers, floating⟩, hlayers, hmodel⟩ := Answer.ok_bind hmodel
  cases hmodel
  have hzoom : zoomedNode c session fuel = .ok none := by
    rw [zoomedNode, hunzoomed]
    rfl
  rw [projectLayers, hzoom, Answer.bind_ok] at hlayers
  obtain ⟨layer, hlayer, hlayers⟩ := Answer.ok_bind hlayers
  obtain ⟨popups, hshown, hlayers⟩ := Answer.ok_bind hlayers
  cases hlayers
  rw [PresentationModel.spots, List.flatMap_cons, List.mem_append, List.flatMap_map] at hmem
  rcases hmem with hmem | hmem
  · exact h.drawn_of_layer hroot hlayer hmem
  · exact h.drawn_of_popups hpopups hshown hmem

end Embers.Client
