import Embers.Client.PlacedCopies
import Embers.Server.SnapshotsApplied

/-!
# Panes at the size they are started at

A program is started at the size that a client finds for its pane before there is the pane. The
server then puts the pane where the request says, and the client is sent the session as it is now.
That client draws the pane at the size the program was started at (`spawnPtySizeWith_drawn`).
-/

namespace Embers.Client

open Op Protocol Server ServerState

variable {s s' : ServerState} {sessionId : SessionId} {session session' : Session}
  {c c' copied : ClientState} {record : SessionRecord} {ids : NodeId → NodeId}
  {windows : FloatingId → FloatingId} {within : NodeId → Prop} {scene scene' : Scene}
  {fuel : ℕ} {viewport : Size} {options : LayoutOptions} {m : PresentationModel} {leafId : NodeId}
  {size : PtySize}

/-! ## Sizes and spots -/

/-- The size of a pane is read off the spots. -/
theorem ptySize_eq_spots (m : PresentationModel) (nodeId : NodeId) :
    m.ptySize nodeId = (m.spots.find? (·.1 = nodeId)).bind (·.2.ptySize) := by
  have hspots : m.spots = m.leaves.map (·.2.spot) := by
    simp only [PresentationModel.leaves, PresentationModel.spots, List.map_flatMap, Projection.spots,
      List.map_map]
    rfl
  rw [hspots, List.find?_map, Option.bind_map, PresentationModel.ptySize]
  rfl

theorem mem_spots_of_ptySize (h : m.ptySize leafId = some size) : ∃ spot ∈ m.spots, spot.1 = leafId := by
  rw [ptySize_eq_spots] at h
  obtain ⟨spot, hspot, -⟩ := Option.bind_eq_some_iff.mp h
  have hid := List.find?_some hspot
  rw [decide_eq_true_iff] at hid
  exact ⟨spot, List.mem_of_find?_eq_some hspot, hid⟩

/-- Spots under other ids are of the same size, if no other pane gets the id. -/
theorem ptySize_rename {m' : PresentationModel} (hspots : m'.spots = m.spots.map (Prod.map ids id))
    (hinj : ∀ spot ∈ m.spots, ids spot.1 = ids leafId → spot.1 = leafId) :
    m'.ptySize (ids leafId) = m.ptySize leafId := by
  rw [ptySize_eq_spots, ptySize_eq_spots, hspots, List.find?_map, Option.bind_map]
  refine congrArg₂ Option.bind (List.find?_congr fun spot hmem ↦ ?_) rfl
  exact decide_eq_decide.mpr ⟨hinj spot hmem, congrArg ids⟩

/-! ## A copy and what becomes of the session -/

theorem Copy.drawn_of_spot (h : Copy sessionId scene copied record)
    (hrenames : Scene.Renames ids windows within scene scene')
    (hm : PresentationModel.projectWith copied fuel sessionId viewport options = some (.ok m))
    {spot : NodeId × Rect} (hmem : spot ∈ m.spots) : scene.Drawn spot.1 := by
  have hclosed := h.closed hrenames
  obtain rfl := h.scene
  refine hclosed.drawn_of_screen h.cached h.unzoomed ⟨_, .inl rfl, .refl⟩ ?_ hm hmem
  exact fun floatingId hlisted window hwindow ↦ ⟨_, .inr ⟨floatingId, hlisted, window.popup,
    congrArg (Option.map FloatingRecord.popup) hwindow, rfl⟩, .refl⟩

/-- A pane of a copy, and of a client that caches a session with the scene of the copy. -/
theorem Copy.ptySize (h : Copy sessionId scene copied record)
    (hrenames : Scene.Renames ids windows within scene scene')
    (hinj : ∀ nodeId, within nodeId → ids nodeId = ids leafId → nodeId = leafId)
    (hleaves : scene'.Drawn (ids leafId) → Leaves sessionId session scene' s')
    (hunzoomed : session.zoomedNode = none) (hcaches : Caches s' sessionId session' c')
    (hm : PresentationModel.projectWith copied fuel sessionId viewport options = some (.ok m))
    (hsize : m.ptySize leafId = some size) :
    ∃ m', PresentationModel.projectWith c' fuel sessionId viewport options = some (.ok m') ∧
      m'.ptySize (ids leafId) = some size := by
  obtain ⟨spot, hmem, rfl⟩ := mem_spots_of_ptySize hsize
  obtain ⟨after, hafter, hzoom, rfl, hlaid⟩ := hleaves (hrenames.drawn (h.drawn_of_spot hrenames hm hmem))
  obtain rfl := Option.some.inj (hcaches.kept.symm.trans hafter)
  have htwins := twinScreens_of_renames h hrenames hcaches hlaid (hzoom.trans hunzoomed)
  obtain ⟨m', hm', hspots⟩ := htwins.projectWith h.cached hcaches.recorded hm
  refine ⟨m', hm', (ptySize_rename hspots fun other hother ↦ ?_).trans hsize⟩
  exact hinj _ (hrenames.within_of_drawn (h.drawn_of_spot hrenames hm hother))

/-! ## Requests -/

/-- A request that puts a pane where the placement says is carried out. The pane is a new one, but
for a buffer that was detached and is moved to a pane. -/
inductive Placed (fuel : ℕ) (sessionId : SessionId) (bufferId : BufferId) (s s' : ServerState) :
    PanePlacement → NodeId → Prop
  | split {leafId splitId : NodeId} {direction : SplitDirection}
      (h : splitLeafWithNewBuffer fuel leafId direction bufferId s = (.ok splitId, s')) :
      Placed fuel sessionId bufferId s s' (.split leafId direction) s.nodeIds.peek
  | rootTab {title : String} {position : ℕ}
      (h : addRootTabFromBuffer fuel sessionId title bufferId s = (.ok position, s')) :
      Placed fuel sessionId bufferId s s' .rootTab s.nodeIds.peek
  | tab {tabsId : NodeId} {index position : ℕ} {title : String}
      (h : addTabFromBufferAt fuel tabsId index title bufferId s = (.ok position, s')) :
      Placed fuel sessionId bufferId s s' (.tab tabsId) s.nodeIds.peek
  | floating {geometry : FloatGeometry} {title : Option String} {focus closeOnEmpty border : Bool}
      {floatingId : FloatingId} {t : ServerState}
      (h : createFloatingFromBufferWithOptions fuel sessionId bufferId geometry title focus closeOnEmpty s =
        (.ok floatingId, t)) (hborder : setFloatingBorder floatingId border t = (.ok (), s')) :
      Placed fuel sessionId bufferId s s' (.floating geometry border) s.nodeIds.peek
  | replace {leafId : NodeId} {buffer : Buffer} (hbuffer : s.buffers[bufferId]? = some buffer)
      (hdetached : buffer.attachment = .detached)
      (h : moveBufferToLeaf fuel bufferId leafId s = (.ok (), s')) :
      Placed fuel sessionId bufferId s s' (.replace leafId) leafId

/-- A request for a pane that is no view is refused. -/
theorem view_of_ensureLeaf {nodeId : NodeId} (h : s.ensureLeaf nodeId = .ok ()) :
    ∃ view, s.nodes[nodeId]? = some (.bufferView view) := by
  obtain ⟨node, hnode, h⟩ := Answer.ok_bind h
  have hget := node_eq_ok.mp hnode
  cases node with
  | bufferView view => exact ⟨view, hget⟩
  | split => cases h
  | tabs => cases h

section

variable {k stateFuel : ℕ} {layout : ClientState} {bufferId : BufferId}
  (hcopy : SessionCopy s sessionId session layout) (hvalid : s.validate k = .ok ())
  (hsession : s.sessions[sessionId]? = some session) (hunzoomed : session.zoomedNode = none)
  (hspare : Spare s) (hlast : s.nodes[newLeaf]? = none) (hcaches : Caches s' sessionId session' c')
  (hm : PresentationModel.projectWith copied fuel sessionId viewport options = some (.ok m))
include hcopy hvalid hsession hunzoomed hspare hlast hcaches hm

omit hcopy hunzoomed hspare hlast hcaches hm in
theorem not_inSession {nodeId : NodeId} (hnone : s.nodes[nodeId]? = none) :
    ¬ InSession s session nodeId := by
  intro hin
  obtain ⟨node, hnode, -⟩ := home_of_inSession hvalid (accepted_of_validate hvalid hsession) hin
  rw [hnone] at hnode
  cases hnode

theorem split_drawn (hlisted : s.FloatingListed) (hlast' : s.nodes[newContainer]? = none)
    {anchorId splitId : NodeId} {direction : SplitDirection}
    (hplace : splitLeaf sessionId anchorId direction layout = some copied)
    (h : splitLeafWithNewBuffer stateFuel anchorId direction bufferId s = (.ok splitId, s'))
    (hsize : m.ptySize newLeaf = some size) :
    ∃ m', PresentationModel.projectWith c' fuel sessionId viewport options = some (.ok m') ∧
      m'.ptySize s.nodeIds.peek = some size := by
  obtain ⟨_, hensure, -⟩ := ok_ask_bind h
  obtain ⟨view, hleaf⟩ := view_of_ensureLeaf hensure
  obtain ⟨hhome, hin, hcopied⟩ := hcopy.splitLeaf hvalid hsession hunzoomed hlast hleaf hplace
  have hrenames := hcopy.agrees.splitPane view.parent direction hin
    (not_inSession hvalid hsession hlast) (not_inSession hvalid hsession hlast')
    (not_inSession hvalid hsession hspare.pane)
    (not_inSession hvalid hsession hspare.split) SessionCopy.newContainer_ne_newLeaf hspare.ne
  rw [← Scene.rekey_self newLeaf s.nodeIds.peek (Scene.rekey newContainer s.nodeIds.advance.peek id)]
  refine hcopied.ptySize hrenames (fun nodeId hwithin heq ↦ ?_) (fun hdrawn ↦ ?_) hunzoomed hcaches hm
    hsize
  · refine Scene.eq_of_rekey heq fun hne ↦ ?_
    rcases hwithin with hin | rfl | rfl
    · rw [Scene.rekey_of_ne (Scene.ne_of_within hin (not_inSession hvalid hsession hlast'))]
      exact Scene.ne_of_within hin (not_inSession hvalid hsession hspare.pane)
    · rw [Scene.rekey_self]
      exact hspare.ne
    · exact absurd rfl hne
  · rw [Scene.rekey_self] at hdrawn
    exact splitLeafWithNewBuffer_scene hvalid hsession hlisted hspare hleaf hhome hdrawn h

/-- A tab that was added, given the scene the request leaves. -/
theorem tab_drawn {tabsId : NodeId} (hcopied : Copy sessionId
      ((layout.sceneOf (sessionRecord sessionId session)).addTab tabsId newLeaf) copied
      (sessionRecord sessionId session))
    (hleaves : ((s.sceneOf session).addTab tabsId s.nodeIds.peek).Drawn s.nodeIds.peek →
      Leaves sessionId session ((s.sceneOf session).addTab tabsId s.nodeIds.peek) s')
    (hsize : m.ptySize newLeaf = some size) :
    ∃ m', PresentationModel.projectWith c' fuel sessionId viewport options = some (.ok m') ∧
      m'.ptySize s.nodeIds.peek = some size := by
  have hpane := not_inSession hvalid hsession hspare.pane
  have hrenames := hcopy.agrees.addTab tabsId (not_inSession hvalid hsession hlast) hpane
  rw [← Scene.rekey_self newLeaf s.nodeIds.peek id]
  refine hcopied.ptySize hrenames (fun nodeId hwithin heq ↦ ?_) (fun hdrawn ↦ ?_) hunzoomed hcaches hm
    hsize
  · refine Scene.eq_of_rekey heq fun hne ↦ ?_
    exact Scene.ne_of_within (hwithin.resolve_right hne) hpane
  · rw [Scene.rekey_self] at hdrawn
    exact hleaves hdrawn

theorem popup_drawn (hlast' : newFloating ∉ session.floating) (hnew : s.floatingIds.peek ∉ session.floating)
    {geometry : FloatGeometry} {border focus closeOnEmpty : Bool} {title : Option String}
    {floatingId : FloatingId} {t : ServerState}
    (hplace : addFloating sessionId geometry border layout = some copied)
    (h : createFloatingFromBufferWithOptions stateFuel sessionId bufferId geometry title focus closeOnEmpty s
      = (.ok floatingId, t)) (hborder : setFloatingBorder floatingId border t = (.ok (), s'))
    (hsize : m.ptySize newLeaf = some size) :
    ∃ m', PresentationModel.projectWith c' fuel sessionId viewport options = some (.ok m') ∧
      m'.ptySize s.nodeIds.peek = some size := by
  have hpane := not_inSession hvalid hsession hspare.pane
  have hrenames := hcopy.agrees.addPopup geometry border (not_inSession hvalid hsession hlast) hpane
    hlast' hnew
  rw [← Scene.rekey_self newLeaf s.nodeIds.peek id]
  refine (hcopy.addFloating hunzoomed hplace).ptySize hrenames (fun nodeId hwithin heq ↦ ?_)
    (fun hdrawn ↦ ?_) hunzoomed hcaches hm hsize
  · refine Scene.eq_of_rekey heq fun hne ↦ ?_
    exact Scene.ne_of_within (hwithin.resolve_right hne) hpane
  · rw [Scene.rekey_self] at hdrawn
    exact createFloatingFromBufferWithOptions_scene hvalid hsession hspare hdrawn h hborder

omit hspare hlast in
theorem replace_drawn {leafId : NodeId} {buffer : Buffer} (hbuffer : s.buffers[bufferId]? = some buffer)
    (hdetached : buffer.attachment = .detached) (hsame : copied = layout)
    (h : moveBufferToLeaf stateFuel bufferId leafId s = (.ok (), s')) (hsize : m.ptySize leafId = some size) :
    ∃ m', PresentationModel.projectWith c' fuel sessionId viewport options = some (.ok m') ∧
      m'.ptySize leafId = some size := by
  obtain rfl := hsame
  obtain ⟨_, hensure, -⟩ := ok_ask_bind h
  obtain ⟨view, hleaf⟩ := view_of_ensureLeaf hensure
  have hrenames := hcopy.agrees.renames
  refine (hcopy.copy hunzoomed).ptySize hrenames (fun _ _ heq ↦ heq) (fun hdrawn ↦ ?_) hunzoomed hcaches hm
    hsize
  have haccepted := accepted_of_validate hvalid hsession
  obtain ⟨node, hnode, hhome⟩ := home_of_inSession hvalid haccepted (inSession_of_drawn hdrawn)
  obtain rfl := Option.some.inj (hleaf.symm.trans hnode)
  exact moveBufferToLeaf_scene hvalid hsession hbuffer hdetached hleaf hhome hdrawn h

end

theorem rootTabs_eq {layout : ClientState} (h : SessionCopy s sessionId session layout) {tabsId : NodeId}
    (htabs : rootTabs layout sessionId = some tabsId) : session.rootNode = tabsId := by
  obtain ⟨record, hrecord, htabs⟩ := Option.bind_eq_some_iff.mp htabs
  obtain rfl := Option.some.inj (h.cached.symm.trans hrecord)
  obtain ⟨root, -, htabs⟩ := Option.bind_eq_some_iff.mp htabs
  split at htabs
  · exact Option.some.inj htabs
  · cases htabs

/-- From the state of a new server after any commands with any outcomes, while ids are left, and as long
as it passes its own checks: a client that is up to date finds a size for the pane, a request puts the
pane there, and the client that is up to date then draws it at this size. -/
theorem spawnPtySizeWith_drawn (hrun : Relation.ReflTransGen Command.RoomyStep ServerState.new s)
    (hroom : Room 2 s) {k : ℕ} (hvalid : s.validate k = .ok ())
    (hcaches : Caches s sessionId session c) (hunzoomed : session.zoomedNode = none)
    {placement : PanePlacement} {stateFuel : ℕ} {bufferId : BufferId} {paneId : NodeId}
    (hplaced : Placed stateFuel sessionId bufferId s s' placement paneId)
    (hcaches' : Caches s' sessionId session' c')
    (hsize : spawnPtySizeWith c fuel sessionId viewport options placement = some size) :
    ∃ m, PresentationModel.projectWith c' fuel sessionId viewport options = some (.ok m) ∧
      m.ptySize paneId = some size := by
  have hnumbered := Command.numbered_new.of_namesSince (Command.follows_of_run hrun).since
  have hlisted := Command.floatingListed_of_run hrun
  have hsession := hcaches.kept
  have hspare := spare_of_numbered hnumbered hroom
  -- the ids of the copy are the last ones
  have hlast : s.nodes[newLeaf]? = none ∧ s.nodes[newContainer]? = none := by
    have hnodes := hroom.nodes
    refine ⟨node_eq_none hnumbered ?_, node_eq_none hnumbered ?_⟩
    · rw [show newLeaf.number = 2 ^ 64 - 1 from by decide]
      omega
    · rw [show newContainer.number = 2 ^ 64 - 2 from by decide]
      omega
  obtain ⟨layout, hlayout, hcopies⟩ := Option.bind_eq_some_iff.mp hsize
  obtain ⟨⟨copied, leafId⟩, hcopied, hdraws⟩ := Option.bind_eq_some_iff.mp hcopies
  obtain ⟨answer, hm, hpane⟩ := Option.bind_eq_some_iff.mp hdraws
  cases answer with
  | error => cases hpane
  | ok m =>
    have hcopy := sessionCopy_of_caches hcaches hvalid hlast.1 hlayout
    have hagrees := hcopy.agrees
    cases hplaced with
    | split h =>
      obtain ⟨_, hplace, heq⟩ := Option.bind_eq_some_iff.mp hcopied
      cases heq
      exact split_drawn hcopy hvalid hsession hunzoomed hspare hlast.1 hcaches' hm hlisted hlast.2 hplace
        h hpane
    | rootTab h =>
      obtain ⟨tabsId, htabs, hcopied⟩ := Option.bind_eq_some_iff.mp hcopied
      obtain ⟨_, hplace, heq⟩ := Option.bind_eq_some_iff.mp hcopied
      cases heq
      obtain rfl := rootTabs_eq hcopy htabs
      obtain ⟨-, -, -, hadded⟩ := hcopy.addActiveTab hunzoomed hplace
      exact tab_drawn hcopy hvalid hsession hunzoomed hspare hlast.1 hcaches' hm hadded
        (fun hdrawn ↦ addRootTabFromBuffer_scene hvalid hsession hspare hdrawn h) hpane
    | tab h =>
      obtain ⟨node, hnode, hcopied⟩ := Option.bind_eq_some_iff.mp hcopied
      split at hcopied
      · cases hcopied
      · obtain ⟨_, hplace, heq⟩ := Option.bind_eq_some_iff.mp hcopied
        cases heq
        obtain ⟨tabs, htabs, hhome, hadded⟩ := hcopy.addActiveTab hunzoomed hplace
        exact tab_drawn hcopy hvalid hsession hunzoomed hspare hlast.1 hcaches' hm hadded
          (fun hdrawn ↦ addTabFromBufferAt_scene hvalid hsession hspare htabs hhome hdrawn h) hpane
    | floating h hborder =>
      obtain ⟨_, hplace, heq⟩ := Option.bind_eq_some_iff.mp hcopied
      cases heq
      have haccepted := accepted_of_validate hvalid hsession
      have hunlisted {floatingId : FloatingId} (hnone : s.floating[floatingId]? = none) :
          floatingId ∉ session.floating := by
        intro hmem
        obtain ⟨floating, -, hget, -⟩ := haccepted.popup hmem
        rw [hnone] at hget
        cases hget
      have hlastFloating : s.floating[newFloating]? = none := by
        have hfloating := hroom.floating
        refine floating_eq_none hnumbered ?_
        rw [show newFloating.number = 2 ^ 64 - 1 from by decide]
        omega
      exact popup_drawn hcopy hvalid hsession hunzoomed hspare hlast.1 hcaches' hm (hunlisted hlastFloating)
        (hunlisted hspare.floating) hplace h hborder hpane
    | replace hbuffer hdetached h =>
      cases hcopied
      exact replace_drawn hcopy hvalid hsession hunzoomed hcaches' hm hbuffer hdetached rfl h hpane

/-! ### A pane that is split -/

/-- A session with a pane, and a buffer for another one. -/
def paneAdded : List Command :=
  [.createSession "main" ⟨0⟩, .createBufferWithEnv "one" [] none ∅ ⟨0⟩,
    .createBufferWithEnv "two" [] none ∅ ⟨0⟩, .addRootTabFromBuffer ⟨1⟩ "one" ⟨1⟩]

def paneSplit (s : ServerState) : Answer MuxError NodeId × ServerState :=
  splitLeafWithNewBuffer 20 ⟨2⟩ .vertical ⟨2⟩ s

/-- A client that was sent the session. -/
def sent (s : ServerState) : Option ClientState :=
  match sessionSnapshot s 20 ⟨1⟩ with
  | .ok snapshot => some (ClientState.empty.applySessionSnapshot snapshot.sent)
  | .error _ => none

def titled : LayoutOptions := ⟨⟨.top, true⟩, .top⟩

/-- What the split finds. -/
def readyToSplit (s : ServerState) : Bool :=
  decide (s.validate 20 = .ok ()) && Command.roomy .disposeExitedBuffers s &&
    decide (s.sessions[(⟨1⟩ : SessionId)]?.map Session.zoomedNode = some none) && (paneSplit s).1.isOk &&
    decide ((sent s).map (spawnPtySizeWith · 20 ⟨1⟩ ⟨80, 24⟩ titled (.split ⟨2⟩ .vertical)) =
      some (some (.new 40 22))) && (sent (paneSplit s).2).isSome

theorem paneAdded_run :
    (Command.runEach 20 Command.roomy paneAdded ServerState.new).map readyToSplit = some true := by
  decide +kernel

theorem caches_of_sent {s : ServerState} {c : ClientState} (h : sent s = some c) :
    ∃ session, s.sessions[(⟨1⟩ : SessionId)]? = some session ∧ Caches s ⟨1⟩ session c := by
  rw [sent] at h
  split at h
  next snapshot hsnapshot =>
    obtain rfl := Option.some.inj h
    obtain ⟨session, hsession, -⟩ := Answer.ok_bind hsnapshot
    have hget := session_eq_ok.mp hsession
    exact ⟨session, hget,
      (mirrors_of_covers hget (covers_sessionSnapshot hget hsnapshot) ClientState.empty).caches⟩
  · cases h

/-- The new pane is started at 40 columns and 22 rows below a title, and drawn there. -/
theorem spawnPtySizeWith_drawn_split : ∃ s m, Relation.ReflTransGen Command.RoomyStep ServerState.new s ∧
    (sent (paneSplit s).2).bind (PresentationModel.projectWith · 20 ⟨1⟩ ⟨80, 24⟩ titled) = some (.ok m) ∧
    m.ptySize s.nodeIds.peek = some (.new 40 22) := by
  obtain ⟨s, hs, hready⟩ := Option.map_eq_some_iff.mp paneAdded_run
  have hrun := Command.runEach_steps Command.roomyStep_of_roomy hs
  simp only [readyToSplit, Bool.and_eq_true, decide_eq_true_eq] at hready
  obtain ⟨⟨⟨⟨⟨hvalid, hroomy⟩, hunzoomed⟩, hok⟩, hsize⟩, hsent⟩ := hready
  obtain ⟨c, hc, hsize⟩ := Option.map_eq_some_iff.mp hsize
  obtain ⟨c', hc'⟩ := Option.isSome_iff_exists.mp hsent
  obtain ⟨session, hsession, hcaches⟩ := caches_of_sent hc
  obtain ⟨session', -, hcaches'⟩ := caches_of_sent hc'
  rw [hsession] at hunzoomed
  have hroom : Room 2 s := by
    simp only [Command.roomy, Bool.and_eq_true, decide_eq_true_eq] at hroomy
    obtain ⟨⟨⟨hsessions, hbuffers⟩, hnodes⟩, hfloating⟩ := hroomy
    constructor <;> rw [IdAllocator.next] <;> omega
  have hsplit : ∃ splitId, paneSplit s = (.ok splitId, (paneSplit s).2) := by
    cases hanswer : (paneSplit s).1 with
    | error =>
      rw [hanswer] at hok
      cases hok
    | ok splitId => exact ⟨splitId, Prod.ext hanswer rfl⟩
  obtain ⟨splitId, hsplit⟩ := hsplit
  obtain ⟨m, hm, hdrawn⟩ := spawnPtySizeWith_drawn hrun hroom hvalid hcaches
    (Option.some.inj hunzoomed) (.split hsplit) hcaches' hsize
  exact ⟨s, m, hrun, by rw [hc', Option.bind_some, hm], hdrawn⟩

end Embers.Client
