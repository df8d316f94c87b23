import Embers.Cli.Switch
import Embers.Cli.WrittenTargets
import Embers.Client.Formats
import Embers.Client.Resync

/-!
# Targets that formats print

A command prints the ids and numbers of a pane from the session's snapshot, through the formats of the
client. It reads them back through targets, with walks and numbers of its own. In consistent sessions both
find the same: what is printed for a pane that its window shows is a target of this pane.
-/

namespace Embers

namespace Answer

variable {ε ε' α β : Type}

/-- A list is collected alike by functions that answer alike. -/
theorem collect_transfer {f : α → Answer ε (List β)} {g : α → Answer ε' (List β)} :
    ∀ {l : List α} {bs : List β}, (∀ a ∈ l, ∀ bs, f a = .ok bs → g a = .ok bs) →
      collect f l = .ok bs → collect g l = .ok bs
  | [], bs, _, h => by
    cases h
    rfl
  | a :: as, bs, hfg, h => by
    obtain ⟨first, hfirst, h⟩ := ok_bind h
    obtain ⟨rest, hrest, h⟩ := ok_bind h
    cases h
    rw [collect, hfg a List.mem_cons_self first hfirst, bind_ok,
      collect_transfer (fun b hb ↦ hfg b (List.mem_cons_of_mem a hb)) hrest]
    rfl

end Answer

namespace Cli

open Protocol Client

namespace Connection

/-- A template for a pane of a session, or for its focused pane. The variables of the layout and of the
list of clients, which are added for templates that have their names, are part of `extra`. -/
def expandForPane (w : Connection) (fuel : ℕ) (snapshot : SessionSnapshot) (paneId : Option NodeId)
    (extra : Table String String) (template : List Char) : Answer Unit (List Char) := do
  let context ← FormatContext.fromState (ClientState.empty.applySessionSnapshot snapshot) fuel
    snapshot.session.id paneId (w.baseIndexFor snapshot)
  pure (expandFormat { context with extra } template)

end Connection

/-- The snapshot has the records of the buffers that its panes show, one of each. -/
structure Stocked (snapshot : SessionSnapshot) : Prop where
  nodup : (snapshot.buffers.map (·.id)).Nodup
  buffer : ∀ node ∈ snapshot.nodes, ∀ view, node.bufferView = some view →
    ∃ buffer ∈ snapshot.buffers, buffer.id = view.bufferId

/-! ## The client's records -/

/-- What a client that had nothing has once it was sent a snapshot. -/
def fetched (snapshot : SessionSnapshot) : ClientState := ClientState.empty.applySessionSnapshot snapshot

section

variable {rank : NodeId → ℕ} {depth : ℕ} {snapshot : SessionSnapshot}

theorem fetched_tables (snapshot : SessionSnapshot) :
    (fetched snapshot).tables = (ClientState.empty.replaceSession snapshot).tables :=
  ClientState.syncViewStatesForNodes_tables _ _ _

theorem fetched_session (snapshot : SessionSnapshot) :
    (fetched snapshot).sessions[snapshot.session.id]? = some snapshot.session := by
  rw [fetched, ClientState.applySessionSnapshot_sessions, if_pos rfl]

theorem fetched_node (h : Intact rank depth snapshot) {nodeId : NodeId} {node : NodeRecord}
    (hnode : Has snapshot nodeId node) : (fetched snapshot).nodes[nodeId]? = some node := by
  have hnodes := congrArg (fun t : Tables ↦ t.nodes[nodeId]?) (fetched_tables snapshot)
  refine Eq.trans hnodes ?_
  rw [← hnode.id]
  refine Table.get?_insertAll_of_mem hnode.mem (fun other hother heq ↦ ?_) _
  exact List.inj_on_of_nodup_map h.nodup hother hnode.mem heq

theorem fetched_buffer (h : Stocked snapshot) {buffer : Protocol.BufferRecord}
    (hmem : buffer ∈ snapshot.buffers) : (fetched snapshot).buffers[buffer.id]? = some buffer := by
  have hbuffers := congrArg (fun t : Tables ↦ t.buffers[buffer.id]?) (fetched_tables snapshot)
  refine Eq.trans hbuffers ?_
  have hlisted : buffer.id ∈ snapshot.buffers.map Protocol.BufferRecord.id :=
    List.mem_map_of_mem hmem
  change (ClientState.empty.replaceSession snapshot).buffers[buffer.id]? = _
  simp only [ClientState.replaceSession]
  rw [Table.get?_modifyAll (ClientState.detachFrom_detachFrom _), if_neg]
  · refine Table.get?_insertAll_of_mem hmem (fun other hother heq ↦ ?_) _
    exact List.inj_on_of_nodup_map h.nodup hother hmem heq
  · exact fun hdropped ↦ absurd hlisted (of_decide_eq_true (List.mem_filter.mp hdropped).2)

/-- The client's walk down finds what the command's finds. -/
theorem visibleLeaves_fetched (h : Intact rank depth snapshot) :
    ∀ {fuel : ℕ} {nodeId : NodeId} {leaves : List NodeId},
      visibleLeafIds snapshot fuel nodeId = .ok leaves →
      visibleLeaves (fetched snapshot) fuel nodeId = .ok leaves
  | 0, _, _, hwalk => by cases hwalk
  | fuel + 1, nodeId, leaves, hwalk => by
    obtain ⟨node, hnode, hwalk⟩ := Answer.ok_bind hwalk
    have hhas := has_of_nodeRecord hnode
    simp only [visibleLeaves, fetched_node h hhas]
    cases hkind : node.kind with
    | bufferView =>
      rw [hkind] at hwalk
      cases hwalk
      exact congrArg (fun id ↦ Except.ok [id]) hhas.id.symm
    | split =>
      rw [hkind] at hwalk
      cases hsplit : node.split with
      | none =>
        rw [hsplit] at hwalk
        cases hwalk
      | some split =>
        rw [hsplit] at hwalk
        exact Answer.collect_transfer (fun _ _ _ hchild ↦ visibleLeaves_fetched h hchild) hwalk
    | tabs =>
      rw [hkind] at hwalk
      cases htabs : node.tabs with
      | none =>
        rw [htabs] at hwalk
        cases hwalk
      | some tabs =>
        simp only [htabs, protocolTab] at hwalk
        cases htab : tabs.tabs[tabs.active.toNat]? with
        | none =>
          rw [htab] at hwalk
          cases hwalk
        | some tab =>
          rw [htab] at hwalk
          simp only [Option.bind_some, htab]
          exact visibleLeaves_fetched h hwalk

/-- The client's walk up from what is below a window finds the window. -/
theorem tabHolding_fetched (h : Intact rank depth snapshot) {tabs : TabsRecord}
    (hwindows : windows snapshot = tabs.tabs.map (·.childId)) {childId nodeId : NodeId} {index : ℕ}
    (hchild : childId ∈ windows snapshot) (hindex : (windows snapshot).findIdx? (· = childId) = some index)
    (hunder : Under snapshot childId nodeId) : ∀ {fuel : ℕ}, rank nodeId < fuel →
      tabHolding (fetched snapshot) tabs fuel nodeId = .ok (some index) := by
  have htab (current : NodeId) : tabs.tabs.findIdx? (·.childId = current) =
      (windows snapshot).findIdx? (· = current) := by
    rw [hwindows, List.findIdx?_map]
    rfl
  induction hunder with
  | top =>
    intro fuel hfuel
    obtain ⟨fuel, rfl⟩ : ∃ n, fuel = n + 1 := ⟨fuel - 1, by omega⟩
    rw [tabHolding, htab, hindex]
    rfl
  | @link nodeId parentId node hnode hparent habove ih =>
    intro fuel hfuel
    obtain ⟨fuel, rfl⟩ : ∃ n, fuel = n + 1 := ⟨fuel - 1, by omega⟩
    have hlt := (h.ranked _ hnode.mem).2 _ hparent
    rw [hnode.id] at hlt
    -- what has another parent than the root is no window
    have hnone : (windows snapshot).findIdx? (· = nodeId) = none := by
      rw [List.findIdx?_eq_none_iff]
      intro other hother
      refine decide_eq_false fun heq ↦ ?_
      obtain ⟨window, hhas, hroot⟩ := h.window_has hchild
      obtain ⟨node', hnode', hroot'⟩ := h.window_has hother
      subst heq
      obtain rfl := Option.some.inj (hnode.symm.trans hnode')
      obtain rfl := Option.some.inj (hparent.symm.trans hroot')
      have hbelow := (h.ranked _ hhas.mem).2 _ hroot
      rw [hhas.id] at hbelow
      have hle := h.rank_le_of_under habove
      omega
    rw [tabHolding, htab, hnone]
    simp only [fetched_node h hnode, Option.bind_some, hparent]
    exact ih (by omega)

/-! ## The values for a pane -/

/-- The values that name a pane of a window, the windows counted from a base. -/
structure Names (context : FormatContext) (snapshot : SessionSnapshot) (base : UInt32) (index : ℕ)
    (childId : NodeId) (leaves : List NodeId) (paneId : NodeId) (bufferId : BufferId) : Prop where
  sessionName : context.sessionName = snapshot.session.name.toList
  sessionId : context.sessionId = some snapshot.session.id
  windowIndex : context.windowIndex = index + base.toNat
  windowId : context.windowId = some childId
  paneIndex : context.paneIndex = leaves.idxOf? paneId
  paneId : context.paneId = some paneId
  bufferId : context.bufferId = some bufferId

theorem fromState_fetched (h : Intact rank depth snapshot) (hstocked : Stocked snapshot) (base : UInt32)
    {childId : NodeId} (hchild : childId ∈ windows snapshot) {fuel : ℕ} (hfuel : depth < fuel)
    {leaves : List NodeId} (hleaves : visibleLeafIds snapshot fuel childId = .ok leaves) {paneId : NodeId}
    (hpane : paneId ∈ leaves) {index : ℕ}
    (hindex : (windows snapshot).findIdx? (· = childId) = some index) {leaf : NodeRecord}
    (hleaf : Has snapshot paneId leaf) {view : BufferViewRecord} (hview : leaf.bufferView = some view) :
    ∃ context, FormatContext.fromState (fetched snapshot) fuel snapshot.session.id (some paneId)
        (some base) = .ok context ∧
      Names context snapshot base index childId leaves paneId view.bufferId := by
  obtain ⟨root, hroot, hkind, -⟩ := h.root
  obtain ⟨tabs, htabs, -⟩ : ∃ tabs, root.tabs = some tabs ∧ _ := by
    have hshaped := h.shaped root hroot.mem
    rwa [Shaped, hkind] at hshaped
  have hwindows : windows snapshot = tabs.tabs.map (·.childId) := by
    rw [windows, show snapshot.nodes.find? _ = some root from hroot]
    simp only [Option.map_some, Option.getD_some, childrenOf, hkind, htabs]
  obtain ⟨hunder, -⟩ := h.under_of_mem_visibleLeafIds hleaves hpane
  have hrank := (h.ranked leaf hleaf.mem).1
  rw [hleaf.id] at hrank
  have hheld := tabHolding_fetched h hwindows hchild hindex hunder (Nat.lt_of_le_of_lt hrank hfuel)
  obtain ⟨tab, htab, rfl⟩ : ∃ tab, tabs.tabs[index]? = some tab ∧ tab.childId = childId := by
    rw [hwindows, List.findIdx?_map] at hindex
    obtain ⟨hlt, hfound, -⟩ := List.findIdx?_eq_some_iff_getElem.mp hindex
    exact ⟨_, List.getElem?_eq_getElem hlt, of_decide_eq_true hfound⟩
  obtain ⟨buffer, hbuffer, hid⟩ := hstocked.buffer leaf hleaf.mem view hview
  have hcached := fetched_buffer hstocked hbuffer
  rw [hid] at hcached
  have hwindow : FormatContext.windowOf (fetched snapshot) fuel snapshot.session (some paneId) =
      .ok (index, tab.title.toList) := by
    simp only [FormatContext.windowOf, fetched_node h hroot, Option.bind_some, hkind, htabs, if_true,
      rootTabPosition, hheld, Answer.bind_ok, Option.getD_some, htab, Option.map_some]
    rfl
  generalize hanswer : FormatContext.fromState (fetched snapshot) fuel snapshot.session.id (some paneId)
    (some base) = answer
  simp only [FormatContext.fromState, fetched_session, Answer.ofOption_some, Answer.bind_ok, Option.some_or,
    hwindow, fetched_node h hroot, fetched_node h hleaf, hview, hcached, Option.bind_some, htabs, htab,
    Option.map_some, visibleLeaves_fetched h hleaves] at hanswer
  subst hanswer
  refine ⟨_, rfl, ?_⟩
  constructor
  case bufferId => exact congrArg some hid
  all_goals rfl

section Texts

variable {context : FormatContext} {base : UInt32} {index j : ℕ} {childId paneId : NodeId}
  {leaves : List NodeId} {bufferId : BufferId}

/-- A window number and a pane number. -/
def numbersText (base : UInt32) (index j : ℕ) : List Char :=
  decimal (index + base.toNat) ++ '.' :: decimal j

theorem Names.expand_paneId (h : Names context snapshot base index childId leaves paneId bufferId)
    (extra : Table String String) : expandFormat { context with extra } "#\x7bpane_id\x7d".toList =
      '%' :: decimal bufferId.raw.toNat := by
  change FormatContext.idText ['%'] context.bufferId ++ [] = _
  rw [h.bufferId, List.append_nil]
  rfl

theorem Names.expand_nodeId (h : Names context snapshot base index childId leaves paneId bufferId)
    (extra : Table String String) : expandFormat { context with extra } "#\x7bnode_id\x7d".toList =
      decimal paneId.raw.toNat := by
  change FormatContext.idText [] context.paneId ++ [] = _
  rw [h.paneId, List.append_nil]
  rfl

theorem Names.expand_windowId (h : Names context snapshot base index childId leaves paneId bufferId)
    (extra : Table String String) : expandFormat { context with extra } "#\x7bwindow_id\x7d".toList =
      '@' :: decimal childId.raw.toNat := by
  change FormatContext.idText ['@'] context.windowId ++ [] = _
  rw [h.windowId, List.append_nil]
  rfl

theorem Names.expand_numbers (h : Names context snapshot base index childId leaves paneId bufferId)
    (hj : leaves.idxOf? paneId = some j) (extra : Table String String) :
    expandFormat { context with extra }
      "#\x7bsession_id\x7d:#\x7bwindow_index\x7d.#\x7bpane_index\x7d".toList =
      ('$' :: decimal snapshot.session.id.raw.toNat) ++ ':' :: numbersText base index j := by
  change FormatContext.idText ['$'] context.sessionId ++ (':' :: (decimal context.windowIndex ++
    ('.' :: ((context.paneIndex.map decimal).getD [] ++ [])))) = _
  rw [h.sessionId, h.windowIndex, h.paneIndex, hj, List.append_nil]
  rfl

theorem Names.expand_named (h : Names context snapshot base index childId leaves paneId bufferId)
    (hj : leaves.idxOf? paneId = some j) (extra : Table String String) :
    expandFormat { context with extra }
      "=#\x7bsession_name\x7d:#\x7bwindow_index\x7d.#\x7bpane_index\x7d".toList =
      ('=' :: snapshot.session.name.toList) ++ ':' :: numbersText base index j := by
  change '=' :: (context.sessionName ++ (':' :: (decimal context.windowIndex ++
    ('.' :: ((context.paneIndex.map decimal).getD [] ++ []))))) = _
  rw [h.sessionName, h.windowIndex, h.paneIndex, hj, List.append_nil]
  rfl

end Texts

end

/-! ## Resolving -/

section

variable {w : Connection} {rank : NodeId → ℕ} {depth fuel : ℕ} {snapshot : SessionSnapshot}

/-- The session of a snapshot is known by its id. -/
theorem sessionSnapshot_ok (hw : Consistent w) (hmem : snapshot ∈ w.snapshots) :
    w.sessionSnapshot snapshot.session.id = .ok snapshot := by
  rw [Connection.sessionSnapshot]
  refine Answer.ofOption_eq_ok.mpr ?_
  have hsome : (w.snapshots.find? (·.session.id = snapshot.session.id)).isSome := by
    rw [List.find?_isSome]
    exact ⟨snapshot, hmem, decide_eq_true rfl⟩
  obtain ⟨found, hfound⟩ := Option.isSome_iff_exists.mp hsome
  have hid : found.session.id = snapshot.session.id := by
    have hfits := List.find?_some hfound
    exact of_decide_eq_true hfits
  have hids : (w.snapshots.map (·.session.id)).Nodup := by
    have hnodup := hw.sessionIds
    rwa [Connection.sessions, List.map_map] at hnodup
  rw [hfound, List.inj_on_of_nodup_map hids (List.mem_of_find?_eq_some hfound) hmem hid]

theorem findSessionContainingPane_ok (hw : Consistent w) (hmem : snapshot ∈ w.snapshots) {nodeId : NodeId}
    {node : NodeRecord} (hnode : Has snapshot nodeId node) :
    w.findSessionContainingPane nodeId = .ok snapshot := by
  have hfound : ∀ {snapshots : List SessionSnapshot}, (∀ s ∈ snapshots, s ∈ w.snapshots) →
      snapshot ∈ snapshots →
      Answer.firstSome (w.snapshotWith nodeId) (snapshots.map (·.session)) = .ok (some snapshot) := by
    intro snapshots
    induction snapshots with
    | nil => exact fun _ h ↦ absurd h List.not_mem_nil
    | cons first rest ih =>
      intro hin hrest
      have hfirst := hin first List.mem_cons_self
      rw [List.map_cons, Answer.firstSome, Connection.snapshotWith, sessionSnapshot_ok hw hfirst,
        Answer.bind_ok]
      cases hhas : nodeRecord first nodeId with
      | ok node' =>
        rw [hw.apart first hfirst snapshot hmem nodeId node' node (has_of_nodeRecord hhas) hnode]
        rfl
      | error =>
        refine ih (fun s hs ↦ hin s (List.mem_cons_of_mem first hs))
          ((List.mem_cons.mp hrest).resolve_left ?_)
        rintro rfl
        rw [hnode.nodeRecord] at hhas
        cases hhas
  rw [Connection.findSessionContainingPane, Connection.sessions, hfound (fun _ h ↦ h) hmem]
  rfl

theorem has_of_under (hintact : Intact rank depth snapshot) {childId nodeId : NodeId}
    (hchild : childId ∈ windows snapshot) (hunder : Under snapshot childId nodeId) :
    ∃ node, Has snapshot nodeId node := by
  cases hunder with
  | top =>
    obtain ⟨child, hhas, -⟩ := hintact.window_has hchild
    exact ⟨child, hhas⟩
  | link hnode => exact ⟨_, hnode⟩

theorem callerWindow_ok (hw : Consistent w)
    (hintact : ∀ snapshot ∈ w.snapshots, Intact rank depth snapshot) (hfuel : depth < fuel)
    (hmem : snapshot ∈ w.snapshots) {location : Option BufferLocation}
    (hlocation : w.paneLocation = .ok location) :
    ∃ current, Connection.callerWindow fuel snapshot location = .ok current := by
  cases hplace : location with
  | none => exact ⟨none, rfl⟩
  | some place =>
    subst hplace
    obtain ⟨placed, attachment⟩ := place
    cases attachment with
    | session sessionId nodeId =>
      rw [Connection.callerWindow]
      split
      next hid =>
        rw [Connection.paneLocation] at hlocation
        cases hbuffer : w.paneBuffer with
        | none =>
          rw [hbuffer] at hlocation
          cases hlocation
        | some bufferId =>
          rw [hbuffer] at hlocation
          obtain ⟨found, hfound, hlocation⟩ := Answer.ok_bind hlocation
          cases hlocation
          obtain ⟨_, hattached, hplaced⟩ := Option.map_eq_some_iff.mp (Answer.ofOption_eq_ok.mp hfound)
          cases hplaced
          obtain ⟨shown, hshown, hsession, childId, hchild, hunder⟩ :=
            hw.shown _ sessionId nodeId hattached
          have hsame := sessionSnapshot_ok hw hshown
          rw [hsession, hid, sessionSnapshot_ok hw hmem] at hsame
          obtain rfl := Except.ok.inj hsame
          obtain ⟨node, hnode⟩ := has_of_under (hintact _ hmem) hchild hunder
          have hrank := ((hintact _ hmem).ranked node hnode.mem).1
          rw [hnode.id] at hrank
          obtain ⟨index, hwindow, -⟩ :=
            (hintact _ hmem).windowContaining_ok hchild hunder (Nat.lt_of_le_of_lt hrank hfuel)
          exact ⟨some index, by rw [hwindow]; rfl⟩
      · exact ⟨none, rfl⟩
    | floating => exact ⟨none, rfl⟩
    | detached => exact ⟨none, rfl⟩

theorem filter_eq_singleton {α : Type} {p : α → Bool} {a : α} {l : List α} (hnodup : l.Nodup) (hmem : a ∈ l)
    (hp : p a = true) (h : ∀ b ∈ l, p b = true → b = a) : l.filter p = [a] := by
  refine List.perm_singleton.mp ((List.perm_ext_iff_of_nodup (hnodup.filter p) (List.nodup_singleton a)).mpr
    fun b ↦ ?_)
  rw [List.mem_filter, List.mem_singleton]
  constructor
  · exact fun hb ↦ h b hb.1 hb.2
  · rintro rfl
    exact ⟨hmem, hp⟩

/-- A session that is the only one to pass a test is the one found. -/
theorem onlySession_ok (hw : Consistent w) (hmem : snapshot ∈ w.snapshots) {p : SessionRecord → Bool}
    (hp : p snapshot.session = true) (h : ∀ session ∈ w.sessions, p session = true →
      session.id = snapshot.session.id) (label : String) :
    Connection.onlySession label (w.sessions.filter p) = .ok snapshot.session := by
  have hsession := mem_sessions hmem
  rw [filter_eq_singleton hw.sessionIds.of_map hsession hp fun session hin hfits ↦
    List.inj_on_of_nodup_map hw.sessionIds hin hsession (h session hin hfits)]
  rfl

theorem sessionBySpec_id (hw : Consistent w) (hmem : snapshot ∈ w.snapshots) :
    w.sessionBySpec (.id snapshot.session.id) = .ok snapshot.session :=
  onlySession_ok hw hmem (decide_eq_true rfl) (fun _ _ hfits ↦ of_decide_eq_true hfits) _

/-- The number of a window finds the window. -/
theorem windowIn_number (hintact : Intact rank depth snapshot) {childId : NodeId} {index : ℕ}
    (hindex : (windows snapshot).findIdx? (· = childId) = some index) {base : UInt32}
    (hnumber : index + base.toNat < 2 ^ 64) (current : Option ℕ) :
    windowIn snapshot (.name (decimal (index + base.toNat))) (some base) current =
      .ok (index, childId) := by
  obtain ⟨node, tabs, hroot, -, hwindows⟩ := hintact.rootTabs_ok
  rw [hwindows, List.findIdx?_map] at hindex
  obtain ⟨hlt, hfound, -⟩ := List.findIdx?_eq_some_iff_getElem.mp hindex
  have hposition : windowPosition (index + base.toNat) tabs.tabs.length base = some index := by
    rw [windowPosition, if_neg (by omega), Nat.add_sub_cancel, if_pos hlt]
  have hnamed : namedWindow tabs (decimal (index + base.toNat)) (some base) = .ok (some index) := by
    have hresolved : resolveWindowIndex tabs (decimal (index + base.toNat)) (some base) = .ok index := by
      unfold resolveWindowIndex
      simp only [parseNumber_decimal hnumber, hposition, Answer.ofOption_some]
    rw [namedWindow, hresolved]
    rfl
  rw [windowIn, hroot, Answer.bind_ok]
  simp only [windowIndex, hnamed, Answer.bind_ok, protocolTab, List.getElem?_eq_getElem hlt,
    Answer.ofOption_some]
  exact congrArg (fun id ↦ Except.ok (index, id)) (of_decide_eq_true hfound)

theorem windowBySpec_number (hw : Consistent w)
    (hintact : ∀ snapshot ∈ w.snapshots, Intact rank depth snapshot) (hfuel : depth < fuel)
    (hmem : snapshot ∈ w.snapshots) {base : UInt32} (hbase : w.baseIndexFor snapshot = some base)
    {childId : NodeId} {index : ℕ} (hindex : (windows snapshot).findIdx? (· = childId) = some index)
    (hnumber : index + base.toNat < 2 ^ 64) {spec : SessionSpec}
    (hspec : w.sessionBySpec spec = .ok snapshot.session) :
    w.windowBySpec fuel spec (.name (decimal (index + base.toNat))) = .ok ⟨snapshot, index, childId⟩ := by
  obtain ⟨location, hlocation⟩ := paneLocation_ok hw
  obtain ⟨current, hcurrent⟩ := callerWindow_ok hw hintact hfuel hmem hlocation
  rw [Connection.windowBySpec, hlocation, Answer.bind_ok, hspec, Answer.bind_ok, sessionSnapshot_ok hw hmem,
    Answer.bind_ok, hcurrent, Answer.bind_ok, hbase, windowIn_number (hintact _ hmem) hindex hnumber]
  rfl

/-- A window by its id. -/
theorem windowById_ok (hw : Consistent w) (hmem : snapshot ∈ w.snapshots)
    (hintact : Intact rank depth snapshot) {childId : NodeId} (hchild : childId ∈ windows snapshot)
    {index : ℕ} (hindex : (windows snapshot).findIdx? (· = childId) = some index) :
    w.windowById childId = .ok ⟨snapshot, index, childId⟩ := by
  obtain ⟨child, hhas, -⟩ := hintact.window_has hchild
  obtain ⟨node, tabs, hroot, -, hwindows⟩ := hintact.rootTabs_ok
  rw [hwindows, List.findIdx?_map] at hindex
  obtain ⟨hlt, hfound, -⟩ := List.findIdx?_eq_some_iff_getElem.mp hindex
  have hwindow : tabs.tabs.findIdx? (·.childId = childId) = some index := hindex
  rw [Connection.windowById, findSessionContainingPane_ok hw hmem hhas, Answer.bind_ok, windowIn, hroot,
    Answer.bind_ok]
  simp only [windowIndex, hwindow, Answer.pure_eq_ok, Answer.bind_ok, protocolTab,
    List.getElem?_eq_getElem hlt, Answer.ofOption_some]
  have hsame : tabs.tabs[index].childId = childId := of_decide_eq_true hfound
  rw [hsame]

theorem paneShowing_ok (hw : Consistent w) (hmem : snapshot ∈ w.snapshots) {paneId : NodeId}
    (hin : InWindow snapshot paneId) {leaf : NodeRecord} (hleaf : Has snapshot paneId leaf)
    {view : BufferViewRecord} (hview : leaf.bufferView = some view) :
    w.paneShowing view.bufferId = .ok ⟨snapshot, paneId, view.bufferId⟩ := by
  rw [Connection.paneShowing, Connection.getLocation, hw.located _ hmem _ _ _ hleaf hview hin,
    Option.map_some, Answer.ofOption_some, Answer.bind_ok]
  simp only [sessionSnapshot_ok hw hmem, Answer.bind_ok]
  exact resolvedPane_ok hleaf hview

theorem paneIn_index {window : ResolvedWindow} {leaves : List NodeId}
    (hleaves : visibleLeafIds window.snapshot fuel window.childId = .ok leaves) {paneId : NodeId} {j : ℕ}
    (hj : leaves[j]? = some paneId) {leaf : NodeRecord} (hleaf : Has window.snapshot paneId leaf)
    {view : BufferViewRecord} (hview : leaf.bufferView = some view) :
    w.paneIn fuel window (.index j) = .ok ⟨window.snapshot, paneId, view.bufferId⟩ := by
  rw [Connection.paneIn, hleaves, Answer.bind_ok]
  simp only [hj]
  exact resolvedPane_ok hleaf hview

/-- A session, a window number and a pane number. -/
theorem targetPane_numbers (hw : Consistent w)
    (hintact : ∀ snapshot ∈ w.snapshots, Intact rank depth snapshot) (hfuel : depth < fuel)
    (hmem : snapshot ∈ w.snapshots) {base : UInt32} (hbase : w.baseIndexFor snapshot = some base)
    {childId : NodeId} {index : ℕ} (hindex : (windows snapshot).findIdx? (· = childId) = some index)
    (hnumber : index + base.toNat < 2 ^ 64) {leaves : List NodeId}
    (hleaves : visibleLeafIds snapshot fuel childId = .ok leaves) {paneId : NodeId} {j : ℕ}
    (hj : leaves[j]? = some paneId) (hshort : j < 2 ^ 64) {leaf : NodeRecord}
    (hleaf : Has snapshot paneId leaf) {view : BufferViewRecord} (hview : leaf.bufferView = some view)
    {session : List Char} {c : Char} (hhead : session.head? = some c) (hpercent : c ≠ '%') (hat : c ≠ '@')
    (hcolon : ':' ∉ session) {spec : SessionSpec} (hparse : parseSession session = .ok spec)
    (hspec : w.sessionBySpec spec = .ok snapshot.session) :
    w.targetPane fuel (session ++ ':' :: numbersText base index j) =
      .ok ⟨snapshot, paneId, view.bufferId⟩ := by
  have hpart : ¬(spec = .current ∧ WindowSpec.name (decimal (index + base.toNat)) = .current ∧
      PaneSpec.index j = .current) := by
    rintro ⟨-, -, h⟩
    cases h
  rw [Connection.targetPane, numbersText, parse_numbers hhead hpercent hat hcolon hparse _ hshort,
    Answer.bind_ok]
  simp only [Connection.paneByTarget, if_neg hpart, windowBySpec_number hw hintact hfuel hmem hbase hindex
    hnumber hspec, Answer.bind_ok]
  exact paneIn_index hleaves hj hleaf hview

end

/-! ## What is printed is a target -/

section

variable (w : Connection) (fuel : ℕ) (extra : Table String String)

/-- What the template prints for a pane, read as a pane target, is the pane. -/
def PrintsPane (pane : ResolvedPane) (template : List Char) : Prop :=
  ∃ text, w.expandForPane fuel pane.snapshot (some pane.leafId) extra template = .ok text ∧
    w.targetPane fuel text = .ok pane

/-- The targets that can be printed for a pane and its window. -/
structure PrintsTargets (pane : ResolvedPane) (window : ResolvedWindow) : Prop where
  buffer : PrintsPane w fuel extra pane "#\x7bpane_id\x7d".toList
  node : PrintsPane w fuel extra pane "#\x7bnode_id\x7d".toList
  numbers : PrintsPane w fuel extra pane
    "#\x7bsession_id\x7d:#\x7bwindow_index\x7d.#\x7bpane_index\x7d".toList
  /-- Unless the name has a colon, or another session has it too. -/
  named (hcolon : ':' ∉ pane.snapshot.session.name.toList)
    (honly : ∀ session ∈ w.sessions, session.name = pane.snapshot.session.name →
      session.id = pane.snapshot.session.id) : PrintsPane w fuel extra pane
    "=#\x7bsession_name\x7d:#\x7bwindow_index\x7d.#\x7bpane_index\x7d".toList
  window : ∃ text, w.expandForPane fuel pane.snapshot (some pane.leafId) extra
    "#\x7bwindow_id\x7d".toList = .ok text ∧ w.targetWindow fuel text = .ok window

end

/-- In consistent sessions whose windows are numbered from a base: what the formats print for a pane that
its window shows are targets of this pane, and of this window. A list has at most `2⁶³` entries. -/
theorem printsTargets_of_visible {w : Connection} (hw : Consistent w)
    (hstocked : ∀ snapshot ∈ w.snapshots, Stocked snapshot) :
    ∃ enough, ∀ fuel ≥ enough, ∀ snapshot ∈ w.snapshots, ∀ base, w.baseIndexFor snapshot = some base →
      ∀ childId ∈ windows snapshot, ∀ leaves, visibleLeafIds snapshot fuel childId = .ok leaves →
        (windows snapshot).length ≤ 2 ^ 63 → leaves.length ≤ 2 ^ 63 → ∀ paneId ∈ leaves, ∀ extra,
          ∃ bufferId index, PrintsTargets w fuel extra ⟨snapshot, paneId, bufferId⟩
            ⟨snapshot, index, childId⟩ := by
  obtain ⟨rank, depth, hintact⟩ := hw.intact
  refine ⟨depth + 1, fun fuel hfuel snapshot hmem base hbase childId hchild leaves hleaves hwindows hlength
    paneId hpane extra ↦ ?_⟩
  have hsnapshot := hintact snapshot hmem
  obtain ⟨hunder, leaf, view, hleaf, -, hview⟩ := hsnapshot.under_of_mem_visibleLeafIds hleaves hpane
  have hsome : ((windows snapshot).findIdx? (· = childId)).isSome := by
    rw [List.findIdx?_isSome]
    exact List.any_eq_true.mpr ⟨childId, hchild, decide_eq_true rfl⟩
  obtain ⟨index, hindex⟩ := Option.isSome_iff_exists.mp hsome
  obtain ⟨hlt, -⟩ := List.findIdx?_eq_some_iff_getElem.mp hindex
  have hnumber : index + base.toNat < 2 ^ 64 := by
    have hbound := base.toNat_lt
    omega
  obtain ⟨j, hj⟩ := Option.isSome_iff_exists.mp (List.isSome_idxOf?.mpr hpane)
  have hpaneAt : leaves[j]? = some paneId := by
    obtain ⟨hlt, hfound, -⟩ := List.idxOf?_eq_some_iff.mp hj
    rw [List.getElem?_eq_getElem hlt, hfound]
  have hshort : j < 2 ^ 64 := by
    have hbound := (List.getElem?_eq_some_iff.mp hpaneAt).1
    omega
  obtain ⟨context, hcontext, hnames⟩ := fromState_fetched hsnapshot (hstocked snapshot hmem) base
    hchild (Nat.lt_of_succ_le hfuel) hleaves hpane hindex hleaf hview
  have hprints (template : List Char) : w.expandForPane fuel snapshot (some paneId) extra template =
      .ok (expandFormat { context with extra } template) := by
    rw [Connection.expandForPane, hbase]
    exact congrArg (fun answer : Answer Unit FormatContext ↦
      answer >>= fun context ↦ pure (expandFormat { context with extra } template)) hcontext
  have hnumbers {session : List Char} {c : Char} (hhead : session.head? = some c) :=
    targetPane_numbers hw hintact (Nat.lt_of_succ_le hfuel) hmem hbase hindex hnumber hleaves hpaneAt hshort
      hleaf hview hhead
  refine ⟨view.bufferId, index, ?_, ?_, ?_, fun hcolon honly ↦ ?_, ?_⟩
  · refine ⟨_, (hprints _).trans (congrArg _ (hnames.expand_paneId extra)), ?_⟩
    rw [Connection.targetPane, parse_buffer, Answer.bind_ok]
    exact paneShowing_ok hw hmem ⟨childId, hchild, hunder⟩ hleaf hview
  · refine ⟨_, (hprints _).trans (congrArg _ (hnames.expand_nodeId extra)), ?_⟩
    rw [Connection.targetPane, parse_node, Answer.bind_ok, Connection.paneByTarget,
      findSessionContainingPane_ok hw hmem hleaf, Answer.bind_ok]
    exact resolvedPane_ok hleaf hview
  · refine ⟨_, (hprints _).trans (congrArg _ (hnames.expand_numbers hj extra)), ?_⟩
    refine hnumbers rfl (by decide) (by decide) ?_ (parseSession_id _) (sessionBySpec_id hw hmem)
    rw [List.mem_cons, not_or]
    exact ⟨by decide, notMem_decimal rfl _⟩
  · refine ⟨_, (hprints _).trans (congrArg _ (hnames.expand_named hj extra)), ?_⟩
    have hspec : w.sessionBySpec (.exact snapshot.session.name.toList) = .ok snapshot.session :=
      onlySession_ok hw hmem (decide_eq_true rfl) (fun session hsession hfits ↦ honly session hsession
        (String.ext (of_decide_eq_true hfits))) _
    refine hnumbers rfl (by decide) (by decide) ?_ (parseSession_exact _) hspec
    rw [List.mem_cons, not_or]
    exact ⟨by decide, hcolon⟩
  · refine ⟨_, (hprints _).trans (congrArg _ (hnames.expand_windowId extra)), ?_⟩
    rw [Connection.targetWindow, parse_window, Answer.bind_ok]
    exact windowById_ok hw hmem hsnapshot hchild hindex

/-! ### Two sessions -/

/-- A running shell shown by a pane. -/
def shellRecord (bufferId : BufferId) (nodeId : NodeId) : Protocol.BufferRecord where
  id := bufferId
  title := "shell"
  command := ["sh"]
  cwd := none
  pipe := none
  kind := .pty
  state := .running
  pid := none
  attachmentNodeId := some nodeId
  readOnly := false
  helperSourceBufferId := none
  helperScope := none
  ptySize := ⟨80, 24, 0, 0⟩
  activity := .idle
  lastSnapshotSeq := 0
  exitCode := none
  env := ∅
  userOptions := ∅
  foregroundCommand := none
  bellSequence := 0
  host := none

def paneRecord (nodeId parentId : NodeId) (sessionId : SessionId) (bufferId : BufferId) : NodeRecord :=
  ⟨nodeId, sessionId, some parentId, .bufferView, some ⟨bufferId, false, false, true, ⟨80, 24, 0, 0⟩⟩, none,
    none, some nodeId⟩

/-- A session whose first window is a split of two panes, and whose second is one pane. -/
def workSession : SessionSnapshot where
  session := ⟨⟨1⟩, "work", ⟨1⟩, [], some ⟨4⟩, none, none, some ⟨80, 24⟩, some 1, false⟩
  nodes := [
    ⟨⟨1⟩, ⟨1⟩, none, .tabs, none, none, some ⟨0, [⟨"edit", ⟨2⟩, false⟩, ⟨"build", ⟨5⟩, false⟩]⟩, some ⟨4⟩⟩,
    ⟨⟨2⟩, ⟨1⟩, some ⟨1⟩, .split, none, some ⟨.vertical, [⟨3⟩, ⟨4⟩], [1, 1]⟩, none, some ⟨4⟩⟩,
    paneRecord ⟨3⟩ ⟨2⟩ ⟨1⟩ ⟨1⟩, paneRecord ⟨4⟩ ⟨2⟩ ⟨1⟩ ⟨2⟩, paneRecord ⟨5⟩ ⟨1⟩ ⟨1⟩ ⟨3⟩]
  buffers := [shellRecord ⟨1⟩ ⟨3⟩, shellRecord ⟨2⟩ ⟨4⟩, shellRecord ⟨3⟩ ⟨5⟩]
  floating := []

/-- Another session, with one pane. -/
def logSession : SessionSnapshot where
  session := ⟨⟨2⟩, "log", ⟨6⟩, [], some ⟨7⟩, none, none, some ⟨80, 24⟩, none, false⟩
  nodes := [
    ⟨⟨6⟩, ⟨2⟩, none, .tabs, none, none, some ⟨0, [⟨"tail", ⟨7⟩, false⟩]⟩, some ⟨7⟩⟩,
    paneRecord ⟨7⟩ ⟨6⟩ ⟨2⟩ ⟨4⟩]
  buffers := [shellRecord ⟨4⟩ ⟨7⟩]
  floating := []

/-- Where the panes are. -/
def placedPanes : List (BufferId × SessionId × NodeId) :=
  [(⟨1⟩, ⟨1⟩, ⟨3⟩), (⟨2⟩, ⟨1⟩, ⟨4⟩), (⟨3⟩, ⟨1⟩, ⟨5⟩), (⟨4⟩, ⟨2⟩, ⟨7⟩)]

/-- A server with both sessions, asked from the pane of the second. -/
def twoSessions : Connection where
  snapshots := [workSession, logSession]
  location bufferId := (placedPanes.find? (·.1 = bufferId)).map fun placed ↦ .session placed.2.1 placed.2.2
  baseIndex := none
  defaultSession := none
  paneBuffer := some ⟨4⟩

theorem intact_twoSessions :
    ∀ snapshot ∈ twoSessions.snapshots, Intact (fun nodeId ↦ nodeId.raw.toNat) 7 snapshot := by
  have hlinked : ∀ snapshot ∈ twoSessions.snapshots, ∀ node ∈ snapshot.nodes, ∀ childId ∈ childrenOf node,
      ∃ child ∈ snapshot.nodes.find? (·.id = childId), child.parentId = some node.id := by decide
  have hranked : ∀ snapshot ∈ twoSessions.snapshots, ∀ node ∈ snapshot.nodes, node.id.raw.toNat ≤ 7 ∧
      ∀ parentId ∈ node.parentId, parentId.raw.toNat < node.id.raw.toNat := by decide
  have hnodup : ∀ snapshot ∈ twoSessions.snapshots, (snapshot.nodes.map (·.id)).Nodup := by decide
  intro snapshot hsnapshot
  refine ⟨hnodup snapshot hsnapshot, ?_, ?_, hlinked snapshot hsnapshot, hranked snapshot hsnapshot⟩ <;>
    simp only [twoSessions, List.mem_cons, List.not_mem_nil, or_false] at hsnapshot <;>
      obtain rfl | rfl := hsnapshot
  · exact ⟨_, rfl, rfl, rfl⟩
  · exact ⟨_, rfl, rfl, rfl⟩
  · intro node hnode
    simp only [workSession, List.mem_cons, List.not_mem_nil, or_false] at hnode
    obtain rfl | rfl | rfl | rfl | rfl := hnode
    · exact ⟨_, rfl, fun hne ↦ absurd rfl hne⟩
    · exact ⟨_, rfl, List.cons_ne_nil _ _⟩
    · rfl
    · rfl
    · rfl
  · intro node hnode
    simp only [logSession, List.mem_cons, List.not_mem_nil, or_false] at hnode
    obtain rfl | rfl := hnode
    · exact ⟨_, rfl, fun hne ↦ absurd rfl hne⟩
    · rfl

theorem consistent_twoSessions : Consistent twoSessions where
  sessionIds := by decide
  intact := ⟨_, _, intact_twoSessions⟩
  apart := by
    have happart : ∀ first ∈ twoSessions.snapshots, ∀ second ∈ twoSessions.snapshots,
        ∀ node ∈ first.nodes, ∀ node' ∈ second.nodes, node.id = node'.id → first = second := by decide
    intro first hfirst second hsecond nodeId node node' hnode hnode'
    exact happart first hfirst second hsecond node hnode.mem node' hnode'.mem (hnode.id.trans hnode'.id.symm)
  located := by
    have hlocated : ∀ snapshot ∈ twoSessions.snapshots, ∀ node ∈ snapshot.nodes, ∀ view ∈ node.bufferView,
        twoSessions.location view.bufferId = some (.session snapshot.session.id node.id) := by decide
    intro snapshot hsnapshot nodeId node view hnode hview _
    rw [← hnode.id]
    exact hlocated snapshot hsnapshot node hnode.mem view hview
  shown := by
    have hwork : windows workSession = [⟨2⟩, ⟨5⟩] := by decide
    have hlog : windows logSession = [⟨7⟩] := by decide
    have hfirst : workSession ∈ twoSessions.snapshots := List.mem_cons_self
    have hsecond : logSession ∈ twoSessions.snapshots := List.mem_cons_of_mem _ List.mem_cons_self
    intro bufferId sessionId nodeId hlocation
    obtain ⟨placed, hplaced, heq⟩ := Option.map_eq_some_iff.mp hlocation
    cases heq
    have hmem := List.mem_of_find?_eq_some hplaced
    simp only [placedPanes, List.mem_cons, List.not_mem_nil, or_false] at hmem
    obtain rfl | rfl | rfl | rfl := hmem
    · exact ⟨workSession, hfirst, rfl, ⟨2⟩, by simp [hwork], .link (by rfl) rfl .top⟩
    · exact ⟨workSession, hfirst, rfl, ⟨2⟩, by simp [hwork], .link (by rfl) rfl .top⟩
    · exact ⟨workSession, hfirst, rfl, ⟨5⟩, by simp [hwork], .top⟩
    · exact ⟨logSession, hsecond, rfl, ⟨7⟩, by simp [hlog], .top⟩
  caller bufferId h := by
    cases h
    rfl

/-- What is printed for the second pane of the split finds it, also from another session. -/
theorem printsTargets_secondPane : ∃ fuel bufferId index, PrintsTargets twoSessions fuel ∅
    ⟨workSession, ⟨4⟩, bufferId⟩ ⟨workSession, index, ⟨2⟩⟩ := by
  have hstocked : ∀ snapshot ∈ twoSessions.snapshots, Stocked snapshot := by
    have hnodup : ∀ snapshot ∈ twoSessions.snapshots, (snapshot.buffers.map (·.id)).Nodup := by decide
    have hbuffer : ∀ snapshot ∈ twoSessions.snapshots, ∀ node ∈ snapshot.nodes, ∀ view ∈ node.bufferView,
        ∃ buffer ∈ snapshot.buffers, buffer.id = view.bufferId := by decide
    exact fun snapshot hsnapshot ↦ ⟨hnodup snapshot hsnapshot, hbuffer snapshot hsnapshot⟩
  obtain ⟨enough, hprints⟩ := printsTargets_of_visible consistent_twoSessions hstocked
  have hleaves : visibleLeafIds workSession (enough + 2) ⟨2⟩ = .ok [⟨3⟩, ⟨4⟩] := rfl
  obtain ⟨bufferId, index, htargets⟩ := hprints (enough + 2) (by omega) workSession List.mem_cons_self 1
    rfl ⟨2⟩ (by decide) [⟨3⟩, ⟨4⟩] hleaves (by decide) (by decide) ⟨4⟩ (by decide) ∅
  exact ⟨_, bufferId, index, htargets⟩

end Cli

end Embers
