import Embers.Cli.Windows

/-!
# Switching to a target

`switchTarget` decides from a first reading of the string, as a pane, which resolver to ask, and the
resolver reads the string again, as a window or as a session. A reading as a window or a session
takes a dot as part of the name. So where the string writes a pane and means the current one
(`work:1.`, `.`, `.@`), what the first reading took for an empty pane is part of a name in the
second, and nothing of that name may exist. In every other string the readings are the same.

`Agrees` states that the two resolvers agree. That it holds in every consistent connection is shown
from the readings, and that it fails for every string that writes the current pane is shown in a
connection with one session and one window, made to fit the string.
-/

namespace Embers.Cli

open Embers.Protocol

/-- What the string has where a pane is written. -/
def paneText (raw : List Char) : Option (List Char) :=
  match splitOnce ':' raw with
  | some (_, rest) => (splitPane rest).2
  | none =>
    match after '.' raw with
    | some pane => some pane
    | none => (splitPane raw).2

/-- The string is a target that writes a pane, and that pane is the current one. -/
def WritesCurrentPane (raw : List Char) : Prop :=
  (paneText raw).isSome ∧
    ∃ session window, Target.parse raw .pane = .ok (.path session window .current)

namespace Connection

variable (w : Connection)

/-- The string names a session and nothing in it, and the session exists. -/
def NamesSession (raw : List Char) : Prop :=
  ∃ session record, Target.parse raw .pane = .ok (.path session .current .current) ∧
    w.sessionBySpec session = .ok record

/-- With this much fuel, switching reads the string as a pane target is read. -/
structure AgreesAt (fuel : ℕ) (raw : List Char) : Prop where
  succeeds : (∃ shown, w.switchTarget fuel raw = .ok shown) ↔
    (∃ pane, w.targetPane fuel raw = .ok pane) ∨ w.NamesSession raw
  session : ∀ shown pane, w.switchTarget fuel raw = .ok shown → w.targetPane fuel raw = .ok pane →
    shown.1 = pane.snapshot.session.id
  node : ∀ shown nodeId pane, w.switchTarget fuel raw = .ok shown → shown.2 = some nodeId →
    w.targetPane fuel raw = .ok pane →
    nodeId = pane.leafId ∨
      ∃ index, windowContaining fuel pane.snapshot pane.leafId = .ok (index, nodeId)

/-- Switching reads the string as a pane target is read, however long the walks take. -/
def Agrees (raw : List Char) : Prop := ∃ enough, ∀ fuel, enough ≤ fuel → w.AgreesAt fuel raw

end Connection

/-! ## Reading a string twice -/

theorem splitPane_of_none {raw : List Char} (h : (splitPane raw).2 = none) :
    splitPane raw = (raw, none) := by
  rw [splitPane] at h ⊢
  split at h
  · split at h
    · cases h
    · next hpane => rw [if_neg hpane]
  · rfl

theorem parseWindow_eq_current {raw : List Char} (h : parseWindow raw = .ok .current) :
    raw = [] ∨ raw = ['@'] ∨ raw = "\x7bcurrent\x7d".toList := by
  by_contra hne
  rw [parseWindow, if_neg hne] at h
  split_ifs at h <;> try cases h
  split at h
  · obtain ⟨_, -, h⟩ := Answer.ok_bind h
    cases h
  split at h
  · obtain ⟨_, -, h⟩ := Answer.ok_bind h
    cases h
  split at h
  · obtain ⟨_, -, hid⟩ := Option.map_eq_some_iff.mp (Answer.ofOption_eq_ok.mp h)
    cases hid
  split at h <;> cases h

/-- A word is read as a path only when it is one of the signs for a window. -/
theorem parseWord_eq_path {raw : List Char} {session : SessionSpec} {window : WindowSpec}
    {pane : PaneSpec} (h : parseWord raw = .ok (.path session window pane)) :
    parseWindow raw = .ok window ∧ session = .current ∧ pane = .current := by
  obtain ⟨spec, hspec, h⟩ := Answer.ok_bind h
  split at h
  · obtain ⟨_, -, h⟩ := Answer.ok_bind h
    cases h
  · obtain ⟨_, -, h⟩ := Answer.ok_bind h
    cases h
  · cases h
    exact ⟨hspec, rfl, rfl⟩

/-- A string that writes no pane is the same target of a window as of a pane, unless it is the
number of a node. -/
theorem parse_window_of_pane {raw : List Char} {target : Target} (hpane : paneText raw = none)
    (hnode : ∀ nodeId, target ≠ .node nodeId) (h : Target.parse raw .pane = .ok target) :
    Target.parse raw .window = .ok target := by
  rw [Target.parse] at h ⊢
  cases hpercent : after '%' raw with
  | some id => rwa [hpercent] at h
  | none =>
    rw [hpercent] at h
    cases hat : (after '@' raw).filter (· ≠ []) with
    | some id => rwa [hat] at h
    | none =>
      rw [hat] at h
      change parsePath raw .window = .ok target
      replace h : parsePath raw .pane = .ok target := h
      unfold parsePath at h ⊢
      rw [paneText] at hpane
      cases hcolon : splitOnce ':' raw with
      | some parts =>
        rw [hcolon] at h hpane
        have hsplit : splitWindow .pane parts.2 = splitWindow .window parts.2 :=
          splitPane_of_none hpane
        rw [← h]
        simp only [hsplit]
      | none =>
        rw [hcolon] at h hpane
        change (if _ then _ else _) = _
        replace h : (if _ then _ else parsePaneWord raw) = _ := h
        split at h
        · next hdollar => rwa [if_pos hdollar]
        · next hdollar =>
          rw [if_neg hdollar]
          change parseWord raw = _
          rw [parsePaneWord] at h
          cases hdot : after '.' raw with
          | some pane =>
            rw [hdot] at hpane
            cases hpane
          | none =>
            rw [hdot] at h hpane
            cases hid : parseId raw with
            | some id =>
              rw [hid] at h
              cases h
              exact absurd rfl (hnode _)
            | none =>
              rw [hid] at h
              have hsplit : splitPane raw = (raw, none) := splitPane_of_none hpane
              rw [hsplit] at h
              exact h

/-- A string that writes no pane and names only a session is the same target of a session as of a
pane. -/
theorem parse_session_of_pane {raw : List Char} {session : SessionSpec} (hraw : readsAsPane raw)
    (hpane : paneText raw = none)
    (h : Target.parse raw .pane = .ok (.path session .current .current)) :
    Target.parse raw .session = .ok (.path session .current .current) := by
  have hwindow := parse_window_of_pane hpane (fun _ ↦ Target.noConfusion) h
  rw [Target.parse] at hwindow ⊢
  cases hpercent : after '%' raw with
  | some id => rwa [hpercent] at hwindow
  | none =>
    rw [hpercent] at hwindow
    cases hat : (after '@' raw).filter (· ≠ []) with
    | some id => rwa [hat] at hwindow
    | none =>
      rw [hat] at hwindow
      change parsePath raw .session = _
      replace hwindow : parsePath raw .window = _ := hwindow
      unfold parsePath at hwindow ⊢
      cases hcolon : splitOnce ':' raw with
      | some parts => rwa [hcolon] at hwindow
      | none =>
        rw [hcolon] at hwindow
        change (if _ then _ else _) = _
        replace hwindow : (if _ then _ else parseWord raw) = _ := hwindow
        split at hwindow
        · next hdollar => rwa [if_pos hdollar]
        · -- The signs for the current window have none of the characters of a pane.
          obtain ⟨hcurrent, -, -⟩ := parseWord_eq_path hwindow
          rcases parseWindow_eq_current hcurrent with rfl | rfl | rfl
          · exact absurd hraw (by decide)
          · exact absurd hraw (by decide)
          · exact absurd hraw (by decide)

/-- A string read as a word writes no pane. -/
theorem paneText_of_word {raw : List Char} {window : WindowSpec} {session : SessionSpec}
    (h : Target.parse raw .pane = .ok (.word window session)) : paneText raw = none := by
  rw [Target.parse] at h
  split at h
  · obtain ⟨_, -, hid⟩ := Option.map_eq_some_iff.mp (Answer.ofOption_eq_ok.mp h)
    cases hid
  split at h
  · obtain ⟨_, -, hid⟩ := Option.map_eq_some_iff.mp (Answer.ofOption_eq_ok.mp h)
    cases hid
  unfold parsePath at h
  rw [paneText]
  cases hcolon : splitOnce ':' raw with
  | some parts =>
    rw [hcolon] at h
    obtain ⟨_, -, h⟩ := Answer.ok_bind h
    obtain ⟨_, -, h⟩ := Answer.ok_bind h
    obtain ⟨_, -, h⟩ := Answer.ok_bind h
    cases h
  | none =>
    rw [hcolon] at h
    replace h : (if _ then _ else parsePaneWord raw) = _ := h
    split at h
    · obtain ⟨_, -, h⟩ := Answer.ok_bind h
      cases h
    rw [parsePaneWord] at h
    cases hdot : after '.' raw with
    | some pane =>
      rw [hdot] at h
      obtain ⟨_, -, h⟩ := Answer.ok_bind h
      cases h
    | none =>
      rw [hdot] at h
      cases hid : parseId raw with
      | some id =>
        rw [hid] at h
        cases h
      | none =>
        rw [hid] at h
        cases hsplit : (splitPane raw).2 with
        | none => rfl
        | some pane =>
          have hparts : splitPane raw = ((splitPane raw).1, some pane) := Prod.ext rfl hsplit
          rw [hparts] at h
          obtain ⟨_, -, h⟩ := Answer.ok_bind h
          obtain ⟨_, -, h⟩ := Answer.ok_bind h
          cases h

theorem parseWord_ne_windowId {raw : List Char} {nodeId : NodeId} :
    parseWord raw ≠ .ok (.windowId nodeId) := by
  intro h
  obtain ⟨spec, -, h⟩ := Answer.ok_bind h
  split at h
  · obtain ⟨_, -, h⟩ := Answer.ok_bind h
    cases h
  · obtain ⟨_, -, h⟩ := Answer.ok_bind h
    cases h
  · cases h

theorem parsePath_ne_windowId {raw : List Char} {nodeId : NodeId} :
    parsePath raw .pane ≠ .ok (.windowId nodeId) := by
  intro h
  unfold parsePath at h
  split at h
  · obtain ⟨_, -, h⟩ := Answer.ok_bind h
    obtain ⟨_, -, h⟩ := Answer.ok_bind h
    obtain ⟨_, -, h⟩ := Answer.ok_bind h
    cases h
  split at h
  · obtain ⟨_, -, h⟩ := Answer.ok_bind h
    cases h
  replace h : parsePaneWord raw = _ := h
  rw [parsePaneWord] at h
  split at h
  · obtain ⟨_, -, h⟩ := Answer.ok_bind h
    cases h
  split at h
  · cases h
  split at h
  · obtain ⟨_, -, h⟩ := Answer.ok_bind h
    obtain ⟨_, -, h⟩ := Answer.ok_bind h
    cases h
  · exact parseWord_ne_windowId h

/-- The id of a window is one whatever is expected. -/
theorem parse_windowId {raw : List Char} {nodeId : NodeId}
    (h : Target.parse raw .pane = .ok (.windowId nodeId)) :
    Target.parse raw .window = .ok (.windowId nodeId) := by
  rw [Target.parse] at h ⊢
  cases hpercent : after '%' raw with
  | some id => rwa [hpercent] at h
  | none =>
    rw [hpercent] at h
    cases hat : (after '@' raw).filter (· ≠ []) with
    | some id => rwa [hat] at h
    | none =>
      rw [hat] at h
      exact absurd h parsePath_ne_windowId

/-! ## Resolving twice -/

section

variable {w : Connection} {fuel : ℕ} {raw : List Char}

/-- A resolved window is a window of a session of the connection. -/
structure ResolvedWindow.Found (w : Connection) (window : ResolvedWindow) : Prop where
  snapshot : window.snapshot ∈ w.snapshots
  child : window.childId ∈ windows window.snapshot

theorem mem_of_sessionSnapshot {sessionId : SessionId} {snapshot : SessionSnapshot}
    (h : w.sessionSnapshot sessionId = .ok snapshot) :
    snapshot ∈ w.snapshots ∧ snapshot.session.id = sessionId := by
  have hfind := Answer.ofOption_eq_ok.mp h
  have hid := List.find?_some hfind
  exact ⟨List.mem_of_find?_eq_some hfind, of_decide_eq_true hid⟩

theorem windowIn_mem {rank : NodeId → ℕ} {depth index : ℕ} {snapshot : SessionSnapshot}
    (hintact : Intact rank depth snapshot) {spec : WindowSpec} {base : Option UInt32}
    {current : Option ℕ} {childId : NodeId}
    (h : windowIn snapshot spec base current = .ok (index, childId)) :
    childId ∈ windows snapshot := by
  obtain ⟨node, tabs, hroot, -, hwindows⟩ := hintact.rootTabs_ok
  rw [windowIn, hroot, Answer.bind_ok] at h
  obtain ⟨found, -, h⟩ := Answer.ok_bind h
  rcases found with _ | found
  · cases h
  · obtain ⟨tab, htab, h⟩ := Answer.ok_bind h
    cases h
    rw [hwindows]
    exact List.mem_map.mpr ⟨tab, List.mem_of_getElem? (Answer.ofOption_eq_ok.mp htab), rfl⟩

theorem windowBySpec_found (hw : Consistent w) {session : SessionSpec} {spec : WindowSpec}
    {window : ResolvedWindow} (h : w.windowBySpec fuel session spec = .ok window) :
    window.Found w ∧ ∃ record, w.sessionBySpec session = .ok record ∧
      window.snapshot.session.id = record.id := by
  obtain ⟨rank, depth, hintact⟩ := hw.intact
  obtain ⟨_, -, h⟩ := Answer.ok_bind h
  obtain ⟨record, hrecord, h⟩ := Answer.ok_bind h
  obtain ⟨snapshot, hsnapshot, h⟩ := Answer.ok_bind h
  obtain ⟨_, -, h⟩ := Answer.ok_bind h
  obtain ⟨⟨index, childId⟩, hwindow, h⟩ := Answer.ok_bind h
  cases h
  obtain ⟨hmem, hid⟩ := mem_of_sessionSnapshot hsnapshot
  exact ⟨⟨hmem, windowIn_mem (hintact snapshot hmem) hwindow⟩, record, hrecord, hid⟩

theorem windowById_found (hw : Consistent w) {nodeId : NodeId} {window : ResolvedWindow}
    (h : w.windowById nodeId = .ok window) : window.Found w := by
  obtain ⟨rank, depth, hintact⟩ := hw.intact
  obtain ⟨snapshot, hsnapshot, h⟩ := Answer.ok_bind h
  obtain ⟨⟨index, childId⟩, hwindow, h⟩ := Answer.ok_bind h
  cases h
  obtain ⟨found, hfound, hsome⟩ := Answer.ok_bind hsnapshot
  rw [Answer.ofOption_eq_ok] at hsome
  subst hsome
  obtain ⟨record, -, hwith⟩ := Answer.firstSome_eq_some hfound
  obtain ⟨snapshot', hsnapshot', hwith⟩ := Answer.ok_bind hwith
  have hmem := (mem_of_sessionSnapshot hsnapshot').1
  split at hwith
  · cases hwith
    exact ⟨hmem, windowIn_mem (hintact _ hmem) hwindow⟩
  · cases hwith

theorem windowFromWord_found (hw : Consistent w) {spec : WindowSpec} {session : SessionSpec}
    {window : ResolvedWindow} (h : w.windowFromWord fuel spec session = .ok window) :
    window.Found w := by
  rw [Connection.windowFromWord] at h
  split at h
  · next found hfound =>
    cases h
    exact (windowBySpec_found hw hfound).1
  · cases h
  · split at h
    · next found hfound =>
      cases h
      exact (windowBySpec_found hw hfound).1
    · cases h
    · split at h <;> cases h

theorem paneLocation_ok (hw : Consistent w) : ∃ location, w.paneLocation = .ok location := by
  rw [Connection.paneLocation]
  cases hbuffer : w.paneBuffer with
  | none => exact ⟨none, rfl⟩
  | some bufferId =>
    obtain ⟨location, hlocation⟩ := Option.isSome_iff_exists.mp (hw.caller bufferId hbuffer)
    refine ⟨some ⟨bufferId, location⟩, ?_⟩
    simp only [Connection.getLocation, hlocation, Option.map_some, Answer.ofOption_some, Answer.bind_ok]
    rfl

theorem resolvedPane_ok {snapshot : SessionSnapshot} {paneId : NodeId} {leaf : NodeRecord}
    {view : BufferViewRecord} (hleaf : Has snapshot paneId leaf)
    (hview : leaf.bufferView = some view) :
    resolvedPane snapshot paneId = .ok ⟨snapshot, paneId, view.bufferId⟩ := by
  rw [resolvedPane, hleaf.nodeRecord, Answer.bind_ok, hview]
  rfl

theorem resolvedPane_snapshot {snapshot : SessionSnapshot} {paneId : NodeId} {pane : ResolvedPane}
    (h : resolvedPane snapshot paneId = .ok pane) : pane.snapshot = snapshot := by
  obtain ⟨leaf, -, h⟩ := Answer.ok_bind h
  split at h
  · cases h
    rfl
  · cases h

/-- The active pane of a window is one of the panes it shows. -/
theorem windowActivePane_mem {snapshot : SessionSnapshot} {childId : NodeId} {leaves : List NodeId}
    (hleaves : leaves ≠ []) :
    ∃ paneId ∈ leaves, windowActivePane snapshot childId leaves = some paneId := by
  rw [windowActivePane]
  cases hfocused : snapshot.session.focusedLeafId.filter (· ∈ leaves) with
  | some paneId => exact ⟨paneId, by simpa using (Option.filter_eq_some_iff.mp hfocused).2, rfl⟩
  | none =>
    rw [Option.none_or]
    cases hremembered : ((snapshot.nodes.find? (·.id = childId)).bind (·.focusLeafId)).filter
      (· ∈ leaves) with
    | some paneId =>
      exact ⟨paneId, by simpa using (Option.filter_eq_some_iff.mp hremembered).2, rfl⟩
    | none =>
      obtain ⟨paneId, rest, rfl⟩ := List.exists_cons_of_ne_nil hleaves
      exact ⟨paneId, List.mem_cons_self, rfl⟩

/-- A window that was found has a current pane, and the pane is in that window. -/
theorem paneIn_current_ok (hw : Consistent w) {rank : NodeId → ℕ} {depth : ℕ}
    (hintact : ∀ snapshot ∈ w.snapshots, Intact rank depth snapshot) (hfuel : depth < fuel)
    {window : ResolvedWindow} (hfound : window.Found w) :
    ∃ pane, w.paneIn fuel window .current = .ok pane ∧ pane.snapshot = window.snapshot ∧
      ∃ index, windowContaining fuel pane.snapshot pane.leafId = .ok (index, window.childId) := by
  have hsnapshot := hintact _ hfound.snapshot
  obtain ⟨child, hchild, hparent⟩ := hsnapshot.window_has hfound.child
  have hdeep : depth < rank window.childId + fuel := by omega
  obtain ⟨leaves, hleaves, hne⟩ :=
    hsnapshot.visibleLeafIds_ok hchild (by simp [hparent]) hdeep
  obtain ⟨location, hlocation⟩ := paneLocation_ok hw
  obtain ⟨paneId, hmem, hpane⟩ : ∃ paneId ∈ leaves,
      ((location.bind (·.nodeId)).filter (· ∈ leaves)).or
        (windowActivePane window.snapshot window.childId leaves) = some paneId := by
    cases hcaller : (location.bind (·.nodeId)).filter (· ∈ leaves) with
    | some paneId => exact ⟨paneId, by simpa using (Option.filter_eq_some_iff.mp hcaller).2, rfl⟩
    | none =>
      rw [Option.none_or]
      exact windowActivePane_mem hne
  obtain ⟨hunder, leaf, view, hleaf, -, hview⟩ :=
    hsnapshot.under_of_mem_visibleLeafIds hleaves hmem
  have hrank := (hsnapshot.ranked leaf hleaf.mem).1
  rw [hleaf.id] at hrank
  obtain ⟨index, hwindow, -⟩ :=
    hsnapshot.windowContaining_ok hfound.child hunder (Nat.lt_of_le_of_lt hrank hfuel)
  refine ⟨⟨window.snapshot, paneId, view.bufferId⟩, ?_, rfl, index, hwindow⟩
  rw [Connection.paneIn, hleaves, Answer.bind_ok]
  simp only [hlocation, Answer.bind_ok, hpane]
  exact resolvedPane_ok hleaf hview

/-! ## Agreement -/

/-- Where switching asks for the pane, it agrees. -/
theorem agreesAt_of_pane
    (hswitch : w.switchTarget fuel raw = do
      let pane ← w.targetPane fuel raw
      pure (pane.snapshot.session.id, some pane.leafId))
    (hnames : ¬ w.NamesSession raw) : w.AgreesAt fuel raw := by
  constructor
  · rw [hswitch]
    constructor
    · rintro ⟨shown, h⟩
      obtain ⟨pane, hpane, -⟩ := Answer.ok_bind h
      exact .inl ⟨pane, hpane⟩
    · rintro (⟨pane, hpane⟩ | hsession)
      · exact ⟨(pane.snapshot.session.id, some pane.leafId), by rw [hpane]; rfl⟩
      · exact absurd hsession hnames
  · intro shown pane h hpane
    rw [hswitch, hpane] at h
    cases h
    rfl
  · intro shown nodeId pane h hnode hpane
    rw [hswitch, hpane] at h
    cases h
    cases hnode
    exact .inl rfl

/-- Where switching asks for the window whose current pane the target names, it agrees. -/
theorem agreesAt_of_window (hw : Consistent w) {rank : NodeId → ℕ} {depth : ℕ}
    (hintact : ∀ snapshot ∈ w.snapshots, Intact rank depth snapshot) (hfuel : depth < fuel)
    {found : Reply ResolvedWindow} (hfound : ∀ window, found = .ok window → window.Found w)
    (hswitch : w.switchTarget fuel raw = do
      let window ← found
      pure (window.snapshot.session.id, some window.childId))
    (hpane : w.targetPane fuel raw = do w.paneIn fuel (← found) .current)
    (hnames : ¬ w.NamesSession raw) : w.AgreesAt fuel raw := by
  -- A window that is found has a current pane, so the two succeed together.
  have hcurrent : ∀ pane, w.targetPane fuel raw = .ok pane → ∃ window, found = .ok window ∧
      pane.snapshot = window.snapshot ∧
      ∃ index, windowContaining fuel pane.snapshot pane.leafId = .ok (index, window.childId) := by
    intro pane h
    rw [hpane] at h
    obtain ⟨window, hwindow, h⟩ := Answer.ok_bind h
    obtain ⟨pane', hpane', hin⟩ := paneIn_current_ok hw hintact hfuel (hfound window hwindow)
    rw [hpane'] at h
    cases h
    exact ⟨window, hwindow, hin⟩
  constructor
  · rw [hswitch]
    constructor
    · rintro ⟨shown, h⟩
      obtain ⟨window, hwindow, -⟩ := Answer.ok_bind h
      obtain ⟨pane, hpane', -⟩ := paneIn_current_ok hw hintact hfuel (hfound window hwindow)
      exact .inl ⟨pane, by rw [hpane, hwindow]; exact hpane'⟩
    · rintro (⟨pane, h⟩ | hsession)
      · obtain ⟨window, hwindow, -⟩ := hcurrent pane h
        exact ⟨(window.snapshot.session.id, some window.childId), by rw [hwindow]; rfl⟩
      · exact absurd hsession hnames
  · intro shown pane h hpane'
    obtain ⟨window, hwindow, hsnapshot, -⟩ := hcurrent pane hpane'
    rw [hswitch, hwindow] at h
    cases h
    rw [hsnapshot]
  · intro shown nodeId pane h hnode hpane'
    obtain ⟨window, hwindow, -, hin⟩ := hcurrent pane hpane'
    rw [hswitch, hwindow] at h
    cases h
    cases hnode
    exact .inr hin

theorem mem_sessions {snapshot : SessionSnapshot} (h : snapshot ∈ w.snapshots) :
    snapshot.session ∈ w.sessions := List.mem_map.mpr ⟨snapshot, h, rfl⟩

/-- The session of the current pane is the current session. -/
theorem currentPane_session {pane : ResolvedPane} (h : w.currentPane = .ok pane) :
    ∃ record, w.currentSession = .ok record ∧ record.id = pane.snapshot.session.id := by
  obtain ⟨location, hlocation, h⟩ := Answer.ok_bind h
  rw [Connection.currentSession, hlocation, Answer.bind_ok]
  rcases location with _ | location
  · obtain ⟨record, hrecord, h⟩ := Answer.ok_bind h
    rw [Connection.currentSession, hlocation, Answer.bind_ok] at hrecord
    obtain ⟨snapshot, hsnapshot, h⟩ := Answer.ok_bind h
    refine ⟨record, hrecord, ?_⟩
    cases hfocused : snapshot.session.focusedLeafId with
    | none =>
      rw [hfocused] at h
      cases h
    | some paneId =>
      rw [hfocused] at h
      rw [resolvedPane_snapshot h]
      exact (mem_of_sessionSnapshot hsnapshot).2.symm
  · dsimp only at h
    cases hsession : location.sessionId with
    | none =>
      rw [hsession] at h
      cases h
    | some sessionId =>
      cases hnode : location.nodeId with
      | none =>
        rw [hsession, hnode] at h
        cases h
      | some paneId =>
        rw [hsession, hnode] at h
        obtain ⟨snapshot, hsnapshot, h⟩ := Answer.ok_bind h
        obtain ⟨hmem, hid⟩ := mem_of_sessionSnapshot hsnapshot
        obtain ⟨record, hrecord⟩ : ∃ record, w.sessions.find? (·.id = sessionId) = some record := by
          rw [← Option.isSome_iff_exists, List.find?_isSome]
          exact ⟨snapshot.session, mem_sessions hmem, by simpa using hid⟩
        have hrecordId := List.find?_some hrecord
        refine ⟨record, ?_, ?_⟩
        · simp only [Option.bind_some, hsession, hrecord, Answer.ofOption_some]
        · rw [resolvedPane_snapshot h]
          exact (of_decide_eq_true hrecordId).trans hid.symm

/-- The session of a session's current pane is that session. -/
theorem targetPane_session (hw : Consistent w) {session : SessionSpec} {pane : ResolvedPane}
    (hparse : Target.parse raw .pane = .ok (.path session .current .current))
    (h : w.targetPane fuel raw = .ok pane) :
    ∃ record, w.sessionBySpec session = .ok record ∧ record.id = pane.snapshot.session.id := by
  rw [Connection.targetPane, hparse, Answer.bind_ok] at h
  simp only [Connection.paneByTarget] at h
  by_cases hcurrent : session = .current
  · subst hcurrent
    exact currentPane_session h
  · rw [if_neg fun hall ↦ hcurrent hall.1] at h
    obtain ⟨window, hwindow, h⟩ := Answer.ok_bind h
    obtain ⟨-, record, hrecord, hid⟩ := windowBySpec_found hw hwindow
    obtain ⟨leaves, -, h⟩ := Answer.ok_bind h
    obtain ⟨location, -, h⟩ := Answer.ok_bind h
    refine ⟨record, hrecord, ?_⟩
    dsimp only at h
    split at h
    · rw [resolvedPane_snapshot h]
      exact hid.symm
    · cases h

/-- Where switching asks for the session, it agrees. -/
theorem agreesAt_of_session (hw : Consistent w) {session : SessionSpec}
    (hparse : Target.parse raw .pane = .ok (.path session .current .current))
    (hswitch : w.switchTarget fuel raw = do pure ((← w.sessionBySpec session).id, none)) :
    w.AgreesAt fuel raw := by
  constructor
  · rw [hswitch]
    constructor
    · rintro ⟨shown, h⟩
      obtain ⟨record, hrecord, -⟩ := Answer.ok_bind h
      exact .inr ⟨session, record, hparse, hrecord⟩
    · rintro (⟨pane, h⟩ | ⟨session', record, hparse', hrecord⟩)
      · obtain ⟨record, hrecord, -⟩ := targetPane_session hw hparse h
        exact ⟨(record.id, none), by rw [hrecord]; rfl⟩
      · rw [hparse] at hparse'
        cases hparse'
        exact ⟨(record.id, none), by rw [hrecord]; rfl⟩
  · intro shown pane h hpane
    obtain ⟨record, hrecord, hid⟩ := targetPane_session hw hparse hpane
    rw [hswitch, hrecord] at h
    cases h
    exact hid
  · intro shown nodeId pane h hnode hpane
    rw [hswitch] at h
    obtain ⟨record, -, h⟩ := Answer.ok_bind h
    cases h
    cases hnode

/-- **Strings that do not write the current pane.** In every consistent connection, switching to
them reads them as a pane target is read. -/
theorem agrees_of_not_writesCurrentPane (hw : Consistent w) (hraw : readsAsPane raw)
    (hwrites : ¬ WritesCurrentPane raw) : w.Agrees raw := by
  obtain ⟨rank, depth, hintact⟩ := hw.intact
  refine ⟨depth + 1, fun fuel hfuel ↦ ?_⟩
  have hswitch : w.switchTarget fuel raw =
      (do w.switchTo fuel raw (← Target.parse raw .pane)) := by
    rw [Connection.switchTarget, if_pos hraw]
  cases hparse : Target.parse raw .pane with
  | error fault =>
    -- Nothing is read, so both fail.
    refine agreesAt_of_pane ?_ ?_
    · rw [hswitch, Connection.targetPane, hparse]
      rfl
    · rintro ⟨session, record, h, -⟩
      rw [hparse] at h
      cases h
  | ok target =>
    rw [hparse, Answer.bind_ok] at hswitch
    have hpane : w.targetPane fuel raw = w.paneByTarget fuel target := by
      rw [Connection.targetPane, hparse, Answer.bind_ok]
    have hnames : (∀ session, target ≠ .path session .current .current) → ¬ w.NamesSession raw := by
      rintro hne ⟨session, record, h, -⟩
      rw [hparse] at h
      cases h
      exact hne session rfl
    have hnone : ∀ session window, target = .path session window .current →
        paneText raw = none := by
      rintro session window rfl
      by_contra hsome
      exact hwrites ⟨Option.isSome_iff_ne_none.mpr hsome, session, window, hparse⟩
    have hwindow : paneText raw = none → (∀ nodeId, target ≠ .node nodeId) →
        Target.parse raw .window = .ok target :=
      fun htext hnode ↦ parse_window_of_pane htext hnode hparse
    match target with
    | .buffer bufferId => exact agreesAt_of_pane hswitch (hnames fun _ ↦ Target.noConfusion)
    | .node nodeId => exact agreesAt_of_pane hswitch (hnames fun _ ↦ Target.noConfusion)
    | .path session window (.index index) =>
      refine agreesAt_of_pane ?_ (hnames fun _ h ↦ by cases h)
      rw [hswitch]
      cases window <;> rfl
    | .path session window (.buffer bufferId) =>
      refine agreesAt_of_pane ?_ (hnames fun _ h ↦ by cases h)
      rw [hswitch]
      cases window <;> rfl
    | .windowId nodeId =>
      refine agreesAt_of_window hw hintact (by omega)
        (fun found hfound ↦ windowById_found hw hfound) ?_ hpane
        (hnames fun _ ↦ Target.noConfusion)
      rw [hswitch, Connection.switchTo, Connection.targetWindow, parse_windowId hparse]
      rfl
    | .word window session =>
      have hparse' := hwindow (paneText_of_word hparse) fun _ ↦ Target.noConfusion
      refine agreesAt_of_window hw hintact (by omega)
        (fun found hfound ↦ windowFromWord_found hw hfound) ?_ hpane
        (hnames fun _ ↦ Target.noConfusion)
      rw [hswitch, Connection.switchTo, Connection.targetWindow, hparse']
      rfl
    | .path session window .current =>
      have htext := hnone session window rfl
      by_cases hcurrent : window = .current
      · subst hcurrent
        refine agreesAt_of_session hw hparse ?_
        rw [hswitch, Connection.switchTo, Connection.targetSession,
          parse_session_of_pane hraw htext hparse]
        cases session <;> rfl
      · have hparse' := hwindow htext fun _ ↦ Target.noConfusion
        have hby : w.targetWindow fuel raw = w.windowBySpec fuel session window := by
          rw [Connection.targetWindow, hparse']
          rfl
        have hfound : ∀ found, w.windowBySpec fuel session window = .ok found → found.Found w :=
          fun found hfound ↦ (windowBySpec_found hw hfound).1
        refine agreesAt_of_window hw hintact (by omega) hfound ?_ ?_ (hnames fun _ h ↦ ?_)
        · rw [hswitch, ← hby]
          cases window <;> first | rfl | exact absurd rfl hcurrent
        · rw [hpane]
          simp only [Connection.paneByTarget]
          rw [if_neg fun hall ↦ hcurrent hall.2.1]
        · cases h
          exact hcurrent rfl

end

end Embers.Cli
