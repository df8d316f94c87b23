import Embers.Cli.Switch

/-!
# A connection that fits a string

For a string that writes the current pane there is a connection in which the pane exists and
switching to it fails. It has one session with one window, and the session's id and name, the
window's node, title and number are those that the string asks for, read as a pane. Read as a window
or as a session, the string asks for a name that ends in a dot and is longer than every name there
is.
-/

namespace Embers.Cli

open Embers.Protocol

/-! ## The connection -/

def SessionSpec.askedId : SessionSpec → SessionId
  | .id sessionId => sessionId
  | _ => 0

def SessionSpec.askedName : SessionSpec → List Char
  | .exact text | .name text => text
  | _ => []

def WindowSpec.askedId : WindowSpec → NodeId
  | .id nodeId => nodeId
  | _ => 0

def WindowSpec.askedTitle : WindowSpec → List Char
  | .exact text | .name text => text
  | _ => []

/-- The number of the first window: the one asked for. -/
def WindowSpec.askedBase : WindowSpec → Option UInt32
  | .name text => (parseNumber (2 ^ 32) text).map UInt32.ofNat
  | _ => none

section

variable (session : SessionSpec) (window : WindowSpec)

/-- The id of the root, which is not that of the window. -/
def loneRootId : NodeId := ⟨window.askedId.raw + 1⟩

def loneTabs : TabsRecord := ⟨0, [⟨String.ofList window.askedTitle, window.askedId, false⟩]⟩

def loneRoot : NodeRecord where
  id := loneRootId window
  sessionId := session.askedId
  parentId := none
  kind := .tabs
  bufferView := none
  split := none
  tabs := some (loneTabs window)
  focusLeafId := none

def loneLeaf : NodeRecord where
  id := window.askedId
  sessionId := session.askedId
  parentId := some (loneRootId window)
  kind := .bufferView
  bufferView := some ⟨0, true, false, true, ⟨80, 24, 0, 0⟩⟩
  split := none
  tabs := none
  focusLeafId := none

def loneRecord : SessionRecord where
  id := session.askedId
  name := String.ofList session.askedName
  rootNodeId := loneRootId window
  floatingIds := []
  focusedLeafId := some window.askedId
  focusedFloatingId := none
  zoomedNodeId := none
  viewport := none
  baseIndex := none
  paneTitles := false

def loneSnapshot : SessionSnapshot :=
  ⟨loneRecord session window, [loneRoot session window, loneLeaf session window], [], []⟩

/-- One session with one window, as the target asks for. -/
def lone : Connection where
  snapshots := [loneSnapshot session window]
  location bufferId :=
    if bufferId = 0 then some (.session session.askedId window.askedId) else none
  baseIndex := window.askedBase
  defaultSession := none
  paneBuffer := none

end

section

variable {session : SessionSpec} {window : WindowSpec}

theorem loneRootId_ne : loneRootId window ≠ window.askedId := by
  intro h
  have hraw : window.askedId.raw + 1 = window.askedId.raw := congrArg EntityId.raw h
  have hbits := congrArg UInt64.toNat hraw
  rw [UInt64.toNat_add, UInt64.toNat_one] at hbits
  have hlt := window.askedId.raw.toNat_lt
  omega

theorem has_loneRoot :
    Has (loneSnapshot session window) (loneRootId window) (loneRoot session window) :=
  List.find?_cons_of_pos (by simp [loneRoot])

theorem has_loneLeaf :
    Has (loneSnapshot session window) window.askedId (loneLeaf session window) := by
  have hroot : decide ((loneRoot session window).id = window.askedId) = false :=
    decide_eq_false loneRootId_ne
  have hleaf : decide ((loneLeaf session window).id = window.askedId) = true := decide_eq_true rfl
  simp only [Has, loneSnapshot, List.find?_cons, hroot, hleaf]

theorem windows_lone : windows (loneSnapshot session window) = [window.askedId] := by
  rw [windows, show (loneSnapshot session window).session.rootNodeId = loneRootId window from rfl,
    show List.find? _ _ = some (loneRoot session window) from has_loneRoot]
  rfl

theorem rootTabs_lone :
    rootTabs (loneSnapshot session window) = .ok (loneRoot session window, loneTabs window) := by
  have hroot : nodeRecord (loneSnapshot session window)
      (loneSnapshot session window).session.rootNodeId = .ok (loneRoot session window) :=
    has_loneRoot.nodeRecord
  rw [rootTabs, hroot]
  rfl

/-- The root and the window are all there is. -/
theorem has_lone {nodeId : NodeId} {node : NodeRecord}
    (h : Has (loneSnapshot session window) nodeId node) :
    node = loneRoot session window ∨ node = loneLeaf session window ∧ nodeId = window.askedId := by
  have hid := h.id
  have hmem := h.mem
  simp only [loneSnapshot, List.mem_cons, List.not_mem_nil, or_false] at hmem
  rcases hmem with rfl | rfl
  · exact .inl rfl
  · exact .inr ⟨rfl, hid.symm⟩

theorem intact_lone :
    Intact (fun nodeId ↦ if nodeId = window.askedId then 1 else 0) 1
      (loneSnapshot session window) where
  nodup := by simpa [loneSnapshot, loneRoot, loneLeaf] using loneRootId_ne
  root := ⟨_, has_loneRoot, rfl, rfl⟩
  shaped := by
    intro node hnode
    simp only [loneSnapshot, List.mem_cons, List.not_mem_nil, or_false] at hnode
    rcases hnode with rfl | rfl
    · exact ⟨loneTabs window, rfl, fun hne ↦ absurd rfl hne⟩
    · rfl
  linked := by
    intro node hnode childId hchild
    simp only [loneSnapshot, List.mem_cons, List.not_mem_nil, or_false] at hnode
    rcases hnode with rfl | rfl
    · rw [show childrenOf (loneRoot session window) = [window.askedId] from rfl,
        List.mem_singleton] at hchild
      subst hchild
      exact ⟨_, has_loneLeaf, rfl⟩
    · cases hchild
  ranked := by
    intro node hnode
    simp only [loneSnapshot, List.mem_cons, List.not_mem_nil, or_false] at hnode
    rcases hnode with rfl | rfl
    · refine ⟨by split <;> omega, nofun⟩
    · refine ⟨by split <;> omega, ?_⟩
      intro parentId hparent
      cases hparent
      have hleaf : (loneLeaf session window).id = window.askedId := rfl
      rw [if_neg loneRootId_ne, if_pos hleaf]
      omega

theorem consistent_lone : Consistent (lone session window) where
  sessionIds := List.nodup_singleton _
  intact := by
    refine ⟨fun nodeId ↦ if nodeId = window.askedId then 1 else 0, 1, fun snapshot hsnapshot ↦ ?_⟩
    rw [List.mem_singleton.mp hsnapshot]
    exact intact_lone
  apart := by
    intro first hfirst second hsecond _ _ _ _ _
    rw [List.mem_singleton.mp hfirst, List.mem_singleton.mp hsecond]
  located := by
    intro snapshot hsnapshot nodeId node view hnode hview _
    rw [List.mem_singleton.mp hsnapshot] at hnode ⊢
    rcases has_lone hnode with rfl | ⟨rfl, rfl⟩
    · cases hview
    · cases hview
      rfl
  shown := by
    intro bufferId sessionId nodeId hlocation
    refine ⟨_, List.mem_singleton_self _, ?_⟩
    replace hlocation : (if _ then _ else _) = _ := hlocation
    split at hlocation
    · cases hlocation
      exact ⟨rfl, window.askedId, by rw [windows_lone]; exact List.mem_singleton_self _, .top⟩
    · cases hlocation
  caller := nofun

/-! ## The pane exists -/

theorem sessionBySpec_lone : (lone session window).sessionBySpec session =
    .ok (loneRecord session window) := by
  cases session with
  | current => rfl
  | id id =>
    have hfilter : (lone (.id id) window).sessions.filter (·.id = id) =
        [loneRecord (.id id) window] :=
      List.filter_cons_of_pos (by simp [loneRecord, loneSnapshot, SessionSpec.askedId])
    rw [Connection.sessionBySpec, hfilter]
    rfl
  | exact name =>
    have hfilter : (lone (.exact name) window).sessions.filter (·.name.toList = name) =
        [loneRecord (.exact name) window] :=
      List.filter_cons_of_pos (by simp [loneRecord, loneSnapshot, SessionSpec.askedName])
    rw [Connection.sessionBySpec, hfilter]
    rfl
  | name name =>
    have hfilter : (lone (.name name) window).sessions.filter (·.name.toList = name) =
        [loneRecord (.name name) window] :=
      List.filter_cons_of_pos (by simp [loneRecord, loneSnapshot, SessionSpec.askedName])
    rw [Connection.sessionBySpec]
    simp only [hfilter]
    rfl

theorem tabsWith_lone (p : List Char → Bool) :
    tabsWith (loneTabs window) p = if p window.askedTitle then [0] else [] := by
  have hrange : List.range (loneTabs window).tabs.length = [0] := rfl
  rw [tabsWith, hrange]
  by_cases hp : p window.askedTitle
  · rw [if_pos hp]
    exact List.filter_cons_of_pos (by simpa [loneTabs] using hp)
  · rw [if_neg hp]
    exact List.filter_cons_of_neg (by simpa [loneTabs] using hp)

/-- A number asked for is the number of the window, and any other name is its title. -/
theorem namedWindow_lone (text : List Char) :
    namedWindow (loneTabs (.name text)) text (WindowSpec.askedBase (.name text)) =
      .ok (some 0) := by
  have hindex : resolveWindowIndex (loneTabs (.name text)) text
      (WindowSpec.askedBase (.name text)) = .ok 0 := by
    cases hnumber : parseNumber (2 ^ 32) text with
    | some number =>
      obtain ⟨hlt, hany⟩ := Decimal.parse_eq_some hnumber
      have hwide : parseNumber (2 ^ 64) text = some number :=
        hany (2 ^ 64) (Nat.lt_trans hlt (by decide))
      have hbase : WindowSpec.askedBase (.name text) = some (UInt32.ofNat number) :=
        congrArg (Option.map UInt32.ofNat) hnumber
      have hposition : windowPosition number (loneTabs (.name text)).tabs.length
          (UInt32.ofNat number) = some 0 := by
        have hnat : (UInt32.ofNat number).toNat = number := UInt32.toNat_ofNat_of_lt hlt
        rw [windowPosition, hnat, if_neg (Nat.lt_irrefl number), Nat.sub_self]
        rfl
      rw [hbase]
      unfold resolveWindowIndex
      simp only [hwide, hposition, Answer.ofOption_some]
    | none =>
      have hbase : WindowSpec.askedBase (.name text) = none :=
        congrArg (Option.map UInt32.ofNat) hnumber
      have htitle : tabsWith (loneTabs (.name text)) (· = text) = [0] := by
        rw [tabsWith_lone]
        exact if_pos (by simp [WindowSpec.askedTitle])
      rw [hbase]
      unfold resolveWindowIndex
      simp only [hnumber, htitle]
      rfl
  rw [namedWindow, hindex]
  rfl

theorem windowIn_lone : windowIn (loneSnapshot session window) window window.askedBase none =
    .ok (0, window.askedId) := by
  have hindex : windowIndex (loneTabs window) window window.askedBase none = .ok (some 0) := by
    cases window with
    | current => rfl
    | start => rfl
    | last => rfl
    | next offset =>
      have hmod : (0 + offset % 1) % 1 = 0 := Nat.mod_one _
      rw [windowIndex]
      exact congrArg (fun index ↦ Except.ok (some index)) hmod
    | previous offset =>
      have hmod : (0 + 1 - offset % 1) % 1 = 0 := Nat.mod_one _
      rw [windowIndex]
      exact congrArg (fun index ↦ Except.ok (some index)) hmod
    | id nodeId =>
      rw [windowIndex]
      simp [loneTabs, WindowSpec.askedId]
    | exact text =>
      have htitle : tabsWith (loneTabs (.exact text)) (· = text) = [0] := by
        rw [tabsWith_lone]
        exact if_pos (by simp [WindowSpec.askedTitle])
      rw [windowIndex]
      simp only [exactWindow, htitle]
      rfl
    | name text => exact namedWindow_lone text
  rw [windowIn, rootTabs_lone]
  simp only [Answer.bind_ok, hindex]
  rfl

/-- The snapshot and the window base are the same for every session found. -/
theorem windowBySpec_lone {fuel : ℕ} {spec : SessionSpec} {record : SessionRecord}
    (h : (lone session window).sessionBySpec spec = .ok record)
    (hid : record.id = session.askedId) (target : WindowSpec) :
    (lone session window).windowBySpec fuel spec target = (do
      let (index, childId) ← windowIn (loneSnapshot session window) target window.askedBase none
      pure ⟨loneSnapshot session window, index, childId⟩) := by
  have hsnapshot : (lone session window).sessionSnapshot record.id =
      .ok (loneSnapshot session window) := by
    have hfind : (lone session window).snapshots.find? (·.session.id = record.id) =
        some (loneSnapshot session window) :=
      List.find?_cons_of_pos (by simp [hid, loneSnapshot, loneRecord])
    rw [Connection.sessionSnapshot, hfind]
    rfl
  have hbase : (lone session window).baseIndexFor (loneSnapshot session window) =
      window.askedBase := Option.or_none
  rw [Connection.windowBySpec, show (lone session window).paneLocation = .ok none from rfl,
    Answer.bind_ok, h, Answer.bind_ok, hsnapshot, Answer.bind_ok]
  simp only [Connection.callerWindow, hbase, Answer.pure_eq_ok, Answer.bind_ok]

/-- The pane asked for is there. -/
theorem paneByTarget_lone (fuel : ℕ) :
    (lone session window).paneByTarget (fuel + 1) (.path session window .current) =
      .ok ⟨loneSnapshot session window, window.askedId, 0⟩ := by
  have hpane : resolvedPane (loneSnapshot session window) window.askedId =
      .ok ⟨loneSnapshot session window, window.askedId, 0⟩ := resolvedPane_ok has_loneLeaf rfl
  simp only [Connection.paneByTarget]
  split
  · next hall =>
    obtain ⟨rfl, rfl, -⟩ := hall
    exact hpane
  · have hleaves : visibleLeafIds (loneSnapshot session window) (fuel + 1) window.askedId =
        .ok [window.askedId] := by
      rw [visibleLeafIds, has_loneLeaf.nodeRecord]
      rfl
    have hactive : windowActivePane (loneSnapshot session window) window.askedId
        [window.askedId] = some window.askedId := by
      have hfocused : (some window.askedId).filter (· ∈ [window.askedId]) = some window.askedId :=
        Option.filter_eq_some_iff.mpr ⟨rfl, by simp⟩
      simp only [windowActivePane, loneSnapshot, loneRecord, hfocused, Option.some_or]
    rw [windowBySpec_lone sessionBySpec_lone rfl, windowIn_lone]
    simp only [Answer.bind_ok, Answer.pure_eq_ok]
    rw [Connection.paneIn]
    simp only [hleaves, Answer.bind_ok,
      show (lone session window).paneLocation = .ok none from rfl, Option.bind_none,
      Option.filter_none, Option.none_or, hactive]
    exact hpane

end

/-! ## The second reading -/

theorem splitOnce_eq {c : Char} : ∀ {text before behind : List Char},
    splitOnce c text = some (before, behind) → text = before ++ c :: behind
  | d :: text, before, behind, h => by
    rw [splitOnce] at h
    split at h
    · next hd =>
      cases h
      rw [hd]
      rfl
    · obtain ⟨parts, hparts, h⟩ := Option.map_eq_some_iff.mp h
      cases h
      have htext : splitOnce c text = some (parts.1, parts.2) := hparts
      rw [splitOnce_eq htext]
      rfl

theorem rsplitOnce_eq {c : Char} {text before behind : List Char}
    (h : rsplitOnce c text = some (before, behind)) : text = before ++ c :: behind := by
  obtain ⟨parts, hparts, h⟩ := Option.map_eq_some_iff.mp h
  cases h
  have htext := splitOnce_eq hparts
  rw [← List.reverse_reverse text, htext]
  simp

theorem parsePane_eq_current {raw : List Char} (h : parsePane raw = .ok .current) :
    raw = [] ∨ raw = ['@'] ∨ raw = "\x7bactive\x7d".toList := by
  by_contra hne
  rw [parsePane, if_neg hne] at h
  split at h
  · obtain ⟨_, -, hid⟩ := Option.map_eq_some_iff.mp (Answer.ofOption_eq_ok.mp h)
    cases hid
  · obtain ⟨_, -, hid⟩ := Option.map_eq_some_iff.mp (Answer.ofOption_eq_ok.mp h)
    cases hid

/-- A pane separated from its window is the current one only where nothing follows the dot. -/
theorem splitPane_current {raw window pane : List Char} (h : splitPane raw = (window, some pane))
    (hpane : parsePane pane = .ok .current) : raw = window ++ ['.'] := by
  rw [splitPane] at h
  split at h
  · next before behind hsplit =>
    split at h
    · next hreads =>
      cases h
      rw [rsplitOnce_eq hsplit]
      rcases parsePane_eq_current hpane with rfl | rfl | rfl
      · rfl
      · exact absurd hreads (by decide)
      · exact absurd hreads (by decide)
    · cases h
  · cases h

theorem after_eq_some {c : Char} {text rest : List Char} (h : after c text = some rest) :
    text = c :: rest := by
  rcases text with _ | ⟨d, text⟩
  · cases h
  · rw [after] at h
    split at h
    · next hd =>
      cases h
      rw [hd]
    · cases h

theorem dot_mem_of_splitPane {raw : List Char} (h : (splitPane raw).2.isSome) : '.' ∈ raw := by
  rw [splitPane] at h
  split at h
  · next before behind hsplit =>
    rw [rsplitOnce_eq hsplit]
    exact List.mem_append_right _ List.mem_cons_self
  · cases h

theorem after_dot {c : Char} {text rest : List Char} (hc : c ≠ '.')
    (h : after c (text ++ ['.']) = some rest) :
    ∃ name, text = c :: name ∧ rest = name ++ ['.'] := by
  have htext := after_eq_some h
  rcases text with _ | ⟨d, name⟩
  · cases htext
    exact absurd rfl hc
  · cases htext
    exact ⟨name, rfl, rfl⟩

theorem parseNumber_dot (limit : ℕ) (text : List Char) :
    parseNumber limit (text ++ ['.']) = none := by
  have hmem : 46 ∈ (text ++ ['.']).map Char.toNat :=
    List.mem_map.mpr ⟨'.', List.mem_append_right _ (List.mem_singleton_self _), rfl⟩
  exact Decimal.parse_eq_none hmem (by decide) (by decide)

theorem parseId_eq_none {text : List Char} (h : '.' ∈ text) : parseId text = none := by
  rw [parseId, if_neg]
  rintro ⟨-, hall⟩
  exact absurd (List.all_eq_true.mp hall '.' h) (by decide)

/-- Read with a dot at its end, a window is a name that ends in the dot. -/
theorem parseWindow_dot {text : List Char} {spec : WindowSpec}
    (h : parseWindow (text ++ ['.']) = .ok spec) :
    spec = .name (text ++ ['.']) ∨ ∃ name, text = '=' :: name ∧ spec = .exact (name ++ ['.']) := by
  have hlast : ∀ other : List Char, other.getLast? ≠ some '.' → text ++ ['.'] ≠ other := by
    rintro other hother rfl
    exact hother (by simp)
  have hoffset : ∀ name, parseOffset (text ++ ['.']) (name ++ ['.']) =
      .fail (invalid (text ++ ['.']) "window") := by
    intro name
    rw [parseOffset, if_neg (by simp), parseNumber_dot]
    rfl
  rw [parseWindow, if_neg, if_neg, if_neg, if_neg (hlast _ (by decide)),
    if_neg (hlast _ (by decide))] at h
  rotate_left
  · rintro (heq | heq) <;> exact hlast _ (by decide) heq
  · rintro (heq | heq) <;> exact hlast _ (by decide) heq
  · rintro (heq | heq | heq) <;> exact hlast _ (by decide) heq
  split at h
  · next rest hrest =>
    obtain ⟨name, -, rfl⟩ := after_dot (by decide) hrest
    rw [hoffset] at h
    cases h
  split at h
  · next rest hrest =>
    obtain ⟨name, -, rfl⟩ := after_dot (by decide) hrest
    rw [hoffset] at h
    cases h
  split at h
  · next rest hrest =>
    obtain ⟨name, -, rfl⟩ := after_dot (by decide) hrest
    rw [parseId_eq_none (List.mem_append_right _ (List.mem_singleton_self _))] at h
    cases h
  split at h
  · next rest hrest =>
    obtain ⟨name, htext, rfl⟩ := after_dot (by decide) hrest
    cases h
    exact .inr ⟨name, htext, rfl⟩
  · cases h
    exact .inl rfl

theorem parseWindow_exact (name : List Char) : parseWindow ('=' :: name) = .ok (.exact name) := by
  have hhead : ∀ other : List Char, other.head? ≠ some '=' → '=' :: name ≠ other := by
    rintro other hother rfl
    exact hother rfl
  rw [parseWindow, if_neg, if_neg, if_neg, if_neg (hhead _ (by decide)),
    if_neg (hhead _ (by decide))]
  rotate_left
  · rintro (heq | heq) <;> exact hhead _ (by decide) heq
  · rintro (heq | heq) <;> exact hhead _ (by decide) heq
  · rintro (heq | heq | heq) <;> exact hhead _ (by decide) heq
  rfl

/-- The title asked for by a window is no longer than its text. -/
theorem askedTitle_length_le {text : List Char} {window : WindowSpec}
    (h : parseWindow text = .ok window) : window.askedTitle.length ≤ text.length := by
  rw [parseWindow] at h
  split_ifs at h <;> try (cases h; exact Nat.zero_le _)
  split at h
  · obtain ⟨_, -, h⟩ := Answer.ok_bind h
    cases h
    exact Nat.zero_le _
  split at h
  · obtain ⟨_, -, h⟩ := Answer.ok_bind h
    cases h
    exact Nat.zero_le _
  split at h
  · obtain ⟨_, -, hid⟩ := Option.map_eq_some_iff.mp (Answer.ofOption_eq_ok.mp h)
    cases hid
    exact Nat.zero_le _
  split at h
  · next name hname =>
    cases h
    rw [after_eq_some hname]
    exact Nat.le_succ _
  · cases h
    exact Nat.le_refl _

section

variable {session : SessionSpec} {window spec : WindowSpec} {text : List Char}

/-- No window has the name with the dot. -/
theorem windowIn_dot (hwindow : parseWindow text = .ok window)
    (hspec : parseWindow (text ++ ['.']) = .ok spec) (found : ℕ × NodeId) :
    windowIn (loneSnapshot session window) spec window.askedBase none ≠ .ok found := by
  intro h
  obtain ⟨_, hroot, h⟩ := Answer.ok_bind h
  rw [rootTabs_lone] at hroot
  cases hroot
  obtain ⟨index, hindex, h⟩ := Answer.ok_bind h
  have hlength := askedTitle_length_le hwindow
  rcases parseWindow_dot hspec with rfl | ⟨name, rfl, rfl⟩
  · -- Neither the whole title nor its start: the name is longer.
    have hwhole : tabsWith (loneTabs window) (· = text ++ ['.']) = [] := by
      rw [tabsWith_lone, if_neg]
      rw [decide_eq_true_iff]
      intro heq
      rw [heq, List.length_append, List.length_singleton] at hlength
      omega
    have hstart : tabsWith (loneTabs window) ((text ++ ['.']).isPrefixOf ·) = [] := by
      rw [tabsWith_lone, if_neg]
      rw [List.isPrefixOf_iff_prefix]
      intro hprefix
      have hle := hprefix.length_le
      rw [List.length_append, List.length_singleton] at hle
      omega
    obtain ⟨message, hresolve⟩ : ∃ message, resolveWindowIndex (loneTabs window)
        (text ++ ['.']) window.askedBase = .fail (.notFound message) := by
      unfold resolveWindowIndex
      simp only [parseNumber_dot, hwhole]
      rcases window.askedBase with _ | base
      · exact ⟨_, rfl⟩
      · exact ⟨_, rfl⟩
    replace hindex : namedWindow (loneTabs window) (text ++ ['.']) window.askedBase = .ok index :=
      hindex
    rw [namedWindow, hresolve] at hindex
    simp only [Answer.fail, parseNumber_dot, Option.isNone_none, if_true, hstart] at hindex
    cases hindex
  · rw [parseWindow_exact, Except.ok.injEq] at hwindow
    subst hwindow
    have hwhole : tabsWith (loneTabs (.exact name)) (· = name ++ ['.']) = [] := by
      rw [tabsWith_lone, if_neg]
      rw [decide_eq_true_iff]
      intro heq
      have hle := congrArg List.length heq
      rw [List.length_append, List.length_singleton] at hle
      exact absurd hle (Nat.ne_of_lt (Nat.lt_succ_self name.length))
    replace hindex : exactWindow (loneTabs (.exact name)) (name ++ ['.']) = .ok index := hindex
    rw [exactWindow, hwhole] at hindex
    cases hindex
    cases h

theorem windowBySpec_dot (hwindow : parseWindow text = .ok window)
    (hspec : parseWindow (text ++ ['.']) = .ok spec) {fuel : ℕ} (target : SessionSpec)
    (found : ResolvedWindow) : (lone session window).windowBySpec fuel target spec ≠ .ok found := by
  intro h
  obtain ⟨caller, hcaller, h⟩ := Answer.ok_bind h
  cases hcaller
  obtain ⟨record, -, h⟩ := Answer.ok_bind h
  obtain ⟨snapshot, hsnapshot, h⟩ := Answer.ok_bind h
  have hlone := List.mem_singleton.mp (mem_of_sessionSnapshot hsnapshot).1
  subst hlone
  obtain ⟨current, hcurrent, h⟩ := Answer.ok_bind h
  cases hcurrent
  obtain ⟨index, hindex, -⟩ := Answer.ok_bind h
  have hbase : (lone session window).baseIndexFor (loneSnapshot session window) =
      window.askedBase := Option.or_none
  rw [hbase] at hindex
  exact windowIn_dot hwindow hspec index hindex

/-- The session has no name, so no name finds it. -/
theorem sessionBySpec_ne_ok {target : SessionSpec} {record : SessionRecord} {name : List Char}
    (hname : name ≠ []) (htarget : target = .name name ∨ target = .exact name) :
    (lone .current window).sessionBySpec target ≠ .ok record := by
  have hwhole : (lone .current window).sessions.filter (·.name.toList = name) = [] :=
    List.filter_cons_of_neg (by
      simpa [loneSnapshot, loneRecord, SessionSpec.askedName] using hname.symm)
  have hstart : (lone .current window).sessions.filter (name.isPrefixOf ·.name.toList) = [] := by
    refine List.filter_cons_of_neg ?_
    rw [List.isPrefixOf_iff_prefix]
    intro hprefix
    exact hname (List.prefix_nil.mp (by
      simpa [loneSnapshot, loneRecord, SessionSpec.askedName] using hprefix))
  rcases htarget with rfl | rfl
  · simp only [Connection.sessionBySpec, hwhole, hstart, if_true]
    exact nofun
  · simp only [Connection.sessionBySpec, hwhole]
    exact nofun

/-! ## Strings that write the current pane -/

/-- How a string can write the current pane. -/
inductive CurrentPane (raw : List Char) : SessionSpec → WindowSpec → Prop
  /-- `session:window.` -/
  | path {before text : List Char} {session : SessionSpec} {window : WindowSpec}
      (hcolon : splitOnce ':' raw = some (before, text ++ ['.']))
      (hsession : parseSession before = .ok session) (hwindow : parseWindow text = .ok window) :
      CurrentPane raw session window
  /-- `.`, `.@` and `.{active}`. -/
  | pane {rest : List Char} (hcolon : splitOnce ':' raw = none) (hdot : raw = '.' :: rest) :
      CurrentPane raw .current .current
  /-- `window.` -/
  | window {text : List Char} {window : WindowSpec} (hcolon : splitOnce ':' raw = none)
      (hdollar : ¬ (raw.head? = some '$' ∧ raw.length > 1)) (hraw : raw = text ++ ['.'])
      (hwindow : parseWindow text = .ok window) : CurrentPane raw .current window

theorem currentPane_of_writes {raw : List Char} (hpane : (paneText raw).isSome)
    (h : Target.parse raw .pane = .ok (.path session window .current)) :
    after '%' raw = none ∧ (after '@' raw).filter (· ≠ []) = none ∧
      CurrentPane raw session window := by
  rw [Target.parse] at h
  split at h
  · obtain ⟨_, -, hid⟩ := Option.map_eq_some_iff.mp (Answer.ofOption_eq_ok.mp h)
    cases hid
  next hpercent =>
  split at h
  · obtain ⟨_, -, hid⟩ := Option.map_eq_some_iff.mp (Answer.ofOption_eq_ok.mp h)
    cases hid
  next hat =>
  refine ⟨hpercent, hat, ?_⟩
  rw [paneText] at hpane
  unfold parsePath at h
  cases hcolon : splitOnce ':' raw with
  | some parts =>
    rw [hcolon] at h hpane
    obtain ⟨session', hsession, h⟩ := Answer.ok_bind h
    obtain ⟨window', hwindow, h⟩ := Answer.ok_bind h
    obtain ⟨pane, hcurrent, h⟩ := Answer.ok_bind h
    cases h
    obtain ⟨text, htext⟩ := Option.isSome_iff_exists.mp hpane
    replace hcurrent : parsePaneOf (splitPane parts.2).2 = .ok .current := hcurrent
    replace htext : (splitPane parts.2).2 = some text := htext
    rw [htext] at hcurrent
    have hdot : parts.2 = (splitPane parts.2).1 ++ ['.'] :=
      splitPane_current (Prod.ext rfl htext) hcurrent
    have hparts : splitOnce ':' raw = some (parts.1, (splitPane parts.2).1 ++ ['.']) :=
      hcolon.trans (congrArg (fun rest ↦ some (parts.1, rest)) hdot)
    exact .path hparts hsession hwindow
  | none =>
    rw [hcolon] at h hpane
    replace h : (if _ then _ else parsePaneWord raw) = _ := h
    split at h
    · next hdollar =>
      -- An id after a dollar sign has no dot.
      obtain ⟨session', hsession, -⟩ := Answer.ok_bind h
      obtain ⟨rest, rfl⟩ : ∃ rest, raw = '$' :: rest := by
        rcases raw with _ | ⟨c, rest⟩
        · cases hdollar.1
        · cases hdollar.1
          exact ⟨rest, rfl⟩
      replace hpane : (splitPane ('$' :: rest)).2.isSome := hpane
      have hmem : '.' ∈ rest :=
        (List.mem_cons.mp (dot_mem_of_splitPane hpane)).resolve_left (by decide)
      replace hsession : Answer.ofOption (invalid ('$' :: rest) "session")
        ((parseId rest).map fun id ↦ SessionSpec.id ⟨id⟩) = .ok session' := hsession
      rw [parseId_eq_none hmem] at hsession
      cases hsession
    · next hdollar =>
      rw [parsePaneWord] at h
      cases hdot : after '.' raw with
      | some rest =>
        rw [hdot] at h
        obtain ⟨pane, -, h⟩ := Answer.ok_bind h
        cases h
        exact .pane hcolon (after_eq_some hdot)
      | none =>
        rw [hdot] at h hpane
        cases hid : parseId raw with
        | some id =>
          rw [hid] at h
          cases h
        | none =>
          rw [hid] at h
          obtain ⟨text, htext⟩ := Option.isSome_iff_exists.mp hpane
          have hparts : splitPane raw = ((splitPane raw).1, some text) := Prod.ext rfl htext
          rw [hparts] at h
          obtain ⟨window', hwindow, h⟩ := Answer.ok_bind h
          obtain ⟨pane, hcurrent, h⟩ := Answer.ok_bind h
          cases h
          exact .window hcolon hdollar (splitPane_current hparts hcurrent) hwindow

/-- A string without a dollar sign in front reads as a name of a session. -/
theorem parseSession_name {raw : List Char} {target : SessionSpec} (hraw : raw ≠ [])
    (hdollar : raw.head? ≠ some '$') (hexact : raw ≠ ['='])
    (h : parseSession raw = .ok target) :
    ∃ name, name ≠ [] ∧ (target = .name name ∨ target = .exact name) := by
  rw [parseSession, if_neg hraw] at h
  split at h
  · next rest hrest =>
    rw [after_eq_some hrest] at hdollar
    exact absurd rfl hdollar
  split at h
  · next name hname =>
    cases h
    refine ⟨name, ?_, .inr rfl⟩
    rintro rfl
    exact hexact (after_eq_some hname)
  · cases h
    exact ⟨raw, hraw, .inl rfl⟩

/-- No session has the name that a string without a colon is read as. -/
theorem targetSession_ne_ok {raw : List Char}
    (hreads : Target.parse raw .session = parsePath raw .session)
    (hcolon : splitOnce ':' raw = none) (hraw : raw ≠ []) (hdollar : raw.head? ≠ some '$')
    (hexact : raw ≠ ['=']) {fuel : ℕ} (record : SessionRecord) :
    (lone .current window).targetSession fuel raw ≠ .ok record := by
  intro h
  obtain ⟨target, htarget, h⟩ := Answer.ok_bind h
  rw [hreads] at htarget
  unfold parsePath at htarget
  rw [hcolon] at htarget
  replace htarget : (if raw.head? = some '$' ∧ raw.length > 1
    then (do pure (.path (← parseSession raw) .current .current) : Reply Target)
    else do pure (.path (← parseSession raw) .current .current)) = .ok target := htarget
  rw [if_neg fun hboth ↦ hdollar hboth.1] at htarget
  obtain ⟨session', hsession, htarget⟩ := Answer.ok_bind htarget
  cases htarget
  obtain ⟨name, hname, hkind⟩ := parseSession_name hraw hdollar hexact hsession
  have hnone : (lone .current window).sessionBySpec session' = .ok record := by
    rcases hkind with rfl | rfl
    · exact h
    · exact h
  exact sessionBySpec_ne_ok hname hkind hnone

theorem head_ne_dollar {raw text : List Char} (htext : raw = text ++ ['.'])
    (hdollar : ¬ (raw.head? = some '$' ∧ raw.length > 1)) : raw.head? ≠ some '$' := by
  intro hhead
  rcases text with _ | ⟨c, text⟩
  · rw [htext] at hhead
    cases hhead
  · refine hdollar ⟨hhead, ?_⟩
    rw [htext, List.length_append, List.length_cons, List.length_singleton]
    omega

/-- No window and no session has the name that a string without a colon is read as. -/
theorem targetWindow_ne_ok {raw text : List Char}
    (hreads : Target.parse raw .window = parsePath raw .window)
    (hcolon : splitOnce ':' raw = none) (hdollar : raw.head? ≠ some '$')
    (htext : raw = text ++ ['.']) (hwindow : parseWindow text = .ok window) {fuel : ℕ}
    (found : ResolvedWindow) :
    (lone .current window).targetWindow fuel raw ≠ .ok found := by
  intro h
  obtain ⟨target, htarget, h⟩ := Answer.ok_bind h
  rw [hreads] at htarget
  unfold parsePath at htarget
  rw [hcolon] at htarget
  replace htarget : (if raw.head? = some '$' ∧ raw.length > 1
    then (do pure (.path (← parseSession raw) .current .current) : Reply Target)
    else parseWord raw) = .ok target := htarget
  rw [if_neg fun hboth ↦ hdollar hboth.1] at htarget
  obtain ⟨spec, hspec, htarget⟩ := Answer.ok_bind htarget
  rw [htext] at hspec
  have hword : ∃ session', parseSession raw = .ok session' ∧ target = .word spec session' := by
    rcases parseWindow_dot hspec with rfl | ⟨name, -, rfl⟩
    · obtain ⟨session', hsession, htarget⟩ := Answer.ok_bind htarget
      cases htarget
      exact ⟨session', hsession, rfl⟩
    · obtain ⟨session', hsession, htarget⟩ := Answer.ok_bind htarget
      cases htarget
      exact ⟨session', hsession, rfl⟩
  obtain ⟨session', hsession, rfl⟩ := hword
  have hne : raw ≠ [] := by
    rintro rfl
    exact absurd htext.symm (by simp)
  have hexact : raw ≠ ['='] := by
    rintro rfl
    have hlast := congrArg List.getLast? htext
    rw [List.getLast?_concat] at hlast
    exact absurd hlast (by decide)
  obtain ⟨name, hname, hkind⟩ := parseSession_name hne hdollar hexact hsession
  replace h : (lone .current window).windowFromWord fuel spec session' = .ok found := h
  rw [Connection.windowFromWord] at h
  split at h
  · next first hfirst => exact windowBySpec_dot hwindow hspec _ first hfirst
  · cases h
  · split at h
    · next second hsecond =>
      obtain ⟨_, -, hsecond⟩ := Answer.ok_bind hsecond
      obtain ⟨record, hrecord, -⟩ := Answer.ok_bind hsecond
      exact sessionBySpec_ne_ok hname hkind hrecord
    · cases h
    · split at h <;> cases h

/-- No window has the name that stands after the colon. -/
theorem targetWindow_path_ne_ok {raw before text : List Char}
    (hreads : Target.parse raw .window = parsePath raw .window)
    (hcolon : splitOnce ':' raw = some (before, text ++ ['.']))
    (hwindow : parseWindow text = .ok window) {fuel : ℕ} (found : ResolvedWindow) :
    (lone session window).targetWindow fuel raw ≠ .ok found := by
  intro h
  obtain ⟨target, htarget, h⟩ := Answer.ok_bind h
  rw [hreads] at htarget
  unfold parsePath at htarget
  rw [hcolon] at htarget
  obtain ⟨session', -, htarget⟩ := Answer.ok_bind htarget
  obtain ⟨spec, hspec, htarget⟩ := Answer.ok_bind htarget
  cases htarget
  exact windowBySpec_dot hwindow hspec session' found h

theorem targetSession_path_ne_ok {raw before text : List Char}
    (hreads : ∀ kind, Target.parse raw kind = parsePath raw kind)
    (hcolon : splitOnce ':' raw = some (before, text ++ ['.']))
    (hwindow : parseWindow text = .ok window) {fuel : ℕ} (record : SessionRecord) :
    (lone session window).targetSession fuel raw ≠ .ok record := by
  intro h
  obtain ⟨target, htarget, h⟩ := Answer.ok_bind h
  rw [hreads] at htarget
  unfold parsePath at htarget
  rw [hcolon] at htarget
  obtain ⟨session', -, htarget⟩ := Answer.ok_bind htarget
  obtain ⟨spec, hspec, htarget⟩ := Answer.ok_bind htarget
  cases htarget
  -- The window is a name, so the session is that of a window.
  have hfound : ∃ found, (lone session window).targetWindow fuel raw = .ok found := by
    rcases parseWindow_dot hspec with rfl | ⟨name, -, rfl⟩
    · rcases session' with _ | _ | _ | _
      all_goals
        obtain ⟨found, hfound, -⟩ := Answer.ok_bind h
        exact ⟨found, hfound⟩
    · rcases session' with _ | _ | _ | _
      all_goals
        obtain ⟨found, hfound, -⟩ := Answer.ok_bind h
        exact ⟨found, hfound⟩
  obtain ⟨found, hfound⟩ := hfound
  exact targetWindow_path_ne_ok (hreads .window) hcolon hwindow found hfound

/-- **The second reading fails.** Where the pane asked for exists, switching to it finds nothing. -/
theorem switchTarget_lone_ne_ok {raw : List Char} (hraw : readsAsPane raw)
    (hpane : (paneText raw).isSome)
    (h : Target.parse raw .pane = .ok (.path session window .current)) (fuel : ℕ)
    (shown : SessionId × Option NodeId) :
    (lone session window).switchTarget fuel raw ≠ .ok shown := by
  intro hshown
  obtain ⟨hpercent, hat, hwrites⟩ := currentPane_of_writes hpane h
  have hreads : ∀ kind, Target.parse raw kind = parsePath raw kind := by
    intro kind
    rw [Target.parse, hpercent, hat]
  rw [Connection.switchTarget, if_pos hraw, h, Answer.bind_ok] at hshown
  -- Switching asks for the session, or for the window.
  have hasked : (window = .current ∧
        ∃ record, (lone session window).targetSession fuel raw = .ok record) ∨
      (window ≠ .current ∧ ∃ found, (lone session window).targetWindow fuel raw = .ok found) := by
    by_cases hcurrent : window = .current
    · subst hcurrent
      obtain ⟨record, hrecord, -⟩ := Answer.ok_bind hshown
      exact .inl ⟨rfl, record, hrecord⟩
    · have hto : (do
          let found ← (lone session window).targetWindow fuel raw
          pure (found.snapshot.session.id, some found.childId)) = .ok shown := by
        rw [← hshown]
        cases window <;> first | rfl | exact absurd rfl hcurrent
      obtain ⟨found, hfound, -⟩ := Answer.ok_bind hto
      exact .inr ⟨hcurrent, found, hfound⟩
  cases hwrites with
  | path hcolon hsession hwindow =>
    rcases hasked with ⟨-, record, hrecord⟩ | ⟨-, found, hfound⟩
    · exact targetSession_path_ne_ok hreads hcolon hwindow record hrecord
    · exact targetWindow_path_ne_ok (hreads .window) hcolon hwindow found hfound
  | pane hcolon hdot =>
    subst hdot
    rcases hasked with ⟨-, record, hrecord⟩ | ⟨hne, -⟩
    · refine targetSession_ne_ok (hreads .session) hcolon ?_ ?_ ?_ record hrecord
      · exact List.cons_ne_nil _ _
      · intro heq
        exact absurd (Option.some.inj heq) (by decide)
      · intro heq
        exact absurd (List.cons.inj heq).1 (by decide)
    · exact hne rfl
  | @window text _ hcolon hdollar htext hwindow =>
    have hhead := head_ne_dollar htext hdollar
    rcases hasked with ⟨-, record, hrecord⟩ | ⟨-, found, hfound⟩
    · refine targetSession_ne_ok (hreads .session) hcolon ?_ hhead ?_ record hrecord
      · rintro rfl
        exact absurd htext.symm (by simp)
      · rintro rfl
        have hlast := congrArg List.getLast? htext
        rw [List.getLast?_concat] at hlast
        exact absurd hlast (by decide)
    · exact targetWindow_ne_ok (hreads .window) hcolon hhead htext hwindow found hfound

end

/-- **When switching reads a target as a pane.** A string with a colon, a dot or a percent sign is
resolved by switching as it is as a pane, in every consistent connection, exactly when it does not
write the current pane. -/
theorem switchTarget_agrees_iff {raw : List Char} (hraw : readsAsPane raw) :
    (∀ w, Consistent w → w.Agrees raw) ↔ ¬ WritesCurrentPane raw := by
  constructor
  · rintro hagrees ⟨hpane, session, window, hparse⟩
    obtain ⟨enough, hagrees⟩ := hagrees (lone session window) consistent_lone
    have hfuel := (hagrees (enough + 1) (Nat.le_succ enough)).succeeds
    have hfound : (lone session window).targetPane (enough + 1) raw =
        .ok ⟨loneSnapshot session window, window.askedId, 0⟩ := by
      rw [Connection.targetPane, hparse, Answer.bind_ok]
      exact paneByTarget_lone enough
    obtain ⟨shown, hshown⟩ := hfuel.mpr (.inl ⟨_, hfound⟩)
    exact switchTarget_lone_ne_ok hraw hpane hparse _ shown hshown
  · intro hwrites w hw
    exact agrees_of_not_writesCurrentPane hw hraw hwrites

/-- `work:1` is read the same way by both. -/
theorem switchTarget_agrees_window :
    readsAsPane "work:1".toList ∧ ∀ w, Consistent w → w.Agrees "work:1".toList :=
  ⟨by decide, (switchTarget_agrees_iff (by decide)).mpr fun hwrites ↦ absurd hwrites.1 (by decide)⟩

/-- With one session named `work` and one window, `work:.` is its pane, and switching there fails.
-/
theorem switch_to_empty_pane_fails :
    readsAsPane "work:.".toList ∧ Consistent (lone (.name "work".toList) .current) ∧
      ¬ (lone (.name "work".toList) .current).Agrees "work:.".toList := by
  have hparse : Target.parse "work:.".toList .pane =
      .ok (.path (.name "work".toList) .current .current) := rfl
  refine ⟨by decide, consistent_lone, ?_⟩
  rintro ⟨enough, hagrees⟩
  have hfuel := (hagrees (enough + 1) (Nat.le_succ enough)).succeeds
  have hfound : (lone (.name "work".toList) .current).targetPane (enough + 1) "work:.".toList =
      .ok ⟨loneSnapshot (.name "work".toList) .current, 0, 0⟩ := by
    rw [Connection.targetPane, hparse, Answer.bind_ok]
    exact paneByTarget_lone enough
  obtain ⟨shown, hshown⟩ := hfuel.mpr (.inl ⟨_, hfound⟩)
  exact switchTarget_lone_ne_ok (by decide) (by decide) hparse _ shown hshown

end Embers.Cli
