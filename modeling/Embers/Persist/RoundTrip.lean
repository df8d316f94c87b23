import Embers.Persist.Workspace
import Embers.State.Outline

/-!
# Saving and loading give the workspace back

A saved state that is valid loads again. `reloaded` says of each kind of record what comes back:
everything but what only a running server knows, with times cut to the millisecond and a running
command interrupted.

Validation reads links, roots, focus, zoom and attachments, and those come back as they were. So
the loaded tables pass it because the saved ones did, and as the roots of a valid state are tabs,
loading wraps none.
-/

namespace Embers

/-! ## Records -/

/-- The time as it comes back. -/
def Timestamp.reloaded (timestamp : Timestamp) : Timestamp :=
  timestampFromMillis (timestampToMillis timestamp)

/-- The session without its focus history. -/
def Session.reloaded (session : Session) : Session :=
  { session with focusHistory := [], createdAt := session.createdAt.reloaded }

/-- A command that ran no longer does. -/
def BufferState.reloaded : BufferState → BufferState
  | .running pid => .interrupted pid
  | .exited exitCode exitedAt => .exited exitCode exitedAt.reloaded
  | state => state

/-- The lines a helper buffer shows are gone. -/
def BufferKind.reloaded : BufferKind → BufferKind
  | .helper buffer => .helper { buffer with lines := [] }
  | .pty => .pty

/-- The buffer without its runtime: snapshot, bell count, pipe and watchers. -/
def Buffer.reloaded (buffer : Buffer) : Buffer :=
  { buffer with
    state := buffer.state.reloaded
    kind := buffer.kind.reloaded
    lastSnapshotSeq := 0
    pipe := none
    createdAt := buffer.createdAt.reloaded
    everAttached := true
    runtimeBellSequence := 0
    watched := false }

/-- The node without the option of its tabs. -/
def Node.reloaded : Node → Node
  | .tabs node => .tabs { node with tabs := node.tabs.map fun tab ↦ { tab with
      synchronizePanes := false } }
  | node => node

theorem map_mk_raw {κ : IdKind} (ids : List (EntityId κ)) :
    (ids.map EntityId.raw).map EntityId.mk = ids := by
  rw [List.map_map]
  exact List.map_id ids

theorem option_map_mk_raw {κ : IdKind} (id : Option (EntityId κ)) :
    (id.map EntityId.raw).map EntityId.mk = id := by
  cases id <;> rfl

theorem restoredSession_persistedSession (entry : SessionId × Session) :
    restoredSession (persistedSession entry) = (entry.1, entry.2.reloaded) := by
  simp only [restoredSession, persistedSession, map_mk_raw, option_map_mk_raw]
  rfl

theorem restoredBuffer_persistedBuffer (entry : BufferId × Buffer) :
    restoredBuffer (persistedBuffer entry) = (entry.1, entry.2.reloaded) := by
  obtain ⟨bufferId, buffer⟩ := entry
  have hstate : restoredBufferState (persistedBufferState buffer.state) = buffer.state.reloaded := by
    cases buffer.state <;> rfl
  have hattachment : restoredBufferAttachment (persistedBufferAttachment buffer.attachment) =
      buffer.attachment := by
    cases buffer.attachment <;> rfl
  have hactivity : restoredActivity (persistedActivity buffer.activity) = buffer.activity := by
    cases buffer.activity <;> rfl
  have hkind : restoredBufferKind (persistedBufferKind buffer.kind) = buffer.kind.reloaded := by
    rcases buffer.kind with _ | ⟨source, _ | _, lines⟩ <;> rfl
  have hplacement : restoredPlacement buffer.placement.socketPath buffer.placement.persistedRemote =
      buffer.placement := by
    cases buffer.placement with
    | «local» => rfl
    | remote host remoteId =>
      simp only [restoredPlacement, Placement.persistedRemote, option_map_mk_raw]
  simp only [restoredBuffer, persistedBuffer, hstate, hattachment, hactivity, hkind, hplacement]
  rfl

theorem restoredNode_persistedNode (entry : NodeId × Node) :
    restoredNode (persistedNode entry) = (entry.1, entry.2.reloaded) := by
  obtain ⟨nodeId, node | node | node⟩ := entry
  · simp only [persistedNode, restoredNode, option_map_mk_raw, Node.reloaded]
  · have hdirection : restoredSplitDirection (persistedSplitDirection node.direction) =
        node.direction := by
      cases node.direction <;> rfl
    simp only [persistedNode, restoredNode, option_map_mk_raw, map_mk_raw, hdirection, Node.reloaded]
  · simp only [persistedNode, restoredNode, option_map_mk_raw, List.map_map, Node.reloaded]
    rfl

theorem restoredFloating_persistedFloating (entry : FloatingId × FloatingWindow) :
    restoredFloating (persistedFloating entry) = entry := by
  simp only [restoredFloating, persistedFloating, option_map_mk_raw]

/-! ## Tables -/

section Tables

variable {κ α π : Type} [Ord κ] [Std.TransOrd κ] [Std.LawfulEqOrd κ] [DecidableEq κ]
  {restored : π → κ × α} {kind : String}

/-- Records under different ids, none of them taken, are all loaded. -/
theorem loadTable_eq_ok : ∀ {records : List π} {table : Table κ α},
    (records.map fun record ↦ (restored record).1).Nodup →
    (∀ record ∈ records, table[(restored record).1]? = none) →
    ∃ loaded, loadTable restored kind table records = .ok loaded ∧
      ∀ k : κ, ∀ v, loaded[k]? = some v ↔
        table[k]? = some v ∨ ∃ record ∈ records, restored record = (k, v)
  | [], table, _, _ => ⟨table, rfl, fun k v ↦ by simp⟩
  | record :: rest, table, hnodup, hfresh => by
    rw [List.map_cons, List.nodup_cons] at hnodup
    have hnew : table[(restored record).1]? = none := hfresh record List.mem_cons_self
    have hrest : ∀ record' ∈ rest, (table.insert (restored record).1 (restored record).2)[
        (restored record').1]? = none := by
      intro record' hmem
      have hne : (restored record).1 ≠ (restored record').1 := fun heq ↦
        hnodup.1 (heq ▸ List.mem_map_of_mem hmem)
      rw [Table.get?_insert, if_neg hne]
      exact hfresh record' (List.mem_cons_of_mem record hmem)
    obtain ⟨loaded, hload, hloaded⟩ := loadTable_eq_ok hnodup.2 hrest
    refine ⟨loaded, ?_, fun k v ↦ ?_⟩
    · rw [loadTable, if_neg, hload]
      rw [Table.contains_iff, hnew]
      rintro ⟨v, hv⟩
      cases hv
    · rw [hloaded, Table.get?_insert]
      by_cases hk : (restored record).1 = k
      · rw [if_pos hk]
        subst hk
        simp only [hnew, Option.some_inj, List.mem_cons, exists_eq_or_imp, reduceCtorEq, false_or]
        exact or_congr_left ⟨fun h ↦ by rw [← h], fun h ↦ by rw [h]⟩
      · rw [if_neg hk]
        simp only [List.mem_cons, exists_eq_or_imp]
        have hne : restored record ≠ (k, v) := fun heq ↦ hk (by rw [heq])
        simp only [hne, false_or]

/-- A table that was saved record by record comes back, each record as `f` says. -/
theorem loadTable_toList {saved : κ × α → π} {f : α → α}
    (hsaved : ∀ entry, restored (saved entry) = (entry.1, f entry.2)) (table : Table κ α) :
    loadTable restored kind ∅ (table.toList.map saved) = .ok (table.map fun _ v ↦ f v) := by
  have hkeys : ((table.toList.map saved).map fun record ↦ (restored record).1) = table.keys := by
    rw [List.map_map, ← Std.ExtTreeMap.map_fst_toList_eq_keys]
    exact List.map_congr_left fun entry _ ↦ by rw [Function.comp_apply, hsaved]
  have hnodup : table.keys.Nodup := Std.ExtTreeMap.nodup_keys
  obtain ⟨loaded, hload, hloaded⟩ := @loadTable_eq_ok _ _ _ _ _ _ _ restored kind
    (table.toList.map saved) ∅ (hkeys ▸ hnodup) (by simp)
  rw [hload]
  congr 1
  apply Std.ExtTreeMap.ext_getElem?
  intro k
  apply Option.ext
  intro v
  rw [hloaded, Std.ExtTreeMap.getElem?_map, Option.map_eq_some_iff]
  constructor
  · rintro (h | ⟨record, hmem, heq⟩)
    · simp at h
    · obtain ⟨⟨k', v'⟩, hmem', rfl⟩ := List.mem_map.mp hmem
      rw [hsaved, Prod.mk.injEq] at heq
      obtain ⟨rfl, rfl⟩ := heq
      exact ⟨v', Table.mem_toList.mp hmem', rfl⟩
  · rintro ⟨v', hv', rfl⟩
    exact .inr ⟨saved (k, v'), List.mem_map_of_mem (Table.mem_toList.mpr hv'), hsaved _⟩

end Tables

/-! ## Id counters -/

instance lawfulOrderSup_uint64 : Std.LawfulOrderSup UInt64 where
  max_le_iff a b c := by
    simp only [max, UInt64.le_iff_toNat_le]
    split <;> omega

instance maxEqOr_uint64 : Std.MaxEqOr UInt64 where
  max_eq_or a b := by
    simp only [max]
    split
    · exact .inr rfl
    · exact .inl rfl

/-- Unless the last id is taken, there is an id above all. -/
theorem nextIdAfterMax_eq_some {ids : List UInt64} (h : maxId ∉ ids) :
    ∃ next, nextIdAfterMax ids = some next ∧ ∀ id ∈ ids, id < next := by
  rw [nextIdAfterMax]
  cases hmax : ids.max? with
  | none =>
    rw [List.max?_eq_none_iff] at hmax
    subst hmax
    exact ⟨1, rfl, by simp⟩
  | some max =>
    have hle := (List.max?_le_iff hmax).mp (UInt64.le_refl max)
    have hne : max ≠ maxId := fun heq ↦ h (heq ▸ List.max?_mem hmax)
    rw [ne_eq, ← UInt64.toNat_inj] at hne
    have hlt := max.toNat_lt
    have hmaxId : maxId.toNat = 2 ^ 64 - 1 := rfl
    have hnext : (max + 1).toNat = max.toNat + 1 := by
      rw [UInt64.toNat_add, UInt64.toNat_one]
      omega
    refine ⟨max + 1, if_neg fun hzero ↦ ?_, fun id hid ↦ ?_⟩
    · rw [hzero, UInt64.toNat_zero] at hnext
      omega
    · have hid := UInt64.le_iff_toNat_le.mp (hle id hid)
      rw [UInt64.lt_iff_toNat_lt]
      omega

namespace IdAllocator

variable {κ : IdKind}

/-- The id handed out after `n` others. -/
def nth (a : IdAllocator κ) (n : ℕ) : EntityId κ := (advance^[n] a).peek

theorem nth_raw_toNat (a : IdAllocator κ) (n : ℕ) :
    (a.nth n).raw.toNat = (a.counter.toNat + n) % 2 ^ 64 := by
  have hcounter : ∀ n, (advance^[n] a).counter.toNat = (a.counter.toNat + n) % 2 ^ 64 := by
    intro n
    induction n with
    | zero => exact (Nat.mod_eq_of_lt a.counter.toNat_lt).symm
    | succ n ih =>
      rw [Function.iterate_succ_apply', advance, UInt64.toNat_add, ih, UInt64.toNat_one]
      omega
  exact hcounter n

/-- Every id handed out before the counter wraps is new to the table. -/
def Fresh {α : Type} (a : IdAllocator κ) (table : Table (EntityId κ) α) : Prop :=
  ∀ n, a.counter.toNat + n < 2 ^ 64 → a.nth n ∉ table

theorem fresh_of_lt {α : Type} {a : IdAllocator κ} {table : Table (EntityId κ) α}
    (h : ∀ id ∈ table, id.raw < a.counter) : a.Fresh table := by
  intro n hn hmem
  have hlt := UInt64.lt_iff_toNat_lt.mp (h _ hmem)
  rw [nth_raw_toNat, Nat.mod_eq_of_lt hn] at hlt
  omega

end IdAllocator

/-! ## Validation -/

namespace Node

@[simp] theorem bare_reloaded (node : Node) : node.reloaded.bare = node.bare := by
  cases node with
  | bufferView => rfl
  | split => rfl
  | tabs node =>
    simp only [reloaded, bare, List.map_map]
    rfl

end Node

namespace ServerState

/-- The tables as they come back, next to the given counters. -/
def reloaded (s : ServerState) (sessionIds : IdAllocator .session)
    (bufferIds : IdAllocator .buffer) (nodeIds : IdAllocator .node)
    (floatingIds : IdAllocator .floating) : ServerState where
  sessions := s.sessions.map fun _ session ↦ session.reloaded
  buffers := s.buffers.map fun _ buffer ↦ buffer.reloaded
  nodes := s.nodes.map fun _ node ↦ node.reloaded
  floating := s.floating
  lastViewport := none
  lastPaneTitles := false
  lastBaseIndex := none
  remainOnExit := .off
  sessionIds := sessionIds
  bufferIds := bufferIds
  nodeIds := nodeIds
  floatingIds := floatingIds

section Reloaded

variable (s : ServerState) (sessionIds : IdAllocator .session) (bufferIds : IdAllocator .buffer)
  (nodeIds : IdAllocator .node) (floatingIds : IdAllocator .floating)

theorem reloaded_sameLinks : SameLinks s (s.reloaded sessionIds bufferIds nodeIds floatingIds) := by
  intro nodeId
  rw [links, links, reloaded, Std.ExtTreeMap.getElem?_map, Option.map_map]
  congr 1
  funext node
  exact node.bare_reloaded.symm

theorem reloaded_sameRoots : SameRoots s (s.reloaded sessionIds bufferIds nodeIds floatingIds) := by
  refine ⟨fun sessionId ↦ ?_, fun _ ↦ rfl⟩
  rw [reloaded, Std.ExtTreeMap.getElem?_map, Option.map_map]
  rfl

end Reloaded

variable {s s' : ServerState}

theorem SameLinks.validateShape (nodeId : NodeId) {node node' : Node} (h : node.bare = node'.bare) :
    validateShape nodeId node = validateShape nodeId node' := by
  cases node <;> cases node' <;> simp only [Node.bare, Node.split.injEq, Node.tabs.injEq,
    reduceCtorEq, SplitNode.mk.injEq, TabsNode.mk.injEq] at h
  · rfl
  · rw [ServerState.validateShape, ServerState.validateShape, h.2.2.2.1, h.2.2.2.2.1]
  next tabs tabs' =>
    have hlength : tabs.tabs.length = tabs'.tabs.length := by
      rw [← List.length_map (f := TabEntry.bare), h.2.2.1, List.length_map]
    have hempty : tabs.tabs.isEmpty = tabs'.tabs.isEmpty := by
      rw [Bool.eq_iff_iff, List.isEmpty_iff_length_eq_zero, List.isEmpty_iff_length_eq_zero,
        hlength]
    rw [ServerState.validateShape, ServerState.validateShape, hlength, hempty, h.2.2.2.1]

theorem SameLinks.validateSubtree (h : SameLinks s s') (sessionId : SessionId) (fuel : ℕ) :
    s.validateSubtree sessionId fuel = s'.validateSubtree sessionId fuel := by
  induction fuel with
  | zero => rfl
  | succ fuel ih =>
    funext nodeId expectedParent seen
    rw [ServerState.validateSubtree, ServerState.validateSubtree]
    rcases h.node nodeId with ⟨e, hs, hs'⟩ | ⟨node, node', hs, hs', hbare⟩
    · rw [hs, hs']
      rfl
    · have hsession : node.sessionId = node'.sessionId := by
        rw [← node.bare_sessionId, hbare, node'.bare_sessionId]
      have hparent : node.parent = node'.parent := by
        rw [← node.bare_parent, hbare, node'.bare_parent]
      have hkids : node.childIds = node'.childIds := by
        rw [← node.bare_childIds, hbare, node'.bare_childIds]
      rw [hs, hs', Answer.bind_ok, Answer.bind_ok, validateNode, validateNode, hsession, hparent,
        hkids, SameLinks.validateShape nodeId hbare, ih]

theorem SameLinks.validateRoot (h : SameLinks s s') (sessionId : SessionId) (session : Session) :
    s.validateRoot sessionId session = s'.validateRoot sessionId session := by
  rw [ServerState.validateRoot, ServerState.validateRoot]
  rcases h.node session.rootNode with ⟨e, hs, hs'⟩ | ⟨node, node', hs, hs', hbare⟩
  · rw [hs, hs']
  · rw [hs, hs', Answer.bind_ok, Answer.bind_ok, ← node.bare_parent, ← node.bare_isTabs, hbare,
      node'.bare_parent, node'.bare_isTabs]

theorem SameLinks.validateFloating (h : SameLinks s s') (hfloating : s.floating = s'.floating)
    (fuel : ℕ) (sessionId : SessionId) (session : Session) :
    s.validateFloating fuel sessionId session = s'.validateFloating fuel sessionId session := by
  funext seen floatingId
  simp only [ServerState.validateFloating, ServerState.floatingWindow, hfloating, h.nodeParent,
    h.validateSubtree]

theorem SameLinks.validateFocus (h : SameLinks s s') (hroots : SameRoots s s') (fuel : ℕ)
    (sessionId : SessionId) (session : Session) :
    s.validateFocus fuel sessionId session = s'.validateFocus fuel sessionId session := by
  rw [ServerState.validateFocus, ServerState.validateFocus]
  cases session.focusedLeaf with
  | none => rfl
  | some leaf =>
    simp only [h.isNodeVisibleInSession hroots]
    rcases h.node leaf with ⟨e, hs, hs'⟩ | ⟨node, node', hs, hs', hbare⟩
    · rw [hs, hs']
    · rw [hs, hs', Answer.bind_ok, Answer.bind_ok, ← node.bare_isBufferView, hbare,
        node'.bare_isBufferView]

theorem SameLinks.contains (h : SameLinks s s') (nodeId : NodeId) :
    s.nodes.contains nodeId = s'.nodes.contains nodeId := by
  have hlinks := congrArg Option.isSome (h nodeId)
  rw [links, links, Option.isSome_map, Option.isSome_map] at hlinks
  rwa [Std.ExtTreeMap.isSome_getElem?_eq_contains, Std.ExtTreeMap.isSome_getElem?_eq_contains]
    at hlinks

theorem SameLinks.validateZoom (h : SameLinks s s') (hroots : SameRoots s s') (fuel : ℕ)
    (sessionId : SessionId) (session : Session) :
    s.validateZoom fuel sessionId session = s'.validateZoom fuel sessionId session := by
  rw [ServerState.validateZoom, ServerState.validateZoom]
  cases session.zoomedNode with
  | none => rfl
  | some zoomed =>
    simp only [h.isNodeVisibleInSession hroots, h.contains]
    rcases h.node zoomed with ⟨e, hs, hs'⟩ | ⟨node, node', hs, hs', hbare⟩
    · rw [hs, hs']
    · rw [hs, hs', Answer.bind_ok, Answer.bind_ok, ← node.bare_sessionId, hbare,
        node'.bare_sessionId]

theorem SameRoots.isSessionRoot (h : SameRoots s s') (nodeId : NodeId) :
    s.isSessionRoot nodeId = s'.isSessionRoot nodeId := by
  have hroot : ∀ {t t' : ServerState}, SameRoots t t' →
      t.isSessionRoot nodeId = true → t'.isSessionRoot nodeId = true := by
    intro t t' ht hmem
    obtain ⟨sessionId, session, hsession, rfl⟩ := isSessionRoot_iff.mp hmem
    have hroots := ht.session sessionId
    rw [hsession, Option.map_some, eq_comm, Option.map_eq_some_iff] at hroots
    obtain ⟨session', hsession', hroot⟩ := hroots
    exact isSessionRoot_iff.mpr ⟨sessionId, session', hsession', hroot⟩
  rw [Bool.eq_iff_iff]
  exact ⟨hroot h, hroot h.symm⟩

theorem SameLinks.isDetachedEmptyTabsNode (h : SameLinks s s') (hroots : SameRoots s s')
    (nodeId : NodeId) :
    s.isDetachedEmptyTabsNode nodeId = s'.isDetachedEmptyTabsNode nodeId := by
  have hlinks := h nodeId
  rw [ServerState.isDetachedEmptyTabsNode, ServerState.isDetachedEmptyTabsNode,
    hroots.floatingIdByRoot, hroots.isSessionRoot]
  rw [links, links] at hlinks
  rcases hs : s.nodes[nodeId]? with _ | node <;> rcases hs' : s'.nodes[nodeId]? with _ | node' <;>
    rw [hs, hs'] at hlinks
  · cases hlinks
  · cases hlinks
  · have hbare := Option.some_inj.mp hlinks
    cases node <;> cases node' <;> simp only [Node.bare, Node.split.injEq, Node.tabs.injEq,
      reduceCtorEq, TabsNode.mk.injEq] at hbare
    · rfl
    · rfl
    next tabs tabs' =>
      have hempty := congrArg List.isEmpty hbare.2.2.1
      rw [List.isEmpty_map, List.isEmpty_map] at hempty
      simp only [hbare.2.1, hempty]

section Validate

variable (s : ServerState) (sessionIds : IdAllocator .session) (bufferIds : IdAllocator .buffer)
  (nodeIds : IdAllocator .node) (floatingIds : IdAllocator .floating)

theorem reloaded_validateSession (fuel : ℕ) (seen : Std.ExtTreeSet NodeId)
    (entry : SessionId × Session) :
    (s.reloaded sessionIds bufferIds nodeIds floatingIds).validateSession fuel seen
      (entry.1, entry.2.reloaded) = s.validateSession fuel seen entry := by
  have hlinks := (s.reloaded_sameLinks sessionIds bufferIds nodeIds floatingIds).symm
  have hroots := (s.reloaded_sameRoots sessionIds bufferIds nodeIds floatingIds).symm
  simp only [validateSession, hlinks.validateRoot, hlinks.validateSubtree,
    hlinks.validateFocus hroots, hlinks.validateZoom hroots]
  rw [hlinks.validateFloating rfl]
  rfl

theorem reloaded_validateNoOrphans (seen : Std.ExtTreeSet NodeId) :
    (s.reloaded sessionIds bufferIds nodeIds floatingIds).validateNoOrphans seen =
      s.validateNoOrphans seen := by
  have hlinks := (s.reloaded_sameLinks sessionIds bufferIds nodeIds floatingIds).symm
  have hroots := (s.reloaded_sameRoots sessionIds bufferIds nodeIds floatingIds).symm
  simp only [validateNoOrphans, hlinks.isDetachedEmptyTabsNode hroots]
  simp only [reloaded, Std.ExtTreeMap.keys_map, Std.ExtTreeMap.size_map]

theorem reloaded_validateAttachment (entry : BufferId × Buffer) :
    (s.reloaded sessionIds bufferIds nodeIds floatingIds).validateAttachment
      (entry.1, entry.2.reloaded) = s.validateAttachment entry := by
  have hlinks := (s.reloaded_sameLinks sessionIds bufferIds nodeIds floatingIds).symm
  rw [validateAttachment, validateAttachment]
  dsimp only [Buffer.reloaded]
  cases entry.2.attachment with
  | detached => rfl
  | attached nodeId =>
    rcases hlinks.node nodeId with ⟨e, hs, hs'⟩ | ⟨node, node', hs, hs', hbare⟩
    · simp only [hs, hs', Answer.bind_error]
    · simp only [hs, hs', Answer.bind_ok]
      cases node <;> cases node' <;> simp_all [Node.bare]

theorem reloaded_validateView (entry : NodeId × Node) :
    (s.reloaded sessionIds bufferIds nodeIds floatingIds).validateView
      (entry.1, entry.2.reloaded) = s.validateView entry := by
  obtain ⟨nodeId, leaf | _ | _⟩ := entry
  · simp only [validateView, Node.reloaded, buffer]
    rw [reloaded, Std.ExtTreeMap.getElem?_map]
    cases s.buffers[leaf.bufferId]? <;> rfl
  · rfl
  · rfl

/-- What comes back is checked like what was saved. -/
theorem reloaded_validate (fuel : ℕ) :
    (s.reloaded sessionIds bufferIds nodeIds floatingIds).validate fuel = s.validate fuel := by
  have hsessions : (s.reloaded sessionIds bufferIds nodeIds floatingIds).sessions.toList =
      s.sessions.toList.map fun entry ↦ (entry.1, entry.2.reloaded) := Std.ExtTreeMap.toList_map
  have hbuffers : (s.reloaded sessionIds bufferIds nodeIds floatingIds).buffers.toList =
      s.buffers.toList.map fun entry ↦ (entry.1, entry.2.reloaded) := Std.ExtTreeMap.toList_map
  have hnodes : (s.reloaded sessionIds bufferIds nodeIds floatingIds).nodes.toList =
      s.nodes.toList.map fun entry ↦ (entry.1, entry.2.reloaded) := Std.ExtTreeMap.toList_map
  rw [validate, validate, hsessions, hbuffers, hnodes, List.foldlM_map]
  simp only [reloaded_validateSession, reloaded_validateNoOrphans, Answer.each_map,
    reloaded_validateAttachment, reloaded_validateView]

end Validate

/-! ## Saving and loading -/

/-- A valid state's session roots are tabs. -/
theorem untabbedRoots_eq_nil {fuel : ℕ} (hvalid : s.validate fuel = .ok ()) :
    s.untabbedRoots = [] := by
  obtain ⟨seen, hsessions, -⟩ := Answer.ok_bind hvalid
  rw [untabbedRoots, List.filterMap_eq_nil_iff]
  rintro ⟨sessionId, session⟩ hmem
  obtain ⟨before, after, hstep⟩ := Answer.foldlM_step hsessions hmem
  obtain ⟨_, hroot, -⟩ := Answer.ok_bind hstep
  obtain ⟨root, hnode, -, htabs⟩ := validateRoot_ok hroot
  simp only [hnode, htabs, if_true]

theorem checkedNextId_eq_ok {ids : List UInt64} (kind : String) (h : maxId ∉ ids) :
    ∃ next, checkedNextId ids kind = .ok next ∧ ∀ id ∈ ids, id < next := by
  obtain ⟨next, hnext, hlt⟩ := nextIdAfterMax_eq_some h
  exact ⟨next, by rw [checkedNextId, hnext, Answer.ofOption_some], hlt⟩

/-- The counter a load starts at is above every id. -/
theorem lt_max_counter {κ : IdKind} {α : Type} {table : Table (EntityId κ) α} {next : UInt64}
    (saved : UInt64) (h : ∀ id ∈ rawKeys table, id < next) (id : EntityId κ) (hmem : id ∈ table) :
    id.raw < max saved next := by
  have hlt := h id.raw (List.mem_map_of_mem (Std.ExtTreeMap.mem_keys.mpr hmem))
  have hle : next ≤ max saved next := (Std.LawfulOrderSup.max_le_iff saved next _).mp
    (UInt64.le_refl _) |>.2
  rw [UInt64.lt_iff_toNat_lt] at hlt ⊢
  rw [UInt64.le_iff_toNat_le] at hle
  omega

/-- No table holds the last id there is. -/
def IdsLeft (s : ServerState) : Prop :=
  maxId ∉ rawKeys s.sessions ∧ maxId ∉ rawKeys s.buffers ∧ maxId ∉ rawKeys s.nodes ∧
    maxId ∉ rawKeys s.floating

theorem loadTables_toPersisted (hlisted : s.FloatingListed) (hids : s.IdsLeft) :
    ∃ sessionIds bufferIds nodeIds floatingIds,
      loadTables s.toPersisted = .ok (s.reloaded sessionIds bufferIds nodeIds floatingIds) ∧
      (∀ id ∈ s.sessions, id.raw < sessionIds.counter) ∧
      (∀ id ∈ s.buffers, id.raw < bufferIds.counter) ∧
      (∀ id ∈ s.nodes, id.raw < nodeIds.counter) ∧
      ∀ id ∈ s.floating, id.raw < floatingIds.counter := by
  obtain ⟨nextSession, hsession, hsessionLt⟩ := checkedNextId_eq_ok "session" hids.1
  obtain ⟨nextBuffer, hbuffer, hbufferLt⟩ := checkedNextId_eq_ok "buffer" hids.2.1
  obtain ⟨nextNode, hnode, hnodeLt⟩ := checkedNextId_eq_ok "node" hids.2.2.1
  obtain ⟨nextFloating, hfloating, hfloatingLt⟩ :=
    checkedNextId_eq_ok "floating window" hids.2.2.2
  refine ⟨⟨max s.toPersisted.nextSessionId nextSession⟩, ⟨max s.toPersisted.nextBufferId nextBuffer⟩,
    ⟨max s.toPersisted.nextNodeId nextNode⟩, ⟨max s.toPersisted.nextFloatingId nextFloating⟩, ?_,
    lt_max_counter _ hsessionLt, lt_max_counter _ hbufferLt, lt_max_counter _ hnodeLt,
    lt_max_counter _ hfloatingLt⟩
  have hfloatings : loadTable restoredFloating "floating" ∅ s.toPersisted.floating =
      .ok s.floating := by
    have hload := @loadTable_toList _ _ _ _ _ _ _ _ "floating" _ id
      restoredFloating_persistedFloating s.floating
    rwa [show (fun (_ : FloatingId) (v : FloatingWindow) ↦ id v) = fun _ v ↦ v from rfl,
      Std.ExtTreeMap.map_id] at hload
  have hchecked : Answer.each (checkFloatingListed (s.sessions.map fun _ session ↦
      session.reloaded)) s.floating.toList = .ok () := by
    rw [Answer.each_eq_ok]
    rintro ⟨floatingId, floating⟩ hmem
    obtain ⟨session, hsession, hlists⟩ := hlisted floatingId floating (Table.mem_toList.mp hmem)
    rw [checkFloatingListed, Std.ExtTreeMap.getElem?_map, hsession]
    exact if_pos hlists
  have hkeys : ∀ {κ : IdKind} {α : Type} (table : Table (EntityId κ) α) (f : α → α),
      rawKeys (table.map fun _ v ↦ f v) = rawKeys table := by
    intro κ α table f
    rw [rawKeys, rawKeys, Std.ExtTreeMap.keys_map]
  have hsessions : loadTable restoredSession "session" ∅ s.toPersisted.sessions =
      .ok (s.sessions.map fun _ session ↦ session.reloaded) :=
    loadTable_toList restoredSession_persistedSession s.sessions
  have hbuffers : loadTable restoredBuffer "buffer" ∅ s.toPersisted.buffers =
      .ok (s.buffers.map fun _ buffer ↦ buffer.reloaded) :=
    loadTable_toList restoredBuffer_persistedBuffer s.buffers
  have hnodes : loadTable restoredNode "node" ∅ s.toPersisted.nodes =
      .ok (s.nodes.map fun _ node ↦ node.reloaded) :=
    loadTable_toList restoredNode_persistedNode s.nodes
  simp only [loadTables, hsessions, hbuffers, hnodes, hfloatings, hchecked, hkeys, hsession, hbuffer,
    hnode, hfloating, Answer.bind_ok, Answer.pure_eq_ok]
  rfl

/-- A valid state whose popups are listed loads as it was saved, but for what is not saved, and
every id handed out afterwards is new until a counter wraps. -/
theorem fromPersisted_toPersisted {fuel : ℕ} (hvalid : s.validate fuel = .ok ())
    (hlisted : s.FloatingListed) (hids : s.IdsLeft) :
    ∃ s', fromPersisted fuel s.toPersisted = .ok s' ∧
      s'.sessions = (s.sessions.map fun _ session ↦ session.reloaded) ∧
      s'.buffers = (s.buffers.map fun _ buffer ↦ buffer.reloaded) ∧
      s'.nodes = (s.nodes.map fun _ node ↦ node.reloaded) ∧
      s'.floating = s.floating ∧
      s'.sessionIds.Fresh s'.sessions ∧ s'.bufferIds.Fresh s'.buffers ∧
      s'.nodeIds.Fresh s'.nodes ∧ s'.floatingIds.Fresh s'.floating := by
  obtain ⟨sessionIds, bufferIds, nodeIds, floatingIds, hload, hsessions, hbuffers, hnodes,
    hfloatings⟩ := loadTables_toPersisted hlisted hids
  have hvalid' := hvalid
  rw [← s.reloaded_validate sessionIds bufferIds nodeIds floatingIds fuel] at hvalid'
  have hwrap : wrapUntabbedSessionRoots fuel (s.reloaded sessionIds bufferIds nodeIds floatingIds) =
      (.ok (), s.reloaded sessionIds bufferIds nodeIds floatingIds) := by
    rw [wrapUntabbedSessionRoots, Op.gets_bind_apply, untabbedRoots_eq_nil hvalid']
    rfl
  refine ⟨s.reloaded sessionIds bufferIds nodeIds floatingIds, ?_, rfl, rfl, rfl, rfl, ?_⟩
  · simp only [fromPersisted, hload, Answer.bind_ok, hwrap, hvalid', Answer.pure_eq_ok]
  · refine ⟨IdAllocator.fresh_of_lt ?_, IdAllocator.fresh_of_lt ?_, IdAllocator.fresh_of_lt ?_,
      IdAllocator.fresh_of_lt hfloatings⟩
    · exact fun id hmem ↦ hsessions id (Std.ExtTreeMap.mem_map.mp hmem)
    · exact fun id hmem ↦ hbuffers id (Std.ExtTreeMap.mem_map.mp hmem)
    · exact fun id hmem ↦ hnodes id (Std.ExtTreeMap.mem_map.mp hmem)

/-! ### A session with one pane -/

/-- A session created at the given time, with one pane. -/
def paneSince (created : Timestamp) : ServerState :=
  ((do
    let sessionId ← createSession "work" created
    let bufferId ← createBufferWithEnv "shell" [] none ∅ created
    addRootTabFromBuffer 8 sessionId "shell" bufferId : StateOp ℕ) ServerState.new).2

theorem fromPersisted_toPersisted_pane :
    ∃ s', fromPersisted 8 (paneSince ⟨0⟩).toPersisted = .ok s' ∧
      s'.nodes = (paneSince ⟨0⟩).nodes.map fun _ node ↦ node.reloaded := by
  obtain ⟨s', hload, -, -, hnodes, -⟩ := @fromPersisted_toPersisted (paneSince ⟨0⟩) 8
    (by decide +kernel) (by
      intro floatingId floating hfloating
      have hnone : (paneSince ⟨0⟩).floating.toList = [] := by decide +kernel
      rw [← Table.mem_toList, hnone] at hfloating
      cases hfloating) ⟨by decide +kernel, by decide +kernel, by decide +kernel, by decide +kernel⟩
  exact ⟨s', hload, hnodes⟩

/-- A session under the last id there is. -/
def lastSession : ServerState :=
  (createSession "last" ⟨0⟩ { ServerState.new with sessionIds := ⟨maxId⟩ }).2

/-- A time comes back without its fraction of a millisecond, and a session under the last id is
refused. -/
theorem fromPersisted_toPersisted_differs :
    ((paneSince ⟨1⟩).validate 8 = .ok () ∧ (paneSince ⟨1⟩).FloatingListed ∧
      ∃ s', fromPersisted 8 (paneSince ⟨1⟩).toPersisted = .ok s' ∧
        (s'.sessions[(1 : SessionId)]?).map Session.createdAt = some ⟨0⟩ ∧
        ((paneSince ⟨1⟩).sessions[(1 : SessionId)]?).map Session.createdAt = some ⟨1⟩) ∧
    lastSession.validate 8 = .ok () ∧ lastSession.FloatingListed ∧
      ∀ s', fromPersisted 8 lastSession.toPersisted ≠ .ok s' := by
  have hlisted : ∀ s : ServerState, s.floating.toList = [] → s.FloatingListed := by
    intro s hnone floatingId floating hfloating
    rw [← Table.mem_toList, hnone] at hfloating
    cases hfloating
  have hload : (fromPersisted 8 (paneSince ⟨1⟩).toPersisted).map (fun s' ↦
      (s'.sessions[(1 : SessionId)]?).map Session.createdAt) = .ok (some ⟨0⟩) := by
    decide +kernel
  have hrefused : (fromPersisted 8 lastSession.toPersisted).isOk = false := by
    decide +kernel
  refine ⟨⟨by decide +kernel, hlisted _ (by decide +kernel), ?_⟩, by decide +kernel,
    hlisted _ (by decide +kernel), fun s' heq ↦ ?_⟩
  · rcases hs : fromPersisted 8 (paneSince ⟨1⟩).toPersisted with e | s'
    · rw [hs] at hload
      cases hload
    · rw [hs] at hload
      exact ⟨s', rfl, Except.ok.inj hload, by decide +kernel⟩
  · rw [heq] at hrefused
    cases hrefused

end ServerState

end Embers
