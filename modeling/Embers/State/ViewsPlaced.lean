import Embers.State.Records
import Embers.State.ViewsKept

/-!
# What building and placing do to views

A new view shows its buffer before the buffer is attached to it: between the two it is the spare
one. Every operation that makes a view attaches the buffer or deletes the view again, and
everything else that builds or places changes links only.
-/

namespace Embers

namespace ServerState

open Op

variable {s s' : ServerState} {spare : Option NodeId}

/-! ## Operations that change no view -/

theorem tabsMut_sameViews (tabsId : NodeId) (f : TabsNode → TabsNode) :
    Keeps SameViews (tabsMut tabsId f) :=
  .bind (.ask _) fun _ ↦ .modify fun s ↦ sameViews_mapNode s tabsId (Node.kind_mapTabs f)

/-- An owner may be repointed unless that makes something else than tabs a session's root. -/
theorem repointOwnerReference_sameViews (sessionId : SessionId) (owner : Option NodeId)
    {oldNode newNode : NodeId}
    (h : s.isSessionRoot oldNode = true → ∃ node, s.nodes[newNode]? = some node ∧
      node.isTabs = true) :
    SameViews s (repointOwnerReference sessionId owner oldNode newNode s).2 := by
  cases owner with
  | none => exact repointRoot_sameViews sessionId h
  | some parentId =>
    have hrepoint : Keeps SameViews (do
        modify (mapNode parentId (Node.replaceChildId oldNode newNode))
        setParent newNode (some parentId) : StateOp Unit) :=
      .bind (.modify fun s ↦ sameViews_mapNode s parentId (Node.kind_replaceChildId oldNode newNode))
        fun _ ↦ setParent_sameViews newNode (some parentId)
    refine (Keeps.bind (.ask _) fun parent ↦ ?_) s
    cases parent with
    | bufferView => exact .throw _
    | split split =>
      dsimp only
      split
      · exact hrepoint
      · exact .throw _
    | tabs tabs =>
      dsimp only
      split
      · exact hrepoint
      · exact .throw _

theorem addTabSiblingAtWithFocus_sameViews (fuel : ℕ) (tabsId : NodeId) (index : ℕ)
    (title : String) (child : NodeId) (doFocus : Bool) :
    Keeps SameViews (addTabSiblingAtWithFocus fuel tabsId index title child doFocus) := by
  refine .bind (.ask _) fun sessionId ↦ .bind (.ask _) fun _ ↦
    .bind (setParent_sameViews child (some tabsId)) fun _ ↦
    .bind (.modify fun s ↦ sameViews_mapNode s tabsId (Node.kind_mapTabs _)) fun _ ↦ ?_
  split
  · exact .bind (keeps_sameViews_of_sameFrame (focusCandidateOrHeal_sameFrame fuel sessionId child))
      fun _ ↦ .pure _
  · exact .pure _

theorem addTabSibling_sameViews (fuel : ℕ) (tabsId : NodeId) (title : String) (child : NodeId) :
    Keeps SameViews (addTabSibling fuel tabsId title child) :=
  .bind (.ask _) fun _ ↦ addTabSiblingAtWithFocus_sameViews fuel tabsId _ title child true

theorem addRootTabFromSubtree_sameViews (fuel : ℕ) (sessionId : SessionId) (title : String)
    (child : NodeId) : Keeps SameViews (addRootTabFromSubtree fuel sessionId title child) :=
  .bind (.ask _) fun rootTabs ↦ addTabSibling_sameViews fuel rootTabs title child

theorem createFloatingWindow_sameViews (fuel : ℕ) (sessionId : SessionId) (rootNode : NodeId)
    (geometry : FloatGeometry) (title : Option String) (focus closeOnEmpty : Bool) :
    Keeps SameViews
      (createFloatingWindowWithOptions fuel sessionId rootNode geometry title focus closeOnEmpty) := by
  refine .bind (.ask _) fun _ ↦ .bind (.ask _) fun _ ↦ .bind (.ask _) fun _ ↦
    .bind (.update fun s ↦ sameViews_floating s _ _) fun floatingId ↦
    .bind (.modify fun s ↦ sameViews_floating s _ _) fun _ ↦
    .bind (sessionMut_sameViews sessionId fun _ ↦ rfl) fun _ ↦ ?_
  split
  · refine .bind (.attempt (keeps_sameViews_of_sameFrame (focusFloating_sameFrame fuel floatingId)))
      fun result ↦ ?_
    cases result with
    | ok => exact .pure _
    | error =>
      refine .bind (.modify fun s ↦ ?_) fun _ ↦ .throw _
      exact Trans.trans (sameViews_floating s (s.floating.erase floatingId) s.floatingIds)
        (sameViews_mapSession _ sessionId fun _ ↦ rfl)
  · exact .pure _

theorem rearrange_sameViews (firstNodeId secondNodeId : NodeId)
    (missingInSplit missingInTabs : NodeId → NodeId → MuxError)
    (inSplit : ℕ → ℕ → SplitNode → SplitNode) (inTabs : ℕ → ℕ → TabsNode → TabsNode) :
    Keeps SameViews
      (rearrange firstNodeId secondNodeId missingInSplit missingInTabs inSplit inTabs) := by
  rw [rearrange]
  split
  · exact .pure _
  · refine .bind (.ask _) fun parentId ↦ .bind (.ask _) fun parent ↦ ?_
    cases parent with
    | bufferView => exact .throw _
    | split =>
      exact .bind (.ask _) fun _ ↦ .modify fun s ↦ sameViews_mapNode s parentId (Node.kind_mapSplit _)
    | tabs =>
      exact .bind (.ask _) fun _ ↦ .modify fun s ↦ sameViews_mapNode s parentId (Node.kind_mapTabs _)

theorem setParent_snd (nodeId : NodeId) (parent : Option NodeId) (s : ServerState) :
    (setParent nodeId parent s).2 = s.mapNode nodeId (Node.setParent parent) := nodeMut_snd ..

theorem checkSplitSibling_ok {nodeId sibling : NodeId} {sessionId : SessionId}
    (h : checkSplitSibling nodeId sibling sessionId s = .ok ()) : s.isSessionRoot nodeId = false := by
  obtain ⟨_, -, h⟩ := Answer.ok_bind h
  split at h
  · cases h
  obtain ⟨parent, -, h⟩ := Answer.ok_bind h
  split at h
  · cases h
  split at h
  · cases h
  split at h
  · cases h
  split at h
  · cases h
  next hroot => exact Bool.not_eq_true _ ▸ hroot

/-! ## Breaking out -/

theorem detachNodeFromOwner_sameViews (nodeId : NodeId) :
    Keeps SameViews (detachNodeFromOwner nodeId) := by
  refine .bind (.gets _) fun isRoot ↦ ?_
  split
  · exact .throw _
  · refine .bind (.ask _) fun parent ↦ ?_
    cases parent with
    | some parentId => exact .bind (removeChild_sameViews parentId nodeId) fun _ ↦ .pure _
    | none =>
      refine .bind (.gets _) fun floatingId ↦ ?_
      cases floatingId with
      | some floatingId => exact .bind (removeFloatingWindow_sameViews floatingId) fun _ ↦ .pure _
      | none => exact .throw _

theorem restoreNodeOwner_sameViews (nodeId : NodeId) :
    ∀ owner, Keeps SameViews (restoreNodeOwner nodeId owner)
  | .parent parentId (.split index size lastFocusedDescendant) => by
    refine .bind (.bind (.ask _) fun parent ↦ ?_) fun _ ↦ setParent_sameViews nodeId _
    cases parent with
    | split => exact .modify fun s ↦ sameViews_mapNode s parentId (Node.kind_mapSplit _)
    | bufferView => exact .throw _
    | tabs => exact .throw _
  | .parent parentId (.tabs index tab active lastFocusedDescendant) =>
    .bind (tabsMut_sameViews parentId _) fun _ ↦ setParent_sameViews nodeId _
  | .floating floatingId window index focusedFloating =>
    .bind (.modify fun s ↦ sameViews_floating s _ _) fun _ ↦
      .bind (sessionMut_sameViews window.sessionId fun _ ↦ rfl) fun _ ↦ setParent_sameViews nodeId none

theorem rollbackDetachedNode_sameViews (nodeId : NodeId) (owner : NodeOwnerSnapshot) :
    Keeps SameViews (rollbackDetachedNode nodeId owner) := by
  refine .bind (.ask _) fun parent ↦ .bind (.gets _) fun floatingId ↦ ?_
  split
  · exact .bind (detachNodeFromOwner_sameViews nodeId) fun _ ↦ restoreNodeOwner_sameViews nodeId owner
  · exact restoreNodeOwner_sameViews nodeId owner

theorem orRollback_sameViews (nodeId : NodeId) (owner : NodeOwnerSnapshot) {place : StateOp Unit}
    (hplace : Keeps SameViews place) : Keeps SameViews (orRollback nodeId owner place) := by
  refine .bind (.attempt hplace) fun result ↦ ?_
  cases result with
  | ok => exact .pure _
  | error =>
    refine .bind (.attempt (rollbackDetachedNode_sameViews nodeId owner)) fun result ↦ ?_
    cases result with
    | ok => exact .throw _
    | error => exact .throw _

theorem placeBroken_sameViews (fuel : ℕ) (sessionId : SessionId) (nodeId : NodeId) (title : String)
    (doFocus : Bool) : ∀ place, Keeps SameViews (placeBroken fuel sessionId nodeId title doFocus place)
  | .popup geometry =>
    .bind (createFloatingWindow_sameViews fuel sessionId nodeId geometry (some title) true true)
      fun _ ↦ .pure _
  | .tab tabsId index =>
    .bind (addTabSiblingAtWithFocus_sameViews fuel tabsId index title nodeId doFocus) fun _ ↦ .pure _

theorem breakNode_spends (fuel : ℕ) (nodeId : NodeId) (toFloating : Bool) (s : ServerState) :
    Spends (TiedWith spare) 0 (breakNode fuel nodeId toFloating) s := by
  refine .ask_bind tiedWith_wastes fun already _ ↦ ?_
  split
  · exact .pure _
  · refine .ask_bind tiedWith_wastes fun sessionId _ ↦ .ask_bind tiedWith_wastes fun title _ ↦
      .ask_bind tiedWith_wastes fun doFocus _ ↦ .ask_bind tiedWith_wastes fun owner _ ↦
      .bind_right tiedWith_wastes (spends_of_sameViews (detachNodeFromOwner_sameViews nodeId s))
      fun oldParent t _ ↦ .ask_bind tiedWith_wastes fun place _ ↦
      .bind_right tiedWith_wastes (spends_of_sameViews (orRollback_sameViews nodeId owner
        (placeBroken_sameViews fuel sessionId nodeId title doFocus place) t)) fun _ u _ ↦
      .bind_right tiedWith_wastes (normalizeUpwards_spends fuel fuel oldParent u) fun _ v _ ↦ ?_
    exact spends_of_sameViews (keeps_sameViews_of_sameFrame
      (normalizeZoomedNode_sameFrame fuel sessionId) v)

/-! ## New sessions, buffers and containers -/

theorem createSession_spends (name : String) (now : Timestamp) (s : ServerState) :
    Spends (TiedWith spare) 1 (createSession name now) s := by
  refine .bind_right tiedWith_wastes (spends_of_sameViews (sameViews_of_sessions rfl rfl rfl rfl
    fun sessionId session h ↦ ⟨sessionId, session, h, rfl⟩)) fun sessionId t _ ↦
    nextNodeId_bind_spends fun hfresh ↦
    .bind_right tiedWith_wastes (spends_insertNode hfresh rfl) fun _ u hu ↦ ?_
  cases hu
  refine spends_of_sameViews ⟨fun _ ↦ rfl, fun _ ↦ rfl, rfl, rfl, fun sessionId' session' h ↦ ?_⟩
  change (Std.ExtTreeMap.insert _ sessionId _)[sessionId']? = some session' at h
  rw [Table.get?_insert] at h
  split at h
  · cases h
    exact .inr ⟨_, Std.ExtTreeMap.getElem?_insert_self, rfl⟩
  · exact .inl ⟨sessionId', session', h, rfl⟩

/-- A new record, which is detached. -/
theorem Tied.insertBuffer {bufferId : BufferId} {buffer : Buffer} (h : Tied spare s)
    (hfresh : bufferId ∉ s.buffers) (hissued : bufferId.raw < s.bufferIds.counter)
    (hdetached : buffer.attachment = .detached) :
    Tied spare (s.insertBuffer bufferId buffer) where
  paired nodeId bufferId' := by
    have hsame : (s.insertBuffer bufferId buffer).attachedTo bufferId' = s.attachedTo bufferId' := by
      rw [attachedTo, attachedTo, ServerState.insertBuffer, Table.get?_insert]
      split
      next heq =>
        subst heq
        rw [Std.ExtTreeMap.getElem?_eq_none hfresh, Option.bind_some, hdetached]
        rfl
      next => rfl
    rw [hsame]
    exact h.paired nodeId bufferId'
  nodesIssued := h.nodesIssued
  buffersIssued bufferId' hmem := by
    rw [ServerState.insertBuffer, Std.ExtTreeMap.mem_insert,
      Std.LawfulEqCmp.compare_eq_iff_eq] at hmem
    rcases hmem with rfl | hmem
    · exact hissued
    · exact h.buffersIssued bufferId' hmem
  rootsIssued := h.rootsIssued
  rootsTabs := h.rootsTabs

/-- Taking a buffer id and storing a detached record under it. -/
theorem insertBuffer_spends (hroom : s.bufferIds.counter.toNat + 1 < 2 ^ 64)
    {buffer : Buffer} (hdetached : buffer.attachment = .detached) :
    Spends (TiedWith spare) 0 (do
      let bufferId ← nextBufferId
      modify (insertBuffer bufferId buffer)
      pure bufferId : StateOp BufferId) s := by
  intro r h
  obtain ⟨htied, hnodes⟩ := h
  have hlater : ∀ id : UInt64, id < s.bufferIds.counter → id < s.bufferIds.advance.counter := by
    intro id hid
    rw [UInt64.lt_iff_toNat_lt] at hid ⊢
    rw [IdAllocator.advance, UInt64.toNat_add, UInt64.toNat_one]
    omega
  have hadvanced : Tied spare { s with bufferIds := s.bufferIds.advance } :=
    ⟨htied.paired, htied.nodesIssued, fun bufferId hmem ↦
      hlater _ (htied.buffersIssued bufferId hmem), htied.rootsIssued, htied.rootsTabs⟩
  have hnew : s.bufferIds.peek ∉ s.buffers := by
    intro hmem
    have hlt := htied.buffersIssued _ hmem
    rw [UInt64.lt_iff_toNat_lt] at hlt
    exact Nat.lt_irrefl _ hlt
  have hissued : s.bufferIds.peek.raw < s.bufferIds.advance.counter := by
    change s.bufferIds.counter < s.bufferIds.counter + 1
    rw [UInt64.lt_iff_toNat_lt, UInt64.toNat_add, UInt64.toNat_one]
    omega
  exact ⟨hadvanced.insertBuffer hnew hissued hdetached, hnodes⟩

theorem setParents_sameViews (nodeId : NodeId) (children : List NodeId) :
    Keeps SameViews (forEach (fun child ↦ setParent child (some nodeId)) children) :=
  .forEach (fun child ↦ setParent_sameViews child (some nodeId)) children

/-- Adopting children and storing the container under its fresh id. -/
theorem adopt_spends {nodeId : NodeId} {node : Node} (hfresh : FreshNode nodeId s)
    (hshows : node.shows = none) (children : List NodeId) :
    Spends (TiedWith spare) 0 (do
      forEach (fun child ↦ setParent child (some nodeId)) children
      modify (insertNode nodeId node)
      pure nodeId : StateOp NodeId) s := by
  have hsame := setParents_sameViews nodeId children s
  refine .bind_right tiedWith_wastes (spends_of_sameViews hsame) fun _ t ht ↦ ?_
  rw [ht] at hsame
  exact .bind_right tiedWith_wastes (spends_insertNode (hsame.freshNode hfresh) hshows) fun _ _ _ ↦
    .pure _

theorem createSplitNode_spends (sessionId : SessionId) (direction : SplitDirection)
    (children : List NodeId) (s : ServerState) :
    Spends (TiedWith spare) 1 (createSplitNode sessionId direction children) s := by
  refine .ask_bind tiedWith_wastes fun _ _ ↦ ?_
  split
  · exact .mono tiedWith_wastes (.throw _) (Nat.zero_le 1)
  · exact nextNodeId_bind_spends fun hfresh ↦ .ask_bind tiedWith_wastes fun _ _ ↦
      adopt_spends hfresh rfl children

theorem createTabsNode_spends (sessionId : SessionId) (tabs : List TabEntry) (active : ℕ)
    (s : ServerState) : Spends (TiedWith spare) 1 (createTabsNode sessionId tabs active) s :=
  .ask_bind tiedWith_wastes fun _ _ ↦ nextNodeId_bind_spends fun hfresh ↦
    .ask_bind tiedWith_wastes fun _ _ ↦ adopt_spends hfresh rfl (tabs.map TabEntry.child)

/-! ## New views -/

/-- The buffer a view shows is attached to it; nothing is spare any more. -/
theorem Tied.attach {nodeId : NodeId} {bufferId : BufferId} {f : Buffer → Buffer}
    (h : Tied spare s) (hspare : spare = none ∨ spare = some nodeId) (hmem : bufferId ∈ s.buffers)
    (hfree : s.attachedTo bufferId = none ∨ s.attachedTo bufferId = some nodeId)
    (hview : s.shown nodeId = some bufferId) (hf : ∀ buffer, (f buffer).attachment = .attached nodeId) :
    Tied none (s.mapBuffer bufferId f) where
  paired nodeId' bufferId' := by
    rw [and_iff_left nofun, attachedTo_mapBuffer]
    by_cases hbuffer : bufferId = bufferId'
    · subst hbuffer
      obtain ⟨buffer, hget⟩ := Option.isSome_iff_exists.mp
        (Std.ExtTreeMap.isSome_getElem?_iff_mem.mpr hmem)
      rw [if_pos rfl, hget, Option.bind_some, hf]
      change some nodeId = some nodeId' ↔ s.shown nodeId' = some bufferId
      by_cases hnode : nodeId = nodeId'
      · rw [← hnode, hview]
        exact iff_of_true rfl rfl
      · rw [Option.some_inj]
        refine iff_of_false hnode fun hshown ↦ ?_
        -- A second view of the buffer would have it attached already.
        have hother : s.attachedTo bufferId = some nodeId' := by
          refine (h.paired nodeId' bufferId).mpr ⟨hshown, ?_⟩
          rcases hspare with rfl | rfl
          · exact nofun
          · exact fun heq ↦ hnode (Option.some_inj.mp heq)
        rcases hfree with hfree | hfree <;> rw [hfree] at hother
        · cases hother
        · exact hnode (Option.some_inj.mp hother)
    · rw [if_neg hbuffer, h.paired]
      refine and_iff_left_of_imp fun hshown hsome ↦ hbuffer ?_
      rcases hspare with rfl | rfl
      · cases hsome
      · cases hsome
        rw [hview, Option.some_inj] at hshown
        exact hshown
  nodesIssued := h.nodesIssued
  buffersIssued other hother := h.buffersIssued other (Std.ExtTreeMap.mem_modify.mp hother)
  rootsIssued := h.rootsIssued
  rootsTabs := h.rootsTabs

/-- The view whose buffer is detached from it is spare. -/
theorem Tied.unattach {nodeId : NodeId} {bufferId : BufferId} (h : Tied spare s)
    (hspare : spare = none ∨ spare = some nodeId) (hview : s.shown nodeId = some bufferId) :
    Tied (some nodeId) (s.mapBuffer bufferId fun buffer ↦
      if buffer.attachment = .attached nodeId then { buffer with attachment := .detached }
      else buffer) where
  paired nodeId' bufferId' := by
    have hpaired := h.paired nodeId' bufferId'
    rw [attachedTo_mapBuffer]
    change _ ↔ s.shown nodeId' = some bufferId' ∧ _
    by_cases hnode : nodeId = nodeId'
    · subst hnode
      refine iff_of_false ?_ fun hnone ↦ hnone.2 rfl
      by_cases hbuffer : bufferId = bufferId'
      · subst hbuffer
        rw [if_pos rfl]
        cases s.buffers[bufferId]? with
        | none => exact nofun
        | some buffer =>
          rw [Option.bind_some]
          split
          · exact nofun
          next hne =>
            intro hview'
            cases hattachment : buffer.attachment <;> rw [hattachment] at hne hview'
            · cases hview'
              exact hne rfl
            · cases hview'
      · rw [if_neg hbuffer, hpaired]
        rintro ⟨hshown, -⟩
        rw [hview, Option.some_inj] at hshown
        exact hbuffer hshown
    · have hspare' : spare ≠ some nodeId' := by
        rcases hspare with rfl | rfl
        · exact nofun
        · exact fun heq ↦ hnode (Option.some_inj.mp heq)
      rw [and_iff_left hspare'] at hpaired
      rw [and_iff_left fun heq ↦ hnode (Option.some_inj.mp heq), ← hpaired]
      split
      next hbuffer =>
        subst hbuffer
        rw [attachedTo]
        cases s.buffers[bufferId]? with
        | none => exact Iff.rfl
        | some buffer =>
          rw [Option.bind_some, Option.bind_some]
          split
          next hattachment =>
            rw [hattachment]
            exact iff_of_false nofun fun heq ↦ hnode (Option.some_inj.mp heq)
          next => exact Iff.rfl
      next => exact Iff.rfl
  nodesIssued := h.nodesIssued
  buffersIssued other hother := h.buffersIssued other (Std.ExtTreeMap.mem_modify.mp hother)
  rootsIssued := h.rootsIssued
  rootsTabs := h.rootsTabs

/-- A spare view may show anything. -/
theorem Tied.showSpare {nodeId : NodeId} (h : Tied (some nodeId) s)
    {f : BufferViewNode → BufferViewNode} :
    Tied (some nodeId) (s.mapNode nodeId (Node.mapView f)) where
  paired nodeId' bufferId := by
    change s.attachedTo bufferId = some nodeId' ↔ _
    rw [h.paired, shown, shown, mapNode, Table.get?_modify]
    split
    next heq =>
      subst heq
      exact iff_of_false (fun hnone ↦ hnone.2 rfl) fun hnone ↦ hnone.2 rfl
    next => exact Iff.rfl
  nodesIssued nodeId' hmem := h.nodesIssued nodeId' (Std.ExtTreeMap.mem_modify.mp hmem)
  buffersIssued := h.buffersIssued
  rootsIssued := h.rootsIssued
  rootsTabs sessionId session node hsession hroot := by
    rw [mapNode, Table.get?_modify] at hroot
    split at hroot
    · obtain ⟨node₀, hnode₀, rfl⟩ := Option.map_eq_some_iff.mp hroot
      have htabs := h.rootsTabs sessionId session node₀ hsession hnode₀
      cases node₀ with
      | tabs => rfl
      | bufferView => cases htabs
      | split => cases htabs
    · exact h.rootsTabs sessionId session node hsession hroot

theorem setBufferAttached_eq {bufferId : BufferId} {nodeId : NodeId} (h : bufferId ∈ s.buffers) :
    setBufferAttached bufferId nodeId s = (.ok (), s.mapBuffer bufferId fun buffer ↦
      { buffer with attachment := .attached nodeId, everAttached := true }) := by
  obtain ⟨buffer, hget⟩ := Option.isSome_iff_exists.mp
    (Std.ExtTreeMap.isSome_getElem?_iff_mem.mpr h)
  rw [setBufferAttached, bufferMut, bind_apply, ask_apply, ServerState.buffer, hget]
  rfl

/-- What is checked before a buffer is attached. -/
theorem attachBuffer_free {bufferId : BufferId} {nodeId : NodeId} {buffer : Buffer}
    (hbuffer : s.buffer bufferId = .ok buffer)
    (h : attachedElsewhere bufferId nodeId buffer.attachment = .ok ()) :
    s.attachedTo bufferId = none ∨ s.attachedTo bufferId = some nodeId := by
  rw [attachedTo, buffer_eq_ok.mp hbuffer, Option.bind_some]
  cases hattachment : buffer.attachment with
  | detached => exact .inl rfl
  | attached view =>
    rw [hattachment, attachedElsewhere] at h
    split at h
    · cases h
    next heq => exact .inr (congrArg some (not_not.mp heq))

theorem bufferViewBufferId_eq_ok {nodeId : NodeId} {bufferId : BufferId}
    (h : s.bufferViewBufferId nodeId = .ok bufferId) : s.shown nodeId = some bufferId := by
  obtain ⟨node, hnode, h⟩ := Answer.ok_bind h
  rw [shown_eq (node_eq_ok.mp hnode)]
  cases node with
  | bufferView leaf =>
    cases h
    rfl
  | split => cases h
  | tabs => cases h

theorem mem_of_buffer_eq_ok {bufferId : BufferId} {buffer : Buffer}
    (h : s.buffer bufferId = .ok buffer) : bufferId ∈ s.buffers := by
  rw [← Std.ExtTreeMap.isSome_getElem?_iff_mem, buffer_eq_ok.mp h]
  rfl

/-- Attaching refuses before it changes anything, and always returns. -/
theorem attachBuffer_error {bufferId : BufferId} {nodeId : NodeId} {e : Fault MuxError}
    (h : attachBuffer bufferId nodeId s = (.error e, s')) : s' = s ∧ e ≠ .diverges := by
  rcases error_ask_bind h with ⟨hbuffer, rfl⟩ | ⟨buffer, hbuffer, h⟩
  · exact ⟨rfl, fun he ↦ Answer.ofOption_ne_diverges (he ▸ hbuffer)⟩
  rcases error_ask_bind h with ⟨helsewhere, rfl⟩ | ⟨_, -, h⟩
  · refine ⟨rfl, fun he ↦ ?_⟩
    rw [attachedElsewhere.eq_def, he] at helsewhere
    split at helsewhere
    · split at helsewhere <;> cases helsewhere
    · cases helsewhere
  rcases error_ask_bind h with ⟨hview, rfl⟩ | ⟨current, -, h⟩
  · refine ⟨rfl, fun he ↦ ?_⟩
    rw [he, bufferViewBufferId, ServerState.node] at hview
    rcases hget : s'.nodes[nodeId]? with _ | (_ | _ | _) <;> rw [hget] at hview <;> cases hview
  have hmem := mem_of_buffer_eq_ok hbuffer
  split at h
  · rw [modify_bind_apply, modify_bind_apply,
      setBufferAttached_eq (Std.ExtTreeMap.mem_modify.mpr hmem)] at h
    cases h
  · rw [setBufferAttached_eq hmem] at h
    cases h

/-- Once attached, the view is tied to its buffer. -/
theorem attachBuffer_tied {bufferId : BufferId} {nodeId : NodeId}
    (h : attachBuffer bufferId nodeId s = (.ok (), s')) (htied : Tied spare s)
    (hspare : spare = none ∨ spare = some nodeId) : Tied none s' := by
  obtain ⟨buffer, hbuffer, h⟩ := ok_ask_bind h
  obtain ⟨_, helsewhere, h⟩ := ok_ask_bind h
  obtain ⟨current, hcurrent, h⟩ := ok_ask_bind h
  have hmem := mem_of_buffer_eq_ok hbuffer
  have hfree := attachBuffer_free hbuffer helsewhere
  have hview := bufferViewBufferId_eq_ok hcurrent
  split at h
  next hne =>
    rw [modify_bind_apply, modify_bind_apply,
      setBufferAttached_eq (Std.ExtTreeMap.mem_modify.mpr hmem)] at h
    cases h
    have hspared := (htied.unattach hspare hview).showSpare
      (f := fun leaf ↦ { leaf with bufferId })
    refine hspared.attach (.inr rfl) (Std.ExtTreeMap.mem_modify.mpr hmem) ?_ ?_ fun _ ↦ rfl
    · change (s.mapBuffer current _).attachedTo bufferId = none ∨
        (s.mapBuffer current _).attachedTo bufferId = some nodeId
      rw [attachedTo_mapBuffer, if_neg hne]
      exact hfree
    · obtain ⟨node, hnode, hshows⟩ := Option.bind_eq_some_iff.mp hview
      rw [shown]
      change ((s.nodes.modify nodeId _)[nodeId]?).bind _ = _
      rw [Table.get?_modify, if_pos rfl, hnode, Option.map_some, Option.bind_some]
      cases node with
      | bufferView => rfl
      | split => cases hshows
      | tabs => cases hshows
  next heq =>
    rw [not_not] at heq
    rw [setBufferAttached_eq hmem] at h
    cases h
    exact htied.attach hspare hmem hfree (heq ▸ hview) fun _ ↦ rfl

/-- Attaching takes no node id and makes no session. -/
def SameIds (s s' : ServerState) : Prop := s'.nodeIds = s.nodeIds ∧ s'.sessions = s.sessions

instance : Std.Refl SameIds := ⟨fun _ ↦ ⟨rfl, rfl⟩⟩

instance : IsTrans ServerState SameIds where
  trans _ _ _ h h' := ⟨h'.1.trans h.1, h'.2.trans h.2⟩

theorem setBufferAttached_sameIds (bufferId : BufferId) (nodeId : NodeId) :
    Keeps SameIds (setBufferAttached bufferId nodeId) := fun s ↦ by
  rw [setBufferAttached, bufferMut_snd]
  exact ⟨rfl, rfl⟩

theorem attachBuffer_sameIds (bufferId : BufferId) (nodeId : NodeId) :
    Keeps SameIds (attachBuffer bufferId nodeId) := by
  refine .bind (.ask _) fun _ ↦ .bind (.ask _) fun _ ↦ .bind (.ask _) fun _ ↦ ?_
  split
  · exact .bind (.modify fun _ ↦ ⟨rfl, rfl⟩) fun _ ↦ .bind (.modify fun _ ↦ ⟨rfl, rfl⟩) fun _ ↦
      setBufferAttached_sameIds bufferId nodeId
  · exact setBufferAttached_sameIds bufferId nodeId

theorem attachBuffer_spends (bufferId : BufferId) (nodeId : NodeId) (s : ServerState) :
    Spends (TiedWith none) 0 (attachBuffer bufferId nodeId) s := by
  intro r h
  have hids := (attachBuffer_sameIds bufferId nodeId s).1
  rcases hattach : attachBuffer bufferId nodeId s with ⟨e | _, t⟩
  · rw [(attachBuffer_error hattach).1]
    exact h
  · rw [hattach] at hids
    exact ⟨attachBuffer_tied hattach h.1 (.inl rfl), hids ▸ h.2⟩

/-! ## Making a view -/

/-- A view of the buffer that is not attached to it, under a fresh id. -/
theorem Tied.insertView {nodeId : NodeId} {leaf : BufferViewNode} (h : Tied none s)
    (hfresh : FreshNode nodeId s) : Tied (some nodeId) (s.insertNode nodeId (.bufferView leaf)) where
  paired nodeId' bufferId := by
    change s.attachedTo bufferId = some nodeId' ↔ _
    rw [h.paired, shown_insertNode]
    split
    next heq =>
      subst heq
      rw [shown, Std.ExtTreeMap.getElem?_eq_none hfresh.1]
      constructor
      · rintro ⟨hnone, -⟩
        cases hnone
      · rintro ⟨-, hself⟩
        exact absurd rfl hself
    next hne =>
      rw [and_iff_left (Option.some_ne_none nodeId').symm,
        and_iff_left fun heq ↦ hne (Option.some_inj.mp heq)]
  nodesIssued nodeId' hmem := by
    rcases mem_nodes_insertNode.mp hmem with rfl | hmem
    · exact hfresh.2.1
    · exact h.nodesIssued nodeId' hmem
  buffersIssued := h.buffersIssued
  rootsIssued := h.rootsIssued
  rootsTabs := h.insertNode_rootsTabs hfresh

/-- A spare view that is gone leaves everything tied. -/
theorem Tied.spareGone {nodeId : NodeId} (h : Tied (some nodeId) s)
    (hgone : s.shown nodeId = none) : Tied none s where
  paired nodeId' bufferId := by
    rw [h.paired]
    constructor
    · rintro ⟨hshown, -⟩
      exact ⟨hshown, nofun⟩
    · rintro ⟨hshown, -⟩
      refine ⟨hshown, fun heq ↦ ?_⟩
      rw [← Option.some_inj.mp heq, hgone] at hshown
      cases hshown
  nodesIssued := h.nodesIssued
  buffersIssued := h.buffersIssued
  rootsIssued := h.rootsIssued
  rootsTabs := h.rootsTabs

/-- A new view: spare, under an id that named nothing before. -/
theorem createUnattachedBufferView_ok {sessionId : SessionId} {bufferId : BufferId}
    {nodeId : NodeId} {r : ℕ} (htied : TiedWith none (r + 1) s)
    (h : createUnattachedBufferView sessionId bufferId s = (.ok nodeId, s')) :
    TiedWith (some nodeId) r s' ∧ s'.shown nodeId = some bufferId ∧ s'.sessions = s.sessions ∧
      s'.buffers = s.buffers ∧ nodeId ∉ s.nodes := by
  obtain ⟨_, -, h⟩ := ok_ask_bind h
  obtain ⟨buffer, -, h⟩ := ok_ask_bind h
  obtain ⟨fresh, t, hnext, h⟩ := ok_bind h
  have hfresh := nextNodeId_fresh htied hnext
  have hroom := nextNodeId_spends r htied
  rw [hnext] at hroom
  cases hnext
  cases h
  refine ⟨⟨hroom.1.insertView hfresh, hroom.2⟩, ?_, rfl, rfl, hfresh.1⟩
  rw [shown_insertNode, if_pos rfl]
  rfl

theorem createUnattachedBufferView_error {sessionId : SessionId} {bufferId : BufferId}
    {e : Fault MuxError}
    (h : createUnattachedBufferView sessionId bufferId s = (.error e, s')) : s' = s := by
  rcases error_ask_bind h with ⟨-, rfl⟩ | ⟨_, -, h⟩
  · rfl
  rcases error_ask_bind h with ⟨-, rfl⟩ | ⟨buffer, -, h⟩
  · rfl
  cases h

theorem createBufferView_spends (sessionId : SessionId) (bufferId : BufferId) (s : ServerState) :
    Spends (TiedWith none) 1 (createBufferView sessionId bufferId) s := by
  intro r h
  rw [createBufferView, bind_apply]
  rcases hcreate : createUnattachedBufferView sessionId bufferId s with ⟨e | nodeId, t⟩
  · rw [createUnattachedBufferView_error hcreate]
    exact tiedWith_wastes r 1 s h
  · obtain ⟨⟨htied, hroom⟩, -⟩ := createUnattachedBufferView_ok h hcreate
    have hids := (attachBuffer_sameIds bufferId nodeId t).1
    simp only [bind_apply, attempt]
    rcases hattach : attachBuffer bufferId nodeId t with ⟨(e | _) | _, u⟩
    · -- The view is deleted again; nothing was attached to it.
      rw [(attachBuffer_error hattach).1]
      refine ⟨(htied.eraseNode fun other ↦ ?_).spareGone ?_, hroom⟩
      · rw [ne_eq, htied.paired]
        exact fun hnone ↦ hnone.2 rfl
      · rw [shown_eraseNode, if_pos rfl]
    · exact absurd rfl (attachBuffer_error hattach).2
    · rw [hattach] at hids
      exact ⟨attachBuffer_tied hattach htied (.inr rfl), hids ▸ hroom⟩

theorem createBufferView_sameSessions (sessionId : SessionId) (bufferId : BufferId) :
    Keeps (fun s s' ↦ s'.sessions = s.sessions) (createBufferView sessionId bufferId) := by
  have htrans : IsTrans ServerState fun s s' ↦ s'.sessions = s.sessions :=
    ⟨fun _ _ _ h h' ↦ h'.trans h⟩
  refine .bind ?_ fun nodeId ↦ .bind (.attempt fun s ↦ (attachBuffer_sameIds bufferId nodeId s).2)
    fun result ↦ ?_
  · exact .bind (.ask _) fun _ ↦ .bind (.ask _) fun _ ↦ .bind (.update fun _ ↦ rfl) fun _ ↦
      .bind (.modify fun _ ↦ rfl) fun _ ↦ .pure _
  · cases result with
    | ok => exact .pure _
    | error => exact .bind (.modify fun _ ↦ rfl) fun _ ↦ .throw _

/-- Placing a new view, or taking it back. -/
theorem placeNewView_spends {α : Type} (fuel : ℕ) (view : NodeId) {place : StateOp α}
    (hplace : Keeps SameViews place) (s : ServerState) :
    Spends (TiedWith spare) 1 (placeNewView fuel view place) s := by
  refine .bind_right tiedWith_wastes (.attempt (spends_of_sameViews (hplace s))) fun result t _ ↦ ?_
  cases result with
  | ok => exact .mono tiedWith_wastes (.pure _) (Nat.zero_le 1)
  | error =>
    exact .bind_left tiedWith_wastes (discardBufferView_spends fuel view t) fun _ _ _ ↦ .throw _

theorem addTabFromBufferAt_spends (fuel : ℕ) (tabsId : NodeId) (index : ℕ) (title : String)
    (bufferId : BufferId) (s : ServerState) :
    Spends (TiedWith none) 2 (addTabFromBufferAt fuel tabsId index title bufferId) s :=
  .ask_bind tiedWith_wastes fun tabs _ ↦ .bind (k := 1) (l := 1) tiedWith_wastes
    (createBufferView_spends tabs.sessionId bufferId s) fun child t _ ↦
    placeNewView_spends fuel child
      (addTabSiblingAtWithFocus_sameViews fuel tabsId index title child true) t

theorem addRootTabFromBuffer_spends (fuel : ℕ) (sessionId : SessionId) (title : String)
    (bufferId : BufferId) (s : ServerState) :
    Spends (TiedWith none) 2 (addRootTabFromBuffer fuel sessionId title bufferId) s :=
  .ask_bind tiedWith_wastes fun rootTabs _ ↦ .bind (k := 1) (l := 1) tiedWith_wastes
    (createBufferView_spends sessionId bufferId s) fun child t _ ↦
    placeNewView_spends fuel child (addTabSibling_sameViews fuel rootTabs title child) t

theorem createFloatingFromBuffer_spends (fuel : ℕ) (sessionId : SessionId) (bufferId : BufferId)
    (geometry : FloatGeometry) (title : Option String) (focus closeOnEmpty : Bool)
    (s : ServerState) : Spends (TiedWith none) 2 (createFloatingFromBufferWithOptions fuel sessionId
      bufferId geometry title focus closeOnEmpty) s :=
  .bind (k := 1) (l := 1) tiedWith_wastes (createBufferView_spends sessionId bufferId s)
    fun rootNode t _ ↦ placeNewView_spends fuel rootNode
      (createFloatingWindow_sameViews fuel sessionId rootNode geometry title focus closeOnEmpty) t

/-! ## Wrapping -/

variable {I : ℕ → ServerState → Prop}

theorem wrapNodeInTabs_spends (hI : Steady I) (nodeId : NodeId) (title : String) (s : ServerState) :
    Spends I 1 (wrapNodeInTabs nodeId title) s := by
  refine .ask_bind hI.wastes fun sessionId _ ↦ .ask_bind hI.wastes fun oldParent _ ↦
    hI.next_bind fun hfresh ↦ .ask_bind hI.wastes fun node _ ↦
    .bind_right hI.wastes (hI.insert hfresh rfl) fun _ t ht ↦ ?_
  have htabs : ∃ node, t.nodes[s.nodeIds.peek]? = some node ∧ node.isTabs = true := by
    cases ht
    exact ⟨_, Std.ExtTreeMap.getElem?_insert_self, rfl⟩
  have hsame := setParent_sameViews nodeId (some s.nodeIds.peek) t
  refine .bind_right hI.wastes (hI.same hsame) fun _ u hu ↦
    .bind_right hI.wastes (hI.same
      (repointOwnerReference_sameViews sessionId oldParent fun _ ↦ ?_)) fun _ _ _ ↦ .pure _
  rw [hu] at hsame
  exact hsame.tabs htabs

/-- A split goes in the place of a node that is no session's root. -/
theorem insertSplitAround_spends (hI : Steady I) (sessionId : SessionId) {nodeId : NodeId}
    (oldParent : Option NodeId) {splitId : NodeId} (direction : SplitDirection)
    (first second : NodeId) (lastFocusedDescendant : Option NodeId) (hfresh : FreshNode splitId s)
    (hroot : s.isSessionRoot nodeId = false) :
    Spends I 0 (insertSplitAround sessionId nodeId oldParent splitId direction first
      second lastFocusedDescendant) s := by
  refine .bind_right hI.wastes (hI.insert hfresh rfl) fun _ t ht ↦ ?_
  cases ht
  refine hI.same (moves_bind (setParent_sameViews first _ _) fun _ u hu ↦
    moves_bind (setParent_sameViews second _ u) fun _ v hv ↦
    repointOwnerReference_sameViews sessionId oldParent fun htrue ↦ ?_)
  have hkept : v.isSessionRoot nodeId = s.isSessionRoot nodeId := by
    have hu' := congrArg Prod.snd hu
    have hv' := congrArg Prod.snd hv
    rw [setParent_snd] at hu' hv'
    rw [← show _ = v from hv', ← show _ = u from hu']
    rfl
  rw [hkept, hroot] at htrue
  cases htrue

theorem wrapNodeInSplitWithFocus_spends (hI : Steady I) (fuel : ℕ) (nodeId : NodeId) (direction : SplitDirection)
    (sibling : NodeId) (insertBefore doFocus : Bool) (s : ServerState) :
    Spends I 1
      (wrapNodeInSplitWithFocus fuel nodeId direction sibling insertBefore doFocus) s := by
  refine .ask_bind hI.wastes fun sessionId _ ↦ .ask_bind hI.wastes fun _ hcheck ↦ ?_
  have hroot := checkSplitSibling_ok hcheck
  refine .ask_bind hI.wastes fun oldParent _ ↦ hI.next_bind fun hfresh ↦
    .ask_bind hI.wastes fun candidate _ ↦ ?_
  have hfocus : ∀ t, Spends I 0 (if doFocus = true then do
      focusCandidateOrHeal fuel sessionId sibling
      pure s.nodeIds.peek
    else pure s.nodeIds.peek : StateOp NodeId) t := by
    intro t
    split
    · exact hI.same (keeps_sameViews_of_sameFrame
        (.bind (focusCandidateOrHeal_sameFrame fuel sessionId sibling) fun _ ↦ .pure _) t)
    · exact .pure _
  dsimp only
  split
  · exact .bind_right hI.wastes (insertSplitAround_spends hI sessionId oldParent direction sibling
      nodeId candidate hfresh hroot) fun _ t _ ↦ hfocus t
  · exact .bind_right hI.wastes (insertSplitAround_spends hI sessionId oldParent direction nodeId
      sibling candidate hfresh hroot) fun _ t _ ↦ hfocus t

theorem splitLeafWithNewBuffer_spends (fuel : ℕ) (leafId : NodeId) (direction : SplitDirection)
    (newBuffer : BufferId) (s : ServerState) :
    Spends (TiedWith none) 2 (splitLeafWithNewBuffer fuel leafId direction newBuffer) s := by
  refine spends_of_tied fun htied ↦ .ask_bind tiedWith_wastes fun _ hleaf ↦ ?_
  have hroot : s.isSessionRoot leafId = false := by
    obtain ⟨node, hnode, hview⟩ := Answer.ok_bind hleaf
    refine htied.isSessionRoot_eq_false (node_eq_ok.mp hnode) ?_
    cases node with
    | bufferView => rfl
    | split => cases hview
    | tabs => cases hview
  refine .ask_bind tiedWith_wastes fun sessionId _ ↦ .ask_bind tiedWith_wastes fun oldParent _ ↦
    .bind (k := 1) (l := 1) tiedWith_wastes (createBufferView_spends sessionId newBuffer s)
    fun newLeaf t ht ↦ nextNodeId_bind_spends fun hfresh ↦ .bind_right tiedWith_wastes
    (insertSplitAround_spends tiedWith_steady sessionId oldParent direction leafId newLeaf (some newLeaf) hfresh ?_)
    fun _ u _ ↦ ?_
  · have hsessions := createBufferView_sameSessions sessionId newBuffer s
    rw [ht] at hsessions
    change t.isSessionRoot leafId = false
    rw [isSessionRoot, show t.sessions = s.sessions from hsessions]
    exact hroot
  · exact spends_of_sameViews (keeps_sameViews_of_sameFrame
      (.bind (focusLeaf_sameFrame fuel sessionId newLeaf) fun _ ↦ .pure _) u)

/-! ## Moving a buffer -/

theorem leaveSource_spends (fuel : ℕ) (targetSession : SessionId) (source : Option NodeId)
    (s : ServerState) : Spends (TiedWith spare) 1 (leaveSource fuel targetSession source) s := by
  cases source with
  | none => exact .mono tiedWith_wastes (.pure _) (Nat.zero_le 1)
  | some sourceView =>
    refine .ask_bind tiedWith_wastes fun sourceSession _ ↦ ?_
    split
    · exact .mono tiedWith_wastes (.throw _) (Nat.zero_le 1)
    · exact closeNode_spends fuel sourceView s

theorem moveBufferToLeaf_spends (fuel : ℕ) (bufferId : BufferId) (targetLeaf : NodeId)
    (s : ServerState) : Spends (TiedWith none) 1 (moveBufferToLeaf fuel bufferId targetLeaf) s := by
  refine .ask_bind tiedWith_wastes fun _ _ ↦ .ask_bind tiedWith_wastes fun targetSession _ ↦
    .ask_bind tiedWith_wastes fun buffer _ ↦ ?_
  have hfocus : ∀ t, Spends (TiedWith none) 0 (focusLeaf fuel targetSession targetLeaf) t :=
    fun t ↦ spends_of_sameViews (keeps_sameViews_of_sameFrame
      (focusLeaf_sameFrame fuel targetSession targetLeaf) t)
  dsimp only
  split
  · exact .mono tiedWith_wastes (hfocus s) (Nat.zero_le 1)
  · exact .bind_left tiedWith_wastes (leaveSource_spends fuel targetSession _ s) fun _ t _ ↦
      .bind_right tiedWith_wastes (attachBuffer_spends bufferId targetLeaf t) fun _ u _ ↦ hfocus u

end ServerState

end Embers
