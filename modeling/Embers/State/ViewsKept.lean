import Embers.State.Close
import Embers.State.Validate
import Embers.State.Views

/-!
# What closing does to views

Deleting a view detaches its buffer first, and nothing else deletes a view, so what is tied stays
tied however an operation ends. A new node takes one id: `TiedWith r` is `Tied` with ids left for
`r` more nodes, and each operation spends as many as it may make.
-/

namespace Embers

namespace ServerState

open Op

variable {s s' : ServerState} {spare : Option NodeId}

/-! ## Operations that change no view -/

theorem nodeMut_sameViews (nodeId : NodeId) {f : Node → Node}
    (hf : ∀ node, (f node).kind = node.kind) : Keeps SameViews (nodeMut nodeId f) := fun s ↦ by
  rw [nodeMut_snd]
  exact sameViews_mapNode s nodeId hf

theorem sessionMut_sameViews (sessionId : SessionId) {f : Session → Session}
    (hf : ∀ session, (f session).rootNode = session.rootNode) :
    Keeps SameViews (sessionMut sessionId f) := fun s ↦ by
  rw [sessionMut_snd]
  exact sameViews_mapSession s sessionId hf

theorem floatingMut_sameViews (floatingId : FloatingId) (f : FloatingWindow → FloatingWindow) :
    Keeps SameViews (floatingMut floatingId f) := fun s ↦ by
  rw [floatingMut_snd]
  exact sameViews_floating s _ _

theorem bufferMut_sameViews (bufferId : BufferId) {f : Buffer → Buffer}
    (hf : ∀ buffer, (f buffer).attachment = buffer.attachment) :
    Keeps SameViews (bufferMut bufferId f) := fun s ↦ by
  rw [bufferMut_snd]
  exact sameViews_mapBuffer s bufferId hf

theorem keeps_sameViews_of_sameFrame {α : Type} {m : StateOp α} (h : Keeps SameFrame m) :
    Keeps SameViews m := fun s ↦ (h s).sameViews

theorem setParent_sameViews (nodeId : NodeId) (parent : Option NodeId) :
    Keeps SameViews (setParent nodeId parent) :=
  nodeMut_sameViews nodeId (Node.kind_setParent parent)

theorem replaceChild_sameViews (parentId oldChild newChild : NodeId) :
    Keeps SameViews (replaceChild parentId oldChild newChild) := by
  refine .bind (.ask _) fun _ ↦ .bind (.ask _) fun _ ↦ .bind (.ask _) fun _ ↦
    .bind (.ask _) fun parent ↦ ?_
  split
  · exact .throw _
  · split
    · exact .bind (.modify fun s ↦ sameViews_mapNode s parentId
        (Node.kind_replaceChildId oldChild newChild)) fun _ ↦
        .bind (setParent_sameViews oldChild none) fun _ ↦ setParent_sameViews newChild _
    · exact .throw _

theorem removeChild_sameViews (parentId childId : NodeId) :
    Keeps SameViews (removeChild parentId childId) := by
  refine .bind (.ask _) fun parent ↦ ?_
  split
  · exact .throw _
  · split
    · exact .bind (.modify fun s ↦ sameViews_mapNode s parentId (Node.kind_removeChildId childId))
        fun _ ↦ setParent_sameViews childId none
    · exact .throw _

theorem removeFloatingWindow_sameViews (floatingId : FloatingId) :
    Keeps SameViews (removeFloatingWindow floatingId) :=
  .bind (.ask _) fun floating ↦ .bind (.modify fun s ↦ sameViews_floating s _ _) fun _ ↦
    .bind (.modify fun s ↦ sameViews_mapSession s floating.sessionId fun _ ↦ rfl) fun _ ↦ .pure _

/-- Tabs may become a session's root. -/
theorem setRoot_sameViews (sessionId : SessionId) {newRoot : NodeId} {node : Node}
    (hnode : s.nodes[newRoot]? = some node) (htabs : node.isTabs = true) :
    SameViews s (sessionMut sessionId (fun session ↦ { session with rootNode := newRoot }) s).2 := by
  rw [sessionMut_snd]
  refine ⟨fun _ ↦ rfl, fun _ ↦ rfl, rfl, rfl, fun sessionId' session' hsession' ↦ ?_⟩
  rw [mapSession, Table.get?_modify] at hsession'
  split at hsession'
  · obtain ⟨session, -, rfl⟩ := Option.map_eq_some_iff.mp hsession'
    exact .inr ⟨node, hnode, htabs⟩
  · exact .inl ⟨sessionId', session', hsession', rfl⟩

/-- A root may be repointed unless that makes something else than tabs a session's root. -/
theorem repointRoot_sameViews (sessionId : SessionId) {oldNode newNode : NodeId}
    (h : s.isSessionRoot oldNode = true → ∃ node, s.nodes[newNode]? = some node ∧
      node.isTabs = true) : SameViews s (repointRoot sessionId oldNode newNode s).2 := by
  rw [repointRoot, gets_bind_apply]
  split
  next hroot =>
    obtain ⟨node, hnode, htabs⟩ := h hroot
    exact moves_bind (setRoot_sameViews sessionId hnode htabs) fun _ t _ ↦
      setParent_sameViews newNode none t
  next =>
    rw [gets_bind_apply]
    cases s.floatingIdByRoot oldNode with
    | some floatingId =>
      exact (Keeps.bind (floatingMut_sameViews floatingId _) fun _ ↦
        setParent_sameViews newNode none) s
    | none => exact Std.Refl.refl s

theorem replaceNodeInOwner_sameViews (fuel : ℕ) {oldNode : NodeId} (newNode : NodeId)
    (h : s.isSessionRoot oldNode = false) :
    SameViews s (replaceNodeInOwner fuel oldNode newNode s).2 := by
  refine moves_ask_bind fun sessionId _ ↦ moves_ask_bind fun owner _ ↦
    moves_ask_bind fun replacement _ ↦ ?_
  cases owner with
  | some parentId =>
    refine (Keeps.bind (.ask _) fun update ↦
      .bind (replaceChild_sameViews parentId oldNode newNode) fun _ ↦ ?_) s
    split
    · exact nodeMut_sameViews parentId (Node.kind_setLastFocusedDescendant replacement)
    · exact .pure _
  | none =>
    refine moves_bind (repointRoot_sameViews sessionId fun htrue ↦ ?_) fun _ t _ ↦
      setParent_sameViews oldNode none t
    rw [h] at htrue
    cases htrue

/-! ## Tied, with ids left -/

/-- What is tied, with ids left for `r` more nodes. -/
def TiedWith (spare : Option NodeId) (r : ℕ) (s : ServerState) : Prop :=
  Tied spare s ∧ s.nodeIds.counter.toNat + r < 2 ^ 64

theorem tiedWith_wastes : Wastes (TiedWith spare) := fun r k s h ↦ ⟨h.1, by have := h.2; omega⟩

theorem SameViews.tiedWith {r : ℕ} (h : SameViews s s') (htied : TiedWith spare r s) :
    TiedWith spare r s' := ⟨h.tied htied.1, by rw [h.nodeIds]; exact htied.2⟩

theorem spends_of_sameViews {α : Type} {m : StateOp α} (h : SameViews s (m s).2) :
    Spends (TiedWith spare) 0 m s := fun _ htied ↦ h.tiedWith htied

/-- To say what an operation spends, one may use what is tied before it. -/
theorem spends_of_tied {α : Type} {m : StateOp α} {k : ℕ}
    (h : Tied spare s → Spends (TiedWith spare) k m s) : Spends (TiedWith spare) k m s :=
  fun r htied ↦ h htied.1 r htied

/-- A node id that has been handed out and names nothing. -/
def FreshNode (nodeId : NodeId) (s : ServerState) : Prop :=
  nodeId ∉ s.nodes ∧ nodeId.raw < s.nodeIds.counter ∧ s.isSessionRoot nodeId = false

theorem SameViews.freshNode (h : SameViews s s') {nodeId : NodeId} (hfresh : FreshNode nodeId s) :
    FreshNode nodeId s' := by
  obtain ⟨hmem, hissued, hroot⟩ := hfresh
  refine ⟨fun hmem' ↦ hmem ((h.mem_nodes nodeId).mp hmem'), h.nodeIds ▸ hissued, ?_⟩
  rw [← Bool.not_eq_true, isSessionRoot_iff] at hroot ⊢
  rintro ⟨sessionId, session', hsession', rfl⟩
  rcases h.roots sessionId session' hsession' with ⟨sessionId₀, session, hsession, hsame⟩ | hnode
  · exact hroot ⟨sessionId₀, session, hsession, hsame⟩
  · obtain ⟨node, hnode, -⟩ := hnode
    refine hmem ?_
    rw [← Std.ExtTreeMap.isSome_getElem?_iff_mem, hnode]
    rfl

theorem nextNodeId_spends : Spends (TiedWith spare) 1 nextNodeId s := by
  intro r h
  obtain ⟨htied, hroom⟩ := h
  have hcounter : (s.nodeIds.advance).counter.toNat = s.nodeIds.counter.toNat + 1 := by
    rw [IdAllocator.advance, UInt64.toNat_add, UInt64.toNat_one]
    omega
  have hlater : ∀ id : UInt64, id < s.nodeIds.counter → id < s.nodeIds.advance.counter := by
    intro id hid
    rw [UInt64.lt_iff_toNat_lt] at hid ⊢
    omega
  refine ⟨⟨htied.paired, fun nodeId hmem ↦ hlater _ (htied.nodesIssued nodeId hmem),
    htied.buffersIssued, fun sessionId session hsession ↦
      hlater _ (htied.rootsIssued sessionId session hsession), htied.rootsTabs⟩, ?_⟩
  change s.nodeIds.advance.counter.toNat + r < 2 ^ 64
  omega

/-- The id handed out is fresh. -/
theorem nextNodeId_fresh {r : ℕ} (h : TiedWith spare (r + 1) s) {nodeId : NodeId}
    (hnext : nextNodeId s = (.ok nodeId, s')) : FreshNode nodeId s' := by
  cases hnext
  obtain ⟨htied, hroom⟩ := h
  have hnot : ¬ s.nodeIds.peek.raw < s.nodeIds.counter := by
    rw [UInt64.lt_iff_toNat_lt]
    exact Nat.lt_irrefl _
  refine ⟨fun hmem ↦ hnot (htied.nodesIssued _ hmem), ?_, ?_⟩
  · change s.nodeIds.counter < s.nodeIds.counter + 1
    rw [UInt64.lt_iff_toNat_lt, UInt64.toNat_add, UInt64.toNat_one]
    omega
  · rw [← Bool.not_eq_true, isSessionRoot_iff]
    rintro ⟨sessionId, session, hsession, hroot⟩
    have hlt := htied.rootsIssued sessionId session hsession
    rw [hroot] at hlt
    exact hnot hlt

theorem shown_insertNode (nodeId nodeId' : NodeId) (node : Node) (s : ServerState) :
    (s.insertNode nodeId node).shown nodeId' =
      if nodeId = nodeId' then node.shows else s.shown nodeId' := by
  rw [shown, insertNode, Table.get?_insert]
  split <;> rfl

theorem shown_eraseNode (nodeId nodeId' : NodeId) (s : ServerState) :
    (s.eraseNode nodeId).shown nodeId' = if nodeId = nodeId' then none else s.shown nodeId' := by
  rw [shown, eraseNode, Table.get?_erase]
  split <;> rfl

theorem mem_nodes_insertNode {nodeId nodeId' : NodeId} {node : Node} :
    nodeId' ∈ (s.insertNode nodeId node).nodes ↔ nodeId = nodeId' ∨ nodeId' ∈ s.nodes := by
  rw [insertNode, Std.ExtTreeMap.mem_insert, Std.LawfulEqCmp.compare_eq_iff_eq]

/-- A node under a fresh id is no session's root. -/
theorem Tied.insertNode_rootsTabs {nodeId : NodeId} {node : Node} (h : Tied spare s)
    (hfresh : FreshNode nodeId s) (sessionId : SessionId) (session : Session) (node' : Node)
    (hsession : s.sessions[sessionId]? = some session)
    (hroot : (s.insertNode nodeId node).nodes[session.rootNode]? = some node') :
    node'.isTabs = true := by
  have hne : nodeId ≠ session.rootNode := by
    rintro rfl
    have hnot := hfresh.2.2
    rw [← Bool.not_eq_true, isSessionRoot_iff] at hnot
    exact hnot ⟨sessionId, session, hsession, rfl⟩
  rw [ServerState.insertNode, Table.get?_insert, if_neg hne] at hroot
  exact h.rootsTabs sessionId session node' hsession hroot

/-- A new container under a fresh id. -/
theorem Tied.insertNode {nodeId : NodeId} {node : Node} (h : Tied spare s)
    (hfresh : FreshNode nodeId s) (hshows : node.shows = none) :
    Tied spare (s.insertNode nodeId node) where
  paired nodeId' bufferId := by
    have hnone : s.shown nodeId = none := by
      rw [shown, Std.ExtTreeMap.getElem?_eq_none hfresh.1, Option.bind_none]
    change s.attachedTo bufferId = some nodeId' ↔ _
    rw [h.paired, shown_insertNode]
    split
    next heq => rw [← heq, hnone, hshows]
    next => rfl
  nodesIssued nodeId' hmem := by
    rcases mem_nodes_insertNode.mp hmem with rfl | hmem
    · exact hfresh.2.1
    · exact h.nodesIssued nodeId' hmem
  buffersIssued := h.buffersIssued
  rootsIssued := h.rootsIssued
  rootsTabs := h.insertNode_rootsTabs hfresh

/-- An invariant that new containers and changes of links keep: what is tied, with whatever else
is said of views that stay. -/
structure Steady (I : ℕ → ServerState → Prop) : Prop where
  wastes : Wastes I
  tied {r : ℕ} {s : ServerState} (h : I r s) : ∃ spare, TiedWith spare r s
  sameViews {r : ℕ} {s s' : ServerState} (hsame : SameViews s s') (h : I r s) : I r s'
  next {r : ℕ} {s : ServerState} (h : I (r + 1) s) : I r { s with nodeIds := s.nodeIds.advance }
  insertNode {r : ℕ} {s : ServerState} {nodeId : NodeId} {node : Node} (hfresh : FreshNode nodeId s)
    (hshows : node.shows = none) (h : I r s) : I r (s.insertNode nodeId node)

theorem tiedWith_steady : Steady (TiedWith spare) where
  wastes := tiedWith_wastes
  tied h := ⟨spare, h⟩
  sameViews hsame h := hsame.tiedWith h
  next h := nextNodeId_spends _ h
  insertNode hfresh hshows h := ⟨h.1.insertNode hfresh hshows, h.2⟩

section

variable {I : ℕ → ServerState → Prop}

theorem Steady.same (hI : Steady I) {α : Type} {m : StateOp α} (h : SameViews s (m s).2) :
    Spends I 0 m s := fun _ hr ↦ hI.sameViews h hr

/-- Taking a fresh id. -/
theorem Steady.next_bind (hI : Steady I) {α : Type} {f : NodeId → StateOp α} {k : ℕ}
    (hf : FreshNode s.nodeIds.peek { s with nodeIds := s.nodeIds.advance } →
      Spends I k (f s.nodeIds.peek) { s with nodeIds := s.nodeIds.advance }) :
    Spends I (k + 1) (nextNodeId >>= f) s := by
  intro r h
  obtain ⟨spare, htied⟩ := hI.tied h
  exact hf (nextNodeId_fresh htied rfl) r (hI.next h)

theorem Steady.insert (hI : Steady I) {nodeId : NodeId} {node : Node} (hfresh : FreshNode nodeId s)
    (hshows : node.shows = none) :
    Spends I 0 (modify (ServerState.insertNode nodeId node) : StateOp Unit) s :=
  fun _ h ↦ hI.insertNode hfresh hshows h

end

theorem nextNodeId_bind_spends {α : Type} {f : NodeId → StateOp α} {k : ℕ}
    (hf : FreshNode s.nodeIds.peek { s with nodeIds := s.nodeIds.advance } →
      Spends (TiedWith spare) k (f s.nodeIds.peek) { s with nodeIds := s.nodeIds.advance }) :
    Spends (TiedWith spare) (k + 1) (nextNodeId >>= f) s := tiedWith_steady.next_bind hf

theorem spends_insertNode {nodeId : NodeId} {node : Node} (hfresh : FreshNode nodeId s)
    (hshows : node.shows = none) :
    Spends (TiedWith spare) 0 (modify (insertNode nodeId node) : StateOp Unit) s :=
  tiedWith_steady.insert hfresh hshows

/-! ## Deleting nodes -/

theorem Tied.eraseNode_rootsTabs (h : Tied spare s) (nodeId : NodeId) (sessionId : SessionId)
    (session : Session) (node : Node) (hsession : s.sessions[sessionId]? = some session)
    (hroot : (s.eraseNode nodeId).nodes[session.rootNode]? = some node) : node.isTabs = true := by
  rw [ServerState.eraseNode, Table.get?_erase] at hroot
  split at hroot
  · cases hroot
  · exact h.rootsTabs sessionId session node hsession hroot

/-- Deleting a node to which no buffer is attached. -/
theorem Tied.eraseNode {nodeId : NodeId} (h : Tied spare s)
    (hdetached : ∀ bufferId, s.attachedTo bufferId ≠ some nodeId) :
    Tied spare (s.eraseNode nodeId) where
  paired nodeId' bufferId := by
    change s.attachedTo bufferId = some nodeId' ↔ _
    rw [shown_eraseNode]
    split
    next heq =>
      subst heq
      exact iff_of_false (hdetached bufferId) fun hnone ↦ nomatch hnone.1
    next => exact h.paired nodeId' bufferId
  nodesIssued nodeId' hmem := h.nodesIssued nodeId' (Std.ExtTreeMap.mem_erase.mp hmem).2
  buffersIssued := h.buffersIssued
  rootsIssued := h.rootsIssued
  rootsTabs := h.eraseNode_rootsTabs nodeId

/-- No buffer is attached to a node that is no view. -/
theorem Tied.attachedTo_ne {nodeId : NodeId} (h : Tied spare s) (hshown : s.shown nodeId = none)
    (bufferId : BufferId) : s.attachedTo bufferId ≠ some nodeId := by
  rw [ne_eq, h.paired, hshown]
  exact fun hnone ↦ nomatch hnone.1

theorem spends_eraseNode {nodeId : NodeId} (hshown : s.shown nodeId = none) :
    Spends (TiedWith spare) 0 (modify (eraseNode nodeId) : StateOp Unit) s :=
  fun _ h ↦ ⟨h.1.eraseNode (h.1.attachedTo_ne hshown), h.2⟩

theorem attachedTo_mapBuffer (bufferId bufferId' : BufferId) (f : Buffer → Buffer)
    (s : ServerState) : (s.mapBuffer bufferId f).attachedTo bufferId' =
      if bufferId = bufferId' then s.buffers[bufferId']?.bind fun buffer ↦ (f buffer).attachment.view
      else s.attachedTo bufferId' := by
  rw [attachedTo, mapBuffer, Table.get?_modify]
  split
  · rw [Option.bind_map]
    rfl
  · rfl

/-- The state after the view's buffer is detached from it, if it is attached to it. -/
def detachShown (nodeId : NodeId) (s : ServerState) : ServerState :=
  { s with buffers :=
      match s.shown nodeId with
      | some bufferId =>
        if s.attachedTo bufferId = some nodeId then
          s.buffers.modify bufferId fun buffer ↦ { buffer with attachment := .detached }
        else
          s.buffers
      | none => s.buffers }

theorem attachment_eq_iff {bufferId : BufferId} {nodeId : NodeId} :
    s.buffers[bufferId]?.map Buffer.attachment = some (.attached nodeId) ↔
      s.attachedTo bufferId = some nodeId := by
  rw [attachedTo]
  cases s.buffers[bufferId]? with
  | none => simp
  | some buffer =>
    cases hattachment : buffer.attachment <;> simp [hattachment, BufferAttachment.view]

theorem detachBufferIfAttachedTo_snd (bufferId : BufferId) (nodeId : NodeId) (s : ServerState) :
    (detachBufferIfAttachedTo bufferId nodeId s).2 =
      if s.attachedTo bufferId = some nodeId then
        s.mapBuffer bufferId fun buffer ↦ { buffer with attachment := .detached }
      else s := by
  rw [detachBufferIfAttachedTo, gets_bind_apply]
  simp only [attachment_eq_iff]
  split
  · rw [detachBufferRaw, bufferMut_snd]
  · rfl

theorem detachView_snd (nodeId : NodeId) (s : ServerState) :
    (detachView nodeId s).2 = s.detachShown nodeId := by
  rw [detachView, bind_apply, ask_apply, ServerState.node, detachShown, shown]
  cases s.nodes[nodeId]? with
  | none => rfl
  | some node =>
    cases node with
    | bufferView leaf =>
      refine (detachBufferIfAttachedTo_snd leaf.bufferId nodeId s).trans ?_
      simp only [Option.bind_some, Node.shows]
      split <;> rfl
    | split => rfl
    | tabs => rfl

theorem attachedTo_detachShown (h : Tied spare s) (nodeId : NodeId) (bufferId : BufferId) :
    (s.detachShown nodeId).attachedTo bufferId =
      if s.attachedTo bufferId = some nodeId then none else s.attachedTo bufferId := by
  rw [attachedTo, detachShown]
  cases hshown : s.shown nodeId with
  | none => rw [if_neg (h.attachedTo_ne hshown bufferId), attachedTo]
  | some shownId =>
    have hsame : ∀ bufferId, s.attachedTo bufferId = some nodeId → shownId = bufferId := by
      intro bufferId hattached
      have hshown' := ((h.paired nodeId bufferId).mp hattached).1
      rwa [hshown, Option.some_inj] at hshown'
    by_cases hattached : s.attachedTo shownId = some nodeId
    · simp only [if_pos hattached, Table.get?_modify]
      by_cases heq : shownId = bufferId
      · subst heq
        rw [if_pos rfl, if_pos hattached, Option.bind_map]
        exact Option.bind_eq_none_iff.mpr fun _ _ ↦ rfl
      · rw [if_neg heq, if_neg fun hother ↦ heq (hsame bufferId hother), attachedTo]
    · simp only [if_neg hattached]
      rw [if_neg fun hother ↦ hattached (hsame bufferId hother ▸ hother), attachedTo]

/-- A view is deleted once its buffer is detached. -/
theorem Tied.deleteView (h : Tied spare s) (nodeId : NodeId) :
    Tied spare ((s.detachShown nodeId).eraseNode nodeId) where
  paired nodeId' bufferId := by
    change (s.detachShown nodeId).attachedTo bufferId = some nodeId' ↔
      (s.eraseNode nodeId).shown nodeId' = some bufferId ∧ _
    rw [attachedTo_detachShown h, shown_eraseNode]
    by_cases heq : nodeId = nodeId'
    · subst heq
      rw [if_pos rfl]
      refine iff_of_false ?_ fun hnone ↦ nomatch hnone.1
      split
      · exact nofun
      next hne => exact hne
    · rw [if_neg heq, ← h.paired]
      split
      next hattached =>
        rw [hattached, Option.some_inj]
        exact iff_of_false nofun heq
      next => rfl
  nodesIssued nodeId' hmem := h.nodesIssued nodeId' (Std.ExtTreeMap.mem_erase.mp hmem).2
  buffersIssued bufferId hmem := by
    refine h.buffersIssued bufferId ?_
    change bufferId ∈ (s.detachShown nodeId).buffers at hmem
    rw [detachShown] at hmem
    simp only at hmem
    split at hmem
    · split at hmem
      · exact Std.ExtTreeMap.mem_modify.mp hmem
      · exact hmem
    · exact hmem
  rootsIssued := h.rootsIssued
  rootsTabs sessionId session node hsession hroot :=
    (h.eraseNode_rootsTabs nodeId) sessionId session node hsession hroot

/-! ## Removal and normalization -/

/-- Detaching a view always returns. -/
theorem detachView_returns (nodeId : NodeId) (s : ServerState) :
    (detachView nodeId s).1 ≠ .error .diverges := by
  rw [detachView, bind_apply, ask_apply, ServerState.node]
  cases s.nodes[nodeId]? with
  | none =>
    intro h
    cases h
  | some node =>
    cases node with
    | split =>
      intro h
      cases h
    | tabs =>
      intro h
      cases h
    | bufferView leaf =>
      simp only [Answer.ofOption_some, detachBufferIfAttachedTo, gets_bind_apply]
      split
      · rw [detachBufferRaw, bufferMut, bind_apply, ask_apply, ServerState.buffer]
        cases s.buffers[leaf.bufferId]? <;> intro h <;> cases h
      · intro h
        cases h

theorem deleteView_snd (nodeId : NodeId) (s : ServerState) :
    (deleteView nodeId s).2 = (s.detachShown nodeId).eraseNode nodeId := by
  have hsnd := detachView_snd nodeId s
  have hreturns := detachView_returns nodeId s
  rw [deleteView, bind_apply, attempt]
  rcases hdetach : detachView nodeId s with ⟨(_ | _) | _, t⟩
  · rw [hdetach] at hsnd
    rw [← hsnd]
    rfl
  · rw [hdetach] at hreturns
    exact absurd rfl hreturns
  · rw [hdetach] at hsnd
    rw [← hsnd]
    rfl

theorem deleteView_spends (nodeId : NodeId) (s : ServerState) :
    Spends (TiedWith spare) 0 (deleteView nodeId) s := by
  intro r h
  rw [deleteView_snd]
  exact ⟨h.1.deleteView nodeId, h.2⟩

/-- Detaching fails on a missing view only, and then changes nothing. -/
theorem detachView_error {nodeId : NodeId} {e : Fault MuxError}
    (h : detachView nodeId s = (.error e, s')) : s' = s := by
  rw [detachView, bind_apply, ask_apply, ServerState.node] at h
  cases hnode : s.nodes[nodeId]? with
  | none =>
    rw [hnode] at h
    exact (congrArg Prod.snd h).symm
  | some node =>
    rw [hnode] at h
    cases node with
    | split => cases h
    | tabs => cases h
    | bufferView leaf =>
      simp only [Answer.ofOption_some, detachBufferIfAttachedTo, gets_bind_apply] at h
      split at h
      next hattached =>
        obtain ⟨buffer, hbuffer, -⟩ := Option.map_eq_some_iff.mp hattached
        rw [detachBufferRaw, bufferMut, bind_apply, ask_apply, ServerState.buffer, hbuffer] at h
        cases h
      · cases h

/-- Detaching a view and then deleting it. -/
theorem detachView_eraseNode_spends (nodeId : NodeId) (s : ServerState) :
    Spends (TiedWith spare) 0 (do detachView nodeId; modify (eraseNode nodeId) : StateOp Unit) s := by
  intro r h
  have hsnd := detachView_snd nodeId s
  rw [bind_apply]
  rcases hdetach : detachView nodeId s with ⟨_ | _, t⟩
  · rw [detachView_error hdetach]
    exact h
  · rw [hdetach] at hsnd
    change TiedWith spare r (t.eraseNode nodeId)
    rw [show t = s.detachShown nodeId from hsnd]
    exact ⟨h.1.deleteView nodeId, h.2⟩

theorem removeSubtreeNodes_spends :
    ∀ (fuel : ℕ) (nodeId : NodeId) (s : ServerState),
      Spends (TiedWith spare) 0 (removeSubtreeNodes fuel nodeId) s
  | 0, _, _ => .diverge
  | fuel + 1, nodeId, s => by
    refine .ask_bind tiedWith_wastes fun node _ ↦ .bind_right tiedWith_wastes
      (.forEach tiedWith_wastes (removeSubtreeNodes_spends fuel) node.childIds s) fun _ t _ ↦ ?_
    exact detachView_eraseNode_spends nodeId t

/-- Collapsing a container that is no session's root into one of its children. -/
theorem collapse_spends (fuel : ℕ) {nodeId : NodeId} (child : NodeId) {α : Type} (a : α)
    (hroot : s.isSessionRoot nodeId = false) (hshown : s.shown nodeId = none) :
    Spends (TiedWith spare) 0 (do
      replaceNodeInOwner fuel nodeId child
      modify (eraseNode nodeId)
      pure a : StateOp α) s := by
  have hsame := replaceNodeInOwner_sameViews fuel child hroot
  refine .bind_right tiedWith_wastes (spends_of_sameViews hsame) fun _ t ht ↦ ?_
  rw [ht] at hsame
  refine .bind_right tiedWith_wastes (spends_eraseNode ?_) fun _ _ _ ↦ .pure a
  rw [hsame.shown, hshown]

/-- Under `Tied`, only tabs are a session's root. -/
theorem Tied.isSessionRoot_eq_false (h : Tied spare s) {nodeId : NodeId} {node : Node}
    (hnode : s.nodes[nodeId]? = some node) (htabs : node.isTabs = false) :
    s.isSessionRoot nodeId = false := by
  rw [← Bool.not_eq_true, isSessionRoot_iff]
  rintro ⟨sessionId, session, hsession, rfl⟩
  have hroot := h.rootsTabs sessionId session node hsession hnode
  rw [htabs] at hroot
  cases hroot

theorem shown_eq {nodeId : NodeId} {node : Node} (hnode : s.nodes[nodeId]? = some node) :
    s.shown nodeId = node.shows := by
  rw [shown, hnode, Option.bind_some]

theorem normalizeSplitNode_spends (fuel : ℕ) {nodeId : NodeId} {split : SplitNode}
    (hnode : s.nodes[nodeId]? = some (.split split)) :
    Spends (TiedWith spare) 0 (normalizeSplitNode fuel nodeId split) s := by
  refine spends_of_tied fun htied ↦ ?_
  rw [normalizeSplitNode]
  split
  · exact .throw _
  next child _ =>
    exact collapse_spends fuel child _ (htied.isSessionRoot_eq_false hnode rfl) (shown_eq hnode)
  · exact spends_of_sameViews ((Keeps.bind (.modify fun t ↦ sameViews_mapNode t nodeId
      (Node.kind_mapSplit _)) fun _ ↦ .pure _) s)

theorem normalizeTabsNode_spends (fuel : ℕ) {nodeId : NodeId} {tabs : TabsNode}
    (hnode : s.nodes[nodeId]? = some (.tabs tabs)) :
    Spends (TiedWith spare) 0 (normalizeTabsNode fuel nodeId tabs) s := by
  have hmap : ∀ f : TabsNode → TabsNode, Spends (TiedWith spare) 0 (do
      modify (mapNode nodeId (Node.mapTabs f))
      pure tabs.parent : StateOp (Option NodeId)) s := fun f ↦
    spends_of_sameViews ((Keeps.bind (.modify fun t ↦ sameViews_mapNode t nodeId
      (Node.kind_mapTabs f)) fun _ ↦ .pure _) s)
  refine .gets_bind (.gets_bind ?_)
  split
  · split
    · exact hmap _
    · split
      next floatingId hfloating =>
        -- The popup's root is the tabs node itself.
        obtain ⟨floating, hget, hroot⟩ := floatingIdByRoot_eq_some hfloating
        have hsame := removeFloatingWindow_sameViews floatingId s
        refine .bind_right tiedWith_wastes (spends_of_sameViews hsame) fun removed t ht ↦ ?_
        have hremoved : removed.rootNode = nodeId := by
          obtain ⟨found, hfound, hrest⟩ := ok_ask_bind ht
          rw [floatingWindow_eq_ok, hget, Option.some_inj] at hfound
          cases hrest
          rw [← hfound, hroot]
        rw [ht] at hsame
        refine .bind_right tiedWith_wastes (spends_eraseNode ?_) fun _ _ _ ↦ .pure _
        rw [hremoved, hsame.shown, shown_eq hnode]
        rfl
      · exact .bind_right tiedWith_wastes (spends_eraseNode (shown_eq hnode)) fun _ _ _ ↦ .pure _
  next first rest _ =>
    split
    next hcollapse =>
      exact collapse_spends fuel first.child _ (Bool.not_eq_true _ ▸ hcollapse.2.2) (shown_eq hnode)
    · exact hmap _

theorem normalizeNode_spends (fuel : ℕ) {nodeId : NodeId} :
    ∀ {node : Node}, s.nodes[nodeId]? = some node →
      Spends (TiedWith spare) 0 (normalizeNode fuel nodeId node) s
  | .bufferView _, _ => .pure _
  | .split _, hnode => normalizeSplitNode_spends fuel hnode
  | .tabs _, hnode => normalizeTabsNode_spends fuel hnode

theorem normalizeUpwards_spends (walk : ℕ) :
    ∀ (fuel : ℕ) (start : Option NodeId) (s : ServerState),
      Spends (TiedWith spare) 0 (normalizeUpwards walk fuel start) s
  | 0, none, _ => .pure _
  | 0, some _, _ => .diverge
  | _ + 1, none, _ => .pure _
  | fuel + 1, some nodeId, s => by
    refine .gets_bind ?_
    cases hnode : s.nodes[nodeId]? with
    | none => exact .pure _
    | some node =>
      exact .bind_right tiedWith_wastes (normalizeNode_spends walk hnode) fun next t _ ↦
        normalizeUpwards_spends walk fuel next t

/-! ## Closing -/

variable (fuel : ℕ) (sessionId : SessionId)

theorem settleSession_sameViews : Keeps SameViews (settleSession fuel sessionId) :=
  keeps_sameViews_of_sameFrame
    (.bind (normalizeZoomedNode_sameFrame fuel sessionId) fun _ ↦ healFocus_sameFrame fuel sessionId)

/-- Make a new empty tabs node the root of the session. -/
theorem clearSessionRoot_spends (s : ServerState) :
    Spends (TiedWith spare) 1 (clearSessionRoot fuel sessionId) s := by
  refine .ask_bind tiedWith_wastes fun oldRoot _ ↦ .bind_right tiedWith_wastes
    (removeSubtreeNodes_spends fuel oldRoot s) fun _ t _ ↦ nextNodeId_bind_spends fun hfresh ↦
    .bind_right tiedWith_wastes (spends_insertNode hfresh rfl) fun _ u hu ↦ ?_
  cases hu
  refine spends_of_sameViews (moves_bind (setRoot_sameViews sessionId
    Std.ExtTreeMap.getElem?_insert_self rfl) fun _ v _ ↦ ?_)
  exact (Keeps.bind (sessionMut_sameViews sessionId
    (f := fun session ↦ { session with zoomedNode := none }) fun _ ↦ rfl) fun _ ↦
    keeps_sameViews_of_sameFrame (healFocus_sameFrame fuel sessionId)) v

theorem removeFromParent_spends (parent nodeId : NodeId) (s : ServerState) :
    Spends (TiedWith spare) 0 (removeFromParent fuel parent nodeId) s :=
  .bind_right tiedWith_wastes (spends_of_sameViews (removeChild_sameViews parent nodeId s))
    fun _ t _ ↦ .bind_right tiedWith_wastes (removeSubtreeNodes_spends fuel nodeId t) fun _ u _ ↦
      normalizeUpwards_spends fuel fuel (some parent) u

/-- Delete a popup and everything in it. -/
theorem removeFloating_spends (floatingId : FloatingId) {f : FloatingWindow → StateOp Unit}
    (hf : ∀ floating t, Spends (TiedWith spare) 0 (f floating) t) (s : ServerState) :
    Spends (TiedWith spare) 0 (do
      let floating ← removeFloatingWindow floatingId
      removeSubtreeNodes fuel floating.rootNode
      f floating) s :=
  .bind_right tiedWith_wastes (spends_of_sameViews (removeFloatingWindow_sameViews floatingId s))
    fun floating t _ ↦ .bind_right tiedWith_wastes
      (removeSubtreeNodes_spends fuel floating.rootNode t) fun _ u _ ↦ hf floating u

theorem settleSession_spends (s : ServerState) :
    Spends (TiedWith spare) 0 (settleSession fuel sessionId) s :=
  spends_of_sameViews (settleSession_sameViews fuel sessionId s)

theorem closeNode_spends (nodeId : NodeId) (s : ServerState) :
    Spends (TiedWith spare) 1 (closeNode fuel nodeId) s := by
  refine .ask_bind tiedWith_wastes fun sessionId _ ↦ .gets_bind ?_
  split
  · exact clearSessionRoot_spends fuel sessionId s
  · refine .ask_bind tiedWith_wastes fun parent _ ↦ .mono tiedWith_wastes ?_ (Nat.zero_le 1)
    cases parent with
    | some parent =>
      exact .bind_right tiedWith_wastes (removeFromParent_spends fuel parent nodeId s) fun _ t _ ↦
        settleSession_spends fuel sessionId t
    | none =>
      refine .gets_bind ?_
      cases s.floatingIdByRoot nodeId with
      | some floatingId =>
        exact removeFloating_spends fuel floatingId (fun _ ↦ settleSession_spends fuel sessionId) s
      | none => exact .throw _

theorem closeTab_spends (tabsId : NodeId) (index : ℕ) (s : ServerState) :
    Spends (TiedWith spare) 0 (closeTab fuel tabsId index) s := by
  refine .ask_bind tiedWith_wastes fun sessionId _ ↦ .ask_bind tiedWith_wastes fun child _ ↦
    .bind_right tiedWith_wastes (spends_of_sameViews (sameViews_mapNode s tabsId
      (Node.kind_mapTabs _))) fun _ t _ ↦
    .bind_right tiedWith_wastes (spends_of_sameViews (setParent_sameViews child none t)) fun _ u _ ↦
    .bind_right tiedWith_wastes (removeSubtreeNodes_spends fuel child u) fun _ v _ ↦
    .bind_right tiedWith_wastes (normalizeUpwards_spends fuel fuel (some tabsId) v) fun _ w _ ↦
    settleSession_spends fuel sessionId w

theorem closeFloating_spends (floatingId : FloatingId) (s : ServerState) :
    Spends (TiedWith spare) 0 (closeFloating fuel floatingId) s :=
  removeFloating_spends fuel floatingId (fun floating ↦
    settleSession_spends fuel floating.sessionId) s

theorem closeSession_spends (s : ServerState) :
    Spends (TiedWith spare) 0 (closeSession fuel sessionId) s := by
  refine .ask_bind tiedWith_wastes fun session _ ↦ .bind_right tiedWith_wastes
    (.forEach tiedWith_wastes (closeFloating_spends fuel) session.floating s) fun _ t _ ↦
    .bind_right tiedWith_wastes (removeSubtreeNodes_spends fuel session.rootNode t) fun _ u _ ↦
    spends_of_sameViews (sameViews_of_sessions rfl rfl rfl rfl fun sessionId' session' h ↦ ?_)
  change (u.sessions.erase sessionId)[sessionId']? = some session' at h
  rw [Table.get?_erase] at h
  split at h
  · cases h
  · exact ⟨sessionId', session', h, rfl⟩

theorem replaceNode_spends (nodeId replacement : NodeId) (s : ServerState) :
    Spends (TiedWith spare) 0 (replaceNode fuel nodeId replacement) s := by
  refine .ask_bind tiedWith_wastes fun sessionId _ ↦ .ask_bind tiedWith_wastes fun _ _ ↦ ?_
  split
  · exact .pure _
  · refine .ask_bind tiedWith_wastes fun _ hcheck ↦ ?_
    have hroot : s.isSessionRoot nodeId = false := by
      rw [checkReplacement] at hcheck
      split at hcheck
      · cases hcheck
      next hnot => exact Bool.not_eq_true _ ▸ hnot
    refine .bind_right tiedWith_wastes (spends_of_sameViews
      (replaceNodeInOwner_sameViews fuel replacement hroot)) fun _ t _ ↦
      .bind_right tiedWith_wastes (removeSubtreeNodes_spends fuel nodeId t) fun _ u _ ↦
      spends_of_sameViews ((keeps_sameViews_of_sameFrame
        (.bind (focusCandidateOrHeal_sameFrame fuel sessionId replacement) fun _ ↦
          normalizeZoomedNode_sameFrame fuel sessionId)) u)

theorem discardBufferView_spends (nodeId : NodeId) (s : ServerState) :
    Spends (TiedWith spare) 1 (discardBufferView fuel nodeId) s := by
  refine .gets_bind ?_
  split
  · refine .bind_left tiedWith_wastes (.attempt (closeNode_spends fuel nodeId s)) fun result t _ ↦ ?_
    cases result with
    | ok => exact .pure _
    | error => exact deleteView_spends nodeId t
  · exact .mono tiedWith_wastes (deleteView_spends nodeId s) (Nat.zero_le 1)

theorem detachBuffer_spends (bufferId : BufferId) (s : ServerState) :
    Spends (TiedWith spare) 1 (detachBuffer fuel bufferId) s := by
  refine .ask_bind tiedWith_wastes fun buffer _ ↦ ?_
  split
  next nodeId _ => exact closeNode_spends fuel nodeId s
  · exact .mono tiedWith_wastes (.pure _) (Nat.zero_le 1)

/-- A detached buffer may go. -/
theorem Tied.eraseBuffer {bufferId : BufferId} (h : Tied spare s)
    (hdetached : s.attachedTo bufferId = none) :
    Tied spare { s with buffers := s.buffers.erase bufferId } where
  paired nodeId bufferId' := by
    have hsame : ({ s with buffers := s.buffers.erase bufferId } : ServerState).attachedTo bufferId' =
        s.attachedTo bufferId' := by
      rw [attachedTo, Table.get?_erase]
      split
      next heq =>
        rw [← heq, hdetached]
        rfl
      next => rfl
    rw [hsame]
    exact h.paired nodeId bufferId'
  nodesIssued := h.nodesIssued
  buffersIssued bufferId' hmem := h.buffersIssued bufferId' (Std.ExtTreeMap.mem_erase.mp hmem).2
  rootsIssued := h.rootsIssued
  rootsTabs := h.rootsTabs

theorem removeBuffer_spends (bufferId : BufferId) (s : ServerState) :
    Spends (TiedWith spare) 0 (removeBuffer bufferId) s := by
  refine .ask_bind tiedWith_wastes fun buffer hbuffer ↦ ?_
  split
  · exact .throw _
  next hattachment =>
    refine .bind_right tiedWith_wastes (fun r h ↦ ⟨h.1.eraseBuffer ?_, h.2⟩) fun _ _ _ ↦ .pure _
    rw [attachedTo, buffer_eq_ok.mp hbuffer, Option.bind_some, not_not.mp hattachment]
    rfl

theorem tryRemoveBuffer_spends (bufferId : BufferId) (disposed : DisposedBuffers) (s : ServerState) :
    Spends (TiedWith spare) 0 (tryRemoveBuffer bufferId disposed) s := by
  refine .bind_right tiedWith_wastes (.attempt (removeBuffer_spends bufferId s)) fun result _ _ ↦ ?_
  cases result with
  | ok => exact .pure _
  | error => exact .pure _

theorem disposeEntry_spends (disposed : DisposedBuffers) (entry : ExitedEntry) (s : ServerState) :
    Spends (TiedWith spare) 1 (disposeEntry fuel disposed entry) s := by
  have hnothing : Spends (TiedWith spare) 1 (pure disposed : StateOp DisposedBuffers) s :=
    .mono tiedWith_wastes (.pure _) (Nat.zero_le 1)
  rw [disposeEntry]
  split
  next viewId _ =>
    split
    · exact hnothing
    · refine .gets_bind ?_
      cases s.nodes[viewId]? with
      | none => exact hnothing
      | some view =>
        refine .bind_left tiedWith_wastes (.attempt (closeNode_spends fuel viewId s))
          fun result t _ ↦ ?_
        cases result with
        | ok => exact tryRemoveBuffer_spends entry.bufferId _ t
        | error => exact .pure _
  · split
    · exact .mono tiedWith_wastes (tryRemoveBuffer_spends entry.bufferId disposed s) (Nat.zero_le 1)
    · exact hnothing

theorem exitedEntries_length_le (s : ServerState) : s.exitedEntries.length ≤ s.buffers.size := by
  rw [exitedEntries, List.length_map, ← Std.ExtTreeMap.length_toList]
  exact List.length_filter_le _ _

theorem tryRemoveBuffer_size_le (bufferId : BufferId) (disposed : DisposedBuffers) :
    Keeps (fun s s' ↦ s'.buffers.size ≤ s.buffers.size) (tryRemoveBuffer bufferId disposed) := by
  refine .bind (.attempt ?_) fun result ↦ ?_
  · refine .bind (.ask _) fun buffer ↦ ?_
    split
    · exact .throw _
    · exact .bind (.modify fun _ ↦ Std.ExtTreeMap.size_erase_le) fun _ ↦ .pure _
  · cases result with
    | ok => exact .pure _
    | error => exact .pure _

/-- Disposing makes at most one new node for each buffer. -/
theorem disposeExitedBuffers_spends (s : ServerState) :
    Spends (TiedWith spare) s.buffers.size (disposeExitedBuffers fuel) s := by
  have hhelpers := Spends.fold (I := TiedWith spare) (k := 0) tiedWith_wastes
    (fun disposed bufferId ↦ tryRemoveBuffer_spends bufferId disposed) s.closedHelpers ⟨[], ∅⟩ s
  have hsize := Keeps.fold (fun disposed bufferId ↦ tryRemoveBuffer_size_le bufferId disposed)
    s.closedHelpers ⟨[], ∅⟩ s
  rw [Nat.mul_zero] at hhelpers
  refine .gets_bind (.bind_right tiedWith_wastes hhelpers fun disposed t ht ↦ .gets_bind ?_)
  have hexited := Spends.fold (I := TiedWith spare) tiedWith_wastes (disposeEntry_spends fuel)
    t.exitedEntries disposed t
  refine .mono tiedWith_wastes hexited ?_
  rw [ht] at hsize
  have hlength := exitedEntries_length_le t
  have hle : t.buffers.size ≤ s.buffers.size := hsize
  omega

end ServerState

end Embers
