import Embers.State.Close
import Embers.State.FocusFrame

/-!
# What closing does to buffer records

Closing views and disposing of exited buffers removes records, detaches them and marks them idle.
Everything else in a record that stays is as it was.
-/

namespace Embers

/-- The record without what closing may change. -/
def Buffer.standing (buffer : Buffer) : Buffer :=
  { buffer with attachment := .detached, activity := .idle }

namespace ServerState

/-- Every buffer of the second state is one of the first, with the same standing. -/
def BuffersDrop (s s' : ServerState) : Prop :=
  ∀ (bufferId : BufferId) (buffer' : Buffer), s'.buffers[bufferId]? = some buffer' →
    ∃ buffer, s.buffers[bufferId]? = some buffer ∧ buffer'.standing = buffer.standing

instance : Std.Refl BuffersDrop := ⟨fun _ _ buffer h ↦ ⟨buffer, h, rfl⟩⟩

instance : IsTrans ServerState BuffersDrop where
  trans s t u hst htu bufferId buffer hu := by
    obtain ⟨buffer', ht, heq'⟩ := htu bufferId buffer hu
    obtain ⟨buffer'', hs, heq⟩ := hst bufferId buffer' ht
    exact ⟨buffer'', hs, heq'.trans heq⟩

theorem BuffersDrop.of_eq {s s' : ServerState} (h : s'.buffers = s.buffers) : BuffersDrop s s' := by
  intro bufferId buffer hbuffer
  rw [h] at hbuffer
  exact ⟨buffer, hbuffer, rfl⟩

theorem SameFrame.buffersDrop {s s' : ServerState} (h : SameFrame s s') : BuffersDrop s s' := by
  intro bufferId buffer' hbuffer'
  have hmap := congrArg (fun s : ServerState ↦ s.buffers[bufferId]?) h
  simp only [frame, Std.ExtTreeMap.getElem?_map, hbuffer', Option.map_some,
    Option.map_eq_some_iff] at hmap
  obtain ⟨buffer, hbuffer, hframe⟩ := hmap
  refine ⟨buffer, hbuffer, ?_⟩
  calc buffer'.standing = buffer'.frame.standing := rfl
    _ = buffer.frame.standing := by rw [hframe]
    _ = buffer.standing := rfl

theorem buffersDrop_mapBuffer (s : ServerState) (bufferId : BufferId) {f : Buffer → Buffer}
    (hf : ∀ buffer, (f buffer).standing = buffer.standing) :
    BuffersDrop s (s.mapBuffer bufferId f) := by
  intro bufferId' buffer' hbuffer'
  rw [mapBuffer, Table.get?_modify] at hbuffer'
  split at hbuffer'
  · obtain ⟨buffer, hbuffer, rfl⟩ := Option.map_eq_some_iff.mp hbuffer'
    exact ⟨buffer, hbuffer, hf buffer⟩
  · exact ⟨buffer', hbuffer', rfl⟩

open Op

variable (fuel : ℕ) (sessionId : SessionId)

/-! ## Changes to other tables -/

/-- A change that does not touch the buffers. -/
theorem modify_buffersDrop {f : ServerState → ServerState} (hf : ∀ s, (f s).buffers = s.buffers) :
    Keeps BuffersDrop (modify f : StateOp Unit) := .modify fun s ↦ .of_eq (hf s)

theorem nodeMut_buffersDrop (nodeId : NodeId) (f : Node → Node) :
    Keeps BuffersDrop (nodeMut nodeId f) := fun s ↦ by
  rw [nodeMut_snd]
  exact .of_eq rfl

theorem sessionMut_buffersDrop (f : Session → Session) :
    Keeps BuffersDrop (sessionMut sessionId f) := fun s ↦ by
  rw [sessionMut_snd]
  exact .of_eq rfl

theorem floatingMut_buffersDrop (floatingId : FloatingId) (f : FloatingWindow → FloatingWindow) :
    Keeps BuffersDrop (floatingMut floatingId f) := fun s ↦ by
  rw [floatingMut_snd]
  exact .of_eq rfl

theorem nextNodeId_buffersDrop : Keeps BuffersDrop nextNodeId := .update fun _ ↦ .of_eq rfl

theorem setParent_buffersDrop (nodeId : NodeId) (parent : Option NodeId) :
    Keeps BuffersDrop (setParent nodeId parent) := nodeMut_buffersDrop nodeId _

theorem replaceChild_buffersDrop (parentId oldChild newChild : NodeId) :
    Keeps BuffersDrop (replaceChild parentId oldChild newChild) := by
  refine .bind (.ask _) fun _ ↦ .bind (.ask _) fun _ ↦ .bind (.ask _) fun _ ↦
    .bind (.ask _) fun parent ↦ ?_
  split
  · exact .throw _
  · split
    · exact .bind (modify_buffersDrop fun _ ↦ rfl) fun _ ↦
        .bind (setParent_buffersDrop oldChild none) fun _ ↦ setParent_buffersDrop newChild _
    · exact .throw _

theorem removeChild_buffersDrop (parentId childId : NodeId) :
    Keeps BuffersDrop (removeChild parentId childId) := by
  refine .bind (.ask _) fun parent ↦ ?_
  split
  · exact .throw _
  · split
    · exact .bind (modify_buffersDrop fun _ ↦ rfl) fun _ ↦ setParent_buffersDrop childId none
    · exact .throw _

theorem repointRoot_buffersDrop (oldNode newNode : NodeId) :
    Keeps BuffersDrop (repointRoot sessionId oldNode newNode) := by
  refine .bind (.gets _) fun isRoot ↦ ?_
  split
  · exact .bind (sessionMut_buffersDrop sessionId _) fun _ ↦ setParent_buffersDrop newNode none
  · refine .bind (.gets _) fun floatingId ↦ ?_
    cases floatingId with
    | some floatingId =>
      exact .bind (floatingMut_buffersDrop floatingId _) fun _ ↦ setParent_buffersDrop newNode none
    | none => exact .throw _

theorem replaceNodeInOwner_buffersDrop (oldNode newNode : NodeId) :
    Keeps BuffersDrop (replaceNodeInOwner fuel oldNode newNode) := by
  refine .bind (.ask _) fun sessionId ↦ .bind (.ask _) fun owner ↦ .bind (.ask _) fun _ ↦ ?_
  cases owner with
  | some parentId =>
    refine .bind (.ask _) fun update ↦ .bind (replaceChild_buffersDrop parentId oldNode newNode) ?_
    intro _
    split
    · exact nodeMut_buffersDrop parentId _
    · exact .pure _
  | none =>
    exact .bind (repointRoot_buffersDrop sessionId oldNode newNode) fun _ ↦
      setParent_buffersDrop oldNode none

theorem removeFloatingWindow_buffersDrop (floatingId : FloatingId) :
    Keeps BuffersDrop (removeFloatingWindow floatingId) :=
  .bind (.ask _) fun _ ↦ .bind (modify_buffersDrop fun _ ↦ rfl) fun _ ↦
    .bind (modify_buffersDrop fun _ ↦ rfl) fun _ ↦ .pure _

/-! ## Removal and normalization -/

theorem detachBufferIfAttachedTo_buffersDrop (bufferId : BufferId) (nodeId : NodeId) :
    Keeps BuffersDrop (detachBufferIfAttachedTo bufferId nodeId) := by
  refine .bind (.gets _) fun buffer ↦ ?_
  split
  · intro s
    rw [detachBufferRaw, bufferMut_snd]
    exact buffersDrop_mapBuffer s bufferId fun _ ↦ rfl
  · exact .pure _

theorem detachView_buffersDrop (nodeId : NodeId) : Keeps BuffersDrop (detachView nodeId) := by
  refine .bind (.ask _) fun node ↦ ?_
  cases node with
  | bufferView leaf => exact detachBufferIfAttachedTo_buffersDrop leaf.bufferId nodeId
  | split => exact .pure _
  | tabs => exact .pure _

theorem removeSubtreeNodes_buffersDrop :
    ∀ fuel nodeId, Keeps BuffersDrop (removeSubtreeNodes fuel nodeId)
  | 0, _ => .diverge
  | fuel + 1, nodeId =>
    .bind (.ask _) fun node ↦
      .bind (.forEach (removeSubtreeNodes_buffersDrop fuel) node.childIds) fun _ ↦
        .bind (detachView_buffersDrop nodeId) fun _ ↦ modify_buffersDrop fun _ ↦ rfl

theorem normalizeSplitNode_buffersDrop (nodeId : NodeId) (split : SplitNode) :
    Keeps BuffersDrop (normalizeSplitNode fuel nodeId split) := by
  rw [normalizeSplitNode]
  split
  · exact .throw _
  next child _ =>
    exact .bind (replaceNodeInOwner_buffersDrop fuel nodeId child) fun _ ↦
      .bind (modify_buffersDrop fun _ ↦ rfl) fun _ ↦ .pure _
  · exact .bind (modify_buffersDrop fun _ ↦ rfl) fun _ ↦ .pure _

theorem normalizeTabsNode_buffersDrop (nodeId : NodeId) (tabs : TabsNode) :
    Keeps BuffersDrop (normalizeTabsNode fuel nodeId tabs) := by
  refine .bind (.gets _) fun isRoot ↦ .bind (.gets _) fun owner ↦ ?_
  split
  · split
    · exact .bind (modify_buffersDrop fun _ ↦ rfl) fun _ ↦ .pure _
    · cases owner with
      | some floatingId =>
        exact .bind (removeFloatingWindow_buffersDrop floatingId) fun _ ↦
          .bind (modify_buffersDrop fun _ ↦ rfl) fun _ ↦ .pure _
      | none => exact .bind (modify_buffersDrop fun _ ↦ rfl) fun _ ↦ .pure _
  next first rest _ =>
    split
    · exact .bind (replaceNodeInOwner_buffersDrop fuel nodeId first.child) fun _ ↦
        .bind (modify_buffersDrop fun _ ↦ rfl) fun _ ↦ .pure _
    · exact .bind (modify_buffersDrop fun _ ↦ rfl) fun _ ↦ .pure _

theorem normalizeNode_buffersDrop (nodeId : NodeId) :
    ∀ node, Keeps BuffersDrop (normalizeNode fuel nodeId node)
  | .bufferView _ => .pure _
  | .split split => normalizeSplitNode_buffersDrop fuel nodeId split
  | .tabs tabs => normalizeTabsNode_buffersDrop fuel nodeId tabs

theorem normalizeUpwards_buffersDrop (walk : ℕ) :
    ∀ fuel start, Keeps BuffersDrop (normalizeUpwards walk fuel start)
  | 0, none => .pure _
  | 0, some _ => .diverge
  | _ + 1, none => .pure _
  | fuel + 1, some nodeId => by
    refine .bind (.gets _) fun node ↦ ?_
    cases node with
    | none => exact .pure _
    | some node =>
      exact .bind (normalizeNode_buffersDrop walk nodeId node)
        (normalizeUpwards_buffersDrop walk fuel)

/-! ## Closing -/

/-- Operations within a frame. -/
theorem keeps_buffersDrop_of_sameFrame {α : Type} {m : StateOp α} (h : Keeps SameFrame m) :
    Keeps BuffersDrop m := fun s ↦ (h s).buffersDrop

theorem settleSession_buffersDrop : Keeps BuffersDrop (settleSession fuel sessionId) :=
  keeps_buffersDrop_of_sameFrame
    (.bind (normalizeZoomedNode_sameFrame fuel sessionId) fun _ ↦ healFocus_sameFrame fuel sessionId)

theorem clearSessionRoot_buffersDrop : Keeps BuffersDrop (clearSessionRoot fuel sessionId) :=
  .bind (.ask _) fun oldRoot ↦ .bind (removeSubtreeNodes_buffersDrop fuel oldRoot) fun _ ↦
    .bind nextNodeId_buffersDrop fun _ ↦ .bind (modify_buffersDrop fun _ ↦ rfl) fun _ ↦
    .bind (sessionMut_buffersDrop sessionId _) fun _ ↦
    .bind (sessionMut_buffersDrop sessionId _) fun _ ↦
    keeps_buffersDrop_of_sameFrame (healFocus_sameFrame fuel sessionId)

theorem closeNode_buffersDrop (nodeId : NodeId) : Keeps BuffersDrop (closeNode fuel nodeId) := by
  refine .bind (.ask _) fun sessionId ↦ .bind (.gets _) fun isRoot ↦ ?_
  split
  · exact clearSessionRoot_buffersDrop fuel sessionId
  · refine .bind (.ask _) fun parent ↦ ?_
    cases parent with
    | some parent =>
      exact .bind (.bind (removeChild_buffersDrop parent nodeId) fun _ ↦
        .bind (removeSubtreeNodes_buffersDrop fuel nodeId) fun _ ↦
          normalizeUpwards_buffersDrop fuel fuel _) fun _ ↦ settleSession_buffersDrop fuel sessionId
    | none =>
      refine .bind (.gets _) fun floatingId ↦ ?_
      cases floatingId with
      | some floatingId =>
        exact .bind (removeFloatingWindow_buffersDrop floatingId) fun floating ↦
          .bind (removeSubtreeNodes_buffersDrop fuel _) fun _ ↦
            settleSession_buffersDrop fuel sessionId
      | none => exact .throw _

theorem removeBuffer_buffersDrop (bufferId : BufferId) :
    Keeps BuffersDrop (removeBuffer bufferId) := by
  refine .bind (.ask _) fun buffer ↦ ?_
  split
  · exact .throw _
  · refine .bind (.modify fun s bufferId' buffer' hbuffer' ↦ ?_) fun _ ↦ .pure _
    rw [Table.get?_erase] at hbuffer'
    split at hbuffer'
    · cases hbuffer'
    · exact ⟨buffer', hbuffer', rfl⟩

theorem tryRemoveBuffer_buffersDrop (bufferId : BufferId) (disposed : DisposedBuffers) :
    Keeps BuffersDrop (tryRemoveBuffer bufferId disposed) := by
  refine .bind (.attempt (removeBuffer_buffersDrop bufferId)) fun result ↦ ?_
  cases result with
  | ok => exact .pure _
  | error => exact .pure _

theorem disposeView_buffersDrop (bufferId : BufferId) (viewId : NodeId)
    (disposed : DisposedBuffers) :
    Keeps BuffersDrop (disposeView fuel bufferId viewId disposed) := by
  refine .bind (.gets _) fun view ↦ ?_
  cases view with
  | none => exact .pure _
  | some view =>
    refine .bind (.attempt (closeNode_buffersDrop fuel viewId)) fun result ↦ ?_
    cases result with
    | ok => exact tryRemoveBuffer_buffersDrop bufferId _
    | error => exact .pure _

theorem disposeEntry_buffersDrop (disposed : DisposedBuffers) (entry : ExitedEntry) :
    Keeps BuffersDrop (disposeEntry fuel disposed entry) := by
  rw [disposeEntry]
  split
  · split
    · exact .pure _
    · exact disposeView_buffersDrop fuel entry.bufferId _ disposed
  · split
    · exact tryRemoveBuffer_buffersDrop entry.bufferId disposed
    · exact .pure _

/-- Disposing of exited buffers leaves every record it does not remove as it was, but for its
attachment and its activity. -/
theorem disposeExitedBuffers_buffersDrop : Keeps BuffersDrop (disposeExitedBuffers fuel) :=
  .bind (.gets _) fun helpers ↦
    .bind (.fold (fun disposed bufferId ↦ tryRemoveBuffer_buffersDrop bufferId disposed) helpers _)
      fun disposed ↦ .bind (.gets _) fun exited ↦
        .fold (disposeEntry_buffersDrop fuel) exited disposed

end ServerState

end Embers
