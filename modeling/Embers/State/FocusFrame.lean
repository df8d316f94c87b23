import Embers.State.Focus

/-!
# What focusing leaves alone

Focusing, selecting and zooming touch flags, remembered panes, active tabs and activity, and
nothing else. `ServerState.frame` erases just these; two states with the same frame have the same
layout, the same attachments and the same records otherwise. Every operation of `State.Focus`
stays within one frame, however it ends.
-/

namespace Embers

/-! ## The frame -/

/-- The session without its focus, its zoom and its history. -/
def Session.frame (session : Session) : Session :=
  { session with focusedLeaf := none, focusedFloating := none, zoomedNode := none, focusHistory := [] }

/-- The buffer without its activity. -/
def Buffer.frame (buffer : Buffer) : Buffer := { buffer with activity := .idle }

/-- The node without its focus flag, the pane it remembers and its active tab. -/
def Node.frame : Node → Node
  | .bufferView node => .bufferView { node with view := { node.view with focused := false } }
  | .split node => .split { node with lastFocusedDescendant := none }
  | .tabs node => .tabs { node with active := 0, lastFocusedDescendant := none }

/-- The window without its focus flag and the pane it remembers. -/
def FloatingWindow.frame (floating : FloatingWindow) : FloatingWindow :=
  { floating with focused := false, lastFocusedLeaf := none }

namespace ServerState

/-- The state without anything focusing changes. -/
def frame (s : ServerState) : ServerState :=
  { s with
    sessions := s.sessions.map fun _ session ↦ session.frame
    buffers := s.buffers.map fun _ buffer ↦ buffer.frame
    nodes := s.nodes.map fun _ node ↦ node.frame
    floating := s.floating.map fun _ floating ↦ floating.frame }

/-- The states differ in nothing but the focus. -/
def SameFrame (s s' : ServerState) : Prop := s.frame = s'.frame

instance : Std.Refl SameFrame := ⟨fun _ ↦ rfl⟩

instance : IsTrans ServerState SameFrame := ⟨fun _ _ _ h h' ↦ Eq.trans h h'⟩

/-! ## Single changes -/

theorem sameFrame_mapSession (s : ServerState) (sessionId : SessionId) {f : Session → Session}
    (hf : ∀ session, (f session).frame = session.frame) : SameFrame s (s.mapSession sessionId f) := by
  rw [SameFrame, frame, frame, mapSession, Table.map_modify fun session ↦ hf session]

theorem sameFrame_mapBuffer (s : ServerState) (bufferId : BufferId) {f : Buffer → Buffer}
    (hf : ∀ buffer, (f buffer).frame = buffer.frame) : SameFrame s (s.mapBuffer bufferId f) := by
  rw [SameFrame, frame, frame, mapBuffer, Table.map_modify fun buffer ↦ hf buffer]

theorem sameFrame_mapNode (s : ServerState) (nodeId : NodeId) {f : Node → Node}
    (hf : ∀ node, (f node).frame = node.frame) : SameFrame s (s.mapNode nodeId f) := by
  rw [SameFrame, frame, frame, mapNode, Table.map_modify fun node ↦ hf node]

theorem sameFrame_mapFloating (s : ServerState) (floatingId : FloatingId)
    {f : FloatingWindow → FloatingWindow} (hf : ∀ floating, (f floating).frame = floating.frame) :
    SameFrame s (s.mapFloating floatingId f) := by
  rw [SameFrame, frame, frame, mapFloating, Table.map_modify fun floating ↦ hf floating]

theorem sameFrame_mapFloatings {f : FloatingId → FloatingWindow → FloatingWindow}
    (hf : ∀ floatingId floating, (f floatingId floating).frame = floating.frame)
    (floatingIds : List FloatingId) (s : ServerState) :
    SameFrame s (mapFloatings f floatingIds s) := by
  induction floatingIds generalizing s with
  | nil => exact rfl
  | cons floatingId floatingIds ih =>
    exact (sameFrame_mapFloating s floatingId (hf floatingId)).trans (ih _)

theorem frame_focusThrough (leafId child : NodeId) (node : Node) :
    (node.focusThrough leafId child).frame = node.frame := by
  cases node <;> rfl

open Op

variable (fuel : ℕ) (sessionId : SessionId)

theorem sessionMut_sameFrame {f : Session → Session}
    (hf : ∀ session, (f session).frame = session.frame) :
    Keeps SameFrame (sessionMut sessionId f) := fun s ↦ by
  rw [sessionMut_snd]
  exact sameFrame_mapSession s sessionId hf

theorem nodeMut_sameFrame (nodeId : NodeId) {f : Node → Node}
    (hf : ∀ node, (f node).frame = node.frame) : Keeps SameFrame (nodeMut nodeId f) := fun s ↦ by
  rw [nodeMut_snd]
  exact sameFrame_mapNode s nodeId hf

theorem setBufferActivity_sameFrame (bufferId : BufferId) (newActivity : ActivityState) :
    Keeps SameFrame (setBufferActivity bufferId newActivity) := fun s ↦ by
  rw [setBufferActivity, bufferMut_snd]
  exact sameFrame_mapBuffer s bufferId fun _ ↦ rfl

/-! ## Operations -/

theorem acknowledgeLeaf_sameFrame (leafId : NodeId) : Keeps SameFrame (acknowledgeLeaf leafId) := by
  refine .bind (.ask _) fun bufferId ↦ .bind (.ask _) fun buffer ↦ ?_
  split
  · exact .bind (.modify fun s ↦ sameFrame_mapBuffer s bufferId fun _ ↦ rfl) fun _ ↦ .pure _
  · exact .pure _

theorem acknowledgeLeaves_sameFrame : ∀ leaves, Keeps SameFrame (acknowledgeLeaves leaves)
  | [] => .pure _
  | leafId :: rest =>
    .bind (acknowledgeLeaf_sameFrame leafId) fun _ ↦
      .bind (acknowledgeLeaves_sameFrame rest) fun _ ↦ .pure _

theorem acknowledgeShownActivity_sameFrame :
    Keeps SameFrame (acknowledgeShownActivity fuel sessionId) :=
  .bind (.ask _) acknowledgeLeaves_sameFrame

theorem setLeafFocus_sameFrame (leafId : NodeId) (focused : Bool) :
    Keeps SameFrame (setLeafFocus leafId focused) := by
  refine .bind (.ask _) fun _ ↦ .modify fun s ↦ sameFrame_mapNode s leafId fun node ↦ ?_
  cases node <;> rfl

theorem clearLeafFocus_sameFrame : ∀ leaf, Keeps SameFrame (clearLeafFocus leaf)
  | some leafId => .bind (.attempt (setLeafFocus_sameFrame leafId false)) fun _ ↦ .pure _
  | none => .pure _

theorem clearSessionFocus_sameFrame : Keeps SameFrame (clearSessionFocus sessionId) := by
  refine .bind (.ask _) fun session ↦ .bind (clearLeafFocus_sameFrame _) fun _ ↦ .bind ?_ fun _ ↦ ?_
  · refine .modify fun s ↦ sameFrame_mapFloatings (fun floatingId floating ↦ ?_) _ s
    rfl
  · exact sessionMut_sameFrame sessionId fun _ ↦ rfl

theorem rememberFocus_sameFrame (leafId : NodeId) :
    Keeps SameFrame (rememberFocus sessionId leafId) :=
  .bind (.ask _) fun _ ↦ .bind (.gets _) fun _ ↦ sessionMut_sameFrame sessionId fun _ ↦ rfl

theorem rememberPrevious_sameFrame (leafId : NodeId) :
    ∀ previous, Keeps SameFrame (rememberPrevious sessionId leafId previous)
  | some previousLeaf => by
    rw [rememberPrevious]
    split
    · exact rememberFocus_sameFrame sessionId previousLeaf
    · exact .pure _
  | none => .pure _

theorem focusUpwards_sameFrame (leafId : NodeId) :
    ∀ fuel child, Keeps SameFrame (focusUpwards leafId fuel child)
  | 0, _ => .diverge
  | fuel + 1, child => by
    refine .bind (.ask _) fun parent ↦ ?_
    cases parent with
    | some parent =>
      exact .bind (nodeMut_sameFrame parent (frame_focusThrough leafId child)) fun _ ↦
        focusUpwards_sameFrame leafId fuel parent
    | none => exact .pure _

theorem focusLeaf_sameFrame (leafId : NodeId) :
    Keeps SameFrame (focusLeaf fuel sessionId leafId) := by
  refine .bind (.ask _) fun _ ↦ .bind (.ask _) fun _ ↦ .bind (.ask _) fun bufferId ↦
    .bind (.ask _) fun session ↦ .bind (clearSessionFocus_sameFrame sessionId) fun _ ↦
    .bind (setLeafFocus_sameFrame leafId true) fun _ ↦
    .bind (rememberPrevious_sameFrame sessionId leafId _) fun _ ↦ .bind (.ask _) fun owner ↦
    .bind (sessionMut_sameFrame sessionId fun _ ↦ rfl) fun _ ↦ .bind (.ask _) fun session ↦
    .bind ?_ fun _ ↦ .bind (focusUpwards_sameFrame leafId fuel leafId) fun _ ↦
    .bind (setBufferActivity_sameFrame bufferId .idle) fun _ ↦
    .bind (acknowledgeShownActivity_sameFrame fuel sessionId) fun _ ↦ .pure _
  refine .modify fun s ↦ sameFrame_mapFloatings (fun floatingId floating ↦ ?_) _ s
  split <;> rfl

theorem focusOrClear_sameFrame : ∀ leaf, Keeps SameFrame (focusOrClear fuel sessionId leaf)
  | some leaf => focusLeaf_sameFrame fuel sessionId leaf
  | none => clearSessionFocus_sameFrame sessionId

theorem healFocus_sameFrame : Keeps SameFrame (healFocus fuel sessionId) :=
  .bind (.ask _) (focusOrClear_sameFrame fuel sessionId)

theorem focusCandidateOrHeal_sameFrame (nodeId : NodeId) :
    Keeps SameFrame (focusCandidateOrHeal fuel sessionId nodeId) := by
  refine .bind (.ask _) fun leaf ↦ ?_
  cases leaf with
  | some leaf => exact focusLeaf_sameFrame fuel sessionId leaf
  | none => exact healFocus_sameFrame fuel sessionId

theorem selectUpwards_sameFrame (window leafId : NodeId) :
    ∀ fuel child, Keeps SameFrame (selectUpwards window leafId fuel child)
  | 0, _ => .diverge
  | fuel + 1, child => by
    rw [selectUpwards]
    split
    · exact .pure _
    · refine .bind (.ask _) fun parent ↦ ?_
      cases parent with
      | some parent =>
        exact .bind (nodeMut_sameFrame parent (frame_focusThrough leafId child)) fun _ ↦
          selectUpwards_sameFrame window leafId fuel parent
      | none => exact .throw _

theorem selectPane_sameFrame (leafId : NodeId) :
    Keeps SameFrame (selectPane fuel sessionId leafId) := by
  refine .bind (.ask _) fun _ ↦ .bind (.ask _) fun _ ↦ .bind (.ask _) fun window ↦ ?_
  cases window with
  | some window => exact selectUpwards_sameFrame window leafId fuel leafId
  | none => exact focusLeaf_sameFrame fuel sessionId leafId

theorem showNode_sameFrame (nodeId : NodeId) : Keeps SameFrame (showNode fuel sessionId nodeId) := by
  refine .bind (.ask _) fun _ ↦ .bind (.ask _) fun leaf ↦ ?_
  cases leaf with
  | some leaf => exact focusLeaf_sameFrame fuel sessionId leaf
  | none => exact .throw _

theorem focusLastPane_sameFrame : Keeps SameFrame (focusLastPane fuel sessionId) := by
  refine .bind (.ask _) fun leaf ↦ ?_
  cases leaf with
  | some leaf => exact focusLeaf_sameFrame fuel sessionId leaf
  | none => exact .throw _

theorem focusFloating_sameFrame (floatingId : FloatingId) :
    Keeps SameFrame (focusFloating fuel floatingId) := by
  refine .bind (.ask _) fun floating ↦ .bind (.ask _) fun leaf ↦ ?_
  cases leaf with
  | some leaf => exact focusLeaf_sameFrame fuel _ leaf
  | none => exact .throw _

theorem switchTab_sameFrame (tabsId : NodeId) (index : ℕ) :
    Keeps SameFrame (switchTab fuel tabsId index) := by
  refine .bind (.ask _) fun sessionId ↦ .bind (.ask _) fun child ↦ .bind ?_ fun _ ↦
    .bind (.ask _) fun visible ↦ ?_
  · refine .modify fun s ↦ sameFrame_mapNode s tabsId fun node ↦ ?_
    cases node <;> rfl
  · split
    · exact focusCandidateOrHeal_sameFrame fuel sessionId child
    · exact .pure _

theorem normalizeZoomedNode_sameFrame : Keeps SameFrame (normalizeZoomedNode fuel sessionId) :=
  .bind (.ask _) fun _ ↦ sessionMut_sameFrame sessionId fun _ ↦ rfl

theorem refocusZoomedSubtree_sameFrame (nodeId : NodeId) :
    Keeps SameFrame (refocusZoomedSubtree fuel sessionId nodeId) := by
  refine .bind (.ask _) fun _ ↦ .bind (.ask _) fun inside ↦ ?_
  split
  · exact .pure _
  · exact .bind (.ask _) (focusOrClear_sameFrame fuel sessionId)

theorem zoomNode_sameFrame (nodeId : NodeId) : Keeps SameFrame (zoomNode fuel nodeId) :=
  .bind (.ask _) fun sessionId ↦ .bind (.ask _) fun _ ↦
    .bind (refocusZoomedSubtree_sameFrame fuel sessionId nodeId) fun _ ↦
    sessionMut_sameFrame sessionId fun _ ↦ rfl

theorem unzoomSession_sameFrame : Keeps SameFrame (unzoomSession sessionId) :=
  sessionMut_sameFrame sessionId fun _ ↦ rfl

theorem toggleZoomNode_sameFrame (nodeId : NodeId) :
    Keeps SameFrame (toggleZoomNode fuel nodeId) := by
  refine .bind (.ask _) fun sessionId ↦ .bind (.ask _) fun session ↦ ?_
  split
  · exact unzoomSession_sameFrame sessionId
  · exact zoomNode_sameFrame fuel nodeId

end ServerState

end Embers
