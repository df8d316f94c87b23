import Embers.Protocol.Shapes
import Embers.State.FocusFrame
import Embers.State.EditCases
import Embers.State.Outline

/-!
# What the server's layouts draw

Focusing a pane makes each tabs node above it show the branch the pane is in. Where all of them did
so before, focusing changes nothing that is drawn: `OnShow` says this of a pane, and `focusLeaf_alike`
that the shapes stay. A pane that can be reached from a root through what is drawn is on show, as long
as what is drawn below a node names that node as its parent.
-/

namespace Embers

namespace Node

def shape : Node → Shape
  | .bufferView _ => .view
  | .split node => .split node.direction node.children node.sizes
  | .tabs node => .tabs node.activeChild

@[simp] theorem shape_setParent (parent : Option NodeId) (node : Node) :
    (node.setParent parent).shape = node.shape := by cases node <;> rfl

theorem mem_childIds_of_drawn {node : Node} {child : NodeId} (h : child ∈ node.shape.drawn) :
    child ∈ node.childIds := by
  cases node with
  | bufferView => cases h
  | split => exact h
  | tabs node =>
    obtain ⟨tab, htab, hchild⟩ := Option.map_eq_some_iff.mp (Option.mem_toList.mp h)
    exact List.mem_map.mpr ⟨tab, List.mem_of_getElem? htab, hchild⟩

/-- A container that draws the child keeps its shape when the focus passes through. -/
theorem shape_focusThrough {child : NodeId} {node : Node} (h : child ∈ node.shape.drawn)
    (leafId : NodeId) : (node.focusThrough leafId child).shape = node.shape := by
  have hmem := mem_childIds_of_drawn h
  cases node with
  | bufferView => rfl
  | split => rfl
  | tabs node =>
    have hmem : child ∈ node.children := hmem
    have hactive : node.activeChild = some child := Option.mem_toList.mp h
    have hidx : node.tabs[node.children.idxOf child]?.map TabEntry.child = some child := by
      rw [← List.getElem?_map]
      exact List.getElem?_eq_some_iff.mpr ⟨List.idxOf_lt_length_iff.mpr hmem, List.getElem_idxOf _⟩
    rw [focusThrough, if_pos hmem, shape, shape, TabsNode.activeChild]
    exact congrArg Shape.tabs (hidx.trans hactive.symm)

end Node

namespace ServerState

variable {s s' : ServerState} {nodeId parentId childId leafId : NodeId}

def shapeOf (s : ServerState) (nodeId : NodeId) : Option Shape := s.nodes[nodeId]?.map Node.shape

theorem lists_of_draws (h : Draws s.shapeOf parentId childId) : s.Lists parentId childId := by
  obtain ⟨shape, hshape, hmem⟩ := h
  obtain ⟨node, hnode, rfl⟩ := Option.map_eq_some_iff.mp hshape
  exact ⟨node, hnode, Node.mem_childIds_of_drawn hmem⟩

theorem shapeOf_mapNode {f : Node → Node} (hf : ∀ node, (f node).shape = node.shape) :
    (s.mapNode nodeId f).shapeOf = s.shapeOf := by
  funext id
  rw [shapeOf, mapNode, Table.get?_modify]
  split
  · rw [Option.map_map, show Node.shape ∘ f = Node.shape from funext hf, shapeOf]
  · rfl

/-! ## States that draw alike -/

def zoomOf (s : ServerState) (sessionId : SessionId) : Option (Option NodeId) :=
  s.sessions[sessionId]?.map Session.zoomedNode

/-- Only the focus differs, and it shows no other tabs. -/
structure Alike (s s' : ServerState) : Prop where
  frame : SameFrame s s'
  shapeOf : s.shapeOf = s'.shapeOf
  zoomOf : s.zoomOf = s'.zoomOf

instance : Std.Refl Alike := ⟨fun _ ↦ ⟨rfl, rfl, rfl⟩⟩

instance : IsTrans ServerState Alike :=
  ⟨fun _ _ _ h h' ↦ ⟨h.frame.trans h'.frame, h.shapeOf.trans h'.shapeOf, h.zoomOf.trans h'.zoomOf⟩⟩

theorem Alike.outline (h : Alike s s') : s.outline = s'.outline := h.frame.outline

theorem alike_mapNode {f : Node → Node} (hframe : ∀ node, (f node).frame = node.frame)
    (hshape : ∀ node, (f node).shape = node.shape) : Alike s (s.mapNode nodeId f) :=
  ⟨sameFrame_mapNode s nodeId hframe, (shapeOf_mapNode hshape).symm, rfl⟩

/-- A change of other tables than the nodes, without a change of the zoom. -/
theorem alike_of_nodes (hframe : SameFrame s s') (hnodes : s'.nodes = s.nodes)
    (hzoom : s'.zoomOf = s.zoomOf) : Alike s s' :=
  ⟨hframe, by unfold ServerState.shapeOf; rw [hnodes], hzoom.symm⟩

theorem alike_mapFloatings {f : FloatingId → FloatingWindow → FloatingWindow}
    (hf : ∀ floatingId floating, (f floatingId floating).frame = floating.frame) :
    ∀ (floatingIds : List FloatingId) (s : ServerState), Alike s (mapFloatings f floatingIds s)
  | [], s => Std.Refl.refl s
  | floatingId :: rest, s => by
    have hfirst : Alike s (s.mapFloating floatingId (f floatingId)) :=
      alike_of_nodes (sameFrame_mapFloating s floatingId (hf floatingId)) rfl rfl
    exact Trans.trans hfirst (alike_mapFloatings hf rest _)

open Op

variable (fuel : ℕ) (sessionId : SessionId)

theorem sessionMut_alike {f : Session → Session} (hf : ∀ session, (f session).frame = session.frame)
    (hzoom : ∀ session, (f session).zoomedNode = session.zoomedNode) :
    Keeps Alike (sessionMut sessionId f) := fun s ↦ by
  have hframe := sessionMut_sameFrame sessionId hf s
  rw [sessionMut_snd] at hframe ⊢
  refine alike_of_nodes hframe rfl (funext fun otherId ↦ ?_)
  rw [zoomOf, mapSession, Table.get?_modify]
  split
  · rw [Option.map_map, show Session.zoomedNode ∘ f = Session.zoomedNode from funext hzoom, zoomOf]
  · rfl

theorem setLeafFocus_alike (leafId : NodeId) (focused : Bool) :
    Keeps Alike (setLeafFocus leafId focused) := by
  refine .bind (.ask _) fun _ ↦ .modify fun s ↦ alike_mapNode (fun node ↦ ?_) fun node ↦ ?_
  · cases node <;> rfl
  · cases node <;> rfl

theorem clearSessionFocus_alike : Keeps Alike (clearSessionFocus sessionId) := by
  refine .bind (.ask _) fun session ↦ .bind ?_ fun _ ↦ .bind (.modify fun s ↦ ?_) fun _ ↦
    sessionMut_alike sessionId (fun _ ↦ rfl) fun _ ↦ rfl
  · cases session.focusedLeaf with
    | none => exact .pure _
    | some leafId => exact .bind (.attempt (setLeafFocus_alike leafId false)) fun _ ↦ .pure _
  · refine alike_mapFloatings (fun _ _ ↦ ?_) _ s
    rfl

theorem rememberPrevious_alike (leafId : NodeId) :
    ∀ previous, Keeps Alike (rememberPrevious sessionId leafId previous)
  | none => .pure _
  | some previousLeaf => by
    rw [rememberPrevious]
    split
    · exact .bind (.ask _) fun _ ↦ .bind (.gets _) fun _ ↦
        sessionMut_alike sessionId (fun _ ↦ rfl) fun _ ↦ rfl
    · exact .pure _

theorem setBufferActivity_alike (bufferId : BufferId) (newActivity : ActivityState) :
    Keeps Alike (setBufferActivity bufferId newActivity) := fun s ↦
  alike_of_nodes (setBufferActivity_sameFrame bufferId newActivity s)
    (by rw [setBufferActivity, bufferMut_snd]; rfl) (by rw [setBufferActivity, bufferMut_snd]; rfl)

theorem acknowledgeLeaves_alike : ∀ leaves, Keeps Alike (acknowledgeLeaves leaves)
  | [] => .pure _
  | leafId :: rest => by
    refine .bind ?_ fun _ ↦ .bind (acknowledgeLeaves_alike rest) fun _ ↦ .pure _
    refine .bind (.ask _) fun bufferId ↦ .bind (.ask _) fun buffer ↦ ?_
    split
    · exact .bind (.modify fun s ↦ alike_of_nodes (sameFrame_mapBuffer s bufferId fun _ ↦ rfl) rfl rfl)
        fun _ ↦ .pure _
    · exact .pure _

/-! ## Focusing what is on show -/

/-- Every container above the node draws the branch that the node is in. -/
inductive OnShow (s : ServerState) : NodeId → Prop
  | root {nodeId : NodeId} {node : NodeOutline} (h : s.outline nodeId = some node)
      (hparent : node.parent = none) : OnShow s nodeId
  | child {nodeId parentId : NodeId} {node : NodeOutline} (h : s.outline nodeId = some node)
      (hparent : node.parent = some parentId) (hdraws : Draws s.shapeOf parentId nodeId)
      (hup : OnShow s parentId) : OnShow s nodeId

theorem OnShow.of_alike (h : Alike s s') (hshow : OnShow s nodeId) : OnShow s' nodeId := by
  induction hshow with
  | root hnode hparent => exact .root (h.outline ▸ hnode) hparent
  | child hnode hparent hdraws _ ih => exact .child (h.outline ▸ hnode) hparent (h.shapeOf ▸ hdraws) ih

/-- What is drawn below a root is on show. -/
theorem onShow_of_reaches {rootId : NodeId} {root : NodeOutline} (hroot : s.outline rootId = some root)
    (hparent : root.parent = none) (hlinks : ∀ {parentId childId : NodeId},
      Draws s.shapeOf parentId childId → ∃ node, s.outline childId = some node ∧
        node.parent = some parentId)
    (h : Reaches s.shapeOf rootId nodeId) : OnShow s nodeId := by
  induction h with
  | refl => exact .root hroot hparent
  | tail _ hdraws ih =>
    obtain ⟨node, hnode, hparent⟩ := hlinks hdraws
    exact .child hnode hparent hdraws ih

theorem focusUpwards_alike (leafId : NodeId) : ∀ (fuel : ℕ) {s : ServerState} {child : NodeId},
    OnShow s child → Alike s (focusUpwards leafId fuel child s).2
  | 0, s, _, _ => Std.Refl.refl s
  | fuel + 1, s, child, h => by
    rw [focusUpwards]
    refine moves_ask_bind fun parent hparent ↦ ?_
    obtain ⟨node, hnode, rfl⟩ := nodeParent_eq_ok.mp hparent
    have houtline := outline_of_get hnode
    cases h with
    | root hroot hnone =>
      obtain rfl := Option.some.inj (houtline.symm.trans hroot)
      rw [show node.parent = none from hnone]
      exact Std.Refl.refl s
    | @child _ parentId outline hchild hsome hdraws hup =>
      obtain rfl := Option.some.inj (houtline.symm.trans hchild)
      rw [show node.parent = some parentId from hsome]
      obtain ⟨shape, hshape, hmem⟩ := hdraws
      obtain ⟨parent, hget, rfl⟩ := Option.map_eq_some_iff.mp hshape
      have hstep : Alike s (nodeMut parentId (Node.focusThrough leafId child) s).2 := by
        rw [nodeMut_snd]
        refine ⟨sameFrame_mapNode s parentId (frame_focusThrough leafId child), ?_, rfl⟩
        funext id
        rw [shapeOf, shapeOf, mapNode, Table.get?_modify]
        split
        next heq =>
          subst heq
          rw [hget, Option.map_some, Option.map_some, Option.map_some,
            Node.shape_focusThrough hmem leafId]
        next => rfl
      refine moves_bind hstep fun _ t ht ↦ focusUpwards_alike leafId fuel ?_
      rw [ht] at hstep
      exact hup.of_alike hstep

/-- Focusing a pane that is on show changes nothing that is drawn. -/
theorem focusLeaf_alike (h : OnShow s leafId) (hok : focusLeaf fuel sessionId leafId s = (.ok (), s')) :
    Alike s s' := by
  have hkeep {α : Type} {m : StateOp α} {u v : ServerState} {a : α} (hkeeps : Keeps Alike m)
      (hm : m u = (.ok a, v)) : Alike u v := by
    have hmoved := hkeeps u
    rwa [hm] at hmoved
  obtain ⟨_, -, hok⟩ := ok_ask_bind hok
  obtain ⟨_, -, hok⟩ := ok_ask_bind hok
  obtain ⟨bufferId, -, hok⟩ := ok_ask_bind hok
  obtain ⟨session, -, hok⟩ := ok_ask_bind hok
  obtain ⟨_, t₁, ht₁, hok⟩ := ok_bind hok
  have h₁ := hkeep (clearSessionFocus_alike sessionId) ht₁
  obtain ⟨_, t₂, ht₂, hok⟩ := ok_bind hok
  have h₂ := hkeep (setLeafFocus_alike leafId true) ht₂
  obtain ⟨_, t₃, ht₃, hok⟩ := ok_bind hok
  have h₃ := hkeep (rememberPrevious_alike sessionId leafId _) ht₃
  obtain ⟨owner, -, hok⟩ := ok_ask_bind hok
  obtain ⟨_, t₄, ht₄, hok⟩ := ok_bind hok
  have h₄ : Alike t₃ t₄ := by
    refine hkeep (sessionMut_alike sessionId (fun _ ↦ ?_) fun _ ↦ ?_) ht₄
    · rfl
    · rfl
  obtain ⟨_, -, hok⟩ := ok_ask_bind hok
  obtain ⟨_, t₅, ht₅, hok⟩ := ok_bind hok
  have h₅ : Alike t₄ t₅ := by
    cases ht₅
    refine alike_mapFloatings (fun floatingId floating ↦ ?_) _ _
    split <;> rfl
  have hbefore : Alike s t₅ := Trans.trans h₁ (Trans.trans h₂ (Trans.trans h₃ (Trans.trans h₄ h₅)))
  obtain ⟨_, t₆, ht₆, hok⟩ := ok_bind hok
  have h₆ := focusUpwards_alike leafId fuel (h.of_alike hbefore)
  rw [ht₆] at h₆
  obtain ⟨_, t₇, ht₇, hok⟩ := ok_bind hok
  have h₇ := hkeep (setBufferActivity_alike bufferId .idle) ht₇
  obtain ⟨_, t₈, ht₈, hok⟩ := ok_bind hok
  have h₈ := hkeep (m := acknowledgeShownActivity fuel sessionId)
    (.bind (.ask _) acknowledgeLeaves_alike) ht₈
  cases hok
  exact Trans.trans hbefore (Trans.trans h₆ (Trans.trans h₇ h₈))

end ServerState

end Embers
