import Embers.Lib.Naming
import Embers.State.Command
import Embers.State.Outline
import Embers.State.Validate

/-!
# What an id names

A session, a buffer, a node or a popup may be renamed, moved, resized and focused and is still the same
thing: a node stays in its session and stays a view, a split of one direction or tabs; a buffer keeps
the command it was made for, and one that was shown or has exited stays so. `Shrink` relates two states
of which the second has nothing that the first has not, and every session of the first still with the
popups that are left of its own. Most operations keep it, however they end; the others make something or
close a session and are the subject of `State.NamesKept`.
-/

namespace Embers

/-! ## The same things -/

/-- A session keeps the time it was created. -/
def Session.SameThing (session session' : Session) : Prop := session'.createdAt = session.createdAt

/-- A buffer keeps what it was made from; that it was shown, and that it exited, stays. -/
structure Buffer.SameThing (buffer buffer' : Buffer) : Prop where
  command : buffer'.command = buffer.command
  env : buffer'.env = buffer.env
  kind : buffer'.kind = buffer.kind
  createdAt : buffer'.createdAt = buffer.createdAt
  everAttached (h : buffer.everAttached = true) : buffer'.everAttached = true
  exited (h : ServerState.hasExited buffer = true) : ServerState.hasExited buffer' = true

/-- The direction of a split. -/
def Node.direction : Node → Option SplitDirection
  | .split node => some node.direction
  | _ => none

/-- The session of a node, the direction of a split, and whether it is tabs. -/
def Node.thing (node : Node) : SessionId × Option SplitDirection × Bool :=
  (node.sessionId, node.direction, node.isTabs)

def Node.SameThing (node node' : Node) : Prop := node'.thing = node.thing

/-- A popup keeps its session, its title and whether it closes when it is empty. -/
def FloatingWindow.SameThing (floating floating' : FloatingWindow) : Prop :=
  (floating'.sessionId, floating'.title, floating'.closeOnEmpty) =
    (floating.sessionId, floating.title, floating.closeOnEmpty)

instance : Std.Refl Session.SameThing := ⟨fun _ ↦ rfl⟩

instance : IsTrans Session Session.SameThing := ⟨fun _ _ _ h h' ↦ Eq.trans h' h⟩

instance : Std.Refl Buffer.SameThing := ⟨fun _ ↦ ⟨rfl, rfl, rfl, rfl, id, id⟩⟩

instance : IsTrans Buffer Buffer.SameThing where
  trans _ _ _ h h' := ⟨h'.command.trans h.command, h'.env.trans h.env, h'.kind.trans h.kind,
    h'.createdAt.trans h.createdAt, h'.everAttached ∘ h.everAttached, h'.exited ∘ h.exited⟩

instance : Std.Refl Node.SameThing := ⟨fun _ ↦ rfl⟩

instance : IsTrans Node Node.SameThing := ⟨fun _ _ _ h h' ↦ Eq.trans h' h⟩

instance : Std.Refl FloatingWindow.SameThing := ⟨fun _ ↦ rfl⟩

instance : IsTrans FloatingWindow FloatingWindow.SameThing := ⟨fun _ _ _ h h' ↦ Eq.trans h' h⟩

namespace Node

@[simp] theorem thing_setParent (parent : Option NodeId) (node : Node) :
    (node.setParent parent).thing = node.thing := by cases node <;> rfl

@[simp] theorem thing_replaceChildId (oldChild newChild : NodeId) (node : Node) :
    (node.replaceChildId oldChild newChild).thing = node.thing := by cases node <;> rfl

@[simp] theorem thing_removeChildId (childId : NodeId) (node : Node) :
    (node.removeChildId childId).thing = node.thing := by cases node <;> rfl

@[simp] theorem thing_setLastFocusedDescendant (leaf : Option NodeId) (node : Node) :
    (node.setLastFocusedDescendant leaf).thing = node.thing := by cases node <;> rfl

@[simp] theorem thing_frame (node : Node) : node.frame.thing = node.thing := by cases node <;> rfl

theorem thing_mapTabs {f : TabsNode → TabsNode} (hf : ∀ tabs, (f tabs).sessionId = tabs.sessionId)
    (node : Node) : (node.mapTabs f).thing = node.thing := by
  cases node with
  | bufferView => rfl
  | split => rfl
  | tabs tabs => simp only [mapTabs, thing, sessionId, direction, isTabs, hf]

theorem thing_mapSplit {f : SplitNode → SplitNode} (hf : ∀ split, (f split).sessionId = split.sessionId)
    (hdirection : ∀ split, (f split).direction = split.direction) (node : Node) :
    (node.mapSplit f).thing = node.thing := by
  cases node with
  | bufferView => rfl
  | split split => simp only [mapSplit, thing, sessionId, direction, isTabs, hf, hdirection]
  | tabs => rfl

theorem thing_mapView {f : BufferViewNode → BufferViewNode}
    (hf : ∀ view, (f view).sessionId = view.sessionId) (node : Node) :
    (node.mapView f).thing = node.thing := by
  cases node with
  | bufferView view => simp only [mapView, thing, sessionId, direction, isTabs, hf]
  | split => rfl
  | tabs => rfl

end Node

theorem Buffer.sameThing_of_frame {buffer buffer' : Buffer} (h : buffer.frame = buffer'.frame) :
    Buffer.SameThing buffer buffer' := by
  have hstate : buffer'.state = buffer.state := (congrArg Buffer.state h).symm
  have hexited : ServerState.hasExited buffer' = ServerState.hasExited buffer := by
    rw [ServerState.hasExited, ServerState.hasExited, hstate]
  exact ⟨(congrArg Buffer.command h).symm, (congrArg Buffer.env h).symm, (congrArg Buffer.kind h).symm,
    (congrArg Buffer.createdAt h).symm, (congrArg Buffer.everAttached h).symm.trans, hexited.trans⟩

namespace ServerState

/-! ## States that only lose -/

/-- Popups that are left, of sessions that list those of them that they listed. -/
theorem FloatingListed.of_shrinks {s s' : ServerState} (h : s.FloatingListed)
    (hfloating : Shrinks FloatingWindow.SameThing s.floating s'.floating)
    (hlists : ∀ (sessionId : SessionId) (session : Session), s.sessions[sessionId]? = some session →
      ∃ session', s'.sessions[sessionId]? = some session' ∧
        ∀ floatingId ∈ s'.floating, floatingId ∈ session.floating → floatingId ∈ session'.floating) :
    s'.FloatingListed := by
  intro floatingId floating' hget'
  obtain ⟨floating, hget, hsame⟩ := hfloating floatingId floating' hget'
  obtain ⟨session, hsession, hmem⟩ := h floatingId floating hget
  obtain ⟨session', hsession', hstill⟩ := hlists _ session hsession
  rw [show floating'.sessionId = floating.sessionId from congrArg Prod.fst hsame]
  have hthere : floatingId ∈ s'.floating := by
    rw [← Std.ExtTreeMap.isSome_getElem?_iff_mem, hget', Option.isSome_some]
  exact ⟨session', hsession', hstill floatingId hthere hmem⟩

/-- Everything in the second state is in the first, no id was handed out and no session closed, and
popups that were listed by their sessions still are. -/
structure Shrink (s s' : ServerState) : Prop where
  sessions : Shrinks Session.SameThing s.sessions s'.sessions
  buffers : Shrinks Buffer.SameThing s.buffers s'.buffers
  nodes : Shrinks Node.SameThing s.nodes s'.nodes
  floating : Shrinks FloatingWindow.SameThing s.floating s'.floating
  sessionIds : s'.sessionIds = s.sessionIds
  bufferIds : s'.bufferIds = s.bufferIds
  nodeIds : s'.nodeIds = s.nodeIds
  floatingIds : s'.floatingIds = s.floatingIds
  stays (sessionId : SessionId) (h : sessionId ∈ s.sessions) : sessionId ∈ s'.sessions
  listed (h : s.FloatingListed) : s'.FloatingListed

instance : Std.Refl Shrink :=
  ⟨fun _ ↦ ⟨.refl _, .refl _, .refl _, .refl _, rfl, rfl, rfl, rfl, fun _ ↦ id, id⟩⟩

instance : IsTrans ServerState Shrink where
  trans _ _ _ h h' := ⟨h.sessions.trans h'.sessions, h.buffers.trans h'.buffers, h.nodes.trans h'.nodes,
    h.floating.trans h'.floating, h'.sessionIds.trans h.sessionIds, h'.bufferIds.trans h.bufferIds,
    h'.nodeIds.trans h.nodeIds, h'.floatingIds.trans h.floatingIds,
    fun sessionId ↦ h'.stays sessionId ∘ h.stays sessionId, h'.listed ∘ h.listed⟩

theorem SameFrame.floating_shrinks {s s' : ServerState} (h : SameFrame s s') :
    Shrinks FloatingWindow.SameThing s.floating s'.floating :=
  .of_map (f := FloatingWindow.frame) (fun h ↦ (congrArg (fun floating : FloatingWindow ↦
    (floating.sessionId, floating.title, floating.closeOnEmpty)) h).symm) (congrArg ServerState.floating h)

theorem SameFrame.session_floating {s s' : ServerState} (h : SameFrame s s') {sessionId : SessionId}
    {session : Session} (hsession : s.sessions[sessionId]? = some session) :
    ∃ session', s'.sessions[sessionId]? = some session' ∧ session'.floating = session.floating := by
  have hroots := congrFun h.sessionRoots sessionId
  rw [sessionRoots_of_get hsession] at hroots
  obtain ⟨session', hsession', heq⟩ := Option.map_eq_some_iff.mp hroots.symm
  exact ⟨session', hsession', congrArg Prod.snd heq⟩

theorem SameFrame.shrink {s s' : ServerState} (h : SameFrame s s') : Shrink s s' where
  sessions := .of_map (f := Session.frame) (fun h ↦ (congrArg Session.createdAt h).symm)
    (congrArg ServerState.sessions h)
  buffers := .of_map Buffer.sameThing_of_frame (congrArg ServerState.buffers h)
  nodes := .of_map (fun {node node'} h ↦ by
    rw [Node.SameThing, ← node.thing_frame, ← node'.thing_frame, h]) (congrArg ServerState.nodes h)
  floating := h.floating_shrinks
  sessionIds := (congrArg ServerState.sessionIds h).symm
  bufferIds := (congrArg ServerState.bufferIds h).symm
  nodeIds := (congrArg ServerState.nodeIds h).symm
  floatingIds := (congrArg ServerState.floatingIds h).symm
  stays sessionId hmem := by
    obtain ⟨session, hsession⟩ := Option.isSome_iff_exists.mp
      (Std.ExtTreeMap.isSome_getElem?_iff_mem.mpr hmem)
    obtain ⟨session', hsession', -⟩ := h.session_floating hsession
    rw [← Std.ExtTreeMap.isSome_getElem?_iff_mem, hsession', Option.isSome_some]
  listed hlisted := hlisted.of_shrinks h.floating_shrinks fun sessionId session hsession ↦ by
    obtain ⟨session', hsession', heq⟩ := h.session_floating hsession
    exact ⟨session', hsession', fun floatingId _ hmem ↦ heq ▸ hmem⟩

section

variable (s : ServerState)

theorem shrink_buffers {buffers : Table BufferId Buffer}
    (h : Shrinks Buffer.SameThing s.buffers buffers) : Shrink s { s with buffers } :=
  ⟨.refl _, h, .refl _, .refl _, rfl, rfl, rfl, rfl, fun _ ↦ id, id⟩

theorem shrink_nodes {nodes : Table NodeId Node} (h : Shrinks Node.SameThing s.nodes nodes) :
    Shrink s { s with nodes } := ⟨.refl _, .refl _, h, .refl _, rfl, rfl, rfl, rfl, fun _ ↦ id, id⟩

theorem shrink_floating {floating : Table FloatingId FloatingWindow}
    (h : Shrinks FloatingWindow.SameThing s.floating floating) : Shrink s { s with floating } :=
  ⟨.refl _, .refl _, .refl _, h, rfl, rfl, rfl, rfl, fun _ ↦ id, fun hlisted ↦
    hlisted.of_shrinks h fun _ session hsession ↦ ⟨session, hsession, fun _ _ ↦ id⟩⟩

/-- A session may drop popups that are not there. -/
theorem dropsFloating_shrink (sessionId : SessionId) {f : Session → Session}
    (hf : ∀ session, (f session).createdAt = session.createdAt)
    (hfloating : ∀ session, ∀ floatingId ∈ s.floating, floatingId ∈ session.floating →
      floatingId ∈ (f session).floating) : Shrink s (s.mapSession sessionId f) where
  sessions := .modify hf s.sessions sessionId
  buffers := .refl _
  nodes := .refl _
  floating := .refl _
  sessionIds := rfl
  bufferIds := rfl
  nodeIds := rfl
  floatingIds := rfl
  stays _ hmem := Std.ExtTreeMap.mem_modify.mpr hmem
  listed hlisted := by
    refine hlisted.of_shrinks (.refl _) fun sessionId' session hsession ↦ ?_
    rw [mapSession, Table.get?_modify]
    split
    · exact ⟨f session, by rw [hsession, Option.map_some], hfloating session⟩
    · exact ⟨session, hsession, fun _ _ ↦ id⟩

theorem mapSession_shrink (sessionId : SessionId) {f : Session → Session}
    (hf : ∀ session, (f session).createdAt = session.createdAt)
    (hfloating : ∀ session, (f session).floating = session.floating) :
    Shrink s (s.mapSession sessionId f) :=
  dropsFloating_shrink s sessionId hf fun session _ _ hmem ↦ (hfloating session).symm ▸ hmem

/-- A popup is taken out, and out of the list of a session. -/
theorem forget_shrink (floatingId : FloatingId) (sessionId : SessionId) {f : Session → Session}
    (hf : ∀ session, (f session).createdAt = session.createdAt)
    (hfloating : ∀ session, (f session).floating = session.floating.filter (· ≠ floatingId)) :
    Shrink s (mapSession sessionId f { s with floating := s.floating.erase floatingId }) := by
  refine Trans.trans (shrink_floating s (.erase _ floatingId))
    (dropsFloating_shrink _ sessionId hf fun session floatingId' hthere hmem ↦ ?_)
  have hne : floatingId' ≠ floatingId := by
    rintro rfl
    exact (Std.ExtTreeMap.mem_erase.mp hthere).1 Std.ReflCmp.compare_self
  rw [hfloating]
  exact List.mem_filter.mpr ⟨hmem, decide_eq_true hne⟩

theorem mapBuffer_shrink (bufferId : BufferId) {f : Buffer → Buffer}
    (hf : ∀ buffer, Buffer.SameThing buffer (f buffer)) : Shrink s (s.mapBuffer bufferId f) :=
  shrink_buffers s (.modify hf s.buffers bufferId)

theorem mapNode_shrink (nodeId : NodeId) {f : Node → Node} (hf : ∀ node, (f node).thing = node.thing) :
    Shrink s (s.mapNode nodeId f) := shrink_nodes s (.modify hf s.nodes nodeId)

theorem mapFloating_shrink (floatingId : FloatingId) {f : FloatingWindow → FloatingWindow}
    (hf : ∀ floating, FloatingWindow.SameThing floating (f floating)) :
    Shrink s (s.mapFloating floatingId f) := shrink_floating s (.modify hf s.floating floatingId)

theorem eraseNode_shrink (nodeId : NodeId) : Shrink s (s.eraseNode nodeId) :=
  shrink_nodes s (.erase s.nodes nodeId)

end

/-- A buffer that stays what it is, in a changed record. -/
theorem sameThing_of_buffer {buffer buffer' : Buffer} (hcommand : buffer'.command = buffer.command)
    (henv : buffer'.env = buffer.env) (hkind : buffer'.kind = buffer.kind)
    (hcreated : buffer'.createdAt = buffer.createdAt)
    (hattached : buffer'.everAttached = buffer.everAttached) (hstate : buffer'.state = buffer.state) :
    Buffer.SameThing buffer buffer' := by
  have hexited : hasExited buffer' = hasExited buffer := by rw [hasExited, hasExited, hstate]
  exact ⟨hcommand, henv, hkind, hcreated, hattached.trans, hexited.trans⟩

open Op

/-! ## Links -/

theorem keeps_shrink_of_sameFrame {α : Type} {m : StateOp α} (h : Keeps SameFrame m) : Keeps Shrink m :=
  fun s ↦ (h s).shrink

theorem sessionMut_shrink (sessionId : SessionId) {f : Session → Session}
    (hf : ∀ session, (f session).createdAt = session.createdAt)
    (hfloating : ∀ session, (f session).floating = session.floating) :
    Keeps Shrink (sessionMut sessionId f) := fun s ↦ by
  rw [sessionMut_snd]
  exact mapSession_shrink s sessionId hf hfloating

theorem bufferMut_shrink (bufferId : BufferId) {f : Buffer → Buffer}
    (hf : ∀ buffer, Buffer.SameThing buffer (f buffer)) : Keeps Shrink (bufferMut bufferId f) := fun s ↦ by
  rw [bufferMut_snd]
  exact mapBuffer_shrink s bufferId hf

theorem nodeMut_shrink (nodeId : NodeId) {f : Node → Node} (hf : ∀ node, (f node).thing = node.thing) :
    Keeps Shrink (nodeMut nodeId f) := fun s ↦ by
  rw [nodeMut_snd]
  exact mapNode_shrink s nodeId hf

theorem floatingMut_shrink (floatingId : FloatingId) {f : FloatingWindow → FloatingWindow}
    (hf : ∀ floating, FloatingWindow.SameThing floating (f floating)) :
    Keeps Shrink (floatingMut floatingId f) := fun s ↦ by
  rw [floatingMut_snd]
  exact mapFloating_shrink s floatingId hf

theorem tabsMut_shrink (tabsId : NodeId) {f : TabsNode → TabsNode}
    (hf : ∀ tabs, (f tabs).sessionId = tabs.sessionId) : Keeps Shrink (tabsMut tabsId f) :=
  .bind (.ask _) fun _ ↦ .modify fun s ↦ mapNode_shrink s tabsId (Node.thing_mapTabs hf)

theorem setParent_shrink (nodeId : NodeId) (parent : Option NodeId) :
    Keeps Shrink (setParent nodeId parent) := nodeMut_shrink nodeId (Node.thing_setParent parent)

theorem replaceChild_shrink (parentId oldChild newChild : NodeId) :
    Keeps Shrink (replaceChild parentId oldChild newChild) := by
  refine .bind (.ask _) fun _ ↦ .bind (.ask _) fun _ ↦ .bind (.ask _) fun _ ↦
    .bind (.ask _) fun parent ↦ ?_
  split
  · exact .throw _
  · split
    · exact .bind (.modify fun s ↦ mapNode_shrink s parentId
        (Node.thing_replaceChildId oldChild newChild)) fun _ ↦
        .bind (setParent_shrink oldChild none) fun _ ↦ setParent_shrink newChild _
    · exact .throw _

theorem removeChild_shrink (parentId childId : NodeId) :
    Keeps Shrink (removeChild parentId childId) := by
  refine .bind (.ask _) fun parent ↦ ?_
  split
  · exact .throw _
  · split
    · exact .bind (.modify fun s ↦ mapNode_shrink s parentId (Node.thing_removeChildId childId))
        fun _ ↦ setParent_shrink childId none
    · exact .throw _

theorem repointRoot_shrink (sessionId : SessionId) (oldNode newNode : NodeId) :
    Keeps Shrink (repointRoot sessionId oldNode newNode) := by
  refine .bind (.gets _) fun isRoot ↦ ?_
  split
  · exact .bind (sessionMut_shrink sessionId (fun _ ↦ rfl) fun _ ↦ rfl) fun _ ↦
      setParent_shrink newNode none
  · refine .bind (.gets _) fun floatingId ↦ ?_
    cases floatingId with
    | some floatingId =>
      exact .bind (floatingMut_shrink floatingId fun _ ↦ rfl) fun _ ↦ setParent_shrink newNode none
    | none => exact .throw _

theorem repointOwnerReference_shrink (sessionId : SessionId) (owner : Option NodeId)
    (oldNode newNode : NodeId) :
    Keeps Shrink (repointOwnerReference sessionId owner oldNode newNode) := by
  cases owner with
  | none => exact repointRoot_shrink sessionId oldNode newNode
  | some parentId =>
    have hrepoint : Keeps Shrink (do
        modify (mapNode parentId (Node.replaceChildId oldNode newNode))
        setParent newNode (some parentId) : StateOp Unit) :=
      .bind (.modify fun s ↦ mapNode_shrink s parentId (Node.thing_replaceChildId oldNode newNode))
        fun _ ↦ setParent_shrink newNode (some parentId)
    refine .bind (.ask _) fun parent ↦ ?_
    cases parent with
    | bufferView => exact .throw _
    | split split =>
      dsimp only
      split
      · exact hrepoint
      · exact .throw _
    | tabs tabs =>
      dsimp only
      split
      · exact hrepoint
      · exact .throw _

theorem replaceNodeInOwner_shrink (fuel : ℕ) (oldNode newNode : NodeId) :
    Keeps Shrink (replaceNodeInOwner fuel oldNode newNode) := by
  refine .bind (.ask _) fun sessionId ↦ .bind (.ask _) fun owner ↦ .bind (.ask _) fun replacement ↦ ?_
  cases owner with
  | some parentId =>
    refine .bind (.ask _) fun update ↦ .bind (replaceChild_shrink parentId oldNode newNode) fun _ ↦ ?_
    split
    · exact nodeMut_shrink parentId (Node.thing_setLastFocusedDescendant replacement)
    · exact .pure _
  | none =>
    exact .bind (repointRoot_shrink sessionId oldNode newNode) fun _ ↦ setParent_shrink oldNode none

/-! ## Removal -/

theorem detachBufferIfAttachedTo_shrink (bufferId : BufferId) (nodeId : NodeId) :
    Keeps Shrink (detachBufferIfAttachedTo bufferId nodeId) := by
  refine .bind (.gets _) fun buffer ↦ ?_
  split
  · exact bufferMut_shrink bufferId fun _ ↦ sameThing_of_buffer rfl rfl rfl rfl rfl rfl
  · exact .pure _

theorem detachView_shrink (nodeId : NodeId) : Keeps Shrink (detachView nodeId) := by
  refine .bind (.ask _) fun node ↦ ?_
  cases node with
  | bufferView leaf => exact detachBufferIfAttachedTo_shrink leaf.bufferId nodeId
  | split => exact .pure _
  | tabs => exact .pure _

theorem deleteView_shrink (nodeId : NodeId) : Keeps Shrink (deleteView nodeId) :=
  .bind (.attempt (detachView_shrink nodeId)) fun _ ↦ .modify fun s ↦ eraseNode_shrink s nodeId

theorem removeSubtreeNodes_shrink :
    ∀ fuel nodeId, Keeps Shrink (removeSubtreeNodes fuel nodeId)
  | 0, _ => .diverge
  | fuel + 1, nodeId =>
    .bind (.ask _) fun node ↦ .bind (.forEach (removeSubtreeNodes_shrink fuel) node.childIds) fun _ ↦
      .bind (detachView_shrink nodeId) fun _ ↦ .modify fun s ↦ eraseNode_shrink s nodeId

theorem removeFloatingWindow_shrink (floatingId : FloatingId) :
    Keeps Shrink (removeFloatingWindow floatingId) := fun s ↦
  moves_ask_bind fun floating _ ↦
    forget_shrink s floatingId floating.sessionId (fun _ ↦ rfl) fun _ ↦ rfl

/-! ## Normalization -/

/-- Collapsing a container into one of its children. -/
theorem collapse_shrink (fuel : ℕ) (nodeId child : NodeId) {α : Type} (a : α) :
    Keeps Shrink (do
      replaceNodeInOwner fuel nodeId child
      modify (eraseNode nodeId)
      pure a : StateOp α) :=
  .bind (replaceNodeInOwner_shrink fuel nodeId child) fun _ ↦
    .bind (.modify fun s ↦ eraseNode_shrink s nodeId) fun _ ↦ .pure _

theorem fitSizes_thing (split : SplitNode) :
    split.fitSizes.sessionId = split.sessionId ∧ split.fitSizes.direction = split.direction := by
  rw [SplitNode.fitSizes]
  split <;> exact ⟨rfl, rfl⟩

theorem normalizeSplitNode_shrink (fuel : ℕ) (nodeId : NodeId) (split : SplitNode) :
    Keeps Shrink (normalizeSplitNode fuel nodeId split) := by
  rw [normalizeSplitNode]
  split
  · exact .throw _
  next child _ => exact collapse_shrink fuel nodeId child _
  · exact .bind (.modify fun s ↦ mapNode_shrink s nodeId (Node.thing_mapSplit
      (fun split ↦ (fitSizes_thing split).1) fun split ↦ (fitSizes_thing split).2)) fun _ ↦ .pure _

theorem normalizeTabsNode_shrink (fuel : ℕ) (nodeId : NodeId) (tabs : TabsNode) :
    Keeps Shrink (normalizeTabsNode fuel nodeId tabs) := by
  refine .bind (.gets _) fun isRoot ↦ .bind (.gets _) fun owner ↦ ?_
  split
  · split
    · exact .bind (.modify fun s ↦ mapNode_shrink s nodeId (Node.thing_mapTabs fun _ ↦ rfl)) fun _ ↦
        .pure _
    · cases owner with
      | some floatingId =>
        exact .bind (removeFloatingWindow_shrink floatingId) fun floating ↦
          .bind (.modify fun s ↦ eraseNode_shrink s floating.rootNode) fun _ ↦ .pure _
      | none => exact .bind (.modify fun s ↦ eraseNode_shrink s nodeId) fun _ ↦ .pure _
  next first rest _ =>
    split
    · exact collapse_shrink fuel nodeId first.child _
    · refine .bind (.modify fun s ↦ mapNode_shrink s nodeId (Node.thing_mapTabs fun tabs ↦ ?_)) fun _ ↦
        .pure _
      split <;> rfl

theorem normalizeNode_shrink (fuel : ℕ) (nodeId : NodeId) :
    ∀ node, Keeps Shrink (normalizeNode fuel nodeId node)
  | .bufferView _ => .pure _
  | .split split => normalizeSplitNode_shrink fuel nodeId split
  | .tabs tabs => normalizeTabsNode_shrink fuel nodeId tabs

theorem normalizeUpwards_shrink (walk : ℕ) :
    ∀ fuel start, Keeps Shrink (normalizeUpwards walk fuel start)
  | 0, none => .pure _
  | 0, some _ => .diverge
  | _ + 1, none => .pure _
  | fuel + 1, some nodeId => by
    refine .bind (.gets _) fun node ↦ ?_
    cases node with
    | none => exact .pure _
    | some node =>
      exact .bind (normalizeNode_shrink walk nodeId node) fun next ↦ normalizeUpwards_shrink walk fuel next

/-! ## Closing -/

section

variable (fuel : ℕ) (sessionId : SessionId)

theorem settleSession_shrink : Keeps Shrink (settleSession fuel sessionId) :=
  keeps_shrink_of_sameFrame
    (.bind (normalizeZoomedNode_sameFrame fuel sessionId) fun _ ↦ healFocus_sameFrame fuel sessionId)

theorem removeFromParent_shrink (parent nodeId : NodeId) :
    Keeps Shrink (removeFromParent fuel parent nodeId) :=
  .bind (removeChild_shrink parent nodeId) fun _ ↦ .bind (removeSubtreeNodes_shrink fuel nodeId) fun _ ↦
    normalizeUpwards_shrink fuel fuel (some parent)

theorem closeTab_shrink (tabsId : NodeId) (index : ℕ) : Keeps Shrink (closeTab fuel tabsId index) :=
  .bind (.ask _) fun sessionId ↦ .bind (.ask _) fun child ↦
    .bind (.modify fun s ↦ mapNode_shrink s tabsId (Node.thing_mapTabs fun _ ↦ rfl)) fun _ ↦
    .bind (setParent_shrink child none) fun _ ↦ .bind (removeSubtreeNodes_shrink fuel child) fun _ ↦
    .bind (normalizeUpwards_shrink fuel fuel (some tabsId)) fun _ ↦ settleSession_shrink fuel sessionId

theorem closeFloating_shrink (floatingId : FloatingId) : Keeps Shrink (closeFloating fuel floatingId) :=
  .bind (removeFloatingWindow_shrink floatingId) fun floating ↦
    .bind (removeSubtreeNodes_shrink fuel floating.rootNode) fun _ ↦
      settleSession_shrink fuel floating.sessionId

theorem replaceNode_shrink (nodeId replacement : NodeId) :
    Keeps Shrink (replaceNode fuel nodeId replacement) := by
  refine .bind (.ask _) fun sessionId ↦ .bind (.ask _) fun _ ↦ ?_
  split
  · exact .pure _
  · exact .bind (.ask _) fun _ ↦ .bind (replaceNodeInOwner_shrink fuel nodeId replacement) fun _ ↦
      .bind (removeSubtreeNodes_shrink fuel nodeId) fun _ ↦ keeps_shrink_of_sameFrame
        (.bind (focusCandidateOrHeal_sameFrame fuel sessionId replacement) fun _ ↦
          normalizeZoomedNode_sameFrame fuel sessionId)

end

theorem removeBuffer_shrink (bufferId : BufferId) : Keeps Shrink (removeBuffer bufferId) := by
  refine .bind (.ask _) fun buffer ↦ ?_
  split
  · exact .throw _
  · exact .bind (.modify fun s ↦ shrink_buffers s (.erase _ bufferId)) fun _ ↦ .pure _

theorem tryRemoveBuffer_shrink (bufferId : BufferId) (disposed : DisposedBuffers) :
    Keeps Shrink (tryRemoveBuffer bufferId disposed) := by
  refine .bind (.attempt (removeBuffer_shrink bufferId)) fun result ↦ ?_
  cases result with
  | ok => exact .pure _
  | error => exact .pure _

/-! ## Placing -/

theorem setBufferAttached_shrink (bufferId : BufferId) (viewId : NodeId) :
    Keeps Shrink (setBufferAttached bufferId viewId) :=
  bufferMut_shrink bufferId fun _ ↦ ⟨rfl, rfl, rfl, rfl, fun _ ↦ rfl, id⟩

theorem attachBuffer_shrink (bufferId : BufferId) (nodeId : NodeId) :
    Keeps Shrink (attachBuffer bufferId nodeId) := by
  refine .bind (.ask _) fun buffer ↦ .bind (.ask _) fun _ ↦ .bind (.ask _) fun currentBuffer ↦ ?_
  split
  · refine .bind (.modify fun s ↦ mapBuffer_shrink s currentBuffer fun previous ↦ ?_) fun _ ↦
      .bind (.modify fun s ↦ mapNode_shrink s nodeId (Node.thing_mapView fun _ ↦ rfl)) fun _ ↦
        setBufferAttached_shrink bufferId nodeId
    split
    · exact sameThing_of_buffer rfl rfl rfl rfl rfl rfl
    · exact Std.Refl.refl _
  · exact setBufferAttached_shrink bufferId nodeId

theorem addTabSiblingAtWithFocus_shrink (fuel : ℕ) (tabsId : NodeId) (index : ℕ) (title : String)
    (child : NodeId) (doFocus : Bool) :
    Keeps Shrink (addTabSiblingAtWithFocus fuel tabsId index title child doFocus) := by
  refine .bind (.ask _) fun sessionId ↦ .bind (.ask _) fun _ ↦
    .bind (setParent_shrink child (some tabsId)) fun _ ↦
    .bind (.modify fun s ↦ mapNode_shrink s tabsId (Node.thing_mapTabs fun _ ↦ rfl)) fun _ ↦ ?_
  split
  · exact .bind (keeps_shrink_of_sameFrame (focusCandidateOrHeal_sameFrame fuel sessionId child))
      fun _ ↦ .pure _
  · exact .pure _

theorem addTabSibling_shrink (fuel : ℕ) (tabsId : NodeId) (title : String) (child : NodeId) :
    Keeps Shrink (addTabSibling fuel tabsId title child) :=
  .bind (.ask _) fun _ ↦ addTabSiblingAtWithFocus_shrink fuel tabsId _ title child true

theorem rearrange_shrink (firstNodeId secondNodeId : NodeId)
    (missingInSplit missingInTabs : NodeId → NodeId → MuxError)
    {inSplit : ℕ → ℕ → SplitNode → SplitNode} {inTabs : ℕ → ℕ → TabsNode → TabsNode}
    (hsplit : ∀ i j split, (inSplit i j split).sessionId = split.sessionId ∧
      (inSplit i j split).direction = split.direction)
    (htabs : ∀ i j tabs, (inTabs i j tabs).sessionId = tabs.sessionId) :
    Keeps Shrink
      (rearrange firstNodeId secondNodeId missingInSplit missingInTabs inSplit inTabs) := by
  rw [rearrange]
  split
  · exact .pure _
  · refine .bind (.ask _) fun parentId ↦ .bind (.ask _) fun parent ↦ ?_
    cases parent with
    | bufferView => exact .throw _
    | split =>
      exact .bind (.ask _) fun _ ↦ .modify fun s ↦ mapNode_shrink s parentId
        (Node.thing_mapSplit (fun split ↦ (hsplit _ _ split).1) fun split ↦ (hsplit _ _ split).2)
    | tabs =>
      exact .bind (.ask _) fun _ ↦ .modify fun s ↦ mapNode_shrink s parentId
        (Node.thing_mapTabs (htabs _ _))

theorem detachNodeFromOwner_shrink (nodeId : NodeId) : Keeps Shrink (detachNodeFromOwner nodeId) := by
  refine .bind (.gets _) fun isRoot ↦ ?_
  split
  · exact .throw _
  · refine .bind (.ask _) fun parent ↦ ?_
    cases parent with
    | some parentId => exact .bind (removeChild_shrink parentId nodeId) fun _ ↦ .pure _
    | none =>
      refine .bind (.gets _) fun floatingId ↦ ?_
      cases floatingId with
      | some floatingId => exact .bind (removeFloatingWindow_shrink floatingId) fun _ ↦ .pure _
      | none => exact .throw _

theorem restoreParentSlot_shrink (parentId nodeId : NodeId) :
    ∀ slot, Keeps Shrink (restoreParentSlot parentId nodeId slot)
  | .split index size lastFocusedDescendant => by
    refine .bind (.ask _) fun parent ↦ ?_
    cases parent with
    | split =>
      exact .modify fun s ↦ mapNode_shrink s parentId (Node.thing_mapSplit (fun _ ↦ rfl) fun _ ↦ rfl)
    | bufferView => exact .throw _
    | tabs => exact .throw _
  | .tabs index tab active lastFocusedDescendant => tabsMut_shrink parentId fun _ ↦ rfl

/-! ## Single records -/

theorem renameTab_shrink (tabsId : NodeId) (index : ℕ) (title : String) :
    Keeps Shrink (renameTab tabsId index title) :=
  .bind (.ask _) fun _ ↦ .modify fun s ↦ mapNode_shrink s tabsId (Node.thing_mapTabs fun _ ↦ rfl)

theorem setRootTabSynchronizePanes_shrink (sessionId : SessionId) (index : ℕ) (enabled : Option Bool) :
    Keeps Shrink (setRootTabSynchronizePanes sessionId index enabled) := by
  refine .bind (.ask _) fun rootTabs ↦ .bind (.ask _) fun tabs ↦ ?_
  split
  · exact .throw _
  · exact .bind (.modify fun s ↦ mapNode_shrink s rootTabs (Node.thing_mapTabs fun _ ↦ rfl)) fun _ ↦
      .pure _

theorem resizeSplitChildren_shrink (splitId : NodeId) (sizes : List UInt16) :
    Keeps Shrink (resizeSplitChildren splitId sizes) := by
  refine .bind (.ask _) fun node ↦ ?_
  split
  · split
    · exact .throw _
    · split
      · exact .throw _
      · exact .modify fun s ↦ mapNode_shrink s splitId (Node.thing_mapSplit (fun _ ↦ rfl) fun _ ↦ rfl)
  · exact .throw _

theorem syncBufferViewSize_shrink (bufferId : BufferId) : Keeps Shrink (syncBufferViewSize bufferId) := by
  refine .bind (.ask _) fun buffer ↦ ?_
  split
  · exact .pure _
  next nodeId _ =>
    refine .bind (.ask _) fun node ↦ ?_
    split
    · split
      · exact .bind (.modify fun s ↦ mapNode_shrink s nodeId (Node.thing_mapView fun _ ↦ rfl)) fun _ ↦
          .pure _
      · exact .pure _
    · exact .pure _

theorem renameSession_shrink (sessionId : SessionId) (name : String) :
    Keeps Shrink (renameSession sessionId name) := by
  rw [renameSession]
  split
  · exact .throw _
  · exact sessionMut_shrink sessionId (fun _ ↦ rfl) fun _ ↦ rfl

theorem markBufferRunning_shrink (bufferId : BufferId) (pid : Option UInt32) :
    Keeps Shrink (markBufferRunning bufferId pid) := by
  intro s
  -- A buffer that has exited is refused, so the record that changes has not.
  refine moves_ask_bind fun buffer hbuffer ↦ ?_
  split
  · exact Std.Refl.refl s
  next hnot =>
    rw [bufferMut_snd]
    refine shrink_buffers s fun bufferId' buffer' hbuffer' ↦ ?_
    rw [Table.get?_modify] at hbuffer'
    split at hbuffer'
    · next heq =>
      subst heq
      rw [buffer_eq_ok.mp hbuffer] at hbuffer'
      obtain rfl := Option.some.inj hbuffer'
      exact ⟨buffer, buffer_eq_ok.mp hbuffer, rfl, rfl, rfl, rfl, id, fun h ↦ absurd h hnot⟩
    · exact ⟨buffer', hbuffer', Std.Refl.refl _⟩

theorem markBufferInterrupted_shrink (bufferId : BufferId) (pid : Option UInt32) :
    Keeps Shrink (markBufferInterrupted bufferId pid) := by
  refine bufferMut_shrink bufferId fun buffer ↦ ?_
  split
  · exact Std.Refl.refl _
  next hnot => exact ⟨rfl, rfl, rfl, rfl, id, fun h ↦ absurd h hnot⟩

theorem markBufferExited_shrink (bufferId : BufferId) (exitCode : Option Int32) (now : Timestamp) :
    Keeps Shrink (markBufferExited bufferId exitCode now) :=
  bufferMut_shrink bufferId fun _ ↦ ⟨rfl, rfl, rfl, rfl, id, fun _ ↦ rfl⟩

theorem interruptUnrecoverableBuffers_shrink : Keeps Shrink interruptUnrecoverableBuffers := by
  refine .modify fun s ↦ shrink_buffers s (.map (fun buffer ↦ ⟨rfl, rfl, rfl, rfl, id, fun h ↦ ?_⟩) _)
  rw [hasExited] at h
  split at h
  next hstate =>
    rw [hstate]
    rfl
  · cases h

theorem noteBufferOutput_shrink (bufferId : BufferId) : Keeps Shrink (noteBufferOutput bufferId) :=
  .bind (.ask _) fun _ ↦ .bind (bufferMut_shrink bufferId fun _ ↦
    sameThing_of_buffer rfl rfl rfl rfl rfl rfl) fun _ ↦ .pure _

end ServerState

end Embers
