import Embers.State.Walk

/-!
# Validation

What a state must satisfy to be accepted: each session's layout and popups are trees of nodes of
that session, reached once each and linked both ways; the focused pane and the zoomed node are
visible; no node is left over but detached empty tabs; and buffers and views name each other.
-/

namespace Embers

namespace ServerState

variable (s : ServerState)

/-- The parent as the error messages show it. -/
def debugParent : Option NodeId → String
  | some parent => s!"Some(NodeId({parent}))"
  | none => "None"

/-- The size of a container: at least two children in a split, with a weight each, and an active
index in range in tabs. -/
def validateShape (nodeId : NodeId) : Node → Read Unit
  | .bufferView _ => pure ()
  | .split split =>
    if split.children.length < 2 then
      .fail (.conflict s!"split node {nodeId} must have at least two children")
    else if split.sizes.length ≠ split.children.length then
      .fail (.conflict s!"split node {nodeId} has mismatched child weights")
    else
      pure ()
  | .tabs tabs =>
    if tabs.tabs.isEmpty then
      if tabs.active ≠ 0 then
        .fail (.conflict s!"empty tabs node {nodeId} must reset active index to zero")
      else
        pure ()
    else if tabs.tabs.length ≤ tabs.active then
      .fail (.conflict s!"tabs node {nodeId} active index is out of range")
    else
      pure ()

/-- What one node must be, given where the walk came from and what it has seen. -/
def validateNode (sessionId : SessionId) (nodeId : NodeId) (expectedParent : Option NodeId)
    (seen : Std.ExtTreeSet NodeId) (node : Node) : Read Unit := do
  if node.sessionId ≠ sessionId then
    .fail (.conflict s!"node {nodeId} must belong to session {sessionId}")
  else if node.parent ≠ expectedParent then
    .fail (.conflict (s!"node {nodeId} has parent {debugParent node.parent}, "
      ++ s!"expected {debugParent expectedParent}"))
  else if seen.contains nodeId then
    .fail (.conflict s!"node {nodeId} is reachable from multiple owners")
  else
    validateShape nodeId node

/-- Check a subtree; answers the nodes seen so far. -/
def validateSubtree (sessionId : SessionId) : ℕ → NodeId → Option NodeId → Std.ExtTreeSet NodeId →
    Read (Std.ExtTreeSet NodeId)
  | 0, _, _, _ => .error .diverges
  | fuel + 1, nodeId, expectedParent, seen => do
    let node ← s.node nodeId
    validateNode sessionId nodeId expectedParent seen node
    node.childIds.foldlM
      (fun seen child ↦ validateSubtree sessionId fuel child (some nodeId) seen)
      (seen.insert nodeId)

def validateFloating (fuel : ℕ) (sessionId : SessionId) (session : Session)
    (seen : Std.ExtTreeSet NodeId) (floatingId : FloatingId) : Read (Std.ExtTreeSet NodeId) := do
  let floating ← s.floatingWindow floatingId
  if floating.sessionId ≠ sessionId then
    .fail (.conflict s!"floating window {floatingId} belongs to the wrong session")
  else if floating.rootNode = session.rootNode then
    .fail (.conflict s!"floating window {floatingId} reuses the session root")
  else if (← s.nodeParent floating.rootNode).isSome then
    .fail (.conflict
      s!"floating window {floatingId} root {floating.rootNode} must not have a parent")
  else
    s.validateSubtree sessionId fuel floating.rootNode none seen

def validateFocus (fuel : ℕ) (sessionId : SessionId) (session : Session) : Read Unit :=
  match session.focusedLeaf with
  | none => pure ()
  | some focusedLeaf => do
    if ¬ (← s.node focusedLeaf).isBufferView then
      .fail (.conflict s!"focused leaf {focusedLeaf} is not a buffer view")
    else if ¬ (← s.isNodeVisibleInSession fuel sessionId focusedLeaf) then
      .fail (.conflict s!"focused leaf {focusedLeaf} is not visible in session {sessionId}")
    else
      pure ()

def validateZoom (fuel : ℕ) (sessionId : SessionId) (session : Session) : Read Unit :=
  match session.zoomedNode with
  | none => pure ()
  | some zoomedNode => do
    if ¬ s.nodes.contains zoomedNode then
      .fail (.conflict s!"zoomed node {zoomedNode} is missing from session {sessionId}")
    else if (← s.node zoomedNode).sessionId ≠ sessionId then
      .fail (.conflict s!"zoomed node {zoomedNode} belongs to the wrong session")
    else if ¬ (← s.isNodeVisibleInSession fuel sessionId zoomedNode) then
      .fail (.conflict s!"zoomed node {zoomedNode} is not visible in session {sessionId}")
    else
      pure ()

/-- Check that the session's root is there, parentless and tabs. -/
def validateRoot (sessionId : SessionId) (session : Session) : Read Unit := do
  let root ← s.node session.rootNode
  if root.parent.isSome then
    .fail (.conflict
      s!"session {sessionId} root node {session.rootNode} must not have a parent")
  else if ¬ root.isTabs then
    .fail (.conflict s!"session {sessionId} root node {session.rootNode} must be tabs")
  else
    pure ()

/-- One session of the loop; answers the nodes seen so far. -/
def validateSession (fuel : ℕ) (seen : Std.ExtTreeSet NodeId) (entry : SessionId × Session) :
    Read (Std.ExtTreeSet NodeId) := do
  s.validateRoot entry.1 entry.2
  let seen ← s.validateSubtree entry.1 fuel entry.2.rootNode none seen
  let seen ← entry.2.floating.foldlM (s.validateFloating fuel entry.1 entry.2) seen
  s.validateFocus fuel entry.1 entry.2
  s.validateZoom fuel entry.1 entry.2
  pure seen

def isDetachedEmptyTabsNode (nodeId : NodeId) : Bool :=
  match s.nodes[nodeId]? with
  | some (.tabs tabs) =>
    tabs.parent.isNone && tabs.tabs.isEmpty && (s.floatingIdByRoot nodeId).isNone
      && !s.isSessionRoot nodeId
  | _ => false

def validateNoOrphans (seen : Std.ExtTreeSet NodeId) : Read Unit :=
  let unseen := s.nodes.keys.filter fun nodeId ↦ !seen.contains nodeId
  match unseen.find? fun nodeId ↦ !s.isDetachedEmptyTabsNode nodeId with
  | some _ => .fail (.conflict
      s!"orphaned node(s) detected: visited {seen.size} of {s.nodes.size} node(s)")
  | none => pure ()

/-- An attached buffer's view shows it. -/
def validateAttachment (entry : BufferId × Buffer) : Read Unit :=
  match entry.2.attachment with
  | .detached => pure ()
  | .attached nodeId => do
    let mismatch : MuxError := .conflict
      s!"buffer {entry.1} attachment does not match view {nodeId}"
    match ← s.node nodeId with
    | .bufferView leaf => if leaf.bufferId = entry.1 then pure () else .fail mismatch
    | _ => .fail mismatch

/-- A view's buffer is attached to it. -/
def validateView (entry : NodeId × Node) : Read Unit :=
  match entry.2 with
  | .bufferView leaf => do
    if (← s.buffer leaf.bufferId).attachment = .attached entry.1 then
      pure ()
    else
      .fail (.conflict s!"buffer view {entry.1} points at detached buffer {leaf.bufferId}")
  | _ => pure ()

def validate (fuel : ℕ) : Read Unit := do
  let seen ← s.sessions.toList.foldlM (s.validateSession fuel) ∅
  s.validateNoOrphans seen
  Answer.each s.validateAttachment s.buffers.toList
  Answer.each s.validateView s.nodes.toList

/-! ## What the checks mean -/

variable {s}

theorem node_eq_ok {nodeId : NodeId} {node : Node} :
    s.node nodeId = .ok node ↔ s.nodes[nodeId]? = some node := Answer.ofOption_eq_ok

theorem session_eq_ok {sessionId : SessionId} {session : Session} :
    s.session sessionId = .ok session ↔ s.sessions[sessionId]? = some session :=
  Answer.ofOption_eq_ok

theorem buffer_eq_ok {bufferId : BufferId} {buffer : Buffer} :
    s.buffer bufferId = .ok buffer ↔ s.buffers[bufferId]? = some buffer := Answer.ofOption_eq_ok

theorem floatingWindow_eq_ok {floatingId : FloatingId} {floating : FloatingWindow} :
    s.floatingWindow floatingId = .ok floating ↔ s.floating[floatingId]? = some floating :=
  Answer.ofOption_eq_ok

theorem validateRoot_ok {sessionId : SessionId} {session : Session}
    (h : s.validateRoot sessionId session = .ok ()) :
    ∃ root, s.nodes[session.rootNode]? = some root ∧ root.parent = none ∧ root.isTabs = true := by
  obtain ⟨root, hnode, hcheck⟩ := Answer.ok_bind h
  split at hcheck
  · cases hcheck
  next hparent =>
    split at hcheck
    · cases hcheck
    next htabs =>
      rw [Bool.not_eq_true, Option.isSome_eq_false_iff, Option.isNone_iff_eq_none] at hparent
      exact ⟨root, node_eq_ok.mp hnode, hparent, not_not.mp htabs⟩

end ServerState

end Embers
