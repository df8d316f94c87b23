import Embers.Lib.Op
import Embers.Core.Model

/-!
# Reading the server state

The read-only half of `ServerState`: lookups, the checks the operations make before they change
anything, and the walks along child lists and parent pointers.

A walk follows the links it finds. On a forest every walk ends; on damaged links it may not, so
each takes fuel and answers `diverges` when it runs out. A walk's answer never depends on the
fuel in any other way.
-/

namespace Embers

/-- The answer of a read of the server state. -/
abbrev Read (α : Type) := Answer MuxError α

/-- A method of the server state that changes it. -/
abbrev StateOp (α : Type) := Op ServerState MuxError α

namespace ServerState

variable (s : ServerState)

/-! ## Lookups and checks -/

def session (sessionId : SessionId) : Read Session :=
  .ofOption (.notFound s!"unknown session {sessionId}") s.sessions[sessionId]?

def buffer (bufferId : BufferId) : Read Buffer :=
  .ofOption (.notFound s!"unknown buffer {bufferId}") s.buffers[bufferId]?

def node (nodeId : NodeId) : Read Node :=
  .ofOption (.notFound s!"unknown node {nodeId}") s.nodes[nodeId]?

def floatingWindow (floatingId : FloatingId) : Read FloatingWindow :=
  .ofOption (.notFound s!"unknown floating window {floatingId}") s.floating[floatingId]?

def rootNode (sessionId : SessionId) : Read NodeId := do
  pure (← s.session sessionId).rootNode

/-- The session's root tabs node, whose tabs are its windows. -/
def rootTabs (sessionId : SessionId) : Read NodeId := do
  let rootNode ← s.rootNode sessionId
  if (← s.node rootNode).isTabs then
    pure rootNode
  else
    .fail (.conflict s!"session {sessionId} root node {rootNode} is not tabs")

def nodeParent (nodeId : NodeId) : Read (Option NodeId) := do
  pure (← s.node nodeId).parent

def nodeSessionId (nodeId : NodeId) : Read SessionId := do
  pure (← s.node nodeId).sessionId

def ensureSessionExists (sessionId : SessionId) : Read Unit := do
  let _ ← s.session sessionId

def ensureNodeBelongsTo (nodeId : NodeId) (sessionId : SessionId) : Read Unit := do
  let owner := (← s.node nodeId).sessionId
  if owner ≠ sessionId then
    .fail (.conflict s!"node {nodeId} belongs to session {owner}, not {sessionId}")

def ensureLeaf (nodeId : NodeId) : Read Unit := do
  if (← s.node nodeId).isBufferView then
    pure ()
  else
    .fail (.invalidInput s!"node {nodeId} is not a buffer view")

def ensureLeafBelongsTo (nodeId : NodeId) (sessionId : SessionId) : Read Unit := do
  s.ensureNodeBelongsTo nodeId sessionId
  s.ensureLeaf nodeId

/-- The tabs node with this id; anything else is refused. -/
def tabsNode (nodeId : NodeId) : Read TabsNode := do
  match ← s.node nodeId with
  | .tabs tabs => pure tabs
  | _ => .fail (.invalidInput "node is not a tabs container")

def bufferViewBufferId (nodeId : NodeId) : Read BufferId := do
  match ← s.node nodeId with
  | .bufferView leaf => pure leaf.bufferId
  | _ => .fail (.invalidInput s!"node {nodeId} is not a buffer view")

def isSessionRoot (nodeId : NodeId) : Bool :=
  s.sessions.toList.any fun entry ↦ entry.2.rootNode == nodeId

/-- The first floating window, by id, whose root is this node. -/
def floatingIdByRoot (rootNode : NodeId) : Option FloatingId :=
  (s.floating.toList.find? fun entry ↦ entry.2.rootNode == rootNode).map Prod.fst

/-! ## Walks along parent pointers -/

/-- The end of the node's chain of parents. -/
def topRootForNode : ℕ → NodeId → Read NodeId
  | 0, _ => .error .diverges
  | fuel + 1, current => do
    match ← s.nodeParent current with
    | some parent => topRootForNode fuel parent
    | none => pure current

def floatingIdForNode (fuel : ℕ) (nodeId : NodeId) : Read (Option FloatingId) := do
  pure (s.floatingIdByRoot (← s.topRootForNode fuel nodeId))

/-- Whether `ancestorId` is the node itself or on its chain of parents. -/
def nodeIsDescendantOf (ancestorId : NodeId) : ℕ → NodeId → Read Bool
  | 0, _ => .error .diverges
  | fuel + 1, candidate =>
    if candidate = ancestorId then
      pure true
    else do
      match ← s.nodeParent candidate with
      | some parent => nodeIsDescendantOf ancestorId fuel parent
      | none => pure false

def nearestTabsAncestor : ℕ → Option NodeId → Read (Option NodeId)
  | _, none => pure none
  | 0, some _ => .error .diverges
  | fuel + 1, some current => do
    if (← s.node current).isTabs then
      pure (some current)
    else
      nearestTabsAncestor fuel (← s.nodeParent current)

/-- The climb of `isNodeVisibleFrom`: every tabs node between the node and `rootId` must have the
branch just left as its active tab. -/
def climbsThroughActive (rootId nodeId : NodeId) : ℕ → NodeId → Read Bool
  | 0, _ => .error .diverges
  | fuel + 1, current =>
    if current = rootId then
      pure true
    else do
      let parent ← .ofOption
        (.conflict s!"node {nodeId} is not rooted at expected root {rootId}")
        (← s.nodeParent current)
      match ← s.node parent with
      | .tabs tabs =>
        if tabs.activeChild = some current then
          climbsThroughActive rootId nodeId fuel parent
        else
          pure false
      | _ => climbsThroughActive rootId nodeId fuel parent

/-! ## Walks along child lists -/

def subtreeContains (needle : NodeId) : ℕ → NodeId → Read Bool
  | 0, _ => .error .diverges
  | fuel + 1, rootId =>
    if rootId = needle then
      pure true
    else do
      Answer.any (fun child ↦ subtreeContains needle fuel child) (← s.node rootId).childIds

def isNodeVisibleFrom (fuel : ℕ) (rootId nodeId : NodeId) : Read Bool := do
  if ← s.subtreeContains nodeId fuel rootId then
    s.climbsThroughActive rootId nodeId fuel nodeId
  else
    pure false

def isNodeVisibleInSession (fuel : ℕ) (sessionId : SessionId) (nodeId : NodeId) : Read Bool := do
  s.ensureNodeBelongsTo nodeId sessionId
  let root ← s.topRootForNode fuel nodeId
  if root = (← s.session sessionId).rootNode then
    s.isNodeVisibleFrom fuel root nodeId
  else
    match s.floatingIdByRoot root with
    | some floatingId =>
      if (← s.floatingWindow floatingId).visible then
        s.isNodeVisibleFrom fuel root nodeId
      else
        pure false
    | none => pure false

def ensureNodeVisibleInSession (fuel : ℕ) (sessionId : SessionId) (nodeId : NodeId) :
    Read Unit := do
  if ← s.isNodeVisibleInSession fuel sessionId nodeId then
    pure ()
  else
    .fail (.invalidInput s!"node {nodeId} is not visible in session {sessionId}")

def ensureLeafIsFocusable (fuel : ℕ) (sessionId : SessionId) (leafId : NodeId) : Read Unit := do
  let root ← s.topRootForNode fuel leafId
  if root = (← s.session sessionId).rootNode then
    pure ()
  else
    match s.floatingIdByRoot root with
    | none =>
      .fail (.invalidInput s!"leaf {leafId} is not attached to session {sessionId} layout")
    | some floatingId =>
      if (← s.floatingWindow floatingId).visible then
        pure ()
      else
        .fail (.invalidInput s!"leaf {leafId} is inside hidden floating window {floatingId}")

def resolveFirstLeaf : ℕ → NodeId → Read (Option NodeId)
  | 0, _ => .error .diverges
  | fuel + 1, nodeId => do
    match ← s.node nodeId with
    | .bufferView _ => pure (some nodeId)
    | .split split => Answer.firstSome (fun child ↦ resolveFirstLeaf fuel child) split.children
    | .tabs tabs => Answer.firstSome (fun child ↦ resolveFirstLeaf fuel child) tabs.children

def resolveVisibleLeaf : ℕ → NodeId → Read (Option NodeId)
  | 0, _ => .error .diverges
  | fuel + 1, nodeId => do
    match ← s.node nodeId with
    | .bufferView _ => pure (some nodeId)
    | .split split => Answer.firstSome (fun child ↦ resolveVisibleLeaf fuel child) split.children
    | .tabs tabs =>
      match tabs.shownChild with
      | some child => resolveVisibleLeaf fuel child
      | none => pure none

/-- The pane a container last focused, when it still exists and is visible below it. -/
def lastFocusedIfVisible (fuel : ℕ) (nodeId : NodeId) : Option NodeId → Read (Option NodeId)
  | none => pure none
  | some lastLeaf =>
    if s.nodes.contains lastLeaf then do
      if ← s.isNodeVisibleFrom fuel nodeId lastLeaf then pure (some lastLeaf) else pure none
    else
      pure none

/-- The pane focusing `nodeId` lands on: the node itself for a pane, else the pane it last
focused, if still visible, or its first one. -/
def resolveFocusCandidate : ℕ → NodeId → Read (Option NodeId)
  | 0, _ => .error .diverges
  | fuel + 1, nodeId => do
    match ← s.node nodeId with
    | .bufferView _ => pure (some nodeId)
    | .split split =>
      match ← s.lastFocusedIfVisible fuel nodeId split.lastFocusedDescendant with
      | some lastLeaf => pure (some lastLeaf)
      | none => Answer.firstSome (fun child ↦ resolveFocusCandidate fuel child) split.children
    | .tabs tabs =>
      match tabs.shownChild with
      | some child => resolveFocusCandidate fuel child
      | none => pure none

/-- The pane a floating window last focused, when it is still its own and visible in it. -/
def floatingLastFocused (fuel : ℕ) (floating : FloatingWindow) : Read (Option NodeId) :=
  match floating.lastFocusedLeaf with
  | none => pure none
  | some lastLeaf =>
    if s.nodes.contains lastLeaf then do
      if (← s.topRootForNode fuel lastLeaf) = floating.rootNode then
        if ← s.isNodeVisibleFrom fuel floating.rootNode lastLeaf then
          pure (some lastLeaf)
        else
          pure none
      else
        pure none
    else
      pure none

def resolveFloatingFocus (fuel : ℕ) (floatingId : FloatingId) : Read (Option NodeId) := do
  let floating ← s.floatingWindow floatingId
  if floating.visible then
    match ← s.floatingLastFocused fuel floating with
    | some lastLeaf => pure (some lastLeaf)
    | none => s.resolveFocusCandidate fuel floating.rootNode
  else
    pure none

def defaultTabTitle (fuel : ℕ) (nodeId : NodeId) : Read String := do
  match ← s.resolveFocusCandidate fuel nodeId with
  | some leafId =>
    let bufferId ← s.bufferViewBufferId leafId
    pure (← s.buffer bufferId).title
  | none => pure "window"

def visibleLeafIds : ℕ → NodeId → Read (List NodeId)
  | 0, _ => .error .diverges
  | fuel + 1, nodeId => do
    match ← s.node nodeId with
    | .bufferView _ => pure [nodeId]
    | .split split => Answer.collect (fun child ↦ visibleLeafIds fuel child) split.children
    | .tabs tabs =>
      match tabs.shownChild with
      | some child => visibleLeafIds fuel child
      | none => pure []

/-- The ids a subtree adds to those already seen. -/
def collectSubtreeNodes : ℕ → NodeId → Std.ExtTreeSet NodeId → Read (Std.ExtTreeSet NodeId)
  | 0, _, _ => .error .diverges
  | fuel + 1, rootId, seen =>
    if seen.contains rootId then
      pure seen
    else do
      (← s.node rootId).childIds.foldlM
        (fun seen child ↦ collectSubtreeNodes fuel child seen) (seen.insert rootId)

def sessionNodeIds (fuel : ℕ) (sessionId : SessionId) : Read (List NodeId) := do
  let session ← s.session sessionId
  let seen ← s.collectSubtreeNodes fuel session.rootNode ∅
  let seen ← session.floating.foldlM (fun seen floatingId ↦ do
    s.collectSubtreeNodes fuel (← s.floatingWindow floatingId).rootNode seen) seen
  pure seen.toList

/-! ## The window of a pane -/

/-- The window a leaf of the session's layout is in: the root tab holding it. -/
def windowOfLeafFrom (root : NodeId) : ℕ → NodeId → Read (Option NodeId)
  | 0, _ => .error .diverges
  | fuel + 1, current => do
    match ← s.nodeParent current with
    | some parent =>
      if parent = root then pure (some current) else windowOfLeafFrom root fuel parent
    | none => pure none

def windowOfLeaf (fuel : ℕ) (sessionId : SessionId) (leafId : NodeId) : Read (Option NodeId) := do
  s.windowOfLeafFrom (← s.session sessionId).rootNode fuel leafId

/-- The pane focused before the current one in the focused pane's window. -/
def lastPane (fuel : ℕ) (sessionId : SessionId) : Read (Option NodeId) := do
  let session ← s.session sessionId
  match session.focusedLeaf with
  | none => pure none
  | some focused =>
    match ← s.windowOfLeaf fuel sessionId focused with
    | none => pure none
    | some window =>
      Answer.firstSome (fun candidate ↦
        if candidate = focused ∨ ¬ (s.nodes[candidate]?.any Node.isBufferView) then
          pure none
        else do
          if (← s.windowOfLeaf fuel sessionId candidate) = some window then
            pure (some candidate)
          else
            pure none) session.focusHistory.reverse

/-- The session whose current window shows the buffer: its pane is in the session's active window
or in one of its visible popups. -/
def sessionShowingBuffer (fuel : ℕ) (bufferId : BufferId) : Read (Option SessionId) :=
  Answer.orNone do
    match (← s.buffer bufferId).attachment with
    | .detached => pure none
    | .attached nodeId => do
      let sessionId ← s.nodeSessionId nodeId
      if ← s.isNodeVisibleInSession fuel sessionId nodeId then
        pure (some sessionId)
      else
        pure none

/-- Whether the session shows at least one pane, in a window or a popup. -/
def sessionHasPanes (fuel : ℕ) (sessionId : SessionId) : Read Bool :=
  match s.sessionNodeIds fuel sessionId with
  | .ok nodeIds => pure (nodeIds.any fun nodeId ↦ s.nodes[nodeId]?.any Node.isBufferView)
  | .error (.error _) => pure false
  | .error .diverges => .error .diverges

end ServerState

end Embers
