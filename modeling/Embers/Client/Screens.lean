import Embers.Client.Presentation

/-!
# Tiled panes and popups

A session is drawn in layers: the tiled panes, and over them its floating windows in their order.
When a node is zoomed, only the layer that it is in is drawn, and that node is all there is of it.

A popup's rectangle is its geometry, cut off at the screen. One with a frame keeps a cell on each
side for it and shows its title there, so its panes have no title rows. The coordinates here are
sums of at most three numbers of 16 bits, which are exact in the 32 bits of the source.
-/

namespace Embers.Client

open Protocol

/-! ## Pane titles -/

namespace PaneTitles

/-- Panes give a row to their title. -/
def shown (titles : PaneTitles) : Bool := titles ≠ .off

/-- The title rows of the client that last drew a session, as it reported them. -/
def reported (session : SessionRecord) : PaneTitles := if session.paneTitles then .top else .off

end PaneTitles

/-- The title rows of panes in a popup, or of tiled ones. -/
def paneTitlesIn (c : ClientState) (layout : LayoutOptions) (floatingId : Option FloatingId) :
    PaneTitles :=
  if (floatingId.bind fun id ↦ c.floating[id]?).any (·.border) then .off else layout.paneTitles

/-! ## Where a node is -/

/-- The session's popup with this root, the first of them. -/
def floatingWindowForRoot (c : ClientState) (session : SessionRecord) (id : NodeId) :
    Option FloatingRecord :=
  (session.floatingIds.filterMap fun floatingId ↦ c.floating[floatingId]?).find?
    (·.rootNodeId = id)

/-- Up from a node through nodes of the session, to the session's root or to the root of a popup. -/
def nodeBelongsToSession (c : ClientState) (session : SessionRecord) :
    ℕ → NodeId → Answer ProjectError Bool
  | 0, _ => .error .diverges
  | fuel + 1, id =>
    match c.nodes[id]? with
    | none => pure false
    | some node =>
      if node.sessionId ≠ session.id then pure false
      else if id = session.rootNodeId then pure true
      else if (floatingWindowForRoot c session id).isSome then pure true
      else
        match node.parentId with
        | none => pure false
        | some parentId => nodeBelongsToSession c session fuel parentId

/-- The popup that a node is in. -/
def floatingAncestorForNode (c : ClientState) (session : SessionRecord) :
    ℕ → NodeId → Answer ProjectError (Option FloatingRecord)
  | 0, _ => .error .diverges
  | fuel + 1, id =>
    match floatingWindowForRoot c session id with
    | some window => pure (some window)
    | none =>
      match c.nodes[id]?.bind (·.parentId) with
      | none => pure none
      | some parentId => floatingAncestorForNode c session fuel parentId

/-! ## Popups -/

structure FloatingFrame where
  floatingId : FloatingId
  rect : Rect
  contentRect : Rect
  title : Option String
  focused : Bool
  border : Bool
  deriving DecidableEq, Repr

def geometryRect (geometry : FloatGeometry) : Rect :=
  ⟨geometry.x.toNat, geometry.y.toNat, geometry.width.toNat, geometry.height.toNat⟩

/-- The part of a rectangle that is within bounds. -/
def clipRect (rect bounds : Rect) : Rect :=
  let left := max rect.x bounds.x
  let top := max rect.y bounds.y
  let right := min (rect.x + rect.width) (bounds.x + bounds.width)
  let bottom := min (rect.y + rect.height) (bounds.y + bounds.height)
  if right ≤ left ∨ bottom ≤ top then ⟨left, top, 0, 0⟩
  else ⟨left, top, (right - left).toNat, (bottom - top).toNat⟩

def insetBorder (rect : Rect) : Rect := ⟨rect.x + 1, rect.y + 1, rect.width - 2, rect.height - 2⟩

/-! ## The screen -/

/-- The frames of the tiled panes, or of a popup. -/
structure Layer where
  floatingId : Option FloatingId
  frames : Projection
  deriving DecidableEq, Repr

structure PresentationModel where
  sessionId : SessionId
  viewport : Size
  layers : List Layer
  floating : List FloatingFrame
  deriving DecidableEq, Repr

namespace PresentationModel

def tabBars (m : PresentationModel) : List TabsFrame := m.layers.flatMap (·.frames.tabBars)

def rootTabs (m : PresentationModel) : Option TabsFrame := m.tabBars.find? (·.isRoot)

/-- The panes, each with the popup it is in. -/
def leaves (m : PresentationModel) : List (Option FloatingId × LeafFrame) :=
  m.layers.flatMap fun layer ↦ layer.frames.leaves.map fun leaf ↦ (layer.floatingId, leaf)

/-- The splits, each with the popup it is in. -/
def splits (m : PresentationModel) : List (Option FloatingId × SplitFrame) :=
  m.layers.flatMap fun layer ↦ layer.frames.splits.map fun split ↦ (layer.floatingId, split)

/-- The viewport in which the session's tab bar, shown at the top, leaves the panes the sizes they
have: the viewport, and a row for a hidden bar. -/
def layoutViewport (m : PresentationModel) : Size :=
  let hiddenBar := m.rootTabs.any (·.rect.height = 0)
  ⟨m.viewport.width, .ofNat (add16 m.viewport.height.toNat (if hiddenBar then 1 else 0))⟩

end PresentationModel

section

variable (c : ClientState) (session : SessionRecord) (layout : LayoutOptions) (fuel : ℕ)

/-- One layer, drawn from a node in a rectangle. -/
def projectLayer (floatingId : Option FloatingId) (nodeId : NodeId) (rect : Rect) (isRoot : Bool) :
    Answer ProjectError Layer := do
  let titles := paneTitlesIn c layout floatingId
  let frames ← projectNode c session.focusedLeafId { layout with paneTitles := titles } fuel nodeId
    rect isRoot
  pure ⟨floatingId, frames⟩

/-- A popup that shows a node of it, unless it is hidden or off the screen. -/
def projectFloatingWindow (window : FloatingRecord) (bounds : Rect) (nodeId : NodeId) :
    Answer ProjectError (List (FloatingFrame × Layer)) :=
  if !window.visible then pure []
  else
    let rect := clipRect (geometryRect window.geometry) bounds
    if rect.width = 0 ∨ rect.height = 0 then pure []
    else do
      let contentRect := if window.border then insetBorder rect else rect
      let layer ← projectLayer c session layout fuel (some window.id) nodeId contentRect false
      pure [(⟨window.id, rect, contentRect, window.title, window.focused, window.border⟩, layer)]

/-- The popups of a session that are cached and its own. -/
def projectFloating (bounds : Rect) :
    List FloatingId → Answer ProjectError (List (FloatingFrame × Layer))
  | [] => pure []
  | floatingId :: rest =>
    match c.floating[floatingId]? with
    | none => projectFloating bounds rest
    | some window => do
      let shown ←
        if ← nodeBelongsToSession c session fuel window.rootNodeId then
          projectFloatingWindow c session layout fuel window bounds window.rootNodeId
        else pure []
      let others ← projectFloating bounds rest
      pure (shown ++ others)

/-- The node that is zoomed, if it is one of the session's. -/
def zoomedNode : Answer ProjectError (Option NodeId) :=
  match session.zoomedNodeId with
  | none => pure none
  | some nodeId => do
    pure (if ← nodeBelongsToSession c session fuel nodeId then some nodeId else none)

/-- The layers of a session, and the frames of its popups. -/
def projectLayers (bounds : Rect) : Answer ProjectError (List Layer × List FloatingFrame) := do
  match ← zoomedNode c session fuel with
  | some nodeId =>
    match ← floatingAncestorForNode c session fuel nodeId with
    | some window => do
      let popups ← projectFloatingWindow c session layout fuel window bounds nodeId
      pure (popups.map (·.2), popups.map (·.1))
    | none => do
      let isRoot := nodeId = session.rootNodeId
      let layer ← projectLayer c session layout fuel none nodeId bounds isRoot
      pure ([layer], [])
  | none => do
    let layer ← projectLayer c session layout fuel none session.rootNodeId bounds true
    let popups ← projectFloating c session layout fuel bounds session.floatingIds
    pure (layer :: popups.map (·.2), popups.map (·.1))

end

/-- The screen of a session, if it is cached. -/
def PresentationModel.projectWith (c : ClientState) (fuel : ℕ) (sessionId : SessionId)
    (viewport : Size) (layout : LayoutOptions) : Option (Answer ProjectError PresentationModel) :=
  c.sessions[sessionId]?.map fun session ↦ do
    let (layers, floating) ← projectLayers c session layout fuel (viewportRect viewport)
    pure ⟨sessionId, viewport, layers, floating⟩

end Embers.Client
