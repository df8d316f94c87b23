import Embers.State.Records

/-!
# Commands

The operations a server carries out on its state, one for each method its requests and its
runtimes call, and runs of them. A command returns or fails; either way the next one starts from
the state it left.
-/

namespace Embers

/-- A method of the server state with its arguments. -/
inductive Command where
  -- sessions
  | createSession (name : String) (now : Timestamp)
  | closeSession (sessionId : SessionId)
  | renameSession (sessionId : SessionId) (name : String)
  | setSessionBaseIndex (sessionId : SessionId) (baseIndex : Option UInt32)
  | setSessionViewport (sessionId : SessionId) (viewport : Size) (paneTitles : Bool)
  -- buffers
  | createBufferWithEnv (title : String) (command : List String) (cwd : Option String)
      (env : Table String String) (now : Timestamp)
  | createHelperBuffer (title : String) (sourceBufferId : BufferId) (scope : HelperBufferScope)
      (cwd : Option String) (lines : List String) (now : Timestamp)
  | removeBuffer (bufferId : BufferId)
  | disposeExitedBuffers
  | markBufferRunning (bufferId : BufferId) (pid : Option UInt32)
  | markBufferInterrupted (bufferId : BufferId) (pid : Option UInt32)
  | markBufferExited (bufferId : BufferId) (exitCode : Option Int32) (now : Timestamp)
  | interruptUnrecoverableBuffers
  | setBufferPlacement (bufferId : BufferId) (placement : Placement)
  | setBufferSize (bufferId : BufferId) (size : PtySize)
  | syncBufferViewSize (bufferId : BufferId)
  | noteBufferOutput (bufferId : BufferId)
  | setBufferTitle (bufferId : BufferId) (title : String)
  | setBufferActivity (bufferId : BufferId) (newActivity : ActivityState)
  | acknowledgeShownActivity (sessionId : SessionId)
  -- views, containers and popups
  | createBufferView (sessionId : SessionId) (bufferId : BufferId)
  | createSplitNode (sessionId : SessionId) (direction : SplitDirection) (children : List NodeId)
  | createTabsNode (sessionId : SessionId) (tabs : List TabEntry) (active : ℕ)
  | createFloatingWindow (sessionId : SessionId) (rootNode : NodeId) (geometry : FloatGeometry)
      (title : Option String) (focus closeOnEmpty : Bool)
  | createFloatingFromBuffer (sessionId : SessionId) (bufferId : BufferId)
      (geometry : FloatGeometry) (title : Option String) (focus closeOnEmpty : Bool)
  | closeFloating (floatingId : FloatingId)
  | focusFloating (floatingId : FloatingId)
  | moveFloating (floatingId : FloatingId) (geometry : FloatGeometry)
  | setFloatingBorder (floatingId : FloatingId) (border : Bool)
  -- tabs
  | addRootTabFromBuffer (sessionId : SessionId) (title : String) (bufferId : BufferId)
  | addRootTabFromSubtree (sessionId : SessionId) (title : String) (child : NodeId)
  | addTabSiblingAt (tabsId : NodeId) (index : ℕ) (title : String) (child : NodeId)
  | addTabFromBufferAt (tabsId : NodeId) (index : ℕ) (title : String) (bufferId : BufferId)
  | selectRootTab (sessionId : SessionId) (index : ℕ)
  | renameRootTab (sessionId : SessionId) (index : ℕ) (title : String)
  | renameTab (tabsId : NodeId) (index : ℕ) (title : String)
  | setRootTabSynchronizePanes (sessionId : SessionId) (index : ℕ) (enabled : Option Bool)
  | closeRootTab (sessionId : SessionId) (index : ℕ)
  | switchTab (tabsId : NodeId) (index : ℕ)
  | closeTab (tabsId : NodeId) (index : ℕ)
  -- nodes
  | wrapNodeInTabs (nodeId : NodeId) (title : String)
  | wrapNodeInSplit (nodeId : NodeId) (direction : SplitDirection) (sibling : NodeId)
      (insertBefore : Bool)
  | splitLeafWithNewBuffer (leafId : NodeId) (direction : SplitDirection) (newBuffer : BufferId)
  | resizeSplitChildren (splitId : NodeId) (sizes : List UInt16)
  | replaceNode (nodeId replacement : NodeId)
  | closeNode (nodeId : NodeId)
  | swapSiblingNodes (firstNodeId secondNodeId : NodeId)
  | moveNodeBefore (nodeId siblingNodeId : NodeId)
  | moveNodeAfter (nodeId siblingNodeId : NodeId)
  | breakNode (nodeId : NodeId) (toFloating : Bool)
  | joinBufferAtNode (nodeId : NodeId) (bufferId : BufferId) (placement : NodeJoinPlacement)
  | attachBuffer (bufferId : BufferId) (nodeId : NodeId)
  | moveBufferToLeaf (bufferId : BufferId) (targetLeaf : NodeId)
  | detachBuffer (bufferId : BufferId)
  -- focus and zoom
  | focusLeaf (sessionId : SessionId) (leafId : NodeId)
  | selectPane (sessionId : SessionId) (leafId : NodeId)
  | showNode (sessionId : SessionId) (nodeId : NodeId)
  | focusLastPane (sessionId : SessionId)
  | zoomNode (nodeId : NodeId)
  | unzoomSession (sessionId : SessionId)
  | toggleZoomNode (nodeId : NodeId)

namespace Command

open ServerState Op

def run (fuel : ℕ) : Command → StateOp Unit
  | createSession name now => void (ServerState.createSession name now)
  | closeSession sessionId => ServerState.closeSession fuel sessionId
  | renameSession sessionId name => ServerState.renameSession sessionId name
  | setSessionBaseIndex sessionId baseIndex => ServerState.setSessionBaseIndex sessionId baseIndex
  | setSessionViewport sessionId viewport paneTitles =>
    ServerState.setSessionViewport sessionId viewport paneTitles
  | createBufferWithEnv title command cwd env now =>
    void (ServerState.createBufferWithEnv title command cwd env now)
  | createHelperBuffer title sourceBufferId scope cwd lines now =>
    void (ServerState.createHelperBuffer title sourceBufferId scope cwd lines now)
  | removeBuffer bufferId => void (ServerState.removeBuffer bufferId)
  | disposeExitedBuffers => void (ServerState.disposeExitedBuffers fuel)
  | markBufferRunning bufferId pid => ServerState.markBufferRunning bufferId pid
  | markBufferInterrupted bufferId pid => ServerState.markBufferInterrupted bufferId pid
  | markBufferExited bufferId exitCode now => ServerState.markBufferExited bufferId exitCode now
  | interruptUnrecoverableBuffers => ServerState.interruptUnrecoverableBuffers
  | setBufferPlacement bufferId placement => ServerState.setBufferPlacement bufferId placement
  | setBufferSize bufferId size => ServerState.setBufferSize bufferId size
  | syncBufferViewSize bufferId => void (ServerState.syncBufferViewSize bufferId)
  | noteBufferOutput bufferId => void (ServerState.noteBufferOutput bufferId)
  | setBufferTitle bufferId title => ServerState.setBufferTitle bufferId title
  | setBufferActivity bufferId newActivity => ServerState.setBufferActivity bufferId newActivity
  | acknowledgeShownActivity sessionId => void (ServerState.acknowledgeShownActivity fuel sessionId)
  | createBufferView sessionId bufferId => void (ServerState.createBufferView sessionId bufferId)
  | createSplitNode sessionId direction children =>
    void (ServerState.createSplitNode sessionId direction children)
  | createTabsNode sessionId tabs active => void (ServerState.createTabsNode sessionId tabs active)
  | createFloatingWindow sessionId rootNode geometry title focus closeOnEmpty =>
    void (createFloatingWindowWithOptions fuel sessionId rootNode geometry title focus closeOnEmpty)
  | createFloatingFromBuffer sessionId bufferId geometry title focus closeOnEmpty =>
    void (createFloatingFromBufferWithOptions fuel sessionId bufferId geometry title focus
      closeOnEmpty)
  | closeFloating floatingId => ServerState.closeFloating fuel floatingId
  | focusFloating floatingId => ServerState.focusFloating fuel floatingId
  | moveFloating floatingId geometry => ServerState.moveFloating floatingId geometry
  | setFloatingBorder floatingId border => ServerState.setFloatingBorder floatingId border
  | addRootTabFromBuffer sessionId title bufferId =>
    void (ServerState.addRootTabFromBuffer fuel sessionId title bufferId)
  | addRootTabFromSubtree sessionId title child =>
    void (ServerState.addRootTabFromSubtree fuel sessionId title child)
  | addTabSiblingAt tabsId index title child =>
    void (ServerState.addTabSiblingAt fuel tabsId index title child)
  | addTabFromBufferAt tabsId index title bufferId =>
    void (ServerState.addTabFromBufferAt fuel tabsId index title bufferId)
  | selectRootTab sessionId index => ServerState.selectRootTab fuel sessionId index
  | renameRootTab sessionId index title => ServerState.renameRootTab sessionId index title
  | renameTab tabsId index title => ServerState.renameTab tabsId index title
  | setRootTabSynchronizePanes sessionId index enabled =>
    void (ServerState.setRootTabSynchronizePanes sessionId index enabled)
  | closeRootTab sessionId index => ServerState.closeRootTab fuel sessionId index
  | switchTab tabsId index => ServerState.switchTab fuel tabsId index
  | closeTab tabsId index => ServerState.closeTab fuel tabsId index
  | wrapNodeInTabs nodeId title => void (ServerState.wrapNodeInTabs nodeId title)
  | wrapNodeInSplit nodeId direction sibling insertBefore =>
    void (ServerState.wrapNodeInSplit fuel nodeId direction sibling insertBefore)
  | splitLeafWithNewBuffer leafId direction newBuffer =>
    void (ServerState.splitLeafWithNewBuffer fuel leafId direction newBuffer)
  | resizeSplitChildren splitId sizes => ServerState.resizeSplitChildren splitId sizes
  | replaceNode nodeId replacement => ServerState.replaceNode fuel nodeId replacement
  | closeNode nodeId => ServerState.closeNode fuel nodeId
  | swapSiblingNodes firstNodeId secondNodeId =>
    ServerState.swapSiblingNodes firstNodeId secondNodeId
  | moveNodeBefore nodeId siblingNodeId => ServerState.moveNodeBefore nodeId siblingNodeId
  | moveNodeAfter nodeId siblingNodeId => ServerState.moveNodeAfter nodeId siblingNodeId
  | breakNode nodeId toFloating => ServerState.breakNode fuel nodeId toFloating
  | joinBufferAtNode nodeId bufferId placement =>
    ServerState.joinBufferAtNode fuel nodeId bufferId placement
  | attachBuffer bufferId nodeId => ServerState.attachBuffer bufferId nodeId
  | moveBufferToLeaf bufferId targetLeaf => ServerState.moveBufferToLeaf fuel bufferId targetLeaf
  | detachBuffer bufferId => ServerState.detachBuffer fuel bufferId
  | focusLeaf sessionId leafId => ServerState.focusLeaf fuel sessionId leafId
  | selectPane sessionId leafId => ServerState.selectPane fuel sessionId leafId
  | showNode sessionId nodeId => ServerState.showNode fuel sessionId nodeId
  | focusLastPane sessionId => ServerState.focusLastPane fuel sessionId
  | zoomNode nodeId => ServerState.zoomNode fuel nodeId
  | unzoomSession sessionId => ServerState.unzoomSession sessionId
  | toggleZoomNode nodeId => ServerState.toggleZoomNode fuel nodeId

/-- The command returns, or fails with an error, and leaves the second state. -/
def Ends (fuel : ℕ) (command : Command) (s s' : ServerState) : Prop :=
  (command.run fuel s).2 = s' ∧ (command.run fuel s).1 ≠ .error .diverges

/-- The command returns and leaves the second state. -/
def Succeeds (fuel : ℕ) (command : Command) (s s' : ServerState) : Prop :=
  command.run fuel s = (.ok (), s')

end Command

end Embers
