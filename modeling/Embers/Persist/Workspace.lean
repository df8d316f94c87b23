import Embers.State.Place
import Embers.State.Validate
import Embers.Persist.Format

/-!
# Saving and loading a workspace

Loading rebuilds the tables, refusing duplicate ids and stray popups, restarts the id counters
above every id in use, puts a root that is not tabs back into tabs, and validates the result.
-/

namespace Embers

/-- The smallest id above every id of the list, `1` when there is none, and nothing when the
highest id is the last one there is. -/
def nextIdAfterMax (ids : List UInt64) : Option UInt64 :=
  match ids.max? with
  | some max => if max + 1 = 0 then none else some (max + 1)
  | none => some 1

def checkedNextId (ids : List UInt64) (kind : String) : Read UInt64 :=
  .ofOption (.internal (s!"persisted workspace exhausts the {kind} id space "
    ++ "(highest id is u64::MAX); cannot allocate new ids")) (nextIdAfterMax ids)

/-- The last id there is. -/
def maxId : UInt64 := .ofNat (2 ^ 64 - 1)

/-- Put the restored records in a table, refusing a second one with the same id. -/
def loadTable {κ α π : Type} [Ord κ] [Std.TransOrd κ] (restored : π → κ × α) (kind : String) :
    Table κ α → List π → Read (Table κ α)
  | table, [] => pure table
  | table, record :: rest =>
    if table.contains (restored record).1 then
      .fail (.internal s!"duplicate {kind} id found while loading persisted workspace")
    else
      loadTable restored kind (table.insert (restored record).1 (restored record).2) rest

namespace ServerState

/-- The keys of a table, as raw ids. -/
def rawKeys {κ : IdKind} {α : Type} (table : Table (EntityId κ) α) : List UInt64 :=
  table.keys.map EntityId.raw

def toPersisted (s : ServerState) : PersistedWorkspace where
  formatVersion := some currentFormatVersion
  sessions := s.sessions.toList.map persistedSession
  buffers := s.buffers.toList.map persistedBuffer
  nodes := s.nodes.toList.map persistedNode
  floating := s.floating.toList.map persistedFloating
  nextSessionId := (nextIdAfterMax (rawKeys s.sessions)).getD maxId
  nextBufferId := (nextIdAfterMax (rawKeys s.buffers)).getD maxId
  nextNodeId := (nextIdAfterMax (rawKeys s.nodes)).getD maxId
  nextFloatingId := (nextIdAfterMax (rawKeys s.floating)).getD maxId

/-- A loaded floating window must be listed by the session it names. -/
def checkFloatingListed (sessions : Table SessionId Session)
    (entry : FloatingId × FloatingWindow) : Read Unit :=
  match sessions[entry.2.sessionId]? with
  | none => .fail (.internal
      s!"floating window {entry.1} references unknown session {entry.2.sessionId}")
  | some session =>
    if entry.1 ∈ session.floating then
      pure ()
    else
      .fail (.internal
        s!"floating window {entry.1} is not referenced by session {entry.2.sessionId}")

/-- The session roots that are not tabs; a missing root is left for `validate` to report. -/
def untabbedRoots (s : ServerState) : List NodeId :=
  s.sessions.toList.filterMap fun entry ↦
    match s.nodes[entry.2.rootNode]? with
    | none => none
    | some node => if node.isTabs then none else some entry.2.rootNode

/-- Put one root back in tabs, named after its pane as it was shown. -/
def wrapRoot (fuel : ℕ) (rootNode : NodeId) : StateOp Unit := do
  let title ← .ask (·.defaultTabTitle fuel rootNode)
  let _ ← wrapNodeInTabs rootNode title

def wrapUntabbedSessionRoots (fuel : ℕ) : StateOp Unit := do
  let untabbed ← .gets untabbedRoots
  Op.forEach (wrapRoot fuel) untabbed

/-- The restored tables and counters, before roots are wrapped and the result is validated. -/
def loadTables (workspace : PersistedWorkspace) : Read ServerState := do
  let sessions ← loadTable restoredSession "session" ∅ workspace.sessions
  let buffers ← loadTable restoredBuffer "buffer" ∅ workspace.buffers
  let nodes ← loadTable restoredNode "node" ∅ workspace.nodes
  let floating ← loadTable restoredFloating "floating" ∅ workspace.floating
  Answer.each (checkFloatingListed sessions) floating.toList
  let nextSessionId ← checkedNextId (rawKeys sessions) "session"
  let nextBufferId ← checkedNextId (rawKeys buffers) "buffer"
  let nextNodeId ← checkedNextId (rawKeys nodes) "node"
  let nextFloatingId ← checkedNextId (rawKeys floating) "floating window"
  pure {
    sessions, buffers, nodes, floating
    lastViewport := none
    lastPaneTitles := false
    lastBaseIndex := none
    remainOnExit := .off
    sessionIds := ⟨max workspace.nextSessionId nextSessionId⟩
    bufferIds := ⟨max workspace.nextBufferId nextBufferId⟩
    nodeIds := ⟨max workspace.nextNodeId nextNodeId⟩
    floatingIds := ⟨max workspace.nextFloatingId nextFloatingId⟩ }

/-- `validate` as the last step of a load. -/
def fromPersisted (fuel : ℕ) (workspace : PersistedWorkspace) : Read ServerState := do
  let loaded ← loadTables workspace
  match wrapUntabbedSessionRoots fuel loaded with
  | (.error fault, _) => .error fault
  | (.ok (), wrapped) => do
    wrapped.validate fuel
    pure wrapped

end ServerState

end Embers
