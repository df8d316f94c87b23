import Embers.Protocol.Records

/-!
# Records on the wire

A record travels as a flat table of numbers, texts and lists, where an absent id is zero, an absent
size is two zeros, and an absent number has a flag of its own. `Fb` has the tables of the schema as
their accessors read them: what may be absent is an option, and what may not has its default.

Encoding checks the records first, as an id of zero would be read back as none. Decoding checks what
the schema does not, and answers with the field that is missing or wrong.
-/

namespace Embers.Protocol

/-- `ProtocolError::InvalidMessage` and `InvalidMessageOwned`. -/
structure InvalidMessage where
  text : String
  deriving DecidableEq, Repr

/-! ## Tables -/

namespace Fb

structure SessionRecord where
  id : UInt64
  name : Option String
  rootNodeId : UInt64
  floatingIds : Option (List UInt64)
  focusedLeafId : UInt64
  focusedFloatingId : UInt64
  zoomedNodeId : UInt64
  viewportCols : UInt16
  viewportRows : UInt16
  baseIndex : UInt32
  hasBaseIndex : Bool
  paneTitles : Bool
  deriving DecidableEq, Repr

structure BufferPipeRecord where
  command : Option (List String)
  state : UInt8
  pid : UInt32
  hasPid : Bool
  exitCode : Int32
  hasExitCode : Bool
  stopReason : UInt8
  hasStopReason : Bool
  deriving DecidableEq, Repr

structure BufferRecord where
  id : UInt64
  title : Option String
  command : Option (List String)
  cwd : Option String
  pipe : Option BufferPipeRecord
  kind : UInt8
  state : UInt8
  pid : UInt32
  hasPid : Bool
  attachmentNodeId : UInt64
  readOnly : Bool
  helperSourceBufferId : UInt64
  helperScope : UInt8
  hasHelperScope : Bool
  ptyCols : UInt16
  ptyRows : UInt16
  ptyPixelWidth : UInt16
  ptyPixelHeight : UInt16
  activity : UInt8
  lastSnapshotSeq : UInt64
  exitCode : Int32
  hasExitCode : Bool
  envKeys : Option (List String)
  envValues : Option (List String)
  userOptionKeys : Option (List String)
  userOptionValues : Option (List String)
  foregroundCommand : Option (List String)
  bellSequence : UInt64
  host : Option String
  deriving DecidableEq, Repr

structure BufferViewRecord where
  bufferId : UInt64
  focused : Bool
  zoomed : Bool
  followOutput : Bool
  lastRenderCols : UInt16
  lastRenderRows : UInt16
  deriving DecidableEq, Repr

structure SplitRecord where
  direction : UInt8
  childIds : Option (List UInt64)
  sizes : Option (List UInt16)
  deriving DecidableEq, Repr

structure TabRecord where
  title : Option String
  childId : UInt64
  synchronizePanes : Bool
  deriving DecidableEq, Repr

structure TabsRecord where
  active : UInt32
  tabs : Option (List TabRecord)
  deriving DecidableEq, Repr

structure NodeRecord where
  id : UInt64
  sessionId : UInt64
  parentId : UInt64
  kind : UInt8
  bufferView : Option BufferViewRecord
  split : Option SplitRecord
  tabs : Option TabsRecord
  focusLeafId : UInt64
  deriving DecidableEq, Repr

structure FloatingRecord where
  id : UInt64
  sessionId : UInt64
  rootNodeId : UInt64
  title : Option String
  x : UInt16
  y : UInt16
  width : UInt16
  height : UInt16
  focused : Bool
  visible : Bool
  closeOnEmpty : Bool
  border : Bool
  deriving DecidableEq, Repr

structure SessionSnapshot where
  session : Option SessionRecord
  nodes : Option (List NodeRecord)
  buffers : Option (List BufferRecord)
  floating : Option (List FloatingRecord)
  deriving DecidableEq, Repr

end Fb

/-! ## Fields -/

def required {α : Type} (value : Option α) (field : String) : Except InvalidMessage α :=
  match value with
  | some value => .ok value
  | none => .error ⟨field⟩

/-- Zero stands for no id. -/
def idOrZero {κ : IdKind} (id : Option (EntityId κ)) : UInt64 :=
  match id with
  | some id => id.raw
  | none => 0

def optionalId {κ : IdKind} (raw : UInt64) : Option (EntityId κ) := if raw = 0 then none else some ⟨raw⟩

/-- A number beside the flag that it is there. -/
def flagged {α : Type} (present : Bool) (value : α) : Option α := if present then some value else none

def decodeFlagged {α : Type} (decode : UInt8 → Except InvalidMessage α) (present : Bool) (wire : UInt8) :
    Except InvalidMessage (Option α) :=
  if present then some <$> decode wire else .ok none

def validateNonzeroId {κ : IdKind} (id : EntityId κ) (field : String) : Except InvalidMessage Unit :=
  if id.raw = 0 then .error ⟨s!"{field} must be non-zero"⟩ else .ok ()

def validateOptionalId {κ : IdKind} (id : Option (EntityId κ)) (field : String) :
    Except InvalidMessage Unit :=
  match id with
  | some id => validateNonzeroId id field
  | none => .ok ()

def validateIds {κ : IdKind} (ids : List (EntityId κ)) (field : String) : Except InvalidMessage Unit :=
  ids.forM fun id ↦ validateNonzeroId id field

def validateCells (cols rows : UInt16) (field : String) : Except InvalidMessage Unit :=
  if cols = 0 ∨ rows = 0 then .error ⟨s!"{field} must be non-zero in both directions"⟩ else .ok ()

def decodeOptionalCells (cols rows : UInt16) (field : String) :
    Except InvalidMessage (Option (UInt16 × UInt16)) :=
  if cols = 0 ∧ rows = 0 then .ok none
  else do
    validateCells cols rows field
    pure (some (cols, rows))

def decodeStringMap (keys values : Option (List String)) (field : String) :
    Except InvalidMessage (Table String String) :=
  match keys, values with
  | none, some _ => .error ⟨s!"{field} has values without keys"⟩
  | none, none => .ok ∅
  | some _, none => .error ⟨s!"{field} is missing matching values"⟩
  | some keys, some values =>
    if keys.length ≠ values.length then .error ⟨s!"{field} has mismatched key/value lengths"⟩
    else .ok ((keys.zip values).foldl (fun table entry ↦ table.insert entry.1 entry.2) ∅)

/-! ## Sessions -/

def validateSessionRecord (record : SessionRecord) : Except InvalidMessage Unit := do
  validateNonzeroId record.id "session_record.id"
  validateNonzeroId record.rootNodeId "session_record.root_node_id"
  validateIds record.floatingIds "session_record.floating_ids"
  validateOptionalId record.focusedLeafId "session_record.focused_leaf_id"
  validateOptionalId record.focusedFloatingId "session_record.focused_floating_id"
  validateOptionalId record.zoomedNodeId "session_record.zoomed_node_id"
  record.viewport.forM fun viewport ↦
    validateCells viewport.width viewport.height "session_record.viewport"

def encodeSessionRecord (record : SessionRecord) : Fb.SessionRecord where
  id := record.id.raw
  name := some record.name
  rootNodeId := record.rootNodeId.raw
  floatingIds := some (record.floatingIds.map (·.raw))
  focusedLeafId := idOrZero record.focusedLeafId
  focusedFloatingId := idOrZero record.focusedFloatingId
  zoomedNodeId := idOrZero record.zoomedNodeId
  viewportCols := record.viewport.elim 0 (·.width)
  viewportRows := record.viewport.elim 0 (·.height)
  baseIndex := record.baseIndex.getD 0
  hasBaseIndex := record.baseIndex.isSome
  paneTitles := record.paneTitles

def decodeSessionRecord (record : Fb.SessionRecord) : Except InvalidMessage SessionRecord := do
  let name ← required record.name "session_record.name"
  let floatingIds ← required record.floatingIds "session_record.floating_ids"
  let viewport ← decodeOptionalCells record.viewportCols record.viewportRows "session_record.viewport"
  pure {
    id := ⟨record.id⟩
    name
    rootNodeId := ⟨record.rootNodeId⟩
    floatingIds := floatingIds.map (⟨·⟩)
    focusedLeafId := optionalId record.focusedLeafId
    focusedFloatingId := optionalId record.focusedFloatingId
    zoomedNodeId := optionalId record.zoomedNodeId
    viewport := viewport.map fun cells ↦ ⟨cells.1, cells.2⟩
    baseIndex := flagged record.hasBaseIndex record.baseIndex
    paneTitles := record.paneTitles }

/-! ## Buffers -/

/-- `BufferPipeRecord::validate`. -/
def BufferPipeRecord.validate (record : BufferPipeRecord) (field : String) : Except InvalidMessage Unit :=
  match record.command with
  | [] => .error ⟨s!"{field}.command must not be empty"⟩
  | program :: _ =>
    if program.isEmpty then .error ⟨s!"{field}.command first segment must not be empty"⟩
    else match record.state with
      | .running =>
        if record.stopReason.isSome then .error ⟨s!"{field}.stop_reason requires a stopped pipe"⟩
        else if record.exitCode.isSome then .error ⟨s!"{field}.exit_code requires a stopped pipe"⟩
        else .ok ()
      | .stopped =>
        if record.stopReason.isNone then .error ⟨s!"{field}.stop_reason required for stopped pipe"⟩
        else .ok ()

/-- `BufferRecord::validate`. -/
def BufferRecord.validate (record : BufferRecord) : Except InvalidMessage Unit := do
  record.pipe.forM (·.validate "buffer_record.pipe")
  match record.kind with
  | .pty =>
    if record.helperSourceBufferId.isSome then
      .error ⟨"buffer_record.kind=pty cannot set helper_source_buffer_id"⟩
    else if record.helperScope.isSome then .error ⟨"buffer_record.kind=pty cannot set helper_scope"⟩
    else .ok ()
  | .helper =>
    if record.pipe.isSome then .error ⟨"buffer_record.kind=helper cannot set pipe"⟩
    else if record.helperSourceBufferId.isSome ≠ record.helperScope.isSome then
      .error ⟨"buffer_record.kind=helper must set helper_source_buffer_id and helper_scope together"⟩
    else .ok ()

def validateBufferRecord (record : BufferRecord) : Except InvalidMessage Unit := do
  validateNonzeroId record.id "buffer_record.id"
  validateOptionalId record.attachmentNodeId "buffer_record.attachment_node_id"
  validateOptionalId record.helperSourceBufferId "buffer_record.helper_source_buffer_id"
  record.pipe.forM (·.validate "buffer_record.pipe")
  record.validate

def encodeBufferState : BufferRecordState → UInt8
  | .created => 0
  | .running => 1
  | .exited => 2
  -- 3 is reserved
  | .interrupted => 4

def decodeBufferState (wire : UInt8) : Except InvalidMessage BufferRecordState :=
  if wire = 0 then .ok .created
  else if wire = 1 then .ok .running
  else if wire = 4 then .ok .interrupted
  else if wire = 2 then .ok .exited
  else .error ⟨"unknown buffer state"⟩

def encodeActivity : ActivityState → UInt8
  | .idle => 0
  | .activity => 1
  | .bell => 2

def decodeActivity (wire : UInt8) : Except InvalidMessage ActivityState :=
  if wire = 0 then .ok .idle
  else if wire = 1 then .ok .activity
  else if wire = 2 then .ok .bell
  else .error ⟨"unknown activity state"⟩

def encodeBufferKind : BufferRecordKind → UInt8
  | .pty => 0
  | .helper => 1

def decodeBufferKind (wire : UInt8) : Except InvalidMessage BufferRecordKind :=
  if wire = 0 then .ok .pty else if wire = 1 then .ok .helper else .error ⟨"unknown buffer kind"⟩

def encodeBufferHistoryScope : HelperBufferScope → UInt8
  | .full => 0
  | .visible => 1

def decodeBufferHistoryScope (wire : UInt8) : Except InvalidMessage HelperBufferScope :=
  if wire = 0 then .ok .full
  else if wire = 1 then .ok .visible
  else .error ⟨"unknown buffer history scope"⟩

def encodePipeState : PipeRecordState → UInt8
  | .running => 0
  | .stopped => 1

def decodePipeState (wire : UInt8) : Except InvalidMessage PipeRecordState :=
  if wire = 0 then .ok .running
  else if wire = 1 then .ok .stopped
  else .error ⟨"unknown buffer pipe state"⟩

def encodeBufferPipeStopReason : BufferPipeStopReason → UInt8
  | .requested => 0
  | .pipeExited => 1
  | .writeFailed => 2
  | .bufferExited => 3
  | .runtimeInterrupted => 4

def decodeBufferPipeStopReason (wire : UInt8) : Except InvalidMessage BufferPipeStopReason :=
  if wire = 0 then .ok .requested
  else if wire = 1 then .ok .pipeExited
  else if wire = 2 then .ok .writeFailed
  else if wire = 3 then .ok .bufferExited
  else if wire = 4 then .ok .runtimeInterrupted
  else .error ⟨"unknown buffer pipe stop reason"⟩

def encodeBufferPipeRecord (record : BufferPipeRecord) : Fb.BufferPipeRecord where
  command := some record.command
  state := encodePipeState record.state
  pid := record.pid.getD 0
  hasPid := record.pid.isSome
  exitCode := record.exitCode.getD 0
  hasExitCode := record.exitCode.isSome
  stopReason := record.stopReason.elim 0 encodeBufferPipeStopReason
  hasStopReason := record.stopReason.isSome

def decodeBufferPipeRecord (record : Fb.BufferPipeRecord) : Except InvalidMessage BufferPipeRecord := do
  let command ← required record.command "buffer_pipe_record.command"
  let state ← decodePipeState record.state
  let stopReason ← decodeFlagged decodeBufferPipeStopReason record.hasStopReason record.stopReason
  let decoded : BufferPipeRecord := {
    command
    state
    pid := flagged record.hasPid record.pid
    exitCode := flagged record.hasExitCode record.exitCode
    stopReason }
  decoded.validate "buffer_pipe_record"
  pure decoded

def encodeBufferRecord (record : BufferRecord) : Fb.BufferRecord where
  id := record.id.raw
  title := some record.title
  command := some record.command
  cwd := record.cwd
  pipe := record.pipe.map encodeBufferPipeRecord
  kind := encodeBufferKind record.kind
  state := encodeBufferState record.state
  pid := record.pid.getD 0
  hasPid := record.pid.isSome
  attachmentNodeId := idOrZero record.attachmentNodeId
  readOnly := record.readOnly
  helperSourceBufferId := idOrZero record.helperSourceBufferId
  helperScope := record.helperScope.elim 0 encodeBufferHistoryScope
  hasHelperScope := record.helperScope.isSome
  ptyCols := record.ptySize.cols
  ptyRows := record.ptySize.rows
  ptyPixelWidth := record.ptySize.pixelWidth
  ptyPixelHeight := record.ptySize.pixelHeight
  activity := encodeActivity record.activity
  lastSnapshotSeq := record.lastSnapshotSeq
  exitCode := record.exitCode.getD 0
  hasExitCode := record.exitCode.isSome
  envKeys := some (record.env.toList.map (·.1))
  envValues := some (record.env.toList.map (·.2))
  userOptionKeys := some (record.userOptions.toList.map (·.1))
  userOptionValues := some (record.userOptions.toList.map (·.2))
  foregroundCommand := record.foregroundCommand.filter (! ·.isEmpty)
  bellSequence := record.bellSequence
  host := record.host

def decodeBufferRecord (record : Fb.BufferRecord) : Except InvalidMessage BufferRecord := do
  let title ← required record.title "buffer_record.title"
  let command ← required record.command "buffer_record.command"
  let state ← decodeBufferState record.state
  let shown ← decodeActivity record.activity
  let env ← decodeStringMap record.envKeys record.envValues "buffer_record.env"
  let userOptions ←
    decodeStringMap record.userOptionKeys record.userOptionValues "buffer_record.user_options"
  let kind ← decodeBufferKind record.kind
  let helperScope ← decodeFlagged decodeBufferHistoryScope record.hasHelperScope record.helperScope
  let pipe ← record.pipe.mapM decodeBufferPipeRecord
  let decoded : BufferRecord := {
    id := ⟨record.id⟩
    title
    command
    cwd := record.cwd
    pipe
    kind
    state
    pid := flagged record.hasPid record.pid
    attachmentNodeId := optionalId record.attachmentNodeId
    readOnly := record.readOnly
    helperSourceBufferId := optionalId record.helperSourceBufferId
    helperScope
    ptySize := ⟨record.ptyCols, record.ptyRows, record.ptyPixelWidth, record.ptyPixelHeight⟩
    activity := shown
    lastSnapshotSeq := record.lastSnapshotSeq
    exitCode := flagged record.hasExitCode record.exitCode
    env
    userOptions
    foregroundCommand := record.foregroundCommand.filter (! ·.isEmpty)
    bellSequence := record.bellSequence
    host := record.host }
  decoded.validate
  pure decoded

/-! ## Nodes -/

def validateNodeRecord (record : NodeRecord) : Except InvalidMessage Unit := do
  validateNonzeroId record.id "node_record.id"
  validateNonzeroId record.sessionId "node_record.session_id"
  validateOptionalId record.parentId "node_record.parent_id"
  validateOptionalId record.focusLeafId "node_record.focus_leaf_id"
  record.bufferView.forM fun view ↦ validateNonzeroId view.bufferId "node_record.buffer_view.buffer_id"
  record.split.forM fun split ↦ validateIds split.childIds "node_record.split.child_ids"
  record.tabs.forM fun tabs ↦ validateIds (tabs.tabs.map (·.childId)) "node_record.tabs.tabs.child_id"

def encodeNodeKind : NodeRecordKind → UInt8
  | .bufferView => 0
  | .split => 1
  | .tabs => 2

def encodeSplitDirection : SplitDirection → UInt8
  | .horizontal => 0
  | .vertical => 1

def decodeSplitDirection (wire : UInt8) : Except InvalidMessage SplitDirection :=
  if wire = 0 then .ok .horizontal
  else if wire = 1 then .ok .vertical
  else .error ⟨"node_record.split.direction"⟩

def encodeBufferView (view : BufferViewRecord) : Fb.BufferViewRecord where
  bufferId := view.bufferId.raw
  focused := view.focused
  zoomed := view.zoomed
  followOutput := view.followOutput
  lastRenderCols := view.lastRenderSize.cols
  lastRenderRows := view.lastRenderSize.rows

def decodeBufferView (view : Fb.BufferViewRecord) : BufferViewRecord where
  bufferId := ⟨view.bufferId⟩
  focused := view.focused
  zoomed := view.zoomed
  followOutput := view.followOutput
  lastRenderSize := ⟨view.lastRenderCols, view.lastRenderRows, 0, 0⟩

def encodeSplit (split : SplitRecord) : Fb.SplitRecord where
  direction := encodeSplitDirection split.direction
  childIds := some (split.childIds.map (·.raw))
  sizes := some split.sizes

def decodeSplit (split : Fb.SplitRecord) : Except InvalidMessage SplitRecord := do
  let childIds ← required split.childIds "node_record.split.child_ids"
  let sizes ← required split.sizes "node_record.split.sizes"
  let direction ← decodeSplitDirection split.direction
  pure ⟨direction, childIds.map (⟨·⟩), sizes⟩

def encodeTab (tab : TabRecord) : Fb.TabRecord := ⟨some tab.title, tab.childId.raw, tab.synchronizePanes⟩

def decodeTab (tab : Fb.TabRecord) : Except InvalidMessage TabRecord := do
  let title ← required tab.title "node_record.tabs.title"
  pure ⟨title, ⟨tab.childId⟩, tab.synchronizePanes⟩

def encodeTabs (tabs : TabsRecord) : Fb.TabsRecord := ⟨tabs.active, some (tabs.tabs.map encodeTab)⟩

def decodeTabs (tabs : Fb.TabsRecord) : Except InvalidMessage TabsRecord := do
  let records ← required tabs.tabs "node_record.tabs.tabs"
  let decoded ← records.mapM decodeTab
  pure ⟨tabs.active, decoded⟩

def encodeNodeRecord (record : NodeRecord) : Fb.NodeRecord where
  id := record.id.raw
  sessionId := record.sessionId.raw
  parentId := idOrZero record.parentId
  kind := encodeNodeKind record.kind
  bufferView := record.bufferView.map encodeBufferView
  split := record.split.map encodeSplit
  tabs := record.tabs.map encodeTabs
  focusLeafId := idOrZero record.focusLeafId

/-- The kind, and the data of this kind only. -/
def decodeNodePayload (record : Fb.NodeRecord) : Except InvalidMessage
    (NodeRecordKind × Option BufferViewRecord × Option SplitRecord × Option TabsRecord) :=
  if record.kind = 0 then do
    let view ← required record.bufferView "node_record.buffer_view"
    pure (.bufferView, some (decodeBufferView view), none, none)
  else if record.kind = 1 then do
    let split ← required record.split "node_record.split"
    let split ← decodeSplit split
    pure (.split, none, some split, none)
  else if record.kind = 2 then do
    let tabs ← required record.tabs "node_record.tabs"
    let tabs ← decodeTabs tabs
    pure (.tabs, none, none, some tabs)
  else
    .error ⟨"unknown node kind"⟩

def decodeNodeRecord (record : Fb.NodeRecord) : Except InvalidMessage NodeRecord := do
  let (kind, bufferView, split, tabs) ← decodeNodePayload record
  pure {
    id := ⟨record.id⟩
    sessionId := ⟨record.sessionId⟩
    parentId := optionalId record.parentId
    kind
    bufferView
    split
    tabs
    focusLeafId := optionalId record.focusLeafId }

/-! ## Popups -/

def validateFloatingRecord (record : FloatingRecord) : Except InvalidMessage Unit := do
  validateNonzeroId record.id "floating_record.id"
  validateNonzeroId record.sessionId "floating_record.session_id"
  validateNonzeroId record.rootNodeId "floating_record.root_node_id"

def encodeFloatingRecord (record : FloatingRecord) : Fb.FloatingRecord where
  id := record.id.raw
  sessionId := record.sessionId.raw
  rootNodeId := record.rootNodeId.raw
  title := record.title
  x := record.geometry.x
  y := record.geometry.y
  width := record.geometry.width
  height := record.geometry.height
  focused := record.focused
  visible := record.visible
  closeOnEmpty := record.closeOnEmpty
  border := record.border

def decodeFloatingRecord (record : Fb.FloatingRecord) : Except InvalidMessage FloatingRecord :=
  .ok {
    id := ⟨record.id⟩
    sessionId := ⟨record.sessionId⟩
    rootNodeId := ⟨record.rootNodeId⟩
    title := record.title
    geometry := ⟨record.x, record.y, record.width, record.height⟩
    focused := record.focused
    visible := record.visible
    closeOnEmpty := record.closeOnEmpty
    border := record.border }

/-! ## Snapshots -/

def validateSessionSnapshot (snapshot : SessionSnapshot) : Except InvalidMessage Unit := do
  validateSessionRecord snapshot.session
  snapshot.nodes.forM validateNodeRecord
  snapshot.buffers.forM validateBufferRecord
  snapshot.floating.forM validateFloatingRecord

/-- Encoding a snapshot that passed the checks. -/
def encodeSessionSnapshot (snapshot : SessionSnapshot) : Fb.SessionSnapshot where
  session := some (encodeSessionRecord snapshot.session)
  nodes := some (snapshot.nodes.map encodeNodeRecord)
  buffers := some (snapshot.buffers.map encodeBufferRecord)
  floating := some (snapshot.floating.map encodeFloatingRecord)

def decodeSessionSnapshot (snapshot : Fb.SessionSnapshot) : Except InvalidMessage SessionSnapshot := do
  let session ← required snapshot.session "session_snapshot.session"
  let nodes ← required snapshot.nodes "session_snapshot.nodes"
  let buffers ← required snapshot.buffers "session_snapshot.buffers"
  let floating ← required snapshot.floating "session_snapshot.floating"
  let session ← decodeSessionRecord session
  let nodes ← nodes.mapM decodeNodeRecord
  let buffers ← buffers.mapM decodeBufferRecord
  let floating ← floating.mapM decodeFloatingRecord
  pure ⟨session, nodes, buffers, floating⟩

end Embers.Protocol
