import Embers.Lib.Readback
import Embers.Protocol.RecordCodec

/-!
# Records as they arrive

What a client decodes from a snapshot that was encoded. `sent` says of each kind of record what arrives:
all of a session and of a popup; of a node only the data of its kind, with the pixel sizes of a view left
out; of a buffer all but a foreground command without words. A node without the data of its kind is not
decoded.
-/

namespace Embers.Protocol

/-! ## Fields -/

section Fields

variable {κ : IdKind} {id : Option (EntityId κ)} {field : String}

theorem optionalId_idOrZero (h : validateOptionalId id field = .ok ()) : optionalId (idOrZero id) = id := by
  cases id with
  | none => rfl
  | some id =>
    simp only [validateOptionalId, validateNonzeroId] at h
    split at h
    · cases h
    next hne => rw [idOrZero, optionalId, if_neg hne]

@[simp] theorem flagged_isSome_getD {α : Type} (o : Option α) (d : α) :
    flagged o.isSome (o.getD d) = o := by
  cases o <;> rfl

theorem decodeOptionalCells_eq {cols rows : UInt16} (h : validateCells cols rows field = .ok ()) :
    decodeOptionalCells cols rows field = .ok (some (cols, rows)) := by
  have hcells : ¬(cols = 0 ∧ rows = 0) := by
    rintro ⟨hcols, -⟩
    rw [validateCells, if_pos (.inl hcols)] at h
    cases h
  rw [decodeOptionalCells, if_neg hcells, h]
  rfl

theorem decodeStringMap_written (table : Table String String) (field : String) :
    decodeStringMap (some (table.toList.map (·.1))) (some (table.toList.map (·.2))) field = .ok table := by
  rw [decodeStringMap, if_neg (by rw [List.length_map, List.length_map]; exact not_not.mpr rfl),
    List.zip_map', List.map_id'', Table.foldl_insert_toList]
  exact fun _ ↦ rfl

end Fields

/-! ## Enumerations -/

@[simp] theorem decodeBufferState_encode (state : BufferRecordState) :
    decodeBufferState (encodeBufferState state) = .ok state := by cases state <;> rfl

@[simp] theorem decodeActivity_encode (shown : ActivityState) :
    decodeActivity (encodeActivity shown) = .ok shown := by cases shown <;> rfl

@[simp] theorem decodeBufferKind_encode (kind : BufferRecordKind) :
    decodeBufferKind (encodeBufferKind kind) = .ok kind := by cases kind <;> rfl

@[simp] theorem decodeBufferHistoryScope_encode (scope : HelperBufferScope) :
    decodeBufferHistoryScope (encodeBufferHistoryScope scope) = .ok scope := by cases scope <;> rfl

@[simp] theorem decodePipeState_encode (state : PipeRecordState) :
    decodePipeState (encodePipeState state) = .ok state := by cases state <;> rfl

@[simp] theorem decodeBufferPipeStopReason_encode (reason : BufferPipeStopReason) :
    decodeBufferPipeStopReason (encodeBufferPipeStopReason reason) = .ok reason := by
  cases reason <;> rfl

@[simp] theorem decodeSplitDirection_encode (direction : SplitDirection) :
    decodeSplitDirection (encodeSplitDirection direction) = .ok direction := by cases direction <;> rfl

/-- An enumeration beside the flag that it is there. -/
theorem decodeFlagged_encode {α : Type} {encode : α → UInt8} {decode : UInt8 → Except InvalidMessage α}
    (h : ∀ a, decode (encode a) = .ok a) (o : Option α) :
    decodeFlagged decode o.isSome (o.elim 0 encode) = .ok o := by
  cases o with
  | none => rfl
  | some a =>
    rw [Option.isSome_some, decodeFlagged, if_pos rfl, Option.elim_some, h]
    rfl

/-! ## Sessions -/

theorem decodeSessionRecord_encode {record : SessionRecord} (h : validateSessionRecord record = .ok ()) :
    decodeSessionRecord (encodeSessionRecord record) = .ok record := by
  simp only [validateSessionRecord, checks_iff] at h
  obtain ⟨-, -, -, hleaf, hfloating, hzoomed, hviewport⟩ := h
  have hcells : decodeOptionalCells (record.viewport.elim 0 (·.width)) (record.viewport.elim 0 (·.height))
      "session_record.viewport" = .ok (record.viewport.map fun cells ↦ (cells.width, cells.height)) := by
    cases hget : record.viewport with
    | none => rfl
    | some viewport =>
      rw [hget] at hviewport
      exact decodeOptionalCells_eq hviewport
  simp only [decodeSessionRecord, encodeSessionRecord, required, hcells, optionalId_idOrZero hleaf,
    optionalId_idOrZero hfloating, optionalId_idOrZero hzoomed, flagged_isSome_getD, ok_andThen, List.map_map,
    Option.map_map, Function.comp_def, List.map_id', Option.map_id']
  rfl

/-! ## Buffers -/

/-- The buffer without a foreground command that has no words. -/
def BufferRecord.sent (record : BufferRecord) : BufferRecord :=
  { record with foregroundCommand := record.foregroundCommand.filter (! ·.isEmpty) }

/-- The field is part of the error only. -/
theorem BufferPipeRecord.validate_of_field {record : BufferPipeRecord} {field : String}
    (h : record.validate field = .ok ()) (field' : String) : record.validate field' = .ok () := by
  unfold BufferPipeRecord.validate at h ⊢
  split at h
  · cases h
  · grind

theorem decodeBufferPipeRecord_encode {record : BufferPipeRecord} {field : String}
    (h : record.validate field = .ok ()) :
    decodeBufferPipeRecord (encodeBufferPipeRecord record) = .ok record := by
  simp only [decodeBufferPipeRecord, encodeBufferPipeRecord, required, decodePipeState_encode,
    decodeFlagged_encode decodeBufferPipeStopReason_encode, flagged_isSome_getD, ok_andThen]
  change (record.validate "buffer_pipe_record" >>= fun _ ↦ pure record) = _
  rw [BufferPipeRecord.validate_of_field h "buffer_pipe_record"]
  rfl

theorem decodeBufferRecord_encode {record : BufferRecord} (h : validateBufferRecord record = .ok ()) :
    decodeBufferRecord (encodeBufferRecord record) = .ok record.sent := by
  simp only [validateBufferRecord, checks_iff] at h
  obtain ⟨-, hnode, hsource, hpipe, hrecord⟩ := h
  have hpipes : (record.pipe.map encodeBufferPipeRecord).mapM decodeBufferPipeRecord = .ok record.pipe := by
    cases hget : record.pipe with
    | none => rfl
    | some pipe =>
      rw [hget] at hpipe
      rw [Option.map_some, Option.mapM_some, decodeBufferPipeRecord_encode hpipe]
      rfl
  have hsent : record.sent.validate = .ok () := hrecord
  simp only [decodeBufferRecord, encodeBufferRecord, required, decodeBufferState_encode,
    decodeActivity_encode, decodeStringMap_written, decodeBufferKind_encode,
    decodeFlagged_encode decodeBufferHistoryScope_encode, hpipes, flagged_isSome_getD, optionalId_idOrZero hnode,
    optionalId_idOrZero hsource, Option.filter_filter, Bool.and_self, ok_andThen]
  change (record.sent.validate >>= fun _ ↦ pure record.sent) = _
  rw [hsent]
  rfl

/-! ## Nodes -/

/-- The view without the pixel sizes. -/
def BufferViewRecord.sent (view : BufferViewRecord) : BufferViewRecord :=
  { view with lastRenderSize := .new view.lastRenderSize.cols view.lastRenderSize.rows }

/-- The node with the data of its kind only. -/
def NodeRecord.sent (record : NodeRecord) : NodeRecord :=
  { record with
    bufferView := if record.kind = .bufferView then record.bufferView.map BufferViewRecord.sent else none
    split := if record.kind = .split then record.split else none
    tabs := if record.kind = .tabs then record.tabs else none }

/-- Whether the node has the data of its kind. -/
def NodeRecord.hasPayload (record : NodeRecord) : Bool :=
  match record.kind with
  | .bufferView => record.bufferView.isSome
  | .split => record.split.isSome
  | .tabs => record.tabs.isSome

theorem decodeSplit_encode (split : SplitRecord) : decodeSplit (encodeSplit split) = .ok split := by
  simp only [decodeSplit, encodeSplit, required, decodeSplitDirection_encode, ok_andThen, List.map_map,
    Function.comp_def, List.map_id']
  rfl

theorem decodeTabs_encode (tabs : TabsRecord) : decodeTabs (encodeTabs tabs) = .ok tabs := by
  have htabs : (tabs.tabs.map encodeTab).mapM decodeTab = .ok (tabs.tabs.map id) :=
    mapM_written fun _ _ ↦ rfl
  rw [List.map_id] at htabs
  simp only [decodeTabs, encodeTabs, required, htabs, ok_andThen]
  rfl

/-- The payload of a node arrives, or decoding says which one is missing. -/
theorem decodeNodePayload_encode (record : NodeRecord) :
    if record.hasPayload then
      decodeNodePayload (encodeNodeRecord record) =
        .ok (record.kind, record.sent.bufferView, record.sent.split, record.sent.tabs)
    else ∃ missing, decodeNodePayload (encodeNodeRecord record) = .error missing := by
  obtain ⟨id, sessionId, parentId, kind, view, split, tabs, leafId⟩ := record
  cases kind with
  | bufferView =>
    cases view with
    | none => exact ⟨_, rfl⟩
    | some view => rfl
  | split =>
    cases split with
    | none => exact ⟨_, rfl⟩
    | some split =>
      change (decodeSplit (encodeSplit split) >>= _) = _
      rw [decodeSplit_encode]
      rfl
  | tabs =>
    cases tabs with
    | none => exact ⟨_, rfl⟩
    | some tabs =>
      change (decodeTabs (encodeTabs tabs) >>= _) = _
      rw [decodeTabs_encode]
      rfl

theorem decodeNodeRecord_encode {record arrived : NodeRecord} (h : validateNodeRecord record = .ok ()) :
    decodeNodeRecord (encodeNodeRecord record) = .ok arrived ↔
      record.hasPayload = true ∧ arrived = record.sent := by
  simp only [validateNodeRecord, checks_iff] at h
  obtain ⟨-, -, hparent, hleaf, -⟩ := h
  have hpayload := decodeNodePayload_encode record
  rw [decodeNodeRecord]
  split at hpayload
  next hhas =>
    rw [hpayload, ok_andThen]
    simp only [encodeNodeRecord, optionalId_idOrZero hparent, optionalId_idOrZero hleaf, hhas, true_and]
    constructor
    · intro harrived
      exact (Except.ok.inj harrived).symm
    · rintro rfl
      rfl
  next hhas =>
    obtain ⟨missing, hmissing⟩ := hpayload
    rw [hmissing]
    exact ⟨fun harrived ↦ (by cases harrived), fun hsent ↦ absurd hsent.1 hhas⟩

/-! ## Snapshots -/

def SessionSnapshot.sent (snapshot : SessionSnapshot) : SessionSnapshot :=
  { snapshot with
    nodes := snapshot.nodes.map NodeRecord.sent
    buffers := snapshot.buffers.map BufferRecord.sent }

/-- What a client decodes of a snapshot that passed the checks of the encoder. -/
theorem decode_encodeSessionSnapshot {snapshot arrived : SessionSnapshot}
    (h : validateSessionSnapshot snapshot = .ok ()) :
    decodeSessionSnapshot (encodeSessionSnapshot snapshot) = .ok arrived ↔
      (∀ node ∈ snapshot.nodes, node.hasPayload = true) ∧ arrived = snapshot.sent := by
  simp only [validateSessionSnapshot, checks_iff, checksEach_iff] at h
  obtain ⟨hsession, hnodes, hbuffers, -⟩ := h
  have hnodes' {records : List NodeRecord} :
      (snapshot.nodes.map encodeNodeRecord).mapM decodeNodeRecord = .ok records ↔
        (∀ node ∈ snapshot.nodes, node.hasPayload = true) ∧ records = snapshot.nodes.map NodeRecord.sent :=
    mapM_written_iff fun node hmem _ ↦ decodeNodeRecord_encode (hnodes node hmem)
  have hbuffers' : (snapshot.buffers.map encodeBufferRecord).mapM decodeBufferRecord =
      .ok (snapshot.buffers.map BufferRecord.sent) :=
    mapM_written fun buffer hmem ↦ decodeBufferRecord_encode (hbuffers buffer hmem)
  have hfloating : (snapshot.floating.map encodeFloatingRecord).mapM decodeFloatingRecord =
      .ok (snapshot.floating.map id) := mapM_written fun _ _ ↦ rfl
  rw [List.map_id] at hfloating
  simp only [decodeSessionSnapshot, encodeSessionSnapshot, required, ok_andThen,
    decodeSessionRecord_encode hsession, hbuffers', hfloating]
  rw [ok_bind_iff]
  constructor
  · rintro ⟨records, hrecords, harrived⟩
    obtain ⟨hall, rfl⟩ := hnodes'.mp hrecords
    exact ⟨hall, (Except.ok.inj harrived).symm⟩
  · rintro ⟨hall, rfl⟩
    exact ⟨_, hnodes'.mpr ⟨hall, rfl⟩, rfl⟩

theorem BufferRecord.sent_eq_iff {record : BufferRecord} :
    record.sent = record ↔ record.foregroundCommand ≠ some [] := by
  have hsame : record.sent = record ↔
      record.foregroundCommand.filter (! ·.isEmpty) = record.foregroundCommand :=
    ⟨fun h ↦ congrArg BufferRecord.foregroundCommand h,
      fun h ↦ congrArg (fun command ↦ { record with foregroundCommand := command }) h⟩
  rw [hsame]
  rcases record.foregroundCommand with _ | _ | ⟨program, arguments⟩ <;> simp

theorem SessionSnapshot.sent_eq_iff {snapshot : SessionSnapshot} : snapshot.sent = snapshot ↔
    (∀ node ∈ snapshot.nodes, node.sent = node) ∧
      ∀ buffer ∈ snapshot.buffers, buffer.foregroundCommand ≠ some [] := by
  simp only [← BufferRecord.sent_eq_iff]
  constructor
  · intro h
    have hnodes : snapshot.nodes.map NodeRecord.sent = snapshot.nodes.map id :=
      (congrArg SessionSnapshot.nodes h).trans (List.map_id _).symm
    have hbuffers : snapshot.buffers.map BufferRecord.sent = snapshot.buffers.map id :=
      (congrArg SessionSnapshot.buffers h).trans (List.map_id _).symm
    exact ⟨List.map_inj_left.mp hnodes, List.map_inj_left.mp hbuffers⟩
  · rintro ⟨hnodes, hbuffers⟩
    rw [SessionSnapshot.sent, List.map_congr_left (g := id) hnodes, List.map_congr_left (g := id) hbuffers,
      List.map_id, List.map_id]

/-- Of a snapshot that passed the checks of the encoder, decoding gives what is sent of it, unless a node
lacks the data of its kind. It gives the snapshot itself if no node has other data, no view has pixel sizes
and no buffer has a foreground command without words. -/
theorem sessionSnapshot_codec {snapshot : SessionSnapshot} (h : validateSessionSnapshot snapshot = .ok ()) :
    (∀ arrived, decodeSessionSnapshot (encodeSessionSnapshot snapshot) = .ok arrived ↔
      (∀ node ∈ snapshot.nodes, node.hasPayload = true) ∧ arrived = snapshot.sent) ∧
    (decodeSessionSnapshot (encodeSessionSnapshot snapshot) = .ok snapshot ↔
      (∀ node ∈ snapshot.nodes, node.hasPayload = true ∧ node.sent = node) ∧
        ∀ buffer ∈ snapshot.buffers, buffer.foregroundCommand ≠ some []) := by
  refine ⟨fun arrived ↦ decode_encodeSessionSnapshot h, (decode_encodeSessionSnapshot h).trans ?_⟩
  rw [eq_comm, SessionSnapshot.sent_eq_iff, forall₂_and, and_assoc]

/-- A session with one pane, drawn in 80 columns of 8 pixels. -/
def onePane : SessionSnapshot where
  session := ⟨⟨1⟩, "main", ⟨1⟩, [], some ⟨2⟩, none, none, some ⟨80, 24⟩, some 1, false⟩
  nodes := [
    ⟨⟨1⟩, ⟨1⟩, none, .tabs, none, none, some ⟨0, [⟨"shell", ⟨2⟩, false⟩]⟩, some ⟨2⟩⟩,
    ⟨⟨2⟩, ⟨1⟩, some ⟨1⟩, .bufferView, some ⟨⟨1⟩, true, false, true, ⟨80, 24, 640, 384⟩⟩, none, none,
      some ⟨2⟩⟩]
  buffers := [{
    id := ⟨1⟩
    title := "shell"
    command := ["sh"]
    cwd := none
    pipe := some ⟨["tee", "log"], .stopped, none, some 1, some .pipeExited⟩
    kind := .pty
    state := .running
    pid := some 0
    attachmentNodeId := some ⟨2⟩
    readOnly := false
    helperSourceBufferId := none
    helperScope := none
    ptySize := ⟨80, 24, 640, 384⟩
    activity := .idle
    lastSnapshotSeq := 3
    exitCode := none
    env := ∅
    userOptions := ∅
    foregroundCommand := some []
    bellSequence := 0
    host := none }]
  floating := []

/-- The pixels of the view and the empty foreground command do not arrive. -/
theorem sessionSnapshot_codec_onePane :
    decodeSessionSnapshot (encodeSessionSnapshot onePane) = .ok onePane.sent ∧ onePane.sent ≠ onePane := by
  have haccepted : validateSessionSnapshot onePane = .ok () := rfl
  exact ⟨((sessionSnapshot_codec haccepted).1 _).mpr ⟨by decide, rfl⟩, by decide⟩

end Embers.Protocol
