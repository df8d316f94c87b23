import Embers.Client.State

/-!
# Fetching everything again

`resync_all_sessions` drops the sessions the server no longer has, applies a snapshot of each session
that is left and then the list of the buffers no pane shows. Sessions, nodes and floating windows
come out as the server has them, whatever the client believed and in whichever order the snapshots
are applied. Buffers do so under a condition.

A buffer the server no longer has is in no snapshot and in no list, so nothing names it. It goes only
if some step first takes its attachment away, and a step does that when the node the buffer's record
names is, at that moment, a node the client counts to the session the step is about. So the record
of a dead buffer survives when the client never had that node, and it survives in some order of the
snapshots when the node has moved to another live session: the snapshot of the new session takes the
node away from the old one before the old one's snapshot looks for what it lost.

This module has the model and the invariant of all states a client reaches, that records stand under
their ids and belong to sessions the client has (`Reachable.keyed`).
-/

namespace Embers.Client

open Embers.Protocol

/-! ## The server's tables -/

/-- The four tables the client copies. -/
structure Tables where
  sessions : Table SessionId SessionRecord
  nodes : Table NodeId NodeRecord
  floating : Table FloatingId FloatingRecord
  buffers : Table BufferId Protocol.BufferRecord

def ClientState.tables (c : ClientState) : Tables := ⟨c.sessions, c.nodes, c.floating, c.buffers⟩

/-- Every record stands under its own id, and nodes and windows belong to sessions the tables
have. -/
structure Tables.Keyed (t : Tables) : Prop where
  session_id : ∀ {id : SessionId} {session : SessionRecord}, t.sessions[id]? = some session → session.id = id
  node_id : ∀ {id : NodeId} {node : NodeRecord}, t.nodes[id]? = some node → node.id = id
  floating_id : ∀ {id : FloatingId} {window : FloatingRecord}, t.floating[id]? = some window → window.id = id
  buffer_id : ∀ {id : BufferId} {buffer : Protocol.BufferRecord},
    t.buffers[id]? = some buffer → buffer.id = id
  node_session : ∀ {id : NodeId} {node : NodeRecord}, t.nodes[id]? = some node →
    t.sessions[node.sessionId]?.isSome
  floating_session : ∀ {id : FloatingId} {window : FloatingRecord}, t.floating[id]? = some window →
    t.sessions[window.sessionId]?.isSome

/-- The tables of a consistent server: the buffers that are attached are attached to nodes it has. -/
structure ServerTables extends Tables where
  keyed : toTables.Keyed
  attached : ∀ {id : BufferId} {nodeId : NodeId} {buffer : Protocol.BufferRecord},
    buffers[id]? = some buffer →
    buffer.attachmentNodeId = some nodeId → nodes[nodeId]?.isSome

namespace ServerTables

/-- The session of a node. -/
def sessionOf (S : ServerTables) (nodeId : NodeId) : Option SessionId :=
  S.nodes[nodeId]?.map (·.sessionId)

/-- A snapshot the server answers with: the session, all of its nodes and windows and the buffers
its nodes show, each list in any order. -/
structure Snapshot (S : ServerTables) (snapshot : SessionSnapshot) : Prop where
  session : S.sessions[snapshot.session.id]? = some snapshot.session
  nodes : ∀ node, node ∈ snapshot.nodes ↔
    S.nodes[node.id]? = some node ∧ node.sessionId = snapshot.session.id
  floating : ∀ window, window ∈ snapshot.floating ↔
    S.floating[window.id]? = some window ∧ window.sessionId = snapshot.session.id
  buffers : ∀ buffer, buffer ∈ snapshot.buffers ↔
    S.buffers[buffer.id]? = some buffer ∧
      buffer.attachmentNodeId.bind S.sessionOf = some snapshot.session.id

/-- One snapshot of each session, in any order. -/
structure Snapshots (S : ServerTables) (snapshots : List SessionSnapshot) : Prop where
  each : ∀ snapshot ∈ snapshots, S.Snapshot snapshot
  all : ∀ id, S.sessions[id]?.isSome ↔ id ∈ snapshots.map (·.session.id)
  once : (snapshots.map (·.session.id)).Nodup

/-- The list of the buffers no pane shows, in any order. -/
def Detached (S : ServerTables) (buffers : List Protocol.BufferRecord) : Prop :=
  ∀ buffer, buffer ∈ buffers ↔
    S.buffers[buffer.id]? = some buffer ∧ buffer.attachmentNodeId = none

end ServerTables

/-! ## What reaches a client -/

/-- Events, and the answers to what a client asks: a session's snapshot or that the session is gone,
a buffer's record, its visible snapshot or that the buffer is gone, the detached buffers. -/
inductive News where
  | event (event : ServerEvent)
  | sessionSnapshot (snapshot : SessionSnapshot)
  | sessionGone (sessionId : SessionId)
  | bufferRecord (buffer : Protocol.BufferRecord)
  | visibleSnapshot (snapshot : VisibleSnapshotResponse)
  | bufferGone (bufferId : BufferId)
  | detachedBuffers (buffers : List Protocol.BufferRecord)

namespace ClientState

def applyNews (c : ClientState) : News → ClientState
  | .event event => c.applyEvent event
  | .sessionSnapshot snapshot => c.applySessionSnapshot snapshot
  | .sessionGone sessionId => c.removeSession sessionId
  | .bufferRecord buffer => c.applyBufferRecord buffer
  | .visibleSnapshot snapshot => c.applyBufferSnapshot snapshot
  | .bufferGone bufferId => c.removeBuffer bufferId
  | .detachedBuffers buffers => c.applyDetachedBuffers buffers

end ClientState

/-- A session's snapshot comes from a server that is consistent at that time. -/
def News.Sent : News → Prop
  | .sessionSnapshot snapshot => ∃ S : ServerTables, S.Snapshot snapshot
  | _ => True

/-- The states a client can be in. Each piece of news may come from another state of the server. -/
inductive Reachable : ClientState → Prop
  | empty : Reachable .empty
  | news {c : ClientState} {news : News} (hc : Reachable c) (hnews : news.Sent) :
    Reachable (c.applyNews news)

namespace ClientState

def markDirty (c : ClientState) (sessionId : SessionId) : ClientState :=
  { c with dirtySessions := c.dirtySessions.insert sessionId }

/-- `resync_all_sessions` with the answers it gets: a snapshot of each session the server lists, in
the order of that list, and the detached buffers. -/
def resyncAllSessions (c : ClientState) (snapshots : List SessionSnapshot)
    (detached : List Protocol.BufferRecord) : ClientState :=
  let live := snapshots.map (·.session.id)
  let c := (c.sessions.keys.filter (· ∉ live)).foldl removeSession c
  let c := snapshots.foldl (fun c snapshot ↦
    (c.markDirty snapshot.session.id).applySessionSnapshot snapshot) c
  c.applyDetachedBuffers detached

end ClientState

/-- The dead buffers can be traced: the record of a buffer the server does not have is detached, or
attached to a node the client has, whose session is gone or which is in no other session now. -/
def Traceable (c : ClientState) (S : ServerTables) : Prop :=
  ∀ (bufferId : BufferId) (buffer : Protocol.BufferRecord) (nodeId : NodeId),
    c.buffers[bufferId]? = some buffer → S.buffers[bufferId]? = none →
    buffer.attachmentNodeId = some nodeId →
    ∃ node : NodeRecord, c.nodes[nodeId]? = some node ∧
      (S.sessions[node.sessionId]? = none ∨
        ∀ sessionId, S.sessionOf nodeId = some sessionId → sessionId = node.sessionId)

/-! ## Frames -/

namespace ClientState

@[simp] theorem markDirty_sessions (c : ClientState) (id : SessionId) :
    (c.markDirty id).sessions = c.sessions := rfl

@[simp] theorem markDirty_nodes (c : ClientState) (id : SessionId) :
    (c.markDirty id).nodes = c.nodes := rfl

@[simp] theorem markDirty_buffers (c : ClientState) (id : SessionId) :
    (c.markDirty id).buffers = c.buffers := rfl

theorem mem_sessionNodeIds {c : ClientState} (hc : c.tables.Keyed) {sessionId : SessionId}
    {nodeId : NodeId} : nodeId ∈ c.sessionNodeIds sessionId ↔
      ∃ node, c.nodes[nodeId]? = some node ∧ node.sessionId = sessionId := by
  constructor
  · intro h
    obtain ⟨⟨id, node⟩, hmem, rfl⟩ := List.mem_map.mp h
    obtain ⟨hentry, hsession⟩ := List.mem_filter.mp hmem
    have hnode : c.nodes[id]? = some node := Table.mem_toList.mp hentry
    exact ⟨node, hc.node_id hnode ▸ hnode, of_decide_eq_true hsession⟩
  · rintro ⟨node, hnode, hsession⟩
    refine List.mem_map.mpr ⟨(nodeId, node), ?_, hc.node_id hnode⟩
    exact List.mem_filter.mpr ⟨Table.mem_toList.mpr hnode, decide_eq_true hsession⟩

theorem mem_attachedBuffersForNodes {c : ClientState} (hc : c.tables.Keyed) {nodeIds : List NodeId}
    {bufferId : BufferId} {buffer : Protocol.BufferRecord} {nodeId : NodeId}
    (hbuffer : c.buffers[bufferId]? = some buffer) (hnode : buffer.attachmentNodeId = some nodeId)
    (hmem : nodeId ∈ nodeIds) : bufferId ∈ c.attachedBuffersForNodes nodeIds := by
  refine List.mem_filterMap.mpr ⟨(bufferId, buffer), Table.mem_toList.mpr hbuffer, ?_⟩
  have hid : buffer.id = bufferId := hc.buffer_id hbuffer
  simp [hnode, hmem, hid]

theorem syncViewState_tables (resetHints : Bool) (c : ClientState) (nodeId : NodeId) :
    (syncViewState resetHints c nodeId).tables = c.tables := by
  unfold syncViewState
  split <;> rfl

theorem syncViewStatesForNodes_tables (c : ClientState) (nodeIds : List NodeId)
    (resetHints : Bool) : (c.syncViewStatesForNodes nodeIds resetHints).tables = c.tables := by
  unfold syncViewStatesForNodes
  induction nodeIds.dedup generalizing c with
  | nil => rfl
  | cons nodeId nodeIds ih => exact (ih _).trans (syncViewState_tables resetHints c nodeId)

theorem detachFrom_detachFrom (nodeIds : List NodeId) (buffer : Protocol.BufferRecord) :
    detachFrom nodeIds (detachFrom nodeIds buffer) = detachFrom nodeIds buffer := by
  unfold detachFrom
  split <;> simp_all

theorem detachFrom_id (nodeIds : List NodeId) (buffer : Protocol.BufferRecord) :
    (detachFrom nodeIds buffer).id = buffer.id := by
  unfold detachFrom
  split <;> rfl

/-! ## One snapshot -/

variable {c : ClientState} {S : ServerTables} {snapshot : SessionSnapshot}

theorem applySessionSnapshot_sessions (c : ClientState) (snapshot : SessionSnapshot)
    (id : SessionId) : (c.applySessionSnapshot snapshot).sessions[id]? =
      if snapshot.session.id = id then some snapshot.session else c.sessions[id]? := by
  have h : (c.applySessionSnapshot snapshot).sessions =
      c.sessions.insert snapshot.session.id snapshot.session :=
    congrArg Tables.sessions (syncViewStatesForNodes_tables _ _ _)
  rw [h, Table.get?_insert]

theorem applySessionSnapshot_nodes (h : S.Snapshot snapshot) (c : ClientState) (id : NodeId) :
    (c.applySessionSnapshot snapshot).nodes[id]? =
      if S.sessionOf id = some snapshot.session.id then S.nodes[id]?
      else c.nodes[id]?.filter (·.sessionId ≠ snapshot.session.id) := by
  refine Eq.trans ?_ (Table.get?_insertAll_owned S.keyed.node_id h.nodes c.nodes id)
  exact congrArg (fun t : Tables ↦ t.nodes[id]?) (syncViewStatesForNodes_tables _ _ _)

theorem applySessionSnapshot_floating (h : S.Snapshot snapshot) (c : ClientState)
    (id : FloatingId) : (c.applySessionSnapshot snapshot).floating[id]? =
      if S.floating[id]?.map (·.sessionId) = some snapshot.session.id then S.floating[id]?
      else c.floating[id]?.filter (·.sessionId ≠ snapshot.session.id) := by
  refine Eq.trans ?_ (Table.get?_insertAll_owned S.keyed.floating_id h.floating c.floating id)
  exact congrArg (fun t : Tables ↦ t.floating[id]?) (syncViewStatesForNodes_tables _ _ _)

/-- A buffer the snapshot lists is taken from it; any other is detached if a node of the session
showed it. -/
theorem applySessionSnapshot_buffers (hc : c.tables.Keyed) (h : S.Snapshot snapshot)
    (id : BufferId) : (c.applySessionSnapshot snapshot).buffers[id]? =
      if S.buffers[id]?.any fun buffer ↦
        buffer.attachmentNodeId.bind S.sessionOf = some snapshot.session.id then S.buffers[id]?
      else c.buffers[id]?.map (detachFrom (c.sessionNodeIds snapshot.session.id)) := by
  have happly : (c.applySessionSnapshot snapshot).buffers =
      ((c.buffers.insertAll (·.id) snapshot.buffers).modifyAll
        (detachFrom (c.sessionNodeIds snapshot.session.id))
        ((c.attachedBuffersForNodes (c.sessionNodeIds snapshot.session.id)).filter
          (· ∉ snapshot.buffers.map (·.id)))) :=
    congrArg Tables.buffers (syncViewStatesForNodes_tables _ _ _)
  rw [happly, Table.get?_modifyAll (detachFrom_detachFrom _)]
  by_cases hlisted : id ∈ snapshot.buffers.map (·.id)
  · obtain ⟨buffer, hmem, rfl⟩ := List.mem_map.mp hlisted
    obtain ⟨hbuffer, hshown⟩ := (h.buffers buffer).mp hmem
    have hnot : buffer.id ∉ (c.attachedBuffersForNodes (c.sessionNodeIds snapshot.session.id)).filter
        (· ∉ snapshot.buffers.map (·.id)) := by
      intro hin
      exact of_decide_eq_true (List.mem_filter.mp hin).2 hlisted
    rw [if_neg hnot, if_pos (by rw [hbuffer]; exact decide_eq_true hshown), hbuffer]
    refine Table.get?_insertAll_of_mem hmem ?_ _
    intro other hother hid
    have hother' := ((h.buffers other).mp hother).1
    rw [hid, hbuffer] at hother'
    exact (Option.some.inj hother').symm
  · have hcond : ¬ (S.buffers[id]?.any fun buffer ↦
        buffer.attachmentNodeId.bind S.sessionOf = some snapshot.session.id) = true := by
      intro hany
      obtain ⟨buffer, hbuffer, hshown⟩ := (Option.any_eq_true _ _).mp hany
      have hid : buffer.id = id := S.keyed.buffer_id hbuffer
      subst hid
      exact hlisted (List.mem_map_of_mem
        ((h.buffers buffer).mpr ⟨hbuffer, of_decide_eq_true hshown⟩))
    rw [if_neg hcond, Table.get?_insertAll_of_notMem hlisted, ite_eq_left_iff]
    -- A buffer that is not counted to the session's nodes has nothing to lose.
    intro hnot
    rcases hbuffer : c.buffers[id]? with _ | buffer
    · rfl
    · refine congrArg some (Eq.symm (if_neg ?_))
      intro hany
      obtain ⟨nodeId, hnode, hin⟩ := (Option.any_eq_true _ _).mp hany
      refine hnot (List.mem_filter.mpr ⟨?_, decide_eq_true hlisted⟩)
      exact mem_attachedBuffersForNodes hc hbuffer hnode (of_decide_eq_true hin)

/-! ## The other steps -/

theorem removeSession_sessions (c : ClientState) (sessionId id : SessionId) :
    (c.removeSession sessionId).sessions[id]? =
      if sessionId = id then none else c.sessions[id]? :=
  Table.get?_erase c.sessions sessionId id

theorem removeSession_nodes (c : ClientState) (sessionId : SessionId) (id : NodeId) :
    (c.removeSession sessionId).nodes[id]? = c.nodes[id]?.filter (·.sessionId ≠ sessionId) :=
  Table.get?_filter c.nodes _ id

theorem removeSession_floating (c : ClientState) (sessionId : SessionId) (id : FloatingId) :
    (c.removeSession sessionId).floating[id]? =
      c.floating[id]?.filter (·.sessionId ≠ sessionId) :=
  Table.get?_filter c.floating _ id

theorem removeSession_buffers (c : ClientState) (sessionId : SessionId) (id : BufferId) :
    (c.removeSession sessionId).buffers[id]? =
      c.buffers[id]?.map (detachFrom (c.sessionNodeIds sessionId)) :=
  Std.ExtTreeMap.getElem?_map

theorem foldl_removeBuffer (c : ClientState) (ids : List BufferId) :
    (ids.foldl removeBuffer c).tables =
      { c.tables with buffers := c.buffers.eraseAll ids } := by
  induction ids generalizing c with
  | nil => rfl
  | cons id ids ih => exact ih (c.removeBuffer id)

end ClientState

/-! ## Records stay under their ids -/

namespace Tables.Keyed

variable {t : Tables}

/-- Other sessions' records, under their ids and with no session lost. -/
theorem setSessions (h : t.Keyed) {sessions : Table SessionId SessionRecord}
    (hid : ∀ {id : SessionId} {session : SessionRecord}, sessions[id]? = some session →
      session.id = id)
    (hkept : ∀ id : SessionId, t.sessions[id]?.isSome → sessions[id]?.isSome) :
    ({ t with sessions } : Tables).Keyed where
  session_id := hid
  node_id := h.node_id
  floating_id := h.floating_id
  buffer_id := h.buffer_id
  node_session hnode := hkept _ (h.node_session hnode)
  floating_session hwindow := hkept _ (h.floating_session hwindow)

theorem setBuffers (h : t.Keyed) {buffers : Table BufferId Protocol.BufferRecord}
    (hid : ∀ {id : BufferId} {buffer : Protocol.BufferRecord}, buffers[id]? = some buffer →
      buffer.id = id) : ({ t with buffers } : Tables).Keyed :=
  { h with buffer_id := hid }

theorem insertSession (h : t.Keyed) (session : SessionRecord) {id : SessionId}
    (hid : session.id = id) :
    ({ t with sessions := t.sessions.insert id session } : Tables).Keyed := by
  apply h.setSessions
  · intro id' session' hsession
    rw [Table.get?_insert] at hsession
    split at hsession
    next hid' =>
      obtain rfl : session = session' := Option.some.inj hsession
      exact hid.trans hid'
    next => exact h.session_id hsession
  · intro id' hsome
    rw [Table.get?_insert]
    split
    · rfl
    · exact hsome

theorem insertBuffer (h : t.Keyed) (buffer : Protocol.BufferRecord) :
    ({ t with buffers := t.buffers.insert buffer.id buffer } : Tables).Keyed := by
  apply h.setBuffers
  intro id buffer' hbuffer
  rw [Table.get?_insert] at hbuffer
  split at hbuffer
  next hid =>
    obtain rfl : buffer = buffer' := Option.some.inj hbuffer
    exact hid
  next => exact h.buffer_id hbuffer

theorem modifyBuffer (h : t.Keyed) (id : BufferId) {f : Protocol.BufferRecord → Protocol.BufferRecord}
    (hf : ∀ buffer, (f buffer).id = buffer.id) :
    ({ t with buffers := t.buffers.modify id f } : Tables).Keyed := by
  apply h.setBuffers
  intro id' buffer hbuffer
  rw [Table.get?_modify] at hbuffer
  split at hbuffer
  next =>
    obtain ⟨old, hold, rfl⟩ := Option.map_eq_some_iff.mp hbuffer
    exact (hf old).trans (h.buffer_id hold)
  next => exact h.buffer_id hbuffer

theorem modifyFloating (h : t.Keyed) (id : FloatingId) {f : FloatingRecord → FloatingRecord}
    (hid : ∀ window, (f window).id = window.id)
    (hsession : ∀ window, (f window).sessionId = window.sessionId) :
    ({ t with floating := t.floating.modify id f } : Tables).Keyed := by
  have hold : ∀ {id' : FloatingId} {window : FloatingRecord},
      (t.floating.modify id f)[id']? = some window →
        window.id = id' ∧ t.sessions[window.sessionId]?.isSome := by
    intro id' window hwindow
    rw [Table.get?_modify] at hwindow
    split at hwindow
    next =>
      obtain ⟨old, hold, rfl⟩ := Option.map_eq_some_iff.mp hwindow
      exact ⟨(hid old).trans (h.floating_id hold), hsession old ▸ h.floating_session hold⟩
    next => exact ⟨h.floating_id hwindow, h.floating_session hwindow⟩
  exact { h with
    floating_id := fun hwindow ↦ (hold hwindow).1
    floating_session := fun hwindow ↦ (hold hwindow).2 }

end Tables.Keyed

namespace ClientState

variable {c : ClientState}

theorem keyed_removeSession (hc : c.tables.Keyed) (sessionId : SessionId) :
    (c.removeSession sessionId).tables.Keyed where
  session_id {id session} h := by
    have h' : (c.removeSession sessionId).sessions[id]? = some session := h
    rw [removeSession_sessions] at h'
    split at h'
    next => cases h'
    next => exact hc.session_id h'
  node_id {id node} h := by
    have h' : (c.removeSession sessionId).nodes[id]? = some node := h
    rw [removeSession_nodes] at h'
    exact hc.node_id (Option.filter_eq_some_iff.mp h').1
  floating_id {id window} h := by
    have h' : (c.removeSession sessionId).floating[id]? = some window := h
    rw [removeSession_floating] at h'
    exact hc.floating_id (Option.filter_eq_some_iff.mp h').1
  buffer_id {id buffer} h := by
    have h' : (c.removeSession sessionId).buffers[id]? = some buffer := h
    rw [removeSession_buffers] at h'
    obtain ⟨old, hold, rfl⟩ := Option.map_eq_some_iff.mp h'
    exact (detachFrom_id _ old).trans (hc.buffer_id hold)
  node_session {id node} h := by
    have h' : (c.removeSession sessionId).nodes[id]? = some node := h
    rw [removeSession_nodes] at h'
    obtain ⟨hnode, hne⟩ := Option.filter_eq_some_iff.mp h'
    change (c.removeSession sessionId).sessions[node.sessionId]?.isSome
    rw [removeSession_sessions, if_neg (Ne.symm (of_decide_eq_true hne))]
    exact hc.node_session hnode
  floating_session {id window} h := by
    have h' : (c.removeSession sessionId).floating[id]? = some window := h
    rw [removeSession_floating] at h'
    obtain ⟨hwindow, hne⟩ := Option.filter_eq_some_iff.mp h'
    change (c.removeSession sessionId).sessions[window.sessionId]?.isSome
    rw [removeSession_sessions, if_neg (Ne.symm (of_decide_eq_true hne))]
    exact hc.floating_session hwindow

theorem keyed_applySessionSnapshot (hc : c.tables.Keyed) {S : ServerTables}
    {snapshot : SessionSnapshot} (h : S.Snapshot snapshot) :
    (c.applySessionSnapshot snapshot).tables.Keyed := by
  -- The snapshot's own session is there afterwards, and no other is lost.
  have hsome : ∀ id : SessionId, id = snapshot.session.id ∨ c.sessions[id]?.isSome →
      (c.applySessionSnapshot snapshot).sessions[id]?.isSome := by
    intro id hid
    rw [applySessionSnapshot_sessions]
    split
    next => rfl
    next hne => exact hid.resolve_left (Ne.symm hne)
  have hnodes : ∀ {id : NodeId} {node : NodeRecord},
      (c.applySessionSnapshot snapshot).nodes[id]? = some node →
        node.id = id ∧ (c.applySessionSnapshot snapshot).sessions[node.sessionId]?.isSome := by
    intro id node hnode
    rw [applySessionSnapshot_nodes h] at hnode
    split at hnode
    next howner =>
      refine ⟨S.keyed.node_id hnode, hsome _ (.inl ?_)⟩
      rw [ServerTables.sessionOf, hnode] at howner
      exact Option.some.inj howner
    next =>
      have hold := (Option.filter_eq_some_iff.mp hnode).1
      exact ⟨hc.node_id hold, hsome _ (.inr (hc.node_session hold))⟩
  have hfloating : ∀ {id : FloatingId} {window : FloatingRecord},
      (c.applySessionSnapshot snapshot).floating[id]? = some window →
        window.id = id ∧ (c.applySessionSnapshot snapshot).sessions[window.sessionId]?.isSome := by
    intro id window hwindow
    rw [applySessionSnapshot_floating h] at hwindow
    split at hwindow
    next howner =>
      refine ⟨S.keyed.floating_id hwindow, hsome _ (.inl ?_)⟩
      rw [hwindow] at howner
      exact Option.some.inj howner
    next =>
      have hold := (Option.filter_eq_some_iff.mp hwindow).1
      exact ⟨hc.floating_id hold, hsome _ (.inr (hc.floating_session hold))⟩
  constructor
  case session_id =>
    intro id session hsession
    have h' : (c.applySessionSnapshot snapshot).sessions[id]? = some session := hsession
    rw [applySessionSnapshot_sessions] at h'
    split at h'
    next hid =>
      obtain rfl : snapshot.session = session := Option.some.inj h'
      exact hid
    next => exact hc.session_id h'
  case node_id => exact fun hnode ↦ (hnodes hnode).1
  case floating_id => exact fun hwindow ↦ (hfloating hwindow).1
  case node_session => exact fun hnode ↦ (hnodes hnode).2
  case floating_session => exact fun hwindow ↦ (hfloating hwindow).2
  case buffer_id =>
    intro id buffer hbuffer
    have h' : (c.applySessionSnapshot snapshot).buffers[id]? = some buffer := hbuffer
    rw [applySessionSnapshot_buffers hc h] at h'
    split at h'
    next => exact S.keyed.buffer_id h'
    next =>
      obtain ⟨old, hold, rfl⟩ := Option.map_eq_some_iff.mp h'
      exact (detachFrom_id _ old).trans (hc.buffer_id hold)

theorem applyDetachedBuffers_tables (c : ClientState) (buffers : List Protocol.BufferRecord) :
    (c.applyDetachedBuffers buffers).tables =
      { c.tables with
        buffers := (c.buffers.eraseAll
          (c.detachedIds.filter (· ∉ buffers.map (·.id)))).insertAll (·.id) buffers } := by
  have h := foldl_removeBuffer c (c.detachedIds.filter (· ∉ buffers.map (·.id)))
  exact congrArg (fun t : Tables ↦ { t with buffers := t.buffers.insertAll (·.id) buffers }) h

theorem keyed_applyDetachedBuffers (hc : c.tables.Keyed) (buffers : List Protocol.BufferRecord) :
    (c.applyDetachedBuffers buffers).tables.Keyed := by
  rw [applyDetachedBuffers_tables]
  apply hc.setBuffers
  intro id buffer hbuffer
  rcases Table.get?_insertAll_eq_some hbuffer with hid | hold
  · exact hid
  · rw [Table.get?_eraseAll] at hold
    split at hold
    next => cases hold
    next => exact hc.buffer_id hold

theorem keyed_removeBuffer (hc : c.tables.Keyed) (bufferId : BufferId) :
    (c.removeBuffer bufferId).tables.Keyed := by
  apply hc.setBuffers
  intro id buffer hbuffer
  have h' : (c.buffers.erase bufferId)[id]? = some buffer := hbuffer
  rw [Table.get?_erase] at h'
  split at h'
  next => cases h'
  next => exact hc.buffer_id h'

theorem keyed_applyBufferSnapshot (hc : c.tables.Keyed) (snapshot : VisibleSnapshotResponse) :
    (c.applyBufferSnapshot snapshot).tables.Keyed := by
  have h : (c.applyBufferSnapshot snapshot).tables =
      { c.tables with buffers := c.buffers.modify snapshot.bufferId fun buffer ↦
        { buffer with
          lastSnapshotSeq := snapshot.sequence
          ptySize := snapshot.size
          title := snapshot.title.getD buffer.title
          cwd := snapshot.cwd.or buffer.cwd } } :=
    syncViewStatesForNodes_tables _ _ _
  rw [h]
  exact hc.modifyBuffer _ fun _ ↦ rfl

theorem keyed_focusFloating {t : Tables} (ht : t.Keyed) (ids : List FloatingId)
    (focused : Option FloatingId) :
    ({ t with floating := ids.foldl (fun windows floatingId ↦ windows.modify floatingId fun window ↦
      { window with focused := decide (some floatingId = focused) }) t.floating } : Tables).Keyed := by
  induction ids generalizing t with
  | nil => exact ht
  | cons id ids ih =>
    exact ih (ht.modifyFloating id
      (f := fun window ↦ { window with focused := decide (some id = focused) })
      (fun _ ↦ rfl) fun _ ↦ rfl)

theorem keyed_applyEvent (hc : c.tables.Keyed) (event : ServerEvent) :
    (c.applyEvent event).tables.Keyed := by
  cases event with
  | sessionCreated session => exact hc.insertSession session rfl
  | sessionClosed sessionId => exact keyed_removeSession hc sessionId
  | sessionRenamed sessionId name =>
    simp only [applyEvent]
    split
    · apply hc.setSessions
      · intro id session hsession
        rw [Table.get?_modify] at hsession
        split at hsession
        next =>
          obtain ⟨old, hold, rfl⟩ := Option.map_eq_some_iff.mp hsession
          have hid : old.id = id := hc.session_id hold
          exact hid
        next => exact hc.session_id hsession
      · intro id hsome
        rw [Table.get?_modify]
        split
        next => rw [Option.isSome_map]; exact hsome
        next => exact hsome
    · exact hc
  | bufferCreated buffer => exact hc.insertBuffer buffer
  | bufferPipeChanged _ buffer => exact hc.insertBuffer buffer
  | bufferDetached bufferId => exact hc.modifyBuffer bufferId fun _ ↦ rfl
  | nodeChanged _ => exact hc
  | floatingChanged _ _ => exact hc
  | focusChanged sessionId leaf floating =>
    simp only [applyEvent]
    split
    · exact hc
    next session hsession =>
      have hid : session.id = sessionId := hc.session_id hsession
      have hsessions := hc.insertSession
        { session with focusedLeafId := leaf, focusedFloatingId := floating } hid
      exact keyed_focusFloating hsessions session.floatingIds floating
  | renderInvalidated _ => exact hc
  | clientChanged => exact hc
  | clipboard => exact hc
  | displayMessage => exact hc
  | passthrough => exact hc
  | serverShutdown => exact hc

theorem keyed_applyNews (hc : c.tables.Keyed) {news : News} (hnews : news.Sent) :
    (c.applyNews news).tables.Keyed := by
  cases news with
  | event event => exact keyed_applyEvent hc event
  | sessionSnapshot snapshot =>
    obtain ⟨S, hS⟩ := hnews
    exact keyed_applySessionSnapshot hc hS
  | sessionGone sessionId => exact keyed_removeSession hc sessionId
  | bufferRecord buffer => exact hc.insertBuffer buffer
  | visibleSnapshot snapshot => exact keyed_applyBufferSnapshot hc snapshot
  | bufferGone bufferId => exact keyed_removeBuffer hc bufferId
  | detachedBuffers buffers => exact keyed_applyDetachedBuffers hc buffers

theorem keyed_empty : ClientState.empty.tables.Keyed := by
  constructor <;> simp [ClientState.empty, ClientState.tables]

end ClientState

theorem Reachable.keyed {c : ClientState} (h : Reachable c) : c.tables.Keyed := by
  induction h with
  | empty => exact ClientState.keyed_empty
  | news _ hnews ih => exact ClientState.keyed_applyNews ih hnews

end Embers.Client
