import Embers.Client.Resync

/-!
# What a full resync leaves

Sessions, nodes and floating windows are the server's afterwards: what the client has of a live
session is replaced by that session's snapshot, and what it has of the others goes with them.

A buffer's record is followed through the same steps. One the server has is set by the one snapshot
or by the list that names it. One the server does not have stays as it is as long as no step reaches
it (`applySnapshots_kept`) and loses its attachment at the step that does (`applySnapshots_cleared`);
the list of detached buffers then removes it. `resyncAllSessions_tables_iff` puts the two together.
-/

namespace Embers.Client

open Embers.Protocol

/-! ## Dropping the sessions that are gone -/

namespace ClientState

variable {c : ClientState} {S : ServerTables}

/-- The client without the sessions that are not live. -/
def dropSessions (c : ClientState) (ids : List SessionId) : ClientState := ids.foldl removeSession c

theorem keyed_dropSessions (hc : c.tables.Keyed) (ids : List SessionId) :
    (c.dropSessions ids).tables.Keyed := by
  induction ids generalizing c with
  | nil => exact hc
  | cons id ids ih => exact ih (keyed_removeSession hc id)

theorem dropSessions_sessions (c : ClientState) (ids : List SessionId) (id : SessionId) :
    (c.dropSessions ids).sessions[id]? = if id ∈ ids then none else c.sessions[id]? := by
  induction ids generalizing c with
  | nil => rfl
  | cons id' ids ih =>
    refine (ih (c.removeSession id')).trans ?_
    rw [removeSession_sessions]
    by_cases hid : id' = id
    · simp [hid]
    · simp [hid, Ne.symm hid]

theorem dropSessions_nodes (c : ClientState) (ids : List SessionId) (id : NodeId) :
    (c.dropSessions ids).nodes[id]? = c.nodes[id]?.filter (·.sessionId ∉ ids) := by
  induction ids generalizing c with
  | nil => cases h : c.nodes[id]? <;> simp [dropSessions, h, Option.filter]
  | cons id' ids ih =>
    refine (ih (c.removeSession id')).trans ?_
    rw [removeSession_nodes, Option.filter_filter]
    congr 1
    funext node
    simp

theorem dropSessions_floating (c : ClientState) (ids : List SessionId) (id : FloatingId) :
    (c.dropSessions ids).floating[id]? = c.floating[id]?.filter (·.sessionId ∉ ids) := by
  induction ids generalizing c with
  | nil => cases h : c.floating[id]? <;> simp [dropSessions, h, Option.filter]
  | cons id' ids ih =>
    refine (ih (c.removeSession id')).trans ?_
    rw [removeSession_floating, Option.filter_filter]
    congr 1
    funext window
    simp

theorem detachFrom_eq_self {nodeIds : List NodeId} {buffer : Protocol.BufferRecord}
    (h : ∀ nodeId, buffer.attachmentNodeId = some nodeId → nodeId ∉ nodeIds) :
    detachFrom nodeIds buffer = buffer := by
  refine if_neg ?_
  intro hany
  obtain ⟨nodeId, hnode, hmem⟩ := (Option.any_eq_true _ _).mp hany
  exact h nodeId hnode (of_decide_eq_true hmem)

theorem detachFrom_of_mem {nodeIds : List NodeId} {buffer : Protocol.BufferRecord} {nodeId : NodeId}
    (hnode : buffer.attachmentNodeId = some nodeId) (hmem : nodeId ∈ nodeIds) :
    detachFrom nodeIds buffer = { buffer with attachmentNodeId := none } := by
  refine if_pos ?_
  rw [hnode]
  exact decide_eq_true hmem

/-- The record of a buffer is out of reach of the sessions `ids`: the client counts the node it is
attached to, if it has it, to another session. -/
def OutOfReach (c : ClientState) (ids : List SessionId) (buffer : Protocol.BufferRecord) : Prop :=
  ∀ nodeId, buffer.attachmentNodeId = some nodeId →
    ∀ node, c.nodes[nodeId]? = some node → node.sessionId ∉ ids

theorem OutOfReach.detachFrom_eq (hc : c.tables.Keyed) {ids : List SessionId}
    {buffer : Protocol.BufferRecord} (h : c.OutOfReach ids buffer) {id : SessionId} (hid : id ∈ ids) :
    detachFrom (c.sessionNodeIds id) buffer = buffer := by
  apply detachFrom_eq_self
  intro nodeId hnode hmem
  obtain ⟨node, hget, hsession⟩ := (mem_sessionNodeIds hc).mp hmem
  exact h nodeId hnode node hget (hsession ▸ hid)

theorem dropSessions_kept (hc : c.tables.Keyed) {ids : List SessionId} {bufferId : BufferId}
    {buffer : Protocol.BufferRecord} (hbuffer : c.buffers[bufferId]? = some buffer)
    (h : c.OutOfReach ids buffer) : (c.dropSessions ids).buffers[bufferId]? = some buffer := by
  induction ids generalizing c with
  | nil => exact hbuffer
  | cons id ids ih =>
    refine ih (keyed_removeSession hc id) ?_ ?_
    · rw [removeSession_buffers, hbuffer, Option.map_some,
        h.detachFrom_eq hc List.mem_cons_self]
    · intro nodeId hnode node hget hmem
      rw [removeSession_nodes] at hget
      exact h nodeId hnode node (Option.filter_eq_some_iff.mp hget).1 (List.mem_cons_of_mem id hmem)

theorem dropSessions_cleared (hc : c.tables.Keyed) {ids : List SessionId} {bufferId : BufferId}
    {buffer : Protocol.BufferRecord} (hbuffer : c.buffers[bufferId]? = some buffer) {nodeId : NodeId}
    (hnode : buffer.attachmentNodeId = some nodeId) {node : NodeRecord}
    (hget : c.nodes[nodeId]? = some node) (hmem : node.sessionId ∈ ids) :
    (c.dropSessions ids).buffers[bufferId]? = some { buffer with attachmentNodeId := none } := by
  induction ids generalizing c with
  | nil => cases hmem
  | cons id ids ih =>
    have hremoved := removeSession_buffers c id bufferId
    rw [hbuffer, Option.map_some] at hremoved
    by_cases hid : node.sessionId = id
    · rw [detachFrom_of_mem hnode ((mem_sessionNodeIds hc).mpr ⟨node, hget, hid⟩)] at hremoved
      exact dropSessions_kept (keyed_removeSession hc id) hremoved fun _ h ↦ nomatch h
    · refine ih (keyed_removeSession hc id) ?_ ?_ ((List.mem_cons.mp hmem).resolve_left hid)
      · rw [hremoved, detachFrom_eq_self]
        intro nodeId' hnode' hmem'
        obtain rfl : nodeId = nodeId' := Option.some.inj (hnode.symm.trans hnode')
        obtain ⟨node', hget', hsession⟩ := (mem_sessionNodeIds hc).mp hmem'
        obtain rfl : node = node' := Option.some.inj (hget.symm.trans hget')
        exact hid hsession
      · rw [removeSession_nodes, hget]
        exact Option.filter_eq_some_iff.mpr ⟨rfl, decide_eq_true hid⟩

theorem dropSessions_absent {ids : List SessionId} {bufferId : BufferId}
    (hbuffer : c.buffers[bufferId]? = none) : (c.dropSessions ids).buffers[bufferId]? = none := by
  induction ids generalizing c with
  | nil => exact hbuffer
  | cons id ids ih =>
    refine ih ?_
    rw [removeSession_buffers, hbuffer, Option.map_none]

/-! ## Applying the snapshots -/

/-- The client after one snapshot of each session of the list. -/
def applySnapshots (c : ClientState) (snapshots : List SessionSnapshot) : ClientState :=
  snapshots.foldl (fun c snapshot ↦
    (c.markDirty snapshot.session.id).applySessionSnapshot snapshot) c

theorem applySnapshots_append (c : ClientState) (l l' : List SessionSnapshot) :
    c.applySnapshots (l ++ l') = (c.applySnapshots l).applySnapshots l' :=
  List.foldl_append

variable {snapshots : List SessionSnapshot}

theorem keyed_applySnapshots (hc : c.tables.Keyed)
    (h : ∀ snapshot ∈ snapshots, S.Snapshot snapshot) :
    (c.applySnapshots snapshots).tables.Keyed := by
  induction snapshots generalizing c with
  | nil => exact hc
  | cons snapshot snapshots ih =>
    rw [List.forall_mem_cons] at h
    refine ih ?_ h.2
    exact keyed_applySessionSnapshot
      (c := c.markDirty snapshot.session.id) hc h.1

theorem applySnapshots_sessions (h : ∀ snapshot ∈ snapshots, S.Snapshot snapshot)
    (c : ClientState) (id : SessionId) : (c.applySnapshots snapshots).sessions[id]? =
      if id ∈ snapshots.map (·.session.id) then S.sessions[id]? else c.sessions[id]? := by
  induction snapshots generalizing c with
  | nil => rfl
  | cons snapshot snapshots ih =>
    rw [List.forall_mem_cons] at h
    refine (ih h.2 _).trans ?_
    rw [applySessionSnapshot_sessions]
    by_cases hid : snapshot.session.id = id
    · simp only [hid, if_true, List.map_cons, List.mem_cons, true_or]
      rw [← hid, h.1.session, ite_self]
    · simp only [hid, if_false, List.map_cons, List.mem_cons, Ne.symm hid, false_or,
        markDirty_sessions]

/-- Nodes of the sessions that were applied are the server's, and the others' are as before. -/
theorem applySnapshots_nodes (h : ∀ snapshot ∈ snapshots, S.Snapshot snapshot)
    (c : ClientState) (id : NodeId) : (c.applySnapshots snapshots).nodes[id]? =
      if (S.sessionOf id).any (· ∈ snapshots.map (·.session.id)) then S.nodes[id]?
      else c.nodes[id]?.filter (·.sessionId ∉ snapshots.map (·.session.id)) := by
  induction snapshots generalizing c with
  | nil =>
    cases hnode : c.nodes[id]? <;> simp [applySnapshots, hnode, Option.filter]
  | cons snapshot snapshots ih =>
    rw [List.forall_mem_cons] at h
    refine (ih h.2 _).trans ?_
    rw [applySessionSnapshot_nodes h.1]
    exact Table.owned_cons NodeRecord.sessionId S.nodes[id]? c.nodes[id]? _ _

theorem applySnapshots_floating (h : ∀ snapshot ∈ snapshots, S.Snapshot snapshot)
    (c : ClientState) (id : FloatingId) : (c.applySnapshots snapshots).floating[id]? =
      if (S.floating[id]?.map (·.sessionId)).any (· ∈ snapshots.map (·.session.id)) then
        S.floating[id]?
      else c.floating[id]?.filter (·.sessionId ∉ snapshots.map (·.session.id)) := by
  induction snapshots generalizing c with
  | nil =>
    cases hwindow : c.floating[id]? <;> simp [applySnapshots, hwindow, Option.filter]
  | cons snapshot snapshots ih =>
    rw [List.forall_mem_cons] at h
    refine (ih h.2 _).trans ?_
    rw [applySessionSnapshot_floating h.1]
    exact Table.owned_cons FloatingRecord.sessionId S.floating[id]? c.floating[id]? _ _

/-- No snapshot of the list lists the buffer. -/
def Unlisted (S : ServerTables) (ids : List SessionId) (bufferId : BufferId) : Prop :=
  ∀ buffer, S.buffers[bufferId]? = some buffer →
    ∀ id, buffer.attachmentNodeId.bind S.sessionOf = some id → id ∉ ids

theorem unlisted_of_gone {bufferId : BufferId} (hgone : S.buffers[bufferId]? = none)
    (ids : List SessionId) : Unlisted S ids bufferId := by
  intro buffer hbuffer
  rw [hgone] at hbuffer
  cases hbuffer

theorem Unlisted.applySessionSnapshot (hc : c.tables.Keyed) {snapshot : SessionSnapshot}
    (h : S.Snapshot snapshot) {ids : List SessionId} {bufferId : BufferId}
    (hout : Unlisted S ids bufferId) (hid : snapshot.session.id ∈ ids) :
    (c.applySessionSnapshot snapshot).buffers[bufferId]? =
      c.buffers[bufferId]?.map (detachFrom (c.sessionNodeIds snapshot.session.id)) := by
  rw [applySessionSnapshot_buffers hc h, if_neg]
  intro hany
  obtain ⟨buffer, hbuffer, hshown⟩ := (Option.any_eq_true _ _).mp hany
  exact hout buffer hbuffer _ (of_decide_eq_true hshown) hid

/-- A record that no snapshot lists and none can reach stays as it is. A node that a snapshot brings
in belongs to that snapshot's session, which no later snapshot is about. -/
theorem applySnapshots_kept (hc : c.tables.Keyed)
    (h : ∀ snapshot ∈ snapshots, S.Snapshot snapshot)
    (honce : (snapshots.map (·.session.id)).Nodup) {bufferId : BufferId}
    {buffer : Protocol.BufferRecord}
    (hbuffer : c.buffers[bufferId]? = some buffer)
    (hout : Unlisted S (snapshots.map (·.session.id)) bufferId)
    (hreach : c.OutOfReach (snapshots.map (·.session.id)) buffer) :
    (c.applySnapshots snapshots).buffers[bufferId]? = some buffer := by
  induction snapshots generalizing c with
  | nil => exact hbuffer
  | cons snapshot snapshots ih =>
    rw [List.forall_mem_cons] at h
    rw [List.map_cons, List.nodup_cons] at honce
    have hfirst := Unlisted.applySessionSnapshot
      (c := c.markDirty snapshot.session.id) hc h.1 hout
      List.mem_cons_self
    refine ih (keyed_applySessionSnapshot
      (c := c.markDirty snapshot.session.id) hc h.1) h.2
      honce.2 ?_ ?_ ?_
    · rw [hfirst, markDirty_buffers, hbuffer, Option.map_some]
      exact congrArg some (hreach.detachFrom_eq hc List.mem_cons_self)
    · exact fun buffer hbuffer id hid hmem ↦
        hout buffer hbuffer id hid (List.mem_cons_of_mem _ hmem)
    · intro nodeId hnode node hget hmem
      rw [applySessionSnapshot_nodes h.1] at hget
      split at hget
      next hsession =>
        rw [ServerTables.sessionOf, hget] at hsession
        exact honce.1 (Option.some.inj hsession ▸ hmem)
      next =>
        exact hreach nodeId hnode node (Option.filter_eq_some_iff.mp hget).1
          (List.mem_cons_of_mem _ hmem)

theorem applySnapshots_absent (hc : c.tables.Keyed)
    (h : ∀ snapshot ∈ snapshots, S.Snapshot snapshot) {bufferId : BufferId}
    (hbuffer : c.buffers[bufferId]? = none) (hgone : S.buffers[bufferId]? = none) :
    (c.applySnapshots snapshots).buffers[bufferId]? = none := by
  induction snapshots generalizing c with
  | nil => exact hbuffer
  | cons snapshot snapshots ih =>
    rw [List.forall_mem_cons] at h
    refine ih (keyed_applySessionSnapshot
      (c := c.markDirty snapshot.session.id) hc h.1) h.2 ?_
    refine ((unlisted_of_gone hgone [snapshot.session.id]).applySessionSnapshot
      (c := c.markDirty snapshot.session.id) hc h.1
      List.mem_cons_self).trans ?_
    rw [markDirty_buffers, hbuffer, Option.map_none]

/-- The snapshots before and after the one of a session. -/
theorem exists_split (honce : (snapshots.map (·.session.id)).Nodup) {id : SessionId}
    (hid : id ∈ snapshots.map (·.session.id)) :
    ∃ before snapshot after, snapshots = before ++ snapshot :: after ∧
      snapshot.session.id = id ∧ id ∉ before.map (·.session.id) ∧
      id ∉ after.map (·.session.id) := by
  obtain ⟨snapshot, hmem, rfl⟩ := List.mem_map.mp hid
  obtain ⟨before, after, rfl⟩ := List.append_of_mem hmem
  rw [List.map_append, List.map_cons, List.nodup_append, List.nodup_cons] at honce
  obtain ⟨-, ⟨hafter, -⟩, hdisjoint⟩ := honce
  refine ⟨before, snapshot, after, rfl, rfl, ?_, hafter⟩
  intro hbefore
  exact hdisjoint _ hbefore _ List.mem_cons_self rfl

/-- What the one snapshot of a session leaves stands, whatever the snapshots around it are: the
client before it, brought to the point where it is applied, and what later snapshots do not reach. -/
theorem applySnapshots_live (hc : c.tables.Keyed) (hS : S.Snapshots snapshots)
    {bufferId : BufferId} {buffer : Protocol.BufferRecord}
    (hbuffer : S.buffers[bufferId]? = some buffer)
    (hattached : buffer.attachmentNodeId.isSome) :
    (c.applySnapshots snapshots).buffers[bufferId]? = some buffer := by
  obtain ⟨nodeId, hnode⟩ := Option.isSome_iff_exists.mp hattached
  obtain ⟨node, hget⟩ := Option.isSome_iff_exists.mp (S.attached hbuffer hnode)
  have hsession : S.sessionOf nodeId = some node.sessionId := by
    rw [ServerTables.sessionOf, hget, Option.map_some]
  have hshown : buffer.attachmentNodeId.bind S.sessionOf = some node.sessionId := by
    rw [hnode, Option.bind_some, hsession]
  have hid := (hS.all _).mp (S.keyed.node_session hget)
  obtain ⟨before, snapshot, after, rfl, hsnapshot, -, hafter⟩ := exists_split hS.once hid
  have heach := hS.each
  rw [List.forall_mem_append, List.forall_mem_cons] at heach
  have hc' := keyed_applySnapshots hc heach.1
  rw [applySnapshots_append]
  refine applySnapshots_kept
    (keyed_applySessionSnapshot (c := (c.applySnapshots before).markDirty snapshot.session.id) hc'
      heach.2.1) heach.2.2 ?_ ?_ ?_ ?_
  · have honce := hS.once
    rw [List.map_append, List.map_cons, List.nodup_append, List.nodup_cons] at honce
    exact honce.2.1.2
  · rw [applySessionSnapshot_buffers (c := (c.applySnapshots before).markDirty snapshot.session.id)
      hc' heach.2.1, if_pos, hbuffer]
    rw [hbuffer]
    exact decide_eq_true (hshown.trans (congrArg some hsnapshot.symm))
  · intro buffer' hbuffer' id hid hmem
    obtain rfl : buffer = buffer' := Option.some.inj (hbuffer.symm.trans hbuffer')
    obtain rfl : node.sessionId = id := Option.some.inj (hshown.symm.trans hid)
    exact hafter hmem
  · intro nodeId' hnode' node' hget' hmem
    obtain rfl : nodeId = nodeId' := Option.some.inj (hnode.symm.trans hnode')
    rw [applySessionSnapshot_nodes heach.2.1, if_pos (hsession.trans (congrArg some hsnapshot.symm)),
      hget] at hget'
    obtain rfl : node = node' := Option.some.inj hget'
    exact hafter hmem

/-- A dead buffer attached to a node the client counts to a live session, in which the node still is
or which it left for none, is detached by that session's snapshot. -/
theorem applySnapshots_cleared (hc : c.tables.Keyed) (hS : S.Snapshots snapshots)
    {bufferId : BufferId} {buffer : Protocol.BufferRecord}
    (hbuffer : c.buffers[bufferId]? = some buffer)
    (hgone : S.buffers[bufferId]? = none) {nodeId : NodeId}
    (hnode : buffer.attachmentNodeId = some nodeId) {node : NodeRecord}
    (hget : c.nodes[nodeId]? = some node) (hlive : S.sessions[node.sessionId]?.isSome)
    (hmoved : ∀ sessionId, S.sessionOf nodeId = some sessionId → sessionId = node.sessionId) :
    (c.applySnapshots snapshots).buffers[bufferId]? =
      some { buffer with attachmentNodeId := none } := by
  obtain ⟨before, snapshot, after, rfl, hsnapshot, hbefore, hafter⟩ :=
    exists_split hS.once ((hS.all _).mp hlive)
  have heach := hS.each
  rw [List.forall_mem_append, List.forall_mem_cons] at heach
  have honce := hS.once
  rw [List.map_append, List.map_cons, List.nodup_append, List.nodup_cons] at honce
  have hunlisted := unlisted_of_gone hgone
  have hc' := keyed_applySnapshots hc heach.1
  rw [applySnapshots_append]
  -- Up to the session's own snapshot both the record and the node it names stay.
  have hkept := applySnapshots_kept hc heach.1 honce.1 hbuffer (hunlisted _) (by
    intro nodeId' hnode' node' hget'
    obtain rfl : nodeId = nodeId' := Option.some.inj (hnode.symm.trans hnode')
    obtain rfl : node = node' := Option.some.inj (hget.symm.trans hget')
    exact hbefore)
  have hnodes : (c.applySnapshots before).nodes[nodeId]? = some node := by
    rw [applySnapshots_nodes heach.1, if_neg, hget]
    · exact Option.filter_eq_some_iff.mpr ⟨rfl, decide_eq_true hbefore⟩
    · intro hany
      obtain ⟨id, hid, hmem⟩ := (Option.any_eq_true _ _).mp hany
      exact hbefore (hmoved id hid ▸ of_decide_eq_true hmem)
  refine applySnapshots_kept
    (keyed_applySessionSnapshot (c := (c.applySnapshots before).markDirty snapshot.session.id) hc'
      heach.2.1) heach.2.2 honce.2.1.2 ?_ (hunlisted _) fun _ h ↦ nomatch h
  refine ((hunlisted [snapshot.session.id]).applySessionSnapshot
    (c := (c.applySnapshots before).markDirty snapshot.session.id) hc' heach.2.1
    List.mem_cons_self).trans ?_
  rw [markDirty_buffers, hkept, Option.map_some, detachFrom_of_mem hnode]
  exact (mem_sessionNodeIds (c := (c.applySnapshots before).markDirty snapshot.session.id) hc').mpr
    ⟨node, hnodes, hsnapshot.symm⟩

/-! ## The detached buffers -/

theorem mem_detachedIds (hc : c.tables.Keyed) {bufferId : BufferId} :
    bufferId ∈ c.detachedIds ↔
      ∃ buffer, c.buffers[bufferId]? = some buffer ∧ buffer.attachmentNodeId = none := by
  constructor
  · intro h
    obtain ⟨⟨id, buffer⟩, hmem, rfl⟩ := List.mem_map.mp h
    obtain ⟨hentry, hdetached⟩ := List.mem_filter.mp hmem
    have hbuffer : c.buffers[id]? = some buffer := Table.mem_toList.mp hentry
    exact ⟨buffer, hc.buffer_id hbuffer ▸ hbuffer, Option.isNone_iff_eq_none.mp hdetached⟩
  · rintro ⟨buffer, hbuffer, hdetached⟩
    refine List.mem_map.mpr ⟨(bufferId, buffer), ?_, hc.buffer_id hbuffer⟩
    exact List.mem_filter.mpr
      ⟨Table.mem_toList.mpr hbuffer, Option.isNone_iff_eq_none.mpr hdetached⟩

/-- The listed buffers are the server's, and of the others the attached ones stay. -/
theorem applyDetachedBuffers_buffers (hc : c.tables.Keyed) {buffers : List Protocol.BufferRecord}
    (h : S.Detached buffers) (id : BufferId) :
    (c.applyDetachedBuffers buffers).buffers[id]? =
      if S.buffers[id]?.any (·.attachmentNodeId.isNone) then S.buffers[id]?
      else c.buffers[id]?.filter (·.attachmentNodeId.isSome) := by
  have htable := congrArg Tables.buffers (applyDetachedBuffers_tables c buffers)
  refine (congrArg (fun t : Table BufferId Protocol.BufferRecord ↦ t[id]?) htable).trans ?_
  by_cases hlisted : id ∈ buffers.map (·.id)
  · obtain ⟨buffer, hmem, rfl⟩ := List.mem_map.mp hlisted
    obtain ⟨hbuffer, hdetached⟩ := (h buffer).mp hmem
    rw [if_pos (by rw [hbuffer]; exact Option.isNone_iff_eq_none.mpr hdetached), hbuffer]
    refine Table.get?_insertAll_of_mem hmem ?_ _
    intro other hother hid
    have hother' := ((h other).mp hother).1
    rw [hid, hbuffer] at hother'
    exact (Option.some.inj hother').symm
  · have hcond : ¬ (S.buffers[id]?.any (·.attachmentNodeId.isNone)) = true := by
      intro hany
      obtain ⟨buffer, hbuffer, hdetached⟩ := (Option.any_eq_true _ _).mp hany
      have hid : buffer.id = id := S.keyed.buffer_id hbuffer
      subst hid
      exact hlisted (List.mem_map_of_mem
        ((h buffer).mpr ⟨hbuffer, Option.isNone_iff_eq_none.mp hdetached⟩))
    rw [if_neg hcond]
    refine (Table.get?_insertAll_of_notMem hlisted _).trans ?_
    rw [Table.get?_eraseAll]
    split
    next hmem =>
      obtain ⟨buffer, hbuffer, hdetached⟩ :=
        (mem_detachedIds hc).mp (List.mem_filter.mp hmem).1
      rw [hbuffer, Option.filter_some, hdetached]
      rfl
    next hmem =>
      rcases hbuffer : c.buffers[id]? with _ | buffer
      · rw [Option.filter_none]
      · rw [Option.filter_some, if_pos]
        rw [Option.isSome_iff_ne_none]
        intro hdetached
        exact hmem (List.mem_filter.mpr
          ⟨(mem_detachedIds hc).mpr ⟨buffer, hbuffer, hdetached⟩, decide_eq_true hlisted⟩)

/-! ## All of it -/

/-- The sessions that are dropped. -/
def goneSessions (c : ClientState) (snapshots : List SessionSnapshot) : List SessionId :=
  c.sessions.keys.filter (· ∉ snapshots.map (·.session.id))

/-- The client before the list of detached buffers arrives. -/
def resynced (c : ClientState) (snapshots : List SessionSnapshot) : ClientState :=
  (c.dropSessions (c.goneSessions snapshots)).applySnapshots snapshots

/-- A session the client has is dropped or has a snapshot. -/
theorem mem_goneSessions_or (snapshots : List SessionSnapshot) {id : SessionId}
    (hid : c.sessions[id]?.isSome) :
    id ∈ c.goneSessions snapshots ∨ id ∈ snapshots.map (·.session.id) := by
  by_cases hmem : id ∈ snapshots.map (·.session.id)
  · exact .inr hmem
  · refine .inl (List.mem_filter.mpr ⟨?_, decide_eq_true hmem⟩)
    exact Table.mem_keys.mpr (Option.isSome_iff_exists.mp hid)

theorem resynced_sessions (hS : S.Snapshots snapshots) (c : ClientState) (id : SessionId) :
    (c.resynced snapshots).sessions[id]? = S.sessions[id]? := by
  rw [resynced, applySnapshots_sessions hS.each]
  split
  next => rfl
  next hid =>
    have hnone : S.sessions[id]? = none := by
      rw [← Option.not_isSome_iff_eq_none, hS.all]
      exact hid
    rw [hnone, dropSessions_sessions, ite_eq_left_iff]
    intro hgone
    rw [← Option.not_isSome_iff_eq_none]
    intro hsome
    exact (mem_goneSessions_or snapshots hsome).elim hgone hid

theorem resynced_nodes (hc : c.tables.Keyed) (hS : S.Snapshots snapshots) (id : NodeId) :
    (c.resynced snapshots).nodes[id]? = S.nodes[id]? := by
  rw [resynced, applySnapshots_nodes hS.each]
  rcases hnode : S.nodes[id]? with _ | node
  · -- What the client has here belongs to a session that is dropped or replaced.
    rw [if_neg (by simp [ServerTables.sessionOf, hnode]), dropSessions_nodes,
      Option.filter_filter, Option.filter_eq_none_iff]
    intro node hget
    have hsession := mem_goneSessions_or snapshots (hc.node_session hget)
    rw [Bool.and_eq_true, decide_eq_true_eq, decide_eq_true_eq]
    exact fun hout ↦ hsession.elim hout.1 hout.2
  · have hid := (hS.all _).mp (S.keyed.node_session hnode)
    rw [if_pos]
    rw [ServerTables.sessionOf, hnode]
    exact decide_eq_true hid

theorem resynced_floating (hc : c.tables.Keyed) (hS : S.Snapshots snapshots) (id : FloatingId) :
    (c.resynced snapshots).floating[id]? = S.floating[id]? := by
  rw [resynced, applySnapshots_floating hS.each]
  rcases hwindow : S.floating[id]? with _ | window
  · rw [if_neg (by simp), dropSessions_floating, Option.filter_filter,
      Option.filter_eq_none_iff]
    intro window hget
    have hsession := mem_goneSessions_or snapshots (hc.floating_session hget)
    rw [Bool.and_eq_true, decide_eq_true_eq, decide_eq_true_eq]
    exact fun hout ↦ hsession.elim hout.1 hout.2
  · have hid := (hS.all _).mp (S.keyed.floating_session hwindow)
    rw [if_pos]
    exact decide_eq_true hid

theorem keyed_resynced (hc : c.tables.Keyed) (hS : S.Snapshots snapshots) :
    (c.resynced snapshots).tables.Keyed :=
  keyed_applySnapshots (keyed_dropSessions hc _) hS.each

/-- A full resync succeeds when no dead buffer is left attached before its last step. -/
theorem resyncAllSessions_tables (hc : c.tables.Keyed) (hS : S.Snapshots snapshots)
    {detached : List Protocol.BufferRecord} (hdetached : S.Detached detached) :
    (c.resyncAllSessions snapshots detached).tables = S.toTables ↔
      ∀ (bufferId : BufferId) (buffer : Protocol.BufferRecord), S.buffers[bufferId]? = none →
        (c.resynced snapshots).buffers[bufferId]? = some buffer →
        buffer.attachmentNodeId = none := by
  have hkeyed := keyed_resynced hc hS
  have hbuffers : ∀ bufferId : BufferId,
      (c.resyncAllSessions snapshots detached).buffers[bufferId]? = _ :=
    applyDetachedBuffers_buffers hkeyed hdetached
  constructor
  · intro htables bufferId buffer hgone hbuffer
    have hfinal := hbuffers bufferId
    have hequal : (c.resyncAllSessions snapshots detached).buffers = S.buffers :=
      congrArg Tables.buffers htables
    rw [hequal, hgone, if_neg (by simp), hbuffer, eq_comm, Option.filter_eq_none_iff] at hfinal
    exact Option.not_isSome_iff_eq_none.mp (hfinal buffer rfl)
  · intro hdead
    have hrest := applyDetachedBuffers_tables (c.resynced snapshots) detached
    have hsessions : (c.resyncAllSessions snapshots detached).sessions = S.sessions := by
      refine (congrArg Tables.sessions hrest).trans (Std.ExtTreeMap.ext_getElem? ?_)
      exact fun id ↦ resynced_sessions hS c id
    have hnodes : (c.resyncAllSessions snapshots detached).nodes = S.nodes := by
      refine (congrArg Tables.nodes hrest).trans (Std.ExtTreeMap.ext_getElem? ?_)
      exact fun id ↦ resynced_nodes hc hS id
    have hfloating : (c.resyncAllSessions snapshots detached).floating = S.floating := by
      refine (congrArg Tables.floating hrest).trans (Std.ExtTreeMap.ext_getElem? ?_)
      exact fun id ↦ resynced_floating hc hS id
    have hall : (c.resyncAllSessions snapshots detached).buffers = S.buffers := by
      apply Std.ExtTreeMap.ext_getElem?
      intro bufferId
      rw [hbuffers]
      rcases hbuffer : S.buffers[bufferId]? with _ | buffer
      · rw [if_neg (by simp), Option.filter_eq_none_iff]
        intro buffer hget
        rw [hdead bufferId buffer hbuffer hget]
        simp
      · rcases hattached : buffer.attachmentNodeId with _ | nodeId
        · rw [if_pos]
          rw [Option.any_some, hattached]
          rfl
        · have hlive : (c.resynced snapshots).buffers[bufferId]? = some buffer :=
            applySnapshots_live (keyed_dropSessions hc _) hS hbuffer (by rw [hattached]; rfl)
          rw [if_neg (by simp [hattached]), hlive, Option.filter_some, if_pos (by rw [hattached]; rfl)]
    calc (c.resyncAllSessions snapshots detached).tables
        = ⟨S.sessions, S.nodes, S.floating, S.buffers⟩ := by
          rw [tables, hsessions, hnodes, hfloating, hall]
      _ = S.toTables := rfl

end ClientState

/-! ## The answers of a server -/

namespace ServerTables

variable {S : ServerTables}

/-- The snapshot of a session, its lists in id order. -/
def snapshotOf (S : ServerTables) (session : SessionRecord) : SessionSnapshot where
  session
  nodes := (S.nodes.toList.map (·.2)).filter (·.sessionId = session.id)
  buffers := (S.buffers.toList.map (·.2)).filter fun buffer ↦
    buffer.attachmentNodeId.bind S.sessionOf = some session.id
  floating := (S.floating.toList.map (·.2)).filter (·.sessionId = session.id)

/-- The buffers no pane shows, in id order. -/
def detachedBuffers (S : ServerTables) : List Protocol.BufferRecord :=
  (S.buffers.toList.map (·.2)).filter (·.attachmentNodeId = none)

theorem snapshot_snapshotOf {session : SessionRecord} (h : S.sessions[session.id]? = some session) :
    S.Snapshot (S.snapshotOf session) where
  session := h
  nodes node := by
    rw [snapshotOf, List.mem_filter, Table.mem_values S.keyed.node_id, decide_eq_true_eq]
  floating window := by
    rw [snapshotOf, List.mem_filter, Table.mem_values S.keyed.floating_id, decide_eq_true_eq]
  buffers buffer := by
    rw [snapshotOf, List.mem_filter, Table.mem_values S.keyed.buffer_id, decide_eq_true_eq]

theorem detached_detachedBuffers (S : ServerTables) : S.Detached S.detachedBuffers := by
  intro buffer
  rw [detachedBuffers, List.mem_filter, Table.mem_values S.keyed.buffer_id, decide_eq_true_eq]

theorem snapshots_map_snapshotOf {sessions : List SessionRecord}
    (h : sessions.Perm (S.sessions.toList.map (·.2))) : S.Snapshots (sessions.map S.snapshotOf) := by
  have hids : (sessions.map S.snapshotOf).map (·.session.id) = sessions.map (·.id) := by
    rw [List.map_map]
    rfl
  have hmem : ∀ session, session ∈ sessions ↔ S.sessions[session.id]? = some session := by
    intro session
    rw [h.mem_iff, Table.mem_values S.keyed.session_id]
  have hkeys : (S.sessions.toList.map (·.2)).map (·.id) = S.sessions.keys := by
    rw [← Std.ExtTreeMap.map_fst_toList_eq_keys, List.map_map]
    apply List.map_congr_left
    rintro ⟨id, session⟩ hentry
    exact S.keyed.session_id (Table.mem_toList.mp hentry)
  constructor
  case each =>
    intro snapshot hsnapshot
    obtain ⟨session, hsession, rfl⟩ := List.mem_map.mp hsnapshot
    exact snapshot_snapshotOf ((hmem session).mp hsession)
  case all =>
    intro id
    rw [hids, (h.map _).mem_iff, hkeys, Table.mem_keys, Option.isSome_iff_exists]
  case once =>
    rw [hids, (h.map _).nodup_iff, hkeys]
    exact Std.ExtTreeMap.nodup_keys

/-- There are answers, and the snapshot of any session may come first. -/
theorem exists_snapshots (S : ServerTables) : ∃ snapshots, S.Snapshots snapshots :=
  ⟨_, snapshots_map_snapshotOf (List.Perm.refl _)⟩

theorem exists_snapshots_cons {id : SessionId} (h : S.sessions[id]?.isSome) :
    ∃ first rest, S.Snapshots (first :: rest) ∧ first.session.id = id := by
  obtain ⟨session, hsession⟩ := Option.isSome_iff_exists.mp h
  have hid : session.id = id := S.keyed.session_id hsession
  subst hid
  have hmem : session ∈ S.sessions.toList.map (·.2) := (Table.mem_values S.keyed.session_id).mpr hsession
  exact ⟨_, _, snapshots_map_snapshotOf (List.perm_cons_erase hmem).symm, rfl⟩

end ServerTables

/-! ## When a resync repairs the client -/

namespace ClientState

variable {c : ClientState} {S : ServerTables} {snapshots : List SessionSnapshot}

theorem notMem_goneSessions (hS : S.Snapshots snapshots) {id : SessionId}
    (hid : S.sessions[id]?.isSome) : id ∉ c.goneSessions snapshots := by
  intro hgone
  exact of_decide_eq_true (List.mem_filter.mp hgone).2 ((hS.all id).mp hid)

/-- Once a dead buffer is detached it stays so. -/
theorem applySnapshots_detached (hc : c.tables.Keyed) (hS : S.Snapshots snapshots)
    {bufferId : BufferId} {buffer : Protocol.BufferRecord}
    (hbuffer : c.buffers[bufferId]? = some buffer)
    (hgone : S.buffers[bufferId]? = none) (hdetached : buffer.attachmentNodeId = none) :
    (c.applySnapshots snapshots).buffers[bufferId]? = some buffer := by
  refine applySnapshots_kept hc hS.each hS.once hbuffer (unlisted_of_gone hgone _) ?_
  intro nodeId hnode
  rw [hdetached] at hnode
  cases hnode

theorem detached_of_traceable (hc : c.tables.Keyed) (hS : S.Snapshots snapshots)
    (h : Traceable c S) {bufferId : BufferId} {buffer : Protocol.BufferRecord}
    (hgone : S.buffers[bufferId]? = none)
    (hbuffer : (c.resynced snapshots).buffers[bufferId]? = some buffer) :
    buffer.attachmentNodeId = none := by
  have hdropped := keyed_dropSessions hc (c.goneSessions snapshots)
  -- Whatever the record was, it comes out detached.
  suffices hout : ∀ old, c.buffers[bufferId]? = some old →
      ∃ new : Protocol.BufferRecord, (c.resynced snapshots).buffers[bufferId]? = some new ∧
        new.attachmentNodeId = none by
    rcases hold : c.buffers[bufferId]? with _ | old
    · rw [resynced, applySnapshots_absent hdropped hS.each (dropSessions_absent hold) hgone] at hbuffer
      cases hbuffer
    · obtain ⟨new, hnew, hnone⟩ := hout old hold
      obtain rfl : new = buffer := Option.some.inj (hnew.symm.trans hbuffer)
      exact hnone
  intro old hold
  rcases hnode : old.attachmentNodeId with _ | nodeId
  · refine ⟨old, applySnapshots_detached hdropped hS ?_ hgone hnode, hnode⟩
    refine dropSessions_kept hc hold fun nodeId hnode' ↦ ?_
    rw [hnode] at hnode'
    cases hnode'
  · obtain ⟨node, hget, hwhere⟩ := h bufferId old nodeId hold hgone hnode
    refine ⟨{ old with attachmentNodeId := none }, ?_, rfl⟩
    by_cases hlive : S.sessions[node.sessionId]?.isSome
    · have hmoved := hwhere.resolve_left (Option.isSome_iff_ne_none.mp hlive)
      have hout := notMem_goneSessions (c := c) hS hlive
      refine applySnapshots_cleared hdropped hS (dropSessions_kept hc hold ?_) hgone hnode ?_ hlive
        hmoved
      · intro nodeId' hnode' node' hget'
        obtain rfl : nodeId = nodeId' := Option.some.inj (hnode.symm.trans hnode')
        obtain rfl : node = node' := Option.some.inj (hget.symm.trans hget')
        exact hout
      · rw [dropSessions_nodes, hget]
        exact Option.filter_eq_some_iff.mpr ⟨rfl, decide_eq_true hout⟩
    · have hsession : node.sessionId ∈ c.goneSessions snapshots := by
        refine (mem_goneSessions_or snapshots (hc.node_session hget)).resolve_right ?_
        rw [← hS.all]
        exact hlive
      exact applySnapshots_detached hdropped hS
        (dropSessions_cleared hc hold hnode hget hsession) hgone rfl

/-- The record of a dead buffer whose node the client does not have outlives every resync. -/
theorem resynced_of_unknown (hc : c.tables.Keyed) (hS : S.Snapshots snapshots)
    {bufferId : BufferId} {buffer : Protocol.BufferRecord}
    (hbuffer : c.buffers[bufferId]? = some buffer)
    (hgone : S.buffers[bufferId]? = none) {nodeId : NodeId}
    (hnode : buffer.attachmentNodeId = some nodeId) (hget : c.nodes[nodeId]? = none) :
    (c.resynced snapshots).buffers[bufferId]? = some buffer := by
  refine applySnapshots_kept (keyed_dropSessions hc _) hS.each hS.once
    (dropSessions_kept hc hbuffer ?_) (unlisted_of_gone hgone _) ?_
  · intro nodeId' hnode' node' hget'
    obtain rfl : nodeId = nodeId' := Option.some.inj (hnode.symm.trans hnode')
    rw [hget] at hget'
    cases hget'
  · intro nodeId' hnode' node' hget'
    obtain rfl : nodeId = nodeId' := Option.some.inj (hnode.symm.trans hnode')
    rw [dropSessions_nodes, hget] at hget'
    cases hget'

/-- The record of a dead buffer whose node has moved between live sessions outlives a resync that
applies the new session's snapshot first. -/
theorem resynced_of_moved (hc : c.tables.Keyed) {first : SessionSnapshot}
    (hS : S.Snapshots (first :: snapshots)) {bufferId : BufferId} {buffer : Protocol.BufferRecord}
    (hbuffer : c.buffers[bufferId]? = some buffer) (hgone : S.buffers[bufferId]? = none)
    {nodeId : NodeId} (hnode : buffer.attachmentNodeId = some nodeId) {node : NodeRecord}
    (hget : c.nodes[nodeId]? = some node) (hlive : S.sessions[node.sessionId]?.isSome)
    (hmoved : S.sessionOf nodeId = some first.session.id)
    (hne : node.sessionId ≠ first.session.id) :
    (c.resynced (first :: snapshots)).buffers[bufferId]? = some buffer := by
  have hdropped := keyed_dropSessions hc (c.goneSessions (first :: snapshots))
  have heach := hS.each
  rw [List.forall_mem_cons] at heach
  have honce := hS.once
  rw [List.map_cons, List.nodup_cons] at honce
  have hout := notMem_goneSessions (c := c) hS hlive
  have hkept : (c.dropSessions (c.goneSessions (first :: snapshots))).buffers[bufferId]? =
      some buffer := by
    refine dropSessions_kept hc hbuffer ?_
    intro nodeId' hnode' node' hget'
    obtain rfl : nodeId = nodeId' := Option.some.inj (hnode.symm.trans hnode')
    obtain rfl : node = node' := Option.some.inj (hget.symm.trans hget')
    exact hout
  have hnodes : (c.dropSessions (c.goneSessions (first :: snapshots))).nodes[nodeId]? =
      some node := by
    rw [dropSessions_nodes, hget]
    exact Option.filter_eq_some_iff.mpr ⟨rfl, decide_eq_true hout⟩
  -- The first snapshot takes the node to its own session, where no later one looks for it.
  refine applySnapshots_kept (keyed_applySessionSnapshot
    (c := (c.dropSessions (c.goneSessions (first :: snapshots))).markDirty first.session.id)
    hdropped heach.1) heach.2 honce.2 ?_ (unlisted_of_gone hgone _) ?_
  · refine ((unlisted_of_gone hgone [first.session.id]).applySessionSnapshot
      (c := (c.dropSessions (c.goneSessions (first :: snapshots))).markDirty first.session.id)
      hdropped heach.1 List.mem_cons_self).trans ?_
    rw [markDirty_buffers, hkept, Option.map_some, detachFrom_eq_self]
    intro nodeId' hnode' hmem
    obtain rfl : nodeId = nodeId' := Option.some.inj (hnode.symm.trans hnode')
    obtain ⟨node', hget', hsession⟩ := (mem_sessionNodeIds
      (c := (c.dropSessions (c.goneSessions (first :: snapshots))).markDirty first.session.id)
      hdropped).mp hmem
    rw [markDirty_nodes, hnodes] at hget'
    obtain rfl : node = node' := Option.some.inj hget'
    exact hne hsession
  · intro nodeId' hnode' node' hget'
    obtain rfl : nodeId = nodeId' := Option.some.inj (hnode.symm.trans hnode')
    rw [applySessionSnapshot_nodes heach.1, if_pos hmoved] at hget'
    rw [ServerTables.sessionOf, hget', Option.map_some] at hmoved
    rw [Option.some.inj hmoved]
    exact honce.1

end ClientState

/-- A full resync makes the client's tables the server's, in whichever order the snapshots are
applied, exactly when the records of dead buffers can be traced. -/
theorem resyncAllSessions_eq_iff_traceable {c : ClientState} (hc : Reachable c) (S : ServerTables) :
    (∀ snapshots detached, S.Snapshots snapshots → S.Detached detached →
      (c.resyncAllSessions snapshots detached).tables = S.toTables) ↔ Traceable c S := by
  have hkeyed := hc.keyed
  constructor
  · intro hall bufferId buffer nodeId hbuffer hgone hnode
    have hdetached : ∀ snapshots, S.Snapshots snapshots →
        (c.resynced snapshots).buffers[bufferId]? ≠ some buffer := by
      intro snapshots hS hkept
      have hsame := hall snapshots S.detachedBuffers hS S.detached_detachedBuffers
      have hnone := (ClientState.resyncAllSessions_tables hkeyed hS
        S.detached_detachedBuffers).mp hsame bufferId buffer hgone hkept
      rw [hnode] at hnone
      cases hnone
    rcases hget : c.nodes[nodeId]? with _ | node
    · obtain ⟨snapshots, hS⟩ := S.exists_snapshots
      exact absurd (ClientState.resynced_of_unknown hkeyed hS hbuffer hgone hnode hget)
        (hdetached snapshots hS)
    · refine ⟨node, rfl, or_iff_not_imp_left.mpr fun hlive sessionId hmoved ↦ ?_⟩
      by_contra hne
      have hsession : S.sessions[sessionId]?.isSome := by
        obtain ⟨node', hget', rfl⟩ := Option.map_eq_some_iff.mp hmoved
        exact S.keyed.node_session hget'
      obtain ⟨first, rest, hS, rfl⟩ := ServerTables.exists_snapshots_cons hsession
      exact hdetached (first :: rest) hS (ClientState.resynced_of_moved hkeyed hS hbuffer hgone hnode
        hget (Option.isSome_iff_ne_none.mpr hlive) hmoved (Ne.symm hne))
  · intro htraceable snapshots detached hS hdetached
    refine (ClientState.resyncAllSessions_tables hkeyed hS hdetached).mpr ?_
    intro bufferId buffer hgone hbuffer
    exact ClientState.detached_of_traceable hkeyed hS htraceable hgone hbuffer

/-! ### A buffer that lived and died between two looks -/

/-- A session with one pane. -/
def oneSession : SessionRecord :=
  ⟨1, "one", 1, [], some 1, none, none, none, none, false⟩

/-- The pane, showing a buffer. -/
def onePane (bufferId : BufferId) : NodeRecord :=
  ⟨1, 1, none, .bufferView, some ⟨bufferId, true, false, true, .new 80 24⟩, none, none, some 1⟩

/-- The record of a running shell. -/
def shell (id : BufferId) (attachmentNodeId : NodeId) : Protocol.BufferRecord :=
  ⟨id, "shell", ["sh"], none, none, .pty, .running, none, some attachmentNodeId, false, none, none,
    .new 80 24, .idle, 0, none, ∅, ∅, none, 0, none⟩

/-- A server whose one pane shows the given buffer. -/
def oneServer (bufferId : BufferId) : ServerTables where
  sessions := (∅ : Table SessionId SessionRecord).insert 1 oneSession
  nodes := (∅ : Table NodeId NodeRecord).insert 1 (onePane bufferId)
  floating := ∅
  buffers := (∅ : Table BufferId Protocol.BufferRecord).insert bufferId (shell bufferId 1)
  keyed := by
    constructor <;> intro id record hrecord
    case floating_id => simp at hrecord
    case floating_session => simp at hrecord
    all_goals
      rw [Table.get?_insert] at hrecord
      split at hrecord
      next hid =>
        subst hid
        obtain rfl := Option.some.inj hrecord
        rfl
      next => simp at hrecord
  attached {id nodeId buffer} hbuffer hnode := by
    rw [Table.get?_insert] at hbuffer
    split at hbuffer
    next =>
      obtain rfl := Option.some.inj hbuffer
      obtain rfl : (1 : NodeId) = nodeId := Option.some.inj hnode
      rw [Table.get?_insert, if_pos rfl]
      rfl
    next => simp at hbuffer

/-- A client that fetched a new pane's buffer before it heard of the pane. -/
def earlyClient : ClientState := ClientState.empty.applyNews (.bufferRecord (shell 2 7))

theorem oneServer_snapshots (bufferId : BufferId) :
    (oneServer bufferId).Snapshots [(oneServer bufferId).snapshotOf oneSession] := by
  have h : [oneSession].Perm ((oneServer bufferId).sessions.toList.map (·.2)) := List.Perm.refl _
  exact ServerTables.snapshots_map_snapshotOf h

/-- The buffer's command exits and the pane goes before the client hears of either. Nothing the
client fetches afterwards names the buffer. -/
theorem early_record_survives :
    Reachable earlyClient ∧
      (oneServer 1).Snapshots [(oneServer 1).snapshotOf oneSession] ∧
      (oneServer 1).Detached (oneServer 1).detachedBuffers ∧
      (earlyClient.resyncAllSessions [(oneServer 1).snapshotOf oneSession]
        (oneServer 1).detachedBuffers).tables ≠ (oneServer 1).toTables := by
  have hc : Reachable earlyClient := .news .empty trivial
  have hS := oneServer_snapshots 1
  have hdetached := (oneServer 1).detached_detachedBuffers
  refine ⟨hc, hS, hdetached, ?_⟩
  intro htables
  have hbuffer : earlyClient.buffers[(2 : BufferId)]? = some (shell 2 7) := rfl
  have hnode : earlyClient.nodes[(7 : NodeId)]? = none := rfl
  have hkept := ClientState.resynced_of_unknown hc.keyed hS hbuffer rfl rfl hnode
  have hnone := (ClientState.resyncAllSessions_tables hc.keyed hS hdetached).mp htables 2 _ rfl hkept
  cases hnone

/-- A client that has seen the pane with the buffer it showed first. -/
def seenClient : ClientState :=
  ClientState.empty.applyNews (.sessionSnapshot ((oneServer 1).snapshotOf oneSession))

theorem reachable_seenClient : Reachable seenClient :=
  .news .empty ⟨oneServer 1, (oneServer_snapshots 1).each _ List.mem_cons_self⟩

theorem traceable_seenClient : Traceable seenClient (oneServer 2) := by
  have hS := (oneServer_snapshots 1).each _ List.mem_cons_self
  intro bufferId buffer nodeId hbuffer _ hnode
  have happly : (ClientState.empty.applySessionSnapshot
      ((oneServer 1).snapshotOf oneSession)).buffers[bufferId]? = some buffer := hbuffer
  rw [ClientState.applySessionSnapshot_buffers ClientState.keyed_empty hS] at happly
  have hone : (oneServer 1).buffers[bufferId]? = some buffer := by
    split at happly
    next => exact happly
    next => simp [ClientState.empty] at happly
  have hshell : buffer = shell 1 1 := by
    refine Option.some.inj (hone.symm.trans ?_)
    refine (Table.get?_insert ∅ 1 bufferId (shell 1 1)).trans (if_pos ?_)
    by_contra hne
    have hnone := (Table.get?_insert ∅ 1 bufferId (shell 1 1)).trans (if_neg hne)
    have hempty := hone.symm.trans hnone
    simp at hempty
  subst hshell
  obtain rfl : (1 : NodeId) = nodeId := Option.some.inj hnode
  refine ⟨onePane 1, rfl, .inr ?_⟩
  intro sessionId hsession
  exact (Option.some.inj hsession).symm

/-- The pane shows another buffer by now, and the client finds that out. -/
theorem resyncAllSessions_seenClient :
    (seenClient.resyncAllSessions [(oneServer 2).snapshotOf oneSession]
      (oneServer 2).detachedBuffers).tables = (oneServer 2).toTables :=
  (resyncAllSessions_eq_iff_traceable reachable_seenClient (oneServer 2)).mpr traceable_seenClient
    _ _ (oneServer_snapshots 2) (oneServer 2).detached_detachedBuffers

end Embers.Client
