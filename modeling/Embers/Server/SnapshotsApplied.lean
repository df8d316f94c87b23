import Embers.Client.SceneTwins
import Embers.State.Validate

/-!
# A client after a session's snapshot

The walk that collects the nodes of a session enters no node twice, and it finds all that is below
the roots. So a client that applies what arrives of a snapshot has the records of the whole session and of
no other node in it (`mirrors_decodeSessionSnapshot`), whatever it had before.
-/

namespace Embers

open Op

namespace ServerState

variable {s : ServerState} {within : NodeId → Prop} {seen mid seen' : Std.ExtTreeSet NodeId}

/-- From the one set of seen nodes to the other, only nodes of a set were added, each with its
children. -/
structure Collected (s : ServerState) (within : NodeId → Prop) (seen seen' : Std.ExtTreeSet NodeId) :
    Prop where
  kept {nodeId : NodeId} (h : nodeId ∈ seen) : nodeId ∈ seen'
  added {nodeId : NodeId} (h : nodeId ∈ seen') : nodeId ∈ seen ∨ within nodeId ∧
    ∀ childId, s.Lists nodeId childId → childId ∈ seen'

theorem Collected.refl (s : ServerState) (within : NodeId → Prop) (seen : Std.ExtTreeSet NodeId) :
    Collected s within seen seen := ⟨id, .inl⟩

theorem Collected.trans (h : Collected s within seen mid) (h' : Collected s within mid seen') :
    Collected s within seen seen' where
  kept hmem := h'.kept (h.kept hmem)
  added hmem := by
    rcases h'.added hmem with hmid | hnew
    · rcases h.added hmid with hseen | ⟨hwithin, hchildren⟩
      · exact .inl hseen
      · exact .inr ⟨hwithin, fun childId hlists ↦ h'.kept (hchildren childId hlists)⟩
    · exact .inr hnew

/-- A loop whose turns each collect the nodes below a root. -/
theorem collected_foldlM {β : Type} (named : β → NodeId → Prop) {l : List β}
    {f : Std.ExtTreeSet NodeId → β → Read (Std.ExtTreeSet NodeId)}
    (hf : ∀ b ∈ l, ∀ seen seen', f seen b = .ok seen' →
      (∀ root, named b root → root ∈ seen') ∧ Collected s within seen seen') :
    ∀ {seen seen' : Std.ExtTreeSet NodeId},
      (l.foldlM f seen : Read (Std.ExtTreeSet NodeId)) = .ok seen' →
        (∀ b ∈ l, ∀ root, named b root → root ∈ seen') ∧ Collected s within seen seen' := by
  induction l with
  | nil =>
    intro seen seen' h
    cases h
    exact ⟨fun b hb ↦ absurd hb List.not_mem_nil, .refl s within seen⟩
  | cons b l ih =>
    intro seen seen' h
    rw [List.foldlM_cons] at h
    obtain ⟨mid, hstep, hrest⟩ := Answer.ok_bind h
    obtain ⟨hroot, hcollected⟩ := hf b List.mem_cons_self seen mid hstep
    obtain ⟨hroots, hcollected'⟩ := ih (fun b' hb' ↦ hf b' (List.mem_cons_of_mem b hb')) hrest
    refine ⟨fun b' hb' root hnamed ↦ ?_, hcollected.trans hcollected'⟩
    rcases List.mem_cons.mp hb' with rfl | hb'
    · exact hcollected'.kept (hroot root hnamed)
    · exact hroots b' hb' root hnamed

theorem collectSubtreeNodes_collected
    (hclosed : ∀ nodeId childId, within nodeId → s.Lists nodeId childId → within childId) :
    ∀ (fuel : ℕ) {rootId : NodeId} {seen seen' : Std.ExtTreeSet NodeId}, within rootId →
      s.collectSubtreeNodes fuel rootId seen = .ok seen' → rootId ∈ seen' ∧ Collected s within seen seen'
  | 0, _, _, _, _, h => by cases h
  | fuel + 1, rootId, seen, seen', hwithin, h => by
    rw [collectSubtreeNodes] at h
    split at h
    next hseen =>
      cases h
      exact ⟨hseen, .refl s within seen⟩
    next =>
      obtain ⟨node, hnode, h⟩ := Answer.ok_bind h
      have hget := node_eq_ok.mp hnode
      have hchild {childId : NodeId} : s.Lists rootId childId ↔ childId ∈ node.childIds := by
        refine ⟨?_, fun hmem ↦ ⟨node, hget, hmem⟩⟩
        rintro ⟨node', hget', hmem⟩
        obtain rfl := Option.some.inj (hget.symm.trans hget')
        exact hmem
      have hturn : ∀ childId ∈ node.childIds, ∀ before after,
          s.collectSubtreeNodes fuel childId before = .ok after →
            (∀ root, childId = root → root ∈ after) ∧ Collected s within before after := by
        intro childId hmem before after hturn
        obtain ⟨hroot, hcollected⟩ := collectSubtreeNodes_collected hclosed fuel
          (hclosed rootId childId hwithin (hchild.mpr hmem)) hturn
        exact ⟨fun root heq ↦ heq ▸ hroot, hcollected⟩
      obtain ⟨hroots, hcollected⟩ := collected_foldlM Eq hturn h
      have hrootMem : rootId ∈ seen' := hcollected.kept Std.ExtTreeSet.mem_insert_self
      refine ⟨hrootMem, fun hmem ↦ hcollected.kept (Std.ExtTreeSet.mem_insert.mpr (.inr hmem)), ?_⟩
      intro nodeId hmem
      rcases hcollected.added hmem with hbefore | hnew
      · rcases Std.ExtTreeSet.mem_insert.mp hbefore with heq | hseen
        · obtain rfl := Std.LawfulEqCmp.eq_of_compare heq
          exact .inr ⟨hwithin, fun childId hlists ↦ hroots childId (hchild.mp hlists) childId rfl⟩
        · exact .inl hseen
      · exact .inr hnew

variable {sessionId : SessionId} {session : Session} {fuel : ℕ}

/-- What is collected for a session is what is in it. -/
theorem mem_sessionNodeIds_iff {nodeIds : List NodeId} (hsession : s.sessions[sessionId]? = some session)
    (h : s.sessionNodeIds fuel sessionId = .ok nodeIds) {nodeId : NodeId} :
    nodeId ∈ nodeIds ↔ Server.InSession s session nodeId := by
  obtain ⟨session', hget, h⟩ := Answer.ok_bind h
  obtain rfl := Option.some.inj (hsession.symm.trans (session_eq_ok.mp hget))
  obtain ⟨mid, hfirst, h⟩ := Answer.ok_bind h
  obtain ⟨seen, hpopups, h⟩ := Answer.ok_bind h
  cases h
  have hclosed : ∀ nodeId childId, Server.InSession s session nodeId → s.Lists nodeId childId →
      Server.InSession s session childId := by
    rintro nodeId childId ⟨root, hroot, hbelow⟩ hlists
    exact ⟨root, hroot, hbelow.tail hlists⟩
  obtain ⟨hroot, hcollected⟩ := collectSubtreeNodes_collected hclosed fuel ⟨_, .inl rfl, .refl⟩ hfirst
  have hturn : ∀ floatingId ∈ session.floating, ∀ before after,
      (do s.collectSubtreeNodes fuel (← s.floatingWindow floatingId).rootNode before) = .ok after →
        (∀ root, s.floating[floatingId]?.map FloatingWindow.rootNode = some root → root ∈ after) ∧
          Collected s (Server.InSession s session) before after := by
    intro floatingId hmem before after hturn
    obtain ⟨floating, hfloating, hturn⟩ := Answer.ok_bind hturn
    have hget := floatingWindow_eq_ok.mp hfloating
    obtain ⟨hroot, hcollected⟩ := collectSubtreeNodes_collected hclosed fuel
      ⟨_, .inr ⟨floatingId, hmem, floating, hget, rfl⟩, .refl⟩ hturn
    refine ⟨fun root heq ↦ ?_, hcollected⟩
    rw [hget, Option.map_some] at heq
    exact Option.some.inj heq ▸ hroot
  obtain ⟨hroots, hcollected'⟩ := collected_foldlM _ hturn hpopups
  have hall := hcollected.trans hcollected'
  rw [Std.ExtTreeSet.mem_toList]
  constructor
  · intro hmem
    rcases hall.added hmem with hempty | ⟨hin, -⟩
    · exact absurd hempty Std.ExtTreeSet.not_mem_empty
    · exact hin
  · rintro ⟨root, hroot', hbelow⟩
    induction hbelow with
    | refl =>
      rcases hroot' with rfl | ⟨floatingId, hmem, floating, hget, rfl⟩
      · exact hcollected'.kept hroot
      · exact hroots floatingId hmem _ (congrArg (Option.map FloatingWindow.rootNode) hget)
    | tail _ hlists ih =>
      rcases hall.added ih with hempty | ⟨-, hchildren⟩
      · exact absurd hempty Std.ExtTreeSet.not_mem_empty
      · exact hchildren _ hlists

end ServerState

namespace Server

open Protocol Client ClientState

variable {s : ServerState} {sessionId : SessionId} {session : Session} {fuel : ℕ}
  {snapshot : SessionSnapshot}

/-! ## What a snapshot has -/

theorem snapshotNode_ok {nodeId : NodeId} {records : List NodeRecord}
    (h : snapshotNode s fuel nodeId = .ok records) : ∃ node leaf record, s.nodes[nodeId]? = some node ∧
      s.resolveFocusCandidate fuel nodeId = .ok leaf ∧ nodeRecord nodeId leaf node = some record ∧
        records = [record] := by
  obtain ⟨node, hnode, h⟩ := Answer.ok_bind h
  obtain ⟨leaf, hleaf, h⟩ := Answer.ok_bind h
  split at h
  next record hrecord =>
    cases h
    exact ⟨node, leaf, record, ServerState.node_eq_ok.mp hnode, hleaf, hrecord, rfl⟩
  · cases h

/-- A snapshot has the records of all that is in the session, and one record of each. -/
structure Covers (s : ServerState) (fuel : ℕ) (sessionId : SessionId) (session : Session)
    (snapshot : SessionSnapshot) : Prop where
  recorded : snapshot.session = sessionRecord sessionId session
  node {record : NodeRecord} (h : record ∈ snapshot.nodes) : InSession s session record.id ∧
    snapshotNode s fuel record.id = .ok [record]
  held {nodeId : NodeId} (h : InSession s session nodeId) : ∃ node leaf record,
    s.nodes[nodeId]? = some node ∧ s.resolveFocusCandidate fuel nodeId = .ok leaf ∧
      nodeRecord nodeId leaf node = some record ∧ record ∈ snapshot.nodes
  buffer {record : Protocol.BufferRecord} (h : record ∈ snapshot.buffers) : ∃ buffer,
    s.buffers[record.id]? = some buffer ∧ record = bufferRecord record.id buffer
  shown {nodeId : NodeId} {view : BufferViewNode} (h : InSession s session nodeId)
    (hview : s.nodes[nodeId]? = some (.bufferView view)) : ∃ buffer,
      s.buffers[view.bufferId]? = some buffer ∧
        bufferRecord view.bufferId buffer ∈ snapshot.buffers
  window {record : FloatingRecord} (h : record ∈ snapshot.floating) : ∃ floating,
    s.floating[record.id]? = some floating ∧ record = floatingRecord record.id floating
  listed {floatingId : FloatingId} (h : floatingId ∈ session.floating) : ∃ floating,
    s.floating[floatingId]? = some floating ∧ floatingRecord floatingId floating ∈ snapshot.floating

theorem mem_toList_foldl_insert {bufferId : BufferId} {bufferIds : List BufferId} (h : bufferId ∈ bufferIds)
    (seen : Std.ExtTreeSet BufferId) :
    bufferId ∈ (bufferIds.foldl Std.ExtTreeSet.insert seen).toList := by
  rw [Std.ExtTreeSet.mem_toList]
  suffices hmem : bufferId ∈ seen ∨ bufferId ∈ bufferIds →
      bufferId ∈ bufferIds.foldl Std.ExtTreeSet.insert seen from hmem (.inr h)
  clear h
  induction bufferIds generalizing seen with
  | nil => exact fun hmem ↦ hmem.resolve_right List.not_mem_nil
  | cons first rest ih =>
    rintro (hmem | hmem)
    · exact ih _ (.inl (Std.ExtTreeSet.mem_insert.mpr (.inr hmem)))
    · rcases List.mem_cons.mp hmem with rfl | hmem
      · exact ih _ (.inl Std.ExtTreeSet.mem_insert_self)
      · exact ih _ (.inr hmem)

theorem mem_sessionBufferIds {bufferIds : List BufferId}
    (hsession : s.sessions[sessionId]? = some session)
    (h : sessionBufferIds s fuel sessionId = .ok bufferIds) {nodeId : NodeId} {view : BufferViewNode}
    (hin : InSession s session nodeId) (hview : s.nodes[nodeId]? = some (.bufferView view)) :
    view.bufferId ∈ bufferIds := by
  obtain ⟨nodeIds, hnodeIds, h⟩ := Answer.ok_bind h
  obtain ⟨buffers, hbuffers, h⟩ := Answer.ok_bind h
  cases h
  have hmem := (ServerState.mem_sessionNodeIds_iff hsession hnodeIds).mpr hin
  obtain ⟨shown, hshown, hall⟩ := Answer.collect_mem hbuffers hmem
  obtain ⟨node, hnode, hshown⟩ := Answer.ok_bind hshown
  obtain rfl := Option.some.inj (hview.symm.trans (ServerState.node_eq_ok.mp hnode))
  cases hshown
  exact mem_toList_foldl_insert (hall _ List.mem_cons_self) ∅

theorem covers_sessionSnapshot (hsession : s.sessions[sessionId]? = some session)
    (h : sessionSnapshot s fuel sessionId = .ok snapshot) :
    Covers s fuel sessionId session snapshot := by
  obtain ⟨session', hget, h⟩ := Answer.ok_bind h
  obtain rfl := Option.some.inj (hsession.symm.trans (ServerState.session_eq_ok.mp hget))
  obtain ⟨nodeIds, hnodeIds, h⟩ := Answer.ok_bind h
  obtain ⟨nodes, hnodes, h⟩ := Answer.ok_bind h
  obtain ⟨bufferIds, hbufferIds, h⟩ := Answer.ok_bind h
  obtain ⟨buffers, hbuffers, h⟩ := Answer.ok_bind h
  obtain ⟨floating, hfloating, h⟩ := Answer.ok_bind h
  split at h
  · cases h
    constructor
    case recorded => rfl
    case node =>
      intro record hmem
      obtain ⟨nodeId, hnodeId, records, hrecords, hin⟩ := Answer.mem_collect hnodes hmem
      obtain ⟨node, leaf, made, -, -, hmade, rfl⟩ := snapshotNode_ok hrecords
      obtain rfl := List.mem_singleton.mp hin
      obtain rfl := (arrivedNode_some (congrArg (Option.map NodeRecord.sent) hmade)).1
      exact ⟨(ServerState.mem_sessionNodeIds_iff hsession hnodeIds).mp hnodeId, hrecords⟩
    case held =>
      intro nodeId hin
      have hmem := (ServerState.mem_sessionNodeIds_iff hsession hnodeIds).mpr hin
      obtain ⟨records, hrecords, hall⟩ := Answer.collect_mem hnodes hmem
      obtain ⟨node, leaf, record, hnode, hleaf, hmade, rfl⟩ := snapshotNode_ok hrecords
      exact ⟨node, leaf, record, hnode, hleaf, hmade, hall record List.mem_cons_self⟩
    case buffer =>
      intro record hmem
      obtain ⟨bufferId, -, records, hrecords, hin⟩ := Answer.mem_collect hbuffers hmem
      obtain ⟨buffer, hbuffer, hrecords⟩ := Answer.ok_bind hrecords
      cases hrecords
      obtain rfl := List.mem_singleton.mp hin
      exact ⟨buffer, ServerState.buffer_eq_ok.mp hbuffer, rfl⟩
    case shown =>
      intro nodeId view hin hview
      have hmem := mem_sessionBufferIds hsession hbufferIds hin hview
      obtain ⟨records, hrecords, hall⟩ := Answer.collect_mem hbuffers hmem
      obtain ⟨buffer, hbuffer, hrecords⟩ := Answer.ok_bind hrecords
      cases hrecords
      exact ⟨buffer, ServerState.buffer_eq_ok.mp hbuffer, hall _ List.mem_cons_self⟩
    case window =>
      intro record hmem
      obtain ⟨floatingId, -, records, hrecords, hin⟩ := Answer.mem_collect hfloating hmem
      obtain ⟨window, hwindow, hrecords⟩ := Answer.ok_bind hrecords
      cases hrecords
      obtain rfl := List.mem_singleton.mp hin
      exact ⟨window, ServerState.floatingWindow_eq_ok.mp hwindow, rfl⟩
    case listed =>
      intro floatingId hmem
      obtain ⟨records, hrecords, hall⟩ := Answer.collect_mem hfloating hmem
      obtain ⟨window, hwindow, hrecords⟩ := Answer.ok_bind hrecords
      cases hrecords
      exact ⟨window, ServerState.floatingWindow_eq_ok.mp hwindow, hall _ List.mem_cons_self⟩
  · cases h

/-! ## Applying it -/

theorem mirrors_of_covers (hsession : s.sessions[sessionId]? = some session)
    (h : Covers s fuel sessionId session snapshot) (c : ClientState) :
    Mirrors s sessionId session (c.applySessionSnapshot snapshot.sent) := by
  have htables : (c.applySessionSnapshot snapshot.sent).tables = (c.replaceSession snapshot.sent).tables :=
    syncViewStatesForNodes_tables _ _ _
  have hid : snapshot.sent.session.id = sessionId := congrArg SessionRecord.id h.recorded
  have hnodes (id : NodeId) : (c.applySessionSnapshot snapshot.sent).nodes[id]? =
      (c.replaceSession snapshot.sent).nodes[id]? := congrArg (fun t : Tables ↦ t.nodes[id]?) htables
  have hfloating (id : FloatingId) : (c.applySessionSnapshot snapshot.sent).floating[id]? =
      (c.replaceSession snapshot.sent).floating[id]? := congrArg (fun t : Tables ↦ t.floating[id]?) htables
  have hbuffers (id : BufferId) : (c.applySessionSnapshot snapshot.sent).buffers[id]? =
      (c.replaceSession snapshot.sent).buffers[id]? := congrArg (fun t : Tables ↦ t.buffers[id]?) htables
  constructor
  case kept => exact hsession
  case recorded =>
    rw [applySessionSnapshot_sessions, if_pos hid]
    exact congrArg some h.recorded
  case node =>
    intro nodeId hin
    obtain ⟨node, leaf, record, hnode, hleaf, hmade, hmem⟩ := h.held hin
    refine ⟨node, fuel, leaf, record.sent, hnode, hleaf,
      congrArg (Option.map NodeRecord.sent) hmade, ?_⟩
    have hnodeId : record.sent.id = nodeId :=
      (arrivedNode_some (congrArg (Option.map NodeRecord.sent) hmade)).1
    rw [hnodes, ← hnodeId]
    refine Table.get?_insertAll_of_mem (List.mem_map_of_mem hmem) (fun _ hother heq ↦ ?_) _
    obtain ⟨other, hmem', rfl⟩ := List.mem_map.mp hother
    -- the two are made of the same node
    obtain ⟨-, hfirst⟩ := h.node hmem
    obtain ⟨-, hsecond⟩ := h.node hmem'
    rw [show other.id = record.id from heq, hfirst] at hsecond
    exact congrArg NodeRecord.sent (List.head_eq_of_cons_eq (Except.ok.inj hsecond)).symm
  case buffer =>
    intro nodeId view hin hview
    obtain ⟨buffer, hget, hmem⟩ := h.shown hin hview
    refine ⟨buffer, hget, ?_⟩
    have hsent : (bufferRecord view.bufferId buffer).sent ∈ snapshot.sent.buffers :=
      List.mem_map_of_mem hmem
    have hlisted : view.bufferId ∈ snapshot.sent.buffers.map Protocol.BufferRecord.id :=
      List.mem_map.mpr ⟨_, hsent, rfl⟩
    rw [hbuffers]
    simp only [ClientState.replaceSession]
    rw [Table.get?_modifyAll (detachFrom_detachFrom _), if_neg]
    · change (Table.insertAll Protocol.BufferRecord.id c.buffers snapshot.sent.buffers)[
        (bufferRecord view.bufferId buffer).sent.id]? = _
      refine Table.get?_insertAll_of_mem hsent (fun _ hother heq ↦ ?_) _
      obtain ⟨other, hmem', rfl⟩ := List.mem_map.mp hother
      obtain ⟨found, hfound, hmade⟩ := h.buffer hmem
      obtain ⟨found', hfound', hmade'⟩ := h.buffer hmem'
      rw [show other.id = (bufferRecord view.bufferId buffer).id from heq, hfound] at hfound'
      obtain rfl := Option.some.inj hfound'
      rw [hmade', show other.id = view.bufferId from heq]
      exact congrArg BufferRecord.sent hmade.symm
    · exact fun hdropped ↦ absurd hlisted (of_decide_eq_true (List.mem_filter.mp hdropped).2)
  case floating =>
    intro floatingId hmem
    obtain ⟨floating, hget, hmem⟩ := h.listed hmem
    refine ⟨floating, hget, ?_⟩
    rw [hfloating]
    change (Table.insertAll FloatingRecord.id _ snapshot.floating)[
      (floatingRecord floatingId floating).id]? = _
    refine Table.get?_insertAll_of_mem hmem (fun other hother heq ↦ ?_) _
    obtain ⟨floating', hget', hmade⟩ := h.window hother
    rw [heq, show s.floating[(floatingRecord floatingId floating).id]? = _ from hget] at hget'
    obtain rfl := Option.some.inj hget'
    rw [hmade, heq]
    rfl
  case only =>
    intro nodeId record hcached hhome
    rw [hnodes] at hcached
    by_cases hmem : nodeId ∈ snapshot.sent.nodes.map NodeRecord.id
    · obtain ⟨arrived, harrived, rfl⟩ := List.mem_map.mp hmem
      obtain ⟨found, hfound, rfl⟩ := List.mem_map.mp harrived
      exact (h.node hfound).1
    · simp only [ClientState.replaceSession] at hcached
      rw [Table.get?_insertAll_of_notMem hmem, Table.get?_filter] at hcached
      obtain ⟨-, hkept⟩ := Option.filter_eq_some_iff.mp hcached
      rcases of_decide_eq_true hkept with hother | hlisted
      · exact absurd (hhome.trans hid.symm) hother
      · exact absurd hlisted hmem

theorem hasPayload_nodeRecord {nodeId : NodeId} {leaf : Option NodeId} {node : Node} {record : NodeRecord}
    (h : nodeRecord nodeId leaf node = some record) : record.hasPayload = true := by
  cases node with
  | bufferView =>
    obtain rfl := Option.some.inj h
    rfl
  | split =>
    obtain rfl := Option.some.inj h
    rfl
  | tabs =>
    rw [nodeRecord] at h
    split at h
    · obtain rfl := Option.some.inj h
      rfl
    · cases h

/-- A snapshot that the encoder accepts arrives, and a client that applies it mirrors the session,
whatever it had before. -/
theorem mirrors_decodeSessionSnapshot (hsession : s.sessions[sessionId]? = some session)
    (h : sessionSnapshot s fuel sessionId = .ok snapshot) (haccepted : validateSessionSnapshot snapshot = .ok ())
    (c : ClientState) : ∃ arrived, decodeSessionSnapshot (encodeSessionSnapshot snapshot) = .ok arrived ∧
      Mirrors s sessionId session (c.applySessionSnapshot arrived) := by
  have hcovers := covers_sessionSnapshot hsession h
  have hpayload : ∀ record ∈ snapshot.nodes, record.hasPayload = true := by
    intro record hmem
    obtain ⟨node, leaf, made, -, -, hmade, hrecords⟩ := snapshotNode_ok (hcovers.node hmem).2
    obtain rfl := List.head_eq_of_cons_eq hrecords
    exact hasPayload_nodeRecord hmade
  exact ⟨snapshot.sent, (decode_encodeSessionSnapshot haccepted).mpr ⟨hpayload, rfl⟩,
    mirrors_of_covers hsession hcovers c⟩

/-- A session with one window, which shows a buffer. -/
def windowAdded : ServerState :=
  (ServerState.addRootTabFromBuffer 20 ⟨1⟩ "one" ⟨1⟩
    (ServerState.createBufferWithEnv "one" ["sh"] none ∅ ⟨0⟩
      (ServerState.createSession "main" ⟨0⟩ ServerState.new).2).2).2

def acceptedSnapshot (s : ServerState) : Bool :=
  match sessionSnapshot s 20 ⟨1⟩ with
  | .ok snapshot => snapshot.nodes.length = 2 ∧ validateSessionSnapshot snapshot = .ok ()
  | .error _ => false

theorem acceptedSnapshot_windowAdded : acceptedSnapshot windowAdded = true := by
  decide +kernel

/-- The window arrives. -/
theorem mirrors_decodeSessionSnapshot_windowAdded : ∃ session snapshot arrived,
    sessionSnapshot windowAdded 20 ⟨1⟩ = .ok snapshot ∧ snapshot.nodes.length = 2 ∧
      decodeSessionSnapshot (encodeSessionSnapshot snapshot) = .ok arrived ∧
      Mirrors windowAdded ⟨1⟩ session (ClientState.empty.applySessionSnapshot arrived) := by
  have haccepted := acceptedSnapshot_windowAdded
  rw [acceptedSnapshot] at haccepted
  split at haccepted
  next snapshot hsnapshot =>
    obtain ⟨hnodes, hvalid⟩ := of_decide_eq_true haccepted
    obtain ⟨session, hsession, -⟩ := Answer.ok_bind hsnapshot
    obtain ⟨arrived, harrived, hmirrors⟩ := mirrors_decodeSessionSnapshot
      (ServerState.session_eq_ok.mp hsession) hsnapshot hvalid ClientState.empty
    exact ⟨session, snapshot, arrived, hsnapshot, hnodes, harrived, hmirrors⟩
  · cases haccepted

end Server

end Embers
