import Embers.State.JoinViews
import Embers.State.Names

/-!
# Ids are not used twice

Every table of the state takes its ids from a counter of its own. `NamesSince` compares a state with an
earlier one: what an id named then it names now, if it names anything, and what is new has an id that
was handed out since. A command may take things out and put them back, as breaking a popup out does
when it fails, so the comparison is with the state before the command, not with every state inside it.

Along the way every popup stays listed by the session it names: whoever puts a popup back finds its
session there, a new session does not take the id of another, and a session that is closed closes its
popups first.

Counters wrap at `2⁶⁴`. Each step of a run has ids left for what one command can make: five, and one for
each buffer, whose exit may clear the root of a session.
-/

namespace Embers

def EntityId.number {κ : IdKind} (id : EntityId κ) : ℕ := id.raw.toNat

/-- The number of the next id. -/
def IdAllocator.next {κ : IdKind} (ids : IdAllocator κ) : ℕ := ids.counter.toNat

theorem IdAllocator.next_advance {κ : IdKind} {ids : IdAllocator κ} (h : ids.next + 1 < 2 ^ 64) :
    ids.advance.next = ids.next + 1 := by
  rw [IdAllocator.next, IdAllocator.next] at *
  rw [IdAllocator.advance, UInt64.toNat_add, UInt64.toNat_one]
  omega

@[simp] theorem IdAllocator.number_peek {κ : IdKind} (ids : IdAllocator κ) :
    ids.peek.number = ids.next := rfl

/-- A new entry under the next id. -/
theorem Since.allocate {κ : IdKind} {α : Type} {same : α → α → Prop} {t t' : Table (EntityId κ) α} {n : ℕ}
    {ids : IdAllocator κ} (h : Since EntityId.number same t n t' ids.next) (hroom : ids.next + 1 < 2 ^ 64)
    (v : α) : Since EntityId.number same t n (t'.insert ids.peek v) ids.advance.next := by
  have hnext := IdAllocator.next_advance hroom
  have hlater : Since EntityId.number same t n t' ids.advance.next := h.later (by omega)
  have hge : n ≤ ids.peek.number := h.le
  have hlt : ids.peek.number < ids.advance.next := by
    rw [IdAllocator.number_peek]
    omega
  exact hlater.insert hge hlt v

namespace ServerState

/-! ## Compared with an earlier state -/

structure NamesSince (base s : ServerState) : Prop where
  sessions : Since EntityId.number Session.SameThing base.sessions base.sessionIds.next
    s.sessions s.sessionIds.next
  buffers : Since EntityId.number Buffer.SameThing base.buffers base.bufferIds.next
    s.buffers s.bufferIds.next
  nodes : Since EntityId.number Node.SameThing base.nodes base.nodeIds.next s.nodes s.nodeIds.next
  floating : Since EntityId.number FloatingWindow.SameThing base.floating base.floatingIds.next
    s.floating s.floatingIds.next

/-- What an id named it still names, and no popup has lost its session. -/
structure Follows (base s : ServerState) : Prop where
  since : NamesSince base s
  listed (hout : HandedOut EntityId.number base.sessions base.sessionIds.next) (h : base.FloatingListed) :
    s.FloatingListed

/-- Ids are left for `r` more of each kind. -/
structure Room (r : ℕ) (s : ServerState) : Prop where
  sessions : s.sessionIds.next + r < 2 ^ 64
  buffers : s.bufferIds.next + r < 2 ^ 64
  nodes : s.nodeIds.next + r < 2 ^ 64
  floating : s.floatingIds.next + r < 2 ^ 64

/-- A state on the way, when no session has been closed and `r` more things may be made. -/
structure NamesWith (base : ServerState) (r : ℕ) (s : ServerState) : Prop where
  follows : Follows base s
  room : Room r s
  stays (sessionId : SessionId) (h : sessionId ∈ base.sessions) : sessionId ∈ s.sessions

open Op

variable {base s s' : ServerState} {r k : ℕ} {α : Type}

theorem Room.mono (h : Room r s) (hk : k ≤ r) : Room k s := by
  obtain ⟨hsessions, hbuffers, hnodes, hfloating⟩ := h
  exact ⟨by omega, by omega, by omega, by omega⟩

theorem namesWith_wastes : Wastes (NamesWith base) := fun _ _ _ h ↦
  ⟨h.follows, h.room.mono (Nat.le_add_right _ _), h.stays⟩

theorem namesSince_refl (s : ServerState) : NamesSince s s := ⟨.refl, .refl, .refl, .refl⟩

theorem NamesSince.trans {s'' : ServerState} (h : NamesSince s s') (h' : NamesSince s' s'') :
    NamesSince s s'' :=
  ⟨h.sessions.trans h'.sessions, h.buffers.trans h'.buffers, h.nodes.trans h'.nodes,
    h.floating.trans h'.floating⟩

theorem follows_refl (s : ServerState) : Follows s s := ⟨namesSince_refl s, fun _ ↦ id⟩

theorem Follows.trans {s'' : ServerState} (h : Follows s s') (h' : Follows s' s'') : Follows s s'' :=
  ⟨h.since.trans h'.since,
    fun hout hlisted ↦ h'.listed (h.since.sessions.handedOut hout) (h.listed hout hlisted)⟩

theorem Shrink.namesWith (h : Shrink s s') (hs : NamesWith base r s) : NamesWith base r s' := by
  obtain ⟨⟨⟨hsessions, hbuffers, hnodes, hfloating⟩, hlisted⟩, hroom, hstays⟩ := hs
  refine ⟨⟨⟨?_, ?_, ?_, ?_⟩, fun hout hbase ↦ h.listed (hlisted hout hbase)⟩, ?_,
    fun sessionId hmem ↦ h.stays sessionId (hstays sessionId hmem)⟩
  · rw [h.sessionIds]
    exact hsessions.shrinks h.sessions
  · rw [h.bufferIds]
    exact hbuffers.shrinks h.buffers
  · rw [h.nodeIds]
    exact hnodes.shrinks h.nodes
  · rw [h.floatingIds]
    exact hfloating.shrinks h.floating
  · obtain ⟨hrooms, hroomb, hroomn, hroomf⟩ := hroom
    exact ⟨h.sessionIds ▸ hrooms, h.bufferIds ▸ hroomb, h.nodeIds ▸ hroomn, h.floatingIds ▸ hroomf⟩

theorem spends_of_shrink {m : StateOp α} (h : Keeps Shrink m) (s : ServerState) :
    Spends (NamesWith base) 0 m s := fun _ hs ↦ (h s).namesWith hs

theorem spends_of_frame {m : StateOp α} (h : Keeps SameFrame m) (s : ServerState) :
    Spends (NamesWith base) 0 m s := spends_of_shrink (keeps_shrink_of_sameFrame h) s

/-! ## New nodes -/

/-- The id was handed out since the earlier state. -/
def Made (base : ServerState) (nodeId : NodeId) (s : ServerState) : Prop :=
  base.nodeIds.next ≤ nodeId.number ∧ nodeId.number < s.nodeIds.next

theorem Shrink.made (h : Shrink s s') {nodeId : NodeId} (hmade : Made base nodeId s) :
    Made base nodeId s' := by
  rw [Made, h.nodeIds]
  exact hmade

theorem nextNodeId_bind_names {f : NodeId → StateOp α}
    (hf : Made base s.nodeIds.peek { s with nodeIds := s.nodeIds.advance } →
      Spends (NamesWith base) k (f s.nodeIds.peek) { s with nodeIds := s.nodeIds.advance }) :
    Spends (NamesWith base) (k + 1) (nextNodeId >>= f) s := by
  intro r h
  obtain ⟨⟨hsince, hlisted⟩, hroom, hstays⟩ := h
  have hone : s.nodeIds.next + 1 < 2 ^ 64 := by
    have := hroom.nodes
    omega
  have hnext := IdAllocator.next_advance hone
  have hmade : Made base s.nodeIds.peek { s with nodeIds := s.nodeIds.advance } := by
    refine ⟨hsince.nodes.le, ?_⟩
    change s.nodeIds.next < s.nodeIds.advance.next
    omega
  refine hf hmade r ⟨⟨⟨hsince.sessions, hsince.buffers, hsince.nodes.later ?_, hsince.floating⟩,
    hlisted⟩, ?_, hstays⟩
  · change s.nodeIds.next ≤ s.nodeIds.advance.next
    omega
  · have hle : r + k ≤ r + (k + 1) := Nat.le_succ _
    obtain ⟨hsessions, hbuffers, hnodes, hfloating⟩ := hroom.mono hle
    refine ⟨hsessions, hbuffers, ?_, hfloating⟩
    have hroomy := hroom.nodes
    change s.nodeIds.advance.next + (r + k) < 2 ^ 64
    omega

theorem insertNode_names {nodeId : NodeId} {node : Node} (hmade : Made base nodeId s) :
    Spends (NamesWith base) 0 (modify (insertNode nodeId node) : StateOp Unit) s := by
  intro r h
  obtain ⟨⟨hsince, hlisted⟩, hroom, hstays⟩ := h
  exact ⟨⟨⟨hsince.sessions, hsince.buffers, hsince.nodes.insert hmade.1 hmade.2 node, hsince.floating⟩,
    hlisted⟩, ⟨hroom.sessions, hroom.buffers, hroom.nodes, hroom.floating⟩, hstays⟩

/-! ## Closing -/

section

variable (fuel : ℕ)

theorem clearSessionRoot_names (sessionId : SessionId) (s : ServerState) :
    Spends (NamesWith base) 1 (clearSessionRoot fuel sessionId) s := by
  have hroot : ∀ newRoot, Keeps Shrink (do
      sessionMut sessionId fun session ↦ { session with rootNode := newRoot }
      sessionMut sessionId fun session ↦ { session with zoomedNode := none }
      healFocus fuel sessionId : StateOp Unit) := fun newRoot ↦
    .bind (sessionMut_shrink sessionId (fun _ ↦ rfl) fun _ ↦ rfl) fun _ ↦
      .bind (sessionMut_shrink sessionId (fun _ ↦ rfl) fun _ ↦ rfl) fun _ ↦
        keeps_shrink_of_sameFrame (healFocus_sameFrame fuel sessionId)
  refine .ask_bind namesWith_wastes fun oldRoot _ ↦ .bind_right namesWith_wastes
    (spends_of_shrink (removeSubtreeNodes_shrink fuel oldRoot) s) fun _ t _ ↦
    nextNodeId_bind_names fun hmade ↦ .bind_right namesWith_wastes (insertNode_names hmade) fun _ u _ ↦
    spends_of_shrink (hroot _) u

theorem closeNode_names (nodeId : NodeId) (s : ServerState) :
    Spends (NamesWith base) 1 (closeNode fuel nodeId) s := by
  refine .ask_bind namesWith_wastes fun sessionId _ ↦ .gets_bind ?_
  split
  · exact clearSessionRoot_names fuel sessionId s
  · refine .mono namesWith_wastes (spends_of_shrink (.bind (.ask _) fun parent ↦ ?_) s) (Nat.zero_le 1)
    cases parent with
    | some parent =>
      exact .bind (removeFromParent_shrink fuel parent nodeId) fun _ ↦ settleSession_shrink fuel sessionId
    | none =>
      refine .bind (.gets _) fun floatingId ↦ ?_
      cases floatingId with
      | some floatingId =>
        exact .bind (removeFloatingWindow_shrink floatingId) fun floating ↦
          .bind (removeSubtreeNodes_shrink fuel floating.rootNode) fun _ ↦
            settleSession_shrink fuel sessionId
      | none => exact .throw _

theorem discardBufferView_names (nodeId : NodeId) (s : ServerState) :
    Spends (NamesWith base) 1 (discardBufferView fuel nodeId) s := by
  refine .gets_bind ?_
  split
  · refine .bind_left namesWith_wastes (.attempt (closeNode_names fuel nodeId s)) fun result t _ ↦ ?_
    cases result with
    | ok => exact .pure _
    | error => exact spends_of_shrink (deleteView_shrink nodeId) t
  · exact .mono namesWith_wastes (spends_of_shrink (deleteView_shrink nodeId) s) (Nat.zero_le 1)

theorem detachBuffer_names (bufferId : BufferId) (s : ServerState) :
    Spends (NamesWith base) 1 (detachBuffer fuel bufferId) s := by
  refine .ask_bind namesWith_wastes fun buffer _ ↦ ?_
  split
  next nodeId _ => exact closeNode_names fuel nodeId s
  · exact .mono namesWith_wastes (.pure _) (Nat.zero_le 1)

theorem disposeEntry_names (disposed : DisposedBuffers) (entry : ExitedEntry) (s : ServerState) :
    Spends (NamesWith base) 1 (disposeEntry fuel disposed entry) s := by
  have hnothing : Spends (NamesWith base) 1 (pure disposed : StateOp DisposedBuffers) s :=
    .mono namesWith_wastes (.pure _) (Nat.zero_le 1)
  rw [disposeEntry]
  split
  next viewId _ =>
    split
    · exact hnothing
    · refine .gets_bind ?_
      cases s.nodes[viewId]? with
      | none => exact hnothing
      | some view =>
        refine .bind_left namesWith_wastes (.attempt (closeNode_names fuel viewId s))
          fun result t _ ↦ ?_
        cases result with
        | ok => exact spends_of_shrink (tryRemoveBuffer_shrink entry.bufferId _) t
        | error => exact .pure _
  · split
    · exact .mono namesWith_wastes (spends_of_shrink (tryRemoveBuffer_shrink entry.bufferId disposed) s)
        (Nat.zero_le 1)
    · exact hnothing

theorem disposeExitedBuffers_names (s : ServerState) :
    Spends (NamesWith base) s.buffers.size (disposeExitedBuffers fuel) s := by
  have hhelpers : Keeps Shrink (fold (fun disposed bufferId ↦ tryRemoveBuffer bufferId disposed) ⟨[], ∅⟩
      s.closedHelpers) := .fold (fun disposed bufferId ↦ tryRemoveBuffer_shrink bufferId disposed) _ _
  have hsize := Keeps.fold (fun disposed bufferId ↦ tryRemoveBuffer_size_le bufferId disposed)
    s.closedHelpers ⟨[], ∅⟩ s
  refine .gets_bind (.bind_right namesWith_wastes (spends_of_shrink hhelpers s) fun disposed t ht ↦
    .gets_bind ?_)
  have hexited := Spends.fold (I := NamesWith base) namesWith_wastes (disposeEntry_names fuel)
    t.exitedEntries disposed t
  refine .mono namesWith_wastes hexited ?_
  rw [ht] at hsize
  have hlength := exitedEntries_length_le t
  have hle : t.buffers.size ≤ s.buffers.size := hsize
  omega

end

/-! ## Closing a session -/

theorem Shrink.not_mem_floating (h : Shrink s s') {floatingId : FloatingId} (hnot : floatingId ∉ s.floating) :
    floatingId ∉ s'.floating := by
  intro hmem
  obtain ⟨floating', hget'⟩ := Option.isSome_iff_exists.mp
    (Std.ExtTreeMap.isSome_getElem?_iff_mem.mpr hmem)
  obtain ⟨floating, hget, -⟩ := h.floating floatingId floating' hget'
  exact hnot (Std.ExtTreeMap.isSome_getElem?_iff_mem.mp (by rw [hget, Option.isSome_some]))

section

variable (fuel : ℕ)

theorem closeFloating_gone {floatingId : FloatingId} (h : closeFloating fuel floatingId s = (.ok (), s')) :
    floatingId ∉ s'.floating := by
  obtain ⟨floating, t, hremoved, hrest⟩ := ok_bind h
  have hgone : floatingId ∉ t.floating := by
    obtain ⟨window, -, hremoved⟩ := ok_ask_bind hremoved
    obtain rfl : _ = t := congrArg Prod.snd hremoved
    exact fun hmem ↦ (Std.ExtTreeMap.mem_erase.mp hmem).1 Std.ReflCmp.compare_self
  have hshrink : Keeps Shrink (do
      removeSubtreeNodes fuel floating.rootNode
      settleSession fuel floating.sessionId : StateOp Unit) :=
    .bind (removeSubtreeNodes_shrink fuel floating.rootNode) fun _ ↦
      settleSession_shrink fuel floating.sessionId
  have hs' := hshrink t
  rw [hrest] at hs'
  exact hs'.not_mem_floating hgone

theorem forEach_closeFloating_gone :
    ∀ {floatingIds : List FloatingId} {s : ServerState},
      forEach (closeFloating fuel) floatingIds s = (.ok (), s') → ∀ floatingId ∈ floatingIds,
        floatingId ∉ s'.floating
  | [], _, _, _, hmem => by cases hmem
  | first :: rest, s, h, floatingId, hmem => by
    obtain ⟨_, t, hfirst, hrest⟩ := ok_bind h
    rcases List.mem_cons.mp hmem with rfl | hmem
    · have hshrink := Keeps.forEach (closeFloating_shrink fuel) rest t
      rw [hrest] at hshrink
      exact hshrink.not_mem_floating (closeFloating_gone fuel hfirst)
    · exact forEach_closeFloating_gone hrest floatingId hmem

theorem Shrink.follows (h : Shrink s s') : Follows s s' where
  since := by
    refine ⟨?_, ?_, ?_, ?_⟩
    · rw [h.sessionIds]
      exact Since.refl.shrinks h.sessions
    · rw [h.bufferIds]
      exact Since.refl.shrinks h.buffers
    · rw [h.nodeIds]
      exact Since.refl.shrinks h.nodes
    · rw [h.floatingIds]
      exact Since.refl.shrinks h.floating
  listed _ := h.listed

/-- A session is taken out when none of its popups is left. -/
theorem eraseSession_follows (h : Shrink s s') {sessionId : SessionId} {session : Session}
    (hsession : s.sessions[sessionId]? = some session)
    (hgone : ∀ floatingId ∈ session.floating, floatingId ∉ s'.floating) :
    Follows s { s' with sessions := s'.sessions.erase sessionId } := by
  have hsince := h.follows.since
  refine ⟨⟨hsince.sessions.shrinks (.erase _ sessionId), hsince.buffers, hsince.nodes, hsince.floating⟩,
    fun _ hlisted floatingId floating hget ↦ ?_⟩
  obtain ⟨session', hsession', hmem⟩ := h.listed hlisted floatingId floating hget
  have hne : floating.sessionId ≠ sessionId := by
    rintro rfl
    obtain ⟨before, hbefore, hsame⟩ := h.floating floatingId floating hget
    obtain ⟨listing, hlisting, hin⟩ := hlisted floatingId before hbefore
    rw [show before.sessionId = floating.sessionId from (congrArg Prod.fst hsame).symm, hsession] at hlisting
    obtain rfl := Option.some.inj hlisting
    exact hgone floatingId hin (Std.ExtTreeMap.isSome_getElem?_iff_mem.mp (by rw [hget, Option.isSome_some]))
  exact ⟨session', by rw [Table.get?_erase, if_neg (Ne.symm hne), hsession'], hmem⟩

theorem closeSession_follows (sessionId : SessionId) (s : ServerState) :
    Follows s (closeSession fuel sessionId s).2 := by
  rw [closeSession, bind_apply, ask_apply]
  rcases hread : s.session sessionId with e | session
  · exact follows_refl s
  dsimp only
  have hclosed := Keeps.forEach (closeFloating_shrink fuel) session.floating s
  rw [bind_apply]
  rcases hpopups : forEach (closeFloating fuel) session.floating s with ⟨e | a, t⟩ <;> rw [hpopups] at hclosed
  · exact hclosed.follows
  dsimp only
  have hremoved := removeSubtreeNodes_shrink fuel session.rootNode t
  rw [bind_apply]
  rcases htree : removeSubtreeNodes fuel session.rootNode t with ⟨e | a, u⟩ <;> rw [htree] at hremoved
  · exact (Trans.trans hclosed hremoved : Shrink s u).follows
  · exact eraseSession_follows (Trans.trans hclosed hremoved) (session_eq_ok.mp hread)
      fun floatingId hmem ↦ hremoved.not_mem_floating (forEach_closeFloating_gone fuel hpopups floatingId hmem)

end

/-! ## Making sessions, buffers and popups -/

/-- The next id was handed out, and `r` more are left. -/
theorem next_advance_add {κ : IdKind} {ids : IdAllocator κ} (h : ids.next + (r + 1) < 2 ^ 64) :
    ids.advance.next + r < 2 ^ 64 := by
  have hone : ids.next + 1 < 2 ^ 64 := by omega
  have hnext := IdAllocator.next_advance hone
  omega

theorem createSession_names (name : String) (now : Timestamp) (s : ServerState) :
    Spends (NamesWith base) 1 (createSession name now) s := by
  intro r h
  obtain ⟨⟨hsince, hlisted⟩, hroom, hstays⟩ := h
  have hone := hroom.mono (Nat.le_add_left 1 r)
  have hrest := hroom.mono (Nat.le_add_right r 1)
  refine ⟨⟨⟨hsince.sessions.allocate hone.sessions _, hsince.buffers, hsince.nodes.allocate hone.nodes _,
    hsince.floating⟩, fun hout hbase floatingId floating hget ↦ ?_⟩, ⟨next_advance_add hroom.sessions,
    hrest.buffers, next_advance_add hroom.nodes, hrest.floating⟩,
    fun sessionId hmem ↦ Std.ExtTreeMap.mem_insert.mpr (.inr (hstays sessionId hmem))⟩
  obtain ⟨session, hsession, hmem⟩ := hlisted hout hbase floatingId floating hget
  have hlt := hsince.sessions.handedOut hout _ _ hsession
  have hne : floating.sessionId ≠ s.sessionIds.peek := by
    rintro heq
    rw [heq] at hlt
    exact lt_irrefl _ hlt
  exact ⟨session, (Table.get?_insert _ _ _ _).trans ((if_neg (Ne.symm hne)).trans hsession), hmem⟩

theorem insertBuffer_names (buffer : Buffer) (s : ServerState) :
    Spends (NamesWith base) 1 (do
      let bufferId ← nextBufferId
      modify (insertBuffer bufferId buffer)
      pure bufferId : StateOp BufferId) s := by
  intro r h
  obtain ⟨⟨hsince, hlisted⟩, hroom, hstays⟩ := h
  have hone := hroom.mono (Nat.le_add_left 1 r)
  have hrest := hroom.mono (Nat.le_add_right r 1)
  exact ⟨⟨⟨hsince.sessions, hsince.buffers.allocate hone.buffers _, hsince.nodes, hsince.floating⟩,
    hlisted⟩, ⟨hrest.sessions, next_advance_add hroom.buffers, hrest.nodes, hrest.floating⟩, hstays⟩

/-- A popup whose session lists it. -/
theorem FloatingListed.insert (h : s.FloatingListed) {floatingId : FloatingId} {window : FloatingWindow}
    (hthere : window.sessionId ∈ s.sessions) {f : Session → Session}
    (hf : ∀ session, floatingId ∈ (f session).floating ∧ session.floating ⊆ (f session).floating) :
    FloatingListed (mapSession window.sessionId f
      { s with floating := s.floating.insert floatingId window }) := by
  have hlists {sessionId : SessionId} {session : Session} (hsession : s.sessions[sessionId]? = some session) :
      ∃ session', (s.mapSession window.sessionId f).sessions[sessionId]? = some session' ∧
        session.floating ⊆ session'.floating := by
    rw [mapSession, Table.get?_modify]
    split
    · exact ⟨f session, by rw [hsession, Option.map_some], (hf session).2⟩
    · exact ⟨session, hsession, List.Subset.refl _⟩
  intro floatingId' floating hget
  rw [mapSession, Table.get?_insert] at hget
  split at hget
  · next heq =>
    obtain rfl := Option.some.inj hget
    obtain ⟨session, hsession⟩ := Option.isSome_iff_exists.mp
      (Std.ExtTreeMap.isSome_getElem?_iff_mem.mpr hthere)
    refine ⟨f session, ?_, heq ▸ (hf session).1⟩
    rw [mapSession, Table.get?_modify, if_pos rfl, hsession, Option.map_some]
  · obtain ⟨session, hsession, hmem⟩ := h floatingId' floating hget
    obtain ⟨session', hsession', hsub⟩ := hlists hsession
    exact ⟨session', hsession', hsub hmem⟩

/-- A popup is stored and put in the list of its session, before what else is done for it. -/
theorem listFloating_names {floatingId : FloatingId} {window : FloatingWindow} {f : Session → Session}
    (hcreated : ∀ session, (f session).createdAt = session.createdAt)
    (hf : ∀ session, floatingId ∈ (f session).floating ∧ session.floating ⊆ (f session).floating)
    {rest : StateOp α} (hrest : Keeps Shrink rest) (h : NamesWith base r s)
    (hsince : Since EntityId.number FloatingWindow.SameThing base.floating base.floatingIds.next
      (s.floating.insert floatingId window) s.floatingIds.next)
    (hthere : base.FloatingListed → window.sessionId ∈ s.sessions) :
    NamesWith base r ((do
      modify fun s ↦ { s with floating := s.floating.insert floatingId window }
      sessionMut window.sessionId f
      rest : StateOp α) s).2 := by
  obtain ⟨⟨hsince', hlisted⟩, hroom, hstays⟩ := h
  have hmut := sessionMut_snd window.sessionId f { s with floating := s.floating.insert floatingId window }
  have hnames : NamesWith base r (mapSession window.sessionId f
      { s with floating := s.floating.insert floatingId window }) := by
    refine ⟨⟨⟨hsince'.sessions.shrinks (.modify hcreated _ _), hsince'.buffers, hsince'.nodes, hsince⟩,
      fun hout hbase ↦ (hlisted hout hbase).insert (hthere hbase) hf⟩, ⟨hroom.sessions, hroom.buffers,
      hroom.nodes, hroom.floating⟩, fun sessionId hmem ↦ Std.ExtTreeMap.mem_modify.mpr (hstays _ hmem)⟩
  rw [bind_apply, modify_apply]
  dsimp only
  rw [bind_apply]
  rcases hresult : sessionMut window.sessionId f
    { s with floating := s.floating.insert floatingId window } with ⟨e | a, t⟩
  · obtain rfl : t = _ := (congrArg Prod.snd hresult).symm.trans hmut
    exact hnames
  · obtain rfl : t = _ := (congrArg Prod.snd hresult).symm.trans hmut
    exact (hrest _).namesWith hnames

/-- Storing a new popup, before what else is done for it. -/
theorem insertFloating_names (window : FloatingWindow) (hthere : window.sessionId ∈ s.sessions)
    {f : FloatingId → StateOp α} (hf : ∀ floatingId, Keeps Shrink (f floatingId)) :
    Spends (NamesWith base) 1 (do
      let floatingId ← .update fun s ↦
        (s.floatingIds.peek, { s with floatingIds := s.floatingIds.advance })
      modify fun s ↦ { s with floating := s.floating.insert floatingId window }
      sessionMut window.sessionId fun session ↦
        { session with floating := session.floating ++ [floatingId] }
      f floatingId) s := by
  intro r h
  obtain ⟨⟨hsince, hlisted⟩, hroom, hstays⟩ := h
  have hone := hroom.mono (Nat.le_add_left 1 r)
  have hrest := hroom.mono (Nat.le_add_right r 1)
  have hlater : s.floatingIds.next ≤ s.floatingIds.advance.next := by
    rw [IdAllocator.next_advance hone.floating]
    exact Nat.le_succ _
  have hnames : NamesWith base r { s with floatingIds := s.floatingIds.advance } :=
    ⟨⟨⟨hsince.sessions, hsince.buffers, hsince.nodes, hsince.floating.later hlater⟩, hlisted⟩,
      ⟨hrest.sessions, hrest.buffers, hrest.nodes, next_advance_add hroom.floating⟩, hstays⟩
  exact listFloating_names
    (f := fun session ↦ { session with floating := session.floating ++ [s.floatingIds.peek] })
    (fun _ ↦ rfl) (fun session ↦ ⟨List.mem_append_right _ List.mem_cons_self, List.subset_append_left _ _⟩)
    (hf s.floatingIds.peek) hnames (hsince.floating.allocate hone.floating window) fun _ ↦ hthere

theorem createFloatingWindow_names (fuel : ℕ) (sessionId : SessionId) (rootNode : NodeId)
    (geometry : FloatGeometry) (title : Option String) (focus closeOnEmpty : Bool) (s : ServerState) :
    Spends (NamesWith base) 1
      (createFloatingWindowWithOptions fuel sessionId rootNode geometry title focus closeOnEmpty) s := by
  refine .ask_bind namesWith_wastes fun _ hensured ↦ .ask_bind namesWith_wastes fun _ _ ↦
    .ask_bind namesWith_wastes fun _ _ ↦ ?_
  obtain ⟨session, hsession, -⟩ := Answer.ok_bind hensured
  have hthere : sessionId ∈ s.sessions := by
    rw [← Std.ExtTreeMap.isSome_getElem?_iff_mem, session_eq_ok.mp hsession, Option.isSome_some]
  refine insertFloating_names _ hthere fun floatingId ↦ ?_
  split
  · refine .bind (.attempt (keeps_shrink_of_sameFrame (focusFloating_sameFrame fuel floatingId)))
      fun result ↦ ?_
    cases result with
    | ok => exact .pure _
    | error =>
      exact .bind (.modify fun s ↦ forget_shrink s floatingId sessionId (fun _ ↦ rfl) fun _ ↦ rfl)
        fun _ ↦ .throw _
  · exact .pure _

/-! ## Making views and containers -/

theorem createUnattachedBufferView_names (sessionId : SessionId) (bufferId : BufferId)
    (s : ServerState) : Spends (NamesWith base) 1 (createUnattachedBufferView sessionId bufferId) s :=
  .ask_bind namesWith_wastes fun _ _ ↦ .ask_bind namesWith_wastes fun _ _ ↦
    nextNodeId_bind_names fun hmade ↦ .bind_right namesWith_wastes (insertNode_names hmade) fun _ _ _ ↦
      .pure _

theorem createBufferView_names (sessionId : SessionId) (bufferId : BufferId) (s : ServerState) :
    Spends (NamesWith base) 1 (createBufferView sessionId bufferId) s := by
  refine .bind_left namesWith_wastes (createUnattachedBufferView_names sessionId bufferId s)
    fun nodeId t _ ↦ spends_of_shrink (.bind (.attempt (attachBuffer_shrink bufferId nodeId))
      fun result ↦ ?_) t
  cases result with
  | ok => exact .pure _
  | error => exact .bind (.modify fun s ↦ eraseNode_shrink s nodeId) fun _ ↦ .throw _

/-- Adopting children and storing the container under its new id. -/
theorem adopt_names {nodeId : NodeId} {node : Node} (hmade : Made base nodeId s) (children : List NodeId) :
    Spends (NamesWith base) 0 (do
      forEach (fun child ↦ setParent child (some nodeId)) children
      modify (insertNode nodeId node)
      pure nodeId : StateOp NodeId) s := by
  have hparents : Keeps Shrink (forEach (fun child ↦ setParent child (some nodeId)) children) :=
    .forEach (fun child ↦ setParent_shrink child (some nodeId)) children
  refine .bind_right namesWith_wastes (spends_of_shrink hparents s) fun _ t ht ↦ ?_
  have hshrink := hparents s
  rw [ht] at hshrink
  exact .bind_right namesWith_wastes (insertNode_names (hshrink.made hmade)) fun _ _ _ ↦ .pure _

theorem createSplitNode_names (sessionId : SessionId) (direction : SplitDirection)
    (children : List NodeId) (s : ServerState) :
    Spends (NamesWith base) 1 (createSplitNode sessionId direction children) s := by
  refine .ask_bind namesWith_wastes fun _ _ ↦ ?_
  split
  · exact .mono namesWith_wastes (.throw _) (Nat.zero_le 1)
  · exact nextNodeId_bind_names fun hmade ↦ .ask_bind namesWith_wastes fun _ _ ↦
      adopt_names hmade children

theorem createTabsNode_names (sessionId : SessionId) (tabs : List TabEntry) (active : ℕ)
    (s : ServerState) : Spends (NamesWith base) 1 (createTabsNode sessionId tabs active) s :=
  .ask_bind namesWith_wastes fun _ _ ↦ nextNodeId_bind_names fun hmade ↦
    .ask_bind namesWith_wastes fun _ _ ↦ adopt_names hmade (tabs.map TabEntry.child)

theorem wrapNodeInTabs_names (nodeId : NodeId) (title : String) (s : ServerState) :
    Spends (NamesWith base) 1 (wrapNodeInTabs nodeId title) s :=
  .ask_bind namesWith_wastes fun sessionId _ ↦ .ask_bind namesWith_wastes fun oldParent _ ↦
    nextNodeId_bind_names fun hmade ↦ .ask_bind namesWith_wastes fun _ _ ↦
    .bind_right namesWith_wastes (insertNode_names hmade) fun _ t _ ↦ spends_of_shrink
      (.bind (setParent_shrink nodeId _) fun _ ↦
        .bind (repointOwnerReference_shrink sessionId oldParent nodeId _) fun _ ↦ .pure _) t

theorem insertSplitAround_names (sessionId : SessionId) (nodeId : NodeId) (oldParent : Option NodeId)
    {splitId : NodeId} (direction : SplitDirection) (first second : NodeId) (leaf : Option NodeId)
    (hmade : Made base splitId s) :
    Spends (NamesWith base) 0
      (insertSplitAround sessionId nodeId oldParent splitId direction first second leaf) s :=
  .bind_right namesWith_wastes (insertNode_names hmade) fun _ t _ ↦ spends_of_shrink
    (.bind (setParent_shrink first _) fun _ ↦ .bind (setParent_shrink second _) fun _ ↦
      repointOwnerReference_shrink sessionId oldParent nodeId splitId) t

theorem wrapNodeInSplitWithFocus_names (fuel : ℕ) (nodeId : NodeId) (direction : SplitDirection)
    (sibling : NodeId) (insertBefore doFocus : Bool) (s : ServerState) :
    Spends (NamesWith base) 1
      (wrapNodeInSplitWithFocus fuel nodeId direction sibling insertBefore doFocus) s := by
  refine .ask_bind namesWith_wastes fun sessionId _ ↦ .ask_bind namesWith_wastes fun _ _ ↦
    .ask_bind namesWith_wastes fun oldParent _ ↦ nextNodeId_bind_names fun hmade ↦
    .ask_bind namesWith_wastes fun candidate _ ↦ ?_
  have hfocus : ∀ t : ServerState, Spends (NamesWith base) 0 (if doFocus = true then do
      focusCandidateOrHeal fuel sessionId sibling
      pure s.nodeIds.peek
    else pure s.nodeIds.peek : StateOp NodeId) t := by
    intro t
    split
    · exact spends_of_frame (.bind (focusCandidateOrHeal_sameFrame fuel sessionId sibling)
        fun _ ↦ .pure _) t
    · exact .pure _
  dsimp only
  split
  · exact .bind_right namesWith_wastes (insertSplitAround_names sessionId nodeId oldParent direction
      sibling nodeId candidate hmade) fun _ t _ ↦ hfocus t
  · exact .bind_right namesWith_wastes (insertSplitAround_names sessionId nodeId oldParent direction
      nodeId sibling candidate hmade) fun _ t _ ↦ hfocus t

theorem splitLeafWithNewBuffer_names (fuel : ℕ) (leafId : NodeId) (direction : SplitDirection)
    (newBuffer : BufferId) (s : ServerState) :
    Spends (NamesWith base) 2 (splitLeafWithNewBuffer fuel leafId direction newBuffer) s :=
  .ask_bind namesWith_wastes fun _ _ ↦ .ask_bind namesWith_wastes fun sessionId _ ↦
    .ask_bind namesWith_wastes fun oldParent _ ↦ .bind (k := 1) (l := 1) namesWith_wastes
      (createBufferView_names sessionId newBuffer s) fun newLeaf _ _ ↦
    nextNodeId_bind_names fun hmade ↦ .bind_right namesWith_wastes
      (insertSplitAround_names sessionId leafId oldParent direction leafId newLeaf _ hmade) fun _ t _ ↦
      spends_of_frame (.bind (focusLeaf_sameFrame fuel sessionId newLeaf) fun _ ↦ .pure _) t

theorem placeNewView_names (fuel : ℕ) (view : NodeId) {place : StateOp α}
    (hplace : Spends (NamesWith base) k place s) :
    Spends (NamesWith base) (k + 1) (placeNewView fuel view place) s := by
  refine .bind namesWith_wastes (.attempt hplace) fun result t _ ↦ ?_
  cases result with
  | ok => exact .mono namesWith_wastes (.pure _) (Nat.zero_le 1)
  | error =>
    exact .bind_left namesWith_wastes (discardBufferView_names fuel view t) fun _ _ _ ↦ .throw _

theorem addTabFromBufferAt_names (fuel : ℕ) (tabsId : NodeId) (index : ℕ) (title : String)
    (bufferId : BufferId) (s : ServerState) :
    Spends (NamesWith base) 2 (addTabFromBufferAt fuel tabsId index title bufferId) s :=
  .ask_bind namesWith_wastes fun tabs _ ↦ .bind (k := 1) (l := 1) namesWith_wastes
    (createBufferView_names tabs.sessionId bufferId s) fun child t _ ↦ placeNewView_names (k := 0) fuel
      child (spends_of_shrink (addTabSiblingAtWithFocus_shrink fuel tabsId index title child true) t)

theorem addRootTabFromBuffer_names (fuel : ℕ) (sessionId : SessionId) (title : String)
    (bufferId : BufferId) (s : ServerState) :
    Spends (NamesWith base) 2 (addRootTabFromBuffer fuel sessionId title bufferId) s :=
  .ask_bind namesWith_wastes fun rootTabs _ ↦ .bind (k := 1) (l := 1) namesWith_wastes
    (createBufferView_names sessionId bufferId s) fun child t _ ↦ placeNewView_names (k := 0) fuel child
      (spends_of_shrink (addTabSibling_shrink fuel rootTabs title child) t)

theorem createFloatingFromBuffer_names (fuel : ℕ) (sessionId : SessionId) (bufferId : BufferId)
    (geometry : FloatGeometry) (title : Option String) (focus closeOnEmpty : Bool) (s : ServerState) :
    Spends (NamesWith base) 3
      (createFloatingFromBufferWithOptions fuel sessionId bufferId geometry title focus closeOnEmpty) s :=
  .bind (k := 1) (l := 2) namesWith_wastes (createBufferView_names sessionId bufferId s)
    fun rootNode t _ ↦ placeNewView_names (k := 1) fuel rootNode
      (createFloatingWindow_names fuel sessionId rootNode geometry title focus closeOnEmpty t)

/-! ## Moving -/

theorem moveBufferToLeaf_names (fuel : ℕ) (bufferId : BufferId) (targetLeaf : NodeId)
    (s : ServerState) : Spends (NamesWith base) 1 (moveBufferToLeaf fuel bufferId targetLeaf) s := by
  refine .ask_bind namesWith_wastes fun _ _ ↦ .ask_bind namesWith_wastes fun targetSession _ ↦
    .ask_bind namesWith_wastes fun buffer _ ↦ ?_
  dsimp only
  split
  · exact .mono namesWith_wastes (spends_of_frame (focusLeaf_sameFrame fuel targetSession targetLeaf) s)
      (Nat.zero_le 1)
  · refine .bind_left namesWith_wastes ?_ fun _ t _ ↦ spends_of_shrink
      (.bind (attachBuffer_shrink bufferId targetLeaf) fun _ ↦
        keeps_shrink_of_sameFrame (focusLeaf_sameFrame fuel targetSession targetLeaf)) t
    cases buffer.attachment.view with
    | none => exact .mono namesWith_wastes (.pure _) (Nat.zero_le 1)
    | some sourceView =>
      refine .ask_bind namesWith_wastes fun sourceSession _ ↦ ?_
      split
      · exact .mono namesWith_wastes (.throw _) (Nat.zero_le 1)
      · exact closeNode_names fuel sourceView s

/-- The popup of a snapshot is one of the state that the snapshot was taken of. -/
theorem floating_of_captureNodeOwnerSnapshot {nodeId : NodeId} {floatingId : FloatingId}
    {window : FloatingWindow} {index : ℕ} {focused : Option FloatingId}
    (h : captureNodeOwnerSnapshot nodeId s = .ok (.floating floatingId window index focused)) :
    s.floating[floatingId]? = some window := by
  obtain ⟨parent, -, h⟩ := Answer.ok_bind h
  cases parent with
  | some parentId =>
    obtain ⟨slot, -, h⟩ := Answer.ok_bind h
    cases h
  | none =>
    dsimp only at h
    split at h
    · obtain ⟨found, hfound, h⟩ := Answer.ok_bind h
      obtain ⟨session, -, h⟩ := Answer.ok_bind h
      obtain ⟨i, -, h⟩ := Answer.ok_bind h
      cases h
      exact floatingWindow_eq_ok.mp hfound
    · cases h

/-- Going back to an owner of the earlier state. A popup that was taken out comes back. -/
theorem restoreNodeOwner_names {nodeId : NodeId} {owner : NodeOwnerSnapshot}
    (howner : captureNodeOwnerSnapshot nodeId base = .ok owner) (s : ServerState) :
    Spends (NamesWith base) 0 (restoreNodeOwner nodeId owner) s := by
  cases owner with
  | parent parentId slot =>
    exact spends_of_shrink (.bind (restoreParentSlot_shrink parentId nodeId slot) fun _ ↦
      setParent_shrink nodeId _) s
  | floating floatingId window index focused =>
    have hwindow := floating_of_captureNodeOwnerSnapshot howner
    refine fun r h ↦ listFloating_names (f := fun session ↦ { session with
        floating := session.floating.insertIdx (min index session.floating.length) floatingId
        focusedFloating := focused })
      (fun _ ↦ rfl) (fun session ↦ ⟨?_, ?_⟩) (setParent_shrink nodeId none) h
      (h.follows.since.floating.putBack hwindow (Std.Refl.refl window)) fun hbase ↦ ?_
    · exact (List.mem_insertIdx (Nat.min_le_right _ _)).mpr (.inl rfl)
    · exact fun other hmem ↦ (List.mem_insertIdx (Nat.min_le_right _ _)).mpr (.inr hmem)
    · -- the session was there when the snapshot was taken, and no session is closed on the way
      obtain ⟨session, hsession, -⟩ := hbase floatingId window hwindow
      refine h.stays _ ?_
      rw [← Std.ExtTreeMap.isSome_getElem?_iff_mem, hsession, Option.isSome_some]

theorem rollbackDetachedNode_names {nodeId : NodeId} {owner : NodeOwnerSnapshot}
    (howner : captureNodeOwnerSnapshot nodeId base = .ok owner) (s : ServerState) :
    Spends (NamesWith base) 0 (rollbackDetachedNode nodeId owner) s := by
  refine .ask_bind namesWith_wastes fun parent _ ↦ .gets_bind ?_
  split
  · exact .bind_right namesWith_wastes (spends_of_shrink (detachNodeFromOwner_shrink nodeId) s)
      fun _ t _ ↦ restoreNodeOwner_names howner t
  · exact restoreNodeOwner_names howner s

theorem placeBroken_names (fuel : ℕ) (sessionId : SessionId) (nodeId : NodeId) (title : String)
    (doFocus : Bool) (place : BrokenPlace) (s : ServerState) :
    Spends (NamesWith base) 1 (placeBroken fuel sessionId nodeId title doFocus place) s := by
  cases place with
  | popup geometry =>
    exact .bind_left namesWith_wastes (createFloatingWindow_names fuel sessionId nodeId geometry
      (some title) true true s) fun _ _ _ ↦ .pure _
  | tab tabsId index =>
    exact .mono namesWith_wastes (spends_of_shrink (.bind (addTabSiblingAtWithFocus_shrink fuel tabsId
      index title nodeId doFocus) fun _ ↦ .pure _) s) (Nat.zero_le 1)

theorem breakNode_names (fuel : ℕ) (nodeId : NodeId) (toFloating : Bool) (s : ServerState) :
    Spends (NamesWith s) 1 (breakNode fuel nodeId toFloating) s := by
  refine .ask_bind namesWith_wastes fun already _ ↦ ?_
  split
  · exact .mono namesWith_wastes (.pure _) (Nat.zero_le 1)
  refine .ask_bind namesWith_wastes fun sessionId _ ↦ .ask_bind namesWith_wastes fun title _ ↦
    .ask_bind namesWith_wastes fun doFocus _ ↦ .ask_bind namesWith_wastes fun owner howner ↦
    .bind_right namesWith_wastes (spends_of_shrink (detachNodeFromOwner_shrink nodeId) s)
    fun oldParent t _ ↦ .ask_bind namesWith_wastes fun place _ ↦ .bind_left namesWith_wastes ?_
    fun _ u _ ↦ spends_of_shrink (.bind (normalizeUpwards_shrink fuel fuel oldParent) fun _ ↦
      keeps_shrink_of_sameFrame (normalizeZoomedNode_sameFrame fuel sessionId)) u
  refine .bind_left namesWith_wastes
    (.attempt (placeBroken_names fuel sessionId nodeId title doFocus place t)) fun result u _ ↦ ?_
  cases result with
  | ok => exact .pure _
  | error =>
    refine .bind_right namesWith_wastes (.attempt (rollbackDetachedNode_names howner u))
      fun result _ _ ↦ ?_
    cases result with
    | ok => exact .throw _
    | error => exact .throw _

/-! ## Joining -/

theorem undoJoin_names (fuel : ℕ) (newView : NodeId) (wrapper : Option NodeId) (s : ServerState) :
    Spends (NamesWith base) 1 (undoJoin fuel newView wrapper) s := by
  refine .bind_left namesWith_wastes (discardBufferView_names fuel newView s) fun _ t _ ↦ ?_
  cases wrapper with
  | none => exact .pure _
  | some tabsId =>
    exact spends_of_shrink (.bind (.attempt (normalizeUpwards_shrink fuel fuel (some tabsId)))
      fun _ ↦ .pure _) t

theorem orUndoJoin_names (fuel : ℕ) (newView : NodeId) (wrapper : Option NodeId) {place : StateOp Unit}
    (hplace : Spends (NamesWith base) k place s) :
    Spends (NamesWith base) (k + 1) (orUndoJoin fuel newView wrapper place) s := by
  refine .bind namesWith_wastes (.attempt hplace) fun result t _ ↦ ?_
  cases result with
  | ok => exact .mono namesWith_wastes (.pure _) (Nat.zero_le 1)
  | error =>
    exact .bind_left namesWith_wastes (undoJoin_names fuel newView wrapper t) fun _ _ _ ↦ .throw _

theorem joinTabs_names (fuel : ℕ) (nodeId : NodeId) (s : ServerState) :
    Spends (NamesWith base) 1 (joinTabs fuel nodeId) s := by
  have hnothing : ∀ a : NodeId × Bool, Spends (NamesWith base) 1 (pure a : StateOp (NodeId × Bool)) s :=
    fun a ↦ .mono namesWith_wastes (.pure a) (Nat.zero_le 1)
  refine .ask_bind namesWith_wastes fun node _ ↦ ?_
  split
  · exact hnothing _
  · refine .ask_bind namesWith_wastes fun parent _ ↦ ?_
    cases parent with
    | some parentId => exact hnothing _
    | none =>
      exact .ask_bind namesWith_wastes fun title _ ↦ .bind_left namesWith_wastes
        (wrapNodeInTabs_names nodeId title s) fun _ _ _ ↦ .pure _

theorem placeJoined_names (fuel : ℕ) (nodeId newView : NodeId) (bufferId : BufferId)
    (placement : NodeJoinPlacement) (doFocus : Bool) (s : ServerState) :
    Spends (NamesWith base) 2 (placeJoined fuel nodeId newView bufferId placement doFocus) s := by
  have hsplit : ∀ direction insertBefore, Spends (NamesWith base) 2
      (joinSplit fuel nodeId newView direction insertBefore doFocus) s := fun direction insertBefore ↦
    orUndoJoin_names fuel newView none (.bind_left namesWith_wastes (wrapNodeInSplitWithFocus_names fuel
      nodeId direction newView insertBefore doFocus s) fun _ _ _ ↦ .pure _)
  have htab : ∀ after, Spends (NamesWith base) 2
      (joinTab fuel nodeId newView bufferId after doFocus) s := fun after ↦
    .ask_bind namesWith_wastes fun buffer _ ↦ .bind (k := 1) (l := 1) namesWith_wastes
      (joinTabs_names fuel nodeId s) fun tabs t _ ↦ .ask_bind namesWith_wastes fun index _ ↦
      orUndoJoin_names (k := 0) fuel newView _ (spends_of_shrink (.bind (addTabSiblingAtWithFocus_shrink
        fuel tabs.1 index buffer.title newView doFocus) fun _ ↦ .pure _) t)
  cases placement with
  | left => exact hsplit .vertical true
  | right => exact hsplit .vertical false
  | up => exact hsplit .horizontal true
  | down => exact hsplit .horizontal false
  | tabBefore => exact htab false
  | tabAfter => exact htab true

theorem finishJoin_names (fuel : ℕ) (bufferId : BufferId) (newView : NodeId) (sourceView : Option NodeId)
    (s : ServerState) : Spends (NamesWith base) 2 (finishJoin fuel bufferId newView sourceView) s := by
  cases sourceView with
  | none => exact .mono namesWith_wastes (.pure _) (Nat.zero_le 2)
  | some sourceView =>
    refine .bind (k := 1) (l := 1) namesWith_wastes (.attempt (closeNode_names fuel sourceView s))
      fun result t _ ↦ ?_
    cases result with
    | ok =>
      exact .mono namesWith_wastes (spends_of_shrink (setBufferAttached_shrink bufferId newView) t)
        (Nat.zero_le 1)
    | error =>
      refine .bind_left namesWith_wastes (.attempt (closeNode_names fuel newView t)) fun result _ _ ↦ ?_
      cases result with
      | ok => exact .throw _
      | error => exact .throw _

theorem joinBufferAtNode_names (fuel : ℕ) (nodeId : NodeId) (bufferId : BufferId)
    (placement : NodeJoinPlacement) (s : ServerState) :
    Spends (NamesWith base) 5 (joinBufferAtNode fuel nodeId bufferId placement) s := by
  refine .ask_bind namesWith_wastes fun targetSession _ ↦ .ask_bind namesWith_wastes fun doFocus _ ↦
    .ask_bind namesWith_wastes fun sourceView _ ↦ .bind (k := 1) (l := 4) namesWith_wastes ?_
    fun newView t _ ↦ .bind (k := 2) (l := 2) namesWith_wastes
      (placeJoined_names fuel nodeId newView bufferId placement doFocus t) fun _ u _ ↦
    .bind_left namesWith_wastes (finishJoin_names fuel bufferId newView sourceView u) fun _ v _ ↦
      spends_of_frame (normalizeZoomedNode_sameFrame fuel targetSession) v
  rw [createJoinView]
  split
  · exact createUnattachedBufferView_names targetSession bufferId s
  · exact createBufferView_names targetSession bufferId s

end ServerState

/-! ## Runs -/

namespace Command

open ServerState Op

variable {s s' t u : ServerState}

/-- However a command ends, it makes no more than five things of a kind, and one for each buffer. -/
theorem run_follows (fuel : ℕ) (command : Command) (hroom : Room (s.buffers.size + 5) s) :
    Follows s (command.run fuel s).2 := by
  have spent : ∀ {m : StateOp Unit}, Spends (NamesWith s) (s.buffers.size + 5) m s → Follows s (m s).2 := by
    intro m hm
    have hroomy : Room (0 + (s.buffers.size + 5)) s := by rwa [Nat.zero_add]
    exact (hm 0 ⟨follows_refl s, hroomy, fun _ ↦ id⟩).follows
  by_cases hclose : ∃ sessionId, command = .closeSession sessionId
  · obtain ⟨sessionId, rfl⟩ := hclose
    exact closeSession_follows fuel sessionId s
  refine spent ?_
  have few : ∀ {α : Type} {m : StateOp α} {k : ℕ}, Spends (NamesWith s) k m s → k ≤ 5 →
      Spends (NamesWith s) (s.buffers.size + 5) m s := fun hm hk ↦
    .mono namesWith_wastes hm (by omega)
  have dropped : ∀ {α : Type} {m : StateOp α} {k : ℕ}, Spends (NamesWith s) k m s → k ≤ 5 →
      Spends (NamesWith s) (s.buffers.size + 5) (void m) s := fun hm hk ↦
    few (.bind_left namesWith_wastes hm fun _ _ _ ↦ .pure _) hk
  have shrinks : ∀ {m : StateOp Unit}, Keeps Shrink m →
      Spends (NamesWith s) (s.buffers.size + 5) m s := fun hm ↦
    few (spends_of_shrink hm s) (Nat.zero_le 5)
  have framed : ∀ {m : StateOp Unit}, Keeps SameFrame m →
      Spends (NamesWith s) (s.buffers.size + 5) m s := fun hm ↦
    few (spends_of_frame hm s) (Nat.zero_le 5)
  cases command with
  | createSession name now => exact dropped (createSession_names name now s) (by decide)
  | closeSession sessionId => exact absurd ⟨sessionId, rfl⟩ hclose
  | renameSession sessionId name => exact shrinks (renameSession_shrink sessionId name)
  | setSessionBaseIndex sessionId baseIndex =>
    exact shrinks (.bind (sessionMut_shrink sessionId (fun _ ↦ rfl) fun _ ↦ rfl) fun _ ↦ .modify fun s ↦
      ⟨.refl _, .refl _, .refl _, .refl _, rfl, rfl, rfl, rfl, fun _ ↦ id, id⟩)
  | setSessionViewport sessionId viewport paneTitles =>
    exact shrinks (.bind (sessionMut_shrink sessionId (fun _ ↦ rfl) fun _ ↦ rfl) fun _ ↦ .modify fun s ↦
      ⟨.refl _, .refl _, .refl _, .refl _, rfl, rfl, rfl, rfl, fun _ ↦ id, id⟩)
  | createBufferWithEnv title command cwd env now =>
    exact dropped (insertBuffer_names (.new title command cwd env now) s) (by decide)
  | createHelperBuffer title sourceBufferId scope cwd lines now =>
    exact dropped (.ask_bind namesWith_wastes fun source _ ↦ insertBuffer_names _ s)
      (by decide)
  | removeBuffer bufferId => exact shrinks (.bind (removeBuffer_shrink bufferId) fun _ ↦ .pure _)
  | disposeExitedBuffers =>
    exact .mono namesWith_wastes (.bind_left namesWith_wastes (disposeExitedBuffers_names fuel s)
      fun _ _ _ ↦ .pure _) (Nat.le_add_right _ _)
  | markBufferRunning bufferId pid => exact shrinks (markBufferRunning_shrink bufferId pid)
  | markBufferInterrupted bufferId pid => exact shrinks (markBufferInterrupted_shrink bufferId pid)
  | markBufferExited bufferId exitCode now =>
    exact shrinks (markBufferExited_shrink bufferId exitCode now)
  | interruptUnrecoverableBuffers => exact shrinks interruptUnrecoverableBuffers_shrink
  | setBufferPlacement bufferId placement =>
    exact shrinks (bufferMut_shrink bufferId fun _ ↦ sameThing_of_buffer rfl rfl rfl rfl rfl rfl)
  | setBufferSize bufferId size =>
    exact shrinks (bufferMut_shrink bufferId fun _ ↦ sameThing_of_buffer rfl rfl rfl rfl rfl rfl)
  | syncBufferViewSize bufferId =>
    exact shrinks (.bind (syncBufferViewSize_shrink bufferId) fun _ ↦ .pure _)
  | noteBufferOutput bufferId =>
    exact shrinks (.bind (noteBufferOutput_shrink bufferId) fun _ ↦ .pure _)
  | setBufferTitle bufferId title =>
    exact shrinks (bufferMut_shrink bufferId fun _ ↦ sameThing_of_buffer rfl rfl rfl rfl rfl rfl)
  | setBufferActivity bufferId newActivity =>
    exact framed (setBufferActivity_sameFrame bufferId newActivity)
  | acknowledgeShownActivity sessionId =>
    exact framed (.bind (acknowledgeShownActivity_sameFrame fuel sessionId) fun _ ↦ .pure _)
  | createBufferView sessionId bufferId =>
    exact dropped (createBufferView_names sessionId bufferId s) (by decide)
  | createSplitNode sessionId direction children =>
    exact dropped (createSplitNode_names sessionId direction children s) (by decide)
  | createTabsNode sessionId tabs active =>
    exact dropped (createTabsNode_names sessionId tabs active s) (by decide)
  | createFloatingWindow sessionId rootNode geometry title focus closeOnEmpty =>
    exact dropped (createFloatingWindow_names fuel sessionId rootNode geometry title focus
      closeOnEmpty s) (by decide)
  | createFloatingFromBuffer sessionId bufferId geometry title focus closeOnEmpty =>
    exact dropped (createFloatingFromBuffer_names fuel sessionId bufferId geometry title focus
      closeOnEmpty s) (by decide)
  | closeFloating floatingId => exact shrinks (closeFloating_shrink fuel floatingId)
  | focusFloating floatingId => exact framed (focusFloating_sameFrame fuel floatingId)
  | moveFloating floatingId geometry => exact shrinks (floatingMut_shrink floatingId fun _ ↦ rfl)
  | setFloatingBorder floatingId border => exact shrinks (floatingMut_shrink floatingId fun _ ↦ rfl)
  | addRootTabFromBuffer sessionId title bufferId =>
    exact dropped (addRootTabFromBuffer_names fuel sessionId title bufferId s) (by decide)
  | addRootTabFromSubtree sessionId title child =>
    exact shrinks (.bind (.bind (.ask _) fun rootTabs ↦ addTabSibling_shrink fuel rootTabs title child)
      fun _ ↦ .pure _)
  | addTabSiblingAt tabsId index title child =>
    exact shrinks (.bind (addTabSiblingAtWithFocus_shrink fuel tabsId index title child true)
      fun _ ↦ .pure _)
  | addTabFromBufferAt tabsId index title bufferId =>
    exact dropped (addTabFromBufferAt_names fuel tabsId index title bufferId s) (by decide)
  | selectRootTab sessionId index =>
    exact framed (.bind (.ask _) fun rootTabs ↦ switchTab_sameFrame fuel rootTabs index)
  | renameRootTab sessionId index title =>
    exact shrinks (.bind (.ask _) fun rootTabs ↦ renameTab_shrink rootTabs index title)
  | renameTab tabsId index title => exact shrinks (renameTab_shrink tabsId index title)
  | setRootTabSynchronizePanes sessionId index enabled =>
    exact shrinks (.bind (setRootTabSynchronizePanes_shrink sessionId index enabled) fun _ ↦ .pure _)
  | closeRootTab sessionId index =>
    exact shrinks (.bind (.ask _) fun rootTabs ↦ closeTab_shrink fuel rootTabs index)
  | switchTab tabsId index => exact framed (switchTab_sameFrame fuel tabsId index)
  | closeTab tabsId index => exact shrinks (closeTab_shrink fuel tabsId index)
  | wrapNodeInTabs nodeId title => exact dropped (wrapNodeInTabs_names nodeId title s) (by decide)
  | wrapNodeInSplit nodeId direction sibling insertBefore =>
    exact dropped (wrapNodeInSplitWithFocus_names fuel nodeId direction sibling insertBefore true s)
      (by decide)
  | splitLeafWithNewBuffer leafId direction newBuffer =>
    exact dropped (splitLeafWithNewBuffer_names fuel leafId direction newBuffer s) (by decide)
  | resizeSplitChildren splitId sizes => exact shrinks (resizeSplitChildren_shrink splitId sizes)
  | replaceNode nodeId replacement => exact shrinks (replaceNode_shrink fuel nodeId replacement)
  | closeNode nodeId => exact few (closeNode_names fuel nodeId s) (by decide)
  | swapSiblingNodes firstNodeId secondNodeId =>
    exact shrinks (rearrange_shrink _ _ _ _ (fun _ _ _ ↦ ⟨rfl, rfl⟩) fun _ _ _ ↦ rfl)
  | moveNodeBefore nodeId siblingNodeId =>
    exact shrinks (rearrange_shrink _ _ _ _ (fun _ _ _ ↦ ⟨rfl, rfl⟩) fun _ _ _ ↦ rfl)
  | moveNodeAfter nodeId siblingNodeId =>
    exact shrinks (rearrange_shrink _ _ _ _ (fun _ _ _ ↦ ⟨rfl, rfl⟩) fun _ _ _ ↦ rfl)
  | breakNode nodeId toFloating => exact few (breakNode_names fuel nodeId toFloating s) (by decide)
  | joinBufferAtNode nodeId bufferId placement =>
    exact few (joinBufferAtNode_names fuel nodeId bufferId placement s) (by decide)
  | attachBuffer bufferId nodeId => exact shrinks (attachBuffer_shrink bufferId nodeId)
  | moveBufferToLeaf bufferId targetLeaf =>
    exact few (moveBufferToLeaf_names fuel bufferId targetLeaf s) (by decide)
  | detachBuffer bufferId => exact few (detachBuffer_names fuel bufferId s) (by decide)
  | focusLeaf sessionId leafId => exact framed (focusLeaf_sameFrame fuel sessionId leafId)
  | selectPane sessionId leafId => exact framed (selectPane_sameFrame fuel sessionId leafId)
  | showNode sessionId nodeId => exact framed (showNode_sameFrame fuel sessionId nodeId)
  | focusLastPane sessionId => exact framed (focusLastPane_sameFrame fuel sessionId)
  | zoomNode nodeId => exact framed (zoomNode_sameFrame fuel nodeId)
  | unzoomSession sessionId => exact framed (unzoomSession_sameFrame sessionId)
  | toggleZoomNode nodeId => exact framed (toggleZoomNode_sameFrame fuel nodeId)

/-- A command that is carried out, whether it returns or fails, while ids are left for what it makes. -/
def RoomyStep (s s' : ServerState) : Prop :=
  ∃ fuel command, Room (s.buffers.size + 5) s ∧ Ends fuel command s s'

theorem RoomyStep.follows (h : RoomyStep s s') : Follows s s' := by
  obtain ⟨fuel, command, hroom, rfl, -⟩ := h
  exact run_follows fuel command hroom

theorem follows_of_run (hrun : Relation.ReflTransGen RoomyStep s s') : Follows s s' := by
  induction hrun with
  | refl => exact follows_refl s
  | tail _ hstep ih => exact ih.trans hstep.follows

/-- All ids in use have been handed out. -/
structure Numbered (s : ServerState) : Prop where
  sessions : HandedOut EntityId.number s.sessions s.sessionIds.next
  buffers : HandedOut EntityId.number s.buffers s.bufferIds.next
  nodes : HandedOut EntityId.number s.nodes s.nodeIds.next
  floating : HandedOut EntityId.number s.floating s.floatingIds.next

theorem numbered_new : Numbered ServerState.new where
  sessions _ _ h := by cases h
  buffers _ _ h := by cases h
  nodes _ _ h := by cases h
  floating _ _ h := by cases h

theorem Numbered.of_namesSince (hs : Numbered s) (h : NamesSince s s') : Numbered s' :=
  ⟨h.sessions.handedOut hs.sessions, h.buffers.handedOut hs.buffers, h.nodes.handedOut hs.nodes,
    h.floating.handedOut hs.floating⟩

/-- Every popup is listed by its session, after any commands with any outcomes. -/
theorem floatingListed_of_run (hrun : Relation.ReflTransGen RoomyStep ServerState.new s) :
    s.FloatingListed := (follows_of_run hrun).listed numbered_new.sessions fun _ _ h ↦ by cases h

/-- What an id names in both states is the same thing, and an id of the first that the second does not
use is not in use in the third. -/
def NamesOnce {κ : IdKind} {α : Type} (same : α → α → Prop) (table : ServerState → Table (EntityId κ) α)
    (s t u : ServerState) : Prop :=
  ∀ (id : EntityId κ) (v : α), (table s)[id]? = some v →
    (∀ v', (table t)[id]? = some v' → same v v') ∧ ((table t)[id]? = none → (table u)[id]? = none)

theorem namesOnce_of_since {κ : IdKind} {α : Type} {same : α → α → Prop}
    {table : ServerState → Table (EntityId κ) α} {ids : ServerState → IdAllocator κ}
    (hout : HandedOut EntityId.number (table s) (ids s).next)
    (h : Since EntityId.number same (table s) (ids s).next (table t) (ids t).next)
    (h' : Since EntityId.number same (table t) (ids t).next (table u) (ids u).next) :
    NamesOnce same table s t u := by
  intro id v hv
  refine ⟨fun v' hv' ↦ h.same_of_get? hout hv hv', fun hgone ↦ ?_⟩
  have hlt : id.number < (ids t).next := (hout id v hv).trans_le h.le
  exact h'.get?_eq_none hlt hgone

/-- From a new server through any commands with any outcomes, while ids are left: an id names one thing
for as long as it is in use, and never again after that. -/
theorem namesOnce_of_run (hs : Relation.ReflTransGen RoomyStep ServerState.new s)
    (ht : Relation.ReflTransGen RoomyStep s t) (hu : Relation.ReflTransGen RoomyStep t u) :
    NamesOnce Session.SameThing ServerState.sessions s t u ∧
    NamesOnce Buffer.SameThing ServerState.buffers s t u ∧
    NamesOnce Node.SameThing ServerState.nodes s t u ∧
    NamesOnce FloatingWindow.SameThing ServerState.floating s t u := by
  have hnumbered := numbered_new.of_namesSince (follows_of_run hs).since
  have hst := (follows_of_run ht).since
  have htu := (follows_of_run hu).since
  exact ⟨namesOnce_of_since hnumbered.sessions hst.sessions htu.sessions,
    namesOnce_of_since hnumbered.buffers hst.buffers htu.buffers,
    namesOnce_of_since hnumbered.nodes hst.nodes htu.nodes,
    namesOnce_of_since hnumbered.floating hst.floating htu.floating⟩

/-- Few ids are in use. -/
def roomy (_ : Command) (s : ServerState) : Bool :=
  s.sessionIds.counter.toNat + s.buffers.size < 100 && s.bufferIds.counter.toNat + s.buffers.size < 100 &&
    s.nodeIds.counter.toNat + s.buffers.size < 100 && s.floatingIds.counter.toNat + s.buffers.size < 100

theorem roomyStep_of_roomy {fuel : ℕ} (command : Command) (s s' : ServerState)
    (hroomy : roomy command s = true) (hends : Ends fuel command s s') : RoomyStep s s' := by
  simp only [roomy, Bool.and_eq_true, decide_eq_true_eq] at hroomy
  obtain ⟨⟨⟨hsessions, hbuffers⟩, hnodes⟩, hfloating⟩ := hroomy
  refine ⟨fuel, command, ⟨?_, ?_, ?_, ?_⟩, hends⟩ <;> rw [IdAllocator.next] <;> omega

/-- A popup of a buffer. -/
def popupOpened : List Command :=
  [.createSession "main" ⟨0⟩, .createBufferWithEnv "one" [] none ∅ ⟨0⟩,
    .createFloatingFromBuffer ⟨1⟩ ⟨1⟩ ⟨0, 0, 20, 5⟩ (some "one") true true]

/-- The popup is closed. -/
def popupClosed : List Command := [.closeFloating ⟨1⟩]

/-- The buffer is shown in another popup. -/
def popupReopened : List Command := [.createFloatingFromBuffer ⟨1⟩ ⟨1⟩ ⟨0, 0, 20, 5⟩ none true true]

/-- Whether the first popup and the second are there. -/
def popups (s : ServerState) : Bool × Bool :=
  (s.floating[(⟨1⟩ : FloatingId)]?.isSome, s.floating[(⟨2⟩ : FloatingId)]?.isSome)

theorem popups_run : (runEach 20 roomy popupOpened ServerState.new).bind (fun s ↦
    (runEach 20 roomy popupClosed s).bind fun t ↦ (runEach 20 roomy popupReopened t).map fun u ↦
      (popups s, popups t, popups u)) = some ((true, false), (false, false), (false, true)) := by
  decide +kernel

/-- The second popup is another one. -/
theorem namesOnce_of_run_popups : ∃ s u : ServerState, Relation.ReflTransGen RoomyStep s u ∧
    popups s = (true, false) ∧ u.floating[(⟨1⟩ : FloatingId)]? = none ∧ popups u = (false, true) := by
  obtain ⟨s, hs, h⟩ := Option.bind_eq_some_iff.mp popups_run
  obtain ⟨t, ht, h⟩ := Option.bind_eq_some_iff.mp h
  obtain ⟨u, hu, hpopups⟩ := Option.map_eq_some_iff.mp h
  have hopened : popups s = (true, false) := congrArg Prod.fst hpopups
  have hclosed : popups t = (false, false) := congrArg (Prod.fst ∘ Prod.snd) hpopups
  have hreopened : popups u = (false, true) := congrArg (Prod.snd ∘ Prod.snd) hpopups
  have hrunS := runEach_steps roomyStep_of_roomy hs
  have hrunT := runEach_steps roomyStep_of_roomy ht
  have hrunU := runEach_steps roomyStep_of_roomy hu
  obtain ⟨popup, hpopup⟩ := Option.isSome_iff_exists.mp (congrArg Prod.fst hopened)
  have hgone : t.floating[(⟨1⟩ : FloatingId)]? = none :=
    Option.not_isSome_iff_eq_none.mp (Bool.eq_false_iff.mp (congrArg Prod.fst hclosed))
  have hnames := (namesOnce_of_run hrunS hrunT hrunU).2.2.2 ⟨1⟩ popup hpopup
  exact ⟨s, u, hrunT.trans hrunU, hopened, hnames.2 hgone, hreopened⟩

end Command

end Embers
