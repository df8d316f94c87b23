import Embers.Client.HostReplies

/-!
# The queries that attaching left unanswered

When the wait for the host's replies runs out, `PendingAttachQueries` remembers which queries are not
answered yet. A reply that comes later is the client's if it answers one of them, and a pane's
otherwise: a pane may have sent the same query through. What it remembers is compared with the queries
that no reply has answered.
-/

namespace Embers.Client

open Needles

/-! ## Pending queries -/

/-- The queries the host has not answered yet. -/
structure PendingAttachQueries where
  version : Bool
  termcaps : Finset String
  kittyGraphics : Bool
  deviceAttributes : Bool
  /-- When whatever is still outstanding stops being expected. -/
  deadline : Option ℕ
  deriving DecidableEq

/-- The capabilities that attaching asks about. -/
def queriedTermcaps : Finset String := {"Smulx", "Setulc"}

namespace PendingAttachQueries

def default : PendingAttachQueries := ⟨false, ∅, false, false, none⟩

def after (replies : HostReplies) (deadline : ℕ) : PendingAttachQueries :=
  if replies.deviceAttributes then default
  else
    { version := replies.version.isNone
      termcaps := queriedTermcaps.filter (· ∉ replies.answeredTermcaps)
      kittyGraphics := !replies.kittyGraphics
      deviceAttributes := true
      deadline := some deadline }

def isEmpty (pending : PendingAttachQueries) : Bool :=
  !pending.version ∧ pending.termcaps = ∅ ∧ !pending.kittyGraphics ∧ !pending.deviceAttributes

/-- Whether the deadline is past. -/
def expired (pending : PendingAttachQueries) (now : ℕ) : Bool := pending.deadline.any (· ≤ now)

end PendingAttachQueries

/-- `strip_prefix` and then `strip_suffix`. -/
def stripEnds (opening closing bytes : List UInt8) : Option (List UInt8) :=
  (bytes.dropPrefix? opening).bind (·.dropSuffix? closing)

/-- The entries of a reply about capabilities, found or not. -/
def termcapEntries : List UInt8 → Option (List UInt8)
  | 0x31 :: 0x2b :: 0x72 :: found => some found
  | 0x30 :: 0x2b :: 0x72 :: missing => some missing
  | _ => none

namespace PendingAttachQueries

/-- What `take_reply` does with a DCS string. -/
def takeDcs (pending : PendingAttachQueries) (body : List UInt8) : Bool × PendingAttachQueries :=
  match body with
  | 0x3e :: 0x7c :: _ => (pending.version, { pending with version := false })
  | _ =>
    match (termcapEntries body).bind termcapReplyNames with
    | none => (false, pending)
    | some names =>
      if names.all (· ∈ pending.termcaps) then
        (true, { pending with termcaps := pending.termcaps \ names.toFinset })
      else (false, pending)

/-- Whether a control sequence answers a query that is outstanding, which is then answered. -/
def takeReply (pending : PendingAttachQueries) (reply : List UInt8) (now : ℕ) :
    Bool × PendingAttachQueries :=
  let pending := if pending.expired now then default else pending
  if pending.isEmpty then (false, pending)
  else
    match stripEnds [esc, 0x5f] stringTerminator reply with
    | some body =>
      if isGraphicsQueryReply body then
        (pending.kittyGraphics, { pending with kittyGraphics := false })
      else (false, pending)
    | none =>
      match stripEnds [esc, 0x50] stringTerminator reply with
      | some body => pending.takeDcs body
      | none =>
        if ((stripEnds [esc, 0x5b, 0x3f] [0x63] reply).any (·.all isParameter)) ∧
            pending.deviceAttributes then (true, default)
        else (false, pending)

end PendingAttachQueries

/-! ## Queries and answers -/

/-- What attaching asks the host. -/
inductive Query where
  | version
  | termcap (name : String)
  | graphics
  | deviceAttributes
  deriving DecidableEq

/-- The queries that attaching sends. -/
def queried : Set Query :=
  {query | match query with
    | .termcap name => name ∈ queriedTermcaps
    | _ => True}

/-- The queries that a reply answers. -/
def HostReply.answers : HostReply → Set Query
  | .version _ => {.version}
  | .termcaps _ entries => {query | ∃ entry ∈ entries, ∃ name ∈ entry.name, query = .termcap name}
  | .graphics _ _ => {.graphics}
  | .deviceAttributes _ => {.deviceAttributes}

/-- The queries that what was read answers. -/
def HostReplies.answered (replies : HostReplies) : Set Query :=
  {query | match query with
    | .version => replies.version.isSome = true
    | .termcap name => name ∈ replies.answeredTermcaps
    | .graphics => replies.kittyGraphics = true
    | .deviceAttributes => replies.deviceAttributes = true}

/-- The queries that are expected to be answered. -/
def PendingAttachQueries.outstanding (pending : PendingAttachQueries) : Set Query :=
  {query | match query with
    | .version => pending.version = true
    | .termcap name => name ∈ pending.termcaps
    | .graphics => pending.kittyGraphics = true
    | .deviceAttributes => pending.deviceAttributes = true}

/-! ## Bytes and the replies they are -/

theorem stripEnds_eq_some {opening closing bytes body : List UInt8} :
    stripEnds opening closing bytes = some body ↔ bytes = opening ++ (body ++ closing) := by
  rw [stripEnds, Option.bind_eq_some_iff]
  simp only [List.dropPrefix?_eq_some_iff, List.dropSuffix?_eq_some_iff, beq_iff_eq,
    exists_eq_right]

/-- Sequences with another introducer. -/
theorem stripEnds_eq_none {opener other : UInt8} (h : opener ≠ other) (more closing rest : List UInt8) :
    stripEnds (esc :: other :: more) closing (esc :: opener :: rest) = none := by
  refine Option.eq_none_iff_forall_not_mem.mpr fun body hbody ↦ h ?_
  have hbytes := stripEnds_eq_some.mp hbody
  exact (List.cons.inj (List.cons.inj hbytes).2).1

namespace TermcapEntry

variable {entry : TermcapEntry}

theorem termcapName_encode (h : 0x3d ∉ entry.hex) : termcapName entry.encode = entry.name := by
  rw [termcapName, encode, takeWhile_separated h, name]

theorem semicolon_notMem_encode (hhex : 0x3b ∉ entry.hex) (hvalue : ∀ value ∈ entry.value, 0x3b ∉ value) :
    0x3b ∉ entry.encode := by
  rw [encode, List.mem_append, not_or]
  refine ⟨hhex, ?_⟩
  cases heq : entry.value with
  | none => exact List.not_mem_nil
  | some value =>
    refine fun hmem ↦ (List.mem_cons.mp hmem).elim (by decide) (hvalue value heq)

/-- An entry from its bytes. -/
theorem exists_encode {bytes : List UInt8} (h : 0x3b ∉ bytes) :
    ∃ entry : TermcapEntry, entry.encode = bytes ∧ entry.name = termcapName bytes ∧
      0x3b ∉ entry.hex ∧ 0x3d ∉ entry.hex ∧ ∀ value ∈ entry.value, 0x3b ∉ value := by
  obtain ⟨hhex, value, hbytes⟩ := exists_separated 0x3d bytes
  refine ⟨⟨bytes.takeWhile (· ≠ 0x3d), value⟩, hbytes.symm, rfl, ?_, hhex, ?_⟩
  · exact fun hmem ↦ h ((List.takeWhile_subset _) hmem)
  · rintro text (rfl : value = some text) hmem
    refine h ?_
    rw [hbytes]
    exact List.mem_append_right _ (List.mem_cons_of_mem _ hmem)

end TermcapEntry

namespace HostReply

/-- Entries as a reply has them. -/
def ValidEntries (entries : List TermcapEntry) : Prop :=
  entries ≠ [] ∧ ∀ entry ∈ entries, entry.name.isSome = true ∧
    0x3b ∉ entry.hex ∧ 0x3d ∉ entry.hex ∧ ∀ value ∈ entry.value, 0x3b ∉ value

theorem termcapReplyNames_entries {entries : List TermcapEntry} (h : ValidEntries entries) :
    termcapReplyNames ([0x3b].intercalate (entries.map TermcapEntry.encode)) =
      some (entries.filterMap TermcapEntry.name) := by
  obtain ⟨hne, hentries⟩ := h
  have hseparate : ∀ text ∈ entries.map TermcapEntry.encode, 0x3b ∉ text := by
    intro text hmem
    obtain ⟨entry, hentry, rfl⟩ := List.mem_map.mp hmem
    obtain ⟨-, hhex, -, hvalue⟩ := hentries entry hentry
    exact TermcapEntry.semicolon_notMem_encode hhex hvalue
  rw [termcapReplyNames, List.splitOn_intercalate _ hseparate (mt List.map_eq_nil_iff.mp hne)]
  clear hne hseparate
  induction entries with
  | nil => rfl
  | cons entry entries ih =>
    obtain ⟨⟨hname, -, hequals, -⟩, hrest⟩ := List.forall_mem_cons.mp hentries
    obtain ⟨name, hname⟩ := Option.isSome_iff_exists.mp hname
    rw [List.map_cons, List.mapM_cons, ih hrest, TermcapEntry.termcapName_encode hequals, hname,
      List.filterMap_cons_some hname]
    rfl

theorem exists_map_encode {pieces : List (List UInt8)} {names : List String}
    (hpieces : ∀ piece ∈ pieces, 0x3b ∉ piece) (h : pieces.mapM termcapName = some names) :
    ∃ entries : List TermcapEntry, entries.map TermcapEntry.encode = pieces ∧
      entries.filterMap TermcapEntry.name = names ∧
        ∀ entry ∈ entries, entry.name.isSome = true ∧ 0x3b ∉ entry.hex ∧ 0x3d ∉ entry.hex ∧
          ∀ value ∈ entry.value, 0x3b ∉ value := by
  induction pieces generalizing names with
  | nil =>
    obtain rfl := Option.some.inj h
    exact ⟨[], rfl, rfl, List.forall_mem_nil _⟩
  | cons piece pieces ih =>
    obtain ⟨hpiece, hrest⟩ := List.forall_mem_cons.mp hpieces
    rw [List.mapM_cons] at h
    obtain ⟨name, hname, hbind⟩ := Option.bind_eq_some_iff.mp h
    obtain ⟨others, hothers, hnames⟩ := Option.bind_eq_some_iff.mp hbind
    obtain rfl := Option.some.inj hnames
    obtain ⟨entries, rfl, rfl, hentries⟩ := ih hrest hothers
    obtain ⟨entry, rfl, hentry, hvalid⟩ := TermcapEntry.exists_encode hpiece
    rw [hname] at hentry
    refine ⟨entry :: entries, rfl, List.filterMap_cons_some hentry, ?_⟩
    exact List.forall_mem_cons.mpr ⟨⟨Option.isSome_of_eq_some hentry, hvalid⟩, hentries⟩

/-- Entries from their bytes. -/
theorem exists_entries {bytes : List UInt8} {names : List String}
    (h : termcapReplyNames bytes = some names) :
    ∃ entries, ValidEntries entries ∧
      [0x3b].intercalate (entries.map TermcapEntry.encode) = bytes ∧
        entries.filterMap TermcapEntry.name = names := by
  obtain ⟨entries, hpieces, hnames, hentries⟩ :=
    exists_map_encode (fun _ ↦ notMem_of_mem_splitOn) h
  refine ⟨entries, ⟨?_, hentries⟩, ?_, hnames⟩
  · rintro rfl
    exact List.splitOn_ne_nil _ _ hpieces.symm
  · rw [hpieces, List.intercalate_splitOn]

/-- Whether the pairs of a graphics reply name the query's image. -/
theorem isGraphicsQueryReply_body {pairs : List (List UInt8)} {message : Option (List UInt8)}
    (h : (HostReply.graphics pairs message).Valid) :
    isGraphicsQueryReply (HostReply.graphics pairs message).body = true := by
  obtain ⟨hmem, hpairs⟩ := h
  have hcontrol : 0x3b ∉ [0x2c].intercalate pairs :=
    notMem_intercalate (by decide) fun pair hpair ↦ (hpairs pair hpair).2
  have hne : pairs ≠ [] := List.ne_nil_of_mem hmem
  rw [body, isGraphicsQueryReply, takeWhile_separated hcontrol,
    List.splitOn_intercalate _ (fun pair hpair ↦ (hpairs pair hpair).1) hne]
  exact List.any_eq_true.mpr ⟨graphicsQueryId, hmem, decide_eq_true rfl⟩

theorem exists_graphics {body : List UInt8} (h : isGraphicsQueryReply body = true) :
    ∃ pairs message, (HostReply.graphics pairs message).Valid ∧
      (HostReply.graphics pairs message).body = body := by
  unfold isGraphicsQueryReply at h
  split at h
  · next rest =>
    obtain ⟨hcontrol, message, hrest⟩ := exists_separated 0x3b rest
    refine ⟨(rest.takeWhile (· ≠ 0x3b)).splitOn 0x2c, message, ⟨?_, ?_⟩, ?_⟩
    · obtain ⟨pair, hpair, heq⟩ := List.any_eq_true.mp h
      rw [← of_decide_eq_true heq]
      exact hpair
    · exact fun pair hpair ↦ ⟨notMem_of_mem_splitOn hpair,
        fun hmem ↦ hcontrol (subset_of_mem_splitOn hpair hmem)⟩
    · rw [HostReply.body, List.intercalate_splitOn, ← hrest]
  · cases h

/-! ## What reading the replies answers -/

variable {reply : HostReply} {replies : HostReplies}

theorem answered_addTo (h : reply.Valid) :
    (reply.addTo replies).answered = replies.answered ∪ reply.answers := by
  ext query
  cases reply with
  | version text => cases query <;> simp [addTo, body, HostReplies.addDcs, answers, HostReplies.answered]
  | termcaps found entries =>
    have hnames := termcapReplyNames_entries h
    cases found <;> cases query <;>
      simp [addTo, body, HostReplies.addDcs, answers, HostReplies.answered, hnames]
  | graphics pairs message =>
    have hreply := isGraphicsQueryReply_body h
    cases query <;> simp [addTo, HostReplies.addApc, answers, HostReplies.answered, hreply]
  | deviceAttributes params =>
    cases query <;> simp [addTo, body, HostReplies.addCsi, answers, HostReplies.answered]

/-! ## Taking replies -/

theorem answers_nonempty (h : reply.Valid) : reply.answers.Nonempty := by
  cases reply with
  | version text => exact ⟨.version, rfl⟩
  | termcaps found entries =>
    obtain ⟨hne, hentries⟩ := h
    obtain ⟨entry, rest, rfl⟩ := List.exists_cons_of_ne_nil hne
    obtain ⟨name, hname⟩ := Option.isSome_iff_exists.mp (hentries entry List.mem_cons_self).1
    exact ⟨.termcap name, entry, List.mem_cons_self, name, hname, rfl⟩
  | graphics pairs message => exact ⟨.graphics, rfl⟩
  | deviceAttributes params => exact ⟨.deviceAttributes, rfl⟩

end HostReply

namespace PendingAttachQueries

variable {pending : PendingAttachQueries} {reply : HostReply} {now : ℕ}

/-- The queries left when a reply is taken. -/
def without (pending : PendingAttachQueries) : HostReply → PendingAttachQueries
  | .version _ => { pending with version := false }
  | .termcaps _ entries =>
    { pending with
      termcaps := pending.termcaps \ (entries.filterMap TermcapEntry.name).toFinset }
  | .graphics _ _ => { pending with kittyGraphics := false }
  | .deviceAttributes _ => default

theorem outstanding_default : default.outstanding = ∅ := by
  ext query
  cases query <;> simp [outstanding, default]

theorem outstanding_without (hearly : ¬reply.IsDeviceAttributes) :
    (pending.without reply).outstanding = pending.outstanding \ reply.answers := by
  ext query
  cases reply with
  | version text => cases query <;> simp [without, outstanding, HostReply.answers]
  | termcaps found entries => cases query <;> simp [without, outstanding, HostReply.answers]
  | graphics pairs message => cases query <;> simp [without, outstanding, HostReply.answers]
  | deviceAttributes params => exact absurd trivial hearly

theorem expired_without (h : pending.expired now = false) :
    (pending.without reply).expired now = false := by
  cases reply with
  | version text => exact h
  | termcaps found entries => exact h
  | graphics pairs message => exact h
  | deviceAttributes params => rfl

theorem outstanding_of_isEmpty (h : pending.isEmpty = true) : pending.outstanding = ∅ := by
  obtain ⟨hversion, htermcaps, hgraphics, hattributes⟩ := of_decide_eq_true h
  ext query
  cases query <;> simp_all [outstanding]

section Live

variable {body : List UInt8} (hlive : pending.expired now = false)
include hlive

theorem takeReply_of_isEmpty (hempty : pending.isEmpty = true) (bytes : List UInt8) :
    pending.takeReply bytes now = (false, pending) := by
  simp only [takeReply, hlive, Bool.false_eq_true, if_false, hempty, if_true]

variable (hsome : pending.isEmpty = false)
include hsome

theorem takeReply_apc :
    pending.takeReply (esc :: 0x5f :: (body ++ stringTerminator)) now =
      if isGraphicsQueryReply body then
        (pending.kittyGraphics, { pending with kittyGraphics := false })
      else (false, pending) := by
  have hstrip : stripEnds [esc, 0x5f] stringTerminator (esc :: 0x5f :: (body ++ stringTerminator)) =
      some body := stripEnds_eq_some.mpr rfl
  simp only [takeReply, hlive, hsome, Bool.false_eq_true, if_false, hstrip]

theorem takeReply_dcs :
    pending.takeReply (esc :: 0x50 :: (body ++ stringTerminator)) now = pending.takeDcs body := by
  have hapc : stripEnds [esc, 0x5f] stringTerminator (esc :: 0x50 :: (body ++ stringTerminator)) =
      none := stripEnds_eq_none (by decide) ..
  have hstrip : stripEnds [esc, 0x50] stringTerminator (esc :: 0x50 :: (body ++ stringTerminator)) =
      some body := stripEnds_eq_some.mpr rfl
  simp only [takeReply, hlive, hsome, Bool.false_eq_true, if_false, hapc, hstrip]

theorem takeReply_csi {bytes : List UInt8}
    (hapc : stripEnds [esc, 0x5f] stringTerminator bytes = none)
    (hdcs : stripEnds [esc, 0x50] stringTerminator bytes = none) :
    pending.takeReply bytes now =
      if (stripEnds [esc, 0x5b, 0x3f] [0x63] bytes).any (·.all isParameter) ∧
          pending.deviceAttributes then (true, default)
      else (false, pending) := by
  simp only [takeReply, hlive, hsome, Bool.false_eq_true, if_false, hapc, hdcs]

end Live

theorem takeDcs_version (pending : PendingAttachQueries) (text : List UInt8) :
    pending.takeDcs (0x3e :: 0x7c :: text) = (pending.version, { pending with version := false }) :=
  rfl

theorem takeDcs_termcaps {body entries : List UInt8} {names : List String}
    (hbody : termcapEntries body = some entries) (hnames : termcapReplyNames entries = some names) :
    pending.takeDcs body =
      if names.all (· ∈ pending.termcaps) then
        (true, { pending with termcaps := pending.termcaps \ names.toFinset })
      else (false, pending) := by
  unfold takeDcs
  split
  · cases hbody
  · simp only [hbody, Option.bind_some, hnames]

theorem exists_found {body entries : List UInt8} (h : termcapEntries body = some entries) :
    ∃ found : Bool, (if found then 0x31 else 0x30) :: 0x2b :: 0x72 :: entries = body := by
  unfold termcapEntries at h
  split at h
  · obtain rfl := Option.some.inj h
    exact ⟨true, rfl⟩
  · obtain rfl := Option.some.inj h
    exact ⟨false, rfl⟩
  · cases h

theorem takeDcs_of_none {body : List UInt8} (hversion : ∀ text, body ≠ 0x3e :: 0x7c :: text)
    (h : (termcapEntries body).bind termcapReplyNames = none) :
    pending.takeDcs body = (false, pending) := by
  unfold takeDcs
  split
  · next text => exact absurd rfl (hversion text)
  · simp only [h]

/-- Before the deadline, a reply is taken all of whose queries are outstanding. -/
theorem takeReply_encode (hlive : pending.expired now = false) (hvalid : reply.Valid)
    (h : reply.answers ⊆ pending.outstanding) :
    pending.takeReply reply.encode now = (true, pending.without reply) := by
  have hsome : pending.isEmpty = false := by
    refine Bool.of_not_eq_true fun hempty ↦ ?_
    rw [outstanding_of_isEmpty hempty] at h
    exact (HostReply.answers_nonempty hvalid).not_subset_empty h
  cases reply with
  | version text =>
    have hversion : pending.version = true := h (rfl : Query.version = _)
    rw [HostReply.encode, takeReply_dcs hlive hsome, HostReply.body, takeDcs_version, hversion,
      without]
  | termcaps found entries =>
    have hnames := HostReply.termcapReplyNames_entries hvalid
    have hall : (entries.filterMap TermcapEntry.name).all (· ∈ pending.termcaps) = true := by
      rw [List.all_eq_true]
      intro name hmem
      obtain ⟨entry, hentry, hname⟩ := List.mem_filterMap.mp hmem
      exact decide_eq_true (h ⟨entry, hentry, name, hname, rfl⟩)
    have hbody : termcapEntries (HostReply.termcaps found entries).body =
        some ([0x3b].intercalate (entries.map TermcapEntry.encode)) := by
      cases found <;> rfl
    rw [HostReply.encode, takeReply_dcs hlive hsome, takeDcs_termcaps hbody hnames, if_pos hall,
      without]
  | graphics pairs message =>
    have hgraphics : pending.kittyGraphics = true := h (rfl : Query.graphics = _)
    rw [HostReply.encode, takeReply_apc hlive hsome, HostReply.isGraphicsQueryReply_body hvalid,
      if_pos rfl, hgraphics, without]
  | deviceAttributes params =>
    have hattributes : pending.deviceAttributes = true := h (rfl : Query.deviceAttributes = _)
    have hstrip : stripEnds [esc, 0x5b, 0x3f] [0x63] (HostReply.deviceAttributes params).encode =
        some params := stripEnds_eq_some.mpr rfl
    have hapc : (0x5b : UInt8) ≠ 0x5f := by decide
    have hdcs : (0x5b : UInt8) ≠ 0x50 := by decide
    refine (takeReply_csi hlive hsome (stripEnds_eq_none hapc ..) (stripEnds_eq_none hdcs ..)).trans ?_
    exact if_pos ⟨(Option.any_eq_true _ _).mpr ⟨params, hstrip, hvalid⟩, hattributes⟩

/-- Whether a reply with these bytes answers only queries that are outstanding. -/
def Answering (pending : PendingAttachQueries) (bytes : List UInt8) : Prop :=
  ∃ reply : HostReply, reply.Valid ∧ reply.encode = bytes ∧ reply.answers ⊆ pending.outstanding

theorem takeDcs_refused {body : List UInt8}
    (h : ¬pending.Answering (esc :: 0x50 :: (body ++ stringTerminator))) :
    pending.takeDcs body = (false, pending) := by
  by_cases hversion : ∃ text, body = 0x3e :: 0x7c :: text
  · obtain ⟨text, rfl⟩ := hversion
    have hnot : pending.version = false := Bool.of_not_eq_true fun hyes ↦
      h ⟨.version text, trivial, rfl, Set.singleton_subset_iff.mpr hyes⟩
    rw [takeDcs_version, ← hnot]
  cases hbind : (termcapEntries body).bind termcapReplyNames with
  | none => exact takeDcs_of_none (fun text heq ↦ hversion ⟨text, heq⟩) hbind
  | some names =>
    obtain ⟨bytes, hbytes, hnames⟩ := Option.bind_eq_some_iff.mp hbind
    obtain ⟨entries, hvalid, rfl, rfl⟩ := HostReply.exists_entries hnames
    obtain ⟨found, rfl⟩ := exists_found hbytes
    rw [takeDcs_termcaps hbytes hnames, if_neg fun hall ↦ ?_]
    refine h ⟨.termcaps found entries, hvalid, rfl, ?_⟩
    rintro query ⟨entry, hentry, name, hname, rfl⟩
    have hmem : name ∈ entries.filterMap TermcapEntry.name :=
      List.mem_filterMap.mpr ⟨entry, hentry, hname⟩
    have hpending : name ∈ pending.termcaps := of_decide_eq_true (List.all_eq_true.mp hall name hmem)
    exact hpending

/-- Anything else is refused, and changes nothing. -/
theorem takeReply_refused (hlive : pending.expired now = false) {bytes : List UInt8}
    (h : ¬pending.Answering bytes) : pending.takeReply bytes now = (false, pending) := by
  cases hsome : pending.isEmpty with
  | true => exact takeReply_of_isEmpty hlive hsome bytes
  | false =>
    cases hapc : stripEnds [esc, 0x5f] stringTerminator bytes with
    | some body =>
      obtain rfl := stripEnds_eq_some.mp hapc
      refine (takeReply_apc hlive hsome).trans ?_
      split
      · next hreply =>
        obtain ⟨pairs, message, hvalid, rfl⟩ := HostReply.exists_graphics hreply
        have hnot : pending.kittyGraphics = false := Bool.of_not_eq_true fun hyes ↦
          h ⟨.graphics pairs message, hvalid, rfl, Set.singleton_subset_iff.mpr hyes⟩
        rw [← hnot]
      · rfl
    | none =>
      cases hdcs : stripEnds [esc, 0x50] stringTerminator bytes with
      | some body =>
        obtain rfl := stripEnds_eq_some.mp hdcs
        exact (takeReply_dcs hlive hsome).trans (takeDcs_refused h)
      | none =>
        rw [takeReply_csi hlive hsome hapc hdcs, if_neg]
        rintro ⟨hparams, hattributes⟩
        obtain ⟨params, hstrip, hall⟩ := (Option.any_eq_true _ _).mp hparams
        obtain rfl := stripEnds_eq_some.mp hstrip
        exact h ⟨.deviceAttributes params, hall, rfl, Set.singleton_subset_iff.mpr hattributes⟩

/-! ## What is outstanding -/

variable {replies : HostReplies} {deadline : ℕ}

theorem outstanding_after (h : Query.deviceAttributes ∉ replies.answered) :
    (after replies deadline).outstanding = queried \ replies.answered := by
  have hattributes : replies.deviceAttributes = false := Bool.of_not_eq_true h
  ext query
  rw [after, hattributes, if_neg Bool.false_ne_true]
  cases query <;> simp [outstanding, queried, HostReplies.answered, hattributes]

theorem expired_after (h : now < deadline) : (after replies deadline).expired now = false := by
  rw [after]
  split
  · rfl
  · exact decide_eq_false (Nat.not_le.mpr h)

end PendingAttachQueries

/-- The queries that none of the replies answers. The device attributes come last, and after them
nothing is expected. -/
def unanswered (replies : List HostReply) : Set Query :=
  {query ∈ queried | ∀ reply ∈ replies, ¬reply.IsDeviceAttributes ∧ query ∉ reply.answers}

/-- Replies to the queries: each query is answered once at most, and the device attributes last. -/
structure Replied (replies : List HostReply) : Prop where
  valid : ∀ reply ∈ replies, reply.Valid
  queried : ∀ reply ∈ replies, reply.answers ⊆ Client.queried
  once : replies.Pairwise fun earlier later ↦ Disjoint earlier.answers later.answers
  last : replies.Pairwise fun earlier _ ↦ ¬earlier.IsDeviceAttributes

section Outstanding

variable {seen more : List HostReply} {reply : HostReply} {arrivals : List Arrival}

theorem Replied.of_prefix (h : Replied more) (hbegin : seen <+: more) : Replied seen where
  valid := fun reply hmem ↦ h.valid reply (hbegin.subset hmem)
  queried := fun reply hmem ↦ h.queried reply (hbegin.subset hmem)
  once := h.once.sublist hbegin.sublist
  last := h.last.sublist hbegin.sublist

/-- The next reply answers queries that are unanswered. -/
theorem Replied.answers_subset (h : Replied (seen ++ reply :: more)) :
    reply.answers ⊆ unanswered seen := by
  have hmem : reply ∈ seen ++ reply :: more := List.mem_append_right _ List.mem_cons_self
  refine fun query hquery ↦ ⟨h.queried reply hmem hquery, fun earlier hearlier ↦ ⟨?_, ?_⟩⟩
  · exact (List.pairwise_append.mp h.last).2.2 earlier hearlier reply List.mem_cons_self
  · exact Set.disjoint_right.mp
      ((List.pairwise_append.mp h.once).2.2 earlier hearlier reply List.mem_cons_self) hquery

theorem unanswered_append_of_isDeviceAttributes (h : reply.IsDeviceAttributes) :
    unanswered (seen ++ [reply]) = ∅ := by
  refine Set.eq_empty_of_forall_notMem fun query hquery ↦ ?_
  exact (hquery.2 reply (List.mem_append_right _ List.mem_cons_self)).1 h

theorem unanswered_append (h : ¬reply.IsDeviceAttributes) :
    unanswered (seen ++ [reply]) = unanswered seen \ reply.answers := by
  ext query
  simp only [unanswered, Set.mem_ofPred_eq, Set.mem_sdiff, List.mem_append, List.mem_singleton,
    or_imp, forall_and, forall_eq]
  tauto

theorem answered_foldl (h : Early arrivals) (replies : HostReplies) :
    (arrivals.foldl (fun replies arrival ↦ arrival.reply.addTo replies) replies).answered =
      {query | query ∈ replies.answered ∨ ∃ arrival ∈ arrivals, query ∈ arrival.reply.answers} := by
  induction arrivals generalizing replies with
  | nil => simp
  | cons arrival arrivals ih =>
    obtain ⟨⟨-, hsent, -⟩, hrest⟩ := List.forall_mem_cons.mp h
    rw [List.foldl_cons, ih hrest, HostReply.answered_addTo hsent.valid]
    ext query
    simp only [Set.mem_ofPred_eq, Set.mem_union, List.exists_mem_cons_iff, or_assoc]

theorem answered_parse (h : Early arrivals) :
    (HostReplies.parse (stream (arrivals.map Arrival.alone))).answered =
      {query | ∃ arrival ∈ arrivals, query ∈ arrival.reply.answers} := by
  have halone := parseFrom_stream_alone h [] .default
  have hstream := parseFrom_stream h [] .default
  rw [List.append_nil] at halone hstream
  rw [List.append_nil] at halone
  have hdefault : HostReplies.default.answered = ∅ := by
    ext query
    cases query <;> simp [HostReplies.answered, HostReplies.default]
  rw [HostReplies.parse, halone, hstream, parseFrom, answered_foldl h, hdefault]
  simp

/-- When the wait runs out, what is outstanding are the queries that nothing read has answered. -/
theorem outstanding_after_parse (h : Early arrivals) (deadline : ℕ) :
    (PendingAttachQueries.after (.parse (stream (arrivals.map Arrival.alone))) deadline).outstanding =
      unanswered (arrivals.map Arrival.reply) := by
  have hanswered := answered_parse h
  rw [PendingAttachQueries.outstanding_after, hanswered]
  · ext query
    simp only [unanswered, Set.mem_sdiff, Set.mem_ofPred_eq, not_exists, not_and,
      List.forall_mem_map]
    refine and_congr_right fun _ ↦ forall₂_congr fun arrival hmem ↦ ?_
    exact (and_iff_right (h arrival hmem).2.2).symm
  · rw [hanswered]
    rintro ⟨arrival, hmem, hquery⟩
    refine (h arrival hmem).2.2 ?_
    cases hreply : arrival.reply with
    | deviceAttributes params => exact trivial
    | _ => simp [hreply, HostReply.answers] at hquery

end Outstanding

/-! ## What comes later -/

/-- A control sequence that comes later, and when: a reply to the client's queries or something else. -/
inductive Later where
  | own (reply : HostReply) (now : ℕ)
  | other (bytes : List UInt8) (now : ℕ)

namespace Later

def bytes : Later → List UInt8
  | .own reply _ => reply.encode
  | .other bytes _ => bytes

def now : Later → ℕ
  | .own _ now => now
  | .other _ now => now

def isOwn : Later → Bool
  | .own _ _ => true
  | .other _ _ => false

def reply? : Later → Option HostReply
  | .own reply _ => some reply
  | .other _ _ => none

end Later

/-- Which sequences are taken. -/
def takeReplies : PendingAttachQueries → List Later → List Bool
  | _, [] => []
  | pending, later :: rest =>
    (pending.takeReply later.bytes later.now).1 ::
      takeReplies (pending.takeReply later.bytes later.now).2 rest

/-- What else comes is no reply that answers a query unanswered by then. -/
def Foreign : List HostReply → List Later → Prop
  | _, [] => True
  | seen, .own reply _ :: rest => Foreign (seen ++ [reply]) rest
  | seen, .other bytes _ :: rest =>
    (∀ reply : HostReply, reply.Valid → reply.encode = bytes →
      Disjoint reply.answers (unanswered seen)) ∧ Foreign seen rest

section Run

variable {seen : List HostReply} {pending : PendingAttachQueries} {reply : HostReply} {now : ℕ}

theorem outstanding_without (hpending : pending.outstanding = unanswered seen) :
    (pending.without reply).outstanding = unanswered (seen ++ [reply]) := by
  by_cases hlast : reply.IsDeviceAttributes
  · rw [unanswered_append_of_isDeviceAttributes hlast]
    cases reply with
    | deviceAttributes params => exact PendingAttachQueries.outstanding_default
    | _ => exact hlast.elim
  · rw [PendingAttachQueries.outstanding_without hlast, unanswered_append hlast, hpending]

/-- Before the deadline, exactly the replies to the client's queries are taken, one after the other. -/
theorem takeReplies_eq (events : List Later) (hpending : pending.outstanding = unanswered seen)
    (hlive : ∀ later ∈ events, pending.expired later.now = false)
    (hreplied : Replied (seen ++ events.filterMap Later.reply?)) (hforeign : Foreign seen events) :
    takeReplies pending events = events.map Later.isOwn := by
  induction events generalizing seen pending with
  | nil => rfl
  | cons later rest ih =>
    obtain ⟨hnow, hrest⟩ := List.forall_mem_cons.mp hlive
    rw [takeReplies, List.map_cons]
    cases later with
    | own reply now =>
      have hsplit : seen ++ (Later.own reply now :: rest).filterMap Later.reply? =
          seen ++ [reply] ++ rest.filterMap Later.reply? := List.append_cons ..
      have hvalid : reply.Valid := hreplied.valid reply
        (List.mem_append_right _ List.mem_cons_self)
      have hanswers : reply.answers ⊆ pending.outstanding := by
        rw [hpending]
        exact hreplied.answers_subset
      have htake : pending.takeReply (Later.own reply now).bytes (Later.own reply now).now =
          (true, pending.without reply) := PendingAttachQueries.takeReply_encode hnow hvalid hanswers
      rw [hsplit] at hreplied
      rw [htake, ih (outstanding_without hpending)
        (fun later hmem ↦ PendingAttachQueries.expired_without (hrest later hmem)) hreplied hforeign]
      rfl
    | other bytes now =>
      have hnot : ¬pending.Answering bytes := by
        rintro ⟨reply, hvalid, hbytes, hanswers⟩
        rw [hpending] at hanswers
        obtain ⟨query, hquery⟩ := HostReply.answers_nonempty hvalid
        exact Set.disjoint_left.mp (hforeign.1 reply hvalid hbytes) hquery (hanswers hquery)
      have htake : pending.takeReply (Later.other bytes now).bytes (Later.other bytes now).now =
          (false, pending) := PendingAttachQueries.takeReply_refused hnow hnot
      rw [htake, ih hpending hrest hreplied hforeign.2]
      rfl

end Run

/-! ## Attaching -/

/-- The host's replies with ordinary keys before each, the device attributes at the end. -/
structure Conversation (arrivals : List Arrival) : Prop where
  ordinary : ∀ arrival ∈ arrivals, Ordinary arrival.keys ∧ arrival.reply.Sent
  replied : Replied (arrivals.map Arrival.reply)
  ended : ∃ arrival ∈ arrivals.getLast?, arrival.reply.IsDeviceAttributes

namespace Conversation

variable {arrivals seen later : List Arrival} {next : Arrival}

/-- What comes before a reply is early. -/
theorem early (h : Conversation (seen ++ next :: later)) : Early seen := by
  intro arrival hmem
  obtain ⟨hkeys, hsent⟩ := h.ordinary arrival (List.mem_append_left _ hmem)
  have hlast := h.replied.last
  rw [List.map_append, List.map_cons, List.pairwise_append] at hlast
  exact ⟨hkeys, hsent, hlast.2.2 _ (List.mem_map_of_mem hmem) _ List.mem_cons_self⟩

theorem exists_last (h : Conversation arrivals) :
    ∃ seen keys params, arrivals = seen ++ [⟨keys, .deviceAttributes params⟩] := by
  obtain ⟨⟨keys, reply⟩, hmem, hlast⟩ := h.ended
  obtain ⟨seen, rfl⟩ := List.getLast?_eq_some_iff.mp hmem
  cases reply with
  | deviceAttributes params => exact ⟨seen, keys, params, rfl⟩
  | _ => exact hlast.elim

/-- All of it is read, nothing after it is, and the keys make no difference. -/
theorem readReplies (h : Conversation arrivals) (hlen : (stream arrivals).length ≤ maxHostReplyBytes)
    (rest : List UInt8) :
    Client.readReplies [] (stream arrivals ++ rest) = (stream arrivals, rest) ∧
      HostReplies.parse (stream arrivals) = .parse (stream (arrivals.map Arrival.alone)) := by
  obtain ⟨seen, keys, params, rfl⟩ := h.exists_last
  obtain ⟨hkeys, hsent⟩ := h.ordinary _ (List.mem_append_right _ List.mem_cons_self)
  have hstream : stream (seen ++ [⟨keys, .deviceAttributes params⟩]) =
      stream seen ++ (keys ++ (HostReply.deviceAttributes params).encode) := by
    simp [stream, Arrival.bytes]
  have halone : stream ((seen ++ [(⟨keys, .deviceAttributes params⟩ : Arrival)]).map Arrival.alone) =
      stream (seen.map Arrival.alone) ++ (HostReply.deviceAttributes params).encode := by
    simp [stream, Arrival.bytes, Arrival.alone]
  rw [halone]
  exact readReplies_complete h.early hkeys hsent.valid hstream hlen rest

/-- When only a part of the keys after some replies was read, what comes later is told apart. -/
theorem takeReplies_eq (h : Conversation (seen ++ next :: later))
    (hlen : (stream (seen ++ next :: later)).length ≤ maxHostReplyBytes) {part : List UInt8}
    (hpart : part <+: next.keys) {events : List Later} {deadline : ℕ}
    (hevents : events.filterMap Later.reply? <+: (next :: later).map Arrival.reply)
    (hlive : ∀ event ∈ events, event.now < deadline)
    (hforeign : Foreign (seen.map Arrival.reply) events) :
    takeReplies (.after (readHostReplies (stream seen ++ part)) deadline) events =
      events.map Later.isOwn := by
  have hshort : (stream seen ++ part).length ≤ maxHostReplyBytes := by
    have hle := hpart.length_le
    simp only [stream, List.flatMap_append, List.flatMap_cons, Arrival.bytes, List.length_append]
      at hlen ⊢
    omega
  have hkeys := (h.ordinary next (List.mem_append_right _ List.mem_cons_self)).1
  obtain ⟨hread, hparse⟩ := readReplies_part h.early hkeys hpart rfl hshort
  have hreplied : Replied (seen.map Arrival.reply ++ events.filterMap Later.reply?) := by
    refine h.replied.of_prefix ?_
    rw [List.map_append]
    exact (List.prefix_append_right_inj _).mpr hevents
  rw [readHostReplies, hread, hparse]
  exact Client.takeReplies_eq events (outstanding_after_parse h.early deadline)
    (fun event hmem ↦ PendingAttachQueries.expired_after (hlive event hmem)) hreplied hforeign

end Conversation

/-- The client reads the host's replies to their end, whatever ordinary keys come between them. If the
wait runs out between two of them, exactly those that come later are taken before the deadline. -/
theorem attach_replies {arrivals : List Arrival} (h : Conversation arrivals)
    (hlen : (stream arrivals).length ≤ maxHostReplyBytes) :
    (∀ rest, readReplies [] (stream arrivals ++ rest) = (stream arrivals, rest)) ∧
      HostReplies.parse (stream arrivals) = .parse (stream (arrivals.map Arrival.alone)) ∧
      ∀ seen next later part, arrivals = seen ++ next :: later → part <+: next.keys →
        ∀ (events : List Later) (deadline : ℕ),
          events.filterMap Later.reply? <+: (next :: later).map Arrival.reply →
          (∀ event ∈ events, event.now < deadline) → Foreign (seen.map Arrival.reply) events →
            takeReplies (.after (readHostReplies (stream seen ++ part)) deadline) events =
              events.map Later.isOwn := by
  refine ⟨fun rest ↦ (h.readReplies hlen rest).1, (h.readReplies hlen []).2, ?_⟩
  rintro seen next later part rfl hpart events deadline hevents hlive hforeign
  exact h.takeReplies_eq hlen hpart hevents hlive hforeign

theorem replied_version_deviceAttributes (text : List UInt8) :
    Replied [.version text, .deviceAttributes []] where
  valid := by simp [HostReply.Valid]
  queried := by simp [HostReply.answers, queried]
  once := by simp [HostReply.answers]
  last := by simp [HostReply.IsDeviceAttributes]

/-- A key is typed between the version and the device attributes. -/
def typedBetween : List Arrival :=
  [⟨[], .version (ascii "a")⟩, ⟨typedBytes [.typed [0x71]], .deviceAttributes []⟩]

/-- The replies are read past the key; and if the wait runs out behind it, the device attributes that come
before the deadline are taken. -/
theorem attach_replies_typed :
    readReplies [] (stream typedBetween ++ [0x78]) = (stream typedBetween, [0x78]) ∧
      HostReplies.parse (stream typedBetween) =
        .parse (stream [⟨[], .version (ascii "a")⟩, ⟨[], .deviceAttributes []⟩]) ∧
      takeReplies (.after (readHostReplies (stream [⟨[], .version (ascii "a")⟩] ++ [0x71])) 10)
        [.own (.deviceAttributes []) 5] = [true] := by
  have hplain : esc ∉ [(0x71 : UInt8)] := by decide
  have hkeys : Ordinary (typedBytes [.typed [0x71]]) :=
    Harmless.ordinary ⟨hplain, trivial, trivial⟩
  have hconversation : Conversation typedBetween :=
    { ordinary := by
        simp only [typedBetween, List.forall_mem_cons]
        exact ⟨⟨ordinary_nil, trivial, by decide⟩, ⟨hkeys, rfl, by decide⟩, List.forall_mem_nil _⟩
      replied := replied_version_deviceAttributes _
      ended := ⟨_, rfl, trivial⟩ }
  obtain ⟨hread, hparse, hlate⟩ := attach_replies hconversation (by decide)
  refine ⟨hread _, hparse, hlate [⟨[], .version (ascii "a")⟩] _ [] [0x71] rfl (by decide)
    [.own (.deviceAttributes []) 5] 10 List.prefix_rfl ?_ trivial⟩
  simp [Later.now]

/-- Alt with `P` opens a string that swallows the version, and after 4096 letters nothing is read. -/
theorem attach_swallowed :
    (KeyPress.alt [0x50]).Complete ∧ Replied [.version (ascii "a"), .deviceAttributes []] ∧
      HostReplies.parse (stream
        [⟨typedBytes [.alt [0x50]], .version (ascii "a")⟩, ⟨[], .deviceAttributes []⟩]) ≠
          .parse (stream [⟨[], .version (ascii "a")⟩, ⟨[], .deviceAttributes []⟩]) ∧
      (KeyPress.typed (List.replicate 4096 0x61)).Complete ∧
      readReplies [] (stream
        [⟨typedBytes [.typed (List.replicate 4096 0x61)], .deviceAttributes []⟩]) =
          (List.replicate 4096 0x61, (HostReply.deviceAttributes []).encode) := by
  have hplain : esc ∉ List.replicate 4096 (0x61 : UInt8) := fun hmem ↦
    absurd (List.eq_of_mem_replicate hmem) (by decide)
  have hlen : (List.replicate 4096 (0x61 : UInt8)).length = maxHostReplyBytes := List.length_replicate
  have hquiet : QuietUntil (List.replicate 4096 (0x61 : UInt8)) := fun part hpart _ ↦
    not_ends_of_notMem fun hmem ↦ hplain (hpart.subset hmem)
  have hstream : ∀ letters, stream [⟨typedBytes [.typed letters], .deviceAttributes []⟩] =
      letters ++ (HostReply.deviceAttributes []).encode := by
    intro letters
    simp [stream, Arrival.bytes, typedBytes, KeyPress.bytes]
  refine ⟨⟨by decide, by decide⟩, replied_version_deviceAttributes _, ?_, hplain, ?_⟩
  · intro heq
    have hversion := congrArg HostReplies.version heq
    revert hversion
    decide
  · rw [hstream, readReplies_quiet hquiet hlen.le]
    have hstop : ¬(List.replicate 4096 (0x61 : UInt8)).length < maxHostReplyBytes := hlen.not_lt
    exact if_neg fun hand ↦ hstop hand.1

end Embers.Client
