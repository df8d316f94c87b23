import Embers.Server.HostConnection

/-!
# Runs of the requests to a host

An answer goes by its id, so what matters is that ids are drawn once: of the messages that were
made, one has the id that an answer is under, and it is the one the host answered. `HostLink.Sound`
says this along with which calls the connection holds a reply for, and holds in whatever order steps
are taken (`HostLink.answered_of_run`). While nothing fails the requests in flight are also those
whose answers are to come, so no answer ends the connection and no request is lost
(`HostLink.answered_of_faultless`).
-/

namespace Embers

open Protocol

variable {α β γ : Type}

namespace HostLink

variable (link : HostLink α β γ)

/-! ## What holds of every run -/

/-- Every message that was made. -/
def mentioned : List (ClientMessage α) :=
  link.messages ++ link.toHost ++ link.handled.map Prod.fst

/-- The messages' ids were drawn, each for one of them. -/
structure Drawn (requestIds : ℕ) (messages : List (ClientMessage α)) : Prop where
  below : ∀ message ∈ messages, message.requestId.raw.toNat < requestIds
  unique : ∀ message ∈ messages, ∀ message' ∈ messages,
    message.requestId = message'.requestId → message = message'

/-- A connection between two steps, or with the replies of some calls at hand. -/
structure Sound (atHand : List CallId) : Prop where
  drawn : Drawn link.requestIds link.mentioned
  asked : (link.messages.map ClientMessage.requestId).Nodup
  keys : (link.inFlight.map Prod.fst).Nodup
  bounded : link.inFlight.length ≤ maxRequestsInFlight
  /-- A request in flight is the call's own. -/
  own : ∀ requestId call, (requestId, some call) ∈ link.inFlight →
    ∃ message, link.messages[call]? = some message ∧ message.requestId = requestId
  /-- An answer on its way is to a request that has its id, if it has one. -/
  wired : ∀ response, .response response ∈ link.fromHost → ∃ message,
    (message, response) ∈ link.handled ∧ response.requestId.all (· = message.requestId)
  /-- Nobody waits for a reply that is not held. -/
  held : ∀ call, link.replies[call]? = some .waiting → call ∈ link.live ++ atHand
  answered : ∀ (call : CallId) (response : ServerResponse β),
    link.replies[call]? = some (.answered response) →
    ∃ message, link.messages[call]? = some message ∧ (message, response) ∈ link.handled
  ended : link.serving = false → link.live = []

variable {link}

theorem Drawn.mono {requestIds requestIds' : ℕ} {messages messages' : List (ClientMessage α)}
    (h : Drawn requestIds messages) (hle : requestIds ≤ requestIds') (hsub : messages' ⊆ messages) :
    Drawn requestIds' messages' where
  below message hmem := (h.below message (hsub hmem)).trans_le hle
  unique message hmem message' hmem' := h.unique message (hsub hmem) message' (hsub hmem')

/-- The number an id is made of, as long as they do not run out. -/
theorem toNat_ofNat_raw {requestIds : ℕ} (h : requestIds < 2 ^ 64) :
    (⟨UInt64.ofNat requestIds⟩ : RequestId).raw.toNat = requestIds := by
  rw [UInt64.toNat_ofNat', Nat.mod_eq_of_lt h]

theorem Drawn.cons {requestIds : ℕ} {messages : List (ClientMessage α)}
    {message : ClientMessage α} (h : Drawn requestIds messages) (hids : requestIds < 2 ^ 64)
    (hnew : message.requestId = ⟨UInt64.ofNat requestIds⟩) :
    Drawn (requestIds + 1) (message :: messages) := by
  have hraw : message.requestId.raw.toNat = requestIds := by rw [hnew, toNat_ofNat_raw hids]
  have hother : ∀ other ∈ messages, other.requestId ≠ message.requestId := fun other hmem heq ↦ by
    have := h.below other hmem
    rw [heq, hraw] at this
    exact Nat.lt_irrefl _ this
  refine ⟨?_, ?_⟩
  · refine List.forall_mem_cons.mpr ⟨?_, fun other hmem ↦ ?_⟩
    · rw [hraw]
      exact Nat.lt_succ_self _
    · exact (h.below other hmem).trans (Nat.lt_succ_self _)
  · rintro first hfirst second hsecond heq
    rcases List.mem_cons.mp hfirst with rfl | hmem
    · rcases List.mem_cons.mp hsecond with rfl | hmem'
      · rfl
      · exact absurd heq.symm (hother second hmem')
    · rcases List.mem_cons.mp hsecond with rfl | hmem'
      · exact absurd heq (hother first hmem)
      · exact h.unique first hmem second hmem' heq

/-! ### Replies -/

theorem waiting_of_drop {calls : List CallId} {call : CallId}
    (h : (link.drop calls).replies[call]? = some .waiting) :
    link.replies[call]? = some .waiting ∧ call ∉ calls := by
  rw [drop, List.getElem?_mapIdx, Option.map_eq_some_iff] at h
  obtain ⟨reply, hreply, hwaiting⟩ := h
  split at hwaiting
  · cases hwaiting
  · next hnot => exact ⟨hwaiting ▸ hreply, hnot⟩

theorem answered_of_drop {calls : List CallId} {call : CallId} {response : ServerResponse β}
    (h : (link.drop calls).replies[call]? = some (.answered response)) :
    link.replies[call]? = some (.answered response) := by
  rw [drop, List.getElem?_mapIdx, Option.map_eq_some_iff] at h
  obtain ⟨reply, hreply, hanswered⟩ := h
  split at hanswered
  · cases hanswered
  · exact hanswered ▸ hreply

/-- A reply after one is settled is that one, or as before and another call's. -/
theorem settle_cases {call call' : CallId} {reply reply' : Reply β}
    (h : (link.settle call reply).replies[call']? = some reply') :
    (call' = call ∧ reply' = reply) ∨ (call' ≠ call ∧ link.replies[call']? = some reply') := by
  rw [settle, List.getElem?_set] at h
  split at h
  · next heq =>
    split at h
    · exact .inl ⟨heq.symm, (Option.some.inj h).symm⟩
    · cases h
  · next hne => exact .inr ⟨fun heq ↦ hne heq.symm, h⟩

/-- A reply that is at hand is given, and an answer is one to the call's own message. -/
theorem Sound.settle {call : CallId} (h : link.Sound [call]) {reply : Reply β}
    (hreply : reply ≠ .waiting)
    (hanswer : ∀ response, reply = .answered response →
      ∃ message, link.messages[call]? = some message ∧ (message, response) ∈ link.handled) :
    (link.settle call reply).Sound [] where
  __ := h
  held call' hwaiting := by
    rcases settle_cases hwaiting with ⟨-, heq⟩ | ⟨hne, hbefore⟩
    · exact absurd heq.symm hreply
    · rw [List.append_nil]
      rcases List.mem_append.mp (h.held call' hbefore) with hlive | hhand
      · exact hlive
      · exact absurd (List.mem_singleton.mp hhand) hne
  answered call' response hanswered := by
    rcases settle_cases hanswered with ⟨rfl, heq⟩ | ⟨-, hbefore⟩
    · exact hanswer response heq.symm
    · exact h.answered call' response hbefore

/-- No reply is held once the connection has ended. -/
theorem Sound.stop (h : link.Sound []) : link.stop.Sound [] where
  __ := h
  keys := .nil
  bounded := Nat.zero_le _
  own _ _ hmem := absurd hmem List.not_mem_nil
  held call hwaiting := by
    obtain ⟨hbefore, hnot⟩ := waiting_of_drop hwaiting
    have hheld := h.held call hbefore
    rw [List.append_nil] at hheld
    exact absurd hheld hnot
  answered call response hanswered := h.answered call response (answered_of_drop hanswered)
  ended _ := rfl

/-- A request goes out, and the reply that was at hand is held for its answer. -/
theorem Sound.send {message : ClientMessage α} {reply : Option CallId}
    (h : link.Sound reply.toList) (hdrawn : Drawn link.requestIds (message :: link.mentioned))
    (hroom : link.inFlight.length < maxRequestsInFlight) (hserving : link.serving = true)
    (hown : ∀ call, reply = some call → link.messages[call]? = some message) :
    (link.send message reply).Sound [] where
  __ := h
  drawn := hdrawn.mono le_rfl fun other hmem ↦ by
    simp only [HostLink.send, insertInFlight, drop, mentioned, List.mem_append,
      List.mem_cons] at hmem ⊢
    tauto
  keys := by
    have hkept : ((link.inFlight.filter (·.1 ≠ message.requestId)).map Prod.fst).Nodup :=
      h.keys.sublist (List.filter_sublist.map _)
    rw [HostLink.send, insertInFlight, List.map_append]
    refine List.nodup_append.mpr ⟨hkept, List.nodup_singleton _, ?_⟩
    rintro key hkey _ hnew rfl
    obtain ⟨entry, hentry, rfl⟩ := List.mem_map.mp hkey
    exact of_decide_eq_true (List.mem_filter.mp hentry).2 (List.mem_singleton.mp hnew)
  bounded := by
    have := List.length_filter_le (·.1 ≠ message.requestId) link.inFlight
    rw [HostLink.send, insertInFlight, List.length_append, List.length_singleton]
    omega
  own requestId call hmem := by
    rcases List.mem_append.mp hmem with hkept | hnew
    · exact h.own requestId call (List.mem_of_mem_filter hkept)
    · obtain ⟨rfl, hreply⟩ := Prod.mk.inj (List.mem_singleton.mp hnew)
      exact ⟨message, hown call hreply.symm, rfl⟩
  held call hwaiting := by
    obtain ⟨hbefore, hnot⟩ := waiting_of_drop hwaiting
    simp only [HostLink.send, insertInFlight, drop, live, List.append_nil, List.mem_append,
      List.filterMap_append, List.mem_filterMap]
    rcases List.mem_append.mp (h.held call hbefore) with hlive | hhand
    · rcases List.mem_append.mp hlive with hflight | hcommand
      · obtain ⟨⟨requestId, _⟩, hentry, rfl⟩ := List.mem_filterMap.mp hflight
        -- What is held under the id was dropped.
        have hother : requestId ≠ message.requestId := fun heq ↦
          hnot (List.mem_filterMap.mpr
            ⟨_, List.mem_filter.mpr ⟨hentry, decide_eq_true heq⟩, rfl⟩)
        exact .inl (.inl ⟨_, List.mem_filter.mpr ⟨hentry, decide_eq_true hother⟩, rfl⟩)
      · exact .inr hcommand
    · obtain rfl := Option.mem_toList.mp hhand
      exact .inl (.inr ⟨_, List.mem_singleton_self _, rfl⟩)
  answered call response hanswered := h.answered call response (answered_of_drop hanswered)
  ended hnot := absurd (hserving.symm.trans hnot) Bool.true_eq_false_eq_False.elim

/-- A request leaves those in flight, and its reply is at hand. -/
theorem Sound.remove {requestId : RequestId} {reply : Option CallId} (h : link.Sound [])
    (hentry : (requestId, reply) ∈ link.inFlight) :
    Sound { link with inFlight := link.inFlight.filter (·.1 ≠ requestId) } reply.toList where
  __ := h
  keys := h.keys.sublist (List.filter_sublist.map _)
  bounded := (List.length_filter_le _ _).trans h.bounded
  own requestId' call hmem := h.own requestId' call (List.mem_of_mem_filter hmem)
  held call hwaiting := by
    have hheld := h.held call hwaiting
    rw [List.append_nil] at hheld
    simp only [live, List.mem_append, List.mem_filterMap]
    rcases List.mem_append.mp hheld with hflight | hcommand
    · obtain ⟨⟨requestId', _⟩, hmem, rfl⟩ := List.mem_filterMap.mp hflight
      by_cases heq : requestId' = requestId
      · obtain ⟨-, hreply⟩ := Prod.mk.inj (List.inj_on_of_nodup_map h.keys hmem hentry heq)
        exact .inr (Option.mem_toList.mpr hreply.symm)
      · exact .inl (.inl ⟨_, List.mem_filter.mpr ⟨hmem, decide_eq_true heq⟩, rfl⟩)
    · exact .inl (.inr hcommand)
  ended hnot := by
    obtain ⟨hflight, hcommands⟩ := List.append_eq_nil_iff.mp (h.ended hnot)
    rw [live, hcommands, List.append_nil]
    exact List.filterMap_eq_nil_iff.mpr fun entry hmem ↦
      List.filterMap_eq_nil_iff.mp hflight entry (List.mem_of_mem_filter hmem)

/-- An answer is given to the call whose message it answers, or ends the connection. -/
theorem Sound.answer {response : ServerResponse β} (h : link.Sound [])
    (hwired : ∃ message, (message, response) ∈ link.handled ∧
      response.requestId.all (· = message.requestId)) : (link.answer response).Sound [] := by
  rw [HostLink.answer]
  split
  · exact h.stop
  · next requestId reply hfind =>
    obtain ⟨responseId, hresponse, hfind⟩ := Option.bind_eq_some_iff.mp hfind
    have hid := List.find?_some hfind
    obtain rfl : requestId = responseId := of_decide_eq_true hid
    have hentry := List.mem_of_find?_eq_some hfind
    have hremoved := h.remove hentry
    cases reply with
    | none => exact hremoved
    | some call =>
      refine hremoved.settle (by simp) fun response' heq ↦ ?_
      obtain rfl := Reply.answered.inj heq
      obtain ⟨message, hmessage, hown⟩ := h.own requestId call hentry
      obtain ⟨message', hhandled, hanswers⟩ := hwired
      rw [hresponse] at hanswers
      have hsame : message = message' := by
        refine h.drawn.unique message ?_ message' ?_ (hown.trans (of_decide_eq_true hanswers))
        · exact List.mem_append_left _ (List.mem_append_left _ (List.mem_of_getElem? hmessage))
        · exact List.mem_append_right _ (List.mem_map_of_mem hhandled)
      exact ⟨message, hmessage, hsame ▸ hhandled⟩

/-- With nothing at hand, anything may be said to be. -/
theorem Sound.hold (h : link.Sound []) (atHand : List CallId) : link.Sound atHand where
  __ := h
  held call hwaiting := by
    have hheld := h.held call hwaiting
    rw [List.append_nil] at hheld
    exact List.mem_append_left _ hheld

theorem sound_start (hostGraphics : Bool) (requestIds : ℕ) (queued : List γ) :
    (start hostGraphics requestIds queued : HostLink α β γ).Sound [] where
  drawn := ⟨List.forall_mem_nil _, List.forall_mem_nil _⟩
  asked := .nil
  keys := .nil
  bounded := Nat.zero_le _
  own _ _ hmem := absurd hmem List.not_mem_nil
  wired response hmem := by
    obtain ⟨event, -, hevent⟩ := List.mem_map.mp hmem
    cases hevent
  held _ hwaiting := by cases hwaiting
  answered _ _ hanswered := by cases hanswered
  ended _ := rfl

@[simp] theorem requestIds_answer (response : ServerResponse β) :
    (link.answer response).requestIds = link.requestIds := by
  rw [answer]
  split
  · rfl
  · next reply _ =>
    cases reply with
    | none => rfl
    | some call => rfl

/-- An index below the end finds what it found. -/
theorem getElem?_append_of_eq_some {δ : Type} {items later : List δ} {index : ℕ} {item : δ}
    (h : items[index]? = some item) : (items ++ later)[index]? = some item := by
  rw [List.getElem?_append_left (List.getElem?_eq_some_iff.mp h).1, h]

theorem Sound.call (h : link.Sound []) {message : ClientMessage α}
    (hnew : message.requestId = link.newRequestId) (hids : link.requestIds < 2 ^ 64) :
    Sound { link with
      messages := link.messages ++ [message]
      replies := link.replies ++ [.unsent]
      requestIds := link.requestIds + 1 } [] where
  __ := h
  drawn := by
    refine (h.drawn.cons hids hnew).mono le_rfl fun other hmem ↦ ?_
    simp only [mentioned, List.mem_append, List.mem_cons] at hmem ⊢
    tauto
  asked := by
    rw [List.map_append]
    refine List.nodup_append.mpr ⟨h.asked, List.nodup_singleton _, ?_⟩
    rintro _ hbefore _ hlast rfl
    obtain ⟨other, hmem, hid⟩ := List.mem_map.mp hbefore
    -- Every id so far is below the one that was drawn for the call.
    have hbelow := h.drawn.below other (List.mem_append_left _ (List.mem_append_left _ hmem))
    rw [hid, List.mem_singleton.mp hlast, hnew] at hbelow
    exact absurd (toNat_ofNat_raw hids) hbelow.ne
  own requestId call hmem := by
    obtain ⟨message, hmessage, hid⟩ := h.own requestId call hmem
    exact ⟨message, getElem?_append_of_eq_some hmessage, hid⟩
  held call hwaiting := by
    rw [List.getElem?_append] at hwaiting
    split at hwaiting
    · exact h.held call hwaiting
    · cases List.mem_singleton.mp (List.mem_of_getElem? hwaiting)
  answered call response hanswered := by
    rw [List.getElem?_append] at hanswered
    split at hanswered
    · obtain ⟨message, hmessage, hhandled⟩ := h.answered call response hanswered
      exact ⟨message, getElem?_append_of_eq_some hmessage, hhandled⟩
    · cases List.mem_singleton.mp (List.mem_of_getElem? hanswered)

theorem Sound.submit (h : link.Sound []) (hserving : link.serving ≠ false) (call : CallId) :
    Sound { link.settle call .waiting with commands := link.commands ++ [call] } [] where
  __ := h
  held call' hwaiting := by
    rw [List.append_nil, live, ← List.append_assoc]
    rcases settle_cases hwaiting with ⟨rfl, -⟩ | ⟨-, hbefore⟩
    · exact List.mem_append_right _ (List.mem_singleton_self _)
    · have hheld := h.held call' hbefore
      rw [List.append_nil] at hheld
      exact List.mem_append_left _ hheld
  answered call' response hanswered := by
    rcases settle_cases hanswered with ⟨-, heq⟩ | ⟨-, hbefore⟩
    · cases heq
    · exact h.answered call' response hbefore
  ended hnot := absurd hnot hserving

/-- A command is taken, and its reply is at hand. -/
theorem Sound.take (h : link.Sound []) (hserving : link.serving = true) {call : CallId}
    {commands : List CallId} (hcommands : link.commands = call :: commands) :
    Sound { link with commands } [call] where
  __ := h
  held call' hwaiting := by
    have hheld := h.held call' hwaiting
    rw [live, hcommands] at hheld
    simp only [live, List.append_nil, List.mem_append, List.mem_cons] at hheld ⊢
    tauto
  ended hnot := by
    rw [hserving] at hnot
    cases hnot

theorem Sound.handle (h : link.Sound []) {message : ClientMessage α}
    {toHost : List (ClientMessage α)} (htoHost : link.toHost = message :: toHost)
    {response : ServerResponse β} (hid : response.requestId.all (· = message.requestId)) :
    Sound { link with
      toHost
      fromHost := link.fromHost ++ [.response response]
      handled := link.handled ++ [(message, response)] } [] where
  __ := h
  drawn := h.drawn.mono le_rfl fun other hmem ↦ by
    simp only [mentioned, htoHost, List.map_append, List.map_cons, List.map_nil, List.mem_append,
      List.mem_cons] at hmem ⊢
    tauto
  wired response' hmem := by
    rcases List.mem_append.mp hmem with hbefore | hnew
    · obtain ⟨message', hhandled, hid'⟩ := h.wired response' hbefore
      exact ⟨message', List.mem_append_left _ hhandled, hid'⟩
    · obtain rfl := ServerEnvelope.response.inj (List.mem_singleton.mp hnew)
      exact ⟨message, List.mem_append_right _ (List.mem_singleton_self _), hid⟩
  answered call response' hanswered := by
    obtain ⟨message', hmessage, hhandled⟩ := h.answered call response' hanswered
    exact ⟨message', hmessage, List.mem_append_left _ hhandled⟩

/-- What is on its way is read, or more events come. -/
theorem Sound.setFromHost (h : link.Sound []) {fromHost : List (ServerEnvelope β γ)}
    (hsub : ∀ response, .response response ∈ fromHost → .response response ∈ link.fromHost) :
    Sound { link with fromHost } [] where
  __ := h
  wired response hmem := h.wired response (hsub response hmem)

/-- The other fields matter to no call, and ids may be drawn elsewhere. -/
theorem Sound.setOthers (h : link.Sound []) {hostGraphics graphicsChanged toldHostGraphics : Bool}
    {requestIds : ℕ} (hle : link.requestIds ≤ requestIds) (hostOpen : Bool) :
    Sound { link with
      hostGraphics, graphicsChanged, toldHostGraphics, requestIds, hostOpen } [] where
  __ := h
  drawn := h.drawn.mono hle (List.Subset.refl _)

variable {link' : HostLink α β γ}

/-- A step draws ids in order, and keeps a connection sound as long as they do not run out. -/
theorem sound_step {next : HostStep α β γ} (hstep : link.step next = some link') :
    link.requestIds ≤ link'.requestIds ∧
      (link.Sound [] → link'.requestIds ≤ 2 ^ 64 → link'.Sound []) := by
  cases next with
  | call message =>
    rw [step] at hstep
    split at hstep
    · next hnew =>
      obtain rfl := Option.some.inj hstep
      exact ⟨Nat.le_succ _, fun h hids ↦ h.call hnew hids⟩
    · cases hstep
  | submit call =>
    rw [step] at hstep
    split at hstep
    · split at hstep
      · obtain rfl := Option.some.inj hstep
        exact ⟨le_rfl, fun h _ ↦ (h.hold [call]).settle (by simp) fun _ heq ↦ by cases heq⟩
      · next hserving =>
        split at hstep
        · obtain rfl := Option.some.inj hstep
          exact ⟨le_rfl, fun h _ ↦ h.submit hserving call⟩
        · cases hstep
    · cases hstep
  | newRequestId =>
    obtain rfl := Option.some.inj hstep
    exact ⟨Nat.le_succ _, fun h _ ↦ h.setOthers (Nat.le_succ _) _⟩
  | setHostGraphics enabled =>
    obtain rfl := Option.some.inj hstep
    exact ⟨le_rfl, fun h _ ↦ h.setOthers le_rfl _⟩
  | take sent =>
    rw [step] at hstep
    split at hstep
    · next hready =>
      obtain ⟨hserving, hroom⟩ := hready
      split at hstep
      · cases hstep
      · next call commands hcommands =>
        split at hstep
        · cases hstep
        · next message hmessage =>
          split at hstep
          · obtain rfl := Option.some.inj hstep
            refine ⟨le_rfl, fun h _ ↦ (h.take hserving hcommands).send ?_ hroom hserving ?_⟩
            · have hmem : message ∈ link.mentioned :=
                List.mem_append_left _ (List.mem_append_left _ (List.mem_of_getElem? hmessage))
              exact h.drawn.mono le_rfl (List.cons_subset.mpr ⟨hmem, List.Subset.refl _⟩)
            · intro call' heq
              obtain rfl := Option.some.inj heq
              exact hmessage
          · obtain rfl := Option.some.inj hstep
            refine ⟨le_rfl, fun h _ ↦ ((h.take hserving hcommands).settle ?_ ?_).stop⟩
            · simp
            · intro response heq
              cases heq
    · cases hstep
  | tell sent =>
    rw [step] at hstep
    split at hstep
    · next hready =>
      obtain ⟨hserving, hroom, -⟩ := hready
      split at hstep
      · obtain rfl := Option.some.inj hstep
        exact ⟨le_rfl, fun h _ ↦ h.setOthers le_rfl _⟩
      · split at hstep
        · obtain rfl := Option.some.inj hstep
          refine ⟨Nat.le_succ _, fun h hids ↦ ?_⟩
          have hdrawn : Drawn (link.requestIds + 1)
              (ClientMessage.setHostGraphics link.newRequestId link.hostGraphics ::
                link.mentioned) := h.drawn.cons hids rfl
          have htold : Sound { link with
              graphicsChanged := false
              toldHostGraphics := link.hostGraphics
              requestIds := link.requestIds + 1 } (Option.toList none) :=
            h.setOthers (Nat.le_succ _) link.hostOpen
          exact htold.send hdrawn hroom hserving fun _ heq ↦ by cases heq
        · obtain rfl := Option.some.inj hstep
          exact ⟨Nat.le_succ _, fun h _ ↦ (h.setOthers (Nat.le_succ _) _).stop⟩
    · cases hstep
  | receive =>
    rw [step] at hstep
    split at hstep
    · cases hstep
    · split at hstep
      · split at hstep
        · cases hstep
        · obtain rfl := Option.some.inj hstep
          exact ⟨le_rfl, fun h _ ↦ h.stop⟩
      · next event fromHost hfromHost =>
        obtain rfl := Option.some.inj hstep
        exact ⟨le_rfl, fun h _ ↦
          h.setFromHost fun _ hmem ↦ hfromHost ▸ List.mem_cons_of_mem _ hmem⟩
      · next response fromHost hfromHost =>
        obtain rfl := Option.some.inj hstep
        refine ⟨?_, fun h _ ↦ ?_⟩
        · rw [requestIds_answer]
        · have hread := h.setFromHost fun _ hmem ↦ hfromHost ▸ List.mem_cons_of_mem _ hmem
          exact hread.answer (h.wired response (hfromHost ▸ List.mem_cons_self))
  | handle response =>
    rw [step] at hstep
    split at hstep
    · cases hstep
    · split at hstep
      · cases hstep
      · next message toHost htoHost =>
        split at hstep
        · next hid =>
          obtain rfl := Option.some.inj hstep
          exact ⟨le_rfl, fun h _ ↦ h.handle htoHost hid⟩
        · cases hstep
  | event event =>
    rw [step] at hstep
    split at hstep
    · obtain rfl := Option.some.inj hstep
      refine ⟨le_rfl, fun h _ ↦ h.setFromHost fun response hmem ↦ ?_⟩
      rcases List.mem_append.mp hmem with hbefore | hnew
      · exact hbefore
      · cases List.mem_singleton.mp hnew
    · cases hstep
  | close =>
    obtain rfl := Option.some.inj hstep
    exact ⟨le_rfl, fun h _ ↦ h.setOthers le_rfl _⟩
  | lose =>
    rw [step] at hstep
    split at hstep
    · obtain rfl := Option.some.inj hstep
      exact ⟨le_rfl, fun h _ ↦ h.stop⟩
    · cases hstep
  | release =>
    rw [step] at hstep
    split at hstep
    · obtain rfl := Option.some.inj hstep
      exact ⟨le_rfl, fun h _ ↦ h.stop⟩
    · cases hstep

theorem sound_run {steps : List (HostStep α β γ)} (hrun : link.run steps = some link') :
    link.requestIds ≤ link'.requestIds ∧
      (link.Sound [] → link'.requestIds ≤ 2 ^ 64 → link'.Sound []) := by
  induction steps generalizing link with
  | nil =>
    obtain rfl := Option.some.inj hrun
    exact ⟨le_rfl, fun h _ ↦ h⟩
  | cons next steps ih =>
    obtain ⟨mid, hstep, hrest⟩ := Option.bind_eq_some_iff.mp hrun
    obtain ⟨hle, hsound⟩ := sound_step hstep
    obtain ⟨hle', hsound'⟩ := ih hrest
    -- Ids that have not run out at the end had not run out before.
    exact ⟨hle.trans hle', fun h hids ↦ hsound' (hsound h (hle'.trans hids)) hids⟩

/-- **Requests to a host.** However the calls, the connection and the host take their steps, a call
is answered with the host's answer to its own message, whose id no other call's has, no more
requests wait for one than may, and once the connection has ended no call waits any longer. -/
theorem answered_of_run {hostGraphics : Bool} {requestIds : ℕ} {queued : List γ}
    {steps : List (HostStep α β γ)}
    (hrun : (start hostGraphics requestIds queued : HostLink α β γ).run steps = some link)
    (hids : link.requestIds ≤ 2 ^ 64) :
    (link.messages.map ClientMessage.requestId).Nodup ∧
      (∀ (call : CallId) (response : ServerResponse β),
        link.replies[call]? = some (.answered response) →
        ∃ message, link.messages[call]? = some message ∧ (message, response) ∈ link.handled) ∧
      link.inFlight.length ≤ maxRequestsInFlight ∧
      (link.serving = false → ∀ call : CallId, link.replies[call]? ≠ some .waiting) := by
  have h := (sound_run hrun).2 (sound_start hostGraphics requestIds queued) hids
  refine ⟨h.asked, h.answered, h.bounded, fun hnot call hwaiting ↦ ?_⟩
  have hheld := h.held call hwaiting
  rw [h.ended hnot] at hheld
  exact List.not_mem_nil hheld

/-- Of two requests in flight one is answered, and the other cannot be read by the host while a
third call waits for its command to be taken. -/
def askedThrice : List (HostStep Unit Unit Unit) :=
  [.call (.watch ⟨1⟩ ⟨7⟩), .call (.other ⟨2⟩ ()), .call (.unwatch ⟨3⟩ ⟨7⟩), .submit 1, .submit 0,
    .take true, .take true, .handle (.ok ⟨2⟩), .event (), .receive, .handle (.error none ()),
    .submit 2, .receive, .receive]

theorem answered_of_run_askedThrice : ∃ link : HostLink Unit Unit Unit,
    (start false 1 []).run askedThrice = some link ∧
      link.replies = [.lost, .answered (.ok ⟨2⟩), .lost] ∧
      (link.messages.map ClientMessage.requestId).Nodup ∧
      (∀ (call : CallId) (response : ServerResponse Unit),
        link.replies[call]? = some (.answered response) →
        ∃ message, link.messages[call]? = some message ∧ (message, response) ∈ link.handled) ∧
      link.inFlight.length ≤ maxRequestsInFlight ∧
      (link.serving = false → ∀ call : CallId, link.replies[call]? ≠ some .waiting) := by
  obtain ⟨link, hrun, hreplies, hids⟩ : ∃ link : HostLink Unit Unit Unit,
      (start false 1 []).run askedThrice = some link ∧
        link.replies = [.lost, .answered (.ok ⟨2⟩), .lost] ∧ link.requestIds ≤ 2 ^ 64 :=
    ⟨_, rfl, rfl, by decide⟩
  exact ⟨link, hrun, hreplies, answered_of_run hrun hids⟩

/-! ## What holds while nothing fails -/

end HostLink

/-- That nothing fails: messages can be sent and read, and both ends stay. -/
def HostStep.Faultless : HostStep α β γ → Prop
  | .take sent | .tell sent => sent = true
  | .handle response => response.requestId.isSome
  | .close | .lose | .release => False
  | _ => True

namespace HostLink

/-- The ids of the requests that went out. -/
def sentIds (link : HostLink α β γ) : List RequestId :=
  link.toHost.map ClientMessage.requestId ++ link.handled.map fun entry ↦ entry.1.requestId

/-- The ids of the answers on their way. -/
def answerIds (envelopes : List (ServerEnvelope β γ)) : List RequestId :=
  envelopes.filterMap fun
    | .response response => response.requestId
    | .event _ => none

/-- The ids of the requests whose answers are still to be received, in their order. -/
def awaited (link : HostLink α β γ) : List RequestId :=
  answerIds link.fromHost ++ link.toHost.map ClientMessage.requestId

/-- A connection on which nothing failed. -/
structure Matched (link : HostLink α β γ) : Prop where
  serving : link.serving = true
  hostOpen : link.hostOpen = true
  aligned : link.replies.length = link.messages.length
  known : ∀ call ∈ link.commands, call < link.messages.length
  submitted : link.commands.Nodup
  unsent : ∀ call, link.replies[call]? = some .unsent → call ∉ link.commands
  fresh : ∀ (call : CallId) (message : ClientMessage α),
    link.replies[call]? = some .unsent ∨ call ∈ link.commands →
    link.messages[call]? = some message → message.requestId ∉ link.sentIds
  named : ∀ response, .response response ∈ link.fromHost → response.requestId.isSome
  flying : link.awaited.Perm (link.inFlight.map Prod.fst)
  kept : ∀ (call : CallId) (reply : Reply β), link.replies[call]? = some reply →
    reply ≠ .failed ∧ reply ≠ .lost

variable {link link' : HostLink α β γ}

theorem answerIds_cons_response (response : ServerResponse β) (requestId : RequestId)
    (envelopes : List (ServerEnvelope β γ)) (h : response.requestId = some requestId) :
    answerIds (.response response :: envelopes) = requestId :: answerIds envelopes := by
  simp [answerIds, h]

@[simp] theorem answerIds_cons_event (event : γ) (envelopes : List (ServerEnvelope β γ)) :
    answerIds (.event event :: envelopes) = answerIds envelopes := rfl

theorem answerIds_append (envelopes later : List (ServerEnvelope β γ)) :
    answerIds (envelopes ++ later) = answerIds envelopes ++ answerIds later :=
  List.filterMap_append

/-- What is awaited went out. -/
theorem Sound.awaited_subset {atHand : List CallId} (h : link.Sound atHand) :
    link.awaited ⊆ link.sentIds := by
  intro requestId hmem
  rcases List.mem_append.mp hmem with hanswer | hsent
  · obtain ⟨envelope, henvelope, hid⟩ := List.mem_filterMap.mp hanswer
    cases envelope with
    | event event => cases hid
    | response response =>
      obtain ⟨message, hhandled, hall⟩ := h.wired response henvelope
      dsimp only at hid
      rw [hid] at hall
      obtain rfl := of_decide_eq_true hall
      exact List.mem_append_right _ (List.mem_map.mpr ⟨_, hhandled, rfl⟩)
  · exact List.mem_append_left _ hsent

theorem Drawn.newRequestId_not_mem (h : Drawn link.requestIds link.mentioned)
    (hids : link.requestIds < 2 ^ 64) :
    link.newRequestId ∉ link.mentioned.map ClientMessage.requestId := by
  intro hmem
  obtain ⟨message, hmessage, hid⟩ := List.mem_map.mp hmem
  have hbelow := h.below message hmessage
  rw [hid] at hbelow
  exact absurd (toNat_ofNat_raw hids) hbelow.ne

theorem sentIds_subset : link.sentIds ⊆ link.mentioned.map ClientMessage.requestId := by
  intro requestId hmem
  simp only [sentIds, mentioned, List.map_append, List.map_map, List.mem_append] at hmem ⊢
  rcases hmem with hsent | hhandled
  · exact .inl (.inr hsent)
  · exact .inr hhandled

@[simp] theorem drop_nil : link.drop [] = link := by
  have hreplies : link.replies.mapIdx (fun call reply ↦ if call ∈ ([] : List CallId) then
      Reply.lost else reply) = link.replies := List.ext_getElem? fun index ↦ by simp
  rw [drop, hreplies]

/-- A request goes out under an id that none did, and that no call's has that is still to go out. -/
theorem Matched.send {message : ClientMessage α} {reply : Option CallId} {atHand : List CallId}
    (h : link.Matched) (hsound : link.Sound atHand) (hnew : message.requestId ∉ link.sentIds)
    (hothers : ∀ (call : CallId) (message' : ClientMessage α),
      link.replies[call]? = some .unsent ∨ call ∈ link.commands →
      link.messages[call]? = some message' → message'.requestId ≠ message.requestId) :
    (link.send message reply).Matched := by
  have hkeys : message.requestId ∉ link.inFlight.map Prod.fst := fun hmem ↦
    hnew (hsound.awaited_subset (h.flying.mem_iff.mpr hmem))
  have hnone : link.inFlight.filter (·.1 = message.requestId) = [] :=
    List.filter_eq_nil_iff.mpr fun entry hentry heq ↦
      hkeys (List.mem_map.mpr ⟨entry, hentry, of_decide_eq_true heq⟩)
  have hall : link.inFlight.filter (·.1 ≠ message.requestId) = link.inFlight :=
    List.filter_eq_self.mpr fun entry hentry ↦
      decide_eq_true fun heq ↦ hkeys (List.mem_map.mpr ⟨entry, hentry, heq⟩)
  have hreplies : (link.send message reply).replies = link.replies := by
    rw [HostLink.send, insertInFlight, hnone, List.filterMap_nil, drop_nil]
  refine { h with aligned := ?_, unsent := ?_, fresh := ?_, flying := ?_, kept := ?_ }
  · rw [hreplies]
    exact h.aligned
  · rw [hreplies]
    exact h.unsent
  · rw [hreplies]
    intro call message' hcall hmessage hmem
    have hsent := h.fresh call message' hcall hmessage
    have hother := hothers call message' hcall hmessage
    simp only [sentIds, HostLink.send, insertInFlight, drop, List.map_append, List.map_cons,
      List.map_nil, List.mem_append, List.mem_singleton] at hmem hsent
    tauto
  · simp only [awaited, HostLink.send, insertInFlight, drop, hall, List.map_append, List.map_cons,
      List.map_nil, ← List.append_assoc]
    exact h.flying.append_right _
  · rw [hreplies]
    exact h.kept

/-- A reply is given that is no failure. -/
theorem Matched.settle (h : link.Matched) (call : CallId) {reply : Reply β}
    (hunsent : reply ≠ .unsent) (hkept : reply ≠ .failed ∧ reply ≠ .lost) :
    (link.settle call reply).Matched where
  __ := h
  aligned := List.length_set.trans h.aligned
  unsent call' hreply := by
    rcases settle_cases hreply with ⟨-, heq⟩ | ⟨-, hbefore⟩
    · exact absurd heq.symm hunsent
    · exact h.unsent call' hbefore
  fresh call' message hcall hmessage := by
    refine h.fresh call' message (hcall.imp_left fun hreply ↦ ?_) hmessage
    rcases settle_cases hreply with ⟨-, heq⟩ | ⟨-, hbefore⟩
    · exact absurd heq.symm hunsent
    · exact hbefore
  kept call' reply' hreply := by
    rcases settle_cases hreply with ⟨-, rfl⟩ | ⟨-, hbefore⟩
    · exact hkept
    · exact h.kept call' reply' hbefore

theorem Matched.call (h : link.Matched) {message : ClientMessage α}
    (hnew : message.requestId ∉ link.mentioned.map ClientMessage.requestId) (requestIds : ℕ) :
    Matched { link with
      messages := link.messages ++ [message]
      replies := link.replies ++ [.unsent]
      requestIds } where
  __ := h
  aligned := by rw [List.length_append, List.length_append, h.aligned]; rfl
  known call hmem := by
    rw [List.length_append]
    exact Nat.lt_add_right _ (h.known call hmem)
  unsent call hreply hmem := by
    rw [List.getElem?_append_left (h.aligned ▸ h.known call hmem)] at hreply
    exact h.unsent call hreply hmem
  fresh call message' hcall hmessage := by
    by_cases hlt : call < link.messages.length
    · rw [List.getElem?_append_left hlt] at hmessage
      rw [List.getElem?_append_left (h.aligned ▸ hlt)] at hcall
      exact h.fresh call message' hcall hmessage
    · rw [List.getElem?_append_right (Nat.not_lt.mp hlt)] at hmessage
      obtain rfl := List.mem_singleton.mp (List.mem_of_getElem? hmessage)
      exact fun hmem ↦ hnew (sentIds_subset hmem)
  kept call reply hreply := by
    rw [List.getElem?_append] at hreply
    split at hreply
    · exact h.kept call reply hreply
    · rw [List.mem_singleton.mp (List.mem_of_getElem? hreply)]
      exact ⟨by simp, by simp⟩

theorem Matched.submit (h : link.Matched) {call : CallId}
    (hcall : link.replies[call]? = some .unsent) :
    Matched { link.settle call .waiting with commands := link.commands ++ [call] } where
  __ := h.settle call (by simp) ⟨by simp, by simp⟩
  known call' hmem := by
    rcases List.mem_append.mp hmem with hbefore | hlast
    · exact h.known call' hbefore
    · rw [List.mem_singleton.mp hlast]
      exact h.aligned ▸ (List.getElem?_eq_some_iff.mp hcall).1
  submitted := List.nodup_append.mpr ⟨h.submitted, List.nodup_singleton _, by
    rintro _ hmem _ hlast rfl
    exact h.unsent call hcall (List.mem_singleton.mp hlast ▸ hmem)⟩
  unsent call' hreply hmem := by
    rcases settle_cases hreply with ⟨-, heq⟩ | ⟨hne, hbefore⟩
    · cases heq
    · rcases List.mem_append.mp hmem with hmem | hlast
      · exact h.unsent call' hbefore hmem
      · exact hne (List.mem_singleton.mp hlast)
  fresh call' message hcall' hmessage := by
    refine h.fresh call' message ?_ hmessage
    rcases hcall' with hreply | hmem
    · rcases settle_cases hreply with ⟨-, heq⟩ | ⟨-, hbefore⟩
      · cases heq
      · exact .inl hbefore
    · rcases List.mem_append.mp hmem with hmem | hlast
      · exact .inr hmem
      · exact .inl (List.mem_singleton.mp hlast ▸ hcall)

/-- A call's command is taken and its message goes out. -/
theorem Matched.take (h : link.Matched) (hsound : link.Sound []) {call : CallId}
    {commands : List CallId} (hcommands : link.commands = call :: commands)
    {message : ClientMessage α} (hmessage : link.messages[call]? = some message) :
    (HostLink.send { link with commands } message (some call)).Matched := by
  have hsubmitted := h.submitted
  rw [hcommands, List.nodup_cons] at hsubmitted
  have hmem : ∀ other ∈ commands, other ∈ link.commands := fun other hother ↦
    hcommands ▸ List.mem_cons_of_mem _ hother
  have hfirst : call ∈ link.commands := hcommands ▸ List.mem_cons_self
  have htaken : Matched { link with commands } :=
    { h with
      known := fun other hother ↦ h.known other (hmem other hother)
      submitted := hsubmitted.2
      unsent := fun other hreply hother ↦ h.unsent other hreply (hmem other hother)
      fresh := fun other message' hother ↦ h.fresh other message' (hother.imp_right (hmem other)) }
  have hnew := h.fresh call message (.inr hfirst) hmessage
  refine htaken.send (hsound.take h.serving hcommands) hnew ?_
  intro other message' hother hmessage' hid
  -- The calls' ids differ, so it would be the call that was taken.
  have hsame : other = call := by
    have hlt : other < (link.messages.map ClientMessage.requestId).length := by
      rw [List.length_map]
      exact (List.getElem?_eq_some_iff.mp hmessage').1
    refine (List.getElem?_inj hlt hsound.asked).mp ?_
    rw [List.getElem?_map, List.getElem?_map, hmessage, hmessage', Option.map_some,
      Option.map_some, hid]
  rcases hother with hreply | hrest
  · exact h.unsent other hreply (hsame ▸ hfirst)
  · exact hsubmitted.1 (hsame ▸ hrest)

/-- An answer finds its request in flight. -/
theorem Matched.answer (h : link.Matched) (hsound : link.Sound []) {response : ServerResponse β}
    {fromHost : List (ServerEnvelope β γ)}
    (hfromHost : link.fromHost = .response response :: fromHost) :
    (HostLink.answer { link with fromHost } response).Matched := by
  obtain ⟨responseId, hresponse⟩ := Option.isSome_iff_exists.mp
    (h.named response (hfromHost ▸ List.mem_cons_self))
  have hflying := h.flying
  rw [awaited, hfromHost, answerIds_cons_response _ _ _ hresponse, List.cons_append] at hflying
  rw [HostLink.answer]
  split
  · next hnone =>
    rw [hresponse, Option.bind_some] at hnone
    obtain ⟨entry, hentry, hid⟩ := List.mem_map.mp (hflying.mem_iff.mp List.mem_cons_self)
    exact absurd (decide_eq_true hid) (List.find?_eq_none.mp hnone entry hentry)
  · next requestId reply hfind =>
    rw [hresponse, Option.bind_some] at hfind
    have hid := List.find?_some hfind
    obtain rfl : requestId = responseId := of_decide_eq_true hid
    have hremoved : Matched { link with
        fromHost
        inFlight := link.inFlight.filter (·.1 ≠ requestId) } :=
      { h with
        named := fun other hother ↦ h.named other (hfromHost ▸ List.mem_cons_of_mem _ hother)
        flying := by
          -- An id is awaited once, so nothing else goes with it.
          have honce := (List.nodup_cons.mp (hflying.nodup_iff.mpr hsound.keys)).1
          have hfiltered := hflying.filter (· ≠ requestId)
          rw [List.filter_cons_of_neg (by simp), List.filter_map,
            List.filter_eq_self.mpr] at hfiltered
          · exact hfiltered
          · intro other hother
            exact decide_eq_true fun heq ↦ honce (heq ▸ hother) }
    cases reply with
    | none => exact hremoved
    | some call => exact hremoved.settle call (by simp) ⟨by simp, by simp⟩

theorem Matched.handle (h : link.Matched) {message : ClientMessage α}
    {toHost : List (ClientMessage α)} (htoHost : link.toHost = message :: toHost)
    {response : ServerResponse β} (hid : response.requestId = some message.requestId) :
    Matched { link with
      toHost
      fromHost := link.fromHost ++ [.response response]
      handled := link.handled ++ [(message, response)] } where
  __ := h
  fresh call message' hcall hmessage hmem := by
    refine h.fresh call message' hcall hmessage ?_
    simp only [sentIds, htoHost, List.map_append, List.map_cons, List.map_nil, List.mem_append,
      List.mem_cons] at hmem ⊢
    tauto
  named response' hmem := by
    rcases List.mem_append.mp hmem with hbefore | hlast
    · exact h.named response' hbefore
    · obtain rfl := ServerEnvelope.response.inj (List.mem_singleton.mp hlast)
      rw [hid]
      rfl
  flying := by
    have hflying := h.flying
    rw [awaited, htoHost, List.map_cons] at hflying
    rw [awaited, answerIds_append, answerIds_cons_response _ _ _ hid, List.append_assoc]
    exact hflying

theorem matched_start (hostGraphics : Bool) (requestIds : ℕ) (queued : List γ) :
    (start hostGraphics requestIds queued : HostLink α β γ).Matched where
  serving := rfl
  hostOpen := rfl
  aligned := rfl
  known _ hmem := absurd hmem List.not_mem_nil
  submitted := .nil
  unsent _ hreply := by cases hreply
  fresh _ _ _ hmessage := by cases hmessage
  named response hmem := by
    obtain ⟨event, -, hevent⟩ := List.mem_map.mp hmem
    cases hevent
  flying := by
    have hnone : answerIds (queued.map .event : List (ServerEnvelope β γ)) = [] := by
      induction queued with
      | nil => rfl
      | cons event queued ih => rw [List.map_cons, answerIds_cons_event, ih]
    rw [awaited, start, hnone]
    exact .nil
  kept _ _ hreply := by cases hreply

theorem matched_step (h : link.Matched) (hsound : link.Sound []) {next : HostStep α β γ}
    (hnext : next.Faultless) (hstep : link.step next = some link')
    (hids : link'.requestIds ≤ 2 ^ 64) : link'.Matched := by
  have hserving : ¬link.serving = false := by rw [h.serving]; simp
  cases next with
  | call message =>
    rw [step] at hstep
    split at hstep
    · next hnew =>
      obtain rfl := Option.some.inj hstep
      exact h.call (hnew ▸ hsound.drawn.newRequestId_not_mem hids) _
    · cases hstep
  | submit call =>
    rw [step] at hstep
    split at hstep
    · next hcall =>
      rw [if_neg hserving] at hstep
      split at hstep
      · obtain rfl := Option.some.inj hstep
        exact h.submit hcall
      · cases hstep
    · cases hstep
  | newRequestId =>
    obtain rfl := Option.some.inj hstep
    exact { h with }
  | setHostGraphics enabled =>
    obtain rfl := Option.some.inj hstep
    exact { h with }
  | take sent =>
    obtain rfl : sent = true := hnext
    rw [step] at hstep
    split at hstep
    · split at hstep
      · cases hstep
      · next call commands hcommands =>
        split at hstep
        · cases hstep
        · next message hmessage =>
          obtain rfl := Option.some.inj hstep
          exact h.take hsound hcommands hmessage
    · cases hstep
  | tell sent =>
    obtain rfl : sent = true := hnext
    rw [step] at hstep
    split at hstep
    · split at hstep
      · obtain rfl := Option.some.inj hstep
        exact { h with }
      · obtain rfl := Option.some.inj hstep
        have hnew := hsound.drawn.newRequestId_not_mem hids
        have htold : Matched { link with
            graphicsChanged := false
            toldHostGraphics := link.hostGraphics
            requestIds := link.requestIds + 1 } := { h with }
        refine htold.send (hsound.setOthers (Nat.le_succ _) link.hostOpen)
          (fun hmem ↦ hnew (sentIds_subset hmem)) fun call message _ hmessage hid ↦ hnew ?_
        refine List.mem_map.mpr ⟨message, ?_, hid⟩
        exact List.mem_append_left _ (List.mem_append_left _ (List.mem_of_getElem? hmessage))
    · cases hstep
  | receive =>
    rw [step, if_neg hserving] at hstep
    split at hstep
    · rw [if_pos h.hostOpen] at hstep
      cases hstep
    · next event fromHost hfromHost =>
      obtain rfl := Option.some.inj hstep
      have hflying := h.flying
      rw [awaited, hfromHost, answerIds_cons_event] at hflying
      exact { h with
        named := fun response hmem ↦ h.named response (hfromHost ▸ List.mem_cons_of_mem _ hmem)
        flying := hflying }
    · next response fromHost hfromHost =>
      obtain rfl := Option.some.inj hstep
      exact h.answer hsound hfromHost
  | handle response =>
    rw [step] at hstep
    split at hstep
    · cases hstep
    · split at hstep
      · cases hstep
      · next message toHost htoHost =>
        split at hstep
        · next hall =>
          obtain rfl := Option.some.inj hstep
          obtain ⟨requestId, hid⟩ := Option.isSome_iff_exists.mp hnext
          rw [hid] at hall
          exact h.handle htoHost (of_decide_eq_true hall ▸ hid)
        · cases hstep
  | event event =>
    rw [step, if_pos h.hostOpen] at hstep
    obtain rfl := Option.some.inj hstep
    have hawaited : answerIds (link.fromHost ++ [.event event]) = answerIds link.fromHost := by
      rw [answerIds_append]
      exact List.append_nil _
    refine { h with named := fun response hmem ↦ ?_, flying := ?_ }
    · rcases List.mem_append.mp hmem with hbefore | hlast
      · exact h.named response hbefore
      · cases List.mem_singleton.mp hlast
    · rw [awaited, hawaited]
      exact h.flying
  | close => exact hnext.elim
  | lose => exact hnext.elim
  | release => exact hnext.elim

theorem matched_run (h : link.Matched) (hsound : link.Sound []) {steps : List (HostStep α β γ)}
    (hsteps : ∀ next ∈ steps, next.Faultless) (hrun : link.run steps = some link')
    (hids : link'.requestIds ≤ 2 ^ 64) : link'.Matched := by
  induction steps generalizing link with
  | nil =>
    obtain rfl := Option.some.inj hrun
    exact h
  | cons next steps ih =>
    obtain ⟨mid, hstep, hrest⟩ := Option.bind_eq_some_iff.mp hrun
    obtain ⟨hnext, hlater⟩ := List.forall_mem_cons.mp hsteps
    have hmid : mid.requestIds ≤ 2 ^ 64 := (sound_run hrest).1.trans hids
    have hsound' := (sound_step hstep).2 hsound hmid
    exact ih (matched_step h hsound hnext hstep hmid) hsound' hlater hrest

/-- **No request is lost.** As long as nothing fails the connection stays and no call fails, and
once nothing is on its way every call whose command got into the channel is answered. -/
theorem answered_of_faultless {hostGraphics : Bool} {requestIds : ℕ} {queued : List γ}
    {steps : List (HostStep α β γ)} (hsteps : ∀ next ∈ steps, next.Faultless)
    (hrun : (start hostGraphics requestIds queued : HostLink α β γ).run steps = some link)
    (hids : link.requestIds ≤ 2 ^ 64) :
    link.serving = true ∧
      (∀ (call : CallId) (reply : Reply β), link.replies[call]? = some reply →
        reply ≠ .failed ∧ reply ≠ .lost) ∧
      (link.commands = [] → link.toHost = [] →
        (∀ response, .response response ∉ link.fromHost) →
        ∀ (call : CallId) (reply : Reply β), link.replies[call]? = some reply →
          reply = .unsent ∨ ∃ response, reply = .answered response) := by
  have hstart : (start hostGraphics requestIds queued : HostLink α β γ).Sound [] :=
    sound_start hostGraphics requestIds queued
  have hsound := (sound_run hrun).2 hstart hids
  have h := matched_run (matched_start hostGraphics requestIds queued) hstart hsteps hrun hids
  refine ⟨h.serving, h.kept, fun hcommands htoHost hfromHost call reply hreply ↦ ?_⟩
  have hawaited : link.awaited = [] := by
    rw [awaited, htoHost, List.map_nil, List.append_nil]
    refine List.filterMap_eq_nil_iff.mpr fun envelope hmem ↦ ?_
    cases envelope with
    | response response => exact absurd hmem (hfromHost response)
    | event event => rfl
  have hflying : link.inFlight = [] := by
    have hflying := h.flying
    rw [hawaited] at hflying
    exact List.map_eq_nil_iff.mp hflying.nil_eq.symm
  obtain ⟨hfailed, hlost⟩ := h.kept call reply hreply
  cases reply with
  | unsent => exact .inl rfl
  | waiting =>
    have hheld := hsound.held call hreply
    rw [live, hflying, hcommands] at hheld
    exact absurd hheld List.not_mem_nil
  | answered response => exact .inr ⟨response, rfl⟩
  | failed => exact absurd rfl hfailed
  | lost => exact absurd rfl hlost

/-- An event waits at the start. Two calls and the setting go out, and their answers come with
another event among them. -/
def askedTwice : List (HostStep Unit Unit Unit) :=
  [.receive, .call (.watch ⟨1⟩ ⟨7⟩), .setHostGraphics true, .tell true, .call (.other ⟨3⟩ ()),
    .submit 1, .submit 0, .take true, .handle (.ok ⟨2⟩), .take true, .receive,
    .handle (.other ⟨3⟩ ()), .event (), .handle (.ok ⟨1⟩), .receive, .receive, .receive]

theorem answered_of_faultless_askedTwice : ∃ link : HostLink Unit Unit Unit,
    (start false 1 [()]).run askedTwice = some link ∧
      link.replies = [.answered (.ok ⟨1⟩), .answered (.other ⟨3⟩ ())] ∧
      link.serving = true ∧
      (∀ (call : CallId) (reply : Reply Unit), link.replies[call]? = some reply →
        reply ≠ .failed ∧ reply ≠ .lost) ∧
      (link.commands = [] → link.toHost = [] →
        (∀ response, .response response ∉ link.fromHost) →
        ∀ (call : CallId) (reply : Reply Unit), link.replies[call]? = some reply →
          reply = .unsent ∨ ∃ response, reply = .answered response) := by
  obtain ⟨link, hrun, hreplies, hids⟩ : ∃ link : HostLink Unit Unit Unit,
      (start false 1 [()]).run askedTwice = some link ∧
        link.replies = [.answered (.ok ⟨1⟩), .answered (.other ⟨3⟩ ())] ∧
        link.requestIds ≤ 2 ^ 64 := ⟨_, rfl, rfl, by decide⟩
  have hsteps : ∀ next ∈ askedTwice, next.Faultless := by
    simp [askedTwice, HostStep.Faultless, ServerResponse.requestId]
  exact ⟨link, hrun, hreplies, answered_of_faultless hsteps hrun hids⟩

end HostLink

end Embers
