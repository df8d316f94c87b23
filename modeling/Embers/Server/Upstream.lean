import Embers.Core.Model
import Embers.Protocol.Connection

/-!
# Connections to another server

A server reaches another one as a client does, over the input and output of a command. A client's
own `request` drops the events that come before the answer it waits for; `Upstream.request` keeps
them, and they are handed out before anything that is read later. The version check is made with the
former, so the events that count are those the other server queued after its answer to it: whichever
calls are made of an upstream, and whatever fails, the events that were handed out and those that
wait are the first of these, in order and as they are decoded (`Upstream.events_delivered`).

A connection's reading task may have read any number of frames by the time of a call. What a call
gets does not depend on it, so a `ProtocolClient` has all that its reading task will hand on.
-/

namespace Embers

open Protocol

variable {α β γ : Type}

/-! ## A client's end -/

structure ProtocolClient (β γ : Type) where
  /-- What the reading task hands on, until its channel closes. -/
  reader : List (ReaderItem β γ)
  readerReachedEof : Bool

namespace ProtocolClient

variable (client : ProtocolClient β γ)

def recv : ReaderItem β γ × ProtocolClient β γ :=
  match client.reader with
  | [] => (if client.readerReachedEof then .ok none else .error .readerTaskExited, client)
  | .ok none :: reader => (.ok none, ⟨reader, true⟩)
  | item :: reader => (item, { client with reader })

theorem length_recv {envelope : ServerEnvelope β γ} {client' : ProtocolClient β γ}
    (h : client.recv = (.ok (some envelope), client')) :
    client'.reader.length < client.reader.length := by
  rw [recv] at h
  split at h
  · split at h
    · cases h
    · cases h
  · cases h
  · next item reader _ hreader =>
    obtain ⟨-, rfl⟩ := Prod.mk.inj h
    rw [hreader, List.length_cons]
    exact Nat.lt_succ_self _

/-- Whether an answer is taken for the answer to a request: one without an id is. -/
def accept (requestId : RequestId) (response : ServerResponse β) :
    Except ClientError (ServerResponse β) :=
  match response.requestId with
  -- It answers something the server could not read.
  | none => .ok response
  | some responseId =>
    if responseId ≠ requestId then .error (.mismatchedRequestId requestId responseId)
    else .ok response

/-- The loop of `request`: the events that come before the answer are dropped. -/
def awaitResponse (requestId : RequestId) (client : ProtocolClient β γ) :
    Except ClientError (ServerResponse β) × ProtocolClient β γ :=
  match _h : client.recv with
  | (.error error, client) => (.error error, client)
  | (.ok none, client) => (.error (.invalidMessage "connection closed before response"), client)
  | (.ok (some (.response response)), client) => (accept requestId response, client)
  | (.ok (some (.event _)), rest) => awaitResponse requestId rest
termination_by client.reader.length
decreasing_by exact length_recv client _h

/-- `sent` says whether the message can be sent. -/
def request (message : ClientMessage α) (sent : Except ClientError Unit) :
    Except ClientError (ServerResponse β) × ProtocolClient β γ :=
  match sent with
  | .error error => (.error error, client)
  | .ok () => client.awaitResponse message.requestId

def checkVersion : ServerResponse β → Except ClientError Unit
  | .hello _ version software =>
    if version = protocolVersion then .ok ()
    else .error (.incompatibleServer softwareVersion protocolVersion software version)
  | .error _ _ => .error (.serverPredatesHandshake softwareVersion)
  | _ => .error (.invalidMessage "server answered the version check with another response")

def handshake (sent : Except ClientError Unit) : Except ClientError Unit × ProtocolClient β γ :=
  let hello : ClientMessage Unit := .hello ⟨0⟩ protocolVersion softwareVersion
  match client.request hello sent with
  | (.error error, client) => (.error error, client)
  | (.ok response, client) => (checkVersion response, client)

end ProtocolClient

/-! ## Upstreams -/

inductive UpstreamError (β : Type) where
  | transport (message : String)
  | protocol (message : String)
  /-- A response that comes while no request is pending. -/
  | unrequested (response : ServerResponse β)
  deriving DecidableEq, Repr

/-- How the command ended: its status, and the end of its standard error. -/
structure CommandExit where
  status : String
  stderr : String

structure Upstream (β γ : Type) where
  through : String
  client : ProtocolClient β γ
  /-- How the command ended if it has by the time a failure waits for it; there may be none. -/
  process : Option (Option CommandExit)
  queuedEvents : List γ

def describeExit (command : String) (ended : CommandExit) (error : ClientError) : String :=
  let stderr := trim ended.stderr.toList
  s!"{command} exited ({ended.status}): " ++
    if stderr = [] then error.text else String.ofList stderr

namespace Upstream

variable (u : Upstream β γ)

def failure (error : ClientError) : UpstreamError β :=
  match u.process with
  | some (some ended) => .transport (describeExit u.through ended error)
  | _ => .transport s!"{u.through}: {error.text}"

/-- The connection once the version check has been answered. -/
def start (through : String) (client : ProtocolClient β γ) (process : Option (Option CommandExit))
    (sent : Except ClientError Unit) : Except (UpstreamError β) (Upstream β γ) :=
  match client.handshake sent with
  | (.ok (), client) => .ok ⟨through, client, process, []⟩
  -- The server answered, so the command works: its end is not waited for.
  | (.error (.incompatibleServer v p v' p'), _) =>
    .error (.transport (ClientError.incompatibleServer v p v' p').text)
  | (.error (.serverPredatesHandshake v), _) =>
    .error (.transport (ClientError.serverPredatesHandshake v).text)
  | (.error error, client) => .error (failure ⟨through, client, process, []⟩ error)

/-- The loop of `request`: the events that come before the answer are kept. -/
def awaitResponse (requestId : RequestId) (u : Upstream β γ) :
    Except (UpstreamError β) (ServerResponse β) × Upstream β γ :=
  match _h : u.client.recv with
  | (.error error, client) => (.error (u.failure error), { u with client })
  | (.ok none, client) =>
    (.error (u.failure (.invalidMessage "connection closed before response")), { u with client })
  | (.ok (some (.response response)), client) =>
    match response.requestId with
    | none => (.ok response, { u with client })
    | some responseId =>
      if responseId ≠ requestId then
        (.error (.protocol s!"mismatched response id: expected {requestId}, got {responseId}"),
          { u with client })
      else (.ok response, { u with client })
  | (.ok (some (.event event)), client) =>
    awaitResponse requestId { u with client, queuedEvents := u.queuedEvents ++ [event] }
termination_by u.client.reader.length
decreasing_by exact u.client.length_recv _h

def request (message : ClientMessage α) (sent : Except ClientError Unit) :
    Except (UpstreamError β) (ServerResponse β) × Upstream β γ :=
  match sent with
  | .error error => (.error (u.failure error), u)
  | .ok () => u.awaitResponse message.requestId

def send (sent : Except ClientError Unit) : Except (UpstreamError β) Unit :=
  match sent with
  | .error error => .error (u.failure error)
  | .ok () => .ok ()

def recv : Except (UpstreamError β) (Option (ServerEnvelope β γ)) × Upstream β γ :=
  match u.queuedEvents with
  | event :: queuedEvents => (.ok (some (.event event)), { u with queuedEvents })
  | [] =>
    match u.client.recv with
    | (.ok envelope, client) => (.ok envelope, { u with client })
    | (.error error, client) => (.error (u.failure error), { u with client })

def nextEvent : Except (UpstreamError β) (Option γ) × Upstream β γ :=
  match u.queuedEvents with
  | event :: queuedEvents => (.ok (some event), { u with queuedEvents })
  | [] =>
    match u.client.recv with
    | (.ok (some (.event event)), client) => (.ok (some event), { u with client })
    | (.ok (some (.response response)), client) =>
      (.error (.unrequested response), { u with client })
    | (.ok none, client) => (.ok none, { u with client })
    | (.error error, client) => (.error (u.failure error), { u with client })

end Upstream

/-- A call, with whether its message can be sent. -/
inductive UpstreamCall (α : Type) where
  | request (message : ClientMessage α) (sent : Except ClientError Unit)
  | send (message : ClientMessage α) (sent : Except ClientError Unit)
  | recv
  | nextEvent

inductive UpstreamAnswer (β γ : Type) where
  | response (answer : Except (UpstreamError β) (ServerResponse β))
  | sent (answer : Except (UpstreamError β) Unit)
  | envelope (answer : Except (UpstreamError β) (Option (ServerEnvelope β γ)))
  | event (answer : Except (UpstreamError β) (Option γ))

namespace Upstream

def call (u : Upstream β γ) : UpstreamCall α → UpstreamAnswer β γ × Upstream β γ
  | .request message sent => ((u.request message sent).map .response id)
  | .send _ sent => (.sent (u.send sent), u)
  | .recv => (u.recv.map .envelope id)
  | .nextEvent => (u.nextEvent.map .event id)

def run (u : Upstream β γ) : List (UpstreamCall α) → List (UpstreamAnswer β γ) × Upstream β γ
  | [] => ([], u)
  | next :: calls =>
    let (answer, u) := u.call next
    let (answers, u) := run u calls
    (answer :: answers, u)

end Upstream

/-! ## Events -/

/-- The events among envelopes. -/
def eventsOf (envelopes : List (ServerEnvelope β γ)) : List γ :=
  envelopes.filterMap fun
    | .event event => some event
    | .response _ => none

/-- The event a call hands out. -/
def UpstreamAnswer.event? : UpstreamAnswer β γ → Option γ
  | .envelope (.ok (some (.event handed))) => some handed
  | .event (.ok handed) => handed
  | _ => none

/-- The events that calls hand out, in order. -/
def handedOut (answers : List (UpstreamAnswer β γ)) : List γ :=
  answers.filterMap UpstreamAnswer.event?

@[simp] theorem eventsOf_cons_event (event : γ) (envelopes : List (ServerEnvelope β γ)) :
    eventsOf (.event event :: envelopes) = event :: eventsOf envelopes := rfl

@[simp] theorem eventsOf_cons_response (response : ServerResponse β)
    (envelopes : List (ServerEnvelope β γ)) :
    eventsOf (.response response :: envelopes) = eventsOf envelopes := rfl

theorem eventsOf_map_decoded (answer : β → β) (event : γ → γ) (envelopes : List (ServerEnvelope β γ)) :
    eventsOf (envelopes.map (·.decoded answer event)) = (eventsOf envelopes).map event := by
  induction envelopes with
  | nil => rfl
  | cons envelope envelopes ih =>
    cases envelope with
    | response response => exact ih
    | event queued => exact congrArg (event queued :: ·) ih

/-- What is decoded to events was events. -/
theorem exists_events_of_map_decoded {answer : β → β} {event : γ → γ}
    {envelopes : List (ServerEnvelope β γ)} {events : List γ}
    (h : envelopes.map (·.decoded answer event) = events.map .event) :
    ∃ passed : List γ, envelopes = passed.map .event := by
  induction envelopes generalizing events with
  | nil => exact ⟨[], rfl⟩
  | cons envelope envelopes ih =>
    obtain ⟨first, events, rfl, hfirst, hrest⟩ := List.map_eq_cons_iff.mp h.symm
    obtain ⟨passed, rfl⟩ := ih hrest.symm
    cases envelope with
    | response response => cases hfirst
    | event queued => exact ⟨queued :: passed, rfl⟩

/-- What is decoded to an answer of the version check was one. -/
theorem eq_hello_of_decoded {answer : β → β} {event : γ → γ} {envelope : ServerEnvelope β γ}
    {requestId : RequestId} {version : UInt32} {software : String}
    (h : envelope.decoded answer event = .response (.hello requestId version software)) :
    envelope = .response (.hello requestId version software) := by
  cases envelope with
  | event queued => cases h
  | response response =>
    cases response with
    | error requestId data => cases h
    | other requestId data => cases h
    | _ => exact h

theorem prefix_eventsOf {some all : List (ServerEnvelope β γ)} (h : some <+: all) :
    eventsOf some <+: eventsOf all := by
  obtain ⟨rest, rfl⟩ := h
  exact ⟨eventsOf rest, (List.filterMap_append).symm⟩

namespace ProtocolClient

variable {client client' : ProtocolClient β γ}

/-- What is still to be received. -/
def rest (client : ProtocolClient β γ) : List (ServerEnvelope β γ) := received client.reader

/-- An envelope that is received is the next one. -/
theorem rest_of_recv {envelope : ServerEnvelope β γ}
    (h : client.recv = (.ok (some envelope), client')) : client.rest = envelope :: client'.rest := by
  rw [recv] at h
  split at h
  · split at h
    · cases h
    · cases h
  · cases h
  · next item reader _ hreader =>
    obtain ⟨rfl, rfl⟩ := Prod.mk.inj h
    rw [rest, hreader]
    rfl

/-- The end of the stream and an error take nothing that is still to be received. -/
theorem rest_of_recv_done (h : client.recv = (.ok none, client')) : client.rest = client'.rest := by
  rw [recv] at h
  split at h
  · obtain ⟨-, rfl⟩ := Prod.mk.inj h
    rfl
  · next reader hreader =>
    obtain ⟨-, rfl⟩ := Prod.mk.inj h
    rw [rest, hreader]
    rfl
  · next hne _ =>
    obtain ⟨rfl, -⟩ := Prod.mk.inj h
    exact absurd rfl hne

theorem rest_of_recv_error {error : ClientError} (h : client.recv = (.error error, client')) :
    client.rest = client'.rest := by
  rw [recv] at h
  split at h
  · obtain ⟨-, rfl⟩ := Prod.mk.inj h
    rfl
  · cases h
  · next hreader =>
    obtain ⟨rfl, rfl⟩ := Prod.mk.inj h
    rw [rest, hreader]
    rfl

/-- What the version check's loop passes over: events, and then the answer it ends with. -/
theorem rest_of_awaitResponse {requestId : RequestId} {response : ServerResponse β}
    (h : client.awaitResponse requestId = (.ok response, client')) :
    ∃ passed : List γ,
      client.rest = passed.map .event ++ .response response :: client'.rest := by
  fun_induction awaitResponse requestId client with
  | case1 client error rest hrecv => cases h
  | case2 client rest hrecv => cases h
  | case3 client answer rest hrecv =>
    obtain ⟨haccept, rfl⟩ := Prod.mk.inj h
    have hanswer : answer = response := by
      rw [accept] at haccept
      split at haccept
      · exact Except.ok.inj haccept
      · split at haccept
        · cases haccept
        · exact Except.ok.inj haccept
    exact ⟨[], by rw [rest_of_recv hrecv, hanswer]; rfl⟩
  | case4 client event rest hrecv ih =>
    obtain ⟨passed, hpassed⟩ := ih h
    exact ⟨event :: passed, by rw [rest_of_recv hrecv, hpassed]; rfl⟩

end ProtocolClient

namespace Upstream

variable {u u' : Upstream β γ}

/-- The events that are not handed out yet: those kept, and those still to be received. -/
def pending (u : Upstream β γ) : List γ := u.queuedEvents ++ eventsOf u.client.rest

theorem pending_awaitResponse (requestId : RequestId) (u : Upstream β γ) :
    (u.awaitResponse requestId).2.pending = u.pending := by
  fun_induction awaitResponse requestId u with
  | case1 u error client hrecv =>
    rw [pending, pending, ProtocolClient.rest_of_recv_error hrecv]
  | case2 u client hrecv => rw [pending, pending, ProtocolClient.rest_of_recv_done hrecv]
  | case3 u response client hrecv =>
    rw [pending, pending, ProtocolClient.rest_of_recv hrecv, eventsOf_cons_response]
  | case4 u response client hrecv =>
    rw [pending, pending, ProtocolClient.rest_of_recv hrecv, eventsOf_cons_response]
  | case5 u response client hrecv =>
    rw [pending, pending, ProtocolClient.rest_of_recv hrecv, eventsOf_cons_response]
  | case6 u event client hrecv ih =>
    rw [ih, pending, pending, ProtocolClient.rest_of_recv hrecv, eventsOf_cons_event,
      List.append_assoc, List.singleton_append]

/-- A call hands out the next event that is pending, or none. -/
theorem pending_call (u : Upstream β γ) (next : UpstreamCall α) :
    handedOut [(u.call next).1] ++ (u.call next).2.pending = u.pending := by
  cases next with
  | request message sent =>
    cases sent with
    | error error => rfl
    | ok _ => exact pending_awaitResponse message.requestId u
  | send message sent => rfl
  | recv =>
    rw [call, recv]
    split
    · next event queuedEvents hqueued =>
      rw [pending, pending, hqueued]
      rfl
    · next hqueued =>
      split
      · next envelope client hrecv =>
        cases envelope with
        | none =>
          rw [pending, pending, ProtocolClient.rest_of_recv_done hrecv]
          rfl
        | some envelope =>
          rw [pending, pending, ProtocolClient.rest_of_recv hrecv, hqueued]
          cases envelope with
          | response response => rfl
          | event event => rfl
      · next error client hrecv =>
        rw [pending, pending, ProtocolClient.rest_of_recv_error hrecv]
        rfl
  | nextEvent =>
    rw [call, nextEvent]
    split
    · next event queuedEvents hqueued =>
      rw [pending, pending, hqueued]
      rfl
    · next hqueued =>
      split
      · next event client hrecv =>
        rw [pending, pending, ProtocolClient.rest_of_recv hrecv, hqueued]
        rfl
      · next response client hrecv =>
        rw [pending, pending, ProtocolClient.rest_of_recv hrecv, hqueued]
        rfl
      · next client hrecv =>
        rw [pending, pending, ProtocolClient.rest_of_recv_done hrecv]
        rfl
      · next error client hrecv =>
        rw [pending, pending, ProtocolClient.rest_of_recv_error hrecv]
        rfl

theorem pending_run (u : Upstream β γ) (calls : List (UpstreamCall α)) :
    handedOut (u.run calls).1 ++ (u.run calls).2.pending = u.pending := by
  induction calls generalizing u with
  | nil => rfl
  | cons next calls ih =>
    have hcall := pending_call u next
    rw [← ih (u.call next).2] at hcall
    rw [← hcall, ← List.append_assoc]
    exact congrArg (· ++ _) (List.filterMap_append (l := [(u.call next).1]))

/-- An upstream is there once the version check was answered with this version. -/
theorem start_eq_ok {through : String} {client : ProtocolClient β γ}
    {process : Option (Option CommandExit)} {sent : Except ClientError Unit}
    (h : start through client process sent = .ok u) :
    ∃ (passed : List γ) (requestId : RequestId) (software : String), client.rest =
      passed.map .event ++ .response (.hello requestId protocolVersion software) :: u.client.rest ∧
        u.queuedEvents = [] := by
  rw [start] at h
  split at h
  · next client' hhandshake =>
    obtain rfl := Except.ok.inj h
    rw [ProtocolClient.handshake] at hhandshake
    split at hhandshake
    · cases hhandshake
    · next response client'' hrequest =>
      obtain ⟨hcheck, rfl⟩ := Prod.mk.inj hhandshake
      cases sent with
      | error error => cases hrequest
      | ok _ =>
        obtain ⟨passed, hpassed⟩ := ProtocolClient.rest_of_awaitResponse hrequest
        cases response with
        | hello requestId version software =>
          rw [ProtocolClient.checkVersion] at hcheck
          split at hcheck
          · next hversion => exact ⟨passed, requestId, software, hversion ▸ hpassed, rfl⟩
          · cases hcheck
        | ok requestId => cases hcheck
        | subscriptionAck requestId subscriptionId => cases hcheck
        | error requestId error => cases hcheck
        | other requestId response => cases hcheck
  · cases h
  · cases h
  · cases h

/-- **Events.** A server's queue is written as frames and cut anywhere, and the version check passes.
Then it answered the check with this version after some events, and whichever calls are made, those
handed out and those kept are the first of the events it queued from then on, in order, with what is
decoded of each. -/
theorem events_delivered {encode : ServerEnvelope β γ → Except ClientError (List UInt8)}
    {decode : List UInt8 → Except ClientError (ServerEnvelope β γ)} {answer : β → β} {event : γ → γ}
    (hcodec : Decodes encode decode answer event)
    {outbound : List (ServerEnvelope β γ)} {stream : List UInt8}
    (hstream : stream <+: writeLoop encode outbound) {through : String}
    {process : Option (Option CommandExit)} {sent : Except ClientError Unit}
    (hstart : start through ⟨runReader decode stream, false⟩ process sent = .ok u)
    (calls : List (UpstreamCall α)) :
    ∃ (passed : List γ) (requestId : RequestId) (software : String)
        (after : List (ServerEnvelope β γ)),
      outbound =
          passed.map .event ++ .response (.hello requestId protocolVersion software) :: after ∧
        handedOut (u.run calls).1 ++ (u.run calls).2.queuedEvents <+:
          (eventsOf after).map event := by
  obtain ⟨events, requestId, software, hrest, hqueued⟩ := start_eq_ok hstart
  obtain ⟨later, hlater⟩ := received_runReader hcodec hstream
  have hsplit : outbound.map (·.decoded answer event) = events.map .event ++
      .response (.hello requestId protocolVersion software) :: (u.client.rest ++ later) := by
    rw [← hlater]
    change ProtocolClient.rest ⟨runReader decode stream, false⟩ ++ later = _
    rw [hrest, List.append_assoc, List.cons_append]
  -- What was received is what was queued, envelope by envelope.
  obtain ⟨before, hello, rfl, hbefore, hhello⟩ := List.map_eq_append_iff.mp hsplit
  obtain ⟨checked, after, rfl, hchecked, hafter⟩ := List.map_eq_cons_iff.mp hhello
  obtain ⟨passed, rfl⟩ := exists_events_of_map_decoded hbefore
  obtain rfl := eq_hello_of_decoded hchecked
  refine ⟨passed, requestId, software, after, rfl, ?_⟩
  have hrun := pending_run u calls
  -- Nothing is kept at the start, so what is pending then is what is still to be received.
  rw [pending, pending, hqueued, List.nil_append, ← List.append_assoc] at hrun
  rw [← eventsOf_map_decoded answer, hafter]
  exact (hrun ▸ List.prefix_append _ _).trans (prefix_eventsOf (List.prefix_append _ _))

/-! ### A greeting -/

/-- A command in the foreground, of which an empty one is left out. -/
abbrev Foreground := Option (List String)

/-- The answer to the version check, and events of a byte each. -/
def greeting : ServerEnvelope Unit Foreground :=
  .response (.hello ⟨0⟩ protocolVersion softwareVersion)

def encodeByte (envelope : ServerEnvelope Unit Foreground) : Except ClientError (List UInt8) :=
  if envelope = greeting then .ok [0]
  else if envelope = .event none ∨ envelope = .event (some []) then .ok [1]
  else if envelope = .event (some ["vi"]) then .ok [2]
  else .error (.invalidMessage "unknown envelope")

def decodeByte (payload : List UInt8) : Except ClientError (ServerEnvelope Unit Foreground) :=
  if payload = [0] then .ok greeting
  else if payload = [1] then .ok (.event none)
  else if payload = [2] then .ok (.event (some ["vi"]))
  else .error (.invalidMessage "unknown envelope")

theorem decodes_byte : Decodes encodeByte decodeByte id (Option.filter (· ≠ [])) := by
  intro envelope payload envelope' hencode hdecode
  rw [encodeByte] at hencode
  split at hencode
  · next hgreeting =>
    obtain rfl := Except.ok.inj hencode
    obtain rfl := Except.ok.inj hdecode
    rw [hgreeting]
    rfl
  · split at hencode
    · next hempty =>
      obtain rfl := Except.ok.inj hencode
      obtain rfl := Except.ok.inj hdecode
      rcases hempty with rfl | rfl <;> rfl
    · split at hencode
      · next hvi =>
        obtain rfl := Except.ok.inj hencode
        obtain rfl := Except.ok.inj hdecode
        rw [hvi]
        rfl
      · cases hencode

/-- An event before the answer to the version check, and two after it. -/
def greetedOnce : List (ServerEnvelope Unit Foreground) :=
  [.event none, greeting, .event (some ["vi"]), .event (some [])]

def greetedFrames : List RawFrame :=
  [⟨.event, ⟨0⟩, [1]⟩, ⟨.response, ⟨0⟩, [0]⟩, ⟨.event, ⟨0⟩, [2]⟩, ⟨.event, ⟨0⟩, [1]⟩]

theorem runReader_greetedOnce : runReader decodeByte (writeLoop encodeByte greetedOnce) =
    [.ok (some (.event none)), .ok (some greeting), .ok (some (.event (some ["vi"]))),
      .ok (some (.event none)), .ok none] := by
  have hwritten : writeLoop encodeByte greetedOnce = greetedFrames.flatMap RawFrame.bytes := by
    decide
  have hread : readFrames (greetedFrames.flatMap RawFrame.bytes) = (greetedFrames, none) :=
    Streams.readAll_write reads_frames (by decide)
  rw [runReader, hwritten, hread]
  rfl

/-- A request finds the end of the stream, and the events it passed are handed out after it. -/
theorem events_delivered_greetedOnce : ∃ u : Upstream Unit Foreground,
    start "ssh" ⟨runReader decodeByte (writeLoop encodeByte greetedOnce), false⟩ none (.ok ()) =
        .ok u ∧
      ∃ (passed : List Foreground) (requestId : RequestId) (software : String)
          (after : List (ServerEnvelope Unit Foreground)),
        greetedOnce =
            passed.map .event ++ .response (.hello requestId protocolVersion software) :: after ∧
          handedOut (u.run [.request (.other ⟨1⟩ ()) (.ok ()), .nextEvent, .recv]).1 ++
              (u.run [.request (.other ⟨1⟩ ()) (.ok ()), .nextEvent, .recv]).2.queuedEvents <+:
            (eventsOf after).map (Option.filter (· ≠ [])) := by
  have hstart : start "ssh" ⟨runReader decodeByte (writeLoop encodeByte greetedOnce), false⟩ none
      (.ok ()) = .ok (⟨"ssh", ⟨[.ok (some (.event (some ["vi"]))), .ok (some (.event none)),
        .ok none], false⟩, none, []⟩ : Upstream Unit Foreground) := by
    rw [runReader_greetedOnce, start, ProtocolClient.handshake, ProtocolClient.request,
      ProtocolClient.awaitResponse, ProtocolClient.recv]
    dsimp only
    rw [ProtocolClient.awaitResponse, ProtocolClient.recv]
    rfl
  exact ⟨_, hstart, events_delivered decodes_byte (List.prefix_refl _) hstart _⟩

end Upstream

end Embers
