import Embers.Core.Ids
import Embers.Protocol.Framing

/-!
# The two ends of a connection

A server queues its answers and its events for a connection in one channel, and `write_loop` writes
each as a frame. The client's end reads the frames in a task of its own, which hands on what each
carries and stops at the end of the stream or at the first error, so that what it hands on is always
the beginning of what was queued, as it is decoded (`received_runReader`).

What the messages carry beyond their ids is left to the parameters: `α` for requests, `β` for answers
and `γ` for events. Decoding keeps what kind of message it was and whose answer, but not all of what
was encoded: an id of zero is none in an error, and what the encoder leaves out of an answer or an event
(the pixels of a view's size, an empty command in the foreground) does not come back.
-/

namespace Embers.Protocol

open Streams

def protocolVersion : UInt32 := 1

def softwareVersion : String := "0.4.0"

/-! ## Messages -/

inductive ClientMessage (α : Type) where
  | hello (requestId : RequestId) (protocolVersion : UInt32) (softwareVersion : String)
  | subscribe (requestId : RequestId)
  | watch (requestId : RequestId) (bufferId : BufferId)
  | unwatch (requestId : RequestId) (bufferId : BufferId)
  | setHostGraphics (requestId : RequestId) (enabled : Bool)
  | other (requestId : RequestId) (request : α)
  deriving DecidableEq, Repr

inductive ServerResponse (β : Type) where
  | hello (requestId : RequestId) (protocolVersion : UInt32) (softwareVersion : String)
  | ok (requestId : RequestId)
  | subscriptionAck (requestId : RequestId) (subscriptionId : UInt64)
  | error (requestId : Option RequestId) (error : β)
  | other (requestId : RequestId) (response : β)
  deriving DecidableEq, Repr

inductive ServerEnvelope (β γ : Type) where
  | response (response : ServerResponse β)
  | event (event : γ)
  deriving DecidableEq, Repr

/-- What ends a connection's reading, or refuses the server. -/
inductive ClientError where
  | frame (error : ProtocolError)
  | invalidMessage (message : String)
  | unexpectedFrameType (frameType : FrameType)
  | unexpectedFrameKind (frameType : FrameType) (envelopeKind : String)
  | mismatchedRequestId (expected actual : RequestId)
  | readerTaskExited
  | incompatibleServer (clientVersion : String) (clientProtocol : UInt32) (serverVersion : String)
      (serverProtocol : UInt32)
  | serverPredatesHandshake (clientVersion : String)
  deriving DecidableEq, Repr

variable {α β γ : Type}

def ClientMessage.requestId : ClientMessage α → RequestId
  | .hello requestId _ _ | .subscribe requestId | .watch requestId _ | .unwatch requestId _
  | .setHostGraphics requestId _ | .other requestId _ => requestId

/-- An error that answers what the server could not read has no id. -/
def ServerResponse.requestId : ServerResponse β → Option RequestId
  | .hello requestId _ _ | .ok requestId | .subscriptionAck requestId _ | .other requestId _ =>
    some requestId
  | .error requestId _ => requestId

/-- What a client decodes of an answer, where `answer` says what comes back of its data. -/
def ServerResponse.decoded (answer : β → β) : ServerResponse β → ServerResponse β
  | .error requestId data => .error (requestId.filter (· ≠ ⟨0⟩)) (answer data)
  | .other requestId data => .other requestId (answer data)
  | response => response

def ServerEnvelope.decoded (answer : β → β) (event : γ → γ) :
    ServerEnvelope β γ → ServerEnvelope β γ
  | .response queued => .response (queued.decoded answer)
  | .event queued => .event (event queued)

instance : ToString RequestId := ⟨fun id ↦ toString id.raw⟩

def FrameType.debug : FrameType → String
  | .request => "Request"
  | .response => "Response"
  | .event => "Event"

def ProtocolError.text : ProtocolError → String
  | .unexpectedEof => "io error: early eof"
  | .frameTooLarge length => s!"frame exceeds max length: {length}"
  | .invalidFrameType value => s!"invalid frame type: {value}"

def ClientError.text : ClientError → String
  | .frame error => error.text
  | .invalidMessage message => s!"invalid message: {message}"
  | .unexpectedFrameType frameType => s!"unexpected frame type: {frameType.debug}"
  | .unexpectedFrameKind frameType envelopeKind =>
    s!"frame type {frameType.debug} cannot carry a {envelopeKind}"
  | .mismatchedRequestId expected actual =>
    s!"mismatched request id: expected {expected}, got {actual}"
  | .readerTaskExited => "reader task exited unexpectedly"
  | .incompatibleServer clientVersion clientProtocol serverVersion serverProtocol =>
    s!"the server runs embers {serverVersion} (protocol {serverProtocol}), " ++
      s!"which this client, embers {clientVersion} (protocol {clientProtocol}), cannot talk to"
  | .serverPredatesHandshake clientVersion =>
    s!"the server runs an embers release older than this client's ({clientVersion}), " ++
      "from before the version check, and cannot be talked to"

/-! ## Writing -/

section Ends

variable (encode : ServerEnvelope β γ → Except ClientError (List UInt8))
  (decode : List UInt8 → Except ClientError (ServerEnvelope β γ))

/-- The frame an envelope goes in: an event's has no id, nor has an answer without one. -/
def envelopeFrame (envelope : ServerEnvelope β γ) : Except ClientError RawFrame := do
  let payload ← encode envelope
  match envelope with
  | .response response => return ⟨.response, response.requestId.getD ⟨0⟩, payload⟩
  | .event _ => return ⟨.event, ⟨0⟩, payload⟩

/-- What `write_loop` writes of what is queued: all of it, or what comes before the first envelope
that cannot be written. -/
def writeLoop : List (ServerEnvelope β γ) → List UInt8
  | [] => []
  | envelope :: outbound =>
    match envelopeFrame encode envelope with
    | .error _ => []
    | .ok frame =>
      match writeFrame frame with
      | .error _ => []
      | .ok bytes => bytes ++ writeLoop outbound

/-! ## Reading -/

/-- What the reading task hands on: an envelope, the end of the stream, or an error. -/
abbrev ReaderItem (β γ : Type) := Except ClientError (Option (ServerEnvelope β γ))

def decodeFrame (frame : RawFrame) : Except ClientError (ServerEnvelope β γ) := do
  let envelope ← decode frame.payload
  match frame.frameType, envelope with
  | .response, .response response =>
    let responseId := response.requestId.getD ⟨0⟩
    if responseId ≠ frame.requestId then .error (.mismatchedRequestId frame.requestId responseId)
    else return .response response
  | .event, .event event =>
    if frame.requestId ≠ ⟨0⟩ then .error (.mismatchedRequestId ⟨0⟩ frame.requestId)
    else return .event event
  | .response, .event _ => .error (.unexpectedFrameKind .response "event")
  | .event, .response _ => .error (.unexpectedFrameKind .event "response")
  | .request, _ => .error (.unexpectedFrameType .request)

/-- The frames that are read are handed on until one cannot be decoded, and then what ended them. -/
def readerItems (ending : Option ProtocolError) : List RawFrame → List (ReaderItem β γ)
  | [] => [ending.elim (.ok none) fun error ↦ .error (.frame error)]
  | frame :: frames =>
    match decodeFrame decode frame with
    | .ok envelope => .ok (some envelope) :: readerItems ending frames
    | .error error => [.error error]

def runReader (stream : List UInt8) : List (ReaderItem β γ) :=
  readerItems decode (readFrames stream).2 (readFrames stream).1

end Ends

/-! ## What is received -/

/-- The envelopes among what is handed on. -/
def received (items : List (ReaderItem β γ)) : List (ServerEnvelope β γ) :=
  items.filterMap fun
    | .ok envelope => envelope
    | .error _ => none

/-- What is decoded of an encoded envelope, if anything is. -/
def Decodes (encode : ServerEnvelope β γ → Except ClientError (List UInt8))
    (decode : List UInt8 → Except ClientError (ServerEnvelope β γ)) (answer : β → β) (event : γ → γ) :
    Prop :=
  ∀ envelope payload envelope', encode envelope = .ok payload → decode payload = .ok envelope' →
    envelope' = envelope.decoded answer event

section Received

variable {encode : ServerEnvelope β γ → Except ClientError (List UInt8)}
  {decode : List UInt8 → Except ClientError (ServerEnvelope β γ)} {answer : β → β} {event : γ → γ}

@[simp] theorem received_cons_envelope (envelope : ServerEnvelope β γ)
    (items : List (ReaderItem β γ)) :
    received (.ok (some envelope) :: items) = envelope :: received items := rfl

@[simp] theorem received_cons_done (items : List (ReaderItem β γ)) :
    received (.ok none :: items) = received items := rfl

@[simp] theorem received_cons_error (error : ClientError) (items : List (ReaderItem β γ)) :
    received (.error error :: items) = received items := rfl

/-- A frame that is decoded is decoded to the envelope in it. -/
theorem decode_of_decodeFrame {frame : RawFrame} {envelope : ServerEnvelope β γ}
    (h : decodeFrame decode frame = .ok envelope) : decode frame.payload = .ok envelope := by
  rw [decodeFrame] at h
  cases hpayload : decode frame.payload with
  | error error =>
    rw [hpayload] at h
    cases h
  | ok envelope' =>
    rw [hpayload] at h
    simp only [bind, Except.bind] at h
    split at h
    · split at h
      · cases h
      · exact h
    · split at h
      · cases h
      · exact h
    · cases h
    · cases h
    · cases h

theorem payload_of_envelopeFrame {envelope : ServerEnvelope β γ} {frame : RawFrame}
    (h : envelopeFrame encode envelope = .ok frame) : encode envelope = .ok frame.payload := by
  rw [envelopeFrame] at h
  cases hpayload : encode envelope with
  | error error =>
    rw [hpayload] at h
    cases h
  | ok payload =>
    rw [hpayload] at h
    cases envelope with
    | response response =>
      obtain rfl := Except.ok.inj h
      rfl
    | event event =>
      obtain rfl := Except.ok.inj h
      rfl

/-- The frames fit and decode to the envelopes, if they decode and as far as they go. -/
inductive Carries (decode : List UInt8 → Except ClientError (ServerEnvelope β γ)) :
    List RawFrame → List (ServerEnvelope β γ) → Prop
  | nil (envelopes : List (ServerEnvelope β γ)) : Carries decode [] envelopes
  | cons {frame : RawFrame} {envelope : ServerEnvelope β γ} {frames : List RawFrame}
      {envelopes : List (ServerEnvelope β γ)} (hfits : frame.payload.length ≤ maxFrameLen)
      (hframe : ∀ envelope', decodeFrame decode frame = .ok envelope' → envelope' = envelope)
      (hrest : Carries decode frames envelopes) :
      Carries decode (frame :: frames) (envelope :: envelopes)

namespace Carries

variable {frames frames' : List RawFrame} {envelopes : List (ServerEnvelope β γ)}

theorem fits (h : Carries decode frames envelopes) :
    ∀ frame ∈ frames, frame.payload.length ≤ maxFrameLen := by
  induction h with
  | nil envelopes => exact List.forall_mem_nil _
  | cons hfits _ _ ih => exact List.forall_mem_cons.mpr ⟨hfits, ih⟩

theorem cut (h : Carries decode frames envelopes) (hcut : frames' <+: frames) :
    Carries decode frames' envelopes := by
  induction h generalizing frames' with
  | nil envelopes =>
    rw [List.prefix_nil.mp hcut]
    exact .nil _
  | cons hfits hframe _ ih =>
    cases frames' with
    | nil => exact .nil _
    | cons frame' frames' =>
      obtain ⟨rfl, hframes⟩ := List.cons_prefix_cons.mp hcut
      exact .cons hfits hframe (ih hframes)

theorem received_readerItems (h : Carries decode frames envelopes)
    (ending : Option ProtocolError) :
    received (readerItems decode ending frames) <+: envelopes := by
  induction h with
  | nil envelopes =>
    have hnone : received (readerItems decode ending []) = [] := by
      cases ending with
      | none => rfl
      | some error => rfl
    rw [hnone]
    exact List.nil_prefix
  | cons _ hframe _ ih =>
    rw [readerItems]
    split
    · next envelope' hdecoded =>
      obtain rfl := hframe envelope' hdecoded
      rw [received_cons_envelope]
      exact List.cons_prefix_cons.mpr ⟨rfl, ih⟩
    · exact List.nil_prefix

end Carries

/-- What is written are frames that carry what was queued. -/
theorem writeLoop_carries (hcodec : Decodes encode decode answer event)
    (outbound : List (ServerEnvelope β γ)) :
    ∃ frames : List RawFrame, writeLoop encode outbound = frames.flatMap RawFrame.bytes ∧
      Carries decode frames (outbound.map (·.decoded answer event)) := by
  induction outbound with
  | nil => exact ⟨[], rfl, .nil _⟩
  | cons envelope outbound ih =>
    rw [writeLoop]
    split
    · exact ⟨[], rfl, .nil _⟩
    · next frame hframe =>
      split
      · exact ⟨[], rfl, .nil _⟩
      · next bytes hbytes =>
        obtain ⟨frames, hwritten, hcarries⟩ := ih
        rw [writeFrame] at hbytes
        split at hbytes
        · cases hbytes
        · next hfit =>
          obtain rfl := Except.ok.inj hbytes
          refine ⟨frame :: frames, ?_, .cons (Nat.not_lt.mp hfit) (fun envelope' h ↦ ?_) hcarries⟩
          · rw [List.flatMap_cons, hwritten]
          · exact hcodec _ _ _ (payload_of_envelopeFrame hframe) (decode_of_decodeFrame h)

/-- Wherever the stream is cut, what is received is the beginning of what was queued, decoded. -/
theorem received_runReader (hcodec : Decodes encode decode answer event)
    {outbound : List (ServerEnvelope β γ)} {stream : List UInt8}
    (hstream : stream <+: writeLoop encode outbound) :
    received (runReader decode stream) <+: outbound.map (·.decoded answer event) := by
  obtain ⟨frames, hbytes, hcarries⟩ := writeLoop_carries hcodec outbound
  rw [hbytes] at hstream
  -- The frames that are read are the first of those written.
  have hread : (readFrames stream).1 <+: frames := readAll_cut reads_frames hcarries.fits hstream
  exact (hcarries.cut hread).received_readerItems _

end Received

end Embers.Protocol
