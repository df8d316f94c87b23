import Embers.Lib.LittleEndian
import Embers.Lib.Streams

/-!
# Frames

A frame goes over a connection as the length of its payload, its type and its request's id, and then the
payload. A stream that ends in a header ends there, one that ends in a payload is an error.
-/

namespace Embers.Protocol

open LittleEndian Streams

def maxFrameLen : ℕ := 8 * 1024 * 1024

def frameHeaderLen : ℕ := 13

inductive FrameType where
  | request
  | response
  | event
  deriving DecidableEq, Repr

inductive ProtocolError where
  | unexpectedEof
  | frameTooLarge (length : ℕ)
  | invalidFrameType (value : UInt8)
  deriving DecidableEq, Repr

namespace FrameType

def toByte : FrameType → UInt8
  | request => 1
  | response => 2
  | event => 3

def tryFrom (value : UInt8) : Except ProtocolError FrameType :=
  if value = 1 then .ok request
  else if value = 2 then .ok response
  else if value = 3 then .ok event
  else .error (.invalidFrameType value)

theorem tryFrom_toByte (frameType : FrameType) : tryFrom frameType.toByte = .ok frameType := by
  cases frameType with
  | request => rfl
  | response => rfl
  | event => rfl

end FrameType

structure RequestId where
  raw : UInt64
  deriving DecidableEq, Repr

structure RawFrame where
  frameType : FrameType
  requestId : RequestId
  payload : List UInt8
  deriving DecidableEq, Repr

/-! ## Reading and writing -/

/-- As many bytes as asked for, or the end of the stream. -/
def readExact (count : ℕ) (stream : List UInt8) : Option (List UInt8 × List UInt8) :=
  if count ≤ stream.length then some (stream.take count, stream.drop count) else none

def readFrame (stream : List UInt8) : Read ProtocolError RawFrame UInt8 :=
  match readExact frameHeaderLen stream with
  | none => .done
  | some (header, stream) =>
    let length := ofBytes (header.take 4)
    if maxFrameLen < length then .failed (.frameTooLarge length)
    else
      match FrameType.tryFrom (header.getD 4 0) with
      | .error error => .failed error
      | .ok frameType =>
        let requestId : RequestId := ⟨UInt64.ofNat (ofBytes ((header.drop 5).take 8))⟩
        match readExact length stream with
        | none => .failed .unexpectedEof
        | some (payload, stream) => .item ⟨frameType, requestId, payload⟩ stream

/-- The bytes of a frame, with its length as a `u32`. -/
def RawFrame.bytes (frame : RawFrame) : List UInt8 :=
  toBytes 4 (UInt32.ofNat frame.payload.length).toNat ++
    [frame.frameType.toByte] ++ toBytes 8 frame.requestId.raw.toNat ++ frame.payload

def writeFrame (frame : RawFrame) : Except ProtocolError (List UInt8) :=
  if maxFrameLen < frame.payload.length then .error (.frameTooLarge frame.payload.length)
  else .ok frame.bytes

/-- What several frames are written as, one after the other. -/
def writeFrames : List RawFrame → Except ProtocolError (List UInt8)
  | [] => .ok []
  | frame :: frames => do
    let bytes ← writeFrame frame
    let rest ← writeFrames frames
    return bytes ++ rest

/-! ## A frame alone -/

theorem readExact_append {taken rest : List UInt8} {count : ℕ} (h : taken.length = count) :
    readExact count (taken ++ rest) = some (taken, rest) := by
  rw [readExact, if_pos (by rw [List.length_append]; omega), List.take_left' h, List.drop_left' h]

theorem readExact_some {stream taken rest : List UInt8} {count : ℕ}
    (h : readExact count stream = some (taken, rest)) :
    taken.length = count ∧ stream = taken ++ rest := by
  rw [readExact] at h
  split at h
  · next hle =>
    obtain ⟨rfl, rfl⟩ := Prod.mk.inj (Option.some_inj.mp h)
    exact ⟨List.length_take_of_le hle, (List.take_append_drop _ _).symm⟩
  · cases h

/-- What is read of a frame that is read: its header, and the payload it says the length of. -/
theorem readFrame_item {stream rest : List UInt8} {frame : RawFrame}
    (h : readFrame stream = .item frame rest) :
    ∃ header : List UInt8, header.length = frameHeaderLen ∧
      frame.payload.length = ofBytes (header.take 4) ∧ stream = header ++ (frame.payload ++ rest) := by
  rw [readFrame] at h
  cases hheader : readExact frameHeaderLen stream with
  | none =>
    rw [hheader] at h
    cases h
  | some taken =>
    obtain ⟨hlen, hstream⟩ := readExact_some hheader
    rw [hheader] at h
    dsimp only at h
    split at h
    · cases h
    · split at h
      · cases h
      · cases hpayload : readExact (ofBytes (taken.1.take 4)) taken.2 with
        | none =>
          rw [hpayload] at h
          cases h
        | some payload =>
          obtain ⟨hpayloadLen, htaken⟩ := readExact_some hpayload
          rw [hpayload] at h
          cases h
          exact ⟨taken.1, hlen, hpayloadLen, by rw [hstream, htaken]⟩

/-- A reader of frames. -/
def frameReader : Reader ProtocolError RawFrame UInt8 where
  read := readFrame
  shrinks h := by
    obtain ⟨header, hlen, -, rfl⟩ := readFrame_item h
    rw [List.length_append, List.length_append, hlen, frameHeaderLen]
    omega

/-- The reading of frames over and over. -/
def readFrames (stream : List UInt8) : List RawFrame × Option ProtocolError :=
  frameReader.readAll stream

/-- The bytes of a frame before its payload. -/
def RawFrame.header (frame : RawFrame) : List UInt8 :=
  toBytes 4 frame.payload.length ++ frame.frameType.toByte :: toBytes 8 frame.requestId.raw.toNat

section Frame

variable {frame : RawFrame}

theorem length_header (frame : RawFrame) : frame.header.length = frameHeaderLen := by
  rw [RawFrame.header, List.length_append, List.length_cons, length_toBytes, length_toBytes]
  rfl

theorem length_lt_of_fits (h : frame.payload.length ≤ maxFrameLen) :
    frame.payload.length < 256 ^ 4 := by
  have hmax : maxFrameLen < 256 ^ 4 := by decide
  exact h.trans_lt hmax

theorem bytes_eq (h : frame.payload.length ≤ maxFrameLen) :
    frame.bytes = frame.header ++ frame.payload := by
  have hlen : (UInt32.ofNat frame.payload.length).toNat = frame.payload.length :=
    UInt32.toNat_ofNat_of_lt' (length_lt_of_fits h)
  rw [RawFrame.bytes, hlen, RawFrame.header, List.append_assoc (toBytes 4 _), List.singleton_append]

theorem ofBytes_header (h : frame.payload.length ≤ maxFrameLen) :
    ofBytes (frame.header.take 4) = frame.payload.length := by
  rw [RawFrame.header, List.take_left' (length_toBytes _ _), ofBytes_toBytes (length_lt_of_fits h)]

theorem frameType_header : frame.header.getD 4 0 = frame.frameType.toByte := by
  rw [RawFrame.header, List.getD_append_right _ _ _ _ (length_toBytes _ _).le, length_toBytes]
  rfl

theorem requestId_header :
    UInt64.ofNat (ofBytes ((frame.header.drop 5).take 8)) = frame.requestId.raw := by
  have hdrop : frame.header.drop 5 = toBytes 8 frame.requestId.raw.toNat := by
    rw [RawFrame.header, List.append_cons]
    refine List.drop_left' ?_
    rw [List.length_append, length_toBytes]
    rfl
  rw [hdrop, List.take_of_length_le (length_toBytes _ _).le,
    ofBytes_toBytes frame.requestId.raw.toNat_lt, UInt64.ofNat_toNat]

end Frame

theorem reads_frames :
    Reads frameReader (fun frame ↦ frame.payload.length ≤ maxFrameLen) RawFrame.bytes where
  empty := rfl
  whole {frame} hfits rest := by
    change readFrame (frame.bytes ++ rest) = .item frame rest
    rw [bytes_eq hfits, List.append_assoc, readFrame, readExact_append (length_header frame)]
    dsimp only
    rw [ofBytes_header hfits, if_neg (Nat.not_lt.mpr hfits), frameType_header,
      FrameType.tryFrom_toByte]
    dsimp only
    rw [requestId_header, readExact_append rfl]
  cut {frame} hfits stream hbegin hne other rest hitem := by
    obtain ⟨header, hlen, hpayload, rfl⟩ := readFrame_item hitem
    rw [bytes_eq hfits] at hbegin hne
    -- The header is whole, so the length that it says is the frame's own.
    have hheader : header = frame.header := by
      have hboth := List.prefix_of_prefix_length_le ((List.prefix_append _ _).trans hbegin)
        (List.prefix_append frame.header frame.payload) (hlen.trans (length_header frame).symm).le
      exact hboth.eq_of_length (hlen.trans (length_header frame).symm)
    rw [hheader, ofBytes_header hfits] at hpayload
    refine hne (hbegin.eq_of_length_le ?_)
    rw [hheader, List.length_append, List.length_append, List.length_append, hpayload]
    omega

/-! ## A stream of frames -/

theorem writeFrames_eq {frames : List RawFrame}
    (h : ∀ frame ∈ frames, frame.payload.length ≤ maxFrameLen) :
    writeFrames frames = .ok (frames.flatMap RawFrame.bytes) := by
  induction frames with
  | nil => rfl
  | cons frame frames ih =>
    obtain ⟨hfirst, hrest⟩ := List.forall_mem_cons.mp h
    rw [writeFrames, writeFrame, if_neg (Nat.not_lt.mpr hfirst), ih hrest]
    rfl

/-- **Frames.** Frames whose payloads are no longer than the limit are written, and read back as they
were; of a stream that is cut, only frames that were written are read, in their order. -/
theorem frames_read {frames : List RawFrame}
    (h : ∀ frame ∈ frames, frame.payload.length ≤ maxFrameLen) :
    ∃ stream, writeFrames frames = .ok stream ∧ readFrames stream = (frames, none) ∧
      ∀ cut, cut <+: stream → (readFrames cut).1 <+: frames :=
  ⟨_, writeFrames_eq h, readAll_write reads_frames h, fun _ hcut ↦ readAll_cut reads_frames h hcut⟩

theorem frames_read_two :
    ∃ stream, writeFrames [⟨.request, ⟨1⟩, [7, 8]⟩, ⟨.event, ⟨0⟩, []⟩] = .ok stream ∧
      readFrames stream = ([⟨.request, ⟨1⟩, [7, 8]⟩, ⟨.event, ⟨0⟩, []⟩], none) ∧
      ∀ cut, cut <+: stream →
        (readFrames cut).1 <+: [⟨.request, ⟨1⟩, [7, 8]⟩, ⟨.event, ⟨0⟩, []⟩] :=
  frames_read (by decide)

end Embers.Protocol
