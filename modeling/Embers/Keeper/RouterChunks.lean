import Embers.Keeper.Router

/-!
# Routing does not depend on the reads

A read of the terminal can end at any byte, and the router is given the stream in whatever chunks
the reads return. Its scanners keep what they need between chunks, so the cuts change only how the
bytes are grouped into calls of the emulator.

## Two steps

For a backend that takes bytes as a stream (`TerminalBackend.Streaming`), routing is a left fold of
one byte at a time (`routeOutputWith_eq_foldl`): that is where the forwarded bytes, which the source
gathers and hands over in one piece, are taken apart.

A backend need not be of that kind, and the calls made of it differ from one cut to another. So the
calls are recorded, and the record is mapped to one that is a stream (`routeChunks_map`). What the
map keeps is then the same for every cut.
-/

namespace Embers

variable {β γ : Type*}

/-- Bytes given in two pieces are the bytes given in one. -/
structure TerminalBackend.Streaming (backend : TerminalBackend β) : Prop where
  ingest_append : ∀ b xs ys,
    backend.ingestBytes b (xs ++ ys) = backend.ingestBytes (backend.ingestBytes b xs) ys

/-- The bytes for the backend are only ever added to. -/
theorem PassthroughScanner.step_forward (s : PassthroughScanner) (byte : UInt8)
    (forward : List UInt8) :
    s.step byte forward =
      ⟨(s.step byte []).scanner, forward ++ (s.step byte []).forward, (s.step byte []).payload⟩ := by
  unfold step restartAfterEscape stepEscape releaseAndStep stepGround
  split
  all_goals repeat' split
  all_goals simp_all

namespace RawByteRouter

variable (backend : TerminalBackend β) (onWrite : β → PassthroughWrite → β)

/-! ## One byte at a time -/

/-- One forwarded byte: the scanners see it, the backend gets it, and a query it completes is
answered. -/
def watchByte (state : RawByteRouter × β) (byte : UInt8) : RawByteRouter × β :=
  let step := state.1.stepQueries byte
  let b := backend.ingestBytes state.2 [byte]
  ({ step.1 with osc7 := state.1.osc7.step byte },
    match step.2 with
    | none => b
    | some query => backend.answerQuery b query)

/-- One byte of the stream. -/
def routeByte (state : RawByteRouter × β) (byte : UInt8) : RawByteRouter × β :=
  let scan := state.1.passthrough.step byte []
  let state := scan.forward.foldl (watchByte backend)
    ({ state.1 with passthrough := scan.scanner }, state.2)
  match scan.payload with
  | none => state
  | some payload => (state.1, onWrite state.2 ⟨payload, backend.cursorPosition state.2⟩)

/-- What the backend holds once it has been given the pending bytes. -/
def given (b : β) (pending : List UInt8) : β :=
  if pending.isEmpty then b else backend.ingestBytes b pending

variable {backend}

theorem given_append_singleton (h : backend.Streaming) (b : β) (pending : List UInt8)
    (byte : UInt8) :
    given backend b (pending ++ [byte]) = backend.ingestBytes (given backend b pending) [byte] := by
  rcases pending with _ | ⟨first, pending⟩
  · simp [given]
  · simpa [given] using h.ingest_append b (first :: pending) [byte]

/-- Bytes that are still pending might as well have been given at once. -/
theorem ingestLoop_given (h : backend.Streaming) (bytes : List UInt8) :
    ∀ (r : RawByteRouter) (b : β) (pending : List UInt8),
      ingestLoop backend r b pending bytes =
        ingestLoop backend r (given backend b pending) [] bytes := by
  induction bytes with
  | nil => intro r b pending; simp [ingestLoop, given]
  | cons byte bytes ih =>
    intro r b pending
    have hgive := given_append_singleton h b pending byte
    rcases hstep : r.stepQueries byte with ⟨r', _ | query⟩
    · simp only [ingestLoop, hstep, List.nil_append]
      rw [ih r' b, ih r' (given backend b pending), hgive]
      simp [given]
    · have hall : backend.ingestBytes b (pending ++ [byte]) =
          backend.ingestBytes (given backend b pending) [byte] := by
        rw [← hgive]
        simp [given]
      simp only [ingestLoop, hstep, List.nil_append, hall]

/-- The report scanner runs ahead over the whole piece, which makes no difference: it shares nothing
with the scanners of the queries. -/
theorem ingestLoop_eq_foldl (h : backend.Streaming) (bytes : List UInt8) :
    ∀ (r : RawByteRouter) (b : β),
      ingestLoop backend { r with osc7 := r.osc7.feed bytes } b [] bytes =
        bytes.foldl (watchByte backend) (r, b) := by
  induction bytes with
  | nil => intro r b; simp [ingestLoop, Osc7Scanner.feed]
  | cons byte bytes ih =>
    intro r b
    have hwatch := ih (watchByte backend (r, b) byte).1 (watchByte backend (r, b) byte).2
    rw [List.foldl_cons, ← hwatch, ingestLoop]
    rcases hquery : (r.stepQueries byte).2 with _ | query
    · have hstep : stepQueries { r with osc7 := r.osc7.feed (byte :: bytes) } byte =
          ({ (r.stepQueries byte).1 with osc7 := r.osc7.feed (byte :: bytes) }, none) := by
        rw [← hquery]
        rfl
      rw [hstep]
      simp only [List.nil_append]
      rw [ingestLoop_given h]
      simp [watchByte, hquery, given, Osc7Scanner.feed]
    · have hstep : stepQueries { r with osc7 := r.osc7.feed (byte :: bytes) } byte =
          ({ (r.stepQueries byte).1 with osc7 := r.osc7.feed (byte :: bytes) }, some query) := by
        rw [← hquery]
        rfl
      rw [hstep]
      simp [watchByte, hquery, Osc7Scanner.feed]

theorem ingest_eq_foldl (h : backend.Streaming) (r : RawByteRouter) (b : β) (bytes : List UInt8) :
    r.ingest backend b bytes = bytes.foldl (watchByte backend) (r, b) := by
  rcases bytes with _ | ⟨byte, bytes⟩
  · simp [ingest]
  · simp only [ingest, List.isEmpty_cons, Bool.false_eq_true, if_false]
    exact ingestLoop_eq_foldl h (byte :: bytes) r b

/-- The forwarded bytes do not touch the scanner they came out of. -/
theorem foldl_watchByte_passthrough (bytes : List UInt8) (scanner : PassthroughScanner) :
    ∀ state : RawByteRouter × β,
      bytes.foldl (watchByte backend) ({ state.1 with passthrough := scanner }, state.2) =
        ({ (bytes.foldl (watchByte backend) state).1 with passthrough := scanner },
          (bytes.foldl (watchByte backend) state).2) := by
  induction bytes with
  | nil => intro state; rfl
  | cons byte bytes ih =>
    intro state
    rw [List.foldl_cons, List.foldl_cons, ← ih (watchByte backend state byte)]
    rfl

theorem foldl_watchByte_scanner (bytes : List UInt8) :
    ∀ state : RawByteRouter × β,
      (bytes.foldl (watchByte backend) state).1.passthrough = state.1.passthrough := by
  induction bytes with
  | nil => intro state; rfl
  | cons byte bytes ih =>
    intro state
    rw [List.foldl_cons, ih]
    rfl

theorem routeLoop_eq_foldl (h : backend.Streaming) (bytes : List UInt8) :
    ∀ (r : RawByteRouter) (b : β) (forward : List UInt8),
      routeLoop backend onWrite r b forward bytes =
        bytes.foldl (routeByte backend onWrite) (forward.foldl (watchByte backend) (r, b)) := by
  induction bytes with
  | nil => intro r b forward; exact ingest_eq_foldl h r b forward
  | cons byte bytes ih =>
    intro r b forward
    have hscan := r.passthrough.step_forward byte forward
    -- what was gathered, then what the byte adds to it, is one fold
    have hwatch : (r.passthrough.step byte forward).forward.foldl (watchByte backend)
          ({ r with passthrough := (r.passthrough.step byte forward).scanner }, b) =
        (r.passthrough.step byte []).forward.foldl (watchByte backend)
          ({ (forward.foldl (watchByte backend) (r, b)).1 with
              passthrough := (r.passthrough.step byte []).scanner },
            (forward.foldl (watchByte backend) (r, b)).2) := by
      rw [hscan]
      simp only [List.foldl_append]
      rw [foldl_watchByte_passthrough forward _ (r, b)]
    have hpayload : (r.passthrough.step byte forward).payload =
        (r.passthrough.step byte []).payload := by
      rw [hscan]
    rw [List.foldl_cons, routeLoop]
    rcases hp : (r.passthrough.step byte []).payload with _ | payload
    · simp only [hpayload, hp]
      rw [ih, hwatch]
      simp only [routeByte, foldl_watchByte_scanner, hp]
    · simp only [hpayload, hp]
      rw [ih, ingest_eq_foldl h, hwatch]
      simp only [routeByte, foldl_watchByte_scanner, hp, List.foldl_nil]

theorem routeOutputWith_eq_foldl (h : backend.Streaming) (r : RawByteRouter) (b : β)
    (bytes : List UInt8) :
    routeOutputWith backend onWrite r b bytes = bytes.foldl (routeByte backend onWrite) (r, b) :=
  routeLoop_eq_foldl onWrite h bytes r b []

theorem routeChunks_eq_foldl (h : backend.Streaming) (r : RawByteRouter) (b : β)
    (chunks : List (List UInt8)) :
    routeChunks backend onWrite r b chunks =
      chunks.flatten.foldl (routeByte backend onWrite) (r, b) := by
  rw [List.foldl_flatten, routeChunks]
  congr 1
  funext state chunk
  exact routeOutputWith_eq_foldl onWrite h state.1 state.2 chunk

theorem routeChunks_streaming (h : backend.Streaming) (r : RawByteRouter) (b : β)
    (chunks : List (List UInt8)) :
    routeChunks backend onWrite r b chunks =
      routeOutputWith backend onWrite r b chunks.flatten := by
  rw [routeChunks_eq_foldl onWrite h, routeOutputWith_eq_foldl onWrite h]

/-! ## Maps of backends -/

/-- A map of the states of one backend to those of another that keeps what the router does. The
position of the cursor matters only for what `onWrite` makes of it. -/
structure Maps (backend : TerminalBackend β) (onWrite : β → PassthroughWrite → β)
    (target : TerminalBackend γ) (onWrite' : γ → PassthroughWrite → γ) (f : β → γ) : Prop where
  ingestBytes : ∀ b bytes, f (backend.ingestBytes b bytes) = target.ingestBytes (f b) bytes
  answerQuery : ∀ b query, f (backend.answerQuery b query) = target.answerQuery (f b) query
  onWrite : ∀ b payload, f (onWrite b ⟨payload, backend.cursorPosition b⟩) =
    onWrite' (f b) ⟨payload, target.cursorPosition (f b)⟩

variable {onWrite} {target : TerminalBackend γ} {onWrite' : γ → PassthroughWrite → γ} {f : β → γ}

theorem ingestLoop_map (h : Maps backend onWrite target onWrite' f) (bytes : List UInt8) :
    ∀ (r : RawByteRouter) (b : β) (pending : List UInt8),
      ingestLoop target r (f b) pending bytes =
        ((ingestLoop backend r b pending bytes).1, f (ingestLoop backend r b pending bytes).2) := by
  induction bytes with
  | nil =>
    intro r b pending
    by_cases hp : pending.isEmpty
    · simp [ingestLoop, hp]
    · simp [ingestLoop, hp, h.ingestBytes]
  | cons byte bytes ih =>
    intro r b pending
    rcases hstep : r.stepQueries byte with ⟨r', _ | query⟩
    · simp only [ingestLoop, hstep]
      exact ih r' b (pending ++ [byte])
    · simp only [ingestLoop, hstep]
      rw [← h.ingestBytes, ← h.answerQuery]
      exact ih r' _ []

theorem ingest_map (h : Maps backend onWrite target onWrite' f) (r : RawByteRouter) (b : β)
    (bytes : List UInt8) :
    r.ingest target (f b) bytes = ((r.ingest backend b bytes).1, f (r.ingest backend b bytes).2) := by
  by_cases hb : bytes.isEmpty
  · simp [ingest, hb]
  · simp only [ingest, hb, Bool.false_eq_true, if_false]
    exact ingestLoop_map h bytes _ b []

theorem routeLoop_map (h : Maps backend onWrite target onWrite' f) (bytes : List UInt8) :
    ∀ (r : RawByteRouter) (b : β) (forward : List UInt8),
      routeLoop target onWrite' r (f b) forward bytes =
        ((routeLoop backend onWrite r b forward bytes).1,
          f (routeLoop backend onWrite r b forward bytes).2) := by
  induction bytes with
  | nil => intro r b forward; exact ingest_map h r b forward
  | cons byte bytes ih =>
    intro r b forward
    rcases hp : (r.passthrough.step byte forward).payload with _ | payload
    · simp only [routeLoop, hp]
      exact ih _ b _
    · simp only [routeLoop, hp]
      rw [ingest_map h]
      simp only [← h.onWrite]
      exact ih _ _ []

theorem routeChunks_map (h : Maps backend onWrite target onWrite' f)
    (chunks : List (List UInt8)) :
    ∀ (r : RawByteRouter) (b : β),
      routeChunks target onWrite' r (f b) chunks =
        ((routeChunks backend onWrite r b chunks).1,
          f (routeChunks backend onWrite r b chunks).2) := by
  induction chunks with
  | nil => intro r b; rfl
  | cons chunk chunks ih =>
    intro r b
    have hchunk : routeOutputWith target onWrite' r (f b) chunk =
        ((routeOutputWith backend onWrite r b chunk).1,
          f (routeOutputWith backend onWrite r b chunk).2) := routeLoop_map h chunk r b []
    have hrest := ih (routeOutputWith backend onWrite r b chunk).1
      (routeOutputWith backend onWrite r b chunk).2
    simp only [routeChunks, List.foldl_cons] at hrest ⊢
    rw [hchunk]
    exact hrest

/-- If the target takes bytes as a stream, the image is the same for every cut. -/
theorem map_routeChunks (h : Maps backend onWrite target onWrite' f) (ht : target.Streaming)
    (r : RawByteRouter) (b : β) (chunks : List (List UInt8)) :
    (routeChunks backend onWrite r b chunks).1 =
        (routeOutputWith backend onWrite r b chunks.flatten).1 ∧
      f (routeChunks backend onWrite r b chunks).2 =
        f (routeOutputWith backend onWrite r b chunks.flatten).2 := by
  have hcut := routeChunks_map h chunks r b
  have hwhole : routeOutputWith target onWrite' r (f b) chunks.flatten = _ :=
    routeLoop_map h chunks.flatten r b []
  rw [routeChunks_streaming onWrite' ht, hwhole] at hcut
  exact ⟨(Prod.ext_iff.mp hcut).1.symm, (Prod.ext_iff.mp hcut).2.symm⟩

end RawByteRouter

/-! ## The calls of the backend -/

/-- A call the router makes. -/
inductive RouterCall where
  | ingest (bytes : List UInt8)
  | answer (query : TerminalQuery)
  | write (write : PassthroughWrite)
  deriving DecidableEq, Repr

/-- What the backend is given one after another: the grouping of the bytes is gone, and so is the
cursor of a write, which is the backend's own. -/
inductive StreamItem where
  | byte (byte : UInt8)
  | answer (query : TerminalQuery)
  | write (payload : List UInt8)
  deriving DecidableEq, Repr

namespace RouterCall

def items : RouterCall → List StreamItem
  | ingest bytes => bytes.map .byte
  | answer query => [.answer query]
  | write w => [.write w.bytes]

def stream (calls : List RouterCall) : List StreamItem := calls.flatMap items

/-- The writes for the host. -/
def writes (calls : List RouterCall) : List PassthroughWrite :=
  calls.filterMap fun
    | write w => some w
    | _ => none

end RouterCall

section Recording

variable (backend : TerminalBackend β) (onWrite : β → PassthroughWrite → β)

/-- The backend with a record of the calls made of it. -/
def TerminalBackend.recording : TerminalBackend (β × List RouterCall) where
  ingestBytes b bytes := (backend.ingestBytes b.1 bytes, b.2 ++ [.ingest bytes])
  answerQuery b query := (backend.answerQuery b.1 query, b.2 ++ [.answer query])
  cursorPosition b := backend.cursorPosition b.1

def recordWrite (b : β × List RouterCall) (write : PassthroughWrite) : β × List RouterCall :=
  (onWrite b.1 write, b.2 ++ [.write write])

/-- Only the stream is kept, and the cursor is anywhere. -/
def streamBackend : TerminalBackend (List StreamItem) where
  ingestBytes items bytes := items ++ bytes.map .byte
  answerQuery items query := items ++ [.answer query]
  cursorPosition _ := ⟨0, 0⟩

theorem streamBackend_streaming : streamBackend.Streaming where
  ingest_append items xs ys := by simp [streamBackend]

theorem recording_maps_stream :
    RawByteRouter.Maps backend.recording (recordWrite onWrite) streamBackend
      (fun items write ↦ items ++ [.write write.bytes]) (fun b ↦ RouterCall.stream b.2) where
  ingestBytes b bytes := by
    simp [TerminalBackend.recording, streamBackend, RouterCall.stream, RouterCall.items]
  answerQuery b query := by
    simp [TerminalBackend.recording, streamBackend, RouterCall.stream, RouterCall.items]
  onWrite b payload := by
    simp [recordWrite, RouterCall.stream, RouterCall.items]

/-- The backend with the writes it was asked to make, cursors included. -/
def TerminalBackend.collecting : TerminalBackend (β × List PassthroughWrite) where
  ingestBytes b bytes := (backend.ingestBytes b.1 bytes, b.2)
  answerQuery b query := (backend.answerQuery b.1 query, b.2)
  cursorPosition b := backend.cursorPosition b.1

theorem collecting_streaming (h : backend.Streaming) : backend.collecting.Streaming where
  ingest_append b xs ys := by simp [TerminalBackend.collecting, h.ingest_append]

theorem recording_maps_collecting :
    RawByteRouter.Maps backend.recording (recordWrite onWrite) backend.collecting
      (fun b write ↦ (onWrite b.1 write, b.2 ++ [write]))
      (fun b ↦ (b.1, RouterCall.writes b.2)) where
  ingestBytes b bytes := by
    simp [TerminalBackend.recording, TerminalBackend.collecting, RouterCall.writes]
  answerQuery b query := by
    simp [TerminalBackend.recording, TerminalBackend.collecting, RouterCall.writes]
  onWrite b payload := by
    simp [TerminalBackend.recording, TerminalBackend.collecting, recordWrite, RouterCall.writes]

/-- However a stream is cut into chunks, the emulator is given the same bytes with the same queries
answered and the same payloads taken out at the same places, and the router ends in the same state,
the working directory last reported included. With an emulator that takes bytes as a stream, the
cursor of each write and the state of the emulator are the same as well. -/
theorem routeChunks_eq_routeOutput (r : RawByteRouter) (b : β) (chunks : List (List UInt8)) :
    let cut := RawByteRouter.routeChunks backend.recording (recordWrite onWrite) r (b, []) chunks
    let whole :=
      RawByteRouter.routeOutputWith backend.recording (recordWrite onWrite) r (b, []) chunks.flatten
    RouterCall.stream cut.2.2 = RouterCall.stream whole.2.2 ∧
      cut.1 = whole.1 ∧ cut.1.reportedCwd = whole.1.reportedCwd ∧
      (backend.Streaming →
        cut.2.1 = whole.2.1 ∧ RouterCall.writes cut.2.2 = RouterCall.writes whole.2.2) := by
  intro cut whole
  obtain ⟨hrouter, hstream⟩ := RawByteRouter.map_routeChunks
    (recording_maps_stream backend onWrite) streamBackend_streaming r (b, []) chunks
  refine ⟨hstream, hrouter, congrArg _ hrouter, fun h ↦ ?_⟩
  obtain ⟨-, hwrites⟩ := RawByteRouter.map_routeChunks
    (recording_maps_collecting backend onWrite) (collecting_streaming backend h) r (b, []) chunks
  exact Prod.ext_iff.mp hwrites

end Recording

/-- A backend that keeps the bytes it is given, with the cursor behind the last of them. -/
def transcript : TerminalBackend (List UInt8) where
  ingestBytes kept bytes := kept ++ bytes
  answerQuery kept _ := kept
  cursorPosition kept := ⟨0, UInt16.ofNat kept.length⟩

theorem transcript_streaming : transcript.Streaming where
  ingest_append kept xs ys := (List.append_assoc kept xs ys).symm

/-- A wrapped sequence cut inside its introducer and inside its terminator. -/
def cutPassthrough : List (List UInt8) :=
  [[0x61, esc, 0x50, 0x74, 0x6d], [0x75, 0x78, 0x3b, 0x41, esc], [backslash, 0x42]]

theorem routeChunks_cutPassthrough :
    let cut := RawByteRouter.routeChunks transcript.recording (recordWrite fun kept _ ↦ kept)
      .new ([], []) cutPassthrough
    let whole := RawByteRouter.routeOutputWith transcript.recording (recordWrite fun kept _ ↦ kept)
      .new ([], []) cutPassthrough.flatten
    RouterCall.writes cut.2.2 = [⟨[0x41], ⟨0, 1⟩⟩] ∧
      RouterCall.writes cut.2.2 = RouterCall.writes whole.2.2 :=
  ⟨by decide +kernel,
    ((routeChunks_eq_routeOutput transcript _ .new [] cutPassthrough).2.2.2
      transcript_streaming).2⟩

end Embers
