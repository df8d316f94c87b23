import Mathlib

/-!
# The byte router of a keeper

What a program in a pane writes passes `RawByteRouter` before it reaches the emulator. Four
scanners look at it, each one byte at a time: `PassthroughScanner` takes sequences for the host
terminal out of the stream, and what is left is watched by `Osc7Scanner` for reports of the working
directory and by `DcsQueryScanner` and `CellSizeQueryScanner` for queries the emulator leaves
unanswered.

The router calls the emulator through `TerminalBackend`, whose state is a parameter. What is done
with a sequence for the host is the caller's: `routeOutputWith` hands each one to `onWrite` together
with the backend as it is at that point.
-/

namespace Embers

def esc : UInt8 := 0x1b
def bel : UInt8 := 0x07
def can : UInt8 := 0x18
def sub : UInt8 := 0x1a
/-- The backslash that ends a control string after an `esc`. -/
def backslash : UInt8 := 0x5c

/-- CAN and SUB abort any control string. -/
def isAbort (byte : UInt8) : Bool := byte = can ∨ byte = sub

structure CursorPosition where
  row : UInt16
  col : UInt16
  deriving DecidableEq, Repr

/-- A sequence a program in a pane asked to have written to the host terminal, with the cursor of
the pane where the sequence ended. -/
structure PassthroughWrite where
  bytes : List UInt8
  cursor : CursorPosition
  deriving DecidableEq, Repr

/-- The largest passthrough payload that is forwarded; a larger one is dropped whole. -/
def maxPassthroughBytes : ℕ := 4 * 1024 * 1024

/-- A query the router intercepts for the backend to answer. -/
inductive TerminalQuery where
  | requestSetting (setting : List UInt8)
  | termcap (payload : List UInt8)
  | cellSize
  deriving DecidableEq, Repr

/-- What the router calls of the emulator. -/
structure TerminalBackend (β : Type*) where
  ingestBytes : β → List UInt8 → β
  answerQuery : β → TerminalQuery → β
  cursorPosition : β → CursorPosition

/-! ## Working directory reports -/

inductive Osc7State where
  | ground
  | escape
  | collect
  | collectEscape
  | skip
  | skipEscape
  deriving DecidableEq, Repr

structure Osc7Scanner where
  state : Osc7State
  buf : List UInt8
  cwd : Option String
  deriving DecidableEq, Repr

def osc7MaxPayload : ℕ := 4096

/-- The value of a hexadecimal digit, of either case. -/
def hexDigit (byte : UInt8) : Option ℕ :=
  if 0x30 ≤ byte ∧ byte ≤ 0x39 then some (byte.toNat - 0x30)
  else if 0x61 ≤ byte ∧ byte ≤ 0x66 then some (byte.toNat - 0x61 + 10)
  else if 0x41 ≤ byte ∧ byte ≤ 0x46 then some (byte.toNat - 0x41 + 10)
  else none

/-- `%` with two hexadecimal digits stands for a byte; any other `%` stands for itself. -/
def percentDecode : List UInt8 → List UInt8
  | [] => []
  | byte :: high :: low :: rest =>
    if byte = 0x25 then
      match hexDigit high, hexDigit low with
      | some hi, some lo => UInt8.ofNat (hi * 16 + lo) :: percentDecode rest
      | _, _ => byte :: percentDecode (high :: low :: rest)
    else byte :: percentDecode (high :: low :: rest)
  | byte :: rest => byte :: percentDecode rest

namespace Osc7Scanner

def new : Osc7Scanner := ⟨.ground, [], none⟩

/-- Parse a completed `7;file://host/path` payload and keep the decoded path. A payload of another
form, or a path that is not UTF-8, leaves the last report. -/
def finish (s : Osc7Scanner) : Osc7Scanner :=
  match s.buf.dropPrefix? "7;file://".toUTF8.data.toList with
  | none => s
  | some rest =>
    -- the authority ends at the first path separator
    let pathBytes := rest.dropWhile (· ≠ 0x2f)
    if pathBytes.isEmpty then s
    else
      match String.fromUTF8? ⟨(percentDecode pathBytes).toArray⟩ with
      | some text => { s with cwd := some text }
      | none => s

def step (s : Osc7Scanner) (byte : UInt8) : Osc7Scanner :=
  match s.state with
  | .ground => if byte = esc then { s with state := .escape } else s
  | .escape =>
    if byte = 0x5d then { s with buf := [], state := .collect }
    -- stay armed on a run of escapes
    else if byte = esc then s
    else { s with state := .ground }
  | .collect =>
    if byte = bel then { s.finish with state := .ground }
    else if byte = esc then { s with state := .collectEscape }
    else if (s.buf.isEmpty ∧ byte ≠ 0x37) ∨ s.buf.length ≥ osc7MaxPayload then
      { s with state := .skip }
    else { s with buf := s.buf ++ [byte] }
  | .collectEscape =>
    let s := if byte = backslash then s.finish else s
    { s with state := .ground }
  | .skip =>
    if byte = bel then { s with state := .ground }
    else if byte = esc then { s with state := .skipEscape }
    else s
  | .skipEscape => { s with state := .ground }

def feed (s : Osc7Scanner) (bytes : List UInt8) : Osc7Scanner := bytes.foldl step s

end Osc7Scanner

/-! ## Queries -/

inductive DcsState where
  | ground
  | escape
  | entry
  | final
  | collect
  | collectEscape
  | skip
  | skipEscape
  deriving DecidableEq, Repr

structure DcsQueryScanner where
  state : DcsState
  kind : UInt8
  buf : List UInt8
  deriving DecidableEq, Repr

def dcsQueryMaxPayload : ℕ := 256

namespace DcsQueryScanner

def new : DcsQueryScanner := ⟨.ground, 0, []⟩

/-- Advance by one byte, with the query that the byte completes. -/
def step (s : DcsQueryScanner) (byte : UInt8) : DcsQueryScanner × Option TerminalQuery :=
  if isAbort byte then ({ s with state := .ground }, none)
  else
    match s.state with
    | .ground => (if byte = esc then { s with state := .escape } else s, none)
    | .escape =>
      let state := if byte = 0x50 then .entry else if byte = esc then .escape else .ground
      ({ s with state }, none)
    | .entry =>
      if byte = 0x24 ∨ byte = 0x2b then ({ s with kind := byte, state := .final }, none)
      else if byte = esc then ({ s with state := .skipEscape }, none)
      else ({ s with state := .skip }, none)
    | .final =>
      if byte = 0x71 then ({ s with buf := [], state := .collect }, none)
      else if byte = esc then ({ s with state := .skipEscape }, none)
      else ({ s with state := .skip }, none)
    | .collect =>
      if byte = esc then ({ s with state := .collectEscape }, none)
      else if s.buf.length ≥ dcsQueryMaxPayload then ({ s with state := .skip }, none)
      else ({ s with buf := s.buf ++ [byte] }, none)
    | .collectEscape =>
      if byte = backslash then
        ({ s with state := .ground, buf := [] },
          some (if s.kind = 0x24 then .requestSetting s.buf else .termcap s.buf))
      -- an escape before anything else cancels the string, and may start the next sequence
      else ({ s with state := if byte = esc then .escape else .ground }, none)
    | .skip => (if byte = esc then { s with state := .skipEscape } else s, none)
    | .skipEscape =>
      let state := if byte = backslash then .ground else if byte = esc then .skipEscape else .skip
      ({ s with state }, none)

end DcsQueryScanner

/-- `ESC [ 16 t`. -/
def cellSizeQuery : Fin 5 → UInt8 := ![esc, 0x5b, 0x31, 0x36, 0x74]

/-- How much of `cellSizeQuery` has been seen. -/
structure CellSizeQueryScanner where
  matched : Fin 5
  deriving DecidableEq, Repr

def CellSizeQueryScanner.step (s : CellSizeQueryScanner) (byte : UInt8) :
    CellSizeQueryScanner × Option TerminalQuery :=
  if byte = cellSizeQuery s.matched then
    if h : s.matched.val + 1 < 5 then (⟨⟨s.matched.val + 1, h⟩⟩, none)
    else (⟨0⟩, some .cellSize)
  else (⟨if byte = cellSizeQuery 0 then 1 else 0⟩, none)

/-! ## Sequences for the host terminal -/

inductive PassthroughKind where
  | tmux
  | kittyGraphics
  deriving DecidableEq, Repr

/-- What follows `ESC P` in a passthrough sequence: `tmux;`. -/
def tmuxPassthroughPrefix : Fin 5 → UInt8 := ![0x74, 0x6d, 0x75, 0x78, 0x3b]

inductive PassthroughState where
  | ground
  /-- Holding an `esc`. -/
  | escape
  /-- Holding `ESC P` and this many bytes of `tmuxPassthroughPrefix`. -/
  | tmuxPrefix (matched : Fin 5)
  /-- Holding `ESC _`. -/
  | apcPrefix
  | collect (kind : PassthroughKind)
  | collectEscape (kind : PassthroughKind)
  /-- Inside a sequence that is too long, dropping it. -/
  | discard (kind : PassthroughKind)
  | discardEscape (kind : PassthroughKind)
  deriving DecidableEq, Repr

structure PassthroughScanner where
  state : PassthroughState
  /-- Bytes held back while they might still begin a passthrough. -/
  held : List UInt8
  payload : List UInt8
  deriving DecidableEq, Repr

/-- What a byte gives: the scanner after it, the bytes for the backend appended to what there was,
and the bytes for the host terminal when the byte ends a sequence. -/
structure ScanStep where
  scanner : PassthroughScanner
  forward : List UInt8
  payload : Option (List UInt8)
  deriving DecidableEq, Repr

namespace PassthroughScanner

def new : PassthroughScanner := ⟨.ground, [], []⟩

/-- The step in ordinary output, whatever the state the scanner is in. -/
def stepGround (s : PassthroughScanner) (byte : UInt8) (forward : List UInt8) : ScanStep :=
  if byte = esc then ⟨{ s with held := s.held ++ [byte], state := .escape }, forward, none⟩
  else ⟨s, forward ++ [byte], none⟩

/-- The held bytes did not begin a passthrough: they go to the backend, and the byte is looked at
afresh. -/
def releaseAndStep (s : PassthroughScanner) (byte : UInt8) (forward : List UInt8) : ScanStep :=
  stepGround { s with held := [], state := .ground } byte (forward ++ s.held)

/-- The step while an `esc` is held. -/
def stepEscape (s : PassthroughScanner) (byte : UInt8) (forward : List UInt8) : ScanStep :=
  if byte = 0x50 then ⟨{ s with state := .tmuxPrefix 0, held := s.held ++ [byte] }, forward, none⟩
  else if byte = 0x5f then
    ⟨{ s with state := .apcPrefix, held := s.held ++ [byte] }, forward, none⟩
  else s.releaseAndStep byte forward

/-- Go on as if an `esc` had just arrived in ordinary output, then the byte. -/
def restartAfterEscape (s : PassthroughScanner) (byte : UInt8) (forward : List UInt8) : ScanStep :=
  stepEscape { s with held := [esc], state := .escape } byte forward

def collect (s : PassthroughScanner) (kind : PassthroughKind) (byte : UInt8) :
    PassthroughScanner :=
  if s.payload.length ≥ maxPassthroughBytes then { s with payload := [], state := .discard kind }
  else { s with payload := s.payload ++ [byte] }

def step (s : PassthroughScanner) (byte : UInt8) (forward : List UInt8) : ScanStep :=
  match s.state with
  | .ground => s.stepGround byte forward
  | .escape => s.stepEscape byte forward
  | .tmuxPrefix matched =>
    if byte ≠ tmuxPassthroughPrefix matched then s.releaseAndStep byte forward
    else if h : matched.val + 1 < 5 then
      ⟨{ s with held := s.held ++ [byte], state := .tmuxPrefix ⟨matched.val + 1, h⟩ }, forward, none⟩
    else ⟨{ held := [], payload := [], state := .collect .tmux }, forward, none⟩
  | .apcPrefix =>
    if byte ≠ 0x47 then s.releaseAndStep byte forward
    else
      ⟨{ held := [], payload := [esc, 0x5f, 0x47], state := .collect .kittyGraphics }, forward, none⟩
  | .collect kind =>
    if byte = esc then ⟨{ s with state := .collectEscape kind }, forward, none⟩
    -- the aborting byte runs as a control
    else if isAbort byte then
      ⟨{ s with payload := [], state := .ground }, forward ++ [byte], none⟩
    else ⟨s.collect kind byte, forward, none⟩
  | .collectEscape kind =>
    if byte = backslash then
      ⟨{ s with state := .ground, payload := [] }, forward,
        some (match kind with
          | .tmux => s.payload
          | .kittyGraphics => s.payload ++ [esc, backslash])⟩
    else
      match kind with
      | .tmux =>
        if isAbort byte then ⟨{ s with payload := [], state := .ground }, forward ++ [byte], none⟩
        -- a doubled `esc` stands for one; before anything else it is dropped
        else ⟨collect { s with state := .collect .tmux } .tmux byte, forward, none⟩
      | .kittyGraphics => restartAfterEscape { s with payload := [] } byte forward
  | .discard kind =>
    if byte = esc then ⟨{ s with state := .discardEscape kind }, forward, none⟩
    else if isAbort byte then ⟨{ s with state := .ground }, forward ++ [byte], none⟩
    else ⟨s, forward, none⟩
  | .discardEscape kind =>
    if byte = backslash then ⟨{ s with state := .ground }, forward, none⟩
    else if kind = .tmux ∧ isAbort byte then ⟨{ s with state := .ground }, forward ++ [byte], none⟩
    else if kind = .tmux then ⟨{ s with state := .discard .tmux }, forward, none⟩
    else s.restartAfterEscape byte forward

end PassthroughScanner

/-! ## The router -/

structure RawByteRouter where
  osc7 : Osc7Scanner
  queries : DcsQueryScanner
  cellSize : CellSizeQueryScanner
  passthrough : PassthroughScanner
  deriving DecidableEq, Repr

namespace RawByteRouter

variable {β : Type*}

def new : RawByteRouter := ⟨.new, .new, ⟨0⟩, .new⟩

def reportedCwd (r : RawByteRouter) : Option String := r.osc7.cwd

/-- The two query scanners see the byte, and the first of them that completes a query wins. -/
def stepQueries (r : RawByteRouter) (byte : UInt8) : RawByteRouter × Option TerminalQuery :=
  let dcsQuery := r.queries.step byte
  let cellSizeQuery := r.cellSize.step byte
  ({ r with queries := dcsQuery.1, cellSize := cellSizeQuery.1 }, dcsQuery.2.or cellSizeQuery.2)

/-- The loop of `ingest`: `pending` is the part of the input, up to the byte at hand, that the
backend has not been given. -/
def ingestLoop (backend : TerminalBackend β) :
    RawByteRouter → β → List UInt8 → List UInt8 → RawByteRouter × β
  | r, b, pending, [] => (r, if pending.isEmpty then b else backend.ingestBytes b pending)
  | r, b, pending, byte :: rest =>
    match r.stepQueries byte with
    | (r, some query) =>
      let b := backend.answerQuery (backend.ingestBytes b (pending ++ [byte])) query
      ingestLoop backend r b [] rest
    | (r, none) => ingestLoop backend r b (pending ++ [byte]) rest

def ingest (backend : TerminalBackend β) (r : RawByteRouter) (b : β) (bytes : List UInt8) :
    RawByteRouter × β :=
  if bytes.isEmpty then (r, b)
  else ingestLoop backend { r with osc7 := r.osc7.feed bytes } b [] bytes

/-- The loop of `routeOutputWith`, with the bytes for the backend that have been gathered. -/
def routeLoop (backend : TerminalBackend β) (onWrite : β → PassthroughWrite → β) :
    RawByteRouter → β → List UInt8 → List UInt8 → RawByteRouter × β
  | r, b, forward, [] => r.ingest backend b forward
  | r, b, forward, byte :: rest =>
    let scan := r.passthrough.step byte forward
    let r := { r with passthrough := scan.scanner }
    match scan.payload with
    | none => routeLoop backend onWrite r b scan.forward rest
    | some payload =>
      -- everything before the sequence reaches the backend first
      let (r, b) := r.ingest backend b scan.forward
      let b := onWrite b ⟨payload, backend.cursorPosition b⟩
      routeLoop backend onWrite r b [] rest

def routeOutputWith (backend : TerminalBackend β) (onWrite : β → PassthroughWrite → β)
    (r : RawByteRouter) (b : β) (bytes : List UInt8) : RawByteRouter × β :=
  routeLoop backend onWrite r b [] bytes

/-- The chunks of a stream, routed one after another. -/
def routeChunks (backend : TerminalBackend β) (onWrite : β → PassthroughWrite → β)
    (r : RawByteRouter) (b : β) (chunks : List (List UInt8)) : RawByteRouter × β :=
  chunks.foldl (fun state chunk ↦ routeOutputWith backend onWrite state.1 state.2 chunk) (r, b)

end RawByteRouter

end Embers
