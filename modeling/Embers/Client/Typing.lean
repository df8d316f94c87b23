import Embers.Client.KeyBytes
import Embers.Client.Overlays

/-!
# Typing into a pane

Keys that no binding takes go to the focused pane when the mode's fallback says so. Keys that begin a
binding are held back until one matches, or none can any more. Bytes the client could not read as a
key, and pasted text, go to the pane at once.

`Typing.step` is `handle_key` and `handle_paste` as far as they send bytes to the focused pane. A key
that an overlay or copy mode takes for itself is sent nowhere. A run ends where a binding matches:
what it does is not a matter of this module.
-/

namespace Embers

/-! ## Bindings -/

inductive FallbackPolicy where
  | passthrough
  | ignore
  deriving DecidableEq, Repr

structure BindingSpec (τ : Type) where
  sequence : List KeyToken
  target : τ

inductive InputResolution (τ : Type) where
  | exactMatch (binding : BindingSpec τ)
  | prefixMatch
  | unmatched (sequence : List KeyToken) (fallbackPolicy : FallbackPolicy)

structure KeyConfig (τ : Type) where
  bindings : Table String (List (BindingSpec τ))
  modes : Table String FallbackPolicy

namespace KeyConfig

variable {τ : Type} (config : KeyConfig τ)

def bindingsOf (mode : String) : List (BindingSpec τ) := (config.bindings[mode]?).getD []

def fallbackPolicy (mode : String) : FallbackPolicy := (config.modes[mode]?).getD .ignore

/-- What a key after the `pending` ones is, and the keys pending then. -/
def resolveKey (mode : String) (pending : List KeyToken) (key : KeyToken) :
    InputResolution τ × List KeyToken :=
  let pending := pending ++ [key]
  match (config.bindingsOf mode).find? fun binding ↦ binding.sequence = pending with
  | some binding => (.exactMatch binding, [])
  | none =>
    if (config.bindingsOf mode).any fun binding ↦ pending.isPrefixOf binding.sequence then
      (.prefixMatch, pending)
    else (.unmatched pending (config.fallbackPolicy mode), [])

end KeyConfig

/-! ## Typing -/

/-- What the program in the focused pane asked for. -/
structure PaneModes where
  keyboardMode : UInt8
  bracketedPaste : Bool
  deriving DecidableEq, Repr

inductive TypedEvent where
  | key (event : KeyEvent)
  | paste (bytes : List UInt8)
  deriving DecidableEq, Repr

structure Typing where
  mode : String
  pending : List KeyToken
  /-- A count typed in copy mode. -/
  pendingCount : Option ℕ
  /-- Whether a jump of copy mode waits for its target. -/
  pendingJump : Bool
  /-- The bytes sent to the focused pane. -/
  sent : List UInt8
  deriving DecidableEq

/-- Pasted text as it is sent. -/
def pasteBytes (pane : PaneModes) (bytes : List UInt8) : List UInt8 :=
  if pane.bracketedPaste then
    [0x1b, 0x5b, 0x32, 0x30, 0x30, 0x7e] ++ bytes ++ [0x1b, 0x5b, 0x32, 0x30, 0x31, 0x7e]
  else bytes

def digit? (ch : Char) : Option ℕ := if ch.isDigit then some (ch.toNat - 48) else none

namespace Typing

variable {τ : Type} (s : Typing)

def inCopyMode : Bool := s.mode = copyMode ∨ s.mode = selectMode

/-- Whether a digit continues a count, or begins one that no binding begins with. -/
def acceptsCountDigit (config : KeyConfig τ) (ch : Char) : Bool :=
  match digit? ch with
  | none => false
  | some digit =>
    s.pending = [] ∧ (s.pendingCount.isSome ∨ (digit ≠ 0 ∧
      ¬(config.bindingsOf s.mode).any fun binding ↦ binding.sequence.head? = some (.char ch)))

/-- The longest count that can be typed. -/
def maxCount : ℕ := 99999

def pushCountDigit (digit : ℕ) : Option ℕ :=
  some (min (s.pendingCount.getD 0 * 10 + digit) maxCount)

/-- Bytes for the pane, unless the mode ignores what is not bound. -/
def passThrough (config : KeyConfig τ) (bytes : List UInt8) : Typing :=
  if config.fallbackPolicy s.mode = .passthrough then { s with sent := s.sent ++ bytes } else s

/-- A key for the bindings, in a pane's modes. -/
def resolve (config : KeyConfig τ) (pane : PaneModes) (token : KeyToken) : Option Typing :=
  match config.resolveKey s.mode s.pending token with
  | (.exactMatch _, _) => none
  | (.prefixMatch, pending) => some { s with pending }
  | (.unmatched sequence fallbackPolicy, pending) =>
    let s := { s with pending, pendingCount := none }
    match fallbackPolicy, sequenceToBytes pane.keyboardMode sequence with
    | .passthrough, .ok bytes => some { s with sent := s.sent ++ bytes }
    | _, _ => some s

/-- Whether the mode has overlays read keys. -/
def overlaid : Bool := s.mode ∈ [promptMode, treeMode, searchMode, hintsMode]

def handleKey (config : KeyConfig τ) (pane : PaneModes) (key : KeyEvent) : Option Typing :=
  if s.overlaid then some s
  else if s.inCopyMode ∧ s.pendingJump then some { s with pendingJump := false }
  else
    match key with
    | .bytes bytes => some (s.passThrough config bytes)
    | key =>
      match (if s.inCopyMode then match key with
        | .char ch => if s.acceptsCountDigit config ch then digit? ch else none
        | _ => none
      else none) with
      | some digit => some { s with pendingCount := s.pushCountDigit digit }
      | none =>
        match keyEventToToken key with
        | .ok token => s.resolve config pane token
        | .error _ => some s

def handlePaste (config : KeyConfig τ) (pane : PaneModes) (bytes : List UInt8) : Typing :=
  if s.mode ∈ [promptMode, treeMode, searchMode] then s
  else s.passThrough config (pasteBytes pane bytes)

/-- One event, in the pane's modes, unless a binding matches. -/
def step (config : KeyConfig τ) (s : Typing) (pane : PaneModes) : TypedEvent → Option Typing
  | .key event => s.handleKey config pane (normalizeTextKey event)
  | .paste bytes => some (s.handlePaste config pane bytes)

def run (config : KeyConfig τ) (s : Typing) : List (PaneModes × TypedEvent) → Option Typing
  | [] => some s
  | (pane, event) :: events => (s.step config pane event).bind fun s' ↦ run config s' events

end Typing

/-! ## What is typed and what is sent -/

/-- The bytes of an event the client could not read as a key. -/
def KeyEvent.rawBytes? : KeyEvent → Option (List UInt8)
  | .bytes raw => some raw
  | _ => none

def KeyEvent.char? : KeyEvent → Option Char
  | .char ch => some ch
  | _ => none

/-- A key by itself, as it is sent. -/
def KeyToken.bytes (mode : UInt8) (token : KeyToken) : List UInt8 :=
  token.chord.elim [] fun (code, mods) ↦ encodeKey code mods mode

/-- The encoding of an event by itself. -/
def ownEncoding (pane : PaneModes) : TypedEvent → List UInt8
  | .paste bytes => pasteBytes pane bytes
  | .key event =>
    match (normalizeTextKey event).rawBytes? with
    | some bytes => bytes
    | none =>
      match keyEventToToken (normalizeTextKey event) with
      | .ok token => token.bytes pane.keyboardMode
      | .error _ => []

/-- The bytes are every event's encoding in the order of the events. The pane may change its modes:
an event is encoded by those it had when the event came or later, and at the latest `now`. -/
inductive TypedInOrder (now : PaneModes) : List (PaneModes × TypedEvent) → List UInt8 → Prop
  | nil : TypedInOrder now [] []
  | cons {pane sentIn : PaneModes} {event : TypedEvent} {rest : List (PaneModes × TypedEvent)}
      {bytes : List UInt8} (hsent : sentIn ∈ pane :: rest.map Prod.fst ++ [now])
      (hrest : TypedInOrder now rest bytes) :
      TypedInOrder now ((pane, event) :: rest) (ownEncoding sentIn event ++ bytes)

theorem keyEventToToken_chord {key : KeyEvent} {token : KeyToken}
    (h : keyEventToToken key = .ok token) : ∃ code mods, token.chord = some (code, mods) := by
  have hnormalize (code : KeyCode) (mods : Modifiers) :
      ∃ c m, (normalizeKeyToken code mods).chord = some (c, m) := by
    cases code with
    | char ch =>
      change ∃ c m, KeyToken.chord (if mods = .onlyCtrl then .ctrl ch.toLower
        else if mods = .onlyAlt then .alt ch.toLower else .key (.char ch.toLower) mods) = some (c, m)
      split_ifs <;> exact ⟨_, _, rfl⟩
    | _ => exact ⟨_, _, rfl⟩
  cases key with
  | char ch =>
    obtain rfl : (if ch = ' ' then KeyToken.space else .char ch) = token := Except.ok.inj h
    split_ifs <;> exact ⟨_, _, rfl⟩
  | alt ch =>
    obtain rfl : (if ch.isUpper then KeyToken.key (.char ch.toLower) .altShift else .alt ch) = token :=
      Except.ok.inj h
    split_ifs <;> exact ⟨_, _, rfl⟩
  | key code mods =>
    obtain rfl : normalizeKeyToken code mods = token := Except.ok.inj h
    exact hnormalize code mods
  | bytes bytes => exact nomatch h
  | _ =>
    cases h
    exact ⟨_, _, rfl⟩

/-- Keys without a leader are sent one after the other. -/
theorem sequenceToBytes_eq (mode : UInt8) {tokens : List KeyToken}
    (h : ∀ token ∈ tokens, ∃ code mods, token.chord = some (code, mods)) :
    sequenceToBytes mode tokens = .ok (tokens.flatMap (·.bytes mode)) := by
  induction tokens with
  | nil => rfl
  | cons token tokens ih =>
    obtain ⟨code, mods, hchord⟩ := h token List.mem_cons_self
    have hrest := ih fun t ht ↦ h t (List.mem_cons_of_mem _ ht)
    simp only [sequenceToBytes, hchord, hrest, List.flatMap_cons, KeyToken.bytes, Option.elim]
    rfl


/-! ## Runs -/

/-- The token of a key event. -/
def KeyOf (input : PaneModes × TypedEvent) (token : KeyToken) : Prop :=
  ∃ event, input.2 = .key event ∧ keyEventToToken (normalizeTextKey event) = .ok token

theorem KeyOf.ownEncoding_eq {input : PaneModes × TypedEvent} {token : KeyToken}
    (h : KeyOf input token) (pane : PaneModes) :
    ownEncoding pane input.2 = token.bytes pane.keyboardMode := by
  obtain ⟨event, hevent, htoken⟩ := h
  have hraw : (normalizeTextKey event).rawBytes? = none := by
    generalize normalizeTextKey event = key at htoken
    cases key with
    | bytes raw => exact nomatch htoken
    | _ => rfl
  simp only [hevent, ownEncoding, hraw, htoken]

theorem KeyOf.chord {input : PaneModes × TypedEvent} {token : KeyToken} (h : KeyOf input token) :
    ∃ code mods, token.chord = some (code, mods) := by
  obtain ⟨event, -, htoken⟩ := h
  exact keyEventToToken_chord htoken

/-- Held keys sent in one go, before what was sent of the later events. -/
theorem TypedInOrder.append {now pane : PaneModes} {held rest : List (PaneModes × TypedEvent)}
    {tokens : List KeyToken} {bytes : List UInt8} (hheld : List.Forall₂ KeyOf held tokens)
    (hpane : pane ∈ rest.map Prod.fst ++ [now]) (hrest : TypedInOrder now rest bytes) :
    TypedInOrder now (held ++ rest) (tokens.flatMap (·.bytes pane.keyboardMode) ++ bytes) := by
  induction hheld with
  | nil => exact hrest
  | @cons input token held tokens hkey _ ih =>
    rw [List.flatMap_cons, List.append_assoc, ← hkey.ownEncoding_eq pane]
    have hmem : pane ∈ (held ++ rest).map Prod.fst ++ [now] := by
      rw [List.map_append, List.append_assoc]
      exact List.mem_append_right _ hpane
    exact .cons (List.mem_cons_of_mem _ hmem) ih

namespace Typing

variable {τ : Type} {config : KeyConfig τ} {s s' : Typing} {pane : PaneModes} {token : KeyToken}

/-- A key is held, or sent behind those held before it. -/
theorem resolve_cases (hpass : config.fallbackPolicy s.mode = .passthrough)
    (hchord : ∀ t ∈ s.pending ++ [token], ∃ code mods, t.chord = some (code, mods))
    (h : s.resolve config pane token = some s') :
    s' = { s with pending := s.pending ++ [token] } ∨
      s' = { s with
        pending := []
        pendingCount := none
        sent := s.sent ++ (s.pending ++ [token]).flatMap (·.bytes pane.keyboardMode) } := by
  rw [resolve, KeyConfig.resolveKey] at h
  cases hfind : (config.bindingsOf s.mode).find? fun binding ↦
      binding.sequence = s.pending ++ [token] with
  | some binding =>
    rw [hfind] at h
    exact nomatch h
  | none =>
    simp only [hfind] at h
    split_ifs at h with hprefix
    · exact .inl (Option.some.inj h).symm
    · simp only [hpass, sequenceToBytes_eq _ hchord] at h
      exact .inr (Option.some.inj h).symm

/-- Whether copy mode takes the key for itself: as the target of a jump, or as a digit of a
count. -/
def CopyTakes (config : KeyConfig τ) (s : Typing) (key : KeyEvent) : Prop :=
  s.inCopyMode ∧ (s.pendingJump ∨ key.char?.any (s.acceptsCountDigit config))

instance (key : KeyEvent) : Decidable (s.CopyTakes config key) :=
  inferInstanceAs (Decidable (_ ∧ _))

/-- The mode leaves the event to the pane, and what is not a key comes with no key held back. -/
def StepSound (config : KeyConfig τ) (s : Typing) : TypedEvent → Prop
  | .key event =>
    ¬s.overlaid ∧ ¬s.CopyTakes config (normalizeTextKey event) ∧
      ((normalizeTextKey event).rawBytes?.isSome → s.pending = [])
  | .paste _ => s.mode ∉ [promptMode, treeMode, searchMode] ∧ s.pending = []

instance (event : TypedEvent) : Decidable (s.StepSound config event) :=
  match event with
  | .key _ => inferInstanceAs (Decidable (_ ∧ _ ∧ _))
  | .paste _ => inferInstanceAs (Decidable (_ ∧ _))

/-- Every step of the run is sound where it is taken. -/
def SoundRun (config : KeyConfig τ) (s : Typing) : List (PaneModes × TypedEvent) → Prop
  | [] => True
  | (pane, event) :: events =>
    s.StepSound config event ∧
      match s.step config pane event with
      | some s' => SoundRun config s' events
      | none => True

theorem handleKey_bytes {raw : List UInt8} (hoverlaid : ¬s.overlaid)
    (hcopy : ¬s.CopyTakes config (.bytes raw)) :
    s.handleKey config pane (.bytes raw) = some (s.passThrough config raw) := by
  have hjump : ¬(s.inCopyMode ∧ s.pendingJump) := fun h ↦ hcopy ⟨h.1, .inl h.2⟩
  rw [handleKey, if_neg hoverlaid, if_neg hjump]

/-- A key nothing else takes is one for the bindings. -/
theorem handleKey_token {key : KeyEvent} (hoverlaid : ¬s.overlaid) (hcopy : ¬s.CopyTakes config key)
    (htoken : keyEventToToken key = .ok token) :
    s.handleKey config pane key = s.resolve config pane token := by
  have hjump : ¬(s.inCopyMode ∧ s.pendingJump) := fun h ↦ hcopy ⟨h.1, .inl h.2⟩
  unfold handleKey
  rw [if_neg hoverlaid, if_neg hjump]
  cases key with
  | bytes raw => exact nomatch htoken
  | char ch =>
    have hdigit : (if s.inCopyMode then if s.acceptsCountDigit config ch then digit? ch else none
        else none) = none := by
      split_ifs with hmode haccepts
      · exact absurd ⟨hmode, .inr haccepts⟩ hcopy
      · rfl
      · rfl
    change (match if s.inCopyMode then if s.acceptsCountDigit config ch then digit? ch else none
      else none with
      | some digit => some { s with pendingCount := s.pushCountDigit digit }
      | none => match keyEventToToken (.char ch) with
        | .ok token => s.resolve config pane token
        | .error _ => some s) = _
    rw [hdigit, htoken]
  | _ =>
    have hnone : (if s.inCopyMode then none else none : Option ℕ) = none := ite_self _
    simp only [hnone, htoken]

theorem passThrough_eq (hpass : config.fallbackPolicy s.mode = .passthrough) (bytes : List UInt8) :
    s.passThrough config bytes = { s with sent := s.sent ++ bytes } := if_pos hpass

/-- An event is sent with no key held back, or is a key that is held, or sent behind those held. -/
theorem step_cases {event : TypedEvent} (hpass : config.fallbackPolicy s.mode = .passthrough)
    (hchord : ∀ t ∈ s.pending, ∃ code mods, t.chord = some (code, mods))
    (hsound : s.StepSound config event) (h : s.step config pane event = some s') :
    (s.pending = [] ∧ s' = { s with sent := s.sent ++ ownEncoding pane event }) ∨
      ∃ token, KeyOf (pane, event) token ∧
        (s' = { s with pending := s.pending ++ [token] } ∨
          s' = { s with
            pending := []
            pendingCount := none
            sent := s.sent ++ (s.pending ++ [token]).flatMap (·.bytes pane.keyboardMode) }) := by
  cases event with
  | paste bytes =>
    obtain ⟨hmode, hpending⟩ := hsound
    refine .inl ⟨hpending, ?_⟩
    rw [step, handlePaste, if_neg hmode, passThrough_eq hpass] at h
    exact (Option.some.inj h).symm
  | key event =>
    obtain ⟨hoverlaid, hcopy, hraw⟩ := hsound
    cases htoken : keyEventToToken (normalizeTextKey event) with
    | ok token =>
      have hkey : KeyOf (pane, .key event) token := ⟨event, rfl, htoken⟩
      rw [step, handleKey_token hoverlaid hcopy htoken] at h
      refine .inr ⟨token, hkey, resolve_cases hpass (fun t ht ↦ ?_) h⟩
      rcases List.mem_append.mp ht with ht | ht
      · exact hchord t ht
      · rw [List.mem_singleton.mp ht]
        exact hkey.chord
    | error e =>
      -- only raw bytes are no key
      obtain ⟨raw, hbytes⟩ : ∃ raw, normalizeTextKey event = .bytes raw := by
        generalize normalizeTextKey event = key at htoken
        cases key with
        | bytes raw => exact ⟨raw, rfl⟩
        | _ => exact nomatch htoken
      rw [hbytes] at hcopy hraw
      rw [step, hbytes, handleKey_bytes hoverlaid hcopy, passThrough_eq hpass] at h
      refine .inl ⟨hraw rfl, ?_⟩
      have hown : ownEncoding pane (.key event) = raw := by
        simp only [ownEncoding, hbytes, KeyEvent.rawBytes?]
      rw [hown]
      exact (Option.some.inj h).symm

/-- From a state with keys held back, they and all that follows are sent in order. -/
theorem run_held {inputs held : List (PaneModes × TypedEvent)} (now : PaneModes)
    (hpass : config.fallbackPolicy s.mode = .passthrough)
    (hheld : List.Forall₂ KeyOf held s.pending) (hrun : s.run config inputs = some s')
    (hsound : s.SoundRun config inputs) :
    ∃ bytes, s'.sent ++ s'.pending.flatMap (·.bytes now.keyboardMode) = s.sent ++ bytes ∧
      TypedInOrder now (held ++ inputs) bytes := by
  induction inputs generalizing s held with
  | nil =>
    obtain rfl := Option.some.inj hrun
    exact ⟨_, rfl, by simpa using TypedInOrder.append hheld (List.mem_singleton_self now) .nil⟩
  | cons input inputs ih =>
    obtain ⟨pane, event⟩ := input
    obtain ⟨s₁, hstep, hrun⟩ := Option.bind_eq_some_iff.mp hrun
    obtain ⟨hstepSound, hsound⟩ := hsound
    have hchord : ∀ t ∈ s.pending, ∃ code mods, t.chord = some (code, mods) := by
      intro t ht
      obtain ⟨i, hi, rfl⟩ := List.getElem_of_mem ht
      have hlen := hheld.length_eq
      exact (hheld.get (hlen ▸ hi) hi).chord
    simp only [hstep] at hsound
    rcases step_cases hpass hchord hstepSound hstep with
      ⟨hpending, hs₁⟩ | ⟨token, hkey, hs₁ | hs₁⟩
    · have hpass₁ : config.fallbackPolicy s₁.mode = .passthrough := hs₁ ▸ hpass
      have hheld₁ : List.Forall₂ KeyOf [] s₁.pending := by
        rw [hs₁, hpending]
        exact .nil
      obtain ⟨bytes, hsent, hbytes⟩ := ih hpass₁ hheld₁ hrun hsound
      obtain rfl : held = [] := List.forall₂_nil_right_iff.mp (hpending ▸ hheld)
      refine ⟨ownEncoding pane event ++ bytes, ?_, .cons List.mem_cons_self hbytes⟩
      rw [hsent, hs₁, List.append_assoc]
    · have hpass₁ : config.fallbackPolicy s₁.mode = .passthrough := hs₁ ▸ hpass
      have hheld₁ : List.Forall₂ KeyOf (held ++ [(pane, event)]) s₁.pending := by
        rw [hs₁]
        exact List.rel_append hheld (.cons hkey .nil)
      obtain ⟨bytes, hsent, hbytes⟩ := ih hpass₁ hheld₁ hrun hsound
      refine ⟨bytes, ?_, by simpa using hbytes⟩
      rw [hsent, hs₁]
    · have hpass₁ : config.fallbackPolicy s₁.mode = .passthrough := hs₁ ▸ hpass
      have hheld₁ : List.Forall₂ KeyOf [] s₁.pending := by
        rw [hs₁]
        exact .nil
      obtain ⟨bytes, hsent, hbytes⟩ := ih hpass₁ hheld₁ hrun hsound
      have hown : TypedInOrder now ((pane, event) :: inputs) (ownEncoding pane event ++ bytes) :=
        .cons List.mem_cons_self hbytes
      refine ⟨_, ?_, TypedInOrder.append hheld (List.mem_cons_self (a := pane)) hown⟩
      rw [hsent, hs₁, hkey.ownEncoding_eq pane, List.flatMap_append, List.flatMap_singleton]
      simp only [List.append_assoc]

/-- Where the mode leaves every event to the pane, and raw bytes and pastes come with no key held
back, the bytes sent and then the keys still held are all that was typed, in the order it was. -/
theorem sent_in_order {inputs : List (PaneModes × TypedEvent)} (now : PaneModes)
    (hpass : config.fallbackPolicy s.mode = .passthrough) (hpending : s.pending = [])
    (hsent : s.sent = []) (hrun : s.run config inputs = some s')
    (hsound : s.SoundRun config inputs) :
    TypedInOrder now inputs (s'.sent ++ s'.pending.flatMap (·.bytes now.keyboardMode)) := by
  have hheld : List.Forall₂ KeyOf [] s.pending := hpending ▸ List.Forall₂.nil
  obtain ⟨bytes, hbytes, horder⟩ := run_held now hpass hheld hrun hsound
  rw [hbytes, hsent, List.nil_append]
  exact horder

end Typing

/-- In a pane that keeps its modes the order leaves no choice. -/
theorem TypedInOrder.eq_flatMap {now : PaneModes} {inputs : List (PaneModes × TypedEvent)}
    {bytes : List UInt8} (h : TypedInOrder now inputs bytes)
    (hpane : ∀ input ∈ inputs, input.1 = now) :
    bytes = inputs.flatMap fun input ↦ ownEncoding now input.2 := by
  induction h with
  | nil => rfl
  | @cons pane sentIn event rest bytes hsent hrest ih =>
    have hrest' : ∀ input ∈ rest, input.1 = now := fun input h ↦
      hpane input (List.mem_cons_of_mem _ h)
    have hnow : sentIn = now := by
      rcases List.mem_append.mp hsent with h | h
      · rcases List.mem_cons.mp h with rfl | h
        · exact hpane _ List.mem_cons_self
        · obtain ⟨input, hinput, rfl⟩ := List.mem_map.mp h
          exact hrest' input hinput
      · exact List.mem_singleton.mp h
    rw [hnow, List.flatMap_cons, ih hrest']

namespace Typing

/-- A mode that passes keys on and has `ab` bound. -/
def holdingConfig : KeyConfig Unit where
  bindings := (∅ : Table _ _).insert normalMode [⟨[.char 'a', .char 'b'], ()⟩]
  modes := (∅ : Table _ _).insert normalMode .passthrough

def legacyPane : PaneModes := ⟨0, false⟩

def untyped : Typing := ⟨normalMode, [], none, false, []⟩

/-- `a` begins the binding, and `c` ends what could match. -/
theorem sent_in_order_unmatched :
    TypedInOrder legacyPane [(legacyPane, .key (.char 'a')), (legacyPane, .key (.char 'c')),
      (legacyPane, .paste [0x78])] [0x61, 0x63, 0x78] := by
  have hrun : untyped.run holdingConfig [(legacyPane, .key (.char 'a')),
      (legacyPane, .key (.char 'c')), (legacyPane, .paste [0x78])] =
        some ⟨normalMode, [], none, false, [0x61, 0x63, 0x78]⟩ := by decide +kernel
  have hsound : untyped.SoundRun holdingConfig [(legacyPane, .key (.char 'a')),
      (legacyPane, .key (.char 'c')), (legacyPane, .paste [0x78])] :=
    ⟨by decide +kernel, by decide +kernel, by decide +kernel, trivial⟩
  exact sent_in_order (s := untyped) legacyPane (by decide +kernel) rfl rfl hrun hsound

/-- A paste overtakes the `a` that is held back for a binding. -/
theorem paste_overtakes_key :
    holdingConfig.fallbackPolicy normalMode = .passthrough ∧
      untyped.run holdingConfig [(legacyPane, .key (.char 'a')), (legacyPane, .paste [0x78])] =
        some ⟨normalMode, [.char 'a'], none, false, [0x78]⟩ ∧
      ¬TypedInOrder legacyPane [(legacyPane, .key (.char 'a')), (legacyPane, .paste [0x78])]
        ([0x78] ++ [KeyToken.char 'a'].flatMap (·.bytes 0)) := by
  refine ⟨by decide +kernel, by decide +kernel, fun h ↦ ?_⟩
  have heq := h.eq_flatMap (by decide)
  revert heq
  decide +kernel

end Typing

end Embers
