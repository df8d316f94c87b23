import Embers.Keeper.Router

/-!
# What passthrough takes out of the stream

A program's output is ordinary text with sequences for the host terminal in between. The scanner
separates the two without knowing where the pieces begin: it holds back what may still turn out to
be an introducer, and takes it up again when it is not. Neither introducer has a proper prefix that
starts again inside it, so what is held is always the longest end of the text that could be one
(`Holding`), and text that ends in none is forwarded whole.
-/

namespace Embers

namespace PassthroughScanner

/-! ## Runs -/

/-- What a run over some bytes comes to: the bytes for the backend and, apart from them, those for
the host terminal. -/
structure Scanned where
  scanner : PassthroughScanner
  forward : List UInt8
  payloads : List (List UInt8)
  deriving DecidableEq, Repr

/-- The bytes fed one by one, with one `forward` for all of them. -/
def feed (s : PassthroughScanner) (forward : List UInt8) : List UInt8 → Scanned
  | [] => ⟨s, forward, []⟩
  | byte :: bytes =>
    let step := s.step byte forward
    let rest := feed step.scanner step.forward bytes
    { rest with payloads := step.payload.toList ++ rest.payloads }

variable {forward text payload body : List UInt8}

theorem feed_append (s : PassthroughScanner) (forward xs ys : List UInt8) :
    s.feed forward (xs ++ ys) =
      { (s.feed forward xs).scanner.feed (s.feed forward xs).forward ys with
        payloads := (s.feed forward xs).payloads ++
          ((s.feed forward xs).scanner.feed (s.feed forward xs).forward ys).payloads } := by
  induction xs generalizing s forward with
  | nil => rfl
  | cons byte xs ih =>
    rw [List.cons_append, feed, ih]
    simp only [feed, List.append_assoc]

/-- A run in two parts, the first of which is known. -/
theorem feed_append_of_eq {s t : PassthroughScanner} {xs ys : List UInt8} {forward' : List UInt8}
    {payloads : List (List UInt8)} (h : s.feed forward xs = ⟨t, forward', payloads⟩) :
    s.feed forward (xs ++ ys) =
      { t.feed forward' ys with payloads := payloads ++ (t.feed forward' ys).payloads } := by
  rw [feed_append, h]

theorem feed_singleton (s : PassthroughScanner) (forward : List UInt8) (byte : UInt8) :
    s.feed forward [byte] = ⟨(s.step byte forward).scanner, (s.step byte forward).forward,
      (s.step byte forward).payload.toList⟩ := by
  rw [feed, feed, List.append_nil]

/-! ## Introducers -/

/-- `ESC P tmux;`. -/
def tmuxIntroducer : List UInt8 := [esc, 0x50, 0x74, 0x6d, 0x75, 0x78, 0x3b]

/-- `ESC _ G`. -/
def kittyIntroducer : List UInt8 := [esc, 0x5f, 0x47]

/-- Some, but not all, of an introducer. -/
def Begins (held introducer : List UInt8) : Prop :=
  held <+: introducer ∧ held ≠ [] ∧ held ≠ introducer

/-- What is held in each state: part of an introducer, or nothing. -/
inductive Holding : PassthroughState → List UInt8 → Prop
  | ground : Holding .ground []
  | escape : Holding .escape [esc]
  | tmux (matched : Fin 5) : Holding (.tmuxPrefix matched) (tmuxIntroducer.take (matched + 2))
  | apc : Holding .apcPrefix [esc, 0x5f]

theorem Holding.begins {state : PassthroughState} {held : List UInt8} (h : Holding state held) :
    (state = .ground ∧ held = []) ∨ Begins held tmuxIntroducer ∨ Begins held kittyIntroducer := by
  cases h with
  | ground => exact .inl ⟨rfl, rfl⟩
  | escape => exact .inr (.inl ⟨by decide, by decide, by decide⟩)
  | tmux matched =>
    refine .inr (.inl ⟨List.take_prefix _ _, ?_, ?_⟩)
    · exact List.cons_ne_nil _ _
    · intro hall
      have hlength := congrArg List.length hall
      rw [List.length_take] at hlength
      have hmatched := matched.isLt
      change min (matched.val + 2) 7 = 7 at hlength
      omega
  | apc => exact .inr (.inr ⟨by decide, by decide, by decide⟩)

/-- The scanner after `text` of which no introducer was part: it is forwarded, except for what is
held. -/
def Reads (text forward : List UInt8) (step : ScanStep) : Prop :=
  ∃ state held released, Holding state held ∧
    step = ⟨⟨state, held, []⟩, forward ++ released, none⟩ ∧ released ++ held = text

/-- A byte that does not go on from what is held is looked at afresh. -/
theorem reads_releaseAndStep (state : PassthroughState) (held forward : List UInt8)
    (byte : UInt8) :
    Reads (held ++ [byte]) forward (releaseAndStep ⟨state, held, []⟩ byte forward) := by
  rw [releaseAndStep, stepGround]
  split
  · next hesc =>
    subst hesc
    exact ⟨_, _, held, .escape, rfl, rfl⟩
  · refine ⟨_, _, held ++ [byte], .ground, ?_, List.append_nil _⟩
    rw [List.append_assoc]

/-- Nothing is released while what is held goes on. -/
theorem reads_held {state state' : PassthroughState} {held : List UInt8} (forward : List UInt8)
    (byte : UInt8) (h : Holding state' (held ++ [byte]))
    (hstep : step ⟨state, held, []⟩ byte forward = ⟨⟨state', held ++ [byte], []⟩, forward, none⟩) :
    Reads (held ++ [byte]) forward (step ⟨state, held, []⟩ byte forward) := by
  refine ⟨_, _, [], h, ?_, rfl⟩
  rw [List.append_nil]
  exact hstep

/-- One more byte of text: it completes an introducer, or the text is forwarded up to what is held
then. -/
theorem step_holding {state : PassthroughState} {held : List UInt8} (h : Holding state held)
    (forward : List UInt8) (byte : UInt8) :
    held ++ [byte] = tmuxIntroducer ∨ held ++ [byte] = kittyIntroducer ∨
      Reads (held ++ [byte]) forward (step ⟨state, held, []⟩ byte forward) := by
  cases h with
  | ground =>
    have hfresh := reads_releaseAndStep .ground [] forward byte
    rw [releaseAndStep, List.append_nil] at hfresh
    exact .inr (.inr hfresh)
  | escape =>
    refine .inr (.inr ?_)
    by_cases hp : byte = 0x50
    · subst hp
      exact reads_held forward _ (.tmux 0) rfl
    · by_cases hapc : byte = 0x5f
      · subst hapc
        exact reads_held forward _ .apc rfl
      · simp only [step, stepEscape, hp, hapc, if_false]
        exact reads_releaseAndStep _ _ _ _
  | tmux matched =>
    by_cases hnext : byte = tmuxPassthroughPrefix matched
    · subst hnext
      -- the four states inside `tmux;`, and the one whose byte ends it
      fin_cases matched
      · exact .inr (.inr (reads_held forward _ (.tmux 1) rfl))
      · exact .inr (.inr (reads_held forward _ (.tmux 2) rfl))
      · exact .inr (.inr (reads_held forward _ (.tmux 3) rfl))
      · exact .inr (.inr (reads_held forward _ (.tmux 4) rfl))
      · exact .inl rfl
    · refine .inr (.inr ?_)
      simp only [step, ne_eq, hnext, not_false_eq_true, if_true]
      exact reads_releaseAndStep _ _ _ _
  | apc =>
    by_cases hnext : byte = 0x47
    · subst hnext
      exact .inr (.inl rfl)
    · refine .inr (.inr ?_)
      simp only [step, ne_eq, hnext, not_false_eq_true, if_true]
      exact reads_releaseAndStep _ _ _ _

/-! ## Ordinary text -/

/-- Text the scanner has no reason to keep anything of. -/
structure Ordinary (text : List UInt8) : Prop where
  noTmux : ¬ tmuxIntroducer <:+: text
  noKitty : ¬ kittyIntroducer <:+: text
  ended : ∀ held, Begins held tmuxIntroducer ∨ Begins held kittyIntroducer → ¬ held <:+ text

/-- Without an `esc` nothing begins. -/
theorem ordinary_of_not_mem (h : esc ∉ text) : Ordinary text where
  noTmux hin := h (hin.subset List.mem_cons_self)
  noKitty hin := h (hin.subset List.mem_cons_self)
  ended held hbegins hsuffix := by
    refine h (hsuffix.subset ?_)
    rcases hbegins with ⟨hbegin, hne, -⟩ | ⟨hbegin, hne, -⟩
    all_goals
      obtain ⟨byte, held, rfl⟩ := List.exists_cons_of_ne_nil hne
      rw [(List.cons_prefix_cons.mp hbegin).1]
      exact List.mem_cons_self

/-- Text without an introducer in it is forwarded up to what is held. -/
theorem feed_text (forward : List UInt8) (htmux : ¬ tmuxIntroducer <:+: text)
    (hkitty : ¬ kittyIntroducer <:+: text) :
    ∃ state held released, Holding state held ∧
      new.feed forward text = ⟨⟨state, held, []⟩, forward ++ released, []⟩ ∧
      released ++ held = text := by
  induction text using List.reverseRecOn with
  | nil =>
    refine ⟨_, _, [], .ground, ?_, rfl⟩
    rw [List.append_nil]
    rfl
  | append_singleton text byte ih =>
    have hpart : ∀ {introducer : List UInt8}, introducer <:+: text →
        introducer <:+: text ++ [byte] := fun h ↦ h.trans (List.infix_append' [] text [byte])
    obtain ⟨state, held, released, hholding, hfeed, htext⟩ :=
      ih (fun h ↦ htmux (hpart h)) (fun h ↦ hkitty (hpart h))
    have hends : held ++ [byte] <:+: text ++ [byte] := by
      rw [← htext, List.append_assoc]
      exact (List.suffix_append _ _).isInfix
    rcases step_holding hholding (forward ++ released) byte with htaken | htaken | hread
    · exact absurd (htaken ▸ hends) htmux
    · exact absurd (htaken ▸ hends) hkitty
    · obtain ⟨state', held', released', hholding', hstep, hheld⟩ := hread
      refine ⟨state', held', released ++ released', hholding', ?_, ?_⟩
      · rw [feed_append_of_eq hfeed, feed_singleton, hstep, ← List.append_assoc]
        rfl
      · rw [List.append_assoc, hheld, ← List.append_assoc, htext]

theorem feed_ordinary (h : Ordinary text) (forward : List UInt8) :
    new.feed forward text = ⟨new, forward ++ text, []⟩ := by
  obtain ⟨state, held, released, hholding, hfeed, htext⟩ :=
    feed_text forward h.noTmux h.noKitty
  rcases hholding.begins with ⟨rfl, rfl⟩ | hbegins
  · rw [List.append_nil] at htext
    rw [hfeed, htext]
    rfl
  · exact absurd (htext ▸ List.suffix_append released held) (h.ended held hbegins)

/-! ## Sequences -/

variable {kind : PassthroughKind}

/-- One more byte of a sequence that still fits. -/
theorem collect_of_lt (held : List UInt8) (byte : UInt8) (h : payload.length < maxPassthroughBytes) :
    collect ⟨.collect kind, held, payload⟩ kind byte =
      ⟨.collect kind, held, payload ++ [byte]⟩ := by
  rw [collect, if_neg (Nat.not_le.mpr h)]

/-- A byte that has no meaning of its own inside a sequence. -/
def Inert (byte : UInt8) : Prop := byte ≠ esc ∧ isAbort byte = false

instance (byte : UInt8) : Decidable (Inert byte) := inferInstanceAs (Decidable (_ ∧ _))

theorem step_collect (held forward : List UInt8) {byte : UInt8} (hbyte : Inert byte)
    (h : payload.length < maxPassthroughBytes) :
    step ⟨.collect kind, held, payload⟩ byte forward =
      ⟨⟨.collect kind, held, payload ++ [byte]⟩, forward, none⟩ := by
  simp only [step, hbyte.1, if_false, hbyte.2, Bool.false_eq_true]
  rw [collect_of_lt held byte h]

/-- The bytes that stand for one byte of a payload: `esc` is doubled. -/
def doubled (byte : UInt8) : List UInt8 := if byte = esc then [esc, esc] else [byte]

/-- Unescaping undoes the doubling, byte by byte. -/
theorem feed_doubled (forward : List UInt8) (hpayload : ∀ byte ∈ payload, isAbort byte = false)
    (collected : List UInt8) (h : collected.length + payload.length ≤ maxPassthroughBytes) :
    feed ⟨.collect .tmux, [], collected⟩ forward (payload.flatMap doubled) =
      ⟨⟨.collect .tmux, [], collected ++ payload⟩, forward, []⟩ := by
  induction payload generalizing collected with
  | nil => rw [List.append_nil]; rfl
  | cons byte payload ih =>
    rw [List.length_cons] at h
    have hroom : collected.length < maxPassthroughBytes := by omega
    have hone : feed ⟨.collect .tmux, [], collected⟩ forward (doubled byte) =
        ⟨⟨.collect .tmux, [], collected ++ [byte]⟩, forward, []⟩ := by
      rw [doubled]
      split
      · next hesc =>
        subst hesc
        have hstep : step ⟨.collectEscape .tmux, [], collected⟩ esc forward =
          ⟨collect ⟨.collect .tmux, [], collected⟩ .tmux esc, forward, none⟩ := rfl
        change feed ⟨.collectEscape .tmux, [], collected⟩ forward [esc] = _
        rw [feed_singleton, hstep, collect_of_lt [] esc hroom]
        rfl
      · next hesc =>
        have hinert : Inert byte := ⟨hesc, hpayload byte List.mem_cons_self⟩
        rw [feed_singleton, step_collect [] forward hinert hroom]
        rfl
    rw [List.flatMap_cons, feed_append_of_eq hone,
      ih (fun b hb ↦ hpayload b (List.mem_cons_of_mem _ hb)) _ (by simp; omega)]
    simp only [List.append_assoc, List.singleton_append, List.nil_append]

theorem feed_inert (kind : PassthroughKind) (forward : List UInt8) (hbody : ∀ byte ∈ body, Inert byte)
    (collected : List UInt8) (h : collected.length + body.length ≤ maxPassthroughBytes) :
    feed ⟨.collect kind, [], collected⟩ forward body =
      ⟨⟨.collect kind, [], collected ++ body⟩, forward, []⟩ := by
  induction body generalizing collected with
  | nil => rw [List.append_nil]; rfl
  | cons byte body ih =>
    rw [List.length_cons] at h
    rw [feed, step_collect [] forward (hbody byte List.mem_cons_self) (by omega)]
    dsimp only
    rw [ih (fun b hb ↦ hbody b (List.mem_cons_of_mem _ hb)) _ (by simp; omega)]
    simp only [List.append_assoc, List.singleton_append, Option.toList_none, List.nil_append]

/-! ## The pieces of an output -/

/-- A piece of what a program prints, as the program means it. -/
inductive Segment where
  | ordinary (text : List UInt8)
  /-- A payload wrapped for tmux. -/
  | tmux (payload : List UInt8)
  /-- A graphics command without the wrapper. -/
  | kitty (body : List UInt8)
  deriving DecidableEq, Repr

namespace Segment

def bytes : Segment → List UInt8
  | ordinary text => text
  | tmux payload => tmuxIntroducer ++ payload.flatMap doubled ++ [esc, backslash]
  | kitty body => kittyIntroducer ++ body ++ [esc, backslash]

/-- What of it is for the backend. -/
def forwarded : Segment → List UInt8
  | ordinary text => text
  | tmux _ => []
  | kitty _ => []

/-- What of it is for the host terminal. -/
def taken : Segment → Option (List UInt8)
  | ordinary _ => none
  | tmux payload => some payload
  | kitty body => some (kittyIntroducer ++ body ++ [esc, backslash])

/-- The pieces that come through. The cap bounds what is collected, which for a graphics command
begins with its introducer. -/
def WellFormed : Segment → Prop
  | ordinary text => Ordinary text
  | tmux payload =>
    (∀ byte ∈ payload, isAbort byte = false) ∧ payload.length ≤ maxPassthroughBytes
  | kitty body =>
    (∀ byte ∈ body, Inert byte) ∧ (kittyIntroducer ++ body).length ≤ maxPassthroughBytes

end Segment

/-- The end of a sequence. -/
theorem feed_terminator (collected forward : List UInt8) :
    feed ⟨.collect kind, [], collected⟩ forward [esc, backslash] =
      ⟨new, forward, [match kind with
        | .tmux => collected
        | .kittyGraphics => collected ++ [esc, backslash]]⟩ := rfl

theorem feed_tmux (forward : List UInt8) (hpayload : ∀ byte ∈ payload, isAbort byte = false)
    (hfits : payload.length ≤ maxPassthroughBytes) :
    new.feed forward (tmuxIntroducer ++ payload.flatMap doubled ++ [esc, backslash]) =
      ⟨new, forward, [payload]⟩ := by
  have hopen : new.feed forward tmuxIntroducer = ⟨⟨.collect .tmux, [], []⟩, forward, []⟩ := rfl
  have hinside := feed_doubled forward hpayload [] (by simpa using hfits)
  rw [List.append_assoc, feed_append_of_eq hopen, feed_append_of_eq hinside, feed_terminator]
  rfl

theorem feed_kitty (forward : List UInt8) (hbody : ∀ byte ∈ body, Inert byte)
    (hfits : (kittyIntroducer ++ body).length ≤ maxPassthroughBytes) :
    new.feed forward (kittyIntroducer ++ body ++ [esc, backslash]) =
      ⟨new, forward, [kittyIntroducer ++ body ++ [esc, backslash]]⟩ := by
  have hopen : new.feed forward kittyIntroducer =
    ⟨⟨.collect .kittyGraphics, [], kittyIntroducer⟩, forward, []⟩ := rfl
  have hinside := feed_inert .kittyGraphics forward hbody kittyIntroducer
    (by rwa [List.length_append] at hfits)
  rw [List.append_assoc, feed_append_of_eq hopen, feed_append_of_eq hinside, feed_terminator]
  rfl

theorem feed_segment {segment : Segment} (h : segment.WellFormed) (forward : List UInt8) :
    new.feed forward segment.bytes =
      ⟨new, forward ++ segment.forwarded, segment.taken.toList⟩ := by
  cases segment with
  | ordinary text => exact feed_ordinary h forward
  | tmux payload =>
    rw [Segment.forwarded, List.append_nil]
    exact feed_tmux forward h.1 h.2
  | kitty body =>
    rw [Segment.forwarded, List.append_nil]
    exact feed_kitty forward h.1 h.2

theorem feed_segments {segments : List Segment} (h : ∀ segment ∈ segments, segment.WellFormed)
    (forward : List UInt8) :
    new.feed forward (segments.flatMap Segment.bytes) =
      ⟨new, forward ++ segments.flatMap Segment.forwarded,
        segments.filterMap Segment.taken⟩ := by
  induction segments generalizing forward with
  | nil => rw [List.flatMap_nil, List.flatMap_nil, List.append_nil]; rfl
  | cons segment segments ih =>
    have hfirst := feed_segment (h segment List.mem_cons_self) forward
    rw [List.flatMap_cons, feed_append_of_eq hfirst,
      ih (fun s hs ↦ h s (List.mem_cons_of_mem _ hs)), List.flatMap_cons, ← List.append_assoc]
    cases htaken : segment.taken with
    | none => rw [List.filterMap_cons_none htaken]; rfl
    | some payload => rw [List.filterMap_cons_some htaken]; rfl

/-- The text reaches the backend and the sequences the host terminal, each in its own order, and
the scanner ends up as it began. -/
theorem separates_segments (segments : List Segment)
    (h : ∀ segment ∈ segments, segment.WellFormed) :
    new.feed [] (segments.flatMap Segment.bytes) =
      ⟨new, segments.flatMap Segment.forwarded, segments.filterMap Segment.taken⟩ :=
  feed_segments h []

/-- A line, a wrapped `ESC [ m` and a graphics command. -/
def sampleSegments : List Segment :=
  [.ordinary [0x6c, 0x73, 0x0a], .tmux [esc, 0x5b, 0x6d], .kitty [0x61, 0x3d, 0x64]]

theorem separates_sampleSegments :
    new.feed [] (sampleSegments.flatMap Segment.bytes) =
      ⟨new, [0x6c, 0x73, 0x0a], [[esc, 0x5b, 0x6d],
        [esc, 0x5f, 0x47, 0x61, 0x3d, 0x64, esc, backslash]]⟩ := by
  refine separates_segments sampleSegments ?_
  simp only [sampleSegments, List.forall_mem_cons, List.not_mem_nil, false_implies, implies_true,
    and_true]
  refine ⟨ordinary_of_not_mem (by decide), ⟨?_, ?_⟩, ⟨?_, ?_⟩⟩
  all_goals simp [Inert, isAbort, esc, can, sub, maxPassthroughBytes, kittyIntroducer]

/-! ## The cap -/

theorem feed_discard (forward : List UInt8) (hbody : ∀ byte ∈ body, Inert byte) :
    feed ⟨.discard kind, [], []⟩ forward body = ⟨⟨.discard kind, [], []⟩, forward, []⟩ := by
  induction body with
  | nil => rfl
  | cons byte body ih =>
    have hbyte := hbody byte List.mem_cons_self
    have hstep : step ⟨.discard kind, [], []⟩ byte forward =
        ⟨⟨.discard kind, [], []⟩, forward, none⟩ := by
      simp only [step, hbyte.1, if_false, hbyte.2, Bool.false_eq_true]
    rw [feed, hstep]
    dsimp only
    rw [ih fun b hb ↦ hbody b (List.mem_cons_of_mem _ hb)]
    rfl

/-- The byte that no longer fits drops what was collected, and the rest goes after it. -/
theorem feed_oversized (kind : PassthroughKind) (forward : List UInt8) (hbody : ∀ byte ∈ body, Inert byte)
    (collected : List UInt8) (hroom : collected.length ≤ maxPassthroughBytes)
    (hover : maxPassthroughBytes < collected.length + body.length) :
    feed ⟨.collect kind, [], collected⟩ forward body =
      ⟨⟨.discard kind, [], []⟩, forward, []⟩ := by
  induction body generalizing collected with
  | nil => exact absurd hover (Nat.not_lt.mpr hroom)
  | cons byte body ih =>
    have hbyte := hbody byte List.mem_cons_self
    have hrest : ∀ b ∈ body, Inert b := fun b hb ↦ hbody b (List.mem_cons_of_mem _ hb)
    rcases Nat.lt_or_ge collected.length maxPassthroughBytes with hlt | hge
    · rw [feed, step_collect [] forward hbyte hlt]
      dsimp only
      rw [List.length_cons] at hover
      rw [ih hrest _ (by simpa using hlt) (by simp; omega)]
      rfl
    · have hstep : step ⟨.collect kind, [], collected⟩ byte forward =
          ⟨⟨.discard kind, [], []⟩, forward, none⟩ := by
        simp only [step, hbyte.1, if_false, hbyte.2, Bool.false_eq_true, collect, ge_iff_le, hge,
          if_true]
      rw [feed, hstep]
      dsimp only
      rw [feed_discard forward hrest]
      rfl

/-- A graphics command over the cap is dropped whole, and the scanner goes on after it. -/
theorem feed_kitty_oversized (forward : List UInt8) (hbody : ∀ byte ∈ body, Inert byte)
    (hover : maxPassthroughBytes < (kittyIntroducer ++ body).length) :
    new.feed forward (kittyIntroducer ++ body ++ [esc, backslash]) = ⟨new, forward, []⟩ := by
  have hopen : new.feed forward kittyIntroducer =
    ⟨⟨.collect .kittyGraphics, [], kittyIntroducer⟩, forward, []⟩ := rfl
  have hinside := feed_oversized .kittyGraphics forward hbody kittyIntroducer
    (by decide) (by rwa [List.length_append] at hover)
  rw [List.append_assoc, feed_append_of_eq hopen, feed_append_of_eq hinside]
  rfl

end PassthroughScanner

end Embers
