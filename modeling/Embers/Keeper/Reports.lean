import Embers.Keeper.Router
import Embers.Lib.ControlStrings

/-!
# Reports between other strings

`Osc7Scanner` and `DcsQueryScanner` follow the control strings of a stream without keeping the ones
that are not for them. What they ought to report is said here with the control strings themselves
(`lastReport`, `queriesOf`), as a terminal delimits them.

Each scanner is in step with the terminal until a *slip*: a step that leaves it outside a string that
has begun, or inside one that is over. An escape that ends one string should begin the next, and at a
slip the scanner forgets it. In a run without slips the reports are the terminal's
(`reports_of_steady`), and after a slip there is always a report that is missed
(`Osc7Scanner.slip_hides`, `DcsQueryScanner.slip_hides`).
-/

namespace Embers

open ControlStrings

/-- Operating system commands: `ESC ]`, up to BEL or `ESC \`. -/
def oscGrammar : Grammar UInt8 where
  escape := esc
  introducer := 0x5d
  closer := backslash
  ends byte := byte = bel
  aborts := isAbort

/-- Device control strings: `ESC P`, up to `ESC \`. -/
def dcsGrammar : Grammar UInt8 where
  escape := esc
  introducer := 0x50
  closer := backslash
  ends _ := false
  aborts := isAbort

theorem oscGrammar_distinct : oscGrammar.Distinct := ⟨by decide, by decide, by decide⟩

theorem dcsGrammar_distinct : dcsGrammar.Distinct := ⟨by decide, by decide, by decide⟩

/-- A command is complete where its body has no mark in it and BEL or `ESC \` follows. -/
theorem osc_completes_iff {text body : List UInt8} {byte : UInt8} :
    (oscGrammar.step (oscGrammar.state .ground text) byte).2 = some body ↔
      (∀ c ∈ body, c ≠ esc ∧ c ≠ bel ∧ isAbort c = false) ∧
        ∃ before, (text = before ++ esc :: 0x5d :: body ∧ byte = bel) ∨
          (text = before ++ esc :: 0x5d :: body ++ [esc] ∧ byte = backslash) := by
  have hplain : ∀ c, oscGrammar.Plain c ↔ c ≠ esc ∧ c ≠ bel ∧ isAbort c = false := by
    simp [Grammar.Plain, oscGrammar]
  rw [Grammar.step_eq_some_iff oscGrammar_distinct]
  simp only [Grammar.Opens, hplain]
  constructor
  · rintro (⟨⟨before, rfl, hbody⟩, -, hend⟩ | ⟨⟨opened, rfl, before, rfl, hbody⟩, hclose⟩)
    · exact ⟨hbody, before, Or.inl ⟨rfl, by simpa [oscGrammar] using hend⟩⟩
    · exact ⟨hbody, before, Or.inr ⟨rfl, hclose⟩⟩
  · rintro ⟨hbody, before, ⟨rfl, rfl⟩ | ⟨rfl, rfl⟩⟩
    · exact Or.inl ⟨⟨before, rfl, hbody⟩, by decide, by decide⟩
    · exact Or.inr ⟨⟨_, rfl, before, rfl, hbody⟩, rfl⟩

/-- A device control string is complete where its body has no mark in it and `ESC \` follows. -/
theorem dcs_completes_iff {text body : List UInt8} {byte : UInt8} :
    (dcsGrammar.step (dcsGrammar.state .ground text) byte).2 = some body ↔
      (∀ c ∈ body, c ≠ esc ∧ isAbort c = false) ∧
        ∃ before, text = before ++ esc :: 0x50 :: body ++ [esc] ∧ byte = backslash := by
  have hplain : ∀ c, dcsGrammar.Plain c ↔ c ≠ esc ∧ isAbort c = false := by
    simp [Grammar.Plain, dcsGrammar]
  rw [Grammar.step_eq_some_iff dcsGrammar_distinct]
  simp only [Grammar.Opens, hplain]
  constructor
  · rintro (⟨-, -, hend⟩ | ⟨⟨opened, rfl, before, rfl, hbody⟩, hclose⟩)
    · cases hend
    · exact ⟨hbody, before, rfl, hclose⟩
  · rintro ⟨hbody, before, rfl, rfl⟩
    exact Or.inr ⟨⟨_, rfl, before, rfl, hbody⟩, rfl⟩

/-! ## What is to be reported -/

/-- What an OSC 7 string has before the host. -/
def osc7Prefix : List UInt8 := "7;file://".toUTF8.data.toList

/-- The directory that the body of a well-formed OSC 7 string names. -/
def osc7Path (body : List UInt8) : Option String :=
  match body.dropPrefix? osc7Prefix with
  | none => none
  | some rest =>
    let path := rest.dropWhile (· ≠ 0x2f)
    if path.isEmpty then none else String.fromUTF8? ⟨(percentDecode path).toArray⟩

/-- The directory named by the last complete and well-formed OSC 7 string. -/
def lastReport (bytes : List UInt8) : Option String :=
  ((oscGrammar.strings .ground bytes).filterMap osc7Path).getLast?

/-- The query that a device control string makes, unless its payload is over the cap: `$q` asks for a
setting and `+q` for capabilities. -/
def dcsQuery : List UInt8 → Option TerminalQuery
  | kind :: final :: payload =>
    if (kind = 0x24 ∨ kind = 0x2b) ∧ final = 0x71 ∧ payload.length ≤ dcsQueryMaxPayload then
      some (if kind = 0x24 then .requestSetting payload else .termcap payload)
    else none
  | _ => none

/-- The queries that complete device control strings make, in order. -/
def queriesOf (bytes : List UInt8) : List TerminalQuery :=
  (dcsGrammar.strings .ground bytes).filterMap dcsQuery

theorem osc7Path_of_dropPrefix? {body rest : List UInt8}
    (h : body.dropPrefix? osc7Prefix = some rest) :
    osc7Path body =
      if (rest.dropWhile (· ≠ 0x2f)).isEmpty then none
      else String.fromUTF8? ⟨(percentDecode (rest.dropWhile (· ≠ 0x2f))).toArray⟩ := by
  simp [osc7Path, h]

theorem osc7Prefix_eq : osc7Prefix = [0x37, 0x3b, 0x66, 0x69, 0x6c, 0x65, 0x3a, 0x2f, 0x2f] := by
  decide

/-- A well-formed OSC 7 string: the prefix, a host, and a path that decodes to a text. -/
theorem osc7Path_eq_some_iff {body : List UInt8} {text : String} :
    osc7Path body = some text ↔
      ∃ host path, body = osc7Prefix ++ (host ++ 0x2f :: path) ∧ 0x2f ∉ host ∧
        String.fromUTF8? ⟨(percentDecode (0x2f :: path)).toArray⟩ = some text := by
  constructor
  · intro h
    cases hbody : body.dropPrefix? osc7Prefix with
    | none => simp [osc7Path, hbody] at h
    | some rest =>
      rw [osc7Path_of_dropPrefix? hbody] at h
      obtain ⟨p, rfl, hp⟩ := List.dropPrefix?_eq_some_iff.1 hbody
      obtain rfl := eq_of_beq hp
      have hsplit : rest.takeWhile (· ≠ 0x2f) ++ rest.dropWhile (· ≠ 0x2f) = rest :=
        List.takeWhile_append_dropWhile
      cases hpath : rest.dropWhile (· ≠ 0x2f) with
      | nil =>
        rw [hpath] at h
        cases h
      | cons slash path =>
        have hslash : slash = 0x2f := by
          have hhead := List.head?_dropWhile_not (· ≠ (0x2f : UInt8)) rest
          rw [hpath] at hhead
          simpa using hhead
        subst hslash
        rw [hpath] at h hsplit
        refine ⟨rest.takeWhile (· ≠ 0x2f), path, by rw [hsplit], ?_, by simpa using h⟩
        intro hmem
        simpa using List.mem_takeWhile_imp hmem
  · rintro ⟨host, path, rfl, hhost, htext⟩
    have hrest : (osc7Prefix ++ (host ++ 0x2f :: path)).dropPrefix? osc7Prefix =
        some (host ++ 0x2f :: path) := List.dropPrefix?_append_of_beq _ (by simp)
    have hpath : (host ++ 0x2f :: path).dropWhile (· ≠ 0x2f) = 0x2f :: path := by
      rw [List.dropWhile_append_of_pos fun byte hbyte ↦ by
        simpa using fun h : byte = 0x2f ↦ hhost (h ▸ hbyte)]
      simp
    rw [osc7Path_of_dropPrefix? hrest, hpath]
    simpa using htext

/-- The marks of control strings can be told apart. -/
theorem marks : esc ≠ bel ∧ bel ≠ esc ∧ esc ≠ 0x5d ∧ (0x5d : UInt8) ≠ esc ∧ backslash ≠ esc ∧
    isAbort esc = false ∧ isAbort backslash = false ∧ esc ≠ backslash := by
  decide

theorem query_marks : esc ≠ 0x50 ∧ (0x50 : UInt8) ≠ esc ∧ isAbort 0x50 = false ∧ esc ≠ 0x24 ∧
    esc ≠ 0x2b ∧ (0x24 : UInt8) ≠ esc ∧ (0x2b : UInt8) ≠ esc ∧ isAbort 0x24 = false ∧
    isAbort 0x2b = false ∧ esc ≠ 0x71 ∧ (0x71 : UInt8) ≠ esc ∧ isAbort 0x71 = false ∧
    (0x50 : UInt8) ≠ backslash := by
  decide

theorem ne_of_isAbort {byte other : UInt8} (h : isAbort byte) (hother : isAbort other = false) :
    byte ≠ other := by
  rintro rfl
  simp [hother] at h

/-! ## Working directories -/

namespace Osc7Scanner

variable {s : Osc7Scanner} {byte : UInt8} {bytes : List UInt8}

/-- The steps after which the scanner is outside a string that has begun, or takes a string that has
been aborted for an open one. -/
def Slips (s : Osc7Scanner) (byte : UInt8) : Prop :=
  (s.state = .collect ∧ isAbort byte) ∨
    ((s.state = .collectEscape ∨ s.state = .skipEscape) ∧ (byte = 0x5d ∨ byte = esc))

/-- The payload of the string grows over the cap. -/
def Overflows (s : Osc7Scanner) (byte : UInt8) : Prop :=
  s.state = .collect ∧ osc7MaxPayload ≤ s.buf.length ∧ byte ≠ bel ∧ byte ≠ esc

instance (s : Osc7Scanner) (byte : UInt8) : Decidable (s.Slips byte) :=
  inferInstanceAs (Decidable (_ ∨ _))

instance (s : Osc7Scanner) (byte : UInt8) : Decidable (s.Overflows byte) :=
  inferInstanceAs (Decidable (_ ∧ _))

/-- A run without slips and without overlong payloads. -/
def Steady (s : Osc7Scanner) : List UInt8 → Prop
  | [] => True
  | byte :: bytes => (¬ s.Slips byte ∧ ¬ s.Overflows byte) ∧ (s.step byte).Steady bytes

instance : (s : Osc7Scanner) → (bytes : List UInt8) → Decidable (s.Steady bytes)
  | _, [] => .isTrue trivial
  | s, byte :: bytes =>
    have : Decidable ((s.step byte).Steady bytes) := instDecidableSteady _ _
    inferInstanceAs (Decidable (_ ∧ _))

/-- No string that begins like this is well formed. -/
def Foreign (body : List UInt8) : Prop := ∀ more, osc7Path (body ++ more) = none

/-- The scanner has followed the stream. After an aborted string it may go on skipping, which an
escape or BEL ends. -/
def InStep (s : Osc7Scanner) : State UInt8 → Prop
  | .ground => s.state = .ground ∨ s.state = .skip
  | .escaped => s.state = .escape ∨ s.state = .skipEscape
  | .inside body => (s.state = .collect ∧ s.buf = body) ∨ (s.state = .skip ∧ Foreign body)
  | .closing body =>
    (s.state = .collectEscape ∧ s.buf = body) ∨ (s.state = .skipEscape ∧ Foreign body)

theorem foreign_singleton (h : byte ≠ 0x37) : Foreign [byte] := by
  intro more
  cases hpath : osc7Path ([byte] ++ more) with
  | none => rfl
  | some text =>
    obtain ⟨host, path, hbody, -, -⟩ := osc7Path_eq_some_iff.1 hpath
    have hhead := congrArg List.head? hbody
    have : osc7Prefix.head? = some 0x37 := by decide
    simp [List.head?_append, this, h] at hhead

theorem Foreign.append {body : List UInt8} (h : Foreign body) (more : List UInt8) :
    Foreign (body ++ more) := by
  intro rest
  rw [List.append_assoc]
  exact h _

theorem Foreign.osc7Path {body : List UInt8} (h : Foreign body) : osc7Path body = none := by
  simpa using h []

/-- What `finish` keeps. -/
theorem finish_cwd (s : Osc7Scanner) : s.finish.cwd = (Embers.osc7Path s.buf).or s.cwd := by
  unfold finish Embers.osc7Path
  change (match s.buf.dropPrefix? osc7Prefix with | none => s | some rest => _).cwd = _
  cases s.buf.dropPrefix? osc7Prefix with
  | none => rfl
  | some rest =>
    dsimp only
    generalize rest.dropWhile (· ≠ 0x2f) = path
    by_cases hpath : path.isEmpty
    · rw [if_pos hpath, if_pos hpath]
      rfl
    · rw [if_neg hpath, if_neg hpath]
      cases String.fromUTF8? ⟨(percentDecode path).toArray⟩ <;> rfl

/-- What a step keeps is what the terminal reads of the same byte. -/
def Follows (s : Osc7Scanner) (byte : UInt8) (read : State UInt8 × Option (List UInt8)) : Prop :=
  (s.step byte).InStep read.1 ∧ (s.step byte).cwd = (read.2.bind Embers.osc7Path).or s.cwd

theorem follows_ground (h : s.InStep .ground) :
    s.Follows byte (oscGrammar.step .ground byte) := by
  obtain h | h := h
  · by_cases hesc : byte = esc <;> simp [Follows, Grammar.step, oscGrammar, step, InStep, h, hesc]
  · by_cases hbel : byte = bel
    · simp [Follows, Grammar.step, oscGrammar, step, InStep, h, hbel, marks]
    · by_cases hesc : byte = esc <;>
        simp [Follows, Grammar.step, oscGrammar, step, InStep, h, hbel, hesc, marks]

theorem follows_escaped (h : s.InStep .escaped) (hslip : ¬ s.Slips byte) :
    s.Follows byte (oscGrammar.step .escaped byte) := by
  obtain h | h := h
  · by_cases hintro : byte = 0x5d
    · simp [Follows, Grammar.step, Grammar.afterEscape, oscGrammar, step, InStep, h, hintro, marks]
    · by_cases hesc : byte = esc
      · simp [Follows, Grammar.step, Grammar.afterEscape, oscGrammar, step, InStep, h, hesc, marks]
      · simp [Follows, Grammar.step, Grammar.afterEscape, oscGrammar, step, InStep, h, hesc, hintro]
  · have hnext : ¬ byte = 0x5d ∧ ¬ byte = esc := by simpa [Slips, h] using hslip
    simp [Follows, Grammar.step, Grammar.afterEscape, oscGrammar, step, InStep, h, hnext]

theorem follows_inside {body : List UInt8} (h : s.InStep (.inside body)) (hslip : ¬ s.Slips byte)
    (hover : ¬ s.Overflows byte) : s.Follows byte (oscGrammar.step (.inside body) byte) := by
  by_cases hesc : byte = esc
  · obtain ⟨h, hbody⟩ | ⟨h, hbody⟩ := h <;>
      simp [Follows, Grammar.step, oscGrammar, step, InStep, h, hbody, hesc, marks]
  by_cases hbel : byte = bel
  · obtain ⟨h, rfl⟩ | ⟨h, hbody⟩ := h
    · simp [Follows, Grammar.step, oscGrammar, step, InStep, h, hbel, marks, finish_cwd]
    · simp [Follows, Grammar.step, oscGrammar, step, InStep, h, hbel, marks, hbody.osc7Path]
  obtain ⟨h, rfl⟩ | ⟨h, hbody⟩ := h
  · have habort : isAbort byte = false := by simpa [Slips, h] using hslip
    have hroom : s.buf.length < osc7MaxPayload := by simpa [Overflows, h, hesc, hbel] using hover
    have hread : oscGrammar.step (.inside s.buf) byte = (.inside (s.buf ++ [byte]), none) :=
      Grammar.step_inside_plain ⟨hesc, by simpa [oscGrammar] using hbel, habort⟩
    rw [hread]
    by_cases hforeign : s.buf.isEmpty ∧ byte ≠ 0x37
    · have hbuf : s.buf = [] := by simpa using hforeign.1
      simpa [Follows, step, InStep, h, hesc, hbel, hforeign.2, hbuf] using
        foreign_singleton hforeign.2
    · have hstep : s.step byte = { s with buf := s.buf ++ [byte] } := by
        simp only [step, h, hbel, hesc, if_false]
        exact if_neg (by rintro (h | h); exacts [hforeign h, absurd hroom (by omega)])
      simp [Follows, hstep, InStep, h]
  · have hstep : s.step byte = s := by simp [step, h, hesc, hbel]
    by_cases habort : isAbort byte
    · simp [Follows, Grammar.step, oscGrammar, InStep, h, hesc, hbel, hstep, habort]
    · simpa [Follows, Grammar.step, oscGrammar, InStep, h, hesc, hbel, hstep, habort] using
        hbody.append [byte]

theorem follows_closing {body : List UInt8} (h : s.InStep (.closing body))
    (hslip : ¬ s.Slips byte) : s.Follows byte (oscGrammar.step (.closing body) byte) := by
  by_cases hclose : byte = backslash
  · obtain ⟨h, rfl⟩ | ⟨h, hbody⟩ := h
    · simp [Follows, Grammar.step, oscGrammar, step, InStep, h, hclose, finish_cwd]
    · simp [Follows, Grammar.step, oscGrammar, step, InStep, h, hclose, hbody.osc7Path]
  · have hnext : ¬ byte = 0x5d ∧ ¬ byte = esc := by
      obtain ⟨h, -⟩ | ⟨h, -⟩ := h <;> simpa [Slips, h] using hslip
    obtain ⟨h, -⟩ | ⟨h, -⟩ := h <;>
      simp [Follows, Grammar.step, Grammar.afterEscape, oscGrammar, step, InStep, h, hclose, hnext]

/-- A step that is no slip. -/
theorem follows_step {t : State UInt8} (h : s.InStep t) (hslip : ¬ s.Slips byte)
    (hover : ¬ s.Overflows byte) : s.Follows byte (oscGrammar.step t byte) := by
  cases t with
  | ground => exact follows_ground h
  | escaped => exact follows_escaped h hslip
  | inside body => exact follows_inside h hslip hover
  | closing body => exact follows_closing h hslip

theorem Steady.of_append {more : List UInt8} (h : s.Steady (bytes ++ more)) : s.Steady bytes := by
  induction bytes generalizing s with
  | nil => trivial
  | cons byte bytes ih => exact ⟨h.1, ih h.2⟩

/-- A steady run stays in step, and keeps the last report. -/
theorem feed_of_steady {t : State UInt8} (hsteady : s.Steady bytes) (h : s.InStep t) :
    (s.feed bytes).InStep (oscGrammar.state t bytes) ∧
      (s.feed bytes).cwd =
        ((oscGrammar.strings t bytes).filterMap Embers.osc7Path).getLast?.or s.cwd := by
  induction bytes generalizing s t with
  | nil => exact ⟨h, rfl⟩
  | cons byte bytes ih =>
    obtain ⟨⟨hslip, hover⟩, hsteady⟩ := hsteady
    obtain ⟨hstep, hcwd⟩ := follows_step h hslip hover
    obtain ⟨hrest, hlast⟩ := ih hsteady hstep
    refine ⟨hrest, ?_⟩
    change ((s.step byte).feed bytes).cwd = _
    rw [hlast, hcwd, Grammar.strings, List.filterMap_append, List.getLast?_append, Option.or_assoc]
    cases (oscGrammar.step t byte).2 with
    | none => rfl
    | some body => cases hpath : Embers.osc7Path body <;> simp [hpath]

/-- Ordinary bytes outside a string are passed over. -/
theorem feed_ground (h : s.state = .ground) (hbytes : esc ∉ bytes) : s.feed bytes = s := by
  induction bytes with
  | nil => rfl
  | cons byte bytes ih =>
    simp only [List.mem_cons, not_or] at hbytes
    have hstep : s.step byte = s := by simp [step, h, Ne.symm hbytes.1]
    change (s.step byte).feed bytes = s
    rw [hstep]
    exact ih hbytes.2

/-- The body of the report of a directory `/a` or `/b`. -/
def reportOf (name : UInt8) : List UInt8 := osc7Prefix ++ [0x2f, name]

theorem osc7Path_reportOf_ne (cwd : Option String) :
    ∃ name ∈ [(0x61 : UInt8), 0x62], osc7Path (reportOf name) ≠ none ∧
      osc7Path (reportOf name) ≠ cwd := by
  have ha : osc7Path (reportOf 0x61) = some "/a" := by rfl
  have hb : osc7Path (reportOf 0x62) = some "/b" := by rfl
  by_cases hcwd : cwd = some "/a"
  · exact ⟨0x62, by simp, by simp [hb], by simp [hb, hcwd]⟩
  · exact ⟨0x61, by simp, by simp [ha], by rw [ha]; exact Ne.symm hcwd⟩

/-- An escape leaves the string that is open, and the introducer after it is lost. -/
theorem feed_introducer (h : s.state = .collect ∨ s.state = .skip) :
    (s.feed [esc, 0x5d]).state = .ground ∧ (s.feed [esc, 0x5d]).cwd = s.cwd := by
  obtain h | h := h <;>
    simp [feed, step, h, marks, show (0x5d : UInt8) ≠ backslash by decide]

/-- An aborting byte does not end the string for the scanner. -/
theorem step_abort (h : s.state = .collect) (habort : isAbort byte) :
    ((s.step byte).state = .collect ∨ (s.step byte).state = .skip) ∧ (s.step byte).cwd = s.cwd := by
  have hesc : byte ≠ esc := ne_of_isAbort habort (by decide)
  have hbel : byte ≠ bel := ne_of_isAbort habort (by decide)
  simp only [step, h, hesc, hbel, if_false]
  split <;> simp

/-- The scanner forgets an escape that has ended a string. -/
theorem lost_of_escape {t : State UInt8} (h : s.state = .collectEscape ∨ s.state = .skipEscape)
    (hread : oscGrammar.step t 0x5d = (.inside [], none) ∧
      oscGrammar.step t esc = (.escaped, none))
    (hbyte : byte = 0x5d ∨ byte = esc) :
    ∃ between, (s.feed (byte :: between)).state = .ground ∧
      (s.feed (byte :: between)).cwd = s.cwd ∧
      oscGrammar.state t (byte :: between) = .inside [] ∧
      oscGrammar.strings t (byte :: between) = [] := by
  have hintro : (0x5d : UInt8) ≠ backslash := by decide
  obtain rfl | rfl := hbyte
  · refine ⟨[], ?_⟩
    obtain h | h := h <;> simp [feed, step, h, hintro, Grammar.strings, hread.1]
  · refine ⟨[0x5d], ?_⟩
    have hescaped : oscGrammar.step .escaped 0x5d = (.inside [], none) := by
      simp [Grammar.step, Grammar.afterEscape, oscGrammar, marks]
    obtain h | h := h <;> simp [feed, step, h, marks, Grammar.strings, hread.2, hescaped]

/-- After a slip the scanner can be outside all strings while the terminal is inside one. -/
theorem lost_of_slips {t : State UInt8} (h : s.InStep t) (hslip : s.Slips byte) :
    ∃ between, (s.feed (byte :: between)).state = .ground ∧
      (s.feed (byte :: between)).cwd = s.cwd ∧
      oscGrammar.state t (byte :: between) = .inside [] ∧
      oscGrammar.strings t (byte :: between) = [] := by
  have hintro : (0x5d : UInt8) ≠ backslash := by decide
  cases t with
  | ground => obtain h | h := h <;> simp [Slips, h] at hslip
  | escaped =>
    obtain h | h := h
    · simp [Slips, h] at hslip
    · refine lost_of_escape (.inr h) ?_ (by simpa [Slips, h] using hslip)
      simp [Grammar.step, Grammar.afterEscape, oscGrammar, marks]
  | inside body =>
    obtain ⟨h, -⟩ | ⟨h, -⟩ := h
    · have habort : isAbort byte := by simpa [Slips, h] using hslip
      obtain ⟨hstate, hcwd⟩ := step_abort h habort
      obtain ⟨hground, hkept⟩ := feed_introducer hstate
      have hesc : byte ≠ esc := ne_of_isAbort habort (by decide)
      have hbel : byte ≠ bel := ne_of_isAbort habort (by decide)
      refine ⟨[esc, 0x5d], hground, hkept.trans hcwd, ?_⟩
      simp [Grammar.step, Grammar.strings, Grammar.afterEscape, oscGrammar, hesc, hbel, habort,
        marks]
    · simp [Slips, h] at hslip
  | closing body =>
    have hread : oscGrammar.step (.closing body) 0x5d = (.inside [], none) ∧
        oscGrammar.step (.closing body) esc = (.escaped, none) := by
      simp [Grammar.step, Grammar.afterEscape, oscGrammar, marks, hintro]
    obtain ⟨h, -⟩ | ⟨h, -⟩ := h
    · exact lost_of_escape (.inl h) hread (by simpa [Slips, h] using hslip)
    · exact lost_of_escape (.inr h) hread (by simpa [Slips, h] using hslip)

theorem plain_reportOf {name : UInt8} (hname : name ∈ [(0x61 : UInt8), 0x62]) :
    ∀ byte ∈ reportOf name, oscGrammar.Plain byte := by
  have hplain : ∀ byte ∈ osc7Prefix ++ [0x2f, 0x61, 0x62], oscGrammar.Plain byte := by
    rw [osc7Prefix_eq]
    simp only [List.cons_append, List.nil_append, List.forall_mem_cons, List.not_mem_nil,
      false_imp_iff, implies_true, and_true, Grammar.Plain]
    decide
  intro byte hbyte
  refine hplain byte ?_
  simp only [reportOf, List.mem_append, List.mem_cons, List.not_mem_nil, or_false] at hbyte hname ⊢
  obtain hbyte | rfl | rfl := hbyte
  · exact Or.inl hbyte
  · exact Or.inr (Or.inl rfl)
  · exact Or.inr (Or.inr hname)

/-- **A slip hides a report**: there is one that the scanner misses after it. -/
theorem slip_hides {t : State UInt8} (h : s.InStep t) (hslip : s.Slips byte) :
    ∃ more, (s.feed (byte :: more)).cwd ≠
      ((oscGrammar.strings t (byte :: more)).filterMap Embers.osc7Path).getLast?.or s.cwd := by
  obtain ⟨between, hground, hcwd, hinside, hnone⟩ := lost_of_slips h hslip
  obtain ⟨name, hname, hpath, hne⟩ := osc7Path_reportOf_ne s.cwd
  have hplain := plain_reportOf hname
  have hordinary : esc ∉ reportOf name ++ [bel] := by
    simp only [List.mem_append, List.mem_singleton, not_or]
    exact ⟨fun hmem ↦ (hplain esc hmem).1 rfl, by decide⟩
  have hread := @Grammar.read_plain _ _ oscGrammar _ [] hplain
  -- the scanner passes over the report
  have hmissed : (s.feed (byte :: (between ++ (reportOf name ++ [bel])))).cwd = s.cwd := by
    rw [← List.cons_append, feed, List.foldl_append]
    exact (congrArg cwd (feed_ground hground hordinary)).trans hcwd
  -- the terminal reads it
  have hheard : oscGrammar.strings t (byte :: (between ++ (reportOf name ++ [bel]))) =
      [reportOf name] := by
    rw [← List.cons_append, Grammar.strings_append, hnone, hinside, Grammar.strings_append, hread.1,
      hread.2]
    rfl
  refine ⟨between ++ (reportOf name ++ [bel]), ?_⟩
  rw [hmissed, hheard]
  obtain ⟨text, htext⟩ := Option.ne_none_iff_exists'.1 hpath
  simpa [htext, eq_comm] using hne

end Osc7Scanner

/-! ## Queries -/

namespace DcsQueryScanner

variable {s : DcsQueryScanner} {byte : UInt8} {bytes body : List UInt8}

def feed (s : DcsQueryScanner) (bytes : List UInt8) : DcsQueryScanner :=
  bytes.foldl (fun s byte ↦ (s.step byte).1) s

/-- The queries that are reported while the bytes are read. -/
def reports (s : DcsQueryScanner) : List UInt8 → List TerminalQuery
  | [] => []
  | byte :: bytes => (s.step byte).2.toList ++ reports (s.step byte).1 bytes

/-- The steps after which the scanner is outside a string that has begun, or goes on skipping one
that has been cut short. -/
def Slips (s : DcsQueryScanner) (byte : UInt8) : Prop :=
  (s.state = .collectEscape ∧ byte = 0x50) ∨
    (s.state = .skipEscape ∧ byte ≠ backslash ∧ byte ≠ esc ∧ isAbort byte = false)

instance (s : DcsQueryScanner) (byte : UInt8) : Decidable (s.Slips byte) :=
  inferInstanceAs (Decidable (_ ∨ _))

/-- A run without slips. -/
def Steady (s : DcsQueryScanner) : List UInt8 → Prop
  | [] => True
  | byte :: bytes => ¬ s.Slips byte ∧ (s.step byte).1.Steady bytes

instance : (s : DcsQueryScanner) → (bytes : List UInt8) → Decidable (s.Steady bytes)
  | _, [] => .isTrue trivial
  | s, byte :: bytes =>
    have : Decidable ((s.step byte).1.Steady bytes) := instDecidableSteady _ _
    inferInstanceAs (Decidable (_ ∧ _))

/-- No string that begins like this is a query. -/
def Foreign (body : List UInt8) : Prop := ∀ more, dcsQuery (body ++ more) = none

/-- The scanner is collecting the payload of a query. -/
structure Collects (s : DcsQueryScanner) (body : List UInt8) : Prop where
  body_eq : body = s.kind :: 0x71 :: s.buf
  kind : s.kind = 0x24 ∨ s.kind = 0x2b
  room : s.buf.length ≤ dcsQueryMaxPayload

/-- The scanner has followed the stream. -/
def InStep (s : DcsQueryScanner) : State UInt8 → Prop
  | .ground => s.state = .ground
  | .escaped => s.state = .escape ∨ s.state = .skipEscape
  | .inside body =>
    (s.state = .entry ∧ body = []) ∨
      (s.state = .final ∧ body = [s.kind] ∧ (s.kind = 0x24 ∨ s.kind = 0x2b)) ∨
      (s.state = .collect ∧ s.Collects body) ∨ (s.state = .skip ∧ Foreign body)
  | .closing body =>
    (s.state = .collectEscape ∧ s.Collects body) ∨ (s.state = .skipEscape ∧ dcsQuery body = none)

theorem Collects.dcsQuery (h : s.Collects body) :
    Embers.dcsQuery body =
      some (if s.kind = 0x24 then .requestSetting s.buf else .termcap s.buf) := by
  rw [h.body_eq]
  exact if_pos ⟨h.kind, rfl, h.room⟩

theorem foreign_kind (h : byte ≠ 0x24 ∧ byte ≠ 0x2b) : Foreign [byte] := by
  intro more
  cases more with
  | nil => rfl
  | cons final payload => simp [dcsQuery, h]

theorem foreign_final {kind : UInt8} (h : byte ≠ 0x71) : Foreign [kind, byte] := by
  intro more
  simp [dcsQuery, h]

theorem foreign_overlong (h : s.Collects body) (hfull : dcsQueryMaxPayload ≤ s.buf.length) :
    Foreign (body ++ [byte]) := by
  intro more
  rw [h.body_eq]
  refine if_neg fun hquery ↦ ?_
  have := hquery.2.2
  simp at this
  omega

theorem Foreign.append (h : Foreign body) (more : List UInt8) : Foreign (body ++ more) := by
  intro rest
  rw [List.append_assoc]
  exact h _

theorem Foreign.dcsQuery (h : Foreign body) : Embers.dcsQuery body = none := by
  simpa using h []

/-- What a step reports is what the terminal reads of the same byte. -/
def Follows (s : DcsQueryScanner) (byte : UInt8) (read : State UInt8 × Option (List UInt8)) :
    Prop :=
  (s.step byte).1.InStep read.1 ∧ (s.step byte).2 = read.2.bind Embers.dcsQuery

/-- CAN and SUB take both to where no string is open. -/
theorem follows_abort (t : State UInt8) (h : isAbort byte) :
    s.Follows byte (dcsGrammar.step t byte) := by
  have hesc : byte ≠ esc := ne_of_isAbort h (by decide)
  have hintro : byte ≠ 0x50 := ne_of_isAbort h (by decide)
  have hclose : byte ≠ backslash := ne_of_isAbort h (by decide)
  cases t <;>
    simp [Follows, Grammar.step, Grammar.afterEscape, dcsGrammar, step, InStep, h, hesc, hintro,
      hclose]

theorem follows_ground (h : s.InStep .ground) (habort : isAbort byte = false) :
    s.Follows byte (dcsGrammar.step .ground byte) := by
  have h : s.state = .ground := h
  by_cases hesc : byte = esc
  · simp [Follows, Grammar.step, dcsGrammar, step, InStep, h, hesc, marks]
  · simp [Follows, Grammar.step, dcsGrammar, step, InStep, h, habort, hesc]

/-- In a string that is not a query, an escape leads to `skipEscape`; there only what closes the
string, or another escape, is no slip. -/
theorem not_slips_skipEscape (h : s.state = .skipEscape) (habort : isAbort byte = false)
    (hslip : ¬ s.Slips byte) : byte = backslash ∨ byte = esc := by
  by_contra hne
  obtain ⟨hclose, hesc⟩ := not_or.1 hne
  exact hslip (Or.inr ⟨h, hclose, hesc, habort⟩)

theorem follows_escaped (h : s.InStep .escaped) (habort : isAbort byte = false)
    (hslip : ¬ s.Slips byte) : s.Follows byte (dcsGrammar.step .escaped byte) := by
  obtain h | h := h
  · by_cases hintro : byte = 0x50
    · simp [Follows, Grammar.step, Grammar.afterEscape, dcsGrammar, step, InStep, h, hintro,
        query_marks]
    · by_cases hesc : byte = esc
      · simp [Follows, Grammar.step, Grammar.afterEscape, dcsGrammar, step, InStep, h, hesc, marks,
          query_marks]
      · simp [Follows, Grammar.step, Grammar.afterEscape, dcsGrammar, step, InStep, h, habort, hesc,
          hintro]
  · obtain rfl | rfl := not_slips_skipEscape h habort hslip
    · have : backslash ≠ 0x50 := by decide
      simp [Follows, Grammar.step, Grammar.afterEscape, dcsGrammar, step, InStep, h, marks, this]
    · simp [Follows, Grammar.step, Grammar.afterEscape, dcsGrammar, step, InStep, h, marks]

theorem follows_inside_esc (h : s.InStep (.inside body)) :
    s.Follows esc (dcsGrammar.step (.inside body) esc) := by
  obtain ⟨h, rfl⟩ | ⟨h, rfl, -⟩ | ⟨h, hbody⟩ | ⟨h, hbody⟩ := h
  · simp [Follows, Grammar.step, dcsGrammar, step, InStep, h, marks, query_marks, dcsQuery]
  · simp [Follows, Grammar.step, dcsGrammar, step, InStep, h, marks, query_marks, dcsQuery]
  · have : ({ s with state := .collectEscape } : DcsQueryScanner).Collects body :=
      ⟨hbody.body_eq, hbody.kind, hbody.room⟩
    simp [Follows, Grammar.step, dcsGrammar, step, InStep, h, marks, this]
  · simp [Follows, Grammar.step, dcsGrammar, step, InStep, h, marks, hbody.dcsQuery]

theorem follows_inside (h : s.InStep (.inside body)) (habort : isAbort byte = false) :
    s.Follows byte (dcsGrammar.step (.inside body) byte) := by
  by_cases hesc : byte = esc
  · exact hesc ▸ follows_inside_esc h
  have hread : dcsGrammar.step (.inside body) byte = (.inside (body ++ [byte]), none) :=
    Grammar.step_inside_plain ⟨hesc, rfl, habort⟩
  rw [hread]
  obtain ⟨h, rfl⟩ | ⟨h, rfl, hkind⟩ | ⟨h, hbody⟩ | ⟨h, hbody⟩ := h
  · by_cases hbyte : byte = 0x24 ∨ byte = 0x2b
    · simp [Follows, step, InStep, h, habort, hbyte]
    · have hforeign := foreign_kind (not_or.1 hbyte)
      simp [Follows, step, InStep, h, habort, hesc, hbyte, hforeign]
  · by_cases hfinal : byte = 0x71
    · have : ({ s with buf := [], state := .collect } : DcsQueryScanner).Collects [s.kind, 0x71] :=
        ⟨rfl, hkind, by simp⟩
      simp [Follows, step, InStep, h, hfinal, query_marks, this]
    · have hforeign := @foreign_final byte s.kind hfinal
      simp [Follows, step, InStep, h, habort, hesc, hfinal, hforeign]
  · by_cases hfull : dcsQueryMaxPayload ≤ s.buf.length
    · have hforeign := @foreign_overlong _ byte _ hbody hfull
      simp [Follows, step, InStep, h, habort, hesc, hfull, hforeign]
    · have : (⟨.collect, s.kind, s.buf ++ [byte]⟩ : DcsQueryScanner).Collects (body ++ [byte]) :=
        ⟨by simp [hbody.body_eq], hbody.kind, by simp; omega⟩
      simp [Follows, step, InStep, h, habort, hesc, hfull, this]
  · simp [Follows, step, InStep, h, habort, hesc, hbody.append [byte]]

theorem follows_closing (h : s.InStep (.closing body)) (habort : isAbort byte = false)
    (hslip : ¬ s.Slips byte) : s.Follows byte (dcsGrammar.step (.closing body) byte) := by
  obtain ⟨h, hbody⟩ | ⟨h, hbody⟩ := h
  · have hintro : byte ≠ 0x50 := by simpa [Slips, h] using hslip
    by_cases hclose : byte = backslash
    · simp [Follows, Grammar.step, dcsGrammar, step, InStep, h, hclose, marks, hbody.dcsQuery]
    · by_cases hesc : byte = esc
      · simp [Follows, Grammar.step, Grammar.afterEscape, dcsGrammar, step, InStep, h, hesc, marks]
      · simp [Follows, Grammar.step, Grammar.afterEscape, dcsGrammar, step, InStep, h, habort,
          hclose, hesc, hintro]
  · obtain rfl | rfl := not_slips_skipEscape h habort hslip
    · simp [Follows, Grammar.step, dcsGrammar, step, InStep, h, marks, hbody]
    · simp [Follows, Grammar.step, Grammar.afterEscape, dcsGrammar, step, InStep, h, marks]

theorem follows_step {t : State UInt8} (h : s.InStep t) (hslip : ¬ s.Slips byte) :
    s.Follows byte (dcsGrammar.step t byte) := by
  cases habort : isAbort byte with
  | true => exact follows_abort t habort
  | false =>
    cases t with
    | ground => exact follows_ground h habort
    | escaped => exact follows_escaped h habort hslip
    | inside body => exact follows_inside h habort
    | closing body => exact follows_closing h habort hslip

theorem Steady.of_append {more : List UInt8} (h : s.Steady (bytes ++ more)) : s.Steady bytes := by
  induction bytes generalizing s with
  | nil => trivial
  | cons byte bytes ih => exact ⟨h.1, ih h.2⟩

/-- A steady run stays in step, and reports each query. -/
theorem feed_of_steady {t : State UInt8} (hsteady : s.Steady bytes) (h : s.InStep t) :
    (s.feed bytes).InStep (dcsGrammar.state t bytes) ∧
      s.reports bytes = (dcsGrammar.strings t bytes).filterMap Embers.dcsQuery := by
  induction bytes generalizing s t with
  | nil => exact ⟨h, rfl⟩
  | cons byte bytes ih =>
    obtain ⟨hslip, hsteady⟩ := hsteady
    obtain ⟨hstep, hquery⟩ := follows_step h hslip
    obtain ⟨hrest, hqueries⟩ := ih hsteady hstep
    refine ⟨hrest, ?_⟩
    rw [reports, hqueries, hquery, Grammar.strings, List.filterMap_append]
    cases (dcsGrammar.step t byte).2 with
    | none => rfl
    | some body => cases hbody : Embers.dcsQuery body <;> simp [hbody]

theorem reports_append (s : DcsQueryScanner) (xs ys : List UInt8) :
    s.reports (xs ++ ys) = s.reports xs ++ (s.feed xs).reports ys := by
  induction xs generalizing s with
  | nil => rfl
  | cons byte xs ih => simp [reports, feed, ih]

/-- The rest of a query for a setting, once its `ESC P` has been read. -/
def settingRest : List UInt8 := [0x24, 0x71, 0x6d, esc, backslash]

theorem reports_settingRest (h : s.state = .ground ∨ s.state = .skip) :
    s.reports settingRest = [] := by
  obtain ⟨state, kind, buf⟩ := s
  obtain rfl | rfl : state = .ground ∨ state = .skip := h <;> rfl

/-- A string that begins inside one that is skipped is skipped with it. -/
theorem skip_introducer (h : s.state = .skip) :
    (s.feed [esc, 0x50]).state = .skip ∧ s.reports [esc, 0x50] = [] := by
  simp [feed, reports, step, h, marks, query_marks]

/-- After a slip the scanner can have no query at hand while the terminal is inside a string. -/
theorem lost_of_slips {t : State UInt8} (h : s.InStep t) (hslip : s.Slips byte) :
    ∃ between,
      ((s.feed (byte :: between)).state = .ground ∨ (s.feed (byte :: between)).state = .skip) ∧
      s.reports (byte :: between) = [] ∧
      dcsGrammar.state t (byte :: between) = .inside [] ∧
      dcsGrammar.strings t (byte :: between) = [] := by
  by_cases hs : s.state = .collectEscape
  · obtain rfl : byte = 0x50 := by simpa [Slips, hs] using hslip
    refine ⟨[], ?_⟩
    cases t with
    | ground => simp [InStep, hs] at h
    | escaped => simp [InStep, hs] at h
    | inside body => simp [InStep, hs] at h
    | closing body =>
      simp [feed, reports, step, hs, Grammar.step, Grammar.strings, Grammar.afterEscape, dcsGrammar,
        query_marks]
  · have hs : s.state = .skipEscape := by
      cases hstate : s.state with
      | skipEscape => rfl
      | collectEscape => exact absurd hstate hs
      | _ => simp [Slips, hstate] at hslip
    obtain ⟨hclose, hesc, habort⟩ : byte ≠ backslash ∧ byte ≠ esc ∧ isAbort byte = false := by
      simpa [Slips, hs] using hslip
    refine ⟨[esc, 0x50], ?_⟩
    -- the terminal is outside all strings, or in one that `byte` has begun
    have hread : (dcsGrammar.step t byte).2 = none ∧
        ((dcsGrammar.step t byte).1 = .ground ∨ (dcsGrammar.step t byte).1 = .inside []) := by
      cases t with
      | ground => simp [InStep, hs] at h
      | inside body => simp [InStep, hs] at h
      | escaped =>
        by_cases hp : byte = 0x50 <;>
          simp [Grammar.step, Grammar.afterEscape, dcsGrammar, hesc, hp, query_marks]
      | closing body =>
        by_cases hp : byte = 0x50 <;>
          simp [Grammar.step, Grammar.afterEscape, dcsGrammar, hesc, hclose, hp, query_marks]
    have hskips : s.step byte = ({ s with state := .skip }, none) := by
      simp [step, hs, hclose, hesc, habort]
    have hskipped := skip_introducer (s := { s with state := .skip }) rfl
    refine ⟨Or.inr ?_, ?_, ?_, ?_⟩
    · change ((s.step byte).1.feed [esc, 0x50]).state = .skip
      rw [hskips]
      exact hskipped.1
    · rw [reports, hskips, hskipped.2]
      rfl
    · exact Grammar.state_escape_introducer dcsGrammar_distinct
    · rw [Grammar.strings, hread.1]
      obtain hread | hread := hread.2 <;> rw [hread] <;> decide

/-- **A slip hides a query**: there is one that the scanner misses after it. -/
theorem slip_hides {t : State UInt8} (h : s.InStep t) (hslip : s.Slips byte) :
    ∃ more, s.reports (byte :: more) ≠
      (dcsGrammar.strings t (byte :: more)).filterMap Embers.dcsQuery := by
  obtain ⟨between, hstate, hnone, hinside, hstrings⟩ := lost_of_slips h hslip
  refine ⟨between ++ settingRest, ?_⟩
  rw [← List.cons_append, reports_append, hnone, reports_settingRest hstate,
    Grammar.strings_append, hstrings, hinside]
  decide

end DcsQueryScanner

/-! ## The reports of a stream -/

/-- **Reports between other strings.** In every state of a steady run the working directory is the
one that the last complete OSC 7 string names, and the queries reported are the complete ones in
their order. -/
theorem reports_of_steady (bytes : List UInt8) :
    (Osc7Scanner.new.Steady bytes → ∀ before, before <+: bytes →
      (Osc7Scanner.new.feed before).cwd = lastReport before) ∧
    (DcsQueryScanner.new.Steady bytes → ∀ before, before <+: bytes →
      DcsQueryScanner.new.reports before = queriesOf before) := by
  constructor
  · rintro hsteady before ⟨more, rfl⟩
    have hstart : Osc7Scanner.new.InStep .ground := Or.inl rfl
    simpa [Osc7Scanner.new, lastReport] using
      (Osc7Scanner.feed_of_steady hsteady.of_append hstart).2
  · rintro hsteady before ⟨more, rfl⟩
    have hstart : DcsQueryScanner.new.InStep .ground := rfl
    exact (DcsQueryScanner.feed_of_steady hsteady.of_append hstart).2

/-- The title `ESC ] 0 ; t BEL`, and `ESC ] 7 ; file:///a BEL` after it. -/
def titledDirectory : List UInt8 :=
  [esc, 0x5d, 0x30, 0x3b, 0x74, bel, esc, 0x5d] ++ osc7Prefix ++ [0x2f, 0x61, bel]

/-- The picture `ESC P q ESC \`, and the query `ESC P $ q m ESC \` after it. -/
def picturedQuery : List UInt8 :=
  [esc, 0x50, 0x71, esc, backslash, esc, 0x50, 0x24, 0x71, 0x6d, esc, backslash]

theorem reports_of_steady_samples :
    ((Osc7Scanner.new.feed titledDirectory).cwd = lastReport titledDirectory ∧
        lastReport titledDirectory = some "/a") ∧
      DcsQueryScanner.new.reports picturedQuery = queriesOf picturedQuery ∧
        queriesOf picturedQuery = [.requestSetting [0x6d]] :=
  ⟨⟨(reports_of_steady titledDirectory).1 (by decide) _ (List.prefix_refl _), by rfl⟩,
    (reports_of_steady picturedQuery).2 (by decide) _ (List.prefix_refl _), by decide⟩

/-- `ESC ] 0 ; t`, a title that is never ended, and `ESC ] 7 ; file:///a BEL` after it. -/
def titleThenDirectory : List UInt8 :=
  [esc, 0x5d, 0x30, 0x3b, 0x74, esc, 0x5d] ++ osc7Prefix ++ [0x2f, 0x61, bel]

/-- `ESC P q`, a picture that is never ended, and the query `ESC P $ q m ESC \` after it. -/
def pictureThenQuery : List UInt8 := [esc, 0x50, 0x71, esc, 0x50, 0x24, 0x71, 0x6d, esc, backslash]

/-- An open string hides the report after it. -/
theorem open_string_hides :
    (¬ ∀ bytes, (Osc7Scanner.new.feed bytes).cwd = lastReport bytes) ∧
      ¬ ∀ bytes, DcsQueryScanner.new.reports bytes = queriesOf bytes := by
  constructor
  · intro h
    have hheard : lastReport titleThenDirectory = some "/a" := by rfl
    have hmissed : (Osc7Scanner.new.feed titleThenDirectory).cwd = none := by rfl
    simpa [hheard, hmissed] using h titleThenDirectory
  · intro h
    have hheard : queriesOf pictureThenQuery = [.requestSetting [0x6d]] := by decide
    have hmissed : DcsQueryScanner.new.reports pictureThenQuery = [] := by decide
    simpa [hheard, hmissed] using h pictureThenQuery

end Embers
