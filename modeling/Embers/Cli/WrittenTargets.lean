import Embers.Cli.Targets
import Embers.Client.Leaves

/-!
# Targets of ids and numbers

How targets are read that are written with an id or with numbers only: a buffer, a window or a node by its
id, and a pane by session, window number and pane number.
-/

namespace Embers.Cli

open Client

/-! ## Numbers -/

theorem isDigit_of_mem_decimal {n : ℕ} {c : Char} (h : c ∈ decimal n) : isAsciiDigit c = true := by
  obtain ⟨code, hcode, rfl⟩ := List.mem_map.mp h
  obtain ⟨hge, hle⟩ := Decimal.isDigit_of_mem_text hcode
  rw [isAsciiDigit, Char.toNat_ofNat, if_pos (.inl (by omega))]
  simp [hge, hle]

theorem toNat_decimal (n : ℕ) : (decimal n).map Char.toNat = Decimal.text n := by
  rw [decimal, List.map_map]
  refine (List.map_congr_left fun code hcode ↦ ?_).trans (List.map_id _)
  obtain ⟨-, hle⟩ := Decimal.isDigit_of_mem_text hcode
  exact (Char.toNat_ofNat code).trans (if_pos (.inl (by omega)))

theorem notMem_decimal {c : Char} (hc : isAsciiDigit c = false) (n : ℕ) : c ∉ decimal n := by
  intro hmem
  rw [isDigit_of_mem_decimal hmem] at hc
  cases hc

/-- The text of a number begins with a digit. -/
theorem decimal_eq_cons (n : ℕ) : ∃ c rest, decimal n = c :: rest ∧ isAsciiDigit c = true := by
  have hne : decimal n ≠ [] := fun h ↦ Decimal.text_ne_nil n (List.map_eq_nil_iff.mp h)
  obtain ⟨c, rest, hdecimal⟩ := List.exists_cons_of_ne_nil hne
  exact ⟨c, rest, hdecimal, isDigit_of_mem_decimal (hdecimal ▸ List.mem_cons_self)⟩

theorem parseNumber_decimal {limit n : ℕ} (h : n < limit) : parseNumber limit (decimal n) = some n := by
  rw [parseNumber, toNat_decimal]
  exact Decimal.parse_text h

theorem parseId_decimal {n : ℕ} (h : n < 2 ^ 64) : parseId (decimal n) = some (UInt64.ofNat n) := by
  have hdigits : decimal n ≠ [] ∧ (decimal n).all isAsciiDigit := by
    obtain ⟨c, rest, hdecimal, -⟩ := decimal_eq_cons n
    exact ⟨hdecimal ▸ List.cons_ne_nil c rest, List.all_eq_true.mpr fun _ ↦ isDigit_of_mem_decimal⟩
  rw [parseId, if_pos hdigits, parseNumber_decimal h]
  rfl

theorem parseId_raw {κ : IdKind} (id : EntityId κ) : parseId (decimal id.raw.toNat) = some id.raw := by
  rw [parseId_decimal id.raw.toNat_lt, UInt64.ofNat_toNat]

/-! ## Parts -/

theorem after_of_head_ne {c d : Char} (h : d ≠ c) (rest : List Char) : after c (d :: rest) = none :=
  if_neg h

theorem splitOnce_append {c : Char} (behind : List Char) : ∀ {before : List Char}, c ∉ before →
    splitOnce c (before ++ c :: behind) = some (before, behind)
  | [], _ => if_pos rfl
  | d :: before, h => by
    rw [List.mem_cons, not_or] at h
    obtain ⟨hne, hbefore⟩ := h
    rw [List.cons_append, splitOnce, if_neg (Ne.symm hne), splitOnce_append behind hbefore]
    rfl

theorem splitOnce_eq_none {c : Char} : ∀ {text : List Char}, c ∉ text → splitOnce c text = none
  | [], _ => rfl
  | d :: text, h => by
    rw [List.mem_cons, not_or] at h
    obtain ⟨hne, htext⟩ := h
    rw [splitOnce, if_neg (Ne.symm hne), splitOnce_eq_none htext]
    rfl

theorem rsplitOnce_append {c : Char} (before : List Char) {behind : List Char} (h : c ∉ behind) :
    rsplitOnce c (before ++ c :: behind) = some (before, behind) := by
  have hreverse : (before ++ c :: behind).reverse = behind.reverse ++ c :: before.reverse := by simp
  rw [rsplitOnce, hreverse, splitOnce_append _ (mt List.mem_reverse.mp h)]
  simp

/-- A digit is none of the signs that targets begin with. -/
theorem ne_of_isAsciiDigit {c d : Char} (hc : isAsciiDigit c = true) (hd : isAsciiDigit d = false) :
    c ≠ d := by
  rintro rfl
  rw [hc] at hd
  cases hd

theorem parseWindow_decimal (n : ℕ) : parseWindow (decimal n) = .ok (.name (decimal n)) := by
  obtain ⟨c, rest, hdecimal, hc⟩ := decimal_eq_cons n
  have hat : c ≠ '@' := ne_of_isAsciiDigit hc rfl
  have hbrace : c ≠ '\x7b' := ne_of_isAsciiDigit hc rfl
  have hcaret : c ≠ '^' := ne_of_isAsciiDigit hc rfl
  have hdollar : c ≠ '$' := ne_of_isAsciiDigit hc rfl
  have hplus : c ≠ '+' := ne_of_isAsciiDigit hc rfl
  have hminus : c ≠ '-' := ne_of_isAsciiDigit hc rfl
  have hequals : c ≠ '=' := ne_of_isAsciiDigit hc rfl
  rw [hdecimal, parseWindow]
  simp [after, hat, hbrace, hcaret, hdollar, hplus, hminus, hequals]

theorem parsePane_decimal {n : ℕ} (h : n < 2 ^ 64) : parsePane (decimal n) = .ok (.index n) := by
  have hid := parseId_decimal h
  obtain ⟨c, rest, hdecimal, hc⟩ := decimal_eq_cons n
  have hat : c ≠ '@' := ne_of_isAsciiDigit hc rfl
  have hbrace : c ≠ '\x7b' := ne_of_isAsciiDigit hc rfl
  have hpercent : c ≠ '%' := ne_of_isAsciiDigit hc rfl
  rw [hdecimal] at hid ⊢
  simp [parsePane, after, hat, hbrace, hpercent, hid, UInt64.toNat_ofNat_of_lt' h]

/-- A window number and a pane number. -/
theorem splitPane_numbers (i : ℕ) {j : ℕ} (h : j < 2 ^ 64) :
    splitPane (decimal i ++ '.' :: decimal j) = (decimal i, some (decimal j)) := by
  have hpane : decimal j = [] ∨ (parseId (decimal j)).isSome ∨
      ((after '%' (decimal j)).bind parseId).isSome := by
    rw [parseId_decimal h]
    exact .inr (.inl rfl)
  rw [splitPane, rsplitOnce_append _ (notMem_decimal rfl j)]
  exact if_pos hpane

/-! ## Whole targets -/

theorem parse_buffer (bufferId : BufferId) (kind : TargetKind) :
    Target.parse ('%' :: decimal bufferId.raw.toNat) kind = .ok (.buffer bufferId) := by
  rw [Target.parse, after, if_pos rfl]
  simp only [parseId_raw]
  rfl

theorem parse_window (nodeId : NodeId) :
    Target.parse ('@' :: decimal nodeId.raw.toNat) .window = .ok (.windowId nodeId) := by
  obtain ⟨c, rest, hdecimal, -⟩ := decimal_eq_cons nodeId.raw.toNat
  have hsome : (after '@' ('@' :: decimal nodeId.raw.toNat)).filter (· ≠ []) =
      some (decimal nodeId.raw.toNat) := by
    rw [hdecimal]
    rfl
  rw [Target.parse, after_of_head_ne (by decide), hsome]
  simp only [parseId_raw]
  rfl

theorem parse_node (nodeId : NodeId) :
    Target.parse (decimal nodeId.raw.toNat) .pane = .ok (.node nodeId) := by
  have hcolon := splitOnce_eq_none (notMem_decimal (c := ':') rfl nodeId.raw.toNat)
  have hid := parseId_raw nodeId
  obtain ⟨c, rest, hdecimal, hc⟩ := decimal_eq_cons nodeId.raw.toNat
  have hpercent : c ≠ '%' := ne_of_isAsciiDigit hc rfl
  have hat : c ≠ '@' := ne_of_isAsciiDigit hc rfl
  have hdollar : c ≠ '$' := ne_of_isAsciiDigit hc rfl
  have hdot : c ≠ '.' := ne_of_isAsciiDigit hc rfl
  rw [hdecimal] at hcolon hid ⊢
  rw [Target.parse, after_of_head_ne hpercent, after_of_head_ne hat]
  simp only [Option.filter_none, parsePath, hcolon, List.head?_cons, Option.some.injEq, hdollar, false_and,
    if_false, parsePaneWord, after_of_head_ne hdot, hid]
  rfl

/-- A session, a window number and a pane number. -/
theorem parse_numbers {session : List Char} {c : Char} (hhead : session.head? = some c) (hpercent : c ≠ '%')
    (hat : c ≠ '@') (hcolon : ':' ∉ session) {spec : SessionSpec} (hspec : parseSession session = .ok spec)
    (i : ℕ) {j : ℕ} (h : j < 2 ^ 64) :
    Target.parse (session ++ ':' :: (decimal i ++ '.' :: decimal j)) .pane =
      .ok (.path spec (.name (decimal i)) (.index j)) := by
  obtain ⟨rest, rfl⟩ : ∃ rest, session = c :: rest := List.head?_eq_some_iff.mp hhead
  have hsplit := splitOnce_append (decimal i ++ '.' :: decimal j) hcolon
  rw [List.cons_append] at hsplit ⊢
  rw [Target.parse, after_of_head_ne hpercent, after_of_head_ne hat]
  simp only [Option.filter_none, parsePath, hsplit, hspec, Answer.bind_ok, splitWindow,
    splitPane_numbers i h, parseWindow_decimal, parsePaneOf, parsePane_decimal h]
  rfl

theorem parseSession_id (sessionId : SessionId) :
    parseSession ('$' :: decimal sessionId.raw.toNat) = .ok (.id sessionId) := by
  rw [parseSession, if_neg (List.cons_ne_nil _ _), after, if_pos rfl]
  simp only [parseId_raw]
  rfl

theorem parseSession_exact (name : List Char) : parseSession ('=' :: name) = .ok (.exact name) := rfl

end Embers.Cli
