import Embers.Client.KeyReports
import Embers.Client.Presentation

/-!
# Mouse reports

The host terminal reports the mouse with a number whose bits are the button, the modifiers, a motion
and the wheel. A program that asks for the mouse gets the event as such a report again, with the
place counted from its pane.

Bits from 128 on are for buttons that there is no event for. The parser does not look at them, nor
at the motion bit and the release of a wheel, or the release of a motion, so some of what it reads
is reported on as something else (`Kept` says which is not).
-/

namespace Embers.Client

/-- A report in decimal, with places counted from 1. -/
def sgrReport (code column row : ℕ) (released : Bool) : List UInt8 :=
  0x1b :: 0x5b :: 0x3c :: (decimalBytes code ++ 0x3b :: (decimalBytes column ++ 0x3b ::
    (decimalBytes row ++ [if released then 0x6d else 0x4d])))

def mouseButtonCode : MouseButton → ℕ
  | .left => 0
  | .middle => 1
  | .right => 2

def clampOrigin (value : ℤ) : ℕ := min value.toNat 65535

/-- The bits of the modifiers. -/
def modifierCode (modifiers : MouseModifiers) : ℕ :=
  (if modifiers.shift then 4 else 0) ||| (if modifiers.alt then 8 else 0) |||
    (if modifiers.ctrl then 16 else 0)

/-- The bits of an event and whether its report ends as a release. -/
def kindCode : MouseEventKind → ℕ × Bool
  | .press button => (mouseButtonCode button, false)
  | .release button => ((button.map mouseButtonCode).getD 3, true)
  | .drag button => (32 ||| mouseButtonCode button, false)
  | .wheelUp => (64, false)
  | .wheelDown => (65, false)

def encodeMouseEvent (leaf : LeafFrame) (event : MouseEvent) : Except String (List UInt8) :=
  let originX := clampOrigin leaf.contentRect.x
  let originY := clampOrigin leaf.contentRect.y
  if event.column < originX then .error "mouse event fell outside pane bounds"
  else if event.row < originY then .error "mouse event fell outside pane content"
  else
    let code := modifierCode event.modifiers ||| (kindCode event.kind).1
    .ok (sgrReport code (min (event.column - originX + 1) 65535)
      (min (event.row - originY + 1) 65535) (kindCode event.kind).2)

/-! ## What comes back -/

/-- A report that the parser has no event for: a number of more than 16 bits, a sideways wheel, or
no button where there must be one. -/
def Refused (code : ℕ) (released : Bool) : Prop :=
  2 ^ 16 ≤ code ∨
    if code.testBit 6 then 2 ≤ code % 4 else code % 4 = 3 ∧ (code.testBit 5 ∨ released = false)

/-- A report of an event as it is reported on: none of the bits from 128 on, no motion of the wheel,
and a release only of a button. -/
structure Kept (code : ℕ) (released : Bool) : Prop where
  small : code < 128
  wheel : ¬ (code.testBit 5 ∧ code.testBit 6)
  release : released → code < 32

instance (code : ℕ) (released : Bool) : Decidable (Refused code released) := by
  unfold Refused
  infer_instance

instance (code : ℕ) (released : Bool) : Decidable (Kept code released) :=
  decidable_of_iff (code < 128 ∧ ¬ (code.testBit 5 ∧ code.testBit 6) ∧ (released → code < 32))
    ⟨fun h ↦ ⟨h.1, h.2.1, h.2.2⟩, fun h ↦ ⟨h.small, h.wheel, h.release⟩⟩

/-- The parser refuses the report, or a pane at the origin gets its event as the same bytes. -/
def ComesBack (report : List UInt8) : Prop :=
  ∀ event, parseSgrMouse report = some event → ∀ leaf : LeafFrame,
    leaf.contentRect.x = 0 → leaf.contentRect.y = 0 → encodeMouseEvent leaf event = .ok report

/-- The event is on the content of a pane that is on the screen. -/
structure OnContent (leaf : LeafFrame) (event : MouseEvent) : Prop where
  left : 0 ≤ leaf.contentRect.x
  top : 0 ≤ leaf.contentRect.y
  width : leaf.contentRect.width < 2 ^ 16
  height : leaf.contentRect.height < 2 ^ 16
  column : leaf.contentRect.x ≤ event.column ∧
    event.column < leaf.contentRect.x + leaf.contentRect.width
  row : leaf.contentRect.y ≤ event.row ∧ event.row < leaf.contentRect.y + leaf.contentRect.height
  /-- Columns and rows have 16 bits. -/
  bits : event.column < 2 ^ 16 ∧ event.row < 2 ^ 16

/-- The event with its place counted from the content of a pane. -/
def inPane (leaf : LeafFrame) (event : MouseEvent) : MouseEvent :=
  { event with
    row := (event.row - leaf.contentRect.y).toNat
    column := (event.column - leaf.contentRect.x).toNat }

/-- A pane at the origin. -/
def originLeaf : LeafFrame :=
  ⟨1, 1, ⟨0, 0, 80, 24⟩, ⟨0, 0, 80, 24⟩, none, "", .idle, true⟩

/-! ## The numbers -/

/-- The modifiers in a number. -/
def modifiersOf (code : ℕ) : MouseModifiers := ⟨code.testBit 2, code.testBit 3, code.testBit 4⟩

theorem decimalBytes_injective {m n : ℕ} (h : decimalBytes m = decimalBytes n) : m = n := by
  have htext := congrArg (List.map UInt8.toNat) h
  rw [toNat_decimalBytes, toNat_decimalBytes] at htext
  have hvalue := congrArg Decimal.value htext
  rwa [Decimal.value_text, Decimal.value_text] at hvalue

theorem parseUnsigned_decimalBytes_of_le {limit n : ℕ} (h : limit ≤ n) :
    parseUnsigned limit (decimalBytes n) = none := by
  rw [parseUnsigned, toNat_decimalBytes, ← Option.not_isSome_iff_eq_none, Option.isSome_iff_exists]
  rintro ⟨m, hm⟩
  obtain ⟨hlt, hmore⟩ := Decimal.parse_eq_some hm
  have hm' := hmore (max (m + 1) (n + 1)) (by omega)
  rw [Decimal.parse_text (by omega)] at hm'
  obtain rfl := Option.some.inj hm'
  omega

theorem parseSgrMouse_sgrReport {code column row : ℕ} (hcolumn : column < 2 ^ 16)
    (hrow : row < 2 ^ 16) (released : Bool) :
    parseSgrMouse (sgrReport code column row released) =
      if code < 2 ^ 16 then (mouseEventKind code released).map fun kind ↦
        ⟨row - 1, column - 1, modifiersOf code, kind⟩
      else none := by
  let suffix : UInt8 := if released then 0x6d else 0x4d
  let fields := decimalBytes code ++ 0x3b :: (decimalBytes column ++ 0x3b :: decimalBytes row)
  have hreport : sgrReport code column row released =
      0x1b :: 0x5b :: 0x3c :: (fields ++ [suffix]) := by
    simp [sgrReport, fields, suffix]
  have hsplit : fields.splitOn 0x3b = [decimalBytes code, decimalBytes column, decimalBytes row] := by
    rw [List.splitOn_append_cons_self_of_not_mem (not_mem_decimalBytes code (by decide)),
      List.splitOn_append_cons_self_of_not_mem (not_mem_decimalBytes column (by decide)),
      splitOn_decimalBytes (by decide)]
  have hsuffix : ¬ (suffix ≠ 0x4d ∧ suffix ≠ 0x6d) := by
    cases released <;> decide
  have hreleased : decide (suffix = 0x6d) = released := by
    cases released <;> decide
  rw [hreport]
  simp only [parseSgrMouse, List.getLast?_concat, List.dropLast_concat, hsplit, hreleased,
    Option.bind_eq_bind, Option.bind_some, if_neg hsuffix]
  rw [parseUnsigned_decimalBytes hcolumn, parseUnsigned_decimalBytes hrow]
  split
  · next hcode =>
    rw [parseUnsigned_decimalBytes hcode]
    simp only [Option.bind_some]
    cases mouseEventKind code released with
    | none => rfl
    | some kind => rfl
  · next hcode =>
    rw [parseUnsigned_decimalBytes_of_le (Nat.le_of_not_lt hcode)]
    rfl

/-- What the parser refuses. -/
theorem mouseEventKind_eq_none_iff {code : ℕ} (hcode : code < 2 ^ 16) (released : Bool) :
    mouseEventKind code released = none ↔ Refused code released := by
  have hbutton : ∀ button < 4, mouseButton button = none ↔ button = 3 := by decide
  have hlt : code % 4 < 4 := Nat.mod_lt _ (by norm_num)
  have hrefused : Refused code released ↔ if code.testBit 6 then 2 ≤ code % 4
      else code % 4 = 3 ∧ (code.testBit 5 ∨ released = false) :=
    ⟨fun h ↦ h.resolve_left (by omega), .inr⟩
  rw [hrefused, mouseEventKind]
  split
  · generalize code % 4 = button at hlt ⊢
    interval_cases button <;> simp
  · rcases hfive : code.testBit 5 with _ | _
    · cases released with
      | false => simp [hbutton _ hlt]
      | true => simp
    · simp [hbutton _ hlt]

/-- The number and the end of a report. -/
def reportCode (modifiers : MouseModifiers) (kind : MouseEventKind) : ℕ × Bool :=
  (modifierCode modifiers ||| (kindCode kind).1, (kindCode kind).2)

/-- The number of an event is one that is kept, and the event is read back from it. -/
theorem kept_reportCode (modifiers : MouseModifiers) (kind : MouseEventKind) :
    Kept (reportCode modifiers kind).1 (reportCode modifiers kind).2 ∧
      mouseEventKind (reportCode modifiers kind).1 (reportCode modifiers kind).2 = some kind ∧
      modifiersOf (reportCode modifiers kind).1 = modifiers := by
  obtain ⟨shift, alt, ctrl⟩ := modifiers
  revert shift alt ctrl
  cases kind with
  | press button => cases button <;> decide
  | release button =>
    cases button with
    | none => decide
    | some button => cases button <;> decide
  | drag button => cases button <;> decide
  | wheelUp => decide
  | wheelDown => decide

/-- An event that is read from a kept number has that number. -/
theorem reportCode_of_kept {code : ℕ} {released : Bool} (h : Kept code released)
    {kind : MouseEventKind} (hkind : mouseEventKind code released = some kind) :
    reportCode (modifiersOf code) kind = (code, released) := by
  have hall : ∀ code < 128, ∀ released, Kept code released → ∀ kind ∈ mouseEventKind code released,
      reportCode (modifiersOf code) kind = (code, released) := by
    decide
  exact hall code h.small released h kind hkind

theorem encodeMouseEvent_eq (leaf : LeafFrame) (event : MouseEvent)
    (hcolumn : clampOrigin leaf.contentRect.x ≤ event.column)
    (hrow : clampOrigin leaf.contentRect.y ≤ event.row) :
    encodeMouseEvent leaf event = .ok (sgrReport (reportCode event.modifiers event.kind).1
      (min (event.column - clampOrigin leaf.contentRect.x + 1) 65535)
      (min (event.row - clampOrigin leaf.contentRect.y + 1) 65535)
      (reportCode event.modifiers event.kind).2) := by
  rw [encodeMouseEvent]
  simp only [if_neg (Nat.not_lt.mpr hcolumn), if_neg (Nat.not_lt.mpr hrow)]
  rfl

theorem getLast?_sgrReport (code column row : ℕ) (released : Bool) :
    (sgrReport code column row released).getLast? = some (if released then 0x6d else 0x4d) := by
  have hreport : sgrReport code column row released =
      (0x1b :: 0x5b :: 0x3c :: (decimalBytes code ++ 0x3b :: (decimalBytes column ++ 0x3b ::
        decimalBytes row))) ++ [if released then 0x6d else 0x4d] := by
    simp [sgrReport]
  rw [hreport, List.getLast?_concat]

theorem sgrReport_injective {code column row code' column' row' : ℕ} {released released' : Bool}
    (h : sgrReport code column row released = sgrReport code' column' row' released') :
    code = code' ∧ released = released' := by
  have hbytes : ∀ n, (0x3b : UInt8) ∉ decimalBytes n := fun n ↦ not_mem_decimalBytes n (by decide)
  have htail := (List.cons.inj (List.cons.inj (List.cons.inj h).2).2).2
  have hsplit := congrArg (List.splitOn 0x3b) htail
  rw [List.splitOn_append_cons_self_of_not_mem (hbytes code),
    List.splitOn_append_cons_self_of_not_mem (hbytes code')] at hsplit
  have hlast := congrArg List.getLast? h
  refine ⟨decimalBytes_injective (List.cons.inj hsplit).1, ?_⟩
  rw [getLast?_sgrReport, getLast?_sgrReport] at hlast
  revert hlast
  cases released <;> cases released' <;> decide

/-! ## Reports on -/

theorem comesBack_iff {code column row : ℕ} (hcolumn : 1 ≤ column ∧ column < 2 ^ 16)
    (hrow : 1 ≤ row ∧ row < 2 ^ 16) (released : Bool) :
    ComesBack (sgrReport code column row released) ↔ Refused code released ∨ Kept code released := by
  rw [ComesBack, parseSgrMouse_sgrReport hcolumn.2 hrow.2]
  constructor
  · intro h
    by_cases hcode : code < 2 ^ 16
    · rw [if_pos hcode] at h
      rcases hkind : mouseEventKind code released with _ | kind
      · exact .inl ((mouseEventKind_eq_none_iff hcode released).mp hkind)
      · -- The number that is sent on is a kept one.
        rw [hkind] at h
        have hsent := h _ rfl originLeaf rfl rfl
        rw [encodeMouseEvent_eq _ _ (Nat.zero_le _) (Nat.zero_le _)] at hsent
        obtain ⟨hsame, hsame'⟩ := sgrReport_injective (Except.ok.inj hsent)
        have hkept := (kept_reportCode (modifiersOf code) kind).1
        rw [hsame, hsame'] at hkept
        exact .inr hkept
    · exact .inl (.inl (Nat.le_of_not_lt hcode))
  · intro h event hevent leaf hx hy
    split at hevent
    · next hcode =>
      obtain ⟨kind, hkind, rfl⟩ := Option.map_eq_some_iff.mp hevent
      rcases h with hrefused | hkept
      · rw [(mouseEventKind_eq_none_iff hcode released).mpr hrefused] at hkind
        cases hkind
      · have hcolumn' : min (column - 1 + 1) 65535 = column := by omega
        have hrow' : min (row - 1 + 1) 65535 = row := by omega
        have hx' : clampOrigin leaf.contentRect.x = 0 := by rw [hx]; rfl
        have hy' : clampOrigin leaf.contentRect.y = 0 := by rw [hy]; rfl
        rw [encodeMouseEvent_eq _ _ (by omega) (by omega), hx', hy', Nat.sub_zero, Nat.sub_zero,
          hcolumn', hrow', reportCode_of_kept hkept hkind]
    · cases hevent

/-- A column or row of an event, and of its report, along the content of a pane. -/
theorem place_inPane {origin : ℤ} {length place : ℕ} (horigin : 0 ≤ origin)
    (hlength : length < 2 ^ 16) (hin : origin ≤ place ∧ place < origin + length)
    (hbits : place < 2 ^ 16) :
    clampOrigin origin ≤ place ∧
      min (place - clampOrigin origin + 1) 65535 = (place - origin).toNat + 1 ∧
      (place - origin).toNat + 1 < 2 ^ 16 := by
  rw [clampOrigin]
  omega

/-- The event of a pane is read back as it is in the pane. -/
theorem parse_encodeMouseEvent {leaf : LeafFrame} {event : MouseEvent} (h : OnContent leaf event) :
    ∃ report, encodeMouseEvent leaf event = .ok report ∧
      parseSgrMouse report = some (inPane leaf event) := by
  obtain ⟨hcolumn, hcolumn', hcolumn''⟩ := place_inPane h.left h.width h.column h.bits.1
  obtain ⟨hrow, hrow', hrow''⟩ := place_inPane h.top h.height h.row h.bits.2
  obtain ⟨hkept, hkind, hmodifiers⟩ := kept_reportCode event.modifiers event.kind
  have hsmall := hkept.small
  refine ⟨_, encodeMouseEvent_eq leaf event hcolumn hrow, ?_⟩
  rw [hcolumn', hrow', parseSgrMouse_sgrReport hcolumn'' hrow'',
    if_pos (hsmall.trans (by norm_num)), hkind, hmodifiers]
  rfl

/-- **Mouse reports.** A report is refused or its event reported on as the same bytes exactly when
its number is one of those that are refused or kept. Any event on a pane's content is read back with
its place counted from the content. -/
theorem mouse_reports (code column row : ℕ) (released : Bool) (leaf : LeafFrame) (event : MouseEvent) :
    (1 ≤ column → column ≤ 65535 → 1 ≤ row → row ≤ 65535 →
      (ComesBack (sgrReport code column row released) ↔
        Refused code released ∨ Kept code released)) ∧
    (OnContent leaf event → ∃ report, encodeMouseEvent leaf event = .ok report ∧
      parseSgrMouse report = some (inPane leaf event)) := by
  refine ⟨fun hcolumn hcolumn' hrow hrow' ↦ ?_, fun h ↦ parse_encodeMouseEvent h⟩
  exact comesBack_iff ⟨hcolumn, by omega⟩ ⟨hrow, by omega⟩ released

/-- The wheel comes back as it is, and so does a drag in a pane away from the origin. -/
theorem mouse_reports_samples :
    ComesBack (sgrReport 64 5 7 false) ∧ ∃ report,
      encodeMouseEvent { originLeaf with contentRect := ⟨10, 4, 20, 5⟩ }
        ⟨6, 12, ⟨true, false, false⟩, .drag .right⟩ = .ok report ∧
      parseSgrMouse report = some ⟨2, 2, ⟨true, false, false⟩, .drag .right⟩ := by
  obtain ⟨hwheel, hdrag⟩ := mouse_reports 64 5 7 false { originLeaf with contentRect := ⟨10, 4, 20, 5⟩ }
    ⟨6, 12, ⟨true, false, false⟩, .drag .right⟩
  refine ⟨(hwheel (by norm_num) (by norm_num) (by norm_num) (by norm_num)).mpr (.inr (by decide)), ?_⟩
  exact hdrag ⟨by decide, by decide, by decide, by decide, by decide, by decide, by decide⟩

/-- A press of the eighth button is read as a press of the left one. -/
theorem extra_button_clicks :
    parseSgrMouse (sgrReport 128 1 1 false) = some ⟨0, 0, ⟨false, false, false⟩, .press .left⟩ ∧
      encodeMouseEvent originLeaf ⟨0, 0, ⟨false, false, false⟩, .press .left⟩ =
        .ok (sgrReport 0 1 1 false) ∧
      ¬ ComesBack (sgrReport 128 1 1 false) := by
  refine ⟨?_, ?_, ?_⟩
  · rw [parseSgrMouse_sgrReport (by norm_num) (by norm_num)]
    rfl
  · rw [encodeMouseEvent_eq _ _ (by decide) (by decide)]
    rfl
  · rw [comesBack_iff (by norm_num) (by norm_num)]
    decide

end Embers.Client
