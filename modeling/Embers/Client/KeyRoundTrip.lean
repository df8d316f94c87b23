import Embers.Client.KeyBytes
import Embers.Client.KeyReports

/-!
# Keys sent and read back

A client running in a pane of another one reads what that one encodes. In a mode that reports every
key as an escape the two agree: `encodeKey` has one form for each key and its modifiers, and
`readTerminalEvent` takes that form for the same key. Unmodified keys come as sequences of their
own, which `readTerminalEvent` finds in a table; the rest are reports with parameters, read by
`readTerminalEvent_bare` and `readTerminalEvent_two`.
-/

namespace Embers

/-- The key and modifiers an event stands for. -/
def KeyEvent.chord : KeyEvent → Option (KeyCode × Modifiers)
  | .char ch => some (.char ch, .none)
  | .bytes _ => none
  | .enter => some (.enter, .none)
  | .tab => some (.tab, .none)
  | .backspace => some (.backspace, .none)
  | .escape => some (.escape, .none)
  | .ctrl ch => some (.char ch, .onlyCtrl)
  | .alt ch => some (.char ch, .onlyAlt)
  | .up => some (.up, .none)
  | .down => some (.down, .none)
  | .left => some (.left, .none)
  | .right => some (.right, .none)
  | .home => some (.home, .none)
  | .end => some (.end, .none)
  | .insert => some (.insert, .none)
  | .delete => some (.delete, .none)
  | .pageUp => some (.pageUp, .none)
  | .pageDown => some (.pageDown, .none)
  | .key code mods => some (code, mods)

/-- What some bytes are read as when they are one key and nothing else. -/
def readChord (bytes : List UInt8) : Option (KeyCode × Modifiers) :=
  match readTerminalEvent bytes with
  | some (.key key, []) => key.chord
  | _ => none

theorem readChord_of_key {bytes : List UInt8} {key : KeyEvent}
    (h : readTerminalEvent bytes = some (.key key, [])) : readChord bytes = key.chord := by
  rw [readChord, h]

/-- Characters with a code point of their own: the named keys have some, and the private-use area
is taken by functional keys. -/
def KeyCode.OwnCodePoint : KeyCode → Prop
  | .char ch => ch.toNat ∉ [9, 13, 27, 127] ∧ ¬(57344 ≤ ch.toNat ∧ ch.toNat ≤ 63743)
  | _ => True

/-- Function keys there are: F1 to F12. -/
def KeyCode.OnKeyboard : KeyCode → Prop
  | .function number => 1 ≤ number ∧ number ≤ 12
  | _ => True

/-- The modes with both flags. -/
def ReportsEveryKey (mode : UInt8) : Prop :=
  modeDisambiguates mode = true ∧ modeReportsAllKeys mode = true

instance (mode : UInt8) : Decidable (ReportsEveryKey mode) := inferInstanceAs (Decidable (_ ∧ _))

variable {code code' : KeyCode} {mods mods' : Modifiers} {mode : UInt8}

/-! ## The forms of a key -/

theorem kittyCode_eq_one : mods.kittyCode = 1 ↔ mods = .none := by
  obtain ⟨shift, alt, ctrl, super⟩ := mods
  revert shift alt ctrl super
  decide

theorem decodeKittyMods_kittyCode (mods : Modifiers) :
    decodeKittyMods mods.kittyCode = some mods :=
  decodeKittyMods_modifierValue mods false false

theorem kittyCode_lt (mods : Modifiers) : mods.kittyCode < 2 ^ 32 :=
  modifierValue_lt mods false false

theorem csiWithModifier_modified (h : mods ≠ .none) (number : Option ℕ) (finalByte : UInt8) :
    csiWithModifier number mods.kittyCode finalByte =
      csi (decimalBytes (number.getD 1) ++ 0x3b :: decimalBytes mods.kittyCode) finalByte := by
  rw [csiWithModifier, if_neg (mt kittyCode_eq_one.mp h), csi]
  simp only [List.cons_append, List.nil_append, List.append_assoc]

/-- A modified key that has a form with a letter or a tilde: the parameters name it. -/
theorem functionalCsi_modified {bytes : List UInt8} (h : mods ≠ .none)
    (hbytes : functionalCsi code mods = some bytes) :
    ∃ number finalByte,
      bytes = csi (decimalBytes number ++ 0x3b :: decimalBytes mods.kittyCode) finalByte ∧
      number < 2 ^ 32 ∧ isCsiFinalByte finalByte = true ∧
      reportKeyCode finalByte number = some code := by
  have hform : ∀ {number : Option ℕ} {finalByte : UInt8},
      some (csiWithModifier number mods.kittyCode finalByte) = some bytes →
      number.getD 1 < 2 ^ 32 → isCsiFinalByte finalByte = true →
      reportKeyCode finalByte (number.getD 1) = some code →
      ∃ number finalByte,
        bytes = csi (decimalBytes number ++ 0x3b :: decimalBytes mods.kittyCode) finalByte ∧
        number < 2 ^ 32 ∧ isCsiFinalByte finalByte = true ∧
        reportKeyCode finalByte number = some code := by
    intro number finalByte hbytes hlt hfinal hcode
    rw [csiWithModifier_modified h] at hbytes
    exact ⟨_, _, (Option.some.inj hbytes).symm, hlt, hfinal, hcode⟩
  have hmodifier := mt kittyCode_eq_one.mp h
  cases code with
  | function n =>
    rw [functionalCsi, functionKeyCsi.eq_def] at hbytes
    split at hbytes
    -- F1 to F4 come first: they have forms without parameters
    all_goals first
      | rw [if_neg hmodifier] at hbytes; exact hform hbytes (by decide) (by decide) rfl
      | exact hform hbytes (by decide) (by decide) rfl
      | cases hbytes
  | up | down | left | right | home | «end» | insert | delete | pageUp | pageDown =>
    exact hform hbytes (by decide) (by decide) rfl
  | char | enter | tab | backspace | escape => cases hbytes

/-! ## Reading them back -/

theorem functionKeyCsi_ne_none {n modifier : ℕ} (h : (KeyCode.function n).OnKeyboard) :
    functionKeyCsi n modifier ≠ none := by
  obtain ⟨hlow, hhigh⟩ := h
  interval_cases n
  all_goals
    simp only [functionKeyCsi]
    first
      | exact Option.some_ne_none _
      | split <;> exact Option.some_ne_none _

theorem readChord_functional {bytes : List UInt8} (hkeyboard : code.OnKeyboard)
    (hbytes : functionalCsi code mods = some bytes) : readChord bytes = some (code, mods) := by
  by_cases hmods : mods = .none
  · subst hmods
    cases code with
    | function n =>
      obtain ⟨hlow, hhigh⟩ := hkeyboard
      interval_cases n
      all_goals
        cases hbytes
        decide +kernel
    | up | down | left | right | home | «end» | insert | delete | pageUp | pageDown =>
      cases hbytes
      decide +kernel
    | char | enter | tab | backspace | escape => cases hbytes
  · obtain ⟨number, finalByte, rfl, hnumber, hfinal, hcode⟩ := functionalCsi_modified hmods hbytes
    exact readChord_of_key (readTerminalEvent_two hnumber (kittyCode_lt mods) hfinal hcode
      (decodeKittyMods_kittyCode mods))

/-- The decoder has the key of every code point the encoder names one by. -/
theorem kittyKeyCode_kittyKeyNumber {number : ℕ} (hown : code.OwnCodePoint)
    (h : kittyKeyNumber code = some number) :
    number < 2 ^ 32 ∧ reportKeyCode 0x75 number = some code := by
  cases code with
  | char ch =>
    cases h
    obtain ⟨hnamed, hprivate⟩ := hown
    simp only [List.mem_cons, List.not_mem_nil, or_false, not_or] at hnamed
    refine ⟨ch.val.toNat_lt, ?_⟩
    change kittyKeyCode ch.toNat = some (.char ch)
    rw [kittyKeyCode]
    · have hvalid : ch.toNat.isValidChar := ch.valid
      rw [if_neg hprivate, if_pos hvalid, Char.ofNat_toNat]
    · exact hnamed.1
    · exact hnamed.2.1
    · exact hnamed.2.2.1
    · exact hnamed.2.2.2
  | enter | tab | backspace | escape =>
    cases h
    exact ⟨by decide, rfl⟩
  | _ => cases h

theorem readChord_kitty {number : ℕ} (hown : code.OwnCodePoint)
    (h : kittyKeyNumber code = some number) :
    readChord (csiWithModifier (some number) mods.kittyCode 0x75) = some (code, mods) := by
  obtain ⟨hnumber, hcode⟩ := kittyKeyCode_kittyKeyNumber hown h
  by_cases hmods : mods = .none
  · subst hmods
    exact readChord_of_key (readTerminalEvent_bare hnumber hcode)
  · rw [csiWithModifier_modified hmods]
    exact readChord_of_key (readTerminalEvent_two hnumber (kittyCode_lt mods) (by decide) hcode
      (decodeKittyMods_kittyCode mods))

theorem readChord_encodeKey (hmode : ReportsEveryKey mode) (hown : code.OwnCodePoint)
    (hkeyboard : code.OnKeyboard) (mods : Modifiers) :
    readChord (encodeKey code mods mode) = some (code, mods) := by
  rw [encodeKey, if_pos (.inl hmode.1), encodeKitty]
  cases hfunctional : functionalCsi code mods with
  | some bytes => exact readChord_functional hkeyboard hfunctional
  | none =>
    cases hnumber : kittyKeyNumber code with
    | some number =>
      dsimp only
      rw [if_neg fun hlegacy ↦ hlegacy.2 hmode.2]
      exact readChord_kitty hown hnumber
    | none =>
      -- a key without a code point has a functional form
      cases code with
      | function n =>
        exact absurd hfunctional (functionKeyCsi_ne_none hkeyboard)
      | char | enter | tab | backspace | escape => cases hnumber
      | _ => cases hfunctional

/-- In a mode that reports every key, each key comes back as it was sent, and no two are sent
alike. -/
theorem encodeKey_readable (mode : UInt8) (hmode : ReportsEveryKey mode) :
    (∀ code mods, code.OwnCodePoint → code.OnKeyboard → ∃ key,
      readTerminalEvent (encodeKey code mods mode) = some (.key key, []) ∧
        key.chord = some (code, mods)) ∧
    ∀ code mods code' mods', code.OwnCodePoint → code.OnKeyboard → code'.OwnCodePoint →
      code'.OnKeyboard → encodeKey code mods mode = encodeKey code' mods' mode →
        code = code' ∧ mods = mods' := by
  constructor
  · intro code mods hown hkeyboard
    have hread := readChord_encodeKey hmode hown hkeyboard mods
    rw [readChord] at hread
    split at hread
    · next key hkey => exact ⟨key, hkey, hread⟩
    · cases hread
  · intro code mods code' mods' hown hkeyboard hown' hkeyboard' hbytes
    have hread := readChord_encodeKey hmode hown hkeyboard mods
    rw [hbytes, readChord_encodeKey hmode hown' hkeyboard' mods'] at hread
    cases hread
    exact ⟨rfl, rfl⟩

/-- Modified F3, which is no letter, and an `é` with Ctrl. -/
theorem encodeKey_readable_sample :
    (∃ key, readTerminalEvent (encodeKey (.function 3) .onlyShift 0b1001) = some (.key key, []) ∧
      key.chord = some (.function 3, .onlyShift)) ∧
    (encodeKey (.function 3) .onlyShift 0b1001 = encodeKey (.char 'é') .onlyCtrl 0b1001 →
      KeyCode.function 3 = .char 'é' ∧ Modifiers.onlyShift = .onlyCtrl) := by
  have hmode : ReportsEveryKey 0b1001 := by decide
  have hown : (KeyCode.char 'é').OwnCodePoint := ⟨by decide, by decide⟩
  have hkeyboard : (KeyCode.function 3).OnKeyboard := ⟨by decide, by decide⟩
  obtain ⟨hread, hinjective⟩ := encodeKey_readable 0b1001 hmode
  exact ⟨hread _ _ trivial hkeyboard, hinjective _ _ _ _ trivial hkeyboard hown trivial⟩

/-- A function key that no keyboard has is sent as nothing, as is the next one. -/
theorem encodeKey_function_thirteen :
    encodeKey (.function 13) .none 0b1001 = [] ∧
      readTerminalEvent (encodeKey (.function 13) .none 0b1001) = none ∧
      encodeKey (.function 14) .none 0b1001 = encodeKey (.function 13) .none 0b1001 := by
  decide

end Embers
