import Embers.Client.HostKeys

/-!
# Reports of a chord and the binding they find

A chord is a key with modifiers, and a host terminal can report one in several forms. What follows
is that the forms agree: the token read from a report is the one the notation of the chord has
(`readToken_report`), so that a binding fires whichever form the host uses. The tokens a notation can
have come first (`KeyToken.Bindable`), then the forms, then what is read from each.
-/

namespace Embers

/-! ## What a notation stands for -/

/-- The tokens a notation can have. -/
def KeyToken.Bindable : KeyToken → Prop
  | .ctrl ch | .alt ch => ch.isUpper = false
  | .key code mods =>
    (∀ ch, code = .char ch →
      ch.isUpper = false ∧ mods ≠ .none ∧ mods ≠ .onlyCtrl ∧ mods ≠ .onlyAlt) ∧
      (mods = .none → ∃ number, code = .function number)
  | _ => True

theorem addModifier_ne_none {mods mods' : Modifiers} {name : List Char}
    (h : addModifier mods name = some mods') : mods' ≠ .none := by
  rintro rfl
  unfold addModifier at h
  split at h
  all_goals simp [Modifiers.none] at h

/-- What is set stays set, and without a modifier nothing is taken off. -/
theorem takeModifiers_spec {mods mods' : Modifiers} {hadModifier hadModifier' : Bool}
    {head rest key : List Char}
    (h : takeModifiers mods hadModifier head rest = some (mods', hadModifier', key))
    (hmods : hadModifier = true → mods ≠ .none) :
    (hadModifier' = true → mods' ≠ .none) ∧
      (hadModifier' = false → hadModifier = false ∧ key = head ++ rest) := by
  induction rest generalizing mods hadModifier head with
  | nil =>
    simp only [takeModifiers, Option.some.injEq, Prod.mk.injEq] at h
    obtain ⟨rfl, rfl, rfl⟩ := h
    exact ⟨hmods, fun hfalse ↦ ⟨hfalse, (List.append_nil _).symm⟩⟩
  | cons ch tail ih =>
    rw [takeModifiers] at h
    split at h
    · obtain ⟨htrue, hfalse⟩ := ih h hmods
      refine ⟨htrue, fun hh ↦ ⟨(hfalse hh).1, ?_⟩⟩
      rw [(hfalse hh).2, List.append_assoc, List.singleton_append]
    · split at h
      · next hhead =>
        simp only [Option.some.injEq, Prod.mk.injEq] at h
        obtain ⟨rfl, rfl, rfl⟩ := h
        exact ⟨hmods, fun hfalse ↦ ⟨hfalse, by rw [hhead, List.nil_append]⟩⟩
      · obtain ⟨mods₁, hadd, hrest⟩ := Option.bind_eq_some_iff.mp h
        obtain ⟨htrue, hfalse⟩ := ih hrest fun _ ↦ addModifier_ne_none hadd
        exact ⟨htrue, fun hh ↦ absurd (hfalse hh).1 (by decide)⟩

theorem isUpper_toLower (ch : Char) : ch.toLower.isUpper = false := by
  rw [Char.isUpper, decide_eq_false_iff_not, Char.toLower]
  split
  · next h =>
    have hval : (ch.val + ('a'.val - 'A'.val)).toNat = ch.val.toNat + 32 := by
      have hle : ch.val.toNat ≤ 90 := h.2
      have hsum : (ch.val + ('a'.val - 'A'.val)).toNat = (ch.val.toNat + 32) % 2 ^ 32 := by
        rw [UInt32.toNat_add]
        rfl
      omega
    rintro ⟨-, hle⟩
    have hle' : (ch.val + ('a'.val - 'A'.val)).toNat ≤ 90 := hle
    have hge : 65 ≤ ch.val.toNat := h.1
    omega
  · next h => exact h

theorem modifiedToken_bindable {code : KeyCode} {mods : Modifiers} (h : mods ≠ .none) :
    (modifiedToken code mods).Bindable := by
  cases code with
  | char ch =>
    rw [modifiedToken]
    split
    · next hctrl => simpa [KeyToken.Bindable] using hctrl.2
    · split
      · next halt => simpa [KeyToken.Bindable] using halt.2
      · split
        · next hone =>
          refine ⟨?_, ?_⟩
          · rintro ch' hch'
            cases hch'
            refine ⟨isUpper_toLower ch, ?_⟩
            rcases hone with rfl | rfl
            all_goals decide
          · intro hnone
            rcases hone with rfl | rfl
            all_goals cases hnone
        · next hnot =>
          rw [not_or] at hnot
          refine ⟨?_, fun hnone ↦ absurd hnone h⟩
          rintro ch' hch'
          cases hch'
          exact ⟨isUpper_toLower ch, h, hnot.1, hnot.2⟩
  | _ =>
    refine ⟨?_, fun hnone ↦ absurd hnone h⟩
    rintro ch hch
    cases hch

/-- The tokens with a name of their own. -/
def KeyToken.IsNamed : KeyToken → Prop
  | .char _ | .ctrl _ | .alt _ | .key _ _ => False
  | _ => True

theorem KeyToken.IsNamed.bindable {token : KeyToken} (h : token.IsNamed) : token.Bindable := by
  cases token <;> trivial

theorem parseToken_cases (token : List Char) :
    parseToken token = parseModifiedToken token ∨
      ∃ parsed, parseToken token = .ok parsed ∧ parsed.IsNamed := by
  unfold parseToken
  split
  all_goals first
    | exact Or.inr ⟨_, rfl, trivial⟩
    | exact Or.inl rfl

/-- A key is a character, a function key, or one with a token of the same name. -/
theorem parseBaseKey_cases {key : List Char} {code : KeyCode} (h : parseBaseKey key = some code) :
    (∃ ch, code = .char ch) ∨ (∃ number, code = .function number) ∨
      ∃ parsed, parseToken key = .ok parsed ∧ parsed.IsNamed := by
  unfold parseBaseKey at h
  split at h
  all_goals try
    next hname =>
      refine Or.inr (Or.inr ?_)
      unfold parseToken
      rw [hname]
      exact ⟨_, rfl, trivial⟩
  split at h
  · next number _ => exact Or.inr (Or.inl ⟨number, (Option.some.inj h).symm⟩)
  · obtain ⟨ch, -, rfl⟩ := Option.map_eq_some_iff.mp h
    exact Or.inl ⟨ch, rfl⟩

theorem parseToken_bindable {token : List Char} {parsed : KeyToken}
    (h : parseToken token = .ok parsed) : parsed.Bindable := by
  rcases parseToken_cases token with hmodified | ⟨named, hnamed, hbindable⟩
  · have hparsed := hmodified.symm.trans h
    unfold parseModifiedToken at hparsed
    split at hparsed
    · cases hparsed
    · next mods hadModifier key htake =>
      obtain ⟨htrue, hfalse⟩ := takeModifiers_spec htake (by decide)
      split at hparsed
      · cases hparsed
      · next code hcode =>
        split at hparsed
        · cases hparsed
        · split at hparsed
          · next hnot =>
            -- without modifiers, the whole token is the name of a key
            have hkey : key = token := (hfalse (by simpa using hnot)).2
            rw [hkey] at hcode
            rcases parseBaseKey_cases hcode with ⟨ch, rfl⟩ | ⟨number, rfl⟩ | ⟨named, hnamed, hbindable⟩
            · cases hparsed
              trivial
            · cases hparsed
              refine ⟨?_, fun _ ↦ ⟨number, rfl⟩⟩
              rintro ch hch
              cases hch
            · rw [h] at hnamed
              cases hnamed
              exact hbindable.bindable
          · next hhad =>
            cases hparsed
            exact modifiedToken_bindable (htrue (by simpa using hhad))
  · rw [h] at hnamed
    cases hnamed
    exact hbindable.bindable

theorem parseTokens_bindable {keys rest : List Char} {token? : Option (List Char)}
    {tokens : List KeyToken} (h : parseTokens keys token? rest = .ok tokens) :
    ∀ token ∈ tokens, token.Bindable := by
  induction rest generalizing token? tokens with
  | nil =>
    rcases token? with _ | token
    · cases h
      simp
    · cases h
  | cons ch rest ih =>
    rcases token? with _ | token
    · simp only [parseTokens] at h
      split at h
      · exact ih h
      · rcases hrest : parseTokens keys none rest with error | tokens'
        · rw [hrest] at h
          cases h
        · rw [hrest] at h
          cases h
          intro token htoken
          rcases List.mem_cons.mp htoken with rfl | hmem
          · split <;> trivial
          · exact ih hrest token hmem
    · simp only [parseTokens] at h
      split at h
      · rcases hparsed : parseToken token with error | parsed
        · rw [hparsed] at h
          cases h
        · rw [hparsed] at h
          rcases hrest : parseTokens keys none rest with error | tokens'
          · rw [hrest] at h
            cases h
          · rw [hrest] at h
            cases h
            intro token' htoken
            rcases List.mem_cons.mp htoken with rfl | hmem
            · exact parseToken_bindable hparsed
            · exact ih hrest token' hmem
      · exact ih h

theorem parseKeySequence_bindable {keys : List Char} {tokens : List KeyToken}
    (h : parseKeySequence keys = .ok tokens) : ∀ token ∈ tokens, token.Bindable := by
  rw [parseKeySequence] at h
  split at h
  · cases h
  · exact parseTokens_bindable h

/-! ## Reports -/

/-- How a chord is reported. Reports with a modifier parameter may have the bits of Caps Lock and Num
Lock set, and name a shifted letter by its lower or its upper case. -/
inductive ReportForm where
  /-- `CSI code u`. -/
  | bareKitty
  /-- `CSI code ; mods u`. -/
  | kitty (shifted caps num : Bool)
  /-- `CSI 27 ; mods ; code ~`. -/
  | otherKeys (shifted caps num : Bool)
  /-- `CSI 1 ; mods letter`. -/
  | letter (caps num : Bool)
  /-- `CSI number ; mods ~`. -/
  | tilde (caps num : Bool)
  /-- The bytes of a plain key, of a letter with Ctrl, or of the backtab. -/
  | legacy
  /-- `CSI number ~`. -/
  | legacyTilde
  /-- `ESC O letter`. -/
  | ss3
  /-- An escape before the bytes of the key without Alt. -/
  | escaped
  deriving DecidableEq, Repr

def csi (params : List UInt8) (finalByte : UInt8) : List UInt8 :=
  0x1b :: 0x5b :: (params ++ [finalByte])

def modifierValue (mods : Modifiers) (caps num : Bool) : ℕ :=
  mods.kittyCode + 64 * caps.toNat + 128 * num.toNat

/-- Characters that are typed: no control characters. -/
def isText (ch : Char) : Bool := 0x20 ≤ ch.toNat && ch.toNat ≠ 0x7f

/-- The code point of a key. The private-use area is taken by functional keys. -/
def kittyNumber : KeyCode → Option ℕ
  | .char ch =>
    if isText ch ∧ ¬(57344 ≤ ch.toNat ∧ ch.toNat ≤ 63743) then some ch.toNat else none
  | .tab => some 9
  | .enter => some 13
  | .escape => some 27
  | .backspace => some 127
  | _ => none

/-- The code point a report gives for a key: for a shifted letter, that of its upper case too. -/
def reportedNumber (shifted : Bool) (code : KeyCode) (mods : Modifiers) : Option ℕ :=
  if shifted then
    match code with
    | .char ch => if mods.shift ∧ ch.isLower then some (ch.toNat - 32) else none
    | _ => none
  else kittyNumber code

def finalLetter : KeyCode → Option UInt8
  | .up => some 0x41
  | .down => some 0x42
  | .right => some 0x43
  | .left => some 0x44
  | .home => some 0x48
  | .end => some 0x46
  | .function 1 => some 0x50
  | .function 2 => some 0x51
  | .function 4 => some 0x53
  | _ => none

def tildeNumber : KeyCode → Option ℕ
  | .home => some 1
  | .insert => some 2
  | .delete => some 3
  | .end => some 4
  | .pageUp => some 5
  | .pageDown => some 6
  | .function 3 => some 13
  | .function 5 => some 15
  | .function 6 => some 17
  | .function 7 => some 18
  | .function 8 => some 19
  | .function 9 => some 20
  | .function 10 => some 21
  | .function 11 => some 23
  | .function 12 => some 24
  | _ => none

/-- The keys that move a cursor or a page. -/
def KeyCode.isNavigation : KeyCode → Bool
  | .up | .down | .left | .right | .home | .end | .insert | .delete | .pageUp | .pageDown => true
  | _ => false

def ss3Letter : KeyCode → Option UInt8
  | .function 3 => some 0x52
  | code => finalLetter code

/-- The bytes of an unmodified key that is typed. -/
def typedBytes : KeyCode → Option (List UInt8)
  | .char ch => if isText ch then some (String.utf8EncodeChar ch) else none
  | .enter => some [0x0d]
  | .tab => some [0x09]
  | .backspace => some [0x7f]
  | _ => none

def legacyBytes (code : KeyCode) (mods : Modifiers) : Option (List UInt8) :=
  if mods = .none then
    match code with
    | .escape => some [0x1b]
    | .function _ => none
    | code => (typedBytes code).orElse fun _ ↦ (finalLetter code).map (csi [])
  else if mods = .onlyShift then
    match code with
    | .tab => some (csi [] 0x5a)
    | _ => none
  else if mods = .onlyCtrl then
    match code with
    | .char ch => if ch.isLower then some [UInt8.ofNat (ch.toNat - 96)] else none
    | _ => none
  else none

def escapedBytes (code : KeyCode) (mods : Modifiers) : Option (List UInt8) :=
  if mods = .onlyAlt then (typedBytes code).map (0x1b :: ·)
  else if mods = .altShift then
    match code with
    | .char ch => if ch.isLower then some [0x1b, UInt8.ofNat (ch.toNat - 32)] else none
    | _ => none
  else none

/-- The bytes of a report of the chord, if there is one of the form. -/
def reportBytes (form : ReportForm) (code : KeyCode) (mods : Modifiers) : Option (List UInt8) :=
  match form with
  | .bareKitty =>
    if mods = .none then (kittyNumber code).map fun number ↦ csi (decimalBytes number) 0x75
    else none
  | .kitty shifted caps num =>
    (reportedNumber shifted code mods).map fun number ↦
      csi (decimalBytes number ++ 0x3b :: decimalBytes (modifierValue mods caps num)) 0x75
  | .otherKeys shifted caps num =>
    (reportedNumber shifted code mods).map fun number ↦
      csi (0x32 :: 0x37 :: 0x3b ::
        (decimalBytes (modifierValue mods caps num) ++ 0x3b :: decimalBytes number)) 0x7e
  | .letter caps num =>
    (finalLetter code).map
      (csi (decimalBytes 1 ++ 0x3b :: decimalBytes (modifierValue mods caps num)))
  | .tilde caps num =>
    (tildeNumber code).map fun number ↦
      csi (decimalBytes number ++ 0x3b :: decimalBytes (modifierValue mods caps num)) 0x7e
  | .legacy => legacyBytes code mods
  | .legacyTilde =>
    if mods = .none then (tildeNumber code).map fun number ↦ csi (decimalBytes number) 0x7e
    else none
  | .ss3 => if mods = .none then (ss3Letter code).map fun letter ↦ [0x1b, 0x4f, letter] else none
  | .escaped => escapedBytes code mods

/-! ## Reading a report with parameters -/

theorem decodeKittyMods_modifierValue (mods : Modifiers) (caps num : Bool) :
    decodeKittyMods (modifierValue mods caps num) = some mods := by
  obtain ⟨shift, alt, ctrl, super⟩ := mods
  revert shift alt ctrl super caps num
  decide

theorem modifierValue_lt (mods : Modifiers) (caps num : Bool) :
    modifierValue mods caps num < 2 ^ 32 := by
  obtain ⟨shift, alt, ctrl, super⟩ := mods
  revert shift alt ctrl super caps num
  decide

theorem toNat_decimalBytes (n : ℕ) : (decimalBytes n).map UInt8.toNat = Decimal.text n := by
  rw [decimalBytes, List.map_map]
  refine (List.map_congr_left fun c hc ↦ ?_).trans (List.map_id _)
  have hdigit := Decimal.isDigit_of_mem_text hc
  rw [Function.comp_apply, UInt8.toNat_ofNat']
  exact Nat.mod_eq_of_lt (by have := hdigit.2; omega)

theorem parseUnsigned_decimalBytes {limit n : ℕ} (h : n < limit) :
    parseUnsigned limit (decimalBytes n) = some n := by
  rw [parseUnsigned, toNat_decimalBytes, Decimal.parse_text h]

/-- The bytes of a number are digits. -/
theorem isDigitByte_of_mem {n : ℕ} {byte : UInt8} (h : byte ∈ decimalBytes n) :
    isDigitByte byte = true := by
  have hmem : byte.toNat ∈ Decimal.text n := by
    rw [← toNat_decimalBytes]
    exact List.mem_map_of_mem h
  obtain ⟨hlow, hhigh⟩ := Decimal.isDigit_of_mem_text hmem
  rw [isDigitByte, Bool.and_eq_true, decide_eq_true_eq, decide_eq_true_eq]
  exact ⟨hlow, hhigh⟩

theorem not_mem_decimalBytes (n : ℕ) {byte : UInt8} (h : isDigitByte byte = false) :
    byte ∉ decimalBytes n := by
  intro hmem
  rw [isDigitByte_of_mem hmem] at h
  cases h

theorem splitOn_decimalBytes {sep : UInt8} (hsep : isDigitByte sep = false) (n : ℕ) :
    (decimalBytes n).splitOn sep = [decimalBytes n] :=
  List.splitOn_eq_singleton (not_mem_decimalBytes n hsep)

theorem modifierField_decimalBytes {value : ℕ} (h : value < 2 ^ 32) :
    modifierField (decimalBytes value) = some (value, none) := by
  rw [modifierField, splitOn_decimalBytes (by decide)]
  simp only [parseUnsigned_decimalBytes h]
  rfl

theorem reportFields_one {number : ℕ} (h : number < 2 ^ 32) :
    reportFields (decimalBytes number) = some (number, 1, none) := by
  rw [reportFields, splitOn_decimalBytes (by decide)]
  simp only [parseUnsigned_decimalBytes h]
  rfl

theorem reportFields_two {number value : ℕ} (hnumber : number < 2 ^ 32) (hvalue : value < 2 ^ 32) :
    reportFields (decimalBytes number ++ 0x3b :: decimalBytes value) =
      some (number, value, none) := by
  have hsplit : (decimalBytes number ++ 0x3b :: decimalBytes value).splitOn 0x3b =
      [decimalBytes number, decimalBytes value] := by
    rw [List.splitOn_append_cons_self_of_not_mem (not_mem_decimalBytes number (by decide)),
      splitOn_decimalBytes (by decide)]
  rw [reportFields, hsplit]
  simp only [parseUnsigned_decimalBytes hnumber, modifierField_decimalBytes hvalue]
  rfl

/-- A report of a known key with known modifiers is read as such. -/
theorem parseKittyKey_csi {params : List UInt8} {finalByte : UInt8} {number value : ℕ}
    {code : KeyCode} {mods : Modifiers} (hfields : reportFields params = some (number, value, none))
    (hcode : reportKeyCode finalByte number = some code)
    (hmods : decodeKittyMods value = some mods) :
    parseKittyKey (csi params finalByte) = some (.event (.key code mods)) := by
  simp only [parseKittyKey, csi, List.getLast?_concat, List.dropLast_concat, hfields, hcode, hmods,
    Option.bind_eq_bind, Option.bind_some]
  rfl

theorem mem_of_splitOnce {sep : UInt8} {bytes head tail : List UInt8}
    (h : splitOnce sep bytes = some (head, tail)) : bytes = head ++ sep :: tail := by
  induction bytes generalizing head with
  | nil => cases h
  | cons byte rest ih =>
    rw [splitOnce] at h
    split at h
    · next heq =>
      cases h
      rw [heq, List.nil_append]
    · obtain ⟨⟨head', tail'⟩, hrest, heq⟩ := Option.map_eq_some_iff.mp h
      cases heq
      rw [ih hrest, List.cons_append]

theorem splitOnce_append {sep : UInt8} {head tail : List UInt8} (h : sep ∉ head) :
    splitOnce sep (head ++ sep :: tail) = some (head, tail) := by
  induction head with
  | nil => simp [splitOnce]
  | cons byte head ih =>
    rw [List.mem_cons, not_or] at h
    rw [List.cons_append, splitOnce, if_neg (Ne.symm h.1), ih h.2]
    rfl

/-- Only a report with three numbers is rewritten. -/
theorem modifyOtherKeysAsKitty_eq_none {bytes : List UInt8} (h : bytes.count 0x3b ≤ 1) :
    modifyOtherKeysAsKitty bytes = none := by
  unfold modifyOtherKeysAsKitty
  split
  · next rest =>
    rcases hsplit : (stripSuffix 0x7e rest).bind (splitOnce 0x3b) with _ | ⟨mods, code⟩
    · rfl
    · obtain ⟨stripped, hstripped, hsplit⟩ := Option.bind_eq_some_iff.mp hsplit
      rw [stripSuffix] at hstripped
      split at hstripped
      · cases hstripped
        have hmem : 0x3b ∈ rest := by
          refine List.mem_of_mem_dropLast ?_
          rw [mem_of_splitOnce hsplit]
          simp
        have hcount := List.count_pos_iff.mpr hmem
        simp only [List.count_cons] at h
        simp at h
        omega
      · cases hstripped
  · rfl

/-- A report with a modifier is rewritten with its numbers in the kitty order. -/
theorem modifyOtherKeysAsKitty_csi (value number : ℕ) :
    modifyOtherKeysAsKitty (csi (0x32 :: 0x37 :: 0x3b ::
        (decimalBytes value ++ 0x3b :: decimalBytes number)) 0x7e) =
      some (csi (decimalBytes number ++ 0x3b :: decimalBytes value) 0x75) := by
  have hstrip : stripSuffix 0x7e (decimalBytes value ++ 0x3b :: decimalBytes number ++ [0x7e]) =
      some (decimalBytes value ++ 0x3b :: decimalBytes number) := by
    rw [stripSuffix, List.getLast?_concat, if_pos rfl, List.dropLast_concat]
  have hsplit : splitOnce 0x3b (decimalBytes value ++ 0x3b :: decimalBytes number) =
      some (decimalBytes value, decimalBytes number) :=
    splitOnce_append (not_mem_decimalBytes value (by decide))
  have hne : ∀ n, decimalBytes n ≠ [] := fun n h ↦
    Decimal.text_ne_nil n (List.map_eq_nil_iff.mp h)
  have hall : ∀ n, (decimalBytes n).all isDigitByte = true := fun n ↦
    List.all_eq_true.mpr fun _ hmem ↦ isDigitByte_of_mem hmem
  simp only [csi, List.cons_append, modifyOtherKeysAsKitty]
  rw [hstrip, Option.bind_some, hsplit]
  simp [hne, hall]

/-! ## Reading a control sequence -/

theorem readControlSequence_append {params : List UInt8} {finalByte : UInt8}
    (hparams : ∀ byte ∈ params, isCsiFinalByte byte = false)
    (hfinal : isCsiFinalByte finalByte = true) :
    readControlSequence (params ++ [finalByte]) = (params ++ [finalByte], []) := by
  induction params with
  | nil => simp [readControlSequence, hfinal]
  | cons byte params ih =>
    have hbyte := hparams byte List.mem_cons_self
    have hrest := ih fun byte hmem ↦ hparams byte (List.mem_cons_of_mem _ hmem)
    simp [readControlSequence, hbyte, hrest]

theorem isCsiFinalByte_of_isDigit {byte : UInt8} (h : isDigitByte byte = true) :
    isCsiFinalByte byte = false := by
  simp only [isDigitByte, Bool.and_eq_true, decide_eq_true_eq] at h
  have hhigh : byte.toNat ≤ 57 := h.2
  simp only [isCsiFinalByte, Bool.and_eq_false_iff, decide_eq_false_iff_not]
  left
  intro hlow
  have hlow' : 64 ≤ byte.toNat := hlow
  omega

/-- A sequence that is neither a paste nor one of the plain ones, and names a key. -/
theorem readTerminalEvent_csi {params : List UInt8} {finalByte : UInt8} {key : KeyEvent}
    (hparams : ∀ byte ∈ params, isCsiFinalByte byte = false)
    (hfinal : isCsiFinalByte finalByte = true)
    (hpaste : params ++ [finalByte] ≠ [0x32, 0x30, 0x30, 0x7e])
    (hplain : plainCsi.lookup (params ++ [finalByte]) = none)
    (hkey : parseExtendedKey (csi params finalByte) = some (.event key)) :
    readTerminalEvent (csi params finalByte) = some (.key key, []) := by
  have hread : readEscapeEvent (0x5b :: (params ++ [finalByte])) = (.key key, []) := by
    rw [readEscapeEvent, if_pos rfl, readCsiEvent, readControlSequence_append hparams hfinal]
    simp only [if_neg hpaste]
    have hevent : parseCsiEvent (params ++ [finalByte]) = some (.key key) := by
      rw [parseCsiEvent, hplain]
      simp only
      rw [csi] at hkey
      rw [hkey]
    rw [hevent]
  rw [csi, readTerminalEvent]
  simp only [hread]
  rfl

/-- No plain sequence has parameters. -/
theorem lookup_plainCsi_eq_none {body : List UInt8} (h : 0x3b ∈ body) :
    plainCsi.lookup body = none := by
  rw [List.lookup_eq_none_iff]
  intro entry hentry
  have hnot : 0x3b ∉ entry.1 := by
    revert entry
    decide
  rw [bne_iff_ne]
  rintro rfl
  exact hnot h

theorem isCsiFinalByte_of_mem_two {number value : ℕ} {byte : UInt8}
    (h : byte ∈ decimalBytes number ++ 0x3b :: decimalBytes value) :
    isCsiFinalByte byte = false := by
  rcases List.mem_append.mp h with hmem | hmem
  · exact isCsiFinalByte_of_isDigit (isDigitByte_of_mem hmem)
  · rcases List.mem_cons.mp hmem with rfl | hmem
    · decide
    · exact isCsiFinalByte_of_isDigit (isDigitByte_of_mem hmem)

theorem readTerminalEvent_two {number value : ℕ} {finalByte : UInt8} {code : KeyCode}
    {mods : Modifiers} (hnumber : number < 2 ^ 32) (hvalue : value < 2 ^ 32)
    (hfinal : isCsiFinalByte finalByte = true)
    (hcode : reportKeyCode finalByte number = some code)
    (hmods : decodeKittyMods value = some mods) :
    readTerminalEvent (csi (decimalBytes number ++ 0x3b :: decimalBytes value) finalByte) =
      some (.key (.key code mods), []) := by
  have hsep : 0x3b ∈ decimalBytes number ++ 0x3b :: decimalBytes value ++ [finalByte] := by simp
  have hcount : (csi (decimalBytes number ++ 0x3b :: decimalBytes value) finalByte).count 0x3b
      ≤ 1 := by
    have hne : finalByte ≠ 0x3b := by
      rintro rfl
      exact absurd hfinal (by decide)
    have hzero : ∀ n, (decimalBytes n).count 0x3b = 0 := fun n ↦
      List.count_eq_zero.mpr (not_mem_decimalBytes n (by decide))
    simp [csi, List.count_append, hzero, hne]
  refine readTerminalEvent_csi (fun byte hmem ↦ isCsiFinalByte_of_mem_two hmem) hfinal ?_
    (lookup_plainCsi_eq_none hsep) ?_
  · intro hpaste
    rw [hpaste] at hsep
    exact absurd hsep (by decide)
  · rw [parseExtendedKey, modifyOtherKeysAsKitty_eq_none hcount, Option.getD_none]
    exact parseKittyKey_csi (reportFields_two hnumber hvalue) hcode hmods

theorem readTerminalEvent_otherKeys {number value : ℕ} {code : KeyCode} {mods : Modifiers}
    (hnumber : number < 2 ^ 32) (hvalue : value < 2 ^ 32)
    (hcode : reportKeyCode 0x75 number = some code) (hmods : decodeKittyMods value = some mods) :
    readTerminalEvent (csi (0x32 :: 0x37 :: 0x3b ::
        (decimalBytes value ++ 0x3b :: decimalBytes number)) 0x7e) =
      some (.key (.key code mods), []) := by
  have hsep : 0x3b ∈ 0x32 :: 0x37 :: 0x3b ::
      (decimalBytes value ++ 0x3b :: decimalBytes number) ++ [0x7e] := by simp
  refine readTerminalEvent_csi ?_ (by decide) ?_ (lookup_plainCsi_eq_none hsep) ?_
  · intro byte hmem
    simp only [List.mem_cons] at hmem
    rcases hmem with rfl | rfl | rfl | hmem
    · decide
    · decide
    · decide
    · exact isCsiFinalByte_of_mem_two hmem
  · intro hpaste
    rw [hpaste] at hsep
    exact absurd hsep (by decide)
  · rw [parseExtendedKey, modifyOtherKeysAsKitty_csi, Option.getD_some]
    exact parseKittyKey_csi (reportFields_two hnumber hvalue) hcode hmods

theorem readTerminalEvent_bare {number : ℕ} {code : KeyCode} (hnumber : number < 2 ^ 32)
    (hcode : reportKeyCode 0x75 number = some code) :
    readTerminalEvent (csi (decimalBytes number) 0x75) = some (.key (.key code .none), []) := by
  have hcount : (csi (decimalBytes number) 0x75).count 0x3b ≤ 1 := by
    have hzero : (decimalBytes number).count 0x3b = 0 :=
      List.count_eq_zero.mpr (not_mem_decimalBytes number (by decide))
    simp [csi, List.count_append, hzero]
  have hlast : (decimalBytes number ++ [0x75]).getLast? = some 0x75 := List.getLast?_concat
  refine readTerminalEvent_csi
    (fun byte hmem ↦ isCsiFinalByte_of_isDigit (isDigitByte_of_mem hmem)) (by decide) ?_ ?_ ?_
  · intro hpaste
    rw [hpaste] at hlast
    exact absurd hlast (by decide)
  · rw [List.lookup_eq_none_iff]
    intro entry hentry
    have hne : entry.1.getLast? ≠ some 0x75 := by
      revert entry
      decide
    rw [bne_iff_ne]
    rintro heq
    exact hne (heq ▸ hlast)
  · rw [parseExtendedKey, modifyOtherKeysAsKitty_eq_none hcount, Option.getD_none]
    exact parseKittyKey_csi (reportFields_one hnumber) hcode (by decide)

/-! ## The key a report names -/

theorem kittyKeyCode_of_number {code : KeyCode} {number : ℕ} (h : kittyNumber code = some number) :
    number < 2 ^ 32 ∧ reportKeyCode 0x75 number = some code := by
  have hfinal : ∀ n, reportKeyCode 0x75 n = kittyKeyCode n := fun n ↦ rfl
  rw [hfinal]
  cases code with
  | char ch =>
    change (if isText ch ∧ ¬(57344 ≤ ch.toNat ∧ ch.toNat ≤ 63743) then some ch.toNat else none) =
      some number at h
    split at h
    · next htext =>
      cases h
      have hlt : ch.toNat < 2 ^ 32 := ch.val.toNat_lt
      refine ⟨hlt, ?_⟩
      obtain ⟨htext, hprivate⟩ := htext
      simp only [isText, Bool.and_eq_true, decide_eq_true_eq] at htext
      have hvalid : ch.toNat.isValidChar := ch.valid
      unfold kittyKeyCode
      split
      · omega
      · omega
      · omega
      · omega
      · rw [if_neg hprivate, if_pos hvalid, Char.ofNat_toNat]
    · cases h
  | tab | enter | escape | backspace =>
    cases h
    exact ⟨by decide, rfl⟩
  | _ => cases h

theorem toNat_sub_of_isLower {ch : Char} (h : ch.isLower = true) :
    97 ≤ ch.toNat ∧ ch.toNat ≤ 122 := by
  simp only [Char.isLower, Bool.and_eq_true, decide_eq_true_eq] at h
  exact h

/-- What holds of every lower-case letter. -/
theorem forall_isLower {P : Char → Prop} (h : ∀ n < 26, P (Char.ofNat (97 + n))) {ch : Char}
    (hlower : ch.isLower = true) : P ch := by
  obtain ⟨hlow, hhigh⟩ := toNat_sub_of_isLower hlower
  have hch := h (ch.toNat - 97) (by omega)
  rwa [Nat.add_sub_cancel' hlow, Char.ofNat_toNat] at hch

/-- What holds of every character of ASCII that is typed. -/
theorem forall_ascii {P : Char → Prop} (h : ∀ n < 95, P (Char.ofNat (32 + n))) {ch : Char}
    (htext : isText ch = true) (hascii : ch.toNat < 128) : P ch := by
  simp only [isText, Bool.and_eq_true, decide_eq_true_eq] at htext
  have hch := h (ch.toNat - 32) (by omega)
  rwa [Nat.add_sub_cancel' htext.1, Char.ofNat_toNat] at hch

/-- The upper case of a letter, lowered, is the letter. -/
theorem toLower_ofNat_sub {ch : Char} (h : ch.isLower = true) :
    (Char.ofNat (ch.toNat - 32)).toLower = ch :=
  forall_isLower (P := fun ch ↦ (Char.ofNat (ch.toNat - 32)).toLower = ch) (by decide) h

theorem reportKeyCode_of_reportedNumber {shifted : Bool} {code : KeyCode} {mods : Modifiers}
    {number : ℕ} (h : reportedNumber shifted code mods = some number) :
    number < 2 ^ 32 ∧ ∃ code', reportKeyCode 0x75 number = some code' ∧
      (code' = code ∨ ∃ ch, code = .char ch ∧ ch.isLower = true ∧ mods.shift = true ∧
        code' = .char (Char.ofNat (ch.toNat - 32))) := by
  unfold reportedNumber at h
  split at h
  · split at h
    · next ch =>
      split at h
      · next hshift =>
        cases h
        obtain ⟨hlow, hhigh⟩ := toNat_sub_of_isLower hshift.2
        refine ⟨by omega, .char (Char.ofNat (ch.toNat - 32)), ?_,
          Or.inr ⟨ch, rfl, hshift.2, hshift.1, rfl⟩⟩
        exact forall_isLower (P := fun ch ↦ reportKeyCode 0x75 (ch.toNat - 32) =
          some (.char (Char.ofNat (ch.toNat - 32)))) (by decide) hshift.2
      · cases h
    · cases h
  · obtain ⟨hlt, hcode⟩ := kittyKeyCode_of_number h
    exact ⟨hlt, code, hcode, Or.inl rfl⟩

/-! ## The token of a key -/

theorem toLower_of_not_isUpper {ch : Char} (h : ch.isUpper = false) : ch.toLower = ch := by
  rw [Char.isUpper, decide_eq_false_iff_not] at h
  rw [Char.toLower, dif_neg h]

/-- What an event with modifiers is looked up by. -/
def keyToken (code : KeyCode) (mods : Modifiers) : Except MuxError KeyToken :=
  keyEventToToken (normalizeTextKey (.key code mods))

theorem keyToken_of_isEmpty_false {code : KeyCode} {mods : Modifiers} (h : mods.isEmpty = false) :
    keyToken code mods = .ok (normalizeKeyToken code mods) := by
  have hkey : normalizeTextKey (.key code mods) = .key code mods := by
    change (if mods.isEmpty then _ else KeyEvent.key code mods) = _
    rw [h]
    rfl
  rw [keyToken, hkey]
  rfl

theorem isEmpty_eq_false {mods : Modifiers} (h : mods ≠ .none) : mods.isEmpty = false := by
  obtain ⟨shift, alt, ctrl, super⟩ := mods
  revert shift alt ctrl super
  decide

variable {token : KeyToken} {code : KeyCode} {mods : Modifiers}

/-- The token of a chord, unless it is an unmodified key of navigation. -/
theorem keyToken_of_chord (hbindable : token.Bindable) (hchord : token.chord = some (code, mods))
    (hspace : token ≠ .char ' ') (hnav : mods = .none → code.isNavigation = false) :
    keyToken code mods = .ok token := by
  cases token with
  | char ch =>
    cases hchord
    have hne : ch ≠ ' ' := fun h ↦ hspace (h ▸ rfl)
    change Except.ok (if ch = ' ' then KeyToken.space else .char ch) = .ok (.char ch)
    rw [if_neg hne]
  | ctrl ch =>
    cases hchord
    rw [keyToken_of_isEmpty_false (by decide), normalizeKeyToken, if_pos rfl,
      toLower_of_not_isUpper hbindable]
  | alt ch =>
    cases hchord
    rw [keyToken_of_isEmpty_false (by decide), normalizeKeyToken, if_neg (by decide), if_pos rfl,
      toLower_of_not_isUpper hbindable]
  | key code' mods' =>
    cases hchord
    obtain ⟨hchar, hnone⟩ := hbindable
    by_cases hmods : mods = .none
    · obtain ⟨number, rfl⟩ := hnone hmods
      rw [hmods]
      rfl
    · rw [keyToken_of_isEmpty_false (isEmpty_eq_false hmods)]
      cases code with
      | char ch =>
        obtain ⟨hupper, -, hctrl, halt⟩ := hchar ch rfl
        rw [normalizeKeyToken, if_neg hctrl, if_neg halt, toLower_of_not_isUpper hupper]
      | _ => rfl
  | leader => cases hchord
  | enter | escape | backspace | tab | space =>
    cases hchord
    rfl
  | _ =>
    cases hchord
    exact absurd (hnav rfl) (by decide)

/-- A shifted letter has the same token whichever case it is reported in. -/
theorem keyToken_shifted {ch : Char} (hlower : ch.isLower = true) (hshift : mods.shift = true) :
    keyToken (.char (Char.ofNat (ch.toNat - 32))) mods = keyToken (.char ch) mods := by
  have hmods : mods ≠ .none := by
    rintro rfl
    cases hshift
  have hctrl : mods ≠ .onlyCtrl := by
    rintro rfl
    cases hshift
  have halt : mods ≠ .onlyAlt := by
    rintro rfl
    cases hshift
  have hupper : ch.isUpper = false := by
    obtain ⟨hlow, hhigh⟩ := toNat_sub_of_isLower hlower
    rw [Char.isUpper, decide_eq_false_iff_not]
    rintro ⟨-, hle⟩
    have hle' : ch.toNat ≤ 90 := hle
    omega
  rw [keyToken_of_isEmpty_false (isEmpty_eq_false hmods),
    keyToken_of_isEmpty_false (isEmpty_eq_false hmods), normalizeKeyToken, normalizeKeyToken,
    if_neg hctrl, if_neg halt, if_neg hctrl, if_neg halt, toLower_ofNat_sub hlower,
    toLower_of_not_isUpper hupper]

theorem readToken_of_key {bytes : List UInt8} {rest : List UInt8}
    (h : readTerminalEvent bytes = some (.key (.key code mods), rest)) :
    readToken bytes = (keyToken code mods).toOption := by
  rw [readToken, h, keyToken]

/-! ## Legacy bytes -/

theorem utf8EncodeChar_of_isAscii {ch : Char} (h : ch.toNat < 128) :
    String.utf8EncodeChar ch = [UInt8.ofNat ch.toNat] := by
  have hle : ch.val ≤ 127 := Nat.lt_succ_iff.mp h
  rw [String.utf8EncodeChar_eq_singleton (Char.utf8Size_eq_one_iff.mpr hle)]
  rfl

theorem readTerminalEvent_ascii {ch : Char} (htext : isText ch = true) (h : ch.toNat < 128) :
    readTerminalEvent [UInt8.ofNat ch.toNat] = some (.key (.char ch), []) :=
  forall_ascii (P := fun ch ↦
    readTerminalEvent [UInt8.ofNat ch.toNat] = some (.key (.char ch), [])) (by decide) htext h

theorem forall_byte {P : UInt8 → Prop} (h : ∀ n < 256, P (UInt8.ofNat n)) (byte : UInt8) :
    P byte := by
  have hbyte := h byte.toNat byte.toNat_lt
  rwa [UInt8.ofNat_toNat] at hbyte

/-- The first byte of a longer character says how long it is. -/
theorem utf8Width_head {ch : Char} (h : 128 ≤ ch.toNat) :
    ∃ first rest, String.utf8EncodeChar ch = first :: rest ∧ 0x80 ≤ first ∧
      utf8Width first = ch.utf8Size ∧ 1 < ch.utf8Size := by
  have hone : ch.utf8Size ≠ 1 := by
    intro hsize
    have hle : ch.toNat ≤ 127 := Char.utf8Size_eq_one_iff.mp hsize
    omega
  rcases ch.utf8Size_eq with hsize | hsize | hsize | hsize
  · exact absurd hsize hone
  · refine ⟨_, _, String.utf8EncodeChar_eq_cons_cons hsize, ?_⟩
    rw [hsize]
    exact forall_byte (P := fun byte ↦ 0x80 ≤ byte &&& 0x1f ||| 0xc0 ∧
      utf8Width (byte &&& 0x1f ||| 0xc0) = 2 ∧ 1 < 2) (by decide +kernel) _
  · refine ⟨_, _, String.utf8EncodeChar_eq_cons_cons_cons hsize, ?_⟩
    rw [hsize]
    exact forall_byte (P := fun byte ↦ 0x80 ≤ byte &&& 0x0f ||| 0xe0 ∧
      utf8Width (byte &&& 0x0f ||| 0xe0) = 3 ∧ 1 < 3) (by decide +kernel) _
  · refine ⟨_, _, String.utf8EncodeChar_eq_cons_cons_cons_cons hsize, ?_⟩
    rw [hsize]
    exact forall_byte (P := fun byte ↦ 0x80 ≤ byte &&& 0x07 ||| 0xf0 ∧
      utf8Width (byte &&& 0x07 ||| 0xf0) = 4 ∧ 1 < 4) (by decide +kernel) _

/-- A byte above ASCII is the first of a character. -/
theorem readTerminalEvent_high {first : UInt8} (h : 0x80 ≤ first) (rest : List UInt8) :
    readTerminalEvent (first :: rest) =
      some (.key (decodeUtf8Key first rest).1, (decodeUtf8Key first rest).2) := by
  have hlow : 128 ≤ first.toNat := h
  have hne : ∀ byte : UInt8, byte.toNat < 128 → first ≠ byte := by
    rintro byte hbyte rfl
    omega
  have hge : ∀ byte : UInt8, byte.toNat ≤ 128 → ¬first < byte := by
    intro byte hbyte hlt
    have hlt' : first.toNat < byte.toNat := hlt
    omega
  rw [readTerminalEvent, if_neg (not_or.mpr ⟨hne 0x0d (by decide), hne 0x0a (by decide)⟩),
    if_neg (hne 0x09 (by decide)), if_neg (hne 0x7f (by decide)), if_neg (hne 0x1b (by decide)),
    if_neg (hge 0x20 (by decide)), if_neg (hge 0x80 (by decide))]

theorem readTerminalEvent_utf8 {ch : Char} (htext : isText ch = true) :
    readTerminalEvent (String.utf8EncodeChar ch) = some (.key (.char ch), []) := by
  by_cases hascii : ch.toNat < 128
  · rw [utf8EncodeChar_of_isAscii hascii]
    exact readTerminalEvent_ascii htext hascii
  · obtain ⟨first, rest, hbytes, hfirst, hwidth, hsize⟩ := utf8Width_head (Nat.le_of_not_lt hascii)
    have hlength : rest.length = ch.utf8Size - 1 := by
      have hlength := String.length_utf8EncodeChar ch
      rw [hbytes, List.length_cons] at hlength
      omega
    have hdecode : (first :: rest).toByteArray.utf8DecodeChar? 0 = some ch := by
      have hdecode := ByteArray.utf8DecodeChar?_utf8EncodeChar_append (b := ByteArray.empty)
        (c := ch)
      rwa [ByteArray.append_empty, hbytes] at hdecode
    have hkey : decodeUtf8Key first rest = (.char ch, []) := by
      simp only [decodeUtf8Key, hwidth]
      rw [if_neg (by omega), ← hlength, List.take_length, List.drop_length,
        if_neg (by rw [List.length_cons]; omega), hdecode]
    rw [hbytes, readTerminalEvent_high hfirst, hkey]

/-! ## Every form -/

/-- The reports that are read as something else than the key they name: an unmodified key of
navigation with a parameter, Home and End by number with one or after `ESC O`, and an escape before
anything but a character of ASCII, or before one that starts a sequence. -/
def Misread (form : ReportForm) (code : KeyCode) (mods : Modifiers) : Bool :=
  match form with
  | .letter _ _ => mods = .none && code.isNavigation
  | .tilde _ _ => code = .home || code = .end || (mods = .none && code.isNavigation)
  | .ss3 => code = .home || code = .end
  | .escaped =>
    match code with
    | .char ch => ch = '[' || (ch = 'o' && mods = .altShift) || !isAscii ch
    | _ => true
  | _ => false

/-- The token a report is read as. The bytes of Ctrl with I, J and M are those of Tab and Enter. -/
def reportedToken (form : ReportForm) (token : KeyToken) : KeyToken :=
  if form = .legacy then
    if token = .ctrl 'i' then .tab
    else if token = .ctrl 'j' ∨ token = .ctrl 'm' then .enter
    else token
  else token

theorem reportKeyCode_letter {letter : UInt8} (h : finalLetter code = some letter) :
    isCsiFinalByte letter = true ∧ reportKeyCode letter 1 = some code := by
  unfold finalLetter at h
  split at h
  all_goals first
    | cases h; exact ⟨by decide, rfl⟩
    | cases h

theorem reportKeyCode_tilde {number : ℕ} (h : tildeNumber code = some number)
    (hhome : code ≠ .home) (hend : code ≠ .end) :
    number < 2 ^ 32 ∧ reportKeyCode 0x7e number = some code := by
  unfold tildeNumber at h
  split at h
  all_goals first
    | exact absurd rfl hhome
    | exact absurd rfl hend
    | cases h; exact ⟨by decide, rfl⟩
    | cases h

/-- No key with a code point is one of navigation. -/
theorem isNavigation_of_reportedNumber {shifted : Bool} {number : ℕ}
    (h : reportedNumber shifted code mods = some number) : code.isNavigation = false := by
  unfold reportedNumber at h
  split at h
  · split at h
    · rfl
    · cases h
  · cases code with
    | char | enter | tab | backspace | escape | function => rfl
    | _ => cases h

section Chord

variable {bytes : List UInt8} (hbindable : token.Bindable)
  (hchord : token.chord = some (code, mods)) (hspace : token ≠ .char ' ')

include hbindable hchord hspace

theorem readToken_kitty {shifted caps num : Bool}
    (h : reportBytes (.kitty shifted caps num) code mods = some bytes) :
    readToken bytes = some token := by
  obtain ⟨number, hnumber, rfl⟩ := Option.map_eq_some_iff.mp h
  obtain ⟨hlt, code', hcode, hsame⟩ := reportKeyCode_of_reportedNumber hnumber
  have htoken := keyToken_of_chord hbindable hchord hspace
    fun _ ↦ isNavigation_of_reportedNumber hnumber
  rw [readToken_of_key (readTerminalEvent_two hlt (modifierValue_lt mods caps num) (by decide) hcode
    (decodeKittyMods_modifierValue mods caps num))]
  rcases hsame with rfl | ⟨ch, rfl, hlower, hshift, rfl⟩
  · rw [htoken]
    rfl
  · rw [keyToken_shifted hlower hshift, htoken]
    rfl

theorem readToken_otherKeys {shifted caps num : Bool}
    (h : reportBytes (.otherKeys shifted caps num) code mods = some bytes) :
    readToken bytes = some token := by
  obtain ⟨number, hnumber, rfl⟩ := Option.map_eq_some_iff.mp h
  obtain ⟨hlt, code', hcode, hsame⟩ := reportKeyCode_of_reportedNumber hnumber
  have htoken := keyToken_of_chord hbindable hchord hspace
    fun _ ↦ isNavigation_of_reportedNumber hnumber
  rw [readToken_of_key (readTerminalEvent_otherKeys hlt (modifierValue_lt mods caps num) hcode
    (decodeKittyMods_modifierValue mods caps num))]
  rcases hsame with rfl | ⟨ch, rfl, hlower, hshift, rfl⟩
  · rw [htoken]
    rfl
  · rw [keyToken_shifted hlower hshift, htoken]
    rfl

theorem readToken_bareKitty (h : reportBytes .bareKitty code mods = some bytes) :
    readToken bytes = some token := by
  rw [reportBytes] at h
  split at h
  · next hmods =>
    obtain ⟨number, hnumber, rfl⟩ := Option.map_eq_some_iff.mp h
    obtain ⟨hlt, hcode⟩ := kittyKeyCode_of_number hnumber
    have hreported : reportedNumber false code mods = some number := hnumber
    have hnav := isNavigation_of_reportedNumber hreported
    rw [readToken_of_key (readTerminalEvent_bare hlt hcode), ← hmods,
      keyToken_of_chord hbindable hchord hspace fun _ ↦ hnav]
    rfl
  · cases h

theorem readToken_letter {caps num : Bool} (hread : Misread (.letter caps num) code mods = false)
    (h : reportBytes (.letter caps num) code mods = some bytes) : readToken bytes = some token := by
  obtain ⟨letter, hletter, rfl⟩ := Option.map_eq_some_iff.mp h
  obtain ⟨hfinal, hcode⟩ := reportKeyCode_letter hletter
  have hnav : mods = .none → code.isNavigation = false := by
    intro hmods
    simpa [Misread, hmods] using hread
  rw [readToken_of_key (readTerminalEvent_two (by decide) (modifierValue_lt mods caps num) hfinal
    hcode (decodeKittyMods_modifierValue mods caps num)),
    keyToken_of_chord hbindable hchord hspace hnav]
  rfl

theorem readToken_tilde {caps num : Bool} (hread : Misread (.tilde caps num) code mods = false)
    (h : reportBytes (.tilde caps num) code mods = some bytes) : readToken bytes = some token := by
  obtain ⟨number, hnumber, rfl⟩ := Option.map_eq_some_iff.mp h
  simp only [Misread, Bool.or_eq_false_iff, Bool.and_eq_false_iff, decide_eq_false_iff_not] at hread
  obtain ⟨⟨hhome, hend⟩, hplain⟩ := hread
  obtain ⟨hlt, hcode⟩ := reportKeyCode_tilde hnumber hhome hend
  have hnav : mods = .none → code.isNavigation = false := fun hmods ↦
    hplain.resolve_left (absurd hmods)
  rw [readToken_of_key (readTerminalEvent_two hlt (modifierValue_lt mods caps num) (by decide) hcode
    (decodeKittyMods_modifierValue mods caps num)),
    keyToken_of_chord hbindable hchord hspace hnav]
  rfl

theorem readToken_legacyTilde (h : reportBytes .legacyTilde code mods = some bytes) :
    readToken bytes = some token := by
  rw [reportBytes] at h
  split at h
  · next hmods =>
    subst hmods
    obtain ⟨number, hnumber, rfl⟩ := Option.map_eq_some_iff.mp h
    cases token with
    | key code' mods' =>
      cases hchord
      obtain ⟨function, rfl⟩ := hbindable.2 rfl
      unfold tildeNumber at hnumber
      split at hnumber
      all_goals cases hnumber
      all_goals next heq => cases heq <;> decide +kernel
    | home | «end» | insert | delete | pageUp | pageDown =>
      cases hchord
      cases hnumber
      decide +kernel
    | _ => cases hchord <;> cases hnumber
  · cases h

theorem readToken_ss3 (hread : Misread .ss3 code mods = false)
    (h : reportBytes .ss3 code mods = some bytes) : readToken bytes = some token := by
  rw [reportBytes] at h
  split at h
  · next hmods =>
    subst hmods
    obtain ⟨letter, hletter, rfl⟩ := Option.map_eq_some_iff.mp h
    cases token with
    | key code' mods' =>
      cases hchord
      obtain ⟨function, rfl⟩ := hbindable.2 rfl
      unfold ss3Letter finalLetter at hletter
      split at hletter
      · cases hletter
        next heq =>
        cases heq
        decide
      · split at hletter
        all_goals cases hletter
        all_goals next heq => cases heq <;> decide
    | up | down | left | right =>
      cases hchord
      cases hletter
      decide
    | home | «end» =>
      cases hchord
      cases hread
    | _ => cases hchord <;> cases hletter
  · cases h

theorem readToken_legacy (h : reportBytes .legacy code mods = some bytes) :
    readToken bytes = some (reportedToken .legacy token) := by
  change legacyBytes code mods = some bytes at h
  cases token with
  | char ch =>
    cases hchord
    have hne : ch ≠ ' ' := fun heq ↦ hspace (heq ▸ rfl)
    rw [legacyBytes, if_pos rfl] at h
    change ((if isText ch then some (String.utf8EncodeChar ch) else none : Option _).orElse
      fun _ ↦ none) = some bytes at h
    split at h
    · next htext =>
      cases h
      rw [readToken, readTerminalEvent_utf8 htext]
      change some (if ch = ' ' then KeyToken.space else .char ch) = some (.char ch)
      rw [if_neg hne]
    · cases h
  | ctrl ch =>
    cases hchord
    rw [legacyBytes, if_neg (by decide), if_neg (by decide), if_pos rfl] at h
    split at h
    · next hlower =>
      cases h
      exact forall_isLower (P := fun ch ↦ readToken [UInt8.ofNat (ch.toNat - 96)] =
        some (reportedToken .legacy (.ctrl ch))) (by decide) hlower
    · cases h
  | key code' mods' =>
    cases hchord
    unfold legacyBytes at h
    split at h
    · next hmods =>
      obtain ⟨number, rfl⟩ := hbindable.2 hmods
      cases h
    · split at h
      · next hmods =>
        split at h
        · cases h
          subst hmods
          decide
        · cases h
      · split at h
        · next hmods =>
          split at h
          · next ch => exact absurd hmods (hbindable.1 ch rfl).2.2.1
          · cases h
        · cases h
  | alt ch =>
    cases hchord
    cases h
  | space | enter | tab | backspace | escape | up | down | left | right | home | «end» =>
    cases hchord
    cases h
    decide
  | _ => cases hchord <;> cases h

theorem readToken_escaped (hread : Misread .escaped code mods = false)
    (h : reportBytes .escaped code mods = some bytes) : readToken bytes = some token := by
  change escapedBytes code mods = some bytes at h
  cases token with
  | alt ch =>
    cases hchord
    rw [escapedBytes, if_pos rfl] at h
    obtain ⟨typed, htyped, rfl⟩ := Option.map_eq_some_iff.mp h
    change (if isText ch then some (String.utf8EncodeChar ch) else none) = some typed at htyped
    split at htyped
    · next htext =>
      cases htyped
      change (decide (ch = '[') || (decide (ch = 'o') && _) || !isAscii ch) = false at hread
      simp only [Bool.or_eq_false_iff, Bool.not_eq_false', decide_eq_false_iff_not, isAscii,
        decide_eq_true_eq] at hread
      obtain ⟨⟨hbracket, -⟩, hascii⟩ := hread
      rw [utf8EncodeChar_of_isAscii hascii]
      exact forall_ascii (P := fun ch ↦ ch.isUpper = false → ch ≠ '[' →
        readToken [0x1b, UInt8.ofNat ch.toNat] = some (.alt ch)) (by decide) htext hascii hbindable
        hbracket
    · cases htyped
  | key code' mods' =>
    cases hchord
    unfold escapedBytes at h
    split at h
    · next hmods =>
      -- a character with Alt alone has a token of its own, and the rest is misread
      cases code with
      | char ch => exact absurd hmods (hbindable.1 ch rfl).2.2.2
      | _ => cases hread
    · split at h
      · next hmods =>
        subst hmods
        split at h
        · next ch =>
          split at h
          · next hlower =>
            cases h
            exact forall_isLower (P := fun ch ↦ Misread .escaped (.char ch) .altShift = false →
              readToken [0x1b, UInt8.ofNat (ch.toNat - 32)] = some (.key (.char ch) .altShift))
              (by decide) hlower hread
          · cases h
        · cases h
      · cases h
  | _ => cases hchord <;> cases h

end Chord

/-- A chord with a notation is found by its token whichever way the host terminal reports it. -/
theorem readToken_report {keys : List Char} {form : ReportForm} {bytes : List UInt8}
    (hkeys : parseKeySequence keys = .ok [token]) (hchord : token.chord = some (code, mods))
    (hspace : token ≠ .char ' ') (hread : Misread form code mods = false)
    (hbytes : reportBytes form code mods = some bytes) :
    readToken bytes = some (reportedToken form token) := by
  have hbindable : token.Bindable := parseKeySequence_bindable hkeys token List.mem_cons_self
  cases form with
  | bareKitty => exact readToken_bareKitty hbindable hchord hspace hbytes
  | kitty shifted caps num => exact readToken_kitty hbindable hchord hspace hbytes
  | otherKeys shifted caps num => exact readToken_otherKeys hbindable hchord hspace hbytes
  | letter caps num => exact readToken_letter hbindable hchord hspace hread hbytes
  | tilde caps num => exact readToken_tilde hbindable hchord hspace hread hbytes
  | legacy => exact readToken_legacy hbindable hchord hspace hbytes
  | legacyTilde => exact readToken_legacyTilde hbindable hchord hspace hbytes
  | ss3 => exact readToken_ss3 hbindable hchord hspace hread hbytes
  | escaped => exact readToken_escaped hbindable hchord hspace hread hbytes

/-- `<C-S-t>`, reported with Caps Lock on. -/
theorem readToken_report_ctrl_shift_t :
    readToken (csi (decimalBytes 116 ++ 0x3b :: decimalBytes 70) 0x75) =
      some (.key (.char 't') ⟨true, false, true, false⟩) := by
  have hkeys : parseKeySequence ['<', 'C', '-', 'S', '-', 't', '>'] =
      .ok [.key (.char 't') ⟨true, false, true, false⟩] := by decide
  have hbytes : reportBytes (.kitty false true false) (.char 't') ⟨true, false, true, false⟩ =
      some (csi (decimalBytes 116 ++ 0x3b :: decimalBytes 70) 0x75) := by decide
  exact readToken_report hkeys rfl (by decide) (by decide) hbytes

/-- Ctrl+I has the notation `<C-i>` and the byte of Tab. -/
theorem ctrl_i_read_as_tab :
    parseKeySequence ['<', 'C', '-', 'i', '>'] = .ok [.ctrl 'i'] ∧
      KeyToken.chord (.ctrl 'i') = some (.char 'i', .onlyCtrl) ∧
      reportBytes .legacy (.char 'i') .onlyCtrl = some [0x09] ∧
      readToken [0x09] = some .tab ∧ KeyToken.tab ≠ .ctrl 'i' := by
  decide

end Embers
