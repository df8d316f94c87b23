import Embers.Keeper.Router
import Embers.Lib.Needles

/-!
# What the host terminal replies

When a client attaches it asks the host terminal who it is and what it can, and reads its input until
the reply to the last query, the device attributes. `HostReplies.parse` picks the replies out of what was
read. What else was read are keys, typed before and between the replies.
-/

namespace Embers.Client

open Needles

/-! ## Replies -/

/-- What the host terminal answered. -/
structure HostReplies where
  /-- The version as it was sent; the source keeps it as text. -/
  version : Option (List UInt8)
  termcaps : Finset String
  answeredTermcaps : Finset String
  kittyGraphics : Bool
  deviceAttributes : Bool
  deriving DecidableEq

/-- `ESC \`, which ends a control string. -/
def stringTerminator : List UInt8 := [esc, backslash]

/-- The bytes of ASCII text. -/
def ascii (text : String) : List UInt8 := text.toList.map fun ch ↦ UInt8.ofNat ch.toNat

/-- `u8::from_str_radix` of two characters: the first may be a plus sign. -/
def hexByte (high low : UInt8) : Option UInt8 := do
  let hi ← if high = 0x2b then some 0 else hexDigit high
  let lo ← hexDigit low
  return UInt8.ofNat (hi * 16 + lo)

def hexDecode : List UInt8 → Option (List UInt8)
  | [] => some []
  | [_] => none
  | high :: low :: rest => do
    let byte ← hexByte high low
    let bytes ← hexDecode rest
    return byte :: bytes

/-- The capability that an entry of a reply names. -/
def termcapName (entry : List UInt8) : Option String :=
  (hexDecode (entry.takeWhile (· ≠ 0x3d))).bind fun name ↦ String.fromUTF8? ⟨name.toArray⟩

/-- The capabilities that the entries of a reply name, separated by semicolons, unless one is not
valid. -/
def termcapReplyNames (entries : List UInt8) : Option (List String) :=
  (entries.splitOn 0x3b).mapM termcapName

/-- The image id of the graphics query, as the reply has it. -/
def graphicsQueryId : List UInt8 := ascii "i=1162691154"

/-- Whether an APC string answers the graphics query. -/
def isGraphicsQueryReply (body : List UInt8) : Bool :=
  match body with
  | 0x47 :: rest => (rest.takeWhile (· ≠ 0x3b)).splitOn 0x2c |>.any (· = graphicsQueryId)
  | _ => false

namespace HostReplies

def default : HostReplies := ⟨none, ∅, ∅, false, false⟩

def addDcs (replies : HostReplies) (body : List UInt8) : HostReplies :=
  match body with
  | 0x3e :: 0x7c :: version => { replies with version := some version }
  | 0x31 :: 0x2b :: 0x72 :: found =>
    let names := ((termcapReplyNames found).getD []).toFinset
    { replies with
      termcaps := replies.termcaps ∪ names
      answeredTermcaps := replies.answeredTermcaps ∪ names }
  | 0x30 :: 0x2b :: 0x72 :: missing =>
    let names := ((termcapReplyNames missing).getD []).toFinset
    { replies with answeredTermcaps := replies.answeredTermcaps ∪ names }
  | _ => replies

def addApc (replies : HostReplies) (body : List UInt8) : HostReplies :=
  if isGraphicsQueryReply body then { replies with kittyGraphics := true } else replies

def addCsi (replies : HostReplies) (body : List UInt8) (final : UInt8) : HostReplies :=
  if final = 0x63 ∧ body.head? = some 0x3f then { replies with deviceAttributes := true }
  else replies

end HostReplies

def isCsiFinal (byte : UInt8) : Bool := 0x40 ≤ byte ∧ byte ≤ 0x7e

/-- The loop of `parse`, which has read some bytes ahead and skips them. -/
def parseFrom : ℕ → HostReplies → List UInt8 → HostReplies
  | _, replies, [] => replies
  | skip + 1, replies, _ :: rest => parseFrom skip replies rest
  | 0, replies, byte :: rest =>
    if byte ≠ esc then parseFrom 0 replies rest
    else
      match rest.head? with
      | some 0x50 =>
        match find stringTerminator rest.tail with
        | none => replies
        | some length =>
          parseFrom (1 + length + 2) (replies.addDcs (rest.tail.take length)) rest
      | some 0x5f =>
        match find stringTerminator rest.tail with
        | none => replies
        | some length =>
          parseFrom (1 + length + 2) (replies.addApc (rest.tail.take length)) rest
      | some 0x5b =>
        match rest.tail.findIdx? isCsiFinal with
        | none => replies
        | some length =>
          parseFrom (1 + length + 1)
            (replies.addCsi (rest.tail.take length) (rest.tail.getD length 0)) rest
      | _ => parseFrom 0 replies rest

def HostReplies.parse (bytes : List UInt8) : HostReplies := parseFrom 0 .default bytes

/-! ## Reading -/

def maxHostReplyBytes : ℕ := 4096

def isParameter (byte : UInt8) : Bool := 0x30 ≤ byte ∧ byte ≤ 0x39 ∨ byte = 0x3b

/-- Whether the bytes end with a device attributes reply. -/
def endsWithDeviceAttributes (bytes : List UInt8) : Bool :=
  if bytes.getLast? = some 0x63 then
    match rfind [esc, 0x5b, 0x3f] bytes.dropLast with
    | none => false
    | some start => (bytes.dropLast.drop (start + 3)).all isParameter
  else false

/-- The bytes that are read of those that come while the client waits, and those that are left. -/
def readReplies (bytes : List UInt8) : List UInt8 → List UInt8 × List UInt8
  | [] => (bytes, [])
  | byte :: input =>
    if bytes.length < maxHostReplyBytes ∧ endsWithDeviceAttributes bytes = false then
      readReplies (bytes ++ [byte]) input
    else (bytes, byte :: input)

/-- The replies in what comes while the client waits. -/
def readHostReplies (input : List UInt8) : HostReplies := .parse (readReplies [] input).1

/-! ## What the loop does at each byte -/

section Loop

variable {replies : HostReplies} {byte : UInt8} {rest body : List UInt8}

theorem parseFrom_skip (skip : ℕ) (replies : HostReplies) (bytes : List UInt8) :
    parseFrom skip replies bytes = parseFrom 0 replies (bytes.drop skip) := by
  induction skip generalizing bytes with
  | zero => rfl
  | succ skip ih =>
    cases bytes with
    | nil => rfl
    | cons byte rest => rw [parseFrom, ih, List.drop_succ_cons]

theorem parseFrom_byte (h : byte ≠ esc) :
    parseFrom 0 replies (byte :: rest) = parseFrom 0 replies rest := by
  rw [parseFrom, if_pos h]

/-- What an escape does is decided by the byte after it. -/
theorem parseFrom_esc : parseFrom 0 replies (esc :: rest) =
    match rest.head? with
    | some 0x50 =>
      match find stringTerminator rest.tail with
      | none => replies
      | some length => parseFrom (1 + length + 2) (replies.addDcs (rest.tail.take length)) rest
    | some 0x5f =>
      match find stringTerminator rest.tail with
      | none => replies
      | some length => parseFrom (1 + length + 2) (replies.addApc (rest.tail.take length)) rest
    | some 0x5b =>
      match rest.tail.findIdx? isCsiFinal with
      | none => replies
      | some length =>
        parseFrom (1 + length + 1)
          (replies.addCsi (rest.tail.take length) (rest.tail.getD length 0)) rest
    | _ => parseFrom 0 replies rest := by
  rw [parseFrom, if_neg (not_not_intro rfl)]

/-- The bytes that open a sequence after an escape. -/
def Opens (byte : UInt8) : Prop := byte = 0x50 ∨ byte = 0x5f ∨ byte = 0x5b

/-- An escape that opens nothing. -/
theorem parseFrom_escape (h : ∀ byte ∈ rest.head?, ¬Opens byte) :
    parseFrom 0 replies (esc :: rest) = parseFrom 0 replies rest := by
  rw [parseFrom_esc]
  cases hhead : rest.head? with
  | none => rfl
  | some byte =>
    obtain ⟨hdcs, hapc, hcsi⟩ : byte ≠ 0x50 ∧ byte ≠ 0x5f ∧ byte ≠ 0x5b := by
      simpa [Opens] using h byte hhead
    split
    · next heq => exact absurd (Option.some.inj heq) hdcs
    · next heq => exact absurd (Option.some.inj heq) hapc
    · next heq => exact absurd (Option.some.inj heq) hcsi
    · rfl

/-- A string that ends where its body does. -/
def Closed (body : List UInt8) : Prop :=
  find stringTerminator (body ++ stringTerminator) = some body.length

theorem Closed.find_rest (h : Closed body) (rest : List UInt8) :
    Needles.find stringTerminator (body ++ (stringTerminator ++ rest)) = some body.length := by
  rw [← List.append_assoc]
  exact find_append (List.cons_ne_nil _ _) h rest

theorem closed_of_notMem (h : esc ∉ body) : Closed body := find_of_notMem h

theorem drop_terminated (body rest : List UInt8) (byte : UInt8) :
    (byte :: (body ++ (stringTerminator ++ rest))).drop (1 + body.length + 2) = rest := by
  rw [Nat.add_assoc, Nat.add_comm, List.drop_succ_cons, ← List.append_assoc]
  exact List.drop_left' (List.length_append.trans rfl)

theorem parseFrom_dcs (h : Closed body) :
    parseFrom 0 replies (esc :: 0x50 :: (body ++ (stringTerminator ++ rest))) =
      parseFrom 0 (replies.addDcs body) rest := by
  rw [parseFrom_esc, List.head?_cons, List.tail_cons]
  simp only [h.find_rest rest, List.take_left]
  rw [parseFrom_skip, drop_terminated]

theorem parseFrom_apc (h : Closed body) :
    parseFrom 0 replies (esc :: 0x5f :: (body ++ (stringTerminator ++ rest))) =
      parseFrom 0 (replies.addApc body) rest := by
  rw [parseFrom_esc, List.head?_cons, List.tail_cons]
  simp only [h.find_rest rest, List.take_left]
  rw [parseFrom_skip, drop_terminated]

theorem parseFrom_csi (hbody : ∀ byte ∈ body, isCsiFinal byte = false)
    (hfinal : isCsiFinal byte = true) :
    parseFrom 0 replies (esc :: 0x5b :: (body ++ byte :: rest)) =
      parseFrom 0 (replies.addCsi body byte) rest := by
  have hnone : body.findIdx? isCsiFinal = none := List.findIdx?_eq_none_iff.mpr hbody
  have hfind : (body ++ byte :: rest).findIdx? isCsiFinal = some body.length := by
    rw [List.findIdx?_append, hnone, Option.none_or, List.findIdx?_cons, if_pos hfinal]
    simp
  have hget : (body ++ byte :: rest).getD body.length 0 = byte := by
    simp [List.getD_eq_getElem?_getD]
  have hdrop : ((0x5b : UInt8) :: (body ++ byte :: rest)).drop (1 + body.length + 1) = rest := by
    rw [Nat.add_assoc, Nat.add_comm, List.drop_succ_cons, List.append_cons]
    exact List.drop_left' (List.length_append.trans rfl)
  rw [parseFrom_esc, List.head?_cons, List.tail_cons]
  simp only [hfind, List.take_left, hget]
  rw [parseFrom_skip, hdrop]

/-- A sequence that nothing ends. -/
theorem parseFrom_openString {opener : UInt8} (hopener : opener = 0x50 ∨ opener = 0x5f)
    (h : find stringTerminator body = none) :
    parseFrom 0 replies (esc :: opener :: body) = replies := by
  rw [parseFrom_esc, List.head?_cons, List.tail_cons]
  obtain rfl | rfl := hopener
  · simp only [h]
  · simp only [h]

theorem parseFrom_openCsi (h : ∀ byte ∈ body, isCsiFinal byte = false) :
    parseFrom 0 replies (esc :: 0x5b :: body) = replies := by
  have hnone : body.findIdx? isCsiFinal = none := List.findIdx?_eq_none_iff.mpr h
  rw [parseFrom_esc, List.head?_cons, List.tail_cons]
  simp only [hnone]

end Loop

/-! ## Bytes that are passed over -/

theorem prefix_append_cases {α : Type} {part xs ys : List α} (h : part <+: xs ++ ys) :
    part <+: xs ∨ ∃ rest, part = xs ++ rest ∧ rest <+: ys := by
  obtain hpart | ⟨rest, rfl⟩ := List.prefix_or_prefix_of_prefix h (List.prefix_append xs ys)
  · exact .inl hpart
  · exact .inr ⟨rest, rfl, (List.prefix_append_right_inj xs).mp h⟩

/-- A part of a string is not ended, or has all of it. -/
theorem Closed.part {body rest part : List UInt8} (h : Closed body)
    (hpart : part <+: body ++ (stringTerminator ++ rest)) :
    find stringTerminator part = none ∨
      ∃ more, part = body ++ (stringTerminator ++ more) ∧ more <+: rest := by
  rw [← List.append_assoc] at hpart
  obtain hstart | ⟨more, rfl, hmore⟩ := prefix_append_cases hpart
  · obtain hlt | hge := Nat.lt_or_ge part.length (body ++ stringTerminator).length
    · rw [List.length_append] at hlt
      exact .inl (find_start (List.cons_ne_nil _ _) h hstart hlt)
    · obtain rfl := hstart.eq_of_length_le hge
      exact .inr ⟨[], by rw [List.append_nil], List.nil_prefix⟩
  · exact .inr ⟨more, List.append_assoc .., hmore⟩

/-- Bytes that leave no sequence open and have no reply in them. -/
inductive Passed : List UInt8 → Prop where
  | nil : Passed []
  | byte {byte : UInt8} {rest : List UInt8} (h : byte ≠ esc) (hrest : Passed rest) :
      Passed (byte :: rest)
  | escape {rest : List UInt8} (h : ∀ byte ∈ rest.head?, ¬Opens byte) (hrest : Passed rest) :
      Passed (esc :: rest)
  | csi {body rest : List UInt8} {final : UInt8} (hbody : ∀ byte ∈ body, isCsiFinal byte = false)
      (hfinal : isCsiFinal final = true) (h : final = 0x63 → body.head? ≠ some 0x3f)
      (hrest : Passed rest) : Passed (esc :: 0x5b :: (body ++ final :: rest))
  | dcs {body rest : List UInt8} (hbody : Closed body)
      (h : ∀ replies : HostReplies, replies.addDcs body = replies) (hrest : Passed rest) :
      Passed (esc :: 0x50 :: (body ++ (stringTerminator ++ rest)))
  | apc {body rest : List UInt8} (hbody : Closed body) (h : isGraphicsQueryReply body = false)
      (hrest : Passed rest) : Passed (esc :: 0x5f :: (body ++ (stringTerminator ++ rest)))

namespace Passed

variable {keys part tail : List UInt8} {replies : HostReplies}

/-- Passed over, at the end or before an escape. -/
theorem parseFrom_append (h : Passed keys) (htail : ∀ byte ∈ tail.head?, byte = esc) :
    parseFrom 0 replies (keys ++ tail) = parseFrom 0 replies tail := by
  induction h with
  | nil => rfl
  | byte h _ ih => rw [List.cons_append, parseFrom_byte h, ih]
  | @escape rest h _ ih =>
    have hhead : ∀ byte ∈ (rest ++ tail).head?, ¬Opens byte := by
      intro byte hbyte
      cases rest with
      | nil =>
        rw [htail byte hbyte, Opens]
        decide
      | cons first rest => exact h byte hbyte
    rw [List.cons_append, parseFrom_escape hhead, ih]
  | csi hbody hfinal h _ ih =>
    rw [List.cons_append, List.cons_append, List.append_assoc, List.cons_append,
      parseFrom_csi hbody hfinal, HostReplies.addCsi, if_neg fun hand ↦ h hand.1 hand.2, ih]
  | dcs hbody h _ ih =>
    rw [List.cons_append, List.cons_append, List.append_assoc, List.append_assoc,
      parseFrom_dcs hbody, h, ih]
  | apc hbody h _ ih =>
    rw [List.cons_append, List.cons_append, List.append_assoc, List.append_assoc,
      parseFrom_apc hbody, HostReplies.addApc, h, if_neg Bool.false_ne_true, ih]

/-- A part of them is passed over too, wherever it is cut. -/
theorem parseFrom_part (h : Passed keys) (hpart : part <+: keys) :
    parseFrom 0 replies part = replies := by
  induction h generalizing part with
  | nil =>
    rw [List.prefix_nil.mp hpart]
    rfl
  | byte h _ ih =>
    obtain rfl | ⟨cut, rfl, hcut⟩ := List.prefix_cons_iff.mp hpart
    · rfl
    · rw [parseFrom_byte h, ih hcut]
  | @escape rest h _ ih =>
    obtain rfl | ⟨cut, rfl, hcut⟩ := List.prefix_cons_iff.mp hpart
    · rfl
    · have hhead : ∀ byte ∈ cut.head?, ¬Opens byte := by
        intro byte hbyte
        obtain ⟨more, rfl⟩ := hcut
        exact h byte (List.mem_head?_append_of_mem_head? hbyte)
      rw [parseFrom_escape hhead, ih hcut]
  | csi hbody hfinal h _ ih =>
    obtain rfl | ⟨cut, rfl, hcut⟩ := List.prefix_cons_iff.mp hpart
    · rfl
    obtain rfl | ⟨inside, rfl, hinside⟩ := List.prefix_cons_iff.mp hcut
    · rfl
    obtain hopen | ⟨more, rfl, hmore⟩ := prefix_append_cases hinside
    · exact parseFrom_openCsi fun byte hmem ↦ hbody byte (hopen.subset hmem)
    obtain rfl | ⟨after, rfl, hafter⟩ := List.prefix_cons_iff.mp hmore
    · rw [List.append_nil]
      exact parseFrom_openCsi hbody
    · rw [parseFrom_csi hbody hfinal, HostReplies.addCsi, if_neg fun hand ↦ h hand.1 hand.2,
        ih hafter]
  | dcs hbody h _ ih =>
    obtain rfl | ⟨cut, rfl, hcut⟩ := List.prefix_cons_iff.mp hpart
    · rfl
    obtain rfl | ⟨inside, rfl, hinside⟩ := List.prefix_cons_iff.mp hcut
    · rfl
    obtain hopen | ⟨more, rfl, hmore⟩ := hbody.part hinside
    · exact parseFrom_openString (.inl rfl) hopen
    · rw [parseFrom_dcs hbody, h, ih hmore]
  | apc hbody h _ ih =>
    obtain rfl | ⟨cut, rfl, hcut⟩ := List.prefix_cons_iff.mp hpart
    · rfl
    obtain rfl | ⟨inside, rfl, hinside⟩ := List.prefix_cons_iff.mp hcut
    · rfl
    obtain hopen | ⟨more, rfl, hmore⟩ := hbody.part hinside
    · exact parseFrom_openString (.inr rfl) hopen
    · rw [parseFrom_apc hbody, HostReplies.addApc, h, if_neg Bool.false_ne_true, ih hmore]

end Passed

/-! ## The end of the replies -/

/-- A device attributes reply. -/
def deviceAttributesReply (params : List UInt8) : List UInt8 :=
  [esc, 0x5b, 0x3f] ++ params ++ [0x63]

theorem isCsiFinal_of_isParameter {byte : UInt8} (h : isParameter byte = true) :
    isCsiFinal byte = false := by
  refine decide_eq_false fun hand ↦ ?_
  have hlow := UInt8.le_iff_toNat_le.mp hand.1
  obtain ⟨-, hhigh⟩ | rfl := of_decide_eq_true h
  · exact absurd (hlow.trans (UInt8.le_iff_toNat_le.mp hhigh)) (by decide)
  · exact absurd hlow (by decide)

theorem esc_notMem_params {params : List UInt8} (h : params.all isParameter = true) :
    esc ∉ params := fun hmem ↦
  absurd (List.all_eq_true.mp h esc hmem) (by decide)

theorem endsWithDeviceAttributes_iff {bytes : List UInt8} :
    endsWithDeviceAttributes bytes = true ↔
      ∃ before params, params.all isParameter = true ∧
        bytes = before ++ deviceAttributesReply params := by
  constructor
  · intro h
    rw [endsWithDeviceAttributes] at h
    split at h
    · next hlast =>
      have hbytes : bytes.dropLast ++ [0x63] = bytes :=
        List.dropLast_append_getLast? _ hlast
      cases hfind : rfind [esc, 0x5b, 0x3f] bytes.dropLast with
      | none =>
        rw [hfind] at h
        cases h
      | some start =>
        rw [hfind] at h
        obtain ⟨params, hparams⟩ := rfind_sound hfind
        have hdrop : bytes.dropLast.drop (start + 3) = params := by
          rw [← List.drop_drop, ← hparams]
          rfl
        simp only [hdrop] at h
        refine ⟨bytes.dropLast.take start, params, h, ?_⟩
        rw [deviceAttributesReply, ← List.append_assoc, hparams, List.take_append_drop, hbytes]
    · cases h
  · rintro ⟨before, params, hparams, rfl⟩
    have hlast : (before ++ deviceAttributesReply params).getLast? = some 0x63 := by
      rw [deviceAttributesReply, ← List.append_assoc, List.getLast?_concat]
    have hinit : (before ++ deviceAttributesReply params).dropLast =
        before ++ ([esc, 0x5b, 0x3f] ++ params) := by
      rw [deviceAttributesReply, ← List.append_assoc, List.dropLast_concat]
    have hfind : rfind [esc, 0x5b, 0x3f] (before ++ ([esc, 0x5b, 0x3f] ++ params)) =
        some before.length := by
      refine rfind_append (fun hmem ↦ ?_) before
      simp only [List.cons_append, List.nil_append, List.mem_cons] at hmem
      obtain hbracket | hmark | hparam := hmem
      · exact absurd hbracket (by decide)
      · exact absurd hmark (by decide)
      · exact esc_notMem_params hparams hparam
    have hrest : (before ++ ([esc, 0x5b, 0x3f] ++ params)).drop (before.length + 3) = params := by
      rw [← List.drop_drop, List.drop_left]
      rfl
    rw [endsWithDeviceAttributes, if_pos hlast, hinit, hfind]
    simp only [hrest, hparams]

/-- Two splits of a text at the last place of a symbol. -/
theorem after_last_eq {α : Type} {c : α} {before after before' after' : List α}
    (h : before ++ c :: after = before' ++ c :: after') (hafter : c ∉ after)
    (hafter' : c ∉ after') : after = after' := by
  obtain ⟨between, rfl, hrest⟩ | ⟨between, rfl, hrest⟩ := List.append_eq_append_iff.mp h
  · cases between with
    | nil => exact (List.cons.inj hrest).2
    | cons d between =>
      refine absurd ?_ hafter
      rw [(List.cons.inj hrest).2]
      exact List.mem_append_right _ List.mem_cons_self
  · cases between with
    | nil => exact (List.cons.inj hrest).2.symm
    | cons d between =>
      refine absurd ?_ hafter'
      rw [(List.cons.inj hrest).2]
      exact List.mem_append_right _ List.mem_cons_self

theorem esc_notMem_reply {params : List UInt8} (h : params.all isParameter = true) :
    esc ∉ (0x5b : UInt8) :: 0x3f :: (params ++ [0x63]) := by
  intro hmem
  simp only [List.mem_cons, List.mem_append, List.not_mem_nil, or_false] at hmem
  obtain hbracket | hmark | hparam | hfinal := hmem
  · exact absurd hbracket (by decide)
  · exact absurd hmark (by decide)
  · exact esc_notMem_params h hparam
  · exact absurd hfinal (by decide)

/-- Whether bytes end with the reply is decided by what stands after their last escape. -/
theorem ends_of_escape (before : List UInt8) {after : List UInt8} (hesc : esc ∉ after) :
    endsWithDeviceAttributes (before ++ esc :: after) = true ↔
      ∃ params, params.all isParameter = true ∧ after = 0x5b :: 0x3f :: (params ++ [0x63]) := by
  rw [endsWithDeviceAttributes_iff]
  constructor
  · rintro ⟨other, params, hparams, heq⟩
    exact ⟨params, hparams, after_last_eq heq hesc (esc_notMem_reply hparams)⟩
  · rintro ⟨params, hparams, rfl⟩
    exact ⟨before, params, hparams, rfl⟩

/-- Without an escape there is none, nor when the last one does not open it. -/
theorem not_ends_of_notMem {bytes : List UInt8} (h : esc ∉ bytes) :
    endsWithDeviceAttributes bytes = false := by
  refine Bool.of_not_eq_true fun hends ↦ h ?_
  obtain ⟨before, params, -, rfl⟩ := endsWithDeviceAttributes_iff.mp hends
  exact List.mem_append_right _ List.mem_cons_self

theorem not_ends_of_escape (before : List UInt8) {after : List UInt8} (hesc : esc ∉ after)
    (hfirst : after.head? ≠ some 0x5b) :
    endsWithDeviceAttributes (before ++ esc :: after) = false := by
  refine Bool.of_not_eq_true fun hends ↦ ?_
  obtain ⟨params, -, rfl⟩ := (ends_of_escape _ hesc).mp hends
  exact hfirst rfl

/-- The end decides alone, when it has an escape. -/
theorem ends_append {before after : List UInt8} (hesc : esc ∈ after) :
    endsWithDeviceAttributes (before ++ after) = endsWithDeviceAttributes after := by
  obtain ⟨first, last, rfl, hlast⟩ : ∃ first last, after = first ++ esc :: last ∧ esc ∉ last := by
    obtain ⟨last, first, hreverse, hlast⟩ :=
      List.eq_append_cons_of_mem (List.mem_reverse.mpr hesc)
    refine ⟨first.reverse, last.reverse, ?_, mt List.mem_reverse.mp hlast⟩
    rw [← List.reverse_reverse after, hreverse, List.reverse_append, List.reverse_cons,
      List.append_assoc]
    rfl
  rw [Bool.eq_iff_iff, ← List.append_assoc, ends_of_escape _ hlast, ends_of_escape _ hlast]

/-! ## The host's replies -/

/-- An entry of a reply about capabilities: a name in hexadecimal digits, and its value. -/
structure TermcapEntry where
  hex : List UInt8
  value : Option (List UInt8)
  deriving DecidableEq

def TermcapEntry.encode (entry : TermcapEntry) : List UInt8 :=
  entry.hex ++ entry.value.elim [] (0x3d :: ·)

def TermcapEntry.name (entry : TermcapEntry) : Option String :=
  (hexDecode entry.hex).bind fun name ↦ String.fromUTF8? ⟨name.toArray⟩

/-- A reply to one of the queries. -/
inductive HostReply where
  | version (text : List UInt8)
  | termcaps (found : Bool) (entries : List TermcapEntry)
  /-- Pairs that say which image the answer is about, and the message. -/
  | graphics (pairs : List (List UInt8)) (message : Option (List UInt8))
  | deviceAttributes (params : List UInt8)
  deriving DecidableEq

namespace HostReply

/-- What stands between the introducer of a reply and its end. -/
def body : HostReply → List UInt8
  | .version text => 0x3e :: 0x7c :: text
  | .termcaps found entries =>
    (if found then 0x31 else 0x30) :: 0x2b :: 0x72 ::
      [0x3b].intercalate (entries.map TermcapEntry.encode)
  | .graphics pairs message =>
    0x47 :: ([0x2c].intercalate pairs ++ message.elim [] (0x3b :: ·))
  | .deviceAttributes params => 0x3f :: params

/-- A reply as it is sent. -/
def encode (reply : HostReply) : List UInt8 :=
  match reply with
  | .version _ | .termcaps _ _ => esc :: 0x50 :: (reply.body ++ stringTerminator)
  | .graphics _ _ => esc :: 0x5f :: (reply.body ++ stringTerminator)
  | .deviceAttributes _ => esc :: 0x5b :: (reply.body ++ [0x63])

/-- What reading a reply adds. -/
def addTo (reply : HostReply) (replies : HostReplies) : HostReplies :=
  match reply with
  | .version _ | .termcaps _ _ => replies.addDcs reply.body
  | .graphics _ _ => replies.addApc reply.body
  | .deviceAttributes _ => replies.addCsi reply.body 0x63

def IsDeviceAttributes : HostReply → Prop
  | .deviceAttributes _ => True
  | _ => False

/-- A reply of the form its query asks for. -/
def Valid : HostReply → Prop
  | .version _ => True
  | .termcaps _ entries => entries ≠ [] ∧ ∀ entry ∈ entries, entry.name.isSome = true ∧
      0x3b ∉ entry.hex ∧ 0x3d ∉ entry.hex ∧ ∀ value ∈ entry.value, 0x3b ∉ value
  | .graphics pairs _ => graphicsQueryId ∈ pairs ∧ ∀ pair ∈ pairs, 0x2c ∉ pair ∧ 0x3b ∉ pair
  | .deviceAttributes params => params.all isParameter = true

/-- A reply that is one control sequence. -/
structure Sent (reply : HostReply) : Prop where
  valid : reply.Valid
  esc_notMem : esc ∉ reply.body

variable {reply : HostReply} {replies : HostReplies} {rest : List UInt8}

theorem parseFrom_encode (h : reply.Sent) :
    parseFrom 0 replies (reply.encode ++ rest) = parseFrom 0 (reply.addTo replies) rest := by
  have hclosed : Closed reply.body := closed_of_notMem h.esc_notMem
  have hstring : ∀ opener : UInt8, esc :: opener :: (reply.body ++ stringTerminator) ++ rest =
      esc :: opener :: (reply.body ++ (stringTerminator ++ rest)) := fun opener ↦
    congrArg (esc :: opener :: ·) (List.append_assoc ..)
  cases reply with
  | version text => exact (congrArg _ (hstring 0x50)).trans (parseFrom_dcs hclosed)
  | termcaps found entries => exact (congrArg _ (hstring 0x50)).trans (parseFrom_dcs hclosed)
  | graphics pairs message => exact (congrArg _ (hstring 0x5f)).trans (parseFrom_apc hclosed)
  | deviceAttributes params =>
    have hparams : params.all isParameter = true := h.valid
    have hbody : ∀ byte ∈ (0x3f : UInt8) :: params, isCsiFinal byte = false := by
      intro byte hmem
      obtain rfl | hmem := List.mem_cons.mp hmem
      · decide
      · exact isCsiFinal_of_isParameter (List.all_eq_true.mp hparams byte hmem)
    have hsequence : (HostReply.deviceAttributes params).encode ++ rest =
        esc :: 0x5b :: ((0x3f :: params) ++ 0x63 :: rest) :=
      congrArg (esc :: 0x5b :: ·) (List.append_assoc ..)
    rw [hsequence]
    exact parseFrom_csi hbody (by decide)

end HostReply

/-! ## What comes while the client waits -/

/-- Keys and the reply after them. -/
structure Arrival where
  keys : List UInt8
  reply : HostReply

def Arrival.bytes (arrival : Arrival) : List UInt8 := arrival.keys ++ arrival.reply.encode

/-- The bytes of keys and replies. -/
def stream (arrivals : List Arrival) : List UInt8 := arrivals.flatMap Arrival.bytes

/-- Keys that leave no sequence open and form no reply. -/
structure Ordinary (keys : List UInt8) : Prop where
  passed : Passed keys
  quiet : ∀ part, part <+: keys → endsWithDeviceAttributes part = false

/-- Ordinary keys before each of the replies, none of which is the last one's. -/
def Early (arrivals : List Arrival) : Prop :=
  ∀ arrival ∈ arrivals, Ordinary arrival.keys ∧ arrival.reply.Sent ∧
    ¬arrival.reply.IsDeviceAttributes

section Stream

variable {arrivals : List Arrival} {keys params more part : List UInt8} {replies : HostReplies}
  {reply : HostReply}

theorem head_stream (reply : HostReply) (rest : List UInt8) :
    ∀ byte ∈ (reply.encode ++ rest).head?, byte = esc := by
  intro byte hbyte
  cases reply <;> exact (Option.some.inj hbyte).symm

theorem parseFrom_stream (h : Early arrivals) (more : List UInt8) (replies : HostReplies) :
    parseFrom 0 replies (stream arrivals ++ more) =
      parseFrom 0 (arrivals.foldl (fun replies arrival ↦ arrival.reply.addTo replies) replies)
        more := by
  induction arrivals generalizing replies with
  | nil => rfl
  | cons arrival arrivals ih =>
    obtain ⟨⟨hkeys, hsent, -⟩, hrest⟩ := List.forall_mem_cons.mp h
    rw [stream, List.flatMap_cons, List.append_assoc, Arrival.bytes, List.append_assoc,
      hkeys.passed.parseFrom_append (head_stream arrival.reply _), HostReply.parseFrom_encode hsent,
      List.foldl_cons]
    exact ih hrest _

/-- The reply, and no keys before it. -/
def Arrival.alone (arrival : Arrival) : Arrival := ⟨[], arrival.reply⟩

theorem ordinary_nil : Ordinary [] where
  passed := .nil
  quiet := fun part hpart ↦ by
    rw [List.prefix_nil.mp hpart]
    rfl

theorem Early.alone (h : Early arrivals) : Early (arrivals.map Arrival.alone) := by
  intro other hother
  obtain ⟨arrival, hmem, rfl⟩ := List.mem_map.mp hother
  exact ⟨ordinary_nil, (h arrival hmem).2⟩

/-- The keys make no difference. -/
theorem parseFrom_stream_alone (h : Early arrivals) (more : List UInt8) (replies : HostReplies) :
    parseFrom 0 replies (stream (arrivals.map Arrival.alone) ++ more) =
      parseFrom 0 replies (stream arrivals ++ more) := by
  rw [parseFrom_stream h, parseFrom_stream h.alone, List.foldl_map]
  rfl

/-- A part of a text in which no reply has ended, unless it is the whole text. -/
def QuietUntil (bytes : List UInt8) : Prop :=
  ∀ part, part <+: bytes → part ≠ bytes → endsWithDeviceAttributes part = false

/-- Nothing ends in a string. -/
theorem quiet_string {opener : UInt8} {body : List UInt8} (hopener : opener ≠ esc)
    (hbracket : opener ≠ 0x5b) (hbody : esc ∉ body)
    (hpart : part <+: esc :: opener :: (body ++ stringTerminator)) :
    endsWithDeviceAttributes part = false := by
  have hesc : esc ∉ opener :: body := by
    rw [List.mem_cons, not_or]
    exact ⟨hopener.symm, hbody⟩
  obtain rfl | ⟨inside, rfl, hinside⟩ := List.prefix_cons_iff.mp hpart
  · exact not_ends_of_notMem List.not_mem_nil
  have happend : opener :: (body ++ stringTerminator) = opener :: body ++ stringTerminator := rfl
  rw [happend] at hinside
  obtain hstart | ⟨last, rfl, hlast⟩ := prefix_append_cases hinside
  · refine not_ends_of_escape [] (fun hmem ↦ hesc (hstart.subset hmem)) ?_
    obtain rfl | ⟨_, rfl, -⟩ := List.prefix_cons_iff.mp hstart
    · exact Option.some_ne_none _ ∘ Eq.symm
    · exact fun heq ↦ hbracket (Option.some.inj heq)
  obtain rfl | ⟨after, rfl, hafter⟩ := List.prefix_cons_iff.mp hlast
  · rw [List.append_nil]
    exact not_ends_of_escape [] hesc fun heq ↦ hbracket (Option.some.inj heq)
  · have hsplit : esc :: (opener :: body ++ esc :: after) = esc :: opener :: body ++ esc :: after := rfl
    have hplain : esc ∉ after := fun hmem ↦ absurd (hafter.subset hmem) (by decide)
    rw [hsplit]
    refine not_ends_of_escape _ hplain fun heq ↦ ?_
    have hbackslash := hafter.subset (List.mem_of_head? heq)
    exact absurd hbackslash (by decide)

theorem exists_string (hearly : ¬reply.IsDeviceAttributes) :
    ∃ opener, opener ≠ esc ∧ opener ≠ 0x5b ∧
      reply.encode = esc :: opener :: (reply.body ++ stringTerminator) := by
  cases reply with
  | version text => exact ⟨0x50, by decide, by decide, rfl⟩
  | termcaps found entries => exact ⟨0x50, by decide, by decide, rfl⟩
  | graphics pairs message => exact ⟨0x5f, by decide, by decide, rfl⟩
  | deviceAttributes params => exact absurd trivial hearly

theorem QuietUntil.append (h : QuietUntil more) (hkeys : Ordinary keys) (hsent : reply.Sent)
    (hearly : ¬reply.IsDeviceAttributes) : QuietUntil (keys ++ (reply.encode ++ more)) := by
  obtain ⟨opener, hopener, hbracket, hencode⟩ := exists_string hearly
  intro part hpart hne
  obtain hstart | ⟨after, rfl, hafter⟩ := prefix_append_cases hpart
  · exact hkeys.quiet part hstart
  obtain hinside | ⟨rest, rfl, hrest⟩ := prefix_append_cases hafter
  · cases after with
    | nil =>
      rw [List.append_nil]
      exact hkeys.quiet keys (List.prefix_refl keys)
    | cons first after =>
      have hquiet : endsWithDeviceAttributes (first :: after) = false := by
        rw [hencode] at hinside
        exact quiet_string hopener hbracket hsent.esc_notMem hinside
      have hfirst : first = esc := by
        rw [hencode] at hinside
        exact (List.cons_prefix_cons.mp hinside).1
      rw [ends_append (hfirst ▸ List.mem_cons_self), hquiet]
  · by_cases hesc : esc ∈ rest
    · rw [ends_append (List.mem_append_right _ hesc), ends_append hesc]
      refine h rest hrest ?_
      rintro rfl
      exact hne rfl
    · -- The last escape is that of the terminator.
      have hsplit : keys ++ (reply.encode ++ rest) =
          keys ++ esc :: opener :: reply.body ++ esc :: (backslash :: rest) := by
        rw [hencode]
        simp [stringTerminator]
      rw [hsplit]
      refine not_ends_of_escape _ ?_ fun heq ↦ absurd (Option.some.inj heq) (by decide)
      rw [List.mem_cons, not_or]
      exact ⟨by decide, hesc⟩

/-- The last reply ends with its last byte and not before. -/
theorem quietUntil_deviceAttributes (hkeys : Ordinary keys) (hparams : params.all isParameter = true) :
    QuietUntil (keys ++ (HostReply.deviceAttributes params).encode) := by
  intro part hpart hne
  obtain hstart | ⟨after, rfl, hafter⟩ := prefix_append_cases hpart
  · exact hkeys.quiet part hstart
  obtain rfl | ⟨rest, rfl, hrest⟩ := List.prefix_cons_iff.mp hafter
  · rw [List.append_nil]
    exact hkeys.quiet keys (List.prefix_refl keys)
  have hplain : esc ∉ rest := fun hmem ↦ esc_notMem_reply hparams (hrest.subset hmem)
  refine Bool.of_not_eq_true fun hends ↦ ?_
  obtain ⟨others, -, rfl⟩ := (ends_of_escape _ hplain).mp hends
  -- Its last byte comes nowhere else in it.
  have hinit : (0x5b : UInt8) :: 0x3f :: (others ++ [0x63]) <+: 0x5b :: 0x3f :: params := by
    have hwhole : (0x5b : UInt8) :: ((HostReply.deviceAttributes params).body ++ [0x63]) =
        0x5b :: 0x3f :: params ++ [0x63] := rfl
    rw [hwhole] at hrest
    obtain hequal | hproper := List.prefix_concat_iff.mp hrest
    · exact absurd (congrArg (keys ++ esc :: ·) hequal) hne
    · exact hproper
  have hmem : (0x63 : UInt8) ∈ (0x5b : UInt8) :: 0x3f :: params := hinit.subset (by simp)
  simp only [List.mem_cons] at hmem
  obtain heq | heq | hparam := hmem
  · exact absurd heq (by decide)
  · exact absurd heq (by decide)
  · exact absurd (List.all_eq_true.mp hparams _ hparam) (by decide)

/-- What is read of bytes that end no reply before their end. -/
theorem readReplies_append (bytes input rest : List UInt8) (hlen : (bytes ++ input).length ≤ 4096)
    (hquiet : ∀ part, bytes <+: part → part <+: bytes ++ input → part ≠ bytes ++ input →
      endsWithDeviceAttributes part = false) :
    readReplies bytes (input ++ rest) = readReplies (bytes ++ input) rest := by
  induction input generalizing bytes with
  | nil => rw [List.nil_append, List.append_nil]
  | cons byte input ih =>
    have happend : bytes ++ byte :: input = bytes ++ [byte] ++ input := List.append_cons ..
    have hnow : endsWithDeviceAttributes bytes = false :=
      hquiet bytes (List.prefix_refl _) (List.prefix_append _ _) (by simp)
    have hshort : bytes.length < maxHostReplyBytes := by
      rw [List.length_append, List.length_cons] at hlen
      rw [maxHostReplyBytes]
      omega
    rw [List.cons_append, readReplies, if_pos ⟨hshort, hnow⟩, happend]
    rw [happend] at hlen hquiet
    exact ih _ hlen fun part hbefore ↦ hquiet part ((List.prefix_append _ _).trans hbefore)

theorem QuietUntil.stream (h : QuietUntil more) (hearly : Early arrivals) :
    QuietUntil (stream arrivals ++ more) := by
  induction arrivals with
  | nil => exact h
  | cons arrival arrivals ih =>
    obtain ⟨⟨hkeys, hsent, hnot⟩, hrest⟩ := List.forall_mem_cons.mp hearly
    rw [Client.stream, List.flatMap_cons, List.append_assoc, Arrival.bytes, List.append_assoc]
    exact (ih hrest).append hkeys hsent hnot

theorem readReplies_quiet {bytes : List UInt8} (h : QuietUntil bytes)
    (hlen : bytes.length ≤ maxHostReplyBytes) (rest : List UInt8) :
    readReplies [] (bytes ++ rest) = readReplies bytes rest :=
  readReplies_append [] bytes rest hlen fun part _ ↦ h part

/-- The wait ends directly after the last reply. -/
theorem readReplies_complete (hearly : Early arrivals) (hkeys : Ordinary keys)
    (hparams : params.all isParameter = true) {bytes : List UInt8}
    (hbytes : bytes = stream arrivals ++ (keys ++ (HostReply.deviceAttributes params).encode))
    (hlen : bytes.length ≤ maxHostReplyBytes) (rest : List UInt8) :
    readReplies [] (bytes ++ rest) = (bytes, rest) ∧
      HostReplies.parse bytes = .parse (stream (arrivals.map Arrival.alone) ++
        (HostReply.deviceAttributes params).encode) := by
  subst hbytes
  have hquiet := (quietUntil_deviceAttributes hkeys hparams).stream hearly
  have hends : endsWithDeviceAttributes
      (stream arrivals ++ (keys ++ (HostReply.deviceAttributes params).encode)) = true :=
    endsWithDeviceAttributes_iff.mpr
      ⟨stream arrivals ++ keys, params, hparams, (List.append_assoc ..).symm⟩
  refine ⟨?_, ?_⟩
  · rw [readReplies_quiet hquiet hlen]
    cases rest with
    | nil => rfl
    | cons byte rest =>
      rw [readReplies, if_neg]
      rintro ⟨-, hnot⟩
      rw [hends] at hnot
      cases hnot
  · rw [HostReplies.parse, HostReplies.parse, parseFrom_stream_alone hearly, parseFrom_stream hearly,
      parseFrom_stream hearly]
    have hhead := head_stream (.deviceAttributes params) []
    rw [List.append_nil] at hhead
    exact hkeys.passed.parseFrom_append hhead

/-- The wait runs out before the last reply, among the keys after a reply. -/
theorem readReplies_part (hearly : Early arrivals) (hkeys : Ordinary keys) (hpart : part <+: keys)
    {bytes : List UInt8} (hbytes : bytes = stream arrivals ++ part)
    (hlen : bytes.length ≤ maxHostReplyBytes) :
    readReplies [] bytes = (bytes, []) ∧
      HostReplies.parse bytes = .parse (stream (arrivals.map Arrival.alone)) := by
  subst hbytes
  have hquiet : QuietUntil (stream arrivals ++ part) :=
    QuietUntil.stream (fun start hstart _ ↦ hkeys.quiet start (hstart.trans hpart)) hearly
  refine ⟨?_, ?_⟩
  · have hread := readReplies_quiet hquiet hlen []
    rw [List.append_nil] at hread
    exact hread
  · have halone := parseFrom_stream_alone hearly [] .default
    rw [List.append_nil, List.append_nil] at halone
    have hstream := parseFrom_stream hearly [] .default
    rw [List.append_nil] at hstream
    rw [HostReplies.parse, HostReplies.parse, halone, hstream, parseFrom_stream hearly,
      hkeys.passed.parseFrom_part hpart]
    rfl

end Stream

/-! ## Key presses -/

/-- What a key press sends. -/
inductive KeyPress where
  /-- Characters and control keys. -/
  | typed (bytes : List UInt8)
  | escape
  | alt (bytes : List UInt8)
  | cursor (params : List UInt8) (final : UInt8)
  deriving DecidableEq

namespace KeyPress

def bytes : KeyPress → List UInt8
  | .typed bytes => bytes
  | .escape => [esc]
  | .alt bytes => esc :: bytes
  | .cursor params final => esc :: 0x5b :: (params ++ [final])

/-- A key press that is sent as keys are. -/
def Complete : KeyPress → Prop
  | .typed bytes => esc ∉ bytes
  | .escape => True
  | .alt bytes => bytes ≠ [] ∧ esc ∉ bytes
  | .cursor params final =>
    params.all isParameter = true ∧ (0x41 ≤ final ∧ final ≤ 0x44)

end KeyPress

/-- The bytes of key presses. -/
def typedBytes (keys : List KeyPress) : List UInt8 := keys.flatMap KeyPress.bytes

/-- No escape, alone or of Alt, comes before a character that opens a sequence. -/
def Harmless : List KeyPress → Prop
  | [] => True
  | key :: keys =>
    key.Complete ∧ Harmless keys ∧
      match key with
      | .escape => ∀ byte ∈ (typedBytes keys).head?, ¬Opens byte
      | .alt bytes => ∀ byte ∈ bytes.head?, ¬Opens byte
      | _ => True

theorem passed_typed {bytes rest : List UInt8} (h : esc ∉ bytes) (hrest : Passed rest) :
    Passed (bytes ++ rest) := by
  induction bytes with
  | nil => exact hrest
  | cons byte bytes ih =>
    rw [List.mem_cons, not_or] at h
    exact .byte (Ne.symm h.1) (ih h.2)

theorem Harmless.passed {keys : List KeyPress} (h : Harmless keys) : Passed (typedBytes keys) := by
  induction keys with
  | nil => exact .nil
  | cons key keys ih =>
    obtain ⟨hkey, hkeys, hopens⟩ := h
    have hrest := ih hkeys
    cases key with
    | typed bytes => exact passed_typed hkey hrest
    | escape => exact .escape hopens hrest
    | alt bytes =>
      obtain ⟨hne, hesc⟩ := hkey
      obtain ⟨first, bytes, rfl⟩ := List.exists_cons_of_ne_nil hne
      exact .escape hopens (passed_typed hesc hrest)
    | cursor params final =>
      obtain ⟨hparams, hlow, hhigh⟩ := hkey
      have hbody : ∀ byte ∈ params, isCsiFinal byte = false := fun byte hmem ↦
        isCsiFinal_of_isParameter (List.all_eq_true.mp hparams byte hmem)
      have hfinal : isCsiFinal final = true :=
        decide_eq_true ⟨UInt8.le_trans (by decide) hlow, UInt8.le_trans hhigh (by decide)⟩
      have happend : typedBytes (.cursor params final :: keys) =
          esc :: 0x5b :: (params ++ final :: typedBytes keys) := by
        simp [typedBytes, KeyPress.bytes]
      rw [happend]
      refine .csi hbody hfinal (fun hc ↦ ?_) hrest
      subst hc
      exact absurd hhigh (by decide)

/-- A key press without an escape, or one that its escape opens no reply with. -/
theorem Harmless.cases {key : KeyPress} {keys : List KeyPress} (h : Harmless (key :: keys)) :
    esc ∉ key.bytes ∨ ∃ tail, key.bytes = esc :: tail ∧ esc ∉ tail ∧
      ¬[0x5b, 0x3f] <+: tail ++ typedBytes keys := by
  obtain ⟨hkey, -, hopens⟩ := h
  cases key with
  | typed bytes => exact .inl hkey
  | escape =>
    refine .inr ⟨[], rfl, List.not_mem_nil, fun hbegin ↦ ?_⟩
    obtain ⟨more, hmore⟩ := hbegin
    have hhead : (typedBytes keys).head? = some 0x5b := by
      rw [List.nil_append] at hmore
      rw [← hmore]
      rfl
    exact hopens 0x5b hhead (.inr (.inr rfl))
  | alt bytes =>
    obtain ⟨hne, hesc⟩ := hkey
    refine .inr ⟨bytes, rfl, hesc, fun hbegin ↦ ?_⟩
    obtain ⟨first, bytes, rfl⟩ := List.exists_cons_of_ne_nil hne
    have hfirst : (0x5b : UInt8) = first := (List.cons_prefix_cons.mp hbegin).1
    exact hopens first rfl (.inr (.inr hfirst.symm))
  | cursor params final =>
    obtain ⟨hparams, hlow, hhigh⟩ := hkey
    refine .inr ⟨0x5b :: (params ++ [final]), rfl, ?_, fun hbegin ↦ ?_⟩
    · intro hmem
      simp only [List.mem_cons, List.mem_append, List.not_mem_nil, or_false] at hmem
      obtain hbracket | hparam | rfl := hmem
      · exact absurd hbracket (by decide)
      · exact esc_notMem_params hparams hparam
      · exact absurd hlow (by decide)
    · have hmark := (List.cons_prefix_cons.mp hbegin).2
      cases params with
      | nil =>
        have hfinal : (0x3f : UInt8) = final := (List.cons_prefix_cons.mp hmark).1
        subst hfinal
        exact absurd hlow (by decide)
      | cons first params =>
        have hfirst : (0x3f : UInt8) = first := (List.cons_prefix_cons.mp hmark).1
        subst hfirst
        exact absurd (List.all_eq_true.mp hparams _ List.mem_cons_self) (by decide)

theorem Harmless.quiet {keys : List KeyPress} (h : Harmless keys) {part : List UInt8}
    (hpart : part <+: typedBytes keys) : endsWithDeviceAttributes part = false := by
  induction keys generalizing part with
  | nil =>
    rw [List.prefix_nil.mp hpart]
    rfl
  | cons key keys ih =>
    have hwhole : typedBytes (key :: keys) = key.bytes ++ typedBytes keys := List.flatMap_cons
    rw [hwhole] at hpart
    -- A part with an escape after the key press is decided there.
    have hlater : ∀ after, after <+: typedBytes keys → esc ∈ after →
        endsWithDeviceAttributes (key.bytes ++ after) = false := fun after hafter hesc ↦ by
      rw [ends_append hesc, ih h.2.1 hafter]
    obtain hnone | ⟨tail, htail, hesc, hreply⟩ := h.cases
    · obtain hcut | ⟨after, rfl, hafter⟩ := prefix_append_cases hpart
      · exact not_ends_of_notMem fun hmem ↦ hnone (hcut.subset hmem)
      · by_cases hmem : esc ∈ after
        · exact hlater after hafter hmem
        · exact not_ends_of_notMem fun hin ↦ (List.mem_append.mp hin).elim hnone hmem
    · rw [htail] at hpart hlater
      have hopening : ∀ inside, inside <+: tail ++ typedBytes keys → esc ∉ inside →
          endsWithDeviceAttributes (esc :: inside) = false := by
        intro inside hinside hplain
        refine Bool.of_not_eq_true fun hends ↦ hreply ?_
        obtain ⟨params, -, rfl⟩ := (ends_of_escape [] hplain).mp hends
        exact (List.prefix_append [0x5b, 0x3f] _).trans hinside
      obtain rfl | ⟨inside, rfl, hinside⟩ := List.prefix_cons_iff.mp hpart
      · rfl
      · obtain hcut | ⟨after, rfl, hafter⟩ := prefix_append_cases hinside
        · exact hopening inside hinside fun hmem ↦ hesc (hcut.subset hmem)
        · by_cases hmem : esc ∈ after
          · exact hlater after hafter hmem
          · exact hopening _ hinside fun hin ↦ (List.mem_append.mp hin).elim hesc hmem

/-- Key presses none of which opens a sequence are ordinary keys. -/
theorem Harmless.ordinary {keys : List KeyPress} (h : Harmless keys) : Ordinary (typedBytes keys) :=
  ⟨h.passed, fun _ ↦ h.quiet⟩

end Embers.Client
