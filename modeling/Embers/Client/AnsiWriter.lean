import Embers.Client.Ansi
import Embers.Lib.TerminalRow

/-!
# A terminal that reads a written row

The characters of a row are read by a terminal (`TerminalRow.Terminal`), which keeps the cursor, the
look and the link that are set, and what was shown. The terminal is told nothing of the cells: it sees
the escape sequences and the texts one after another.

The writer and the terminal agree on the style and the link, so each cell's text is shown with its own.
-/

namespace Embers.Client

open TerminalRow Rendition

/-! ## Styles as a terminal shows them -/

def TerminalColor.shade : TerminalColor → Rendition.Color
  | .rgb color => .rgb color.red color.green color.blue
  | .indexed index => .indexed index

def UnderlineStyle.line : UnderlineStyle → Underline
  | none => .none
  | single => .single
  | double => .double
  | curly => .curly
  | dotted => .dotted
  | dashed => .dashed

def shadeOf (color : Option TerminalColor) : Rendition.Color := (color.map TerminalColor.shade).getD .default

/-- The look of a text in this style. -/
def CellStyle.look (style : CellStyle) : Look where
  pen :=
    { bold := style.bold
      dim := style.dim
      italic := style.italic
      underline := style.underline.line
      inverse := style.reverse
      hidden := false
      strikeout := style.strikeout
      fg := shadeOf style.fg
      bg := shadeOf style.bg
      underlineColor := shadeOf style.underlineColor }
  blink := style.blink

theorem shadeOf_injective : Function.Injective shadeOf := by
  rintro (_ | ⟨⟨_, _, _⟩⟩ | _) (_ | ⟨⟨_, _, _⟩⟩ | _) h
  all_goals
    cases h
    try rfl

/-- Different styles look different. -/
theorem CellStyle.look_injective : Function.Injective CellStyle.look := by
  have hline : Function.Injective UnderlineStyle.line := by
    rintro (_ | _) (_ | _) hline
    all_goals
      cases hline
      try rfl
  rintro ⟨fg, bg, bold, italic, underline, underlineColor, dim, reverse, blink, strikeout⟩
    ⟨fg', bg', bold', italic', underline', underlineColor', dim', reverse', blink', strikeout'⟩ h
  simp only [CellStyle.look, Look.mk.injEq, Pen.mk.injEq, true_and] at h
  obtain ⟨⟨rfl, rfl, rfl, hunderline, rfl, rfl, hfg, hbg, hcolor⟩, rfl⟩ := h
  rw [hline hunderline, shadeOf_injective hfg, shadeOf_injective hbg, shadeOf_injective hcolor]

/-- What an attribute makes of a look. -/
def Sgr.change : Sgr → Look → Look
  | reset, _ => .plain
  | bold, look => { look with pen.bold := true }
  | dim, look => { look with pen.dim := true }
  | italic, look => { look with pen.italic := true }
  | .underline shape, look => { look with pen.underline := shape.line }
  | blink, look => { look with blink := true }
  | reverse, look => { look with pen.inverse := true }
  | strikeout, look => { look with pen.strikeout := true }
  | fg color, look => { look with pen := look.pen.setColor color.shade .fg }
  | bg color, look => { look with pen := look.pen.setColor color.shade .bg }
  | underlineColor color, look => { look with pen := look.pen.setColor color.shade .underline }

theorem toList_toString (n : ℕ) : (toString n).toList = toDecimal n := Nat.toList_repr

theorem toList_toString_byte (n : UInt8) : (toString n).toList = toDecimal n.toNat := Nat.toList_repr

/-- A color for what the number `n` stands for, over several parameters. -/
theorem sets_color {n : ℕ} {goal : ColorSlot} (h : target n = some goal) (color : TerminalColor) :
    Sets (toDecimal n ++ (Sgr.colorText ";" "" color).toList)
      fun look ↦ { look with pen := look.pen.setColor color.shade goal } := by
  rcases color with ⟨r, g, b⟩ | index
  · refine sets_of_parts [[some n], [some 2], [some r.toNat], [some g.toNat], [some b.toNat]] ?_
      (List.cons_ne_nil _ _) (by simp) fun look ↦ Look.apply_rgb h look r g b
    simp [Sgr.colorText, join, partTexts, toList_toString_byte]
    rfl
  · refine sets_of_parts [[some n], [some 5], [some index.toNat]] ?_ (List.cons_ne_nil _ _) (by simp)
      fun look ↦ Look.apply_indexed h look index
    simp [Sgr.colorText, join, partTexts, toList_toString_byte]
    rfl

/-- The color of an underline, in the parts of one parameter. -/
theorem sets_underlineColor (color : TerminalColor) :
    Sets (Sgr.underlineColor color).parameters.toList (Sgr.underlineColor color).change := by
  rcases color with ⟨r, g, b⟩ | index
  · refine sets_of_parts [[some 58, some 2, none, some r.toNat, some g.toNat, some b.toNat]] ?_
      (List.cons_ne_nil _ _) (by simp) fun look ↦
        Look.apply_of_selects (Selects.rgbParts rfl r g b) look rfl
    simp [Sgr.parameters, Sgr.colorText, join, partTexts, toList_toString_byte]
    rfl
  · refine sets_of_parts [[some 58, some 5, some index.toNat]] ?_ (List.cons_ne_nil _ _) (by simp)
      fun look ↦ Look.apply_of_selects (Selects.indexedParts rfl index) look rfl
    simp [Sgr.parameters, Sgr.colorText, join, partTexts, toList_toString_byte]
    rfl

/-- An attribute of one number. -/
theorem sets_number {n : ℕ} {text : List Char} {f : Look → Look} (htext : text = toDecimal n)
    (h : ∀ look : Look, look.apply [[n]] = f look) : Sets text f := by
  refine sets_of_parts [[some n]] ?_ (List.cons_ne_nil _ _) (by simp) h
  rw [htext]
  simp [join, partTexts]

/-- The parameters of an attribute make of a look what the attribute stands for. -/
theorem sets_parameters (code : Sgr) : Sets code.parameters.toList code.change := by
  cases code with
  | reset => exact sets_number (n := 0) rfl fun _ ↦ rfl
  | bold => exact sets_number (n := 1) rfl fun _ ↦ rfl
  | dim => exact sets_number (n := 2) rfl fun _ ↦ rfl
  | italic => exact sets_number (n := 3) rfl fun _ ↦ rfl
  | underline shape =>
    by_cases hsingle : shape = .single
    · subst hsingle
      exact sets_number (n := 4) rfl fun _ ↦ rfl
    · refine sets_of_parts [[some 4, some shape.code]] ?_ (List.cons_ne_nil _ _) (by simp) fun look ↦ ?_
      · cases shape with
        | single => exact absurd rfl hsingle
        | _ => rfl
      · cases shape <;> rfl
  | blink => exact sets_number (n := 5) rfl fun _ ↦ rfl
  | reverse => exact sets_number (n := 7) rfl fun _ ↦ rfl
  | strikeout => exact sets_number (n := 9) rfl fun _ ↦ rfl
  | fg color =>
    have h := sets_color (n := 38) rfl color
    rwa [show toDecimal 38 = "38".toList from rfl, ← String.toList_append] at h
  | bg color =>
    have h := sets_color (n := 48) rfl color
    rwa [show toDecimal 48 = "48".toList from rfl, ← String.toList_append] at h
  | underlineColor color => exact sets_underlineColor color

/-! ## From one style to the next -/

/-- The look after attributes, one after another. -/
def changes (look : Look) (codes : List Sgr) : Look := codes.foldl (fun look code ↦ code.change look) look

theorem changes_append {look : Look} {codes more : List Sgr} :
    changes look (codes ++ more) = changes (changes look codes) more := List.foldl_append

open Sgr in
/-- The attributes that set a style. -/
def styleCodes (next : CellStyle) : List Sgr :=
  [reset] ++ (if next.bold then [bold] else []) ++ (if next.dim then [dim] else []) ++
    (if next.italic then [italic] else []) ++
    (if next.underline = .none then [] else [underline next.underline]) ++
    (if next.blink then [blink] else []) ++ (if next.reverse then [reverse] else []) ++
    (if next.strikeout then [strikeout] else []) ++ (next.fg.map fg).toList ++
    (next.bg.map bg).toList ++ (next.underlineColor.map underlineColor).toList

theorem writeStyleTransition_eq (current next : CellStyle) :
    writeStyleTransition current next =
      if current = next then [] else (styleCodes next).map Piece.sgr := by
  have htoList : ∀ (color : Option TerminalColor) (code : TerminalColor → Sgr),
      (color.map fun color ↦ Piece.sgr (code color)).toList =
        ((color.map code).toList).map Piece.sgr := by
    rintro (_ | color) code <;> rfl
  rw [writeStyleTransition, styleCodes]
  simp only [List.map_append, apply_ite (List.map Piece.sgr), List.map_cons, List.map_nil, htoList]

/-- An attribute sent where the next style has a flag, to a look without it. -/
theorem changes_flag (c : Bool) (code : Sgr) {look : Look} (next : Look)
    (hon : c = true → code.change look = next) (hoff : c = false → look = next) :
    changes look (if c then [code] else []) = next := by
  rcases c with _ | _
  · exact hoff rfl
  · exact hon rfl

theorem changes_color (color : Option TerminalColor) (code : TerminalColor → Sgr) {look : Look}
    (next : Look) (hsome : ∀ shade, color = some shade → (code shade).change look = next)
    (hnone : color = none → look = next) :
    changes look (color.map code).toList = next := by
  rcases color with _ | shade
  · exact hnone rfl
  · exact hsome shade rfl

/-- The attributes between two styles set the second, whatever was set. -/
theorem changes_styleCodes (look : Look) (next : CellStyle) :
    changes look (styleCodes next) = next.look := by
  rcases next with ⟨fg, bg, bold, italic, underline, underlineColor, dim, reverse, blink, strikeout⟩
  have hreset : changes look [.reset] = CellStyle.plain.look := rfl
  have hunderline : ∀ look : Look, look.pen.underline = .none →
      changes look (if underline = .none then [] else [.underline underline]) =
        { look with pen.underline := underline.line } := by
    intro look h
    split
    · next hnone =>
      rw [hnone]
      change look = { look with pen.underline := Underline.none }
      rw [← h]
    · rfl
  -- From the plain style on, one field after the other becomes the next style's.
  simp only [styleCodes, changes_append, hreset]
  rw [changes_flag bold .bold (CellStyle.mk none none bold false .none none false false false false).look
    (fun h ↦ by rw [h]; rfl) (fun h ↦ by rw [h]; rfl)]
  rw [changes_flag dim .dim (CellStyle.mk none none bold false .none none dim false false false).look
    (fun h ↦ by rw [h]; rfl) (fun h ↦ by rw [h])]
  rw [changes_flag italic .italic
    (CellStyle.mk none none bold italic .none none dim false false false).look
    (fun h ↦ by rw [h]; rfl) (fun h ↦ by rw [h])]
  rw [hunderline _ rfl]
  rw [changes_flag blink .blink
    (CellStyle.mk none none bold italic underline none dim false blink false).look
    (fun h ↦ by rw [h]; rfl) (fun h ↦ by rw [h]; rfl)]
  rw [changes_flag reverse .reverse
    (CellStyle.mk none none bold italic underline none dim reverse blink false).look
    (fun h ↦ by rw [h]; rfl) (fun h ↦ by rw [h])]
  rw [changes_flag strikeout .strikeout
    (CellStyle.mk none none bold italic underline none dim reverse blink strikeout).look
    (fun h ↦ by rw [h]; rfl) (fun h ↦ by rw [h])]
  rw [changes_color fg .fg
    (CellStyle.mk fg none bold italic underline none dim reverse blink strikeout).look
    (fun _ h ↦ by rw [h]; rfl) (fun h ↦ by rw [h])]
  rw [changes_color bg .bg
    (CellStyle.mk fg bg bold italic underline none dim reverse blink strikeout).look
    (fun _ h ↦ by rw [h]; rfl) (fun h ↦ by rw [h])]
  rw [changes_color underlineColor .underlineColor
    (CellStyle.mk fg bg bold italic underline underlineColor dim reverse blink strikeout).look
    (fun _ h ↦ by rw [h]; rfl) (fun h ↦ by rw [h])]

/-! ## Links -/

theorem isControl_iff (c : Char) : isControl c = true ↔ Rendition.IsControl c := decide_eq_true_iff

/-- A link as the host shows it: without what would end the sequence early. -/
def Hyperlink.shown (link : Hyperlink) : Option Link :=
  openLink
    ((link.id.filter (· ≠ "")).map fun id ↦
      id.toList.filter fun ch ↦ !isControl ch ∧ ch ≠ ':' ∧ ch ≠ ';')
    (link.uri.toList.filter fun ch ↦ !isControl ch)

/-- A cell's link as the host supports it. -/
def HostCapabilities.link (host : HostCapabilities) (link : Option Hyperlink) : Option Link :=
  if host.hyperlinks then link.bind Hyperlink.shown else none

section

variable {advance : Bool → List Char → ℕ} {t : Terminal}

/-- The terminal after the characters of pieces. -/
def readPieces (advance : Bool → List Char → ℕ) (t : Terminal) (pieces : List Piece) : Terminal :=
  t.read advance (pieces.flatMap Piece.encode)

theorem readPieces_append {pieces more : List Piece} :
    readPieces advance t (pieces ++ more) = readPieces advance (readPieces advance t pieces) more := by
  rw [readPieces, List.flatMap_append, Terminal.read_append]
  rfl

theorem readPieces_cons {piece : Piece} {pieces : List Piece} :
    readPieces advance t (piece :: pieces) =
      readPieces advance (t.read advance piece.encode) pieces := by
  rw [readPieces, List.flatMap_cons, Terminal.read_append]
  rfl

theorem readPieces_singleton {piece : Piece} :
    readPieces advance t [piece] = t.read advance piece.encode := by
  rw [readPieces, List.flatMap_singleton]

theorem read_sgr (hreading : t.reading = .ground) (code : Sgr) :
    t.read advance (Piece.sgr code).encode = { t.flush advance with look := code.change t.look } := by
  rw [← Terminal.read_sets hreading (sets_parameters code), Piece.encode]
  simp

theorem read_placeCursor (hreading : t.reading = .ground) (column : ℕ) :
    t.read advance (Piece.placeCursor column).encode =
      { t with origin := column - 1, run := [], erased := false } := by
  rw [← Terminal.read_place advance hreading, Piece.encode, ← toList_toString]
  simp

theorem read_eraseCells (hreading : t.reading = .ground) (count : ℕ) :
    t.read advance (Piece.erase count).encode = { t.flush advance with erased := true } := by
  rw [← Terminal.read_erase hreading count, Piece.encode, ← toList_toString]
  simp

/-- The terminal reads the link that the sequence was written for. -/
theorem read_hyperlink (hreading : t.reading = .ground) {id : Option (List Char)} {uri : List Char}
    (hid : ∀ text ∈ id, ∀ c ∈ text, isControl c = false ∧ c ≠ ':' ∧ c ≠ ';')
    (huri : ∀ c ∈ uri, isControl c = false) :
    t.read advance (Piece.hyperlink id uri).encode =
      { t.flush advance with link := openLink id uri } := by
  set params := (id.map fun id ↦ "id=".toList ++ id).getD [] with hparams
  have hencode : (Piece.hyperlink id uri).encode =
      '\x1b' :: ']' :: (('8' :: ';' :: (params ++ ';' :: uri)) ++ ['\x1b', '\\']) := by
    simp [Piece.encode, hparams]
  have hcontrol : ∀ c : Char, isControl c = false → ¬Rendition.IsControl c :=
    fun c h hc ↦ absurd ((isControl_iff c).mpr hc) (by rw [h]; exact nofun)
  have hmem : ∀ c ∈ params, isControl c = false ∧ c ≠ ';' := by
    rcases id with _ | id
    · exact fun c hc ↦ absurd hc List.not_mem_nil
    · intro c hc
      rcases List.mem_append.mp hc with hc | hc
      · have hkey : c = 'i' ∨ c = 'd' ∨ c = '=' := by simpa using hc
        obtain rfl | rfl | rfl := hkey <;> decide
      · exact ⟨(hid id rfl c hc).1, (hid id rfl c hc).2.2⟩
  have hlinkId : linkId params = id := by
    rcases id with _ | id
    · rfl
    · exact Terminal.linkId_eq fun hc ↦ (hid id rfl ':' hc).2.1 rfl
  rw [hencode, Terminal.read_command hreading ?_
    (Terminal.parseLink_append fun hc ↦ (hmem ';' hc).2 rfl), hlinkId]
  intro c hc
  rcases List.mem_cons.mp hc with rfl | hc
  · decide
  rcases List.mem_cons.mp hc with rfl | hc
  · decide
  rcases List.mem_append.mp hc with hc | hc
  · exact hcontrol c (hmem c hc).1
  rcases List.mem_cons.mp hc with rfl | hc
  · decide
  · exact hcontrol c (huri c hc)

theorem read_writeHyperlink (hreading : t.reading = .ground) {host : HostCapabilities}
    {link : Option Hyperlink} (h : host.hyperlinks = true) :
    readPieces advance t [writeHyperlink link] = { t.flush advance with link := host.link link } := by
  rw [readPieces_singleton, HostCapabilities.link, if_pos h]
  rcases link with _ | link
  · have hnone : ∀ text ∈ (none : Option (List Char)), ∀ c ∈ text,
        isControl c = false ∧ c ≠ ':' ∧ c ≠ ';' := fun text htext ↦ nomatch htext
    exact read_hyperlink hreading hnone fun c hc ↦ absurd hc List.not_mem_nil
  · refine read_hyperlink hreading ?_ ?_
    · intro text htext c hc
      obtain ⟨id, -, rfl⟩ := Option.map_eq_some_iff.mp htext
      simpa using (List.mem_filter.mp hc).2
    · intro c hc
      simpa using (List.mem_filter.mp hc).2

variable (advance) in
/-- Attributes neither show anything nor move the cursor. -/
theorem still_sgrs (codes : List Sgr) (hreading : t.reading = .ground) :
    let t' := readPieces advance t (codes.map Piece.sgr)
    Terminal.Still advance t t' ∧ t'.look = changes t.look codes ∧ t'.link = t.link := by
  induction codes generalizing t with
  | nil => exact ⟨.refl, rfl, rfl⟩
  | cons code codes ih =>
    obtain ⟨hstill, hlook, hlink⟩ :=
      ih (t := { t.flush advance with look := code.change t.look }) hreading
    rw [List.map_cons, readPieces_cons, read_sgr hreading]
    exact ⟨Terminal.still_flush.trans hstill, hlook, hlink⟩

end

/-! ## The writer and the terminal -/

section

variable {u : Unicode} {advance : Bool → List Char → ℕ} {w : RowWriter}

/-- The terminal after what a writer has written. -/
def RowWriter.shown (advance : Bool → List Char → ℕ) (w : RowWriter) : Terminal :=
  readPieces advance .start w.output

/-- The terminal has the style and the link that the writer has set. -/
structure Agree (advance : Bool → List Char → ℕ) (w : RowWriter) : Prop where
  reading : (w.shown advance).reading = .ground
  look : (w.shown advance).look = w.style.look
  link : (w.shown advance).link = w.host.link w.link
  unlinked : w.host.hyperlinks = false → w.link = none

namespace RowWriter

theorem shown_write {pieces : List Piece} :
    (w.write pieces).shown advance = readPieces advance (w.shown advance) pieces :=
  readPieces_append

/-- Setting the style shows nothing and moves nothing. -/
theorem still_setStyle (h : Agree advance w) (style : CellStyle) :
    Terminal.Still advance (w.shown advance) ((w.setStyle style).shown advance) ∧
      Agree advance (w.setStyle style) := by
  have hshown : (w.setStyle style).shown advance =
      readPieces advance (w.shown advance) (writeStyleTransition w.style style) := readPieces_append
  rw [writeStyleTransition_eq] at hshown
  split at hshown
  · next heq =>
    have hsame : (w.setStyle style).shown advance = w.shown advance := hshown
    rw [hsame]
    refine ⟨.refl, ?_, ?_, ?_, h.unlinked⟩
    · rw [hsame]
      exact h.reading
    · rw [hsame, h.look, heq]
      rfl
    · rw [hsame]
      exact h.link
  · obtain ⟨hstill, hlook, hlink⟩ := still_sgrs advance (styleCodes style) h.reading
    rw [← hshown] at hstill hlook hlink
    refine ⟨hstill, hstill.reading.trans h.reading, ?_, ?_, h.unlinked⟩
    · exact hlook.trans (changes_styleCodes _ style)
    · exact hlink.trans h.link

@[simp] theorem host_setLink {link : Option Hyperlink} : (w.setLink link).host = w.host := by
  rw [setLink]
  split <;> rfl

@[simp] theorem style_setLink {link : Option Hyperlink} : (w.setLink link).style = w.style := by
  rw [setLink]
  split <;> rfl

/-- Either the link is set, or it was already, or the host shows none. -/
theorem hostLink_setLink {link : Option Hyperlink} :
    w.host.link (w.setLink link).link = w.host.link link := by
  rw [setLink]
  split
  · rfl
  · next hset =>
    rcases hhost : w.host.hyperlinks with _ | _
    · rw [HostCapabilities.link, HostCapabilities.link, hhost]
      rfl
    · by_cases heq : link = w.link
      · rw [heq]
      · exact absurd ⟨hhost, heq⟩ hset

theorem still_setLink (h : Agree advance w) (link : Option Hyperlink) :
    Terminal.Still advance (w.shown advance) ((w.setLink link).shown advance) ∧
      Agree advance (w.setLink link) := by
  by_cases hset : w.host.hyperlinks = true ∧ link ≠ w.link
  · have hshown : (w.setLink link).shown advance =
        { (w.shown advance).flush advance with link := w.host.link link } := by
      rw [shown, setLink, if_pos hset, readPieces_append]
      exact read_writeHyperlink h.reading hset.1
    rw [hshown]
    refine ⟨Terminal.still_flush, ?_, ?_, ?_, ?_⟩
    · rw [hshown]
      exact h.reading
    · rw [hshown, style_setLink]
      exact h.look
    · rw [hshown, host_setLink, hostLink_setLink]
    · rw [host_setLink, hset.1]
      exact nofun
  · have hsame : w.setLink link = w := if_neg hset
    rw [hsame]
    exact ⟨.refl, h⟩

/-! ## Cells -/

/-- The text that is shown for a cell. -/
def cellText (u : Unicode) (text : List Char) (width : ℕ) : List Char :=
  if WrittenPlainly u text width then text else fittedText u text width

/-- The marks of a cell: its text in its style and with its link, as the host supports them. -/
structure Depicts (u : Unicode) (host : HostCapabilities) (cell : GridCell) (width : ℕ)
    (marks : List Mark) : Prop where
  text : marks.map Mark.char = cellText u cell.text width
  look : ∀ m ∈ marks, m.look = (cell.style.forHost host).look
  link : ∀ m ∈ marks, m.link = host.link cell.link

/-- What became of a terminal `t` when a cell was written to it. -/
structure CellShown (u : Unicode) (advance : Bool → List Char → ℕ) (host : HostCapabilities)
    (cell : GridCell) (column width : ℕ) (t t' : Terminal) (marks : List Mark) : Prop where
  shown : t'.shown = t.shown ++ marks
  erased : t'.erased = false
  depicts : Depicts u host cell width marks
  start : ∀ m ∈ marks.head?, m.column = t.cursor advance
  /-- The text goes on with the one before it, or begins a new one. -/
  plain : WrittenPlainly u cell.text width →
    t'.origin = t.origin ∧ t'.run = t.run ++ cell.text ∨
      t'.origin = t.cursor advance ∧ t'.run = cell.text
  fitted : ¬WrittenPlainly u cell.text width → t'.origin = column + width ∧ t'.run = []

/-- A terminal that was only told to set the style and the link of the cell. -/
theorem cellShown_text {t t₁ : Terminal} {host : HostCapabilities} {cell : GridCell}
    (column : ℕ) {width : ℕ} (hstill : Terminal.Still advance t t₁) (hreading : t₁.reading = .ground)
    (herased : t.erased = false) (hlook : t₁.look = (cell.style.forHost host).look)
    (hlink : t₁.link = host.link cell.link) (htext : cell.text ≠ [])
    (hcontrols : ∀ c ∈ cellText u cell.text width, isControl c = false) :
    let t' := readPieces advance t₁ (writeCellText u cell.text column width)
    (∃ marks, CellShown u advance host cell column width t t' marks) ∧
      t'.reading = .ground ∧ t'.look = t₁.look ∧ t'.link = t₁.link := by
  have hcontrol : ∀ c ∈ cellText u cell.text width, ¬Rendition.IsControl c := by
    intro c hc hcontrol
    rw [← isControl_iff, hcontrols c hc] at hcontrol
    cases hcontrol
  simp only [writeCellText, if_neg htext]
  by_cases hplain : WrittenPlainly u cell.text width
  · rw [cellText, if_pos hplain] at hcontrol
    have hread : readPieces advance t₁ [.text cell.text] = _ :=
      readPieces_singleton.trans (Terminal.read_text hreading hcontrol)
    rw [if_pos hplain, hread]
    refine ⟨⟨t₁.marks advance cell.text, ?_, hstill.erased.trans herased, ⟨?_, ?_, ?_⟩, ?_, ?_,
      absurd hplain⟩, hreading, rfl, rfl⟩
    · exact congrArg (· ++ _) hstill.shown
    · rw [cellText, if_pos hplain]
      exact Terminal.map_char_marks
    · exact fun m hm ↦ (Terminal.look_of_mem_marks hm).1.trans hlook
    · exact fun m hm ↦ (Terminal.look_of_mem_marks hm).2.trans hlink
    · exact fun m hm ↦ (Terminal.column_of_mem_head hm).trans hstill.cursor
    · intro _
      rcases hstill.run with hnil | ⟨hrun, horigin⟩
      · refine .inr ⟨?_, ?_⟩
        · have hcursor := hstill.cursor
          rwa [Terminal.cursor, if_pos hnil] at hcursor
        · exact congrArg (· ++ cell.text) hnil
      · exact .inl ⟨horigin, congrArg (· ++ cell.text) hrun⟩
  · rw [cellText, if_neg hplain] at hcontrol
    let cleared : Terminal := { t₁.flush advance with erased := true }
    let written : Terminal :=
      { cleared with
        run := cleared.run ++ fittedText u cell.text width
        shown := cleared.shown ++ cleared.marks advance (fittedText u cell.text width) }
    have hread : readPieces advance t₁ [.erase width, .text (fittedText u cell.text width),
        .placeCursor (column + width + 1)] =
        { written with origin := column + width, run := [], erased := false } := by
      rw [readPieces_cons, read_eraseCells hreading, readPieces_cons, Piece.encode,
        Terminal.read_text (t := cleared) hreading hcontrol, readPieces_singleton]
      exact read_placeCursor (t := written) hreading (column + width + 1)
    rw [if_neg hplain, hread]
    refine ⟨⟨cleared.marks advance (fittedText u cell.text width), ?_, rfl, ⟨?_, ?_, ?_⟩, ?_,
      fun h ↦ absurd h hplain, fun _ ↦ ⟨rfl, rfl⟩⟩, hreading, rfl, rfl⟩
    · exact congrArg (· ++ _) hstill.shown
    · rw [cellText, if_neg hplain]
      exact Terminal.map_char_marks
    · exact fun m hm ↦ (Terminal.look_of_mem_marks hm).1.trans hlook
    · exact fun m hm ↦ (Terminal.look_of_mem_marks hm).2.trans hlink
    · exact fun m hm ↦ (Terminal.column_of_mem_head hm).trans hstill.cursor

@[simp] theorem host_cell {cell : GridCell} {column width : ℕ} :
    (w.cell u cell column width).host = w.host := by
  rw [RowWriter.cell]
  exact host_setLink

theorem shown_cell {cell : GridCell} (column : ℕ) {width : ℕ} (h : Agree advance w)
    (herased : (w.shown advance).erased = false) (htext : cell.text ≠ [])
    (hcontrols : ∀ c ∈ cellText u cell.text width, isControl c = false) :
    (∃ marks, CellShown u advance w.host cell column width (w.shown advance)
      ((w.cell u cell column width).shown advance) marks) ∧
        Agree advance (w.cell u cell column width) := by
  obtain ⟨hstyled, hagree⟩ := still_setStyle h (cell.style.forHost w.host)
  obtain ⟨hlinked, hagree'⟩ := still_setLink hagree cell.link
  set w' := (w.setStyle (cell.style.forHost w.host)).setLink cell.link with hw'
  have hlook : (w'.shown advance).look = (cell.style.forHost w.host).look := by
    rw [hagree'.look, hw', style_setLink]
    rfl
  have hhost : w'.host = w.host := host_setLink
  have hlink : (w'.shown advance).link = w.host.link cell.link := by
    rw [hagree'.link, hhost]
    exact hostLink_setLink (w := w.setStyle (cell.style.forHost w.host))
  obtain ⟨hmarks, hreading, hlook', hlink'⟩ := cellShown_text column
    (hstyled.trans hlinked) hagree'.reading herased hlook hlink htext hcontrols
  have hshown : (w.cell u cell column width).shown advance =
      readPieces advance (w'.shown advance) (writeCellText u cell.text column width) := shown_write
  rw [← hshown] at hmarks hreading hlook' hlink'
  exact ⟨hmarks, hreading, hlook'.trans hagree'.look, hlink'.trans hagree'.link, hagree'.unlinked⟩

theorem agree_start {host : HostCapabilities} : Agree advance ⟨host, [], .plain, none⟩ where
  reading := rfl
  look := rfl
  link := by
    rw [HostCapabilities.link]
    split <;> rfl
  unlinked _ := rfl

/-- A cursor that is placed starts a new text. -/
theorem shown_placeCursor (h : Agree advance w) (column : ℕ) :
    (w.write [.placeCursor column]).shown advance =
      { w.shown advance with origin := column - 1, run := [], erased := false } ∧
        Agree advance (w.write [.placeCursor column]) := by
  have hshown : (w.write [.placeCursor column]).shown advance =
      { w.shown advance with origin := column - 1, run := [], erased := false } := by
    rw [shown_write, readPieces_singleton, read_placeCursor h.reading]
  refine ⟨hshown, ?_, ?_, ?_, h.unlinked⟩
  · rw [hshown]
    exact h.reading
  · rw [hshown]
    exact h.look
  · rw [hshown]
    exact h.link

theorem shown_erase (h : Agree advance w) (count : ℕ) :
    (w.write [.erase count]).shown advance =
      { (w.shown advance).flush advance with erased := true } ∧
        Agree advance (w.write [.erase count]) := by
  have hshown : (w.write [.erase count]).shown advance =
      { (w.shown advance).flush advance with erased := true } := by
    rw [shown_write, readPieces_singleton, read_eraseCells h.reading]
  refine ⟨hshown, ?_, ?_, ?_, h.unlinked⟩
  · rw [hshown]
    exact h.reading
  · rw [hshown]
    exact h.look
  · rw [hshown]
    exact h.link

/-- At the end of a row the style is plain and no link is open. -/
theorem read_finish (h : Agree advance w) :
    let t := readPieces advance .start w.finish
    t.shown = (w.shown advance).shown ∧ t.reading = .ground ∧ t.look = .plain ∧ t.link = none := by
  obtain ⟨t₁, hlinked, hshown, hreading, hlook, hlink⟩ : ∃ t₁, readPieces advance (w.shown advance)
      (if w.link.isSome then [writeHyperlink none] else []) = t₁ ∧
        t₁.shown = (w.shown advance).shown ∧ t₁.reading = .ground ∧ t₁.look = w.style.look ∧
        t₁.link = none := by
    refine ⟨_, rfl, ?_⟩
    rcases hwlink : w.link with _ | link
    · have hnone : (w.shown advance).link = none := by
        rw [h.link, hwlink, HostCapabilities.link]
        split <;> rfl
      exact ⟨rfl, h.reading, h.look, hnone⟩
    · have hhost : w.host.hyperlinks = true := by
        rcases hhost : w.host.hyperlinks with _ | _
        · rw [h.unlinked hhost] at hwlink
          cases hwlink
        · rfl
      have hclose : readPieces advance (w.shown advance) [writeHyperlink none] = _ :=
        read_writeHyperlink h.reading hhost
      simp only [Option.isSome_some, if_true]
      rw [hclose]
      refine ⟨rfl, h.reading, h.look, ?_⟩
      change w.host.link none = none
      rw [HostCapabilities.link, if_pos hhost]
      rfl
  have hfinish : readPieces advance .start w.finish =
      readPieces advance t₁ (if w.style.isPlain then [] else [.sgr .reset]) := by
    rw [finish, readPieces_append, readPieces_append, ← hlinked]
    rfl
  rw [hfinish]
  split
  · next hplain =>
    have hplain' : w.style = .plain := of_decide_eq_true hplain
    refine ⟨hshown, hreading, ?_, hlink⟩
    rw [hplain'] at hlook
    exact hlook
  · rw [readPieces_singleton, read_sgr hreading]
    exact ⟨hshown, hreading, rfl, hlink⟩

end RowWriter

end

end Embers.Client
