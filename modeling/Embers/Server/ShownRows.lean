import Embers.Server.AlacrittyRows
import Embers.Server.GhosttyRows

/-!
# Rows shown alike

The two backends keep a row by the same rules. They differ in what is left of a broken wide character:
alacritty's half becomes a plain space, Ghostty's keeps its style and link.
-/

namespace Embers.Server

open Client Client.CellPiece

/-- **Rows.** Whatever flags a row's cells have, as long as the place of a wrapped character is in the
last column, the line built of it shows the cells kept of it, of which none is missing; and the text
that is taken of alacritty's row alone is the line's. -/
theorem rows_shown (u : Unicode) :
    (∀ (lineLength : AlacrittyRow → ℕ) (row : AlacrittyRow), row.length < 2 ^ 16 →
      LeadsLast row.flags → EndsText lineLength row → u.Cuts (lineText lineLength row) →
      ¬lineBreak <:+: lineText lineLength row →
      Shows u (styledLine lineLength u row) (keptCells row.keep (contentLength lineLength row)) ∧
        Complete row.flags row.shows (keptCells row.keep (contentLength lineLength row)) ∧
        lineText lineLength row = (styledLine lineLength u row).text) ∧
      ∀ cells : List GhosttyCell, (∀ cell ∈ cells, cell.text ≠ []) → cells.length < 2 ^ 16 →
        LeadsLast (partsOf cells) → u.Cuts (rowLine (.read cells)).1.text →
        ¬lineBreak <:+: (rowLine (.read cells)).1.text →
        Shows u (snapshotLine (.read cells) u)
            (keptCells (keepCell cells) (GhosttyRow.read cells).contentLen) ∧
          Complete (partsOf cells) (showsAt cells)
            (keptCells (keepCell cells) (GhosttyRow.read cells).contentLen) :=
  ⟨fun _ _ hlen hlead hends hu hbreak ↦ styledLine_shows u hlen hlead hends hu hbreak,
    fun _ hfilled hlen hlead hu hbreak ↦ snapshotLine_shows u hfilled hlen hlead hu hbreak⟩

/-! ### Two rows -/

/-- Every character is a grapheme, two columns wide unless it is ASCII. -/
def singleUnicode : Unicode where
  graphemes text := text.map ([·])
  width text := if text.all (·.val < 128) then 1 else 2

theorem cuts_singleUnicode {text : List Char} (h : ¬lineBreak <:+: text) :
    singleUnicode.Cuts text where
  flatten := List.flatMap_singleton' text
  filled := by simp [singleUnicode]
  lineBreak hbreak := absurd hbreak h
  ascii _ g hg := by
    obtain ⟨c, -, rfl⟩ := List.mem_map.mp hg
    exact .inr ⟨c, rfl⟩
  narrow hascii g hg := by
    obtain ⟨c, hc, rfl⟩ := List.mem_map.mp hg
    simp [singleUnicode, hascii c hc]

def plainFlags : CellFlags :=
  ⟨.narrow, false, false, false, false, false, false, false, false, false, false, false⟩

def alacrittyCell (c : Char) (part : CellFlag) (bg : AnsiColor) : AlacrittyCell where
  c := c
  zerowidth := []
  fg := .named .foreground
  bg := bg
  flags := { plainFlags with part }
  underlineColor := none
  hyperlink := none

/-- The text of a row without the spaces at its end. -/
def trimmedLength (row : AlacrittyRow) : ℕ :=
  (row.reverse.dropWhile fun cell ↦ cell.c = ' ' && cell.zerowidth = []).length

/-- A wide character, its right half broken off, and a painted space at the end. -/
def alacrittySample : AlacrittyRow :=
  [alacrittyCell '世' .wide (.named .background), alacrittyCell ' ' .spacer (.named .background),
    alacrittyCell ' ' .spacer (.indexed 1), alacrittyCell ' ' .narrow (.indexed 2),
    alacrittyCell ' ' .narrow (.named .background)]

def plainStyle : GhosttyStyle :=
  ⟨.none, .none, .none, false, false, false, false, false, false, .none⟩

def ghosttyCell (c : Char) (part : CellFlag) (bg : Option TermColor) : GhosttyCell :=
  ⟨part, .codepoint c, bg, plainStyle, none⟩

def ghosttySample : List GhosttyCell :=
  [ghosttyCell '世' .wide none, ghosttyCell ' ' .spacer none, ghosttyCell '世' .wide none,
    ghosttyCell ' ' .narrow (some (.indexed 2)), ghosttyCell ' ' .narrow none]

theorem not_lineBreak_infix {text : List Char} (h : '\r' ∉ text) : ¬lineBreak <:+: text :=
  fun hbreak ↦ h (hbreak.subset List.mem_cons_self)

theorem leadsLast_of_notMem {flags : List CellFlag} (h : .leadingSpacer ∉ flags) : LeadsLast flags :=
  fun _ hlead ↦ absurd (List.mem_of_getElem? hlead) h

theorem endsText_alacrittySample : EndsText trimmedLength alacrittySample where
  le := by decide
  space column cell hle hcell := by
    have hblank : ∀ cell ∈ alacrittySample.drop (trimmedLength alacrittySample),
        cell.c = ' ' ∧ cell.zerowidth = [] := by decide
    refine hblank cell (List.mem_iff_getElem?.mpr ⟨column - trimmedLength alacrittySample, ?_⟩)
    rw [List.getElem?_drop, Nat.add_sub_cancel' hle]
    exact hcell

theorem rows_shown_samples :
    (Shows singleUnicode (styledLine trimmedLength singleUnicode alacrittySample)
        (keptCells alacrittySample.keep 4) ∧
      (styledLine trimmedLength singleUnicode alacrittySample).text = ['世', ' ', ' ']) ∧
      Shows singleUnicode (snapshotLine (.read ghosttySample) singleUnicode)
          (keptCells (keepCell ghosttySample) 4) ∧
        (keptCells (keepCell ghosttySample) 4).map (·.column) = [0, 2, 3] := by
  obtain ⟨halacritty, hghostty⟩ := rows_shown singleUnicode
  have htext : lineText trimmedLength alacrittySample = ['世', ' ', ' '] := by decide
  have hrow : (rowLine (.read ghosttySample)).1.text = ['世', ' ', ' '] := by decide
  have hbreak : ¬lineBreak <:+: ['世', ' ', ' '] := not_lineBreak_infix (by decide)
  obtain ⟨hshows, -, hline⟩ := halacritty trimmedLength alacrittySample (by decide)
    (leadsLast_of_notMem (by decide)) endsText_alacrittySample
    (htext ▸ cuts_singleUnicode hbreak) (htext ▸ hbreak)
  obtain ⟨hshowsRow, -⟩ := hghostty ghosttySample (by decide) (by decide)
    (leadsLast_of_notMem (by decide)) (hrow ▸ cuts_singleUnicode hbreak) (hrow ▸ hbreak)
  exact ⟨⟨hshows, hline ▸ htext⟩, hshowsRow, by decide⟩

/-- The last column holds the place of a wrapped character, in a color. -/
def wrappedSample : AlacrittyRow :=
  [alacrittyCell 'a' .narrow (.named .background),
    alacrittyCell ' ' .leadingSpacer (.indexed 1)]

/-- The left half of a wide character and a character over its right half. -/
def brokenSample : List GhosttyCell :=
  [ghosttyCell '世' .wide none, ghosttyCell 'x' .narrow none]

/-- The color in the place of a wrapped character is missing from its line, and Ghostty's half of a
wide character does not have its cell's text. -/
theorem halves_lost :
    (LeadsLast wrappedSample.flags ∧ EndsText List.length wrappedSample ∧
      wrappedSample.shows 1 = true ∧
      (styledLine List.length singleUnicode wrappedSample).text = ['a']) ∧
      LeadsLast (partsOf brokenSample) ∧ brokenSample.map (·.text) = [['世'], ['x']] ∧
        (snapshotLine (.read brokenSample) singleUnicode).text = [' ', 'x'] := by
  have hwrapped : (styledLine List.length singleUnicode wrappedSample).text = ['a'] := by
    rw [styledLine, setCells_text]
    decide
  have hbroken : (snapshotLine (.read brokenSample) singleUnicode).text = [' ', 'x'] := by
    rw [snapshotLine, setCells_text]
    decide
  refine ⟨⟨fun column hlead ↦ ?_, ⟨Nat.le_refl _, fun column cell hle hcell ↦ ?_⟩, by decide,
    hwrapped⟩, leadsLast_of_notMem (by decide), by decide, hbroken⟩
  · obtain rfl | rfl | ⟨column, rfl⟩ : column = 0 ∨ column = 1 ∨ ∃ rest, column = rest + 2 := by
      rcases Nat.lt_or_ge column 2 with hlt | hge
      · omega
      · exact .inr (.inr ⟨column - 2, by omega⟩)
    · cases hlead
    · rfl
    · cases hlead
  · have hlt := (List.getElem?_eq_some_iff.mp hcell).1
    omega

end Embers.Server
