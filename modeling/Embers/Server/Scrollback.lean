import Embers.Lib.Slices
import Embers.Server.ShownRows

/-!
# The history and the screen

Lines are numbered from the top of the history. Alacritty's grid numbers its own from the top of the
screen, with the history below zero, and each is read by its number; libghostty only shows rows through
a viewport, so the lines are read a viewport at a time. `Captures` says what comes of both: the lines
themselves, whichever way they are asked for.
-/

namespace Embers.Server

open Client Slices

/-! ## What is captured -/

structure BackendScrollbackSlice where
  startLine : ℕ
  totalLines : ℕ
  lines : List StyledLine
  deriving DecidableEq

/-- The rows of a terminal snapshot. -/
structure SnapshotRows where
  viewportTopLine : ℕ
  totalLines : ℕ
  lines : List StyledLine

/-- The end of a slice. -/
def endLine (startLine lineCount totalLines : ℕ) : ℕ :=
  min (saturatingAdd startLine lineCount) totalLines

/-- Lines without the empty ones at the end. -/
def popEmpty (lines : List (List Char)) : List (List Char) := lines.rdropWhile (· = [])

/-- What a terminal with these lines shows and gives away: the part of them that is asked for, and
slices taken one after the other are one slice. -/
structure Captures (lines : List StyledLine) (height : ℕ) (snapshot : SnapshotRows)
    (scrollback : List (List Char)) (slices : ℕ → List ℕ → List BackendScrollbackSlice) : Prop where
  visible : snapshot =
    ⟨snapshot.viewportTopLine, lines.length, slice lines snapshot.viewportTopLine height⟩
  whole : scrollback = popEmpty (lines.map (·.text))
  slice : ∀ start count,
    slices start [count] = [⟨min start lines.length, lines.length, slice lines start count⟩]
  cuts : ∀ start counts,
    (slices start counts).flatMap (·.lines) = Slices.slice lines start counts.sum

theorem endLine_eq {total : ℕ} (h : total < 2 ^ 64) (start count : ℕ) :
    endLine (min start total) count total = min (min start total + count) total := by
  rw [endLine, saturatingAdd]
  omega

/-! ## Alacritty -/

/-- A grid whose lines are numbered from the top of the screen, the newest of the history at -1. -/
structure AlacrittyGrid where
  columns : ℕ
  screenLines : ℕ
  historySize : ℕ
  /-- How many lines the viewport is above the screen. -/
  displayOffset : ℕ
  row : ℤ → AlacrittyRow

/-- `as i32` -/
def asI32 (n : ℤ) : ℤ := n.bmod (2 ^ 32)

/-- `as i64` -/
def asI64 (n : ℤ) : ℤ := n.bmod (2 ^ 64)

/-- `i32::try_from` -/
def tryI32 (n : ℤ) : Option ℤ := if -2 ^ 31 ≤ n ∧ n < 2 ^ 31 then some n else none

/-- What is read of each line up to the last one. -/
def linesBetween {α : Type} (read : ℤ → α) (line last : ℤ) : List α :=
  if line ≤ last then read line :: linesBetween read (line + 1) last else []
termination_by (last + 1 - line).toNat

namespace AlacrittyGrid

variable (lineLength : AlacrittyRow → ℕ) (u : Unicode) (grid : AlacrittyGrid)

def styledLineAt (line : ℤ) : StyledLine := styledLine lineLength u (grid.row line)

def collectStyledLines (first last : ℤ) : List StyledLine :=
  if grid.columns = 0 ∨ last < first then []
  else linesBetween (styledLineAt lineLength u grid) first last

def visibleLines : List StyledLine :=
  let displayOffset := asI32 grid.displayOffset
  collectStyledLines lineLength u grid (asI32 (-displayOffset))
    (asI32 (asI32 grid.screenLines - displayOffset - 1))

/-- Full history + screen as plain text. -/
def allLines : List (List Char) :=
  if grid.columns = 0 then []
  else linesBetween (fun line ↦ lineText lineLength (grid.row line))
    (asI32 (-asI32 grid.historySize)) (asI32 (asI32 grid.screenLines - 1))

def viewportTopLine : ℕ := grid.historySize - grid.displayOffset

def totalLines : ℕ := grid.historySize + grid.screenLines

def visibleSnapshot : SnapshotRows :=
  ⟨grid.viewportTopLine, grid.totalLines, visibleLines lineLength u grid⟩

def captureScrollback : List (List Char) := popEmpty (allLines lineLength grid)

def captureScrollbackSlice (startLine lineCount : ℕ) : BackendScrollbackSlice :=
  if grid.columns = 0 then ⟨0, 0, []⟩
  else
    let history := asI64 grid.historySize
    let totalLines := grid.historySize + grid.screenLines
    let startLine := min startLine totalLines
    let endLine := endLine startLine lineCount totalLines
    let lines := (List.range' startLine (endLine - startLine)).map fun (global : ℕ) ↦
      let index := (tryI32 (asI64 (asI64 global - history))).getD 0
      styledLineAt lineLength u grid index
    ⟨startLine, totalLines, lines⟩

/-- Slices of some lengths, one after the other. -/
def captureSlices : ℕ → List ℕ → List BackendScrollbackSlice
  | _, [] => []
  | start, count :: counts =>
    captureScrollbackSlice lineLength u grid start count :: captureSlices (start + count) counts

/-- The numbers of the lines, the oldest first. -/
def lineNumbers : List ℤ := (List.range grid.totalLines).map fun n : ℕ ↦ (n : ℤ) - grid.historySize

def lines : List StyledLine := grid.lineNumbers.map (styledLineAt lineLength u grid)

/-- A grid of a screen and a history, with the viewport on lines there are. -/
structure Valid (grid : AlacrittyGrid) : Prop where
  columns : 1 ≤ grid.columns
  screenLines : 1 ≤ grid.screenLines
  screenLines_lt : grid.screenLines < 2 ^ 16
  displayOffset : grid.displayOffset ≤ grid.historySize

end AlacrittyGrid

/-! ## Ghostty -/

/-- What the backend asks of libghostty: to scroll the viewport, and then for the rows in it. -/
structure Libghostty (T : Type) where
  scrollToRow : ℕ → T → T
  scrollToBottom : T → T
  offset : T → ℕ
  totalRows : T → ℕ
  viewport : T → List (List GhosttyCell)

/-- The viewport shows the screen's height of the lines, and goes no further than the bottom. -/
structure Libghostty.Scrolls {T : Type} (g : Libghostty T) (lines : T → List (List GhosttyCell))
    (height : T → ℕ) : Prop where
  height_pos : ∀ t, 1 ≤ height t
  height_le : ∀ t, height t ≤ (lines t).length
  lines_lt : ∀ t, (lines t).length < 2 ^ 64
  totalRows : ∀ t, g.totalRows t = (lines t).length
  viewport : ∀ t, g.viewport t = slice (lines t) (g.offset t) (height t)
  scrollToRow : ∀ r t, g.offset (g.scrollToRow r t) = min r ((lines t).length - height t) ∧
    lines (g.scrollToRow r t) = lines t ∧ height (g.scrollToRow r t) = height t
  scrollToBottom : ∀ t, g.offset (g.scrollToBottom t) = (lines t).length - height t ∧
    lines (g.scrollToBottom t) = lines t ∧ height (g.scrollToBottom t) = height t

def snapshotRow (u : Unicode) (row : GhosttyRow) : StyledLine := snapshotLine row u

/-- Every line, the oldest first. -/
def styledLines (u : Unicode) (lines : List (List GhosttyCell)) : List StyledLine :=
  (lines.map .read).map (snapshotRow u)

def rowText (row : GhosttyRow) : List Char := (rowLine row).1.text

/-- The viewport is at the bottom of the lines it was on before. -/
structure Libghostty.AtBottom {T : Type} (g : Libghostty T) (lines : T → List (List GhosttyCell))
    (height : T → ℕ) (t t' : T) : Prop where
  lines_eq : lines t' = lines t
  height_eq : height t' = height t
  offset_eq : g.offset t' = (lines t).length - height t

namespace Libghostty

variable {T : Type} (g : Libghostty T) (u : Unicode)

def viewportRows (t : T) : List GhosttyRow := (g.viewport t).map .read

/-- The rows up to the end, a viewport at a time. Near the bottom the viewport stops short of the
line. -/
def pagedRows (line finish : ℕ) (t : T) : List GhosttyRow × T :=
  if line < finish then
    let t := g.scrollToRow line t
    let top := g.offset t
    let page := g.viewportRows t
    let pageEnd := top + page.length
    if pageEnd ≤ line then ([], t)
    else
      let rest := pagedRows pageEnd finish t
      ((page.drop (line - top)).take (finish - line) ++ rest.1, rest.2)
  else ([], t)
termination_by finish - line
decreasing_by
  change finish - pageEnd < finish - line
  omega

/-- The rows counted from the top of the scrollback; the viewport goes there and back to the bottom. -/
def screenRows (start finish : ℕ) (t : T) : List GhosttyRow × T :=
  let (rows, t) := g.pagedRows start finish t
  (rows, g.scrollToBottom t)

def visibleSnapshot (t : T) : SnapshotRows :=
  ⟨g.offset t, g.totalRows t, (g.viewportRows t).map (snapshotRow u)⟩

def captureScrollback (t : T) : List (List Char) × T :=
  let (rows, t) := g.screenRows 0 (g.totalRows t) t
  (popEmpty (rows.map rowText), t)

def captureScrollbackSlice (startLine lineCount : ℕ) (t : T) : BackendScrollbackSlice × T :=
  let totalLines := g.totalRows t
  let startLine := min startLine totalLines
  let endLine := endLine startLine lineCount totalLines
  let (rows, t) := g.screenRows startLine endLine t
  (⟨startLine, totalLines, rows.map (snapshotRow u)⟩, t)

/-- Slices of some lengths, one after the other, and the terminal after them. -/
def captureSlices : ℕ → List ℕ → T → List BackendScrollbackSlice × T
  | _, [], t => ([], t)
  | start, count :: counts, t =>
    let (first, t) := g.captureScrollbackSlice u start count t
    let (rest, t) := captureSlices (start + count) counts t
    (first :: rest, t)

end Libghostty

theorem map_text {α : Type} {plain : α → List Char} {styled : α → StyledLine}
    (h : ∀ a, plain a = (styled a).text) (rows : List α) :
    rows.map plain = (rows.map styled).map (·.text) := by
  rw [List.map_map]
  exact List.map_congr_left fun a _ ↦ h a

/-! ## Alacritty's lines -/

section Alacritty

variable {lineLength : AlacrittyRow → ℕ} {u : Unicode} {grid : AlacrittyGrid}

theorem linesBetween_eq {α : Type} (read : ℤ → α) (line : ℤ) (count : ℕ) :
    linesBetween read line (line + count - 1) = (List.range count).map fun n : ℕ ↦ read (line + n) := by
  induction count generalizing line with
  | zero =>
    rw [linesBetween, if_neg (by omega)]
    rfl
  | succ count ih =>
    have hnext := ih (line + 1)
    rw [show line + 1 + (count : ℤ) - 1 = line + (count + 1 : ℕ) - 1 by omega] at hnext
    rw [linesBetween, if_pos (by omega), hnext, List.range_succ_eq_map, List.map_cons, List.map_map,
      Nat.cast_zero, add_zero]
    refine congrArg _ (List.map_congr_left fun n _ ↦ congrArg read ?_)
    rw [Nat.succ_eq_add_one]
    omega

/-- The text of a row alone is the one of its styled line. -/
theorem lineText_eq (row : AlacrittyRow) :
    lineText lineLength row = (styledLine lineLength u row).text := by
  have hwalk (n : ℕ) : (List.range n).foldl (lineTextStep row) [] =
      ((List.range n).foldl (styledLineStep row) (.empty, ⟨[], none⟩)).1.text := by
    induction n with
    | zero => rfl
    | succ n ih =>
      rw [List.range_succ, List.foldl_concat, List.foldl_concat, ih]
      generalize (List.range n).foldl (styledLineStep row) (.empty, ⟨[], none⟩) = s
      rw [lineTextStep, styledLineStep]
      cases cellGlyph row n with
      | covered => rfl
      | blank => rfl
      | shown =>
        cases row[n]? with
        | none => exact List.append_nil _
        | some cell => rfl
  rw [styledLine, setCells_text, lineText, hwalk]
  rfl

theorem asI32_of_le {n : ℤ} (hlow : -2 ^ 31 ≤ n) (hhigh : n < 2 ^ 31) : asI32 n = n := by
  rw [asI32, Int.bmod_def]
  omega

theorem asI64_of_le {n : ℤ} (hlow : -2 ^ 63 ≤ n) (hhigh : n < 2 ^ 63) : asI64 n = n := by
  rw [asI64, Int.bmod_def]
  omega

theorem tryI32_of_le {n : ℤ} (hlow : -2 ^ 31 ≤ n) (hhigh : n < 2 ^ 31) : tryI32 n = some n :=
  if_pos ⟨hlow, hhigh⟩

namespace AlacrittyGrid

theorem length_lineNumbers : grid.lineNumbers.length = grid.totalLines := by
  rw [lineNumbers, List.length_map, List.length_range]

theorem length_lines : (lines lineLength u grid).length = grid.totalLines := by
  rw [lines, List.length_map, length_lineNumbers]

/-- A walk over some of the lines, by their numbers. -/
theorem linesBetween_slice {α : Type} (read : ℤ → α) {start count : ℕ}
    (h : start + count ≤ grid.totalLines) :
    linesBetween read ((start : ℤ) - grid.historySize) ((start : ℤ) - grid.historySize + count - 1) =
      slice (grid.lineNumbers.map read) start count := by
  rw [linesBetween_eq, ← map_slice, lineNumbers, slice_map_range _ h, List.range'_eq_map_range,
    List.map_map, List.map_map]
  refine List.map_congr_left fun n _ ↦ congrArg read ?_
  dsimp only [Function.comp_apply]
  rw [Nat.cast_add]
  omega

theorem top_eq (h : grid.Valid) (hhistory : grid.historySize < 2 ^ 31) :
    asI32 (-asI32 grid.displayOffset) = (grid.viewportTopLine : ℤ) - grid.historySize := by
  have hle := h.displayOffset
  rw [asI32_of_le (n := grid.displayOffset) (by omega) (by omega),
    asI32_of_le (by omega) (by omega), viewportTopLine]
  omega

theorem bottom_eq (h : grid.Valid) (hhistory : grid.historySize < 2 ^ 31) :
    asI32 (asI32 grid.screenLines - asI32 grid.displayOffset - 1) =
      (grid.viewportTopLine : ℤ) - grid.historySize + grid.screenLines - 1 := by
  have hle := h.displayOffset
  have hlt := h.screenLines_lt
  rw [asI32_of_le (n := grid.displayOffset) (by omega) (by omega),
    asI32_of_le (n := grid.screenLines) (by omega) (by omega), asI32_of_le (by omega) (by omega),
    viewportTopLine]
  omega

theorem visibleLines_eq (h : grid.Valid) (hhistory : grid.historySize < 2 ^ 31) :
    visibleLines lineLength u grid =
      slice (lines lineLength u grid) grid.viewportTopLine grid.screenLines := by
  obtain ⟨hcolumns, hscreen, -, hoffset⟩ := id h
  have hfits : grid.viewportTopLine + grid.screenLines ≤ grid.totalLines := by
    rw [viewportTopLine, totalLines]
    omega
  rw [visibleLines, top_eq h hhistory, bottom_eq h hhistory, collectStyledLines, if_neg (by omega),
    linesBetween_slice _ hfits, lines]

theorem topmost_eq (hhistory : grid.historySize < 2 ^ 31) :
    asI32 (-asI32 grid.historySize) = ((0 : ℕ) : ℤ) - grid.historySize := by
  rw [asI32_of_le (n := grid.historySize) (by omega) (by omega), asI32_of_le (by omega) (by omega)]
  omega

theorem bottommost_eq (h : grid.Valid) :
    asI32 (asI32 grid.screenLines - 1) =
      ((0 : ℕ) : ℤ) - grid.historySize + grid.totalLines - 1 := by
  have hlt := h.screenLines_lt
  rw [asI32_of_le (n := grid.screenLines) (by omega) (by omega), asI32_of_le (by omega) (by omega),
    totalLines]
  omega

theorem allLines_eq (h : grid.Valid) (hhistory : grid.historySize < 2 ^ 31) :
    allLines lineLength grid = (lines lineLength u grid).map (·.text) := by
  have hcolumns := h.columns
  have htext (line : ℤ) : lineText lineLength (grid.row line) =
      (styledLineAt lineLength u grid line).text := by
    rw [styledLineAt, lineText_eq]
  rw [allLines, if_neg (by omega), topmost_eq hhistory, bottommost_eq h,
    linesBetween_slice _ (Nat.zero_add _).le, lines, ← length_lineNumbers, ← List.length_map,
    slice_all]
  exact map_text htext _

theorem index_eq (h : grid.Valid) (hhistory : grid.historySize < 2 ^ 31) {n : ℕ}
    (hn : n < grid.totalLines) :
    (tryI32 (asI64 (asI64 n - asI64 grid.historySize))).getD 0 = (n : ℤ) - grid.historySize := by
  have hlt := h.screenLines_lt
  rw [totalLines] at hn
  rw [asI64_of_le (n := n) (by omega) (by omega),
    asI64_of_le (n := grid.historySize) (by omega) (by omega), asI64_of_le (by omega) (by omega),
    tryI32_of_le (by omega) (by omega), Option.getD_some]

theorem captureScrollbackSlice_eq (h : grid.Valid) (hhistory : grid.historySize < 2 ^ 31)
    (start count : ℕ) :
    captureScrollbackSlice lineLength u grid start count =
      ⟨min start (lines lineLength u grid).length, (lines lineLength u grid).length,
        slice (lines lineLength u grid) start count⟩ := by
  obtain ⟨hcolumns, -, hlt, -⟩ := id h
  have htotal : grid.totalLines = grid.historySize + grid.screenLines := rfl
  have hsmall : grid.totalLines < 2 ^ 64 := by omega
  have hcut := slice_clamped (lines lineLength u grid) start count
  rw [length_lines] at hcut
  rw [length_lines, ← hcut, lines, ← map_slice, lineNumbers, slice_map_range _ (by omega),
    captureScrollbackSlice,
    if_neg (by omega), ← htotal]
  dsimp only
  rw [endLine_eq hsmall, List.map_map, BackendScrollbackSlice.mk.injEq]
  refine ⟨rfl, rfl, List.map_congr_left fun n hn ↦ ?_⟩
  have hlast : n < grid.totalLines := by
    have hle := (List.mem_range'_1.mp hn).2
    omega
  rw [index_eq h hhistory hlast, Function.comp_apply]

theorem flatMap_captureSlices (h : grid.Valid) (hhistory : grid.historySize < 2 ^ 31)
    (start : ℕ) (counts : List ℕ) :
    (captureSlices lineLength u grid start counts).flatMap (·.lines) =
      slice (lines lineLength u grid) start counts.sum := by
  rw [← flatten_slices]
  induction counts generalizing start with
  | nil => rfl
  | cons count counts ih =>
    rw [captureSlices, List.flatMap_cons, ih, captureScrollbackSlice_eq h hhistory]
    rfl

/-- What is captured of a grid. -/
theorem captures (h : grid.Valid) (hhistory : grid.historySize < 2 ^ 31) :
    Captures (lines lineLength u grid) grid.screenLines (visibleSnapshot lineLength u grid)
      (captureScrollback lineLength grid) (captureSlices lineLength u grid) where
  visible := by
    rw [visibleSnapshot, visibleLines_eq h hhistory, length_lines]
  whole := by
    rw [captureScrollback, allLines_eq h hhistory]
  slice start count := congrArg ([·]) (captureScrollbackSlice_eq h hhistory start count)
  cuts := flatMap_captureSlices h hhistory

end AlacrittyGrid

end Alacritty

/-! ## Ghostty's lines -/

namespace Libghostty

variable {T : Type} {g : Libghostty T} {u : Unicode} {lines : T → List (List GhosttyCell)}
  {height : T → ℕ}

/-- The paging reads each row once, and leaves the lines as they are. -/
theorem Scrolls.pagedRows (h : g.Scrolls lines height) (line : ℕ) {finish : ℕ} (t : T)
    (hfinish : finish ≤ (lines t).length) :
    (g.pagedRows line finish t).1 = (slice (lines t) line (finish - line)).map .read ∧
      lines (g.pagedRows line finish t).2 = lines t ∧
      height (g.pagedRows line finish t).2 = height t := by
  induction hleft : finish - line using Nat.strong_induction_on generalizing line t with
  | _ left ih =>
    rw [Libghostty.pagedRows]
    by_cases hmore : line < finish
    · obtain ⟨htop, hlines, hheight⟩ := h.scrollToRow line t
      have hpos := h.height_pos t
      have hle := h.height_le t
      have hpage : (g.viewport (g.scrollToRow line t)).length = height t := by
        rw [h.viewport, htop, hlines, hheight, length_slice (by omega)]
      have hrows : g.viewportRows (g.scrollToRow line t) =
          (slice (lines t) (g.offset (g.scrollToRow line t)) (height t)).map .read := by
        rw [viewportRows, h.viewport, hlines, hheight]
      have hend : line < g.offset (g.scrollToRow line t) + height t := by
        rw [htop]
        omega
      obtain ⟨hrest, hlines', hheight'⟩ := ih _ (by omega)
        (g.offset (g.scrollToRow line t) + height t) (g.scrollToRow line t) (hlines ▸ hfinish) rfl
      rw [if_pos hmore]
      dsimp only
      rw [viewportRows, List.length_map, hpage, if_neg (by omega), ← viewportRows]
      refine ⟨?_, hlines'.trans hlines, hheight'.trans hheight⟩
      dsimp only
      rw [hrows, hrest, hlines, ← List.map_drop, ← List.map_take, ← List.map_append,
        page_append _ (by omega) hmore.le hend.le, hleft]
    · rw [if_neg hmore]
      have hzero : left = 0 := by omega
      subst hzero
      exact ⟨rfl, rfl, rfl⟩

/-- The rows are those of the lines, and the viewport is left at the bottom. -/
theorem Scrolls.screenRows (h : g.Scrolls lines height) (start : ℕ) {finish : ℕ} (t : T)
    (hfinish : finish ≤ (lines t).length) :
    (g.screenRows start finish t).1 = (slice (lines t) start (finish - start)).map .read ∧
      g.AtBottom lines height t (g.screenRows start finish t).2 := by
  obtain ⟨hrows, hlines, hheight⟩ := h.pagedRows start t hfinish
  obtain ⟨hbottom, hlines', hheight'⟩ := h.scrollToBottom (g.pagedRows start finish t).2
  refine ⟨hrows, hlines'.trans hlines, hheight'.trans hheight, hbottom.trans ?_⟩
  rw [hlines, hheight]

theorem length_styledLines (u : Unicode) (lines : List (List GhosttyCell)) :
    (styledLines u lines).length = lines.length := by
  rw [styledLines, List.length_map, List.length_map]

theorem Scrolls.captureScrollbackSlice (h : g.Scrolls lines height) (start count : ℕ) (t : T) :
    (g.captureScrollbackSlice u start count t).1 =
        ⟨min start (lines t).length, (lines t).length,
          slice (styledLines u (lines t)) start count⟩ ∧
      g.AtBottom lines height t (g.captureScrollbackSlice u start count t).2 := by
  obtain ⟨hrows, hstate⟩ := h.screenRows (min start (lines t).length) t
    (Nat.min_le_right (min start (lines t).length + count) (lines t).length)
  rw [Libghostty.captureScrollbackSlice, h.totalRows]
  dsimp only
  rw [endLine_eq (h.lines_lt t)]
  refine ⟨?_, hstate⟩
  rw [hrows, slice_clamped, styledLines, ← map_slice, ← map_slice]

theorem Scrolls.captureSlices (h : g.Scrolls lines height) (start : ℕ) (counts : List ℕ) (t : T) :
    (g.captureSlices u start counts t).1.flatMap (·.lines) =
      slice (styledLines u (lines t)) start counts.sum := by
  rw [← flatten_slices]
  induction counts generalizing start t with
  | nil => rfl
  | cons count counts ih =>
    obtain ⟨hfirst, hbottom⟩ := h.captureScrollbackSlice (u := u) start count t
    rw [Libghostty.captureSlices]
    dsimp only
    rw [List.flatMap_cons, ih, hbottom.lines_eq, hfirst]
    rfl

theorem Scrolls.captureScrollback (h : g.Scrolls lines height) (t : T) :
    (g.captureScrollback t).1 = popEmpty ((styledLines u (lines t)).map (·.text)) ∧
      g.AtBottom lines height t (g.captureScrollback t).2 := by
  obtain ⟨hrows, hbottom⟩ := h.screenRows 0 t (Nat.le_refl _)
  have htext (row : GhosttyRow) : rowText row = (snapshotRow u row).text := by
    rw [snapshotRow, snapshotLine, setCells_text, rowText]
  rw [Libghostty.captureScrollback, h.totalRows]
  dsimp only
  refine ⟨?_, hbottom⟩
  rw [hrows, Nat.sub_zero, slice_all, styledLines, map_text htext]

/-- What is captured of a terminal. -/
theorem Scrolls.captures (h : g.Scrolls lines height) (t : T) :
    Captures (styledLines u (lines t)) (height t) (g.visibleSnapshot u t) (g.captureScrollback t).1
      fun start counts ↦ (g.captureSlices u start counts t).1 where
  visible := by
    rw [Libghostty.visibleSnapshot, h.totalRows, length_styledLines, viewportRows, h.viewport,
      styledLines, ← map_slice, ← map_slice]
  whole := (h.captureScrollback t).1
  slice start count := by
    have hone : (g.captureSlices u start [count] t).1 =
        [(g.captureScrollbackSlice u start count t).1] := rfl
    rw [hone, (h.captureScrollbackSlice start count t).1, length_styledLines]
  cuts start counts := h.captureSlices start counts t

end Libghostty

/-! ## Either backend -/

/-- **The history and the screen.** However a range of lines is cut into slices, the slices are the
lines of the range; the screen is one of them, and all of it without the empty lines at the end is what
is captured. Alacritty's history is shorter than its numbers reach, and libghostty is left with its
viewport at the bottom. -/
theorem scrollback_captured (u : Unicode) :
    (∀ (lineLength : AlacrittyRow → ℕ) (grid : AlacrittyGrid), grid.Valid →
      grid.historySize < 2 ^ 31 →
      Captures (grid.lines lineLength u) grid.screenLines (grid.visibleSnapshot lineLength u)
        (grid.captureScrollback lineLength) (grid.captureSlices lineLength u)) ∧
      ∀ (T : Type) (g : Libghostty T) (lines : T → List (List GhosttyCell)) (height : T → ℕ),
        g.Scrolls lines height → ∀ t,
        Captures (styledLines u (lines t)) (height t) (g.visibleSnapshot u t)
            (g.captureScrollback t).1 (fun start counts ↦ (g.captureSlices u start counts t).1) ∧
          g.AtBottom lines height t (g.captureScrollback t).2 ∧
          ∀ start count, g.AtBottom lines height t (g.captureScrollbackSlice u start count t).2 :=
  ⟨fun _ _ h hhistory ↦ AlacrittyGrid.captures h hhistory, fun _ _ _ _ h t ↦
    ⟨h.captures t, (h.captureScrollback (u := u) t).2, fun start count ↦
      (h.captureScrollbackSlice start count t).2⟩⟩

/-- Two lines of history above a screen of one. -/
def gridSample (historySize : ℕ) : AlacrittyGrid where
  columns := 1
  screenLines := 1
  historySize := historySize
  displayOffset := 0
  row line := if line = 0 then [alacrittyCell 'a' .narrow (.named .background)] else []

theorem valid_gridSample (historySize : ℕ) : (gridSample historySize).Valid :=
  ⟨Nat.le_refl 1, Nat.le_refl 1, show 1 < 2 ^ 16 by decide, Nat.zero_le _⟩

/-- A terminal of three lines and a screen of one, by where its viewport is. -/
def terminalSample : Libghostty ℕ where
  scrollToRow r _ := min r 2
  scrollToBottom _ := 2
  offset t := t
  totalRows _ := 3
  viewport t := slice [ghosttySample, [], ghosttySample] t 1

theorem scrolls_terminalSample :
    terminalSample.Scrolls (fun _ ↦ [ghosttySample, [], ghosttySample]) fun _ ↦ 1 where
  height_pos _ := Nat.le_refl 1
  height_le _ := by decide
  lines_lt _ := by decide
  totalRows _ := rfl
  viewport _ := rfl
  scrollToRow _ _ := ⟨rfl, rfl, rfl⟩
  scrollToBottom _ := ⟨rfl, rfl, rfl⟩

theorem scrollback_captured_samples :
    ((gridSample 2).captureSlices List.length singleUnicode 0 [1, 2]).flatMap (·.lines) =
        slice ((gridSample 2).lines List.length singleUnicode) 0 3 ∧
      (terminalSample.captureSlices singleUnicode 0 [2, 1] 0).1.flatMap (·.lines) =
        slice (styledLines singleUnicode [ghosttySample, [], ghosttySample]) 0 3 := by
  obtain ⟨halacritty, hghostty⟩ := scrollback_captured singleUnicode
  have hgrid := halacritty List.length (gridSample 2) (valid_gridSample 2) (by decide)
  have hterminal := (hghostty ℕ terminalSample _ _ scrolls_terminalSample 0).1
  exact ⟨hgrid.cuts 0 [1, 2], hterminal.cuts 0 [2, 1]⟩

/-- In a history longer than the grid's numbers reach, the first line of the screen is captured for the
oldest of the history. -/
theorem longHistory_missed :
    (gridSample (2 ^ 31 + 1)).Valid ∧
      ((gridSample (2 ^ 31 + 1)).captureScrollbackSlice List.length singleUnicode 0 1).lines.map
          (·.text) = [['a']] ∧
        (slice ((gridSample (2 ^ 31 + 1)).lines List.length singleUnicode) 0 1).map (·.text) =
          [[]] := by
  have hindex : (tryI32 (asI64 (asI64 (0 : ℕ) - asI64 (2 ^ 31 + 1 : ℕ)))).getD 0 = 0 := by decide
  have hcaptured : ((gridSample (2 ^ 31 + 1)).captureScrollbackSlice List.length singleUnicode 0
      1).lines = [(gridSample (2 ^ 31 + 1)).styledLineAt List.length singleUnicode 0] := by
    rw [AlacrittyGrid.captureScrollbackSlice, if_neg (by decide)]
    dsimp only
    rw [Nat.zero_min, show endLine 0 1 _ - 0 = 1 by decide]
    exact congrArg (fun line ↦ [AlacrittyGrid.styledLineAt _ _ _ line]) hindex
  have holdest : slice ((gridSample (2 ^ 31 + 1)).lines List.length singleUnicode) 0 1 =
      [(gridSample (2 ^ 31 + 1)).styledLineAt List.length singleUnicode
        ((0 : ℕ) - (2 ^ 31 + 1 : ℕ))] := by
    rw [AlacrittyGrid.lines, ← map_slice, AlacrittyGrid.lineNumbers, slice_map_range _ (by decide)]
    rfl
  refine ⟨valid_gridSample _, ?_, ?_⟩
  · rw [hcaptured, List.map_singleton, AlacrittyGrid.styledLineAt, styledLine, setCells_text]
    decide
  · rw [holdest, List.map_singleton, AlacrittyGrid.styledLineAt, styledLine, setCells_text]
    decide

end Embers.Server
