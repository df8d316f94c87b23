import Embers.Client.GridTexts

/-!
# The cells of a line

An emulator lays a line out in cells of its own, and `setCells` keeps them beside the text only where
the text alone does not give them. Emulator cells that make up one grapheme over the columns Unicode
gives it become one cell, unless a style run ends among them.

The loop walks the graphemes of the text and takes the emulator cells as it goes. What it has taken
it has cut into *groups* (`Walked`): a group is a single cell, or the cells of one grapheme in one
run. A line that is laid out right (`LaysOut`) is all about the groups, whether the cells are kept or
given by the text.
-/

namespace Embers.Client

/-! ## Keeping the cells -/

/-- Where runs that begin at a byte end. -/
def endsOfRuns (start : ℕ) : List StyledRun → List ℕ
  | [] => []
  | run :: runs => (start + run.len) :: endsOfRuns (start + run.len) runs

/-- What the inner loop takes: cells, the bytes they cover and their columns, and the cells left. -/
structure TakenCells where
  spans : List CellSpan
  covered : ℕ
  width : ℕ
  rest : List CellSpan
  deriving DecidableEq, Repr

/-- Take cells until `len` bytes are covered. Widths are added in 16 bits. -/
def takeCells (len covered width : ℕ) : List CellSpan → TakenCells
  | [] => ⟨[], covered, width, []⟩
  | cell :: cells =>
    if covered < len then
      let taken := takeCells len (covered + cell.len) ((width + cell.width) % 2 ^ 16) cells
      { taken with spans := cell :: taken.spans }
    else ⟨[], covered, width, cell :: cells⟩

/-- The variables of the loop over the graphemes. -/
structure CellWalk where
  runEnds : List ℕ
  offset : ℕ
  spans : List CellSpan
  differs : Bool
  cells : List CellSpan
  /-- The bytes past the last grapheme that the cells taken so far cover. -/
  ahead : ℕ
  deriving DecidableEq, Repr

/-- The cells taken for a grapheme make it up, over the columns it should have. -/
def Joins (u : Unicode) (grapheme : List Char) (ahead : ℕ) (oneStyle : Bool) (taken : TakenCells) :
    Prop :=
  (byteLength grapheme < 2 ^ 32 ∧ taken.width < 2 ^ 8) ∧
    (ahead = 0 ∧ taken.covered = byteLength grapheme) ∧
    (oneStyle ∨ taken.spans.length = 1) ∧ taken.width = u.graphemeWidth grapheme

instance (u : Unicode) (grapheme : List Char) (ahead : ℕ) (oneStyle : Bool) (taken : TakenCells) :
    Decidable (Joins u grapheme ahead oneStyle taken) :=
  inferInstanceAs (Decidable (_ ∧ _))

def walkGrapheme (u : Unicode) (s : CellWalk) (grapheme : List Char) : CellWalk :=
  let len := byteLength grapheme
  let offset := s.offset + len
  let runEnds := s.runEnds.dropWhile (· ≤ s.offset)
  let oneStyle := runEnds.head?.all (offset ≤ ·)
  if len ≤ s.ahead then { s with runEnds, offset, ahead := s.ahead - len }
  else
    let taken := takeCells len s.ahead 0 s.cells
    let joins := Joins u grapheme s.ahead oneStyle taken
    { runEnds, offset
      spans :=
        s.spans ++ if joins ∧ 1 < taken.spans.length then [⟨len, taken.width⟩] else taken.spans
      differs := s.differs || !decide joins
      cells := taken.rest
      ahead := taken.covered - len }

/-- The walk before the first grapheme. -/
def CellWalk.start (line : StyledLine) (cells : List CellSpan) : CellWalk :=
  ⟨endsOfRuns 0 line.runs, 0, [], false, cells, 0⟩

/-- A narrow cell for each ASCII character. -/
def PlainCells (line : StyledLine) (cells : List CellSpan) : Prop :=
  (∀ c ∈ line.text, c.val < 128) ∧ cells.length = byteLength line.text ∧
    ∀ cell ∈ cells, cell.width = 1

instance (line : StyledLine) (cells : List CellSpan) : Decidable (PlainCells line cells) :=
  inferInstanceAs (Decidable (_ ∧ _))

def StyledLine.setCells (u : Unicode) (line : StyledLine) (cells : List CellSpan) : StyledLine :=
  if PlainCells line cells then { line with cellSpans := [] }
  else
    let s := (u.graphemes line.text).foldl (walkGrapheme u) (.start line cells)
    { line with cellSpans := if s.differs then s.spans ++ s.cells else [] }

/-! ## Lines that are laid out right -/

/-- The columns of the cells before a byte. -/
def columnsBefore : List CellSpan → ℕ → ℕ
  | [], _ => 0
  | cell :: cells, byte =>
    if cell.len ≤ byte then cell.width + columnsBefore cells (byte - cell.len) else 0

/-- The place of the run that covers a byte. -/
def runIndex (runs : List StyledRun) (byte : ℕ) : ℕ := ((endsOfRuns 0 runs).takeWhile (· ≤ byte)).length

/-- The bytes that the cells cover. -/
def spanLength (cells : List CellSpan) : ℕ := (cells.map (·.len)).sum

def LineCell.span (cell : LineCell) : CellSpan := ⟨byteLength cell.text, cell.width⟩

/-- What setting the cells of an emulator is to give. -/
structure LaysOut (u : Unicode) (line : StyledLine) (cells : List CellSpan) : Prop where
  /-- The cells are the text, cut into pieces. -/
  text : (((line.setCells u cells).cells u).map (·.text)).flatten = line.text
  nonempty : ∀ cell ∈ (line.setCells u cells).cells u, cell.text ≠ []
  offset : ∀ before cell after, (line.setCells u cells).cells u = before ++ cell :: after →
    cell.offset = byteLength (before.map (·.text)).flatten
  /-- A cell begins at the column the emulator has it at. -/
  column : ∀ before cell after, (line.setCells u cells).cells u = before ++ cell :: after →
    (before.map (·.width)).sum = columnsBefore cells cell.offset
  width : (line.setCells u cells).width u = (cells.map (·.width)).sum
  /-- Two emulator cells in one cell are in one run. -/
  apart : ∀ cell ∈ (line.setCells u cells).cells u, ∀ before first between second after,
    cells = before ++ first :: (between ++ second :: after) →
    cell.offset ≤ spanLength before →
    spanLength (before ++ first :: (between ++ [second])) ≤
      cell.offset + byteLength cell.text →
    ∀ i < first.len, ∀ j < second.len,
      runIndex line.runs (spanLength before + i) =
        runIndex line.runs (spanLength (before ++ first :: between) + j)
  /-- Its cells set once more change nothing. -/
  settled : (line.setCells u cells).setCells u (((line.setCells u cells).cells u).map (·.span)) =
    line.setCells u cells

/-! ## Pieces of a text -/

section Weigh

variable {α : Type*} {weigh : α → ℕ}

/-- Of two beginnings of a list the one that weighs no more is the beginning of the other. -/
theorem prefix_of_weigh_le {xs : List α} (hpos : ∀ a ∈ xs, 0 < weigh a) {xs' ys ys' : List α}
    (h : xs ++ ys = xs' ++ ys') (hsum : (xs.map weigh).sum ≤ (xs'.map weigh).sum) :
    xs <+: xs' := by
  induction xs generalizing xs' with
  | nil => exact List.nil_prefix
  | cons a xs ih =>
    cases xs' with
    | nil =>
      have := hpos a List.mem_cons_self
      simp at hsum
      omega
    | cons b xs' =>
      simp only [List.cons_append, List.cons.injEq] at h
      obtain ⟨rfl, h⟩ := h
      have hrest := ih (fun b hb ↦ hpos b (List.mem_cons_of_mem _ hb)) h (by simpa using hsum)
      exact (List.prefix_cons_inj a).2 hrest

theorem eq_of_weigh_eq {xs xs' : List α} (hpos : ∀ a ∈ xs, 0 < weigh a)
    (hpos' : ∀ a ∈ xs', 0 < weigh a) {ys ys' : List α} (h : xs ++ ys = xs' ++ ys')
    (hsum : (xs.map weigh).sum = (xs'.map weigh).sum) : xs = xs' :=
  (prefix_of_weigh_le hpos h hsum.le).eq_of_length_le
    (prefix_of_weigh_le hpos' h.symm hsum.ge).length_le

end Weigh

theorem byteLength_pos {text : List Char} (h : text ≠ []) : 0 < byteLength text := by
  cases text with
  | nil => exact absurd rfl h
  | cons c text =>
    have := c.utf8Size_pos
    simp [byteLength]
    omega

theorem eq_of_byteLength_eq {xs xs' ys ys' : List Char} (h : xs ++ ys = xs' ++ ys')
    (hlen : byteLength xs = byteLength xs') : xs = xs' :=
  eq_of_weigh_eq (fun c _ ↦ c.utf8Size_pos) (fun c _ ↦ c.utf8Size_pos) h hlen

/-- A piece of a text and the columns it is drawn over. -/
structure CellPiece where
  text : List Char
  width : ℕ

namespace CellPiece

def span (p : CellPiece) : CellSpan := ⟨byteLength p.text, p.width⟩

/-- The text of pieces. -/
def textOf (pieces : List CellPiece) : List Char := (pieces.map text).flatten

def widthOf (pieces : List CellPiece) : ℕ := (pieces.map width).sum

/-- Pieces as one. -/
def join (pieces : List CellPiece) : CellPiece := ⟨textOf pieces, widthOf pieces⟩

/-- Every piece has some text. -/
def HaveText (pieces : List CellPiece) : Prop := ∀ p ∈ pieces, p.text ≠ []

variable {pieces : List CellPiece}

@[simp] theorem textOf_nil : textOf [] = [] := rfl

@[simp] theorem textOf_cons (p : CellPiece) (pieces : List CellPiece) :
    textOf (p :: pieces) = p.text ++ textOf pieces := rfl

@[simp] theorem textOf_append (xs ys : List CellPiece) : textOf (xs ++ ys) = textOf xs ++ textOf ys := by
  simp [textOf]

@[simp] theorem widthOf_nil : widthOf [] = 0 := rfl

@[simp] theorem widthOf_cons (p : CellPiece) (pieces : List CellPiece) :
    widthOf (p :: pieces) = p.width + widthOf pieces := by
  simp [widthOf]

@[simp] theorem widthOf_append (xs ys : List CellPiece) :
    widthOf (xs ++ ys) = widthOf xs + widthOf ys := by
  simp [widthOf]

theorem join_singleton (p : CellPiece) : join [p] = p := by simp [join]

theorem spanLength_span (pieces : List CellPiece) :
    spanLength (pieces.map span) = byteLength (textOf pieces) := by
  induction pieces with
  | nil => rfl
  | cons p pieces ih =>
    rw [textOf_cons, byteLength_append, ← ih]
    simp [spanLength, span]

theorem widthOf_span (pieces : List CellPiece) : ((pieces.map span).map (·.width)).sum = widthOf pieces := by
  simp [widthOf, span, Function.comp_def]

/-- The cells that pieces give. -/
def cellsAt (offset : ℕ) : List CellPiece → List LineCell
  | [] => []
  | p :: pieces => ⟨offset, p.text, p.width⟩ :: cellsAt (offset + byteLength p.text) pieces

theorem map_text_cellsAt (offset : ℕ) (pieces : List CellPiece) :
    (cellsAt offset pieces).map (·.text) = pieces.map text := by
  induction pieces generalizing offset with
  | nil => rfl
  | cons p pieces ih => simp [cellsAt, ih]

theorem map_width_cellsAt (offset : ℕ) (pieces : List CellPiece) :
    (cellsAt offset pieces).map (·.width) = pieces.map width := by
  induction pieces generalizing offset with
  | nil => rfl
  | cons p pieces ih => simp [cellsAt, ih]

theorem map_span_cellsAt (offset : ℕ) (pieces : List CellPiece) :
    (cellsAt offset pieces).map (·.span) = pieces.map span := by
  induction pieces generalizing offset with
  | nil => rfl
  | cons p pieces ih =>
    rw [cellsAt, List.map_cons, ih]
    rfl

/-- Spans of pieces give back the pieces. -/
theorem spanCells_span (offset : ℕ) (hfilled : HaveText pieces) (hwide : ∀ p ∈ pieces, 1 ≤ p.width) :
    spanCells offset (textOf pieces) (pieces.map span) = some (cellsAt offset pieces) := by
  induction pieces generalizing offset with
  | nil => simp [spanCells, cellsAt]
  | cons p pieces ih =>
    have hpos : (p.span).len ≠ 0 := (byteLength_pos (hfilled p List.mem_cons_self)).ne'
    have hwidth : max p.width 1 = p.width := max_eq_left (hwide p List.mem_cons_self)
    have hrest := ih (offset + byteLength p.text) (fun q hq ↦ hfilled q (List.mem_cons_of_mem _ hq))
      fun q hq ↦ hwide q (List.mem_cons_of_mem _ hq)
    rw [List.map_cons, spanCells, if_neg hpos, textOf_cons]
    change (splitBytes (byteLength p.text) _).bind _ = _
    rw [splitBytes_append]
    simp [span, hrest, hwidth, cellsAt]

/-- The piece that a grapheme is by itself. -/
def ofGrapheme (u : Unicode) (grapheme : List Char) : CellPiece := ⟨grapheme, u.graphemeWidth grapheme⟩

theorem graphemeCells_eq (u : Unicode) (offset : ℕ) (graphemes : List (List Char)) :
    graphemeCells u offset graphemes = cellsAt offset (graphemes.map (ofGrapheme u)) := by
  induction graphemes generalizing offset with
  | nil => rfl
  | cons grapheme graphemes ih => simp [graphemeCells, cellsAt, ih, ofGrapheme]

end CellPiece

/-! ## The walk -/

section Walk

open CellPiece

/-- The cells taken are the next pieces, until the bytes are covered or no piece is left. -/
theorem takeCells_span (len covered width : ℕ) (pieces : List CellPiece)
    (hwidth : width + widthOf pieces < 2 ^ 16) :
    ∃ taken rest, pieces = taken ++ rest ∧
      takeCells len covered width (pieces.map span) =
        ⟨taken.map span, covered + byteLength (textOf taken), width + widthOf taken,
          rest.map span⟩ ∧
      (len ≤ covered + byteLength (textOf taken) ∨ rest = []) := by
  induction pieces generalizing covered width with
  | nil => exact ⟨[], [], rfl, by simp [takeCells], Or.inr rfl⟩
  | cons p pieces ih =>
    by_cases hcovered : covered < len
    · rw [widthOf_cons] at hwidth
      obtain ⟨taken, rest, rfl, htaken, henough⟩ :=
        ih (covered + byteLength p.text) (width + p.width) (by omega)
      refine ⟨p :: taken, rest, rfl, ?_, ?_⟩
      · have hmod : (width + p.span.width) % 2 ^ 16 = width + p.width :=
          Nat.mod_eq_of_lt (show width + p.width < 2 ^ 16 by omega)
        have hlen : covered + p.span.len = covered + byteLength p.text := rfl
        rw [List.map_cons, takeCells, if_pos hcovered, hmod, hlen, htaken]
        simp [byteLength_append, Nat.add_assoc]
      · simpa [byteLength_append, Nat.add_assoc] using henough
    · refine ⟨[], p :: pieces, rfl, ?_, Or.inl (by simpa using hcovered)⟩
      simp [takeCells, hcovered]

theorem dropWhile_dropWhile_le {a b : ℕ} (h : a ≤ b) (ends : List ℕ) :
    (ends.dropWhile (· ≤ a)).dropWhile (· ≤ b) = ends.dropWhile (· ≤ b) := by
  induction ends with
  | nil => rfl
  | cons e ends ih =>
    by_cases ha : e ≤ a
    · have hb : e ≤ b := by omega
      simp [ha, hb, ih]
    · simp [List.dropWhile_cons, ha]

/-- Where no run ends strictly between two bytes, they are in one run. -/
theorem takeWhile_eq_of_head? {a b stop : ℕ} (hab : a ≤ b) (hb : b < stop) {ends : List ℕ}
    (h : (ends.dropWhile (· ≤ a)).head?.all (stop ≤ ·)) :
    ends.takeWhile (· ≤ b) = ends.takeWhile (· ≤ a) := by
  induction ends with
  | nil => rfl
  | cons e ends ih =>
    by_cases ha : e ≤ a
    · have hb : e ≤ b := by omega
      simp only [List.dropWhile_cons, ha, decide_true, if_true] at h
      simp [ha, hb, ih h]
    · simp only [List.dropWhile_cons, ha, decide_false, Bool.false_eq_true, if_false,
        List.head?_cons, Option.all_some, decide_eq_true_eq] at h
      have hb : ¬ e ≤ b := by omega
      simp [ha, hb]

/-- Two bytes are in one run. -/
def InOneRun (runs : List StyledRun) (start len : ℕ) : Prop :=
  ∀ i < len, ∀ j < len, runIndex runs (start + i) = runIndex runs (start + j)

/-- The groups that begin at a byte are single pieces or lie in one run. -/
def Grouped (runs : List StyledRun) (start : ℕ) : List (List CellPiece) → Prop
  | [] => True
  | group :: groups =>
    (2 ≤ group.length → InOneRun runs start (byteLength (textOf group))) ∧
      Grouped runs (start + byteLength (textOf group)) groups

theorem grouped_append {runs : List StyledRun} {start : ℕ} {xs ys : List (List CellPiece)} :
    Grouped runs start (xs ++ ys) ↔
      Grouped runs start xs ∧ Grouped runs (start + byteLength (textOf xs.flatten)) ys := by
  induction xs generalizing start with
  | nil => simp [Grouped]
  | cons group xs ih => simp [Grouped, ih, and_assoc, byteLength_append, Nat.add_assoc]

theorem grouped_singles (runs : List StyledRun) (start : ℕ) (pieces : List CellPiece) :
    Grouped runs start (pieces.map ([·])) := by
  induction pieces generalizing start with
  | nil => trivial
  | cons p pieces ih => exact ⟨fun h ↦ absurd h (by simp), ih _⟩

theorem flatten_singles (pieces : List CellPiece) : (pieces.map ([·])).flatten = pieces := by
  induction pieces with
  | nil => rfl
  | cons p pieces ih => simp [ih]

theorem map_join_singles (pieces : List CellPiece) : (pieces.map ([·])).map join = pieces := by
  induction pieces with
  | nil => rfl
  | cons p pieces ih => rw [List.map_cons, List.map_cons, join_singleton, ih]

/-- What the walk has done once it is past some graphemes: the cells it has taken are cut into
groups, and as long as nothing differs each group is a grapheme. -/
structure Walked (u : Unicode) (runs : List StyledRun) (pieces : List CellPiece)
    (before : List (List Char)) (s : CellWalk) (groups : List (List CellPiece)) (rest : List CellPiece) :
    Prop where
  pieces_eq : groups.flatten ++ rest = pieces
  cells : s.cells = rest.map span
  spans : s.spans = (groups.map join).map span
  offset : s.offset = byteLength before.flatten
  covered : byteLength (textOf groups.flatten) = s.offset + s.ahead
  ends : ∀ byte, s.offset ≤ byte →
    s.runEnds.dropWhile (· ≤ byte) = (endsOfRuns 0 runs).dropWhile (· ≤ byte)
  filled : [] ∉ groups
  grouped : Grouped runs 0 groups
  same : s.differs = false → s.ahead = 0 ∧ groups.map join = before.map (ofGrapheme u)

theorem walked_start (u : Unicode) (line : StyledLine) (pieces : List CellPiece) :
    Walked u line.runs pieces [] (.start line (pieces.map span)) [] pieces where
  pieces_eq := rfl
  cells := rfl
  spans := rfl
  offset := rfl
  covered := rfl
  ends _ _ := rfl
  filled := List.not_mem_nil
  grouped := trivial
  same _ := ⟨rfl, rfl⟩

variable {u : Unicode} {runs : List StyledRun} {pieces rest : List CellPiece}
  {before after : List (List Char)} {grapheme : List Char} {s : CellWalk}
  {groups : List (List CellPiece)}

/-- The ends that are left once a grapheme has been looked at. -/
theorem Walked.ends_step (h : Walked u runs pieces before s groups rest) {byte : ℕ}
    (hbyte : s.offset + byteLength grapheme ≤ byte) :
    (s.runEnds.dropWhile (· ≤ s.offset)).dropWhile (· ≤ byte) =
      (endsOfRuns 0 runs).dropWhile (· ≤ byte) := by
  rw [dropWhile_dropWhile_le (by omega)]
  exact h.ends byte (by omega)

/-- The test of the loop: no run ends within the grapheme. -/
theorem Walked.inOneRun (h : Walked u runs pieces before s groups rest)
    (hstyle : (s.runEnds.dropWhile (· ≤ s.offset)).head?.all
      (s.offset + byteLength grapheme ≤ ·)) :
    InOneRun runs s.offset (byteLength grapheme) := by
  rw [h.ends _ le_rfl] at hstyle
  have hrun : ∀ i < byteLength grapheme, runIndex runs (s.offset + i) = runIndex runs s.offset := by
    intro i hi
    rw [runIndex, takeWhile_eq_of_head? (by omega) (by omega) hstyle]
    rfl
  intro i hi j hj
  rw [hrun i hi, hrun j hj]

/-- Cells that are taken from the beginning of a grapheme to its end have its text. -/
theorem Walked.textOf_taken (h : Walked u runs pieces before s groups rest) {taken rest' : List CellPiece}
    (hrest : rest = taken ++ rest') (hahead : s.ahead = 0)
    (htext : textOf pieces = (before ++ grapheme :: after).flatten)
    (hlen : byteLength (textOf taken) = byteLength grapheme) : textOf taken = grapheme := by
  have hpieces := h.pieces_eq
  rw [hrest] at hpieces
  have hall : textOf groups.flatten ++ (textOf taken ++ textOf rest') =
      before.flatten ++ (grapheme ++ after.flatten) := by
    simpa [← hpieces] using htext
  have hbefore : textOf groups.flatten = before.flatten :=
    eq_of_byteLength_eq hall (by rw [h.covered, h.offset, hahead, Nat.add_zero])
  rw [hbefore] at hall
  exact eq_of_byteLength_eq (List.append_cancel_left hall) hlen

/-- A grapheme that the cells taken before it cover takes none. -/
theorem Walked.skip (h : Walked u runs pieces before s groups rest) (hgrapheme : grapheme ≠ [])
    (hahead : byteLength grapheme ≤ s.ahead) :
    Walked u runs pieces (before ++ [grapheme]) (walkGrapheme u s grapheme) groups rest := by
  have hpos := byteLength_pos hgrapheme
  have hwalk : walkGrapheme u s grapheme =
      { s with
        runEnds := s.runEnds.dropWhile (· ≤ s.offset)
        offset := s.offset + byteLength grapheme
        ahead := s.ahead - byteLength grapheme } := by
    rw [walkGrapheme]
    exact if_pos hahead
  rw [hwalk]
  refine ⟨h.pieces_eq, h.cells, h.spans, ?_, ?_, ?_, h.filled, h.grouped, ?_⟩
  · simp [h.offset, byteLength_append]
  · have := h.covered
    change _ = s.offset + byteLength grapheme + (s.ahead - byteLength grapheme)
    omega
  · exact fun byte hbyte ↦ h.ends_step hbyte
  · intro hsame
    have := (h.same hsame).1
    omega

/-- The groups that the cells taken for a grapheme make. -/
def groupsOf (joined : Prop) [Decidable joined] (taken : List CellPiece) : List (List CellPiece) :=
  if joined ∧ 1 < taken.length then [taken] else taken.map ([·])

theorem flatten_groupsOf (joined : Prop) [Decidable joined] (taken : List CellPiece) :
    (groupsOf joined taken).flatten = taken := by
  unfold groupsOf
  split
  · simp
  · exact flatten_singles taken

theorem map_join_groupsOf {joined : Prop} [Decidable joined] {taken : List CellPiece} (h : joined)
    (htaken : taken ≠ []) : (groupsOf joined taken).map join = [join taken] := by
  by_cases hmany : 1 < taken.length
  · simp [groupsOf, h, hmany]
  · obtain ⟨p, rfl⟩ : ∃ p, taken = [p] := by
      have := List.length_pos_of_ne_nil htaken
      exact List.length_eq_one_iff.1 (by omega)
    simp [groupsOf]

theorem nil_notMem_groupsOf (joined : Prop) [Decidable joined] (taken : List CellPiece) :
    [] ∉ groupsOf joined taken := by
  unfold groupsOf
  split
  · rename_i h
    simp only [List.mem_singleton]
    rintro rfl
    simp at h
  · simp

/-- The cells left are enough for the text that is left. -/
theorem Walked.enough (h : Walked u runs pieces before s groups rest)
    (htext : textOf pieces = (before ++ grapheme :: after).flatten) :
    byteLength grapheme ≤ s.ahead + byteLength (textOf rest) := by
  have hall : byteLength (textOf groups.flatten) + byteLength (textOf rest) =
      byteLength before.flatten + (byteLength grapheme + byteLength after.flatten) := by
    rw [← byteLength_append, ← textOf_append, h.pieces_eq, htext]
    simp [byteLength_append]
  have := h.covered
  have := h.offset
  omega

/-- The cells that a grapheme takes. -/
theorem Walked.takeCells (h : Walked u runs pieces before s groups rest)
    (hwidth : widthOf pieces < 2 ^ 16)
    (htext : textOf pieces = (before ++ grapheme :: after).flatten) :
    ∃ taken rest', rest = taken ++ rest' ∧
      Client.takeCells (byteLength grapheme) s.ahead 0 s.cells =
        ⟨taken.map span, s.ahead + byteLength (textOf taken), widthOf taken, rest'.map span⟩ ∧
      byteLength grapheme ≤ s.ahead + byteLength (textOf taken) := by
  have hroom : 0 + widthOf rest < 2 ^ 16 := by
    rw [← h.pieces_eq, widthOf_append] at hwidth
    omega
  obtain ⟨taken, rest', rfl, htaken, henough⟩ :=
    takeCells_span (byteLength grapheme) s.ahead 0 rest hroom
  rw [← h.cells, Nat.zero_add] at htaken
  refine ⟨taken, rest', rfl, htaken, ?_⟩
  obtain hlen | rfl := henough
  · exact hlen
  · simpa using h.enough htext

/-- The test of the loop for a grapheme within one run. -/
def CellWalk.oneStyle (s : CellWalk) (grapheme : List Char) : Bool :=
  (s.runEnds.dropWhile (· ≤ s.offset)).head?.all (s.offset + byteLength grapheme ≤ ·)

/-- The loop where a grapheme takes cells. -/
theorem walkGrapheme_of_lt {taken : TakenCells} (hahead : s.ahead < byteLength grapheme)
    (htaken : takeCells (byteLength grapheme) s.ahead 0 s.cells = taken) :
    walkGrapheme u s grapheme =
      { runEnds := s.runEnds.dropWhile (· ≤ s.offset)
        offset := s.offset + byteLength grapheme
        spans := s.spans ++
          if Joins u grapheme s.ahead (s.oneStyle grapheme) taken ∧ 1 < taken.spans.length then
            [⟨byteLength grapheme, taken.width⟩]
          else taken.spans
        differs := s.differs || !decide (Joins u grapheme s.ahead (s.oneStyle grapheme) taken)
        cells := taken.rest
        ahead := taken.covered - byteLength grapheme } := by
  rw [walkGrapheme, if_neg (by omega), htaken]
  rfl

/-- A grapheme that takes cells. -/
theorem Walked.take (h : Walked u runs pieces before s groups rest)
    (hwidth : widthOf pieces < 2 ^ 16) (htext : textOf pieces = (before ++ grapheme :: after).flatten)
    (hahead : s.ahead < byteLength grapheme) :
    ∃ groups rest, Walked u runs pieces (before ++ [grapheme]) (walkGrapheme u s grapheme) groups
      rest := by
  obtain ⟨taken, rest', rfl, htaken, hcovered⟩ := h.takeCells hwidth htext
  have hne : taken ≠ [] := by
    rintro rfl
    simp at hcovered
    omega
  let joined := Joins u grapheme s.ahead (s.oneStyle grapheme)
    ⟨taken.map span, s.ahead + byteLength (textOf taken), widthOf taken, rest'.map span⟩
  have hexact : joined → s.ahead = 0 ∧ byteLength (textOf taken) = byteLength grapheme := by
    rintro ⟨-, ⟨hzero, hlen⟩, -⟩
    exact ⟨hzero, by simpa [hzero] using hlen⟩
  have hstart : 0 + byteLength (textOf groups.flatten) = s.offset + s.ahead := by
    rw [Nat.zero_add, h.covered]
  refine ⟨groups ++ groupsOf joined taken, rest', ?_⟩
  rw [walkGrapheme_of_lt hahead htaken]
  refine ⟨?_, rfl, ?_, ?_, ?_, fun byte hbyte ↦ h.ends_step hbyte, ?_, ?_, ?_⟩
  · rw [List.flatten_append, flatten_groupsOf, List.append_assoc]
    exact h.pieces_eq
  · rw [List.map_append, List.map_append, ← h.spans]
    refine congrArg (s.spans ++ ·) ?_
    dsimp only
    rw [List.length_map, groupsOf]
    split
    · rename_i hjoined
      simp [join, span, (hexact hjoined.1).2]
    · rw [map_join_singles]
  · simp [h.offset, byteLength_append]
  · rw [List.flatten_append, flatten_groupsOf, textOf_append, byteLength_append, h.covered]
    change _ = s.offset + byteLength grapheme + (s.ahead + byteLength (textOf taken) -
      byteLength grapheme)
    omega
  · simpa using ⟨h.filled, nil_notMem_groupsOf joined taken⟩
  · refine grouped_append.2 ⟨h.grouped, ?_⟩
    rw [hstart]
    by_cases hjoined : joined ∧ 1 < taken.length
    · obtain ⟨hzero, hlen⟩ := hexact hjoined.1
      have hstyle : s.oneStyle grapheme = true := by
        obtain hstyle | hone := hjoined.1.2.2.1
        · exact hstyle
        · simp at hone
          omega
      rw [groupsOf, if_pos hjoined, hzero, Nat.add_zero]
      exact ⟨fun _ ↦ hlen ▸ h.inOneRun hstyle, trivial⟩
    · rw [groupsOf, if_neg hjoined]
      exact grouped_singles runs _ taken
  · intro hsame
    obtain ⟨hdiffers, hjoined⟩ : s.differs = false ∧ joined := by simpa using hsame
    obtain ⟨hzero, hlen⟩ := hexact hjoined
    have hgrapheme : join taken = ofGrapheme u grapheme := by
      have hword := h.textOf_taken rfl hzero htext hlen
      have hcolumns : widthOf taken = u.graphemeWidth grapheme := hjoined.2.2.2
      simp [join, ofGrapheme, hword, hcolumns]
    refine ⟨by change s.ahead + _ - _ = 0; omega, ?_⟩
    rw [List.map_append, (h.same hdiffers).2, map_join_groupsOf hjoined hne, hgrapheme]
    simp

/-- **One grapheme.** -/
theorem Walked.step (h : Walked u runs pieces before s groups rest) (hgrapheme : grapheme ≠ [])
    (hwidth : widthOf pieces < 2 ^ 16)
    (htext : textOf pieces = (before ++ grapheme :: after).flatten) :
    ∃ groups rest, Walked u runs pieces (before ++ [grapheme]) (walkGrapheme u s grapheme) groups
      rest := by
  by_cases hahead : byteLength grapheme ≤ s.ahead
  · exact ⟨groups, rest, h.skip hgrapheme hahead⟩
  · exact h.take hwidth htext (by omega)

/-- All graphemes of the text. -/
theorem Walked.run (hgraphemes : [] ∉ after) (hwidth : widthOf pieces < 2 ^ 16)
    (h : Walked u runs pieces before s groups rest)
    (htext : textOf pieces = (before ++ after).flatten) :
    ∃ groups rest, Walked u runs pieces (before ++ after) (after.foldl (walkGrapheme u) s) groups
      rest := by
  induction after generalizing before s groups rest with
  | nil => exact ⟨groups, rest, by simpa using h⟩
  | cons grapheme after ih =>
    simp only [List.mem_cons, not_or] at hgraphemes
    obtain ⟨groups', rest', hstep⟩ := h.step (Ne.symm hgraphemes.1) hwidth htext
    have hsplit : before ++ grapheme :: after = before ++ [grapheme] ++ after := by simp
    rw [hsplit] at htext ⊢
    exact ih hgraphemes.2 hstep htext

/-! ### The walk once more -/

/-- Taking the cells that were taken takes them all. -/
theorem takeCells_again (len covered width : ℕ) (cells extra : List CellSpan)
    (henough : len ≤ (takeCells len covered width cells).covered) :
    takeCells len covered width ((takeCells len covered width cells).spans ++ extra) =
      { takeCells len covered width cells with rest := extra } := by
  induction cells generalizing covered width with
  | nil =>
    have hlen : ¬ covered < len := Nat.not_lt.2 henough
    cases extra with
    | nil => rfl
    | cons cell extra => simp [takeCells, hlen]
  | cons cell cells ih =>
    by_cases hcovered : covered < len
    · rw [takeCells, if_pos hcovered] at henough ⊢
      simp only [List.cons_append, takeCells, if_pos hcovered, ih _ _ henough]
    · rw [takeCells, if_neg hcovered]
      cases extra with
      | nil => rfl
      | cons cell extra => simp [takeCells, hcovered]

/-- A cell that makes up a grapheme by itself is taken whole. -/
theorem takeCells_whole (len width : ℕ) (extra : List CellSpan) (hlen : 0 < len)
    (hwidth : width < 2 ^ 8) :
    takeCells len 0 0 (⟨len, width⟩ :: extra) = ⟨[⟨len, width⟩], len, width, extra⟩ := by
  have hmod : (0 + width) % 2 ^ 16 = width := by omega
  rw [takeCells, if_pos hlen, hmod, Nat.zero_add]
  cases extra with
  | nil => rfl
  | cons cell extra => simp [takeCells]

/-- The cells a grapheme has put out are those it puts out again. -/
theorem walkGrapheme_again (hgrapheme : grapheme ≠ [])
    (henough : s.ahead < byteLength grapheme →
      byteLength grapheme ≤ (takeCells (byteLength grapheme) s.ahead 0 s.cells).covered) :
    ∃ made, (walkGrapheme u s grapheme).spans = s.spans ++ made ∧ ∀ extra,
      walkGrapheme u { s with cells := made ++ extra } grapheme =
        { walkGrapheme u s grapheme with cells := extra } := by
  by_cases hahead : byteLength grapheme ≤ s.ahead
  · refine ⟨[], by simp [walkGrapheme, hahead], fun extra ↦ ?_⟩
    simp [walkGrapheme, hahead]
  · have hlt : s.ahead < byteLength grapheme := by omega
    have hcovered := henough hlt
    generalize htaken : takeCells (byteLength grapheme) s.ahead 0 s.cells = taken at hcovered
    rw [walkGrapheme_of_lt hlt htaken]
    refine ⟨_, rfl, fun extra ↦ ?_⟩
    by_cases hjoined :
      Joins u grapheme s.ahead (s.oneStyle grapheme) taken ∧ 1 < taken.spans.length
    · obtain ⟨hjoins, hmany⟩ := hjoined
      obtain ⟨⟨hshort, hnarrow⟩, ⟨hzero, hlen⟩, -, hwidth⟩ := id hjoins
      have hwhole : takeCells (byteLength grapheme) s.ahead 0
          ([⟨byteLength grapheme, taken.width⟩] ++ extra) =
            ⟨[⟨byteLength grapheme, taken.width⟩], byteLength grapheme, taken.width, extra⟩ := by
        rw [hzero]
        exact takeCells_whole _ _ _ (byteLength_pos hgrapheme) hnarrow
      have hagain : Joins u grapheme s.ahead (s.oneStyle grapheme)
          ⟨[⟨byteLength grapheme, taken.width⟩], byteLength grapheme, taken.width, extra⟩ :=
        ⟨⟨hshort, hnarrow⟩, ⟨hzero, rfl⟩, Or.inr rfl, hwidth⟩
      rw [if_pos ⟨hjoins, hmany⟩, walkGrapheme_of_lt
        (s := { s with cells := [⟨byteLength grapheme, taken.width⟩] ++ extra }) hlt hwhole,
        CellWalk.mk.injEq]
      refine ⟨rfl, rfl, congrArg (s.spans ++ ·) (if_neg ?_), ?_, rfl, ?_⟩
      · simp
      · exact congrArg (s.differs || !·) ((decide_eq_true hagain).trans (decide_eq_true hjoins).symm)
      · change byteLength grapheme - byteLength grapheme = taken.covered - byteLength grapheme
        rw [hlen]
    · have hsame := takeCells_again (byteLength grapheme) s.ahead 0 s.cells extra
        (by rw [htaken]; exact hcovered)
      rw [htaken] at hsame
      rw [if_neg hjoined,
        walkGrapheme_of_lt (s := { s with cells := taken.spans ++ extra }) hlt hsame,
        CellWalk.mk.injEq]
      exact ⟨rfl, rfl, congrArg (s.spans ++ ·) (if_neg hjoined), rfl, rfl, rfl⟩

/-- The cells a text has put out are those it puts out again. -/
theorem Walked.again (hgraphemes : [] ∉ after) (hwidth : widthOf pieces < 2 ^ 16)
    (h : Walked u runs pieces before s groups rest)
    (htext : textOf pieces = (before ++ after).flatten) :
    ∃ made, (after.foldl (walkGrapheme u) s).spans = s.spans ++ made ∧ ∀ extra,
      after.foldl (walkGrapheme u) { s with cells := made ++ extra } =
        { after.foldl (walkGrapheme u) s with cells := extra } := by
  induction after generalizing before s groups rest with
  | nil => exact ⟨[], by simp, fun extra ↦ rfl⟩
  | cons grapheme after ih =>
    simp only [List.mem_cons, not_or] at hgraphemes
    have henough : byteLength grapheme ≤
        (Client.takeCells (byteLength grapheme) s.ahead 0 s.cells).covered := by
      obtain ⟨taken, rest', -, htaken, hcovered⟩ := h.takeCells hwidth htext
      rw [htaken]
      exact hcovered
    obtain ⟨groups', rest', hstep⟩ := h.step (Ne.symm hgraphemes.1) hwidth htext
    obtain ⟨made, hmade, hagain⟩ :=
      walkGrapheme_again (u := u) (Ne.symm hgraphemes.1) fun _ ↦ henough
    have hsplit : before ++ grapheme :: after = before ++ [grapheme] ++ after := by simp
    rw [hsplit] at htext
    obtain ⟨made', hmade', hagain'⟩ := ih hgraphemes.2 hstep htext
    refine ⟨made ++ made', ?_, fun extra ↦ ?_⟩
    · rw [List.foldl_cons, hmade', hmade, List.append_assoc]
    · rw [List.foldl_cons, List.foldl_cons, List.append_assoc, hagain]
      exact hagain' extra

/-- Past the last grapheme every cell has been taken. -/
theorem Walked.rest_eq_nil (h : Walked u runs pieces before s groups rest) (hfilled : HaveText pieces)
    (htext : textOf pieces = before.flatten) : rest = [] := by
  have hall : byteLength (textOf groups.flatten) + byteLength (textOf rest) = s.offset := by
    rw [h.offset, ← htext, ← h.pieces_eq, textOf_append, byteLength_append]
  have := h.covered
  cases rest with
  | nil => rfl
  | cons p rest =>
    have hpos := byteLength_pos (hfilled p (by simp [← h.pieces_eq]))
    rw [textOf_cons, byteLength_append] at hall
    omega

end Walk

/-! ## Groups and cells -/

section Groups

open CellPiece

variable {u : Unicode} {line : StyledLine} {pieces : List CellPiece} {groups : List (List CellPiece)}

theorem textOf_map_join (groups : List (List CellPiece)) :
    textOf (groups.map join) = textOf groups.flatten := by
  induction groups with
  | nil => rfl
  | cons group groups ih => simp [ih, join]

theorem widthOf_map_join (groups : List (List CellPiece)) :
    widthOf (groups.map join) = widthOf groups.flatten := by
  induction groups with
  | nil => rfl
  | cons group groups ih => simp [ih, join]

theorem sum_byteLength (pieces : List CellPiece) :
    (pieces.map fun p ↦ byteLength p.text).sum = byteLength (textOf pieces) := by
  induction pieces with
  | nil => rfl
  | cons p pieces ih => simp [ih, byteLength_append]

theorem columnsBefore_append {xs ys : List CellPiece} (hfilled : HaveText (xs ++ ys)) :
    columnsBefore ((xs ++ ys).map span) (byteLength (textOf xs)) = widthOf xs := by
  induction xs with
  | nil =>
    cases ys with
    | nil => rfl
    | cons p ys =>
      have hpos : ¬ p.span.len ≤ 0 := by
        have := byteLength_pos (hfilled p (by simp))
        exact Nat.not_le.2 this
      simp [columnsBefore, hpos]
  | cons p xs ih =>
    have hle : p.span.len ≤ byteLength (textOf (p :: xs)) := by
      rw [textOf_cons, byteLength_append]
      exact Nat.le_add_right _ _
    have hrest : byteLength (textOf (p :: xs)) - p.span.len = byteLength (textOf xs) := by
      rw [textOf_cons, byteLength_append]
      exact Nat.add_sub_cancel_left _ _
    rw [List.cons_append, List.map_cons, columnsBefore, if_pos hle, hrest,
      ih fun q hq ↦ hfilled q (List.mem_cons_of_mem _ hq)]
    rfl

theorem cellsAt_eq_append {offset : ℕ} {before after : List LineCell} {cell : LineCell}
    (h : cellsAt offset pieces = before ++ cell :: after) :
    ∃ xs p ys, pieces = xs ++ p :: ys ∧ before = cellsAt offset xs ∧
      cell = ⟨offset + byteLength (textOf xs), p.text, p.width⟩ := by
  induction before generalizing offset pieces with
  | nil =>
    cases pieces with
    | nil => cases h
    | cons p pieces =>
      rw [cellsAt, List.nil_append, List.cons.injEq] at h
      exact ⟨[], p, pieces, rfl, rfl, h.1.symm⟩
  | cons c before ih =>
    cases pieces with
    | nil => cases h
    | cons p pieces =>
      rw [cellsAt, List.cons_append, List.cons.injEq] at h
      obtain ⟨rfl, h⟩ := h
      obtain ⟨xs, q, ys, rfl, rfl, rfl⟩ := ih h
      exact ⟨p :: xs, q, ys, rfl, rfl, by simp [byteLength_append, Nat.add_assoc]⟩

/-- A cell of groups is one of the groups. -/
theorem group_of_cellsAt {before after : List LineCell} {cell : LineCell}
    (h : cellsAt 0 (groups.map join) = before ++ cell :: after) :
    ∃ xs group ys, groups = xs ++ group :: ys ∧ before = cellsAt 0 (xs.map join) ∧
      cell = ⟨byteLength (textOf xs.flatten), textOf group, widthOf group⟩ := by
  obtain ⟨xs', p, ys', hgroups, rfl, rfl⟩ := cellsAt_eq_append h
  obtain ⟨xs, tail, rfl, rfl, htail⟩ := List.map_eq_append_iff.1 hgroups
  obtain ⟨group, ys, rfl, rfl, rfl⟩ := List.map_eq_cons_iff.1 htail
  exact ⟨xs, group, ys, rfl, rfl, by rw [Nat.zero_add, textOf_map_join]; rfl⟩

/-- Two pieces within a group are not all there is to one piece. -/
theorem two_le_length_of_within {xs group : List CellPiece} {tail before between after : List CellPiece}
    {first second : CellPiece} (hfilled : HaveText (xs ++ (group ++ tail)))
    (h : xs ++ (group ++ tail) = before ++ first :: (between ++ second :: after))
    (hstart : byteLength (textOf xs) ≤ byteLength (textOf before))
    (hstop : byteLength (textOf (before ++ first :: (between ++ [second]))) ≤
      byteLength (textOf xs) + byteLength (textOf group)) : 2 ≤ group.length := by
  have hpos : ∀ p ∈ xs ++ (group ++ tail), 0 < byteLength p.text :=
    fun p hp ↦ byteLength_pos (hfilled p hp)
  have hxs : xs <+: before := by
    refine prefix_of_weigh_le (fun p hp ↦ hpos p (List.mem_append_left _ hp)) h ?_
    rwa [sum_byteLength, sum_byteLength]
  have hboth : before ++ first :: (between ++ [second]) <+: xs ++ group := by
    have hsplit : before ++ first :: (between ++ [second]) ++ after = xs ++ group ++ tail := by
      simp [h]
    refine @prefix_of_weigh_le _ (fun p : CellPiece ↦ byteLength p.text) _ (fun p hp ↦ hpos p ?_) _ _ _
      hsplit ?_
    · rw [← List.append_assoc, ← hsplit]
      exact List.mem_append_left _ hp
    · rw [sum_byteLength, sum_byteLength, textOf_append xs, byteLength_append (textOf xs)]
      exact hstop
  have hlong := hboth.length_le
  have := hxs.length_le
  simp only [List.length_append, List.length_cons, List.length_nil] at hlong
  omega

/-- The cells of a line, once set, are groups of the emulator's: single cells, or cells in one run. -/
structure LaidBy (u : Unicode) (line : StyledLine) (pieces : List CellPiece)
    (groups : List (List CellPiece)) : Prop where
  pieces_eq : groups.flatten = pieces
  filled : [] ∉ groups
  grouped : Grouped line.runs 0 groups
  cells : (line.setCells u (pieces.map span)).cells u = cellsAt 0 (groups.map join)
  settled : (line.setCells u (pieces.map span)).setCells u ((groups.map join).map span) =
    line.setCells u (pieces.map span)

/-- **Groups lay a line out.** -/
theorem LaidBy.laysOut (h : LaidBy u line pieces groups) (htext : textOf pieces = line.text)
    (hfilled : HaveText pieces) : LaysOut u line (pieces.map span) where
  text := by
    rw [h.cells, map_text_cellsAt]
    exact (textOf_map_join groups).trans (h.pieces_eq ▸ htext)
  nonempty := by
    intro cell hcell
    rw [h.cells] at hcell
    obtain ⟨before, after, hsplit⟩ := List.append_of_mem hcell
    obtain ⟨xs, group, ys, rfl, -, rfl⟩ := group_of_cellsAt hsplit
    have hne := h.filled
    cases group with
    | nil => simp at hne
    | cons p group =>
      have hp := hfilled p (by simp [← h.pieces_eq])
      simp [hp]
  offset := by
    intro before cell after hsplit
    rw [h.cells] at hsplit
    obtain ⟨xs, group, ys, -, rfl, rfl⟩ := group_of_cellsAt hsplit
    rw [map_text_cellsAt]
    exact congrArg byteLength (textOf_map_join xs).symm
  column := by
    intro before cell after hsplit
    rw [h.cells] at hsplit
    obtain ⟨xs, group, ys, rfl, rfl, rfl⟩ := group_of_cellsAt hsplit
    have hgroups := h.pieces_eq
    rw [List.flatten_append] at hgroups
    subst hgroups
    rw [columnsBefore_append hfilled, map_width_cellsAt, ← widthOf_map_join]
    rfl
  width := by
    rw [StyledLine.width, h.cells, map_width_cellsAt, widthOf_span, ← h.pieces_eq, ← widthOf_map_join]
    rfl
  apart := by
    intro cell hcell before first between second after hpieces hstart hstop i hi j hj
    rw [h.cells] at hcell
    obtain ⟨left, right, hsplit⟩ := List.append_of_mem hcell
    obtain ⟨xs, group, ys, rfl, -, rfl⟩ := group_of_cellsAt hsplit
    obtain ⟨before, fromFirst, rfl, rfl, hfirst⟩ := List.map_eq_append_iff.1 hpieces
    obtain ⟨first, afterFirst, rfl, rfl, hafter⟩ := List.map_eq_cons_iff.1 hfirst
    obtain ⟨between, fromSecond, rfl, rfl, hsecond⟩ := List.map_eq_append_iff.1 hafter
    obtain ⟨second, after, rfl, rfl, rfl⟩ := List.map_eq_cons_iff.1 hsecond
    have hleft : spanLength (before.map span ++ first.span :: between.map span) =
        byteLength (textOf (before ++ first :: between)) := by
      rw [← spanLength_span]
      simp
    have hright : spanLength (before.map span ++ first.span :: (between.map span ++ [second.span])) =
        byteLength (textOf (before ++ first :: (between ++ [second]))) := by
      rw [← spanLength_span]
      simp
    rw [spanLength_span] at hstart
    rw [hright] at hstop
    rw [spanLength_span, hleft]
    -- the group is of several pieces, so it lies in one run
    have hwhole : xs.flatten ++ (group ++ ys.flatten) =
        before ++ first :: (between ++ second :: after) := by
      rw [← h.pieces_eq]
      simp
    have hmany : 2 ≤ group.length := by
      rw [← hwhole] at hfilled
      exact two_le_length_of_within hfilled hwhole hstart hstop
    have hrun := (grouped_append.1 h.grouped).2.1 hmany
    rw [Nat.zero_add] at hrun
    -- both bytes are in it
    have hi : i < byteLength first.text := hi
    have hj : j < byteLength second.text := hj
    simp only [textOf_append, textOf_cons, byteLength_append, textOf_nil, byteLength_nil] at hstart hstop ⊢
    have := hrun (byteLength (textOf before) + i - byteLength (textOf xs.flatten)) (by omega)
      (byteLength (textOf before) + (byteLength first.text + byteLength (textOf between)) + j -
        byteLength (textOf xs.flatten)) (by omega)
    rwa [Nat.add_sub_cancel' (by omega), Nat.add_sub_cancel' (by omega)] at this
  settled := by
    rw [h.cells, map_span_cellsAt]
    exact h.settled

/-! ## Setting cells -/

/-- The cells of an emulator for a text: pieces of it, each over some columns. The columns of a
terminal are counted in 16 bits, and so are those of its lines. -/
structure Emulated (text : List Char) (cells : List CellSpan) : Prop where
  cut : ∃ texts : List (List Char), texts.flatten = text ∧ [] ∉ texts ∧
    cells.map (·.len) = texts.map byteLength
  wide : ∀ cell ∈ cells, 1 ≤ cell.width
  columns : (cells.map (·.width)).sum < 2 ^ 16

def lineBreak : List Char := ['\r', '\n']

/-- How a text is cut into graphemes. Of ASCII characters only a line break is a grapheme of several,
and none is drawn over more than a column. -/
structure Unicode.Cuts (u : Unicode) (text : List Char) : Prop where
  flatten : (u.graphemes text).flatten = text
  filled : [] ∉ u.graphemes text
  lineBreak : lineBreak <:+: text → lineBreak ∈ u.graphemes text
  ascii : (∀ c ∈ text, c.val < 128) → ∀ g ∈ u.graphemes text, g = Client.lineBreak ∨ ∃ c, g = [c]
  narrow : (∀ c ∈ text, c.val < 128) → ∀ g ∈ u.graphemes text, u.width g ≤ 1

theorem exists_pieces_of_len {cells : List CellSpan} {texts : List (List Char)}
    (h : cells.map (·.len) = texts.map byteLength) :
    ∃ pieces : List CellPiece, pieces.map text = texts ∧ cells = pieces.map span := by
  induction cells generalizing texts with
  | nil =>
    cases texts with
    | nil => exact ⟨[], rfl, rfl⟩
    | cons text texts => cases h
  | cons cell cells ih =>
    cases texts with
    | nil => cases h
    | cons text texts =>
      rw [List.map_cons, List.map_cons, List.cons.injEq] at h
      obtain ⟨pieces, rfl, rfl⟩ := ih h.2
      exact ⟨⟨text, cell.width⟩ :: pieces, rfl, by simp [span, ← h.1]⟩

theorem Emulated.exists_pieces {text : List Char} {cells : List CellSpan} (h : Emulated text cells) :
    ∃ pieces : List CellPiece, cells = pieces.map span ∧ textOf pieces = text ∧ HaveText pieces ∧
      (∀ p ∈ pieces, 1 ≤ p.width) ∧ widthOf pieces < 2 ^ 16 := by
  obtain ⟨texts, htext, hfilled, hlen⟩ := h.cut
  obtain ⟨pieces, rfl, rfl⟩ := exists_pieces_of_len hlen
  refine ⟨pieces, rfl, htext, fun p hp hempty ↦ ?_, fun p hp ↦ ?_, ?_⟩
  · exact hfilled (hempty ▸ List.mem_map_of_mem hp)
  · exact h.wide p.span (List.mem_map_of_mem hp)
  · rw [← widthOf_span]
    exact h.columns

theorem length_le_flatten {α : Type*} {parts : List (List α)} (hne : [] ∉ parts) :
    parts.length ≤ parts.flatten.length := by
  induction parts with
  | nil => rfl
  | cons part parts ih =>
    simp only [List.mem_cons, not_or] at hne
    have hpos := List.length_pos_of_ne_nil (Ne.symm hne.1)
    have hrest := ih hne.2
    simp only [List.flatten_cons, List.length_append, List.length_cons]
    omega

/-- Parts that are as many as what they are made of are single. -/
theorem length_eq_one_of_length_le {α : Type*} {parts : List (List α)} (hne : [] ∉ parts)
    (h : parts.flatten.length ≤ parts.length) : ∀ part ∈ parts, part.length = 1 := by
  induction parts with
  | nil => simp
  | cons part parts ih =>
    simp only [List.mem_cons, not_or] at hne
    have hpos := List.length_pos_of_ne_nil (Ne.symm hne.1)
    have hrest := length_le_flatten hne.2
    simp only [List.flatten_cons, List.length_append, List.length_cons] at h
    rw [List.forall_mem_cons]
    exact ⟨by omega, ih hne.2 (by omega)⟩

/-- Groups that are as many as their pieces are the pieces. -/
theorem map_join_of_length_le (hne : [] ∉ groups) (h : groups.flatten.length ≤ groups.length) :
    groups.map join = groups.flatten := by
  have hone := length_eq_one_of_length_le hne h
  clear hne h
  induction groups with
  | nil => rfl
  | cons group groups ih =>
    rw [List.forall_mem_cons] at hone
    obtain ⟨p, rfl⟩ := List.length_eq_one_iff.1 hone.1
    rw [List.map_cons, join_singleton, ih hone.2]
    rfl

theorem length_le_byteLength (hfilled : HaveText pieces) :
    pieces.length ≤ byteLength (textOf pieces) := by
  induction pieces with
  | nil => rfl
  | cons p pieces ih =>
    have hpos := byteLength_pos (hfilled p List.mem_cons_self)
    have hrest := ih fun q hq ↦ hfilled q (List.mem_cons_of_mem _ hq)
    rw [textOf_cons, byteLength_append, List.length_cons]
    omega

/-- Groups are set as a narrow cell for each character only if the pieces are. -/
theorem plain_of_plain_groups (htext : textOf pieces = line.text) (hfilled : HaveText pieces)
    (hgroups : groups.flatten = pieces) (hne : [] ∉ groups)
    (h : PlainCells line ((groups.map join).map span)) : PlainCells line (pieces.map span) := by
  have hlen : groups.flatten.length ≤ groups.length := by
    have hcount := h.2.1
    simp only [List.length_map] at hcount
    rw [hcount, hgroups, ← htext]
    exact length_le_byteLength hfilled
  rwa [map_join_of_length_le hne hlen, hgroups] at h

/-- The cells that are kept, or given by the text, are the groups of the walk. -/
theorem cells_of_groups {differs : Bool} (htext : textOf pieces = line.text)
    (hfilled : HaveText pieces) (hwide : ∀ p ∈ pieces, 1 ≤ p.width)
    (hgroups : groups.flatten = pieces) (hne : [] ∉ groups) (hsome : pieces ≠ [])
    (hsame : differs = false → groups.map join = (u.graphemes line.text).map (ofGrapheme u)) :
    StyledLine.cells u
        { line with cellSpans := if differs then (groups.map join).map span else [] } =
      cellsAt 0 (groups.map join) := by
  cases differs with
  | false =>
    rw [hsame rfl]
    exact graphemeCells_eq u 0 _
  | true =>
    have hjoin : ∀ p ∈ groups.map join, p.text ≠ [] ∧ 1 ≤ p.width := by
      intro p hp
      obtain ⟨group, hgroup, rfl⟩ := List.mem_map.1 hp
      cases group with
      | nil => exact absurd hgroup hne
      | cons q group =>
        have hq : q ∈ pieces := hgroups ▸ List.mem_flatten_of_mem hgroup List.mem_cons_self
        refine ⟨by simp [join, hfilled q hq], ?_⟩
        have := hwide q hq
        simp only [join, widthOf_cons]
        omega
    have hspans : (groups.map join).map span ≠ [] := by
      intro hnil
      simp only [List.map_eq_nil_iff] at hnil
      exact hsome (by rw [← hgroups, hnil]; rfl)
    have hcover := spanCells_span 0 (fun p hp ↦ (hjoin p hp).1) fun p hp ↦ (hjoin p hp).2
    rw [textOf_map_join, hgroups, htext] at hcover
    simp only [StyledLine.cells, if_true, if_neg hspans, hcover, Option.getD_some]

/-- The cells that a line has do not matter to the cells that are set. -/
theorem setCells_cellSpans (spans cells : List CellSpan) :
    ({ line with cellSpans := spans } : StyledLine).setCells u cells = line.setCells u cells := rfl

/-- The cells are set by the loop. -/
theorem exists_laidBy_of_not_plain (hu : u.Cuts line.text) (htext : textOf pieces = line.text)
    (hfilled : HaveText pieces) (hwide : ∀ p ∈ pieces, 1 ≤ p.width)
    (hcolumns : widthOf pieces < 2 ^ 16) (hplain : ¬ PlainCells line (pieces.map span)) :
    ∃ groups, LaidBy u line pieces groups := by
  have hall : textOf pieces = ([] ++ u.graphemes line.text).flatten := by
    rw [htext, List.nil_append, hu.flatten]
  obtain ⟨groups, rest, hwalked⟩ := (walked_start u line pieces).run hu.filled hcolumns hall
  obtain ⟨made, hmade, hagain⟩ := (walked_start u line pieces).again hu.filled hcolumns hall
  rw [List.nil_append] at hwalked hall
  obtain rfl := hwalked.rest_eq_nil hfilled hall
  have hgroups : groups.flatten = pieces := by simpa using hwalked.pieces_eq
  have hspans := hwalked.spans
  obtain rfl : made = (groups.map join).map span := by
    rw [hspans] at hmade
    exact hmade.symm
  have hset : line.setCells u (pieces.map span) =
      { line with
        cellSpans :=
          if ((u.graphemes line.text).foldl (walkGrapheme u)
            (.start line (pieces.map span))).differs then (groups.map join).map span else [] } := by
    rw [StyledLine.setCells, if_neg hplain]
    simp only [hspans, hwalked.cells, List.map_nil, List.append_nil]
  have hsome : pieces ≠ [] := by
    rintro rfl
    refine hplain ?_
    rw [PlainCells, ← htext]
    simp
  refine ⟨groups, hgroups, hwalked.filled, hwalked.grouped, ?_, ?_⟩
  · rw [hset]
    exact cells_of_groups htext hfilled hwide hgroups hwalked.filled hsome fun h ↦ (hwalked.same h).2
  · have hplain' : ¬ PlainCells line ((groups.map join).map span) :=
      fun h ↦ hplain (plain_of_plain_groups htext hfilled hgroups hwalked.filled h)
    have hfold : (u.graphemes line.text).foldl (walkGrapheme u)
        (.start line ((groups.map join).map span)) =
          { (u.graphemes line.text).foldl (walkGrapheme u) (.start line (pieces.map span)) with
            cells := [] } := by
      rw [← hagain [], List.append_nil]
      rfl
    rw [hset, setCells_cellSpans, StyledLine.setCells, if_neg hplain', hfold]
    simp only [hspans, List.append_nil]

theorem utf8Size_of_ascii {c : Char} (h : c.val < 128) : c.utf8Size = 1 := by
  rw [Char.utf8Size_eq_one_iff]
  exact Nat.le_of_lt_succ h

theorem byteLength_of_ascii {text : List Char} (h : ∀ c ∈ text, c.val < 128) :
    byteLength text = text.length := by
  induction text with
  | nil => rfl
  | cons c text ih =>
    have hc := utf8Size_of_ascii (h c List.mem_cons_self)
    have hrest := ih fun d hd ↦ h d (List.mem_cons_of_mem _ hd)
    rw [List.length_cons, ← hrest]
    simp [byteLength, hc, Nat.add_comm]

theorem graphemeWidth_of_narrow {g : List Char} (h : u.width g ≤ 1) : u.graphemeWidth g = 1 := by
  rw [Unicode.graphemeWidth, max_eq_right h]
  rfl

/-- A text cut into single characters. -/
theorem eq_map_singleton {texts : List (List Char)} (h : ∀ t ∈ texts, t.length = 1) :
    texts = texts.flatten.map ([·]) := by
  induction texts with
  | nil => rfl
  | cons t texts ih =>
    obtain ⟨c, rfl⟩ := List.length_eq_one_iff.1 (h t List.mem_cons_self)
    have hrest := ih fun t ht ↦ h t (List.mem_cons_of_mem _ ht)
    rw [List.flatten_cons, List.map_append, ← hrest]
    rfl

/-- A text of single ASCII characters gives the cells. -/
theorem exists_laidBy_of_plain (hu : u.Cuts line.text) (htext : textOf pieces = line.text)
    (hfilled : HaveText pieces) (hplain : PlainCells line (pieces.map span))
    (hbreak : ¬ lineBreak <:+: line.text) : ∃ groups, LaidBy u line pieces groups := by
  obtain ⟨hascii, hcount, hnarrow⟩ := id hplain
  have hset : line.setCells u (pieces.map span) = { line with cellSpans := [] } := if_pos hplain
  have htexts : pieces.map text = u.graphemes line.text := by
    have hgraphemes : ∀ g ∈ u.graphemes line.text, g.length = 1 := by
      intro g hg
      obtain rfl | ⟨c, rfl⟩ := hu.ascii hascii g hg
      · have hmem := List.infix_of_mem_flatten hg
        rw [hu.flatten] at hmem
        exact absurd hmem hbreak
      · rfl
    have hsingle : ∀ t ∈ pieces.map text, t.length = 1 := by
      refine length_eq_one_of_length_le ?_ ?_
      · intro hnil
        obtain ⟨p, hp, hempty⟩ := List.mem_map.1 hnil
        exact hfilled p hp hempty
      · rw [byteLength_of_ascii hascii, ← htext] at hcount
        simpa [textOf] using hcount.ge
    rw [eq_map_singleton hsingle, eq_map_singleton hgraphemes, hu.flatten]
    exact congrArg _ htext
  have hpieces : (u.graphemes line.text).map (ofGrapheme u) = pieces := by
    rw [← htexts, List.map_map]
    refine (List.map_congr_left fun p hp ↦ ?_).trans (List.map_id pieces)
    have hgrapheme : p.text ∈ u.graphemes line.text := htexts ▸ List.mem_map_of_mem hp
    have hwidth : p.width = 1 := hnarrow p.span (List.mem_map_of_mem hp)
    have hgiven := graphemeWidth_of_narrow (hu.narrow hascii _ hgrapheme)
    simp [ofGrapheme, hgiven, ← hwidth]
  refine ⟨pieces.map ([·]), flatten_singles pieces, by simp, grouped_singles _ _ _, ?_, ?_⟩
  · rw [hset, map_join_singles, ← hpieces]
    exact graphemeCells_eq u 0 _
  · rw [hset, map_join_singles]
    exact if_pos hplain

theorem exists_laidBy (hu : u.Cuts line.text) (htext : textOf pieces = line.text)
    (hfilled : HaveText pieces) (hwide : ∀ p ∈ pieces, 1 ≤ p.width)
    (hcolumns : widthOf pieces < 2 ^ 16)
    (hnot : ¬ (PlainCells line (pieces.map span) ∧ lineBreak <:+: line.text)) :
    ∃ groups, LaidBy u line pieces groups := by
  by_cases hplain : PlainCells line (pieces.map span)
  · exact exists_laidBy_of_plain hu htext hfilled hplain fun hbreak ↦ hnot ⟨hplain, hbreak⟩
  · exact exists_laidBy_of_not_plain hu htext hfilled hwide hcolumns hplain

/-- A line break is a cell of the text, and two of the emulator. -/
theorem not_laysOut_of_lineBreak {cells : List CellSpan} (hu : u.Cuts line.text)
    (hplain : PlainCells line cells) (hbreak : lineBreak <:+: line.text) :
    ¬ LaysOut u line cells := by
  intro hlays
  obtain ⟨hascii, hcount, hnarrow⟩ := id hplain
  have hset : line.setCells u cells = { line with cellSpans := [] } := if_pos hplain
  have hwidth := hlays.width
  have hcells : (line.setCells u cells).cells u =
      cellsAt 0 ((u.graphemes line.text).map (ofGrapheme u)) := by
    rw [hset]
    exact graphemeCells_eq u 0 _
  have hgiven : (line.setCells u cells).width u = (u.graphemes line.text).length := by
    have hone : (u.graphemes line.text).map (CellPiece.width ∘ ofGrapheme u) =
        (u.graphemes line.text).map fun _ ↦ 1 :=
      List.map_congr_left fun g hg ↦ graphemeWidth_of_narrow (hu.narrow hascii g hg)
    rw [StyledLine.width, hcells, map_width_cellsAt, List.map_map, hone]
    simp
  have hemulated : (cells.map (·.width)).sum = line.text.length := by
    rw [List.map_congr_left hnarrow, ← byteLength_of_ascii hascii, ← hcount]
    simp
  have hone := length_eq_one_of_length_le hu.filled (by rw [hu.flatten]; omega)
  have := hone _ (hu.lineBreak hbreak)
  simp [lineBreak] at this

/-- **Setting cells.** A line is laid out right, unless its text has a line break and its cells are a
narrow one for each ASCII character. -/
theorem laysOut_iff (u : Unicode) (line : StyledLine) (cells : List CellSpan)
    (hu : u.Cuts line.text) (h : Emulated line.text cells) :
    LaysOut u line cells ↔ ¬ (PlainCells line cells ∧ lineBreak <:+: line.text) := by
  constructor
  · rintro hlays ⟨hplain, hbreak⟩
    exact not_laysOut_of_lineBreak hu hplain hbreak hlays
  · intro hnot
    obtain ⟨pieces, rfl, htext, hfilled, hwide, hcolumns⟩ := h.exists_pieces
    obtain ⟨groups, hlaid⟩ := exists_laidBy hu htext hfilled hwide hcolumns hnot
    exact hlaid.laysOut htext hfilled

end Groups

/-! ### A flag and a line break -/

/-- The two regional indicators of a flag, which are one grapheme. -/
def flag : List Char := [Char.ofNat 0x1F1F8, Char.ofNat 0x1F1EA]

def flagUnicode : Unicode where
  graphemes text := if text = flag then [flag] else text.map ([·])
  width text := if text = flag then 2 else 1

def flagLine : StyledLine := ⟨flag, [], [], []⟩

theorem cuts_flag : flagUnicode.Cuts flag where
  flatten := rfl
  filled := by decide
  lineBreak h := absurd (h.subset List.mem_cons_self) (by decide)
  ascii h := absurd (h _ List.mem_cons_self) (by decide)
  narrow h := absurd (h _ List.mem_cons_self) (by decide)

/-- The cells of an emulator that does not know of graphemes become one. -/
theorem laysOut_flagLine : LaysOut flagUnicode flagLine [⟨4, 1⟩, ⟨4, 1⟩] := by
  have hcells : Emulated flag [⟨4, 1⟩, ⟨4, 1⟩] :=
    ⟨⟨flag.map ([·]), rfl, by simp, rfl⟩, by simp, by decide⟩
  refine (laysOut_iff flagUnicode flagLine _ cuts_flag hcells).2 fun h ↦ ?_
  exact absurd (h.2.subset List.mem_cons_self) (by decide)

def lineBreakUnicode : Unicode := ⟨fun _ ↦ [lineBreak], fun _ ↦ 1⟩

def lineBreakLine : StyledLine := ⟨lineBreak, [], [], []⟩

theorem cuts_lineBreak : lineBreakUnicode.Cuts lineBreak where
  flatten := rfl
  filled := by decide
  lineBreak _ := List.mem_singleton_self _
  ascii _ _ hg := Or.inl (List.mem_singleton.1 hg)
  narrow _ _ _ := le_rfl

/-- Two cells for a line break are set as one. -/
theorem not_laysOut_lineBreakLine :
    ¬ ∀ (u : Unicode) (line : StyledLine) (cells : List CellSpan),
      u.Cuts line.text → Emulated line.text cells → LaysOut u line cells := by
  intro h
  have hcells : Emulated lineBreak [⟨1, 1⟩, ⟨1, 1⟩] :=
    ⟨⟨lineBreak.map ([·]), rfl, by simp, rfl⟩, by simp, by decide⟩
  have hplain : PlainCells lineBreakLine [⟨1, 1⟩, ⟨1, 1⟩] :=
    ⟨by simp [lineBreakLine, lineBreak], by decide, by simp⟩
  exact not_laysOut_of_lineBreak cuts_lineBreak hplain List.infix_rfl
    (h lineBreakUnicode lineBreakLine _ cuts_lineBreak hcells)

end Embers.Client
