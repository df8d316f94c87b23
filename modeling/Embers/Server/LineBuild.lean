import Embers.Client.CellSpans

/-!
# Building a line from a row

Both terminal backends walk a row of their emulator's cells and build a line of what they keep of it:
the text, a run for each stretch of one style, a table of the links in the order they are first seen,
and the cells. `build` is what the two walks come to, for any cells they keep. A line `Shows` its
cells when each of its own cells is one or more of them, at the column of the first and in the style
and link of all, and `shows_setCells` is that the line built shows the cells that were kept.
-/

namespace Embers.Server

open Client Client.CellPiece

/-- The style of a cell. -/
structure Pen where
  fg : TermColor
  bg : TermColor
  attrs : CellAttrs
  underlineColor : TermColor
  deriving DecidableEq, Repr

def Pen.plain : Pen := ⟨.default, .default, ⟨0⟩, .default⟩

/-- An attribute inserted when it is on. -/
def insertAttr (attrs : CellAttrs) (flag : Bool × UInt16) : CellAttrs :=
  if flag.1 then ⟨attrs.bits ||| flag.2⟩ else attrs

/-- A cell that is kept of a row: where it stands and what it shows. -/
structure ShownCell where
  column : ℕ
  piece : CellPiece
  pen : Pen
  link : Option Hyperlink

/-- The style and the link that a run gives its text. -/
def runStyle (run : StyledRun) : Pen × ℕ :=
  (⟨run.fg, run.bg, run.attrs, run.underlineColor⟩, run.link)

/-! ## The walk's variables -/

/-- A run at the end of the line, joined to the last one when they are styled the same. -/
def pushRun (runs : List StyledRun) (run : StyledRun) : List StyledRun :=
  match runs.getLast? with
  | some last =>
    if runStyle last = runStyle run then runs.dropLast ++ [{ last with len := last.len + run.len }]
    else runs ++ [run]
  | none => runs ++ [run]

structure LineBuild where
  text : List Char
  runs : List StyledRun
  styled : Bool
  cells : List CellSpan

namespace LineBuild

def empty : LineBuild := ⟨[], [], false, []⟩

/-- A cell in a style, with the index of its link. -/
def put (s : LineBuild) (piece : CellPiece) (pen : Pen) (link : ℕ) : LineBuild where
  text := s.text ++ piece.text
  runs := pushRun s.runs
    ⟨byteLength piece.text, pen.fg, pen.bg, pen.attrs, pen.underlineColor, link⟩
  styled := s.styled || decide (pen ≠ Pen.plain ∨ link ≠ 0)
  cells := s.cells ++ [piece.span]

/-- The line, without its cells. Runs of a line without any style are dropped. -/
def line (s : LineBuild) (links : List Hyperlink) : StyledLine :=
  ⟨s.text, if s.styled then s.runs else [], links, []⟩

end LineBuild

/-! ## Runs -/

section Runs

variable {runs : List StyledRun} {run : StyledRun}

/-- The bytes that runs cover. -/
def runsLength (runs : List StyledRun) : ℕ := (runs.map (·.len)).sum

theorem runsLength_append (xs ys : List StyledRun) :
    runsLength (xs ++ ys) = runsLength xs + runsLength ys := by
  rw [runsLength, List.map_append, List.sum_append, ← runsLength, ← runsLength]

theorem runsLength_singleton (run : StyledRun) : runsLength [run] = run.len := by
  rw [runsLength, List.map_singleton, List.sum_singleton]

theorem pushRun_nil (run : StyledRun) : pushRun [] run = [run] := rfl

theorem pushRun_append (runs : List StyledRun) (last run : StyledRun) :
    pushRun (runs ++ [last]) run =
      if runStyle last = runStyle run then runs ++ [{ last with len := last.len + run.len }]
      else runs ++ [last] ++ [run] := by
  rw [pushRun, List.getLast?_append_of_ne_nil _ (List.cons_ne_nil _ _)]
  dsimp only [List.getLast?_singleton]
  rw [List.dropLast_concat]

theorem runsLength_pushRun (runs : List StyledRun) (run : StyledRun) :
    runsLength (pushRun runs run) = runsLength runs + run.len := by
  rcases List.eq_nil_or_concat' runs with rfl | ⟨runs, last, rfl⟩
  · rw [pushRun_nil, runsLength_singleton]
    exact (Nat.zero_add _).symm
  · rw [pushRun_append]
    split
    · rw [runsLength_append, runsLength_append, runsLength_singleton, runsLength_singleton,
        Nat.add_assoc]
    · rw [runsLength_append, runsLength_singleton]

/-- Runs next to each other are styled apart. -/
def RunsDiffer (runs : List StyledRun) : Prop :=
  runs.IsChain fun a b ↦ runStyle a ≠ runStyle b

theorem RunsDiffer.pushRun (h : RunsDiffer runs) (run : StyledRun) : RunsDiffer (pushRun runs run) := by
  rcases List.eq_nil_or_concat' runs with rfl | ⟨runs, last, rfl⟩
  · exact List.isChain_singleton _
  · rw [pushRun_append]
    obtain ⟨hruns, -, hlast⟩ := List.isChain_append.mp h
    split
    · -- The last run is longer, in the same style.
      refine List.isChain_append.mpr ⟨hruns, List.isChain_singleton _, fun a ha b hb ↦ ?_⟩
      obtain rfl := Option.mem_some.mp hb
      exact hlast a ha last rfl
    · next hne =>
      refine List.isChain_append.mpr ⟨h, List.isChain_singleton _, fun a ha b hb ↦ ?_⟩
      rw [List.getLast?_concat] at ha
      obtain rfl := Option.mem_some.mp ha
      obtain rfl := Option.mem_some.mp hb
      exact hne

theorem runAt_append (xs ys : List StyledRun) (byte : ℕ) :
    runAt (xs ++ ys) byte =
      if byte < runsLength xs then runAt xs byte else runAt ys (byte - runsLength xs) := by
  induction xs generalizing byte with
  | nil => rfl
  | cons run xs ih =>
    have hlen : runsLength (run :: xs) = run.len + runsLength xs := runsLength_append [run] xs |>.trans
      (congrArg (· + runsLength xs) (runsLength_singleton run))
    rw [List.cons_append, runAt, runAt, ih, hlen]
    by_cases hrun : byte < run.len
    · rw [if_pos hrun, if_pos hrun, if_pos (by omega)]
    · rw [if_neg hrun, if_neg hrun, Nat.sub_sub]
      by_cases hxs : byte - run.len < runsLength xs
      · rw [if_pos hxs, if_pos (by omega)]
      · rw [if_neg hxs, if_neg (by omega)]

/-- The style of a byte. -/
def styleAt (runs : List StyledRun) (byte : ℕ) : Option (Pen × ℕ) := (runAt runs byte).map runStyle

theorem styleAt_singleton {byte : ℕ} (h : byte < run.len) : styleAt [run] byte = some (runStyle run) := by
  rw [styleAt, runAt, if_pos h, Option.map_some]

theorem styleAt_append (xs ys : List StyledRun) (byte : ℕ) :
    styleAt (xs ++ ys) byte =
      if byte < runsLength xs then styleAt xs byte else styleAt ys (byte - runsLength xs) := by
  rw [styleAt, runAt_append]
  split
  · rfl
  · rfl

/-- A run that is pushed leaves the styles before it. -/
theorem styleAt_pushRun_of_lt {byte : ℕ} (h : byte < runsLength runs) :
    styleAt (pushRun runs run) byte = styleAt runs byte := by
  rcases List.eq_nil_or_concat' runs with rfl | ⟨runs, last, rfl⟩
  · exact absurd h (Nat.not_lt_zero _)
  · rw [runsLength_append, runsLength_singleton] at h
    rw [pushRun_append]
    split
    · next hsame =>
      rw [styleAt_append, styleAt_append]
      split
      · rfl
      · rw [styleAt_singleton (by dsimp only; omega), styleAt_singleton (by omega)]
        rfl
    · rw [styleAt_append _ [run], runsLength_append, runsLength_singleton, if_pos h]

/-- A run that is pushed styles what comes after. -/
theorem styleAt_pushRun {i : ℕ} (h : i < run.len) :
    styleAt (pushRun runs run) (runsLength runs + i) = some (runStyle run) := by
  rcases List.eq_nil_or_concat' runs with rfl | ⟨runs, last, rfl⟩
  · rw [pushRun_nil]
    exact (Nat.zero_add i).symm ▸ styleAt_singleton h
  · rw [pushRun_append, runsLength_append, runsLength_singleton]
    split
    · next hsame =>
      rw [styleAt_append, if_neg (by omega), styleAt_singleton (by dsimp only; omega)]
      exact congrArg some hsame
    · rw [styleAt_append, runsLength_append, runsLength_singleton, if_neg (by omega),
        styleAt_singleton (by omega)]

/-- Bytes with one place among the runs have one style. -/
theorem styleAt_eq_getElem (start byte : ℕ) :
    styleAt runs byte =
      runs[((endsOfRuns start runs).takeWhile (· ≤ start + byte)).length]?.map runStyle := by
  induction runs generalizing start byte with
  | nil => rfl
  | cons run runs ih =>
    rw [styleAt, runAt, endsOfRuns, List.takeWhile_cons]
    by_cases h : byte < run.len
    · have hnot : ¬start + run.len ≤ start + byte := by omega
      rw [if_pos h, if_neg (by simpa using hnot)]
      rfl
    · have hle : start + run.len ≤ start + byte := by omega
      have hbyte : start + byte = start + run.len + (byte - run.len) := by omega
      rw [if_neg h, if_pos (by simpa using hle), List.length_cons, List.getElem?_cons_succ, hbyte,
        ← ih]
      rfl

theorem styleAt_eq_of_runIndex_eq {a b : ℕ} (h : runIndex runs a = runIndex runs b) :
    styleAt runs a = styleAt runs b := by
  rw [styleAt_eq_getElem 0, styleAt_eq_getElem 0, Nat.zero_add, Nat.zero_add]
  exact congrArg (fun i ↦ runs[i]?.map runStyle) h

end Runs

/-! ## Links -/

/-- The index of a link in a line's table, counted from one, and the table with the link in it. -/
def linkIndex (links : List Hyperlink) : Option Hyperlink → ℕ × List Hyperlink
  | none => (0, links)
  | some link =>
    if link ∈ links then (links.idxOf link + 1, links) else (links.length + 1, links ++ [link])

/-- An index stands for a link. -/
def Names (links : List Hyperlink) (index : ℕ) : Option Hyperlink → Prop
  | none => index = 0
  | some link => 0 < index ∧ links[index - 1]? = some link

section Links

variable {links : List Hyperlink} {index : ℕ} {link : Option Hyperlink}

theorem names_linkIndex (links : List Hyperlink) (link : Option Hyperlink) :
    Names (linkIndex links link).2 (linkIndex links link).1 link := by
  cases link with
  | none => rfl
  | some link =>
    rw [linkIndex]
    split
    · next hmem =>
      refine ⟨Nat.succ_pos _, ?_⟩
      rw [Nat.add_sub_cancel, List.getElem?_eq_getElem (List.idxOf_lt_length_of_mem hmem)]
      exact congrArg some (List.getElem_idxOf _)
    · refine ⟨Nat.succ_pos _, ?_⟩
      rw [Nat.add_sub_cancel, List.getElem?_concat_length]

theorem prefix_linkIndex (links : List Hyperlink) (link : Option Hyperlink) :
    links <+: (linkIndex links link).2 := by
  cases link with
  | none => exact List.prefix_refl _
  | some link =>
    rw [linkIndex]
    split
    · exact List.prefix_refl _
    · exact List.prefix_append _ _

theorem length_linkIndex_le (links : List Hyperlink) (link : Option Hyperlink) :
    (linkIndex links link).2.length ≤ links.length + 1 := by
  cases link with
  | none => exact Nat.le_succ _
  | some link =>
    rw [linkIndex]
    split
    · exact Nat.le_succ _
    · rw [List.length_append, List.length_singleton]

theorem findIdx?_eq_ite (table : List Hyperlink) (link : Hyperlink) :
    table.findIdx? (· = link) = if link ∈ table then some (table.idxOf link) else none := by
  induction table with
  | nil => rfl
  | cons known table ih =>
    rw [List.findIdx?_cons, ih]
    by_cases h : known = link
    · subst h
      simp
    · rw [List.idxOf_cons_ne _ h]
      simp [h, Ne.symm h]

theorem nodup_linkIndex (h : links.Nodup) (link : Option Hyperlink) :
    (linkIndex links link).2.Nodup := by
  cases link with
  | none => exact h
  | some link =>
    rw [linkIndex]
    split
    · exact h
    · next hmem => exact List.nodup_append'.mpr ⟨h, List.nodup_singleton link, by simpa using hmem⟩

/-- A longer table names what it named. -/
theorem Names.of_prefix {links' : List Hyperlink} (h : Names links index link)
    (hbegin : links <+: links') : Names links' index link := by
  cases link with
  | none => exact h
  | some link =>
    obtain ⟨more, rfl⟩ := hbegin
    obtain ⟨hpos, hget⟩ := h
    exact ⟨hpos, List.getElem?_append_left (List.getElem?_eq_some_iff.mp hget).1 ▸ hget⟩

theorem Names.eq_zero_iff (h : Names links index link) : index = 0 ↔ link = none := by
  cases link with
  | none => exact iff_of_true h rfl
  | some link => exact iff_of_false h.1.ne' (Option.some_ne_none link)

/-- The link of an index. -/
def linkAt (links : List Hyperlink) (index : ℕ) : Option Hyperlink :=
  if index = 0 then none else links[index - 1]?

theorem Names.linkAt_eq (h : Names links index link) : linkAt links index = link := by
  cases link with
  | none => exact if_pos h
  | some link => exact (if_neg h.1.ne').trans h.2

end Links

/-! ## The line of the cells that are kept -/

def addCell (s : LineBuild × List Hyperlink) (c : ShownCell) : LineBuild × List Hyperlink :=
  (s.1.put c.piece c.pen (linkIndex s.2 c.link).1, (linkIndex s.2 c.link).2)

/-- The walk over the cells that are kept. -/
def build (kept : List ShownCell) : LineBuild × List Hyperlink := kept.foldl addCell (.empty, [])

/-- The line before its cells are set. -/
def builtLine (kept : List ShownCell) : StyledLine := (build kept).1.line (build kept).2

/-- The pieces of text that the cells are. -/
def pieces (kept : List ShownCell) : List CellPiece := kept.map (·.piece)

/-- What the walk has built of some cells. -/
structure Built (kept : List ShownCell) (s : LineBuild × List Hyperlink) : Prop where
  text : s.1.text = textOf (pieces kept)
  cells : s.1.cells = (pieces kept).map span
  styled : s.1.styled = true ↔ ∃ c ∈ kept, c.pen ≠ Pen.plain ∨ c.link ≠ none
  cover : runsLength s.1.runs = byteLength (textOf (pieces kept))
  differ : RunsDiffer s.1.runs
  links : s.2.length ≤ kept.length
  style : ∀ before c after, kept = before ++ c :: after → ∀ i < byteLength c.piece.text,
    ∃ index, styleAt s.1.runs (byteLength (textOf (pieces before)) + i) = some (c.pen, index) ∧
      Names s.2 index c.link

theorem built_nil : Built [] (.empty, []) where
  text := rfl
  cells := rfl
  styled := by simp [LineBuild.empty]
  cover := rfl
  differ := List.isChain_nil
  links := Nat.le_refl 0
  style _ _ _ h := absurd h.symm (by simp)

theorem Built.addCell {kept : List ShownCell} {s : LineBuild × List Hyperlink} (h : Built kept s)
    (c : ShownCell) : Built (kept ++ [c]) (addCell s c) where
  text := by
    rw [pieces, List.map_append, textOf_append, ← pieces, ← h.text]
    exact congrArg (s.1.text ++ ·) (List.append_nil _).symm
  cells := by
    rw [pieces, List.map_append, List.map_append, ← pieces, ← h.cells]
    rfl
  styled := by
    have hindex := (names_linkIndex s.2 c.link).eq_zero_iff
    have hstyled : (Server.addCell s c).1.styled =
        (s.1.styled || decide (c.pen ≠ Pen.plain ∨ (linkIndex s.2 c.link).1 ≠ 0)) := rfl
    rw [hstyled, Bool.or_eq_true, decide_eq_true_eq, h.styled, ne_eq (linkIndex s.2 c.link).1, hindex]
    constructor
    · rintro (⟨d, hd, hpen⟩ | hc)
      · exact ⟨d, List.mem_append_left _ hd, hpen⟩
      · exact ⟨c, List.mem_append_right _ (List.mem_singleton_self c), hc⟩
    · rintro ⟨d, hd, hpen⟩
      rcases List.mem_append.mp hd with hd | hd
      · exact .inl ⟨d, hd, hpen⟩
      · exact .inr (List.mem_singleton.mp hd ▸ hpen)
  cover := by
    have hruns : (Server.addCell s c).1.runs = pushRun s.1.runs
        ⟨byteLength c.piece.text, c.pen.fg, c.pen.bg, c.pen.attrs, c.pen.underlineColor,
          (linkIndex s.2 c.link).1⟩ := rfl
    rw [hruns, runsLength_pushRun, h.cover, pieces, pieces, List.map_append, textOf_append,
      byteLength_append]
    exact congrArg (byteLength (textOf (kept.map (·.piece))) + byteLength ·) (List.append_nil _).symm
  differ := h.differ.pushRun _
  links := by
    rw [List.length_append]
    exact (length_linkIndex_le s.2 c.link).trans (Nat.add_le_add_right h.links 1)
  style := by
    intro before d after hsplit i hi
    rcases List.eq_nil_or_concat' after with rfl | ⟨after, e, rfl⟩
    · obtain ⟨rfl, hd⟩ := List.append_inj' hsplit rfl
      obtain rfl := (List.cons.inj hd).1
      refine ⟨(linkIndex s.2 c.link).1, ?_, names_linkIndex _ _⟩
      rw [← h.cover]
      exact styleAt_pushRun hi
    · rw [← List.cons_append, ← List.append_assoc] at hsplit
      obtain ⟨hkept, -⟩ := List.append_inj' hsplit rfl
      obtain ⟨index, hstyle, hnames⟩ := h.style before d after hkept i hi
      refine ⟨index, ?_, hnames.of_prefix (prefix_linkIndex _ _)⟩
      rw [← hstyle]
      refine styleAt_pushRun_of_lt ?_
      rw [h.cover, hkept, pieces, pieces, List.map_append, textOf_append, byteLength_append, List.map_cons,
        textOf_cons, byteLength_append]
      omega

theorem built (kept : List ShownCell) : Built kept (build kept) := by
  induction kept using List.reverseRecOn with
  | nil => exact built_nil
  | append_singleton kept c ih =>
    rw [build, List.foldl_concat]
    exact ih.addCell c

/-! ## Lines that show their cells -/

/-- The style and the link of a byte of a line. -/
def shownAt (line : StyledLine) (byte : ℕ) : Pen × Option Hyperlink :=
  match styleAt line.runs byte with
  | some (pen, index) => (pen, linkAt line.links index)
  | none => (Pen.plain, none)

/-- A line and the cells that were kept of its row. -/
structure Shows (u : Unicode) (line : StyledLine) (kept : List ShownCell) : Prop where
  text : line.text = textOf (pieces kept)
  plain : line.runs = [] ↔ ∀ c ∈ kept, c.pen = Pen.plain ∧ c.link = none
  cover : line.runs ≠ [] → runsLength line.runs = byteLength line.text
  differ : RunsDiffer line.runs
  /-- The line's cells cut its text. -/
  whole : ((line.cells u).map (·.text)).flatten = line.text
  /-- A cell of the line is one of the cells that were kept, or several next to each other in one style
  and link, and it begins at the column of the first. -/
  cells : ∀ before cell after, line.cells u = before ++ cell :: after →
    ∃ left first more right, kept = left ++ first :: (more ++ right) ∧
      (before.map (·.text)).flatten = textOf (pieces left) ∧
      cell.offset = byteLength (textOf (pieces left)) ∧
      cell.text = textOf (pieces (first :: more)) ∧ cell.width = widthOf (pieces (first :: more)) ∧
      (before.map (·.width)).sum = first.column ∧
      (∀ c ∈ more, c.pen = first.pen ∧ c.link = first.link) ∧
      ∀ i < byteLength cell.text, shownAt line (cell.offset + i) = (first.pen, first.link)

/-- Cells with some text, each at the column after the ones before it. -/
structure Placed (kept : List ShownCell) : Prop where
  filled : HaveText (pieces kept)
  wide : ∀ p ∈ pieces kept, 1 ≤ p.width
  columns : widthOf (pieces kept) < 2 ^ 16
  column : ∀ before c after, kept = before ++ c :: after → widthOf (pieces before) = c.column

theorem setCells_text (u : Unicode) (line : StyledLine) (cells : List CellSpan) :
    (line.setCells u cells).text = line.text := by
  rw [StyledLine.setCells]
  split
  · rfl
  · rfl

theorem pieces_append (xs ys : List ShownCell) : pieces (xs ++ ys) = pieces xs ++ pieces ys :=
  List.map_append

theorem pieces_cons (c : ShownCell) (cs : List ShownCell) : pieces (c :: cs) = c.piece :: pieces cs :=
  rfl

theorem builtLine_runs_eq_nil_iff (kept : List ShownCell) (hfilled : HaveText (pieces kept)) :
    (builtLine kept).runs = [] ↔ ∀ c ∈ kept, c.pen = Pen.plain ∧ c.link = none := by
  have h := built kept
  have hline : (builtLine kept).runs = if (build kept).1.styled then (build kept).1.runs else [] := rfl
  rw [hline]
  by_cases hstyled : (build kept).1.styled = true
  · rw [if_pos hstyled]
    obtain ⟨c, hc, hpen⟩ := h.styled.mp hstyled
    refine iff_of_false (fun hnil ↦ ?_) fun hplain ↦ ?_
    · -- A cell is styled, so there is some text and a run over it.
      have hlen := h.cover
      rw [hnil] at hlen
      obtain ⟨before, after, rfl⟩ := List.append_of_mem hc
      have hpos := byteLength_pos (hfilled c.piece (List.mem_map_of_mem hc))
      rw [pieces_append, pieces_cons, textOf_append, textOf_cons, byteLength_append,
        byteLength_append] at hlen
      have hzero : runsLength [] = 0 := rfl
      omega
    · exact hpen.elim (fun hne ↦ hne (hplain c hc).1) fun hne ↦ hne (hplain c hc).2
  · rw [if_neg hstyled]
    refine iff_of_true rfl fun c hc ↦ ?_
    by_contra hnot
    exact hstyled (h.styled.mpr ⟨c, hc, not_and_or.mp hnot⟩)

/-- Every byte of a cell shows its style and link. -/
theorem shownAt_builtLine {kept before after : List ShownCell} {c : ShownCell}
    (hsplit : kept = before ++ c :: after) {i : ℕ} (hi : i < byteLength c.piece.text) :
    shownAt (builtLine kept) (byteLength (textOf (pieces before)) + i) = (c.pen, c.link) := by
  have h := built kept
  have hc : c ∈ kept := hsplit ▸ List.mem_append_right _ List.mem_cons_self
  have hruns : (builtLine kept).runs = if (build kept).1.styled then (build kept).1.runs else [] := rfl
  have hlinks : (builtLine kept).links = (build kept).2 := rfl
  rw [shownAt, hruns, hlinks]
  by_cases hstyled : (build kept).1.styled = true
  · obtain ⟨index, hstyle, hnames⟩ := h.style before c after hsplit i hi
    rw [if_pos hstyled, hstyle]
    exact congrArg (Prod.mk c.pen) hnames.linkAt_eq
  · have hplain : c.pen = Pen.plain ∧ c.link = none := by
      by_contra hnot
      exact hstyled (h.styled.mpr ⟨c, hc, not_and_or.mp hnot⟩)
    rw [if_neg hstyled, hplain.1, hplain.2]
    rfl

/-- Groups of the pieces are groups of the cells. -/
theorem exists_split_of_pieces {kept : List ShownCell} {xs : List CellPiece} {p : CellPiece}
    {ps ys : List CellPiece} (h : pieces kept = xs ++ (p :: ps ++ ys)) :
    ∃ left first more right, kept = left ++ first :: (more ++ right) ∧ pieces left = xs ∧
      first.piece = p ∧ pieces more = ps ∧ pieces right = ys := by
  obtain ⟨left, tail, rfl, hleft, htail⟩ := List.map_eq_append_iff.mp h
  obtain ⟨first, tail, rfl, hfirst, htail⟩ := List.map_eq_cons_iff.mp htail
  obtain ⟨more, right, rfl, hmore, hright⟩ := List.map_eq_append_iff.mp htail
  exact ⟨left, first, more, right, rfl, hleft, hfirst, hmore, hright⟩

/-- Every byte of cells that are one cell, or lie in one run, shows the first one's style and link. -/
theorem shownAt_group {left more right : List ShownCell} {first : ShownCell}
    (hfilled : HaveText (pieces (left ++ first :: (more ++ right))))
    (hrun : 2 ≤ (pieces (first :: more)).length →
      InOneRun (builtLine (left ++ first :: (more ++ right))).runs
        (byteLength (textOf (pieces left))) (byteLength (textOf (pieces (first :: more)))))
    {i : ℕ} (hi : i < byteLength (textOf (pieces (first :: more)))) :
    shownAt (builtLine (left ++ first :: (more ++ right))) (byteLength (textOf (pieces left)) + i) =
      (first.pen, first.link) := by
  cases more with
  | nil =>
    rw [pieces_cons, textOf_cons, byteLength_append] at hi
    exact shownAt_builtLine rfl hi
  | cons second more =>
    have hfirst : 0 < byteLength first.piece.text :=
      byteLength_pos (hfilled first.piece (by simp [pieces]))
    have hone := hrun (Nat.succ_le_succ (Nat.succ_le_succ (Nat.zero_le _))) i hi 0
      (Nat.lt_of_le_of_lt (Nat.zero_le i) hi)
    rw [shownAt, styleAt_eq_of_runIndex_eq hone]
    exact shownAt_builtLine rfl hfirst

/-- Cells that show like the first one are styled and linked like it. -/
theorem style_eq_of_shownAt {left more right : List ShownCell} {first c : ShownCell}
    (hfilled : HaveText (pieces (left ++ first :: (more ++ right)))) (hc : c ∈ more)
    (hall : ∀ i < byteLength (textOf (pieces (first :: more))),
      shownAt (builtLine (left ++ first :: (more ++ right)))
        (byteLength (textOf (pieces left)) + i) = (first.pen, first.link)) :
    c.pen = first.pen ∧ c.link = first.link := by
  obtain ⟨before, after, rfl⟩ := List.append_of_mem hc
  have hpos : 0 < byteLength c.piece.text := byteLength_pos (hfilled c.piece (by simp [pieces]))
  have hat := hall (byteLength (textOf (pieces (first :: before)))) (by
    rw [← List.cons_append, pieces_append, pieces_cons c, textOf_append, byteLength_append,
      textOf_cons, byteLength_append]
    omega)
  have hsplit : left ++ first :: (before ++ c :: after ++ right) =
      (left ++ first :: before) ++ c :: (after ++ right) := by simp
  have hshown := shownAt_builtLine hsplit hpos
  rw [pieces_append, textOf_append, byteLength_append, Nat.add_zero, hat] at hshown
  exact ⟨congrArg Prod.fst hshown.symm, congrArg Prod.snd hshown.symm⟩

/-- **Lines from rows.** Once its cells are set, the line built of the cells that were kept shows them,
unless it has a line break in narrow ASCII cells. -/
theorem shows_setCells (u : Unicode) {kept : List ShownCell} (h : Placed kept)
    (hu : u.Cuts (textOf (pieces kept)))
    (hbreak : ¬(PlainCells (builtLine kept) ((pieces kept).map span) ∧
      lineBreak <:+: textOf (pieces kept))) :
    Shows u ((builtLine kept).setCells u (build kept).1.cells) kept := by
  have hbuilt := built kept
  have htext : textOf (pieces kept) = (builtLine kept).text := hbuilt.text.symm
  rw [htext] at hu hbreak
  obtain ⟨groups, hlaid⟩ := exists_laidBy hu htext h.filled h.wide h.columns hbreak
  have hlays := hlaid.laysOut htext h.filled
  rw [hbuilt.cells]
  -- Setting the cells leaves the text, the runs and the links.
  have hset : ∀ cells, ∃ spans, (builtLine kept).setCells u cells =
      { builtLine kept with cellSpans := spans } := by
    intro cells
    rw [StyledLine.setCells]
    split
    · exact ⟨_, rfl⟩
    · exact ⟨_, rfl⟩
  obtain ⟨spans, hspans⟩ := hset ((pieces kept).map span)
  have hruns : ((builtLine kept).setCells u ((pieces kept).map span)).runs = (builtLine kept).runs := by
    rw [hspans]
  have hline : ((builtLine kept).setCells u ((pieces kept).map span)).text = (builtLine kept).text := by
    rw [hspans]
  have hshown : ∀ byte, shownAt ((builtLine kept).setCells u ((pieces kept).map span)) byte =
      shownAt (builtLine kept) byte := by
    intro byte
    rw [hspans]
    rfl
  refine ⟨hline.trans hbuilt.text, ?_, ?_, ?_, ?_, ?_⟩
  · rw [hruns]
    exact builtLine_runs_eq_nil_iff kept h.filled
  · intro hne
    rw [hruns] at hne ⊢
    have hstyled : (build kept).1.styled = true := by
      by_contra hnot
      exact hne (if_neg hnot)
    rw [hline, ← htext, ← hbuilt.cover]
    exact congrArg runsLength (if_pos hstyled)
  · have hcase : (builtLine kept).runs = if (build kept).1.styled then (build kept).1.runs else [] := rfl
    rw [hruns, hcase]
    split
    · exact hbuilt.differ
    · exact List.isChain_nil
  · rw [hline]
    exact hlays.text
  · intro before cell after hsplit
    rw [hlaid.cells] at hsplit
    obtain ⟨xs, group, ys, rfl, rfl, rfl⟩ := group_of_cellsAt hsplit
    cases group with
    | nil => exact absurd (List.mem_append_right xs List.mem_cons_self) hlaid.filled
    | cons p ps =>
      have hpieces := hlaid.pieces_eq
      rw [List.flatten_append, List.flatten_cons] at hpieces
      obtain ⟨left, first, more, right, rfl, hleft', rfl, rfl, hright⟩ :=
        exists_split_of_pieces hpieces.symm
      have hleft : textOf (pieces left) = textOf xs.flatten := congrArg textOf hleft'
      have hgroup := (grouped_append.mp hlaid.grouped).2.1
      rw [Nat.zero_add, ← hleft] at hgroup
      have hall : ∀ i < byteLength (textOf (pieces (first :: more))),
          shownAt (builtLine (left ++ first :: (more ++ right)))
            (byteLength (textOf (pieces left)) + i) = (first.pen, first.link) :=
        fun i hi ↦ shownAt_group h.filled hgroup hi
      refine ⟨left, first, more, right, rfl, ?_, ?_, rfl, rfl, ?_, ?_, ?_⟩
      · rw [map_text_cellsAt, hleft]
        exact textOf_map_join xs
      · rw [hleft]
      · rw [map_width_cellsAt, ← h.column left first (more ++ right) rfl, hleft']
        exact widthOf_map_join xs
      · exact fun c hc ↦ style_eq_of_shownAt h.filled hc hall
      · intro i hi
        rw [hshown, ← hleft]
        exact hall i hi

end Embers.Server
