import Embers.Client.AnsiWriter
import Embers.Client.GridRuns

/-!
# The columns of a written row

A row is written as cells that stand alone and groups of cells that would join. A group starts and
ends with a placement of the cursor. A cell that stands alone is printed where the one before it
ended, which is its own column unless that one took no column on the host: text of width zero is
measured as one column and written as it is.
-/

namespace Embers.Client

open RenderGrid RowWriter TerminalRow

namespace RenderGrid

variable {u : Unicode} {g : RenderGrid} {y : ℕ}

/-! ## The cells of a row -/

/-- The columns from `a` up to `b` that begin a character. -/
def leadsIn (g : RenderGrid) (y a b : ℕ) : List ℕ :=
  (List.range' a (b - a)).filter fun x ↦ !(g.look x y).continuation

theorem mem_leadsIn {a b x : ℕ} : x ∈ g.leadsIn y a b ↔ a ≤ x ∧ x < b ∧ g.Leads y x := by
  rw [leadsIn, List.mem_filter, List.mem_range'_1, Leads, Bool.not_eq_true']
  constructor
  · rintro ⟨hx, hlead⟩
    exact ⟨by omega, by omega, hlead⟩
  · rintro ⟨hax, hxb, hlead⟩
    exact ⟨by omega, hlead⟩

theorem leadsIn_append {a b c : ℕ} (hab : a ≤ b) (hbc : b ≤ c) :
    g.leadsIn y a b ++ g.leadsIn y b c = g.leadsIn y a c := by
  have hrange : List.range' a (c - a) = List.range' a (b - a) ++ List.range' b (c - b) := by
    have h := List.range'_append_1 (s := a) (m := b - a) (n := c - b)
    have hb : a + (b - a) = b := by omega
    have hlen : b - a + (c - b) = c - a := by omega
    rw [hb, hlen] at h
    exact h.symm
  rw [leadsIn, leadsIn, leadsIn, hrange, List.filter_append]

theorem cellWidth_pos {x : ℕ} : 0 < g.cellWidth x y := by
  rw [cellWidth]
  omega

section

variable (ht : g.TiledRow y)
include ht

theorem TiledRow.edge_next {x : ℕ} (hx : x < g.width) (hlead : g.Leads y x) :
    x + g.cellWidth x y ≤ g.width ∧ g.Edge y (x + g.cellWidth x y) := by
  rw [cellWidth_eq_span ht hx hlead]
  have hfits := ht.fits (Nat.zero_le x) hx hlead
  refine ⟨hfits, ?_⟩
  rcases Nat.lt_or_ge (x + (g.look x y).span) g.width with hlt | hge
  · exact .inl (ht.next (Nat.zero_le x) hx hlead hlt)
  · exact .inr hge

theorem TiledRow.leadsIn_cell {x : ℕ} (hx : x < g.width) (hlead : g.Leads y x) :
    g.leadsIn y x (x + g.cellWidth x y) = [x] := by
  rw [cellWidth_eq_span ht hx hlead]
  have hpos := ht.pos (Nat.zero_le x) hx hlead
  obtain ⟨n, hn⟩ : ∃ n, (g.look x y).span = n + 1 := ⟨_, (Nat.succ_pred_eq_of_pos hpos).symm⟩
  rw [leadsIn, Nat.add_sub_cancel_left, hn, List.range'_succ, List.filter_cons_of_pos]
  · congr 1
    rw [List.filter_eq_nil_iff]
    intro i hi
    have hi' := List.mem_range'_1.mp hi
    have hinner := ht.inner (Nat.zero_le x) hx hlead (i := i) (by omega) (by omega)
    rw [Bool.of_not_eq_false hinner]
    exact nofun
  · rw [show (g.look x y).continuation = false from hlead]
    rfl

/-- Only the cell directly before a column ends there. -/
theorem TiledRow.eq_of_next_eq {p x : ℕ} (hp : p < g.width) (hx : x < g.width)
    (hleadp : g.Leads y p) (hleadx : g.Leads y x)
    (heq : p + g.cellWidth p y = x + g.cellWidth x y) : p = x := by
  rw [cellWidth_eq_span ht hp hleadp, cellWidth_eq_span ht hx hleadx] at heq
  have hpos := ht.pos (Nat.zero_le p) hp hleadp
  have hpos' := ht.pos (Nat.zero_le x) hx hleadx
  have hfits := ht.fits (Nat.zero_le p) hp hleadp
  exact ht.unique (i := p + (g.look p y).span - 1) hleadp hleadx (Nat.zero_le p) (Nat.zero_le x)
    (by omega) (by omega) (by omega) (by omega) (by omega)

end

/-! ## Cells that join -/

theorem joinedNext_eq_some {x d : ℕ} (h : g.joinedNext u y x = some d) :
    d = x + g.cellWidth x y ∧ d < g.width := by
  rw [joinedNext] at h
  simp only at h
  split at h
  · next hlt =>
    split at h
    · cases h
      exact ⟨rfl, hlt⟩
    · exact nomatch h
  · exact nomatch h

/-- No cell joins the one at a column. -/
def Unjoined (u : Unicode) (g : RenderGrid) (y x : ℕ) : Prop :=
  ∀ p < x, g.Leads y p → g.joinedNext u y p ≠ some x

/-- The cell at a column joins neither the one before nor the one after it. -/
structure Alone (u : Unicode) (g : RenderGrid) (y x : ℕ) : Prop where
  lead : g.Leads y x
  before : g.Unjoined u y x
  after : g.joinedNext u y x = none

theorem TiledRow.unjoined_next (ht : g.TiledRow y) {x : ℕ} (hx : x < g.width)
    (hlead : g.Leads y x) (hnone : g.joinedNext u y x = none) :
    g.Unjoined u y (x + g.cellWidth x y) := by
  intro p hp hleadp hjoined
  have hle := (ht.edge_next hx hlead).1
  have hpx := ht.eq_of_next_eq (by omega) hx hleadp hlead (joinedNext_eq_some hjoined).1.symm
  rw [hpx, hnone] at hjoined
  exact nomatch hjoined

/-- Cells from `x` up to `stop` each of which joins the next, and the last none. -/
structure Group (u : Unicode) (g : RenderGrid) (y x stop : ℕ) (parts : List ℕ) : Prop where
  parts_eq : parts = g.leadsIn y x stop
  lt : x < stop
  le : stop ≤ g.width
  edge : g.Edge y stop
  unjoined : g.Unjoined u y stop
  joined : ∀ {d}, x < d → d < stop → g.Leads y d → ¬ g.Unjoined u y d

theorem TiledRow.group (ht : g.TiledRow y) : ∀ {fuel x : ℕ}, x < g.width → g.Leads y x →
    g.width - x ≤ fuel → ∃ last, (x :: g.joinedAfter u y fuel x).getLastD x = last ∧
      g.Group u y x (last + g.cellWidth last y) (x :: g.joinedAfter u y fuel x) := by
  intro fuel
  induction fuel with
  | zero => intro x hx _ hfuel; omega
  | succ fuel ih =>
    intro x hx hlead hfuel
    have hnext := ht.edge_next hx hlead
    have hpos : 0 < g.cellWidth x y := cellWidth_pos
    rw [joinedAfter]
    rcases hjoined : g.joinedNext u y x with _ | d
    · refine ⟨x, rfl, (ht.leadsIn_cell hx hlead).symm, by omega, hnext.1, hnext.2,
        ht.unjoined_next hx hlead hjoined, fun {d} hxd hd hleadd ↦ ?_⟩
      have hmem : d ∈ g.leadsIn y x (x + g.cellWidth x y) := mem_leadsIn.mpr ⟨by omega, hd, hleadd⟩
      rw [ht.leadsIn_cell hx hlead, List.mem_singleton] at hmem
      omega
    · obtain ⟨hd, hdw⟩ := joinedNext_eq_some hjoined
      have hleadd : g.Leads y d := by
        rw [← hd] at hnext
        exact hnext.2.resolve_right (by omega)
      obtain ⟨last, hlast, hgroup⟩ := ih hdw hleadd (by omega)
      refine ⟨last, hlast, ?_, by have := hgroup.lt; omega, hgroup.le, hgroup.edge, hgroup.unjoined, ?_⟩
      · have hcell := ht.leadsIn_cell hx hlead
        rw [← hd] at hcell
        rw [← leadsIn_append (b := d) (by omega) (Nat.le_of_lt hgroup.lt), hcell, ← hgroup.parts_eq]
        rfl
      · intro e hxe he hleade
        rcases Nat.lt_trichotomy e d with hlt | heq | hgt
        · have hmem : e ∈ g.leadsIn y x (x + g.cellWidth x y) :=
            mem_leadsIn.mpr ⟨by omega, by omega, hleade⟩
          rw [ht.leadsIn_cell hx hlead, List.mem_singleton] at hmem
          omega
        · intro hunjoined
          rw [heq] at hunjoined
          exact hunjoined x (by omega) hlead hjoined
        · exact hgroup.joined hgt he hleade

/-! ## Going through a row -/

/-- What writing a cell that stands alone keeps, and writing a group, writing the row keeps. -/
theorem TiledRow.writeRow_induction (ht : g.TiledRow y) {I : ℕ → RowWriter → Prop}
    (hcell : ∀ {x w}, x < g.width → g.Alone u y x → I x w →
      I (x + g.cellWidth x y) (g.writeCell u y w x))
    (hgroup : ∀ {x stop parts w}, g.joinedNext u y x ≠ none → g.Group u y x stop parts → I x w →
      I stop (g.writeJoined u y w parts x stop)) :
    ∀ {fuel x : ℕ} {w : RowWriter}, x ≤ g.width → g.width - x ≤ fuel → g.Edge y x →
      g.Unjoined u y x → I x w → I g.width (g.writeRow u y fuel x w) := by
  intro fuel
  induction fuel with
  | zero =>
    intro x w hx hfuel _ _ hI
    obtain rfl : x = g.width := by omega
    exact hI
  | succ fuel ih =>
    intro x w hx hfuel hedge hunjoined hI
    rw [writeRow]
    split
    · next hlt =>
      have hlead : g.Leads y x := hedge.resolve_right (by omega)
      have hpos : 0 < g.cellWidth x y := cellWidth_pos
      rw [if_neg (by rw [show (g.look x y).continuation = false from hlead]; exact nofun)]
      split
      · next hnone =>
        obtain ⟨hle, hedge'⟩ := ht.edge_next hlt hlead
        exact ih hle (by omega) hedge' (ht.unjoined_next hlt hlead hnone)
          (hcell hlt ⟨hlead, hunjoined, hnone⟩ hI)
      · next hsome =>
        obtain ⟨last, hlast, hparts⟩ := ht.group (u := u) hlt hlead (Nat.sub_le _ _)
        simp only [joinedCells, hlast]
        have := hparts.lt
        exact ih hparts.le (by omega) hparts.edge hparts.unjoined (hgroup hsome hparts hI)
    · obtain rfl : x = g.width := by omega
      exact hI

theorem TiledRow.writeRow_row (ht : g.TiledRow y) {I : ℕ → RowWriter → Prop}
    (hcell : ∀ {x w}, x < g.width → g.Alone u y x → I x w →
      I (x + g.cellWidth x y) (g.writeCell u y w x))
    (hgroup : ∀ {x stop parts w}, g.joinedNext u y x ≠ none → g.Group u y x stop parts → I x w →
      I stop (g.writeJoined u y w parts x stop)) {w : RowWriter} (h : I 0 w) :
    I g.width (g.writeRow u y g.width 0 w) := by
  have hedge : g.Edge y 0 := by
    rcases Nat.eq_zero_or_pos g.width with hzero | hpos
    · exact .inr (Nat.le_of_eq hzero)
    · exact .inl (ht.leads_zero hpos)
  exact ht.writeRow_induction hcell hgroup (Nat.zero_le _) (Nat.sub_le _ _) hedge
    (fun p hp ↦ absurd hp (Nat.not_lt_zero p)) h

end RenderGrid

section

variable {u : Unicode} {advance : Bool → List Char → ℕ} {g : RenderGrid} {y : ℕ}
  {host : HostCapabilities}

/-- Every cell of the row that begins a character has text. -/
def Texted (g : RenderGrid) (y : ℕ) : Prop :=
  ∀ {x}, x < g.width → g.Leads y x → (g.look x y).text ≠ []

/-- No control character is sent for a cell of the row. -/
def NoControls (u : Unicode) (g : RenderGrid) (y : ℕ) : Prop :=
  ∀ {x}, x < g.width → g.Leads y x →
    ∀ c ∈ cellText u (g.look x y).text (g.cellWidth x y), isControl c = false

/-- A cell that stands alone and whose text is written as it is. -/
def PlainCell (u : Unicode) (g : RenderGrid) (y x : ℕ) : Prop :=
  g.Alone u y x ∧ WrittenPlainly u (g.look x y).text (g.cellWidth x y)

/-- The texts of the cells from one column up to another. -/
def textsIn (g : RenderGrid) (y a b : ℕ) : List Char :=
  (g.leadsIn y a b).flatMap fun x ↦ (g.look x y).text

/-- The Unicode widths of the texts of the cells from one column up to another. -/
def widthsIn (u : Unicode) (g : RenderGrid) (y a b : ℕ) : ℕ :=
  ((g.leadsIn y a b).map fun x ↦ u.width (g.look x y).text).sum

/-- The terminal moves over the texts of adjacent cells that stand alone and are written plainly by the
texts' Unicode widths. What it does over an erased cell's text, or over parts of a text, is not said. -/
def Measures (u : Unicode) (advance : Bool → List Char → ℕ) (g : RenderGrid) (y : ℕ) : Prop :=
  ∀ {a b}, b ≤ g.width → (∀ x ∈ g.leadsIn y a b, PlainCell u g y x) →
    advance false (textsIn g y a b) = widthsIn u g y a b

/-- What was shown for the cell at a column. -/
structure Print where
  cell : ℕ
  marks : List Mark

/-- The marks of a cell begin in a column. -/
def Print.Begins (p : Print) (column : ℕ) : Prop := ∀ m ∈ p.marks.head?, m.column = column

def Print.Depicts (u : Unicode) (host : HostCapabilities) (g : RenderGrid) (y : ℕ) (p : Print) : Prop :=
  RowWriter.Depicts u host (g.look p.cell y) (g.cellWidth p.cell y) p.marks

/-! ## The text since the last sequence -/

/-- The text since the last sequence is that of plain cells from `a` up to `x`. -/
structure Since (u : Unicode) (g : RenderGrid) (y a x : ℕ) (t : Terminal) : Prop where
  le : a ≤ x
  plain : ∀ d ∈ g.leadsIn y a x, PlainCell u g y d
  run : t.run = textsIn g y a x

@[simp] theorem leadsIn_self {x : ℕ} : g.leadsIn y x x = [] := by
  rw [leadsIn, Nat.sub_self]
  rfl

theorem since_nil {x : ℕ} {t : Terminal} (h : t.run = []) : Since u g y x x t :=
  ⟨Nat.le_refl x, by simp, by rw [h, textsIn, leadsIn_self]; rfl⟩

theorem Since.cursor {a x : ℕ} {t : Terminal} (h : Since u g y a x t) (htexted : Texted g y)
    (hmeasures : Measures u advance g y) (hx : x ≤ g.width) (herased : t.erased = false) :
    t.cursor advance = t.origin + widthsIn u g y a x := by
  rw [Terminal.cursor]
  split
  · next hnil =>
    have hnone : g.leadsIn y a x = [] := by
      rw [h.run, textsIn, List.flatMap_eq_nil_iff] at hnil
      rw [List.eq_nil_iff_forall_not_mem]
      intro d hd
      obtain ⟨-, hdx, hlead⟩ := mem_leadsIn.mp hd
      exact htexted (Nat.lt_of_lt_of_le hdx hx) hlead (hnil d hd)
    rw [widthsIn, hnone]
    rfl
  · rw [herased, h.run, hmeasures hx h.plain]

/-- One more plain cell. -/
theorem Since.cell (ht : g.TiledRow y) {a x : ℕ} {t t' : Terminal} (h : Since u g y a x t)
    (hx : x < g.width) (hplain : PlainCell u g y x)
    (hrun : t'.run = t.run ++ (g.look x y).text) :
    Since u g y a (x + g.cellWidth x y) t' ∧
      widthsIn u g y a (x + g.cellWidth x y) = widthsIn u g y a x + u.width (g.look x y).text := by
  have hleads : g.leadsIn y a (x + g.cellWidth x y) = g.leadsIn y a x ++ [x] := by
    rw [← leadsIn_append h.le (Nat.le_add_right x _), ht.leadsIn_cell hx hplain.1.lead]
  refine ⟨⟨h.le.trans (Nat.le_add_right x _), ?_, ?_⟩, ?_⟩
  · rw [hleads]
    intro d hd
    rcases List.mem_append.mp hd with hd | hd
    · exact h.plain d hd
    · rw [List.mem_singleton.mp hd]
      exact hplain
  · rw [hrun, h.run, textsIn, textsIn, hleads, List.flatMap_append, List.flatMap_singleton]
  · rw [widthsIn, widthsIn, hleads, List.map_append, List.sum_append]
    simp

/-! ## What is shown for the cells up to a column -/

/-- The cells before a column are shown, each with its own style, link and text. -/
structure Written (u : Unicode) (advance : Bool → List Char → ℕ) (host : HostCapabilities)
    (g : RenderGrid) (y x : ℕ) (w : RowWriter) (prints : List Print) : Prop where
  host_eq : w.host = host
  agree : Agree advance w
  unerased : (w.shown advance).erased = false
  shown : (w.shown advance).shown = prints.flatMap (·.marks)
  cells : (prints.map (·.cell)).Perm (g.leadsIn y 0 x)
  depicts : ∀ p ∈ prints, p.Depicts u host g y
  since : ∃ a, Since u g y a x (w.shown advance)

/-- The column after a cell's text, when it is shown at `start`. -/
def cellEnd (u : Unicode) (g : RenderGrid) (y start x : ℕ) : ℕ :=
  if WrittenPlainly u (g.look x y).text (g.cellWidth x y) then start + u.width (g.look x y).text
  else x + g.cellWidth x y

/-- Where the cursor is after a cell that stands alone, and what is known of the text since. -/
theorem cursor_cellShown (ht : g.TiledRow y) (htexted : Texted g y)
    (hmeasures : Measures u advance g y) {a x : ℕ} {t t' : Terminal} {marks : List Mark}
    (hsince : Since u g y a x t) (herased : t.erased = false) (hx : x < g.width)
    (halone : g.Alone u y x)
    (h : CellShown u advance host (g.look x y) x (g.cellWidth x y) t t' marks) :
    (∃ a', Since u g y a' (x + g.cellWidth x y) t') ∧
      t'.cursor advance = cellEnd u g y (t.cursor advance) x := by
  have hle := (ht.edge_next hx halone.lead).1
  rw [cellEnd]
  split
  · next hplain =>
    rcases h.plain hplain with ⟨horigin, hrun⟩ | ⟨horigin, hrun⟩
    · obtain ⟨hsince', hwidths⟩ := hsince.cell ht hx ⟨halone, hplain⟩ hrun
      refine ⟨⟨a, hsince'⟩, ?_⟩
      rw [hsince'.cursor htexted hmeasures hle h.erased,
        hsince.cursor htexted hmeasures (Nat.le_of_lt hx) herased, hwidths, horigin, Nat.add_assoc]
    · have hnew : Since u g y x x ({ t with run := [] } : Terminal) := since_nil rfl
      have hrun' : t'.run = ({ t with run := [] } : Terminal).run ++ (g.look x y).text := hrun
      obtain ⟨hsince', hwidths⟩ := hnew.cell ht hx ⟨halone, hplain⟩ hrun'
      refine ⟨⟨x, hsince'⟩, ?_⟩
      rw [hsince'.cursor htexted hmeasures hle h.erased, hwidths, horigin, widthsIn, leadsIn_self]
      simp
  · next hfitted =>
    obtain ⟨horigin, hrun⟩ := h.fitted hfitted
    refine ⟨⟨_, since_nil hrun⟩, ?_⟩
    rw [Terminal.cursor, if_pos hrun, horigin, Nat.add_zero]

theorem Written.writeCell (ht : g.TiledRow y) (htexted : Texted g y) (hcontrols : NoControls u g y)
    (hmeasures : Measures u advance g y) {x : ℕ} {w : RowWriter} {prints : List Print}
    (hx : x < g.width) (halone : g.Alone u y x) (h : Written u advance host g y x w prints) :
    ∃ marks, Written u advance host g y (x + g.cellWidth x y) (g.writeCell u y w x)
        (prints ++ [⟨x, marks⟩]) ∧
      Print.Begins ⟨x, marks⟩ ((w.shown advance).cursor advance) ∧
      ((g.writeCell u y w x).shown advance).cursor advance =
        cellEnd u g y ((w.shown advance).cursor advance) x := by
  obtain ⟨⟨marks, hcell⟩, hagree⟩ := shown_cell x h.agree h.unerased
    (htexted hx halone.lead) (hcontrols hx halone.lead)
  rw [h.host_eq] at hcell
  obtain ⟨a, hsince⟩ := h.since
  obtain ⟨hsince', hcursor⟩ :=
    cursor_cellShown ht htexted hmeasures hsince h.unerased hx halone hcell
  refine ⟨marks, ⟨host_cell.trans h.host_eq, hagree, hcell.erased, ?_, ?_, ?_, hsince'⟩, hcell.start,
    hcursor⟩
  · rw [List.flatMap_append, List.flatMap_singleton, ← h.shown]
    exact hcell.shown
  · rw [List.map_append, ← leadsIn_append (Nat.zero_le x) (Nat.le_add_right x _),
      ht.leadsIn_cell hx halone.lead]
    exact h.cells.append_right [x]
  · intro p hp
    rcases List.mem_append.mp hp with hp | hp
    · exact h.depicts p hp
    · rw [List.mem_singleton.mp hp]
      exact hcell.depicts

/-- Cells written one after the other, each after a placement of the cursor in its column. -/
theorem shown_parts (htexted : Texted g y) (hcontrols : NoControls u g y) {w : RowWriter}
    {parts : List ℕ} (h : Agree advance w) (hparts : ∀ x ∈ parts, x < g.width ∧ g.Leads y x) :
    let w' := parts.foldl (fun w x ↦ g.writeCell u y (w.write [.placeCursor (x + 1)]) x) w
    Agree advance w' ∧ w'.host = w.host ∧ ∃ prints : List Print, prints.map (·.cell) = parts ∧
      (w'.shown advance).shown = (w.shown advance).shown ++ prints.flatMap (·.marks) ∧
      ∀ p ∈ prints, p.Depicts u w.host g y ∧ p.Begins p.cell := by
  induction parts generalizing w with
  | nil => exact ⟨h, rfl, [], rfl, by simp, by simp⟩
  | cons x parts ih =>
    obtain ⟨hx, hlead⟩ := hparts x List.mem_cons_self
    obtain ⟨hshown, hplaced⟩ := shown_placeCursor h (x + 1)
    have herased : ((w.write [.placeCursor (x + 1)]).shown advance).erased = false := by rw [hshown]
    obtain ⟨⟨marks, hcell⟩, hagree⟩ := shown_cell x hplaced herased
      (htexted hx hlead) (hcontrols hx hlead)
    obtain ⟨hagree', hhost, prints, hcells, hprints, hdepicts⟩ :=
      ih hagree fun x' hx' ↦ hparts x' (List.mem_cons_of_mem _ hx')
    refine ⟨hagree', hhost.trans host_cell, ⟨x, marks⟩ :: prints, ?_, ?_, ?_⟩
    · rw [List.map_cons, hcells]
    · rw [List.flatMap_cons, ← List.append_assoc]
      refine hprints.trans (congrArg (· ++ _) ?_)
      rw [hcell.shown, hshown]
    · intro p hp
      rcases List.mem_cons.mp hp with rfl | hp
      · refine ⟨hcell.depicts, fun m hm ↦ (hcell.start m hm).trans ?_⟩
        rw [hshown]
        rfl
      · have hrest := hdepicts p hp
        rwa [host_cell] at hrest

theorem Written.writeJoined (htexted : Texted g y) (hcontrols : NoControls u g y) {x stop : ℕ}
    {parts : List ℕ} {w : RowWriter} {prints : List Print} (hgroup : g.Group u y x stop parts)
    (h : Written u advance host g y x w prints) :
    ∃ more, Written u advance host g y stop (g.writeJoined u y w parts x stop) (prints ++ more) ∧
      (∀ p ∈ more, p.Begins p.cell) ∧
      ((g.writeJoined u y w parts x stop).shown advance).cursor advance = stop := by
  obtain ⟨hplaced, hplacedAgree⟩ := shown_placeCursor h.agree (x + 1)
  obtain ⟨hcleared, hclearedAgree⟩ := shown_erase hplacedAgree (stop - x)
  set w₁ := (w.write [.placeCursor (x + 1)]).write [.erase (stop - x)] with hw₁
  have hparts : ∀ d ∈ parts.reverse, d < g.width ∧ g.Leads y d := by
    intro d hd
    rw [List.mem_reverse, hgroup.parts_eq] at hd
    obtain ⟨_, hdstop, hlead⟩ := mem_leadsIn.mp hd
    exact ⟨Nat.lt_of_lt_of_le hdstop hgroup.le, hlead⟩
  obtain ⟨hagree, hhost, more, hcells, hshown, hmore⟩ :=
    shown_parts htexted hcontrols hclearedAgree hparts
  have hjoined : g.writeJoined u y w parts x stop =
      (parts.reverse.foldl (fun w x ↦ g.writeCell u y (w.write [.placeCursor (x + 1)]) x) w₁).write
        [.placeCursor (stop + 1)] := by
    rw [RenderGrid.writeJoined, hw₁]
    simp [RowWriter.write]
  obtain ⟨hend, hendAgree⟩ := shown_placeCursor hagree (stop + 1)
  rw [hjoined]
  have hw₁host : w₁.host = host := h.host_eq
  refine ⟨more, ⟨hhost.trans hw₁host, hendAgree, ?_, ?_, ?_, ?_, stop, ?_⟩,
    fun p hp ↦ (hmore p hp).2, ?_⟩
  · rw [hend]
  · rw [hend, List.flatMap_append, ← h.shown]
    refine hshown.trans ?_
    rw [hcleared, hplaced]
    rfl
  · rw [List.map_append, hcells, ← leadsIn_append (Nat.zero_le x) (Nat.le_of_lt hgroup.lt),
      ← hgroup.parts_eq]
    exact h.cells.append (List.reverse_perm parts)
  · intro p hp
    rcases List.mem_append.mp hp with hp | hp
    · exact h.depicts p hp
    · rw [← hw₁host]
      exact (hmore p hp).1
  · exact since_nil (by rw [hend])
  · rw [hend]
    rfl

theorem written_start : Written u advance host g y 0 ⟨host, [], .plain, none⟩ [] where
  host_eq := rfl
  agree := agree_start
  unerased := rfl
  shown := rfl
  cells := .refl _
  depicts := fun _ hp ↦ nomatch hp
  since := ⟨0, since_nil rfl⟩

end

end Embers.Client
