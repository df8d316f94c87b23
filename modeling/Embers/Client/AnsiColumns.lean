import Embers.Client.AnsiRows
import Embers.Client.GridTexts

/-!
# Rows that stay in their columns

A terminal that reads the characters of a row shows every cell's text in the cell's own column, with its
style and link, unless one of two things is in the row. A control character in a text is never shown;
and a text of width zero that stands alone is measured as one column and written as it is, so the
terminal takes no column for it and shows the next cell one column too early.

That nothing else makes a row unfaithful is shown along the cells (`inColumns_row`). For the converse,
what is shown is cut into cells anew: as long as each begins in its own column, the cut can only be the
one that was written (`eq_append_of_begins`).
-/

namespace Embers.Client

open RenderGrid RowWriter TerminalRow

section

variable {u : Unicode} {advance : Bool → List Char → ℕ} {g : RenderGrid} {y : ℕ}
  {host : HostCapabilities}

/-- What the terminal has shown is every cell of a row once: its text in the cell's own column, with the
cell's style and link as the host supports them. The terminal ends with the plain style, no link, and
no sequence begun. -/
structure RowFaithful (u : Unicode) (host : HostCapabilities) (g : RenderGrid) (y : ℕ)
    (t : Terminal) : Prop where
  cells : ∃ prints : List Print, (prints.map (·.cell)).Perm (g.leadsIn y 0 g.width) ∧
    t.shown = prints.flatMap (·.marks) ∧
    ∀ p ∈ prints, p.Depicts u host g y ∧ p.marks.head?.map Mark.column = some p.cell
  look : t.look = .plain
  link : t.link = none
  reading : t.reading = .ground

/-- A text of width zero that stands alone in a column, before a cell that stands alone. -/
structure Slips (u : Unicode) (g : RenderGrid) (y x : ℕ) : Prop where
  alone : g.Alone u y x
  narrow : g.cellWidth x y = 1
  width : u.width (g.look x y).text = 0
  plain : (g.look x y).text.any isRegionalIndicator = false
  inside : x + 1 < g.width
  next : g.Alone u y (x + 1)

/-- Text written as it is takes the cell's columns, or it has no width and the cell has one. -/
theorem width_of_writtenPlainly {text : List Char} {width : ℕ} (hwidth : width < 65535)
    (h : WrittenPlainly u text width) : u.width text = width ∨ u.width text = 0 ∧ width = 1 := by
  have hmeasured := h.1
  rw [Unicode.graphemeWidth] at hmeasured
  omega

theorem Slips.writtenPlainly {x : ℕ} (h : Slips u g y x) :
    WrittenPlainly u (g.look x y).text (g.cellWidth x y) := by
  refine ⟨?_, h.plain⟩
  rw [Unicode.graphemeWidth, h.width, h.narrow]
  rfl

/-! ## Every cell shows something -/

/-- A variation selector and a joiner take no column of their own. -/
def Unicode.Selectors (u : Unicode) : Prop :=
  ∀ text : List Char, (∀ c ∈ text, c = emojiPresentation ∨ c = zeroWidthJoiner) → u.width text = 0

theorem cellText_ne_nil (hu : u.Selectors) {text : List Char} {width : ℕ} (htext : text ≠ [])
    (hwidth : 0 < width) : cellText u text width ≠ [] := by
  rw [cellText]
  split
  · exact htext
  rw [fittedText]
  split
  · exact List.cons_ne_nil _ _
  split
  · exact htext
  · next hwide =>
    simp only
    split
    · intro hnil
      have hselectors : ∀ c ∈ text, c = emojiPresentation ∨ c = zeroWidthJoiner := by
        intro c hc
        by_contra hne
        obtain ⟨hemoji, hjoiner⟩ := not_or.mp hne
        have hmem : c ∈ text.filter fun ch ↦ ch ≠ emojiPresentation ∧ ch ≠ zeroWidthJoiner := by
          simp [hc, hemoji, hjoiner]
        rw [hnil] at hmem
        cases hmem
      rw [Unicode.graphemeWidth, hu text hselectors] at hwide
      omega
    · rw [Ne, List.replicate_eq_nil_iff]
      omega

/-- What is sent for a text is of the text, or stands for it. -/
theorem mem_cellText {text : List Char} {width : ℕ} {c : Char} (h : c ∈ cellText u text width) :
    c ∈ text ∨ c = replacement := by
  rw [cellText] at h
  split at h
  · exact .inl h
  rw [fittedText] at h
  split at h
  · exact .inr (List.mem_singleton.mp h)
  split at h
  · exact .inl h
  simp only at h
  split at h
  · exact .inl (List.mem_filter.mp h).1
  · exact .inr (List.eq_of_mem_replicate h)

theorem Print.marks_ne_nil (hu : u.Selectors) (htexted : Texted g y) {p : Print}
    (hp : p.cell ∈ g.leadsIn y 0 g.width) (hdepicts : p.Depicts u host g y) : p.marks ≠ [] := by
  obtain ⟨-, hlt, hlead⟩ := mem_leadsIn.mp hp
  intro hnil
  have htext := hdepicts.text
  rw [hnil] at htext
  exact cellText_ne_nil hu (htexted hlt hlead) cellWidth_pos htext.symm

theorem Print.head_column {p : Print} {column : ℕ} (hne : p.marks ≠ []) (h : p.Begins column) :
    p.marks.head?.map Mark.column = some column := by
  obtain ⟨m, marks, hmarks⟩ := List.exists_cons_of_ne_nil hne
  rw [hmarks, List.head?_cons, Option.map_some, h m (by rw [hmarks]; rfl)]

/-! ## Without such a text -/

/-- The cells before a column begin in their columns, and the cursor is in its own where the next cell
needs it there. -/
structure InColumns (u : Unicode) (advance : Bool → List Char → ℕ) (host : HostCapabilities)
    (g : RenderGrid) (y x : ℕ) (w : RowWriter) (prints : List Print) : Prop where
  written : Written u advance host g y x w prints
  columns : ∀ p ∈ prints, p.Begins p.cell
  cursor : x < g.width → g.joinedNext u y x = none → (w.shown advance).cursor advance = x

section

variable (hnarrow : g.width < 65535) (ht : g.TiledRow y) (htexted : Texted g y)
  (hcontrols : NoControls u g y) (hmeasures : Measures u advance g y)
include htexted hcontrols

theorem InColumns.group {x stop : ℕ} {parts : List ℕ} {w : RowWriter} {prints : List Print}
    (hgroup : g.Group u y x stop parts) (h : InColumns u advance host g y x w prints) :
    ∃ more, InColumns u advance host g y stop (g.writeJoined u y w parts x stop) (prints ++ more) := by
  obtain ⟨more, hwritten, hbegins, hcursor⟩ := h.written.writeJoined htexted hcontrols hgroup
  refine ⟨more, hwritten, fun p hp ↦ ?_, fun _ _ ↦ hcursor⟩
  rcases List.mem_append.mp hp with hp | hp
  · exact h.columns p hp
  · exact hbegins p hp

include hnarrow ht hmeasures

theorem InColumns.cell {x : ℕ} {w : RowWriter} {prints : List Print} (hx : x < g.width)
    (halone : g.Alone u y x) (hslips : ¬Slips u g y x)
    (h : InColumns u advance host g y x w prints) :
    ∃ marks, InColumns u advance host g y (x + g.cellWidth x y) (g.writeCell u y w x)
      (prints ++ [⟨x, marks⟩]) := by
  obtain ⟨marks, hwritten, hbegins, hcursor'⟩ :=
    h.written.writeCell ht htexted hcontrols hmeasures hx halone
  rw [h.cursor hx halone.after] at hbegins hcursor'
  refine ⟨marks, hwritten, fun p hp ↦ ?_, fun hx' hnone ↦ ?_⟩
  · rcases List.mem_append.mp hp with hp | hp
    · exact h.columns p hp
    · rw [List.mem_singleton.mp hp]
      exact hbegins
  · obtain ⟨hle, hedge⟩ := ht.edge_next hx halone.lead
    rw [hcursor', cellEnd]
    split
    · next hplain =>
      rcases width_of_writtenPlainly (by omega) hplain with hwidth | ⟨hzero, hone⟩
      · rw [hwidth]
      · -- The next cell stands alone, so this one would slip.
        rw [hone] at hx' hnone hedge
        have hbefore := ht.unjoined_next hx halone.lead halone.after
        rw [hone] at hbefore
        have hnext : g.Alone u y (x + 1) := ⟨hedge.resolve_right (by omega), hbefore, hnone⟩
        exact absurd ⟨halone, hone, hzero, hplain.2, hx', hnext⟩ hslips
    · rfl

variable (advance host) in
theorem inColumns_row (hslips : ∀ x, ¬Slips u g y x) : ∃ prints,
    InColumns u advance host g y g.width (g.writeRow u y g.width 0 ⟨host, [], .plain, none⟩)
      prints := by
  refine ht.writeRow_row (I := fun x w ↦ ∃ prints, InColumns u advance host g y x w prints)
    (fun {x w} hx halone h ↦ ?_) (fun {x stop parts w} _ hgroup h ↦ ?_) ?_
  · obtain ⟨prints, h⟩ := h
    obtain ⟨marks, h'⟩ := h.cell hnarrow ht htexted hcontrols hmeasures hx halone (hslips x)
    exact ⟨_, h'⟩
  · obtain ⟨prints, h⟩ := h
    obtain ⟨more, h'⟩ := h.group htexted hcontrols hgroup
    exact ⟨_, h'⟩
  · exact ⟨[], written_start, fun p hp ↦ absurd hp List.not_mem_nil, fun _ _ ↦ rfl⟩

end

/-! ## With such a text -/

/-- What is shown for a text of width zero begins in its column, and so does what is shown next. -/
def Collide (c : ℕ) (prints : List Print) : Prop :=
  ∃ (before : List Print) (marks : List Mark) (q : Print) (after : List Print),
    prints = before ++ ⟨c, marks⟩ :: q :: after ∧
      (∀ p ∈ before ++ [⟨c, marks⟩], p.Begins p.cell) ∧ q.Begins c

/-- Before the first text of width zero that slips; after it, with the cursor still where it began; and
after the next cell, which begins in the same column. -/
inductive Slipping (u : Unicode) (advance : Bool → List Char → ℕ) (host : HostCapabilities)
    (g : RenderGrid) (y c x : ℕ) (w : RowWriter) (prints : List Print) : Prop where
  | before (h : InColumns u advance host g y x w prints) (hle : x ≤ c)
  | slipped (h : Written u advance host g y x w prints) (heq : x = c + 1)
      (hcursor : (w.shown advance).cursor advance = c)
      (hprints : ∃ before marks, prints = before ++ [⟨c, marks⟩] ∧ ∀ p ∈ prints, p.Begins p.cell)
  | collided (h : Written u advance host g y x w prints) (hcollide : Collide c prints)

theorem Slipping.written {c x : ℕ} {w : RowWriter} {prints : List Print}
    (h : Slipping u advance host g y c x w prints) : Written u advance host g y x w prints := by
  cases h with
  | before h _ => exact h.written
  | slipped h _ _ _ => exact h
  | collided h _ => exact h

theorem Collide.append {c : ℕ} {prints more : List Print} (h : Collide c prints) :
    Collide c (prints ++ more) := by
  obtain ⟨before, marks, q, after, rfl, hbegins, hq⟩ := h
  exact ⟨before, marks, q, after ++ more, by simp, hbegins, hq⟩

section

variable (hnarrow : g.width < 65535) (ht : g.TiledRow y) (htexted : Texted g y)
  (hcontrols : NoControls u g y) (hmeasures : Measures u advance g y) {c : ℕ} (hc : Slips u g y c)
  (hfirst : ∀ x < c, ¬Slips u g y x)
include hnarrow ht htexted hcontrols hmeasures hc hfirst

theorem Slipping.cell {x : ℕ} {w : RowWriter} {prints : List Print} (hx : x < g.width)
    (halone : g.Alone u y x) (h : Slipping u advance host g y c x w prints) :
    ∃ marks, Slipping u advance host g y c (x + g.cellWidth x y) (g.writeCell u y w x)
      (prints ++ [⟨x, marks⟩]) := by
  obtain ⟨marks, hwritten, hbegins, hcursor⟩ :=
    h.written.writeCell ht htexted hcontrols hmeasures hx halone
  cases h with
  | before h hle =>
    rcases Nat.eq_or_lt_of_le hle with rfl | hlt
    · rw [h.cursor hx halone.after] at hbegins hcursor
      refine ⟨marks, .slipped hwritten (by rw [hc.narrow]) ?_ ⟨prints, marks, rfl, fun p hp ↦ ?_⟩⟩
      · rw [hcursor, cellEnd, if_pos hc.writtenPlainly, hc.width, Nat.add_zero]
      · rcases List.mem_append.mp hp with hp | hp
        · exact h.columns p hp
        · rw [List.mem_singleton.mp hp]
          exact hbegins
    · obtain ⟨marks, h'⟩ := h.cell hnarrow ht htexted hcontrols hmeasures hx halone (hfirst x hlt)
      refine ⟨marks, .before h' ?_⟩
      by_contra hgt
      have hmem : c ∈ g.leadsIn y x (x + g.cellWidth x y) :=
        mem_leadsIn.mpr ⟨hle, by omega, hc.alone.lead⟩
      rw [ht.leadsIn_cell hx halone.lead, List.mem_singleton] at hmem
      omega
  | slipped h heq hcursor' hprints =>
    obtain ⟨before, slipped, rfl, hcolumns⟩ := hprints
    rw [hcursor'] at hbegins
    refine ⟨marks, .collided hwritten ⟨before, slipped, ⟨x, marks⟩, [], by simp, ?_, hbegins⟩⟩
    exact hcolumns
  | collided h hcollide => exact ⟨marks, .collided hwritten hcollide.append⟩

variable (advance host) in
theorem slipping_row : ∃ prints, Slipping u advance host g y c g.width
    (g.writeRow u y g.width 0 ⟨host, [], .plain, none⟩) prints := by
  refine ht.writeRow_row (I := fun x w ↦ ∃ prints, Slipping u advance host g y c x w prints)
    (fun {x w} hx halone h ↦ ?_) (fun {x stop parts w} hjoins hgroup h ↦ ?_) ?_
  · obtain ⟨prints, h⟩ := h
    obtain ⟨marks, h'⟩ :=
      h.cell hnarrow ht htexted hcontrols hmeasures hc hfirst hx halone
    exact ⟨_, h'⟩
  · obtain ⟨prints, h⟩ := h
    cases h with
    | before h hle =>
      obtain ⟨more, h'⟩ := h.group htexted hcontrols hgroup
      refine ⟨_, .before h' ?_⟩
      by_contra hgt
      rcases Nat.eq_or_lt_of_le hle with heq | hlt
      · rw [heq] at hjoins
        exact hjoins hc.alone.after
      · exact hgroup.joined hlt (by omega) hc.alone.lead hc.alone.before
    | slipped _ heq _ _ =>
      rw [heq] at hjoins
      exact absurd hc.next.after hjoins
    | collided h hcollide =>
      obtain ⟨more, h', -, -⟩ := h.writeJoined htexted hcontrols hgroup
      exact ⟨_, .collided h' hcollide.append⟩
  · exact ⟨[], .before ⟨written_start, fun p hp ↦ absurd hp List.not_mem_nil, fun _ _ ↦ rfl⟩
      (Nat.zero_le c)⟩

end

/-! ## Cutting what is shown into cells -/

/-- Cells that begin in their own columns can be cut from what is shown in one way only. -/
theorem eq_append_of_begins {before prints : List Print} {rest : List Mark}
    (hbefore : ∀ p ∈ before, p.Depicts u host g y ∧ p.marks.head?.map Mark.column = some p.cell)
    (hprints : ∀ p ∈ prints, p.Depicts u host g y ∧ p.marks.head?.map Mark.column = some p.cell)
    (h : before.flatMap (·.marks) ++ rest = prints.flatMap (·.marks)) :
    ∃ after, prints = before ++ after ∧ rest = after.flatMap (·.marks) := by
  induction before generalizing prints with
  | nil => exact ⟨prints, rfl, h⟩
  | cons p before ih =>
    obtain ⟨⟨hp, hcolumn⟩, hbefore'⟩ := List.forall_mem_cons.mp hbefore
    obtain ⟨m, marks, hmarks⟩ : ∃ m marks, p.marks = m :: marks := by
      refine List.exists_cons_of_ne_nil fun hnil ↦ ?_
      rw [hnil] at hcolumn
      cases hcolumn
    rcases prints with _ | ⟨q, prints⟩
    · rw [List.flatMap_cons, hmarks] at h
      cases h
    obtain ⟨⟨hq, hqcolumn⟩, hprints'⟩ := List.forall_mem_cons.mp hprints
    rw [List.flatMap_cons, List.flatMap_cons, List.append_assoc] at h
    -- Both begin with the same mark, so they are the same cell, and its text has one length.
    have hcell : p.cell = q.cell := by
      have hhead := congrArg List.head? h
      rw [hmarks] at hhead hcolumn
      obtain ⟨m', marks', hmarks'⟩ : ∃ m marks, q.marks = m :: marks := by
        refine List.exists_cons_of_ne_nil fun hnil ↦ ?_
        rw [hnil] at hqcolumn
        cases hqcolumn
      rw [hmarks'] at hhead hqcolumn
      have hm : m = m' := Option.some.inj hhead
      rw [hm] at hcolumn
      exact Option.some.inj (hcolumn.symm.trans hqcolumn)
    have hlength : p.marks.length = q.marks.length := by
      have hptext := congrArg List.length hp.text
      have hqtext := congrArg List.length hq.text
      rw [List.length_map] at hptext hqtext
      rw [hptext, hqtext, hcell]
    obtain ⟨hmarks', hrest⟩ := List.append_inj h hlength
    obtain ⟨after, rfl, hafter⟩ := ih hbefore' hprints' hrest
    refine ⟨after, ?_, hafter⟩
    have hpq : p = q := by
      cases p
      cases q
      rw [Print.mk.injEq]
      exact ⟨hcell, hmarks'⟩
    rw [List.cons_append, hpq]

/-! ## Rows of any tiled grid -/

/-- What is shown holds no control character, so a faithful row was written without any. -/
theorem RowFaithful.noControls {line : List Char}
    (h : RowFaithful u host g y (Terminal.start.read advance line)) : NoControls u g y := by
  intro x hx hlead c hc
  obtain ⟨prints, hcells, hshown, hprints⟩ := h.cells
  have hmem : x ∈ prints.map (·.cell) := hcells.mem_iff.mpr (mem_leadsIn.mpr ⟨Nat.zero_le x, hx, hlead⟩)
  obtain ⟨p, hp, rfl⟩ := List.mem_map.mp hmem
  rw [← (hprints p hp).1.text] at hc
  obtain ⟨m, hm, rfl⟩ := List.mem_map.mp hc
  have hmark : m ∈ (Terminal.start.read advance line).shown := by
    rw [hshown]
    exact List.mem_flatMap.mpr ⟨p, hp, hm⟩
  have hcontrol := Terminal.read_shown advance (t := .start) (by simp [Terminal.start])
    line m hmark
  rw [← Bool.not_eq_true, isControl_iff]
  exact hcontrol

/-- A row is shown faithfully exactly where no text of width zero slips and no control character is
sent for a cell. -/
theorem rowFaithful_iff (hu : u.Selectors) (hnarrow : g.width < 65535) (ht : g.TiledRow y)
    (htexted : Texted g y) (hmeasures : Measures u advance g y) :
    RowFaithful u host g y
        (Terminal.start.read advance ((g.ansiRow u host y).flatMap Piece.encode)) ↔
      (∀ x, ¬Slips u g y x) ∧ NoControls u g y := by
  have hends : ∀ {prints}, Written u advance host g y g.width
      (g.writeRow u y g.width 0 ⟨host, [], .plain, none⟩) prints →
      let t := Terminal.start.read advance ((g.ansiRow u host y).flatMap Piece.encode)
      t.shown = prints.flatMap (·.marks) ∧ t.look = .plain ∧ t.link = none ∧ t.reading = .ground := by
    intro prints hwritten
    obtain ⟨hshown, hreading, hlook, hlink⟩ := read_finish hwritten.agree
    exact ⟨hshown.trans hwritten.shown, hlook, hlink, hreading⟩
  have hnonempty : ∀ {prints : List Print}, (prints.map (·.cell)).Perm (g.leadsIn y 0 g.width) →
      (∀ p ∈ prints, p.Depicts u host g y) → ∀ p ∈ prints, p.marks ≠ [] :=
    fun hcells hdepicts p hp ↦
      p.marks_ne_nil hu htexted (hcells.mem_iff.mp (List.mem_map_of_mem hp)) (hdepicts p hp)
  constructor
  · intro h
    refine ⟨fun c hc ↦ ?_, h.noControls⟩
    -- Take the first text that slips.
    induction c using Nat.strong_induction_on with
    | _ c hfirst =>
      obtain ⟨prints, hslipping⟩ := slipping_row advance host hnarrow ht htexted
        h.noControls hmeasures hc hfirst
      have hwritten := hslipping.written
      have hne := hnonempty hwritten.cells hwritten.depicts
      cases hslipping with
      | before _ hle =>
        have := hc.inside
        omega
      | slipped _ heq _ _ =>
        have := hc.inside
        omega
      | collided _ hcollide =>
        obtain ⟨before, marks, q, after, rfl, hbegins, hq⟩ := hcollide
        obtain ⟨cut, hcells, hshown, hcut⟩ := h.cells
        rw [(hends hwritten).1, ← List.singleton_append, ← List.append_assoc,
          List.flatMap_append] at hshown
        have hbefore : ∀ p ∈ before ++ [(⟨c, marks⟩ : Print)],
            p.Depicts u host g y ∧ p.marks.head?.map Mark.column = some p.cell := by
          intro p hp
          have hmem : p ∈ before ++ (⟨c, marks⟩ : Print) :: q :: after := by
            rcases List.mem_append.mp hp with hp | hp
            · exact List.mem_append_left _ hp
            · rw [List.mem_singleton.mp hp]
              simp
          exact ⟨hwritten.depicts p hmem, p.head_column (hne p hmem) (hbegins p hp)⟩
        obtain ⟨rest, rfl, hrest⟩ := eq_append_of_begins hbefore hcut hshown
        -- The next cell of the cut begins where `q` does: it is the cell at `c` once more.
        have hqcolumn := q.head_column (hne q (by simp)) hq
        obtain ⟨m, qmarks, hqmarks⟩ := List.exists_cons_of_ne_nil (hne q (by simp))
        rcases rest with _ | ⟨r, rest⟩
        · rw [List.flatMap_cons, hqmarks] at hrest
          cases hrest
        have hr := (hcut r (by simp)).2
        obtain ⟨m', rmarks, hrmarks⟩ : ∃ m marks, r.marks = m :: marks := by
          refine List.exists_cons_of_ne_nil fun hnil ↦ ?_
          rw [hnil] at hr
          cases hr
        rw [List.flatMap_cons, List.flatMap_cons, hqmarks, hrmarks] at hrest
        have hmark : m = m' := (List.cons.inj hrest).1
        rw [hqmarks] at hqcolumn
        rw [hrmarks, ← hmark] at hr
        have hrc : r.cell = c := Option.some.inj (hr.symm.trans hqcolumn)
        have hnodup : ((before ++ [(⟨c, marks⟩ : Print)] ++ r :: rest).map (·.cell)).Nodup :=
          hcells.nodup_iff.mpr (List.Nodup.filter _ List.nodup_range')
        simp [hrc, List.nodup_append] at hnodup
  · rintro ⟨hslips, hcontrols⟩
    obtain ⟨prints, hcolumns⟩ := inColumns_row advance host hnarrow ht htexted
      hcontrols hmeasures hslips
    have hwritten := hcolumns.written
    obtain ⟨hshown, hlook, hlink, hreading⟩ := hends hwritten
    refine ⟨⟨prints, hwritten.cells, hshown, fun p hp ↦ ⟨hwritten.depicts p hp, ?_⟩⟩, hlook, hlink,
      hreading⟩
    exact p.head_column (hnonempty hwritten.cells hwritten.depicts p hp) (hcolumns.columns p hp)

end

/-- On a grid narrower than 65535 columns, whatever was drawn, the characters sent for a row are read as
the row's cells exactly where no text of width zero stands alone before a cell that stands alone and no
control character is sent for a cell. The terminal moves over a text that was erased for as it likes. -/
theorem ansiLinesFor_faithful_iff {u : Unicode} (hu : u.Segments) (hselectors : u.Selectors)
    {width height : ℕ} (hwidth : width < 65535) (ops : List DrawOp) {g : RenderGrid}
    (hg : draws u ops (new width height) = .ok g) (host : HostCapabilities) {y : ℕ}
    {line : List Char} (hline : (g.ansiLinesFor u host)[y]? = some line)
    {advance : Bool → List Char → ℕ} (hmeasures : Measures u advance g y) :
    RowFaithful u host g y (Terminal.start.read advance line) ↔
      (∀ x, ¬Slips u g y x) ∧ NoControls u g y := by
  obtain ⟨g', hg', hredrawn⟩ := redrawn_draws (u := u) (whole_new hwidth) ops
  obtain rfl : g' = g := Except.ok.inj (hg'.symm.trans hg)
  have hw : g'.width = width := hredrawn.width_eq
  have hh : g'.height = height := hredrawn.height_eq
  have hfilled : Filled g' := filled_draws hu ops g' hg
  obtain ⟨hy, rfl⟩ : y < g'.height ∧ (g'.ansiRow u host y).flatMap Piece.encode = line := by
    rw [ansiLinesFor, List.getElem?_map, Option.map_eq_some_iff] at hline
    obtain ⟨y', hy', rfl⟩ := hline
    obtain ⟨hlt, rfl⟩ := List.getElem?_eq_some_iff.mp hy'
    rw [List.getElem_range]
    rw [List.length_range] at hlt
    exact ⟨hlt, rfl⟩
  refine rowFaithful_iff hselectors (hw ▸ hwidth) (hredrawn.whole.tiled hy) (fun {x} _ hlead ↦ ?_)
    hmeasures
  exact text_of_leads hfilled hlead

/-- Characters that are graphemes of their own, one column wide but for the zero-width space and those
that only choose a form. -/
def narrowText : Unicode where
  graphemes text := text.map ([·])
  width text := text.countP (· ∉ ['\u200B', emojiPresentation, zeroWidthJoiner])

theorem narrowText_segments : narrowText.Segments := by
  intro text h
  obtain ⟨c, _, hc⟩ := List.mem_map.mp h
  exact nomatch hc

theorem narrowText_selectors : narrowText.Selectors := by
  intro text h
  refine List.countP_eq_zero.mpr fun c hc ↦ ?_
  rcases h c hc with rfl | rfl <;> decide

/-- A terminal that takes a column for each character but those. -/
theorem measures_narrowText (g : RenderGrid) (y : ℕ) :
    Measures narrowText (fun erased text ↦ if erased then 2 else narrowText.width text) g y :=
  fun _ _ ↦ List.countP_flatMap

/-- The style of the samples. -/
def boldStyle : CellStyle := { CellStyle.plain with bold := true }

theorem ansiLinesFor_faithful_bold : ∃ g, draws narrowText [.putStr 0 0 ['o', 'k'] boldStyle] (new 3 1) =
    .ok g ∧ ∀ line, (g.ansiLinesFor narrowText ⟨true, true, true⟩)[0]? = some line →
      RowFaithful narrowText ⟨true, true, true⟩ g 0
        (Terminal.start.read (fun erased text ↦ if erased then 2 else narrowText.width text) line) := by
  have hdraws : draws narrowText [.putStr 0 0 ['o', 'k'] boldStyle] (new 3 1) = .ok ⟨3, 1,
      [⟨['o'], boldStyle, false, none, 1⟩, ⟨['k'], boldStyle, false, none, 1⟩, .blank ' '], rfl⟩ := rfl
  refine ⟨_, hdraws, fun line hline ↦ ?_⟩
  refine (ansiLinesFor_faithful_iff narrowText_segments narrowText_selectors (by decide) _ hdraws _
    hline (measures_narrowText _ _)).mpr ⟨fun x hx ↦ ?_, fun {x} hx _ c hc ↦ ?_⟩
  · have hinside : x + 1 < 3 := hx.inside
    have hzero := hx.width
    obtain rfl | rfl : x = 0 ∨ x = 1 := by omega
    · cases hzero
    · cases hzero
  · have hinside : x < 3 := hx
    obtain htext | rfl := mem_cellText hc
    · obtain rfl | rfl | rfl : x = 0 ∨ x = 1 ∨ x = 2 := by omega
      all_goals
        obtain rfl := List.mem_singleton.mp htext
        rfl
    · rfl

/-- After a zero-width space the `x` of column 1 is shown in column 0. -/
theorem zero_width_text_slips : ∃ g,
    draws narrowText [.putStr 0 0 ['\u200B', 'x'] .plain] (new 2 1) = .ok g ∧
      ∃ line, (g.ansiLinesFor narrowText ⟨true, true, true⟩)[0]? = some line ∧
        ¬RowFaithful narrowText ⟨true, true, true⟩ g 0
          (Terminal.start.read (fun _ text ↦ narrowText.width text) line) := by
  refine ⟨⟨2, 1, [⟨['\u200B'], .plain, false, none, 1⟩, ⟨['x'], .plain, false, none, 1⟩], rfl⟩, rfl,
    ['\u200B', 'x'], rfl, fun h ↦ ?_⟩
  obtain ⟨prints, hcells, hshown, hprints⟩ := h.cells
  obtain ⟨p, hp, hcell⟩ := List.mem_map.mp (hcells.mem_iff.mpr (by decide : 1 ∈ _))
  have hcolumn := (hprints p hp).2
  rw [hcell] at hcolumn
  obtain ⟨m, hm, hmcolumn⟩ := Option.map_eq_some_iff.mp hcolumn
  have hmark : m ∈ (Terminal.start.read (fun _ text ↦ narrowText.width text) ['\u200B', 'x']).shown := by
    rw [hshown]
    exact List.mem_flatMap.mpr ⟨p, hp, List.mem_of_mem_head? hm⟩
  -- Both characters are shown in column 0.
  have hzero : ∀ m ∈ (Terminal.start.read (fun _ text ↦ narrowText.width text) ['\u200B', 'x']).shown,
      m.column = 0 := by decide
  rw [hzero m hmark] at hmcolumn
  cases hmcolumn

end Embers.Client
