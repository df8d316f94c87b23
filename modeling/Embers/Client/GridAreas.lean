import Embers.Client.GridCells

/-!
# Drawing inside an area

An area is a block of columns and rows. While no character lies across its sides, drawing inside it
leaves every other cell as it was, and afterwards again no character lies across its sides. The
whole grid is an area of its own, so what is said of areas also says that drawing keeps every row
tiled.
-/

namespace Embers.Client

open RenderGrid

/-! ## Measured text -/

/-- The columns that a text is drawn on: each of its graphemes takes at least one. -/
def Unicode.drawnWidth (u : Unicode) (text : List Char) : ℕ :=
  ((u.graphemes text).map u.graphemeWidth).sum

/-- A printable character of ASCII. -/
def Printable (c : Char) : Prop := ' ' ≤ c ∧ c ≤ '~'

instance (c : Char) : Decidable (Printable c) := inferInstanceAs (Decidable (_ ∧ _))

/-- A printable character of ASCII is a grapheme of its own, one column wide. -/
structure Unicode.Ascii (u : Unicode) : Prop where
  graphemes : ∀ {text}, (∀ c ∈ text, Printable c) → u.graphemes text = text.map ([·])
  width : ∀ {text}, (∀ c ∈ text, Printable c) → u.width text = text.length

namespace Unicode

variable {u : Unicode}

theorem graphemeWidth_pos (u : Unicode) (text : List Char) : 0 < u.graphemeWidth text := by
  rw [graphemeWidth]
  omega

theorem Ascii.drawnWidth (h : u.Ascii) {text : List Char} (htext : ∀ c ∈ text, Printable c) :
    u.drawnWidth text = text.length := by
  have hone : ∀ c ∈ text, u.graphemeWidth [c] = 1 := by
    intro c hc
    rw [graphemeWidth, h.width fun d hd ↦ List.mem_singleton.mp hd ▸ htext c hc]
    rfl
  have hmap : text.map (u.graphemeWidth ∘ ([·])) = text.map fun _ ↦ 1 := List.map_congr_left hone
  rw [Unicode.drawnWidth, h.graphemes htext, List.map_map, hmap]
  simp

end Unicode

/-- Graphemes and widths of texts without wide or joined characters. -/
def plainText : Unicode := ⟨fun text ↦ text.map ([·]), List.length⟩

theorem ascii_plainText : plainText.Ascii := ⟨fun _ ↦ rfl, fun _ ↦ rfl⟩

/-! ## Areas -/

/-- The columns from `left` up to `right`, on the rows from `top` up to `bottom`. -/
structure Area where
  left : ℕ
  right : ℕ
  top : ℕ
  bottom : ℕ
  deriving DecidableEq, Repr

namespace Area

def Mem (a : Area) (x y : ℕ) : Prop := a.left ≤ x ∧ x < a.right ∧ a.top ≤ y ∧ y < a.bottom

/-- The row is one of the area's. -/
def HasRow (a : Area) (y : ℕ) : Prop := a.top ≤ y ∧ y < a.bottom

end Area

/-- All of a grid. -/
def RenderGrid.area (g : RenderGrid) : Area := ⟨0, g.width, 0, g.height⟩

/-- Every row of the grid is tiled, and no character lies across a side of the area. -/
structure Uncut (a : Area) (g : RenderGrid) : Prop where
  narrow : g.width < 65535
  tiled : ∀ {y}, y < g.height → g.TiledRow y
  right_le : a.right ≤ g.width
  bottom_le : a.bottom ≤ g.height
  edge_left : ∀ {y}, a.HasRow y → g.Edge y a.left
  edge_right : ∀ {y}, a.HasRow y → g.Edge y a.right

/-- A change of the cells of an area only. -/
structure Drew (a : Area) (g g' : RenderGrid) : Prop where
  uncut : Uncut a g'
  width_eq : g'.width = g.width
  height_eq : g'.height = g.height
  same : ∀ {x y}, g.Contains x y → ¬ a.Mem x y → g'.look x y = g.look x y

namespace Drew

variable {a : Area} {g g' g'' : RenderGrid}

theorem refl (h : Uncut a g) : Drew a g g := ⟨h, rfl, rfl, fun _ _ ↦ rfl⟩

theorem trans (h : Drew a g g') (h' : Drew a g' g'') : Drew a g g'' where
  uncut := h'.uncut
  width_eq := h'.width_eq.trans h.width_eq
  height_eq := h'.height_eq.trans h.height_eq
  same hin hout :=
    (h'.same ((contains_congr h.width_eq h.height_eq).mpr hin) hout).trans (h.same hin hout)

/-- A loop whose turns each change the area only. -/
theorem foldlM {β : Type} {l : List β} {f : RenderGrid → β → Drawn RenderGrid}
    (hf : ∀ b ∈ l, ∀ g', Drew a g g' → Gives (f g' b) (Drew a g')) (h : Uncut a g) :
    Gives (l.foldlM f g) (Drew a g) := by
  refine Gives.foldlM (fun b hb g' hg' ↦ ?_) (.refl h)
  exact (hf b hb g' hg').mono fun g'' hg'' ↦ hg'.trans hg''

end Drew

namespace RenderGrid

variable {g g' : RenderGrid}

theorem TiledRow.leads_zero {y : ℕ} (h : g.TiledRow y) (hpos : 0 < g.width) : g.Leads y 0 :=
  h.first hpos

/-- No character lies across the sides of the whole grid. -/
theorem uncut_area (hnarrow : g.width < 65535) (htiled : ∀ {y}, y < g.height → g.TiledRow y) :
    Uncut g.area g := by
  refine ⟨hnarrow, htiled, Nat.le_refl _, Nat.le_refl _, fun {y} hy ↦ ?_, fun _ ↦ .inr (Nat.le_refl _)⟩
  rcases Nat.eq_zero_or_pos g.width with hzero | hpos
  · exact .inr (Nat.le_of_eq hzero)
  · exact .inl ((htiled hy.2).leads_zero hpos)

/-! ## Characters and styles in an area -/

section

variable {x y width start stop : ℕ} {grapheme : List Char} {style : CellStyle}
  {link : Option Hyperlink}

theorem Placed.tiledRow (h : Placed x y width start stop grapheme style link g g')
    (hpos : 0 < width) (hy : y < g.height) (ht : g.TiledRow y) : g'.TiledRow y := by
  have hlook : ∀ i, start ≤ i → i < stop → g'.look i y =
      if i = x then ⟨grapheme, style, false, link, width⟩
      else if x < i ∧ i < x + width then ⟨[], style, true, link, 0⟩
      else default := by
    intro i hi hi'
    have := h.stop_le
    rw [h.look_eq ⟨by omega, hy⟩, if_pos ⟨rfl, hi, hi'⟩]
  have hstart := h.start_le
  have hstop := h.le_stop
  have hle := h.stop_le
  -- Blanks, the new character, and blanks again.
  have hblank : ∀ i, start ≤ i → i < stop → i < x ∨ x + width ≤ i → g'.look i y = default := by
    intro i hi hi' hside
    rw [hlook i hi hi', if_neg (by omega), if_neg (by omega)]
  have hleft : Tiles (g'.Leads y) (fun x ↦ (g'.look x y).span) start x := by
    refine .ones (fun i hi hi' ↦ ?_) (fun i hi hi' ↦ ?_)
    · rw [Leads, hblank i hi (by omega) (.inl hi')]
      rfl
    · rw [hblank i hi (by omega) (.inl hi')]
      rfl
  have hright : Tiles (g'.Leads y) (fun x ↦ (g'.look x y).span) (x + width) stop := by
    refine .ones (fun i hi hi' ↦ ?_) (fun i hi hi' ↦ ?_)
    · rw [Leads, hblank i (by omega) hi' (.inr hi)]
      rfl
    · rw [hblank i (by omega) hi' (.inr hi)]
      rfl
  have hnew : Tiles (g'.Leads y) (fun x ↦ (g'.look x y).span) x (x + width) := by
    refine .piece ?_ ?_ (by omega) fun i hi hi' ↦ ?_
    · rw [Leads, hlook x hstart (by omega), if_pos rfl]
    · rw [hlook x hstart (by omega), if_pos rfl]
      exact (Nat.add_sub_cancel_left x width).symm
    · rw [Leads, hlook i (by omega) (by omega), if_neg (by omega), if_pos ⟨hi, hi'⟩]
      intro hlead
      cases hlead
  have hnewstretch := (hleft.append hnew hstart (by omega)).append hright (by omega) hstop
  have hlead : g.Leads y start ∨ g.width ≤ start := by
    rcases h.leads_start with rfl | hlead
    · exact .inl (ht.leads_zero (by omega))
    · exact .inl hlead
  rw [TiledRow, h.width_eq]
  refine ht.retile hlead h.edge_stop (by omega) (by omega) hle hnewstretch fun i hi hout ↦ ?_
  rw [Leads, Leads, h.look_eq ⟨hi, hy⟩, if_neg (by omega)]
  exact ⟨Iff.rfl, rfl⟩

/-- A row whose cells keep their place in a character stays tiled. -/
theorem TiledRow.congr {y : ℕ} (ht : g.TiledRow y) (hwidth : g'.width = g.width)
    (hcells : ∀ x, x < g.width → (g'.look x y).continuation = (g.look x y).continuation ∧
      (g'.look x y).span = (g.look x y).span) : g'.TiledRow y := by
  rw [TiledRow, hwidth]
  refine Tiles.congr ht (fun x _ hx ↦ ?_) fun x _ hx _ ↦ (hcells x hx).2
  rw [Leads, Leads, (hcells x hx).1]

/-- A character drawn inside an area changes the area only: what it overlaps lies inside as well. -/
theorem Placed.drew {a : Area} (h : Placed x y width start stop grapheme style link g g')
    (huncut : Uncut a g) (hpos : 0 < width) (hleft : a.left ≤ x) (hright : x + width ≤ a.right)
    (hrow : a.HasRow y) : Drew a g g' := by
  have hle := h.stop_le
  have hstop := h.le_stop
  have hy : y < g.height := Nat.lt_of_lt_of_le hrow.2 huncut.bottom_le
  have hstart : a.left ≤ start := by
    by_contra hlt
    rcases huncut.edge_left hrow with hlead | hend
    · exact h.before a.left (by omega) hleft hlead
    · omega
  have hstop' : stop ≤ a.right := by
    by_contra hlt
    rcases huncut.edge_right hrow with hlead | hend
    · exact h.after a.right hright (by omega) hlead
    · omega
  have hother : ∀ {i j}, g.Contains i j → ¬ (j = y ∧ start ≤ i ∧ i < stop) →
      g'.look i j = g.look i j := by
    intro i j hin hout
    rw [h.look_eq hin, if_neg hout]
  refine ⟨⟨?_, ?_, ?_, ?_, ?_, ?_⟩, h.width_eq, h.height_eq, ?_⟩
  · rw [h.width_eq]
    exact huncut.narrow
  · intro j hj
    rw [h.height_eq] at hj
    by_cases hjy : j = y
    · rw [hjy]
      exact h.tiledRow hpos hy (huncut.tiled hy)
    · refine (huncut.tiled hj).congr h.width_eq fun i hi ↦ ?_
      rw [hother ⟨hi, hj⟩ fun hin ↦ hjy hin.1]
      exact ⟨rfl, rfl⟩
  · rw [h.width_eq]
    exact huncut.right_le
  · rw [h.height_eq]
    exact huncut.bottom_le
  · intro j hj
    have hjh : j < g.height := Nat.lt_of_lt_of_le hj.2 huncut.bottom_le
    by_cases hin : j = y ∧ start ≤ a.left ∧ a.left < stop
    · refine .inl ?_
      rw [Leads, h.look_eq ⟨by omega, hjh⟩, if_pos hin]
      split
      · rfl
      · rw [if_neg (by omega)]
        rfl
    · rcases huncut.edge_left hj with hlead | hend
      · rcases Nat.lt_or_ge a.left g.width with hlt | hge
        · refine .inl ?_
          rw [Leads, hother ⟨hlt, hjh⟩ hin]
          exact hlead
        · exact .inr (h.width_eq ▸ hge)
      · exact .inr (h.width_eq ▸ hend)
  · intro j hj
    have hjh : j < g.height := Nat.lt_of_lt_of_le hj.2 huncut.bottom_le
    rcases Nat.lt_or_ge a.right g.width with hlt | hge
    · rcases huncut.edge_right hj with hlead | hend
      · refine .inl ?_
        rw [Leads, hother ⟨hlt, hjh⟩ (by omega)]
        exact hlead
      · omega
    · exact .inr (h.width_eq ▸ hge)
  · intro i j hin hout
    refine hother hin ?_
    rintro ⟨hj, hi, hi'⟩
    refine hout ?_
    rw [hj]
    exact ⟨by omega, by omega, hrow⟩

end

/-! ## Text in an area -/

/-- The columns up to `stop` are in the area, or the area reaches the end of the row. -/
def Room (a : Area) (g : RenderGrid) (stop : ℕ) : Prop := a.right = g.width ∨ stop ≤ a.right

section

variable {u : Unicode} {a : Area} {y : ℕ} {style : CellStyle} {link : Option Hyperlink}

theorem Room.mono {stop stop' : ℕ} (h : Room a g stop) (hle : stop' ≤ stop)
    (hwidth : g'.width = g.width) : Room a g' stop' := by
  rcases h with h | h
  · exact .inl (h.trans hwidth.symm)
  · exact .inr (Nat.le_trans hle h)

theorem gives_place_drew {x width : ℕ} {grapheme : List Char} (h : Uncut a g) (hpos : 0 < width)
    (hrow : a.HasRow y) (hleft : a.left ≤ x) (hfit : x + width ≤ g.width)
    (hroom : Room a g (x + width)) : Gives (g.place x y grapheme style width link) (Drew a g) := by
  have hy : y < g.height := Nat.lt_of_lt_of_le hrow.2 h.bottom_le
  refine (gives_place h.narrow hy hpos hfit).mono fun g' ⟨start, stop, hplaced⟩ ↦ ?_
  refine hplaced.drew h hpos hleft ?_ hrow
  rcases hroom with hroom | hroom
  · rw [hroom]
    exact hfit
  · exact hroom

theorem gives_putGraphemes (hrow : a.HasRow y) : ∀ {texts : List (List Char)} {x : ℕ}
    {g : RenderGrid}, Uncut a g → a.left ≤ x →
    Room a g (x + (texts.map u.graphemeWidth).sum) →
    Gives (putGraphemes u y style link texts x g) (Drew a g) := by
  intro texts
  induction texts with
  | nil => exact fun h _ _ ↦ .pure (.refl h)
  | cons text texts ih =>
    intro x g h hleft hroom
    rw [putGraphemes]
    split
    · exact .pure (.refl h)
    rw [if_neg (Nat.ne_of_gt (u.graphemeWidth_pos text))]
    split
    · exact .pure (.refl h)
    · next hin hfit =>
      have hsum : add16 x (u.graphemeWidth text) = x + u.graphemeWidth text :=
        add16_of_le h.narrow (by omega)
      rw [hsum] at hfit ⊢
      rw [List.map_cons, List.sum_cons] at hroom
      have hroom₁ : Room a g (x + u.graphemeWidth text) := hroom.mono (by omega) rfl
      refine (gives_place_drew h (u.graphemeWidth_pos text) hrow hleft (by omega) hroom₁).bind ?_
      intro g' hdrew
      refine (ih hdrew.uncut (by omega) (hroom.mono (by omega) hdrew.width_eq)).mono ?_
      exact fun g'' hdrew' ↦ hdrew.trans hdrew'

theorem gives_putStrLinked {x : ℕ} {text : List Char} (h : Uncut a g) (hrow : a.HasRow y)
    (hleft : a.left ≤ x) (hroom : Room a g (x + u.drawnWidth text)) :
    Gives (g.putStrLinked u x y text style link) (Drew a g) := by
  rw [putStrLinked]
  split
  · exact .pure (.refl h)
  · exact gives_putGraphemes hrow h hleft hroom

end

/-! ## Styles in an area -/

/-- A change of a stretch that leaves every cell in its place of a character. -/
theorem Recast.drew {a : Area} {y start stop : ℕ} {f : GridCell → GridCell}
    (h : Recast y start stop f g g') (huncut : Uncut a g) (hrow : a.HasRow y)
    (hleft : a.left ≤ start) (hright : stop ≤ a.right)
    (hf : ∀ c, (f c).continuation = c.continuation ∧ (f c).span = c.span) : Drew a g g' := by
  have hcells : ∀ {i j}, g.Contains i j →
      (g'.look i j).continuation = (g.look i j).continuation ∧
        (g'.look i j).span = (g.look i j).span := by
    intro i j hin
    rw [h.look_eq hin]
    split
    · exact hf _
    · exact ⟨rfl, rfl⟩
  have hedge : ∀ {i j}, a.HasRow j → g.Edge j i → g'.Edge j i := by
    intro i j hj hi
    rcases Nat.lt_or_ge i g.width with hlt | hge
    · rcases hi with hlead | hend
      · refine .inl ?_
        rw [Leads, (hcells ⟨hlt, Nat.lt_of_lt_of_le hj.2 huncut.bottom_le⟩).1]
        exact hlead
      · omega
    · exact .inr (h.width_eq ▸ hge)
  refine ⟨⟨?_, ?_, ?_, ?_, ?_, ?_⟩, h.width_eq, h.height_eq, ?_⟩
  · rw [h.width_eq]
    exact huncut.narrow
  · intro j hj
    rw [h.height_eq] at hj
    exact (huncut.tiled hj).congr h.width_eq fun i hi ↦ hcells ⟨hi, hj⟩
  · rw [h.width_eq]
    exact huncut.right_le
  · rw [h.height_eq]
    exact huncut.bottom_le
  · exact fun hj ↦ hedge hj (huncut.edge_left hj)
  · exact fun hj ↦ hedge hj (huncut.edge_right hj)
  · intro i j hin hout
    rw [h.look_eq hin, if_neg]
    rintro ⟨rfl, hi, hi'⟩
    exact hout ⟨by omega, by omega, hrow⟩

theorem gives_restyleRange {a : Area} {x y startCol endCol : ℕ} {restyle : CellStyle → CellStyle}
    (h : Uncut a g) (hrow : a.HasRow y ∨ g.height ≤ y) (hleft : a.left ≤ x)
    (hroom : Room a g (x + endCol)) :
    Gives (g.restyleRange x y startCol endCol restyle) (Drew a g) := by
  rw [restyleRange]
  split
  · exact .pure (.refl h)
  next hin =>
  simp only
  split
  · exact .pure (.refl h)
  next hlt =>
  have hnarrow := h.narrow
  have hrow : a.HasRow y := hrow.resolve_right (by omega)
  have hy : y < g.height := by omega
  have hstart : min (add16 x startCol) g.width = x + startCol := by
    rw [add16] at hlt ⊢
    omega
  have hend : min (add16 x endCol) g.width ≤ a.right := by
    rcases hroom with hroom | hroom
    · omega
    · rw [add16]
      omega
  rw [hstart] at hlt ⊢
  refine (gives_snapStart hy (by omega)).bind fun start hsnapped ↦ ?_
  obtain ⟨hle, -, hbefore⟩ := hsnapped
  refine (gives_snapEnd hy (by omega)).bind fun stop hsnapped ↦ ?_
  obtain ⟨hle', hstop, -, hafter⟩ := hsnapped
  refine (gives_modifyRange hy (by omega) hstop).mono fun g' hrecast ↦ ?_
  refine hrecast.drew h hrow ?_ ?_ fun _ ↦ ⟨rfl, rfl⟩
  · by_contra hcut
    rcases h.edge_left hrow with hlead | hout
    · exact hbefore a.left (by omega) (by omega) hlead
    · omega
  · by_contra hcut
    rcases h.edge_right hrow with hlead | hout
    · exact hafter a.right hend (by omega) hlead
    · omega

/-! ## Lines of a pane in an area -/

theorem width_pos_of_mem_spanCells {offset : ℕ} {text : List Char} {spans : List CellSpan}
    {cells : List LineCell} (h : spanCells offset text spans = some cells) :
    ∀ cell ∈ cells, 0 < cell.width := by
  induction spans generalizing offset text cells with
  | nil =>
    rw [spanCells] at h
    split at h
    · obtain rfl := Option.some.inj h
      exact nofun
    · exact nomatch h
  | cons span spans ih =>
    rw [spanCells] at h
    split at h
    · exact nomatch h
    obtain ⟨parts, -, h⟩ := Option.bind_eq_some_iff.mp h
    obtain ⟨rest, hrest, rfl⟩ := Option.map_eq_some_iff.mp h
    intro cell hcell
    rcases List.mem_cons.mp hcell with rfl | hcell
    · change 0 < max span.width 1
      omega
    · exact ih hrest cell hcell

theorem width_pos_of_mem_graphemeCells {u : Unicode} {texts : List (List Char)} {offset : ℕ} :
    ∀ cell ∈ graphemeCells u offset texts, 0 < cell.width := by
  induction texts generalizing offset with
  | nil => exact nofun
  | cons text texts ih =>
    intro cell hcell
    rcases List.mem_cons.mp hcell with rfl | hcell
    · exact u.graphemeWidth_pos text
    · exact ih cell hcell

theorem width_pos_of_mem_cells {u : Unicode} {line : StyledLine} {cell : LineCell}
    (h : cell ∈ line.cells u) : 0 < cell.width := by
  rw [StyledLine.cells] at h
  split at h
  · exact width_pos_of_mem_graphemeCells cell h
  rcases hspans : spanCells 0 line.text line.cellSpans with _ | cells
  · rw [hspans] at h
    exact width_pos_of_mem_graphemeCells cell h
  · rw [hspans] at h
    exact width_pos_of_mem_spanCells hspans cell h

section

variable {u : Unicode} {a : Area} {line : StyledLine} {x y : ℕ}

/-- What is drawn for blanks and for the mark of a cut line fits the columns counted for it, or the
area reaches the end of the row. -/
def Measured (u : Unicode) (a : Area) (g : RenderGrid) : Prop :=
  a.right = g.width ∨ u.Ascii

theorem Measured.room {text : List Char} {stop : ℕ} (h : Measured u a g)
    (htext : ∀ c ∈ text, Printable c) (hroom : Room a g stop) (hstop : x + text.length ≤ stop) :
    Room a g (x + u.drawnWidth text) := by
  rcases h with h | h
  · exact .inl h
  · refine hroom.mono ?_ rfl
    rw [h.drawnWidth htext]
    exact hstop

theorem gives_putLineCell {cell : LineCell} (h : Uncut a g) (hrow : a.HasRow y)
    (hleft : a.left ≤ x) (hpos : 0 < cell.width) (hmeasured : Measured u a g)
    (hroom : Room a g (x + cell.width)) : Gives (g.putLineCell u line x y cell) (Drew a g) := by
  unfold putLineCell
  simp only
  split
  · refine gives_putStrLinked h hrow hleft (hmeasured.room ?_ hroom ?_)
    · intro c hc
      rw [List.eq_of_mem_replicate hc]
      decide
    · rw [List.length_replicate]
  · split
    · next hfit =>
      have hsum := add16_of_le h.narrow hfit
      rw [hsum] at hfit
      exact gives_place_drew h hpos hrow hleft hfit hroom
    · exact .pure (.refl h)

theorem gives_putLineCells {budget : ℕ} (hrow : a.HasRow y) (hleft : a.left ≤ x)
    (hx : x ≤ 65535) : ∀ {cells : List LineCell} {column : ℕ} {g : RenderGrid},
    (∀ cell ∈ cells, 0 < cell.width) → Uncut a g → Measured u a g → Room a g (x + budget) →
    column ≤ budget → Gives (putLineCells u line x y budget cells column g)
      fun (g', column') ↦ Drew a g g' ∧ column' ≤ budget := by
  intro cells
  induction cells with
  | nil => exact fun _ h _ _ hle ↦ .pure ⟨.refl h, hle⟩
  | cons cell cells ih =>
    intro column g hpos h hmeasured hroom hle
    rw [putLineCells]
    split
    · exact .pure ⟨.refl h, hle⟩
    next hfit =>
    have hleft' : a.left ≤ add16 x column := by
      rw [add16]
      omega
    have hroom' : Room a g (add16 x column + cell.width) := by
      rcases hroom with hroom | hroom
      · exact .inl hroom
      · have hnarrow := h.narrow
        have hright := h.right_le
        refine .inr ?_
        rw [add16] at hfit ⊢
        omega
    refine (gives_putLineCell h hrow hleft' (hpos cell List.mem_cons_self) hmeasured hroom').bind ?_
    intro g' hdrew
    have hmeasured' : Measured u a g' := hmeasured.imp (·.trans hdrew.width_eq.symm) id
    refine (ih (fun c hc ↦ hpos c (List.mem_cons_of_mem _ hc)) hdrew.uncut hmeasured'
      (hroom.mono (Nat.le_refl _) hdrew.width_eq) (by omega)).mono ?_
    rintro ⟨g'', column'⟩ ⟨hdrew', hle'⟩
    exact ⟨hdrew.trans hdrew', hle'⟩

theorem gives_putSnapshotLine {width : ℕ} (h : Uncut a g) (hrow : a.HasRow y)
    (hleft : a.left ≤ x) (hmeasured : Measured u a g) (hroom : Room a g (x + width)) :
    Gives (g.putSnapshotLine u x y width line) (Drew a g) := by
  rw [putSnapshotLine]
  split
  · exact .pure (.refl h)
  next hin =>
  have hnarrow := h.narrow
  simp only
  have hbudget : (if line.width u > width then width - 1 else width) ≤ width := by
    split <;> omega
  refine (gives_putLineCells hrow hleft (by omega) (fun cell ↦ width_pos_of_mem_cells) h hmeasured
    (hroom.mono (by omega) rfl) (Nat.zero_le _)).bind ?_
  rintro ⟨g', column⟩ ⟨hdrew, hcolumn⟩
  simp only
  split
  · next htruncated =>
    rw [if_pos htruncated] at hcolumn
    have hleft' : a.left ≤ add16 x column := by
      rw [add16]
      omega
    have hmeasured' : Measured u a g' := hmeasured.imp (·.trans hdrew.width_eq.symm) id
    have hstop : add16 x column + 1 ≤ x + width := by
      rw [add16]
      omega
    have hroom' : Room a g' (add16 x column + u.drawnWidth ['~']) :=
      hmeasured'.room (List.forall_mem_singleton.mpr (by decide))
        (hroom.mono (Nat.le_refl _) hdrew.width_eq) hstop
    refine (gives_putStrLinked hdrew.uncut hrow hleft' hroom').mono ?_
    exact fun g'' hdrew' ↦ hdrew.trans hdrew'
  · exact .pure hdrew

end

end RenderGrid

end Embers.Client
