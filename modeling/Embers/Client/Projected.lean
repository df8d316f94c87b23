import Embers.Client.Strips

/-!
# Frames that do not overlap

A projection fits a rectangle when its panes, tab bars and dividers are inside it and no two of them
share a cell. The projection of a node fits the node's rectangle as long as every split that is
drawn has room for its dividers. A split that has not draws one of them just past its end, on the
divider or the bar that is there, or off the screen.
-/

namespace Embers.Client

open Protocol

namespace Projection

variable {p q : Projection} {r s v : Rect}

/-- The rectangles of panes, tab bars and dividers. -/
def rects (p : Projection) : List Rect :=
  p.leaves.map (·.rect) ++ p.tabBars.map (·.rect) ++ p.dividers.map (·.rect)

/-- The frames are inside a rectangle and apart from each other, and the children of each split that
has room for its dividers take up its length with them. -/
structure Fits (p : Projection) (v : Rect) : Prop where
  inside : ∀ r ∈ p.rects, r.Inside v
  apart : p.rects.Pairwise Rect.Apart
  lengths : ∀ s ∈ p.splits, s.childIds.length ≤ axisLength s.rect s.direction + 1 →
    s.lengths.sum + (s.childIds.length - 1) = axisLength s.rect s.direction

theorem rects_append : (p ++ q).rects.Perm (p.rects ++ q.rects) := by
  change ((p.leaves ++ q.leaves).map (·.rect) ++ (p.tabBars ++ q.tabBars).map (·.rect) ++
    (p.dividers ++ q.dividers).map (·.rect)).Perm _
  rw [rects, rects, List.map_append, List.map_append, List.map_append]
  generalize p.leaves.map (·.rect) = a
  generalize q.leaves.map (·.rect) = a'
  generalize p.tabBars.map (·.rect) = b
  generalize q.tabBars.map (·.rect) = b'
  generalize p.dividers.map (·.rect) = d
  generalize q.dividers.map (·.rect) = d'
  rw [List.perm_iff_count]
  intro x
  simp only [List.count_append]
  omega

theorem mem_rects_append : r ∈ (p ++ q).rects ↔ r ∈ p.rects ∨ r ∈ q.rects := by
  rw [rects_append.mem_iff, List.mem_append]

theorem pairwise_append : (p ++ q).rects.Pairwise Rect.Apart ↔ p.rects.Pairwise Rect.Apart ∧
    q.rects.Pairwise Rect.Apart ∧ ∀ r ∈ p.rects, ∀ s ∈ q.rects, r.Apart s := by
  rw [rects_append.pairwise_iff fun h ↦ h.symm, List.pairwise_append]

@[simp] theorem append_empty : p ++ empty = p := by
  rcases p with ⟨tabBars, leaves, dividers, splits⟩
  change append _ _ = _
  simp [append, empty]

theorem fits_empty : empty.Fits v := by
  refine ⟨nofun, .nil, nofun⟩

theorem Fits.mono (h : p.Fits r) (hr : r.Inside v) : p.Fits v :=
  ⟨fun s hs ↦ (h.inside s hs).trans hr, h.apart, h.lengths⟩

theorem Fits.append (hp : p.Fits r) (hq : q.Fits s) (hr : r.Inside v) (hs : s.Inside v)
    (hapart : r.Apart s) : (p ++ q).Fits v := by
  refine ⟨fun t ht ↦ ?_, pairwise_append.mpr ⟨hp.apart, hq.apart, ?_⟩, fun t ht ↦ ?_⟩
  · rcases mem_rects_append.mp ht with ht | ht
    · exact (hp.inside t ht).trans hr
    · exact (hq.inside t ht).trans hs
  · exact fun t ht t' ht' ↦ hapart.mono (hp.inside t ht) (hq.inside t' ht')
  · rcases List.mem_append.mp ht with ht | ht
    · exact hp.lengths t ht
    · exact hq.lengths t ht

/-- A single frame fits its own rectangle. -/
theorem fits_single (hrects : p.rects = [r]) (hsplits : p.splits = []) : p.Fits r := by
  refine ⟨fun s hs ↦ ?_, ?_, ?_⟩
  · rw [hrects, List.mem_singleton] at hs
    rw [hs]
    exact .refl
  · rw [hrects]
    exact List.pairwise_singleton _ _
  · rw [hsplits]
    exact nofun

/-- The frame of a split adds no rectangle. -/
theorem Fits.addSplit {frame : SplitFrame} (h : p.Fits v)
    (hlengths : frame.childIds.length ≤ axisLength frame.rect frame.direction + 1 →
      frame.lengths.sum + (frame.childIds.length - 1) = axisLength frame.rect frame.direction) :
    (⟨[], [], [], [frame]⟩ ++ p : Projection).Fits v := by
  refine ⟨h.inside, h.apart, fun s hs ↦ ?_⟩
  rcases List.mem_cons.mp hs with rfl | hs
  · exact hlengths
  · exact h.lengths s hs

end Projection

/-! ## Bars and titles -/

theorem insetTop_ok {rect : Rect} {amount : ℕ} (h : OnScreen rect) :
    insetTop rect amount = .ok { rect with
      y := rect.y + (min amount rect.height : ℕ)
      height := rect.height - min amount rect.height } := by
  obtain ⟨hl, hr, ht, hb⟩ := h
  have hadd : addI32 rect.y (min amount rect.height : ℕ) =
      .ok (rect.y + (min amount rect.height : ℕ)) := by
    rw [addI32_eq_ok]
    omega
  change (addI32 rect.y (min amount rect.height : ℕ) >>= _) = _
  rw [hadd]
  rfl

theorem addI32_bottom {rect : Rect} {n : ℕ} (h : OnScreen rect) (hn : n ≤ rect.height) :
    addI32 rect.y n = .ok (rect.y + n) := by
  obtain ⟨hl, hr, ht, hb⟩ := h
  rw [addI32_eq_ok]
  omega

theorem splitTitleRow_ok {rect : Rect} {titles : PaneTitles} (h : OnScreen rect) :
    ∃ rects, splitTitleRow rect titles = .ok rects := by
  rcases titles with _ | _ | _
  · exact ⟨_, rfl⟩
  · rw [splitTitleRow, insetTop_ok h]
    exact ⟨_, rfl⟩
  · have hadd := addI32_bottom h (Nat.sub_le rect.height 1)
    change ∃ rects, (addI32 rect.y (rect.height - 1 : ℕ) >>= _) = .ok rects
    rw [hadd]
    exact ⟨_, rfl⟩

/-- A cell just past a rectangle, on the right or below. -/
def Rect.Past (r : Rect) (x y : ℤ) : Prop :=
  (x = r.x + r.width ∧ r.y ≤ y ∧ y < r.y + r.height) ∨
    (y = r.y + r.height ∧ r.x ≤ x ∧ x < r.x + r.width)

/-- The bar and the rest of a tabs node's rectangle are apart, and past the rest there is the bar or
what is past the rectangle. -/
structure SplitBar (rect bar content : Rect) : Prop where
  bar_inside : bar.Inside rect
  content_inside : content.Inside rect
  apart : bar.Apart content
  past : ∀ {x y}, content.Past x y → bar.Cell x y ∨ rect.Past x y

theorem splitBar_bottom {rect : Rect} {rows : ℕ} (hrows : rows ≤ 1) (hheight : rect.height ≠ 0) :
    SplitBar rect ⟨rect.x, rect.y + (rect.height - rows : ℕ), rect.width, rows⟩
      ⟨rect.x, rect.y, rect.width, rect.height - rows⟩ := by
  refine ⟨⟨Int.le_refl _, Int.le_refl _, ?_, ?_⟩,
    ⟨Int.le_refl _, Int.le_refl _, Int.le_refl _, ?_⟩, ?_, ?_⟩
  · simp only; omega
  · simp only; omega
  · simp only; omega
  · rintro x y ⟨⟨h1, h2, h3, h4⟩, h5, h6, h7, h8⟩
    simp only at h3 h4 h7 h8
    omega
  · rintro x y (⟨hx, h1, h2⟩ | ⟨hy, h1, h2⟩)
    · simp only at hx h1 h2
      exact .inr (.inl ⟨hx, h1, by omega⟩)
    · simp only at hy h1 h2
      rcases Nat.eq_zero_or_pos rows with hzero | hpos
      · exact .inr (.inr ⟨by omega, h1, h2⟩)
      · exact .inl ⟨h1, h2, by simp only; omega, by simp only; omega⟩

theorem splitBar_top {rect : Rect} {rows : ℕ} (hrows : rows ≤ 1) (hheight : rect.height ≠ 0) :
    SplitBar rect ⟨rect.x, rect.y, rect.width, rows⟩
      ⟨rect.x, rect.y + rows, rect.width, rect.height - rows⟩ := by
  refine ⟨⟨Int.le_refl _, Int.le_refl _, Int.le_refl _, ?_⟩,
    ⟨Int.le_refl _, Int.le_refl _, ?_, ?_⟩, ?_, ?_⟩
  · simp only; omega
  · simp only; omega
  · simp only; omega
  · rintro x y ⟨⟨h1, h2, h3, h4⟩, h5, h6, h7, h8⟩
    simp only at h3 h4 h7 h8
    omega
  · rintro x y (⟨hx, h1, h2⟩ | ⟨hy, h1, h2⟩)
    · simp only at hx h1 h2
      exact .inr (.inl ⟨hx, by omega, by omega⟩)
    · simp only at hy h1 h2
      exact .inr (.inr ⟨by omega, h1, h2⟩)

theorem splitTabBar_ok {rect : Rect} {tabBar : RootTabBar} {rootBar : Bool} (h : OnScreen rect)
    (hheight : rect.height ≠ 0) :
    ∃ bar content, splitTabBar rect tabBar rootBar = .ok (bar, content) ∧
      SplitBar rect bar content := by
  let rows := if !rootBar ∨ tabBar.visible then 1 else 0
  have hrows : rows ≤ 1 := by
    simp only [rows]
    split <;> omega
  rw [splitTabBar]
  simp only
  split
  · have hadd := addI32_bottom h (Nat.sub_le rect.height rows)
    refine ⟨_, _, ?_, splitBar_bottom hrows hheight⟩
    change (addI32 rect.y (rect.height - rows : ℕ) >>= _) = _
    rw [hadd]
    rfl
  · have hmin : min rows rect.height = rows := by omega
    have hinset : insetTop rect rows = _ := insetTop_ok h
    rw [hmin] at hinset
    refine ⟨_, _, ?_, splitBar_top hrows hheight⟩
    change (insetTop rect rows >>= _) = _
    rw [hinset]
    rfl

/-! ## Splits -/

theorem dividerRectFor_ok {rect : Rect} {direction : SplitDirection} {a length index count : ℕ}
    (h : OnScreen rect) (hle : a + length ≤ 2 ^ 30) (hlast : index + 1 ≠ count) :
    dividerRectFor direction (rect.strip direction a length) index count =
      .ok (some (rect.strip direction (a + length) 1)) := by
  obtain ⟨hl, hr, ht, hb⟩ := h
  unfold dividerRectFor
  rw [if_neg hlast]
  rcases direction with _ | _
  · have hadd : addI32 (rect.y + a) length = .ok (rect.y + (a + length : ℕ)) := by
      rw [addI32_eq_ok]
      push_cast
      omega
    change (addI32 (rect.y + a) length >>= _) = _
    rw [hadd]
    rfl
  · have hadd : addI32 (rect.x + a) length = .ok (rect.x + (a + length : ℕ)) := by
      rw [addI32_eq_ok]
      push_cast
      omega
    change (addI32 (rect.x + a) length >>= _) = _
    rw [hadd]
    rfl

theorem inside_of_mem_childStrips {rect r : Rect} {direction : SplitDirection} :
    ∀ {lengths : List ℕ} {a : ℕ}, r ∈ childStrips rect direction lengths a →
      a + lengths.sum + (lengths.length - 1) ≤ axisLength rect direction → r.Inside rect := by
  intro lengths
  induction lengths with
  | nil => exact nofun
  | cons length lengths ih =>
    intro a hr hroom
    rw [List.sum_cons, List.length_cons] at hroom
    rcases List.mem_cons.mp hr with rfl | hr
    · exact Rect.strip_inside (by omega)
    · refine ih hr ?_
      rcases lengths with _ | ⟨length', lengths⟩
      · exact nomatch hr
      · rw [List.length_cons] at hroom ⊢
        omega

/-- Children whose own projections fit their strips, with the dividers between them. -/
theorem projectChildren_fits {project : NodeId → Rect → Answer ProjectError Projection}
    {rect : Rect} {direction : SplitDirection} {splitNodeId : NodeId} {count : ℕ}
    (hscreen : OnScreen rect) : ∀ {lengths : List ℕ} {children : List NodeId} {index a : ℕ},
      children.length = lengths.length → index + lengths.length = count →
      a + lengths.sum + (lengths.length - 1) ≤ axisLength rect direction →
      (∀ child ∈ children.zip (childStrips rect direction lengths a),
        ∃ p, project child.1 child.2 = .ok p ∧ p.Fits child.2) →
      ∃ p, projectChildren project direction splitNodeId count index
        (children.zip (childStrips rect direction lengths a)) = .ok p ∧
          p.Fits (rect.strip direction a (axisLength rect direction - a)) := by
  intro lengths
  induction lengths with
  | nil =>
    intro children index a hlength _ _ _
    obtain rfl := List.eq_nil_of_length_eq_zero hlength
    exact ⟨.empty, rfl, Projection.fits_empty⟩
  | cons length lengths ih =>
    intro children index a hlength hindex hroom hproject
    rcases children with _ | ⟨child, children⟩
    · exact nomatch hlength
    rw [List.sum_cons, List.length_cons] at hroom
    have haxis := hscreen.axisLength_lt direction
    obtain ⟨p, hp, hfits⟩ := hproject _ List.mem_cons_self
    have hstrip : (rect.strip direction a length).Inside
        (rect.strip direction a (axisLength rect direction - a)) :=
      Rect.strip_inside_strip (Nat.le_refl a) (by omega)
    rcases lengths with _ | ⟨length', lengths⟩
    · obtain rfl := List.eq_nil_of_length_eq_zero (Nat.succ.inj hlength)
      have hdivider : dividerRectFor direction (rect.strip direction a length) index count =
          .ok none := if_pos hindex
      refine ⟨p, ?_, hfits.mono hstrip⟩
      change (project child (rect.strip direction a length) >>= _) = _
      rw [hp, Answer.bind_ok, hdivider, Answer.bind_ok]
      change Except.ok (p ++ Projection.empty ++ Projection.empty) = _
      rw [Projection.append_empty, Projection.append_empty]
    · simp only [List.length_cons] at hindex hroom
      let divider : DividerFrame :=
        ⟨direction, rect.strip direction (a + length) 1, splitNodeId, index⟩
      let rest := children.zip (childStrips rect direction (length' :: lengths) (a + length + 1))
      have hdivider : dividerRectFor direction (rect.strip direction a length) index count =
          .ok (some divider.rect) := dividerRectFor_ok hscreen (by omega) (by omega)
      have hindex' : index + 1 + (length' :: lengths).length = count := by
        rw [List.length_cons]
        omega
      have hroom' : a + length + 1 + (length' :: lengths).sum + ((length' :: lengths).length - 1) ≤
          axisLength rect direction := by
        rw [List.length_cons]
        omega
      obtain ⟨q, hq, hqfits⟩ := ih (Nat.succ.inj hlength) hindex' hroom'
        fun child hchild ↦ hproject child (List.mem_cons_of_mem _ hchild)
      have hd : (⟨[], [], [divider], []⟩ : Projection).Fits (rect.strip direction (a + length) 1) :=
        Projection.fits_single rfl rfl
      have hpd : (p ++ ⟨[], [], [divider], []⟩).Fits (rect.strip direction a (length + 1)) :=
        hfits.append hd (Rect.strip_inside_strip (Nat.le_refl a) (by omega))
          (Rect.strip_inside_strip (by omega) (by omega)) (Rect.strip_apart (Nat.le_refl _))
      refine ⟨p ++ ⟨[], [], [divider], []⟩ ++ q, ?_, ?_⟩
      · change (project child (rect.strip direction a length) >>= _) = _
        rw [hp, Answer.bind_ok, hdivider, Answer.bind_ok]
        change (projectChildren project direction splitNodeId count (index + 1) rest >>= _) = _
        rw [hq]
        rfl
      · exact hpd.append hqfits (Rect.strip_inside_strip (Nat.le_refl a) (by omega))
          (Rect.strip_inside_strip (by omega) (by omega)) (Rect.strip_apart (Nat.le_refl _))

/-! ## Trees -/

/-- A cached tree: finite, with every node's content at hand. -/
inductive Grown (c : ClientState) : NodeId → Prop where
  | view {id : NodeId} {node : NodeRecord} {view : BufferViewRecord} {buffer : Protocol.BufferRecord}
      (hnode : c.nodes[id]? = some node) (hkind : node.kind = .bufferView)
      (hview : node.bufferView = some view) (hbuffer : c.buffers[view.bufferId]? = some buffer) :
      Grown c id
  | tabs {id : NodeId} {node : NodeRecord} {tabs : TabsRecord}
      (hnode : c.nodes[id]? = some node) (hkind : node.kind = .tabs)
      (htabs : node.tabs = some tabs) (hactive : tabs.active.toNat < tabs.tabs.length)
      (hchildren : ∀ tab ∈ tabs.tabs, Grown c tab.childId) : Grown c id
  | split {id : NodeId} {node : NodeRecord} {split : SplitRecord}
      (hnode : c.nodes[id]? = some node) (hkind : node.kind = .split)
      (hsplit : node.split = some split) (hchildren : ∀ child ∈ split.childIds, Grown c child) :
      Grown c id

/-- Among the nodes that are drawn when one is drawn in a rectangle there is a split with more
dividers than it has cells along its axis. -/
inductive Crowded (c : ClientState) (layout : LayoutOptions) : NodeId → Rect → Bool → Prop where
  | here {id : NodeId} {node : NodeRecord} {split : SplitRecord} {rect : Rect} {isRoot : Bool}
      (hwidth : rect.width ≠ 0) (hheight : rect.height ≠ 0) (hnode : c.nodes[id]? = some node)
      (hkind : node.kind = .split) (hsplit : node.split = some split)
      (hcrowded : axisLength rect split.direction + 1 < split.childIds.length) :
      Crowded c layout id rect isRoot
  | tab {id : NodeId} {node : NodeRecord} {tabs : TabsRecord} {tab : TabRecord}
      {rect bar content : Rect} {isRoot : Bool}
      (hwidth : rect.width ≠ 0) (hheight : rect.height ≠ 0) (hnode : c.nodes[id]? = some node)
      (hkind : node.kind = .tabs) (htabs : node.tabs = some tabs)
      (hactive : tabs.tabs[tabs.active.toNat]? = some tab)
      (hbar : splitTabBar rect layout.tabBar isRoot = .ok (bar, content))
      (hcrowded : Crowded c layout tab.childId content false) : Crowded c layout id rect isRoot
  | child {id : NodeId} {node : NodeRecord} {split : SplitRecord} {rect : Rect} {rects : List Rect}
      {child : NodeId × Rect} {isRoot : Bool}
      (hwidth : rect.width ≠ 0) (hheight : rect.height ≠ 0) (hnode : c.nodes[id]? = some node)
      (hkind : node.kind = .split) (hsplit : node.split = some split)
      (hrects : splitRects rect split.direction split.sizes split.childIds.length = .ok rects)
      (hchild : child ∈ split.childIds.zip rects)
      (hcrowded : Crowded c layout child.1 child.2 false) : Crowded c layout id rect isRoot

end Embers.Client
