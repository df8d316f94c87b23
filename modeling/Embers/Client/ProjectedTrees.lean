import Embers.Client.Projected
import Embers.Client.ResyncTables

/-!
# Projections of whole trees

By induction over a cached tree, its projection on a screen fits the screen exactly when every split
that is drawn has room for its dividers.
-/

namespace Embers.Client

open Protocol

section

variable {c : ClientState} {focused : Option NodeId} {layout : LayoutOptions} {fuel : ℕ}
  {id : NodeId} {node : NodeRecord} {rect : Rect} {isRoot : Bool}

/-! ## One node -/

theorem projectNode_empty (h : rect.width = 0 ∨ rect.height = 0) :
    projectNode c focused layout (fuel + 1) id rect isRoot = .ok .empty := by
  rw [projectNode, if_pos h]
  rfl

theorem projectNode_view {view : BufferViewRecord} {buffer : Protocol.BufferRecord}
    (hrect : ¬ (rect.width = 0 ∨ rect.height = 0)) (hnode : c.nodes[id]? = some node)
    (hkind : node.kind = .bufferView) (hview : node.bufferView = some view)
    (hbuffer : c.buffers[view.bufferId]? = some buffer) {titleRect : Option Rect}
    {contentRect : Rect} (htitle : splitTitleRow rect layout.paneTitles = .ok (titleRect, contentRect)) :
    projectNode c focused layout (fuel + 1) id rect isRoot =
      .ok ⟨[], [⟨node.id, buffer.id, rect, contentRect, titleRect, buffer.title, buffer.activity,
        focused = some node.id⟩], [], []⟩ := by
  rw [projectNode, if_neg hrect, hnode]
  simp only [Answer.ofOption_some, Answer.bind_ok, hkind, hview, hbuffer, htitle]
  rfl

/-- The bar of a tabs node, drawn before its active tab. -/
def barFrame (c : ClientState) (fuel : ℕ) (node : NodeRecord) (tabs : TabsRecord) (bar : Rect)
    (isRoot : Bool) : TabsFrame :=
  ⟨node.id, bar, tabs.tabs.mapIdx fun index tab ↦
    ⟨tab.title, tab.childId, index = tabs.active.toNat, subtreeActivity c fuel tab.childId,
      tab.synchronizePanes⟩, tabs.active.toNat, isRoot⟩

theorem projectNode_tabs {tabs : TabsRecord} {tab : TabRecord} {bar content : Rect}
    (hrect : ¬ (rect.width = 0 ∨ rect.height = 0)) (hnode : c.nodes[id]? = some node)
    (hkind : node.kind = .tabs) (htabs : node.tabs = some tabs)
    (hactive : tabs.tabs[tabs.active.toNat]? = some tab)
    (hbar : splitTabBar rect layout.tabBar isRoot = .ok (bar, content)) :
    projectNode c focused layout (fuel + 1) id rect isRoot =
      (projectNode c focused layout fuel tab.childId content false >>= fun p ↦
        pure (⟨[barFrame c fuel node tabs bar isRoot], [], [], []⟩ ++ p)) := by
  rw [projectNode, if_neg hrect, hnode]
  simp only [Answer.ofOption_some, Answer.bind_ok, hkind, htabs, hactive, hbar]
  rfl

theorem projectNode_split {split : SplitRecord}
    (hrect : ¬ (rect.width = 0 ∨ rect.height = 0)) (hnode : c.nodes[id]? = some node)
    (hkind : node.kind = .split) (hsplit : node.split = some split)
    (hchildren : split.childIds ≠ []) :
    projectNode c focused layout (fuel + 1) id rect isRoot =
      (splitRects rect split.direction split.sizes split.childIds.length >>= fun rects ↦
        projectChildren (fun child rect ↦ projectNode c focused layout fuel child rect false)
          split.direction node.id split.childIds.length 0 (split.childIds.zip rects) >>= fun p ↦
            pure (⟨[], [], [], [⟨node.id, split.direction, rect, split.childIds,
              rects.map (axisLength · split.direction)⟩]⟩ ++ p)) := by
  rw [projectNode, if_neg hrect, hnode]
  simp only [Answer.ofOption_some, Answer.bind_ok, hkind, hsplit, if_neg hchildren]

theorem projectNode_split_nil {split : SplitRecord}
    (hrect : ¬ (rect.width = 0 ∨ rect.height = 0)) (hnode : c.nodes[id]? = some node)
    (hkind : node.kind = .split) (hsplit : node.split = some split)
    (hchildren : split.childIds = []) :
    projectNode c focused layout (fuel + 1) id rect isRoot = .ok .empty := by
  rw [projectNode, if_neg hrect, hnode]
  simp only [Answer.ofOption_some, Answer.bind_ok, hkind, hsplit, if_pos hchildren]
  rfl

end

/-! ## With room for the dividers -/

/-- From some fuel on, the projection of the node succeeds and fits its rectangle. -/
def ProjectsInto (c : ClientState) (focused : Option NodeId) (layout : LayoutOptions) (id : NodeId)
    (rect : Rect) (isRoot : Bool) : Prop :=
  ∃ n, ∀ fuel ≥ n, ∃ p, projectNode c focused layout fuel id rect isRoot = .ok p ∧ p.Fits rect

section

variable {c : ClientState} {focused : Option NodeId} {layout : LayoutOptions}

theorem lengths_childStrips {rect : Rect} {direction : SplitDirection} {lengths : List ℕ} :
    ∀ {a : ℕ}, (childStrips rect direction lengths a).map (axisLength · direction) = lengths := by
  induction lengths with
  | nil => exact rfl
  | cons length lengths ih =>
    intro a
    rw [childStrips, List.map_cons, ih, Rect.axisLength_strip]

theorem length_childStrips {rect : Rect} {direction : SplitDirection} {lengths : List ℕ} {a : ℕ} :
    (childStrips rect direction lengths a).length = lengths.length := by
  rw [← List.length_map (f := (axisLength · direction)), lengths_childStrips]

/-- A fuel for all of finitely many computations. -/
theorem exists_fuel {α : Type} {P : α → ℕ → Prop} :
    ∀ {l : List α}, (∀ a ∈ l, ∃ n, ∀ m ≥ n, P a m) → ∃ n, ∀ m ≥ n, ∀ a ∈ l, P a m := by
  intro l
  induction l with
  | nil => exact fun _ ↦ ⟨0, fun _ _ ↦ nofun⟩
  | cons a l ih =>
    intro h
    obtain ⟨n, hn⟩ := h a List.mem_cons_self
    obtain ⟨n', hn'⟩ := ih fun a' ha' ↦ h a' (List.mem_cons_of_mem _ ha')
    refine ⟨max n n', fun m hm a' ha' ↦ ?_⟩
    rcases List.mem_cons.mp ha' with rfl | ha'
    · exact hn m (by omega)
    · exact hn' m (by omega) a' ha'

theorem projectsInto_empty {id : NodeId} {rect : Rect} {isRoot : Bool}
    (h : ∀ fuel, projectNode c focused layout (fuel + 1) id rect isRoot = .ok .empty) :
    ProjectsInto c focused layout id rect isRoot := by
  refine ⟨1, fun fuel hfuel ↦ ?_⟩
  obtain ⟨fuel, rfl⟩ : ∃ k, fuel = k + 1 := ⟨fuel - 1, by omega⟩
  exact ⟨_, h fuel, Projection.fits_empty⟩

theorem Grown.projectsInto {id : NodeId} (h : Grown c id) : ∀ {rect : Rect} {isRoot : Bool},
    OnScreen rect → ¬ Crowded c layout id rect isRoot →
      ProjectsInto c focused layout id rect isRoot := by
  induction h with
  | view hnode hkind hview hbuffer =>
    intro rect isRoot hscreen _
    refine ⟨1, fun fuel hfuel ↦ ?_⟩
    obtain ⟨fuel, rfl⟩ : ∃ k, fuel = k + 1 := ⟨fuel - 1, by omega⟩
    by_cases hrect : rect.width = 0 ∨ rect.height = 0
    · exact ⟨_, projectNode_empty hrect, Projection.fits_empty⟩
    · obtain ⟨⟨titleRect, contentRect⟩, htitle⟩ : ∃ rects, splitTitleRow rect layout.paneTitles =
          .ok rects := splitTitleRow_ok hscreen
      exact ⟨_, projectNode_view hrect hnode hkind hview hbuffer htitle,
        Projection.fits_single rfl rfl⟩
  | @tabs id node tabs hnode hkind htabs hactive _ ih =>
    intro rect isRoot hscreen hcrowded
    by_cases hrect : rect.width = 0 ∨ rect.height = 0
    · exact projectsInto_empty fun fuel ↦ projectNode_empty hrect
    obtain ⟨hwidth, hheight⟩ := not_or.mp hrect
    have htab : tabs.tabs[tabs.active.toNat]? = some (tabs.tabs[tabs.active.toNat]) :=
      List.getElem?_eq_getElem hactive
    obtain ⟨bar, content, hbar, hsplit⟩ : ∃ bar content, splitTabBar rect layout.tabBar isRoot =
        .ok (bar, content) ∧ SplitBar rect bar content := splitTabBar_ok hscreen hheight
    obtain ⟨n, hn⟩ := ih _ (List.getElem_mem hactive) (hscreen.of_inside hsplit.content_inside)
      fun hchild ↦ hcrowded (.tab hwidth hheight hnode hkind htabs htab hbar hchild)
    refine ⟨n + 1, fun fuel hfuel ↦ ?_⟩
    obtain ⟨fuel, rfl⟩ : ∃ k, fuel = k + 1 := ⟨fuel - 1, by omega⟩
    obtain ⟨p, hp, hfits⟩ := hn fuel (by omega)
    have hframe : (⟨[barFrame c fuel node tabs bar isRoot], [], [], []⟩ : Projection).Fits bar :=
      Projection.fits_single rfl rfl
    refine ⟨_, ?_, hframe.append hfits hsplit.bar_inside hsplit.content_inside hsplit.apart⟩
    rw [projectNode_tabs hrect hnode hkind htabs htab hbar, hp]
    rfl
  | @split id node split hnode hkind hsplit _ ih =>
    intro rect isRoot hscreen hcrowded
    by_cases hrect : rect.width = 0 ∨ rect.height = 0
    · exact projectsInto_empty fun fuel ↦ projectNode_empty hrect
    by_cases hchildren : split.childIds = []
    · exact projectsInto_empty fun fuel ↦ projectNode_split_nil hrect hnode hkind hsplit hchildren
    obtain ⟨hwidth, hheight⟩ := not_or.mp hrect
    have hcount : split.childIds.length ≠ 0 := fun h ↦ hchildren (List.eq_nil_of_length_eq_zero h)
    have hroom : split.childIds.length ≤ axisLength rect split.direction + 1 := by
      by_contra hlt
      exact hcrowded (.here hwidth hheight hnode hkind hsplit (by omega))
    have haxis := hscreen.axisLength_lt split.direction
    obtain ⟨rects, hrects⟩ : ∃ rects, splitRects rect split.direction split.sizes
        split.childIds.length = .ok rects := splitRects_ok hscreen hcount hroom
    obtain ⟨lengths, hlengths, hstrips⟩ := splitRects_eq_ok hscreen hcount hrects
    have hlength := hlengths.length
    have hsum := hlengths.sum
    have hfill : 0 + lengths.sum + (lengths.length - 1) ≤ axisLength rect split.direction := by omega
    have hinto : ∀ child ∈ split.childIds.zip rects,
        ProjectsInto c focused layout child.1 child.2 false := by
      intro child hchild
      have hrect' : child.2 ∈ childStrips rect split.direction lengths 0 := by
        rw [← hstrips]
        exact (List.of_mem_zip hchild).2
      have hinside := inside_of_mem_childStrips hrect' hfill
      refine ih child.1 (List.of_mem_zip hchild).1 (hscreen.of_inside hinside) fun h ↦ ?_
      exact hcrowded (.child hwidth hheight hnode hkind hsplit hrects hchild h)
    obtain ⟨n, hn⟩ := exists_fuel hinto
    refine ⟨n + 1, fun fuel hfuel ↦ ?_⟩
    obtain ⟨fuel, rfl⟩ : ∃ k, fuel = k + 1 := ⟨fuel - 1, by omega⟩
    rw [hstrips] at hn
    let project : NodeId → Rect → Answer ProjectError Projection :=
      fun child rect ↦ projectNode c focused layout fuel child rect false
    obtain ⟨p, hp, hfits⟩ : ∃ p, projectChildren project split.direction node.id lengths.length 0
        (split.childIds.zip (childStrips rect split.direction lengths 0)) = .ok p ∧
          p.Fits (rect.strip split.direction 0 (axisLength rect split.direction - 0)) :=
      projectChildren_fits hscreen hlength.symm (Nat.zero_add _) hfill (hn fuel (by omega))
    have hwhole : (rect.strip split.direction 0 (axisLength rect split.direction - 0)).Inside rect :=
      Rect.strip_inside (by omega)
    let frame : SplitFrame := ⟨node.id, split.direction, rect, split.childIds,
      rects.map (axisLength · split.direction)⟩
    refine ⟨⟨[], [], [], [frame]⟩ ++ p, ?_, (hfits.mono hwhole).addSplit fun _ ↦ ?_⟩
    · rw [projectNode_split hrect hnode hkind hsplit hchildren, hrects, Answer.bind_ok]
      change (projectChildren project _ _ _ _ _ >>= _) = _
      rw [← hstrips, hlength] at hp
      rw [hp]
      rfl
    · change (rects.map (axisLength · split.direction)).sum + (split.childIds.length - 1) =
        axisLength rect split.direction
      rw [hstrips, lengths_childStrips]
      omega

/-! ## Without room for the dividers -/

/-- A frame reaches just past a rectangle. -/
def Projection.Escapes (p : Projection) (rect : Rect) : Prop :=
  ∃ r ∈ p.rects, ∃ x y, r.Cell x y ∧ rect.Past x y

theorem dividerRectFor_eq_ok {rect : Rect} {direction : SplitDirection} {a length index count : ℕ}
    {divider : Option Rect} (hlast : index + 1 ≠ count)
    (h : dividerRectFor direction (rect.strip direction a length) index count = .ok divider) :
    divider = some (rect.strip direction (a + length) 1) := by
  unfold dividerRectFor at h
  rw [if_neg hlast] at h
  rcases direction with _ | _
  · obtain ⟨y, hy, h⟩ := Answer.ok_bind h
    obtain ⟨-, rfl⟩ := addI32_eq_ok.mp hy
    rw [← Except.ok.inj h]
    simp only [Rect.strip, Nat.cast_add, Int.add_assoc]
  · obtain ⟨x, hx, h⟩ := Answer.ok_bind h
    obtain ⟨-, rfl⟩ := addI32_eq_ok.mp hx
    rw [← Except.ok.inj h]
    simp only [Rect.strip, Nat.cast_add, Int.add_assoc]

/-- What is projected for one of the children of a split, at `a` and with some length, among what is
projected for all. -/
structure ChildOf (project : NodeId → Rect → Answer ProjectError Projection) (rect : Rect)
    (direction : SplitDirection) (child : NodeId) (a length : ℕ) (last : Prop) (q : Projection) :
    Prop where
  frames : ∃ p, project child (rect.strip direction a length) = .ok p ∧ (∀ r ∈ p.rects, r ∈ q.rects) ∧
    (q.rects.Pairwise Rect.Apart → p.rects.Pairwise Rect.Apart ∧
      (¬ last → ∀ r ∈ p.rects, r.Apart (rect.strip direction (a + length) 1)))
  divider : ¬ last → rect.strip direction (a + length) 1 ∈ q.rects

theorem projectChildren_childOf {project : NodeId → Rect → Answer ProjectError Projection}
    {rect : Rect} {direction : SplitDirection} {splitNodeId : NodeId} {count : ℕ} :
    ∀ {before after : List ℕ} {children : List NodeId} {length index a : ℕ} {child : NodeId}
      {q : Projection}, children.length = (before ++ length :: after).length →
      index + (before ++ length :: after).length = count → children[before.length]? = some child →
      projectChildren project direction splitNodeId count index
        (children.zip (childStrips rect direction (before ++ length :: after) a)) = .ok q →
      ChildOf project rect direction child (a + before.sum + before.length) length (after = []) q := by
  intro before
  induction before with
  | nil =>
    intro after children length index a child q hlength hindex hchild h
    rcases children with _ | ⟨child', children⟩
    · exact nomatch hchild
    obtain rfl : child' = child := Option.some.inj hchild
    obtain ⟨p, hp, h⟩ := Answer.ok_bind h
    obtain ⟨divider, hdivider, h⟩ := Answer.ok_bind h
    obtain ⟨others, hothers, h⟩ := Answer.ok_bind h
    obtain rfl := Except.ok.inj h
    have hdivider' : ¬ after = [] → divider = some (rect.strip direction (a + length) 1) := by
      intro hafter
      refine dividerRectFor_eq_ok ?_ hdivider
      have := List.length_pos_iff.mpr hafter
      simp only [List.nil_append, List.length_cons] at hindex
      omega
    have hsum : a + ([] : List ℕ).sum + ([] : List ℕ).length = a := rfl
    rw [hsum]
    refine ⟨⟨p, hp, fun r hr ↦ ?_, fun hpairwise ↦ ?_⟩, fun hafter ↦ ?_⟩
    · exact Projection.mem_rects_append.mpr (.inl (Projection.mem_rects_append.mpr (.inl hr)))
    · obtain ⟨hpd, -, -⟩ := Projection.pairwise_append.mp hpairwise
      obtain ⟨hpp, -, hcross⟩ := Projection.pairwise_append.mp hpd
      refine ⟨hpp, fun hafter r hr ↦ hcross r hr _ ?_⟩
      rw [hdivider' hafter]
      exact List.mem_singleton_self _
    · refine Projection.mem_rects_append.mpr (.inl (Projection.mem_rects_append.mpr (.inr ?_)))
      rw [hdivider' hafter]
      exact List.mem_singleton_self _
  | cons length' before ih =>
    intro after children length index a child q hlength hindex hchild h
    rcases children with _ | ⟨child', children⟩
    · exact nomatch hchild
    obtain ⟨p, -, h⟩ := Answer.ok_bind h
    obtain ⟨divider, -, h⟩ := Answer.ok_bind h
    obtain ⟨others, hothers, h⟩ := Answer.ok_bind h
    obtain rfl := Except.ok.inj h
    have hindex' : index + 1 + (before ++ length :: after).length = count := by
      rw [List.cons_append, List.length_cons] at hindex
      omega
    obtain ⟨⟨pc, hpc, hmem, hpairwise⟩, hdivider⟩ :=
      ih (Nat.succ.inj hlength) hindex' hchild hothers
    have ha : a + length' + 1 + before.sum + before.length =
        a + (length' :: before).sum + (length' :: before).length := by
      rw [List.sum_cons, List.length_cons]
      omega
    rw [ha] at hpc hpairwise hdivider
    refine ⟨⟨pc, hpc, fun r hr ↦ ?_, fun hq ↦ ?_⟩, fun hafter ↦ ?_⟩
    · exact Projection.mem_rects_append.mpr (.inr (hmem r hr))
    · exact hpairwise (Projection.pairwise_append.mp hq).2.1
    · exact Projection.mem_rects_append.mpr (.inr (hdivider hafter))

/-- Past a strip there is the next cell along the axis, or what is past the rectangle. -/
theorem Rect.past_strip {rect : Rect} {direction : SplitDirection} {a n : ℕ} {x y : ℤ}
    (hle : a + n ≤ axisLength rect direction) (h : (rect.strip direction a n).Past x y) :
    (rect.strip direction (a + n) 1).Cell x y ∨ rect.Past x y := by
  rcases direction with _ | _
  · change a + n ≤ rect.height at hle
    rcases h with ⟨hx, h1, h2⟩ | ⟨hy, h1, h2⟩
    · simp only [Rect.strip] at hx h1 h2
      exact .inr (.inl ⟨hx, by omega, by omega⟩)
    · simp only [Rect.strip] at hy h1 h2
      exact .inl ⟨h1, h2, by simp only [Rect.strip]; omega, by simp only [Rect.strip]; omega⟩
  · change a + n ≤ rect.width at hle
    rcases h with ⟨hx, h1, h2⟩ | ⟨hy, h1, h2⟩
    · simp only [Rect.strip] at hx h1 h2
      exact .inl ⟨by simp only [Rect.strip]; omega, by simp only [Rect.strip]; omega, h1, h2⟩
    · simp only [Rect.strip] at hy h1 h2
      exact .inr (.inr ⟨hy, by omega, by omega⟩)

/-- The strip after the last cell is past the rectangle. -/
theorem Rect.past_of_cell_strip {rect : Rect} {direction : SplitDirection} {x y : ℤ}
    (h : (rect.strip direction (axisLength rect direction) 1).Cell x y) : rect.Past x y := by
  obtain ⟨h1, h2, h3, h4⟩ := h
  rcases direction with _ | _
  · simp only [Rect.strip, axisLength] at h1 h2 h3 h4
    exact .inr ⟨by omega, h1, h2⟩
  · simp only [Rect.strip, axisLength] at h1 h2 h3 h4
    exact .inl ⟨by omega, h3, h4⟩

theorem Rect.exists_cell_strip {rect : Rect} {direction : SplitDirection} {a : ℕ}
    (hwidth : rect.width ≠ 0) (hheight : rect.height ≠ 0) :
    ∃ x y, (rect.strip direction a 1).Cell x y := by
  rcases direction with _ | _
  · refine ⟨rect.x, rect.y + a, ?_⟩
    simp only [Rect.strip, Rect.Cell]
    omega
  · refine ⟨rect.x + a, rect.y, ?_⟩
    simp only [Rect.strip, Rect.Cell]
    omega

/-- The children of a split with too many dividers have no length, and the divider after as many
children as there are cells is past the end. -/
theorem escapes_of_crowded {node : NodeRecord} {split : SplitRecord} {rect : Rect} {q : Projection}
    {rects : List Rect} {project : NodeId → Rect → Answer ProjectError Projection}
    (hwidth : rect.width ≠ 0) (hheight : rect.height ≠ 0) (hscreen : OnScreen rect)
    (hcrowded : axisLength rect split.direction + 1 < split.childIds.length)
    (hrects : splitRects rect split.direction split.sizes split.childIds.length = .ok rects)
    (hq : projectChildren project split.direction node.id split.childIds.length 0
      (split.childIds.zip rects) = .ok q) : q.Escapes rect := by
  obtain ⟨lengths, hlengths, rfl⟩ := splitRects_eq_ok hscreen (by omega) hrects
  have haxis := hscreen.axisLength_lt split.direction
  have hlength := hlengths.length
  have hsum := hlengths.sum
  let axis := axisLength rect split.direction
  let rest := List.replicate (split.childIds.length - axis - 1) 0
  have hzeros : lengths = List.replicate axis 0 ++ 0 :: rest := by
    have hall : ∀ l ∈ lengths, l = 0 := List.sum_eq_zero_iff_forall_eq_nat.mp (by omega)
    rw [List.eq_replicate_of_mem hall, hlength, ← List.replicate_succ,
      List.replicate_append_replicate]
    congr 1
    omega
  have hrest : rest ≠ [] := by
    rw [← List.length_pos_iff, List.length_replicate]
    omega
  rw [hzeros] at hq hlength
  obtain ⟨child, hchild⟩ : ∃ child, split.childIds[(List.replicate axis 0).length]? = some child := by
    rw [List.length_replicate]
    exact ⟨_, List.getElem?_eq_getElem (by omega)⟩
  have hof := projectChildren_childOf hlength.symm (by rw [hlength, Nat.zero_add]) hchild hq
  obtain ⟨x, y, hcell⟩ : ∃ x y, (rect.strip split.direction axis 1).Cell x y :=
    Rect.exists_cell_strip hwidth hheight
  have hoffset : 0 + (List.replicate axis 0).sum + (List.replicate axis 0).length + 0 = axis := by
    simp
  have hmem := hof.divider hrest
  rw [hoffset] at hmem
  exact ⟨_, hmem, x, y, hcell, Rect.past_of_cell_strip hcell⟩

/-- A child of a split, with what comes before and after it. -/
theorem exists_of_mem_zip_childStrips {rect : Rect} {direction : SplitDirection}
    {child : NodeId × Rect} : ∀ {lengths : List ℕ} {children : List NodeId} {a : ℕ},
      child ∈ children.zip (childStrips rect direction lengths a) →
      ∃ before length after, lengths = before ++ length :: after ∧
        children[before.length]? = some child.1 ∧
          child.2 = rect.strip direction (a + before.sum + before.length) length := by
  intro lengths
  induction lengths with
  | nil =>
    intro children a h
    rw [childStrips, List.zip_nil_right] at h
    cases h
  | cons length lengths ih =>
    intro children a h
    rcases children with _ | ⟨id, children⟩
    · cases h
    rcases List.mem_cons.mp h with rfl | h
    · exact ⟨[], length, lengths, rfl, rfl, rfl⟩
    · obtain ⟨before, length', after, hlengths, hchild, hrect⟩ := ih h
      refine ⟨length :: before, length', after, by rw [hlengths]; rfl, hchild, hrect.trans ?_⟩
      rw [List.sum_cons, List.length_cons]
      congr 1
      omega

theorem Crowded.escapes {id : NodeId} {rect : Rect} {isRoot : Bool}
    (h : Crowded c layout id rect isRoot) : OnScreen rect → ∀ {fuel : ℕ} {p : Projection},
      projectNode c focused layout fuel id rect isRoot = .ok p →
        p.Escapes rect ∨ ¬ p.rects.Pairwise Rect.Apart := by
  induction h with
  | here hwidth hheight hnode hkind hsplit hcrowded =>
    intro hscreen fuel p hp
    rcases fuel with _ | fuel
    · exact nomatch hp
    rw [projectNode_split (not_or.mpr ⟨hwidth, hheight⟩) hnode hkind hsplit
      (List.ne_nil_of_length_pos (by omega))] at hp
    obtain ⟨rects, hrects, hp⟩ := Answer.ok_bind hp
    obtain ⟨q, hq, hp⟩ := Answer.ok_bind hp
    obtain rfl := Except.ok.inj hp
    have hescapes : q.Escapes _ := escapes_of_crowded hwidth hheight hscreen hcrowded hrects hq
    exact .inl hescapes
  | tab hwidth hheight hnode hkind htabs hactive hbar _ ih =>
    intro hscreen fuel p hp
    rcases fuel with _ | fuel
    · exact nomatch hp
    obtain ⟨bar', content', hbar', hparts⟩ := splitTabBar_ok hscreen hheight
    obtain ⟨rfl, rfl⟩ := Prod.mk.inj (Except.ok.inj (hbar'.symm.trans hbar))
    rw [projectNode_tabs (not_or.mpr ⟨hwidth, hheight⟩) hnode hkind htabs hactive hbar] at hp
    obtain ⟨q, hq, hp⟩ := Answer.ok_bind hp
    obtain rfl := Except.ok.inj hp
    rcases ih (hscreen.of_inside hparts.content_inside) hq with ⟨r, hr, x, y, hcell, hpast⟩ | hoverlap
    · rcases hparts.past hpast with hbarcell | hpast
      · -- The frame is on the bar below.
        refine .inr fun hpairwise ↦ ?_
        obtain ⟨-, -, hcross⟩ := Projection.pairwise_append.mp hpairwise
        exact hcross _ (List.mem_singleton_self _) r hr x y ⟨hbarcell, hcell⟩
      · exact .inl ⟨r, Projection.mem_rects_append.mpr (.inr hr), x, y, hcell, hpast⟩
    · exact .inr fun hpairwise ↦ hoverlap (Projection.pairwise_append.mp hpairwise).2.1
  | @child id node split rect rects child isRoot hwidth hheight hnode hkind hsplit hrects hchild _ ih =>
    intro hscreen fuel p hp
    rcases fuel with _ | fuel
    · exact nomatch hp
    have hchildren : split.childIds ≠ [] := by
      rintro hnil
      rw [hnil] at hchild
      exact nomatch hchild
    have hcount : split.childIds.length ≠ 0 := fun h ↦ hchildren (List.eq_nil_of_length_eq_zero h)
    rw [projectNode_split (not_or.mpr ⟨hwidth, hheight⟩) hnode hkind hsplit hchildren, hrects,
      Answer.bind_ok] at hp
    obtain ⟨q, hq, hp⟩ := Answer.ok_bind hp
    obtain rfl := Except.ok.inj hp
    rcases Nat.lt_or_ge (axisLength rect split.direction + 1) split.childIds.length with hlt | hroom
    · have hescapes : q.Escapes rect := escapes_of_crowded hwidth hheight hscreen hlt hrects hq
      exact .inl hescapes
    obtain ⟨lengths, hlengths, rfl⟩ := splitRects_eq_ok hscreen hcount hrects
    obtain ⟨before, length, after, hparts, hat, hrect⟩ := exists_of_mem_zip_childStrips hchild
    have haxis := hscreen.axisLength_lt split.direction
    have hlength := hlengths.length
    have hsum := hlengths.sum
    have hfill : 0 + lengths.sum + (lengths.length - 1) = axisLength rect split.direction := by omega
    have hinside : child.2.Inside rect :=
      inside_of_mem_childStrips (List.of_mem_zip hchild).2 (Nat.le_of_eq hfill)
    rw [hparts] at hq hlength hfill
    simp only [List.sum_append, List.sum_cons, List.length_append, List.length_cons] at hfill
    obtain ⟨⟨pc, hpc, hmem, hpairwise⟩, hdivider⟩ :=
      projectChildren_childOf hlength.symm (by rw [hlength, Nat.zero_add]) hat hq
    rw [← hrect] at hpc
    rcases ih (hscreen.of_inside hinside) hpc with ⟨r, hr, x, y, hcell, hpast⟩ | hoverlap
    · have hle : 0 + before.sum + before.length + length ≤ axisLength rect split.direction := by omega
      rw [hrect] at hpast
      rcases Rect.past_strip hle hpast with hnext | hpast
      · by_cases hafter : after = []
        · -- The last child ends where the split does.
          have hend : 0 + before.sum + before.length + length = axisLength rect split.direction := by
            rw [hafter] at hfill
            simp only [List.sum_nil, List.length_nil] at hfill
            omega
          rw [hend] at hnext
          exact .inl ⟨r, hmem r hr, x, y, hcell, Rect.past_of_cell_strip hnext⟩
        · -- The frame is on the divider after the child.
          exact .inr fun h ↦ (hpairwise h).2 hafter r hr x y ⟨hcell, hnext⟩
      · exact .inl ⟨r, hmem r hr, x, y, hcell, hpast⟩
    · exact .inr fun h ↦ hoverlap (hpairwise h).1

end

theorem onScreen_viewportRect (viewport : Size) : OnScreen (viewportRect viewport) := by
  have hwidth := viewport.width.toNat_lt
  have hheight := viewport.height.toNat_lt
  refine ⟨?_, ?_, ?_, ?_⟩ <;> simp only [viewportRect] <;> omega

theorem Projection.Fits.not_escapes {p : Projection} {rect : Rect} (h : p.Fits rect) :
    ¬ (p.Escapes rect ∨ ¬ p.rects.Pairwise Rect.Apart) := by
  rintro (⟨r, hr, x, y, hcell, hpast⟩ | hoverlap)
  · have hin := (h.inside r hr).cell hcell
    rcases hpast with ⟨hx, -⟩ | ⟨hy, -⟩
    · have := hin.2.1
      omega
    · have := hin.2.2.2
      omega
  · exact hoverlap h.apart

/-- The projection of a cached tree on a viewport, with any options: it succeeds without an overflow
and its frames fit the viewport exactly when every split that is drawn has room for its dividers. -/
theorem projectsInto_viewport_iff {c : ClientState} {id : NodeId} (h : Grown c id)
    (focused : Option NodeId) (layout : LayoutOptions) (viewport : Size) (isRoot : Bool) :
    ProjectsInto c focused layout id (viewportRect viewport) isRoot ↔
      ¬ Crowded c layout id (viewportRect viewport) isRoot := by
  have hscreen := onScreen_viewportRect viewport
  constructor
  · rintro ⟨n, hn⟩ hcrowded
    obtain ⟨p, hp, hfits⟩ := hn n (Nat.le_refl n)
    exact hfits.not_escapes (hcrowded.escapes hscreen hp)
  · exact h.projectsInto hscreen

/-! ### Three panes below each other -/

/-- A pane of the split. -/
def stackedPane (id : NodeId) (bufferId : BufferId) : NodeRecord :=
  ⟨id, 1, some 2, .bufferView, some ⟨bufferId, false, false, true, .new 80 24⟩, none, none, some id⟩

/-- A session with one tab, split into three panes below each other. -/
def stackedClient : ClientState :=
  { ClientState.empty with
    buffers := Table.insertAll (·.id) ∅ [shell 1 3, shell 2 4, shell 3 5]
    nodes := Table.insertAll (·.id) ∅
      [⟨1, 1, none, .tabs, none, none, some ⟨0, [⟨"shell", 2, false⟩]⟩, some 3⟩,
        ⟨2, 1, some 1, .split, none, some ⟨.horizontal, [3, 4, 5], [1, 1, 1]⟩, none, some 3⟩,
        stackedPane 3 1, stackedPane 4 2, stackedPane 5 3] }

/-- The tab bar above, and no pane titles. -/
def plainLayout : LayoutOptions := ⟨⟨.top, true⟩, .off⟩

theorem grown_stackedClient : Grown stackedClient 1 := by
  have hsplit : Grown stackedClient 2 := by
    refine .split rfl rfl rfl fun child hchild ↦ ?_
    rcases hchild with _ | ⟨_, _ | ⟨_, _ | ⟨_, ⟨⟩⟩⟩⟩
    · exact .view rfl rfl rfl rfl
    · exact .view rfl rfl rfl rfl
    · exact .view rfl rfl rfl rfl
  refine .tabs rfl rfl rfl Nat.zero_lt_one fun tab htab ↦ ?_
  rw [List.mem_singleton.mp htab]
  exact hsplit

theorem crowded_stackedClient :
    Crowded stackedClient plainLayout 1 (viewportRect ⟨80, 2⟩) true := by
  refine .tab (by decide) (by decide) rfl rfl rfl rfl rfl ?_
  exact .here (by decide) (by decide) rfl rfl rfl (by decide)

/-- On a screen of two rows, one of them the tab bar, the second divider is below the last row. -/
theorem second_divider_escapes :
    Grown stackedClient 1 ∧
      ¬ ProjectsInto stackedClient none plainLayout 1 (viewportRect ⟨80, 2⟩) true := by
  refine ⟨grown_stackedClient, ?_⟩
  rintro ⟨n, hn⟩
  obtain ⟨p, hp, hfits⟩ := hn n (Nat.le_refl n)
  have hescapes := crowded_stackedClient.escapes (onScreen_viewportRect _) hp
  exact hfits.not_escapes hescapes

/-- A pane has no dividers. -/
theorem not_crowded_of_view {c : ClientState} {layout : LayoutOptions} {id : NodeId}
    {node : NodeRecord} {rect : Rect} {isRoot : Bool} (hnode : c.nodes[id]? = some node)
    (hkind : node.kind = .bufferView) : ¬ Crowded c layout id rect isRoot := by
  intro h
  rcases h with ⟨_, _, hnode', hkind', _, _⟩ | ⟨_, _, hnode', hkind', _, _, _, _⟩ |
    ⟨_, _, hnode', hkind', _, _, _, _⟩
  all_goals
    obtain rfl := Option.some.inj (hnode.symm.trans hnode')
    rw [hkind] at hkind'
    exact nomatch hkind'

theorem not_crowded_stackedClient :
    ¬ Crowded stackedClient plainLayout 1 (viewportRect ⟨80, 24⟩) true := by
  rintro (⟨-, -, hnode, hkind, -, -⟩ | ⟨-, -, hnode, -, htabs, hactive, hbar, hcrowded⟩ |
    ⟨-, -, hnode, hkind, -, -, -, -⟩)
  · obtain rfl := Option.some.inj hnode
    exact nomatch hkind
  · obtain rfl := Option.some.inj hnode
    obtain rfl := Option.some.inj htabs
    obtain rfl := Option.some.inj hactive
    obtain ⟨-, rfl⟩ := Prod.mk.inj (Except.ok.inj hbar)
    rcases hcrowded with ⟨-, -, hnode, -, hsplit, hlt⟩ | ⟨-, -, hnode, hkind, -, -, -, -⟩ |
      ⟨-, -, hnode, -, hsplit, hrects, hchild, hcrowded⟩
    · obtain rfl := Option.some.inj hnode
      obtain rfl := Option.some.inj hsplit
      exact absurd hlt (by decide)
    · obtain rfl := Option.some.inj hnode
      exact nomatch hkind
    · obtain rfl := Option.some.inj hnode
      obtain rfl := Option.some.inj hsplit
      obtain rfl := Except.ok.inj hrects
      rcases hchild with _ | ⟨_, _ | ⟨_, _ | ⟨_, ⟨⟩⟩⟩⟩
      · exact not_crowded_of_view rfl rfl hcrowded
      · exact not_crowded_of_view rfl rfl hcrowded
      · exact not_crowded_of_view rfl rfl hcrowded
  · obtain rfl := Option.some.inj hnode
    exact nomatch hkind

/-- On a screen with rows enough for the panes, all frames are on the screen. -/
theorem stackedClient_projectsInto :
    ProjectsInto stackedClient none plainLayout 1 (viewportRect ⟨80, 24⟩) true :=
  (projectsInto_viewport_iff grown_stackedClient none plainLayout ⟨80, 24⟩ true).mpr
    not_crowded_stackedClient

end Embers.Client
