import Embers.Client.ProjectedTrees

/-!
# Panes and bars on the screen

Only dividers leave the screen: whatever its sizes, a projection has its panes and tab bars inside
the rectangle that it is for, because a split without room for its dividers leaves no cells to its
children.
-/

namespace Embers.Client

open Protocol

/-- The panes and tab bars of a projection are inside a rectangle, a bar has at most one row, and a
pane's rectangle is split into its title and its content. -/
structure FramesIn (p : Projection) (rect : Rect) : Prop where
  bars : ∀ bar ∈ p.tabBars, bar.rect.Inside rect ∧ bar.rect.height ≤ 1
  leaves : ∀ leaf ∈ p.leaves, leaf.rect.Inside rect ∧
    ∃ titles, splitTitleRow leaf.rect titles = .ok (leaf.titleRect, leaf.contentRect)

namespace FramesIn

variable {p q : Projection} {r s : Rect}

theorem mono (h : FramesIn p r) (hr : r.Inside s) : FramesIn p s :=
  ⟨fun bar hbar ↦ ⟨(h.bars bar hbar).1.trans hr, (h.bars bar hbar).2⟩,
    fun leaf hleaf ↦ ⟨(h.leaves leaf hleaf).1.trans hr, (h.leaves leaf hleaf).2⟩⟩

theorem append (hp : FramesIn p r) (hq : FramesIn q r) : FramesIn (p ++ q) r := by
  constructor
  · intro bar hbar
    rcases List.mem_append.mp hbar with hbar | hbar
    · exact hp.bars bar hbar
    · exact hq.bars bar hbar
  · intro leaf hleaf
    rcases List.mem_append.mp hleaf with hleaf | hleaf
    · exact hp.leaves leaf hleaf
    · exact hq.leaves leaf hleaf

/-- Without panes and bars. -/
theorem of_none (hbars : p.tabBars = []) (hleaves : p.leaves = []) : FramesIn p r := by
  constructor
  · intro bar hbar
    rw [hbars] at hbar
    exact nomatch hbar
  · intro leaf hleaf
    rw [hleaves] at hleaf
    exact nomatch hleaf

end FramesIn

section

variable {c : ClientState} {focused : Option NodeId} {layout : LayoutOptions}

theorem splitTabBar_flat {rect bar content : Rect} {tabBar : RootTabBar} {rootBar : Bool}
    (h : splitTabBar rect tabBar rootBar = .ok (bar, content)) : bar.height ≤ 1 := by
  have hrows : (if !rootBar ∨ tabBar.visible then 1 else 0) ≤ 1 := by
    split <;> omega
  rw [splitTabBar] at h
  simp only at h
  split at h
  · obtain ⟨y, -, hbar⟩ := Answer.ok_bind h
    obtain ⟨rfl, -⟩ := Prod.mk.inj (Except.ok.inj hbar)
    exact hrows
  · obtain ⟨content', -, hbar⟩ := Answer.ok_bind h
    obtain ⟨rfl, -⟩ := Prod.mk.inj (Except.ok.inj hbar)
    exact hrows

theorem framesIn_projectChildren {project : NodeId → Rect → Answer ProjectError Projection}
    {direction : SplitDirection} {splitNodeId : NodeId} {childCount : ℕ} {rect : Rect} :
    ∀ {children : List (NodeId × Rect)} {index : ℕ} {q : Projection},
      (∀ child ∈ children, ∀ p, project child.1 child.2 = .ok p → FramesIn p rect) →
      projectChildren project direction splitNodeId childCount index children = .ok q →
      FramesIn q rect := by
  intro children
  induction children with
  | nil =>
    intro index q _ h
    obtain rfl := Except.ok.inj h
    exact .of_none rfl rfl
  | cons child children ih =>
    intro index q hchildren h
    obtain ⟨p, hp, h⟩ := Answer.ok_bind h
    obtain ⟨divider, -, h⟩ := Answer.ok_bind h
    obtain ⟨others, hothers, h⟩ := Answer.ok_bind h
    obtain rfl := Except.ok.inj h
    refine .append (.append (hchildren child List.mem_cons_self p hp) (.of_none rfl rfl)) ?_
    exact ih (fun child' hchild' ↦ hchildren child' (List.mem_cons_of_mem _ hchild')) hothers

/-- The children of a split are inside it, or without cells. -/
theorem inside_or_empty_of_splitRects {rect r : Rect} {direction : SplitDirection}
    {sizes : List UInt16} {childCount : ℕ} {rects : List Rect} (hscreen : OnScreen rect)
    (h : splitRects rect direction sizes childCount = .ok rects) (hr : r ∈ rects) :
    r.Inside rect ∨ r.width = 0 ∨ r.height = 0 := by
  rcases eq_or_ne childCount 0 with hzero | hcount
  · rw [splitRects, if_pos hzero] at h
    obtain rfl := Except.ok.inj h
    cases hr
  obtain ⟨lengths, hlengths, rfl⟩ := splitRects_eq_ok hscreen hcount h
  have haxis := hscreen.axisLength_lt direction
  have hlength := hlengths.length
  have hsum := hlengths.sum
  rcases Nat.lt_or_ge (axisLength rect direction + 1) childCount with hcrowded | hroom
  · -- Nothing is left for the children.
    have hzeros : ∀ l ∈ lengths, l = 0 := List.sum_eq_zero_iff_forall_eq_nat.mp (by omega)
    have hempty : axisLength r direction = 0 := by
      refine hzeros _ ?_
      have hmem : axisLength r direction ∈ (childStrips rect direction lengths 0).map
          (axisLength · direction) := List.mem_map.mpr ⟨r, hr, rfl⟩
      rw [lengths_childStrips] at hmem
      exact hmem
    rcases direction with _ | _
    · exact .inr (.inr hempty)
    · exact .inr (.inl hempty)
  · have hfill : 0 + lengths.sum + (lengths.length - 1) ≤ axisLength rect direction := by omega
    exact .inl (inside_of_mem_childStrips hr hfill)

theorem framesIn_projectNode : ∀ {fuel : ℕ} {id : NodeId} {rect : Rect} {isRoot : Bool}
    {p : Projection}, OnScreen rect →
    projectNode c focused layout fuel id rect isRoot = .ok p → FramesIn p rect := by
  intro fuel
  induction fuel with
  | zero =>
    intro id area isRoot p _ h
    cases h
  | succ fuel ih =>
    intro id rect isRoot p hscreen h
    by_cases hempty : rect.width = 0 ∨ rect.height = 0
    · rw [projectNode_empty hempty] at h
      obtain rfl := Except.ok.inj h
      exact .of_none rfl rfl
    rw [projectNode, if_neg hempty] at h
    obtain ⟨node, -, h⟩ := Answer.ok_bind h
    rcases hkind : node.kind with _ | _ | _
    · simp only [hkind] at h
      obtain ⟨view, -, h⟩ := Answer.ok_bind h
      obtain ⟨buffer, -, h⟩ := Answer.ok_bind h
      obtain ⟨⟨titleRect, contentRect⟩, htitle, h⟩ := Answer.ok_bind h
      obtain rfl := Except.ok.inj h
      refine ⟨fun bar hbar ↦ (List.not_mem_nil hbar).elim, fun leaf hleaf ↦ ?_⟩
      obtain rfl := List.mem_singleton.mp hleaf
      exact ⟨.refl, layout.paneTitles, htitle⟩
    · simp only [hkind] at h
      obtain ⟨split, -, h⟩ := Answer.ok_bind h
      split at h
      · obtain rfl := Except.ok.inj h
        exact .of_none rfl rfl
      obtain ⟨rects, hrects, h⟩ := Answer.ok_bind h
      obtain ⟨q, hq, h⟩ := Answer.ok_bind h
      obtain rfl := Except.ok.inj h
      refine .append (.of_none rfl rfl) (framesIn_projectChildren (fun child hchild p hp ↦ ?_) hq)
      rcases inside_or_empty_of_splitRects hscreen hrects (List.of_mem_zip hchild).2 with hin | hno
      · exact (ih (hscreen.of_inside hin) hp).mono hin
      · rcases fuel with _ | fuel
        · cases hp
        rw [projectNode_empty hno] at hp
        obtain rfl := Except.ok.inj hp
        exact .of_none rfl rfl
    · simp only [hkind] at h
      obtain ⟨tabs, -, h⟩ := Answer.ok_bind h
      obtain ⟨active, -, h⟩ := Answer.ok_bind h
      obtain ⟨⟨bar, content⟩, hsplit, h⟩ := Answer.ok_bind h
      obtain ⟨q, hq, h⟩ := Answer.ok_bind h
      obtain rfl := Except.ok.inj h
      obtain ⟨bar', content', hok, hparts⟩ := splitTabBar_ok hscreen (not_or.mp hempty).2
      obtain ⟨rfl, rfl⟩ := Prod.mk.inj (Except.ok.inj (hok.symm.trans hsplit))
      have hcontent := ih (hscreen.of_inside hparts.content_inside) hq
      refine .append ⟨fun frame hframe ↦ ?_, fun leaf hleaf ↦ (List.not_mem_nil hleaf).elim⟩
        (hcontent.mono hparts.content_inside)
      obtain rfl := List.mem_singleton.mp hframe
      exact ⟨hparts.bar_inside, splitTabBar_flat hsplit⟩

end

end Embers.Client
