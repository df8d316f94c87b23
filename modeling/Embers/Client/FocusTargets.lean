import Embers.Client.ProjectedTrees
import Embers.Client.Screens

/-!
# Moving the focus

From a pane the focus moves to the nearest other pane of its layer that lies wholly on one side of
it: first by the gap between the two, then by how far apart their centres are across the direction,
then along it. Nothing asks for the panes to be next to each other, so a pane of another row can be
nearer than the one beside.
-/

namespace Embers.Client

open Protocol

inductive NavigationDirection where
  | left
  | right
  | up
  | down
  deriving DecidableEq, Repr

/-- How far a pane is: the gap, then the distance of the centres across and along. -/
abbrev FocusScore := ℕ ×ₗ ℕ ×ₗ ℕ

def rectCenter (rect : Rect) : ℤ × ℤ := (rect.x + (rect.width / 2 : ℕ), rect.y + (rect.height / 2 : ℕ))

/-- How far a pane on a side of the focused one is. -/
def directionScore (focused candidate : Rect) (direction : NavigationDirection) :
    Option FocusScore :=
  let dx := ((rectCenter focused).1 - (rectCenter candidate).1).natAbs
  let dy := ((rectCenter focused).2 - (rectCenter candidate).2).natAbs
  match direction with
  | .left =>
    if candidate.x + candidate.width > focused.x then none
    else some (toLex ((focused.x - (candidate.x + candidate.width)).toNat, toLex (dy, dx)))
  | .right =>
    if candidate.x < focused.x + focused.width then none
    else some (toLex ((candidate.x - (focused.x + focused.width)).toNat, toLex (dy, dx)))
  | .up =>
    if candidate.y + candidate.height > focused.y then none
    else some (toLex ((focused.y - (candidate.y + candidate.height)).toNat, toLex (dx, dy)))
  | .down =>
    if candidate.y < focused.y + focused.height then none
    else some (toLex ((candidate.y - (focused.y + focused.height)).toNat, toLex (dx, dy)))

namespace PresentationModel

/-- The pane the focus moves to from a pane. -/
def focusTargetFrom (m : PresentationModel) (nodeId : NodeId) (direction : NavigationDirection) :
    Option NodeId := do
  let focused ← m.leaves.find? (·.2.nodeId = nodeId)
  let candidates := m.leaves.filter fun candidate ↦
    candidate.2.nodeId ≠ focused.2.nodeId ∧ candidate.1 = focused.1
  let scored := candidates.filterMap fun candidate ↦
    (directionScore focused.2.rect candidate.2.rect direction).map fun score ↦
      (score, candidate.2.nodeId)
  (scored.argmin (·.1)).map (·.2)

end PresentationModel

/-! ## Sides -/

/-- The cells between two panes, the second on a side of the first; none where it is not. -/
def gap (direction : NavigationDirection) (focused candidate : Rect) : ℤ :=
  match direction with
  | .left => focused.x - (candidate.x + candidate.width)
  | .right => candidate.x - (focused.x + focused.width)
  | .up => focused.y - (candidate.y + candidate.height)
  | .down => candidate.y - (focused.y + focused.height)

/-- The pane lies wholly on a side of the focused one. -/
def Beyond (direction : NavigationDirection) (focused candidate : Rect) : Prop :=
  0 ≤ gap direction focused candidate

/-- The panes have a row or a column across the direction in common. -/
def Abreast (direction : NavigationDirection) (focused candidate : Rect) : Prop :=
  match direction with
  | .left | .right =>
    focused.y < candidate.y + candidate.height ∧ candidate.y < focused.y + focused.height
  | .up | .down =>
    focused.x < candidate.x + candidate.width ∧ candidate.x < focused.x + focused.width

/-- The pane borders the focused one: only a divider is between them. -/
def Borders (direction : NavigationDirection) (focused candidate : Rect) : Prop :=
  gap direction focused candidate = 1 ∧ Abreast direction focused candidate

/-- The distance of the centres across the direction, then along it. -/
def offCenter (direction : NavigationDirection) (focused candidate : Rect) : ℕ ×ₗ ℕ :=
  let dx := ((rectCenter focused).1 - (rectCenter candidate).1).natAbs
  let dy := ((rectCenter focused).2 - (rectCenter candidate).2).natAbs
  match direction with
  | .left | .right => toLex (dy, dx)
  | .up | .down => toLex (dx, dy)

/-- How far a pane is. -/
def farness (direction : NavigationDirection) (focused candidate : Rect) : FocusScore :=
  toLex ((gap direction focused candidate).toNat, offCenter direction focused candidate)

instance (direction : NavigationDirection) (focused candidate : Rect) :
    Decidable (Beyond direction focused candidate) :=
  inferInstanceAs (Decidable (_ ≤ _))

theorem directionScore_eq (focused candidate : Rect) (direction : NavigationDirection) :
    directionScore focused candidate direction =
      if Beyond direction focused candidate then some (farness direction focused candidate)
      else none := by
  cases direction with
  | left =>
    by_cases h : candidate.x + candidate.width > focused.x
    · have hgap : ¬ Beyond .left focused candidate := by simp only [Beyond, gap]; omega
      rw [if_neg hgap]
      exact if_pos h
    · have hgap : Beyond .left focused candidate := by simp only [Beyond, gap]; omega
      rw [if_pos hgap]
      exact if_neg h
  | right =>
    by_cases h : candidate.x < focused.x + focused.width
    · have hgap : ¬ Beyond .right focused candidate := by simp only [Beyond, gap]; omega
      rw [if_neg hgap]
      exact if_pos h
    · have hgap : Beyond .right focused candidate := by simp only [Beyond, gap]; omega
      rw [if_pos hgap]
      exact if_neg h
  | up =>
    by_cases h : candidate.y + candidate.height > focused.y
    · have hgap : ¬ Beyond .up focused candidate := by simp only [Beyond, gap]; omega
      rw [if_neg hgap]
      exact if_pos h
    · have hgap : Beyond .up focused candidate := by simp only [Beyond, gap]; omega
      rw [if_pos hgap]
      exact if_neg h
  | down =>
    by_cases h : candidate.y < focused.y + focused.height
    · have hgap : ¬ Beyond .down focused candidate := by simp only [Beyond, gap]; omega
      rw [if_neg hgap]
      exact if_pos h
    · have hgap : Beyond .down focused candidate := by simp only [Beyond, gap]; omega
      rw [if_pos hgap]
      exact if_neg h

/-! ## The nearest pane -/

/-- The first of the least elements: what is before it is greater, and what is after it no less. -/
theorem exists_split_of_argmin {α β : Type*} [LinearOrder β] {f : α → β} {l : List α} {m : α}
    (h : l.argmin f = some m) :
    ∃ before after, l = before ++ m :: after ∧ (∀ a ∈ before, f m < f a) ∧
      ∀ a ∈ after, f m ≤ f a := by
  induction l generalizing m with
  | nil => cases h
  | cons b l ih =>
    rw [List.argmin_cons] at h
    cases hrest : l.argmin f with
    | none =>
      rw [hrest] at h
      obtain rfl := Option.some.inj h
      obtain rfl := List.argmin_eq_none.1 hrest
      exact ⟨[], [], rfl, by simp, by simp⟩
    | some c =>
      rw [hrest] at h
      dsimp only at h
      by_cases hlt : f c < f b
      · rw [if_pos hlt] at h
        obtain rfl := Option.some.inj h
        obtain ⟨before, after, rfl, hbefore, hafter⟩ := ih hrest
        refine ⟨b :: before, after, rfl, ?_, hafter⟩
        rw [List.forall_mem_cons]
        exact ⟨hlt, hbefore⟩
      · rw [if_neg hlt] at h
        obtain rfl := Option.some.inj h
        refine ⟨[], l, rfl, by simp, fun a ha ↦ ?_⟩
        exact (not_lt.1 hlt).trans (List.le_of_mem_argmin ha hrest)

/-- A pane the focus could move to: another one of the layer, on that side. -/
def FocusCandidate (direction : NavigationDirection) (focused leaf : Option FloatingId × LeafFrame) :
    Prop :=
  leaf.2.nodeId ≠ focused.2.nodeId ∧ leaf.1 = focused.1 ∧
    Beyond direction focused.2.rect leaf.2.rect

instance (direction : NavigationDirection) (focused leaf : Option FloatingId × LeafFrame) :
    Decidable (FocusCandidate direction focused leaf) :=
  inferInstanceAs (Decidable (_ ∧ _))

/-- Of the panes the focus could move to, this one is the nearest, and the first of those. -/
structure Nearest (leaves : List (Option FloatingId × LeafFrame)) (direction : NavigationDirection)
    (focused leaf : Option FloatingId × LeafFrame) : Prop where
  reachable : FocusCandidate direction focused leaf
  first : ∃ before after, leaves = before ++ leaf :: after ∧
    (∀ other ∈ before, FocusCandidate direction focused other →
      farness direction focused.2.rect leaf.2.rect < farness direction focused.2.rect other.2.rect) ∧
    ∀ other ∈ after, FocusCandidate direction focused other →
      farness direction focused.2.rect leaf.2.rect ≤ farness direction focused.2.rect other.2.rect

namespace PresentationModel

variable {m : PresentationModel} {nodeId : NodeId} {direction : NavigationDirection}
  {focused : Option FloatingId × LeafFrame}

/-- What the focus can move to, with how far it is. -/
def scored (m : PresentationModel) (direction : NavigationDirection)
    (focused : Option FloatingId × LeafFrame) : List (FocusScore × NodeId) :=
  m.leaves.filterMap fun leaf ↦
    if FocusCandidate direction focused leaf then
      some (farness direction focused.2.rect leaf.2.rect, leaf.2.nodeId)
    else none

theorem focusTargetFrom_eq (h : m.leaves.find? (·.2.nodeId = nodeId) = some focused) :
    m.focusTargetFrom nodeId direction = ((m.scored direction focused).argmin (·.1)).map (·.2) := by
  have hscored : (m.leaves.filter fun leaf ↦
      leaf.2.nodeId ≠ focused.2.nodeId ∧ leaf.1 = focused.1).filterMap (fun leaf ↦
        (directionScore focused.2.rect leaf.2.rect direction).map fun score ↦
          (score, leaf.2.nodeId)) = m.scored direction focused := by
    rw [List.filterMap_filter, scored]
    refine List.filterMap_congr fun leaf _ ↦ ?_
    rw [directionScore_eq]
    by_cases hother : leaf.2.nodeId ≠ focused.2.nodeId ∧ leaf.1 = focused.1
    · by_cases hbeyond : Beyond direction focused.2.rect leaf.2.rect
      · simp [FocusCandidate, hother.1, hother.2, hbeyond]
      · simp [FocusCandidate, hbeyond]
    · have hnot : ¬ FocusCandidate direction focused leaf := fun h ↦ hother ⟨h.1, h.2.1⟩
      simp only [hnot, hother, decide_false, if_false, Bool.false_eq_true]
  rw [focusTargetFrom, h]
  simp only [Option.bind_eq_bind, Option.bind_some, hscored]

theorem scored_eq_nil_iff :
    m.scored direction focused = [] ↔ ∀ leaf ∈ m.leaves, ¬ FocusCandidate direction focused leaf := by
  rw [scored, List.filterMap_eq_nil_iff]
  refine forall₂_congr fun leaf _ ↦ ?_
  by_cases h : FocusCandidate direction focused leaf <;> simp [h]

/-- A part of the panes that is scored. -/
theorem exists_nearest {target : FocusScore × NodeId}
    (h : (m.scored direction focused).argmin (·.1) = some target) :
    ∃ leaf, leaf.2.nodeId = target.2 ∧ Nearest m.leaves direction focused leaf := by
  obtain ⟨xs, ys, hsplit, hxs, hys⟩ := exists_split_of_argmin h
  obtain ⟨before, fromLeaf, hleaves, rfl, hfrom⟩ := List.filterMap_eq_append_iff.1 hsplit
  obtain ⟨skipped, leaf, after, rfl, hskipped, hleaf, rfl⟩ := List.filterMap_eq_cons_iff.1 hfrom
  have hcandidate : FocusCandidate direction focused leaf := by
    by_contra hnot
    simp [hnot] at hleaf
  rw [if_pos hcandidate, Option.some.injEq] at hleaf
  subst hleaf
  refine ⟨leaf, rfl, hcandidate, before ++ skipped, after, by simp [hleaves], ?_, ?_⟩
  · intro other hother hreach
    obtain hother | hother := List.mem_append.1 hother
    · exact hxs _ (List.mem_filterMap.2 ⟨other, hother, if_pos hreach⟩)
    · have := hskipped other hother
      simp [hreach] at this
  · intro other hother hreach
    exact hys _ (List.mem_filterMap.2 ⟨other, hother, if_pos hreach⟩)

/-- **Moving the focus.** From a pane that is drawn the focus moves to the nearest pane of the layer
that lies wholly on that side, if there is one. If a pane borders it there, the one it moves to is no
further off than a divider. -/
theorem focusTargetFrom_nearest (m : PresentationModel) (nodeId : NodeId)
    (direction : NavigationDirection) (focused : Option FloatingId × LeafFrame)
    (h : m.leaves.find? (·.2.nodeId = nodeId) = some focused) :
    (m.focusTargetFrom nodeId direction = none ↔
        ∀ leaf ∈ m.leaves, ¬ FocusCandidate direction focused leaf) ∧
      ∀ target, m.focusTargetFrom nodeId direction = some target →
        ∃ leaf, leaf.2.nodeId = target ∧ Nearest m.leaves direction focused leaf ∧
          ((∃ other ∈ m.leaves, FocusCandidate direction focused other ∧
            Borders direction focused.2.rect other.2.rect) →
              gap direction focused.2.rect leaf.2.rect ≤ 1) := by
  rw [focusTargetFrom_eq h]
  constructor
  · rw [Option.map_eq_none_iff, List.argmin_eq_none, scored_eq_nil_iff]
  · intro target htarget
    obtain ⟨best, hbest, rfl⟩ := Option.map_eq_some_iff.1 htarget
    obtain ⟨leaf, hleaf, hnearest⟩ := exists_nearest hbest
    refine ⟨leaf, hleaf, hnearest, ?_⟩
    rintro ⟨other, hother, hcandidate, hborders⟩
    have hle : farness direction focused.2.rect leaf.2.rect ≤
        farness direction focused.2.rect other.2.rect := by
      obtain ⟨before, after, hleaves, hbefore, hafter⟩ := hnearest.first
      rw [hleaves, List.mem_append, List.mem_cons] at hother
      obtain hother | rfl | hother := hother
      · exact (hbefore other hother hcandidate).le
      · exact le_rfl
      · exact hafter other hother hcandidate
    have hgap : (gap direction focused.2.rect leaf.2.rect).toNat ≤
        (gap direction focused.2.rect other.2.rect).toNat := by
      obtain hlt | ⟨heq, -⟩ := Prod.Lex.le_iff.1 hle
      · exact hlt.le
      · exact heq.le
    have := hborders.1
    omega

end PresentationModel

/-! ### Two rows of two panes -/

/-- A pane of a split. -/
def rowPane (id parentId : NodeId) : NodeRecord :=
  ⟨id, 1, some parentId, .bufferView, some ⟨1, false, false, true, .new 80 24⟩, none, none, some id⟩

/-- A session of two rows with two panes each. The upper ones are of 10 and 9 columns, the lower ones
of 9 and 10. -/
def rowsClient : ClientState :=
  { ClientState.empty with
    sessions := Table.insertAll (·.id) ∅ [⟨1, "main", 1, [], some 4, none, none, none, none, false⟩]
    buffers := Table.insertAll (·.id) ∅ [shell 1 4]
    nodes := Table.insertAll (·.id) ∅
      [⟨1, 1, none, .split, none, some ⟨.horizontal, [2, 3], [1, 1]⟩, none, some 4⟩,
        ⟨2, 1, some 1, .split, none, some ⟨.vertical, [4, 5], [10, 9]⟩, none, some 4⟩,
        ⟨3, 1, some 1, .split, none, some ⟨.vertical, [6, 7], [9, 10]⟩, none, some 6⟩,
        rowPane 4 2, rowPane 5 2, rowPane 6 3, rowPane 7 3] }

def rowsScreen : Option (Answer ProjectError PresentationModel) :=
  PresentationModel.projectWith rowsClient 10 1 ⟨20, 11⟩ plainLayout

/-- The panes are drawn, and from the first of them the focus moves right to the last. -/
theorem rowsScreen_leaves :
    ∃ m, rowsScreen = some (.ok m) ∧
      m.leaves.map (fun leaf ↦ (leaf.1, leaf.2.nodeId, leaf.2.rect)) =
        [(none, 4, ⟨0, 0, 10, 5⟩), (none, 5, ⟨11, 0, 9, 5⟩), (none, 6, ⟨0, 6, 9, 5⟩),
          (none, 7, ⟨10, 6, 10, 5⟩)] ∧
      m.focusTargetFrom 4 .right = some 7 := ⟨_, rfl, rfl, rfl⟩

/-- The focus moves to the nearest of the panes on the right. -/
theorem focusTargetFrom_nearest_rows :
    ∃ m focused, rowsScreen = some (.ok m) ∧
      m.leaves.find? (·.2.nodeId = 4) = some focused ∧
      ∃ leaf, leaf.2.nodeId = 7 ∧ Nearest m.leaves .right focused leaf := by
  obtain ⟨m, hm, hleaves, hmoved⟩ := rowsScreen_leaves
  obtain ⟨focused, hfocused⟩ : ∃ focused, m.leaves.find? (·.2.nodeId = 4) = some focused := by
    refine Option.isSome_iff_exists.1 (List.find?_isSome.2 ?_)
    obtain ⟨leaf, hleaf, hfirst⟩ : ∃ leaf ∈ m.leaves,
        (leaf.1, leaf.2.nodeId, leaf.2.rect) = (none, 4, ⟨0, 0, 10, 5⟩) :=
      List.mem_map.1 (by rw [hleaves]; exact List.mem_cons_self)
    simp only [Prod.mk.injEq] at hfirst
    exact ⟨leaf, hleaf, by simp [hfirst.2.1]⟩
  obtain ⟨leaf, hleaf, hnearest, -⟩ :=
    (PresentationModel.focusTargetFrom_nearest m 4 .right focused hfocused).2 7 hmoved
  exact ⟨m, focused, hm, hfocused, leaf, hleaf, hnearest⟩

/-- The pane beside is a divider away, and the one below it is none: the focus moves there. -/
theorem focusTargetFrom_not_bordering :
    ¬ ∀ (c : ClientState) (fuel : ℕ) (sessionId : SessionId) (viewport : Size)
      (layout : LayoutOptions) (m : PresentationModel),
      PresentationModel.projectWith c fuel sessionId viewport layout = some (.ok m) →
      ∀ (direction : NavigationDirection), ∀ focused ∈ m.leaves,
        (∃ other ∈ m.leaves, FocusCandidate direction focused other ∧
          Borders direction focused.2.rect other.2.rect) →
        ∃ target ∈ m.leaves,
          m.focusTargetFrom focused.2.nodeId direction = some target.2.nodeId ∧
            Borders direction focused.2.rect target.2.rect := by
  intro h
  obtain ⟨m, hm, hleaves, hmoved⟩ := rowsScreen_leaves
  obtain ⟨focused, hfocused, hfirst⟩ : ∃ leaf ∈ m.leaves,
      (leaf.1, leaf.2.nodeId, leaf.2.rect) = (none, 4, ⟨0, 0, 10, 5⟩) :=
    List.mem_map.1 (by rw [hleaves]; exact List.mem_cons_self)
  obtain ⟨other, hother, hsecond⟩ : ∃ leaf ∈ m.leaves,
      (leaf.1, leaf.2.nodeId, leaf.2.rect) = (none, 5, ⟨11, 0, 9, 5⟩) :=
    List.mem_map.1 (by rw [hleaves]; exact List.mem_cons_of_mem _ List.mem_cons_self)
  simp only [Prod.mk.injEq] at hfirst hsecond
  have hbeside : FocusCandidate .right focused other ∧
      Borders .right focused.2.rect other.2.rect := by
    rw [FocusCandidate, hfirst.1, hfirst.2.1, hfirst.2.2, hsecond.1, hsecond.2.1, hsecond.2.2]
    exact ⟨⟨by decide, rfl, by decide⟩, rfl, by decide, by decide⟩
  obtain ⟨target, htarget, hsome, hgap, -⟩ :=
    h rowsClient 10 1 _ plainLayout m hm .right focused hfocused ⟨other, hother, hbeside⟩
  rw [hfirst.2.1, hmoved, Option.some.injEq] at hsome
  have hmem := List.mem_map_of_mem (f := fun leaf ↦ (leaf.1, leaf.2.nodeId, leaf.2.rect)) htarget
  rw [hleaves, ← hsome] at hmem
  have hids : (7 : NodeId) ≠ 4 ∧ (7 : NodeId) ≠ 5 ∧ (7 : NodeId) ≠ 6 := by decide
  have hrect : target.1 = none ∧ target.2.rect = ⟨10, 6, 10, 5⟩ := by simpa [hids] using hmem
  rw [hfirst.2.2, hrect.2] at hgap
  exact absurd hgap (by decide)

end Embers.Client
