import Embers.Client.DrawnViewport
import Embers.Client.FocusTargets

/-!
# Resizing splits by cells

A resize moves one divider of a split by some cells. The child beside the divider on the growing side
takes what the children on the shrinking side can give, the nearest first and each down to its least
extent. The new lengths are sent as the split's weights.

`DividerMoved` says what the new lengths should be, and `movedLengths` computes them.
-/

namespace Embers.Client

open Protocol

/-! ## Least extents -/

/-- The smallest extent that a node can be drawn at along an axis with a cell of content for every
pane. The sum for a tab bar has 16 bits in the source, which a chain of 65535 nodes would exceed. -/
def minExtent (c : ClientState) (direction : SplitDirection) (titles : PaneTitles) : ℕ → NodeId → ℕ
  | 0, _ => 1
  | fuel + 1, nodeId =>
    match c.nodes[nodeId]? with
    | none => 1
    | some node =>
      match node.kind with
      | .bufferView =>
        match direction with
        | .horizontal => 1 + titleRows titles
        | .vertical => 1
      | .tabs =>
        let bar := if direction = .horizontal then 1 else 0
        let active := node.tabs.bind fun tabs ↦ tabs.tabs[tabs.active.toNat]?
        bar + (active.map fun tab ↦ minExtent c direction titles fuel tab.childId).getD 1
      | .split =>
        match node.split.filter (·.childIds ≠ []) with
        | none => 1
        | some split =>
          let mins := split.childIds.map (minExtent c direction titles fuel)
          if split.direction = direction then
            mins.foldl add16 (min (split.childIds.length - 1) 65535)
          else mins.max?.getD 1

/-- A split that is drawn, with the least extents of its children. -/
structure SizedSplit where
  frame : SplitFrame
  minLengths : List ℕ
  deriving DecidableEq, Repr

def PresentationModel.sizedSplits (m : PresentationModel) (c : ClientState) (layout : LayoutOptions)
    (fuel : ℕ) : List SizedSplit :=
  m.splits.map fun split ↦ ⟨split.2, split.2.childIds.map
    (minExtent c split.2.direction (paneTitlesIn c layout split.1) fuel)⟩

/-! ## Moving a divider -/

/-- The donors give cells one after another, until there are enough. -/
def giveCells (mins : List ℕ) : List ℕ → List ℕ → ℕ → ℕ → List ℕ × ℕ
  | [], lengths, _, moved => (lengths, moved)
  | donor :: donors, lengths, needed, moved =>
    if needed = 0 then (lengths, moved)
    else
      let least := max (mins.getD donor 1) 1
      let spare := lengths.getD donor 0 - least
      let given := min spare needed
      giveCells mins donors (lengths.set donor (lengths.getD donor 0 - given)) (needed - given)
        (moved + given)

/-- The child beside the divider that grows. -/
def receiver (index : ℕ) (delta : ℤ) : ℕ := if 0 < delta then index else index + 1

/-- The children that shrink, the nearest first. -/
def donors (count index : ℕ) (delta : ℤ) : List ℕ :=
  if 0 < delta then List.range' (index + 1) (count - (index + 1)) else (List.range (index + 1)).reverse

/-- The lengths after the divider between `index` and the next child is moved, if it can be. -/
def movedLengths (lengths mins : List ℕ) (index : ℕ) (delta : ℤ) : Option (List ℕ) :=
  if lengths.length ≤ index + 1 ∨ delta = 0 then none
  else
    let needed := min delta.natAbs 65535
    let given := giveCells mins (donors lengths.length index delta) lengths needed 0
    if given.2 = 0 then none
    else
      let grown := add16 (given.1.getD (receiver index delta) 0) given.2
      some (given.1.set (receiver index delta) grown)

/-- The weights for the moved divider. They are positive, so a child without cells has weight 1. -/
def moveDivider (lengths mins : List ℕ) (index : ℕ) (delta : ℤ) : Option (List UInt16) :=
  (movedLengths lengths mins index delta).map fun moved ↦ moved.map fun length ↦ .ofNat (max length 1)

/-! ## Plans -/

/-- New weights for a split. -/
structure SplitResize where
  splitNodeId : NodeId
  sizes : List UInt16
  deriving DecidableEq, Repr

/-- A divider of a split that is drawn, and how far it is to move. -/
structure DividerMove where
  split : SizedSplit
  index : ℕ
  delta : ℤ
  deriving DecidableEq, Repr

namespace DividerMove

/-- The lengths that the children are to have. -/
def intended (move : DividerMove) : Option (List ℕ) :=
  movedLengths move.split.frame.lengths move.split.minLengths move.index move.delta

def plan (move : DividerMove) : Option SplitResize :=
  (moveDivider move.split.frame.lengths move.split.minLengths move.index move.delta).map
    fun sizes ↦ ⟨move.split.frame.nodeId, sizes⟩

end DividerMove

/-- The axis along which panes are resized in a direction, and the way the divider goes. -/
def resizeAxis (direction : NavigationDirection) (cells : UInt16) : SplitDirection × ℤ :=
  match direction with
  | .left => (.vertical, -cells.toNat)
  | .right => (.vertical, cells.toNat)
  | .up => (.horizontal, -cells.toNat)
  | .down => (.horizontal, cells.toNat)

section

variable (c : ClientState) (splits : List SizedSplit)

/-- The divider after a node, or before it when it is the last child, in the nearest split above it
that is drawn along the axis. -/
def leafDivider (axis : SplitDirection) (delta : ℤ) :
    ℕ → NodeId → Answer ProjectError (Option DividerMove)
  | 0, _ => .error .diverges
  | fuel + 1, childId =>
    match c.nodes[childId]?.bind (·.parentId) with
    | none => pure none
    | some parentId =>
      match splits.find? fun split ↦
          decide (split.frame.nodeId = parentId) && decide (split.frame.direction = axis) with
      | some split => pure do
        let index ← split.frame.childIds.findIdx? (· = childId)
        if index + 1 = split.frame.childIds.length then
          if index = 0 then none else some ⟨split, index - 1, delta⟩
        else some ⟨split, index, delta⟩
      | none => leafDivider axis delta fuel parentId

/-- Plan to resize a pane in a direction by some cells. -/
def resizeLeaf (fuel : ℕ) (leafNodeId : NodeId) (direction : NavigationDirection) (cells : UInt16) :
    Answer ProjectError (Option SplitResize) := do
  let move ← leafDivider c splits (resizeAxis direction cells).1 (resizeAxis direction cells).2 fuel
    leafNodeId
  pure (move.bind (·.plan))

/-- The divider of a split, and how far it is from a point. -/
def dragDistance (splitNodeId : NodeId) (index : ℕ) (x y : ℤ) :
    Answer ProjectError (Option DividerMove) :=
  match splits.find? (·.frame.nodeId = splitNodeId) with
  | none => pure none
  | some split =>
    if split.frame.lengths.length ≤ index + 1 then pure none
    else
      let (origin, target) := match split.frame.direction with
        | .horizontal => (split.frame.rect.y, y)
        | .vertical => (split.frame.rect.x, x)
      let leading := (split.frame.lengths.take (index + 1)).sum
      do
        let start ← addI32 origin leading
        let current ← addI32 start index
        let delta ← addI32 target (-current)
        pure (some ⟨split, index, delta⟩)

/-- Plan to move a divider to a point. -/
def dragDivider (splitNodeId : NodeId) (index : ℕ) (x y : ℤ) :
    Answer ProjectError (Option SplitResize) := do
  let move ← dragDistance splits splitNodeId index x y
  pure (move.bind (·.plan))

end

/-! ## What moving a divider means -/

section

variable (lengths mins : List ℕ)

/-- What a child can give. -/
def spare (i : ℕ) : ℕ := lengths.getD i 0 - max (mins.getD i 1) 1

/-- What the children on the shrinking side can give. -/
def spareCells (index : ℕ) (delta : ℤ) : ℕ :=
  ((donors lengths.length index delta).map (spare lengths mins)).sum

/-- The divider after child `index` is moved by as many of `delta` cells as the children on the
shrinking side can give. -/
structure DividerMoved (index : ℕ) (delta : ℤ) (moved : List ℕ) : Prop where
  length : moved.length = lengths.length
  sum : moved.sum = lengths.sum
  place : ((moved.take (index + 1)).sum : ℤ) = (lengths.take (index + 1)).sum +
    delta.sign * min delta.natAbs (spareCells lengths mins index delta)
  /-- No child that had its least length has less now. -/
  kept : ∀ i, mins.getD i 1 ≤ lengths.getD i 0 → mins.getD i 1 ≤ moved.getD i 0
  /-- On the growing side only the child beside the divider changes. -/
  growing : ∀ i ∉ donors lengths.length index delta, i ≠ receiver index delta →
    moved.getD i 0 = lengths.getD i 0
  /-- A child gives only when the nearer ones have no more to give. -/
  nearest : (donors lengths.length index delta).Pairwise fun i j ↦
    moved.getD j 0 < lengths.getD j 0 → moved.getD i 0 ≤ max (mins.getD i 1) 1

end

/-! ## Giving cells -/

section

variable {lengths mins : List ℕ} {i j n : ℕ}

theorem getD_set_self {a : ℕ} (h : i < lengths.length) : (lengths.set i a).getD i 0 = a := by
  rw [List.getD_eq_getElem?_getD, List.getElem?_set_self h]
  rfl

theorem getD_set_ne {a : ℕ} (h : i ≠ j) : (lengths.set i a).getD j 0 = lengths.getD j 0 := by
  rw [List.getD_eq_getElem?_getD, List.getD_eq_getElem?_getD, List.getElem?_set_ne h]

/-- The sum of the first `n` lengths after one of them changes. -/
theorem sum_take_set {a : ℕ} (h : i < lengths.length) (hn : i < n) :
    ((lengths.set i a).take n).sum + lengths.getD i 0 = (lengths.take n).sum + a := by
  induction lengths generalizing i n with
  | nil => exact absurd h (Nat.not_lt_zero i)
  | cons length lengths ih =>
    obtain ⟨n, rfl⟩ := Nat.exists_eq_add_of_le' (Nat.one_le_of_lt hn)
    cases i with
    | zero =>
      simp only [List.set_cons_zero, List.take_succ_cons, List.sum_cons, List.getD_cons_zero]
      omega
    | succ i =>
      have hrest := ih (Nat.lt_of_succ_lt_succ h) (Nat.lt_of_succ_lt_succ hn)
      simp only [List.set_cons_succ, List.take_succ_cons, List.sum_cons, List.getD_cons_succ]
      omega

/-- What the donors gave, one after another. -/
structure Given (lengths mins donors : List ℕ) (needed : ℕ) (result : List ℕ × ℕ) : Prop where
  length : result.1.length = lengths.length
  amount : result.2 = min needed (donors.map (spare lengths mins)).sum
  others : ∀ i ∉ donors, result.1.getD i 0 = lengths.getD i 0
  given : ∀ i, result.1.getD i 0 = lengths.getD i 0 ∨
    result.1.getD i 0 ≤ lengths.getD i 0 ∧ max (mins.getD i 1) 1 ≤ result.1.getD i 0
  before : ∀ n, (∀ i ∈ donors, i < n) → (result.1.take n).sum + result.2 = (lengths.take n).sum
  after : ∀ n, (∀ i ∈ donors, n ≤ i) → result.1.take n = lengths.take n
  nearest : donors.Pairwise fun i j ↦
    result.1.getD j 0 < lengths.getD j 0 → result.1.getD i 0 ≤ max (mins.getD i 1) 1

/-- The count of what was given before does not matter. -/
theorem giveCells_moved {donors : List ℕ} {needed moved : ℕ} :
    giveCells mins donors lengths needed moved =
      ((giveCells mins donors lengths needed 0).1,
        moved + (giveCells mins donors lengths needed 0).2) := by
  induction donors generalizing lengths needed moved with
  | nil => rfl
  | cons donor donors ih =>
    rw [giveCells, giveCells]
    split
    · rfl
    · dsimp only
      rw [@ih _ _ (moved + _), @ih _ _ (0 + _)]
      simp only [Prod.mk.injEq, true_and]
      omega

theorem giveCells_zero {donors : List ℕ} : giveCells mins donors lengths 0 0 = (lengths, 0) := by
  cases donors with
  | nil => rfl
  | cons donor donors => rw [giveCells, if_pos rfl]

theorem giveCells_given {donors : List ℕ} {needed : ℕ} (hnodup : donors.Nodup)
    (hin : ∀ i ∈ donors, i < lengths.length) :
    Given lengths mins donors needed (giveCells mins donors lengths needed 0) := by
  induction donors generalizing lengths needed with
  | nil =>
    exact ⟨rfl, (Nat.min_zero needed).symm, fun _ _ ↦ rfl, fun _ ↦ .inl rfl, fun _ _ ↦ rfl,
      fun _ _ ↦ rfl, .nil⟩
  | cons donor donors ih =>
    obtain ⟨hdonor, hrest⟩ := List.forall_mem_cons.mp hin
    obtain ⟨hnew, hnodup'⟩ := List.nodup_cons.mp hnodup
    rw [giveCells]
    split
    · next hnone =>
      rw [hnone]
      refine ⟨rfl, (Nat.zero_min _).symm, fun _ _ ↦ rfl, fun _ ↦ .inl rfl, fun _ _ ↦ rfl,
        fun _ _ ↦ rfl, List.pairwise_of_forall fun i j h ↦ absurd h (Nat.lt_irrefl _)⟩
    · dsimp only
      rw [giveCells_moved, Nat.zero_add]
      generalize hgiven : min (lengths.getD donor 0 - max (mins.getD donor 1) 1) needed = given
      have hspare : min (spare lengths mins donor) needed = given := hgiven
      have hlength : (lengths.set donor (lengths.getD donor 0 - given)).length = lengths.length :=
        List.length_set
      obtain ⟨hlength', hamount, hothers, hgivers, hbefore, hafter, hnearest⟩ :=
        @ih (lengths.set donor (lengths.getD donor 0 - given)) (needed - given) hnodup'
          (by rwa [hlength])
      generalize heq : giveCells mins donors (lengths.set donor (lengths.getD donor 0 - given))
        (needed - given) 0 = result at hlength' hamount hothers hgivers hbefore hafter hnearest
      have hsame : ∀ i ≠ donor, (lengths.set donor (lengths.getD donor 0 - given)).getD i 0 =
          lengths.getD i 0 := fun i hi ↦ getD_set_ne hi.symm
      have hmem : ∀ i ∈ donors, i ≠ donor := fun i hi heq ↦ hnew (heq ▸ hi)
      have hself : result.1.getD donor 0 = lengths.getD donor 0 - given := by
        rw [hothers donor hnew, getD_set_self hdonor]
      have hspares : donors.map (spare (lengths.set donor (lengths.getD donor 0 - given)) mins) =
          donors.map (spare lengths mins) := by
        refine List.map_congr_left fun i hi ↦ ?_
        rw [spare, spare, hsame i (hmem i hi)]
      refine ⟨hlength'.trans hlength, ?_, fun i hi ↦ ?_, fun i ↦ ?_, fun n hn ↦ ?_, fun n hn ↦ ?_,
        List.pairwise_cons.mpr ⟨fun j hj hless ↦ ?_, ?_⟩⟩
      · rw [hspares] at hamount
        rw [List.map_cons, List.sum_cons]
        dsimp only
        omega
      · rw [List.mem_cons, not_or] at hi
        exact (hothers i hi.2).trans (hsame i hi.1)
      · by_cases hi : i = donor
        · rw [hi, hself]
          omega
        · rw [← hsame i hi]
          exact hgivers i
      · obtain ⟨hdn, hrn⟩ := List.forall_mem_cons.mp hn
        have hset := sum_take_set (a := lengths.getD donor 0 - given) hdonor hdn
        have hsum := hbefore n hrn
        dsimp only
        omega
      · obtain ⟨hdn, hrn⟩ := List.forall_mem_cons.mp hn
        rw [hafter n hrn, List.take_set_of_le hdn]
      · rw [hself]
        by_contra hmore
        have hall : needed - given = 0 := by omega
        rw [hall, giveCells_zero] at heq
        rw [← heq, hsame j (hmem j hj)] at hless
        exact Nat.lt_irrefl _ hless
      · refine hnearest.imp_of_mem fun {i j} _ hj h hless ↦ h ?_
        rwa [hsame j (hmem j hj)]

/-! ## The moved divider -/

variable {index : ℕ} {delta : ℤ} {moved : List ℕ}

theorem nodup_donors (count : ℕ) : (donors count index delta).Nodup := by
  rw [donors]
  split
  · exact List.nodup_range'
  · exact List.nodup_reverse.mpr List.nodup_range

theorem mem_donors {count : ℕ} (hcount : index + 1 < count) :
    i ∈ donors count index delta ↔ if 0 < delta then index < i ∧ i < count else i ≤ index := by
  rw [donors]
  split
  · rw [List.mem_range'_1]
    omega
  · rw [List.mem_reverse, List.mem_range]
    omega

variable (delta) in
theorem receiver_notMem_donors {count : ℕ} (hcount : index + 1 < count) :
    receiver index delta ∉ donors count index delta := by
  rw [mem_donors hcount, receiver]
  split <;> omega

theorem receiver_lt {count : ℕ} (hcount : index + 1 < count) : receiver index delta < count := by
  rw [receiver]
  split <;> omega

/-- What the donors give and the receiver takes. -/
theorem exists_given (h : movedLengths lengths mins index delta = some moved) :
    ∃ given, Given lengths mins (donors lengths.length index delta) (min delta.natAbs 65535) given ∧
      index + 1 < lengths.length ∧ delta ≠ 0 ∧ given.2 ≠ 0 ∧
      moved = given.1.set (receiver index delta)
        (add16 (given.1.getD (receiver index delta) 0) given.2) := by
  rw [movedLengths] at h
  split at h
  · cases h
  next hmoves =>
  rw [not_or, Nat.not_le] at hmoves
  have hin : ∀ i ∈ donors lengths.length index delta, i < lengths.length := by
    intro i hi
    rw [mem_donors hmoves.1] at hi
    split at hi <;> omega
  dsimp only at h
  split at h
  · cases h
  next hsome =>
  exact ⟨_, giveCells_given (nodup_donors lengths.length) hin, hmoves.1, hmoves.2, hsome,
    (Option.some.inj h).symm⟩

theorem Given.sum {donors : List ℕ} {needed : ℕ} {given : List ℕ × ℕ}
    (h : Given lengths mins donors needed given) (hin : ∀ i ∈ donors, i < lengths.length) :
    given.1.sum + given.2 = lengths.sum := by
  have hsum := h.before lengths.length hin
  rwa [List.take_of_length_le h.length.le, List.take_length] at hsum

theorem donors_lt {count : ℕ} (hcount : index + 1 < count) : ∀ i ∈ donors count index delta, i < count := by
  intro i hi
  rw [mem_donors hcount] at hi
  split at hi <;> omega

variable (mins delta) in
theorem spareCells_le (hindex : index + 1 < lengths.length) :
    spareCells lengths mins index delta ≤ lengths.sum := by
  have hall : Given lengths mins (donors lengths.length index delta)
      (spareCells lengths mins index delta) _ :=
    giveCells_given (nodup_donors lengths.length) (donors_lt hindex)
  have hsum := hall.sum (donors_lt hindex)
  have hamount := hall.amount
  rw [← spareCells, Nat.min_self] at hamount
  omega

theorem getD_le_sum (h : i < lengths.length) : lengths.getD i 0 ≤ lengths.sum := by
  have hset := sum_take_set (a := 0) h h
  rw [List.take_length] at hset
  omega

/-- The receiver gets all that was given. -/
theorem exists_grown (hsum : lengths.sum < 2 ^ 16)
    (h : movedLengths lengths mins index delta = some moved) :
    ∃ given, Given lengths mins (donors lengths.length index delta) (min delta.natAbs 65535) given ∧
      index + 1 < lengths.length ∧ delta ≠ 0 ∧ given.2 ≠ 0 ∧
      moved = given.1.set (receiver index delta) (given.1.getD (receiver index delta) 0 + given.2) := by
  obtain ⟨given, hgiven, hindex, hdelta, hsome, rfl⟩ := exists_given h
  have htotal := hgiven.sum (donors_lt hindex)
  have hreceiver : receiver index delta < given.1.length := by
    rw [hgiven.length]
    exact receiver_lt hindex
  have hle := getD_le_sum hreceiver
  have hadd : add16 (given.1.getD (receiver index delta) 0) given.2 =
      given.1.getD (receiver index delta) 0 + given.2 := by
    rw [add16]
    omega
  exact ⟨given, hgiven, hindex, hdelta, hsome, by rw [hadd]⟩

theorem movedLengths_moved (hsum : lengths.sum < 2 ^ 16)
    (h : movedLengths lengths mins index delta = some moved) :
    DividerMoved lengths mins index delta moved := by
  obtain ⟨given, hgiven, hindex, hdelta, -, rfl⟩ := exists_grown hsum h
  have htotal := hgiven.sum (donors_lt hindex)
  have hreceiver : receiver index delta < given.1.length := by
    rw [hgiven.length]
    exact receiver_lt hindex
  have hnotdonor := receiver_notMem_donors delta hindex
  have hbefore := hgiven.others _ hnotdonor
  have hamount : given.2 = min delta.natAbs (spareCells lengths mins index delta) := by
    have hspare := spareCells_le mins delta hindex
    have hamount := hgiven.amount
    rw [← spareCells] at hamount
    omega
  have hkeeps : ∀ i ≠ receiver index delta, (given.1.set (receiver index delta)
      (given.1.getD (receiver index delta) 0 + given.2)).getD i 0 = given.1.getD i 0 :=
    fun i hi ↦ getD_set_ne hi.symm
  have hmem : ∀ i ∈ donors lengths.length index delta, i ≠ receiver index delta :=
    fun i hi heq ↦ hnotdonor (heq ▸ hi)
  refine ⟨List.length_set.trans hgiven.length, ?_, ?_, fun i hleast ↦ ?_, fun i hi hne ↦ ?_, ?_⟩
  · have hset := sum_take_set (a := given.1.getD (receiver index delta) 0 + given.2) hreceiver hreceiver
    rw [← List.length_set (i := receiver index delta)
      (a := given.1.getD (receiver index delta) 0 + given.2), List.take_length, List.length_set,
      List.take_length] at hset
    omega
  · rcases lt_or_gt_of_ne hdelta with hneg | hpos
    · have hreceives : receiver index delta = index + 1 := if_neg (by omega)
      rw [hreceives, List.take_set_of_le (Nat.le_refl _), Int.sign_eq_neg_one_of_neg hneg]
      have hgave := hgiven.before (index + 1) fun i hi ↦ by
        rw [mem_donors hindex, if_neg (by omega)] at hi
        omega
      omega
    · have hreceives : receiver index delta = index := if_pos hpos
      have hset := sum_take_set (n := index + 1) (a := given.1.getD (receiver index delta) 0 + given.2)
        hreceiver (by omega)
      have hleft := hgiven.after (index + 1) fun i hi ↦ by
        rw [mem_donors hindex, if_pos hpos] at hi
        omega
      rw [hleft] at hset
      rw [Int.sign_eq_one_of_pos hpos]
      omega
  · by_cases hi : i = receiver index delta
    · rw [hi, getD_set_self hreceiver, hbefore, ← hi]
      omega
    · rw [hkeeps i hi]
      have hgives := hgiven.given i
      omega
  · rw [hkeeps i hne, hgiven.others i hi]
  · refine hgiven.nearest.imp_of_mem fun {i j} hi hj h hless ↦ ?_
    rw [hkeeps j (hmem j hj)] at hless
    rw [hkeeps i (hmem i hi)]
    exact h hless

/-- A child without cells had none before, and is not the one that grows. -/
theorem getD_moved_eq_zero (hsum : lengths.sum < 2 ^ 16)
    (h : movedLengths lengths mins index delta = some moved) :
    moved.getD i 0 = 0 ↔ i ≠ receiver index delta ∧ lengths.getD i 0 = 0 := by
  obtain ⟨given, hgiven, hindex, -, hsome, rfl⟩ := exists_grown hsum h
  have hreceiver : receiver index delta < given.1.length := by
    rw [hgiven.length]
    exact receiver_lt hindex
  by_cases hi : i = receiver index delta
  · rw [hi, getD_set_self hreceiver]
    constructor
    · intro hnone
      omega
    · rintro ⟨hne, -⟩
      exact absurd rfl hne
  · rw [getD_set_ne (Ne.symm hi)]
    have hgives := hgiven.given i
    constructor
    · intro hnone
      exact ⟨hi, by omega⟩
    · rintro ⟨-, hnone⟩
      omega

/-- A child that gives keeps a cell. -/
theorem exists_moved_pos (hsum : lengths.sum < 2 ^ 16)
    (h : movedLengths lengths mins index delta = some moved) :
    ∃ i ≠ receiver index delta, i < lengths.length ∧ moved.getD i 0 ≠ 0 := by
  obtain ⟨given, hgiven, hindex, -, hsome, rfl⟩ := exists_grown hsum h
  obtain ⟨i, hi, hgave⟩ : ∃ i < lengths.length, given.1.getD i 0 ≠ lengths.getD i 0 := by
    by_contra hall
    have hsame : given.1 = lengths := by
      refine List.ext_getElem hgiven.length fun i hi hi' ↦ ?_
      by_contra hne
      refine hall ⟨i, hi', ?_⟩
      rwa [List.getD_eq_getElem _ _ hi, List.getD_eq_getElem _ _ hi']
    have htotal := hgiven.sum (donors_lt hindex)
    rw [hsame] at htotal
    omega
  have hne : i ≠ receiver index delta := by
    rintro rfl
    exact hgave (hgiven.others _ (receiver_notMem_donors delta hindex))
  have hgives := hgiven.given i
  refine ⟨i, hne, hi, ?_⟩
  rw [getD_set_ne hne.symm]
  omega

end

end Embers.Client
