import Embers.State.Place
import Embers.State.Validated

/-!
# Reordering siblings

Swapping two children of a container, and moving one next to another, keep three things in step: the
children, the sizes of a split, and the active index of tabs. `Node.Reordered` says that they are:
the pairs of a child and its size are the ones there were, tabs stay whole, and the active tab is
the same child.

The two orders are given without positions. A swap renames two children into each other; a move
leaves the others in their order and puts the child right beside its target.
-/

namespace Embers

open ServerState

/-! ## What a new order is -/

/-- `node'` has the children of `node` in another order, and differs in nothing else. -/
def Node.Reordered (order : List NodeId → List NodeId → Prop) : Node → Node → Prop
  | .split node, .split node' =>
    order node.children node'.children ∧
      node'.sizes.length = node'.children.length ∧
      (node'.children.zip node'.sizes).Perm (node.children.zip node.sizes) ∧
      node' = { node with children := node'.children, sizes := node'.sizes }
  | .tabs node, .tabs node' =>
    order node.children node'.children ∧
      node'.tabs.Perm node.tabs ∧
      (∃ child, node.activeChild = some child ∧ node'.activeChild = some child) ∧
      node' = { node with tabs := node'.tabs, active := node'.active }
  | _, _ => False

/-- The two children have changed places. -/
def Swapped (first second : NodeId) (children children' : List NodeId) : Prop :=
  children' = children.map (Equiv.swap first second)

/-- The node stands right before or after its target, and the others are in the order they had. -/
def MovedNextTo (nodeId target : NodeId) (before : Bool) (children children' : List NodeId) : Prop :=
  if nodeId = target then
    children' = children
  else
    children'.erase nodeId = children.erase nodeId ∧
      (if before then [nodeId, target] else [target, nodeId]) <:+: children'

/-! ## The changes to a node -/

/-- Swap two children by position. -/
def SplitNode.swap (first second : ℕ) (split : SplitNode) : SplitNode :=
  { split with
    children := swapIdx split.children first second
    sizes := swapIdx split.sizes first second }

def TabsNode.swap (first second : ℕ) (tabs : TabsNode) : TabsNode :=
  { tabs with
    tabs := swapIdx tabs.tabs first second
    active :=
      if tabs.active = first then second
      else if tabs.active = second then first
      else tabs.active }

/-- Move a child next to another, by position. -/
def SplitNode.reorder (before : Bool) (source target : ℕ) (split : SplitNode) : SplitNode :=
  let insertAt := insertPosition source target before
  { split with
    children := moveIdx split.children source insertAt
    sizes := moveIdx split.sizes source insertAt }

def TabsNode.reorder (before : Bool) (source target : ℕ) (tabs : TabsNode) : TabsNode :=
  let insertAt := insertPosition source target before
  { tabs with
    tabs := moveIdx tabs.tabs source insertAt
    active := activeAfterMove tabs.active source insertAt }

namespace Node

/-- Swap two children of a container, by position. -/
def swap (first second : ℕ) (node : Node) : Node :=
  (node.mapSplit (SplitNode.swap first second)).mapTabs (TabsNode.swap first second)

def reorder (before : Bool) (source target : ℕ) (node : Node) : Node :=
  (node.mapSplit (SplitNode.reorder before source target)).mapTabs
    (TabsNode.reorder before source target)

end Node

section Positions

variable {nodeId target first second : NodeId} {children : List NodeId} {i j n : ℕ} {before : Bool}

theorem insertPosition_lt (hi : i < n) (hj : j < n) (hne : i ≠ j) :
    insertPosition i j before < n := by
  simp only [insertPosition]
  split_ifs <;> omega

theorem swapped_swapIdx (hnodup : children.Nodup) (hi : children[i]? = some first)
    (hj : children[j]? = some second) : Swapped first second children (swapIdx children i j) :=
  swapIdx_eq_map hnodup hi hj

/-- Where the target stands once the moved node is taken out. -/
theorem getElem?_eraseIdx_target (hj : children[j]? = some target) (hne : i ≠ j) :
    (children.eraseIdx i)[if i < j then j - 1 else j]? = some target := by
  rw [List.getElem?_eraseIdx]
  grind

theorem movedNextTo_moveIdx (hne : nodeId ≠ target) (hnodup : children.Nodup)
    (hi : children[i]? = some nodeId) (hj : children[j]? = some target) :
    MovedNextTo nodeId target before children
      (moveIdx children i (insertPosition i j before)) := by
  have hij : i ≠ j := by
    rintro rfl
    exact hne (Option.some.inj (hi.symm.trans hj))
  have hilt : i < children.length := (List.getElem?_eq_some_iff.mp hi).1
  have hjlt : j < children.length := (List.getElem?_eq_some_iff.mp hj).1
  rw [MovedNextTo, if_neg hne]
  constructor
  · exact erase_moveIdx hnodup hi (insertPosition_lt hilt hjlt hij)
  · rw [moveIdx_of_get hi, insertPosition]
    have htarget := getElem?_eraseIdx_target hj hij
    cases before with
    | true => exact insertIdx_before htarget
    | false => exact insertIdx_after htarget

end Positions

/-! ## Splits -/

section Splits

variable {split : SplitNode} {first second : NodeId} {i j : ℕ} {before : Bool}

theorem SplitNode.reordered_swap (hnodup : split.children.Nodup)
    (hsizes : split.sizes.length = split.children.length) (hi : split.children[i]? = some first)
    (hj : split.children[j]? = some second) :
    Node.Reordered (Swapped first second) (.split split) (.split (split.swap i j)) := by
  have hilt := (List.getElem?_eq_some_iff.mp hi).1
  have hjlt := (List.getElem?_eq_some_iff.mp hj).1
  refine ⟨swapped_swapIdx hnodup hi hj, ?_, ?_, rfl⟩
  · simp only [SplitNode.swap, length_swapIdx, hsizes]
  · simp only [SplitNode.swap, zip_swapIdx hilt hjlt hsizes]
    have hzip : (split.children.zip split.sizes).length = split.children.length := by
      rw [List.length_zip, hsizes, Nat.min_self]
    exact swapIdx_perm (hzip ▸ hilt) (hzip ▸ hjlt)

theorem SplitNode.reordered_reorder (hne : first ≠ second) (hnodup : split.children.Nodup)
    (hsizes : split.sizes.length = split.children.length) (hi : split.children[i]? = some first)
    (hj : split.children[j]? = some second) :
    Node.Reordered (MovedNextTo first second before) (.split split)
      (.split (split.reorder before i j)) := by
  have hilt := (List.getElem?_eq_some_iff.mp hi).1
  have hjlt := (List.getElem?_eq_some_iff.mp hj).1
  have hat : insertPosition i j before < split.children.length := by
    apply insertPosition_lt hilt hjlt
    rintro rfl
    exact hne (Option.some.inj (hi.symm.trans hj))
  refine ⟨movedNextTo_moveIdx hne hnodup hi hj, ?_, ?_, rfl⟩
  · have hkids := (moveIdx_perm hilt hat).length_eq
    have hwith := (moveIdx_perm (hsizes ▸ hilt) (hsizes ▸ hat)).length_eq
    simp only [SplitNode.reorder, hkids, hwith, hsizes]
  · simp only [SplitNode.reorder, zip_moveIdx hilt hsizes]
    have hzip : (split.children.zip split.sizes).length = split.children.length := by
      rw [List.length_zip, hsizes, Nat.min_self]
    exact moveIdx_perm (hzip ▸ hilt) (hzip ▸ hat)

end Splits

/-! ## Tabs -/

section Tabs

variable {tabs : TabsNode} {first second : NodeId} {i j : ℕ} {before : Bool}

theorem TabsNode.activeChild_of_lt (h : tabs.active < tabs.tabs.length) :
    ∃ child, tabs.activeChild = some child :=
  ⟨_, by rw [TabsNode.activeChild, List.getElem?_eq_getElem h, Option.map_some]⟩

theorem TabsNode.reordered_swap (hnodup : tabs.children.Nodup)
    (hactive : tabs.active < tabs.tabs.length) (hi : tabs.children[i]? = some first)
    (hj : tabs.children[j]? = some second) :
    Node.Reordered (Swapped first second) (.tabs tabs) (.tabs (tabs.swap i j)) := by
  have hlength : tabs.children.length = tabs.tabs.length := List.length_map _
  have hilt := hlength ▸ (List.getElem?_eq_some_iff.mp hi).1
  have hjlt := hlength ▸ (List.getElem?_eq_some_iff.mp hj).1
  refine ⟨?_, swapIdx_perm hilt hjlt, ?_, rfl⟩
  · simp only [TabsNode.swap, TabsNode.children, map_swapIdx TabEntry.child hilt hjlt]
    exact swapped_swapIdx hnodup hi hj
  · obtain ⟨child, hchild⟩ := TabsNode.activeChild_of_lt hactive
    refine ⟨child, hchild, ?_⟩
    -- the new active index is the old one, seen through the swap
    have hswap : (if tabs.active = i then j else if tabs.active = j then i else tabs.active) =
        Equiv.swap i j tabs.active := (Equiv.swap_apply_def i j tabs.active).symm
    simp only [TabsNode.swap, TabsNode.activeChild, hswap, getElem?_swapIdx hilt hjlt,
      Equiv.swap_apply_self]
    exact hchild

theorem TabsNode.reordered_reorder (hne : first ≠ second) (hnodup : tabs.children.Nodup)
    (hactive : tabs.active < tabs.tabs.length) (hi : tabs.children[i]? = some first)
    (hj : tabs.children[j]? = some second) :
    Node.Reordered (MovedNextTo first second before) (.tabs tabs)
      (.tabs (tabs.reorder before i j)) := by
  have hlength : tabs.children.length = tabs.tabs.length := List.length_map _
  have hilt := hlength ▸ (List.getElem?_eq_some_iff.mp hi).1
  have hjlt := hlength ▸ (List.getElem?_eq_some_iff.mp hj).1
  have hat : insertPosition i j before < tabs.tabs.length := by
    apply insertPosition_lt hilt hjlt
    rintro rfl
    exact hne (Option.some.inj (hi.symm.trans hj))
  refine ⟨?_, moveIdx_perm hilt hat, ?_, rfl⟩
  · simp only [TabsNode.reorder, TabsNode.children, map_moveIdx TabEntry.child]
    exact movedNextTo_moveIdx hne hnodup hi hj
  · obtain ⟨child, hchild⟩ := TabsNode.activeChild_of_lt hactive
    refine ⟨child, hchild, ?_⟩
    simp only [TabsNode.reorder, TabsNode.activeChild, activeAfterMove,
      getElem?_moveIdx hilt hat hactive]
    exact hchild

end Tabs

/-! ## The changes to the state -/

namespace ServerState

variable {s : ServerState} {parentId first second : NodeId} {node : Node}

theorem exists_idxOf? {children : List NodeId} {nodeId : NodeId} (h : nodeId ∈ children) :
    ∃ i, children.idxOf? nodeId = some i ∧ children[i]? = some nodeId := by
  obtain ⟨i, hi⟩ := Option.isSome_iff_exists.mp (List.isSome_idxOf?.mpr h)
  obtain ⟨hlt, heq, -⟩ := List.idxOf?_eq_some_iff.mp hi
  exact ⟨i, hi, List.getElem?_eq_some_iff.mpr ⟨hlt, heq⟩⟩

theorem mapNode_eq_insertNode {f : Node → Node} (h : s.nodes[parentId]? = some node) :
    s.mapNode parentId f = s.insertNode parentId (f node) := by
  have hnodes : s.nodes.modify parentId f = s.nodes.insert parentId (f node) :=
    Table.modify_of_get? h f
  rw [mapNode, insertNode, hnodes]

/-- Both children name the node as their parent. -/
structure Siblings (s : ServerState) (parentId : NodeId) (node : Node) (first second : NodeId) :
    Prop where
  get : s.nodes[parentId]? = some node
  first : first ∈ node.childIds
  second : second ∈ node.childIds
  parent {childId : NodeId} (h : childId ∈ node.childIds) :
    s.nodeParent childId = .ok (some parentId)

theorem Sound.siblings (h : s.Sound parentId node) (hnode : s.nodes[parentId]? = some node)
    (hfirst : first ∈ node.childIds) (hsecond : second ∈ node.childIds) :
    s.Siblings parentId node first second := by
  refine ⟨hnode, hfirst, hsecond, fun hmem ↦ ?_⟩
  obtain ⟨child, hchild, hparent, -⟩ := h.child hmem
  rw [nodeParent, node_eq_ok.mpr hchild, Answer.bind_ok, hparent]
  rfl

/-- A rearrangement of two children acts on their parent, at the positions they have. -/
theorem Siblings.rearrange (h : s.Siblings parentId node first second) (hne : first ≠ second)
    (missingInSplit missingInTabs : NodeId → NodeId → MuxError)
    (inSplit : ℕ → ℕ → SplitNode → SplitNode) (inTabs : ℕ → ℕ → TabsNode → TabsNode) :
    ∃ i j, node.childIds[i]? = some first ∧ node.childIds[j]? = some second ∧
      ServerState.rearrange first second missingInSplit missingInTabs inSplit inTabs s =
        (.ok (), s.insertNode parentId
          ((node.mapSplit (inSplit i j)).mapTabs (inTabs i j))) := by
  obtain ⟨i, hi, hget⟩ := exists_idxOf? h.first
  obtain ⟨j, hj, hget'⟩ := exists_idxOf? h.second
  refine ⟨i, j, hget, hget', ?_⟩
  have hshared : s.sharedParent first second = .ok parentId := by
    simp [ServerState.sharedParent, hne, h.parent h.first, h.parent h.second]
  rw [ServerState.rearrange, if_neg hne, Op.ask_bind_of_ok hshared]
  rw [Op.ask_bind_of_ok (q := fun s : ServerState ↦ s.node parentId) (node_eq_ok.mpr h.get)]
  -- only a container has children
  cases node with
  | bufferView view => exact absurd h.first List.not_mem_nil
  | split split =>
    have hpositions : siblingPositions split.children first second (missingInSplit parentId) =
        .ok (i, j) := by
      rw [siblingPositions, show split.children.idxOf? first = some i from hi,
        show split.children.idxOf? second = some j from hj]
      rfl
    simp only [Op.bind_apply, Op.ask_apply, hpositions, Op.modify_apply]
    rw [mapNode_eq_insertNode h.get]
    rfl
  | tabs tabs =>
    have hpositions : siblingPositions tabs.children first second (missingInTabs parentId) =
        .ok (i, j) := by
      rw [siblingPositions, show tabs.children.idxOf? first = some i from hi,
        show tabs.children.idxOf? second = some j from hj]
      rfl
    simp only [Op.bind_apply, Op.ask_apply, hpositions, Op.modify_apply]
    rw [mapNode_eq_insertNode h.get]
    rfl

/-! ### Swaps -/

theorem Sound.length_sizes {split : SplitNode} (h : s.Sound parentId (.split split)) :
    split.sizes.length = split.children.length := by
  have hshape := h.shape
  simp only [validateShape] at hshape
  split at hshape
  · cases hshape
  · split at hshape
    · cases hshape
    next hsizes => exact not_not.mp hsizes

theorem Sound.active_lt {tabs : TabsNode} (h : s.Sound parentId (.tabs tabs))
    (hmem : first ∈ tabs.children) : tabs.active < tabs.tabs.length := by
  have hshape := h.shape
  simp only [validateShape] at hshape
  split at hshape
  next hempty =>
    rw [TabsNode.children, List.isEmpty_iff.mp hempty] at hmem
    exact absurd hmem List.not_mem_nil
  · split at hshape
    · cases hshape
    next hactive => exact Nat.lt_of_not_le hactive

variable {i j : ℕ} {before : Bool}

/-- A container that keeps its order. -/
theorem Sound.reordered_refl (h : s.Sound parentId node) {order : List NodeId → List NodeId → Prop}
    (horder : order node.childIds node.childIds) (hmem : first ∈ node.childIds) :
    node.Reordered order node := by
  cases node with
  | bufferView view => exact absurd hmem List.not_mem_nil
  | split split => exact ⟨horder, h.length_sizes, .refl _, rfl⟩
  | tabs tabs =>
    obtain ⟨child, hchild⟩ := TabsNode.activeChild_of_lt (h.active_lt hmem)
    exact ⟨horder, .refl _, ⟨child, hchild, hchild⟩, rfl⟩

theorem Sound.reordered_swap (h : s.Sound parentId node) (hi : node.childIds[i]? = some first)
    (hj : node.childIds[j]? = some second) :
    node.Reordered (Swapped first second) (node.swap i j) := by
  cases node with
  | bufferView view => cases hi
  | split split => exact SplitNode.reordered_swap h.nodup h.length_sizes hi hj
  | tabs tabs =>
    exact TabsNode.reordered_swap h.nodup (h.active_lt (List.mem_of_getElem? hi)) hi hj

theorem childIds_swap (hi : i < node.childIds.length) (hj : j < node.childIds.length) :
    (node.swap i j).childIds = swapIdx node.childIds i j := by
  cases node with
  | bufferView view => cases hi
  | split split => rfl
  | tabs tabs =>
    rw [Node.childIds, TabsNode.children, List.length_map] at hi hj
    exact map_swapIdx TabEntry.child hi hj

/-- Swapping the same two positions again undoes the swap. -/
theorem Sound.swap_swap (h : s.Sound parentId node) (hi : i < node.childIds.length)
    (hj : j < node.childIds.length) : (node.swap i j).swap j i = node := by
  cases node with
  | bufferView view => rfl
  | split split =>
    rw [Node.childIds] at hi hj
    have hsizes := h.length_sizes
    have hkids : swapIdx (swapIdx split.children i j) j i = split.children := by
      rw [swapIdx_comm (swapIdx split.children i j), swapIdx_swapIdx hi hj]
    have hweights : swapIdx (swapIdx split.sizes i j) j i = split.sizes := by
      rw [swapIdx_comm (swapIdx split.sizes i j),
        swapIdx_swapIdx (hsizes ▸ hi) (hsizes ▸ hj)]
    simp only [Node.swap, Node.mapSplit, Node.mapTabs, SplitNode.swap, hkids, hweights]
  | tabs tabs =>
    rw [Node.childIds, TabsNode.children, List.length_map] at hi hj
    have htabs : swapIdx (swapIdx tabs.tabs i j) j i = tabs.tabs := by
      rw [swapIdx_comm (swapIdx tabs.tabs i j), swapIdx_swapIdx hi hj]
    simp only [Node.swap, Node.mapSplit, Node.mapTabs, TabsNode.swap, htabs]
    congr 2
    split_ifs <;> simp_all

theorem insertNode_self (h : s.nodes[parentId]? = some node) : s.insertNode parentId node = s := by
  have hnodes : s.nodes.insert parentId node = s.nodes := Table.insert_of_get? h
  rw [insertNode, hnodes]

theorem insertNode_insertNode (node' : Node) (h : s.nodes[parentId]? = some node) :
    (s.insertNode parentId node').insertNode parentId node = s := by
  have hnodes : (s.nodes.insert parentId node').insert parentId node = s.nodes := by
    rw [Table.insert_insert_self, Table.insert_of_get? h]
  rw [insertNode, insertNode, hnodes]

/-- The siblings are siblings still when their parent is changed, if it has the children it had. -/
theorem Sound.siblings_insertNode (h : s.Sound parentId node) {node' : Node}
    (hperm : node'.childIds.Perm node.childIds) (hfirst : first ∈ node.childIds)
    (hsecond : second ∈ node.childIds) :
    (s.insertNode parentId node').Siblings parentId node' first second := by
  have hget : (s.insertNode parentId node').nodes[parentId]? = some node' := by
    rw [insertNode, Table.get?_insert, if_pos rfl]
  refine ⟨hget, hperm.mem_iff.mpr hfirst, hperm.mem_iff.mpr hsecond, fun {childId} hmem ↦ ?_⟩
  have hmem := hperm.mem_iff.mp hmem
  obtain ⟨child, hchild, hparent, -⟩ := h.child hmem
  have hne : parentId ≠ childId := fun heq ↦ h.notSelf (heq ▸ hmem)
  have hchild' : (s.insertNode parentId node').nodes[childId]? = some child := by
    rw [insertNode, Table.get?_insert, if_neg hne, hchild]
  rw [nodeParent, node_eq_ok.mpr hchild', Answer.bind_ok, hparent]
  rfl

theorem Sound.swapSiblingNodes (h : s.Sound parentId node) (hnode : s.nodes[parentId]? = some node)
    (hfirst : first ∈ node.childIds) (hsecond : second ∈ node.childIds) :
    ∃ node', node.Reordered (Swapped first second) node' ∧
      ServerState.swapSiblingNodes first second s = (.ok (), s.insertNode parentId node') ∧
      ServerState.swapSiblingNodes first second (s.insertNode parentId node') = (.ok (), s) := by
  by_cases hne : first = second
  · -- nothing is to change, and nothing does
    have horder : Swapped first second node.childIds node.childIds := by
      rw [Swapped, hne, Equiv.swap_self, Equiv.coe_refl, List.map_id]
    have hswap : ServerState.swapSiblingNodes first second s = (.ok (), s) := by
      rw [ServerState.swapSiblingNodes, ServerState.rearrange, if_pos hne, Op.pure_apply]
    have hsame : s.insertNode parentId node = s := insertNode_self hnode
    exact ⟨node, h.reordered_refl horder hfirst, hsame.symm ▸ hswap, hsame.symm ▸ hswap⟩
  · obtain ⟨i, j, hi, hj, hswap⟩ := (h.siblings hnode hfirst hsecond).rearrange hne _ _
      SplitNode.swap TabsNode.swap
    have hilt := (List.getElem?_eq_some_iff.mp hi).1
    have hjlt := (List.getElem?_eq_some_iff.mp hj).1
    have hkids := childIds_swap hilt hjlt
    have hperm := swapIdx_perm hilt hjlt
    refine ⟨node.swap i j, h.reordered_swap hi hj, hswap, ?_⟩
    obtain ⟨j', i', hj', hi', hback⟩ := (h.siblings_insertNode (hkids ▸ hperm) hfirst
      hsecond).rearrange hne _ _ SplitNode.swap TabsNode.swap
    -- the two have changed places
    have hnodup : (swapIdx node.childIds i j).Nodup := hperm.nodup_iff.mpr h.nodup
    rw [hkids] at hj' hi'
    have hj'' : (swapIdx node.childIds i j)[j]? = some first := by
      rw [getElem?_swapIdx hilt hjlt, Equiv.swap_apply_right, hi]
    have hi'' : (swapIdx node.childIds i j)[i]? = some second := by
      rw [getElem?_swapIdx hilt hjlt, Equiv.swap_apply_left, hj]
    obtain rfl := eq_of_getElem? hnodup hj' hj''
    obtain rfl := eq_of_getElem? hnodup hi' hi''
    refine Eq.trans hback (congrArg (Prod.mk _) ?_)
    have hundone := h.swap_swap hilt hjlt
    rw [show ((node.swap i' j').mapSplit (SplitNode.swap j' i')).mapTabs (TabsNode.swap j' i') =
      node from hundone]
    exact insertNode_insertNode _ hnode

/-! ### Moves -/

theorem Sound.reordered_reorder (h : s.Sound parentId node) (hne : first ≠ second)
    (hi : node.childIds[i]? = some first) (hj : node.childIds[j]? = some second) :
    node.Reordered (MovedNextTo first second before) (node.reorder before i j) := by
  cases node with
  | bufferView view => cases hi
  | split split => exact SplitNode.reordered_reorder hne h.nodup h.length_sizes hi hj
  | tabs tabs =>
    exact TabsNode.reordered_reorder hne h.nodup (h.active_lt (List.mem_of_getElem? hi)) hi hj

theorem Sound.reorderSiblingNode (h : s.Sound parentId node)
    (hnode : s.nodes[parentId]? = some node) (hfirst : first ∈ node.childIds)
    (hsecond : second ∈ node.childIds) :
    ∃ node', node.Reordered (MovedNextTo first second before) node' ∧
      ServerState.reorderSiblingNode first second before s =
        (.ok (), s.insertNode parentId node') := by
  by_cases hne : first = second
  · have horder : MovedNextTo first second before node.childIds node.childIds := by
      rw [MovedNextTo, if_pos hne]
    refine ⟨node, h.reordered_refl horder hfirst, ?_⟩
    rw [ServerState.reorderSiblingNode, ServerState.rearrange, if_pos hne, Op.pure_apply,
      insertNode_self hnode]
  · obtain ⟨i, j, hi, hj, hmove⟩ := (h.siblings hnode hfirst hsecond).rearrange hne _ _
      (SplitNode.reorder before) (TabsNode.reorder before)
    exact ⟨node.reorder before i j, h.reordered_reorder hne hi hj, hmove⟩

/-- In a valid state, swapping two children of a container and moving one next to the other change
nothing but the order of the container's children, and a second swap undoes the first. -/
theorem siblings_reordered {fuel : ℕ} (hvalid : s.validate fuel = .ok ())
    (hnode : s.nodes[parentId]? = some node) (hfirst : first ∈ node.childIds)
    (hsecond : second ∈ node.childIds) :
    (∃ node', node.Reordered (Swapped first second) node' ∧
      ServerState.swapSiblingNodes first second s = (.ok (), s.insertNode parentId node') ∧
      ServerState.swapSiblingNodes first second (s.insertNode parentId node') = (.ok (), s)) ∧
    ∀ before, ∃ node', node.Reordered (MovedNextTo first second before) node' ∧
      ServerState.reorderSiblingNode first second before s =
        (.ok (), s.insertNode parentId node') := by
  have hsound := sound_of_validate hvalid hnode (List.ne_nil_of_mem hfirst)
  exact ⟨hsound.swapSiblingNodes hnode hfirst hsecond,
    fun _ ↦ hsound.reorderSiblingNode hnode hfirst hsecond⟩

/-- A session whose first tab is split into two panes and whose second tab is a pane. -/
def splitAndPane : ServerState :=
  ((do
    let sessionId ← createSession "work" ⟨0⟩
    let first ← createBufferWithEnv "shell" [] none ∅ ⟨0⟩
    let _ ← addRootTabFromBuffer 8 sessionId "shell" first
    let second ← createBufferWithEnv "shell" [] none ∅ ⟨0⟩
    let _ ← splitLeafWithNewBuffer 8 2 .horizontal second
    let third ← createBufferWithEnv "shell" [] none ∅ ⟨0⟩
    addRootTabFromBuffer 8 sessionId "shell" third : StateOp ℕ) ServerState.new).2

theorem siblings_reordered_panes : ∃ node, splitAndPane.nodes[(4 : NodeId)]? = some node ∧
    ∃ node', node.Reordered (Swapped 2 3) node' ∧
      ServerState.swapSiblingNodes 2 3 splitAndPane = (.ok (), splitAndPane.insertNode 4 node') ∧
      ServerState.swapSiblingNodes 2 3 (splitAndPane.insertNode 4 node') =
        (.ok (), splitAndPane) := by
  have hkids : splitAndPane.nodes[(4 : NodeId)]?.map Node.childIds = some [2, 3] := by
    decide +kernel
  obtain ⟨node, hnode, hchildren⟩ := Option.map_eq_some_iff.mp hkids
  have hvalid : splitAndPane.validate 8 = .ok () := by decide +kernel
  exact ⟨node, hnode, (siblings_reordered hvalid hnode (hchildren ▸ List.mem_cons_self)
    (hchildren ▸ List.mem_cons_of_mem _ List.mem_cons_self)).1⟩

end ServerState

end Embers
