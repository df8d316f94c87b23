import Embers.Client.SplitResize

/-!
# Splits drawn again

The new lengths of a split are stored as its weights and the session is drawn again. Above the split
nothing has changed, so it is drawn where it was, with lengths in proportion to the weights. The
weights are the lengths, and 1 for a child without cells: they add up to what there is to share
exactly when every child has a cell, and only then is every share the weight itself.
-/

namespace Embers.Client

open Protocol

/-! ## Shares -/

section

variable {total weightSum used : ℕ} {weights lengths : List ℕ}

/-- Shares of weights that add up to what is shared. -/
theorem shares_exact (htotal : total < 2 ^ 16) (hpos : 0 < total) (hsum : used + weights.sum = total)
    (h : shares total total weights used = .ok lengths) : lengths = weights := by
  induction weights generalizing used lengths with
  | nil => exact (Except.ok.inj h).symm
  | cons weight weights ih =>
    rw [List.sum_cons] at hsum
    cases weights with
    | nil =>
      obtain rfl := Except.ok.inj h
      rw [List.sum_nil] at hsum
      congr 1
      omega
    | cons weight' weights =>
      obtain ⟨product, hproduct, h⟩ := Answer.ok_bind h
      obtain ⟨-, rfl⟩ := sumBits_eq_ok.mp hproduct
      obtain ⟨rest, hrest, h⟩ := Answer.ok_bind h
      obtain rfl := Except.ok.inj h
      have hshare : [total * weight].sum / total % 2 ^ 16 = weight := by
        rw [List.sum_singleton, Nat.mul_div_cancel_left _ hpos]
        omega
      have hused : add16 used weight = used + weight := by
        rw [add16]
        omega
      rw [hshare, hused] at hrest
      rw [hshare, ih (by omega) hrest]

/-- Among weights that add up to more than what is shared, only the last can get its weight. -/
theorem shares_short (hmore : total < weightSum) (h : shares total weightSum weights used = .ok lengths)
    {i : ℕ} (hi : i + 1 < weights.length) (hweight : weights.getD i 0 ≠ 0) :
    lengths.getD i 0 < weights.getD i 0 := by
  induction weights generalizing used lengths i with
  | nil => exact absurd hi (Nat.not_lt_zero _)
  | cons weight weights ih =>
    cases weights with
    | nil =>
      rw [List.length_singleton] at hi
      omega
    | cons weight' weights =>
      obtain ⟨product, hproduct, h⟩ := Answer.ok_bind h
      obtain ⟨-, rfl⟩ := sumBits_eq_ok.mp hproduct
      obtain ⟨rest, hrest, h⟩ := Answer.ok_bind h
      obtain rfl := Except.ok.inj h
      cases i with
      | zero =>
        rw [List.getD_cons_zero, List.getD_cons_zero, List.sum_singleton]
        rw [List.getD_cons_zero] at hweight
        have hless : total * weight / weightSum < weight := by
          rw [Nat.div_lt_iff_lt_mul (by omega), Nat.mul_comm weight]
          exact Nat.mul_lt_mul_of_pos_right hmore (Nat.pos_of_ne_zero hweight)
        exact (Nat.mod_le _ _).trans_lt hless
      | succ i =>
        rw [List.getD_cons_succ] at hweight ⊢
        rw [List.getD_cons_succ]
        rw [List.length_cons] at hi
        exact ih hrest (by omega) hweight

/-- The lengths are the shares, since these leave nothing over. -/
theorem shares_of_proportionalLengths {sizes : List UInt16} {childCount : ℕ} (htotal : total < 2 ^ 16)
    (hpos : 0 < total) (hcount : childCount ≠ 0)
    (h : proportionalLengths total sizes childCount = .ok lengths) :
    shares total (max (weightsOf sizes childCount).sum 1) (weightsOf sizes childCount) 0 =
      .ok lengths := by
  rw [proportionalLengths, if_neg hcount, if_neg (by omega)] at h
  obtain ⟨weightSum, hweightSum, h⟩ := Answer.ok_bind h
  obtain ⟨-, rfl⟩ := sumBits_eq_ok.mp hweightSum
  obtain ⟨lengths', hshares, h⟩ := Answer.ok_bind h
  obtain ⟨sum, hsum, h⟩ := Answer.ok_bind h
  obtain ⟨-, rfl⟩ := sumBits_eq_ok.mp hsum
  have hweights : weightsOf sizes childCount ≠ [] := by
    rw [← List.length_pos_iff, length_weightsOf]
    exact Nat.pos_of_ne_zero hcount
  obtain ⟨lengths'', hshares', -, htotal'⟩ := @shares_ok total _ htotal
    (Nat.lt_of_lt_of_le Nat.zero_lt_one (Nat.le_max_right (weightsOf sizes childCount).sum 1)) _ 0 0
    hweights lt_of_mem_weightsOf (Nat.le_of_eq (by omega)) (by omega)
  obtain rfl : lengths'' = lengths' := Except.ok.inj (hshares'.symm.trans hshares)
  have hnone : total - lengths''.sum = 0 := by omega
  rw [hnone] at h
  obtain rfl := Except.ok.inj h
  exact hshares

end

/-! ## The moved divider, drawn again -/

/-- The weights that are sent for some lengths. -/
def tokenWeights (lengths : List ℕ) : List UInt16 := lengths.map fun length ↦ .ofNat (max length 1)

section

variable {moved lengths' : List ℕ}

theorem toNat_tokenWeights (h : moved.sum < 2 ^ 16) :
    (tokenWeights moved).map (·.toNat) = moved.map (max · 1) := by
  rw [tokenWeights, List.map_map]
  refine List.map_congr_left fun length hlength ↦ ?_
  have hle := List.single_le_sum (fun _ _ ↦ Nat.zero_le _) length hlength
  exact UInt16.toNat_ofNat_of_lt' (by simp only [UInt16.size]; omega)

theorem weightsOf_tokenWeights (h : moved.sum < 2 ^ 16) (hne : moved ≠ []) :
    weightsOf (tokenWeights moved) moved.length = moved.map (max · 1) := by
  have hnat := toNat_tokenWeights h
  obtain ⟨length, rest, rfl⟩ := List.exists_cons_of_ne_nil hne
  have hpos : (tokenWeights (length :: rest)).any (· > 0) = true := by
    rw [List.any_eq_true]
    refine ⟨_, List.mem_cons_self, ?_⟩
    have hhead : (UInt16.ofNat (max length 1)).toNat = max length 1 := (List.cons.inj hnat).1
    rw [decide_eq_true_eq, gt_iff_lt, UInt16.lt_iff_toNat_lt]
    change 0 < (UInt16.ofNat (max length 1)).toNat
    rw [hhead]
    exact Nat.lt_of_lt_of_le Nat.zero_lt_one (Nat.le_max_right _ _)
  rw [weightsOf, if_pos ⟨List.length_map _, hpos⟩, hnat]

theorem sum_map_max (moved : List ℕ) :
    (moved.map (max · 1)).sum = moved.sum + moved.count 0 := by
  induction moved with
  | nil => rfl
  | cons length moved ih =>
    rw [List.map_cons, List.sum_cons, List.sum_cons, ih, List.count_cons]
    split
    · next hzero =>
      have hzero : length = 0 := by simpa using hzero
      omega
    · next hsome =>
      have hsome : length ≠ 0 := by simpa using hsome
      omega

/-- Drawn again the children have the lengths when each of them has a cell. Two of them are known to
have one, so that not only the last does. -/
theorem proportionalLengths_tokenWeights {i j : ℕ} (hij : i ≠ j) (hi : i < moved.length)
    (hj : j < moved.length) (hmovedi : moved.getD i 0 ≠ 0) (hmovedj : moved.getD j 0 ≠ 0)
    (hsum : moved.sum < 2 ^ 16)
    (h : proportionalLengths moved.sum (tokenWeights moved) moved.length = .ok lengths') :
    lengths' = moved ↔ 0 ∉ moved := by
  have hne : moved ≠ [] := List.ne_nil_of_length_pos (by omega)
  have hpos : 0 < moved.sum := by
    have hle := getD_le_sum hi
    omega
  have hshares := shares_of_proportionalLengths hsum hpos (by omega) h
  rw [weightsOf_tokenWeights hsum hne, sum_map_max] at hshares
  constructor
  · intro heq hzero
    -- One of the two is not the last child.
    obtain ⟨k, hk, hmovedk⟩ : ∃ k, k + 1 < moved.length ∧ moved.getD k 0 ≠ 0 := by
      rcases Nat.lt_or_ge (i + 1) moved.length with hlt | hge
      · exact ⟨i, hlt, hmovedi⟩
      · exact ⟨j, by omega, hmovedj⟩
    have hcount : 0 < moved.count 0 := List.count_pos_iff.mpr hzero
    have hweight : (moved.map (max · 1)).getD k 0 = moved.getD k 0 := by
      rw [List.getD_eq_getElem _ _ (by rw [List.length_map]; omega), List.getElem_map]
      rw [List.getD_eq_getElem _ _ (by omega)] at hmovedk ⊢
      omega
    have hshort := shares_short (i := k) (by omega) hshares (by rw [List.length_map]; omega)
      (by rw [hweight]; exact hmovedk)
    rw [hweight, heq] at hshort
    exact Nat.lt_irrefl _ hshort
  · intro hsome
    have hcount : moved.count 0 = 0 := List.count_eq_zero.mpr hsome
    have hweights : moved.map (max · 1) = moved := by
      refine (List.map_congr_left fun length hlength ↦ ?_).trans (List.map_id _)
      have hcell : length ≠ 0 := fun heq ↦ hsome (heq ▸ hlength)
      rw [id_eq]
      omega
    rw [hcount, hweights, Nat.add_zero, Nat.max_eq_left hpos] at hshares
    exact shares_exact hsum hpos (Nat.zero_add _) hshares

end

/-! ## Sizes that are stored -/

/-- A node with other sizes for its children. -/
def resizedNode (sizes : List UInt16) (node : NodeRecord) : NodeRecord :=
  { node with split := node.split.map fun split ↦ { split with sizes := sizes } }

/-- What the client has of the server's state once the server has taken the sizes. -/
def storeSizes (c : ClientState) (resize : SplitResize) : ClientState :=
  { c with nodes := c.nodes.modify resize.splitNodeId (resizedNode resize.sizes) }

/-- Every node is under its own id. -/
def NodesFiled (c : ClientState) : Prop :=
  ∀ (id : NodeId) (node : NodeRecord), c.nodes[id]? = some node → node.id = id

/-- No split has more children than there can be in a message. -/
def FewChildren (c : ClientState) : Prop :=
  ∀ (id : NodeId) (node : NodeRecord) (split : SplitRecord),
    c.nodes[id]? = some node → node.split = some split → split.childIds.length ≤ 2 ^ 29

section

variable {c : ClientState} {resize : SplitResize} {id : NodeId} {node : NodeRecord}

theorem get?_storeSizes_self (hnode : c.nodes[resize.splitNodeId]? = some node) :
    (storeSizes c resize).nodes[resize.splitNodeId]? = some (resizedNode resize.sizes node) := by
  rw [storeSizes, Table.get?_modify, if_pos rfl, hnode]
  rfl

theorem get?_storeSizes_other (hne : resize.splitNodeId ≠ id) :
    (storeSizes c resize).nodes[id]? = c.nodes[id]? := by
  rw [storeSizes, Table.get?_modify, if_neg hne]

variable (resize)

/-- A node afterwards, up to the sizes of its children. -/
theorem exists_get?_storeSizes (hnode : c.nodes[id]? = some node) :
    ∃ sizes : SplitRecord → List UInt16, (storeSizes c resize).nodes[id]? =
      some { node with split := node.split.map fun split ↦ { split with sizes := sizes split } } := by
  by_cases hid : resize.splitNodeId = id
  · subst hid
    exact ⟨fun _ ↦ resize.sizes, get?_storeSizes_self hnode⟩
  · refine ⟨SplitRecord.sizes, (get?_storeSizes_other hid).trans (hnode.trans ?_)⟩
    cases node with
    | mk id sessionId parentId kind view split tabs focus => cases split <;> rfl

theorem Grown.storeSizes (h : Grown c id) : Grown (storeSizes c resize) id := by
  induction h with
  | view hnode hkind hview hbuffer =>
    obtain ⟨sizes, hnode'⟩ := exists_get?_storeSizes resize hnode
    exact .view hnode' hkind hview hbuffer
  | tabs hnode hkind htabs hactive _ ih =>
    obtain ⟨sizes, hnode'⟩ := exists_get?_storeSizes resize hnode
    exact .tabs hnode' hkind htabs hactive ih
  | split hnode hkind hsplit _ ih =>
    obtain ⟨sizes, hnode'⟩ := exists_get?_storeSizes resize hnode
    exact .split hnode' hkind (congrArg (Option.map _) hsplit) ih

theorem FewChildren.storeSizes (h : FewChildren c) : FewChildren (storeSizes c resize) := by
  intro id node' split' hnode' hsplit'
  cases hnode : c.nodes[id]? with
  | none =>
    rw [Client.storeSizes, Table.get?_modify, hnode] at hnode'
    split at hnode' <;> cases hnode'
  | some node =>
    obtain ⟨sizes, heq⟩ := exists_get?_storeSizes resize hnode
    obtain rfl := Option.some.inj (heq.symm.trans hnode')
    obtain ⟨split, hsplit, rfl⟩ := Option.map_eq_some_iff.mp hsplit'
    exact h id node split hnode hsplit

end

/-! ## Drawing succeeds -/

section

variable {c : ClientState} {focused : Option NodeId} {layout : LayoutOptions} {rect : Rect}
  {direction : SplitDirection} {sizes : List UInt16} {childCount : ℕ}

variable (direction sizes) in
/-- The children of a split have their shares of its length, with or without room for the dividers. -/
theorem splitRects_strips (hscreen : OnScreen rect) (hcount : childCount ≠ 0)
    (hfew : childCount ≤ 2 ^ 29) :
    ∃ lengths, proportionalLengths (axisLength rect direction - min (childCount - 1) 65535) sizes
        childCount = .ok lengths ∧ Lengths rect direction childCount lengths ∧
      splitRects rect direction sizes childCount = .ok (childStrips rect direction lengths 0) := by
  have haxis := hscreen.axisLength_lt direction
  have hweights : axisLength rect direction - min (childCount - 1) 65535 = 0 ∨
      (weightsOf sizes childCount).sum < 2 ^ 32 := by
    rcases Nat.lt_or_ge 65536 childCount with hmany | hle
    · exact .inl (by omega)
    · exact .inr (sum_weightsOf_lt hle)
  obtain ⟨lengths, hlengths, hlength, hsum⟩ := proportionalLengths_ok (by omega) hcount hweights
  have hplace : placeChildren rect direction lengths _ _ = _ :=
    placeChildren_ok (a := 0) hscreen (by omega)
  rw [strip_zero_origin.1, strip_zero_origin.2] at hplace
  refine ⟨lengths, hlengths, ⟨hlength, hsum⟩, ?_⟩
  rw [splitRects, if_neg hcount]
  dsimp only
  rw [hlengths, Answer.bind_ok]
  exact hplace

theorem exists_projectChildren {project : NodeId → Rect → Answer ProjectError Projection}
    {splitNodeId : NodeId} (hscreen : OnScreen rect) {lengths : List ℕ} {children : List NodeId}
    {index a : ℕ} (hroom : a + lengths.sum + lengths.length ≤ 2 ^ 30)
    (hproject : ∀ child ∈ children.zip (childStrips rect direction lengths a),
      ∃ p, project child.1 child.2 = .ok p) :
    ∃ p, projectChildren project direction splitNodeId childCount index
      (children.zip (childStrips rect direction lengths a)) = .ok p := by
  induction lengths generalizing children index a with
  | nil =>
    rw [childStrips, List.zip_nil_right]
    exact ⟨_, rfl⟩
  | cons length lengths ih =>
    cases children with
    | nil => exact ⟨_, rfl⟩
    | cons child children =>
      rw [List.sum_cons, List.length_cons] at hroom
      obtain ⟨⟨p, hp⟩, hrest⟩ := List.forall_mem_cons.mp hproject
      obtain ⟨q, hq⟩ := @ih children (index + 1) _ (by omega) hrest
      obtain ⟨divider, hdivider⟩ : ∃ divider, dividerRectFor direction
          (rect.strip direction a length) index childCount = .ok divider := by
        by_cases hlast : index + 1 = childCount
        · exact ⟨none, if_pos hlast⟩
        · exact ⟨_, dividerRectFor_ok hscreen (by omega) hlast⟩
      refine ⟨p ++ ⟨[], [], divider.toList.map fun rect ↦ ⟨direction, rect, splitNodeId, index⟩, []⟩ ++ q,
        ?_⟩
      change (project child (rect.strip direction a length) >>= _) = _
      rw [hp, Answer.bind_ok, hdivider, Answer.bind_ok]
      change (projectChildren project direction splitNodeId childCount (index + 1)
        (children.zip (childStrips rect direction lengths (a + length + 1))) >>= _) = _
      rw [hq]
      rfl

/-- A cached tree is drawn, whatever the rectangle. -/
theorem Grown.projects {id : NodeId} (h : Grown c id) (hfew : FewChildren c) {isRoot : Bool}
    (hrect : OnScreen rect ∨ rect.width = 0 ∨ rect.height = 0) :
    ∃ n, ∀ fuel ≥ n, ∃ p, projectNode c focused layout fuel id rect isRoot = .ok p := by
  have hnone : ∀ {id : NodeId} {rect : Rect} {isRoot : Bool},
      (∀ fuel, projectNode c focused layout (fuel + 1) id rect isRoot = .ok .empty) →
      ∃ n, ∀ fuel ≥ n, ∃ p, projectNode c focused layout fuel id rect isRoot = .ok p := by
    intro id rect isRoot h
    refine ⟨1, fun fuel hfuel ↦ ?_⟩
    obtain ⟨fuel, rfl⟩ := Nat.exists_eq_add_of_le' hfuel
    exact ⟨_, h fuel⟩
  induction h generalizing rect isRoot with
  | view hnode hkind hview hbuffer =>
    by_cases hempty : rect.width = 0 ∨ rect.height = 0
    · exact hnone fun _ ↦ projectNode_empty hempty
    obtain ⟨⟨titleRect, contentRect⟩, htitle⟩ : ∃ rects, splitTitleRow rect layout.paneTitles =
      .ok rects := splitTitleRow_ok (hrect.resolve_right hempty)
    refine ⟨1, fun fuel hfuel ↦ ?_⟩
    obtain ⟨fuel, rfl⟩ := Nat.exists_eq_add_of_le' hfuel
    exact ⟨_, projectNode_view hempty hnode hkind hview hbuffer htitle⟩
  | @tabs id node tabs hnode hkind htabs hactive _ ih =>
    by_cases hempty : rect.width = 0 ∨ rect.height = 0
    · exact hnone fun _ ↦ projectNode_empty hempty
    have hscreen := hrect.resolve_right hempty
    obtain ⟨bar, content, hbar, hparts⟩ := @splitTabBar_ok _ layout.tabBar isRoot hscreen
      (not_or.mp hempty).2
    have htab : tabs.tabs[tabs.active.toNat]? = some (tabs.tabs[tabs.active.toNat]) :=
      List.getElem?_eq_getElem hactive
    obtain ⟨n, hn⟩ := @ih _ (List.getElem_mem hactive) _ false
      (.inl (hscreen.of_inside hparts.content_inside))
    refine ⟨n + 1, fun fuel hfuel ↦ ?_⟩
    obtain ⟨fuel, rfl⟩ : ∃ k, fuel = k + 1 := ⟨fuel - 1, by omega⟩
    obtain ⟨p, hp⟩ := hn fuel (by omega)
    refine ⟨⟨[barFrame c fuel node tabs bar isRoot], [], [], []⟩ ++ p, ?_⟩
    rw [projectNode_tabs hempty hnode hkind htabs htab hbar, hp]
    rfl
  | @split id node split hnode hkind hsplit _ ih =>
    by_cases hempty : rect.width = 0 ∨ rect.height = 0
    · exact hnone fun _ ↦ projectNode_empty hempty
    by_cases hchildren : split.childIds = []
    · exact hnone fun _ ↦ projectNode_split_nil hempty hnode hkind hsplit hchildren
    have hscreen := hrect.resolve_right hempty
    have hcount : split.childIds.length ≠ 0 := fun h ↦ hchildren (List.eq_nil_of_length_eq_zero h)
    have hbound := hfew id node split hnode hsplit
    obtain ⟨lengths, -, hlengths, hrects⟩ := splitRects_strips split.direction split.sizes
      hscreen hcount hbound
    have haxis := hscreen.axisLength_lt split.direction
    have hlength := hlengths.length
    have hsum := hlengths.sum
    have hall : ∀ child ∈ split.childIds.zip (childStrips rect split.direction lengths 0), ∃ n,
        ∀ fuel ≥ n, ∃ p, projectNode c focused layout fuel child.1 child.2 false = .ok p := by
      intro child hchild
      obtain ⟨hmem, hstrip⟩ := List.of_mem_zip hchild
      exact ih child.1 hmem ((inside_or_empty_of_splitRects hscreen hrects hstrip).imp_left
        hscreen.of_inside)
    obtain ⟨n, hn⟩ := exists_fuel hall
    refine ⟨n + 1, fun fuel hfuel ↦ ?_⟩
    obtain ⟨fuel, rfl⟩ : ∃ k, fuel = k + 1 := ⟨fuel - 1, by omega⟩
    obtain ⟨q, hq⟩ := @exists_projectChildren rect split.direction
      split.childIds.length (fun child rect ↦ projectNode c focused layout fuel child rect false)
      node.id hscreen lengths split.childIds 0 0 (by omega) (hn fuel (by omega))
    refine ⟨⟨[], [], [], [⟨node.id, split.direction, rect, split.childIds,
      (childStrips rect split.direction lengths 0).map (axisLength · split.direction)⟩]⟩ ++ q, ?_⟩
    rw [projectNode_split hempty hnode hkind hsplit hchildren, hrects, Answer.bind_ok, hq]
    rfl

end

/-! ## Before and after -/

/-- A split drawn twice at the same place, the second time with some sizes. -/
structure Redrawn (sizes : List UInt16) (frame frame' : SplitFrame) : Prop where
  screen : OnScreen frame.rect
  nodeId : frame'.nodeId = frame.nodeId
  direction : frame'.direction = frame.direction
  rect : frame'.rect = frame.rect
  childIds : frame'.childIds = frame.childIds
  before : Lengths frame.rect frame.direction frame.childIds.length frame.lengths
  after : proportionalLengths (axisLength frame.rect frame.direction -
    min (frame.childIds.length - 1) 65535) sizes frame.childIds.length = .ok frame'.lengths

/-- The first frame of a split. -/
def splitFrame (splitNodeId : NodeId) (p : Projection) : Option SplitFrame :=
  p.splits.find? (·.nodeId = splitNodeId)

section

variable {α β : Type} {R : α → β → Prop}

theorem rel_or {a a' : Option α} {b b' : Option β} (h : Option.Rel R a b) (h' : Option.Rel R a' b') :
    Option.Rel R (a.or a') (b.or b') := by
  cases h with
  | none => exact h'
  | some h => exact .some h

end

section

variable {c : ClientState} {resize : SplitResize} {focused : Option NodeId} {layout : LayoutOptions}

theorem splitFrame_append (id : NodeId) (p q : Projection) :
    splitFrame id (p ++ q) = (splitFrame id p).or (splitFrame id q) :=
  List.find?_append

theorem redrawn_projectChildren {project project' : NodeId → Rect → Answer ProjectError Projection}
    {R : SplitFrame → SplitFrame → Prop} {direction : SplitDirection} {id splitNodeId : NodeId}
    {childCount : ℕ} {children : List (NodeId × Rect)} {index : ℕ} {q q' : Projection}
    (hchildren : ∀ child ∈ children, ∀ p p', project child.1 child.2 = .ok p →
      project' child.1 child.2 = .ok p' → Option.Rel R (splitFrame id p) (splitFrame id p'))
    (h : projectChildren project direction splitNodeId childCount index children = .ok q)
    (h' : projectChildren project' direction splitNodeId childCount index children = .ok q') :
    Option.Rel R (splitFrame id q) (splitFrame id q') := by
  induction children generalizing index q q' with
  | nil =>
    obtain rfl := Except.ok.inj h
    obtain rfl := Except.ok.inj h'
    exact .none
  | cons child children ih =>
    obtain ⟨p, hp, h⟩ := Answer.ok_bind h
    obtain ⟨divider, -, h⟩ := Answer.ok_bind h
    obtain ⟨others, hothers, h⟩ := Answer.ok_bind h
    obtain rfl := Except.ok.inj h
    obtain ⟨p', hp', h'⟩ := Answer.ok_bind h'
    obtain ⟨divider', -, h'⟩ := Answer.ok_bind h'
    obtain ⟨others', hothers', h'⟩ := Answer.ok_bind h'
    obtain rfl := Except.ok.inj h'
    obtain ⟨hchild, hrest⟩ := List.forall_mem_cons.mp hchildren
    rw [splitFrame_append, splitFrame_append, splitFrame_append, splitFrame_append]
    exact rel_or (rel_or (hchild p p' hp hp') .none) (ih hrest hothers hothers')

/-- Up to the split nothing is drawn elsewhere, and the split is drawn with the sizes. -/
theorem redrawn_projectNode (hfiled : NodesFiled c) (hfew : FewChildren c) {fuel fuel' : ℕ}
    {id : NodeId} {rect : Rect} {isRoot : Bool} {p p' : Projection} (hscreen : OnScreen rect)
    (hp : projectNode c focused layout fuel id rect isRoot = .ok p)
    (hp' : projectNode (storeSizes c resize) focused layout fuel' id rect isRoot = .ok p') :
    Option.Rel (Redrawn resize.sizes) (splitFrame resize.splitNodeId p)
      (splitFrame resize.splitNodeId p') := by
  induction fuel generalizing fuel' id rect isRoot p p' with
  | zero => cases hp
  | succ fuel ih =>
    cases fuel' with
    | zero => cases hp'
    | succ fuel' =>
    by_cases hempty : rect.width = 0 ∨ rect.height = 0
    · rw [projectNode_empty hempty] at hp hp'
      obtain rfl := Except.ok.inj hp
      obtain rfl := Except.ok.inj hp'
      exact .none
    rw [projectNode, if_neg hempty] at hp
    obtain ⟨node, hnode, hp⟩ := Answer.ok_bind hp
    replace hnode := Answer.ofOption_eq_ok.mp hnode
    obtain ⟨sizes, hnode'⟩ := exists_get?_storeSizes resize hnode
    cases hkind : node.kind with
    | bufferView =>
      simp only [hkind] at hp
      obtain ⟨view, hview, hp⟩ := Answer.ok_bind hp
      obtain ⟨buffer, hbuffer, hp⟩ := Answer.ok_bind hp
      obtain ⟨rects, -, hp⟩ := Answer.ok_bind hp
      obtain rfl := Except.ok.inj hp
      obtain ⟨titleRect, content, -, rfl⟩ := exists_of_projectNode_view hempty hnode' hkind
        (Answer.ofOption_eq_ok.mp hview) (Answer.ofOption_eq_ok.mp hbuffer) hp'
      exact .none
    | tabs =>
      simp only [hkind] at hp
      obtain ⟨tabs, htabs, hp⟩ := Answer.ok_bind hp
      obtain ⟨active, hactive, hp⟩ := Answer.ok_bind hp
      obtain ⟨⟨bar, content⟩, hbar, hp⟩ := Answer.ok_bind hp
      obtain ⟨q, hq, hp⟩ := Answer.ok_bind hp
      obtain rfl := Except.ok.inj hp
      obtain ⟨bar', content', q', hbar', hq', rfl⟩ := exists_of_projectNode_tabs hempty hnode' hkind
        (Answer.ofOption_eq_ok.mp htabs) (Answer.ofOption_eq_ok.mp hactive) hp'
      obtain ⟨bar'', content'', hok, hparts⟩ := splitTabBar_ok hscreen (not_or.mp hempty).2
      obtain ⟨rfl, rfl⟩ := Prod.mk.inj (Except.ok.inj (hok.symm.trans hbar))
      obtain ⟨rfl, rfl⟩ := Prod.mk.inj (Except.ok.inj (hok.symm.trans hbar'))
      rw [splitFrame_append, splitFrame_append]
      exact rel_or .none (ih (hscreen.of_inside hparts.content_inside) hq hq')
    | split =>
      simp only [hkind] at hp
      obtain ⟨split, hsplit, hp⟩ := Answer.ok_bind hp
      replace hsplit := Answer.ofOption_eq_ok.mp hsplit
      by_cases hnil : split.childIds = []
      · rw [if_pos hnil] at hp
        obtain rfl := Except.ok.inj hp
        rw [projectNode_split_nil hempty hnode' hkind (congrArg (Option.map _) hsplit) hnil] at hp'
        obtain rfl := Except.ok.inj hp'
        exact .none
      rw [if_neg hnil] at hp
      obtain ⟨rects, hrects, hp⟩ := Answer.ok_bind hp
      obtain ⟨q, hq, hp⟩ := Answer.ok_bind hp
      obtain rfl := Except.ok.inj hp
      have hid := hfiled id node hnode
      have hcount : split.childIds.length ≠ 0 := fun h ↦ hnil (List.eq_nil_of_length_eq_zero h)
      have hbound := hfew id node split hnode hsplit
      by_cases hsame : resize.splitNodeId = id
      · -- The split itself: its frame comes first in both.
        subst hsame
        rw [projectNode_split hempty (get?_storeSizes_self hnode) hkind
          (congrArg (Option.map _) hsplit) hnil] at hp'
        obtain ⟨rects', hrects', hp'⟩ := Answer.ok_bind hp'
        obtain ⟨q', -, hp'⟩ := Answer.ok_bind hp'
        obtain rfl := Except.ok.inj hp'
        obtain ⟨lengths, -, hlengths, hok⟩ := splitRects_strips split.direction
          split.sizes hscreen hcount hbound
        obtain rfl := Except.ok.inj (hok.symm.trans hrects)
        obtain ⟨lengths', hlengths', -, hok'⟩ := splitRects_strips split.direction
          resize.sizes hscreen hcount hbound
        obtain rfl := Except.ok.inj (hok'.symm.trans hrects')
        have hfirst : ∀ {frame : SplitFrame} {r : Projection}, frame.nodeId = resize.splitNodeId →
            splitFrame resize.splitNodeId (⟨[], [], [], [frame]⟩ ++ r) = some frame :=
          fun h ↦ List.find?_cons_of_pos (decide_eq_true h)
        rw [hfirst hid, hfirst hid, lengths_childStrips, lengths_childStrips]
        exact .some ⟨hscreen, rfl, rfl, rfl, rfl, hlengths, hlengths'⟩
      · rw [projectNode_split hempty ((get?_storeSizes_other hsame).trans hnode) hkind hsplit hnil,
          hrects, Answer.bind_ok] at hp'
        obtain ⟨q', hq', hp'⟩ := Answer.ok_bind hp'
        obtain rfl := Except.ok.inj hp'
        have hother : ∀ {frame : SplitFrame} {r : Projection}, frame.nodeId = node.id →
            splitFrame resize.splitNodeId (⟨[], [], [], [frame]⟩ ++ r) =
              splitFrame resize.splitNodeId r := by
          intro frame r hframe
          refine List.find?_cons_of_neg ?_
          rw [decide_eq_true_eq, hframe, hid]
          exact Ne.symm hsame
        rw [hother rfl, hother rfl]
        refine redrawn_projectChildren (fun child hchild p p' hp hp' ↦ ?_) hq hq'
        rcases inside_or_empty_of_splitRects hscreen hrects (List.of_mem_zip hchild).2 with hin | hno
        · exact ih (hscreen.of_inside hin) hp hp'
        · cases fuel with
          | zero => cases hp
          | succ fuel =>
          cases fuel' with
          | zero => cases hp'
          | succ fuel' =>
          rw [projectNode_empty hno] at hp hp'
          obtain rfl := Except.ok.inj hp
          obtain rfl := Except.ok.inj hp'
          exact .none

end

/-! ## Axes of frames -/

/-- The frame of a split goes along the axis that the split has. -/
def Recorded (c : ClientState) (frame : SplitFrame) : Prop :=
  ∃ node split, c.nodes[frame.nodeId]? = some node ∧ node.split = some split ∧
    frame.direction = split.direction

section

variable {c : ClientState} {focused : Option NodeId} {layout : LayoutOptions}

theorem recorded_projectChildren {project : NodeId → Rect → Answer ProjectError Projection}
    {direction : SplitDirection} {splitNodeId : NodeId} {childCount : ℕ}
    {children : List (NodeId × Rect)} {index : ℕ} {q : Projection}
    (hchildren : ∀ child ∈ children, ∀ p, project child.1 child.2 = .ok p →
      ∀ frame ∈ p.splits, Recorded c frame)
    (h : projectChildren project direction splitNodeId childCount index children = .ok q) :
    ∀ frame ∈ q.splits, Recorded c frame := by
  induction children generalizing index q with
  | nil =>
    obtain rfl := Except.ok.inj h
    exact List.forall_mem_nil _
  | cons child children ih =>
    obtain ⟨p, hp, h⟩ := Answer.ok_bind h
    obtain ⟨divider, -, h⟩ := Answer.ok_bind h
    obtain ⟨others, hothers, h⟩ := Answer.ok_bind h
    obtain rfl := Except.ok.inj h
    obtain ⟨hchild, hrest⟩ := List.forall_mem_cons.mp hchildren
    refine List.forall_mem_append.mpr ⟨List.forall_mem_append.mpr ⟨hchild p hp, ?_⟩, ih hrest hothers⟩
    exact List.forall_mem_nil _

theorem recorded_projectNode (hfiled : NodesFiled c) {fuel : ℕ} {id : NodeId} {rect : Rect}
    {isRoot : Bool} {p : Projection}
    (h : projectNode c focused layout fuel id rect isRoot = .ok p) :
    ∀ frame ∈ p.splits, Recorded c frame := by
  induction fuel generalizing id rect isRoot p with
  | zero => cases h
  | succ fuel ih =>
    by_cases hempty : rect.width = 0 ∨ rect.height = 0
    · rw [projectNode_empty hempty] at h
      obtain rfl := Except.ok.inj h
      exact List.forall_mem_nil _
    rw [projectNode, if_neg hempty] at h
    obtain ⟨node, hnode, h⟩ := Answer.ok_bind h
    replace hnode := Answer.ofOption_eq_ok.mp hnode
    cases hkind : node.kind with
    | bufferView =>
      simp only [hkind] at h
      obtain ⟨view, -, h⟩ := Answer.ok_bind h
      obtain ⟨buffer, -, h⟩ := Answer.ok_bind h
      obtain ⟨rects, -, h⟩ := Answer.ok_bind h
      obtain rfl := Except.ok.inj h
      exact List.forall_mem_nil _
    | tabs =>
      simp only [hkind] at h
      obtain ⟨tabs, -, h⟩ := Answer.ok_bind h
      obtain ⟨active, -, h⟩ := Answer.ok_bind h
      obtain ⟨rects, -, h⟩ := Answer.ok_bind h
      obtain ⟨q, hq, h⟩ := Answer.ok_bind h
      obtain rfl := Except.ok.inj h
      exact List.forall_mem_append.mpr ⟨List.forall_mem_nil _, ih hq⟩
    | split =>
      simp only [hkind] at h
      obtain ⟨split, hsplit, h⟩ := Answer.ok_bind h
      split at h
      · obtain rfl := Except.ok.inj h
        exact List.forall_mem_nil _
      obtain ⟨rects, -, h⟩ := Answer.ok_bind h
      obtain ⟨q, hq, h⟩ := Answer.ok_bind h
      obtain rfl := Except.ok.inj h
      refine List.forall_mem_cons.mpr ⟨⟨node, split, ?_, Answer.ofOption_eq_ok.mp hsplit, rfl⟩,
        recorded_projectChildren (fun child _ p hp ↦ ih hp) hq⟩
      rw [hfiled id node hnode]
      exact hnode

end

/-! ## Layers before and after -/

/-- A layer drawn twice. -/
structure LayerRedrawn (c : ClientState) (resize : SplitResize) (layer layer' : Layer) : Prop where
  recorded : ∀ frame ∈ layer.frames.splits, Recorded c frame
  floatingId : layer'.floatingId = layer.floatingId
  frame : Option.Rel (Redrawn resize.sizes) (splitFrame resize.splitNodeId layer.frames)
    (splitFrame resize.splitNodeId layer'.frames)

/-- Popups drawn twice. -/
def PopupsRedrawn (c : ClientState) (resize : SplitResize) :
    List (FloatingFrame × Layer) → List (FloatingFrame × Layer) → Prop :=
  List.Forall₂ fun popup popup' ↦ popup'.1 = popup.1 ∧ LayerRedrawn c resize popup.2 popup'.2

/-- The nodes of a session are cached with all that is below them. -/
structure Whole (c : ClientState) (session : SessionRecord) : Prop where
  root : Grown c session.rootNodeId
  nodes : ∀ (id : NodeId) (node : NodeRecord),
    c.nodes[id]? = some node → node.sessionId = session.id → Grown c id

section

variable {c : ClientState} {resize : SplitResize} {session : SessionRecord} {layout : LayoutOptions}
  {fuel fuel' : ℕ} {id : NodeId} {viewport : Size}

theorem belongs_storeSizes {belongs : Bool}
    (h : nodeBelongsToSession c session fuel id = .ok belongs) (hle : fuel ≤ fuel') :
    nodeBelongsToSession (storeSizes c resize) session fuel' id = .ok belongs := by
  induction fuel generalizing fuel' id with
  | zero => cases h
  | succ fuel ih =>
    obtain ⟨fuel', rfl⟩ : ∃ k, fuel' = k + 1 := ⟨fuel' - 1, by omega⟩
    rw [nodeBelongsToSession] at h ⊢
    have hwindow : floatingWindowForRoot (storeSizes c resize) session id =
        floatingWindowForRoot c session id := rfl
    cases hnode : c.nodes[id]? with
    | none =>
      have hnode' : (storeSizes c resize).nodes[id]? = none := by
        rw [storeSizes, Table.get?_modify, hnode]
        split <;> rfl
      rw [hnode] at h
      rw [hnode']
      exact h
    | some node =>
      obtain ⟨sizes, hnode'⟩ := exists_get?_storeSizes resize hnode
      rw [hnode] at h
      rw [hnode', hwindow]
      dsimp only at h ⊢
      split at h
      · next hsession => rwa [if_pos hsession]
      next hsession =>
      rw [if_neg hsession]
      split at h
      · next hroot => rwa [if_pos hroot]
      next hroot =>
      rw [if_neg hroot]
      split at h
      · next hfloating => rwa [if_pos hfloating]
      next hfloating =>
      rw [if_neg hfloating]
      cases hparent : node.parentId with
      | none =>
        rw [hparent] at h
        exact h
      | some parentId =>
        rw [hparent] at h
        exact ih h (by omega)

theorem cached_of_belongs (h : nodeBelongsToSession c session fuel id = .ok true) :
    ∃ node, c.nodes[id]? = some node ∧ node.sessionId = session.id := by
  cases fuel with
  | zero => cases h
  | succ fuel =>
    rw [nodeBelongsToSession] at h
    cases hnode : c.nodes[id]? with
    | none =>
      rw [hnode] at h
      cases h
    | some node =>
      rw [hnode] at h
      dsimp only at h
      split at h
      · cases h
      next hsession => exact ⟨node, rfl, not_not.mp hsession⟩

theorem ancestor_storeSizes {window : Option FloatingRecord}
    (h : floatingAncestorForNode c session fuel id = .ok window) (hle : fuel ≤ fuel') :
    floatingAncestorForNode (storeSizes c resize) session fuel' id = .ok window := by
  induction fuel generalizing fuel' id with
  | zero => cases h
  | succ fuel ih =>
    obtain ⟨fuel', rfl⟩ : ∃ k, fuel' = k + 1 := ⟨fuel' - 1, by omega⟩
    rw [floatingAncestorForNode] at h ⊢
    have hwindow : floatingWindowForRoot (storeSizes c resize) session id =
        floatingWindowForRoot c session id := rfl
    rw [hwindow]
    have hparent : (storeSizes c resize).nodes[id]?.bind (·.parentId) =
        c.nodes[id]?.bind (·.parentId) := by
      cases hnode : c.nodes[id]? with
      | none =>
        rw [storeSizes, Table.get?_modify, hnode]
        split <;> rfl
      | some node =>
        obtain ⟨sizes, hnode'⟩ := exists_get?_storeSizes resize hnode
        rw [hnode']
        rfl
    rw [hparent]
    cases hroot : floatingWindowForRoot c session id with
    | some found =>
      rw [hroot] at h
      exact h
    | none =>
      rw [hroot] at h
      cases hup : c.nodes[id]?.bind (·.parentId) with
      | none =>
        rw [hup] at h
        exact h
      | some parentId =>
        rw [hup] at h
        exact ih h (by omega)

variable (resize) (hfiled : NodesFiled c) (hfew : FewChildren c)

include hfiled hfew

theorem redrawn_projectLayer {floatingId : Option FloatingId} {rect : Rect} {isRoot : Bool}
    {layer : Layer} (hgrown : Grown c id) (hscreen : OnScreen rect)
    (h : projectLayer c session layout fuel floatingId id rect isRoot = .ok layer) :
    ∃ n, ∀ k ≥ n, ∃ layer', projectLayer (storeSizes c resize) session layout k floatingId id rect
      isRoot = .ok layer' ∧ LayerRedrawn c resize layer layer' := by
  obtain ⟨frames, hframes, h⟩ := Answer.ok_bind h
  obtain rfl := Except.ok.inj h
  obtain ⟨n, hn⟩ := @Grown.projects _ session.focusedLeafId
    { layout with paneTitles := paneTitlesIn c layout floatingId } _ _ (hgrown.storeSizes resize)
    (hfew.storeSizes resize) isRoot (.inl hscreen)
  refine ⟨n, fun k hk ↦ ?_⟩
  obtain ⟨frames', hframes'⟩ := hn k hk
  refine ⟨⟨floatingId, frames'⟩, ?_, recorded_projectNode hfiled hframes, rfl,
    redrawn_projectNode hfiled hfew hscreen hframes hframes'⟩
  have htitles : paneTitlesIn (storeSizes c resize) layout floatingId =
      paneTitlesIn c layout floatingId := rfl
  rw [projectLayer, htitles, hframes']
  rfl

theorem redrawn_projectFloatingWindow {window : FloatingRecord} {popups : List (FloatingFrame × Layer)}
    (hgrown : Grown c id)
    (h : projectFloatingWindow c session layout fuel window (viewportRect viewport) id = .ok popups) :
    ∃ n, ∀ k ≥ n, ∃ popups', projectFloatingWindow (storeSizes c resize) session layout k window
      (viewportRect viewport) id = .ok popups' ∧ PopupsRedrawn c resize popups popups' := by
  rw [projectFloatingWindow] at h
  split at h
  · next hhidden =>
    obtain rfl := Except.ok.inj h
    refine ⟨0, fun k _ ↦ ⟨[], ?_, .nil⟩⟩
    rw [projectFloatingWindow, if_pos hhidden]
    rfl
  next hvisible =>
  dsimp only at h
  split at h
  · next hoff =>
    obtain rfl := Except.ok.inj h
    refine ⟨0, fun k _ ↦ ⟨[], ?_, .nil⟩⟩
    rw [projectFloatingWindow, if_neg hvisible]
    dsimp only
    rw [if_pos hoff]
    rfl
  next hon =>
  obtain ⟨layer, hlayer, h⟩ := Answer.ok_bind h
  obtain rfl := Except.ok.inj h
  obtain ⟨hwidth, hheight⟩ := not_or.mp hon
  have hscreen : OnScreen (popupRect window (viewportRect viewport)) :=
    (onScreen_viewportRect viewport).of_inside (popupRect_inside hwidth hheight)
  obtain ⟨n, hn⟩ := redrawn_projectLayer resize hfiled hfew hgrown hscreen hlayer
  refine ⟨n, fun k hk ↦ ?_⟩
  obtain ⟨layer', hlayer', hredrawn⟩ := hn k hk
  refine ⟨[(_, layer')], ?_, .cons ⟨rfl, hredrawn⟩ .nil⟩
  rw [projectFloatingWindow, if_neg hvisible]
  dsimp only
  rw [if_neg hon]
  change (projectLayer (storeSizes c resize) session layout k (some window.id) id
    (popupRect window (viewportRect viewport)) false >>= _) = _
  rw [hlayer']
  rfl

theorem redrawn_projectFloating (hwhole : Whole c session) {ids : List FloatingId}
    {popups : List (FloatingFrame × Layer)}
    (h : projectFloating c session layout fuel (viewportRect viewport) ids = .ok popups) :
    ∃ n, ∀ k ≥ n, ∃ popups', projectFloating (storeSizes c resize) session layout k
      (viewportRect viewport) ids = .ok popups' ∧ PopupsRedrawn c resize popups popups' := by
  induction ids generalizing popups with
  | nil =>
    obtain rfl := Except.ok.inj h
    exact ⟨0, fun k _ ↦ ⟨[], rfl, .nil⟩⟩
  | cons floatingId ids ih =>
    rw [projectFloating] at h
    cases hwindow : c.floating[floatingId]? with
    | none =>
      rw [hwindow] at h
      obtain ⟨n, hn⟩ := ih h
      refine ⟨n, fun k hk ↦ ?_⟩
      obtain ⟨popups', hpopups', hredrawn⟩ := hn k hk
      refine ⟨popups', ?_, hredrawn⟩
      have hwindow' : (storeSizes c resize).floating[floatingId]? = none := hwindow
      rw [projectFloating, hwindow']
      exact hpopups'
    | some window =>
      rw [hwindow] at h
      have hwindow' : (storeSizes c resize).floating[floatingId]? = some window := hwindow
      obtain ⟨belongs, hbelongs, h⟩ := Answer.ok_bind h
      dsimp only at h
      cases belongs with
      | false =>
        rw [if_neg Bool.false_ne_true] at h
        obtain ⟨shown, hshown, h⟩ := Answer.ok_bind h
        obtain rfl := Except.ok.inj hshown
        obtain ⟨others, hothers, h⟩ := Answer.ok_bind h
        obtain rfl := Except.ok.inj h
        obtain ⟨n, hn⟩ := ih hothers
        refine ⟨max fuel n, fun k hk ↦ ?_⟩
        obtain ⟨others', hothers', hredrawn⟩ := hn k (by omega)
        refine ⟨others', ?_, hredrawn⟩
        rw [projectFloating, hwindow']
        dsimp only
        rw [belongs_storeSizes hbelongs (by omega), Answer.bind_ok, if_neg Bool.false_ne_true]
        change (projectFloating _ _ _ _ _ _ >>= _) = _
        rw [hothers']
        rfl
      | true =>
        rw [if_pos rfl] at h
        obtain ⟨shown, hshown, h⟩ := Answer.ok_bind h
        obtain ⟨others, hothers, h⟩ := Answer.ok_bind h
        obtain rfl := Except.ok.inj h
        obtain ⟨n, hn⟩ := ih hothers
        obtain ⟨node, hnode, hsession⟩ := cached_of_belongs hbelongs
        obtain ⟨m, hm⟩ := redrawn_projectFloatingWindow resize hfiled hfew
          (hwhole.nodes _ node hnode hsession) hshown
        refine ⟨max fuel (max n m), fun k hk ↦ ?_⟩
        obtain ⟨others', hothers', hredrawn⟩ := hn k (by omega)
        obtain ⟨shown', hshown', hredrawn'⟩ := hm k (by omega)
        refine ⟨shown' ++ others', ?_, List.rel_append hredrawn' hredrawn⟩
        rw [projectFloating, hwindow']
        dsimp only
        rw [belongs_storeSizes hbelongs (by omega), Answer.bind_ok, if_pos rfl, hshown',
          Answer.bind_ok, hothers']
        rfl

theorem redrawn_projectLayers (hwhole : Whole c session) {layers : List Layer}
    {floating : List FloatingFrame}
    (h : projectLayers c session layout fuel (viewportRect viewport) = .ok (layers, floating)) :
    ∃ n, ∀ k ≥ n, ∃ layers', projectLayers (storeSizes c resize) session layout k
      (viewportRect viewport) = .ok (layers', floating) ∧
        List.Forall₂ (LayerRedrawn c resize) layers layers' := by
  have hframes : ∀ {popups popups' : List (FloatingFrame × Layer)}, PopupsRedrawn c resize popups popups' →
      popups'.map (·.1) = popups.map (·.1) ∧
        List.Forall₂ (LayerRedrawn c resize) (popups.map (·.2)) (popups'.map (·.2)) := by
    intro popups popups' h
    induction h with
    | nil => exact ⟨rfl, .nil⟩
    | cons hpopup _ ih =>
      refine ⟨?_, .cons hpopup.2 ih.2⟩
      rw [List.map_cons, List.map_cons, hpopup.1, ih.1]
  have hscreen := onScreen_viewportRect viewport
  obtain ⟨zoomed, hzoomed, h⟩ := Answer.ok_bind h
  have hzoomed' : ∀ k ≥ fuel, zoomedNode (storeSizes c resize) session k = .ok zoomed := by
    intro k hk
    rw [zoomedNode] at hzoomed ⊢
    cases hid : session.zoomedNodeId with
    | none =>
      rw [hid] at hzoomed
      exact hzoomed
    | some nodeId =>
      rw [hid] at hzoomed
      obtain ⟨belongs, hbelongs, hzoomed⟩ := Answer.ok_bind hzoomed
      obtain rfl := Except.ok.inj hzoomed
      dsimp only
      rw [belongs_storeSizes hbelongs hk]
      rfl
  have hgrown : ∀ nodeId ∈ zoomed, Grown c nodeId := by
    intro nodeId hmem
    obtain rfl := Option.mem_def.mp hmem
    rw [zoomedNode] at hzoomed
    cases hid : session.zoomedNodeId with
    | none =>
      rw [hid] at hzoomed
      cases hzoomed
    | some nodeId' =>
      rw [hid] at hzoomed
      obtain ⟨belongs, hbelongs, hzoomed⟩ := Answer.ok_bind hzoomed
      cases belongs with
      | false => cases hzoomed
      | true =>
        obtain rfl := Option.some.inj (Except.ok.inj hzoomed)
        obtain ⟨node, hnode, hsession⟩ := cached_of_belongs hbelongs
        exact hwhole.nodes _ node hnode hsession
  cases zoomed with
  | none =>
    obtain ⟨layer, hlayer, h⟩ := Answer.ok_bind h
    obtain ⟨popups, hpopups, h⟩ := Answer.ok_bind h
    obtain ⟨rfl, rfl⟩ := Prod.mk.inj (Except.ok.inj h)
    obtain ⟨n, hn⟩ := redrawn_projectLayer resize hfiled hfew hwhole.root hscreen hlayer
    obtain ⟨m, hm⟩ := redrawn_projectFloating resize hfiled hfew hwhole hpopups
    refine ⟨max fuel (max n m), fun k hk ↦ ?_⟩
    obtain ⟨layer', hlayer', hredrawn⟩ := hn k (by omega)
    obtain ⟨popups', hpopups', hredrawn'⟩ := hm k (by omega)
    refine ⟨layer' :: popups'.map (·.2), ?_, .cons hredrawn (hframes hredrawn').2⟩
    rw [projectLayers, hzoomed' k (by omega), Answer.bind_ok]
    dsimp only
    rw [hlayer', Answer.bind_ok, hpopups', Answer.bind_ok, (hframes hredrawn').1]
    rfl
  | some nodeId =>
    obtain ⟨window, hwindow, h⟩ := Answer.ok_bind h
    have hnode := hgrown nodeId rfl
    cases window with
    | none =>
      obtain ⟨layer, hlayer, h⟩ := Answer.ok_bind h
      obtain ⟨rfl, rfl⟩ := Prod.mk.inj (Except.ok.inj h)
      obtain ⟨n, hn⟩ := redrawn_projectLayer resize hfiled hfew hnode hscreen hlayer
      refine ⟨max fuel n, fun k hk ↦ ?_⟩
      obtain ⟨layer', hlayer', hredrawn⟩ := hn k (by omega)
      refine ⟨[layer'], ?_, .cons hredrawn .nil⟩
      rw [projectLayers, hzoomed' k (by omega), Answer.bind_ok]
      dsimp only
      rw [ancestor_storeSizes hwindow (by omega), Answer.bind_ok]
      dsimp only
      rw [hlayer']
      rfl
    | some window =>
      obtain ⟨popups, hpopups, h⟩ := Answer.ok_bind h
      obtain ⟨rfl, rfl⟩ := Prod.mk.inj (Except.ok.inj h)
      obtain ⟨n, hn⟩ := redrawn_projectFloatingWindow resize hfiled hfew hnode hpopups
      refine ⟨max fuel n, fun k hk ↦ ?_⟩
      obtain ⟨popups', hpopups', hredrawn⟩ := hn k (by omega)
      refine ⟨popups'.map (·.2), ?_, (hframes hredrawn).2⟩
      rw [projectLayers, hzoomed' k (by omega), Answer.bind_ok]
      dsimp only
      rw [ancestor_storeSizes hwindow (by omega), Answer.bind_ok]
      dsimp only
      rw [hpopups', Answer.bind_ok, (hframes hredrawn).1]
      rfl

end

/-! ## Plans -/

section

variable {c : ClientState} {resize : SplitResize} {layout : LayoutOptions}

/-- The first frame of a split on the screen. -/
def PresentationModel.splitFrame (m : PresentationModel) (id : NodeId) :
    Option (Option FloatingId × SplitFrame) := m.splits.find? (·.2.nodeId = id)

theorem find?_map_splits (floatingId : Option FloatingId) (id : NodeId) (frames : Projection) :
    (frames.splits.map fun split ↦ (floatingId, split)).find? (·.2.nodeId = id) =
      (Client.splitFrame id frames).map fun split ↦ (floatingId, split) := by
  rw [List.find?_map]
  rfl

theorem redrawn_splitFrame {layers layers' : List Layer}
    (h : List.Forall₂ (LayerRedrawn c resize) layers layers') {sessionId : SessionId} {viewport : Size}
    {floating : List FloatingFrame} :
    Option.Rel (fun split split' ↦ split'.1 = split.1 ∧ Redrawn resize.sizes split.2 split'.2)
      (PresentationModel.splitFrame ⟨sessionId, viewport, layers, floating⟩ resize.splitNodeId)
      (PresentationModel.splitFrame ⟨sessionId, viewport, layers', floating⟩ resize.splitNodeId) := by
  induction h with
  | nil => exact .none
  | @cons layer layer' layers layers' hlayer _ ih =>
    have hfind : ∀ (layer : Layer) (layers : List Layer), PresentationModel.splitFrame
        ⟨sessionId, viewport, layer :: layers, floating⟩ resize.splitNodeId =
          ((Client.splitFrame resize.splitNodeId layer.frames).map fun split ↦
            (layer.floatingId, split)).or
              (PresentationModel.splitFrame ⟨sessionId, viewport, layers, floating⟩
                resize.splitNodeId) := by
      intro layer layers
      rw [PresentationModel.splitFrame, PresentationModel.splits, List.flatMap_cons,
        List.find?_append, find?_map_splits]
      rfl
    rw [hfind, hfind]
    refine rel_or ?_ ih
    rw [hlayer.floatingId]
    have hframe := hlayer.frame
    generalize Client.splitFrame resize.splitNodeId layer.frames = a at hframe
    generalize Client.splitFrame resize.splitNodeId layer'.frames = b at hframe
    cases hframe with
    | none => exact .none
    | some hframe => exact .some ⟨rfl, hframe⟩

end

/-! ## Requests -/

/-- The axis of the splits whose dividers move in a direction. -/
def NavigationDirection.axis : NavigationDirection → SplitDirection
  | .left | .right => .vertical
  | .up | .down => .horizontal

/-- Whether a direction is toward the start of its axis or its end. -/
def NavigationDirection.sign : NavigationDirection → ℤ
  | .left | .up => -1
  | .right | .down => 1

/-- The nearest split above a node that is drawn along an axis, and its child that the node is in. -/
inductive NearestSplit (c : ClientState) (splits : List SizedSplit) (axis : SplitDirection) :
    NodeId → SizedSplit → NodeId → Prop
  | parent {id parentId : NodeId} {split : SizedSplit}
      (hparent : c.nodes[id]?.bind (·.parentId) = some parentId)
      (hmem : split ∈ splits) (hid : split.frame.nodeId = parentId)
      (haxis : split.frame.direction = axis) : NearestSplit c splits axis id split id
  | above {id parentId childId : NodeId} {split : SizedSplit}
      (hparent : c.nodes[id]?.bind (·.parentId) = some parentId)
      (hnone : ∀ other ∈ splits, other.frame.nodeId = parentId → other.frame.direction ≠ axis)
      (habove : NearestSplit c splits axis parentId split childId) :
      NearestSplit c splits axis id split childId

/-- The move that resizing a pane asks for: in the nearest split along the direction, the divider after
the child with the pane, or the one before it if it is the last, goes some cells in the direction. -/
structure LeafMove (c : ClientState) (splits : List SizedSplit) (leafNodeId : NodeId)
    (direction : NavigationDirection) (cells : UInt16) (move : DividerMove) : Prop where
  divider : ∃ childId i, NearestSplit c splits direction.axis leafNodeId move.split childId ∧
    move.split.frame.childIds[i]? = some childId ∧
      if i + 1 = move.split.frame.childIds.length then move.index + 1 = i else move.index = i
  delta : move.delta = direction.sign * cells.toNat

/-- The move that dragging a divider asks for: it goes to the point. -/
structure DragMove (splits : List SizedSplit) (splitNodeId : NodeId) (index : ℕ) (x y : ℤ)
    (move : DividerMove) : Prop where
  mem : move.split ∈ splits ∧ move.split.frame.nodeId = splitNodeId
  divider : move.index = index ∧ index + 1 < move.split.frame.lengths.length
  /-- The children before the divider and the dividers between them come before it. -/
  lands : let before := (move.split.frame.lengths.take (index + 1)).sum + index
    match move.split.frame.direction with
    | .horizontal => move.split.frame.rect.y + before + move.delta = y
    | .vertical => move.split.frame.rect.x + before + move.delta = x

/-- The divider that a plan moves: the split is the first of its node on the screen. -/
structure Planned (m : PresentationModel) (c : ClientState) (layout : LayoutOptions) (k : ℕ)
    (move : DividerMove) (plan : SplitResize) : Prop where
  first : (m.sizedSplits c layout k).find? (·.frame.nodeId = move.split.frame.nodeId) = some move.split
  plan : move.plan = some plan

section

variable {m : PresentationModel} {c : ClientState} {layout : LayoutOptions} {k fuel : ℕ}
  {plan : SplitResize} {leafNodeId : NodeId} {direction : NavigationDirection} {cells : UInt16}

/-- All frames of a node go along one axis, so the first along the axis is the first at all. -/
theorem find?_sizedSplits {splits : List SizedSplit} (h : ∀ split ∈ splits, Recorded c split.frame)
    {id : NodeId} {axis : SplitDirection} {split : SizedSplit}
    (hfind : splits.find? (fun split ↦ decide (split.frame.nodeId = id) &&
      decide (split.frame.direction = axis)) = some split) :
    splits.find? (·.frame.nodeId = split.frame.nodeId) = some split := by
  have hsplit := List.find?_some hfind
  rw [Bool.and_eq_true, decide_eq_true_eq, decide_eq_true_eq] at hsplit
  obtain ⟨hid, haxis⟩ := hsplit
  have hmem := List.mem_of_find?_eq_some hfind
  rw [← hfind]
  have hsame : ∀ other ∈ splits, (decide (other.frame.nodeId = split.frame.nodeId) = true ↔
      (decide (other.frame.nodeId = id) && decide (other.frame.direction = axis)) = true) := by
    intro other hother
    rw [Bool.and_eq_true, decide_eq_true_eq, decide_eq_true_eq, decide_eq_true_eq, hid]
    refine ⟨fun heq ↦ ⟨heq, ?_⟩, And.left⟩
    obtain ⟨node, record, hnode, hrecord, hdirection⟩ := h other hother
    obtain ⟨node', record', hnode', hrecord', hdirection'⟩ := h split hmem
    rw [heq, ← hid] at hnode
    obtain rfl := Option.some.inj (hnode.symm.trans hnode')
    obtain rfl := Option.some.inj (hrecord.symm.trans hrecord')
    rw [hdirection, ← hdirection', haxis]
  clear hfind hmem
  induction splits with
  | nil => rfl
  | cons other splits ih =>
    obtain ⟨hother, hrest⟩ := List.forall_mem_cons.mp hsame
    rw [List.find?_cons, List.find?_cons, Bool.eq_iff_iff.mpr hother,
      ih (fun split hsplit ↦ h split (List.mem_cons_of_mem _ hsplit)) hrest]

theorem resizeAxis_eq (direction : NavigationDirection) (cells : UInt16) :
    resizeAxis direction cells = (direction.axis, direction.sign * cells.toNat) := by
  cases direction with
  | left => exact congrArg (SplitDirection.vertical, ·) (neg_one_mul _).symm
  | right => exact congrArg (SplitDirection.vertical, ·) (one_mul _).symm
  | up => exact congrArg (SplitDirection.horizontal, ·) (neg_one_mul _).symm
  | down => exact congrArg (SplitDirection.horizontal, ·) (one_mul _).symm

/-- The divider that is found is the one asked for, of the first frame of its split. -/
theorem leafDivider_spec {splits : List SizedSplit} (h : ∀ split ∈ splits, Recorded c split.frame)
    {axis : SplitDirection} {delta : ℤ} {leafNodeId : NodeId} {move : DividerMove}
    (hmove : leafDivider c splits axis delta fuel leafNodeId = .ok (some move)) :
    splits.find? (·.frame.nodeId = move.split.frame.nodeId) = some move.split ∧
      (∃ childId i, NearestSplit c splits axis leafNodeId move.split childId ∧
        move.split.frame.childIds[i]? = some childId ∧
          if i + 1 = move.split.frame.childIds.length then move.index + 1 = i
          else move.index = i) ∧
      move.delta = delta := by
  induction fuel generalizing leafNodeId with
  | zero => cases hmove
  | succ fuel ih =>
    rw [leafDivider] at hmove
    cases hparent : c.nodes[leafNodeId]?.bind (·.parentId) with
    | none =>
      rw [hparent] at hmove
      cases hmove
    | some parentId =>
      rw [hparent] at hmove
      dsimp only at hmove
      cases hfind : splits.find? fun split ↦
          decide (split.frame.nodeId = parentId) && decide (split.frame.direction = axis) with
      | none =>
        rw [hfind] at hmove
        obtain ⟨hfirst, ⟨childId, i, hnearest, hindex⟩, hdelta⟩ := ih hmove
        refine ⟨hfirst, ⟨childId, i, .above hparent (fun other hother hid haxis ↦ ?_) hnearest, hindex⟩,
          hdelta⟩
        have hnone := List.find?_eq_none.mp hfind other hother
        rw [hid, haxis] at hnone
        simp at hnone
      | some split =>
        rw [hfind] at hmove
        replace hmove := Except.ok.inj hmove
        have hsplit := List.find?_some hfind
        rw [Bool.and_eq_true, decide_eq_true_eq, decide_eq_true_eq] at hsplit
        have hnearest : NearestSplit c splits axis leafNodeId split leafNodeId :=
          .parent hparent (List.mem_of_find?_eq_some hfind) hsplit.1 hsplit.2
        have hfirst := find?_sizedSplits h hfind
        cases hindex : split.frame.childIds.findIdx? (· = leafNodeId) with
        | none =>
          rw [hindex] at hmove
          cases hmove
        | some index =>
          rw [hindex] at hmove
          obtain ⟨hlt, hchild, -⟩ := List.findIdx?_eq_some_iff_getElem.mp hindex
          have hget : split.frame.childIds[index]? = some leafNodeId :=
            List.getElem?_eq_some_iff.mpr ⟨hlt, of_decide_eq_true hchild⟩
          change (if index + 1 = split.frame.childIds.length then
            if index = 0 then none else some (⟨split, index - 1, delta⟩ : DividerMove)
              else some ⟨split, index, delta⟩) = some move at hmove
          split at hmove
          · next hlast =>
            split at hmove
            · cases hmove
            · next hpos =>
              obtain rfl := Option.some.inj hmove
              refine ⟨hfirst, ⟨leafNodeId, index, hnearest, hget, ?_⟩, rfl⟩
              rw [if_pos hlast]
              exact Nat.sub_one_add_one hpos
          · next hlast =>
            obtain rfl := Option.some.inj hmove
            exact ⟨hfirst, ⟨leafNodeId, index, hnearest, hget, by rw [if_neg hlast]⟩, rfl⟩

theorem planned_of_resizeLeaf (h : ∀ split ∈ m.sizedSplits c layout k, Recorded c split.frame)
    (hplan : resizeLeaf c (m.sizedSplits c layout k) fuel leafNodeId direction cells =
      .ok (some plan)) :
    ∃ move, LeafMove c (m.sizedSplits c layout k) leafNodeId direction cells move ∧
      Planned m c layout k move plan := by
  obtain ⟨move, hmove, hplan⟩ := Answer.ok_bind hplan
  obtain ⟨move, rfl, hsizes⟩ := Option.bind_eq_some_iff.mp (Except.ok.inj hplan)
  rw [resizeAxis_eq] at hmove
  obtain ⟨hfirst, hdivider, hdelta⟩ := leafDivider_spec h hmove
  exact ⟨move, ⟨hdivider, hdelta⟩, hfirst, hsizes⟩

theorem planned_of_dragDivider {splitNodeId : NodeId} {index : ℕ} {x y : ℤ}
    (hplan : dragDivider (m.sizedSplits c layout k) splitNodeId index x y = .ok (some plan)) :
    ∃ move, DragMove (m.sizedSplits c layout k) splitNodeId index x y move ∧
      Planned m c layout k move plan := by
  obtain ⟨move, hmove, hplan⟩ := Answer.ok_bind hplan
  obtain ⟨move, rfl, hsizes⟩ := Option.bind_eq_some_iff.mp (Except.ok.inj hplan)
  rw [dragDistance] at hmove
  cases hfind : (m.sizedSplits c layout k).find? (·.frame.nodeId = splitNodeId) with
  | none =>
    rw [hfind] at hmove
    cases hmove
  | some split =>
    rw [hfind] at hmove
    dsimp only at hmove
    have hid := List.find?_some hfind
    rw [decide_eq_true_eq] at hid
    split at hmove
    · cases hmove
    next hindex =>
    obtain ⟨start, hstart, hmove⟩ := Answer.ok_bind hmove
    obtain ⟨current, hcurrent, hmove⟩ := Answer.ok_bind hmove
    obtain ⟨delta, hdelta, hmove⟩ := Answer.ok_bind hmove
    obtain rfl := Option.some.inj (Except.ok.inj hmove)
    have hmem := List.mem_of_find?_eq_some hfind
    refine ⟨_, ⟨⟨hmem, hid⟩, ⟨rfl, Nat.not_le.mp hindex⟩, ?_⟩, by rw [hid]; exact hfind, hsizes⟩
    obtain ⟨-, rfl⟩ := addI32_eq_ok.mp hstart
    obtain ⟨-, rfl⟩ := addI32_eq_ok.mp hcurrent
    obtain ⟨-, rfl⟩ := addI32_eq_ok.mp hdelta
    cases haxis : split.frame.direction with
    | horizontal =>
      dsimp only
      push_cast
      ring
    | vertical =>
      dsimp only
      push_cast
      ring

end

/-! ## A resize and the next frame -/

/-- The split of the move is drawn with the lengths that were intended, which are those of the moved
divider. -/
def Realizes (m : PresentationModel) (move : DividerMove) : Prop :=
  ∃ split, m.splitFrame move.split.frame.nodeId = some split ∧ move.intended = some split.2.lengths ∧
    DividerMoved move.split.frame.lengths move.split.minLengths move.index move.delta split.2.lengths

/-- Every child but the one that grows is drawn with a cell at least. -/
def OthersDrawn (move : DividerMove) : Prop :=
  ∀ i < move.split.frame.lengths.length, i ≠ receiver move.index move.delta →
    move.split.frame.lengths.getD i 0 ≠ 0

section

variable {c : ClientState} {session : SessionRecord} {sessionId : SessionId} {viewport : Size}
  {layout : LayoutOptions} {fuel k : ℕ} {m : PresentationModel} {move : DividerMove}
  {plan : SplitResize}

theorem exists_intended (h : move.plan = some plan) :
    ∃ moved, move.intended = some moved ∧ plan = ⟨move.split.frame.nodeId, tokenWeights moved⟩ := by
  obtain ⟨sizes, hsizes, rfl⟩ := Option.map_eq_some_iff.mp h
  obtain ⟨moved, hmoved, rfl⟩ := Option.map_eq_some_iff.mp hsizes
  exact ⟨moved, hmoved, rfl⟩

/-- A split drawn with the sizes of a plan has the lengths that were intended when every other child
has a cell. -/
theorem redrawn_iff {moved : List ℕ} {frame' : SplitFrame} (hmoved : move.intended = some moved)
    (h : Redrawn (tokenWeights moved) move.split.frame frame') :
    move.intended = some frame'.lengths ↔ OthersDrawn move := by
  have haxis := h.screen.axisLength_lt move.split.frame.direction
  have hlength := h.before.length
  have hsum := h.before.sum
  have hfits : move.split.frame.lengths.sum < 2 ^ 16 := by omega
  have hspec := movedLengths_moved hfits hmoved
  obtain ⟨j, hj, hjlength, hjpos⟩ := exists_moved_pos hfits hmoved
  obtain ⟨given, -, hindex, -⟩ := exists_given hmoved
  have hreceiver : receiver move.index move.delta < move.split.frame.lengths.length :=
    receiver_lt hindex
  have hreceives : moved.getD (receiver move.index move.delta) 0 ≠ 0 := by
    intro hzero
    exact ((getD_moved_eq_zero hfits hmoved).mp hzero).1 rfl
  have hafter := h.after
  rw [← hsum, ← hspec.sum, ← hlength, ← hspec.length] at hafter
  have hiff := proportionalLengths_tokenWeights hj.symm (by rw [hspec.length]; exact hreceiver)
    (by rw [hspec.length]; exact hjlength) hreceives hjpos (by rw [hspec.sum]; exact hfits) hafter
  rw [hmoved, Option.some.injEq, eq_comm, hiff]
  constructor
  · intro hsome i hi hne hzero
    have hnone := (getD_moved_eq_zero (i := i) hfits hmoved).mpr ⟨hne, hzero⟩
    rw [List.getD_eq_getElem _ _ (by rw [hspec.length]; exact hi)] at hnone
    exact hsome (hnone ▸ List.getElem_mem _)
  · intro hothers hzero
    obtain ⟨i, hi, hnone⟩ := List.getElem_of_mem hzero
    rw [hspec.length] at hi
    have hnone' : moved.getD i 0 = 0 := by
      rw [List.getD_eq_getElem _ _ (by rw [hspec.length]; exact hi)]
      exact hnone
    obtain ⟨hne, hempty⟩ := (getD_moved_eq_zero hfits hmoved).mp hnone'
    exact hothers i hi hne hempty

theorem recorded_layers {resize : SplitResize} {layers layers' : List Layer}
    (h : List.Forall₂ (LayerRedrawn c resize) layers layers') :
    ∀ layer ∈ layers, ∀ frame ∈ layer.frames.splits, Recorded c frame := by
  induction h with
  | nil => exact List.forall_mem_nil _
  | cons hlayer _ ih => exact List.forall_mem_cons.mpr ⟨hlayer.recorded, ih⟩

/-- With the sizes stored, the screen drawn again has the split where it was. -/
theorem exists_redrawn (hfiled : NodesFiled c) (hfew : FewChildren c) (hwhole : Whole c session)
    (hsession : c.sessions[sessionId]? = some session)
    (hproject : PresentationModel.projectWith c fuel sessionId viewport layout = some (.ok m))
    (resize : SplitResize) :
    (∀ split ∈ m.splits, Recorded c split.2) ∧ ∃ n, ∀ fuel ≥ n, ∃ m',
      PresentationModel.projectWith (storeSizes c resize) fuel sessionId viewport layout =
        some (.ok m') ∧
      Option.Rel (fun split split' ↦ split'.1 = split.1 ∧ Redrawn resize.sizes split.2 split'.2)
        (m.splitFrame resize.splitNodeId) (m'.splitFrame resize.splitNodeId) := by
  obtain ⟨session', hsession', hmodel⟩ := Option.map_eq_some_iff.mp hproject
  obtain rfl := Option.some.inj (hsession.symm.trans hsession')
  obtain ⟨⟨layers, floating⟩, hlayers, hm⟩ := Answer.ok_bind hmodel
  obtain rfl := Except.ok.inj hm
  obtain ⟨n, hn⟩ := redrawn_projectLayers resize hfiled hfew hwhole hlayers
  constructor
  · obtain ⟨layers', -, hredrawn⟩ := hn n (Nat.le_refl n)
    intro split hsplit
    obtain ⟨layer, hlayer, hsplit⟩ := List.mem_flatMap.mp hsplit
    obtain ⟨frame, hframe, rfl⟩ := List.mem_map.mp hsplit
    exact recorded_layers hredrawn layer hlayer frame hframe
  · refine ⟨n, fun k hk ↦ ?_⟩
    obtain ⟨layers', hlayers', hredrawn⟩ := hn k hk
    refine ⟨⟨sessionId, viewport, layers', floating⟩, ?_, redrawn_splitFrame hredrawn⟩
    have hsession' : (storeSizes c resize).sessions[sessionId]? = some session := hsession
    rw [PresentationModel.projectWith, hsession', Option.map_some, hlayers']
    rfl

/-- A plan to resize a split, stored and drawn again, gives the children the lengths that it is for
exactly when every child but the one that grows has a cell at least. -/
theorem resize_realized_iff (hfiled : NodesFiled c) (hfew : FewChildren c) (hwhole : Whole c session)
    (hsession : c.sessions[sessionId]? = some session)
    (hproject : PresentationModel.projectWith c fuel sessionId viewport layout = some (.ok m))
    (hplan : Planned m c layout k move plan) :
    (∃ n, ∀ fuel ≥ n, ∃ m', PresentationModel.projectWith (storeSizes c plan) fuel sessionId viewport
      layout = some (.ok m') ∧ Realizes m' move) ↔ OthersDrawn move := by
  obtain ⟨moved, hmoved, rfl⟩ := exists_intended hplan.plan
  obtain ⟨-, n, hn⟩ := exists_redrawn hfiled hfew hwhole hsession hproject
    ⟨move.split.frame.nodeId, tokenWeights moved⟩
  have hfirst : ∃ split, m.splitFrame move.split.frame.nodeId = some split ∧ split.2 = move.split.frame := by
    have hfind := hplan.first
    rw [PresentationModel.sizedSplits, List.find?_map] at hfind
    obtain ⟨split, hsplit, hsized⟩ := Option.map_eq_some_iff.mp hfind
    exact ⟨split, hsplit, congrArg SizedSplit.frame hsized⟩
  obtain ⟨split, hsplit, hframe⟩ := hfirst
  -- Every screen drawn with the sizes has the split, with the lengths that the weights give.
  have hdrawn : ∀ {m' : PresentationModel}, Option.Rel (fun split split' ↦ split'.1 = split.1 ∧
      Redrawn (tokenWeights moved) split.2 split'.2) (m.splitFrame move.split.frame.nodeId)
        (m'.splitFrame move.split.frame.nodeId) → (Realizes m' move ↔ OthersDrawn move) := by
    intro m' hrel
    rw [hsplit] at hrel
    generalize hsplit' : m'.splitFrame move.split.frame.nodeId = drawn at hrel
    cases hrel with
    | @some _ split' hredrawn =>
      have hredrawn := hredrawn.2
      rw [hframe] at hredrawn
      rw [← redrawn_iff hmoved hredrawn]
      constructor
      · rintro ⟨split'', hsplit'', hintended, -⟩
        obtain rfl := Option.some.inj (hsplit'.symm.trans hsplit'')
        exact hintended
      · intro hintended
        have haxis := hredrawn.screen.axisLength_lt move.split.frame.direction
        have hsum := hredrawn.before.sum
        exact ⟨split', hsplit', hintended, movedLengths_moved (by omega) hintended⟩
  constructor
  · rintro ⟨n', hn'⟩
    obtain ⟨m', hm', hrel⟩ := hn (max n n') (Nat.le_max_left _ _)
    obtain ⟨m'', hm'', hrealizes⟩ := hn' (max n n') (Nat.le_max_right _ _)
    obtain rfl := Except.ok.inj (Option.some.inj (hm'.symm.trans hm''))
    exact (hdrawn hrel).mp hrealizes
  · intro hothers
    refine ⟨n, fun fuel hfuel ↦ ?_⟩
    obtain ⟨m', hm', hrel⟩ := hn fuel hfuel
    exact ⟨m', hm', (hdrawn hrel).mpr hothers⟩

/-- A plan is for the move that was asked for, by a key or the mouse. Stored and drawn again, it gives
the children the lengths of the moved divider exactly when every child but the one that grows has a cell
at least. -/
theorem resizes_realized_iff (hfiled : NodesFiled c) (hfew : FewChildren c) (hwhole : Whole c session)
    (hsession : c.sessions[sessionId]? = some session)
    (hproject : PresentationModel.projectWith c fuel sessionId viewport layout = some (.ok m)) :
    (∀ steps leafNodeId direction cells,
      resizeLeaf c (m.sizedSplits c layout k) steps leafNodeId direction cells = .ok (some plan) →
      ∃ move, LeafMove c (m.sizedSplits c layout k) leafNodeId direction cells move ∧
        Planned m c layout k move plan ∧
        ((∃ n, ∀ fuel ≥ n, ∃ m', PresentationModel.projectWith (storeSizes c plan) fuel sessionId
          viewport layout = some (.ok m') ∧ Realizes m' move) ↔ OthersDrawn move)) ∧
    ∀ splitNodeId index x y,
      dragDivider (m.sizedSplits c layout k) splitNodeId index x y = .ok (some plan) →
      ∃ move, DragMove (m.sizedSplits c layout k) splitNodeId index x y move ∧
        Planned m c layout k move plan ∧
        ((∃ n, ∀ fuel ≥ n, ∃ m', PresentationModel.projectWith (storeSizes c plan) fuel sessionId
          viewport layout = some (.ok m') ∧ Realizes m' move) ↔ OthersDrawn move) := by
  obtain ⟨hrecorded, -⟩ := exists_redrawn hfiled hfew hwhole hsession hproject plan
  have hsized : ∀ split ∈ m.sizedSplits c layout k, Recorded c split.frame := by
    intro sized hsized
    obtain ⟨split, hsplit, rfl⟩ := List.mem_map.mp hsized
    exact hrecorded split hsplit
  constructor
  · intro steps leafNodeId direction cells hplan
    obtain ⟨move, hasked, hmove⟩ := planned_of_resizeLeaf hsized hplan
    exact ⟨move, hasked, hmove,
      resize_realized_iff hfiled hfew hwhole hsession hproject hmove⟩
  · intro splitNodeId index x y hplan
    obtain ⟨move, hasked, hmove⟩ := planned_of_dragDivider hplan
    exact ⟨move, hasked, hmove,
      resize_realized_iff hfiled hfew hwhole hsession hproject hmove⟩

end

/-! ### Two panes beside each other -/

/-- A session with one tab, split into two panes. -/
def besideClient : ClientState :=
  { ClientState.empty with
    sessions := Table.insertAll (·.id) ∅
      [⟨1, "main", 1, [], some 3, none, none, none, none, false⟩]
    buffers := Table.insertAll (·.id) ∅ [shell 1 3, shell 2 4]
    nodes := Table.insertAll (·.id) ∅
      [⟨1, 1, none, .tabs, none, none, some ⟨0, [⟨"shell", 2, false⟩]⟩, some 3⟩,
        ⟨2, 1, some 1, .split, none, some ⟨.vertical, [3, 4], [1, 1]⟩, none, some 3⟩,
        stackedPane 3 1, stackedPane 4 2] }

theorem mem_of_get?_insertAll {κ α : Type} [Ord κ] [Std.TransOrd κ] [Std.LawfulEqOrd κ]
    [DecidableEq κ] {key : α → κ} {values : List α} {t : Table κ α} {k : κ} {v : α}
    (h : (Table.insertAll key t values)[k]? = some v) : v ∈ values ∨ t[k]? = some v := by
  induction values generalizing t with
  | nil => exact .inr h
  | cons w values ih =>
    rcases ih h with hmem | hget
    · exact .inl (List.mem_cons_of_mem w hmem)
    · rw [Table.get?_insert] at hget
      split at hget
      · exact .inl (Option.some.inj hget ▸ List.mem_cons_self)
      · exact .inr hget

theorem filed_besideClient : NodesFiled besideClient := by
  intro id node hnode
  obtain hid | hempty := Table.get?_insertAll_eq_some hnode
  · exact hid
  · simp at hempty

theorem grown_besideClient {id : NodeId} {node : NodeRecord}
    (hnode : besideClient.nodes[id]? = some node) : Grown besideClient id := by
  have hpanes : Grown besideClient 3 ∧ Grown besideClient 4 :=
    ⟨.view rfl rfl rfl rfl, .view rfl rfl rfl rfl⟩
  have hsplit : Grown besideClient 2 := by
    refine .split rfl rfl rfl fun child hchild ↦ ?_
    fin_cases hchild
    · exact hpanes.1
    · exact hpanes.2
  have hroot : Grown besideClient 1 := by
    refine .tabs rfl rfl rfl Nat.zero_lt_one fun tab htab ↦ ?_
    rw [List.mem_singleton.mp htab]
    exact hsplit
  have hid := filed_besideClient id node hnode
  obtain hmem | hempty := mem_of_get?_insertAll hnode
  · fin_cases hmem
    · exact hid ▸ hroot
    · exact hid ▸ hsplit
    · exact hid ▸ hpanes.1
    · exact hid ▸ hpanes.2
  · simp at hempty

theorem few_besideClient : FewChildren besideClient := by
  intro id node split hnode hsplit
  obtain hmem | hempty := mem_of_get?_insertAll hnode
  · fin_cases hmem <;> cases hsplit
    decide
  · simp at hempty

/-- Five columns to the right: of 40 and 40 become 45 and 35, also on the next screen. -/
theorem besideClient_resized :
    ∃ m plan, PresentationModel.projectWith besideClient 5 1 ⟨81, 24⟩ plainLayout = some (.ok m) ∧
      resizeLeaf besideClient (m.sizedSplits besideClient plainLayout 5) 5 3 .right 5 =
        .ok (some plan) ∧
      ∃ move, LeafMove besideClient (m.sizedSplits besideClient plainLayout 5) 3 .right 5 move ∧
        move.split.frame.lengths = [40, 40] ∧
        ∃ n, ∀ fuel ≥ n, ∃ m', PresentationModel.projectWith (storeSizes besideClient plan) fuel 1
          ⟨81, 24⟩ plainLayout = some (.ok m') ∧ Realizes m' move ∧
            (m'.splitFrame 2).map (·.2.lengths) = some [45, 35] := by
  refine ⟨_, _, rfl, rfl, ?_⟩
  have hroot : Grown besideClient 1 := @grown_besideClient 1 _ rfl
  obtain ⟨move, hasked, hmove, hiff⟩ := (@resizes_realized_iff besideClient _ 1 ⟨81, 24⟩ plainLayout 5 5
    _ _ filed_besideClient few_besideClient ⟨hroot, fun _ _ hnode _ ↦ grown_besideClient hnode⟩ rfl
    rfl).1 5 3 .right 5 rfl
  have hsplit := List.mem_singleton.mp (List.mem_of_find?_eq_some hmove.first)
  have hnode : move.split.frame.nodeId = 2 := congrArg (·.frame.nodeId) hsplit
  have hlengths : move.split.frame.lengths = [40, 40] := congrArg (·.frame.lengths) hsplit
  have hothers : OthersDrawn move := by
    intro i hi _
    rw [hlengths] at hi ⊢
    change i < 2 at hi
    interval_cases i <;> decide
  have hindex : move.index = 0 := by
    obtain ⟨childId, i, hnearest, hchild, hplace⟩ := hasked.divider
    cases hnearest with
    | parent =>
      rw [hsplit] at hchild hplace
      match i with
      | 0 => exact hplace
      | 1 => cases hchild
    | above hparent hnone =>
      obtain rfl := Option.some.inj hparent
      have haxis : move.split.frame.direction = .vertical := congrArg (·.frame.direction) hsplit
      exact absurd haxis (hnone _ (List.mem_of_find?_eq_some hmove.first) hnode)
  obtain ⟨n, hn⟩ := hiff.mpr hothers
  refine ⟨move, hasked, hlengths, n, fun fuel hfuel ↦ ?_⟩
  obtain ⟨m', hm', hrealizes⟩ := hn fuel hfuel
  refine ⟨m', hm', hrealizes, ?_⟩
  obtain ⟨split, hdrawn, hintended, -⟩ := hrealizes
  have hmoved : move.intended = some [45, 35] := by
    rw [DividerMove.intended, hsplit, hindex, hasked.delta]
    rfl
  rw [hnode] at hdrawn
  rw [hdrawn, Option.map_some]
  exact hintended.symm.trans hmoved

end Embers.Client
