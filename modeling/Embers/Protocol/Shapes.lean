import Embers.Protocol.Records

/-!
# Shapes

What of a layout decides where its panes are drawn: a split's children with their weights, and of
tabs the child of the active one. Two nodes of one shape are drawn alike, whatever their titles are
and wherever the focus is.

`Reaches` is the way down from a node through what is drawn below it. A layout that is put together
twice, under other ids, reaches the same nodes under those ids (`Reaches.rename`).
-/

namespace Embers

/-! ## Replacing in lists -/

section

variable {α : Type} [DecidableEq α] {a b c : α} {l : List α}

theorem mem_or_of_mem_replace (h : c ∈ l.replace a b) : c = b ∨ c ∈ l := by
  induction l with
  | nil => cases h
  | cons d l ih =>
    rw [List.replace_cons] at h
    split at h
    · exact (List.mem_cons.mp h).imp_right (List.mem_cons_of_mem d)
    · rcases List.mem_cons.mp h with rfl | hmem
      · exact .inr List.mem_cons_self
      · exact (ih hmem).imp_right (List.mem_cons_of_mem d)

theorem mem_of_mem_replace (hl : l.Nodup) (h : c ∈ l.replace a b) : c = b ∨ c ∈ l ∧ c ≠ a := by
  induction l with
  | nil => cases h
  | cons d l ih =>
    obtain ⟨hd, hl⟩ := List.nodup_cons.mp hl
    rw [List.replace_cons] at h
    split at h
    next hda =>
      obtain rfl := beq_iff_eq.mp hda
      rcases List.mem_cons.mp h with hcb | hmem
      · exact .inl hcb
      · exact .inr ⟨List.mem_cons_of_mem _ hmem, fun hca ↦ hd (hca ▸ hmem)⟩
    next hda =>
      rcases List.mem_cons.mp h with hcd | hmem
      · exact .inr ⟨hcd ▸ List.mem_cons_self, fun hca ↦ beq_eq_false_iff_ne.mp hda (hca.symm.trans hcd)⟩
      · exact (ih hl hmem).imp_right fun hin ↦ ⟨List.mem_cons_of_mem _ hin.1, hin.2⟩

theorem getElem?_replace (hl : l.Nodup) (i : ℕ) :
    (l.replace a b)[i]? = l[i]?.map fun c ↦ if c = a then b else c := by
  induction l generalizing i with
  | nil => rfl
  | cons d l ih =>
    obtain ⟨hd, hl⟩ := List.nodup_cons.mp hl
    rw [List.replace_cons]
    split
    next hda =>
      obtain rfl := beq_iff_eq.mp hda
      cases i with
      | zero => exact congrArg some (if_pos rfl).symm
      | succ i =>
        rw [List.getElem?_cons_succ, List.getElem?_cons_succ]
        cases hget : l[i]? with
        | none => rfl
        | some c =>
          rw [Option.map_some, if_neg]
          rintro rfl
          exact hd (List.mem_of_getElem? hget)
    next hda =>
      cases i with
      | zero => exact congrArg some (if_neg fun heq ↦ beq_eq_false_iff_ne.mp hda heq.symm).symm
      | succ i => rw [List.getElem?_cons_succ, List.getElem?_cons_succ, ih hl]

/-- A function that leaves the elements of a list alone only sees what is put in. -/
theorem map_replace_of_fixed {f : α → α} (h : ∀ d ∈ l, f d = d) :
    (l.replace a b).map f = l.replace a (f b) := by
  induction l with
  | nil => rfl
  | cons d l ih =>
    have hrest : ∀ d ∈ l, f d = d := fun d hd ↦ h d (List.mem_cons_of_mem _ hd)
    rw [List.replace_cons, List.replace_cons]
    split
    · rw [List.map_cons, List.map_congr_left hrest, List.map_id']
    · rw [List.map_cons, h d List.mem_cons_self, ih hrest]

end

inductive Shape where
  | view
  | split (direction : SplitDirection) (childIds : List NodeId) (sizes : List UInt16)
  /-- The child of the active tab, if there is one. -/
  | tabs (active : Option NodeId)
  deriving DecidableEq, Repr

namespace Shape

/-- The children that are drawn. -/
def drawn : Shape → List NodeId
  | .view => []
  | .split _ childIds _ => childIds
  | .tabs active => active.toList

/-- The shape under other ids. -/
def rename (ids : NodeId → NodeId) : Shape → Shape
  | .view => .view
  | .split direction childIds sizes => .split direction (childIds.map ids) sizes
  | .tabs active => .tabs (active.map ids)

@[simp] theorem drawn_rename (ids : NodeId → NodeId) (shape : Shape) :
    (shape.rename ids).drawn = shape.drawn.map ids := by
  cases shape with
  | view => rfl
  | split => rfl
  | tabs active => cases active <;> rfl

/-- Renaming looks at the children that are drawn, and at no other id. -/
theorem rename_congr {ids ids' : NodeId → NodeId} {shape : Shape}
    (h : ∀ child ∈ shape.drawn, ids child = ids' child) : shape.rename ids = shape.rename ids' := by
  cases shape with
  | view => rfl
  | split direction childIds sizes =>
    exact congrArg (Shape.split direction · sizes) (List.map_congr_left h)
  | tabs active =>
    cases active with
    | none => rfl
    | some child => exact congrArg (fun id ↦ Shape.tabs (some id)) (h child List.mem_cons_self)

/-- The shape with another child in the place of one. -/
def replaceChild (old new : NodeId) : Shape → Shape
  | .view => .view
  | .split direction childIds sizes => .split direction (childIds.replace old new) sizes
  | .tabs active => .tabs (active.map fun child ↦ if child = old then new else child)

theorem mem_drawn_replaceChild {old new child : NodeId} {shape : Shape} (hnodup : shape.drawn.Nodup)
    (h : child ∈ (shape.replaceChild old new).drawn) :
    child = new ∨ child ∈ shape.drawn ∧ child ≠ old := by
  cases shape with
  | view => cases h
  | split direction childIds sizes => exact mem_of_mem_replace hnodup h
  | tabs active =>
    cases active with
    | none => cases h
    | some active =>
      obtain rfl := List.mem_singleton.mp h
      dsimp only
      split
      next => exact .inl rfl
      next hne => exact .inr ⟨List.mem_cons_self, hne⟩

theorem mem_drawn_or {old new child : NodeId} {shape : Shape}
    (h : child ∈ (shape.replaceChild old new).drawn) : child = new ∨ child ∈ shape.drawn := by
  cases shape with
  | view => cases h
  | split direction childIds sizes => exact mem_or_of_mem_replace h
  | tabs active =>
    cases active with
    | none => cases h
    | some active =>
      obtain rfl := List.mem_singleton.mp h
      dsimp only
      split
      · exact .inl rfl
      · exact .inr List.mem_cons_self

/-- Where the ids of the children stay, the child that is put in is renamed. -/
theorem rename_replaceChild {ids : NodeId → NodeId} {old new : NodeId} {shape : Shape}
    (h : ∀ child ∈ shape.drawn, ids child = child) :
    (shape.replaceChild old new).rename ids = shape.replaceChild old (ids new) := by
  cases shape with
  | view => rfl
  | split direction childIds sizes =>
    exact congrArg (Shape.split direction · sizes) (map_replace_of_fixed h)
  | tabs active =>
    cases active with
    | none => rfl
    | some active =>
      simp only [replaceChild, rename, Option.map_some]
      split
      · rfl
      · rw [h active List.mem_cons_self]

@[simp] theorem rename_id (shape : Shape) : shape.rename id = shape := by
  cases shape with
  | view => rfl
  | split direction childIds sizes => exact congrArg (Shape.split direction · sizes) (List.map_id _)
  | tabs active => exact congrArg Shape.tabs Option.map_id'

end Shape

/-! ## What is drawn below a node -/

variable {shapes shapes' : NodeId → Option Shape} {ids : NodeId → NodeId}
  {root parent child nodeId : NodeId}

/-- The child is drawn when the parent is. -/
def Draws (shapes : NodeId → Option Shape) (parent child : NodeId) : Prop :=
  ∃ shape, shapes parent = some shape ∧ child ∈ shape.drawn

def Reaches (shapes : NodeId → Option Shape) : NodeId → NodeId → Prop :=
  Relation.ReflTransGen (Draws shapes)

/-- What the first layout draws below the root, the second draws under other ids. -/
def Renames (ids : NodeId → NodeId) (shapes shapes' : NodeId → Option Shape) (root : NodeId) : Prop :=
  ∀ nodeId, Reaches shapes root nodeId → ∀ shape, shapes nodeId = some shape →
    shapes' (ids nodeId) = some (shape.rename ids)

theorem Reaches.rename (h : Renames ids shapes shapes' root) (hreaches : Reaches shapes root nodeId) :
    Reaches shapes' (ids root) (ids nodeId) := by
  induction hreaches with
  | refl => exact .refl
  | @tail parent child hparent hdraws ih =>
    obtain ⟨shape, hshape, hmem⟩ := hdraws
    refine ih.tail ⟨shape.rename ids, h parent hparent shape hshape, ?_⟩
    rw [Shape.drawn_rename]
    exact List.mem_map_of_mem hmem

namespace Protocol

/-- The shape of a node, unless the record lacks what its kind promises. -/
def NodeRecord.shape (record : NodeRecord) : Option Shape :=
  match record.kind with
  | .bufferView => record.bufferView.map fun _ ↦ .view
  | .split => record.split.map fun split ↦ .split split.direction split.childIds split.sizes
  | .tabs => record.tabs.map fun tabs ↦ .tabs (tabs.tabs[tabs.active.toNat]?.map (·.childId))

end Protocol

end Embers
