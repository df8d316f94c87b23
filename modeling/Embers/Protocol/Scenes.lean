import Embers.Protocol.Shapes

/-!
# Scenes

What the screen of a session is drawn from while none of its nodes is zoomed: the shapes of the
nodes, the root of the window and the popups. The server's state and a client's records both give a
scene, and a new pane comes into it in one of three ways: next to another pane, as a tab, in a popup.

A client that puts the pane in ahead of the server does so under ids of its own. Two scenes that
agree on what they had before are the same ones under other ids after it (`Agrees.splitPane` and the
two after it).
-/

namespace Embers

/-- A popup, as far as it is drawn. -/
structure Popup where
  root : NodeId
  geometry : FloatGeometry
  visible : Bool
  border : Bool

@[ext] structure Scene where
  shapes : NodeId → Option Shape
  root : NodeId
  floatingIds : List FloatingId
  popups : FloatingId → Option Popup

namespace Scene

def Root (scene : Scene) (nodeId : NodeId) : Prop :=
  nodeId = scene.root ∨ ∃ floatingId ∈ scene.floatingIds, ∃ popup,
    scene.popups floatingId = some popup ∧ popup.root = nodeId

/-- What is drawn below the roots. Hidden popups are counted in. -/
def Drawn (scene : Scene) (nodeId : NodeId) : Prop :=
  ∃ root, scene.Root root ∧ Reaches scene.shapes root nodeId

variable {scene scene' : Scene} {within : NodeId → Prop} {ids : NodeId → NodeId}
  {windows : FloatingId → FloatingId} {nodeId : NodeId}

theorem Drawn.child (h : scene.Drawn nodeId) {shape : Shape} (hshape : scene.shapes nodeId = some shape)
    {child : NodeId} (hmem : child ∈ shape.drawn) : scene.Drawn child := by
  obtain ⟨root, hroot, hreaches⟩ := h
  exact ⟨root, hroot, hreaches.tail ⟨shape, hshape, hmem⟩⟩

/-- What is drawn is in every set that has the roots and, with a node, all that is drawn below it. -/
theorem Drawn.mem_of_closed (h : scene.Drawn nodeId) (hroots : ∀ root, scene.Root root → within root)
    (hclosed : ∀ parent, within parent → ∀ shape, scene.shapes parent = some shape →
      ∀ child ∈ shape.drawn, within child) : within nodeId := by
  obtain ⟨root, hroot, hreaches⟩ := h
  induction hreaches with
  | refl => exact hroots root hroot
  | @tail parent child _ hdraws ih =>
    obtain ⟨shape, hshape, hmem⟩ := hdraws
    exact hclosed parent ih shape hshape child hmem

/-! ## Scenes under other ids -/

/-- What the first scene has in a set of nodes that is closed, the second has under other ids. -/
structure Renames (ids : NodeId → NodeId) (windows : FloatingId → FloatingId) (within : NodeId → Prop)
    (scene scene' : Scene) : Prop where
  root : scene'.root = ids scene.root
  rootWithin : within scene.root
  floatingIds : scene'.floatingIds = scene.floatingIds.map windows
  popup {floatingId : FloatingId} (h : floatingId ∈ scene.floatingIds) : ∃ popup,
    scene.popups floatingId = some popup ∧
      scene'.popups (windows floatingId) = some { popup with root := ids popup.root } ∧
        within popup.root
  shape {nodeId : NodeId} (h : within nodeId) : ∃ shape, scene.shapes nodeId = some shape ∧
    scene'.shapes (ids nodeId) = some (shape.rename ids) ∧ ∀ child ∈ shape.drawn, within child

theorem Renames.within_of_drawn (h : Renames ids windows within scene scene')
    (hdrawn : scene.Drawn nodeId) : within nodeId := by
  refine hdrawn.mem_of_closed ?_ fun parent hparent shape hshape ↦ ?_
  · rintro root (rfl | ⟨floatingId, hmem, popup, hpopup, rfl⟩)
    · exact h.rootWithin
    · obtain ⟨popup', hpopup', -, hwithin⟩ := h.popup hmem
      obtain rfl := Option.some.inj (hpopup.symm.trans hpopup')
      exact hwithin
  · obtain ⟨shape', hshape', -, hclosed⟩ := h.shape hparent
    obtain rfl := Option.some.inj (hshape.symm.trans hshape')
    exact hclosed

/-- What the first scene draws, the second draws under other ids. -/
theorem Renames.drawn (h : Renames ids windows within scene scene') (hdrawn : scene.Drawn nodeId) :
    scene'.Drawn (ids nodeId) := by
  obtain ⟨root, hroot, hreaches⟩ := hdrawn
  refine ⟨ids root, ?_, hreaches.rename fun id hid shape hshape ↦ ?_⟩
  · rcases hroot with rfl | ⟨floatingId, hmem, popup, hpopup, rfl⟩
    · exact .inl h.root.symm
    · obtain ⟨popup', hpopup', hrenamed, -⟩ := h.popup hmem
      obtain rfl := Option.some.inj (hpopup.symm.trans hpopup')
      refine .inr ⟨windows floatingId, ?_, _, hrenamed, rfl⟩
      rw [h.floatingIds]
      exact List.mem_map_of_mem hmem
  · obtain ⟨shape', hshape', hrenamed, -⟩ := h.shape (h.within_of_drawn ⟨root, hroot, hid⟩)
    obtain rfl := Option.some.inj (hshape.symm.trans hshape')
    exact hrenamed

/-- In a set of nodes that has the roots the scenes are the same, and complete. -/
structure Agrees (within : NodeId → Prop) (scene scene' : Scene) : Prop where
  root : scene'.root = scene.root
  rootWithin : within scene.root
  floatingIds : scene'.floatingIds = scene.floatingIds
  popup {floatingId : FloatingId} (h : floatingId ∈ scene.floatingIds) : ∃ popup,
    scene.popups floatingId = some popup ∧ scene'.popups floatingId = some popup ∧ within popup.root
  shape {nodeId : NodeId} (h : within nodeId) : ∃ shape, scene.shapes nodeId = some shape ∧
    scene'.shapes nodeId = some shape ∧ ∀ child ∈ shape.drawn, within child

/-- Scenes that agree need no other ids. -/
theorem Agrees.renames (h : Agrees within scene scene') : Renames id id within scene scene' where
  root := h.root
  rootWithin := h.rootWithin
  floatingIds := h.floatingIds.trans (List.map_id _).symm
  popup := h.popup
  shape hnode := by
    obtain ⟨shape, hshape, hshape', hclosed⟩ := h.shape hnode
    exact ⟨shape, hshape, by rw [Shape.rename_id]; exact hshape', hclosed⟩

/-! ## New panes -/

variable {parentId : Option NodeId} {leafId tabsId paneId paneId' splitId splitId' : NodeId}
  {direction : SplitDirection}

/-- A pane second in a split that takes the place of another pane. -/
def splitPane (scene : Scene) (parentId : Option NodeId) (leafId : NodeId) (direction : SplitDirection)
    (splitId paneId : NodeId) : Scene where
  shapes nodeId :=
    if nodeId = paneId then some .view
    else if nodeId = splitId then some (.split direction [leafId, paneId] [1, 1])
    else if parentId = some nodeId then (scene.shapes nodeId).map (Shape.replaceChild leafId splitId)
    else scene.shapes nodeId
  root := scene.root
  floatingIds := scene.floatingIds
  popups floatingId :=
    if parentId = none then (scene.popups floatingId).map fun popup ↦
      if popup.root = leafId then { popup with root := splitId } else popup
    else scene.popups floatingId

/-- A pane as the active tab. -/
def addTab (scene : Scene) (tabsId paneId : NodeId) : Scene :=
  { scene with
    shapes := fun nodeId ↦
      if nodeId = paneId then some .view
      else if nodeId = tabsId then some (.tabs (some paneId))
      else scene.shapes nodeId }

/-- A pane in a popup above the others. -/
def addPopup (scene : Scene) (floatingId : FloatingId) (geometry : FloatGeometry) (border : Bool)
    (paneId : NodeId) : Scene where
  shapes nodeId := if nodeId = paneId then some .view else scene.shapes nodeId
  root := scene.root
  floatingIds := scene.floatingIds ++ [floatingId]
  popups id := if id = floatingId then some ⟨paneId, geometry, true, border⟩ else scene.popups id

/-- A border takes room, but no node away. -/
theorem Drawn.addPopup_border {floatingId : FloatingId} {geometry : FloatGeometry} {border border' : Bool}
    (h : (scene.addPopup floatingId geometry border paneId).Drawn nodeId) :
    (scene.addPopup floatingId geometry border' paneId).Drawn nodeId := by
  obtain ⟨root, hroot, hreaches⟩ := h
  refine ⟨root, ?_, hreaches⟩
  rcases hroot with rfl | ⟨listed, hmem, popup, hpopup, rfl⟩
  · exact .inl rfl
  · refine .inr ⟨listed, hmem, ?_⟩
    simp only [addPopup] at hpopup ⊢
    split at hpopup
    next hlisted =>
      obtain rfl := Option.some.inj hpopup
      exact ⟨_, if_pos hlisted, rfl⟩
    next hlisted => exact ⟨popup, (if_neg hlisted).trans hpopup, rfl⟩

/-- The new id of an entry, where there is one, and its own otherwise. -/
def rekey {κ : Type} [DecidableEq κ] (old new : κ) (ids : κ → κ) (id : κ) : κ :=
  if id = old then new else ids id

@[simp] theorem rekey_self {κ : Type} [DecidableEq κ] (old new : κ) (ids : κ → κ) :
    rekey old new ids old = new := if_pos rfl

theorem rekey_of_ne {κ : Type} [DecidableEq κ] {old new id : κ} {ids : κ → κ} (h : id ≠ old) :
    rekey old new ids id = ids id := if_neg h

/-- A new id is the new id of one entry only. -/
theorem eq_of_rekey {κ : Type} [DecidableEq κ] {old new id : κ} {ids : κ → κ}
    (h : rekey old new ids id = rekey old new ids old) (hne : id ≠ old → ids id ≠ new) : id = old := by
  by_contra hold
  rw [rekey_self, rekey_of_ne hold] at h
  exact hne hold h

theorem shapes_splitPane_pane (scene : Scene) :
    (scene.splitPane parentId leafId direction splitId paneId).shapes paneId = some .view := if_pos rfl

theorem shapes_splitPane_split (scene : Scene) (hne : splitId ≠ paneId) :
    (scene.splitPane parentId leafId direction splitId paneId).shapes splitId =
      some (.split direction [leafId, paneId] [1, 1]) := (if_neg hne).trans (if_pos rfl)

theorem shapes_splitPane_of_ne (scene : Scene) (hpane : nodeId ≠ paneId) (hsplit : nodeId ≠ splitId) :
    (scene.splitPane parentId leafId direction splitId paneId).shapes nodeId =
      if parentId = some nodeId then (scene.shapes nodeId).map (Shape.replaceChild leafId splitId)
      else scene.shapes nodeId := (if_neg hpane).trans (if_neg hsplit)

/-- Ids that stay and ids that are changed are told apart by the set. -/
theorem ne_of_within {nodeId otherId : NodeId} (hnode : within nodeId) (hother : ¬ within otherId) :
    nodeId ≠ otherId := fun heq ↦ hother (heq ▸ hnode)

/-- A shape whose children keep their ids. -/
theorem rename_of_fixed {shape : Shape} (h : ∀ child ∈ shape.drawn, ids child = child) :
    shape.rename ids = shape :=
  (show shape.rename ids = shape.rename id from Shape.rename_congr h).trans (Shape.rename_id shape)

/-- A pane that two scenes that agree both put next to a pane they have. -/
theorem Agrees.splitPane (h : Agrees within scene scene') (parentId : Option NodeId)
    (direction : SplitDirection) (hleaf : within leafId)
    (hpane : ¬ within paneId) (hsplit : ¬ within splitId) (hpane' : ¬ within paneId')
    (hsplit' : ¬ within splitId') (hne : splitId ≠ paneId) (hne' : splitId' ≠ paneId') :
    Renames (rekey paneId paneId' (rekey splitId splitId' id)) id
      (fun id ↦ within id ∨ id = splitId ∨ id = paneId)
      (scene.splitPane parentId leafId direction splitId paneId)
      (scene'.splitPane parentId leafId direction splitId' paneId') := by
  have hfixed {nodeId : NodeId} (hnode : within nodeId) :
      rekey paneId paneId' (rekey splitId splitId' id) nodeId = nodeId := by
    rw [rekey_of_ne (ne_of_within hnode hpane), rekey_of_ne (ne_of_within hnode hsplit), id_eq]
  have hnew : rekey paneId paneId' (rekey splitId splitId' id) splitId = splitId' := by
    rw [rekey_of_ne hne, rekey_self]
  constructor
  case root => exact h.root.trans (hfixed h.rootWithin).symm
  case rootWithin => exact .inl h.rootWithin
  case floatingIds => exact h.floatingIds.trans (List.map_id _).symm
  case popup =>
    intro floatingId hmem
    obtain ⟨popup, hpopup, hpopup', hwithin⟩ := h.popup hmem
    simp only [Scene.splitPane, id_eq, hpopup, hpopup', Option.map_some]
    split
    · split
      · exact ⟨_, rfl, by rw [hnew], .inr (.inl rfl)⟩
      · exact ⟨popup, rfl, by rw [hfixed hwithin], .inl hwithin⟩
    · exact ⟨popup, rfl, by rw [hfixed hwithin], .inl hwithin⟩
  case shape =>
    rintro nodeId (hnode | rfl | rfl)
    · -- a node that was there before is drawn as it was, but for the parent of the pane
      obtain ⟨before, hbefore, hbefore', hclosed⟩ := h.shape hnode
      have hids : ∀ child ∈ before.drawn,
          rekey paneId paneId' (rekey splitId splitId' id) child = child :=
        fun child hchild ↦ hfixed (hclosed child hchild)
      rw [hfixed hnode,
        shapes_splitPane_of_ne scene (ne_of_within hnode hpane) (ne_of_within hnode hsplit),
        shapes_splitPane_of_ne scene' (ne_of_within hnode hpane') (ne_of_within hnode hsplit'),
        hbefore, hbefore']
      split
      · refine ⟨_, rfl, ?_, fun child hchild ↦ ?_⟩
        · rw [Option.map_some, Shape.rename_replaceChild hids, hnew]
        · rcases Shape.mem_drawn_or hchild with rfl | hchild
          · exact .inr (.inl rfl)
          · exact .inl (hclosed child hchild)
      · exact ⟨before, rfl, by rw [rename_of_fixed hids], fun child hchild ↦ .inl (hclosed child hchild)⟩
    · refine ⟨_, shapes_splitPane_split scene hne, ?_, fun child hchild ↦ ?_⟩
      · rw [hnew, shapes_splitPane_split scene' hne', Shape.rename, List.map_cons, List.map_cons,
          List.map_nil, hfixed hleaf, rekey_self]
      · rcases List.mem_cons.mp hchild with rfl | hchild
        · exact .inl hleaf
        · exact .inr (.inr (List.mem_singleton.mp hchild))
    · refine ⟨_, shapes_splitPane_pane scene, ?_, fun child hchild ↦ by cases hchild⟩
      rw [rekey_self, shapes_splitPane_pane]
      rfl

/-- A tab that two scenes that agree both add to the same tabs. -/
theorem Agrees.addTab (h : Agrees within scene scene') (tabsId : NodeId) (hpane : ¬ within paneId)
    (hpane' : ¬ within paneId') :
    Renames (rekey paneId paneId' id) id (fun id ↦ within id ∨ id = paneId)
      (scene.addTab tabsId paneId) (scene'.addTab tabsId paneId') := by
  have hfixed {nodeId : NodeId} (hnode : within nodeId) : rekey paneId paneId' id nodeId = nodeId :=
    rekey_of_ne (ne_of_within hnode hpane)
  constructor
  case root => exact h.root.trans (hfixed h.rootWithin).symm
  case rootWithin => exact .inl h.rootWithin
  case floatingIds => exact h.floatingIds.trans (List.map_id _).symm
  case popup =>
    intro floatingId hmem
    obtain ⟨popup, hpopup, hpopup', hwithin⟩ := h.popup hmem
    exact ⟨popup, hpopup, by rw [hfixed hwithin]; exact hpopup', .inl hwithin⟩
  case shape =>
    rintro nodeId (hnode | rfl)
    · obtain ⟨before, hbefore, hbefore', hclosed⟩ := h.shape hnode
      simp only [hfixed hnode, Scene.addTab]
      rw [if_neg (ne_of_within hnode hpane), if_neg (ne_of_within hnode hpane')]
      split
      · refine ⟨_, rfl, ?_, fun child hchild ↦ .inr (List.mem_singleton.mp hchild)⟩
        rw [Shape.rename, Option.map_some, rekey_self]
      · exact ⟨before, hbefore,
          by rw [rename_of_fixed fun child hchild ↦ hfixed (hclosed child hchild)]; exact hbefore',
          fun child hchild ↦ .inl (hclosed child hchild)⟩
    · refine ⟨.view, if_pos rfl, ?_, fun child hchild ↦ by cases hchild⟩
      rw [rekey_self]
      exact if_pos rfl

/-- A popup that two scenes that agree both open. -/
theorem Agrees.addPopup (h : Agrees within scene scene') {floatingId floatingId' : FloatingId}
    (geometry : FloatGeometry) (border : Bool) (hpane : ¬ within paneId) (hpane' : ¬ within paneId')
    (hnew : floatingId ∉ scene.floatingIds) (hnew' : floatingId' ∉ scene.floatingIds) :
    Renames (rekey paneId paneId' id) (rekey floatingId floatingId' id) (fun id ↦ within id ∨ id = paneId)
      (scene.addPopup floatingId geometry border paneId)
      (scene'.addPopup floatingId' geometry border paneId') := by
  have hfixed {nodeId : NodeId} (hnode : within nodeId) : rekey paneId paneId' id nodeId = nodeId :=
    rekey_of_ne (ne_of_within hnode hpane)
  have hother {listed opened : FloatingId} (hmem : listed ∈ scene.floatingIds)
      (hopened : opened ∉ scene.floatingIds) : listed ≠ opened := fun heq ↦ hopened (heq ▸ hmem)
  have hwindow {listed : FloatingId} (hmem : listed ∈ scene.floatingIds) :
      rekey floatingId floatingId' id listed = listed := rekey_of_ne (hother hmem hnew)
  constructor
  case root => exact h.root.trans (hfixed h.rootWithin).symm
  case rootWithin => exact .inl h.rootWithin
  case floatingIds =>
    simp only [Scene.addPopup, h.floatingIds, List.map_append, List.map_cons, List.map_nil, rekey_self]
    rw [List.map_congr_left fun listed hmem ↦ hwindow hmem, List.map_id']
  case popup =>
    intro listed hmem
    rcases List.mem_append.mp hmem with hmem | hmem
    · obtain ⟨popup, hpopup, hpopup', hwithin⟩ := h.popup hmem
      refine ⟨popup, (if_neg (hother hmem hnew)).trans hpopup, ?_, .inl hwithin⟩
      rw [hwindow hmem, hfixed hwithin]
      exact (if_neg (hother hmem hnew')).trans hpopup'
    · obtain rfl := List.mem_singleton.mp hmem
      refine ⟨_, if_pos rfl, ?_, .inr rfl⟩
      rw [rekey_self, rekey_self]
      exact if_pos rfl
  case shape =>
    rintro nodeId (hnode | rfl)
    · obtain ⟨before, hbefore, hbefore', hclosed⟩ := h.shape hnode
      refine ⟨before, (if_neg (ne_of_within hnode hpane)).trans hbefore, ?_,
        fun child hchild ↦ .inl (hclosed child hchild)⟩
      rw [hfixed hnode, rename_of_fixed fun child hchild ↦ hfixed (hclosed child hchild)]
      exact (if_neg (ne_of_within hnode hpane')).trans hbefore'
    · refine ⟨.view, if_pos rfl, ?_, fun child hchild ↦ by cases hchild⟩
      rw [rekey_self]
      exact if_pos rfl

end Scene

end Embers
