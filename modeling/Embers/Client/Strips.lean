import Embers.Client.Presentation

/-!
# Strips of a rectangle

A split cuts its rectangle across one axis: the children and the dividers are strips of it. The
children's lengths are shares by weight. Each share is rounded down and the last child takes the
rest, so they add up to what there is to share.
-/

namespace Embers.Client

/-! ## Rectangles -/

namespace Rect

/-- The cell is one of the rectangle's. -/
def Cell (r : Rect) (x y : ℤ) : Prop :=
  r.x ≤ x ∧ x < r.x + r.width ∧ r.y ≤ y ∧ y < r.y + r.height

/-- The rectangle is a part of another. -/
structure Inside (r s : Rect) : Prop where
  left : s.x ≤ r.x
  right : r.x + r.width ≤ s.x + s.width
  top : s.y ≤ r.y
  bottom : r.y + r.height ≤ s.y + s.height

/-- The rectangles have no cell in common. -/
def Apart (r s : Rect) : Prop := ∀ x y, ¬ (r.Cell x y ∧ s.Cell x y)

variable {r s t : Rect}

theorem Inside.refl : r.Inside r := ⟨Int.le_refl _, Int.le_refl _, Int.le_refl _, Int.le_refl _⟩

theorem Inside.trans (h : r.Inside s) (h' : s.Inside t) : r.Inside t :=
  ⟨h'.left.trans h.left, h.right.trans h'.right, h'.top.trans h.top, h.bottom.trans h'.bottom⟩

theorem Inside.cell (h : r.Inside s) {x y : ℤ} (hc : r.Cell x y) : s.Cell x y := by
  obtain ⟨hl, hr, ht, hb⟩ := h
  obtain ⟨h1, h2, h3, h4⟩ := hc
  exact ⟨by omega, by omega, by omega, by omega⟩

theorem Apart.symm (h : r.Apart s) : s.Apart r := fun x y hc ↦ h x y hc.symm

theorem Apart.mono {r' s' : Rect} (h : r.Apart s) (hr : r'.Inside r) (hs : s'.Inside s) :
    r'.Apart s' := fun x y hc ↦ h x y ⟨hr.cell hc.1, hs.cell hc.2⟩

/-- `n` cells of the rectangle along an axis, from the `a`th on, with all that is across. -/
def strip (r : Rect) (direction : SplitDirection) (a n : ℕ) : Rect :=
  match direction with
  | .horizontal => ⟨r.x, r.y + a, r.width, n⟩
  | .vertical => ⟨r.x + a, r.y, n, r.height⟩

variable {direction : SplitDirection} {a b m n : ℕ}

@[simp] theorem axisLength_strip : axisLength (r.strip direction a n) direction = n := by
  rcases direction with _ | _ <;> rfl

theorem strip_inside (h : a + n ≤ axisLength r direction) : (r.strip direction a n).Inside r := by
  rcases direction with _ | _
  · have h : a + n ≤ r.height := h
    refine ⟨Int.le_refl _, Int.le_refl _, ?_, ?_⟩ <;> simp only [strip] <;> omega
  · have h : a + n ≤ r.width := h
    refine ⟨?_, ?_, Int.le_refl _, Int.le_refl _⟩ <;> simp only [strip] <;> omega

theorem strip_inside_strip (hle : b ≤ a) (h : a + n ≤ b + m) :
    (r.strip direction a n).Inside (r.strip direction b m) := by
  rcases direction with _ | _
  · refine ⟨Int.le_refl _, Int.le_refl _, ?_, ?_⟩ <;> simp only [strip] <;> omega
  · refine ⟨?_, ?_, Int.le_refl _, Int.le_refl _⟩ <;> simp only [strip] <;> omega

theorem strip_apart (h : a + n ≤ b) :
    (r.strip direction a n).Apart (r.strip direction b m) := by
  rintro x y ⟨⟨h1, h2, h3, h4⟩, h5, h6, h7, h8⟩
  rcases direction with _ | _ <;> simp only [strip] at h1 h2 h3 h4 h5 h6 h7 h8 <;> omega

end Rect

/-! ## Lengths -/

theorem sumBits_eq_ok {bits n : ℕ} {values : List ℕ} :
    sumBits bits values = .ok n ↔ values.sum < 2 ^ bits ∧ values.sum = n := by
  rw [sumBits]
  split
  · next hlt => exact ⟨fun h ↦ ⟨hlt, Except.ok.inj h⟩, fun h ↦ by rw [h.2]; rfl⟩
  · next hge => exact ⟨fun h ↦ (nomatch h), fun h ↦ absurd h.1 hge⟩

/-- Shares of weights that sum to at most `weightSum` take no more than there is, and together with
what was used before all of it. `before` are the weights whose shares were used. -/
theorem shares_ok {total weightSum : ℕ} (htotal : total < 2 ^ 16) (hpos : 0 < weightSum) :
    ∀ {weights : List ℕ} {used before : ℕ}, weights ≠ [] → (∀ w ∈ weights, w < 2 ^ 16) →
      used * weightSum ≤ total * before → before + weights.sum ≤ weightSum →
      ∃ lengths, shares total weightSum weights used = .ok lengths ∧
        lengths.length = weights.length ∧ used + lengths.sum = total := by
  intro weights
  induction weights with
  | nil => exact fun h ↦ absurd rfl h
  | cons weight weights ih =>
    intro used before _ hweights hused hsum
    have hle : used ≤ total := by
      have hbefore : before ≤ weightSum := by omega
      have := Nat.le_trans hused (Nat.mul_le_mul_left total hbefore)
      exact Nat.le_of_mul_le_mul_right this hpos
    rcases weights with _ | ⟨weight', weights⟩
    · exact ⟨[total - used], rfl, rfl, by simp only [List.sum_cons, List.sum_nil]; omega⟩
    · rw [List.sum_cons] at hsum
      have hweight : weight < 2 ^ 16 := hweights weight List.mem_cons_self
      have hproduct : total * weight < 2 ^ 32 := by
        calc total * weight < 2 ^ 16 * 2 ^ 16 := Nat.mul_lt_mul'' htotal hweight
          _ = 2 ^ 32 := by norm_num
      let length := total * weight / weightSum
      -- What is used so far stays below the shares of the weights so far.
      have hused' : (used + length) * weightSum ≤ total * (before + weight) := by
        have hdiv : length * weightSum ≤ total * weight := Nat.div_mul_le_self _ _
        rw [Nat.add_mul, Nat.mul_add]
        exact Nat.add_le_add hused hdiv
      have hle' : used + length ≤ total := by
        have hbefore : before + weight ≤ weightSum := by omega
        have := Nat.le_trans hused' (Nat.mul_le_mul_left total hbefore)
        exact Nat.le_of_mul_le_mul_right this hpos
      obtain ⟨rest, hrest, hlength, htotal'⟩ := ih (List.cons_ne_nil _ _)
        (fun w hw ↦ hweights w (List.mem_cons_of_mem _ hw)) hused' (by omega)
      have hadd : add16 used (length % 2 ^ 16) = used + length := by
        rw [Nat.mod_eq_of_lt (by omega), add16]
        omega
      refine ⟨length :: rest, ?_, by rw [List.length_cons, List.length_cons, hlength],
        by rw [List.sum_cons]; omega⟩
      have hshare : sumBits 32 [total * weight] = .ok (total * weight) := by
        rw [sumBits_eq_ok]
        simp only [List.sum_cons, List.sum_nil]
        omega
      have hmod : length % 2 ^ 16 = length := Nat.mod_eq_of_lt (by omega)
      rw [hmod] at hadd
      change (sumBits 32 [total * weight] >>= _) = _
      rw [hshare, Answer.bind_ok]
      change (shares total weightSum _ (add16 used (length % 2 ^ 16)) >>= _) = _
      rw [hmod, hadd, hrest]
      rfl

/-- The weights that a length is shared by. -/
def weightsOf (sizes : List UInt16) (childCount : ℕ) : List ℕ :=
  if sizes.length = childCount ∧ sizes.any (· > 0) then sizes.map (·.toNat)
  else List.replicate childCount 1

theorem length_weightsOf {sizes : List UInt16} {childCount : ℕ} :
    (weightsOf sizes childCount).length = childCount := by
  rw [weightsOf]
  split
  · next h => rw [List.length_map, h.1]
  · exact List.length_replicate

theorem lt_of_mem_weightsOf {sizes : List UInt16} {childCount : ℕ} :
    ∀ w ∈ weightsOf sizes childCount, w < 2 ^ 16 := by
  intro w hw
  rw [weightsOf] at hw
  split at hw
  · obtain ⟨size, -, rfl⟩ := List.mem_map.mp hw
    exact size.toNat_lt
  · rw [List.eq_of_mem_replicate hw]
    decide

/-- The lengths are one for each child and add up to the total. -/
theorem proportionalLengths_ok {total childCount : ℕ} {sizes : List UInt16}
    (htotal : total < 2 ^ 16) (hcount : childCount ≠ 0)
    (hsum : total = 0 ∨ (weightsOf sizes childCount).sum < 2 ^ 32) :
    ∃ lengths, proportionalLengths total sizes childCount = .ok lengths ∧
      lengths.length = childCount ∧ lengths.sum = total := by
  rw [proportionalLengths, if_neg hcount]
  rcases Nat.eq_zero_or_pos total with hzero | hpos
  · rw [if_pos hzero]
    exact ⟨List.replicate childCount 0, rfl, List.length_replicate, by simp [hzero]⟩
  · rw [if_neg (Nat.ne_of_gt hpos)]
    have hsum := hsum.resolve_left (Nat.ne_of_gt hpos)
    have hweights : weightsOf sizes childCount ≠ [] := by
      rw [← List.length_pos_iff, length_weightsOf]
      exact Nat.pos_of_ne_zero hcount
    let weightSum := max (weightsOf sizes childCount).sum 1
    have hused : 0 * weightSum ≤ total * 0 := by omega
    have hbefore : 0 + (weightsOf sizes childCount).sum ≤ weightSum := by omega
    obtain ⟨lengths, hshares, hlength, htotal'⟩ :=
      shares_ok htotal (by omega) hweights lt_of_mem_weightsOf hused hbefore
    refine ⟨lengths, ?_, hlength.trans length_weightsOf, by omega⟩
    change (sumBits 32 (weightsOf sizes childCount) >>= _) = _
    rw [sumBits_eq_ok.mpr ⟨hsum, rfl⟩]
    change (shares total weightSum (weightsOf sizes childCount) 0 >>= _) = _
    have hsum' : sumBits 16 lengths = .ok total := sumBits_eq_ok.mpr ⟨by omega, by omega⟩
    rw [hshares, Answer.bind_ok, hsum', Answer.bind_ok, Nat.sub_self]
    rfl

theorem sum_lt_of_proportionalLengths {total childCount : ℕ} {sizes : List UInt16}
    {lengths : List ℕ} (hcount : childCount ≠ 0)
    (h : proportionalLengths total sizes childCount = .ok lengths) :
    total = 0 ∨ (weightsOf sizes childCount).sum < 2 ^ 32 := by
  rw [proportionalLengths, if_neg hcount] at h
  split at h
  · next hzero => exact .inl hzero
  · obtain ⟨weightSum, hsum, -⟩ := Answer.ok_bind h
    exact .inr (sumBits_eq_ok.mp hsum).1

/-- With no more children than 65536, no sum of weights overflows. -/
theorem sum_weightsOf_lt {sizes : List UInt16} {childCount : ℕ} (h : childCount ≤ 65536) :
    (weightsOf sizes childCount).sum < 2 ^ 32 := by
  have hbound : ∀ {weights : List ℕ}, (∀ w ∈ weights, w < 2 ^ 16) →
      weights.sum ≤ weights.length * 65535 := by
    intro weights
    induction weights with
    | nil => exact fun _ ↦ Nat.le_refl 0
    | cons w ws ih =>
      intro hws
      have hw := hws w List.mem_cons_self
      have hsum := ih fun w' hw' ↦ hws w' (List.mem_cons_of_mem _ hw')
      rw [List.sum_cons, List.length_cons, Nat.add_mul]
      omega
  have hlt : ∀ w ∈ weightsOf sizes childCount, w < 2 ^ 16 := lt_of_mem_weightsOf
  have hle := hbound hlt
  rw [length_weightsOf] at hle
  omega

/-! ## The children of a split -/

/-- Strips of some lengths, one after the other with a cell between them. -/
def childStrips (rect : Rect) (direction : SplitDirection) : List ℕ → ℕ → List Rect
  | [], _ => []
  | length :: lengths, a =>
    rect.strip direction a length :: childStrips rect direction lengths (a + length + 1)

theorem addI32_eq_ok {a b n : ℤ} :
    addI32 a b = .ok n ↔ (-2 ^ 31 ≤ a + b ∧ a + b < 2 ^ 31) ∧ a + b = n := by
  rw [addI32]
  split
  · next hin => exact ⟨fun h ↦ ⟨hin, Except.ok.inj h⟩, fun h ↦ by rw [h.2]; rfl⟩
  · next hout => exact ⟨fun h ↦ (nomatch h), fun h ↦ absurd h.1 hout⟩

/-- The rectangle is on a screen, whose sides have 16 bits. -/
structure OnScreen (rect : Rect) : Prop where
  left : 0 ≤ rect.x
  right : rect.x + rect.width < 2 ^ 16
  top : 0 ≤ rect.y
  bottom : rect.y + rect.height < 2 ^ 16

theorem OnScreen.of_inside {r s : Rect} (h : r.Inside s) (hs : OnScreen s) : OnScreen r :=
  ⟨hs.left.trans h.left, h.right.trans_lt hs.right, hs.top.trans h.top, h.bottom.trans_lt hs.bottom⟩

theorem OnScreen.axisLength_lt {rect : Rect} (h : OnScreen rect) (direction : SplitDirection) :
    axisLength rect direction < 2 ^ 16 := by
  obtain ⟨hl, hr, ht, hb⟩ := h
  rcases direction with _ | _ <;> rw [axisLength] <;> omega

theorem placeChildren_eq_ok {rect : Rect} {direction : SplitDirection} :
    ∀ {lengths : List ℕ} {a : ℕ} {rects : List Rect},
      placeChildren rect direction lengths (rect.strip direction a 0).x
        (rect.strip direction a 0).y = .ok rects → rects = childStrips rect direction lengths a := by
  intro lengths
  induction lengths with
  | nil => exact fun h ↦ (Except.ok.inj h).symm
  | cons length lengths ih =>
    intro a rects h
    rcases direction with _ | _
    · obtain ⟨next, hnext, h₁⟩ := Answer.ok_bind h
      obtain ⟨rest, hrest, h₂⟩ := Answer.ok_bind h₁
      obtain ⟨-, rfl⟩ := addI32_eq_ok.mp hnext
      obtain rfl := Except.ok.inj h₂
      have hy : rect.y + a + (length + 1 : ℤ) = rect.y + ((a + length + 1 : ℕ) : ℤ) := by
        push_cast
        ring
      change placeChildren rect .horizontal lengths rect.x (rect.y + a + (length + 1)) = _ at hrest
      rw [hy] at hrest
      rw [childStrips, ← ih hrest]
      rfl
    · obtain ⟨next, hnext, h₁⟩ := Answer.ok_bind h
      obtain ⟨rest, hrest, h₂⟩ := Answer.ok_bind h₁
      obtain ⟨-, rfl⟩ := addI32_eq_ok.mp hnext
      obtain rfl := Except.ok.inj h₂
      have hx : rect.x + a + (length + 1 : ℤ) = rect.x + ((a + length + 1 : ℕ) : ℤ) := by
        push_cast
        ring
      change placeChildren rect .vertical lengths (rect.x + a + (length + 1)) rect.y = _ at hrest
      rw [hx] at hrest
      rw [childStrips, ← ih hrest]
      rfl

/-- On a screen the children are placed, as long as there are not too many of them. -/
theorem placeChildren_ok {rect : Rect} {direction : SplitDirection} (hscreen : OnScreen rect) :
    ∀ {lengths : List ℕ} {a : ℕ}, a + lengths.sum + lengths.length ≤ 2 ^ 30 →
      placeChildren rect direction lengths (rect.strip direction a 0).x
        (rect.strip direction a 0).y = .ok (childStrips rect direction lengths a) := by
  intro lengths
  induction lengths with
  | nil => exact fun _ ↦ rfl
  | cons length lengths ih =>
    intro a hle
    rw [List.sum_cons, List.length_cons] at hle
    obtain ⟨hl, hr, ht, hb⟩ := hscreen
    have hle' : a + length + 1 + lengths.sum + lengths.length ≤ 2 ^ 30 := by omega
    have hrest := ih hle'
    rcases direction with _ | _
    · have hnext : addI32 (rect.y + a) (length + 1) = .ok (rect.y + (a + length + 1 : ℕ)) := by
        rw [addI32_eq_ok]
        push_cast
        omega
      change (addI32 (rect.y + a) (length + 1) >>= _) = _
      rw [hnext, Answer.bind_ok]
      change (placeChildren rect .horizontal lengths rect.x _ >>= _) = _
      change placeChildren rect .horizontal lengths rect.x (rect.y + (a + length + 1 : ℕ)) = _ at hrest
      rw [hrest]
      rfl
    · have hnext : addI32 (rect.x + a) (length + 1) = .ok (rect.x + (a + length + 1 : ℕ)) := by
        rw [addI32_eq_ok]
        push_cast
        omega
      change (addI32 (rect.x + a) (length + 1) >>= _) = _
      rw [hnext, Answer.bind_ok]
      change (placeChildren rect .vertical lengths _ rect.y >>= _) = _
      change placeChildren rect .vertical lengths (rect.x + (a + length + 1 : ℕ)) rect.y = _ at hrest
      rw [hrest]
      rfl

theorem strip_zero_origin {rect : Rect} {direction : SplitDirection} :
    (rect.strip direction 0 0).x = rect.x ∧ (rect.strip direction 0 0).y = rect.y := by
  rcases direction with _ | _ <;> simp [Rect.strip]

/-- The lengths of the children of a split. -/
structure Lengths (rect : Rect) (direction : SplitDirection) (childCount : ℕ)
    (lengths : List ℕ) : Prop where
  length : lengths.length = childCount
  sum : lengths.sum = axisLength rect direction - min (childCount - 1) 65535

/-- The children of a split are strips of its rectangle. -/
theorem splitRects_eq_ok {rect : Rect} {direction : SplitDirection} {sizes : List UInt16}
    {childCount : ℕ} {rects : List Rect} (hscreen : OnScreen rect) (hcount : childCount ≠ 0)
    (h : splitRects rect direction sizes childCount = .ok rects) :
    ∃ lengths, Lengths rect direction childCount lengths ∧
      rects = childStrips rect direction lengths 0 := by
  rw [splitRects, if_neg hcount] at h
  obtain ⟨lengths, hlengths, hplace⟩ := Answer.ok_bind h
  have htotal := hscreen.axisLength_lt direction
  obtain ⟨lengths', hlengths', hlength, hsum'⟩ :=
    proportionalLengths_ok (by omega) hcount (sum_lt_of_proportionalLengths hcount hlengths)
  obtain rfl : lengths' = lengths := Except.ok.inj (hlengths'.symm.trans hlengths)
  refine ⟨lengths', ⟨hlength, hsum'⟩, placeChildren_eq_ok ?_⟩
  rw [strip_zero_origin.1, strip_zero_origin.2]
  exact hplace

/-- A split that has room for its dividers is placed. -/
theorem splitRects_ok {rect : Rect} {direction : SplitDirection} {sizes : List UInt16}
    {childCount : ℕ} (hscreen : OnScreen rect) (hcount : childCount ≠ 0)
    (hroom : childCount ≤ axisLength rect direction + 1) :
    ∃ rects, splitRects rect direction sizes childCount = .ok rects := by
  have htotal := hscreen.axisLength_lt direction
  have hweights : (weightsOf sizes childCount).sum < 2 ^ 32 := sum_weightsOf_lt (by omega)
  have htotal' : axisLength rect direction - min (childCount - 1) 65535 < 2 ^ 16 := by omega
  obtain ⟨lengths, hlengths, hlength, hsum⟩ :=
    proportionalLengths_ok htotal' hcount (.inr hweights)
  have hle : 0 + lengths.sum + lengths.length ≤ 2 ^ 30 := by omega
  have hplace : placeChildren rect direction lengths _ _ = _ := placeChildren_ok hscreen hle
  rw [strip_zero_origin.1, strip_zero_origin.2] at hplace
  refine ⟨childStrips rect direction lengths 0, ?_⟩
  rw [splitRects, if_neg hcount]
  simp only
  rw [hlengths, Answer.bind_ok]
  exact hplace

end Embers.Client
