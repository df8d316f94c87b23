import Embers.Client.WordMotions

/-!
# Word motions go where they should

Each motion is followed through its loops. A loop's outcome is known from `seek_ok` and
`seek_stuck`: everything it went over passed its test, and what it stopped at does not. What the
tests of a motion say together is that nothing on the way is what the motion looks for, and that the
place it stops at is.
-/

namespace Embers.Client

namespace Text

variable {t : Text} {w w' : Walker}

/-! ## Fuel -/

theorem exists_le_of_mem {α : Type} (f : α → ℕ) : ∀ l : List α, ∃ most, ∀ a ∈ l, f a ≤ most
  | [] => ⟨0, nofun⟩
  | a :: l => by
    obtain ⟨most, hmost⟩ := exists_le_of_mem f l
    refine ⟨max (f a) most, fun b hb ↦ ?_⟩
    rcases List.mem_cons.mp hb with rfl | hb
    · exact Nat.le_max_left _ _
    · exact Nat.le_trans (hmost b hb) (Nat.le_max_right _ _)

/-- No line is longer than some number of cells. -/
theorem exists_length_le (t : Text) : ∃ most, ∀ line, (t.row line).length ≤ most := by
  obtain ⟨most, hmost⟩ :=
    exists_le_of_mem (fun line ↦ (cells t.unicode line).length) ([] :: t.lines)
  refine ⟨most, fun line ↦ hmost (t.lines[line]?.getD []) ?_⟩
  cases hline : t.lines[line]? with
  | none => exact List.mem_cons_self
  | some text => exact List.mem_cons_of_mem _ (List.mem_of_getElem? hline)

/-- A walk forward returns. -/
theorem seek_forward_ne_diverges {most fuel : ℕ} (hmost : ∀ line, (t.row line).length ≤ most)
    (hfuel : (t.lastLine + 1) * (most + 1) < fuel) {p : Walker → Bool} (hw : t.Within w) :
    seek t.forward p fuel w ≠ .error .diverges := by
  refine seek_ne_diverges t.Within
    (fun w ↦ (t.lastLine - w.line) * (most + 1) + (most - w.index)) ?_ hw ?_
  · rintro a b ha - hnext
    obtain ⟨hb, -⟩ := forward_steps.some ha hnext
    refine ⟨hb, ?_⟩
    have hlength := hmost a.line
    rw [forward] at hnext
    split at hnext
    · cases hnext
      dsimp only
      omega
    · split at hnext
      · cases hnext
        dsimp only
        have hsplit : t.lastLine - a.line = (t.lastLine - (a.line + 1)) + 1 := by omega
        have hindex := ha.2
        rw [hsplit, Nat.succ_mul]
        omega
      · cases hnext
  · have hle : (t.lastLine - w.line) * (most + 1) ≤ t.lastLine * (most + 1) :=
      Nat.mul_le_mul_right _ (Nat.sub_le _ _)
    rw [Nat.succ_mul] at hfuel
    omega

/-- A walk back returns. -/
theorem seek_backward_ne_diverges {most fuel : ℕ} (hmost : ∀ line, (t.row line).length ≤ most)
    (hfuel : (t.lastLine + 1) * (most + 1) < fuel) {p : Walker → Bool} (hw : t.Within w) :
    seek t.backward p fuel w ≠ .error .diverges := by
  refine seek_ne_diverges t.Within (fun w ↦ w.line * (most + 1) + w.index) ?_ hw ?_
  · rintro a b ha - hnext
    obtain ⟨hb, -⟩ := backward_steps.some ha hnext
    refine ⟨hb, ?_⟩
    have hlength := hmost (a.line - 1)
    rw [backward] at hnext
    split at hnext
    · cases hnext
      dsimp only
      omega
    · split at hnext
      · cases hnext
        dsimp only
        have hsplit : a.line = (a.line - 1) + 1 := by omega
        rw [hsplit, Nat.succ_mul, Nat.add_sub_cancel]
        omega
      · cases hnext
  · have hle : w.line * (most + 1) ≤ t.lastLine * (most + 1) := Nat.mul_le_mul_right _ hw.1
    have hlength := hmost w.line
    have hindex := hw.2
    rw [Nat.succ_mul] at hfuel
    omega

/-! ## The ends -/

theorem eq_of_forward_none (hw : t.Within w) (h : t.forward w = none) :
    w = ⟨t.lastLine, (t.row t.lastLine).length⟩ := by
  rcases w with ⟨line, index⟩
  obtain ⟨hline, hindex⟩ := hw
  rw [forward] at h
  dsimp only at h hline hindex
  split at h
  · cases h
  · split at h
    · cases h
    · obtain rfl : line = t.lastLine := by omega
      obtain rfl : index = (t.row t.lastLine).length := by omega
      rfl

theorem point_of_backward_none (h : t.backward w = none) : t.point w = ⟨0, 0⟩ := by
  rcases w with ⟨line, index⟩
  rw [backward] at h
  dsimp only at h
  split at h
  · cases h
  · split at h
    · cases h
    · obtain rfl : line = 0 := by omega
      obtain rfl : index = 0 := by omega
      rw [point]
      dsimp only
      rw [Nat.zero_min]
      cases hcell : (t.row 0)[0]? with
      | none => rfl
      | some cell =>
        rw [Option.map_some, Option.getD_some, cells_zero hcell]

/-! ## Word starts -/

/-- A cell that is not blank starts a word exactly when the position before it is of another class.
-/
theorem wordStart_iff (hw : t.charClass w ≠ .blank) :
    t.WordStart w ↔ ∀ before, t.backward w = some before → t.charClass before ≠ t.charClass w := by
  have hlt := lt_length_of_charClass hw
  have hrow : t.row w.line ≠ [] := by
    intro hempty
    rw [hempty] at hlt
    exact Nat.not_lt_zero _ hlt
  constructor
  · rintro (⟨-, hstart⟩ | hempty) before hbefore
    · rw [backward] at hbefore
      split at hbefore
      · next hpos =>
        cases hbefore
        rcases hstart with hzero | hclass
        · omega
        · exact hclass
      · split at hbefore
        · cases hbefore
          rw [charClass_past (Nat.le_refl _)]
          exact hw.symm
        · cases hbefore
    · exact absurd hempty hrow
  · intro hbefore
    refine .inl ⟨hw, ?_⟩
    by_cases hzero : w.index = 0
    · exact .inl hzero
    · refine .inr (hbefore ⟨w.line, w.index - 1⟩ ?_)
      rw [backward, if_pos (Nat.pos_of_ne_zero hzero)]

/-- A blank position of a line with cells starts no word. -/
theorem not_wordStart_of_blank
    (h : (decide (t.charClass w = .blank) && !t.onEmptyLine w) = true) : ¬ t.WordStart w := by
  rw [Bool.and_eq_true, decide_eq_true_iff, Bool.not_eq_true', onEmptyLine,
    List.isEmpty_eq_false_iff] at h
  rintro (⟨hclass, -⟩ | hempty)
  · exact hclass h.1
  · exact h.2 hempty

/-- Where a loop over blanks stops there is a cell that is not blank, or an empty line. -/
theorem of_not_blank (h : (decide (t.charClass w = .blank) && !t.onEmptyLine w) = false) :
    t.charClass w ≠ .blank ∨ t.row w.line = [] := by
  rw [Bool.and_eq_false_iff, decide_eq_false_iff_not, Bool.not_eq_false', onEmptyLine,
    List.isEmpty_iff] at h
  exact h

/-- What the first loop of `nextWordStart` went over: the rest of the cursor's word. -/
structure RestOfWord (t : Text) (cursor stop : Walker) : Prop where
  within : t.Within stop
  after : cursor.Before stop
  skipped : ∀ x, t.Within x → cursor.Before x → x.Before stop →
    t.charClass x = t.charClass cursor ∧ t.charClass cursor ≠ .blank
  ended : t.charClass cursor ≠ .blank → t.charClass stop ≠ t.charClass cursor

theorem RestOfWord.not_wordStart {cursor stop : Walker} (h : RestOfWord t cursor stop)
    (hcursor : t.Within cursor) {x : Walker} (hx : t.Within x) (hafter : cursor.Before x)
    (hbefore : x.Before stop) : ¬ t.WordStart x := by
  obtain ⟨hclass, hblank⟩ := h.skipped x hx hafter hbefore
  rw [wordStart_iff (hclass ▸ hblank)]
  intro hstart
  cases hback : t.backward x with
  | none => exact backward_steps.none hx hback cursor hcursor hafter
  | some y =>
    -- The position before is the cursor or still in its word.
    obtain ⟨hy, hyx, hleast⟩ := backward_steps.some hx hback
    refine hstart y hback ?_
    rw [hclass]
    rcases hleast cursor hcursor hafter with rfl | hcy
    · rfl
    · exact (h.skipped y hy hcy (hyx.trans hbefore)).1

/-- What stands after blanks that follow the rest of a word starts a word. -/
theorem RestOfWord.wordStart {cursor stop found : Walker} (h : RestOfWord t cursor stop)
    (hcursor : t.Within cursor) (hfound : t.Within found)
    (hreach : found = stop ∨ stop.Before found)
    (hclass : t.charClass found ≠ .blank)
    (hblank : ∀ x, t.Within x → x = stop ∨ stop.Before x → x.Before found →
      t.charClass x = .blank) : t.WordStart found := by
  rw [wordStart_iff hclass]
  intro y hback
  obtain ⟨hy, hyfound, hleast⟩ := backward_steps.some hfound hback
  have hcf : cursor.Before found := by
    rcases hreach with rfl | hreach
    · exact h.after
    · exact h.after.trans hreach
  -- The position before is blank, or the last one of the cursor's word.
  rcases Walker.before_or_eq y stop with hys | hys
  · have hstop : found = stop := by
      rcases hreach with heq | hsf
      · exact heq
      · rcases hleast stop h.within hsf with rfl | hsy
        · exact absurd hys Walker.Before.irrefl
        · exact absurd (hys.trans hsy) Walker.Before.irrefl
    subst hstop
    have hword : t.charClass y = t.charClass cursor := by
      rcases hleast cursor hcursor hcf with rfl | hcy
      · rfl
      · exact (h.skipped y hy hcy hys).1
    rw [hword]
    by_cases hcursorBlank : t.charClass cursor = .blank
    · rw [hcursorBlank]
      exact hclass.symm
    · exact (h.ended hcursorBlank).symm
  · have hyblank := hblank y hy (by rcases hys with rfl | hys; exacts [.inl rfl, .inr hys]) hyfound
    rw [hyblank]
    exact hclass.symm

/-- The outcome of a loop that does not run out of fuel. -/
theorem seek_cases {next : Walker → Option Walker} {p : Walker → Bool} {fuel : ℕ} {a : Walker}
    (h : seek next p fuel a ≠ .error .diverges) :
    (∃ b, seek next p fuel a = .ok b) ∨ ∃ b, seek next p fuel a = .error (.error b) := by
  rcases hresult : seek next p fuel a with (b | _) | b
  · exact .inr ⟨b, rfl⟩
  · exact absurd hresult h
  · exact .inl ⟨b, rfl⟩

section

variable {most fuel : ℕ} (hmost : ∀ line, (t.row line).length ≤ most)
  (hfuel : (t.lastLine + 1) * (most + 1) < fuel) (cursor : SelectionPoint)

include hmost hfuel

/-- The first loop of `nextWordStart` goes over the rest of the cursor's word. -/
theorem restOfWord {first : Walker} (hfirst : t.forward (t.walkerAt cursor) = some first) :
    ∃ stop, (if t.charClass (t.walkerAt cursor) ≠ .blank then
        seek t.forward (fun w ↦ t.charClass w = t.charClass (t.walkerAt cursor)) fuel first
      else pure first) = .ok stop ∧ RestOfWord t (t.walkerAt cursor) stop := by
  have hcursor : t.Within (t.walkerAt cursor) := walkerAt_within cursor
  obtain ⟨hwithin, hafter, hleast⟩ := forward_steps.some hcursor hfirst
  by_cases hblank : t.charClass (t.walkerAt cursor) = .blank
  · refine ⟨first, if_neg (not_not_intro hblank), hwithin, hafter, fun x hx hcx hxf ↦ ?_,
      fun hne ↦ absurd hblank hne⟩
    rcases hleast x hx hcx with rfl | hfx
    · exact absurd hxf Walker.Before.irrefl
    · exact absurd (hxf.trans hfx) Walker.Before.irrefl
  · rw [if_pos hblank]
    rcases seek_cases (seek_forward_ne_diverges hmost hfuel hwithin) with
      ⟨stop, hstop⟩ | ⟨stop, hstop⟩
    · obtain ⟨hstopWithin, htest, hreach, hall⟩ := seek_ok forward_steps hwithin hstop
      refine ⟨stop, hstop, hstopWithin, ?_, fun x hx hcx hxs ↦ ⟨?_, hblank⟩, fun _ ↦ ?_⟩
      · rcases hreach with rfl | hreach
        · exact hafter
        · exact hafter.trans hreach
      · rcases hall x hx (hleast x hx hcx) with hclass | rfl | hsx
        · exact of_decide_eq_true hclass
        · exact absurd hxs Walker.Before.irrefl
        · exact absurd (hxs.trans hsx) Walker.Before.irrefl
      · exact of_decide_eq_false htest
    · -- The end of the text is blank, so no word reaches it.
      obtain ⟨hstopWithin, hend, hreach, hall⟩ := seek_stuck forward_steps hwithin hstop
      have hclass := of_decide_eq_true (hall stop hstopWithin hreach)
      rw [eq_of_forward_none hstopWithin hend, charClass_past (Nat.le_refl _)] at hclass
      exact absurd hclass.symm hblank

theorem nextWordStart_spec :
    ∃ w, stopped (t.nextWordStart fuel cursor) = some w ∧
      t.FirstAfter t.WordStart cursor (t.point w) := by
  have hcursor : t.Within (t.walkerAt cursor) := walkerAt_within cursor
  cases hfirst : t.forward (t.walkerAt cursor) with
  | none =>
    refine ⟨t.walkerAt cursor, ?_, .inr ⟨fun w hw hafter ↦ ?_, ?_⟩⟩
    · simp only [nextWordStart, step, hfirst]
      rfl
    · exact absurd hafter (forward_steps.none hcursor hfirst w hw)
    · rw [← eq_of_forward_none hcursor hfirst]
  | some first =>
    obtain ⟨stop, hstop, hrest⟩ := restOfWord hmost hfuel cursor hfirst
    have hmotion : t.nextWordStart fuel cursor =
        seek t.forward (fun w ↦ decide (t.charClass w = .blank) && !t.onEmptyLine w) fuel stop := by
      simp only [nextWordStart, step, hfirst, Answer.bind_ok]
      split at hstop
      · next hne => rw [if_pos hne, hstop, Answer.bind_ok]
      · next hblank => rw [if_neg hblank, hstop, Answer.bind_ok]
    have hwalked : ∀ x, t.Within x → (t.walkerAt cursor).Before x → ¬ x.Before stop →
        x = stop ∨ stop.Before x := by
      intro x _ _ hnot
      rcases Walker.before_or_eq x stop with hxs | rfl | hsx
      · exact absurd hxs hnot
      · exact .inl rfl
      · exact .inr hsx
    rcases seek_cases (seek_forward_ne_diverges hmost hfuel hrest.within) with
      ⟨found, hfound⟩ | ⟨last, hlast⟩
    · obtain ⟨hwithin, htest, hreach, hall⟩ := seek_ok forward_steps hrest.within hfound
      refine ⟨found, by rw [hmotion, hfound]; rfl, .inl ⟨found, hwithin, ?_, ?_, rfl, ?_⟩⟩
      · rcases of_not_blank htest with hclass | hempty
        · refine hrest.wordStart hcursor hwithin hreach hclass fun x hx hfrom hxf ↦ ?_
          rcases hall x hx hfrom with hpass | rfl | hfx
          · rw [Bool.and_eq_true, decide_eq_true_iff] at hpass
            exact hpass.1
          · exact absurd hxf Walker.Before.irrefl
          · exact absurd (hxf.trans hfx) Walker.Before.irrefl
        · exact .inr hempty
      · rcases hreach with rfl | hreach
        · exact hrest.after
        · exact hrest.after.trans hreach
      · intro x hx hstart hcx hxf
        by_cases hxs : x.Before stop
        · exact hrest.not_wordStart hcursor hx hcx hxs hstart
        · rcases hall x hx (hwalked x hx hcx hxs) with hpass | rfl | hfx
          · exact not_wordStart_of_blank hpass hstart
          · exact hxf.irrefl
          · exact (hxf.trans hfx).irrefl
    · obtain ⟨hwithin, hend, -, hall⟩ := seek_stuck forward_steps hrest.within hlast
      refine ⟨last, by rw [hmotion, hlast]; rfl, .inr ⟨fun x hx hcx hstart ↦ ?_, ?_⟩⟩
      · by_cases hxs : x.Before stop
        · exact hrest.not_wordStart hcursor hx hcx hxs hstart
        · exact not_wordStart_of_blank (hall x hx (hwalked x hx hcx hxs)) hstart
      · rw [← eq_of_forward_none hwithin hend]

/-! ## Word ends -/

/-- The last loop of `nextWordEnd` goes to the end of the run it starts in. -/
theorem endOfRun {first : Walker} (hfirst : t.charClass first ≠ .blank) :
    ∃ stop, seek (fun w ↦ some ⟨w.line, w.index + 1⟩)
        (fun w ↦ t.classAt w.line (w.index + 1) = t.charClass first) fuel first = .ok stop ∧
      stop.line = first.line ∧ first.index ≤ stop.index ∧
      t.classAt stop.line (stop.index + 1) ≠ t.charClass first ∧
      ∀ index, first.index ≤ index → index ≤ stop.index →
        t.classAt first.line index = t.charClass first := by
  have hsteps : Steps (fun w : Walker ↦ w.line = first.line) Walker.Before
      fun w ↦ some ⟨w.line, w.index + 1⟩ := by
    refine ⟨Walker.Before.trans, ?_, nofun⟩
    rintro ⟨line, index⟩ b hline hnext
    cases hnext
    refine ⟨hline, .inr ⟨rfl, Nat.lt_succ_self index⟩, ?_⟩
    rintro ⟨line', index'⟩ hline' hafter
    rcases Walker.before_or_eq ⟨line', index'⟩ ⟨line, index + 1⟩ with hback | heq | hon
    · simp only [Walker.Before] at hafter hback
      omega
    · exact .inl heq
    · exact .inr hon
  have hreturns : seek (fun w : Walker ↦ some ⟨w.line, w.index + 1⟩)
      (fun w ↦ t.classAt w.line (w.index + 1) = t.charClass first) fuel first ≠
        .error .diverges := by
    refine seek_ne_diverges (fun w ↦ w.line = first.line)
      (fun w ↦ (t.row first.line).length - w.index) ?_ rfl ?_
    · rintro ⟨line, index⟩ b hline htest hnext
      cases hnext
      refine ⟨hline, ?_⟩
      dsimp only at hline htest ⊢
      subst hline
      have hclass : t.charClass ⟨first.line, index + 1⟩ ≠ .blank := by
        rw [charClass, of_decide_eq_true htest]
        exact hfirst
      have hlt := lt_length_of_charClass hclass
      dsimp only at hlt
      omega
    · have hlength := hmost first.line
      have hpos : most < (t.lastLine + 1) * (most + 1) := by
        rw [Nat.succ_mul]
        omega
      omega
  rcases seek_cases hreturns with ⟨stop, hstop⟩ | ⟨stop, hstop⟩
  · obtain ⟨hline, htest, hreach, hall⟩ := seek_ok hsteps rfl hstop
    have hindex : first.index ≤ stop.index := by
      rcases hreach with rfl | hreach
      · exact Nat.le_refl _
      · rw [Walker.Before] at hreach
        omega
    refine ⟨stop, hstop, hline, hindex, of_decide_eq_false htest, fun index hge hle ↦ ?_⟩
    rcases Nat.eq_or_lt_of_le hge with rfl | hlt
    · rfl
    · -- The position before passed the test, which is about this one.
      obtain ⟨index, rfl⟩ : ∃ k, index = k + 1 := ⟨index - 1, by omega⟩
      have hfrom : (⟨first.line, index⟩ : Walker) = first ∨ first.Before ⟨first.line, index⟩ := by
        rcases Walker.before_or_eq ⟨first.line, index⟩ first with hback | heq | hon
        · simp only [Walker.Before] at hback
          omega
        · exact .inl heq
        · exact .inr hon
      rcases hall ⟨first.line, index⟩ rfl hfrom with hpass | heq | hon
      · exact of_decide_eq_true hpass
      · rw [← heq] at hle
        dsimp only at hle
        omega
      · simp only [Walker.Before] at hon
        omega
  · obtain ⟨-, hend, -⟩ := seek_stuck hsteps rfl hstop
    cases hend

theorem nextWordEnd_spec :
    ∃ w, stopped (t.nextWordEnd fuel cursor) = some w ∧
      t.FirstAfter t.WordEnd cursor (t.point w) := by
  have hcursor : t.Within (t.walkerAt cursor) := walkerAt_within cursor
  cases hfirst : t.forward (t.walkerAt cursor) with
  | none =>
    refine ⟨t.walkerAt cursor, ?_, .inr ⟨fun w hw hafter ↦ ?_, ?_⟩⟩
    · simp only [nextWordEnd, step, hfirst]
      rfl
    · exact absurd hafter (forward_steps.none hcursor hfirst w hw)
    · rw [← eq_of_forward_none hcursor hfirst]
  | some first =>
    obtain ⟨hwithin, hafter, hleast⟩ := forward_steps.some hcursor hfirst
    have hreturns : seek t.forward (fun w ↦ t.charClass w = .blank) fuel first ≠ .error .diverges :=
      seek_forward_ne_diverges hmost hfuel hwithin
    rcases seek_cases hreturns with ⟨inner, hinner⟩ | ⟨last, hlast⟩
    · obtain ⟨hinnerWithin, htest, hreach, hall⟩ := seek_ok forward_steps hwithin hinner
      have hclass := of_decide_eq_false htest
      obtain ⟨stop, hstop, hline, hindex, hended, hrun⟩ := endOfRun hmost hfuel hclass
      have hstopClass : t.charClass stop = t.charClass inner := by
        rw [charClass, hline]
        exact hrun stop.index hindex (Nat.le_refl _)
      have hstopBlank : t.charClass stop ≠ .blank := hstopClass ▸ hclass
      have hmotion : t.nextWordEnd fuel cursor = .ok stop := by
        simp only [nextWordEnd, step, hfirst, Answer.bind_ok, hinner, hstop]
      refine ⟨stop, by rw [hmotion]; rfl, .inl ⟨stop, ⟨?_, ?_⟩, ?_, ?_, rfl, ?_⟩⟩
      · rw [hline]
        exact hinnerWithin.1
      · exact Nat.le_of_lt (lt_length_of_charClass hstopBlank)
      · refine ⟨hstopBlank, .inr ?_⟩
        rw [hstopClass]
        exact hended
      · have hcursorInner : (t.walkerAt cursor).Before inner := by
          rcases hreach with rfl | hreach
          · exact hafter
          · exact hafter.trans hreach
        rw [Walker.Before] at hcursorInner ⊢
        omega
      · intro x hx hend hcx hxs
        rcases hall x hx (hleast x hx hcx) with hblank | hfrom
        · exact hend.1 (of_decide_eq_true hblank)
        · -- From the start of the run on, the next cell is still in it.
          have hplace : x.line = inner.line ∧ inner.index ≤ x.index ∧ x.index < stop.index := by
            rcases hfrom with rfl | hfrom
            · rw [Walker.Before] at hxs
              omega
            · rw [Walker.Before] at hxs hfrom
              omega
          have hxClass : t.charClass x = t.charClass inner := by
            rw [charClass, hplace.1]
            exact hrun x.index hplace.2.1 (by omega)
          have hnext : t.classAt x.line (x.index + 1) = t.charClass inner := by
            rw [hplace.1]
            exact hrun (x.index + 1) (by omega) (by omega)
          rcases hend.2 with hnone | hother
          · rw [classAt, hnone] at hnext
            exact hclass hnext.symm
          · exact hother (hnext.trans hxClass.symm)
    · obtain ⟨hlastWithin, hend, -, hall⟩ := seek_stuck forward_steps hwithin hlast
      have hmotion : t.nextWordEnd fuel cursor = .error (.error last) := by
        simp only [nextWordEnd, step, hfirst, Answer.bind_ok, hlast]
        rfl
      refine ⟨last, by rw [hmotion]; rfl, .inr ⟨fun x hx hcx hxend ↦ ?_, ?_⟩⟩
      · exact hxend.1 (of_decide_eq_true (hall x hx (hleast x hx hcx)))
      · rw [← eq_of_forward_none hlastWithin hend]

/-! ## Back to word starts -/

omit hmost hfuel in
/-- `runStart` goes to the start of the run it is in. -/
theorem runStart_spec (line : ℕ) (start : CharClass) :
    ∀ index, t.runStart line start index ≤ index ∧
      (t.runStart line start index = 0 ∨
        t.classAt line (t.runStart line start index - 1) ≠ start) ∧
      ∀ k, t.runStart line start index ≤ k → k < index → t.classAt line k = start
  | 0 => ⟨Nat.le_refl _, .inl rfl, fun k _ hk ↦ absurd hk (Nat.not_lt_zero k)⟩
  | index + 1 => by
    rw [runStart]
    split
    · next hclass =>
      obtain ⟨hle, hstart, hall⟩ := runStart_spec line start index
      refine ⟨Nat.le_succ_of_le hle, hstart, fun k hge hlt ↦ ?_⟩
      rcases Nat.lt_succ_iff_lt_or_eq.mp hlt with hlt | rfl
      · exact hall k hge hlt
      · exact hclass
    · next hclass =>
      exact ⟨Nat.le_refl _, .inr hclass, fun k hge hlt ↦ absurd hlt (Nat.not_lt.mpr hge)⟩

theorem previousWordStart_spec :
    ∃ w, stopped (t.previousWordStart fuel cursor) = some w ∧
      t.LastBefore t.WordStart cursor (t.point w) := by
  have hcursor : t.Within (t.walkerAt cursor) := walkerAt_within cursor
  cases hfirst : t.backward (t.walkerAt cursor) with
  | none =>
    refine ⟨t.walkerAt cursor, ?_, .inr ⟨fun w hw hbefore ↦ ?_, point_of_backward_none hfirst⟩⟩
    · simp only [previousWordStart, step, hfirst]
      rfl
    · exact absurd hbefore (backward_steps.none hcursor hfirst w hw)
  | some first =>
    obtain ⟨hwithin, hbefore, hleast⟩ := backward_steps.some hcursor hfirst
    have hreturns : seek t.backward (fun w ↦ decide (t.charClass w = .blank) && !t.onEmptyLine w)
        fuel first ≠ .error .diverges := seek_backward_ne_diverges hmost hfuel hwithin
    rcases seek_cases hreturns with ⟨inner, hinner⟩ | ⟨last, hlast⟩
    · obtain ⟨hinnerWithin, htest, hreach, hall⟩ := seek_ok backward_steps hwithin hinner
      have hinnerBefore : inner.Before (t.walkerAt cursor) := by
        rcases hreach with rfl | hreach
        · exact hbefore
        · exact hreach.trans hbefore
      by_cases hempty : t.row inner.line = []
      · have hmotion : t.previousWordStart fuel cursor = .ok inner := by
          have hon : t.onEmptyLine inner = true := List.isEmpty_iff.mpr hempty
          simp only [previousWordStart, step, hfirst, Answer.bind_ok, hinner, hon, if_true]
          rfl
        refine ⟨inner, by rw [hmotion]; rfl,
          .inl ⟨inner, hinnerWithin, .inr hempty, hinnerBefore, rfl, fun x hx hstart hxc hix ↦ ?_⟩⟩
        rcases hall x hx (hleast x hx hxc) with hpass | rfl | hxi
        · exact not_wordStart_of_blank hpass hstart
        · exact hix.irrefl
        · exact (hix.trans hxi).irrefl
      · have hclass := (of_not_blank htest).resolve_right hempty
        obtain ⟨hle, hstart, hrun⟩ :=
          runStart_spec (t := t) inner.line (t.charClass inner) inner.index
        generalize hfound : t.runStart inner.line (t.charClass inner) inner.index = found at *
        have hfoundClass : t.charClass ⟨inner.line, found⟩ = t.charClass inner := by
          rcases Nat.eq_or_lt_of_le hle with rfl | hlt
          · rfl
          · exact hrun found (Nat.le_refl _) hlt
        have hmotion : t.previousWordStart fuel cursor = .ok ⟨inner.line, found⟩ := by
          have hon : t.onEmptyLine inner = false := List.isEmpty_eq_false_iff.mpr hempty
          simp only [previousWordStart, step, hfirst, Answer.bind_ok, hinner, hon, hfound]
          rfl
        have hindex := hinnerWithin.2
        refine ⟨⟨inner.line, found⟩, by rw [hmotion]; rfl,
          .inl ⟨⟨inner.line, found⟩, ⟨hinnerWithin.1, by dsimp only; omega⟩, .inl ⟨?_, ?_⟩, ?_, rfl,
            fun x hx hxstart hxc hix ↦ ?_⟩⟩
        · rw [hfoundClass]
          exact hclass
        · rw [hfoundClass]
          exact hstart
        · rw [Walker.Before] at hinnerBefore ⊢
          dsimp only
          omega
        · rcases hall x hx (hleast x hx hxc) with hpass | hfrom
          · exact not_wordStart_of_blank hpass hxstart
          · -- Within the run, the cell before is of the same class.
            have hplace : x.line = inner.line ∧ found < x.index ∧ x.index ≤ inner.index := by
              rcases hfrom with rfl | hfrom
              · simp only [Walker.Before] at hix
                omega
              · simp only [Walker.Before] at hix hfrom
                omega
            have hxClass : t.charClass x = t.charClass inner := by
              rw [charClass, hplace.1]
              rcases Nat.eq_or_lt_of_le hplace.2.2 with heq | hlt
              · rw [heq]
                rfl
              · exact hrun x.index (by omega) hlt
            have hxBlank : t.charClass x ≠ .blank := hxClass ▸ hclass
            have hback : t.backward x = some ⟨x.line, x.index - 1⟩ := by
              rw [backward, if_pos (by omega)]
            refine (wordStart_iff hxBlank).mp hxstart _ hback ?_
            rw [hxClass, charClass]
            dsimp only
            rw [hplace.1]
            exact hrun (x.index - 1) (by omega) (by omega)
    · obtain ⟨hlastWithin, hend, -, hall⟩ := seek_stuck backward_steps hwithin hlast
      have hmotion : t.previousWordStart fuel cursor = .error (.error last) := by
        simp only [previousWordStart, step, hfirst, Answer.bind_ok, hlast]
        rfl
      refine ⟨last, by rw [hmotion]; rfl, .inr ⟨fun x hx hxc hstart ↦ ?_,
        point_of_backward_none hend⟩⟩
      exact not_wordStart_of_blank (hall x hx (hleast x hx hxc)) hstart

end

end Text

/-- There is a fuel for all motions from all cursors. -/
theorem exists_fuel_applyMotion (u : Unicode) (lines : List (List Char)) (lastLine : ℕ) :
    ∃ enough, ∀ fuel, enough ≤ fuel → ∀ (motion : WordMotion) (cursor : SelectionPoint), ∃ found,
      applyMotion u fuel motion cursor lines lastLine = some found ∧
        motion.Declared u cursor lines lastLine found := by
  -- The rows of a text are the same for both kinds of words.
  obtain ⟨most, hmost⟩ := Text.exists_length_le ⟨u, lines, lastLine, false⟩
  refine ⟨(lastLine + 1) * (most + 1) + 1, fun fuel hfuel motion cursor ↦ ?_⟩
  have hmost' : ∀ line, ((⟨u, lines, lastLine, motion.spaceSeparated⟩ : Text).row line).length ≤
      most := hmost
  cases motion with
  | nextWord =>
    obtain ⟨w, hw, hfound⟩ := Text.nextWordStart_spec hmost' hfuel cursor
    exact ⟨_, by simp only [applyMotion, hw, Option.map_some], hfound⟩
  | nextSpace =>
    obtain ⟨w, hw, hfound⟩ := Text.nextWordStart_spec hmost' hfuel cursor
    exact ⟨_, by simp only [applyMotion, hw, Option.map_some], hfound⟩
  | previousWord =>
    obtain ⟨w, hw, hfound⟩ := Text.previousWordStart_spec hmost' hfuel cursor
    exact ⟨_, by simp only [applyMotion, hw, Option.map_some], hfound⟩
  | previousSpace =>
    obtain ⟨w, hw, hfound⟩ := Text.previousWordStart_spec hmost' hfuel cursor
    exact ⟨_, by simp only [applyMotion, hw, Option.map_some], hfound⟩
  | nextWordEnd =>
    obtain ⟨w, hw, hfound⟩ := Text.nextWordEnd_spec hmost' hfuel cursor
    exact ⟨_, by simp only [applyMotion, hw, Option.map_some], hfound⟩
  | nextSpaceEnd =>
    obtain ⟨w, hw, hfound⟩ := Text.nextWordEnd_spec hmost' hfuel cursor
    exact ⟨_, by simp only [applyMotion, hw, Option.map_some], hfound⟩

/-- **Word motions.** With enough fuel every word motion answers the point it should go to. -/
theorem applyMotion_declared (u : Unicode) (motion : WordMotion) (cursor : SelectionPoint)
    (lines : List (List Char)) (lastLine : ℕ) :
    ∃ enough, ∀ fuel, enough ≤ fuel → ∃ found,
      applyMotion u fuel motion cursor lines lastLine = some found ∧
        motion.Declared u cursor lines lastLine found := by
  obtain ⟨enough, henough⟩ := exists_fuel_applyMotion u lines lastLine
  exact ⟨enough, fun fuel hfuel ↦ henough fuel hfuel motion cursor⟩

/-- In a text of `ab` and an empty last line, the motion from `b` to the next word end finds none,
and it stops on the empty line, where there is no character. -/
theorem nextWordEnd_stops_off_text :
    applyMotion narrow 20 .nextWordEnd ⟨0, 1⟩ ["ab".toList, []] 1 = some ⟨1, 0⟩ ∧
      (∀ w, (Text.mk narrow ["ab".toList, []] 1 false).Within w → Walker.Before ⟨0, 1⟩ w →
        ¬ (Text.mk narrow ["ab".toList, []] 1 false).WordEnd w) ∧
      (Text.mk narrow ["ab".toList, []] 1 false).row 1 = [] := by
  refine ⟨by decide, ?_, rfl⟩
  rintro ⟨line, index⟩ ⟨hline, hindex⟩ hafter ⟨hclass, -⟩
  have hlt := Text.lt_length_of_charClass hclass
  rcases line with _ | _ | line
  · have htwo : index < 2 := hlt
    simp only [Walker.Before] at hafter
    omega
  · exact absurd hlt (Nat.not_lt_zero index)
  · simp only at hline
    omega

end Embers.Client
