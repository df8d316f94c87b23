import Mathlib

/-!
# Work lists that expand

A machine takes items from the front of a list. An item is done at once, stops the machine, or
expands to items that go to the front of the list, as long as the items added so far stay within a
budget; the first expansion that does not is refused, and so is every one after it.

`Performs` is the meaning of a list that knows no queue: an item's expansion is performed, to its
end, in the item's place. The machine performs its list (`run_performs`), and it ends after no more
items than the list and the budget have together (`run_isSome`, `Performs.length_add_left_le`),
whatever the items expand to.
-/

namespace Worklist

/-- What taking an item comes to. -/
inductive Taken (α σ ε : Type*) where
  | done (s : σ)
  | expands (s : σ) (items : List α)
  | stops (error : ε) (s : σ)

structure Machine (α σ ε : Type*) where
  take : α → σ → Taken α σ ε
  /-- What a refused expansion does. -/
  refuse : σ → σ

/-- How a list ends: performed, with what is left of the budget, or stopped. -/
inductive Ended (σ ε : Type*) where
  | performed (s : σ) (left : Option ℕ)
  | stopped (error : ε) (s : σ)

/-- What an ended list leaves of the budget. -/
def Ended.left {σ ε : Type*} : Ended σ ε → ℕ
  | .performed _ left => left.getD 0
  | .stopped _ _ => 0

/-- What is left of the budget after adding some items: none once an expansion was refused. -/
def afford (left : Option ℕ) (count : ℕ) : Option ℕ :=
  left.bind fun budget ↦ if count ≤ budget then some (budget - count) else none

variable {α σ ε : Type*} (m : Machine α σ ε)

/-- The items the machine takes from its list and how it ends, if it does before the fuel, which is
one for each item taken, runs out. -/
def run : ℕ → List α → σ → Option ℕ → Option (List α × Ended σ ε)
  | _, [], s, left => some ([], .performed s left)
  | 0, _ :: _, _, _ => none
  | fuel + 1, item :: items, s, left =>
    match m.take item s with
    | .done s => (run fuel items s left).map (Prod.map (item :: ·) id)
    | .stops error s => some ([item], .stopped error s)
    | .expands s added =>
      match afford left added.length with
      | some left => (run fuel (added ++ items) s (some left)).map (Prod.map (item :: ·) id)
      | none => (run fuel items (m.refuse s) none).map (Prod.map (item :: ·) id)

/-- A list performed item by item, each with its expansion in its place. -/
inductive Performs : List α → σ → Option ℕ → List α → Ended σ ε → Prop
  | nil {s : σ} {left : Option ℕ} : Performs [] s left [] (.performed s left)
  | done {item : α} {items log : List α} {s s' : σ} {left : Option ℕ} {ended : Ended σ ε}
      (htake : m.take item s = .done s') (hrest : Performs items s' left log ended) :
      Performs (item :: items) s left (item :: log) ended
  | stops {item : α} {items : List α} {s s' : σ} {left : Option ℕ} {error : ε}
      (htake : m.take item s = .stops error s') :
      Performs (item :: items) s left [item] (.stopped error s')
  | expands {item : α} {items added log log' : List α} {s s' s'' : σ} {left left'' : Option ℕ}
      {left' : ℕ} {ended : Ended σ ε} (htake : m.take item s = .expands s' added)
      (hafford : afford left added.length = some left')
      (hadded : Performs added s' (some left') log (.performed s'' left''))
      (hrest : Performs items s'' left'' log' ended) :
      Performs (item :: items) s left (item :: (log ++ log')) ended
  | expansionStops {item : α} {items added log : List α} {s s' s'' : σ} {left : Option ℕ}
      {left' : ℕ} {error : ε} (htake : m.take item s = .expands s' added)
      (hafford : afford left added.length = some left')
      (hadded : Performs added s' (some left') log (.stopped error s'')) :
      Performs (item :: items) s left (item :: log) (.stopped error s'')
  | refused {item : α} {items added log : List α} {s s' : σ} {left : Option ℕ} {ended : Ended σ ε}
      (htake : m.take item s = .expands s' added) (hafford : afford left added.length = none)
      (hrest : Performs items (m.refuse s') none log ended) :
      Performs (item :: items) s left (item :: log) ended

variable {m}

/-! ## The end -/

theorem afford_add {left : Option ℕ} {count left' : ℕ} (h : afford left count = some left') :
    count + left' = left.getD 0 := by
  cases left with
  | none => cases h
  | some budget =>
    rw [afford, Option.bind_some, Option.ite_none_right_eq_some, Option.some_inj] at h
    rw [Option.getD_some]
    omega

/-- Every item is paid for: by the list it was in at the start, or by the budget. -/
theorem run_isSome {fuel : ℕ} {items : List α} {s : σ} {left : Option ℕ}
    (h : items.length + left.getD 0 ≤ fuel) : (run m fuel items s left).isSome := by
  induction fuel generalizing items s left with
  | zero =>
    cases items with
    | nil => rfl
    | cons item items =>
      rw [List.length_cons] at h
      omega
  | succ fuel ih =>
    cases items with
    | nil => rfl
    | cons item items =>
      rw [List.length_cons] at h
      rw [run]
      cases m.take item s with
      | done s' =>
        rw [Option.isSome_map]
        exact ih (by omega)
      | stops error s' => rfl
      | expands s' added =>
        dsimp only
        cases hafford : afford left added.length with
        | none =>
          rw [Option.isSome_map]
          exact ih (by rw [Option.getD_none]; omega)
        | some left' =>
          have hpaid := afford_add hafford
          rw [Option.isSome_map]
          exact ih (by rw [List.length_append, Option.getD_some]; omega)

/-- More fuel changes nothing. -/
theorem run_of_le {fuel fuel' : ℕ} (hle : fuel ≤ fuel') {items : List α} {s : σ} {left : Option ℕ}
    {ran : List α × Ended σ ε} (h : run m fuel items s left = some ran) :
    run m fuel' items s left = some ran := by
  induction fuel generalizing fuel' items s left ran with
  | zero =>
    cases items with
    | nil =>
      cases fuel' with
      | zero => exact h
      | succ fuel' => exact h
    | cons item items => cases h
  | succ fuel ih =>
    cases fuel' with
    | zero => omega
    | succ fuel' =>
      have hrest {items : List α} {s : σ} {left : Option ℕ} (item : α) {ran : List α × Ended σ ε}
          (h : (run m fuel items s left).map (Prod.map (item :: ·) id) = some ran) :
          (run m fuel' items s left).map (Prod.map (item :: ·) id) = some ran := by
        obtain ⟨rest, hrun, heq⟩ := Option.map_eq_some_iff.mp h
        rw [ih (Nat.le_of_succ_le_succ hle) hrun, Option.map_some, heq]
      cases items with
      | nil => exact h
      | cons item items =>
        rw [run] at h ⊢
        cases htake : m.take item s with
        | done s' =>
          rw [htake] at h
          exact hrest item h
        | stops error s' =>
          rw [htake] at h
          exact h
        | expands s' added =>
          rw [htake] at h
          dsimp only at h ⊢
          cases hafford : afford left added.length with
          | none =>
            rw [hafford] at h
            exact hrest item h
          | some left' =>
            rw [hafford] at h
            exact hrest item h

/-! ## Expansions in place -/

/-- A list goes on after the items before it, when they did not stop the machine. -/
def resume (m : Machine α σ ε) (fuel : ℕ) (items : List α) :
    List α × Ended σ ε → Option (List α × Ended σ ε)
  | (log, .performed s left) =>
    (run m (fuel - log.length) items s left).map (Prod.map (log ++ ·) id)
  | (log, .stopped error s) => some (log, .stopped error s)

theorem run_nil (fuel : ℕ) (s : σ) (left : Option ℕ) :
    run m fuel [] s left = some ([], .performed s left) := by
  cases fuel with
  | zero => rfl
  | succ fuel => rfl

theorem resume_map (fuel : ℕ) (items : List α) (item : α) (taken : List α × Ended σ ε) :
    (resume m fuel items taken).map (Prod.map (item :: ·) id) =
      resume m (fuel + 1) items (Prod.map (item :: ·) id taken) := by
  obtain ⟨log, ended⟩ := taken
  cases ended with
  | performed s left =>
    rw [resume, Prod.map_apply, id, resume, List.length_cons, Nat.add_sub_add_right, Option.map_map,
      Prod.map_comp_map]
    rfl
  | stopped error s => rfl

theorem bind_resume_map {fuel : ℕ} (items : List α) (item : α)
    (ran : Option (List α × Ended σ ε)) :
    (ran.bind (resume m fuel items)).map (Prod.map (item :: ·) id) =
      (ran.map (Prod.map (item :: ·) id)).bind (resume m (fuel + 1) items) := by
  rw [Option.map_bind, Option.bind_map]
  exact congrArg ran.bind (funext (resume_map fuel items item))

/-- Two lists one after the other. -/
theorem run_append (fuel : ℕ) (items items' : List α) (s : σ) (left : Option ℕ) :
    run m fuel (items ++ items') s left = (run m fuel items s left).bind (resume m fuel items') := by
  induction fuel generalizing items s left with
  | zero =>
    cases items with
    | nil =>
      rw [List.nil_append, run_nil, Option.bind_some, resume]
      exact (congrFun Option.map_id _).symm
    | cons item items => rfl
  | succ fuel ih =>
    cases items with
    | nil =>
      rw [List.nil_append, run_nil, Option.bind_some, resume]
      exact (congrFun Option.map_id _).symm
    | cons item items =>
      rw [List.cons_append, run, run]
      cases m.take item s with
      | done s' =>
        dsimp only
        rw [ih, bind_resume_map]
      | stops error s' => rfl
      | expands s' added =>
        dsimp only
        cases afford left added.length with
        | none =>
          dsimp only
          rw [ih, bind_resume_map]
        | some left' =>
          dsimp only
          rw [← List.append_assoc, ih, bind_resume_map]

/-- The machine performs its list. -/
theorem run_performs {fuel : ℕ} {items log : List α} {s : σ} {left : Option ℕ} {ended : Ended σ ε}
    (h : run m fuel items s left = some (log, ended)) : Performs m items s left log ended := by
  induction fuel using Nat.strong_induction_on generalizing items s left log ended with
  | _ fuel ih =>
  cases items with
  | nil =>
    rw [run_nil] at h
    obtain ⟨rfl, rfl⟩ := Prod.mk.inj (Option.some_inj.mp h)
    exact .nil
  | cons item items =>
    cases fuel with
    | zero => cases h
    | succ fuel =>
      rw [run] at h
      cases htake : m.take item s with
      | done s' =>
        rw [htake] at h
        obtain ⟨⟨rest, ended⟩, hrun, heq⟩ := Option.map_eq_some_iff.mp h
        obtain ⟨rfl, rfl⟩ := Prod.mk.inj heq
        exact .done htake (ih fuel (Nat.lt_succ_self fuel) hrun)
      | stops error s' =>
        rw [htake] at h
        obtain ⟨rfl, rfl⟩ := Prod.mk.inj (Option.some_inj.mp h)
        exact .stops htake
      | expands s' added =>
        rw [htake] at h
        dsimp only at h
        cases hafford : afford left added.length with
        | none =>
          rw [hafford] at h
          obtain ⟨⟨rest, ended⟩, hrun, heq⟩ := Option.map_eq_some_iff.mp h
          obtain ⟨rfl, rfl⟩ := Prod.mk.inj heq
          exact .refused htake hafford (ih fuel (Nat.lt_succ_self fuel) hrun)
        | some left' =>
          rw [hafford] at h
          obtain ⟨⟨rest, ended⟩, hrun, heq⟩ := Option.map_eq_some_iff.mp h
          obtain ⟨rfl, rfl⟩ := Prod.mk.inj heq
          -- The expansion is run first, and the list after it with the fuel that is left.
          rw [run_append, Option.bind_eq_some_iff] at hrun
          obtain ⟨⟨first, endedFirst⟩, hfirst, hresume⟩ := hrun
          have hadded := ih fuel (Nat.lt_succ_self fuel) hfirst
          cases endedFirst with
          | stopped error s'' =>
            obtain ⟨rfl, rfl⟩ := Prod.mk.inj (Option.some_inj.mp hresume)
            exact .expansionStops htake hafford hadded
          | performed s'' left'' =>
            obtain ⟨⟨second, ended⟩, hsecond, heq⟩ := Option.map_eq_some_iff.mp hresume
            obtain ⟨rfl, rfl⟩ := Prod.mk.inj heq
            exact .expands htake hafford hadded
              (ih (fuel - first.length) (by omega) hsecond)

namespace Performs

variable {items log : List α} {s : σ} {budget : Option ℕ} {ended : Ended σ ε}

/-- Every item is paid for: by the list, or by the budget. -/
theorem length_add_left_le (h : Performs m items s budget log ended) :
    log.length + ended.left ≤ items.length + budget.getD 0 := by
  induction h with
  | nil => exact Nat.le_refl _
  | done htake hrest ih =>
    rw [List.length_cons, List.length_cons]
    omega
  | stops htake =>
    rw [List.length_singleton, List.length_cons, Ended.left]
    omega
  | expands htake hafford hadded hrest ihadded ihrest =>
    have hpaid := afford_add hafford
    rw [Ended.left, Option.getD_some] at ihadded
    rw [List.length_cons, List.length_append, List.length_cons]
    omega
  | expansionStops htake hafford hadded ih =>
    have hpaid := afford_add hafford
    rw [Ended.left, Option.getD_some] at ih
    rw [List.length_cons, List.length_cons, Ended.left]
    omega
  | refused htake hafford hrest ih =>
    rw [Option.getD_none] at ih
    rw [List.length_cons, List.length_cons]
    omega

/-- A list is performed to its end, or up to an item that stops. The items before that one are
performed to their end. -/
theorem cut (h : Performs m items s budget log ended) :
    (∃ s' left', ended = .performed s' left') ∨
      ∃ before item after logBefore logItem s' left', items = before ++ item :: after ∧
        log = logBefore ++ logItem ∧ Performs m before s budget logBefore (.performed s' left') ∧
        Performs m [item] s' left' logItem ended := by
  induction h with
  | nil => exact .inl ⟨_, _, rfl⟩
  | @done item items log s s' left ended htake hrest ih =>
    rcases ih with hperformed |
      ⟨before, stop, after, logBefore, logItem, t, left', rfl, rfl, hbefore, hstop⟩
    · exact .inl hperformed
    · exact .inr ⟨item :: before, stop, after, item :: logBefore, logItem, t, left', rfl, rfl,
        .done htake hbefore, hstop⟩
  | @stops item items s s' left error htake =>
    exact .inr ⟨[], item, items, [], [item], s, left, rfl, rfl, .nil, .stops htake⟩
  | @expands item items added log log' s s' s'' left left'' left' ended htake hafford hadded hrest
      ihadded ihrest =>
    rcases ihrest with hperformed |
      ⟨before, stop, after, logBefore, logItem, t, u, rfl, rfl, hbefore, hstop⟩
    · exact .inl hperformed
    · refine .inr ⟨item :: before, stop, after, item :: (log ++ logBefore), logItem, t, u, rfl, ?_,
        .expands htake hafford hadded hbefore, hstop⟩
      rw [List.cons_append, List.append_assoc]
  | @expansionStops item items added log s s' s'' left left' error htake hafford hadded ih =>
    exact .inr ⟨[], item, items, [], item :: log, s, left, rfl, rfl, .nil,
      .expansionStops htake hafford hadded⟩
  | @refused item items added log s s' left ended htake hafford hrest ih =>
    rcases ih with hperformed |
      ⟨before, stop, after, logBefore, logItem, t, left', rfl, rfl, hbefore, hstop⟩
    · exact .inl hperformed
    · exact .inr ⟨item :: before, stop, after, item :: logBefore, logItem, t, left', rfl, rfl,
        .refused htake hafford hbefore, hstop⟩

/-- The items of a list performed to its end are all taken, in their order. -/
theorem sublist (h : Performs m items s budget log ended) {s' : σ} {left' : Option ℕ}
    (hended : ended = .performed s' left') : items.Sublist log := by
  induction h with
  | nil => exact List.Sublist.slnil
  | done htake hrest ih => exact (ih hended).cons_cons _
  | stops htake => cases hended
  | expands htake hafford hadded hrest ihadded ihrest =>
    exact ((ihrest hended).trans (List.sublist_append_right _ _)).cons_cons _
  | expansionStops htake hafford hadded ih => cases hended
  | refused htake hafford hrest ih => exact (ih hended).cons_cons _

end Performs

end Worklist
