import Mathlib

/-!
# Fallible state operations that keep their state

A method that mutates its receiver and returns a `Result` leaves behind whatever it had changed
when it fails: there is no rollback unless the code writes one. `Op σ ε α` is that shape — the
state comes back next to the answer, in success and in failure alike — so an error path can be
reasoned about in the state it really leaves.

A call may also never return. Recursive definitions take fuel and answer `Fault.diverges` when it
runs out, kept apart from the errors of the program: `attempt` catches the latter and passes the
former on, as no handler in the program can observe a call that does not return.

## How proofs use it

For one outcome, `ok_bind` peels a successful computation into its steps. For every outcome,
`Keeps R` says that a computation only moves the state along a relation `R`; it composes along
`bind` whenever `R` is reflexive and transitive.
-/

namespace Embers

/-- How a computation that does not succeed ends: with an error of the program, or not at all. -/
inductive Fault (ε : Type) where
  /-- The program returned an error. -/
  | error (e : ε)
  /-- The program did not return within the fuel it was given. -/
  | diverges
  deriving DecidableEq, Repr

/-- The answer of a read-only computation. -/
abbrev Answer (ε α : Type) := Except (Fault ε) α

namespace Answer

variable {ε α β : Type}

/-- The error of the program, as an answer. -/
def fail (e : ε) : Answer ε α := .error (.error e)

/-- `ok_or_else`: a present value, or the error of the program. -/
def ofOption (e : ε) : Option α → Answer ε α
  | some a => .ok a
  | none => fail e

@[simp] theorem ofOption_some (e : ε) (a : α) : ofOption e (some a) = .ok a := rfl

@[simp] theorem ofOption_none (e : ε) : (ofOption e none : Answer ε α) = fail e := rfl

theorem ofOption_eq_ok {e : ε} {o : Option α} {a : α} : ofOption e o = .ok a ↔ o = some a := by
  cases o <;> simp [fail]

/-- A successful computation, peeled into its two steps. -/
theorem ok_bind {x : Answer ε α} {f : α → Answer ε β} {b : β} (h : (x >>= f) = .ok b) :
    ∃ a, x = .ok a ∧ f a = .ok b := by
  cases x with
  | error e => cases h
  | ok a => exact ⟨a, rfl, h⟩

@[simp] theorem bind_ok (a : α) (f : α → Answer ε β) : ((.ok a : Answer ε α) >>= f) = f a := rfl

@[simp] theorem bind_error (e : Fault ε) (f : α → Answer ε β) :
    ((.error e : Answer ε α) >>= f) = .error e := rfl

@[simp] theorem pure_eq_ok (a : α) : (pure a : Answer ε α) = .ok a := rfl

theorem fail_ne_ok {e : ε} {a : α} : (fail e : Answer ε α) ≠ .ok a := nofun

theorem ofOption_ne_diverges {e : ε} {o : Option α} : ofOption e o ≠ .error .diverges := by
  cases o <;> exact nofun

/-- The answer of the first element of a list that has one: the loop that returns early. -/
def firstSome (f : α → Answer ε (Option β)) : List α → Answer ε (Option β)
  | [] => .ok none
  | a :: as => do
    match ← f a with
    | some b => pure (some b)
    | none => firstSome f as

theorem firstSome_eq_some {f : α → Answer ε (Option β)} {b : β} :
    ∀ {l : List α}, firstSome f l = .ok (some b) → ∃ a ∈ l, f a = .ok (some b)
  | [], h => by cases h
  | a :: as, h => by
    obtain ⟨o, ho, hrest⟩ := ok_bind h
    cases o with
    | some c => cases hrest; exact ⟨a, List.mem_cons_self, ho⟩
    | none =>
      obtain ⟨a', ha', hb⟩ := firstSome_eq_some hrest
      exact ⟨a', List.mem_cons_of_mem _ ha', hb⟩

/-- `Result::ok`, for a call that answers with an option: an error of the program reads as
absence. -/
def orNone : Answer ε (Option α) → Answer ε (Option α)
  | .ok o => .ok o
  | .error (.error _) => .ok none
  | .error .diverges => .error .diverges

/-- A check of each element of a list in turn: the loop that returns the first error. -/
def each (f : α → Answer ε Unit) : List α → Answer ε Unit
  | [] => .ok ()
  | a :: as => do
    f a
    each f as

theorem each_eq_ok {f : α → Answer ε Unit} :
    ∀ {l : List α}, each f l = .ok () ↔ ∀ a ∈ l, f a = .ok ()
  | [] => by simp [each]
  | a :: as => by
    rw [List.forall_mem_cons, ← each_eq_ok]
    constructor
    · intro h
      obtain ⟨u, hu, hrest⟩ := ok_bind h
      exact ⟨hu, hrest⟩
    · rintro ⟨ha, has⟩
      rw [each, ha]
      exact has

theorem each_map {γ : Type} (f : α → Answer ε Unit) (g : γ → α) :
    ∀ l : List γ, each f (l.map g) = each (fun c ↦ f (g c)) l
  | [] => rfl
  | c :: cs => by rw [List.map_cons, each, each, each_map f g cs]

/-- The answers for the elements of a list, one after another. -/
def collect (f : α → Answer ε (List β)) : List α → Answer ε (List β)
  | [] => .ok []
  | a :: as => do
    let bs ← f a
    let rest ← collect f as
    pure (bs ++ rest)

theorem mem_collect {f : α → Answer ε (List β)} {b : β} :
    ∀ {l : List α} {bs : List β}, collect f l = .ok bs → b ∈ bs →
      ∃ a ∈ l, ∃ bs', f a = .ok bs' ∧ b ∈ bs'
  | [], bs, h, hb => by
    cases h
    cases hb
  | a :: as, bs, h, hb => by
    obtain ⟨bs', hbs', h⟩ := ok_bind h
    obtain ⟨rest, hrest, h⟩ := ok_bind h
    cases h
    rcases List.mem_append.mp hb with hb | hb
    · exact ⟨a, List.mem_cons_self, bs', hbs', hb⟩
    · obtain ⟨a', ha', hbs''⟩ := mem_collect hrest hb
      exact ⟨a', List.mem_cons_of_mem _ ha', hbs''⟩

/-- Where every answer comes and none is empty, the answers for a list with elements come and are
not empty. -/
theorem collect_ok_ne_nil {f : α → Answer ε (List β)} :
    ∀ {l : List α}, l ≠ [] → (∀ a ∈ l, ∃ bs, f a = .ok bs ∧ bs ≠ []) →
      ∃ bs, collect f l = .ok bs ∧ bs ≠ []
  | [], hl, _ => absurd rfl hl
  | a :: as, _, hf => by
    obtain ⟨bs, hbs, hne⟩ := hf a List.mem_cons_self
    have hne' : ∀ rest, bs ++ rest ≠ [] := fun rest h ↦ hne (List.append_eq_nil_iff.mp h).1
    rcases as with _ | ⟨b, as⟩
    · exact ⟨bs ++ [], by rw [collect, hbs]; rfl, hne' []⟩
    · obtain ⟨rest, hrest, -⟩ := collect_ok_ne_nil (List.cons_ne_nil b as)
        fun c hc ↦ hf c (List.mem_cons_of_mem _ hc)
      exact ⟨bs ++ rest, by rw [collect, hbs, bind_ok, hrest]; rfl, hne' rest⟩

/-- In a loop that succeeds, the turn of each element succeeded. -/
theorem foldlM_step {f : β → α → Answer ε β} {a : α} :
    ∀ {l : List α} {b b' : β}, l.foldlM f b = .ok b' → a ∈ l → ∃ c c', f c a = .ok c'
  | first :: rest, b, b', h, hmem => by
    obtain ⟨c, hc, hrest⟩ := ok_bind h
    rcases List.mem_cons.mp hmem with rfl | hmem
    · exact ⟨b, c, hc⟩
    · exact foldlM_step hrest hmem

/-- Whether the answer is true of some element: the loop that returns at the first one. -/
def any (f : α → Answer ε Bool) : List α → Answer ε Bool
  | [] => .ok false
  | a :: as => do
    match ← f a with
    | true => pure true
    | false => any f as

end Answer

/-- A computation on a state `σ` that fails with `ε`, leaving the state it had reached. -/
def Op (σ ε α : Type) := σ → Answer ε α × σ

namespace Op

variable {σ ε α β : Type}

instance : Monad (Op σ ε) where
  pure a := fun s ↦ (.ok a, s)
  bind m f := fun s ↦
    match m s with
    | (.ok a, s') => f a s'
    | (.error e, s') => (.error e, s')

/-- Read the state with a computation that may fail. -/
def ask (q : σ → Answer ε α) : Op σ ε α := fun s ↦ (q s, s)

/-- Read the state. -/
def gets (q : σ → α) : Op σ ε α := fun s ↦ (.ok (q s), s)

/-- Change the state. -/
def modify (f : σ → σ) : Op σ ε Unit := fun s ↦ (.ok (), f s)

/-- Change the state and answer with something read off it. -/
def update (f : σ → α × σ) : Op σ ε α := fun s ↦ (.ok (f s).1, (f s).2)

/-- Return an error of the program. -/
def throw (e : ε) : Op σ ε α := fun s ↦ (.error (.error e), s)

/-- Never return. -/
def diverge : Op σ ε α := fun s ↦ (.error .diverges, s)

/-- Run a computation and hand its error to the caller as a value. -/
def attempt (m : Op σ ε α) : Op σ ε (Except ε α) := fun s ↦
  match m s with
  | (.ok a, s') => (.ok (.ok a), s')
  | (.error (.error e), s') => (.ok (.error e), s')
  | (.error .diverges, s') => (.error .diverges, s')

/-- Run a computation for what it does to the state. -/
def void (m : Op σ ε α) : Op σ ε Unit := do
  let _ ← m
  pure ()

/-- Run a computation for each element of a list in turn. -/
def forEach (f : α → Op σ ε Unit) : List α → Op σ ε Unit
  | [] => pure ()
  | a :: as => do
    f a
    forEach f as

/-- Thread a value through a computation for each element of a list. -/
def fold (f : β → α → Op σ ε β) : β → List α → Op σ ε β
  | b, [] => pure b
  | b, a :: as => do
    let b ← f b a
    fold f b as

/-! ## One outcome -/

variable {s s' : σ} {a : α} {b : β}

@[simp] theorem pure_apply (a : α) (s : σ) : (pure a : Op σ ε α) s = (.ok a, s) := rfl

@[simp] theorem ask_apply (q : σ → Answer ε α) (s : σ) : ask q s = (q s, s) := rfl

@[simp] theorem gets_apply (q : σ → α) (s : σ) : (gets q : Op σ ε α) s = (.ok (q s), s) := rfl

@[simp] theorem modify_apply (f : σ → σ) (s : σ) : (modify f : Op σ ε Unit) s = (.ok (), f s) := rfl

@[simp] theorem throw_apply (e : ε) (s : σ) :
    (throw e : Op σ ε α) s = (.error (.error e), s) := rfl

theorem bind_apply (m : Op σ ε α) (f : α → Op σ ε β) (s : σ) :
    (m >>= f) s = match m s with
      | (.ok a, s') => f a s'
      | (.error e, s') => (.error e, s') := rfl

/-- A successful computation, peeled into its two steps. -/
theorem ok_bind {m : Op σ ε α} {f : α → Op σ ε β} {s s' : σ} {b : β}
    (h : (m >>= f) s = (.ok b, s')) : ∃ a t, m s = (.ok a, t) ∧ f a t = (.ok b, s') := by
  rw [bind_apply] at h
  rcases hm : m s with ⟨r, t⟩
  rw [hm] at h
  cases r with
  | error e => cases h
  | ok a => exact ⟨a, t, rfl, h⟩

theorem bind_of_ok {m : Op σ ε α} {f : α → Op σ ε β} {s t : σ} (h : m s = (.ok a, t)) :
    (m >>= f) s = f a t := by
  rw [bind_apply, h]

theorem bind_of_error {m : Op σ ε α} {f : α → Op σ ε β} {s t : σ} {e : Fault ε}
    (h : m s = (.error e, t)) : (m >>= f) s = (.error e, t) := by
  rw [bind_apply, h]

theorem ask_bind_of_ok {q : σ → Answer ε α} {f : α → Op σ ε β} {s : σ} (h : q s = .ok a) :
    (ask q >>= f) s = f a s :=
  bind_of_ok (by rw [ask_apply, h])

/-- A successful read, which leaves the state alone. -/
theorem ok_ask_bind {q : σ → Answer ε α} {f : α → Op σ ε β} {s s' : σ} {b : β}
    (h : (ask q >>= f) s = (.ok b, s')) : ∃ a, q s = .ok a ∧ f a s = (.ok b, s') := by
  obtain ⟨a, t, hq, hf⟩ := ok_bind h
  rw [ask_apply, Prod.mk.injEq] at hq
  exact ⟨a, hq.1, hq.2 ▸ hf⟩

/-- A failed read followed by more: the read failed, or what follows did. -/
theorem error_ask_bind {q : σ → Answer ε α} {f : α → Op σ ε β} {s s' : σ} {e : Fault ε}
    (h : (ask q >>= f) s = (.error e, s')) :
    q s = .error e ∧ s' = s ∨ ∃ a, q s = .ok a ∧ f a s = (.error e, s') := by
  rw [bind_apply, ask_apply] at h
  rcases hq : q s with e' | a
  · rw [hq] at h
    cases h
    exact .inl ⟨rfl, rfl⟩
  · rw [hq] at h
    exact .inr ⟨a, rfl, h⟩

@[simp] theorem gets_bind_apply (q : σ → α) (f : α → Op σ ε β) (s : σ) :
    ((gets q : Op σ ε α) >>= f) s = f (q s) s := rfl

@[simp] theorem modify_bind_apply (g : σ → σ) (f : Unit → Op σ ε β) (s : σ) :
    ((modify g : Op σ ε Unit) >>= f) s = f () (g s) := rfl

@[simp] theorem diverge_apply (s : σ) : (diverge : Op σ ε α) s = (.error .diverges, s) := rfl

/-- Dropping the answer leaves the state alone. -/
@[simp] theorem bind_pure_snd (m : Op σ ε α) (b : β) (s : σ) :
    ((m >>= fun _ ↦ pure b) s).2 = (m s).2 := by
  rw [bind_apply]
  rcases m s with ⟨_ | _, t⟩ <;> rfl

theorem throw_ne_ok {e : ε} : (throw e : Op σ ε α) s ≠ (.ok a, s') := nofun

theorem attempt_eq_ok_ok {m : Op σ ε α} :
    attempt m s = (.ok (.ok a), s') ↔ m s = (.ok a, s') := by
  rw [attempt]
  rcases m s with ⟨(_ | _) | _, t⟩ <;> simp

@[simp] theorem attempt_snd (m : Op σ ε α) (s : σ) : (attempt m s).2 = (m s).2 := by
  rw [attempt]
  rcases m s with ⟨(_ | _) | _, t⟩ <;> rfl

/-- A successful loop, cut in two. -/
theorem ok_forEach_append {f : α → Op σ ε Unit} {l l' : List α} {s s' : σ}
    (h : forEach f (l ++ l') s = (.ok (), s')) :
    ∃ t, forEach f l s = (.ok (), t) ∧ forEach f l' t = (.ok (), s') := by
  induction l generalizing s with
  | nil => exact ⟨s, rfl, h⟩
  | cons a l ih =>
    obtain ⟨u, t, ha, hrest⟩ := ok_bind h
    obtain ⟨t', hl, hl'⟩ := ih hrest
    exact ⟨t', (bind_of_ok ha).trans hl, hl'⟩

/-! ## Every outcome -/

/-- From one state: a computation and what follows its answer move the state along `R`. -/
theorem moves_bind {R : σ → σ → Prop} [IsTrans σ R] {m : Op σ ε α} {f : α → Op σ ε β}
    (hm : R s (m s).2) (hf : ∀ a t, m s = (.ok a, t) → R t (f a t).2) : R s ((m >>= f) s).2 := by
  rw [bind_apply]
  rcases hms : m s with ⟨e | a, t⟩
  · rwa [hms] at hm
  · rw [hms] at hm
    exact Trans.trans hm (hf a t hms)

theorem moves_ask_bind {R : σ → σ → Prop} [Std.Refl R] {q : σ → Answer ε α} {f : α → Op σ ε β}
    (hf : ∀ a, q s = .ok a → R s (f a s).2) : R s ((ask q >>= f) s).2 := by
  rw [bind_apply, ask_apply]
  rcases hq : q s with e | a
  · exact Std.Refl.refl s
  · exact hf a hq

/-- However it ends, the computation moves the state along `R`. -/
def Keeps (R : σ → σ → Prop) (m : Op σ ε α) : Prop := ∀ s, R s (m s).2

namespace Keeps

variable {R : σ → σ → Prop} {m : Op σ ε α} {f : α → Op σ ε β}

theorem ask [Std.Refl R] (q : σ → Answer ε α) : Keeps R (ask q) := fun s ↦ Std.Refl.refl s

theorem gets [Std.Refl R] (q : σ → α) : Keeps R (gets q : Op σ ε α) := fun s ↦ Std.Refl.refl s

theorem pure [Std.Refl R] (a : α) : Keeps R (Pure.pure a : Op σ ε α) := fun s ↦ Std.Refl.refl s

theorem throw [Std.Refl R] (e : ε) : Keeps R (throw e : Op σ ε α) := fun s ↦ Std.Refl.refl s

theorem diverge [Std.Refl R] : Keeps R (diverge : Op σ ε α) := fun s ↦ Std.Refl.refl s

theorem modify {g : σ → σ} (h : ∀ s, R s (g s)) : Keeps R (modify g : Op σ ε Unit) := h

theorem update {g : σ → α × σ} (h : ∀ s, R s (g s).2) : Keeps R (update g : Op σ ε α) := h

theorem bind [IsTrans σ R] (hm : Keeps R m) (hf : ∀ a, Keeps R (f a)) : Keeps R (m >>= f) := by
  intro s
  have h := hm s
  rw [bind_apply]
  rcases hms : m s with ⟨r, t⟩
  rw [hms] at h
  cases r with
  | error e => exact h
  | ok a => exact Trans.trans h (hf a t)

theorem attempt (hm : Keeps R m) : Keeps R (attempt m) := fun s ↦ by
  rw [attempt_snd]
  exact hm s

theorem forEach [Std.Refl R] [IsTrans σ R] {f : α → Op σ ε Unit} (hf : ∀ a, Keeps R (f a)) :
    ∀ l : List α, Keeps R (forEach f l)
  | [] => pure ()
  | a :: as => bind (hf a) fun _ ↦ forEach hf as

theorem fold [Std.Refl R] [IsTrans σ R] {f : β → α → Op σ ε β} (hf : ∀ b a, Keeps R (f b a)) :
    ∀ (l : List α) (b : β), Keeps R (fold f b l)
  | [], b => pure b
  | a :: as, b => bind (hf b a) fun b ↦ fold hf as b

end Keeps

/-! ## An invariant with credits

`I r s` is an invariant of the state that leaves `r` credits to spend. A computation that spends
at most `k` of them keeps the invariant with the rest, however it ends. -/

/-- From the state `s`, the computation spends at most `k` credits. -/
def Spends (I : ℕ → σ → Prop) (k : ℕ) (m : Op σ ε α) (s : σ) : Prop :=
  ∀ r, I (r + k) s → I r (m s).2

/-- Credits may be left unspent. -/
def Wastes (I : ℕ → σ → Prop) : Prop := ∀ r k s, I (r + k) s → I r s

namespace Spends

variable {I : ℕ → σ → Prop} {m : Op σ ε α} {f : α → Op σ ε β} {k l : ℕ}

theorem pure (a : α) : Spends I 0 (Pure.pure a : Op σ ε α) s := fun _ h ↦ h

theorem throw (e : ε) : Spends I 0 (throw e : Op σ ε α) s := fun _ h ↦ h

theorem diverge : Spends I 0 (diverge : Op σ ε α) s := fun _ h ↦ h

theorem mono (hI : Wastes I) (hm : Spends I k m s) (hkl : k ≤ l) : Spends I l m s := by
  intro r hr
  refine hm r (hI (r + k) (l - k) s ?_)
  rwa [show r + k + (l - k) = r + l by omega]

theorem bind (hI : Wastes I) (hm : Spends I k m s)
    (hf : ∀ a t, m s = (.ok a, t) → Spends I l (f a) t) : Spends I (k + l) (m >>= f) s := by
  intro r hr
  have hmid : I (r + l) (m s).2 := by
    refine hm (r + l) ?_
    rwa [show r + l + k = r + (k + l) by omega]
  rw [bind_apply]
  rcases hms : m s with ⟨e | a, t⟩
  · rw [hms] at hmid
    exact hI r l t hmid
  · rw [hms] at hmid
    exact hf a t hms r hmid

/-- Only the second computation spends. -/
theorem bind_right (hI : Wastes I) (hm : Spends I 0 m s)
    (hf : ∀ a t, m s = (.ok a, t) → Spends I l (f a) t) : Spends I l (m >>= f) s := by
  have h := hm.bind hI hf
  rwa [Nat.zero_add] at h

/-- Only the first computation spends. -/
theorem bind_left (hI : Wastes I) (hm : Spends I k m s)
    (hf : ∀ a t, m s = (.ok a, t) → Spends I 0 (f a) t) : Spends I k (m >>= f) s := hm.bind hI hf

theorem ask_bind {q : σ → Answer ε α} (hI : Wastes I)
    (hf : ∀ a, q s = .ok a → Spends I k (f a) s) : Spends I k (ask q >>= f) s := by
  refine bind_right (m := ask q) hI (fun _ h ↦ h) fun a t hq ↦ ?_
  rw [ask_apply, Prod.mk.injEq] at hq
  exact hq.2 ▸ hf a hq.1

theorem gets_bind {q : σ → α} (hf : Spends I k (f (q s)) s) :
    Spends I k ((gets q : Op σ ε α) >>= f) s := hf

theorem attempt (hm : Spends I k m s) : Spends I k (attempt m) s := fun r hr ↦ by
  rw [attempt_snd]
  exact hm r hr

theorem forEach {f : α → Op σ ε Unit} (hI : Wastes I) (hf : ∀ a s, Spends I 0 (f a) s) :
    ∀ (l : List α) (s : σ), Spends I 0 (forEach f l) s
  | [], _ => pure ()
  | a :: as, s => bind_right hI (hf a s) fun _ t _ ↦ forEach hI hf as t

theorem fold {f : β → α → Op σ ε β} (hI : Wastes I) (hf : ∀ b a s, Spends I k (f b a) s) :
    ∀ (l : List α) (b : β) (s : σ), Spends I (l.length * k) (fold f b l) s
  | [], b, _ => mono hI (pure b) (Nat.zero_le _)
  | a :: as, b, s => by
    rw [List.length_cons, Nat.add_mul, Nat.one_mul, Nat.add_comm]
    exact bind hI (hf b a s) fun b t _ ↦ fold hI hf as b t

end Spends

end Op

end Embers
