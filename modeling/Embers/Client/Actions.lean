import Embers.Client.State
import Embers.Core.Model
import Embers.Lib.Worklist

/-!
# Executing actions

The client executes a list of actions from the front. A chain, a named action and a change of the
mode are replaced by further actions, which a script computes and which may lead back to where they
came from. What the actions that are not replaced do is left open here: `ActionHost` says what the
loop asks of the client and its script.

The loop is a work list whose budget is the number of actions that may be added
(`executeActions_eq`). So it ends, and it performs its actions in order, each with its expansion in
its place.
-/

namespace Embers.Client

def normalMode : String := "normal"
def copyMode : String := "copy"
def selectMode : String := "select"
def searchMode : String := "search"

/-- `MAX_EXPANDED_ACTIONS`. -/
def maxExpandedActions : ℕ := 256

/-- An action. Those of `α` are executed without adding to the queue. -/
inductive Action (α : Type) where
  | noop
  | chain (actions : List (Action α))
  | runNamedAction (name : String)
  | enterMode (mode : String)
  | leaveMode
  | toggleMode (mode : String)
  | other (action : α)

/-- What executing an action without an expansion comes to: a result, or an error that ends the whole
list. -/
inductive Handled (σ : Type) where
  | result (s : σ) (result : Except MuxError Unit)
  | returned (error : MuxError) (s : σ)

/-- The client and its script, whose state has the session the actions are executed in. -/
structure ActionHost (σ α : Type) where
  hasMode : String → σ → Bool
  runNamedAction : String → σ → Except String (List (Action α))
  runLeaveHook : String → σ → Except String (List (Action α))
  runEnterHook : String → σ → Except String (List (Action α))
  currentMode : σ → String
  setMode : String → σ → σ
  /-- Start a copy cursor in the focused view, when it is shown and has none. -/
  ensureCopyCursor : σ → σ
  clearCopyViews : σ → σ × Except MuxError Unit
  recordNotification : String → σ → σ
  handle : α → σ → Handled σ

namespace ActionHost

variable {σ α : Type} (host : ActionHost σ α)

/-! ## The loop -/

/-- Change the mode; answers the actions of the hooks. -/
def transitionMode (mode : String) (s : σ) : σ × Except MuxError (List (Action α)) :=
  if host.hasMode mode s then
    let previousMode := host.currentMode s
    if previousMode = mode then
      (s, .ok [])
    else
      match host.runLeaveHook previousMode s with
      | .error error => (s, .error (.invalidInput error))
      | .ok leaving =>
        let s := host.setMode mode s
        match host.runEnterHook mode s with
        | .error error => (host.setMode previousMode s, .error (.invalidInput error))
        | .ok entering =>
          if mode ∈ [copyMode, selectMode] then
            (host.ensureCopyCursor s, .ok (leaving ++ entering))
          else if previousMode ∈ [copyMode, selectMode] ∧ mode ≠ searchMode then
            match host.clearCopyViews s with
            | (s, .ok ()) => (s, .ok (leaving ++ entering))
            | (s, .error error) => (s, .error error)
          else
            (s, .ok (leaving ++ entering))
  else
    (s, .error (.invalidInput s!"unknown mode '{mode}'"))

end ActionHost

structure ActionLoop (σ α : Type) where
  state : σ
  pending : List (Action α)
  expansions : ℕ

/-- One turn of the loop: the result of an action, or an error that ends the loop. -/
inductive Turn (σ α : Type) where
  | result (loop : ActionLoop σ α) (result : Except MuxError Unit)
  | returned (error : MuxError) (s : σ)

variable {σ α : Type}

/-- `prepend_actions`: each action to the front, the last one first. -/
def prependActions (pending actions : List (Action α)) : List (Action α) :=
  actions.reverse.foldl (fun pending action ↦ action :: pending) pending

def expansionLimitReached : MuxError := .invalidInput "action expansion limit reached"

def prependActionsWithLimit (actions : List (Action α)) (loop : ActionLoop σ α) : Turn σ α :=
  let loop := { loop with expansions := saturatingAdd loop.expansions actions.length }
  if maxExpandedActions < loop.expansions then
    .result loop (.error expansionLimitReached)
  else
    .result { loop with pending := prependActions loop.pending actions } (.ok ())

namespace ActionHost

variable (host : ActionHost σ α)

def changeMode (mode : String) (loop : ActionLoop σ α) : Turn σ α :=
  match host.transitionMode mode loop.state with
  | (s, .ok actions) => prependActionsWithLimit actions { loop with state := s }
  | (s, .error error) => .returned error s

/-- Execute an action that was taken from the queue. -/
def execute (action : Action α) (loop : ActionLoop σ α) : Turn σ α :=
  match action with
  | .noop => .result loop (.ok ())
  | .chain actions => prependActionsWithLimit actions loop
  | .runNamedAction name =>
    match host.runNamedAction name loop.state with
    | .ok actions => prependActionsWithLimit actions loop
    | .error error => .result loop (.error (.invalidInput error))
  | .enterMode mode => host.changeMode mode loop
  | .leaveMode => host.changeMode normalMode loop
  | .toggleMode mode =>
    host.changeMode (if host.currentMode loop.state = mode then normalMode else mode) loop
  | .other action =>
    match host.handle action loop.state with
    | .result s result => .result { loop with state := s } result
    | .returned error s => .returned error s

def recordResult (loop : ActionLoop σ α) : Except MuxError Unit → ActionLoop σ α
  | .ok () => loop
  | .error error =>
    { loop with state := host.recordNotification (toString error) loop.state }

/-- The loop of `execute_actions`: the actions it takes from the queue, what it returns and the state
it leaves. The fuel is one for each action taken. -/
def executePending : ℕ → ActionLoop σ α → Option (List (Action α) × Except MuxError Unit × σ)
  | fuel, ⟨s, pending, expansions⟩ =>
    match pending, fuel with
    | [], _ => some ([], .ok (), s)
    | _ :: _, 0 => none
    | action :: pending, fuel + 1 =>
      match host.execute action ⟨s, pending, expansions⟩ with
      | .returned error s => some ([action], .error error, s)
      | .result loop result =>
        (executePending fuel (host.recordResult loop result)).map (Prod.map (action :: ·) id)

/-- `execute_actions`. -/
def executeActions (fuel : ℕ) (actions : List (Action α)) (s : σ) :
    Option (List (Action α) × Except MuxError Unit × σ) :=
  host.executePending fuel ⟨s, actions, 0⟩

end ActionHost

/-! ## The loop is a work list -/

/-- What an action comes to, apart from the queue it was taken from. -/
inductive Expansion (σ α : Type) where
  | result (s : σ) (result : Except MuxError Unit)
  | expands (s : σ) (actions : List (Action α))
  | returned (error : MuxError) (s : σ)

/-- The turn of the loop that takes an action. -/
def Expansion.turn (pending : List (Action α)) (expansions : ℕ) : Expansion σ α → Turn σ α
  | .result s answer => .result ⟨s, pending, expansions⟩ answer
  | .expands s actions => prependActionsWithLimit actions ⟨s, pending, expansions⟩
  | .returned error s => .returned error s

namespace ActionHost

variable (host : ActionHost σ α)

def expandMode (mode : String) (s : σ) : Expansion σ α :=
  match host.transitionMode mode s with
  | (s, .ok actions) => .expands s actions
  | (s, .error error) => .returned error s

def expand (action : Action α) (s : σ) : Expansion σ α :=
  match action with
  | .noop => .result s (.ok ())
  | .chain actions => .expands s actions
  | .runNamedAction name =>
    match host.runNamedAction name s with
    | .ok actions => .expands s actions
    | .error error => .result s (.error (.invalidInput error))
  | .enterMode mode => host.expandMode mode s
  | .leaveMode => host.expandMode normalMode s
  | .toggleMode mode => host.expandMode (if host.currentMode s = mode then normalMode else mode) s
  | .other action =>
    match host.handle action s with
    | .result s result => .result s result
    | .returned error s => .returned error s

theorem changeMode_eq (mode : String) (s : σ) (pending : List (Action α)) (expansions : ℕ) :
    host.changeMode mode ⟨s, pending, expansions⟩ = (host.expandMode mode s).turn pending expansions := by
  rw [changeMode, expandMode]
  obtain ⟨s', result⟩ := host.transitionMode mode s
  cases result with
  | ok actions => rfl
  | error error => rfl

/-- Only adding to the front reads the queue. -/
theorem execute_eq (action : Action α) (s : σ) (pending : List (Action α)) (expansions : ℕ) :
    host.execute action ⟨s, pending, expansions⟩ = (host.expand action s).turn pending expansions := by
  cases action with
  | noop => rfl
  | chain actions => rfl
  | runNamedAction name =>
    rw [execute, expand]
    cases host.runNamedAction name s with
    | ok actions => rfl
    | error error => rfl
  | enterMode mode => exact host.changeMode_eq mode s pending expansions
  | leaveMode => exact host.changeMode_eq normalMode s pending expansions
  | toggleMode mode => exact host.changeMode_eq _ s pending expansions
  | other action =>
    rw [execute, expand]
    cases host.handle action s with
    | result s' result => rfl
    | returned error s' => rfl

/-- What taking an action comes to, with its error shown. -/
def take (action : Action α) (s : σ) : Worklist.Taken (Action α) σ MuxError :=
  match host.expand action s with
  | .result s (.ok ()) => .done s
  | .result s (.error error) => .done (host.recordNotification (toString error) s)
  | .expands s actions => .expands s actions
  | .returned error s => .stops error s

/-- Actions as the items of a work list. -/
def worklist : Worklist.Machine (Action α) σ MuxError where
  take := host.take
  refuse := host.recordNotification (toString expansionLimitReached)

end ActionHost

/-- How many actions may still be added. -/
def expansionsLeft (expansions : ℕ) : Option ℕ :=
  if expansions ≤ maxExpandedActions then some (maxExpandedActions - expansions) else none

def outcome : Worklist.Ended σ MuxError → Except MuxError Unit × σ
  | .performed s _ => (.ok (), s)
  | .stopped error s => (.error error, s)

theorem prependActions_eq (pending actions : List (Action α)) :
    prependActions pending actions = actions ++ pending := by
  rw [prependActions, List.foldl_reverse]
  exact List.foldr_cons_eq_append' ..

theorem limit_lt_saturatingAdd {expansions count : ℕ} :
    maxExpandedActions < saturatingAdd expansions count ↔
      ¬expansions + count ≤ maxExpandedActions := by
  rw [saturatingAdd, maxExpandedActions]
  omega

theorem afford_expansionsLeft (expansions count : ℕ) :
    Worklist.afford (expansionsLeft expansions) count =
      if expansions + count ≤ maxExpandedActions then
        some (maxExpandedActions - (expansions + count)) else none := by
  rw [expansionsLeft]
  by_cases h : expansions ≤ maxExpandedActions
  · rw [if_pos h, Worklist.afford, Option.bind_some]
    by_cases hfits : expansions + count ≤ maxExpandedActions
    · rw [if_pos hfits, if_pos (by omega), Nat.sub_sub]
    · rw [if_neg hfits, if_neg (by omega)]
  · rw [if_neg h, if_neg (by omega)]
    rfl

namespace ActionHost

variable (host : ActionHost σ α)

theorem executePending_eq (fuel : ℕ) (s : σ) (pending : List (Action α)) (expansions : ℕ) :
    host.executePending fuel ⟨s, pending, expansions⟩ =
      (Worklist.run host.worklist fuel pending s (expansionsLeft expansions)).map
        (Prod.map id outcome) := by
  induction fuel generalizing s pending expansions with
  | zero =>
    cases pending with
    | nil => rfl
    | cons action pending => rfl
  | succ fuel ih =>
    cases pending with
    | nil => rfl
    | cons action pending =>
      have htake : host.worklist.take action s = host.take action s := rfl
      rw [executePending, execute_eq, Worklist.run, htake, take]
      cases hexpand : host.expand action s with
      | returned error s' => rfl
      | result s' result =>
        cases result with
        | ok =>
          dsimp only [Expansion.turn, recordResult]
          rw [ih, Option.map_map, Option.map_map]
          rfl
        | error error =>
          dsimp only [Expansion.turn, recordResult]
          rw [ih, Option.map_map, Option.map_map]
          rfl
      | expands s' actions =>
        dsimp only [Expansion.turn, prependActionsWithLimit]
        simp only [limit_lt_saturatingAdd, afford_expansionsLeft, ite_not]
        by_cases hfits : expansions + actions.length ≤ maxExpandedActions
        · have hsum : saturatingAdd expansions actions.length = expansions + actions.length := by
            rw [maxExpandedActions] at hfits
            rw [saturatingAdd]
            omega
          rw [if_pos hfits, if_pos hfits]
          dsimp only [recordResult]
          rw [ih, prependActions_eq, hsum, expansionsLeft, if_pos hfits, Option.map_map,
            Option.map_map]
          rfl
        · have hover : expansionsLeft (saturatingAdd expansions actions.length) = none := by
            rw [expansionsLeft, if_neg (Nat.not_le.mpr (limit_lt_saturatingAdd.mpr hfits))]
          rw [if_neg hfits, if_neg hfits]
          dsimp only [recordResult]
          rw [ih, hover, Option.map_map, Option.map_map]
          rfl

/-- **Executing actions.** The loop ends, whatever the actions expand to, after taking no more actions
than the list has and 256. It performs the list, each action with its expansion in its place: to the
end, or, when an action returns an error, up to that action, the ones before it to their ends. -/
theorem executeActions_performs (actions : List (Action α)) (s : σ) :
    ∃ log ended,
      (∀ fuel, actions.length + maxExpandedActions ≤ fuel →
        host.executeActions fuel actions s = some (log, outcome ended)) ∧
      log.length ≤ actions.length + maxExpandedActions ∧
      Worklist.Performs host.worklist actions s (some maxExpandedActions) log ended ∧
      ((∃ s' left, ended = .performed s' left ∧ actions.Sublist log) ∨
        ∃ before action after logBefore logAction s' left error s'',
          actions = before ++ action :: after ∧ log = logBefore ++ logAction ∧
          ended = .stopped error s'' ∧
          Worklist.Performs host.worklist before s (some maxExpandedActions) logBefore
            (.performed s' left) ∧
          Worklist.Performs host.worklist [action] s' left logAction (.stopped error s'')) := by
  have hsome : (Worklist.run host.worklist (actions.length + maxExpandedActions) actions s
      (some maxExpandedActions)).isSome := Worklist.run_isSome (Nat.le_refl _)
  obtain ⟨⟨log, ended⟩, hrun⟩ := Option.isSome_iff_exists.mp hsome
  have hperforms := Worklist.run_performs hrun
  refine ⟨log, ended, fun fuel hfuel ↦ ?_, ?_, hperforms, ?_⟩
  · have hleft : expansionsLeft 0 = some maxExpandedActions := rfl
    rw [executeActions, executePending_eq, hleft, Worklist.run_of_le hfuel hrun]
    rfl
  · exact (Nat.le_add_right _ _).trans hperforms.length_add_left_le
  · cases ended with
    | performed s' left => exact .inl ⟨s', left, rfl, hperforms.sublist rfl⟩
    | stopped error s'' =>
      rcases hperforms.cut with ⟨s', left, hended⟩ |
        ⟨before, action, after, logBefore, logAction, s', left, hactions, hlog, hbefore, haction⟩
      · cases hended
      · exact .inr ⟨before, action, after, logBefore, logAction, s', left, error, s'', hactions, hlog,
          rfl, hbefore, haction⟩

/-- A client that keeps its notifications, with an action that calls itself. -/
def selfCalling : ActionHost (List String) Empty where
  hasMode _ _ := false
  runNamedAction name _ := .ok [.runNamedAction name]
  runLeaveHook _ _ := .ok []
  runEnterHook _ _ := .ok []
  currentMode _ := normalMode
  setMode _ s := s
  ensureCopyCursor s := s
  clearCopyViews s := (s, .ok ())
  recordNotification text s := s ++ [text]
  handle action _ := action.elim

example :
    (selfCalling.executeActions 258 [.runNamedAction "again", .noop] []).map
        (fun ran ↦ (ran.1.length, ran.2.2)) =
      some (258, ["invalid input: action expansion limit reached"]) := by
  decide +kernel

end ActionHost

end Embers.Client
