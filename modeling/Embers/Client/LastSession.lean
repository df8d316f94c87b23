import Embers.Client.State

/-!
# The session shown before

A client remembers which session it showed before the one it shows, so that `last_session` toggles
between the two. Switching records the session that is left; being detached by the server records it
too, and being attached again keeps that record. When the session it shows is destroyed the client goes
where `detach-on-destroy` says and keeps the record unless that is where it goes.

`Visited` is the purpose of this: every session that was shown, the latest first. In a run the record is
the session before the one that is shown, as long as the client has it (`run_remembers`), if two
things hold of each step. A client without a session is attached to another than the one it remembers:
attached to that one again, it remembers the very session it shows. And when the news that the
shown session was destroyed arrives, it still is that session which is shown: the client leaves
whichever it shows by then.
-/

namespace Embers.Client

open Embers.Protocol

/-! ## The client -/

/-- Where a client goes when the session it shows is destroyed. -/
inductive DetachOnDestroy where
  | on
  | off
  | previous
  | next
  deriving DecidableEq, Repr

abbrev SessionTable := Table SessionId SessionRecord

/-- A client, as far as the session it shows is concerned. -/
structure ConfiguredClient where
  /-- The sessions of its copy of the server. -/
  sessions : SessionTable
  activeSessionId : Option SessionId
  previousSessionId : Option SessionId
  exitRequested : Bool

namespace ConfiguredClient

/-- The client with another copy. -/
def withSessions (c : ConfiguredClient) (sessions : SessionTable) : ConfiguredClient :=
  { c with sessions }

def setActiveSession (c : ConfiguredClient) (sessionId : SessionId) : ConfiguredClient :=
  if c.activeSessionId ≠ some sessionId then
    { c with
      -- Attached again after a detach, the client keeps what it remembers.
      previousSessionId := c.activeSessionId.or c.previousSessionId
      activeSessionId := some sessionId }
  else c

/-- Where a client goes from a destroyed session. -/
def destroyTarget (detachOnDestroy : DetachOnDestroy) (destroyed : SessionId)
    (previous : Option SessionId) (remaining : List SessionId) : Option SessionId :=
  match detachOnDestroy with
  | .on => none
  | .off => previous.or remaining.head?
  | .previous =>
    (remaining.reverse.find? fun sessionId ↦ sessionId.raw < destroyed.raw).or remaining.getLast?
  | .next => (remaining.find? fun sessionId ↦ destroyed.raw < sessionId.raw).or remaining.head?

/-- Leave the active session after the server destroyed it. `switched` is whether the server takes the
client to where it goes. -/
def leaveDestroyedSession (c : ConfiguredClient) (detachOnDestroy : DetachOnDestroy)
    (switched : Bool) : ConfiguredClient :=
  match c.activeSessionId with
  | none => c
  | some destroyed =>
    let previous := c.previousSessionId.filter c.sessions.contains
    let target := destroyTarget detachOnDestroy destroyed previous c.sessions.keys
    let left :=
      { c with
        activeSessionId := none
        previousSessionId := previous.filter fun sessionId ↦ some sessionId ≠ target }
    match target with
    | none => { left with exitRequested := true }
    | some target => if switched then { left with activeSessionId := some target } else left

def clearActiveSession (c : ConfiguredClient) : ConfiguredClient :=
  match c.activeSessionId with
  | none => c
  | some sessionId => { c with activeSessionId := none, previousSessionId := some sessionId }

/-- Ask the server for a switch, and fetch every session again after it. The server may refuse. -/
def performSessionSwitch (c : ConfiguredClient) (sessionId : SessionId) :
    Option SessionTable → ConfiguredClient
  | none => c
  | some sessions => (c.setActiveSession sessionId).withSessions sessions

/-- `Action::LastSession` -/
def lastSession (c : ConfiguredClient) (answer : Option SessionTable) : ConfiguredClient :=
  match c.previousSessionId.filter c.sessions.contains with
  | some target => c.performSessionSwitch target answer
  | none => { c with previousSessionId := none }

/-- What follows the event that the client's session has changed, once the copy is up to date. -/
def clientChanged (c : ConfiguredClient) (current previous : Option SessionId)
    (detachOnDestroy : DetachOnDestroy) (switched : Bool) : ConfiguredClient :=
  match current with
  | some sessionId => c.setActiveSession sessionId
  | none =>
    if previous.any fun sessionId ↦ !c.sessions.contains sessionId then
      c.leaveDestroyedSession detachOnDestroy switched
    else c.clearActiveSession

end ConfiguredClient

/-- What a client handles. Each comes with the copy the client has after it. -/
inductive SessionInput where
  | switchSession (target : SessionId) (answer : Option SessionTable)
  /-- A session is shown because something in it is focused, revealed or drawn. -/
  | setActive (sessionId : SessionId) (sessions : SessionTable)
  | lastSession (answer : Option SessionTable)
  | clientChanged (sessions : SessionTable) (current previous : Option SessionId)
      (detachOnDestroy : DetachOnDestroy) (switched : Bool)
  /-- Any other event: sessions are created, destroyed and fetched again. -/
  | refetched (sessions : SessionTable)

namespace ConfiguredClient

def handle (c : ConfiguredClient) : SessionInput → ConfiguredClient
  | .switchSession target answer => c.performSessionSwitch target answer
  | .setActive sessionId sessions => (c.setActiveSession sessionId).withSessions sessions
  | .lastSession answer => c.lastSession answer
  | .clientChanged sessions current previous detachOnDestroy switched =>
    (c.withSessions sessions).clientChanged current previous detachOnDestroy switched
  | .refetched sessions => c.withSessions sessions

end ConfiguredClient

/-! ## The sessions that were shown -/

/-- The sessions that were shown, the latest first, once a session may be shown. -/
def visit {α : Type} [DecidableEq α] (visits : List α) : Option α → List α
  | none => visits
  | some shown => if visits.head? = some shown then visits else shown :: visits

/-- A client and the sessions it has shown. -/
structure Visited where
  client : ConfiguredClient
  visits : List SessionId

namespace Visited

/-- The sessions that were shown before the one that is. -/
def past (t : Visited) : List SessionId :=
  if t.client.activeSessionId.isSome then t.visits.tail else t.visits

def take (t : Visited) (input : SessionInput) : Visited :=
  ⟨t.client.handle input, visit t.visits (t.client.handle input).activeSessionId⟩

/-- A session that was shown and is gone neither comes back nor is shown again. -/
structure Gone (t : Visited) (input : SessionInput) : Prop where
  copied : ∀ shown ∈ t.visits, t.client.sessions.contains shown = false →
    (t.client.handle input).sessions.contains shown = false
  active : ∀ shown ∈ t.visits, t.client.sessions.contains shown = false →
    (t.client.handle input).activeSessionId = some shown →
    t.client.activeSessionId = some shown

/-- Steps that meet a condition on the client and what it handles. -/
def Step (condition : ConfiguredClient → SessionInput → Prop) (t t' : Visited) : Prop :=
  ∃ input, condition t.client input ∧ t.Gone input ∧ t' = t.take input

/-- A client that has shown nothing yet. -/
def start (sessions : SessionTable) : Visited := ⟨⟨sessions, none, none, false⟩, []⟩

/-- The remembered session is not the one that is shown, and `last_session` switches to the session
before that one, if the client still has it, and from there back. -/
structure Remembers (t : Visited) : Prop where
  apart : ∀ {active : SessionId}, t.client.activeSessionId = some active →
    t.client.previousSessionId ≠ some active
  toggles : ∀ {active before : SessionId} {rest : List SessionId},
    t.client.activeSessionId = some active → t.visits = active :: before :: rest →
    t.client.sessions.contains before = true → ∀ sessions : SessionTable,
    (t.client.lastSession (some sessions)).activeSessionId = some before ∧
      (sessions.contains active = true → ∀ sessions' : SessionTable,
        ((t.client.lastSession (some sessions)).lastSession (some sessions')).activeSessionId =
          some active)

end Visited

/-- A client without a session is not attached to the one it remembers, and the session a client leaves
as destroyed is gone. -/
def ConfiguredClient.Orderly (c : ConfiguredClient) : SessionInput → Prop
  | .switchSession target (some _) =>
    c.activeSessionId = none → c.previousSessionId ≠ some target
  | .switchSession _ none => True
  | .setActive sessionId _ => c.activeSessionId = none → c.previousSessionId ≠ some sessionId
  | .lastSession (some _) =>
    c.activeSessionId = none → c.previousSessionId.filter c.sessions.contains = none
  | .lastSession none => True
  | .clientChanged _ (some sessionId) _ _ _ =>
    c.activeSessionId = none → c.previousSessionId ≠ some sessionId
  | .clientChanged sessions none previous _ _ =>
    (∃ destroyed ∈ previous, sessions.contains destroyed = false) →
      ∀ active ∈ c.activeSessionId, sessions.contains active = false
  | .refetched _ => True

/-! ## One step -/

namespace ConfiguredClient

variable {c : ConfiguredClient} {sessionId active : SessionId}

theorem setActiveSession_self (h : c.activeSessionId = some sessionId) :
    c.setActiveSession sessionId = c := by
  rw [setActiveSession, if_neg (not_not_intro h)]

theorem setActiveSession_of_ne (h : c.activeSessionId ≠ some sessionId) :
    c.setActiveSession sessionId =
      { c with
        previousSessionId := c.activeSessionId.or c.previousSessionId
        activeSessionId := some sessionId } := by
  rw [setActiveSession, if_pos h]

/-- Wherever a client goes from a destroyed session, it has that session. -/
theorem mem_of_destroyTarget {detachOnDestroy : DetachOnDestroy} {destroyed target : SessionId}
    {previous : Option SessionId} {remaining : List SessionId}
    (hprevious : ∀ sessionId ∈ previous, sessionId ∈ remaining)
    (h : destroyTarget detachOnDestroy destroyed previous remaining = some target) :
    target ∈ remaining := by
  cases detachOnDestroy with
  | on => cases h
  | off =>
    obtain hprev | ⟨-, hhead⟩ := Option.or_eq_some_iff.mp h
    · exact hprevious target hprev
    · exact List.mem_of_head? hhead
  | previous =>
    obtain hfind | ⟨-, hlast⟩ := Option.or_eq_some_iff.mp h
    · exact List.mem_reverse.mp (List.mem_of_find?_eq_some hfind)
    · exact List.mem_of_getLast? hlast
  | next =>
    obtain hfind | ⟨-, hhead⟩ := Option.or_eq_some_iff.mp h
    · exact List.mem_of_find?_eq_some hfind
    · exact List.mem_of_head? hhead

@[simp] theorem setActiveSession_active (c : ConfiguredClient) (sessionId : SessionId) :
    (c.setActiveSession sessionId).activeSessionId = some sessionId := by
  by_cases h : c.activeSessionId = some sessionId
  · rw [setActiveSession_self h, h]
  · rw [setActiveSession_of_ne h]

@[simp] theorem setActiveSession_sessions (c : ConfiguredClient) (sessionId : SessionId) :
    (c.setActiveSession sessionId).sessions = c.sessions := by
  by_cases h : c.activeSessionId = some sessionId
  · rw [setActiveSession_self h]
  · rw [setActiveSession_of_ne h]

theorem setActiveSession_withSessions (c : ConfiguredClient) (sessions : SessionTable)
    (sessionId : SessionId) :
    (c.withSessions sessions).setActiveSession sessionId =
      (c.setActiveSession sessionId).withSessions sessions := by
  by_cases h : c.activeSessionId = some sessionId
  · have hself : (c.withSessions sessions).activeSessionId = some sessionId := h
    rw [setActiveSession_self h, setActiveSession_self hself]
  · have hne : (c.withSessions sessions).activeSessionId ≠ some sessionId := h
    rw [setActiveSession_of_ne h, setActiveSession_of_ne hne]
    rfl

/-- What leaving a destroyed session can come to. -/
theorem leaveDestroyedSession_cases (hactive : c.activeSessionId = some active)
    (detachOnDestroy : DetachOnDestroy) (switched : Bool) {left : ConfiguredClient}
    (hleft : c.leaveDestroyedSession detachOnDestroy switched = left) :
    left.sessions = c.sessions ∧ (left.activeSessionId = none ∨
      ∃ target, left.activeSessionId = some target ∧ c.sessions.contains target = true ∧
        left.previousSessionId ≠ some target) := by
  subst hleft
  have hprevious : ∀ sessionId ∈ c.previousSessionId.filter c.sessions.contains,
      sessionId ∈ c.sessions.keys := by
    intro sessionId hmem
    exact Std.ExtTreeMap.mem_keys.mpr (Option.mem_filter_iff.mp hmem).2
  simp only [leaveDestroyedSession, hactive]
  cases htarget : destroyTarget detachOnDestroy active
    (c.previousSessionId.filter c.sessions.contains) c.sessions.keys with
  | none => exact ⟨rfl, .inl rfl⟩
  | some target =>
    cases switched with
    | false => exact ⟨rfl, .inl rfl⟩
    | true =>
      have hmem := mem_of_destroyTarget hprevious htarget
      refine ⟨rfl, .inr ⟨target, rfl, Std.ExtTreeMap.mem_keys.mp hmem, fun hsome ↦ ?_⟩⟩
      have hne := (Option.mem_filter_iff.mp hsome).2
      exact absurd rfl (of_decide_eq_true hne)

theorem clearActiveSession_sessions (c : ConfiguredClient) :
    c.clearActiveSession.sessions = c.sessions := by
  unfold clearActiveSession
  split <;> rfl

theorem clientChanged_none_sessions (c : ConfiguredClient) (previous : Option SessionId)
    (detachOnDestroy : DetachOnDestroy) (switched : Bool) :
    (c.clientChanged none previous detachOnDestroy switched).sessions = c.sessions := by
  simp only [clientChanged]
  split
  · cases hactive : c.activeSessionId with
    | none => rw [leaveDestroyedSession, hactive]
    | some active => exact (leaveDestroyedSession_cases hactive detachOnDestroy switched rfl).1
  · exact c.clearActiveSession_sessions

end ConfiguredClient

namespace Visited

open ConfiguredClient

variable {c : ConfiguredClient} {visits : List SessionId} {sessionId : SessionId}
  {sessions : SessionTable}

/-- What a client remembers of the sessions it has shown. -/
structure Sound (c : ConfiguredClient) (visits : List SessionId) : Prop where
  head : ∀ {active : SessionId}, c.activeSessionId = some active → visits.head? = some active
  apart : ∀ {active : SessionId}, c.activeSessionId = some active →
    c.previousSessionId ≠ some active
  remembered : ∀ {before : SessionId}, (past ⟨c, visits⟩).head? = some before →
    c.sessions.contains before = true → c.previousSessionId = some before

theorem past_subset : past ⟨c, visits⟩ ⊆ visits := by
  unfold past
  split
  · exact List.tail_subset visits
  · exact List.Subset.refl visits

theorem past_of_active {active : SessionId} (h : c.activeSessionId = some active) :
    past ⟨c, visits⟩ = visits.tail := by
  rw [past, h]
  rfl

theorem past_of_none (h : c.activeSessionId = none) : past ⟨c, visits⟩ = visits := by
  rw [past, h]
  rfl

namespace Sound

theorem visit_self (h : Sound c visits) : visit visits c.activeSessionId = visits := by
  cases hactive : c.activeSessionId with
  | none => rfl
  | some active => rw [visit, if_pos (h.head hactive)]

/-- The copy changes, and no session that was shown before comes back into it. -/
theorem copied (h : Sound c visits)
    (hgone : ∀ shown ∈ past ⟨c, visits⟩, c.sessions.contains shown = false →
      sessions.contains shown = false) : Sound (c.withSessions sessions) visits where
  head := h.head
  apart := h.apart
  remembered := by
    intro before hbefore hcontains
    have hhead : (past ⟨c, visits⟩).head? = some before := hbefore
    refine h.remembered hhead (Bool.of_not_eq_false fun hfalse ↦ ?_)
    have hfetched := hgone before (List.mem_of_head? hhead) hfalse
    exact Bool.false_ne_true (hfetched.symm.trans hcontains)

/-- A session is shown. -/
theorem setActive (h : Sound c visits)
    (hother : c.activeSessionId = none → c.previousSessionId ≠ some sessionId)
    (hgone : sessionId ∈ visits → c.sessions.contains sessionId = false →
      c.activeSessionId = some sessionId) :
    Sound (c.setActiveSession sessionId) (visit visits (some sessionId)) := by
  by_cases hself : c.activeSessionId = some sessionId
  · rw [setActiveSession_self hself, visit, if_pos (h.head hself)]
    exact h
  -- Nothing was shown, or another session, and that one comes before the new one.
  have hhead : visits.head? ≠ some sessionId := by
    intro hhead
    cases hactive : c.activeSessionId with
    | some active =>
      rw [h.head hactive] at hhead
      exact hself (hactive.trans hhead)
    | none =>
      have hcontains : c.sessions.contains sessionId = true :=
        Bool.of_not_eq_false fun hfalse ↦ hself (hgone (List.mem_of_head? hhead) hfalse)
      exact hother hactive (h.remembered (by rw [past_of_none hactive, hhead]) hcontains)
  rw [visit, if_neg hhead]
  have hactive := setActiveSession_active c sessionId
  have hprevious : (c.setActiveSession sessionId).previousSessionId =
      c.activeSessionId.or c.previousSessionId := by rw [setActiveSession_of_ne hself]
  refine ⟨fun {active} hshown ↦ ?_, fun {active} hshown ↦ ?_, fun {before} hbefore hcontains ↦ ?_⟩
  · rw [← hshown, hactive]
    rfl
  · obtain rfl : sessionId = active := Option.some.inj (hactive.symm.trans hshown)
    rw [hprevious]
    cases hleft : c.activeSessionId with
    | some left => rwa [hleft] at hself
    | none => exact hother hleft
  · rw [past_of_active hactive, List.tail_cons] at hbefore
    rw [hprevious]
    cases hleft : c.activeSessionId with
    | some left => exact (h.head hleft).symm.trans hbefore
    | none =>
      rw [setActiveSession_sessions] at hcontains
      exact h.remembered (by rw [past_of_none hleft, hbefore]) hcontains

/-- The server takes the client from its session. -/
theorem clear (h : Sound c visits) :
    Sound c.clearActiveSession (visit visits c.clearActiveSession.activeSessionId) := by
  cases hactive : c.activeSessionId with
  | none =>
    have hclear : c.clearActiveSession = c := by rw [clearActiveSession, hactive]
    rw [hclear, hactive]
    exact h
  | some active =>
    have hclear : c.clearActiveSession =
        { c with activeSessionId := none, previousSessionId := some active } := by
      rw [clearActiveSession, hactive]
    rw [hclear]
    refine ⟨fun {_} hshown ↦ ?_, fun {_} hshown ↦ ?_, fun {_} hbefore _ ↦ ?_⟩
    · cases hshown
    · cases hshown
    · rw [past_of_none rfl] at hbefore
      exact (h.head hactive).symm.trans hbefore

/-- The session is left that was destroyed. -/
theorem leave (h : Sound c visits)
    (hdestroyed : ∀ active ∈ c.activeSessionId, c.sessions.contains active = false)
    (detachOnDestroy : DetachOnDestroy) (switched : Bool) :
    Sound (c.leaveDestroyedSession detachOnDestroy switched)
      (visit visits (c.leaveDestroyedSession detachOnDestroy switched).activeSessionId) := by
  cases hactive : c.activeSessionId with
  | none =>
    have hleave : c.leaveDestroyedSession detachOnDestroy switched = c := by
      rw [leaveDestroyedSession, hactive]
    rw [hleave, hactive]
    exact h
  | some active =>
    have hgone := hdestroyed active hactive
    have hhead := h.head hactive
    generalize hleft : c.leaveDestroyedSession detachOnDestroy switched = left
    obtain ⟨hsessions, hnone | ⟨target, htarget, hcontains, hapart⟩⟩ :=
      leaveDestroyedSession_cases hactive detachOnDestroy switched hleft
    · rw [hnone]
      refine ⟨fun {_} hshown ↦ ?_, fun {_} hshown ↦ ?_, fun {before} hbefore hthere ↦ ?_⟩
      · cases hnone.symm.trans hshown
      · cases hnone.symm.trans hshown
      · change (past ⟨left, visits⟩).head? = some before at hbefore
        rw [past_of_none hnone, hhead] at hbefore
        obtain rfl : active = before := Option.some.inj hbefore
        rw [hsessions, hgone] at hthere
        cases hthere
    · have hne : visits.head? ≠ some target := by
        intro hsome
        obtain rfl : active = target := Option.some.inj (hhead.symm.trans hsome)
        rw [hgone] at hcontains
        cases hcontains
      rw [htarget, visit, if_neg hne]
      refine ⟨fun {_} hshown ↦ ?_, fun {_} hshown ↦ ?_, fun {before} hbefore hthere ↦ ?_⟩
      · rw [← hshown, htarget]
        rfl
      · obtain rfl := Option.some.inj (htarget.symm.trans hshown)
        exact hapart
      · rw [past_of_active htarget, List.tail_cons, hhead] at hbefore
        obtain rfl : active = before := Option.some.inj hbefore
        rw [hsessions, hgone] at hthere
        cases hthere

end Sound

/-! ## Runs -/

section Steps

variable {t t' : Visited} {input : SessionInput}

/-- A session is shown, and the copy changes with it. -/
theorem Sound.show (h : Sound c visits)
    (hother : c.activeSessionId = none → c.previousSessionId ≠ some sessionId)
    (hgone : ∀ shown ∈ visits, c.sessions.contains shown = false →
      sessions.contains shown = false ∧ (sessionId = shown → c.activeSessionId = some shown)) :
    Sound ((c.setActiveSession sessionId).withSessions sessions)
      (visit visits (some sessionId)) := by
  have hshown := h.setActive hother fun hmem hfalse ↦ (hgone sessionId hmem hfalse).2 rfl
  refine hshown.copied fun before hbefore hfalse ↦ ?_
  rw [past_of_active (setActiveSession_active c sessionId)] at hbefore
  rw [setActiveSession_sessions] at hfalse
  refine (hgone before ?_ hfalse).1
  rw [visit] at hbefore
  split at hbefore
  · exact List.mem_of_mem_tail hbefore
  · exact hbefore

/-- One step. -/
theorem Sound.take (h : Sound t.client t.visits) (horderly : t.client.Orderly input)
    (hgone : t.Gone input) : Sound (t.take input).client (t.take input).visits := by
  obtain ⟨c, visits⟩ := t
  have hstays : ∀ {sessionId : SessionId} {sessions : SessionTable},
      c.handle input = (c.setActiveSession sessionId).withSessions sessions →
      ∀ shown ∈ visits, c.sessions.contains shown = false →
        sessions.contains shown = false ∧
          (sessionId = shown → c.activeSessionId = some shown) := by
    intro sessionId sessions hhandle shown hmem hfalse
    have hcopied := hgone.copied shown hmem hfalse
    have hactive := hgone.active shown hmem hfalse
    change (c.handle input).sessions.contains shown = false at hcopied
    change (c.handle input).activeSessionId = some shown → _ at hactive
    rw [hhandle] at hcopied hactive
    refine ⟨hcopied, ?_⟩
    rintro rfl
    exact hactive (setActiveSession_active c sessionId)
  change Sound (c.handle input) (visit visits (c.handle input).activeSessionId)
  cases input with
  | switchSession target answer =>
    cases answer with
    | none =>
      change Sound c (visit visits c.activeSessionId)
      rw [h.visit_self]
      exact h
    | some sessions =>
      have hactive : (c.handle (.switchSession target (some sessions))).activeSessionId =
          some target := setActiveSession_active c target
      rw [hactive]
      exact h.show horderly (hstays rfl)
  | setActive sessionId sessions =>
    have hactive : (c.handle (.setActive sessionId sessions)).activeSessionId = some sessionId :=
      setActiveSession_active c sessionId
    rw [hactive]
    exact h.show horderly (hstays rfl)
  | lastSession answer =>
    cases hprevious : c.previousSessionId.filter c.sessions.contains with
    | none =>
      have hhandle : c.handle (.lastSession answer) = { c with previousSessionId := none } := by
        rw [handle, ConfiguredClient.lastSession, hprevious]
      rw [hhandle]
      change Sound _ (visit visits c.activeSessionId)
      rw [h.visit_self]
      refine ⟨h.head, fun {_} _ hsome ↦ ?_, fun {before} hbefore hcontains ↦ ?_⟩
      · cases hsome
      · rw [h.remembered hbefore hcontains, Option.filter_some, if_pos hcontains] at hprevious
        cases hprevious
    | some target =>
      have hhandle : c.handle (.lastSession answer) = c.performSessionSwitch target answer := by
        rw [handle, ConfiguredClient.lastSession, hprevious]
      cases answer with
      | none =>
        rw [hhandle]
        change Sound c (visit visits c.activeSessionId)
        rw [h.visit_self]
        exact h
      | some sessions =>
        have hactive : (c.handle (.lastSession (some sessions))).activeSessionId = some target := by
          rw [hhandle]
          exact setActiveSession_active c target
        rw [hactive]
        have hstay := hstays hhandle
        rw [hhandle]
        refine h.show (fun hnone ↦ ?_) hstay
        have hfilter := horderly hnone
        rw [hprevious] at hfilter
        cases hfilter
  | clientChanged sessions current previous detachOnDestroy switched =>
    cases current with
    | some sessionId =>
      have hhandle : c.handle (.clientChanged sessions (some sessionId) previous detachOnDestroy
          switched) = (c.setActiveSession sessionId).withSessions sessions :=
        setActiveSession_withSessions c sessions sessionId
      have hstay := hstays hhandle
      rw [hhandle]
      change Sound _ (visit visits (c.setActiveSession sessionId).activeSessionId)
      rw [setActiveSession_active]
      exact h.show horderly hstay
    | none =>
      have hsessions : Sound (c.withSessions sessions) visits := by
        refine h.copied fun shown hmem hfalse ↦ ?_
        have hcopied := hgone.copied shown (past_subset hmem) hfalse
        exact (congrArg (fun table : SessionTable ↦ table.contains shown)
          (clientChanged_none_sessions (c.withSessions sessions) previous detachOnDestroy
            switched)).symm.trans hcopied
      have hany : (previous.any fun sessionId ↦ !sessions.contains sessionId) = true ↔
          ∃ destroyed ∈ previous, sessions.contains destroyed = false := by
        cases previous <;> simp
      by_cases hdestroyed : ∃ destroyed ∈ previous, sessions.contains destroyed = false
      · have hhandle : c.handle (.clientChanged sessions none previous detachOnDestroy switched) =
            (c.withSessions sessions).leaveDestroyedSession detachOnDestroy switched :=
          if_pos (hany.mpr hdestroyed)
        rw [hhandle]
        exact hsessions.leave (horderly hdestroyed) detachOnDestroy switched
      · have hhandle : c.handle (.clientChanged sessions none previous detachOnDestroy switched) =
            (c.withSessions sessions).clearActiveSession := if_neg (mt hany.mp hdestroyed)
        rw [hhandle]
        exact hsessions.clear
  | refetched sessions =>
    change Sound _ (visit visits c.activeSessionId)
    rw [h.visit_self]
    exact h.copied fun shown hmem hfalse ↦ hgone.copied shown (past_subset hmem) hfalse

theorem sound_start (sessions : SessionTable) : Sound (start sessions).client [] := by
  refine ⟨fun {_} hshown ↦ ?_, fun {_} hshown ↦ ?_, fun {_} hbefore _ ↦ ?_⟩
  · cases hshown
  · cases hshown
  · cases hbefore

/-- `last_session` from a session to another, and back. -/
theorem lastSession_toggles {active before : SessionId} (hactive : c.activeSessionId = some active)
    (hprevious : c.previousSessionId = some before) (hne : before ≠ active)
    (hcontains : c.sessions.contains before = true) (sessions : SessionTable) :
    (c.lastSession (some sessions)).activeSessionId = some before ∧
      (sessions.contains active = true → ∀ sessions' : SessionTable,
        ((c.lastSession (some sessions)).lastSession (some sessions')).activeSessionId =
          some active) := by
  have honce : c.lastSession (some sessions) =
      (c.setActiveSession before).withSessions sessions := by
    rw [ConfiguredClient.lastSession, hprevious, Option.filter_some, if_pos hcontains]
    rfl
  refine ⟨?_, fun hthere sessions' ↦ ?_⟩
  · rw [honce]
    exact setActiveSession_active c before
  · have hother : c.activeSessionId ≠ some before := by
      rw [hactive]
      exact fun hsome ↦ hne (Option.some.inj hsome).symm
    have hback : ((c.setActiveSession before).withSessions sessions).previousSessionId =
        some active := by
      rw [setActiveSession_of_ne hother, hactive]
      rfl
    have hfilter : (some active).filter
        ((c.setActiveSession before).withSessions sessions).sessions.contains = some active := by
      rw [Option.filter_some, if_pos]
      exact hthere
    rw [honce, ConfiguredClient.lastSession, hback, hfilter]
    exact setActiveSession_active _ active

theorem Sound.remembers (h : Sound t.client t.visits) : t.Remembers := by
  refine ⟨h.apart, fun {active before rest} hactive hvisits hcontains sessions ↦ ?_⟩
  have hpast : (past ⟨t.client, t.visits⟩).head? = some before := by
    rw [past_of_active hactive, hvisits]
    rfl
  have hprevious := h.remembered hpast hcontains
  have hne : before ≠ active := by
    rintro rfl
    exact h.apart hactive hprevious
  exact lastSession_toggles hactive hprevious hne hcontains sessions

/-- **The session shown before.** In every run in which no client without a session is attached to the
one it remembers, and none leaves as destroyed a session that is not, the remembered session is
never the one that is shown, and `last_session` toggles to the session shown before. -/
theorem run_remembers (sessions : SessionTable)
    (hrun : Relation.ReflTransGen (Step Orderly) (start sessions) t) : t.Remembers := by
  have hsound : Sound t.client t.visits := by
    induction hrun with
    | refl => exact sound_start sessions
    | tail _ hstep ih =>
      obtain ⟨input, horderly, hgone, rfl⟩ := hstep
      exact ih.take horderly hgone
  exact hsound.remembers

/-! ### Attached again -/

/-- As long as the client has every session it has shown, none of them is gone. -/
theorem Gone.of_contained (h : ∀ shown ∈ t.visits, t.client.sessions.contains shown = true)
    (input : SessionInput) : t.Gone input where
  copied := fun shown hmem hfalse ↦ absurd hfalse (by rw [h shown hmem]; decide)
  active := fun shown hmem hfalse ↦ absurd hfalse (by rw [h shown hmem]; decide)

def namedSession (id : SessionId) (name : String) : SessionRecord where
  id := id
  name := name
  rootNodeId := 1
  floatingIds := []
  focusedLeafId := none
  focusedFloatingId := none
  zoomedNodeId := none
  viewport := none
  baseIndex := none
  paneTitles := false

def twoSessions : SessionTable :=
  ((∅ : SessionTable).insert 1 (namedSession 1 "alpha")).insert 2 (namedSession 2 "beta")

/-- A client that has come to the second session from the first. -/
def onBeta : Visited :=
  ((start twoSessions).take (.switchSession 1 (some twoSessions))).take
    (.switchSession 2 (some twoSessions))

theorem onBeta_run (condition : ConfiguredClient → SessionInput → Prop)
    (hfirst : condition (start twoSessions).client (.switchSession 1 (some twoSessions)))
    (hsecond : condition ((start twoSessions).take (.switchSession 1 (some twoSessions))).client
      (.switchSession 2 (some twoSessions))) :
    Relation.ReflTransGen (Step condition) (start twoSessions) onBeta := by
  refine .tail (.tail .refl ⟨_, hfirst, .of_contained ?_ _, rfl⟩)
    ⟨_, hsecond, .of_contained ?_ _, rfl⟩
  · intro shown hmem
    cases hmem
  · decide

theorem run_remembers_onBeta : onBeta.Remembers :=
  run_remembers twoSessions (onBeta_run _ (fun _ ↦ by decide) fun _ ↦ by decide)

/-- The server detaches the client from its session and attaches it again. -/
def reattached : Visited :=
  (onBeta.take (.clientChanged twoSessions none (some 2) .on true)).take
    (.clientChanged twoSessions (some 2) none .on true)

/-- Attached again to the session it was detached from, the client remembers that session, and
`last_session` stays there. -/
theorem reattached_forgets :
    (Relation.ReflTransGen (Step fun _ _ ↦ True) (start twoSessions) reattached ∧
      reattached.visits = [2, 1] ∧ reattached.client.activeSessionId = some 2 ∧
      reattached.client.previousSessionId = some 2 ∧
      (reattached.client.lastSession (some twoSessions)).activeSessionId = some 2) ∧
      ¬∀ (sessions : SessionTable) (t : Visited),
        Relation.ReflTransGen (Step fun _ _ ↦ True) (start sessions) t → t.Remembers := by
  have hrun : Relation.ReflTransGen (Step fun _ _ ↦ True) (start twoSessions) reattached := by
    refine .tail (.tail (onBeta_run _ trivial trivial) ⟨_, trivial, .of_contained ?_ _, rfl⟩)
      ⟨_, trivial, .of_contained ?_ _, rfl⟩
    · decide
    · decide
  refine ⟨⟨hrun, by decide, by decide, by decide, by decide⟩, fun h ↦ ?_⟩
  have hsame : some (2 : SessionId) ≠ some 2 := (h _ _ hrun).apart rfl
  exact hsame rfl

end Steps

end Visited

end Embers.Client
