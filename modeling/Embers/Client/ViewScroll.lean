import Embers.Client.RowLines

/-!
# The scroll position of a view

A view is scrolled by its own user and moved by what the server says of its buffer, and five fields
have to agree afterwards: the position, the number of lines, the rows that are drawn, whether the
view follows the output and the lines kept for it. `Sound` says how.

Which scroll position the lines of a view are from is read off their own numbers in the history: they
are from the view's position when they are the lines from there on (`Numbered`).

Not every step keeps `Sound`. `ViewOp.Steady` says which do, in terms of the state before the step,
and it says so exactly (`sound_apply_iff`).
-/

namespace Embers.Client

open Embers.Protocol

/-! ## Operations -/

/-- What is done to the views of a client. -/
inductive ViewOp where
  | ofNews (news : News)
  | drawnRows (nodeId : NodeId) (rows : UInt16)
  | scrollTop (nodeId : NodeId) (scrollTopLine : ℕ)
  | visibleLines (nodeId : NodeId) (scrollTopLine : ℕ) (lines : List SnapshotLine)
  | slice (nodeId : NodeId) (scrollTopLine : ℕ) (response : ScrollbackSlice)
  | followOutput (nodeId : NodeId) (follow : Bool)
  | overlay (nodeId : NodeId) (overlay : Overlay) (freeze : Bool)

namespace ViewOp

def apply (c : ClientState) : ViewOp → ClientState
  | ofNews news => c.applyNews news
  | drawnRows nodeId rows => c.setViewDrawnRows nodeId rows
  | scrollTop nodeId scrollTopLine => c.setViewScrollTop nodeId scrollTopLine
  | visibleLines nodeId scrollTopLine lines => c.setViewVisibleLines nodeId scrollTopLine lines
  | slice nodeId scrollTopLine response => c.fetchViewSlice nodeId scrollTopLine response
  | followOutput nodeId follow => c.setViewFollowOutput nodeId follow
  | overlay nodeId laid freeze => c.setOverlay nodeId laid freeze

end ViewOp

/-! ## Agreement -/

/-- The first line of the last screen of a view. -/
def BufferViewState.bottom (view : BufferViewState) : ℕ :=
  bottomTopLine view.totalLineCount view.visibleLineCount

/-- The position of a view is in range, and at the end when the output is followed. -/
structure InRange (view : BufferViewState) : Prop where
  le_bottom : view.scrollTopLine ≤ view.bottom
  follows : view.followOutput = true → view.alternateScreen = false →
    view.scrollTopLine = view.bottom

/-- A view in range, whose lines are the ones of the history from its position on. -/
structure SoundView (view : BufferViewState) : Prop extends InRange view where
  lines : Numbered view.scrollTopLine view.visibleLines

def Sound (c : ClientState) : Prop :=
  ∀ (id : NodeId) (view : BufferViewState), c.viewState[id]? = some view → SoundView view

/-! ## Steady steps -/

/-- A new view begins where the snapshot of its buffer does. -/
def FreshSteady (record : BufferViewRecord) (snapshot : Option VisibleSnapshotResponse)
    (rows : UInt16) : Prop :=
  ∀ live, snapshot = some live →
    live.viewportTopLine ≤ bottomTopLine (syncTotal snapshot rows) rows ∧
      (record.followOutput = true → live.alternateScreen = false →
        live.viewportTopLine = bottomTopLine (syncTotal snapshot rows) rows) ∧
      Numbered live.viewportTopLine live.lines

/-- The position a sync gives a view outside of the alternate screen. -/
def syncTop (view : BufferViewState) (snapshot : Option VisibleSnapshotResponse) (rows : UInt16) : ℕ :=
  if view.followOutput then bottomTopLine (syncTotal snapshot rows) rows
  else clampTopLine view.scrollTopLine (syncTotal snapshot rows) rows

/-- A view that is given the live lines is where they are from. On the alternate screen it always is
given them, and keeps its position; else when it follows the output, when it is at the live lines, and
when it has none. -/
def UpdateSteady (view : BufferViewState) (snapshot : Option VisibleSnapshotResponse)
    (rows : UInt16) : Prop :=
  ∀ live, snapshot = some live →
    if live.alternateScreen then
      view.scrollTopLine ≤ bottomTopLine (syncTotal snapshot rows) rows ∧
        Numbered view.scrollTopLine live.lines
    else
      view.followOutput = true ∨ syncTop view snapshot rows = live.viewportTopLine ∨
          view.visibleLines = [] →
        Numbered (syncTop view snapshot rows) live.lines

/-- The view of a pane that shows `record` is brought up to date, or made. -/
def PaneSteady (c : ClientState) (id : NodeId) (record : BufferViewRecord) : Prop :=
  let snapshot := c.snapshots[record.bufferId]?
  let rows := c.drawnRows[id]?.getD record.lastRenderSize.rows
  match c.viewState[id]? with
  | some view =>
    if view.bufferId = record.bufferId then UpdateSteady view snapshot rows
    else FreshSteady record snapshot rows
  | none => FreshSteady record snapshot rows

def SyncSteady (c : ClientState) (id : NodeId) : Prop :=
  ∀ node record, c.nodes[id]? = some node → node.kind = .bufferView →
    node.bufferView = some record → PaneSteady c id record

/-- A change of the drawn rows leaves the view where it is. -/
def DrawnSteady (view : BufferViewState) (rows : UInt16) : Prop :=
  if view.followOutput then
    view.scrollTopLine = bottomTopLine (max view.totalLineCount rows.toNat) rows
  else view.scrollTopLine ≤ bottomTopLine (max view.totalLineCount rows.toNat) rows

/-- A step moves no view away from lines that it keeps, gives none lines from elsewhere, and puts none
out of range: the branches that would are not taken. -/
def ViewOp.Steady (c : ClientState) : ViewOp → Prop
  | .ofNews (.sessionSnapshot snapshot) =>
    ∀ id ∈ snapshot.nodes.map (·.id), SyncSteady (c.replaceSession snapshot) id
  | .ofNews (.visibleSnapshot snapshot) =>
    ∀ id ∈ c.viewsOf snapshot.bufferId, SyncSteady (c.recordSnapshot snapshot) id
  | .ofNews _ => True
  | .drawnRows nodeId rows =>
    c.drawnRows[nodeId]? ≠ some rows → ∀ view, c.viewState[nodeId]? = some view →
      view.visibleLines = [] ∨ DrawnSteady view rows
  | .scrollTop nodeId scrollTopLine => ∀ view, c.viewState[nodeId]? = some view →
    view.visibleLines = [] ∨ view.scrollTopLine = scrollTopLine ∨
      view.scrollTopLine = view.bottom ∧ view.bottom ≤ scrollTopLine
  | .visibleLines nodeId scrollTopLine lines => ∀ view, c.viewState[nodeId]? = some view →
    Numbered (clampTopLine scrollTopLine view.totalLineCount view.visibleLineCount) lines
  | .slice nodeId scrollTopLine response => ∀ view, c.viewState[nodeId]? = some view →
    view.visibleLineCount ≠ 0 →
      Numbered (clampTopLine scrollTopLine
        (max response.totalLines view.visibleLineCount.toNat) view.visibleLineCount) response.lines
  | .followOutput nodeId follow =>
    follow = true → ∀ view, c.viewState[nodeId]? = some view →
      if c.snapshotLines view.bufferId = [] then
        view.visibleLines = [] ∨ view.scrollTopLine = view.bottom
      else Numbered view.bottom (c.snapshotLines view.bufferId)
  | .overlay _ _ _ => True

/-- Lines that are sent as those from `top` on are from `position` when that is where they begin. -/
theorem numbered_iff_of_numbered {top position : ℕ} {lines : List SnapshotLine}
    (h : Numbered top lines) : Numbered position lines ↔ lines = [] ∨ position = top := by
  constructor
  · intro hposition
    rcases lines with _ | ⟨line, lines⟩
    · exact .inl rfl
    · exact .inr ((hposition 0 line rfl).symm.trans (h 0 line rfl))
  · rintro (rfl | rfl)
    · exact Numbered.nil position
    · exact h

/-! ## One view -/

variable {c : ClientState} {view view' : BufferViewState}

/-- Where the lines stay as they are, so does the position, unless there are none. -/
theorem soundView_iff_of_kept (h : SoundView view) (hlines : view'.visibleLines = view.visibleLines)
    (hrange : InRange view') :
    SoundView view' ↔ view.visibleLines = [] ∨ view.scrollTopLine = view'.scrollTopLine := by
  have hiff : SoundView view' ↔ Numbered view'.scrollTopLine view.visibleLines := by
    rw [← hlines]
    exact ⟨fun hsound ↦ hsound.lines, fun hnumbered ↦ ⟨hrange, hnumbered⟩⟩
  rw [hiff, numbered_iff_of_numbered h.lines, eq_comm (a := view'.scrollTopLine)]

theorem soundView_iff_of_inRange (hrange : InRange view) :
    SoundView view ↔ Numbered view.scrollTopLine view.visibleLines :=
  ⟨fun hsound ↦ hsound.lines, fun hnumbered ↦ ⟨hrange, hnumbered⟩⟩

theorem inRange_at_bottom (h : view.scrollTopLine = view.bottom) : InRange view :=
  ⟨h.le, fun _ _ ↦ h⟩

theorem clampTopLine_le (scrollTopLine total : ℕ) (rows : UInt16) :
    clampTopLine scrollTopLine total rows ≤ bottomTopLine total rows := min_le_right _ _

/-- Outside of the alternate screen an update puts the view in range, whatever it was before. -/
theorem soundView_updatedView_iff (view : BufferViewState)
    (snapshot : Option VisibleSnapshotResponse) (rows : UInt16) (resetHints : Bool) :
    SoundView (ClientState.updatedView view snapshot rows (syncTotal snapshot rows) resetHints) ↔
      UpdateSteady view snapshot rows := by
  cases halternate : snapshot.any (·.alternateScreen) with
  | true =>
    obtain ⟨live, rfl, hlive⟩ := (Option.any_eq_true _ _).mp halternate
    have hview : ClientState.updatedView view (some live) rows (syncTotal (some live) rows)
        resetHints =
      { view with
        hintsState := if resetHints then none else view.hintsState
        visibleLineCount := rows
        totalLineCount := syncTotal (some live) rows
        alternateScreen := true
        visibleLines := live.lines } := by
      simp only [ClientState.updatedView, halternate, if_true, Option.map_some, Option.getD_some]
    rw [hview]
    constructor
    · intro h live' hlive'
      cases hlive'
      rw [if_pos hlive]
      exact ⟨h.le_bottom, h.lines⟩
    · intro h
      have hsteady := h live rfl
      rw [if_pos hlive] at hsteady
      exact ⟨⟨hsteady.1, nofun⟩, hsteady.2⟩
  | false =>
    set view' := ClientState.updatedView view snapshot rows (syncTotal snapshot rows) resetHints
      with hview'
    have htop : view'.scrollTopLine = syncTop view snapshot rows := by
      rw [hview', ClientState.updatedView]
      simp only [halternate, Bool.false_eq_true, if_false]
      rfl
    have hrange : InRange view' := by
      rw [hview', ClientState.updatedView]
      simp only [halternate, Bool.false_eq_true, if_false]
      split
      · exact inRange_at_bottom rfl
      · next hfollow => exact ⟨clampTopLine_le _ _ _, fun hfollows _ ↦ absurd hfollows hfollow⟩
    rw [soundView_iff_of_inRange hrange, htop]
    have hlines : view'.visibleLines =
        if view.followOutput = true ∨ syncTop view snapshot rows =
            (snapshot.map (·.viewportTopLine)).getD (syncTop view snapshot rows) ∨
            view.visibleLines = [] then
          (snapshot.map (·.lines)).getD []
        else [] := by
      rw [hview', ClientState.updatedView]
      simp only [halternate, Bool.false_eq_true, if_false]
      rfl
    rw [hlines]
    cases snapshot with
    | none =>
      refine iff_of_true ?_ fun live hlive ↦ by cases hlive
      have hnone : ∀ p : Prop, ∀ _ : Decidable p,
          (if p then ((none : Option VisibleSnapshotResponse).map (·.lines)).getD [] else []) = [] := by
        intro p _
        split <;> rfl
      rw [hnone]
      exact Numbered.nil _
    | some live =>
      have hscreen : live.alternateScreen = false := halternate
      have hsteady : UpdateSteady view (some live) rows ↔
          (view.followOutput = true ∨ syncTop view (some live) rows = live.viewportTopLine ∨
              view.visibleLines = [] →
            Numbered (syncTop view (some live) rows) live.lines) := by
        constructor
        · intro h
          have h' := h live rfl
          rwa [hscreen, if_neg Bool.false_ne_true] at h'
        · intro h live' hlive'
          cases hlive'
          rwa [hscreen, if_neg Bool.false_ne_true]
      rw [hsteady, Option.map_some, Option.getD_some, Option.map_some, Option.getD_some]
      split
      · next hgiven => exact ⟨fun h _ ↦ h, fun h ↦ h hgiven⟩
      · next hnot => exact iff_of_true (Numbered.nil _) fun hgiven ↦ absurd hgiven hnot

theorem soundView_freshView_iff (record : BufferViewRecord)
    (snapshot : Option VisibleSnapshotResponse) (rows : UInt16) :
    SoundView (ClientState.freshView record snapshot rows (syncTotal snapshot rows)) ↔
      FreshSteady record snapshot rows := by
  cases snapshot with
  | none =>
    refine iff_of_true ⟨inRange_at_bottom rfl, Numbered.nil _⟩ ?_
    intro live hlive
    cases hlive
  | some live =>
    constructor
    · intro h live' hlive'
      cases hlive'
      exact ⟨h.le_bottom, h.follows, h.lines⟩
    · intro h
      obtain ⟨hle, hfollows, hlines⟩ := h live rfl
      exact ⟨⟨hle, hfollows⟩, hlines⟩

/-- A sync leaves a sound view exactly when it is steady there. -/
theorem soundView_syncedView_iff (c : ClientState) (resetHints : Bool) (id : NodeId) :
    (∀ view, c.syncedView resetHints id = some view → SoundView view) ↔ SyncSteady c id := by
  rw [ClientState.syncedView]
  cases hnode : c.nodes[id]? with
  | none =>
    refine iff_of_true (fun view hview ↦ by cases hview) fun node record hget ↦ ?_
    cases hnode.symm.trans hget
  | some node =>
    by_cases hkind : node.kind = .bufferView
    · cases hrecord : node.bufferView with
      | none =>
        refine iff_of_true (fun view hview ↦ ?_) fun node' record hget _ hget' ↦ ?_
        · simp [hkind, hrecord] at hview
        · cases hnode.symm.trans hget
          cases hrecord.symm.trans hget'
      | some record =>
        have hsteady : SyncSteady c id ↔ PaneSteady c id record := by
          constructor
          · intro h
            exact h node record hnode hkind hrecord
          · intro h node' record' hget _ hget'
            cases hnode.symm.trans hget
            cases hrecord.symm.trans hget'
            exact h
        rw [hsteady, PaneSteady]
        simp only [Option.bind_eq_bind, Option.bind_some, hkind, ne_eq, not_true_eq_false, if_false,
          hrecord]
        cases c.viewState[id]? with
        | none =>
          simp only [Option.some.injEq, forall_eq']
          exact soundView_freshView_iff _ _ _
        | some view =>
          by_cases hbuffer : view.bufferId = record.bufferId
          · simp only [if_pos hbuffer, Option.some.injEq, forall_eq']
            exact soundView_updatedView_iff _ _ _ _
          · simp only [if_neg hbuffer, Option.some.injEq, forall_eq']
            exact soundView_freshView_iff _ _ _
    · refine iff_of_true (fun view hview ↦ ?_) fun node' record hget hkind' ↦ ?_
      · simp [hkind] at hview
      · cases hnode.symm.trans hget
        exact absurd hkind' hkind

/-! ## All views -/

/-- Views may go, and nothing else is done to them. -/
theorem Sound.of_subset (h : Sound c) {c' : ClientState}
    (hviews : ∀ (id : NodeId) view, c'.viewState[id]? = some view → c.viewState[id]? = some view) :
    Sound c' :=
  fun id view hview ↦ h id view (hviews id view hview)

/-- One view is changed. -/
theorem Sound.insert_iff (h : Sound c) {c' : ClientState} {nodeId : NodeId}
    (hviews : c'.viewState = c.viewState.insert nodeId view') : Sound c' ↔ SoundView view' := by
  have hget : ∀ id : NodeId, c'.viewState[id]? =
      if nodeId = id then some view' else c.viewState[id]? := by
    intro id
    rw [hviews, Table.get?_insert]
  constructor
  · intro hsound
    exact hsound nodeId view' ((hget nodeId).trans (if_pos rfl))
  · intro hview id view hid
    have hid' := (hget id).symm.trans hid
    split at hid'
    · cases hid'
      exact hview
    · exact h id view hid'

/-- Several views are synced, after some may have gone. -/
theorem Sound.sync_iff (h : Sound c) {c₁ c' : ClientState} (resetHints : Bool) {ids : List NodeId}
    (hkept : ∀ (id : NodeId) view, c₁.viewState[id]? = some view → c.viewState[id]? = some view)
    (hviews : ∀ id : NodeId, c'.viewState[id]? =
      if id ∈ ids then (c₁.syncedView resetHints id).or c₁.viewState[id]? else c₁.viewState[id]?) :
    Sound c' ↔ ∀ id ∈ ids, SyncSteady c₁ id := by
  constructor
  · intro hsound id hid
    rw [← soundView_syncedView_iff c₁ resetHints id]
    intro view hview
    refine hsound id view ?_
    rw [hviews, if_pos hid, hview, Option.some_or]
  · intro hsteady id view hget
    rw [hviews] at hget
    split at hget
    · next hid =>
      cases hview : c₁.syncedView resetHints id with
      | some synced =>
        rw [hview, Option.some_or] at hget
        cases hget
        exact (soundView_syncedView_iff c₁ resetHints id).mpr (hsteady id hid) _ hview
      | none =>
        rw [hview, Option.none_or] at hget
        exact h id view (hkept id view hget)
    · exact h id view (hkept id view hget)

/-! ## One step -/

namespace Sound

theorem ofEvent (h : Sound c) (event : ServerEvent) :
    Sound (ViewOp.apply c (.ofNews (.event event))) := by
  refine h.of_subset fun id view hview ↦ ?_
  cases event with
  | sessionClosed sessionId =>
    have hfilter := (Table.get?_filter c.viewState _ id).symm.trans hview
    exact (Option.filter_eq_some_iff.mp hfilter).1
  | sessionRenamed sessionId name =>
    simp only [ViewOp.apply, ClientState.applyNews, ClientState.applyEvent] at hview
    split at hview <;> exact hview
  | focusChanged sessionId leaf floating =>
    simp only [ViewOp.apply, ClientState.applyNews, ClientState.applyEvent] at hview
    split at hview <;> exact hview
  | _ => exact hview

theorem removeBuffer_subset (c : ClientState) (bufferId : BufferId) (id : NodeId)
    {view : BufferViewState} (h : (c.removeBuffer bufferId).viewState[id]? = some view) :
    c.viewState[id]? = some view := by
  have hfilter := (Table.get?_filter c.viewState _ id).symm.trans h
  exact (Option.filter_eq_some_iff.mp hfilter).1

theorem foldl_removeBuffer_subset (ids : List BufferId) (c : ClientState) (id : NodeId)
    {view : BufferViewState}
    (h : (ids.foldl ClientState.removeBuffer c).viewState[id]? = some view) :
    c.viewState[id]? = some view := by
  induction ids generalizing c with
  | nil => exact h
  | cons bufferId ids ih => exact removeBuffer_subset c bufferId id (ih _ h)

theorem ofNews_iff (h : Sound c) (news : News) :
    Sound (ViewOp.apply c (.ofNews news)) ↔ (ViewOp.ofNews news).Steady c := by
  cases news with
  | event event => exact iff_of_true (h.ofEvent event) trivial
  | sessionSnapshot snapshot =>
    obtain ⟨-, -, -, hviews⟩ := ClientState.syncViewStatesForNodes_spec false
      (c.replaceSession snapshot) (snapshot.nodes.map (·.id))
    refine h.sync_iff false (fun id view hview ↦ ?_) hviews
    have hfilter := (Table.get?_filter c.viewState _ id).symm.trans hview
    exact (Option.filter_eq_some_iff.mp hfilter).1
  | sessionGone sessionId =>
    refine iff_of_true (h.of_subset fun id view hview ↦ ?_) trivial
    have hfilter := (Table.get?_filter c.viewState _ id).symm.trans hview
    exact (Option.filter_eq_some_iff.mp hfilter).1
  | bufferRecord buffer => exact iff_of_true (h.of_subset fun _ _ hview ↦ hview) trivial
  | visibleSnapshot snapshot =>
    obtain ⟨-, -, -, hviews⟩ := ClientState.syncViewStatesForNodes_spec true
      (c.recordSnapshot snapshot) (c.viewsOf snapshot.bufferId)
    exact h.sync_iff true (fun _ _ hview ↦ hview) hviews
  | bufferGone bufferId =>
    exact iff_of_true (h.of_subset fun id _ hview ↦ removeBuffer_subset c bufferId id hview) trivial
  | detachedBuffers buffers =>
    exact iff_of_true (h.of_subset fun id _ hview ↦ foldl_removeBuffer_subset _ c id hview) trivial

/-- An operation on one view, which keeps its lines. -/
theorem kept_iff (h : Sound c) {c' : ClientState} {nodeId : NodeId} {view view' : BufferViewState}
    (hview : c.viewState[nodeId]? = some view)
    (hviews : c'.viewState = c.viewState.insert nodeId view')
    (hlines : view'.visibleLines = view.visibleLines) (hrange : InRange view') :
    Sound c' ↔ view.visibleLines = [] ∨ view.scrollTopLine = view'.scrollTopLine :=
  (h.insert_iff hviews).trans (soundView_iff_of_kept (h nodeId view hview) hlines hrange)

/-- An operation on a view that there is not. -/
theorem absent (h : Sound c) {c' : ClientState} (hviews : c'.viewState = c.viewState) : Sound c' :=
  h.of_subset fun id view hview ↦ by rwa [hviews] at hview

theorem drawnRows_iff (h : Sound c) (nodeId : NodeId) (rows : UInt16) :
    Sound (ViewOp.apply c (.drawnRows nodeId rows)) ↔ (ViewOp.drawnRows nodeId rows).Steady c := by
  by_cases hrows : c.drawnRows[nodeId]? = some rows
  · refine iff_of_true (h.of_subset fun id view hview ↦ ?_) fun hne ↦ absurd hrows hne
    rwa [ViewOp.apply, ClientState.setViewDrawnRows, if_pos hrows] at hview
  · cases hview : c.viewState[nodeId]? with
    | none =>
      refine iff_of_true (h.absent ?_) fun _ view hget ↦ ?_
      · simp only [ViewOp.apply, ClientState.setViewDrawnRows, if_neg hrows, hview]
      · cases hview.symm.trans hget
    | some view =>
      let top := if view.followOutput then bottomTopLine (max view.totalLineCount rows.toNat) rows
        else clampTopLine view.scrollTopLine (max view.totalLineCount rows.toNat) rows
      let view' : BufferViewState := { view with
        visibleLineCount := rows
        totalLineCount := max view.totalLineCount rows.toNat
        scrollTopLine := top }
      have hviews : (ViewOp.apply c (.drawnRows nodeId rows)).viewState =
          c.viewState.insert nodeId view' := by
        simp only [ViewOp.apply, ClientState.setViewDrawnRows, if_neg hrows, hview]
        rfl
      have hrange : InRange view' ∧ (view.scrollTopLine = top ↔ DrawnSteady view rows) := by
        rw [DrawnSteady]
        cases hfollow : view.followOutput with
        | true =>
          have htop : top = bottomTopLine (max view.totalLineCount rows.toNat) rows :=
            if_pos hfollow
          rw [htop, if_pos rfl]
          exact ⟨inRange_at_bottom htop, Iff.rfl⟩
        | false =>
          have htop : top = clampTopLine view.scrollTopLine (max view.totalLineCount rows.toNat)
            rows := if_neg (by rw [hfollow]; exact Bool.false_ne_true)
          rw [htop, if_neg Bool.false_ne_true, clampTopLine, eq_comm, min_eq_left_iff]
          refine ⟨⟨htop.trans_le (clampTopLine_le _ _ _), fun hfollows ↦ ?_⟩, Iff.rfl⟩
          cases hfollow.symm.trans hfollows
      rw [h.kept_iff hview hviews rfl hrange.1]
      change view.visibleLines = [] ∨ view.scrollTopLine = top ↔ _
      rw [hrange.2]
      constructor
      · intro hmoved _ other hother
        cases hview.symm.trans hother
        exact hmoved
      · intro hsteady
        exact hsteady hrows view hview

/-- Clamping leaves a position in range where it is for the same position, and for those past an
end that it is at. -/
theorem eq_clampTopLine_iff {top target total : ℕ} {rows : UInt16}
    (h : top ≤ bottomTopLine total rows) : top = clampTopLine target total rows ↔
      top = target ∨ top = bottomTopLine total rows ∧ bottomTopLine total rows ≤ target := by
  rw [clampTopLine]
  omega

/-- A view scrolled to a line follows the output exactly at the end. -/
theorem inRange_scrolled {view : BufferViewState} (hle : view.scrollTopLine ≤ view.bottom)
    (hfollow : view.followOutput = decide (view.scrollTopLine = view.bottom)) : InRange view :=
  ⟨hle, fun hfollows _ ↦ of_decide_eq_true (hfollow ▸ hfollows)⟩

theorem scrollTop_iff (h : Sound c) (nodeId : NodeId) (scrollTopLine : ℕ) :
    Sound (ViewOp.apply c (.scrollTop nodeId scrollTopLine)) ↔
      (ViewOp.scrollTop nodeId scrollTopLine).Steady c := by
  cases hview : c.viewState[nodeId]? with
  | none =>
    refine iff_of_true (h.absent ?_) fun view hget ↦ ?_
    · simp only [ViewOp.apply, ClientState.setViewScrollTop, hview]
    · cases hview.symm.trans hget
  | some view =>
    let top := clampTopLine scrollTopLine view.totalLineCount view.visibleLineCount
    let view' : BufferViewState := { view with
      scrollTopLine := top
      followOutput := decide (top = view.bottom) }
    have hviews : (ViewOp.apply c (.scrollTop nodeId scrollTopLine)).viewState =
        c.viewState.insert nodeId view' := by
      simp only [ViewOp.apply, ClientState.setViewScrollTop, hview]
      rfl
    have hrange : InRange view' := inRange_scrolled (clampTopLine_le _ _ _) rfl
    rw [h.kept_iff hview hviews rfl hrange]
    change view.visibleLines = [] ∨ view.scrollTopLine = clampTopLine _ _ _ ↔ _
    rw [eq_clampTopLine_iff (h nodeId view hview).le_bottom]
    constructor
    · intro hmoved other hother
      cases hview.symm.trans hother
      exact hmoved
    · intro hsteady
      exact hsteady view hview

theorem visibleLines_iff (h : Sound c) (nodeId : NodeId) (scrollTopLine : ℕ)
    (lines : List SnapshotLine) : Sound (ViewOp.apply c (.visibleLines nodeId scrollTopLine lines)) ↔
      (ViewOp.visibleLines nodeId scrollTopLine lines).Steady c := by
  cases hview : c.viewState[nodeId]? with
  | none =>
    refine iff_of_true (h.absent ?_) fun view hget ↦ ?_
    · simp only [ViewOp.apply, ClientState.setViewVisibleLines, hview]
    · cases hview.symm.trans hget
  | some view =>
    let top := clampTopLine scrollTopLine view.totalLineCount view.visibleLineCount
    let view' : BufferViewState := { view with
      scrollTopLine := top
      followOutput := decide (top = view.bottom)
      visibleLines := lines }
    have hviews : (ViewOp.apply c (.visibleLines nodeId scrollTopLine lines)).viewState =
        c.viewState.insert nodeId view' := by
      simp only [ViewOp.apply, ClientState.setViewVisibleLines, hview]
      rfl
    rw [h.insert_iff hviews, soundView_iff_of_inRange (inRange_scrolled (clampTopLine_le _ _ _) rfl)]
    change Numbered top lines ↔ _
    constructor
    · intro hnumbered other hother
      cases hview.symm.trans hother
      exact hnumbered
    · intro hsteady
      exact hsteady view hview

theorem slice_iff (h : Sound c) (nodeId : NodeId) (scrollTopLine : ℕ)
    (response : ScrollbackSlice) : Sound (ViewOp.apply c (.slice nodeId scrollTopLine response)) ↔
      (ViewOp.slice nodeId scrollTopLine response).Steady c := by
  cases hview : c.viewState[nodeId]? with
  | none =>
    refine iff_of_true (h.absent ?_) fun view hget ↦ ?_
    · simp only [ViewOp.apply, ClientState.fetchViewSlice, hview]
    · cases hview.symm.trans hget
  | some view =>
    by_cases hrows : view.visibleLineCount = 0
    · refine iff_of_true (h.absent ?_) fun other hget hne ↦ ?_
      · simp only [ViewOp.apply, ClientState.fetchViewSlice, hview, if_pos hrows]
      · cases hview.symm.trans hget
        exact absurd hrows hne
    · let total := max response.totalLines view.visibleLineCount.toNat
      let top := clampTopLine scrollTopLine total view.visibleLineCount
      let view' : BufferViewState := { view with
        totalLineCount := total
        scrollTopLine := top
        followOutput := decide (top = bottomTopLine total view.visibleLineCount)
        visibleLines := response.lines }
      have hviews : (ViewOp.apply c (.slice nodeId scrollTopLine response)).viewState =
          c.viewState.insert nodeId view' := by
        have hsized : (c.viewState.insert nodeId
            { view with totalLineCount := total })[nodeId]? =
            some { view with totalLineCount := total } := by
          rw [Table.get?_insert, if_pos rfl]
        rw [ViewOp.apply, ClientState.fetchViewSlice, hview]
        simp only [if_neg hrows]
        rw [ClientState.setViewVisibleLines, hsized]
        exact Table.insert_insert_self _ _ _ _
      rw [h.insert_iff hviews,
        soundView_iff_of_inRange (inRange_scrolled (clampTopLine_le _ _ _) rfl)]
      change Numbered top response.lines ↔ _
      constructor
      · intro hnumbered other hother _
        cases hview.symm.trans hother
        exact hnumbered
      · intro hsteady
        exact hsteady view hview hrows

theorem followOutput_iff (h : Sound c) (nodeId : NodeId) (follow : Bool) :
    Sound (ViewOp.apply c (.followOutput nodeId follow)) ↔
      (ViewOp.followOutput nodeId follow).Steady c := by
  cases hview : c.viewState[nodeId]? with
  | none =>
    refine iff_of_true (h.absent ?_) fun _ view hget ↦ ?_
    · simp only [ViewOp.apply, ClientState.setViewFollowOutput, hview]
    · cases hview.symm.trans hget
  | some view =>
    have hold := h nodeId view hview
    cases follow with
    | false =>
      have hviews : (ViewOp.apply c (.followOutput nodeId false)).viewState =
          c.viewState.insert nodeId { view with followOutput := false } := by
        simp only [ViewOp.apply, ClientState.setViewFollowOutput, hview]
        rfl
      have hkept := h.kept_iff hview hviews rfl
        ⟨hold.le_bottom, fun hfollows ↦ by cases hfollows⟩
      refine iff_of_true (hkept.mpr (.inr rfl)) fun hfollow ↦ ?_
      cases hfollow
    | true =>
      have hsteady : (ViewOp.followOutput nodeId true).Steady c ↔
          if c.snapshotLines view.bufferId = [] then
            view.visibleLines = [] ∨ view.scrollTopLine = view.bottom
          else Numbered view.bottom (c.snapshotLines view.bufferId) := by
        constructor
        · intro hsteady
          exact hsteady rfl view hview
        · intro hsteady _ other hother
          cases hview.symm.trans hother
          exact hsteady
      rw [hsteady]
      by_cases hlines : c.snapshotLines view.bufferId = []
      · -- without lines of a snapshot the view keeps its own
        let view' : BufferViewState :=
          { view with followOutput := true, scrollTopLine := view.bottom }
        have hviews : (ViewOp.apply c (.followOutput nodeId true)).viewState =
            c.viewState.insert nodeId view' := by
          rw [ClientState.snapshotLines] at hlines
          simp only [ViewOp.apply, ClientState.setViewFollowOutput, hview, hlines, if_true]
          rfl
        rw [h.kept_iff hview hviews rfl (inRange_at_bottom rfl), if_pos hlines]
      · let view' : BufferViewState := { view with
          followOutput := true
          scrollTopLine := view.bottom
          visibleLines := c.snapshotLines view.bufferId }
        have hviews : (ViewOp.apply c (.followOutput nodeId true)).viewState =
            c.viewState.insert nodeId view' := by
          have hlines' := hlines
          rw [ClientState.snapshotLines] at hlines'
          simp only [ViewOp.apply, ClientState.setViewFollowOutput, hview, if_true, if_neg hlines']
          rfl
        rw [h.insert_iff hviews, soundView_iff_of_inRange (inRange_at_bottom rfl), if_neg hlines]

theorem overlay (h : Sound c) (nodeId : NodeId) (laid : Overlay) (freeze : Bool) :
    Sound (ViewOp.apply c (.overlay nodeId laid freeze)) := by
  cases hview : c.viewState[nodeId]? with
  | none =>
    refine h.absent ?_
    simp only [ViewOp.apply, ClientState.setOverlay, hview]
  | some view =>
    have hold := h nodeId view hview
    let view' : BufferViewState := { view with
      searchState := laid.searchState
      selectionState := laid.selectionState
      hintsState := laid.hintsState
      copyCursor := laid.copyCursor
      followOutput := view.followOutput && !freeze }
    have hviews : (ViewOp.apply c (.overlay nodeId laid freeze)).viewState =
        c.viewState.insert nodeId view' := by
      simp only [ViewOp.apply, ClientState.setOverlay, hview]
      rfl
    have hrange : InRange view' :=
      ⟨hold.le_bottom, fun hfollows ↦ hold.follows (Bool.and_eq_true_iff.mp hfollows).1⟩
    exact (h.kept_iff hview hviews rfl hrange).mpr (.inr rfl)

end Sound

/-- A step keeps views sound exactly when it is steady. -/
theorem sound_apply_iff (h : Sound c) (op : ViewOp) : Sound (op.apply c) ↔ op.Steady c := by
  cases op with
  | ofNews news => exact h.ofNews_iff news
  | drawnRows nodeId rows => exact h.drawnRows_iff nodeId rows
  | scrollTop nodeId scrollTopLine => exact h.scrollTop_iff nodeId scrollTopLine
  | visibleLines nodeId scrollTopLine lines => exact h.visibleLines_iff nodeId scrollTopLine lines
  | slice nodeId scrollTopLine response => exact h.slice_iff nodeId scrollTopLine response
  | followOutput nodeId follow => exact h.followOutput_iff nodeId follow
  | overlay nodeId laid freeze => exact iff_of_true (h.overlay nodeId laid freeze) trivial

/-! ## Runs -/

/-- Views are sound in every state of a run. -/
def SoundRun (c : ClientState) : List ViewOp → Prop
  | [] => Sound c
  | op :: ops => Sound c ∧ SoundRun (op.apply c) ops

/-- Every step of a run is steady. -/
def SteadyRun (c : ClientState) : List ViewOp → Prop
  | [] => True
  | op :: ops => op.Steady c ∧ SteadyRun (op.apply c) ops

theorem sound_empty : Sound .empty := by
  intro id view hview
  simp [ClientState.empty] at hview

theorem soundRun_iff (h : Sound c) (ops : List ViewOp) : SoundRun c ops ↔ SteadyRun c ops := by
  induction ops generalizing c with
  | nil => exact iff_of_true h trivial
  | cons op ops ih =>
    constructor
    · rintro ⟨-, hrun⟩
      have hnext : Sound (op.apply c) := by
        cases ops with
        | nil => exact hrun
        | cons op' ops => exact hrun.1
      exact ⟨(sound_apply_iff h op).mp hnext, (ih hnext).mp hrun⟩
    · rintro ⟨hsteady, hrun⟩
      have hnext := (sound_apply_iff h op).mpr hsteady
      exact ⟨h, (ih hnext).mpr hrun⟩

/-- The views of a client are sound all the time exactly in the runs whose steps are all steady. -/
theorem soundRun_iff_steadyRun (ops : List ViewOp) :
    SoundRun .empty ops ↔ SteadyRun .empty ops :=
  soundRun_iff sound_empty ops

/-- A pane that follows its output, of which lines are known, is drawn in more rows. -/
def resizedRun : List ViewOp :=
  [.ofNews (.sessionSnapshot ((oneServer 1).snapshotOf oneSession)),
    .ofNews (.visibleSnapshot (terminal 24 6 30 [⟨"a", 6⟩, ⟨"b", 7⟩])),
    .drawnRows 1 30]

/-- The view moves to line 0 and keeps the lines from line 6 on. -/
theorem not_soundRun_resizedRun : ¬ SoundRun .empty resizedRun := by
  rintro ⟨-, -, -, hsound⟩
  have hlines := (hsound 1 _ rfl).lines 0 ⟨"a", 6⟩ rfl
  exact absurd hlines (by decide)

end Embers.Client
