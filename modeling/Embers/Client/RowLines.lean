import Embers.Client.ResyncTables
import Embers.Client.Rows

/-!
# Rows and lines stay together

`Aligned` is what a level step keeps of every pane: the lines the view is drawn from are the lines of
the history from its scroll position on, nothing of them is skipped, and the view's rows lie within
the history. A sync replaces or drops the lines a view holds, so it establishes `Aligned` whatever
the view was before; the other steps keep it.

Under `Aligned` all five mappings between rows and lines are the same (`Aligned.rowsAgree`).
-/

namespace Embers.Client

open Embers.Protocol

theorem significant_le_length (lines : List SnapshotLine) : significant lines ≤ lines.length := by
  have h := (List.dropWhile_suffix (fun line : SnapshotLine ↦ line.text.isEmpty)
    (l := lines.reverse)).length_le
  rw [List.length_reverse] at h
  exact h

theorem Numbered.nil (top : ℕ) : Numbered top [] := by
  intro i line h
  simp at h

/-- The pane's view is in step with its buffer. -/
structure Aligned (snapshot : Option VisibleSnapshotResponse) (view : BufferViewState) : Prop where
  room : view.alternateScreen = false →
    view.scrollTopLine + view.visibleLineCount.toNat ≤ view.totalLineCount
  bound : view.totalLineCount < 2 ^ 64
  numbered : view.alternateScreen = false → Ready view →
    Numbered view.scrollTopLine (view.lines snapshot)
  short : view.followOutput → significant (view.lines snapshot) ≤ view.visibleLineCount.toNat
  screen : view.alternateScreen → ∃ live, snapshot = some live ∧ view.visibleLines = live.lines

/-! ## Syncs -/

section Sync

variable {snapshot : Option VisibleSnapshotResponse} {rows : UInt16}

/-- What a sync counts as the lines of the buffer. -/
def syncTotal (snapshot : Option VisibleSnapshotResponse) (rows : UInt16) : ℕ :=
  (snapshot.map fun snapshot ↦ max snapshot.totalLines rows.toNat).getD rows.toNat

/-- A snapshot as servers send it, of a terminal that fits. -/
structure Synced (snapshot : VisibleSnapshotResponse) (rows : UInt16) : Prop extends
    Fits snapshot rows where
  numbered : Numbered snapshot.viewportTopLine snapshot.lines
  bound : snapshot.totalLines < 2 ^ 64

theorem syncTotal_lt (h : ∀ live, snapshot = some live → Synced live rows) :
    syncTotal snapshot rows < 2 ^ 64 := by
  have hrows : rows.toNat < 2 ^ 16 := rows.toNat_lt
  rcases snapshot with _ | live
  · change rows.toNat < 2 ^ 64
    omega
  · have hlive := (h live rfl).bound
    change max live.totalLines rows.toNat < 2 ^ 64
    omega

theorem le_syncTotal (snapshot : Option VisibleSnapshotResponse) (rows : UInt16) :
    rows.toNat ≤ syncTotal snapshot rows := by
  rcases snapshot with _ | live
  · exact Nat.le_refl _
  · exact Nat.le_max_right _ _

theorem bottomTopLine_add {total : ℕ} (h : rows.toNat ≤ total) :
    bottomTopLine total rows + rows.toNat = total := by
  rw [bottomTopLine]
  omega

/-- The live screen begins at the pane's last screen, unless it is the alternate one. -/
theorem viewportTopLine_eq (h : ∀ live, snapshot = some live → Synced live rows)
    (halt : (snapshot.any (·.alternateScreen)) = false) :
    (snapshot.map (·.viewportTopLine)).getD (bottomTopLine (syncTotal snapshot rows) rows) =
      bottomTopLine (syncTotal snapshot rows) rows := by
  rcases snapshot with _ | live
  · rfl
  · exact (h live rfl).top halt

theorem numbered_live (h : ∀ live, snapshot = some live → Synced live rows)
    (halt : (snapshot.any (·.alternateScreen)) = false) :
    Numbered (bottomTopLine (syncTotal snapshot rows) rows) ((snapshot.map (·.lines)).getD []) := by
  rcases hsnapshot : snapshot with _ | live
  · exact Numbered.nil _
  · have hlive := h live hsnapshot
    subst hsnapshot
    rw [← viewportTopLine_eq h halt]
    exact hlive.numbered

theorem significant_live (h : ∀ live, snapshot = some live → Synced live rows) :
    significant ((snapshot.map (·.lines)).getD []) ≤ rows.toNat := by
  rcases hsnapshot : snapshot with _ | live
  · exact Nat.zero_le _
  · exact (h live hsnapshot).short

theorem lines_of_snapshotLines {view : BufferViewState}
    (h : view.visibleLines = (snapshot.map (·.lines)).getD []) :
    view.lines snapshot = (snapshot.map (·.lines)).getD [] := by
  rw [BufferViewState.lines]
  split
  next => rfl
  next => exact h

/-- A view drawn from the live screen is aligned when it is scrolled there. -/
theorem Aligned.ofLive (h : ∀ live, snapshot = some live → Synced live rows)
    {view : BufferViewState} (hrows : view.visibleLineCount = rows)
    (htotal : view.totalLineCount = syncTotal snapshot rows)
    (halternate : view.alternateScreen = snapshot.any (·.alternateScreen))
    (hlines : view.visibleLines = (snapshot.map (·.lines)).getD [])
    (htop : view.alternateScreen = false →
      view.scrollTopLine = bottomTopLine (syncTotal snapshot rows) rows) :
    Aligned snapshot view := by
  constructor
  case room =>
    intro halt
    rw [htop halt, hrows, htotal]
    exact Nat.le_of_eq (bottomTopLine_add (le_syncTotal snapshot rows))
  case bound => exact htotal ▸ syncTotal_lt h
  case numbered =>
    intro halt _
    rw [lines_of_snapshotLines hlines, htop halt]
    exact numbered_live h (halternate ▸ halt)
  case short =>
    intro _
    rw [lines_of_snapshotLines hlines, hrows]
    exact significant_live h
  case screen =>
    intro halt
    rw [halternate] at halt
    obtain ⟨live, hlive, -⟩ := (Option.any_eq_true _ _).mp halt
    subst hlive
    exact ⟨live, rfl, hlines⟩

theorem aligned_freshView (h : ∀ live, snapshot = some live → Synced live rows)
    (record : BufferViewRecord) :
    Aligned snapshot (ClientState.freshView record snapshot rows (syncTotal snapshot rows)) :=
  .ofLive h rfl rfl rfl rfl (viewportTopLine_eq h)

theorem aligned_updatedView (h : ∀ live, snapshot = some live → Synced live rows)
    {view : BufferViewState}
    (hscrolled : view.followOutput = false → ∀ live, snapshot = some live →
      live.alternateScreen = false →
      view.scrollTopLine ≤ bottomTopLine (syncTotal snapshot rows) rows ∧
        (view.scrollTopLine = live.viewportTopLine ∨ view.visibleLines ≠ []))
    (resetHints : Bool) :
    Aligned snapshot
      (ClientState.updatedView view snapshot rows (syncTotal snapshot rows) resetHints) := by
  unfold ClientState.updatedView
  dsimp only
  split
  next halt => exact .ofLive h rfl rfl rfl rfl fun hnot ↦ absurd halt (by simpa using hnot)
  next halt =>
    have hfalse : (snapshot.any (·.alternateScreen)) = false := by simpa using halt
    cases hfollow : view.followOutput with
    | true => exact .ofLive h rfl rfl rfl (by simp) (by simp)
    | false =>
      rcases hsnapshot : snapshot with _ | live
      · subst hsnapshot
        refine .ofLive h rfl rfl rfl (by simp) fun _ ↦ ?_
        simp [clampTopLine, bottomTopLine, syncTotal]
      · have hlive : live.alternateScreen = false := by simpa [hsnapshot] using hfalse
        obtain ⟨hle, hheld⟩ := hscrolled hfollow live hsnapshot hlive
        have htop := (h live hsnapshot).top hlive
        subst hsnapshot
        have hclamp : clampTopLine view.scrollTopLine (syncTotal (some live) rows) rows =
            view.scrollTopLine := Nat.min_eq_left hle
        by_cases hat : view.scrollTopLine = live.viewportTopLine
        · refine .ofLive h rfl rfl rfl (by simp only [hclamp]; simp [hat]) fun _ ↦ ?_
          simp only [hclamp, Bool.false_eq_true, if_false]
          exact hat.trans htop
        · -- The view loses its lines, and is not drawn before it gets others.
          have hheld' := hheld.resolve_left hat
          have hroom := bottomTopLine_add (le_syncTotal (some live) rows)
          simp only [hclamp, Bool.false_eq_true, if_false, false_or, Option.map_some,
            Option.getD_some, hat, hheld']
          constructor
          case room =>
            intro _
            change view.scrollTopLine + rows.toNat ≤ syncTotal (some live) rows
            omega
          case bound => exact syncTotal_lt h
          case numbered =>
            intro _ hready
            simp [Ready, hlive] at hready
          case short => exact fun hf ↦ absurd hf (by simp)
          case screen => exact fun ha ↦ absurd ha (by simp [hlive])

end Sync

/-! ## One mapping -/

theorem saturatingAdd_of_lt {a b : ℕ} (h : a + b < 2 ^ 64) : saturatingAdd a b = a + b := by
  rw [saturatingAdd]
  omega

section Agree

variable {c : ClientState} {leaf : Leaf} {view : BufferViewState}

theorem Shows.renderedLines (hshows : Shows c leaf view) :
    c.renderedLines leaf = view.lines c.snapshots[leaf.bufferId]? := by
  rw [ClientState.renderedLines, hshows.viewState]
  rfl

/-- Nothing is skipped. -/
theorem Aligned.position (haligned : Aligned c.snapshots[leaf.bufferId]? view)
    (hshows : Shows c leaf view) (hrows : view.visibleLineCount = leaf.height) :
    (c.position leaf).displayOffset = 0 ∧
      (c.position leaf).displayedTopLine = saturatingAdd view.scrollTopLine 0 := by
  have hoffset : (c.position leaf).displayOffset = 0 := by
    rw [ClientState.position, hshows.viewState, hshows.renderedLines]
    change (if view.followOutput then _ else 0) = 0
    split
    next hfollow =>
      have hshort := haligned.short hfollow
      rw [hrows] at hshort
      omega
    next => rfl
  refine ⟨hoffset, ?_⟩
  have htop : (c.position leaf).displayedTopLine =
      saturatingAdd view.scrollTopLine (c.position leaf).displayOffset := by
    rw [ClientState.position, hshows.viewState]
    rfl
  rw [htop, hoffset]

theorem Aligned.displayedLines (haligned : Aligned c.snapshots[leaf.bufferId]? view)
    (hshows : Shows c leaf view) (hrows : view.visibleLineCount = leaf.height) :
    c.displayedLines leaf = view.lines c.snapshots[leaf.bufferId]? := by
  rw [ClientState.displayedLines, (haligned.position hshows hrows).1, List.drop_zero,
    hshows.renderedLines]

theorem Aligned.drawnLine_eq (haligned : Aligned c.snapshots[leaf.bufferId]? view)
    (hshows : Shows c leaf view) (hrows : view.visibleLineCount = leaf.height) {row : ℕ}
    {line : SnapshotLine} (hline : c.drawnLine leaf row = some line) :
    row < leaf.height.toNat ∧ (view.lines c.snapshots[leaf.bufferId]?)[row]? = some line := by
  rw [ClientState.drawnLine, haligned.displayedLines hshows hrows, List.getElem?_take] at hline
  split at hline
  next hlt => exact ⟨hlt, hline⟩
  next => cases hline

/-- The highlights count from the scroll position. -/
theorem Aligned.selectionLine (haligned : Aligned c.snapshots[leaf.bufferId]? view)
    (hshows : Shows c leaf view) (hrows : view.visibleLineCount = leaf.height)
    (halt : view.alternateScreen = false) {row : ℕ} (hrow : row < leaf.height.toNat) :
    c.selectionLine leaf row = view.scrollTopLine + row := by
  have hroom := haligned.room halt
  have hbound := haligned.bound
  rw [hrows] at hroom
  rw [ClientState.selectionLine, (haligned.position hshows hrows).2,
    saturatingAdd_of_lt (show view.scrollTopLine + 0 < 2 ^ 64 by omega),
    saturatingAdd_of_lt (by omega), Nat.add_zero]

theorem Aligned.pressLine (haligned : Aligned c.snapshots[leaf.bufferId]? view)
    (hshows : Shows c leaf view) (hrows : view.visibleLineCount = leaf.height)
    (halt : view.alternateScreen = false) {row : ℕ} (hrow : row < leaf.height.toNat) :
    c.pressLine leaf row = some (view.scrollTopLine + row) := by
  have hroom := haligned.room halt
  have hbound := haligned.bound
  rw [hrows] at hroom
  rw [ClientState.pressLine, hshows.viewState, Option.bind_eq_bind, Option.bind_some, halt,
    saturatingAdd_of_lt (by omega)]
  rfl

theorem Aligned.dragLine (haligned : Aligned c.snapshots[leaf.bufferId]? view)
    (hshows : Shows c leaf view) (hrows : view.visibleLineCount = leaf.height)
    (halt : view.alternateScreen = false) {row : ℕ} (hrow : row < leaf.height.toNat) :
    c.dragLine leaf row = some (view.scrollTopLine + row) := by
  have hroom := haligned.room halt
  have hbound := haligned.bound
  rw [hrows] at hroom
  have hviewport : c.copyViewport leaf.nodeId =
      some ⟨view.scrollTopLine, leaf.height.toNat, view.totalLineCount⟩ := by
    rw [ClientState.copyViewport, hshows.viewState, Option.bind_eq_bind, Option.bind_some, hrows,
      Nat.max_eq_left (by omega), Nat.max_eq_left (by omega)]
  rw [ClientState.dragLine, hviewport, Option.bind_eq_bind, Option.bind_some]
  dsimp only
  rw [if_neg (by omega), Nat.min_eq_left (show row ≤ leaf.height.toNat - 1 by omega),
    saturatingAdd_of_lt (by omega), Nat.min_eq_left (by omega)]

/-- The row a highlight is drawn on is the one that counts as its line. -/
theorem Aligned.row_eq (haligned : Aligned c.snapshots[leaf.bufferId]? view)
    (hshows : Shows c leaf view) (hrows : view.visibleLineCount = leaf.height)
    (halt : view.alternateScreen = false) {number row : ℕ} (hrow : row < leaf.height.toNat)
    (hge : ¬ number < (c.position leaf).displayedTopLine)
    (heq : number - (c.position leaf).displayedTopLine = row) :
    number = c.selectionLine leaf row := by
  have htop := (haligned.position hshows hrows).2
  have hroom := haligned.room halt
  have hbound := haligned.bound
  rw [saturatingAdd_of_lt (by omega)] at htop
  rw [haligned.selectionLine hshows hrows halt hrow]
  omega

/-- The cursor is drawn on the live screen only. -/
theorem Shows.scrollTopLine_of_drawnCursor (hshows : Shows c leaf view)
    {snapshot : VisibleSnapshotResponse} (hsnapshot : c.snapshots[leaf.bufferId]? = some snapshot)
    {position : CursorPosition} (hcursor : c.drawnCursor leaf = some position)
    (halt : view.alternateScreen = false) : view.scrollTopLine = snapshot.viewportTopLine := by
  rw [ClientState.drawnCursor, hshows.viewState, hsnapshot] at hcursor
  simp only [Option.any_some, halt, Bool.not_false, Bool.true_and] at hcursor
  split at hcursor
  next => cases hcursor
  next =>
    by_contra hne
    simp [hne] at hcursor

theorem Aligned.rowsAgree (haligned : Aligned c.snapshots[leaf.bufferId]? view)
    (hshows : Shows c leaf view) (hrows : view.visibleLineCount = leaf.height)
    (hlive : ∀ snapshot, c.snapshots[leaf.bufferId]? = some snapshot →
      Numbered snapshot.viewportTopLine snapshot.lines) : RowsAgree c leaf view := by
  have hnumber : view.alternateScreen = false → ∀ row line, c.drawnLine leaf row = some line →
      line.number = view.scrollTopLine + row := by
    intro halt row line hline
    exact haligned.numbered halt hshows.ready row line
      (haligned.drawnLine_eq hshows hrows hline).2
  constructor
  case press_drag =>
    intro halt row hrow
    rw [haligned.pressLine hshows hrows halt hrow, haligned.dragLine hshows hrows halt hrow]
  case press_overlay =>
    intro halt row hrow
    rw [haligned.pressLine hshows hrows halt hrow, haligned.selectionLine hshows hrows halt hrow]
  case drawn =>
    intro halt row line hline
    rw [hnumber halt row line hline,
      haligned.selectionLine hshows hrows halt (haligned.drawnLine_eq hshows hrows hline).1]
  case search =>
    intro halt number row hrow hsearch
    simp only [ClientState.searchRow] at hsearch
    split_ifs at hsearch with hge
    exact haligned.row_eq hshows hrows halt hrow hge (Option.some.inj hsearch)
  case hint =>
    intro halt number row hhint
    simp only [ClientState.hintRow] at hhint
    split_ifs at hhint with hge _ hlt
    have hrow := Option.some.inj hhint
    exact haligned.row_eq hshows hrows halt (by omega) hge hrow
  case cursor =>
    intro snapshot position line hsnapshot hcursor hline
    have hget := (haligned.drawnLine_eq hshows hrows hline).2
    cases halt : view.alternateScreen with
    | false =>
      rw [hnumber halt _ line hline, hshows.scrollTopLine_of_drawnCursor hsnapshot hcursor halt]
    | true =>
      obtain ⟨live, hlive', hlines⟩ := haligned.screen halt
      rw [hlive', lines_of_snapshotLines (by rw [hlines]; rfl)] at hget
      exact (hlive live hlive' _ line hget).symm ▸ by
        rw [Option.some.inj (hsnapshot.symm.trans hlive')]

end Agree

/-! ## Syncs of several panes -/

namespace ClientState

variable (resetHints : Bool)

/-- What a sync takes into account is not changed by syncs. -/
theorem syncViewState_frame (c : ClientState) (nodeId : NodeId) :
    (syncViewState resetHints c nodeId).nodes = c.nodes ∧
      (syncViewState resetHints c nodeId).snapshots = c.snapshots ∧
      (syncViewState resetHints c nodeId).drawnRows = c.drawnRows := by
  unfold syncViewState
  split <;> exact ⟨rfl, rfl, rfl⟩

theorem syncViewState_viewState (c : ClientState) (nodeId id : NodeId) :
    (syncViewState resetHints c nodeId).viewState[id]? =
      if nodeId = id then (c.syncedView resetHints id).or c.viewState[id]?
      else c.viewState[id]? := by
  unfold syncViewState
  split
  next hview =>
    split
    next hid => rw [← hid, hview, Option.none_or]
    next => rfl
  next view hview =>
    rw [Table.get?_insert]
    split
    next hid => rw [← hid, hview, Option.some_or]
    next => rfl

theorem syncedView_congr {c c' : ClientState} {nodeId : NodeId} (hnodes : c'.nodes = c.nodes)
    (hsnapshots : c'.snapshots = c.snapshots) (hrows : c'.drawnRows = c.drawnRows)
    (hview : c'.viewState[nodeId]? = c.viewState[nodeId]?) :
    c'.syncedView resetHints nodeId = c.syncedView resetHints nodeId := by
  unfold syncedView
  rw [hnodes, hsnapshots, hrows, hview]

theorem foldl_syncViewState (c : ClientState) {nodeIds : List NodeId} (honce : nodeIds.Nodup) :
    (nodeIds.foldl (syncViewState resetHints) c).nodes = c.nodes ∧
      (nodeIds.foldl (syncViewState resetHints) c).snapshots = c.snapshots ∧
      (nodeIds.foldl (syncViewState resetHints) c).drawnRows = c.drawnRows ∧
      ∀ id : NodeId, (nodeIds.foldl (syncViewState resetHints) c).viewState[id]? =
        if id ∈ nodeIds then (c.syncedView resetHints id).or c.viewState[id]?
        else c.viewState[id]? := by
  induction nodeIds generalizing c with
  | nil => exact ⟨rfl, rfl, rfl, fun _ ↦ rfl⟩
  | cons nodeId nodeIds ih =>
    rw [List.nodup_cons] at honce
    obtain ⟨hnodes, hsnapshots, hrows⟩ := syncViewState_frame resetHints c nodeId
    obtain ⟨hnodes', hsnapshots', hrows', hviews⟩ :=
      ih (syncViewState resetHints c nodeId) honce.2
    refine ⟨hnodes'.trans hnodes, hsnapshots'.trans hsnapshots, hrows'.trans hrows, ?_⟩
    intro id
    refine (hviews id).trans ?_
    have hview := syncViewState_viewState resetHints c nodeId id
    by_cases hid : nodeId = id
    · -- The node is not visited again.
      rw [if_neg (hid ▸ honce.1), hview, if_pos hid, if_pos (hid ▸ List.mem_cons_self)]
    · rw [if_neg hid] at hview
      rw [hview, syncedView_congr resetHints hnodes hsnapshots hrows hview]
      simp [Ne.symm hid]

theorem syncViewStatesForNodes_spec (c : ClientState) (nodeIds : List NodeId) :
    (c.syncViewStatesForNodes nodeIds resetHints).nodes = c.nodes ∧
      (c.syncViewStatesForNodes nodeIds resetHints).snapshots = c.snapshots ∧
      (c.syncViewStatesForNodes nodeIds resetHints).drawnRows = c.drawnRows ∧
      ∀ id : NodeId, (c.syncViewStatesForNodes nodeIds resetHints).viewState[id]? =
        if id ∈ nodeIds then (c.syncedView resetHints id).or c.viewState[id]?
        else c.viewState[id]? := by
  have h := foldl_syncViewState resetHints c nodeIds.nodup_dedup
  simp only [List.mem_dedup] at h
  exact h

end ClientState

theorem ClientState.updatedView_bufferId (view : BufferViewState)
    (snapshot : Option VisibleSnapshotResponse) (rows : UInt16) (total : ℕ) (resetHints : Bool) :
    (ClientState.updatedView view snapshot rows total resetHints).bufferId = view.bufferId := by
  unfold ClientState.updatedView
  dsimp only
  split <;> rfl

/-! ## The invariant -/

/-- What a pane's view must be. -/
def PaneInStep (c : ClientState) (nodeId : NodeId) : Prop :=
  ∀ node record view, c.nodes[nodeId]? = some node → node.kind = .bufferView →
    node.bufferView = some record → c.viewState[nodeId]? = some view →
    view.bufferId = record.bufferId ∧ Aligned c.snapshots[record.bufferId]? view

/-- Snapshots as servers send them, and every pane in step. -/
structure InStep (c : ClientState) : Prop where
  keyed : c.tables.Keyed
  snapshots : ∀ (bufferId : BufferId) (snapshot : VisibleSnapshotResponse),
    c.snapshots[bufferId]? = some snapshot →
    Numbered snapshot.viewportTopLine snapshot.lines ∧ snapshot.totalLines < 2 ^ 64
  panes : ∀ nodeId, PaneInStep c nodeId

theorem PaneInStep.synced {c c' : ClientState} {nodeId : NodeId} {resetHints : Bool}
    (hsnapshots : ∀ (bufferId : BufferId) (snapshot : VisibleSnapshotResponse),
      c.snapshots[bufferId]? = some snapshot →
      Numbered snapshot.viewportTopLine snapshot.lines ∧ snapshot.totalLines < 2 ^ 64)
    (hlevel : c.SyncLevel nodeId) (hnodes : c'.nodes = c.nodes)
    (hsame : c'.snapshots = c.snapshots)
    (hview : c'.viewState[nodeId]? = (c.syncedView resetHints nodeId).or c.viewState[nodeId]?) :
    PaneInStep c' nodeId := by
  intro node record view hnode hkind hrecord hget
  rw [hnodes] at hnode
  rw [hsame]
  set rows := c.drawnRows[nodeId]?.getD record.lastRenderSize.rows with hrowsdef
  have hsynced : ∀ live, c.snapshots[record.bufferId]? = some live → Synced live rows := by
    intro live hlive
    obtain ⟨hnumbered, hbound⟩ := hsnapshots _ live hlive
    exact ⟨(hlevel node record live hnode hrecord hlive).1, hnumbered, hbound⟩
  have hstate : ∃ state, c.syncedView resetHints nodeId = some state ∧
      state.bufferId = record.bufferId ∧ Aligned c.snapshots[record.bufferId]? state := by
    unfold ClientState.syncedView
    rw [hnode]
    simp only [Option.bind_eq_bind, Option.bind_some, hkind, ne_eq, not_true_eq_false, if_false,
      hrecord]
    split
    next old hold =>
      split
      next hbuffer =>
        refine ⟨_, rfl, ?_, aligned_updatedView hsynced ?_ resetHints⟩
        · exact (ClientState.updatedView_bufferId old _ _ _ _).trans hbuffer
        · intro hfollow live hlive halt
          have hscrolled := (hlevel node record live hnode hrecord hlive).2 old hold hfollow halt
          rw [hlive]
          exact hscrolled
      next => exact ⟨_, rfl, rfl, aligned_freshView hsynced record⟩
    next => exact ⟨_, rfl, rfl, aligned_freshView hsynced record⟩
  obtain ⟨state, hsome, hbuffer, haligned⟩ := hstate
  rw [hview, hsome, Option.some_or] at hget
  obtain rfl : state = view := Option.some.inj hget
  exact ⟨hbuffer, haligned⟩

/-- A pane none of whose tables a step touches stays in step. -/
theorem PaneInStep.congr {c c' : ClientState} {nodeId : NodeId} (h : PaneInStep c nodeId)
    (hnodes : ∀ node, c'.nodes[nodeId]? = some node → c.nodes[nodeId]? = some node)
    (hviews : ∀ view, c'.viewState[nodeId]? = some view → c.viewState[nodeId]? = some view)
    (hsnapshots : c'.snapshots = c.snapshots) : PaneInStep c' nodeId := by
  intro node record view hnode hkind hrecord hview
  rw [hsnapshots]
  exact h node record view (hnodes node hnode) hkind hrecord (hviews view hview)

namespace ClientState

variable {c : ClientState}

theorem mem_viewsOf (hc : c.tables.Keyed) {bufferId : BufferId} {nodeId : NodeId}
    {node : NodeRecord} {record : BufferViewRecord} (hnode : c.nodes[nodeId]? = some node)
    (hkind : node.kind = .bufferView) (hrecord : node.bufferView = some record)
    (hbuffer : record.bufferId = bufferId) : nodeId ∈ c.viewsOf bufferId := by
  refine List.mem_map.mpr ⟨(nodeId, node), List.mem_filter.mpr ⟨Table.mem_toList.mpr hnode, ?_⟩,
    hc.node_id hnode⟩
  simp [hkind, hrecord, hbuffer]

end ClientState

namespace InStep

variable {c : ClientState}

theorem empty : InStep .empty where
  keyed := ClientState.keyed_empty
  snapshots bufferId snapshot h := by simp [ClientState.empty] at h
  panes nodeId node record view hnode := by simp [ClientState.empty] at hnode

/-! ### News -/

theorem removeSession (h : InStep c) (sessionId : SessionId) :
    InStep (c.removeSession sessionId) where
  keyed := ClientState.keyed_removeSession h.keyed sessionId
  snapshots := h.snapshots
  panes nodeId := by
    refine (h.panes nodeId).congr ?_ ?_ rfl
    · intro node hnode
      rw [ClientState.removeSession_nodes] at hnode
      exact (Option.filter_eq_some_iff.mp hnode).1
    · intro view hview
      have hfilter := (Table.get?_filter c.viewState _ nodeId).symm.trans hview
      exact (Option.filter_eq_some_iff.mp hfilter).1

/-- Forgetting a buffer forgets the views of it with its snapshot. -/
theorem removeBuffer (h : InStep c) (bufferId : BufferId) : InStep (c.removeBuffer bufferId) where
  keyed := ClientState.keyed_removeBuffer h.keyed bufferId
  snapshots id snapshot hsnapshot := by
    have herase := (Table.get?_erase c.snapshots bufferId id).symm.trans hsnapshot
    split at herase
    next => cases herase
    next => exact h.snapshots id snapshot herase
  panes nodeId node record view hnode hkind hrecord hview := by
    have hfilter := (Table.get?_filter c.viewState _ nodeId).symm.trans hview
    obtain ⟨hold, hne⟩ := Option.filter_eq_some_iff.mp hfilter
    obtain ⟨hbuffer, haligned⟩ := h.panes nodeId node record view hnode hkind hrecord hold
    refine ⟨hbuffer, ?_⟩
    have herase := Table.get?_erase c.snapshots bufferId record.bufferId
    have hne' : view.bufferId ≠ bufferId := of_decide_eq_true hne
    rw [if_neg fun heq ↦ hne' (hbuffer.trans heq.symm)] at herase
    exact (congrArg (Aligned · view) herase).mpr haligned

theorem foldl_removeBuffer (h : InStep c) (ids : List BufferId) :
    InStep (ids.foldl ClientState.removeBuffer c) := by
  induction ids generalizing c with
  | nil => exact h
  | cons id ids ih => exact ih (h.removeBuffer id)

/-- Only the copy of the server's tables is changed, and no node. -/
theorem ofTables (h : InStep c) {c' : ClientState} (hkeyed : c'.tables.Keyed)
    (hnodes : c'.nodes = c.nodes) (hviews : c'.viewState = c.viewState)
    (hsnapshots : c'.snapshots = c.snapshots) : InStep c' where
  keyed := hkeyed
  snapshots := by
    rw [hsnapshots]
    exact h.snapshots
  panes nodeId := by
    refine (h.panes nodeId).congr ?_ ?_ hsnapshots
    · rw [hnodes]
      exact fun _ hnode ↦ hnode
    · rw [hviews]
      exact fun _ hview ↦ hview

theorem applyDetachedBuffers (h : InStep c) (buffers : List Protocol.BufferRecord) :
    InStep (c.applyDetachedBuffers buffers) :=
  (h.foldl_removeBuffer _).ofTables (ClientState.keyed_applyDetachedBuffers h.keyed buffers) rfl rfl
    rfl

theorem applyEvent (h : InStep c) (event : ServerEvent) : InStep (c.applyEvent event) := by
  have hkeyed := ClientState.keyed_applyEvent h.keyed event
  cases event with
  | sessionClosed sessionId => exact h.removeSession sessionId
  | sessionRenamed sessionId name =>
    refine h.ofTables hkeyed ?_ ?_ ?_ <;> simp only [ClientState.applyEvent] <;> split <;> rfl
  | focusChanged sessionId leaf floating =>
    refine h.ofTables hkeyed ?_ ?_ ?_ <;> simp only [ClientState.applyEvent] <;> split <;> rfl
  | _ => exact h.ofTables hkeyed rfl rfl rfl

theorem applySessionSnapshot (h : InStep c) {snapshot : SessionSnapshot}
    (hsent : ∃ S : ServerTables, S.Snapshot snapshot)
    (hlevel : ∀ node ∈ snapshot.nodes, (c.replaceSession snapshot).SyncLevel node.id) :
    InStep (c.applySessionSnapshot snapshot) := by
  obtain ⟨hnodes, hsnapshots, -, hviews⟩ := ClientState.syncViewStatesForNodes_spec false
    (c.replaceSession snapshot) (snapshot.nodes.map (·.id))
  constructor
  case keyed =>
    obtain ⟨S, hS⟩ := hsent
    exact ClientState.keyed_applySessionSnapshot h.keyed hS
  case snapshots =>
    intro bufferId live hlive
    exact h.snapshots bufferId live (hsnapshots ▸ hlive)
  case panes =>
    intro nodeId
    have hview := hviews nodeId
    by_cases hmem : nodeId ∈ snapshot.nodes.map (·.id)
    · rw [if_pos hmem] at hview
      obtain ⟨node, hnode, rfl⟩ := List.mem_map.mp hmem
      exact PaneInStep.synced (c := c.replaceSession snapshot) h.snapshots (hlevel node hnode)
        hnodes hsnapshots hview
    · -- A node of another session.
      rw [if_neg hmem] at hview
      refine (h.panes nodeId).congr ?_ ?_ hsnapshots
      · intro node hnode
        have hold : (c.replaceSession snapshot).nodes[nodeId]? = some node := hnodes ▸ hnode
        have hold' := (Table.get?_insertAll_of_notMem hmem _).symm.trans hold
        rw [Table.get?_filter] at hold'
        exact (Option.filter_eq_some_iff.mp hold').1
      · intro view hget
        have hfilter := (Table.get?_filter c.viewState _ nodeId).symm.trans (hview.symm.trans hget)
        exact (Option.filter_eq_some_iff.mp hfilter).1

theorem applyBufferSnapshot (h : InStep c) {snapshot : VisibleSnapshotResponse}
    (hsent : Numbered snapshot.viewportTopLine snapshot.lines ∧ snapshot.totalLines < 2 ^ 64)
    (hlevel : ∀ nodeId ∈ c.viewsOf snapshot.bufferId,
      (c.recordSnapshot snapshot).SyncLevel nodeId) :
    InStep (c.applyBufferSnapshot snapshot) := by
  obtain ⟨hnodes, hsnapshots, -, hviews⟩ := ClientState.syncViewStatesForNodes_spec true
    (c.recordSnapshot snapshot) (c.viewsOf snapshot.bufferId)
  have hinsert : ∀ bufferId : BufferId, (c.recordSnapshot snapshot).snapshots[bufferId]? =
      if snapshot.bufferId = bufferId then some snapshot else c.snapshots[bufferId]? :=
    fun bufferId ↦ Table.get?_insert c.snapshots snapshot.bufferId bufferId snapshot
  have hlive : ∀ (bufferId : BufferId) (live : VisibleSnapshotResponse),
      (c.recordSnapshot snapshot).snapshots[bufferId]? = some live →
      Numbered live.viewportTopLine live.lines ∧ live.totalLines < 2 ^ 64 := by
    intro bufferId live hget
    rw [hinsert] at hget
    split at hget
    next => exact Option.some.inj hget ▸ hsent
    next => exact h.snapshots bufferId live hget
  constructor
  case keyed => exact ClientState.keyed_applyBufferSnapshot h.keyed snapshot
  case snapshots =>
    intro bufferId live hget
    exact hlive bufferId live (hsnapshots ▸ hget)
  case panes =>
    intro nodeId
    have hview := hviews nodeId
    by_cases hmem : nodeId ∈ c.viewsOf snapshot.bufferId
    · rw [if_pos hmem] at hview
      exact PaneInStep.synced hlive (hlevel nodeId hmem) hnodes hsnapshots hview
    · -- The pane shows another buffer.
      rw [if_neg hmem] at hview
      intro node record view hnode hkind hrecord hget
      have hnode' : c.nodes[nodeId]? = some node := hnodes ▸ hnode
      obtain ⟨hbuffer, haligned⟩ :=
        h.panes nodeId node record view hnode' hkind hrecord (hview.symm.trans hget)
      refine ⟨hbuffer, ?_⟩
      have hsame : (c.applyBufferSnapshot snapshot).snapshots[record.bufferId]? =
          c.snapshots[record.bufferId]? := by
        refine (congrArg (·[record.bufferId]?) hsnapshots).trans ((hinsert _).trans (if_neg ?_))
        intro heq
        exact hmem (ClientState.mem_viewsOf h.keyed hnode' hkind hrecord heq.symm)
      rw [hsame]
      exact haligned

theorem applyNews (h : InStep c) {news : News} (hsent : (ViewStep.ofNews news).Sent)
    (hlevel : (ViewStep.ofNews news).Level c) : InStep (c.applyNews news) := by
  cases news with
  | event event => exact h.applyEvent event
  | sessionSnapshot snapshot => exact h.applySessionSnapshot hsent hlevel
  | sessionGone sessionId => exact h.removeSession sessionId
  | bufferRecord buffer => exact h.ofTables (h.keyed.insertBuffer buffer) rfl rfl rfl
  | visibleSnapshot snapshot => exact h.applyBufferSnapshot hsent hlevel
  | bufferGone bufferId => exact h.removeBuffer bufferId
  | detachedBuffers buffers => exact h.applyDetachedBuffers buffers

/-! ### The user -/

/-- One view is changed, and stays in step if it was. -/
theorem setView (h : InStep c) {nodeId : NodeId} {view view' : BufferViewState}
    (hview : c.viewState[nodeId]? = some view) {c' : ClientState} (htables : c'.tables = c.tables)
    (hsnapshots : c'.snapshots = c.snapshots)
    (hviews : c'.viewState = c.viewState.insert nodeId view')
    (hbuffer : view'.bufferId = view.bufferId)
    (haligned : Aligned c.snapshots[view.bufferId]? view →
      Aligned c.snapshots[view.bufferId]? view') : InStep c' where
  keyed := htables ▸ h.keyed
  snapshots := hsnapshots ▸ h.snapshots
  panes id := by
    have hnodes : c'.nodes = c.nodes := congrArg Tables.nodes htables
    have hget := Table.get?_insert c.viewState nodeId id view'
    by_cases hid : nodeId = id
    · subst hid
      intro node record other hnode hkind hrecord hother
      rw [hviews, hget, if_pos rfl] at hother
      obtain rfl : view' = other := Option.some.inj hother
      obtain ⟨hsame, hold⟩ := h.panes nodeId node record view (hnodes ▸ hnode) hkind hrecord hview
      rw [hsnapshots]
      rw [← hsame] at hold ⊢
      exact ⟨hbuffer, haligned hold⟩
    · rw [if_neg hid] at hget
      refine (h.panes id).congr ?_ ?_ hsnapshots
      · rw [hnodes]
        exact fun _ hnode ↦ hnode
      · rw [hviews, hget]
        exact fun _ hother ↦ hother

theorem setViewDrawnRows (h : InStep c) {nodeId : NodeId} {rows : UInt16}
    (hlevel : (ViewStep.drawnRows nodeId rows).Level c) :
    InStep (c.setViewDrawnRows nodeId rows) := by
  unfold ClientState.setViewDrawnRows
  split
  · exact h
  · dsimp only
    split
    next => exact h.ofTables h.keyed rfl rfl rfl
    next view hview =>
      obtain ⟨hshort, htop⟩ := hlevel view hview
      refine h.setView hview rfl rfl rfl rfl fun haligned ↦ ?_
      have hle : rows.toNat ≤ max view.totalLineCount rows.toNat := Nat.le_max_right _ _
      have hadd := bottomTopLine_add hle
      have hrows : rows.toNat < 2 ^ 16 := rows.toNat_lt
      have hbound := haligned.bound
      constructor
      case room =>
        intro _
        change (if view.followOutput then _ else _) + rows.toNat ≤ max view.totalLineCount rows.toNat
        split
        · omega
        · rw [clampTopLine]
          omega
      case bound =>
        change max view.totalLineCount rows.toNat < 2 ^ 64
        omega
      case numbered =>
        intro halt hready
        have hold := haligned.numbered halt hready
        have htop' := htop halt
        change Numbered (if view.followOutput then _ else _) (view.lines _)
        split
        next hfollow =>
          rw [if_pos hfollow] at htop'
          rcases htop' with hnil | heq
          · rw [hnil]
            exact Numbered.nil _
          · exact heq ▸ hold
        next hfollow =>
          rw [if_neg hfollow] at htop'
          rw [clampTopLine, Nat.min_eq_left htop']
          exact hold
      case short => exact hshort
      case screen => exact haligned.screen

theorem followOutputForView (h : InStep c) {nodeId : NodeId}
    (hlevel : (ViewStep.followOutput nodeId).Level c) :
    InStep (c.followOutputForView nodeId) := by
  unfold ClientState.followOutputForView
  split
  next => exact h
  next view hview =>
    split
    next => exact h
    next halt =>
      have halt' : view.alternateScreen = false := by simpa using halt
      obtain ⟨hnone, hlive⟩ := hlevel view hview halt'
      rw [ClientState.setViewFollowOutput, hview]
      refine h.setView hview rfl rfl rfl rfl fun haligned ↦ ?_
      have hroom := haligned.room halt'
      have hadd : bottomTopLine view.totalLineCount view.visibleLineCount +
          view.visibleLineCount.toNat = view.totalLineCount := bottomTopLine_add (by omega)
      -- The view is drawn from the snapshot alone.
      have hlines : ∀ followed : BufferViewState,
          followed.visibleLines = (if c.snapshotLines view.bufferId = [] then view.visibleLines
            else c.snapshotLines view.bufferId) →
          followed.lines c.snapshots[view.bufferId]? = c.snapshotLines view.bufferId := by
        intro followed hfollowed
        refine lines_of_snapshotLines (hfollowed.trans ?_)
        split
        next hnil => exact (hnone hnil).trans hnil.symm
        next => rfl
      have hnumbered : Numbered (bottomTopLine view.totalLineCount view.visibleLineCount)
            (c.snapshotLines view.bufferId) ∧
          significant (c.snapshotLines view.bufferId) ≤ view.visibleLineCount.toNat := by
        rcases hsnapshot : c.snapshots[view.bufferId]? with _ | live
        · rw [ClientState.snapshotLines, hsnapshot]
          exact ⟨Numbered.nil _, Nat.zero_le _⟩
        · rw [ClientState.snapshotLines, hsnapshot]
          change Numbered _ live.lines ∧ significant live.lines ≤ _
          by_cases hnil : live.lines = []
          · rw [hnil]
            exact ⟨Numbered.nil _, Nat.zero_le _⟩
          · obtain ⟨htop, hshort⟩ := hlive live hsnapshot hnil
            exact ⟨htop ▸ (h.snapshots _ live hsnapshot).1, hshort⟩
      constructor
      case room => exact fun _ ↦ Nat.le_of_eq hadd
      case bound => exact haligned.bound
      case numbered =>
        intro _ _
        rw [hlines _ rfl]
        exact hnumbered.1
      case short =>
        intro _
        rw [hlines _ rfl]
        exact hnumbered.2
      case screen => exact fun halt'' ↦ absurd halt'' (by simpa using halt')

theorem fetchViewSlice (h : InStep c) {nodeId : NodeId} {scrollTopLine : ℕ}
    {response : ScrollbackSlice}
    (hsent : (ViewStep.slice nodeId scrollTopLine response).Sent)
    (hlevel : (ViewStep.slice nodeId scrollTopLine response).Level c) :
    InStep (c.fetchViewSlice nodeId scrollTopLine response) := by
  unfold ClientState.fetchViewSlice
  split
  next => exact h
  next view hview =>
    split
    next => exact h
    next =>
      obtain ⟨halt, hlines, hlength, hstart⟩ := hlevel view hview
      have hmid : (c.viewState.insert nodeId { view with
          totalLineCount := max response.totalLines view.visibleLineCount.toNat })[nodeId]? =
          some { view with
            totalLineCount := max response.totalLines view.visibleLineCount.toNat } := by
        rw [Table.get?_insert, if_pos rfl]
      rw [ClientState.setViewVisibleLines, hmid]
      refine h.setView hview rfl rfl (Table.insert_insert_self _ _ _ _) rfl fun haligned ↦ ?_
      have hadd := bottomTopLine_add
        (Nat.le_max_right response.totalLines view.visibleLineCount.toNat)
      have hrows : view.visibleLineCount.toNat < 2 ^ 16 := view.visibleLineCount.toNat_lt
      have htotal := hsent.2
      have hfetched : ∀ fetched : BufferViewState, fetched.visibleLines = response.lines →
          fetched.lines c.snapshots[view.bufferId]? = response.lines := by
        intro fetched hfetched
        rw [BufferViewState.lines, hfetched, if_neg hlines]
      constructor
      case room =>
        intro _
        change clampTopLine _ _ _ + view.visibleLineCount.toNat ≤ max _ _
        rw [clampTopLine]
        dsimp only
        omega
      case bound =>
        change max response.totalLines view.visibleLineCount.toNat < 2 ^ 64
        omega
      case numbered =>
        intro _ _
        rw [hfetched _ rfl]
        exact hstart ▸ hsent.1
      case short =>
        intro _
        rw [hfetched _ rfl]
        exact Nat.le_trans (significant_le_length _) hlength
      case screen => exact fun halt' ↦ absurd halt' (by simp [halt])

theorem setOverlay (h : InStep c) (nodeId : NodeId) (overlay : Overlay) (freeze : Bool) :
    InStep (c.setOverlay nodeId overlay freeze) := by
  unfold ClientState.setOverlay
  split
  next => exact h
  next view hview =>
    refine h.setView hview rfl rfl rfl rfl fun haligned ↦ ?_
    have hfollow : (view.followOutput && !freeze) = true → view.followOutput = true := by
      intro hboth
      exact (Bool.and_eq_true _ _ ▸ hboth).1
    constructor
    case room => exact haligned.room
    case bound => exact haligned.bound
    case numbered =>
      intro halt hready
      refine haligned.numbered halt ?_
      rcases hready with hscreen | hfollowing | hheld
      · exact .inl hscreen
      · exact .inr (.inl (hfollow hfollowing))
      · exact .inr (.inr hheld)
    case short => exact fun hfollowing ↦ haligned.short (hfollow hfollowing)
    case screen => exact haligned.screen

theorem viewStep (h : InStep c) {step : ViewStep} (hsent : step.Sent) (hlevel : step.Level c) :
    InStep (c.viewStep step) := by
  cases step with
  | ofNews news => exact h.applyNews hsent hlevel
  | drawnRows nodeId rows => exact h.setViewDrawnRows hlevel
  | followOutput nodeId => exact h.followOutputForView hlevel
  | slice nodeId scrollTopLine response => exact h.fetchViewSlice hsent hlevel
  | overlay nodeId overlay freeze => exact h.setOverlay nodeId overlay freeze

end InStep

theorem LevelReachable.inStep {c : ClientState} (h : LevelReachable c) : InStep c := by
  induction h with
  | empty => exact InStep.empty
  | step _ hsent hlevel ih => exact ih.viewStep hsent hlevel

/-- In every run of level steps, every pane that is drawn as tall as its view has rows shows on each
row the line that the mouse, the highlights and the cursor take the row to show. -/
theorem rowsAgree_of_levelReachable {c : ClientState} (hc : LevelReachable c) {leaf : Leaf}
    {view : BufferViewState} (hshows : Shows c leaf view)
    (hrows : view.visibleLineCount = leaf.height) : RowsAgree c leaf view := by
  have hstep := hc.inStep
  obtain ⟨node, record, hnode, hkind, hrecord, hbuffer⟩ := hshows.node
  obtain ⟨-, haligned⟩ := hstep.panes leaf.nodeId node record view hnode hkind hrecord
    hshows.viewState
  rw [hbuffer] at haligned
  exact haligned.rowsAgree hshows hrows fun live hlive ↦ (hstep.snapshots _ live hlive).1

/-! ### A pane and a terminal -/

/-- A terminal that shows the lines from `top` on. -/
def terminal (rows : UInt16) (top total : ℕ) (lines : List SnapshotLine) :
    VisibleSnapshotResponse :=
  ⟨1, 1, .new 80 rows, lines, none, none, top, total, false, none⟩

/-- The pane, drawn in so many rows. -/
def paneOf (rows : UInt16) : Leaf := ⟨1, 1, 80, rows, true⟩

/-- A client that knows the pane. -/
def knowing : ClientState :=
  ClientState.empty.viewStep (.ofNews (.sessionSnapshot ((oneServer 1).snapshotOf oneSession)))

/-- Three lines in a pane of two rows. -/
def tooTall : ClientState :=
  (knowing.viewStep (.drawnRows 1 2)).viewStep
    (.ofNews (.visibleSnapshot (terminal 3 0 3 [⟨"a", 0⟩, ⟨"b", 1⟩, ⟨"c", 2⟩])))

/-- Another client has sized the terminal to three rows. The pane of two rows shows the last two
lines; a press on its first row is given line 1, which is drawn there, but highlights take that row
to be line 2. -/
theorem highlights_off_by_the_lines_skipped :
    ViewReachable tooTall ∧
      ∃ view, Shows tooTall (paneOf 2) view ∧ view.visibleLineCount = (paneOf 2).height ∧
        tooTall.drawnLine (paneOf 2) 0 = some ⟨"b", 1⟩ ∧
        tooTall.pressLine (paneOf 2) 0 = some 1 ∧ tooTall.selectionLine (paneOf 2) 0 = 2 ∧
        ¬ RowsAgree tooTall (paneOf 2) view := by
  have hsent : ∃ S : ServerTables, S.Snapshot ((oneServer 1).snapshotOf oneSession) :=
    ⟨oneServer 1, (oneServer_snapshots 1).each _ List.mem_cons_self⟩
  have hnumbered : Numbered 0 [⟨"a", 0⟩, ⟨"b", 1⟩, ⟨"c", 2⟩] := by
    intro i line hline
    match i with
    | 0 => obtain rfl := Option.some.inj hline; rfl
    | 1 => obtain rfl := Option.some.inj hline; rfl
    | 2 => obtain rfl := Option.some.inj hline; rfl
    | i + 3 => cases hline
  refine ⟨.step (.step (.step .empty hsent) trivial) ⟨hnumbered, by decide⟩, _,
    ⟨⟨onePane 1, _, rfl, rfl, rfl, rfl⟩, rfl, .inr (.inl rfl)⟩, rfl, rfl, rfl, rfl, ?_⟩
  intro hagree
  have hrow : tooTall.selectionLine (paneOf 2) 0 = 1 := hagree.drawn rfl 0 ⟨"b", 1⟩ rfl
  cases hrow

/-- The terminal has the pane's height. -/
def fitting : ClientState :=
  knowing.viewStep (.ofNews (.visibleSnapshot (terminal 24 6 30 [⟨"a", 6⟩, ⟨"b", 7⟩])))

theorem levelReachable_fitting : LevelReachable fitting := by
  have hsent : ∃ S : ServerTables, S.Snapshot ((oneServer 1).snapshotOf oneSession) :=
    ⟨oneServer 1, (oneServer_snapshots 1).each _ List.mem_cons_self⟩
  have hnumbered : Numbered 6 [⟨"a", 6⟩, ⟨"b", 7⟩] := by
    intro i line hline
    match i with
    | 0 => obtain rfl := Option.some.inj hline; rfl
    | 1 => obtain rfl := Option.some.inj hline; rfl
    | i + 2 => cases hline
  have hknowing : LevelReachable knowing := by
    refine .step .empty hsent ?_
    intro node _ node' record live _ _ hlive
    simp [ClientState.replaceSession, ClientState.empty] at hlive
  refine .step hknowing ⟨hnumbered, by decide⟩ ?_
  intro nodeId hnode node record live hget hrecord hlive
  obtain rfl : nodeId = 1 := List.mem_singleton.mp hnode
  obtain rfl : onePane 1 = node := Option.some.inj hget
  obtain rfl : _ = record := Option.some.inj hrecord
  obtain rfl : _ = live := Option.some.inj hlive
  refine ⟨⟨fun _ ↦ rfl, by decide⟩, ?_⟩
  intro view hview hfollow
  obtain rfl : _ = view := Option.some.inj hview
  cases hfollow

/-- The pane's rows and the lines of the terminal agree. -/
theorem rowsAgree_fitting :
    ∃ view, fitting.viewState[(1 : NodeId)]? = some view ∧ RowsAgree fitting (paneOf 24) view :=
  ⟨_, rfl, rowsAgree_of_levelReachable levelReachable_fitting
    ⟨⟨onePane 1, _, rfl, rfl, rfl, rfl⟩, rfl, .inr (.inl rfl)⟩ rfl⟩

end Embers.Client
