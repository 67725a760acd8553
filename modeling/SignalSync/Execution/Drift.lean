import Mathlib.Data.List.ReduceOption
import SignalSync.Activity.Pages
import SignalSync.Execution.Snapshot
import SignalSync.Execution.Sweep
import SignalSync.Library.Except
import SignalSync.Library.Run

/-!
# Drift from the broker

`reconcile_copied_trades` with what it tells the user: a trade that the snapshot changes is
counted, and an event is written of it. The numbers are compared as the broker has them, and
stored as the columns hold them.

* `sweep_committed`: what a sweep that is committed has done to each trade;
* `sweep_refines`: it stores and counts what the sweep of snapshots does;
* `drift_iff`: a position is drift in every later sweep unless the columns hold its numbers.
-/

namespace SignalSync

open Library

/-! ## The sweep -/

structure TerminalView where
  positions : List SnapshotItem
  orders : List SnapshotItem

/-- The dictionaries `before` and `after`; the texts are known by their values. -/
structure SyncedValues where
  lifecycleState : LifecycleState
  currentVolume : Option ℚ
  stopLoss : Option ℚ
  takeProfit : Option ℚ
deriving DecidableEq

def SessionTrade.values (trade : SessionTrade) : SyncedValues where
  lifecycleState := trade.lifecycleState
  currentVolume := trade.currentVolume
  stopLoss := trade.stopLoss
  takeProfit := trade.takeProfit

/-- The event of a sweep, the parts of its `correlation_id` kept apart. -/
structure DriftEvent where
  userId : Uuid
  routeId : Uuid
  sourceId : Uuid
  connectionId : Option Uuid
  correlationId : Uuid × Nat
  action : String := "reconciliation.drift"
  title : String
  body : String
  level : CopyActivityLevel
  parsedDetails : SyncedValues
  brokerDetails : SyncedValues
deriving DecidableEq

/-- A row of the query with its route. -/
structure RoutedRow extends SweepRow where
  route : CopyRoute

/-- The turn of a row in the loop. -/
structure Turn where
  row : RoutedRow
  trade : SessionTrade
  changed : Bool

namespace Turn

variable (turn : Turn) (now : Time)

def before : SyncedValues := (turn.row.trade.load none).values

def title : String :=
  if turn.before.lifecycleState ≠ turn.trade.lifecycleState then
    if turn.trade.lifecycleState = .closed then turn.row.trade.brokerSymbol ++ " position closed outside SignalSync"
    else turn.row.trade.brokerSymbol ++ " broker status changed"
  else turn.row.trade.brokerSymbol ++ " broker changes synchronized"

def body : String :=
  if turn.before.lifecycleState ≠ turn.trade.lifecycleState then "The local copy record was updated to match the trading account."
  else "Trade size, stop loss, or take profit changed directly at the broker. SignalSync updated its local record."

def event : DriftEvent where
  userId := turn.row.route.userId
  routeId := turn.row.trade.routeId
  sourceId := turn.row.route.sourceId
  connectionId := turn.row.route.targetConnectionId
  correlationId := (turn.row.trade.id, now / seconds 1)
  title := turn.title
  body := turn.body
  level := if turn.before.lifecycleState ≠ turn.trade.lifecycleState then .warning else .info
  parsedDetails := turn.before
  brokerDetails := turn.trade.values

end Turn

namespace Database

def routedRow (db : Database) (e : Uuid × CopiedTrade) : Option RoutedRow := do
  let row ← db.sweepRow e
  let route ← db.routes.get? e.2.routeId
  return { row with route }

def routedRows (db : Database) : List RoutedRow :=
  (db.trades.select fun _ trade => trade.lifecycleState.isActive).filterMap db.routedRow

end Database

/-- `Numeric(12, 4)` and `Numeric(20, 8)` have eight and twelve digits before the point. -/
def CopiedTrade.fits (row : CopiedTrade) : Bool :=
  row.currentVolume.all (·.1.units < 10 ^ 12) && (row.stopLoss.all (·.units.natAbs < 10 ^ 20) && row.takeProfit.all (·.units.natAbs < 10 ^ 20))

/-- The row as it is stored; a number that is too large for its column is refused. -/
def CopiedTrade.commit (row : CopiedTrade) (trade : SessionTrade) : Option CopiedTrade :=
  if (row.written trade).fits then some (row.written trade) else none

/-- `db.commit`. -/
def commitTurns (trades : Table Uuid CopiedTrade) (turns : List Turn) : Option (Table Uuid CopiedTrade) :=
  turns.foldlM (fun trades turn => (turn.row.trade.commit turn.trade).map fun row => trades.modify turn.row.id fun _ => row) trades

structure SweepReport where
  updated : Nat
  events : List DriftEvent

/-- When a sweep takes place, and the order the database returns its rows in. -/
structure SweepCall where
  now : Time
  order : List RoutedRow → List RoutedRow
  order_perm : ∀ rows, (order rows).Perm rows

section

variable [Python] [Unicode] (text : ClientOrderId → String) (views : Uuid → Except PyException TerminalView)

def RoutedRow.turn (row : RoutedRow) (view : TerminalView) (now : Time) : Turn :=
  let (trade, changed) :=
    (row.trade.load none).applyBrokerSnapshot view.positions view.orders now (some (text row.intent.clientOrderId))
  { row, trade, changed }

/-- The turn of a row; one without an account is passed over. -/
def reconcileTurn (now : Time) (row : RoutedRow) : Except PyException (Option Turn) :=
  if row.hasAccount then (views row.connectionId).map fun view => some (row.turn text view now) else .ok none

/-- `reconcile_copied_trades`; an exception leaves the database as it was. -/
def reconcileSweep (sweep : SweepCall) (db : Database) : Except PyException (Database × SweepReport) :=
  match (sweep.order db.routedRows).mapM (reconcileTurn text views sweep.now) with
  | .error e => .error e
  | .ok turns =>
    let turns := turns.reduceOption
    match commitTurns db.trades turns with
    | none => .error { name := "DataError" }
    | some trades =>
      let drifted := turns.filter (·.changed)
      .ok ({ db with trades }, { updated := drifted.length, events := drifted.map (·.event sweep.now) })

/-- A sweep that is committed. -/
def sweepStep (db : Database) (sweep : SweepCall) : Option Database := (reconcileSweep text views sweep db).toOption.map Prod.fst

/-- A sweep now reports no change of the trade, and writes no event of it. -/
def QuietOn (id : Uuid) (db : Database) : Prop :=
  ∀ now, ∀ row ∈ db.routedRows, row.id = id → ∀ turn, reconcileTurn text views now row = .ok (some turn) → turn.changed = false

end

/-! ## What a committed sweep has done -/

theorem routedRow_eq_some {db : Database} {e : Uuid × CopiedTrade} {row : RoutedRow} (h : db.routedRow e = some row) :
    db.sweepRow e = some row.toSweepRow := by
  simp only [Database.routedRow, bind, Option.bind_eq_some_iff, pure, Option.some.injEq] at h
  obtain ⟨row', hrow, route, -, rfl⟩ := h
  exact hrow

/-- The route is one of the joins. -/
theorem toSweepRow_routedRow (db : Database) (e : Uuid × CopiedTrade) : (db.routedRow e).map RoutedRow.toSweepRow = db.sweepRow e := by
  cases hrow : db.sweepRow e with
  | none => simp [Database.routedRow, hrow]
  | some row =>
    have hjoins := hrow
    simp only [Database.sweepRow, bind, Option.bind_eq_some_iff] at hjoins
    obtain ⟨route, hroute, -⟩ := hjoins
    simp [Database.routedRow, hrow, hroute]

theorem toSweepRow_routedRows (db : Database) : db.routedRows.map RoutedRow.toSweepRow = db.sweepRows := by
  rw [Database.routedRows, List.map_filterMap, Database.sweepRows]
  exact List.filterMap_congr fun e _ => toSweepRow_routedRow db e

theorem nodup_routedRows (db : Database) : (db.routedRows.map fun row => row.id).Nodup := by
  have hnodup := nodup_sweepRows db
  rwa [← toSweepRow_routedRows, List.map_map] at hnodup

theorem mem_routedRows {db : Database} {row : RoutedRow} :
    row ∈ db.routedRows ↔ db.trades.get? row.id = some row.trade ∧ row.trade.lifecycleState.isActive ∧
      db.routedRow (row.id, row.trade) = some row := by
  rw [Database.routedRows, List.mem_filterMap]
  constructor
  · rintro ⟨e, he, hrow⟩
    obtain ⟨hid, htrade, -⟩ := sweepRow_eq_some (routedRow_eq_some hrow)
    obtain ⟨hget, hactive⟩ := Table.mem_select.1 he
    rw [hid, htrade]
    exact ⟨hget, hactive, hrow⟩
  · rintro ⟨hget, hactive, hrow⟩
    exact ⟨_, Table.mem_select.2 ⟨hget, hactive⟩, hrow⟩

/-- Every trade of a turn is stored as its turn left it. -/
theorem get?_commitTurns {trades trades' : Table Uuid CopiedTrade} {turns : List Turn} (h : commitTurns trades turns = some trades')
    (hnodup : (turns.map fun turn => turn.row.id).Nodup) :
    (∀ turn ∈ turns, (trades.get? turn.row.id).isSome →
      ∃ stored, turn.row.trade.commit turn.trade = some stored ∧ trades'.get? turn.row.id = some stored) ∧
      ∀ id, id ∉ turns.map (fun turn => turn.row.id) → trades'.get? id = trades.get? id := by
  induction turns generalizing trades with
  | nil =>
    cases h
    exact ⟨fun turn hturn => (List.not_mem_nil hturn).elim, fun _ _ => rfl⟩
  | cons turn turns ih =>
    rw [List.map_cons, List.nodup_cons] at hnodup
    obtain ⟨hnew, hnodup⟩ := hnodup
    rw [commitTurns, List.foldlM_cons] at h
    cases hcommit : turn.row.trade.commit turn.trade with
    | none =>
      rw [hcommit] at h
      cases h
    | some row =>
      rw [hcommit] at h
      have hrest : commitTurns (trades.modify turn.row.id fun _ => row) turns = some trades' := h
      obtain ⟨hall, hrest⟩ := ih hrest hnodup
      refine ⟨List.forall_mem_cons.mpr ⟨fun hsome => ?_, fun other hother hsome => ?_⟩, fun id hid => ?_⟩
      · obtain ⟨stored, hstored⟩ := Option.isSome_iff_exists.mp hsome
        refine ⟨row, hcommit, ?_⟩
        rw [hrest _ hnew, Table.get?_modify_self, hstored]
        rfl
      · have hne : other.row.id ≠ turn.row.id := fun heq => hnew (heq ▸ List.mem_map_of_mem hother)
        refine hall other hother ?_
        rwa [Table.get?_modify_of_ne _ hne]
      · rw [List.map_cons, List.mem_cons, not_or] at hid
        rw [hrest id hid.2, Table.get?_modify_of_ne _ hid.1]

section

variable [Python] [Unicode] {text : ClientOrderId → String} {views : Uuid → Except PyException TerminalView} {call : SweepCall}
  {db db' : Database} {report : SweepReport} {row : RoutedRow} {view : TerminalView}

theorem row_reconcileTurn {now : Time} {turn : Turn} (h : reconcileTurn text views now row = .ok (some turn)) :
    ∃ view, row.hasAccount = true ∧ views row.connectionId = .ok view ∧ turn = row.turn text view now := by
  unfold reconcileTurn at h
  split at h
  · next haccount =>
    cases hview : views row.connectionId with
    | error e =>
      rw [hview] at h
      cases h
    | ok view =>
      rw [hview] at h
      cases h
      exact ⟨view, haccount, rfl, rfl⟩
  · cases h

/-- The turns of the rows, each row's among them. -/
theorem turns_of_ok {now : Time} {rows : List RoutedRow} {turns : List (Option Turn)}
    (h : List.Forall₂ (fun row turn => reconcileTurn text views now row = .ok turn) rows turns) :
    (turns.reduceOption.map fun turn => turn.row.id).Sublist (rows.map fun row => row.id) ∧
      ∀ row ∈ rows, ∀ turn, reconcileTurn text views now row = .ok (some turn) → turn ∈ turns.reduceOption := by
  induction h with
  | nil => exact ⟨.slnil, fun row hrow => (List.not_mem_nil hrow).elim⟩
  | @cons row turn rows turns hturn _ ih =>
    cases turn with
    | none =>
      rw [List.reduceOption_cons_of_none]
      refine ⟨ih.1.cons _, List.forall_mem_cons.mpr ⟨fun turn hsome => ?_, ih.2⟩⟩
      cases hturn.symm.trans hsome
    | some turn =>
      obtain ⟨view, -, -, rfl⟩ := row_reconcileTurn hturn
      rw [List.reduceOption_cons_of_some]
      refine ⟨ih.1.cons_cons _, List.forall_mem_cons.mpr ⟨fun other hsome => ?_, fun row hrow other hsome => ?_⟩⟩
      · cases hturn.symm.trans hsome
        exact List.mem_cons_self
      · exact List.mem_cons_of_mem _ (ih.2 row hrow other hsome)

/-- A sweep that is committed has stored every trade as its turn left it, and touched no other
table. -/
theorem sweep_committed (h : reconcileSweep text views call db = .ok (db', report)) :
    db' = { db with trades := db'.trades } ∧
      ∀ row ∈ db.routedRows, row.hasAccount → ∀ view, views row.connectionId = .ok view →
        ∃ stored, row.trade.commit (row.turn text view call.now).trade = some stored ∧ db'.trades.get? row.id = some stored := by
  unfold reconcileSweep at h
  split at h
  · cases h
  · next turns hturns =>
    dsimp only at h
    split at h
    · cases h
    · next trades htrades =>
      cases h
      refine ⟨rfl, fun row hrow haccount view hview => ?_⟩
      have hperm := call.order_perm db.routedRows
      obtain ⟨hsub, hall⟩ := turns_of_ok (mapM_eq_ok hturns)
      have hnodup := hsub.nodup ((hperm.map _).nodup_iff.mpr (nodup_routedRows db))
      have hturn : reconcileTurn text views call.now row = .ok (some (row.turn text view call.now)) := by
        rw [reconcileTurn, if_pos haccount, hview]
        rfl
      refine (get?_commitTurns htrades hnodup).1 _ (hall row (hperm.mem_iff.mpr hrow) _ hturn) ?_
      show (db.trades.get? row.id).isSome
      rw [(mem_routedRows.1 hrow).1]
      rfl

/-- What is stored is what the sweep without events makes of the trade, and the trade is counted
where it is counted there. -/
theorem sweep_refines (h : reconcileSweep text views call db = .ok (db', report)) (hrow : row ∈ db.routedRows)
    (haccount : row.hasAccount) (hview : views row.connectionId = .ok view) {snapshot : BrokerSnapshot}
    (hpositions : List.Forall₂ (SnapshotItem.Shows text) view.positions snapshot.positions)
    (horders : view.orders.map SnapshotItem.idText = snapshot.orders.map pyStr) :
    db'.trades.get? row.id = some (row.applied snapshot).1 ∧ (row.turn text view call.now).changed = (row.applied snapshot).2 := by
  obtain ⟨stored, hcommit, hget⟩ := (sweep_committed h).2 row hrow haccount view hview
  have hrefines : (row.trade.written (row.turn text view call.now).trade, (row.turn text view call.now).changed) = row.applied snapshot :=
    congrArg (fun result : SyncedTrade × Bool => (result.1.toCopiedTrade, result.2))
      (applyBrokerSnapshot_refines row.trade none call.now row.intent.clientOrderId hpositions horders)
  rw [← hrefines]
  unfold CopiedTrade.commit at hcommit
  split at hcommit
  · cases hcommit
    exact ⟨hget, rfl⟩
  · cases hcommit

theorem sweepStep_eq_some : sweepStep text views db call = some db' ↔ ∃ report, reconcileSweep text views call db = .ok (db', report) := by
  unfold sweepStep
  cases reconcileSweep text views call db with
  | error e => exact iff_of_false (fun h => nomatch h) fun ⟨_, h⟩ => nomatch h
  | ok result =>
    constructor
    · intro h
      cases h
      exact ⟨result.2, rfl⟩
    · rintro ⟨report, h⟩
      cases h
      rfl

/-! ## Later sweeps -/

/-- The columns hold the numbers of the position as they are. -/
structure SnapshotItem.FitsColumns (position : SnapshotItem) : Prop where
  volume : ∀ v, position.volume = some v → ∃ n : Numeric 4, n.toRat = v
  stopLoss : ∀ p, position.stopLoss = some p → ∃ n : Price, n.toRat = p
  takeProfit : ∀ p, position.takeProfit = some p → ∃ n : Price, n.toRat = p

/-- The position is stored, each number rounded to its column. -/
structure CopiedTrade.SyncedWith (trade : CopiedTrade) (position : SnapshotItem) : Prop where
  volume : ∀ v, position.volume = some v → trade.currentVolume = some (.ofRat (max 0 v) (le_max_left _ _))
  stopLoss : trade.stopLoss = position.stopLoss.map (Numeric.ofRat 8)
  takeProfit : trade.takeProfit = position.takeProfit.map (Numeric.ofRat 8)

/-- An open trade with its position. -/
structure RoutedRow.ShownBy (row : RoutedRow) (db : Database) (view : TerminalView) (position : SnapshotItem) : Prop where
  mem : row ∈ db.routedRows
  account : row.hasAccount
  isOpen : row.trade.lifecycleState = .open
  shown : (view.positions.find? fun item : SnapshotItem => item.idText = pyStr row.trade.brokerPositionId) = some position

variable {position : SnapshotItem} {trade : CopiedTrade} {time : Option Time}

omit [Python] [Unicode] in
theorem toRat_ofRat_iff {s : Nat} {q : ℚ} : (Numeric.ofRat s q).toRat = q ↔ ∃ n : Numeric s, n.toRat = q :=
  ⟨fun h => ⟨_, h⟩, fun ⟨n, h⟩ => by rw [← h, Numeric.ofRat_toRat]⟩

/-- Against the stored numbers, the position's differ where a column does not hold them. -/
theorem differs_synced (h : trade.SyncedWith position) : (trade.load time).differs position = false ↔ position.FitsColumns := by
  have hprice (price : Option ℚ) :
      (price.map (Numeric.ofRat 8)).map Numeric.toRat = price ↔ ∀ p, price = some p → ∃ n : Price, n.toRat = p := by
    cases price with
    | none => simp
    | some q =>
      simp only [Option.map_some, Option.some.injEq, forall_eq']
      exact toRat_ofRat_iff
  have hvolume : (∀ v, position.volume = some v → (trade.load time).currentVolume = some v) ↔
      ∀ v, position.volume = some v → ∃ n : Numeric 4, n.toRat = v := by
    refine forall₂_congr fun v hv => ?_
    have hnonneg : 0 ≤ v := by simpa using (Option.filter_eq_some_iff.mp hv).2
    have hcolumn : (Lots.ofRat (max 0 v) (le_max_left _ _)).toRat = (Numeric.ofRat 4 v).toRat :=
      congrArg (fun q => (Numeric.ofRat 4 q).toRat) (max_eq_right hnonneg)
    rw [CopiedTrade.load, h.volume v hv, Option.map_some, Option.some.injEq, hcolumn]
    exact toRat_ofRat_iff
  rw [SessionTrade.differs_eq_false, hvolume, CopiedTrade.load, h.stopLoss, h.takeProfit, hprice, hprice]
  constructor
  · rintro ⟨hv, hsl, htp⟩
    exact ⟨hv, hsl, htp⟩
  · exact fun h => ⟨h.volume, h.stopLoss, h.takeProfit⟩

theorem turn_shown (h : row.ShownBy db view position) (now : Time) :
    row.turn text view now = {
      row := row
      trade := { (row.trade.load none).assign position with brokerSyncedAt := some now }
      changed := (row.trade.load none).differs position } := by
  have hopen : (row.trade.load none).lifecycleState = .open := h.isOpen
  have hshown : (view.positions.find? fun item : SnapshotItem => item.idText = pyStr (row.trade.load none).brokerPositionId) = some position :=
    h.shown
  simp only [RoutedRow.turn, SessionTrade.applyBrokerSnapshot, hopen, hshown]

omit [Python] [Unicode] in
/-- The joins of a row do not depend on what is stored of the trade. -/
theorem routedRow_stored {id : Uuid} (stored : CopiedTrade) (h : db.routedRow (id, trade) = some row)
    (hroute : stored.routeId = trade.routeId) : db.routedRow (id, stored) = some { row with trade := stored } := by
  simp only [Database.routedRow, Database.sweepRow, bind, Option.bind_eq_some_iff, pure, Option.some.injEq] at h ⊢
  obtain ⟨_, ⟨route, hget, connectionId, htarget, connection, hconnection, intent, hintent, rfl⟩, _, hsame, rfl⟩ := h
  rw [hroute]
  exact ⟨_, ⟨route, hget, connectionId, htarget, connection, hconnection, intent, hintent, rfl⟩, _, hsame, rfl⟩

/-- A committed sweep stores the position a trade is shown by, and the trade is shown by it again. -/
theorem shown_step (h : reconcileSweep text views call db = .ok (db', report)) (hrow : row.ShownBy db view position)
    (hview : views row.connectionId = .ok view) :
    ∃ row' : RoutedRow, row'.ShownBy db' view position ∧ row'.trade.SyncedWith position ∧ row'.id = row.id ∧
      row'.connectionId = row.connectionId := by
  obtain ⟨htables, hrows⟩ := sweep_committed h
  obtain ⟨stored, hcommit, hget⟩ := hrows row hrow.mem hrow.account view hview
  rw [turn_shown hrow, CopiedTrade.commit] at hcommit
  split at hcommit
  · cases hcommit
    generalize hstored : row.trade.written _ = stored at hget
    have hopen : stored.lifecycleState = .open := by
      rw [← hstored]
      exact hrow.isOpen
    have hjoins := routedRow_stored stored (mem_routedRows.1 hrow.mem).2.2 (by rw [← hstored]; rfl)
    rw [htables]
    refine ⟨{ row with trade := stored }, ⟨mem_routedRows.2 ⟨hget, by rw [hopen]; rfl, hjoins⟩, hrow.account, hopen, ?_⟩, ?_, rfl, rfl⟩
    · rw [← hstored]
      exact hrow.shown
    · rw [← hstored]
      refine ⟨fun v hv => ?_, rfl, rfl⟩
      simp only [CopiedTrade.written, SessionTrade.assign, hv]
      rfl
  · cases hcommit

/-- So it is in every later sweep. -/
theorem shown_later (h : reconcileSweep text views call db = .ok (db', report)) (hrow : row.ShownBy db view position)
    (hview : views row.connectionId = .ok view) {later : Database} (hlater : Reach (sweepStep text views) always db' later) :
    ∃ row' : RoutedRow, row'.ShownBy later view position ∧ row'.trade.SyncedWith position ∧ row'.id = row.id ∧
      row'.connectionId = row.connectionId := by
  refine hlater.invariant (P := fun later => ∃ row' : RoutedRow, row'.ShownBy later view position ∧ row'.trade.SyncedWith position ∧
    row'.id = row.id ∧ row'.connectionId = row.connectionId) (shown_step h hrow hview) ?_
  rintro db₁ call db₂ ⟨row₁, hrow₁, -, hid, hconnection⟩ - hstep
  obtain ⟨report, hsweep⟩ := sweepStep_eq_some.1 hstep
  obtain ⟨row₂, hrow₂, hsynced, hid₂, hconnection₂⟩ := shown_step hsweep hrow₁ (hconnection ▸ hview)
  exact ⟨row₂, hrow₂, hsynced, hid₂.trans hid, hconnection₂.trans hconnection⟩

/-- In every later sweep the trade is changed again, unless the columns hold the position. -/
theorem changed_later (h : reconcileSweep text views call db = .ok (db', report)) (hrow : row.ShownBy db view position)
    (hview : views row.connectionId = .ok view) {later : Database} (hlater : Reach (sweepStep text views) always db' later) (now : Time) :
    ∃ row' ∈ later.routedRows, row'.id = row.id ∧ ∃ turn, reconcileTurn text views now row' = .ok (some turn) ∧
      (turn.changed = false ↔ position.FitsColumns) := by
  obtain ⟨row', hrow', hsynced, hid, hconnection⟩ := shown_later h hrow hview hlater
  refine ⟨row', hrow'.mem, hid, row'.turn text view now, ?_, ?_⟩
  · rw [reconcileTurn, if_pos hrow'.account, hconnection, hview]
    rfl
  · rw [turn_shown hrow']
    exact differs_synced hsynced

/-- After a committed sweep, later ones with the same snapshot are quiet on an open trade iff the
columns hold the numbers of its position. -/
theorem drift_iff (h : reconcileSweep text views call db = .ok (db', report)) (hrow : row ∈ db.routedRows) (haccount : row.hasAccount)
    (hopen : row.trade.lifecycleState = .open) (hview : views row.connectionId = .ok view)
    (hshown : (view.positions.find? fun item : SnapshotItem => item.idText = pyStr row.trade.brokerPositionId) = some position) :
    (∀ later, Reach (sweepStep text views) always db' later → QuietOn text views row.id later) ↔ position.FitsColumns := by
  have hfirst : row.ShownBy db view position := ⟨hrow, haccount, hopen, hshown⟩
  constructor
  · intro hquiet
    obtain ⟨row', hrow', hid, turn, hturn, hchanged⟩ := changed_later h hfirst hview .refl 0
    exact hchanged.1 (hquiet db' .refl 0 row' hrow' hid turn hturn)
  · intro hfits later hlater now other hother hid turn hturn
    obtain ⟨row', hrow', hid', turn', hturn', hchanged⟩ := changed_later h hfirst hview hlater now
    have hsame : other = row' := List.inj_on_of_nodup_map (nodup_routedRows later) hother hrow' (hid.trans hid'.symm)
    rw [hsame, hturn'] at hturn
    cases hturn
    exact hchanged.2 hfits

end

/-! ## A sum of floats -/

/-- The position of a trade of gold, with a volume as the broker reports it. -/
def driftPosition (volume : String) : SnapshotItem :=
  ⟨[("id", .string "P"), ("volume", .number volume false), ("stopLoss", .number "2390.5" false), ("takeProfit", .number "2420.25" false)]⟩

def goldViews (volume : String) (_ : Uuid) : Except PyException TerminalView := .ok ⟨[driftPosition volume], []⟩

def goldCall : SweepCall := ⟨0, id, fun _ => .refl _⟩

section

variable [Python] [Unicode]

/-- The trade of the second account in a sweep that is committed. -/
theorem exists_goldDrift (volume : String)
    (hcommitted : (reconcileSweep (fun _ => "") (goldViews volume) goldCall goldSweep).toOption.isSome) :
    ∃ db' report, reconcileSweep (fun _ => "") (goldViews volume) goldCall goldSweep = .ok (db', report) ∧
      ∃ row : RoutedRow, row.ShownBy goldSweep ⟨[driftPosition volume], []⟩ (driftPosition volume) ∧ row.id = 13 := by
  cases hsweep : reconcileSweep (fun _ => "") (goldViews volume) goldCall goldSweep with
  | error e =>
    rw [hsweep] at hcommitted
    cases hcommitted
  | ok result =>
    have hfound : (goldSweep.routedRows.find? (·.id = 13)).map (fun row =>
        (row.hasAccount, row.trade.lifecycleState, row.trade.brokerPositionId)) = some (true, .open, some "P") := by decide +kernel
    obtain ⟨row, hrow, heq⟩ := Option.map_eq_some_iff.mp hfound
    simp only [Prod.mk.injEq] at heq
    obtain ⟨haccount, hopen, hid⟩ := heq
    refine ⟨result.1, result.2, rfl, row, ⟨List.mem_of_find?_eq_some hrow, haccount, hopen, ?_⟩, by simpa using List.find?_some hrow⟩
    rw [hid]
    exact List.find?_cons_of_pos (decide_eq_true rfl)

end

theorem drift_iff_gold :
    let _ : Python := ⟨fun _ => "", fun _ => none⟩
    let _ := Unicode.ascii
    ∃ db' report, reconcileSweep (fun _ => "") (goldViews "0.3") goldCall goldSweep = .ok (db', report) ∧
      ∀ later, Reach (sweepStep (fun _ => "") (goldViews "0.3")) always db' later → QuietOn (fun _ => "") (goldViews "0.3") 13 later := by
  intro _ _
  obtain ⟨db', report, hsweep, row, hrow, hid⟩ := exists_goldDrift "0.3" (by decide +kernel)
  refine ⟨db', report, hsweep, ?_⟩
  rw [← hid]
  refine (drift_iff hsweep hrow.mem hrow.account hrow.isOpen rfl hrow.shown).2 ⟨fun v hv => ?_, fun p hp => ?_, fun p hp => ?_⟩
  · cases hv.symm.trans (show (driftPosition "0.3").volume = some (3 / 10) by decide +kernel)
    exact ⟨⟨3000⟩, by decide +kernel⟩
  · cases hp.symm.trans (show (driftPosition "0.3").stopLoss = some 2390.5 by decide +kernel)
    exact ⟨⟨239050000000⟩, by decide +kernel⟩
  · cases hp.symm.trans (show (driftPosition "0.3").takeProfit = some 2420.25 by decide +kernel)
    exact ⟨⟨242025000000⟩, by decide +kernel⟩

/-- The sum of 0.1 and 0.2 is drift for ever. -/
theorem drift_floatSum :
    let _ : Python := ⟨fun _ => "", fun _ => none⟩
    let _ := Unicode.ascii
    ¬ ∀ text views call db db' report row view position, reconcileSweep text views call db = .ok (db', report) →
      RoutedRow.ShownBy row db view position → views row.connectionId = .ok view →
      ∀ later, Reach (sweepStep text views) always db' later → QuietOn text views row.id later := by
  intro _ _ h
  obtain ⟨db', report, hsweep, row, hrow, hid⟩ := exists_goldDrift "0.30000000000000004" (by decide +kernel)
  obtain ⟨row', hrow', hid', turn, hturn, hchanged⟩ := changed_later hsweep hrow rfl .refl 0
  have hfits := hchanged.1 (h _ _ _ _ _ _ _ _ _ hsweep hrow rfl db' .refl 0 row' hrow' hid' turn hturn)
  have hvolume : (driftPosition "0.30000000000000004").volume = some (30000000000000004 / 10 ^ 17) := by decide +kernel
  have hcolumn := toRat_ofRat_iff.2 (hfits.volume _ hvolume)
  exact absurd hcolumn (by decide +kernel)

end SignalSync
