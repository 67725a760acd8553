import SignalSync.Execution.Emergency
import SignalSync.Execution.World

/-!
# The sweep over the copied trades

`reconcile_copied_trades` goes through the live trades of all accounts in one transaction, and
writes to each at least the time of the snapshot. An account that cannot be acquired raises out
of the loop, and nothing is committed.

* `sweep_ok`, `sweep_error`: the sweep brings all trades up to date where no account fails, else none;
* `sweep_eq_reconcileCopiedTrades`: what it commits is what every trade's own snapshot makes of it;
* `sweep_isolates_iff`: when the trades of the other accounts are brought up to date.
-/

namespace SignalSync

open Library

/-- A row of the query: a live trade, its account and its intent. -/
structure SweepRow where
  id : Uuid
  trade : CopiedTrade
  connectionId : Uuid
  connection : CopyTradingConnection
  intent : TradeIntent

namespace SweepRow

/-- `if not connection.metaapi_account_id: continue`. -/
def hasAccount (row : SweepRow) : Bool := (row.connection.metaapiAccountId.filter (· ≠ "")).isSome

/-- The account of the row, if there is one, does not fail. -/
def Answers (row : SweepRow) (snapshot : Uuid → Except PyException BrokerSnapshot) : Prop :=
  row.hasAccount → ∃ view, snapshot row.connectionId = .ok view

def applied (row : SweepRow) (view : BrokerSnapshot) : CopiedTrade × Bool :=
  updateFromSnapshot row.trade row.intent.clientOrderId view

end SweepRow

/-- The database with the column `broker_synced_at` of its copied trades. -/
structure SyncedDatabase extends Database where
  brokerSyncedAt : Uuid → Option Time := fun _ => none

/-- The clock at the turn of each trade; it is not what it was when the trade was brought up to date before. -/
structure SweepClock (db : SyncedDatabase) where
  observedAt : Uuid → Time
  fresh : ∀ id, db.brokerSyncedAt id ≠ some (observedAt id)

namespace Database

/-- The joins of the query. -/
def sweepRow (db : Database) (e : Uuid × CopiedTrade) : Option SweepRow := do
  let route ← db.routes.get? e.2.routeId
  let connectionId ← route.targetConnectionId
  let connection ← db.connections.get? connectionId
  let intent ← db.intents.get? e.1
  return { id := e.1, trade := e.2, connectionId, connection, intent }

def sweepRows (db : Database) : List SweepRow := (db.trades.select fun _ trade => trade.lifecycleState.isActive).filterMap db.sweepRow

end Database

/-- The rows, in the order the database returns them in. -/
abbrev SweepOrder (db : Database) := { rows : List SweepRow // rows.Perm db.sweepRows }

/-- A copied trade as it is stored. -/
def SyncedDatabase.trade? (db : SyncedDatabase) (id : Uuid) : Option SyncedTrade :=
  (db.trades.get? id).map fun trade => ⟨trade, db.brokerSyncedAt id⟩

/-- What the loop has come to: the session, and how many trades have changed. -/
abbrev SweepState := SyncedDatabase × Nat

section

-- what the terminal of an account shows, or the exception of acquiring or reading it
variable (snapshot : Uuid → Except PyException BrokerSnapshot)

def reconcileCopiedTrade (observedAt : Uuid → Time) (s : SweepState) (row : SweepRow) : Except PyException SweepState :=
  if row.hasAccount then
    match snapshot row.connectionId with
    | .error e => .error e
    | .ok view =>
      let (trade, changed) :=
        applyBrokerSnapshot ⟨row.trade, s.1.brokerSyncedAt row.id⟩ row.intent.clientOrderId view (observedAt row.id)
      .ok ({ s.1 with
          trades := s.1.trades.modify row.id fun _ => trade.toCopiedTrade
          brokerSyncedAt := Function.update s.1.brokerSyncedAt row.id trade.brokerSyncedAt },
        if changed then s.2 + 1 else s.2)
  else .ok s

/-- `reconcile_copied_trades`, row by row: the database it leaves, and the number it returns or the exception. -/
def reconcileCopiedTradesRows (db : SyncedDatabase) (observedAt : Uuid → Time) (order : SweepOrder db.toDatabase) :
    SyncedDatabase × Except PyException Nat :=
  match order.1.foldlM (reconcileCopiedTrade snapshot observedAt) (db, 0) with
  | .error e => (db, .error e)
  | .ok (session, updated) => (session, .ok updated)

/-- The trades of the accounts that do not fail are brought up to date. -/
def SweepIsolates (db : SyncedDatabase) (clock : SweepClock db) (order : SweepOrder db.toDatabase) : Prop :=
  ∀ row ∈ db.sweepRows, row.hasAccount → ∀ view, snapshot row.connectionId = .ok view →
    (reconcileCopiedTradesRows snapshot db clock.observedAt order).1.trade? row.id =
      some ⟨(row.applied view).1, some (clock.observedAt row.id)⟩

end

section

variable {snapshot : Uuid → Except PyException BrokerSnapshot} {db : Database} {row : SweepRow} {rows : List SweepRow}
  {s t : SweepState} {observedAt : Uuid → Time}

theorem sweepRow_eq_some {e : Uuid × CopiedTrade} (h : db.sweepRow e = some row) :
    row.id = e.1 ∧ row.trade = e.2 ∧ db.intents.get? e.1 = some row.intent := by
  simp only [Database.sweepRow, bind, Option.bind_eq_some_iff, pure, Option.some.injEq] at h
  obtain ⟨route, -, connectionId, -, connection, -, intent, hintent, rfl⟩ := h
  exact ⟨rfl, rfl, hintent⟩

/-- A row is about a stored trade. -/
theorem get?_of_mem_sweepRows (h : row ∈ db.sweepRows) : db.trades.get? row.id = some row.trade := by
  obtain ⟨e, he, hrow⟩ := List.mem_filterMap.mp h
  obtain ⟨hid, htrade, -⟩ := sweepRow_eq_some hrow
  rw [hid, htrade]
  exact (Table.mem_select.1 he).1

theorem nodup_sweepRows (db : Database) : (db.sweepRows.map SweepRow.id).Nodup := by
  have hkeys : db.sweepRows.map SweepRow.id =
      (db.trades.select fun _ trade => trade.lifecycleState.isActive).filterMap fun e => (db.sweepRow e).map fun _ => e.1 := by
    rw [Database.sweepRows, List.map_filterMap]
    refine List.filterMap_congr fun e _ => ?_
    cases hrow : db.sweepRow e with
    | none => rfl
    | some row => exact congrArg some (sweepRow_eq_some hrow).1
  rw [hkeys]
  have hsub : ((db.trades.select fun _ trade => trade.lifecycleState.isActive).filterMap fun e => (db.sweepRow e).map fun _ => e.1).Sublist
      ((db.trades.select fun _ trade => trade.lifecycleState.isActive).map Prod.fst) := by
    generalize (db.trades.select fun _ trade => trade.lifecycleState.isActive) = es
    induction es with
    | nil => exact .slnil
    | cons e es ih =>
      rw [List.filterMap_cons, List.map_cons]
      cases db.sweepRow e with
      | none => exact ih.cons _
      | some row => exact ih.cons_cons _
  exact hsub.nodup (Table.nodup_select _ _)

/-! ## The loop -/

/-- The trade of a row after its turn, if it was brought up to date at `time` before. -/
def SweepRow.swept (row : SweepRow) (snapshot : Uuid → Except PyException BrokerSnapshot) (observedAt : Uuid → Time)
    (time : Option Time) : SyncedTrade :=
  if row.hasAccount then
    match snapshot row.connectionId with
    | .ok view => ⟨(row.applied view).1, some (observedAt row.id)⟩
    | .error _ => ⟨row.trade, time⟩
  else ⟨row.trade, time⟩

theorem sweepOne_ok {time : Option Time} (h : reconcileCopiedTrade snapshot observedAt s row = .ok t)
    (hrow : s.1.trade? row.id = some ⟨row.trade, time⟩) :
    t.1.trade? row.id = some (row.swept snapshot observedAt time) ∧ ∀ id, id ≠ row.id → t.1.trade? id = s.1.trade? id := by
  unfold reconcileCopiedTrade at h
  by_cases haccount : row.hasAccount
  · rw [if_pos haccount] at h
    cases hview : snapshot row.connectionId with
    | error e =>
      rw [hview] at h
      cases h
    | ok view =>
      rw [hview] at h
      cases h
      obtain ⟨trade, htrade, -⟩ := Option.map_eq_some_iff.mp hrow
      refine ⟨?_, fun id hid => ?_⟩
      · simp only [SyncedDatabase.trade?, Table.get?_modify, if_pos, htrade, Function.update_self, Option.map_some,
          SweepRow.swept, haccount, hview]
        rfl
      · simp only [SyncedDatabase.trade?, Table.get?_modify_of_ne _ hid, Function.update_of_ne hid]
  · rw [if_neg haccount] at h
    cases h
    exact ⟨by rw [hrow, SweepRow.swept, if_neg haccount], fun _ _ => rfl⟩

variable (s observedAt) in
theorem exists_sweepOne : (∃ t, reconcileCopiedTrade snapshot observedAt s row = .ok t) ↔ row.Answers snapshot := by
  unfold reconcileCopiedTrade SweepRow.Answers
  split
  · rename_i haccount
    cases snapshot row.connectionId with
    | error e => exact iff_of_false (fun ⟨t, ht⟩ => nomatch ht) fun h => nomatch h haccount
    | ok view => exact iff_of_true ⟨_, rfl⟩ fun _ => ⟨view, rfl⟩
  · rename_i haccount
    exact iff_of_true ⟨s, rfl⟩ fun h => absurd h haccount

variable (s observedAt) in
/-- The loop ends well iff no account of the rows fails. -/
theorem exists_foldlM_sweepOne :
    (∃ t, rows.foldlM (reconcileCopiedTrade snapshot observedAt) s = .ok t) ↔ ∀ row ∈ rows, row.Answers snapshot := by
  induction rows generalizing s with
  | nil => exact iff_of_true ⟨s, rfl⟩ fun row hrow => nomatch hrow
  | cons row rows ih =>
    rw [List.foldlM_cons, List.forall_mem_cons, ← exists_sweepOne s observedAt]
    cases h : reconcileCopiedTrade snapshot observedAt s row with
    | error e => exact iff_of_false (fun ⟨t, ht⟩ => nomatch ht) fun ⟨⟨t, ht⟩, _⟩ => nomatch ht
    | ok u => exact (ih u).trans (iff_and_self.mpr fun _ => ⟨u, rfl⟩)

/-- After the loop every row has had its turn, and other trades are as they were. -/
theorem foldlM_sweepOne_ok {time : Uuid → Option Time}
    (h : rows.foldlM (reconcileCopiedTrade snapshot observedAt) s = .ok t) (hnodup : (rows.map SweepRow.id).Nodup)
    (hrows : ∀ row ∈ rows, s.1.trade? row.id = some ⟨row.trade, time row.id⟩) :
    (∀ row ∈ rows, t.1.trade? row.id = some (row.swept snapshot observedAt (time row.id))) ∧
      ∀ id, id ∉ rows.map SweepRow.id → t.1.trade? id = s.1.trade? id := by
  induction rows generalizing s with
  | nil =>
    cases h
    exact ⟨fun row hrow => (List.not_mem_nil hrow).elim, fun _ _ => rfl⟩
  | cons row rows ih =>
    rw [List.map_cons, List.nodup_cons] at hnodup
    obtain ⟨hnew, hnodup⟩ := hnodup
    rw [List.foldlM_cons] at h
    cases hone : reconcileCopiedTrade snapshot observedAt s row with
    | error e =>
      rw [hone] at h
      cases h
    | ok u =>
      rw [hone] at h
      obtain ⟨hswept, hother⟩ := sweepOne_ok hone (hrows row List.mem_cons_self)
      have hne {row' : SweepRow} (hmem : row' ∈ rows) : row'.id ≠ row.id :=
        fun heq => hnew (heq ▸ List.mem_map_of_mem hmem)
      obtain ⟨hall, hrest⟩ := ih (s := u) h hnodup fun row' hmem => by
        rw [hother _ (hne hmem)]
        exact hrows row' (List.mem_cons_of_mem _ hmem)
      refine ⟨List.forall_mem_cons.mpr ⟨(hrest _ hnew).trans hswept, hall⟩, fun id hid => ?_⟩
      rw [List.map_cons, List.mem_cons, not_or] at hid
      rw [hrest id hid.2, hother id hid.1]

/-! ## The sweep -/

section

variable {db : SyncedDatabase} {order : SweepOrder db.toDatabase}

theorem trade?_of_mem_sweepRows (h : row ∈ db.sweepRows) : db.trade? row.id = some ⟨row.trade, db.brokerSyncedAt row.id⟩ := by
  rw [SyncedDatabase.trade?, get?_of_mem_sweepRows h, Option.map_some]

variable (observedAt order) in
/-- A sweep in which no account fails is committed. -/
theorem sweep_ok (h : ∀ row ∈ db.sweepRows, row.Answers snapshot) :
    (∀ row ∈ db.sweepRows, (reconcileCopiedTradesRows snapshot db observedAt order).1.trade? row.id =
        some (row.swept snapshot observedAt (db.brokerSyncedAt row.id))) ∧
      ∀ id, id ∉ db.sweepRows.map SweepRow.id →
        (reconcileCopiedTradesRows snapshot db observedAt order).1.trade? id = db.trade? id := by
  obtain ⟨⟨session, updated⟩, hloop⟩ :=
    (exists_foldlM_sweepOne (db, 0) observedAt).2 fun row hrow => h row (order.2.subset hrow)
  have hnodup : (order.1.map SweepRow.id).Nodup := (order.2.map _).nodup_iff.mpr (nodup_sweepRows db.toDatabase)
  obtain ⟨hall, hrest⟩ := foldlM_sweepOne_ok hloop hnodup fun row hrow => trade?_of_mem_sweepRows (order.2.subset hrow)
  rw [reconcileCopiedTradesRows, hloop]
  exact ⟨fun row hrow => hall row (order.2.symm.subset hrow), fun id hid => hrest id fun hmem => hid ((order.2.map _).subset hmem)⟩

/-- A sweep in which an account fails leaves everything as it was. -/
theorem sweep_error (h : ¬ ∀ row ∈ db.sweepRows, row.Answers snapshot) :
    (reconcileCopiedTradesRows snapshot db observedAt order).1 = db := by
  unfold reconcileCopiedTradesRows
  split
  · rfl
  · rename_i session updated hloop
    exact absurd (fun row hrow => (exists_foldlM_sweepOne (db, 0) observedAt).1 ⟨_, hloop⟩ row (order.2.symm.subset hrow)) h

/-- The trades of the accounts that do not fail are brought up to date iff no account fails, or
every account does. -/
theorem sweep_isolates_iff (snapshot : Uuid → Except PyException BrokerSnapshot) (db : SyncedDatabase) (clock : SweepClock db)
    (order : SweepOrder db.toDatabase) :
    SweepIsolates snapshot db clock order ↔ (∀ row ∈ db.sweepRows, row.Answers snapshot) ∨
      ∀ row ∈ db.sweepRows, row.hasAccount → ∃ e, snapshot row.connectionId = .error e := by
  by_cases hall : ∀ row ∈ db.sweepRows, row.Answers snapshot
  · refine iff_of_true (fun row hrow haccount view hview => ?_) (.inl hall)
    rw [(sweep_ok clock.observedAt order hall).1 row hrow, SweepRow.swept, if_pos haccount, hview]
  · rw [or_iff_right hall]
    unfold SweepIsolates
    rw [sweep_error hall]
    refine forall₂_congr fun row hrow => forall_congr' fun haccount => ?_
    cases hview : snapshot row.connectionId with
    | error e => exact iff_of_true (fun _ h => nomatch h) ⟨e, rfl⟩
    | ok view =>
      -- what is stored has not the time of this sweep
      refine iff_of_false (fun h => ?_) fun ⟨e, h⟩ => nomatch h
      have hstored := h view rfl
      rw [trade?_of_mem_sweepRows hrow, Option.some.injEq] at hstored
      exact clock.fresh row.id (congrArg SyncedTrade.brokerSyncedAt hstored)

end

theorem get?_trades_eq (db : SyncedDatabase) (id : Uuid) : db.trades.get? id = (db.trade? id).map SyncedTrade.toCopiedTrade := by
  rw [SyncedDatabase.trade?, Option.map_map]
  exact Option.map_id'.symm

/-- The account of a trade is its row's. -/
theorem tradeConnection_eq {id : Uuid} {trade : CopiedTrade} {intent : TradeIntent} (h : db.intents.get? id = some intent) :
    db.tradeConnection trade = ((db.sweepRow (id, trade)).filter SweepRow.hasAccount).map SweepRow.connectionId := by
  unfold Database.tradeConnection Database.sweepRow
  cases db.routes.get? trade.routeId with
  | none => rfl
  | some route =>
    cases hc : route.targetConnectionId with
    | none => simp [hc]
    | some connectionId =>
      cases hconnection : db.connections.get? connectionId with
      | none => simp [hc, hconnection]
      | some connection =>
        by_cases haccount : (connection.metaapiAccountId.filter (· ≠ "")).isSome <;>
          simp [hc, hconnection, h, Option.filter_some, SweepRow.hasAccount]

/-- A stored trade is in the rows iff it is live and its joins are there. -/
theorem mem_sweepRows {id : Uuid} {trade : CopiedTrade} (htrade : db.trades.get? id = some trade) :
    row ∈ db.sweepRows ∧ row.id = id ↔ trade.lifecycleState.isActive ∧ db.sweepRow (id, trade) = some row := by
  constructor
  · rintro ⟨hrow, rfl⟩
    have hstored := get?_of_mem_sweepRows hrow
    obtain ⟨e, he, heq⟩ := List.mem_filterMap.mp hrow
    obtain ⟨hid, hsame, -⟩ := sweepRow_eq_some heq
    cases htrade.symm.trans hstored
    rw [hid, hsame]
    exact ⟨(Table.mem_select.1 he).2, heq⟩
  · rintro ⟨hactive, hrow⟩
    exact ⟨List.mem_filterMap.mpr ⟨_, Table.mem_select.2 ⟨htrade, hactive⟩, hrow⟩, (sweepRow_eq_some hrow).1⟩

/-- The older description of the sweep fails where an account does. -/
theorem reconcileCopiedTrades_fails (hintents : ∀ id, (db.trades.get? id).isSome → (db.intents.get? id).isSome) :
    (db.trades.entries.any fun e => e.2.lifecycleState.isActive &&
      (db.tradeConnection e.2).any fun connectionId => (snapshot connectionId).toOption.isNone) = true ↔
    ¬ ∀ row ∈ db.sweepRows, row.Answers snapshot := by
  simp only [List.any_eq_true, Bool.and_eq_true, Option.any_eq_true]
  constructor
  · rintro ⟨⟨id, trade⟩, he, hactive, connectionId, hconnection, hnone⟩ hall
    have htrade := Table.get?_eq_some.2 he
    obtain ⟨intent, hintent⟩ := Option.isSome_iff_exists.mp (hintents id (by rw [htrade]; rfl))
    rw [tradeConnection_eq hintent] at hconnection
    obtain ⟨row, hrow, rfl⟩ := Option.map_eq_some_iff.mp hconnection
    obtain ⟨hrow, haccount⟩ := Option.filter_eq_some_iff.mp hrow
    obtain ⟨view, hview⟩ := hall row ((mem_sweepRows htrade).2 ⟨hactive, hrow⟩).1 haccount
    rw [hview] at hnone
    cases hnone
  · intro hall
    obtain ⟨row, hrow, hfails⟩ : ∃ row ∈ db.sweepRows, ¬ row.Answers snapshot := by simpa using hall
    have htrade := get?_of_mem_sweepRows hrow
    obtain ⟨hactive, hjoins⟩ := (mem_sweepRows htrade).1 ⟨hrow, rfl⟩
    obtain ⟨intent, hintent⟩ := Option.isSome_iff_exists.mp (hintents row.id (by rw [htrade]; rfl))
    obtain ⟨haccount, hview⟩ := Classical.not_imp.mp hfails
    refine ⟨(row.id, row.trade), Table.get?_eq_some.1 htrade, hactive, row.connectionId, ?_, ?_⟩
    · rw [tradeConnection_eq hintent, hjoins, Option.filter_some, if_pos haccount, Option.map_some]
    · cases hsnapshot : snapshot row.connectionId with
      | error e => rfl
      | ok view => exact absurd ⟨view, hsnapshot⟩ hview

/-- The sweep is what the trades' own snapshots make of them, or nothing. -/
theorem sweep_eq_reconcileCopiedTrades {db : SyncedDatabase} {order : SweepOrder db.toDatabase}
    (hintents : ∀ id, (db.trades.get? id).isSome → (db.intents.get? id).isSome) (id : Uuid) :
    (reconcileCopiedTradesRows snapshot db observedAt order).1.trades.get? id =
      ((reconcileCopiedTrades db.toDatabase fun connectionId => (snapshot connectionId).toOption).getD db.toDatabase).trades.get? id := by
  unfold reconcileCopiedTrades
  by_cases hall : ∀ row ∈ db.sweepRows, row.Answers snapshot
  · rw [if_neg fun h => (reconcileCopiedTrades_fails hintents).1 h hall, Option.getD_some, Table.get?_mapRows]
    obtain ⟨hswept, hother⟩ := sweep_ok observedAt order hall
    have hrows (row : SweepRow) (hrow : row ∈ db.sweepRows) :
        (reconcileCopiedTradesRows snapshot db observedAt order).1.trades.get? row.id =
          some (row.swept snapshot observedAt (db.brokerSyncedAt row.id)).toCopiedTrade := by
      rw [get?_trades_eq, hswept row hrow, Option.map_some]
    have hrest (id : Uuid) (hid : id ∉ db.sweepRows.map SweepRow.id) :
        (reconcileCopiedTradesRows snapshot db observedAt order).1.trades.get? id = db.trades.get? id := by
      rw [get?_trades_eq, hother id hid, ← get?_trades_eq]
    cases htrade : db.trades.get? id with
    | none =>
      rw [hrest id fun hmem => ?_, htrade]
      · rfl
      · obtain ⟨row, hrow, rfl⟩ := List.mem_map.mp hmem
        cases htrade.symm.trans (get?_of_mem_sweepRows hrow)
    | some trade =>
      obtain ⟨intent, hintent⟩ := Option.isSome_iff_exists.mp (hintents id (by rw [htrade]; rfl))
      rw [Option.map_some, hintent, tradeConnection_eq hintent]
      cases hactive : trade.lifecycleState.isActive with
      | false =>
        rw [hrest id fun hmem => ?_, htrade]
        · split
          · rename_i hsome
            cases hsome
            rw [updateFromSnapshot_finished hactive]
          · rfl
        · obtain ⟨row, hrow, hid⟩ := List.mem_map.mp hmem
          rw [((mem_sweepRows htrade).1 ⟨hrow, hid⟩).1] at hactive
          cases hactive
      | true =>
        cases hjoins : db.sweepRow (id, trade) with
        | none =>
          rw [hrest id fun hmem => ?_, htrade]
          · rfl
          · obtain ⟨row, hrow, hid⟩ := List.mem_map.mp hmem
            cases hjoins.symm.trans ((mem_sweepRows htrade).1 ⟨hrow, hid⟩).2
        | some row =>
          obtain ⟨hmem, rfl⟩ := (mem_sweepRows htrade).2 ⟨hactive, hjoins⟩
          obtain ⟨-, hsame, hrowIntent⟩ := sweepRow_eq_some hjoins
          cases hintent.symm.trans hrowIntent
          cases hsame
          rw [hrows row hmem, SweepRow.swept, Option.filter_some]
          by_cases haccount : row.hasAccount
          · rw [if_pos haccount, if_pos haccount, Option.map_some, Option.bind_some]
            cases snapshot row.connectionId <;> rfl
          · rw [if_neg haccount, if_neg haccount]
            rfl
  · rw [if_pos ((reconcileCopiedTrades_fails hintents).2 hall), Option.getD_none, sweep_error hall]

end

/-! ## One account of two -/

/-- The trades of `goldEmergency`, with their intents. -/
def goldSweep : Database :=
  { goldEmergency with
    intents := .addAll ∅ ([12, 13].map fun id => (id, { World.goldIntent with clientOrderId := ⟨4, id⟩ })) }

def goldClock : SweepClock { goldSweep with } := ⟨fun _ => seconds 130, fun _ => nofun⟩

/-- The first account cannot be acquired; the other has no position any more. -/
def goldSnapshot (connectionId : Uuid) : Except PyException BrokerSnapshot :=
  if connectionId = 3 then .error ⟨"TimeoutException", false, false⟩ else .ok ⟨[], []⟩

/-- The trade of the other account stays open. -/
theorem goldSnapshot_lost : ¬ ∀ snapshot db clock order, SweepIsolates snapshot db clock order := by
  intro h
  have hfound : (goldSweep.sweepRows.find? (·.id = 13)).map (fun row =>
      (row.hasAccount, row.connectionId, (row.applied ⟨[], []⟩).1.lifecycleState)) = some (true, 6, .closed) := by decide +kernel
  obtain ⟨row, hrow, heq⟩ := Option.map_eq_some_iff.mp hfound
  simp only [Prod.mk.injEq] at heq
  obtain ⟨haccount, hconnection, hclosed⟩ := heq
  have hid : row.id = 13 := by simpa using List.find?_some hrow
  have hview : goldSnapshot row.connectionId = .ok ⟨[], []⟩ := by
    rw [hconnection]
    rfl
  have hswept := h goldSnapshot _ goldClock ⟨goldSweep.sweepRows, .refl _⟩ row (List.mem_of_find?_eq_some hrow) haccount _ hview
  have hopen : ((reconcileCopiedTradesRows goldSnapshot { goldSweep with } goldClock.observedAt
      ⟨goldSweep.sweepRows, .refl _⟩).1.trade? 13).map (·.lifecycleState) = some .open := by decide +kernel
  rw [← hid, hswept, Option.map_some, hclosed] at hopen
  cases hopen

end SignalSync
