import SignalSync.Execution.Handler

/-!
# Broker snapshots

`reconcile_copied_trades` brings the open and pending copied trades up to date
with what the broker shows (`applyBrokerSnapshot`). When a trade was last brought up to
date is a column that no handler reads, so that it is no part of `CopiedTrade`.

* `updateFromSnapshot_finished`: a finished trade is left alone;
* `get?_reconcileCopiedTrades`: a sweep keeps every trade, each under its intent.
-/

namespace SignalSync

open Library

/-- A position of the broker's terminal; a number that is absent or cannot be read
is `none`. The comment is the one an order with this client id carries. -/
structure BrokerPosition where
  id : Option String
  volume : Option ℚ
  stopLoss : Option ℚ
  takeProfit : Option ℚ
  clientId : Option ClientOrderId := none
  comment : Option ClientOrderId := none

structure BrokerSnapshot where
  positions : List BrokerPosition
  orders : List (Option String)

/-- `str(value)`, of a text or `None`. -/
def pyStr (value : Option String) : String := value.getD "None"

/-- The trade with the position's numbers, and whether one of them differs. -/
def applyPosition (trade : CopiedTrade) (position : BrokerPosition) : CopiedTrade × Bool :=
  let volume := position.volume.filter (0 ≤ ·)
  let changed :=
    volume.any (fun v => trade.currentVolume.map Lots.toRat ≠ some v) ||
      trade.stopLoss.map Numeric.toRat ≠ position.stopLoss || trade.takeProfit.map Numeric.toRat ≠ position.takeProfit
  ({ trade with
      currentVolume := (volume.map fun v => .ofRat (max 0 v) (Lots.zero_le_max v)) <|> trade.currentVolume
      stopLoss := position.stopLoss.map (Numeric.ofRat 8)
      takeProfit := position.takeProfit.map (Numeric.ofRat 8) },
    changed)

/-- `apply_broker_snapshot` but for the time, with whether it reports a change. -/
def updateFromSnapshot (trade : CopiedTrade) (clientOrderId : ClientOrderId) (snapshot : BrokerSnapshot) :
    CopiedTrade × Bool :=
  match trade.lifecycleState with
  | .open =>
    match snapshot.positions.find? fun position => pyStr position.id = pyStr trade.brokerPositionId with
    | none => ({ trade with lifecycleState := .closed, currentVolume := some 0 }, true)
    | some position => applyPosition trade position
  | .pending =>
    if snapshot.orders.any fun order => pyStr order = pyStr trade.brokerOrderId then (trade, false)
    else
      match snapshot.positions.find? fun position =>
          position.clientId = some clientOrderId || position.comment = some clientOrderId with
      | none => ({ trade with lifecycleState := .cancelled }, true)
      | some position =>
        let activated := (applyPosition trade position).1
        ({ activated with lifecycleState := .open, brokerPositionId := some (pyStr position.id) }, true)
  | .closed | .cancelled => (trade, false)

/-- A copied trade with its column `broker_synced_at`. -/
structure SyncedTrade extends CopiedTrade where
  brokerSyncedAt : Option Time
deriving DecidableEq

/-- `apply_broker_snapshot`. -/
def applyBrokerSnapshot (trade : SyncedTrade) (clientOrderId : ClientOrderId) (snapshot : BrokerSnapshot) (observedAt : Time) :
    SyncedTrade × Bool :=
  let (updated, changed) := updateFromSnapshot trade.toCopiedTrade clientOrderId snapshot
  ({ updated with brokerSyncedAt := some observedAt }, changed)

/-- A finished trade is left alone. -/
theorem updateFromSnapshot_finished {trade : CopiedTrade} (h : trade.lifecycleState.isActive = false)
    (clientOrderId : ClientOrderId) (snapshot : BrokerSnapshot) :
    updateFromSnapshot trade clientOrderId snapshot = (trade, false) := by
  unfold updateFromSnapshot
  split <;> rename_i hs <;> simp_all [LifecycleState.isActive]

/-- `reconcile_copied_trades`; a connection without a snapshot cannot be acquired,
and ends the sweep with an exception. -/
def reconcileCopiedTrades (db : Database) (snapshot : Uuid → Option BrokerSnapshot) : Option Database :=
  if db.trades.entries.any fun e => e.2.lifecycleState.isActive &&
      (db.tradeConnection e.2).any fun connectionId => (snapshot connectionId).isNone then none
  else some
    { db with
      trades := db.trades.mapRows fun intentId trade =>
        match (db.tradeConnection trade).bind snapshot, db.intents.get? intentId with
        | some view, some intent => (updateFromSnapshot trade intent.clientOrderId view).1
        | _, _ => trade }

/-- A sweep keeps every trade, each under its intent, and touches nothing else. -/
theorem get?_reconcileCopiedTrades {db db' : Database} {snapshot : Uuid → Option BrokerSnapshot}
    (h : reconcileCopiedTrades db snapshot = some db') :
    db'.intents = db.intents ∧ ∀ id, (db'.trades.get? id).isSome = (db.trades.get? id).isSome := by
  unfold reconcileCopiedTrades at h
  split at h
  · cases h
  · cases h
    exact ⟨rfl, fun id => by rw [Table.get?_mapRows, Option.isSome_map]⟩

end SignalSync
