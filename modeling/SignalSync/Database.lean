import SignalSync.Library.Table
import SignalSync.Execution.Symbols
import SignalSync.Signal.Assembly
import SignalSync.Signal.Generations

/-!
# The database

The rows the signal and execution workers read and write, and the tables they
stand in. Constraints of the schema are kept by construction: primary keys by
`Table`, positivity checks by fields of the rows.
-/

namespace SignalSync

open Library

/-! ## Columns -/

/-- A lot size, a `Numeric(12, 4)` that is not negative. -/
def Lots := { n : Numeric 4 // 0 ≤ n.units }
deriving DecidableEq

namespace Lots

def toRat (v : Lots) : ℚ := v.1.toRat

def ofRat (q : ℚ) (h : 0 ≤ q) : Lots := ⟨.ofRat 4 q, Numeric.ofRat_units_nonneg h⟩

instance : Zero Lots := ⟨⟨⟨0⟩, Numeric.zero_nonneg⟩⟩

/-- A volume that is cut off at nothing. -/
theorem zero_le_max (q : ℚ) : 0 ≤ max 0 q := le_max_left 0 q

theorem toRat_nonneg (v : Lots) : 0 ≤ v.toRat := Numeric.toRat_nonneg v.2

/-- What a column can hold is stored as it is. -/
theorem ofRat_max {v : Lots} {q : ℚ} (h : v.toRat = q) : ofRat (max 0 q) (le_max_left _ _) = v := by
  subst h
  refine Subtype.ext ?_
  show Numeric.ofRat 4 (max 0 v.toRat) = v.1
  rw [max_eq_right v.toRat_nonneg]
  exact Numeric.ofRat_toRat _

end Lots

/-- A column written back: the session leaves out what has its loaded value. -/
def writeBack {α : Type} [DecidableEq α] (loaded new stored : α) : α := if new = loaded then stored else new

/-- Over the row it was loaded from, a column takes its new value. -/
theorem writeBack_self {α : Type} [DecidableEq α] (loaded new : α) : writeBack loaded new loaded = new := by
  unfold writeBack
  split
  · rename_i h
    exact h.symm
  · rfl

/-- A `Numeric(20, 8)`. -/
abbrev Price := Numeric 8

/-- The f-string `idempotency_key` of an intent, its parts kept apart. -/
structure IntentKey where
  connectionId : Uuid
  chatId : Int
  messageId : Int
  revision : Nat
  routeId : Uuid
  action : SignalAction
  index : Nat
  target : Uuid ⊕ Nat
deriving DecidableEq

/-! ## Rows -/

inductive CopyRouteState
  | draft | ready | active | paused | reauthentication_required | unsupported
  | target_unavailable | needs_attention
deriving DecidableEq, Repr

inductive CopyTradingConnectionState
  | submitted | provisioning | deploying | connecting | synchronizing | ready
  | invalid_credentials | server_not_found | provisioning_failed | broker_disconnected
  | synchronization_failed | trading_disabled | deleting | deleted
deriving DecidableEq, Repr

inductive SignalConversationState
  | active | completed | expired | ambiguous
deriving DecidableEq, Repr

inductive RouteAssemblyState
  | assembling | ready | executing | completed | expired | skipped | failed
deriving DecidableEq, Repr

inductive TradeIntentState
  | created | submitted | confirmed | uncertain | reconciling | retryable | failed
deriving DecidableEq, Repr

inductive LifecycleState
  | open | pending | closed | cancelled
deriving DecidableEq, Repr

inductive HighSpreadBehavior
  | reject | wait
deriving DecidableEq, Repr

structure TelegramSource where
  isGroup : Bool
  isPaused : Bool

structure CopyTradingUserSettings where
  isPaused : Bool

structure CopyTradingConnection where
  metaapiAccountId : Option String
  state : CopyTradingConnectionState
deriving DecidableEq

theorem hundredth_pos : (0 : Int) < 100 := by decide

structure CopyRoute where
  userId : Uuid
  sourceId : Uuid
  targetConnectionId : Option Uuid
  state : CopyRouteState
  pausedFromState : Option CopyRouteState := none
  fixedLot : Numeric 4
  takeProfitMode : TakeProfitMode := .all
  lotDistribution : LotDistribution := .fixed_each
  pendingOrdersEnabled : Bool := true
  minimumFields : MinimumFields := .direction_symbol_sl_tp
  assemblyWindowSeconds : Option Nat := none
  processAllGroupAuthors : Bool := false
  semanticDuplicateWindowSeconds : Nat := 30
  allowSlTpUpdates : Bool := true
  allowBreakEven : Bool := true
  allowAdditionalTp : Bool := true
  allowPartialClose : Bool := true
  allowFullClose : Bool := true
  allowPendingCancel : Bool := true
  fixedLot_pos : 0 < fixedLot.units
deriving DecidableEq

structure CopyAccountPolicy where
  maxLot : Numeric 4 := ⟨1000000⟩
  maxLotPerTrade : Numeric 4 := ⟨1000000⟩
  maxOpenPositions : Nat := 100
  dailyLossLimit : Option (Numeric 2) := none
  maxDrawdownPercent : Option (Numeric 2) := none
  allowedSymbols : List String := []
  blockedSymbols : List String := []
  marketSignalMaxAgeSeconds : Nat := 30
  maxSpreadPoints : Option Nat := none
  maxSlippagePoints : Option Nat := none
  maxQuoteAgeSeconds : Nat := 10
  highSpreadBehavior : HighSpreadBehavior := .reject
  tradingStartHourUtc : Option Nat := none
  tradingEndHourUtc : Option Nat := none
  dailyEquityAnchor : Option (Numeric 2) := none
  dailyEquityAnchorDate : Option Nat := none
  peakEquity : Option (Numeric 2) := none
  isPaused : Bool := false
deriving DecidableEq

structure SignalConversation where
  sourceId : Uuid
  legacyThreadId : Uuid
  correlationId : Uuid
  state : SignalConversationState
  replyRootMessageId : Option Int
  symbol : Option String
  direction : Option Direction
  context : Context
  lastMessageId : Int
  lastMessageRevision : Nat := 1
  updatedAt : Time
deriving DecidableEq

structure MessageReference where
  messageId : Int
  revision : Nat
deriving DecidableEq

structure RouteSignalAssembly where
  conversationId : Uuid
  routeId : Uuid
  state : RouteAssemblyState
  context : Context
  messageReferences : List MessageReference
  generation : Nat
  openingAction : Option SignalAction := none
  openingIntentId : Option Uuid := none
  assemblyDeadline : Time
deriving DecidableEq

structure ParsedAction where
  threadId : Uuid
  routeId : Uuid
  telegramMessageId : Int
  actionType : SignalAction
  revision : Nat
  /-- In `validation_result`. -/
  assemblyId : Uuid
deriving DecidableEq

/-- The unique key's columns are equal. -/
def ParsedAction.clash (a b : ParsedAction) : Bool := { a with assemblyId := b.assemblyId } = b

/-- `request_payload`: the merged context and what the leg and the target add. -/
structure Payload where
  context : Context
  volume : Option ℚ
  takeProfit : Option Decimal
  conversationId : Uuid
  copiedTradeId : Option Uuid
deriving DecidableEq

/-- `metaapi_client_id`, injective in the route and the intent. -/
structure ClientOrderId where
  routeId : Uuid
  intentId : Uuid
deriving DecidableEq

structure TradeIntent where
  userId : Uuid
  routeId : Uuid
  connectionId : Option Uuid
  parsedActionId : Uuid
  idempotencyKey : IntentKey
  clientOrderId : ClientOrderId
  state : TradeIntentState
  requestPayload : Payload
  attemptCount : Nat := 0
  lastErrorCode : Option String := none
  createdAt : Time
deriving DecidableEq

structure CopiedTrade where
  id : Uuid
  routeId : Uuid
  threadId : Uuid
  connectionId : Option Uuid
  signalSymbol : String
  brokerSymbol : String
  brokerOrderId : Option String
  brokerPositionId : Option String
  lifecycleState : LifecycleState
  originalVolume : Option Lots
  currentVolume : Option Lots
  stopLoss : Option Price
  takeProfit : Option Price
  createdAt : Time
deriving DecidableEq

/-- The version of a catalog is its fingerprint, injective in its entries. -/
structure SymbolMapping where
  brokerSymbol : String
  catalogVersion : List Specification
deriving DecidableEq

/-- The tables. A policy is keyed by its connection, a copied trade by its intent
and a symbol mapping by its route, its connection and the normalized symbol, all
unique. -/
structure Database where
  sources : Table Uuid TelegramSource := ∅
  userSettings : Table Uuid CopyTradingUserSettings := ∅
  connections : Table Uuid CopyTradingConnection := ∅
  routes : Table Uuid CopyRoute := ∅
  policies : Table Uuid CopyAccountPolicy := ∅
  conversations : Table Uuid SignalConversation := ∅
  assemblies : Table Uuid RouteSignalAssembly := ∅
  parsedActions : Table Uuid ParsedAction := ∅
  intents : Table Uuid TradeIntent := ∅
  trades : Table Uuid CopiedTrade := ∅
  symbolMappings : Table (Uuid × Uuid × String) SymbolMapping := ∅

end SignalSync
