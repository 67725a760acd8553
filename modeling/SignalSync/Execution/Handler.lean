import SignalSync.Stream.Worker
import SignalSync.Execution.Action
import SignalSync.Execution.Quality
import SignalSync.Signal.Route

/-!
# The execution handler

`execution_handler` and `reconcile_intent`, cut at the points where another
session can come between: a database session holds the rows it has loaded until
its own commit, and a commit writes back the columns it has changed. Each phase
of a run (`ExecutionPhase`) carries what the run has loaded so far; `handlerStep`
is what the run does next.

* `PendingWrites.apply_intents`, `PendingWrites.apply_trades`: what is written back with
  an intent is neither another intent nor a trade.
-/

namespace SignalSync

open Library

/-- The settings of the process. -/
structure ExecutionSettings where
  globalPaused : Bool := false
  metaapiEnabled : Bool := true
  billingEnforced : Bool := false
  connectionTimeoutSeconds : Nat := 30
  uncertainMaxAgeSeconds : Nat := 300

/-- What the broker's terminal shows; without a quote, none could be had. -/
structure BrokerView where
  specifications : List Specification
  quote : Option Quote
  equity : Option ℚ

inductive EmergencyScope
  | account | source | route
deriving DecidableEq

inductive EmergencyAction
  | close_positions | cancel_pending | both
deriving DecidableEq

/-- The payload of an `emergency.execute` event. -/
structure EmergencyRequest where
  userId : Uuid
  scope : Option (EmergencyScope × Uuid) := none
  action : EmergencyAction
deriving DecidableEq

/-! ## What a run holds -/

/-- The rows loaded before the lock is taken. -/
structure ExecutionSession where
  intentId : Uuid
  intent : TradeIntent
  route : Option CopyRoute
  connection : Option CopyTradingConnection
  parsedAction : Option ParsedAction

/-- A session that has passed the gate, under the lock. -/
structure ReadySession where
  intentId : Uuid
  intent : TradeIntent
  route : CopyRoute
  connectionId : Uuid
  connection : CopyTradingConnection
  parsedAction : Option ParsedAction
  policy : Option CopyAccountPolicy

/-- A submitted intent on its way to the broker. -/
structure ExecutionCall where
  intentId : Uuid
  intent : TradeIntent
  route : CopyRoute
  parsedAction : Option ParsedAction
  action : SignalAction
  copied : Option Uuid
  selected : Option BrokerSymbol

/-- What has come back: the broker's result with the submitted volume, or an
exception. -/
abbrev CallOutcome := Except PyException (BrokerResult × Option ℚ)

inductive ExecutionPhase
  | load (intentId : Uuid)
  /-- The subscription is inactive. -/
  | bar (intentId : Uuid) (loaded : TradeIntent)
  /-- The connection lock is waited for. -/
  | acquire (session : ExecutionSession)
  | gate (session : ExecutionSession)
  | connect (session : ReadySession)
  /-- With the routes that are to be restored, as they are loaded. -/
  | prepare (session : ReadySession) (restored : List (Uuid × CopyRoute))
  /-- `submitted` is committed. -/
  | call (call : ExecutionCall)
  | settle (call : ExecutionCall) (loaded : TradeIntent) (copied : Option CopiedTrade) (outcome : CallOutcome)
  /-- `uncertain` is committed. -/
  | publish (call : ExecutionCall)
  | reconcile (intentId : Uuid)
  | mark (intentId : Uuid) (loaded : TradeIntent)
  /-- `reconciling` is committed. -/
  | find (intentId : Uuid)
  | conclude (intentId : Uuid) (loaded : TradeIntent) (found : Bool)
  | emergency (request : EmergencyRequest)
  /-- The trades still to be closed or cancelled. -/
  | emergencyRows (request : EmergencyRequest) (rows : List Uuid)

/-! ## Rows written -/

/-- The columns of an intent that execution changes. -/
def TradeIntent.writeBack (loaded new stored : TradeIntent) : TradeIntent :=
  { stored with
    state := SignalSync.writeBack loaded.state new.state stored.state
    attemptCount := SignalSync.writeBack loaded.attemptCount new.attemptCount stored.attemptCount
    lastErrorCode := SignalSync.writeBack loaded.lastErrorCode new.lastErrorCode stored.lastErrorCode }

namespace Database

def writeIntent (db : Database) (id : Uuid) (loaded new : TradeIntent) : Database :=
  { db with intents := db.intents.modify id (loaded.writeBack new) }

def writeConnection (db : Database) (id : Uuid) (loaded : CopyTradingConnection) (state : CopyTradingConnectionState) :
    Database :=
  { db with
    connections := db.connections.modify id fun stored => { stored with state := writeBack loaded.state state stored.state } }

/-- `mark_routes_target_unavailable`. -/
def markRoutesTargetUnavailable (db : Database) (connectionId : Uuid) : Database :=
  { db with
    routes := db.routes.mapRows fun _ route =>
      if route.targetConnectionId = some connectionId ∧ route.state = .active then
        { route with pausedFromState := some route.state, state := .target_unavailable }
      else route }

/-- The routes `restore_routes_after_target_recovery` finds, each as the session has it. -/
def routesToRestore (db : Database) (connectionId ownId : Uuid) (own : CopyRoute) : List (Uuid × CopyRoute) :=
  (db.routes.select fun _ route => route.targetConnectionId = some connectionId && route.state = .target_unavailable).map
    fun e => if e.1 = ownId then (ownId, own) else e

/-- `restore_routes_after_target_recovery`, written back. -/
def restoreRoutes (db : Database) (restored : List (Uuid × CopyRoute)) : Database :=
  { db with
    routes := restored.foldl (fun routes (id, loaded) => routes.modify id fun stored =>
      { stored with
        state := writeBack loaded.state (loaded.pausedFromState.getD .ready) stored.state
        pausedFromState := writeBack loaded.pausedFromState none stored.pausedFromState }) db.routes }

/-- The open and pending trades of a route, latest first. -/
def routeTrades (db : Database) (routeId : Uuid) : List (Uuid × CopiedTrade) :=
  (db.trades.select fun _ trade => trade.routeId = routeId && trade.lifecycleState.isActive).insertionSort
    fun a b => b.2.createdAt ≤ a.2.createdAt

/-- The open and pending trades an emergency is about. -/
def emergencyTrades (db : Database) (request : EmergencyRequest) : List Uuid :=
  (db.trades.select fun _ trade =>
    trade.lifecycleState.isActive && (db.routes.get? trade.routeId).any fun route =>
      route.userId = request.userId && (route.targetConnectionId.bind db.connections.get?).isSome &&
        match request.scope with
        | none => true
        | some (.account, id) => route.targetConnectionId = some id
        | some (.source, id) => route.sourceId = id
        | some (.route, id) => trade.routeId = id).map Prod.fst

end Database

/-! ## The account's equity -/

def dayUtc (now : Time) : Nat := now / seconds 86400

/-- The anchors of a policy as the session has them, the equity of this moment
taken into account. -/
structure EquityAnchors where
  date : Option Nat
  daily : Option ℚ
  peak : Option ℚ

def CopyAccountPolicy.anchors (policy : CopyAccountPolicy) (now : Time) (equity : Option ℚ) : EquityAnchors :=
  let date := policy.dailyEquityAnchorDate
  let daily := policy.dailyEquityAnchor.map Numeric.toRat
  let peak := policy.peakEquity.map Numeric.toRat
  match equity with
  | none => { date, daily, peak }
  | some equity =>
    { date := some (dayUtc now)
      daily := if date = some (dayUtc now) then daily else some equity
      peak := if peak.all (· < equity) then some equity else peak }

def Database.writeAnchors (db : Database) (connectionId : Uuid) (loaded : CopyAccountPolicy) (anchors : EquityAnchors) :
    Database :=
  { db with
    policies := db.policies.modify connectionId fun stored =>
      { stored with
        dailyEquityAnchorDate := writeBack loaded.dailyEquityAnchorDate anchors.date stored.dailyEquityAnchorDate
        dailyEquityAnchor :=
          writeBack loaded.dailyEquityAnchor (anchors.daily.map (Numeric.ofRat 2)) stored.dailyEquityAnchor
        peakEquity := writeBack loaded.peakEquity (anchors.peak.map (Numeric.ofRat 2)) stored.peakEquity } }

/-- The limits `_enforce_live_account_risk` checks. -/
def liveRisk (policy : CopyAccountPolicy) (trades : List (Uuid × CopiedTrade)) (anchors : EquityAnchors)
    (equity : Option ℚ) (symbol : Option String) (signalVolume : ℚ) : AccountRisk where
  symbol := symbol.getD ""
  signalVolume := signalVolume
  currentExposure := currentExposure trades
  currentPositions := trades.length
  equity := equity
  dailyEquityAnchor := anchors.daily
  peakEquity := anchors.peak
  maxLotPerTrade := policy.maxLotPerTrade
  maxTotalLot := policy.maxLot
  maxOpenPositions := policy.maxOpenPositions
  dailyLossLimit := policy.dailyLossLimit
  maxDrawdownPercent := policy.maxDrawdownPercent
  allowedSymbols := policy.allowedSymbols
  blockedSymbols := policy.blockedSymbols

/-! ## What a prepared run commits -/

abbrev MappingKey := Uuid × Uuid × String

/-- The changes of a session that are not of its intent, to be written back with
its next commit. -/
structure PendingWrites where
  connectionId : Uuid
  connection : CopyTradingConnection
  restored : List (Uuid × CopyRoute)
  mapping : Option (MappingKey × Option SymbolMapping × SymbolMapping) := none
  anchors : Option (CopyAccountPolicy × EquityAnchors) := none

def Database.writeMapping (db : Database) (key : MappingKey) (loaded : Option SymbolMapping) (new : SymbolMapping) :
    Database :=
  { db with
    symbolMappings := match loaded with
      | some loaded => db.symbolMappings.modify key fun stored =>
          { brokerSymbol := writeBack loaded.brokerSymbol new.brokerSymbol stored.brokerSymbol
            catalogVersion := writeBack loaded.catalogVersion new.catalogVersion stored.catalogVersion }
      | none => db.symbolMappings.add key new }

def PendingWrites.apply (p : PendingWrites) (db : Database) : Database :=
  let db := (db.writeConnection p.connectionId p.connection .ready).restoreRoutes p.restored
  let db := match p.mapping with
    | some (key, loaded, new) => db.writeMapping key loaded new
    | none => db
  match p.anchors with
  | some (loaded, anchors) => db.writeAnchors p.connectionId loaded anchors
  | none => db

@[simp] theorem PendingWrites.apply_intents (p : PendingWrites) (db : Database) : (p.apply db).intents = db.intents := by
  unfold apply
  split <;> split <;> rfl

@[simp] theorem PendingWrites.apply_trades (p : PendingWrites) (db : Database) : (p.apply db).trades = db.trades := by
  unfold apply
  split <;> split <;> rfl

/-- How the preparation of an order ends: without one, or with the call to make;
`new` has the intent's new columns. -/
inductive Prepared
  | done (result : DeliveryResult) (new : TradeIntent)
  | submit (call : ExecutionCall) (new : TradeIntent)

section

variable [Unicode]

/-- `_resolve_broker_symbol`, with the mapping to save. -/
def resolveBrokerSymbol (db : Database) (routeId connectionId : Uuid) (view : BrokerView) (requested : String) :
    Except ResolveError (BrokerSymbol × Option (MappingKey × Option SymbolMapping × SymbolMapping)) :=
  let symbols := view.specifications.map brokerSymbolFromMetaapi
  let key := (routeId, connectionId, Symbols.normalizeSymbol requested)
  let saved := db.symbolMappings.get? key
  let current := (saved.filter (·.catalogVersion = view.specifications)).bind fun mapping =>
    symbols.reverse.find? (·.name = mapping.brokerSymbol)
  match current with
  | some symbol => .ok (symbol, none)
  | none => (resolveSymbol requested symbols).map fun symbol =>
      (symbol, some (key, saved, { brokerSymbol := symbol.name, catalogVersion := view.specifications }))

/-- `_quality_details`; without a policy there is no limit to read. -/
def qualityDetails (policy : Option CopyAccountPolicy) (view : BrokerView) (symbol : BrokerSymbol) (payload : Payload)
    (now : Time) : Except PyException (Except QualityError ExecutionQuality) :=
  match view.quote, policy with
  | none, _ => .ok (.error .quoteUnavailable)
  | some _, none => .error .attributeError
  | some quote, some policy =>
    .ok (checkExecutionQuality quote symbol (payload.context.direction.getD .buy) (payload.context.entry.map Decimal.toRat)
      policy now)

/-- The intent after its order has failed the quality check. -/
def afterQualityError (intent : TradeIntent) (e : QualityError) : Prepared :=
  let attempts := intent.attemptCount + 1
  if e.retryable && attempts ≤ 1 then
    .done (.retry e.code) { intent with state := .retryable, attemptCount := attempts, lastErrorCode := some e.code }
  else .done .success { intent with state := .failed, attemptCount := attempts, lastErrorCode := some e.code }

/-- The broker's symbol for the payload's, if it names one. -/
def payloadSymbol (db : Database) (s : ReadySession) (view : BrokerView) :
    Except PyException (Option BrokerSymbol × Option (MappingKey × Option SymbolMapping × SymbolMapping)) :=
  match s.intent.requestPayload.context.symbol.filter (· ≠ "") with
  | none => .ok (none, none)
  | some symbol =>
    match resolveBrokerSymbol db s.intent.routeId s.connectionId view symbol with
    | .ok (selected, mapping) => .ok (some selected, mapping)
    | .error _ => .error .valueError

/-- The quality check of an opening that has a symbol. -/
def orderQuality (s : ReadySession) (action : SignalAction) (selected : Option BrokerSymbol) (view : BrokerView) (now : Time) :
    Except PyException (Option QualityError) :=
  match selected.filter fun _ => action.isOpening with
  | none => .ok none
  | some symbol =>
    match qualityDetails s.policy view symbol s.intent.requestPayload now with
    | .error e => .error e
    | .ok (.error e) => .ok (some e)
    | .ok (.ok _) => .ok none

/-- `_enforce_live_account_risk`: the anchors as they are moved, and the limit that
is exceeded. -/
def enforceLiveAccountRisk (db : Database) (s : ReadySession) (view : BrokerView) (now : Time) (signalVolume : ℚ) :
    Except PyException (Option (CopyAccountPolicy × EquityAnchors) × Option RiskError) :=
  if signalVolume ≤ 0 then .ok (none, none)
  else match s.policy with
  | none => .error .attributeError
  | some policy =>
    let anchors := policy.anchors now view.equity
    let risk := liveRisk policy (db.activeTrades s.route) anchors view.equity s.intent.requestPayload.context.symbol
      signalVolume
    match ensureAccountRiskWithinLimits risk with
    | .ok () => .ok (some (policy, anchors), none)
    | .error e => .ok (some (policy, anchors), some e)

/-- The volume the limits are checked for. -/
def requestedVolume (s : ReadySession) (action : SignalAction) : ℚ :=
  if action.isOpening then s.intent.requestPayload.requestedVolume s.route else 0

/-- From the symbol to the commit that ends the preparation; an exception is a
rollback. -/
def prepareExecution (db : Database) (now : Time) (s : ReadySession) (restored : List (Uuid × CopyRoute)) (view : BrokerView) :
    Except PyException (PendingWrites × Prepared) :=
  match payloadSymbol db s view, s.intent.requestPayload.context.action with
  | .error e, _ => .error e
  | .ok _, none => .error .keyError
  | .ok (selected, mapping), some action =>
    let pending : PendingWrites := { connectionId := s.connectionId, connection := s.connection, restored, mapping }
    match orderQuality s action selected view now with
    | .error e => .error e
    | .ok (some e) => .ok (pending, afterQualityError s.intent e)
    | .ok none =>
      match enforceLiveAccountRisk db s view now (requestedVolume s action) with
      | .error e => .error e
      | .ok (anchors, some _) =>
        .ok ({ pending with anchors },
          .done .success { s.intent with state := .failed, lastErrorCode := some "RISK_LIMIT_REACHED" })
      | .ok (anchors, none) =>
        .ok ({ pending with anchors },
          .submit
            { intentId := s.intentId, intent := s.intent, route := s.route, parsedAction := s.parsedAction, action
              copied := (selectTrade (db.routeTrades s.intent.routeId) s.intent.requestPayload).map Prod.fst, selected }
            { s.intent with state := .submitted, attemptCount := s.intent.attemptCount + 1 })

end

/-! ## The phases of a run -/

/-- The idempotency keys of the execution stream. -/
inductive ExecutionKey
  | intent (key : IntentKey)
  | reconcile (intentId : Uuid) (attempt : Nat)
  | sweep (intentId : Uuid) (bucket : Nat)
  | replay (n : Nat)
  | emergency (n : Nat)
deriving DecidableEq

inductive ExecutionPayload
  | execute (intentId : Uuid)
  | reconcile (intentId : Uuid)
  | emergency (request : EmergencyRequest)
deriving DecidableEq

structure ExecutionEvent where
  key : ExecutionKey
  payload : ExecutionPayload
deriving DecidableEq

inductive LockChange
  | keep
  | acquire (connectionId : Option Uuid)
  | release (connectionId : Option Uuid)

/-- What a run does in one step: the database it leaves, where it stands then, and
what it does outside. -/
structure HandlerStep where
  db : Database
  stage : DeliveryStage ExecutionPhase
  lock : LockChange := .keep
  call : Option (Uuid × BrokerCall) := none
  publish : Option ExecutionEvent := none

namespace HandlerStep

def goto (db : Database) (phase : ExecutionPhase) (lock : LockChange := .keep) : HandlerStep :=
  { db, stage := .handle phase, lock }

def finish (db : Database) (result : DeliveryResult) (lock : LockChange := .keep) : HandlerStep :=
  { db, stage := .result result, lock }

end HandlerStep

/-- What a run is told from outside when it takes its next step. -/
inductive HandlerLabel
  | load (hasCopyAccess : Bool)
  | bar
  | acquire
  | busy
  | gate
  | connect (error : Option PyException)
  | prepare (view : BrokerView)
  | call (response : Except PyException BrokerResult)
  | settle
  | publish
  | reconcile
  | mark
  | find (found : Except PyException Bool)
  | conclude
  | emergency
  /-- The next trade of an emergency: its account is busy, an exception, or done. -/
  | emergencyBusy
  | emergencyFails (e : PyException)
  | emergencyDone

/-- Where the handler starts on an event. -/
def ExecutionEvent.begin (event : ExecutionEvent) : ExecutionPhase :=
  match event.payload with
  | .execute intentId => .load intentId
  | .reconcile intentId => .reconcile intentId
  | .emergency request => .emergency request

def TradeIntentState.isExecutable : TradeIntentState → Bool
  | .created | .retryable => true
  | _ => false

def TradeIntentState.isUnresolved : TradeIntentState → Bool
  | .uncertain | .reconciling => true
  | _ => false

section

variable [Unicode] (settings : ExecutionSettings) (run : Nat) (now : Time)

/-- An exception ends the run: the session is rolled back, the lock released. -/
def HandlerStep.raise (db : Database) (e : PyException) (lock : LockChange := .keep) : HandlerStep :=
  .finish db (.retry (Unicode.upper e.name)) lock

/-- The rows are loaded, up to the connection lock. -/
def loadStep (db : Database) (intentId : Uuid) (hasCopyAccess : Bool) : HandlerStep :=
  match db.intents.get? intentId with
  | none => .finish db (.retry "INTENT_NOT_VISIBLE")
  | some intent =>
    if !intent.state.isExecutable then .finish db .success
    else if settings.billingEnforced && !hasCopyAccess && intent.requestPayload.context.action.any SignalAction.isOpening then
      .goto db (.bar intentId intent)
    else .goto db (.acquire
      { intentId, intent
        route := db.routes.get? intent.routeId
        connection := intent.connectionId.bind db.connections.get?
        parsedAction := db.parsedActions.get? intent.parsedActionId })

def barStep (db : Database) (intentId : Uuid) (loaded : TradeIntent) : HandlerStep :=
  .finish (db.writeIntent intentId loaded { loaded with state := .failed, lastErrorCode := some "SUBSCRIPTION_INACTIVE" }) .success

/-- The session may trade: its route and connection, and the connection's id. -/
def ExecutionSession.ready (s : ExecutionSession) (userPaused policyPaused : Bool) :
    Option (CopyRoute × Uuid × CopyTradingConnection) :=
  match s.route, s.intent.connectionId, s.connection with
  | some route, some connectionId, some connection =>
    if settings.globalPaused || !settings.metaapiEnabled || route.state ≠ .active ||
        !(connection.state = .ready || connection.state = .broker_disconnected) ||
        (connection.metaapiAccountId.filter (· ≠ "")).isNone || userPaused || policyPaused then none
    else some (route, connectionId, connection)
  | _, _, _ => none

/-- The checks made under the lock. -/
def gateStep (db : Database) (s : ExecutionSession) : HandlerStep :=
  let policy := s.intent.connectionId.bind db.policies.get?
  if s.route.any (·.state = .target_unavailable) then
    .finish db (.retry "TARGET_UNAVAILABLE") (.release s.intent.connectionId)
  else match s.ready settings ((db.userSettings.get? s.intent.userId).any (·.isPaused)) (policy.any (·.isPaused)) with
  | none =>
    .finish (db.writeIntent s.intentId s.intent { s.intent with state := .failed, lastErrorCode := some "AUTOMATION_PAUSED" })
      .success (.release s.intent.connectionId)
  | some (route, connectionId, connection) =>
    .goto db (.connect
      { intentId := s.intentId, intent := s.intent, route, connectionId, connection, parsedAction := s.parsedAction, policy })

/-- The broker connection is acquired, or is not. -/
def connectStep (db : Database) (s : ReadySession) (error : Option PyException) : HandlerStep :=
  match error with
  | some e =>
    .raise ((db.writeConnection s.connectionId s.connection .broker_disconnected).markRoutesTargetUnavailable s.connectionId)
      e (.release s.intent.connectionId)
  | none => .goto db (.prepare s (db.routesToRestore s.connectionId s.intent.routeId s.route))

def prepareStep (db : Database) (s : ReadySession) (restored : List (Uuid × CopyRoute)) (view : BrokerView) : HandlerStep :=
  match prepareExecution db now s restored view with
  | .error e => .raise db e (.release s.intent.connectionId)
  | .ok (pending, .done result new) =>
    .finish ((pending.apply db).writeIntent s.intentId s.intent new) result (.release s.intent.connectionId)
  | .ok (pending, .submit call new) => .goto ((pending.apply db).writeIntent s.intentId s.intent new) (.call call)

/-- The preparation commits the intent with what goes with it, or nothing. -/
theorem prepareStep_db (db : Database) (s : ReadySession) (restored : List (Uuid × CopyRoute)) (view : BrokerView) :
    (prepareStep now db s restored view).db = db ∨ ∃ pending prepared intent,
      prepareExecution db now s restored view = .ok (pending, prepared) ∧
        (prepareStep now db s restored view).db = (pending.apply db).writeIntent s.intentId s.intent intent := by
  unfold prepareStep
  split
  · exact .inl rfl
  · rename_i hp
    exact .inr ⟨_, _, _, hp, rfl⟩
  · rename_i hp
    exact .inr ⟨_, _, _, hp, rfl⟩

/-- The broker is called, unless there is nothing to call it with; the session has
loaded the intent and the matched trade again. -/
def callStep (db : Database) (c : ExecutionCall) (response : Except PyException BrokerResult) : Option HandlerStep :=
  (db.intents.get? c.intentId).map fun loaded =>
    let copied := c.copied.bind db.trades.get?
    match runAction c.route c.intent.clientOrderId c.intent.requestPayload c.action copied c.selected with
    | .error e => .goto db (.settle c loaded copied (.error e))
    | .ok (call, volume) =>
      { stage := .handle (.settle c loaded copied (response.map fun result => (result, volume)))
        db, call := some (c.intentId, call) }

/-- The copied trades after a confirmed call, or the exception of writing them. -/
def confirmTrades (db : Database) (c : ExecutionCall) (copied : Option CopiedTrade) (result : BrokerResult)
    (volume : Option ℚ) : Except PyException (Table Uuid CopiedTrade) :=
  if c.action.isOpening then
    match c.parsedAction, c.selected with
    | some parsedAction, some symbol =>
      match db.trades.push c.intentId (openedTrade run now c.intent.routeId parsedAction.threadId c.intent.connectionId
          c.intent.requestPayload c.action symbol (volume.getD 0) result) with
      | some trades => .ok trades
      | none => .error .integrityError
    | _, _ => .error .attributeError
  else match c.copied, copied with
    | some key, some loaded =>
      (confirmCopied c.intent.requestPayload c.action (volume.getD 0) loaded).map fun new =>
        db.trades.modify key (loaded.writeBack new)
    | _, _ => .ok db.trades

def settleStep (db : Database) (c : ExecutionCall) (loaded : TradeIntent) (copied : Option CopiedTrade)
    (outcome : CallOutcome) : HandlerStep :=
  let release := LockChange.release c.intent.connectionId
  match outcome with
  | .error e =>
    let permanent := isPermanentMetaapiError e
    let db := db.writeIntent c.intentId loaded
      { loaded with state := if permanent then .failed else .uncertain, lastErrorCode := some e.name }
    if permanent then .finish db .success release else .goto db (.publish c)
  | .ok (result, volume) =>
    match confirmTrades run now db c copied result volume with
    | .error e => .raise db e release
    | .ok trades => .finish ({ db with trades }.writeIntent c.intentId loaded { loaded with state := .confirmed }) .success release

def publishStep (db : Database) (c : ExecutionCall) : Option HandlerStep :=
  (db.intents.get? c.intentId).map fun intent =>
    { HandlerStep.finish db .success (.release c.intent.connectionId) with
      publish := some ⟨.reconcile c.intentId intent.attemptCount, .reconcile c.intentId⟩ }

/-! ### Reconciliation -/

def reconcileStep (db : Database) (intentId : Uuid) : HandlerStep :=
  match db.intents.get? intentId with
  | none => .finish db .success
  | some intent =>
    if !intent.state.isUnresolved then .finish db .success
    else if ((intent.connectionId.bind db.connections.get?).bind fun c => c.metaapiAccountId.filter (· ≠ "")).isNone then
      .finish db (.retry "CONNECTION_UNAVAILABLE")
    else .goto db (.mark intentId intent)

def markStep (db : Database) (intentId : Uuid) (loaded : TradeIntent) : HandlerStep :=
  .goto (db.writeIntent intentId loaded { loaded with state := .reconciling }) (.find intentId)

/-- An order, position or deal with the intent's client id is found, or none is;
the session has loaded the intent again. -/
def findStep (db : Database) (intentId : Uuid) (found : Except PyException Bool) : Option HandlerStep :=
  match found with
  | .error e => some (.raise db e)
  | .ok found => (db.intents.get? intentId).map fun loaded => .goto db (.conclude intentId loaded found)

/-- `_uncertain_intent_expired`. -/
def uncertainIntentExpired (intent : TradeIntent) : Bool :=
  seconds settings.uncertainMaxAgeSeconds ≤ now - intent.createdAt

def concludeStep (db : Database) (intentId : Uuid) (loaded : TradeIntent) (found : Bool) : HandlerStep :=
  let new :=
    if found then { loaded with state := .confirmed }
    else if uncertainIntentExpired settings now loaded then
      { loaded with state := .failed, lastErrorCode := some "BROKER_CONFIRMATION_TIMEOUT" }
    else { loaded with state := .uncertain }
  .finish (db.writeIntent intentId loaded new) .success

/-! ### Emergencies -/

/-- A trade after the broker has closed or cancelled it. -/
def emergencyTrade (request : EmergencyRequest) (trade : CopiedTrade) : CopiedTrade :=
  if trade.lifecycleState = .open ∧ request.action ≠ .cancel_pending then { trade with lifecycleState := .closed }
  else if trade.lifecycleState = .pending ∧ request.action ≠ .close_positions then { trade with lifecycleState := .cancelled }
  else trade

/-- The connection of a trade, if it has a broker account. -/
def Database.tradeConnection (db : Database) (trade : CopiedTrade) : Option Uuid :=
  ((db.routes.get? trade.routeId).bind (·.targetConnectionId)).filter fun id =>
    (db.connections.get? id).any fun connection => (connection.metaapiAccountId.filter (· ≠ "")).isSome

/-- The next trade of an emergency; `lockFree` says which connections are. -/
def emergencyStep (lockFree : Option Uuid → Bool) (db : Database) (request : EmergencyRequest) (id : Uuid) (rest : List Uuid) :
    HandlerLabel → Option HandlerStep
  | label =>
    match db.trades.get? id with
    | none => none
    | some trade =>
      match db.tradeConnection trade, label with
      | none, .emergencyDone => some (.goto db (.emergencyRows request rest))
      | some _, .emergencyBusy => some (.finish db (.retry "CONNECTION_BUSY"))
      | some connectionId, .emergencyFails e => if lockFree (some connectionId) then some (.raise db e) else none
      | some connectionId, .emergencyDone =>
        if lockFree (some connectionId) then
          some (.goto { db with trades := db.trades.modify id (emergencyTrade request) } (.emergencyRows request rest))
        else none
      | _, _ => none

/-- The next step of a run; `none` where the label is not what the run waits for. -/
def handlerStep (lockFree : Option Uuid → Bool) (db : Database) : ExecutionPhase → HandlerLabel → Option HandlerStep
  | .load intentId, .load hasCopyAccess => some (loadStep settings db intentId hasCopyAccess)
  | .bar intentId loaded, .bar => some (barStep db intentId loaded)
  | .acquire s, .acquire =>
    if lockFree s.intent.connectionId then some (.goto db (.gate s) (.acquire s.intent.connectionId)) else none
  | .acquire _, .busy => some (.finish db (.retry "CONNECTION_BUSY"))
  | .gate s, .gate => some (gateStep settings db s)
  | .connect s, .connect error => some (connectStep db s error)
  | .prepare s restored, .prepare view => some (prepareStep now db s restored view)
  | .call c, .call response => callStep db c response
  | .settle c loaded copied outcome, .settle => some (settleStep run now db c loaded copied outcome)
  | .publish c, .publish => publishStep db c
  | .reconcile intentId, .reconcile => some (reconcileStep db intentId)
  | .mark intentId loaded, .mark => some (markStep db intentId loaded)
  | .find intentId, .find found => findStep db intentId found
  | .conclude intentId loaded found, .conclude => some (concludeStep settings now db intentId loaded found)
  | .emergency request, .emergency => some (.goto db (.emergencyRows request (db.emergencyTrades request)))
  | .emergencyRows _ [], .emergency => some (.finish db .success)
  | .emergencyRows request (id :: rest), label => emergencyStep lockFree db request id rest label
  | _, _ => none

end

end SignalSync
