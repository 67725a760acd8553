import SignalSync.Database
import SignalSync.Execution.Risk

/-!
# A message on one route

The body of `signal_handler`'s loop over the accepting routes. What it reads of
the database for a route is a `RouteView`; `planRoute` computes from the view
alone what the body writes and sends (`RoutePlan`), and `RoutePlan.write` puts
the rows into the tables. The only other thing read is whether the route's
duplicate key is alive in Redis.

* `planSignal_isIntentFor`: the rows a plan adds are for this message and route, with
  the action of the generation's merged context;
* `planSignal_assembly`: what becomes of the generation.
-/

namespace SignalSync

open Library

inductive MessageEventType
  | created | edited | deleted
deriving DecidableEq, Repr

/-- A `message.*` event of the Telegram stream. -/
structure MessageEvent where
  eventType : MessageEventType
  correlationId : Uuid
  connectionId : Uuid
  sourceId : Uuid
  chatId : Int
  messageId : Int
  replyToMessageId : Option Int := none
  senderIsAdmin : Bool := false
  text : String
  occurredAt : Time
deriving DecidableEq

/-- What one run of the handler finds outside the database: its clock, its
settings, the parser (regular expressions and the language model), and the name
of its random draws. -/
structure SignalEnv where
  run : Nat
  now : Time
  globalPaused : Bool := false
  lockAcquired : Bool := true
  confidenceThreshold : ℚ := 3 / 4
  parseMessage : String → Context → Except String AiAction

/-- The fields `_semantic_fingerprint` hashes, as they are written. -/
structure SemanticKey where
  routeId : Uuid
  action : Option SignalAction
  symbol : Option String
  direction : Option Direction
  entry : Option Decimal
  entryHigh : Option Decimal
  stopLoss : Option Decimal
  takeProfits : List Decimal
  closeFraction : Option Decimal
deriving DecidableEq

def semanticFingerprint (routeId : Uuid) (payload : Context) : SemanticKey where
  routeId := routeId
  action := payload.action
  symbol := payload.symbol
  direction := payload.direction
  entry := payload.entry
  entryHigh := payload.entryHigh
  stopLoss := payload.stopLoss
  takeProfits := payload.takeProfits
  closeFraction := payload.closeFraction

/-- A change of Redis: a `SET NX EX` that was accepted, with the time the key
expires, or an `intent.execute` event. -/
inductive RedisEffect
  | setSemantic (key : SemanticKey) (expires : Time)
  | publishExecute (intentId : Uuid) (key : IntentKey)
deriving DecidableEq

/-- The duplicate keys in Redis with their expiry. -/
abbrev SemanticKeys := List (SemanticKey × Time)

def SemanticKeys.alive (keys : SemanticKeys) (now : Time) (key : SemanticKey) : Bool :=
  keys.any fun e => e.1 = key && now < e.2

inductive SignalError
  | attributeError | integrityError | keyError
deriving DecidableEq, Repr

/-! ## What a route sees -/

/-- The rows `signal_handler` reads for a route, and which of the identifiers it
is about to draw are taken. -/
structure RouteView where
  settings : Option CopyTradingUserSettings
  policy : Option CopyAccountPolicy
  assemblies : List (Uuid × RouteSignalAssembly)
  assemblyTaken : Bool
  parsedActions : List (Uuid × ParsedAction)
  actionTaken : Bool
  intents : List (Uuid × TradeIntent)
  intentsTaken : List Uuid
  activeTrades : List (Uuid × CopiedTrade)

def RouteAssemblyState.isActive : RouteAssemblyState → Bool
  | assembling | ready | executing => true
  | _ => false

/-- `completed` or `failed`. -/
def RouteAssemblyState.isFinished : RouteAssemblyState → Bool
  | .completed | .failed => true
  | _ => false

theorem RouteAssemblyState.not_finished_of_active {state : RouteAssemblyState} (h : state.isActive) : state.isFinished = false := by
  cases state <;> first | rfl | cases h

def LifecycleState.isActive : LifecycleState → Bool
  | .open | .pending => true
  | _ => false

/-- An intent drawn by a run for a route. -/
def Uuid.isIntentOf (id : Uuid) (run : Nat) (routeId : Uuid) : Bool :=
  match id with
  | .intent run' routeId' _ _ => run' = run && routeId' = routeId
  | _ => false

/-- The open and pending trades of the route's account. -/
def Database.activeTrades (db : Database) (route : CopyRoute) : List (Uuid × CopiedTrade) :=
  db.trades.select fun _ trade =>
    (db.routes.get? trade.routeId).any (·.targetConnectionId = route.targetConnectionId) &&
      trade.lifecycleState.isActive

/-- The intents of a route. -/
def Database.intentsOf (db : Database) (routeId : Uuid) : List (Uuid × TradeIntent) :=
  db.intents.select fun _ i => i.idempotencyKey.routeId = routeId

def Database.routeView (db : Database) (run : Nat) (conversationId routeId : Uuid) (route : CopyRoute) : RouteView where
  settings := db.userSettings.get? route.userId
  policy := route.targetConnectionId.bind db.policies.get?
  assemblies := db.assemblies.select fun _ a => a.conversationId = conversationId && a.routeId = routeId
  assemblyTaken := (db.assemblies.get? (.assembly run routeId)).isSome
  parsedActions := db.parsedActions.select fun _ a => a.routeId = routeId
  actionTaken := (db.parsedActions.get? (.parsedAction run routeId)).isSome
  intents := db.intentsOf routeId
  intentsTaken := (db.intents.select fun id _ => id.isIntentOf run routeId).map Prod.fst
  activeTrades := db.activeTrades route

namespace RouteView

def isPaused (view : RouteView) : Bool := view.settings.any (·.isPaused) || view.policy.any (·.isPaused)

end RouteView

/-- `current_volume or original_volume or 0`. -/
def CopiedTrade.exposure (trade : CopiedTrade) : ℚ :=
  match trade.currentVolume.filter (·.toRat ≠ 0) with
  | some v => v.toRat
  | none => (trade.originalVolume.map (·.toRat)).getD 0

def currentExposure (trades : List (Uuid × CopiedTrade)) : ℚ := (trades.map fun e => e.2.exposure).sum

/-! ## What a route does -/

section

variable (env : SignalEnv) (event : MessageEvent)

def routeDeadline (now : Time) (assemblyWindowSeconds : Option Nat) : Time :=
  now + seconds (match assemblyWindowSeconds with | some 0 | none => 90 | some n => n)

/-- The active generation of the route in the conversation, or the next one. -/
def currentAssembly (conversationId : Uuid) (conversation : SignalConversation) (routeId : Uuid) (route : CopyRoute)
    (view : RouteView) : Uuid × RouteSignalAssembly × Bool :=
  match view.assemblies.find? (·.2.state.isActive) with
  | some (id, assembly) => (id, assembly, false)
  | none =>
    (.assembly env.run routeId,
      { conversationId, routeId, state := .assembling, context := conversation.context, messageReferences := []
        generation := (view.assemblies.map fun e => e.2.generation).foldr max 0 + 1
        assemblyDeadline := routeDeadline env.now route.assemblyWindowSeconds },
      true)

/-- The revision of the message in the generation, counted from 1. -/
def nextRevision (refs : List MessageReference) : Nat :=
  1 + ((refs.filter (·.messageId = event.messageId)).map (·.revision)).foldr max 0

/-- The generation with the update merged in. -/
def mergeMessage (update : Context) (assembly : RouteSignalAssembly) : RouteSignalAssembly :=
  let merged := mergeGenerationContext assembly.context update assembly.openingIntentId.isSome
  { assembly with
    context := merged
    openingAction := assembly.openingAction <|> merged.action.filter SignalAction.isOpen
    messageReferences := assembly.messageReferences ++
      [⟨event.messageId, nextRevision event assembly.messageReferences⟩] }

def parsedSignal (parsed : AiAction) (merged : Context) (action : SignalAction) : ParsedSignal where
  action := action
  symbol := merged.symbol
  direction := merged.direction
  entry := merged.entry
  entryHigh := merged.entryHigh
  stopLoss := merged.stopLoss
  takeProfits := merged.takeProfits
  closeFraction := merged.closeFraction
  ageSeconds := ((env.now - event.occurredAt : Nat) : ℚ) / 1000000
  confidence := parsed.confidence

def routeExecutionPolicy (route : CopyRoute) (policy : CopyAccountPolicy) : RouteExecutionPolicy where
  minimumFields := route.minimumFields
  confidenceThreshold := env.confidenceThreshold
  marketFreshnessSeconds := policy.marketSignalMaxAgeSeconds
  pendingOrdersEnabled := route.pendingOrdersEnabled
  allowSlTpUpdates := route.allowSlTpUpdates
  allowBreakEven := route.allowBreakEven
  allowPartialClose := route.allowPartialClose
  allowFullClose := route.allowFullClose
  allowPendingCancel := route.allowPendingCancel
  allowAdditionalTp := route.allowAdditionalTp

/-- The limits as they are checked before the account's equity is known. -/
def signalRisk (policy : CopyAccountPolicy) (view : RouteView) (symbol : Option String) (signalVolume : ℚ) :
    AccountRisk where
  symbol := symbol.getD ""
  signalVolume := signalVolume
  currentExposure := currentExposure view.activeTrades
  currentPositions := view.activeTrades.length
  equity := none
  dailyEquityAnchor := none
  peakEquity := none
  maxLotPerTrade := policy.maxLotPerTrade
  maxTotalLot := policy.maxLot
  maxOpenPositions := policy.maxOpenPositions
  dailyLossLimit := none
  maxDrawdownPercent := none
  allowedSymbols := policy.allowedSymbols
  blockedSymbols := policy.blockedSymbols

end

/-- `_COPIED_TRADE_MANAGEMENT_ACTIONS`. -/
def SignalAction.isTradeManagement : SignalAction → Bool
  | .modify_sl_tp | .break_even | .partial_close | .full_close | .cancel_pending => true
  | _ => false

/-- Two rows that a unique constraint of `trade_intents` does not admit together. -/
def intentsClash (a b : Uuid × TradeIntent) : Bool :=
  a.1 = b.1 || a.2.idempotencyKey = b.2.idempotencyKey || a.2.clientOrderId = b.2.clientOrderId

/-- The candidates that violate no constraint; the others are passed over. -/
def insertable (taken : List (Uuid × TradeIntent)) : List (Uuid × TradeIntent) → List (Uuid × TradeIntent)
  | [] => []
  | c :: cs => if taken.any (intentsClash c) then insertable taken cs else c :: insertable (c :: taken) cs

theorem mem_of_mem_insertable {taken rows : List (Uuid × TradeIntent)} {e : Uuid × TradeIntent}
    (h : e ∈ insertable taken rows) : e ∈ rows := by
  induction rows generalizing taken with
  | nil => exact h
  | cons c rows ih =>
    unfold insertable at h
    split at h
    · exact List.mem_cons_of_mem _ (ih h)
    · rcases List.mem_cons.mp h with rfl | h
      · exact List.mem_cons_self
      · exact List.mem_cons_of_mem _ (ih h)

/-- No two inserted rows, and no inserted row and an earlier one, clash. -/
theorem insertable_ids {taken rows : List (Uuid × TradeIntent)} :
    ((insertable taken rows).map Prod.fst).Nodup ∧
      ∀ e ∈ insertable taken rows, e.1 ∉ taken.map Prod.fst := by
  induction rows generalizing taken with
  | nil => simp [insertable]
  | cons c rows ih =>
    unfold insertable
    split
    · exact ih
    · rename_i hc
      obtain ⟨hn, hd⟩ := @ih (c :: taken)
      have hc : c.1 ∉ taken.map Prod.fst := by
        rintro hm
        obtain ⟨t, ht, he⟩ := List.mem_map.mp hm
        exact hc (List.any_eq_true.mpr ⟨t, ht, by simp [intentsClash, he]⟩)
      refine ⟨?_, ?_⟩
      · rw [List.map_cons, List.nodup_cons]
        refine ⟨fun hm => ?_, hn⟩
        obtain ⟨e, he, hec⟩ := List.mem_map.mp hm
        exact hd e he (by simp [hec])
      · rintro e he
        rcases List.mem_cons.mp he with rfl | he
        · exact hc
        · exact fun hm => hd e he (by simp [hm])

/-- Rows that do not clash are all inserted. -/
theorem insertable_eq_self {taken rows : List (Uuid × TradeIntent)} (h : rows.Pairwise fun a b => intentsClash b a = false)
    (ht : ∀ a ∈ rows, taken.any (intentsClash a) = false) : insertable taken rows = rows := by
  induction rows generalizing taken with
  | nil => rfl
  | cons c rows ih =>
    obtain ⟨hc, hrows⟩ := List.pairwise_cons.mp h
    rw [insertable, ht c List.mem_cons_self, if_neg Bool.false_ne_true, ih hrows]
    intro a ha
    rw [List.any_cons, hc a ha, ht a (List.mem_cons_of_mem _ ha), Bool.or_false]

variable [Unicode]

/-- `_management_intent_targets`; `none` is an intent without a target. -/
def managementIntentTargets (action : SignalAction) (trades : List CopiedTrade) (routeId threadId : Uuid)
    (symbol : Option String) : List (Option CopiedTrade) :=
  if !action.isTradeManagement then [none]
  else
    let routeTrades := trades.filter (·.routeId = routeId)
    let selected : List CopiedTrade :=
      match symbol.filter fun s => action = .full_close && s ≠ "" with
      | some symbol =>
        let target := Symbols.normalizeSymbol symbol
        routeTrades.filter fun trade : CopiedTrade =>
          let candidate := Symbols.normalizeSymbol trade.signalSymbol
          Symbols.startsWith candidate target || Symbols.startsWith target candidate
      | none => routeTrades.filter (·.threadId = threadId)
    (selected.insertionSort fun a b => a.createdAt ≤ b.createdAt).map some

/-- The payload of one leg and one target. -/
def intentPayload (merged : Context) (conversationId : Uuid) (route : CopyRoute) (leg : Option TakeProfitLeg)
    (target : Option CopiedTrade) : Payload where
  context := merged
  volume := some ((leg.map (·.lot)).getD route.fixedLot.toRat)
  takeProfit := (leg.map (·.takeProfit)) <|> merged.takeProfits.getLast?
  conversationId := conversationId
  copiedTradeId := target.map (·.id)

/-- Position of each element with it, as `enumerate`. -/
def enumerate {α : Type} (items : List α) : List (Nat × α) := items.zipIdx.map fun e => (e.2, e.1)

section

variable (env : SignalEnv) (event : MessageEvent)

/-- The intents the body tries to insert, leg by leg and target by target. -/
def candidateIntents (merged : Context) (action : SignalAction) (revision : Nat) (conversationId : Uuid)
    (routeId : Uuid) (route : CopyRoute) (legs : List (Option TakeProfitLeg)) (targets : List (Option CopiedTrade)) :
    List (Uuid × TradeIntent) :=
  (enumerate legs).flatMap fun (index, leg) => (enumerate targets).map fun (targetIndex, target) =>
    let id := .intent env.run routeId index targetIndex
    (id,
      { userId := route.userId
        routeId := routeId
        connectionId := route.targetConnectionId
        parsedActionId := .parsedAction env.run routeId
        idempotencyKey :=
          { connectionId := event.connectionId, chatId := event.chatId, messageId := event.messageId
            revision := revision, routeId := routeId, action := action, index := index
            target := (target.map fun trade => Sum.inl trade.id).getD (.inr targetIndex) }
        clientOrderId := ⟨routeId, id⟩
        state := .created
        requestPayload := intentPayload merged conversationId route leg target
        createdAt := env.now })

/-- What the body writes and sends for a route. -/
structure RoutePlan where
  assemblyId : Uuid
  isNew : Bool
  assembly : RouteSignalAssembly
  parsedAction : ParsedAction
  intents : List (Uuid × TradeIntent)
  effects : List RedisEffect

/-- `mark_generation_submitted`, for each intent inserted. -/
def markSubmitted (assembly : RouteSignalAssembly) (intents : List (Uuid × TradeIntent)) : RouteSignalAssembly :=
  match intents with
  | [] => assembly
  | (id, _) :: _ => { assembly with state := .executing, openingIntentId := assembly.openingIntentId <|> some id }

/-- The signal read from the generation, or the reason the loop goes on to the
next route without one. -/
structure RouteSignal where
  assemblyId : Uuid
  isNew : Bool
  assembly : RouteSignalAssembly
  revision : Nat
  action : SignalAction
  signal : ParsedSignal
  policy : CopyAccountPolicy
  parsedAction : ParsedAction

variable (parsed : AiAction) (update : Context) (conversationId : Uuid) (conversation : SignalConversation)
  (routeId : Uuid) (route : CopyRoute)

/-- The generation, its merged context and the parsed action's row. -/
def routeSignal (view : RouteView) : Except SignalError RouteSignal :=
  let (assemblyId, current, isNew) := currentAssembly env conversationId conversation routeId route view
  if isNew && view.assemblyTaken then .error .integrityError
  else
    let assembly := mergeMessage event update current
    let revision := nextRevision event current.messageReferences
    match assembly.context.action, view.policy with
    | none, _ => .error .keyError
    | _, none => .error .attributeError
    | some action, some policy =>
      let row : ParsedAction :=
        { threadId := conversation.legacyThreadId, routeId, telegramMessageId := event.messageId
          actionType := action, revision, assemblyId }
      if view.actionTaken || view.parsedActions.any (·.2.clash row) then .error .integrityError
      else .ok
        { assemblyId, isNew, assembly, revision, action, policy, parsedAction := row
          signal := parsedSignal env event parsed assembly.context action }

/-- What validation, the limits and the open trades say of the signal. -/
inductive RouteVerdict
  /-- Refused or incomplete; the generation goes on. -/
  | refused
  /-- Over a limit of the account; the generation is skipped. -/
  | limited
  | proceed (targets : List (Option CopiedTrade))

def routeVerdict (view : RouteView) (s : RouteSignal) : RouteVerdict :=
  let volume := signalVolumeForAction s.action route.fixedLot.toRat s.signal.takeProfits.length
    route.takeProfitMode route.lotDistribution
  if !(validateSignal s.signal (routeExecutionPolicy env route s.policy)).accepted then .refused
  else match if 0 < volume then ensureAccountRiskWithinLimits (signalRisk s.policy view s.signal.symbol volume)
      else .ok () with
    | .error _ => .limited
    | .ok () => .proceed (managementIntentTargets s.action (view.activeTrades.map Prod.snd) routeId
        conversation.legacyThreadId s.signal.symbol)

/-- The intents inserted for the targets. -/
def newIntents (view : RouteView) (s : RouteSignal) (targets : List (Option CopiedTrade)) : List (Uuid × TradeIntent) :=
  let legs := intentLegsForAction s.action route.fixedLot.toRat s.signal.takeProfits
    route.takeProfitMode route.lotDistribution
  let candidates := candidateIntents env event s.assembly.context s.action s.revision conversationId routeId route
    legs targets
  insertable view.intents (candidates.filter (·.1 ∉ view.intentsTaken))

def RouteSignal.plan (s : RouteSignal) (assembly : RouteSignalAssembly) (intents : List (Uuid × TradeIntent))
    (effects : List RedisEffect) : RoutePlan where
  assemblyId := s.assemblyId
  isNew := s.isNew
  assembly := assembly
  parsedAction := s.parsedAction
  intents := intents
  effects := effects

/-- The route's duplicate key. -/
def RouteSignal.duplicateKey (s : RouteSignal) : SemanticKey := semanticFingerprint routeId s.assembly.context

/-- The signal is a duplicate: its key is alive. -/
def RouteSignal.heldBack (s : RouteSignal) (alive : SemanticKey → Bool) : Bool :=
  0 < route.semanticDuplicateWindowSeconds && alive (s.duplicateKey routeId)

def planSignal (view : RouteView) (alive : SemanticKey → Bool) (s : RouteSignal) : RoutePlan :=
  let skipped := { s.assembly with state := .skipped }
  let window := route.semanticDuplicateWindowSeconds
  match routeVerdict env conversation routeId route view s with
  | .refused => s.plan s.assembly [] []
  | .limited => s.plan skipped [] []
  | .proceed targets =>
    if s.heldBack routeId route alive then s.plan skipped [] []
    else
      let mark := if 0 < window then [.setSemantic (s.duplicateKey routeId) (env.now + seconds window)] else []
      if targets.isEmpty then s.plan skipped [] mark
      else
        let intents := newIntents env event conversationId routeId route view s targets
        s.plan (if s.action.isOpen then markSubmitted s.assembly intents else s.assembly) intents
          (mark ++ intents.map fun i => .publishExecute i.1 i.2.idempotencyKey)

def planRoute (view : RouteView) (alive : SemanticKey → Bool) : Except SignalError RoutePlan :=
  (routeSignal env event parsed update conversationId conversation routeId route view).map
    (planSignal env event conversationId conversation routeId route view alive)

end

/-! ## Writing a plan -/

/-- The rows of a plan, in the tables. -/
def RoutePlan.write (plan : RoutePlan) (run : Nat) (routeId : Uuid) (db : Database) : Database :=
  { db with
    assemblies :=
      if plan.isNew then db.assemblies.add plan.assemblyId plan.assembly
      else db.assemblies.modify plan.assemblyId fun _ => plan.assembly
    parsedActions := db.parsedActions.add (.parsedAction run routeId) plan.parsedAction
    intents := db.intents.addAll plan.intents }

/-- Where the loop over the routes stands. -/
structure Progress where
  db : Database
  semantic : SemanticKeys
  effects : List RedisEffect

def RedisEffect.apply (keys : SemanticKeys) : RedisEffect → SemanticKeys
  | .setSemantic key expires => (key, expires) :: keys
  | .publishExecute _ _ => keys

def SemanticKeys.applyAll (keys : SemanticKeys) (effects : List RedisEffect) : SemanticKeys :=
  effects.foldl RedisEffect.apply keys

section

variable (env : SignalEnv) (event : MessageEvent) (parsed : AiAction) (update : Context) (conversationId : Uuid)
  (conversation : SignalConversation)

def processRoute (p : Progress) (routeId : Uuid) (route : CopyRoute) : Except SignalError Progress :=
  let view := p.db.routeView env.run conversationId routeId route
  if view.isPaused then .ok p
  else (planRoute env event parsed update conversationId conversation routeId route view (p.semantic.alive env.now)).map
    fun plan =>
      { db := plan.write env.run routeId p.db
        semantic := p.semantic.applyAll plan.effects
        effects := p.effects ++ plan.effects }

/-- The loop; an exception leaves the effects sent so far behind. -/
def processRoutes : List (Uuid × CopyRoute) → Progress → Except SignalError Database × List RedisEffect
  | [], p => (.ok p.db, p.effects)
  | (routeId, route) :: routes, p =>
    match processRoute env event parsed update conversationId conversation p routeId route with
    | .ok p' => processRoutes routes p'
    | .error e => (.error e, p.effects)

end

/-! ## What a plan is -/

section

variable {env : SignalEnv} {event : MessageEvent} {parsed : AiAction} {update : Context} {conversationId : Uuid}
  {conversation : SignalConversation} {routeId : Uuid} {route : CopyRoute} {view : RouteView}
  {alive : SemanticKey → Bool} {s : RouteSignal} {plan : RoutePlan} {e : Uuid × TradeIntent}

/-- An intent row that a run makes for a route from the context of a generation. -/
structure IsIntentFor (env : SignalEnv) (event : MessageEvent) (routeId conversationId : Uuid) (merged : Context)
    (e : Uuid × TradeIntent) : Prop where
  id : e.1.isIntentOf env.run routeId
  route : e.2.idempotencyKey.routeId = routeId
  message : e.2.idempotencyKey.messageId = event.messageId
  action : some e.2.idempotencyKey.action = merged.action
  conversation : e.2.requestPayload.conversationId = conversationId
  context : e.2.requestPayload.context = merged

omit [Unicode] in
theorem candidateIntents_isIntentFor {merged : Context} {action : SignalAction} {revision : Nat}
    {legs : List (Option TakeProfitLeg)} {targets : List (Option CopiedTrade)} (ha : merged.action = some action)
    (h : e ∈ candidateIntents env event merged action revision conversationId routeId route legs targets) :
    IsIntentFor env event routeId conversationId merged e := by
  simp only [candidateIntents, List.mem_flatMap, List.mem_map] at h
  obtain ⟨⟨i, leg⟩, -, ⟨j, target⟩, -, rfl⟩ := h
  exact ⟨by simp [Uuid.isIntentOf], rfl, rfl, ha.symm, rfl, rfl⟩

omit [Unicode] in
/-- The generation of a signal goes on. -/
theorem currentAssembly_isActive (env : SignalEnv) (conversationId : Uuid) (conversation : SignalConversation) (routeId : Uuid) (route : CopyRoute)
    (view : RouteView) : (currentAssembly env conversationId conversation routeId route view).2.1.state.isActive := by
  unfold currentAssembly
  split
  · rename_i hf
    have := List.find?_some hf
    exact this
  · rfl

omit [Unicode] in
/-- What the signal of a route is read from. -/
theorem routeSignal_eq_ok
    (h : routeSignal env event parsed update conversationId conversation routeId route view = .ok s) :
    ∃ current, currentAssembly env conversationId conversation routeId route view = (s.assemblyId, current, s.isNew) ∧
      s.assembly = mergeMessage event update current ∧ s.assembly.context.action = some s.action ∧
      s.parsedAction.routeId = routeId ∧ (s.isNew → view.assemblyTaken = false) := by
  unfold routeSignal at h
  rcases hc : currentAssembly env conversationId conversation routeId route view with ⟨id, current, isNew⟩
  simp only [hc] at h
  split at h
  · cases h
  · rename_i hn
    split at h
    · cases h
    · cases h
    · rename_i action policy ha _
      split at h
      · cases h
      · cases h
        exact ⟨current, rfl, rfl, ha, rfl, by simpa using hn⟩

omit [Unicode] in
/-- The row of a signal's parsed action, which violates no key. -/
theorem routeSignal_row
    (h : routeSignal env event parsed update conversationId conversation routeId route view = .ok s) :
    ∃ current isNew, currentAssembly env conversationId conversation routeId route view = (s.assemblyId, current, isNew) ∧
      s.revision = nextRevision event current.messageReferences ∧
      s.parsedAction =
        { threadId := conversation.legacyThreadId, routeId, telegramMessageId := event.messageId
          actionType := s.action, revision := s.revision, assemblyId := s.assemblyId } ∧
      view.actionTaken = false := by
  unfold routeSignal at h
  rcases hc : currentAssembly env conversationId conversation routeId route view with ⟨id, current, isNew⟩
  simp only [hc] at h
  split at h
  · cases h
  · split at h
    · cases h
    · cases h
    · split at h
      · cases h
      · rename_i hfree
        cases h
        simp only [Bool.or_eq_true, not_or, Bool.not_eq_true] at hfree
        exact ⟨current, isNew, rfl, rfl, rfl, hfree.1⟩

omit [Unicode] in
/-- The signal is read from the merged context. -/
theorem routeSignal_signal (h : routeSignal env event parsed update conversationId conversation routeId route view = .ok s) :
    s.signal = parsedSignal env event parsed s.assembly.context s.action := by
  unfold routeSignal at h
  rcases hc : currentAssembly env conversationId conversation routeId route view with ⟨id, current, isNew⟩
  simp only [hc] at h
  split at h
  · cases h
  · split at h
    · cases h
    · cases h
    · split at h <;> cases h
      rfl

/-- The intents of a signal that is not a duplicate. -/
def createdIntents (env : SignalEnv) (event : MessageEvent) (conversationId : Uuid) (conversation : SignalConversation)
    (routeId : Uuid) (route : CopyRoute) (view : RouteView) (s : RouteSignal) : List (Uuid × TradeIntent) :=
  match routeVerdict env conversation routeId route view s with
  | .proceed targets => if targets.isEmpty then [] else newIntents env event conversationId routeId route view s targets
  | _ => []

theorem planSignal_intents :
    (planSignal env event conversationId conversation routeId route view alive s).intents =
      if s.heldBack routeId route alive then []
      else createdIntents env event conversationId conversation routeId route view s := by
  unfold planSignal createdIntents
  cases routeVerdict env conversation routeId route view s with
  | refused => simp [RouteSignal.plan]
  | limited => simp [RouteSignal.plan]
  | proceed targets =>
    by_cases hb : s.heldBack routeId route alive
    · simp [hb, RouteSignal.plan]
    · by_cases ht : targets.isEmpty <;> simp [hb, ht, RouteSignal.plan]

theorem createdIntents_isIntentFor (ha : s.assembly.context.action = some s.action)
    (h : e ∈ createdIntents env event conversationId conversation routeId route view s) :
    IsIntentFor env event routeId conversationId s.assembly.context e := by
  unfold createdIntents at h
  split at h
  · split at h
    · cases h
    · exact candidateIntents_isIntentFor ha (List.mem_filter.mp (mem_of_mem_insertable h)).1
  · cases h

theorem planSignal_isIntentFor (ha : s.assembly.context.action = some s.action)
    (h : e ∈ (planSignal env event conversationId conversation routeId route view alive s).intents) :
    IsIntentFor env event routeId conversationId s.assembly.context e := by
  rw [planSignal_intents] at h
  split at h
  · cases h
  · exact createdIntents_isIntentFor ha h

theorem createdIntents_fresh
    (h : e ∈ createdIntents env event conversationId conversation routeId route view s) : e.1 ∉ view.intentsTaken := by
  unfold createdIntents at h
  split at h
  · split at h
    · cases h
    · simpa using (List.mem_filter.mp (mem_of_mem_insertable h)).2
  · cases h

theorem createdIntents_nodup :
    ((createdIntents env event conversationId conversation routeId route view s).map Prod.fst).Nodup := by
  unfold createdIntents
  split
  · split
    · exact List.nodup_nil
    · exact insertable_ids.1
  · exact List.nodup_nil

/-- The take profit of an intent is one of the signal's. -/
theorem takeProfit_of_createdIntents (hs : s.signal.takeProfits = s.assembly.context.takeProfits)
    (h : e ∈ createdIntents env event conversationId conversation routeId route view s) {level : Decimal}
    (hl : e.2.requestPayload.takeProfit = some level) : level ∈ s.signal.takeProfits := by
  unfold createdIntents at h
  split at h
  · split at h
    · cases h
    · have hm := (List.mem_filter.mp (mem_of_mem_insertable h)).1
      simp only [candidateIntents, List.mem_flatMap, List.mem_map] at hm
      obtain ⟨⟨i, leg⟩, hleg, ⟨j, target⟩, -, rfl⟩ := hm
      cases leg with
      | none =>
        rw [hs]
        exact List.mem_of_getLast? (by simpa [intentPayload] using hl)
      | some leg =>
        have hmem : some leg ∈ intentLegsForAction s.action route.fixedLot.toRat s.signal.takeProfits route.takeProfitMode
            route.lotDistribution := by
          obtain ⟨x, hx, he⟩ := List.mem_map.mp hleg
          rw [← (Prod.mk.inj he).2]
          exact List.fst_mem_of_mem_zipIdx hx
        cases hl
        exact takeProfit_of_mem_intentLegs hmem
  · cases h

theorem planRoute_eq_ok
    (h : planRoute env event parsed update conversationId conversation routeId route view alive = .ok plan) :
    ∃ s, routeSignal env event parsed update conversationId conversation routeId route view = .ok s ∧
      plan = planSignal env event conversationId conversation routeId route view alive s := by
  unfold planRoute at h
  cases hs : routeSignal env event parsed update conversationId conversation routeId route view with
  | error e => rw [hs] at h; cases h
  | ok s => rw [hs] at h; cases h; exact ⟨s, rfl, rfl⟩

section

variable (env event conversationId conversation routeId route view alive s)

/-- The generation of a plan: as the signal left it, skipped, or submitted with
the plan's intents. -/
theorem planSignal_assembly :
    let plan := planSignal env event conversationId conversation routeId route view alive s
    (plan.intents = [] ∧ (plan.assembly = s.assembly ∨ plan.assembly = { s.assembly with state := .skipped })) ∨
      plan.assembly = if s.action.isOpen then markSubmitted s.assembly plan.intents else s.assembly := by
  unfold planSignal
  cases routeVerdict env conversation routeId route view s with
  | refused => exact .inl ⟨rfl, .inl rfl⟩
  | limited => exact .inl ⟨rfl, .inr rfl⟩
  | proceed targets =>
    by_cases hb : s.heldBack routeId route alive
    · exact .inl (by simp [hb, RouteSignal.plan])
    · by_cases ht : targets.isEmpty
      · exact .inl (by simp [hb, ht, RouteSignal.plan])
      · exact .inr (by simp [hb, ht, RouteSignal.plan])

/-- What every plan keeps of its signal. -/
theorem planSignal_rows :
    let plan := planSignal env event conversationId conversation routeId route view alive s
    plan.assemblyId = s.assemblyId ∧ plan.isNew = s.isNew ∧ plan.parsedAction = s.parsedAction := by
  simp only [planSignal]
  split
  · exact ⟨rfl, rfl, rfl⟩
  · exact ⟨rfl, rfl, rfl⟩
  · split
    · exact ⟨rfl, rfl, rfl⟩
    · split <;> exact ⟨rfl, rfl, rfl⟩

/-- A plan moves the generation to another state, and may open it. -/
theorem planSignal_assembly_kept :
    ∃ state openingIntentId, (planSignal env event conversationId conversation routeId route view alive s).assembly =
      { s.assembly with state, openingIntentId } := by
  rcases planSignal_assembly env event conversationId conversation routeId route view alive s with ⟨-, h | h⟩ | h
  · exact ⟨_, _, h⟩
  · exact ⟨_, _, h⟩
  · rw [h]
    generalize (planSignal env event conversationId conversation routeId route view alive s).intents = intents
    cases intents <;> split <;> exact ⟨_, _, rfl⟩

theorem planSignal_assembly_ids :
    let plan := planSignal env event conversationId conversation routeId route view alive s
    plan.assembly.routeId = s.assembly.routeId ∧ plan.assembly.conversationId = s.assembly.conversationId := by
  obtain ⟨_, _, h⟩ := planSignal_assembly_kept env event conversationId conversation routeId route view alive s
  simp only [h, and_self]

end

/-- The duplicate key is the only one a plan sets. -/
theorem planSignal_effects {key : SemanticKey} {expires : Time}
    (h : .setSemantic key expires ∈ (planSignal env event conversationId conversation routeId route view alive s).effects) :
    key = s.duplicateKey routeId := by
  simp only [planSignal] at h
  split at h
  · simp [RouteSignal.plan] at h
  · simp [RouteSignal.plan] at h
  · split at h
    · simp [RouteSignal.plan] at h
    · split at h
      · simp only [RouteSignal.plan] at h
        split at h <;> simp_all
      · simp only [RouteSignal.plan, List.mem_append, List.mem_map, reduceCtorEq, and_false, exists_false,
          or_false] at h
        split at h <;> simp_all

end

end SignalSync
