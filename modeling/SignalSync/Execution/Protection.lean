import SignalSync.Execution.Action
import SignalSync.Signal.Edits

/-!
# Protection updates

A move to break even and a new stop loss or take profit are sent to the broker
with the levels of the generation's whole context, and stored with the trade.

* `createdIntents_levels`: the levels of an intent are those of the generation
  before the message and of the message;
* `breakEven_iff`: a move to break even sends and stores the entry price iff no
  other stop loss has been stated;
* `protection_iff`: an update leaves the level it does not state alone iff the
  context's is the trade's.
-/

namespace SignalSync

open Library

variable [Unicode]

section

variable {env : SignalEnv} {event : MessageEvent} {parsed : AiAction} {update : Context} {conversationId : Uuid}
  {conversation : SignalConversation} {routeId : Uuid} {route : CopyRoute} {view : RouteView} {s : RouteSignal}
  {e : Uuid × TradeIntent} {current : RouteSignalAssembly}

/-- The generation a message of a route is merged into. -/
def generationBefore (env : SignalEnv) (conversationId : Uuid) (conversation : SignalConversation) (routeId : Uuid)
    (route : CopyRoute) (view : RouteView) : RouteSignalAssembly :=
  (currentAssembly env conversationId conversation routeId route view).2.1

omit [Unicode] in
theorem routeSignal_context (h : routeSignal env event parsed update conversationId conversation routeId route view = .ok s) :
    let current := generationBefore env conversationId conversation routeId route view
    s.assembly.context = mergeGenerationContext current.context update current.openingIntentId.isSome := by
  obtain ⟨current, hc, hm, -⟩ := routeSignal_eq_ok h
  simp only [generationBefore, hc, hm]
  rfl

/-- An intent that opens nothing takes the last of the context's take profits. -/
theorem createdIntents_takeProfit (h : e ∈ createdIntents env event conversationId conversation routeId route view s)
    (ha : s.action.isOpening = false) : e.2.requestPayload.takeProfit = s.assembly.context.takeProfits.getLast? := by
  unfold createdIntents at h
  split at h
  · split at h
    · cases h
    · have hm := (List.mem_filter.mp (mem_of_mem_insertable h)).1
      simp only [candidateIntents, intentLegsForAction, ha, Bool.false_eq_true, if_false, List.mem_flatMap,
        List.mem_map] at hm
      obtain ⟨⟨i, leg⟩, hleg, ⟨j, target⟩, -, rfl⟩ := hm
      simp only [enumerate, List.zipIdx_singleton, List.map_cons, List.map_nil, List.mem_singleton, Prod.mk.injEq] at hleg
      rw [hleg.2]
      rfl
  · cases h

/-- The levels of an intent: what the message states, else what the generation
had; of the take profits the last. -/
theorem createdIntents_levels (hs : routeSignal env event parsed update conversationId conversation routeId route view = .ok s)
    (he : e ∈ createdIntents env event conversationId conversation routeId route view s) (ha : s.action.isOpening = false) :
    let context := mergeGenerationContext (generationBefore env conversationId conversation routeId route view).context update
      (generationBefore env conversationId conversation routeId route view).openingIntentId.isSome
    e.2.requestPayload.stopLevel = (context.stopLoss <|> context.entry) ∧
      e.2.requestPayload.takeProfit = context.takeProfits.getLast? := by
  obtain ⟨-, -, -, hact, -⟩ := routeSignal_eq_ok hs
  rw [createdIntents_takeProfit he ha, Payload.stopLevel, (createdIntents_isIntentFor hact he).context,
    routeSignal_context hs]
  exact ⟨rfl, rfl⟩

/-! ## Levels sent and stored -/

omit [Unicode] in
/-- A level in a price column has the value it is written with. -/
theorem ofRat_eq_iff {level : Decimal} {price : Price} (h : level.toRat = price.toRat) :
    (Numeric.ofRat 8 level.toRat : Price) = price := by rw [h, Numeric.ofRat_toRat]

/-- The move sends `entryPrice` as the stop loss and stores it with the trade. -/
def AtEntry (route : CopyRoute) (intent : TradeIntent) (selected : Option BrokerSymbol) (trade : CopiedTrade)
    (entryPrice : ℚ) : Prop :=
  ∃ stop takeProfit trade',
    runAction route intent.clientOrderId intent.requestPayload .break_even (some trade) selected =
      .ok (.modifyPosition trade.brokerPositionId (some stop) takeProfit, none) ∧
    stop.toRat = entryPrice ∧
    confirmCopied intent.requestPayload .break_even 0 trade = .ok trade' ∧
    trade'.stopLoss = some (Numeric.ofRat 8 entryPrice)

/-- The update sends the trade's take profit and leaves the stored one. -/
def TakeProfitKept (route : CopyRoute) (intent : TradeIntent) (selected : Option BrokerSymbol) (trade : CopiedTrade) : Prop :=
  ∃ stop takeProfit trade',
    runAction route intent.clientOrderId intent.requestPayload .modify_sl_tp (some trade) selected =
      .ok (.modifyPosition trade.brokerPositionId stop takeProfit, none) ∧
    takeProfit.map Decimal.toRat = trade.takeProfit.map Numeric.toRat ∧
    confirmCopied intent.requestPayload .modify_sl_tp 0 trade = .ok trade' ∧ trade'.takeProfit = trade.takeProfit

/-- The update sends the trade's stop loss and leaves the stored one. -/
def StopLossKept (route : CopyRoute) (intent : TradeIntent) (selected : Option BrokerSymbol) (trade : CopiedTrade) : Prop :=
  ∃ stop takeProfit trade',
    runAction route intent.clientOrderId intent.requestPayload .modify_sl_tp (some trade) selected =
      .ok (.modifyPosition trade.brokerPositionId stop takeProfit, none) ∧
    stop.map Decimal.toRat = trade.stopLoss.map Numeric.toRat ∧
    confirmCopied intent.requestPayload .modify_sl_tp 0 trade = .ok trade' ∧ trade'.stopLoss = trade.stopLoss

omit [Unicode] in
/-- Storing a level of the column's own value, or none, changes nothing. -/
theorem stored_level {level : Option Decimal} {price : Option Price}
    (h : level.map Decimal.toRat = price.map Numeric.toRat) :
    ((level.map fun level => Numeric.ofRat 8 level.toRat) <|> price) = price := by
  cases level with
  | none => rfl
  | some level =>
    cases price with
    | none => cases h
    | some price => exact congrArg some (ofRat_eq_iff (by simpa using h))

theorem atEntry_iff (intent : TradeIntent) (selected : Option BrokerSymbol) (trade : CopiedTrade) (entryPrice : ℚ) :
    AtEntry route intent selected trade entryPrice ↔
      ∃ level, intent.requestPayload.stopLevel = some level ∧ level.toRat = entryPrice := by
  constructor
  · rintro ⟨stop, takeProfit, trade', hrun, hstop, -, -⟩
    rw [runAction_protection (.inr rfl)] at hrun
    simp only [Except.ok.injEq, Prod.mk.injEq, BrokerCall.modifyPosition.injEq, true_and, and_true] at hrun
    exact ⟨stop, hrun.1, hstop⟩
  · rintro ⟨level, hlevel, rfl⟩
    refine ⟨level, intent.requestPayload.takeProfit, _, ?_, rfl, rfl, ?_⟩
    · rw [runAction_protection (.inr rfl), hlevel]
    · simp only [hlevel]
      rfl

theorem takeProfitKept_iff (intent : TradeIntent) (selected : Option BrokerSymbol) (trade : CopiedTrade) :
    TakeProfitKept route intent selected trade ↔
      intent.requestPayload.takeProfit.map Decimal.toRat = trade.takeProfit.map Numeric.toRat := by
  constructor
  · rintro ⟨stop, takeProfit, trade', hrun, hlevel, -, -⟩
    rw [runAction_protection (.inl rfl)] at hrun
    simp only [Except.ok.injEq, Prod.mk.injEq, BrokerCall.modifyPosition.injEq, true_and, and_true] at hrun
    rw [hrun.2, hlevel]
  · intro h
    exact ⟨_, _, _, runAction_protection (.inl rfl) trade, h, rfl, stored_level h⟩

theorem stopLossKept_iff (intent : TradeIntent) (selected : Option BrokerSymbol) (trade : CopiedTrade) :
    StopLossKept route intent selected trade ↔
      intent.requestPayload.stopLevel.map Decimal.toRat = trade.stopLoss.map Numeric.toRat := by
  constructor
  · rintro ⟨stop, takeProfit, trade', hrun, hlevel, -, -⟩
    rw [runAction_protection (.inl rfl)] at hrun
    simp only [Except.ok.injEq, Prod.mk.injEq, BrokerCall.modifyPosition.injEq, true_and, and_true] at hrun
    rw [hrun.1, hlevel]
  · intro h
    exact ⟨_, _, _, runAction_protection (.inl rfl) trade, h, rfl, stored_level h⟩

/-! ## The claims of an update -/

/-- **Break even.** An intent to move to break even puts the stop at the entry
price iff the stop loss of the generation, as the message leaves it, is that
price, or it has none and its entry is. -/
theorem breakEven_iff (hs : routeSignal env event parsed update conversationId conversation routeId route view = .ok s)
    (he : e ∈ createdIntents env event conversationId conversation routeId route view s) (ha : s.action = .break_even)
    (selected : Option BrokerSymbol) (trade : CopiedTrade) (entryPrice : ℚ) :
    AtEntry route e.2 selected trade entryPrice ↔
      let before := (generationBefore env conversationId conversation routeId route view).context
      ∃ level, (mergeField before.stopLoss update.stopLoss <|> mergeField before.entry update.entry) = some level ∧
        level.toRat = entryPrice := by
  rw [atEntry_iff, (createdIntents_levels hs he (by rw [ha]; rfl)).1]
  rfl

/-- **Protection updates.** An update that states no take profit leaves a trade's
alone iff the last take profit of its generation is the trade's; one that states
neither stop loss nor entry leaves its stop loss alone iff the generation's stop
loss, or without one its entry, is the trade's. -/
theorem protection_iff (hs : routeSignal env event parsed update conversationId conversation routeId route view = .ok s)
    (he : e ∈ createdIntents env event conversationId conversation routeId route view s) (ha : s.action = .modify_sl_tp)
    (selected : Option BrokerSymbol) (trade : CopiedTrade) :
    let before := (generationBefore env conversationId conversation routeId route view).context
    (update.takeProfits = [] →
      (TakeProfitKept route e.2 selected trade ↔
        before.takeProfits.getLast?.map Decimal.toRat = trade.takeProfit.map Numeric.toRat)) ∧
      (update.stopLoss = none → update.entry = none →
        (StopLossKept route e.2 selected trade ↔
          (before.stopLoss <|> before.entry).map Decimal.toRat = trade.stopLoss.map Numeric.toRat)) := by
  obtain ⟨hstop, htp⟩ := createdIntents_levels hs he (by rw [ha]; rfl)
  refine ⟨fun hu => ?_, fun hu hu' => ?_⟩
  · rw [takeProfitKept_iff, htp]
    simp [mergeGenerationContext, mergeContext, mergeList, hu]
  · rw [stopLossKept_iff, hstop]
    simp [mergeGenerationContext, mergeContext, hu, hu']

end

/-! ## A gold trade with two take profits -/

/-- The generation of the trade, with the context it was opened from. -/
def goldGeneration (context : Context) : RouteSignalAssembly where
  conversationId := .conversation 0
  routeId := 4
  state := .executing
  context := context
  messageReferences := [⟨11, 1⟩]
  generation := 1
  openingAction := some .open_market
  openingIntentId := some (.intent 0 4 0 0)
  assemblyDeadline := seconds 191

def goldConversationRow (context : Context) : SignalConversation where
  sourceId := 2
  legacyThreadId := .thread 0
  correlationId := 5
  state := .active
  replyRootMessageId := some 11
  symbol := some "XAUUSD"
  direction := some .buy
  context := context
  lastMessageId := 11
  updatedAt := seconds 101

def goldView (context : Context) : RouteView where
  settings := none
  policy := some {}
  assemblies := [(.assembly 0 4, goldGeneration context)]
  assemblyTaken := false
  parsedActions := []
  actionTaken := false
  intents := []
  intentsTaken := []
  activeTrades := [(.intent 0 4 0 0, goldTrade)]

/-- What the parser reads from `SL to entry`. -/
def moveToEntry : AiAction where
  action := .break_even
  confidence := 1

/-- A signal with this action, and an intent made from it. -/
def hasIntent (signal : Except SignalError RouteSignal) (intents : RouteSignal → List (Uuid × TradeIntent))
    (action : SignalAction) : Bool :=
  match signal with
  | .ok s => s.action = action && !(intents s).isEmpty
  | .error _ => false

omit [Unicode] in
theorem exists_of_hasIntent {signal : Except SignalError RouteSignal} {intents : RouteSignal → List (Uuid × TradeIntent)}
    {action : SignalAction} (h : hasIntent signal intents action) :
    ∃ s e, signal = .ok s ∧ s.action = action ∧ e ∈ intents s := by
  unfold hasIntent at h
  split at h
  · rename_i s
    simp only [Bool.and_eq_true, decide_eq_true_eq, Bool.not_eq_true', List.isEmpty_eq_false_iff] at h
    obtain ⟨e, he⟩ := List.exists_mem_of_ne_nil _ h.2
    exact ⟨s, e, rfl, h.1, he⟩
  · cases h

omit [Unicode] in
/-- An entry has been stated and no stop loss. -/
theorem breakEven_iff_goldView :
    let _ := Unicode.ascii
    let context := { buyGold.modelDump with entry := some 2400, stopLoss := none }
    let env := goldEnv 1 (seconds 111) moveToEntry
    let message := { goldMessage with messageId := 12, text := "SL to entry" }
    let intents := createdIntents env message (.conversation 0) (goldConversationRow context) 4 goldRoute (goldView context)
    ∃ s e, e ∈ intents s ∧ s.action = .break_even ∧
      (AtEntry goldRoute e.2 none goldTrade 2400 ↔
        ∃ level : Decimal, (mergeField none none <|> mergeField (some 2400) none) = some level ∧ level.toRat = 2400) := by
  intro _ context env message intents
  have hintent : hasIntent (routeSignal env message moveToEntry moveToEntry.modelDump (.conversation 0) (goldConversationRow context)
      4 goldRoute (goldView context)) intents .break_even := by decide +kernel
  obtain ⟨s, e, hs, ha, he⟩ := exists_of_hasIntent hintent
  exact ⟨s, e, he, ha, breakEven_iff hs he ha none goldTrade 2400⟩

omit [Unicode] in
/-- A new stop for the trade of the first of two take profits. -/
theorem protection_iff_goldView :
    let _ := Unicode.ascii
    let context := { buyGold.modelDump with takeProfits := [2410, 2420] }
    let env := goldEnv 1 (seconds 111) moveStop
    let message := { goldMessage with messageId := 12, text := "SL 2395" }
    let intents := createdIntents env message (.conversation 0) (goldConversationRow context) 4 goldRoute (goldView context)
    ∃ s e, e ∈ intents s ∧ s.action = .modify_sl_tp ∧
      (TakeProfitKept goldRoute e.2 none { goldTrade with takeProfit := some ⟨241000000000⟩ } ↔
        context.takeProfits.getLast?.map Decimal.toRat = (some (⟨241000000000⟩ : Price)).map Numeric.toRat) := by
  intro _ context env message intents
  have hintent : hasIntent (routeSignal env message moveStop moveStop.modelDump (.conversation 0) (goldConversationRow context)
      4 goldRoute (goldView context)) intents .modify_sl_tp := by decide +kernel
  obtain ⟨s, e, hs, ha, he⟩ := exists_of_hasIntent hintent
  exact ⟨s, e, he, ha, (protection_iff hs he ha none { goldTrade with takeProfit := some ⟨241000000000⟩ }).1 rfl⟩

/-- The trade is opened, with the take profits of its legs, and a second message
follows. -/
def goldUpdates (opening update : AiAction) (trades : Table Uuid CopiedTrade) : List SignalStep :=
  [ .message (goldEnv 1 (seconds 101) opening) goldMessage,
    .outside goldDatabase.sources ∅ goldDatabase.routes goldDatabase.policies trades,
    .message (goldEnv 2 (seconds 111) update)
      { goldMessage with messageId := 12, correlationId := 16, text := "update", occurredAt := seconds 110 } ]

/-- The calls for the intents of the second message, each on the trade it is for. -/
def updateCalls (db : Database) (action : SignalAction) : List (Option BrokerCall) :=
  let _ := Unicode.ascii
  (db.intents.select fun _ i => i.idempotencyKey.action = action).map fun e =>
    let copied := selectTrade db.trades.entries e.2.requestPayload
    match runAction goldRoute e.2.clientOrderId e.2.requestPayload action (copied.map Prod.snd) none with
    | .ok (call, _) => some call
    | .error _ => none

omit [Unicode] in
/-- `SL to entry` for a trade opened at 2400 with the stop loss 2390: it is sent 2390 again. -/
theorem moveToEntry_keeps_stop :
    let _ := Unicode.ascii
    ∃ s e, Reach signalStep always { db := goldDatabase } s ∧ e ∈ s.db.intents.entries ∧
      e.2.idempotencyKey.action = .break_even ∧ e.2.requestPayload.context.entry = some 2400 ∧
      runAction goldRoute e.2.clientOrderId e.2.requestPayload .break_even (some goldTrade) none =
        .ok (.modifyPosition (some "1") (some 2390) (some 2410), none) ∧
      ¬ AtEntry goldRoute e.2 none goldTrade 2400 := by
  intro _
  have hrun : (run signalStep { db := goldDatabase } (goldUpdates { buyGold with entry := some 2400 } moveToEntry
      (.add ∅ (.intent 1 4 0 0) { goldTrade with threadId := .thread 1 }))).map (fun s =>
        (s.db.intents.select fun _ i => i.idempotencyKey.action = .break_even && i.requestPayload.context.entry = some 2400 &&
          i.requestPayload.stopLevel = some 2390 && i.requestPayload.takeProfit = some 2410).length) = some 1 := by
    decide +kernel
  obtain ⟨s, hs, hlen⟩ := Option.map_eq_some_iff.mp hrun
  obtain ⟨e, he⟩ := List.length_eq_one_iff.mp hlen
  have hm := List.mem_singleton_self e
  rw [← he, Table.mem_select] at hm
  simp only [Bool.and_eq_true, decide_eq_true_eq] at hm
  obtain ⟨hmem, ⟨⟨ha, hentry⟩, hstop⟩, htp⟩ := hm
  refine ⟨s, e, .of_run hs, Table.get?_eq_some.1 hmem, ha, hentry, ?_, ?_⟩
  · rw [runAction_protection (.inr rfl), hstop, htp]
    rfl
  · rw [atEntry_iff, hstop]
    rintro ⟨level, hl, hv⟩
    cases hl
    exact absurd hv (by decide +kernel)

omit [Unicode] in
/-- `SL 2395` for the two trades of an opening with the take profits 2410 and 2420:
both are sent 2420. -/
theorem moveStop_moves_takeProfit :
    let _ := Unicode.ascii
    ∃ s, Reach signalStep always { db := goldDatabase } s ∧
      s.db.trades.entries.map (fun e => e.2.takeProfit.map Numeric.toRat) = [some 2410, some 2420] ∧
      updateCalls s.db .modify_sl_tp =
        [some (.modifyPosition (some "1") (some 2395) (some 2420)), some (.modifyPosition (some "2") (some 2395) (some 2420))] := by
  intro _
  have hrun : (run signalStep { db := goldDatabase } (goldUpdates { buyGold with takeProfits := [2410, 2420] } moveStop
      ((Table.add ∅ (.intent 1 4 0 0)
        { goldTrade with threadId := .thread 1, takeProfit := some ⟨241000000000⟩ }).add (.intent 1 4 1 0)
        { goldTrade with
          id := .trade 1, threadId := .thread 1, brokerPositionId := some "2", takeProfit := some ⟨242000000000⟩ }))).map
      (fun s => (s.db.trades.entries.map (fun e => e.2.takeProfit.map Numeric.toRat), updateCalls s.db .modify_sl_tp)) =
        some ([some 2410, some 2420], [some (.modifyPosition (some "1") (some 2395) (some 2420)),
          some (.modifyPosition (some "2") (some 2395) (some 2420))]) := by decide +kernel
  obtain ⟨s, hs, hc⟩ := Option.map_eq_some_iff.mp hrun
  exact ⟨s, .of_run hs, congrArg Prod.fst hc, congrArg Prod.snd hc⟩

end SignalSync
