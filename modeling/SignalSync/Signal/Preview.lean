import SignalSync.Signal.Keys

/-!
# The preview of a route

`preview_route` parses a text and validates it against a route as the handler does, without
a conversation: what it reports as accepted is the verdict of the validation.

* `sum_legs`, `sum_intentVolumes`: the legs of an opening add up to the volume computed for it,
  and so do its intents;
* `previewRoute_signalHandler`: what the handler does with the text as a first message.
-/

namespace SignalSync

open Library

/-! ## The preview -/

/-- An exception of the preview. -/
inductive PreviewError
  | noResultFound | multipleResultsFound
  | parsing (name : String)
deriving DecidableEq

structure RoutePreview where
  accepted : Bool
  reason : Option String
  action : SignalAction
  signalSymbol : Option String
  brokerSymbol : Option String
  direction : Option Direction
  volume : Option ℚ
  takeProfits : List Decimal
  warnings : List String

section

variable (env : SignalEnv) (db : Database) (routeId : Uuid) (route : CopyRoute)

/-- The symbol a mapping of the route gives, of whatever connection. -/
def previewSymbol [Unicode] (symbol : String) : Except PreviewError String :=
  match db.symbolMappings.select fun key _ => key.1 = routeId && key.2.2 = Symbols.normalizeSymbol symbol with
  | [] => .ok symbol
  | [(_, mapping)] => .ok mapping.brokerSymbol
  | _ => .error .multipleResultsFound

/-- The parsed message as it is validated, without a conversation. -/
def previewSignal (parsed : AiAction) (sourceTime : Time) : ParsedSignal where
  action := parsed.action
  symbol := parsed.symbol
  direction := parsed.direction
  entry := parsed.entry
  entryHigh := parsed.entryHigh
  stopLoss := parsed.stopLoss
  takeProfits := parsed.takeProfits
  closeFraction := parsed.closeFraction
  ageSeconds := ((env.now - sourceTime : Nat) : ℚ) / 1000000
  confidence := parsed.confidence

/-- `preview_route`, of a route of the user, whose account's policy is the user's too. -/
def previewRoute [Unicode] (text : String) (occurredAt : Option Time) : Except PreviewError RoutePreview :=
  match route.targetConnectionId.bind db.policies.get?, env.parseMessage text {} with
  | none, _ => .error .noResultFound
  | some _, .error name => .error (.parsing name)
  | some policy, .ok parsed =>
    let signal := previewSignal env parsed (occurredAt.getD env.now)
    let validation := validateSignal signal (routeExecutionPolicy env route policy)
    let volume := signalVolumeForAction signal.action route.fixedLot.toRat signal.takeProfits.length
      route.takeProfitMode route.lotDistribution
    match (parsed.symbol.filter (· ≠ "")).mapM (previewSymbol db routeId) with
    | .error e => .error e
    | .ok brokerSymbol => .ok
      { accepted := validation.accepted
        reason := validation.reason
        action := signal.action
        signalSymbol := parsed.symbol
        brokerSymbol := brokerSymbol
        direction := parsed.direction
        volume := if 0 < volume then some volume else none
        takeProfits := parsed.takeProfits
        warnings := validation.advisory.toList ++
          if brokerSymbol.isSome && brokerSymbol = parsed.symbol then
            ["Broker symbol will be confirmed from the live catalog before execution."]
          else [] }

end

/-! ## Legs and their volume -/

section

variable {action : SignalAction} {fixedLot : ℚ} {takeProfits : List Decimal} {mode : TakeProfitMode}
  {distribution : LotDistribution}

/-- The volume of a leg's intent. -/
def legVolume (fixedLot : ℚ) (leg : Option TakeProfitLeg) : ℚ := (leg.map (·.lot)).getD fixedLot

/-- The targets that get a leg. -/
def selectedTargets (takeProfits : List Decimal) : TakeProfitMode → List Decimal
  | .all => takeProfits
  | .lowest => (takeProfits.argmin Decimal.toRat).toList
  | .highest => (takeProfits.argmax Decimal.toRat).toList

theorem max_length_selectedTargets : max 1 (selectedTargets takeProfits mode).length =
    if mode = .all then max 1 takeProfits.length else 1 := by
  have hone (target : Option Decimal) : max 1 target.toList.length = 1 := by cases target <;> rfl
  cases mode with
  | all => rfl
  | lowest | highest =>
    rw [if_neg nofun]
    exact hone _

theorem buildTpLegs_eq : buildTpLegs fixedLot takeProfits mode distribution =
    (selectedTargets takeProfits mode).map fun target =>
      ⟨target, if distribution = .split_total ∧ 1 < (selectedTargets takeProfits mode).length then
        fixedLot / (selectedTargets takeProfits mode).length else fixedLot⟩ := by
  cases mode <;> rfl

/-- An opening always has a leg, or an order without one. -/
theorem intentLegs_ne_nil : intentLegsForAction action fixedLot takeProfits mode distribution ≠ [] := by
  unfold intentLegsForAction
  split
  · split
    · exact List.cons_ne_nil _ _
    · next hlegs => exact fun h => hlegs (List.map_eq_nil_iff.mp h)
  · exact List.cons_ne_nil _ _

/-- The legs of an opening add up to the volume computed for it. -/
theorem sum_legs (ha : action.isOpening) :
    ((intentLegsForAction action fixedLot takeProfits mode distribution).map (legVolume fixedLot)).sum =
      signalVolumeForAction action fixedLot takeProfits.length mode distribution := by
  unfold intentLegsForAction signalVolumeForAction calculateSignalVolume
  simp only [ha, if_true, ← max_length_selectedTargets, buildTpLegs_eq]
  cases hs : selectedTargets takeProfits mode with
  | nil => cases distribution <;> simp [legVolume]
  | cons target targets =>
    have hmax : max 1 (target :: targets).length = targets.length + 1 := max_eq_right (Nat.le_add_left 1 _)
    rw [hmax, List.map_cons]
    simp only [List.map_map, List.map_cons, Function.comp_def, legVolume, Option.map_some, Option.getD_some, List.map_const',
      List.sum_cons, List.sum_replicate, nsmul_eq_mul, List.length_cons]
    cases distribution with
    | split_total =>
      cases targets with
      | nil => simp
      | cons second rest =>
        have hpos : ((rest.length : ℚ) + 1 + 1) ≠ 0 := by positivity
        simp only [List.length_cons, Nat.lt_add_left_iff_pos, Nat.zero_lt_succ, and_self, if_true, Nat.cast_add, Nat.cast_one]
        field_simp
        ring
    | fixed_each =>
      simp only [reduceCtorEq, false_and, if_false, Nat.cast_add, Nat.cast_one]
      ring

end

/-! ## The intents of an opening -/

section

variable {env : SignalEnv} {event : MessageEvent} {merged : Context} {action : SignalAction} {revision : Nat}
  {conversationId routeId : Uuid} {route : CopyRoute} {legs : List (Option TakeProfitLeg)}

/-- The volumes of the intents without a target are those of the legs. -/
theorem candidateIntents_volumes :
    (candidateIntents env event merged action revision conversationId routeId route legs [none]).map
      (·.2.requestPayload.volume) = legs.map fun leg => some (legVolume route.fixedLot.toRat leg) := by
  simp only [candidateIntents, enumerate, List.zipIdx_singleton, List.map_cons, List.map_nil, ← List.map_eq_flatMap, List.map_map]
  rw [← List.zipIdx_map_fst 0 legs, List.map_map]
  simp [Function.comp_def, intentPayload, legVolume]

/-- They are told apart by their legs. -/
theorem candidateIntents_legs_apart :
    (candidateIntents env event merged action revision conversationId routeId route legs [none]).Pairwise fun a b =>
      intentsClash b a = false := by
  simp only [candidateIntents, enumerate, List.zipIdx_singleton, List.map_cons, List.map_nil, ← List.map_eq_flatMap, List.map_map]
  refine List.pairwise_map.mpr (List.pairwise_iff_getElem.mpr fun i j hi hj hij => ?_)
  have hij' : ¬ j = i := Nat.ne_of_gt hij
  simp [intentsClash, hij']

end

/-! ## The context of a first message -/

theorem eraseDups_eq_self {l : List Decimal} (h : l.Nodup) : l.eraseDups = l := by
  induction l with
  | nil => rfl
  | cons a l ih =>
    obtain ⟨ha, hl⟩ := List.nodup_cons.mp h
    have hkept : l.filter (fun b => !b == a) = l := by
      refine List.filter_eq_self.2 fun b hb => ?_
      simpa using fun heq : b = a => ha (heq ▸ hb)
    rw [List.eraseDups_cons, hkept, ih hl]

theorem eraseDups_twice {l : List Decimal} (h : l.Nodup) : (l ++ l).eraseDups = l := by
  have hnone : l.removeAll l = [] := List.filter_eq_nil_iff.mpr fun a ha => by simpa using ha
  rw [List.eraseDups_append, hnone, List.eraseDups_nil, List.append_nil, eraseDups_eq_self h]

/-- The generation's context after a first message. -/
def firstContext (parsed : AiAction) : Context :=
  mergeGenerationContext (mergeContext {} parsed.modelDump) parsed.modelDump false

theorem firstContext_action (parsed : AiAction) : (firstContext parsed).action = some parsed.action := by
  simp [firstContext, mergeGenerationContext, mergeContext, AiAction.modelDump]

/-- It is what the message states, each target once. -/
theorem firstContext_targets (parsed : AiAction) (h : parsed.takeProfits.Nodup) :
    (firstContext parsed).takeProfits = parsed.takeProfits := by
  have hlist : mergeList [] parsed.takeProfits = parsed.takeProfits := by
    unfold mergeList
    split
    · next he => exact (List.isEmpty_iff.mp he).symm
    · rfl
  simp only [firstContext, mergeGenerationContext, mergeContext, AiAction.modelDump, hlist, Bool.not_false, Bool.true_and,
    Bool.not_eq_true', eraseDups_twice h]
  unfold mergeList
  split
  · rfl
  · split <;> rfl

theorem parsedSignal_first (env : SignalEnv) (event : MessageEvent) (parsed : AiAction) (hsymbol : parsed.symbol ≠ some "")
    (htargets : parsed.takeProfits.Nodup) :
    parsedSignal env event parsed (firstContext parsed) parsed.action = previewSignal env parsed event.occurredAt := by
  have hfield {α : Type} (value : Option α) : mergeField (mergeField none value) value = value := by cases value <;> rfl
  have htext : mergeText (mergeText none parsed.symbol) parsed.symbol = parsed.symbol := by
    rw [mergeText, mergeText, if_neg hsymbol, if_neg hsymbol]
    exact hfield _
  simp only [parsedSignal, previewSignal, firstContext_targets parsed htargets, ParsedSignal.mk.injEq]
  exact ⟨trivial, htext, hfield _, hfield _, hfield _, hfield _, trivial, hfield _, trivial, trivial⟩

/-! ## A first message -/

/-- No copied trade of the account is live, and nothing of the source or the route
has been recorded. -/
structure FirstMessage (env : SignalEnv) (event : MessageEvent) (db : Database) (keys : SemanticKeys) (routeId : Uuid)
    (route : CopyRoute) : Prop where
  created : event.eventType = .created
  stored : db.routes.get? routeId = some route
  conversations : ∀ id c, db.conversations.get? id = some c → c.sourceId ≠ event.sourceId
  assemblies : ∀ id a, db.assemblies.get? id = some a → a.routeId ≠ routeId
  intents : db.intentsOf routeId = []
  trades : db.activeTrades route = []
  keys : ∀ key : SemanticKey, key.routeId = routeId → keys.alive env.now key = false
  draws : NewDraws env.run db

/-- The handler gets to the route with the message, and nothing is paused. -/
structure TakesMessage (env : SignalEnv) (event : MessageEvent) (db : Database) (route : CopyRoute) : Prop where
  running : env.globalPaused = false
  locked : env.lockAcquired
  source : ∃ source, db.sources.get? event.sourceId = some source ∧ source.isPaused = false ∧
    route.sourceId = event.sourceId ∧ route.state = .active ∧ routeAcceptsMessage route source event
  settings : (db.userSettings.get? route.userId).any (·.isPaused) = false
  policy : (route.targetConnectionId.bind db.policies.get?).any (·.isPaused) = false

variable [Unicode]

/-- Without candidates a message starts a conversation. -/
theorem chooseConversation_nil {q : ConversationQuery} (h : q.candidates = []) : chooseConversation q = { selected := none } := by
  have hordered : q.ordered = [] := by
    rw [ConversationQuery.ordered, h]
    rfl
  have heligible : q.eligible = [] := by
    simp only [ConversationQuery.eligible, hordered, List.filter_nil, ite_self]
  simp [chooseConversation, ConversationQuery.byReference, ConversationQuery.byElimination, ConversationQuery.bySymbol,
    ConversationQuery.adjacentOpenings, ConversationQuery.incompleteOpenings, ConversationQuery.adjacentManaged,
    ConversationQuery.editMatches, ConversationQuery.replyMatches, ConversationQuery.matchable, ConversationQuery.exact,
    ConversationQuery.unresolved, heligible, onlyOne, oneOrAmbiguous]

namespace FirstMessage

variable {env : SignalEnv} {event : MessageEvent} {db : Database} {keys : SemanticKeys} {routeId : Uuid} {route : CopyRoute}
  {loop : RouteLoop} {s : RouteSignal}

theorem findConversation_eq (h : FirstMessage env event db keys routeId route) (routes : List (Uuid × CopyRoute))
    (parsed : AiAction) : findConversation event db routes parsed = { selected := none } := by
  have hselect (p : Uuid → SignalConversation → Bool) (hp : ∀ id c, p id c → c.sourceId = event.sourceId) :
      db.conversations.select p = [] := by
    refine List.eq_nil_iff_forall_not_mem.mpr fun e he => ?_
    obtain ⟨hget, hmatch⟩ := Table.mem_select.1 he
    exact h.conversations _ _ hget (hp _ _ hmatch)
  have hactive : db.activeConversations event.sourceId = [] := hselect _ fun id c hc => by
    simp only [Bool.and_eq_true, decide_eq_true_eq] at hc
    exact hc.1
  have hsame : (db.conversations.select fun _ c => c.sourceId = event.sourceId && c.correlationId = event.correlationId) = [] :=
    hselect _ fun id c hc => by
      simp only [Bool.and_eq_true, decide_eq_true_eq] at hc
      exact hc.1
  rw [findConversation, hsame, hactive]
  exact chooseConversation_nil rfl

omit [Unicode] in
/-- The parser is shown no context. -/
theorem initialContext_eq (h : FirstMessage env event db keys routeId route) :
    initialContext event (db.activeConversations event.sourceId) = {} := by
  have hactive : db.activeConversations event.sourceId = [] := by
    refine List.eq_nil_iff_forall_not_mem.mpr fun e he => ?_
    obtain ⟨hget, hmatch⟩ := Table.mem_select.1 he
    simp only [Bool.and_eq_true, decide_eq_true_eq] at hmatch
    exact h.conversations _ _ hget hmatch.1
  rw [hactive]
  rfl

/-- The loop of a run on a first message. -/
theorem loop_eq (h : FirstMessage env event db keys routeId route) {parsed : AiAction}
    (hparsed : env.parseMessage event.text {} = .ok parsed) (hl : prepare env event db = .ok loop) :
    loop.parsed = parsed ∧ loop.update = parsed.modelDump ∧ loop.conversation.context = mergeContext {} parsed.modelDump ∧
      (∃ conversations, loop.db = { db with conversations }) ∧
      ∃ source, db.sources.get? event.sourceId = some source ∧ loop.routes = db.acceptingRoutes source event := by
  obtain ⟨source, hs, hstart⟩ := prepare_eq_ok hl
  obtain ⟨hp, -, -, hopen, hroutes⟩ := startLoop_eq_ok hstart
  rw [h.initialContext_eq, hparsed] at hp
  cases hp
  rw [h.findConversation_eq] at hopen
  have hupdate (choice row) : parsedUpdate event loop.parsed choice row = loop.parsed.modelDump := by
    rw [parsedUpdate, h.created]
    rfl
  simp only [openConversation, Option.bind_none, hupdate] at hopen
  split at hopen
  · cases hopen
  · split at hopen
    · cases hopen
    · simp only [Except.ok.injEq, Prod.mk.injEq] at hopen
      obtain ⟨-, hconversation, hdump, hdb⟩ := hopen
      refine ⟨rfl, hdump.symm, ?_, ⟨_, hdb.symm⟩, source, hs, hroutes⟩
      rw [← hconversation, mergeConversation_context]
      rfl

/-- A run that commits gets to the routes that take the message, unless it only tells
a status. -/
theorem exists_loop (h : FirstMessage env event db keys routeId route) (ht : TakesMessage env event db route)
    {parsed : AiAction} (hparsed : env.parseMessage event.text {} = .ok parsed) (hs : parsed.action ≠ .status_only)
    {r : DeliveryResult} {db' : Database} (hrun : (signalHandler env event db keys).result = .ok (r, db')) :
    ∃ loop, prepare env event db = .ok loop ∧ (routeId, route) ∈ loop.routes := by
  obtain ⟨source, hsource, hopen, hid, hactive, haccepts⟩ := ht.source
  have hroute : (routeId, route) ∈ db.acceptingRoutes source event :=
    Table.mem_select.2 ⟨h.stored, by simp [hid, hactive, haccepts]⟩
  have hsome : (db.acceptingRoutes source event).isEmpty = false :=
    Bool.eq_false_iff.mpr fun he => List.ne_nil_of_mem hroute (List.isEmpty_iff.mp he)
  have hprepare : prepare env event db = startLoop env event db (db.acceptingRoutes source event) := by
    simp only [prepare, h.created, ht.running, ht.locked, hsource, hopen, hsome, reduceCtorEq, if_false, Bool.not_true,
      Bool.false_eq_true, Bool.or_self]
  cases hp : prepare env event db with
  | ok loop =>
    obtain ⟨-, -, -, -, source', hsource', hroutes⟩ := h.loop_eq hparsed hp
    rw [hsource] at hsource'
    cases hsource'
    exact ⟨loop, rfl, hroutes ▸ hroute⟩
  | error run =>
    -- only a conversation that cannot be started ends such a run, with an exception
    rw [signalHandler, hp] at hrun
    rw [hprepare] at hp
    simp only [startLoop, h.initialContext_eq, hparsed, hs, if_false, h.findConversation_eq, Bool.false_eq_true] at hp
    split at hp
    · cases hp
      cases hrun
    · cases hp

omit [Unicode] in
/-- The rows a route sees: none. -/
theorem view_eq (h : FirstMessage env event db keys routeId route) (hdb : ∃ conversations, loop.db = { db with conversations }) :
    let view := loop.view env (routeId, route)
    view.assemblies = [] ∧ view.intents = [] ∧ view.intentsTaken = [] ∧ view.activeTrades = [] ∧
      view.policy = route.targetConnectionId.bind db.policies.get? ∧ view.settings = db.userSettings.get? route.userId := by
  obtain ⟨conversations, hdb⟩ := hdb
  simp only [RouteLoop.view, hdb]
  refine ⟨?_, h.intents, ?_, h.trades, rfl, rfl⟩
  · refine List.eq_nil_iff_forall_not_mem.mpr fun e he => ?_
    simp only [Database.routeView, Table.mem_select, Bool.and_eq_true, decide_eq_true_eq] at he
    exact h.assemblies _ _ he.1 he.2.2
  · refine List.map_eq_nil_iff.mpr (List.eq_nil_iff_forall_not_mem.mpr fun e he => ?_)
    rw [Table.mem_select] at he
    rw [h.draws.intents _ _ he.2] at he
    cases he.1

end FirstMessage

omit [Unicode] in
/-- The policy of a signal is the account's. -/
theorem routeSignal_policy {env : SignalEnv} {event : MessageEvent} {parsed : AiAction} {update : Context} {conversationId : Uuid}
    {conversation : SignalConversation} {routeId : Uuid} {route : CopyRoute} {view : RouteView} {s : RouteSignal}
    (h : routeSignal env event parsed update conversationId conversation routeId route view = .ok s) :
    view.policy = some s.policy := by
  unfold routeSignal at h
  simp only at h
  split at h
  · cases h
  · split at h
    · cases h
    · cases h
    · next hp =>
      split at h <;> cases h
      exact hp

/-! ## The volume of an opening -/

omit [Unicode] in
/-- What is neither a status nor a change of a copied trade opens one. -/
theorem SignalAction.isOpening_iff {action : SignalAction} (h : action ≠ .status_only) :
    action.isOpening ↔ action.isTradeManagement = false := by
  cases action <;> simp_all [SignalAction.isOpening, SignalAction.isTradeManagement]

/-- **The volume that is checked is the volume that is ordered.** -/
theorem sum_intentVolumes {env : SignalEnv} {event : MessageEvent} {merged : Context} {action : SignalAction} {revision : Nat}
    {conversationId routeId threadId : Uuid} {route : CopyRoute} {trades : List CopiedTrade} {symbol : Option String}
    (ha : action.isOpening) (takeProfits : List Decimal) (mode : TakeProfitMode) (distribution : LotDistribution) :
    ((candidateIntents env event merged action revision conversationId routeId route
      (intentLegsForAction action route.fixedLot.toRat takeProfits mode distribution)
      (managementIntentTargets action trades routeId threadId symbol)).map fun e => e.2.requestPayload.volume.getD 0).sum =
      signalVolumeForAction action route.fixedLot.toRat takeProfits.length mode distribution := by
  have htargets : managementIntentTargets action trades routeId threadId symbol = [none] := by
    have hstatus : action ≠ .status_only := by
      rintro rfl
      cases ha
    rw [managementIntentTargets, (SignalAction.isOpening_iff hstatus).mp ha]
    rfl
  have hvolumes (legs : List (Option TakeProfitLeg)) :
      (candidateIntents env event merged action revision conversationId routeId route legs [none]).map
        (fun e => e.2.requestPayload.volume.getD 0) = legs.map (legVolume route.fixedLot.toRat) :=
    calc _ = ((candidateIntents env event merged action revision conversationId routeId route legs [none]).map
          (·.2.requestPayload.volume)).map (·.getD 0) := by rw [List.map_map]; rfl
      _ = legs.map (legVolume route.fixedLot.toRat) := by rw [candidateIntents_volumes, List.map_map]; rfl
  rw [htargets, hvolumes, sum_legs ha]

omit [Unicode] in
/-- Two targets of a gold order take the fixed lot each. -/
theorem sum_intentVolumes_goldRoute :
    let _ := Unicode.ascii
    ((candidateIntents (goldEnv 0 (seconds 101) buyGold) goldMessage {} .open_market 1 8 4 goldRoute
      (intentLegsForAction .open_market goldRoute.fixedLot.toRat [2410, 2420] .all .fixed_each)
      (managementIntentTargets .open_market [] 4 9 none)).map fun e => e.2.requestPayload.volume.getD 0).sum = 1 / 50 := by
  intro _
  rw [sum_intentVolumes rfl]
  simp only [signalVolumeForAction, calculateSignalVolume, SignalAction.isOpening, goldRoute, Numeric.toRat, if_true,
    reduceCtorEq, if_false]
  norm_num

/-! ## What a first message creates -/

section

variable {env : SignalEnv} {event : MessageEvent} {conversationId routeId : Uuid} {conversation : SignalConversation}
  {route : CopyRoute} {view : RouteView} {s : RouteSignal}

omit [Unicode] in
theorem not_status_of_accepted {signal : ParsedSignal} {policy : RouteExecutionPolicy}
    (h : (validateSignal signal policy).accepted) : signal.action ≠ .status_only := by
  have h := validateSignal_accepted.1 h
  simp only [ParsedSignal.checks, List.forall_mem_cons, decide_eq_false_iff_not] at h
  exact h.1

omit [Unicode] in
theorem signalVolume_pos {action : SignalAction} (ha : action.isOpening) (route : CopyRoute) (count : Nat) :
    0 < signalVolumeForAction action route.fixedLot.toRat count route.takeProfitMode route.lotDistribution := by
  have hlot : 0 < route.fixedLot.toRat := div_pos (Int.cast_pos.mpr route.fixedLot_pos) (by positivity)
  have hcount : (0 : ℚ) < (if route.takeProfitMode = .all then max 1 count else 1 : Nat) := by
    split
    · exact_mod_cast Nat.lt_of_lt_of_le Nat.zero_lt_one (le_max_left _ _)
    · norm_num
  rw [signalVolumeForAction, if_pos ha, calculateSignalVolume]
  split
  · exact hlot
  · exact mul_pos hlot hcount

/-- With no live trade and no intent before, the intents of a signal are those of its legs. -/
theorem createdIntents_first (hs : s.signal.action = s.action) (hintents : view.intents = []) (htaken : view.intentsTaken = [])
    (htrades : view.activeTrades = []) :
    createdIntents env event conversationId conversation routeId route view s =
      if (validateSignal s.signal (routeExecutionPolicy env route s.policy)).accepted ∧ s.action.isTradeManagement = false ∧
          ensureAccountRiskWithinLimits (signalRisk s.policy view s.signal.symbol (signalVolumeForAction s.action
            route.fixedLot.toRat s.signal.takeProfits.length route.takeProfitMode route.lotDistribution)) = .ok () then
        candidateIntents env event s.assembly.context s.action s.revision conversationId routeId route
          (intentLegsForAction s.action route.fixedLot.toRat s.signal.takeProfits route.takeProfitMode route.lotDistribution)
          [none]
      else [] := by
  unfold createdIntents routeVerdict
  by_cases haccepted : (validateSignal s.signal (routeExecutionPolicy env route s.policy)).accepted
  · have hstatus : s.action ≠ .status_only := hs ▸ not_status_of_accepted haccepted
    cases hmanaged : s.action.isTradeManagement with
    | true =>
      have hvolume : signalVolumeForAction s.action route.fixedLot.toRat s.signal.takeProfits.length route.takeProfitMode
          route.lotDistribution = 0 := by
        refine if_neg fun hopening => ?_
        rw [(SignalAction.isOpening_iff hstatus).mp hopening] at hmanaged
        cases hmanaged
      have hnone : managementIntentTargets s.action (view.activeTrades.map Prod.snd) routeId conversation.legacyThreadId
          s.signal.symbol = [] := by
        rw [htrades, managementIntentTargets, hmanaged]
        split
        · next hn => cases hn
        · dsimp only
          split <;> rfl
      simp only [haccepted, Bool.not_true, Bool.false_eq_true, if_false, hnone, reduceCtorEq, false_and, and_false]
      rw [hvolume, if_neg (lt_irrefl 0)]
      rfl
    | false =>
      have hopening := (SignalAction.isOpening_iff hstatus).mpr hmanaged
      have hvolume := signalVolume_pos hopening route s.signal.takeProfits.length
      have htargets : managementIntentTargets s.action (view.activeTrades.map Prod.snd) routeId conversation.legacyThreadId
          s.signal.symbol = [none] := by
        rw [managementIntentTargets, hmanaged]
        rfl
      simp only [haccepted, Bool.not_true, Bool.false_eq_true, if_false, hvolume, if_true, htargets, true_and]
      cases hlimits : ensureAccountRiskWithinLimits (signalRisk s.policy view s.signal.symbol (signalVolumeForAction s.action
          route.fixedLot.toRat s.signal.takeProfits.length route.takeProfitMode route.lotDistribution)) with
      | error e => simp
      | ok u =>
        simp only [List.isEmpty_cons, Bool.false_eq_true, if_false, if_true, newIntents, hintents, htaken, List.not_mem_nil,
          not_false_eq_true, decide_true, List.filter_true]
        exact insertable_eq_self candidateIntents_legs_apart fun _ _ => rfl
  · simp [haccepted]

end

/-! ## The handler on the text of a preview -/

omit [Unicode] in
/-- The limits look at the live trades only. -/
theorem signalRisk_congr {policy : CopyAccountPolicy} {view view' : RouteView} (h : view.activeTrades = view'.activeTrades)
    (symbol : Option String) (volume : ℚ) : signalRisk policy view symbol volume = signalRisk policy view' symbol volume := by
  unfold signalRisk
  rw [h]

/-- The volume is within the limits of the account's policy, with nothing open. -/
def WithinLimits (env : SignalEnv) (db : Database) (routeId : Uuid) (route : CopyRoute) (symbol : Option String) (volume : ℚ) :
    Prop :=
  ∃ policy, route.targetConnectionId.bind db.policies.get? = some policy ∧
    ensureAccountRiskWithinLimits
      (signalRisk policy (db.routeView env.run (.conversation env.run) routeId route) symbol volume) = .ok ()

/-- What the handler makes of the text a preview was given: the preview's verdict is the one on
the signal it reads, and what it creates, if it creates anything, has the volume and the fields
of the preview. -/
structure PreviewTells (env : SignalEnv) (event : MessageEvent) (db db' : Database) (routeId : Uuid) (route : CopyRoute)
    (report : RoutePreview) : Prop where
  verdict : ∀ loop, prepare env event db = .ok loop → ∀ s, loop.signal env event (routeId, route) = .ok s →
    report.accepted = (validateSignal s.signal (routeExecutionPolicy env route s.policy)).accepted ∧
      report.reason = (validateSignal s.signal (routeExecutionPolicy env route s.policy)).reason
  created : db'.intentsOf routeId ≠ [] ↔ report.accepted ∧ report.action.isTradeManagement = false ∧
    TakesMessage env event db route ∧ WithinLimits env db routeId route report.signalSymbol (report.volume.getD 0)
  fields : ∀ e ∈ db'.intentsOf routeId, e.2.requestPayload.context.action = some report.action ∧
    e.2.requestPayload.context.direction = report.direction ∧ e.2.requestPayload.context.symbol = report.signalSymbol ∧
    e.2.requestPayload.context.takeProfits = report.takeProfits
  volume : db'.intentsOf routeId ≠ [] →
    ((db'.intentsOf routeId).map fun e => e.2.requestPayload.volume.getD 0).sum = report.volume.getD 0

omit [Unicode] in
theorem getD_positive (volume : ℚ) : (if 0 < volume then some volume else none).getD 0 = max 0 volume := by
  split
  · next hpos => exact (max_eq_right hpos.le).symm
  · next hneg => exact (max_eq_left (not_lt.mp hneg)).symm

/-- What a preview reports. -/
theorem previewRoute_eq_ok {env : SignalEnv} {db : Database} {routeId : Uuid} {route : CopyRoute} {text : String}
    {occurredAt : Option Time} {report : RoutePreview} (h : previewRoute env db routeId route text occurredAt = .ok report) :
    ∃ policy parsed, route.targetConnectionId.bind db.policies.get? = some policy ∧ env.parseMessage text {} = .ok parsed ∧
      (report.accepted, report.reason) =
        ((validateSignal (previewSignal env parsed (occurredAt.getD env.now)) (routeExecutionPolicy env route policy)).accepted,
          (validateSignal (previewSignal env parsed (occurredAt.getD env.now)) (routeExecutionPolicy env route policy)).reason) ∧
      report.action = parsed.action ∧ report.signalSymbol = parsed.symbol ∧ report.direction = parsed.direction ∧
      report.takeProfits = parsed.takeProfits ∧
      report.volume.getD 0 = max 0 (signalVolumeForAction parsed.action route.fixedLot.toRat parsed.takeProfits.length
        route.takeProfitMode route.lotDistribution) := by
  unfold previewRoute at h
  split at h
  · cases h
  · cases h
  · next policy parsed hpolicy hparsed =>
    simp only at h
    split at h
    · cases h
    · cases h
      exact ⟨policy, parsed, hpolicy, hparsed, rfl, rfl, rfl, rfl, rfl, getD_positive _⟩

namespace FirstMessage

variable {env : SignalEnv} {event : MessageEvent} {db db' : Database} {keys : SemanticKeys} {routeId : Uuid} {route : CopyRoute}
  {loop : RouteLoop} {s : RouteSignal} {parsed : AiAction} {r : DeliveryResult}

/-- The signal that is read from a first message. -/
theorem signal_eq (h : FirstMessage env event db keys routeId route) (hparsed : env.parseMessage event.text {} = .ok parsed)
    (hl : prepare env event db = .ok loop) (hs : loop.signal env event (routeId, route) = .ok s) :
    s.assembly.context = firstContext parsed ∧ s.action = parsed.action ∧
      s.signal = parsedSignal env event parsed (firstContext parsed) parsed.action ∧
      route.targetConnectionId.bind db.policies.get? = some s.policy := by
  obtain ⟨hp, hupdate, hcontext, hdb, -⟩ := h.loop_eq hparsed hl
  obtain ⟨hassemblies, -, -, -, hpolicy, -⟩ := h.view_eq hdb
  obtain ⟨current, hcurrent, hmerged, haction, -⟩ := routeSignal_eq_ok hs
  have hnew : currentAssembly env loop.conversationId loop.conversation routeId route (loop.view env (routeId, route)) =
      (s.assemblyId, current, s.isNew) := hcurrent
  simp only [currentAssembly, hassemblies, List.find?_nil, Prod.mk.injEq] at hnew
  obtain ⟨-, rfl, -⟩ := hnew
  have hfirst : s.assembly.context = firstContext parsed := by
    rw [hmerged, mergeMessage, hupdate]
    simp only [hcontext]
    rfl
  have hact : s.action = parsed.action := Option.some.inj (by rw [← haction, hfirst, firstContext_action])
  refine ⟨hfirst, hact, ?_, hpolicy.symm.trans (routeSignal_policy hs)⟩
  rw [routeSignal_signal hs, hfirst, hact, hp]

/-- The intents of a route after a run. -/
theorem intents_of_run (h : FirstMessage env event db keys routeId route) (hl : prepare env event db = .ok loop)
    (hdb : ∃ conversations, loop.db = { db with conversations }) (hroute : (routeId, route) ∈ loop.routes)
    (hrun : (signalHandler env event db keys).result = .ok (r, db')) :
    if (loop.view env (routeId, route)).isPaused then db'.intentsOf routeId = [] else
      ∃ s, loop.signal env event (routeId, route) = .ok s ∧ db'.intentsOf routeId =
        createdIntents env event loop.conversationId loop.conversation routeId route (loop.view env (routeId, route)) s := by
  rcases signalHandler_eq_ok hrun with ⟨⟨run, hp⟩, -⟩ | ⟨loop', effects, hl', hloop⟩
  · rw [hp] at hl
    cases hl
  · rw [hl] at hl'
    cases hl'
    obtain ⟨out, hout, hintents⟩ := (processRoutes_ok (prepare_routes hl) ⟨fun _ _ => rfl, fun _ _ _ _ => rfl⟩ hloop).1 _ hroute
    have hbefore : loop.db.intentsOf routeId = [] := by
      obtain ⟨conversations, hdb⟩ := hdb
      rw [hdb]
      exact h.intents
    rw [hintents, hbefore, List.nil_append]
    replace hout : (if (loop.view env (routeId, route)).isPaused then .ok [] else
        (loop.planFor env event (routeId, route) keys).map RoutePlan.intents) = .ok out := hout
    split at hout
    · next hp =>
      rw [if_pos hp]
      cases hout
      rfl
    · next hp =>
      rw [if_neg hp]
      cases hplan : loop.planFor env event (routeId, route) keys with
      | error x =>
        rw [hplan] at hout
        cases hout
      | ok plan =>
        rw [hplan] at hout
        cases hout
        obtain ⟨s, hs, rfl⟩ := planRoute_eq_ok hplan
        have hfree : s.heldBack routeId route (keys.alive env.now) = false := by
          rw [RouteSignal.heldBack, h.keys (s.duplicateKey routeId) rfl, Bool.and_false]
        exact ⟨s, hs, by rw [planSignal_intents, hfree]; rfl⟩

/-- A route that is processed takes the message. -/
theorem takes_of_loop (h : FirstMessage env event db keys routeId route) (hl : prepare env event db = .ok loop)
    (hdb : ∃ conversations, loop.db = { db with conversations }) (hroute : (routeId, route) ∈ loop.routes)
    (hp : (loop.view env (routeId, route)).isPaused = false) : TakesMessage env event db route := by
  obtain ⟨-, -, -, -, hpolicy, hsettings⟩ := h.view_eq hdb
  rw [RouteView.isPaused, hpolicy, hsettings, Bool.or_eq_false_iff] at hp
  unfold prepare at hl
  split at hl
  · cases hl
  · split at hl
    · cases hl
    · next hrunning =>
      split at hl
      · cases hl
      · next hlocked =>
        split at hl
        · cases hl
        · next source hsource =>
          split at hl
          · cases hl
          · next hopen =>
            rw [(startLoop_eq_ok hl).2.2.2.2, Database.acceptingRoutes, Table.mem_select] at hroute
            simp only [Bool.and_eq_true, decide_eq_true_eq] at hroute
            obtain ⟨-, ⟨hid, hactive⟩, haccepts⟩ := hroute
            rw [Bool.or_eq_true, not_or] at hopen
            exact ⟨Bool.eq_false_iff.mpr hrunning, by simpa using hlocked,
              ⟨source, hsource, Bool.eq_false_iff.mpr hopen.1, hid, hactive, haccepts⟩, hp.1, hp.2⟩

/-- A run leaves the route without intents, and then did not process it, or it takes the message
and has the intents of its signal. -/
theorem run_cases (h : FirstMessage env event db keys routeId route) (hparsed : env.parseMessage event.text {} = .ok parsed)
    (hrun : (signalHandler env event db keys).result = .ok (r, db')) :
    (db'.intentsOf routeId = [] ∧ (parsed.action ≠ .status_only → ¬ TakesMessage env event db route)) ∨
      ∃ loop s, prepare env event db = .ok loop ∧ (∃ conversations, loop.db = { db with conversations }) ∧
        TakesMessage env event db route ∧ loop.signal env event (routeId, route) = .ok s ∧ db'.intentsOf routeId =
          createdIntents env event loop.conversationId loop.conversation routeId route (loop.view env (routeId, route)) s := by
  rcases signalHandler_eq_ok hrun with ⟨⟨run, hp⟩, hdb'⟩ | ⟨loop, effects, hl, hloop⟩
  · left
    rw [hdb', h.created, if_neg nofun]
    refine ⟨h.intents, fun hs ht => ?_⟩
    obtain ⟨loop, hl, -⟩ := h.exists_loop ht hparsed hs hrun
    rw [hl] at hp
    cases hp
  · obtain ⟨-, -, -, hdb, source, hsource, hroutes⟩ := h.loop_eq hparsed hl
    by_cases hroute : (routeId, route) ∈ loop.routes
    · have hcreated := h.intents_of_run hl hdb hroute hrun
      split at hcreated
      · next hp =>
        refine .inl ⟨hcreated, fun _ ht => ?_⟩
        obtain ⟨-, -, -, -, hpolicy, hsettings⟩ := h.view_eq hdb
        rw [RouteView.isPaused, hpolicy, hsettings, ht.settings, ht.policy] at hp
        cases hp
      · next hp =>
        obtain ⟨s, hs, hintents⟩ := hcreated
        exact .inr ⟨loop, s, hl, hdb, h.takes_of_loop hl hdb hroute (Bool.eq_false_iff.mpr hp), hs, hintents⟩
    · have hother : routeId ∉ loop.routes.map Prod.fst := by
        intro hmem
        obtain ⟨⟨id, other⟩, hin, rfl⟩ := List.mem_map.mp hmem
        rw [hroutes] at hroute hin
        have hget := (Table.mem_select.1 hin).1
        rw [h.stored] at hget
        cases hget
        exact hroute hin
      left
      constructor
      · obtain ⟨conversations, hdb⟩ := hdb
        rw [(processRoutes_ok (prepare_routes hl) ⟨fun _ _ => rfl, fun _ _ _ _ => rfl⟩ hloop).2 routeId hother, hdb]
        exact h.intents
      · intro hs ht
        obtain ⟨loop', hl', hin⟩ := h.exists_loop ht hparsed hs hrun
        rw [hl] at hl'
        cases hl'
        exact hroute hin

end FirstMessage

/-- **The preview and the handler.** Where the text states no target twice and no empty symbol, a
preview reports the handler's verdict on the text as a first message; intents are created from it
exactly if it is accepted, the route takes it, it opens something and the volume is within the
limits, and then they have the preview's volume and fields. -/
theorem previewRoute_signalHandler {env : SignalEnv} {event : MessageEvent} {db db' : Database} {keys : SemanticKeys}
    {routeId : Uuid} {route : CopyRoute} {report : RoutePreview} {r : DeliveryResult}
    (h : FirstMessage env event db keys routeId route)
    (hreport : previewRoute env db routeId route event.text (some event.occurredAt) = .ok report)
    (hsymbol : report.signalSymbol ≠ some "") (htargets : report.takeProfits.Nodup)
    (hrun : (signalHandler env event db keys).result = .ok (r, db')) :
    PreviewTells env event db db' routeId route report := by
  obtain ⟨policy, parsed, hpolicy, hparsed, hverdict, ha, hs, hd, ht, hv⟩ := previewRoute_eq_ok hreport
  rw [hs] at hsymbol
  rw [ht] at htargets
  rw [Option.getD_some] at hverdict
  have hfirst := parsedSignal_first env event parsed hsymbol htargets
  have hsignal {loop : RouteLoop} {s : RouteSignal} (hl : prepare env event db = .ok loop)
      (hsig : loop.signal env event (routeId, route) = .ok s) :
      s.assembly.context = firstContext parsed ∧ s.action = parsed.action ∧
        s.signal = previewSignal env parsed event.occurredAt ∧ s.policy = policy := by
    obtain ⟨hcontext, hact, hread, hown⟩ := h.signal_eq hparsed hl hsig
    rw [hpolicy] at hown
    exact ⟨hcontext, hact, hread.trans hfirst, (Option.some.inj hown).symm⟩
  obtain ⟨haccepted, hreason⟩ := Prod.mk.inj hverdict
  have hverdict : ∀ loop, prepare env event db = .ok loop → ∀ s, loop.signal env event (routeId, route) = .ok s →
      report.accepted = (validateSignal s.signal (routeExecutionPolicy env route s.policy)).accepted ∧
        report.reason = (validateSignal s.signal (routeExecutionPolicy env route s.policy)).reason := by
    intro loop hl s hsig
    obtain ⟨-, -, hread, hown⟩ := hsignal hl hsig
    rw [hread, hown]
    exact ⟨haccepted, hreason⟩
  have hstatus (hacc : report.accepted) : parsed.action ≠ .status_only := by
    rw [haccepted] at hacc
    exact not_status_of_accepted hacc
  rcases h.run_cases hparsed hrun with ⟨hnone, htakes⟩ | ⟨loop, s, hl, hdb, htakes, hsig, hintents⟩
  · refine ⟨hverdict, ⟨fun hne => absurd hnone hne, fun ⟨hacc, _, htaken, _⟩ => absurd htaken (htakes (hstatus hacc))⟩, ?_,
      fun hne => absurd hnone hne⟩
    rw [hnone]
    exact fun e he => absurd he List.not_mem_nil
  · obtain ⟨hcontext, hact, hread, hown⟩ := hsignal hl hsig
    obtain ⟨-, hempty, htaken, htrades, -, -⟩ := h.view_eq hdb
    rw [createdIntents_first (by rw [hread, hact]; rfl) hempty htaken htrades, hread, hact, hown] at hintents
    have hvolume (hacc : report.accepted) (hm : parsed.action.isTradeManagement = false) :
        report.volume.getD 0 = signalVolumeForAction parsed.action route.fixedLot.toRat parsed.takeProfits.length
          route.takeProfitMode route.lotDistribution :=
      hv.trans (max_eq_right (signalVolume_pos ((SignalAction.isOpening_iff (hstatus hacc)).mpr hm) route _).le)
    have hlimits (hacc : report.accepted) (hm : parsed.action.isTradeManagement = false) :
        WithinLimits env db routeId route report.signalSymbol (report.volume.getD 0) ↔
          ensureAccountRiskWithinLimits (signalRisk policy (loop.view env (routeId, route)) parsed.symbol
            (signalVolumeForAction parsed.action route.fixedLot.toRat parsed.takeProfits.length route.takeProfitMode
              route.lotDistribution)) = .ok () := by
      have hrisk : signalRisk policy (db.routeView env.run (.conversation env.run) routeId route) =
          signalRisk policy (loop.view env (routeId, route)) :=
        funext fun symbol => funext fun volume => signalRisk_congr (h.trades.trans htrades.symm) symbol volume
      rw [hvolume hacc hm, hs, ← hrisk]
      constructor
      · rintro ⟨policy', hpolicy', hok⟩
        rw [hpolicy] at hpolicy'
        cases hpolicy'
        exact hok
      · exact fun hok => ⟨policy, hpolicy, hok⟩
    split at hintents
    · next hcond =>
      obtain ⟨hacc, hm, hok⟩ := hcond
      rw [← haccepted] at hacc
      have hopening := (SignalAction.isOpening_iff (hstatus hacc)).mpr hm
      have hvolumes := congrArg (List.map fun volume => volume.getD 0) (congrArg (List.map (·.2.requestPayload.volume)) hintents)
      rw [candidateIntents_volumes, List.map_map, List.map_map] at hvolumes
      have hsome : db'.intentsOf routeId ≠ [] := by
        intro hnone
        rw [hnone] at hvolumes
        exact intentLegs_ne_nil (List.map_eq_nil_iff.mp hvolumes.symm)
      refine ⟨hverdict, ⟨fun _ => ⟨hacc, ?_, htakes, (hlimits hacc hm).mpr hok⟩, fun _ => hsome⟩, fun e he => ?_, fun _ => ?_⟩
      · rw [ha]
        exact hm
      · rw [hintents] at he
        have hfor := candidateIntents_isIntentFor (by rw [hcontext, firstContext_action]) he
        rw [hfor.context, hcontext, ha, hd, hs, ht]
        exact ⟨firstContext_action parsed, congrArg ParsedSignal.direction hfirst, congrArg ParsedSignal.symbol hfirst,
          firstContext_targets parsed htargets⟩
      · rw [hvolume hacc hm, ← sum_legs hopening]
        exact congrArg List.sum hvolumes
    · next hcond =>
      refine ⟨hverdict, ⟨fun hne => absurd hintents hne, fun ⟨hacc, hm, _, hwithin⟩ => absurd ?_ hcond⟩, ?_,
        fun hne => absurd hintents hne⟩
      · rw [ha] at hm
        exact ⟨haccepted ▸ hacc, hm, (hlimits hacc hm).mp hwithin⟩
      · rw [hintents]
        exact fun e he => absurd he List.not_mem_nil

omit [Unicode] in
/-- The first message of the gold channel. -/
theorem goldMessage_first (policy : CopyAccountPolicy) (parsed : AiAction) :
    FirstMessage (goldEnv 0 (seconds 101) parsed) goldMessage { goldDatabase with policies := .add ∅ 3 policy } [] 4 goldRoute where
  created := rfl
  stored := rfl
  conversations _ _ h := by cases h
  assemblies _ _ h := by cases h
  intents := rfl
  trades := by rfl
  keys _ _ := rfl
  draws := ⟨fun _ => rfl, fun _ => rfl, fun _ _ _ => rfl⟩

omit [Unicode] in
/-- A market order within the limits is created as it was previewed. -/
theorem previewRoute_signalHandler_goldMessage :
    let _ := Unicode.ascii
    let env := goldEnv 0 (seconds 101) buyGold
    let db := { goldDatabase with policies := .add ∅ 3 {} }
    ∃ report r db', previewRoute env db 4 goldRoute goldMessage.text (some goldMessage.occurredAt) = .ok report ∧
      (signalHandler env goldMessage db []).result = .ok (r, db') ∧ report.accepted ∧ (db'.intentsOf 4).length = 1 ∧
      PreviewTells env goldMessage db db' 4 goldRoute report := by
  intro _ env db
  have hpreview : (previewRoute env db 4 goldRoute goldMessage.text (some goldMessage.occurredAt)).toOption.map (fun report =>
      (report.accepted, report.signalSymbol, report.takeProfits)) = some (true, some "XAUUSD", [2410]) := by decide +kernel
  obtain ⟨report, hreport, hfields⟩ := Option.map_eq_some_iff.mp hpreview
  obtain ⟨db', hrun, hcount⟩ := (signalHandler env goldMessage db []).of_intentCount 4 1 (by decide +kernel)
  have hok : previewRoute env db 4 goldRoute goldMessage.text (some goldMessage.occurredAt) = .ok report := by
    cases hp : previewRoute env db 4 goldRoute goldMessage.text (some goldMessage.occurredAt) with
    | error e =>
      rw [hp] at hreport
      cases hreport
    | ok other =>
      rw [hp] at hreport
      exact congrArg Except.ok (Option.some.inj hreport)
  simp only [Prod.mk.injEq] at hfields
  obtain ⟨hacc, hsymbol, htargets⟩ := hfields
  refine ⟨report, _, db', hok, hrun, hacc, hcount, previewRoute_signalHandler (goldMessage_first {} buyGold) hok ?_ ?_ hrun⟩
  · rw [hsymbol]
    decide
  · rw [htargets]
    decide

omit [Unicode] in
/-- A blocked symbol is previewed as accepted and no intent is created; a target stated twice is
previewed with two orders and gets one. -/
theorem preview_of_blocked :
    let _ := Unicode.ascii
    let env := goldEnv 0 (seconds 101) buyGold
    let db := { goldDatabase with policies := .add ∅ 3 { blockedSymbols := ["XAUUSD"] } }
    let twice := goldEnv 0 (seconds 101) { buyGold with takeProfits := [2410, 2410] }
    ((previewRoute env db 4 goldRoute goldMessage.text (some goldMessage.occurredAt)).toOption.map fun report =>
        (report.accepted, report.volume)) = some (true, some (1 / 100)) ∧
      (signalHandler env goldMessage db []).intentCount 4 = some 0 ∧
      ((previewRoute twice goldDatabase 4 goldRoute goldMessage.text (some goldMessage.occurredAt)).toOption.map fun report =>
        (report.accepted, report.volume)) = some (true, some (1 / 50)) ∧
      (signalHandler twice goldMessage goldDatabase []).intentCount 4 = some 1 := by
  refine ⟨?_, ?_, ?_, ?_⟩ <;> decide +kernel

end SignalSync
