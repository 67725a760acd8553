import SignalSync.Execution.Handler
import SignalSync.Signal.Edits

/-!
# What a management message is carried out on

A management message of a conversation makes an intent for each open or pending trade of the
route in the conversation, and a full close that names a symbol for each of the symbol. Neither
the selection nor the execution of an intent looks at the lifecycle of its trade.

* `plan_target`: the trades the intents of a message are for;
* `exists_intent`: each selected trade gets one;
* `managementFits_iff`: intents and trades fit each other exactly where all selected trades have
  the lifecycle the action is for.
-/

namespace SignalSync

open Library

/-- The lifecycle of the trades that an action is for. -/
def SignalAction.fits : SignalAction → LifecycleState → Bool
  | .cancel_pending, state => state = .pending
  | .modify_sl_tp, state | .break_even, state | .partial_close, state | .full_close, state => state = .open
  | _, _ => true

/-- A trade ends as closed only from open and as cancelled only from pending. -/
def LifecycleState.endsAs : LifecycleState → LifecycleState → Bool
  | state, .closed => state = .open
  | state, .cancelled => state = .pending
  | _, _ => true

theorem confirmCopied_endsAs {payload : Payload} {action : SignalAction} {volume : ℚ} {trade new : CopiedTrade}
    (ha : action.isTradeManagement) (hactive : trade.lifecycleState.isActive) (hfits : action.fits trade.lifecycleState)
    (h : confirmCopied payload action volume trade = .ok new) : trade.lifecycleState.endsAs new.lifecycleState := by
  have hkept (hl : new.lifecycleState = trade.lifecycleState) : trade.lifecycleState.endsAs new.lifecycleState := by
    rw [hl]
    revert hactive
    cases trade.lifecycleState <;> simp [LifecycleState.isActive, LifecycleState.endsAs]
  cases action with
  | partial_close =>
    simp only [confirmCopied] at h
    split at h
    · cases h
    · cases h
      exact hkept rfl
  | modify_sl_tp | break_even =>
    cases h
    exact hkept rfl
  | full_close | cancel_pending =>
    cases h
    exact hfits
  | _ => cases ha

variable [Unicode]

/-- The message is about the trade: by the symbol of a full close that names one, else by
the conversation. -/
def CopiedTrade.isSelected (trade : CopiedTrade) (threadId : Uuid) (symbol : Option String) (action : SignalAction) : Bool :=
  match symbol.filter fun s => action = .full_close && s ≠ "" with
  | some symbol =>
    Symbols.startsWith (Symbols.normalizeSymbol trade.signalSymbol) (Symbols.normalizeSymbol symbol) ||
      Symbols.startsWith (Symbols.normalizeSymbol symbol) (Symbols.normalizeSymbol trade.signalSymbol)
  | none => trade.threadId = threadId

/-- A message that is handled on a route. -/
structure RouteRun where
  db : Database
  env : SignalEnv
  event : MessageEvent
  parsed : AiAction
  update : Context
  conversationId : Uuid
  conversation : SignalConversation
  routeId : Uuid
  route : CopyRoute
  alive : SemanticKey → Bool

def RouteRun.plan (r : RouteRun) : Except SignalError RoutePlan :=
  planRoute r.env r.event r.parsed r.update r.conversationId r.conversation r.routeId r.route
    (r.db.routeView r.env.run r.conversationId r.routeId r.route) r.alive

/-- Over these copied trades, each intent a message makes with the action is carried out on a
trade whose lifecycle the action is for, and a trade only ends as it can. -/
def ManagementFits (trades : Table Uuid CopiedTrade) (routeId threadId : Uuid) (symbol : Option String) (action : SignalAction) :
    Prop :=
  ∀ (r : RouteRun) (plan : RoutePlan), r.db.trades = trades → r.routeId = routeId → r.db.routes.get? routeId = some r.route →
    r.conversation.legacyThreadId = threadId → r.plan = .ok plan → plan.assembly.context.action = some action →
    plan.assembly.context.symbol = symbol →
    ∀ e ∈ plan.intents, ∀ key trade, selectTrade (r.db.routeTrades routeId) e.2.requestPayload = some (key, trade) →
      action.fits trade.lifecycleState ∧
        ∀ volume new, confirmCopied e.2.requestPayload action volume trade = .ok new →
          trade.lifecycleState.endsAs new.lifecycleState

/-! ## The trades of the intents -/

section

variable {action : SignalAction} {trades : List CopiedTrade} {routeId threadId : Uuid} {symbol : Option String} {trade : CopiedTrade}

theorem mem_managementIntentTargets (ha : action.isTradeManagement) {target : Option CopiedTrade} :
    target ∈ managementIntentTargets action trades routeId threadId symbol ↔
      ∃ trade ∈ trades, trade.routeId = routeId ∧ trade.isSelected threadId symbol action ∧ target = some trade := by
  simp only [managementIntentTargets, ha, Bool.not_true, Bool.false_eq_true, if_false, List.mem_map, List.mem_insertionSort,
    CopiedTrade.isSelected]
  cases symbol.filter fun s => action = .full_close && s ≠ "" with
  | none =>
    simp only [List.mem_filter, decide_eq_true_eq, and_assoc, @eq_comm _ target]
  | some symbol =>
    simp only [List.mem_filter, decide_eq_true_eq, and_assoc, @eq_comm _ target]

omit [Unicode] in
/-- The open and pending trades of a route, in the order execution looks at them. -/
theorem mem_routeTrades {db : Database} {e : Uuid × CopiedTrade} :
    e ∈ db.routeTrades routeId ↔ e ∈ db.trades.entries ∧ e.2.routeId = routeId ∧ e.2.lifecycleState.isActive := by
  rw [Database.routeTrades, List.mem_insertionSort, Table.select, List.mem_filter, Bool.and_eq_true, decide_eq_true_eq]

omit [Unicode] in
theorem mem_activeTrades {db : Database} {route : CopyRoute} (h : db.routes.get? routeId = some route)
    {e : Uuid × CopiedTrade} (hroute : e.2.routeId = routeId) :
    e ∈ db.activeTrades route ↔ e ∈ db.trades.entries ∧ e.2.lifecycleState.isActive := by
  rw [Database.activeTrades, Table.select, List.mem_filter, hroute, h]
  simp

/-- Execution finds the trade of an intent by its id. -/
theorem selectTrade_of_id {entries : List (Uuid × CopiedTrade)} {payload : Payload} {e : Uuid × CopiedTrade}
    (hids : ∀ a ∈ entries, ∀ b ∈ entries, a.2.id = b.2.id → a = b) (he : e ∈ entries)
    (hp : payload.copiedTradeId = some e.2.id) : selectTrade entries payload = some e := by
  simp only [selectTrade, hp]
  cases hfind : entries.find? fun a => a.2.id = e.2.id with
  | none => exact absurd (List.find?_eq_none.1 hfind e he) (by simp)
  | some a => rw [hids a (List.mem_of_find?_eq_some hfind) e he (by simpa using List.find?_some hfind)]

end

section

variable {r : RouteRun} {plan : RoutePlan} {action : SignalAction} {symbol : Option String} {e : Uuid × TradeIntent}

/-- The trades the intents of a message are for. -/
theorem plan_target (hplan : r.plan = .ok plan) (ha : plan.assembly.context.action = some action) (hm : action.isTradeManagement)
    (he : e ∈ plan.intents) :
    ∃ trade ∈ (r.db.activeTrades r.route).map Prod.snd, trade.routeId = r.routeId ∧
      trade.isSelected r.conversation.legacyThreadId plan.assembly.context.symbol action ∧
      e.2.requestPayload.copiedTradeId = some trade.id := by
  obtain ⟨s, hs, rfl⟩ := planRoute_eq_ok hplan
  obtain ⟨-, -, -, hact, -⟩ := routeSignal_eq_ok hs
  obtain ⟨_, _, hkept⟩ := planSignal_assembly_kept r.env r.event r.conversationId r.conversation r.routeId r.route
    (r.db.routeView r.env.run r.conversationId r.routeId r.route) r.alive s
  rw [hkept] at ha ⊢
  have hsame : s.action = action := Option.some_inj.mp (hact.symm.trans ha)
  have hsymbol : s.signal.symbol = s.assembly.context.symbol := by
    rw [routeSignal_signal hs]
    rfl
  rw [planSignal_intents] at he
  split at he
  · cases he
  · unfold createdIntents at he
    split at he
    · rename_i targets hverdict
      split at he
      · cases he
      · have hcandidate := (List.mem_filter.mp (mem_of_mem_insertable he)).1
        simp only [candidateIntents, List.mem_flatMap, List.mem_map] at hcandidate
        obtain ⟨⟨i, leg⟩, -, ⟨j, target⟩, htarget, rfl⟩ := hcandidate
        have hmem : target ∈ targets := by
          obtain ⟨x, hx, heq⟩ := List.mem_map.mp htarget
          exact (Prod.mk.inj heq).2 ▸ List.fst_mem_of_mem_zipIdx hx
        have htargets : targets = managementIntentTargets s.action ((r.db.activeTrades r.route).map Prod.snd) r.routeId
            r.conversation.legacyThreadId s.signal.symbol := by
          simp only [routeVerdict] at hverdict
          split at hverdict
          · cases hverdict
          · split at hverdict <;> cases hverdict
            rfl
        rw [htargets, hsame, hsymbol, mem_managementIntentTargets hm] at hmem
        obtain ⟨trade, ht, hroute, hselected, rfl⟩ := hmem
        exact ⟨trade, ht, hroute, hselected, rfl⟩
    · cases he

/-- Distinct rows, as the primary key of the trades has it. -/
def DistinctIds (trades : Table Uuid CopiedTrade) : Prop := (trades.entries.map fun e => e.2.id).Nodup

omit [Unicode] in
theorem DistinctIds.eq {trades : Table Uuid CopiedTrade} (h : DistinctIds trades) {a b : Uuid × CopiedTrade}
    (ha : a ∈ trades.entries) (hb : b ∈ trades.entries) (hid : a.2.id = b.2.id) : a = b :=
  List.inj_on_of_nodup_map h ha hb hid

omit [Unicode] in
/-- A row of an active trade of the run's route. -/
theorem exists_tradeRow (hroute : r.db.routes.get? r.routeId = some r.route) {trade : CopiedTrade}
    (ht : trade ∈ (r.db.activeTrades r.route).map Prod.snd) (hr : trade.routeId = r.routeId) :
    ∃ key, (key, trade) ∈ r.db.trades.entries ∧ (key, trade) ∈ r.db.routeTrades r.routeId := by
  obtain ⟨⟨key, trade'⟩, hmem, rfl⟩ := List.mem_map.mp ht
  have hactive := (mem_activeTrades hroute hr).mp hmem
  exact ⟨key, hactive.1, mem_routeTrades.2 ⟨hactive.1, hr, hactive.2⟩⟩

/-- What execution carries an intent out on is a trade the message is about. -/
theorem select_of_plan (hids : DistinctIds r.db.trades) (hroute : r.db.routes.get? r.routeId = some r.route)
    (hplan : r.plan = .ok plan) (ha : plan.assembly.context.action = some action) (hm : action.isTradeManagement)
    (he : e ∈ plan.intents) {key : Uuid} {trade : CopiedTrade}
    (hselect : selectTrade (r.db.routeTrades r.routeId) e.2.requestPayload = some (key, trade)) :
    (key, trade) ∈ r.db.routeTrades r.routeId ∧
      trade.isSelected r.conversation.legacyThreadId plan.assembly.context.symbol action := by
  obtain ⟨target, htarget, hr, hselected, hp⟩ := plan_target hplan ha hm he
  obtain ⟨key', -, hrow⟩ := exists_tradeRow hroute htarget hr
  have hdistinct : ∀ a ∈ r.db.routeTrades r.routeId, ∀ b ∈ r.db.routeTrades r.routeId, a.2.id = b.2.id → a = b :=
    fun a ha b hb => hids.eq (mem_routeTrades.1 ha).1 (mem_routeTrades.1 hb).1
  rw [selectTrade_of_id hdistinct hrow hp] at hselect
  cases hselect
  exact ⟨hrow, hselected⟩

end

/-! ## Each selected trade gets an intent -/

section

variable (trades : Table Uuid CopiedTrade) (routeId threadId : Uuid) (symbol : Option String) (action : SignalAction)

/-- A first message with the action, over some copied trades. -/
def managementRun : RouteRun where
  db := { routes := .add ∅ routeId goldRoute, policies := .add ∅ 3 {}, trades }
  env := goldEnv 0 0 { action, confidence := 1 }
  event := goldMessage
  parsed := { action, confidence := 1 }
  update := { action := some action, closeFraction := some ⟨false, 5, -1⟩ }
  conversationId := .conversation 0
  conversation :=
    { sourceId := 2, legacyThreadId := threadId, correlationId := 5, state := .active, replyRootMessageId := none
      symbol, direction := none, context := { symbol }, lastMessageId := 11, updatedAt := 0 }
  routeId := routeId
  route := goldRoute
  alive := fun _ => false

/-- The signal that is read from it. -/
def managementSignal : RouteSignal :=
  let context : Context := { action := some action, symbol, closeFraction := some ⟨false, 5, -1⟩ }
  { assemblyId := .assembly 0 routeId
    isNew := true
    assembly :=
      { conversationId := .conversation 0, routeId, state := .assembling, context
        messageReferences := [⟨goldMessage.messageId, 1⟩], generation := 1, assemblyDeadline := routeDeadline 0 none }
    revision := 1
    action
    signal := parsedSignal (goldEnv 0 0 { action, confidence := 1 }) goldMessage { action, confidence := 1 } context action
    policy := {}
    parsedAction :=
      { threadId, routeId, telegramMessageId := goldMessage.messageId, actionType := action, revision := 1
        assemblyId := .assembly 0 routeId } }

/-- The intents of the message, one for each selected trade. -/
def managementIntents : List (Uuid × TradeIntent) :=
  let r := managementRun trades routeId threadId symbol action
  candidateIntents r.env r.event (managementSignal routeId threadId symbol action).assembly.context action 1 r.conversationId
    routeId r.route [none] (managementIntentTargets action ((r.db.activeTrades r.route).map Prod.snd) routeId threadId symbol)

variable {trades routeId threadId symbol action}

variable (trades routeId threadId symbol) in
omit [Unicode] in
theorem managementSignal_accepted (hm : action.isTradeManagement) :
    (validateSignal (managementSignal routeId threadId symbol action).signal
      (routeExecutionPolicy (managementRun trades routeId threadId symbol action).env goldRoute {})).accepted := by
  have hfraction : 0 < (⟨false, 5, -1⟩ : Decimal).toRat ∧ (⟨false, 5, -1⟩ : Decimal).toRat ≤ 1 := by decide +kernel
  cases action with
  | partial_close =>
    rw [validateSignal_accepted]
    simp only [ParsedSignal.checks, List.forall_mem_cons]
    simp [managementSignal, parsedSignal, ParsedSignal.prices]
    exact ⟨hfraction, rfl, rfl, fun h => absurd h Bool.false_ne_true⟩
  | _ => first | rfl | cases hm

variable (trades routeId threadId symbol) in
theorem managementRun_plan (hm : action.isTradeManagement) :
    ∃ plan, (managementRun trades routeId threadId symbol action).plan = .ok plan ∧
      plan.assembly.context = (managementSignal routeId threadId symbol action).assembly.context ∧
      plan.intents =
        if (managementIntentTargets action (((managementRun trades routeId threadId symbol action).db.activeTrades goldRoute).map
          Prod.snd) routeId threadId symbol).isEmpty then [] else
        insertable [] (managementIntents trades routeId threadId symbol action) := by
  let r := managementRun trades routeId threadId symbol action
  let view := r.db.routeView r.env.run r.conversationId r.routeId r.route
  let s := managementSignal routeId threadId symbol action
  have hplan : r.plan = .ok (planSignal r.env r.event r.conversationId r.conversation r.routeId r.route view r.alive s) := by
    cases action <;> first | rfl | cases hm
  obtain ⟨_, _, hkept⟩ := planSignal_assembly_kept r.env r.event r.conversationId r.conversation r.routeId r.route view r.alive s
  have hverdict : routeVerdict r.env r.conversation r.routeId r.route view s = .proceed (managementIntentTargets action
      ((r.db.activeTrades r.route).map Prod.snd) routeId threadId symbol) := by
    have hvolume : signalVolumeForAction s.action r.route.fixedLot.toRat s.signal.takeProfits.length r.route.takeProfitMode
        r.route.lotDistribution = 0 := by
      cases action <;> first | rfl | cases hm
    have haccepted : (validateSignal s.signal (routeExecutionPolicy r.env r.route s.policy)).accepted :=
      managementSignal_accepted trades routeId threadId symbol hm
    simp only [routeVerdict, hvolume, lt_irrefl, if_false, haccepted, Bool.not_true, Bool.false_eq_true]
    rfl
  refine ⟨_, hplan, by rw [hkept], ?_⟩
  have hbusy : s.heldBack r.routeId r.route r.alive = false := Bool.and_false _
  rw [planSignal_intents, hbusy, createdIntents, hverdict]
  have hlegs : intentLegsForAction s.action r.route.fixedLot.toRat s.signal.takeProfits r.route.takeProfitMode
      r.route.lotDistribution = [none] := by
    have hclosing : s.action.isOpening = false := by cases action <;> first | rfl | cases hm
    rw [intentLegsForAction, hclosing, if_neg Bool.false_ne_true]
  have hfree : view.intentsTaken = [] := rfl
  have hnone : view.intents = [] := rfl
  simp only [newIntents, hlegs, hfree, hnone, Bool.false_eq_true, if_false, List.not_mem_nil, not_false_eq_true, decide_true,
    List.filter_true]
  rfl

/-- No two targets are one trade. -/
theorem nodup_targets {l : List CopiedTrade} (hm : action.isTradeManagement) (h : (l.map (·.id)).Nodup) :
    (managementIntentTargets action l routeId threadId symbol).Pairwise fun a b => a.map (·.id) ≠ b.map (·.id) := by
  have hsub {p q : CopiedTrade → Bool} : (((l.filter p).filter q).insertionSort fun a b => a.createdAt ≤ b.createdAt).Pairwise
      fun a b => a.id ≠ b.id := by
    have hsublist := ((l.filter p).filter_sublist (p := q)).trans l.filter_sublist
    have hfiltered := List.pairwise_map.mp (h.sublist (hsublist.map (·.id)))
    exact ((List.perm_insertionSort _ _).pairwise_iff fun hne => hne.symm).mpr hfiltered
  simp only [managementIntentTargets, hm, Bool.not_true, Bool.false_eq_true, if_false]
  refine List.pairwise_map.mpr ?_
  simp only [Option.map_some, ne_eq, Option.some_inj]
  split <;> exact hsub

omit [Unicode] in
theorem candidates_apart {env : SignalEnv} {event : MessageEvent} {merged : Context} {revision : Nat} {conversationId : Uuid}
    {route : CopyRoute} {targets : List (Option CopiedTrade)}
    (h : targets.Pairwise fun a b => a.map (·.id) ≠ b.map (·.id)) :
    (candidateIntents env event merged action revision conversationId routeId route [none] targets).Pairwise fun a b =>
      intentsClash b a = false := by
  simp only [candidateIntents, enumerate, List.zipIdx_singleton, List.map_cons, List.map_nil, List.flatMap_cons, List.flatMap_nil,
    List.append_nil, List.map_map]
  refine List.pairwise_map.mpr (List.pairwise_iff_getElem.mpr fun i j hi hj hij => ?_)
  rw [List.length_zipIdx] at hi hj
  have hne := List.pairwise_iff_getElem.mp h i j hi hj hij
  have hij' : ¬ j = i := Nat.ne_of_gt hij
  simp only [List.getElem_zipIdx, Function.comp_apply, Nat.zero_add, intentsClash, Bool.or_eq_false_iff, decide_eq_false_iff_not,
    Uuid.intent.injEq, IntentKey.mk.injEq, ClientOrderId.mk.injEq, hij', and_false, not_false_eq_true, true_and, and_true]
  generalize targets[i] = a at hne
  generalize targets[j] = b at hne
  cases a with
  | none => cases b with
    | none => exact absurd rfl hne
    | some b => exact Sum.inl_ne_inr
  | some a => cases b with
    | none => exact Sum.inr_ne_inl
    | some b => exact fun heq => hne (congrArg some (Sum.inl.inj heq).symm)

theorem managementIntents_apart (hids : DistinctIds trades) (hm : action.isTradeManagement) :
    (managementIntents trades routeId threadId symbol action).Pairwise fun a b => intentsClash b a = false := by
  refine candidates_apart (nodup_targets hm ?_)
  rw [List.map_map]
  exact hids.sublist (List.filter_sublist.map _)

variable (threadId symbol) in
/-- Each selected trade gets an intent of its own. -/
theorem exists_intent (hids : DistinctIds trades) (hm : action.isTradeManagement) {e : Uuid × CopiedTrade}
    (he : e ∈ trades.entries) (hr : e.2.routeId = routeId) (hactive : e.2.lifecycleState.isActive)
    (hs : e.2.isSelected threadId symbol action) :
    ∃ plan, (managementRun trades routeId threadId symbol action).plan = .ok plan ∧
      plan.assembly.context.action = some action ∧ plan.assembly.context.symbol = symbol ∧
      ∃ i ∈ plan.intents, i.2.requestPayload.copiedTradeId = some e.2.id := by
  obtain ⟨plan, hplan, hcontext, hintents⟩ := managementRun_plan trades routeId threadId symbol hm
  refine ⟨plan, hplan, by rw [hcontext]; rfl, by rw [hcontext]; rfl, ?_⟩
  have hroute : (managementRun trades routeId threadId symbol action).db.routes.get? routeId = some goldRoute := by
    show (Table.add ∅ routeId goldRoute).get? routeId = _
    rw [Table.get?_add, Table.get?_empty, if_pos rfl]
    rfl
  have htarget : some e.2 ∈ managementIntentTargets action (((managementRun trades routeId threadId symbol action).db.activeTrades
      goldRoute).map Prod.snd) routeId threadId symbol :=
    (mem_managementIntentTargets hm).mpr
      ⟨e.2, List.mem_map_of_mem ((mem_activeTrades hroute hr).mpr ⟨he, hactive⟩), hr, hs, rfl⟩
  rw [if_neg (by rw [List.isEmpty_iff]; exact List.ne_nil_of_mem htarget),
    insertable_eq_self (managementIntents_apart hids hm) fun _ _ => rfl] at hintents
  rw [hintents]
  obtain ⟨j, hj, hget⟩ := List.mem_iff_getElem.mp htarget
  refine ⟨_, List.mem_flatMap.mpr ⟨(0, none), List.mem_singleton_self _, List.mem_map.mpr ⟨(j, some e.2), ?_, rfl⟩⟩, rfl⟩
  rw [enumerate, List.mem_map]
  exact ⟨(some e.2, j), List.mk_mem_zipIdx_iff_getElem?.mpr ((List.getElem?_eq_getElem hj).trans (congrArg some hget)), rfl⟩

/-- Whatever else a message finds: its intents are carried out on trades that the action is
for exactly where the trades it is about all have the lifecycle the action is for. -/
theorem managementFits_iff (hids : DistinctIds trades) (hm : action.isTradeManagement) :
    ManagementFits trades routeId threadId symbol action ↔
      ∀ e ∈ trades.entries, e.2.routeId = routeId → e.2.lifecycleState.isActive → e.2.isSelected threadId symbol action →
        action.fits e.2.lifecycleState := by
  constructor
  · intro h e he hr hactive hs
    obtain ⟨plan, hplan, ha, hsymbol, i, hi, hp⟩ := exists_intent threadId symbol hids hm he hr hactive hs
    have hroute : (managementRun trades routeId threadId symbol action).db.routes.get? routeId = some goldRoute := by
      show (Table.add ∅ routeId goldRoute).get? routeId = _
      rw [Table.get?_add, Table.get?_empty, if_pos rfl]
      rfl
    have hrow : e ∈ (managementRun trades routeId threadId symbol action).db.routeTrades routeId :=
      mem_routeTrades.2 ⟨he, hr, hactive⟩
    have hselect := selectTrade_of_id (fun a ha b hb => hids.eq (mem_routeTrades.1 ha).1 (mem_routeTrades.1 hb).1) hrow hp
    exact (h _ plan rfl rfl hroute rfl hplan ha hsymbol i hi e.1 e.2 hselect).1
  · rintro h r plan rfl rfl hroute rfl hplan ha rfl i hi key trade hselect
    obtain ⟨hrow, hs⟩ := select_of_plan hids hroute hplan ha hm hi hselect
    obtain ⟨hmem, hr, hactive⟩ := mem_routeTrades.1 hrow
    have hfits := h (key, trade) hmem hr hactive hs
    exact ⟨hfits, fun volume new hnew => confirmCopied_endsAs hm hactive hfits hnew⟩

end

/-! ## A conversation with an open and a pending leg -/

/-- Two legs of one conversation, the second one pending at the broker. -/
def mixedTrades : Table Uuid CopiedTrade :=
  (Table.add ∅ (.intent 0 4 0 0) goldTrade).add (.intent 0 4 1 0)
    { goldTrade with id := .trade 1, brokerOrderId := some "2", brokerPositionId := some "2", lifecycleState := .pending }

omit [Unicode] in
/-- Cancelling the pending orders of the conversation is carried out on the open trade too. -/
theorem cancel_of_open :
    let _ := Unicode.ascii
    ¬ ManagementFits mixedTrades 4 (.thread 0) (some "XAUUSD") .cancel_pending := by
  intro _ h
  have hids : DistinctIds mixedTrades := by
    unfold DistinctIds
    decide +kernel
  have hrow : ((.intent 0 4 0 0, goldTrade) : Uuid × CopiedTrade) ∈ mixedTrades.entries := by decide +kernel
  obtain ⟨plan, hplan, ha, hsymbol, i, hi, hp⟩ := exists_intent (.thread 0) (some "XAUUSD") hids
    (show SignalAction.cancel_pending.isTradeManagement from rfl) hrow rfl rfl rfl
  have hmem : ((.intent 0 4 0 0, goldTrade) : Uuid × CopiedTrade) ∈
      (managementRun mixedTrades 4 (.thread 0) (some "XAUUSD") .cancel_pending).db.routeTrades 4 :=
    mem_routeTrades.2 ⟨hrow, rfl, rfl⟩
  have hselect := selectTrade_of_id (fun a ha b hb => hids.eq (mem_routeTrades.1 ha).1 (mem_routeTrades.1 hb).1) hmem hp
  have hfits := (h _ plan rfl rfl (by decide +kernel) rfl hplan ha hsymbol i hi _ _ hselect).1
  cases hfits

omit [Unicode] in
/-- A conversation whose trades are all pending. -/
theorem managementFits_iff_pending :
    let _ := Unicode.ascii
    let trades : Table Uuid CopiedTrade := .add ∅ (.intent 0 4 0 0) { goldTrade with lifecycleState := .pending }
    DistinctIds trades ∧ SignalAction.cancel_pending.isTradeManagement ∧
      (ManagementFits trades 4 (.thread 0) (some "XAUUSD") .cancel_pending ↔
        ∀ e ∈ trades.entries, e.2.routeId = 4 → e.2.lifecycleState.isActive →
          e.2.isSelected (.thread 0) (some "XAUUSD") .cancel_pending → SignalAction.cancel_pending.fits e.2.lifecycleState) := by
  intro _ trades
  have hids : DistinctIds trades := by
    unfold DistinctIds
    decide +kernel
  exact ⟨hids, rfl, managementFits_iff hids rfl⟩

end SignalSync
