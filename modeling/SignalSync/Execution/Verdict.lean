import SignalSync.Execution.Outcome
import SignalSync.Execution.Protection

/-!
# Verdicts

`reconcile_intent` looks for an order, a position or a deal with the client id of an
uncertain intent, whatever the intent asked for. An opening and a close are sent with
that id, a new protection and a cancellation are not (`runAction_clientId`): what they
leave at the broker is only seen on the trade they are about.

* `intentAfter_eq`: what a run makes of an uncertain intent;
* `verdict_right_iff`: the verdicts are right iff whatever shows on the targeted trade
  shows under the client id as well.
-/

namespace SignalSync

open Library

/-! ## The terminal -/

/-- An order or a deal, with the ids under `clientId` and under `client_id`. -/
structure TerminalItem where
  id : Option String := none
  clientId : Option ClientOrderId := none
  legacyClientId : Option ClientOrderId := none

structure TerminalPosition extends BrokerPosition where
  legacyClientId : Option ClientOrderId := none

/-- `terminal_state` and the deals of `history_storage`. -/
structure TerminalState where
  positions : List TerminalPosition := []
  orders : List TerminalItem := []
  deals : List TerminalItem := []

namespace TerminalItem

def hasClientId (item : TerminalItem) (clientId : ClientOrderId) : Bool :=
  item.clientId = some clientId || item.legacyClientId = some clientId

end TerminalItem

namespace TerminalState

def findOrder (terminal : TerminalState) (clientId : ClientOrderId) : Option TerminalItem :=
  terminal.orders.find? (·.hasClientId clientId)

def findPosition (terminal : TerminalState) (clientId : ClientOrderId) : Option TerminalPosition :=
  terminal.positions.find? fun item => item.clientId = some clientId || item.legacyClientId = some clientId

def findDeal (terminal : TerminalState) (clientId : ClientOrderId) : Option TerminalItem :=
  terminal.deals.find? (·.hasClientId clientId)

/-- `order or position or deal`. -/
def shows (terminal : TerminalState) (clientId : ClientOrderId) : Bool :=
  (terminal.findOrder clientId).isSome || (terminal.findPosition clientId).isSome || (terminal.findDeal clientId).isSome

/-- What an instruction about a copied trade leaves on it: a position with the levels
that are asked for, no position, no order. -/
def showsOnTarget (terminal : TerminalState) (payload : Payload) (copied : Option CopiedTrade) : Bool :=
  match payload.context.action, copied with
  | some .modify_sl_tp, some trade | some .break_even, some trade =>
    terminal.positions.any fun position =>
      pyStr position.id = trade.brokerPositionId.getD "" &&
        payload.stopLevel.all (fun level => position.stopLoss = some level.toRat) &&
        payload.takeProfit.all (fun level => position.takeProfit = some level.toRat)
  | some .full_close, some trade =>
    !terminal.positions.any fun position => pyStr position.id = trade.brokerPositionId.getD ""
  | some .cancel_pending, some trade => !terminal.orders.any fun order => pyStr order.id = trade.brokerOrderId.getD ""
  | _, _ => false

/-- The broker has carried the instruction out. -/
def carriedOut (terminal : TerminalState) (intent : TradeIntent) (copied : Option CopiedTrade) : Bool :=
  terminal.shows intent.clientOrderId || terminal.showsOnTarget intent.requestPayload copied

end TerminalState

/-- The client id in the options of a call. -/
def BrokerCall.clientId : BrokerCall → Option ClientOrderId
  | .marketOrder _ _ _ _ _ clientId | .pendingOrder _ _ _ _ _ _ _ clientId | .closePosition _ _ clientId => some clientId
  | .modifyPosition .. | .cancelOrder _ => none

/-- Instructions whose calls leave a client id behind. -/
def SignalAction.leavesClientId : SignalAction → Bool
  | .open_market | .place_pending | .additional_tp | .partial_close | .full_close => true
  | _ => false

variable [Unicode]

/-- An instruction is sent with the intent's client id iff it leaves one. -/
theorem runAction_clientId {route : CopyRoute} {clientId : ClientOrderId} {payload : Payload} {action : SignalAction}
    {copied : Option CopiedTrade} {selected : Option BrokerSymbol} {call : BrokerCall} {volume : Option ℚ}
    (h : runAction route clientId payload action copied selected = .ok (call, volume)) :
    call.clientId = if action.leavesClientId then some clientId else none := by
  cases action with
  | open_market | place_pending | additional_tp =>
    obtain ⟨_, _, -, -, -, rfl | ⟨_, _, rfl⟩⟩ := runAction_opening h rfl <;> rfl
  | partial_close =>
    simp only [runAction] at h
    split at h
    · cases h
    · split at h
      · cases h
      · cases h
        rfl
  | modify_sl_tp | break_even | full_close | cancel_pending =>
    simp only [runAction] at h
    split at h
    · cases h
    · cases h
      rfl
  | status_only =>
    simp only [runAction] at h
    split at h <;> cases h

/-! ## One run -/

/-- The rest of a run by itself, told these labels in turn. -/
def runAlone (settings : ExecutionSettings) (run : Nat) (now : Time) (lockFree : Option Uuid → Bool) :
    List HandlerLabel → HandlerStep → HandlerStep
  | [], h => h
  | label :: labels, h =>
    match h.stage with
    | .handle phase =>
      match handlerStep settings run now lockFree h.db phase label with
      | some h' => runAlone settings run now lockFree labels h'
      | none => h
    | _ => h

/-- A run of `reconcile_intent`: its time, the accounts as they are then, and what the
terminal shows or the exception of reaching it. -/
structure ReconcileRun where
  now : Time
  connections : Table Uuid CopyTradingConnection
  terminal : Except PyException TerminalState

/-- `reconcile_intent` on an intent, from its first query to its last commit. -/
def reconcileIntent (settings : ExecutionSettings) (id : Uuid) (db : Database) (r : ReconcileRun) : Database :=
  let found := r.terminal.map fun terminal => (db.intents.get? id).any fun intent => terminal.shows intent.clientOrderId
  (runAlone settings 0 r.now (fun _ => true) [.reconcile, .mark, .find found, .conclude]
    { db := { db with connections := r.connections }, stage := .handle (.reconcile id) }).db

/-- The account of an intent can be reached. -/
def ReconcileRun.hasAccount (r : ReconcileRun) (intent : TradeIntent) : Bool :=
  ((intent.connectionId.bind r.connections.get?).bind fun c => c.metaapiAccountId.filter (· ≠ "")).isSome

/-- The row of an intent after a run. -/
def intentAfter (settings : ExecutionSettings) (r : ReconcileRun) (intent : TradeIntent) : TradeIntent :=
  if !intent.state.isUnresolved || !r.hasAccount intent then intent
  else match r.terminal with
    | .error _ => { intent with state := .reconciling }
    | .ok terminal =>
      if terminal.shows intent.clientOrderId then { intent with state := .confirmed }
      else if uncertainIntentExpired settings r.now intent then
        { intent with state := .failed, lastErrorCode := some "BROKER_CONFIRMATION_TIMEOUT" }
      else { intent with state := .uncertain }

section

variable {settings : ExecutionSettings} {db : Database} {id : Uuid} {intent : TradeIntent} {r : ReconcileRun}

omit [Unicode] in
/-- A row that is written back over itself takes the new columns. -/
theorem get?_writeIntent_self (h : db.intents.get? id = some intent) (state : TradeIntentState) (code : Option String) :
    (db.writeIntent id intent { intent with state := state, lastErrorCode := code }).intents.get? id =
      some { intent with state := state, lastErrorCode := code } := by
  rw [Database.writeIntent, Table.get?_modify_self, h, Option.map_some, TradeIntent.writeBack]
  simp only [writeBack_self]

/-- The row after a run. -/
theorem intentAfter_eq (h : db.intents.get? id = some intent) :
    (reconcileIntent settings id db r).intents.get? id = some (intentAfter settings r intent) := by
  have hmark := get?_writeIntent_self (show ({ db with connections := r.connections } : Database).intents.get? id = some intent from h)
    .reconciling intent.lastErrorCode
  unfold reconcileIntent intentAfter
  simp only [runAlone, handlerStep, reconcileStep, h]
  by_cases hu : intent.state.isUnresolved
  · by_cases ha : r.hasAccount intent
    · have hn : ((intent.connectionId.bind r.connections.get?).bind fun c => c.metaapiAccountId.filter (· ≠ "")).isNone = false := by
        rw [← Option.not_isSome, ← ReconcileRun.hasAccount, ha, Bool.not_true]
      simp only [hu, ha, hn, HandlerStep.goto, Bool.not_true, Bool.or_self, Bool.false_eq_true, if_false, markStep]
      cases r.terminal with
      | error e => exact hmark
      | ok terminal =>
        simp only [Except.map, findStep, hmark, Option.map_some, Option.any_some, HandlerStep.goto, concludeStep, HandlerStep.finish]
        have hexpired : uncertainIntentExpired settings r.now { intent with state := .reconciling } =
          uncertainIntentExpired settings r.now intent := rfl
        rw [hexpired]
        split
        · exact get?_writeIntent_self hmark .confirmed intent.lastErrorCode
        · split
          · exact get?_writeIntent_self hmark .failed _
          · exact get?_writeIntent_self hmark .uncertain intent.lastErrorCode
    · have hn : ((intent.connectionId.bind r.connections.get?).bind fun c => c.metaapiAccountId.filter (· ≠ "")).isNone = true := by
        rw [← Option.not_isSome, ← ReconcileRun.hasAccount, Bool.not_eq_true _ |>.mp ha, Bool.not_false]
      simp only [hu, ha, hn, HandlerStep.finish, Bool.not_true, Bool.not_false, Bool.or_true, Bool.false_eq_true, if_false, if_true, h]
  · simp only [hu, HandlerStep.finish, Bool.not_false, Bool.true_or, if_true, h]

omit [Unicode] in
/-- A run changes nothing that a verdict is about. -/
theorem intentAfter_keeps : (intentAfter settings r intent).clientOrderId = intent.clientOrderId ∧
    (intentAfter settings r intent).requestPayload = intent.requestPayload := by
  unfold intentAfter
  split
  · exact ⟨rfl, rfl⟩
  · split
    · exact ⟨rfl, rfl⟩
    · split
      · exact ⟨rfl, rfl⟩
      · split <;> exact ⟨rfl, rfl⟩

omit [Unicode] in
/-- A run fails an intent only if the terminal shows nothing under its client id. -/
theorem intentAfter_failed (hs : intent.state ≠ .failed) (hf : (intentAfter settings r intent).state = .failed) :
    ∃ terminal, r.terminal = .ok terminal ∧ terminal.shows intent.clientOrderId = false := by
  unfold intentAfter at hf
  split at hf
  · exact absurd hf hs
  · split at hf
    · cases hf
    · rename_i terminal ht
      split at hf
      · cases hf
      · rename_i hn
        exact ⟨terminal, ht, by simpa using hn⟩

omit [Unicode] in
/-- It confirms one only if the terminal shows something. -/
theorem intentAfter_confirmed (hs : intent.state ≠ .confirmed) (hf : (intentAfter settings r intent).state = .confirmed) :
    ∃ terminal, r.terminal = .ok terminal ∧ terminal.shows intent.clientOrderId := by
  unfold intentAfter at hf
  split at hf
  · exact absurd hf hs
  · split at hf
    · cases hf
    · rename_i terminal ht
      split at hf
      · rename_i hy
        exact ⟨terminal, ht, hy⟩
      · split at hf <;> cases hf

/-! ## Any number of runs -/

/-- The row after runs in turn. -/
def intentAfterAll (settings : ExecutionSettings) (runs : List ReconcileRun) (intent : TradeIntent) : TradeIntent :=
  runs.foldl (fun intent r => intentAfter settings r intent) intent

theorem intentAfterAll_eq {runs : List ReconcileRun} (h : db.intents.get? id = some intent) :
    (runs.foldl (reconcileIntent settings id) db).intents.get? id = some (intentAfterAll settings runs intent) := by
  induction runs generalizing db intent with
  | nil => exact h
  | cons r runs ih => exact ih (intentAfter_eq h)

omit [Unicode] in
/-- A run that reaches a state other than the first has a step that does. -/
theorem intentAfterAll_reaches {runs : List ReconcileRun} {state : TradeIntentState} (hs : intent.state ≠ state)
    (hf : (intentAfterAll settings runs intent).state = state) :
    ∃ r ∈ runs, ∃ i, i.clientOrderId = intent.clientOrderId ∧ i.requestPayload = intent.requestPayload ∧ i.state ≠ state ∧
      (intentAfter settings r i).state = state := by
  induction runs generalizing intent with
  | nil => exact absurd hf hs
  | cons r runs ih =>
    by_cases hr : (intentAfter settings r intent).state = state
    · exact ⟨r, List.mem_cons_self, intent, rfl, rfl, hs, hr⟩
    · obtain ⟨r', hm, i, hc, hp, hi⟩ := ih hr hf
      exact ⟨r', List.mem_cons_of_mem _ hm, i, hc.trans intentAfter_keeps.1, hp.trans intentAfter_keeps.2, hi⟩

/-! ## The verdicts -/

/-- A submitted intent whose outcome is not known. -/
structure Database.Uncertain (db : Database) (id : Uuid) (intent : TradeIntent) : Prop where
  stored : db.intents.get? id = some intent
  unresolved : intent.state.isUnresolved
  connection : intent.connectionId.isSome

/-- Over these runs the intent does not fail if the broker has carried it out, and is
not confirmed if it has not. -/
structure VerdictRight (settings : ExecutionSettings) (db : Database) (id : Uuid) (intent : TradeIntent)
    (copied : Option CopiedTrade) (runs : List ReconcileRun) : Prop where
  carriedOut : (∀ r ∈ runs, ∀ terminal, r.terminal = .ok terminal → terminal.carriedOut intent copied) →
    (runs.foldl (reconcileIntent settings id) db).intentState id ≠ some .failed
  notCarriedOut : (∀ r ∈ runs, ∀ terminal, r.terminal = .ok terminal → ¬ terminal.carriedOut intent copied) →
    (runs.foldl (reconcileIntent settings id) db).intentState id ≠ some .confirmed

/-- The verdicts on an intent are right, whichever of these terminal states are read
and when, iff what shows on the targeted trade shows under the client id as well. -/
theorem verdict_right_iff (settings : ExecutionSettings) (hu : db.Uncertain id intent) (copied : Option CopiedTrade)
    (seen : TerminalState → Prop) :
    (∀ runs : List ReconcileRun, (∀ r ∈ runs, ∀ terminal, r.terminal = .ok terminal → seen terminal) →
      VerdictRight settings db id intent copied runs) ↔
      ∀ terminal, seen terminal → terminal.showsOnTarget intent.requestPayload copied → terminal.shows intent.clientOrderId := by
  have hstate (runs : List ReconcileRun) : (runs.foldl (reconcileIntent settings id) db).intentState id =
      some (intentAfterAll settings runs intent).state := by
    rw [Database.intentState, intentAfterAll_eq hu.stored]
    rfl
  have hne {state : TradeIntentState} (hs : state.isFinal) : intent.state ≠ state := by
    rintro rfl
    rw [TradeIntentState.not_final_of_unresolved hu.unresolved] at hs
    cases hs
  constructor
  · intro hright terminal hseen htarget
    by_contra hshows
    obtain ⟨connectionId, hc⟩ := Option.isSome_iff_exists.mp hu.connection
    -- one run past the deadline, with the account at hand
    let r : ReconcileRun :=
      { now := intent.createdAt + seconds settings.uncertainMaxAgeSeconds
        connections := .add ∅ connectionId { metaapiAccountId := some "account", state := .ready }, terminal := .ok terminal }
    have hread : ∀ r' ∈ [r], ∀ t, r'.terminal = .ok t → t = terminal := by
      intro r' hr t ht
      cases List.mem_singleton.mp hr
      cases ht
      rfl
    refine (hright [r] fun r' hr t ht => hread r' hr t ht ▸ hseen).carriedOut (fun r' hr t ht => ?_) ?_
    · rw [hread r' hr t ht, TerminalState.carriedOut, htarget, Bool.or_true]
    · have haccount : r.hasAccount intent := by
        simp [ReconcileRun.hasAccount, hc, r, Table.get?_add]
      have hexpired : uncertainIntentExpired settings r.now intent := by
        simp [uncertainIntentExpired, r]
      rw [hstate]
      simp [intentAfterAll, intentAfter, hu.unresolved, haccount, hexpired, hshows, r]
  · intro hcond runs hseen
    constructor
    · intro hall hf
      rw [hstate, Option.some.injEq] at hf
      obtain ⟨r, hr, i, hc, -, hi, hfail⟩ := intentAfterAll_reaches (hne rfl) hf
      obtain ⟨terminal, ht, hno⟩ := intentAfter_failed hi hfail
      rw [hc] at hno
      have hout := hall r hr terminal ht
      rw [TerminalState.carriedOut, hno, Bool.false_or] at hout
      rw [hcond terminal (hseen r hr terminal ht) hout] at hno
      cases hno
    · intro hall hf
      rw [hstate, Option.some.injEq] at hf
      obtain ⟨r, hr, i, hc, -, hi, hconf⟩ := intentAfterAll_reaches (hne rfl) hf
      obtain ⟨terminal, ht, hyes⟩ := intentAfter_confirmed hi hconf
      rw [hc] at hyes
      exact hall r hr terminal ht (by rw [TerminalState.carriedOut, hyes, Bool.true_or])

end

/-! ## A moved stop -/

/-- `SL 2395` for `goldTrade`; the broker's answer was lost. -/
def goldMove : TradeIntent :=
  { World.goldIntent with
    idempotencyKey := { World.goldIntent.idempotencyKey with messageId := 12, action := .modify_sl_tp, target := .inl (.trade 0) }
    clientOrderId := ⟨4, 13⟩
    state := .uncertain
    requestPayload :=
      { context := { buyGold.modelDump with action := some .modify_sl_tp, stopLoss := some 2395 }, volume := none
        takeProfit := some 2410, conversationId := 0, copiedTradeId := some (.trade 0) } }

def goldMoved : Database := { World.goldAccount with intents := .add ∅ 13 goldMove }

/-- The position of `goldTrade` with the new stop, under the client id of its opening. -/
def goldPosition : TerminalState where
  positions :=
    [{ id := some "1", volume := some (1 / 100), stopLoss := some 2395, takeProfit := some 2410, clientId := some ⟨4, 12⟩ }]

omit [Unicode] in
theorem verdict_right_iff_goldMove :
    let _ := Unicode.ascii
    (∀ runs : List ReconcileRun, (∀ r ∈ runs, ∀ terminal, r.terminal = .ok terminal → terminal = goldPosition) →
      VerdictRight {} goldMoved 13 goldMove (some goldTrade) runs) ↔
      ∀ terminal, terminal = goldPosition → terminal.showsOnTarget goldMove.requestPayload (some goldTrade) →
        terminal.shows goldMove.clientOrderId :=
  let _ := Unicode.ascii
  verdict_right_iff {} ⟨by decide +kernel, rfl, rfl⟩ (some goldTrade) (· = goldPosition)

omit [Unicode] in
/-- The stop is moved, nothing carries the client id of the update, and the update has
failed when its time is over. -/
theorem movedStop_fails :
    let _ := Unicode.ascii
    let r : ReconcileRun := { now := seconds 500, connections := World.goldAccount.connections, terminal := .ok goldPosition }
    goldMoved.Uncertain 13 goldMove ∧ goldPosition.carriedOut goldMove (some goldTrade) ∧
      ¬ goldPosition.shows goldMove.clientOrderId ∧
      (reconcileIntent {} 13 goldMoved r).intentState 13 = some .failed ∧
      ¬ VerdictRight {} goldMoved 13 goldMove (some goldTrade) [r] := by
  intro _ r
  have hout : goldPosition.carriedOut goldMove (some goldTrade) := by decide +kernel
  have hfailed : (reconcileIntent {} 13 goldMoved r).intentState 13 = some .failed := by decide +kernel
  refine ⟨⟨by decide +kernel, rfl, rfl⟩, hout, by decide +kernel, hfailed, fun h => h.carriedOut (fun r' hr t ht => ?_) hfailed⟩
  cases List.mem_singleton.mp hr
  cases ht
  exact hout

end SignalSync
