import SignalSync.Execution.Reconciliation
import SignalSync.Signal.Edits
import Mathlib.Data.List.Find

/-!
# What counts as carried out

`broker_result_matches_intent` tells from what a broker lists whether an intent
was carried out, and `_reconciliation_accepts` does for an intent without client
order id, with the keys of the older broker rows. For a protection update both
look for the trade's position and compare its levels with those they expect.

* `matches_levels`: the verdict on a protection update is one comparison with the
  trade's position;
* `reconciliationAccepts_legacy`: on rows in the older keys the two agree;
* `levelsAgree_iff`: the verdict is that of the levels `_run_action` submits, and
  the same from both, iff the intent carries a client order id and the payload
  does not send its entry for a stop loss it lacks.
-/

namespace SignalSync

open Library

/-! ## What a broker lists -/

/-- A value under a key of a row that is not `None`: a finite number, or
anything else. -/
inductive BrokerValue
  | number (value : ℚ)
  | unreadable
deriving DecidableEq

/-- A position, order or deal, with the ids as `str` writes them. -/
structure BrokerItem where
  id : Option String := none
  ticket : Option String := none
  stopLoss : Option BrokerValue := none
  sl : Option BrokerValue := none
  takeProfit : Option BrokerValue := none
  tp : Option BrokerValue := none
  timeMsc : Option ℚ := none
  timeSetupMsc : Option ℚ := none
  timeDoneMsc : Option ℚ := none
  time : Option ℚ := none
  timeSetup : Option ℚ := none
  timeDone : Option ℚ := none
deriving DecidableEq

structure BrokerData where
  clientOrderId : Option ClientOrderId := none
  positions : List BrokerItem := []
  orders : List BrokerItem := []
  historyOrders : List BrokerItem := []
  deals : List BrokerItem := []

/-- The columns of an intent the matchers read. -/
structure SubmittedIntent where
  clientOrderId : Option ClientOrderId
  requestPayload : Payload
  submittedAt : Option ℚ := none

/-- `_safe_decimal`. -/
def safeDecimal : Option BrokerValue → Option ℚ
  | some (.number value) => some value
  | some .unreadable | none => none

/-- `_decimal_matches`, with an expected level that is a finite decimal. -/
def decimalMatches (actual : Option BrokerValue) (expected : Decimal) : Bool := safeDecimal actual = some expected.toRat

namespace BrokerItem

/-- `_broker_id`. -/
def brokerId (item : BrokerItem) : Option String := item.id <|> item.ticket

/-- `_broker_value(item, "stopLoss", "sl")`. -/
def stopLossValue (item : BrokerItem) : Option BrokerValue := item.stopLoss <|> item.sl

/-- `_broker_value(item, "takeProfit", "tp")`. -/
def takeProfitValue (item : BrokerItem) : Option BrokerValue := item.takeProfit <|> item.tp

/-- `_broker_timestamp`. -/
def timestamp (item : BrokerItem) : Option ℚ :=
  match [item.timeMsc, item.timeSetupMsc, item.timeDoneMsc].findSome? (·.filter (· ≠ 0)) with
  | some value => some (value / 1000)
  | none => [item.time, item.timeSetup, item.timeDone].findSome? (·.filter (· ≠ 0))

/-- The row holds none of the keys of the broker's own interface. -/
def Legacy (item : BrokerItem) : Prop := item.id = none ∧ item.stopLoss = none ∧ item.takeProfit = none

end BrokerItem

/-! ## The two matchers -/

/-- `payload.get("stop_loss") or (payload.get("entry") if action == break_even else None)`. -/
def Payload.expectedStopLoss (payload : Payload) : Option Decimal :=
  payload.context.stopLoss <|> (if payload.context.action = some .break_even then payload.context.entry else none)

/-- `expected is None or _decimal_matches(actual, expected)`. -/
def levelMatches (actual : Option BrokerValue) (expected : Option Decimal) : Bool := expected.all (decimalMatches actual)

/-- `str(value or "")`. -/
def textOrEmpty (value : Option String) : String := value.getD ""

/-- `broker_result_matches_intent`. -/
def brokerResultMatchesIntent (intent : SubmittedIntent) (data : BrokerData) (copied : Option CopiedTrade) : Bool :=
  if intent.clientOrderId.isSome && data.clientOrderId ≠ intent.clientOrderId then false
  else
    match intent.requestPayload.context.action, copied with
    | some .open_market, _ | some .place_pending, _ | some .additional_tp, _ =>
      !(data.positions ++ data.orders ++ data.historyOrders ++ data.deals).isEmpty
    | _, none => false
    | some .modify_sl_tp, some trade | some .break_even, some trade =>
      match data.positions.find? (pyStr ·.brokerId = textOrEmpty trade.brokerPositionId) with
      | none => false
      | some position =>
        levelMatches position.stopLossValue intent.requestPayload.expectedStopLoss &&
          levelMatches position.takeProfitValue intent.requestPayload.takeProfit
    | some .full_close, some trade => !data.positions.any (pyStr ·.brokerId = textOrEmpty trade.brokerPositionId)
    | some .cancel_pending, some trade => !data.orders.any (pyStr ·.brokerId = textOrEmpty trade.brokerOrderId)
    | some .partial_close, some _ => !data.deals.isEmpty
    | _, some _ => false

/-- `fresh`, of `_reconciliation_accepts`: a row from after the submission, less five seconds. -/
def freshItems (submittedAt : Option ℚ) (items : List BrokerItem) : Bool :=
  match submittedAt with
  | none => !items.isEmpty
  | some submittedAt => items.any fun item => item.timestamp.any (submittedAt - 5 ≤ ·)

/-- `_reconciliation_accepts`. -/
def reconciliationAccepts (intent : SubmittedIntent) (data : BrokerData) (copied : Option CopiedTrade) : Bool :=
  if intent.clientOrderId.isSome then brokerResultMatchesIntent intent data copied
  else
    match intent.requestPayload.context.action, copied with
    | some .open_market, _ | some .place_pending, _ | some .additional_tp, _ =>
      freshItems intent.submittedAt (data.positions ++ data.orders ++ data.historyOrders ++ data.deals)
    | _, none => false
    | some .modify_sl_tp, some trade | some .break_even, some trade =>
      match data.positions.find? (pyStr ·.ticket = textOrEmpty trade.brokerPositionId) with
      | none => false
      | some position =>
        levelMatches position.sl intent.requestPayload.expectedStopLoss &&
          levelMatches position.tp intent.requestPayload.takeProfit
    | some .full_close, some trade => !data.positions.any (pyStr ·.ticket = textOrEmpty trade.brokerPositionId)
    | some .cancel_pending, some trade => !data.orders.any (pyStr ·.ticket = textOrEmpty trade.brokerOrderId)
    | some .partial_close, some _ => freshItems intent.submittedAt data.deals
    | _, some _ => false

/-! ## Protection updates -/

/-- The update of a trade's levels: a new stop loss or take profit, or a move to
break even. -/
def Payload.Protects (payload : Payload) (action : SignalAction) : Prop :=
  payload.context.action = some action ∧ (action = .modify_sl_tp ∨ action = .break_even)

namespace BrokerData

/-- The position of a trade. -/
def positionOf (data : BrokerData) (trade : CopiedTrade) : Option BrokerItem :=
  data.positions.find? (pyStr ·.brokerId = textOrEmpty trade.brokerPositionId)

/-- The position `_reconciliation_accepts` takes for the trade's. -/
def ticketOf (data : BrokerData) (trade : CopiedTrade) : Option BrokerItem :=
  data.positions.find? (pyStr ·.ticket = textOrEmpty trade.brokerPositionId)

end BrokerData

section

variable {intent : SubmittedIntent} {action : SignalAction} {data : BrokerData} {trade : CopiedTrade}

/-- The verdict on a protection update compares its levels with the trade's position. -/
theorem matches_levels (h : intent.requestPayload.Protects action) :
    brokerResultMatchesIntent intent data (some trade) =
      (!(intent.clientOrderId.isSome && data.clientOrderId ≠ intent.clientOrderId) &&
        (data.positionOf trade).any fun position =>
          levelMatches position.stopLossValue intent.requestPayload.expectedStopLoss &&
            levelMatches position.takeProfitValue intent.requestPayload.takeProfit) := by
  unfold brokerResultMatchesIntent BrokerData.positionOf
  split
  · next hid => rw [hid, Bool.not_true, Bool.false_and]
  · next hid =>
    rw [Bool.eq_false_of_not_eq_true hid, Bool.not_false, Bool.true_and]
    rcases h with ⟨ha, rfl | rfl⟩ <;> simp only [ha] <;> split <;> next hp => simp only [hp, Option.any_none, Option.any_some]

theorem reconciliationAccepts_levels (h : intent.requestPayload.Protects action) (hid : intent.clientOrderId = none) :
    reconciliationAccepts intent data (some trade) =
      (data.ticketOf trade).any fun position =>
        levelMatches position.sl intent.requestPayload.expectedStopLoss &&
          levelMatches position.tp intent.requestPayload.takeProfit := by
  unfold reconciliationAccepts BrokerData.ticketOf
  rw [hid, Option.isSome_none, if_neg Bool.false_ne_true]
  rcases h with ⟨ha, rfl | rfl⟩ <;> simp only [ha] <;> split <;> next hp => simp only [hp, Option.any_none, Option.any_some]

/-- An intent with a client order id gets one verdict from both. -/
theorem reconciliationAccepts_of_clientOrderId (hid : intent.clientOrderId.isSome) (copied : Option CopiedTrade) :
    reconciliationAccepts intent data copied = brokerResultMatchesIntent intent data copied := by
  unfold reconciliationAccepts
  exact if_pos hid

namespace BrokerItem.Legacy

variable {item : BrokerItem}

theorem brokerId_eq (h : item.Legacy) : item.brokerId = item.ticket := by
  rw [brokerId, h.1]
  rfl

theorem stopLossValue_eq (h : item.Legacy) : item.stopLossValue = item.sl := by
  rw [stopLossValue, h.2.1]
  rfl

theorem takeProfitValue_eq (h : item.Legacy) : item.takeProfitValue = item.tp := by
  rw [takeProfitValue, h.2.2]
  rfl

end BrokerItem.Legacy

/-- On rows in the older keys the two give one verdict on a protection update. -/
theorem reconciliationAccepts_legacy (h : intent.requestPayload.Protects action)
    (hrows : ∀ position ∈ data.positions, position.Legacy) :
    reconciliationAccepts intent data (some trade) = brokerResultMatchesIntent intent data (some trade) := by
  cases hid : intent.clientOrderId with
  | some id => exact reconciliationAccepts_of_clientOrderId (by rw [hid, Option.isSome_some]) _
  | none =>
    have hsame : data.ticketOf trade = data.positionOf trade := by
      unfold BrokerData.ticketOf BrokerData.positionOf
      refine List.find?_congr fun position hmem => ?_
      rw [(hrows position hmem).brokerId_eq]
    rw [reconciliationAccepts_levels h hid, matches_levels h, hid, hsame, Option.isSome_none, Bool.false_and, Bool.not_false,
      Bool.true_and]
    cases hp : data.positionOf trade with
    | none => rfl
    | some position =>
      have hrow := hrows position (List.mem_of_find?_eq_some hp)
      rw [Option.any_some, Option.any_some, hrow.stopLossValue_eq, hrow.takeProfitValue_eq]

end

/-! ## The levels submitted -/

/-- The position holds the levels, and no level where none is given. -/
def BrokerItem.Holds (position : BrokerItem) (stopLoss takeProfit : Option Decimal) : Prop :=
  safeDecimal position.stopLossValue = stopLoss.map Decimal.toRat ∧
    safeDecimal position.takeProfitValue = takeProfit.map Decimal.toRat

/-- The payload sends no entry for a stop loss it lacks, or it lets the take profit be. -/
def Payload.KeepsEntry (payload : Payload) (action : SignalAction) : Prop :=
  action = .break_even ∨ payload.context.stopLoss.isSome ∨ payload.context.entry = none ∨ payload.takeProfit = none

/-- Whatever a broker lists, the trade's position is accepted with the levels
submitted, in an answer for the intent; with two levels submitted it is accepted
with no others; and `_reconciliation_accepts` gives the same verdict. -/
def LevelsAgree [Unicode] (route : CopyRoute) (clientId : ClientOrderId) (selected : Option BrokerSymbol)
    (intent : SubmittedIntent) (action : SignalAction) (trade : CopiedTrade) : Prop :=
  ∃ positionId stopLoss takeProfit,
    runAction route clientId intent.requestPayload action (some trade) selected =
      .ok (.modifyPosition positionId stopLoss takeProfit, none) ∧
    ∀ data : BrokerData,
      (∀ position, data.positionOf trade = some position → position.Holds stopLoss takeProfit →
        data.clientOrderId = intent.clientOrderId → brokerResultMatchesIntent intent data (some trade)) ∧
      (stopLoss.isSome → takeProfit.isSome → brokerResultMatchesIntent intent data (some trade) →
        ∃ position, data.positionOf trade = some position ∧ position.Holds stopLoss takeProfit) ∧
      reconciliationAccepts intent data (some trade) = brokerResultMatchesIntent intent data (some trade)

section

variable {payload : Payload} {action : SignalAction}

theorem levelMatches_of_eq {actual : Option BrokerValue} {expected : Option Decimal}
    (h : safeDecimal actual = expected.map Decimal.toRat) : levelMatches actual expected := by
  cases expected with
  | none => rfl
  | some level => exact decide_eq_true h

theorem safeDecimal_of_levelMatches {actual : Option BrokerValue} {level : Decimal} (h : levelMatches actual (some level)) :
    safeDecimal actual = some level.toRat :=
  of_decide_eq_true h

/-- A value that reads as an expected level. -/
theorem exists_levelMatches (expected : Option Decimal) : ∃ actual, levelMatches actual expected :=
  ⟨expected.map fun level => .number level.toRat, levelMatches_of_eq (by cases expected <;> rfl)⟩

/-- The level expected is the one submitted, unless that is the entry of an update
without stop loss. -/
theorem expectedStopLoss_cases (h : payload.Protects action) :
    payload.expectedStopLoss = payload.stopLevel ∨
      payload.expectedStopLoss = none ∧ action = .modify_sl_tp ∧ payload.context.stopLoss = none ∧ payload.context.entry.isSome := by
  unfold Payload.expectedStopLoss Payload.stopLevel
  cases hs : payload.context.stopLoss with
  | some level => exact .inl rfl
  | none =>
    rcases h with ⟨ha, rfl | rfl⟩
    · cases he : payload.context.entry with
      | none =>
        left
        simp only [ite_self]
      | some entry =>
        right
        exact ⟨by rw [ha]; rfl, rfl, rfl, rfl⟩
    · left
      rw [ha, if_pos rfl]

end

section

variable {intent : SubmittedIntent} {action : SignalAction} {data : BrokerData} {trade : CopiedTrade} {position : BrokerItem}

/-- A position with the levels submitted is accepted. -/
theorem matches_of_holds (h : intent.requestPayload.Protects action) (hp : data.positionOf trade = some position)
    (hholds : position.Holds intent.requestPayload.stopLevel intent.requestPayload.takeProfit)
    (hid : data.clientOrderId = intent.clientOrderId) : brokerResultMatchesIntent intent data (some trade) := by
  have hstop : levelMatches position.stopLossValue intent.requestPayload.expectedStopLoss := by
    rcases expectedStopLoss_cases h with he | ⟨he, -⟩ <;> rw [he]
    · exact levelMatches_of_eq hholds.1
    · rfl
  rw [matches_levels h, hp, hid, Option.any_some, hstop, levelMatches_of_eq hholds.2]
  simp only [ne_eq, not_true_eq_false, decide_false, Bool.and_false, Bool.not_false, Bool.and_self]

/-- Where the payload keeps its entry, a position accepted for two levels holds these. -/
theorem holds_of_matches (h : intent.requestPayload.Protects action) (hkeeps : intent.requestPayload.KeepsEntry action)
    (hstop : intent.requestPayload.stopLevel.isSome) (htake : intent.requestPayload.takeProfit.isSome)
    (hmatch : brokerResultMatchesIntent intent data (some trade)) :
    ∃ position, data.positionOf trade = some position ∧
      position.Holds intent.requestPayload.stopLevel intent.requestPayload.takeProfit := by
  have hexpected : intent.requestPayload.expectedStopLoss = intent.requestPayload.stopLevel := by
    rcases expectedStopLoss_cases h with he | ⟨-, rfl, hnone, hentry⟩
    · exact he
    · rcases hkeeps with hk | hk | hk | hk
      · cases hk
      · rw [hnone] at hk
        cases hk
      · rw [hk] at hentry
        cases hentry
      · rw [hk] at htake
        cases htake
  obtain ⟨stop, hs⟩ := Option.isSome_iff_exists.mp hstop
  obtain ⟨take, ht⟩ := Option.isSome_iff_exists.mp htake
  rw [matches_levels h, Bool.and_eq_true, Option.any_eq_true] at hmatch
  obtain ⟨-, position, hp, hlevels⟩ := hmatch
  rw [hexpected, hs, ht, Bool.and_eq_true] at hlevels
  rw [hs, ht]
  exact ⟨position, hp, safeDecimal_of_levelMatches hlevels.1, safeDecimal_of_levelMatches hlevels.2⟩

/-- Without client order id there are rows on which the two verdicts differ. -/
theorem exists_verdicts_ne (h : intent.requestPayload.Protects action) (hid : intent.clientOrderId = none) (trade : CopiedTrade) :
    ∃ data, reconciliationAccepts intent data (some trade) ≠ brokerResultMatchesIntent intent data (some trade) := by
  obtain ⟨stop, hstop⟩ := exists_levelMatches intent.requestPayload.expectedStopLoss
  obtain ⟨take, htake⟩ := exists_levelMatches intent.requestPayload.takeProfit
  by_cases hnone : textOrEmpty trade.brokerPositionId = "None"
  · -- a row without ticket, which prints as the trade's id
    refine ⟨{ positions := [{ id := some "", sl := stop, tp := take }] }, ?_⟩
    rw [reconciliationAccepts_levels h hid, matches_levels h, BrokerData.ticketOf, BrokerData.positionOf, hnone]
    simp [BrokerItem.brokerId, pyStr, hstop, htake]
  · -- the trade's row in the newer keys
    refine ⟨{ positions := [{ id := some (textOrEmpty trade.brokerPositionId), stopLoss := stop, takeProfit := take }] }, ?_⟩
    rw [reconciliationAccepts_levels h hid, matches_levels h, BrokerData.ticketOf, BrokerData.positionOf, hid]
    simp [BrokerItem.brokerId, BrokerItem.stopLossValue, BrokerItem.takeProfitValue, pyStr, hstop, htake, Ne.symm hnone]

/-- A payload that sends its entry for a stop loss is taken as carried out by a
position without one. -/
theorem exists_accepted_other (h : intent.requestPayload.Protects action) (hkeeps : ¬ intent.requestPayload.KeepsEntry action)
    (trade : CopiedTrade) :
    intent.requestPayload.stopLevel.isSome ∧ intent.requestPayload.takeProfit.isSome ∧
      ∃ data, brokerResultMatchesIntent intent data (some trade) ∧ ∀ position, data.positionOf trade = some position →
        ¬ position.Holds intent.requestPayload.stopLevel intent.requestPayload.takeProfit := by
  simp only [Payload.KeepsEntry, not_or, Option.not_isSome_iff_eq_none] at hkeeps
  obtain ⟨hmodify, hnone, hentry, htake⟩ := hkeeps
  obtain ⟨entry, he⟩ := Option.ne_none_iff_exists'.mp hentry
  obtain ⟨take, ht⟩ := exists_levelMatches intent.requestPayload.takeProfit
  have hsubmit : intent.requestPayload.stopLevel = some entry := by
    rw [Payload.stopLevel, hnone, he]
    rfl
  have hexpected : intent.requestPayload.expectedStopLoss = none := by
    rw [Payload.expectedStopLoss, hnone, h.1, if_neg fun heq => hmodify (Option.some.inj heq)]
    rfl
  let position : BrokerItem := { id := some (textOrEmpty trade.brokerPositionId), takeProfit := take }
  have hp : BrokerData.positionOf { clientOrderId := intent.clientOrderId, positions := [position] } trade = some position :=
    List.find?_cons_of_pos (decide_eq_true rfl)
  refine ⟨by rw [hsubmit]; rfl, Option.isSome_iff_ne_none.mpr htake,
    { clientOrderId := intent.clientOrderId, positions := [position] }, ?_, fun other hother hholds => ?_⟩
  · rw [matches_levels h, hp, hexpected, Option.any_some]
    have hvalue : position.takeProfitValue = take := by cases take <;> rfl
    rw [hvalue, ht]
    simp [levelMatches]
  · rw [hp] at hother
    cases hother
    rw [hsubmit] at hholds
    cases hholds.1

end

/-- The verdicts on an update of levels are those of the levels submitted iff the
intent has a client order id and its payload keeps its entry. -/
theorem levelsAgree_iff [Unicode] {intent : SubmittedIntent} {action : SignalAction}
    (h : intent.requestPayload.Protects action) (route : CopyRoute) (clientId : ClientOrderId)
    (selected : Option BrokerSymbol) (trade : CopiedTrade) :
    LevelsAgree route clientId selected intent action trade ↔
      intent.clientOrderId.isSome ∧ intent.requestPayload.KeepsEntry action := by
  have hrun : runAction route clientId intent.requestPayload action (some trade) selected =
      .ok (.modifyPosition trade.brokerPositionId intent.requestPayload.stopLevel intent.requestPayload.takeProfit, none) :=
    runAction_protection h.2 trade
  constructor
  · rintro ⟨positionId, stopLoss, takeProfit, hsubmit, hdata⟩
    rw [hrun] at hsubmit
    cases hsubmit
    constructor
    · by_contra hid
      obtain ⟨data, hne⟩ := exists_verdicts_ne h (Option.not_isSome_iff_eq_none.mp hid) trade
      exact hne (hdata data).2.2
    · by_contra hkeeps
      obtain ⟨hstop, htake, data, hmatch, hother⟩ := exists_accepted_other h hkeeps trade
      obtain ⟨position, hp, hholds⟩ := (hdata data).2.1 hstop htake hmatch
      exact hother position hp hholds
  · rintro ⟨hid, hkeeps⟩
    refine ⟨_, _, _, hrun, fun data => ⟨fun position hp hholds hanswer => ?_, fun hstop htake hmatch => ?_, ?_⟩⟩
    · exact matches_of_holds h hp hholds hanswer
    · exact holds_of_matches h hkeeps hstop htake hmatch
    · exact reconciliationAccepts_of_clientOrderId hid _

/-- A further target for a trade entered at 2300 without stop loss. -/
def targetAfterEntry : SubmittedIntent where
  clientOrderId := some ⟨4, 1⟩
  requestPayload := {
    context := { action := some .modify_sl_tp, symbol := some "XAUUSD", entry := some 2300, takeProfits := [2400] }
    volume := none
    takeProfit := some 2400
    conversationId := .conversation 0
    copiedTradeId := some goldTrade.id }

/-- A move of the same trade to its entry. -/
def toBreakEven : SubmittedIntent :=
  { targetAfterEntry with
    requestPayload := { targetAfterEntry.requestPayload with
      context := { targetAfterEntry.requestPayload.context with action := some .break_even } } }

theorem levelsAgree_toBreakEven :
    let _ := Unicode.ascii
    toBreakEven.requestPayload.Protects .break_even ∧ LevelsAgree goldRoute ⟨4, 1⟩ none toBreakEven .break_even goldTrade := by
  intro _
  have h : toBreakEven.requestPayload.Protects .break_even := ⟨rfl, .inr rfl⟩
  exact ⟨h, (levelsAgree_iff h goldRoute ⟨4, 1⟩ none goldTrade).mpr ⟨rfl, .inl rfl⟩⟩

/-- The position of the trade with the new target and no stop loss. -/
def withoutStop : BrokerData where
  clientOrderId := some ⟨4, 1⟩
  positions := [{ id := some "1", takeProfit := some (.number 2400) }]

/-- The entry is sent for a stop loss, and a position without stop loss is taken for
the one it was set on. -/
theorem entry_for_stop :
    let _ := Unicode.ascii
    runAction goldRoute ⟨4, 1⟩ targetAfterEntry.requestPayload .modify_sl_tp (some goldTrade) none =
        .ok (.modifyPosition (some "1") (some 2300) (some 2400), none) ∧
      brokerResultMatchesIntent targetAfterEntry withoutStop (some goldTrade) ∧
      ¬ LevelsAgree goldRoute ⟨4, 1⟩ none targetAfterEntry .modify_sl_tp goldTrade := by
  intro _
  have hrun : runAction goldRoute ⟨4, 1⟩ targetAfterEntry.requestPayload .modify_sl_tp (some goldTrade) none =
      .ok (.modifyPosition (some "1") (some 2300) (some 2400), none) := rfl
  have hmatch : brokerResultMatchesIntent targetAfterEntry withoutStop (some goldTrade) := by decide +kernel
  refine ⟨hrun, hmatch, ?_⟩
  rintro ⟨positionId, stopLoss, takeProfit, hsubmit, hdata⟩
  rw [hrun] at hsubmit
  cases hsubmit
  obtain ⟨position, hp, hholds⟩ := (hdata withoutStop).2.1 rfl rfl hmatch
  cases hp
  cases hholds.1

end SignalSync
