import SignalSync.Database

/-!
# Broker actions

`runAction` turns an intent's payload into the one call of the broker it stands
for, `openedTrade` and `confirmCopied` are what a confirmed call leaves in the
copied trades, and `isPermanentMetaapiError` reads from an exception whether the
broker can still have carried the call out.

* `runAction_opening`: an opening submits the requested volume as the broker's
  symbol admits it;
* `runAction_protection`: a protection update, or a move to break even, addresses
  the matched trade with the levels of the payload.
-/

namespace SignalSync

open Library

/-! ## Exceptions -/

/-- An exception as it is told apart: its class, and whether that is one of
`TimeoutError`, `ConnectionError` and `OSError`, or a `ValueError`. -/
structure PyException where
  name : String
  isOs : Bool := false
  isValue : Bool := false
deriving DecidableEq

namespace PyException

def attributeError : PyException := { name := "AttributeError" }
def typeError : PyException := { name := "TypeError" }
def keyError : PyException := { name := "KeyError" }
def invalidOperation : PyException := { name := "InvalidOperation" }
def integrityError : PyException := { name := "IntegrityError" }
def valueError : PyException := { name := "ValueError", isValue := true }

end PyException

/-- `word in text`. -/
def containsWord (text word : String) : Bool := text.toList.tails.any word.toList.isPrefixOf

section

variable [Unicode]

def isPermanentMetaapiError (e : PyException) : Bool :=
  let name := Unicode.lower e.name
  !e.isOs && !(["timeout", "connection", "socket", "rate"].any (containsWord name)) &&
    (e.isValue || ["validation", "trade", "forbidden", "unauthorized"].any (containsWord name))

end

/-! ## Payloads -/

namespace Payload

/-- `payload.get("stop_loss") or payload.get("entry")`; a stated level is a text
that is not empty. -/
def stopLevel (payload : Payload) : Option Decimal := payload.context.stopLoss <|> payload.context.entry

/-- `Decimal(str(payload.get("volume", route.fixed_lot)))`. -/
def requestedVolume (payload : Payload) (route : CopyRoute) : ℚ := payload.volume.getD route.fixedLot.toRat

end Payload

/-- What a broker is asked to do. -/
inductive BrokerCall
  | marketOrder (direction : Direction) (symbol : String) (volume : ℚ) (stopLoss takeProfit : Option Decimal)
      (clientId : ClientOrderId)
  | pendingOrder (direction : Direction) (orderType symbol : String) (volume : ℚ) (openPrice : Decimal)
      (stopLoss takeProfit : Option Decimal) (clientId : ClientOrderId)
  | modifyPosition (positionId : Option String) (stopLoss takeProfit : Option Decimal)
  | closePosition (positionId : Option String) (volume : Option ℚ) (clientId : ClientOrderId)
  | cancelOrder (orderId : Option String)
deriving DecidableEq

/-- `_normalized_result`. -/
structure BrokerResult where
  orderId : Option String := none
  positionId : Option String := none
deriving DecidableEq

section

variable [Unicode]

/-- `text.split("_")[-1]`. -/
def lastSegment (text : String) : String := .ofList (text.toList.reverse.takeWhile (· ≠ '_')).reverse

/-- `str(payload.get("order_type") or "limit").lower().split("_")[-1]`. -/
def orderTypeName (orderType : Option String) : String :=
  lastSegment (Unicode.lower ((orderType.filter (· ≠ "")).getD "limit"))

/-- `_select_trade`, over the route's open and pending trades, latest first. -/
def selectTrade (trades : List (Uuid × CopiedTrade)) (payload : Payload) : Option (Uuid × CopiedTrade) :=
  match payload.copiedTradeId, payload.context.symbol.filter (· ≠ "") with
  | some id, _ => trades.find? (·.2.id = id)
  | none, some symbol =>
    let target := Symbols.normalizeSymbol symbol
    trades.find? fun e => Symbols.startsWith (Symbols.normalizeSymbol e.2.signalSymbol) target
  | none, none =>
    match trades with
    | [e] => some e
    | _ => none

/-- `current_volume or original_volume`. -/
def CopiedTrade.liveVolume (trade : CopiedTrade) : Option Lots :=
  trade.currentVolume.filter (·.toRat ≠ 0) <|> trade.originalVolume

/-- `_run_action`: the call for an intent and the volume it submits, or the
exception raised before any call. -/
def runAction (route : CopyRoute) (clientId : ClientOrderId) (payload : Payload) (action : SignalAction)
    (copied : Option CopiedTrade) (selected : Option BrokerSymbol) : Except PyException (BrokerCall × Option ℚ) :=
  match action with
  | .open_market | .additional_tp =>
    match selected, payload.context.direction with
    | some symbol, some direction =>
      let volume := normalizeVolume (payload.requestedVolume route) symbol
      .ok (.marketOrder direction symbol.name volume payload.context.stopLoss payload.takeProfit clientId, some volume)
    | none, _ => .error .attributeError
    | some _, none => .error .keyError
  | .place_pending =>
    match selected, payload.context.direction, payload.context.entry with
    | none, _, _ => .error .attributeError
    | some _, none, _ | some _, some _, none => .error .keyError
    | some symbol, some direction, some entry =>
      let volume := normalizeVolume (payload.requestedVolume route) symbol
      let orderType := orderTypeName payload.context.orderType
      -- the method `create_{order_type}_{direction}_order`
      if orderType = "limit" || orderType = "stop" then
        .ok (.pendingOrder direction orderType symbol.name volume entry payload.context.stopLoss payload.takeProfit clientId,
          some volume)
      else .error .attributeError
  | _ =>
    match copied with
    | none => .error .valueError
    | some trade =>
      match action with
      | .modify_sl_tp | .break_even =>
        .ok (.modifyPosition trade.brokerPositionId payload.stopLevel payload.takeProfit, none)
      | .partial_close =>
        match trade.liveVolume with
        | none => .error .invalidOperation
        | some current =>
          let volume := current.toRat * (payload.context.closeFraction.getD ⟨false, 5, -1⟩).toRat
          .ok (.closePosition trade.brokerPositionId (some volume) clientId, some volume)
      | .full_close => .ok (.closePosition trade.brokerPositionId none clientId, none)
      | .cancel_pending => .ok (.cancelOrder trade.brokerOrderId, none)
      | _ => .error .valueError

/-! ## What a confirmed call leaves -/

/-- The row of a confirmed opening; the submitted volume is positive. -/
def openedTrade (run : Nat) (now : Time) (routeId threadId : Uuid) (connectionId : Option Uuid) (payload : Payload)
    (action : SignalAction) (symbol : BrokerSymbol) (volume : ℚ) (result : BrokerResult) : CopiedTrade where
  id := .trade run
  routeId := routeId
  threadId := threadId
  connectionId := connectionId
  signalSymbol := payload.context.symbol.getD "None"
  brokerSymbol := symbol.name
  brokerOrderId := result.orderId
  brokerPositionId := result.positionId.filter (· ≠ "") <|> result.orderId
  lifecycleState := if action = .place_pending then .pending else .open
  originalVolume := some (.ofRat (max 0 volume) (Lots.zero_le_max volume))
  currentVolume := some (.ofRat (max 0 volume) (Lots.zero_le_max volume))
  stopLoss := payload.context.stopLoss.map fun level => .ofRat 8 level.toRat
  takeProfit := payload.takeProfit.map fun level => .ofRat 8 level.toRat
  createdAt := now

section

variable {route : CopyRoute} {clientId : ClientOrderId} {payload : Payload} {action : SignalAction}
  {copied : Option CopiedTrade} {selected : Option BrokerSymbol} {call : BrokerCall} {volume : Option ℚ}

/-- An opening has a symbol and a direction, and submits the requested volume as the broker's
symbol admits it. -/
theorem runAction_opening (h : runAction route clientId payload action copied selected = .ok (call, volume))
    (ha : action.isOpening) :
    ∃ symbol direction, selected = some symbol ∧ payload.context.direction = some direction ∧
      volume = some (normalizeVolume (payload.requestedVolume route) symbol) ∧
        (call = .marketOrder direction symbol.name (normalizeVolume (payload.requestedVolume route) symbol)
            payload.context.stopLoss payload.takeProfit clientId ∨
          ∃ orderType entry, call = .pendingOrder direction orderType symbol.name
            (normalizeVolume (payload.requestedVolume route) symbol) entry payload.context.stopLoss payload.takeProfit clientId) := by
  cases action with
  | open_market | additional_tp =>
    simp only [runAction] at h
    split at h
    · rename_i hdirection
      cases h
      exact ⟨_, _, rfl, hdirection, rfl, .inl rfl⟩
    · cases h
    · cases h
  | place_pending =>
    simp only [runAction] at h
    split at h
    · cases h
    · cases h
    · cases h
    · rename_i hdirection _
      split at h
      · cases h
        exact ⟨_, _, rfl, hdirection, rfl, .inr ⟨_, _, rfl⟩⟩
      · cases h
  | _ => cases ha

/-- A protection update, or a move to break even, sends the payload's levels for
the matched trade. -/
theorem runAction_protection (ha : action = .modify_sl_tp ∨ action = .break_even) (trade : CopiedTrade) :
    runAction route clientId payload action (some trade) selected =
      .ok (.modifyPosition trade.brokerPositionId payload.stopLevel payload.takeProfit, none) := by
  rcases ha with rfl | rfl <;> rfl

end

end

/-- The matched trade after a confirmed management action. -/
def confirmCopied (payload : Payload) (action : SignalAction) (volume : ℚ) (copied : CopiedTrade) :
    Except PyException CopiedTrade :=
  match action with
  | .partial_close =>
    match copied.currentVolume with
    | none => .error .typeError
    | some current => .ok { copied with currentVolume := some (.ofRat (max 0 (current.toRat - volume)) (le_max_left _ _)) }
  | .modify_sl_tp | .break_even =>
    .ok { copied with
      stopLoss := (payload.stopLevel.map fun level => .ofRat 8 level.toRat) <|> copied.stopLoss
      takeProfit := (payload.takeProfit.map fun level => .ofRat 8 level.toRat) <|> copied.takeProfit }
  | .full_close => .ok { copied with lifecycleState := .closed, currentVolume := some 0 }
  | .cancel_pending => .ok { copied with lifecycleState := .cancelled, currentVolume := some 0 }
  | _ => .ok copied

/-- The columns of a copied trade that execution changes. -/
def CopiedTrade.writeBack (loaded new stored : CopiedTrade) : CopiedTrade :=
  { stored with
    lifecycleState := SignalSync.writeBack loaded.lifecycleState new.lifecycleState stored.lifecycleState
    currentVolume := SignalSync.writeBack loaded.currentVolume new.currentVolume stored.currentVolume
    stopLoss := SignalSync.writeBack loaded.stopLoss new.stopLoss stored.stopLoss
    takeProfit := SignalSync.writeBack loaded.takeProfit new.takeProfit stored.takeProfit }

end SignalSync
