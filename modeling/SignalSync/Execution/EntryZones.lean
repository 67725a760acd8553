import SignalSync.Execution.World

/-!
# Entry zones

A signal may state a range of entry prices. `check_execution_quality` knows its lower end
only, and compares the market with it where the account limits the slippage.

* `Order.Inv`: every order was checked with a quote by the run that sends it;
* `zoneRespected_iff`: an order is kept to the stated range iff the slippage is limited.
-/

namespace SignalSync

open Library

/-- A stated range of entry prices. -/
structure EntryZone where
  low : Decimal
  high : Decimal
  ordered : low.toRat ≤ high.toRat

/-- The price lies in the range, widened by a margin. -/
def EntryZone.Holds (zone : EntryZone) (margin price : ℚ) : Prop := zone.low.toRat - margin ≤ price ∧ price ≤ zone.high.toRat + margin

/-- `max_slippage_points`, as a distance of prices. -/
def slippageMargin (limit : Option Nat) (symbol : BrokerSymbol) : ℚ := (limit.getD 0 : ℕ) * symbol.pointSize

theorem BrokerSymbol.pointSize_pos (symbol : BrokerSymbol) : 0 < symbol.pointSize := by
  unfold pointSize
  split
  · assumption
  · norm_num

/-! ## The orders of a run -/

/-- An order that a run has sent. -/
structure SentOrder where
  call : ExecutionCall
  order : BrokerCall
  /-- The session that was checked before, and what the terminal showed. -/
  checked : Option (ReadySession × BrokerView)

/-- A run of `execution_handler`; without a phase it has ended. -/
structure OrderRun where
  phase : Option ExecutionPhase
  checked : Option (ReadySession × BrokerView) := none
  orders : List SentOrder := []

/-- A step of the run, on the database as it is by then. -/
structure OrderLabel where
  now : Time
  lockFree : Option Uuid → Bool
  db : Database
  label : HandlerLabel

namespace OrderRun

def after (r : OrderRun) (phase : ExecutionPhase) (label : HandlerLabel) (h : HandlerStep) : OrderRun where
  phase := match h.stage with
    | .handle phase' => some phase'
    | _ => none
  checked := match phase, label with
    | .prepare s _, .prepare view => some (s, view)
    | _, _ => r.checked
  orders := r.orders ++ match phase, h.call with
    | .call c, some (_, order) => [{ call := c, order, checked := r.checked }]
    | _, _ => []

def step [Unicode] (settings : ExecutionSettings) (run : Nat) (r : OrderRun) (a : OrderLabel) : Option OrderRun :=
  match r.phase with
  | none => none
  | some phase => (handlerStep settings run a.now a.lockFree a.db phase a.label).map (r.after phase a.label)

end OrderRun

namespace SentOrder

/-- A market order of an opening whose signal states a range. -/
def Opens (o : SentOrder) (direction : Direction) (zone : EntryZone) : Prop :=
  o.call.intent.requestPayload.context.action = some .open_market ∧ o.call.intent.requestPayload.context.entry = some zone.low ∧
    o.call.intent.requestPayload.context.entryHigh = some zone.high ∧
    ∃ symbol volume stopLoss takeProfit clientId, o.order = .marketOrder direction symbol volume stopLoss takeProfit clientId

/-- The order was checked with a quote whose price lies in the range, widened by the
slippage that the account's policy admits. -/
def InZone (o : SentOrder) (limit : Option Nat) (direction : Direction) (zone : EntryZone) : Prop :=
  ∃ session view, o.checked = some (session, view) ∧ o.call.intent = session.intent ∧
    ∀ policy, session.policy = some policy → policy.maxSlippagePoints = limit →
      ∃ symbol quote bid ask, o.call.selected = some symbol ∧ view.quote = some quote ∧ quote.bid = some bid ∧ quote.ask = some ask ∧
        zone.Holds (slippageMargin limit symbol) (marketPrice direction bid ask)

end SentOrder

/-- In every run, the market orders of a direction and with a range are sent in the range, on
accounts with a limit of the slippage, or without one. -/
def ZoneRespected (limit : Option Nat) (direction : Direction) (zone : EntryZone) : Prop :=
  ∀ (_ : Unicode) (settings : ExecutionSettings) (run : Nat) (event : ExecutionEvent) (r : OrderRun),
    Reach (OrderRun.step settings run) always { phase := some event.begin } r →
      ∀ o ∈ r.orders, o.Opens direction zone → o.InZone limit direction zone

section

variable [Unicode] {settings : ExecutionSettings} {run : Nat} {now : Time} {db : Database}

/-- What a call has been checked for. -/
def ExecutionCall.Passed (c : ExecutionCall) (checked : Option (ReadySession × BrokerView)) : Prop :=
  ∃ session view now, checked = some (session, view) ∧ c.intent = session.intent ∧
    session.intent.requestPayload.context.action = some c.action ∧ orderQuality session c.action c.selected view now = .ok none

theorem prepareExecution_passed {s : ReadySession} {restored : List (Uuid × CopyRoute)} {view : BrokerView}
    {pending : PendingWrites} {c : ExecutionCall} {new : TradeIntent}
    (h : prepareExecution db now s restored view = .ok (pending, .submit c new)) : c.Passed (some (s, view)) := by
  unfold prepareExecution at h
  split at h
  · cases h
  · cases h
  · rename_i action _ haction
    simp only at h
    split at h
    · cases h
    · unfold afterQualityError at h
      simp only at h
      split at h <;> cases h
    · rename_i hquality
      split at h
      · cases h
      · cases h
      · cases h
        exact ⟨s, view, now, rfl, rfl, haction, hquality⟩

/-- What a run has come to: a call that is to be made was checked, and so was what was sent. -/
structure OrderRun.Inv (r : OrderRun) : Prop where
  call : ∀ c, r.phase = some (.call c) → c.Passed r.checked
  orders : ∀ o ∈ r.orders, o.call.Passed o.checked ∧ ∃ copied volume,
    runAction o.call.route o.call.intent.clientOrderId o.call.intent.requestPayload o.call.action copied o.call.selected =
      .ok (o.order, volume)

/-- What is sent is what `_run_action` makes of the call. -/
theorem runAction_of_call {lockFree : Option Uuid → Bool} {c : ExecutionCall} {label : HandlerLabel} {h : HandlerStep} {id : Uuid}
    {order : BrokerCall} (hs : handlerStep settings run now lockFree db (.call c) label = some h) (hcall : h.call = some (id, order)) :
    ∃ copied volume, runAction c.route c.intent.clientOrderId c.intent.requestPayload c.action copied c.selected = .ok (order, volume) := by
  cases label with
  | call response =>
    obtain ⟨loaded, -, rfl⟩ := Option.map_eq_some_iff.mp hs
    simp only at hcall
    split at hcall
    · cases hcall
    · rename_i call volume hrun
      cases hcall
      exact ⟨_, volume, hrun⟩
  | _ => cases hs

/-- Only a prepared call is sent. -/
theorem OrderRun.Inv.step {r t : OrderRun} {a : OrderLabel} (hr : r.Inv) (hs : r.step settings run a = some t) : t.Inv := by
  unfold OrderRun.step at hs
  split at hs
  · cases hs
  · rename_i phase hphase
    obtain ⟨h, hstep, rfl⟩ := Option.map_eq_some_iff.mp hs
    refine ⟨fun c hc => ?_, fun o ho => ?_⟩
    · have hstage : h.stage = .handle (.call c) := by
        simp only [after] at hc
        split at hc
        · cases hc
          assumption
        · cases hc
      rcases (handlerStep_cases hstep).call? hstage (c := c) rfl with ⟨-, hne⟩ | ⟨s, restored, view, pending, new, rfl, hlabel, hprep, -⟩
      · exact absurd rfl (hne c)
      · simp only [after, hlabel]
        exact prepareExecution_passed hprep
    · rcases List.mem_append.mp ho with ho | ho
      · exact hr.orders o ho
      · split at ho
        · rename_i hcall _
          cases List.mem_singleton.mp ho
          exact ⟨hr.call _ hphase, runAction_of_call hstep hcall⟩
        · cases ho

/-- The order of an opening has a symbol, and the direction of its intent. -/
theorem runAction_marketOrder {route : CopyRoute} {clientId clientId' : ClientOrderId} {payload : Payload}
    {copied : Option CopiedTrade} {selected : Option BrokerSymbol} {direction : Direction} {name : String} {lots : ℚ}
    {stopLoss takeProfit : Option Decimal} {volume : Option ℚ}
    (h : runAction route clientId payload .open_market copied selected =
      .ok (.marketOrder direction name lots stopLoss takeProfit clientId', volume)) :
    (∃ symbol, selected = some symbol) ∧ payload.context.direction = some direction := by
  obtain ⟨symbol, direction, hselected, hdirection, -, hcall | ⟨_, _, hcall⟩⟩ := runAction_opening h rfl
  · cases hcall
    exact ⟨⟨symbol, hselected⟩, hdirection⟩
  · cases hcall

end

/-- Where the slippage is limited, the price is no further from the lower end. -/
theorem holds_of_slippage {zone : EntryZone} {symbol : BrokerSymbol} {limit : Nat} {price : ℚ}
    (h : |price - zone.low.toRat| / symbol.pointSize ≤ limit) : zone.Holds (slippageMargin (some limit) symbol) price := by
  rw [div_le_iff₀ symbol.pointSize_pos, abs_le] at h
  have hordered := zone.ordered
  rw [EntryZone.Holds, slippageMargin, Option.getD_some]
  constructor
  · linarith only [h.1]
  · linarith only [h.2, hordered]

/-- A quote that has passed the check with an entry, where the slippage is limited. -/
theorem slippage_le {quote : Quote} {symbol : BrokerSymbol} {direction : Direction} {entry : ℚ} {policy : CopyAccountPolicy}
    {now : Time} {quality : ExecutionQuality} {limit : Nat}
    (h : checkExecutionQuality quote symbol direction (some entry) policy now = .ok quality)
    (hlimit : policy.maxSlippagePoints = some limit) :
    ∃ bid ask, quote.bid = some bid ∧ quote.ask = some ask ∧ |marketPrice direction bid ask - entry| / symbol.pointSize ≤ limit := by
  have hle := (checkExecutionQuality_ok h).2.2.2 limit hlimit
  unfold checkExecutionQuality at h
  split at h
  · cases h
  · split at h
    · cases h
    · rename_i bid ask time hread
      simp only at h
      split at h
      · cases h
      · split at h
        · cases h
        · split at h
          · cases h
          · cases h
            obtain ⟨hbid, hask⟩ : quote.bid = some bid ∧ quote.ask = some ask := by
              unfold Quote.read at hread
              split at hread <;> cases hread
              exact ⟨by assumption, by assumption⟩
            exact ⟨bid, ask, hbid, hask, hle _ rfl⟩

theorem zoneRespected_of_limit (limit : Nat) (direction : Direction) (zone : EntryZone) :
    ZoneRespected (some limit) direction zone := by
  intro _ settings run event r hr o ho hopens
  have hinv : r.Inv := by
    refine hr.invariant ⟨fun c hc => ?_, fun o ho => by cases ho⟩ fun _ _ _ hinv _ hs => hinv.step hs
    unfold ExecutionEvent.begin at hc
    split at hc <;> cases hc
  obtain ⟨⟨session, view, now, hchecked, hintent, haction, hquality⟩, copied, volume, hrun⟩ := hinv.orders o ho
  obtain ⟨hopen, hlow, -, name, lots, stopLoss, takeProfit, clientId, horder⟩ := hopens
  rw [hintent] at hopen hlow
  have hmarket : o.call.action = .open_market := Option.some_injective _ (haction.symm.trans hopen)
  rw [horder, hintent, hmarket] at hrun
  rw [hmarket] at hquality
  obtain ⟨⟨symbol, hselected⟩, hdirection⟩ := runAction_marketOrder hrun
  refine ⟨session, view, hchecked, hintent, fun policy hpolicy hlimit => ?_⟩
  obtain ⟨quote, hquote, quality, hok⟩ : ∃ quote, view.quote = some quote ∧ ∃ quality,
      checkExecutionQuality quote symbol direction (some zone.low.toRat) policy now = .ok quality := by
    rw [orderQuality, hselected] at hquality
    simp only [Option.filter_some, SignalAction.isOpening, if_true, qualityDetails, hpolicy, hdirection, hlow] at hquality
    cases hquote : view.quote with
    | none =>
      rw [hquote] at hquality
      cases hquality
    | some quote =>
      rw [hquote] at hquality
      simp only [Option.getD_some, Option.map_some] at hquality
      split at hquality
      · cases hquality
      · cases hquality
      · rename_i quality hok
        exact ⟨quote, rfl, quality, by simpa using hok⟩
  obtain ⟨bid, ask, hbid, hask, hle⟩ := slippage_le hok hlimit
  exact ⟨symbol, quote, bid, ask, hselected, hquote, hbid, hask, holds_of_slippage hle⟩

/-! ## Accounts that do not limit the slippage -/

/-- `goldIntent`, with a direction and a range. -/
def zoneIntent (direction : Direction) (zone : EntryZone) : TradeIntent :=
  { World.goldIntent with
    requestPayload := { World.goldIntent.requestPayload with
      context := { World.goldIntent.requestPayload.context with
        direction := some direction, entry := some zone.low, entryHigh := some zone.high } } }

/-- Gold is quoted above the range. -/
def aboveZone (zone : EntryZone) : BrokerView :=
  { World.goldTerminal (seconds 101) with
    quote := some { bid := some (zone.high.toRat + 1), ask := some (zone.high.toRat + 1), time := .at (seconds 101) } }

/-- The session that is to place the order. -/
def zoneSession (direction : Direction) (zone : EntryZone) : ReadySession where
  intentId := 12
  intent := zoneIntent direction zone
  route := goldRoute
  connectionId := 3
  connection := { metaapiAccountId := some "A", state := .ready }
  parsedAction := World.goldAccount.parsedActions.get? 9
  policy := some {}

def zoneAccount (intent : TradeIntent) : Database := { World.goldAccount with intents := .add ∅ 12 intent }

def goldZone : EntryZone := ⟨2300, 2310, by decide +kernel⟩

/-- The symbol and the risk do not depend on the range. -/
theorem zone_checks (direction : Direction) (zone : EntryZone) :
    let _ := Unicode.ascii
    let db := zoneAccount (zoneIntent direction zone)
    let session := zoneSession direction zone
    (∃ symbol mapping, payloadSymbol db session (aboveZone zone) = .ok (some symbol, mapping)) ∧
      ∃ anchors, enforceLiveAccountRisk db session (aboveZone zone) (seconds 101) (requestedVolume session .open_market) =
        .ok (anchors, none) := by
  intro _ db session
  have hsymbol : payloadSymbol db session (aboveZone zone) =
      payloadSymbol World.goldAccount (zoneSession .buy goldZone) (World.goldTerminal (seconds 101)) := by
    have hintent : session.intent.requestPayload.context.symbol = (zoneSession .buy goldZone).intent.requestPayload.context.symbol := rfl
    have hroute : session.intent.routeId = (zoneSession .buy goldZone).intent.routeId := rfl
    have hconnection : session.connectionId = (zoneSession .buy goldZone).connectionId := rfl
    have hmappings : db.symbolMappings = World.goldAccount.symbolMappings := rfl
    have hview : (aboveZone zone).specifications = (World.goldTerminal (seconds 101)).specifications := rfl
    simp only [payloadSymbol, resolveBrokerSymbol, hintent, hroute, hconnection, hmappings, hview]
  have hrisk : enforceLiveAccountRisk db session (aboveZone zone) (seconds 101) (requestedVolume session .open_market) =
      enforceLiveAccountRisk World.goldAccount (zoneSession .buy goldZone) (World.goldTerminal (seconds 101)) (seconds 101)
        (requestedVolume (zoneSession .buy goldZone) .open_market) := rfl
  have hgold : (payloadSymbol World.goldAccount (zoneSession .buy goldZone) (World.goldTerminal (seconds 101))).toOption.any
      (·.1.isSome) = true := by decide +kernel
  have hwithin : (enforceLiveAccountRisk World.goldAccount (zoneSession .buy goldZone) (World.goldTerminal (seconds 101))
      (seconds 101) (requestedVolume (zoneSession .buy goldZone) .open_market)).toOption.any (·.2.isNone) = true := by decide +kernel
  rw [hsymbol, hrisk]
  constructor
  · generalize payloadSymbol World.goldAccount (zoneSession .buy goldZone) (World.goldTerminal (seconds 101)) = found at hgold ⊢
    obtain _ | ⟨_ | symbol, mapping⟩ := found
    · cases hgold
    · cases hgold
    · exact ⟨symbol, mapping, rfl⟩
  · generalize enforceLiveAccountRisk World.goldAccount (zoneSession .buy goldZone) (World.goldTerminal (seconds 101)) (seconds 101)
      (requestedVolume (zoneSession .buy goldZone) .open_market) = checked at hwithin ⊢
    obtain _ | ⟨anchors, _ | refusal⟩ := checked
    · cases hwithin
    · exact ⟨anchors, rfl⟩
    · cases hwithin

/-- The order is prepared with a quote above the range. -/
theorem zone_prepared (direction : Direction) (zone : EntryZone) (restored : List (Uuid × CopyRoute)) :
    let _ := Unicode.ascii
    ∃ pending c new, prepareExecution (zoneAccount (zoneIntent direction zone)) (seconds 101) (zoneSession direction zone) restored
        (aboveZone zone) = .ok (pending, .submit c new) ∧
      c.intentId = 12 ∧ c.intent = zoneIntent direction zone ∧ c.action = .open_market ∧ c.selected.isSome := by
  intro _
  obtain ⟨⟨symbol, mapping, hsymbol⟩, anchors, hrisk⟩ := zone_checks direction zone
  have haction : (zoneSession direction zone).intent.requestPayload.context.action = some .open_market := rfl
  have hquality : orderQuality (zoneSession direction zone) .open_market (some symbol) (aboveZone zone) (seconds 101) = .ok none := rfl
  unfold prepareExecution
  rw [hsymbol, haction]
  simp only [hquality, hrisk]
  exact ⟨_, _, _, rfl, rfl, rfl, rfl, rfl⟩

/-- A run sends the order, whatever the range. -/
theorem zone_ignored (direction : Direction) (zone : EntryZone) : ¬ ZoneRespected none direction zone := by
  intro h
  let _ := Unicode.ascii
  let label (l : HandlerLabel) : OrderLabel := ⟨seconds 101, fun _ => true, zoneAccount (zoneIntent direction zone), l⟩
  obtain ⟨restored, hloaded⟩ : ∃ restored, Library.run (OrderRun.step {} 0) { phase := some (.load 12) }
      ([.load true, .acquire, .gate, .connect none].map label) =
        some { phase := some (.prepare (zoneSession direction zone) restored) } := ⟨_, rfl⟩
  obtain ⟨pending, c, new, hprep, hid, hintent, haction, hselected⟩ := zone_prepared direction zone restored
  obtain ⟨symbol, hsymbol⟩ := Option.isSome_iff_exists.mp hselected
  have hprepared : OrderRun.step {} 0 { phase := some (.prepare (zoneSession direction zone) restored) }
      (label (.prepare (aboveZone zone))) = some { phase := some (.call c), checked := some (zoneSession direction zone, aboveZone zone) } := by
    simp only [OrderRun.step, label, handlerStep, prepareStep, hprep]
    rfl
  have hsent : ∃ r order, OrderRun.step {} 0
      { phase := some (.call c), checked := some (zoneSession direction zone, aboveZone zone) } (label (.call (.ok {}))) = some r ∧
      r.orders = [{ call := c, order, checked := some (zoneSession direction zone, aboveZone zone) }] ∧
      ∃ name volume stopLoss takeProfit clientId, order = .marketOrder direction name volume stopLoss takeProfit clientId := by
    simp only [OrderRun.step, label, handlerStep, callStep, hid, hintent, haction, hsymbol]
    exact ⟨_, _, rfl, rfl, _, _, _, _, _, rfl⟩
  obtain ⟨r, order, hcall, horders, hmarket⟩ := hsent
  have hreach : Reach (OrderRun.step {} 0) always { phase := some (.load 12) } r :=
    ((Reach.of_run hloaded).tail trivial hprepared).tail trivial hcall
  obtain ⟨session, view, hchecked, -, hin⟩ := h _ {} 0 ⟨.replay 0, .execute 12⟩ r hreach _ (horders ▸ List.mem_singleton_self _)
    ⟨by rw [hintent]; rfl, by rw [hintent]; rfl, by rw [hintent]; rfl, hmarket⟩
  cases hchecked
  obtain ⟨symbol, quote, bid, ask, -, hquote, hbid, hask, -, hle⟩ := hin {} rfl rfl
  cases hquote
  cases hbid
  cases hask
  have hmargin : slippageMargin none symbol = 0 := by rw [slippageMargin, Option.getD_none, Nat.cast_zero, zero_mul]
  rw [hmargin, add_zero] at hle
  cases direction <;> exact absurd hle (not_le.mpr (lt_add_one _))

/-- Market orders are kept to the stated range iff the account limits the slippage. -/
theorem zoneRespected_iff (limit : Option Nat) (direction : Direction) (zone : EntryZone) :
    ZoneRespected limit direction zone ↔ limit.isSome := by
  cases limit with
  | none => exact iff_of_false (zone_ignored direction zone) (by simp)
  | some limit => exact iff_of_true (zoneRespected_of_limit limit direction zone) rfl

/-- Gold is to be bought between 2300 and 2310 and is bought at 2311. -/
theorem goldZone_ignored : ¬ ∀ limit direction zone, ZoneRespected limit direction zone := fun h =>
  zone_ignored .buy goldZone (h none .buy goldZone)

end SignalSync
