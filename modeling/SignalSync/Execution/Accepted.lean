import SignalSync.Execution.Protection

/-!
# Accepted signals

What execution reads of a payload (`Payload.Usable`), and what validation makes sure
of. A signal that opens names its direction and its symbol, but a further take profit,
which is opened as an order of its own, is accepted without either.

* `runAction_opening_iff`: an opening whose symbol has been looked up makes a call iff
  its fields are there;
* `accepted_usable_iff`: when the payloads of an accepted signal are usable.
-/

namespace SignalSync

open Library

/-- What execution needs of the payload of an intent. -/
structure Payload.Usable (payload : Payload) (action : SignalAction) : Prop where
  symbol : action.isOpening → (payload.context.symbol.filter (· ≠ "")).isSome
  direction : action.isOpening → payload.context.direction.isSome
  entry : action = .place_pending → payload.context.entry.isSome
  prices : ∀ level ∈ payload.context.entry.toList ++ payload.context.stopLoss.toList ++ payload.takeProfit.toList,
    0 < level.toRat
  closeFraction : action = .partial_close → ∃ fraction, payload.context.closeFraction = some fraction ∧
    0 < fraction.toRat ∧ fraction.toRat ≤ 1

variable [Unicode]

/-- The broker connection has a method for the order: a market order, or a limit or
stop order. -/
def Payload.hasMethod (payload : Payload) (action : SignalAction) : Bool :=
  action ≠ .place_pending || orderTypeName payload.context.orderType = "limit" ||
    orderTypeName payload.context.orderType = "stop"

/-- The broker's symbol is looked up if the payload names one; then an opening makes a
call iff its fields are there. -/
theorem runAction_opening_iff {route : CopyRoute} {clientId : ClientOrderId} {payload : Payload} {action : SignalAction}
    {copied : Option CopiedTrade} {selected : Option BrokerSymbol} (ha : action.isOpening) (hm : payload.hasMethod action)
    (hs : selected.isSome = (payload.context.symbol.filter (· ≠ "")).isSome) :
    (∃ r, runAction route clientId payload action copied selected = .ok r) ↔
      (payload.context.symbol.filter (· ≠ "")).isSome ∧ payload.context.direction.isSome ∧
        (action = .place_pending → payload.context.entry.isSome) := by
  rw [← hs]
  cases action with
  | open_market | additional_tp =>
    cases selected <;> cases hd : payload.context.direction <;> simp [runAction, hd]
  | place_pending =>
    have hm : orderTypeName payload.context.orderType = "limit" ∨ orderTypeName payload.context.orderType = "stop" := by
      simpa [Payload.hasMethod] using hm
    cases selected <;> cases he : payload.context.entry <;> cases hd : payload.context.direction <;>
      simp [runAction, he, hd, hm]
  | _ => cases ha

section

variable {env : SignalEnv} {event : MessageEvent} {parsed : AiAction} {update : Context} {conversationId : Uuid}
  {conversation : SignalConversation} {routeId : Uuid} {route : CopyRoute} {view : RouteView} {s : RouteSignal}
  {e : Uuid × TradeIntent}

/-- Only an accepted signal makes intents. -/
theorem accepted_of_createdIntents (h : e ∈ createdIntents env event conversationId conversation routeId route view s) :
    (validateSignal s.signal (routeExecutionPolicy env route s.policy)).accepted := by
  unfold createdIntents at h
  split at h
  · rename_i targets hv
    unfold routeVerdict at hv
    simp only at hv
    split at hv
    · cases hv
    · rename_i ha
      simpa using ha
  · cases h

/-- The payloads of an accepted signal are usable iff an opening's symbol is not the
empty text and a further take profit has a symbol and a direction. -/
theorem accepted_usable_iff (hs : routeSignal env event parsed update conversationId conversation routeId route view = .ok s)
    (he : e ∈ createdIntents env event conversationId conversation routeId route view s) :
    e.2.requestPayload.Usable s.action ↔
      (s.action.isOpening → s.signal.symbol ≠ some "") ∧
        (s.action = .additional_tp → s.signal.symbol.isSome ∧ s.signal.direction.isSome) := by
  have hsignal := routeSignal_signal hs
  obtain ⟨-, -, -, hact, -⟩ := routeSignal_eq_ok hs
  have hcontext := (createdIntents_isIntentFor hact he).context
  have hchecks := validateSignal_accepted.1 (accepted_of_createdIntents he)
  have hprices := accepted_prices (accepted_of_createdIntents he)
  simp only [ParsedSignal.checks, List.forall_mem_cons] at hchecks
  obtain ⟨-, hpending, -, -, -, -, hfraction, hrange, -, -, -, hdirection, hmissing, -⟩ := hchecks
  have hsymbolAction : s.signal.action = s.action := by rw [hsignal]; rfl
  have hsymbol : s.signal.symbol = e.2.requestPayload.context.symbol := by rw [hsignal, hcontext]; rfl
  have hdir : s.signal.direction = e.2.requestPayload.context.direction := by rw [hsignal, hcontext]; rfl
  have hentry : s.signal.entry = e.2.requestPayload.context.entry := by rw [hsignal, hcontext]; rfl
  have hstop : s.signal.stopLoss = e.2.requestPayload.context.stopLoss := by rw [hsignal, hcontext]; rfl
  have hclose : s.signal.closeFraction = e.2.requestPayload.context.closeFraction := by rw [hsignal, hcontext]; rfl
  rw [hsymbolAction] at hpending hfraction hrange hdirection hmissing
  constructor
  · intro hu
    refine ⟨fun ha hempty => ?_, fun ha => ?_⟩
    · have := hu.symbol ha
      rw [← hsymbol, hempty] at this
      cases this
    · rw [hsymbol, hdir]
      exact ⟨Option.isSome_of_isSome_filter _ _ (hu.symbol (by rw [ha]; rfl)), hu.direction (by rw [ha]; rfl)⟩
  · rintro ⟨hempty, hfurther⟩
    have hopening (ha : s.action.isOpening) : s.signal.symbol.isSome ∧ s.signal.direction.isSome := by
      cases hopen : s.action.isOpen with
      | false => exact hfurther (by cases hx : s.action <;> simp_all [SignalAction.isOpen, SignalAction.isOpening])
      | true =>
        rw [hopen, Bool.true_and] at hdirection hmissing
        refine ⟨?_, by simpa using hdirection⟩
        cases hm : (routeExecutionPolicy env route s.policy).minimumFields <;>
          simp_all [ParsedSignal.missing, Option.isSome_iff_ne_none]
    refine ⟨fun ha => ?_, fun ha => hdir ▸ (hopening ha).2, fun ha => ?_, fun level hl => ?_, fun ha => ?_⟩
    · obtain ⟨symbol, hsym⟩ := Option.isSome_iff_exists.mp (hopening ha).1
      rw [← hsymbol, hsym, Option.filter_some, if_pos (by simpa [hsym] using hempty ha)]
      rfl
    · rw [← hentry]
      simpa [ha, Option.isSome_iff_ne_none] using hpending
    · simp only [List.append_assoc, List.mem_append, Option.mem_toList] at hl
      refine hprices level ?_
      simp only [ParsedSignal.prices, List.mem_append, Option.mem_toList, hentry, hstop]
      rcases hl with hl | hl | hl
      · exact .inl (.inl (.inl hl))
      · exact .inl (.inr hl)
      · exact .inr (takeProfit_of_createdIntents (by rw [hsignal]; rfl) he hl)
    · rw [ha] at hfraction hrange
      obtain ⟨fraction, hf⟩ := Option.isSome_iff_exists.mp (by simpa using hfraction : s.signal.closeFraction.isSome)
      exact ⟨fraction, hclose ▸ hf, by simpa [hf] using hrange⟩

end

/-! ## A further take profit -/

/-- What the model reads from `TP3 2420`. -/
def furtherTakeProfit : AiAction where
  action := .additional_tp
  takeProfits := [2420]
  confidence := 1

def goldTarget : MessageEvent := { goldMessage with messageId := 12, correlationId := 16, text := "TP3 2420" }

omit [Unicode] in
theorem accepted_usable_iff_goldMessage :
    let _ := Unicode.ascii
    let env := goldEnv 0 (seconds 101) buyGold
    let view := goldDatabase.routeView 0 (.conversation 0) 4 goldRoute
    let intents := createdIntents env goldMessage (.conversation 0) (goldConversationRow {}) 4 goldRoute view
    ∃ s e, e ∈ intents s ∧ s.action = .open_market ∧
      (e.2.requestPayload.Usable s.action ↔
        (s.action.isOpening → s.signal.symbol ≠ some "") ∧
          (s.action = .additional_tp → s.signal.symbol.isSome ∧ s.signal.direction.isSome)) := by
  intro _ env view intents
  have hintent : hasIntent (routeSignal env goldMessage buyGold buyGold.modelDump (.conversation 0) (goldConversationRow {})
      4 goldRoute view) intents .open_market := by decide +kernel
  obtain ⟨s, e, hs, ha, he⟩ := exists_of_hasIntent hintent
  exact ⟨s, e, he, ha, accepted_usable_iff hs he⟩

omit [Unicode] in
/-- `TP3 2420` with no copied trade to go to: an accepted signal, and an order without
a symbol and a direction. -/
theorem furtherTakeProfit_not_usable :
    let _ := Unicode.ascii
    ∃ db e, (signalHandler (goldEnv 0 (seconds 101) furtherTakeProfit) goldTarget goldDatabase []).result = .ok (.success, db) ∧
      e ∈ db.intentsOf 4 ∧ e.2.requestPayload.context.action = some .additional_tp ∧
      runAction goldRoute e.2.clientOrderId e.2.requestPayload .additional_tp none none = .error .attributeError ∧
      ¬ e.2.requestPayload.Usable .additional_tp := by
  intro _
  have hrun : (signalHandler (goldEnv 0 (seconds 101) furtherTakeProfit) goldTarget goldDatabase []).result.toOption.map
      (fun r => (r.1, ((r.2.intentsOf 4).filter fun e => e.2.requestPayload.context.action = some .additional_tp &&
        e.2.requestPayload.context.direction.isNone).length)) = some (.success, 1) := by decide +kernel
  obtain ⟨⟨result, db⟩, hr, hpair⟩ := Option.map_eq_some_iff.mp hrun
  obtain ⟨rfl, hlen⟩ := Prod.mk.inj hpair
  obtain ⟨e, he⟩ := List.length_eq_one_iff.mp hlen
  have hm := List.mem_singleton_self e
  rw [← he, List.mem_filter] at hm
  simp only [Bool.and_eq_true, decide_eq_true_eq] at hm
  obtain ⟨hmem, ha, hd⟩ := hm
  refine ⟨db, e, SignalRun.of_toOption hr, hmem, ha, rfl, fun hu => ?_⟩
  have hsome := hu.direction rfl
  rw [Option.isNone_iff_eq_none.mp hd] at hsome
  cases hsome

end SignalSync
