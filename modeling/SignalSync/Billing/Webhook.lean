import SignalSync.Billing.Cancellation
import SignalSync.Library.Transaction

/-!
# The webhook, statement by statement

`process_webhook_event` as a program over its session: the claim of the event, the
reads, the writes and the commit of each branch. Cut off anywhere, or ended by an
exception, it leaves nothing or all of the event (`webhook_exactlyOnce`).
-/

namespace SignalSync

open Library

section

variable [Python] [Unicode] {σ : Type} (settings : BillingSettings) (now : Time) (affiliates : AffiliateService σ) (users : AuthDb)

/-- `repo.claim_webhook_event`, where the id is free. -/
def claimWebhookEvent (eventId : String) (eventType : EventType) (s : BillingDb × σ) : Except BillingError (BillingDb × σ) :=
  if 100 < eventId.length || !eventType.fits then .error .database
  else .ok ({ s.1 with events := s.1.events ++ [eventId] }, s.2)

def saveSubscription (subscription : BillingSubscription) (s : BillingDb × σ) : Except BillingError (BillingDb × σ) :=
  (s.1.save subscription).map (·, s.2)

abbrev WebhookProgram (σ : Type) := Program (BillingDb × σ) BillingError Bool

/-- The end of every branch that has processed its event. -/
def commitEvent : WebhookProgram σ := .commit (.done true)

/-- The three subscription events. -/
def subscriptionProgram (created deleted : Bool) (data : Json) : WebhookProgram σ :=
  .query fun s =>
    match subscriptionFor settings users s.1 created data with
    | .error e => .raise e
    | .ok none => commitEvent
    | .ok (some subscription) =>
      match applySubscriptionPayload settings now data subscription deleted with
      | .error e => .raise e
      | .ok subscription => .write (saveSubscription subscription) commitEvent

/-- `invoice.payment_failed`. -/
def paymentFailedProgram (data : Json) : WebhookProgram σ :=
  .query fun s =>
    match s.1.getSubscriptionByProviderId ((data.get "subscription").dictOrEmpty.get "subscription_id").text with
    | none => commitEvent
    | some subscription => .write (saveSubscription (subscription.withStatus settings now .past_due)) commitEvent

/-- `invoice.paid`. -/
def paidInvoiceProgram (data : Json) : WebhookProgram σ :=
  .query fun s =>
    match s.1.getSubscriptionByProviderId (invoiceProviderId data).text with
    | none => commitEvent
    | some subscription =>
      if subscription.status = .canceled then commitEvent
      else
        .write (saveSubscription (subscription.withStatus settings now .active)) <|
        .write (fun s => match affiliates.createCommissionFromPaidInvoice s.1 now data s.2 with
          | some tables => .ok (s.1, tables)
          | none => .error .affiliates)
        commitEvent

def reversalProgram (data : Json) (reason : String) : WebhookProgram σ :=
  .write (fun s => reverse now affiliates s.1 s.2 data reason) commitEvent

def eventProgram (data : Json) : EventType → WebhookProgram σ
  | .created => subscriptionProgram settings now users true false data
  | .updated => subscriptionProgram settings now users false false data
  | .deleted => subscriptionProgram settings now users false true data
  | .payment_failed => paymentFailedProgram settings now data
  | .paid => paidInvoiceProgram settings now affiliates data
  | .refund_paid => reversalProgram now affiliates data "refund"
  | .dispute_created => reversalProgram now affiliates data "dispute"
  | .other _ => commitEvent

/-- `process_webhook_event`. -/
def webhookProgram (event : Json) : WebhookProgram σ :=
  match envelope event with
  | .error e => .raise e
  | .ok (eventId, eventType, data) =>
    .query fun s =>
      if eventId ∈ s.1.events then .done false
      else .write (claimWebhookEvent eventId eventType) (eventProgram settings now affiliates users data eventType)

/-! ## The programs are atomic, and do what the service does -/

omit [Python] [Unicode] in
theorem atomic_commitEvent : (commitEvent : WebhookProgram σ).Atomic := ⟨true, rfl⟩

theorem atomic_eventProgram (data : Json) (type : EventType) : (eventProgram settings now affiliates users data type).Atomic := by
  have hsubscription (created deleted : Bool) : (subscriptionProgram (σ := σ) settings now users created deleted data).Atomic := by
    intro s
    dsimp only
    split
    · trivial
    · exact atomic_commitEvent
    · split
      · trivial
      · exact atomic_commitEvent
  cases type with
  | created | updated | deleted => exact hsubscription _ _
  | payment_failed =>
    intro s
    dsimp only
    split <;> exact atomic_commitEvent
  | paid =>
    intro s
    dsimp only
    split
    · exact atomic_commitEvent
    · split <;> exact atomic_commitEvent
  | refund_paid | dispute_created | other => exact atomic_commitEvent

theorem atomic_webhookProgram (event : Json) : (webhookProgram settings now affiliates users event).Atomic := by
  unfold webhookProgram
  split
  · trivial
  · intro s
    dsimp only
    split
    · trivial
    · exact atomic_eventProgram ..

/-- Not cut off, an event's program commits what its handling comes to. -/
theorem exec_eventProgram (data : Json) (type : EventType) (committed s : BillingDb × σ) :
    (eventProgram settings now affiliates users data type).exec none committed s =
      match handleEvent settings now affiliates users s.1 s.2 data type with
      | .ok s => s
      | .error _ => committed := by
  have hsave (subscription : BillingSubscription) :
      (Program.write (saveSubscription subscription) commitEvent : WebhookProgram σ).exec none committed s =
        match (s.1.save subscription).map (·, s.2) with
        | .ok s => s
        | .error _ => committed := by
    cases hw : s.1.save subscription with
    | error e => exact Program.exec_write_error (by rw [saveSubscription, hw]; rfl) _
    | ok db => exact (Program.exec_write_ok (by rw [saveSubscription, hw]; rfl) _).trans (by simp [commitEvent, Except.map])
  have hsubscription (created deleted : Bool) :
      (subscriptionProgram settings now users created deleted data).exec none committed s =
        match (processSubscriptionEvent settings now users s.1 created deleted data).map (·, s.2) with
        | .ok s => s
        | .error _ => committed := by
    simp only [subscriptionProgram, Program.exec_query, processSubscriptionEvent, bind, Except.bind]
    cases subscriptionFor settings users s.1 created data with
    | error e => rfl
    | ok found =>
      cases found with
      | none => simp [commitEvent, pure, Except.pure, Except.map]
      | some subscription =>
        dsimp only
        cases applySubscriptionPayload settings now data subscription deleted with
        | error e => rfl
        | ok subscription => exact hsave subscription
  have hreverse (reason : String) :
      (reversalProgram now affiliates data reason).exec none committed s =
        match reverse now affiliates s.1 s.2 data reason with
        | .ok s => s
        | .error _ => committed := by
    cases hw : reverse now affiliates s.1 s.2 data reason with
    | error e => exact Program.exec_write_error hw _
    | ok s' => exact (Program.exec_write_ok hw _).trans (by simp [commitEvent])
  cases type with
  | created | updated | deleted => exact hsubscription _ _
  | payment_failed =>
    simp only [eventProgram, paymentFailedProgram, Program.exec_query, handleEvent, processPaymentFailed]
    cases s.1.getSubscriptionByProviderId ((data.get "subscription").dictOrEmpty.get "subscription_id").text with
    | none => simp [commitEvent, Except.map]
    | some subscription => exact hsave _
  | paid =>
    simp only [eventProgram, paidInvoiceProgram, Program.exec_query, handleEvent, processPaidInvoice]
    cases s.1.getSubscriptionByProviderId (invoiceProviderId data).text with
    | none => simp [commitEvent]
    | some subscription =>
      dsimp only
      split
      · simp [commitEvent]
      · cases hw : s.1.save (subscription.withStatus settings now .active) with
        | error e => exact Program.exec_write_error (by rw [saveSubscription, hw]; rfl) _
        | ok db =>
          rw [Program.exec_write_ok (w := (db, s.2)) (by rw [saveSubscription, hw]; rfl)]
          simp only [bind, Except.bind]
          cases hc : affiliates.createCommissionFromPaidInvoice db now data s.2 with
          | none => exact Program.exec_write_error (e := .affiliates) (by simp only [hc]) _
          | some tables => exact (Program.exec_write_ok (w := (db, tables)) (by simp only [hc]) _).trans (by simp [commitEvent, pure, Except.pure])
  | refund_paid | dispute_created => exact hreverse _
  | other => simp [eventProgram, commitEvent, handleEvent]

/-- Not cut off, the program does what `process_webhook_event` does. -/
theorem exec_webhookProgram (event : Json) (s : BillingDb × σ) :
    (webhookProgram settings now affiliates users event).exec none s s =
      match processWebhookEvent settings now affiliates users s.1 s.2 event with
      | .ok (_, s) => s
      | .error _ => s := by
  simp only [webhookProgram, processWebhookEvent, bind, Except.bind]
  cases envelope event with
  | error e => rfl
  | ok x =>
    obtain ⟨eventId, eventType, data⟩ := x
    simp only [Program.exec_query]
    split
    · rfl
    · by_cases hfits : 100 < eventId.length || !eventType.fits
      · rw [if_pos hfits, Program.exec_write_error (e := BillingError.database) (by rw [claimWebhookEvent, if_pos hfits])]
      · rw [if_neg hfits, Program.exec_write_ok (by rw [claimWebhookEvent, if_neg hfits]), exec_eventProgram]
        cases handleEvent settings now affiliates users { s.1 with events := s.1.events ++ [eventId] } s.2 data eventType <;> rfl

variable {settings now affiliates users}

/-- The handling of an event claims nothing itself. -/
theorem handleEvent_events {data : Json} {type : EventType} {db : BillingDb} {tables : σ} {handled : BillingDb × σ}
    (h : handleEvent settings now affiliates users db tables data type = .ok handled) : handled.1.events = db.events := by
  have hsubscription {created deleted : Bool} (h : processSubscriptionEvent settings now users db created deleted data = .ok handled.1) :
      handled.1.events = db.events := by
    rcases BillingState.processSubscriptionEvent_eq_ok h with ⟨-, he⟩ | ⟨_, _, -, -, hsave⟩
    · rw [he]
    · exact (BillingDb.save_eq_ok hsave).1
  cases type with
  | created | updated | deleted => exact hsubscription (BillingState.eq_ok_of_map h)
  | payment_failed =>
    have h := BillingState.eq_ok_of_map h
    unfold processPaymentFailed at h
    dsimp only at h
    split at h
    · cases h
      rfl
    · exact (BillingDb.save_eq_ok h).1
  | paid =>
    simp only [handleEvent, processPaidInvoice, bind, Except.bind] at h
    split at h
    · cases h
      rfl
    · split at h
      · cases h
        rfl
      · split at h
        · cases h
        · rename_i hsave
          split at h <;> cases h
          exact (BillingDb.save_eq_ok hsave).1
  | refund_paid | dispute_created => exact congrArg BillingDb.events (BillingState.reverse_eq_ok h)
  | other =>
    cases h
    rfl

/-! ## Deliveries -/

/-- A delivery of an event; its attempt is cut off after some statements, or not. -/
structure WebhookDelivery where
  users : AuthDb
  now : Time
  event : Json
  cutOff : Option Nat := none

section

variable (settings affiliates)

/-- The event is claimed and handled, whatever has been claimed before. -/
def applyEvent (d : WebhookDelivery) (s : BillingDb × σ) : Option (BillingDb × σ) :=
  match envelope d.event with
  | .error _ => none
  | .ok (eventId, eventType, data) =>
    match claimWebhookEvent eventId eventType s with
    | .error _ => none
    | .ok s => (handleEvent settings d.now affiliates d.users s.1 s.2 data eventType).toOption

/-- The event is a duplicate or fails, or it is new, and applied. -/
theorem processWebhookEvent_cases (d : WebhookDelivery) (s : BillingDb × σ) :
    let s' := match processWebhookEvent settings d.now affiliates d.users s.1 s.2 d.event with
      | .ok (_, s') => s'
      | .error _ => s
    s' = s ∨ ∃ id, eventId d.event = some id ∧ id ∉ s.1.events ∧ applyEvent settings affiliates d s = some s' ∧
      s'.1.events = s.1.events ++ [id] := by
  simp only [processWebhookEvent, bind, Except.bind, applyEvent]
  cases he : envelope d.event with
  | error e => exact .inl rfl
  | ok x =>
    obtain ⟨id, eventType, data⟩ := x
    have hid : eventId d.event = some id := by simp [eventId, he, Except.toOption]
    dsimp only
    by_cases hclaimed : id ∈ s.1.events
    · rw [if_pos hclaimed]
      exact .inl rfl
    rw [if_neg hclaimed]
    by_cases hfits : 100 < id.length || !eventType.fits
    · rw [if_pos hfits]
      exact .inl rfl
    rw [if_neg hfits, claimWebhookEvent, if_neg hfits]
    dsimp only
    cases hh : handleEvent settings d.now affiliates d.users { s.1 with events := s.1.events ++ [id] } s.2 data eventType with
    | error e => exact .inl rfl
    | ok s' => exact .inr ⟨id, hid, hclaimed, rfl, handleEvent_events hh⟩

/-- The webhook as a store of claims. -/
def webhook : Once (BillingDb × σ) WebhookDelivery String where
  key d := eventId d.event
  claims s := s.1.events
  apply := applyEvent settings affiliates
  attempt d s := (webhookProgram settings d.now affiliates d.users d.event).exec d.cutOff s s
  attempt_cases d s := by
    have hatomic := atomic_webhookProgram settings d.now affiliates d.users d.event
    rcases Program.exec_of_atomic hatomic d.cutOff s s with h | h
    · exact .inl h
    rw [h, exec_webhookProgram]
    exact processWebhookEvent_cases settings affiliates d s

end

/-- Whether it is a duplicate or not, what is processed without an exception is claimed. -/
theorem claimed_of_processed {d : WebhookDelivery} {s : BillingDb × σ} (hc : d.cutOff = none)
    (h : (processWebhookEvent settings d.now affiliates d.users s.1 s.2 d.event).toBool) :
    ∃ id, eventId d.event = some id ∧ id ∈ ((webhook settings affiliates).attempt d s).1.events := by
  show ∃ id, _ ∧ id ∈ ((webhookProgram settings d.now affiliates d.users d.event).exec d.cutOff s s).1.events
  rw [hc, exec_webhookProgram]
  cases hp : processWebhookEvent settings d.now affiliates d.users s.1 s.2 d.event with
  | error e => simp [hp, Except.toBool] at h
  | ok x =>
    obtain ⟨fresh, s'⟩ := x
    simp only [processWebhookEvent, bind, Except.bind] at hp
    cases he : envelope d.event with
    | error e => simp [he] at hp
    | ok x =>
      obtain ⟨id, eventType, data⟩ := x
      refine ⟨id, by simp [eventId, he, Except.toOption], ?_⟩
      simp only [he] at hp
      split at hp
      · cases hp
        assumption
      · split at hp
        · cases hp
        · split at hp
          · cases hp
          · rename_i hh
            cases hp
            show id ∈ _
            rw [handleEvent_events hh]
            exact List.mem_append_right _ (List.mem_singleton_self _)

/-- Every event whose processing succeeds is applied once, in the order of the first
successes, and nothing else is. -/
theorem webhook_exactlyOnce (s : BillingDb × σ) (deliveries : List WebhookDelivery) :
    let o := webhook settings affiliates
    let processed := o.successes s deliveries
    processed.foldlM (fun s d => applyEvent settings affiliates d s) s = some (o.attemptAll s deliveries) ∧
      (o.attemptAll s deliveries).1.events = s.1.events ++ processed.filterMap (fun d => eventId d.event) ∧
      (processed.filterMap fun d => eventId d.event).Nodup ∧
      (∀ id ∈ processed.filterMap (fun d => eventId d.event), id ∉ s.1.events) ∧
      ∀ before d after, deliveries = before ++ d :: after → d.cutOff = none →
        let s' := o.attemptAll s before
        (processWebhookEvent settings d.now affiliates d.users s'.1 s'.2 d.event).toBool →
          ∃ id, eventId d.event = some id ∧ id ∈ (o.attemptAll s deliveries).1.events := by
  intro o processed
  obtain ⟨hn, hfree⟩ := o.nodup_successes s deliveries
  refine ⟨o.apply_successes s deliveries, o.claims_attemptAll s deliveries, hn, hfree, ?_⟩
  intro before d after he hc s' hp
  obtain ⟨id, hid, hmem⟩ := claimed_of_processed hc hp
  refine ⟨id, hid, ?_⟩
  have hlater : o.attemptAll s deliveries = o.attemptAll (o.attempt d s') after := by
    rw [he, Once.attemptAll, List.foldl_append, List.foldl_cons]
    rfl
  have hclaims := o.claims_attemptAll (o.attempt d s') after
  rw [hlater]
  show id ∈ o.claims _
  rw [hclaims]
  exact List.mem_append_left _ hmem

end

end SignalSync
