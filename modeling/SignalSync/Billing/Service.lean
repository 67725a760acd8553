import SignalSync.Auth.Service
import SignalSync.Library.Json

/-!
# Subscriptions and the provider's webhook

The product catalog, the subscription rows and what `process_webhook_event` makes of
the provider's events. A user has one row and no two rows have one provider id, as the
fields of `BillingDb` say. What affiliates earn is the affiliate service's: the webhook
hands it the invoice and fails when it does.
-/

namespace SignalSync

open Library

/-! ## The catalog -/

inductive BillingPlan
  | journal | copy
deriving DecidableEq, Repr

inductive BillingStatus
  | active | past_due | unpaid | canceled
deriving DecidableEq, Repr

inductive BillingError
  | value_error (message : String)
  /-- What the database refuses: a unique key or a column's width. -/
  | database
  /-- Raised by the affiliate service. -/
  | affiliates
  | attribute_error
deriving DecidableEq, Repr

def MAX_COPY_ACCOUNTS : Nat := 10

structure ProductCatalog where
  journalProductId : String
  copyProductIds : List (Nat × String)
  tiers : ∀ tier, tier ∈ copyProductIds.map Prod.fst ↔ 1 ≤ tier ∧ tier ≤ MAX_COPY_ACCOUNTS
  nodup : (journalProductId :: copyProductIds.map Prod.snd).Nodup

def ProductCatalog.entitlementFor (catalog : ProductCatalog) (productId : String) : Except BillingError (BillingPlan × Nat) :=
  if productId = catalog.journalProductId then .ok (.journal, 0)
  else match catalog.copyProductIds.find? (·.2 = productId) with
  | some (accountLimit, _) => .ok (.copy, accountLimit)
  | none => .error (.value_error "Unknown Bachs product ID")

/-! ## Rows -/

structure BillingSubscription where
  userId : UserId
  providerCustomerId : Json := .null
  providerSubscriptionId : String
  providerProductId : String
  plan : BillingPlan
  status : BillingStatus
  copyAccountLimit : Nat
  currency : String
  amount : String
  currentPeriodStart : Option Time := none
  currentPeriodEnd : Option Time := none
  graceEndsAt : Option Time := none
  cancelAtPeriodEnd : Bool := false
  canceledAt : Option Time := none
  pendingPlan : Option BillingPlan := none
  pendingCopyAccountLimit : Option Nat := none
  pendingEffectiveAt : Option Time := none

/-- The widths of the row's columns. -/
def BillingSubscription.fits (subscription : BillingSubscription) : Bool :=
  subscription.providerSubscriptionId.length ≤ 100 && subscription.providerProductId.length ≤ 100 &&
    subscription.currency.length ≤ 3 && subscription.amount.length ≤ 32

/-- The rows, and the provider ids of the events that have been claimed. -/
structure BillingDb where
  subscriptions : List BillingSubscription := []
  events : List String := []
  unique_user : (subscriptions.map (·.userId)).Nodup := by exact List.nodup_nil
  unique_provider : (subscriptions.map (·.providerSubscriptionId)).Nodup := by exact List.nodup_nil

namespace BillingDb

def getSubscriptionForUser (db : BillingDb) (userId : UserId) : Option BillingSubscription :=
  db.subscriptions.find? (·.userId = userId)

def getSubscriptionByProviderId (db : BillingDb) (providerSubscriptionId : String) : Option BillingSubscription :=
  db.subscriptions.find? (·.providerSubscriptionId = providerSubscriptionId)

/-- The row written over the user's, or added. -/
def saveRows (db : BillingDb) (subscription : BillingSubscription) : List BillingSubscription :=
  if (db.getSubscriptionForUser subscription.userId).isSome then
    db.subscriptions.map fun row => if row.userId = subscription.userId then subscription else row
  else db.subscriptions ++ [subscription]

def save (db : BillingDb) (subscription : BillingSubscription) : Except BillingError BillingDb :=
  let rows := db.saveRows subscription
  if h : (rows.map (·.userId)).Nodup ∧ (rows.map (·.providerSubscriptionId)).Nodup then
    if subscription.fits then .ok { db with subscriptions := rows, unique_user := h.1, unique_provider := h.2 }
    else .error .database
  else .error .database

end BillingDb

/-! ## Entitlements -/

def hasPaidAccess (subscription : BillingSubscription) (now : Time) : Bool :=
  match subscription.status with
  | .active => subscription.currentPeriodEnd.all (now < ·)
  | .past_due => subscription.graceEndsAt.any (now < ·)
  | _ => false

def hasCopyAccess (subscription : BillingSubscription) (now : Time) : Bool :=
  subscription.plan = .copy && 0 < subscription.copyAccountLimit && hasPaidAccess subscription now

/-! ## The webhook -/

structure BillingSettings where
  /-- `ProductCatalog.from_settings()`. -/
  catalog : Except BillingError ProductCatalog
  billingGraceDays : Nat := 3
  /-- The user whose UUID a text spells. -/
  uuid : String → Option UserId

/-- The affiliate service over its own tables; `none` where it raises. -/
structure AffiliateService (σ : Type) where
  createCommissionFromPaidInvoice : BillingDb → Time → Json → σ → Option σ
  reverseCommission : Time → Json → String → σ → Option σ

section

variable [Python] (settings : BillingSettings) (now : Time)

def parseDatetime (value : Json) : Except BillingError (Option Time) :=
  match value.string?.filter (· ≠ "") with
  | none => .ok none
  | some text =>
    match Python.fromIsoFormat (text.replace "Z" "+00:00") with
    | some time => .ok (some time)
    | none => .error (.value_error "Invalid isoformat string")

/-- `_status`. -/
def billingStatus (value : Json) (deleted : Bool) : Except BillingError BillingStatus :=
  if deleted then .ok .canceled
  else if value.text = "active" then .ok .active
  else if value.text = "past_due" then .ok .past_due
  else if value.text = "unpaid" then .ok .unpaid
  else if value.text = "canceled" then .ok .canceled
  else .error (.value_error "Unsupported Bachs subscription status")

def BillingSettings.graceEnd : Time := now + seconds (settings.billingGraceDays * 86400)

/-- The status of a payload, with the grace period it begins or ends. -/
def BillingSubscription.withStatus (subscription : BillingSubscription) (status : BillingStatus) : BillingSubscription :=
  match status with
  | .past_due => { subscription with status, graceEndsAt := some (subscription.graceEndsAt.getD (settings.graceEnd now)) }
  | .active => { subscription with status, graceEndsAt := none }
  | _ => { subscription with status }

/-- The plan of a payload, unless it is the one that a downgrade is waiting for. -/
def BillingSubscription.entitle (subscription : BillingSubscription) (plan : BillingPlan) (accountLimit : Nat) : BillingSubscription :=
  let pendingMatches := subscription.pendingPlan = some plan && subscription.pendingCopyAccountLimit = some accountLimit &&
    subscription.pendingEffectiveAt.any (now < ·)
  if pendingMatches then subscription
  else
    { subscription with
      plan, copyAccountLimit := accountLimit, pendingPlan := none, pendingCopyAccountLimit := none, pendingEffectiveAt := none }

def providerIdOf (payload : Json) : Json := (payload.get "subscription_id").orElse (payload.get "id")

/-- `apply_subscription_payload`, with an existing row. -/
def applySubscriptionPayload (payload : Json) (subscription : BillingSubscription) (deleted : Bool) :
    Except BillingError BillingSubscription := do
  let catalog ← settings.catalog
  let productId := (payload.get "product_id").orElse ((payload.get "product").dictOrEmpty.get "id")
  match (providerIdOf payload).string?, productId.string? with
  | some providerSubscriptionId, some productId =>
    let (plan, accountLimit) ← catalog.entitlementFor productId
    let status ← billingStatus (payload.get "status") deleted
    let currentPeriodStart ← parseDatetime (payload.get "current_period_start")
    let currentPeriodEnd ← parseDatetime (payload.get "current_period_end")
    let canceledAt ← parseDatetime (payload.get "canceled_at")
    return BillingSubscription.withStatus settings now
      { subscription.entitle now plan accountLimit with
        providerSubscriptionId, providerProductId := productId
        providerCustomerId := ((payload.get "customer").dictOrEmpty.get "customer_id").orElse subscription.providerCustomerId
        currency := ((payload.get "currency").orElse ((Json.string subscription.currency).orElse (.string "USD"))).text
        amount := ((payload.get "amount").orElse ((Json.string subscription.amount).orElse (.string "0.00"))).text
        currentPeriodStart, currentPeriodEnd, cancelAtPeriodEnd := (payload.get "cancel_at_period_end").truthy
        canceledAt } status
  | _, _ => .error (.value_error "Bachs subscription payload is missing identifiers")

variable [Unicode]

/-- `_user_for_new_subscription`. -/
def userForNewSubscription (users : AuthDb) (data : Json) : Option UserId :=
  let rawUserId := (data.get "metadata").dictOrEmpty.get "tradepartna_user_id"
  let named := if rawUserId.truthy then
      (settings.uuid rawUserId.text).filter fun id => (users.userById id).isSome
    else none
  let email := (data.get "customer").dictOrEmpty.get "email"
  named.or (if email.truthy then users.userByEmail (Unicode.lower email.text) else none)

/-- The row that a subscription event is about; `none` where the event is ignored. -/
def subscriptionFor (users : AuthDb) (db : BillingDb) (created : Bool) (data : Json) :
    Except BillingError (Option BillingSubscription) :=
  let providerId := providerIdOf data
  match if providerId.truthy then db.getSubscriptionByProviderId providerId.text else none with
  | some subscription => .ok (some subscription)
  | none =>
    if !created then .ok none
    else match userForNewSubscription settings users data with
    | none => .error (.value_error "Bachs subscription customer is not a SignalSync user")
    | some userId =>
      match db.getSubscriptionForUser userId with
      | some subscription =>
        if subscription.status ≠ .canceled && subscription.status ≠ .unpaid &&
            subscription.providerSubscriptionId ≠ providerId.text then .ok none
        else .ok (some subscription)
      | none => do
        let catalog ← settings.catalog
        let productId := (data.get "product_id").text
        let (plan, accountLimit) ← catalog.entitlementFor productId
        return some
          { userId, providerSubscriptionId := providerId.text, providerProductId := productId, plan, status := .active
            copyAccountLimit := accountLimit, currency := ((data.get "currency").orElse (.string "USD")).text
            amount := ((data.get "amount").orElse (.string "0.00")).text }

def processSubscriptionEvent (users : AuthDb) (db : BillingDb) (created deleted : Bool) (data : Json) :
    Except BillingError BillingDb := do
  match ← subscriptionFor settings users db created data with
  | none => return db
  | some subscription => db.save (← applySubscriptionPayload settings now data subscription deleted)

/-- `invoice.payment_failed`. -/
def processPaymentFailed (db : BillingDb) (data : Json) : Except BillingError BillingDb :=
  let providerId := (data.get "subscription").dictOrEmpty.get "subscription_id"
  match db.getSubscriptionByProviderId providerId.text with
  | none => .ok db
  | some subscription => db.save (subscription.withStatus settings now .past_due)

def invoiceProviderId (data : Json) : Json :=
  let nested := (data.get "subscription").dictOrEmpty
  ((data.get "subscription_id").orElse (nested.get "subscription_id")).orElse (nested.get "id")

variable {σ : Type} (affiliates : AffiliateService σ)

/-- `invoice.paid`. -/
def processPaidInvoice (db : BillingDb) (tables : σ) (data : Json) : Except BillingError (BillingDb × σ) :=
  match db.getSubscriptionByProviderId (invoiceProviderId data).text with
  | none => .ok (db, tables)
  | some subscription =>
    if subscription.status = .canceled then .ok (db, tables)
    else do
      let db ← db.save (subscription.withStatus settings now .active)
      match affiliates.createCommissionFromPaidInvoice db now data tables with
      | some tables => return (db, tables)
      | none => .error .affiliates

def reverse (db : BillingDb) (tables : σ) (data : Json) (reason : String) : Except BillingError (BillingDb × σ) :=
  match affiliates.reverseCommission now data reason tables with
  | some tables => .ok (db, tables)
  | none => .error .affiliates

inductive EventType
  | created | updated | deleted | payment_failed | paid | refund_paid | dispute_created
  | other (type : String)
deriving DecidableEq, Repr

def EventType.of : String → EventType
  | "customer.subscription.created" => .created
  | "customer.subscription.updated" => .updated
  | "customer.subscription.deleted" => .deleted
  | "invoice.payment_failed" => .payment_failed
  | "invoice.paid" => .paid
  | "refund.paid" => .refund_paid
  | "dispute.created" => .dispute_created
  | type => .other type

/-- The width of the type's column. -/
def EventType.fits : EventType → Bool
  | .other type => type.length ≤ 100
  | _ => true

/-- An event's handling, once it is claimed. -/
def handleEvent (users : AuthDb) (db : BillingDb) (tables : σ) (data : Json) : EventType → Except BillingError (BillingDb × σ)
  | .created => (processSubscriptionEvent settings now users db true false data).map (·, tables)
  | .updated => (processSubscriptionEvent settings now users db false false data).map (·, tables)
  | .deleted => (processSubscriptionEvent settings now users db false true data).map (·, tables)
  | .payment_failed => (processPaymentFailed settings now db data).map (·, tables)
  | .paid => processPaidInvoice settings now affiliates db tables data
  | .refund_paid => reverse now affiliates db tables data "refund"
  | .dispute_created => reverse now affiliates db tables data "dispute"
  | .other _ => .ok (db, tables)

/-- The envelope of an event: its id, its type and its data. -/
def envelope (event : Json) : Except BillingError (String × EventType × Json) :=
  match event with
  | .object _ =>
    match (event.get "id").string?, (event.get "type").string?, event.get "data" with
    | some eventId, some eventType, .object fields => .ok (eventId, .of eventType, .object fields)
    | _, _, _ => .error (.value_error "Invalid Bachs webhook envelope")
  | _ => .error .attribute_error

def eventId (event : Json) : Option String := (envelope event).toOption.map (·.1)

/-- Whether the event was processed; what fails is rolled back, the claim too. -/
def processWebhookEvent (users : AuthDb) (db : BillingDb) (tables : σ) (event : Json) :
    Except BillingError (Bool × BillingDb × σ) := do
  let (eventId, eventType, data) ← envelope event
  if eventId ∈ db.events then return (false, db, tables)
  else if 100 < eventId.length || !eventType.fits then .error .database
  else do
    let (db, tables) ← handleEvent settings now affiliates users { db with events := db.events ++ [eventId] } tables data eventType
    return (true, db, tables)

end

end SignalSync
