import SignalSync.Billing.Cancellation

/-!
# Changes of a plan

A user with a subscription changes its plan: an upgrade is invoiced and written at once,
a downgrade waits for the end of the period. From then on `_effective_values` gives the
plan that was waiting, but the row keeps the old one, and that is what the next request
is compared with. A webhook that repeats the plan before then forgets the downgrade.
`followsEffective_iff` says which requests and webhooks this does not touch.

* `changePlan_decision`: a request is decided by the plan in the row;
* `BillingState.scheduledDowngrade_of_reach`: what waits in a row is a downgrade, in every run.
-/

namespace SignalSync

open Library

/-! ## What a subscription grants -/

/-- `_effective_values`. -/
def effectiveValues (subscription : BillingSubscription) (now : Time) : BillingPlan × Nat :=
  match subscription.pendingPlan, subscription.pendingEffectiveAt with
  | some pendingPlan, some pendingEffectiveAt =>
    if pendingEffectiveAt ≤ now then (pendingPlan, subscription.pendingCopyAccountLimit.getD 0)
    else (subscription.plan, subscription.copyAccountLimit)
  | _, _ => (subscription.plan, subscription.copyAccountLimit)

/-- `_is_upgrade`. -/
def isUpgrade (subscription : BillingSubscription) (targetPlan : BillingPlan) (targetAccounts : Nat) : Bool :=
  subscription.plan = .journal && targetPlan = .copy ||
    subscription.plan = .copy && targetPlan = .copy && subscription.copyAccountLimit < targetAccounts

def ProductCatalog.productFor (catalog : ProductCatalog) (plan : BillingPlan) (copyAccounts : Nat) : Except BillingError String :=
  match plan with
  | .journal => .ok catalog.journalProductId
  | .copy =>
    match catalog.copyProductIds.find? (·.1 = copyAccounts) with
    | some (_, productId) => .ok productId
    | none => .error (.value_error "Copy accounts must be between 1 and 10")

/-- The pairs that a catalog sells. -/
def Entitled (entitlement : BillingPlan × Nat) : Prop :=
  match entitlement.1 with
  | .journal => entitlement.2 = 0
  | .copy => 1 ≤ entitlement.2 ∧ entitlement.2 ≤ MAX_COPY_ACCOUNTS

instance (entitlement : BillingPlan × Nat) : Decidable (Entitled entitlement) := by
  unfold Entitled
  split <;> infer_instance

theorem Entitled.eq_of_snd {a b : BillingPlan × Nat} (ha : Entitled a) (hb : Entitled b) (h : a.2 = b.2) : a = b := by
  obtain ⟨plan, limit⟩ := a
  obtain ⟨plan', limit'⟩ := b
  cases plan <;> cases plan' <;> simp only [Entitled] at ha hb h <;> first | (subst h; rfl) | omega

theorem ProductCatalog.entitled {catalog : ProductCatalog} {productId : String} {entitlement : BillingPlan × Nat}
    (h : catalog.entitlementFor productId = .ok entitlement) : Entitled entitlement := by
  unfold entitlementFor at h
  split at h
  · cases h
    rfl
  · split at h
    · rename_i limit product hf
      cases h
      exact (catalog.tiers limit).1 (List.mem_map_of_mem (List.mem_of_find?_eq_some hf))
    · cases h

theorem ProductCatalog.exists_productFor (catalog : ProductCatalog) {entitlement : BillingPlan × Nat} (h : Entitled entitlement) :
    ∃ productId, catalog.productFor entitlement.1 entitlement.2 = .ok productId := by
  obtain ⟨plan, limit⟩ := entitlement
  cases plan with
  | journal => exact ⟨_, rfl⟩
  | copy =>
    obtain ⟨⟨tier, productId⟩, hmem, rfl⟩ := List.mem_map.mp ((catalog.tiers limit).2 h)
    cases hf : catalog.copyProductIds.find? (·.1 = tier) with
    | none => exact absurd (List.find?_eq_none.1 hf _ hmem) (by simp)
    | some found => exact ⟨found.2, by simp only [productFor, hf]⟩

/-! ## A request -/

structure CheckoutRequest where
  plan : BillingPlan
  copyAccounts : Nat := 1
  accounts : 1 ≤ copyAccounts ∧ copyAccounts ≤ 10 := by decide

/-- The plan asked for, with the accounts that it is to cover. -/
def CheckoutRequest.target (request : CheckoutRequest) : BillingPlan × Nat :=
  (request.plan, if request.plan = .copy then request.copyAccounts else 0)

theorem CheckoutRequest.entitled (request : CheckoutRequest) : Entitled request.target := by
  obtain ⟨plan, copyAccounts, haccounts⟩ := request
  cases plan with
  | journal => rfl
  | copy => exact haccounts

inductive ProrationBehavior
  | invoice_now | next_cycle
deriving DecidableEq, Repr

/-- What the provider is asked. -/
inductive BachsRequest
  | create_checkout (productId : String)
  | change_plan (subscriptionId productId : String) (prorationBehavior : ProrationBehavior)
deriving DecidableEq, Repr

/-- The provider's answer to a request, or the text of a `BachsError`. -/
abbrev BachsClient := BachsRequest → Except String Json

/-- `checkout_guard`; an error is the text of a `CheckoutGuardUnavailable`. -/
structure CheckoutGuard where
  acquire : Except String (Option String)
  store : String → Except String Unit

inductive PlanError
  | http_exception (statusCode : Nat) (detail : String)
  | billing (error : BillingError)
deriving DecidableEq, Repr

inductive PlanAction
  | checkout | updated | scheduled
deriving DecidableEq, Repr

/-- What became of a request: what the provider was asked, and the answer, with what is
committed. -/
structure PlanChange where
  asked : Option BachsRequest := none
  result : Except PlanError (PlanAction × Option String × BillingDb)

def alreadyActive : PlanError := .http_exception 409 "This subscription plan is already active."

section

variable [Python] (settings : BillingSettings) (now : Time) (guard : CheckoutGuard) (client : BachsClient)

/-- The branch of a user who has no subscription. -/
def startCheckout (db : BillingDb) (productId : String) : PlanChange :=
  match guard.acquire with
  | .error detail => { result := .error (.http_exception 503 detail) }
  | .ok openCheckout =>
    if openCheckout = some "creating" then
      { result := .error (.http_exception 409 "A checkout is already being prepared. Please wait a moment.") }
    else match openCheckout.filter (· ≠ "") with
    | some url => { result := .ok (.checkout, some url, db) }
    | none =>
      { asked := some (.create_checkout productId)
        result :=
          match client (.create_checkout productId) with
          | .error detail => .error (.http_exception 502 detail)
          | .ok answer =>
            match (answer.get "checkout_url").string?.filter (·.startsWith "https://") with
            | none => .error (.http_exception 502 "The billing provider returned no checkout URL")
            | some url =>
              match guard.store url with
              | .error detail => .error (.http_exception 503 detail)
              | .ok () => .ok (.checkout, some url, db) }

/-- The branch of a user who has one. -/
def changePlan (db : BillingDb) (subscription : BillingSubscription) (plan : BillingPlan) (targetAccounts : Nat) (productId : String) :
    PlanChange :=
  if subscription.plan = plan ∧ subscription.copyAccountLimit = targetAccounts then { result := .error alreadyActive }
  else
    let upgrade := isUpgrade subscription plan targetAccounts
    let request := .change_plan subscription.providerSubscriptionId productId (if upgrade then .invoice_now else .next_cycle)
    { asked := some request
      result :=
        match client request with
        | .error detail => .error (.http_exception 502 detail)
        | .ok answer =>
          if upgrade then
            match applySubscriptionPayload settings now answer subscription false >>= db.save with
            | .error e => .error (.billing e)
            | .ok db => .ok (.updated, none, db)
          else
            match db.save
              { subscription with
                providerProductId := productId, pendingPlan := some plan, pendingCopyAccountLimit := some targetAccounts
                pendingEffectiveAt := subscription.currentPeriodEnd } with
            | .error e => .error (.billing e)
            | .ok db => .ok (.scheduled, none, db) }

def startCheckoutOrChangePlan (db : BillingDb) (userId : UserId) (request : CheckoutRequest) : PlanChange :=
  let (plan, targetAccounts) := request.target
  match settings.catalog >>= (·.productFor plan targetAccounts) with
  | .error e => { result := .error (.billing e) }
  | .ok productId =>
    match db.getSubscriptionForUser userId with
    | none => startCheckout guard client db productId
    | some subscription =>
      if subscription.status = .canceled ∨ subscription.status = .unpaid then startCheckout guard client db productId
      else changePlan settings now client db subscription plan targetAccounts productId

end

/-! ## What a request is decided to be -/

inductive PlanDecision
  | already_active | upgrade | downgrade
deriving DecidableEq, Repr

/-- By what the provider was asked, and what was refused. -/
def PlanChange.decision (c : PlanChange) : Option PlanDecision :=
  match c.asked with
  | some (.change_plan _ _ .invoice_now) => some .upgrade
  | some (.change_plan _ _ .next_cycle) => some .downgrade
  | some (.create_checkout _) => none
  | none =>
    match c.result with
    | .error e => if e = alreadyActive then some .already_active else none
    | .ok _ => none

/-- The decision on a request by one who is entitled to `current`: the pairs that a
catalog sells are ordered by the accounts that they cover. -/
def PlanDecision.of (current target : BillingPlan × Nat) : PlanDecision :=
  if target.2 = current.2 then .already_active else if current.2 < target.2 then .upgrade else .downgrade

section

variable [Python] {settings : BillingSettings} {catalog : ProductCatalog} {now : Time} {guard : CheckoutGuard} {client : BachsClient}
  {db : BillingDb} {row : BillingSubscription}

omit [Python] in
theorem startCheckout_decision (productId : String) : (startCheckout guard client db productId).decision = none := by
  unfold startCheckout
  split
  · rfl
  · split_ifs
    · rfl
    · split <;> rfl

theorem changePlan_decision {target : BillingPlan × Nat} (hcurrent : Entitled (row.plan, row.copyAccountLimit))
    (htarget : Entitled target) (productId : String) :
    (changePlan settings now client db row target.1 target.2 productId).decision =
      some (.of (row.plan, row.copyAccountLimit) target) := by
  have hsame : (row.plan = target.1 ∧ row.copyAccountLimit = target.2) ↔ target.2 = row.copyAccountLimit :=
    ⟨fun h => h.2.symm, fun h => by
      have heq := htarget.eq_of_snd hcurrent h
      rw [heq]
      exact ⟨rfl, rfl⟩⟩
  have hupgrade : isUpgrade row target.1 target.2 = decide (row.copyAccountLimit < target.2) := by
    obtain ⟨plan, limit⟩ := target
    unfold isUpgrade
    cases hp : row.plan <;> cases plan <;> simp only [Entitled, hp] at hcurrent htarget ⊢ <;> simp <;> omega
  unfold changePlan PlanDecision.of
  rw [hupgrade]
  by_cases heq : target.2 = row.copyAccountLimit
  · rw [if_pos (hsame.2 heq), if_pos heq]
    rfl
  · rw [if_neg (mt hsame.1 heq), if_neg heq]
    by_cases hlt : row.copyAccountLimit < target.2
    · simp only [hlt, decide_true, if_true]
      rfl
    · simp only [hlt, decide_false, if_false]
      rfl

/-- A request is decided by the plan in the row. -/
theorem startCheckoutOrChangePlan_decision (hc : settings.catalog = .ok catalog) (hr : row ∈ db.subscriptions)
    (hcurrent : Entitled (row.plan, row.copyAccountLimit)) (request : CheckoutRequest) :
    (startCheckoutOrChangePlan settings now guard client db row.userId request).decision =
      if row.status = .canceled ∨ row.status = .unpaid then none
      else some (.of (row.plan, row.copyAccountLimit) request.target) := by
  obtain ⟨productId, hproduct⟩ := catalog.exists_productFor request.entitled
  have hcatalog : (settings.catalog >>= (·.productFor request.target.1 request.target.2)) = .ok productId := by
    rw [hc]
    exact hproduct
  simp only [startCheckoutOrChangePlan, hcatalog, BillingDb.getSubscriptionForUser_eq_some hr]
  split_ifs
  · exact startCheckout_decision productId
  · exact changePlan_decision hcurrent request.entitled productId

/-! ## A scheduled downgrade -/

/-- The row waits for `scheduled`, which is below what it grants until then. -/
structure ScheduledDowngrade (row : BillingSubscription) (scheduled : BillingPlan × Nat) (effectiveAt : Time) : Prop where
  plan : row.pendingPlan = some scheduled.1
  limit : row.pendingCopyAccountLimit = some scheduled.2
  effectiveAt : row.pendingEffectiveAt = some effectiveAt
  current : Entitled (row.plan, row.copyAccountLimit)
  entitled : Entitled scheduled
  lower : scheduled.2 < row.copyAccountLimit

variable {scheduled : BillingPlan × Nat} {effectiveAt : Time}

omit [Python] in
theorem ScheduledDowngrade.effectiveValues (h : ScheduledDowngrade row scheduled effectiveAt) (now : Time) :
    effectiveValues row now = if effectiveAt ≤ now then scheduled else (row.plan, row.copyAccountLimit) := by
  simp only [SignalSync.effectiveValues, h.plan, h.limit, h.effectiveAt, Option.getD_some]

def productIdOf (payload : Json) : Json := (payload.get "product_id").orElse ((payload.get "product").dictOrEmpty.get "id")

/-- What `apply_subscription_payload` can read of a payload. -/
structure ReadablePayload (payload : Json) (deleted : Bool) : Prop where
  id : ∃ providerSubscriptionId, providerIdOf payload = .string providerSubscriptionId
  status : ∃ status, billingStatus (payload.get "status") deleted = .ok status
  start : ∃ currentPeriodStart, parseDatetime (payload.get "current_period_start") = .ok currentPeriodStart
  period : ∃ currentPeriodEnd, parseDatetime (payload.get "current_period_end") = .ok currentPeriodEnd
  canceled : ∃ canceledAt, parseDatetime (payload.get "canceled_at") = .ok canceledAt

/-- The payload is of the plan in the row. -/
def Repeats (catalog : ProductCatalog) (row : BillingSubscription) (payload : Json) : Prop :=
  ∃ productId, productIdOf payload = .string productId ∧
    catalog.entitlementFor productId = .ok (row.plan, row.copyAccountLimit)

inductive PlanEvent
  | request (request : CheckoutRequest)
  | webhook (payload : Json) (deleted : Bool)

variable (settings guard client db row scheduled effectiveAt) in
/-- A request is decided by what the row grants now, and a webhook that repeats the plan
before the downgrade leaves the downgrade. -/
def FollowsEffective (catalog : ProductCatalog) (now : Time) : PlanEvent → Prop
  | .request request =>
    (startCheckoutOrChangePlan settings now guard client db row.userId request).decision =
      if row.status = .canceled ∨ row.status = .unpaid then none
      else some (.of (effectiveValues row now) request.target)
  | .webhook payload deleted =>
    Repeats catalog row payload → now < effectiveAt →
      ∀ row', applySubscriptionPayload settings now payload row deleted = .ok row' →
        row'.pendingPlan = row.pendingPlan ∧ row'.pendingCopyAccountLimit = row.pendingCopyAccountLimit ∧
          row'.pendingEffectiveAt = row.pendingEffectiveAt ∧ effectiveValues row' effectiveAt = scheduled

/-- A request comes before the downgrade, or is for more than the plan in the row or
for less than the one that waits; a webhook is of another plan, late or unreadable. -/
def Unaffected (row : BillingSubscription) (scheduled : BillingPlan × Nat) (effectiveAt : Time) (catalog : ProductCatalog)
    (now : Time) : PlanEvent → Prop
  | .request request =>
    now < effectiveAt ∨ row.status = .canceled ∨ row.status = .unpaid ∨
      row.copyAccountLimit < request.target.2 ∨ request.target.2 < scheduled.2
  | .webhook payload deleted => ¬ (Repeats catalog row payload ∧ now < effectiveAt ∧ ReadablePayload payload deleted)

/-! ## A webhook -/

omit [Python] in
/-- The plan in the row is not the one that waits, so the row stops waiting. -/
theorem ScheduledDowngrade.entitle (h : ScheduledDowngrade row scheduled effectiveAt) :
    (row.entitle now row.plan row.copyAccountLimit).pendingPlan = none := by
  have hlimit : row.pendingCopyAccountLimit ≠ some row.copyAccountLimit := by
    rw [h.limit]
    exact fun he => h.lower.ne (Option.some.inj he)
  simp [BillingSubscription.entitle, hlimit]

omit [Python] in
@[simp] theorem BillingSubscription.withStatus_pendingPlan (row : BillingSubscription) (status : BillingStatus) :
    (row.withStatus settings now status).pendingPlan = row.pendingPlan := by
  cases status <;> rfl

/-- A readable payload of the plan in the row is written, and nothing waits after it. -/
theorem applySubscriptionPayload_repeats (hc : settings.catalog = .ok catalog) (h : ScheduledDowngrade row scheduled effectiveAt)
    {payload : Json} {deleted : Bool} (hrepeats : Repeats catalog row payload) (hreadable : ReadablePayload payload deleted) :
    ∃ row', applySubscriptionPayload settings now payload row deleted = .ok row' ∧ row'.pendingPlan = none := by
  obtain ⟨productId, hproduct, hentitlement⟩ := hrepeats
  obtain ⟨⟨_, hid⟩, ⟨status, hstatus⟩, ⟨_, hstart⟩, ⟨_, hend⟩, ⟨_, hcanceled⟩⟩ := hreadable
  rw [productIdOf] at hproduct
  refine ⟨_, by
    simp only [applySubscriptionPayload, bind, Except.bind, pure, Except.pure, hc, hid, hproduct, Json.string?, hentitlement,
      hstatus, hstart, hend, hcanceled]
    rfl, ?_⟩
  rw [BillingSubscription.withStatus_pendingPlan]
  exact h.entitle

theorem readable_of_applySubscriptionPayload {payload : Json} {deleted : Bool} {row' : BillingSubscription}
    (h : applySubscriptionPayload settings now payload row deleted = .ok row') : ReadablePayload payload deleted := by
  obtain ⟨-, hid, hstatus, hend, -⟩ := applySubscriptionPayload_eq_ok h
  simp only [applySubscriptionPayload, bind, Except.bind, pure, Except.pure] at h
  split at h
  · cases h
  · split at h
    · split at h
      · cases h
      · split at h
        · cases h
        · split at h
          · cases h
          · rename_i currentPeriodStart hstart
            split at h
            · cases h
            · split at h
              · cases h
              · rename_i canceledAt hcanceled
                exact ⟨⟨_, hid⟩, ⟨_, hstatus⟩, ⟨_, hstart⟩, ⟨_, hend⟩, ⟨_, hcanceled⟩⟩
    · cases h

omit [Python] in
theorem PlanDecision.of_eq_of_iff {current target : BillingPlan × Nat} (h : scheduled.2 < current.2) :
    PlanDecision.of current target = .of scheduled target ↔ current.2 < target.2 ∨ target.2 < scheduled.2 := by
  unfold PlanDecision.of
  split_ifs <;> simp <;> omega

/-- Exactly these requests and webhooks are treated by what the row grants. -/
theorem followsEffective_iff (hc : settings.catalog = .ok catalog) (hr : row ∈ db.subscriptions)
    (h : ScheduledDowngrade row scheduled effectiveAt) (event : PlanEvent) :
    FollowsEffective settings guard client db row scheduled effectiveAt catalog now event ↔
      Unaffected row scheduled effectiveAt catalog now event := by
  cases event with
  | request request =>
    show (_ = _ ↔ _)
    rw [startCheckoutOrChangePlan_decision hc hr h.current, h.effectiveValues]
    simp only [Unaffected]
    by_cases hstatus : row.status = .canceled ∨ row.status = .unpaid
    · rw [if_pos hstatus, if_pos hstatus]
      exact iff_of_true rfl (.inr (hstatus.imp_right .inl))
    · have hlive : row.status ≠ .canceled ∧ row.status ≠ .unpaid := not_or.mp hstatus
      rw [if_neg hstatus, if_neg hstatus, Option.some_inj]
      by_cases hdue : effectiveAt ≤ now
      · rw [if_pos hdue, PlanDecision.of_eq_of_iff h.lower]
        simp only [hdue.not_gt, hlive.1, hlive.2, false_or]
      · rw [if_neg hdue]
        exact iff_of_true rfl (.inl (Nat.lt_of_not_le hdue))
  | webhook payload deleted =>
    constructor
    · rintro hfollows ⟨hrepeats, hbefore, hreadable⟩
      obtain ⟨row', happly, hnone⟩ : ∃ row', applySubscriptionPayload settings now payload row deleted = .ok row' ∧ _ :=
        applySubscriptionPayload_repeats hc h hrepeats hreadable
      have hkept := (hfollows hrepeats hbefore row' happly).1
      rw [hnone, h.plan] at hkept
      cases hkept
    · intro hclear hrepeats hbefore row' happly
      exact absurd ⟨hrepeats, hbefore, readable_of_applySubscriptionPayload happly⟩ hclear

/-! ## A downgrade from three accounts -/

/-- Three accounts until `10`, and the journal from then on. -/
def goldDowngrade : BillingSubscription where
  userId := 1
  providerSubscriptionId := "sub"
  providerProductId := "journal"
  plan := .copy
  status := .active
  copyAccountLimit := 3
  currency := "USD"
  amount := "30.00"
  currentPeriodEnd := some 10
  pendingPlan := some .journal
  pendingCopyAccountLimit := some 0
  pendingEffectiveAt := some 10

def goldDowngradeDb : BillingDb where
  subscriptions := [goldDowngrade]
  unique_user := by decide
  unique_provider := by decide

/-- A provider that does as it is asked, and says so. -/
def goldBachs : BachsClient
  | .create_checkout _ => .ok (.object [("checkout_url", .string "https://pay.example.com")])
  | .change_plan subscriptionId productId _ =>
    .ok (.object [("id", .string subscriptionId), ("product_id", .string productId), ("status", .string "active")])

/-- A payload of the plan in the row. -/
def goldRepeat : Json := .object [("id", .string "sub"), ("product_id", .string "copy-3"), ("status", .string "active")]

def freeGuard : CheckoutGuard := ⟨.ok none, fun _ => .ok ()⟩

omit [Python] in
theorem goldDowngrade_scheduled : ScheduledDowngrade goldDowngrade (.journal, 0) 10 :=
  ⟨rfl, rfl, rfl, by decide, by decide, by decide⟩

omit [Python] in
/-- A fourth account is an upgrade after the downgrade too. -/
theorem followsEffective_fourth :
    let _ : Python := ⟨fun _ => "", fun _ => none⟩
    FollowsEffective BillingState.goldBilling freeGuard goldBachs goldDowngradeDb goldDowngrade (.journal, 0) 10
      BillingState.goldCatalog 10 (.request { plan := .copy, copyAccounts := 4 }) := by
  intro _
  refine (followsEffective_iff rfl (List.mem_singleton_self _) goldDowngrade_scheduled _).2 ?_
  exact .inr (.inr (.inr (.inl (by decide))))

omit [Python] in
/-- The journal is in force, and three accounts are refused as active already; before
that, a webhook of the three accounts made the row forget the journal. -/
theorem goldDowngrade_forgotten :
    let _ : Python := ⟨fun _ => "", fun _ => none⟩
    ScheduledDowngrade goldDowngrade (.journal, 0) 10 ∧
      ¬ FollowsEffective BillingState.goldBilling freeGuard goldBachs goldDowngradeDb goldDowngrade (.journal, 0) 10
        BillingState.goldCatalog 10 (.request { plan := .copy, copyAccounts := 3 }) ∧
      ¬ FollowsEffective BillingState.goldBilling freeGuard goldBachs goldDowngradeDb goldDowngrade (.journal, 0) 10
        BillingState.goldCatalog 5 (.webhook goldRepeat false) := by
  intro _
  refine ⟨goldDowngrade_scheduled, fun h => ?_, fun h => ?_⟩
  · have hdecision : (startCheckoutOrChangePlan BillingState.goldBilling 10 freeGuard goldBachs goldDowngradeDb goldDowngrade.userId
        { plan := .copy, copyAccounts := 3 }).decision = some .already_active := by
      decide +kernel
    have hupgrade := hdecision.symm.trans h
    revert hupgrade
    decide +kernel
  · have hrepeats : Repeats BillingState.goldCatalog goldDowngrade goldRepeat := ⟨"copy-3", rfl, rfl⟩
    have hreadable : ReadablePayload goldRepeat false := ⟨⟨_, rfl⟩, ⟨.active, rfl⟩, ⟨_, rfl⟩, ⟨_, rfl⟩, ⟨_, rfl⟩⟩
    have hcatalog : BillingState.goldBilling.catalog = .ok BillingState.goldCatalog := rfl
    obtain ⟨row', happly, hnone⟩ := applySubscriptionPayload_repeats hcatalog goldDowngrade_scheduled hrepeats hreadable
    have hkept := (h hrepeats (by decide) row' happly).1
    rw [hnone] at hkept
    cases hkept

end

/-! ## What waits in a row -/

/-- The row grants what is sold, and waits for nothing or for less. -/
structure BillingSubscription.Planned (row : BillingSubscription) : Prop where
  current : Entitled (row.plan, row.copyAccountLimit)
  pending : row.pendingPlan = none ∨ ∃ scheduled : BillingPlan × Nat, row.pendingPlan = some scheduled.1 ∧
    row.pendingCopyAccountLimit = some scheduled.2 ∧ Entitled scheduled ∧ scheduled.2 < row.copyAccountLimit

def BillingDb.Planned (db : BillingDb) : Prop := ∀ row ∈ db.subscriptions, row.Planned

theorem BillingDb.Planned.save {db db' : BillingDb} {row : BillingSubscription} (h : db.Planned) (hr : row.Planned)
    (hsave : db.save row = .ok db') : db'.Planned := by
  intro other ho
  rcases (BillingDb.save_eq_ok hsave).2 other ho with rfl | ⟨hold, -⟩
  · exact hr
  · exact h other hold

namespace BillingSubscription.Planned

variable {settings : BillingSettings} {now : Time} {row : BillingSubscription}

theorem withStatus (h : row.Planned) (status : BillingStatus) : (row.withStatus settings now status).Planned := by
  cases status <;> exact ⟨h.current, h.pending⟩

theorem entitle (h : row.Planned) {plan : BillingPlan} {accountLimit : Nat} (he : Entitled (plan, accountLimit)) :
    (row.entitle now plan accountLimit).Planned := by
  unfold BillingSubscription.entitle
  dsimp only
  split
  · exact h
  · exact ⟨he, .inl rfl⟩

theorem payload [Python] (h : row.Planned) {payload : Json} {deleted : Bool} {row' : BillingSubscription}
    (happly : applySubscriptionPayload settings now payload row deleted = .ok row') : row'.Planned := by
  simp only [applySubscriptionPayload, bind, Except.bind, pure, Except.pure] at happly
  split at happly
  · cases happly
  · split at happly
    · split at happly
      · cases happly
      · rename_i hentitlement
        split at happly
        · cases happly
        · split at happly
          · cases happly
          · split at happly
            · cases happly
            · split at happly
              · cases happly
              · cases happly
                have hentitle : (row.entitle now _ _).Planned := h.entitle (ProductCatalog.entitled hentitlement)
                refine withStatus ?_ _
                exact ⟨hentitle.current, hentitle.pending⟩
    · cases happly

/-- Below the plan in the row there is what is neither it nor an upgrade. -/
theorem schedule (h : row.Planned) {target : BillingPlan × Nat} (ht : Entitled target)
    (hne : ¬ (row.plan = target.1 ∧ row.copyAccountLimit = target.2)) (hup : isUpgrade row target.1 target.2 = false)
    (productId : String) (effectiveAt : Option Time) :
    Planned
      { row with
        providerProductId := productId, pendingPlan := some target.1, pendingCopyAccountLimit := some target.2
        pendingEffectiveAt := effectiveAt } := by
  refine ⟨h.current, .inr ⟨target, rfl, rfl, ht, ?_⟩⟩
  have hcurrent := h.current
  obtain ⟨plan, limit⟩ := target
  unfold isUpgrade at hup
  cases hp : row.plan <;> cases plan <;> simp_all [Entitled] <;> omega

end BillingSubscription.Planned

section

variable [Python] (settings : BillingSettings) (now : Time)

/-- The provider's answer to the cancellation is a parameter. -/
def cancelSubscription (db : BillingDb) (userId : UserId) (answer : Except String Json) : Except PlanError BillingDb :=
  match db.getSubscriptionForUser userId with
  | none => .error (.http_exception 404 "No active subscription was found.")
  | some subscription =>
    if subscription.status = .canceled then .error (.http_exception 404 "No active subscription was found.")
    else if subscription.cancelAtPeriodEnd then .error (.http_exception 409 "Cancellation is already scheduled.")
    else match answer with
    | .error detail => .error (.http_exception 502 detail)
    | .ok result =>
      let cancelAtPeriodEnd :=
        match result with
        | .object fields => ((fields.lookup "cancel_at_period_end").getD (.bool true)).truthy
        | _ => true
      match parseDatetime (result.get "current_period_end") with
      | .error e => .error (.billing e)
      | .ok currentPeriodEnd =>
        match db.save { subscription with cancelAtPeriodEnd, currentPeriodEnd := currentPeriodEnd.or subscription.currentPeriodEnd } with
        | .error e => .error (.billing e)
        | .ok db => .ok db

variable [Unicode] {σ : Type} (affiliates : AffiliateService σ)

inductive PlanLabel
  | billing (a : BillingLabel)
  | change (userId : UserId) (request : CheckoutRequest) (guard : CheckoutGuard) (client : BachsClient)
  | cancel (userId : UserId) (answer : Except String Json)

/-- What comes from the provider, from the users and with time. -/
def BillingState.planStep (s : BillingState σ) : PlanLabel → Option (BillingState σ)
  | .billing a => s.step settings affiliates a
  | .change userId request guard client =>
    match (startCheckoutOrChangePlan settings s.now guard client s.db userId request).result with
    | .ok (_, _, db) => some { s with db }
    | .error _ => some s
  | .cancel userId answer =>
    match cancelSubscription s.db userId answer with
    | .ok db => some { s with db }
    | .error _ => some s

end

namespace BillingDb.Planned

variable [Python] {settings : BillingSettings} {now : Time} {db db' : BillingDb}

omit [Python] in
theorem getSubscriptionForUser (h : db.Planned) {userId : UserId} {row : BillingSubscription}
    (hf : db.getSubscriptionForUser userId = some row) : row.Planned :=
  h row (List.mem_of_find?_eq_some hf)

omit [Python] in
theorem startCheckout_db {guard : CheckoutGuard} {client : BachsClient} {productId : String} {action : PlanAction}
    {url : Option String} (h : (startCheckout guard client db productId).result = .ok (action, url, db')) : db' = db := by
  unfold startCheckout at h
  repeat' split at h
  all_goals cases h
  all_goals rfl

theorem changePlan (h : db.Planned) {guard : CheckoutGuard} {client : BachsClient} {userId : UserId} {request : CheckoutRequest}
    {action : PlanAction} {url : Option String}
    (hresult : (startCheckoutOrChangePlan settings now guard client db userId request).result = .ok (action, url, db')) :
    db'.Planned := by
  unfold startCheckoutOrChangePlan at hresult
  dsimp only at hresult
  split at hresult
  · cases hresult
  · split at hresult
    · exact startCheckout_db hresult ▸ h
    · rename_i row hrow
      have hplanned := h.getSubscriptionForUser hrow
      split_ifs at hresult
      · exact startCheckout_db hresult ▸ h
      · unfold SignalSync.changePlan at hresult
        split at hresult
        · cases hresult
        · rename_i hsame
          dsimp only at hresult
          split at hresult
          · cases hresult
          · split at hresult
            · split at hresult
              · cases hresult
              · rename_i hwritten
                cases hresult
                simp only [bind, Except.bind] at hwritten
                split at hwritten
                · cases hwritten
                · rename_i happly
                  exact h.save (hplanned.payload happly) hwritten
            · rename_i hup
              split at hresult
              · cases hresult
              · rename_i hsave
                cases hresult
                exact h.save (hplanned.schedule request.entitled hsame (by simpa using hup) _ _) hsave

theorem cancel (h : db.Planned) {userId : UserId} {answer : Except String Json}
    (hresult : cancelSubscription db userId answer = .ok db') : db'.Planned := by
  unfold cancelSubscription at hresult
  split at hresult
  · cases hresult
  · rename_i row hrow
    split_ifs at hresult
    split at hresult
    · cases hresult
    · dsimp only at hresult
      split at hresult
      · cases hresult
      · split at hresult
        · cases hresult
        · rename_i hsave
          cases hresult
          have hplanned := h.getSubscriptionForUser hrow
          refine h.save ?_ hsave
          exact ⟨hplanned.current, hplanned.pending⟩

variable [Unicode] {users : AuthDb} {σ : Type} {affiliates : AffiliateService σ} {tables : σ}

theorem subscriptionFor (h : db.Planned) {created : Bool} {data : Json} {row : BillingSubscription}
    (hf : subscriptionFor settings users db created data = .ok (some row)) : row.Planned := by
  simp only [SignalSync.subscriptionFor, bind, Except.bind, pure, Except.pure] at hf
  split at hf
  · rename_i found hfound
    cases hf
    split at hfound
    · exact h row (List.mem_of_find?_eq_some hfound)
    · cases hfound
  · split at hf
    · cases hf
    · split at hf
      · cases hf
      · split at hf
        · rename_i found hfound
          split at hf
          · cases hf
          · cases hf
            exact h.getSubscriptionForUser hfound
        · split at hf
          · cases hf
          · split at hf
            · cases hf
            · rename_i hentitlement
              cases hf
              exact ⟨ProductCatalog.entitled hentitlement, .inl rfl⟩

theorem subscriptionEvent (h : db.Planned) {created deleted : Bool} {data : Json}
    (hp : processSubscriptionEvent settings now users db created deleted data = .ok db') : db'.Planned := by
  rcases BillingState.processSubscriptionEvent_eq_ok hp with ⟨-, rfl⟩ | ⟨row, row', hfound, happly, hsave⟩
  · exact h
  · exact h.save ((h.subscriptionFor hfound).payload happly) hsave

theorem handleEvent (h : db.Planned) {data : Json} {type : EventType} {handled : BillingDb × σ}
    (hp : handleEvent settings now affiliates users db tables data type = .ok handled) : handled.1.Planned := by
  cases type with
  | created | updated | deleted => exact h.subscriptionEvent (BillingState.eq_ok_of_map hp)
  | payment_failed =>
    have hp := BillingState.eq_ok_of_map hp
    unfold processPaymentFailed at hp
    dsimp only at hp
    split at hp
    · cases hp
      exact h
    · rename_i row hrow
      exact h.save ((h row (List.mem_of_find?_eq_some hrow)).withStatus _) hp
  | paid =>
    simp only [SignalSync.handleEvent, processPaidInvoice, bind, Except.bind, pure, Except.pure] at hp
    split at hp
    · cases hp
      exact h
    · rename_i row hrow
      split at hp
      · cases hp
        exact h
      · split at hp
        · cases hp
        · rename_i hsave
          split at hp
          · cases hp
            exact h.save ((h row (List.mem_of_find?_eq_some hrow)).withStatus _) hsave
          · cases hp
  | refund_paid | dispute_created =>
    rw [BillingState.reverse_eq_ok hp]
    exact h
  | other type =>
    cases hp
    exact h

end BillingDb.Planned

namespace BillingState

variable [Python] [Unicode] {settings : BillingSettings} {σ : Type} {affiliates : AffiliateService σ} {s t start : BillingState σ}

theorem planned_planStep {a : PlanLabel} (h : s.db.Planned) (hs : s.planStep settings affiliates a = some t) : t.db.Planned := by
  cases a with
  | billing a =>
    cases a with
    | deliver event =>
      simp only [planStep, step] at hs
      split at hs
      · rename_i processed db tables hp
        cases hs
        simp only [processWebhookEvent, bind, Except.bind, pure, Except.pure] at hp
        split at hp
        · cases hp
        · split_ifs at hp
          · cases hp
            exact h
          · split at hp
            · cases hp
            · rename_i handled hhandled
              cases hp
              refine BillingDb.Planned.handleEvent ?_ hhandled
              exact h
      · cases hs
        exact h
    | users users =>
      cases hs
      exact h
    | tick duration =>
      cases hs
      exact h
  | change userId request guard client =>
    simp only [planStep] at hs
    split at hs
    · rename_i hresult
      cases hs
      exact h.changePlan hresult
    · cases hs
      exact h
  | cancel userId answer =>
    simp only [planStep] at hs
    split at hs
    · rename_i hresult
      cases hs
      exact h.cancel hresult
    · cases hs
      exact h

/-- What waits for its time in a reachable row is a downgrade. -/
theorem scheduledDowngrade_of_reach (hstart : start.db.subscriptions = []) (h : Reach (planStep settings affiliates) always start s)
    {row : BillingSubscription} (hr : row ∈ s.db.subscriptions) (hp : row.pendingPlan.isSome) {effectiveAt : Time}
    (he : row.pendingEffectiveAt = some effectiveAt) : ∃ scheduled, ScheduledDowngrade row scheduled effectiveAt := by
  have hplanned : s.db.Planned := h.invariant (P := fun s => s.db.Planned) (fun row hr => by rw [hstart] at hr; cases hr)
    fun _ _ _ hplanned _ hs => planned_planStep hplanned hs
  obtain ⟨hcurrent, hnone | ⟨scheduled, hplan, hlimit, hentitled, hlower⟩⟩ := hplanned row hr
  · rw [hnone] at hp
    cases hp
  · exact ⟨scheduled, hplan, hlimit, he, hcurrent, hentitled, hlower⟩

end BillingState

end SignalSync
