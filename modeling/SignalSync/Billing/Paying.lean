import SignalSync.Billing.Cancellation

/-!
# A customer who pays

All events about one customer, delivered in any order and any number of times. The
webhook drops what it takes for a duplicate or cannot link, and acknowledges it; it
does not compare an event with what it has already seen. Where the newest state of the
active subscription is not dropped, and nothing older comes after it, the customer's
row is that subscription's in the end, and gives access.

* `subscriptionFor_cases`: the rows a subscription event is written to;
* `Served.step`: once the newest state has come, the row stays that subscription's.
-/

namespace SignalSync

open Library

/-! ## What a subscription event is written to -/

section

variable [Python] {settings : BillingSettings} {now : Time} {payload : Json} {row row' : BillingSubscription} {deleted : Bool}

/-- The downgrade that the row is waiting for is the plan of a payload. -/
def BillingSubscription.waitsFor (row : BillingSubscription) (now : Time) (plan : BillingPlan) (accountLimit : Nat) : Bool :=
  row.pendingPlan = some plan && row.pendingCopyAccountLimit = some accountLimit && row.pendingEffectiveAt.any (now < ·)

theorem applySubscriptionPayload_plan {catalog : ProductCatalog} {productId : String} {plan : BillingPlan} {accountLimit : Nat}
    (h : applySubscriptionPayload settings now payload row deleted = .ok row') (hc : settings.catalog = .ok catalog)
    (hp : ((payload.get "product_id").orElse ((payload.get "product").dictOrEmpty.get "id")).string? = some productId)
    (he : catalog.entitlementFor productId = .ok (plan, accountLimit)) :
    row'.plan = if row.waitsFor now plan accountLimit then row.plan else plan := by
  have hplan : (row.entitle now plan accountLimit).plan = if row.waitsFor now plan accountLimit then row.plan else plan := by
    unfold BillingSubscription.entitle BillingSubscription.waitsFor
    dsimp only
    split <;> rfl
  have hstatus (row : BillingSubscription) (status : BillingStatus) : (row.withStatus settings now status).plan = row.plan := by
    cases status <;> rfl
  simp only [applySubscriptionPayload, bind, Except.bind, pure, Except.pure, hc, hp] at h
  split at h
  · rename_i hid hproduct
    cases hproduct
    simp only [he] at h
    split at h
    · cases h
    · split at h
      · cases h
      · split at h
        · cases h
        · split at h
          · cases h
          · cases h
            rw [hstatus]
            exact hplan
  · cases h

variable [Unicode] {users : AuthDb} {db : BillingDb} {created : Bool} {data : Json}

/-- The row with the event's provider id; or, of a creation, the customer's, if it is
cancelled, unpaid or new. -/
theorem subscriptionFor_cases (h : subscriptionFor settings users db created data = .ok (some row)) :
    row ∈ db.subscriptions ∧ row.providerSubscriptionId = (providerIdOf data).text ∨
      created ∧ userForNewSubscription settings users data = some row.userId ∧
        (db.getSubscriptionForUser row.userId = none ∧ row.pendingPlan = none ∨
          db.getSubscriptionForUser row.userId = some row ∧
            (row.status = .canceled ∨ row.status = .unpaid ∨ row.providerSubscriptionId = (providerIdOf data).text)) := by
  simp only [subscriptionFor, bind, Except.bind, pure, Except.pure] at h
  split at h
  · rename_i found hfound
    cases h
    split at hfound
    · exact .inl (BillingDb.getSubscriptionByProviderId_eq_some hfound)
    · cases hfound
  · split at h
    · cases h
    · rename_i hcreated
      have hcreated : created := by simpa using hcreated
      split at h
      · cases h
      · rename_i userId huser
        split at h
        · rename_i found hfound
          have hid : found.userId = userId := by simpa using List.find?_some hfound
          split at h
          · cases h
          · rename_i hfree
            cases h
            refine .inr ⟨hcreated, hid ▸ huser, .inr ⟨hid ▸ hfound, ?_⟩⟩
            by_contra hno
            simp only [not_or] at hno
            exact hfree (by simp [hno])
        · rename_i hnone
          split at h
          · cases h
          · split at h
            · cases h
            · cases h
              exact .inr ⟨hcreated, huser, .inl ⟨hnone, rfl⟩⟩

/-- An event of another subscription is not written to the row of a live one. -/
theorem userId_ne_of_subscriptionFor (h : subscriptionFor settings users db created data = .ok (some row)) {live : BillingSubscription}
    (hl : live ∈ db.subscriptions) (hs : live.status ≠ .canceled ∧ live.status ≠ .unpaid)
    (hne : live.providerSubscriptionId ≠ (providerIdOf data).text) : live.userId ≠ row.userId := by
  intro huser
  have hsame (hr : row ∈ db.subscriptions) : row = live := List.inj_on_of_nodup_map db.unique_user hr hl huser.symm
  rcases subscriptionFor_cases h with ⟨hr, hid⟩ | ⟨-, -, ⟨hnone, -⟩ | ⟨hrow, hfree⟩⟩
  · exact hne (hsame hr ▸ hid)
  · exact List.find?_eq_none.1 hnone live hl (by simpa using huser)
  · rw [hsame (List.mem_of_find?_eq_some hrow)] at hfree
    rcases hfree with hfree | hfree | hfree
    · exact hs.1 hfree
    · exact hs.2 hfree
    · exact hne hfree

end

/-! ## The events of one customer -/

/-- All events of a customer, and the subscription that is active at the provider in the
end. `newest` is the event with its last state. -/
structure PayingCustomer [Python] (settings : BillingSettings) where
  userId : UserId
  subscriptionId : String
  subscriptionId_ne : subscriptionId ≠ ""
  plan : BillingPlan
  accountLimit : Nat
  currentPeriodEnd : Option Time
  events : List Json
  identified : (events.filterMap eventId).Nodup
  newest : Nat
  newestId : String
  newestType : EventType
  newestData : Json
  newest_envelope : (events[newest]?).map envelope = some (.ok (newestId, newestType, newestData))
  newest_type : newestType = .created ∨ newestType = .updated
  newest_subscription : providerIdOf newestData = .string subscriptionId
  newest_plan : ∃ catalog productId, settings.catalog = .ok catalog ∧
    ((newestData.get "product_id").orElse ((newestData.get "product").dictOrEmpty.get "id")).string? = some productId ∧
    catalog.entitlementFor productId = .ok (plan, accountLimit)
  newest_status : billingStatus (newestData.get "status") false = .ok .active
  newest_period : parseDatetime (newestData.get "current_period_end") = .ok currentPeriodEnd

inductive PayingLabel
  /-- Event `i` is delivered, or delivered again. -/
  | deliver (i : Nat)
  | users (users : AuthDb)
  | tick (duration : Time)

namespace PayingCustomer

variable [Python] [Unicode] {σ : Type} {settings : BillingSettings} (c : PayingCustomer settings) (affiliates : AffiliateService σ)

def step (s : BillingState σ) : PayingLabel → Option (BillingState σ)
  | .deliver i => (c.events[i]?).bind fun event => s.step settings affiliates (.deliver event)
  | .users users => s.step settings affiliates (.users users)
  | .tick duration => s.step settings affiliates (.tick duration)

/-- An invoice of the subscription that has been paid is still to come. -/
def paymentPending (delivered : List String) : Bool :=
  c.events.any fun event =>
    match envelope event with
    | .ok (eventId, .paid, data) => (invoiceProviderId data).text = c.subscriptionId && eventId ∉ delivered
    | _ => false

/-- The newest state finds its row: the customer's, which is the subscription's or, if
it comes with its creation, is missing, cancelled or unpaid; and no downgrade
to its plan is waiting. -/
def Links (s : BillingState σ) (eventType : EventType) : Prop :=
  match s.db.getSubscriptionForUser c.userId with
  | none => eventType = .created
  | some row =>
    (row.providerSubscriptionId = c.subscriptionId ∨ eventType = .created ∧ (row.status = .canceled ∨ row.status = .unpaid)) ∧
      (row.waitsFor s.now c.plan c.accountLimit → row.plan = c.plan)

/-- What an event of the subscription, new to the webhook, does no harm by: a creation
finds its customer, the newest state its row, an older state comes before the newest, and a
failed invoice before it or before a paid one. -/
def Keeps (s : BillingState σ) : PayingLabel → Prop
  | .deliver i =>
    match (c.events[i]?).map envelope with
    | some (.ok (eventId, eventType, data)) =>
      eventId ∉ s.db.events →
        match eventType with
        | .created | .updated | .deleted =>
          (providerIdOf data).text = c.subscriptionId →
            (eventType = .created → ∀ userId ∈ userForNewSubscription settings s.users data, userId = c.userId) ∧
              if eventId = c.newestId then c.Links s eventType else c.newestId ∉ s.db.events
        | .payment_failed =>
          ((data.get "subscription").dictOrEmpty.get "subscription_id").text = c.subscriptionId →
            c.newestId ∉ s.db.events ∨ c.paymentPending s.db.events
        | _ => True
    | _ => True
  | _ => True

instance (s : BillingState σ) (eventType : EventType) : Decidable (c.Links s eventType) := by
  unfold Links
  split <;> infer_instance

instance (s : BillingState σ) (a : PayingLabel) : Decidable (c.Keeps s a) := by
  unfold Keeps
  split
  · split
    · refine @instDecidableForall _ _ inferInstance ?_
      split <;> infer_instance
    · infer_instance
  · infer_instance

/-- The row of the subscription is the customer's; once the newest state has come, it
has its plan and its period, and is active or about to be paid. -/
def Served (s : BillingState σ) : Prop :=
  (∀ row ∈ s.db.subscriptions, row.providerSubscriptionId = c.subscriptionId → row.userId = c.userId) ∧
    (c.newestId ∈ s.db.events → ∃ row ∈ s.db.subscriptions, row.providerSubscriptionId = c.subscriptionId ∧ row.plan = c.plan ∧
      row.currentPeriodEnd = c.currentPeriodEnd ∧ (row.status = .active ∨ row.status = .past_due ∧ c.paymentPending s.db.events))

variable {c affiliates} {s t : BillingState σ} {a : PayingLabel}

omit [Unicode] in
/-- Two events of the customer have two ids. -/
theorem envelope_inj {i j : Nat} {id : String} {x y : EventType × Json} (hi : (c.events[i]?).map envelope = some (.ok (id, x)))
    (hj : (c.events[j]?).map envelope = some (.ok (id, y))) : x = y := by
  obtain ⟨_, he, hi⟩ := Option.map_eq_some_iff.mp hi
  obtain ⟨_, hn, hj⟩ := Option.map_eq_some_iff.mp hj
  obtain ⟨hlt, rfl⟩ := List.getElem?_eq_some_iff.mp he
  obtain ⟨hlt', rfl⟩ := List.getElem?_eq_some_iff.mp hn
  have hpair := List.pairwise_iff_getElem.mp (List.pairwise_filterMap.mp c.identified)
  have hid : eventId c.events[i] = some id := by simp [eventId, hi, Except.toOption]
  have hid' : eventId c.events[j] = some id := by simp [eventId, hj, Except.toOption]
  rcases Nat.lt_trichotomy i j with hl | rfl | hl
  · exact absurd rfl (hpair i j hlt hlt' hl _ hid _ hid')
  · cases hi.symm.trans hj
    rfl
  · exact absurd rfl (hpair j i hlt' hlt hl _ hid' _ hid)

omit [Unicode] in
theorem paymentPending_iff {delivered : List String} : c.paymentPending delivered ↔
    ∃ (j : Nat) (id : String) (data : Json), (c.events[j]?).map envelope = some (.ok (id, .paid, data)) ∧
      (invoiceProviderId data).text = c.subscriptionId ∧ id ∉ delivered := by
  unfold paymentPending
  rw [List.any_eq_true]
  constructor
  · rintro ⟨event, he, hp⟩
    obtain ⟨j, hj⟩ := List.mem_iff_getElem?.mp he
    split at hp
    · rename_i id data henvelope
      simp only [Bool.and_eq_true, decide_eq_true_eq] at hp
      exact ⟨j, id, data, by rw [hj, Option.map_some, henvelope], hp⟩
    · cases hp
  · rintro ⟨j, id, data, hj, hp⟩
    obtain ⟨event, he, henvelope⟩ := Option.map_eq_some_iff.mp hj
    exact ⟨event, List.mem_of_getElem? he, by simp [henvelope, hp]⟩

section

variable {i : Nat} {id : String} {eventType : EventType} {data : Json}
  (hi : (c.events[i]?).map envelope = some (.ok (id, eventType, data)))
include hi

omit [Unicode] in
/-- Only a paid invoice of the subscription uses up a payment. -/
theorem paymentPending_concat {delivered : List String} (hne : ¬ (eventType = .paid ∧ (invoiceProviderId data).text = c.subscriptionId))
    (h : c.paymentPending delivered) : c.paymentPending (delivered ++ [id]) := by
  obtain ⟨j, id', data', hj, hsub, hid⟩ := paymentPending_iff.1 h
  refine paymentPending_iff.2 ⟨j, id', data', hj, hsub, ?_⟩
  simp only [List.mem_append, List.mem_singleton, not_or]
  refine ⟨hid, fun he => hne ?_⟩
  cases envelope_inj hi (he ▸ hj)
  exact ⟨rfl, hsub⟩

omit [Unicode] in
/-- What the event of the newest state is. -/
theorem eq_newest (h : id = c.newestId) : eventType = c.newestType ∧ data = c.newestData := by
  subst h
  cases envelope_inj hi c.newest_envelope
  exact ⟨rfl, rfl⟩

/-! ## Every event -/

omit [Unicode] in
/-- A row is saved: it serves, or it is another user's. -/
theorem Served.save (h : c.Served s) {row : BillingSubscription} {db : BillingDb}
    (hsave : BillingDb.save { s.db with events := s.db.events ++ [id] } row = .ok db) (tables : σ) (deleted : List String)
    (howner : row.providerSubscriptionId = c.subscriptionId → row.userId = c.userId)
    (hserves : c.newestId ∈ s.db.events ++ [id] →
      row.providerSubscriptionId = c.subscriptionId ∧ row.plan = c.plan ∧ row.currentPeriodEnd = c.currentPeriodEnd ∧
          (row.status = .active ∨ row.status = .past_due ∧ c.paymentPending (s.db.events ++ [id])) ∨
        c.newestId ∈ s.db.events ∧ ¬ (eventType = .paid ∧ (invoiceProviderId data).text = c.subscriptionId) ∧
          ∀ live ∈ s.db.subscriptions, live.providerSubscriptionId = c.subscriptionId →
            live.status ≠ .canceled ∧ live.status ≠ .unpaid → live.userId ≠ row.userId) :
    c.Served { s with db, tables, deleted } := by
  obtain ⟨hevents, hrows⟩ := BillingDb.save_eq_ok hsave
  obtain ⟨hmem, hkept⟩ := BillingDb.mem_of_save hsave
  refine ⟨fun other hother hid => ?_, fun hnewest => ?_⟩
  · rcases hrows other hother with rfl | ⟨hold, -⟩
    · exact howner hid
    · exact h.1 other hold hid
  · simp only [hevents] at hnewest ⊢
    rcases hserves hnewest with ⟨hid, hplan, hperiod, hs⟩ | ⟨hnewest, hne, hlive⟩
    · exact ⟨row, hmem, hid, hplan, hperiod, hs⟩
    · obtain ⟨live, hl, hid, hplan, hperiod, hs⟩ := h.2 hnewest
      refine ⟨live, hkept live hl (hlive live hl hid ?_), hid, hplan, hperiod,
        hs.imp_right fun hs => ⟨hs.1, paymentPending_concat hi hne hs.2⟩⟩
      rcases hs with hs | ⟨hs, -⟩ <;> simp [hs]

omit [Unicode] in
/-- An event is ignored. -/
theorem Served.ignored (h : c.Served s) (tables : σ) (deleted : List String) (hnewest : id ≠ c.newestId)
    (hne : c.newestId ∈ s.db.events → ¬ (eventType = .paid ∧ (invoiceProviderId data).text = c.subscriptionId)) :
    c.Served { s with db := { s.db with events := s.db.events ++ [id] }, tables, deleted } := by
  refine ⟨h.1, fun hn => ?_⟩
  have hn : c.newestId ∈ s.db.events := by simpa [Ne.symm hnewest] using hn
  obtain ⟨live, hl, hid, hplan, hperiod, hs⟩ := h.2 hn
  exact ⟨live, hl, hid, hplan, hperiod, hs.imp_right fun hs => ⟨hs.1, paymentPending_concat hi (hne hn) hs.2⟩⟩

omit hi in
/-- The newest state is not ignored. -/
theorem subscriptionFor_ne_none {users : AuthDb} {db : BillingDb} (hdb : db.subscriptions = s.db.subscriptions)
    (hsub : providerIdOf data = .string c.subscriptionId) (hl : c.Links s eventType)
    (huser : eventType = .created → ∀ userId ∈ userForNewSubscription settings users data, userId = c.userId) :
    subscriptionFor settings users db (eventType = .created) data ≠ .ok none := by
  have ht : (providerIdOf data).truthy = true := by simp [hsub, Json.truthy, c.subscriptionId_ne]
  have hfor : db.getSubscriptionForUser = s.db.getSubscriptionForUser := by
    unfold BillingDb.getSubscriptionForUser
    rw [hdb]
  have hby : db.getSubscriptionByProviderId = s.db.getSubscriptionByProviderId := by
    unfold BillingDb.getSubscriptionByProviderId
    rw [hdb]
  simp only [subscriptionFor, bind, Except.bind, pure, Except.pure, ht, if_true, hfor, hby]
  unfold Links at hl
  cases hrow : s.db.getSubscriptionByProviderId (providerIdOf data).text with
  | some row => simp
  | none =>
    have hno : ∀ row, s.db.getSubscriptionForUser c.userId = some row → row.providerSubscriptionId ≠ c.subscriptionId := by
      intro row hr
      have hne := BillingDb.getSubscriptionByProviderId_eq_none hrow (List.mem_of_find?_eq_some hr)
      rwa [hsub] at hne
    cases hr : s.db.getSubscriptionForUser c.userId with
    | none =>
      rw [hr] at hl
      have hcreated : eventType = .created := hl
      simp only [hcreated, decide_true, Bool.not_true, Bool.false_eq_true, if_false]
      cases hu : userForNewSubscription settings users data with
      | none => simp
      | some userId =>
        cases huser hcreated userId hu
        simp only [hr]
        split
        · simp
        · split <;> simp
    | some row =>
      rw [hr] at hl
      obtain ⟨hcreated, hs⟩ := hl.1.resolve_left (hno row hr)
      simp only [hcreated, decide_true, Bool.not_true, Bool.false_eq_true, if_false]
      cases hu : userForNewSubscription settings users data with
      | none => simp
      | some userId =>
        cases huser hcreated userId hu
        simp only [hr]
        split
        · rename_i hdrop
          rcases hs with hs | hs <;> simp [hs] at hdrop
        · simp

/-- A creation, an update or a deletion. -/
theorem Served.written (h : c.Served s) (ht : eventType = .created ∨ eventType = .updated ∨ eventType = .deleted)
    (hok : (providerIdOf data).text = c.subscriptionId →
      (eventType = .created → ∀ userId ∈ userForNewSubscription settings s.users data, userId = c.userId) ∧
        if id = c.newestId then c.Links s eventType else c.newestId ∉ s.db.events)
    {db : BillingDb} (tables : σ) (more : List String)
    (hp : processSubscriptionEvent settings s.now s.users { s.db with events := s.db.events ++ [id] } (eventType = .created)
      (eventType = .deleted) data = .ok db) : c.Served { s with db, tables, deleted := more } := by
  have hpaid : ¬ (eventType = .paid ∧ (invoiceProviderId data).text = c.subscriptionId) := by
    rintro ⟨rfl, -⟩
    simp at ht
  have hnewest (he : id = c.newestId) : eventType ≠ .deleted ∧ providerIdOf data = .string c.subscriptionId ∧ c.Links s eventType ∧
      (eventType = .created → ∀ userId ∈ userForNewSubscription settings s.users data, userId = c.userId) := by
    obtain ⟨rfl, rfl⟩ := eq_newest hi he
    have hsub := c.newest_subscription
    obtain ⟨huser, hl⟩ := hok (by rw [hsub]; rfl)
    rw [if_pos he] at hl
    refine ⟨fun hd => ?_, hsub, hl, huser⟩
    rcases c.newest_type with hn | hn <;> rw [hn] at hd <;> cases hd
  rcases BillingState.processSubscriptionEvent_eq_ok hp with ⟨hnone, rfl⟩ | ⟨row, row', hrow, hw, hsave⟩
  · refine h.ignored hi tables more (fun he => ?_) fun _ => hpaid
    obtain ⟨-, hsub, hl, huser⟩ := hnewest he
    exact subscriptionFor_ne_none rfl hsub hl huser hnone
  · obtain ⟨huser, hid, hstatus, hperiod, -⟩ := applySubscriptionPayload_eq_ok hw
    have htext : row'.providerSubscriptionId = (providerIdOf data).text := by rw [hid]; rfl
    -- the subscription's row is the customer's
    have howner : row'.providerSubscriptionId = c.subscriptionId → row'.userId = c.userId := by
      intro hc
      rw [huser]
      rcases subscriptionFor_cases hrow with ⟨hr, hrid⟩ | ⟨hcreated, hu, -⟩
      · exact h.1 row hr (hrid.trans (htext.symm.trans hc))
      · exact (hok (htext.symm.trans hc)).1 (of_decide_eq_true hcreated) row.userId hu
    refine h.save hi hsave tables more howner fun hcome => ?_
    by_cases hc : row'.providerSubscriptionId = c.subscriptionId
    · obtain ⟨-, hl⟩ := hok (htext.symm.trans hc)
      split at hl
      · rename_i he
        obtain ⟨hdeleted, -, hl, -⟩ := hnewest he
        obtain ⟨-, rfl⟩ := eq_newest hi he
        obtain ⟨catalog, productId, hcatalog, hproduct, hplan⟩ := c.newest_plan
        have hdel : decide (eventType = .deleted) = false := decide_eq_false hdeleted
        rw [hdel] at hstatus
        have hactive : row'.status = .active := Except.ok.inj (hstatus.symm.trans c.newest_status)
        refine .inl ⟨hc, ?_, Except.ok.inj (hperiod.symm.trans c.newest_period), .inl hactive⟩
        rw [applySubscriptionPayload_plan hw hcatalog hproduct hplan]
        split
        · rename_i hwait
          have hcustomer : row.userId = c.userId := huser.symm.trans (howner hc)
          have hstored : s.db.getSubscriptionForUser c.userId = some row := by
            rcases subscriptionFor_cases hrow with ⟨hr, -⟩ | ⟨-, -, ⟨-, hpending⟩ | ⟨hr, -⟩⟩
            · exact hcustomer ▸ BillingDb.getSubscriptionForUser_eq_some hr
            · simp [BillingSubscription.waitsFor, hpending] at hwait
            · exact hcustomer ▸ hr
          unfold Links at hl
          rw [hstored] at hl
          exact hl.2 hwait
        · rfl
      · rename_i hne
        have hcome : c.newestId ∈ s.db.events := by simpa [Ne.symm hne] using hcome
        exact absurd hcome hl
    · have hne : id ≠ c.newestId := fun he => hc (by rw [htext, (hnewest he).2.1]; rfl)
      refine .inr ⟨by simpa [Ne.symm hne] using hcome, hpaid, fun live hl hlid hlive => ?_⟩
      rw [huser]
      exact userId_ne_of_subscriptionFor hrow hl hlive (by rw [hlid, ← htext]; exact Ne.symm hc)

omit hi [Unicode] in
/-- The row of an invoice, whatever it is about. -/
theorem Served.invoiced (h : c.Served s) {row : BillingSubscription} {providerId : String}
    (hrow : s.db.getSubscriptionByProviderId providerId = some row) :
    (row.providerSubscriptionId = c.subscriptionId → row.userId = c.userId) ∧
      (providerId = c.subscriptionId → c.newestId ∈ s.db.events → row.plan = c.plan ∧ row.currentPeriodEnd = c.currentPeriodEnd ∧
        row.status ≠ .canceled) ∧
      (providerId ≠ c.subscriptionId → ∀ live ∈ s.db.subscriptions, live.providerSubscriptionId = c.subscriptionId →
        live.userId ≠ row.userId) := by
  obtain ⟨hr, hid⟩ := BillingDb.getSubscriptionByProviderId_eq_some hrow
  refine ⟨h.1 row hr, fun hsub hn => ?_, fun hsub live hl hlid huser => ?_⟩
  · obtain ⟨live, hl, hlid, hplan, hperiod, hs⟩ := h.2 hn
    cases s.db.eq_of_provider hr hl (hid.trans (hsub.trans hlid.symm))
    refine ⟨hplan, hperiod, ?_⟩
    rcases hs with hs | ⟨hs, -⟩ <;> simp [hs]
  · cases List.inj_on_of_nodup_map s.db.unique_user hl hr huser
    exact hsub (hid.symm.trans hlid)

omit [Unicode] in
/-- A failed invoice. -/
theorem Served.failed (h : c.Served s) (ht : eventType = .payment_failed)
    (hok : ((data.get "subscription").dictOrEmpty.get "subscription_id").text = c.subscriptionId →
      c.newestId ∉ s.db.events ∨ c.paymentPending s.db.events) {db : BillingDb} (tables : σ) (more : List String)
    (hp : processPaymentFailed settings s.now { s.db with events := s.db.events ++ [id] } data = .ok db) :
    c.Served { s with db, tables, deleted := more } := by
  have hne : id ≠ c.newestId := fun he => by
    obtain ⟨rfl, -⟩ := eq_newest hi he
    rcases c.newest_type with hn | hn <;> rw [hn] at ht <;> cases ht
  have hpaid : ¬ (eventType = .paid ∧ (invoiceProviderId data).text = c.subscriptionId) := by
    rintro ⟨rfl, -⟩
    cases ht
  unfold processPaymentFailed at hp
  dsimp only at hp
  split at hp
  · cases hp
    exact h.ignored hi tables more hne fun _ => hpaid
  · rename_i row hrow
    obtain ⟨howner, hmine, hother⟩ := h.invoiced hrow
    refine h.save hi hp tables more (by simpa using howner) fun hcome => ?_
    have hcome : c.newestId ∈ s.db.events := by simpa [Ne.symm hne] using hcome
    by_cases hsub : ((data.get "subscription").dictOrEmpty.get "subscription_id").text = c.subscriptionId
    · obtain ⟨hplan, hperiod, -⟩ := hmine hsub hcome
      have hpending := (hok hsub).resolve_left fun hn => hn hcome
      have hid := (BillingDb.getSubscriptionByProviderId_eq_some hrow).2
      exact .inl ⟨by simpa [hsub] using hid, hplan, by simpa using hperiod, .inr ⟨by simp, paymentPending_concat hi hpaid hpending⟩⟩
    · exact .inr ⟨hcome, hpaid, fun live hl hlid _ => by simpa using hother hsub live hl hlid⟩

omit [Unicode] in
/-- A paid invoice. -/
theorem Served.paid (h : c.Served s) (ht : eventType = .paid) {handled : BillingDb × σ} (more : List String)
    (hp : processPaidInvoice settings s.now affiliates { s.db with events := s.db.events ++ [id] } s.tables data = .ok handled) :
    c.Served { s with db := handled.1, tables := handled.2, deleted := more } := by
  have hne : id ≠ c.newestId := fun he => by
    obtain ⟨rfl, -⟩ := eq_newest hi he
    rcases c.newest_type with hn | hn <;> rw [hn] at ht <;> cases ht
  simp only [processPaidInvoice, bind, Except.bind, pure, Except.pure] at hp
  split at hp
  · rename_i hnone
    cases hp
    refine h.ignored hi _ more hne fun hcome hpaid => ?_
    obtain ⟨live, hl, hlid, -⟩ := h.2 hcome
    exact BillingDb.getSubscriptionByProviderId_eq_none hnone hl (hlid.trans hpaid.2.symm)
  · rename_i row hrow
    obtain ⟨howner, hmine, hother⟩ := h.invoiced hrow
    split_ifs at hp with hcanceled
    · cases hp
      exact h.ignored hi _ more hne fun hcome hpaid => (hmine hpaid.2 hcome).2.2 hcanceled
    · split at hp
      · cases hp
      · rename_i db hsave
        split at hp
        · cases hp
          refine h.save hi hsave _ more (by simpa using howner) fun hcome => ?_
          have hcome : c.newestId ∈ s.db.events := by simpa [Ne.symm hne] using hcome
          by_cases hsub : (invoiceProviderId data).text = c.subscriptionId
          · obtain ⟨hplan, hperiod, -⟩ := hmine hsub hcome
            have hid := (BillingDb.getSubscriptionByProviderId_eq_some hrow).2
            exact .inl ⟨by simpa [hsub] using hid, hplan, by simpa using hperiod, .inl (by simp)⟩
          · exact .inr ⟨hcome, fun hpaid => hsub hpaid.2, fun live hl hlid _ => by simpa using hother hsub live hl hlid⟩
        · cases hp

end

theorem Served.step (h : c.Served s) (hok : c.Keeps s a) (hs : c.step affiliates s a = some t) : c.Served t := by
  cases a with
  | users users =>
    cases hs
    exact h
  | tick duration =>
    cases hs
    exact h
  | deliver i =>
    obtain ⟨event, hevent, hs⟩ := Option.bind_eq_some_iff.mp hs
    simp only [BillingState.step] at hs
    split at hs
    · rename_i processed db tables hp
      cases hs
      simp only [processWebhookEvent, bind, Except.bind, pure, Except.pure] at hp
      split at hp
      · cases hp
      · rename_i parts henvelope
        obtain ⟨id, eventType, data⟩ := parts
        have hi : (c.events[i]?).map envelope = some (.ok (id, eventType, data)) := by rw [hevent, Option.map_some, henvelope]
        split_ifs at hp with hclaimed hwide
        · cases hp
          exact h
        · split at hp
          · cases hp
          · rename_i handled hhandled
            cases hp
            simp only [Keeps, hi] at hok
            replace hok := hok hclaimed
            have hnewest (hn : eventType ≠ .created ∧ eventType ≠ .updated) : id ≠ c.newestId := fun he => by
              obtain ⟨rfl, -⟩ := eq_newest hi he
              exact c.newest_type.elim hn.1 hn.2
            cases eventType with
            | created => exact h.written hi (by simp) hok _ _ (BillingState.eq_ok_of_map hhandled)
            | updated => exact h.written hi (by simp) hok _ _ (BillingState.eq_ok_of_map hhandled)
            | deleted => exact h.written hi (by simp) hok _ _ (BillingState.eq_ok_of_map hhandled)
            | payment_failed => exact h.failed hi rfl hok _ _ (BillingState.eq_ok_of_map hhandled)
            | paid => exact h.paid hi rfl _ hhandled
            | refund_paid =>
              rw [BillingState.reverse_eq_ok hhandled]
              exact h.ignored hi _ _ (hnewest (by simp)) (by simp)
            | dispute_created =>
              rw [BillingState.reverse_eq_ok hhandled]
              exact h.ignored hi _ _ (hnewest (by simp)) (by simp)
            | other type =>
              cases hhandled
              exact h.ignored hi _ _ (hnewest (by simp)) (by simp)
    · cases hs
      exact h

/-- Where the newest state is not dropped and nothing older comes after it, a customer
all of whose events have been delivered has the active subscription and its access. -/
theorem paying_customer_keeps_access {start : BillingState σ} (hnew : c.newestId ∉ start.db.events)
    (hcustomer : ∀ row ∈ start.db.subscriptions, row.providerSubscriptionId = c.subscriptionId → row.userId = c.userId)
    (h : Reach (c.step affiliates) c.Keeps start s) (hall : ∀ event ∈ c.events, ∀ id ∈ eventId event, id ∈ s.db.events)
    (hperiod : c.currentPeriodEnd.all (s.now < ·)) :
    ∃ row, s.db.getSubscriptionForUser c.userId = some row ∧ row.providerSubscriptionId = c.subscriptionId ∧ row.plan = c.plan ∧
      hasPaidAccess row s.now := by
  have hserved : c.Served s := h.invariant ⟨hcustomer, fun hn => absurd hn hnew⟩ fun _ _ _ hserved hok hs => hserved.step hok hs
  have hcome : c.newestId ∈ s.db.events := by
    obtain ⟨event, hevent, henvelope⟩ := Option.map_eq_some_iff.mp c.newest_envelope
    exact hall event (List.mem_of_getElem? hevent) c.newestId (by simp [eventId, henvelope, Except.toOption])
  obtain ⟨row, hr, hid, hplan, hend, hs⟩ := hserved.2 hcome
  have hactive : row.status = .active := hs.resolve_right fun ⟨_, hpending⟩ => by
    obtain ⟨j, id, data, hj, -, hid⟩ := paymentPending_iff.1 hpending
    obtain ⟨event, hevent, henvelope⟩ := Option.map_eq_some_iff.mp hj
    exact hid (hall event (List.mem_of_getElem? hevent) id (by simp [eventId, henvelope, Except.toOption]))
  have hrow : s.db.getSubscriptionForUser c.userId = some row := hserved.1 row hr hid ▸ BillingDb.getSubscriptionForUser_eq_some hr
  exact ⟨row, hrow, hid, hplan, by rw [hasPaidAccess, hactive, hend]; exact hperiod⟩

/-! ## A new subscription after an old one -/

open BillingState

/-- No text is a date. -/
abbrev undated : Python := ⟨fun _ => "", fun _ => none⟩

def goldSubscription (id : String) : List (String × Json) :=
  [("subscription_id", .string id), ("product_id", .string "journal"), ("status", .string "active"),
    ("customer", .object [("email", .string "gold@example.com")])]

/-- An old subscription is created and deleted, then a new one created. -/
def goldRenewal : letI := undated; PayingCustomer goldBilling :=
  letI := undated
  { userId := 0
    subscriptionId := "new"
    subscriptionId_ne := by simp
    plan := .journal
    accountLimit := 0
    currentPeriodEnd := none
    events :=
      [goldEvent "1" "customer.subscription.created" (goldSubscription "old"),
        goldEvent "2" "customer.subscription.deleted" (goldSubscription "old"),
        goldEvent "3" "customer.subscription.created" (goldSubscription "new")]
    identified := by decide +kernel
    newest := 2
    newestId := "3"
    newestType := .created
    newestData := .object (goldSubscription "new")
    newest_envelope := rfl
    newest_type := .inl rfl
    newest_subscription := rfl
    newest_plan := ⟨goldCatalog, "journal", rfl, rfl, rfl⟩
    newest_status := rfl
    newest_period := rfl }

/-- The customer before the first event. -/
def goldCustomer : BillingState Unit where
  users := { users := [{ email := "gold@example.com", hashedPassword := unusablePasswordHash }] }
  tables := ()

omit [Python] [Unicode] in
/-- `paying_customer_keeps_access`, for events in the provider's order. -/
theorem paying_customer_keeps_access_gold :
    let _ := Unicode.ascii
    let _ := undated
    ∃ s row, Reach (goldRenewal.step noAffiliates) goldRenewal.Keeps goldCustomer s ∧
      (∀ event ∈ goldRenewal.events, ∀ id ∈ eventId event, id ∈ s.db.events) ∧
      s.db.getSubscriptionForUser 0 = some row ∧ row.providerSubscriptionId = "new" ∧ row.plan = .journal ∧ hasPaidAccess row s.now := by
  intro _ _
  have hrun : (runIf (goldRenewal.step noAffiliates) goldRenewal.Keeps goldCustomer [.deliver 0, .deliver 1, .deliver 2]).map
      (fun s => decide (∀ event ∈ goldRenewal.events, ∀ id ∈ eventId event, id ∈ s.db.events)) = some true := by decide +kernel
  obtain ⟨s, hs, hall⟩ := Option.map_eq_some_iff.mp hrun
  have hall := of_decide_eq_true hall
  have hreach : Reach (goldRenewal.step noAffiliates) goldRenewal.Keeps goldCustomer s := .of_runIf hs
  obtain ⟨row, hrow⟩ := paying_customer_keeps_access (c := goldRenewal) (by decide) (fun _ hr => by cases hr) hreach hall rfl
  exact ⟨s, row, hreach, hall, hrow⟩

omit [Python] [Unicode] in
/-- The creation comes before the deletion of the old subscription and is dropped. -/
theorem droppedCreation_costs_access :
    let _ := Unicode.ascii
    let _ := undated
    ∃ s row, Reach (goldRenewal.step noAffiliates) always goldCustomer s ∧
      (∀ event ∈ goldRenewal.events, ∀ id ∈ eventId event, id ∈ s.db.events) ∧
      s.db.getSubscriptionForUser 0 = some row ∧ row.providerSubscriptionId = "old" ∧ hasPaidAccess row s.now = false := by
  intro _ _
  have hrun : (run (goldRenewal.step noAffiliates) goldCustomer [.deliver 0, .deliver 2, .deliver 1]).bind (fun s =>
      (s.db.getSubscriptionForUser 0).map fun row =>
        decide ((∀ event ∈ goldRenewal.events, ∀ id ∈ eventId event, id ∈ s.db.events) ∧ row.providerSubscriptionId = "old" ∧
          hasPaidAccess row s.now = false)) = some true := by decide +kernel
  obtain ⟨s, hs, hr⟩ := Option.bind_eq_some_iff.mp hrun
  obtain ⟨row, hrow, hd⟩ := Option.map_eq_some_iff.mp hr
  obtain ⟨hall, hid, haccess⟩ := of_decide_eq_true hd
  exact ⟨s, row, .of_run hs, hall, hrow, hid, haccess⟩

end PayingCustomer

end SignalSync
