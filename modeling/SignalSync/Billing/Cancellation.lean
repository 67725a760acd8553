import SignalSync.Billing.Service
import SignalSync.Library.Run
import Mathlib.Data.List.Nodup

/-!
# After a cancellation

`customer.subscription.deleted` cancels the row of its subscription. A paid invoice
leaves a cancelled row alone; a failed one, and an update or a creation of the same
subscription that comes late, do not (`failedInvoice_revives`). Where none of these
comes after the deletion, the row gives no access again
(`deleted_subscription_has_no_access`).

* `applySubscriptionPayload_eq_ok`: what a payload writes;
* `Lapsing.step`: the rows of deleted subscriptions give no access.
-/

namespace SignalSync

open Library

/-! ## What a delivery writes -/

namespace BillingDb

variable {db db' : BillingDb} {row subscription : BillingSubscription} {id : String}

theorem getSubscriptionByProviderId_eq_some (h : db.getSubscriptionByProviderId id = some row) :
    row ∈ db.subscriptions ∧ row.providerSubscriptionId = id :=
  ⟨List.mem_of_find?_eq_some h, by simpa using List.find?_some h⟩

theorem getSubscriptionByProviderId_eq_none (h : db.getSubscriptionByProviderId id = none) (hr : row ∈ db.subscriptions) :
    row.providerSubscriptionId ≠ id := by
  simpa using List.find?_eq_none.1 h row hr

/-- No two rows have one provider id. -/
theorem eq_of_provider (h : row ∈ db.subscriptions) (h' : subscription ∈ db.subscriptions)
    (he : row.providerSubscriptionId = subscription.providerSubscriptionId) : row = subscription :=
  List.inj_on_of_nodup_map db.unique_provider h h' he

/-- No two rows are one user's. -/
theorem getSubscriptionForUser_eq_some (hr : row ∈ db.subscriptions) : db.getSubscriptionForUser row.userId = some row := by
  cases hf : db.getSubscriptionForUser row.userId with
  | none => exact absurd (List.find?_eq_none.1 hf row hr) (by simp)
  | some other =>
    have hother : other.userId = row.userId := by simpa using List.find?_some hf
    exact congrArg some (List.inj_on_of_nodup_map db.unique_user (List.mem_of_find?_eq_some hf) hr hother)

theorem getSubscriptionByProviderId_of_mem (hr : row ∈ db.subscriptions) :
    db.getSubscriptionByProviderId row.providerSubscriptionId = some row := by
  cases hf : db.getSubscriptionByProviderId row.providerSubscriptionId with
  | none => exact absurd (List.find?_eq_none.1 hf row hr) (by simp)
  | some other =>
    obtain ⟨hother, hid⟩ := getSubscriptionByProviderId_eq_some hf
    rw [eq_of_provider hother hr hid]

/-- A row that keeps its user and its provider id can be saved. -/
theorem exists_save (hr : row ∈ db.subscriptions) (hu : subscription.userId = row.userId)
    (hp : subscription.providerSubscriptionId = row.providerSubscriptionId) (hf : subscription.fits) :
    ∃ db', db.save subscription = .ok db' := by
  have hrows : db.saveRows subscription = db.subscriptions.map fun other => if other.userId = row.userId then subscription else other := by
    rw [saveRows, if_pos (by rw [hu, getSubscriptionForUser_eq_some hr]; rfl), hu]
  have hkeep {α : Type} (f : BillingSubscription → α) (hfield : f subscription = f row) :
      (db.saveRows subscription).map f = db.subscriptions.map f := by
    rw [hrows, List.map_map]
    refine List.map_congr_left fun other hother => ?_
    simp only [Function.comp_apply]
    split
    · rename_i he
      rw [hfield, List.inj_on_of_nodup_map db.unique_user hother hr he]
    · rfl
  unfold save
  dsimp only
  rw [dif_pos ⟨hkeep _ hu ▸ db.unique_user, hkeep _ hp ▸ db.unique_provider⟩, if_pos hf]
  exact ⟨_, rfl⟩

theorem save_eq_ok (h : db.save subscription = .ok db') :
    db'.events = db.events ∧
      ∀ row ∈ db'.subscriptions, row = subscription ∨ row ∈ db.subscriptions ∧ row.userId ≠ subscription.userId := by
  unfold save at h
  dsimp only at h
  split_ifs at h
  cases h
  refine ⟨rfl, fun row hr => ?_⟩
  unfold saveRows at hr
  split at hr
  · obtain ⟨old, hold, rfl⟩ := List.mem_map.mp hr
    split
    · exact .inl rfl
    · rename_i hne
      exact .inr ⟨hold, hne⟩
  · rename_i hnone
    rcases List.mem_append.mp hr with hr | hr
    · refine .inr ⟨hr, fun he => hnone ?_⟩
      rw [getSubscriptionForUser, List.find?_isSome]
      exact ⟨row, hr, by simpa using he⟩
    · exact .inl (List.mem_singleton.mp hr)

/-- The row is there, and the rows of other users are. -/
theorem mem_of_save (h : db.save subscription = .ok db') :
    subscription ∈ db'.subscriptions ∧ ∀ row ∈ db.subscriptions, row.userId ≠ subscription.userId → row ∈ db'.subscriptions := by
  unfold save at h
  dsimp only at h
  split_ifs at h
  cases h
  show subscription ∈ db.saveRows subscription ∧ ∀ row ∈ db.subscriptions, _ → row ∈ db.saveRows subscription
  unfold saveRows
  split
  · rename_i hsome
    obtain ⟨old, hold⟩ := Option.isSome_iff_exists.mp hsome
    have huser : old.userId = subscription.userId := by simpa using List.find?_some hold
    exact ⟨List.mem_map.mpr ⟨old, List.mem_of_find?_eq_some hold, if_pos huser⟩,
      fun row hr hne => List.mem_map.mpr ⟨row, hr, if_neg hne⟩⟩
  · exact ⟨List.mem_append_right _ (List.mem_singleton_self _), fun row hr _ => List.mem_append_left _ hr⟩

end BillingDb

section

variable [Python] (settings : BillingSettings)

variable {settings} {now : Time} {payload : Json} {row row' : BillingSubscription} {deleted : Bool}

omit [Python] in
@[simp] theorem BillingSubscription.withStatus_status (row : BillingSubscription) (status : BillingStatus) :
    (row.withStatus settings now status).status = status := by
  cases status <;> rfl

omit [Python] in
@[simp] theorem BillingSubscription.withStatus_userId (row : BillingSubscription) (status : BillingStatus) :
    (row.withStatus settings now status).userId = row.userId := by
  cases status <;> rfl

omit [Python] in
@[simp] theorem BillingSubscription.withStatus_providerSubscriptionId (row : BillingSubscription) (status : BillingStatus) :
    (row.withStatus settings now status).providerSubscriptionId = row.providerSubscriptionId := by
  cases status <;> rfl

omit [Python] in
@[simp] theorem BillingSubscription.withStatus_currentPeriodEnd (row : BillingSubscription) (status : BillingStatus) :
    (row.withStatus settings now status).currentPeriodEnd = row.currentPeriodEnd := by
  cases status <;> rfl

omit [Python] in
theorem BillingSubscription.entitle_userId (row : BillingSubscription) (plan : BillingPlan) (accountLimit : Nat) :
    (row.entitle now plan accountLimit).userId = row.userId := by
  unfold entitle
  dsimp only
  split <;> rfl

omit [Python] in
theorem BillingSubscription.entitle_graceEndsAt (row : BillingSubscription) (plan : BillingPlan) (accountLimit : Nat) :
    (row.entitle now plan accountLimit).graceEndsAt = row.graceEndsAt := by
  unfold entitle
  dsimp only
  split <;> rfl

/-- A payload writes its own status and period, and begins a grace period where none
has begun. -/
theorem applySubscriptionPayload_eq_ok (h : applySubscriptionPayload settings now payload row deleted = .ok row') :
    row'.userId = row.userId ∧ providerIdOf payload = .string row'.providerSubscriptionId ∧
      billingStatus (payload.get "status") deleted = .ok row'.status ∧
      parseDatetime (payload.get "current_period_end") = .ok row'.currentPeriodEnd ∧
      (row'.status = .past_due → row'.graceEndsAt = some (row.graceEndsAt.getD (settings.graceEnd now))) := by
  simp only [applySubscriptionPayload, bind, Except.bind, pure, Except.pure] at h
  split at h
  · cases h
  · split at h
    · rename_i hid _
      split at h
      · cases h
      · split at h
        · cases h
        · rename_i status hstatus
          split at h
          · cases h
          · split at h
            · cases h
            · rename_i currentPeriodEnd hend
              split at h
              · cases h
              · cases h
                rw [BillingSubscription.withStatus_userId, BillingSubscription.withStatus_providerSubscriptionId,
                  BillingSubscription.withStatus_currentPeriodEnd, BillingSubscription.withStatus_status]
                refine ⟨BillingSubscription.entitle_userId .., Json.string?_eq_some.1 hid, hstatus, hend, ?_⟩
                rintro rfl
                simp only [BillingSubscription.withStatus, BillingSubscription.entitle_graceEndsAt]
    · cases h

end

/-! ## Deliveries -/

/-- The tables, and the subscriptions whose deletion has been processed. -/
structure BillingState (σ : Type) where
  now : Time := 0
  users : AuthDb := {}
  db : BillingDb := {}
  tables : σ
  deleted : List String := []

inductive BillingLabel
  | deliver (event : Json)
  /-- Whatever else is done to the users. -/
  | users (users : AuthDb)
  | tick (duration : Time)

namespace BillingState

variable [Python] [Unicode] {σ : Type} (settings : BillingSettings) (affiliates : AffiliateService σ)

/-- The subscription that an event deletes. -/
def deletes (event : Json) : List String :=
  match envelope event with
  | .ok (_, .deleted, data) => if (providerIdOf data).truthy then [(providerIdOf data).text] else []
  | _ => []

def step (s : BillingState σ) : BillingLabel → Option (BillingState σ)
  | .deliver event =>
    match processWebhookEvent settings s.now affiliates s.users s.db s.tables event with
    | .ok (processed, db, tables) =>
      some { s with db, tables, deleted := s.deleted ++ if processed then deletes event else [] }
    | .error _ => some s
  | .users users => some { s with users }
  | .tick duration => some { s with now := s.now + duration }

/-- A row with this status, period and grace period gives no access, now or later. -/
def Lapsed (now : Time) (status : BillingStatus) (currentPeriodEnd graceEndsAt : Option Time) : Prop :=
  (status = .active → currentPeriodEnd.any (· ≤ now)) ∧ (status = .past_due → graceEndsAt.all (· ≤ now))

instance (now : Time) (status : BillingStatus) (currentPeriodEnd graceEndsAt : Option Time) :
    Decidable (Lapsed now status currentPeriodEnd graceEndsAt) :=
  inferInstanceAs (Decidable (_ ∧ _))

/-- A new event of a deleted subscription writes a status that gives no access. -/
def Absorbs (s : BillingState σ) : BillingLabel → Prop
  | .deliver event =>
    match envelope event with
    | .ok (eventId, eventType, data) =>
      eventId ∉ s.db.events →
        match eventType with
        | .created | .updated =>
          (providerIdOf data).text ∈ s.deleted →
            ∀ found ∈ (subscriptionFor settings s.users s.db (eventType = .created) data).toOption, ∀ row ∈ found,
              ∀ status ∈ (billingStatus (data.get "status") false).toOption,
                ∀ currentPeriodEnd ∈ (parseDatetime (data.get "current_period_end")).toOption,
                  Lapsed s.now status currentPeriodEnd (some (row.graceEndsAt.getD (settings.graceEnd s.now)))
        | .payment_failed =>
          ∀ row ∈ s.db.getSubscriptionByProviderId ((data.get "subscription").dictOrEmpty.get "subscription_id").text,
            row.providerSubscriptionId ∈ s.deleted →
              Lapsed s.now .past_due none (some (row.graceEndsAt.getD (settings.graceEnd s.now)))
        | .paid =>
          ∀ row ∈ s.db.getSubscriptionByProviderId (invoiceProviderId data).text,
            row.providerSubscriptionId ∈ s.deleted → row.status ≠ .canceled → Lapsed s.now .active row.currentPeriodEnd none
        | _ => True
    | .error _ => True
  | _ => True

instance (s : BillingState σ) (a : BillingLabel) : Decidable (s.Absorbs settings a) := by
  unfold Absorbs
  split
  · split
    · refine @instDecidableForall _ _ inferInstance ?_
      split <;> infer_instance
    · infer_instance
  · infer_instance

variable {settings affiliates} {s t : BillingState σ} {a : BillingLabel}

/-- The rows of deleted subscriptions give no access. -/
def Lapsing (s : BillingState σ) : Prop :=
  ∀ row ∈ s.db.subscriptions, row.providerSubscriptionId ∈ s.deleted →
    Lapsed s.now row.status row.currentPeriodEnd row.graceEndsAt

omit [Python] [Unicode] in
theorem Lapsed.of_le {now later : Time} {status : BillingStatus} {currentPeriodEnd graceEndsAt : Option Time}
    (h : Lapsed now status currentPeriodEnd graceEndsAt) (hl : now ≤ later) : Lapsed later status currentPeriodEnd graceEndsAt := by
  refine ⟨fun hs => ?_, fun hs => ?_⟩
  · obtain ⟨time, ht, he⟩ := (Option.any_eq_true _ _).mp (h.1 hs)
    exact (Option.any_eq_true _ _).mpr ⟨time, ht, by simpa using (by simpa using he : time ≤ now).trans hl⟩
  · cases graceEndsAt with
    | none => rfl
    | some time =>
      have he : time ≤ now := by simpa using h.2 hs
      simpa using he.trans hl

omit [Python] [Unicode] in
theorem Lapsed.hasPaidAccess {now later : Time} {row : BillingSubscription}
    (h : Lapsed now row.status row.currentPeriodEnd row.graceEndsAt) (hl : now ≤ later) : hasPaidAccess row later = false := by
  have h := h.of_le hl
  unfold SignalSync.hasPaidAccess
  split
  · rename_i hs
    obtain ⟨time, ht, he⟩ := (Option.any_eq_true _ _).mp (h.1 hs)
    rw [ht]
    simpa using he
  · rename_i hs
    have hall := h.2 hs
    cases hg : row.graceEndsAt with
    | none => rfl
    | some time =>
      rw [hg] at hall
      simpa using hall
  · rfl

/-! ## Every event -/

omit [Python] [Unicode] in
/-- A row is saved: it is of no deleted subscription, or has lapsed, and the others
stay; a subscription that is deleted now is the saved row's. -/
theorem Lapsing.save (h : s.Lapsing) {subscription : BillingSubscription} {db' : BillingDb} {events : List String}
    (hsave : BillingDb.save { s.db with events } subscription = .ok db') {more : List String}
    (hmore : ∀ id ∈ more, ∀ row ∈ s.db.subscriptions, row.providerSubscriptionId = id → row.userId = subscription.userId)
    (hlapsed : subscription.providerSubscriptionId ∈ s.deleted ++ more →
      Lapsed s.now subscription.status subscription.currentPeriodEnd subscription.graceEndsAt) (tables : σ) :
    Lapsing { s with db := db', tables, deleted := s.deleted ++ more } := by
  intro row hr hd
  rcases (BillingDb.save_eq_ok hsave).2 row hr with rfl | ⟨hold, hne⟩
  · exact hlapsed hd
  · rcases List.mem_append.mp hd with hd | hd
    · exact h row hold hd
    · exact absurd (hmore _ hd row hold rfl) hne

/-- The row that an event other than a creation is about is the one with its id. -/
theorem subscriptionFor_eq_ok {users : AuthDb} {db : BillingDb} {data : Json} {found : Option BillingSubscription}
    (h : subscriptionFor settings users db false data = .ok found) :
    found = if (providerIdOf data).truthy then db.getSubscriptionByProviderId (providerIdOf data).text else none := by
  unfold subscriptionFor at h
  dsimp only at h
  split at h
  · rename_i row hrow
    cases h
    exact hrow.symm
  · rename_i hnone
    cases h
    exact hnone.symm

/-- A subscription event is ignored, or its payload is written to a row. -/
theorem processSubscriptionEvent_eq_ok {now : Time} {users : AuthDb} {db db' : BillingDb} {created deleted : Bool} {data : Json}
    (h : processSubscriptionEvent settings now users db created deleted data = .ok db') :
    subscriptionFor settings users db created data = .ok none ∧ db' = db ∨
      ∃ row row', subscriptionFor settings users db created data = .ok (some row) ∧
        applySubscriptionPayload settings now data row deleted = .ok row' ∧ db.save row' = .ok db' := by
  simp only [processSubscriptionEvent, bind, Except.bind, pure, Except.pure] at h
  split at h
  · cases h
  · rename_i found hfound
    split at h
    · cases h
      exact .inl ⟨hfound, rfl⟩
    · rename_i row
      split at h
      · cases h
      · rename_i row' hrow'
        exact .inr ⟨row, row', hfound, hrow', h⟩

/-- A creation or an update. -/
theorem Lapsing.written (h : s.Lapsing) {created : Bool} {data : Json} {db' : BillingDb} {events : List String}
    (hok : (providerIdOf data).text ∈ s.deleted →
      ∀ found ∈ (subscriptionFor settings s.users s.db created data).toOption, ∀ row ∈ found,
        ∀ status ∈ (billingStatus (data.get "status") false).toOption,
          ∀ currentPeriodEnd ∈ (parseDatetime (data.get "current_period_end")).toOption,
            Lapsed s.now status currentPeriodEnd (some (row.graceEndsAt.getD (settings.graceEnd s.now))))
    (hp : processSubscriptionEvent settings s.now s.users { s.db with events } created false data = .ok db') (tables : σ) :
    Lapsing { s with db := db', tables, deleted := s.deleted ++ [] } := by
  obtain ⟨-, rfl⟩ | ⟨row, written, hfound, hw, hsave⟩ := processSubscriptionEvent_eq_ok hp
  · simpa [Lapsing] using h
  · obtain ⟨-, hid, hstatus, hend, hgrace⟩ := applySubscriptionPayload_eq_ok hw
    refine h.save hsave (by simp) (fun hd => ?_) tables
    rw [List.append_nil] at hd
    have hfound : subscriptionFor settings s.users s.db created data = .ok (some row) := hfound
    have hl := hok (by rw [hid]; exact hd) (some row) (by rw [hfound]; rfl) row rfl written.status (by rw [hstatus]; rfl)
      written.currentPeriodEnd (by rw [hend]; rfl)
    exact ⟨hl.1, fun hs => by rw [hgrace hs]; exact hl.2 hs⟩

/-- A deletion. -/
theorem Lapsing.cancelled (h : s.Lapsing) {data : Json} {db' : BillingDb} {events : List String}
    (hp : processSubscriptionEvent settings s.now s.users { s.db with events } false true data = .ok db') (tables : σ) :
    Lapsing { s with
      db := db', tables
      deleted := s.deleted ++ if (providerIdOf data).truthy then [(providerIdOf data).text] else [] } := by
  obtain ⟨hfound, rfl⟩ | ⟨row, written, hfound, hw, hsave⟩ := processSubscriptionEvent_eq_ok hp
  · have hfound := subscriptionFor_eq_ok hfound
    intro row hr hd
    refine h row hr ((List.mem_append.mp hd).resolve_right fun hnew => ?_)
    split at hnew
    · rename_i ht
      rw [if_pos ht] at hfound
      exact BillingDb.getSubscriptionByProviderId_eq_none hfound.symm hr (List.mem_singleton.mp hnew)
    · cases hnew
  · have hfound := subscriptionFor_eq_ok hfound
    obtain ⟨huser, hid, hstatus, -, -⟩ := applySubscriptionPayload_eq_ok hw
    have hcanceled : .canceled = written.status := Except.ok.inj (hstatus : Except.ok _ = _)
    refine h.save hsave (fun id hmore other hother hprovider => ?_) (fun _ => ?_) tables
    · split at hmore
      · rename_i ht
        rw [if_pos ht] at hfound
        obtain ⟨hrow, hrowid⟩ := BillingDb.getSubscriptionByProviderId_eq_some hfound.symm
        have he : other = row := s.db.eq_of_provider hother hrow
          (hprovider.trans ((List.mem_singleton.mp hmore).trans hrowid.symm))
        rw [he, huser]
      · cases hmore
    · rw [← hcanceled]
      exact ⟨nofun, nofun⟩

omit [Unicode] in
/-- A failed invoice. -/
theorem Lapsing.failed (h : s.Lapsing) {data : Json} {db' : BillingDb} {events : List String}
    (hok : ∀ row ∈ s.db.getSubscriptionByProviderId ((data.get "subscription").dictOrEmpty.get "subscription_id").text,
      row.providerSubscriptionId ∈ s.deleted →
        Lapsed s.now .past_due none (some (row.graceEndsAt.getD (settings.graceEnd s.now))))
    (hp : processPaymentFailed settings s.now { s.db with events } data = .ok db') (tables : σ) :
    Lapsing { s with db := db', tables, deleted := s.deleted ++ [] } := by
  unfold processPaymentFailed at hp
  dsimp only at hp
  split at hp
  · cases hp
    simpa [Lapsing] using h
  · rename_i row hrow
    refine h.save hp (by simp) (fun hd => ?_) tables
    rw [List.append_nil, BillingSubscription.withStatus_providerSubscriptionId] at hd
    exact ⟨nofun, fun _ => (hok row hrow hd).2 rfl⟩

omit [Unicode] in
/-- A paid invoice. -/
theorem Lapsing.paid (h : s.Lapsing) {data : Json} {handled : BillingDb × σ} {events : List String}
    (hok : ∀ row ∈ s.db.getSubscriptionByProviderId (invoiceProviderId data).text,
      row.providerSubscriptionId ∈ s.deleted → row.status ≠ .canceled → Lapsed s.now .active row.currentPeriodEnd none)
    (hp : processPaidInvoice settings s.now affiliates { s.db with events } s.tables data = .ok handled) :
    Lapsing { s with db := handled.1, tables := handled.2, deleted := s.deleted ++ [] } := by
  simp only [processPaidInvoice, bind, Except.bind, pure, Except.pure] at hp
  split at hp
  · cases hp
    simpa [Lapsing] using h
  · rename_i row hrow
    split_ifs at hp with hcanceled
    · cases hp
      simpa [Lapsing] using h
    · split at hp
      · cases hp
      · rename_i db' hsave
        split at hp
        · cases hp
          refine h.save hsave (by simp) (fun hd => ?_) _
          rw [List.append_nil, BillingSubscription.withStatus_providerSubscriptionId] at hd
          exact ⟨fun _ => (hok row hrow hd hcanceled).1 rfl, nofun⟩
        · cases hp

omit [Python] [Unicode] in
theorem reverse_eq_ok {now : Time} {db : BillingDb} {tables : σ} {data : Json} {reason : String} {handled : BillingDb × σ}
    (h : reverse now affiliates db tables data reason = .ok handled) : handled.1 = db := by
  unfold reverse at h
  split at h
  · cases h
    rfl
  · cases h

omit [Python] [Unicode] in
theorem eq_ok_of_map {x : Except BillingError BillingDb} {tables : σ} {handled : BillingDb × σ}
    (h : x.map (·, tables) = .ok handled) : x = .ok handled.1 := by
  cases x with
  | error e => cases h
  | ok db => cases h; rfl

theorem Lapsing.step (h : s.Lapsing) (hok : s.Absorbs settings a) (hs : s.step settings affiliates a = some t) : t.Lapsing := by
  cases a with
  | users users =>
    cases hs
    exact h
  | tick duration =>
    cases hs
    exact fun row hr hd => (h row hr hd).of_le (Nat.le_add_right _ _)
  | deliver event =>
    simp only [BillingState.step] at hs
    split at hs
    · rename_i processed db tables hp
      cases hs
      simp only [processWebhookEvent, bind, Except.bind, pure, Except.pure] at hp
      split at hp
      · cases hp
      · rename_i parts henvelope
        obtain ⟨eventId, eventType, data⟩ := parts
        split_ifs at hp with hclaimed hwide
        · cases hp
          simpa [Lapsing] using h
        · split at hp
          · cases hp
          · rename_i handled hhandled
            cases hp
            simp only [Absorbs, henvelope] at hok
            replace hok := hok hclaimed
            simp only [if_true, deletes, henvelope]
            cases eventType with
            | created =>
              exact h.written hok (eq_ok_of_map hhandled) _
            | updated =>
              exact h.written hok (eq_ok_of_map hhandled) _
            | deleted =>
              exact h.cancelled (eq_ok_of_map hhandled) _
            | payment_failed =>
              exact h.failed hok (eq_ok_of_map hhandled) _
            | paid => exact h.paid hok hhandled
            | refund_paid =>
              have hdb := reverse_eq_ok hhandled
              simpa [Lapsing, hdb] using h
            | dispute_created =>
              have hdb := reverse_eq_ok hhandled
              simpa [Lapsing, hdb] using h
            | other type =>
              cases hhandled
              simpa [Lapsing] using h
    · cases hs
      exact h

/-- In a run where what comes after a deletion is absorbed so, a row gives no access
through a deleted subscription. -/
theorem deleted_subscription_has_no_access {start : BillingState σ} (hstart : start.deleted = [])
    (h : Reach (BillingState.step settings affiliates) (Absorbs settings) start s) {row : BillingSubscription}
    (hr : row ∈ s.db.subscriptions) (hd : row.providerSubscriptionId ∈ s.deleted) {later : Time} (hl : s.now ≤ later) :
    hasPaidAccess row later = false ∧ hasCopyAccess row later = false := by
  have hlapsing : Lapsing s := h.invariant (fun row _ hd => by rw [hstart] at hd; cases hd)
    fun _ _ _ hlapsing hok hs => hlapsing.step hok hs
  have hpaid := (hlapsing row hr hd).hasPaidAccess hl
  exact ⟨hpaid, by rw [hasCopyAccess, hpaid, Bool.and_false]⟩

/-! ## A cancelled subscription -/

def goldCatalog : ProductCatalog where
  journalProductId := "journal"
  copyProductIds := [(1, "copy-1"), (2, "copy-2"), (3, "copy-3"), (4, "copy-4"), (5, "copy-5"), (6, "copy-6"), (7, "copy-7"),
    (8, "copy-8"), (9, "copy-9"), (10, "copy-10")]
  tiers tier := by
    simp [MAX_COPY_ACCOUNTS]
    omega
  nodup := by decide

def goldBilling : BillingSettings where
  catalog := .ok goldCatalog
  uuid _ := none

/-- Affiliates that have brought nobody. -/
def noAffiliates : AffiliateService Unit := ⟨fun _ _ _ tables => some tables, fun _ _ _ tables => some tables⟩

def goldEvent (id type : String) (data : List (String × Json)) : Json :=
  .object [("id", .string id), ("type", .string type), ("data", .object data)]

/-- A user's subscription is created and deleted. -/
def goldCancelled : List BillingLabel :=
  let data : List (String × Json) := [("subscription_id", .string "sub"), ("product_id", .string "journal"),
    ("status", .string "active"), ("customer", .object [("email", .string "gold@example.com")])]
  [.users { users := [{ email := "gold@example.com", hashedPassword := unusablePasswordHash }] },
    .deliver (goldEvent "1" "customer.subscription.created" data),
    .deliver (goldEvent "2" "customer.subscription.deleted" data)]

omit [Python] [Unicode] in
/-- A paid invoice comes after the deletion. -/
theorem deleted_subscription_has_no_access_gold :
    let _ := Unicode.ascii
    let _ : Python := ⟨fun _ => "", fun _ => none⟩
    ∃ (s : BillingState Unit) (row : BillingSubscription),
      Reach (step goldBilling noAffiliates) (Absorbs goldBilling) { tables := () } s ∧ row ∈ s.db.subscriptions ∧
        row.providerSubscriptionId ∈ s.deleted ∧ hasPaidAccess row s.now = false := by
  intro _ _
  have hrun : (runIf (step goldBilling noAffiliates) (Absorbs goldBilling) { tables := () } (goldCancelled ++
      [.deliver (goldEvent "3" "invoice.paid" [("subscription_id", .string "sub")])])).map
        (fun s => (s.db.subscriptions.map (·.providerSubscriptionId), s.deleted)) = some (["sub"], ["sub"]) := by
    decide +kernel
  obtain ⟨s, hs, hr⟩ := Option.map_eq_some_iff.mp hrun
  simp only [Prod.mk.injEq] at hr
  obtain ⟨row, hrow, hid⟩ := List.mem_map.mp (hr.1.symm ▸ List.mem_singleton_self "sub" : "sub" ∈ s.db.subscriptions.map _)
  have hd : row.providerSubscriptionId ∈ s.deleted := by rw [hr.2, hid]; exact List.mem_singleton_self _
  exact ⟨s, row, .of_runIf hs, hrow, hd, (deleted_subscription_has_no_access rfl (.of_runIf hs) hrow hd le_rfl).1⟩

omit [Python] [Unicode] in
/-- A failed invoice comes after the deletion, and the user has three days of access. -/
theorem failedInvoice_revives :
    let _ := Unicode.ascii
    let _ : Python := ⟨fun _ => "", fun _ => none⟩
    ∃ (s : BillingState Unit) (row : BillingSubscription), Reach (step goldBilling noAffiliates) always { tables := () } s ∧
      row ∈ s.db.subscriptions ∧ row.providerSubscriptionId ∈ s.deleted ∧ hasPaidAccess row s.now = true := by
  intro _ _
  have hrun : (run (step goldBilling noAffiliates) { tables := () } (goldCancelled ++
      [.deliver (goldEvent "3" "invoice.payment_failed" [("subscription", .object [("subscription_id", .string "sub")])])])).map
        (fun s => (s.db.subscriptions.map (fun row => (row.providerSubscriptionId, hasPaidAccess row s.now)), s.deleted)) =
          some ([("sub", true)], ["sub"]) := by
    decide +kernel
  obtain ⟨s, hs, hr⟩ := Option.map_eq_some_iff.mp hrun
  simp only [Prod.mk.injEq] at hr
  obtain ⟨row, hrow, hid⟩ := List.mem_map.mp
    (hr.1.symm ▸ List.mem_singleton_self ("sub", true) : ("sub", true) ∈ s.db.subscriptions.map _)
  simp only [Prod.mk.injEq] at hid
  exact ⟨s, row, .of_run hs, hrow, by rw [hr.2, hid.1]; exact List.mem_singleton_self _, hid.2⟩

end BillingState

end SignalSync
