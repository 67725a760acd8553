import SignalSync.Affiliates.Service
import SignalSync.Billing.Cancellation
import SignalSync.Library.Ledger

/-!
# Commissions and the order of their events

The commissions of one referred user as a ledger: a paid invoice adds an entry, a refund
or a dispute revises the one that it names. The webhook looks a commission up when it is
taken back and returns when there is none yet, so a refund that comes before its invoice
is lost.

* `commissionLedger`: the ledger, whose revisions commute;
* `Simulates.deliver`: an event is a step of the ledger;
* `commissions_orderFree_iff`: for which events all orders come to the same amounts.
-/

namespace SignalSync

open Library

section

variable [Python] [Unicode]

/-! ## The ledger -/

/-- A refund or a dispute that names the commission, by its invoice or its payment. -/
def names (data : Json) (item : Commission) : Bool :=
  textOrNone (data.get "invoice_id") = some item.providerInvoiceId ||
    (paymentId data).isSome && paymentId data = item.providerPaymentId

namespace Commission

/-- What `reverse_commission` makes of the commission it finds. -/
def takeBack (data : Json) (item : Commission) : Commission :=
  if item.status = .reversed || item.status = .paid then item
  else match refundBase data item.commissionBase with
  | none => item
  | some refund => item.reverse refund

def revise (data : Json) (item : Commission) : Commission := if names data item then item.takeBack data else item

/-- What an order of events may not change. -/
def amounts (item : Commission) : Numeric 2 × Numeric 2 × Numeric 2 × CommissionStatus :=
  (item.commissionBase, item.commissionAmount, item.reversedAmount, item.status)

variable {data data' : Json} {item : Commission}

/-- Only the reversed amount and the status change. -/
theorem takeBack_cases (data : Json) (item : Commission) : item.takeBack data = item ∨
    ∃ refund, item.takeBack data = item.reverse refund ∧ item.status ≠ .reversed ∧ item.status ≠ .paid := by
  unfold takeBack
  split
  · exact .inl rfl
  · rename_i hs
    simp only [Bool.or_eq_true, decide_eq_true_eq, not_or] at hs
    split
    · exact .inl rfl
    · exact .inr ⟨_, rfl, hs⟩

theorem takeBack_key (data : Json) (item : Commission) :
    (item.takeBack data).providerInvoiceId = item.providerInvoiceId ∧ (item.takeBack data).providerPaymentId = item.providerPaymentId ∧
      (item.takeBack data).referredUserId = item.referredUserId := by
  rcases takeBack_cases data item with h | ⟨refund, h, -⟩ <;> rw [h]
  · exact ⟨rfl, rfl, rfl⟩
  · exact ⟨rfl, rfl, rfl⟩

theorem names_takeBack : names data' (item.takeBack data) = names data' item := by
  obtain ⟨hi, hp, -⟩ := takeBack_key data item
  rw [names, names, hi, hp]

omit [Python] [Unicode] in
@[simp] theorem reverse_units (item : Commission) (a : Numeric 2) :
    (item.reverse a).reversedAmount.units = max item.reversedAmount.units (item.reversedFor a).units := rfl

omit [Python] [Unicode] in
@[simp] theorem reverse_status (item : Commission) (a : Numeric 2) : (item.reverse a).status =
    if item.commissionAmount.units ≤ max item.reversedAmount.units (item.reversedFor a).units then .reversed else item.status := rfl

omit [Python] [Unicode] in
@[simp] theorem reverse_commissionAmount (item : Commission) (a : Numeric 2) : (item.reverse a).commissionAmount = item.commissionAmount :=
  rfl

omit [Python] [Unicode] in
@[simp] theorem reverse_reversedFor (item : Commission) (a b : Numeric 2) : (item.reverse a).reversedFor b = item.reversedFor b := rfl

/-- What a reversal leaves as it is. -/
def terms (item : Commission) : UserId × UserId × String × Option String × String × Numeric 2 × CommissionRate × Numeric 2 :=
  (item.affiliateUserId, item.referredUserId, item.providerInvoiceId, item.providerPaymentId, item.providerSubscriptionId,
    item.commissionBase, item.commissionRate, item.commissionAmount)

omit [Python] [Unicode] in
@[simp] theorem reverse_terms (item : Commission) (a : Numeric 2) : (item.reverse a).terms = item.terms := rfl

omit [Python] [Unicode] in
theorem eq_of_terms {x y : Commission} (hterms : x.terms = y.terms) (hreversed : x.reversedAmount.units = y.reversedAmount.units)
    (hstatus : x.status = y.status) : x = y := by
  simp only [terms, Prod.mk.injEq] at hterms
  obtain ⟨h₁, h₂, h₃, h₄, h₅, h₆, h₇, h₈⟩ := hterms
  exact Commission.ext h₁ h₂ h₃ h₄ h₅ h₆ h₇ h₈ (Numeric.ext hreversed) hstatus

/-- A second refund is of no use once everything is reversed, and adds nothing to a larger
one before. -/
theorem takeBack_reverse {a b : Numeric 2} (hs : item.status ≠ .reversed ∧ item.status ≠ .paid)
    (hb : refundBase data item.commissionBase = some b) : (item.reverse a).takeBack data =
      if item.commissionAmount.units ≤ (item.reversedFor a).units then item.reverse a
      else if item.commissionAmount.units ≤ item.reversedAmount.units then item.reverse a
      else (item.reverse a).reverse b := by
  have hbase : refundBase data (item.reverse a).commissionBase = some b := hb
  unfold takeBack
  rw [hbase, reverse_status]
  by_cases ha : item.commissionAmount.units ≤ (item.reversedFor a).units
  · simp [ha]
  · by_cases hr : item.commissionAmount.units ≤ item.reversedAmount.units
    · simp [ha, hr]
    · simp [ha, hr, hs]

theorem takeBack_comm : (item.takeBack data).takeBack data' = (item.takeBack data').takeBack data := by
  by_cases hs : item.status = .reversed ∨ item.status = .paid
  · have hself (d : Json) : item.takeBack d = item := by
      unfold takeBack
      rw [if_pos]
      simpa using hs
    rw [hself, hself, hself]
  · have hs : ¬ (decide (item.status = .reversed) || decide (item.status = .paid)) = true := by simpa using hs
    have hone (d : Json) : item.takeBack d = match refundBase d item.commissionBase with
        | none => item
        | some refund => item.reverse refund := by
      unfold takeBack
      rw [if_neg hs]
    rw [hone data, hone data']
    cases ha : refundBase data item.commissionBase with
    | none =>
      cases hb : refundBase data' item.commissionBase with
      | none => simp only [hone, ha, hb]
      | some b =>
        simp only [hone, hb]
        unfold takeBack
        simp only [show (item.reverse b).commissionBase = item.commissionBase from rfl, ha, ite_self]
    | some a =>
      cases hb : refundBase data' item.commissionBase with
      | none =>
        simp only [hone, ha]
        unfold takeBack
        simp only [show (item.reverse a).commissionBase = item.commissionBase from rfl, hb, ite_self]
      | some b =>
        have hs : item.status ≠ .reversed ∧ item.status ≠ .paid := by simpa using hs
        show (item.reverse a).takeBack data' = (item.reverse b).takeBack data
        rw [takeBack_reverse hs hb, takeBack_reverse hs ha]
        have hla := item.reversedFor_le a
        have hlb := item.reversedFor_le b
        have hlr := item.reversedAmount_le
        clear hone ha hb hs
        split_ifs <;> refine eq_of_terms (by simp only [reverse_terms]) ?_ ?_ <;>
          simp only [reverse_units, reverse_status, reverse_commissionAmount, reverse_reversedFor] <;> grind

theorem revise_comm : (item.revise data).revise data' = (item.revise data').revise data := by
  have hnames (d d' : Json) : names d' (item.revise d) = names d' item := by
    unfold revise
    split
    · exact names_takeBack
    · rfl
  unfold revise at hnames ⊢
  rw [hnames, hnames]
  cases names data item <;> cases names data' item <;> simp [takeBack_comm]

theorem revise_key (data : Json) (item : Commission) :
    (item.revise data).providerInvoiceId = item.providerInvoiceId ∧ (item.revise data).providerPaymentId = item.providerPaymentId ∧
      (item.revise data).referredUserId = item.referredUserId := by
  unfold revise
  split
  · exact takeBack_key data item
  · exact ⟨rfl, rfl, rfl⟩

/-- How far a commission is taken back. -/
def progress (amounts : Numeric 2 × Numeric 2 × Numeric 2 × CommissionStatus) : Nat :=
  2 * amounts.2.2.1.units.toNat + if amounts.2.2.2 = .reversed then 1 else 0

theorem progress_revise : item.revise data = item ∨ progress item.amounts < progress (item.revise data).amounts := by
  unfold revise
  split
  · rcases takeBack_cases data item with h | ⟨refund, h, hs, -⟩
    · exact .inl h
    · rw [h]
      have hr := item.reversedAmount_nonneg
      show _ ∨ 2 * item.reversedAmount.units.toNat + (if item.status = .reversed then 1 else 0) <
        2 * (item.reverse refund).reversedAmount.units.toNat + (if (item.reverse refund).status = .reversed then 1 else 0)
      rw [if_neg hs, reverse_units]
      by_cases hmore : item.reversedAmount.units < (item.reversedFor refund).units
      · right
        omega
      · by_cases hfull : item.commissionAmount.units ≤ max item.reversedAmount.units (item.reversedFor refund).units
        · have hstatus : (item.reverse refund).status = .reversed := by rw [reverse_status, if_pos hfull]
          right
          rw [if_pos hstatus]
          omega
        · refine .inl (Commission.ext rfl rfl rfl rfl rfl rfl rfl rfl (Numeric.ext ?_) ?_)
          · rw [reverse_units]
            omega
          · rw [reverse_status, if_neg hfull]
  · exact .inl rfl

end Commission

/-- The commissions on a user's invoices; a user's count while they are not reversed. -/
def commissionLedger (referredUserId : UserId) (recurringMonths : Nat) :
    Ledger Commission Json String (Numeric 2 × Numeric 2 × Numeric 2 × CommissionStatus) where
  key := Commission.providerInvoiceId
  counts item := item.referredUserId = referredUserId && item.status ≠ .reversed
  limit := recurringMonths
  revise := Commission.revise
  view := Commission.amounts
  progress := Commission.progress
  key_revise data item := (Commission.revise_key data item).1
  revise_comm _ _ _ := Commission.revise_comm
  counts_of_revise {data item} h := by
    simp only [Bool.and_eq_true, decide_eq_true_eq, (Commission.revise_key data item).2.2] at h ⊢
    refine ⟨h.1, fun hs => h.2 ?_⟩
    unfold Commission.revise Commission.takeBack
    split
    · rw [if_pos (by simp [hs])]
      exact hs
    · exact hs
  progress_revise := Commission.progress_revise

/-! ## The service and the ledger -/

namespace AffiliateDb

variable {db db' : AffiliateDb} {billing : BillingDb} {now : Time} {data : Json} {subscription : BillingSubscription}

/-- What is compared of the commissions, invoice by invoice. -/
def ledger (db : AffiliateDb) : List Commission := db.commissions.map (·.toCommission)

/-- What a paid invoice would earn, were its invoice new and the limit not reached. -/
def earns (db : AffiliateDb) (subscription : BillingSubscription) (data : Json) : Option (Option Commission) :=
  match textOrNone ((data.get "invoice_id").orElse (data.get "id")), affiliateSubscriptionId data, db.affiliateOf subscription.userId with
  | some invoiceId, some subscriptionId, some profile =>
    (newCommission db.settings 0 subscription profile invoiceId subscriptionId data).map (·.map (·.toCommission))
  | _, _, _ => some none

/-- What is earned is the user's, and pending. -/
theorem pending_of_earns {item : Commission} (h : (db.earns subscription data).join = some item) :
    item.referredUserId = subscription.userId ∧ item.status = .pending := by
  unfold earns at h
  split at h
  · obtain ⟨earned, hearned, hjoin⟩ := Option.map_eq_some_iff.mp (Option.join_eq_some_iff.mp h)
    obtain ⟨row, rfl, rfl⟩ := Option.map_eq_some_iff.mp hjoin
    obtain ⟨base, -, hnew⟩ := Option.bind_eq_some_iff.mp hearned
    split at hnew
    · split at hnew
      · dsimp only at hnew
        split at hnew
        · cases hnew
          exact ⟨rfl, rfl⟩
        · cases hnew
      · cases hnew
    · cases hnew
  · cases h

/-- The time is in no amount. -/
theorem newCommission_now (config : AffiliateSetting) (now : Time) (subscription : BillingSubscription) (profile : AffiliateProfile)
    (invoiceId subscriptionId : String) (data : Json) :
    (newCommission config now subscription profile invoiceId subscriptionId data).map (·.map (·.toCommission)) =
      (newCommission config 0 subscription profile invoiceId subscriptionId data).map (·.map (·.toCommission)) := by
  have hitem (base : Numeric 2) (h : 0 < base.units) (hamount : (commissionAmountOf base (profile.effectiveRate config)).units < 10 ^ 14) :
      (commissionOn config now subscription profile invoiceId subscriptionId data base h hamount).toCommission =
        (commissionOn config 0 subscription profile invoiceId subscriptionId data base h hamount).toCommission ∧
      (commissionOn config now subscription profile invoiceId subscriptionId data base h hamount).currency =
        (commissionOn config 0 subscription profile invoiceId subscriptionId data base h hamount).currency := ⟨rfl, rfl⟩
  unfold newCommission
  cases money (collected data) with
  | none => rw [Option.bind_none, Option.bind_none]
  | some base =>
    rw [Option.bind_some, Option.bind_some]
    by_cases h : 0 < base.units
    · rw [dif_pos h, dif_pos h]
      by_cases hamount : (commissionAmountOf base (profile.effectiveRate config)).units < 10 ^ 14
      · obtain ⟨hcore, hcurrency⟩ := hitem base h hamount
        rw [dif_pos hamount, dif_pos hamount]
        dsimp only
        rw [AffiliateCommission.fits, hcore, hcurrency]
        split
        · rename_i hfits
          rw [if_pos (by rw [AffiliateCommission.fits]; exact hfits)]
          simp only [Option.map_some, hcore]
        · rename_i hfits
          rw [if_neg (by rw [AffiliateCommission.fits]; exact hfits)]
      · rw [dif_neg hamount, dif_neg hamount]
    · rw [dif_neg h, dif_neg h]

omit [Python] [Unicode] in
theorem ledger_add {item : AffiliateCommission} (h : db.add item = some db') : db'.ledger = db.ledger ++ [item.toCommission] ∧
    db'.profiles = db.profiles ∧ db'.attributions = db.attributions ∧ db'.settings = db.settings := by
  unfold add at h
  split at h
  · cases h
    exact ⟨by simp [ledger], rfl, rfl, rfl⟩
  · cases h

omit [Python] [Unicode] in
theorem add_isSome {item : AffiliateCommission} (h : (db.commissionByInvoice item.providerInvoiceId).isSome = false) :
    ∃ db', db.add item = some db' := by
  have hnot : item.providerInvoiceId ∉ db.commissions.map (·.providerInvoiceId) := fun hmem => by
    obtain ⟨row, hr, hid⟩ := List.mem_map.mp hmem
    have hsome : (db.commissionByInvoice item.providerInvoiceId).isSome :=
      List.find?_isSome.mpr ⟨row, hr, by simpa using hid⟩
    rw [h] at hsome
    cases hsome
  unfold add
  rw [dif_pos hnot]
  exact ⟨_, rfl⟩

theorem providerInvoiceId_newCommission {config : AffiliateSetting} {profile : AffiliateProfile} {invoiceId subscriptionId : String}
    {item : AffiliateCommission} (h : newCommission config now subscription profile invoiceId subscriptionId data = some (some item)) :
    item.providerInvoiceId = invoiceId := by
  obtain ⟨base, -, h⟩ := Option.bind_eq_some_iff.mp h
  split at h
  · split at h
    · dsimp only at h
      split at h
      · cases h
        rfl
      · cases h
    · cases h
  · cases h

theorem has_ledger (db : AffiliateDb) (userId : UserId) (limit : Nat) (invoiceId : String) :
    (commissionLedger userId limit).has db.ledger invoiceId = (db.commissionByInvoice invoiceId).isSome := by
  rw [Bool.eq_iff_iff, Ledger.has_iff, commissionByInvoice, List.find?_isSome, ledger]
  simp [commissionLedger]

/-- A paid invoice adds what it earns. -/
theorem create_ledger (now : Time) (hrow : billing.getSubscriptionByProviderId (invoiceProviderId data).text = some subscription)
    (hearns : (db.earns subscription data).isSome) :
    ∃ db', createCommissionFromPaidInvoice billing now data db = some db' ∧
      db'.profiles = db.profiles ∧ db'.attributions = db.attributions ∧ db'.settings = db.settings ∧
      db'.ledger = match (db.earns subscription data).join with
        | some item => (commissionLedger subscription.userId db.settings.recurringMonths).step db.ledger (.add item)
        | none => db.ledger := by
  unfold createCommissionFromPaidInvoice
  unfold earns at hearns ⊢
  cases hi : textOrNone ((data.get "invoice_id").orElse (data.get "id")) with
  | none => exact ⟨db, rfl, rfl, rfl, rfl, rfl⟩
  | some invoiceId =>
    cases hsub : affiliateSubscriptionId data with
    | none => exact ⟨db, rfl, rfl, rfl, rfl, rfl⟩
    | some subscriptionId =>
      have htext : subscriptionId = (invoiceProviderId data).text := by
        unfold affiliateSubscriptionId textOrNone at hsub
        split at hsub
        · exact (Option.some.inj hsub).symm
        · cases hsub
      rw [hi, hsub] at hearns
      simp only [htext ▸ hrow] at hearns ⊢
      cases hp : db.affiliateOf subscription.userId with
      | none => exact ⟨db, by simp, rfl, rfl, rfl, by simp⟩
      | some profile =>
        rw [hp] at hearns
        dsimp only at hearns ⊢
        cases hn : newCommission db.settings now subscription profile invoiceId subscriptionId data with
        | none => rw [← newCommission_now db.settings now, hn] at hearns; cases hearns
        | some earned =>
          rw [← newCommission_now db.settings now, hn]
          cases earned with
          | none => exact ⟨db, by simp, rfl, rfl, rfl, by simp⟩
          | some item =>
            have hkey : item.providerInvoiceId = invoiceId := providerInvoiceId_newCommission hn
            have hhas := has_ledger db subscription.userId db.settings.recurringMonths invoiceId
            have hcount : db.ledger.countP (commissionLedger subscription.userId db.settings.recurringMonths).counts =
                db.countQualifyingCommissions subscription.userId := by
              rw [ledger, List.countP_map]
              rfl
            simp only [Option.map_some, Option.join_some, Ledger.step]
            rw [show (commissionLedger subscription.userId db.settings.recurringMonths).key item.toCommission = invoiceId from hkey, hhas, hcount,
              show (commissionLedger subscription.userId db.settings.recurringMonths).limit = db.settings.recurringMonths from rfl]
            cases hstored : (db.commissionByInvoice invoiceId).isSome with
            | true => exact ⟨db, by simp, rfl, rfl, rfl, by simp⟩
            | false =>
              by_cases hlimit : db.settings.recurringMonths ≤ db.countQualifyingCommissions subscription.userId
              · exact ⟨db, by simp [hlimit], rfl, rfl, rfl, by simp [hlimit]⟩
              · obtain ⟨db', hadd⟩ := add_isSome (by rw [hkey, hstored])
                obtain ⟨hledger, hprofiles, hattributions, hsettings⟩ := ledger_add hadd
                exact ⟨db', by simp [hlimit, hadd], hprofiles, hattributions, hsettings, by simp [hlimit, hledger]⟩

omit [Unicode] in
/-- What is found to take back is named, and where something is named something is found. -/
theorem commissionForReversal_cases (db : AffiliateDb) (data : Json) :
    match db.commissionForReversal (paymentId data) (textOrNone (data.get "invoice_id")) with
    | some item => item ∈ db.commissions ∧ names data item.toCommission
    | none => ∀ row ∈ db.commissions, names data row.toCommission = false := by
  have hinvoice {item : AffiliateCommission} (h : (textOrNone (data.get "invoice_id")).bind db.commissionByInvoice = some item) :
      item ∈ db.commissions ∧ names data item.toCommission := by
    obtain ⟨id, hid, hfind⟩ := Option.bind_eq_some_iff.mp h
    have hkey : item.providerInvoiceId = id := by simpa using List.find?_some hfind
    exact ⟨List.mem_of_find?_eq_some hfind, by simp [names, hid, hkey]⟩
  have hpayment {item : AffiliateCommission}
      (h : ((paymentId data).bind fun id => db.commissions.reverse.find? (·.providerPaymentId = some id)) = some item) :
      item ∈ db.commissions ∧ names data item.toCommission := by
    obtain ⟨id, hid, hfind⟩ := Option.bind_eq_some_iff.mp h
    have hkey : item.providerPaymentId = some id := by simpa using List.find?_some hfind
    exact ⟨List.mem_reverse.mp (List.mem_of_find?_eq_some hfind), by simp [names, hid, hkey]⟩
  cases h : db.commissionForReversal (paymentId data) (textOrNone (data.get "invoice_id")) with
  | some item =>
    rcases Option.or_eq_some_iff.mp h with h | ⟨-, h⟩
    · exact hinvoice h
    · exact hpayment h
  | none =>
    obtain ⟨hi, hp⟩ := Option.or_eq_none_iff.mp h
    intro row hr
    rw [Bool.eq_false_iff]
    intro hnames
    simp only [names, Bool.or_eq_true, Bool.and_eq_true, decide_eq_true_eq] at hnames
    rcases hnames with hid | ⟨hsome, hid⟩
    · rw [hid, Option.bind_some] at hi
      exact List.find?_eq_none.1 hi row hr (by simp)
    · obtain ⟨id, hid'⟩ := Option.isSome_iff_exists.mp hsome
      rw [hid', Option.bind_some] at hp
      exact List.find?_eq_none.1 hp row (List.mem_reverse.mpr hr) (by simp [← hid, hid'])

/-- A refund or a dispute revises the commission that it names. -/
theorem reverse_ledger (db : AffiliateDb) (now : Time) (reason : String) (hread : ∀ base, (refundBase data base).isSome)
    (hone : ∀ x ∈ db.ledger, ∀ y ∈ db.ledger, names data x → names data y → x.providerInvoiceId = y.providerInvoiceId) :
    ∃ db', reverseCommission now data reason db = some db' ∧
      db'.profiles = db.profiles ∧ db'.attributions = db.attributions ∧ db'.settings = db.settings ∧
      db'.ledger = db.ledger.map (Commission.revise data) := by
  have hcases := commissionForReversal_cases db data
  unfold reverseCommission
  cases hfound : db.commissionForReversal (paymentId data) (textOrNone (data.get "invoice_id")) with
  | none =>
    rw [hfound] at hcases
    refine ⟨db, rfl, rfl, rfl, rfl, ((List.map_congr_left fun x hx => ?_).trans (List.map_id _)).symm⟩
    obtain ⟨row, hr, rfl⟩ := List.mem_map.mp hx
    show Commission.revise data row.toCommission = row.toCommission
    rw [Commission.revise, if_neg (by rw [hcases row hr]; simp)]
  | some item =>
    rw [hfound] at hcases
    obtain ⟨hitem, hnames⟩ := hcases
    have hmem : item.toCommission ∈ db.ledger := List.mem_map_of_mem hitem
    -- the rows it names are the one found
    have hrow (row : AffiliateCommission) (hr : row ∈ db.commissions) :
        names data row.toCommission = decide (row.providerInvoiceId = item.providerInvoiceId) := by
      rw [Bool.eq_iff_iff, decide_eq_true_eq]
      constructor
      · exact fun h => hone _ (List.mem_map_of_mem hr) _ hmem h hnames
      · intro h
        cases List.inj_on_of_nodup_map db.unique_invoice hr hitem h
        exact hnames
    dsimp only
    by_cases hs : (decide (item.status = .reversed) || decide (item.status = .paid)) = true
    · refine ⟨db, by rw [if_pos hs], rfl, rfl, rfl, ((List.map_congr_left fun x hx => ?_).trans (List.map_id _)).symm⟩
      obtain ⟨row, hr, rfl⟩ := List.mem_map.mp hx
      show Commission.revise data row.toCommission = row.toCommission
      rw [Commission.revise, hrow row hr]
      split
      · rename_i h
        cases List.inj_on_of_nodup_map db.unique_invoice hr hitem (of_decide_eq_true h)
        rw [Commission.takeBack, if_pos hs]
      · rfl
    · obtain ⟨refund, hrefund⟩ := Option.isSome_iff_exists.mp (hread item.commissionBase)
      rw [if_neg hs, hrefund, Option.map_some]
      refine ⟨_, rfl, rfl, rfl, rfl, ?_⟩
      simp only [ledger, List.map_map]
      refine List.map_congr_left fun row hr => ?_
      simp only [Function.comp_apply, Commission.revise, hrow row hr, decide_eq_true_eq]
      split
      · rename_i h
        cases List.inj_on_of_nodup_map db.unique_invoice hr hitem h
        rw [Commission.takeBack, if_neg hs, hrefund]
      · rfl

end AffiliateDb

/-! ## The events about a user's invoices -/

/-- What an event does to the ledger, if anything. -/
def ledgerEvent (affiliates : AffiliateDb) (subscription : BillingSubscription) (event : Json) : Option (LedgerEvent Commission Json) :=
  match envelope event with
  | .ok (_, .paid, data) => (affiliates.earns subscription data).join.map .add
  | .ok (_, .refund_paid, data) => some (.revise data)
  | .ok (_, .dispute_created, data) => some (.revise data)
  | _ => none

/-- The event is a paid invoice of the subscription, a refund or a dispute, with amounts
that can be read and stored. -/
def Readable (affiliates : AffiliateDb) (subscription : BillingSubscription) (event : Json) : Prop :=
  match envelope event with
  | .ok (id, .paid, data) => id.length ≤ 100 ∧ (invoiceProviderId data).text = subscription.providerSubscriptionId ∧
      (affiliates.earns subscription data).isSome
  | .ok (id, .refund_paid, data) | .ok (id, .dispute_created, data) => id.length ≤ 100 ∧ ∀ base, (refundBase data base).isSome
  | _ => False

/-- The events about the invoices of a user's subscription that is not cancelled, each new
to the webhook. An invoice's paid events say the same, and a refund or a dispute is
about one invoice. -/
structure InvoiceEvents where
  users : AuthDb
  billing : BillingDb
  affiliates : AffiliateDb
  subscription : BillingSubscription
  stored : subscription ∈ billing.subscriptions
  live : subscription.status ≠ .canceled
  fits : subscription.fits
  events : List Json
  unclaimed : ∀ event ∈ events, ∀ id ∈ eventId event, id ∉ billing.events
  identified : (events.filterMap eventId).Nodup
  readable : ∀ event ∈ events, Readable affiliates subscription event
  oneCommission : ∀ x ∈ added (events.filterMap (ledgerEvent affiliates subscription)),
    ∀ y ∈ added (events.filterMap (ledgerEvent affiliates subscription)), x.providerInvoiceId = y.providerInvoiceId → x = y
  oneInvoice : ∀ data ∈ revisions (events.filterMap (ledgerEvent affiliates subscription)),
    ∀ x ∈ affiliates.ledger ++ added (events.filterMap (ledgerEvent affiliates subscription)),
      ∀ y ∈ affiliates.ledger ++ added (events.filterMap (ledgerEvent affiliates subscription)),
        names data x → names data y → x.providerInvoiceId = y.providerInvoiceId

namespace InvoiceEvents

variable (c : InvoiceEvents) (settings : BillingSettings)

def history : List (LedgerEvent Commission Json) := c.events.filterMap (ledgerEvent c.affiliates c.subscription)

def ledger : Ledger Commission Json String (Numeric 2 × Numeric 2 × Numeric 2 × CommissionStatus) :=
  commissionLedger c.subscription.userId c.affiliates.settings.recurringMonths

/-- An event is delivered; what fails leaves everything as it is. -/
def deliver (s : BillingDb × AffiliateDb) (delivery : Time × Json) : BillingDb × AffiliateDb :=
  match processWebhookEvent settings delivery.1 affiliateService c.users s.1 s.2 delivery.2 with
  | .ok (_, s) => s
  | .error _ => s

def deliverAll (deliveries : List (Time × Json)) : BillingDb × AffiliateDb :=
  deliveries.foldl (c.deliver settings) (c.billing, c.affiliates)

/-- The amounts of the commission on an invoice after all deliveries. -/
def amountsAfter (deliveries : List (Time × Json)) (invoiceId : String) : Option (Numeric 2 × Numeric 2 × Numeric 2 × CommissionStatus) :=
  ((c.deliverAll settings deliveries).2.commissionByInvoice invoiceId).map (·.amounts)

/-- The tables hold these commissions; the subscription's row is as good as before, and
the commissions are on invoices and payments known before or added. -/
structure Simulates (s : BillingDb × AffiliateDb) (items : List Commission) : Prop where
  row : ∃ row ∈ s.1.subscriptions, row.providerSubscriptionId = c.subscription.providerSubscriptionId ∧ row.userId = c.subscription.userId ∧
    row.currency = c.subscription.currency ∧ row.status ≠ .canceled ∧ row.fits
  profiles : s.2.profiles = c.affiliates.profiles
  attributions : s.2.attributions = c.affiliates.attributions
  config : s.2.settings = c.affiliates.settings
  items_eq : s.2.ledger = items
  known : ∀ x ∈ items, ∃ y ∈ c.affiliates.ledger ++ added c.history,
    x.providerInvoiceId = y.providerInvoiceId ∧ x.providerPaymentId = y.providerPaymentId

variable {c settings} {s : BillingDb × AffiliateDb} {items : List Commission}

theorem simulates_start : c.Simulates (c.billing, c.affiliates) c.affiliates.ledger where
  row := ⟨c.subscription, c.stored, rfl, rfl, rfl, c.live, c.fits⟩
  profiles := rfl
  attributions := rfl
  config := rfl
  items_eq := rfl
  known x hx := ⟨x, List.mem_append_left _ hx, rfl, rfl⟩

theorem earns_congr {db db' : AffiliateDb} {row row' : BillingSubscription} (hp : db.profiles = db'.profiles)
    (ha : db.attributions = db'.attributions) (hs : db.settings = db'.settings) (hu : row.userId = row'.userId)
    (hc : row.currency = row'.currency) (data : Json) : db.earns row data = db'.earns row' data := by
  have hof : db.affiliateOf row.userId = db'.affiliateOf row'.userId := by rw [AffiliateDb.affiliateOf, AffiliateDb.affiliateOf, hp, ha, hu]
  have hnew : AffiliateDb.newCommission db.settings 0 row = AffiliateDb.newCommission db'.settings 0 row' := by
    funext profile invoiceId subscriptionId data
    unfold AffiliateDb.newCommission AffiliateDb.commissionOn
    simp only [hs, hu, hc]
  rw [AffiliateDb.earns, AffiliateDb.earns, hof, hnew]

omit [Python] [Unicode] in
theorem fits_withStatus {row : BillingSubscription} {now : Time} {status : BillingStatus} :
    (row.withStatus settings now status).fits = row.fits ∧ (row.withStatus settings now status).currency = row.currency := by
  cases status <;> exact ⟨rfl, rfl⟩

/-- What a step of the ledger keeps of what is known. -/
theorem known_step {e : LedgerEvent Commission Json} (he : e ∈ c.history)
    (h : ∀ x ∈ items, ∃ y ∈ c.affiliates.ledger ++ added c.history,
      x.providerInvoiceId = y.providerInvoiceId ∧ x.providerPaymentId = y.providerPaymentId) :
    ∀ x ∈ c.ledger.step items e, ∃ y ∈ c.affiliates.ledger ++ added c.history,
      x.providerInvoiceId = y.providerInvoiceId ∧ x.providerPaymentId = y.providerPaymentId := by
  intro x hx
  cases e with
  | add item =>
    rw [Ledger.step] at hx
    split at hx
    · exact h x hx
    · rcases List.mem_append.mp hx with hx | hx
      · exact h x hx
      · cases List.mem_singleton.mp hx
        exact ⟨x, List.mem_append_right _ (List.mem_filterMap.mpr ⟨_, he, rfl⟩), rfl, rfl⟩
  | revise data =>
    obtain ⟨old, hold, rfl⟩ := List.mem_map.mp hx
    obtain ⟨y, hy, hinvoice, hpayment⟩ := h old hold
    obtain ⟨hi, hp, -⟩ := Commission.revise_key data old
    exact ⟨y, hy, (show (Commission.revise data old).providerInvoiceId = _ from hi.trans hinvoice), hp.trans hpayment⟩

variable (settings) in
/-- A paid invoice is processed. -/
theorem Simulates.paid (h : c.Simulates s items) {event : Json} (hevent : event ∈ c.events) {id : String} {data : Json}
    (henvelope : envelope event = .ok (id, .paid, data)) (now : Time) :
    ∃ s', processPaidInvoice settings now affiliateService { s.1 with events := s.1.events ++ [id] } s.2 data = .ok s' ∧
      s'.1.events = s.1.events ++ [id] ∧
      c.Simulates s' ((ledgerEvent c.affiliates c.subscription event).elim items (c.ledger.step items)) := by
  have hread := c.readable event hevent
  simp only [Readable, henvelope] at hread
  obtain ⟨-, hid, hearns⟩ := hread
  obtain ⟨row, hr, hprovider, huser, hcurrency, hlive, hfits⟩ := h.row
  have hrow : s.1.getSubscriptionByProviderId (invoiceProviderId data).text = some row := by
    rw [hid, ← hprovider]
    exact BillingDb.getSubscriptionByProviderId_of_mem hr
  obtain ⟨hfits', hcurrency'⟩ : (row.withStatus settings now .active).fits = row.fits ∧
      (row.withStatus settings now .active).currency = row.currency := fits_withStatus
  have hprovider' : (row.withStatus settings now .active).providerSubscriptionId = row.providerSubscriptionId :=
    BillingSubscription.withStatus_providerSubscriptionId row .active
  obtain ⟨db', hsave⟩ : ∃ db', BillingDb.save { s.1 with events := s.1.events ++ [id] } (row.withStatus settings now .active) = .ok db' :=
    BillingDb.exists_save hr (by simp) (by simp) (hfits'.trans hfits)
  obtain ⟨hmem, -⟩ := BillingDb.mem_of_save hsave
  have hlookup : db'.getSubscriptionByProviderId (invoiceProviderId data).text = some (row.withStatus settings now .active) := by
    rw [hid, ← hprovider, ← hprovider']
    exact BillingDb.getSubscriptionByProviderId_of_mem hmem
  have hsame : s.2.earns (row.withStatus settings now .active) data = c.affiliates.earns c.subscription data :=
    earns_congr h.profiles h.attributions h.config ((BillingSubscription.withStatus_userId ..).trans huser) (hcurrency'.trans hcurrency) data
  obtain ⟨tables, hcreate, hprofiles, hattributions, hsettings, hledger⟩ :=
    AffiliateDb.create_ledger now hlookup (by rw [hsame]; exact hearns)
  have hevent' : ledgerEvent c.affiliates c.subscription event = (c.affiliates.earns c.subscription data).join.map .add := by
    simp only [ledgerEvent, henvelope]
  refine ⟨(db', tables), ?_, (BillingDb.save_eq_ok hsave).1, ?_⟩
  · have hrow' : BillingDb.getSubscriptionByProviderId { s.1 with events := s.1.events ++ [id] } (invoiceProviderId data).text = some row :=
      hrow
    have hcreate' : affiliateService.createCommissionFromPaidInvoice db' now data s.2 = some tables := hcreate
    simp only [processPaidInvoice, bind, Except.bind, pure, Except.pure, hrow', if_neg hlive, hsave, hcreate']
  · rw [hsame, BillingSubscription.withStatus_userId, huser, h.config, h.items_eq] at hledger
    refine ⟨⟨_, hmem, by simpa using hprovider, by simpa using huser, hcurrency'.trans hcurrency, by simp, hfits'.trans hfits⟩,
      hprofiles.trans h.profiles, hattributions.trans h.attributions, hsettings.trans h.config, ?_, ?_⟩
    · rw [hledger, hevent']
      cases (c.affiliates.earns c.subscription data).join <;> rfl
    · rw [hevent']
      cases hearned : (c.affiliates.earns c.subscription data).join with
      | none => exact h.known
      | some item =>
        rw [Option.map_some, Option.elim_some]
        refine known_step ?_ h.known
        exact List.mem_filterMap.mpr ⟨event, hevent, by rw [hevent', hearned]; rfl⟩

/-- A refund or a dispute is processed. -/
theorem Simulates.takenBack (h : c.Simulates s items) {event : Json} (hevent : event ∈ c.events) {data : Json}
    (hledger : ledgerEvent c.affiliates c.subscription event = some (.revise data)) (hread : ∀ base, (refundBase data base).isSome)
    (now : Time) (reason : String) (events : List String) :
    ∃ s', reverse now affiliateService { s.1 with events } s.2 data reason = .ok s' ∧ s'.1.events = events ∧
      c.Simulates s' (c.ledger.step items (.revise data)) := by
  have hin : LedgerEvent.revise data ∈ c.history := List.mem_filterMap.mpr ⟨event, hevent, hledger⟩
  have hknown (x : Commission) (hx : x ∈ s.2.ledger) : ∃ y ∈ c.affiliates.ledger ++ added c.history,
      x.providerInvoiceId = y.providerInvoiceId ∧ names data x = names data y := by
    obtain ⟨y, hy, hinvoice, hpayment⟩ := h.known x (h.items_eq ▸ hx)
    exact ⟨y, hy, hinvoice, by rw [names, names, hinvoice, hpayment]⟩
  obtain ⟨tables, hreverse, hprofiles, hattributions, hsettings, hitems⟩ :=
    AffiliateDb.reverse_ledger s.2 now reason hread fun x hx y hy hnx hny => by
      obtain ⟨x', hx', hix, hnames⟩ := hknown x hx
      obtain ⟨y', hy', hiy, hnames'⟩ := hknown y hy
      rw [hix, hiy]
      exact c.oneInvoice data (List.mem_filterMap.mpr ⟨_, hin, rfl⟩) x' hx' y' hy' (hnames ▸ hnx) (hnames' ▸ hny)
  have hreverse' : affiliateService.reverseCommission now data reason s.2 = some tables := hreverse
  refine ⟨({ s.1 with events }, tables), by simp only [reverse, hreverse'], rfl, h.row, hprofiles.trans h.profiles,
    hattributions.trans h.attributions, hsettings.trans h.config, ?_, known_step hin h.known⟩
  rw [hitems, h.items_eq]
  rfl

variable (settings) in
/-- A new event is a step of the ledger. -/
theorem Simulates.deliver (h : c.Simulates s items) {event : Json} (hevent : event ∈ c.events)
    (hnew : ∀ id ∈ eventId event, id ∉ s.1.events) (now : Time) :
    (c.deliver settings s (now, event)).1.events = s.1.events ++ (eventId event).toList ∧
      c.Simulates (c.deliver settings s (now, event)) ((ledgerEvent c.affiliates c.subscription event).elim items (c.ledger.step items)) := by
  have hread := c.readable event hevent
  unfold InvoiceEvents.deliver
  cases henvelope : envelope event with
  | error e => simp [Readable, henvelope] at hread
  | ok parts =>
    obtain ⟨id, eventType, data⟩ := parts
    have hid : eventId event = some id := by simp [eventId, henvelope, Except.toOption]
    have hfresh := hnew id hid
    simp only [processWebhookEvent, bind, Except.bind, pure, Except.pure, henvelope, if_neg hfresh, hid, Option.toList_some]
    simp only [Readable, henvelope] at hread
    cases eventType with
    | paid =>
      obtain ⟨s', hs, hevents, hsim⟩ := h.paid settings hevent henvelope now
      simp only [EventType.fits, handleEvent, hs]
      rw [if_neg (by simp; omega)]
      exact ⟨hevents, hsim⟩
    | refund_paid =>
      have hledger : ledgerEvent c.affiliates c.subscription event = some (.revise data) := by simp only [ledgerEvent, henvelope]
      obtain ⟨s', hs, hevents, hsim⟩ := h.takenBack hevent hledger hread.2 now "refund" (s.1.events ++ [id])
      simp only [EventType.fits, handleEvent, hs]
      rw [if_neg (by simp; omega), hledger]
      exact ⟨hevents, hsim⟩
    | dispute_created =>
      have hledger : ledgerEvent c.affiliates c.subscription event = some (.revise data) := by simp only [ledgerEvent, henvelope]
      obtain ⟨s', hs, hevents, hsim⟩ := h.takenBack hevent hledger hread.2 now "dispute" (s.1.events ++ [id])
      simp only [EventType.fits, handleEvent, hs]
      rw [if_neg (by simp; omega), hledger]
      exact ⟨hevents, hsim⟩
    | _ => exact absurd hread (by simp)

variable (settings) in
/-- A run is a history of the ledger. -/
theorem Simulates.deliverAll {deliveries : List (Time × Json)} (h : c.Simulates s items)
    (hevents : ∀ delivery ∈ deliveries, delivery.2 ∈ c.events)
    (hn : ((deliveries.map (·.2)).filterMap eventId).Nodup)
    (hnew : ∀ delivery ∈ deliveries, ∀ id ∈ eventId delivery.2, id ∉ s.1.events) :
    c.Simulates (deliveries.foldl (c.deliver settings) s)
      (c.ledger.replay items ((deliveries.map (·.2)).filterMap (ledgerEvent c.affiliates c.subscription))) := by
  induction deliveries generalizing s items with
  | nil => exact h
  | cons delivery deliveries ih =>
    obtain ⟨now, event⟩ := delivery
    obtain ⟨hclaims, hsim⟩ := h.deliver settings (hevents _ List.mem_cons_self) (hnew _ List.mem_cons_self) now
    have hrest : ((deliveries.map (·.2)).filterMap eventId).Nodup ∧
        ∀ id ∈ eventId event, id ∉ (deliveries.map (·.2)).filterMap eventId := by
      rw [List.map_cons, List.filterMap_cons] at hn
      cases hid : eventId event with
      | none =>
        rw [hid] at hn
        exact ⟨hn, fun _ h => by cases h⟩
      | some id =>
        rw [hid] at hn
        obtain ⟨hnot, hn⟩ := List.nodup_cons.mp hn
        exact ⟨hn, fun id' h => by cases h; exact hnot⟩
    have hstep := ih hsim (fun delivery hd => hevents delivery (List.mem_cons_of_mem _ hd)) hrest.1 fun delivery hd id hid => by
      rw [hclaims, List.mem_append, Option.mem_toList, not_or]
      refine ⟨hnew delivery (List.mem_cons_of_mem _ hd) id hid, fun he => hrest.2 id he ?_⟩
      exact List.mem_filterMap.mpr ⟨delivery.2, List.mem_map_of_mem hd, hid⟩
    rw [List.foldl_cons, List.map_cons, List.filterMap_cons]
    cases hledger : ledgerEvent c.affiliates c.subscription event with
    | none =>
      rw [hledger] at hstep
      exact hstep
    | some e =>
      rw [hledger] at hstep
      exact hstep

/-- What is seen after a run of all events, in the order of the run. -/
theorem amountsAfter_eq {deliveries : List (Time × Json)} (h : (deliveries.map (·.2)).Perm c.events) (invoiceId : String) :
    c.amountsAfter settings deliveries invoiceId = c.ledger.look
      (c.ledger.replay c.affiliates.ledger ((deliveries.map (·.2)).filterMap (ledgerEvent c.affiliates c.subscription))) invoiceId := by
  have hmem (delivery : Time × Json) (hd : delivery ∈ deliveries) : delivery.2 ∈ c.events :=
    h.mem_iff.mp (List.mem_map_of_mem hd)
  have hsim := simulates_start.deliverAll settings hmem ((h.filterMap _).nodup_iff.mpr c.identified)
    fun delivery hd id hid => c.unclaimed _ (hmem delivery hd) id hid
  rw [← hsim.items_eq]
  unfold amountsAfter InvoiceEvents.deliverAll AffiliateDb.commissionByInvoice Ledger.look AffiliateDb.ledger
  rw [List.find?_map, Option.map_map]
  rfl

/-- All orders of the events come to the same commissions iff none of them earns one on an
invoice without; or, all taken back, as many still count as the limit allows; or there is
room for all they earn and no refund or dispute takes back any of that. -/
theorem commissions_orderFree_iff (c : InvoiceEvents) (settings : BillingSettings) :
    (∀ l₁ l₂ : List (Time × Json), (l₁.map (·.2)).Perm c.events → (l₂.map (·.2)).Perm c.events →
        ∀ invoiceId, c.amountsAfter settings l₁ invoiceId = c.amountsAfter settings l₂ invoiceId) ↔
      c.ledger.fresh c.affiliates.ledger c.history = [] ∨
        c.affiliates.settings.recurringMonths ≤
          (c.affiliates.ledger.map (c.ledger.reviseAll (revisions c.history))).countP c.ledger.counts ∨
        c.affiliates.countQualifyingCommissions c.subscription.userId + (c.ledger.fresh c.affiliates.ledger c.history).length ≤
            c.affiliates.settings.recurringMonths ∧
          ∀ item ∈ added c.history, c.ledger.has c.affiliates.ledger item.providerInvoiceId = false →
            ∀ data ∈ revisions c.history, item.revise data = item := by
  have hcounts : ∀ item ∈ added c.history, c.ledger.counts item := fun item hi => by
    obtain ⟨e, he, hitem⟩ := List.mem_filterMap.mp hi
    obtain ⟨event, -, hledger⟩ := List.mem_filterMap.mp he
    unfold ledgerEvent at hledger
    split at hledger
    · obtain ⟨earned, hearned, rfl⟩ := Option.map_eq_some_iff.mp hledger
      cases hitem
      obtain ⟨huser, hstatus⟩ := AffiliateDb.pending_of_earns hearned
      simp [ledger, commissionLedger, huser, hstatus]
    · cases hledger
      cases hitem
    · cases hledger
      cases hitem
    · cases hledger
  have hcount : c.affiliates.ledger.countP c.ledger.counts = c.affiliates.countQualifyingCommissions c.subscription.userId := by
    rw [AffiliateDb.ledger, List.countP_map]
    rfl
  have hiff := Ledger.orderFree_iff (L := c.ledger) (s := c.affiliates.ledger) (l := c.history) hcounts
    fun x hx y hy hxy => congrArg _ (c.oneCommission x hx y hy hxy)
  rw [hcount] at hiff
  refine Iff.trans ?_ hiff
  constructor
  · intro h l₁ l₂ h₁ h₂ invoiceId
    obtain ⟨e₁, hp₁, rfl⟩ := Ledger.exists_perm_filterMap h₁
    obtain ⟨e₂, hp₂, rfl⟩ := Ledger.exists_perm_filterMap h₂
    have hmap (l : List Json) : (l.map fun event => ((0 : Time), event)).map (·.2) = l := by simp
    have hsame := h (e₁.map fun event => (0, event)) (e₂.map fun event => (0, event)) (by rwa [hmap]) (by rwa [hmap]) invoiceId
    rwa [amountsAfter_eq (by rwa [hmap]), amountsAfter_eq (by rwa [hmap]), hmap, hmap] at hsame
  · intro h l₁ l₂ h₁ h₂ invoiceId
    rw [amountsAfter_eq h₁, amountsAfter_eq h₂]
    exact h _ _ (h₁.filterMap _) (h₂.filterMap _) invoiceId

end InvoiceEvents

end

/-! ## A refund before its invoice -/

section

open BillingState

/-- A user with a subscription, referred by another. -/
def goldReferred : AffiliateDb where
  profiles := [{ userId := 1 }]
  attributions := [⟨1, 0⟩]
  unique_referred := by decide

def goldSubscribed : BillingSubscription where
  userId := 0
  providerSubscriptionId := "sub"
  providerProductId := "journal"
  plan := .journal
  status := .active
  copyAccountLimit := 0
  currency := "USD"
  amount := "30.00"

def goldPaidInvoice : Json :=
  goldEvent "1" "invoice.paid" [("id", .string "inv"), ("subscription_id", .string "sub"), ("amount_paid", .string "30.00")]

def goldRefund : Json := goldEvent "2" "refund.paid" [("invoice_id", .string "inv"), ("amount", .string "30.00")]

/-- An invoice is paid and refunded in full. -/
def goldRefunded : letI := Unicode.ascii; letI : Python := ⟨fun _ => "", fun _ => none⟩; InvoiceEvents :=
  letI := Unicode.ascii
  letI : Python := ⟨fun _ => "", fun _ => none⟩
  have hlength : (added ([goldPaidInvoice, goldRefund].filterMap (ledgerEvent goldReferred goldSubscribed))).length = 1 := by
    decide +kernel
  { users := {}
    billing := { subscriptions := [goldSubscribed], unique_user := by decide, unique_provider := by decide }
    affiliates := goldReferred
    subscription := goldSubscribed
    stored := List.mem_singleton_self _
    live := by decide
    fits := by decide
    events := [goldPaidInvoice, goldRefund]
    unclaimed := by simp
    identified := by decide +kernel
    readable := by
      intro event he
      rcases List.mem_cons.mp he with rfl | he
      · exact ⟨by decide, rfl, by decide +kernel⟩
      · cases List.mem_singleton.mp he
        have hread : (money (.string "30.00")).isSome := by decide +kernel
        refine ⟨by decide, fun base => ?_⟩
        show (refundBase (.object [("invoice_id", .string "inv"), ("amount", .string "30.00")]) base).isSome
        rw [refundBase, if_pos (by decide +kernel)]
        exact hread
    oneCommission := by
      obtain ⟨item, hitem⟩ := List.length_eq_one_iff.mp hlength
      intro x hx y hy _
      rw [hitem] at hx hy
      rw [List.mem_singleton.mp hx, List.mem_singleton.mp hy]
    oneInvoice := by
      obtain ⟨item, hitem⟩ := List.length_eq_one_iff.mp hlength
      intro data _ x hx y hy _ _
      have hnone : goldReferred.ledger = [] := rfl
      rw [hitem, hnone, List.nil_append] at hx hy
      rw [List.mem_singleton.mp hx, List.mem_singleton.mp hy] }

/-- The refund reverses the commission if it comes after the invoice, and is lost if it
comes before. -/
theorem earlyRefund_lost :
    let _ := Unicode.ascii
    let _ : Python := ⟨fun _ => "", fun _ => none⟩
    goldRefunded.amountsAfter goldBilling [(0, goldPaidInvoice), (0, goldRefund)] "inv" = some (⟨3000⟩, ⟨600⟩, ⟨600⟩, .reversed) ∧
      goldRefunded.amountsAfter goldBilling [(0, goldRefund), (0, goldPaidInvoice)] "inv" = some (⟨3000⟩, ⟨600⟩, ⟨0⟩, .pending) := by
  decide +kernel

end

end SignalSync
