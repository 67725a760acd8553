import SignalSync.Billing.Service
import SignalSync.Library.Numeric

/-!
# Affiliate commissions

What a referred user's paid invoice earns the affiliate, and what a refund or a dispute
takes back. The service over the affiliates' tables is the webhook's `AffiliateService`.

A commission's base is positive, its amount fits the column and no more of it is reversed
than it amounts to, as the fields of `Commission` say; the rest of its row is what no
amount depends on.
-/

namespace SignalSync

open Library

/-! ## Rows -/

inductive AffiliateStatus
  | active | suspended
deriving DecidableEq, Repr

inductive CommissionStatus
  | pending | available | paid | reversed
deriving DecidableEq, Repr

/-- A percentage, a `Numeric(5, 2)` that is not negative. -/
abbrev CommissionRate := { rate : Numeric 2 // 0 ≤ rate.units }

structure AffiliateProfile where
  userId : UserId
  status : AffiliateStatus := .active
  commissionRateOverride : Option CommissionRate := none

structure ReferralAttribution where
  affiliateUserId : UserId
  referredUserId : UserId

theorem twentyPercent_nonneg : (0 : Int) ≤ 2000 := by decide

structure AffiliateSetting where
  defaultCommissionRate : CommissionRate := ⟨⟨2000⟩, twentyPercent_nonneg⟩
  commissionHoldDays : Nat := 30
  recurringMonths : Nat := 12

/-- The parties of a commission, what it is for and its amounts. -/
@[ext] structure Commission where
  affiliateUserId : UserId
  referredUserId : UserId
  providerInvoiceId : String
  providerPaymentId : Option String
  providerSubscriptionId : String
  commissionBase : Numeric 2
  commissionRate : CommissionRate
  commissionAmount : Numeric 2
  reversedAmount : Numeric 2 := ⟨0⟩
  status : CommissionStatus := .pending
  commissionBase_pos : 0 < commissionBase.units
  commissionAmount_lt : commissionAmount.units < 10 ^ 14
  reversedAmount_nonneg : 0 ≤ reversedAmount.units
  reversedAmount_le : reversedAmount.units ≤ commissionAmount.units

structure AffiliateCommission extends Commission where
  currency : String
  releaseAt : Time
  reversedAt : Option Time := none
  reversalReason : Option String := none

/-- The tables. `get_or_create_settings` makes the row with its defaults. -/
structure AffiliateDb where
  profiles : List AffiliateProfile := []
  attributions : List ReferralAttribution := []
  settings : AffiliateSetting := {}
  /-- In the order of `created_at`. -/
  commissions : List AffiliateCommission := []
  unique_referred : (attributions.map (·.referredUserId)).Nodup := by exact List.nodup_nil
  unique_invoice : (commissions.map (·.providerInvoiceId)).Nodup := by exact List.nodup_nil

/-! ## Money -/

section

variable [Python] [Unicode]

def natOfDigits (digits : List Char) : Option Nat :=
  digits.foldlM (fun n c => (Unicode.decimal c).map (10 * n + ·)) 0

def signOf : List Char → Bool × List Char
  | '-' :: s => (true, s)
  | '+' :: s => (false, s)
  | s => (false, s)

/-- The value of a text that `Decimal` reads; `none` for one it does not, and for those
of infinities and of what is no number, which no later step takes. -/
def decimalOfText (text : String) : Option ℚ :=
  let (negative, s) := signOf ((Unicode.strip text).toList.filter (· ≠ '_'))
  let mantissa := s.takeWhile fun c => c ≠ 'e' && c ≠ 'E'
  let whole := mantissa.takeWhile (· ≠ '.')
  let fraction := mantissa.drop (whole.length + 1)
  let (negativeExponent, exponent) := signOf ((s.drop mantissa.length).drop 1)
  if whole ++ fraction = [] || (s.length ≠ mantissa.length && exponent = []) then none
  else
    (natOfDigits (whole ++ fraction)).bind fun n =>
      (natOfDigits exponent).map fun e =>
        let magnitude : ℚ := n * 10 ^ ((if negativeExponent then -(e : Int) else e) - fraction.length)
        if negative then -magnitude else magnitude

/-- `_money`; a quantized number of more than 28 digits is refused. -/
def money (value : Json) : Option (Numeric 2) :=
  (decimalOfText (value.orElse (.string "0")).text).bind fun q =>
    let amount := Numeric.ofRat 2 q
    if amount.units.natAbs < 10 ^ 28 then some amount else none

/-! ## Payloads -/

/-- `str(value) if value else None`. -/
def textOrNone (value : Json) : Option String := if value.truthy then some value.text else none

/-- `_subscription_id`. -/
def affiliateSubscriptionId (data : Json) : Option String := textOrNone (invoiceProviderId data)

/-- `_payment_id`. -/
def paymentId (data : Json) : Option String :=
  let nested := (data.get "payment").dictOrEmpty
  textOrNone ((((data.get "payment_id").orElse (data.get "charge_id")).orElse (nested.get "payment_id")).orElse (nested.get "id"))

/-- The amount of a paid invoice. -/
def collected (data : Json) : Json :=
  (((data.get "amount_collected").orElse (data.get "amount_paid")).orElse (data.get "total_paid")).orElse (data.get "amount")

/-! ## Commissions -/

def AffiliateProfile.effectiveRate (profile : AffiliateProfile) (config : AffiliateSetting) : CommissionRate :=
  profile.commissionRateOverride.getD config.defaultCommissionRate

/-- `base * rate / 100`, rounded. -/
def commissionAmountOf (base : Numeric 2) (rate : CommissionRate) : Numeric 2 := .ofRat 2 (base.toRat * rate.1.toRat / 100)

omit [Python] [Unicode] in
theorem commissionAmountOf_nonneg {base : Numeric 2} (rate : CommissionRate) (h : 0 < base.units) :
    0 ≤ (commissionAmountOf base rate).units := by
  have hbase : 0 ≤ base.toRat := Numeric.toRat_nonneg h.le
  have hrate : 0 ≤ rate.1.toRat := Numeric.toRat_nonneg rate.2
  exact Numeric.ofRat_units_nonneg (by positivity)

/-- The widths of the row's other columns. -/
def AffiliateCommission.fits (item : AffiliateCommission) : Bool :=
  item.providerInvoiceId.length ≤ 100 && item.providerPaymentId.all (·.length ≤ 100) && item.providerSubscriptionId.length ≤ 100 &&
    item.currency.length ≤ 3 && item.commissionBase.units < 10 ^ 14

namespace AffiliateDb

def commissionByInvoice (db : AffiliateDb) (invoiceId : String) : Option AffiliateCommission :=
  db.commissions.find? (·.providerInvoiceId = invoiceId)

/-- `get_commission_for_reversal`. -/
def commissionForReversal (db : AffiliateDb) (paymentId invoiceId : Option String) : Option AffiliateCommission :=
  (invoiceId.bind db.commissionByInvoice).or
    (paymentId.bind fun id => db.commissions.reverse.find? (·.providerPaymentId = some id))

def countQualifyingCommissions (db : AffiliateDb) (referredUserId : UserId) : Nat :=
  db.commissions.countP fun item => item.referredUserId = referredUserId && item.status ≠ .reversed

/-- The active affiliate that a user is attributed to. -/
def affiliateOf (db : AffiliateDb) (referredUserId : UserId) : Option AffiliateProfile :=
  (db.attributions.find? (·.referredUserId = referredUserId)).bind fun attribution =>
    (db.profiles.find? (·.userId = attribution.affiliateUserId)).filter (·.status = .active)

/-- The commission on a paid invoice. -/
def commissionOn (config : AffiliateSetting) (now : Time) (subscription : BillingSubscription) (profile : AffiliateProfile)
    (invoiceId subscriptionId : String) (data : Json) (base : Numeric 2) (h : 0 < base.units)
    (hamount : (commissionAmountOf base (profile.effectiveRate config)).units < 10 ^ 14) : AffiliateCommission where
  affiliateUserId := profile.userId
  referredUserId := subscription.userId
  providerInvoiceId := invoiceId
  providerPaymentId := paymentId data
  providerSubscriptionId := subscriptionId
  commissionBase := base
  commissionRate := profile.effectiveRate config
  commissionAmount := commissionAmountOf base (profile.effectiveRate config)
  commissionBase_pos := h
  commissionAmount_lt := hamount
  reversedAmount_nonneg := Numeric.zero_nonneg
  reversedAmount_le := commissionAmountOf_nonneg (profile.effectiveRate config) h
  currency := Unicode.upper ((data.get "currency").orElse ((Json.string subscription.currency).orElse (.string "USD"))).text
  releaseAt := now + seconds (config.commissionHoldDays * 86400)

/-- What a paid invoice earns the affiliate, if anything; `none` where reading the amount
or writing the row raises. -/
def newCommission (config : AffiliateSetting) (now : Time) (subscription : BillingSubscription) (profile : AffiliateProfile)
    (invoiceId subscriptionId : String) (data : Json) : Option (Option AffiliateCommission) :=
  (money (collected data)).bind fun base =>
    if h : 0 < base.units then
      if hamount : (commissionAmountOf base (profile.effectiveRate config)).units < 10 ^ 14 then
        let item := commissionOn config now subscription profile invoiceId subscriptionId data base h hamount
        if item.fits then some (some item) else none
      else none
    else some none

def add (db : AffiliateDb) (item : AffiliateCommission) : Option AffiliateDb :=
  if h : item.providerInvoiceId ∉ db.commissions.map (·.providerInvoiceId) then
    some
      { db with
        commissions := db.commissions ++ [item]
        unique_invoice := by
          rw [List.map_append]
          exact db.unique_invoice.append (List.nodup_singleton _) (List.disjoint_singleton.mpr h) }
  else none

def createCommissionFromPaidInvoice (billing : BillingDb) (now : Time) (data : Json) (db : AffiliateDb) : Option AffiliateDb :=
  match textOrNone ((data.get "invoice_id").orElse (data.get "id")), affiliateSubscriptionId data with
  | some invoiceId, some subscriptionId =>
    if (db.commissionByInvoice invoiceId).isSome then some db
    else match billing.getSubscriptionByProviderId subscriptionId with
    | none => some db
    | some subscription =>
      match db.affiliateOf subscription.userId with
      | none => some db
      | some profile =>
        if db.settings.recurringMonths ≤ db.countQualifyingCommissions subscription.userId then some db
        else match newCommission db.settings now subscription profile invoiceId subscriptionId data with
        | none => none
        | some none => some db
        | some (some item) => db.add item
  | _, _ => some db

end AffiliateDb

/-- The base that a refund or a dispute takes back, the whole of it by default. -/
def refundBase (data : Json) (commissionBase : Numeric 2) : Option (Numeric 2) :=
  let value := (data.get "amount").orElse (data.get "refund_amount")
  if value.truthy then money value else some commissionBase

namespace Commission

/-- What of the amount is reversed with a part of the base, reckoned in 28 digits. -/
def reversedFor (item : Commission) (refund : Numeric 2) : Numeric 2 :=
  let ratio := min 1 (inContext 28 (refund.toRat / item.commissionBase.toRat))
  .ofRat 2 (inContext 28 (item.commissionAmount.toRat * ratio))

omit [Python] [Unicode] in
theorem reversedFor_le (item : Commission) (refund : Numeric 2) : (item.reversedFor refund).units ≤ item.commissionAmount.units := by
  have hamount : 0 ≤ item.commissionAmount.units := item.reversedAmount_nonneg.trans item.reversedAmount_le
  have hdigits : item.commissionAmount.units < 10 ^ 28 := item.commissionAmount_lt.trans (by norm_num)
  refine Numeric.toRat_le_toRat.1 (Numeric.ofRat_le (Numeric.inContext_le hamount hdigits ?_))
  exact mul_le_of_le_one_right (Numeric.toRat_nonneg hamount) (min_le_left _ _)

/-- A commission of which a part of the base is taken back. -/
def reverse (item : Commission) (refund : Numeric 2) : Commission :=
  let reversedAmount : Numeric 2 := ⟨max item.reversedAmount.units (item.reversedFor refund).units⟩
  { item with
    reversedAmount
    status := if item.commissionAmount.units ≤ reversedAmount.units then .reversed else item.status
    reversedAmount_nonneg := item.reversedAmount_nonneg.trans (le_max_left _ _)
    reversedAmount_le := max_le item.reversedAmount_le (item.reversedFor_le refund) }

end Commission

def AffiliateDb.reverseCommission (now : Time) (data : Json) (reason : String) (db : AffiliateDb) : Option AffiliateDb :=
  match db.commissionForReversal (paymentId data) (textOrNone (data.get "invoice_id")) with
  | none => some db
  | some item =>
    if item.status = .reversed || item.status = .paid then some db
    else (refundBase data item.commissionBase).map fun refund =>
      { db with
        commissions := db.commissions.map fun row =>
          if row.providerInvoiceId = item.providerInvoiceId then
            { row with toCommission := row.reverse refund, reversedAt := some now, reversalReason := some reason }
          else row
        unique_invoice := by
          rw [List.map_map]
          refine (List.map_congr_left fun row _ => ?_) ▸ db.unique_invoice
          simp only [Function.comp_apply]
          split <;> rfl }

/-- The affiliate service the webhook calls. -/
def affiliateService : AffiliateService AffiliateDb where
  createCommissionFromPaidInvoice := AffiliateDb.createCommissionFromPaidInvoice
  reverseCommission := AffiliateDb.reverseCommission

end

end SignalSync
