import SignalSync.Affiliates.Service
import Mathlib.Algebra.Order.BigOperators.Group.List
import Mathlib.Data.List.Dedup

/-!
# The affiliate's dashboard

`dashboard` releases the commissions whose hold is over, lists the newest ones and sums
the balances over that list. The list is the page's, of a hundred rows.

* `balances_iff`: for which commissions the balances are those of all of them.
-/

namespace SignalSync

open Library

namespace Commission

/-- What of the amount has not been reversed. -/
def remaining (item : Commission) : Numeric 2 := ⟨item.commissionAmount.units - item.reversedAmount.units⟩

end Commission

/-- What the dashboard shows, but for the texts of the affiliate's code. -/
structure AffiliateDashboard where
  status : AffiliateStatus
  effectiveCommissionRate : CommissionRate
  /-- `rate_source` is `individual`. -/
  individualRate : Bool
  referrals : Nat
  paidReferrals : Nat
  pendingBalance : Numeric 2
  availableBalance : Numeric 2
  paidBalance : Numeric 2
  commissionHoldDays : Nat
  recurringMonths : Nat
  commissions : List AffiliateCommission

/-- The sum of what remains of the commissions in a status. -/
def balance (status : CommissionStatus) (items : List AffiliateCommission) : Numeric 2 :=
  ⟨((items.filter (·.status = status)).map (·.remaining.units)).sum⟩

namespace AffiliateDb

variable (db : AffiliateDb) (userId : UserId) (now : Time)

/-- `ensure_profile`, where the code that is drawn is not taken. -/
def ensureProfile : AffiliateDb × AffiliateProfile :=
  match db.profiles.find? (·.userId = userId) with
  | some profile => (db, profile)
  | none => ({ db with profiles := db.profiles ++ [{ userId }] }, { userId })

/-- A commission that is due is available. -/
def released (item : AffiliateCommission) : AffiliateCommission :=
  if item.affiliateUserId = userId ∧ item.status = .pending ∧ item.releaseAt ≤ now then { item with status := .available } else item

def releaseDueCommissions : AffiliateDb where
  profiles := db.profiles
  attributions := db.attributions
  settings := db.settings
  commissions := db.commissions.map (released userId now)
  unique_referred := db.unique_referred
  unique_invoice := by
    rw [List.map_map]
    refine (List.map_congr_left fun item _ => ?_) ▸ db.unique_invoice
    simp only [Function.comp_apply, released]
    split <;> rfl

/-- The affiliate's commissions, newest first. -/
def commissionsOf : List AffiliateCommission := (db.commissions.filter (·.affiliateUserId = userId)).reverse

def listCommissions (limit : Nat := 100) : List AffiliateCommission := (db.commissionsOf userId).take limit

/-- The users attributed to the affiliate, and those of them with a commission that is not reversed. -/
def dashboardCounts : Nat × Nat :=
  (db.attributions.countP (·.affiliateUserId = userId),
    ((db.commissions.filter fun item => item.affiliateUserId = userId && item.status ≠ .reversed).map (·.referredUserId)).dedup.length)

/-- The tables after the request, and what is shown. -/
def dashboard : AffiliateDb × AffiliateDashboard :=
  let (db, profile) := db.ensureProfile userId
  let db := db.releaseDueCommissions userId now
  let items := db.listCommissions userId
  let (referrals, paidReferrals) := db.dashboardCounts userId
  (db,
    { status := profile.status
      effectiveCommissionRate := profile.effectiveRate db.settings
      individualRate := profile.commissionRateOverride.isSome
      referrals, paidReferrals
      pendingBalance := balance .pending items
      availableBalance := balance .available items
      paidBalance := balance .paid items
      commissionHoldDays := db.settings.commissionHoldDays
      recurringMonths := db.settings.recurringMonths
      commissions := items })

/-- The balances that are shown are those of all the affiliate's commissions. -/
structure BalancesComplete (after : AffiliateDb) (userId : UserId) (shown : AffiliateDashboard) : Prop where
  pending : shown.pendingBalance = balance .pending (after.commissionsOf userId)
  available : shown.availableBalance = balance .available (after.commissionsOf userId)
  paid : shown.paidBalance = balance .paid (after.commissionsOf userId)

/-! ## What the list leaves out -/

variable {userId now}

variable (userId now) in
theorem released_cases (item : AffiliateCommission) : released userId now item = item ∨
    item.status = .pending ∧ released userId now item = { item with status := .available } := by
  unfold released
  split
  · rename_i h
    exact .inr ⟨h.2.1, rfl⟩
  · exact .inl rfl

theorem affiliateUserId_released (item : AffiliateCommission) : (released userId now item).affiliateUserId = item.affiliateUserId := by
  rcases released_cases userId now item with h | ⟨-, h⟩ <;> rw [h]

theorem commissionsOf_release :
    (db.releaseDueCommissions userId now).commissionsOf userId = (db.commissionsOf userId).map (released userId now) := by
  rw [commissionsOf, commissionsOf, List.map_reverse]
  show ((db.commissions.map (released userId now)).filter _).reverse = _
  rw [List.filter_map]
  congr 2
  exact List.filter_congr fun item _ => by rw [Function.comp_apply, affiliateUserId_released]

/-- Nothing remains of a commission, or it is in no balance. -/
def Spent (item : AffiliateCommission) : Prop := item.status = .reversed ∨ item.reversedAmount = item.commissionAmount

theorem spent_released {item : AffiliateCommission} : Spent (released userId now item) ↔ Spent item := by
  rcases released_cases userId now item with h | ⟨hs, h⟩ <;> rw [h]
  simp [Spent, hs]

theorem remaining_nonneg (item : Commission) : 0 ≤ item.remaining.units := sub_nonneg.mpr item.reversedAmount_le

theorem remaining_eq_zero {item : Commission} : item.remaining.units = 0 ↔ item.reversedAmount = item.commissionAmount := by
  rw [Commission.remaining, sub_eq_zero, Numeric.ext_iff, eq_comm]

theorem units_balance_append (status : CommissionStatus) (l m : List AffiliateCommission) :
    (balance status (l ++ m)).units = (balance status l).units + (balance status m).units := by
  simp [balance]

theorem balance_eq_zero {status : CommissionStatus} {items : List AffiliateCommission} :
    (balance status items).units = 0 ↔ ∀ item ∈ items, item.status = status → item.reversedAmount = item.commissionAmount := by
  have hnonneg : ∀ x ∈ (items.filter (·.status = status)).map (·.remaining.units), 0 ≤ x := by
    intro x hx
    obtain ⟨item, -, rfl⟩ := List.mem_map.mp hx
    exact remaining_nonneg _
  constructor
  · intro h item hmem hs
    have hrow : item.remaining.units ∈ (items.filter (·.status = status)).map (·.remaining.units) :=
      List.mem_map_of_mem (List.mem_filter.mpr ⟨hmem, by simpa using hs⟩)
    exact remaining_eq_zero.1 (List.all_zero_of_le_zero_le_of_sum_eq_zero hnonneg h hrow)
  · intro h
    refine List.sum_eq_zero fun x hx => ?_
    obtain ⟨item, hmem, rfl⟩ := List.mem_map.mp hx
    obtain ⟨hmem, hs⟩ := List.mem_filter.mp hmem
    exact remaining_eq_zero.2 (h item hmem (by simpa using hs))

/-- A balance over the first of the commissions. -/
theorem balance_take (status : CommissionStatus) (n : Nat) (items : List AffiliateCommission) :
    balance status (items.take n) = balance status items ↔
    ∀ item ∈ items.drop n, item.status = status → item.reversedAmount = item.commissionAmount := by
  have hsum := units_balance_append status (items.take n) (items.drop n)
  rw [List.take_append_drop] at hsum
  rw [← balance_eq_zero, Numeric.ext_iff, hsum]
  constructor <;> intro h <;> omega

variable (userId now)

/-- The balances count everything iff nothing remains of the commissions before the
hundred newest. -/
theorem balances_iff : BalancesComplete (db.dashboard userId now).1 userId (db.dashboard userId now).2 ↔
    ∀ item ∈ (db.commissionsOf userId).drop 100, Spent item := by
  obtain ⟨db', hdb, hsame⟩ : ∃ db', (db.ensureProfile userId).1 = db' ∧ db'.commissionsOf userId = db.commissionsOf userId := by
    refine ⟨_, rfl, ?_⟩
    unfold ensureProfile
    split <;> rfl
  have hitems : (db'.releaseDueCommissions userId now).listCommissions userId =
      ((db'.releaseDueCommissions userId now).commissionsOf userId).take 100 := rfl
  have hspent : (∀ item ∈ (db.commissionsOf userId).drop 100, Spent item) ↔
      ∀ item ∈ ((db'.releaseDueCommissions userId now).commissionsOf userId).drop 100, Spent item := by
    rw [commissionsOf_release, hsame, ← List.map_drop, List.forall_mem_map]
    simp only [spent_released]
  have hbalance (status : CommissionStatus) :=
    balance_take status 100 ((db'.releaseDueCommissions userId now).commissionsOf userId)
  rw [hspent]
  constructor
  · rintro ⟨hpending, havailable, hpaid⟩ item hmem
    simp only [dashboard, hdb, hitems] at hpending havailable hpaid
    cases hs : item.status with
    | pending => exact .inr ((hbalance _).1 hpending item hmem hs)
    | available => exact .inr ((hbalance _).1 havailable item hmem hs)
    | paid => exact .inr ((hbalance _).1 hpaid item hmem hs)
    | reversed => exact .inl hs
  · intro h
    have hstatus {status : CommissionStatus} (hne : status ≠ .reversed) :
        balance status (((db'.releaseDueCommissions userId now).commissionsOf userId).take 100) =
          balance status ((db'.releaseDueCommissions userId now).commissionsOf userId) :=
      (hbalance _).2 fun item hmem hs => (h item hmem).resolve_left (hs ▸ hne)
    refine ⟨?_, ?_, ?_⟩ <;> simp only [dashboard, hdb, hitems] <;> exact hstatus (by decide)

end AffiliateDb

/-! ## An affiliate with many commissions -/

/-- The commission of a dollar on the invoice that `n` strokes name. -/
def tallyCommission (n : Nat) : AffiliateCommission where
  affiliateUserId := 1
  referredUserId := 2
  providerInvoiceId := .ofList (List.replicate n '|')
  providerPaymentId := none
  providerSubscriptionId := "sub"
  commissionBase := ⟨500⟩
  commissionRate := ⟨⟨2000⟩, twentyPercent_nonneg⟩
  commissionAmount := ⟨100⟩
  commissionBase_pos := by decide
  commissionAmount_lt := by decide
  reversedAmount_nonneg := Numeric.zero_nonneg
  reversedAmount_le := by decide
  currency := "USD"
  releaseAt := seconds 1

def tallyDb (n : Nat) : AffiliateDb where
  commissions := (List.range n).map tallyCommission
  unique_invoice := by
    rw [List.map_map]
    refine List.Nodup.map (fun m n h => ?_) List.nodup_range
    simpa [tallyCommission] using congrArg List.length (String.ofList_injective h)

/-- Of a hundred and one commissions of a dollar each, a hundred are pending. -/
theorem tally_balances_incomplete : ¬ ∀ (db : AffiliateDb) (userId : UserId) (now : Time),
    AffiliateDb.BalancesComplete (db.dashboard userId now).1 userId (db.dashboard userId now).2 := by
  intro h
  have hpending := (h (tallyDb 101) 1 0).pending
  revert hpending
  decide +kernel

end SignalSync
