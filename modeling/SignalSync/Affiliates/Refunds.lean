import SignalSync.Affiliates.Commissions

/-!
# Refunds of one invoice

A sale that is refunded in parts. Each refund or dispute is turned into an amount of its
own, and the commission keeps the largest of them: the parts do not add up, and the
commission is reversed when one of them alone comes to all of it.

* `commissionAfter_eq`: the webhook's refunds reach the commission one after the other;
* `takenBack_foldl`: what they leave of it;
* `refunds_accumulate_iff`: for which refunds that is what their sum would take back.
-/

namespace SignalSync

open Library

section

variable [Python] [Unicode]

/-! ## Refunds -/

/-- A refund or a dispute of the commission's invoice, of an amount that can be read. -/
structure RefundOf (item : Commission) where
  now : Time
  data : Json
  reason : String
  refund : Numeric 2
  invoice : textOrNone (data.get "invoice_id") = some item.providerInvoiceId
  reads : refundBase data item.commissionBase = some refund

variable {item : Commission}

def refundSum (events : List (RefundOf item)) : Int := (events.map (·.refund.units)).sum

namespace Commission

/-- What a refund of so many cents takes back, to the cent. -/
def refundShare (item : Commission) (cents : Int) : Numeric 2 :=
  .ofRat 2 (item.commissionAmount.toRat * min 1 ((⟨cents⟩ : Numeric 2).toRat / item.commissionBase.toRat))

/-- Nothing of the commission has been taken back or paid. -/
structure Fresh (item : Commission) : Prop where
  reversedAmount : item.reversedAmount.units = 0
  unreversed : item.status ≠ .reversed
  unpaid : item.status ≠ .paid

end Commission

/-- The most that one of the refunds takes back by itself. -/
def largestShare (events : List (RefundOf item)) : Int := (events.map fun event => (item.reversedFor event.refund).units).foldl max 0

theorem largestShare_concat (events : List (RefundOf item)) (event : RefundOf item) :
    largestShare (events ++ [event]) = max (largestShare events) (item.reversedFor event.refund).units := by
  simp [largestShare]

theorem largestShare_mono {before events : List (RefundOf item)} (h : before <+: events) : largestShare before ≤ largestShare events := by
  obtain ⟨after, rfl⟩ := h
  induction after using List.reverseRecOn with
  | nil => rw [List.append_nil]
  | append_singleton after event ih =>
    rw [← List.append_assoc, largestShare_concat]
    exact ih.trans (le_max_left _ _)

/-! ## The commission -/

namespace Commission

/-- What the refunds leave of a commission. -/
structure TakenBack (events : List (RefundOf item)) (left : Commission) : Prop where
  invoice : left.providerInvoiceId = item.providerInvoiceId
  base : left.commissionBase = item.commissionBase
  amount : left.commissionAmount = item.commissionAmount
  reversedAmount : left.reversedAmount.units = largestShare events
  unpaid : left.status ≠ .paid
  status : left.status = .reversed ↔ events ≠ [] ∧ item.commissionAmount.units ≤ largestShare events

theorem TakenBack.takeBack {events : List (RefundOf item)} {left : Commission} (h : TakenBack events left) (event : RefundOf item) :
    TakenBack (events ++ [event]) (left.takeBack event.data) := by
  have hreads : refundBase event.data left.commissionBase = some event.refund := by rw [h.base, event.reads]
  have hshare : left.reversedFor event.refund = item.reversedFor event.refund := by
    rw [reversedFor, reversedFor, h.base, h.amount]
  have hle := item.reversedFor_le event.refund
  by_cases hs : left.status = .reversed
  · -- the whole commission is gone, and nothing more comes off it
    have hkept : left.takeBack event.data = left := by
      rw [Commission.takeBack, if_pos (by simp [hs])]
    have hall := (h.status.1 hs).2
    have hlargest : largestShare (events ++ [event]) = largestShare events := by
      rw [largestShare_concat, max_eq_left (hle.trans hall)]
    rw [hkept]
    exact ⟨h.invoice, h.base, h.amount, by rw [hlargest, h.reversedAmount], h.unpaid,
      iff_of_true hs ⟨by simp, by rw [hlargest]; exact hall⟩⟩
  · have hreverse : left.takeBack event.data = left.reverse event.refund := by
      rw [Commission.takeBack, if_neg (by simp [hs, h.unpaid]), hreads]
    rw [hreverse]
    refine ⟨h.invoice, h.base, h.amount, ?_, ?_, ?_⟩
    · rw [reverse_units, h.reversedAmount, hshare, largestShare_concat]
    · rw [reverse_status]
      split
      · simp
      · exact h.unpaid
    · rw [reverse_status, h.reversedAmount, hshare, h.amount, largestShare_concat]
      split
      · rename_i hfull
        exact iff_of_true rfl ⟨by simp, hfull⟩
      · rename_i hpart
        exact iff_of_false hs fun h => hpart h.2

theorem takenBack_foldl (hfresh : item.Fresh) (events : List (RefundOf item)) :
    TakenBack events (events.foldl (fun left event => left.takeBack event.data) item) := by
  induction events using List.reverseRecOn with
  | nil => exact ⟨rfl, rfl, rfl, hfresh.reversedAmount, hfresh.unpaid, iff_of_false hfresh.unreversed fun h => h.1 rfl⟩
  | append_singleton events event ih =>
    rw [List.foldl_append]
    exact ih.takeBack event

end Commission

/-! ## The tables -/

namespace AffiliateDb

variable {db : AffiliateDb}

/-- The refunds as the webhook hands them over, one after the other. -/
def reverseAll (db : AffiliateDb) (events : List (RefundOf item)) : Option AffiliateDb :=
  events.foldlM (fun db event => db.reverseCommission event.now event.data event.reason) db

def commissionAfter (db : AffiliateDb) (events : List (RefundOf item)) : Option Commission :=
  (db.reverseAll events).bind fun db => (db.commissionByInvoice item.providerInvoiceId).map (·.toCommission)

omit [Python] [Unicode] in
/-- A row is found where it was, rewritten. -/
theorem find?_rewrite {row : AffiliateCommission} {f : AffiliateCommission → AffiliateCommission} {id : String}
    (hrow : db.commissionByInvoice id = some row) (hf : ∀ other, (f other).providerInvoiceId = other.providerInvoiceId) :
    (db.commissions.map fun other => if other.providerInvoiceId = row.providerInvoiceId then f other else other).find?
      (·.providerInvoiceId = id) = some (f row) := by
  rw [List.find?_map]
  have hkeys : ((fun other : AffiliateCommission => decide (other.providerInvoiceId = id)) ∘ fun other =>
      if other.providerInvoiceId = row.providerInvoiceId then f other else other) = fun other => decide (other.providerInvoiceId = id) := by
    funext other
    simp only [Function.comp_apply]
    split
    · rw [hf]
    · rfl
  rw [hkeys, show db.commissions.find? _ = some row from hrow, Option.map_some, if_pos rfl]

/-- A refund that names the invoice finds its commission, and leaves it with what is
taken back. -/
theorem exists_reverseCommission {row : AffiliateCommission} (hrow : db.commissionByInvoice item.providerInvoiceId = some row)
    (hbase : row.commissionBase = item.commissionBase) (event : RefundOf item) :
    ∃ db' row', db.reverseCommission event.now event.data event.reason = some db' ∧
      db'.commissionByInvoice item.providerInvoiceId = some row' ∧ row'.toCommission = row.toCommission.takeBack event.data := by
  have hfound : db.commissionForReversal (paymentId event.data) (textOrNone (event.data.get "invoice_id")) = some row := by
    rw [commissionForReversal, event.invoice, Option.bind_some, hrow, Option.some_or]
  have hkey : row.providerInvoiceId = item.providerInvoiceId := by simpa using List.find?_some hrow
  have hreads : refundBase event.data row.commissionBase = some event.refund := by rw [hbase, event.reads]
  unfold reverseCommission
  rw [hfound]
  dsimp only
  by_cases hs : (decide (row.status = .reversed) || decide (row.status = .paid)) = true
  · exact ⟨db, row, by rw [if_pos hs], hrow, by rw [Commission.takeBack, if_pos hs]⟩
  · rw [if_neg hs, hreads, Option.map_some]
    refine ⟨_, _, rfl, find?_rewrite hrow fun _ => rfl, ?_⟩
    rw [Commission.takeBack, if_neg hs, hreads]

theorem commissionAfter_eq (events : List (RefundOf item)) {row : AffiliateCommission}
    (hrow : db.commissionByInvoice item.providerInvoiceId = some row) (hbase : row.commissionBase = item.commissionBase) :
    db.commissionAfter events = some (events.foldl (fun left event => left.takeBack event.data) row.toCommission) := by
  induction events generalizing db row with
  | nil => simp [commissionAfter, reverseAll, hrow]
  | cons event events ih =>
    obtain ⟨db', row', hreverse, hrow', htaken⟩ := exists_reverseCommission hrow hbase event
    have hbase' : row'.commissionBase = item.commissionBase := by
      rw [htaken]
      rcases Commission.takeBack_cases event.data row.toCommission with h | ⟨refund, h, -⟩ <;> rw [h]
      · exact hbase
      · exact hbase
    have hstep : db.commissionAfter (event :: events) = db'.commissionAfter events := by
      simp only [commissionAfter, reverseAll, List.foldlM_cons, hreverse, Option.bind_eq_bind, Option.bind_some]
    rw [hstep, ih hrow' hbase', List.foldl_cons, htaken]

variable (db) in
/-- The refunds add up: after all of them their sum is taken back, in cents and at most
the whole, and on the way the commission is reversed once its base has been refunded. -/
structure RefundsAccumulate (events : List (RefundOf item)) : Prop where
  total : (db.commissionAfter events).map (·.reversedAmount) = some (item.refundShare (refundSum events))
  bounds : ∀ before, before <+: events → ∃ left, db.commissionAfter before = some left ∧
    0 ≤ left.reversedAmount.units ∧ left.reversedAmount.units ≤ item.commissionAmount.units
  increases : ∀ before after, before <+: after → after <+: events → ∀ left ∈ db.commissionAfter before,
    ∀ later ∈ db.commissionAfter after, left.reversedAmount.units ≤ later.reversedAmount.units
  reversed : ∀ before, before <+: events →
    ((db.commissionAfter before).map (·.status) = some .reversed ↔ item.commissionBase.units ≤ refundSum before)

/-- The refunds add up iff the largest of them alone takes back what their sum would, and
after each of them the largest so far takes back everything iff the sum comes to the base. -/
theorem refunds_accumulate_iff {item : AffiliateCommission} (hitem : item ∈ db.commissions) (hfresh : item.Fresh)
    (events : List (RefundOf item.toCommission)) :
    db.RefundsAccumulate events ↔ largestShare events = (item.refundShare (refundSum events)).units ∧
      ∀ before, before <+: events → before ≠ [] →
        (item.commissionAmount.units ≤ largestShare before ↔ item.commissionBase.units ≤ refundSum before) := by
  have hrow : db.commissionByInvoice item.providerInvoiceId = some item := by
    have hsome : (db.commissionByInvoice item.providerInvoiceId).isSome := List.find?_isSome.mpr ⟨item, hitem, by simp⟩
    obtain ⟨row, hrow⟩ := Option.isSome_iff_exists.mp hsome
    have hkey : row.providerInvoiceId = item.providerInvoiceId := by simpa using List.find?_some hrow
    exact hrow.trans (congrArg some (List.inj_on_of_nodup_map db.unique_invoice (List.mem_of_find?_eq_some hrow) hitem hkey))
  have hafter (before : List (RefundOf item.toCommission)) :
      ∃ left, db.commissionAfter before = some left ∧ Commission.TakenBack before left :=
    ⟨_, commissionAfter_eq before hrow rfl, Commission.takenBack_foldl hfresh before⟩
  constructor
  · rintro ⟨htotal, -, -, hreversed⟩
    refine ⟨?_, fun before hbefore hne => ?_⟩
    · obtain ⟨left, hleft, htaken⟩ := hafter events
      rw [hleft, Option.map_some, Option.some_inj] at htotal
      rw [← htaken.reversedAmount, htotal]
    · obtain ⟨left, hleft, htaken⟩ := hafter before
      have hiff := hreversed before hbefore
      rw [hleft, Option.map_some, Option.some_inj, htaken.status] at hiff
      simpa only [ne_eq, hne, not_false_eq_true, true_and] using hiff
  · rintro ⟨htotal, hreversed⟩
    refine ⟨?_, fun before _ => ?_, fun before after hbefore _ left hleft later hlater => ?_, fun before hbefore => ?_⟩
    · obtain ⟨left, hleft, htaken⟩ := hafter events
      rw [hleft, Option.map_some, Option.some_inj]
      exact Numeric.ext (htaken.reversedAmount.trans htotal)
    · obtain ⟨left, hleft, htaken⟩ := hafter before
      exact ⟨left, hleft, left.reversedAmount_nonneg, htaken.amount ▸ left.reversedAmount_le⟩
    · obtain ⟨left', hleft', htaken⟩ := hafter before
      obtain ⟨later', hlater', htaken'⟩ := hafter after
      cases hleft'.symm.trans hleft
      cases hlater'.symm.trans hlater
      rw [htaken.reversedAmount, htaken'.reversedAmount]
      exact largestShare_mono hbefore
    · obtain ⟨left, hleft, htaken⟩ := hafter before
      rw [hleft, Option.map_some, Option.some_inj, htaken.status]
      by_cases hne : before = []
      · -- the base is positive, and nothing has been refunded
        subst hne
        exact iff_of_false (fun h => h.1 rfl) (not_le.mpr item.commissionBase_pos)
      · rw [← hreversed before hbefore hne]
        exact and_iff_right hne

end AffiliateDb

end

/-! ## Two halves -/

/-- A commission of six dollars on a sale of thirty. -/
def goldCommission : AffiliateCommission where
  affiliateUserId := 1
  referredUserId := 0
  providerInvoiceId := "inv"
  providerPaymentId := none
  providerSubscriptionId := "sub"
  commissionBase := ⟨3000⟩
  commissionRate := ⟨⟨2000⟩, twentyPercent_nonneg⟩
  commissionAmount := ⟨600⟩
  commissionBase_pos := by decide
  commissionAmount_lt := by decide
  reversedAmount_nonneg := Numeric.zero_nonneg
  reversedAmount_le := by decide
  currency := "USD"
  releaseAt := seconds 1

def goldCommissionDb : AffiliateDb where
  commissions := [goldCommission]
  unique_invoice := by simp

theorem goldCommission_fresh : goldCommission.Fresh := ⟨rfl, nofun, nofun⟩

/-- The data of a refund of the sale. -/
def goldRefundOf (amount : String) : Json := .object [("invoice_id", .string "inv"), ("amount", .string amount)]

def goldWhole : letI := Unicode.ascii; letI : Python := ⟨fun _ => "", fun _ => none⟩; RefundOf goldCommission.toCommission :=
  letI := Unicode.ascii
  letI : Python := ⟨fun _ => "", fun _ => none⟩
  ⟨0, goldRefundOf "30.00", "refund", ⟨3000⟩, rfl, by decide +kernel⟩

def goldHalf (now : Time) : letI := Unicode.ascii; letI : Python := ⟨fun _ => "", fun _ => none⟩; RefundOf goldCommission.toCommission :=
  letI := Unicode.ascii
  letI : Python := ⟨fun _ => "", fun _ => none⟩
  ⟨now, goldRefundOf "15.00", "refund", ⟨1500⟩, rfl, by decide +kernel⟩

/-- The sale is refunded at once, and one half of it once more. -/
theorem refunds_accumulate_gold :
    let _ := Unicode.ascii
    let _ : Python := ⟨fun _ => "", fun _ => none⟩
    goldCommissionDb.RefundsAccumulate [goldWhole, goldHalf 1] := by
  intro _ _
  have hlargest : largestShare [goldWhole, goldHalf 1] = 600 := by decide +kernel
  have hshare : (goldCommission.refundShare (refundSum [goldWhole, goldHalf 1])).units = 600 := by decide +kernel
  refine (AffiliateDb.refunds_accumulate_iff List.mem_cons_self goldCommission_fresh [goldWhole, goldHalf 1]).2 ⟨?_, ?_⟩
  · rw [hlargest, hshare]
  · intro before hbefore hne
    obtain ⟨event, rest, rfl⟩ := List.exists_cons_of_ne_nil hne
    obtain ⟨rfl, hrest⟩ := List.cons_prefix_cons.mp hbefore
    rcases List.prefix_cons_iff.mp hrest with rfl | ⟨_, rfl, hnil⟩
    · exact iff_of_true (by decide +kernel) (by decide +kernel)
    · cases List.prefix_nil.mp hnil
      exact iff_of_true (by decide +kernel) (by decide +kernel)

/-- The sale is refunded in two halves, and the affiliate keeps three dollars. -/
theorem twoHalves_lost :
    let _ := Unicode.ascii
    let _ : Python := ⟨fun _ => "", fun _ => none⟩
    (goldCommissionDb.commissionAfter [goldHalf 0, goldHalf 1]).map (fun left => (left.reversedAmount, left.status)) =
        some (⟨300⟩, .pending) ∧
      ¬ goldCommissionDb.RefundsAccumulate [goldHalf 0, goldHalf 1] := by
  intro _ _
  have hleft : (goldCommissionDb.commissionAfter [goldHalf 0, goldHalf 1]).map (fun left => (left.reversedAmount, left.status)) =
      some (⟨300⟩, .pending) := by
    decide +kernel
  refine ⟨hleft, fun h => ?_⟩
  obtain ⟨left, hafter, hamounts⟩ := Option.map_eq_some_iff.mp hleft
  have hreversed : left.reversedAmount = ⟨300⟩ := congrArg Prod.fst hamounts
  have htotal := h.total
  rw [hafter, Option.map_some, Option.some_inj, hreversed] at htotal
  revert htotal
  decide +kernel

end SignalSync
