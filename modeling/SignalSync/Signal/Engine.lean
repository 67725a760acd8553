import Mathlib.Data.List.MinMax
import SignalSync.Library.Numeric

/-!
# Signals and their validation

The trading instructions the pipeline knows (`SignalAction`), the signal
assembled from a conversation (`ParsedSignal`), its check against the policy
of a route (`validateSignal`), and the take-profit legs and volumes an
instruction asks for.

* `validateSignal_accepted`, `validateSignal_reason`: a signal is accepted iff it
  fails no check, and refused with the reason of a check it fails;
* `accepted_prices`: an accepted signal has positive prices.
-/

namespace SignalSync

open Library

inductive SignalAction
  | open_market | place_pending | modify_sl_tp | break_even | partial_close
  | full_close | cancel_pending | additional_tp | status_only
deriving DecidableEq, Repr

inductive Direction
  | buy | sell
deriving DecidableEq, Repr

def Direction.value : Direction → String
  | .buy => "buy"
  | .sell => "sell"

inductive TakeProfitMode
  | all | lowest | highest
deriving DecidableEq, Repr

inductive LotDistribution
  | split_total | fixed_each
deriving DecidableEq, Repr

inductive MinimumFields
  | direction_symbol | direction_symbol_entry | direction_symbol_sl
  | direction_symbol_tp | direction_symbol_sl_tp
deriving DecidableEq, Repr

namespace SignalAction

/-- `generations.OPEN_ACTIONS`. -/
def isOpen : SignalAction → Bool
  | open_market | place_pending => true
  | _ => false

/-- `execution.OPENING_ACTIONS`, the `OPEN_ACTIONS` of the execution side. -/
def isOpening : SignalAction → Bool
  | open_market | place_pending | additional_tp => true
  | _ => false

/-- `generations.MANAGEMENT_ACTIONS`, also the `management_actions` of
`choose_conversation`. -/
def isManagement : SignalAction → Bool
  | modify_sl_tp | break_even | partial_close | full_close | cancel_pending | additional_tp => true
  | _ => false

theorem isOpening_of_isOpen {a : SignalAction} (h : a.isOpen) : a.isOpening := by
  cases a <;> first | rfl | cases h

end SignalAction

structure ParsedSignal where
  action : SignalAction
  symbol : Option String
  direction : Option Direction
  entry : Option Decimal
  entryHigh : Option Decimal
  stopLoss : Option Decimal
  takeProfits : List Decimal
  closeFraction : Option Decimal
  ageSeconds : ℚ
  confidence : ℚ

structure RouteExecutionPolicy where
  minimumFields : MinimumFields
  confidenceThreshold : ℚ
  marketFreshnessSeconds : Nat
  pendingOrdersEnabled : Bool
  allowSlTpUpdates : Bool
  allowBreakEven : Bool
  allowPartialClose : Bool
  allowFullClose : Bool
  allowPendingCancel : Bool
  allowAdditionalTp : Bool

structure ValidationResult where
  accepted : Bool
  reason : Option String
  advisory : Option String
deriving DecidableEq, Repr

def RouteExecutionPolicy.permission (policy : RouteExecutionPolicy) : SignalAction → Bool
  | .modify_sl_tp => policy.allowSlTpUpdates
  | .break_even => policy.allowBreakEven
  | .partial_close => policy.allowPartialClose
  | .full_close => policy.allowFullClose
  | .cancel_pending => policy.allowPendingCancel
  | .additional_tp => policy.allowAdditionalTp
  | _ => true

namespace ParsedSignal

def prices (signal : ParsedSignal) : List Decimal :=
  signal.entry.toList ++ signal.entryHigh.toList ++ signal.stopLoss.toList ++ signal.takeProfits

def pricesConflict (signal : ParsedSignal) (stopLoss : Decimal) : Bool :=
  (signal.direction = some .buy && signal.takeProfits.any (·.toRat ≤ stopLoss.toRat)) ||
    (signal.direction = some .sell && signal.takeProfits.any (stopLoss.toRat ≤ ·.toRat))

/-- A detail that `minimum_fields` asks for is missing. -/
def missing (signal : ParsedSignal) : MinimumFields → Bool
  | .direction_symbol => signal.direction.isNone || signal.symbol.isNone
  | .direction_symbol_entry => signal.direction.isNone || signal.symbol.isNone || signal.entry.isNone
  | .direction_symbol_sl => signal.direction.isNone || signal.symbol.isNone || signal.stopLoss.isNone
  | .direction_symbol_tp => signal.direction.isNone || signal.symbol.isNone || signal.takeProfits.isEmpty
  | .direction_symbol_sl_tp =>
    signal.direction.isNone || signal.symbol.isNone || signal.stopLoss.isNone || signal.takeProfits.isEmpty

/-- The checks of a signal in the order they are made, each with the reason it
is refused for. -/
def checks (signal : ParsedSignal) (policy : RouteExecutionPolicy) : List (Bool × String) :=
  [(signal.action = .status_only, "Status updates do not perform broker actions."),
   (signal.action = .place_pending && signal.entry.isNone, "Pending order is waiting for an entry price."),
   (signal.action = .additional_tp && signal.takeProfits.isEmpty,
    "Additional take profit is waiting for a target price."),
   (signal.prices.any (·.toRat ≤ 0), "Trade prices must be positive finite numbers."),
   (signal.stopLoss.any signal.pricesConflict, "Stop loss and take profit conflict with trade direction."),
   (signal.entry.any fun low => signal.entryHigh.any fun high => high.toRat < low.toRat,
    "Entry range minimum cannot exceed its maximum."),
   (signal.action = .partial_close && signal.closeFraction.isNone,
    "Partial close needs a percentage between 0% and 100%."),
   (signal.action = .partial_close &&
      signal.closeFraction.any fun fraction => !(0 < fraction.toRat && fraction.toRat ≤ 1),
    "Partial close must be greater than 0% and at most 100%."),
   (signal.action = .open_market && policy.marketFreshnessSeconds < signal.ageSeconds,
    "Signal is too old for immediate entry."),
   (signal.action = .place_pending && !policy.pendingOrdersEnabled,
    "Pending orders are disabled for this route."),
   (!policy.permission signal.action, "This broker action is disabled for this route."),
   (signal.action.isOpen && signal.direction.isNone, "Signal is waiting for a buy or sell direction."),
   (signal.action.isOpen && signal.missing policy.minimumFields,
    "Signal is waiting for required trade details.")]

end ParsedSignal

def validateSignal (signal : ParsedSignal) (policy : RouteExecutionPolicy) : ValidationResult :=
  let advisory := if signal.confidence < policy.confidenceThreshold then some "AI confidence is low." else none
  match (signal.checks policy).find? (·.1) with
  | some (_, reason) => ⟨false, some reason, advisory⟩
  | none => ⟨true, none, advisory⟩

/-- A signal is accepted iff it fails no check. -/
theorem validateSignal_accepted {signal : ParsedSignal} {policy : RouteExecutionPolicy} :
    (validateSignal signal policy).accepted ↔ ∀ check ∈ signal.checks policy, check.1 = false := by
  rw [validateSignal]
  split
  · rename_i b reason h
    simp only [Bool.false_eq_true, false_iff, not_forall]
    exact ⟨(b, reason), List.mem_of_find?_eq_some h, by simpa using List.find?_some h⟩
  · rename_i h
    simpa using h

/-- A refused signal names its reason. -/
theorem validateSignal_reason {signal : ParsedSignal} {policy : RouteExecutionPolicy}
    (h : (validateSignal signal policy).accepted = false) :
    ∃ check ∈ signal.checks policy, check.1 ∧ (validateSignal signal policy).reason = some check.2 := by
  rw [validateSignal] at h ⊢
  split at h
  · rename_i b reason hf
    exact ⟨(b, reason), List.mem_of_find?_eq_some hf, by simpa using List.find?_some hf, rfl⟩
  · cases h

theorem accepted_prices {signal : ParsedSignal} {policy : RouteExecutionPolicy}
    (h : (validateSignal signal policy).accepted) : ∀ price ∈ signal.prices, 0 < price.toRat := by
  have h := validateSignal_accepted.1 h
  simp only [ParsedSignal.checks, List.forall_mem_cons] at h
  obtain ⟨-, -, -, h, -⟩ := h
  simpa using h

/-! ## Legs and volumes -/

structure TakeProfitLeg where
  takeProfit : Decimal
  lot : ℚ
deriving DecidableEq

def buildTpLegs (fixedLot : ℚ) (takeProfits : List Decimal) (mode : TakeProfitMode)
    (distribution : LotDistribution) : List TakeProfitLeg :=
  let selected := match mode with
    | .all => takeProfits
    | .lowest => (takeProfits.argmin Decimal.toRat).toList
    | .highest => (takeProfits.argmax Decimal.toRat).toList
  let lot := if distribution = .split_total ∧ 1 < selected.length then fixedLot / selected.length else fixedLot
  selected.map fun tp => ⟨tp, lot⟩

def calculateSignalVolume (fixedLot : ℚ) (takeProfitCount : Nat) (mode : TakeProfitMode)
    (distribution : LotDistribution) : ℚ :=
  let selectedCount := if mode = .all then max 1 takeProfitCount else 1
  if distribution = .split_total then fixedLot else fixedLot * selectedCount

def signalVolumeForAction (action : SignalAction) (fixedLot : ℚ) (takeProfitCount : Nat)
    (mode : TakeProfitMode) (distribution : LotDistribution) : ℚ :=
  if action.isOpening then calculateSignalVolume fixedLot takeProfitCount mode distribution else 0

/-- The legs of an instruction; `none` is an order without a leg of its own. -/
def intentLegsForAction (action : SignalAction) (fixedLot : ℚ) (takeProfits : List Decimal)
    (mode : TakeProfitMode) (distribution : LotDistribution) : List (Option TakeProfitLeg) :=
  if action.isOpening then
    match buildTpLegs fixedLot takeProfits mode distribution with
    | [] => [none]
    | legs => legs.map some
  else [none]

theorem takeProfit_of_mem_buildTpLegs {fixedLot : ℚ} {takeProfits : List Decimal} {mode : TakeProfitMode}
    {distribution : LotDistribution} {leg : TakeProfitLeg} (h : leg ∈ buildTpLegs fixedLot takeProfits mode distribution) :
    leg.takeProfit ∈ takeProfits := by
  simp only [buildTpLegs, List.mem_map] at h
  obtain ⟨level, hm, rfl⟩ := h
  cases mode with
  | all => exact hm
  | lowest => exact List.argmin_mem (Option.mem_toList.mp hm)
  | highest => exact List.argmax_mem (Option.mem_toList.mp hm)

theorem takeProfit_of_mem_intentLegs {action : SignalAction} {fixedLot : ℚ} {takeProfits : List Decimal}
    {mode : TakeProfitMode} {distribution : LotDistribution} {leg : TakeProfitLeg}
    (h : some leg ∈ intentLegsForAction action fixedLot takeProfits mode distribution) : leg.takeProfit ∈ takeProfits := by
  unfold intentLegsForAction at h
  split at h
  · split at h
    · simp at h
    · obtain ⟨leg', hm, he⟩ := List.mem_map.mp h
      cases he
      exact takeProfit_of_mem_buildTpLegs hm
  · simp at h

end SignalSync
