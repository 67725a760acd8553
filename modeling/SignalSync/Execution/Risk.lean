import SignalSync.Execution.Symbols

/-!
# Account limits

`ensureAccountRiskWithinLimits`, the limits an opening must respect. What is
passed to it as the signal's volume is what is checked: `within_limits` states
what a passed check guarantees of that volume.
-/

namespace SignalSync

open Library

variable [Unicode]

/-- Arguments of `ensure_account_risk_within_limits`. -/
structure AccountRisk where
  symbol : String
  signalVolume : ℚ
  currentExposure : ℚ
  currentPositions : Nat
  equity : Option ℚ
  dailyEquityAnchor : Option ℚ
  peakEquity : Option ℚ
  maxLotPerTrade : Numeric 4
  maxTotalLot : Numeric 4
  maxOpenPositions : Nat
  dailyLossLimit : Option (Numeric 2)
  maxDrawdownPercent : Option (Numeric 2)
  allowedSymbols : List String
  blockedSymbols : List String

inductive RiskError
  | perTrade (maximum : Numeric 4)
  | totalExposure (maximum : Numeric 4)
  | openPositions (maximum : Nat)
  | notAllowed (symbol : String)
  | blocked (symbol : String)
  | equityUnavailable
  | dailyLoss (limit : Numeric 2)
  | drawdown (limit : Numeric 2)
deriving DecidableEq

def RiskError.message : RiskError → String
  | .perTrade maximum => s!"Trade size would exceed the per-trade maximum of {maximum.text}."
  | .totalExposure maximum => s!"Trade would exceed the total copied exposure limit of {maximum.text}."
  | .openPositions maximum => s!"Trade would exceed the open-position maximum of {maximum}."
  | .notAllowed symbol => s!"{symbol} is not in this account's allowed-symbol list."
  | .blocked symbol => s!"{symbol} is blocked for this account."
  | .equityUnavailable =>
    "Live account equity is unavailable, so equity-based safety limits cannot be checked."
  | .dailyLoss limit => s!"Account equity has reached the daily loss limit of {limit.text}."
  | .drawdown limit => s!"Account equity has reached the drawdown limit of {limit.text}%."

def matchesSymbolList (symbol : String) (configured : List String) : Bool :=
  configured.any fun candidate =>
    Unicode.strip candidate ≠ "" &&
      Symbols.startsWith (Symbols.normalizeSymbol symbol) (Symbols.normalizeSymbol candidate)

namespace AccountRisk

/-- The daily loss has reached its limit. -/
def dailyLossReached (risk : AccountRisk) (equity : ℚ) (limit : Numeric 2) : Bool :=
  risk.dailyEquityAnchor.any fun anchor => limit.toRat ≤ anchor - equity

/-- The drawdown from the peak has reached its limit. -/
def drawdownReached (risk : AccountRisk) (equity : ℚ) (limit : Numeric 2) : Bool :=
  risk.peakEquity.any fun peak =>
    0 < peak && limit.toRat ≤ (peak - equity) / peak * 100

/-- The first limit, in the order they are checked, that is not respected. -/
def violation (risk : AccountRisk) : Option RiskError :=
  if risk.maxLotPerTrade.toRat < risk.signalVolume then some (.perTrade risk.maxLotPerTrade)
  else if risk.maxTotalLot.toRat < risk.currentExposure + risk.signalVolume then
    some (.totalExposure risk.maxTotalLot)
  else if risk.maxOpenPositions ≤ risk.currentPositions then some (.openPositions risk.maxOpenPositions)
  else if !risk.allowedSymbols.isEmpty && !matchesSymbolList risk.symbol risk.allowedSymbols then
    some (.notAllowed risk.symbol)
  else if matchesSymbolList risk.symbol risk.blockedSymbols then some (.blocked risk.symbol)
  else match risk.equity with
  | none => if risk.dailyLossLimit.isSome || risk.maxDrawdownPercent.isSome then some .equityUnavailable else none
  | some equity =>
    match risk.dailyLossLimit.filter (risk.dailyLossReached equity) with
    | some limit => some (.dailyLoss limit)
    | none => (risk.maxDrawdownPercent.filter (risk.drawdownReached equity)).map .drawdown

end AccountRisk

def ensureAccountRiskWithinLimits (risk : AccountRisk) : Except RiskError Unit :=
  match risk.violation with
  | some error => .error error
  | none => .ok ()

/-- A passed check bounds the volume that was checked. -/
theorem within_limits {risk : AccountRisk} (h : ensureAccountRiskWithinLimits risk = .ok ()) :
    risk.signalVolume ≤ risk.maxLotPerTrade.toRat ∧
      risk.currentExposure + risk.signalVolume ≤ risk.maxTotalLot.toRat ∧
      risk.currentPositions < risk.maxOpenPositions := by
  unfold ensureAccountRiskWithinLimits at h
  split at h
  · cases h
  · rename_i hv
    unfold AccountRisk.violation at hv
    split_ifs at hv <;> simp_all

end SignalSync
