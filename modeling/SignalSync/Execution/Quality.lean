import SignalSync.Database

/-!
# Execution quality

`checkExecutionQuality`, the last look at the live quote before an order: trading
hours, the age of the quote, its spread and the distance from the signal's entry.

* `checkExecutionQuality_ok`: what a passed check guarantees of the quote;
* `QualityError.retryable_iff`: the errors worth another try are those of a quote
  that is missing or old, and of a wide spread the account waits out.
-/

namespace SignalSync

open Library

/-- The `time` of a quote, or its `brokerTime`. -/
inductive QuoteTime
  | missing
  | unreadable
  | at (time : Time)
deriving DecidableEq

/-- A live quote; `none` is a price that is absent or no finite number. -/
structure Quote where
  bid : Option ℚ
  ask : Option ℚ
  time : QuoteTime
deriving DecidableEq

inductive QualityError
  | outsideTradingHours
  | quoteUnavailable
  | quoteTimeMissing
  | staleQuote
  | spreadTooWide (behavior : HighSpreadBehavior)
  | slippageTooHigh
deriving DecidableEq

namespace QualityError

def code : QualityError → String
  | outsideTradingHours => "OUTSIDE_TRADING_HOURS"
  | quoteUnavailable => "QUOTE_UNAVAILABLE"
  | quoteTimeMissing => "QUOTE_TIME_MISSING"
  | staleQuote => "STALE_QUOTE"
  | spreadTooWide _ => "SPREAD_TOO_WIDE"
  | slippageTooHigh => "SLIPPAGE_TOO_HIGH"

def retryable : QualityError → Bool
  | quoteUnavailable | quoteTimeMissing | staleQuote => true
  | spreadTooWide behavior => behavior = .wait
  | _ => false

def userActionRequired : QualityError → Bool
  | quoteUnavailable | quoteTimeMissing | staleQuote => false
  | _ => true

theorem retryable_iff (e : QualityError) :
    e.retryable ↔ e.userActionRequired = false ∨ e = .spreadTooWide .wait := by
  cases e with
  | spreadTooWide behavior => cases behavior <;> simp [retryable, userActionRequired]
  | _ => simp [retryable, userActionRequired]

end QualityError

def hourUtc (now : Time) : Nat := now / seconds 3600 % 24

def withinTradingHours (now : Time) (start stop : Option Nat) : Bool :=
  match start, stop with
  | some start, some stop =>
    if start = stop then true
    else if start < stop then start ≤ hourUtc now && hourUtc now < stop
    else start ≤ hourUtc now || hourUtc now < stop
  | _, _ => true

structure ExecutionQuality where
  spreadPoints : ℚ
  quoteAge : Time
  slippagePoints : Option ℚ

/-- The quote's prices and its time, or why it cannot be used. -/
def Quote.read (quote : Quote) : Except QualityError (ℚ × ℚ × Time) :=
  match quote.bid, quote.ask, quote.time with
  | none, _, _ | _, none, _ => .error .quoteUnavailable
  | some _, some _, .unreadable => .error .quoteUnavailable
  | some _, some _, .missing => .error .quoteTimeMissing
  | some bid, some ask, .at time => .ok (bid, ask, time)

/-- `point`, or its default. -/
def BrokerSymbol.pointSize (symbol : BrokerSymbol) : ℚ := if 0 < symbol.point then symbol.point else 1 / 100000

/-- The price an order of the direction is filled at. -/
def marketPrice (direction : Direction) (bid ask : ℚ) : ℚ :=
  match direction with
  | .buy => ask
  | .sell => bid

def checkExecutionQuality (quote : Quote) (symbol : BrokerSymbol) (direction : Direction) (entry : Option ℚ)
    (policy : CopyAccountPolicy) (now : Time) : Except QualityError ExecutionQuality :=
  if !withinTradingHours now policy.tradingStartHourUtc policy.tradingEndHourUtc then .error .outsideTradingHours
  else match quote.read with
  | .error e => .error e
  | .ok (bid, ask, quoteAt) =>
    let spread := (ask - bid) / symbol.pointSize
    let slippage := entry.map fun entry => |marketPrice direction bid ask - entry| / symbol.pointSize
    if seconds policy.maxQuoteAgeSeconds < now - quoteAt then .error .staleQuote
    else if policy.maxSpreadPoints.any fun limit : Nat => (limit : ℚ) < spread then .error (.spreadTooWide policy.highSpreadBehavior)
    else if policy.maxSlippagePoints.any fun limit : Nat => slippage.any fun slippage => (limit : ℚ) < slippage then
      .error .slippageTooHigh
    else .ok { spreadPoints := spread, quoteAge := now - quoteAt, slippagePoints := slippage }

/-- A passed check bounds the quote's age, its spread and its distance from the entry. -/
theorem checkExecutionQuality_ok {quote : Quote} {symbol : BrokerSymbol} {direction : Direction} {entry : Option ℚ}
    {policy : CopyAccountPolicy} {now : Time} {quality : ExecutionQuality}
    (h : checkExecutionQuality quote symbol direction entry policy now = .ok quality) :
    withinTradingHours now policy.tradingStartHourUtc policy.tradingEndHourUtc ∧
      quality.quoteAge ≤ seconds policy.maxQuoteAgeSeconds ∧
      (∀ limit ∈ policy.maxSpreadPoints, quality.spreadPoints ≤ limit) ∧
      ∀ limit ∈ policy.maxSlippagePoints, ∀ slippage ∈ quality.slippagePoints, slippage ≤ limit := by
  unfold checkExecutionQuality at h
  split at h
  · cases h
  · rename_i hours
    split at h
    · cases h
    · simp only at h
      split at h
      · cases h
      · rename_i hage
        split at h
        · cases h
        · rename_i hspread
          split at h
          · cases h
          · rename_i hslippage
            cases h
            refine ⟨by simpa using hours, Nat.le_of_not_lt hage, fun limit hl => ?_, fun limit hl slippage hs => ?_⟩
            · simp only [Option.any_eq_true, decide_eq_true_eq, not_exists, not_and, not_lt] at hspread
              exact hspread limit hl
            · simp only [Option.any_eq_true, decide_eq_true_eq, not_exists, not_and, not_lt] at hslippage
              exact hslippage limit hl slippage hs

end SignalSync
