import SignalSync.Journal.Analytics
import SignalSync.Library.Drawdown

/-!
# The evaluation of an account

`getAnalyticsEvaluation`, the figures of the journal's sidebar. Its drawdown is found by a
loop of its own, the one of the summary once more: the running total with its peak, and the
deepest fall below the peak.

* `Drawdown.Measures.step`: a trade keeps the peak the highest total and the fall the deepest;
* `maxDrawdown_spec`: the drawdown of either loop is the deepest fall between two totals.
-/

namespace SignalSync

namespace Journal

open Library Accounts

/-! ## The figures -/

inductive StreakLetter
  | W | L | B
deriving DecidableEq, Repr

def streakLetter (t : Trade) : StreakLetter := if 0 < pnl t then .W else if pnl t < 0 then .L else .B

structure AnalyticsEvaluation where
  totalTrades : Nat := 0
  avgProfitPerTradingDay : ℚ := 0
  biggestWinner : ℚ := 0
  biggestLoser : ℚ := 0
  totalFees : ℚ := 0
  avgHoldSeconds : ℚ := 0
  winrateWoBe : ℚ := 0
  roi : ℚ := 0
  maxDrawdownPct : ℚ := 0
  winningDays : Nat := 0
  losingDays : Nat := 0
  tradesPerDay : ℚ := 0
  tradesPerWeek : ℚ := 0
  recentStreak : List StreakLetter := []
deriving DecidableEq

/-- The loop of the evaluation: `running_max`, `max_dd_abs` and `cumulative`. -/
def evaluationDrawdown (trades : List Trade) : Drawdown := trades.foldl Drawdown.step {}

/-- `max_drawdown_pct`, of the starting balance where it is positive, of the peak else. -/
def maxDrawdownPct (d : Drawdown) (startingBalance : ℚ) : ℚ :=
  let ddBasis := if 0 < startingBalance then startingBalance else d.runningMax
  if 0 < ddBasis then d.maxDrawdown / ddBasis * 100 else 0

/-- The evaluation of the trades of a period. -/
def evaluationOf (trades : List Trade) (zone : Zone) (startingBalance : ℚ) : AnalyticsEvaluation :=
  if trades = [] then {}
  else
    let totalTrades := trades.length
    let totalNetPnl := (trades.map pnl).sum
    let wins := (trades.filter fun t => 0 < pnl t).length
    let losses := (trades.filter fun t => pnl t < 0).length
    let byDay := Table.groups (fun t : Trade => toAccountLocalDate t.closedAt zone) 0 (fun total t => total + pnl t) trades
    let tradingDays := byDay.entries.length
    let dayKeys := byDay.entries.map Prod.fst
    let spanDays := (dayKeys.max?.getD 0 - dayKeys.min?.getD 0 + 1 : Int)
    { totalTrades
      avgProfitPerTradingDay := if tradingDays = 0 then 0 else totalNetPnl / tradingDays
      biggestWinner := (trades.map pnl).max?.getD 0
      biggestLoser := (trades.map pnl).min?.getD 0
      totalFees := (trades.map fun t => t.commission.toRat + t.swap.toRat).sum
      avgHoldSeconds := (trades.map Trade.durationSeconds).sum / totalTrades
      winrateWoBe := if wins + losses = 0 then 0 else wins / (wins + losses) * 100
      roi := if startingBalance = 0 then 0 else totalNetPnl / startingBalance * 100
      maxDrawdownPct := maxDrawdownPct (evaluationDrawdown trades) startingBalance
      winningDays := (byDay.entries.filter fun e => 0 < e.2).length
      losingDays := (byDay.entries.filter fun e => e.2 < 0).length
      tradesPerDay := if tradingDays = 0 then 0 else totalTrades / tradingDays
      tradesPerWeek := totalTrades / max 1 ((spanDays : ℚ) / 7)
      recentStreak := (trades.drop (totalTrades - 5)).map streakLetter }

def getAnalyticsEvaluation (account : JournalAccount) (rows : List Trade) (fromDate toDate : Option Date) : AnalyticsEvaluation :=
  let window := resolveDateWindow fromDate toDate account.zone
  evaluationOf (listTradeRowsForAnalytics rows window.1 window.2) account.zone account.startingBalance

/-! ## What the loops find -/

/-- The state of a loop after so many gains. -/
structure Drawdown.Measures (d : Drawdown) (gains : List ℚ) : Prop where
  cumulative : d.cumulative = gains.sum
  runningMax : IsGreatest (totals gains) d.runningMax
  maxDrawdown : IsGreatest (falls gains) d.maxDrawdown

namespace Drawdown

variable {d : Drawdown} {gains : List ℚ} {t : Trade}

theorem measures_nil : Measures {} [] := ⟨rfl, isGreatest_totals_nil, isGreatest_falls_nil⟩

theorem Measures.step (h : d.Measures gains) (t : Trade) : (d.step t).Measures (gains ++ [pnl t]) := by
  have hpeak : IsGreatest (totals (gains ++ [pnl t])) (d.step t).runningMax := by
    have hgreatest : IsGreatest (totals (gains ++ [pnl t])) (max d.runningMax (gains.sum + pnl t)) :=
      isGreatest_totals_concat h.runningMax
    rwa [← h.cumulative] at hgreatest
  refine ⟨?_, hpeak, ?_⟩
  · rw [List.sum_append, List.sum_singleton, ← h.cumulative]
    rfl
  · have hgreatest := isGreatest_falls_concat h.maxDrawdown hpeak
    rwa [← h.cumulative] at hgreatest

/-- A trade that makes nothing changes nothing: the peak is no less than the total, and the
deepest fall no less than the one to the total. -/
theorem Measures.step_of_zero (h : d.Measures gains) (ht : pnl t = 0) : d.step t = d := by
  have hpeak : d.cumulative ≤ d.runningMax := h.cumulative ▸ h.runningMax.2 (sum_mem_totals gains)
  have hfall : d.runningMax - d.cumulative ≤ d.maxDrawdown :=
    h.cumulative ▸ h.maxDrawdown.2 (sub_sum_mem_falls h.runningMax.1)
  obtain ⟨runningMax, maxDrawdown, cumulative⟩ := d
  simp only [Drawdown.step, ht, add_zero, max_eq_left hpeak, max_eq_left hfall]

end Drawdown

theorem measures_foldl (trades : List Trade) : (trades.foldl Drawdown.step {}).Measures (trades.map pnl) := by
  induction trades using List.reverseRecOn with
  | nil => exact Drawdown.measures_nil
  | append_singleton trades t ih =>
    rw [List.foldl_append, List.map_append]
    exact ih.step t

theorem foldl_filter_zero (trades : List Trade) :
    (trades.filter fun t => pnl t ≠ 0).foldl Drawdown.step {} = trades.foldl Drawdown.step {} := by
  induction trades using List.reverseRecOn with
  | nil => rfl
  | append_singleton trades t ih =>
    rw [List.filter_append, List.foldl_append, List.foldl_append, ih]
    by_cases ht : pnl t = 0
    · rw [List.filter_cons_of_neg (by simpa using ht)]
      exact ((measures_foldl trades).step_of_zero ht).symm
    · rw [List.filter_cons_of_pos (by simpa using ht)]
      rfl

/-- **Maximum drawdown.** The drawdown of the summary, and of the evaluation, is the deepest fall
from a total of the first trades to one of as many or more. It is not negative, more trades make
it no smaller, and trades that make nothing do not count. -/
theorem maxDrawdown_spec (trades more : List Trade) (startingBalance : ℚ) :
    IsGreatest {fall | ∃ i j, i ≤ j ∧ j ≤ trades.length ∧ ((trades.take i).map pnl).sum - ((trades.take j).map pnl).sum = fall}
        (computeSummary trades startingBalance).maxDrawdown ∧
      (evaluationDrawdown trades).maxDrawdown = (computeSummary trades startingBalance).maxDrawdown ∧
      0 ≤ (computeSummary trades startingBalance).maxDrawdown ∧
      (computeSummary trades startingBalance).maxDrawdown ≤ (computeSummary (trades ++ more) startingBalance).maxDrawdown ∧
      (computeSummary (trades.filter fun t => pnl t ≠ 0) startingBalance).maxDrawdown =
        (computeSummary trades startingBalance).maxDrawdown := by
  have hmeasures := measures_foldl trades
  refine ⟨?_, rfl, hmeasures.maxDrawdown.2 (zero_mem_falls _), ?_, congrArg Drawdown.maxDrawdown (foldl_filter_zero trades)⟩
  · have hgreatest := hmeasures.maxDrawdown
    simp only [falls, List.length_map, ← List.map_take] at hgreatest
    exact hgreatest
  · have hlonger := (measures_foldl (trades ++ more)).maxDrawdown.2
    rw [List.map_append] at hlonger
    exact hlonger (falls_subset_append _ _ hmeasures.maxDrawdown.1)

/-- A history of losses only falls from the start. -/
example : (evaluationDrawdown [closedTrade 0 (-10000), closedTrade 1 (-5000)]).maxDrawdown = 150 := by decide +kernel

end Journal

end SignalSync
