import SignalSync.Journal.Combined
import SignalSync.Journal.Curves
import SignalSync.Library.Totals

/-!
# The views of the dashboard

The dashboard shows the trades of its period five times: in the summary, by the days of the
calendar, by the symbols they were of, by the hours of the day and by the days of the week.
Each view groups them anew: the calendar by the date in a trade's own account, the last two
by the clock of one timezone at the opening or the closing.

* `hourBucket_mem`, `weekdayBucket_mem`: every trade has an hour and a weekday that are shown;
* `map_instruments`, `map_hourly`, `map_daily`: what a row shows is the tally of its trades;
* `dashboardViews_oneTally`, `multiAccountViews_oneTally`: the five views add up to one tally.
-/

namespace SignalSync

namespace Journal

open Library Accounts

/-! ## By the clock -/

structure AnalyticsTimePerformancePoint where
  bucket : String
  tradeCount : Nat
  totalPnl : ℚ
  winRate : ℚ
  avgPnl : ℚ
deriving DecidableEq

structure AnalyticsTimePerformance where
  hourly : List AnalyticsTimePerformancePoint
  daily : List AnalyticsTimePerformancePoint
deriving DecidableEq

def weekdayOrder : List String := ["Mon", "Tue", "Wed", "Thu", "Fri", "Sat", "Sun"]

/-- `f"{hour:02d}"`. -/
def hourLabel (hour : Nat) : String := (if hour < 10 then "0" else "") ++ toString hour

def basisTime (timeBasis : String) (t : Trade) : Time := if timeBasis = "open" then t.openedAt else t.closedAt

/-- The bucket of `local_closed_at.hour`. -/
def hourBucket (zone : Zone) (timeBasis : String) (t : Trade) : String :=
  hourLabel (toAccountLocalDatetime (basisTime timeBasis t) zone % aDay / seconds 3600).toNat

/-- The bucket of `local_closed_at.weekday()`; the first day of all was a Monday. -/
def weekdayBucket (zone : Zone) (timeBasis : String) (t : Trade) : String :=
  weekdayOrder.getD (toAccountLocalDate (basisTime timeBasis t) zone % 7).toNat ""

/-- The trades that are collected under each bucket. -/
def tradesBy (key : Trade → String) (trades : List Trade) : Table String (List Trade) :=
  Table.groups key [] (fun bucketTrades t => bucketTrades ++ [t]) trades

def buildPoint (bucket : String) (bucketTrades : List Trade) : AnalyticsTimePerformancePoint :=
  let count := bucketTrades.length
  let wins := (bucketTrades.filter fun t => 0 < pnl t).length
  let totalPnl := (bucketTrades.map pnl).sum
  { bucket
    tradeCount := count
    totalPnl
    winRate := if count = 0 then 0 else wins / count * 100
    avgPnl := if count = 0 then 0 else totalPnl / count }

def computeTimePerformance (trades : List Trade) (zone : Zone) (timeBasis : String) : AnalyticsTimePerformance :=
  let hourlyGroups := tradesBy (hourBucket zone timeBasis) trades
  let weekdayGroups := tradesBy (weekdayBucket zone timeBasis) trades
  { hourly := (List.range 24).map fun hour => buildPoint (hourLabel hour) ((hourlyGroups.get? (hourLabel hour)).getD [])
    daily := weekdayOrder.map fun day => buildPoint day ((weekdayGroups.get? day).getD []) }

/-! ## By the symbol -/

structure AnalyticsInstrumentItem where
  symbol : String
  tradeCount : Nat
  winRate : ℚ
  totalPnl : ℚ
  avgPnl : ℚ
  avgMfe : Option ℚ
  avgMae : Option ℚ
deriving DecidableEq

/-- The average of the values there are. -/
def averageOf (values : List ℚ) : Option ℚ := if values = [] then none else some (values.sum / values.length)

def instrumentItem (symbol : String) (symbolTrades : List Trade) : AnalyticsInstrumentItem :=
  let tradeCount := symbolTrades.length
  let symWins := (symbolTrades.filter fun t => 0 < pnl t).length
  let symPnl := (symbolTrades.map pnl).sum
  { symbol
    tradeCount
    winRate := if tradeCount = 0 then 0 else symWins / tradeCount * 100
    totalPnl := symPnl
    avgPnl := if tradeCount = 0 then 0 else symPnl / tradeCount
    avgMfe := averageOf ((symbolTrades.filterMap Trade.mfe).map Numeric.toRat)
    avgMae := averageOf ((symbolTrades.filterMap Trade.mae).map Numeric.toRat) }

/-- The items by their results, the best first. -/
def instruments (trades : List Trade) : List AnalyticsInstrumentItem :=
  ((tradesBy Trade.symbol trades).entries.map fun (symbol, symbolTrades) => instrumentItem symbol symbolTrades).insertionSort
    fun a b => b.totalPnl ≤ a.totalPnl

/-! ## The dashboard -/

/-- The dashboard with all of its views. -/
structure AnalyticsDashboardViews extends AnalyticsDashboard where
  instruments : List AnalyticsInstrumentItem
  timePerformance : AnalyticsTimePerformance
deriving DecidableEq

def dashboardViews (account : JournalAccount) (rows : List Trade) (fromDate toDate : Option Date) (timeBasis : String) :
    AnalyticsDashboardViews :=
  let window := resolveDateWindow fromDate toDate account.zone
  let trades := listTradeRowsForAnalytics rows window.1 window.2
  { getAnalyticsDashboard account rows fromDate toDate with
    instruments := instruments trades
    timePerformance := computeTimePerformance trades account.zone timeBasis }

/-- Without an account, the clock is that of UTC. -/
def multiAccountViews (accounts : List UserAccount) (rows : List AccountTrade) (fromDate toDate : Option Date) (timeBasis : String) :
    AnalyticsDashboardViews :=
  let trades := (multiAccountTrades accounts rows fromDate toDate).map Prod.snd
  { getMultiAccountDashboard accounts rows fromDate toDate with
    instruments := instruments trades
    timePerformance := computeTimePerformance trades utc timeBasis }

/-! ## Tallies -/

/-- How many trades, how many of them won, and what they made. -/
abbrev Tally := Nat × ℚ × ℚ

def Tally.ofTrade (t : Trade) : Tally := (1, if 0 < pnl t then 1 else 0, pnl t)

def tally (trades : List Trade) : Tally := (trades.map Tally.ofTrade).sum

/-- What a row that shows a count, a win rate and a total says of its trades. -/
def shownTally (tradeCount : Nat) (winRate totalPnl : ℚ) : Tally := (tradeCount, winRate / 100 * tradeCount, totalPnl)

def AnalyticsSummary.tally (s : AnalyticsSummary) : Tally := shownTally s.totalTrades s.winRate s.totalNetPnl

def AnalyticsCalendarDay.tally (d : AnalyticsCalendarDay) : Tally := (d.tradeCount, d.winCount, d.totalPnl)

def AnalyticsInstrumentItem.tally (i : AnalyticsInstrumentItem) : Tally := shownTally i.tradeCount i.winRate i.totalPnl

def AnalyticsTimePerformancePoint.tally (p : AnalyticsTimePerformancePoint) : Tally := shownTally p.tradeCount p.winRate p.totalPnl

/-- The views show the same trades: each adds up to what the summary shows. -/
structure AnalyticsDashboardViews.OneTally (d : AnalyticsDashboardViews) : Prop where
  calendar : (d.calendar.map (·.tally)).sum = d.summary.tally
  instruments : (d.instruments.map (·.tally)).sum = d.summary.tally
  hourly : (d.timePerformance.hourly.map (·.tally)).sum = d.summary.tally
  daily : (d.timePerformance.daily.map (·.tally)).sum = d.summary.tally

section

variable {trades : List Trade} {zone : Zone} {timeBasis : String}

theorem tally_eq (trades : List Trade) :
    tally trades = (trades.length, ((trades.filter fun t => 0 < pnl t).length : ℚ), (trades.map pnl).sum) := by
  induction trades with
  | nil => rfl
  | cons t trades ih =>
    rw [tally] at ih
    rw [tally, List.map_cons, List.sum_cons, ih, Tally.ofTrade, List.length_cons, List.map_cons, List.sum_cons]
    by_cases hwin : 0 < pnl t
    · rw [if_pos hwin, List.filter_cons_of_pos (by simpa using hwin), List.length_cons]
      refine Prod.ext (Nat.add_comm _ _) (Prod.ext ?_ rfl)
      push_cast
      exact add_comm _ _
    · rw [if_neg hwin, List.filter_cons_of_neg (by simpa using hwin)]
      exact Prod.ext (Nat.add_comm _ _) (Prod.ext (zero_add _) rfl)

/-- A win rate, its count and its total say the tally of the trades they are of. -/
theorem shownTally_eq (trades : List Trade) :
    shownTally trades.length
      (if trades.length = 0 then 0 else ((trades.filter fun t => 0 < pnl t).length : ℚ) / trades.length * 100)
      (trades.map pnl).sum = tally trades := by
  rw [tally_eq, shownTally]
  refine Prod.ext rfl (Prod.ext ?_ rfl)
  split
  · rename_i hnone
    rw [List.length_eq_zero_iff.mp hnone]
    simp
  · rename_i hsome
    have hne : (trades.length : ℚ) ≠ 0 := Nat.cast_ne_zero.mpr hsome
    field_simp

theorem tally_computeSummary (trades : List Trade) (startingBalance : ℚ) :
    (computeSummary trades startingBalance).tally = tally trades := shownTally_eq trades

theorem tally_buildPoint (bucket : String) (trades : List Trade) : (buildPoint bucket trades).tally = tally trades := shownTally_eq trades

theorem tally_instrumentItem (symbol : String) (trades : List Trade) :
    (instrumentItem symbol trades).tally = tally trades := shownTally_eq trades

/-! ## The rows of a view -/

theorem get?_tradesBy (key : Trade → String) (trades : List Trade) (bucket : String) :
    ((tradesBy key trades).get? bucket).getD [] = trades.filter fun t => key t = bucket := by
  rw [tradesBy, Table.get?_groups]
  split
  · rw [foldl_append_singleton, List.nil_append, Option.getD_some]
  · rename_i hnone
    refine (List.filter_eq_nil_iff.mpr fun t ht hkey => hnone ?_).symm
    exact List.mem_map.mpr ⟨t, ht, by simpa using hkey⟩

theorem hourLabels_nodup : ((List.range 24).map hourLabel).Nodup := by decide +kernel

theorem weekdayOrder_nodup : weekdayOrder.Nodup := by decide

theorem hourBucket_mem (t : Trade) : hourBucket zone timeBasis t ∈ (List.range 24).map hourLabel := by
  refine List.mem_map.mpr ⟨_, List.mem_range.mpr ?_, rfl⟩
  have hlow := Int.emod_nonneg (toAccountLocalDatetime (basisTime timeBasis t) zone) (show aDay ≠ 0 by decide)
  have hhigh := Int.emod_lt_of_pos (toAccountLocalDatetime (basisTime timeBasis t) zone) (show 0 < aDay by decide)
  simp only [aDay, seconds] at hlow hhigh ⊢
  omega

theorem weekdayBucket_mem (t : Trade) : weekdayBucket zone timeBasis t ∈ weekdayOrder := by
  have hlow := Int.emod_nonneg (toAccountLocalDate (basisTime timeBasis t) zone) (show (7 : Int) ≠ 0 by decide)
  have hhigh := Int.emod_lt_of_pos (toAccountLocalDate (basisTime timeBasis t) zone) (show (0 : Int) < 7 by decide)
  have hlt : (toAccountLocalDate (basisTime timeBasis t) zone % 7).toNat < weekdayOrder.length := by
    show _ < 7
    omega
  rw [weekdayBucket, List.getD_eq_getElem?_getD, List.getElem?_eq_getElem hlt, Option.getD_some]
  exact List.getElem_mem hlt

/-- The points of a clock show the tallies of their trades. -/
theorem map_points (key : Trade → String) (trades : List Trade) (buckets : List String) :
    (buckets.map fun b => buildPoint b (((tradesBy key trades).get? b).getD [])).map (fun p => (p.bucket, p.tally)) =
      buckets.map fun b => (b, tally (trades.filter fun t => key t = b)) := by
  rw [List.map_map]
  refine List.map_congr_left fun b _ => Prod.ext rfl ?_
  show (buildPoint b _).tally = _
  rw [tally_buildPoint, get?_tradesBy]

theorem map_hourly : (computeTimePerformance trades zone timeBasis).hourly.map (fun p => (p.bucket, p.tally)) =
    ((List.range 24).map hourLabel).map fun b => (b, tally (trades.filter fun t => hourBucket zone timeBasis t = b)) := by
  rw [← map_points, List.map_map (l := List.range 24)]
  rfl

theorem map_daily : (computeTimePerformance trades zone timeBasis).daily.map (fun p => (p.bucket, p.tally)) =
    weekdayOrder.map fun b => (b, tally (trades.filter fun t => weekdayBucket zone timeBasis t = b)) := map_points _ _ _

/-- The items show the tallies of their symbols' trades. -/
theorem map_instruments : ((instruments trades).map fun i => (i.symbol, i.tally)).Perm
    ((tradesBy Trade.symbol trades).entries.map fun e => (e.1, tally e.2)) := by
  refine ((List.perm_insertionSort _ _).map _).trans (List.Perm.of_eq ?_)
  rw [List.map_map]
  exact List.map_congr_left fun e _ => Prod.ext rfl (tally_instrumentItem _ _)

/-! ## The sums -/

theorem tally_concat (trades : List Trade) (t : Trade) : tally (trades ++ [t]) = tally trades + Tally.ofTrade t := by
  rw [tally, List.map_append, List.sum_append, List.map_singleton, List.sum_singleton, tally]

theorem sum_points {points : List AnalyticsTimePerformancePoint} {key : Trade → String} {buckets : List String}
    (hpoints : points.map (fun p => (p.bucket, p.tally)) = buckets.map fun b => (b, tally (trades.filter fun t => key t = b)))
    (hnodup : buckets.Nodup) (hmem : ∀ t ∈ trades, key t ∈ buckets) : (points.map (·.tally)).sum = tally trades := by
  have htallies := congrArg (List.map Prod.snd) hpoints
  rw [List.map_map, List.map_map] at htallies
  exact (congrArg List.sum htallies).trans (sum_buckets hnodup hmem)

theorem sum_instruments : ((instruments trades).map (·.tally)).sum = tally trades := by
  have hperm := (@map_instruments trades).map Prod.snd
  rw [List.map_map, List.map_map] at hperm
  have hsum : ((tradesBy Trade.symbol trades).entries.map fun e => tally e.2).sum = (trades.map Tally.ofTrade).sum :=
    Table.sum_groups rfl tally_concat
  exact hperm.sum_eq.trans hsum

def CalendarRow.tally (row : CalendarRow) : Tally := (row.tradeCount, row.winCount, row.totalPnl)

theorem CalendarRow.tally_count (row : CalendarRow) (t : Trade) : (row.count t).tally = row.tally + Tally.ofTrade t := by
  refine Prod.ext rfl (Prod.ext ?_ rfl)
  show (((if 0 < pnl t then row.winCount + 1 else row.winCount : Nat)) : ℚ) = row.winCount + if 0 < pnl t then 1 else 0
  split
  · push_cast
    rfl
  · exact (add_zero _).symm

/-- A calendar, whatever its dates are. -/
theorem sum_calendarRows {α : Type} (date : α → Date) (trade : α → Trade) (l : List α) (active : List Date) :
    ((((Table.groups date ({} : CalendarRow) (fun row a => row.count (trade a)) l).entries.insertionSort fun a b => a.1 ≤ b.1).map
      fun (tradingDay, row) => calendarDay active tradingDay row).map (·.tally)).sum = tally (l.map trade) := by
  have hnew : CalendarRow.tally {} = 0 := Prod.ext rfl (Prod.ext Nat.cast_zero rfl)
  have hsum : ((Table.groups date ({} : CalendarRow) (fun row a => row.count (trade a)) l).entries.map fun e => e.2.tally).sum =
      (l.map fun a => Tally.ofTrade (trade a)).sum := Table.sum_groups hnew fun row a => row.tally_count (trade a)
  rw [tally, List.map_map, List.map_map, ((List.perm_insertionSort _ _).map _).sum_eq]
  exact hsum

theorem oneTally_of {d : AnalyticsDashboardViews} {startingBalance : ℚ} (hsummary : d.summary = computeSummary trades startingBalance)
    (hinstruments : d.instruments = instruments trades) (htime : d.timePerformance = computeTimePerformance trades zone timeBasis)
    (hcalendar : (d.calendar.map (·.tally)).sum = tally trades) : d.OneTally := by
  have htally : d.summary.tally = tally trades := by rw [hsummary, tally_computeSummary]
  refine ⟨hcalendar.trans htally.symm, ?_, ?_, ?_⟩
  · rw [htally, hinstruments, sum_instruments]
  · rw [htally, htime]
    exact sum_points map_hourly hourLabels_nodup fun t _ => hourBucket_mem t
  · rw [htally, htime]
    exact sum_points map_daily weekdayOrder_nodup fun t _ => weekdayBucket_mem t

theorem dashboardViews_oneTally (account : JournalAccount) (rows : List Trade) (fromDate toDate : Option Date) :
    (dashboardViews account rows fromDate toDate timeBasis).OneTally := by
  let window := resolveDateWindow fromDate toDate account.zone
  let trades := listTradeRowsForAnalytics rows window.1 window.2
  have hcalendar := sum_calendarRows (fun t => toAccountLocalDate t.closedAt account.zone) id trades
  simp only [List.map_id] at hcalendar
  exact @oneTally_of trades account.zone timeBasis _ account.startingBalance rfl rfl rfl (hcalendar _)

theorem multiAccountViews_oneTally (accounts : List UserAccount) (rows : List AccountTrade) (fromDate toDate : Option Date) :
    (multiAccountViews accounts rows fromDate toDate timeBasis).OneTally :=
  @oneTally_of ((multiAccountTrades accounts rows fromDate toDate).map Prod.snd) utc timeBasis _ _ rfl rfl rfl
    (sum_calendarRows (accountLocalDay (getReadyAccountsForUser accounts)) Prod.snd _ _)

end

/-- **The views of the dashboard agree**: whatever the timezones, the period and the basis of the
clock, the calendar, the instruments, the hours and the weekdays each add up to what the summary
shows, for one account and for all accounts of the user. -/
theorem views_oneTally (timeBasis : String) (fromDate toDate : Option Date) :
    (∀ (account : JournalAccount) (rows : List Trade), (dashboardViews account rows fromDate toDate timeBasis).OneTally) ∧
      ∀ (accounts : List UserAccount) (rows : List AccountTrade),
        (multiAccountViews accounts rows fromDate toDate timeBasis).OneTally :=
  ⟨fun account rows => dashboardViews_oneTally account rows fromDate toDate,
    fun accounts rows => multiAccountViews_oneTally accounts rows fromDate toDate⟩

end Journal

end SignalSync
