import Mathlib.Algebra.Order.BigOperators.Group.List
import Mathlib.Data.List.MinMax
import Mathlib.Data.List.Sort
import SignalSync.Accounts.Ingestion
import SignalSync.Library.Grouping

/-!
# The summary and the calendar of an account

`getAnalyticsDashboard`, for one account: its summary and its calendar. Both collect the
closed trades of the period by day, the summary by the date a trade was closed on in UTC
and the calendar by the date in the account's timezone.

* `mem_byDay`, `shows_calendar`: the total of a day, in the one view and in the other;
* `sum_calendar`: the totals of the calendar add up to the net result;
* `agrees_iff`: the best and the worst day are days of the calendar, whatever the trades
  made, exactly where every trade was closed on one date in both.
-/

namespace SignalSync

namespace Journal

open Library Accounts

/-! ## Dates -/

/-- Days, counted from the first one. -/
abbrev Date := Int

/-- `timedelta(days=1)`. -/
abbrev aDay : Int := seconds 86400

/-- A `ZoneInfo`: how far it is ahead of UTC at a time, and where its clocks show a reading. -/
structure Zone where
  offset : Time → Int
  offsetOfReading : Int → Int

/-- `t.date()`, of a time in UTC. -/
def utcDate (t : Time) : Date := t / aDay

def toAccountLocalDate (valueUtc : Time) (zone : Zone) : Date := (valueUtc + zone.offset valueUtc) / aDay

def localDateToUtcRange (localDay : Date) (zone : Zone) : Int × Int :=
  let startLocal := localDay * aDay
  let nextDayLocal := startLocal + aDay
  (startLocal - zone.offsetOfReading startLocal, nextDayLocal - zone.offsetOfReading nextDayLocal)

def resolveDateWindow (fromDate toDate : Option Date) (zone : Zone) : Option Int × Option Int :=
  (fromDate.map fun d => (localDateToUtcRange d zone).1, toDate.map fun d => (localDateToUtcRange d zone).2)

/-- A closing time in the window. -/
def inWindow (closedFromUtc closedToUtcExclusive : Option Int) (closedAt : Time) : Bool :=
  closedFromUtc.all (· ≤ (closedAt : Int)) && closedToUtcExclusive.all ((closedAt : Int) < ·)

/-- The rows of an account come in the order of their ids, and the sort keeps it. -/
def listTradeRowsForAnalytics (rows : List Trade) (closedFromUtc closedToUtcExclusive : Option Int) : List Trade :=
  (rows.filter fun t => inWindow closedFromUtc closedToUtcExclusive t.closedAt).insertionSort fun t u => t.closedAt ≤ u.closedAt

/-! ## The summary -/

/-- `t.net_profit`. -/
def pnl (t : Trade) : ℚ := t.netProfit.toRat

structure AnalyticsBestWorstDay where
  date : Date
  pnl : ℚ
deriving DecidableEq

/-- The numbers as they are computed; the response writes them out as floats, which is left out
here and in the calendar. -/
structure AnalyticsSummary where
  totalTrades : Nat
  winRate : ℚ
  profitFactor : Option ℚ
  avgWin : ℚ
  avgLoss : ℚ
  avgTradeDurationSeconds : ℚ
  totalNetPnl : ℚ
  startingBalance : ℚ
  maxDrawdown : ℚ
  bestDay : Option AnalyticsBestWorstDay
  worstDay : Option AnalyticsBestWorstDay
deriving DecidableEq

/-- The running total with its peak and the deepest fall from a peak. -/
structure Drawdown where
  runningMax : ℚ := 0
  maxDrawdown : ℚ := 0
  cumulative : ℚ := 0

def Drawdown.step (d : Drawdown) (t : Trade) : Drawdown :=
  let cumulative := d.cumulative + pnl t
  let runningMax := max d.runningMax cumulative
  { cumulative, runningMax, maxDrawdown := max d.maxDrawdown (runningMax - cumulative) }

def byDay (trades : List Trade) : Table Date ℚ := Table.groups (fun t => utcDate t.closedAt) 0 (fun total t => total + pnl t) trades

def computeSummary (trades : List Trade) (startingBalance : ℚ) : AnalyticsSummary :=
  let totalTrades := trades.length
  let winners := trades.filter fun t => 0 < pnl t
  let losers := trades.filter fun t => pnl t < 0
  let grossWin := (winners.map pnl).sum
  let grossLossNegative := (losers.map pnl).sum
  { totalTrades
    winRate := if totalTrades = 0 then 0 else winners.length / totalTrades * 100
    profitFactor := if |grossLossNegative| = 0 then none else some (grossWin / |grossLossNegative|)
    avgWin := if winners.length = 0 then 0 else grossWin / winners.length
    avgLoss := if losers.length = 0 then 0 else grossLossNegative / losers.length
    avgTradeDurationSeconds := if totalTrades = 0 then 0 else (trades.map Trade.durationSeconds).sum / totalTrades
    totalNetPnl := (trades.map pnl).sum
    startingBalance
    maxDrawdown := (trades.foldl Drawdown.step {}).maxDrawdown
    bestDay := ((byDay trades).entries.argmax Prod.snd).map fun (date, pnl) => { date, pnl }
    worstDay := ((byDay trades).entries.argmin Prod.snd).map fun (date, pnl) => { date, pnl } }

/-! ## The calendar -/

/-- What is counted of a day. -/
structure CalendarRow where
  tradeCount : Nat := 0
  totalPnl : ℚ := 0
  winCount : Nat := 0
  lossCount : Nat := 0

def CalendarRow.count (row : CalendarRow) (t : Trade) : CalendarRow where
  tradeCount := row.tradeCount + 1
  totalPnl := row.totalPnl + pnl t
  winCount := if 0 < pnl t then row.winCount + 1 else row.winCount
  lossCount := if pnl t < 0 then row.lossCount + 1 else row.lossCount

def calendarMap (trades : List Trade) (zone : Zone) : Table Date CalendarRow :=
  Table.groups (fun t => toAccountLocalDate t.closedAt zone) {} CalendarRow.count trades

inductive Outcome
  | win | loss | breakeven
deriving DecidableEq, Repr

structure AnalyticsCalendarDay where
  date : Date
  tradeCount : Nat
  totalPnl : ℚ
  winCount : Nat
  lossCount : Nat
  outcome : Outcome
  hasJournalActivity : Bool := false
deriving DecidableEq

def calendarDay (journalActiveDates : List Date) (tradingDay : Date) (row : CalendarRow) : AnalyticsCalendarDay where
  date := tradingDay
  tradeCount := row.tradeCount
  totalPnl := row.totalPnl
  winCount := row.winCount
  lossCount := row.lossCount
  outcome := if 0 < row.totalPnl then .win else if row.totalPnl < 0 then .loss else .breakeven
  hasJournalActivity := journalActiveDates.contains tradingDay

/-- The days of the calendar; `journalActivity` lists the dates with activity between two. -/
def calendarDays (trades : List Trade) (zone : Zone) (journalActivity : Date → Date → List Date) : List AnalyticsCalendarDay :=
  let rows := (calendarMap trades zone).entries
  let journalActiveDates :=
    match (rows.map Prod.fst).min?, (rows.map Prod.fst).max? with
    | some fromDate, some toDate => journalActivity fromDate toDate
    | _, _ => []
  (rows.insertionSort fun a b => a.1 ≤ b.1).map fun (tradingDay, row) => calendarDay journalActiveDates tradingDay row

structure AnalyticsDashboard where
  summary : AnalyticsSummary
  calendar : List AnalyticsCalendarDay
deriving DecidableEq

/-- What a request reads of the account besides its trades. -/
structure JournalAccount where
  zone : Zone
  startingBalance : ℚ
  journalActivity : Date → Date → List Date

def getAnalyticsDashboard (account : JournalAccount) (rows : List Trade) (fromDate toDate : Option Date) : AnalyticsDashboard :=
  let window := resolveDateWindow fromDate toDate account.zone
  let trades := listTradeRowsForAnalytics rows window.1 window.2
  { summary := computeSummary trades account.startingBalance
    calendar := calendarDays trades account.zone account.journalActivity }

/-! ## The two views of a day -/

section

variable {trades : List Trade} {zone : Zone} {journalActivity : Date → Date → List Date} {d : Date} {p : ℚ}

/-- What the trades of a day made, under a notion of the date. -/
def dayTotal (date : Time → Date) (trades : List Trade) (d : Date) : ℚ :=
  ((trades.filter fun t => date t.closedAt = d).map pnl).sum

/-- The calendar shows a day with a total. -/
def Shows (calendar : List AnalyticsCalendarDay) (d : Date) (p : ℚ) : Prop :=
  ∃ day ∈ calendar, day.date = d ∧ day.totalPnl = p

theorem foldl_pnl (l : List Trade) (start : ℚ) : l.foldl (fun total t => total + pnl t) start = start + (l.map pnl).sum := by
  induction l generalizing start with
  | nil => simp
  | cons t l ih => rw [List.foldl_cons, ih, List.map_cons, List.sum_cons, add_assoc]

theorem totalPnl_foldl (l : List Trade) (row : CalendarRow) :
    (l.foldl CalendarRow.count row).totalPnl = row.totalPnl + (l.map pnl).sum := by
  induction l generalizing row with
  | nil => simp
  | cons t l ih =>
    have hrow : (row.count t).totalPnl = row.totalPnl + pnl t := rfl
    rw [List.foldl_cons, ih, hrow, List.map_cons, List.sum_cons, add_assoc]

theorem mem_byDay :
    (d, p) ∈ (byDay trades).entries ↔ d ∈ trades.map (fun t => utcDate t.closedAt) ∧ p = dayTotal utcDate trades d := by
  rw [byDay, Table.mem_groups, foldl_pnl, zero_add]
  rfl

theorem shows_calendar :
    Shows (calendarDays trades zone journalActivity) d p ↔
      d ∈ trades.map (fun t => toAccountLocalDate t.closedAt zone) ∧
        p = dayTotal (toAccountLocalDate · zone) trades d := by
  have hrow (row : CalendarRow) : (d, row) ∈ (calendarMap trades zone).entries ↔ _ := Table.mem_groups
  constructor
  · rintro ⟨day, hday, rfl, rfl⟩
    obtain ⟨⟨date, row⟩, hmem, rfl⟩ := List.mem_map.mp hday
    obtain ⟨hdate, hcounted⟩ := (hrow row).mp ((List.mem_insertionSort _).mp hmem)
    refine ⟨hdate, ?_⟩
    show row.totalPnl = dayTotal _ trades date
    rw [hcounted, totalPnl_foldl, zero_add]
    rfl
  · rintro ⟨hdate, rfl⟩
    refine ⟨_, List.mem_map.mpr ⟨(d, _), (List.mem_insertionSort _).mpr ((hrow _).mpr ⟨hdate, rfl⟩), rfl⟩, rfl, ?_⟩
    show (List.foldl CalendarRow.count {} _).totalPnl = _
    rw [totalPnl_foldl, zero_add]
    rfl

theorem sum_calendar : ((calendarDays trades zone journalActivity).map AnalyticsCalendarDay.totalPnl).sum = (trades.map pnl).sum := by
  have hsum : (((calendarMap trades zone).entries.map fun e => e.2.totalPnl)).sum = (trades.map pnl).sum :=
    Table.sum_groups rfl fun _ _ => rfl
  rw [calendarDays, List.map_map, ← hsum]
  exact ((List.perm_insertionSort _ _).map _).sum_eq

end

/-! ## Where the two views agree -/

/-- The best day of a summary is a day of the calendar, and none has a higher total. -/
def IsBest (calendar : List AnalyticsCalendarDay) : Option AnalyticsBestWorstDay → Prop
  | none => calendar = []
  | some best => Shows calendar best.date best.pnl ∧ ∀ day ∈ calendar, day.totalPnl ≤ best.pnl

def IsWorst (calendar : List AnalyticsCalendarDay) : Option AnalyticsBestWorstDay → Prop
  | none => calendar = []
  | some worst => Shows calendar worst.date worst.pnl ∧ ∀ day ∈ calendar, worst.pnl ≤ day.totalPnl

instance (calendar : List AnalyticsCalendarDay) : DecidablePred (IsBest calendar)
  | none => inferInstanceAs (Decidable (calendar = []))
  | some best => inferInstanceAs (Decidable
      ((∃ day ∈ calendar, day.date = best.date ∧ day.totalPnl = best.pnl) ∧ ∀ day ∈ calendar, day.totalPnl ≤ best.pnl))

structure AnalyticsDashboard.Agrees (dashboard : AnalyticsDashboard) : Prop where
  best : IsBest dashboard.calendar dashboard.summary.bestDay
  worst : IsWorst dashboard.calendar dashboard.summary.worstDay
  total : (dashboard.calendar.map AnalyticsCalendarDay.totalPnl).sum = dashboard.summary.totalNetPnl

section

variable {account : JournalAccount} {rows trades : List Trade} {fromDate toDate : Option Date} {zone : Zone}
  {journalActivity : Date → Date → List Date} {d : Date} {p : ℚ} {t : Trade}

/-- The closing times of the period. -/
def inPeriod (account : JournalAccount) (fromDate toDate : Option Date) (closedAt : Time) : Bool :=
  let window := resolveDateWindow fromDate toDate account.zone
  inWindow window.1 window.2 closedAt

theorem mem_listTradeRows {closedFromUtc closedToUtcExclusive : Option Int} :
    t ∈ listTradeRowsForAnalytics rows closedFromUtc closedToUtcExclusive ↔
      t ∈ rows ∧ inWindow closedFromUtc closedToUtcExclusive t.closedAt := by
  rw [listTradeRowsForAnalytics, List.mem_insertionSort, List.mem_filter]

theorem calendar_eq_nil : calendarDays trades zone journalActivity = [] ↔ trades = [] := by
  rw [calendarDays, List.map_eq_nil_iff, ← List.length_eq_zero_iff, List.length_insertionSort, List.length_eq_zero_iff]
  exact Table.groups_eq_nil

/-- One notion of the date makes one set of totals. -/
theorem shows_iff_mem_byDay (h : ∀ t ∈ trades, utcDate t.closedAt = toAccountLocalDate t.closedAt zone) :
    Shows (calendarDays trades zone journalActivity) d p ↔ (d, p) ∈ (byDay trades).entries := by
  have hdates : trades.map (fun t => utcDate t.closedAt) = trades.map fun t => toAccountLocalDate t.closedAt zone :=
    List.map_congr_left h
  have htotals : dayTotal utcDate trades d = dayTotal (toAccountLocalDate · zone) trades d := by
    refine congrArg (fun l => (List.map pnl l).sum) (List.filter_congr fun t ht => ?_)
    rw [h t ht]
  rw [shows_calendar, mem_byDay, hdates, htotals]

theorem isBest_of_dates (h : ∀ t ∈ trades, utcDate t.closedAt = toAccountLocalDate t.closedAt zone) :
    IsBest (calendarDays trades zone journalActivity) (computeSummary trades account.startingBalance).bestDay := by
  rw [computeSummary]
  cases hbest : (byDay trades).entries.argmax Prod.snd with
  | none => exact calendar_eq_nil.2 (Table.groups_eq_nil.1 (List.argmax_eq_none.mp hbest))
  | some best =>
    refine ⟨(shows_iff_mem_byDay h).mpr (List.argmax_mem hbest), fun day hday => ?_⟩
    exact List.le_of_mem_argmax (f := Prod.snd) ((shows_iff_mem_byDay h).mp ⟨day, hday, rfl, rfl⟩) hbest

theorem isWorst_of_dates (h : ∀ t ∈ trades, utcDate t.closedAt = toAccountLocalDate t.closedAt zone) :
    IsWorst (calendarDays trades zone journalActivity) (computeSummary trades account.startingBalance).worstDay := by
  rw [computeSummary]
  cases hworst : (byDay trades).entries.argmin Prod.snd with
  | none => exact calendar_eq_nil.2 (Table.groups_eq_nil.1 (List.argmin_eq_none.mp hworst))
  | some worst =>
    refine ⟨(shows_iff_mem_byDay h).mpr (List.argmin_mem hworst), fun day hday => ?_⟩
    exact List.le_of_mem_argmin (f := Prod.snd) ((shows_iff_mem_byDay h).mp ⟨day, hday, rfl, rfl⟩) hworst

/-- A total that is not zero has a trade of its day that made something. -/
theorem exists_of_dayTotal_ne_zero {date : Time → Date} (h : dayTotal date trades d ≠ 0) :
    ∃ t ∈ trades, date t.closedAt = d ∧ pnl t ≠ 0 := by
  by_contra hnone
  refine h (List.sum_eq_zero fun x hx => ?_)
  obtain ⟨t, ht, rfl⟩ := List.mem_map.mp hx
  obtain ⟨hmem, hdate⟩ := List.mem_filter.mp ht
  by_contra hne
  exact hnone ⟨t, hmem, by simpa using hdate, hne⟩

/-- Where only the trades closed at one time made something, the best day is the date of that time. -/
theorem dates_of_isBest {s : Trade} (hs : s ∈ trades) (hpos : 0 < pnl s) (hnonneg : ∀ t ∈ trades, 0 ≤ pnl t)
    (hclosed : ∀ t ∈ trades, pnl t ≠ 0 → t.closedAt = s.closedAt)
    (hbest : IsBest (calendarDays trades zone journalActivity) (computeSummary trades account.startingBalance).bestDay) :
    utcDate s.closedAt = toAccountLocalDate s.closedAt zone := by
  have hentry : (utcDate s.closedAt, dayTotal utcDate trades (utcDate s.closedAt)) ∈ (byDay trades).entries :=
    mem_byDay.2 ⟨List.mem_map.mpr ⟨s, hs, rfl⟩, rfl⟩
  have hlarge : pnl s ≤ dayTotal utcDate trades (utcDate s.closedAt) := by
    refine List.single_le_sum (fun x hx => ?_) _ (List.mem_map.mpr ⟨s, List.mem_filter.mpr ⟨hs, by simp⟩, rfl⟩)
    obtain ⟨t, ht, rfl⟩ := List.mem_map.mp hx
    exact hnonneg t (List.mem_filter.mp ht).1
  cases hmax : (byDay trades).entries.argmax Prod.snd with
  | none =>
    rw [List.argmax_eq_none.mp hmax] at hentry
    cases hentry
  | some best =>
    obtain ⟨date, total⟩ := best
    have hpositive : 0 < total := hpos.trans_le (hlarge.trans (List.le_of_mem_argmax (f := Prod.snd) hentry hmax))
    rw [computeSummary, hmax] at hbest
    have hutc : total = dayTotal utcDate trades date := (mem_byDay.1 (List.argmax_mem hmax)).2
    have hlocal : total = dayTotal (toAccountLocalDate · zone) trades date := (shows_calendar.1 hbest.1).2
    obtain ⟨t, ht, htdate, htpnl⟩ := exists_of_dayTotal_ne_zero (hutc ▸ hpositive.ne')
    obtain ⟨u, hu, hudate, hupnl⟩ := exists_of_dayTotal_ne_zero (hlocal ▸ hpositive.ne')
    rw [hclosed t ht htpnl] at htdate
    rw [hclosed u hu hupnl] at hudate
    exact htdate.trans hudate.symm

/-- The trades with other results. -/
def withResults (netProfit : Trade → Numeric 2) (rows : List Trade) : List Trade :=
  rows.map fun t => { t with netProfit := netProfit t }

/-- A result of one unit for the trades closed at one time, and none for the others. -/
def resultAt (closedAt : Time) (t : Trade) : Numeric 2 := if t.closedAt = closedAt then ⟨100⟩ else ⟨0⟩

theorem dates_of_agrees
    (h : ∀ netProfit, (getAnalyticsDashboard account (withResults netProfit rows) fromDate toDate).Agrees)
    (ht : t ∈ rows) (hperiod : inPeriod account fromDate toDate t.closedAt) :
    utcDate t.closedAt = toAccountLocalDate t.closedAt account.zone := by
  have hmem (u : Trade) (hu : u ∈ withResults (resultAt t.closedAt) rows) : pnl u = if u.closedAt = t.closedAt then 1 else 0 := by
    obtain ⟨v, hv, rfl⟩ := List.mem_map.mp hu
    simp only [pnl, resultAt]
    split <;> norm_num [Numeric.toRat]
  have hself : { t with netProfit := resultAt t.closedAt t } ∈ withResults (resultAt t.closedAt) rows :=
    List.mem_map.mpr ⟨t, ht, rfl⟩
  have hrows (u : Trade) (hu : u ∈ listTradeRowsForAnalytics (withResults (resultAt t.closedAt) rows)
      (resolveDateWindow fromDate toDate account.zone).1 (resolveDateWindow fromDate toDate account.zone).2) :=
    hmem u (mem_listTradeRows.1 hu).1
  refine dates_of_isBest (s := { t with netProfit := resultAt t.closedAt t }) (mem_listTradeRows.2 ⟨hself, hperiod⟩) ?_
    (fun u hu => ?_) (fun u hu hne => ?_) (h (resultAt t.closedAt)).best
  · rw [hmem _ hself, if_pos rfl]
    exact one_pos
  · rw [hrows u hu]
    split <;> norm_num
  · by_contra hother
    rw [hrows u hu, if_neg hother] at hne
    exact hne rfl

theorem agrees_of_dates
    (h : ∀ t ∈ rows, inPeriod account fromDate toDate t.closedAt → utcDate t.closedAt = toAccountLocalDate t.closedAt account.zone) :
    (getAnalyticsDashboard account rows fromDate toDate).Agrees := by
  have htrades := fun t ht => h t (mem_listTradeRows.1 ht).1 (mem_listTradeRows.1 ht).2
  exact ⟨isBest_of_dates htrades, isWorst_of_dates htrades, sum_calendar⟩

/-- Whatever the trades of an account made: its summary agrees with its calendar exactly
where each trade of the period was closed on one date in UTC and in the account's timezone. -/
theorem agrees_iff (account : JournalAccount) (rows : List Trade) (fromDate toDate : Option Date) :
    (∀ netProfit, (getAnalyticsDashboard account (withResults netProfit rows) fromDate toDate).Agrees) ↔
      ∀ t ∈ rows, inPeriod account fromDate toDate t.closedAt →
        utcDate t.closedAt = toAccountLocalDate t.closedAt account.zone := by
  refine ⟨fun h t ht hperiod => dates_of_agrees h ht hperiod, fun h netProfit => agrees_of_dates fun t ht hperiod => ?_⟩
  obtain ⟨u, hu, rfl⟩ := List.mem_map.mp ht
  exact h u hu hperiod

end

/-- An account two hours ahead of UTC. -/
def aheadAccount : JournalAccount where
  zone := { offset := fun _ => seconds 7200, offsetOfReading := fun _ => seconds 7200 }
  startingBalance := 0
  journalActivity := fun _ _ => []

def closedTrade (closedAt : Time) (netProfit : Int) : Trade where
  id := 1
  symbol := "XAUUSD"
  direction := .buy
  openPrice := ⟨0⟩
  closePrice := ⟨0⟩
  volume := ⟨10⟩
  profit := ⟨netProfit⟩
  commission := ⟨0⟩
  swap := ⟨0⟩
  netProfit := ⟨netProfit⟩
  durationSeconds := 60
  session := .off_hours
  openedAt := closedAt - seconds 60
  closedAt := closedAt
  createdAt := closedAt

/-- A trade won half an hour before midnight UTC and one lost half an hour after it. -/
def midnightTrades : List Trade := [closedTrade (seconds 84600) 10000, closedTrade (seconds 88200) (-10000)]

/-- In the account's timezone the two trades are of one day, on which nothing was made. -/
theorem midnightTrades_not_agrees :
    (getAnalyticsDashboard aheadAccount midnightTrades none none).summary.bestDay = some ⟨0, 100⟩ ∧
      (getAnalyticsDashboard aheadAccount midnightTrades none none).calendar.map (fun day => (day.date, day.totalPnl)) = [(1, 0)] ∧
      ¬ (getAnalyticsDashboard aheadAccount midnightTrades none none).Agrees := by
  refine ⟨by decide +kernel, by decide +kernel, fun h => ?_⟩
  exact absurd h.best (by decide +kernel)

end Journal

end SignalSync
