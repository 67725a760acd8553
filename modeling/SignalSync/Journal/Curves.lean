import SignalSync.Journal.Analytics

/-!
# The curves of an account

Three views of how the trades of a period added up: the equity curve and the daily curve, day
by day, and the intraday curve, which starts from zero on each day. Each of them collects the
trades by the date in the account's timezone and goes through the days in order.

* `countsOnce_dailyPnl`: every trade is in the total of one day;
* `IntradayTotals.foldl_add`: what is accumulated of a day is what its trades made;
* `curves_agree`: the three views show the same days with the same totals.
-/

namespace SignalSync

namespace Journal

open Library Accounts

/-! ## The days -/

/-- `to_account_local_datetime`, as the clocks show it. -/
def toAccountLocalDatetime (valueUtc : Time) (zone : Zone) : Int := valueUtc + zone.offset valueUtc

/-- `daily_pnl`, in the order of its days. -/
def dailyPnl (trades : List Trade) (zone : Zone) : List (Date × ℚ) :=
  let byDay := Table.groups (fun t => toAccountLocalDate t.closedAt zone) 0 (fun total t => total + pnl t) trades
  byDay.entries.insertionSort fun a b => a.1 ≤ b.1

/-- The days with their totals, and with the running total after each. -/
def cumulate : ℚ → List (Date × ℚ) → List (Date × ℚ × ℚ)
  | _, [] => []
  | running, (day, pnl) :: days => (day, pnl, running + pnl) :: cumulate (running + pnl) days

structure AnalyticsEquityCurvePoint where
  date : Date
  cumulativePnl : ℚ
  dailyPnl : ℚ
deriving DecidableEq

/-- The points of `get_analytics_equity_curve`, of the trades of its period. -/
def equityCurveOf (trades : List Trade) (zone : Zone) : List AnalyticsEquityCurvePoint :=
  (cumulate 0 (dailyPnl trades zone)).map fun (date, dailyPnl, cumulativePnl) => { date, cumulativePnl, dailyPnl }

def getAnalyticsEquityCurve (account : JournalAccount) (rows : List Trade) (fromDate toDate : Option Date) :
    List AnalyticsEquityCurvePoint :=
  let window := resolveDateWindow fromDate toDate account.zone
  equityCurveOf (listTradeRowsForAnalytics rows window.1 window.2) account.zone

structure AnalyticsCurveDailyPoint where
  date : Date
  dailyPnl : Option ℚ
  cumulativePnl : ℚ
  isBaseline : Bool := false
deriving DecidableEq

/-- The days, after a baseline of zero the day before the first. -/
def buildDailyCurve (trades : List Trade) (zone : Zone) : List AnalyticsCurveDailyPoint :=
  let points := (cumulate 0 (dailyPnl trades zone)).map fun (date, dailyPnl, cumulativePnl) =>
    ({ date, dailyPnl := some dailyPnl, cumulativePnl } : AnalyticsCurveDailyPoint)
  match points with
  | [] => []
  | first :: _ => { date := first.date - 1, dailyPnl := none, cumulativePnl := 0, isBaseline := true } :: points

structure AnalyticsCurveIntradayPoint where
  i : Nat
  t : Int
  symbol : Option String := none
  cumulativePnl : ℚ
deriving DecidableEq

/-- What the pass over the trades of a day accumulates. -/
structure IntradayTotals where
  running : ℚ := 0
  gross : ℚ := 0
  commissions : ℚ := 0
  volume : ℚ := 0
  winCount : Nat := 0
  lossCount : Nat := 0
  grossWin : ℚ := 0
  grossLoss : ℚ := 0
  points : List AnalyticsCurveIntradayPoint := []

def IntradayTotals.add (zone : Zone) (s : IntradayTotals) (t : Trade) : IntradayTotals where
  running := s.running + pnl t
  gross := s.gross + t.profit.toRat
  commissions := s.commissions + t.commission.toRat
  volume := s.volume + t.volume.toRat
  winCount := if 0 < pnl t then s.winCount + 1 else s.winCount
  lossCount := if pnl t < 0 then s.lossCount + 1 else s.lossCount
  grossWin := if 0 < pnl t then s.grossWin + pnl t else s.grossWin
  grossLoss := if pnl t < 0 then s.grossLoss - pnl t else s.grossLoss
  points := s.points ++
    [{ i := s.points.length + 1, t := toAccountLocalDatetime t.closedAt zone, symbol := some t.symbol
       cumulativePnl := s.running + pnl t }]

structure AnalyticsCurveIntradayDay where
  date : Date
  netPnl : ℚ
  tradesCount : Nat
  grossPnl : ℚ
  winCount : Nat
  lossCount : Nat
  commissions : ℚ
  winRate : ℚ
  volume : ℚ
  profitFactor : Option ℚ
  points : List AnalyticsCurveIntradayPoint
deriving DecidableEq

/-- A baseline of zero one hour before the first trade, and not before the midnight of its day. -/
def baselinePoint (zone : Zone) (first : Trade) : AnalyticsCurveIntradayPoint :=
  let firstLocal := toAccountLocalDatetime first.closedAt zone
  { i := 0, t := max (firstLocal - seconds 3600) (firstLocal / aDay * aDay), cumulativePnl := 0 }

def intradayDay (zone : Zone) (date : Date) (dayTrades : List Trade) : AnalyticsCurveIntradayDay :=
  let totals := dayTrades.foldl (IntradayTotals.add zone) {}
  let tradesCount := dayTrades.length
  { date
    netPnl := totals.running
    tradesCount
    grossPnl := totals.gross
    winCount := totals.winCount
    lossCount := totals.lossCount
    commissions := totals.commissions
    winRate := if tradesCount = 0 then 0 else totals.winCount / tradesCount * 100
    volume := totals.volume
    profitFactor := if 0 < totals.grossLoss then some (totals.grossWin / totals.grossLoss) else none
    points := (dayTrades.head?.map (baselinePoint zone)).toList ++ totals.points }

def buildIntradayCurve (trades : List Trade) (zone : Zone) : List AnalyticsCurveIntradayDay :=
  let byDay := Table.groups (fun t => toAccountLocalDate t.closedAt zone) [] (fun dayTrades t => dayTrades ++ [t]) trades
  (byDay.entries.insertionSort fun a b => a.1 ≤ b.1).map fun (day, dayTrades) => intradayDay zone day dayTrades

/-! ## The days of a curve -/

section

variable {trades : List Trade} {zone : Zone} {days : List (Date × ℚ)} {running : ℚ}

/-- Every trade is in the total of one day, and a day has nothing else. -/
structure CountsOnce (trades : List Trade) (zone : Zone) (days : List (Date × ℚ)) : Prop where
  once : ∀ t ∈ trades, ∃! e, e ∈ days ∧ e.1 = toAccountLocalDate t.closedAt zone
  dates : ∀ e ∈ days, ∃ t ∈ trades, toAccountLocalDate t.closedAt zone = e.1
  totals : ∀ e ∈ days, e.2 = dayTotal (toAccountLocalDate · zone) trades e.1

theorem mem_dailyPnl {e : Date × ℚ} : e ∈ dailyPnl trades zone ↔
    e.1 ∈ trades.map (fun t => toAccountLocalDate t.closedAt zone) ∧ e.2 = dayTotal (toAccountLocalDate · zone) trades e.1 := by
  rw [dailyPnl, List.mem_insertionSort, Table.mem_groups, foldl_pnl, zero_add]
  rfl

theorem countsOnce_dailyPnl (trades : List Trade) (zone : Zone) : CountsOnce trades zone (dailyPnl trades zone) where
  once t ht := by
    let date := toAccountLocalDate t.closedAt zone
    refine ⟨(date, dayTotal (toAccountLocalDate · zone) trades date), ⟨mem_dailyPnl.2 ⟨?_, rfl⟩, rfl⟩, fun e ⟨he, hdate⟩ =>
      Prod.ext hdate ?_⟩
    · exact List.mem_map.mpr ⟨t, ht, rfl⟩
    · rw [(mem_dailyPnl.1 he).2, hdate]
  dates e he := List.mem_map.mp (mem_dailyPnl.1 he).1
  totals e he := (mem_dailyPnl.1 he).2

theorem sum_dailyPnl (trades : List Trade) (zone : Zone) : ((dailyPnl trades zone).map Prod.snd).sum = (trades.map pnl).sum := by
  have hsum : ((Table.groups (fun t : Trade => toAccountLocalDate t.closedAt zone) 0 (fun total t => total + pnl t) trades).entries.map
      fun e => id e.2).sum = (trades.map pnl).sum := Table.sum_groups rfl fun _ _ => rfl
  rw [dailyPnl, ((List.perm_insertionSort _ _).map Prod.snd).sum_eq]
  exact hsum

/-- Each day is shown, with its total. -/
theorem map_cumulate (running : ℚ) (days : List (Date × ℚ)) : (cumulate running days).map (fun e => (e.1, e.2.1)) = days := by
  induction days generalizing running with
  | nil => rfl
  | cons e days ih => rw [cumulate, List.map_cons, ih]

/-- The last running total is that of all days. -/
theorem getLast?_cumulate (running : ℚ) (days : List (Date × ℚ)) :
    (((cumulate running days).getLast?).map (·.2.2)).getD running = running + (days.map Prod.snd).sum := by
  induction days generalizing running with
  | nil => simp [cumulate]
  | cons e days ih =>
    have hrest := ih (running + e.2)
    rw [cumulate, List.getLast?_cons, Option.map_some, Option.getD_some, List.map_cons, List.sum_cons, ← add_assoc, ← hrest]
    cases (cumulate (running + e.2) days).getLast? <;> rfl

/-! ## The pass over a day -/

/-- What is accumulated of a day's trades: their results, and a point for each. -/
theorem IntradayTotals.foldl_add (zone : Zone) (dayTrades : List Trade) :
    (dayTrades.foldl (IntradayTotals.add zone) {}).running = (dayTrades.map pnl).sum ∧
      ((dayTrades.foldl (IntradayTotals.add zone) {}).points.getLast?.map (·.cumulativePnl)).getD 0 = (dayTrades.map pnl).sum ∧
      (dayTrades.foldl (IntradayTotals.add zone) {}).points.map (fun p => (p.t, p.symbol)) =
        dayTrades.map fun t => (toAccountLocalDatetime t.closedAt zone, some t.symbol) := by
  induction dayTrades using List.reverseRecOn with
  | nil => exact ⟨rfl, rfl, rfl⟩
  | append_singleton dayTrades t ih =>
    obtain ⟨hrunning, -, hpoints⟩ := ih
    rw [List.foldl_append, List.map_append, List.sum_append, List.map_append, ← hpoints, ← hrunning, List.map_singleton,
      List.sum_singleton]
    refine ⟨rfl, ?_, ?_⟩
    · simp only [List.foldl_cons, List.foldl_nil, IntradayTotals.add, List.getLast?_concat, Option.map_some, Option.getD_some]
    · simp only [List.foldl_cons, List.foldl_nil, IntradayTotals.add, List.map_append, List.map_singleton]

theorem netPnl_intradayDay (date : Date) (dayTrades : List Trade) :
    (intradayDay zone date dayTrades).netPnl = (dayTrades.map pnl).sum := (IntradayTotals.foldl_add zone dayTrades).1

/-- The trades that are collected under a day are those of the day, in their order. -/
theorem foldl_append_singleton (l start : List Trade) : l.foldl (fun dayTrades t => dayTrades ++ [t]) start = start ++ l := by
  induction l generalizing start with
  | nil => simp
  | cons t l ih => rw [List.foldl_cons, ih, List.append_assoc, List.singleton_append]

theorem mem_buildIntradayCurve {day : AnalyticsCurveIntradayDay} (h : day ∈ buildIntradayCurve trades zone) :
    ∃ dayTrades, day = intradayDay zone day.date dayTrades ∧ dayTrades ≠ [] ∧
      dayTrades = trades.filter fun t => toAccountLocalDate t.closedAt zone = day.date := by
  obtain ⟨⟨date, dayTrades⟩, hmem, rfl⟩ := List.mem_map.mp h
  obtain ⟨hdate, htrades⟩ := Table.mem_groups.mp ((List.mem_insertionSort _).mp hmem)
  rw [foldl_append_singleton, List.nil_append] at htrades
  refine ⟨dayTrades, rfl, fun hempty => ?_, htrades⟩
  obtain ⟨t, ht, htdate⟩ := List.mem_map.mp hdate
  have hin : t ∈ dayTrades := htrades ▸ List.mem_filter.mpr ⟨ht, by simpa using htdate⟩
  rw [hempty] at hin
  cases hin

/-- The days of the intraday curve are those of the other two. -/
theorem map_buildIntradayCurve (trades : List Trade) (zone : Zone) :
    (buildIntradayCurve trades zone).map (fun day => (day.date, day.netPnl)) = dailyPnl trades zone := by
  have hstep (dayTrades : List Trade) (t : Trade) : ((dayTrades ++ [t]).map pnl).sum = (dayTrades.map pnl).sum + pnl t := by
    rw [List.map_append, List.sum_append, List.map_singleton, List.sum_singleton]
  have hgroups : ((Table.groups (fun t : Trade => toAccountLocalDate t.closedAt zone) [] (fun dayTrades t => dayTrades ++ [t])
        trades).entries.map fun e => (e.1, (e.2.map pnl).sum)) =
      (Table.groups (fun t : Trade => toAccountLocalDate t.closedAt zone) 0 (fun total t => total + pnl t) trades).entries :=
    Table.map_entries_groups (f := fun dayTrades : List Trade => (dayTrades.map pnl).sum) rfl hstep trades
  rw [buildIntradayCurve, dailyPnl, ← hgroups, List.map_map, ← List.map_insertionSort (fun a b : Date × List Trade => a.1 ≤ b.1)]
  · refine List.map_congr_left fun e _ => ?_
    simp only [Function.comp_apply, netPnl_intradayDay]
    rfl
  · exact fun _ _ _ _ => Iff.rfl

/-! ## The three views -/

/-- The days of the daily curve that have a total: all but the baseline. -/
def tradingDays (points : List AnalyticsCurveDailyPoint) : List (Date × ℚ) :=
  points.filterMap fun p => p.dailyPnl.map fun dailyPnl => (p.date, dailyPnl)

theorem tradingDays_buildDailyCurve (trades : List Trade) (zone : Zone) :
    tradingDays (buildDailyCurve trades zone) = dailyPnl trades zone := by
  have hpoints : tradingDays ((cumulate 0 (dailyPnl trades zone)).map fun e =>
      { date := e.1, dailyPnl := some e.2.1, cumulativePnl := e.2.2 }) = dailyPnl trades zone := by
    rw [tradingDays, List.filterMap_map]
    exact (congrFun List.filterMap_eq_map' _).trans (map_cumulate 0 _)
  rw [buildDailyCurve]
  split
  · rename_i hempty
    rw [hempty] at hpoints
    exact hpoints
  · exact hpoints

theorem getLast?_buildDailyCurve (trades : List Trade) (zone : Zone) :
    (((buildDailyCurve trades zone).getLast?).map (·.cumulativePnl)).getD 0 = (trades.map pnl).sum := by
  have hlast := getLast?_cumulate 0 (dailyPnl trades zone)
  rw [zero_add, sum_dailyPnl] at hlast
  rw [buildDailyCurve, ← hlast]
  cases cumulate 0 (dailyPnl trades zone) with
  | nil => rfl
  | cons e days =>
    simp only [List.map_cons, List.getLast?_cons, List.getLast?_map, Option.map_some, Option.getD_some]
    cases days.getLast? <;> rfl

/-- **The three curves.** Whatever the trades and the timezone: each curve counts every trade in
one day, the last cumulative values of the daily and of the equity curve are what all trades made,
and the curves show the same days with the same totals; the trades of a day lead from zero to it. -/
theorem curves_agree (trades : List Trade) (zone : Zone) :
    CountsOnce trades zone (tradingDays (buildDailyCurve trades zone)) ∧
      CountsOnce trades zone ((buildIntradayCurve trades zone).map fun day => (day.date, day.netPnl)) ∧
      CountsOnce trades zone ((equityCurveOf trades zone).map fun p => (p.date, p.dailyPnl)) ∧
      (((buildDailyCurve trades zone).getLast?).map (·.cumulativePnl)).getD 0 = (trades.map pnl).sum ∧
      (((equityCurveOf trades zone).getLast?).map (·.cumulativePnl)).getD 0 = (trades.map pnl).sum ∧
      tradingDays (buildDailyCurve trades zone) = (buildIntradayCurve trades zone).map (fun day => (day.date, day.netPnl)) ∧
      ∀ day ∈ buildIntradayCurve trades zone,
        day.points.getLast?.map (·.cumulativePnl) = some day.netPnl ∧
          day.points.tail.map (fun p => (p.t, p.symbol)) =
            (trades.filter fun t => toAccountLocalDate t.closedAt zone = day.date).map fun t =>
              (toAccountLocalDatetime t.closedAt zone, some t.symbol) := by
  have hequity : (equityCurveOf trades zone).map (fun p => (p.date, p.dailyPnl)) = dailyPnl trades zone := by
    rw [equityCurveOf, List.map_map]
    exact map_cumulate 0 _
  rw [tradingDays_buildDailyCurve, map_buildIntradayCurve, hequity]
  have hcounts := countsOnce_dailyPnl trades zone
  refine ⟨hcounts, hcounts, hcounts, getLast?_buildDailyCurve trades zone, ?_, rfl, fun day hday => ?_⟩
  · have hlast := getLast?_cumulate 0 (dailyPnl trades zone)
    rw [zero_add, sum_dailyPnl] at hlast
    rw [equityCurveOf, List.getLast?_map, Option.map_map]
    exact hlast
  · obtain ⟨dayTrades, heq, hne, htrades⟩ := mem_buildIntradayCurve hday
    obtain ⟨hrunning, hlast, hpoints⟩ := IntradayTotals.foldl_add zone dayTrades
    obtain ⟨first, others, rfl⟩ := List.exists_cons_of_ne_nil hne
    rw [← htrades, heq, netPnl_intradayDay]
    simp only [intradayDay, List.head?_cons, Option.map_some, Option.toList_some, List.singleton_append, List.tail_cons]
    refine ⟨?_, hpoints⟩
    rw [List.getLast?_cons, Option.map_some, ← hlast]
    cases (List.foldl (IntradayTotals.add zone) {} (first :: others)).points.getLast? <;> rfl

end

end Journal

end SignalSync
