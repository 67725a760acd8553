import SignalSync.Journal.Analytics

/-!
# The dashboard of several accounts

Without an account, `get_analytics_dashboard` shows the trades of all accounts of the user
that are ready. Its window is of days in UTC, for all of them; the calendar files each trade
under the date in its own account's timezone.

* `inWindow_multiAccount`: the window is of days in UTC;
* `countsLocalDays_iff`: the dates of the accounts are counted exactly where no trade's date
  in UTC and in its account lie on different sides of the range.
-/

namespace SignalSync

namespace Journal

open Library Accounts

/-- What the dashboard reads of an account. -/
structure UserAccount where
  id : Uuid
  zone : Zone
  startingBalance : ℚ
  isDataReadyForStats : Bool := true
  /-- `connection_state == "ready"`. -/
  connectionReady : Bool := true

/-- A row of the trades, with its account. -/
abbrev AccountTrade := Uuid × Trade

def getReadyAccountsForUser (accounts : List UserAccount) : List UserAccount :=
  accounts.filter fun a => a.isDataReadyForStats && a.connectionReady

def resolveMultiAccountDateWindow (fromDate toDate : Option Date) : Option Int × Option Int :=
  (fromDate.map (· * aDay), toDate.map fun d => (d + 1) * aDay)

/-- `list_trade_rows_for_analytics`, of several accounts. -/
def listTradeRowsForAccounts (accountIds : List Uuid) (rows : List AccountTrade) (closedFromUtc closedToUtcExclusive : Option Int) :
    List AccountTrade :=
  (rows.filter fun e => decide (e.1 ∈ accountIds) && inWindow closedFromUtc closedToUtcExclusive e.2.closedAt).insertionSort
    fun e f => e.2.closedAt ≤ f.2.closedAt

/-- `ZoneInfo("UTC")`. -/
def utc : Zone := ⟨fun _ => 0, fun _ => 0⟩

/-- `tz_by_account.get(account_id, "UTC")`; the ids are those of the accounts' rows. -/
def tzByAccount (selectedAccounts : List UserAccount) (accountId : Uuid) : Zone :=
  ((selectedAccounts.find? (·.id = accountId)).map (·.zone)).getD utc

/-- The date a trade is filed under. -/
def accountLocalDay (selectedAccounts : List UserAccount) (e : AccountTrade) : Date :=
  toAccountLocalDate e.2.closedAt (tzByAccount selectedAccounts e.1)

/-- The trades the dashboard is about. -/
def multiAccountTrades (accounts : List UserAccount) (rows : List AccountTrade) (fromDate toDate : Option Date) :
    List AccountTrade :=
  let window := resolveMultiAccountDateWindow fromDate toDate
  listTradeRowsForAccounts ((getReadyAccountsForUser accounts).map (·.id)) rows window.1 window.2

/-- The dashboard without an account; the journal's activity is of one account only. -/
def getMultiAccountDashboard (accounts : List UserAccount) (rows : List AccountTrade) (fromDate toDate : Option Date) :
    AnalyticsDashboard :=
  let selectedAccounts := getReadyAccountsForUser accounts
  let trades := multiAccountTrades accounts rows fromDate toDate
  let calendarMap := Table.groups (accountLocalDay selectedAccounts) {} (fun row e => row.count e.2) trades
  { summary := computeSummary (trades.map Prod.snd) (selectedAccounts.map (·.startingBalance)).sum
    calendar := (calendarMap.entries.insertionSort fun a b => a.1 ≤ b.1).map fun (tradingDay, row) => calendarDay [] tradingDay row }

/-! ## The dates that are counted -/

/-- The date is in the range asked for. -/
def inRange (fromDate toDate : Option Date) (d : Date) : Bool := fromDate.all (· ≤ d) && toDate.all (d ≤ ·)

section

variable {accounts : List UserAccount} {rows : List AccountTrade} {fromDate toDate : Option Date}

theorem inWindow_multiAccount (fromDate toDate : Option Date) (t : Time) :
    inWindow (resolveMultiAccountDateWindow fromDate toDate).1 (resolveMultiAccountDateWindow fromDate toDate).2 t =
      inRange fromDate toDate (utcDate t) := by
  have hday (d : Int) : d * aDay ≤ (t : Int) ↔ d ≤ utcDate t := (Int.le_ediv_iff_mul_le (by decide)).symm
  have hfrom : (resolveMultiAccountDateWindow fromDate toDate).1.all (· ≤ (t : Int)) = fromDate.all (· ≤ utcDate t) := by
    cases fromDate with
    | none => rfl
    | some d => exact decide_eq_decide.mpr (hday d)
  have hto : (resolveMultiAccountDateWindow fromDate toDate).2.all ((t : Int) < ·) = toDate.all (utcDate t ≤ ·) := by
    cases toDate with
    | none => rfl
    | some d => exact decide_eq_decide.mpr (not_le.symm.trans ((hday (d + 1)).not.trans (by rw [Int.add_one_le_iff, not_lt])))
  rw [inWindow, hfrom, hto, inRange]

theorem mem_multiAccountTrades {e : AccountTrade} : e ∈ multiAccountTrades accounts rows fromDate toDate ↔
    e ∈ rows ∧ e.1 ∈ (getReadyAccountsForUser accounts).map (·.id) ∧ inRange fromDate toDate (utcDate e.2.closedAt) := by
  rw [multiAccountTrades, listTradeRowsForAccounts, List.mem_insertionSort, List.mem_filter, inWindow_multiAccount, Bool.and_eq_true,
    decide_eq_true_eq]

/-- The calendar shows the dates of the trades. -/
theorem mem_multiAccountCalendar {day : AnalyticsCalendarDay}
    (h : day ∈ (getMultiAccountDashboard accounts rows fromDate toDate).calendar) :
    ∃ e ∈ multiAccountTrades accounts rows fromDate toDate, accountLocalDay (getReadyAccountsForUser accounts) e = day.date := by
  obtain ⟨⟨date, row⟩, hmem, rfl⟩ := List.mem_map.mp h
  obtain ⟨e, he, hdate⟩ := List.mem_map.mp (Table.mem_groups.mp ((List.mem_insertionSort _).mp hmem)).1
  exact ⟨e, he, hdate⟩

/-- The dashboard counts the trades of the dates asked for, each in its account's timezone. -/
structure CountsLocalDays (accounts : List UserAccount) (rows : List AccountTrade) (fromDate toDate : Option Date) : Prop where
  counted : (multiAccountTrades accounts rows fromDate toDate).Perm (rows.filter fun e =>
    decide (e.1 ∈ (getReadyAccountsForUser accounts).map (·.id)) &&
      inRange fromDate toDate (accountLocalDay (getReadyAccountsForUser accounts) e))
  shown : ∀ day ∈ (getMultiAccountDashboard accounts rows fromDate toDate).calendar, inRange fromDate toDate day.date

/-- **The dashboard of several accounts** counts the accounts' dates exactly if no trade was closed
inside the range by UTC and outside of it by its account, or the other way about. -/
theorem countsLocalDays_iff (accounts : List UserAccount) (rows : List AccountTrade) (fromDate toDate : Option Date) :
    CountsLocalDays accounts rows fromDate toDate ↔
      ∀ e ∈ rows, e.1 ∈ (getReadyAccountsForUser accounts).map (·.id) →
        inRange fromDate toDate (utcDate e.2.closedAt) =
          inRange fromDate toDate (accountLocalDay (getReadyAccountsForUser accounts) e) := by
  constructor
  · intro h e he hid
    have hmem := h.counted.mem_iff (a := e)
    rw [mem_multiAccountTrades, List.mem_filter, Bool.and_eq_true, decide_eq_true_eq] at hmem
    simp only [he, hid, true_and] at hmem
    exact Bool.eq_iff_iff.mpr hmem
  · intro h
    have hcounted : (multiAccountTrades accounts rows fromDate toDate).Perm (rows.filter fun e =>
        decide (e.1 ∈ (getReadyAccountsForUser accounts).map (·.id)) &&
          inRange fromDate toDate (accountLocalDay (getReadyAccountsForUser accounts) e)) := by
      refine (List.perm_insertionSort _ _).trans (List.Perm.of_eq (List.filter_congr fun e he => ?_))
      rw [inWindow_multiAccount]
      by_cases hid : e.1 ∈ (getReadyAccountsForUser accounts).map (·.id)
      · rw [h e he hid]
      · rw [decide_eq_false hid, Bool.false_and, Bool.false_and]
    refine ⟨hcounted, fun day hday => ?_⟩
    obtain ⟨e, he, hdate⟩ := mem_multiAccountCalendar hday
    have hrange := (List.mem_filter.mp (hcounted.subset he)).2
    rw [Bool.and_eq_true] at hrange
    exact hdate ▸ hrange.2

end

/-- An account two hours ahead of UTC, and a trade that it closed half an hour before midnight UTC. -/
def aheadOfUtc : UserAccount where
  id := 1
  zone := aheadAccount.zone
  startingBalance := 0

/-- The calendar of the first day shows the second one. -/
theorem countsLocalDays_aheadOfUtc :
    ((getMultiAccountDashboard [aheadOfUtc] [(1, closedTrade (seconds 84600) 10000)] (some 0) (some 0)).calendar.map (·.date) = [1]) ∧
      ¬ ∀ accounts rows fromDate toDate, CountsLocalDays accounts rows fromDate toDate := by
  refine ⟨by decide +kernel, fun h => ?_⟩
  have hshown := (h [aheadOfUtc] [(1, closedTrade (seconds 84600) 10000)] (some 0) (some 0)).shown
  revert hshown
  decide +kernel

end Journal

end SignalSync
