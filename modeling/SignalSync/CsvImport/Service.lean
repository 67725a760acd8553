import SignalSync.CsvImport.Report

/-!
# The import of a report

`confirmImport` writes the trades of a report into an account, each unless its id is stored
already, and then balances, each over what is stored for its date: those the report records,
a starting balance on the day before the first trade was closed, and the current one today.

* `get?_insertTrades`: of each id the row that came first is stored;
* `reimport_harmless`: the same report, once more on the same day, changes nothing, and a
  report that shares trades with it adds only the others.
-/

namespace SignalSync

namespace CsvImport

open Library Accounts Journal

/-! ## Columns -/

/-- What a numeric column holds. -/
inductive Stored (s : Nat)
  | number (n : Numeric s)
  | nan
deriving DecidableEq

/-- A column of so many digits; the driver sends what is not finite as `NaN`. -/
def store (precision s : Nat) : DecimalValue → Option (Stored s)
  | .finite q => if (Numeric.ofRat s q).units.natAbs < 10 ^ precision then some (.number (.ofRat s q)) else none
  | .infinity _ | .nan _ => some .nan

namespace DecimalValue

/-- `a + b`; `none` where `InvalidOperation` is raised. -/
def add : DecimalValue → DecimalValue → Option DecimalValue
  | .nan true, _ | _, .nan true => none
  | .nan false, _ | _, .nan false => some (.nan false)
  | .infinity a, .infinity b => if a = b then some (.infinity a) else none
  | .infinity a, .finite _ | .finite _, .infinity a => some (.infinity a)
  | .finite p, .finite q => some (.finite (inContext 28 (p + q)))

end DecimalValue

/-- The columns of a trade that an import writes. -/
structure TradeRow where
  symbol : String
  direction : TradeDirection
  openPrice : Stored 5
  closePrice : Stored 5
  volume : Stored 2
  profit : Stored 2
  commission : Stored 2
  swap : Stored 2
  netProfit : Stored 2
  durationSeconds : Nat
  session : TradeSession
  openedAt : Time
  closedAt : Time
  sl : Option (Stored 5)
  tp : Option (Stored 5)
  positionId : Option String
deriving DecidableEq

def storeOptional (precision s : Nat) : Option DecimalValue → Option (Option (Stored s))
  | none => some none
  | some value => (store precision s value).map some

/-- The row of a trade; `none` where its net profit cannot be added up or a value does not fit its column. -/
def tradeRow (t : ParsedTrade) : Option TradeRow := do
  let netProfit ← (t.profit.add t.commission).bind (·.add t.swap)
  let durationSeconds := (t.closedAt - t.openedAt) / seconds 1
  let openPrice ← store 18 5 t.openPrice
  let closePrice ← store 18 5 t.closePrice
  let volume ← store 10 2 t.volume
  let profit ← store 14 2 t.profit
  let commission ← store 14 2 t.commission
  let swap ← store 14 2 t.swap
  let netProfit ← store 14 2 netProfit
  let sl ← storeOptional 18 5 t.sl
  let tp ← storeOptional 18 5 t.tp
  if t.brokerTradeId.length ≤ 64 ∧ t.symbol.length ≤ 255 ∧ t.positionId.all (·.length ≤ 64) ∧ durationSeconds < 2 ^ 31 then
    some { symbol := t.symbol, direction := t.direction, openPrice, closePrice, volume, profit, commission, swap, netProfit
           durationSeconds, session := classifySession t.openedAt, openedAt := t.openedAt, closedAt := t.closedAt, sl, tp
           positionId := t.positionId }
  else none

structure AccountSnapshot where
  balance : Stored 2
  equity : Stored 2
  floatingPnl : Stored 2
deriving DecidableEq

/-- The snapshot of a balance. -/
def snapshotOf (balance : DecimalValue) : Option AccountSnapshot :=
  (store 18 2 balance).map fun b => { balance := b, equity := b, floatingPnl := .number (.ofRat 2 0) }

/-- The account is active and synced. -/
def imported (account : TradingAccount) (now : Time) : TradingAccount :=
  { account with status := .synced, connectionState := .ready, isDataReadyForStats := true, lastSyncedAt := some now }

/-- An account with its trades, by the broker's ids, and its snapshots. -/
structure CsvAccount where
  account : TradingAccount
  timezone : Zone
  trades : Table String TradeRow := {}
  snapshots : Table Date AccountSnapshot := {}

/-! ## The import -/

/-- The last date there is. -/
def lastDate : Date := endOfTime / aDay - 1

/-- The date of a time on the account's clocks, if there is one. -/
def localDate (t : Time) (zone : Zone) : Option Date :=
  let d := toAccountLocalDate t zone
  if 0 ≤ d ∧ d ≤ lastDate then some d else none

/-- `date - timedelta(days=1)`. -/
def dayBefore (d : Date) : Option Date := if 0 < d then some (d - 1) else none

structure InsertedTrades where
  trades : Table String TradeRow
  inserted : Nat := 0
  skipped : Nat := 0
  touchedDates : List Date := []

/-- `upsert_closed_trade` and what is counted of it. -/
def insertTrade (zone : Zone) (acc : InsertedTrades) (t : ParsedTrade) : Option InsertedTrades :=
  (tradeRow t).bind fun row =>
    match acc.trades.push t.brokerTradeId row with
    | some trades =>
      (localDate t.closedAt zone).map fun d =>
        { acc with trades, inserted := acc.inserted + 1, touchedDates := acc.touchedDates.insert d }
    | none => some { acc with skipped := acc.skipped + 1 }

def insertTrades (zone : Zone) (trades : Table String TradeRow) (new : List ParsedTrade) : Option InsertedTrades :=
  new.foldlM (insertTrade zone) { trades }

/-- The day before the earliest trade was closed, or before today. -/
def startDate (zone : Zone) (today : Date) (trades : List ParsedTrade) : Option Date :=
  match (trades.map ParsedTrade.closedAt).min? with
  | some closedAt => (localDate closedAt zone).bind dayBefore
  | none => dayBefore today

/-- The balances that are written, in the order of the writes. -/
def snapshotWrites (zone : Zone) (today : Date) (result : ParseResult) : Option (List (Date × DecimalValue)) := do
  let starting ← match result.startingBalance with
    | none => some []
    | some balance => (startDate zone today result.trades).map fun d => [(d, balance)]
  some (result.dailyBalances.entries ++ starting ++ (result.currentBalance.map fun balance => (today, balance)).toList)

/-- `upsert_account_snapshot_for_date`. -/
def upsertAccountSnapshotForDate (snapshots : Table Date AccountSnapshot) (e : Date × DecimalValue) : Option (Table Date AccountSnapshot) :=
  (snapshotOf e.2).map fun row => snapshots.set (e.1, row)

structure CSVConfirmResult where
  inserted : Nat
  skipped : Nat
  touchedDates : Nat
deriving DecidableEq

/-- `datetime.now(zone).date()`. -/
def today (zone : Zone) (now : Time) : Date := toAccountLocalDate now zone

/-- The writes of an import; `none` where one of them fails, and then there are none. -/
def writeImport (now : Time) (result : ParseResult) (book : CsvAccount) : Option (CsvAccount × CSVConfirmResult) := do
  let new ← insertTrades book.timezone book.trades result.trades
  let writes ← snapshotWrites book.timezone (today book.timezone now) result
  let snapshots ← writes.foldlM upsertAccountSnapshotForDate book.snapshots
  some ({ book with account := imported book.account now, trades := new.trades, snapshots },
    { inserted := new.inserted, skipped := new.skipped, touchedDates := new.touchedDates.length })

inductive ImportFailure
  | parsing (e : ParseError)
  | notFound
  | notCsv
  | serverError
deriving DecidableEq

/-- The `detail` of the answer. -/
def ImportFailure.detail (str : CellError → String) : ImportFailure → String
  | .parsing e => s!"Cannot import file due to parsing errors: {e.message.text str}"
  | .notFound => "Trading account not found."
  | .notCsv => "This account was connected via API. You cannot import CSV files directly into it."
  | .serverError => "Internal Server Error"

section

variable [Unicode]

/-- `confirm_import`, into the account that is found or was created for it. -/
def confirmImport (now : Time) (file : Upload) (found : Option CsvAccount) : Except ImportFailure (CsvAccount × CSVConfirmResult) :=
  match parse file with
  | none => .error .serverError
  | some result =>
    match result.errors.find? fun e => e.severity = "error" with
    | some e => .error (.parsing e)
    | none =>
      match found with
      | none => .error .notFound
      | some book =>
        if book.account.importMethod ≠ .csv_upload then .error .notCsv
        else
          match writeImport now result book with
          | some confirmed => .ok confirmed
          | none => .error .serverError

/-- The account once an import is confirmed or has failed; of one that fails nothing is kept. -/
def afterImport (now : Time) (file : Upload) (book : CsvAccount) : CsvAccount :=
  match confirmImport now file (some book) with
  | .ok (confirmed, _) => confirmed
  | .error _ => book

end

/-! ## Trades -/

/-- The row of the first trade with the id. -/
def reported (trades : List ParsedTrade) (id : String) : Option TradeRow := (trades.find? fun t => t.brokerTradeId = id).bind tradeRow

theorem reported_cons (t : ParsedTrade) (trades : List ParsedTrade) (id : String) :
    reported (t :: trades) id = if id = t.brokerTradeId then tradeRow t else reported trades id := by
  rw [reported, List.find?_cons]
  by_cases h : id = t.brokerTradeId
  · simp [h]
  · simp [h, Ne.symm h, reported]

section

variable {zone : Zone} {acc acc' : InsertedTrades} {t : ParsedTrade} {trades : List ParsedTrade} {id : String}

/-- A trade has a row, and this is stored unless there is one of its id. -/
theorem insertTrade_eq_some (h : insertTrade zone acc t = some acc') :
    ∃ row, tradeRow t = some row ∧ acc'.trades = acc.trades.add t.brokerTradeId row ∧
      acc'.inserted + acc'.skipped = acc.inserted + acc.skipped + 1 := by
  obtain ⟨row, hrow, h⟩ := Option.bind_eq_some_iff.1 h
  refine ⟨row, hrow, ?_⟩
  split at h
  · rename_i stored hpush
    obtain ⟨d, -, rfl⟩ := Option.map_eq_some_iff.1 h
    refine ⟨by rw [Table.add, hpush, Option.getD_some], ?_⟩
    dsimp only
    omega
  · rename_i hpush
    cases h
    refine ⟨by rw [Table.add, hpush, Option.getD_none], ?_⟩
    dsimp only
    omega

/-- Of each id the row that came first is stored. -/
theorem get?_insertTrades (h : trades.foldlM (insertTrade zone) acc = some acc') :
    acc'.trades.get? id = (acc.trades.get? id).or (reported trades id) := by
  induction trades generalizing acc with
  | nil =>
    cases h
    rw [reported, List.find?_nil, Option.bind_none, Option.or_none]
  | cons t trades ih =>
    rw [List.foldlM_cons] at h
    obtain ⟨mid, hmid, h⟩ := Option.bind_eq_some_iff.1 h
    obtain ⟨row, hrow, htrades, -⟩ := insertTrade_eq_some hmid
    rw [ih h, htrades, Table.get?_add, reported_cons, hrow, Option.or_assoc]
    split <;> simp

/-- Every trade has a row. -/
theorem tradeRow_isSome (h : trades.foldlM (insertTrade zone) acc = some acc') : ∀ t ∈ trades, (tradeRow t).isSome := by
  induction trades generalizing acc with
  | nil => simp
  | cons t trades ih =>
    rw [List.foldlM_cons] at h
    obtain ⟨mid, hmid, h⟩ := Option.bind_eq_some_iff.1 h
    obtain ⟨row, hrow, -⟩ := insertTrade_eq_some hmid
    exact List.forall_mem_cons.2 ⟨hrow ▸ rfl, ih h⟩

theorem reported_isSome (h : ∀ t ∈ trades, (tradeRow t).isSome) (ht : t ∈ trades) : (reported trades t.brokerTradeId).isSome := by
  obtain ⟨u, hu⟩ : ∃ u, (trades.find? fun u => u.brokerTradeId = t.brokerTradeId) = some u :=
    Option.isSome_iff_exists.1 (List.find?_isSome.2 ⟨t, ht, by simp⟩)
  rw [reported, hu]
  exact h u (List.mem_of_find?_eq_some hu)

/-- Trades whose ids are stored are skipped. -/
theorem insertTrades_stored (h : ∀ t ∈ trades, (tradeRow t).isSome ∧ (acc.trades.get? t.brokerTradeId).isSome) :
    trades.foldlM (insertTrade zone) acc = some { acc with skipped := acc.skipped + trades.length } := by
  induction trades generalizing acc with
  | nil => rfl
  | cons t trades ih =>
    obtain ⟨⟨hrow, hstored⟩, h⟩ := List.forall_mem_cons.1 h
    obtain ⟨row, hrow⟩ := Option.isSome_iff_exists.1 hrow
    have hpush : acc.trades.push t.brokerTradeId row = none := Table.push_eq_none.2 (Option.isSome_iff_exists.1 hstored)
    have hskip : insertTrade zone acc t = some { acc with skipped := acc.skipped + 1 } := by
      rw [insertTrade, hrow, Option.bind_some, hpush]
    rw [List.foldlM_cons, hskip, Option.bind_eq_bind, Option.bind_some]
    refine (@ih { acc with skipped := acc.skipped + 1 } h).trans ?_
    rw [List.length_cons, Nat.add_assoc, Nat.add_comm 1]

end

/-! ## Balances -/

/-- The rows of the balances are written over what is stored. -/
theorem foldlM_upsert_eq_some {writes : List (Date × DecimalValue)} {snapshots snapshots' : Table Date AccountSnapshot} :
    writes.foldlM upsertAccountSnapshotForDate snapshots = some snapshots' ↔
      ∃ rows, writes.map (Prod.map id snapshotOf) = rows.map (Prod.map id some) ∧ snapshots' = snapshots.setAll rows := by
  induction writes generalizing snapshots with
  | nil => simp [Table.setAll, eq_comm (a := snapshots)]
  | cons e writes ih =>
    rw [List.foldlM_cons, Option.bind_eq_bind, Option.bind_eq_some_iff]
    constructor
    · rintro ⟨mid, hmid, h⟩
      obtain ⟨row, hrow, rfl⟩ := Option.map_eq_some_iff.1 hmid
      obtain ⟨rows, hrows, rfl⟩ := ih.1 h
      exact ⟨(e.1, row) :: rows, by rw [List.map_cons, List.map_cons, hrows, Prod.map, hrow]; rfl, rfl⟩
    · rintro ⟨rows, hrows, rfl⟩
      cases rows with
      | nil => cases hrows
      | cons row rows =>
        rw [List.map_cons, List.map_cons, List.cons.injEq, Prod.ext_iff] at hrows
        obtain ⟨⟨hdate, hrow⟩, hrows⟩ := hrows
        refine ⟨snapshots.set row, Option.map_eq_some_iff.2 ⟨row.2, hrow, ?_⟩, ih.2 ⟨rows, hrows, rfl⟩⟩
        exact congrArg snapshots.set (Prod.ext hdate rfl)

/-- The same balances, written once more. -/
theorem foldlM_upsert_again {writes : List (Date × DecimalValue)} {snapshots snapshots' : Table Date AccountSnapshot}
    (h : writes.foldlM upsertAccountSnapshotForDate snapshots = some snapshots') :
    writes.foldlM upsertAccountSnapshotForDate snapshots' = some snapshots' := by
  obtain ⟨rows, hrows, rfl⟩ := foldlM_upsert_eq_some.1 h
  exact foldlM_upsert_eq_some.2 ⟨rows, hrows, Table.setAll_setAll.symm⟩

/-! ## The same report again -/

section

variable {now now' : Time} {result : ParseResult} {book booked : CsvAccount} {confirmed : CSVConfirmResult}

/-- What an import comes to. -/
theorem writeImport_eq_some (h : writeImport now result book = some (booked, confirmed)) :
    ∃ new writes, insertTrades book.timezone book.trades result.trades = some new ∧
      snapshotWrites book.timezone (today book.timezone now) result = some writes ∧
        writes.foldlM upsertAccountSnapshotForDate book.snapshots = some booked.snapshots ∧ booked.trades = new.trades ∧
          booked.timezone = book.timezone ∧ booked.account.importMethod = book.account.importMethod := by
  simp only [writeImport, bind, Option.bind_eq_some_iff, Option.some_inj, Prod.mk.injEq] at h
  obtain ⟨new, hnew, writes, hwrites, snapshots, hsnapshots, rfl, rfl⟩ := h
  exact ⟨new, writes, hnew, hwrites, hsnapshots, rfl, rfl, rfl⟩

/-- Once a report is imported, its trades are skipped on the same day and its balances are those stored. -/
theorem writeImport_again (h : writeImport now result book = some (booked, confirmed))
    (hday : today book.timezone now' = today book.timezone now) :
    ∃ booked', writeImport now' result booked = some (booked', { inserted := 0, skipped := result.trades.length, touchedDates := 0 }) ∧
      booked'.trades = booked.trades ∧ booked'.snapshots = booked.snapshots := by
  obtain ⟨new, writes, hnew, hwrites, hsnapshots, htrades, hzone, -⟩ := writeImport_eq_some h
  have hrows := tradeRow_isSome hnew
  have hstored : ∀ t ∈ result.trades, (tradeRow t).isSome ∧ (booked.trades.get? t.brokerTradeId).isSome := by
    intro t ht
    rw [htrades, get?_insertTrades hnew, Option.isSome_or, reported_isSome hrows ht, Bool.or_true]
    exact ⟨hrows t ht, rfl⟩
  have hskipped : insertTrades booked.timezone booked.trades result.trades =
      some { trades := booked.trades, skipped := 0 + result.trades.length } := insertTrades_stored hstored
  refine ⟨{ booked with account := imported booked.account now' }, ?_, rfl, rfl⟩
  rw [writeImport, hskipped, hzone, hday, hwrites]
  simp only [bind, Option.bind_some, foldlM_upsert_again hsnapshots, Nat.zero_add, List.length_nil]

/-- Whether an import fails depends on the day only. -/
theorem writeImport_isSome (hday : today book.timezone now' = today book.timezone now) :
    (writeImport now' result book).isSome = (writeImport now result book).isSome := by
  simp only [writeImport, hday, bind]
  cases insertTrades book.timezone book.trades result.trades with
  | none => rfl
  | some new =>
    rw [Option.bind_some, Option.bind_some]
    cases snapshotWrites book.timezone (today book.timezone now) result with
    | none => rfl
    | some writes =>
      rw [Option.bind_some, Option.bind_some]
      cases writes.foldlM upsertAccountSnapshotForDate book.snapshots <;> rfl

/-- Of each id the row that was stored before, or else that of the first trade with it. -/
theorem get?_writeImport (h : writeImport now result book = some (booked, confirmed)) (id : String) :
    booked.trades.get? id = (book.trades.get? id).or (reported result.trades id) := by
  obtain ⟨new, _, hnew, -, -, htrades, -⟩ := writeImport_eq_some h
  rw [htrades, get?_insertTrades hnew]

theorem reported_of_writeImport (h : writeImport now result book = some (booked, confirmed)) {t : ParsedTrade} (ht : t ∈ result.trades) :
    (reported result.trades t.brokerTradeId).isSome := by
  obtain ⟨new, _, hnew, -⟩ := writeImport_eq_some h
  exact reported_isSome (tradeRow_isSome hnew) ht

variable [Unicode] {file file' : Upload}

theorem confirmImport_eq_ok : confirmImport now file (some book) = .ok (booked, confirmed) ↔
    ∃ result, parse file = some result ∧ (result.errors.find? fun e => e.severity = "error") = none ∧
      book.account.importMethod = .csv_upload ∧ writeImport now result book = some (booked, confirmed) := by
  unfold confirmImport
  cases parse file with
  | none => simp
  | some result =>
    cases hfind : result.errors.find? fun e => e.severity = "error" with
    | some e => simp [hfind, -List.find?_eq_none]
    | none =>
      by_cases hmethod : book.account.importMethod = .csv_upload
      · cases hwrite : writeImport now result book <;> simp [hfind, hmethod, hwrite, -List.find?_eq_none]
      · simp [hfind, hmethod]

theorem afterImport_of_ok (h : confirmImport now file (some book) = .ok (booked, confirmed)) : afterImport now file book = booked := by
  rw [afterImport, h]

theorem afterImport_eq (now : Time) (file : Upload) (book : CsvAccount) :
    (∃ confirmed, confirmImport now file (some book) = .ok (afterImport now file book, confirmed)) ∨
      (∀ confirmed, confirmImport now file (some book) ≠ .ok confirmed) ∧ afterImport now file book = book := by
  unfold afterImport
  cases confirmImport now file (some book) with
  | ok confirmed => exact .inl ⟨confirmed.2, rfl⟩
  | error e => exact .inr ⟨fun _ h => (by cases h), rfl⟩

theorem confirmImport_again (h : confirmImport now file (some book) = .ok (booked, confirmed))
    (hday : today book.timezone now' = today book.timezone now) :
    ∃ result booked', parse file = some result ∧
      confirmImport now' file (some booked) = .ok (booked', { inserted := 0, skipped := result.trades.length, touchedDates := 0 }) ∧
        booked'.trades = booked.trades ∧ booked'.snapshots = booked.snapshots := by
  obtain ⟨result, hparse, herrors, hmethod, hwrite⟩ := confirmImport_eq_ok.1 h
  obtain ⟨-, -, -, -, -, -, -, hmethod'⟩ := writeImport_eq_some hwrite
  obtain ⟨booked', hagain, htrades, hsnapshots⟩ := writeImport_again hwrite hday
  exact ⟨result, booked', hparse, confirmImport_eq_ok.2 ⟨result, hparse, herrors, hmethod'.trans hmethod, hagain⟩, htrades, hsnapshots⟩

/-- A report that failed fails again on the same day. -/
theorem afterImport_of_failed (h : ∀ confirmed, confirmImport now file (some book) ≠ .ok confirmed)
    (hday : today book.timezone now' = today book.timezone now) : afterImport now' file book = book := by
  rcases afterImport_eq now' file book with ⟨confirmed, hok⟩ | ⟨-, hsame⟩
  · obtain ⟨result, hparse, herrors, hmethod, hwrite⟩ := confirmImport_eq_ok.1 hok
    have hsome : (writeImport now result book).isSome := by rw [← writeImport_isSome hday, hwrite]; rfl
    obtain ⟨booked, hbooked⟩ := Option.isSome_iff_exists.1 hsome
    exact absurd (confirmImport_eq_ok.2 ⟨result, hparse, herrors, hmethod, hbooked⟩) (h booked)
  · exact hsame

/-- Importing a report once more on the same day changes nothing, and of the trades that two reports share the rows of the
first are stored, each once. -/
theorem reimport_harmless (file file' : Upload) (book : CsvAccount) (now now' later : Time)
    (hday : today book.timezone now' = today book.timezone now) :
    ((afterImport now' file (afterImport now file book)).trades = (afterImport now file book).trades ∧
      (afterImport now' file (afterImport now file book)).snapshots = (afterImport now file book).snapshots) ∧
    (∀ booked confirmed, confirmImport now file (some book) = .ok (booked, confirmed) →
      ∃ result booked', parse file = some result ∧
        confirmImport now' file (some booked) = .ok (booked', { inserted := 0, skipped := result.trades.length, touchedDates := 0 })) ∧
    ∀ booked confirmed booked' confirmed', confirmImport now file (some book) = .ok (booked, confirmed) →
      confirmImport later file' (some booked) = .ok (booked', confirmed') →
        ∃ result result', parse file = some result ∧ parse file' = some result' ∧
          (∀ id, booked'.trades.get? id = ((book.trades.get? id).or (reported result.trades id)).or (reported result'.trades id)) ∧
            ∀ t ∈ result.trades ++ result'.trades, (booked'.trades.select fun id _ => id = t.brokerTradeId).length = 1 := by
  refine ⟨?_, fun booked confirmed h => ?_, fun booked confirmed booked' confirmed' h h' => ?_⟩
  · rcases afterImport_eq now file book with ⟨confirmed, hok⟩ | ⟨hfailed, hsame⟩
    · obtain ⟨result, booked', -, hagain, htrades, hsnapshots⟩ := confirmImport_again hok hday
      rw [afterImport_of_ok hagain]
      exact ⟨htrades, hsnapshots⟩
    · rw [hsame, afterImport_of_failed hfailed hday]
      exact ⟨rfl, rfl⟩
  · obtain ⟨result, booked', hparse, hagain, -⟩ := confirmImport_again h hday
    exact ⟨result, booked', hparse, hagain⟩
  · obtain ⟨result, hparse, -, -, hwrite⟩ := confirmImport_eq_ok.1 h
    obtain ⟨result', hparse', -, -, hwrite'⟩ := confirmImport_eq_ok.1 h'
    have hstored : ∀ id, booked'.trades.get? id = ((book.trades.get? id).or (reported result.trades id)).or (reported result'.trades id) :=
      fun id => by rw [get?_writeImport hwrite', get?_writeImport hwrite]
    refine ⟨result, result', hparse, hparse', hstored, fun t ht => Table.length_select_key ?_⟩
    rw [hstored, Option.isSome_or, Option.isSome_or]
    rcases List.mem_append.1 ht with ht | ht
    · rw [reported_of_writeImport hwrite ht, Bool.or_true, Bool.true_or]
    · rw [reported_of_writeImport hwrite' ht, Bool.or_true]

end

/-- A CSV account without trades. -/
def freshAccount : CsvAccount where
  account := { userId := 1, importMethod := .csv_upload }
  timezone := utcClocks

/-- A report that has the position 17 twice. -/
def repeatedReport : Upload where
  sourceTimezone := "Europe/Riga"
  tz := some utcClocks
  rows := .ok
    [rowOfTexts ["Positions"], rowOfTexts ["Time"],
      rowOfTexts ["2024.01.15 10:00:00", "17", "EURUSD", "buy", "0.10", "1.09", "", "", "2024.01.15 11:00:00", "1.10", "0", "0", "10"],
      rowOfTexts ["2024.01.15 10:00:00", "17", "EURUSD", "buy", "0.10", "1.09", "", "", "2024.01.15 12:00:00", "1.11", "0", "0", "20"],
      rowOfTexts ["Deals"], rowOfTexts ["Time"],
      rowOfTexts ["2024.01.14 09:00:00", "1", "", "balance", "", "", "", "", "", "", "", "1000", "1000"],
      rowOfTexts ["Balance:", "", "", "1010"]]

theorem reimport_harmless_repeatedReport :
    let _ := Unicode.ascii
    let booked := afterImport 0 repeatedReport freshAccount
    (confirmImport 0 repeatedReport (some freshAccount)).isOk ∧ (afterImport 0 repeatedReport booked).trades = booked.trades ∧
      (afterImport 0 repeatedReport booked).snapshots = booked.snapshots := by
  intro _
  exact ⟨by decide +kernel, (reimport_harmless repeatedReport repeatedReport freshAccount 0 0 0 rfl).1⟩

end CsvImport

end SignalSync
