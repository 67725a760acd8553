import SignalSync.CsvImport.Service

/-!
# The balances over a run of imports

The balances of a report are written over what is stored, and over them its starting balance,
which is the current one where the report has no balance deal. `get?_after` says what is stored
after an import; `keptThroughout_iff`, over whole runs, where every balance that is known is kept.
-/

namespace SignalSync

namespace CsvImport

open Library Accounts Journal

/-- What is known of a date: the last balance that the report records, or else the one that is stored. -/
def known (result : ParseResult) (book : CsvAccount) (d : Date) : Option (Stored 2) :=
  match result.dailyBalances.get? d with
  | some balance => store 18 2 balance
  | none => (book.snapshots.get? d).map AccountSnapshot.balance

/-- An import: its moment, the timezone of the account by then, and the report. -/
structure Import where
  now : Time
  timezone : Zone
  file : Upload

section

variable [Unicode]

namespace CsvAccount

variable (book : CsvAccount) (i : Import)

/-- The account in its timezone by then. -/
def placed : CsvAccount := { book with timezone := i.timezone }

/-- If the import is confirmed, of every date but today the balance that is known is stored. -/
def BalancesKept : Prop :=
  ∀ result booked confirmed, parse i.file = some result → confirmImport i.now i.file (some (book.placed i)) = .ok (booked, confirmed) →
    ∀ d ≠ today i.timezone i.now, ∀ b, known result book d = some b → (booked.snapshots.get? d).map AccountSnapshot.balance = some b

/-- If the import is confirmed, its starting balance is dated today, or on a date of which nothing else is known. -/
def StartsFree : Prop :=
  ∀ result booked confirmed, parse i.file = some result → confirmImport i.now i.file (some (book.placed i)) = .ok (booked, confirmed) →
    ∀ start, startDate i.timezone (today i.timezone i.now) result.trades = some start → start ≠ today i.timezone i.now →
      ∀ starting, result.startingBalance = some starting → ∀ b, known result book start = some b → store 18 2 starting = some b

/-- After each import of a run. -/
def KeptThroughout : CsvAccount → List Import → Prop
  | _, [] => True
  | book, i :: imports => book.BalancesKept i ∧ KeptThroughout (afterImport i.now i.file (book.placed i)) imports

/-- Before each import of a run. -/
def FreeThroughout : CsvAccount → List Import → Prop
  | _, [] => True
  | book, i :: imports => book.StartsFree i ∧ FreeThroughout (afterImport i.now i.file (book.placed i)) imports

end CsvAccount

end

/-! ## One import -/

section

variable {now : Time} {result : ParseResult} {book booked : CsvAccount} {confirmed : CSVConfirmResult} {d : Date}

/-- What is stored of a date is the last balance that was written for it. -/
theorem get?_foldlM_upsert {writes : List (Date × DecimalValue)} {snapshots snapshots' : Table Date AccountSnapshot}
    (h : writes.foldlM upsertAccountSnapshotForDate snapshots = some snapshots') :
    snapshots'.get? d = (match Table.lastOf writes d with
      | some balance => snapshotOf balance
      | none => snapshots.get? d) := by
  obtain ⟨rows, hrows, rfl⟩ := foldlM_upsert_eq_some.1 h
  have hlast := congrArg (Table.lastOf · d) hrows
  simp only [Table.lastOf_map] at hlast
  rw [Table.get?_setAll]
  cases hw : Table.lastOf writes d with
  | none =>
    rw [hw, Option.map_none, eq_comm, Option.map_eq_none_iff] at hlast
    rw [hlast, Option.none_or]
  | some balance =>
    rw [hw, Option.map_some, eq_comm, Option.map_eq_some_iff] at hlast
    obtain ⟨row, hrow, hsome⟩ := hlast
    rw [hrow, Option.some_or]
    exact hsome

theorem balance_snapshotOf (balance : DecimalValue) : (snapshotOf balance).map AccountSnapshot.balance = store 18 2 balance := by
  rw [snapshotOf, Option.map_map]
  exact Option.map_id'

/-- The last write of a date other than today. -/
theorem lastOf_snapshotWrites {zone : Zone} {today : Date} {writes : List (Date × DecimalValue)}
    (h : snapshotWrites zone today result = some writes) (hd : d ≠ today) :
    Table.lastOf writes d = if startDate zone today result.trades = some d ∧ result.startingBalance.isSome then result.startingBalance
      else result.dailyBalances.get? d := by
  have hcurrent : Table.lastOf (result.currentBalance.map fun balance => (today, balance)).toList d = none := by
    cases result.currentBalance <;> simp [Table.lastOf_cons, hd]
  cases hstarting : result.startingBalance with
  | none =>
    simp only [snapshotWrites, hstarting, bind, Option.bind_some, Option.some_inj] at h
    rw [← h, Table.lastOf_append, hcurrent, List.append_nil, Table.lastOf_entries]
    simp
  | some starting =>
    simp only [snapshotWrites, hstarting, bind, Option.bind_eq_some_iff, Option.map_eq_some_iff, Option.some_inj] at h
    obtain ⟨_, ⟨start, hstart, rfl⟩, rfl⟩ := h
    rw [Table.lastOf_append, hcurrent, Table.lastOf_append, Table.lastOf_entries, Table.lastOf_cons, hstart]
    by_cases hsame : d = start
    · simp [hsame]
    · simp [hsame, Ne.symm hsame]

/-- After an import the starting balance is stored on the start date, and of another date than today what is known. -/
theorem get?_after (h : writeImport now result book = some (booked, confirmed)) (hd : d ≠ today book.timezone now) :
    (booked.snapshots.get? d).map AccountSnapshot.balance =
      if startDate book.timezone (today book.timezone now) result.trades = some d ∧ result.startingBalance.isSome then
        result.startingBalance.bind (store 18 2)
      else known result book d := by
  obtain ⟨_, writes, -, hwrites, hsnapshots, -⟩ := writeImport_eq_some h
  rw [get?_foldlM_upsert hsnapshots, lastOf_snapshotWrites hwrites hd]
  split_ifs with hstart
  · obtain ⟨starting, hstarting⟩ := Option.isSome_iff_exists.1 hstart.2
    rw [hstarting]
    exact balance_snapshotOf starting
  · rw [known]
    cases result.dailyBalances.get? d with
    | none => rfl
    | some balance => exact balance_snapshotOf balance

end

/-! ## A run -/

section

variable [Unicode]

theorem CsvAccount.balancesKept_iff (book : CsvAccount) (i : Import) : book.BalancesKept i ↔ book.StartsFree i := by
  unfold CsvAccount.BalancesKept CsvAccount.StartsFree
  refine forall_congr' fun result => forall_congr' fun booked => forall_congr' fun confirmed => forall_congr' fun hparse =>
    forall_congr' fun hconfirm => ?_
  obtain ⟨result', hparse', -, -, hwrite⟩ := confirmImport_eq_ok.1 hconfirm
  cases hparse.symm.trans hparse'
  constructor
  · intro hkept start hstart hne starting hstarting b hb
    have hafter := get?_after hwrite hne
    rw [hkept start hne b hb, hstarting, if_pos ⟨hstart, rfl⟩] at hafter
    exact hafter.symm
  · intro hfree d hne b hb
    rw [get?_after hwrite hne]
    split_ifs with hstart
    · obtain ⟨starting, hstarting⟩ := Option.isSome_iff_exists.1 hstart.2
      rw [hstarting]
      exact hfree d hstart.1 hne starting hstarting b hb
    · exact hb

/-- Every balance that is known is kept, after each import of a run, exactly where no starting balance is written over one. -/
theorem keptThroughout_iff (book : CsvAccount) (imports : List Import) : book.KeptThroughout imports ↔ book.FreeThroughout imports := by
  induction imports generalizing book with
  | nil => exact Iff.rfl
  | cons i imports ih => exact and_congr (book.balancesKept_iff i) (ih _)

end

/-- The report of an account from its first deposit on. -/
def fullImport : Import where
  now := seconds (738900 * 86400)
  timezone := utcClocks
  file := repeatedReport

/-- A report of the same position that begins after the deposit. -/
def subRangeImport : Import where
  now := seconds (738901 * 86400)
  timezone := utcClocks
  file :=
    { sourceTimezone := "Europe/Riga", tz := some utcClocks
      rows := .ok
        [rowOfTexts ["Positions"], rowOfTexts ["Time"],
          rowOfTexts ["2024.01.15 10:00:00", "17", "EURUSD", "buy", "0.10", "1.09", "", "", "2024.01.15 11:00:00", "1.10", "0", "0", "10"],
          rowOfTexts ["Summary"], rowOfTexts ["Balance:", "", "", "1010"]] }

/-- The balance of the day of the deposit is overwritten with the current one. -/
theorem keptThroughout_subRangeImport :
    let _ := Unicode.ascii
    ¬freshAccount.KeptThroughout [fullImport, subRangeImport] := by
  intro _
  rintro ⟨-, hkept, -⟩
  have hknown : (parse subRangeImport.file).map (fun result => known result
      (afterImport fullImport.now fullImport.file (freshAccount.placed fullImport)) 738898) = some (some (.number ⟨100000⟩)) := by
    decide +kernel
  have hafter : (confirmImport subRangeImport.now subRangeImport.file (some
      ((afterImport fullImport.now fullImport.file (freshAccount.placed fullImport)).placed subRangeImport))).toOption.map
        (fun confirmed => (confirmed.1.snapshots.get? 738898).map AccountSnapshot.balance) = some (some (.number ⟨101000⟩)) := by
    decide +kernel
  obtain ⟨result, hparse, hknown⟩ := Option.map_eq_some_iff.1 hknown
  obtain ⟨confirmed, hconfirm, hafter⟩ := Option.map_eq_some_iff.1 hafter
  have hok : ∀ outcome : Except ImportFailure (CsvAccount × CSVConfirmResult),
      outcome.toOption = some confirmed → outcome = .ok confirmed := by
    rintro (e | _) h <;> cases h
    rfl
  have hsame := hkept result confirmed.1 confirmed.2 hparse (hok _ hconfirm) 738898 (by decide) _ hknown
  rw [hafter] at hsame
  exact absurd hsame (by decide)

end CsvImport

end SignalSync
