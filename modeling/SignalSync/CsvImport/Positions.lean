import SignalSync.CsvImport.Report
import SignalSync.Library.Except

/-!
# The rows of positions

The loop of `_parse_positions` is one outcome for each row that it reads (`readPositions_eq_some`);
`rowsAccounted_iff` says where these are the rows of the section, and each trade one that a
journal can hold.
-/

namespace SignalSync

namespace CsvImport

open Library Accounts Journal

section

variable [Unicode]

/-! ## What is expected of it -/

namespace ParsedTrade

/-- A trade of a journal has a symbol, and its numbers are numbers. -/
def WellFormed (t : ParsedTrade) : Prop :=
  t.symbol ≠ "" ∧ ∀ v ∈ [t.volume, t.openPrice, t.closePrice, t.profit, t.commission, t.swap], v.isFinite

end ParsedTrade

/-- The section ends with a marker or with a blank row. -/
def endsSection (row : Row) : Bool :=
  row.all Option.isNone || row.head?.join.any fun first => positionsEnd.contains (Unicode.strip first.str)

/-- The rows of the section, up to its end. -/
def positionsSection (rows : List Row) (positionsIdx : Nat) : List Row :=
  (rows.drop (positionsIdx + 2)).takeWhile fun row => !endsSection row

/-- The columns of the position id, the symbol, the open and the close time. -/
def neededColumns : List Nat := [1, 2, 0, 8]

/-- The errors among the outcomes of rows that are numbered from `n` on. -/
def numberedErrors (n : Nat) (outcomes : List RowOutcome) : List ParseError :=
  (outcomes.zipIdx n).filterMap fun o => o.1.error?.map (rowError o.2)

/-- No row of the section is lost, and none mangled. -/
structure RowsAccounted (tz : Zone) (n : Nat) (rows : List Row) (read : PositionsRead) : Prop where
  /-- Each row has one outcome, and the outcomes are what is read, in the order of the rows. -/
  outcomes : ∃ outcomes, rows.map (rowOutcome tz) = outcomes.map some ∧
    read.trades = outcomes.filterMap RowOutcome.trade? ∧ read.errors = numberedErrors n outcomes
  skips : ∀ row ∈ rows, rowOutcome tz row = some .skip → ∃ i ∈ neededColumns, isTruthy (row.getD i none) = false
  trades : ∀ t ∈ read.trades, t.WellFormed

namespace Columns

variable (c : Columns) (tz : Zone)

/-- Every cell of the row is read. -/
def Converts : Prop :=
  (∀ val ∈ [c.volume, c.openPrice, c.closePrice], (cellDecimal val).isOk) ∧
    (∀ val ∈ [c.openTime, c.closeTime], (parseDate val tz).isOk) ∧
      (∀ val ∈ [c.profit, c.commission, c.swap], (cellDecimalOrZero val).isOk) ∧
        ∀ val ∈ [c.sl, c.tp], (parseOptionalDecimal val).isOk

/-- There is a symbol before the first dot, and no number is an infinity or none at all. -/
def Sound : Prop :=
  c.bareSymbol ≠ "" ∧ (∀ val ∈ [c.volume, c.openPrice, c.closePrice], ∃ q, cellDecimal val = .ok (.finite q)) ∧
    ∀ val ∈ [c.profit, c.commission, c.swap], ∃ q, cellDecimalOrZero val = .ok (.finite q)

/-- The volume and the prices are read, and then a time that is outside the years 1 to 9999 in UTC. -/
def Overflows : Prop :=
  (∀ val ∈ [c.volume, c.openPrice, c.closePrice], (cellDecimal val).isOk) ∧
    (parseDate c.openTime tz = .error .overflow ∨ ((parseDate c.openTime tz).isOk ∧ parseDate c.closeTime tz = .error .overflow))

end Columns

/-- The first cell of the row, its open time, is not empty. -/
def hasFirst (row : Row) : Bool := row.head?.join.isSome

/-- A row of all columns of which none of the four is missing. -/
def Complete (row : Row) (c : Columns) : Prop := unpack row = some c ∧ c.lacksField = false

/-- Where the rows are read as expected. -/
structure Readable (tz : Zone) (rows : List Row) : Prop where
  /-- After a row with an empty first cell come only rows that are passed over. -/
  gap : ∀ row ∈ rows.dropWhile hasFirst, ∃ c, unpack row = some c ∧ c.lacksField
  times : ∀ row ∈ rows.takeWhile hasFirst, ∀ c, Complete row c → ¬c.Overflows tz
  sound : ∀ row ∈ rows.takeWhile hasFirst, ∀ c, Complete row c → c.Converts tz → c.Sound

/-! ## A row -/

theorem cellDecimal_ne_overflow (val : Option Cell) : cellDecimal val ≠ .error .overflow := by
  unfold cellDecimal decimal
  split <;> simp

theorem cellDecimalOrZero_ne_overflow (val : Option Cell) : cellDecimalOrZero val ≠ .error .overflow := by
  unfold cellDecimalOrZero decimal
  split <;> simp

theorem parseOptionalDecimal_ne_overflow (val : Option Cell) : parseOptionalDecimal val ≠ .error .overflow := by
  unfold parseOptionalDecimal decimal
  cases val with
  | none => simp
  | some cell =>
    dsimp only
    split_ifs
    · simp
    · split <;> simp [Except.map]

namespace Columns

variable {c : Columns} {tz : Zone} {t : ParsedTrade}

theorem trade_eq_ok : c.trade tz = .ok t ↔
    cellDecimal c.volume = .ok t.volume ∧ cellDecimal c.openPrice = .ok t.openPrice ∧ cellDecimal c.closePrice = .ok t.closePrice ∧
      parseDate c.openTime tz = .ok t.openedAt ∧ parseDate c.closeTime tz = .ok t.closedAt ∧
        cellDecimalOrZero c.profit = .ok t.profit ∧ cellDecimalOrZero c.commission = .ok t.commission ∧
          cellDecimalOrZero c.swap = .ok t.swap ∧ parseOptionalDecimal c.sl = .ok t.sl ∧ parseOptionalDecimal c.tp = .ok t.tp ∧
            t.symbol = c.bareSymbol ∧ t.direction = c.direction ∧ t.brokerTradeId = Unicode.strip (cellText c.positionId) ∧
              t.positionId = some (Unicode.strip (cellText c.positionId)) := by
  obtain ⟨id, symbol, direction, volume, openPrice, closePrice, openedAt, closedAt, profit, commission, swap, sl, tp, positionId⟩ := t
  simp only [trade, bind_eq_ok, pure, Except.pure, Except.ok.injEq]
  constructor
  · rintro ⟨_, h₁, _, h₂, _, h₃, _, h₄, _, h₅, _, h₆, _, h₇, _, h₈, _, h₉, _, h₁₀, heq⟩
    cases heq
    exact ⟨h₁, h₂, h₃, h₄, h₅, h₆, h₇, h₈, h₉, h₁₀, rfl, rfl, rfl, rfl⟩
  · rintro ⟨h₁, h₂, h₃, h₄, h₅, h₆, h₇, h₈, h₉, h₁₀, rfl, rfl, rfl, rfl⟩
    exact ⟨_, h₁, _, h₂, _, h₃, _, h₄, _, h₅, _, h₆, _, h₇, _, h₈, _, h₉, _, h₁₀, rfl⟩

/-- A trade is made of the rows whose cells are all read. -/
theorem exists_trade_iff : (∃ t, c.trade tz = .ok t) ↔ c.Converts tz := by
  simp only [Converts, isOk_iff, List.forall_mem_cons, List.not_mem_nil, false_implies, implies_true, and_true]
  constructor
  · rintro ⟨t, ht⟩
    obtain ⟨h₁, h₂, h₃, h₄, h₅, h₆, h₇, h₈, h₉, h₁₀, -⟩ := trade_eq_ok.1 ht
    exact ⟨⟨⟨_, h₁⟩, ⟨_, h₂⟩, _, h₃⟩, ⟨⟨_, h₄⟩, _, h₅⟩, ⟨⟨_, h₆⟩, ⟨_, h₇⟩, _, h₈⟩, ⟨_, h₉⟩, _, h₁₀⟩
  · rintro ⟨⟨⟨volume, h₁⟩, ⟨openPrice, h₂⟩, closePrice, h₃⟩, ⟨⟨openedAt, h₄⟩, closedAt, h₅⟩, ⟨⟨profit, h₆⟩, ⟨commission, h₇⟩, swap, h₈⟩,
      ⟨sl, h₉⟩, tp, h₁₀⟩
    let positionId := Unicode.strip (cellText c.positionId)
    exact ⟨{ brokerTradeId := positionId, symbol := c.bareSymbol, direction := c.direction, volume, openPrice, closePrice, openedAt,
             closedAt, profit, commission, swap, sl, tp, positionId := some positionId },
      trade_eq_ok.2 ⟨h₁, h₂, h₃, h₄, h₅, h₆, h₇, h₈, h₉, h₁₀, rfl, rfl, rfl, rfl⟩⟩

omit [Unicode] in
theorem isFinite_iff {v : DecimalValue} : v.isFinite ↔ ∃ q, v = .finite q := by
  cases v <;> simp [DecimalValue.isFinite]

/-- The trade of a row is as good as the row. -/
theorem wellFormed_iff (h : c.trade tz = .ok t) : t.WellFormed ↔ c.Sound := by
  obtain ⟨h₁, h₂, h₃, -, -, h₆, h₇, h₈, -, -, hsymbol, -⟩ := trade_eq_ok.1 h
  simp only [ParsedTrade.WellFormed, Sound, hsymbol, List.forall_mem_cons, List.not_mem_nil, false_implies, implies_true, and_true,
    isFinite_iff, h₁, h₂, h₃, h₆, h₇, h₈, Except.ok.injEq, and_assoc]

/-- Only the times can be out of range. -/
theorem trade_eq_overflow : c.trade tz = .error .overflow ↔ c.Overflows tz := by
  simp only [trade, bind_eq_error, cellDecimal_ne_overflow, cellDecimalOrZero_ne_overflow, parseOptionalDecimal_ne_overflow, false_or,
    pure, Except.pure, reduceCtorEq, and_false, exists_false, or_false, Overflows, isOk_iff, List.forall_mem_cons, List.not_mem_nil,
    false_implies, implies_true, and_true]
  constructor
  · rintro ⟨volume, h₁, openPrice, h₂, closePrice, h₃, h⟩
    exact ⟨⟨⟨_, h₁⟩, ⟨_, h₂⟩, _, h₃⟩, h.imp_right fun ⟨_, h₄, h₅⟩ => ⟨⟨_, h₄⟩, h₅⟩⟩
  · rintro ⟨⟨⟨volume, h₁⟩, ⟨openPrice, h₂⟩, closePrice, h₃⟩, h⟩
    exact ⟨_, h₁, _, h₂, _, h₃, h.imp_right fun ⟨⟨_, h₄⟩, h₅⟩ => ⟨_, h₄, h₅⟩⟩

end Columns

section

variable {tz : Zone} {row : Row}

theorem rowOutcome_eq_skip : rowOutcome tz row = some .skip ↔ ∃ c, unpack row = some c ∧ c.lacksField := by
  unfold rowOutcome
  cases unpack row with
  | none => simp
  | some c =>
    dsimp only
    split_ifs with hlacks
    · simp [hlacks]
    · split <;> simp [hlacks]

theorem rowOutcome_eq_trade {t : ParsedTrade} : rowOutcome tz row = some (.trade t) ↔ ∃ c, Complete row c ∧ c.trade tz = .ok t := by
  unfold rowOutcome Complete
  cases unpack row with
  | none => simp
  | some c =>
    dsimp only
    split_ifs with hlacks
    · simp [hlacks]
    · split <;> simp_all

theorem rowOutcome_eq_none : rowOutcome tz row = none ↔ ∃ c, Complete row c ∧ c.Overflows tz := by
  unfold rowOutcome Complete
  cases unpack row with
  | none => simp
  | some c =>
    dsimp only
    split_ifs with hlacks
    · simp [hlacks]
    · split <;> simp_all [← Columns.trade_eq_overflow]

omit [Unicode] in
/-- Only a row without one of the four is passed over. -/
theorem exists_of_lacksField {c : Columns} (h : unpack row = some c) (hlacks : c.lacksField) :
    ∃ i ∈ neededColumns, isTruthy (row.getD i none) = false := by
  unfold unpack at h
  split at h
  · cases h
    simpa [Columns.lacksField, neededColumns, or_assoc] using hlacks
  · cases h

end

/-! ## The loop -/

omit [Unicode] in
theorem numberedErrors_cons (n : Nat) (outcome : RowOutcome) (outcomes : List RowOutcome) :
    numberedErrors n (outcome :: outcomes) = (outcome.error?.map (rowError n)).toList ++ numberedErrors (n + 1) outcomes := by
  rw [numberedErrors, List.zipIdx_cons, List.filterMap_cons]
  cases outcome.error? <;> simp [numberedErrors]

omit [Unicode] in
theorem numberedErrors_append (n : Nat) (outcomes outcomes' : List RowOutcome) :
    numberedErrors n (outcomes ++ outcomes') = numberedErrors n outcomes ++ numberedErrors (n + outcomes.length) outcomes' := by
  simp [numberedErrors, List.zipIdx_append]

/-- What is read once the rows, numbered from `n` on, had their outcomes. -/
def PositionsRead.recordAll (read : PositionsRead) (n : Nat) (rows : List Row) (outcomes : List RowOutcome) : PositionsRead where
  trades := read.trades ++ outcomes.filterMap RowOutcome.trade?
  errors := read.errors ++ numberedErrors n outcomes
  strippedSymbolSeen := read.strippedSymbolSeen || rows.any stripsSymbol

@[simp] theorem recordAll_nil (read : PositionsRead) (n : Nat) : read.recordAll n [] [] = read := by
  simp [PositionsRead.recordAll, numberedErrors]

theorem recordAll_cons (read : PositionsRead) (n : Nat) (row : Row) (rows : List Row) (outcome : RowOutcome) (outcomes : List RowOutcome) :
    read.recordAll n (row :: rows) (outcome :: outcomes) = (read.record n row outcome).recordAll (n + 1) rows outcomes := by
  have htrades : (outcome :: outcomes).filterMap RowOutcome.trade? = outcome.trade?.toList ++ outcomes.filterMap RowOutcome.trade? := by
    rw [List.filterMap_cons]
    cases outcome.trade? <;> rfl
  simp [PositionsRead.recordAll, PositionsRead.record, htrades, numberedErrors_cons, Bool.or_assoc]

/-- The loop is the outcomes of the rows before the first one that stops it. -/
theorem readPositions_eq_some {tz : Zone} {n : Nat} {rows : List Row} {read read' : PositionsRead} :
    readPositions tz n rows read = some read' ↔
      ∃ outcomes, (rows.takeWhile fun row => !stopsPositions row).map (rowOutcome tz) = outcomes.map some ∧
        read' = read.recordAll n (rows.takeWhile fun row => !stopsPositions row) outcomes := by
  induction rows generalizing n read with
  | nil => simp [readPositions, eq_comm (a := read)]
  | cons row rows ih =>
    rw [readPositions]
    split_ifs with h
    · simp [h, eq_comm (a := read)]
    · have htake : (row :: rows).takeWhile (fun row => !stopsPositions row) = row :: rows.takeWhile fun row => !stopsPositions row := by
        simp [h]
      simp only [htake, Option.bind_eq_some_iff, ih, List.map_cons]
      constructor
      · rintro ⟨outcome, houtcome, outcomes, houtcomes, rfl⟩
        exact ⟨outcome :: outcomes, by rw [houtcome, houtcomes, List.map_cons], (recordAll_cons ..).symm⟩
      · rintro ⟨outcomes, houtcomes, rfl⟩
        cases outcomes with
        | nil => cases houtcomes
        | cons outcome outcomes =>
          rw [List.map_cons, List.cons.injEq] at houtcomes
          exact ⟨outcome, houtcomes.1, outcomes, houtcomes.2, recordAll_cons ..⟩

/-! ## The section -/

/-- The rows that are read are those of the section before the first one with an empty first cell. -/
theorem takeWhile_positionsSection (rows : List Row) (positionsIdx : Nat) :
    (positionsSection rows positionsIdx).takeWhile hasFirst = (rows.drop (positionsIdx + 2)).takeWhile fun row => !stopsPositions row := by
  rw [positionsSection, List.takeWhile_takeWhile]
  congr 1
  funext row
  cases row with
  | nil => simp [hasFirst, stopsPositions]
  | cons first row => cases first <;> simp [hasFirst, stopsPositions, endsSection]

omit [Unicode] in
theorem exists_map_some {α β : Type} {f : α → Option β} {l : List α} (h : ∀ a ∈ l, f a ≠ none) : ∃ l' : List β, l.map f = l'.map some := by
  induction l with
  | nil => exact ⟨[], rfl⟩
  | cons a l ih =>
    obtain ⟨b, hb⟩ := Option.ne_none_iff_exists'.1 (h a (List.mem_cons_self ..))
    obtain ⟨l', hl'⟩ := ih fun a ha => h a (List.mem_cons_of_mem _ ha)
    exact ⟨b :: l', by rw [List.map_cons, List.map_cons, hb, hl']⟩

omit [Unicode] in
/-- Nothing is read of rows that are passed over, and only of those. -/
theorem forall_skip_iff {n : Nat} {outcomes : List RowOutcome} :
    outcomes.filterMap RowOutcome.trade? = [] ∧ numberedErrors n outcomes = [] ↔ ∀ outcome ∈ outcomes, outcome = .skip := by
  induction outcomes generalizing n with
  | nil => simp [numberedErrors]
  | cons outcome outcomes ih =>
    rw [numberedErrors_cons, List.filterMap_cons, List.forall_mem_cons, ← @ih (n + 1)]
    cases outcome <;> simp [RowOutcome.trade?, RowOutcome.error?]

section

variable {tz : Zone} {n : Nat} {rows : List Row} {outcomes : List RowOutcome}

/-- The rows that are read, and those that are not. -/
theorem map_rowOutcome (tz : Zone) (rows : List Row) :
    rows.map (rowOutcome tz) = (rows.takeWhile hasFirst).map (rowOutcome tz) ++ (rows.dropWhile hasFirst).map (rowOutcome tz) := by
  rw [← List.map_append, List.takeWhile_append_dropWhile]

/-- If every row has its outcome among what is read, the rows that are not read are passed over. -/
theorem RowsAccounted.readable (houtcomes : (rows.takeWhile hasFirst).map (rowOutcome tz) = outcomes.map some)
    (h : RowsAccounted tz n rows (PositionsRead.recordAll {} n (rows.takeWhile hasFirst) outcomes)) : Readable tz rows := by
  obtain ⟨⟨all, hall, htrades, herrors⟩, -, hformed⟩ := h
  obtain ⟨_, rest, rfl, hfirst, hrest⟩ := List.map_eq_append_iff.1 (hall.symm.trans (map_rowOutcome tz rows))
  cases (List.map_injective_iff.2 (Option.some_injective _)) (houtcomes.symm.trans hfirst.symm)
  have hskips : ∀ outcome ∈ rest, outcome = .skip := by
    refine (@forall_skip_iff (n + outcomes.length) rest).1 ⟨?_, ?_⟩
    · simpa [PositionsRead.recordAll] using htrades
    · simpa [PositionsRead.recordAll, numberedErrors_append] using herrors
  have hmem : ∀ row ∈ rows.takeWhile hasFirst, rowOutcome tz row ∈ outcomes.map some := fun row hrow => houtcomes ▸ List.mem_map_of_mem hrow
  refine ⟨fun row hrow => ?_, fun row hrow c hc hover => ?_, fun row hrow c hc hconverts => ?_⟩
  · obtain ⟨outcome, hmem, heq⟩ := List.mem_map.1 (hrest ▸ List.mem_map_of_mem hrow : rowOutcome tz row ∈ rest.map some)
    exact rowOutcome_eq_skip.1 (heq.symm.trans (congrArg some (hskips outcome hmem)))
  · obtain ⟨outcome, -, heq⟩ := List.mem_map.1 (hmem row hrow)
    exact absurd (rowOutcome_eq_none.2 ⟨c, hc, hover⟩) (heq ▸ Option.some_ne_none _)
  · obtain ⟨t, ht⟩ := Columns.exists_trade_iff.2 hconverts
    obtain ⟨outcome, hmem, heq⟩ := List.mem_map.1 (hmem row hrow)
    cases heq.trans (rowOutcome_eq_trade.2 ⟨c, hc, ht⟩)
    exact (Columns.wellFormed_iff ht).1 (hformed t (List.mem_append_right _ (List.mem_filterMap.2 ⟨_, hmem, rfl⟩)))

theorem Readable.exists_outcomes (h : Readable tz rows) :
    ∃ outcomes : List RowOutcome, (rows.takeWhile hasFirst).map (rowOutcome tz) = outcomes.map some := by
  refine exists_map_some fun row hrow hnone => ?_
  obtain ⟨c, hc, hover⟩ := rowOutcome_eq_none.1 hnone
  exact h.times row hrow c hc hover

/-- The rows that are not read being passed over, what is read is all there is. -/
theorem Readable.rowsAccounted (h : Readable tz rows) (houtcomes : (rows.takeWhile hasFirst).map (rowOutcome tz) = outcomes.map some) :
    RowsAccounted tz n rows (PositionsRead.recordAll {} n (rows.takeWhile hasFirst) outcomes) := by
  let rest := List.replicate (rows.dropWhile hasFirst).length RowOutcome.skip
  have hrest : (rows.dropWhile hasFirst).map (rowOutcome tz) = rest.map some := by
    rw [List.map_replicate, List.eq_replicate_iff]
    refine ⟨List.length_map .., fun outcome houtcome => ?_⟩
    obtain ⟨row, hrow, rfl⟩ := List.mem_map.1 houtcome
    exact rowOutcome_eq_skip.2 (h.gap row hrow)
  obtain ⟨htrades, herrors⟩ := forall_skip_iff.2 fun outcome (h : outcome ∈ rest) => List.eq_of_mem_replicate h
  refine ⟨⟨outcomes ++ rest, by rw [map_rowOutcome, houtcomes, hrest, ← List.map_append], ?_, ?_⟩, fun row _ hskip => ?_, fun t ht => ?_⟩
  · rw [List.filterMap_append, htrades]
    simp [PositionsRead.recordAll]
  · rw [numberedErrors_append, herrors]
    simp [PositionsRead.recordAll]
  · obtain ⟨c, hc, hlacks⟩ := rowOutcome_eq_skip.1 hskip
    exact exists_of_lacksField hc hlacks
  · have ht : t ∈ outcomes.filterMap RowOutcome.trade? := by simpa [PositionsRead.recordAll] using ht
    obtain ⟨outcome, hmem, heq⟩ := List.mem_filterMap.1 ht
    have hmem : some outcome ∈ (rows.takeWhile hasFirst).map (rowOutcome tz) := houtcomes ▸ List.mem_map_of_mem hmem
    obtain ⟨row, hrow, hrow'⟩ := List.mem_map.1 hmem
    cases outcome with
    | trade u =>
      cases heq
      obtain ⟨c, hc, ht⟩ := rowOutcome_eq_trade.1 hrow'
      exact (Columns.wellFormed_iff ht).2 (h.sound row hrow c hc (Columns.exists_trade_iff.1 ⟨_, ht⟩))
    | error e => cases heq
    | skip => cases heq

end

/-- No row of the section is lost or mangled exactly where it is `Readable`. -/
theorem rowsAccounted_iff (rows : List Row) (positionsIdx : Nat) (tz : Zone) :
    (∃ read, parsePositions rows positionsIdx tz = some read ∧
      RowsAccounted tz (positionsIdx + 3) (positionsSection rows positionsIdx) read) ↔
      Readable tz (positionsSection rows positionsIdx) := by
  simp only [parsePositions, readPositions_eq_some, ← takeWhile_positionsSection]
  constructor
  · rintro ⟨_, ⟨outcomes, houtcomes, rfl⟩, h⟩
    exact h.readable houtcomes
  · intro h
    obtain ⟨outcomes, houtcomes⟩ := h.exists_outcomes
    exact ⟨_, ⟨outcomes, houtcomes, rfl⟩, h.rowsAccounted houtcomes⟩

end

/-- A position whose volume is no number. -/
def nanReport : List Row :=
  [rowOfTexts ["Positions"], rowOfTexts ["Time"],
    rowOfTexts ["2024.01.15 10:00:00", "17", "EURUSD", "buy", "NaN", "1.09", "", "", "2024.01.15 11:00:00", "1.10", "0", "0", "10"]]

/-- `Decimal` reads the volume: the position becomes a trade of no volume at all. -/
theorem parsePositions_nanReport :
    let _ := Unicode.ascii
    ¬∃ read, parsePositions nanReport 0 utcClocks = some read ∧ RowsAccounted utcClocks 3 (positionsSection nanReport 0) read := by
  intro _
  rintro ⟨read, hread, h⟩
  have hvolumes : (parsePositions nanReport 0 utcClocks).map (fun read => read.trades.map (·.volume.isFinite)) = some [false] := by
    decide +kernel
  rw [hread, Option.map_some, Option.some_inj] at hvolumes
  obtain ⟨t, ht, hvolume⟩ := List.mem_map.1 (hvolumes ▸ List.mem_singleton_self false : false ∈ read.trades.map (·.volume.isFinite))
  exact absurd ((h.trades t ht).2 t.volume (by simp)) (by simp [hvolume])

end CsvImport

end SignalSync
