import SignalSync.CsvImport.Cells
import SignalSync.Execution.Action
import SignalSync.Library.Overwrite

/-!
# The parser of MetaTrader's reports

A report is a sheet of rows. The rows of its section of positions, from the second one after
the title on, are read one by one: each becomes a trade, is reported, or is passed over; the
rows of the section of deals tell the balance of each day.
-/

namespace SignalSync

namespace CsvImport

open Library Accounts Journal

section

variable [Unicode]

/-! ## The section of positions -/

/-- What is made of a row of the section: a normalized trade. -/
structure ParsedTrade where
  brokerTradeId : String
  symbol : String
  direction : TradeDirection
  volume : DecimalValue
  openPrice : DecimalValue
  closePrice : DecimalValue
  openedAt : Time
  closedAt : Time
  profit : DecimalValue
  commission : DecimalValue
  swap : DecimalValue
  sl : Option DecimalValue := none
  tp : Option DecimalValue := none
  positionId : Option String := none
deriving DecidableEq

/-- The cells of a row, in the order of the columns. -/
structure Columns where
  openTime : Option Cell
  positionId : Option Cell
  symbol : Option Cell
  type : Option Cell
  volume : Option Cell
  openPrice : Option Cell
  sl : Option Cell
  tp : Option Cell
  closeTime : Option Cell
  closePrice : Option Cell
  commission : Option Cell
  swap : Option Cell
  profit : Option Cell

/-- The cells of `row[:13]`. -/
def unpack : Row → Option Columns
  | openTime :: positionId :: symbol :: type :: volume :: openPrice :: sl :: tp :: closeTime :: closePrice :: commission ::
      swap :: profit :: _ =>
    some { openTime, positionId, symbol, type, volume, openPrice, sl, tp, closeTime, closePrice, commission, swap, profit }
  | _ => none

namespace Columns

variable (c : Columns) (tz : Zone)

/-- The row is passed over. -/
def lacksField : Bool := !isTruthy c.positionId || !isTruthy c.symbol || !isTruthy c.openTime || !isTruthy c.closeTime

def fullSymbol : String := Unicode.strip (cellText c.symbol)

/-- The symbol without its suffix. -/
def bareSymbol : String := .ofList (c.fullSymbol.toList.takeWhile (· ≠ '.'))

def direction : TradeDirection :=
  if containsWord (Unicode.lower (Unicode.strip (cellText c.type))) "sell" then .sell else .buy

def trade : Except RowStop ParsedTrade := do
  let volume ← cellDecimal c.volume
  let openPrice ← cellDecimal c.openPrice
  let closePrice ← cellDecimal c.closePrice
  let openedAt ← parseDate c.openTime tz
  let closedAt ← parseDate c.closeTime tz
  let profit ← cellDecimalOrZero c.profit
  let commission ← cellDecimalOrZero c.commission
  let swap ← cellDecimalOrZero c.swap
  let sl ← parseOptionalDecimal c.sl
  let tp ← parseOptionalDecimal c.tp
  let positionId := Unicode.strip (cellText c.positionId)
  return { brokerTradeId := positionId, symbol := c.bareSymbol, direction := c.direction, volume, openPrice, closePrice, openedAt
           closedAt, profit, commission, swap, sl, tp, positionId := some positionId }

end Columns

/-- What becomes of a row. -/
inductive RowOutcome
  | trade (t : ParsedTrade)
  | error (e : CellError)
  | skip
deriving DecidableEq

namespace RowOutcome

def trade? : RowOutcome → Option ParsedTrade
  | .trade t => some t
  | _ => none

def error? : RowOutcome → Option CellError
  | .error e => some e
  | _ => none

end RowOutcome

/-- One row of the section; `none` where an `OverflowError` is raised. -/
def rowOutcome (tz : Zone) (row : Row) : Option RowOutcome :=
  match unpack row with
  | none => some (.error (.unpack row.length))
  | some c =>
    if c.lacksField then some .skip
    else
      match c.trade tz with
      | .ok t => some (.trade t)
      | .error (.caught e) => some (.error e)
      | .error .overflow => none

/-- A symbol of the row was cut. -/
def stripsSymbol (row : Row) : Bool := (unpack row).any fun c => !c.lacksField && c.fullSymbol.toList.contains '.'

/-- What is reported. -/
inductive Message
  | timezone (name : String)
  | file (e : String)
  | noPositions
  | row (number : Nat) (e : CellError)
deriving DecidableEq

/-- The text of a message; `str` is that of an exception. -/
def Message.text (str : CellError → String) : Message → String
  | .timezone name => s!"Invalid timezone name: {name}. Please choose a valid timezone."
  | .file e => s!"Failed to open Excel file. Make sure it is a valid MT5 XLSX export. Error: {e}"
  | .noPositions =>
    "Could not find 'Positions' section in the report history. Please ensure this is a standard MT5 Trade History Report."
  | .row number e => s!"Failed to parse row {number}: {str e}"

structure ParseError where
  rowNumber : Nat
  column : Option String := none
  message : Message
  severity : String := "error"
deriving DecidableEq

def rowError (rowNumber : Nat) (e : CellError) : ParseError := { rowNumber, message := .row rowNumber e }

structure PositionsRead where
  trades : List ParsedTrade := []
  errors : List ParseError := []
  strippedSymbolSeen : Bool := false
deriving DecidableEq

def PositionsRead.record (read : PositionsRead) (rowNumber : Nat) (row : Row) (outcome : RowOutcome) : PositionsRead where
  trades := read.trades ++ outcome.trade?.toList
  errors := read.errors ++ (outcome.error?.map (rowError rowNumber)).toList
  strippedSymbolSeen := read.strippedSymbolSeen || stripsSymbol row

/-- `_POSITIONS_END`. -/
def positionsEnd : List String := ["Orders", "Deals", "Working Orders", "Summary"]

/-- The row is not read, nor is any after it. -/
def stopsPositions (row : Row) : Bool := row.head?.join.all fun first => positionsEnd.contains (Unicode.strip first.str)

def readPositions (tz : Zone) : Nat → List Row → PositionsRead → Option PositionsRead
  | _, [], read => some read
  | rowNumber, row :: rows, read =>
    if stopsPositions row then some read
    else (rowOutcome tz row).bind fun outcome => readPositions tz (rowNumber + 1) rows (read.record rowNumber row outcome)

/-- `_parse_positions`: the rows are numbered from 1. -/
def parsePositions (rows : List Row) (positionsIdx : Nat) (tz : Zone) : Option PositionsRead :=
  readPositions tz (positionsIdx + 3) (rows.drop (positionsIdx + 2)) {}

/-! ## The rest of the report -/

/-- The text of the first cell. -/
def firstText (row : Row) : Option String := row.head?.join.map fun first => Unicode.strip first.str

/-- The last row with the title. -/
def sectionIdx (title : String) (rows : List Row) : Option Nat :=
  rows.zipIdx.foldl (fun found row => if firstText row.1 = some title then some row.2 else found) none

/-- `_scan_rows`: where the sections begin, and the balance of the summary. -/
structure Sections where
  positionsIdx : Option Nat
  dealsIdx : Option Nat
  currentBalance : Option DecimalValue

def scanRows (rows : List Row) : Sections where
  positionsIdx := sectionIdx "Positions" rows
  dealsIdx := sectionIdx "Deals" rows
  currentBalance :=
    (rows.find? fun row => firstText row = some "Balance:").bind fun row => row[3]?.bind fun val => (cellDecimal val).toOption

/-- `_DEALS_END`. -/
def dealsEnd : List String := ["Summary", "Balance:", "Working Orders"]

def stopsDeals (row : Row) : Bool := (firstText row).all dealsEnd.contains

structure DealsRead where
  startingBalance : Option DecimalValue := none
  dailyBalances : Table Date DecimalValue := {}

/-- The balance of a deal; of a row that is shorter there is none. -/
def balanceVal (row : Row) : Option DecimalValue :=
  match row[12]?.join with
  | some cell => (cellDecimal (some cell)).toOption
  | none => row[11]?.bind fun val => (cellDecimal val).toOption

/-- One row of the section of deals; `none` where an `OverflowError` is raised. -/
def dealRow (tz : Zone) (read : DealsRead) (row : Row) : Option DealsRead :=
  match balanceVal row with
  | none => some read
  | some balance =>
    let isBalance := Unicode.lower (Unicode.strip (cellText row[3]?.join)) = "balance"
    let read := if isBalance ∧ read.startingBalance = none then { read with startingBalance := some balance } else read
    match parseDate row.head?.join tz with
    | .ok at' => some { read with dailyBalances := read.dailyBalances.set (toAccountLocalDate at' tz, balance) }
    | .error (.caught _) => some read
    | .error .overflow => none

/-- `_parse_deals`. -/
def parseDeals (rows : List Row) (dealsIdx : Nat) (tz : Zone) : Option DealsRead :=
  ((rows.drop (dealsIdx + 2)).takeWhile fun row => !stopsDeals row).foldlM (dealRow tz) {}

structure ParseResult where
  trades : List ParsedTrade := []
  startingBalance : Option DecimalValue := none
  currentBalance : Option DecimalValue := none
  dailyBalances : Table Date DecimalValue := {}
  errors : List ParseError := []
  warnings : List String := []
  rawRowCount : Nat := 0
  parsedTradeCount : Nat := 0

/-- What the upload is: the name of its timezone with the clocks, if there are any, and the rows of its sheet, or why it
cannot be opened. -/
structure Upload where
  sourceTimezone : String
  tz : Option Zone
  rows : Except String (List Row)

/-- `MT5ReportParser.parse`, without what it tells of the account; `none` where an `OverflowError` is raised. -/
def parse (file : Upload) : Option ParseResult :=
  match file.tz with
  | none => some { errors := [{ rowNumber := 0, column := some "timezone", message := .timezone file.sourceTimezone }] }
  | some tz =>
    match file.rows with
    | .error e => some { errors := [{ rowNumber := 0, message := .file e }] }
    | .ok rows =>
      let sections := scanRows rows
      let result : ParseResult := { currentBalance := sections.currentBalance, rawRowCount := rows.length }
      match sections.positionsIdx with
      | none => some { result with errors := [{ rowNumber := 1, message := .noPositions }] }
      | some positionsIdx => do
        let read ← parsePositions rows positionsIdx tz
        let deals ← match sections.dealsIdx with
          | none => some {}
          | some dealsIdx => parseDeals rows dealsIdx tz
        some { result with
          trades := read.trades, parsedTradeCount := read.trades.length, errors := read.errors
          dailyBalances := deals.dailyBalances, startingBalance := deals.startingBalance <|> some (sections.currentBalance.getD (.finite 0))
          warnings :=
            if read.strippedSymbolSeen then ["Symbol suffixes stripped (e.g., AUDUSD.x -> AUDUSD) for compatibility."] else [] }

end

end CsvImport

end SignalSync
