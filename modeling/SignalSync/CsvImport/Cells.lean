import SignalSync.Affiliates.Service
import SignalSync.Journal.Analytics

/-!
# The cells of a report

What the parser of MetaTrader's reports reads out of a cell: a time, on the clocks of the
broker, or a number.
-/

namespace SignalSync

namespace CsvImport

open Library Accounts Journal

/-! ## Cells -/

/-- A cell that is not empty: its text and its truth value, and the time of a date cell, in
microseconds since the beginning of the year 1. -/
structure Cell where
  str : String
  truthy : Bool
  datetime : Option Nat := none
deriving DecidableEq

/-- A cell of text. -/
def Cell.text (s : String) : Cell := { str := s, truthy := s ≠ "" }

/-- An empty cell is `None`. -/
abbrev Row := List (Option Cell)

/-- A row of texts, with an empty cell for an empty one. -/
def rowOfTexts (texts : List String) : Row := texts.map fun s => if s = "" then none else some (.text s)

/-- `str(val)`. -/
def cellText (val : Option Cell) : String := (val.map Cell.str).getD "None"

def isTruthy (val : Option Cell) : Bool := val.any Cell.truthy

/-- A `Decimal`. -/
inductive DecimalValue
  | finite (q : ℚ)
  | infinity (negative : Bool)
  | nan (signaling : Bool)
deriving DecidableEq

def DecimalValue.isFinite : DecimalValue → Bool
  | .finite _ => true
  | _ => false

/-- What is raised for a row and caught: too few cells, or text that is no number or no time. -/
inductive CellError
  | unpack (got : Nat)
  | conversion (text : String)
  | timeData (text : String)
deriving DecidableEq

/-- What ends the reading of a row. -/
inductive RowStop
  | caught (e : CellError)
  /-- `OverflowError`, which is not caught. -/
  | overflow
deriving DecidableEq

/-! ### Times -/

/-- The days before a year. -/
def daysBeforeYear (year : Nat) : Nat := (year - 1) * 365 + (year - 1) / 4 - (year - 1) / 100 + (year - 1) / 400

def daysInMonth (year month : Nat) : Nat :=
  if month = 2 then (if year % 4 = 0 ∧ (year % 100 ≠ 0 ∨ year % 400 = 0) then 29 else 28)
  else if month ∈ [4, 6, 9, 11] then 30 else 31

def daysBeforeMonth (year month : Nat) : Nat := ((List.range (month - 1)).map fun m => daysInMonth year (m + 1)).sum

/-- The end of the year 9999. -/
def endOfTime : Nat := daysBeforeYear 10000 * seconds 86400

section

variable [Unicode]

/-- A digit of the class `[lo-hi]`. -/
def digitIn (lo hi : Char) (c : Char) : Option Nat := if lo ≤ c ∧ c ≤ hi then some (c.toNat - 48) else none

def yearOf (s : List Char) : Option Nat := if s.length = 4 then natOfDigits s else none

def monthOf : List Char → Option Nat
  | [c] | ['0', c] => digitIn '1' '9' c
  | ['1', c] => (digitIn '0' '2' c).map (10 + ·)
  | _ => none

def dayOf : List Char → Option Nat
  | [c] | ['0', c] | [' ', c] => digitIn '1' '9' c
  | ['1', c] => (Unicode.decimal c).map (10 + ·)
  | ['2', c] => (Unicode.decimal c).map (20 + ·)
  | ['3', c] => (digitIn '0' '1' c).map (30 + ·)
  | _ => none

def hourOf : List Char → Option Nat
  | [c] | ['0', c] => Unicode.decimal c
  | ['1', c] => (Unicode.decimal c).map (10 + ·)
  | ['2', c] => (digitIn '0' '3' c).map (20 + ·)
  | _ => none

def sixtiethOf : List Char → Option Nat
  | [c] => Unicode.decimal c
  | [d, c] => (digitIn '0' '5' d).bind fun tens => (Unicode.decimal c).map (10 * tens + ·)
  | _ => none

/-- `datetime.strptime(text, "%Y.%m.%d %H:%M:%S")`. -/
def strptime (text : String) : Option Nat := do
  let s := text.toList
  let year ← yearOf (s.takeWhile (· ≠ '.'))
  let s := (s.dropWhile (· ≠ '.')).drop 1
  let month ← monthOf (s.takeWhile (· ≠ '.'))
  let s := (s.dropWhile (· ≠ '.')).drop 1
  -- a day may be padded with a blank
  let width := if s.head? = some ' ' then 2 else (s.takeWhile fun c => !Unicode.isSpace c).length
  let day ← dayOf (s.take width)
  let time := (s.drop width).dropWhile Unicode.isSpace
  let hour ← hourOf (time.takeWhile (· ≠ ':'))
  let rest := (time.dropWhile (· ≠ ':')).drop 1
  let minute ← sixtiethOf (rest.takeWhile (· ≠ ':'))
  let second ← sixtiethOf ((rest.dropWhile (· ≠ ':')).drop 1)
  if time.length < (s.drop width).length ∧ 1 ≤ year ∧ day ≤ daysInMonth year month then
    some (seconds (((daysBeforeYear year + daysBeforeMonth year month + day - 1) * 24 + hour) * 3600 + minute * 60 + second))
  else none

/-- The clocks of a broker in UTC. -/
def utcClocks : Zone where
  offset _ := 0
  offsetOfReading _ := 0

/-- `_parse_date`: the broker's clocks read in its timezone. -/
def parseDate (val : Option Cell) (tz : Zone) : Except RowStop Time :=
  match val.bind Cell.datetime <|> strptime (Unicode.strip (cellText val)) with
  | none => .error (.caught (.timeData (cellText val)))
  | some naive =>
    let utc := (naive : Int) - tz.offsetOfReading naive
    if 0 ≤ utc ∧ utc < endOfTime then .ok utc.toNat else .error .overflow

/-! ### Numbers -/

/-- A text that `Decimal` reads as an infinity or as what is no number. -/
def specialOfText (text : String) : Option DecimalValue :=
  let (negative, s) := signOf ((Unicode.strip text).toList.filter (· ≠ '_'))
  let s := s.map Char.toLower
  if s = "inf".toList ∨ s = "infinity".toList then some (.infinity negative)
  else
    let signaling := "snan".toList.isPrefixOf s
    let digits := if signaling then some (s.drop 4) else if "nan".toList.isPrefixOf s then some (s.drop 3) else none
    digits.bind fun digits => (natOfDigits digits).map fun _ => .nan signaling

/-- `Decimal(text)`. -/
def decimal (text : String) : Except RowStop DecimalValue :=
  match (decimalOfText text).map DecimalValue.finite <|> specialOfText text with
  | some value => .ok value
  | none => .error (.caught (.conversion text))

/-- `Decimal(str(val))`. -/
def cellDecimal (val : Option Cell) : Except RowStop DecimalValue := decimal (cellText val)

/-- `Decimal(str(val or 0))`. -/
def cellDecimalOrZero (val : Option Cell) : Except RowStop DecimalValue := decimal (if isTruthy val then cellText val else "0")

def parseOptionalDecimal (val : Option Cell) : Except RowStop (Option DecimalValue) :=
  match val with
  | none => .ok none
  | some cell =>
    let s := Unicode.strip cell.str
    if s = "" ∨ s = "0" ∨ s = "0.0" then .ok none else (decimal s).map some

end

end CsvImport

end SignalSync
