import SignalSync.Library.Words
import SignalSync.Signal.Generations

/-!
# The deterministic parser

`deterministic_parse` of `parser.py`, pattern for pattern. A text is a list of
characters; `compact` is the message with its white space reduced to blanks.

* `symbols`: the symbols it knows in a text;
* `deterministicParse`.
-/

namespace SignalSync

open Library Regex

namespace Parser

section

variable [Unicode]

/-! ## Numbers -/

/-- `_NUMBER`. -/
def number : Regex :=
  seqs
    [opt (oneOf "-+"),
      alts
        [seqs
            [alts [seqs [many digit 1 (some 3), plus (seqs [lit ",", many digit 3 (some 3)])], plus digit],
              opt (seqs [lit ".", plus digit])],
          seqs [lit ".", plus digit]]]

/-- `_LABEL_SEPARATOR`. -/
def labelSeparator : Regex :=
  alts [oneOf ":=@", seqs [boundary, alts [litI "TO", litI "AT", litI "IS"], boundary]]

/-- `_decimal`, of a text that `_NUMBER` reads. -/
def decimal (value : List Char) : Option Decimal :=
  let value := value.filter (· ≠ ',')
  let (negative, body) := match value with
    | '-' :: s => (true, s)
    | '+' :: s => (false, s)
    | s => (false, s)
  let fraction := (body.dropWhile (· ≠ '.')).drop 1
  let digits := body.takeWhile (· ≠ '.') ++ fraction
  if digits = [] then none
  else (digits.mapM Unicode.decimal).map fun ds => ⟨negative, ds.foldl (fun n d => 10 * n + d) 0, -fraction.length⟩

/-! ## Symbols -/

/-- `_RESERVED_TOKENS`. -/
def reservedTokens : List String :=
  ["ABOVE", "ADD", "ALL", "BE", "BREAKEVEN", "BUY", "CANCEL", "CLOSE", "DELETE", "ENTRY", "EXIT", "GOLD", "HALF", "HIT",
    "LIMIT", "LONG", "LOSS", "MARKET", "MOVE", "NOW", "ORDER", "PENDING", "PROFIT", "SELL", "SET", "SHORT", "SL", "STOP",
    "TAKE", "TP"]

/-- `_SYMBOL_ALIASES`. -/
def symbolAliases : List (String × String) := [("GOLD", "XAUUSD"), ("SILVER", "XAGUSD")]

/-- `_CURRENCY_CODES`. -/
def currencyCodes : List String := ["AUD", "CAD", "CHF", "EUR", "GBP", "JPY", "NZD", "USD"]

/-- `[A-Z]`. -/
def isUpper (c : Char) : Bool := 'A' ≤ c && c ≤ 'Z'

/-- `[A-Z0-9]`. -/
def isUpperOrDigit (c : Char) : Bool := isUpper c || '0' ≤ c && c ≤ '9'

/-- `re.sub(r"[^A-Z0-9]", "", …)`. -/
def core (value : List Char) : List Char := sub (char fun c => !isUpperOrDigit c) [] value

/-- `_looks_like_symbol`. -/
def looksLikeSymbol (value : List Char) : Bool :=
  let core := core value
  (6 ≤ core.length && String.ofList (core.take 3) ∈ currencyCodes ++ ["XAU", "XAG", "BTC", "ETH"] &&
      String.ofList ((core.drop 3).take 3) ∈ currencyCodes ++ ["BTC", "ETH"]) ||
    fullmatch (seqs [anyOf ["US", "NAS", "GER", "DE", "UK", "JP", "HK"], many digit 2 (some 4), opt (char isUpper)]) core

def upper (s : List Char) : List Char := (Unicode.upper (.ofList s)).toList

def add (found : List String) (value : String) : List String := if value ∈ found then found else found ++ [value]

/-- `\b([A-Z]{3})\s*/\s*([A-Z]{3})\b`. -/
def pairPattern : Regex :=
  seqs [boundary, group (many (char isUpper) 3 (some 3)), star space, lit "/", star space,
    group (many (char isUpper) 3 (some 3)), boundary]

/-- `\b[A-Z][A-Z0-9._-]{2,15}\b`. -/
def candidatePattern : Regex :=
  seqs [boundary, char isUpper, many (char fun c => isUpperOrDigit c || c ∈ "._-".toList) 2 (some 15), boundary]

def addPair (found : List String) (pair : List (List Char)) : List String :=
  if looksLikeSymbol pair.flatten then add found (.ofList pair.flatten) else found

def addCandidate (found : List String) (candidate : List Char) : List String :=
  let normalized := core candidate
  if String.ofList normalized ∈ reservedTokens || ['T', 'P'].isPrefixOf normalized || ['S', 'L'].isPrefixOf normalized then found
  else if looksLikeSymbol normalized then add found (.ofList normalized)
  else found

/-- `_symbols`. -/
def symbols (text : List Char) : List String :=
  let upper := upper text
  let found := (findAll pairPattern upper).foldl (fun found f => addPair found f.groups) []
  let found := symbolAliases.foldl (fun found (name, canonical) =>
    if (search (word [name]) upper).isSome then add found canonical else found) found
  (findAll candidatePattern upper).foldl (fun found f => addCandidate found f.text) found

/-! ## Prices -/

/-- `_labelled_number`. -/
def labelledNumber (text : List Char) (labels : Regex) : Option Decimal :=
  (search (seqs [labels, star space, opt labelSeparator, star space, group number, boundary]) text).bind fun f =>
    (f.groups.head?).bind decimal

/-- `\bTP(?:\d+)?\b|\bTAKE\s+PROFIT\b`. -/
def takeProfitLabels : List Regex :=
  [seqs [boundary, litI "TP", opt (plus digit), boundary], seqs [boundary, litI "TAKE", plus space, litI "PROFIT", boundary]]

/-- `_take_profits`. -/
def takeProfits (text : List Char) : List Decimal :=
  (findAll (seqs [alts takeProfitLabels, star space, opt labelSeparator, star space, group number, boundary]) text).filterMap fun f =>
    (f.groups.head?).bind decimal

/-- `ENTRY`, and what may stand before its number. -/
def entryLabel : Regex :=
  seqs [boundary, litI "ENTRY", boundary, star space, opt (alts [oneOf ":=@", litI "IS", litI "AT"]), star space]

/-- `-|–|—|TO`. -/
def rangeSign : Regex := alts [oneOf "-\u2013\u2014", litI "TO"]

/-- `_entry_range`. -/
def entryRange (text : List Char) : Option Decimal × Option Decimal :=
  match search (seqs [entryLabel, group number, star space, rangeSign, star space, group number]) text with
  | some ⟨_, _, [low, high], _⟩ => (decimal low, decimal high)
  | _ => (none, none)

/-- A stop loss or a take profit with its number. -/
def levelPattern : Regex :=
  seqs
    [alts ([seqs [boundary, litI "SL", boundary], seqs [boundary, litI "STOP", plus space, litI "LOSS", boundary]] ++ takeProfitLabels),
      star space, opt labelSeparator, star space, number, boundary]

/-- `_entry`. -/
def entry (text : List Char) (pending : Bool) : Option Decimal :=
  ((entryRange text).1.or (labelledNumber text (litI "ENTRY"))).or <|
    let entryText := sub levelPattern [' '] text
    match search (seqs [alts [oneOf "@", seqs [boundary, litI "AT", boundary]], star space, group number, boundary]) entryText with
    | some f => (f.groups.head?).bind decimal
    | none =>
      if pending then
        (search
            (seqs
              [boundary, alts [litI "LIMIT", litI "STOP"], boundary,
                opt (seqs [plus space, oneOfI "ABCDEFGHIJKLMNOPQRSTUVWXYZ", star (oneOfI "ABCDEFGHIJKLMNOPQRSTUVWXYZ0123456789._-")]),
                star space, opt (alts [oneOf "@", litI "AT"]), star space, group number, boundary])
            text).bind fun f => (f.groups.head?).bind decimal
      else none

/-- `_has_unlabelled_number`. -/
def hasUnlabelledNumber (text : List Char) (symbol : Option String) : Bool :=
  let cleaned := sub levelPattern [' '] text
  let cleaned :=
    sub (seqs [entryLabel, number, opt (seqs [star space, rangeSign, star space, number]), boundary]) [' '] cleaned
  let cleaned := match symbol with
    | none => cleaned
    | some symbol =>
      let cleaned := sub (seqs [boundary, litI symbol, boundary]) [' '] cleaned
      symbolAliases.foldl (fun cleaned (name, canonical) =>
        if canonical = symbol then sub (seqs [boundary, litI name, boundary]) [' '] cleaned else cleaned) cleaned
  (search number cleaned).isSome

/-! ## The parser -/

def sides : List String := ["BUY", "SELL", "LONG", "SHORT"]

/-- A hedged message. -/
def hedgedPattern : Regex := word ["IF", "MAYBE", "MIGHT", "POSSIBLY", "WATCH", "LOOKING"]

/-- A report of what has happened. -/
def statusPattern : Regex :=
  alts
    [seqs [boundary, alts [lit "TP", seqs [lit "TAKE", plus space, lit "PROFIT"]], plus space, anyOf ["HIT", "REACHED"], boundary],
      seqs [boundary, lit "STOPPED", plus space, lit "OUT", boundary],
      seqs [boundary, lit "SL", plus space, lit "HIT", boundary]]

/-- `non_actionable_context`. -/
def contextPattern : Regex :=
  alts
    [seqs
        [boundary,
          alts [seqs [lit "DO", plus space, lit "NOT"], seqs [lit "DON", opt (oneOf "'\u2019"), lit "T"], lit "IGNORE", lit "AVOID"],
          plus space, anyOf sides, boundary],
      seqs [boundary, lit "CANCEL", plus space, opt (seqs [lit "THE", plus space]), anyOf sides, boundary],
      seqs [boundary, alts [lit "YESTERDAY", seqs [lit "RESULT", opt (lit "S")], lit "EXAMPLE", lit "BACKTEST"], boundary],
      seqs [boundary, opt (seqs [lit "WE", plus space]), anyOf ["BOUGHT", "SOLD"], boundary]]

/-- `has_trade_details`. -/
def detailsPattern : Regex :=
  seqs
    [boundary,
      alts [lit "BUY", lit "SELL", lit "LONG", lit "SHORT", lit "BOUGHT", lit "SOLD", lit "SL", seqs [lit "TP", star digit], lit "ENTRY"],
      boundary]

def breakEvenPattern : Regex :=
  seqs
    [boundary, opt (seqs [lit "MOVE", plus space, lit "SL", plus space, lit "TO", plus space]),
      alts [lit "BE", seqs [lit "BREAK", opt (oneOf " -"), lit "EVEN"]], boundary]

def cancelPattern : Regex :=
  seqs
    [boundary,
      alts
        [seqs [lit "CANCEL", plus space, opt (seqs [lit "THE", plus space]), lit "PENDING"],
          seqs [lit "DELETE", plus space, star (char (· ≠ '\n')), boundary, anyOf ["LIMIT", "STOP"], boundary]]]

def percentPattern : Regex := seqs [boundary, lit "CLOSE", plus space, group number, star space, lit "%"]

def halfPattern : Regex := seqs [boundary, lit "CLOSE", plus space, anyOf ["HALF", "1/2"], boundary]

def closePattern : Regex :=
  seqs
    [boundary, anyOf ["CLOSE", "EXIT"], plus space, opt (seqs [lit "ALL", plus space]),
      plus (char fun c => isUpperOrDigit c || c ∈ "._-".toList), boundary]

/-- `additional_tp`. -/
def additionalPattern : Regex :=
  alts
    [seqs [boundary, lit "TP", group (seqs [char fun c => '2' ≤ c && c ≤ '9', star digit]), boundary],
      seqs [boundary, lit "ADD", plus space, opt (seqs [lit "A", plus space]), lit "TAKE", plus space, lit "PROFIT", boundary]]

/-- `… / Decimal("100")`, which keeps no zeros after the point that the quotient does
not need. -/
def percentOf (d : Decimal) : Decimal :=
  if d.digits % 100 = 0 then ⟨d.negative, d.digits / 100, d.exponent⟩
  else if d.digits % 10 = 0 then ⟨d.negative, d.digits / 10, d.exponent - 1⟩
  else ⟨d.negative, d.digits, d.exponent - 2⟩

/-- `" ".join((text or "").strip().split())`. -/
def compact (text : String) : List Char :=
  List.intercalate [' '] (((Unicode.strip text).toList.splitOnP Unicode.isSpace).filter (· ≠ []))

def sideOf (value : String) : Direction := if value ∈ ["BUY", "LONG"] then .buy else .sell

/-- What follows once a direction, a symbol and no second one of either are found. -/
def parseOpening (compact : List Char) (symbol : String) (direction : Direction) (stopLoss : Option Decimal) (takeProfits : List Decimal) :
    Option AiAction :=
  let pendingKeyword := search (wordGroup ["LIMIT", "STOP"]) (upper compact)
  let pending := pendingKeyword.isSome
  let (low, high) := entryRange compact
  let entry := low.or (entry compact pending)
  if !pending && entry.isNone && hasUnlabelledNumber compact symbol then none
  else some
    { action := if pending then .place_pending else .open_market
      symbol, direction := some direction
      orderType := pendingKeyword.map fun f => Unicode.lower (.ofList f.groups.flatten)
      entry, entryHigh := high, stopLoss, takeProfits, confidence := 1 }

/-- The part of `deterministic_parse` after the messages that manage a trade. -/
def parseLevels (compact : List Char) : Option AiAction :=
  let upper := upper compact
  let symbols := symbols compact
  let takeProfits := takeProfits compact
  let stopLoss := labelledNumber compact (alts [litI "SL", seqs [litI "STOP", plus space, litI "LOSS"]])
  let additional := (search additionalPattern upper).isSome
  match search (wordGroup sides) upper with
  | none =>
    if additional && takeProfits ≠ [] then some { action := .additional_tp, symbol := symbols.head?, takeProfits, confidence := 1 }
    else if stopLoss.isSome || takeProfits ≠ [] then
      some { action := .modify_sl_tp, symbol := symbols.head?, stopLoss, takeProfits, confidence := 1 }
    else none
  | some hasDirection =>
    match symbols with
    | [] => none
    | symbol :: others =>
      let directionWords := (findAll (wordGroup sides) upper).map fun f => String.ofList f.groups.flatten
      if 1 < (directionWords.map sideOf).dedup.length || others ≠ [] then some { action := .status_only, confidence := 0 }
      else parseOpening compact symbol (sideOf (.ofList hasDirection.groups.flatten)) stopLoss takeProfits

/-- `deterministic_parse`. -/
def deterministicParse (text : String) : Option AiAction :=
  let compact := compact text
  let upper := upper compact
  let symbol := (symbols compact).head?
  if compact = [] then none
  else if (search hedgedPattern upper).isSome then none
  else if (search statusPattern upper).isSome then some { action := .status_only, symbol, confidence := 1 }
  else if (search contextPattern upper).isSome && (search detailsPattern upper).isSome then
    some { action := .status_only, symbol, confidence := 0 }
  else if (search breakEvenPattern upper).isSome then some { action := .break_even, symbol, confidence := 1 }
  else if (search cancelPattern upper).isSome then some { action := .cancel_pending, symbol, confidence := 1 }
  else match search percentPattern upper with
    | some f =>
      some { action := .partial_close, symbol, closeFraction := ((f.groups.head?).bind decimal).map percentOf, confidence := 1 }
    | none =>
      if (search halfPattern upper).isSome then
        some { action := .partial_close, symbol, closeFraction := some ⟨false, 5, -1⟩, confidence := 1 }
      else if (search closePattern upper).isSome then some { action := .full_close, symbol, confidence := 1 }
      else parseLevels compact

end

end Parser

end SignalSync
