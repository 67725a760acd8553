import Mathlib.Data.List.MinMax
import SignalSync.Library.Numeric
import SignalSync.Library.Text

/-!
# Broker symbols and volumes

The catalog a broker publishes (`Specification`), the symbols read from it
(`BrokerSymbol`), the choice of the symbol a signal means (`resolveSymbol`) and
the volume the broker accepts for a requested one (`normalizeVolume`).

* `normalizeVolume_le`: a volume of at least the broker's minimum is never raised;
* `normalizeVolume_of_lt`: a smaller one is raised to the minimum;
* `resolveSymbol_mem`: a resolved symbol is one of the catalog.
-/

namespace SignalSync

open Library

/-- MetaTrader's trade mode, a number or its name. -/
inductive TradeMode
  | code (n : Int)
  | name (text : String)
deriving DecidableEq

/-- One entry of the broker's catalog; a volume that is absent or zero has a
default. The broker states no negative volume. -/
structure Specification where
  symbol : String
  tradeMode : TradeMode := .name "SYMBOL_TRADE_MODE_DISABLED"
  minVolume : Option ℚ := none
  maxVolume : Option ℚ := none
  volumeStep : Option ℚ := none
  point : Option ℚ := none
  minVolume_nonneg : ∀ v ∈ minVolume, 0 ≤ v
  volumeStep_nonneg : ∀ v ∈ volumeStep, 0 ≤ v
deriving DecidableEq

theorem Specification.nonneg_none : ∀ v ∈ (none : Option ℚ), 0 ≤ v := fun v h => absurd h (Option.not_mem_none v)

structure BrokerSymbol where
  name : String
  tradeMode : TradeMode
  minVolume : ℚ
  maxVolume : ℚ
  volumeStep : ℚ
  point : ℚ
  minVolume_pos : 0 < minVolume
  volumeStep_pos : 0 < volumeStep

/-- `specification.get(key) or default`. -/
def orDefault (value : Option ℚ) (default : ℚ) : ℚ :=
  match value with
  | some v => if v = 0 then default else v
  | none => default

theorem orDefault_pos {value : Option ℚ} {default : ℚ} (hd : 0 < default) (h : ∀ v ∈ value, 0 ≤ v) :
    0 < orDefault value default := by
  unfold orDefault
  split
  · split
    · exact hd
    · exact lt_of_le_of_ne (h _ rfl) (Ne.symm ‹_›)
  · exact hd

theorem hundredth_lot_pos : (0 : ℚ) < 1 / 100 := by norm_num

def brokerSymbolFromMetaapi (specification : Specification) : BrokerSymbol where
  name := specification.symbol
  tradeMode := specification.tradeMode
  minVolume := orDefault specification.minVolume (1 / 100)
  maxVolume := orDefault specification.maxVolume 100
  volumeStep := orDefault specification.volumeStep (1 / 100)
  point := orDefault specification.point (1 / 100000)
  minVolume_pos := orDefault_pos (by norm_num) specification.minVolume_nonneg
  volumeStep_pos := orDefault_pos (by norm_num) specification.volumeStep_nonneg

/-! ## Volumes -/

def normalizeVolume (volume : ℚ) (symbol : BrokerSymbol) : ℚ :=
  let bounded := min (max volume symbol.minVolume) symbol.maxVolume
  let steps := ⌊bounded / symbol.volumeStep⌋
  let normalized := steps * symbol.volumeStep
  max symbol.minVolume (min normalized symbol.maxVolume)

section volumes

variable {volume : ℚ} {symbol : BrokerSymbol}

theorem floor_mul_le (bounded : ℚ) (symbol : BrokerSymbol) :
    ⌊bounded / symbol.volumeStep⌋ * symbol.volumeStep ≤ bounded :=
  (le_div_iff₀ symbol.volumeStep_pos).mp (Int.floor_le _)

/-- Stepping down never raises a volume above the larger of itself and the
broker's minimum. -/
theorem normalizeVolume_le_max (volume : ℚ) (symbol : BrokerSymbol) :
    normalizeVolume volume symbol ≤ max volume symbol.minVolume := by
  refine max_le (le_max_right _ _) ((min_le_left _ _).trans ?_)
  exact (floor_mul_le _ symbol).trans (min_le_left _ _)

theorem normalizeVolume_le (h : symbol.minVolume ≤ volume) : normalizeVolume volume symbol ≤ volume := by
  simpa [max_eq_left h] using normalizeVolume_le_max volume symbol

theorem minVolume_le_normalizeVolume : symbol.minVolume ≤ normalizeVolume volume symbol := le_max_left _ _

theorem normalizeVolume_of_lt (h : volume < symbol.minVolume) : normalizeVolume volume symbol = symbol.minVolume :=
  le_antisymm (by simpa [max_eq_right h.le] using normalizeVolume_le_max volume symbol)
    minVolume_le_normalizeVolume

theorem normalizeVolume_nonneg : 0 ≤ normalizeVolume volume symbol :=
  symbol.minVolume_pos.le.trans minVolume_le_normalizeVolume

end volumes

/-! ## Symbols -/

variable [Unicode]

namespace Symbols

/-- `symbols.normalize_symbol`: capitals and digits only, and the aliases. -/
def normalizeSymbol (value : String) : String :=
  let normalized := String.ofList ((Unicode.upper value).toList.filter fun c => c.isUpper || c.isDigit)
  match normalized with
  | "GOLD" => "XAUUSD"
  | "SILVER" => "XAGUSD"
  | "BTC" => "BTCUSD"
  | other => other

/-- `str.startswith`. -/
def startsWith (text start : String) : Bool := start.toList.isPrefixOf text.toList

end Symbols

open Symbols

inductive ResolveError
  | multipleExact (requested : String)
  | noMatch (requested : String)
  | ambiguous (requested : String) (names : List String)
deriving DecidableEq

def ResolveError.message : ResolveError → String
  | .multipleExact requested => s!"Multiple tradable broker symbols exactly match {requested}."
  | .noMatch requested => s!"No tradable broker symbol matches {requested}."
  | .ambiguous requested names =>
    let joined := ", ".intercalate (names.mergeSort (· ≤ ·))
    s!"Broker symbol mapping for {requested} is ambiguous: {joined}."

def disabledModes : List TradeMode :=
  [.code 0, .code 3, .name "SYMBOL_TRADE_MODE_DISABLED", .name "SYMBOL_TRADE_MODE_CLOSEONLY"]

def tradable (symbol : BrokerSymbol) : Bool := symbol.tradeMode ∉ disabledModes

def resolveSymbol (requested : String) (symbols : List BrokerSymbol) : Except ResolveError BrokerSymbol :=
  let target := normalizeSymbol requested
  let candidates := symbols.filter tradable
  match candidates.filter fun symbol => normalizeSymbol symbol.name = target with
  | [symbol] => .ok symbol
  | _ :: _ :: _ => .error (.multipleExact requested)
  | [] =>
    let matched := candidates.filter fun symbol => startsWith (normalizeSymbol symbol.name) target
    let size (symbol : BrokerSymbol) := (normalizeSymbol symbol.name).length
    match matched.argmin size with
    | none => .error (.noMatch requested)
    | some shortest =>
      match matched.filter fun symbol => size symbol = size shortest with
      | [symbol] => .ok symbol
      | closest => .error (.ambiguous requested (closest.map (·.name)))

theorem resolveSymbol_mem {requested : String} {symbols : List BrokerSymbol} {symbol : BrokerSymbol}
    (h : resolveSymbol requested symbols = .ok symbol) : symbol ∈ symbols := by
  simp only [resolveSymbol] at h
  split at h
  · rename_i a he
    cases h
    have hm := List.mem_singleton_self symbol
    rw [← he, List.mem_filter, List.mem_filter] at hm
    exact hm.1.1
  · cases h
  · split at h
    · cases h
    · split at h
      · rename_i a he
        cases h
        have hm := List.mem_singleton_self symbol
        rw [← he, List.mem_filter, List.mem_filter, List.mem_filter] at hm
        exact hm.1.1.1
      · cases h

end SignalSync
