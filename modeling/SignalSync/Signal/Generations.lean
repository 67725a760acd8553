import Mathlib.Data.List.Basic
import SignalSync.Signal.Engine

/-!
# Signal contexts and their generations

A parsed message states some fields of a trade (`AiAction`); a conversation and
the generations of its routes accumulate them in a `Context`, a JSON object
whose numbers are kept as they were written. `mergeContext` overwrites what an
update states; `mergeGenerationContext` also collects the take profits of an
opening still being assembled, and keeps its action.

* `corrective_action`: a correction never opens;
* `mergeGeneration_action`, `takeProfits_mergeGenerationContext`: the action and the take
  profits of a generation.
-/

namespace SignalSync

open Library

/-- `parser.AiAction`, what a message says. -/
structure AiAction where
  action : SignalAction
  symbol : Option String := none
  direction : Option Direction := none
  orderType : Option String := none
  entry : Option Decimal := none
  entryHigh : Option Decimal := none
  stopLoss : Option Decimal := none
  takeProfits : List Decimal := []
  closeFraction : Option Decimal := none
  explicitReference : Option String := none
  confidence : ℚ
deriving DecidableEq

/-- The JSON object of a conversation, a generation or an update; an absent key
is `none` (an absent `take_profits` the empty list). -/
structure Context where
  action : Option SignalAction := none
  symbol : Option String := none
  direction : Option Direction := none
  orderType : Option String := none
  entry : Option Decimal := none
  entryHigh : Option Decimal := none
  stopLoss : Option Decimal := none
  takeProfits : List Decimal := []
  closeFraction : Option Decimal := none
  explicitReference : Option String := none
  confidence : Option ℚ := none
deriving DecidableEq

/-- `parsed.model_dump(mode="json")`. -/
def AiAction.modelDump (parsed : AiAction) : Context where
  action := some parsed.action
  symbol := parsed.symbol
  direction := parsed.direction
  orderType := parsed.orderType
  entry := parsed.entry
  entryHigh := parsed.entryHigh
  stopLoss := parsed.stopLoss
  takeProfits := parsed.takeProfits
  closeFraction := parsed.closeFraction
  explicitReference := parsed.explicitReference
  confidence := some parsed.confidence

/-! ## Merging -/

/-- A stated value replaces the current one. -/
def mergeField {α : Type} (current update : Option α) : Option α := update <|> current

/-- The empty text states nothing. -/
def mergeText (current update : Option String) : Option String :=
  if update = some "" then current else mergeField current update

/-- The empty list states nothing. -/
def mergeList {α : Type} (current update : List α) : List α := if update.isEmpty then current else update

/-- `assembly.merge_context`: every value of the update that is not empty. -/
def mergeContext (current update : Context) : Context where
  action := mergeField current.action update.action
  symbol := mergeText current.symbol update.symbol
  direction := mergeField current.direction update.direction
  orderType := mergeText current.orderType update.orderType
  entry := mergeField current.entry update.entry
  entryHigh := mergeField current.entryHigh update.entryHigh
  stopLoss := mergeField current.stopLoss update.stopLoss
  takeProfits := mergeList current.takeProfits update.takeProfits
  closeFraction := mergeField current.closeFraction update.closeFraction
  explicitReference := mergeText current.explicitReference update.explicitReference
  confidence := mergeField current.confidence update.confidence

def mergeGenerationContext (current update : Context) (openingSubmitted : Bool) : Context :=
  let merged := mergeContext current update
  { merged with
    takeProfits :=
      if !openingSubmitted && !update.takeProfits.isEmpty then
        (current.takeProfits ++ update.takeProfits).eraseDups
      else merged.takeProfits
    action :=
      if !openingSubmitted && current.action.any SignalAction.isOpen && update.action.any SignalAction.isManagement then
        current.action
      else merged.action }

def correctiveActionForSubmittedEdit (current update : Context) : Context :=
  let stopLossChanged := update.stopLoss.isSome && update.stopLoss ≠ current.stopLoss
  let takeProfitsChanged := !update.takeProfits.isEmpty && update.takeProfits ≠ current.takeProfits
  { update with action := if stopLossChanged || takeProfitsChanged then some .modify_sl_tp else some .status_only }

@[simp] theorem mergeField_none {α : Type} (current : Option α) : mergeField current none = current := rfl

@[simp] theorem mergeField_some {α : Type} (current : Option α) (a : α) : mergeField current (some a) = some a := rfl

/-- A correction never opens. -/
theorem corrective_action (current update : Context) :
    (correctiveActionForSubmittedEdit current update).action = some .modify_sl_tp ∨
      (correctiveActionForSubmittedEdit current update).action = some .status_only := by
  simp only [correctiveActionForSubmittedEdit]
  split <;> simp

/-- The action of a generation is the update's, unless an opening still being
assembled keeps its own. -/
theorem mergeGeneration_action {current update : Context} {a : SignalAction} {openingSubmitted : Bool}
    (hu : update.action = some a) :
    (mergeGenerationContext current update openingSubmitted).action =
      if !openingSubmitted && current.action.any SignalAction.isOpen && a.isManagement then current.action
      else some a := by
  simp [mergeGenerationContext, mergeContext, hu]

/-- Before the opening is submitted, a merge adds the targets of the update. -/
theorem takeProfits_mergeGenerationContext (current update : Context) :
    (mergeGenerationContext current update false).takeProfits =
      if update.takeProfits.isEmpty then current.takeProfits else (current.takeProfits ++ update.takeProfits).eraseDups := by
  simp only [mergeGenerationContext, mergeContext, mergeList, Bool.not_false, Bool.true_and]
  cases update.takeProfits.isEmpty <;> rfl

end SignalSync
