import Mathlib.Data.List.Sort
import SignalSync.Ids
import SignalSync.Library.Text
import SignalSync.Signal.Engine

/-!
# Assembling messages into conversations

A message is assigned to one of the open conversations of its source by
`chooseConversation`: a chain of rules, the first that decides wins. Its fields
are then merged into the conversation's context by `mergeContext`.

* `chooseConversation_of_byReference`: the rules about replies and edits come first;
* `chooseConversation_mem`: only a candidate is ever chosen.
-/

namespace SignalSync

open Library

structure ConversationCandidate where
  id : Uuid
  replyRootMessageId : Option Int
  lastMessageId : Int
  symbol : Option String
  direction : Option String
  updatedAt : Time
  openingSubmitted : Bool := false
  hasActiveTrade : Bool := false
deriving DecidableEq, Repr

structure ConversationChoice where
  selected : Option ConversationCandidate
  ambiguous : Bool := false
deriving DecidableEq, Repr

/-- The keyword arguments of `choose_conversation`. -/
structure ConversationQuery where
  replyToMessageId : Option Int
  symbol : Option String
  direction : Option String
  candidates : List ConversationCandidate
  action : Option SignalAction := none
  messageId : Option Int := none
  isEdit : Bool := false
deriving DecidableEq, Repr

/-- A message that a conversation is known by. -/
def ConversationCandidate.refersTo (item : ConversationCandidate) (message : Int) : Bool :=
  item.replyRootMessageId = some message || item.lastMessageId = message

/-- `if len(items) == 1: return ConversationChoice(items[0])`. -/
def onlyOne : List ConversationCandidate → Option ConversationChoice
  | [item] => some { selected := some item }
  | _ => none

theorem onlyOne_cases (items : List ConversationCandidate) :
    (∃ a, items = [a] ∧ onlyOne items = some { selected := some a }) ∨ ((∀ a, items ≠ [a]) ∧ onlyOne items = none) := by
  match items with
  | [] => exact .inr ⟨by simp, rfl⟩
  | [a] => exact .inl ⟨a, rfl, rfl⟩
  | _ :: _ :: _ => exact .inr ⟨by simp, rfl⟩

/-- `onlyOne`, and more than one candidate is an ambiguity. -/
def oneOrAmbiguous : List ConversationCandidate → Option ConversationChoice
  | [] => none
  | [item] => some { selected := some item }
  | _ => some { selected := none, ambiguous := true }

theorem onlyOne_eq_some {items : List ConversationCandidate} {item : ConversationCandidate} {c : ConversationChoice}
    (h : onlyOne items = some c) (hc : c.selected = some item) : items = [item] := by
  match items with
  | [] | _ :: _ :: _ => cases h
  | [a] => cases h; cases hc; rfl

theorem oneOrAmbiguous_eq_some {items : List ConversationCandidate} {item : ConversationCandidate} {c : ConversationChoice}
    (h : oneOrAmbiguous items = some c) (hc : c.selected = some item) : items = [item] := by
  match items with
  | [] => cases h
  | [a] => cases h; cases hc; rfl
  | _ :: _ :: _ => cases h; cases hc

theorem oneOrAmbiguous_eq_none {items : List ConversationCandidate} :
    oneOrAmbiguous items = none ↔ items = [] := by
  match items with
  | [] | [_] | _ :: _ :: _ => simp [oneOrAmbiguous]

theorem onlyOne_singleton {items : List ConversationCandidate} {item : ConversationCandidate} (h : items = [item]) :
    onlyOne items = some { selected := some item } := by
  rw [h]; rfl

variable [Unicode]

/-- `assembly.normalize_symbol`. -/
def normalizeSymbol (value : Option String) : Option String :=
  match value with
  | none => none
  | some text => if text = "" then none else some (.ofList ((Unicode.upper text).toList.filter Unicode.isAlnum))

def normalizeDirection (value : Option String) : Option String :=
  match value with
  | none => none
  | some text => if text = "" then none else some (Unicode.lower (Unicode.strip text))

namespace ConversationQuery

def isAction (q : ConversationQuery) (p : SignalAction → Bool) : Bool := q.action.any p

def ordered (q : ConversationQuery) : List ConversationCandidate :=
  q.candidates.insertionSort fun a b => b.updatedAt ≤ a.updatedAt

def eligible (q : ConversationQuery) : List ConversationCandidate :=
  if q.action = some .modify_sl_tp then q.ordered.filter fun item => !item.openingSubmitted || item.hasActiveTrade
  else if q.isAction SignalAction.isManagement then q.ordered.filter (·.hasActiveTrade)
  else q.ordered

def follows (q : ConversationQuery) (item : ConversationCandidate) : Bool :=
  q.messageId.any fun message => item.lastMessageId + 1 = message

/-- The candidates' symbol is the one asked for. -/
def symbolMatches (q : ConversationQuery) (item : ConversationCandidate) : Bool :=
  normalizeSymbol item.symbol = normalizeSymbol q.symbol

/-- No direction is asked for, or the candidate has it. -/
def directionMatches (q : ConversationQuery) (item : ConversationCandidate) : Bool :=
  normalizeDirection q.direction = none || normalizeDirection item.direction = normalizeDirection q.direction

/-! ### The rules, in the order they are tried -/

/-- A standalone SL/TP line immediately following an incomplete opening. -/
def adjacentOpenings (q : ConversationQuery) : List ConversationCandidate :=
  if q.action = some .modify_sl_tp then q.eligible.filter fun item => !item.openingSubmitted && q.follows item
  else []

def incompleteOpenings (q : ConversationQuery) : List ConversationCandidate :=
  if q.action = some .modify_sl_tp then
    q.eligible.filter fun item =>
      !item.openingSubmitted && (normalizeSymbol q.symbol = none || q.symbolMatches item) && q.directionMatches item
  else []

def adjacentManaged (q : ConversationQuery) : List ConversationCandidate :=
  if q.isAction SignalAction.isManagement then q.eligible.filter q.follows else []

def editMatches (q : ConversationQuery) : List ConversationCandidate :=
  if q.isEdit then q.eligible.filter fun item => q.messageId.any item.refersTo else []

def replyMatches (q : ConversationQuery) : List ConversationCandidate :=
  q.eligible.filter fun item => q.replyToMessageId.any item.refersTo

def matchable (q : ConversationQuery) : List ConversationCandidate :=
  if q.isAction SignalAction.isOpen then q.eligible.filter (!·.openingSubmitted) else q.eligible

def exact (q : ConversationQuery) : List ConversationCandidate :=
  q.matchable.filter fun item => q.symbolMatches item && q.directionMatches item

def unresolved (q : ConversationQuery) : List ConversationCandidate :=
  q.matchable.filter fun item =>
    normalizeSymbol item.symbol = none && (q.directionMatches item || normalizeDirection item.direction = none)

/-- `not normalized_symbol`: no symbol is stated, or nothing is left of it. -/
def blankSymbol (q : ConversationQuery) : Bool :=
  normalizeSymbol q.symbol = none || normalizeSymbol q.symbol = some ""

/-- `normalized_direction and normalize_direction(candidate.direction) != normalized_direction`. -/
def directionDiffers (q : ConversationQuery) (item : ConversationCandidate) : Bool :=
  !(normalizeDirection q.direction = none || normalizeDirection q.direction = some "") &&
    normalizeDirection item.direction ≠ normalizeDirection q.direction

/-- The rules that decide by the message's place in the channel. -/
def byReference (q : ConversationQuery) : Option ConversationChoice :=
  onlyOne q.adjacentOpenings <|> oneOrAmbiguous q.incompleteOpenings <|> onlyOne q.adjacentManaged <|>
    oneOrAmbiguous q.editMatches <|> oneOrAmbiguous q.replyMatches

def bySymbol (q : ConversationQuery) : ConversationChoice :=
  match q.exact with
  | [item] => { selected := some item }
  | item :: _ :: _ =>
    if q.action = some .full_close then { selected := some item } else { selected := none, ambiguous := true }
  | [] => (oneOrAmbiguous q.unresolved).getD { selected := none }

/-- An action-only update takes an implicit conversation only when there is
exactly one possible target. -/
def byElimination (q : ConversationQuery) : ConversationChoice :=
  match q.matchable with
  | [item] => if q.directionDiffers item then { selected := none } else { selected := some item }
  | items => { selected := none, ambiguous := 1 < items.length }

end ConversationQuery

def chooseConversation (q : ConversationQuery) : ConversationChoice :=
  q.byReference.getD (if q.blankSymbol then q.byElimination else q.bySymbol)

namespace ConversationQuery

variable {q : ConversationQuery} {item : ConversationCandidate}

/-- The conversation a reference decides for was found by one of five rules. -/
theorem byReference_eq_some {c : ConversationChoice} (h : q.byReference = some c) (hc : c.selected = some item) :
    q.adjacentOpenings = [item] ∨
    (onlyOne q.adjacentOpenings = none ∧ q.incompleteOpenings = [item]) ∨
    (onlyOne q.adjacentOpenings = none ∧ q.incompleteOpenings = [] ∧ q.adjacentManaged = [item]) ∨
    item ∈ q.editMatches ∨ item ∈ q.replyMatches := by
  simp only [byReference, Option.orElse_eq_orElse, Option.orElse_eq_or, Option.or_eq_some_iff,
    oneOrAmbiguous_eq_none] at h
  rcases h with h | ⟨h₁, h | ⟨h₂, h | ⟨-, h | ⟨-, h⟩⟩⟩⟩
  · exact .inl (onlyOne_eq_some h hc)
  · exact .inr (.inl ⟨h₁, oneOrAmbiguous_eq_some h hc⟩)
  · exact .inr (.inr (.inl ⟨h₁, h₂, onlyOne_eq_some h hc⟩))
  · exact .inr (.inr (.inr (.inl (by simp [oneOrAmbiguous_eq_some h hc]))))
  · exact .inr (.inr (.inr (.inr (by simp [oneOrAmbiguous_eq_some h hc]))))

theorem chooseConversation_of_byReference {c : ConversationChoice} (h : q.byReference = some c) :
    chooseConversation q = c := by
  rw [chooseConversation, h, Option.getD_some]

/-- Without a reference the choice is made among the matchable candidates. -/
theorem mem_matchable_of_selected (hr : q.byReference = none) (h : (chooseConversation q).selected = some item) :
    item ∈ q.matchable := by
  rw [chooseConversation, hr, Option.getD_none] at h
  split at h
  · unfold byElimination at h
    split at h
    · rename_i a ha
      split at h
      · cases h
      · cases h
        simp [ha]
    · cases h
  · unfold bySymbol at h
    split at h
    · rename_i a ha
      cases h
      exact List.mem_of_mem_filter (show item ∈ q.exact by simp [ha])
    · rename_i a b l ha
      split at h
      · cases h
        exact List.mem_of_mem_filter (show item ∈ q.exact by simp [ha])
      · cases h
    · rcases hu : oneOrAmbiguous q.unresolved with _ | c
      · simp [hu] at h
      · have hu := oneOrAmbiguous_eq_some hu (by simpa [hu] using h)
        exact List.mem_of_mem_filter (show item ∈ q.unresolved by simp [hu])

/-- Every rule looks among the eligible candidates. -/
theorem mem_eligible_of_selected (h : (chooseConversation q).selected = some item) : item ∈ q.eligible := by
  rcases hr : q.byReference with _ | c
  · have hm := mem_matchable_of_selected hr h
    unfold matchable at hm
    split at hm
    · exact List.mem_of_mem_filter hm
    · exact hm
  · rw [chooseConversation_of_byReference hr] at h
    have hfilter {p : ConversationCandidate → Bool} {b : Prop} [Decidable b]
        (hm : item ∈ if b then q.eligible.filter p else []) : item ∈ q.eligible := by
      split at hm
      · exact List.mem_of_mem_filter hm
      · cases hm
    rcases byReference_eq_some hr h with ho | ⟨-, hi⟩ | ⟨-, -, hm⟩ | he | he
    · exact hfilter (show item ∈ q.adjacentOpenings by simp [ho])
    · exact hfilter (show item ∈ q.incompleteOpenings by simp [hi])
    · exact hfilter (show item ∈ q.adjacentManaged by simp [hm])
    · exact hfilter he
    · exact List.mem_of_mem_filter he

/-- Only a candidate is chosen. -/
theorem chooseConversation_mem (h : (chooseConversation q).selected = some item) : item ∈ q.candidates := by
  have hm := mem_eligible_of_selected h
  rw [← List.mem_insertionSort fun a b : ConversationCandidate => b.updatedAt ≤ a.updatedAt]
  unfold eligible at hm
  split at hm
  · exact List.mem_of_mem_filter hm
  · split at hm
    · exact List.mem_of_mem_filter hm
    · exact hm

end ConversationQuery

end SignalSync
