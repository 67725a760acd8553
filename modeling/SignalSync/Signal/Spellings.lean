import SignalSync.Signal.Assembly
import SignalSync.Execution.Symbols
import Mathlib.Data.List.Forall2

/-!
# Spellings of a symbol

The matcher and the executor each have a `normalize_symbol`. The executor's knows aliases
and drops what is not a capital or a digit, the matcher's keeps every letter.

* `oneNotion_iff`: the choice of a conversation is the same for other spellings of the symbols
  iff the matcher's normalization is.
-/

namespace SignalSync

open Library

/-- The candidate without its symbol. -/
def ConversationCandidate.bare (item : ConversationCandidate) : ConversationCandidate := { item with symbol := none }

/-- The choice, whatever the symbol of the candidate. -/
def ConversationChoice.bare (choice : ConversationChoice) : ConversationChoice :=
  { choice with selected := choice.selected.map ConversationCandidate.bare }

section

variable (R : String → String → Prop)

/-- A symbol that is left, or spelt as `R` has it. -/
def Respelled (symbol symbol' : Option String) : Prop :=
  symbol' = symbol ∨ ∃ a b, symbol = some a ∧ symbol' = some b ∧ R a b

structure RespelledCandidate (item item' : ConversationCandidate) : Prop where
  bare : item'.bare = item.bare
  symbol : Respelled R item.symbol item'.symbol

variable [Unicode]

/-- Spellings that `R` replaces and that are one instrument to the executor. -/
def SameInstrument (a b : String) : Prop := R a b ∧ Symbols.normalizeSymbol a = Symbols.normalizeSymbol b

def ConversationQuery.respell (q : ConversationQuery) (symbol : Option String) (candidates : List ConversationCandidate) :
    ConversationQuery := { q with symbol, candidates }

/-- The choice is the same, however the symbols of the message and of the candidates are
spelt by `R`. -/
def OneNotion : Prop :=
  ∀ (q : ConversationQuery) (symbol : Option String) (candidates : List ConversationCandidate),
    Respelled (SameInstrument R) q.symbol symbol → List.Forall₂ (RespelledCandidate (SameInstrument R)) q.candidates candidates →
    (chooseConversation (q.respell symbol candidates)).bare = (chooseConversation q).bare

end

section

variable [Unicode]

/-- Candidates that differ in the spelling of the symbol only. -/
structure Alike (item item' : ConversationCandidate) : Prop where
  bare : item'.bare = item.bare
  symbol : normalizeSymbol item'.symbol = normalizeSymbol item.symbol

namespace Alike

variable {item item' : ConversationCandidate} {items items' : List ConversationCandidate}

theorem direction (h : Alike item item') : item'.direction = item.direction := congrArg (·.direction) h.bare

theorem updatedAt (h : Alike item item') : item'.updatedAt = item.updatedAt := congrArg (·.updatedAt) h.bare

theorem openingSubmitted (h : Alike item item') : item'.openingSubmitted = item.openingSubmitted :=
  congrArg (·.openingSubmitted) h.bare

theorem hasActiveTrade (h : Alike item item') : item'.hasActiveTrade = item.hasActiveTrade := congrArg (·.hasActiveTrade) h.bare

theorem lastMessageId (h : Alike item item') : item'.lastMessageId = item.lastMessageId := congrArg (·.lastMessageId) h.bare

theorem refersTo (h : Alike item item') : item'.refersTo = item.refersTo := by
  have hroot : item'.replyRootMessageId = item.replyRootMessageId := congrArg (·.replyRootMessageId) h.bare
  funext message
  rw [ConversationCandidate.refersTo, ConversationCandidate.refersTo, hroot, h.lastMessageId]

theorem filter {p p' : ConversationCandidate → Bool} (hp : ∀ {a a'}, Alike a a' → p' a' = p a)
    (h : List.Forall₂ Alike items items') : List.Forall₂ Alike (items.filter p) (items'.filter p') :=
  List.rel_filter (R := Alike) (p := p) (q := p') (fun _ _ h => Bool.eq_iff_iff.mp (hp h).symm) h

theorem insertionSort (h : List.Forall₂ Alike items items') :
    List.Forall₂ Alike (items.insertionSort fun a b => b.updatedAt ≤ a.updatedAt)
      (items'.insertionSort fun a b => b.updatedAt ≤ a.updatedAt) := by
  have hinsert {a a' : ConversationCandidate} (ha : Alike a a') {l l' : List ConversationCandidate} (h : List.Forall₂ Alike l l') :
      List.Forall₂ Alike (l.orderedInsert (fun a b => b.updatedAt ≤ a.updatedAt) a)
        (l'.orderedInsert (fun a b => b.updatedAt ≤ a.updatedAt) a') := by
    induction h with
    | nil => exact .cons ha .nil
    | cons hb h ih =>
      simp only [List.orderedInsert_cons, ha.updatedAt, hb.updatedAt]
      split
      · exact .cons ha (.cons hb h)
      · exact .cons hb ih
  induction h with
  | nil => exact .nil
  | cons ha h ih => exact hinsert ha ih

theorem onlyOne (h : List.Forall₂ Alike items items') :
    (onlyOne items').map ConversationChoice.bare = (SignalSync.onlyOne items).map ConversationChoice.bare := by
  match h with
  | .nil => rfl
  | .cons ha .nil => simp [SignalSync.onlyOne, ConversationChoice.bare, ha.bare]
  | .cons _ (.cons _ _) => rfl

theorem oneOrAmbiguous (h : List.Forall₂ Alike items items') :
    (oneOrAmbiguous items').map ConversationChoice.bare = (SignalSync.oneOrAmbiguous items).map ConversationChoice.bare := by
  match h with
  | .nil => rfl
  | .cons ha .nil => simp [SignalSync.oneOrAmbiguous, ConversationChoice.bare, ha.bare]
  | .cons _ (.cons _ _) => rfl

end Alike

namespace ConversationQuery

variable {q : ConversationQuery} {symbol : Option String} {candidates : List ConversationCandidate} {item item' : ConversationCandidate}

/-! ### The rules see the normalized symbols only -/

section

variable (hsymbol : normalizeSymbol symbol = normalizeSymbol q.symbol)

include hsymbol

theorem symbolMatches_respell (h : Alike item item') : (q.respell symbol candidates).symbolMatches item' = q.symbolMatches item := by
  simp only [symbolMatches, respell, h.symbol, hsymbol]

theorem blankSymbol_respell : (q.respell symbol candidates).blankSymbol = q.blankSymbol := by
  simp only [blankSymbol, respell, hsymbol]

end

theorem directionMatches_respell (h : Alike item item') :
    (q.respell symbol candidates).directionMatches item' = q.directionMatches item := by
  rw [directionMatches, directionMatches, h.direction]
  rfl

theorem directionDiffers_respell (h : Alike item item') :
    (q.respell symbol candidates).directionDiffers item' = q.directionDiffers item := by
  rw [directionDiffers, directionDiffers, h.direction]
  rfl

theorem follows_respell (h : Alike item item') : (q.respell symbol candidates).follows item' = q.follows item := by
  simp only [follows, respell, h.lastMessageId]

section

variable (hcandidates : List.Forall₂ Alike q.candidates candidates)

include hcandidates

theorem eligible_respell : List.Forall₂ Alike q.eligible (q.respell symbol candidates).eligible := by
  have hordered : List.Forall₂ Alike q.ordered (q.respell symbol candidates).ordered := Alike.insertionSort hcandidates
  have haction (p : SignalAction → Bool) : (q.respell symbol candidates).isAction p = q.isAction p := rfl
  simp only [eligible, haction]
  change List.Forall₂ Alike _ (if q.action = some .modify_sl_tp then _ else _)
  split
  · exact Alike.filter (fun h => by rw [h.openingSubmitted, h.hasActiveTrade]) hordered
  · split
    · exact Alike.filter Alike.hasActiveTrade hordered
    · exact hordered

/-- A rule that looks at some messages. -/
theorem filter_respell {c : Prop} [Decidable c] {p p' : ConversationCandidate → Bool} (hp : ∀ {a a'}, Alike a a' → p' a' = p a) :
    List.Forall₂ Alike (if c then q.eligible.filter p else [])
      (if c then (q.respell symbol candidates).eligible.filter p' else []) := by
  split
  · exact Alike.filter hp (eligible_respell hcandidates)
  · exact .nil

theorem matchable_respell : List.Forall₂ Alike q.matchable (q.respell symbol candidates).matchable := by
  simp only [matchable]
  change List.Forall₂ Alike _ (if q.isAction SignalAction.isOpen then _ else _)
  split
  · exact Alike.filter (fun h => by rw [h.openingSubmitted]) (eligible_respell hcandidates)
  · exact eligible_respell hcandidates

theorem byElimination_respell : (q.respell symbol candidates).byElimination.bare = q.byElimination.bare := by
  have hmatchable : List.Forall₂ Alike q.matchable (q.respell symbol candidates).matchable := matchable_respell hcandidates
  unfold byElimination
  match q.matchable, (q.respell symbol candidates).matchable, hmatchable with
  | _, _, .nil => rfl
  | _, _, .cons ha .nil =>
    simp only [directionDiffers_respell ha]
    split
    · rfl
    · simp [ConversationChoice.bare, ha.bare]
  | _, _, .cons _ (.cons _ _) => simp [ConversationChoice.bare]

variable (hsymbol : normalizeSymbol symbol = normalizeSymbol q.symbol)

include hsymbol

theorem byReference_respell :
    (q.respell symbol candidates).byReference.map ConversationChoice.bare = q.byReference.map ConversationChoice.bare := by
  have hopenings : List.Forall₂ Alike q.adjacentOpenings (q.respell symbol candidates).adjacentOpenings :=
    filter_respell hcandidates fun h => by rw [h.openingSubmitted, follows_respell h]
  have hincomplete : List.Forall₂ Alike q.incompleteOpenings (q.respell symbol candidates).incompleteOpenings := by
    refine filter_respell hcandidates fun h => ?_
    rw [h.openingSubmitted, symbolMatches_respell hsymbol h, directionMatches_respell h]
    simp only [respell, hsymbol]
  have hmanaged : List.Forall₂ Alike q.adjacentManaged (q.respell symbol candidates).adjacentManaged :=
    filter_respell hcandidates fun h => follows_respell h
  have hedit : List.Forall₂ Alike q.editMatches (q.respell symbol candidates).editMatches :=
    filter_respell hcandidates fun h => by rw [h.refersTo]; rfl
  have hreply : List.Forall₂ Alike q.replyMatches (q.respell symbol candidates).replyMatches :=
    Alike.filter (fun h => by rw [h.refersTo]; rfl) (eligible_respell hcandidates)
  simp only [byReference, Option.orElse_eq_orElse, Option.orElse_eq_or, Option.map_or]
  rw [Alike.onlyOne hopenings, Alike.oneOrAmbiguous hincomplete, Alike.onlyOne hmanaged, Alike.oneOrAmbiguous hedit,
    Alike.oneOrAmbiguous hreply]

theorem bySymbol_respell : (q.respell symbol candidates).bySymbol.bare = q.bySymbol.bare := by
  have hmatchable : List.Forall₂ Alike q.matchable (q.respell symbol candidates).matchable := matchable_respell hcandidates
  have hexact : List.Forall₂ Alike q.exact (q.respell symbol candidates).exact :=
    Alike.filter (fun h => by rw [symbolMatches_respell hsymbol h, directionMatches_respell h]) hmatchable
  have hunresolved : List.Forall₂ Alike q.unresolved (q.respell symbol candidates).unresolved :=
    Alike.filter (fun h => by rw [h.symbol, h.direction, directionMatches_respell h]) hmatchable
  unfold bySymbol
  match q.exact, (q.respell symbol candidates).exact, hexact with
  | _, _, .nil =>
    have hone := Alike.oneOrAmbiguous hunresolved
    cases hq : oneOrAmbiguous q.unresolved <;> cases hq' : oneOrAmbiguous (q.respell symbol candidates).unresolved <;>
      simp [hq, hq'] at hone
    · rfl
    · simpa using hone
  | _, _, .cons ha .nil => simp [ConversationChoice.bare, ha.bare]
  | _, _, .cons ha (.cons _ _) =>
    change ConversationChoice.bare (if q.action = some .full_close then _ else _) = _
    split
    · simp [ConversationChoice.bare, ha.bare]
    · rfl

/-- The choice depends on the normalized symbols only. -/
theorem chooseConversation_respell : (chooseConversation (q.respell symbol candidates)).bare = (chooseConversation q).bare := by
  have href := byReference_respell hcandidates hsymbol
  unfold chooseConversation
  rw [blankSymbol_respell hsymbol]
  cases hq : q.byReference <;> cases hq' : (q.respell symbol candidates).byReference <;> simp [hq, hq'] at href
  · rw [Option.getD_none, Option.getD_none]
    split
    · exact byElimination_respell hcandidates
    · exact bySymbol_respell hcandidates hsymbol
  · simpa using href

end

end ConversationQuery

/-! ## The matcher and the executor -/

/-- Two incomplete openings, each with one of two spellings. -/
def twoOpenings (a b : String) : List ConversationCandidate :=
  [{ id := 0, replyRootMessageId := none, lastMessageId := 1, symbol := some a, direction := none, updatedAt := 0 },
    { id := 1, replyRootMessageId := none, lastMessageId := 3, symbol := some b, direction := none, updatedAt := 0 }]

/-- A stop loss for a symbol. -/
def stopFor (symbol : String) (candidates : List ConversationCandidate) : ConversationQuery where
  replyToMessageId := none
  symbol := some symbol
  direction := none
  candidates := candidates
  action := some .modify_sl_tp

/-- The matcher tells the openings apart that are not one to it. -/
theorem chooseConversation_stopFor {a b : String} (h : normalizeSymbol (some a) ≠ normalizeSymbol (some b)) :
    (chooseConversation (stopFor b (twoOpenings a b))).bare ≠ (chooseConversation (stopFor a (twoOpenings a b))).bare := by
  have hincomplete (s : String) : (stopFor s (twoOpenings a b)).incompleteOpenings =
      (twoOpenings a b).filter fun item => normalizeSymbol (some s) = none || normalizeSymbol item.symbol = normalizeSymbol (some s) := by
    have heligible : (stopFor s (twoOpenings a b)).eligible = twoOpenings a b := by
      simp [ConversationQuery.eligible, ConversationQuery.ordered, stopFor, twoOpenings]
    have haction : (stopFor s (twoOpenings a b)).action = some .modify_sl_tp := rfl
    rw [ConversationQuery.incompleteOpenings, if_pos haction, heligible]
    refine List.filter_congr fun item hitem => ?_
    have hopen : item.openingSubmitted = false := by
      simp only [twoOpenings, List.mem_cons, List.not_mem_nil, or_false] at hitem
      rcases hitem with rfl | rfl <;> rfl
    rw [hopen, Bool.eq_iff_iff]
    simp only [ConversationQuery.symbolMatches, ConversationQuery.directionMatches, Bool.and_eq_true, Bool.or_eq_true, decide_eq_true_eq]
    simp [normalizeDirection, stopFor]
  have hchoice {s : String} {c : ConversationChoice} (hc : oneOrAmbiguous ((twoOpenings a b).filter fun item =>
      normalizeSymbol (some s) = none || normalizeSymbol item.symbol = normalizeSymbol (some s)) = some c) :
      chooseConversation (stopFor s (twoOpenings a b)) = c := by
    refine ConversationQuery.chooseConversation_of_byReference ?_
    have hadjacent : (stopFor s (twoOpenings a b)).adjacentOpenings = [] := by
      simp [ConversationQuery.adjacentOpenings, ConversationQuery.follows, stopFor]
    rw [ConversationQuery.byReference, hadjacent, hincomplete, hc]
    rfl
  by_cases ha : normalizeSymbol (some a) = none
  · have hb : normalizeSymbol (some b) ≠ none := ha ▸ h.symm
    rw [hchoice (s := a) (c := { selected := none, ambiguous := true }) (by simp [ha, twoOpenings, oneOrAmbiguous]),
      hchoice (s := b) (c := { selected := (twoOpenings a b)[1]? }) (by simp [hb, h, twoOpenings, oneOrAmbiguous])]
    simp [ConversationChoice.bare, twoOpenings]
  · rw [hchoice (s := a) (c := { selected := (twoOpenings a b)[0]? }) (by simp [ha, h.symm, twoOpenings, oneOrAmbiguous])]
    by_cases hb : normalizeSymbol (some b) = none
    · rw [hchoice (s := b) (c := { selected := none, ambiguous := true }) (by simp [hb, twoOpenings, oneOrAmbiguous])]
      simp [ConversationChoice.bare, twoOpenings]
    · rw [hchoice (s := b) (c := { selected := (twoOpenings a b)[1]? }) (by simp [hb, h, twoOpenings, oneOrAmbiguous])]
      simp [ConversationChoice.bare, ConversationCandidate.bare, twoOpenings]

/-- The choice is the same for other spellings iff the matcher's normalization is. -/
theorem oneNotion_iff (R : String → String → Prop) :
    OneNotion R ↔ ∀ a b, SameInstrument R a b → normalizeSymbol (some a) = normalizeSymbol (some b) := by
  constructor
  · intro h a b hab
    by_contra hne
    refine chooseConversation_stopFor hne ?_
    refine h (stopFor a (twoOpenings a b)) (some b) (twoOpenings a b) (.inr ⟨a, b, rfl, rfl, hab⟩) ?_
    exact List.forall₂_same.mpr fun item _ => ⟨rfl, .inl rfl⟩
  · intro h q symbol candidates hsymbol hcandidates
    have hsame {s s' : Option String} (hs : Respelled (SameInstrument R) s s') : normalizeSymbol s' = normalizeSymbol s := by
      rcases hs with rfl | ⟨a, b, rfl, rfl, hab⟩
      · rfl
      · exact (h a b hab).symm
    exact ConversationQuery.chooseConversation_respell (hcandidates.imp fun _ _ hitem => ⟨hitem.bare, hsame hitem.symbol⟩) (hsame hsymbol)

end

/-- Gold and XAUUSD are one to the executor and two to the matcher. -/
theorem gold_twoNotions : let _ := Unicode.ascii; ¬ OneNotion fun _ _ => True := by
  intro _ h
  have hsame : SameInstrument (fun _ _ => True) "GOLD" "XAUUSD" := ⟨trivial, by decide +kernel⟩
  have hchoice := h (stopFor "GOLD" (twoOpenings "GOLD" "XAUUSD")) (some "XAUUSD") (twoOpenings "GOLD" "XAUUSD")
    (.inr ⟨_, _, rfl, rfl, hsame⟩) (List.forall₂_same.mpr fun item _ => ⟨rfl, .inl rfl⟩)
  revert hchoice
  decide +kernel

end SignalSync
