import SignalSync.Signal.Assembly

/-!
# Conversations of different instruments

A message that names a symbol should not be taken into a conversation about
another one, nor into one of the opposite direction, unless it replies to or
edits a message of that conversation (`Isolated`). The rules that look at the
symbol keep this (`agrees_incomplete`, `agrees_exact`, `agrees_unresolved`,
`agrees_onlyCandidate`); the two rules that go by the message's place in the
channel do not look at it, and a symbol of which normalization leaves nothing
passes the others (`KeepsApart`).

* `isolated_iff_keepsApart`: exactly when the law holds;
* `euroStopLoss_not_isolated`: an input on which it does not.
-/

namespace SignalSync

open Library

variable [Unicode]

namespace ConversationQuery

/-- The message names a symbol and the conversation records another one. -/
def NamesOther (q : ConversationQuery) (item : ConversationCandidate) : Prop :=
  ∃ s t, q.symbol = some s ∧ item.symbol = some t ∧ normalizeSymbol (some s) ≠ normalizeSymbol (some t)

def OppositeDirection (q : ConversationQuery) (item : ConversationCandidate) : Prop :=
  (normalizeDirection q.direction = some "buy" ∧ normalizeDirection item.direction = some "sell") ∨
    (normalizeDirection q.direction = some "sell" ∧ normalizeDirection item.direction = some "buy")

/-- The message replies to, or edits, a message of the conversation. -/
def ExplicitReference (q : ConversationQuery) (item : ConversationCandidate) : Prop :=
  (q.isEdit ∧ q.messageId.any item.refersTo) ∨ q.replyToMessageId.any item.refersTo

def Agrees (q : ConversationQuery) (item : ConversationCandidate) : Prop :=
  q.NamesOther item ∨ q.OppositeDirection item → q.ExplicitReference item

/-- Whatever conversation is chosen, it is not about another symbol or the
opposite direction, unless the message refers to it. -/
def Isolated (q : ConversationQuery) : Prop :=
  ∀ item, (chooseConversation q).selected = some item → q.Agrees item

/-- The rules that do not compare the symbol pick a conversation that agrees. -/
structure KeepsApart (q : ConversationQuery) : Prop where
  /-- The incomplete opening just before an SL/TP line. -/
  opening : ∀ item, q.adjacentOpenings = [item] → q.Agrees item
  /-- The only incomplete opening, when the message's symbol is empty. -/
  incomplete : onlyOne q.adjacentOpenings = none → q.symbol = some "" →
    ∀ item, q.incompleteOpenings = [item] → q.Agrees item
  /-- The live conversation just before a management message. -/
  managed : onlyOne q.adjacentOpenings = none → q.incompleteOpenings = [] →
    ∀ item, q.adjacentManaged = [item] → q.Agrees item
  /-- The only conversation without a symbol, when its symbol is the empty text. -/
  unresolved : q.byReference = none → !q.blankSymbol → q.exact = [] →
    ∀ item, q.unresolved = [item] → item.symbol = some "" → q.Agrees item
  /-- The only candidate, when nothing is left of the message's symbol. -/
  eliminated : q.byReference = none → q.blankSymbol → q.symbol ≠ none →
    ∀ item, q.matchable = [item] → !q.directionDiffers item → q.Agrees item

variable {q : ConversationQuery} {item : ConversationCandidate}

/-! ### The rules that compare the symbol -/

theorem namesOther_symbol (h : q.NamesOther item) :
    q.symbol ≠ none ∧ normalizeSymbol item.symbol ≠ normalizeSymbol q.symbol := by
  obtain ⟨s, t, hs, ht, hne⟩ := h
  rw [hs, ht]
  exact ⟨nofun, hne.symm⟩

theorem not_opposite_of_directionMatches (h : q.directionMatches item) : ¬ q.OppositeDirection item := by
  simp only [directionMatches, Bool.or_eq_true, decide_eq_true_eq] at h
  rintro (⟨hq, hi⟩ | ⟨hq, hi⟩) <;> simp [hq, hi] at h

theorem not_opposite_of_directionless (h : normalizeDirection item.direction = none) :
    ¬ q.OppositeDirection item := by
  rintro (⟨-, hi⟩ | ⟨-, hi⟩) <;> simp [hi] at h

theorem not_opposite_of_not_differs (h : q.directionDiffers item = false) : ¬ q.OppositeDirection item := by
  simp only [directionDiffers, Bool.and_eq_false_iff, Bool.not_eq_false', Bool.or_eq_true,
    decide_eq_true_eq, decide_eq_false_iff_not, not_not] at h
  rintro (⟨hq, hi⟩ | ⟨hq, hi⟩) <;> simp [hq, hi] at h

theorem agrees_of (hs : ¬ q.NamesOther item) (hd : ¬ q.OppositeDirection item) : q.Agrees item :=
  fun h => (h.elim hs hd).elim

theorem normalizeSymbol_eq_none {value : Option String} :
    normalizeSymbol value = none ↔ value = none ∨ value = some "" := by
  cases value with
  | none => simp [normalizeSymbol]
  | some text => by_cases h : text = "" <;> simp [normalizeSymbol, h]

/-- An incomplete opening taken for a symbol that is not the empty text. -/
theorem agrees_incomplete (h : item ∈ q.incompleteOpenings) (hs : q.symbol ≠ some "") : q.Agrees item := by
  unfold incompleteOpenings at h
  split at h
  · simp only [List.mem_filter, Bool.and_eq_true, Bool.or_eq_true, decide_eq_true_eq, symbolMatches] at h
    obtain ⟨-, ⟨-, hsym⟩, hdir⟩ := h
    refine agrees_of (fun hn => ?_) (not_opposite_of_directionMatches hdir)
    obtain ⟨hne, hother⟩ := namesOther_symbol hn
    rcases hsym with hnone | heq
    · exact (normalizeSymbol_eq_none.1 hnone).elim hne hs
    · exact hother heq
  · cases h

theorem agrees_exact (h : item ∈ q.exact) : q.Agrees item := by
  simp only [exact, List.mem_filter, Bool.and_eq_true, symbolMatches, decide_eq_true_eq] at h
  exact agrees_of (fun hn => (namesOther_symbol hn).2 h.2.1) (not_opposite_of_directionMatches h.2.2)

/-- A conversation without a symbol, taken for any symbol. -/
theorem agrees_unresolved (h : item ∈ q.unresolved) (hs : item.symbol ≠ some "") : q.Agrees item := by
  simp only [unresolved, List.mem_filter, Bool.and_eq_true, Bool.or_eq_true, decide_eq_true_eq] at h
  obtain ⟨-, hsym, hdir⟩ := h
  refine agrees_of (fun hn => ?_) (hdir.elim not_opposite_of_directionMatches not_opposite_of_directionless)
  obtain ⟨-, t, -, ht, -⟩ := hn
  rcases normalizeSymbol_eq_none.1 hsym with hnone | hempty
  · simp [hnone] at ht
  · exact hs hempty

theorem agrees_onlyCandidate (hs : q.symbol = none) (hd : q.directionDiffers item = false) : q.Agrees item :=
  agrees_of (fun hn => (namesOther_symbol hn).1 hs) (not_opposite_of_not_differs hd)

theorem agrees_editMatch (h : item ∈ q.editMatches) : q.Agrees item := by
  unfold editMatches at h
  split at h
  · rename_i he
    exact fun _ => .inl ⟨he, (List.mem_filter.mp h).2⟩
  · cases h

theorem agrees_replyMatch (h : item ∈ q.replyMatches) : q.Agrees item :=
  fun _ => .inr (List.mem_filter.mp h).2

/-! ### The law -/

theorem agrees_of_byReference (h : q.KeepsApart) {c : ConversationChoice} (hr : q.byReference = some c)
    (hc : c.selected = some item) : q.Agrees item := by
  rcases byReference_eq_some hr hc with ho | ⟨ho, hi⟩ | ⟨ho, hi, hm⟩ | he | he
  · exact h.opening item ho
  · by_cases hs : q.symbol = some ""
    · exact h.incomplete ho hs item hi
    · exact agrees_incomplete (by simp [hi]) hs
  · exact h.managed ho hi item hm
  · exact agrees_editMatch he
  · exact agrees_replyMatch he

theorem agrees_of_bySymbol (h : q.KeepsApart) (hr : q.byReference = none) (hb : !q.blankSymbol)
    (hc : q.bySymbol.selected = some item) : q.Agrees item := by
  unfold bySymbol at hc
  split at hc
  · rename_i a he
    cases hc
    exact agrees_exact (by simp [he])
  · rename_i a b l he
    split at hc
    · cases hc
      exact agrees_exact (by simp [he])
    · cases hc
  · rename_i he
    rcases hu : oneOrAmbiguous q.unresolved with _ | c
    · simp [hu] at hc
    · have hu := oneOrAmbiguous_eq_some hu (by simpa [hu] using hc)
      by_cases hs : item.symbol = some ""
      · exact h.unresolved hr hb he item hu hs
      · exact agrees_unresolved (by simp [hu]) hs

theorem agrees_of_byElimination (h : q.KeepsApart) (hr : q.byReference = none) (hb : q.blankSymbol)
    (hc : q.byElimination.selected = some item) : q.Agrees item := by
  unfold byElimination at hc
  split at hc
  · rename_i a ha
    split at hc
    · cases hc
    · rename_i hd
      cases hc
      by_cases hs : q.symbol = none
      · exact agrees_onlyCandidate hs (by simpa using hd)
      · exact h.eliminated hr hb hs _ ha (by simpa using hd)
  · cases hc

/-- **Symbol isolation.** The law holds exactly where the rules that do not
compare the symbol keep it. -/
theorem isolated_iff_keepsApart (q : ConversationQuery) : q.Isolated ↔ q.KeepsApart := by
  constructor
  · intro h
    have href (c : ConversationChoice) (hr : q.byReference = some c) (item) (hc : c.selected = some item) :
        q.Agrees item := h item (by rw [chooseConversation_of_byReference hr, hc])
    refine ⟨fun item ho => ?_, fun ho _ item hi => ?_, fun ho hi item hm => ?_,
      fun hr hb he item hu _ => h item ?_, fun hr hb _ item hm hd => h item ?_⟩
    · exact href { selected := some item } (by simp [byReference, ho, onlyOne]) item rfl
    · exact href { selected := some item } (by simp [byReference, ho, hi, oneOrAmbiguous]) item rfl
    · exact href { selected := some item } (by simp [byReference, ho, hi, oneOrAmbiguous, onlyOne_singleton hm]) item rfl
    · simp [chooseConversation, hr, (by simpa using hb : q.blankSymbol = false), bySymbol, he, hu, oneOrAmbiguous]
    · simp [chooseConversation, hr, hb, byElimination, hm, (by simpa using hd : q.directionDiffers item = false)]
  · intro h item hc
    rcases hr : q.byReference with _ | c
    · simp only [chooseConversation, hr, Option.getD_none] at hc
      split at hc
      · exact agrees_of_byElimination h hr (by assumption) hc
      · rename_i hb
        exact agrees_of_bySymbol h hr (by simpa using hb) hc
    · rw [chooseConversation_of_byReference hr] at hc
      exact agrees_of_byReference h hr hc

/-- A live gold trade whose last message is number 10. -/
def goldConversation : ConversationCandidate where
  id := 1
  replyRootMessageId := some 10
  lastMessageId := 10
  symbol := some "XAUUSD"
  direction := some "buy"
  updatedAt := 0
  openingSubmitted := true
  hasActiveTrade := true

/-- Message 11, `EURUSD SL 1.0750`: no reply and no edit. -/
def euroStopLoss : ConversationQuery where
  replyToMessageId := none
  symbol := some "EURUSD"
  direction := none
  candidates := [goldConversation]
  action := some .modify_sl_tp
  messageId := some 11

omit [Unicode] in
/-- The stop loss of a euro trade is taken into the conversation about gold,
which only happens to be the previous message. -/
theorem euroStopLoss_not_isolated : ¬ @Isolated Unicode.ascii euroStopLoss := by
  let _ := Unicode.ascii
  intro h
  have hc : (chooseConversation euroStopLoss).selected = some goldConversation := by decide
  rcases h goldConversation hc (.inl ⟨"EURUSD", "XAUUSD", rfl, rfl, by decide⟩) with ⟨he, -⟩ | hr
  · cases he
  · cases hr

end ConversationQuery

end SignalSync
