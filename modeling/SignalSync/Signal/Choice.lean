import SignalSync.Signal.Handler

/-!
# What a choice of a conversation may be

The rules of `choose_conversation` look at the candidates in the order of their updates,
so the order they come in is of no matter; each rule takes one of the candidates that are
eligible for the action, or none.

* `chooseConversation_perm`: the order of the candidates;
* `ambiguous_of_selected`: a choice is no ambiguity.
-/

namespace SignalSync

open Library

variable [Unicode]

namespace ConversationQuery

variable {q : ConversationQuery} {item : ConversationCandidate}

omit [Unicode] in
theorem ordered_perm {candidates : List ConversationCandidate} (hd : (q.candidates.map (·.updatedAt)).Nodup)
    (h : candidates.Perm q.candidates) : ({ q with candidates } : ConversationQuery).ordered = q.ordered := by
  let newest (a b : ConversationCandidate) : Prop := b.updatedAt ≤ a.updatedAt
  have hperm : (candidates.insertionSort newest).Perm (q.candidates.insertionSort newest) :=
    (List.perm_insertionSort ..).trans (h.trans (List.perm_insertionSort ..).symm)
  refine List.Perm.eq_of_pairwise (fun a b ha hb hab hba => ?_) (List.pairwise_insertionSort newest _)
    (List.pairwise_insertionSort newest _) hperm
  have ha : a ∈ q.candidates := h.subset ((List.mem_insertionSort newest).mp ha)
  have hb : b ∈ q.candidates := (List.mem_insertionSort newest).mp hb
  exact List.inj_on_of_nodup_map hd ha hb (le_antisymm hba hab)

/-- The choice is made among the sorted candidates. -/
theorem chooseConversation_perm {candidates : List ConversationCandidate} (hd : (q.candidates.map (·.updatedAt)).Nodup)
    (h : candidates.Perm q.candidates) : chooseConversation { q with candidates } = chooseConversation q := by
  have hordered := ordered_perm hd h
  have heligible : ({ q with candidates } : ConversationQuery).eligible = q.eligible := by
    unfold eligible
    rw [hordered]
    rfl
  have hmatchable : ({ q with candidates } : ConversationQuery).matchable = q.matchable := by
    unfold matchable
    rw [heligible]
    rfl
  simp only [chooseConversation, byReference, adjacentOpenings, incompleteOpenings, adjacentManaged, editMatches, replyMatches,
    bySymbol, byElimination, exact, unresolved, heligible, hmatchable]
  rfl

omit [Unicode] in
theorem ambiguous_of_onlyOne {items : List ConversationCandidate} {c : ConversationChoice} (h : onlyOne items = some c) :
    c.ambiguous = false := by
  match items with
  | [] | _ :: _ :: _ => cases h
  | [_] => cases h; rfl

omit [Unicode] in
theorem ambiguous_of_oneOrAmbiguous {items : List ConversationCandidate} {c : ConversationChoice} (h : oneOrAmbiguous items = some c)
    (hc : c.selected = some item) : c.ambiguous = false := by
  match items with
  | [] => cases h
  | [_] => cases h; rfl
  | _ :: _ :: _ => cases h; cases hc

/-- A selected conversation is never reported together with ambiguity. -/
theorem ambiguous_of_selected (h : (chooseConversation q).selected = some item) : (chooseConversation q).ambiguous = false := by
  cases hr : q.byReference with
  | some c =>
    rw [chooseConversation_of_byReference hr] at h ⊢
    simp only [byReference, Option.orElse_eq_orElse, Option.orElse_eq_or, Option.or_eq_some_iff] at hr
    rcases hr with hr | ⟨-, hr | ⟨-, hr | ⟨-, hr | ⟨-, hr⟩⟩⟩⟩
    · exact ambiguous_of_onlyOne hr
    · exact ambiguous_of_oneOrAmbiguous hr h
    · exact ambiguous_of_onlyOne hr
    · exact ambiguous_of_oneOrAmbiguous hr h
    · exact ambiguous_of_oneOrAmbiguous hr h
  | none =>
    simp only [chooseConversation, hr, Option.getD_none] at h ⊢
    split at h
    · rename_i hblank
      rw [if_pos hblank]
      unfold byElimination at h ⊢
      split at h
      · split <;> rfl
      · cases h
    · rename_i hblank
      rw [if_neg hblank]
      unfold bySymbol at h ⊢
      split at h
      · rfl
      · split at h
        · rename_i hclose
          rw [if_pos hclose]
        · cases h
      · cases hu : oneOrAmbiguous q.unresolved with
        | none => rfl
        | some c =>
          rw [hu] at h
          exact ambiguous_of_oneOrAmbiguous hu h

/-- What is managed is a conversation with an active trade, but for its levels. -/
theorem hasActiveTrade_of_selected (h : (chooseConversation q).selected = some item) (hm : q.isAction SignalAction.isManagement)
    (hlevels : q.action ≠ some .modify_sl_tp) : item.hasActiveTrade := by
  have heligible := mem_eligible_of_selected h
  rw [eligible, if_neg hlevels, if_pos hm] at heligible
  exact (List.mem_filter.mp heligible).2

/-- An opening that is no reply and no edit finds nothing by a reference. -/
theorem byReference_eq_none (ho : q.isAction SignalAction.isOpen) (hreply : q.replyToMessageId = none) (hedit : q.isEdit = false) :
    q.byReference = none := by
  obtain ⟨a, ha, hopen⟩ := (Option.any_eq_true _ _).mp ho
  have hlevels : q.action ≠ some .modify_sl_tp := by
    rw [ha]
    rintro ⟨⟩
    cases hopen
  have hmanage : ¬ q.isAction SignalAction.isManagement := by
    rw [isAction, ha]
    cases a <;> first | cases hopen; done | exact Bool.false_ne_true
  have hreplies : q.replyMatches = [] := by
    rw [replyMatches, hreply]
    exact List.filter_eq_nil_iff.mpr fun _ _ => Bool.false_ne_true
  simp only [byReference, adjacentOpenings, incompleteOpenings, adjacentManaged, editMatches, hreplies, hedit, if_neg hlevels,
    if_neg hmanage, Bool.false_eq_true, if_false]
  rfl

/-- Such an opening takes up no conversation whose opening has been submitted. -/
theorem openingSubmitted_of_selected (h : (chooseConversation q).selected = some item) (ho : q.isAction SignalAction.isOpen)
    (hreply : q.replyToMessageId = none) (hedit : q.isEdit = false) : item.openingSubmitted = false := by
  have hmatchable := mem_matchable_of_selected (byReference_eq_none ho hreply hedit) h
  rw [matchable, if_pos ho] at hmatchable
  simpa using (List.mem_filter.mp hmatchable).2

/-- **What a choice is.** It is a matter of the candidates and not of their order, it is one of them
without ambiguity, a management but for the levels finds an active trade, and an opening of its own
no conversation that has opened. -/
theorem chooseConversation_wellBehaved (q : ConversationQuery) (hd : (q.candidates.map (·.updatedAt)).Nodup) :
    (∀ candidates : List ConversationCandidate, candidates.Perm q.candidates →
      chooseConversation { q with candidates } = chooseConversation q) ∧
    ∀ item, (chooseConversation q).selected = some item →
      item ∈ q.candidates ∧ (chooseConversation q).ambiguous = false ∧
      (q.isAction SignalAction.isManagement → q.action ≠ some .modify_sl_tp → item.hasActiveTrade) ∧
      (q.isAction SignalAction.isOpen → q.replyToMessageId = none → q.isEdit = false → item.openingSubmitted = false) :=
  ⟨fun _ => chooseConversation_perm hd, fun _ h => ⟨chooseConversation_mem h, ambiguous_of_selected h,
    hasActiveTrade_of_selected h, openingSubmitted_of_selected h⟩⟩

/-- A new gold signal beside one that has opened and one that waits for its levels. -/
def goldQuery : ConversationQuery where
  replyToMessageId := none
  symbol := some "XAUUSD"
  direction := some "buy"
  candidates :=
    [{ id := 1, replyRootMessageId := none, lastMessageId := 11, symbol := some "XAUUSD", direction := some "buy",
       updatedAt := seconds 100, openingSubmitted := true, hasActiveTrade := true },
     { id := 2, replyRootMessageId := none, lastMessageId := 12, symbol := some "XAUUSD", direction := some "buy",
       updatedAt := seconds 101 }]
  action := some .open_market
  messageId := some 14

omit [Unicode] in
/-- It goes to the one that waits, in whatever order the two are read. -/
theorem chooseConversation_wellBehaved_goldQuery :
    let _ := Unicode.ascii
    ((chooseConversation goldQuery).selected.map (·.id) = some 2) ∧
      chooseConversation { goldQuery with candidates := goldQuery.candidates.reverse } = chooseConversation goldQuery := by
  intro _
  exact ⟨by decide +kernel,
    (chooseConversation_wellBehaved goldQuery (by decide)).1 _ (List.reverse_perm _)⟩

end ConversationQuery

end SignalSync
