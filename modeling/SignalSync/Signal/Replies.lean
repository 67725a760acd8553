import SignalSync.Signal.Assembly

/-!
# Explicit replies

A message that replies to one of the conversations it could go to. The rule about replies
comes after those about the place of the message and about incomplete openings, so the reply
decides only where these leave the message to it.

* `explicitReply_iff`: exactly then the conversation replied to is chosen.
-/

namespace SignalSync

open Library

variable [Unicode]

namespace ConversationQuery

variable {q : ConversationQuery} {item : ConversationCandidate}

/-- A message that is no edit replies to exactly one eligible conversation. -/
structure RepliesTo (q : ConversationQuery) (item : ConversationCandidate) : Prop where
  not_edit : q.isEdit = false
  matches_eq : q.replyMatches = [item]

/-- No rule that is tried before decides for another conversation: not the opening right before
the message, where there is one, nor else the incomplete openings that fit, nor, where there
are none, the trade right before it. -/
structure LeavesReply (q : ConversationQuery) (item : ConversationCandidate) : Prop where
  adjacent : ∀ other, q.adjacentOpenings = [other] → other = item
  incomplete : (∀ other, q.adjacentOpenings ≠ [other]) → ∀ other ∈ q.incompleteOpenings, other = item
  managed : (∀ other, q.adjacentOpenings ≠ [other]) → q.incompleteOpenings = [] →
    ∀ other, q.adjacentManaged = [other] → other = item

omit [Unicode] in
/-- The conversation replied to is among the candidates once. -/
theorem RepliesTo.count (h : q.RepliesTo item) : q.eligible.count item = 1 := by
  have hmem : item ∈ q.replyMatches := by
    rw [h.matches_eq]
    exact List.mem_singleton_self item
  have hcount : q.replyMatches.count item = q.eligible.count item := List.count_filter (List.mem_filter.mp hmem).2
  rw [← hcount, h.matches_eq, List.count_singleton_self]

theorem incompleteOpenings_sublist (q : ConversationQuery) : q.incompleteOpenings.Sublist q.eligible := by
  unfold incompleteOpenings
  split
  · exact List.filter_sublist
  · exact List.nil_sublist _

/-- Once no earlier rule decides, the reply does. -/
theorem RepliesTo.byReference (h : q.RepliesTo item) (ha : onlyOne q.adjacentOpenings = none) (hi : q.incompleteOpenings = [])
    (hm : onlyOne q.adjacentManaged = none) : q.byReference = some { selected := some item } := by
  have hedit : q.editMatches = [] := by
    unfold editMatches
    rw [h.not_edit]
    rfl
  unfold ConversationQuery.byReference
  rw [ha, hi, hm, hedit, h.matches_eq]
  rfl

/-- The conversation replied to is chosen exactly where the rules before leave the message to
the reply. -/
theorem explicitReply_iff (h : q.RepliesTo item) : chooseConversation q = { selected := some item } ↔ q.LeavesReply item := by
  rcases onlyOne_cases q.adjacentOpenings with ⟨a, ha, hone⟩ | ⟨hnone, hone⟩
  · have hchoice : chooseConversation q = { selected := some a } := by
      refine chooseConversation_of_byReference ?_
      unfold byReference
      rw [hone]
      rfl
    rw [hchoice]
    constructor
    · intro he
      cases he
      exact ⟨fun other ho => (List.singleton_inj.mp (ha.symm.trans ho)).symm, fun hn => absurd ha (hn _), fun hn => absurd ha (hn _)⟩
    · intro hl
      rw [hl.adjacent a ha]
  · have hadjacent : ∀ other, q.adjacentOpenings = [other] → other = item := fun other ho => absurd ho (hnone other)
    have hafter (c : ConversationChoice) (hc : oneOrAmbiguous q.incompleteOpenings = some c) : chooseConversation q = c := by
      refine chooseConversation_of_byReference ?_
      unfold byReference
      rw [hone, hc]
      rfl
    -- the incomplete openings that fit
    rcases hi : q.incompleteOpenings with _ | ⟨i, _ | ⟨j, rest⟩⟩
    · rcases onlyOne_cases q.adjacentManaged with ⟨m, hm, hmone⟩ | ⟨hmnone, hmone⟩
      · have hchoice : chooseConversation q = { selected := some m } := by
          refine chooseConversation_of_byReference ?_
          unfold byReference
          rw [hone, hi, hmone]
          rfl
        rw [hchoice]
        constructor
        · intro he
          cases he
          exact ⟨hadjacent, fun _ other ho => by simp [hi] at ho, fun _ _ other ho => (List.singleton_inj.mp (hm.symm.trans ho)).symm⟩
        · intro hl
          rw [hl.managed hnone hi m hm]
      · refine iff_of_true (chooseConversation_of_byReference (h.byReference hone hi hmone)) ?_
        exact ⟨hadjacent, fun _ other ho => by simp [hi] at ho, fun _ _ other ho => absurd ho (hmnone other)⟩
    · rw [hafter { selected := some i } (by rw [hi]; rfl)]
      constructor
      · intro he
        cases he
        exact ⟨hadjacent, fun _ other ho => by simpa [hi] using ho, fun _ hn => by simp [hi] at hn⟩
      · intro hl
        rw [hl.incomplete hnone i (by simp [hi])]
    · -- two of them are not both the one replied to
      rw [hafter { selected := none, ambiguous := true } (by rw [hi]; rfl)]
      refine iff_of_false (by simp) fun hl => ?_
      have hone : i = item := hl.incomplete hnone i (by simp [hi])
      have htwo : j = item := hl.incomplete hnone j (by simp [hi])
      have hle := (incompleteOpenings_sublist q).count_le item
      rw [h.count, hi, hone, htwo, List.count_cons_self, List.count_cons_self] at hle
      omega

/-! ## A stop loss in reply to a live trade -/

/-- A live trade of gold. -/
def goldTrade : ConversationCandidate where
  id := 1
  replyRootMessageId := some 20
  lastMessageId := 20
  symbol := some "XAUUSD"
  direction := some "sell"
  updatedAt := seconds 20
  openingSubmitted := true
  hasActiveTrade := true

/-- An incomplete opening of euro. -/
def euroOpening : ConversationCandidate where
  id := 2
  replyRootMessageId := some 30
  lastMessageId := 30
  symbol := some "EURUSD"
  direction := some "buy"
  updatedAt := seconds 30

/-- A live trade of euro, of older messages. -/
def euroTrade : ConversationCandidate :=
  { euroOpening with
    replyRootMessageId := some 25
    lastMessageId := 25
    openingSubmitted := true
    hasActiveTrade := true }

/-- `SL 2400`, in reply to the trade of gold. -/
def goldReply (candidates : List ConversationCandidate) : ConversationQuery where
  replyToMessageId := some 20
  symbol := none
  direction := none
  candidates := candidates
  action := some .modify_sl_tp
  messageId := some 31

omit [Unicode] in
theorem explicitReply_iff_goldTrade :
    let _ := Unicode.ascii
    let q := goldReply [goldTrade, euroTrade]
    chooseConversation q = { selected := some goldTrade } ∧ q.LeavesReply goldTrade := by
  intro _ q
  have hchosen : chooseConversation q = { selected := some goldTrade } := by decide +kernel
  exact ⟨hchosen, (explicitReply_iff ⟨rfl, by decide +kernel⟩).1 hchosen⟩

omit [Unicode] in
/-- The reply goes to the opening right before it. -/
theorem goldReply_to_euroOpening :
    let _ := Unicode.ascii
    (goldReply [goldTrade, euroOpening]).RepliesTo goldTrade ∧
      chooseConversation (goldReply [goldTrade, euroOpening]) = { selected := some euroOpening } := by
  intro _
  exact ⟨⟨rfl, by decide +kernel⟩, by decide +kernel⟩

end ConversationQuery

end SignalSync
