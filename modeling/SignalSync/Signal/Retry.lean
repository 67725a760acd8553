import SignalSync.Library.Except
import SignalSync.Signal.Loop

/-!
# Redelivery after a failure

A run of the handler that fails rolls its database back, but the duplicate keys
it has set in Redis stay (`afterFailures`). The redelivery starts from the same
database and those keys, at a later time. On a route it can go wrong in either way:
the signal is held back as a duplicate of itself, or has grown too old; and a
duplicate that was held back before may be let through (`TreatedAlike`).

* `prepare_later`, `createdIntents_later`: what another time changes in a run;
* `sameIntents_iff`: the redelivery gives every route exactly the intents of an
  uninterrupted run at the first time iff every route is treated alike.
-/

namespace SignalSync

open Library

variable [Unicode]

/-- The duplicate keys after some runs on the same message have failed, each at
its own time and after its own number of effects. -/
def afterFailures (event : MessageEvent) (db : Database) (keys : SemanticKeys) (failures : List (SignalEnv × Nat)) :
    SemanticKeys :=
  failures.foldl (fun keys (env, n) => (signalHandler env event db keys).failAt n keys) keys

/-- The row, made at another time. -/
def madeAt (now : Time) (e : Uuid × TradeIntent) : Uuid × TradeIntent := (e.1, { e.2 with createdAt := now })

/-- Every route has the same intents, but for the times they were made. -/
def SameIntents (db₁ db₂ : Database) : Prop :=
  ∀ routeId, (db₁.intentsOf routeId).map (madeAt 0) = (db₂.intentsOf routeId).map (madeAt 0)

/-- The age of a message, in seconds. -/
def MessageEvent.age (event : MessageEvent) (now : Time) : ℚ := ((now - event.occurredAt : Nat) : ℚ) / 1000000

/-- By then the signal is too old for an entry at the market. -/
def RouteSignal.TooOld (event : MessageEvent) (now : Time) (s : RouteSignal) : Prop :=
  s.action = .open_market ∧ s.policy.marketSignalMaxAgeSeconds < event.age now

instance (event : MessageEvent) (now : Time) (s : RouteSignal) : Decidable (s.TooOld event now) :=
  inferInstanceAs (Decidable (_ ∧ _))

/-- If the route is to get intents, they are held back as duplicates iff at the later time, and
with the later keys, they are held back or come too late. -/
def TreatedAlike (env : SignalEnv) (later : Time) (event : MessageEvent) (loop : RouteLoop) (keys keys' : SemanticKeys)
    (e : Uuid × CopyRoute) : Prop :=
  (loop.view env e).isPaused = false → ∀ s, loop.signal env event e = .ok s →
    createdIntents env event loop.conversationId loop.conversation e.1 e.2 (loop.view env e) s ≠ [] →
      (s.heldBack e.1 e.2 (keys.alive env.now) ↔ s.TooOld event later ∨ s.heldBack e.1 e.2 (keys'.alive later))

instance (env : SignalEnv) (later : Time) (event : MessageEvent) (loop : RouteLoop) (keys keys' : SemanticKeys) (e : Uuid × CopyRoute) :
    Decidable (TreatedAlike env later event loop keys keys' e) := by
  delta TreatedAlike
  infer_instance

/-- The loop with other times of conversations. -/
def RouteLoop.redated (loop : RouteLoop) (updatedAt : Time) (conversations : Table Uuid SignalConversation) : RouteLoop :=
  { loop with conversation := { loop.conversation with updatedAt }, db := { loop.db with conversations } }

/-! ## A run at another time -/

section

variable {env : SignalEnv} {event : MessageEvent} {later : Time} {db : Database} {parsed : AiAction} {update : Context}
  {conversationId : Uuid} {conversation : SignalConversation} {routeId : Uuid} {route : CopyRoute} {view : RouteView} {s : RouteSignal}

omit [Unicode] in
theorem mergeConversation_later (env : SignalEnv) (event : MessageEvent) (later updated : Time) (update : Context)
    (row : SignalConversation) : ∃ updatedAt, mergeConversation { env with now := later } event update { row with updatedAt := updated } =
      { mergeConversation env event update row with updatedAt } := by
  obtain ⟨updatedAt, h⟩ := mergeConversation_eq { env with now := later } event update { row with updatedAt := updated }
  obtain ⟨_, h'⟩ := mergeConversation_eq env event update row
  exact ⟨updatedAt, by rw [h, h']⟩

omit [Unicode] in
theorem openConversation_later (env : SignalEnv) (event : MessageEvent) (db : Database) (later : Time) (parsed : AiAction) (choice : Option ConversationCandidate) :
    (∃ e, openConversation env event db parsed choice = .error e ∧
        openConversation { env with now := later } event db parsed choice = .error e) ∨
      ∃ id conversation update conversations updatedAt conversations',
        openConversation env event db parsed choice = .ok (id, conversation, update, { db with conversations }) ∧
        openConversation { env with now := later } event db parsed choice =
          .ok (id, { conversation with updatedAt }, update, { db with conversations := conversations' }) := by
  unfold openConversation
  split
  · rename_i id row hrow
    obtain ⟨updatedAt, h⟩ := mergeConversation_later env event later row.updatedAt (parsedUpdate event parsed choice row) row
    exact .inr ⟨_, _, _, _, updatedAt, _, rfl, by rw [← h]⟩
  · have hupdate : parsedUpdate event parsed choice (newConversation { env with now := later } event parsed) =
        parsedUpdate event parsed choice (newConversation env event parsed) := rfl
    obtain ⟨updatedAt, h⟩ := mergeConversation_later env event later later
      (parsedUpdate event parsed choice (newConversation env event parsed)) (newConversation env event parsed)
    have h : mergeConversation { env with now := later } event (parsedUpdate event parsed choice (newConversation env event parsed))
        (newConversation { env with now := later } event parsed) = _ := h
    simp only [hupdate, h]
    split
    · exact .inl ⟨_, rfl, rfl⟩
    · rcases hpush : db.conversations.push (.conversation env.run) (mergeConversation env event
        (parsedUpdate event parsed choice (newConversation env event parsed)) (newConversation env event parsed)) with _ | conversations
      · exact .inl ⟨_, rfl, by rw [Table.push_eq_none.2 (Table.push_eq_none.1 hpush)]⟩
      · obtain ⟨conversations', hpush'⟩ : ∃ conversations', db.conversations.push (.conversation env.run)
            { mergeConversation env event (parsedUpdate event parsed choice (newConversation env event parsed))
                (newConversation env event parsed) with updatedAt } = some conversations' := by
          rw [← Option.isSome_iff_exists, Option.isSome_iff_ne_none]
          intro hnone
          rw [Table.push_eq_none.2 (Table.push_eq_none.1 hnone)] at hpush
          cases hpush
        exact .inr ⟨_, _, _, _, updatedAt, conversations', rfl, by rw [hpush']⟩

/-- At another time a run ends before the loop as it would have, or gets to the same loop, but
for the times of conversations. -/
theorem prepare_later (env : SignalEnv) (event : MessageEvent) (db : Database) (later : Time) :
    (∃ run, prepare env event db = .error run ∧ prepare { env with now := later } event db = .error run) ∨
      ∃ loop updatedAt conversations, prepare env event db = .ok loop ∧
        prepare { env with now := later } event db = .ok (loop.redated updatedAt conversations) := by
  unfold prepare
  split_ifs
  · exact .inl ⟨_, rfl, rfl⟩
  · exact .inl ⟨_, rfl, rfl⟩
  · exact .inl ⟨_, rfl, rfl⟩
  · split
    · exact .inl ⟨_, rfl, rfl⟩
    · rename_i source _
      split_ifs
      · exact .inl ⟨_, rfl, rfl⟩
      · unfold startLoop
        simp only
        split
        · exact .inl ⟨_, rfl, rfl⟩
        · rename_i parsed _
          split_ifs
          · exact .inl ⟨_, rfl, rfl⟩
          · exact .inl ⟨_, rfl, rfl⟩
          · rcases openConversation_later env event db later parsed
              (findConversation event db (db.acceptingRoutes source event) parsed).selected with
              ⟨e, h, h'⟩ | ⟨id, conversation, update, conversations, updatedAt, conversations', h, h'⟩
            · exact .inl ⟨_, by rw [h], by rw [h']⟩
            · refine .inr ⟨_, updatedAt, conversations', by rw [h], ?_⟩
              rw [h']
              rfl

/-- The signal as it is read at another time. -/
def RouteSignal.readAt (event : MessageEvent) (later deadline : Time) (s : RouteSignal) : RouteSignal :=
  { s with
    assembly := { s.assembly with assemblyDeadline := deadline }
    signal := { s.signal with ageSeconds := event.age later } }

omit [Unicode] in
theorem routeSignal_later (env : SignalEnv) (event : MessageEvent) (parsed : AiAction) (update : Context) (conversationId : Uuid)
    (conversation : SignalConversation) (routeId : Uuid) (route : CopyRoute) (view : RouteView) (later updatedAt : Time) :
    (∃ x, routeSignal env event parsed update conversationId conversation routeId route view = .error x ∧
        routeSignal { env with now := later } event parsed update conversationId { conversation with updatedAt } routeId route view =
          .error x) ∨
      ∃ s deadline, routeSignal env event parsed update conversationId conversation routeId route view = .ok s ∧
        routeSignal { env with now := later } event parsed update conversationId { conversation with updatedAt } routeId route view =
          .ok (s.readAt event later deadline) := by
  obtain ⟨id, current, isNew, deadline, hc, hc'⟩ : ∃ id current isNew deadline,
      currentAssembly env conversationId conversation routeId route view = (id, current, isNew) ∧
      currentAssembly { env with now := later } conversationId { conversation with updatedAt } routeId route view =
        (id, { current with assemblyDeadline := deadline }, isNew) := by
    unfold currentAssembly
    split
    · exact ⟨_, _, _, _, rfl, rfl⟩
    · exact ⟨_, _, _, _, rfl, rfl⟩
  have hm : mergeMessage event update { current with assemblyDeadline := deadline } =
      { mergeMessage event update current with assemblyDeadline := deadline } := rfl
  simp only [routeSignal, hc, hc', hm]
  split
  · exact .inl ⟨_, rfl, rfl⟩
  · split
    · exact .inl ⟨_, rfl, rfl⟩
    · exact .inl ⟨_, rfl, rfl⟩
    · split
      · exact .inl ⟨_, rfl, rfl⟩
      · exact .inr ⟨_, deadline, rfl, rfl⟩

omit [Unicode] in
/-- The age of a signal only counts against an entry at the market. -/
theorem accepted_later {signal : ParsedSignal} {policy : RouteExecutionPolicy} {age : ℚ} (h : signal.ageSeconds ≤ age) :
    (validateSignal { signal with ageSeconds := age } policy).accepted ↔
      (validateSignal signal policy).accepted ∧ ¬(signal.action = .open_market ∧ policy.marketFreshnessSeconds < age) := by
  simp only [validateSignal_accepted, ParsedSignal.checks, List.forall_mem_cons, Bool.and_eq_false_iff, decide_eq_false_iff_not,
    not_and_or]
  constructor
  · rintro ⟨h₁, h₂, h₃, h₄, h₅, h₆, h₇, h₈, hage, hrest⟩
    exact ⟨⟨h₁, h₂, h₃, h₄, h₅, h₆, h₇, h₈, hage.imp_right fun hnot hold => hnot (hold.trans_le h), hrest⟩, hage⟩
  · rintro ⟨⟨h₁, h₂, h₃, h₄, h₅, h₆, h₇, h₈, -, hrest⟩, hage⟩
    exact ⟨h₁, h₂, h₃, h₄, h₅, h₆, h₇, h₈, hage, hrest⟩

omit [Unicode] in
/-- Rows that clash with the same rows are inserted alike. -/
theorem insertable_map {f : Uuid × TradeIntent → Uuid × TradeIntent} (hf : ∀ a b, intentsClash (f a) (f b) = intentsClash a b)
    {taken taken' rows : List (Uuid × TradeIntent)} (h : ∀ c, taken'.any (intentsClash (f c)) = taken.any (intentsClash c)) :
    insertable taken' (rows.map f) = (insertable taken rows).map f := by
  induction rows generalizing taken taken' with
  | nil => rfl
  | cons c rows ih =>
    rw [List.map_cons, insertable, insertable, h c]
    split
    · exact ih h
    · rw [List.map_cons, ih fun a => ?_]
      rw [List.any_cons, List.any_cons, hf, h a]

omit [Unicode] in
/-- A later run makes the intents at its own time. -/
theorem newIntents_later (env : SignalEnv) (event : MessageEvent) (conversationId routeId : Uuid) (route : CopyRoute) (view : RouteView)
    (s : RouteSignal) (targets : List (Option CopiedTrade)) (later deadline : Time) :
    newIntents { env with now := later } event conversationId routeId route view (s.readAt event later deadline) targets =
      (newIntents env event conversationId routeId route view s targets).map (madeAt later) := by
  have hcandidates (legs : List (Option TakeProfitLeg)) :
      candidateIntents { env with now := later } event s.assembly.context s.action s.revision conversationId routeId route legs targets =
        (candidateIntents env event s.assembly.context s.action s.revision conversationId routeId route legs targets).map
          (madeAt later) := by
    simp only [candidateIntents, List.map_flatMap, List.map_map]
    rfl
  have hfilter (legs : List (Option TakeProfitLeg)) :=
    (congrArg (List.filter fun i : Uuid × TradeIntent => i.1 ∉ view.intentsTaken) (hcandidates legs)).trans List.filter_map
  exact (congrArg (insertable view.intents) (hfilter _)).trans (insertable_map (f := madeAt later) (fun _ _ => rfl) fun _ => rfl)

/-- The limits and the open trades are the same at another time, and the age tells only against
an entry at the market. -/
theorem routeVerdict_later (hs : routeSignal env event parsed update conversationId conversation routeId route view = .ok s)
    (hlater : env.now ≤ later) (updatedAt deadline : Time) :
    routeVerdict { env with now := later } { conversation with updatedAt } routeId route view (s.readAt event later deadline) =
      if s.TooOld event later then .refused else routeVerdict env conversation routeId route view s := by
  have hsignal := routeSignal_signal hs
  have hage : s.signal.ageSeconds ≤ event.age later := by
    rw [hsignal]
    show ((env.now - event.occurredAt : Nat) : ℚ) / 1000000 ≤ ((later - event.occurredAt : Nat) : ℚ) / 1000000
    gcongr
  have hold : s.TooOld event later ↔ s.signal.action = .open_market ∧
      (routeExecutionPolicy env route s.policy).marketFreshnessSeconds < event.age later := by
    rw [hsignal]
    rfl
  have haccepted : (validateSignal (s.readAt event later deadline).signal
      (routeExecutionPolicy { env with now := later } route s.policy)).accepted ↔
        (validateSignal s.signal (routeExecutionPolicy env route s.policy)).accepted ∧ ¬ s.TooOld event later := by
    rw [hold]
    exact accepted_later hage
  split_ifs with hstale
  · have hrefused : (validateSignal (s.readAt event later deadline).signal
        (routeExecutionPolicy { env with now := later } route s.policy)).accepted = false :=
      Bool.eq_false_iff.2 fun h => (haccepted.1 h).2 hstale
    unfold routeVerdict
    exact if_pos (by rw [← Bool.not_false, ← hrefused]; rfl)
  · have hsame : (validateSignal (s.readAt event later deadline).signal
        (routeExecutionPolicy { env with now := later } route s.policy)).accepted =
          (validateSignal s.signal (routeExecutionPolicy env route s.policy)).accepted :=
      Bool.eq_iff_iff.2 (haccepted.trans (and_iff_left hstale))
    unfold routeVerdict
    rw [← hsame]
    rfl

/-- The intents of a later run, but for their times. -/
theorem createdIntents_later (hs : routeSignal env event parsed update conversationId conversation routeId route view = .ok s)
    (hlater : env.now ≤ later) (updatedAt deadline : Time) :
    (createdIntents { env with now := later } event conversationId { conversation with updatedAt } routeId route view
        (s.readAt event later deadline)).map (madeAt 0) =
      if s.TooOld event later then []
      else (createdIntents env event conversationId conversation routeId route view s).map (madeAt 0) := by
  unfold createdIntents
  rw [routeVerdict_later hs hlater]
  split_ifs with hstale
  · rfl
  · cases routeVerdict env conversation routeId route view s with
    | refused => rfl
    | limited => rfl
    | proceed targets =>
      simp only
      split_ifs
      · rfl
      · rw [newIntents_later, List.map_map]
        rfl

end

/-! ## The redelivery -/

section

variable {env : SignalEnv} {event : MessageEvent} {later : Time} {loop : RouteLoop} {keys keys' : SemanticKeys}
  {e : Uuid × CopyRoute} {db : Database}

omit [Unicode] in
theorem signal_later (env : SignalEnv) (event : MessageEvent) (later : Time) (loop : RouteLoop) (e : Uuid × CopyRoute) (updatedAt : Time)
    (conversations : Table Uuid SignalConversation) :
    (∃ x, loop.signal env event e = .error x ∧
        (loop.redated updatedAt conversations).signal { env with now := later } event e = .error x) ∨
      ∃ s deadline, loop.signal env event e = .ok s ∧
        (loop.redated updatedAt conversations).signal { env with now := later } event e = .ok (s.readAt event later deadline) :=
  routeSignal_later env event loop.parsed loop.update loop.conversationId loop.conversation e.1 e.2 (loop.view env e) later updatedAt

theorem routeOutcome_paused (hp : (loop.view env e).isPaused) : routeOutcome env event loop keys e = .ok [] := if_pos hp

theorem routeOutcome_error (hp : (loop.view env e).isPaused = false) {x : SignalError} (hs : loop.signal env event e = .error x) :
    routeOutcome env event loop keys e = .error x := by
  have hplan : loop.planFor env event e keys = .error x := congrArg (Except.map _) hs
  refine (if_neg (by simpa [RouteLoop.view] using hp)).trans ?_
  exact congrArg (Except.map RoutePlan.intents) hplan

theorem routeOutcome_ok (hp : (loop.view env e).isPaused = false) {s : RouteSignal} (hs : loop.signal env event e = .ok s) :
    routeOutcome env event loop keys e = .ok (if s.heldBack e.1 e.2 (keys.alive env.now) then []
      else createdIntents env event loop.conversationId loop.conversation e.1 e.2 (loop.view env e) s) := by
  have hplan : loop.planFor env event e keys = .ok (planSignal env event loop.conversationId loop.conversation e.1 e.2
      (loop.view env e) (keys.alive env.now) s) := congrArg (Except.map _) hs
  refine (if_neg (by simpa [RouteLoop.view] using hp)).trans ?_
  exact (congrArg (Except.map RoutePlan.intents) hplan).trans (congrArg Except.ok planSignal_intents)

/-- The outcome of a route at a later time and with other keys. -/
theorem routeOutcome_later (keys : SemanticKeys) (hlater : env.now ≤ later) {updatedAt : Time} {conversations : Table Uuid SignalConversation}
    {out' : List (Uuid × TradeIntent)}
    (h : routeOutcome { env with now := later } event (loop.redated updatedAt conversations) keys' e = .ok out') :
    ∃ out, routeOutcome env event loop keys e = .ok out ∧
      (out'.map (madeAt 0) = out.map (madeAt 0) ↔ TreatedAlike env later event loop keys keys' e) := by
  cases hp : (loop.view env e).isPaused with
  | true =>
    have hpaused : routeOutcome { env with now := later } event (loop.redated updatedAt conversations) keys' e = .ok [] :=
      routeOutcome_paused hp
    cases hpaused.symm.trans h
    exact ⟨[], routeOutcome_paused hp, iff_of_true rfl fun hnot => by rw [hp] at hnot; cases hnot⟩
  | false =>
    have hp' : ((loop.redated updatedAt conversations).view { env with now := later } e).isPaused = false := hp
    rcases signal_later env event later loop e updatedAt conversations with ⟨x, -, hs'⟩ | ⟨s, deadline, hs, hs'⟩
    · have herror : routeOutcome { env with now := later } event (loop.redated updatedAt conversations) keys' e = .error x :=
        routeOutcome_error hp' hs'
      cases herror.symm.trans h
    · have hout : routeOutcome { env with now := later } event (loop.redated updatedAt conversations) keys' e = .ok _ :=
        routeOutcome_ok hp' hs'
      cases hout.symm.trans h
      refine ⟨_, routeOutcome_ok hp hs, ?_⟩
      have htreated : TreatedAlike env later event loop keys keys' e ↔
          (createdIntents env event loop.conversationId loop.conversation e.1 e.2 (loop.view env e) s ≠ [] →
            (s.heldBack e.1 e.2 (keys.alive env.now) ↔ s.TooOld event later ∨ s.heldBack e.1 e.2 (keys'.alive later))) := by
        refine ⟨fun h => h hp s hs, fun h _ s' hs' => ?_⟩
        cases hs.symm.trans hs'
        exact h
      have hcreated := createdIntents_later hs hlater updatedAt deadline
      have hheld : (s.readAt event later deadline).heldBack e.1 e.2 (keys'.alive later) = s.heldBack e.1 e.2 (keys'.alive later) := rfl
      rw [htreated, hheld]
      have hafter : (if s.heldBack e.1 e.2 (keys'.alive later) then [] else
          createdIntents { env with now := later } event loop.conversationId { loop.conversation with updatedAt } e.1 e.2 (loop.view env e)
            (s.readAt event later deadline)).map (madeAt 0) =
          if s.TooOld event later ∨ s.heldBack e.1 e.2 (keys'.alive later) then []
          else (createdIntents env event loop.conversationId loop.conversation e.1 e.2 (loop.view env e) s).map (madeAt 0) := by
        rw [apply_ite (List.map (madeAt 0)), hcreated]
        by_cases hheld : s.heldBack e.1 e.2 (keys'.alive later) <;> simp [hheld]
      refine (Eq.congr_left hafter).trans ?_
      rw [apply_ite (List.map (madeAt 0)), List.map_nil]
      by_cases hbefore : s.heldBack e.1 e.2 (keys.alive env.now) <;>
        by_cases hlost : s.TooOld event later ∨ s.heldBack e.1 e.2 (keys'.alive later) <;>
          simp [hbefore, hlost, @eq_comm _ []]

theorem run_result {db' : Database} (h : (loop.run env event keys).result = .ok (.success, db')) :
    ∃ effects, processRoutes env event loop.parsed loop.update loop.conversationId loop.conversation loop.routes
      { db := loop.db, semantic := keys, effects := [] } = (.ok db', effects) := by
  unfold RouteLoop.run at h
  rcases hp : processRoutes env event loop.parsed loop.update loop.conversationId loop.conversation loop.routes
      { db := loop.db, semantic := keys, effects := [] } with ⟨result, effects⟩
  rw [hp] at h
  cases result with
  | error x => cases h
  | ok db => cases h; exact ⟨effects, rfl⟩

/-- The redelivery's intents are those of an uninterrupted run, for a loop. -/
theorem loop_sameIntents_iff (hl : prepare env event db = .ok loop) (hlater : env.now ≤ later) {updatedAt : Time}
    {conversations : Table Uuid SignalConversation} {db₂ : Database}
    (h : ((loop.redated updatedAt conversations).run { env with now := later } event keys').result = .ok (.success, db₂)) :
    (∃ db₁, (loop.run env event keys).result = .ok (.success, db₁) ∧ SameIntents db₂ db₁) ↔
      ∀ e ∈ loop.routes, TreatedAlike env later event loop keys keys' e := by
  have hnd := prepare_routes hl
  obtain ⟨effects', h'⟩ := run_result h
  have hu (env : SignalEnv) (loop : RouteLoop) (keys : SemanticKeys) :
      Unseen env loop keys loop.routes { db := loop.db, semantic := keys, effects := [] } :=
    ⟨fun _ _ => rfl, fun _ _ _ _ => rfl⟩
  obtain ⟨hin', hout'⟩ := processRoutes_ok hnd (hu { env with now := later } (loop.redated updatedAt conversations) keys') h'
  have hok : ∀ e ∈ loop.routes, ∃ out, routeOutcome env event loop keys e = .ok out := fun e he =>
    have ⟨_, ho, _⟩ := hin' e he
    have ⟨out, ho, _⟩ := routeOutcome_later keys hlater ho
    ⟨out, ho⟩
  obtain ⟨db₁, effects, hr⟩ := processRoutes_isOk hnd (hu env loop keys) hok
  obtain ⟨hin, hout⟩ := processRoutes_ok hnd (hu env loop keys) hr
  have hsame : ∀ e ∈ loop.routes, ((db₂.intentsOf e.1).map (madeAt 0) = (db₁.intentsOf e.1).map (madeAt 0) ↔
      TreatedAlike env later event loop keys keys' e) := by
    intro e he
    obtain ⟨out', ho', hi'⟩ := hin' e he
    obtain ⟨out, ho, hi⟩ := hin e he
    obtain ⟨out₀, ho₀, hiff⟩ := routeOutcome_later keys hlater ho'
    cases ho.symm.trans ho₀
    have hstart : (loop.redated updatedAt conversations).db.intentsOf e.1 = loop.db.intentsOf e.1 := rfl
    rw [hi', hi, hstart, List.map_append, List.map_append, List.append_cancel_left_eq, hiff]
  constructor
  · rintro ⟨db, hdb, hs⟩ e he
    obtain ⟨_, hdb⟩ := run_result hdb
    cases hr.symm.trans hdb
    exact (hsame e he).mp (hs e.1)
  · intro halike
    refine ⟨db₁, by simp [RouteLoop.run, hr, Except.map], fun r => ?_⟩
    by_cases hr : r ∈ loop.routes.map Prod.fst
    · obtain ⟨e, he, rfl⟩ := List.mem_map.mp hr
      exact (hsame e he).mpr (halike e he)
    · rw [hout' r hr, hout r hr]
      rfl

end

/-- **Retry atomicity.** Runs on a message fail and a redelivery at a later time completes: every
route ends with the intents of one uninterrupted run at the first time iff every route is treated
alike. -/
theorem sameIntents_iff (env : SignalEnv) (event : MessageEvent) (db : Database) (keys : SemanticKeys)
    (failures : List (SignalEnv × Nat)) {later : Time} (hlater : env.now ≤ later) {db₂ : Database}
    (h : (signalHandler { env with now := later } event db (afterFailures event db keys failures)).result = .ok (.success, db₂)) :
    (∃ db₁, (signalHandler env event db keys).result = .ok (.success, db₁) ∧ SameIntents db₂ db₁) ↔
      ∀ loop, prepare env event db = .ok loop →
        ∀ e ∈ loop.routes, TreatedAlike env later event loop keys (afterFailures event db keys failures) e := by
  simp only [signalHandler] at h ⊢
  rcases prepare_later env event db later with ⟨run, hl, hl'⟩ | ⟨loop, updatedAt, conversations, hl, hl'⟩
  · rw [hl'] at h
    rw [hl]
    exact iff_of_true ⟨db₂, h, fun _ => rfl⟩ fun loop hc => by cases hc
  · rw [hl'] at h
    rw [hl]
    rw [loop_sameIntents_iff hl hlater h]
    exact ⟨fun halike _ hc => by cases hc; exact halike, fun halike => halike loop rfl⟩

omit [Unicode] in
/-- The first run on the message, at 101 s, fails before its first effect; the redelivery comes at 107 s. -/
theorem sameIntents_iff_goldMessage :
    let _ := Unicode.ascii
    let env := goldEnv 0 (seconds 101) buyGold
    let keys := afterFailures goldMessage goldDatabase [] [(env, 0)]
    ∃ db₁ db₂, (signalHandler env goldMessage goldDatabase []).result = .ok (.success, db₁) ∧
      (signalHandler { env with now := seconds 107 } goldMessage goldDatabase keys).result = .ok (.success, db₂) ∧
      (db₂.intentsOf 4).length = 1 ∧ SameIntents db₂ db₁ := by
  have halike : ∀ loop, @prepare Unicode.ascii (goldEnv 0 (seconds 101) buyGold) goldMessage goldDatabase = .ok loop →
      ∀ e ∈ loop.routes, @TreatedAlike Unicode.ascii (goldEnv 0 (seconds 101) buyGold) (seconds 107) goldMessage loop []
        (@afterFailures Unicode.ascii goldMessage goldDatabase [] [(goldEnv 0 (seconds 101) buyGold, 0)]) e := by decide +kernel
  intro _ env keys
  obtain ⟨db₂, h, hone⟩ := SignalRun.of_intentCount (signalHandler { env with now := seconds 107 } goldMessage goldDatabase keys) 4 1
    (by decide +kernel)
  obtain ⟨db₁, h₁, hsame⟩ := (sameIntents_iff env goldMessage goldDatabase [] _ (by decide) h).mpr halike
  exact ⟨db₁, db₂, h₁, h, hone, hsame⟩

omit [Unicode] in
/-- The run at 101 s fails after it has set the duplicate key, and before it has
published the intent it made: the redelivery six seconds later succeeds and
makes none. -/
theorem goldMessage_intent_lost :
    let _ := Unicode.ascii
    let env := goldEnv 0 (seconds 101) buyGold
    let keys := afterFailures goldMessage goldDatabase [] [(env, 1)]
    ∃ db₁ db₂,
      (signalHandler env goldMessage goldDatabase []).result = .ok (.success, db₁) ∧
      (signalHandler { env with now := seconds 107 } goldMessage goldDatabase keys).result = .ok (.success, db₂) ∧
      ¬ SameIntents db₂ db₁ := by
  intro _ env keys
  obtain ⟨db₁, h₁, n₁⟩ := SignalRun.of_intentCount (signalHandler env goldMessage goldDatabase []) 4 1 (by decide +kernel)
  obtain ⟨db₂, h₂, n₂⟩ := SignalRun.of_intentCount
    (signalHandler { env with now := seconds 107 } goldMessage goldDatabase keys) 4 0 (by decide +kernel)
  refine ⟨db₁, db₂, h₁, h₂, fun hs => ?_⟩
  have hlength := congrArg List.length (hs 4)
  rw [List.length_map, List.length_map, n₁, n₂] at hlength
  cases hlength

end SignalSync
