import SignalSync.Signal.Capture

/-!
# Keys of parsed actions and intents

The unique keys count the revisions of a message, and each generation counts
them for itself, from 1. Within a generation no key comes twice; a message that
a generation takes up again after another one has, may find its key taken.

* `keysRecorded`: every parsed action is a reference of its generation, every
  intent has the key of its parsed action, in every history;
* `keys_fresh`: a message that no other generation has read the same way finds
  its keys free;
* `goldRepeated_fails`: the edit of a duplicate, on which every run fails.
-/

namespace SignalSync

open Library

variable [Unicode]

/-! ## What a run asks for -/

/-- `uuid4` has drawn the run's identifiers for the first time. -/
structure NewDraws (run : Nat) (db : Database) : Prop where
  assemblies : ∀ routeId, db.assemblies.get? (.assembly run routeId) = none
  parsedActions : ∀ routeId, db.parsedActions.get? (.parsedAction run routeId) = none
  intents : ∀ routeId id, id.isIntentOf run routeId → db.intents.get? id = none

section

variable (env : SignalEnv) (event : MessageEvent) (loop : RouteLoop) (e : Uuid × CopyRoute)

/-- The intents of a signal, leg by leg and target by target. -/
def RouteLoop.asked (s : RouteSignal) : List (Uuid × TradeIntent) :=
  match routeVerdict env loop.conversation e.1 e.2 (loop.view env e) s with
  | .proceed targets =>
    candidateIntents env event s.assembly.context s.action s.revision loop.conversationId e.1 e.2
      (intentLegsForAction s.action e.2.fixedLot.toRat s.signal.takeProfits e.2.takeProfitMode e.2.lotDistribution) targets
  | _ => []

/-- A parsed action of another generation of the route, which has read the message
as the same action and as often as the generation in progress will have. -/
structure ReadElsewhere (row : ParsedAction) : Prop where
  route : row.routeId = e.1
  message : row.telegramMessageId = event.messageId
  generation : row.assemblyId ≠ (loop.current env e).1
  revision : row.revision = nextRevision event (loop.current env e).2.1.messageReferences
  action : some row.actionType = (mergeMessage event loop.update (loop.current env e).2.1).context.action

/-- Where the message has been read so, it was in another conversation, and not
for a leg and a target that are asked for now. -/
structure NotReadBefore : Prop where
  conversation : ∀ id row, loop.db.parsedActions.get? id = some row → ReadElsewhere env event loop e row →
    row.threadId ≠ loop.conversation.legacyThreadId
  target : ∀ id row, loop.db.parsedActions.get? id = some row → ReadElsewhere env event loop e row →
    ∀ i ∈ loop.db.intents.entries, i.2.parsedActionId = id → i.2.idempotencyKey.connectionId = event.connectionId →
      i.2.idempotencyKey.chatId = event.chatId → ∀ s, loop.signal env event e = .ok s → ∀ c ∈ loop.asked env event e s,
        c.2.idempotencyKey.index = i.2.idempotencyKey.index → c.2.idempotencyKey.target ≠ i.2.idempotencyKey.target

instance (row : ParsedAction) : Decidable (ReadElsewhere env event loop e row) :=
  decidable_of_iff
    (row.routeId = e.1 ∧ row.telegramMessageId = event.messageId ∧ row.assemblyId ≠ (loop.current env e).1 ∧
      row.revision = nextRevision event (loop.current env e).2.1.messageReferences ∧
      some row.actionType = (mergeMessage event loop.update (loop.current env e).2.1).context.action)
    ⟨fun ⟨hr, hm, hg, hn, ha⟩ => ⟨hr, hm, hg, hn, ha⟩, fun h => ⟨h.route, h.message, h.generation, h.revision, h.action⟩⟩

instance : Decidable (NotReadBefore env event loop e) :=
  decidable_of_iff
    ((∀ id row, loop.db.parsedActions.get? id = some row → ReadElsewhere env event loop e row →
        row.threadId ≠ loop.conversation.legacyThreadId) ∧
      ∀ id row, loop.db.parsedActions.get? id = some row → ReadElsewhere env event loop e row →
        ∀ i ∈ loop.db.intents.entries, i.2.parsedActionId = id → i.2.idempotencyKey.connectionId = event.connectionId →
          i.2.idempotencyKey.chatId = event.chatId → ∀ s, loop.signal env event e = .ok s → ∀ c ∈ loop.asked env event e s,
            c.2.idempotencyKey.index = i.2.idempotencyKey.index → c.2.idempotencyKey.target ≠ i.2.idempotencyKey.target)
    ⟨fun ⟨hc, ht⟩ => ⟨hc, ht⟩, fun h => ⟨h.conversation, h.target⟩⟩

end

/-- A run violates no unique key of the parsed actions, and every route inserts
the intents it would insert into an empty table. -/
structure KeysFresh (env : SignalEnv) (event : MessageEvent) (db : Database) (keys : SemanticKeys) : Prop where
  actions : ∀ loop, prepare env event db = .ok loop → (loop.run env event keys).result ≠ .error .integrityError
  intents : ∀ loop, prepare env event db = .ok loop → ∀ e ∈ loop.routes, (loop.view env e).isPaused = false →
    ∀ s, loop.signal env event e = .ok s → ∀ targets,
      routeVerdict env loop.conversation e.1 e.2 (loop.view env e) s = .proceed targets →
      newIntents env event loop.conversationId e.1 e.2 (loop.view env e) s targets = insertable [] (loop.asked env event e s)

/-! ## Keys and generations -/

/-- The key of an intent is that of its parsed action. -/
structure TradeIntent.StandsFor (i : TradeIntent) (row : ParsedAction) : Prop where
  route : i.idempotencyKey.routeId = row.routeId
  message : i.idempotencyKey.messageId = row.telegramMessageId
  action : i.idempotencyKey.action = row.actionType
  revision : i.idempotencyKey.revision = row.revision

/-- What the rows of parsed actions and intents go back to. -/
structure KeysRecorded (db : Database) : Prop where
  references : ∀ id row, db.parsedActions.get? id = some row →
    ∃ a, db.assemblies.get? row.assemblyId = some a ∧ ⟨row.telegramMessageId, row.revision⟩ ∈ a.messageReferences
  intents : ∀ id i, db.intents.get? id = some i →
    i.clientOrderId.intentId = id ∧ ∃ row, db.parsedActions.get? i.parsedActionId = some row ∧ i.StandsFor row

section

variable {env : SignalEnv} {event : MessageEvent} {parsed : AiAction} {update : Context} {conversationId : Uuid}
  {conversation : SignalConversation} {routeId : Uuid} {route : CopyRoute} {db db' : Database}
  {alive : SemanticKey → Bool} {s : RouteSignal} {plan : RoutePlan} {view : RouteView}

omit [Unicode] in
/-- The number of a revision is higher than those there were. -/
theorem lt_nextRevision {refs : List MessageReference} {n : Nat} (h : ⟨event.messageId, n⟩ ∈ refs) :
    n < nextRevision event refs := by
  have hmax (l : List Nat) (h : n ∈ l) : n ≤ l.foldr max 0 := by
    induction l with
    | nil => cases h
    | cons a l ih =>
      rcases List.mem_cons.mp h with rfl | h
      · exact Nat.le_max_left ..
      · exact (ih h).trans (Nat.le_max_right ..)
  have hm : n ∈ (refs.filter (·.messageId = event.messageId)).map (·.revision) :=
    List.mem_map.mpr ⟨_, List.mem_filter.mpr ⟨h, by simp⟩, rfl⟩
  unfold nextRevision
  have := hmax _ hm
  omega

omit [Unicode] in
/-- Where the identifiers are free, a key violated is that of a parsed action. -/
theorem routeSignal_integrityError
    (h : routeSignal env event parsed update conversationId conversation routeId route view = .error .integrityError)
    (hassembly : view.assemblyTaken = false) (haction : view.actionTaken = false) :
    ∃ x ∈ view.parsedActions, x.2.threadId = conversation.legacyThreadId ∧ x.2.routeId = routeId ∧
      x.2.telegramMessageId = event.messageId ∧
      let current := (currentAssembly env conversationId conversation routeId route view).2.1
      x.2.revision = nextRevision event current.messageReferences ∧
        some x.2.actionType = (mergeMessage event update current).context.action := by
  unfold routeSignal at h
  rcases hc : currentAssembly env conversationId conversation routeId route view with ⟨id, current, isNew⟩
  simp only [hc, hassembly, haction, Bool.and_false, Bool.false_or, Bool.false_eq_true, if_false] at h
  split at h
  · cases h
  · cases h
  · rename_i action policy ha hp
    split at h
    · rename_i hclash
      obtain ⟨x, hx, hrow⟩ := List.any_eq_true.mp hclash
      simp only [ParsedAction.clash, decide_eq_true_eq, ParsedAction.mk.injEq] at hrow
      obtain ⟨hthread, hroute, hmsg, hact, hrev, -⟩ := hrow
      exact ⟨x, hx, hthread, hroute, hmsg, hrev, by rw [hact, ha]⟩
    · cases h

omit [Unicode] in
/-- What names an intent is the signal's parsed action. -/
theorem candidateIntents_key {merged : Context} {action : SignalAction} {revision : Nat} {legs : List (Option TakeProfitLeg)}
    {targets : List (Option CopiedTrade)} {c : Uuid × TradeIntent}
    (h : c ∈ candidateIntents env event merged action revision conversationId routeId route legs targets) :
    c.1.isIntentOf env.run routeId ∧ c.2.clientOrderId.intentId = c.1 ∧ c.2.parsedActionId = .parsedAction env.run routeId ∧
      c.2.idempotencyKey = { c.2.idempotencyKey with
        connectionId := event.connectionId, chatId := event.chatId, messageId := event.messageId, revision, routeId, action } := by
  simp only [candidateIntents, List.mem_flatMap, List.mem_map] at h
  obtain ⟨⟨i, leg⟩, -, ⟨j, target⟩, -, rfl⟩ := h
  exact ⟨by simp [Uuid.isIntentOf], rfl, rfl, rfl⟩

theorem planSignal_key {c : Uuid × TradeIntent}
    (h : c ∈ (planSignal env event conversationId conversation routeId route view alive s).intents) :
    c.2.clientOrderId.intentId = c.1 ∧ c.2.parsedActionId = .parsedAction env.run routeId ∧
      c.2.idempotencyKey.routeId = routeId ∧ c.2.idempotencyKey.messageId = event.messageId ∧
      c.2.idempotencyKey.action = s.action ∧ c.2.idempotencyKey.revision = s.revision := by
  rw [planSignal_intents] at h
  split at h
  · cases h
  · unfold createdIntents at h
    split at h
    · split at h
      · cases h
      · obtain ⟨-, hclient, hpa, hkey⟩ := candidateIntents_key (List.mem_filter.mp (mem_of_mem_insertable h)).1
        rw [hkey]
        exact ⟨hclient, hpa, rfl, rfl, rfl, rfl⟩
    · cases h

/-- A written plan is recorded. -/
theorem keysRecorded_write (hr : KeysRecorded db)
    (h : planRoute env event parsed update conversationId conversation routeId route
      (db.routeView env.run conversationId routeId route) alive = .ok plan) :
    KeysRecorded (plan.write env.run routeId db) := by
  have hget := planRoute_assemblies h
  obtain ⟨s, hs, rfl⟩ := planRoute_eq_ok h
  obtain ⟨current, isNew, hc, hrev, hrow, htaken⟩ := routeSignal_row hs
  obtain ⟨current', hc', hm, -, -, hfree⟩ := routeSignal_eq_ok hs
  cases hc.symm.trans hc'
  obtain ⟨hid, -, hparsed⟩ := planSignal_rows env event conversationId conversation routeId route
    (db.routeView env.run conversationId routeId route) alive s
  have hrefs : (planSignal env event conversationId conversation routeId route
      (db.routeView env.run conversationId routeId route) alive s).assembly.messageReferences = s.assembly.messageReferences := by
    obtain ⟨_, _, h⟩ := planSignal_assembly_kept env event conversationId conversation routeId route
      (db.routeView env.run conversationId routeId route) alive s
    rw [h]
  have hkey (c) (hc : c ∈ (planSignal env event conversationId conversation routeId route
      (db.routeView env.run conversationId routeId route) alive s).intents) := planSignal_key hc
  generalize planSignal env event conversationId conversation routeId route
    (db.routeView env.run conversationId routeId route) alive s = plan at hget hid hparsed hrefs hkey ⊢
  have htaken : db.parsedActions.get? (.parsedAction env.run routeId) = none := by
    simpa [Database.routeView] using htaken
  -- the generation the message went to has the references it had, and the new one
  have hold (a : RouteSignalAssembly) (ha : db.assemblies.get? s.assemblyId = some a) :
      a.messageReferences ⊆ plan.assembly.messageReferences := by
    obtain ⟨-, -, hnew⟩ := currentAssembly_routeView hc
    by_cases hn : s.isNew
    · have hfree := hfree hn
      rw [if_pos hn] at hnew
      simp [Database.routeView, ← hnew.1, ha] at hfree
    · rw [if_neg hn] at hnew
      cases ha.symm.trans hnew.1
      rw [hrefs, hm]
      exact List.subset_append_left ..
  have hnewRef : ⟨event.messageId, s.revision⟩ ∈ plan.assembly.messageReferences := by
    rw [hrefs, hm, hrev]
    exact List.mem_append_right _ List.mem_cons_self
  refine ⟨fun id row hg => ?_, fun id i hg => ?_⟩
  · simp only [RoutePlan.write, Table.get?_add, Option.or_eq_some_iff] at hg
    rw [hget]
    rcases hg with hg | ⟨-, hg⟩
    · obtain ⟨a, ha, href⟩ := hr.references id row hg
      by_cases he : row.assemblyId = plan.assemblyId
      · rw [if_pos he]
        exact ⟨_, rfl, hold a (by rw [← hid, ← he]; exact ha) href⟩
      · rw [if_neg he]
        exact ⟨a, ha, href⟩
    · split at hg
      · cases hg
        rw [hparsed, hrow, hid, if_pos rfl]
        exact ⟨_, rfl, hnewRef⟩
      · cases hg
  · simp only [RoutePlan.write] at hg ⊢
    rcases Table.get?_addAll_cases hg with hg | hg
    · obtain ⟨hclient, row, hrow', hfor⟩ := hr.intents id i hg
      exact ⟨hclient, row, by rw [Table.get?_add, hrow', Option.some_or], hfor⟩
    · obtain ⟨hclient, hpa, hroute, hmsg, hact, hrevision⟩ := hkey _ hg
      refine ⟨hclient, plan.parsedAction, by rw [hpa, Table.get?_add, htaken, if_pos rfl, Option.none_or], ?_⟩
      rw [hparsed, hrow]
      exact ⟨hroute, hmsg, hact, hrevision⟩

omit [Unicode] in
/-- References and keys alone matter. -/
theorem keysRecorded_mapRows (hr : KeysRecorded db) (hp : db'.parsedActions = db.parsedActions)
    {f : Uuid → RouteSignalAssembly → RouteSignalAssembly} (ha : db'.assemblies = db.assemblies.mapRows f)
    (hf : ∀ id a, (f id a).messageReferences = a.messageReferences) (hi : db'.intents = db.intents) : KeysRecorded db' := by
  refine ⟨fun id row hg => ?_, fun id i hg => ?_⟩
  · rw [hp] at hg
    obtain ⟨a, hget, href⟩ := hr.references id row hg
    exact ⟨f row.assemblyId a, by rw [ha, Table.get?_mapRows, hget]; rfl, by rw [hf]; exact href⟩
  · rw [hi] at hg
    rw [hp]
    exact hr.intents id i hg

/-- Every written plan keeps the record. -/
theorem kept_keysRecorded (env : SignalEnv) (event : MessageEvent) : Kept env event KeysRecorded where
  conversations _ _ hr := ⟨hr.references, hr.intents⟩
  write _ _ _ _ _ _ _ _ _ hr hplan := keysRecorded_write hr hplan

end

/-- One step of a history keeps the record. -/
theorem signalStep_keysRecorded {s s' : SignalState} {a : SignalStep} (hr : KeysRecorded s.db)
    (h : signalStep s a = some s') : KeysRecorded s'.db := by
  cases a with
  | message env event =>
    cases h
    simp only
    split
    · rename_i hres
      refine (kept_keysRecorded env event).signalHandler (fun hr => ?_) hr hres
      refine keysRecorded_mapRows hr rfl (f := fun _ => deleteGeneration event s.db) rfl (fun id a => ?_) rfl
      unfold deleteGeneration
      split <;> rfl
    · exact hr
  | failure env event n => cases h; exact hr
  | expire now =>
    cases h
    refine keysRecorded_mapRows hr rfl (f := fun _ => expireGeneration now) rfl (fun id a => ?_) rfl
    unfold expireGeneration
    split <;> rfl
  | outside sources userSettings routes policies trades => cases h; exact ⟨hr.references, hr.intents⟩
  | intentStates state =>
    cases h
    refine ⟨hr.references, fun id i hg => ?_⟩
    rw [Table.get?_mapRows] at hg
    obtain ⟨i₀, hg₀, rfl⟩ := Option.map_eq_some_iff.mp hg
    obtain ⟨hclient, row, hrow, hfor⟩ := hr.intents id i₀ hg₀
    exact ⟨hclient, row, hrow, hfor.route, hfor.message, hfor.action, hfor.revision⟩

/-- In every history the keys are recorded. -/
theorem keysRecorded {s₀ s : SignalState} {ok : SignalState → SignalStep → Prop} (hp : s₀.db.parsedActions = ∅)
    (hi : s₀.db.intents = ∅) (h : Reach signalStep ok s₀ s) : KeysRecorded s.db :=
  h.invariant ⟨fun id row hg => by simp [hp] at hg, fun id i hg => by simp [hi] at hg⟩
    fun _ _ _ hr _ hs => signalStep_keysRecorded hr hs

/-! ## Fresh keys -/

omit [Unicode] in
/-- What clashes with no row there was is inserted as into an empty table. -/
theorem insertable_append {acc taken rows : List (Uuid × TradeIntent)}
    (h : ∀ c ∈ rows, ∀ t ∈ taken, intentsClash c t = false) : insertable (acc ++ taken) rows = insertable acc rows := by
  induction rows generalizing acc with
  | nil => rfl
  | cons c rows ih =>
    have hrest : ∀ c ∈ rows, ∀ t ∈ taken, intentsClash c t = false := fun c hc => h c (List.mem_cons_of_mem _ hc)
    have hc : taken.any (intentsClash c) = false := List.any_eq_false.mpr fun t ht => by
      simpa using h c List.mem_cons_self t ht
    rw [insertable, insertable, List.any_append, hc, Bool.or_false, ih hrest, ← List.cons_append, ih hrest]

section

variable {env : SignalEnv} {event : MessageEvent} {db : Database} {loop : RouteLoop} {e : Uuid × CopyRoute}

omit [Unicode] in
/-- A row that has the revision of the message to come is of another generation. -/
theorem assemblyId_ne_current (hr : KeysRecorded loop.db) (hd : NewDraws env.run loop.db) {id : Uuid} {row : ParsedAction}
    (hrow : loop.db.parsedActions.get? id = some row) (hm : row.telegramMessageId = event.messageId)
    (hrev : row.revision = nextRevision event (loop.current env e).2.1.messageReferences) :
    row.assemblyId ≠ (loop.current env e).1 := by
  intro he
  obtain ⟨a, ha, href⟩ := hr.references id row hrow
  rcases hc : loop.current env e with ⟨cid, current, isNew⟩
  rw [hc] at he hrev
  obtain ⟨-, -, hnew⟩ := currentAssembly_routeView hc
  split at hnew
  · rw [he, hnew.1, hd.assemblies] at ha
    cases ha
  · rw [he, hnew.1] at ha
    cases ha
    rw [hm] at href
    exact absurd hrev (Nat.ne_of_lt (lt_nextRevision href))

/-- The parsed action of a message not read before violates no key. -/
theorem routeOutcome_ne_integrityError (hr : KeysRecorded loop.db) (hd : NewDraws env.run loop.db)
    (hn : (loop.view env e).isPaused = false → NotReadBefore env event loop e) {keys : SemanticKeys} :
    routeOutcome env event loop keys e ≠ .error .integrityError := by
  intro h
  simp only [routeOutcome] at h
  split at h
  · cases h
  · rename_i hp
    have hn := hn (Bool.eq_false_iff.mpr hp)
    cases hs : routeSignal env event loop.parsed loop.update loop.conversationId loop.conversation e.1 e.2
        (loop.db.routeView env.run loop.conversationId e.1 e.2) with
    | ok s => simp [planRoute, hs, Except.map] at h
    | error x =>
      simp only [planRoute, hs, Except.map, Except.error.injEq] at h
      subst h
      obtain ⟨⟨id, row⟩, hmem, hthread, hroute, hmsg, hrev, hact⟩ := routeSignal_integrityError hs
        (by simp [Database.routeView, hd.assemblies]) (by simp [Database.routeView, hd.parsedActions])
      have hget : loop.db.parsedActions.get? id = some row := by
        simp only [Database.routeView, Table.mem_select] at hmem
        exact hmem.1
      exact hn.conversation id row hget ⟨hroute, hmsg, assemblyId_ne_current hr hd hget hmsg hrev, hrev, hact⟩ hthread

/-- Its intents are inserted as into an empty table. -/
theorem newIntents_eq (hr : KeysRecorded loop.db) (hd : NewDraws env.run loop.db) (hn : NotReadBefore env event loop e)
    {s : RouteSignal} (hs : loop.signal env event e = .ok s) {targets : List (Option CopiedTrade)}
    (ht : routeVerdict env loop.conversation e.1 e.2 (loop.view env e) s = .proceed targets) :
    newIntents env event loop.conversationId e.1 e.2 (loop.view env e) s targets =
      insertable [] (loop.asked env event e s) := by
  have hnone : (loop.view env e).intentsTaken = [] := by
    refine List.map_eq_nil_iff.mpr (List.eq_nil_iff_forall_not_mem.mpr fun i hi => ?_)
    obtain ⟨hget, hid⟩ := Table.mem_select.1 hi
    rw [hd.intents e.1 i.1 hid] at hget
    cases hget
  have hasked : loop.asked env event e s = candidateIntents env event s.assembly.context s.action s.revision
      loop.conversationId e.1 e.2 (intentLegsForAction s.action e.2.fixedLot.toRat s.signal.takeProfits
        e.2.takeProfitMode e.2.lotDistribution) targets := by
    rw [RouteLoop.asked, ht]
  rw [newIntents, hnone, ← hasked, List.filter_eq_self.2 (by simp), ← List.nil_append (loop.view env e).intents]
  refine insertable_append fun c hc t htaken => ?_
  obtain ⟨hget, hroute⟩ := Table.mem_select.1 (show t ∈ loop.db.intentsOf e.1 from htaken)
  simp only [decide_eq_true_eq] at hroute
  obtain ⟨hclient, row, hrow, hfor⟩ := hr.intents _ _ hget
  have hkey := candidateIntents_key (hasked ▸ hc)
  have hid : c.1 ≠ t.1 := by
    intro he
    rw [← he, hd.intents e.1 c.1 hkey.1] at hget
    cases hget
  have hne : c.2.idempotencyKey ≠ t.2.idempotencyKey := by
    intro he
    obtain ⟨current, isNew, hcur, hrev, -, -⟩ := routeSignal_row hs
    obtain ⟨current', hcur', hm, ha, -⟩ := routeSignal_eq_ok hs
    cases hcur.symm.trans hcur'
    have hkey := hkey.2.2.2.symm.trans he
    have hcurrent : loop.current env e = (s.assemblyId, current, s.isNew) := hcur
    have hrev' : row.revision = nextRevision event (loop.current env e).2.1.messageReferences := by
      rw [hcurrent, ← hfor.revision, ← hkey, hrev]
    have hmsg' : row.telegramMessageId = event.messageId := by rw [← hfor.message, ← hkey]
    refine hn.target _ row hrow ⟨by rw [← hfor.route, hroute], hmsg', assemblyId_ne_current hr hd hrow hmsg' hrev', hrev', ?_⟩
      t (Table.get?_eq_some.1 hget) rfl (by rw [← hkey]) (by rw [← hkey]) s hs c hc (congrArg IntentKey.index he)
      (congrArg IntentKey.target he)
    rw [hcurrent, ← hfor.action, ← hkey, ← ha, hm]
  have hclient' : c.2.clientOrderId ≠ t.2.clientOrderId := by
    intro he
    exact hid (hkey.2.1.symm.trans ((congrArg ClientOrderId.intentId he).trans hclient))
  simp [intentsClash, hid, hne, hclient']

/-- A run finds its keys free, where no other generation has read the message
the same way. -/
theorem keysFresh_of_notReadBefore {keys : SemanticKeys} (hr : KeysRecorded db) (hd : NewDraws env.run db)
    (hn : ∀ loop, prepare env event db = .ok loop → ∀ e ∈ loop.routes, (loop.view env e).isPaused = false →
      NotReadBefore env event loop e) :
    KeysFresh env event db keys := by
  have hloop (loop : RouteLoop) (hl : prepare env event db = .ok loop) : KeysRecorded loop.db ∧ NewDraws env.run loop.db := by
    obtain ⟨source, -, hstart⟩ := prepare_eq_ok hl
    obtain ⟨-, -, conversations, hdb⟩ := openConversation_eq_ok (startLoop_eq_ok hstart).2.2.2.1
    rw [hdb]
    exact ⟨⟨hr.references, hr.intents⟩, ⟨hd.assemblies, hd.parsedActions, hd.intents⟩⟩
  refine ⟨fun loop hl h => ?_, fun loop hl e he hp s hs targets ht => newIntents_eq (hloop loop hl).1
    (hloop loop hl).2 (hn loop hl e he hp) hs ht⟩
  unfold RouteLoop.run at h
  rcases hrun : processRoutes env event loop.parsed loop.update loop.conversationId loop.conversation loop.routes
    { db := loop.db, semantic := keys, effects := [] } with ⟨result, effects⟩
  rw [hrun] at h
  cases result with
  | ok db' => cases h
  | error x =>
    cases h
    obtain ⟨e, he, hout⟩ := processRoutes_error (prepare_routes hl) ⟨fun _ _ => rfl, fun _ _ _ _ => rfl⟩ hrun
    exact routeOutcome_ne_integrityError (hloop loop hl).1 (hloop loop hl).2 (hn loop hl e he) hout

end

/-- **Fresh keys.** In every history, a message that no other generation of the
routes has read the same way violates no key, and loses no intent to one. -/
theorem keys_fresh {s₀ s : SignalState} (hp : s₀.db.parsedActions = ∅) (hi : s₀.db.intents = ∅)
    (h : Reach signalStep always s₀ s) {env : SignalEnv} {event : MessageEvent} (hd : NewDraws env.run s.db)
    (hn : ∀ loop, prepare env event s.db = .ok loop → ∀ e ∈ loop.routes, (loop.view env e).isPaused = false →
      NotReadBefore env event loop e) :
    KeysFresh env event s.db s.keys :=
  keysFresh_of_notReadBefore (keysRecorded hp hi h) hd hn

/-! ## An expired message edited -/

/-- What the tables hold, for a run with one route. -/
def SignalState.drawn (s : SignalState) : List Uuid × List (Uuid × Int) × List Uuid :=
  (s.db.assemblies.entries.map Prod.fst, s.db.parsedActions.entries.map fun e => (e.1, e.2.telegramMessageId),
    s.db.intents.entries.map Prod.fst)

omit [Unicode] in
/-- Other identifiers than those there are, are new. -/
theorem NewDraws.of_drawn {s : SignalState} {run : Nat} (ha : ∀ id ∈ s.drawn.1, ∀ routeId, id ≠ .assembly run routeId)
    (hp : ∀ e ∈ s.drawn.2.1, ∀ routeId, e.1 ≠ .parsedAction run routeId)
    (hi : ∀ id ∈ s.drawn.2.2, ∀ routeId, id.isIntentOf run routeId = false) : NewDraws run s.db where
  assemblies routeId := Table.get?_eq_none.2 fun h => ha _ h routeId rfl
  parsedActions routeId := Table.get?_eq_none.2 fun h => by
    obtain ⟨e, he, hid⟩ := List.mem_map.mp h
    exact hp (e.1, e.2.telegramMessageId) (List.mem_map.mpr ⟨e, he, rfl⟩) routeId hid
  intents routeId id hid := Table.get?_eq_none.2 fun h => by simp [hi _ h routeId] at hid

/-- `BUY XAUUSD now`, which expires. -/
def goldExpired : List SignalStep :=
  [ .message (goldEnv 0 (seconds 101) buyNow) { goldMessage with text := "BUY XAUUSD now" },
    .expire (seconds 200) ]

/-- Message 11, edited into a complete opening. -/
def goldCompleted : MessageEvent :=
  { goldMessage with
    eventType := .edited
    correlationId := 16
    occurredAt := seconds 210 }

omit [Unicode] in
/-- The edit begins a generation of another conversation, which counts from 1 again. -/
theorem keys_fresh_goldCompleted :
    let _ := Unicode.ascii
    let env := goldEnv 1 (seconds 211) buyGold
    ∃ s, Reach signalStep always { db := goldDatabase } s ∧
      (∃ loop, prepare env goldCompleted s.db = .ok loop ∧
        ∃ e ∈ loop.routes, ∃ row ∈ s.db.parsedActions.entries, ReadElsewhere env goldCompleted loop e row.2) ∧
      KeysFresh env goldCompleted s.db s.keys := by
  intro _ env
  have hrun : (run signalStep { db := goldDatabase } goldExpired).map (fun s => (s.drawn,
      (prepare env goldCompleted s.db).toOption.any fun loop => loop.routes.any fun e =>
        s.db.parsedActions.entries.any fun row => ReadElsewhere env goldCompleted loop e row.2,
      (prepare env goldCompleted s.db).toOption.all fun loop => loop.routes.all fun e =>
        NotReadBefore env goldCompleted loop e)) =
      some (([.assembly 0 4], [(.parsedAction 0 4, 11)], []), true, true) := by decide +kernel
  obtain ⟨s, hs, hrun⟩ := Option.map_eq_some_iff.mp hrun
  obtain ⟨hdrawn, hread, hfresh⟩ : _ ∧ _ ∧ _ := by simpa only [Prod.mk.injEq] using hrun
  refine ⟨s, .of_run hs, ?_, keys_fresh rfl rfl (.of_run hs) ?_ fun loop hl e he _ => ?_⟩
  · cases hl : prepare env goldCompleted s.db with
    | error run => simp [hl, Except.toOption] at hread
    | ok loop =>
      obtain ⟨e, he, row, hrow, h⟩ : ∃ e ∈ loop.routes, ∃ row ∈ s.db.parsedActions.entries,
          ReadElsewhere env goldCompleted loop e row.2 := by
        simpa [hl, Except.toOption, -Prod.exists] using hread
      exact ⟨loop, rfl, e, he, row, hrow, h⟩
  · refine .of_drawn ?_ ?_ ?_ <;> simp [hdrawn, Uuid.isIntentOf, env, goldEnv]
  · rw [hl] at hfresh
    exact of_decide_eq_true (List.all_eq_true.mp hfresh e he)

/-! ## A duplicate edited -/

/-- `BUY XAUUSD SL 2390 TP 2410` again, as message 12. -/
def goldMessageTwo : MessageEvent :=
  { goldMessage with messageId := 12, correlationId := 16, occurredAt := seconds 110 }

/-- The exception a run ends with. -/
def SignalRun.raised (run : SignalRun) : Option SignalError :=
  match run.result with
  | .error e => some e
  | .ok _ => none

omit [Unicode] in
theorem SignalRun.raised_eq_some {run : SignalRun} {e : SignalError} (h : run.raised = some e) : run.result = .error e := by
  unfold raised at h
  split at h
  · rename_i hr
    cases h
    exact hr
  · cases h

/-- The stop of message 12 is corrected. -/
def goldMessageTwoEdited : MessageEvent :=
  { goldMessageTwo with
    eventType := .edited
    correlationId := 18
    text := "BUY XAUUSD SL 2385 TP 2410"
    occurredAt := seconds 200 }

omit [Unicode] in
/-- Message 12 repeats the signal of message 11, and its generation is skipped. Its
edit begins the next one, counts from 1 again, and fails on the key of the parsed
action of its first version. -/
theorem goldRepeated_fails :
    let _ := Unicode.ascii
    let env := goldEnv 2 (seconds 201) { buyGold with stopLoss := some 2385 }
    ∃ s, Reach signalStep always { db := goldDatabase } s ∧ NewDraws env.run s.db ∧
      ¬ KeysFresh env goldMessageTwoEdited s.db s.keys := by
  intro _ env
  have hrun : (run signalStep { db := goldDatabase } goldRepeated).map (fun s =>
      (s.drawn, (prepare env goldMessageTwoEdited s.db).toOption.bind fun loop =>
        (loop.run env goldMessageTwoEdited s.keys).raised)) =
      some (([.assembly 0 4, .assembly 1 4], [(.parsedAction 0 4, 11), (.parsedAction 1 4, 12)], [.intent 0 4 0 0]),
        some .integrityError) := by decide +kernel
  obtain ⟨s, hs, hrun⟩ := Option.map_eq_some_iff.mp hrun
  obtain ⟨hdrawn, hraised⟩ := Prod.mk.inj hrun
  obtain ⟨loop, hl, hraised⟩ := Option.bind_eq_some_iff.mp hraised
  refine ⟨s, .of_run hs, ?_, fun h => ?_⟩
  · refine .of_drawn ?_ ?_ ?_ <;> simp [hdrawn, Uuid.isIntentOf, env, goldEnv]
  · have hl : prepare env goldMessageTwoEdited s.db = .ok loop := by
      cases hp : prepare env goldMessageTwoEdited s.db with
      | error run => rw [hp] at hl; cases hl
      | ok loop' => rw [hp] at hl; exact congrArg Except.ok (Option.some.inj hl)
    exact h.actions loop hl (SignalRun.raised_eq_some hraised)

end SignalSync
