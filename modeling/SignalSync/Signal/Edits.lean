import SignalSync.Library.Run
import SignalSync.Signal.Loop

/-!
# Edits of an opening

A source's history is a run of `signalStep`: messages handled one after another,
and between them whatever the execution side, the user and the clock do to the
other tables. An edited message that has opened a trade must not open another:
`EditMatched` says where the handler looks for the conversation and generation
that opened and finds them.

* `openingsRecorded`: an opening's conversation has a submitted generation, in
  every history;
* `edit_opens_nothing`: in a history whose edits are matched, no edit opens again;
* `goldEdit_opens_again`: a history with an edit that is not, and does.
-/

namespace SignalSync

open Library

variable [Unicode]

/-! ## Histories -/

structure SignalState where
  db : Database
  keys : SemanticKeys := []

inductive SignalStep
  /-- The handler runs on a message, to its end. -/
  | message (env : SignalEnv) (event : MessageEvent)
  /-- It fails after its first `n` effects. -/
  | failure (env : SignalEnv) (event : MessageEvent) (n : Nat)
  | expire (now : Time)
  /-- The user and the execution side change what the handler only reads. -/
  | outside (sources : Table Uuid TelegramSource) (userSettings : Table Uuid CopyTradingUserSettings)
      (routes : Table Uuid CopyRoute) (policies : Table Uuid CopyAccountPolicy) (trades : Table Uuid CopiedTrade)
  /-- The execution side moves intents to other states. -/
  | intentStates (state : Uuid → TradeIntentState)

def signalStep (s : SignalState) : SignalStep → Option SignalState
  | .message env event =>
    let run := signalHandler env event s.db s.keys
    some
      { db := match run.result with
          | .ok (_, db) => db
          | .error _ => s.db
        keys := s.keys.applyAll run.effects }
  | .failure env event n => some { s with keys := (signalHandler env event s.db s.keys).failAt n s.keys }
  | .expire now => some { s with db := expireSignalThreads now s.db }
  | .outside sources userSettings routes policies trades =>
    some { s with db := { s.db with sources, userSettings, routes, policies, trades } }
  | .intentStates state =>
    some { s with db := { s.db with intents := s.db.intents.mapRows fun id i => { i with state := state id } } }

/-- The opening intents a message has on a route, of all its revisions. -/
def Database.openings (db : Database) (event : MessageEvent) (routeId : Uuid) : List (Uuid × TradeIntent) :=
  (db.intentsOf routeId).filter fun e =>
    e.2.idempotencyKey.connectionId = event.connectionId && e.2.idempotencyKey.chatId = event.chatId &&
      e.2.idempotencyKey.messageId = event.messageId && e.2.idempotencyKey.action.isOpening

/-- A message, read as `parsed`, goes to a conversation that has an opening of it
on the route, and the route's generation in progress there, if there is one, has
opened. Read as an opening itself, it must find an opening of the conversation's
own, and the conversation still active; read as an additional take profit it is
never matched. -/
def EditMatched (event : MessageEvent) (db : Database) (routes : List (Uuid × CopyRoute)) (parsed : AiAction)
    (routeId : Uuid) : Prop :=
  parsed.action ≠ .additional_tp ∧
    ∃ c, (findConversation event db routes parsed).selected = some c ∧
      (∃ e ∈ db.openings event routeId, e.2.requestPayload.conversationId = c.id ∧
        (parsed.action.isOpen → e.2.idempotencyKey.action.isOpen ∧
          ∃ row, db.conversations.get? c.id = some row ∧ row.state = .active)) ∧
      ∀ a ∈ db.assemblies.entries, a.2.conversationId = c.id → a.2.routeId = routeId →
        a.2.state.isActive → a.2.openingIntentId.isSome

instance (event : MessageEvent) (db : Database) (routes : List (Uuid × CopyRoute)) (parsed : AiAction)
    (routeId : Uuid) : Decidable (EditMatched event db routes parsed routeId) := by
  delta EditMatched
  infer_instance

/-- The message, unless it is not understood as an instruction, is matched on
every route on which it has opened. -/
def MessageMatched (env : SignalEnv) (event : MessageEvent) (db : Database) : Prop :=
  ∀ source ∈ db.sources.get? event.sourceId,
    ∀ parsed ∈ (env.parseMessage event.text (initialContext event (db.activeConversations event.sourceId))).toOption,
      parsed.action ≠ .status_only →
      (findConversation event db (db.acceptingRoutes source event) parsed).ambiguous = false →
      ∀ e ∈ db.acceptingRoutes source event, db.openings event e.1 ≠ [] →
        EditMatched event db (db.acceptingRoutes source event) parsed e.1

instance (env : SignalEnv) (event : MessageEvent) (db : Database) : Decidable (MessageMatched env event db) := by
  delta MessageMatched
  infer_instance

/-- Every edit is matched. -/
def editsMatched (s : SignalState) : SignalStep → Prop
  | .message env event => event.eventType = .edited → MessageMatched env event s.db
  | _ => True

/-! ## Openings are recorded -/

/-- The conversation of every opening has a generation that has opened. -/
def OpeningsRecorded (db : Database) : Prop :=
  ∀ id i, db.intents.get? id = some i → i.idempotencyKey.action.isOpen →
    db.openingSubmitted i.requestPayload.conversationId

section

variable {env : SignalEnv} {event : MessageEvent} {parsed : AiAction} {update : Context} {conversationId : Uuid}
  {conversation : SignalConversation} {routeId : Uuid} {route : CopyRoute} {db db' : Database}
  {alive : SemanticKey → Bool} {s : RouteSignal} {plan : RoutePlan} {view : RouteView}

omit [Unicode] in
theorem openingSubmitted_iff {c : Uuid} : db.openingSubmitted c ↔
    ∃ id a, db.assemblies.get? id = some a ∧ a.conversationId = c ∧ a.openingIntentId.isSome := by
  simp only [Database.openingSubmitted, List.any_eq_true, Bool.and_eq_true, decide_eq_true_eq, Table.get?_eq_some]
  constructor
  · rintro ⟨⟨id, a⟩, he, h⟩
    exact ⟨id, a, he, h⟩
  · rintro ⟨id, a, he, h⟩
    exact ⟨(id, a), he, h⟩

omit [Unicode] in
/-- Generations that stay, stay opened. -/
theorem openingSubmitted_mono {c : Uuid} (h : db.openingSubmitted c)
    (hkeep : ∀ id a, db.assemblies.get? id = some a → ∃ a', db'.assemblies.get? id = some a' ∧
      a'.conversationId = a.conversationId ∧ (a.openingIntentId.isSome → a'.openingIntentId.isSome)) :
    db'.openingSubmitted c := by
  obtain ⟨id, a, ha, rfl, ho⟩ := openingSubmitted_iff.1 h
  obtain ⟨a', ha', hc, ho'⟩ := hkeep id a ha
  exact openingSubmitted_iff.2 ⟨id, a', ha', hc, ho' ho⟩

/-- A generation that has opened stays so, and one whose plan has an intent of
an opening has opened. -/
theorem planSignal_opened
    (h : s.assembly.openingIntentId.isSome ∨
      s.action.isOpen ∧ (planSignal env event conversationId conversation routeId route view alive s).intents ≠ []) :
    (planSignal env event conversationId conversation routeId route view alive s).assembly.openingIntentId.isSome := by
  rcases planSignal_assembly env event conversationId conversation routeId route view alive s with ⟨hi, ha | ha⟩ | ha
  · rw [ha]
    exact h.elim id fun h => absurd hi h.2
  · rw [ha]
    exact h.elim id fun h => absurd hi h.2
  · rw [ha]
    generalize (planSignal env event conversationId conversation routeId route view alive s).intents = intents at h
    cases intents <;> split <;> simp_all [markSubmitted]

/-- What a written plan does to the generations and the intents. -/
structure Written (db : Database) (conversationId : Uuid) (plan : RoutePlan) (db' : Database) : Prop where
  kept : ∀ c, db.openingSubmitted c → db'.openingSubmitted c
  intents : ∀ id i, db'.intents.get? id = some i → db.intents.get? id = some i ∨ (id, i) ∈ plan.intents
  opened : ∀ e ∈ plan.intents, e.2.requestPayload.conversationId = conversationId ∧
    (e.2.idempotencyKey.action.isOpen → db'.openingSubmitted conversationId)

theorem planRoute_written
    (h : planRoute env event parsed update conversationId conversation routeId route
      (db.routeView env.run conversationId routeId route) alive = .ok plan) :
    Written db conversationId plan (plan.write env.run routeId db) := by
  have hget := planRoute_assemblies h
  obtain ⟨s, hs, rfl⟩ := planRoute_eq_ok h
  obtain ⟨current, hc, hm, ha, -, hfree⟩ := routeSignal_eq_ok hs
  obtain ⟨hconv, -, hnew⟩ := currentAssembly_routeView hc
  obtain ⟨hid, -, -⟩ := planSignal_rows env event conversationId conversation routeId route
    (db.routeView env.run conversationId routeId route) alive s
  have hids := planSignal_assembly_ids env event conversationId conversation routeId route
    (db.routeView env.run conversationId routeId route) alive s
  set plan := planSignal env event conversationId conversation routeId route
    (db.routeView env.run conversationId routeId route) alive s with hplan
  refine ⟨fun c hc => openingSubmitted_mono hc fun id a hg => ?_, fun id i h => Table.get?_addAll_cases h, fun e he => ?_⟩
  · rw [hget]
    by_cases he : id = plan.assemblyId
    · rw [if_pos he]
      rw [hid] at he
      subst he
      by_cases hn : s.isNew
      · rw [if_pos hn] at hnew
        have hfree := hfree hn
        simp only [Database.routeView, ← hnew.1, hg, Option.isSome_some, Bool.true_eq_false] at hfree
      · rw [if_neg hn] at hnew
        cases hnew.1.symm.trans hg
        exact ⟨plan.assembly, rfl, by rw [hids.2, hm]; rfl, fun ho => planSignal_opened (.inl (by rw [hm]; exact ho))⟩
    · rw [if_neg he]
      exact ⟨a, hg, rfl, fun ho => ho⟩
  · have hi := planSignal_isIntentFor ha he
    refine ⟨hi.conversation, fun ho => openingSubmitted_iff.2 ⟨_, _, (hget _).trans (if_pos rfl), ?_, ?_⟩⟩
    · rw [hids.2, hm]
      exact hconv
    · refine planSignal_opened (.inr ⟨?_, List.ne_nil_of_mem he⟩)
      have := hi.action.trans ha
      rw [Option.some.injEq] at this
      rwa [← this]

omit [Unicode] in
theorem openingsRecorded_written (hr : OpeningsRecorded db) (h : Written db conversationId plan db') :
    OpeningsRecorded db' := by
  intro id i hg ho
  rcases h.intents id i hg with hold | hnew
  · exact h.kept _ (hr id i hold ho)
  · obtain ⟨hc, hopened⟩ := h.opened _ hnew
    rw [hc]
    exact hopened ho

omit [Unicode] in
/-- Only the generations and the intents matter. -/
theorem openingsRecorded_congr (hr : OpeningsRecorded db) (hi : db'.intents = db.intents)
    (ha : db'.assemblies = db.assemblies) : OpeningsRecorded db' := by
  intro id i hg ho
  rw [hi] at hg
  rw [Database.openingSubmitted, ha]
  exact hr id i hg ho

/-- Every written plan keeps the record. -/
theorem kept_openingsRecorded (env : SignalEnv) (event : MessageEvent) : Kept env event OpeningsRecorded where
  conversations _ _ hr := openingsRecorded_congr hr rfl rfl
  write _ _ _ _ _ _ _ _ _ hr hplan := openingsRecorded_written hr (planRoute_written hplan)

/-- The loop starts from the intents and generations there were. -/
theorem prepare_db {loop : RouteLoop} (h : prepare env event db = .ok loop) :
    loop.db.intents = db.intents ∧ loop.db.assemblies = db.assemblies := by
  obtain ⟨source, -, hl⟩ := prepare_eq_ok h
  obtain ⟨-, -, conversations, hdb⟩ := openConversation_eq_ok (startLoop_eq_ok hl).2.2.2.1
  rw [hdb]
  exact ⟨rfl, rfl⟩

omit [Unicode] in
/-- Moving generations to other states keeps what they opened. -/
theorem openingsRecorded_mapRows (hr : OpeningsRecorded db) (hi : db'.intents = db.intents)
    {f : Uuid → RouteSignalAssembly → RouteSignalAssembly} (ha : db'.assemblies = db.assemblies.mapRows f)
    (hf : ∀ id a, (f id a).conversationId = a.conversationId ∧ (f id a).openingIntentId = a.openingIntentId) :
    OpeningsRecorded db' := by
  intro id i hg ho
  rw [hi] at hg
  refine openingSubmitted_mono (hr id i hg ho) fun id a hg => ⟨f id a, ?_, (hf id a).1, ?_⟩
  · rw [ha, Table.get?_mapRows, hg]
    rfl
  · rw [(hf id a).2]
    exact fun h => h

theorem signalHandler_recorded {keys : SemanticKeys} {r : DeliveryResult} (hr : OpeningsRecorded db)
    (h : (signalHandler env event db keys).result = .ok (r, db')) : OpeningsRecorded db' := by
  refine (kept_openingsRecorded env event).signalHandler (fun hr => ?_) hr h
  refine openingsRecorded_mapRows hr rfl (f := fun _ => deleteGeneration event db) rfl fun id a => ?_
  unfold deleteGeneration
  split <;> exact ⟨rfl, rfl⟩

end

/-- One step of a history keeps the record. -/
theorem signalStep_recorded {s s' : SignalState} {a : SignalStep} (hr : OpeningsRecorded s.db)
    (h : signalStep s a = some s') : OpeningsRecorded s'.db := by
  cases a with
  | message env event =>
    cases h
    simp only
    split
    · rename_i hres
      exact signalHandler_recorded hr hres
    · exact hr
  | failure env event n => cases h; exact hr
  | expire now =>
    cases h
    refine openingsRecorded_mapRows hr rfl (f := fun _ => expireGeneration now) rfl fun id a => ?_
    unfold expireGeneration
    split <;> exact ⟨rfl, rfl⟩
  | outside sources userSettings routes policies trades =>
    cases h
    exact openingsRecorded_congr hr rfl rfl
  | intentStates state =>
    cases h
    intro id i hg ho
    rw [Table.get?_mapRows] at hg
    obtain ⟨i₀, hg₀, rfl⟩ := Option.map_eq_some_iff.mp hg
    exact hr id i₀ hg₀ ho

/-- In every history the conversation of an opening has a generation that has opened. -/
theorem openingsRecorded {s₀ s : SignalState} {ok : SignalState → SignalStep → Prop} (h₀ : s₀.db.intents = ∅)
    (h : Reach signalStep ok s₀ s) : OpeningsRecorded s.db :=
  h.invariant (fun id i hg => by rw [h₀] at hg; cases hg) fun _ _ _ hr _ hs => signalStep_recorded hr hs

/-! ## Edits -/

section

variable {env : SignalEnv} {event : MessageEvent} {db : Database} {loop : RouteLoop} {e : Uuid × CopyRoute}

/-- The conversation found is a row of the table, seen as a candidate. -/
theorem findConversation_row {routes : List (Uuid × CopyRoute)} {parsed : AiAction} {c : ConversationCandidate}
    (h : (findConversation event db routes parsed).selected = some c) :
    ∃ row, db.conversations.get? c.id = some row ∧ c = db.candidate routes c.id row := by
  unfold findConversation at h
  split at h
  · rename_i id row _ hs
    cases h
    have hm : (id, row) ∈ db.conversations.select fun _ c =>
        c.sourceId = event.sourceId && c.correlationId = event.correlationId := by simp [hs]
    exact ⟨row, (Table.mem_select.1 hm).1, rfl⟩
  · have hm := ConversationQuery.chooseConversation_mem h
    obtain ⟨⟨id, row⟩, hrow, rfl⟩ := List.mem_map.mp hm
    exact ⟨row, (Table.mem_select.1 hrow).1, rfl⟩

/-- The update of a matched edit is no opening. -/
theorem update_not_opening (hr : OpeningsRecorded db) (he : event.eventType = .edited)
    (hl : startLoop env event db loop.routes = .ok loop)
    (hm : EditMatched event db loop.routes loop.parsed e.1) :
    ∃ a, loop.update.action = some a ∧ a.isOpening = false ∧ loop.conversation.context.action = some a := by
  obtain ⟨-, -, -, ho, -⟩ := startLoop_eq_ok hl
  obtain ⟨⟨row, hu, hconv⟩, -, -⟩ := openConversation_eq_ok ho
  obtain ⟨hadd, c, hc, ⟨i, hi, hic, hopen⟩, -⟩ := hm
  obtain ⟨a, ha, hna⟩ : ∃ a, loop.update.action = some a ∧ a.isOpening = false := by
    rw [hu, parsedUpdate]
    split
    · rcases corrective_action row.context loop.parsed.modelDump with h | h <;> exact ⟨_, h, rfl⟩
    · rename_i hno
      refine ⟨loop.parsed.action, rfl, ?_⟩
      by_cases hp : loop.parsed.action.isOpen
      · obtain ⟨hio, row', hrow', hactive⟩ := hopen hp
        obtain ⟨row'', hrow'', hcand⟩ := findConversation_row hc
        cases hrow'.symm.trans hrow''
        have hrec := hr i.1 i.2 (Table.mem_select.1 (List.mem_filter.mp hi).1).1 hio
        rw [hic] at hrec
        have : c.openingSubmitted := by rw [hcand]; simp [Database.candidate, hactive, hrec]
        simp [he, hc, this, hp] at hno
      · cases hact : loop.parsed.action <;> simp_all [SignalAction.isOpen, SignalAction.isOpening]
  refine ⟨a, ha, hna, ?_⟩
  rw [hconv, mergeConversation_context, mergeContext, ha, mergeField_some]

/-- So is the action its route makes of it. -/
theorem action_not_opening (hr : OpeningsRecorded db) (he : event.eventType = .edited)
    (hl : startLoop env event db loop.routes = .ok loop) (hdb : loop.db.assemblies = db.assemblies)
    (hm : EditMatched event db loop.routes loop.parsed e.1) {s : RouteSignal}
    (hs : routeSignal env event loop.parsed loop.update loop.conversationId loop.conversation e.1 e.2
      (loop.db.routeView env.run loop.conversationId e.1 e.2) = .ok s) : s.action.isOpening = false := by
  obtain ⟨a, ha, hna, hca⟩ := update_not_opening hr he hl hm
  obtain ⟨-, -, -, ho, -⟩ := startLoop_eq_ok hl
  obtain ⟨-, c, hc, -, hgen⟩ := hm
  obtain ⟨row, hrow, -⟩ := findConversation_row hc
  have hid : loop.conversationId = c.id := (openConversation_eq_ok ho).2.1 c row hc hrow
  obtain ⟨current, hcur, hmerge, hact, -⟩ := routeSignal_eq_ok hs
  obtain ⟨hconv, hroute, hnew⟩ := currentAssembly_routeView hcur
  have haction : s.action = a := by
    rw [hmerge, mergeMessage, mergeGeneration_action ha] at hact
    split at hnew
    · rw [hnew.2.1, hca] at hact
      split at hact <;> simpa using hact.symm
    · have hopened := hgen (s.assemblyId, current) (Table.get?_eq_some.1 (hdb ▸ hnew.1)) (hconv.trans hid) hroute
        hnew.2
      simpa [hopened] using hact.symm
  rw [haction]
  exact hna

/-- The intents a matched edit gives a route are no openings. -/
theorem outcome_not_opening (hr : OpeningsRecorded db) (he : event.eventType = .edited)
    (hl : startLoop env event db loop.routes = .ok loop) (hdb : loop.db.assemblies = db.assemblies)
    (hm : EditMatched event db loop.routes loop.parsed e.1) {keys : SemanticKeys} {out : List (Uuid × TradeIntent)}
    (ho : routeOutcome env event loop keys e = .ok out) : ∀ i ∈ out, i.2.idempotencyKey.action.isOpening = false := by
  intro i hi
  obtain ⟨s, hs, hfor⟩ := routeOutcome_isIntentFor ho hi
  obtain ⟨-, -, -, hact, -⟩ := routeSignal_eq_ok hs
  rw [Option.some.inj (hfor.action.trans hact)]
  exact action_not_opening hr he hl hdb hm hs

/-- They are for the conversation of the opening. -/
theorem outcome_conversation (hl : startLoop env event db loop.routes = .ok loop)
    (hm : EditMatched event db loop.routes loop.parsed e.1) {keys : SemanticKeys} {out : List (Uuid × TradeIntent)}
    (ho : routeOutcome env event loop keys e = .ok out) :
    ∀ i ∈ out, ∃ o ∈ db.openings event e.1, o.2.requestPayload.conversationId = i.2.requestPayload.conversationId := by
  intro i hi
  obtain ⟨-, c, hc, ⟨o, hmem, hoc, -⟩, -⟩ := hm
  obtain ⟨row, hrow, -⟩ := findConversation_row hc
  obtain ⟨-, -, -, hopen, -⟩ := startLoop_eq_ok hl
  have hid : loop.conversationId = c.id := (openConversation_eq_ok hopen).2.1 c row hc hrow
  obtain ⟨s, hs, hfor⟩ := routeOutcome_isIntentFor ho hi
  exact ⟨o, hmem, by rw [hoc, hfor.conversation, hid]⟩

end

/-- What an edit adds to a route on which its message has opened: instructions
for the conversation of the opening, none of them an opening. -/
structure Corrects (event : MessageEvent) (db db' : Database) (routeId : Uuid) : Prop where
  intents : ∃ out, db'.intentsOf routeId = db.intentsOf routeId ++ out ∧
    ∀ i ∈ out, i.2.idempotencyKey.action.isOpening = false ∧
      ∃ o ∈ db.openings event routeId, o.2.requestPayload.conversationId = i.2.requestPayload.conversationId
  openings : db'.openings event routeId = db.openings event routeId

section

variable {env : SignalEnv} {event : MessageEvent} {db db' : Database}

omit [Unicode] in
theorem Corrects.of_out {routeId : Uuid} {out : List (Uuid × TradeIntent)}
    (h : db'.intentsOf routeId = db.intentsOf routeId ++ out)
    (hout : ∀ i ∈ out, i.2.idempotencyKey.action.isOpening = false ∧
      ∃ o ∈ db.openings event routeId, o.2.requestPayload.conversationId = i.2.requestPayload.conversationId) :
    Corrects event db db' routeId := by
  refine ⟨⟨out, h, hout⟩, ?_⟩
  have hnone : out.filter (fun e : Uuid × TradeIntent =>
      e.2.idempotencyKey.connectionId = event.connectionId && e.2.idempotencyKey.chatId = event.chatId &&
        e.2.idempotencyKey.messageId = event.messageId && e.2.idempotencyKey.action.isOpening) = [] := by
    refine List.filter_eq_nil_iff.mpr fun i hi => ?_
    simp [(hout i hi).1]
  rw [Database.openings, h, List.filter_append, hnone, List.append_nil]
  rfl

omit [Unicode] in
theorem Corrects.of_same {routeId : Uuid} (h : db'.intentsOf routeId = db.intentsOf routeId) :
    Corrects event db db' routeId :=
  .of_out (h.trans (List.append_nil _).symm) fun _ hi => absurd hi List.not_mem_nil

/-- A run on a matched edit corrects. -/
theorem signalHandler_corrects {keys : SemanticKeys} {r : DeliveryResult} (hr : OpeningsRecorded db)
    (he : event.eventType = .edited) (hm : MessageMatched env event db)
    (h : (signalHandler env event db keys).result = .ok (r, db')) {routeId : Uuid}
    (hopen : db.openings event routeId ≠ []) : Corrects event db db' routeId := by
  unfold signalHandler at h
  split at h
  · rename_i run hp
    rcases prepare_eq_error hp h with rfl | rfl
    · exact .of_same rfl
    · exact .of_same rfl
  · rename_i loop hp
    obtain ⟨source, hsource, hl⟩ := prepare_eq_ok hp
    obtain ⟨hparse, hstatus, hamb, -, hroutes⟩ := startLoop_eq_ok hl
    obtain ⟨hi, ha⟩ := prepare_db hp
    rcases hrun : processRoutes env event loop.parsed loop.update loop.conversationId loop.conversation loop.routes
      { db := loop.db, semantic := keys, effects := [] } with ⟨result, effects⟩
    simp only [RouteLoop.run, hrun] at h
    cases result with
    | error x => cases h
    | ok db₁ =>
      cases h
      have hnd : (loop.routes.map Prod.fst).Nodup := by
        rw [hroutes]
        exact Table.nodup_select _ _
      obtain ⟨hin, hout⟩ := processRoutes_ok hnd ⟨fun _ _ => rfl, fun _ _ _ _ => rfl⟩ hrun
      have hsame (q : Uuid) : loop.db.intentsOf q = db.intentsOf q := by rw [Database.intentsOf, hi]; rfl
      by_cases hmem : routeId ∈ loop.routes.map Prod.fst
      · obtain ⟨e, he', rfl⟩ := List.mem_map.mp hmem
        rw [← hroutes] at hl hamb
        have hmatched : EditMatched event db loop.routes loop.parsed e.1 := by
          rw [hroutes]
          exact hm source hsource loop.parsed (by rw [hparse]; rfl) hstatus (hroutes ▸ hamb) e (hroutes ▸ he') hopen
        obtain ⟨out, ho, hints⟩ := hin e he'
        rw [hsame] at hints
        exact .of_out hints fun i hi' =>
          ⟨outcome_not_opening hr he hl ha hmatched ho i hi', outcome_conversation hl hmatched ho i hi'⟩
      · exact .of_same ((hout routeId hmem).trans (hsame routeId))

end

/-- **An edit opens nothing.** In a history whose edits are all matched, an edit
of a message that has opened on a route adds no opening there: what it adds are
corrections for the conversation that opened. -/
theorem edit_opens_nothing {s₀ s s' : SignalState} (h₀ : s₀.db.intents = ∅)
    (h : Reach signalStep editsMatched s₀ s) {env : SignalEnv} {event : MessageEvent}
    (he : event.eventType = .edited) (hm : MessageMatched env event s.db)
    (hs : signalStep s (.message env event) = some s') {routeId : Uuid} (hopen : s.db.openings event routeId ≠ []) :
    Corrects event s.db s'.db routeId := by
  cases hs
  simp only
  split
  · rename_i hres
    exact signalHandler_corrects (openingsRecorded h₀ h) he hm hres hopen
  · exact .of_same rfl

/-! ## Two edits -/

def goldMessageEdited : MessageEvent :=
  { goldMessage with
    eventType := .edited
    correlationId := 17
    text := "BUY XAUUSD SL 2385 TP 2410"
    occurredAt := seconds 120 }

omit [Unicode] in
/-- The message opens in a conversation of its own, and its edit is matched there. -/
theorem edit_opens_nothing_goldMessageEdited :
    let _ := Unicode.ascii
    ∃ s s', signalStep { db := goldDatabase } (.message (goldEnv 0 (seconds 101) buyGold) goldMessage) = some s ∧
      signalStep s (.message (goldEnv 1 (seconds 121) { buyGold with stopLoss := some 2385 }) goldMessageEdited) = some s' ∧
      s.db.openings goldMessageEdited 4 ≠ [] ∧ Corrects goldMessageEdited s.db s'.db 4 := by
  intro _
  refine ⟨_, _, rfl, rfl, by decide +kernel, ?_⟩
  have hstart : Reach signalStep editsMatched { db := goldDatabase } { db := goldDatabase } := .refl
  refine edit_opens_nothing rfl (hstart.tail (a := .message _ _) ?_ rfl) rfl (by decide +kernel) rfl (by decide +kernel)
  exact fun he => absurd he (by decide)

/-- What the parser reads from `BUY XAUUSD now`, `SL 2395` and `BUY LIMIT XAUUSD
2385 SL 2375 TP 2410`. -/
def buyNow : AiAction where
  action := .open_market
  symbol := some "XAUUSD"
  direction := some .buy
  confidence := 1

def moveStop : AiAction where
  action := .modify_sl_tp
  stopLoss := some 2395
  confidence := 1

def buyLimit : AiAction where
  action := .place_pending
  symbol := some "XAUUSD"
  direction := some .buy
  entry := some 2385
  stopLoss := some 2375
  takeProfits := [2410]
  confidence := 1

/-- The position of the opening. -/
def goldTrade : CopiedTrade where
  id := .trade 0
  routeId := 4
  threadId := .thread 0
  connectionId := some 3
  signalSymbol := "XAUUSD"
  brokerSymbol := "XAUUSD"
  brokerOrderId := none
  brokerPositionId := some "1"
  lifecycleState := .open
  originalVolume := some ⟨⟨100⟩, by decide⟩
  currentVolume := some ⟨⟨100⟩, by decide⟩
  stopLoss := none
  takeProfit := none
  createdAt := seconds 103

/-- An incomplete opening, the message that completes it, and a new stop. -/
def goldHistory : List SignalStep :=
  [ .message (goldEnv 0 (seconds 91) buyNow)
      { goldMessage with
        messageId := 10, correlationId := 15, text := "BUY XAUUSD now", occurredAt := seconds 90 },
    .message (goldEnv 1 (seconds 101) buyGold) goldMessage,
    .outside goldDatabase.sources ∅ goldDatabase.routes goldDatabase.policies (.add ∅ 8 goldTrade),
    .message (goldEnv 2 (seconds 111) moveStop)
      { goldMessage with messageId := 12, correlationId := 16, text := "SL 2395", occurredAt := seconds 110 } ]

omit [Unicode] in
/-- The second of three messages is edited: no conversation is known by it, and
the edit opens in a new one. -/
theorem goldEdit_opens_again :
    let _ := Unicode.ascii
    let edit := { goldMessageEdited with text := "BUY LIMIT XAUUSD 2385 SL 2375 TP 2410" }
    let actions (s : SignalState) := (s.db.openings edit 4).map fun e => e.2.idempotencyKey.action
    ∃ s s', Reach signalStep always { db := goldDatabase } s ∧
      signalStep s (.message (goldEnv 3 (seconds 121) buyLimit) edit) = some s' ∧
      actions s = [.open_market] ∧ actions s' = [.open_market, .place_pending] := by
  intro _ edit actions
  have hbefore : (run signalStep { db := goldDatabase } goldHistory).map actions = some [.open_market] := by
    decide +kernel
  have hafter : ((run signalStep { db := goldDatabase } goldHistory).bind fun s =>
      signalStep s (.message (goldEnv 3 (seconds 121) buyLimit) edit)).map actions =
        some [.open_market, .place_pending] := by
    decide +kernel
  obtain ⟨s, hrun, hs⟩ := Option.map_eq_some_iff.mp hbefore
  rw [hrun, Option.bind_some] at hafter
  obtain ⟨s', hstep, hs'⟩ := Option.map_eq_some_iff.mp hafter
  exact ⟨s, s', .of_run hrun, hstep, hs, hs'⟩

end SignalSync
