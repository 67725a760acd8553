import SignalSync.Library.Except
import SignalSync.Signal.Keys

/-!
# Where the fields of an instruction come from

A conversation keeps what its messages have said, and a generation begins with all
of it. `ContentState` remembers who has said what (`Statement`), and which of the
messages were deleted before they were executed. A message is dead for a route once
it is deleted so, or its generation there has been skipped or has expired.

* `ContentSound`: the fields of a generation in progress, and who has stated them;
* `noLeak_of_step`: where generations begin with nothing dead, no intent says
  anything dead;
* `goldDeleted_leaks`: the stop loss of a deleted message in the next one's intent.
-/

namespace SignalSync

open Library

variable [Unicode]

/-! ## Fields -/

/-- A field, with what it says. -/
inductive Field
  | symbol (value : String)
  | direction (value : Direction)
  | entry (value : Decimal)
  | stopLoss (value : Decimal)
  | takeProfit (level : Decimal)
deriving DecidableEq

def Context.states (c : Context) : Field → Bool
  | .symbol value => c.symbol = some value
  | .direction value => c.direction = some value
  | .entry value => c.entry = some value
  | .stopLoss value => c.stopLoss = some value
  | .takeProfit level => level ∈ c.takeProfits

def Context.fields (c : Context) : List Field :=
  (c.symbol.map Field.symbol).toList ++ (c.direction.map Field.direction).toList ++ (c.entry.map Field.entry).toList ++
    (c.stopLoss.map Field.stopLoss).toList ++ c.takeProfits.map Field.takeProfit

omit [Unicode] in
theorem Context.mem_fields {c : Context} {f : Field} : f ∈ c.fields ↔ c.states f := by
  cases f <;> simp [fields, states]

instance {c : Context} {P : Field → Prop} [DecidablePred P] : Decidable (∀ f, c.states f → P f) :=
  decidable_of_iff (∀ f ∈ c.fields, P f) (forall_congr' fun _ => imp_congr_left Context.mem_fields)

/-- What an intent's payload says: its context, and the take profit of its leg. -/
def Payload.states (p : Payload) (f : Field) : Bool :=
  p.context.states f || p.takeProfit.any fun level => f = .takeProfit level

omit [Unicode] in
theorem mergeField_eq_some {α : Type} {current update : Option α} {a : α} (h : mergeField current update = some a) :
    update = some a ∨ current = some a := by
  cases update with
  | none => exact .inr h
  | some b => exact .inl h

omit [Unicode] in
theorem mergeText_eq_some {current update : Option String} {a : String} (h : mergeText current update = some a) :
    update = some a ∨ current = some a := by
  unfold mergeText at h
  split at h
  · exact .inr h
  · exact mergeField_eq_some h

omit [Unicode] in
theorem mem_mergeList {α : Type} {current update : List α} {a : α} (h : a ∈ mergeList current update) :
    a ∈ update ∨ a ∈ current := by
  unfold mergeList at h
  split at h
  · exact .inr h
  · exact .inl h

omit [Unicode] in
/-- A merged context says what the update says, or the context before. -/
theorem mergeContext_states {current update : Context} {f : Field} (h : (mergeContext current update).states f) :
    update.states f ∨ current.states f := by
  cases f <;> simp only [Context.states, decide_eq_true_eq] at h ⊢
  · exact mergeText_eq_some h
  · exact mergeField_eq_some h
  · exact mergeField_eq_some h
  · exact mergeField_eq_some h
  · exact mem_mergeList h

omit [Unicode] in
theorem mergeGenerationContext_states {current update : Context} {submitted : Bool} {f : Field}
    (h : (mergeGenerationContext current update submitted).states f) : update.states f ∨ current.states f := by
  cases f with
  | takeProfit level =>
    simp only [Context.states, mergeGenerationContext, decide_eq_true_eq] at h ⊢
    split at h
    · simp only [decide_eq_true_eq, List.mem_eraseDups, List.mem_append] at h
      exact h.symm
    · exact mem_mergeList (of_decide_eq_true h)
  | _ => exact mergeContext_states h

/-! ## Statements -/

/-- A message that has been taken into a conversation. -/
structure Statement where
  conversationId : Uuid
  messageId : Int
  update : Context
  /-- The generations it went to, one on each route that was not paused. -/
  generations : List Uuid
  /-- An intent has been made with it. -/
  executed : Bool := false
  /-- It was deleted before. -/
  withdrawn : Bool := false
deriving DecidableEq

namespace Statement

/-- The message is deleted. -/
def withdraw (event : MessageEvent) (db : Database) (st : Statement) : Statement :=
  if st.messageId = event.messageId && !st.executed &&
      (db.conversations.get? st.conversationId).any (·.sourceId = event.sourceId) then
    { st with withdrawn := true }
  else st

def execute (generations : List Uuid) (st : Statement) : Statement :=
  if st.generations.any (· ∈ generations) then { st with executed := true } else st

/-- It was deleted before it was executed, or its generation on the route has been
skipped or has expired. -/
def DeadOn (db : Database) (routeId : Uuid) (st : Statement) : Prop :=
  st.withdrawn ∨ ∃ id ∈ st.generations, ∃ a ∈ db.assemblies.get? id, a.routeId = routeId ∧
    (a.state = .skipped ∨ a.state = .expired)

instance (db : Database) (routeId : Uuid) (st : Statement) : Decidable (st.DeadOn db routeId) := by
  delta DeadOn
  infer_instance

end Statement

structure ContentState extends SignalState where
  statements : List Statement := []

/-- The generations a message goes to. -/
def RouteLoop.takers (env : SignalEnv) (loop : RouteLoop) : List Uuid :=
  (loop.routes.filter fun e => !(loop.view env e).isPaused).map fun e => (loop.current env e).1

/-- The generations that get intents. -/
def RouteLoop.executors (env : SignalEnv) (event : MessageEvent) (keys : SemanticKeys) (loop : RouteLoop) : List Uuid :=
  (loop.routes.filter fun e => !(loop.view env e).isPaused &&
    (loop.planFor env event e keys).toOption.any fun plan => !plan.intents.isEmpty).map fun e => (loop.current env e).1

/-- What the message adds. -/
def RouteLoop.statement (env : SignalEnv) (event : MessageEvent) (loop : RouteLoop) : Statement where
  conversationId := loop.conversationId
  messageId := event.messageId
  update := loop.update
  generations := loop.takers env

namespace ContentState

/-- The statements after a run that commits. -/
def record (s : ContentState) (env : SignalEnv) (event : MessageEvent) : List Statement :=
  if event.eventType = .deleted then s.statements.map (Statement.withdraw event s.db)
  else match prepare env event s.db with
    | .error _ => s.statements
    | .ok loop => (s.statements ++ [loop.statement env event]).map (Statement.execute (loop.executors env event s.keys))

def step (s : ContentState) (a : SignalStep) : Option ContentState :=
  (signalStep s.toSignalState a).map fun t =>
    { toSignalState := t
      statements := match a with
        | .message env event =>
          match (signalHandler env event s.db s.keys).result with
          | .ok _ => s.record env event
          | .error _ => s.statements
        | _ => s.statements }

/-- Some message of the conversation says so: one of the generation, or one that
is not dead for the route. -/
def SaidFor (s : ContentState) (conversationId routeId generation : Uuid) (f : Field) : Prop :=
  ∃ st ∈ s.statements, st.conversationId = conversationId ∧ st.update.states f ∧
    (generation ∈ st.generations ∨ ¬ st.DeadOn s.db routeId)

instance (s : ContentState) (conversationId routeId generation : Uuid) (f : Field) :
    Decidable (s.SaidFor conversationId routeId generation f) := by
  delta SaidFor
  infer_instance

/-- The intents added by a step say nothing dead. -/
def NoLeak (s t : ContentState) : Prop :=
  ∀ id i, t.db.intents.get? id = some i → s.db.intents.get? id = none →
    ∃ row, t.db.parsedActions.get? i.parsedActionId = some row ∧
      ∀ f, i.requestPayload.states f →
        t.SaidFor i.requestPayload.conversationId i.idempotencyKey.routeId row.assemblyId f

/-- The generations that a message begins, begin with nothing dead but what it says
itself. -/
def BeginsClean (s : ContentState) (env : SignalEnv) (event : MessageEvent) : Prop :=
  ∀ loop, prepare env event s.db = .ok loop → ∀ e ∈ loop.routes, (loop.view env e).isPaused = false →
    (loop.current env e).2.2 → ∀ f, loop.conversation.context.states f → loop.update.states f ∨
      ∃ st ∈ s.statements, st.conversationId = loop.conversationId ∧ st.update.states f ∧ ¬ st.DeadOn s.db e.1

/-- A generation that a deletion leaves in progress has nothing that only messages of
other generations said which are dead now. -/
def DeletesClean (s : ContentState) (event : MessageEvent) : Prop :=
  ∀ id a, s.db.assemblies.get? id = some a → (deleteGeneration event s.db a).state.isActive → ∀ f, a.context.states f →
    ∃ st ∈ s.statements, st.conversationId = a.conversationId ∧ st.update.states f ∧
      (id ∈ st.generations ∨ ¬ (st.withdraw event s.db).DeadOn s.db a.routeId)

def clean (s : ContentState) : SignalStep → Prop
  | .message env event => if event.eventType = .deleted then s.DeletesClean event else s.BeginsClean env event
  | _ => True

instance (s : ContentState) (env : SignalEnv) (event : MessageEvent) : Decidable (s.BeginsClean env event) := by
  delta BeginsClean
  infer_instance

instance (s : ContentState) (event : MessageEvent) : Decidable (s.DeletesClean event) := by
  delta DeletesClean
  infer_instance

instance (s : ContentState) (a : SignalStep) : Decidable (s.clean a) :=
  match a with
  | .message env event => inferInstanceAs (Decidable (if event.eventType = .deleted then s.DeletesClean event else s.BeginsClean env event))
  | .failure .. | .expire _ | .outside .. | .intentStates _ => isTrue trivial

end ContentState

/-! ## Generations in progress -/

/-- Generations stay where they are, and only those in progress change. -/
def Database.Evolves (db db' : Database) : Prop :=
  ∀ id a, db.assemblies.get? id = some a → ∃ a', db'.assemblies.get? id = some a' ∧
    a'.conversationId = a.conversationId ∧ a'.routeId = a.routeId ∧ (a' = a ∨ a.state.isActive)

omit [Unicode] in
theorem Database.Evolves.mapRows {db db' : Database} {f : Uuid → RouteSignalAssembly → RouteSignalAssembly}
    (hdb : db'.assemblies = db.assemblies.mapRows f)
    (hf : ∀ id a, f id a = a ∨ a.state.isActive ∧ f id a = { a with state := .expired }) : db.Evolves db' := by
  intro id a ha
  refine ⟨f id a, by rw [hdb, Table.get?_mapRows, ha]; rfl, ?_⟩
  rcases hf id a with he | ⟨hactive, he⟩ <;> rw [he]
  · exact ⟨rfl, rfl, .inl rfl⟩
  · exact ⟨rfl, rfl, .inr hactive⟩

/-- The message is not deleted, and its generations on the route are finished. -/
structure Statement.ClearOn (db : Database) (routeId : Uuid) (st : Statement) : Prop where
  kept : st.withdrawn = false
  finished : ∀ id ∈ st.generations, ∀ a, db.assemblies.get? id = some a → a.routeId = routeId → a.state.isFinished

/-- Where the generations of the statements are, and who has said what those in
progress have. -/
structure ContentSound (db : Database) (statements : List Statement) : Prop where
  placed : ∀ st ∈ statements, ∀ id ∈ st.generations, ∃ a, db.assemblies.get? id = some a ∧
    a.conversationId = st.conversationId
  /-- The partial unique index. -/
  one : ∀ id a id' a', db.assemblies.get? id = some a → db.assemblies.get? id' = some a' → a.state.isActive →
    a'.state.isActive → a.conversationId = a'.conversationId → a.routeId = a'.routeId → id = id'
  said : ∀ id a, db.assemblies.get? id = some a → a.state.isActive → ∀ f, a.context.states f →
    ∃ st ∈ statements, st.conversationId = a.conversationId ∧ st.update.states f ∧
      (id ∈ st.generations ∨ st.ClearOn db a.routeId)

section

variable {db db' : Database} {statements : List Statement} {routeId : Uuid} {st : Statement}

omit [Unicode] in
theorem Statement.ClearOn.not_deadOn (h : st.ClearOn db routeId) : ¬ st.DeadOn db routeId := by
  rintro (hw | ⟨id, hid, a, ha, hr, hs⟩)
  · rw [h.kept] at hw
    cases hw
  · have := h.finished id hid a ha hr
    rcases hs with hs | hs <;> rw [hs] at this <;> cases this

omit [Unicode] in
/-- A message that is not dead is clear of the route, where it has no generation in progress. -/
theorem Statement.clearOn_of_not_deadOn (h : ¬ st.DeadOn db routeId)
    (ha : ∀ id ∈ st.generations, ∀ a, db.assemblies.get? id = some a → a.routeId = routeId → a.state.isActive = false) :
    st.ClearOn db routeId := by
  simp only [Statement.DeadOn, not_or, not_exists, not_and, Bool.not_eq_true] at h
  refine ⟨h.1, fun id hid a hg hr => ?_⟩
  have hinactive := ha id hid a hg hr
  have hdead := h.2 id hid a hg hr
  cases hs : a.state <;> simp_all [RouteAssemblyState.isActive, RouteAssemblyState.isFinished]

omit [Unicode] in
theorem Statement.ClearOn.evolves (h : st.ClearOn db routeId) (he : db.Evolves db')
    (hp : ∀ id ∈ st.generations, ∃ a, db.assemblies.get? id = some a) : st.ClearOn db' routeId := by
  refine ⟨h.kept, fun id hid a' ha' hr => ?_⟩
  obtain ⟨a, ha⟩ := hp id hid
  obtain ⟨a'', ha'', -, hroute, hsame⟩ := he id a ha
  cases ha'.symm.trans ha''
  have hfin := h.finished id hid a ha (hroute ▸ hr)
  rcases hsame with rfl | hactive
  · exact hfin
  · rw [RouteAssemblyState.not_finished_of_active hactive] at hfin
    cases hfin

omit [Unicode] in
/-- Where generations only expire, it is enough that those left are still said. -/
theorem ContentSound.expires (h : ContentSound db statements) {statements' : List Statement}
    {f : Uuid → RouteSignalAssembly → RouteSignalAssembly} (hdb : db'.assemblies = db.assemblies.mapRows f)
    (hf : ∀ id a, f id a = a ∨ a.state.isActive ∧ f id a = { a with state := .expired })
    (hold : ∀ st ∈ statements', ∃ st₀ ∈ statements, st.generations = st₀.generations ∧ st.conversationId = st₀.conversationId)
    (hsaid : ∀ id a, db.assemblies.get? id = some a → (f id a).state.isActive → ∀ x, a.context.states x →
      ∃ st ∈ statements', st.conversationId = a.conversationId ∧ st.update.states x ∧
        (id ∈ st.generations ∨ st.ClearOn db a.routeId)) : ContentSound db' statements' := by
  have hev := Database.Evolves.mapRows hdb hf
  -- a generation still in progress is as it was
  have hsame (id : Uuid) (a' : RouteSignalAssembly) (ha' : db'.assemblies.get? id = some a') (hact : a'.state.isActive) :
      db.assemblies.get? id = some a' ∧ (f id a').state.isActive := by
    rw [hdb, Table.get?_mapRows] at ha'
    obtain ⟨a, ha, rfl⟩ := Option.map_eq_some_iff.mp ha'
    rcases hf id a with he | ⟨-, he⟩ <;> rw [he] at hact ⊢
    · exact ⟨ha, by rw [he]; exact hact⟩
    · cases hact
  refine ⟨fun st hst id hid => ?_, fun id a id' a' ha ha' hact hact' => ?_, fun id a ha hact x hx => ?_⟩
  · obtain ⟨st₀, hst₀, hg, hc⟩ := hold st hst
    obtain ⟨a, ha, hac⟩ := h.placed st₀ hst₀ id (hg ▸ hid)
    obtain ⟨a', ha', hc', -⟩ := hev id a ha
    exact ⟨a', ha', by rw [hc', hac, hc]⟩
  · exact h.one id a id' a' (hsame id a ha hact).1 (hsame id' a' ha' hact').1 hact hact'
  · obtain ⟨ha₀, hact₀⟩ := hsame id a ha hact
    obtain ⟨st, hst, hc, hsx, hlive⟩ := hsaid id a ha₀ hact₀ x hx
    refine ⟨st, hst, hc, hsx, hlive.imp_right fun hclear => hclear.evolves hev fun id' hid' => ?_⟩
    obtain ⟨st₀, hst₀, hg, -⟩ := hold st hst
    obtain ⟨a', ha', -⟩ := h.placed st₀ hst₀ id' (hg ▸ hid')
    exact ⟨a', ha'⟩

end

section

variable {env : SignalEnv} {event : MessageEvent} {loop : RouteLoop} {e : Uuid × CopyRoute} {keys : SemanticKeys}
  {plan : RoutePlan} {db : Database}

/-! ### A message -/

omit [Unicode] in
@[simp] theorem Statement.execute_generations (g : List Uuid) (st : Statement) : (st.execute g).generations = st.generations := by
  unfold execute
  split <;> rfl

omit [Unicode] in
@[simp] theorem Statement.execute_conversationId (g : List Uuid) (st : Statement) :
    (st.execute g).conversationId = st.conversationId := by
  unfold execute
  split <;> rfl

omit [Unicode] in
@[simp] theorem Statement.execute_update (g : List Uuid) (st : Statement) : (st.execute g).update = st.update := by
  unfold execute
  split <;> rfl

omit [Unicode] in
@[simp] theorem Statement.execute_withdrawn (g : List Uuid) (st : Statement) : (st.execute g).withdrawn = st.withdrawn := by
  unfold execute
  split <;> rfl

omit [Unicode] in
@[simp] theorem Statement.withdraw_generations (event : MessageEvent) (db : Database) (st : Statement) :
    (st.withdraw event db).generations = st.generations := by
  unfold withdraw
  split <;> rfl

omit [Unicode] in
@[simp] theorem Statement.withdraw_conversationId (event : MessageEvent) (db : Database) (st : Statement) :
    (st.withdraw event db).conversationId = st.conversationId := by
  unfold withdraw
  split <;> rfl

omit [Unicode] in
@[simp] theorem Statement.withdraw_update (event : MessageEvent) (db : Database) (st : Statement) :
    (st.withdraw event db).update = st.update := by
  unfold withdraw
  split <;> rfl

omit [Unicode] in
theorem Statement.ClearOn.execute {st : Statement} {routeId : Uuid} (h : st.ClearOn db routeId) (g : List Uuid) :
    (st.execute g).ClearOn db routeId :=
  ⟨by simpa using h.kept, by simpa using h.finished⟩

variable {statements : List Statement} {db' : Database} {effects : List RedisEffect}

namespace LoopEnds

variable (h : LoopEnds env event keys db loop db')
include h

/-- Only generations in progress are gone on with. -/
theorem evolves : db.Evolves db' := by
  intro id a ha
  rcases h.others id with hsame | ⟨e, he, plan, hn, hplan, rfl⟩
  · exact ⟨a, hsame.trans ha, rfl, rfl, .inl rfl⟩
  · obtain ⟨plan', hplan', hrow, -⟩ := h.rows e he hn
    cases hplan.symm.trans hplan'
    obtain ⟨hactive, hc, hr⟩ := planRoute_current hplan (h.assemblies ▸ ha)
    obtain ⟨-, -, hc', hr', -⟩ := planFor_assembly hplan
    exact ⟨plan.assembly, hrow, by rw [hc', hc], by rw [hr', hr], .inr hactive⟩

/-- The message is placed in the generations it went to. -/
theorem placed : ∀ id ∈ loop.takers env, ∃ a, db'.assemblies.get? id = some a ∧ a.conversationId = loop.conversationId := by
  intro id hid
  obtain ⟨e, he, rfl⟩ := List.mem_map.mp hid
  obtain ⟨he, hn⟩ := List.mem_filter.mp he
  obtain ⟨plan, hplan, hrow, -⟩ := h.rows e he (by simpa using hn)
  obtain ⟨hid, -, hc, -⟩ := planFor_assembly hplan
  exact ⟨plan.assembly, hid ▸ hrow, hc⟩

/-- One generation of a conversation is in progress on a route. -/
theorem one (hs : ContentSound db statements) : ∀ id a id' a', db'.assemblies.get? id = some a →
    db'.assemblies.get? id' = some a' → a.state.isActive → a'.state.isActive → a.conversationId = a'.conversationId →
    a.routeId = a'.routeId → id = id' := by
  -- one that a plan goes on with or begins, and one there was
  have hmixed (e : Uuid × CopyRoute) (plan : RoutePlan) (hplan : loop.planFor env event e keys = .ok plan) (id : Uuid)
      (a : RouteSignalAssembly) (ha : db.assemblies.get? id = some a) (hact : a.state.isActive)
      (hc : a.conversationId = loop.conversationId) (hr : a.routeId = e.1) : plan.assemblyId = id := by
    obtain ⟨hid, -⟩ := planFor_assembly hplan
    rcases hcur : loop.current env e with ⟨cid, current, isNew⟩
    obtain ⟨hc', hr', hnew⟩ := currentAssembly_routeView hcur
    rw [hid, hcur]
    cases isNew with
    | true =>
      rw [not_active_of_new (by rw [hcur]) (h.assemblies ▸ ha) hc hr] at hact
      cases hact
    | false =>
      simp only [Bool.false_eq_true, if_false] at hnew
      exact hs.one _ _ _ _ (h.assemblies ▸ hnew.1) ha hnew.2 hact (hc'.trans hc.symm) (hr'.trans hr.symm)
  intro id a id' a' ha ha' hact hact' hc hr
  rcases h.others id with hsame | ⟨e, he, plan, hn, hplan, rfl⟩
  · rw [hsame] at ha
    rcases h.others id' with hsame' | ⟨e', he', plan', hn', hplan', rfl⟩
    · exact hs.one _ _ _ _ ha (hsame' ▸ ha') hact hact' hc hr
    · obtain ⟨plan₁, hplan₁, hrow, -⟩ := h.rows e' he' hn'
      cases hplan'.symm.trans hplan₁
      cases ha'.symm.trans hrow
      obtain ⟨-, -, hc', hr', -⟩ := planFor_assembly hplan'
      exact (hmixed e' plan' hplan' id a ha hact (hc.trans hc') (hr.trans hr')).symm
  · obtain ⟨plan₁, hplan₁, hrow, -⟩ := h.rows e he hn
    cases hplan.symm.trans hplan₁
    cases ha.symm.trans hrow
    obtain ⟨hid, -, hc₁, hr₁, -⟩ := planFor_assembly hplan
    rcases h.others id' with hsame' | ⟨e', he', plan', hn', hplan', rfl⟩
    · exact hmixed e plan hplan id' a' (hsame' ▸ ha') hact' (hc.symm.trans hc₁) (hr.symm.trans hr₁)
    · obtain ⟨plan₂, hplan₂, hrow', -⟩ := h.rows e' he' hn'
      cases hplan'.symm.trans hplan₂
      cases ha'.symm.trans hrow'
      obtain ⟨hid', -, -, hr₂, -⟩ := planFor_assembly hplan'
      have he : e = e' := List.inj_on_of_nodup_map h.nodup he he' (hr₁.symm.trans (hr.trans hr₂))
      subst he
      cases hplan.symm.trans hplan'
      rfl

/-- What a plan's generation says, is said by the message, or by one that is not
dead, where generations begin with nothing dead. -/
theorem said (hs : ContentSound db statements) {e : Uuid × CopyRoute} (he : e ∈ loop.routes)
    (hn : (loop.view env e).isPaused = false) (hplan : loop.planFor env event e keys = .ok plan)
    (hbegins : (loop.current env e).2.2 → ∀ f, loop.conversation.context.states f → loop.update.states f ∨
      ∃ st ∈ statements, st.conversationId = loop.conversationId ∧ st.update.states f ∧ ¬ st.DeadOn db e.1)
    {f : Field} (hf : plan.assembly.context.states f) :
    ∃ st ∈ statements ++ [loop.statement env event], st.conversationId = loop.conversationId ∧ st.update.states f ∧
      (plan.assemblyId ∈ st.generations ∨ st.ClearOn db' e.1) := by
  obtain ⟨hid, -, -, -, hctx⟩ := planFor_assembly hplan
  have hmessage (hu : loop.update.states f) : ∃ st ∈ statements ++ [loop.statement env event],
      st.conversationId = loop.conversationId ∧ st.update.states f ∧ (plan.assemblyId ∈ st.generations ∨ st.ClearOn db' e.1) :=
    ⟨_, List.mem_append_right _ List.mem_cons_self, rfl, hu,
      .inl (hid ▸ List.mem_map.mpr ⟨e, List.mem_filter.mpr ⟨he, by simp [hn]⟩, rfl⟩)⟩
  have hclear {st : Statement} (hst : st ∈ statements) (hc : st.ClearOn db e.1) : st.ClearOn db' e.1 :=
    hc.evolves h.evolves fun id hid => have ⟨a, ha, _⟩ := hs.placed st hst id hid; ⟨a, ha⟩
  rw [hctx] at hf
  rcases mergeGenerationContext_states hf with hu | hold
  · exact hmessage hu
  · rcases hcur : loop.current env e with ⟨cid, current, isNew⟩
    obtain ⟨hc, hr, hnew⟩ := currentAssembly_routeView hcur
    rw [hcur] at hold
    cases isNew with
    | true =>
      simp only [if_true] at hnew
      rw [hnew.2.1] at hold
      rcases hbegins (by rw [hcur]) f hold with hu | ⟨st, hst, hsc, hsf, hdead⟩
      · exact hmessage hu
      · refine ⟨st, List.mem_append_left _ hst, hsc, hsf, .inr (hclear hst ?_)⟩
        refine Statement.clearOn_of_not_deadOn hdead fun id hid a ha hroute => ?_
        obtain ⟨a', ha', hac⟩ := hs.placed st hst id hid
        cases ha.symm.trans ha'
        exact not_active_of_new (by rw [hcur]) (h.assemblies ▸ ha) (hac.trans hsc) hroute
    | false =>
      simp only [Bool.false_eq_true, if_false] at hnew
      obtain ⟨st, hst, hsc, hsf, hlive⟩ := hs.said _ _ (h.assemblies ▸ hnew.1) hnew.2 f hold
      refine ⟨st, List.mem_append_left _ hst, hsc.trans hc, hsf, ?_⟩
      rw [hr] at hlive
      rw [hid, hcur]
      exact hlive.imp_right (hclear hst)

/-- A loop whose generations begin clean leaves the content sound. -/
theorem contentSound (hs : ContentSound db statements) (g : List Uuid)
    (hbegins : ∀ e ∈ loop.routes, (loop.view env e).isPaused = false → (loop.current env e).2.2 →
      ∀ f, loop.conversation.context.states f → loop.update.states f ∨
        ∃ st ∈ statements, st.conversationId = loop.conversationId ∧ st.update.states f ∧ ¬ st.DeadOn db e.1) :
    ContentSound db' ((statements ++ [loop.statement env event]).map (Statement.execute g)) := by
  refine ⟨fun st hst id hid => ?_, h.one hs, fun id a ha hact f hf => ?_⟩
  · obtain ⟨st₀, hst₀, rfl⟩ := List.mem_map.mp hst
    rw [Statement.execute_generations] at hid
    rw [Statement.execute_conversationId]
    rcases List.mem_append.mp hst₀ with hold | hnew
    · obtain ⟨a, ha, hc⟩ := hs.placed st₀ hold id hid
      obtain ⟨a', ha', hc', -⟩ := h.evolves id a ha
      exact ⟨a', ha', hc'.trans hc⟩
    · cases List.mem_singleton.mp hnew
      exact h.placed id hid
  · -- the statement is still there, perhaps executed now
    have hexec (P : Statement → Prop) (h : ∃ st ∈ statements ++ [loop.statement env event], P st)
        (hP : ∀ st, P st → P (st.execute g)) : ∃ st ∈ (statements ++ [loop.statement env event]).map (Statement.execute g), P st :=
      have ⟨st, hst, hp⟩ := h
      ⟨_, List.mem_map_of_mem hst, hP st hp⟩
    refine hexec _ ?_ fun st hst => ⟨by simpa using hst.1, by simpa using hst.2.1,
      by simpa using hst.2.2.imp_right fun hc => hc.execute g⟩
    rcases h.others id with hsame | ⟨e, he, plan, hn, hplan, rfl⟩
    · rw [hsame] at ha
      obtain ⟨st, hst, hc, hsf, hlive⟩ := hs.said id a ha hact f hf
      refine ⟨st, List.mem_append_left _ hst, hc, hsf, hlive.imp_right fun hclear => hclear.evolves h.evolves fun id hid => ?_⟩
      obtain ⟨a, ha, -⟩ := hs.placed st hst id hid
      exact ⟨a, ha⟩
    · obtain ⟨plan', hplan', hrow, -⟩ := h.rows e he hn
      cases hplan.symm.trans hplan'
      cases ha.symm.trans hrow
      obtain ⟨-, -, hc, hr, -⟩ := planFor_assembly hplan
      rw [hc, hr]
      exact h.said hs he hn hplan (hbegins e he hn) hf

end LoopEnds

end

/-! ## Histories -/

namespace ContentState

variable {s t : ContentState} {a : SignalStep}

omit [Unicode] in
theorem deleteGeneration_cases (event : MessageEvent) (db : Database) (a : RouteSignalAssembly) :
    deleteGeneration event db a = a ∨ a.state.isActive ∧ deleteGeneration event db a = { a with state := .expired } := by
  unfold deleteGeneration
  split
  · rename_i hcond
    refine .inr ⟨?_, rfl⟩
    simp only [Bool.and_eq_true, Bool.or_eq_true, decide_eq_true_eq] at hcond
    rcases hcond.2 with he | he <;> rw [he] <;> rfl
  · exact .inl rfl

omit [Unicode] in
theorem expireGeneration_cases (now : Time) (a : RouteSignalAssembly) :
    expireGeneration now a = a ∨ a.state.isActive ∧ expireGeneration now a = { a with state := .expired } := by
  unfold expireGeneration
  split
  · rename_i hcond
    refine .inr ⟨?_, rfl⟩
    simp only [RouteSignalAssembly.isOverdue, Bool.and_eq_true, decide_eq_true_eq] at hcond
    rw [hcond.1]
    rfl
  · exact .inl rfl

omit [Unicode] in
/-- What is in progress after generations have expired, was. -/
theorem active_of_expires {a a' : RouteSignalAssembly} (h : a' = a ∨ a.state.isActive ∧ a' = { a with state := .expired })
    (ha : a'.state.isActive) : a.state.isActive := by
  rcases h with rfl | ⟨h, -⟩
  · exact ha
  · exact h

omit [Unicode] in
/-- After a deletion that leaves nothing dead. -/
theorem contentSound_delete {event : MessageEvent} (hs : ContentSound s.db s.statements) (hclean : s.DeletesClean event) :
    ContentSound (handleDeletedMessage event s.db) (s.statements.map (Statement.withdraw event s.db)) := by
  refine hs.expires (f := fun _ => deleteGeneration event s.db) rfl (fun _ => deleteGeneration_cases event s.db)
    (fun st hst => ?_) fun id a ha hact x hx => ?_
  · obtain ⟨st₀, hst₀, rfl⟩ := List.mem_map.mp hst
    exact ⟨st₀, hst₀, by simp, by simp⟩
  · obtain ⟨st, hst, hc, hsx, hlive⟩ := hclean id a ha hact x hx
    refine ⟨_, List.mem_map_of_mem hst, by simpa using hc, by simpa using hsx, ?_⟩
    by_cases hid : id ∈ st.generations
    · exact .inl (by simpa using hid)
    · -- the generation in progress is the only one
      refine .inr (Statement.clearOn_of_not_deadOn (hlive.resolve_left hid) fun id' hid' a' ha' hr => ?_)
      rw [Statement.withdraw_generations] at hid'
      obtain ⟨a'', ha'', hac⟩ := hs.placed st hst id' hid'
      cases ha'.symm.trans ha''
      by_contra hactive
      have hone := hs.one id a id' a' ha ha' (active_of_expires (deleteGeneration_cases event s.db a) hact)
        (by simpa using hactive) (hc.symm.trans hac.symm) hr.symm
      exact hid (hone ▸ hid')

/-- A step leaves the content sound. -/
theorem contentSound_of_step (hs : ContentSound s.db s.statements) (hclean : s.clean a) (h : s.step a = some t) :
    ContentSound t.db t.statements := by
  obtain ⟨t₀, ht₀, rfl⟩ := Option.map_eq_some_iff.mp h
  have hkeep {db : Database} (hdb : db.assemblies = s.db.assemblies) : ContentSound db s.statements :=
    ⟨fun st hst id hid => hdb ▸ hs.placed st hst id hid, fun id a id' a' ha ha' => hs.one id a id' a' (hdb ▸ ha) (hdb ▸ ha'),
      fun id a ha hact f hf => have ⟨st, hst, hc, hsf, hlive⟩ := hs.said id a (hdb ▸ ha) hact f hf
        ⟨st, hst, hc, hsf, hlive.imp_right fun hclear => ⟨hclear.kept, fun id hid a ha => hclear.finished id hid a (hdb ▸ ha)⟩⟩⟩
  cases a with
  | message env event =>
    cases ht₀
    simp only
    split
    · rename_i hres
      rcases signalHandler_eq_ok hres with ⟨⟨run, hprepare⟩, hdb⟩ | ⟨loop, effects, hprepare, hrun⟩
      · simp only [record, hres, hprepare, hdb]
        split
        · rename_i hdeleted
          simp only [clean, hdeleted, if_true] at hclean
          exact contentSound_delete hs hclean
        · exact hs
      · have hdeleted := not_deleted_of_prepare hprepare
        simp only [clean, hdeleted, if_false] at hclean
        simp only [record, hres, hprepare, hdeleted, if_false]
        exact (loopEnds hprepare hrun).contentSound hs _ (hclean loop hprepare)
    · rename_i hres
      simp only [hres]
      exact hs
  | failure env event n => cases ht₀; exact hs
  | expire now =>
    cases ht₀
    refine hs.expires (f := fun _ => expireGeneration now) rfl (fun _ => expireGeneration_cases now)
      (fun st hst => ⟨st, hst, rfl, rfl⟩) fun id a ha hact x hx => ?_
    exact hs.said id a ha (active_of_expires (expireGeneration_cases now a) hact) x hx
  | outside sources userSettings routes policies trades => cases ht₀; exact hkeep rfl
  | intentStates state => cases ht₀; exact hkeep rfl

/-- An intent of a plan says what its generation does. -/
theorem states_of_plan {env : SignalEnv} {event : MessageEvent} {loop : RouteLoop} {e : Uuid × CopyRoute} {keys : SemanticKeys}
    {plan : RoutePlan} (hplan : loop.planFor env event e keys = .ok plan) {i : Uuid × TradeIntent} (hi : i ∈ plan.intents)
    {f : Field} (hf : i.2.requestPayload.states f) : plan.assembly.context.states f := by
  obtain ⟨s, hs, rfl⟩ := planRoute_eq_ok hplan
  obtain ⟨-, -, -, hact, -⟩ := routeSignal_eq_ok hs
  obtain ⟨_, _, hkept⟩ := planSignal_assembly_kept env event loop.conversationId loop.conversation e.1 e.2 (loop.view env e)
    (keys.alive env.now) s
  have hcontext := (planSignal_isIntentFor hact hi).context
  rw [hkept]
  simp only [Payload.states, Bool.or_eq_true, Option.any_eq_true, decide_eq_true_eq] at hf
  rcases hf with hf | ⟨level, hl, rfl⟩
  · rwa [hcontext] at hf
  · rw [planSignal_intents] at hi
    split at hi
    · cases hi
    · have hsignal := routeSignal_signal hs
      have := takeProfit_of_createdIntents (by rw [hsignal]; rfl) hi hl
      rw [hsignal] at this
      exact decide_eq_true this

/-- An intent of a plan is for the loop's conversation, and has the route's parsed action. -/
theorem conversation_of_plan {env : SignalEnv} {event : MessageEvent} {loop : RouteLoop} {e : Uuid × CopyRoute}
    {keys : SemanticKeys} {plan : RoutePlan} (hplan : loop.planFor env event e keys = .ok plan) {i : Uuid × TradeIntent}
    (hi : i ∈ plan.intents) :
    i.2.requestPayload.conversationId = loop.conversationId ∧ i.2.parsedActionId = .parsedAction env.run e.1 := by
  obtain ⟨s, hs, rfl⟩ := planRoute_eq_ok hplan
  obtain ⟨-, -, -, hact, -⟩ := routeSignal_eq_ok hs
  exact ⟨(planSignal_isIntentFor hact hi).conversation, (planSignal_key hi).2.1⟩

/-- A step adds nothing dead. -/
theorem noLeak_of_sound (hs : ContentSound s.db s.statements) (hclean : s.clean a) (h : s.step a = some t) : s.NoLeak t := by
  obtain ⟨t₀, ht₀, rfl⟩ := Option.map_eq_some_iff.mp h
  intro id i hi hnew
  cases a with
  | message env event =>
    cases ht₀
    simp only at hi ⊢
    split at hi
    · rename_i hres
      rcases signalHandler_eq_ok hres with ⟨-, hdb⟩ | ⟨loop, effects, hprepare, hrun⟩
      · have hsame : s.db.intents.get? id = some i := by
          rw [hdb] at hi
          split at hi <;> exact hi
        rw [hnew] at hsame
        cases hsame
      · have hdeleted := not_deleted_of_prepare hprepare
        simp only [clean, hdeleted, if_false] at hclean
        have hends := loopEnds hprepare hrun
        rcases (hends.added id i).mp hi with hold | ⟨e, he, hn, plan, hplan, hrow, hroute⟩
        · rw [hnew] at hold
          cases hold
        · obtain ⟨plan', hplan', -, hparsed⟩ := hends.rows e he hn
          cases hplan.symm.trans hplan'
          obtain ⟨-, hassembly, -⟩ := planFor_assembly hplan
          obtain ⟨hconversation, hparsedId⟩ := conversation_of_plan hplan hrow
          refine ⟨plan.parsedAction, by rw [hparsedId]; exact hparsed, fun f hf => ?_⟩
          obtain ⟨st, hst, hc, hsf, hlive⟩ := hends.said hs he hn hplan (hclean loop hprepare e he hn)
            (states_of_plan hplan hrow hf)
          rw [hconversation, hroute, hassembly]
          simp only [SaidFor, record, hres, hprepare, hdeleted, if_false]
          refine ⟨_, List.mem_map_of_mem hst, by simpa using hc, by simpa using hsf, ?_⟩
          rw [Statement.execute_generations]
          exact hlive.imp_right fun hclear => (hclear.execute _).not_deadOn
    · rw [hnew] at hi
      cases hi
  | failure env event n => cases ht₀; rw [hnew] at hi; cases hi
  | expire now =>
    cases ht₀
    rw [show (expireSignalThreads now s.db).intents = s.db.intents from rfl, hnew] at hi
    cases hi
  | outside sources userSettings routes policies trades =>
    cases ht₀
    rw [hnew] at hi
    cases hi
  | intentStates state =>
    cases ht₀
    rw [Table.get?_mapRows, hnew] at hi
    cases hi

/-- **Dead content does not leak.** In every history whose generations begin with
nothing dead, and whose deletions leave nothing dead in those in progress, no intent
says what only messages said that were deleted before they were executed, or whose
generation was skipped or has expired. -/
theorem noLeak_of_step {s₀ : ContentState} (h₀ : s₀.db.assemblies = ∅) (h₁ : s₀.statements = [])
    (hr : Reach step clean s₀ s) (hclean : s.clean a) (h : s.step a = some t) : s.NoLeak t := by
  have hstart : ContentSound s₀.db s₀.statements :=
    ⟨fun st hst => by simp [h₁] at hst, fun id a id' a' ha => by simp [h₀] at ha, fun id a ha => by simp [h₀] at ha⟩
  exact noLeak_of_sound (hr.invariant (P := fun s => ContentSound s.db s.statements) hstart
    fun _ _ _ hs hc hstep => contentSound_of_step hs hc hstep) hclean h

/-! ## A deleted message -/

/-- `BUY XAUUSD SL 2390`, which is deleted, and `BUY XAUUSD TP 2410`. -/
def goldDeleted : List SignalStep :=
  [ .message (goldEnv 0 (seconds 101) { buyGold with takeProfits := [] }) { goldMessage with text := "BUY XAUUSD SL 2390" },
    .message (goldEnv 1 (seconds 111) buyGold)
      { goldMessage with eventType := .deleted, correlationId := 16, text := "", occurredAt := seconds 110 } ]

/-- The second message says it all again. -/
def goldRestated : SignalStep :=
  .message (goldEnv 2 (seconds 121) buyGold)
    { goldMessage with messageId := 12, correlationId := 17, occurredAt := seconds 120 }

omit [Unicode] in
/-- `noLeak_of_step`, for a second generation whose message restates what the deleted one said. -/
theorem noLeak_of_step_goldRestated :
    let _ := Unicode.ascii
    ∃ s t : ContentState, Reach step clean { db := goldDatabase } s ∧ (∃ st ∈ s.statements, st.DeadOn s.db 4) ∧
      s.step goldRestated = some t ∧ (∃ e ∈ t.db.intents.entries, e.2.requestPayload.states (.stopLoss 2390)) ∧ s.NoLeak t := by
  intro _
  have hrun : (runIf step clean { db := goldDatabase } goldDeleted).any (fun s =>
      decide ((∃ st ∈ s.statements, st.DeadOn s.db 4) ∧ s.clean goldRestated) && (s.step goldRestated).any fun t =>
        decide (∃ e ∈ t.db.intents.entries, e.2.requestPayload.states (.stopLoss 2390))) = true := by decide +kernel
  obtain ⟨s, hs, hrun⟩ := (Option.any_eq_true _ _).mp hrun
  obtain ⟨hdead, hstep⟩ := Bool.and_eq_true_iff.mp hrun
  obtain ⟨hdead, hclean⟩ := of_decide_eq_true hdead
  obtain ⟨t, ht, hstates⟩ := (Option.any_eq_true _ _).mp hstep
  exact ⟨s, t, .of_runIf hs, hdead, ht, of_decide_eq_true hstates, noLeak_of_step rfl rfl (.of_runIf hs) hclean ht⟩

def goldSecond : SignalStep :=
  .message (goldEnv 2 (seconds 121) { buyGold with stopLoss := none })
    { goldMessage with messageId := 12, correlationId := 17, text := "BUY XAUUSD TP 2410", occurredAt := seconds 120 }

omit [Unicode] in
/-- The stop loss of the deleted message is in the intent of the second one, which has
none. -/
theorem goldDeleted_leaks :
    let _ := Unicode.ascii
    ∃ s t : ContentState, Reach step always { db := goldDatabase } s ∧ s.step goldSecond = some t ∧ ¬ s.NoLeak t := by
  intro _
  have hrun : ((run step { db := goldDatabase } goldDeleted).bind fun s => (s.step goldSecond).map fun t =>
      t.db.intents.entries.any fun e => (s.db.intents.get? e.1).isNone && e.2.requestPayload.states (.stopLoss 2390) &&
        (t.db.parsedActions.get? e.2.parsedActionId).all fun row =>
          ¬ t.SaidFor e.2.requestPayload.conversationId e.2.idempotencyKey.routeId row.assemblyId (.stopLoss 2390)) =
      some true := by decide +kernel
  obtain ⟨s, hs, hrun⟩ := Option.bind_eq_some_iff.mp hrun
  obtain ⟨t, ht, hany⟩ := Option.map_eq_some_iff.mp hrun
  obtain ⟨⟨id, i⟩, hmem, hi⟩ := List.any_eq_true.mp hany
  simp only [Bool.and_eq_true, Option.isNone_iff_eq_none] at hi
  obtain ⟨⟨hnew, hstates⟩, hdead⟩ := hi
  refine ⟨s, t, .of_run hs, ht, fun h => ?_⟩
  obtain ⟨row, hrow, hsaid⟩ := h id i (Table.get?_eq_some.2 hmem) hnew
  rw [hrow] at hdead
  exact of_decide_eq_true (Option.all_some.symm.trans hdead) (hsaid _ hstates)

end ContentState

end SignalSync
