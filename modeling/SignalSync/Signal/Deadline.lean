import SignalSync.Library.Sessions
import SignalSync.Signal.Edits

/-!
# The assembly deadline

A generation is given until its deadline to become an opening. A sweep expires the
overdue ones; the handler itself never looks at the deadline. Both read rows, go on
without a lock on them, and write back what they have changed: `DeadlineState.step`
interleaves the database sessions of handler runs, deletions and sweeps between
their queries and their commits.

* `PlannedRoute.Sound`: what a run makes of the generation it has read;
* `DeadlineState.recorded`: every opening and every expiry that the tables show is on record;
* `DeadlineState.deadline_kept`: where a run that completes an opening is in time and no
  commit goes over one it has not seen, deadlines are kept;
* `DeadlineState.lateOpening`: a message after the deadline, with a sweep under way.
-/

namespace SignalSync

open Library

variable [Unicode]

/-! ## Sessions -/

/-- The columns of a generation a session changes, written back. -/
def RouteSignalAssembly.writeBack (loaded new stored : RouteSignalAssembly) : RouteSignalAssembly :=
  { stored with
    state := SignalSync.writeBack loaded.state new.state stored.state
    context := SignalSync.writeBack loaded.context new.context stored.context
    messageReferences := SignalSync.writeBack loaded.messageReferences new.messageReferences stored.messageReferences
    openingAction := SignalSync.writeBack loaded.openingAction new.openingAction stored.openingAction
    openingIntentId := SignalSync.writeBack loaded.openingIntentId new.openingIntentId stored.openingIntentId }

/-- The columns of a conversation the handler changes, written back. -/
def SignalConversation.writeBack (loaded new stored : SignalConversation) : SignalConversation :=
  { stored with
    symbol := SignalSync.writeBack loaded.symbol new.symbol stored.symbol
    direction := SignalSync.writeBack loaded.direction new.direction stored.direction
    context := SignalSync.writeBack loaded.context new.context stored.context
    lastMessageId := SignalSync.writeBack loaded.lastMessageId new.lastMessageId stored.lastMessageId
    lastMessageRevision := SignalSync.writeBack loaded.lastMessageRevision new.lastMessageRevision stored.lastMessageRevision
    updatedAt := SignalSync.writeBack loaded.updatedAt new.updatedAt stored.updatedAt }

/-- A route that a run has processed. -/
structure PlannedRoute where
  routeId : Uuid
  /-- The generation as it was read. -/
  loaded : RouteSignalAssembly
  plan : RoutePlan
  plannedAt : Time

/-- A run of the handler in its loop over the routes. -/
structure HandlerSession where
  env : SignalEnv
  event : MessageEvent
  /-- The conversation as it was read, if there was one. -/
  loaded : Option SignalConversation
  loop : RouteLoop
  todo : List (Uuid × CopyRoute)
  planned : List PlannedRoute := []

inductive SignalSession
  | handler (h : HandlerSession)
  /-- Generations to be expired: by a sweep, or after their message was deleted. -/
  | sweep (rows : List (Uuid × RouteSignalAssembly))
  | delete (rows : List (Uuid × RouteSignalAssembly))
  | ended

/-- An opening intent that has been committed: its generation, and when it was made. -/
structure Opening where
  intentId : Uuid
  assemblyId : Uuid
  createdAt : Time
deriving DecidableEq

structure DeadlineState where
  db : Database
  now : Time := 0
  sessions : List SignalSession := []
  /-- All there have been. -/
  openings : List Opening := []
  /-- The generations that have been expired. -/
  expired : List Uuid := []

inductive DeadlineLabel
  | tick (now : Time)
  /-- The handler takes up a message. -/
  | message (env : SignalEnv) (event : MessageEvent)
  /-- A run processes its next route, with the duplicate keys that are alive. -/
  | route (session : Nat) (alive : SemanticKey → Bool)
  /-- A sweep reads the overdue generations. -/
  | sweep
  | commit (session : Nat)
  | rollback (session : Nat)
  /-- Others change the tables that are only read here. -/
  | outside (sources : Table Uuid TelegramSource) (userSettings : Table Uuid CopyTradingUserSettings)
      (routes : Table Uuid CopyRoute) (policies : Table Uuid CopyAccountPolicy) (trades : Table Uuid CopiedTrade)

/-! ## What a session writes -/

namespace PlannedRoute

def openings (p : PlannedRoute) : List Opening :=
  (p.plan.intents.filter (·.2.idempotencyKey.action.isOpen)).map fun e => ⟨e.1, p.plan.assemblyId, p.plannedAt⟩

end PlannedRoute

namespace HandlerSession

/-- A stored generation, written back if a plan changes it. -/
def writeAssembly (h : HandlerSession) (id : Uuid) (stored : RouteSignalAssembly) : RouteSignalAssembly :=
  match h.planned.find? fun p => !p.plan.isNew && p.plan.assemblyId = id with
  | some p => p.loaded.writeBack p.plan.assembly stored
  | none => stored

/-- The generations of the plans that begin one. -/
def newAssemblies (h : HandlerSession) : List (Uuid × RouteSignalAssembly) :=
  (h.planned.filter (·.plan.isNew)).map fun p => (p.plan.assemblyId, p.plan.assembly)

def write (h : HandlerSession) (db : Database) : Database :=
  { db with
    conversations := match h.loaded with
      | some loaded => db.conversations.modify h.loop.conversationId (loaded.writeBack h.loop.conversation)
      | none => db.conversations.add h.loop.conversationId h.loop.conversation
    assemblies := (db.assemblies.mapRows h.writeAssembly).addAll h.newAssemblies
    parsedActions := db.parsedActions.addAll (h.planned.map fun p => (.parsedAction h.env.run p.routeId, p.plan.parsedAction))
    intents := db.intents.addAll (h.planned.flatMap (·.plan.intents)) }

end HandlerSession

/-- `mark_generation_expired` on the rows read. -/
def Database.expireRows (db : Database) (rows : List (Uuid × RouteSignalAssembly)) : Database :=
  { db with
    assemblies := db.assemblies.mapRows fun id stored =>
      match rows.find? (·.1 = id) with
      | some (_, loaded) => loaded.writeBack { loaded with state := .expired } stored
      | none => stored }

/-- The conversations of the rows that have no active generation left expire. -/
def Database.expireConversations (db : Database) (rows : List (Uuid × RouteSignalAssembly)) : Database :=
  { db with
    conversations := db.conversations.mapRows fun id c =>
      if rows.any (·.2.conversationId = id) &&
          !db.assemblies.entries.any (fun e => e.2.conversationId = id && e.2.state.isActive) then
        { c with state := .expired }
      else c }

namespace DeadlineState

/-- The generations a deleted message expires. -/
def deletedRows (s : DeadlineState) (event : MessageEvent) : List (Uuid × RouteSignalAssembly) :=
  s.db.assemblies.select fun _ a =>
    (s.db.conversations.get? a.conversationId).any (·.sourceId = event.sourceId) &&
      a.messageReferences.any (·.messageId = event.messageId) && (s.db.routes.get? a.routeId).isSome &&
      (a.state = .assembling || a.state = .ready)

/-- The session of a run on a message. -/
def started (s : DeadlineState) (env : SignalEnv) (event : MessageEvent) : SignalSession :=
  if event.eventType = .deleted then .delete (s.deletedRows event)
  else match prepare env event s.db with
    | .ok loop =>
      .handler { env, event, loop, loaded := s.db.conversations.get? loop.conversationId, todo := loop.routes }
    | .error _ => .ended

/-- A run has processed its next route. -/
def processed (s : DeadlineState) (h : HandlerSession) (e : Uuid × CopyRoute) (todo : List (Uuid × CopyRoute))
    (alive : SemanticKey → Bool) : SignalSession :=
  let view := s.db.routeView h.env.run h.loop.conversationId e.1 e.2
  if view.isPaused then .handler { h with todo }
  else match planRoute h.env h.event h.loop.parsed h.loop.update h.loop.conversationId h.loop.conversation e.1 e.2 view alive with
    | .error _ => .ended
    | .ok plan =>
      .handler
        { h with
          todo
          planned := h.planned ++
            [{ routeId := e.1, plan, plannedAt := s.now
               loaded := (currentAssembly h.env h.loop.conversationId h.loop.conversation e.1 e.2 view).2.1 }] }

def step (s : DeadlineState) : DeadlineLabel → Option DeadlineState
  | .tick now => if s.now ≤ now then some { s with now } else none
  | .message env event =>
    if env.run = s.sessions.length ∧ env.now = s.now then some { s with sessions := s.sessions ++ [s.started env event] }
    else none
  | .route d alive =>
    match s.sessions[d]? with
    | some (.handler h) =>
      match h.todo with
      | e :: todo => some { s with sessions := s.sessions.set d (s.processed h e todo alive) }
      | [] => none
    | _ => none
  | .sweep => some { s with sessions := s.sessions ++ [.sweep (s.db.assemblies.select fun _ a => a.isOverdue s.now)] }
  | .commit d =>
    match s.sessions[d]? with
    | some (.handler h) =>
      if h.todo = [] then
        some
          { s with
            db := h.write s.db, sessions := s.sessions.set d .ended
            openings := s.openings ++ h.planned.flatMap PlannedRoute.openings }
      else none
    | some (.sweep rows) =>
      some
        { s with
          db := (s.db.expireRows rows).expireConversations rows, sessions := s.sessions.set d .ended
          expired := s.expired ++ rows.map Prod.fst }
    | some (.delete rows) =>
      some
        { s with
          db := s.db.expireRows rows, sessions := s.sessions.set d .ended, expired := s.expired ++ rows.map Prod.fst }
    | _ => none
  | .rollback d => some { s with sessions := s.sessions.set d .ended }
  | .outside sources userSettings routes policies trades =>
    some { s with db := { s.db with sources, userSettings, routes, policies, trades } }

end DeadlineState

/-! ## What a plan makes of its generation -/

/-- The signal completes an opening: it is accepted, within the limits and no duplicate. -/
def RouteSignal.opens (s : RouteSignal) (env : SignalEnv) (conversation : SignalConversation) (routeId : Uuid)
    (route : CopyRoute) (view : RouteView) (alive : SemanticKey → Bool) : Bool :=
  s.action.isOpen && !s.heldBack routeId route alive &&
    match routeVerdict env conversation routeId route view s with
    | .proceed _ => true
    | _ => false

/-- The generation that a run's message completes on a route. -/
def HandlerSession.completed (h : HandlerSession) (db : Database) (e : Uuid × CopyRoute) (alive : SemanticKey → Bool) :
    Option RouteSignalAssembly :=
  let view := db.routeView h.env.run h.loop.conversationId e.1 e.2
  match routeSignal h.env h.event h.loop.parsed h.loop.update h.loop.conversationId h.loop.conversation e.1 e.2 view with
  | .ok signal => if signal.opens h.env h.loop.conversation e.1 e.2 view alive then some signal.assembly else none
  | .error _ => none

/-- What a processed route may write. -/
structure PlannedRoute.Sound (p : PlannedRoute) : Prop where
  deadline : p.plan.assembly.assemblyDeadline = p.loaded.assemblyDeadline
  timely : p.openings ≠ [] → p.plannedAt ≤ p.loaded.assemblyDeadline
  submitted : p.openings ≠ [] → p.plan.assembly.openingIntentId.isSome
  kept : p.loaded.openingIntentId.isSome → p.plan.assembly.openingIntentId.isSome
  state : p.plan.assembly.state = p.loaded.state ∨ p.plan.assembly.state = .skipped ∨ p.openings ≠ []
  notExpired : p.plan.assembly.state ≠ .expired

section

variable {env : SignalEnv} {event : MessageEvent} {parsed : AiAction} {update : Context} {conversationId : Uuid}
  {conversation : SignalConversation} {routeId : Uuid} {route : CopyRoute} {view : RouteView} {alive : SemanticKey → Bool}
  {s : RouteSignal}

/-- Only a signal that completes an opening makes opening intents. -/
theorem opens_of_openings {plannedAt : Time} {loaded : RouteSignalAssembly} (ha : s.assembly.context.action = some s.action)
    (h : (PlannedRoute.mk routeId loaded (planSignal env event conversationId conversation routeId route view alive s)
      plannedAt).openings ≠ []) :
    s.opens env conversation routeId route view alive ∧ (planSignal env event conversationId conversation routeId route view
      alive s).intents ≠ [] := by
  obtain ⟨o, ho⟩ := List.exists_mem_of_ne_nil _ h
  simp only [PlannedRoute.openings, List.mem_map, List.mem_filter] at ho
  obtain ⟨e, ⟨he, hopen⟩, -⟩ := ho
  refine ⟨?_, List.ne_nil_of_mem he⟩
  have hact := (planSignal_isIntentFor ha he).action
  rw [ha, Option.some.injEq] at hact
  rw [planSignal_intents] at he
  split at he
  · cases he
  · rename_i hb
    unfold createdIntents at he
    split at he
    · rename_i targets hv
      simp [RouteSignal.opens, ← hact, hopen, hb, hv]
    · cases he

/-- A route processed in time is sound. -/
theorem planned_sound {plan : RoutePlan} (plannedAt : Time)
    (h : planRoute env event parsed update conversationId conversation routeId route view alive = .ok plan)
    (ht : ∀ s, routeSignal env event parsed update conversationId conversation routeId route view = .ok s →
      s.opens env conversation routeId route view alive → plannedAt ≤ s.assembly.assemblyDeadline) :
    (PlannedRoute.mk routeId (currentAssembly env conversationId conversation routeId route view).2.1 plan plannedAt).Sound := by
  obtain ⟨s, hs, rfl⟩ := planRoute_eq_ok h
  obtain ⟨current, hc, hm, ha, -⟩ := routeSignal_eq_ok hs
  rw [hc]
  have hdeadline : s.assembly.assemblyDeadline = current.assemblyDeadline := by rw [hm]; rfl
  have hstate : s.assembly.state = current.state := by rw [hm]; rfl
  have hopening : s.assembly.openingIntentId = current.openingIntentId := by rw [hm]; rfl
  have hactive := currentAssembly_isActive env conversationId conversation routeId route view
  rw [hc] at hactive
  have hnot : s.assembly.state ≠ .expired := fun hx => by
    rw [← hstate, hx] at hactive
    cases hactive
  have hopens (ho : (PlannedRoute.mk routeId current (planSignal env event conversationId conversation routeId route view alive s)
      plannedAt).openings ≠ []) := opens_of_openings ha ho
  have htimely (ho : (PlannedRoute.mk routeId current (planSignal env event conversationId conversation routeId route view
      alive s) plannedAt).openings ≠ []) : plannedAt ≤ current.assemblyDeadline :=
    hdeadline ▸ ht s hs (hopens ho).1
  rcases planSignal_assembly env event conversationId conversation routeId route view alive s with ⟨hnil, hp⟩ | hp
  · have hno : ¬ (PlannedRoute.mk routeId current (planSignal env event conversationId conversation routeId route view alive s)
        plannedAt).openings ≠ [] := by simp [PlannedRoute.openings, hnil]
    rcases hp with hp | hp
    · exact ⟨by simp only [hp]; exact hdeadline, htimely, fun h => absurd h hno, by simp only [hp, hopening]; exact id,
        .inl (by simp only [hp]; exact hstate), by simp only [hp]; exact hnot⟩
    · exact ⟨by simp only [hp]; exact hdeadline, htimely, fun h => absurd h hno, by simp only [hp, hopening]; exact id,
        .inr (.inl (by simp only [hp])), by simp only [hp]; nofun⟩
  · cases hint : (planSignal env event conversationId conversation routeId route view alive s).intents with
    | nil =>
      have hsame : (planSignal env event conversationId conversation routeId route view alive s).assembly = s.assembly := by
        rw [hp, hint]
        split <;> rfl
      exact ⟨by simp only [hsame]; exact hdeadline, htimely, fun h => absurd hint (hopens h).2,
        by simp only [hsame, hopening]; exact id, .inl (by simp only [hsame]; exact hstate), by simp only [hsame]; exact hnot⟩
    | cons e rows =>
      cases hopen : s.action.isOpen with
      | false =>
        have hsame : (planSignal env event conversationId conversation routeId route view alive s).assembly = s.assembly := by
          rw [hp, hopen]
          rfl
        refine ⟨by simp only [hsame]; exact hdeadline, htimely, fun h => ?_, by simp only [hsame, hopening]; exact id,
          .inl (by simp only [hsame]; exact hstate), by simp only [hsame]; exact hnot⟩
        have := (hopens h).1
        simp [RouteSignal.opens, hopen] at this
      | true =>
        have hmarked : (planSignal env event conversationId conversation routeId route view alive s).assembly =
            { s.assembly with state := .executing, openingIntentId := s.assembly.openingIntentId <|> some e.1 } := by
          rw [hp, hopen, hint]
          rfl
        have hsome : (s.assembly.openingIntentId <|> some e.1).isSome := by
          cases s.assembly.openingIntentId <;> rfl
        refine ⟨by simp only [hmarked]; exact hdeadline, htimely, fun _ => by simp only [hmarked]; exact hsome,
          fun _ => by simp only [hmarked]; exact hsome, .inr (.inr ?_), by simp only [hmarked]; nofun⟩
        have hact := (planSignal_isIntentFor ha (hint ▸ List.mem_cons_self : e ∈ _)).action
        rw [ha, Option.some.injEq] at hact
        refine List.ne_nil_of_mem (a := ⟨e.1, _, plannedAt⟩) (List.mem_map.mpr ⟨e, List.mem_filter.mpr ⟨?_, ?_⟩, rfl⟩)
        · rw [hint]; exact List.mem_cons_self
        · simp [hact, hopen]

end

/-! ## What a commit leaves -/

omit [Unicode] in
theorem writeBack_deadline (loaded new stored : RouteSignalAssembly) :
    (loaded.writeBack new stored).assemblyDeadline = stored.assemblyDeadline := rfl

omit [Unicode] in
/-- An opening is not taken back. -/
theorem writeBack_openingIntentId {loaded new stored : RouteSignalAssembly} (hs : stored.openingIntentId.isSome)
    (hk : loaded.openingIntentId.isSome → new.openingIntentId.isSome) :
    (loaded.writeBack new stored).openingIntentId.isSome := by
  simp only [RouteSignalAssembly.writeBack, writeBack]
  split
  · exact hs
  · rename_i hne
    by_contra hnone
    have hnew := Option.not_isSome_iff_eq_none.mp hnone
    refine hne (hnew.trans (Option.not_isSome_iff_eq_none.mp fun hl => ?_).symm)
    exact hnone (hk hl)

/-- The generations there were are still there, with their route, their deadline and
their opening. -/
def Database.KeepsAssemblies (db db' : Database) : Prop :=
  ∀ id a, db.assemblies.get? id = some a → ∃ a', db'.assemblies.get? id = some a' ∧ a'.routeId = a.routeId ∧
    a'.assemblyDeadline = a.assemblyDeadline ∧ (a.openingIntentId.isSome → a'.openingIntentId.isSome)

omit [Unicode] in
theorem Database.KeepsAssemblies.of_eq {db db' : Database} (h : db'.assemblies = db.assemblies) : db.KeepsAssemblies db' :=
  fun _ a ha => ⟨a, by rw [h, ha], rfl, rfl, id⟩

section

variable {h : HandlerSession} {db : Database} {id : Uuid} {a : RouteSignalAssembly}
  {rows : List (Uuid × RouteSignalAssembly)}

omit [Unicode] in
theorem get?_write (ha : db.assemblies.get? id = some a) : (h.write db).assemblies.get? id = some (h.writeAssembly id a) :=
  Table.get?_addAll_of_some (by rw [Table.get?_mapRows, ha, Option.map_some])

omit [Unicode] in
theorem writeAssembly_cases (id : Uuid) (a : RouteSignalAssembly) : h.writeAssembly id a = a ∨
    ∃ p ∈ h.planned, p.plan.isNew = false ∧ p.plan.assemblyId = id ∧ h.writeAssembly id a = p.loaded.writeBack p.plan.assembly a := by
  unfold HandlerSession.writeAssembly
  split
  · rename_i p hp
    have hm := List.find?_some hp
    simp only [Bool.and_eq_true, Bool.not_eq_true', decide_eq_true_eq] at hm
    exact .inr ⟨p, List.mem_of_find?_eq_some hp, hm.1, hm.2, rfl⟩
  · exact .inl rfl

omit [Unicode] in
theorem write_keepsAssemblies (hsound : ∀ p ∈ h.planned, p.Sound) : db.KeepsAssemblies (h.write db) := by
  intro id a ha
  refine ⟨_, get?_write ha, ?_⟩
  rcases writeAssembly_cases (h := h) id a with he | ⟨p, hp, -, -, he⟩
  · rw [he]
    exact ⟨rfl, rfl, fun hs => hs⟩
  · rw [he]
    exact ⟨rfl, rfl, fun hs => writeBack_openingIntentId hs (hsound p hp).kept⟩

omit [Unicode] in
theorem get?_expireRows (rows : List (Uuid × RouteSignalAssembly)) (ha : db.assemblies.get? id = some a) :
    (id ∉ rows.map Prod.fst ∧ (db.expireRows rows).assemblies.get? id = some a) ∨
      ∃ loaded, (id, loaded) ∈ rows ∧
        (db.expireRows rows).assemblies.get? id = some (loaded.writeBack { loaded with state := .expired } a) := by
  simp only [Database.expireRows, Table.get?_mapRows, ha, Option.map_some]
  cases hf : rows.find? (·.1 = id) with
  | none =>
    refine .inl ⟨fun hm => ?_, rfl⟩
    obtain ⟨e, he, rfl⟩ := List.mem_map.mp hm
    exact List.find?_eq_none.1 hf e he (by simp)
  | some e =>
    obtain ⟨id', loaded⟩ := e
    have hid : id' = id := by simpa using List.find?_some hf
    subst hid
    exact .inr ⟨loaded, List.mem_of_find?_eq_some hf, rfl⟩

omit [Unicode] in
theorem expireRows_keepsAssemblies (rows : List (Uuid × RouteSignalAssembly)) : db.KeepsAssemblies (db.expireRows rows) := by
  intro id a ha
  rcases get?_expireRows rows ha with ⟨-, he⟩ | ⟨loaded, -, he⟩
  · exact ⟨a, he, rfl, rfl, fun hs => hs⟩
  · exact ⟨_, he, rfl, rfl, fun hs => writeBack_openingIntentId hs fun hl => hl⟩

end

/-! ## The invariant -/

namespace DeadlineState

/-- The generation of a processed route is stored, or will be under an id of the run's own. -/
def ReadFrom (db : Database) (d : Nat) (p : PlannedRoute) : Prop :=
  if p.plan.isNew then p.plan.assemblyId = .assembly d p.routeId
  else ∃ a, db.assemblies.get? p.plan.assemblyId = some a ∧ a.routeId = p.routeId ∧
    a.assemblyDeadline = p.loaded.assemblyDeadline ∧ (p.loaded.openingIntentId.isSome → a.openingIntentId.isSome)

/-- A run of session `d`, in its loop. -/
structure LoopSound (db : Database) (d : Nat) (h : HandlerSession) : Prop where
  run : h.env.run = d
  routes : (h.planned.map PlannedRoute.routeId ++ h.todo.map Prod.fst).Nodup
  sound : ∀ p ∈ h.planned, p.Sound
  read : ∀ p ∈ h.planned, ReadFrom db d p
  fresh : ∀ r, db.assemblies.get? (.assembly d r) = none

/-- Rows that are to be expired. -/
def RowsSound (db : Database) (rows : List (Uuid × RouteSignalAssembly)) : Prop :=
  ∀ e ∈ rows, (db.assemblies.get? e.1).isSome ∧ e.2.state ≠ .expired

def SessionSound (db : Database) (d : Nat) : SignalSession → Prop
  | .handler h => LoopSound db d h
  | .sweep rows | .delete rows => RowsSound db rows
  | .ended => True

structure Timely (s : DeadlineState) : Prop where
  opened : ∀ o ∈ s.openings, ∃ a, s.db.assemblies.get? o.assemblyId = some a ∧ o.createdAt ≤ a.assemblyDeadline ∧
    a.openingIntentId.isSome
  expired : ∀ id ∈ s.expired, ∃ a, s.db.assemblies.get? id = some a ∧ a.state.isActive = false
  apart : ∀ o ∈ s.openings, o.assemblyId ∉ s.expired
  sessions : ∀ d session, s.sessions[d]? = some session → SessionSound s.db d session
  unused : ∀ d, s.sessions.length ≤ d → ∀ r, s.db.assemblies.get? (.assembly d r) = none

/-- Where a run completes an opening it does so by the deadline, and no commit goes
over one it has not seen: an opening's generation is still active, and a generation
that is expired has not been submitted. -/
def InTime (s : DeadlineState) : DeadlineLabel → Prop
  | .route d alive =>
    match s.sessions[d]? with
    | some (.handler h) =>
      ∀ e ∈ h.todo.head?, ∀ a ∈ h.completed s.db e alive, s.now ≤ a.assemblyDeadline
    | _ => True
  | .commit d =>
    match s.sessions[d]? with
    | some (.handler h) => ∀ p ∈ h.planned, p.openings ≠ [] → p.plan.isNew = false →
        (s.db.assemblies.get? p.plan.assemblyId).any (·.state.isActive)
    | some (.sweep rows) | some (.delete rows) => ∀ e ∈ rows, (s.db.assemblies.get? e.1).all (·.openingIntentId.isNone)
    | _ => True
  | _ => True

variable {s t : DeadlineState} {l : DeadlineLabel}

omit [Unicode] in
theorem ReadFrom.mono {db db' : Database} {d : Nat} {p : PlannedRoute} (hk : db.KeepsAssemblies db') (h : ReadFrom db d p) :
    ReadFrom db' d p := by
  unfold ReadFrom at h ⊢
  split
  · rename_i hn
    rwa [if_pos hn] at h
  · rename_i hn
    rw [if_neg hn] at h
    obtain ⟨a, ha, hr, hd, ho⟩ := h
    obtain ⟨a', ha', hr', hd', ho'⟩ := hk _ _ ha
    exact ⟨a', ha', hr'.trans hr, hd'.trans hd, ho' ∘ ho⟩

omit [Unicode] in
/-- A session is not hurt by what others write. -/
theorem SessionSound.mono {db db' : Database} {d : Nat} {session : SignalSession} (hk : db.KeepsAssemblies db')
    (hf : (∀ r, db.assemblies.get? (.assembly d r) = none) → ∀ r, db'.assemblies.get? (.assembly d r) = none)
    (h : SessionSound db d session) : SessionSound db' d session := by
  have hrows {rows : List (Uuid × RouteSignalAssembly)} (h : RowsSound db rows) : RowsSound db' rows := by
    intro e he
    obtain ⟨a, ha⟩ := Option.isSome_iff_exists.mp (h e he).1
    obtain ⟨a', ha', -⟩ := hk _ _ ha
    exact ⟨by rw [ha']; rfl, (h e he).2⟩
  cases session with
  | handler h' => exact ⟨h.run, h.routes, h.sound, fun p hp => (h.read p hp).mono hk, hf h.fresh⟩
  | sweep rows => exact hrows h
  | delete rows => exact hrows h
  | ended => trivial

theorem started_sound (hs : s.Timely) {env : SignalEnv} {event : MessageEvent} (hrun : env.run = s.sessions.length) :
    SessionSound s.db s.sessions.length (s.started env event) := by
  unfold started
  split
  · intro e he
    obtain ⟨hg, hst⟩ := Table.mem_select.1 he
    refine ⟨by rw [hg]; rfl, fun hx => ?_⟩
    simp [hx] at hst
  · split
    · rename_i loop hl
      exact ⟨hrun, prepare_routes hl, by simp, by simp, hs.unused _ le_rfl⟩
    · trivial

omit [Unicode] in
theorem sweep_sound (s : DeadlineState) : RowsSound s.db (s.db.assemblies.select fun _ a => a.isOverdue s.now) := by
  intro e he
  obtain ⟨hg, hst⟩ := Table.mem_select.1 he
  refine ⟨by rw [hg]; rfl, fun hx => ?_⟩
  simp [RouteSignalAssembly.isOverdue, hx] at hst

theorem processed_sound {d : Nat} {h : HandlerSession} {e : Uuid × CopyRoute} {todo : List (Uuid × CopyRoute)}
    {alive : SemanticKey → Bool} (hd : s.sessions[d]? = some (.handler h)) (htodo : h.todo = e :: todo)
    (hl : LoopSound s.db d h) (hok : s.InTime (.route d alive)) : SessionSound s.db d (s.processed h e todo alive) := by
  have hroutes := hl.routes
  rw [htodo, List.map_cons] at hroutes
  unfold processed
  simp only
  split
  · exact ⟨hl.run, hroutes.sublist (List.Sublist.append_left (List.sublist_cons_self _ _) _), hl.sound, hl.read, hl.fresh⟩
  · split
    · trivial
    · rename_i plan hp
      have hsound := planned_sound s.now hp fun signal hsig ho => by
        simpa [InTime, hd, htodo, HandlerSession.completed, hsig, ho] using hok
      refine ⟨hl.run, by simpa using hroutes, ?_, ?_, hl.fresh⟩
      · intro p hm
        rcases List.mem_append.mp hm with hm | hm
        · exact hl.sound p hm
        · rw [List.mem_singleton.mp hm]
          exact hsound
      · intro p hm
        rcases List.mem_append.mp hm with hm | hm
        · exact hl.read p hm
        · rw [List.mem_singleton.mp hm]
          obtain ⟨signal, hs', rfl⟩ := planRoute_eq_ok hp
          obtain ⟨current, hc, -⟩ := routeSignal_eq_ok hs'
          obtain ⟨hid, hnew, -⟩ := planSignal_rows h.env h.event h.loop.conversationId h.loop.conversation e.1 e.2
            (s.db.routeView h.env.run h.loop.conversationId e.1 e.2) alive signal
          obtain ⟨-, hroute, hgen⟩ := currentAssembly_routeView hc
          simp only [ReadFrom, hid, hnew, hc]
          split
          · rename_i hn
            rw [if_pos hn, hl.run] at hgen
            exact hgen.1
          · rename_i hn
            rw [if_neg hn] at hgen
            exact ⟨current, hgen.1, hroute, rfl, id⟩

/-! ## What every step keeps -/

omit [Unicode] in
/-- What is stored under a new id is of the run's own making. -/
theorem write_fresh {d d' : Nat} {h : HandlerSession} {db : Database} (hl : LoopSound db d h) (hne : d' ≠ d)
    (hf : ∀ r, db.assemblies.get? (.assembly d' r) = none) (r : Uuid) : (h.write db).assemblies.get? (.assembly d' r) = none := by
  rw [← Option.not_isSome_iff_eq_none, Option.isSome_iff_exists]
  rintro ⟨a, ha⟩
  rcases Table.get?_addAll_cases ha with ha | ha
  · rw [Table.get?_mapRows, hf r] at ha
    cases ha
  · obtain ⟨p, hp, he⟩ := List.mem_map.mp ha
    obtain ⟨hp, hnew⟩ := List.mem_filter.mp hp
    have hid := hl.read p hp
    rw [ReadFrom, if_pos hnew, (Prod.mk.inj he).1] at hid
    cases hid
    exact hne rfl

omit [Unicode] in
theorem get?_write_new {d : Nat} {h : HandlerSession} {db : Database} (hl : LoopSound db d h) {p : PlannedRoute}
    (hp : p ∈ h.planned) (hn : p.plan.isNew) : (h.write db).assemblies.get? p.plan.assemblyId = some p.plan.assembly := by
  have hids : h.newAssemblies.map Prod.fst = (h.planned.filter (·.plan.isNew)).map fun p => .assembly d p.routeId := by
    rw [HandlerSession.newAssemblies, List.map_map]
    refine List.map_congr_left fun q hq => ?_
    obtain ⟨hq, hnew⟩ := List.mem_filter.mp hq
    have := hl.read q hq
    rwa [ReadFrom, if_pos hnew] at this
  refine Table.get?_addAll_of_mem ?_ (fun e he => ?_) (List.mem_map.mpr ⟨p, List.mem_filter.mpr ⟨hp, hn⟩, rfl⟩)
  · have hroutes := (List.nodup_append.mp hl.routes).1.sublist ((List.filter_sublist (p := (·.plan.isNew))).map PlannedRoute.routeId)
    rw [hids]
    simpa [List.map_map, Function.comp_def] using hroutes.map (f := Uuid.assembly d) fun r r' he => by cases he; rfl
  · have hm := List.mem_map_of_mem (f := Prod.fst) he
    rw [hids] at hm
    obtain ⟨q, -, hq⟩ := List.mem_map.mp hm
    rw [← hq, Table.get?_mapRows, hl.fresh]
    rfl

omit [Unicode] in
/-- A stored generation is written by the one plan that has read it. -/
theorem writeAssembly_of_planned {d : Nat} {h : HandlerSession} {db : Database} (hl : LoopSound db d h) {p : PlannedRoute}
    (hp : p ∈ h.planned) (hn : p.plan.isNew = false) (a : RouteSignalAssembly) :
    h.writeAssembly p.plan.assemblyId a = p.loaded.writeBack p.plan.assembly a := by
  unfold HandlerSession.writeAssembly
  cases hf : h.planned.find? fun q => !q.plan.isNew && q.plan.assemblyId = p.plan.assemblyId with
  | none => exact absurd (List.find?_eq_none.1 hf p hp) (by simp [hn])
  | some q =>
    have hq := List.find?_some hf
    have hmem := List.mem_of_find?_eq_some hf
    simp only [Bool.and_eq_true, Bool.not_eq_true', decide_eq_true_eq] at hq
    have hreadp := hl.read p hp
    have hreadq := hl.read q hmem
    rw [ReadFrom, if_neg (by simp [hn])] at hreadp
    rw [ReadFrom, if_neg (by simp [hq.1]), hq.2] at hreadq
    obtain ⟨x, hx, hrp, -⟩ := hreadp
    obtain ⟨y, hy, hrq, -⟩ := hreadq
    cases hx.symm.trans hy
    rw [List.inj_on_of_nodup_map (List.nodup_append.mp hl.routes).1 hmem hp (hrq.symm.trans hrp)]

omit [Unicode] in
/-- Every session, after one of them has been set. -/
theorem sessions_set {db : Database} {sessions : List SignalSession} {d : Nat} {x : SignalSession}
    (hs : ∀ d' session, sessions[d']? = some session → d' ≠ d → SessionSound db d' session) (hx : SessionSound db d x) :
    ∀ d' session, (sessions.set d x)[d']? = some session → SessionSound db d' session := by
  intro d' session hd
  rcases getElem?_set_cases hd with ⟨rfl, rfl⟩ | ⟨hne, hd⟩
  · exact hx
  · exact hs d' session hd hne

omit [Unicode] in
theorem sessions_append {db : Database} {sessions : List SignalSession} {x : SignalSession}
    (hs : ∀ d session, sessions[d]? = some session → SessionSound db d session) (hx : SessionSound db sessions.length x) :
    ∀ d session, (sessions ++ [x])[d]? = some session → SessionSound db d session := by
  intro d session hd
  rcases getElem?_concat_cases hd with ⟨rfl, rfl⟩ | hd
  · exact hx
  · exact hs d session hd

omit [Unicode] in
/-- Nothing is committed. -/
theorem Timely.of_sessions (hs : s.Timely) {sessions : List SignalSession} {now : Time} (hlen : s.sessions.length ≤ sessions.length)
    (h : ∀ d session, sessions[d]? = some session → SessionSound s.db d session) : { s with sessions, now }.Timely :=
  ⟨hs.opened, hs.expired, hs.apart, h, fun d hd => hs.unused d (hlen.trans hd)⟩

/-- A run's commit. -/
theorem Timely.commit_handler (hs : s.Timely) {d : Nat} {h : HandlerSession} (hd : s.sessions[d]? = some (.handler h))
    (hok : s.InTime (.commit d)) :
    { s with
      db := h.write s.db, sessions := s.sessions.set d .ended
      openings := s.openings ++ h.planned.flatMap PlannedRoute.openings }.Timely := by
  have hl : LoopSound s.db d h := hs.sessions d _ hd
  have hk : s.db.KeepsAssemblies (h.write s.db) := write_keepsAssemblies hl.sound
  simp only [InTime, hd] at hok
  have hnew {o : Opening} {p : PlannedRoute} (hp : p ∈ h.planned) (ho : o ∈ p.openings) :
      o.assemblyId = p.plan.assemblyId ∧ o.createdAt = p.plannedAt := by
    obtain ⟨e, -, rfl⟩ := List.mem_map.mp ho
    exact ⟨rfl, rfl⟩
  refine ⟨fun o ho => ?_, fun id hid => ?_, fun o ho hx => ?_, sessions_set (fun d' session hd' hne => ?_) trivial,
    fun d' hd' => ?_⟩
  · rcases List.mem_append.mp ho with ho | ho
    · obtain ⟨a, ha, hle, hsome⟩ := hs.opened o ho
      obtain ⟨a', ha', -, hdl, hop⟩ := hk _ _ ha
      exact ⟨a', ha', hdl ▸ hle, hop hsome⟩
    · obtain ⟨p, hp, ho⟩ := List.mem_flatMap.mp ho
      obtain ⟨hid, hat⟩ := hnew hp ho
      have hne : p.openings ≠ [] := List.ne_nil_of_mem ho
      have hsound := hl.sound p hp
      rw [hid, hat]
      cases hn : p.plan.isNew with
      | true => exact ⟨_, get?_write_new hl hp hn, hsound.deadline ▸ hsound.timely hne, hsound.submitted hne⟩
      | false =>
        have hread := hl.read p hp
        rw [ReadFrom, if_neg (by simp [hn])] at hread
        obtain ⟨a, ha, -, hdl, hop⟩ := hread
        refine ⟨_, get?_write ha, ?_, ?_⟩
        · rw [writeAssembly_of_planned hl hp hn, writeBack_deadline, hdl]
          exact hsound.timely hne
        · rw [writeAssembly_of_planned hl hp hn]
          simp only [RouteSignalAssembly.writeBack, writeBack]
          split
          · rename_i hsame
            exact hop (hsame ▸ hsound.submitted hne)
          · exact hsound.submitted hne
  · obtain ⟨a, ha, hin⟩ := hs.expired id hid
    refine ⟨_, get?_write ha, ?_⟩
    rcases writeAssembly_cases (h := h) id a with he | ⟨p, hp, hn, hpid, he⟩
    · rw [he, hin]
    · rw [he]
      simp only [RouteSignalAssembly.writeBack, writeBack]
      split
      · exact hin
      · rename_i hne
        rcases (hl.sound p hp).state with hst | hst | hop
        · exact absurd hst hne
        · rw [hst]; rfl
        · -- an opening is committed for an active generation only
          have hactive := hok p hp hop hn
          rw [hpid, ha, Option.any_some, hin] at hactive
          cases hactive
  · rcases List.mem_append.mp ho with ho | ho
    · exact hs.apart o ho hx
    · obtain ⟨p, hp, ho⟩ := List.mem_flatMap.mp ho
      obtain ⟨a, ha, hin⟩ := hs.expired _ hx
      rw [(hnew hp ho).1] at ha
      have hread := hl.read p hp
      cases hn : p.plan.isNew with
      | true =>
        rw [ReadFrom, if_pos hn] at hread
        rw [hread, hl.fresh] at ha
        cases ha
      | false =>
        have hactive := hok p hp (List.ne_nil_of_mem ho) hn
        rw [ha, Option.any_some, hin] at hactive
        cases hactive
  · refine (hs.sessions d' session hd').mono hk fun hf => write_fresh hl hne hf
  · rw [List.length_set] at hd'
    have hlt : d < s.sessions.length := (List.getElem?_eq_some_iff.mp hd).1
    exact write_fresh hl (by omega) (hs.unused d' hd')

omit [Unicode] in
/-- The commit of a sweep or a deletion. -/
theorem Timely.commit_rows (hs : s.Timely) {d : Nat} {rows : List (Uuid × RouteSignalAssembly)} {db : Database}
    (hrows : RowsSound s.db rows) (hok : ∀ e ∈ rows, (s.db.assemblies.get? e.1).all (·.openingIntentId.isNone))
    (hdb : db.assemblies = (s.db.expireRows rows).assemblies) :
    { s with db, sessions := s.sessions.set d .ended, expired := s.expired ++ rows.map Prod.fst }.Timely := by
  have hk : s.db.KeepsAssemblies db := by
    intro id a ha
    rw [hdb]
    exact expireRows_keepsAssemblies rows id a ha
  have hfresh {d' : Nat} (hf : ∀ r, s.db.assemblies.get? (.assembly d' r) = none) (r : Uuid) :
      db.assemblies.get? (.assembly d' r) = none := by
    rw [hdb, Database.expireRows, Table.get?_mapRows, hf, Option.map_none]
  have hstate {id : Uuid} {loaded a : RouteSignalAssembly} (hm : (id, loaded) ∈ rows) :
      (loaded.writeBack { loaded with state := .expired } a).state = .expired := by
    rw [RouteSignalAssembly.writeBack]
    exact if_neg (hrows _ hm).2.symm
  refine ⟨fun o ho => ?_, fun id hid => ?_, fun o ho hx => ?_, sessions_set (fun d' session hd' _ => ?_) trivial,
    fun d' hd' => ?_⟩
  · obtain ⟨a, ha, hle, hsome⟩ := hs.opened o ho
    obtain ⟨a', ha', -, hdl, hop⟩ := hk _ _ ha
    exact ⟨a', ha', hdl ▸ hle, hop hsome⟩
  · rw [hdb]
    rcases List.mem_append.mp hid with hid | hid
    · obtain ⟨a, ha, hin⟩ := hs.expired id hid
      rcases get?_expireRows rows ha with ⟨-, he⟩ | ⟨loaded, hm, he⟩
      · exact ⟨a, he, hin⟩
      · exact ⟨_, he, by rw [hstate hm]; rfl⟩
    · obtain ⟨e, he, rfl⟩ := List.mem_map.mp hid
      obtain ⟨a, ha⟩ := Option.isSome_iff_exists.mp (hrows e he).1
      rcases get?_expireRows rows ha with ⟨hno, -⟩ | ⟨loaded, hm, he⟩
      · exact absurd hid hno
      · exact ⟨_, he, by rw [hstate hm]; rfl⟩
  · rcases List.mem_append.mp hx with hx | hx
    · exact hs.apart o ho hx
    · obtain ⟨e, he, hid⟩ := List.mem_map.mp hx
      obtain ⟨a, ha, -, hsome⟩ := hs.opened o ho
      have hnone := hok e he
      rw [hid, ha, Option.all_some, ← Option.not_isSome, hsome] at hnone
      cases hnone
  · exact (hs.sessions d' session hd').mono hk hfresh
  · rw [List.length_set] at hd'
    exact hfresh (hs.unused d' hd')

theorem Timely.step (hs : s.Timely) (hok : s.InTime l) (h : s.step l = some t) : t.Timely := by
  cases l with
  | tick now =>
    simp only [DeadlineState.step] at h
    split at h <;> cases h
    exact hs.of_sessions le_rfl hs.sessions
  | message env event =>
    simp only [DeadlineState.step] at h
    split at h
    · rename_i hrun
      cases h
      exact hs.of_sessions (by simp) (sessions_append hs.sessions (started_sound hs hrun.1))
    · cases h
  | route d alive =>
    simp only [DeadlineState.step] at h
    split at h
    · rename_i h' hd
      split at h
      · rename_i e todo htodo
        cases h
        exact hs.of_sessions (by simp) (sessions_set (fun d' session hd' _ => hs.sessions d' session hd')
          (processed_sound hd htodo (hs.sessions d _ hd) hok))
      · cases h
    · cases h
  | sweep =>
    cases h
    exact hs.of_sessions (by simp) (sessions_append hs.sessions (sweep_sound s))
  | commit d =>
    simp only [DeadlineState.step] at h
    split at h
    · rename_i h' hd
      split at h <;> cases h
      exact hs.commit_handler hd hok
    · rename_i rows hd
      cases h
      exact hs.commit_rows (hs.sessions d _ hd) (by simpa only [InTime, hd] using hok) rfl
    · rename_i rows hd
      cases h
      exact hs.commit_rows (hs.sessions d _ hd) (by simpa only [InTime, hd] using hok) rfl
    · cases h
  | rollback d =>
    cases h
    exact hs.of_sessions (by simp) (sessions_set (fun d' session hd' _ => hs.sessions d' session hd') trivial)
  | outside sources userSettings routes policies trades =>
    cases h
    have hk : s.db.KeepsAssemblies { s.db with sources, userSettings, routes, policies, trades } := .of_eq rfl
    exact ⟨hs.opened, hs.expired, hs.apart, fun d session hd => (hs.sessions d session hd).mono hk fun hf => hf, hs.unused⟩

/-- Before the first message. -/
def initial (db : Database) : DeadlineState :=
  { db := { db with assemblies := ∅, parsedActions := ∅, intents := ∅ } }

omit [Unicode] in
theorem timely_initial (db : Database) : (initial db).Timely where
  opened := by simp [initial]
  expired := by simp [initial]
  apart := by simp [initial]
  sessions := by simp [initial]
  unused := by simp [initial]

/-- Every opening intent was made by its generation's deadline, and its generation is
not one that was ever expired. -/
def DeadlinesKept (s : DeadlineState) : Prop :=
  ∀ o ∈ s.openings, (∃ a, s.db.assemblies.get? o.assemblyId = some a ∧ o.createdAt ≤ a.assemblyDeadline) ∧
    o.assemblyId ∉ s.expired

/-- Deadlines are kept in every run that completes its openings in time and commits
over nothing it has not seen. -/
theorem deadline_kept {db : Database} (h : Reach step InTime (initial db) s) : s.DeadlinesKept := by
  have hs : s.Timely := h.invariant (timely_initial db) fun _ _ _ hs hok hstep => hs.step hok hstep
  intro o ho
  obtain ⟨a, ha, hle, -⟩ := hs.opened o ho
  exact ⟨⟨a, ha, hle⟩, hs.apart o ho⟩

/-- What the tables show has been recorded. -/
structure Recorded (s : DeadlineState) : Prop where
  openings : ∀ id row, s.db.intents.get? id = some row → row.idempotencyKey.action.isOpen → ∃ o ∈ s.openings, o.intentId = id
  expired : ∀ id a, s.db.assemblies.get? id = some a → a.state = .expired → id ∈ s.expired

omit [Unicode] in
theorem Recorded.commit_handler (hr : s.Recorded) {d : Nat} {h : HandlerSession} (hsound : ∀ p ∈ h.planned, p.Sound) :
    { s with
      db := h.write s.db, sessions := s.sessions.set d .ended
      openings := s.openings ++ h.planned.flatMap PlannedRoute.openings }.Recorded := by
  refine ⟨fun id row hi ho => ?_, fun id a ha hx => ?_⟩
  · rcases Table.get?_addAll_cases hi with hi | hi
    · obtain ⟨o, hm, he⟩ := hr.openings id row hi ho
      exact ⟨o, List.mem_append_left _ hm, he⟩
    · obtain ⟨p, hp, hi⟩ := List.mem_flatMap.mp hi
      refine ⟨⟨id, p.plan.assemblyId, p.plannedAt⟩, List.mem_append_right _ (List.mem_flatMap.mpr ⟨p, hp, ?_⟩), rfl⟩
      exact List.mem_map.mpr ⟨(id, row), List.mem_filter.mpr ⟨hi, ho⟩, rfl⟩
  · rcases Table.get?_addAll_cases ha with ha | ha
    · rw [Table.get?_mapRows] at ha
      obtain ⟨stored, hs, rfl⟩ := Option.map_eq_some_iff.mp ha
      rcases writeAssembly_cases (h := h) id stored with he | ⟨p, hp, -, -, he⟩
      · rw [he] at hx
        exact hr.expired id stored hs hx
      · rw [he] at hx
        simp only [RouteSignalAssembly.writeBack, writeBack] at hx
        split at hx
        · exact hr.expired id stored hs hx
        · exact absurd hx (hsound p hp).notExpired
    · obtain ⟨p, hp, he⟩ := List.mem_map.mp ha
      cases he
      exact absurd hx (hsound p (List.mem_of_mem_filter hp)).notExpired

omit [Unicode] in
theorem Recorded.commit_rows (hr : s.Recorded) {d : Nat} {rows : List (Uuid × RouteSignalAssembly)} {db : Database}
    (hi : db.intents = s.db.intents) (hdb : db.assemblies = (s.db.expireRows rows).assemblies) :
    { s with db, sessions := s.sessions.set d .ended, expired := s.expired ++ rows.map Prod.fst }.Recorded := by
  refine ⟨fun id row hrow => hr.openings id row (hi ▸ hrow), fun id a ha hx => ?_⟩
  rw [hdb, Database.expireRows, Table.get?_mapRows] at ha
  obtain ⟨stored, hs, -⟩ := Option.map_eq_some_iff.mp ha
  rcases get?_expireRows rows hs with ⟨-, he⟩ | ⟨loaded, hm, -⟩
  · rw [Database.expireRows, Table.get?_mapRows] at he
    cases ha.symm.trans he
    exact List.mem_append_left _ (hr.expired id _ hs hx)
  · exact List.mem_append_right _ (List.mem_map_of_mem hm)

theorem Recorded.step (hr : s.Recorded) (hs : s.Timely) (h : s.step l = some t) : t.Recorded := by
  cases l with
  | tick now =>
    simp only [DeadlineState.step] at h
    split at h <;> cases h
    exact ⟨hr.openings, hr.expired⟩
  | message env event =>
    simp only [DeadlineState.step] at h
    split at h <;> cases h
    exact ⟨hr.openings, hr.expired⟩
  | route d alive =>
    simp only [DeadlineState.step] at h
    split at h
    · split at h <;> cases h
      exact ⟨hr.openings, hr.expired⟩
    · cases h
  | commit d =>
    simp only [DeadlineState.step] at h
    split at h
    · rename_i h' hd
      split at h <;> cases h
      exact hr.commit_handler (hs.sessions d _ hd).sound
    · cases h
      exact hr.commit_rows rfl rfl
    · cases h
      exact hr.commit_rows rfl rfl
    · cases h
  | sweep | rollback | outside =>
    cases h
    exact ⟨hr.openings, hr.expired⟩

/-- In such a run nothing goes unrecorded. -/
theorem recorded {db : Database} (h : Reach step InTime (initial db) s) : s.Recorded := by
  have h₀ : (initial db).Timely ∧ (initial db).Recorded := ⟨timely_initial db, by simp [initial], by simp [initial]⟩
  exact (h.invariant (P := fun s => s.Timely ∧ s.Recorded) h₀ fun _ _ _ hs hok hstep =>
    ⟨hs.1.step hok hstep, hs.2.step hs.1 hstep⟩).2

/-! ## A signal in two messages -/

instance (s : DeadlineState) (l : DeadlineLabel) : Decidable (s.InTime l) := by
  unfold InTime
  repeat' first | infer_instance | split

/-- What the parser reads from `SL 2390 TP 2410`. -/
def goldLevels : AiAction where
  action := .modify_sl_tp
  stopLoss := some 2390
  takeProfits := [2410]
  confidence := 1

/-- `BUY XAUUSD now` begins a generation at 101 s, whose deadline is at 191 s. -/
def goldBegun : List DeadlineLabel :=
  [.tick (seconds 101), .message (goldEnv 0 (seconds 101) buyNow) { goldMessage with text := "BUY XAUUSD now" },
    .route 0 (fun _ => false), .commit 0]

/-- `SL 2390 TP 2410`, taken up by session `d`. -/
def goldCompleted (d : Nat) (now : Time) : List DeadlineLabel :=
  [.message (goldEnv d now goldLevels)
      { goldMessage with messageId := 12, correlationId := 16, text := "SL 2390 TP 2410", occurredAt := now },
    .route d (fun _ => false), .commit d]

omit [Unicode] in
theorem deadline_kept_goldLevels :
    let _ := Unicode.ascii
    ∃ s, Reach step InTime (initial goldDatabase) s ∧ s.openings.length = 1 ∧ s.DeadlinesKept := by
  intro _
  have hrun : (runIf step InTime (initial goldDatabase)
      (goldBegun ++ .tick (seconds 121) :: goldCompleted 1 (seconds 121))).map (·.openings.length) = some 1 := by decide +kernel
  obtain ⟨s, hs, hlen⟩ := Option.map_eq_some_iff.mp hrun
  exact ⟨s, .of_runIf hs, hlen, deadline_kept (.of_runIf hs)⟩

omit [Unicode] in
/-- The same message at 195 s, while a sweep has read the generation: it is opened
after its deadline, and then expired. -/
theorem lateOpening :
    let _ := Unicode.ascii
    ∃ s, Reach step always (initial goldDatabase) s ∧ ¬ s.DeadlinesKept ∧
      ∃ o ∈ s.openings, ∃ a, s.db.assemblies.get? o.assemblyId = some a ∧ a.assemblyDeadline < o.createdAt ∧
        a.state = .expired ∧ a.openingIntentId = some o.intentId := by
  intro _
  have hrun : (run step (initial goldDatabase)
      (goldBegun ++ [.tick (seconds 195), .sweep] ++ goldCompleted 2 (seconds 195) ++ [.commit 1])).map
      (fun s => s.openings.filter fun o => (s.db.assemblies.get? o.assemblyId).any fun a =>
        a.assemblyDeadline < o.createdAt && a.state = .expired && a.openingIntentId = some o.intentId) =
        some [⟨.intent 2 4 0 0, .assembly 0 4, seconds 195⟩] := by decide +kernel
  obtain ⟨s, hs, hfilter⟩ := Option.map_eq_some_iff.mp hrun
  obtain ⟨ho, ha⟩ := List.mem_filter.mp (hfilter ▸ List.mem_singleton_self _)
  cases hget : s.db.assemblies.get? (.assembly 0 4) with
  | none =>
    rw [hget] at ha
    cases ha
  | some a =>
    simp only [hget, Option.any_some, Bool.and_eq_true, decide_eq_true_eq] at ha
    obtain ⟨⟨hlate, hstate⟩, hopening⟩ := ha
    refine ⟨s, .of_run hs, fun hkept => ?_, _, ho, a, hget, hlate, hstate, hopening⟩
    obtain ⟨⟨a', ha', hle⟩, -⟩ := hkept _ ho
    cases hget.symm.trans ha'
    exact absurd hle (not_le.mpr hlate)

end DeadlineState

end SignalSync
