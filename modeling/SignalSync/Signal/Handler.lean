import SignalSync.Delivery
import SignalSync.Signal.Route

/-!
# The signal handler

`signalHandler` is one run of `signal_handler` on a message: the conversation is
chosen or started and takes the message's fields, then every accepting route is
processed in turn, in one transaction. `SignalRun` is what a run comes to: the
database if it commits, and the effects on Redis, which no rollback undoes. A run
that fails half-way has made a prefix of the effects and left the database alone
(`SignalRun.failAt`).
-/

namespace SignalSync

open Library

variable [Unicode]

/-- The result of a run: how it ends, with the database of a run that commits,
and the effects on Redis in the order they were made. -/
structure SignalRun where
  result : Except SignalError (DeliveryResult × Database)
  effects : List RedisEffect := []

def SignalRun.done (db : Database) (result : DeliveryResult := .success) : SignalRun := { result := .ok (result, db) }

/-- `_route_accepts_message`. -/
def routeAcceptsMessage (route : CopyRoute) (source : TelegramSource) (event : MessageEvent) : Bool :=
  !source.isGroup || route.processAllGroupAuthors || event.senderIsAdmin

/-- The active routes of the source that take the message. -/
def Database.acceptingRoutes (db : Database) (source : TelegramSource) (event : MessageEvent) :
    List (Uuid × CopyRoute) :=
  db.routes.select fun _ route =>
    route.sourceId = event.sourceId && route.state = .active && routeAcceptsMessage route source event

def Database.activeConversations (db : Database) (sourceId : Uuid) : List (Uuid × SignalConversation) :=
  db.conversations.select fun _ c => c.sourceId = sourceId && c.state = .active

/-- Some generation of the conversation has been submitted. -/
def Database.openingSubmitted (db : Database) (conversationId : Uuid) : Bool :=
  db.assemblies.entries.any fun e => e.2.conversationId = conversationId && e.2.openingIntentId.isSome

def Database.hasActiveTrade (db : Database) (routes : List (Uuid × CopyRoute)) (threadId : Uuid) : Bool :=
  db.trades.entries.any fun e =>
    e.2.threadId = threadId && routes.any (·.1 = e.2.routeId) && e.2.lifecycleState.isActive

/-- A conversation as `choose_conversation` sees it; only active ones count as submitted. -/
def Database.candidate (db : Database) (routes : List (Uuid × CopyRoute)) (id : Uuid) (c : SignalConversation) :
    ConversationCandidate where
  id := id
  replyRootMessageId := c.replyRootMessageId
  lastMessageId := c.lastMessageId
  symbol := c.symbol
  direction := c.direction.map Direction.value
  updatedAt := c.updatedAt
  openingSubmitted := c.state = .active && db.openingSubmitted id
  hasActiveTrade := db.hasActiveTrade routes c.legacyThreadId

section

variable (env : SignalEnv) (event : MessageEvent)

/-- The context the parser is shown. -/
def initialContext (conversations : List (Uuid × SignalConversation)) : Context :=
  match conversations with
  | [(_, c)] => if event.replyToMessageId.any (· ≠ 0) then {} else c.context
  | _ => {}

def conversationQuery (parsed : AiAction) (candidates : List ConversationCandidate) : ConversationQuery where
  replyToMessageId := event.replyToMessageId
  symbol := parsed.symbol
  direction := parsed.direction.map Direction.value
  candidates := candidates
  action := some parsed.action
  messageId := some event.messageId
  isEdit := event.eventType = .edited

/-- The conversation a message goes to: the one this event started before, or
the one chosen. -/
def findConversation (db : Database) (routes : List (Uuid × CopyRoute)) (parsed : AiAction) : ConversationChoice :=
  match db.conversations.select fun _ c => c.sourceId = event.sourceId && c.correlationId = event.correlationId with
  | (id, c) :: _ => { selected := some (db.candidate routes id c) }
  | [] =>
    let candidates := (db.activeConversations event.sourceId).map fun e => db.candidate routes e.1 e.2
    chooseConversation (conversationQuery event parsed candidates)

/-- A new conversation, before the message is merged. -/
def newConversation (parsed : AiAction) : SignalConversation where
  sourceId := event.sourceId
  legacyThreadId := .thread env.run
  correlationId := event.correlationId
  state := .active
  replyRootMessageId := some event.messageId
  symbol := parsed.symbol
  direction := parsed.direction
  context := {}
  lastMessageId := event.messageId
  updatedAt := env.now

/-- The fields the message states, or the correction an edit of a submitted
opening is turned into. -/
def parsedUpdate (parsed : AiAction) (choice : Option ConversationCandidate) (conversation : SignalConversation) :
    Context :=
  if event.eventType = .edited && choice.any (·.openingSubmitted) && parsed.action.isOpen then
    correctiveActionForSubmittedEdit conversation.context parsed.modelDump
  else parsed.modelDump

/-- The conversation with the message merged in; `updated_at` moves if anything
has changed. -/
def mergeConversation (update : Context) (conversation : SignalConversation) : SignalConversation :=
  let context := mergeContext conversation.context update
  let merged :=
    { conversation with
      context := context
      symbol := context.symbol
      direction := context.direction
      lastMessageId := event.messageId
      lastMessageRevision := conversation.lastMessageRevision + if event.eventType = .edited then 1 else 0 }
  if merged = conversation then conversation else { merged with updatedAt := env.now }

/-- The chosen conversation, or a new one, written with the message merged in. -/
def openConversation (db : Database) (parsed : AiAction) (choice : Option ConversationCandidate) :
    Except SignalError (Uuid × SignalConversation × Context × Database) :=
  match choice.bind fun c => (db.conversations.get? c.id).map fun row => (c.id, row) with
  | some (id, row) =>
    let update := parsedUpdate event parsed choice row
    let merged := mergeConversation env event update row
    .ok (id, merged, update, { db with conversations := db.conversations.modify id fun _ => merged })
  | none =>
    let row := newConversation env event parsed
    let update := parsedUpdate event parsed choice row
    let merged := mergeConversation env event update row
    if db.conversations.entries.any (·.2.correlationId = event.correlationId) then .error .integrityError
    else match db.conversations.push (.conversation env.run) merged with
      | none => .error .integrityError
      | some conversations => .ok (.conversation env.run, merged, update, { db with conversations })

/-- Where the loop over the routes starts. -/
structure RouteLoop where
  routes : List (Uuid × CopyRoute)
  parsed : AiAction
  update : Context
  conversationId : Uuid
  conversation : SignalConversation
  db : Database

/-- The handler up to the loop, once the accepting routes are known; a run that
ends before is an `error`. -/
def startLoop (db : Database) (routes : List (Uuid × CopyRoute)) : Except SignalRun RouteLoop :=
  match env.parseMessage event.text (initialContext event (db.activeConversations event.sourceId)) with
  | .error name => .error (.done db (.retry name.toUpper))
  | .ok parsed =>
    if parsed.action = .status_only then .error (.done db)
    else
      let choice := findConversation event db routes parsed
      if choice.ambiguous then .error (.done db)
      else match openConversation env event db parsed choice.selected with
        | .error e => .error { result := .error e }
        | .ok (conversationId, conversation, update, db) =>
          .ok { routes, parsed, update, conversationId, conversation, db }

/-- A generation after the message has been deleted: it expires unless it has
been executed. -/
def deleteGeneration (db : Database) (a : RouteSignalAssembly) : RouteSignalAssembly :=
  if (db.conversations.get? a.conversationId).any (·.sourceId = event.sourceId) &&
      a.messageReferences.any (·.messageId = event.messageId) && (db.routes.get? a.routeId).isSome &&
      (a.state = .assembling || a.state = .ready) then
    { a with state := .expired }
  else a

/-- `_handle_deleted_message`. -/
def handleDeletedMessage (db : Database) : Database :=
  { db with assemblies := db.assemblies.mapRows fun _ => deleteGeneration event db }

/-- The handler up to the loop. -/
def prepare (db : Database) : Except SignalRun RouteLoop :=
  if event.eventType = .deleted then .error (.done (handleDeletedMessage event db))
  else if env.globalPaused then .error (.done db)
  else if !env.lockAcquired then .error (.done db (.retry "SOURCE_BUSY"))
  else match db.sources.get? event.sourceId with
    | none => .error (.done db)
    | some source =>
      if source.isPaused || (db.acceptingRoutes source event).isEmpty then .error (.done db)
      else startLoop env event db (db.acceptingRoutes source event)

def RouteLoop.run (loop : RouteLoop) (semantic : SemanticKeys) : SignalRun :=
  let (result, effects) := processRoutes env event loop.parsed loop.update loop.conversationId loop.conversation
    loop.routes { db := loop.db, semantic, effects := [] }
  { result := result.map fun db => (.success, db), effects }

def signalHandler (db : Database) (semantic : SemanticKeys) : SignalRun :=
  match prepare env event db with
  | .error run => run
  | .ok loop => loop.run env event semantic

end

/-! ## What a run goes through -/

section

variable {env : SignalEnv} {event : MessageEvent} {db : Database} {loop : RouteLoop}

omit [Unicode] in
/-- But for the time of the change, a merged conversation is what the row and the update say. -/
theorem mergeConversation_eq (env : SignalEnv) (event : MessageEvent) (update : Context) (row : SignalConversation) :
    ∃ updatedAt, mergeConversation env event update row =
      { row with
        context := mergeContext row.context update
        symbol := (mergeContext row.context update).symbol
        direction := (mergeContext row.context update).direction
        lastMessageId := event.messageId
        lastMessageRevision := row.lastMessageRevision + if event.eventType = .edited then 1 else 0
        updatedAt } := by
  unfold mergeConversation
  generalize (if event.eventType = .edited then 1 else 0) = revision
  simp only
  split
  · rename_i h
    exact ⟨row.updatedAt, h.symm⟩
  · exact ⟨env.now, rfl⟩

omit [Unicode] in
theorem mergeConversation_context (update : Context) (conversation : SignalConversation) :
    (mergeConversation env event update conversation).context = mergeContext conversation.context update := by
  obtain ⟨_, h⟩ := mergeConversation_eq env event update conversation
  rw [h]

omit [Unicode] in
/-- The conversation a loop starts with: the row chosen, or a new one, with the
update merged; the other tables are untouched. -/
theorem openConversation_eq_ok {parsed : AiAction} {choice : Option ConversationCandidate} {id : Uuid}
    {conversation : SignalConversation} {update : Context} {db' : Database}
    (h : openConversation env event db parsed choice = .ok (id, conversation, update, db')) :
    (∃ row, update = parsedUpdate event parsed choice row ∧ conversation = mergeConversation env event update row) ∧
      (∀ c row, choice = some c → db.conversations.get? c.id = some row → id = c.id) ∧
      ∃ conversations, db' = { db with conversations } := by
  unfold openConversation at h
  split at h
  · rename_i id' row hb
    cases h
    obtain ⟨c, rfl, hc⟩ := Option.bind_eq_some_iff.mp hb
    obtain ⟨row', hrow, he⟩ := Option.map_eq_some_iff.mp hc
    cases he
    exact ⟨⟨_, rfl, rfl⟩, fun c' _ hc' _ => by cases hc'; rfl, _, rfl⟩
  · rename_i hb
    simp only at h
    split at h
    · cases h
    · split at h
      · cases h
      · cases h
        refine ⟨⟨_, rfl, rfl⟩, fun c row hc hrow => ?_, _, rfl⟩
        simp [hc, hrow] at hb

omit [Unicode] in
/-- The conversation of the loop is written, and the others stay. -/
theorem openConversation_rows {parsed : AiAction} {choice : Option ConversationCandidate} {id : Uuid}
    {conversation : SignalConversation} {update : Context} {db' : Database}
    (h : openConversation env event db parsed choice = .ok (id, conversation, update, db')) :
    db'.conversations.get? id = some conversation ∧
      ∀ c row, db.conversations.get? c = some row → ∃ row', db'.conversations.get? c = some row' ∧
        row'.legacyThreadId = row.legacyThreadId ∧ row'.state = row.state := by
  unfold openConversation at h
  split at h
  · rename_i id' row hb
    cases h
    obtain ⟨c, -, hc⟩ := Option.bind_eq_some_iff.mp hb
    obtain ⟨row', hrow, he⟩ := Option.map_eq_some_iff.mp hc
    cases he
    refine ⟨by simp [hrow], fun i row₀ hi => ?_⟩
    obtain ⟨_, hmerged⟩ := mergeConversation_eq env event (parsedUpdate event parsed choice row) row
    rw [Table.get?_modify, hi]
    split
    · rename_i he
      subst he
      cases hrow.symm.trans hi
      exact ⟨_, rfl, by rw [hmerged], by rw [hmerged]⟩
    · exact ⟨row₀, rfl, rfl, rfl⟩
  · simp only at h
    split at h
    · cases h
    · split at h
      · cases h
      · rename_i conversations hpush
        cases h
        refine ⟨by simp [Table.get?_push hpush], fun i row₀ hi => ⟨row₀, ?_, rfl, rfl⟩⟩
        rw [Table.get?_push hpush, if_neg, hi]
        rintro rfl
        rw [Table.push_eq_none.mpr ⟨row₀, hi⟩] at hpush
        cases hpush

theorem startLoop_eq_ok {routes : List (Uuid × CopyRoute)} (h : startLoop env event db routes = .ok loop) :
    env.parseMessage event.text (initialContext event (db.activeConversations event.sourceId)) = .ok loop.parsed ∧
      loop.parsed.action ≠ .status_only ∧ (findConversation event db routes loop.parsed).ambiguous = false ∧
      openConversation env event db loop.parsed (findConversation event db routes loop.parsed).selected =
        .ok (loop.conversationId, loop.conversation, loop.update, loop.db) ∧
      loop.routes = routes := by
  unfold startLoop at h
  split at h
  · cases h
  · rename_i parsed hp
    split at h
    · cases h
    · rename_i hs
      simp only at h
      split at h
      · cases h
      · rename_i ha
        split at h
        · cases h
        · rename_i ho
          cases h
          exact ⟨hp, hs, by simpa using ha, ho, rfl⟩

theorem startLoop_eq_error {routes : List (Uuid × CopyRoute)} {run : SignalRun} (h : startLoop env event db routes = .error run) :
    (∃ r, run = .done db r) ∨ ∃ e, run = { result := .error e } := by
  unfold startLoop at h
  split at h
  · cases h
    exact .inl ⟨_, rfl⟩
  · split_ifs at h with hstatus
    · cases h
      exact .inl ⟨_, rfl⟩
    · simp only at h
      split_ifs at h with hambiguous
      · cases h
        exact .inl ⟨_, rfl⟩
      · split at h
        · cases h
          exact .inr ⟨_, rfl⟩
        · cases h

/-- How the handler gets to its loop, or ends before. -/
inductive Prepares (env : SignalEnv) (event : MessageEvent) (db : Database) : Except SignalRun RouteLoop → Prop
  | deleted (h : event.eventType = .deleted) : Prepares env event db (.error (.done (handleDeletedMessage event db)))
  | done (h : event.eventType ≠ .deleted) (r : DeliveryResult) : Prepares env event db (.error (.done db r))
  | fails (h : event.eventType ≠ .deleted) (e : SignalError) : Prepares env event db (.error { result := .error e })
  | starts (h : event.eventType ≠ .deleted) {source : TelegramSource} (hs : db.sources.get? event.sourceId = some source)
      {loop : RouteLoop} (hl : startLoop env event db (db.acceptingRoutes source event) = .ok loop) : Prepares env event db (.ok loop)

theorem prepare_cases (env : SignalEnv) (event : MessageEvent) (db : Database) : Prepares env event db (prepare env event db) := by
  unfold prepare
  split_ifs with hdeleted hpaused hlock
  · exact .deleted hdeleted
  · exact .done hdeleted _
  · exact .done hdeleted _
  · split
    · exact .done hdeleted _
    · rename_i source hs
      split_ifs with haccepts
      · exact .done hdeleted _
      · rcases hl : startLoop env event db (db.acceptingRoutes source event) with run | loop
        · rcases startLoop_eq_error hl with ⟨r, rfl⟩ | ⟨e, rfl⟩
          · exact .done hdeleted r
          · exact .fails hdeleted e
        · exact .starts hdeleted hs hl

theorem prepare_eq_ok (h : prepare env event db = .ok loop) :
    ∃ source, db.sources.get? event.sourceId = some source ∧
      startLoop env event db (db.acceptingRoutes source event) = .ok loop := by
  have hp := prepare_cases env event db
  rw [h] at hp
  cases hp with
  | starts _ hs hl => exact ⟨_, hs, hl⟩

theorem not_deleted_of_prepare (h : prepare env event db = .ok loop) : event.eventType ≠ .deleted := by
  have hp := prepare_cases env event db
  rw [h] at hp
  cases hp with
  | starts hdeleted => exact hdeleted

theorem prepare_routes (h : prepare env event db = .ok loop) : (loop.routes.map Prod.fst).Nodup := by
  obtain ⟨source, -, hl⟩ := prepare_eq_ok h
  rw [(startLoop_eq_ok hl).2.2.2.2]
  exact Table.nodup_select _ _

/-- The loop starts with the conversation written. -/
theorem prepare_loop_db (h : prepare env event db = .ok loop) : ∃ conversations, loop.db = { db with conversations } := by
  obtain ⟨source, -, hl⟩ := prepare_eq_ok h
  exact (openConversation_eq_ok (startLoop_eq_ok hl).2.2.2.1).2.2

/-- A run that ends before the loop leaves the database as it was, but marks a
deleted message's generations. -/
theorem prepare_eq_error_db {run : SignalRun} {r : DeliveryResult} {db' : Database} (h : prepare env event db = .error run)
    (hr : run.result = .ok (r, db')) : db' = if event.eventType = .deleted then handleDeletedMessage event db else db := by
  have hp := prepare_cases env event db
  rw [h] at hp
  cases hp with
  | deleted hdeleted =>
    cases hr
    rw [if_pos hdeleted]
  | done hdeleted =>
    cases hr
    rw [if_neg hdeleted]
  | fails => cases hr

theorem prepare_eq_error {run : SignalRun} {r : DeliveryResult} {db' : Database} (h : prepare env event db = .error run)
    (hr : run.result = .ok (r, db')) : db' = db ∨ db' = handleDeletedMessage event db := by
  rw [prepare_eq_error_db h hr]
  split
  · exact .inr rfl
  · exact .inl rfl

end

def RouteSignalAssembly.isOverdue (now : Time) (a : RouteSignalAssembly) : Bool :=
  a.state = .assembling && a.assemblyDeadline ≤ now

def expireGeneration (now : Time) (a : RouteSignalAssembly) : RouteSignalAssembly :=
  if a.isOverdue now then { a with state := .expired } else a

/-- `expire_signal_threads`: generations past their deadline expire, and with
them the conversations that have no active generation left. -/
def expireSignalThreads (now : Time) (db : Database) : Database :=
  let assemblies := db.assemblies.mapRows fun _ => expireGeneration now
  { db with
    assemblies := assemblies
    conversations := db.conversations.mapRows fun id c =>
      if db.assemblies.entries.any (fun e => e.2.conversationId = id && e.2.isOverdue now) &&
          !assemblies.entries.any (fun e => e.2.conversationId = id && e.2.state.isActive) then
        { c with state := .expired }
      else c }

/-- A run that fails after its first `n` effects: they stay, the database is
rolled back. -/
def SignalRun.failAt (run : SignalRun) (n : Nat) (semantic : SemanticKeys) : SemanticKeys :=
  semantic.applyAll (run.effects.take n)

/-! ## A source with one route -/

/-- How many intents a route has after a run that succeeds. -/
def SignalRun.intentCount (run : SignalRun) (routeId : Uuid) : Option Nat :=
  match run.result with
  | .ok (.success, db) => some (db.intentsOf routeId).length
  | _ => none

omit [Unicode] in
theorem SignalRun.of_intentCount (run : SignalRun) (routeId : Uuid) (n : Nat) (h : run.intentCount routeId = some n) :
    ∃ db, run.result = .ok (.success, db) ∧ (db.intentsOf routeId).length = n := by
  unfold intentCount at h
  split at h
  · rename_i db hr
    exact ⟨db, hr, Option.some.inj h⟩
  · cases h

omit [Unicode] in
theorem SignalRun.of_toOption {run : SignalRun} {r : DeliveryResult × Database} (h : run.result.toOption = some r) :
    run.result = .ok r := by
  cases hr : run.result with
  | error e => rw [hr] at h; cases h
  | ok r' => rw [hr] at h; exact congrArg Except.ok (Option.some.inj h)

def goldRoute : CopyRoute where
  userId := 1
  sourceId := 2
  targetConnectionId := some 3
  state := .active
  fixedLot := ⟨100⟩
  fixedLot_pos := hundredth_pos

def goldDatabase : Database where
  sources := .add ∅ 2 { isGroup := false, isPaused := false }
  routes := .add ∅ 4 goldRoute
  policies := .add ∅ 3 {}

/-- What the parser reads from `BUY XAUUSD SL 2390 TP 2410`. -/
def buyGold : AiAction where
  action := .open_market
  symbol := some "XAUUSD"
  direction := some .buy
  stopLoss := some 2390
  takeProfits := [2410]
  confidence := 1

def goldMessage : MessageEvent where
  eventType := .created
  correlationId := 5
  connectionId := 6
  sourceId := 2
  chatId := 7
  messageId := 11
  text := "BUY XAUUSD SL 2390 TP 2410"
  occurredAt := seconds 100

def goldEnv (run : Nat) (now : Time) (parsed : AiAction) : SignalEnv where
  run := run
  now := now
  parseMessage _ _ := .ok parsed

example : (@signalHandler Unicode.ascii (goldEnv 0 (seconds 101) buyGold) goldMessage goldDatabase []).intentCount 4 =
    some 1 := by decide +kernel

end SignalSync
