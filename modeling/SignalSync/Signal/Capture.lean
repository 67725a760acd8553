import SignalSync.Library.Except
import SignalSync.Signal.Edits

/-!
# Dead conversations

A conversation whose generations on a route were all skipped or expired opens nothing
there any more, but `chooseConversation` sees an opening that has not been submitted,
which a protection update is taken for a part of, or a conversation kept alive by
another route. Where it has opened on another route and has nothing live there any more,
no rule looks at it: `leavesNoneDead` says of a step, in the state it is taken in, that a
conversation it ends on a route is of that kind, or no longer active.

* `deadAreSpent_of_step`: such a step leaves no other dead conversation;
* `neverCaptured`: in a history of such steps no dead conversation is selected for a
  management message. The condition is sufficient only: which later message there is,
  and what it says, does not matter to it;
* `duplicate_captures_stop`: a history with another step, and a message captured.
-/

namespace SignalSync

open Library

/-! ## Dead conversations of a source -/

/-- All the generations the conversation has had on the route were skipped or expired
without an opening. -/
structure Database.DeadOn (db : Database) (conversationId routeId : Uuid) : Prop where
  generation : ∃ e ∈ db.assemblies.entries, e.2.conversationId = conversationId ∧ e.2.routeId = routeId
  ended : ∀ e ∈ db.assemblies.entries, e.2.conversationId = conversationId → e.2.routeId = routeId →
    (e.2.state = .skipped ∨ e.2.state = .expired) ∧ e.2.openingIntentId = none

variable [Unicode]

/-- Another conversation with a live trade, of the same symbol and direction. -/
structure ConversationCandidate.Rivals (rival item : ConversationCandidate) : Prop where
  ne : rival.id ≠ item.id
  live : rival.hasActiveTrade
  symbol : normalizeSymbol rival.symbol = normalizeSymbol item.symbol
  direction : normalizeDirection rival.direction = normalizeDirection item.direction

/-- The query of a message among the source's conversations. -/
def Database.query (db : Database) (event : MessageEvent) (routes : List (Uuid × CopyRoute)) (parsed : AiAction) :
    ConversationQuery :=
  conversationQuery event parsed ((db.activeConversations event.sourceId).map fun e => db.candidate routes e.1 e.2)

/-- A conversation that is dead on some route, while a rival of it is live. -/
structure Outlived (db : Database) (q : ConversationQuery) (item : ConversationCandidate) : Prop where
  mem : item ∈ q.candidates
  dead : ∃ routeId, db.DeadOn item.id routeId
  rival : ∃ rival ∈ q.candidates, rival.Rivals item

/-- No such conversation is selected for the message. -/
def NeverCaptured (db : Database) (event : MessageEvent) (routes : List (Uuid × CopyRoute)) (parsed : AiAction) : Prop :=
  ∀ item, Outlived db (db.query event routes parsed) item →
    (chooseConversation (db.query event routes parsed)).selected ≠ some item

omit [Unicode] in
theorem Database.deadOn_iff {db : Database} {conversationId routeId : Uuid} : db.DeadOn conversationId routeId ↔
    (∃ e ∈ db.assemblies.entries, e.2.conversationId = conversationId ∧ e.2.routeId = routeId) ∧
      ∀ e ∈ db.assemblies.entries, e.2.conversationId = conversationId → e.2.routeId = routeId →
        (e.2.state = .skipped ∨ e.2.state = .expired) ∧ e.2.openingIntentId = none :=
  ⟨fun h => ⟨h.generation, h.ended⟩, fun h => ⟨h.1, h.2⟩⟩

instance (db : Database) (conversationId routeId : Uuid) : Decidable (db.DeadOn conversationId routeId) :=
  decidable_of_iff' _ Database.deadOn_iff

theorem ConversationCandidate.rivals_iff {rival item : ConversationCandidate} : rival.Rivals item ↔
    rival.id ≠ item.id ∧ rival.hasActiveTrade ∧ normalizeSymbol rival.symbol = normalizeSymbol item.symbol ∧
      normalizeDirection rival.direction = normalizeDirection item.direction :=
  ⟨fun h => ⟨h.ne, h.live, h.symbol, h.direction⟩, fun h => ⟨h.1, h.2.1, h.2.2.1, h.2.2.2⟩⟩

instance (rival item : ConversationCandidate) : Decidable (rival.Rivals item) :=
  decidable_of_iff' _ ConversationCandidate.rivals_iff

/-! ## Steps that end a generation -/

/-- The thread has an open or pending trade. -/
def isLive (trades : Table Uuid CopiedTrade) (threadId : Uuid) : Bool :=
  trades.entries.any fun e => e.2.threadId = threadId && e.2.lifecycleState.isActive

/-- The conversation has opened on the route. -/
def Database.openedOn (db : Database) (conversationId routeId : Uuid) : Bool :=
  db.assemblies.entries.any fun e => e.2.conversationId = conversationId && e.2.routeId = routeId && e.2.openingIntentId.isSome

/-- It has opened, and has no open or pending trade. -/
def Database.isSpent (db : Database) (conversationId threadId : Uuid) : Bool :=
  db.openingSubmitted conversationId && !isLive db.trades threadId

/-- A generation of the route may end: the conversation has opened there, is no longer
active, or is spent on all its routes. -/
def Database.mayEnd (db : Database) (conversationId : Uuid) (row : SignalConversation) (routeId : Uuid) : Bool :=
  db.openedOn conversationId routeId || row.state ≠ .active || db.isSpent conversationId row.legacyThreadId

/-- Some generation of the conversation is in progress, and not past its deadline. -/
def Database.goesOn (db : Database) (now : Time) (conversationId : Uuid) : Bool :=
  db.assemblies.entries.any fun e => e.2.conversationId = conversationId && e.2.state.isActive && !e.2.isOverdue now

/-- The signal is over a limit, a duplicate, or has nothing to manage. -/
def RouteSignal.isSkipped (env : SignalEnv) (conversation : SignalConversation) (routeId : Uuid) (route : CopyRoute) (view : RouteView)
    (alive : SemanticKey → Bool) (s : RouteSignal) : Bool :=
  match routeVerdict env conversation routeId route view s with
  | .refused => false
  | .limited => true
  | .proceed targets => s.heldBack routeId route alive || targets.isEmpty

/-- Every route that skips the message may end its generation. -/
def SkipsEnd (env : SignalEnv) (event : MessageEvent) (db : Database) (keys : SemanticKeys) : Prop :=
  ∀ loop, prepare env event db = .ok loop → ∀ e ∈ loop.routes, (loop.view env e).isPaused = false →
    ∀ s, loop.signal env event e = .ok s →
      s.isSkipped env loop.conversation e.1 e.2 (loop.view env e) (keys.alive env.now) →
        db.mayEnd loop.conversationId loop.conversation e.1

/-- Every generation that a deletion expires may end. -/
def DeletionEnds (event : MessageEvent) (db : Database) : Prop :=
  event.eventType = .deleted → ∀ id a, db.assemblies.get? id = some a → deleteGeneration event db a ≠ a →
    ∀ row ∈ db.conversations.get? a.conversationId, db.mayEnd a.conversationId row a.routeId

/-- Every generation that is overdue may end, or its conversation expires with it. -/
def ExpiryEnds (now : Time) (db : Database) : Prop :=
  ∀ id a, db.assemblies.get? id = some a → a.isOverdue now → db.goesOn now a.conversationId →
    ∀ row ∈ db.conversations.get? a.conversationId, db.mayEnd a.conversationId row a.routeId

/-- The conversation is dead on some route. -/
def Database.IsDead (db : Database) (conversationId : Uuid) : Prop :=
  ∃ e ∈ db.assemblies.entries, db.DeadOn conversationId e.2.routeId

instance (db : Database) (conversationId : Uuid) : Decidable (db.IsDead conversationId) := by
  delta Database.IsDead
  infer_instance

/-- The step ends a generation only where it may, and brings no dead conversation a trade. -/
def leavesNoneDead (s : SignalState) : SignalStep → Prop
  | .message env event => DeletionEnds event s.db ∧ SkipsEnd env event s.db s.keys
  | .expire now => ExpiryEnds now s.db
  | .outside _ _ _ _ trades => ∀ id row, s.db.conversations.get? id = some row → row.state = .active → s.db.IsDead id →
      isLive trades row.legacyThreadId = false
  | .failure _ _ _ => True
  | .intentStates _ => True

instance (env : SignalEnv) (event : MessageEvent) (db : Database) (keys : SemanticKeys) : Decidable (SkipsEnd env event db keys) := by
  delta SkipsEnd
  infer_instance

instance (event : MessageEvent) (db : Database) : Decidable (DeletionEnds event db) := by
  delta DeletionEnds
  infer_instance

instance (now : Time) (db : Database) : Decidable (ExpiryEnds now db) := by
  delta ExpiryEnds
  infer_instance

instance (s : SignalState) (a : SignalStep) : Decidable (leavesNoneDead s a) :=
  match a with
  | .message env event => inferInstanceAs (Decidable (DeletionEnds event s.db ∧ SkipsEnd env event s.db s.keys))
  | .expire now => inferInstanceAs (Decidable (ExpiryEnds now s.db))
  | .outside _ _ _ _ trades => inferInstanceAs (Decidable (∀ id row, s.db.conversations.get? id = some row → row.state = .active →
      s.db.IsDead id → isLive trades row.legacyThreadId = false))
  | .failure _ _ _ => .isTrue trivial
  | .intentStates _ => .isTrue trivial

/-! ## Steps that end nothing else -/

/-- Every dead conversation that is still active is spent. -/
structure DeadAreSpent (db : Database) : Prop where
  conversation : ∀ id a, db.assemblies.get? id = some a → ∃ row, db.conversations.get? a.conversationId = some row
  spent : ∀ id row routeId, db.conversations.get? id = some row → row.state = .active → db.DeadOn id routeId →
    db.isSpent id row.legacyThreadId

/-- What every step does to the conversations and generations there were: no conversation
becomes active, and none loses an opening. -/
structure Ages (db db' : Database) : Prop where
  rows : ∀ id row, db.conversations.get? id = some row → ∃ row', db'.conversations.get? id = some row' ∧
    row'.legacyThreadId = row.legacyThreadId ∧ (row'.state = .active → row.state = .active)
  assemblies : ∀ id a, db.assemblies.get? id = some a → ∃ a', db'.assemblies.get? id = some a' ∧
    a'.conversationId = a.conversationId ∧ a'.routeId = a.routeId ∧ (a.openingIntentId.isSome → a'.openingIntentId.isSome)

section

variable {env : SignalEnv} {event : MessageEvent} {db db' : Database} {keys : SemanticKeys} {loop : RouteLoop} {plan : RoutePlan}
  {e : Uuid × CopyRoute} {sig : RouteSignal} {conversationId routeId : Uuid} {now : Time}

omit [Unicode] in
theorem openedOn_iff : db.openedOn conversationId routeId ↔ ∃ id a, db.assemblies.get? id = some a ∧
    a.conversationId = conversationId ∧ a.routeId = routeId ∧ a.openingIntentId.isSome := by
  simp only [Database.openedOn, List.any_eq_true, Bool.and_eq_true, decide_eq_true_eq, Table.get?_eq_some, Prod.exists, and_assoc]

omit [Unicode] in
/-- A conversation that has opened on the route is not dead there. -/
theorem not_deadOn_of_openedOn (h : db.openedOn conversationId routeId) : ¬ db.DeadOn conversationId routeId := by
  obtain ⟨id, a, ha, hc, hr, ho⟩ := openedOn_iff.mp h
  intro hdead
  rw [(hdead.ended _ (Table.get?_eq_some.mp ha) hc hr).2] at ho
  cases ho

omit [Unicode] in
theorem Database.DeadOn.congr (hd : db.DeadOn conversationId routeId) (h : db'.assemblies = db.assemblies) :
    db'.DeadOn conversationId routeId := by
  rwa [Database.deadOn_iff, h, ← Database.deadOn_iff]

omit [Unicode] in
theorem isDead_iff : db.IsDead conversationId ↔ ∃ routeId, db.DeadOn conversationId routeId := by
  constructor
  · rintro ⟨a, -, h⟩
    exact ⟨a.2.routeId, h⟩
  · rintro ⟨routeId, h⟩
    obtain ⟨a, ha, -, rfl⟩ := h.generation
    exact ⟨a, ha, h⟩

omit [Unicode] in
theorem Ages.openedOn (h : Ages db db') (ho : db.openedOn conversationId routeId) : db'.openedOn conversationId routeId := by
  obtain ⟨id, a, ha, rfl, rfl, hsome⟩ := openedOn_iff.mp ho
  obtain ⟨a', ha', hc, hr, hkeep⟩ := h.assemblies id a ha
  exact openedOn_iff.mpr ⟨id, a', ha', hc, hr, hkeep hsome⟩

omit [Unicode] in
theorem Ages.isSpent {threadId : Uuid} (h : Ages db db') (hl : isLive db'.trades threadId = false)
    (hs : db.isSpent conversationId threadId) : db'.isSpent conversationId threadId := by
  rw [Database.isSpent, hl, Bool.not_false, Bool.and_true]
  refine openingSubmitted_mono (Bool.and_eq_true_iff.mp hs).1 fun id a ha => ?_
  obtain ⟨a', ha', hc, -, ho⟩ := h.assemblies id a ha
  exact ⟨a', ha', hc, ho⟩

omit [Unicode] in
/-- A step that ends what it may leaves the dead conversations spent. -/
theorem DeadAreSpent.of_ages (hs : DeadAreSpent db) (h : Ages db db') (htrades : db'.trades = db.trades)
    (hrow : ∀ id a, db'.assemblies.get? id = some a → ∃ row, db'.conversations.get? a.conversationId = some row)
    (hends : ∀ id row routeId, db'.conversations.get? id = some row → db'.DeadOn id routeId →
      db.DeadOn id routeId ∨ db.mayEnd id row routeId) : DeadAreSpent db' where
  conversation := hrow
  spent := by
    intro id row routeId hget hactive hdead
    have hkeep (hspent : db.isSpent id row.legacyThreadId) : db'.isSpent id row.legacyThreadId := by
      refine h.isSpent ?_ hspent
      rw [htrades]
      simpa using (Bool.and_eq_true_iff.mp hspent).2
    rcases hends id row routeId hget hdead with hold | hmay
    · obtain ⟨⟨i, a⟩, ha, hc, -⟩ := hold.generation
      obtain ⟨row₀, hrow₀⟩ := hs.conversation i a (Table.get?_eq_some.mpr ha)
      rw [show a.conversationId = id from hc] at hrow₀
      obtain ⟨row', hrow', hthread, hstate⟩ := h.rows id row₀ hrow₀
      cases hget.symm.trans hrow'
      refine hkeep ?_
      rw [hthread]
      exact hs.spent id row₀ routeId hrow₀ (hstate hactive) hold
    · simp only [Database.mayEnd, Bool.or_eq_true, decide_eq_true_eq] at hmay
      rcases hmay with (hopened | hended) | hspent
      · exact absurd hdead (not_deadOn_of_openedOn (h.openedOn hopened))
      · exact absurd hactive hended
      · exact hkeep hspent

omit [Unicode] in
/-- Generations that only move to other states. -/
theorem Ages.of_mapRows {f : Uuid → RouteSignalAssembly → RouteSignalAssembly} (ha : db'.assemblies = db.assemblies.mapRows f)
    (hf : ∀ id a, ∃ state, f id a = { a with state })
    (rows : ∀ id row, db.conversations.get? id = some row → ∃ row', db'.conversations.get? id = some row' ∧
      row'.legacyThreadId = row.legacyThreadId ∧ (row'.state = .active → row.state = .active)) : Ages db db' where
  rows := rows
  assemblies := by
    intro id a h
    obtain ⟨state, hstate⟩ := hf id a
    refine ⟨f id a, ?_, by rw [hstate], by rw [hstate], by rw [hstate]; exact fun ho => ho⟩
    rw [ha, Table.get?_mapRows, h]
    rfl

omit [Unicode] in
/-- They stay in their conversations. -/
theorem DeadAreSpent.conversation_of_mapRows {f : Uuid → RouteSignalAssembly → RouteSignalAssembly} (hs : DeadAreSpent db)
    (ha : db'.assemblies = db.assemblies.mapRows f) (hf : ∀ id a, ∃ state, f id a = { a with state }) (h : Ages db db') :
    ∀ id a, db'.assemblies.get? id = some a → ∃ row, db'.conversations.get? a.conversationId = some row := by
  intro id a hget
  rw [ha, Table.get?_mapRows] at hget
  obtain ⟨a₀, ha₀, rfl⟩ := Option.map_eq_some_iff.mp hget
  obtain ⟨row, hrow⟩ := hs.conversation id a₀ ha₀
  obtain ⟨row', hrow', -⟩ := h.rows _ _ hrow
  obtain ⟨state, hstate⟩ := hf id a₀
  rw [hstate]
  exact ⟨row', hrow'⟩

omit [Unicode] in
/-- A conversation is dead where it was, or where a generation has moved. -/
theorem deadOn_of_mapRows {f : Uuid → RouteSignalAssembly → RouteSignalAssembly} (ha : db'.assemblies = db.assemblies.mapRows f)
    (hf : ∀ id a, ∃ state, f id a = { a with state }) (h : db'.DeadOn conversationId routeId) :
    db.DeadOn conversationId routeId ∨
      ∃ id a, db.assemblies.get? id = some a ∧ f id a ≠ a ∧ a.conversationId = conversationId ∧ a.routeId = routeId := by
  by_cases hmoved : ∃ id a, db.assemblies.get? id = some a ∧ f id a ≠ a ∧ a.conversationId = conversationId ∧ a.routeId = routeId
  · exact .inr hmoved
  have hsame (id a) (hget : db.assemblies.get? id = some a) (hc : a.conversationId = conversationId) (hr : a.routeId = routeId) :
      f id a = a := by
    by_contra hne
    exact hmoved ⟨id, a, hget, hne, hc, hr⟩
  have hget (id a) (hold : db.assemblies.get? id = some a) : db'.assemblies.get? id = some (f id a) := by
    rw [ha, Table.get?_mapRows, hold]
    rfl
  refine .inl ⟨?_, fun a hmem hc hr => ?_⟩
  · obtain ⟨⟨id, a'⟩, hmem, hc, hr⟩ := h.generation
    have hnew := Table.get?_eq_some.mpr hmem
    rw [ha, Table.get?_mapRows] at hnew
    obtain ⟨a, hold, rfl⟩ := Option.map_eq_some_iff.mp hnew
    obtain ⟨state, hstate⟩ := hf id a
    rw [hstate] at hc hr
    exact ⟨(id, a), Table.get?_eq_some.mp hold, hc, hr⟩
  · have hold := Table.get?_eq_some.mpr hmem
    have hended := h.ended _ (Table.get?_eq_some.mp (hget _ _ hold))
    rw [hsame _ _ hold hc hr] at hended
    exact hended hc hr

omit [Unicode] in
theorem expireGeneration_eq (now : Time) (a : RouteSignalAssembly) : ∃ state, expireGeneration now a = { a with state } := by
  unfold expireGeneration
  split <;> exact ⟨_, rfl⟩

omit [Unicode] in
theorem deleteGeneration_eq (event : MessageEvent) (db : Database) (a : RouteSignalAssembly) :
    ∃ state, deleteGeneration event db a = { a with state } := by
  unfold deleteGeneration
  split <;> exact ⟨_, rfl⟩

omit [Unicode] in
/-- A deletion that ends what it may. -/
theorem DeadAreSpent.handleDeletedMessage (hs : DeadAreSpent db) (he : event.eventType = .deleted) (hok : DeletionEnds event db) :
    DeadAreSpent (handleDeletedMessage event db) := by
  have hf (_ : Uuid) := deleteGeneration_eq event db
  have hages : Ages db (SignalSync.handleDeletedMessage event db) := .of_mapRows rfl hf fun id row h => ⟨row, h, rfl, fun ha => ha⟩
  refine hs.of_ages hages rfl (hs.conversation_of_mapRows rfl hf hages) fun id row routeId hrow hdead => ?_
  refine (deadOn_of_mapRows rfl hf hdead).imp_right ?_
  rintro ⟨i, a, ha, hmoved, rfl, rfl⟩
  exact hok he i a ha hmoved row hrow

omit [Unicode] in
/-- A conversation has a generation in progress after the sweep iff it goes on. -/
theorem any_isActive_expireGeneration (db : Database) (now : Time) (conversationId : Uuid) :
    ((db.assemblies.mapRows fun _ => expireGeneration now).entries.any fun e =>
      e.2.conversationId = conversationId && e.2.state.isActive) = db.goesOn now conversationId := by
  rw [Database.goesOn, show (db.assemblies.mapRows fun _ => expireGeneration now).entries =
    db.assemblies.entries.map fun e => (e.1, expireGeneration now e.2) from rfl, List.any_map]
  congr 1
  funext e
  simp only [Function.comp_apply, expireGeneration]
  split
  · rename_i h
    simp [h, RouteAssemblyState.isActive]
  · rename_i h
    simp [h]

omit [Unicode] in
/-- An expiry that ends what it may. -/
theorem DeadAreSpent.expireSignalThreads (hs : DeadAreSpent db) (hok : ExpiryEnds now db) :
    DeadAreSpent (expireSignalThreads now db) := by
  have hf (_ : Uuid) := expireGeneration_eq now
  have hages : Ages db (SignalSync.expireSignalThreads now db) := by
    refine .of_mapRows rfl hf fun id row h => ⟨_, (Table.get?_mapRows _).trans (congrArg (Option.map _) h), ?_⟩
    split
    · exact ⟨rfl, nofun⟩
    · exact ⟨rfl, fun ha => ha⟩
  refine hs.of_ages hages rfl (hs.conversation_of_mapRows rfl hf hages) fun id row routeId hrow hdead => ?_
  refine (deadOn_of_mapRows rfl hf hdead).imp_right ?_
  rintro ⟨i, a, ha, hmoved, rfl, rfl⟩
  have hoverdue : a.isOverdue now := by
    by_contra h
    exact hmoved (if_neg h)
  obtain ⟨row₀, hrow₀, rfl⟩ := Option.map_eq_some_iff.mp ((Table.get?_mapRows _).symm.trans hrow)
  split
  · -- no other generation is in progress: the conversation expires too
    simp [Database.mayEnd]
  · rename_i hgoes
    refine hok i a ha hoverdue ?_ row₀ hrow₀
    rw [any_isActive_expireGeneration, Bool.and_eq_true, not_and, Bool.not_eq_true, Bool.not_eq_false'] at hgoes
    exact hgoes (List.any_eq_true.mpr ⟨_, Table.get?_eq_some.mp ha, by simp [hoverdue]⟩)

/-! ## Messages -/

/-- A signal that is acted upon keeps its generation in progress. -/
theorem planSignal_isActive {conversation : SignalConversation} {route : CopyRoute} {view : RouteView} {alive : SemanticKey → Bool}
    (ha : sig.assembly.state.isActive) (hs : sig.isSkipped env conversation routeId route view alive = false) :
    (planSignal env event conversationId conversation routeId route view alive sig).assembly.state.isActive := by
  unfold RouteSignal.isSkipped at hs
  unfold planSignal
  cases hv : routeVerdict env conversation routeId route view sig with
  | refused => exact ha
  | limited =>
    rw [hv] at hs
    cases hs
  | proceed targets =>
    simp only [hv, Bool.or_eq_false_iff] at hs
    simp only [hs.1, hs.2, Bool.false_eq_true, if_false, RouteSignal.plan]
    split
    · unfold markSubmitted
      split
      · exact ha
      · rfl
    · exact ha

/-- A plan whose generation has ended skips the signal. -/
theorem isSkipped_of_planFor (h : loop.planFor env event e keys = .ok plan) (hended : plan.assembly.state.isActive = false) :
    ∃ s, loop.signal env event e = .ok s ∧ s.isSkipped env loop.conversation e.1 e.2 (loop.view env e) (keys.alive env.now) := by
  obtain ⟨s, hs, rfl⟩ := planRoute_eq_ok h
  obtain ⟨current, hc, hm, -⟩ := routeSignal_eq_ok hs
  have hactive := currentAssembly_isActive env loop.conversationId loop.conversation e.1 e.2 (loop.view env e)
  rw [show currentAssembly env loop.conversationId loop.conversation e.1 e.2 (loop.view env e) = _ from hc] at hactive
  refine ⟨s, hs, ?_⟩
  by_contra hskip
  rw [planSignal_isActive (by rw [hm]; exact hactive) (Bool.not_eq_true _ ▸ hskip)] at hended
  cases hended

/-- A plan goes on with a generation of its conversation and route, and keeps its opening. -/
theorem planFor_keeps (h : loop.planFor env event e keys = .ok plan) {a : RouteSignalAssembly}
    (ha : loop.db.assemblies.get? plan.assemblyId = some a) :
    a.conversationId = loop.conversationId ∧ a.routeId = e.1 ∧ (a.openingIntentId.isSome → plan.assembly.openingIntentId.isSome) := by
  obtain ⟨-, hconv, hroute⟩ := planRoute_current h ha
  refine ⟨hconv, hroute, fun ho => ?_⟩
  obtain ⟨s, hs, rfl⟩ := planRoute_eq_ok h
  obtain ⟨current, hc, hm, -, -, hfree⟩ := routeSignal_eq_ok hs
  obtain ⟨-, -, hnew⟩ := currentAssembly_routeView hc
  rw [(planSignal_rows ..).1] at ha
  split at hnew
  · rename_i hn
    have hfree := hfree hn
    simp [RouteLoop.view, Database.routeView, ← hnew.1, ha] at hfree
  · cases ha.symm.trans hnew.1
    exact planSignal_opened (.inl (by rw [hm]; exact ho))

/-- The generations of a run are those there were, but for the ones its routes go on with. -/
theorem LoopEnds.assembly (h : LoopEnds env event keys db loop db') (id : Uuid) :
    db'.assemblies.get? id = db.assemblies.get? id ∨
      ∃ e ∈ loop.routes, ∃ plan, (loop.view env e).isPaused = false ∧ loop.planFor env event e keys = .ok plan ∧
        db'.assemblies.get? id = some plan.assembly ∧
        ∀ a, db.assemblies.get? id = some a → a.conversationId = loop.conversationId ∧ a.routeId = e.1 ∧
          (a.openingIntentId.isSome → plan.assembly.openingIntentId.isSome) := by
  refine (h.others id).imp_right ?_
  rintro ⟨e, he, plan, hn, hplan, rfl⟩
  obtain ⟨plan', hplan', hget, -⟩ := h.rows e he hn
  cases hplan.symm.trans hplan'
  exact ⟨e, he, plan, hn, hplan, hget, fun a ha => planFor_keeps hplan (h.assemblies ▸ ha)⟩

/-- A run that skips only where it may. -/
theorem DeadAreSpent.loopEnds (hs : DeadAreSpent db) (hok : SkipsEnd env event db keys) (hprepare : prepare env event db = .ok loop)
    (h : LoopEnds env event keys db loop db') : DeadAreSpent db' := by
  obtain ⟨source, -, hl⟩ := prepare_eq_ok hprepare
  obtain ⟨hown, hrows⟩ := openConversation_rows (startLoop_eq_ok hl).2.2.2.1
  rw [← h.conversations] at hown hrows
  have hages : Ages db db' := by
    refine ⟨fun id row hrow => ?_, fun id a ha => ?_⟩
    · obtain ⟨row', hrow', hthread, hstate⟩ := hrows id row hrow
      exact ⟨row', hrow', hthread, fun hactive => hstate ▸ hactive⟩
    · rcases h.assembly id with hsame | ⟨e, he, plan, hn, hplan, hget, hold⟩
      · exact ⟨a, hsame.trans ha, rfl, rfl, fun ho => ho⟩
      · obtain ⟨hc, hr, ho⟩ := hold a ha
        obtain ⟨-, -, hc', hr', -⟩ := planFor_assembly hplan
        exact ⟨_, hget, hc'.trans hc.symm, hr'.trans hr.symm, ho⟩
  refine hs.of_ages hages h.trades (fun id a ha => ?_) fun id row routeId hrow hdead => ?_
  · rcases h.assembly id with hsame | ⟨e, he, plan, hn, hplan, hget, -⟩
    · obtain ⟨row, hrow⟩ := hs.conversation id a (hsame ▸ ha)
      obtain ⟨row', hrow', -⟩ := hrows _ row hrow
      exact ⟨row', hrow'⟩
    · cases ha.symm.trans hget
      rw [(planFor_assembly hplan).2.2.1]
      exact ⟨_, hown⟩
  · by_cases hroute : id = loop.conversationId ∧ ∃ e ∈ loop.routes, (loop.view env e).isPaused = false ∧ e.1 = routeId
    · -- a route of the run: its generation has ended, so the signal was skipped
      obtain ⟨rfl, e, he, hn, rfl⟩ := hroute
      obtain ⟨plan, hplan, hget, -⟩ := h.rows e he hn
      obtain ⟨-, -, hc, hr, -⟩ := planFor_assembly hplan
      have hended : plan.assembly.state.isActive = false := by
        rcases (hdead.ended _ (Table.get?_eq_some.mp hget) hc hr).1 with h | h <;> rw [h] <;> rfl
      obtain ⟨s, hsignal, hskip⟩ := isSkipped_of_planFor hplan hended
      cases hrow.symm.trans hown
      exact .inr (hok loop hprepare e he hn s hsignal hskip)
    · -- another route: its generations are those there were
      have hsame {i : Uuid} {a : RouteSignalAssembly} (hc : a.conversationId = id) (hr : a.routeId = routeId)
          (ha : db'.assemblies.get? i = some a ∨ db.assemblies.get? i = some a) :
          db'.assemblies.get? i = db.assemblies.get? i := by
        rcases h.assembly i with hsame | ⟨e, he, plan, hn, hplan, hget, hold⟩
        · exact hsame
        · refine absurd ?_ hroute
          rcases ha with ha | ha
          · cases ha.symm.trans hget
            obtain ⟨-, -, hc', hr', -⟩ := planFor_assembly hplan
            exact ⟨hc.symm.trans hc', e, he, hn, hr'.symm.trans hr⟩
          · obtain ⟨hc', hr', -⟩ := hold a ha
            exact ⟨hc.symm.trans hc', e, he, hn, hr'.symm.trans hr⟩
      refine .inl ⟨?_, fun a ha hc hr => ?_⟩
      · obtain ⟨a, ha, hc, hr⟩ := hdead.generation
        have ha := Table.get?_eq_some.mpr ha
        exact ⟨a, Table.get?_eq_some.mp ((hsame hc hr (.inl ha)).symm.trans ha), hc, hr⟩
      · have ha := Table.get?_eq_some.mpr ha
        exact hdead.ended a (Table.get?_eq_some.mp ((hsame hc hr (.inr ha)).trans ha)) hc hr

theorem DeadAreSpent.signalHandler {r : DeliveryResult} (hs : DeadAreSpent db) (hdeletion : DeletionEnds event db)
    (hok : SkipsEnd env event db keys) (h : (signalHandler env event db keys).result = .ok (r, db')) : DeadAreSpent db' := by
  rcases signalHandler_eq_ok h with ⟨-, rfl⟩ | ⟨loop, effects, hprepare, hrun⟩
  · split
    · rename_i he
      exact hs.handleDeletedMessage he hdeletion
    · exact hs
  · exact hs.loopEnds hok hprepare (SignalSync.loopEnds hprepare hrun)

end

/-! ## Histories -/

/-- A step that leaves no conversation dead leaves those that are spent. -/
theorem deadAreSpent_of_step {s s' : SignalState} {a : SignalStep} (hs : DeadAreSpent s.db) (hok : leavesNoneDead s a)
    (h : signalStep s a = some s') : DeadAreSpent s'.db := by
  cases a with
  | message env event =>
    cases h
    simp only
    split
    · rename_i hres
      exact hs.signalHandler hok.1 hok.2 hres
    · exact hs
  | failure env event n => cases h; exact hs
  | expire now =>
    cases h
    exact hs.expireSignalThreads hok
  | outside sources userSettings routes policies trades =>
    cases h
    refine ⟨hs.conversation, fun id row routeId hrow hactive hdead => ?_⟩
    replace hdead : s.db.DeadOn id routeId := hdead.congr rfl
    have hspent := hs.spent id row routeId hrow hactive hdead
    rw [Database.isSpent, hok id row hrow hactive (isDead_iff.mpr ⟨routeId, hdead⟩), Bool.not_false, Bool.and_true]
    exact (Bool.and_eq_true_iff.mp hspent).1
  | intentStates state =>
    cases h
    exact ⟨hs.conversation, fun id row routeId hrow hactive hdead => hs.spent id row routeId hrow hactive (hdead.congr rfl)⟩

omit [Unicode] in
/-- No rule of a management message looks at a conversation that has opened and has no live trade. -/
theorem ConversationQuery.not_eligible_of_spent {q : ConversationQuery} {item : ConversationCandidate}
    (ha : q.isAction SignalAction.isManagement) (hs : item.openingSubmitted) (hl : item.hasActiveTrade = false) : item ∉ q.eligible := by
  unfold eligible
  split
  · simp [hs, hl]
  · simp [hl]

/-- **Dead conversations capture nothing.** In every history whose steps end generations
only where they may, no conversation that is dead on a route is selected for a management
message while a rival of it is live. -/
theorem neverCaptured {s₀ s : SignalState} (h₀ : s₀.db.assemblies = ∅) (h : Reach signalStep leavesNoneDead s₀ s) {parsed : AiAction}
    (ha : parsed.action.isManagement) (event : MessageEvent) (routes : List (Uuid × CopyRoute)) :
    NeverCaptured s.db event routes parsed := by
  have hstart : DeadAreSpent s₀.db :=
    ⟨fun id a ha => by simp [h₀] at ha, fun id row routeId _ _ hdead => by
      obtain ⟨a, ha, -⟩ := hdead.generation
      rw [h₀] at ha
      cases ha⟩
  have hspent := h.invariant (P := fun s => DeadAreSpent s.db) hstart fun _ _ _ hs hok hstep => deadAreSpent_of_step hs hok hstep
  rintro item ⟨hmem, ⟨routeId, hdead⟩, -⟩ hselected
  obtain ⟨⟨id, row⟩, hrow, rfl⟩ := List.mem_map.mp hmem
  obtain ⟨hrow, hactive⟩ := Table.mem_select.mp hrow
  simp only [Bool.and_eq_true, decide_eq_true_eq] at hactive
  obtain ⟨hsubmitted, hlive⟩ := Bool.and_eq_true_iff.mp (hspent.spent id row routeId hrow hactive.2 hdead)
  refine ConversationQuery.not_eligible_of_spent (q := s.db.query event routes parsed) ha ?_ ?_ (ConversationQuery.mem_eligible_of_selected hselected)
  · simp [Database.candidate, hactive.2, hsubmitted]
  · simp only [isLive, Bool.not_eq_true', List.any_eq_false] at hlive
    refine List.any_eq_false.mpr fun t ht hactive => hlive t ht ?_
    simp only [Bool.and_eq_true] at hactive ⊢
    exact ⟨hactive.1.1, hactive.2⟩

/-! ## A second route -/

/-- A route that opens without a stop and a target. -/
def looseRoute : CopyRoute := { goldRoute with targetConnectionId := some 9, minimumFields := .direction_symbol }

def looseDatabase : Database :=
  { goldDatabase with
    routes := .add goldDatabase.routes 8 looseRoute
    policies := .add goldDatabase.policies 9 {} }

/-- `SL 2395`, with no reply. -/
def goldStop : MessageEvent :=
  { goldMessage with messageId := 13, correlationId := 17, text := "SL 2395", occurredAt := seconds 120 }

/-- The signal is opened on both routes. `BUY XAUUSD now` opens on one, and expires on the other. -/
def looseHistory : List SignalStep :=
  [ .message (goldEnv 0 (seconds 101) buyGold) goldMessage,
    .outside looseDatabase.sources ∅ looseDatabase.routes looseDatabase.policies (.add ∅ (.intent 0 4 0 0) goldTrade),
    .message (goldEnv 1 (seconds 111) buyNow)
      { goldMessage with messageId := 12, correlationId := 16, text := "BUY XAUUSD now", occurredAt := seconds 110 },
    .expire (seconds 300) ]

omit [Unicode] in
/-- `neverCaptured`, with a conversation that is dead on the first route. -/
theorem neverCaptured_looseHistory :
    let _ := Unicode.ascii
    let routes := looseDatabase.routes.entries
    ∃ s, Reach signalStep leavesNoneDead { db := looseDatabase } s ∧
      (∃ item, Outlived s.db (s.db.query goldStop routes moveStop) item) ∧ NeverCaptured s.db goldStop routes moveStop := by
  intro _ routes
  have hrun : (runIf signalStep leavesNoneDead { db := looseDatabase } looseHistory).any (fun s =>
      let q := s.db.query goldStop routes moveStop
      q.candidates.any fun item => decide (s.db.DeadOn item.id 4) && q.candidates.any fun rival => rival.Rivals item) = true := by
    decide +kernel
  obtain ⟨s, hs, hany⟩ := (Option.any_eq_true _ _).mp hrun
  obtain ⟨item, hm, hitem⟩ := List.any_eq_true.mp hany
  simp only [Bool.and_eq_true, decide_eq_true_eq, List.any_eq_true] at hitem
  obtain ⟨hdead, rival, hr, hrival⟩ := hitem
  exact ⟨s, .of_runIf hs, ⟨item, hm, ⟨4, hdead⟩, rival, hr, hrival⟩, neverCaptured rfl (.of_runIf hs) rfl goldStop routes⟩

/-! ## A repeated signal -/

/-- The signal is opened, and comes a second time, which is a duplicate. -/
def goldRepeated : List SignalStep :=
  [ .message (goldEnv 0 (seconds 101) buyGold) goldMessage,
    .outside goldDatabase.sources ∅ goldDatabase.routes goldDatabase.policies (.add ∅ (.intent 0 4 0 0) goldTrade),
    .message (goldEnv 1 (seconds 111) buyGold) { goldMessage with messageId := 12, correlationId := 16, occurredAt := seconds 110 } ]

omit [Unicode] in
/-- The new stop is taken into the conversation of the duplicate, while the one with
the open trade is among the candidates. -/
theorem duplicate_captures_stop :
    let _ := Unicode.ascii
    ∃ s, Reach signalStep always { db := goldDatabase } s ∧ ¬ NeverCaptured s.db goldStop [(4, goldRoute)] moveStop := by
  intro _
  have hrun : (run signalStep { db := goldDatabase } goldRepeated).map (fun s =>
      let q := s.db.query goldStop [(4, goldRoute)] moveStop
      q.candidates.any fun item => decide (s.db.DeadOn item.id 4) && q.candidates.any (fun rival => rival.Rivals item) &&
        (chooseConversation q).selected = some item) = some true := by decide +kernel
  obtain ⟨s, hs, hany⟩ := Option.map_eq_some_iff.mp hrun
  obtain ⟨item, hm, hitem⟩ := List.any_eq_true.mp hany
  simp only [Bool.and_eq_true, decide_eq_true_eq, List.any_eq_true] at hitem
  obtain ⟨⟨hdead, rival, hr, hrival⟩, hsel⟩ := hitem
  exact ⟨s, .of_run hs, fun h => h item ⟨hm, ⟨4, hdead⟩, rival, hr, hrival⟩ hsel⟩

end SignalSync
