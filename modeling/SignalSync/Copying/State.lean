import SignalSync.Execution.World
import SignalSync.Signal.Loop

/-!
# Copying

The signal and the execution workers over one database: a message is handled in
one step, which adds its intents and publishes them, and between messages the
execution world goes on (`CopyState.step`). Ghost state remembers the closes that
have been handled.

* `CopyState.step_cases`: what a step can do;
* `Received.delivered`, `Received.inPhase`: a message leaves the runs where they are.
-/

namespace SignalSync

open Library

/-- A `full_close` or `cancel_pending` message that has been handled. -/
structure Close where
  conversationId : Uuid
  routeId : Uuid
  messageId : Int
deriving DecidableEq

structure CopyState where
  world : World
  keys : SemanticKeys := []
  closes : List Close := []

inductive CopyLabel
  /-- The signal handler runs on a message, to its end. -/
  | message (env : SignalEnv) (event : MessageEvent)
  /-- It fails after its first `n` effects. -/
  | messageFails (env : SignalEnv) (event : MessageEvent) (n : Nat)
  /-- `expire_signal_threads`. -/
  | expire
  | execution (a : WorldLabel)
  /-- The user and the connection workers change what the handlers read. -/
  | outside (db : Database)

/-- A step of the execution side alone. -/
def WorldLabel.isExecution : WorldLabel → Bool
  | .publishIntent .. | .commitIntent _ | .rollbackIntent _ | .outside _ => false
  | _ => true

def RedisEffect.published : RedisEffect → Option ExecutionEvent
  | .publishExecute intentId key => some ⟨.intent key, .execute intentId⟩
  | .setSemantic _ _ => none

def World.publishAll (w : World) (events : List ExecutionEvent) : World :=
  { w with stream := { w.stream with entries := w.stream.entries ++ events.map fun event => { event } } }

namespace CopyState

/-- Before the first message. -/
def initial (db : Database) : CopyState := { world := .initial { db with assemblies := ∅ } }

def db (s : CopyState) : Database := s.world.db

/-- After the effects of a run, and its database. -/
def receive (s : CopyState) (effects : List RedisEffect) (db : Database) (closes : List Close) : CopyState where
  world := { s.world with db }.publishAll (effects.filterMap RedisEffect.published)
  keys := s.keys.applyAll effects
  closes := s.closes ++ closes

section

variable [Unicode] (settings : ExecutionSettings)

/-- The closes a message is, one for each route that is not paused. -/
def closesOf (env : SignalEnv) (event : MessageEvent) (db : Database) : List Close :=
  match prepare env event db with
  | .error _ => []
  | .ok loop =>
    if loop.parsed.action = .full_close ∨ loop.parsed.action = .cancel_pending then
      (loop.routes.filter fun e => !(loop.db.routeView env.run loop.conversationId e.1 e.2).isPaused).map fun e =>
        ⟨loop.conversationId, e.1, event.messageId⟩
    else []

def step (s : CopyState) : CopyLabel → Option CopyState
  | .message env event =>
    if env.now = s.world.stream.now then
      let run := signalHandler env event s.db s.keys
      match run.result with
      | .ok (_, db) => some (s.receive run.effects db (closesOf env event s.db))
      | .error _ => some (s.receive run.effects s.db [])
    else none
  | .messageFails env event n =>
    if env.now = s.world.stream.now then
      some (s.receive ((signalHandler env event s.db s.keys).effects.take n) s.db [])
    else none
  | .expire => some { s with world := { s.world with db := expireSignalThreads s.world.stream.now s.db } }
  | .execution a => if a.isExecution then (s.world.step settings a).map fun world => { s with world } else none
  | .outside db =>
    some
      { s with
        world :=
          { s.world with
            db :=
              { s.db with
                sources := db.sources, userSettings := db.userSettings, connections := db.connections
                routes := db.routes, policies := db.policies, symbolMappings := db.symbolMappings } } }

/-! ## What a step can do -/

/-- What a run of the signal handler leaves behind. -/
structure Received (s : CopyState) (db : Database) (closes : List Close) (t : CopyState) : Prop where
  db : t.db = db
  calls : t.world.calls = s.world.calls
  closes : t.closes = s.closes ++ closes
  stream : ∃ entries, t.world.stream = { s.world.stream with entries := s.world.stream.entries ++ entries }

inductive Step (s : CopyState) : CopyLabel → CopyState → Prop
  | message {env : SignalEnv} {event : MessageEvent} {r : DeliveryResult} {db : Database} {t : CopyState}
      (hr : (signalHandler env event s.db s.keys).result = .ok (r, db))
      (ht : Received s db (closesOf env event s.db) t) : Step s (.message env event) t
  /-- The run is rolled back. -/
  | fails {a : CopyLabel} {t : CopyState} (ht : Received s s.db [] t) : Step s a t
  | expire : Step s .expire { s with world := { s.world with db := expireSignalThreads s.world.stream.now s.db } }
  | execution {a : WorldLabel} {w : World} (ha : a.isExecution) (hw : s.world.step settings a = some w) :
      Step s (.execution a) { s with world := w }
  | outside {db db' : Database} (hi : db.intents = s.db.intents) (ha : db.assemblies = s.db.assemblies)
      (hp : db.parsedActions = s.db.parsedActions) : Step s (.outside db') { s with world := { s.world with db } }

variable {settings} {s t : CopyState} {a : CopyLabel}

omit [Unicode] in
theorem received_receive (s : CopyState) (effects : List RedisEffect) (db : Database) (closes : List Close) :
    Received s db closes (s.receive effects db closes) := ⟨rfl, rfl, rfl, _, rfl⟩

theorem step_cases (h : s.step settings a = some t) : Step settings s a t := by
  cases a with
  | message env event =>
    simp only [step] at h
    split at h
    · split at h
      · rename_i hr
        cases h
        exact .message hr (received_receive ..)
      · cases h
        exact .fails (received_receive ..)
    · cases h
  | messageFails env event n =>
    simp only [step] at h
    split at h
    · cases h
      exact .fails (received_receive ..)
    · cases h
  | expire => cases h; exact .expire
  | execution a =>
    simp only [step] at h
    split at h
    · rename_i ha
      obtain ⟨w, hw, rfl⟩ := Option.map_eq_some_iff.mp h
      exact .execution ha hw
    · cases h
  | outside db => cases h; exact .outside rfl rfl rfl

/-! ## Runs of the execution handler -/

variable {db : Database} {closes : List Close}

omit [Unicode] in
theorem Received.delivered (h : Received s db closes t) (hv : s.world.stream.Valid) {d : Nat} {x : Delivery ExecutionPhase}
    {e : StreamEntry ExecutionEvent} : t.world.stream.delivered d = some (x, e) ↔ s.world.stream.delivered d = some (x, e) := by
  obtain ⟨entries, hs⟩ := h.stream
  rw [hs, StreamState.delivered_eq_some, StreamState.delivered_eq_some]
  refine and_congr_right fun hx => ?_
  rw [List.getElem?_append_left (hv x (List.mem_of_getElem? hx))]

omit [Unicode] in
theorem Received.valid (h : Received s db closes t) (hv : s.world.stream.Valid) : t.world.stream.Valid := by
  obtain ⟨entries, hs⟩ := h.stream
  rw [hs]
  intro x hx
  have := hv x hx
  rw [List.length_append]
  omega

omit [Unicode] in
theorem Received.inPhase (h : Received s db closes t) (hv : s.world.stream.Valid) {d : Nat} {event : ExecutionEvent}
    {phase : ExecutionPhase} : t.world.InPhase d event phase ↔ s.world.InPhase d event phase := by
  simp only [World.InPhase, h.delivered hv]

theorem valid_of_step (h : Step settings s a t) (hv : s.world.stream.Valid) : t.world.stream.Valid := by
  cases h with
  | message _ ht | fails ht => exact ht.valid hv
  | execution _ hw => exact World.valid_of_step (World.step_cases hw) hv
  | expire | outside => exact hv

end

/-! ## A message that opens -/

/-- `goldMessage`, as it is read, is handled at 101 s. -/
def goldReceived (parsed : AiAction) : List CopyLabel :=
  [.execution (.stream (.tick (seconds 101))), .message (goldEnv 0 (seconds 101) parsed) goldMessage]

/-- The next event is delivered as delivery `d`, executed and acknowledged. -/
def goldExecuted (d : Nat) : List CopyLabel :=
  ([.stream .read, .stream (.start d), .handler d (.load true)] ++
    World.goldSubmitted d (seconds 101) (.ok { positionId := some "1" }) ++ World.goldSettled d : List WorldLabel).map .execution

end CopyState

end SignalSync
