import SignalSync.Library.Json
import SignalSync.Stream.Worker
import Mathlib.Data.List.Perm.Basic
import Mathlib.Logic.Function.Basic

/-!
# The worker runtime

The `StreamWorker`s of one consumer group. Each has a main loop, which claims
stale messages and processes them itself, then reads new ones and submits them to
its `KeyedSerialExecutor`; the executor's threads process these, one at a time for
each ordering key. `_process_message` is cut where other threads can come between.

A publication may trim the stream. Redis answers every command; the maintenance and
the end of a process are left out, as is the executor's limit of eight threads.

* `Step`, `step_cases`: what a step can do, guards included;
* `Processed`: what `_process_message` can do from one stage to the next;
* `Moved`: what a step does to the messages the workers hold.
-/

namespace SignalSync

open Library

/-! ## Events -/

inductive StreamName
  | metaapi_provisioning
  | telegram_commands
  | telegram_messages
  | signal_actions
  | execution_intents
  | outcomes
  | dead_letters

namespace StreamName

def value : StreamName → String
  | metaapi_provisioning => "copy:metaapi:provisioning"
  | telegram_commands => "copy:telegram:commands"
  | telegram_messages => "copy:telegram:messages"
  | signal_actions => "copy:signal:actions"
  | execution_intents => "copy:execution:intents"
  | outcomes => "copy:outcomes"
  | dead_letters => "copy:dead-letters"

/-- `StreamName(value)`. -/
def ofValue? (value : String) : Option StreamName :=
  [metaapi_provisioning, telegram_commands, telegram_messages, signal_actions, execution_intents, outcomes,
    dead_letters].find? (·.value = value)

end StreamName

/-- The fields of an entry, a dictionary of texts. -/
abbrev Fields := List (String × String)

structure CopyEvent where
  eventId : String
  stream : StreamName
  eventType : String
  correlationId : String
  idempotencyKey : String
  occurredAt : String
  payload : Json

/-- What the worker runtime calls: `json.loads`, `uuid.UUID`, and the database,
which answers at each time as it then stands. -/
class Runtime extends Python where
  loads : String → Option Json
  uuid : Json → Option String
  /-- `user_id` of a `TelegramSource` row. -/
  sourceOwner : Time → String → Option String
  /-- `user_id` of a `TradeIntent` row. -/
  intentOwner : Time → String → Option String
  /-- Whether the commit of a `CopyDeadLetter` row goes through. -/
  accepts : Time → Option String → CopyEvent → Bool

section

variable [Runtime]

/-- `CopyEvent.from_fields`; `none` where it raises. -/
def CopyEvent.fromFields (fields : Fields) : Option CopyEvent := do
  let eventId ← fields.lookup "event_id"
  let stream ← (fields.lookup "stream").bind StreamName.ofValue?
  let eventType ← fields.lookup "event_type"
  let correlationId ← fields.lookup "correlation_id"
  let idempotencyKey ← fields.lookup "idempotency_key"
  let occurredAt ← fields.lookup "occurred_at"
  let payload ← (fields.lookup "payload").bind Runtime.loads
  some { eventId, stream, eventType, correlationId, idempotencyKey, occurredAt, payload }

/-- `_ordering_key`; `none` where it raises, `some none` for an `invalid:` key, which
no other message has. -/
def orderingKey (fields : Fields) : Option (Option String) :=
  match CopyEvent.fromFields fields with
  | none => some none
  | some event =>
    match event.payload with
    | .object fields =>
      let payload := Json.object fields
      some (some ((payload.get "source_id").orElse <| (payload.get "account_id").orElse <|
        (payload.get "connection_id").orElse <| (payload.get "intent_id").orElse <|
        .string event.idempotencyKey).text)
    | _ => none

/-- One row through which `_persist_dead_letter` looks for the user, who may be
known; `none` where `uuid.UUID` raises. -/
def ownerThrough (owner : String → Option String) (key : String) (payload userId : Json) : Option Json :=
  if !userId.truthy && (payload.get key).truthy then
    (Runtime.uuid (payload.get key)).map fun id => ((owner id).map .string).getD .null
  else some userId

/-- `_persist_dead_letter`: the `user_id` of the row it writes; `none` where it raises. -/
def persistDeadLetter (now : Time) (event : CopyEvent) : Option (Option String) :=
  match event.payload with
  | .object fields => do
    let payload := Json.object fields
    let userId ← ownerThrough (Runtime.sourceOwner now) "source_id" payload (payload.get "user_id")
    let userId ← ownerThrough (Runtime.intentOwner now) "intent_id" payload userId
    let userId ← if userId.truthy then (Runtime.uuid userId).map some else some none
    if Runtime.accepts now userId event then some userId else none
  | _ => none

end

/-! ## The group -/

/-- A `CopyDeadLetter` row. -/
structure DeadLetter where
  userId : Option String
  /-- The entry, `source_message_id`. -/
  entry : Nat
  event : CopyEvent
  attempts : Nat
  errorCode : String

/-- `RedisStreamBus.max_stream_length`. -/
def maxStreamLength : Nat := 10000

/-- The consumer group in Redis, and the database. -/
structure StreamGroup where
  /-- `StreamWorker.max_attempts`. -/
  maxAttempts : Nat := 2
  /-- `StreamWorker.retry_idle_ms`. -/
  retryIdle : Time := seconds 5
  now : Time := 0
  /-- Every entry published so far. One that left the pending entries unacknowledged is `new` again. -/
  entries : List (StreamEntry Fields) := []
  /-- The stream's first entry; those before it are trimmed. -/
  first : Nat := 0
  /-- The `copy:processed` keys; the value set is the event's id. -/
  processed : List (ProcessedKey String String) := []
  deadLetters : List DeadLetter := []
  /-- The handler's completed runs, by entry, and what each came to. -/
  runs : List (Nat × DeliveryResult) := []

/-- Where `_process_message` stands. -/
inductive Stage
  | start
  | handling
  | result (result : DeliveryResult)
  | acknowledge
deriving DecidableEq

/-- How a stage ends. -/
inductive Outcome
  | goes (stage : Stage)
  | returns
  | raises
deriving DecidableEq

/-- Delivered once more. -/
def EntryStatus.delivered (now : Time) : EntryStatus → EntryStatus
  | .pending n _ => .pending (n + 1) now
  | .new | .acked => .pending 1 now

/-- A message after a stage of it. -/
def Outcome.next (i : Nat) : Outcome → List (Nat × Stage)
  | .goes stage => [(i, stage)]
  | .returns | .raises => []

namespace StreamGroup

/-- The group's `XACK`. -/
def ack (g : StreamGroup) (i : Nat) : StreamGroup :=
  { g with entries := g.entries.modify i fun e => { e with status := .acked } }

/-- The entries of `batch` go to a consumer, and those of `gone` leave the pending entries. -/
def deliver (g : StreamGroup) (batch : List Nat) (gone : List Nat := []) : StreamGroup :=
  { g with
    entries := g.entries.mapIdx fun i e =>
      if i ∈ batch then { e with status := e.status.delivered g.now } else if i ∈ gone then { e with status := .new } else e }

def fields? (g : StreamGroup) (i : Nat) : Option Fields := (g.entries[i]?).map (·.event)

def status? (g : StreamGroup) (i : Nat) : Option EntryStatus := (g.entries[i]?).map (·.status)

def isNew (g : StreamGroup) (i : Nat) : Bool := g.status? i = some .new

def isPending (g : StreamGroup) (i : Nat) : Bool :=
  match g.status? i with
  | some (.pending _ _) => true
  | _ => false

def isIdle (g : StreamGroup) (i : Nat) : Bool :=
  match g.status? i with
  | some (.pending _ deliveredAt) => deliveredAt + g.retryIdle ≤ g.now
  | _ => false

def isTrimmed (g : StreamGroup) (i : Nat) : Bool := i < g.first

/-- `XREADGROUP >` with a count of ten. -/
def unread (g : StreamGroup) : List Nat :=
  ((List.range g.entries.length).filter fun i => !g.isTrimmed i && g.isNew i).take 10

/-- `XAUTOCLAIM` from the start with a count of ten: it looks at the first hundred
pending entries, and stops with the tenth that is trimmed or idle. -/
def scanned (g : StreamGroup) : List Nat :=
  ((((List.range g.entries.length).filter g.isPending).take 100).filter fun i => g.isTrimmed i || g.isIdle i).take 10

def claimable (g : StreamGroup) : List Nat := g.scanned.filter (!g.isTrimmed ·)

/-- What it drops from the pending entries, as the stream has it no longer. -/
def gone (g : StreamGroup) : List Nat := g.scanned.filter g.isTrimmed

/-- `XADD MAXLEN ~`: it may trim the stream, to no less than the limit. -/
def mayTrim (g : StreamGroup) (trimmed : Nat) : Bool :=
  trimmed = 0 || g.first + trimmed + maxStreamLength ≤ g.entries.length + 1

/-- `_pending_attempts`. -/
def pendingAttempts (g : StreamGroup) (i : Nat) : Nat :=
  match g.status? i with
  | some (.pending n _) => n
  | _ => 1

/-- The result calls for a dead letter. -/
def isFinal (g : StreamGroup) (i : Nat) : DeliveryResult → Bool
  | .success => false
  | .retry _ => g.maxAttempts ≤ g.pendingAttempts i
  | .dead_letter _ => true

def isProcessed (g : StreamGroup) (key : String) : Bool := g.processed.any fun p => p.key = key && g.now < p.expires

/-- `result.error_code or "DELIVERY_FAILED"`. -/
def errorCode : DeliveryResult → String
  | .success => "DELIVERY_FAILED"
  | .retry code | .dead_letter code => if code = "" then "DELIVERY_FAILED" else code

variable [Runtime]

def event? (g : StreamGroup) (i : Nat) : Option CopyEvent := (g.fields? i).bind CopyEvent.fromFields

/-- The ordering key of an entry, if it has one that others can have. -/
def keyOf (g : StreamGroup) (i : Nat) : Option String := ((g.fields? i).bind orderingKey).join

/-- A stage of `_process_message`, with `result` what its handler comes to; one that
raises has a retry for a result, and `retry_exhausted_handler` changes nothing here. -/
def processMessage (g : StreamGroup) (i : Nat) (fields : Fields) (result : DeliveryResult) : Stage → StreamGroup × Outcome :=
  match CopyEvent.fromFields fields with
  | none => fun _ => (g, .raises)
  | some event => fun
    | .start => (g, .goes (if g.isProcessed event.idempotencyKey then .acknowledge else .handling))
    | .handling => ({ g with runs := g.runs ++ [(i, result)] }, .goes (.result result))
    | .result .success =>
      ({ g with
        processed := g.processed ++ [⟨event.idempotencyKey, event.eventId, g.now + seconds processedSeconds⟩] },
        .goes .acknowledge)
    | .result result =>
      if g.isFinal i result then
        match persistDeadLetter g.now event with
        | none => (g, .raises)
        | some userId =>
          ({ g with
            deadLetters := g.deadLetters ++ [⟨userId, i, event, g.pendingAttempts i, errorCode result⟩] },
            .goes .acknowledge)
      else (g, .returns)
    | .acknowledge => (g.ack i, .returns)

end StreamGroup

/-! ## The workers -/

/-- Where the main loop of a worker stands. -/
inductive Main
  /-- About to claim. -/
  | claim
  /-- Processing a stale message, with `rest` to follow. -/
  | process (entry : Nat) (stage : Stage) (rest : List Nat)
  /-- About to read. -/
  | read
  /-- Submitting a message, with `rest` to follow. -/
  | submit (entry : Nat) (rest : List Nat)
  /-- An exception has left the loop, and these messages with it. -/
  | stopped (left : List Nat)
deriving DecidableEq

namespace Main

def processing : List Nat → Main
  | [] => .read
  | i :: rest => .process i .start rest

def submitting : List Nat → Main
  | [] => .claim
  | i :: rest => .submit i rest

/-- The main loop after a stage of its message. -/
def after (entry : Nat) (rest : List Nat) : Outcome → Main
  | .goes stage => .process entry stage rest
  | .returns => processing rest
  | .raises => .stopped rest

def isStopped : Main → Bool
  | .stopped _ => true
  | _ => false

/-- The messages of the loop, and where it is with each. -/
def messages : Main → List (Nat × Stage)
  | .claim | .read => []
  | .process i stage rest => (i, stage) :: rest.map (·, .start)
  | .submit i rest => (i, .start) :: rest.map (·, .start)
  | .stopped left => left.map (·, .start)

variable {batch rest : List Nat} {i : Nat}

theorem messages_processing : (processing batch).messages = batch.map (·, .start) := by
  cases batch <;> rfl

theorem messages_submitting : (submitting batch).messages = batch.map (·, .start) := by
  cases batch <;> rfl

theorem messages_after (o : Outcome) : (after i rest o).messages = o.next i ++ rest.map (·, .start) := by
  cases o with
  | goes stage => rfl
  | returns => exact messages_processing
  | raises => rfl

theorem start_of_processing {stage : Stage} (h : processing batch = .process i stage rest) : stage = .start := by
  cases batch <;> cases h
  rfl

end Main

/-- A message in the executor. -/
structure Task where
  entry : Nat
  /-- Its ordering key, unless it is of its own. -/
  key : Option String
  stage : Stage := .start
deriving DecidableEq

/-- A `StreamWorker`. -/
structure Worker where
  main : Main := .claim
  /-- The `KeyedSerialExecutor`: all its queues, in the order of submission. -/
  executor : List Task := []

namespace Worker

/-- The task is at the head of its queue. -/
def isHead (v : Worker) (j : Nat) (task : Task) : Bool := task.key.isNone || (v.executor.take j).all (·.key ≠ task.key)

/-- The executor after a stage of its `j`-th task; an exception goes to a `Future`
nobody reads. -/
def afterTask (v : Worker) (j : Nat) (task : Task) : Outcome → Worker
  | .goes stage => { v with executor := v.executor.set j { task with stage } }
  | .returns | .raises => { v with executor := v.executor.eraseIdx j }

/-- All messages the worker holds. -/
def messages (v : Worker) : List (Nat × Stage) := v.main.messages ++ v.executor.map fun task => (task.entry, task.stage)

end Worker

structure GroupState extends StreamGroup where
  workers : Nat → Worker := fun _ => {}

inductive GroupLabel
  /-- `RedisStreamBus.publish`, which trims so many entries. -/
  | publish (fields : Fields) (trimmed : Nat := 0)
  /-- A step of a worker's main loop; a handler's run that ends comes to `result`. -/
  | main (worker : Nat) (result : DeliveryResult)
  /-- A step of the executor's `task`-th task. -/
  | task (worker task : Nat) (result : DeliveryResult)
  | tick (duration : Time)

namespace GroupState

variable [Runtime]

def setWorker (s : GroupState) (w : Nat) (v : Worker) : GroupState :=
  { s with workers := Function.update s.workers w v }

def setMain (s : GroupState) (w : Nat) (main : Main) : GroupState := s.setWorker w { s.workers w with main }

/-- One step of a worker's `run`. -/
def stepMain (s : GroupState) (w : Nat) (result : DeliveryResult) : Option GroupState :=
  match (s.workers w).main with
  | .claim => some { s.setMain w (.processing s.claimable) with toStreamGroup := s.deliver s.claimable s.gone }
  | .process i stage rest =>
    (s.entries[i]?).map fun e =>
      let (g, outcome) := s.processMessage i e.event result stage
      { s.setMain w (.after i rest outcome) with toStreamGroup := g }
  | .read => some { s.setMain w (.submitting s.unread) with toStreamGroup := s.deliver s.unread }
  | .submit i rest =>
    (s.entries[i]?).map fun e =>
      match orderingKey e.event with
      | none => s.setMain w (.stopped (i :: rest))
      | some key => s.setWorker w { main := .submitting rest, executor := (s.workers w).executor ++ [⟨i, key, .start⟩] }
  | .stopped _ => none

/-- One step of an executor's thread. -/
def stepTask (s : GroupState) (w j : Nat) (result : DeliveryResult) : Option GroupState :=
  ((s.workers w).executor[j]?).bind fun task =>
    if (s.workers w).isHead j task then
      (s.entries[task.entry]?).map fun e =>
        let (g, outcome) := s.processMessage task.entry e.event result task.stage
        { s.setWorker w ((s.workers w).afterTask j task outcome) with toStreamGroup := g }
    else none

def step (s : GroupState) : GroupLabel → Option GroupState
  | .publish fields trimmed =>
    if s.mayTrim trimmed then
      some { s with entries := s.entries ++ [{ event := fields }], first := s.first + trimmed }
    else none
  | .main w result => s.stepMain w result
  | .task w j result => s.stepTask w j result
  | .tick duration => some { s with now := s.now + duration }

/-! ## What a step can do -/

end GroupState

section

variable [Runtime]

/-- A stage of `_process_message` on an event, from the handler's `result` if it is
its run that ends. -/
inductive Processed (g : StreamGroup) (i : Nat) (event : CopyEvent) (result : DeliveryResult) :
    Stage → StreamGroup → Outcome → Prop
  | duplicate (h : g.isProcessed event.idempotencyKey) : Processed g i event result .start g (.goes .acknowledge)
  | handle : Processed g i event result .start g (.goes .handling)
  | complete : Processed g i event result .handling { g with runs := g.runs ++ [(i, result)] } (.goes (.result result))
  | succeed : Processed g i event result (.result .success)
      { g with
        processed := g.processed ++ [⟨event.idempotencyKey, event.eventId, g.now + seconds processedSeconds⟩] }
      (.goes .acknowledge)
  | retry {code : String} (h : g.pendingAttempts i < g.maxAttempts) :
      Processed g i event result (.result (.retry code)) g .returns
  | deadLetter {r : DeliveryResult} {userId : Option String} (h : g.isFinal i r)
      (hp : persistDeadLetter g.now event = some userId) : Processed g i event result (.result r)
      { g with
        deadLetters := g.deadLetters ++ [⟨userId, i, event, g.pendingAttempts i, StreamGroup.errorCode r⟩] }
      (.goes .acknowledge)
  | unstorable {r : DeliveryResult} (h : g.isFinal i r) (hp : persistDeadLetter g.now event = none) :
      Processed g i event result (.result r) g .raises
  | acknowledge : Processed g i event result .acknowledge (g.ack i) .returns

theorem processed_of_some (g : StreamGroup) (i : Nat) {fields : Fields} {event : CopyEvent} (result : DeliveryResult)
    (stage : Stage) (he : CopyEvent.fromFields fields = some event) :
    Processed g i event result stage (g.processMessage i fields result stage).1
      (g.processMessage i fields result stage).2 := by
  simp only [StreamGroup.processMessage, he]
  cases stage with
  | start =>
    simp only
    split
    · exact .duplicate (by assumption)
    · exact .handle
  | handling => exact .complete
  | acknowledge => exact .acknowledge
  | result r =>
    cases r with
    | success => exact .succeed
    | retry code =>
      simp only
      split
      · split
        · exact .unstorable (by assumption) (by assumption)
        · exact .deadLetter (by assumption) (by assumption)
      · rename_i h
        exact .retry (by simpa [StreamGroup.isFinal] using h)
    | dead_letter code =>
      simp only
      split
      · split
        · exact .unstorable (by assumption) (by assumption)
        · exact .deadLetter (by assumption) (by assumption)
      · rename_i h
        exact absurd rfl h

theorem processMessage_of_none {g : StreamGroup} {i : Nat} {fields : Fields} {result : DeliveryResult} {stage : Stage}
    (he : CopyEvent.fromFields fields = none) : g.processMessage i fields result stage = (g, .raises) := by
  simp only [StreamGroup.processMessage, he]

namespace GroupState

/-- The steps of the group and its workers, guards included. `processMessage` is left
to `Processed`. -/
inductive Step (s : GroupState) : GroupLabel → GroupState → Prop
  | publish (fields : Fields) {trimmed : Nat} (ht : s.mayTrim trimmed) : Step s (.publish fields trimmed)
      { s with entries := s.entries ++ [{ event := fields }], first := s.first + trimmed }
  | claim {w : Nat} {result : DeliveryResult} (hm : (s.workers w).main = .claim) : Step s (.main w result)
      { s.setMain w (.processing s.claimable) with toStreamGroup := s.deliver s.claimable s.gone }
  | process {w i : Nat} {stage : Stage} {rest : List Nat} {result : DeliveryResult} {e : StreamEntry Fields}
      (hm : (s.workers w).main = .process i stage rest) (he : s.entries[i]? = some e) : Step s (.main w result)
      { s.setMain w (.after i rest (s.processMessage i e.event result stage).2) with
        toStreamGroup := (s.processMessage i e.event result stage).1 }
  | read {w : Nat} {result : DeliveryResult} (hm : (s.workers w).main = .read) : Step s (.main w result)
      { s.setMain w (.submitting s.unread) with toStreamGroup := s.deliver s.unread }
  | choke {w i : Nat} {rest : List Nat} {result : DeliveryResult} {e : StreamEntry Fields}
      (hm : (s.workers w).main = .submit i rest) (he : s.entries[i]? = some e) (hk : orderingKey e.event = none) :
      Step s (.main w result) (s.setMain w (.stopped (i :: rest)))
  | submit {w i : Nat} {rest : List Nat} {result : DeliveryResult} {e : StreamEntry Fields} {key : Option String}
      (hm : (s.workers w).main = .submit i rest) (he : s.entries[i]? = some e) (hk : orderingKey e.event = some key) :
      Step s (.main w result)
        (s.setWorker w { main := .submitting rest, executor := (s.workers w).executor ++ [⟨i, key, .start⟩] })
  | task {w j : Nat} {task : Task} {result : DeliveryResult} {e : StreamEntry Fields}
      (hj : (s.workers w).executor[j]? = some task) (hh : (s.workers w).isHead j task)
      (he : s.entries[task.entry]? = some e) : Step s (.task w j result)
      { s.setWorker w ((s.workers w).afterTask j task (s.processMessage task.entry e.event result task.stage).2) with
        toStreamGroup := (s.processMessage task.entry e.event result task.stage).1 }
  | tick (duration : Time) : Step s (.tick duration) { s with now := s.now + duration }

theorem step_cases {s t : GroupState} {l : GroupLabel} (h : s.step l = some t) : Step s l t := by
  cases l with
  | publish fields trimmed =>
    simp only [step] at h
    split at h
    · cases h; exact .publish fields (by assumption)
    · cases h
  | tick duration => cases h; exact .tick duration
  | main w result =>
    simp only [step, stepMain] at h
    split at h
    · cases h; exact .claim (by assumption)
    · obtain ⟨e, he, rfl⟩ := Option.map_eq_some_iff.mp h
      exact .process (by assumption) he
    · cases h; exact .read (by assumption)
    · obtain ⟨e, he, rfl⟩ := Option.map_eq_some_iff.mp h
      split
      · exact .choke (by assumption) he (by assumption)
      · exact .submit (by assumption) he (by assumption)
    · cases h
  | task w j result =>
    simp only [step, stepTask] at h
    obtain ⟨task, hj, h⟩ := Option.bind_eq_some_iff.mp h
    split at h
    · obtain ⟨e, he, rfl⟩ := Option.map_eq_some_iff.mp h
      exact .task hj (by assumption) he
    · cases h

/-! ## Entries -/

end GroupState

namespace StreamGroup

variable {g : StreamGroup} {i j : Nat}

omit [Runtime] in
theorem entries_ack : (g.ack i).entries[j]? = (g.entries[j]?).map fun e => if i = j then { e with status := .acked } else e := by
  rw [ack, List.getElem?_modify]
  rfl

omit [Runtime] in
@[simp] theorem fields?_ack : (g.ack i).fields? j = g.fields? j := by
  rw [fields?, fields?, entries_ack, Option.map_map]
  congr 1
  funext e
  simp only [Function.comp]
  split <;> rfl

omit [Runtime] in
@[simp] theorem fields?_deliver (batch gone : List Nat) : (g.deliver batch gone).fields? j = g.fields? j := by
  rw [fields?, fields?, deliver, List.getElem?_mapIdx, Option.map_map]
  congr 1
  funext e
  simp only [Function.comp]
  split
  · rfl
  · split <;> rfl

@[simp] theorem fields?_processMessage {fields : Fields} {result : DeliveryResult} {stage : Stage} :
    (g.processMessage i fields result stage).1.fields? j = g.fields? j := by
  cases he : CopyEvent.fromFields fields with
  | none => rw [processMessage_of_none he]
  | some event =>
    have h := processed_of_some g i result stage he
    generalize g.processMessage i fields result stage = p at h
    obtain ⟨g', o⟩ := p
    cases h with
    | acknowledge => exact fields?_ack
    | _ => rfl

omit [Runtime] in
theorem lt_of_mem_unread (h : i ∈ g.unread) : i < g.entries.length :=
  List.mem_range.mp (List.mem_filter.mp (List.mem_of_mem_take h)).1

omit [Runtime] in
theorem isPending_of_mem_scanned (h : i ∈ g.scanned) : i < g.entries.length ∧ g.isPending i := by
  obtain ⟨hmem, -⟩ := List.mem_filter.mp (List.mem_of_mem_take h)
  obtain ⟨hrange, hp⟩ := List.mem_filter.mp (List.mem_of_mem_take hmem)
  exact ⟨List.mem_range.mp hrange, hp⟩

omit [Runtime] in
theorem lt_of_mem_claimable (h : i ∈ g.claimable) : i < g.entries.length :=
  (isPending_of_mem_scanned (List.mem_of_mem_filter h)).1

omit [Runtime] in
theorem isTrimmed_of_mem_gone (h : i ∈ g.gone) : g.isTrimmed i := (List.mem_filter.mp h).2

omit [Runtime] in
theorem isSome_fields? : (g.fields? i).isSome ↔ i < g.entries.length := by
  simp [fields?]

end StreamGroup

namespace GroupState

variable {s t : GroupState} {l : GroupLabel}

/-- An entry keeps its fields. -/
theorem fields?_of_step (h : Step s l t) {i : Nat} {fields : Fields} (hf : s.fields? i = some fields) :
    t.fields? i = some fields := by
  cases h with
  | publish fields' =>
    obtain ⟨e, he, rfl⟩ := Option.map_eq_some_iff.mp hf
    exact Option.map_eq_some_iff.mpr
      ⟨e, (List.getElem?_append_left (List.getElem?_eq_some_iff.mp he).1).trans he, rfl⟩
  | claim | read => exact (StreamGroup.fields?_deliver ..).trans hf
  | process | task => exact StreamGroup.fields?_processMessage.trans hf
  | choke | submit | tick => exact hf

omit [Runtime] in
theorem workers_setWorker {w w' : Nat} {v : Worker} :
    (s.setWorker w v).workers w' = if w' = w then v else s.workers w' := Function.update_apply ..

omit [Runtime] in
theorem workers_setMain {w w' : Nat} {main : Main} :
    (s.setMain w main).workers w' = if w' = w then { s.workers w with main } else s.workers w' := workers_setWorker

/-! ## Messages in hand -/

/-- What a step does to the group and to the messages its workers hold, in whatever
order they hold them. -/
inductive Moved (s : GroupState) : GroupLabel → GroupState → Prop
  | publish (fields : Fields) {trimmed : Nat} (ht : s.mayTrim trimmed) : Moved s (.publish fields trimmed)
      { s with entries := s.entries ++ [{ event := fields }], first := s.first + trimmed }
  | tick (duration : Time) : Moved s (.tick duration) { s with now := s.now + duration }
  /-- A message goes to the executor, or an exception leaves the loop with it. -/
  | kept {l : GroupLabel} {t : GroupState} (hg : t.toStreamGroup = s.toStreamGroup)
      (hm : ∀ w, (t.workers w).messages.Perm (s.workers w).messages) : Moved s l t
  | took {l : GroupLabel} {t : GroupState} {w : Nat} {batch gone : List Nat} (hg : t.toStreamGroup = s.deliver batch gone)
      (hb : batch = s.unread ∧ gone = [] ∨
        (∃ result, l = .main w result) ∧ (s.workers w).main = .claim ∧ batch = s.claimable ∧ gone = s.gone)
      (hm : (t.workers w).messages.Perm (batch.map (·, .start) ++ (s.workers w).messages))
      (ho : ∀ v, v ≠ w → t.workers v = s.workers v) : Moved s l t
  | went {l : GroupLabel} {t : GroupState} {w i : Nat} {stage : Stage} {e : StreamEntry Fields} {result : DeliveryResult}
      {o : Outcome} (others : List (Nat × Stage)) (he : s.entries[i]? = some e)
      (hg : t.toStreamGroup = (s.processMessage i e.event result stage).1)
      (hp : (s.processMessage i e.event result stage).2 = o) (hs : (s.workers w).messages.Perm ((i, stage) :: others))
      (hm : (t.workers w).messages.Perm (o.next i ++ others)) (ho : ∀ v, v ≠ w → t.workers v = s.workers v) : Moved s l t

theorem moved_of_step (h : Step s l t) : Moved s l t := by
  have hset {w v : Nat} {x : Worker} (hv : v ≠ w) : (s.setWorker w x).workers v = s.workers v := by
    rw [workers_setWorker, if_neg hv]
  have hself {w : Nat} {x : Worker} : (s.setWorker w x).workers w = x := by rw [workers_setWorker, if_pos rfl]
  cases h with
  | publish fields ht => exact .publish fields ht
  | tick duration => exact .tick duration
  | @claim w result hm =>
    refine .took (w := w) rfl (.inr ⟨⟨result, rfl⟩, hm, rfl, rfl⟩) ?_ fun v hv => hset hv
    change List.Perm (Worker.messages ((s.setWorker w _).workers w)) _
    rw [hself, Worker.messages, Worker.messages, hm, Main.messages_processing]
    exact .refl _
  | @read w result hm =>
    refine .took (w := w) rfl (.inl ⟨rfl, rfl⟩) ?_ fun v hv => hset hv
    change List.Perm (Worker.messages ((s.setWorker w _).workers w)) _
    rw [hself, Worker.messages, Worker.messages, hm, Main.messages_submitting]
    exact .refl _
  | @process w i stage rest result e hm he =>
    refine .went (w := w) (rest.map (·, .start) ++ (s.workers w).executor.map fun task => (task.entry, task.stage))
      he rfl rfl ?_ ?_ fun v hv => hset hv
    · rw [Worker.messages, hm]
      exact .refl _
    · change List.Perm (Worker.messages ((s.setWorker w _).workers w)) _
      rw [hself, Worker.messages, Main.messages_after, List.append_assoc]
  | @choke w i rest result e hm he hk =>
    refine .kept rfl fun v => ?_
    by_cases hv : v = w
    · subst hv
      rw [setMain, hself, Worker.messages, Worker.messages, hm]
      exact .refl _
    · rw [setMain, hset hv]
  | @submit w i rest result e key hm he hk =>
    refine .kept rfl fun v => ?_
    by_cases hv : v = w
    · subst hv
      rw [hself, Worker.messages, Worker.messages, hm, Main.messages_submitting, List.map_append, ← List.append_assoc]
      exact List.perm_append_singleton ..
    · rw [hset hv]
  | @task w j task result e hj hh he =>
    obtain ⟨hlt, hget⟩ := List.getElem?_eq_some_iff.mp hj
    have herase := (List.getElem_cons_eraseIdx_perm hlt).symm
    rw [hget] at herase
    refine .went (w := w)
      ((s.workers w).main.messages ++ ((s.workers w).executor.eraseIdx j).map fun task => (task.entry, task.stage))
      he rfl rfl ?_ ?_ fun v hv => hset hv
    · exact ((herase.map _).append_left _).trans List.perm_middle
    · change List.Perm (Worker.messages ((s.setWorker w _).workers w)) _
      rw [hself]
      cases (s.processMessage task.entry e.event result task.stage).2 with
      | goes stage => exact (((List.set_perm_cons_eraseIdx hlt _).map _).append_left _).trans List.perm_middle
      | returns | raises => exact .refl _

/-- Every message held is an entry. -/
def Valid (s : GroupState) : Prop := ∀ w, ∀ m ∈ (s.workers w).messages, m.1 < s.entries.length

omit [Runtime] in
theorem length_deliver (g : StreamGroup) (batch gone : List Nat) :
    (g.deliver batch gone).entries.length = g.entries.length :=
  List.length_mapIdx

theorem length_processMessage {g : StreamGroup} {i : Nat} {fields : Fields} {result : DeliveryResult} {stage : Stage} :
    (g.processMessage i fields result stage).1.entries.length = g.entries.length := by
  have h (j : Nat) : j < (g.processMessage i fields result stage).1.entries.length ↔ j < g.entries.length := by
    rw [← StreamGroup.isSome_fields?, ← StreamGroup.isSome_fields?, StreamGroup.fields?_processMessage]
  exact Nat.le_antisymm (Nat.not_lt.mp fun hlt => Nat.lt_irrefl _ ((h _).mp hlt))
    (Nat.not_lt.mp fun hlt => Nat.lt_irrefl _ ((h _).mpr hlt))

theorem valid_of_step (h : Step s l t) (hv : s.Valid) : t.Valid := by
  cases moved_of_step h with
  | publish fields =>
    intro w m hm
    have := hv w m hm
    simp only [List.length_append]
    omega
  | tick => exact hv
  | kept hg hm =>
    intro w m hmem
    rw [hg]
    exact hv w m ((hm w).mem_iff.mp hmem)
  | @took l t w batch gone hg hb hm ho =>
    intro v m hmem
    rw [hg, length_deliver]
    by_cases hvw : v = w
    · subst hvw
      rcases List.mem_append.mp (hm.mem_iff.mp hmem) with hmem | hmem
      · obtain ⟨i, hi, rfl⟩ := List.mem_map.mp hmem
        rcases hb with ⟨rfl, -⟩ | ⟨-, -, rfl, -⟩
        · exact StreamGroup.lt_of_mem_unread hi
        · exact StreamGroup.lt_of_mem_claimable hi
      · exact hv v m hmem
    · exact hv v m (ho v hvw ▸ hmem)
  | @went l t w i stage e result o others he hg hp hs hm ho =>
    intro v m hmem
    rw [hg, length_processMessage]
    by_cases hvw : v = w
    · subst hvw
      rcases List.mem_append.mp (hm.mem_iff.mp hmem) with hmem | hmem
      · cases o with
        | goes => rw [List.mem_singleton.mp hmem]; exact (List.getElem?_eq_some_iff.mp he).1
        | returns | raises => cases hmem
      · exact hv v m (hs.mem_iff.mpr (List.mem_cons_of_mem _ hmem))
    · exact hv v m (ho v hvw ▸ hmem)

/-- A main loop that is not stopped can go on. -/
theorem stepMain_isSome (hv : s.Valid) {w : Nat} (hw : (s.workers w).main.isStopped = false) (result : DeliveryResult) :
    (s.stepMain w result).isSome := by
  have hget (i : Nat) (stage : Stage) (hi : (i, stage) ∈ (s.workers w).main.messages) : (s.entries[i]?).isSome :=
    Option.isSome_iff_exists.mpr ⟨_, List.getElem?_eq_getElem (hv w (i, stage) (List.mem_append_left _ hi))⟩
  unfold stepMain
  cases hm : (s.workers w).main with
  | claim | read => rfl
  | process i stage rest => simpa using hget i stage (by simp [hm, Main.messages])
  | submit i rest => simpa using hget i .start (by simp [hm, Main.messages])
  | stopped => rw [hm] at hw; cases hw

/-! ## Deliveries -/

omit [Runtime] in
theorem status?_deliver {g : StreamGroup} {batch gone : List Nat} {i : Nat} : (g.deliver batch gone).status? i =
    (g.status? i).map fun status =>
      if i ∈ batch then status.delivered g.now else if i ∈ gone then .new else status := by
  simp only [StreamGroup.status?, StreamGroup.deliver, List.getElem?_mapIdx, Option.map_map]
  congr 1
  funext e
  simp only [Function.comp]
  split
  · rfl
  · split <;> rfl

omit [Runtime] in
theorem status?_deliver_of_mem {g : StreamGroup} {batch gone : List Nat} {i : Nat} (hi : i ∈ batch) :
    (g.deliver batch gone).status? i = (g.status? i).map (·.delivered g.now) := by
  simp [status?_deliver, hi]

omit [Runtime] in
theorem status?_ack {g : StreamGroup} {i j : Nat} :
    (g.ack i).status? j = (g.status? j).map fun status => if i = j then .acked else status := by
  simp only [StreamGroup.status?, StreamGroup.entries_ack, Option.map_map]
  congr 1
  funext e
  simp only [Function.comp]
  split <;> rfl

theorem status?_processMessage {g : StreamGroup} (i : Nat) {j : Nat} {fields : Fields} {result : DeliveryResult}
    (stage : Stage) {status : EntryStatus} (hs : g.status? j = some status) :
    (g.processMessage i fields result stage).1.status? j = some status ∨
      (g.processMessage i fields result stage).1.status? j = some .acked := by
  cases he : CopyEvent.fromFields fields with
  | none => rw [processMessage_of_none he]; exact .inl hs
  | some event =>
    have h := processed_of_some g i result stage he
    generalize g.processMessage i fields result stage = p at h
    obtain ⟨g', o⟩ := p
    cases h with
    | acknowledge =>
      change (g.ack i).status? j = _ ∨ (g.ack i).status? j = _
      rw [status?_ack, hs, Option.map_some]
      split
      · exact .inr rfl
      · exact .inl rfl
    | _ => exact .inl hs

omit [Runtime] in
theorem status?_of_mem_unread {g : StreamGroup} {i : Nat} (h : i ∈ g.unread) :
    g.status? i = some .new ∧ g.isTrimmed i = false := by
  simpa [StreamGroup.isNew, and_comm] using (List.mem_filter.mp (List.mem_of_mem_take h)).2

omit [Runtime] in
theorem status?_of_mem_scanned {g : StreamGroup} {i : Nat} (h : i ∈ g.scanned) :
    ∃ n deliveredAt, g.status? i = some (.pending n deliveredAt) := by
  have := (StreamGroup.isPending_of_mem_scanned h).2
  unfold StreamGroup.isPending at this
  split at this
  · exact ⟨_, _, by assumption⟩
  · cases this

/-- The `n`-th delivery of the pending entry `i` is followed by a claim. -/
def Claims (s : GroupState) (l : GroupLabel) (i n : Nat) : Prop :=
  ∃ w result deliveredAt, l = .main w result ∧ (s.workers w).main = .claim ∧ i ∈ s.claimable ∧
    s.status? i = some (.pending n deliveredAt)

/-- The pending entry `i` is trimmed, and leaves the pending entries. -/
def Drops (s t : GroupState) (i : Nat) : Prop :=
  s.isTrimmed i ∧ (∃ n deliveredAt, s.status? i = some (.pending n deliveredAt)) ∧ t.status? i = some .new

/-- An entry stays as it is, is acknowledged, is delivered, or is dropped. -/
theorem status?_of_step (h : Step s l t) {i : Nat} {status : EntryStatus} (hs : s.status? i = some status) :
    t.status? i = some status ∨ t.status? i = some .acked ∨
      (status = .new ∧ t.status? i = some (.pending 1 s.now)) ∨
      (∃ n, s.Claims l i n ∧ t.status? i = some (.pending (n + 1) s.now)) ∨ Drops s t i := by
  have hdeliver (batch gone : List Nat) : (s.deliver batch gone).status? i =
      some (if i ∈ batch then status.delivered s.now else if i ∈ gone then .new else status) := by
    rw [status?_deliver, hs, Option.map_some]
  cases h with
  | publish fields =>
    obtain ⟨e, he, rfl⟩ := Option.map_eq_some_iff.mp hs
    exact .inl (Option.map_eq_some_iff.mpr
      ⟨e, (List.getElem?_append_left (List.getElem?_eq_some_iff.mp he).1).trans he, rfl⟩)
  | tick | choke | submit => exact .inl hs
  | @claim w result hm =>
    have ht := hdeliver s.claimable s.gone
    split at ht
    · rename_i hi
      obtain ⟨n, deliveredAt, hp⟩ := status?_of_mem_scanned (List.mem_of_mem_filter hi)
      cases hs.symm.trans hp
      exact .inr (.inr (.inr (.inl ⟨n, ⟨w, result, deliveredAt, rfl, hm, hi, hp⟩, ht⟩)))
    · split at ht
      · rename_i hi
        exact .inr (.inr (.inr (.inr
          ⟨StreamGroup.isTrimmed_of_mem_gone hi, status?_of_mem_scanned (List.mem_of_mem_filter hi), ht⟩)))
      · exact .inl ht
  | @read w result hm =>
    have ht := hdeliver s.unread []
    split at ht
    · rename_i hi
      cases hs.symm.trans (status?_of_mem_unread hi).1
      exact .inr (.inr (.inl ⟨rfl, ht⟩))
    · rw [if_neg List.not_mem_nil] at ht
      exact .inl ht
  | process | task => exact (status?_processMessage _ _ hs).imp_right .inl

end GroupState

end

/-! ## A source's messages -/

/-- The runtime on the payload of `sourceMessage`. -/
@[reducible] def Runtime.oneSource : Runtime where
  repr _ := ""
  fromIsoFormat _ := none
  loads text :=
    if text = "\x7b\"source_id\":\"00000000-0000-4000-8000-000000000007\"\x7d" then
      some (.object [("source_id", .string "00000000-0000-4000-8000-000000000007")])
    else none
  uuid
    | .string "00000000-0000-4000-8000-000000000007" => some "00000000-0000-4000-8000-000000000007"
    | _ => none
  sourceOwner _ _ := none
  intentOwner _ _ := none
  accepts _ _ _ := true

def sourceMessage (idempotencyKey : String) : Fields :=
  [("correlation_id", "17"), ("event_id", "19"), ("event_type", "message.created"), ("idempotency_key", idempotencyKey),
    ("occurred_at", "2026-01-05T09:00:00+00:00"),
    ("payload", "\x7b\"source_id\":\"00000000-0000-4000-8000-000000000007\"\x7d"), ("stream", "copy:telegram:messages")]

end SignalSync
