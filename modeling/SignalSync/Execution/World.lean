import SignalSync.Library.Run
import SignalSync.Execution.Reconciliation
import SignalSync.Execution.Step
import SignalSync.Signal.Handler

/-!
# The execution world

Everything the execution workers share: the database, the execution stream with
its deliveries, the connection locks and the broker, together with the signal
workers' transactions that add intents and publish them before they commit, the
replays of dead letters, the sweep of unresolved intents, and the broker
snapshots. `World.step` interleaves them in any order; `Reach` over it are the
runs.

* `World.step_cases`: what a step can do;
* `World.inPhase_of_step`: where a run of the handler can be after a step;
* `World.valid_of_step`, `World.intentPayload_of_step`: what every step keeps.
-/

namespace SignalSync

open Library

/-- The intents a sweep of `publish_unresolved_intents` has still to publish, and
its bucket. -/
structure Sweep where
  bucket : Nat
  intentIds : List Uuid
deriving DecidableEq

structure World where
  db : Database
  stream : StreamState ExecutionKey ExecutionEvent ExecutionPhase := {}
  /-- Who holds a connection's lock, and until when. -/
  locks : Option Uuid → Option (Nat × Time) := fun _ => none
  /-- The calls of the broker, each with its intent. -/
  calls : List (Uuid × BrokerCall) := []
  /-- Intents that are published and not committed. -/
  pending : List (Uuid × TradeIntent) := []
  /-- The dead letters that have been replayed. -/
  replayed : List Nat := []
  sweeps : List Sweep := []

inductive WorldLabel
  /-- A step of the stream or of a worker, other than publishing. -/
  | stream (l : StreamLabel ExecutionEvent)
  /-- A delivery's run of the handler. -/
  | handler (delivery : Nat) (label : HandlerLabel)
  | publishIntent (id : Uuid) (row : TradeIntent)
  | commitIntent (id : Uuid)
  | rollbackIntent (id : Uuid)
  /-- An event is published once more. -/
  | publishAgain (entry : Nat)
  /-- `replay_dead_letter`. -/
  | replay (deadLetter : Nat)
  | emergency (request : EmergencyRequest)
  | sweep
  | publishUnresolved (sweep : Nat)
  | snapshot (view : Uuid → Option BrokerSnapshot)
  /-- Everything but the intents and the copied trades, as others change it. -/
  | outside (db : Database)

/-- The steps of others, that neither deliver an event nor add an intent. -/
def WorldLabel.isAside : WorldLabel → Bool
  | .publishAgain _ | .replay _ | .emergency _ | .publishUnresolved _ | .snapshot _ | .outside _ => true
  | _ => false

/-- `_connection_lock`. -/
def ExecutionSettings.lease (settings : ExecutionSettings) : Time :=
  seconds (max 300 (settings.connectionTimeoutSeconds * 2 + 60))

/-- `_reconcile_sweep_bucket`. -/
def ExecutionSettings.reconcileSweepBucket (settings : ExecutionSettings) (now : Time) : Nat :=
  now / seconds (max 1 (min 30 settings.uncertainMaxAgeSeconds))

/-- An intent as a signal worker adds it. -/
def TradeIntent.isNew (row : TradeIntent) (id : Uuid) : Prop :=
  row.state = .created ∧ row.attemptCount = 0 ∧ row.lastErrorCode = none ∧ row.clientOrderId = ⟨row.routeId, id⟩

instance (row : TradeIntent) (id : Uuid) : Decidable (row.isNew id) := by delta TradeIntent.isNew; infer_instance

namespace World

/-- Before the first intent. -/
def initial (db : Database) : World := { db := { db with intents := ∅, trades := ∅ } }

def publish (w : World) (event : ExecutionEvent) : World :=
  { w with stream := { w.stream with entries := w.stream.entries ++ [{ event }] } }

def lockFree (w : World) (connectionId : Option Uuid) : Bool :=
  (w.locks connectionId).all fun lock => lock.2 ≤ w.stream.now

def changeLock (settings : ExecutionSettings) (w : World) (d : Nat) : LockChange → Option Uuid → Option (Nat × Time)
  | .keep => w.locks
  | .acquire connectionId => Function.update w.locks connectionId (some (d, w.stream.now + settings.lease))
  | .release connectionId =>
    if (w.locks connectionId).any (·.1 = d) then Function.update w.locks connectionId none else w.locks

/-- After a step of the handler at work on delivery `d`. -/
def after (settings : ExecutionSettings) (w : World) (d : Nat) (h : HandlerStep) : World :=
  let w' : World :=
    { w with
      db := h.db, stream := w.stream.setStage d h.stage, locks := w.changeLock settings d h.lock
      calls := w.calls ++ h.call.toList }
  match h.publish with
  | some event => w'.publish event
  | none => w'

/-- The intents of `publish_unresolved_intents`. -/
def unresolved (w : World) : List Uuid := (w.db.intents.select fun _ intent => intent.state.isUnresolved).map Prod.fst

/-- The key is an intent's, stored or about to be: an insert waits for another of
the same key, and fails on a stored one. -/
def keyTaken (w : World) (key : IntentKey) : Prop :=
  (∃ e ∈ w.db.intents.entries, e.2.idempotencyKey = key) ∨ ∃ e ∈ w.pending, e.2.idempotencyKey = key

instance (w : World) (key : IntentKey) : Decidable (w.keyTaken key) := by delta keyTaken; infer_instance

/-- A new id is none that has been published. -/
def isNewId (w : World) (id : Uuid) : Prop := ∀ e ∈ w.stream.entries, e.event.payload ≠ .execute id

instance (w : World) (id : Uuid) : Decidable (w.isNewId id) := by delta isNewId; infer_instance

section

variable [Unicode] (settings : ExecutionSettings)

def step (w : World) : WorldLabel → Option World
  | .stream (.publish _) => none
  | .stream l => (w.stream.step ExecutionEvent.key ExecutionEvent.begin l).map fun stream => { w with stream }
  | .handler d label =>
    match w.stream.delivered d with
    | some (⟨_, .handle phase⟩, _) =>
      (handlerStep settings d w.stream.now w.lockFree w.db phase label).map (w.after settings d)
    | _ => none
  | .publishIntent id row =>
    if row.isNew id ∧ w.isNewId id ∧ ¬ w.keyTaken row.idempotencyKey then
      some ({ w with pending := w.pending ++ [(id, row)] }.publish ⟨.intent row.idempotencyKey, .execute id⟩)
    else none
  | .commitIntent id =>
    match w.pending.find? (·.1 = id) with
    | some (_, row) => (w.db.intents.push id row).map fun intents =>
        { w with db := { w.db with intents }, pending := w.pending.filter (·.1 ≠ id) }
    | none => none
  | .rollbackIntent id => some { w with pending := w.pending.filter (·.1 ≠ id) }
  | .publishAgain i => (w.stream.entries[i]?).map fun e => w.publish e.event
  | .replay n =>
    match w.stream.deadLetters[n]? with
    | some event =>
      if n ∈ w.replayed then none
      else some ({ w with replayed := n :: w.replayed }.publish ⟨.replay w.stream.entries.length, event.payload⟩)
    | none => none
  | .emergency request => some (w.publish ⟨.emergency w.stream.entries.length, .emergency request⟩)
  | .sweep =>
    some { w with sweeps := w.sweeps ++ [⟨settings.reconcileSweepBucket w.stream.now, w.unresolved⟩] }
  | .publishUnresolved k =>
    match w.sweeps[k]? with
    | some ⟨bucket, id :: rest⟩ =>
      some ({ w with sweeps := w.sweeps.set k ⟨bucket, rest⟩ }.publish ⟨.sweep id bucket, .reconcile id⟩)
    | _ => none
  | .snapshot view => (reconcileCopiedTrades w.db view).map fun db => { w with db }
  | .outside db => some { w with db := { db with intents := w.db.intents, trades := w.db.trades } }

/-! ## What a step can do -/

/-- An event that executes no new intent: one published before, a dead letter under
a key of its own, or one that executes none. -/
def Republished (w : World) (event : ExecutionEvent) : Prop :=
  event ∈ w.stream.events ∨
    event.key = .replay w.stream.entries.length ∧ (∃ e ∈ w.stream.deadLetters, e.payload = event.payload) ∨
    (∀ key, event.key ≠ .intent key) ∧ (∀ n, event.key ≠ .replay n) ∧ ∀ id, event.payload ≠ .execute id

/-- The steps of the world, guards included. -/
inductive Step (w : World) : WorldLabel → World → Prop
  | stream {l : StreamLabel ExecutionEvent} {s : StreamState ExecutionKey ExecutionEvent ExecutionPhase}
      (hl : ∀ event, l ≠ .publish event) (hs : w.stream.Step ExecutionEvent.key ExecutionEvent.begin l s) :
      Step w (.stream l) { w with stream := s }
  | handler {d i : Nat} {phase : ExecutionPhase} {e : StreamEntry ExecutionEvent} {label : HandlerLabel} {h : HandlerStep}
      (hd : w.stream.delivered d = some (⟨i, .handle phase⟩, e)) (hc : HandlerCase d w.stream.now w.db phase label h) :
      Step w (.handler d label) (w.after settings d h)
  | publishIntent {id : Uuid} {row : TradeIntent} (hr : row.isNew id) (hn : w.isNewId id)
      (hk : ¬ w.keyTaken row.idempotencyKey) :
      Step w (.publishIntent id row)
        ({ w with pending := w.pending ++ [(id, row)] }.publish ⟨.intent row.idempotencyKey, .execute id⟩)
  | commitIntent {id : Uuid} {row : TradeIntent} {intents : Table Uuid TradeIntent} (hp : (id, row) ∈ w.pending)
      (hi : w.db.intents.push id row = some intents) :
      Step w (.commitIntent id) { w with db := { w.db with intents }, pending := w.pending.filter (·.1 ≠ id) }
  | rollbackIntent (id : Uuid) : Step w (.rollbackIntent id) { w with pending := w.pending.filter (·.1 ≠ id) }
  | publish {a : WorldLabel} {event : ExecutionEvent} (replayed : List Nat) (sweeps : List Sweep) (ha : a.isAside)
      (he : w.Republished event) :
      Step w a ({ w with replayed, sweeps }.publish event)
  | sweep (sweeps : List Sweep) : Step w .sweep { w with sweeps }
  | database {a : WorldLabel} {db : Database} (ha : a.isAside) (hi : db.intents = w.db.intents)
      (ht : ∀ id, (db.trades.get? id).isSome = (w.db.trades.get? id).isSome) : Step w a { w with db }

variable {settings} {w t : World} {a : WorldLabel}

theorem step_cases (h : w.step settings a = some t) : Step settings w a t := by
  cases a with
  | stream l =>
    cases l with
    | publish event => cases h
    | read | claim | start | startFails | conclude | acknowledge | crash | tick =>
      simp only [step] at h
      obtain ⟨s, hs, rfl⟩ := Option.map_eq_some_iff.mp h
      exact .stream (by simp) (StreamState.step_cases hs)
  | handler d label =>
    simp only [step] at h
    split at h
    · rename_i hd
      obtain ⟨r, hr, rfl⟩ := Option.map_eq_some_iff.mp h
      exact .handler hd (handlerStep_cases hr)
    · cases h
  | publishIntent id row =>
    simp only [step] at h
    split at h
    · rename_i hc
      cases h
      exact .publishIntent hc.1 hc.2.1 hc.2.2
    · cases h
  | commitIntent id =>
    simp only [step] at h
    split at h
    · rename_i hp
      obtain ⟨intents, hi, rfl⟩ := Option.map_eq_some_iff.mp h
      have hid := List.find?_some hp
      simp only [decide_eq_true_eq] at hid
      exact .commitIntent (hid ▸ List.mem_of_find?_eq_some hp) hi
    · cases h
  | rollbackIntent id => cases h; exact .rollbackIntent id
  | publishAgain i =>
    obtain ⟨e, he, rfl⟩ := Option.map_eq_some_iff.mp h
    exact .publish w.replayed w.sweeps rfl (.inl (StreamState.mem_events he))
  | replay n =>
    simp only [step] at h
    split at h
    · rename_i hd
      split at h <;> cases h
      exact .publish (n :: w.replayed) w.sweeps rfl (.inr (.inl ⟨rfl, _, List.mem_of_getElem? hd, rfl⟩))
    · cases h
  | emergency request =>
    cases h
    exact .publish w.replayed w.sweeps rfl (.inr (.inr ⟨by simp, by simp, by simp⟩))
  | sweep => cases h; exact .sweep _
  | publishUnresolved k =>
    simp only [step] at h
    split at h
    · cases h
      exact .publish w.replayed _ rfl (.inr (.inr ⟨by simp, by simp, by simp⟩))
    · cases h
  | snapshot view =>
    obtain ⟨db, hdb, rfl⟩ := Option.map_eq_some_iff.mp h
    obtain ⟨hi, ht⟩ := get?_reconcileCopiedTrades hdb
    exact .database rfl hi ht
  | outside db => cases h; exact .database rfl rfl fun _ => rfl

/-! ## Where the runs are -/

/-- Delivery `d` of an event is in a phase of the handler. -/
def InPhase (w : World) (d : Nat) (event : ExecutionEvent) (phase : ExecutionPhase) : Prop :=
  ∃ i e, w.stream.delivered d = some (⟨i, .handle phase⟩, e) ∧ e.event = event

omit [Unicode] in
@[simp] theorem after_db (w : World) (d : Nat) (h : HandlerStep) : (w.after settings d h).db = h.db := by
  unfold after
  split <;> rfl

omit [Unicode] in
@[simp] theorem after_calls (w : World) (d : Nat) (h : HandlerStep) :
    (w.after settings d h).calls = w.calls ++ h.call.toList := by
  unfold after
  split <;> rfl

omit [Unicode] in
@[simp] theorem after_pending (w : World) (d : Nat) (h : HandlerStep) : (w.after settings d h).pending = w.pending := by
  unfold after
  split <;> rfl

omit [Unicode] in
/-- Publishing leaves the deliveries where they are. -/
theorem delivered_publish (hv : w.stream.Valid) {event : ExecutionEvent} {d : Nat} {x : Delivery ExecutionPhase}
    {e : StreamEntry ExecutionEvent} : (w.publish event).stream.delivered d = some (x, e) ↔ w.stream.delivered d = some (x, e) := by
  rw [StreamState.delivered_eq_some, StreamState.delivered_eq_some]
  refine and_congr_right fun hx => ?_
  rw [publish, List.getElem?_append_left (hv x (List.mem_of_getElem? hx))]

omit [Unicode] in
theorem delivered_after (hv : w.stream.Valid) {d d' : Nat} {h : HandlerStep} {x : Delivery ExecutionPhase}
    {e : StreamEntry ExecutionEvent} : (w.after settings d' h).stream.delivered d = some (x, e) ↔
      (w.stream.setStage d' h.stage).delivered d = some (x, e) := by
  unfold after
  split
  · exact delivered_publish (hv.setStage d' h.stage)
  · rfl

/-- A run of the handler is where it was, starts, or has taken the step. -/
theorem inPhase_of_step (h : Step settings w a t) (hv : w.stream.Valid) {d : Nat} {event : ExecutionEvent}
    {phase : ExecutionPhase} (hp : t.InPhase d event phase) :
    (w.InPhase d event phase ∧ ∀ label, a ≠ .handler d label) ∨ (phase = event.begin ∧ ∃ l, a = .stream l) ∨
      ∃ label phase₀ r, a = .handler d label ∧ w.InPhase d event phase₀ ∧
        HandlerCase d w.stream.now w.db phase₀ label r ∧ r.stage = .handle phase ∧ t.db = r.db := by
  obtain ⟨i, e, hd, rfl⟩ := hp
  cases h with
  | stream hl hs =>
    rcases StreamState.delivered_of_step hs hv hd with ⟨x, e₀, hd₀, -, hev, hst⟩ | hst
    · rcases hst with hst | hst | ⟨-, ⟨hst, -⟩ | ⟨code, hst⟩⟩ | ⟨r, -, hst, -⟩ <;> simp only at hst
      · obtain ⟨i₀, stage⟩ := x
        subst hst
        exact .inl ⟨⟨i₀, e₀, hd₀, hev⟩, by simp⟩
      · cases hst
      · cases hst
        exact .inr (.inl ⟨by rw [hev], _, rfl⟩)
      · cases hst
      · cases hst
    · cases hst
  | @handler d' i' phase' e' label r hd' hc =>
    obtain ⟨x, hx, heq⟩ := StreamState.delivered_setStage ((delivered_after hv).mp hd)
    by_cases hdd : d' = d
    · subst hdd
      cases hd'.symm.trans hx
      rw [if_pos rfl] at heq
      obtain ⟨-, hst⟩ := Delivery.mk.inj heq
      exact .inr (.inr ⟨label, phase', r, rfl, ⟨i', e, hx, rfl⟩, hc, hst.symm, after_db ..⟩)
    · rw [if_neg hdd] at heq
      subst heq
      exact .inl ⟨⟨i, e, hx, rfl⟩, fun label' he => hdd (by cases he; rfl)⟩
  | publishIntent => exact .inl ⟨⟨i, e, (delivered_publish hv).mp hd, rfl⟩, by simp⟩
  | publish _ _ ha => exact .inl ⟨⟨i, e, (delivered_publish hv).mp hd, rfl⟩, fun label he => by subst he; cases ha⟩
  | commitIntent | rollbackIntent | sweep => exact .inl ⟨⟨i, e, hd, rfl⟩, by simp⟩
  | database ha => exact .inl ⟨⟨i, e, hd, rfl⟩, fun label he => by subst he; cases ha⟩

omit [Unicode] in
theorem after_stream (w : World) (d : Nat) (h : HandlerStep) : (w.after settings d h).stream =
    match h.publish with
    | some event => { w.stream.setStage d h.stage with entries := w.stream.entries ++ [{ event }] }
    | none => w.stream.setStage d h.stage := by
  unfold after
  cases h.publish <;> rfl

omit [Unicode] in
theorem after_events (w : World) (d : Nat) (h : HandlerStep) :
    (w.after settings d h).stream.events = w.stream.events ++ h.publish.toList := by
  unfold after
  split
  · rename_i event he
    rw [he, publish, StreamState.events, List.map_append]
    rfl
  · rename_i he
    rw [he]
    exact (List.append_nil _).symm

/-- A run of the handler is left alone by everything but its own step and a crash. -/
theorem inPhase_step (h : Step settings w a t) (hv : w.stream.Valid) {d : Nat} {event : ExecutionEvent}
    {phase : ExecutionPhase} (hp : w.InPhase d event phase) (ha : ∀ label, a ≠ .handler d label)
    (hcrash : a ≠ .stream (.crash d)) : t.InPhase d event phase := by
  obtain ⟨i, e, hd, rfl⟩ := hp
  cases h with
  | stream hl hs =>
    obtain ⟨e', hd', hev⟩ := StreamState.handled_of_step hs hd fun he => hcrash (by rw [he])
    exact ⟨i, e', hd', hev⟩
  | handler hd' hc =>
    exact ⟨i, e, (delivered_after hv).mpr (StreamState.delivered_setStage_of_ne (fun hdd => ha _ (by rw [hdd])) hd), rfl⟩
  | publishIntent | publish => exact ⟨i, e, (delivered_publish hv).mpr hd, rfl⟩
  | commitIntent | rollbackIntent | sweep | database => exact ⟨i, e, hd, rfl⟩

/-- A delivery that has succeeded had done so before, or its run has just ended. -/
theorem success_of_step (h : Step settings w a t) (hv : w.stream.Valid) {d i : Nat} {e : StreamEntry ExecutionEvent}
    (hd : t.stream.delivered d = some (⟨i, .result .success⟩, e)) :
    (∃ e₀, w.stream.delivered d = some (⟨i, .result .success⟩, e₀) ∧ e₀.event = e.event) ∨
      ∃ label phase r, a = .handler d label ∧ w.InPhase d e.event phase ∧
        HandlerCase d w.stream.now w.db phase label r ∧ r.stage = .result .success ∧ t.db = r.db := by
  cases h with
  | stream hl hs =>
    rcases StreamState.delivered_of_step hs hv hd with ⟨⟨i₀, stage⟩, e₀, hd₀, hi, hev, hst⟩ | hst
    · rcases hst with hst | hst | ⟨-, ⟨hst, -⟩ | ⟨code, hst⟩⟩ | ⟨r, -, hst, -⟩ <;> simp only at hst
      · subst hst hi
        exact .inl ⟨e₀, hd₀, hev⟩
      all_goals cases hst
    · cases hst
  | @handler d' i' phase e' label r hd' hc =>
    obtain ⟨x, hx, heq⟩ := StreamState.delivered_setStage ((delivered_after hv).mp hd)
    by_cases hdd : d' = d
    · subst hdd
      cases hd'.symm.trans hx
      rw [if_pos rfl] at heq
      obtain ⟨-, hst⟩ := Delivery.mk.inj heq
      exact .inr ⟨label, phase, r, rfl, ⟨i', e, hx, rfl⟩, hc, hst.symm, after_db ..⟩
    · rw [if_neg hdd] at heq
      subst heq
      exact .inl ⟨e, hx, rfl⟩
  | publishIntent | publish => exact .inl ⟨e, (delivered_publish hv).mp hd, rfl⟩
  | commitIntent | rollbackIntent | sweep | database => exact .inl ⟨e, hd, rfl⟩

theorem valid_of_step (h : Step settings w a t) (hv : w.stream.Valid) : t.stream.Valid := by
  have hpublish {w : World} {event : ExecutionEvent} (hv : w.stream.Valid) : (w.publish event).stream.Valid :=
    hv.step (.publish event : w.stream.Step ExecutionEvent.key ExecutionEvent.begin (.publish event) _)
  cases h with
  | stream hl hs => exact hv.step hs
  | @handler d i phase e label r hd hc =>
    unfold after
    split
    · exact hpublish (hv.setStage d r.stage)
    · exact hv.setStage d r.stage
  | publishIntent | publish => exact hpublish hv
  | commitIntent | rollbackIntent | sweep | database => exact hv

/-! ## What every step keeps -/

theorem intentPayload_of_step (h : Step settings w a t) {id : Uuid} {p : IntentKey × Payload}
    (hp : w.db.intentPayload id = some p) : t.db.intentPayload id = some p := by
  cases h with
  | handler hd hc => rwa [after_db, hc.intentPayload]
  | commitIntent hm hi =>
    obtain ⟨row, hr, hrow⟩ := Option.map_eq_some_iff.mp hp
    rw [Database.intentPayload, Table.get?_push hi]
    split
    · rename_i hid
      rw [Table.push_eq_none.2 ⟨row, hid ▸ hr⟩] at hi
      cases hi
    · exact hp
  | database _ hi => rwa [Database.intentPayload_of_intents hi]
  | stream | publishIntent | rollbackIntent | publish | sweep => exact hp

/-- The sessions of the runs at work have loaded executable intents, whose payloads
are still the stored ones. -/
def SessionsLoaded (w : World) : Prop :=
  ∀ d event phase x, w.InPhase d event phase → phase.session = some x →
    x.2.state.isExecutable ∧ w.db.intentPayload x.1 = some (x.2.idempotencyKey, x.2.requestPayload)

theorem SessionsLoaded.step (hx : w.SessionsLoaded) (hv : w.stream.Valid) (h : Step settings w a t) :
    t.SessionsLoaded := by
  intro d event phase x hp hs
  rcases inPhase_of_step h hv hp with ⟨hp, -⟩ | ⟨rfl, -⟩ | ⟨label, phase₀, r, -, hp₀, hc, hst, -⟩
  · obtain ⟨he, hpay⟩ := hx d event phase x hp hs
    exact ⟨he, intentPayload_of_step h hpay⟩
  · obtain ⟨key, payload⟩ := event
    cases payload <;> cases hs
  · rcases hc.session hst hs with hs₀ | ⟨-, hi, he⟩
    · obtain ⟨he, hpay⟩ := hx d event phase₀ x hp₀ hs₀
      exact ⟨he, intentPayload_of_step h hpay⟩
    · exact ⟨he, intentPayload_of_step h (by rw [Database.intentPayload, hi]; rfl)⟩

/-- The uncommitted intents are as they were added. -/
def PendingNew (w : World) : Prop := ∀ e ∈ w.pending, e.2.isNew e.1

theorem PendingNew.step (hn : w.PendingNew) (h : Step settings w a t) : t.PendingNew := by
  cases h with
  | handler => rw [PendingNew, after_pending]; exact hn
  | publishIntent hr =>
    intro e he
    rcases List.mem_append.mp he with he | he
    · exact hn e he
    · rw [List.mem_singleton.mp he]
      exact hr
  | commitIntent | rollbackIntent => exact fun e he => hn e (List.mem_of_mem_filter he)
  | stream | publish | sweep | database => exact hn

omit [Unicode] in
theorem not_inPhase_initial (db : Database) (d : Nat) (event : ExecutionEvent) (phase : ExecutionPhase) :
    ¬ (initial db).InPhase d event phase := by
  rintro ⟨i, e, hd, -⟩
  cases hd

/-! ## Commits over what was loaded -/

/-- The preparation of an order that a step commits, with its session. -/
def prepares (w : World) : WorldLabel → Option (ReadySession × Prepared)
  | .handler d (.prepare view) =>
    match w.stream.delivered d with
    | some (⟨_, .handle (.prepare s restored)⟩, _) =>
      match prepareExecution w.db w.stream.now s restored view with
      | .ok (_, prepared) => some (s, prepared)
      | .error _ => none
    | _ => none
  | _ => none

/-- `retryable` is committed only over the state that was loaded. -/
def RetriesLoaded (w : World) (a : WorldLabel) : Prop :=
  match w.prepares a with
  | some (s, .done (.retry _) _) => KeepsLoaded w.db s
  | _ => True

/-- So is `submitted`. -/
def SubmitsLoaded (w : World) (a : WorldLabel) : Prop :=
  match w.prepares a with
  | some (s, .submit ..) => KeepsLoaded w.db s
  | _ => True

instance : Decidable (w.RetriesLoaded a) := by unfold RetriesLoaded; split <;> infer_instance

instance : Decidable (w.SubmitsLoaded a) := by unfold SubmitsLoaded; split <;> infer_instance

theorem prepares_eq {d i : Nat} {e : StreamEntry ExecutionEvent} {s : ReadySession} {restored : List (Uuid × CopyRoute)}
    {view : BrokerView} {pending : PendingWrites} {prepared : Prepared}
    (hd : w.stream.delivered d = some (⟨i, .handle (.prepare s restored)⟩, e))
    (hx : prepareExecution w.db w.stream.now s restored view = .ok (pending, prepared)) :
    w.prepares (.handler d (.prepare view)) = some (s, prepared) := by
  simp only [prepares, hd, hx]

theorem settled_of_step (h : Step settings w a t) (hr : w.RetriesLoaded a) (hx : w.SessionsLoaded) {id : Uuid}
    (hs : w.db.Settled id) : t.db.Settled id := by
  cases h with
  | handler hd hc =>
    rw [after_db]
    refine hc.settled (fun s restored view pending code new hp hl he => ?_) (fun x hs => (hx _ _ _ x ⟨_, _, hd, rfl⟩ hs).1) hs
    subst hp hl
    simpa only [RetriesLoaded, prepares_eq hd he] using hr
  | commitIntent hm hi =>
    obtain ⟨state, hst, he⟩ := hs
    refine ⟨state, ?_, he⟩
    rw [Database.intentState, Table.get?_push hi]
    split
    · rename_i hid
      obtain ⟨row, hr, -⟩ := Option.map_eq_some_iff.mp hst
      rw [Table.push_eq_none.2 ⟨row, hid ▸ hr⟩] at hi
      cases hi
    · exact hst
  | database _ hi => rwa [Database.Settled, Database.intentState_of_intents hi]
  | stream | publishIntent | rollbackIntent | publish | sweep => exact hs

end

/-! ## An account that copies gold -/

/-- The account of `goldRoute`, ready to trade. -/
def goldAccount : Database :=
  { goldDatabase with
    connections := .add ∅ 3 { metaapiAccountId := some "A", state := .ready }
    parsedActions := .add ∅ 9
      { threadId := 10, routeId := 4, telegramMessageId := 11, actionType := .open_market, revision := 1
        assemblyId := 8 } }

/-- The intent of `BUY XAUUSD SL 2390 TP 2410`. -/
def goldIntent : TradeIntent where
  userId := 1
  routeId := 4
  connectionId := some 3
  parsedActionId := 9
  idempotencyKey :=
    { connectionId := 6, chatId := 7, messageId := 11, revision := 1, routeId := 4, action := .open_market, index := 0
      target := .inr 0 }
  clientOrderId := ⟨4, 12⟩
  state := .created
  requestPayload :=
    { context := buyGold.modelDump, volume := none, takeProfit := some 2410, conversationId := 0, copiedTradeId := none }
  createdAt := seconds 101

/-- A live quote of gold at 2400. -/
def goldTerminal (now : Time) : BrokerView where
  specifications :=
    [{ symbol := "XAUUSD", tradeMode := .name "SYMBOL_TRADE_MODE_FULL", minVolume_nonneg := Specification.nonneg_none
       volumeStep_nonneg := Specification.nonneg_none }]
  quote := some { bid := some 2399, ask := some 2400, time := .at now }
  equity := some 10000

/-- The broker's call for `goldIntent`. -/
def goldCall : BrokerCall := .marketOrder .buy "XAUUSD" (1 / 100) (some 2390) (some 2410) ⟨4, 12⟩

/-- The intent is published and committed, and delivered for the first time. -/
def goldPublished : List WorldLabel :=
  [.stream (.tick (seconds 101)), .publishIntent 12 goldIntent, .commitIntent 12, .stream .read, .stream (.start 0)]

/-- Delivery `d` takes the lock and calls the broker. -/
def goldSubmitted (d : Nat) (now : Time) (response : Except PyException BrokerResult) : List WorldLabel :=
  [.handler d .acquire, .handler d .gate, .handler d (.connect none), .handler d (.prepare (goldTerminal now)),
    .handler d (.call response)]

/-- Delivery `d` writes the broker's answer down and is done. -/
def goldSettled (d : Nat) : List WorldLabel :=
  [.handler d .settle, .stream (.conclude d true), .stream (.acknowledge d)]

end World

end SignalSync
