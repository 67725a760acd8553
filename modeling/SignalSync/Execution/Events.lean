import SignalSync.Execution.World

/-!
# Events and their intents

An intent's event is published under the intent's own key, before the intent is
committed, and again under keys of their own when a dead letter is replayed. What is
remembered of a key therefore speaks for one intent only.

* `Keyed.step`: keys, events and intents belong together in every run;
* `Handled.step`: where a run has executed an event with success, the event's
  intent is settled;
* `Handled.not_open`: so it is for every event of the same key.
-/

namespace SignalSync

open Library

/-- The intent an event executes. -/
def ExecutionEvent.executes (event : ExecutionEvent) : Option Uuid :=
  match event.payload with
  | .execute intentId => some intentId
  | _ => none

theorem ExecutionEvent.executes_eq_some {event : ExecutionEvent} {id : Uuid} :
    event.executes = some id ↔ event.payload = .execute id := by
  unfold executes
  split <;> simp_all

theorem ExecutionEvent.executes_begin (event : ExecutionEvent) : event.begin.executes = event.executes := by
  obtain ⟨key, payload⟩ := event
  cases payload <;> rfl

namespace World

/-- The intent is stored or about to be, under this key. -/
def HasKey (w : World) (id : Uuid) (k : IntentKey) : Prop :=
  (∃ p, w.db.intentPayload id = some p ∧ p.1 = k) ∨ ∃ row, (id, row) ∈ w.pending ∧ row.idempotencyKey = k

/-- An intent that is not committed, or that `execution_handler` would still execute. -/
def Open (w : World) (id : Uuid) : Prop := (∃ row, (id, row) ∈ w.pending) ∨ w.db.Executable id

/-- Events, their keys and the intents they are about. -/
structure Keyed (w : World) : Prop where
  valid : w.stream.Valid
  published : ∀ id k, w.HasKey id k → ∃ event ∈ w.stream.events, event.executes = some id
  keys : ∀ event ∈ w.stream.events, ∀ k, event.key = .intent k →
    ∃ id, event.executes = some id ∧ ∀ k', w.HasKey id k' → k' = k
  unique : ∀ id id' k, w.HasKey id k → w.HasKey id' k → id = id'
  replays : ∀ event ∈ w.stream.events, ∀ n, event.key = .replay n →
    n < w.stream.events.length ∧ ∀ event' ∈ w.stream.events, event'.key = .replay n → event'.payload = event.payload
  executed : ∀ event ∈ w.stream.events, ∀ id, event.executes = some id →
    (∃ k, event.key = .intent k) ∨ ∃ n, event.key = .replay n
  apart : ∀ e ∈ w.pending, w.db.intentPayload e.1 = none

section

variable [Unicode] {settings : ExecutionSettings} {w t : World} {a : WorldLabel}

omit [Unicode] in
theorem keyTaken_of_hasKey {id : Uuid} {k : IntentKey} (h : w.HasKey id k) : w.keyTaken k := by
  rcases h with ⟨p, hp, rfl⟩ | ⟨row, hr, rfl⟩
  · obtain ⟨row, hr, rfl⟩ := Option.map_eq_some_iff.mp hp
    exact .inl ⟨(id, row), Table.get?_eq_some.1 hr, rfl⟩
  · exact .inr ⟨(id, row), hr, rfl⟩

/-- A published event is one of before, or the one a step publishes. -/
theorem events_of_step (h : Step settings w a t) : t.stream.events = w.stream.events ∨
    ∃ event, t.stream.events = w.stream.events ++ [event] ∧
      ((∃ id row, a = .publishIntent id row ∧ row.isNew id ∧ w.isNewId id ∧ ¬ w.keyTaken row.idempotencyKey ∧
        event = ⟨.intent row.idempotencyKey, .execute id⟩) ∨ w.Republished event) := by
  cases h with
  | stream hl hs =>
    rcases StreamState.events_of_step hs with he | ⟨event, he, -⟩
    · exact .inl he
    · exact absurd he (hl event)
  | @handler d i phase e label r hd hc =>
    rw [after_events]
    cases hp : r.publish with
    | none => exact .inl (List.append_nil _)
    | some event =>
      obtain ⟨id, attempt, rfl⟩ := hc.published hp
      exact .inr ⟨_, rfl, .inr (.inr (.inr ⟨by simp, by simp, by simp⟩))⟩
  | @publishIntent id row hr hn hk => exact .inr ⟨_, List.map_append, .inl ⟨id, row, rfl, hr, hn, hk, rfl⟩⟩
  | publish _ _ _ he => exact .inr ⟨_, List.map_append, .inr he⟩
  | commitIntent | rollbackIntent | sweep | database => exact .inl rfl

theorem mem_events_of_step (h : Step settings w a t) {event : ExecutionEvent} (he : event ∈ w.stream.events) :
    event ∈ t.stream.events := by
  rcases events_of_step h with hs | ⟨event', hs, -⟩ <;> rw [hs]
  · exact he
  · exact List.mem_append_left _ he

/-- A stored intent was stored before, or is committed. -/
theorem stored_of_step (h : Step settings w a t) {id : Uuid} {p : IntentKey × Payload} (hp : t.db.intentPayload id = some p) :
    w.db.intentPayload id = some p ∨ ∃ row, (id, row) ∈ w.pending ∧ p = (row.idempotencyKey, row.requestPayload) := by
  cases h with
  | handler hd hc =>
    rw [after_db, hc.intentPayload] at hp
    exact .inl hp
  | @commitIntent id' row intents hm hi =>
    rw [Database.intentPayload, Table.get?_push hi] at hp
    split at hp
    · rename_i hid
      subst hid
      cases hp
      exact .inr ⟨row, hm, rfl⟩
    · exact .inl hp
  | database _ hi =>
    rw [Database.intentPayload_of_intents hi] at hp
    exact .inl hp
  | stream | publishIntent | rollbackIntent | publish | sweep => exact .inl hp

/-- An uncommitted intent was so before, or is added. -/
theorem pending_of_step (h : Step settings w a t) {e : Uuid × TradeIntent} (he : e ∈ t.pending) :
    e ∈ w.pending ∨ a = .publishIntent e.1 e.2 ∧ w.isNewId e.1 ∧ ¬ w.keyTaken e.2.idempotencyKey := by
  cases h with
  | handler => rw [after_pending] at he; exact .inl he
  | publishIntent _ hn hk =>
    rcases List.mem_append.mp he with he | he
    · exact .inl he
    · rw [List.mem_singleton.mp he]
      exact .inr ⟨rfl, hn, hk⟩
  | commitIntent | rollbackIntent => exact .inl (List.mem_of_mem_filter he)
  | stream | publish | sweep | database => exact .inl he

theorem hasKey_of_step (h : Step settings w a t) {id : Uuid} {k : IntentKey} (hk : t.HasKey id k) : w.HasKey id k ∨
    ∃ row, a = .publishIntent id row ∧ row.idempotencyKey = k ∧ w.isNewId id ∧ ¬ w.keyTaken k := by
  rcases hk with ⟨p, hp, rfl⟩ | ⟨row, hr, rfl⟩
  · rcases stored_of_step h hp with hp | ⟨row, hr, rfl⟩
    · exact .inl (.inl ⟨p, hp, rfl⟩)
    · exact .inl (.inr ⟨row, hr, rfl⟩)
  · rcases pending_of_step h hr with hr | ⟨ha, hn, hk⟩
    · exact .inl (.inr ⟨row, hr, rfl⟩)
    · exact .inr ⟨row, ha, rfl, hn, hk⟩

omit [Unicode] in
theorem not_executes_of_isNewId {id : Uuid} (hn : w.isNewId id) {event : ExecutionEvent} (he : event ∈ w.stream.events) :
    event.executes ≠ some id := by
  obtain ⟨e, hmem, rfl⟩ := List.mem_map.mp he
  exact fun h => hn e hmem (ExecutionEvent.executes_eq_some.1 h)

theorem Keyed.step (hw : w.Keyed) (h : Step settings w a t) :
    t.Keyed := by
  have hnew {id : Uuid} (hn : w.isNewId id) (k : IntentKey) : ¬ w.HasKey id k := fun hk => by
    obtain ⟨event, he, hx⟩ := hw.published id k hk
    exact not_executes_of_isNewId hn he hx
  have hold {event : ExecutionEvent} (he : event ∈ w.stream.events) {k : IntentKey} (hk : event.key = .intent k) :
      ∃ id, event.executes = some id ∧ ∀ k', t.HasKey id k' → k' = k := by
    obtain ⟨id, hx, hkeys⟩ := hw.keys event he k hk
    refine ⟨id, hx, fun k' hk' => ?_⟩
    rcases hasKey_of_step h hk' with hk' | ⟨row, -, -, hn, -⟩
    · exact hkeys k' hk'
    · exact absurd hx (not_executes_of_isNewId hn he)
  have hlen : w.stream.entries.length = w.stream.events.length := by
    rw [StreamState.events, List.length_map]
  refine ⟨valid_of_step h hw.valid, fun id k hk => ?_, fun event he k hk => ?_, fun id id' k hk hk' => ?_, ?_,
    fun event he id hx => ?_, fun e he => ?_⟩
  · rcases hasKey_of_step h hk with hk | ⟨row, rfl, -⟩
    · obtain ⟨event, he, hx⟩ := hw.published id k hk
      exact ⟨event, mem_events_of_step h he, hx⟩
    · cases h with
      | publishIntent => exact ⟨_, List.mem_map_of_mem (List.mem_append_right _ (List.mem_singleton_self _)), rfl⟩
      | publish _ _ ha | database ha => cases ha
  · rcases events_of_step h with hs | ⟨new, hs, hnew'⟩ <;> rw [hs] at he
    · exact hold he hk
    · rcases List.mem_append.mp he with he | he
      · exact hold he hk
      · cases List.mem_singleton.mp he
        rcases hnew' with ⟨id, row, ha, -, hn, -, rfl⟩ | he | ⟨hr, -⟩ | ⟨hr, -⟩
        · cases hk
          refine ⟨id, rfl, fun k' hk' => ?_⟩
          rcases hasKey_of_step h hk' with hk' | ⟨row', ha', hrow', -⟩
          · exact absurd hk' (hnew hn k')
          · cases ha.symm.trans ha'
            exact hrow'.symm
        · exact hold he hk
        · cases hr.symm.trans hk
        · exact absurd hk (hr k)
  · rcases hasKey_of_step h hk with hk | ⟨row, ha, hrow, hn, ht⟩ <;>
      rcases hasKey_of_step h hk' with hk' | ⟨row', ha', hrow', hn', ht'⟩
    · exact hw.unique id id' k hk hk'
    · exact absurd (keyTaken_of_hasKey hk) ht'
    · exact absurd (keyTaken_of_hasKey hk') ht
    · cases ha.symm.trans ha'
      rfl
  · rcases events_of_step h with hs | ⟨new, hs, hnew'⟩ <;> rw [hs]
    · exact hw.replays
    · -- a replay under a key of its own is the last event, and its number the length before
      have hlast {event : ExecutionEvent} (he : event ∈ w.stream.events ++ [new]) {n : Nat} (hn : event.key = .replay n) :
          event ∈ w.stream.events ∨ n = w.stream.events.length ∧ event = new := by
        rcases List.mem_append.mp he with he | he
        · exact .inl he
        · cases List.mem_singleton.mp he
          rcases hnew' with ⟨id, row, -, -, -, -, rfl⟩ | he | ⟨hr, -⟩ | ⟨-, hr, -⟩
          · cases hn
          · exact .inl he
          · cases hr.symm.trans hn
            exact .inr ⟨hlen, rfl⟩
          · exact absurd hn (hr n)
      intro event he n hn
      rw [List.length_append, List.length_singleton]
      rcases hlast he hn with he | ⟨rfl, rfl⟩
      · obtain ⟨hlt, hsame⟩ := hw.replays event he n hn
        refine ⟨by omega, fun event' he' hn' => ?_⟩
        rcases hlast he' hn' with he' | ⟨rfl, -⟩
        · exact hsame event' he' hn'
        · omega
      · refine ⟨by omega, fun event' he' hn' => ?_⟩
        rcases hlast he' hn' with he' | ⟨-, rfl⟩
        · exact absurd (hw.replays event' he' _ hn').1 (Nat.lt_irrefl _)
        · rfl
  · rcases events_of_step h with hs | ⟨new, hs, hnew'⟩ <;> rw [hs] at he
    · exact hw.executed event he id hx
    · rcases List.mem_append.mp he with he | he
      · exact hw.executed event he id hx
      · cases List.mem_singleton.mp he
        rcases hnew' with ⟨id, row, -, -, -, -, rfl⟩ | he | ⟨hr, -⟩ | ⟨-, -, hr⟩
        · exact .inl ⟨_, rfl⟩
        · exact hw.executed event he id hx
        · exact .inr ⟨_, hr⟩
        · exact absurd (ExecutionEvent.executes_eq_some.1 hx) (hr id)
  · cases h with
    | handler hd hc =>
      rw [after_pending] at he
      rw [after_db, hc.intentPayload]
      exact hw.apart e he
    | @publishIntent id row _ hn =>
      rcases List.mem_append.mp he with he | he
      · exact hw.apart e he
      · rw [List.mem_singleton.mp he]
        by_contra hne
        obtain ⟨p, hp⟩ := Option.ne_none_iff_exists'.mp hne
        exact hnew hn p.1 (.inl ⟨p, hp, rfl⟩)
    | commitIntent _ hi =>
      rw [List.mem_filter, decide_eq_true_eq] at he
      rw [Database.intentPayload, Table.get?_push hi, if_neg he.2]
      exact hw.apart e he.1
    | rollbackIntent => exact hw.apart e (List.mem_of_mem_filter he)
    | database _ hi => rw [Database.intentPayload_of_intents hi]; exact hw.apart e he
    | stream | publish | sweep => exact hw.apart e he

/-- What runs have done, on top of `Keyed`: a run on its way and a run that has ended
well have their intent settled, and so is that of every event remembered. -/
structure Handled (w : World) : Prop extends w.Keyed where
  sessions : w.SessionsLoaded
  executes : ∀ d event phase, w.InPhase d event phase → phase.executes = event.executes
  calls : ∀ d event phase c, w.InPhase d event phase → phase.call? = some c → w.db.Settled c.intentId
  finished : ∀ d i e id, w.stream.delivered d = some (⟨i, .result .success⟩, e) → e.event.executes = some id →
    w.db.Settled id
  processed : ∀ p ∈ w.stream.processed, ∃ event ∈ w.stream.events, event.key = p.key ∧
    ∀ id, event.executes = some id → w.db.Settled id

omit [Unicode] in
theorem isSome_intentState_of_payload {db : Database} {id : Uuid} {p : IntentKey × Payload}
    (h : db.intentPayload id = some p) : (db.intentState id).isSome := by
  obtain ⟨row, hr, -⟩ := Option.map_eq_some_iff.mp h
  rw [Database.intentState, hr]
  rfl

/-- A run's call is made under a settled intent. -/
theorem calls_settled_of_step (hw : w.Handled) (h : Step settings w a t) (hr : w.RetriesLoaded a) {d : Nat}
    {event : ExecutionEvent} {phase : ExecutionPhase} {c : ExecutionCall} (hp : t.InPhase d event phase)
    (hc : phase.call? = some c) : t.db.Settled c.intentId := by
  have hkeep {d : Nat} {phase : ExecutionPhase} (hp : w.InPhase d event phase) (hc : phase.call? = some c) :
      t.db.Settled c.intentId := settled_of_step h hr hw.sessions (hw.calls d event phase c hp hc)
  rcases inPhase_of_step h hw.valid hp with ⟨hp, -⟩ | ⟨rfl, -⟩ | ⟨label, phase₀, r, -, hp₀, hcase, hst, hdb⟩
  · exact hkeep hp hc
  · obtain ⟨key, payload⟩ := event
    cases payload <;> cases hc
  · rcases hcase.call? hst hc with ⟨hc₀, -⟩ | ⟨s, restored, view, pending, new, rfl, -, -, hn, hid, -, hwr, -⟩
    · exact hkeep hp₀ hc₀
    · obtain ⟨hexec, hpay⟩ := hw.sessions d event _ _ hp₀ rfl
      rw [hdb, hid]
      exact hwr.settles (isSome_intentState_of_payload hpay) hexec (by rw [hn]; rfl)

/-- A run that ends well leaves its intent settled. -/
theorem settled_of_success (hw : w.Handled) {d i : Nat} {phase : ExecutionPhase} {e : StreamEntry ExecutionEvent}
    {label : HandlerLabel} {r : HandlerStep} (hd : w.stream.delivered d = some (⟨i, .handle phase⟩, e))
    (hc : HandlerCase d w.stream.now w.db phase label r) (hr : w.RetriesLoaded (.handler d label))
    (hs : r.stage = .result .success) {id : Uuid} (hx : e.event.executes = some id) : r.db.Settled id := by
  have hp : w.InPhase d e.event phase := ⟨i, e, hd, rfl⟩
  have hkeep (hs : w.db.Settled id) : r.db.Settled id := by
    simpa using settled_of_step (.handler hd hc : Step {} w _ _) hr hw.sessions hs
  rcases hc.success hs ((hw.executes d e.event phase hp).trans hx) with hs | ⟨c, hcall, rfl⟩ | ⟨loaded, new, hl, hn, hwr⟩
  · exact hkeep hs
  · exact hkeep (hw.calls d e.event phase c hp hcall)
  · have hn : new.state.isExecutable = false := by rw [hn]; rfl
    obtain ⟨he, hpay⟩ := hw.sessions d e.event phase _ hp hl
    exact hwr.settles (isSome_intentState_of_payload hpay) he hn

theorem Handled.step (hw : w.Handled) (h : Step settings w a t) (hr : w.RetriesLoaded a) : t.Handled where
  toKeyed := hw.toKeyed.step h
  sessions := hw.sessions.step hw.valid h
  executes d event phase hp := by
    rcases inPhase_of_step h hw.valid hp with ⟨hp, -⟩ | ⟨rfl, -⟩ | ⟨label, phase₀, r, -, hp₀, hc, hst, -⟩
    · exact hw.executes d event phase hp
    · exact event.executes_begin
    · exact (hc.executes hst).trans (hw.executes d event phase₀ hp₀)
  calls _ _ _ _ hp hc := calls_settled_of_step hw h hr hp hc
  finished d i e id hd hx := by
    rcases success_of_step h hw.valid hd with ⟨e₀, hd₀, hev⟩ | ⟨label, phase, r, rfl, ⟨i₀, e₀, hd₀, hev⟩, hc, hs, hdb⟩
    · exact settled_of_step h hr hw.sessions (hw.finished d i e₀ id hd₀ (hev ▸ hx))
    · rw [hdb]
      exact settled_of_success hw hd₀ hc hr hs (hev ▸ hx)
  processed p hp := by
    have hold (hp : p ∈ w.stream.processed) : ∃ event ∈ t.stream.events, event.key = p.key ∧
        ∀ id, event.executes = some id → t.db.Settled id := by
      obtain ⟨event, he, hk, hset⟩ := hw.processed p hp
      exact ⟨event, mem_events_of_step h he, hk, fun id hx => settled_of_step h hr hw.sessions (hset id hx)⟩
    cases h with
    | stream hl hs =>
      rcases StreamState.processed_of_step hs hp with hp | ⟨d, known, i, e, -, hd, hk, -⟩
      · exact hold hp
      · refine ⟨e.event, ?_, hk.symm, fun id hx => hw.finished d i e id hd hx⟩
        exact StreamState.mem_events_of_step hs (StreamState.mem_events (StreamState.delivered_eq_some.1 hd).2)
    | @handler d i phase e label r hd hc =>
      refine hold ?_
      unfold after at hp
      split at hp <;> exact hp
    | publishIntent | publish | commitIntent | rollbackIntent | sweep | database => exact hold hp

omit [Unicode] in
theorem Handled.not_pending (hw : w.Handled) {id : Uuid} (hs : w.db.Settled id) (row : TradeIntent) :
    (id, row) ∉ w.pending := fun hr => by
  obtain ⟨state, hst, -⟩ := hs
  obtain ⟨row', hrow, -⟩ := Option.map_eq_some_iff.mp hst
  have hnone := hw.apart _ hr
  rw [Database.intentPayload, hrow] at hnone
  cases hnone

omit [Unicode] in
theorem Handled.not_open_of_settled (hw : w.Handled) {id : Uuid} (hs : w.db.Settled id) : ¬ w.Open id := by
  rintro (⟨row, hr⟩ | he)
  · exact hw.not_pending hs row hr
  · exact hs.not_executable he

omit [Unicode] in
theorem Open.hasKey {id : Uuid} (h : w.Open id) : ∃ k, w.HasKey id k := by
  rcases h with ⟨row, hr⟩ | ⟨state, hst, -⟩
  · exact ⟨_, .inr ⟨row, hr, rfl⟩⟩
  · obtain ⟨row, hrow, -⟩ := Option.map_eq_some_iff.mp hst
    exact ⟨_, .inl ⟨_, by rw [Database.intentPayload, hrow]; rfl, rfl⟩⟩

omit [Unicode] in
theorem hasKey_of_settled {id : Uuid} (h : w.db.Settled id) : ∃ k, w.HasKey id k := by
  obtain ⟨state, hst, -⟩ := h
  obtain ⟨row, hrow, -⟩ := Option.map_eq_some_iff.mp hst
  exact ⟨_, .inl ⟨_, by rw [Database.intentPayload, hrow]; rfl, rfl⟩⟩

omit [Unicode] in
/-- Once an event has been executed with success, no event of its key executes an
intent that is still open. -/
theorem Handled.not_open (hw : w.Handled) {event event' : ExecutionEvent} (he : event ∈ w.stream.events)
    (he' : event' ∈ w.stream.events) (hset : ∀ id, event.executes = some id → w.db.Settled id)
    (hk : event.key = event'.key) {id : Uuid} (hx : event'.executes = some id) : ¬ w.Open id := by
  intro hopen
  rcases hw.executed event' he' id hx with ⟨k, hk'⟩ | ⟨n, hn⟩
  · -- the two intents have the same key, so they are one
    obtain ⟨id₀, hx₀, hkeys⟩ := hw.keys event he k (hk.trans hk')
    obtain ⟨id₁, hx₁, hkeys'⟩ := hw.keys event' he' k hk'
    cases hx.symm.trans hx₁
    obtain ⟨k₀, hk₀⟩ := hasKey_of_settled (hset id₀ hx₀)
    obtain ⟨k₁, hk₁⟩ := hopen.hasKey
    cases hkeys k₀ hk₀
    cases hkeys' k₁ hk₁
    cases hw.unique id₀ id _ hk₀ hk₁
    exact hw.not_open_of_settled (hset id hx₀) hopen
  · have hpay := (hw.replays event' he' n hn).2 event he (hk.trans hn)
    refine hw.not_open_of_settled (hset id ?_) hopen
    rw [ExecutionEvent.executes, hpay]
    exact hx

end

end World

end SignalSync
