import SignalSync.Execution.Events

/-!
# No intent is stranded

Three mechanisms bring an intent to its end: the stream delivers its event again
until it is acknowledged, `execution_handler` executes what is `created` or
`retryable`, and the sweep takes up what is `uncertain` or `reconciling`. An event
that is given up is a dead letter, and its intent waits for the replay.

* `not_stranded`: in a run in which no `submitted` is left behind and no `retryable` is
  committed over another run's commit, an intent with no event at work is confirmed,
  failed or up for the sweep, or waits for the replay of a dead letter;
* `goldIntent_stranded`: a worker that ends between the broker's call and the commit
  of its result leaves the intent `submitted` for good, and an account that stays
  busy leaves it `created`.
-/

namespace SignalSync

open Library

namespace World

/-- No event that executes or reconciles the intent is unprocessed or in flight. -/
def Quiet (w : World) (id : Uuid) : Prop :=
  ∀ (i : Nat) (e : StreamEntry ExecutionEvent), w.stream.entries[i]? = some e →
    e.event.payload = .execute id ∨ e.event.payload = .reconcile id → ¬ w.stream.inProcess i

instance (w : World) (id : Uuid) : Decidable (w.Quiet id) :=
  decidable_of_iff (∀ x ∈ w.stream.entries.zipIdx, x.1.event.payload = .execute id ∨ x.1.event.payload = .reconcile id →
      ¬ w.stream.inProcess x.2)
    ⟨fun h i e he => h (e, i) (List.mem_zipIdx_iff_getElem?.mpr he),
      fun h x hx => h x.2 x.1 (List.mem_zipIdx_iff_getElem?.mp hx)⟩

/-! ## The steps that strand an intent -/

/-- The intent whose `submitted` a step leaves behind: its run ends with the worker,
or with an exception while the result is written. -/
def cutsOff (w : World) : WorldLabel → Option Uuid
  | .stream (.crash d) =>
    match w.stream.delivered d with
    | some (⟨_, .handle phase⟩, _) => phase.onItsWay
    | _ => none
  | .handler d _ =>
    match w.stream.delivered d with
    | some (⟨_, .handle phase⟩, _) => if phase.canRaise d w.stream.now w.db then phase.onItsWay else none
    | _ => none
  | _ => none

/-- The step strands no intent. -/
def KeepsAttended [Unicode] (w : World) (a : WorldLabel) : Prop :=
  (∀ id ∈ w.cutsOff a, w.db.intentState id ≠ some .submitted) ∧ w.RetriesLoaded a

instance [Unicode] (w : World) (a : WorldLabel) : Decidable (w.KeepsAttended a) :=
  inferInstanceAs (Decidable (_ ∧ _))

/-! ## Every intent is attended to -/

/-- The event executes no intent that is still open. -/
def Closed (w : World) (event : ExecutionEvent) : Prop := ∀ id, event.executes = some id → ¬ w.Open id

/-- An acknowledged event leaves its intent closed or is a dead letter, and an intent
that is `submitted` has a run on its way. -/
structure Attended (w : World) : Prop extends w.Handled where
  pending : w.PendingNew
  sound : w.stream.Sound ExecutionEvent.key w.Closed
  submitted : ∀ id, w.db.intentState id = some .submitted →
    ∃ d event phase, w.InPhase d event phase ∧ phase.onItsWay = some id

section

variable [Unicode] {settings : ExecutionSettings} {w t : World} {a : WorldLabel}

/-- A step opens an intent only by adding it. -/
theorem open_of_step (hw : w.Handled) (h : Step settings w a t) (hr : w.RetriesLoaded a) {id : Uuid} (ho : t.Open id) :
    w.Open id ∨ w.isNewId id := by
  rcases ho with ⟨row, hrow⟩ | he
  · rcases pending_of_step h hrow with hrow | ⟨-, hn, -⟩
    · exact .inl (.inl ⟨row, hrow⟩)
    · exact .inr hn
  · have ⟨state, hst, _⟩ := he
    obtain ⟨row, hrow, -⟩ := Option.map_eq_some_iff.mp hst
    have hp : t.db.intentPayload id = some (row.idempotencyKey, row.requestPayload) := by
      rw [Database.intentPayload, hrow]
      rfl
    rcases stored_of_step h hp with hp | ⟨row, hrow, -⟩
    · obtain ⟨row₀, hrow₀, -⟩ := Option.map_eq_some_iff.mp hp
      rcases Database.settled_or_executable hrow₀ with hs | he₀
      · exact absurd he (settled_of_step h hr hw.sessions hs).not_executable
      · exact .inl (.inr he₀)
    · exact .inl (.inl ⟨row, hrow⟩)

theorem closed_of_step (hw : w.Handled) (h : Step settings w a t) (hr : w.RetriesLoaded a) {event : ExecutionEvent}
    (he : event ∈ w.stream.events) (hc : w.Closed event) : t.Closed event := fun id hx ho => by
  rcases open_of_step hw h hr ho with ho | hn
  · exact hc id hx ho
  · exact not_executes_of_isNewId hn he hx

/-- The stream stays sound: what is acknowledged is closed. -/
theorem sound_of_step (hw : w.Attended) (h : Step settings w a t) (hr : w.RetriesLoaded a) :
    t.stream.Sound ExecutionEvent.key t.Closed := by
  have hmono : w.stream.Sound ExecutionEvent.key t.Closed :=
    hw.sound.mono fun event he => closed_of_step hw.toHandled h hr he
  have ht : t.Handled := hw.toHandled.step h hr
  -- an event published under a remembered key executes a closed intent
  have hremembered {event : ExecutionEvent} (he : event ∈ t.stream.events) (hp : w.stream.isProcessed event.key) :
      t.Closed event := by
    obtain ⟨p, hp, hk, -⟩ := StreamState.isProcessed_iff.1 hp
    obtain ⟨event₀, he₀, hk₀, hset⟩ := hw.processed p hp
    exact fun id hx => ht.not_open (mem_events_of_step h he₀) he
      (fun id hx => settled_of_step h hr hw.sessions (hset id hx)) (hk₀.trans hk) hx
  cases h with
  | stream hl hs =>
    refine hw.sound.step hs (fun d known i j e e' _ hd he' _ hk => ?_) fun event he => absurd he (hl event)
    exact fun id hx => hw.not_open (StreamState.mem_events (StreamState.delivered_eq_some.1 hd).2)
      (StreamState.mem_events he') (fun id hx => hw.finished d i e id hd hx) hk hx
  | @handler d i phase e label r hd hc =>
    have hset : (w.stream.setStage d r.stage).Sound ExecutionEvent.key (w.after settings d r).Closed :=
      hmono.setStage hd rfl hc.stage_ne fun hs id hx =>
        ht.not_open_of_settled (by rw [after_db]; exact settled_of_success hw.toHandled hd hc hr hs hx)
    rw [after_stream]
    split
    · rename_i event hp
      obtain ⟨id, attempt, rfl⟩ := hc.published hp
      exact hset.publish ExecutionEvent.begin fun _ id hx => by cases hx
    · exact hset
  | publishIntent | publish =>
    refine hmono.publish ExecutionEvent.begin (hremembered ?_)
    exact List.mem_map_of_mem (List.mem_append_right _ (List.mem_singleton_self _))
  | commitIntent | rollbackIntent | sweep | database => exact hmono

/-- An intent that is `submitted` was so before, or the step is the run that submits it. -/
theorem submitted_of_step (hw : w.Attended) (h : Step settings w a t) {id : Uuid}
    (hs : t.db.intentState id = some .submitted) : w.db.intentState id = some .submitted ∨
      ∃ d event phase, t.InPhase d event phase ∧ phase.onItsWay = some id := by
  cases h with
  | @handler d i phase e label r hd hc =>
    rw [after_db] at hs
    have hold (hi : r.db.intents = w.db.intents) : w.db.intentState id = some .submitted := by
      rwa [Database.intentState_of_intents hi] at hs
    have hother {id' : Uuid} {loaded new : TradeIntent} (hwr : r.Writes w.db id' loaded new) (hn : new.state ≠ .submitted) :
        w.db.intentState id = some .submitted :=
      (hwr.intentState_cases hs).resolve_right fun h => hn h.2
    cases hc with
    | raise _ _ hk | ignore _ hk | skip _ hk | load _ _ _ _ hk | advance _ _ _ _ hk | look _ _ hk | find _ hk => exact .inl (hold hk.intents)
    | call _ hdb | publish _ hdb => exact .inl (hold (hdb ▸ rfl))
    | close _ hi => exact .inl (hold hi)
    | reject _ hn hwr | retryable _ hn hwr | confirm hwr hn | reconcile hn hwr =>
      exact .inl (hother hwr (by rw [hn]; nofun))
    | settle hwr _ hst => rcases hst with ⟨hn, -⟩ | ⟨hn, -⟩ <;> exact .inl (hother hwr (by rw [hn]; nofun))
    | conclude hn hwr => rcases hn with ⟨hn, -⟩ | hn | hn <;> exact .inl (hother hwr (by rw [hn]; nofun))
    | @submit s restored view pending c new _ _ _ hid _ hwr _ hst =>
      rcases hwr.intentState_cases hs with hs | ⟨rfl, -⟩
      · exact .inl hs
      · refine .inr ⟨d, e.event, .call c, ⟨i, e, (delivered_after hw.valid).mpr ?_, rfl⟩, congrArg some hid⟩
        obtain ⟨hx, he⟩ := StreamState.delivered_eq_some.1 hd
        exact StreamState.delivered_eq_some.2 ⟨by rw [StreamState.deliveries_setStage, hx, hst]; simp, he⟩
  | @commitIntent id' row intents hp hi =>
    rw [Database.intentState, Table.get?_push hi] at hs
    split at hs
    · obtain ⟨hnew, -⟩ := hw.pending _ hp
      cases hnew.symm.trans (Option.some.inj hs)
    · exact .inl hs
  | database _ hi => exact .inl (by rwa [Database.intentState_of_intents hi] at hs)
  | stream | publishIntent | rollbackIntent | publish | sweep => exact .inl hs

/-- A run on its way goes on, unless the step cuts it off. -/
theorem onItsWay_of_step (hw : w.Attended) (h : Step settings w a t) (hok : w.KeepsAttended a) {id : Uuid}
    (hs : w.db.intentState id = some .submitted) (ht : t.db.intentState id = some .submitted) :
    ∃ d event phase, t.InPhase d event phase ∧ phase.onItsWay = some id := by
  obtain ⟨d, event, phase, hp, hway⟩ := hw.submitted id hs
  obtain ⟨i, e, hd, rfl⟩ := hp
  by_cases hcrash : a = .stream (.crash d)
  · subst hcrash
    exact absurd hs (hok.1 id (by simpa only [cutsOff, hd, Option.mem_def] using hway))
  · by_cases hrun : ∃ label, a = .handler d label
    · obtain ⟨label, rfl⟩ := hrun
      cases h with
      | @handler _ _ _ _ _ r hd' hc =>
        cases hd.symm.trans hd'
        cases hr : phase.canRaise d w.stream.now w.db with
        | true => exact absurd hs (hok.1 id (by simpa only [cutsOff, hd, if_pos hr, Option.mem_def] using hway))
        | false =>
          rw [after_db] at ht
          obtain ⟨phase', hst, hway'⟩ := hc.onItsWay hway hr hs ht
          refine ⟨d, e.event, phase', ⟨i, e, (delivered_after hw.valid).mpr ?_, rfl⟩, hway'⟩
          obtain ⟨hx, he⟩ := StreamState.delivered_eq_some.1 hd
          exact StreamState.delivered_eq_some.2 ⟨by rw [StreamState.deliveries_setStage, hx, hst]; simp, he⟩
      | publish _ _ ha | database ha => cases ha
    · exact ⟨d, e.event, phase,
        inPhase_step h hw.valid ⟨i, e, hd, rfl⟩ (fun label he => hrun ⟨label, he⟩) hcrash, hway⟩

theorem Attended.step (hw : w.Attended) (h : Step settings w a t) (hok : w.KeepsAttended a) : t.Attended where
  toHandled := hw.toHandled.step h hok.2
  pending := hw.pending.step h
  sound := sound_of_step hw h hok.2
  submitted id hs := by
    rcases submitted_of_step hw h hs with hs₀ | hway
    · exact onItsWay_of_step hw h hok hs₀ hs
    · exact hway

omit [Unicode] in
theorem attended_initial (db : Database) : (initial db).Attended where
  valid := fun x hx => by cases hx
  published := fun id k hk => by rcases hk with ⟨p, hp, -⟩ | ⟨row, hr, -⟩ <;> contradiction
  keys := fun event he => by cases he
  unique := fun id id' k hk => by rcases hk with ⟨p, hp, -⟩ | ⟨row, hr, -⟩ <;> contradiction
  replays := fun event he => by cases he
  executed := fun event he => by cases he
  apart := fun e he => by cases he
  sessions := fun d event phase _ hp => absurd hp (not_inPhase_initial db d event phase)
  executes := fun d event phase hp => absurd hp (not_inPhase_initial db d event phase)
  calls := fun d event phase _ hp => absurd hp (not_inPhase_initial db d event phase)
  finished := fun d i e id hd => by cases hd
  processed := fun p hp => by cases hp
  pending := fun e he => by cases he
  sound :=
    { valid := fun x hx => by cases hx
      processed := fun p hp => by cases hp
      finished := fun d x e hd => by cases hd
      acknowledged := fun d x e hd => by cases hd
      acked := fun i e he => by cases he }
  submitted := fun id hs => by cases hs

/-- An event of the intent is unprocessed or in flight. -/
def AtWork (w : World) (id : Uuid) : Prop :=
  ∃ (i : Nat) (e : StreamEntry ExecutionEvent), w.stream.entries[i]? = some e ∧ e.event.payload = .execute id ∧
    w.stream.inProcess i

omit [Unicode] in
/-- An open intent has an event at work, or a dead letter. -/
theorem Attended.atWork_of_open (hw : w.Attended) {id : Uuid} (ho : w.Open id) :
    w.AtWork id ∨ ∃ event ∈ w.stream.deadLetters, event.payload = .execute id := by
  obtain ⟨k, hk⟩ := ho.hasKey
  obtain ⟨event, he, hx⟩ := hw.published id k hk
  obtain ⟨e, hmem, rfl⟩ := List.mem_map.mp he
  obtain ⟨i, hi⟩ := List.mem_iff_getElem?.mp hmem
  have hpay := ExecutionEvent.executes_eq_some.1 hx
  by_cases ha : e.status = .acked
  · rcases hw.sound.acked i e hi ha with hc | hd
    · exact absurd ho (hc id hx)
    · exact .inr ⟨e.event, hd, hpay⟩
  · exact .inl ⟨i, e, hi, hpay, StreamState.inProcess_iff.2 (.inl ⟨e, hi, ha⟩)⟩

omit [Unicode] in
/-- An intent that is `submitted` has an event at work. -/
theorem Attended.atWork_of_submitted (hw : w.Attended) {id : Uuid} (hs : w.db.intentState id = some .submitted) :
    w.AtWork id := by
  obtain ⟨d, event, phase, hp, hway⟩ := hw.submitted id hs
  obtain ⟨c, hcall, rfl⟩ := ExecutionPhase.call?_of_onItsWay hway
  have hx := hw.executes d event phase hp
  rw [(ExecutionPhase.of_call? hcall).1] at hx
  obtain ⟨i, e, hd, rfl⟩ := hp
  exact ⟨i, e, (StreamState.delivered_eq_some.1 hd).2, ExecutionEvent.executes_eq_some.1 hx.symm,
    StreamState.inProcess_of_delivered hd rfl⟩

/-- In a run in which no `submitted` is left behind and no `retryable` is committed over
another run's commit, an intent with no event at work is confirmed or failed, in a
state the sweep takes up, or not executed yet and its event a dead letter. -/
theorem not_stranded {db : Database} (h : Reach (step settings) KeepsAttended (initial db) w) {id : Uuid} {row : TradeIntent}
    (hi : w.db.intents.get? id = some row) (hq : w.Quiet id) :
    row.state = .confirmed ∨ row.state = .failed ∨ row.state = .uncertain ∨ row.state = .reconciling ∨
      (row.state = .created ∨ row.state = .retryable) ∧ ∃ event ∈ w.stream.deadLetters, event.payload = .execute id := by
  have hw := h.invariant (attended_initial db) fun _ _ _ ht hok hu => ht.step (step_cases hu) hok
  have hst : w.db.intentState id = some row.state := by
    rw [Database.intentState, hi]
    rfl
  have hno : ¬ w.AtWork id := by
    rintro ⟨i, e, he, hp, hin⟩
    exact hq i e he (.inl hp) hin
  have hdead (he : row.state.isExecutable) : ∃ event ∈ w.stream.deadLetters, event.payload = .execute id :=
    (hw.atWork_of_open (.inr ⟨_, hst, he⟩)).resolve_left hno
  cases hs : row.state with
  | created => simpa using hdead (by rw [hs]; rfl)
  | retryable => simpa using hdead (by rw [hs]; rfl)
  | submitted => exact absurd (hw.atWork_of_submitted (hs ▸ hst)) hno
  | confirmed | failed | uncertain | reconciling => simp

omit [Unicode] in
/-- A delivery that executes the intent, to the end. -/
theorem not_stranded_goldIntent :
    let _ := Unicode.ascii
    ∃ w row, Reach (step {}) KeepsAttended (initial goldAccount) w ∧ w.db.intents.get? 12 = some row ∧ w.Quiet 12 ∧
      (row.state = .confirmed ∨ row.state = .failed ∨ row.state = .uncertain ∨ row.state = .reconciling ∨
        (row.state = .created ∨ row.state = .retryable) ∧
          ∃ event ∈ w.stream.deadLetters, event.payload = .execute 12) := by
  intro _
  have hrun : (runIf (step {}) KeepsAttended (initial goldAccount) (goldPublished ++ [.handler 0 (.load true)] ++
      goldSubmitted 0 (seconds 101) (.ok { positionId := some "1" }) ++ goldSettled 0)).map (fun w =>
        ((w.db.intents.get? 12).isSome, decide (w.Quiet 12))) = some (true, true) := by decide +kernel
  obtain ⟨w, hw, hrow⟩ := Option.map_eq_some_iff.mp hrun
  obtain ⟨hi, hq⟩ := Prod.mk.inj hrow
  obtain ⟨row, hi⟩ := Option.isSome_iff_exists.mp hi
  have h := Reach.of_runIf hw
  exact ⟨w, row, h, hi, of_decide_eq_true hq, not_stranded h hi (of_decide_eq_true hq)⟩

/-- Two deliveries find the account busy. -/
def goldBusy : List WorldLabel :=
  [.handler 0 (.load true), .handler 0 .busy, .stream (.conclude 0 true), .stream (.tick (seconds 5)), .stream (.claim 0),
    .stream (.start 1), .handler 1 (.load true), .handler 1 .busy, .stream (.conclude 1 true), .stream (.acknowledge 1)]

/-- The worker ends after the broker's call; the next delivery passes the intent over. -/
def goldCutOff : List WorldLabel :=
  [.handler 0 (.load true)] ++ goldSubmitted 0 (seconds 101) (.ok { positionId := some "1" }) ++
    [.stream (.crash 0), .stream (.tick (seconds 5)), .stream (.claim 0), .stream (.start 1), .handler 1 (.load true),
      .stream (.conclude 1 true), .stream (.acknowledge 1)]

omit [Unicode] in
/-- An intent with no event at work is left `submitted`, or `created`, and there is
nothing to sweep. -/
theorem goldIntent_stranded :
    let _ := Unicode.ascii
    (∃ w row, Reach (step {}) always (initial goldAccount) w ∧ w.db.intents.get? 12 = some row ∧ w.Quiet 12 ∧
      row.state = .submitted ∧ w.calls = [(12, goldCall)] ∧ w.unresolved = []) ∧
    ∃ w row, Reach (step {}) always (initial goldAccount) w ∧ w.db.intents.get? 12 = some row ∧ w.Quiet 12 ∧
      row.state = .created ∧ w.calls = [] ∧ w.unresolved = [] := by
  intro _
  have hreach {labels : List WorldLabel} {state : TradeIntentState} {calls : List (Uuid × BrokerCall)}
      (hrun : (run (step {}) (initial goldAccount) labels).bind (fun w => (w.db.intents.get? 12).map fun row =>
        (decide (w.Quiet 12), row.state, w.calls, w.unresolved)) = some (true, state, calls, [])) :
      ∃ w row, Reach (step {}) always (initial goldAccount) w ∧ w.db.intents.get? 12 = some row ∧ w.Quiet 12 ∧
        row.state = state ∧ w.calls = calls ∧ w.unresolved = [] := by
    obtain ⟨w, hw, hrow⟩ := Option.bind_eq_some_iff.mp hrun
    obtain ⟨row, hi, hrow⟩ := Option.map_eq_some_iff.mp hrow
    simp only [Prod.mk.injEq] at hrow
    obtain ⟨hq, hs, hc, hu⟩ := hrow
    exact ⟨w, row, .of_run hw, hi, of_decide_eq_true hq, hs, hc, hu⟩
  exact ⟨@hreach (goldPublished ++ goldCutOff) _ _ (by decide +kernel),
    @hreach (goldPublished ++ goldBusy) _ _ (by decide +kernel)⟩

end

end World

end SignalSync
