import SignalSync.Copying.State
import SignalSync.Execution.Outcome

/-!
# Closes and older openings

A close is worked out from the copied trades there are when it is handled; an
opening of its conversation that has not been executed by then is neither closed
nor dropped, and opens afterwards (`secondLeg_opens_after_close`). Where no older
opening is left to be submitted when a close is handled, and none comes later,
none is submitted after it (`close_not_overtaken`).

* `HandlerCase.calls`: the broker is called for an intent only by a run on its way;
* `InOrder.step`: the openings older than a handled close are past their submission.
-/

namespace SignalSync

open Library

/-- The intent that a run may still submit to the broker. -/
def ExecutionPhase.submits : ExecutionPhase → Option Uuid
  | .bar id _ => some id
  | .acquire s | .gate s => some s.intentId
  | .connect s | .prepare s _ => some s.intentId
  | .call c => some c.intentId
  | _ => none

theorem ExecutionPhase.submits_cases {phase : ExecutionPhase} {id : Uuid} (h : phase.submits = some id) :
    (∃ x, phase.session = some x ∧ x.1 = id) ∨ ∃ c, phase = .call c ∧ c.intentId = id := by
  cases phase with
  | bar | acquire | gate | connect | prepare => cases h; exact .inl ⟨_, rfl, rfl⟩
  | call c => cases h; exact .inr ⟨c, rfl, rfl⟩
  | _ => cases h

theorem ExecutionPhase.submits_of_session {phase : ExecutionPhase} {x : Uuid × TradeIntent} (h : phase.session = some x) :
    phase.submits = some x.1 := by
  cases phase <;> cases h <;> rfl

instance (db : Database) (id : Uuid) : Decidable (db.Settled id) :=
  decidable_of_iff ((db.intentState id).any fun state => !state.isExecutable) (by
    simp only [Option.any_eq_true, Bool.not_eq_true', Database.Settled])

/-- An opening intent of the close's conversation and route, from an earlier message. -/
def Database.OpenedBefore (db : Database) (c : Close) (id : Uuid) : Prop :=
  (db.intentPayload id).any fun p => p.2.conversationId = c.conversationId && p.1.routeId = c.routeId &&
    p.1.action.isOpening && p.1.messageId < c.messageId

instance (db : Database) (c : Close) (id : Uuid) : Decidable (db.OpenedBefore c id) := inferInstanceAs (Decidable (_ = _))

section

variable [Unicode] {run : Nat} {now : Time} {db : Database} {phase : ExecutionPhase} {label : HandlerLabel} {h : HandlerStep}
  {id : Uuid}

/-! ## A run of the execution handler -/

/-- The broker is called for an intent only by a run on its way. -/
theorem HandlerCase.calls (hc : HandlerCase run now db phase label h) (hp : phase.submits ≠ some id) : ∀ x ∈ h.call, x.1 ≠ id := by
  have hnone (he : h.call = none) : ∀ x ∈ h.call, x.1 ≠ id := by
    rw [he]
    exact fun _ h => by cases h
  cases hc with
  | raise _ _ hk | ignore _ hk | skip _ hk | load _ _ _ _ hk | advance _ _ _ _ hk | look _ _ hk | find _ hk => exact hnone hk.call
  | reject _ _ hw | retryable _ _ hw | submit _ _ _ _ hw | settle hw | confirm hw | reconcile _ hw | conclude _ hw => exact hnone hw.call
  | publish _ _ he | close _ _ _ he => exact hnone he
  | call _ _ hx => exact fun x hm he => hp (congrArg some ((hx x hm).symm.trans he))

/-- A settled intent that the run may not submit stays settled. -/
theorem HandlerCase.settled_of_submits (hc : HandlerCase run now db phase label h) (hp : phase.submits ≠ some id)
    (hs : db.Settled id) : h.db.Settled id := by
  have hkeep (hi : h.db.intents = db.intents) : h.db.Settled id := by
    rw [Database.Settled, Database.intentState_of_intents hi]
    exact hs
  have hother {id' : Uuid} {loaded new : TradeIntent} (hw : h.Writes db id' loaded new) (hne : id ≠ id') : h.db.Settled id := by
    rw [Database.Settled, hw.intentState, if_neg hne]
    exact hs
  cases hc with
  | raise _ _ hk | ignore _ hk | skip _ hk | load _ _ _ _ hk | advance _ _ _ _ hk | look _ _ hk | find _ hk => exact hkeep hk.intents
  | call _ hd | publish _ hd => exact hkeep (hd ▸ rfl)
  | close _ hi => exact hkeep hi
  | reject _ hn hw | confirm hw hn | reconcile hn hw => exact hw.settled (by rw [hn]; rfl) hs
  | retryable _ _ hw | submit _ _ _ _ hw => exact hother hw fun he => hp (congrArg some he.symm)
  | settle hw _ hst => refine hw.settled ?_ hs; rcases hst with ⟨hn, -⟩ | ⟨hn, -⟩ <;> rw [hn] <;> rfl
  | conclude hn hw => refine hw.settled ?_ hs; rcases hn with ⟨hn, -⟩ | hn | hn <;> rw [hn] <;> rfl

/-- A run comes to submit an intent only by loading it while it is executable. -/
theorem HandlerCase.submits (hc : HandlerCase run now db phase label h) (hp : phase.submits ≠ some id) (hs : db.Settled id)
    {phase' : ExecutionPhase} (hst : h.stage = .handle phase') : phase'.submits ≠ some id := by
  intro hp'
  rcases ExecutionPhase.submits_cases hp' with ⟨x, hx, rfl⟩ | ⟨c, rfl, rfl⟩
  · rcases hc.session hst hx with hx₀ | ⟨-, hi, he⟩
    · exact hp (ExecutionPhase.submits_of_session hx₀)
    · exact hs.not_executable ⟨_, by rw [Database.intentState, hi]; rfl, he⟩
  · rcases hc.call? hst rfl with ⟨-, hne⟩ | ⟨s, restored, view, pending, new, rfl, -, -, -, hid, -⟩
    · exact hne c rfl
    · exact hp (congrArg some hid.symm)

end

namespace World

/-- The intent that the run of a delivery may still submit. -/
def submittedBy (w : World) (d : Nat) : Option Uuid :=
  match w.stream.delivered d with
  | some (⟨_, .handle phase⟩, _) => phase.submits
  | _ => none

/-- An intent that is past its submission: settled, and no run may still submit it. -/
structure PastSubmission (w : World) (id : Uuid) : Prop where
  settled : w.db.Settled id
  noRun : ∀ d < w.stream.deliveries.length, w.submittedBy d ≠ some id

instance (w : World) (id : Uuid) : Decidable (w.PastSubmission id) :=
  decidable_of_iff (w.db.Settled id ∧ ∀ d ∈ List.range w.stream.deliveries.length, w.submittedBy d ≠ some id)
    ⟨fun ⟨hs, hn⟩ => ⟨hs, fun d hd => hn d (List.mem_range.mpr hd)⟩, fun h => ⟨h.settled, fun d hd => h.noRun d (List.mem_range.mp hd)⟩⟩

theorem submittedBy_eq_some {w : World} {d : Nat} {id : Uuid} :
    w.submittedBy d = some id ↔ ∃ event phase, w.InPhase d event phase ∧ phase.submits = some id := by
  unfold submittedBy
  constructor
  · intro h
    split at h
    · rename_i i phase e hd
      exact ⟨e.event, phase, ⟨i, e, hd, rfl⟩, h⟩
    · cases h
  · rintro ⟨event, phase, ⟨i, e, hd, -⟩, h⟩
    rw [hd]
    exact h

theorem PastSubmission.submits {w : World} {id : Uuid} (h : w.PastSubmission id) {d : Nat} {event : ExecutionEvent}
    {phase : ExecutionPhase} (hp : w.InPhase d event phase) : phase.submits ≠ some id := by
  intro hs
  obtain ⟨i, e, hd, -⟩ := hp
  refine h.noRun d (List.getElem?_eq_some_iff.mp (StreamState.delivered_eq_some.1 hd).1).1 ?_
  exact submittedBy_eq_some.2 ⟨e.event, phase, ⟨i, e, hd, rfl⟩, hs⟩

theorem pastSubmission_of {w : World} {id : Uuid} (hs : w.db.Settled id)
    (h : ∀ d event phase, w.InPhase d event phase → phase.submits ≠ some id) : w.PastSubmission id where
  settled := hs
  noRun := fun d _ hd => by
    obtain ⟨event, phase, hp, hs⟩ := submittedBy_eq_some.1 hd
    exact h d event phase hp hs

variable [Unicode] {settings : ExecutionSettings} {w t : World} {a : WorldLabel} {id : Uuid}

/-- No step submits an intent that is past its submission, or brings it back. -/
theorem PastSubmission.step (hp : w.PastSubmission id) (hv : w.stream.Valid) (ha : a.isExecution) (h : Step settings w a t) :
    t.PastSubmission id ∧ ∃ calls, t.calls = w.calls ++ calls ∧ ∀ x ∈ calls, x.1 ≠ id := by
  have hruns (hs : t.db.Settled id) : t.PastSubmission id := by
    refine pastSubmission_of hs fun d event phase hph => ?_
    rcases inPhase_of_step h hv hph with ⟨hph₀, -⟩ | ⟨rfl, -⟩ | ⟨label, phase₀, r, -, hph₀, hc, hst, -⟩
    · exact hp.submits hph₀
    · obtain ⟨key, payload⟩ := event
      cases payload <;> exact fun h => by cases h
    · exact hc.submits (hp.submits hph₀) hp.settled hst
  have hquiet (hi : t.db.intents = w.db.intents) (hcalls : t.calls = w.calls) :
      t.PastSubmission id ∧ ∃ calls, t.calls = w.calls ++ calls ∧ ∀ x ∈ calls, x.1 ≠ id := by
    refine ⟨hruns ?_, [], by rw [hcalls, List.append_nil], fun x hx => by cases hx⟩
    rw [Database.Settled, Database.intentState_of_intents hi]
    exact hp.settled
  cases h with
  | @handler d i phase e label r hd hc =>
    have hph : w.InPhase d e.event phase := ⟨i, e, hd, rfl⟩
    refine ⟨hruns ?_, r.call.toList, after_calls .., fun x hx => hc.calls (hp.submits hph) x (Option.mem_toList.mp hx)⟩
    rw [after_db]
    exact hc.settled_of_submits (hp.submits hph) hp.settled
  | database _ hi => exact hquiet hi rfl
  | stream | publish | sweep => exact hquiet rfl rfl
  | publishIntent | commitIntent | rollbackIntent => cases ha

/-- The execution side adds no intent and changes no payload. -/
theorem intentPayload_of_execution (ha : a.isExecution) (h : Step settings w a t) : t.db.intentPayload id = w.db.intentPayload id := by
  cases h with
  | handler hd hc => rw [after_db, hc.intentPayload]
  | database _ hi => exact Database.intentPayload_of_intents hi
  | stream | publish | sweep => rfl
  | publishIntent | commitIntent | rollbackIntent => cases ha

end World

namespace CopyState

variable [Unicode] {settings : ExecutionSettings}

/-! ## Runs -/

/-- A message older than the close is taken into its conversation and route as an
opening. -/
def opensBehind (env : SignalEnv) (event : MessageEvent) (db : Database) (c : Close) : Bool :=
  match prepare env event db with
  | .error _ => false
  | .ok loop =>
    event.messageId < c.messageId && loop.conversationId = c.conversationId && loop.routes.any fun e =>
      e.1 = c.routeId && match routeSignal env event loop.parsed loop.update loop.conversationId loop.conversation e.1 e.2
          (loop.db.routeView env.run loop.conversationId e.1 e.2) with
        | .ok signal => signal.action.isOpening
        | .error _ => false

/-- When a close is handled, every older opening is past its submission; and no
older opening comes after a close. -/
def ClosesInOrder (s : CopyState) : CopyLabel → Prop
  | .message env event =>
    (∀ c ∈ closesOf env event s.db, ∀ e ∈ s.db.intents.entries, s.db.OpenedBefore c e.1 → s.world.PastSubmission e.1) ∧
      ∀ c ∈ s.closes, opensBehind env event s.db c = false
  | _ => True

instance (s : CopyState) (a : CopyLabel) : Decidable (s.ClosesInOrder a) := by
  unfold ClosesInOrder
  split <;> infer_instance

/-- The openings older than a handled close are past their submission. -/
structure InOrder (s : CopyState) : Prop where
  valid : s.world.stream.Valid
  past : ∀ c ∈ s.closes, ∀ id, s.db.OpenedBefore c id → s.world.PastSubmission id

variable {s t : CopyState} {a : CopyLabel} {c : Close} {id : Uuid}

omit [Unicode] in
theorem openedBefore_iff {db : Database} : db.OpenedBefore c id ↔ ∃ row, db.intents.get? id = some row ∧
    row.requestPayload.conversationId = c.conversationId ∧ row.idempotencyKey.routeId = c.routeId ∧
      row.idempotencyKey.action.isOpening ∧ row.idempotencyKey.messageId < c.messageId := by
  rw [Database.OpenedBefore, Database.intentPayload]
  cases db.intents.get? id <;> simp [and_assoc]

omit [Unicode] in
theorem openedBefore_congr {db db' : Database} (h : db'.intentPayload id = db.intentPayload id) :
    db'.OpenedBefore c id ↔ db.OpenedBefore c id := by
  rw [Database.OpenedBefore, Database.OpenedBefore, h]

theorem closesOf_messageId {env : SignalEnv} {event : MessageEvent} {db : Database} (hc : c ∈ closesOf env event db) :
    c.messageId = event.messageId := by
  unfold closesOf at hc
  split at hc
  · cases hc
  · split at hc
    · obtain ⟨e, -, rfl⟩ := List.mem_map.mp hc
      rfl
    · cases hc

/-- What a run of the signal handler adds is no opening older than the message, and
none behind a close. -/
theorem openedBefore_of_message {env : SignalEnv} {event : MessageEvent} {db db' : Database} {keys : SemanticKeys} {r : DeliveryResult}
    (hr : (signalHandler env event db keys).result = .ok (r, db'))
    (hc : event.messageId < c.messageId → opensBehind env event db c = false) (ho : db'.OpenedBefore c id) : db.OpenedBefore c id := by
  obtain ⟨row, hrow, hconv, hroute, hopen, hlt⟩ := openedBefore_iff.1 ho
  rcases (signalHandler_intents hr).2 hrow with hold | ⟨loop, signal, e, hp, he, hs, hact, hfor⟩
  · exact openedBefore_iff.2 ⟨row, hold, hconv, hroute, hopen, hlt⟩
  · have haction := Option.some.inj (hfor.action.trans hact.symm)
    have hmessage := hfor.message
    simp only at hmessage haction
    have hbehind : opensBehind env event db c = true := by
      simp only [opensBehind, hp, Bool.and_eq_true, decide_eq_true_eq, List.any_eq_true]
      refine ⟨⟨hmessage ▸ hlt, hfor.conversation.symm.trans hconv⟩, e, he, hfor.route.symm.trans hroute, ?_⟩
      rw [hs]
      rw [haction] at hopen
      exact hopen
    rw [hc (hmessage ▸ hlt)] at hbehind
    cases hbehind

omit [Unicode] in
/-- A message leaves an intent past its submission there. -/
theorem Received.pastSubmission {db : Database} {closes : List Close} (h : Received s db closes t) (hv : s.world.stream.Valid)
    (hdb : ∀ row, s.db.intents.get? id = some row → db.intents.get? id = some row) (hp : s.world.PastSubmission id) :
    t.world.PastSubmission id := by
  refine World.pastSubmission_of ?_ fun d event phase hph => hp.submits ((h.inPhase hv).mp hph)
  obtain ⟨state, hst, he⟩ := hp.settled
  obtain ⟨row, hrow, rfl⟩ := Option.map_eq_some_iff.mp hst
  refine ⟨row.state, ?_, he⟩
  have hdb' : t.world.db = db := h.db
  rw [Database.intentState, hdb', hdb row hrow]
  rfl

theorem closes_of_step (h : Step settings s a t) (hc : c ∈ s.closes) : c ∈ t.closes := by
  cases h with
  | message _ ht | fails ht =>
    rw [ht.closes]
    exact List.mem_append_left _ hc
  | execution | expire | outside => exact hc

theorem openedBefore_of_step (h : Step settings s a t) (hok : s.ClosesInOrder a) (hc : c ∈ s.closes)
    (ho : t.db.OpenedBefore c id) : s.db.OpenedBefore c id := by
  cases h with
  | message hr ht =>
    rw [ht.db] at ho
    exact openedBefore_of_message hr (fun _ => hok.2 c hc) ho
  | fails ht => rwa [ht.db] at ho
  | execution ha hw => exact (openedBefore_congr (World.intentPayload_of_execution ha (World.step_cases hw))).mp ho
  | expire => exact ho
  | outside hi => exact (openedBefore_congr (Database.intentPayload_of_intents hi)).mp ho

/-- A step calls the broker for no opening older than a handled close. -/
theorem InOrder.calls (hs : s.InOrder) (h : Step settings s a t) (hok : s.ClosesInOrder a) (hc : c ∈ s.closes)
    (ho : t.db.OpenedBefore c id) : ∃ calls, t.world.calls = s.world.calls ++ calls ∧ ∀ x ∈ calls, x.1 ≠ id := by
  have hpast := hs.past c hc id (openedBefore_of_step h hok hc ho)
  have hnone (he : t.world.calls = s.world.calls) : ∃ calls, t.world.calls = s.world.calls ++ calls ∧ ∀ x ∈ calls, x.1 ≠ id :=
    ⟨[], by rw [he, List.append_nil], fun x hx => by cases hx⟩
  cases h with
  | message _ ht | fails ht => exact hnone ht.calls
  | execution ha hw => exact (hpast.step hs.valid ha (World.step_cases hw)).2
  | expire | outside => exact hnone rfl

theorem InOrder.step (hs : s.InOrder) (h : Step settings s a t) (hok : s.ClosesInOrder a) : t.InOrder := by
  refine ⟨valid_of_step h hs.valid, fun c hc id ho => ?_⟩
  have hbefore (hc : c ∈ s.closes) : s.world.PastSubmission id := hs.past c hc id (openedBefore_of_step h hok hc ho)
  cases h with
  | message hr ht =>
    have hkeep (hp : s.world.PastSubmission id) := ht.pastSubmission hs.valid (fun row => (signalHandler_intents hr).1) hp
    rw [ht.closes] at hc
    rcases List.mem_append.mp hc with hc | hc
    · exact hkeep (hbefore hc)
    · rw [ht.db] at ho
      have ho₀ := openedBefore_of_message hr (fun hlt => by rw [closesOf_messageId hc] at hlt; omega) ho
      obtain ⟨row, hrow, -⟩ := openedBefore_iff.1 ho₀
      exact hkeep (hok.1 c hc (id, row) (Table.get?_eq_some.1 hrow) ho₀)
  | fails ht =>
    rw [ht.closes, List.append_nil] at hc
    exact ht.pastSubmission hs.valid (fun _ h => h) (hbefore hc)
  | execution ha hw => exact ((hbefore hc).step hs.valid ha (World.step_cases hw)).1
  | expire =>
    refine World.pastSubmission_of ?_ fun d event phase hph => (hbefore hc).submits hph
    exact (hbefore hc).settled
  | outside hi =>
    refine World.pastSubmission_of ?_ fun d event phase hph => (hbefore hc).submits hph
    rw [Database.Settled, Database.intentState_of_intents hi]
    exact (hbefore hc).settled

omit [Unicode] in
theorem inOrder_initial (db : Database) : (initial db).InOrder where
  valid := fun x hx => by cases hx
  past := fun c hc => by cases hc

/-- In a run whose closes are in order, no opening older than a handled close is
submitted to the broker after it. -/
theorem close_not_overtaken {db : Database} (h : Reach (step settings) ClosesInOrder (initial db) s) (hc : c ∈ s.closes)
    (ht : Reach (step settings) ClosesInOrder s t) (ho : t.db.OpenedBefore c id) :
    ∃ calls, t.world.calls = s.world.calls ++ calls ∧ ∀ x ∈ calls, x.1 ≠ id := by
  have hs : s.InOrder := h.invariant (inOrder_initial db) fun _ _ _ hs hok h => hs.step (step_cases h) hok
  have hrun : t.InOrder ∧ c ∈ t.closes ∧ ∀ id, t.db.OpenedBefore c id →
      ∃ calls, t.world.calls = s.world.calls ++ calls ∧ ∀ x ∈ calls, x.1 ≠ id := by
    refine Reach.invariant (P := fun u : CopyState => u.InOrder ∧ c ∈ u.closes ∧ ∀ id, u.db.OpenedBefore c id →
      ∃ calls, u.world.calls = s.world.calls ++ calls ∧ ∀ x ∈ calls, x.1 ≠ id) ht ⟨hs, hc, fun id _ => ?_⟩ fun u a v hu hok huv => ?_
    · exact ⟨[], (List.append_nil _).symm, fun x hx => by cases hx⟩
    · obtain ⟨hu, hcu, hcalls⟩ := hu
      have huv := step_cases huv
      refine ⟨hu.step huv hok, closes_of_step huv hcu, fun id ho => ?_⟩
      obtain ⟨before, hb, hbn⟩ := hcalls id (openedBefore_of_step huv hok hcu ho)
      obtain ⟨now, hn, hnn⟩ := hu.calls huv hok hcu ho
      refine ⟨before ++ now, by rw [hn, hb, List.append_assoc], fun x hx => ?_⟩
      exact (List.mem_append.mp hx).elim (hbn x) (hnn x)
  exact hrun.2.2 id ho

/-! ## Two legs -/

/-- What the parser reads from `Close all`. -/
def closeAll : AiAction where
  action := .full_close
  confidence := 1

/-- The message after `goldMessage`. -/
def goldClose : MessageEvent :=
  { goldMessage with messageId := 12, correlationId := 16, text := "Close all" }

def goldClosed : List CopyLabel := [.message (goldEnv 1 (seconds 101) closeAll) goldClose]

omit [Unicode] in
/-- The opening is executed before the close, and the close after it. -/
theorem close_not_overtaken_goldMessage :
    let _ := Unicode.ascii
    ∃ s t, Reach (step {}) ClosesInOrder (initial World.goldAccount) s ∧ ⟨.conversation 0, 4, 12⟩ ∈ s.closes ∧
      Reach (step {}) ClosesInOrder s t ∧ t.db.OpenedBefore ⟨.conversation 0, 4, 12⟩ (.intent 0 4 0 0) ∧
      ∃ calls, t.world.calls = s.world.calls ++ calls ∧ ∀ x ∈ calls, x.1 ≠ .intent 0 4 0 0 := by
  intro _
  have hrun : (runIf (step {}) ClosesInOrder (initial World.goldAccount)
      (goldReceived buyGold ++ goldExecuted 0 ++ goldClosed)).bind (fun s =>
        (runIf (step {}) ClosesInOrder s (goldExecuted 1)).map fun t =>
          decide (⟨.conversation 0, 4, 12⟩ ∈ s.closes ∧ t.db.OpenedBefore ⟨.conversation 0, 4, 12⟩ (.intent 0 4 0 0))) =
      some true := by decide +kernel
  obtain ⟨s, hs, hr⟩ := Option.bind_eq_some_iff.mp hrun
  obtain ⟨t, ht, hd⟩ := Option.map_eq_some_iff.mp hr
  obtain ⟨hc, ho⟩ := of_decide_eq_true hd
  exact ⟨s, t, .of_runIf hs, hc, .of_runIf ht, ho, close_not_overtaken (.of_runIf hs) hc (.of_runIf ht) ho⟩

omit [Unicode] in
/-- `BUY XAUUSD SL 2390 TP 2410 TP 2420` makes two intents. The first is executed, then
the close is handled, and then the second one is submitted. -/
theorem secondLeg_opens_after_close :
    let _ := Unicode.ascii
    ∃ s t, Reach (step {}) always (initial World.goldAccount) s ∧ ⟨.conversation 0, 4, 12⟩ ∈ s.closes ∧
      Reach (step {}) always s t ∧ t.db.OpenedBefore ⟨.conversation 0, 4, 12⟩ (.intent 0 4 1 0) ∧
      (∀ x ∈ s.world.calls, x.1 ≠ .intent 0 4 1 0) ∧ ∃ x ∈ t.world.calls, x.1 = .intent 0 4 1 0 := by
  intro _
  have hrun : (run (step {}) (initial World.goldAccount)
      (goldReceived { buyGold with takeProfits := [2410, 2420] } ++ goldExecuted 0 ++ goldClosed)).bind (fun s =>
        (run (step {}) s (goldExecuted 1)).map fun t =>
          decide (⟨.conversation 0, 4, 12⟩ ∈ s.closes ∧ t.db.OpenedBefore ⟨.conversation 0, 4, 12⟩ (.intent 0 4 1 0) ∧
            (∀ x ∈ s.world.calls, x.1 ≠ .intent 0 4 1 0) ∧ ∃ x ∈ t.world.calls, x.1 = .intent 0 4 1 0)) =
      some true := by decide +kernel
  obtain ⟨s, hs, hr⟩ := Option.bind_eq_some_iff.mp hrun
  obtain ⟨t, ht, hd⟩ := Option.map_eq_some_iff.mp hr
  obtain ⟨hc, ho, hbefore, hafter⟩ := of_decide_eq_true hd
  exact ⟨s, t, .of_run hs, hc, .of_run ht, ho, hbefore, hafter⟩

end CopyState

end SignalSync
