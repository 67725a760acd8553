import SignalSync.Execution.World

/-!
# Copied trades of confirmed openings

A confirmed call of an opening commits the intent's `confirmed` and its copied trade
together. Reconciliation commits `confirmed` alone: an opening whose call has timed
out, and whose position is found later, has no trade (`goldIntent_untracked`). Where
no reconciliation finds such an opening, every confirmed opening has its one trade
in every run (`confirmed_opening_tracked`).
-/

namespace SignalSync

open Library

namespace World

/-- A confirmed opening has its trade; the runs on their way know their intent's action. -/
structure Tracked (w : World) : Prop where
  valid : w.stream.Valid
  sessions : w.SessionsLoaded
  pending : w.PendingNew
  calls : ∀ d event phase c, w.InPhase d event phase → phase.call? = some c →
    ∃ p, w.db.intentPayload c.intentId = some p ∧ p.2.context.action = some c.action
  tracked : ∀ id, w.db.intentState id = some .confirmed → w.db.Opens id → (w.db.trades.get? id).isSome

/-- A reconciliation confirms no opening that has no copied trade. -/
def ConfirmsTracked (w : World) : WorldLabel → Prop
  | .handler d .conclude =>
    match w.stream.delivered d with
    | some (⟨_, .handle (.conclude id _ true)⟩, _) => w.db.Opens id → (w.db.trades.get? id).isSome
    | _ => True
  | _ => True

section

variable {w t : World} {a : WorldLabel}

instance (delivered : Option (Delivery ExecutionPhase × StreamEntry ExecutionEvent)) : Decidable (match delivered with
    | some (⟨_, .handle (.conclude id _ true)⟩, _) => w.db.Opens id → (w.db.trades.get? id).isSome
    | _ => True) := by
  split <;> infer_instance

instance : Decidable (w.ConfirmsTracked a) := by
  unfold ConfirmsTracked
  split <;> infer_instance

variable [Unicode] {settings : ExecutionSettings}

theorem calls_payload_of_step (hw : w.Tracked) (h : Step settings w a t) {d : Nat} {event : ExecutionEvent}
    {phase : ExecutionPhase} {c : ExecutionCall} (hp : t.InPhase d event phase) (hc : phase.call? = some c) :
    ∃ p, t.db.intentPayload c.intentId = some p ∧ p.2.context.action = some c.action := by
  have hkeep {d : Nat} {phase : ExecutionPhase} (hp : w.InPhase d event phase) (hc : phase.call? = some c) :
      ∃ p, t.db.intentPayload c.intentId = some p ∧ p.2.context.action = some c.action := by
    obtain ⟨p, hpay, hact⟩ := hw.calls d event phase c hp hc
    exact ⟨p, intentPayload_of_step h hpay, hact⟩
  rcases inPhase_of_step h hw.valid hp with ⟨hp, -⟩ | ⟨rfl, -⟩ | ⟨label, phase₀, r, -, hp₀, hcase, hst, -⟩
  · exact hkeep hp hc
  · obtain ⟨key, payload⟩ := event
    cases payload <;> cases hc
  · rcases hcase.call? hst hc with ⟨hc₀, -⟩ | ⟨s, restored, _, _, _, rfl, -, -, -, hid, hact, -⟩
    · exact hkeep hp₀ hc₀
    · obtain ⟨-, hpay⟩ := hw.sessions d event _ _ hp₀ rfl
      exact ⟨_, hid ▸ intentPayload_of_step h hpay, hact⟩

/-- What a step of the handler confirms has its trade. -/
theorem tracked_of_handler (hw : w.Tracked) {d i : Nat} {phase : ExecutionPhase} {e : StreamEntry ExecutionEvent}
    {label : HandlerLabel} {r : HandlerStep} (hd : w.stream.delivered d = some (⟨i, .handle phase⟩, e))
    (hc : HandlerCase d w.stream.now w.db phase label r) (hok : w.ConfirmsTracked (.handler d label)) {id : Uuid}
    (hs : r.db.intentState id = some .confirmed) (ho : w.db.Opens id) : (r.db.trades.get? id).isSome := by
  have hkeep (hs : w.db.intentState id = some .confirmed) : (r.db.trades.get? id).isSome :=
    hc.trade_isSome (hw.tracked id hs ho)
  have hwrites {id' : Uuid} {loaded new : TradeIntent} (hn : new.state ≠ .confirmed) (h : r.Writes w.db id' loaded new) :
      (r.db.trades.get? id).isSome := by
    rcases h.intentState_cases hs with hs | ⟨-, hn'⟩
    · exact hkeep hs
    · exact absurd hn' hn
  have hsame (h : r.db.intents = w.db.intents) : (r.db.trades.get? id).isSome :=
    hkeep (by rwa [Database.intentState_of_intents h] at hs)
  cases hc with
  | raise _ _ hk | ignore _ hk | skip _ hk | load _ _ _ _ hk | advance _ _ _ _ hk | look _ _ hk | find _ hk => exact hsame hk.intents
  | call _ hdb | publish _ hdb => exact hsame (hdb ▸ rfl)
  | close _ hi => exact hsame hi
  | reject _ hn h | retryable _ hn h | submit _ hn _ _ h | reconcile hn h => exact hwrites (by rw [hn]; nofun) h
  | settle h _ hst => rcases hst with ⟨hn, -⟩ | ⟨hn, -⟩ <;> exact hwrites (by rw [hn]; nofun) h
  | @confirm c _ _ _ _ _ _ h hn _ hopen =>
    rcases h.intentState_cases hs with hs | ⟨rfl, -⟩
    · exact hkeep hs
    · -- the action of the call is the stored intent's
      obtain ⟨p, hpay, hact⟩ := hw.calls d e.event _ c ⟨i, e, hd, rfl⟩ rfl
      rw [Database.Opens, hpay, Option.any_some, hact, Option.any_some] at ho
      exact hopen ho
  | @conclude id' _ _ found _ hn h ht =>
    rcases hn with ⟨hn, rfl⟩ | hn | hn
    · rcases h.intentState_cases hs with hs | ⟨rfl, -⟩
      · exact hkeep hs
      · rw [ConfirmsTracked, hd] at hok
        rw [ht]
        exact hok ho
    · exact hwrites (by rw [hn]; nofun) h
    · exact hwrites (by rw [hn]; nofun) h

theorem Tracked.step (hw : w.Tracked) (h : Step settings w a t) (hok : w.ConfirmsTracked a) : t.Tracked := by
  refine ⟨valid_of_step h hw.valid, hw.sessions.step hw.valid h, hw.pending.step h,
    fun d event phase c hp hc => calls_payload_of_step hw h hp hc, fun id hs ho => ?_⟩
  cases h with
  | handler hd hc =>
    rw [after_db] at hs ho ⊢
    exact tracked_of_handler hw hd hc hok hs (by rwa [Database.Opens, hc.intentPayload] at ho)
  | @commitIntent id' row intents hp hi =>
    rw [Database.intentState, Table.get?_push hi] at hs
    rw [Database.Opens, Database.intentPayload, Table.get?_push hi] at ho
    split at hs
    · -- a new intent is not confirmed
      obtain ⟨hnew, -⟩ := hw.pending _ hp
      cases (hnew.symm.trans (Option.some.inj hs))
    · rename_i hne
      rw [if_neg hne] at ho
      exact hw.tracked id hs ho
  | database _ hi ht =>
    rw [Database.intentState_of_intents hi] at hs
    rw [Database.Opens, Database.intentPayload_of_intents hi] at ho
    rw [ht]
    exact hw.tracked id hs ho
  | stream | publishIntent | rollbackIntent | publish | sweep => exact hw.tracked id hs ho

omit [Unicode] in
theorem tracked_initial (db : Database) : (initial db).Tracked where
  valid := fun x hx => by cases hx
  sessions := fun d event phase _ hp => absurd hp (not_inPhase_initial db d event phase)
  pending := fun e he => by cases he
  calls := fun d event phase _ hp => absurd hp (not_inPhase_initial db d event phase)
  tracked := fun id hs => by cases hs

/-- In a run in which no reconciliation confirms an opening that has no copied trade,
every confirmed opening has exactly one. -/
theorem confirmed_opening_tracked {db : Database} (h : Reach (step settings) ConfirmsTracked (initial db) w) {id : Uuid}
    {row : TradeIntent} (hi : w.db.intents.get? id = some row) (ho : row.requestPayload.context.action.any SignalAction.isOpening)
    (hs : row.state = .confirmed) : (w.db.trades.select fun intentId _ => intentId = id).length = 1 := by
  have hw := h.invariant (tracked_initial db) fun _ _ _ ht hok hu => ht.step (step_cases hu) hok
  refine Table.length_select_key (hw.tracked id ?_ ?_)
  · rw [Database.intentState, hi, ← hs]
    rfl
  · rw [Database.Opens, Database.intentPayload, hi]
    exact ho

omit [Unicode] in
/-- A confirmed call. -/
theorem confirmed_opening_tracked_goldIntent :
    let _ := Unicode.ascii
    ∃ w row, Reach (step {}) ConfirmsTracked (initial goldAccount) w ∧ w.db.intents.get? 12 = some row ∧
      row.state = .confirmed ∧ (w.db.trades.select fun intentId _ => intentId = 12).length = 1 := by
  intro _
  have hrun : (runIf (step {}) ConfirmsTracked (initial goldAccount) (goldPublished ++ [.handler 0 (.load true)] ++
      goldSubmitted 0 (seconds 101) (.ok { positionId := some "1" }) ++ goldSettled 0)).bind (fun w =>
        (w.db.intents.get? 12).map fun row => (row.state, row.requestPayload.context.action.any SignalAction.isOpening)) =
      some (.confirmed, true) := by decide +kernel
  obtain ⟨w, hw, hrow⟩ := Option.bind_eq_some_iff.mp hrun
  obtain ⟨row, hi, hrow⟩ := Option.map_eq_some_iff.mp hrow
  obtain ⟨hs, ho⟩ := Prod.mk.inj hrow
  have h := Reach.of_runIf hw
  exact ⟨w, row, h, hi, hs, confirmed_opening_tracked h hi ho hs⟩

/-- Delivery `d` reconciles. -/
def goldReconciled (d : Nat) (found : Bool) : List WorldLabel :=
  [.stream .read, .stream (.start d), .handler d .reconcile, .handler d .mark, .handler d (.find (.ok found)), .handler d .conclude]

omit [Unicode] in
/-- The call times out, and the position it has opened is found by its client id. -/
theorem goldIntent_untracked :
    let _ := Unicode.ascii
    ∃ w row, Reach (step {}) always (initial goldAccount) w ∧ w.db.intents.get? 12 = some row ∧
      row.requestPayload.context.action = some .open_market ∧ row.state = .confirmed ∧ w.calls = [(12, goldCall)] ∧
      w.db.trades.get? 12 = none := by
  intro _
  have hrun : (run (step {}) (initial goldAccount) (goldPublished ++ [.handler 0 (.load true)] ++
      goldSubmitted 0 (seconds 101) (.error { name := "TimeoutError", isOs := true }) ++ [.handler 0 .settle, .handler 0 .publish] ++
      goldReconciled 1 true)).bind (fun w => (w.db.intents.get? 12).map fun row =>
        (row.requestPayload.context.action, row.state, w.calls, (w.db.trades.get? 12).isNone)) =
      some (some .open_market, .confirmed, [(12, goldCall)], true) := by decide +kernel
  obtain ⟨w, hw, hrow⟩ := Option.bind_eq_some_iff.mp hrun
  obtain ⟨row, hi, hrow⟩ := Option.map_eq_some_iff.mp hrow
  simp only [Prod.mk.injEq] at hrow
  obtain ⟨ha, hs, hc, ht⟩ := hrow
  exact ⟨w, row, .of_run hw, hi, ha, hs, hc, Option.isNone_iff_eq_none.mp ht⟩

end

end World

end SignalSync
