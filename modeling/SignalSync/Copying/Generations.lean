import SignalSync.Copying.State
import SignalSync.Execution.Outcome

/-!
# The end of a generation

A generation is submitted with its first intent, and should be completed or failed
once its opening intents have their outcomes. No step of the signal or of the
execution side writes `completed` or `failed` (`Unfinished.step`), so none ever is
(`generation_never_finishes`).

* `handlerStep_assemblies`: the execution handler leaves the generations alone.
-/

namespace SignalSync

open Library

section

variable [Unicode] {settings : ExecutionSettings} {run : Nat} {now : Time} {lockFree : Option Uuid → Bool} {db : Database}
  {phase : ExecutionPhase} {label : HandlerLabel} {h : HandlerStep}

/-! ## The execution side -/

omit [Unicode] in
@[simp] theorem PendingWrites.apply_assemblies (p : PendingWrites) (db : Database) : (p.apply db).assemblies = db.assemblies := by
  unfold apply
  split <;> split <;> rfl

theorem emergencyStep_assemblies {request : EmergencyRequest} {id : Uuid} {rest : List Uuid}
    (hs : emergencyStep lockFree db request id rest label = some h) : h.db.assemblies = db.assemblies := by
  unfold emergencyStep at hs
  dsimp only at hs
  split at hs
  · cases hs
  · split at hs
    · cases hs; rfl
    · cases hs; rfl
    · split at hs <;> cases hs
      rfl
    · split at hs <;> cases hs
      rfl
    · cases hs

theorem handlerStep_assemblies (hs : handlerStep settings run now lockFree db phase label = some h) :
    h.db.assemblies = db.assemblies := by
  unfold handlerStep at hs
  split at hs
  · cases hs
    unfold loadStep
    split
    · rfl
    · split
      · rfl
      · split <;> rfl
  · cases hs; rfl
  · split at hs <;> cases hs
    rfl
  · cases hs; rfl
  · cases hs
    unfold gateStep
    dsimp only
    split
    · rfl
    · split <;> rfl
  · cases hs
    unfold connectStep
    split <;> rfl
  · cases hs
    unfold prepareStep
    split
    · rfl
    · exact PendingWrites.apply_assemblies ..
    · exact PendingWrites.apply_assemblies ..
  · obtain ⟨loaded, -, rfl⟩ := Option.map_eq_some_iff.mp hs
    dsimp only
    split <;> rfl
  · cases hs
    unfold settleStep
    dsimp only
    split
    · split <;> rfl
    · split <;> rfl
  · obtain ⟨intent, -, rfl⟩ := Option.map_eq_some_iff.mp hs
    rfl
  · cases hs
    unfold reconcileStep
    split
    · rfl
    · split
      · rfl
      · split <;> rfl
  · cases hs; rfl
  · unfold findStep at hs
    split at hs
    · cases hs; rfl
    · obtain ⟨loaded, -, rfl⟩ := Option.map_eq_some_iff.mp hs
      rfl
  · cases hs; rfl
  · cases hs; rfl
  · cases hs; rfl
  · exact emergencyStep_assemblies hs
  · cases hs

theorem assemblies_of_step {w t : World} {a : WorldLabel} (ha : a.isExecution) (hs : w.step settings a = some t) :
    t.db.assemblies = w.db.assemblies := by
  cases a with
  | handler d label =>
    simp only [World.step] at hs
    split at hs
    · obtain ⟨h, hh, rfl⟩ := Option.map_eq_some_iff.mp hs
      rw [World.after_db]
      exact handlerStep_assemblies hh
    · cases hs
  | snapshot view =>
    obtain ⟨db, hdb, rfl⟩ := Option.map_eq_some_iff.mp hs
    unfold reconcileCopiedTrades at hdb
    split at hdb <;> cases hdb
    rfl
  | stream l =>
    cases l with
    | publish event => cases hs
    | read | claim | start | startFails | conclude | acknowledge | crash | tick =>
      simp only [World.step] at hs
      obtain ⟨s, -, rfl⟩ := Option.map_eq_some_iff.mp hs
      rfl
  | publishAgain i =>
    obtain ⟨e, -, rfl⟩ := Option.map_eq_some_iff.mp hs
    rfl
  | replay n =>
    simp only [World.step] at hs
    split at hs
    · split at hs <;> cases hs
      rfl
    · cases hs
  | emergency request => cases hs; rfl
  | sweep => cases hs; rfl
  | publishUnresolved k =>
    simp only [World.step] at hs
    split at hs <;> cases hs
    rfl
  | publishIntent | commitIntent | rollbackIntent | outside => cases ha

/-! ## The signal side -/

/-- No generation is completed or failed. -/
def Unfinished (db : Database) : Prop := ∀ id a, db.assemblies.get? id = some a → a.state.isFinished = false

variable {env : SignalEnv} {event : MessageEvent}

theorem planRoute_unfinished {parsed : AiAction} {update : Context} {conversationId : Uuid} {conversation : SignalConversation}
    {routeId : Uuid} {route : CopyRoute} {view : RouteView} {alive : SemanticKey → Bool} {plan : RoutePlan}
    (h : planRoute env event parsed update conversationId conversation routeId route view alive = .ok plan) :
    plan.assembly.state.isFinished = false := by
  obtain ⟨s, hs, rfl⟩ := planRoute_eq_ok h
  obtain ⟨current, hc, hm, -⟩ := routeSignal_eq_ok hs
  have hactive : s.assembly.state.isActive := by
    have := currentAssembly_isActive env conversationId conversation routeId route view
    rw [hc] at this
    rw [hm]
    exact this
  have hstate := RouteAssemblyState.not_finished_of_active hactive
  rcases planSignal_assembly env event conversationId conversation routeId route view alive s with ⟨-, h | h⟩ | h <;> rw [h]
  · exact hstate
  · rfl
  · split
    · unfold markSubmitted
      split
      · exact hstate
      · rfl
    · exact hstate

theorem kept_unfinished : Kept env event Unfinished where
  conversations := fun _ _ h => h
  write := fun db parsed update conversationId conversation routeId route alive plan h hplan id a ha => by
    have hnew := planRoute_unfinished hplan
    simp only [RoutePlan.write] at ha
    split at ha
    · rw [Table.get?_add] at ha
      rcases Option.or_eq_some_iff.mp ha with ha | ⟨-, ha⟩
      · exact h id a ha
      · split at ha <;> cases ha
        exact hnew
    · rw [Table.get?_modify] at ha
      split at ha
      · obtain ⟨_, -, rfl⟩ := Option.map_eq_some_iff.mp ha
        exact hnew
      · exact h id a ha

omit [Unicode] in
/-- Generations that only expire are not finished. -/
theorem Unfinished.mapRows {db' : Database} (h : Unfinished db) {f : Uuid → RouteSignalAssembly → RouteSignalAssembly}
    (ha : db'.assemblies = db.assemblies.mapRows f) (hf : ∀ id a, (f id a).state = a.state ∨ (f id a).state = .expired) :
    Unfinished db' := by
  intro id a hg
  rw [ha, Table.get?_mapRows] at hg
  obtain ⟨a₀, ha₀, rfl⟩ := Option.map_eq_some_iff.mp hg
  rcases hf id a₀ with he | he <;> rw [he]
  · exact h id a₀ ha₀
  · rfl

end

/-! ## Runs -/

namespace CopyState

/-- The opening intents of a generation, with their states. -/
def openings (s : CopyState) (assemblyId : Uuid) : List (Uuid × TradeIntent) :=
  s.db.intents.select fun _ i => i.idempotencyKey.action.isOpen &&
    (s.db.parsedActions.get? i.parsedActionId).any (·.assemblyId = assemblyId)

/-- An event of the intent is not acknowledged yet, or at work. -/
def InFlight (s : CopyState) (id : Uuid) : Prop :=
  ∃ i < s.world.stream.entries.length, s.world.stream.inProcess i ∧
    (s.world.stream.entries[i]?).any fun e => e.event.payload = .execute id || e.event.payload = .reconcile id

instance (s : CopyState) (id : Uuid) : Decidable (s.InFlight id) :=
  decidable_of_iff (∃ i ∈ List.range s.world.stream.entries.length, s.world.stream.inProcess i ∧
    (s.world.stream.entries[i]?).any fun e => e.event.payload = .execute id || e.event.payload = .reconcile id)
    (by simp only [List.mem_range]; rfl)

/-- The generation has openings, and every one has its outcome for good. -/
structure OpeningsSettled (s : CopyState) (assemblyId : Uuid) : Prop where
  opened : s.openings assemblyId ≠ []
  final : ∀ e ∈ s.openings assemblyId, e.2.state.isFinal
  quiet : ∀ e ∈ s.openings assemblyId, ¬ s.InFlight e.1

/-- The generation is over: completed if all of its openings are confirmed, failed
if one has failed. -/
structure Finished (s : CopyState) (assemblyId : Uuid) (a : RouteSignalAssembly) : Prop where
  ended : a.state ≠ .executing
  completed : (∀ e ∈ s.openings assemblyId, e.2.state = .confirmed) → a.state = .completed
  failed : (∃ e ∈ s.openings assemblyId, e.2.state = .failed) → a.state = .failed

variable [Unicode] {settings : ExecutionSettings} {s t : CopyState} {a : CopyLabel}

theorem unfinished_of_step (h : Step settings s a t) (hu : Unfinished s.db) : Unfinished t.db := by
  have hkeep {db : Database} (ha : db.assemblies = s.db.assemblies) : Unfinished db := fun id a hg => hu id a (ha ▸ hg)
  cases h with
  | message hr ht =>
    rw [ht.db]
    refine kept_unfinished.signalHandler (fun hu => ?_) hu hr
    refine hu.mapRows (f := fun _ => deleteGeneration _ s.db) rfl fun id a => ?_
    unfold deleteGeneration
    split
    · exact .inr rfl
    · exact .inl rfl
  | fails ht => exact hkeep (by rw [ht.db])
  | expire =>
    refine hu.mapRows (f := fun _ => expireGeneration s.world.stream.now) rfl fun id a => ?_
    unfold expireGeneration
    split
    · exact .inr rfl
    · exact .inl rfl
  | execution ha hw => exact hkeep (assemblies_of_step ha hw)
  | outside _ ha => exact hkeep ha

/-- No generation whose openings have their outcomes is ever over. -/
theorem generation_never_finishes {db : Database} (h : Reach (step settings) always (initial db) s) {id : Uuid}
    {a : RouteSignalAssembly} (ha : s.db.assemblies.get? id = some a) (hs : s.OpeningsSettled id) : ¬ s.Finished id a := by
  have hu : Unfinished s.db :=
    h.invariant (P := fun s => Unfinished s.db) (fun id a ha => by cases ha) fun _ _ _ hu _ hs => unfinished_of_step (step_cases hs) hu
  intro hf
  have hstate := hu id a ha
  by_cases hall : ∀ e ∈ s.openings id, e.2.state = .confirmed
  · rw [hf.completed hall] at hstate
    cases hstate
  · -- an outcome that is not `confirmed` is `failed`
    push Not at hall
    obtain ⟨e, he, hne⟩ := hall
    have hfailed : e.2.state = .failed := by
      have := hs.final e he
      cases hst : e.2.state <;> simp_all [TradeIntentState.isFinal]
    rw [hf.failed ⟨e, he, hfailed⟩] at hstate
    cases hstate

/-! ## A confirmed opening -/

omit [Unicode] in
/-- `generation_never_finishes`, for a generation whose opening is confirmed. -/
theorem generation_never_finishes_goldMessage :
    let _ := Unicode.ascii
    ∃ s a, Reach (step {}) always (initial World.goldAccount) s ∧ s.db.assemblies.get? (.assembly 0 4) = some a ∧
      s.OpeningsSettled (.assembly 0 4) ∧ ¬ s.Finished (.assembly 0 4) a := by
  intro _
  have hrun : (run (step {}) (initial World.goldAccount) (goldReceived buyGold ++ goldExecuted 0)).bind (fun s =>
      (s.db.assemblies.get? (.assembly 0 4)).map fun _ => decide (s.openings (.assembly 0 4) ≠ [] ∧
        (∀ e ∈ s.openings (.assembly 0 4), e.2.state.isFinal) ∧ ∀ e ∈ s.openings (.assembly 0 4), ¬ s.InFlight e.1)) =
      some true := by decide +kernel
  obtain ⟨s, hs, hr⟩ := Option.bind_eq_some_iff.mp hrun
  obtain ⟨a, ha, hd⟩ := Option.map_eq_some_iff.mp hr
  obtain ⟨ho, hf, hq⟩ := of_decide_eq_true hd
  exact ⟨s, a, .of_run hs, ha, ⟨ho, hf, hq⟩, generation_never_finishes (.of_run hs) ha ⟨ho, hf, hq⟩⟩

omit [Unicode] in
/-- The opening is confirmed, no event of it is left, and its generation is executing. -/
theorem goldGeneration_executing :
    let _ := Unicode.ascii
    ∃ s a, Reach (step {}) always (initial World.goldAccount) s ∧ s.db.assemblies.get? (.assembly 0 4) = some a ∧
      s.OpeningsSettled (.assembly 0 4) ∧ (∀ e ∈ s.openings (.assembly 0 4), e.2.state = .confirmed) ∧ a.state = .executing := by
  intro _
  have hrun : (run (step {}) (initial World.goldAccount) (goldReceived buyGold ++ goldExecuted 0)).bind (fun s =>
      (s.db.assemblies.get? (.assembly 0 4)).map fun a => decide (s.openings (.assembly 0 4) ≠ [] ∧
        (∀ e ∈ s.openings (.assembly 0 4), e.2.state.isFinal) ∧ (∀ e ∈ s.openings (.assembly 0 4), ¬ s.InFlight e.1) ∧
          (∀ e ∈ s.openings (.assembly 0 4), e.2.state = .confirmed) ∧ a.state = .executing)) = some true := by decide +kernel
  obtain ⟨s, hs, hr⟩ := Option.bind_eq_some_iff.mp hrun
  obtain ⟨a, ha, hd⟩ := Option.map_eq_some_iff.mp hr
  obtain ⟨ho, hf, hq, hc, he⟩ := of_decide_eq_true hd
  exact ⟨s, a, .of_run hs, ha, ⟨ho, hf, hq⟩, hc, he⟩

end CopyState

end SignalSync
