import SignalSync.Execution.World

/-!
# Pausing a route while its intents are executed

A run of the execution handler loads its route, waits for the connection's lock and
then checks the route it has loaded. A pause that is committed before the lock is
taken, and before the route is loaded, is seen (`paused_not_called`); one that is
committed while the run waits is not, and the broker is called for a paused route
(`pausedWhileWaiting_called`).
-/

namespace SignalSync

open Library

namespace StreamState

variable {κ ε ρ : Type} [DecidableEq κ] {key : ε → κ} {begin : ε → ρ} {s t : StreamState κ ε ρ} {l : StreamLabel ε} {d : Nat}

/-- A delivery past its check is left where it is, or concluded. -/
theorem stage_of_step (h : Step key begin s l t) {x : Delivery ρ} (hx : s.deliveries[d]? = some x) (hc : x.stage ≠ .check) :
    ∃ x', t.deliveries[d]? = some x' ∧ (x'.stage = x.stage ∨ x'.stage = .acknowledge ∨ x'.stage = .done) := by
  have hset {s' : StreamState κ ε ρ} {d' : Nat} {stage : DeliveryStage ρ} (hs' : s'.deliveries = s.deliveries)
      (hstage : d' = d → stage = .acknowledge ∨ stage = .done) :
      ∃ x', (s'.setStage d' stage).deliveries[d]? = some x' ∧ (x'.stage = x.stage ∨ x'.stage = .acknowledge ∨ x'.stage = .done) := by
    refine ⟨_, by rw [deliveries_setStage, hs', hx, Option.map_some], ?_⟩
    split
    · exact .inr (hstage ‹_›)
    · exact .inl rfl
  have hcheck {d' i : Nat} {e : StreamEntry ε} (hd : s.delivered d' = some (⟨i, .check⟩, e)) : d' ≠ d := by
    rintro rfl
    cases hx.symm.trans (delivered_eq_some.1 hd).1
    exact hc rfl
  cases h with
  | publish | tick => exact ⟨x, hx, .inl rfl⟩
  | deliver => exact ⟨x, (List.getElem?_append_left (List.getElem?_eq_some_iff.mp hx).1).trans hx, .inl rfl⟩
  | drop hd => exact hset rfl fun hdd => absurd hdd (hcheck hd)
  | handle hd => exact hset rfl fun hdd => absurd hdd (hcheck hd)
  | fail hd => exact hset rfl fun hdd => absurd hdd (hcheck hd)
  | success | deadLetter => exact hset rfl fun _ => .inl rfl
  | acknowledge | finish => exact hset rfl fun _ => .inr rfl

end StreamState

/-! ## Runs of paused routes -/

def Database.isRouteActive (db : Database) (routeId : Uuid) : Bool := (db.routes.get? routeId).any (·.state = .active)

def ExecutionSession.isActive (s : ExecutionSession) : Bool := s.route.any (·.state = .active)

/-- The delivery has not got to its broker call and will not. -/
def DeliveryStage.isBarred : DeliveryStage ExecutionPhase → Bool
  | .handle (.gate x) => !x.isActive
  | .result _ | .acknowledge | .done => true
  | _ => false

/-- The delivery that takes its connection's lock, and its session. -/
def World.takesLock (w : World) : WorldLabel → Option (Nat × ExecutionSession)
  | .handler d .acquire =>
    match w.stream.delivered d with
    | some (⟨_, .handle (.acquire x)⟩, _) => some (d, x)
    | _ => none
  | _ => none

theorem World.takesLock_eq_some {w : World} {a : WorldLabel} {d : Nat} {x : ExecutionSession} (h : w.takesLock a = some (d, x)) :
    a = .handler d .acquire ∧ ∃ i e, w.stream.delivered d = some (⟨i, .handle (.acquire x)⟩, e) := by
  unfold takesLock at h
  split at h
  · split at h <;> cases h
    exact ⟨rfl, _, _, ‹_›⟩
  · cases h

/-- The world, and for each delivery that took the lock while its intent's route was
not active the route, for as long as it is not. -/
structure PauseState where
  world : World
  paused : Nat → Option Uuid := fun _ => none

namespace PauseState

variable [Unicode] (settings : ExecutionSettings)

def step (s : PauseState) (a : WorldLabel) : Option PauseState :=
  (s.world.step settings a).map fun w =>
    { world := w
      paused := fun d =>
        ((s.world.takesLock a).bind fun x => if x.1 = d then some x.2.intent.routeId else none).or (s.paused d) |>.filter
          fun routeId => !w.db.isRouteActive routeId }

/-- A lock is taken only by a run whose route is still active, if it has loaded it so. -/
def LoadedFresh (s : PauseState) (a : WorldLabel) : Prop :=
  ∀ x ∈ s.world.takesLock a, x.2.isActive → s.world.db.isRouteActive x.2.intent.routeId

omit [Unicode] in
instance (s : PauseState) (a : WorldLabel) : Decidable (s.LoadedFresh a) := by delta LoadedFresh; infer_instance

variable {settings} {s t : PauseState} {w v : World} {a : WorldLabel} {d : Nat}

/-! ## Barred deliveries -/

variable (settings) in
omit [Unicode] in
/-- A session with a route that is not active does not pass the gate. -/
theorem gateStep_barred (db : Database) {x : ExecutionSession} (hx : x.isActive = false) :
    (∃ r, (gateStep settings db x).stage = .result r) ∧ (gateStep settings db x).call = none := by
  have hready (userPaused policyPaused : Bool) : x.ready settings userPaused policyPaused = none := by
    unfold ExecutionSession.ready
    split
    · rename_i route _ _ hr _ _
      have hne : route.state ≠ .active := by simpa [ExecutionSession.isActive, hr] using hx
      simp [hne]
    · rfl
  unfold gateStep
  split
  · exact ⟨⟨_, rfl⟩, rfl⟩
  · simp only [hready]
    exact ⟨⟨_, rfl⟩, rfl⟩

/-- A barred delivery stays so, and calls nothing. -/
theorem barred_of_step (h : w.step settings a = some v) {x : Delivery ExecutionPhase} (hx : w.stream.deliveries[d]? = some x)
    (hb : x.stage.isBarred) :
    (∃ x', v.stream.deliveries[d]? = some x' ∧ x'.stage.isBarred) ∧ ∀ label, a = .handler d label → v.calls = w.calls := by
  have hset (h : HandlerStep) (hstage : h.stage.isBarred) :
      ∃ x', (w.after settings d h).stream.deliveries[d]? = some x' ∧ x'.stage.isBarred := by
    refine ⟨{ x with stage := h.stage }, ?_, hstage⟩
    rw [World.after_stream]
    have hself : (w.stream.setStage d h.stage).deliveries[d]? = some { x with stage := h.stage } := by
      rw [StreamState.deliveries_setStage, hx, Option.map_some, if_pos rfl]
    split <;> exact hself
  by_cases ha : ∃ label, a = .handler d label
  · obtain ⟨label, rfl⟩ := ha
    simp only [World.step] at h
    split at h
    · rename_i i phase e hd
      cases hx.symm.trans (StreamState.delivered_eq_some.1 hd).1
      cases phase with
      | gate session =>
        have hbar : session.isActive = false := by simpa [DeliveryStage.isBarred] using hb
        obtain ⟨r, hr, rfl⟩ := Option.map_eq_some_iff.mp h
        cases label with
        | gate =>
          cases hr
          obtain ⟨⟨result, hres⟩, hcall⟩ := gateStep_barred settings w.db hbar
          exact ⟨hset _ (by rw [hres]; rfl), fun _ _ => by rw [World.after_calls, hcall]; exact List.append_nil _⟩
        | _ => cases hr
      | _ => cases hb
    · cases h
  · have hne (label : HandlerLabel) (he : a = .handler d label) : False := ha ⟨label, he⟩
    refine ⟨?_, fun label he => (hne label he).elim⟩
    have hkeep {x' : Delivery ExecutionPhase} (hst : x'.stage = x.stage ∨ x'.stage = .acknowledge ∨ x'.stage = .done) :
        x'.stage.isBarred := by
      rcases hst with hst | hst | hst <;> rw [hst]
      · exact hb
      · rfl
      · rfl
    cases World.step_cases h with
    | stream hl hs =>
      obtain ⟨x', hx', hst⟩ := StreamState.stage_of_step hs hx fun hc => by rw [hc] at hb; cases hb
      exact ⟨x', hx', hkeep hst⟩
    | @handler d' i phase e label r hd hc =>
      have hdd : d' ≠ d := fun hdd => hne label (by rw [hdd])
      have hold : (w.stream.setStage d' r.stage).deliveries[d]? = some x := by
        rw [StreamState.deliveries_setStage, hx, Option.map_some, if_neg hdd]
      refine ⟨x, ?_, hb⟩
      rw [World.after_stream]
      split <;> exact hold
    | publishIntent | commitIntent | rollbackIntent | publish | sweep | database => exact ⟨x, hx, hb⟩

/-- The deliveries whose route is paused are barred. -/
def PausedBarred (s : PauseState) : Prop :=
  ∀ d routeId, s.paused d = some routeId → ∃ x, s.world.stream.deliveries[d]? = some x ∧ x.stage.isBarred

theorem PausedBarred.step (hs : s.PausedBarred) (hok : s.LoadedFresh a) (h : s.step settings a = some t) : t.PausedBarred := by
  obtain ⟨w, hw, rfl⟩ := Option.map_eq_some_iff.mp h
  intro d routeId hp
  obtain ⟨hp, hinactive⟩ := Option.filter_eq_some_iff.mp hp
  rcases Option.or_eq_some_iff.mp hp with hp | ⟨-, hp⟩
  · -- the delivery takes the lock in this step
    obtain ⟨⟨d', x⟩, htakes, hp⟩ := Option.bind_eq_some_iff.mp hp
    obtain ⟨hdd, hr⟩ := Option.ite_none_right_eq_some.mp hp
    obtain rfl : d' = d := hdd
    obtain rfl : x.intent.routeId = routeId := Option.some.inj hr
    have hfresh := hok _ htakes
    obtain ⟨rfl, i, e, hd⟩ := World.takesLock_eq_some htakes
    simp only [World.step, hd, handlerStep] at hw
    split at hw <;> cases hw
    -- the lock is taken, and no row has changed
    rw [World.after_db] at hinactive
    have hbar : x.isActive = false := by
      refine Bool.eq_false_iff.mpr fun hx => ?_
      simp only [HandlerStep.goto, hfresh hx] at hinactive
      cases hinactive
    refine ⟨⟨i, .handle (.gate x)⟩, ?_, by simp [DeliveryStage.isBarred, hbar]⟩
    rw [World.after_stream]
    show (s.world.stream.setStage d' _).deliveries[d']? = _
    rw [StreamState.deliveries_setStage, (StreamState.delivered_eq_some.1 hd).1, Option.map_some, if_pos rfl]
    rfl
  · obtain ⟨x, hx, hb⟩ := hs d routeId hp
    exact (barred_of_step hw hx hb).1

/-- Where no run takes the lock with an active route it has loaded before the route was
paused, a run whose route was paused when it took the lock does not call the broker
before the route is active again. -/
theorem paused_not_called {db : Database} (h : Reach (step settings) LoadedFresh ⟨World.initial db, fun _ => none⟩ s) {routeId : Uuid}
    (hp : s.paused d = some routeId) {label : HandlerLabel} (ht : s.step settings (.handler d label) = some t) :
    t.world.calls = s.world.calls := by
  have hs : s.PausedBarred := h.invariant (fun d routeId hp => by cases hp) fun _ _ _ hs hok h => hs.step hok h
  obtain ⟨x, hx, hb⟩ := hs d routeId hp
  obtain ⟨w, hw, rfl⟩ := Option.map_eq_some_iff.mp ht
  exact (barred_of_step hw hx hb).2 label rfl

/-! ## A pause before the lock is taken -/

/-- The account of `goldAccount`, its route paused. -/
def goldPaused : Database :=
  { World.goldAccount with
    routes := World.goldAccount.routes.modify 4 fun route => { route with state := .paused, pausedFromState := some .active } }

omit [Unicode] in
/-- `paused_not_called`, for a pause before the intent is loaded. -/
theorem paused_not_called_goldIntent :
    let _ := Unicode.ascii
    ∃ s t, Reach (step {}) LoadedFresh ⟨World.initial World.goldAccount, fun _ => none⟩ s ∧ s.paused 0 = some 4 ∧
      s.step {} (.handler 0 .gate) = some t ∧ t.world.calls = s.world.calls := by
  intro _
  have hrun : (runIf (step {}) LoadedFresh ⟨World.initial World.goldAccount, fun _ => none⟩ (World.goldPublished ++
      [.outside goldPaused, .handler 0 (.load true), .handler 0 .acquire])).bind (fun s =>
        (s.step {} (.handler 0 .gate)).map fun _ => s.paused 0) = some (some 4) := by decide +kernel
  obtain ⟨s, hs, ht⟩ := Option.bind_eq_some_iff.mp hrun
  obtain ⟨t, ht, hp⟩ := Option.map_eq_some_iff.mp ht
  exact ⟨s, t, .of_runIf hs, hp, ht, paused_not_called (.of_runIf hs) hp ht⟩

omit [Unicode] in
/-- The pause is committed while the run waits for the lock, with the route it has
loaded before: the broker is called. -/
theorem pausedWhileWaiting_called :
    let _ := Unicode.ascii
    ∃ s t, Reach (step {}) always ⟨World.initial World.goldAccount, fun _ => none⟩ s ∧ s.paused 0 = some 4 ∧ s.world.calls = [] ∧
      s.step {} (.handler 0 (.call (.ok {}))) = some t ∧ t.world.calls = [(12, World.goldCall)] := by
  intro _
  have hrun : (run (step {}) ⟨World.initial World.goldAccount, fun _ => none⟩ (World.goldPublished ++
      [.handler 0 (.load true), .outside goldPaused] ++ (World.goldSubmitted 0 (seconds 101) (.ok {})).take 4)).bind (fun s =>
        (s.step {} (.handler 0 (.call (.ok {})))).map fun t => decide (s.paused 0 = some 4 ∧ s.world.calls = [] ∧
          t.world.calls = [(12, World.goldCall)])) = some true := by decide +kernel
  obtain ⟨s, hs, ht⟩ := Option.bind_eq_some_iff.mp hrun
  obtain ⟨t, ht, hd⟩ := Option.map_eq_some_iff.mp ht
  obtain ⟨hp, hc, hc'⟩ := of_decide_eq_true hd
  exact ⟨s, t, .of_run hs, hp, hc, ht, hc'⟩

end PauseState

end SignalSync
