import SignalSync.Execution.World

/-!
# Outcomes

A run writes back what it makes of the intent it has loaded, whatever has been
committed in between: a reconciliation that has found nothing writes `uncertain` over
the `confirmed` of another (`verdict_overturned`). Where a run commits `confirmed` or
`failed` while no other run of the intent is past its load, the outcome stays
(`outcome_final`).

* `HandlerCase.intentState_of_holds`: only a run that holds an intent writes it;
* `Alone.step`: no run holds an intent that has its outcome.
-/

namespace SignalSync

open Library

/-- `confirmed` or `failed`. -/
def TradeIntentState.isFinal : TradeIntentState → Bool
  | .confirmed | .failed => true
  | _ => false

theorem TradeIntentState.not_final_of_executable {state : TradeIntentState} (h : state.isExecutable) : state.isFinal = false := by
  cases state <;> first | rfl | cases h

theorem TradeIntentState.not_final_of_unresolved {state : TradeIntentState} (h : state.isUnresolved) : state.isFinal = false := by
  cases state <;> first | rfl | cases h

/-- The intent that a run has loaded and is still to write. -/
def ExecutionPhase.holds : ExecutionPhase → Option Uuid
  | .bar id _ | .mark id _ | .find id | .conclude id .. => some id
  | .acquire s | .gate s => some s.intentId
  | .connect s | .prepare s _ => some s.intentId
  | .call c | .settle c .. => some c.intentId
  | _ => none

/-- A stored intent that has its outcome. -/
def Database.Final (db : Database) (id : Uuid) : Prop := (db.intentState id).any TradeIntentState.isFinal

instance (db : Database) (id : Uuid) : Decidable (db.Final id) := inferInstanceAs (Decidable (_ = _))

theorem Database.final_of_intents {db db' : Database} (h : db'.intents = db.intents) {id : Uuid} : db'.Final id ↔ db.Final id := by
  rw [Final, Final, intentState_of_intents h]

theorem Database.not_final {db : Database} {id : Uuid} {state : TradeIntentState} (hs : db.intentState id = some state)
    (hf : state.isFinal = false) : ¬ db.Final id := by
  rw [Final, hs, Option.any_some, hf]
  nofun

section

variable [Unicode] {run : Nat} {now : Time} {db : Database} {phase : ExecutionPhase} {label : HandlerLabel} {h : HandlerStep}
  {id : Uuid}

omit [Unicode] in
theorem ExecutionPhase.holds_of_session {phase : ExecutionPhase} {x : Uuid × TradeIntent} (h : phase.session = some x) :
    phase.holds = some x.1 := by
  cases phase <;> cases h <;> rfl

/-- Only a run that holds an intent writes it. -/
theorem HandlerCase.intentState_of_holds (hc : HandlerCase run now db phase label h) (hh : phase.holds ≠ some id) :
    h.db.intentState id = db.intentState id := by
  have hwrites {id' : Uuid} {loaded new : TradeIntent} (hw : h.Writes db id' loaded new) (hne : id' ≠ id) :
      h.db.intentState id = db.intentState id := by rw [hw.intentState, if_neg (Ne.symm hne)]
  cases hc with
  | raise _ _ hk | ignore _ hk | skip _ hk | load _ _ _ _ hk | advance _ _ _ _ hk | look _ _ hk | find _ hk =>
    exact Database.intentState_of_intents hk.intents
  | call _ hd | publish _ hd => rw [hd]
  | close _ hi => exact Database.intentState_of_intents hi
  | reject hl _ hw => exact hwrites hw fun he => hh (he ▸ ExecutionPhase.holds_of_session hl)
  | retryable _ _ hw | submit _ _ _ _ hw | settle hw | confirm hw | reconcile _ hw | conclude _ hw =>
    exact hwrites hw fun he => hh (he ▸ rfl)

/-- A run that goes on holding an intent has held it, or has just loaded it without an
outcome, and has not given it one. -/
theorem HandlerCase.holds (hc : HandlerCase run now db phase label h) {phase' : ExecutionPhase}
    (hs : h.stage = .handle phase') (hh : phase'.holds = some id) (hp : phase.holds = some id → ¬ db.Final id) :
    ¬ h.db.Final id := by
  have hkeep (hi : h.db.intents = db.intents) (hn : ¬ db.Final id) : ¬ h.db.Final id := by
    rwa [Database.final_of_intents hi]
  have hwrites {id' : Uuid} {loaded new : TradeIntent} (hw : h.Writes db id' loaded new) (hn : new.state.isFinal = false)
      (ho : ¬ db.Final id) : ¬ h.db.Final id := by
    intro hf
    obtain ⟨state, hst, hfinal⟩ := (Option.any_eq_true _ _).mp hf
    rcases hw.intentState_cases hst with hst | ⟨-, rfl⟩
    · exact ho ((Option.any_eq_true _ _).mpr ⟨state, hst, hfinal⟩)
    · rw [hn] at hfinal
      cases hfinal
  cases hc with
  | raise _ _ _ he | ignore _ _ he | skip _ _ he | reject _ _ _ _ he | retryable _ _ _ _ he | confirm _ _ _ _ he
  | publish _ _ _ _ he | conclude _ _ _ he => cases he.symm.trans hs
  | @load id' intent _ _ _ hi hex hp' hk he =>
    cases he.symm.trans hs
    cases (ExecutionPhase.holds_of_session hp').symm.trans hh
    exact hkeep hk.intents (Database.not_final (by rw [Database.intentState, hi]; rfl) (TradeIntentState.not_final_of_executable hex))
  | @advance _ phase₁ _ _ hse hx hn hk he =>
    cases he.symm.trans hs
    refine hkeep hk.intents (hp ?_)
    rcases hn with hn | ⟨-, hrows⟩
    · obtain ⟨x, hx⟩ := Option.isSome_iff_exists.mp hn
      cases (ExecutionPhase.holds_of_session (hse.trans hx)).symm.trans hh
      exact ExecutionPhase.holds_of_session hx
    · obtain ⟨request, rows, rfl⟩ := hrows
      cases hh
  | submit _ hn hid _ hw _ he =>
    cases he.symm.trans hs
    cases hh
    exact hwrites hw (by rw [hn]; rfl) (hp (congrArg some hid.symm))
  | call _ hd _ _ he =>
    cases he.symm.trans hs
    cases hh
    rw [hd]
    exact hp rfl
  | settle _ _ he =>
    rcases he with ⟨-, he⟩ | ⟨-, he⟩
    · cases he.symm.trans hs
    · cases he.symm.trans hs
      cases hh
  | @look id' intent _ _ hi hu hk he =>
    cases he.symm.trans hs
    cases hh
    exact hkeep hk.intents (Database.not_final (by rw [Database.intentState, hi]; rfl) (TradeIntentState.not_final_of_unresolved hu))
  | reconcile hn hw _ he =>
    cases he.symm.trans hs
    cases hh
    exact hwrites hw (by rw [hn]; rfl) (hp rfl)
  | find _ hk he =>
    cases he.symm.trans hs
    cases hh
    exact hkeep hk.intents (hp rfl)
  | close _ _ _ _ _ he =>
    cases he.symm.trans hs
    cases hh

end

namespace World

/-- The intent that the run of a delivery holds. -/
def heldBy (w : World) (d : Nat) : Option Uuid :=
  match w.stream.delivered d with
  | some (⟨_, .handle phase⟩, _) => phase.holds
  | _ => none

/-- Another delivery's run than `d` holds the intent. -/
def HeldElsewhere (w : World) (d : Nat) (id : Uuid) : Prop :=
  ∃ d' < w.stream.deliveries.length, d' ≠ d ∧ w.heldBy d' = some id

instance (w : World) (d : Nat) (id : Uuid) : Decidable (w.HeldElsewhere d id) :=
  decidable_of_iff (∃ d' ∈ List.range w.stream.deliveries.length, d' ≠ d ∧ w.heldBy d' = some id)
    (by simp only [List.mem_range]; rfl)

theorem heldBy_eq_some {w : World} {d : Nat} {id : Uuid} :
    w.heldBy d = some id ↔ ∃ event phase, w.InPhase d event phase ∧ phase.holds = some id := by
  unfold heldBy
  constructor
  · intro h
    split at h
    · rename_i i phase e hd
      exact ⟨e.event, phase, ⟨i, e, hd, rfl⟩, h⟩
    · cases h
  · rintro ⟨event, phase, ⟨i, e, hd, -⟩, h⟩
    rw [hd]
    exact h

section

variable [Unicode] (settings : ExecutionSettings)

/-- A run confirms or fails an intent while no other run of it is past its load. That is
sufficient only: another run may be past its load and end without a write. -/
def ConcludesAlone (w : World) : WorldLabel → Prop
  | .handler d label =>
    ∀ id ∈ w.heldBy d, ∀ t ∈ w.step settings (.handler d label), t.db.Final id → ¬ w.HeldElsewhere d id
  | _ => True

instance (w : World) (a : WorldLabel) : Decidable (w.ConcludesAlone settings a) := by
  unfold ConcludesAlone
  split <;> infer_instance

/-- No run holds an intent that has its outcome. -/
structure Alone (w : World) : Prop where
  valid : w.stream.Valid
  pending : w.PendingNew
  held : ∀ d id, w.heldBy d = some id → ¬ w.db.Final id

variable {settings} {w t : World} {a : WorldLabel} {id : Uuid}

/-- Only a step of a run that holds the intent changes its state, once it is stored. -/
theorem intentState_of_step (h : Step settings w a t) (hi : (w.db.intentState id).isSome)
    (hn : ∀ d label, a = .handler d label → w.heldBy d ≠ some id) : t.db.intentState id = w.db.intentState id := by
  cases h with
  | @handler d i phase e label r hd hc =>
    rw [after_db]
    refine hc.intentState_of_holds fun hh => hn d label rfl ?_
    exact heldBy_eq_some.2 ⟨e.event, phase, ⟨i, e, hd, rfl⟩, hh⟩
  | commitIntent hp hpush =>
    rw [Database.intentState, Database.intentState, Table.get?_push hpush, if_neg]
    rintro rfl
    obtain ⟨row, hrow, -⟩ := Option.map_eq_some_iff.mp (Option.isSome_iff_exists.mp hi).choose_spec
    rw [Table.push_eq_none.2 ⟨row, hrow⟩] at hpush
    cases hpush
  | database _ hdb => exact Database.intentState_of_intents hdb
  | stream | publishIntent | rollbackIntent | publish | sweep => rfl

/-- An intent has its outcome from before, or from the step of a run that holds it. -/
theorem final_of_step (h : Step settings w a t) (hp : w.PendingNew) (hf : t.db.Final id) :
    w.db.Final id ∨ ∃ d label, a = .handler d label ∧ w.heldBy d = some id := by
  cases h with
  | @handler d i phase e label r hd hc =>
    by_cases hh : phase.holds = some id
    · exact .inr ⟨d, label, rfl, heldBy_eq_some.2 ⟨e.event, phase, ⟨i, e, hd, rfl⟩, hh⟩⟩
    · rw [after_db, Database.Final, hc.intentState_of_holds hh] at hf
      exact .inl hf
  | @commitIntent id' row intents hm hpush =>
    rw [Database.Final, Database.intentState, Table.get?_push hpush] at hf
    split at hf
    · -- a new intent has no outcome
      obtain ⟨hnew, -⟩ := hp _ hm
      rw [Option.map_some, Option.any_some, hnew] at hf
      cases hf
    · exact .inl hf
  | database _ hdb => exact .inl ((Database.final_of_intents hdb).mp hf)
  | stream | publishIntent | rollbackIntent | publish | sweep => exact .inl hf

theorem Alone.step (hw : w.Alone) (hs : w.step settings a = some t) (hok : w.ConcludesAlone settings a) : t.Alone := by
  have h := step_cases hs
  refine ⟨valid_of_step h hw.valid, hw.pending.step h, fun d id hheld => ?_⟩
  obtain ⟨event, phase, hp, hh⟩ := heldBy_eq_some.1 hheld
  rcases inPhase_of_step h hw.valid hp with ⟨hp₀, hother⟩ | ⟨rfl, -⟩ | ⟨label, phase₀, r, -, hp₀, hc, hst, hdb⟩
  · have hheld₀ : w.heldBy d = some id := heldBy_eq_some.2 ⟨event, phase, hp₀, hh⟩
    intro hf
    rcases final_of_step h hw.pending hf with hf₀ | ⟨d', label, rfl, hd'⟩
    · exact hw.held d id hheld₀ hf₀
    · obtain ⟨i, e, hd, -⟩ := hp₀
      have hlt := (List.getElem?_eq_some_iff.mp (StreamState.delivered_eq_some.1 hd).1).1
      exact hok id hd' t hs hf ⟨d, hlt, fun he => hother label (by rw [he]), hheld₀⟩
  · obtain ⟨key, payload⟩ := event
    cases payload <;> cases hh
  · rw [hdb]
    exact hc.holds hst hh fun hh₀ => hw.held d id (heldBy_eq_some.2 ⟨event, phase₀, hp₀, hh₀⟩)

omit [Unicode] in
theorem alone_initial (db : Database) : (initial db).Alone where
  valid := fun x hx => by cases hx
  pending := fun e he => by cases he
  held := fun d id hheld => by
    obtain ⟨event, phase, hp, -⟩ := heldBy_eq_some.1 hheld
    exact absurd hp (not_inPhase_initial db d event phase)

/-- In a run that concludes intents so, an outcome that is committed stays. -/
theorem outcome_final {db : Database} (h : Reach (World.step settings) (ConcludesAlone settings) (initial db) w)
    {state : TradeIntentState} (hs : w.db.intentState id = some state) (hf : state.isFinal)
    (ht : Reach (World.step settings) (ConcludesAlone settings) w t) : t.db.intentState id = some state := by
  have hw : Alone w := h.invariant (alone_initial db) fun _ _ _ hw hok hs => hw.step hs hok
  have hkeep : Alone t ∧ t.db.intentState id = some state := by
    refine Reach.invariant (P := fun u => Alone u ∧ u.db.intentState id = some state) ht ⟨hw, hs⟩ fun u a v hu hok huv => ?_
    obtain ⟨hu, hst⟩ := hu
    refine ⟨hu.step huv hok, ?_⟩
    rw [← hst]
    refine intentState_of_step (step_cases huv) (by rw [hst]; rfl) fun d label _ hheld => hu.held d id hheld ?_
    rw [Database.Final, hst]
    exact hf
  exact hkeep.2

/-! ## Two reconciliations -/

/-- The call times out, and what has come of it is asked for twice. -/
def goldUnresolved : List WorldLabel :=
  goldPublished ++ [.handler 0 (.load true)] ++ goldSubmitted 0 (seconds 101) (.error { name := "TimeoutError", isOs := true }) ++
    [.handler 0 .settle, .handler 0 .publish, .sweep, .publishUnresolved 0, .stream .read, .stream .read,
      .stream (.start 1), .stream (.start 2)]

omit [Unicode] in
/-- The first reconciliation confirms the intent, and the second one leaves it so. -/
theorem outcome_final_goldIntent :
    let _ := Unicode.ascii
    ∃ w t, Reach (World.step {}) (ConcludesAlone {}) (initial goldAccount) w ∧ Reach (World.step {}) (ConcludesAlone {}) w t ∧
      w.db.intentState 12 = some .confirmed ∧ t.db.intentState 12 = some .confirmed := by
  intro _
  have hrun : (runIf (World.step {}) (ConcludesAlone {}) (initial goldAccount) (goldUnresolved ++
      [.handler 1 .reconcile, .handler 1 .mark, .handler 1 (.find (.ok true)), .handler 1 .conclude])).bind (fun w =>
        (runIf (World.step {}) (ConcludesAlone {}) w [.handler 2 .reconcile]).map fun _ => w.db.intentState 12) =
      some (some .confirmed) := by decide +kernel
  obtain ⟨w, hw, hr⟩ := Option.bind_eq_some_iff.mp hrun
  obtain ⟨t, ht, hs⟩ := Option.map_eq_some_iff.mp hr
  exact ⟨w, t, .of_runIf hw, .of_runIf ht, hs, outcome_final (.of_runIf hw) hs rfl (.of_runIf ht)⟩

omit [Unicode] in
/-- The second reconciliation has found nothing by the time the first one confirms the
intent, and makes it uncertain again. -/
theorem verdict_overturned :
    let _ := Unicode.ascii
    ∃ w t, Reach (World.step {}) always (initial goldAccount) w ∧ w.step {} (.handler 2 .conclude) = some t ∧
      w.db.intentState 12 = some .confirmed ∧ t.db.intentState 12 = some .uncertain := by
  intro _
  have hrun : (run (World.step {}) (initial goldAccount) (goldUnresolved ++
      ([.handler 1 .reconcile, .handler 1 .mark, .handler 2 .reconcile, .handler 2 .mark, .handler 2 (.find (.ok false)),
        .handler 1 (.find (.ok true)), .handler 1 .conclude] : List WorldLabel))).bind (fun w =>
        (w.step {} (.handler 2 .conclude)).map fun t => (w.db.intentState 12, t.db.intentState 12)) =
      some (some .confirmed, some .uncertain) := by decide +kernel
  obtain ⟨w, hw, hr⟩ := Option.bind_eq_some_iff.mp hrun
  obtain ⟨t, ht, hs⟩ := Option.map_eq_some_iff.mp hr
  obtain ⟨hsw, hst⟩ := Prod.mk.inj hs
  exact ⟨w, t, .of_run hw, ht, hsw, hst⟩

end

end World

end SignalSync
