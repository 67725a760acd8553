import SignalSync.Execution.World

/-!
# One broker call per intent

`_run_action` is called under the state `submitted`, which a run commits over the
state it has loaded before it took the connection's lock. As long as no run commits
`submitted` or `retryable` over a state that another run has committed in between,
no intent's call is made twice, under any interleaving of deliveries, redeliveries,
duplicates and replays (`calls_at_most_once`). The lock does not see to that: a
redelivered run that waits for it goes on with what it has loaded
(`goldIntent_called_twice`).
-/

namespace SignalSync

open Library

namespace World

/-- How often the broker has been called for an intent. -/
def callsFor (w : World) (id : Uuid) : Nat := w.calls.countP (·.1 = id)

/-- A submitted intent has one run at most on its way to the broker, none once the
call is made, and is out of reach of execution. -/
structure CalledOnce (w : World) : Prop where
  valid : w.stream.Valid
  sessions : w.SessionsLoaded
  callers : ∀ d event c, w.InPhase d event (.call c) → w.db.Settled c.intentId ∧ w.callsFor c.intentId = 0
  unique : ∀ d d' event event' c c', w.InPhase d event (.call c) → w.InPhase d' event' (.call c') →
    c.intentId = c'.intentId → d = d'
  called : ∀ id, 0 < w.callsFor id → w.db.Settled id
  once : ∀ id, w.callsFor id ≤ 1

section

variable [Unicode] {settings : ExecutionSettings} {w t : World} {a : WorldLabel}

/-- The broker is called by a run in its `call` phase only. -/
theorem calls_of_step (h : Step settings w a t) : t.calls = w.calls ∨
    ∃ d label event c x, a = .handler d label ∧ w.InPhase d event (.call c) ∧ x.1 = c.intentId ∧ t.calls = w.calls ++ [x] := by
  cases h with
  | @handler d i phase e label r hd hc =>
    rw [after_calls]
    have hnone (h : r.call = none) : w.calls ++ r.call.toList = w.calls := by rw [h]; exact List.append_nil _
    cases hc with
    | raise _ _ hk | ignore _ hk | skip _ hk | load _ _ _ _ hk | advance _ _ _ _ hk | look _ _ hk | find _ hk => exact .inl (hnone hk.call)
    | reject _ _ hw | retryable _ _ hw | submit _ _ _ _ hw | settle hw | confirm hw | reconcile _ hw | conclude _ hw =>
      exact .inl (hnone hw.call)
    | publish _ _ hn | close _ _ _ hn => exact .inl (hnone hn)
    | @call c loaded copied outcome _ _ hi _ hx =>
      cases hr : r.call with
      | none => exact .inl (List.append_nil _)
      | some x => exact .inr ⟨d, label, e.event, c, x, rfl, ⟨i, e, hd, rfl⟩, hx x hr, rfl⟩
  | stream | publishIntent | commitIntent | rollbackIntent | publish | sweep | database => exact .inl rfl

/-- A run enters its `call` phase from a preparation that commits `submitted`. -/
theorem submits_of_step (h : Step settings w a t) (hv : w.stream.Valid) (hx : w.SessionsLoaded) (hok : w.SubmitsLoaded a)
    {d : Nat} {event : ExecutionEvent} {c : ExecutionCall} (hp : t.InPhase d event (.call c)) :
    (w.InPhase d event (.call c) ∧ ∀ label, a ≠ .handler d label) ∨
      (∃ label, a = .handler d label) ∧ w.db.Executable c.intentId ∧ t.db.Settled c.intentId ∧ t.calls = w.calls := by
  rcases inPhase_of_step h hv hp with hp | ⟨hb, -⟩ | ⟨label, phase₀, r, rfl, ⟨i, e, hd, hev⟩, hc, hst, hdb⟩
  · exact .inl hp
  · obtain ⟨key, payload⟩ := event
    cases payload <;> cases hb
  · rcases hc.call? hst rfl with ⟨-, hne⟩ | ⟨s, restored, view, pending, new, rfl, rfl, hprep, hn, hid, -, hw, -⟩
    · exact absurd rfl (hne c)
    · have hloaded : KeepsLoaded w.db s := by simpa only [SubmitsLoaded, prepares_eq hd hprep] using hok
      have hstate : t.db.intentState c.intentId = some .submitted := by
        rw [hdb, hw.intentState, hid, if_pos rfl, hloaded, hn]
        simp only [Option.map_some, writeBack, ite_eq_right_iff, Option.some.injEq]
        exact fun h => h.symm
      refine .inr ⟨⟨_, rfl⟩, ⟨_, by rw [hid]; exact hloaded, (hx d e.event _ _ ⟨i, e, hd, rfl⟩ rfl).1⟩, ⟨_, hstate, rfl⟩, ?_⟩
      rcases calls_of_step h with hcalls | ⟨d', label', event', c'', x, ha, ⟨i', e', hd', -⟩, -⟩
      · exact hcalls
      · cases ha
        cases hd.symm.trans hd'

theorem CalledOnce.step (hw : w.CalledOnce) (h : Step settings w a t) (hr : w.RetriesLoaded a) (hs : w.SubmitsLoaded a) :
    t.CalledOnce := by
  have hsettled {id : Uuid} : w.db.Settled id → t.db.Settled id := settled_of_step h hr hw.sessions
  have hcall {c : ExecutionCall} {x : Uuid × BrokerCall} (hx : x.1 = c.intentId) (hcalls : t.calls = w.calls ++ [x])
      (id : Uuid) : t.callsFor id = w.callsFor id + if c.intentId = id then 1 else 0 := by
    rw [callsFor, hcalls, List.countP_append, List.countP_singleton, hx]
    simp [callsFor]
  refine ⟨valid_of_step h hw.valid, hw.sessions.step hw.valid h, fun d event c hp => ?_,
    fun d d' event event' c c' hp hp' hid => ?_, fun id hpos => ?_, fun id => ?_⟩
  · rcases submits_of_step h hw.valid hw.sessions hs hp with ⟨hp, hne⟩ | ⟨-, hexec, hset, hcalls⟩
    · obtain ⟨hset, hnone⟩ := hw.callers d event c hp
      refine ⟨hsettled hset, ?_⟩
      rcases calls_of_step h with hcalls | ⟨d', label, event', c', x, rfl, hp', hx, hcalls⟩
      · rwa [callsFor, hcalls]
      · -- the call is another intent's, whose run this is not
        rw [hcall hx hcalls, hnone, if_neg fun hid => hne label (hw.unique d' d _ _ c' c hp' hp hid ▸ rfl)]
    · refine ⟨hset, ?_⟩
      rw [callsFor, hcalls]
      exact Nat.eq_zero_of_not_pos fun hpos => (hw.called _ hpos).not_executable hexec
  · rcases submits_of_step h hw.valid hw.sessions hs hp with ⟨hp, -⟩ | ⟨⟨label, ha⟩, hexec, -⟩ <;>
      rcases submits_of_step h hw.valid hw.sessions hs hp' with ⟨hp', -⟩ | ⟨⟨label', ha'⟩, hexec', -⟩
    · exact hw.unique d d' event event' c c' hp hp' hid
    · exact absurd (hid ▸ hexec') (hw.callers d event c hp).1.not_executable
    · exact absurd (hid ▸ hexec) (hw.callers d' event' c' hp').1.not_executable
    · cases ha.symm.trans ha'
      rfl
  · rcases calls_of_step h with hcalls | ⟨d, label, event, c, x, rfl, hp, hx, hcalls⟩
    · exact hsettled (hw.called id (by rwa [callsFor, hcalls] at hpos))
    · rw [hcall hx hcalls] at hpos
      by_cases hid : c.intentId = id
      · exact hsettled (hid ▸ (hw.callers d event c hp).1)
      · rw [if_neg hid] at hpos
        exact hsettled (hw.called id hpos)
  · rcases calls_of_step h with hcalls | ⟨d, label, event, c, x, rfl, hp, hx, hcalls⟩
    · rw [callsFor, hcalls]
      exact hw.once id
    · rw [hcall hx hcalls]
      split
      · rename_i hid
        rw [← hid, (hw.callers d event c hp).2]
      · exact hw.once id

/-- The commits of `submitted` and `retryable` go over the state that was loaded. -/
def CommitsLoaded (w : World) (a : WorldLabel) : Prop := w.SubmitsLoaded a ∧ w.RetriesLoaded a

instance : Decidable (w.CommitsLoaded a) := inferInstanceAs (Decidable (_ ∧ _))

omit [Unicode] in
theorem calledOnce_initial (db : Database) : (initial db).CalledOnce where
  valid := fun x hx => by cases hx
  sessions := fun d event phase _ hp => absurd hp (not_inPhase_initial db d event phase)
  callers := fun d event _ hp => absurd hp (not_inPhase_initial db d event _)
  unique := fun d _ event _ _ _ hp => absurd hp (not_inPhase_initial db d event _)
  called := fun _ hpos => absurd hpos (Nat.lt_irrefl 0)
  once := fun _ => Nat.zero_le 1

/-- In a run in which no `submitted` or `retryable` is committed over another run's
commit, the broker is called once at most for every intent. -/
theorem calls_at_most_once {db : Database} (h : Reach (step settings) CommitsLoaded (initial db) w) (id : Uuid) :
    w.callsFor id ≤ 1 :=
  (h.invariant (calledOnce_initial db) fun _ _ _ ht hok hu => ht.step (step_cases hu) hok.2 hok.1).once id

omit [Unicode] in
/-- A delivery that executes the intent, and a second one that finds it confirmed. -/
theorem calls_at_most_once_goldIntent :
    let _ := Unicode.ascii
    ∃ w, Reach (step {}) CommitsLoaded (initial goldAccount) w ∧ w.callsFor 12 = 1 ∧ w.callsFor 12 ≤ 1 := by
  intro _
  have hrun : (runIf (step {}) CommitsLoaded (initial goldAccount) (goldPublished ++ ([.handler 0 (.load true)] : List WorldLabel) ++
      goldSubmitted 0 (seconds 101) (.ok { positionId := some "1" }) ++
      ([.stream (.tick (seconds 5)), .stream (.claim 0), .stream (.start 1)] : List WorldLabel) ++ goldSettled 0 ++
      ([.handler 1 (.load true), .stream (.conclude 1 true), .stream (.acknowledge 1)] : List WorldLabel))).map
        (callsFor · 12) = some 1 := by
    decide +kernel
  obtain ⟨w, hw, hn⟩ := Option.map_eq_some_iff.mp hrun
  have h := Reach.of_runIf hw
  exact ⟨w, h, hn, calls_at_most_once h 12⟩

omit [Unicode] in
/-- The first run is five seconds under the lock when the event is claimed again;
the second run has loaded `created` by then, and waits for the lock. -/
theorem goldIntent_called_twice :
    let _ := Unicode.ascii
    ∃ w, Reach (step {}) always (initial goldAccount) w ∧ w.calls = [(12, goldCall), (12, goldCall)] := by
  intro _
  have hrun : (run (step {}) (initial goldAccount) (goldPublished ++ [.handler 0 (.load true), .stream (.tick (seconds 5)),
      .stream (.claim 0), .stream (.start 1), .handler 1 (.load true)] ++
      goldSubmitted 0 (seconds 106) (.ok { positionId := some "1" }) ++ goldSettled 0 ++
      goldSubmitted 1 (seconds 106) (.ok { positionId := some "2" }))).map World.calls =
        some [(12, goldCall), (12, goldCall)] := by decide +kernel
  obtain ⟨w, hw, hc⟩ := Option.map_eq_some_iff.mp hrun
  exact ⟨w, .of_run hw, hc⟩

end

end World

end SignalSync
