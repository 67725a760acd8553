import SignalSync.Routes.Service

/-!
# Pauses and outages of a route

A route can be suspended by its user and by the loss of its account, and both keep
the state to return to in `paused_from_state`. As long as no route is paused during
an outage and no paused route is activated, the two do not get in each other's way
(`suspensions_compose`); a pause during an outage overwrites the state before the
outage, which no resumption or recovery brings back (`pausedInOutage_not_active`).
-/

namespace SignalSync

open Library

namespace Routes

/-! ## The labels about one route -/

def IsPause (r : Uuid) (l : RouteLabel) : Prop := ∃ user, l = .request user (.pause r)

def IsResume (r : Uuid) (l : RouteLabel) : Prop := ∃ user, l = .request user (.resume r)

/-- A loss of the route's target. -/
def IsLoss (target : Option Uuid) (l : RouteLabel) : Prop := ∃ id, target = some id ∧ l = .lost id

def IsRecovery (target : Option Uuid) (l : RouteLabel) : Prop := ∃ id, target = some id ∧ l = .recovered id

/-- Every pause of the route has been followed by a resumption. -/
def Resumed (r : Uuid) (s : RouteState) : Prop := Answered (IsPause r) (IsResume r) s.history

/-- Every loss of the target has been followed by a recovery. -/
def Recovered (target : Option Uuid) (s : RouteState) : Prop := Answered (IsLoss target) (IsRecovery target) s.history

/-- The step is none that deletes an account, pauses the route during an outage or
activates it while it is paused. -/
def KeepsApart (r : Uuid) (s : RouteState) : RouteLabel → Prop
  | .request _ (.pause id) => id = r → (s.db.routes.get? r).map (·.state) ≠ some .target_unavailable
  | .request _ (.activate id) => id = r → (s.db.routes.get? r).map (·.state) ≠ some .paused
  | .request _ (.deleteConnection _) => False
  | _ => True

instance (r : Uuid) (s : RouteState) : ∀ l, Decidable (KeepsApart r s l)
  | .request _ (.pause _) | .request _ (.activate _) => inferInstanceAs (Decidable (_ → _))
  | .request _ (.deleteConnection _) => inferInstanceAs (Decidable False)
  | .request _ (.create _ _) | .request _ (.resume _) | .lost _ | .recovered _ | .provisioned _ _ =>
    inferInstanceAs (Decidable True)

variable [Owners] {s t : RouteState} {l : RouteLabel} {r : Uuid} {target : Option Uuid} {route : CopyRoute}

/-! ## What a step does to one row -/

/-- The row of a route after a step that meets `KeepsApart`. -/
inductive Rewritten (r : Uuid) (s : RouteState) (route : CopyRoute) : RouteLabel → CopyRoute → Prop
  | activated {user : Uuid} (h : route.state ≠ .paused) :
      Rewritten r s route (.request user (.activate r)) { route with state := .active }
  | paused {user : Uuid} (h : route.state ≠ .target_unavailable) : Rewritten r s route (.request user (.pause r)) (pausedRoute route)
  | resumed {user : Uuid} : Rewritten r s route (.request user (.resume r)) (resumedRoute route)
  | lost {id : Uuid} (h : route.targetConnectionId = some id) : Rewritten r s route (.lost id) (unavailableRoute route)
  | recovered {id : Uuid} (h : route.targetConnectionId = some id) : Rewritten r s route (.recovered id) (restoredRoute route)
  | kept {l : RouteLabel} (hp : ¬ IsPause r l) (hr : ¬ IsResume r l) (hl : ¬ IsLoss route.targetConnectionId l)
      (hc : ¬ IsRecovery route.targetConnectionId l) : Rewritten r s route l route

omit [Owners] in
theorem get?_onConnection {db : Database} (hr : db.routes.get? r = some route) (id : Uuid) (f : CopyRoute → CopyRoute) :
    (onConnection db id f).routes.get? r = some (if route.targetConnectionId = some id then f route else route) := by
  rw [onConnection, Table.get?_mapRows, hr, Option.map_some]

theorem rewritten_of_step (h : step s l = some t) (hok : KeepsApart r s l) (hr : s.db.routes.get? r = some route) :
    ∃ route', t.db.routes.get? r = some route' ∧ Rewritten r s route l route' := by
  -- a request about the row of `id`
  have hmodify (id : Uuid) (f : CopyRoute → CopyRoute) :
      (s.db.routes.modify id f).get? r = some (if r = id then f route else route) := by
    rw [Table.get?_modify, hr]
    split <;> rfl
  obtain ⟨hw, -⟩ := step_cases h
  generalize t.db = db' at hw
  cases hw with
  | created _ _ _ hp =>
    refine ⟨route, ?_, .kept ?_ ?_ ?_ ?_⟩
    · rw [Table.get?_push hp, if_neg, hr]
      rintro rfl
      rw [Table.push_eq_none.2 ⟨_, hr⟩] at hp
      cases hp
    all_goals rintro ⟨_, h⟩; simp at h
  | @activated user id =>
    refine ⟨_, hmodify id _, ?_⟩
    split
    · rename_i hid
      subst hid
      exact .activated fun h => hok rfl (by rw [hr, Option.map_some, h])
    · rename_i hid
      refine .kept ?_ ?_ ?_ ?_ <;> rintro ⟨_, h⟩ <;> simp at h
  | @paused user id =>
    refine ⟨_, hmodify id _, ?_⟩
    split
    · rename_i hid
      subst hid
      exact .paused fun h => hok rfl (by rw [hr, Option.map_some, h])
    · rename_i hid
      refine .kept ?_ ?_ ?_ ?_ <;> rintro ⟨_, h⟩ <;> simp at h
      exact hid h.2.symm
  | @resumed user id =>
    refine ⟨_, hmodify id _, ?_⟩
    split
    · rename_i hid
      subst hid
      exact .resumed
    · rename_i hid
      refine .kept ?_ ?_ ?_ ?_ <;> rintro ⟨_, h⟩ <;> simp at h
      exact hid h.2.symm
  | deleted | wasDeleted => exact hok.elim
  | @lost id =>
    refine ⟨_, get?_onConnection hr id _, ?_⟩
    split
    · exact .lost ‹_›
    · rename_i hid
      refine .kept ?_ ?_ ?_ ?_ <;> rintro ⟨_, h⟩ <;> simp at h
      exact hid (h.2 ▸ h.1)
  | @recovered id =>
    refine ⟨_, get?_onConnection hr id _, ?_⟩
    split
    · exact .recovered ‹_›
    · rename_i hid
      refine .kept ?_ ?_ ?_ ?_ <;> rintro ⟨_, h⟩ <;> simp at h
      exact hid (h.2 ▸ h.1)
  | provisioned =>
    refine ⟨route, hr, .kept ?_ ?_ ?_ ?_⟩ <;> rintro ⟨_, h⟩ <;> simp at h

/-! ## What the history says of the row -/

theorem resumed_iff (h : step s l = some t) : Resumed r t ↔ IsResume r l ∨ ¬ IsPause r l ∧ Resumed r s := by
  rw [Resumed, (step_cases h).2, answered_concat]
  · rfl
  · rintro ⟨_, rfl⟩ ⟨_, hp⟩
    simp at hp

theorem recovered_iff (h : step s l = some t) : Recovered target t ↔ IsRecovery target l ∨ ¬ IsLoss target l ∧ Recovered target s := by
  rw [Recovered, (step_cases h).2, answered_concat]
  · rfl
  · rintro ⟨_, -, rfl⟩ ⟨_, -, hp⟩
    simp at hp

/-- The row of a route that was active: paused as long as a pause is open, else out
of use only as long as a loss is. -/
structure Follows (target : Option Uuid) (route : CopyRoute) (resumed recovered : Prop) : Prop where
  target : route.targetConnectionId = target
  paused : route.state = .paused ↔ ¬ resumed
  states : route.state = .active ∨ route.pausedFromState = some .active ∧
    (route.state = .paused ∨ route.state = .target_unavailable ∧ ¬ recovered)

theorem follows_of_step (h : step s l = some t) (hok : KeepsApart r s l) (hr : s.db.routes.get? r = some route)
    (hf : Follows target route (Resumed r s) (Recovered target s)) :
    ∃ route', t.db.routes.get? r = some route' ∧ Follows target route' (Resumed r t) (Recovered target t) := by
  obtain ⟨route', hr', hw⟩ := rewritten_of_step h hok hr
  refine ⟨route', hr', ?_⟩
  obtain ⟨rfl, hpaused, hstates⟩ := hf
  rw [resumed_iff h, recovered_iff h]
  cases hw with
  | activated hne =>
    have hres : Resumed r s := not_not.mp fun hno => hne (hpaused.mpr hno)
    exact ⟨rfl, by simp [IsPause, hres], .inl rfl⟩
  | paused hne =>
    have hopen {user : Uuid} : ¬ (IsResume r (.request user (.pause r)) ∨ ¬ IsPause r (.request user (.pause r)) ∧ Resumed r s) := by
      simp [IsResume, IsPause]
    unfold pausedRoute
    split
    · rename_i hp
      exact ⟨rfl, iff_of_true hp hopen, .inr ⟨(hstates.resolve_left (by simp [hp])).1, .inl hp⟩⟩
    · rename_i hp
      have hactive : route.state = .active := by
        rcases hstates with h | ⟨-, h | ⟨h, -⟩⟩
        exacts [h, absurd h hp, absurd h hne]
      exact ⟨rfl, iff_of_true rfl hopen, .inr ⟨by rw [hactive], .inl rfl⟩⟩
  | @resumed user =>
    have hres : IsResume r (.request user (.resume r)) := ⟨user, rfl⟩
    unfold resumedRoute
    split
    · rename_i hp
      have hfrom := (hstates.resolve_left (by simp [hp])).1
      have hactive : route.pausedFromState.getD .ready = .active := by rw [hfrom]; rfl
      exact ⟨rfl, iff_of_false (by simp [hactive]) (not_not.mpr (.inl hres)), .inl hactive⟩
    · rename_i hp
      refine ⟨rfl, iff_of_false hp (not_not.mpr (.inl hres)), ?_⟩
      simpa [hp, IsRecovery, IsLoss] using hstates
  | @lost id ht =>
    have hrec : ¬ (IsRecovery route.targetConnectionId (.lost id) ∨
        ¬ IsLoss route.targetConnectionId (.lost id) ∧ Recovered route.targetConnectionId s) := by
      simp [IsRecovery, IsLoss, ht]
    have hres : (IsResume r (.lost id) ∨ ¬ IsPause r (.lost id) ∧ Resumed r s) ↔ Resumed r s := by simp [IsResume, IsPause]
    rw [hres]
    unfold unavailableRoute
    split
    · rename_i ha
      exact ⟨rfl, iff_of_false (by simp) fun hno => by simpa [ha] using hpaused.mpr hno, .inr ⟨by rw [ha], .inr ⟨rfl, hrec⟩⟩⟩
    · refine ⟨rfl, hpaused, hstates.imp_right fun h => ⟨h.1, h.2.imp_right fun h => ⟨h.1, hrec⟩⟩⟩
  | @recovered id ht =>
    have hres : (IsResume r (.recovered id) ∨ ¬ IsPause r (.recovered id) ∧ Resumed r s) ↔ Resumed r s := by
      simp [IsResume, IsPause]
    rw [hres]
    unfold restoredRoute
    split
    · rename_i hu
      have hfrom := (hstates.resolve_left (by simp [hu])).1
      have hactive : route.pausedFromState.getD .ready = .active := by rw [hfrom]; rfl
      exact ⟨rfl, iff_of_false (by simp [hactive]) fun hno => by simpa [hu] using hpaused.mpr hno, .inl hactive⟩
    · rename_i hu
      refine ⟨rfl, hpaused, hstates.imp_right fun h => ⟨h.1, h.2.imp_right fun h => absurd h.1 hu⟩⟩
  | kept hp hr hl hc => exact ⟨rfl, by simpa [hp, hr] using hpaused, by simpa [hl, hc] using hstates⟩

/-- Where pauses and outages are kept apart, a route that was active is active again
once every pause has been resumed and every loss recovered, an open pause keeps it
paused, and no recovery touches a paused route. -/
theorem suspensions_compose {db : Database} (hr : db.routes.get? r = some route) (ha : route.state = .active)
    (h : Reach step (KeepsApart r) ⟨db, []⟩ s) :
    ∃ route', s.db.routes.get? r = some route' ∧
      (Resumed r s → Recovered route.targetConnectionId s → route'.state = .active) ∧
      (¬ Resumed r s → route'.state = .paused) ∧
      ∀ id t, step s (.recovered id) = some t → route'.state = .paused → t.db.routes.get? r = some route' := by
  have hinv : ∃ route', s.db.routes.get? r = some route' ∧
      Follows route.targetConnectionId route' (Resumed r s) (Recovered route.targetConnectionId s) :=
    h.invariant (P := fun s => ∃ route', s.db.routes.get? r = some route' ∧
        Follows route.targetConnectionId route' (Resumed r s) (Recovered route.targetConnectionId s))
      ⟨route, hr, rfl, by simp [ha, Resumed, answered_nil], .inl ha⟩
      fun _ _ _ ⟨_, hr, hf⟩ hok hs => follows_of_step hs hok hr hf
  obtain ⟨route', hr', hf⟩ := hinv
  refine ⟨route', hr', fun hp hl => ?_, hf.paused.mpr, fun id t ht hp => ?_⟩
  · rcases hf.states with h | ⟨-, h | ⟨-, h⟩⟩
    exacts [h, absurd hp (hf.paused.mp h), absurd hl h]
  · cases ht
    have hsame : restoredRoute route' = route' := if_neg (by simp [hp])
    rw [get?_onConnection hr', hsame, ite_self]

omit [Owners] in
/-- `suspensions_compose`, for an outage and then a pause. -/
theorem suspensions_compose_goldAccount :
    let _ := oneUser
    ∃ s, Reach step (KeepsApart 4) ⟨goldAccount, []⟩ s ∧ ∃ route, s.db.routes.get? 4 = some route ∧
      (Resumed 4 s → Recovered (some 3) s → route.state = .active) ∧ (¬ Resumed 4 s → route.state = .paused) ∧
      ∀ id t, step s (.recovered id) = some t → route.state = .paused → t.db.routes.get? 4 = some route := by
  intro _
  have hrun : (runIf step (KeepsApart 4) ⟨goldAccount, []⟩ [.lost 3, .recovered 3, .request 1 (.pause 4)]).isSome := by
    decide +kernel
  obtain ⟨s, hs⟩ := Option.isSome_iff_exists.mp hrun
  have h : Reach step (KeepsApart 4) ⟨goldAccount, []⟩ s := .of_runIf hs
  have hr : goldAccount.routes.get? 4 = some { goldTarget with state := .active } := by decide +kernel
  exact ⟨s, h, suspensions_compose hr rfl h⟩

omit [Owners] in
/-- A pause during an outage: resumed and recovered, the route is not active. And an
activation ends a pause that nobody has resumed. -/
theorem pausedInOutage_not_active :
    let _ := oneUser
    (∃ s, Reach step always ⟨goldAccount, []⟩ s ∧
      s.history = [.lost 3, .request 1 (.pause 4), .request 1 (.resume 4), .recovered 3] ∧ Resumed 4 s ∧
      Recovered (some 3) s ∧ (s.db.routes.get? 4).map (·.state) = some .ready) ∧
    ∃ s, Reach step always ⟨goldAccount, []⟩ s ∧ s.history = [.request 1 (.pause 4), .request 1 (.activate 4)] ∧
      ¬ Resumed 4 s ∧ (s.db.routes.get? 4).map (·.state) = some .active := by
  intro _
  have hout : (run step ⟨goldAccount, []⟩ [.lost 3, .request 1 (.pause 4), .request 1 (.resume 4), .recovered 3]).map
      (fun s => (s.db.routes.get? 4).map (·.state)) = some (some .ready) := by decide +kernel
  have hact : (run step ⟨goldAccount, []⟩ [.request 1 (.pause 4), .request 1 (.activate 4)]).map
      (fun s => (s.db.routes.get? 4).map (·.state)) = some (some .active) := by decide +kernel
  obtain ⟨s, hs, hstate⟩ := Option.map_eq_some_iff.mp hout
  obtain ⟨t, ht, hstate'⟩ := Option.map_eq_some_iff.mp hact
  refine ⟨⟨s, .of_run hs, history_of_run hs, ?_, ?_, hstate⟩, t, .of_run ht, history_of_run ht, ?_, hstate'⟩
  · rw [Resumed, history_of_run hs]
    simp [answered_cons, answered_nil, IsPause, IsResume]
  · rw [Recovered, history_of_run hs]
    simp [answered_cons, answered_nil, IsLoss, IsRecovery]
  · rw [Resumed, history_of_run ht]
    simp [answered_cons, answered_nil, IsPause, IsResume]

end Routes

end SignalSync
