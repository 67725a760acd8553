import SignalSync.Routes.Service

/-!
# Routes of accounts that are being deleted

A deletion pauses every route of its account, and an activation wants the account
ready. A resumption looks at neither: it brings back the state before the pause. As
long as no route that was active is resumed on a deleted account, none is active
there, in every run (`no_active_on_dead`).
-/

namespace SignalSync

open Library

namespace Routes

/-- The target is being deleted, or deleted. -/
def onDead (db : Database) (target : Option Uuid) : Bool :=
  (target.bind db.connections.get?).any fun connection => isDead connection.state

/-- A resumption does not bring back an active route of a dead account. -/
def ResumesAlive (s : RouteState) : RouteLabel → Prop
  | .request _ (.resume id) => ¬ (s.db.routes.get? id).any fun route =>
      route.state = .paused && route.pausedFromState = some .active && onDead s.db route.targetConnectionId
  | _ => True

instance (s : RouteState) : ∀ l, Decidable (ResumesAlive s l)
  | .request _ (.resume _) => inferInstanceAs (Decidable (¬ _))
  | .request _ (.create _ _) | .request _ (.activate _) | .request _ (.pause _) | .request _ (.deleteConnection _)
  | .lost _ | .recovered _ | .provisioned _ _ => inferInstanceAs (Decidable True)

/-- Neither active nor to be restored to it. -/
def Rests (route : CopyRoute) : Prop :=
  route.state ≠ .active ∧ ¬ (route.state = .target_unavailable ∧ route.pausedFromState = some .active)

/-- The routes of dead accounts rest. -/
def Retired (db : Database) : Prop :=
  ∀ r route, db.routes.get? r = some route → onDead db route.targetConnectionId → Rests route

variable [Owners] {s t : RouteState} {l : RouteLabel} {r : Uuid} {route : CopyRoute} {db : Database}

omit [Owners] in
theorem rests_pausedRoute (route : CopyRoute) : Rests (pausedRoute route) := by
  unfold pausedRoute
  split
  · rename_i hp
    simp [Rests, hp]
  · simp [Rests]

omit [Owners] in
theorem Rests.unavailableRoute (h : Rests route) : Rests (unavailableRoute route) := by
  rwa [Routes.unavailableRoute, if_neg h.1]

omit [Owners] in
theorem Rests.restoredRoute (h : Rests route) : Rests (restoredRoute route) := by
  unfold Routes.restoredRoute
  split
  · rename_i hu
    refine ⟨?_, by simp⟩
    cases hp : route.pausedFromState with
    | none => simp
    | some state =>
      rintro rfl
      exact h.2 ⟨hu, hp⟩
  · exact h

omit [Owners] in
theorem Rests.resumedRoute (h : Rests route) (hp : ¬ (route.state = .paused ∧ route.pausedFromState = some .active)) :
    Rests (resumedRoute route) := by
  unfold Routes.resumedRoute
  split
  · rename_i hs
    refine ⟨?_, by simp⟩
    cases hf : route.pausedFromState with
    | none => simp
    | some state =>
      rintro rfl
      exact hp ⟨hs, hf⟩
  · exact h

omit [Owners] in
theorem targetConnectionId_pausedRoute (route : CopyRoute) : (pausedRoute route).targetConnectionId = route.targetConnectionId := by
  unfold pausedRoute; split <;> rfl

omit [Owners] in
theorem targetConnectionId_resumedRoute (route : CopyRoute) : (resumedRoute route).targetConnectionId = route.targetConnectionId := by
  unfold resumedRoute; split <;> rfl

omit [Owners] in
theorem targetConnectionId_unavailableRoute (route : CopyRoute) :
    (unavailableRoute route).targetConnectionId = route.targetConnectionId := by
  unfold unavailableRoute; split <;> rfl

omit [Owners] in
theorem targetConnectionId_restoredRoute (route : CopyRoute) : (restoredRoute route).targetConnectionId = route.targetConnectionId := by
  unfold restoredRoute; split <;> rfl

omit [Owners] in
/-- One row is rewritten, and its target stays. -/
theorem Retired.modify {db' : Database} (h : Retired db) (id : Uuid) (f : CopyRoute → CopyRoute)
    (hroutes : db'.routes = db.routes.modify id f) (hconnections : db'.connections = db.connections)
    (htarget : ∀ route, (f route).targetConnectionId = route.targetConnectionId)
    (hf : ∀ route, db.routes.get? id = some route → onDead db route.targetConnectionId → Rests route → Rests (f route)) :
    Retired db' := by
  intro r route hr hd
  rw [onDead, hconnections] at hd
  rw [hroutes, Table.get?_modify] at hr
  split at hr
  · rename_i hid
    subst hid
    obtain ⟨row, hrow, rfl⟩ := Option.map_eq_some_iff.mp hr
    rw [htarget] at hd
    exact hf row hrow hd (h r row hrow hd)
  · exact h r route hr hd

omit [Owners] in
theorem Retired.onConnection (h : Retired db) (id : Uuid) (f : CopyRoute → CopyRoute)
    (htarget : ∀ route, (f route).targetConnectionId = route.targetConnectionId) (hf : ∀ route, Rests route → Rests (f route)) :
    Retired (onConnection db id f) := by
  intro r route' hr hd
  rw [Routes.onConnection, Table.get?_mapRows] at hr
  obtain ⟨route, hrow, rfl⟩ := Option.map_eq_some_iff.mp hr
  have hsame : (if route.targetConnectionId = some id then f route else route).targetConnectionId = route.targetConnectionId := by
    split
    · exact htarget route
    · rfl
  rw [hsame] at hd
  split
  · exact hf route (h r route hrow hd)
  · exact h r route hrow hd

omit [Owners] in
/-- What has become of the connection `id`. -/
theorem onDead_modify {db' : Database} {id : Uuid} {state : CopyTradingConnectionState} (target : Option Uuid)
    (h : db'.connections = db.connections.modify id fun connection => { connection with state := state })
    (hd : onDead db' target) : target = some id ∧ isDead state ∨ target ≠ some id ∧ onDead db target := by
  cases target with
  | none => cases hd
  | some id' =>
    simp only [onDead, h, Option.bind_some, Table.get?_modify] at hd ⊢
    split at hd
    · subst id'
      refine .inl ⟨rfl, ?_⟩
      cases hc : db.connections.get? id with
      | none => simp [hc] at hd
      | some connection => simpa [hc] using hd
    · exact .inr ⟨by simpa using ‹_›, hd⟩

theorem Retired.step (hret : Retired s.db) (hok : ResumesAlive s l) (h : step s l = some t) : Retired t.db := by
  obtain ⟨hw, -⟩ := step_cases h
  generalize t.db = db' at hw
  cases hw with
  | @created _ id _ payload _ _ _ ht hc hs hp =>
    intro r route hr hd
    rw [Table.get?_push hp] at hr
    split at hr
    · cases hr
      exact ⟨by simp, by simp⟩
    · exact hret r route hr hd
  | @activated user id connectionId row connection hr ht hc hs =>
    refine hret.modify id (fun route => { route with state := .active }) rfl rfl (fun _ => rfl) fun route hr' hd => ?_
    -- the account of an activated route is ready
    rw [hr] at hr'
    cases hr'
    simp [onDead, ht, hc, hs, isDead] at hd
  | @paused user id =>
    exact hret.modify id _ rfl rfl targetConnectionId_pausedRoute fun route _ _ _ => rests_pausedRoute route
  | @resumed user id =>
    refine hret.modify id _ rfl rfl targetConnectionId_resumedRoute fun route hr hd hrest => hrest.resumedRoute fun hp => ?_
    simp [ResumesAlive, hr, hp, hd] at hok
  | @deleted user id connection hc hs =>
    intro r route' hr hd
    rw [Routes.onConnection, Table.get?_mapRows] at hr
    obtain ⟨route, hrow, rfl⟩ := Option.map_eq_some_iff.mp hr
    rcases onDead_modify _ rfl hd with ⟨ht, -⟩ | ⟨ht, hd⟩
    · split at ht
      · rename_i htarget
        rw [if_pos htarget]
        exact rests_pausedRoute route
      · rename_i hne
        exact absurd ht hne
    · split at ht
      · rename_i htarget
        exact absurd (targetConnectionId_pausedRoute route ▸ htarget) ht
      · rename_i hne
        rw [if_neg hne] at hd ⊢
        exact hret r route hrow hd
  | wasDeleted => exact hret
  | lost => exact hret.onConnection _ _ targetConnectionId_unavailableRoute fun _ => Rests.unavailableRoute
  | recovered => exact hret.onConnection _ _ targetConnectionId_restoredRoute fun _ => Rests.restoredRoute
  | @provisioned id state connection hc hs =>
    intro r route hr hd
    rcases onDead_modify _ rfl hd with ⟨ht, hdead⟩ | ⟨-, hd⟩
    · exact hret r route hr (by simp [onDead, ht, hc, hs hdead])
    · exact hret r route hr hd

/-- Where no resumption brings back an active route of a dead account, no active route
has one, in every state reached. -/
theorem no_active_on_dead (hempty : db.routes = ∅) (h : Reach Routes.step ResumesAlive ⟨db, []⟩ s)
    (hr : s.db.routes.get? r = some route) (ha : route.state = .active) : onDead s.db route.targetConnectionId = false := by
  have hret : Retired s.db :=
    h.invariant (P := fun s => Retired s.db) (fun r route hr => by rw [hempty] at hr; cases hr)
      fun _ _ _ hret hok hs => hret.step hok hs
  exact Bool.eq_false_iff.mpr fun hd => (hret r route hr hd).1 ha

/-! ## A resumption after a deletion -/

def goldAccountEmpty : Database := { goldAccount with routes := ∅ }

def goldRetired : List RouteLabel :=
  [.request 1 (.create 4 goldTarget), .request 1 (.activate 4), .request 1 (.deleteConnection 3)]

/-- With another account, whose route is paused while the first account is deleted. -/
def goldOther : List RouteLabel :=
  [.request 1 (.create 8 { goldTarget with targetConnectionId := some 9 }), .request 1 (.activate 8), .request 1 (.pause 8)] ++
    goldRetired ++ [.request 1 (.resume 8)]

omit [Owners] in
/-- `no_active_on_dead`, for a route that has been resumed after a deletion. -/
theorem no_active_on_dead_goldTarget :
    let _ := oneUser
    let db := { goldAccountEmpty with connections := .add goldAccountEmpty.connections 9 { metaapiAccountId := none, state := .ready } }
    ∃ s route, Reach step ResumesAlive ⟨db, []⟩ s ∧ onDead s.db (some 3) ∧ s.db.routes.get? 8 = some route ∧ route.state = .active ∧
      onDead s.db route.targetConnectionId = false := by
  intro _ db
  have hrun : (runIf step ResumesAlive ⟨db, []⟩ goldOther).bind
      (fun s => (s.db.routes.get? 8).map fun route => (route.state, onDead s.db (some 3))) = some (.active, true) := by decide +kernel
  obtain ⟨s, hs, hr⟩ := Option.bind_eq_some_iff.mp hrun
  obtain ⟨route, hr, ha⟩ := Option.map_eq_some_iff.mp hr
  obtain ⟨ha, hd⟩ := Prod.mk.inj ha
  exact ⟨s, route, .of_runIf hs, hd, hr, ha, no_active_on_dead rfl (.of_runIf hs) hr ha⟩

omit [Owners] in
/-- A route that was active is resumed while its account is being deleted. -/
theorem resumed_on_dead :
    let _ := oneUser
    ∃ s route, Reach step always ⟨goldAccountEmpty, []⟩ s ∧ s.db.routes.get? 4 = some route ∧ route.state = .active ∧
      onDead s.db route.targetConnectionId := by
  intro _
  have hrun : (run step ⟨goldAccountEmpty, []⟩ (goldRetired ++ [.request 1 (.resume 4)])).bind (fun s =>
      (s.db.routes.get? 4).map fun route => decide (route.state = .active ∧ onDead s.db route.targetConnectionId)) = some true := by
    decide +kernel
  obtain ⟨s, hs, hr⟩ := Option.bind_eq_some_iff.mp hrun
  obtain ⟨route, hr, hd⟩ := Option.map_eq_some_iff.mp hr
  exact ⟨s, route, .of_run hs, hr, of_decide_eq_true hd⟩

end Routes

end SignalSync
