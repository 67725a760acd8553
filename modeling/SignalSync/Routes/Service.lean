import SignalSync.Database
import SignalSync.Delivery
import SignalSync.Library.Run

/-!
# The operations on copy routes

The requests of the service that create, activate, pause and resume a route and
delete an account, and the two writes of the execution side when an account is lost
and found again. A request that raises is rolled back.

* `pausedRoute`, `unavailableRoute`, `restoredRoute`: what becomes of one row;
* `step_cases`: what a step can do to the routes.
-/

namespace SignalSync

open Library

/-- The `user_id` of a connection and of a source, which never changes. -/
class Owners where
  ofConnection : Uuid → Uuid
  ofSource : Uuid → Uuid

namespace Routes

/-! ## One row -/

/-- `pause_route` and `pause_routes_for_connection`, on a row. -/
def pausedRoute (route : CopyRoute) : CopyRoute :=
  if route.state = .paused then route else { route with pausedFromState := some route.state, state := .paused }

def resumedRoute (route : CopyRoute) : CopyRoute :=
  if route.state = .paused then { route with state := route.pausedFromState.getD .ready, pausedFromState := none } else route

/-- `mark_routes_target_unavailable`, on a row of the connection. -/
def unavailableRoute (route : CopyRoute) : CopyRoute :=
  if route.state = .active then { route with pausedFromState := some route.state, state := .target_unavailable } else route

/-- `restore_routes_after_target_recovery`, on a row of the connection. -/
def restoredRoute (route : CopyRoute) : CopyRoute :=
  if route.state = .target_unavailable then
    { route with state := route.pausedFromState.getD .ready, pausedFromState := none }
  else route

section

variable [Owners] (user : Uuid) (db : Database)

def ownedRoute (id : Uuid) : Except HttpError CopyRoute :=
  match (db.routes.get? id).filter fun route => route.userId = user with
  | none => .error ⟨404, "Copy route not found."⟩
  | some route => .ok route

def ownedCopyConnection (id : Uuid) : Except HttpError CopyTradingConnection :=
  match (db.connections.get? id).filter fun _ => Owners.ofConnection id = user with
  | none => .error ⟨404, "Copy account connection not found."⟩
  | some connection => .ok connection

def ownedReadyCopyConnection (id : Uuid) : Except HttpError CopyTradingConnection :=
  match ownedCopyConnection user db id with
  | .error e => .error e
  | .ok connection =>
    if connection.state = .ready then .ok connection else .error ⟨409, "The copy account connection must be ready."⟩

/-- `get_source_for_user`. -/
def ownsSource (id : Uuid) : Bool := (db.sources.get? id).isSome && Owners.ofSource id = user

/-- The rows of an account, rewritten. -/
def onConnection (id : Uuid) (f : CopyRoute → CopyRoute) : Database :=
  { db with routes := db.routes.mapRows fun _ route => if route.targetConnectionId = some id then f route else route }

/-! ## The requests -/

/-- `create_route`; the payload's other columns are its own, the new row's id is `id`. -/
def createRoute (id : Uuid) (payload : CopyRoute) : Except HttpError Database :=
  match payload.targetConnectionId with
  | none => .error ⟨422, "Field required"⟩
  | some connectionId =>
    if ownsSource user db payload.sourceId then
      match ownedReadyCopyConnection user db connectionId with
      | .error e => .error e
      | .ok _ =>
        if db.routes.entries.any fun e => e.2.userId = user && e.2.sourceId = payload.sourceId &&
            e.2.targetConnectionId = some connectionId then
          .error ⟨409, "A copy route already exists for this source and account."⟩
        else
          let policies := db.policies.add connectionId {}
          let policy := (policies.get? connectionId).getD {}
          if policy.maxLot.toRat < payload.fixedLot.toRat ∨ policy.maxLotPerTrade.toRat < payload.fixedLot.toRat then
            .error ⟨422, "Fixed lot exceeds this account's configured trade or exposure limit."⟩
          else
            match db.routes.push id { payload with userId := user, state := .ready, pausedFromState := none } with
            | none => .error ⟨500, "Internal Server Error"⟩
            | some routes => .ok { db with policies := policies, routes := routes }
    else .error ⟨404, "Telegram source not found."⟩

def activateRoute (id : Uuid) : Except HttpError Database :=
  match ownedRoute user db id with
  | .error e => .error e
  | .ok route =>
    match route.targetConnectionId with
    | none => .error ⟨409, "Link a ready copy account before activating this route."⟩
    | some connectionId =>
      match ownedReadyCopyConnection user db connectionId with
      | .error e => .error e
      | .ok _ =>
        if ownsSource user db route.sourceId then
          .ok { db with routes := db.routes.modify id fun route => { route with state := .active } }
        else .error ⟨404, "Telegram source not found."⟩

def pauseRoute (id : Uuid) : Except HttpError Database :=
  match ownedRoute user db id with
  | .error e => .error e
  | .ok _ => .ok { db with routes := db.routes.modify id pausedRoute }

/-- The user's settings are created with the first resumption that changes a row. -/
def resumeRoute (id : Uuid) : Except HttpError Database :=
  match ownedRoute user db id with
  | .error e => .error e
  | .ok route =>
    if (db.userSettings.get? user).any (·.isPaused) ∨ (route.targetConnectionId.bind db.policies.get?).any (·.isPaused) then
      .error ⟨409, "Resume the global and account copy-trading controls first."⟩
    else .ok
      { db with
        routes := db.routes.modify id resumedRoute
        userSettings := if route.state = .paused then db.userSettings.add user ⟨false⟩ else db.userSettings }

def deleteCopyConnection (id : Uuid) : Except HttpError Database :=
  match ownedCopyConnection user db id with
  | .error e => .error e
  | .ok connection =>
    if connection.state = .deleted then .ok db
    else .ok
      { onConnection db id pausedRoute with
        connections := db.connections.modify id fun connection => { connection with state := .deleting } }

end

/-! ## The system -/

inductive RouteRequest
  | create (id : Uuid) (payload : CopyRoute)
  | activate (id : Uuid)
  | pause (id : Uuid)
  | resume (id : Uuid)
  | deleteConnection (connectionId : Uuid)

/-- The connection is being deleted, or deleted. -/
def isDead (state : CopyTradingConnectionState) : Bool := state = .deleting || state = .deleted

inductive RouteLabel
  | request (user : Uuid) (r : RouteRequest)
  /-- `mark_routes_target_unavailable`, with its commit. -/
  | lost (connectionId : Uuid)
  /-- `restore_routes_after_target_recovery`, with its commit. -/
  | recovered (connectionId : Uuid)
  /-- The provisioning side moves a connection; only a deleting one becomes deleted, and
  none becomes deleting. -/
  | provisioned (connectionId : Uuid) (state : CopyTradingConnectionState)

/-- The rows, and what has been done to them. -/
structure RouteState where
  db : Database
  history : List RouteLabel := []

def request [Owners] (user : Uuid) (db : Database) : RouteRequest → Except HttpError Database
  | .create id payload => createRoute user db id payload
  | .activate id => activateRoute user db id
  | .pause id => pauseRoute user db id
  | .resume id => resumeRoute user db id
  | .deleteConnection id => deleteCopyConnection user db id

def write [Owners] (db : Database) : RouteLabel → Option Database
  | .request user r => (request user db r).toOption
  | .lost id => some (onConnection db id unavailableRoute)
  | .recovered id => some (onConnection db id restoredRoute)
  | .provisioned id state =>
    match db.connections.get? id with
    | none => none
    | some connection =>
      if state = .deleting ∨ state = .deleted ∧ connection.state ≠ .deleting then none
      else some { db with connections := db.connections.modify id fun connection => { connection with state := state } }

def step [Owners] (s : RouteState) (l : RouteLabel) : Option RouteState :=
  (write s.db l).map fun db => ⟨db, s.history ++ [l]⟩

/-! ## What a step does -/

variable [Owners] {db db' : Database} {l : RouteLabel}

omit [Owners] in
theorem ownedRoute_eq_ok {user id : Uuid} {route : CopyRoute} (h : ownedRoute user db id = .ok route) :
    db.routes.get? id = some route := by
  unfold ownedRoute at h
  cases hf : (db.routes.get? id).filter fun route => route.userId = user <;> rw [hf] at h <;> cases h
  exact (Option.filter_eq_some_iff.mp hf).1

theorem ownedCopyConnection_eq_ok {user id : Uuid} {connection : CopyTradingConnection}
    (h : ownedCopyConnection user db id = .ok connection) : db.connections.get? id = some connection := by
  unfold ownedCopyConnection at h
  cases hf : (db.connections.get? id).filter fun _ => Owners.ofConnection id = user <;> rw [hf] at h <;> cases h
  exact (Option.filter_eq_some_iff.mp hf).1

theorem ownedReadyCopyConnection_eq_ok {user id : Uuid} {connection : CopyTradingConnection}
    (h : ownedReadyCopyConnection user db id = .ok connection) :
    db.connections.get? id = some connection ∧ connection.state = .ready := by
  unfold ownedReadyCopyConnection at h
  cases hc : ownedCopyConnection user db id <;> simp only [hc] at h
  · cases h
  · split at h <;> cases h
    exact ⟨ownedCopyConnection_eq_ok hc, ‹_›⟩

/-- What a step writes. -/
inductive Write (db : Database) : RouteLabel → Database → Prop
  | created {user id connectionId : Uuid} {payload : CopyRoute} {connection : CopyTradingConnection}
      {policies : Table Uuid CopyAccountPolicy} {routes : Table Uuid CopyRoute} (ht : payload.targetConnectionId = some connectionId)
      (hc : db.connections.get? connectionId = some connection) (hs : connection.state = .ready)
      (hp : db.routes.push id { payload with userId := user, state := .ready, pausedFromState := none } = some routes) :
      Write db (.request user (.create id payload)) { db with policies := policies, routes := routes }
  | activated {user id connectionId : Uuid} {route : CopyRoute} {connection : CopyTradingConnection}
      (hr : db.routes.get? id = some route) (ht : route.targetConnectionId = some connectionId)
      (hc : db.connections.get? connectionId = some connection) (hs : connection.state = .ready) :
      Write db (.request user (.activate id)) { db with routes := db.routes.modify id fun route => { route with state := .active } }
  | paused {user id : Uuid} : Write db (.request user (.pause id)) { db with routes := db.routes.modify id pausedRoute }
  | resumed {user id : Uuid} {userSettings : Table Uuid CopyTradingUserSettings} :
      Write db (.request user (.resume id)) { db with routes := db.routes.modify id resumedRoute, userSettings := userSettings }
  | deleted {user id : Uuid} {connection : CopyTradingConnection} (hc : db.connections.get? id = some connection)
      (hs : connection.state ≠ .deleted) :
      Write db (.request user (.deleteConnection id))
        { onConnection db id pausedRoute with
          connections := db.connections.modify id fun connection => { connection with state := .deleting } }
  | wasDeleted {user id : Uuid} : Write db (.request user (.deleteConnection id)) db
  | lost {id : Uuid} : Write db (.lost id) (onConnection db id unavailableRoute)
  | recovered {id : Uuid} : Write db (.recovered id) (onConnection db id restoredRoute)
  | provisioned {id : Uuid} {state : CopyTradingConnectionState} {connection : CopyTradingConnection}
      (hc : db.connections.get? id = some connection) (hs : isDead state → isDead connection.state) :
      Write db (.provisioned id state)
        { db with connections := db.connections.modify id fun connection => { connection with state := state } }

theorem createRoute_eq_ok {user id : Uuid} {payload : CopyRoute} (h : createRoute user db id payload = .ok db') :
    Write db (.request user (.create id payload)) db' := by
  unfold createRoute at h
  cases ht : payload.targetConnectionId with
  | none => simp [ht] at h
  | some connectionId =>
    simp only [ht] at h
    split at h
    · cases hc : ownedReadyCopyConnection user db connectionId <;> simp only [hc] at h
      · cases h
      · obtain ⟨hc, hs⟩ := ownedReadyCopyConnection_eq_ok hc
        split at h
        · cases h
        · split at h
          · cases h
          · split at h <;> cases h
            rename_i hp
            refine .created ht hc hs ?_
            simpa only [ht] using hp
    · cases h

theorem request_cases {user : Uuid} {r : RouteRequest} (h : request user db r = .ok db') : Write db (.request user r) db' := by
  cases r with
  | create id payload => exact createRoute_eq_ok h
  | activate id =>
    simp only [request, activateRoute] at h
    cases hr : ownedRoute user db id <;> simp only [hr] at h
    · cases h
    · rename_i route
      cases ht : route.targetConnectionId <;> simp only [ht] at h
      · cases h
      · rename_i connectionId
        cases hc : ownedReadyCopyConnection user db connectionId <;> simp only [hc] at h
        · cases h
        · obtain ⟨hc, hs⟩ := ownedReadyCopyConnection_eq_ok hc
          split at h <;> cases h
          exact .activated (ownedRoute_eq_ok hr) ht hc hs
  | pause id =>
    simp only [request, pauseRoute] at h
    cases hr : ownedRoute user db id <;> simp only [hr] at h <;> cases h
    exact .paused
  | resume id =>
    simp only [request, resumeRoute] at h
    cases hr : ownedRoute user db id <;> simp only [hr] at h
    · cases h
    · split at h <;> cases h
      exact .resumed
  | deleteConnection id =>
    simp only [request, deleteCopyConnection] at h
    cases hc : ownedCopyConnection user db id <;> simp only [hc] at h
    · cases h
    · split at h <;> cases h
      · exact .wasDeleted
      · exact .deleted (ownedCopyConnection_eq_ok hc) ‹_›

theorem write_cases (h : write db l = some db') : Write db l db' := by
  cases l with
  | request user r =>
    refine request_cases ?_
    cases hr : request user db r <;> simp only [write, hr, Except.toOption] at h <;> cases h
    rfl
  | lost id => cases h; exact .lost
  | recovered id => cases h; exact .recovered
  | provisioned id state =>
    simp only [write] at h
    cases hc : db.connections.get? id <;> simp only [hc] at h
    · cases h
    · split at h <;> cases h
      rename_i connection hno
      refine .provisioned hc fun hd => ?_
      cases state <;> simp_all [isDead]

theorem step_cases {s t : RouteState} (h : step s l = some t) : Write s.db l t.db ∧ t.history = s.history ++ [l] := by
  obtain ⟨db', hw, rfl⟩ := Option.map_eq_some_iff.mp h
  exact ⟨write_cases hw, rfl⟩

theorem history_of_run {s t : RouteState} {labels : List RouteLabel} (h : run step s labels = some t) :
    t.history = s.history ++ labels := by
  induction labels generalizing s with
  | nil => cases h; simp
  | cons l labels ih =>
    obtain ⟨u, hu, h⟩ := Option.bind_eq_some_iff.mp h
    rw [ih h, (step_cases hu).2, List.append_assoc, List.singleton_append]

/-! ## One user, one account -/

def oneUser : Owners := ⟨fun _ => 1, fun _ => 1⟩

def goldTarget : CopyRoute where
  userId := 1
  sourceId := 2
  targetConnectionId := some 3
  state := .ready
  fixedLot := ⟨100⟩
  fixedLot_pos := hundredth_pos

def goldAccount : Database where
  sources := .add ∅ 2 { isGroup := false, isPaused := false }
  connections := .add ∅ 3 { metaapiAccountId := none, state := .ready }
  routes := .add ∅ 4 { goldTarget with state := .active }

end Routes

end SignalSync
