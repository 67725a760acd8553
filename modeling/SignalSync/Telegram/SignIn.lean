import SignalSync.Library.Overwrite
import SignalSync.Library.Run
import SignalSync.Ids

/-!
# Signing in to Telegram

A user starts a sign-in, which is a pending connection and an attempt of the same id, and
the runtime carries it out by commands from a stream; what Telegram answers, when, and who
scans a code is open, as is where the runtime fails. A client that has signed in is kept
for the connection of its Telegram account, which may be an older one, and publishes what
it receives under that connection.

* `SignIns.step_inv`: what every step keeps;
* `own_account`: a connection is of an account that its own user signed in to, a message is
  published for such a user only, and no two connections are of one account;
* `pending_attempt`: a connection that is pending has an attempt that can still succeed.
-/

namespace SignalSync

namespace Telegram

open Library

abbrev UserId := Uuid

inductive TelegramConnectionState
  | pending | ready | reauthentication_required | disconnected
deriving DecidableEq

inductive TelegramAuthState
  | pending | awaiting_code | awaiting_password | ready | failed | expired
deriving DecidableEq

def authStateFromPublic (value : String) : TelegramAuthState :=
  (([("starting", .pending), ("code_required", .awaiting_code), ("password_required", .awaiting_password), ("verifying", .pending),
    ("qr_required", .pending), ("ready", .ready), ("failed", .failed), ("expired", .expired)] : List (String × TelegramAuthState)).lookup
      value).getD .pending

/-- `encrypted_session` is the session's number. -/
structure TelegramConnection where
  userId : UserId
  telegramUserId : Option Int := none
  encryptedSession : Option Nat := none
  state : TelegramConnectionState := .pending
  reauthenticationReason : Option String := none

/-- The attempt's id is that of the connection it was started for. -/
structure TelegramAuthAttempt where
  userId : UserId
  connectionId : Option Uuid
  state : TelegramAuthState := .pending
  message : Option String
  /-- Of the encrypted state. -/
  session : Option Nat := none
  expiresAt : Nat

/-- A session of Telegram's: what it was made for, and whose it is once it is signed in. -/
structure TelegramSession where
  authId : Uuid
  account : Option Int := none
  revoked : Bool := false

inductive AuthMethod
  | phone | qr
deriving DecidableEq

inductive AuthCommandType
  | phoneStart | phoneCode | phonePassword | qrStart
deriving DecidableEq

structure AuthCommand where
  eventType : AuthCommandType
  authId : Uuid
  attempt : Nat := 1
deriving DecidableEq

inductive TelegramCommand
  | auth (command : AuthCommand)
  | disconnect (connectionId : Uuid)

/-- Where a coroutine of the runtime awaits. It is of a command, or else of `_wait_qr`. -/
inductive SignInTask
  | handle (command : AuthCommand)
  | waitQr (authId : Uuid) (session : Nat)
  /-- `_finalize`, before `get_me`. -/
  | finalize (command : Option AuthCommand) (authId : Uuid) (session : Nat)
  /-- And before it commits, with another connection of the account. -/
  | commit (command : Option AuthCommand) (authId : Uuid) (session : Nat) (account : Int) (existing : Option (Uuid × UserId)) (user : UserId)
  | attach (connectionId : Uuid) (session : Nat) (restoring : Bool)
  /-- `_attach_updates` has dropped the previous client. -/
  | attached (connectionId : Uuid) (session : Nat) (restoring : Bool)
  /-- `restore`, before the client has connected. -/
  | restore (connectionId : Uuid) (session : Nat)

structure SignIns where
  now : Nat := 0
  /-- The user of every connection there has been. -/
  users : Table Uuid UserId := ∅
  connections : Table Uuid TelegramConnection := ∅
  attempts : Table Uuid TelegramAuthAttempt := ∅
  sessions : List TelegramSession := []
  commands : List TelegramCommand := []
  tasks : List SignInTask := []
  /-- `clients[auth_id]`. -/
  authClients : Table Uuid Nat := ∅
  /-- `clients["connection:…"]`. -/
  clients : Table Uuid Nat := ∅
  /-- Clients that are connected, each with the connection it publishes under. -/
  handlers : List (Uuid × Nat) := []
  /-- What was published: under which connection, from which account, for which user. -/
  published : List (Uuid × Int × UserId) := []

inductive SignInLabel
  | tick (duration : Nat)
  | startAuth (authId : Uuid) (user : UserId) (method : AuthMethod)
  | submitCode (authId : Uuid) (user : UserId)
  | submitPassword (authId : Uuid) (user : UserId)
  | disconnect (connectionId : Uuid) (user : UserId)
  | take
  | connect (i : Nat) (message : String)
  /-- Telegram signs the client in. -/
  | signIn (i : Nat) (account : Int)
  | needPassword (i : Nat)
  | getMe (i : Nat)
  | commit (i : Nat)
  | attach (i : Nat)
  | attached (i : Nat)
  | restore (connectionId : Uuid)
  | restored (i : Nat)
  | restoreFailed (i : Nat) (authorizationInvalid : Bool)
  /-- The coroutine raises. -/
  | raise (i : Nat) (message : String)
  | unhealthy (connectionId : Uuid) (authorizationInvalid : Bool)
  | hangUp (j : Nat)
  | revoke (session : Nat)
  | receive (j : Nat)
  | crash

def telegramReauthenticationReason : String :=
  "Telegram disconnected this session. Reconnect Telegram to resume copying signals."

def telegramReconnectingReason : String := "Telegram connection was interrupted. SignalSync is reconnecting automatically."

def telegramOwnershipConflictMessage : String :=
  "This Telegram account is already connected to another SignalSync account. Disconnect it from that account before connecting it here."

namespace SignIns

/-! ## The steps -/

/-- The attempts that refer to a connection go with it. -/
def deleteConnection (s : SignIns) (connectionId : Uuid) : SignIns :=
  { s with
    connections := s.connections.remove connectionId
    attempts := s.attempts.filter fun _ attempt => attempt.connectionId ≠ some connectionId }

/-- `_auth_update`. -/
def authUpdate (s : SignIns) (authId : Uuid) (state message : String) (session : Option Nat := none) : SignIns :=
  match s.attempts.get? authId with
  | none => s
  | some attempt =>
    let updated (connectionId : Option Uuid) := s.attempts.modify authId fun attempt =>
      { attempt with connectionId, state := authStateFromPublic state, message := some message, session := session.or attempt.session }
    match attempt.connectionId.filter fun connectionId => state = "failed" && (s.connections.get? connectionId).any fun c => c.state = .pending with
    | some connectionId => deleteConnection { s with attempts := updated none } connectionId
    | none => { s with attempts := updated attempt.connectionId }

/-- `start_phone_auth` and `start_qr_auth`. -/
def startAuth (s : SignIns) (authId : Uuid) (user : UserId) (method : AuthMethod) : Option SignIns :=
  let (message, eventType) :=
    match method with
    | .phone => ("Contacting Telegram", AuthCommandType.phoneStart)
    | .qr => ("Preparing QR code", AuthCommandType.qrStart)
  match s.users.push authId user, s.connections.push authId { userId := user },
      s.attempts.push authId { userId := user, connectionId := some authId, message := some message, expiresAt := s.now + seconds 600 } with
  | some users, some connections, some attempts =>
    some { s with users, connections, attempts, commands := s.commands ++ [TelegramCommand.auth { eventType, authId }] }
  | _, _, _ => none

/-- `_owned_auth`, and the command that follows. -/
def submit (s : SignIns) (authId : Uuid) (user : UserId) (eventType : AuthCommandType) : Option SignIns :=
  if (s.attempts.get? authId).any fun attempt => attempt.userId = user && s.now < attempt.expiresAt then
    some { s with commands := s.commands ++ [TelegramCommand.auth { eventType, authId }] }
  else none

def submitAuthCode (s : SignIns) (authId : Uuid) (user : UserId) : Option SignIns := s.submit authId user .phoneCode

def submitAuthPassword (s : SignIns) (authId : Uuid) (user : UserId) : Option SignIns := s.submit authId user .phonePassword

/-- `disconnect_telegram`. -/
def disconnectTelegram (s : SignIns) (connectionId : Uuid) (user : UserId) : Option SignIns :=
  if (s.connections.get? connectionId).any fun connection => connection.userId = user then
    some { s.deleteConnection connectionId with commands := s.commands ++ [.disconnect connectionId] }
  else none

/-- The loop reads the next command. -/
def take (s : SignIns) : Option SignIns :=
  match s.commands with
  | [] => none
  | .auth command :: commands => some { s with commands, tasks := s.tasks ++ [.handle command] }
  | .disconnect connectionId :: commands => some { s with commands, clients := s.clients.remove connectionId }

def finish (s : SignIns) (i : Nat) : SignIns := { s with tasks := s.tasks.eraseIdx i }

def become (s : SignIns) (i : Nat) (task : SignInTask) : SignIns := { s with tasks := s.tasks.set i task }

/-- A new client, for `auth.phone.start` and `auth.qr.start`. -/
def connect (s : SignIns) (i : Nat) (message : String) : Option SignIns :=
  match s.tasks[i]? with
  | some (.handle command) =>
    let session := s.sessions.length
    let s : SignIns := { s with
      sessions := s.sessions ++ [{ authId := command.authId }], authClients := s.authClients.set (command.authId, session) }
    match command.eventType with
    | .phoneStart => some ((s.authUpdate command.authId "code_required" message (some session)).finish i)
    | .qrStart => some ((s.authUpdate command.authId "qr_required" "Scan this QR code in Telegram" (some session)).become i
        (.waitQr command.authId session))
    | .phoneCode | .phonePassword => none
  | _ => none

/-- The client that a coroutine signs in: the one in memory, or one of the session that was stored. -/
def signInClient (s : SignIns) : SignInTask → Option (Option AuthCommand × Uuid × Nat)
  | .handle command =>
    if command.eventType = .phoneCode ∨ command.eventType = .phonePassword then
      ((s.authClients.get? command.authId).or ((s.attempts.get? command.authId).bind TelegramAuthAttempt.session)).map fun session =>
        (some command, command.authId, session)
    else none
  | .waitQr authId session => some (none, authId, session)
  | _ => none

/-- A session is of one account for good. -/
def authorize (s : SignIns) (session : Nat) (account : Int) : Option SignIns :=
  match s.sessions[session]? with
  | some record =>
    if record.account = none ∨ record.account = some account then
      some { s with sessions := s.sessions.set session { record with account := some account } }
    else none
  | none => none

def signIn (s : SignIns) (i : Nat) (account : Int) : Option SignIns :=
  match s.tasks[i]?.bind s.signInClient with
  | some (command, authId, session) =>
    (s.authorize session account).map fun s => { s with authClients := s.authClients.set (authId, session) }.become i
      (.finalize command authId session)
  | none => none

/-- `SessionPasswordNeededError`. -/
def needPassword (s : SignIns) (i : Nat) : Option SignIns :=
  match s.tasks[i]?.bind s.signInClient with
  | some (command, authId, session) =>
    if command.all (·.eventType = .phoneCode) then
      some (({ s with authClients := s.authClients.set (authId, session) }.authUpdate authId "password_required"
        "Enter your Telegram two-step password").finish i)
    else none
  | none => none

/-- `get_me`, and what `_finalize` reads of the database. -/
def getMe (s : SignIns) (i : Nat) : Option SignIns :=
  match s.tasks[i]? with
  | some (.finalize command authId session) =>
    match s.sessions[session]? with
    | some ⟨_, some account, false⟩ =>
      match s.connections.get? authId with
      | none => some (s.finish i)
      | some connection =>
        let existing := s.connections.entries.find? fun e => e.2.telegramUserId = some account && e.1 ≠ authId
        some (s.become i (.commit command authId session account (existing.map fun e => (e.1, e.2.userId)) connection.userId))
    | _ => none
  | _ => none

/-- `ownership_conflict`. -/
def conflict (s : SignIns) (i : Nat) (authId : Uuid) : SignIns :=
  let s := s.authUpdate authId "failed" telegramOwnershipConflictMessage
  { s with authClients := s.authClients.remove authId }.finish i

/-- What `_finalize` writes, unless a row is gone; `uq_telegram_connections_telegram_user_id` is the final arbiter. -/
def commit (s : SignIns) (i : Nat) : Option SignIns :=
  match s.tasks[i]? with
  | some (.commit _ authId session account existing user) =>
    match existing with
    | some (target, owner) =>
      if owner ≠ user then some (s.conflict i authId)
      else if (s.connections.get? target).isSome then
        let s := { s with
          connections := s.connections.modify target fun c => { c with
            encryptedSession := some session, state := .ready, reauthenticationReason := none }
          attempts := s.attempts.modify authId fun attempt => { attempt with connectionId := some target } }
        some (((s.deleteConnection authId).authUpdate authId "ready" "Telegram connected").become i (.attach target session false))
      else none
    | none =>
      if (s.connections.get? authId).isNone then none
      else if s.connections.entries.any fun e => e.2.telegramUserId = some account && e.1 ≠ authId then some (s.conflict i authId)
      else
        let s := { s with connections := s.connections.modify authId fun c =>
          { c with telegramUserId := some account, encryptedSession := some session, state := .ready, reauthenticationReason := none } }
        some ((s.authUpdate authId "ready" "Telegram connected").become i (.attach authId session false))
  | _ => none

/-- `_attach_updates`, up to where it awaits the previous client. -/
def attach (s : SignIns) (i : Nat) : Option SignIns :=
  match s.tasks[i]? with
  | some (.attach connectionId session restoring) =>
    some ({ s with clients := s.clients.remove connectionId }.become i (.attached connectionId session restoring))
  | _ => none

def setState (s : SignIns) (connectionId : Uuid) (state : TelegramConnectionState) (reason : Option String) : SignIns :=
  { s with connections := s.connections.modify connectionId fun c => { c with state, reauthenticationReason := reason } }

def attached (s : SignIns) (i : Nat) : Option SignIns :=
  match s.tasks[i]? with
  | some (.attached connectionId session restoring) =>
    let s := { s with clients := s.clients.set (connectionId, session), handlers := s.handlers ++ [(connectionId, session)] }.finish i
    some (if restoring then s.setState connectionId .ready none else s)
  | _ => none

/-- `restore` comes to a connection that has no client. -/
def restore (s : SignIns) (connectionId : Uuid) : Option SignIns :=
  match s.connections.get? connectionId with
  | some connection =>
    if (connection.state = .ready ∨ connection.state = .disconnected) ∧ s.clients.get? connectionId = none then
      some { s with tasks := s.tasks ++ connection.encryptedSession.toList.map (.restore connectionId) }
    else none
  | none => none

def restored (s : SignIns) (i : Nat) : Option SignIns :=
  match s.tasks[i]? with
  | some (.restore connectionId session) =>
    if (s.sessions[session]?).any fun record => record.account.isSome && !record.revoked then
      some (s.become i (.attach connectionId session true))
    else none
  | _ => none

/-- A connection has no client any more. -/
def lost (s : SignIns) (connectionId : Uuid) (authorizationInvalid : Bool) : SignIns :=
  if authorizationInvalid then s.setState connectionId .reauthentication_required (some telegramReauthenticationReason)
  else s.setState connectionId .disconnected (some telegramReconnectingReason)

def restoreFailed (s : SignIns) (i : Nat) (authorizationInvalid : Bool) : Option SignIns :=
  match s.tasks[i]? with
  | some (.restore connectionId _) => some ((s.lost connectionId authorizationInvalid).finish i)
  | _ => none

/-- `_validate_connection_health`. -/
def unhealthy (s : SignIns) (connectionId : Uuid) (authorizationInvalid : Bool) : Option SignIns :=
  match s.clients.get? connectionId with
  | some _ => some ({ s with clients := s.clients.remove connectionId }.lost connectionId authorizationInvalid)
  | none => none

/-- A command that fails is published again, four times. -/
def retry (s : SignIns) (i : Nat) (command : AuthCommand) (message : String) : SignIns :=
  if command.attempt < 5 then
    { s with commands := s.commands ++ [TelegramCommand.auth { command with attempt := command.attempt + 1 }] }.finish i
  else (s.authUpdate command.authId "failed" message).finish i

def raise (s : SignIns) (i : Nat) (message : String) : Option SignIns :=
  match s.tasks[i]? with
  | some (.handle command) | some (.finalize (some command) _ _) | some (.commit (some command) _ _ _ _ _) => some (s.retry i command message)
  | some (.waitQr authId _) | some (.finalize none authId _) | some (.commit none authId _ _ _ _) =>
    some (({ s with authClients := s.authClients.remove authId }.authUpdate authId "failed" message).finish i)
  | _ => none

/-- A message arrives at a client; its source is of the connection. -/
def receive (s : SignIns) (j : Nat) : Option SignIns :=
  match s.handlers[j]? with
  | some (connectionId, session) =>
    match s.sessions[session]?, s.connections.get? connectionId with
    | some ⟨_, some account, false⟩, some connection =>
      some { s with published := s.published ++ [(connectionId, account, connection.userId)] }
    | _, _ => none
  | none => none

def step (s : SignIns) : SignInLabel → Option SignIns
  | .tick duration => some { s with now := s.now + duration }
  | .startAuth authId user method => s.startAuth authId user method
  | .submitCode authId user => s.submitAuthCode authId user
  | .submitPassword authId user => s.submitAuthPassword authId user
  | .disconnect connectionId user => s.disconnectTelegram connectionId user
  | .take => s.take
  | .connect i message => s.connect i message
  | .signIn i account => s.signIn i account
  | .needPassword i => s.needPassword i
  | .getMe i => s.getMe i
  | .commit i => s.commit i
  | .attach i => s.attach i
  | .attached i => s.attached i
  | .restore connectionId => s.restore connectionId
  | .restored i => s.restored i
  | .restoreFailed i authorizationInvalid => s.restoreFailed i authorizationInvalid
  | .raise i message => s.raise i message
  | .unhealthy connectionId authorizationInvalid => s.unhealthy connectionId authorizationInvalid
  | .hangUp j => some { s with handlers := s.handlers.eraseIdx j }
  | .revoke session => some { s with sessions := s.sessions.modify session fun record => { record with revoked := true } }
  | .receive j => s.receive j
  | .crash => some { s with tasks := [], authClients := ∅, clients := ∅, handlers := [] }

/-! ## Whose accounts they are -/

/-- The session was made for the sign-in. -/
def MadeFor (s : SignIns) (session : Nat) (authId : Uuid) : Prop := ∃ record, s.sessions[session]? = some record ∧ record.authId = authId

/-- A user's sign-in made the session. -/
def SessionOf (s : SignIns) (session : Nat) (user : UserId) : Prop :=
  ∃ authId, s.MadeFor session authId ∧ s.users.get? authId = some user

/-- A user's sign-in was to the account. -/
def SignedIn (s : SignIns) (user : UserId) (account : Int) : Prop :=
  ∃ (session : Nat) (record : TelegramSession), s.sessions[session]? = some record ∧ s.users.get? record.authId = some user ∧ record.account = some account

/-- The user of the connection made the session. -/
def Speaks (s : SignIns) (connectionId : Uuid) (session : Nat) : Prop :=
  ∃ user, s.users.get? connectionId = some user ∧ s.SessionOf session user

def TaskOwned (s : SignIns) : SignInTask → Prop
  | .handle _ => True
  | .waitQr authId session | .finalize _ authId session => s.MadeFor session authId
  | .commit _ authId session account existing user => (∃ record, s.sessions[session]? = some record ∧ record.authId = authId ∧
      record.account = some account) ∧ s.users.get? authId = some user ∧ ∀ e ∈ existing, s.users.get? e.1 = some e.2
  | .attach connectionId session _ | .attached connectionId session _ | .restore connectionId session => s.Speaks connectionId session

def RowOwned (s : SignIns) (connectionId : Uuid) (row : TelegramConnection) : Prop :=
  s.users.get? connectionId = some row.userId ∧ (∀ account, row.telegramUserId = some account → s.SignedIn row.userId account) ∧
    ∀ session, row.encryptedSession = some session → s.SessionOf session row.userId

structure Owned (s : SignIns) : Prop where
  row : ∀ connectionId row, s.connections.get? connectionId = some row → s.RowOwned connectionId row
  unique : ∀ c c' row row', s.connections.get? c = some row → s.connections.get? c' = some row' →
    row.telegramUserId.isSome → row.telegramUserId = row'.telegramUserId → c = c'
  attempt : ∀ authId attempt, s.attempts.get? authId = some attempt → ∀ session ∈ attempt.session, s.MadeFor session authId
  authClient : ∀ authId session, s.authClients.get? authId = some session → s.MadeFor session authId
  handler : ∀ e ∈ s.handlers, s.Speaks e.1 e.2
  task : ∀ task ∈ s.tasks, s.TaskOwned task
  published : ∀ e ∈ s.published, s.SignedIn e.2.2 e.2.1

variable {s t : SignIns} {a : SignInLabel} {i : Nat} {connectionId authId : Uuid} {user : UserId} {session : Nat} {account : Int}
  {task : SignInTask}

/-! ### What is remembered -/

/-- Users and sessions are added, and a session stays of its account. -/
structure Grows (s t : SignIns) : Prop where
  users : ∀ c user, s.users.get? c = some user → t.users.get? c = some user
  sessions : ∀ (session : Nat) (record : TelegramSession), s.sessions[session]? = some record → ∃ record', t.sessions[session]? = some record' ∧
    record'.authId = record.authId ∧ ∀ account, record.account = some account → record'.account = some account

theorem Grows.of_eq (husers : t.users = s.users) (hsessions : t.sessions = s.sessions) : Grows s t :=
  ⟨fun _ _ h => husers ▸ h, fun _ record h => ⟨record, hsessions ▸ h, rfl, fun _ ha => ha⟩⟩

/-- What an attempt's row says is not remembered. -/
theorem grows_authUpdate (s : SignIns) (authId : Uuid) (state message : String) (session : Option Nat) :
    Grows s (s.authUpdate authId state message session) := by
  unfold authUpdate
  split
  · exact .of_eq rfl rfl
  · dsimp only
    split
    · exact .of_eq rfl rfl
    · exact .of_eq rfl rfl

theorem MadeFor.mono (hg : Grows s t) (h : s.MadeFor session authId) : t.MadeFor session authId := by
  obtain ⟨record, hr, rfl⟩ := h
  obtain ⟨record', hr', ha, -⟩ := hg.sessions session record hr
  exact ⟨record', hr', ha⟩

theorem SessionOf.mono (hg : Grows s t) (h : s.SessionOf session user) : t.SessionOf session user := by
  obtain ⟨authId, hmade, huser⟩ := h
  exact ⟨authId, hmade.mono hg, hg.users authId user huser⟩

theorem SignedIn.mono (hg : Grows s t) (h : s.SignedIn user account) : t.SignedIn user account := by
  obtain ⟨session, record, hr, huser, ha⟩ := h
  obtain ⟨record', hr', hid, haccount⟩ := hg.sessions session record hr
  exact ⟨session, record', hr', hid ▸ hg.users _ user huser, haccount account ha⟩

theorem Speaks.mono (hg : Grows s t) (h : s.Speaks connectionId session) : t.Speaks connectionId session := by
  obtain ⟨user, huser, hsession⟩ := h
  exact ⟨user, hg.users _ _ huser, hsession.mono hg⟩

theorem TaskOwned.mono (hg : Grows s t) (h : s.TaskOwned task) : t.TaskOwned task := by
  cases task with
  | handle command => trivial
  | waitQr authId session => exact MadeFor.mono hg h
  | finalize command authId session => exact MadeFor.mono hg h
  | commit command authId session account existing user =>
    obtain ⟨⟨record, hr, hid, ha⟩, huser, hexisting⟩ := h
    obtain ⟨record', hr', hid', haccount⟩ := hg.sessions session record hr
    exact ⟨⟨record', hr', hid'.trans hid, haccount account ha⟩, hg.users _ _ huser, fun e he => hg.users _ _ (hexisting e he)⟩
  | attach connectionId session restoring => exact Speaks.mono hg h
  | attached connectionId session restoring => exact Speaks.mono hg h
  | restore connectionId session => exact Speaks.mono hg h

theorem RowOwned.mono (hg : Grows s t) {row : TelegramConnection} (h : s.RowOwned connectionId row) : t.RowOwned connectionId row :=
  ⟨hg.users _ _ h.1, fun account ha => (h.2.1 account ha).mono hg, fun session hs => (h.2.2 session hs).mono hg⟩

/-! ### What is written -/

theorem Owned.grow (h : s.Owned) {users : Table Uuid UserId} {sessions : List TelegramSession} (hg : Grows s { s with users, sessions }) :
    { s with users, sessions }.Owned where
  row c row hrow := (h.row c row hrow).mono hg
  unique := h.unique
  attempt authId attempt hattempt session hsession := (h.attempt authId attempt hattempt session hsession).mono hg
  authClient authId session hclient := (h.authClient authId session hclient).mono hg
  handler e he := (h.handler e he).mono hg
  task task ht := (h.task task ht).mono hg
  published e he := (h.published e he).mono hg

theorem Owned.setTasks (h : s.Owned) {tasks : List SignInTask} (htasks : ∀ task ∈ tasks, task ∈ s.tasks ∨ s.TaskOwned task) :
    { s with tasks }.Owned :=
  { h with task := fun task ht => (htasks task ht).elim (h.task task) id }

theorem Owned.finish (h : s.Owned) (i : Nat) : (s.finish i).Owned := h.setTasks fun _ ht => .inl (List.mem_of_mem_eraseIdx ht)

theorem Owned.become (h : s.Owned) (i : Nat) (htask : s.TaskOwned task) : (s.become i task).Owned :=
  h.setTasks fun _ ht => (List.mem_or_eq_of_mem_set ht).imp_right (by rintro rfl; exact htask)

theorem Owned.setAuthClients (h : s.Owned) {authClients : Table Uuid Nat}
    (hclients : ∀ authId session, authClients.get? authId = some session → s.authClients.get? authId = some session ∨ s.MadeFor session authId) :
    { s with authClients }.Owned :=
  { h with authClient := fun authId session hs => (hclients authId session hs).elim (h.authClient authId session) id }

theorem Owned.setAuthClient (h : s.Owned) (hmade : s.MadeFor session authId) :
    { s with authClients := s.authClients.set (authId, session) }.Owned := by
  refine h.setAuthClients fun authId' session' hs => ?_
  rw [Table.get?_set] at hs
  split at hs
  · rename_i he
    cases hs
    exact .inr (he ▸ hmade)
  · exact .inl hs

theorem Owned.removeAuthClient (h : s.Owned) (authId : Uuid) : { s with authClients := s.authClients.remove authId }.Owned := by
  refine h.setAuthClients fun authId' session' hs => .inl ?_
  rw [Table.get?_remove] at hs
  split at hs
  · cases hs
  · exact hs

theorem Owned.setAttempts (h : s.Owned) {attempts : Table Uuid TelegramAuthAttempt}
    (hattempts : ∀ authId attempt, attempts.get? authId = some attempt → ∀ session ∈ attempt.session,
      (∃ attempt', s.attempts.get? authId = some attempt' ∧ attempt'.session = some session) ∨ s.MadeFor session authId) :
    { s with attempts }.Owned := by
  refine { h with attempt := fun authId attempt hattempt session hsession => ?_ }
  rcases hattempts authId attempt hattempt session hsession with ⟨attempt', ha, hs⟩ | hmade
  · exact h.attempt authId attempt' ha session hs
  · exact hmade

theorem Owned.modifyAttempt (h : s.Owned) {f : TelegramAuthAttempt → TelegramAuthAttempt}
    (hf : ∀ attempt, ∀ session ∈ (f attempt).session, attempt.session = some session ∨ s.MadeFor session authId) :
    { s with attempts := s.attempts.modify authId f }.Owned := by
  refine h.setAttempts fun authId' attempt hattempt session hsession => ?_
  rw [Table.get?_modify] at hattempt
  split at hattempt
  · rename_i he
    obtain ⟨attempt', ha, rfl⟩ := Option.map_eq_some_iff.mp hattempt
    exact (hf attempt' session hsession).imp (fun hs => ⟨attempt', ha, hs⟩) fun hmade => he ▸ hmade
  · exact .inl ⟨attempt, hattempt, hsession⟩

theorem Owned.filterConnections (h : s.Owned) (p : Uuid → TelegramConnection → Bool) :
    { s with connections := s.connections.filter p }.Owned := by
  have hold {c : Uuid} {row : TelegramConnection} (hrow : (s.connections.filter p).get? c = some row) : s.connections.get? c = some row := by
    rw [Table.get?_filter, Option.filter_eq_some_iff] at hrow
    exact hrow.1
  exact { h with
    row := fun c row hrow => h.row c row (hold hrow)
    unique := fun c c' row row' hrow hrow' => h.unique c c' row row' (hold hrow) (hold hrow') }

theorem Owned.deleteConnection (h : s.Owned) (connectionId : Uuid) : (s.deleteConnection connectionId).Owned := by
  refine (h.filterConnections _).setAttempts fun authId attempt hattempt session hsession => .inl ⟨attempt, ?_, hsession⟩
  rw [Table.get?_filter, Option.filter_eq_some_iff] at hattempt
  exact hattempt.1

theorem Owned.authUpdate (h : s.Owned) (state message : String) {session : Option Nat} (hsession : ∀ x ∈ session, s.MadeFor x authId) :
    (s.authUpdate authId state message session).Owned := by
  have hupdated (connectionId : Option Uuid) := @Owned.modifyAttempt _ authId h (fun attempt =>
    { attempt with connectionId, state := authStateFromPublic state, message := some message, session := session.or attempt.session })
    fun attempt x hx => (Option.or_eq_some_iff.mp hx).symm.imp And.right (hsession x)
  unfold SignIns.authUpdate
  split
  · exact h
  · dsimp only
    split
    · exact (hupdated none).deleteConnection _
    · exact hupdated _

theorem Owned.modifyConnection (h : s.Owned) {f : TelegramConnection → TelegramConnection}
    (hf : ∀ row, s.connections.get? connectionId = some row → s.RowOwned connectionId (f row) ∧
      ((f row).telegramUserId = row.telegramUserId ∨ ∀ c row', s.connections.get? c = some row' → c ≠ connectionId →
        row'.telegramUserId ≠ (f row).telegramUserId)) :
    { s with connections := s.connections.modify connectionId f }.Owned := by
  have hrow {c : Uuid} {row : TelegramConnection} (hrow : (s.connections.modify connectionId f).get? c = some row) :
      (c ≠ connectionId ∧ s.connections.get? c = some row) ∨ ∃ row', c = connectionId ∧ s.connections.get? c = some row' ∧ row = f row' := by
    rw [Table.get?_modify] at hrow
    split at hrow
    · rename_i he
      obtain ⟨row', hrow', rfl⟩ := Option.map_eq_some_iff.mp hrow
      exact .inr ⟨row', he, hrow', rfl⟩
    · rename_i he
      exact .inl ⟨he, hrow⟩
  refine { h with row := fun c row hc => ?_, unique := fun c c' row row' hc hc' hsome he => ?_ }
  · rcases hrow hc with ⟨-, hold⟩ | ⟨row', rfl, hold, rfl⟩
    · exact h.row c row hold
    · exact (hf row' hold).1
  · rcases hrow hc with ⟨hne, hold⟩ | ⟨r, rfl, hold, rfl⟩ <;> rcases hrow hc' with ⟨hne', hold'⟩ | ⟨r', rfl, hold', rfl⟩
    · exact h.unique c c' row row' hold hold' hsome he
    · rcases (hf r' hold').2 with hsame | hother
      · exact h.unique c c' row r' hold hold' hsome (he.trans hsame)
      · exact absurd he (hother c row hold hne)
    · rcases (hf r hold).2 with hsame | hother
      · rw [hsame] at hsome he
        exact h.unique c c' r row' hold hold' hsome he
      · exact absurd he.symm (hother c' row' hold' hne')
    · rfl

theorem Owned.setState (h : s.Owned) (connectionId : Uuid) (state : TelegramConnectionState) (reason : Option String) :
    (s.setState connectionId state reason).Owned :=
  h.modifyConnection fun row hrow => ⟨h.row connectionId row hrow, .inl rfl⟩

theorem Owned.lost (h : s.Owned) (connectionId : Uuid) (authorizationInvalid : Bool) : (s.lost connectionId authorizationInvalid).Owned := by
  unfold SignIns.lost
  split
  · exact h.setState ..
  · exact h.setState ..

theorem Owned.authUpdate_none (h : s.Owned) (authId : Uuid) (state message : String) : (s.authUpdate authId state message).Owned :=
  h.authUpdate state message fun _ hx => by cases hx

/-! ### The steps -/

theorem grows_users {users : Table Uuid UserId} (h : s.users.push connectionId user = some users) : Grows s { s with users } where
  users c user' hc := by
    dsimp only
    rw [Table.get?_push h]
    split
    · rename_i he
      subst he
      rw [Table.push_eq_none.mpr ⟨user', hc⟩] at h
      cases h
    · exact hc
  sessions session record hr := ⟨record, hr, rfl, fun _ ha => ha⟩

theorem Owned.startAuth (h : s.Owned) {method : AuthMethod} (hs : s.startAuth authId user method = some t) : t.Owned := by
  unfold SignIns.startAuth at hs
  dsimp only at hs
  split at hs <;> cases hs
  rename_i users connections attempts husers hconnections hattempts
  have hown := h.grow (grows_users husers)
  refine { hown with row := fun c row hrow => ?_, unique := fun c c' row row' hrow hrow' hsome he => ?_, attempt := fun c attempt ha => ?_ }
  · dsimp only at hrow
    rw [Table.get?_push hconnections] at hrow
    split at hrow
    · rename_i he
      cases hrow
      refine ⟨?_, fun _ ha => (by cases ha), fun _ hs => (by cases hs)⟩
      dsimp only
      rw [Table.get?_push husers, if_pos he]
    · exact hown.row c row hrow
  · dsimp only at hrow hrow'
    rw [Table.get?_push hconnections] at hrow hrow'
    split at hrow
    · cases hrow
      cases hsome
    · split at hrow'
      · cases hrow'
        rw [he] at hsome
        cases hsome
      · exact hown.unique c c' row row' hrow hrow' hsome he
  · dsimp only at ha
    rw [Table.get?_push hattempts] at ha
    split at ha
    · cases ha
      exact fun _ hs => (by cases hs)
    · exact hown.attempt c attempt ha

theorem Owned.connect (h : s.Owned) {message : String} (hs : s.connect i message = some t) : t.Owned := by
  unfold SignIns.connect at hs
  split at hs
  case h_2 => cases hs
  rename_i command _
  have hgrow : Grows s { s with users := s.users, sessions := s.sessions ++ [{ authId := command.authId }] } := by
    refine ⟨fun _ _ hu => hu, fun session record hr => ⟨record, ?_, rfl, fun _ ha => ha⟩⟩
    dsimp only
    rw [List.getElem?_append_left (List.getElem?_eq_some_iff.mp hr).1]
    exact hr
  have hmade : MadeFor { s with sessions := s.sessions ++ [{ authId := command.authId }] } s.sessions.length command.authId :=
    ⟨_, List.getElem?_concat_length, rfl⟩
  have hown := (h.grow hgrow).setAuthClient hmade
  dsimp only at hs
  split at hs <;> cases hs
  · exact (hown.authUpdate _ _ (by rintro x ⟨⟩; exact hmade)).finish i
  · exact (hown.authUpdate _ _ (by rintro x ⟨⟩; exact hmade)).become i (MadeFor.mono (grows_authUpdate ..) hmade)

theorem Owned.signInClient (h : s.Owned) {command : Option AuthCommand}
    (hs : s.tasks[i]?.bind s.signInClient = some (command, authId, session)) : s.MadeFor session authId := by
  obtain ⟨task, ht, hs⟩ := Option.bind_eq_some_iff.mp hs
  have htask := h.task task (List.mem_of_getElem? ht)
  unfold SignIns.signInClient at hs
  split at hs
  · split at hs
    · obtain ⟨session, hclient, he⟩ := Option.map_eq_some_iff.mp hs
      cases he
      rcases Option.or_eq_some_iff.mp hclient with hclient | ⟨-, hclient⟩
      · exact h.authClient _ _ hclient
      · obtain ⟨attempt, ha, hsession⟩ := Option.bind_eq_some_iff.mp hclient
        exact h.attempt _ attempt ha _ hsession
    · cases hs
  · cases hs
    exact htask
  · cases hs

theorem Owned.authorize (h : s.Owned) (hs : s.authorize session account = some t) : t.Owned ∧ Grows s t := by
  unfold SignIns.authorize at hs
  split at hs
  case h_2 => cases hs
  rename_i record hrecord
  split at hs <;> cases hs
  rename_i hfree
  have hgrow : Grows s { s with users := s.users, sessions := s.sessions.set session { record with account := some account } } := by
    refine ⟨fun _ _ hu => hu, fun session' record' hr => ?_⟩
    dsimp only
    by_cases he : session = session'
    · subst he
      cases hrecord.symm.trans hr
      refine ⟨_, List.getElem?_set_self (List.getElem?_eq_some_iff.mp hr).1, rfl, fun a ha => ?_⟩
      rcases hfree with hnone | hsome
      · cases ha.symm.trans hnone
      · exact hsome.symm.trans ha
    · exact ⟨record', by rw [List.getElem?_set_ne he, hr], rfl, fun _ ha => ha⟩
  exact ⟨h.grow hgrow, hgrow⟩

theorem Owned.signIn (h : s.Owned) (hs : s.signIn i account = some t) : t.Owned := by
  unfold SignIns.signIn at hs
  split at hs
  case h_2 => cases hs
  rename_i command authId session hclient
  obtain ⟨s', hs', rfl⟩ := Option.map_eq_some_iff.mp hs
  obtain ⟨hown, hgrow⟩ := h.authorize hs'
  have hmade := (h.signInClient hclient).mono hgrow
  exact (hown.setAuthClient hmade).become i hmade

theorem Owned.needPassword (h : s.Owned) (hs : s.needPassword i = some t) : t.Owned := by
  unfold SignIns.needPassword at hs
  split at hs
  case h_2 => cases hs
  rename_i command authId session hclient
  split at hs <;> cases hs
  exact ((h.setAuthClient (h.signInClient hclient)).authUpdate_none _ _ _).finish i

theorem Owned.getMe (h : s.Owned) (hs : s.getMe i = some t) : t.Owned := by
  unfold SignIns.getMe at hs
  split at hs
  case h_2 => cases hs
  rename_i command authId session ht
  obtain ⟨record, hrecord, hid⟩ := h.task _ (List.mem_of_getElem? ht)
  split at hs
  case h_2 => cases hs
  rename_i hr
  cases hrecord.symm.trans hr
  split at hs <;> cases hs
  · exact h.finish i
  · rename_i connection hconnection
    refine h.become i ⟨⟨_, hrecord, hid, rfl⟩, (h.row _ _ hconnection).1, fun e he => ?_⟩
    obtain ⟨⟨c, row⟩, hfound, rfl⟩ := Option.map_eq_some_iff.mp he
    exact (h.row c row (Table.get?_eq_some.mpr (List.mem_of_find?_eq_some hfound))).1

theorem Owned.conflict (h : s.Owned) (i : Nat) (authId : Uuid) : (s.conflict i authId).Owned :=
  ((h.authUpdate_none _ _ _).removeAuthClient authId).finish i

theorem Owned.commit (h : s.Owned) (hs : s.commit i = some t) : t.Owned := by
  unfold SignIns.commit at hs
  split at hs
  case h_2 => cases hs
  rename_i command authId session account existing user ht
  obtain ⟨⟨record, hrecord, hid, haccount⟩, huser, hexisting⟩ := h.task _ (List.mem_of_getElem? ht)
  have hsession : s.SessionOf session user := ⟨authId, ⟨record, hrecord, hid⟩, huser⟩
  have hsigned : s.SignedIn user account := ⟨session, record, hrecord, hid ▸ huser, haccount⟩
  split at hs
  · rename_i target owner
    have htarget := hexisting (target, owner) rfl
    split at hs
    · cases hs
      exact h.conflict i authId
    rename_i hsame
    obtain rfl := not_not.mp hsame
    split at hs <;> cases hs
    have hrow := @Owned.modifyConnection _ target h (fun c => { c with
      encryptedSession := some session, state := .ready, reauthenticationReason := none }) fun row hrow => by
        have hold := h.row target row hrow
        have he : row.userId = owner := Option.some.inj (hold.1.symm.trans htarget)
        exact ⟨⟨hold.1, hold.2.1, fun x hx => by cases hx; exact he ▸ hsession⟩, .inl rfl⟩
    have hattempt := @Owned.modifyAttempt _ authId hrow (fun attempt => { attempt with connectionId := some target }) fun _ _ hx => .inl hx
    have hready := (hattempt.deleteConnection authId).authUpdate_none authId "ready" "Telegram connected"
    exact hready.become i (Speaks.mono (grows_authUpdate ..) ⟨owner, htarget, hsession⟩)
  · split at hs
    · cases hs
    split at hs <;> cases hs
    · exact h.conflict i authId
    rename_i hnone
    have hrow := @Owned.modifyConnection _ authId h (fun c => { c with
      telegramUserId := some account, encryptedSession := some session, state := .ready, reauthenticationReason := none }) fun row hrow => by
        have hold := h.row authId row hrow
        have he : row.userId = user := Option.some.inj (hold.1.symm.trans huser)
        refine ⟨⟨hold.1, fun x hx => ?_, fun x hx => ?_⟩, .inr fun c row' hrow' hne heq => hnone ?_⟩
        · cases hx
          exact he ▸ hsigned
        · cases hx
          exact he ▸ hsession
        · exact List.any_eq_true.mpr ⟨(c, row'), Table.get?_eq_some.mp hrow', by simp [hne, heq]⟩
    have hready := hrow.authUpdate_none authId "ready" "Telegram connected"
    exact hready.become i (Speaks.mono (grows_authUpdate ..) ⟨user, huser, hsession⟩)

theorem Owned.attached (h : s.Owned) (hs : s.attached i = some t) : t.Owned := by
  unfold SignIns.attached at hs
  split at hs
  case h_2 => cases hs
  rename_i connectionId session restoring ht
  have hspeaks : s.Speaks connectionId session := h.task _ (List.mem_of_getElem? ht)
  have hown : Owned { s with clients := s.clients.set (connectionId, session), handlers := s.handlers ++ [(connectionId, session)] } := by
    refine { h with handler := fun e he => ?_ }
    rcases List.mem_append.mp he with he | he
    · exact h.handler e he
    · cases List.mem_singleton.mp he
      exact hspeaks
  dsimp only at hs
  cases hs
  split
  · exact (hown.finish i).setState ..
  · exact hown.finish i

theorem Owned.restore (h : s.Owned) (hs : s.restore connectionId = some t) : t.Owned := by
  unfold SignIns.restore at hs
  split at hs
  case h_2 => cases hs
  rename_i row hrow
  split at hs <;> cases hs
  refine h.setTasks fun task ht => (List.mem_append.mp ht).imp_right fun ht => ?_
  obtain ⟨session, hsession, rfl⟩ := List.mem_map.mp ht
  have hold := h.row connectionId row hrow
  exact ⟨row.userId, hold.1, hold.2.2 session (Option.mem_toList.mp hsession)⟩

theorem Owned.raise (h : s.Owned) {message : String} (hs : s.raise i message = some t) : t.Owned := by
  have hretry (command : AuthCommand) : (s.retry i command message).Owned := by
    unfold SignIns.retry
    split
    · have hown : Owned { s with commands := s.commands ++ [TelegramCommand.auth { command with attempt := command.attempt + 1 }] } := { h with }
      exact hown.finish i
    · exact (h.authUpdate_none _ _ _).finish i
  unfold SignIns.raise at hs
  split at hs <;> cases hs
  all_goals first | exact hretry _ | exact ((h.removeAuthClient _).authUpdate_none _ _ _).finish i

theorem Owned.receive (h : s.Owned) {j : Nat} (hs : s.receive j = some t) : t.Owned := by
  unfold SignIns.receive at hs
  split at hs
  case h_2 => cases hs
  rename_i connectionId session hj
  split at hs <;> cases hs
  rename_i authId account row hrecord hrow
  obtain ⟨user, huser, authId', ⟨record', hrecord', rfl⟩, huser'⟩ := h.handler _ (List.mem_of_getElem? hj)
  cases hrecord.symm.trans hrecord'
  have he : row.userId = user := Option.some.inj ((h.row _ _ hrow).1.symm.trans huser)
  refine { h with published := fun e hmem => ?_ }
  rcases List.mem_append.mp hmem with hmem | hmem
  · exact h.published e hmem
  · cases List.mem_singleton.mp hmem
    exact ⟨session, _, hrecord, he ▸ huser', rfl⟩

theorem Owned.step (h : s.Owned) (hs : s.step a = some t) : t.Owned := by
  cases a with
  | tick duration => cases hs; exact { h with }
  | startAuth authId user method => exact h.startAuth hs
  | submitCode authId user =>
    simp only [SignIns.step, submitAuthCode, submit] at hs
    split at hs <;> cases hs
    exact { h with }
  | submitPassword authId user =>
    simp only [SignIns.step, submitAuthPassword, submit] at hs
    split at hs <;> cases hs
    exact { h with }
  | disconnect connectionId user =>
    simp only [SignIns.step, disconnectTelegram] at hs
    split at hs <;> cases hs
    exact { h.deleteConnection connectionId with }
  | take =>
    simp only [SignIns.step, take] at hs
    split at hs <;> cases hs
    · rename_i command commands _
      have hown : Owned { s with commands } := { h with }
      refine hown.setTasks fun task ht => (List.mem_append.mp ht).imp_right fun ht => ?_
      rw [List.mem_singleton.mp ht]
      trivial
    · exact { h with }
  | connect i message => exact h.connect hs
  | signIn i account => exact h.signIn hs
  | needPassword i => exact h.needPassword hs
  | getMe i => exact h.getMe hs
  | commit i => exact h.commit hs
  | attach i =>
    simp only [SignIns.step, attach] at hs
    split at hs <;> cases hs
    rename_i connectionId session restoring ht
    have hown : Owned { s with clients := s.clients.remove connectionId } := { h with }
    exact hown.become i (h.task (.attach connectionId session restoring) (List.mem_of_getElem? ht))
  | attached i => exact h.attached hs
  | restore connectionId => exact h.restore hs
  | restored i =>
    simp only [SignIns.step, restored] at hs
    split at hs
    case h_2 => cases hs
    rename_i connectionId session ht
    split at hs <;> cases hs
    exact h.become i (h.task (.restore connectionId session) (List.mem_of_getElem? ht))
  | restoreFailed i authorizationInvalid =>
    simp only [SignIns.step, restoreFailed] at hs
    split at hs <;> cases hs
    exact (h.lost ..).finish i
  | raise i message => exact h.raise hs
  | unhealthy connectionId authorizationInvalid =>
    simp only [SignIns.step, unhealthy] at hs
    split at hs <;> cases hs
    have hown : Owned { s with clients := s.clients.remove connectionId } := { h with }
    exact hown.lost ..
  | hangUp j =>
    cases hs
    exact { h with handler := fun e he => h.handler e (List.mem_of_mem_eraseIdx he) }
  | revoke session =>
    cases hs
    refine h.grow ⟨fun _ _ hu => hu, fun session' record hr => ?_⟩
    dsimp only
    rw [List.getElem?_modify, hr]
    split
    · exact ⟨_, rfl, rfl, fun _ ha => ha⟩
    · exact ⟨_, rfl, rfl, fun _ ha => ha⟩
  | receive j => exact h.receive hs
  | crash =>
    cases hs
    refine { h with authClient := fun _ _ hx => ?_, handler := List.forall_mem_nil _, task := List.forall_mem_nil _ }
    cases hx

/-- However the steps interleave, a connection is of an account that its own user signed in
to, a message is published for such a user only, and no two connections are of one account. -/
theorem own_account (h : Reach step always {} s) :
    (∀ c row account, s.connections.get? c = some row → row.telegramUserId = some account → s.SignedIn row.userId account) ∧
      (∀ c account user, (c, account, user) ∈ s.published → s.SignedIn user account) ∧
      ∀ c c' row row' account, s.connections.get? c = some row → s.connections.get? c' = some row' →
        row.telegramUserId = some account → row'.telegramUserId = some account → c = c' := by
  have hs : s.Owned := by
    refine h.invariant ?_ fun _ _ _ hs _ hstep => hs.step hstep
    refine ⟨fun _ _ hx => ?_, fun _ _ _ _ hx => ?_, fun _ _ hx => ?_, fun _ _ hx => ?_, List.forall_mem_nil _, List.forall_mem_nil _,
      List.forall_mem_nil _⟩ <;> cases hx
  refine ⟨fun c row account hrow => (hs.row c row hrow).2.1 account, fun c account user hmem => hs.published _ hmem, ?_⟩
  intro c c' row row' account hrow hrow' ha ha'
  exact hs.unique c c' row row' hrow hrow' (ha ▸ rfl) (ha.trans ha'.symm)

/-- Two users sign in to one account; the first has it, and what it receives. -/
def twoSignIns : List SignInLabel :=
  [.startAuth 1 101 .phone, .startAuth 2 102 .phone, .take, .take, .connect 0 "", .connect 0 "", .submitCode 1 101, .submitCode 2 102,
    .take, .take, .signIn 0 77, .signIn 1 77, .getMe 0, .getMe 1, .commit 0, .commit 1, .attach 0, .attached 0, .receive 0]

theorem own_account_twoSignIns : ∃ s, Reach step always {} s ∧ (1, 77, 101) ∈ s.published ∧ s.connections.get? 2 = none ∧
    s.SignedIn 101 77 := by
  have hrun : (run step {} twoSignIns).map (fun s => (s.published, (s.connections.get? 2).isNone)) = some ([(1, 77, 101)], true) := by
    decide +kernel
  obtain ⟨s, hs, hrun⟩ := Option.map_eq_some_iff.mp hrun
  obtain ⟨hpublished, hnone⟩ := Prod.mk.inj hrun
  have hmem : (1, 77, 101) ∈ s.published := hpublished ▸ List.mem_singleton_self _
  exact ⟨s, .of_run hs, hmem, Option.isNone_iff_eq_none.mp hnone, (own_account (.of_run hs)).2.1 1 77 101 hmem⟩

/-! ## Connections that are pending -/

/-- The sign-in can still succeed. -/
def Open (s : SignIns) (connectionId : Uuid) : Prop :=
  ∃ attempt, s.attempts.get? connectionId = some attempt ∧ attempt.connectionId = some connectionId ∧
    attempt.state ≠ .failed ∧ attempt.state ≠ .ready

def PendingOpen (s : SignIns) : Prop :=
  ∀ c row, s.connections.get? c = some row → row.state = .pending → s.Open c

theorem PendingOpen.deleteConnection (h : s.PendingOpen) (connectionId : Uuid) : (s.deleteConnection connectionId).PendingOpen := by
  intro c row hrow hpending
  dsimp only [SignIns.deleteConnection] at hrow
  rw [Table.get?_remove] at hrow
  split at hrow
  · cases hrow
  rename_i hne
  obtain ⟨attempt, ha, hid, hstate⟩ := h c row hrow hpending
  refine ⟨attempt, ?_, hid, hstate⟩
  dsimp only [SignIns.deleteConnection]
  rw [Table.get?_filter, ha, Option.filter_some, if_pos]
  simp [hid, hne]

/-- The attempt of a connection that is pending does not become one that is ready. -/
theorem PendingOpen.authUpdate (h : s.PendingOpen) {state message : String} {session : Option Nat}
    (hready : authStateFromPublic state = .ready → ∀ row, s.connections.get? authId = some row → row.state ≠ .pending)
    (hfailed : authStateFromPublic state = .failed → state = "failed") : (s.authUpdate authId state message session).PendingOpen := by
  unfold SignIns.authUpdate
  split
  · exact h
  rename_i attempt hattempt
  dsimp only
  split
  · -- the sign-in's connection is deleted
    rename_i c₀ hc₀
    obtain ⟨hid₀, -⟩ := Option.filter_eq_some_iff.mp hc₀
    intro c row hrow hpending
    dsimp only [SignIns.deleteConnection] at hrow
    rw [Table.get?_remove] at hrow
    split at hrow
    · cases hrow
    rename_i hne
    obtain ⟨attempt', ha, hid, hstate⟩ := h c row hrow hpending
    have hauth : c ≠ authId := by
      rintro rfl
      cases hattempt.symm.trans ha
      exact hne (Option.some.inj (hid.symm.trans hid₀))
    refine ⟨attempt', ?_, hid, hstate⟩
    dsimp only [SignIns.deleteConnection]
    rw [Table.get?_filter, Table.get?_modify_of_ne _ hauth, ha, Option.filter_some, if_pos]
    simp [hid, hne]
  · rename_i hkept
    intro c row hrow hpending
    obtain ⟨attempt', ha, hid, hnf, hnr⟩ := h c row hrow hpending
    by_cases he : c = authId
    · subst he
      cases hattempt.symm.trans ha
      have hupdated : (s.attempts.modify c fun attempt' => { attempt' with
          connectionId := attempt.connectionId, state := authStateFromPublic state, message := some message
          session := session.or attempt'.session }).get? c = _ := (Table.get?_modify_self _).trans (congrArg _ ha)
      refine ⟨_, hupdated, hid, fun hf => ?_, fun hr => hready hr row hrow hpending⟩
      have hstate := hfailed hf
      rw [hid, Option.filter_eq_none_iff] at hkept
      exact hkept c rfl (by simp [hstate, hrow, hpending])
    · exact ⟨attempt', by dsimp only; rw [Table.get?_modify_of_ne _ he, ha], hid, hnf, hnr⟩

theorem PendingOpen.fail (h : s.PendingOpen) (authId : Uuid) (message : String) : (s.authUpdate authId "failed" message).PendingOpen :=
  h.authUpdate (fun hr => absurd hr (by decide)) fun _ => rfl

theorem PendingOpen.succeed (h : s.PendingOpen) (authId : Uuid) (message : String)
    (hrow : ∀ row, s.connections.get? authId = some row → row.state ≠ .pending) : (s.authUpdate authId "ready" message).PendingOpen :=
  h.authUpdate (fun _ => hrow) fun hf => absurd hf (by decide)

theorem PendingOpen.ask (h : s.PendingOpen) (authId : Uuid) {state message : String} (session : Option Nat)
    (hready : authStateFromPublic state ≠ .ready) (hfailed : authStateFromPublic state ≠ .failed) :
    (s.authUpdate authId state message session).PendingOpen :=
  h.authUpdate (fun hr => absurd hr hready) fun hf => absurd hf hfailed

theorem PendingOpen.finish (h : s.PendingOpen) (i : Nat) : (s.finish i).PendingOpen := h

theorem PendingOpen.become (h : s.PendingOpen) (i : Nat) (task : SignInTask) : (s.become i task).PendingOpen := h

/-- A row that is not pending any more. -/
theorem PendingOpen.modifyConnection (h : s.PendingOpen) {f : TelegramConnection → TelegramConnection} (hf : ∀ row, (f row).state ≠ .pending) :
    PendingOpen { s with connections := s.connections.modify connectionId f } := by
  intro c row hrow hpending
  dsimp only at hrow
  rw [Table.get?_modify] at hrow
  split at hrow
  · obtain ⟨row', -, rfl⟩ := Option.map_eq_some_iff.mp hrow
    exact absurd hpending (hf row')
  · exact h c row hrow hpending

theorem PendingOpen.lost (h : s.PendingOpen) (connectionId : Uuid) (authorizationInvalid : Bool) :
    (s.lost connectionId authorizationInvalid).PendingOpen := by
  unfold SignIns.lost
  split <;> exact h.modifyConnection fun _ => TelegramConnectionState.noConfusion

theorem PendingOpen.startAuth (h : s.PendingOpen) {method : AuthMethod} (hs : s.startAuth authId user method = some t) : t.PendingOpen := by
  unfold SignIns.startAuth at hs
  dsimp only at hs
  split at hs <;> cases hs
  rename_i users connections attempts husers hconnections hattempts
  intro c row hrow hpending
  dsimp only at hrow
  rw [Table.get?_push hconnections] at hrow
  split at hrow
  · rename_i he
    subst he
    refine ⟨_, (Table.get?_push hattempts).trans (if_pos rfl), rfl, ?_, ?_⟩ <;> exact TelegramAuthState.noConfusion
  · rename_i hne
    obtain ⟨attempt, ha, hstate⟩ := h c row hrow hpending
    exact ⟨attempt, (Table.get?_push hattempts).trans ((if_neg hne).trans ha), hstate⟩

theorem PendingOpen.conflict (h : s.PendingOpen) (i : Nat) (authId : Uuid) : (s.conflict i authId).PendingOpen :=
  h.fail authId telegramOwnershipConflictMessage

theorem PendingOpen.commit (h : s.PendingOpen) (hs : s.commit i = some t) : t.PendingOpen := by
  unfold SignIns.commit at hs
  split at hs
  case h_2 => cases hs
  rename_i command authId session account existing user ht
  split at hs
  · rename_i target owner
    split at hs
    · cases hs
      exact h.conflict i authId
    split at hs <;> cases hs
    have hready : PendingOpen { s with connections := s.connections.modify target fun c => { c with
        encryptedSession := some session, state := .ready, reauthenticationReason := none } } :=
      h.modifyConnection fun _ => TelegramConnectionState.noConfusion
    -- the row of the sign-in goes, so that its attempt may point elsewhere
    have hgone : PendingOpen (SignIns.deleteConnection { s with
        connections := s.connections.modify target fun c => { c with
          encryptedSession := some session, state := .ready, reauthenticationReason := none }
        attempts := s.attempts.modify authId fun attempt => { attempt with connectionId := some target } } authId) := by
      intro c row hrow hpending
      obtain ⟨attempt, ha, hstate⟩ := hready.deleteConnection authId c row hrow hpending
      refine ⟨attempt, ?_, hstate⟩
      have hne : c ≠ authId := by
        rintro rfl
        dsimp only [SignIns.deleteConnection] at hrow
        rw [Table.get?_remove, if_pos rfl] at hrow
        cases hrow
      dsimp only [SignIns.deleteConnection] at ha ⊢
      rw [Table.get?_filter] at ha ⊢
      rwa [Table.get?_modify_of_ne _ hne]
    refine (hgone.succeed authId "Telegram connected" fun row hrow => ?_).become i _
    dsimp only [SignIns.deleteConnection] at hrow
    rw [Table.get?_remove, if_pos rfl] at hrow
    cases hrow
  · split at hs
    · cases hs
    split at hs <;> cases hs
    · exact h.conflict i authId
    have hready : PendingOpen { s with connections := s.connections.modify authId fun c => { c with
        telegramUserId := some account, encryptedSession := some session, state := .ready, reauthenticationReason := none } } :=
      h.modifyConnection fun _ => TelegramConnectionState.noConfusion
    refine (hready.succeed authId "Telegram connected" fun row hrow => ?_).become i _
    dsimp only at hrow
    rw [Table.get?_modify_self] at hrow
    obtain ⟨row', -, rfl⟩ := Option.map_eq_some_iff.mp hrow
    exact TelegramConnectionState.noConfusion

theorem PendingOpen.raise (h : s.PendingOpen) {message : String} (hs : s.raise i message = some t) : t.PendingOpen := by
  have hretry (command : AuthCommand) : (s.retry i command message).PendingOpen := by
    unfold SignIns.retry
    split
    · exact h
    · exact h.fail command.authId message
  have hfail (authId : Uuid) : (SignIns.authUpdate { s with authClients := s.authClients.remove authId } authId "failed" message).PendingOpen := by
    have hremoved : PendingOpen { s with authClients := s.authClients.remove authId } := h
    exact hremoved.fail authId message
  unfold SignIns.raise at hs
  split at hs <;> cases hs
  all_goals first | exact hretry _ | exact (hfail _).finish i

theorem PendingOpen.step (h : s.PendingOpen) (hs : s.step a = some t) : t.PendingOpen := by
  cases a with
  | startAuth authId user method => exact h.startAuth hs
  | disconnect connectionId user =>
    simp only [SignIns.step, disconnectTelegram] at hs
    split at hs <;> cases hs
    exact h.deleteConnection connectionId
  | connect i message =>
    simp only [SignIns.step, SignIns.connect] at hs
    split at hs
    case h_2 => cases hs
    rename_i command _
    have hclient : PendingOpen { s with
        sessions := s.sessions ++ [{ authId := command.authId }]
        authClients := s.authClients.set (command.authId, s.sessions.length) } := h
    split at hs <;> cases hs
    · exact (hclient.ask _ _ (by decide) (by decide)).finish i
    · exact (hclient.ask _ _ (by decide) (by decide)).become i _
  | needPassword i =>
    simp only [SignIns.step, SignIns.needPassword] at hs
    split at hs
    case h_2 => cases hs
    rename_i command authId session _
    have hclient : PendingOpen { s with authClients := s.authClients.set (authId, session) } := h
    split at hs <;> cases hs
    exact (hclient.ask _ _ (by decide) (by decide)).finish i
  | commit i => exact h.commit hs
  | attached i =>
    simp only [SignIns.step, SignIns.attached] at hs
    split at hs <;> cases hs
    rename_i connectionId session restoring _
    have hclient : PendingOpen { s with
        clients := s.clients.set (connectionId, session)
        handlers := s.handlers ++ [(connectionId, session)] } := h
    split
    · exact (hclient.finish i).modifyConnection fun _ => TelegramConnectionState.noConfusion
    · exact h
  | restoreFailed i authorizationInvalid =>
    simp only [SignIns.step, restoreFailed] at hs
    split at hs <;> cases hs
    exact (h.lost _ authorizationInvalid).finish i
  | raise i message => exact h.raise hs
  | unhealthy connectionId authorizationInvalid =>
    simp only [SignIns.step, unhealthy] at hs
    split at hs <;> cases hs
    have hclient : PendingOpen { s with clients := s.clients.remove connectionId } := h
    exact hclient.lost connectionId authorizationInvalid
  | signIn i account =>
    simp only [SignIns.step, SignIns.signIn] at hs
    split at hs
    case h_2 => cases hs
    obtain ⟨s', hs', rfl⟩ := Option.map_eq_some_iff.mp hs
    unfold authorize at hs'
    split at hs'
    case h_2 => cases hs'
    split at hs' <;> cases hs'
    exact h
  | getMe i =>
    simp only [SignIns.step, SignIns.getMe] at hs
    split at hs
    case h_2 => cases hs
    split at hs
    case h_2 => cases hs
    split at hs <;> cases hs <;> exact h
  | receive j =>
    simp only [SignIns.step, SignIns.receive] at hs
    split at hs
    case h_2 => cases hs
    split at hs <;> cases hs
    exact h
  | tick duration => cases hs; exact h
  | hangUp j => cases hs; exact h
  | revoke session => cases hs; exact h
  | crash => cases hs; exact h
  | take => simp only [SignIns.step, take] at hs; split at hs <;> cases hs <;> exact h
  | attach i => simp only [SignIns.step, attach] at hs; split at hs <;> cases hs; exact h
  | submitCode authId user => simp only [SignIns.step, submitAuthCode, submit] at hs; split at hs <;> cases hs; exact h
  | submitPassword authId user => simp only [SignIns.step, submitAuthPassword, submit] at hs; split at hs <;> cases hs; exact h
  | restore connectionId =>
    simp only [SignIns.step, SignIns.restore] at hs
    split at hs
    case h_2 => cases hs
    split at hs <;> cases hs
    exact h
  | restored i =>
    simp only [SignIns.step, restored] at hs
    split at hs
    case h_2 => cases hs
    split at hs <;> cases hs
    exact h

/-- No sign-in that has failed, or is done, leaves a pending connection behind. -/
theorem pending_attempt (h : Reach step always {} s) {c : Uuid} {row : TelegramConnection} (hrow : s.connections.get? c = some row)
    (hpending : row.state = .pending) : s.Open c := by
  have hs : s.PendingOpen := h.invariant (fun _ _ hx => by cases hx) fun _ _ _ hs _ hstep => hs.step hstep
  exact hs c row hrow hpending

/-- Two sign-ins of a user, the second to the account of the first, and a third that is still open. -/
theorem pending_attempt_again : ∃ s, Reach step always {} s ∧ (s.connections.get? 2).isNone ∧
    (∃ row, s.connections.get? 3 = some row ∧ row.state = .pending) ∧ s.Open 3 := by
  have hrun : (run step {} [.startAuth 1 101 .phone, .startAuth 2 101 .qr, .startAuth 3 101 .qr, .take, .take, .take, .connect 0 "",
      .connect 0 "", .connect 1 "", .submitCode 1 101, .take, .signIn 2 77, .getMe 2, .commit 2, .signIn 0 77, .getMe 0, .commit 0]).bind
      (fun s => (s.connections.get? 3).map fun row => (row.state, (s.connections.get? 2).isNone)) = some (.pending, true) := by
    decide +kernel
  obtain ⟨s, hs, hrow⟩ := Option.bind_eq_some_iff.mp hrun
  obtain ⟨row, hrow, he⟩ := Option.map_eq_some_iff.mp hrow
  obtain ⟨hpending, hnone⟩ := Prod.mk.inj he
  exact ⟨s, .of_run hs, hnone, ⟨row, hrow, hpending⟩, pending_attempt (.of_run hs) hrow hpending⟩

end SignIns

end Telegram

end SignalSync
