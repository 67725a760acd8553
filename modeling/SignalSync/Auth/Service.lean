import SignalSync.Delivery
import SignalSync.Library.Text

/-!
# Accounts, passwords and tokens

The users and their tokens, and the operations of the auth service and of the
security page on them. A row is known by its place in its table, and so is the
raw token behind a stored hash: hashes do not collide, and nobody guesses a token
that has not been drawn. `AuthDb.call` puts the operations together.
-/

namespace SignalSync

open Library

/-! ## Rows -/

inductive AuthProvider
  | email | google
deriving DecidableEq, Repr

inductive TokenType
  | access | refresh | reset_password | verify_email
deriving DecidableEq, Repr

abbrev UserId := Nat

/-- The raw token, by the number of those drawn before it. -/
abbrev RawToken := Nat

/-- What bcrypt reads of a password. -/
class Bcrypt where
  significant : String → String

/-- A bcrypt hash, as far as it tells passwords apart; `none` hashes a random text
that nobody knows. -/
structure PasswordHash where
  significant : Option String
deriving DecidableEq

def getPasswordHash [Bcrypt] (password : String) : PasswordHash := ⟨some (Bcrypt.significant password)⟩

/-- `get_password_hash(uuid.uuid4().hex)`. -/
def unusablePasswordHash : PasswordHash := ⟨none⟩

def verifyPassword [Bcrypt] (password : String) (hash : PasswordHash) : Bool :=
  hash.significant = some (Bcrypt.significant password)

structure User where
  email : String
  hashedPassword : PasswordHash
  authProvider : AuthProvider := .email
  hasUsablePassword : Bool := true
  isEmailVerified : Bool := false
  isSuspended : Bool := false
  isDeleted : Bool := false
deriving DecidableEq

structure Token where
  userId : UserId
  type : TokenType
  expiresAt : Time
  isRevoked : Bool := false
  revokedAt : Option Time := none
deriving DecidableEq

structure AuthDb where
  users : List User := []
  tokens : List Token := []

structure AuthSettings where
  refreshTokenExpireDays : Nat := 30
  passwordResetExpiryMinutes : Nat := 15
  emailVerifyExpiryHours : Nat := 24
  googleClientId : String

/-- A mail with a raw token, as it is enqueued. -/
structure Mail where
  address : String
  token : RawToken
deriving DecidableEq

/-- What an operation leaves: the database, the refresh cookie it sets and the
mail it enqueues. -/
structure AuthReply where
  db : AuthDb
  refreshCookie : Option RawToken := none
  mail : Option Mail := none

/-! ## The repositories -/

namespace AuthDb

/-- `user_repo.get_by_id`. -/
def userById (db : AuthDb) (id : UserId) : Option User := (db.users[id]?).filter fun user => !user.isDeleted

def setUser (db : AuthDb) (id : UserId) (f : User → User) : AuthDb := { db with users := db.users.modify id f }

/-- `token_repo.create`; the raw token is the number of tokens there were. -/
def createToken (db : AuthDb) (userId : UserId) (type : TokenType) (expiresAt : Time) : AuthDb :=
  { db with tokens := db.tokens ++ [{ userId, type, expiresAt }] }

end AuthDb

def Token.isActive (token : Token) (type : TokenType) (now : Time) : Bool :=
  token.type = type && !token.isRevoked && now < token.expiresAt

/-- `revoke`, of one token. -/
def Token.revoke (now : Time) (token : Token) : Token := { token with isRevoked := true, revokedAt := some now }

namespace AuthDb

def getActive (db : AuthDb) (raw : RawToken) (type : TokenType) (now : Time) : Option Token :=
  (db.tokens[raw]?).filter (·.isActive type now)

/-- `grace_seconds` of `get_recently_revoked`. -/
def graceSeconds : Nat := 30

def getRecentlyRevoked (db : AuthDb) (raw : RawToken) (type : TokenType) (now : Time) : Option Token :=
  (db.tokens[raw]?).filter fun token =>
    token.type = type && token.isRevoked && token.revokedAt.any (now ≤ · + seconds graceSeconds)

def revoke (db : AuthDb) (raw : RawToken) (now : Time) : AuthDb :=
  { db with tokens := db.tokens.modify raw (Token.revoke now) }

/-- The tokens of a type that a user has and that are not revoked, all revoked. -/
def revokeAllByUserAndType (db : AuthDb) (userId : UserId) (type : TokenType) (now : Time) : AuthDb :=
  { db with
    tokens := db.tokens.map fun token =>
      if token.userId = userId && token.type = type && !token.isRevoked then token.revoke now else token }

end AuthDb

section

variable [Unicode] [Bcrypt]

namespace AuthDb

/-- `user_repo.get_by_email`. -/
def userByEmail (db : AuthDb) (email : String) : Option UserId :=
  db.users.findIdx? fun user => user.email = Unicode.lower email && !user.isDeleted

/-- `user_repo.create`; an address that another row has, a deleted user's too,
violates the unique key. -/
def createUser (db : AuthDb) (user : User) : Except HttpError AuthDb :=
  if db.users.any (·.email = user.email) then .error ⟨500, "Internal Server Error"⟩
  else .ok { db with users := db.users ++ [user] }

end AuthDb

/-! ## The auth service -/

variable (settings : AuthSettings) (now : Time) (db : AuthDb)

def AuthSettings.verifyExpiry : Time := now + seconds (settings.emailVerifyExpiryHours * 3600)

def AuthSettings.refreshExpiry : Time := now + seconds (settings.refreshTokenExpireDays * 86400)

/-- A verification token of the user, with its mail to the address. -/
def issueVerification (db : AuthDb) (userId : UserId) (address : String) : AuthReply where
  db := db.createToken userId .verify_email (settings.verifyExpiry now)
  mail := some ⟨address, db.tokens.length⟩

def register (email password : String) : Except HttpError AuthReply :=
  match db.userByEmail email with
  | some _ => .error ⟨409, "An account with this email already exists."⟩
  | none =>
    (db.createUser { email := Unicode.lower email, hashedPassword := getPasswordHash password }).map fun db' =>
      issueVerification settings now db' db.users.length (Unicode.lower email)

/-- `_issue_session`; `_rotate_refresh_cookie` writes the same token. -/
def issueSession (db : AuthDb) (userId : UserId) : AuthReply where
  db := db.createToken userId .refresh (settings.refreshExpiry now)
  refreshCookie := some db.tokens.length

/-- The answer of Google's tokeninfo endpoint. -/
inductive TokenInfo
  | unreachable
  | refused
  | claims (audience : Option String) (emailVerified : Bool) (email : Option String)
deriving DecidableEq

def verifyGoogleIdToken (info : TokenInfo) : Except HttpError String :=
  if settings.googleClientId = "" then .error ⟨503, "Google sign-in is not configured."⟩
  else match info with
  | .unreachable => .error ⟨502, "Could not reach Google to verify sign-in. Try again."⟩
  | .refused => .error ⟨401, "Invalid Google sign-in token."⟩
  | .claims audience emailVerified email =>
    if audience ≠ some settings.googleClientId then .error ⟨401, "Invalid Google sign-in token."⟩
    else if !emailVerified then .error ⟨401, "Your Google email is not verified."⟩
    else match email.filter (· ≠ "") with
    | none => .error ⟨401, "Google sign-in did not return an email."⟩
    | some email => .ok email

/-- The account of a Google identity, created or linked. -/
def linkGoogleAccount (email : String) : Except HttpError (UserId × AuthDb) :=
  match db.userByEmail email with
  | none =>
    (db.createUser
      { email := Unicode.lower email, hashedPassword := unusablePasswordHash, authProvider := .google
        hasUsablePassword := false, isEmailVerified := true }).map fun db' => (db.users.length, db')
  | some id => .ok (id, db.setUser id fun user => { user with isEmailVerified := true })

def googleAuth (info : TokenInfo) : Except HttpError AuthReply := do
  let email ← verifyGoogleIdToken settings info
  let (id, db) ← linkGoogleAccount db (Unicode.lower email)
  return issueSession settings now db id

def login (email password : String) : Except HttpError AuthReply :=
  match (db.userByEmail email).bind fun id => (db.users[id]?).map fun user => (id, user) with
  | none => .error ⟨401, "Incorrect email or password."⟩
  | some (id, user) =>
    if !verifyPassword password user.hashedPassword then .error ⟨401, "Incorrect email or password."⟩
    else if !user.isEmailVerified then .error ⟨403, "Please verify your email before logging in."⟩
    else if user.isSuspended then .error ⟨403, "This account is suspended. Contact support for assistance."⟩
    else .ok (issueSession settings now db id)

def verifyEmail (raw : RawToken) : Except HttpError AuthReply :=
  match (db.tokens[raw]?).filter (·.type = .verify_email) with
  | none => .error ⟨400, "Invalid or expired verification token."⟩
  | some token =>
    match db.userById token.userId with
    | none => .error ⟨404, "User not found."⟩
    | some user =>
      if user.isEmailVerified then .ok { db }
      else if token.isRevoked || token.expiresAt ≤ now then .error ⟨400, "Invalid or expired verification token."⟩
      else .ok { db := (db.setUser token.userId fun user => { user with isEmailVerified := true }).revoke raw now }

def resendVerification (email : String) : AuthReply :=
  match (db.userByEmail email).bind fun id => (db.users[id]?).map fun user => (id, user) with
  | none => { db }
  | some (id, user) =>
    if user.isEmailVerified then { db }
    else issueVerification settings now (db.revokeAllByUserAndType id .verify_email now) id user.email

def refreshAccessToken (rawRefresh : Option RawToken) : Except HttpError AuthReply :=
  match rawRefresh with
  | none => .error ⟨401, "Refresh token missing."⟩
  | some raw =>
    match db.getActive raw .refresh now with
    | none =>
      match db.getRecentlyRevoked raw .refresh now with
      | none => .error ⟨401, "Invalid or expired refresh token."⟩
      | some grace =>
        match db.userById grace.userId with
        | none => .error ⟨401, "User not found."⟩
        | some _ => .ok (issueSession settings now db grace.userId)
    | some token =>
      match db.userById token.userId with
      | none => .error ⟨401, "User not found."⟩
      | some _ => .ok (issueSession settings now (db.revoke raw now) token.userId)

def logout (rawRefresh : Option RawToken) : AuthReply :=
  match rawRefresh with
  | none => { db }
  | some raw => if (db.getActive raw .refresh now).isSome then { db := db.revoke raw now } else { db }

def forgotPassword (email : String) : AuthReply :=
  match (db.userByEmail email).bind fun id => (db.users[id]?).map fun user => (id, user) with
  | none => { db }
  | some (id, user) =>
    if user.isEmailVerified then
      let db := db.revokeAllByUserAndType id .reset_password now
      { db := db.createToken id .reset_password (now + seconds (settings.passwordResetExpiryMinutes * 60))
        mail := some ⟨user.email, db.tokens.length⟩ }
    else { db }

def resetPassword (raw : RawToken) (newPassword : String) : Except HttpError AuthReply :=
  match db.getActive raw .reset_password now with
  | none => .error ⟨400, "Invalid or expired reset token."⟩
  | some token =>
    match db.userById token.userId with
    | none => .error ⟨400, "User not found."⟩
    | some _ =>
      let db := db.setUser token.userId fun user =>
        { user with hashedPassword := getPasswordHash newPassword, hasUsablePassword := true }
      .ok { db := (db.revoke raw now).revokeAllByUserAndType token.userId .refresh now }

/-! ## The security page -/

/-- `get_current_user`, for an access token of the user. -/
def getCurrentUser (id : UserId) : Except HttpError User :=
  match (db.userById id).filter fun user => !user.isSuspended && user.isEmailVerified with
  | none => .error ⟨401, "Could not validate credentials."⟩
  | some user => .ok user

def changePassword (id : UserId) (user : User) (currentPassword newPassword : String) : Except HttpError AuthReply :=
  if !user.hasUsablePassword then .error ⟨400, "Your account has no password yet. Set one instead."⟩
  else if !verifyPassword currentPassword user.hashedPassword then .error ⟨400, "Current password is incorrect."⟩
  else if verifyPassword newPassword user.hashedPassword then
    .error ⟨400, "New password must be different from the current one."⟩
  else
    let db := db.setUser id fun user => { user with hashedPassword := getPasswordHash newPassword }
    .ok { db := db.revokeAllByUserAndType id .refresh now }

def setPassword (id : UserId) (user : User) (newPassword : String) : Except HttpError AuthReply :=
  if user.hasUsablePassword then .error ⟨400, "Your account already has a password. Change it instead."⟩
  else .ok
    { db := db.setUser id fun user =>
        { user with hashedPassword := getPasswordHash newPassword, hasUsablePassword := true } }

def changeEmail (id : UserId) (user : User) (currentPassword newEmail : String) : Except HttpError AuthReply :=
  let newEmail := Unicode.lower newEmail
  if user.authProvider = .google then
    .error ⟨400, "Your email is managed by Google. To change it, update your email with that provider."⟩
  else if !verifyPassword currentPassword user.hashedPassword then .error ⟨400, "Current password is incorrect."⟩
  else if newEmail = user.email then .error ⟨400, "That is already your email address."⟩
  else if (db.userByEmail newEmail).any (· ≠ id) then .error ⟨409, "An account with this email already exists."⟩
  else if db.users.any (·.email = newEmail) then .error ⟨500, "Internal Server Error"⟩
  else
    let reply := issueVerification settings now
      (db.setUser id fun user => { user with email := newEmail, isEmailVerified := false }) id newEmail
    .ok { reply with db := reply.db.revokeAllByUserAndType id .refresh now }

/-- A session's id is its token's place. -/
def revokeSession (id : UserId) (sessionId : RawToken) : Except HttpError AuthReply :=
  match (db.getActive sessionId .refresh now).filter (·.userId = id) with
  | none => .error ⟨404, "Session not found."⟩
  | some _ => .ok { db := db.revoke sessionId now }

def deleteAccount (id : UserId) (user : User) (currentPassword : Option String) : Except HttpError AuthReply :=
  if user.hasUsablePassword && !(currentPassword.any fun password => password ≠ "" && verifyPassword password user.hashedPassword)
  then .error ⟨400, "Current password is incorrect."⟩
  else .ok
    { db := (db.setUser id fun user => { user with isDeleted := true }).revokeAllByUserAndType id .refresh now }

/-! ## The whole service -/

inductive AuthCall
  | register (email password : String)
  | verifyEmail (token : RawToken)
  | resendVerification (email : String)
  | login (email password : String)
  | googleAuth (info : TokenInfo)
  | refresh (refreshToken : Option RawToken)
  | logout (refreshToken : Option RawToken)
  | forgotPassword (email : String)
  | resetPassword (token : RawToken) (newPassword : String)
  /-- Requests with an access token of the user. -/
  | changePassword (user : UserId) (currentPassword newPassword : String)
  | setPassword (user : UserId) (newPassword : String)
  | changeEmail (user : UserId) (currentPassword newEmail : String)
  | revokeSession (user : UserId) (sessionId : RawToken)
  | deleteAccount (user : UserId) (currentPassword : Option String)
deriving DecidableEq

/-- The answer to a call; an error leaves the database as it is. -/
def AuthDb.call : AuthCall → Except HttpError AuthReply
  | .register email password => register settings now db email password
  | .verifyEmail token => verifyEmail now db token
  | .resendVerification email => .ok (resendVerification settings now db email)
  | .login email password => login settings now db email password
  | .googleAuth info => googleAuth settings now db info
  | .refresh refreshToken => refreshAccessToken settings now db refreshToken
  | .logout refreshToken => .ok (logout now db refreshToken)
  | .forgotPassword email => .ok (forgotPassword settings now db email)
  | .resetPassword token newPassword => resetPassword now db token newPassword
  | .changePassword id current new => do changePassword now db id (← getCurrentUser db id) current new
  | .setPassword id new => do setPassword db id (← getCurrentUser db id) new
  | .changeEmail id current newEmail => do changeEmail settings now db id (← getCurrentUser db id) current newEmail
  | .revokeSession id sessionId => do
    let _ ← getCurrentUser db id
    revokeSession now db id sessionId
  | .deleteAccount id current => do deleteAccount now db id (← getCurrentUser db id) current

end

end SignalSync
