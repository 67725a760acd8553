import SignalSync.Auth.Barred

/-!
# Purging expired tokens

`purge_expired_tokens` deletes the tokens that expired over thirty days ago, since expired
tokens are said to be dead. Two requests still look at one: `verify_email` answers an address
that is verified whatever its token's age, and the grace branch of `refresh_access_token` asks
only when a token was revoked. Where neither is given such a token, nobody can tell whether
and when the tokens were purged (`purges_unseen`).

* `erase`: the database without some of its tokens;
* `getActive_erase`, `revokeAll_erase`: an old token is in nobody's way;
* `call_erase`: a call is answered the same without them;
* `Erasable.call`: it leaves them where they are.
-/

namespace SignalSync

open Library

/-! ## The purge -/

/-- `_PURGE_OLDER_THAN_DAYS`. -/
def purgeOlderThanDays : Nat := 30

def purgeAge : Time := seconds (purgeOlderThanDays * 86400)

/-- `expires_at < cutoff`. -/
def Token.isOld (now : Time) (token : Token) : Bool := token.expiresAt + purgeAge < now

/-- What stands in the place of a deleted row, so that the others keep theirs: a row that no
query finds. -/
def Token.deleted (token : Token) : Token := { token with type := .access, isRevoked := true, revokedAt := none }

namespace AuthDb

def purgeExpiredTokens (now : Time) (db : AuthDb) : AuthDb :=
  { db with tokens := db.tokens.map fun token => if token.isOld now then token.deleted else token }

end AuthDb

structure SessionResponse where
  id : RawToken
  expiresAt : Time
  isCurrent : Bool
deriving DecidableEq

/-- `list_sessions`: the refresh tokens of a user that are in force, the newest first. -/
def listSessions (now : Time) (db : AuthDb) (id : UserId) (currentRefreshToken : Option RawToken) : List SessionResponse :=
  (List.range db.tokens.length).reverse.filterMap fun raw =>
    ((db.getActive raw .refresh now).filter (·.userId = id)).map fun token =>
      { id := raw, expiresAt := token.expiresAt, isCurrent := currentRefreshToken = some raw }

/-! ## Requests -/

inductive TokenRequest
  | call (call : AuthCall)
  | listSessions (id : UserId) (currentRefreshToken : Option RawToken)
  | suspend (id : UserId)
  | restore (id : UserId)
deriving DecidableEq

/-- No old token is presented to a call that looks at one. -/
def AuthCall.PresentsNoOld (now : Time) (db : AuthDb) : AuthCall → Prop
  | .verifyEmail raw => ∀ token ∈ db.tokens[raw]?, token.isOld now = false
  | .refresh (some raw) => ∀ token ∈ db.getRecentlyRevoked raw .refresh now, token.isOld now = false
  | _ => True

instance (now : Time) (db : AuthDb) (call : AuthCall) : Decidable (call.PresentsNoOld now db) :=
  match call with
  | .verifyEmail raw => inferInstanceAs (Decidable (∀ token ∈ db.tokens[raw]?, token.isOld now = false))
  | .refresh (some raw) => inferInstanceAs (Decidable (∀ token ∈ db.getRecentlyRevoked raw .refresh now, token.isOld now = false))
  | .register .. | .resendVerification _ | .login .. | .googleAuth _ | .refresh none | .logout _ | .forgotPassword _
  | .resetPassword .. | .changePassword .. | .setPassword .. | .changeEmail .. | .revokeSession .. | .deleteAccount .. => isTrue trivial

inductive TokenAnswer
  | replied (refreshCookie : Option RawToken) (mail : Option Mail)
  | sessions (sessions : List SessionResponse)
  | done
deriving DecidableEq

inductive TokenLabel
  | request (request : TokenRequest)
  | purge
  | tick (duration : Time)

/-- The service's state, with the answers it has given. -/
structure AnswerState where
  now : Time := 0
  db : AuthDb := {}
  answers : List (Except HttpError TokenAnswer) := []

namespace AnswerState

section

variable [Unicode] [Bcrypt] (settings : AuthSettings)

def respond (now : Time) (db : AuthDb) : TokenRequest → Except HttpError (AuthDb × TokenAnswer)
  | .call call => (db.call settings now call).map fun reply => (reply.db, .replied reply.refreshCookie reply.mail)
  | .listSessions id current => (getCurrentUser db id).map fun _ => (db, .sessions (SignalSync.listSessions now db id current))
  | .suspend id => (suspendUser now db id).map fun db => (db, .done)
  | .restore id => (restoreUser db id).map fun db => (db, .done)

/-- The database after a request; an error leaves it as it is. -/
def answer (s : AnswerState) (response : Except HttpError (AuthDb × TokenAnswer)) : AnswerState where
  now := s.now
  db := (response.toOption.map Prod.fst).getD s.db
  answers := s.answers ++ [response.map Prod.snd]

/-- A step of the service; where it is not `purging`, the task does nothing. -/
def step (purging : Bool) (s : AnswerState) : TokenLabel → Option AnswerState
  | .request request => some (s.answer (respond settings s.now s.db request))
  | .purge => some { s with db := if purging then s.db.purgeExpiredTokens s.now else s.db }
  | .tick duration => some { s with now := s.now + duration }

omit [Unicode] [Bcrypt] in
/-- No old token is presented where one is looked at. -/
def PresentsNoOld (s : AnswerState) : TokenLabel → Prop
  | .request (.call call) => call.PresentsNoOld s.now s.db
  | _ => True

instance (s : AnswerState) (a : TokenLabel) : Decidable (s.PresentsNoOld a) :=
  match a with
  | .request (.call call) => inferInstanceAs (Decidable (call.PresentsNoOld s.now s.db))
  | .request (.listSessions _ _) | .request (.suspend _) | .request (.restore _) | .purge | .tick _ => isTrue trivial

end

end AnswerState

/-! ## The database without some tokens -/

namespace AuthDb

/-- The tokens at some places, deleted. -/
def erase (places : List RawToken) (db : AuthDb) : AuthDb :=
  { db with tokens := db.tokens.mapIdx fun raw token => if raw ∈ places then token.deleted else token }

/-- There is an old token at each of the places. -/
def Erasable (places : List RawToken) (now : Time) (db : AuthDb) : Prop :=
  ∀ raw ∈ places, ∃ token, db.tokens[raw]? = some token ∧ token.isOld now

variable {places : List RawToken} {now : Time} {db : AuthDb} {raw : RawToken} {type : TokenType} {token : Token} {userId : UserId}

@[simp] theorem users_erase : (db.erase places).users = db.users := rfl

@[simp] theorem users_purgeExpiredTokens : (db.purgeExpiredTokens now).users = db.users := rfl

@[simp] theorem userById_erase (id : UserId) : (db.erase places).userById id = db.userById id := rfl

@[simp] theorem length_erase : (db.erase places).tokens.length = db.tokens.length := List.length_mapIdx

theorem getElem?_erase (raw : RawToken) :
    (db.erase places).tokens[raw]? = (db.tokens[raw]?).map fun token => if raw ∈ places then token.deleted else token :=
  List.getElem?_mapIdx

theorem getElem?_erase_of_notMem (h : raw ∉ places) : (db.erase places).tokens[raw]? = db.tokens[raw]? := by
  rw [getElem?_erase]
  simp [h]

theorem not_isActive_of_isOld (h : token.isOld now) : token.isActive type now = false := by
  simp only [Token.isOld, decide_eq_true_eq] at h
  simp only [Token.isActive, Bool.and_eq_false_iff, decide_eq_false_iff_not]
  exact .inr (not_lt.mpr ((Nat.le_add_right _ _).trans h.le))

theorem isOld_deleted : token.deleted.isOld now = token.isOld now := rfl

/-- What is deleted was not in force. -/
theorem getActive_erase (h : db.Erasable places now) : (db.erase places).getActive raw type now = db.getActive raw type now := by
  by_cases hraw : raw ∈ places
  · obtain ⟨token, htoken, hold⟩ := h raw hraw
    have hgone : token.deleted.isActive type now = false := by simp [Token.isActive, Token.deleted]
    rw [getActive, getActive, getElem?_erase, htoken, Option.map_some, if_pos hraw]
    rw [Option.filter_some, Option.filter_some, hgone, not_isActive_of_isOld hold]
    rfl
  · rw [getActive, getActive, getElem?_erase_of_notMem hraw]

theorem notMem_of_active (h : db.Erasable places now) (ha : db.getActive raw type now = some token) : raw ∉ places := by
  intro hraw
  obtain ⟨old, htoken, hold⟩ := h raw hraw
  rw [getActive, htoken, Option.filter_some, not_isActive_of_isOld hold] at ha
  cases ha

theorem getRecentlyRevoked_erase (h : db.Erasable places now)
    (hclear : ∀ token ∈ db.getRecentlyRevoked raw type now, token.isOld now = false) :
    (db.erase places).getRecentlyRevoked raw type now = db.getRecentlyRevoked raw type now := by
  by_cases hraw : raw ∈ places
  · obtain ⟨token, htoken, hold⟩ := h raw hraw
    have hnone : db.getRecentlyRevoked raw type now = none := by
      refine Option.eq_none_iff_forall_ne_some.mpr fun old hgrace => ?_
      have hsame : db.tokens[raw]? = some old := (Option.filter_eq_some_iff.mp hgrace).1
      cases htoken.symm.trans hsame
      cases (hclear _ hgrace).symm.trans hold
    rw [hnone, getRecentlyRevoked, getElem?_erase, htoken, Option.map_some, if_pos hraw]
    simp [Token.deleted]
  · rw [getRecentlyRevoked, getRecentlyRevoked, getElem?_erase_of_notMem hraw]

/-! ## Writing beside the deleted tokens -/

theorem ext_tokens {db' : AuthDb} (husers : db.users = db'.users)
    (htokens : ∀ raw : RawToken, db.tokens[raw]? = db'.tokens[raw]?) : db = db' := by
  obtain ⟨users, tokens⟩ := db
  obtain ⟨users', tokens'⟩ := db'
  exact congr (congrArg AuthDb.mk husers) (List.ext_getElem? htokens)

theorem Erasable.lt_length (h : db.Erasable places now) (hraw : raw ∈ places) : raw < db.tokens.length := by
  obtain ⟨token, htoken, -⟩ := h raw hraw
  exact (List.getElem?_eq_some_iff.mp htoken).1

theorem createToken_erase (h : db.Erasable places now) (expiresAt : Time) :
    (db.erase places).createToken userId type expiresAt = (db.createToken userId type expiresAt).erase places := by
  have hfresh : db.tokens.length ∉ places := fun hmem => lt_irrefl _ (h.lt_length hmem)
  simp only [createToken, erase, List.mapIdx_append, List.mapIdx_cons, List.mapIdx_nil, Nat.zero_add, if_neg hfresh]

theorem revoke_erase (hraw : raw ∉ places) : (db.erase places).revoke raw now = (db.revoke raw now).erase places := by
  refine ext_tokens rfl fun raw' => ?_
  rw [revoke, List.getElem?_modify, getElem?_erase, getElem?_erase, revoke, List.getElem?_modify]
  cases db.tokens[raw']? with
  | none => rfl
  | some token =>
    by_cases hsame : raw = raw'
    · subst hsame
      simp [hraw]
    · simp [hsame]

theorem revokeAll_erase :
    (db.erase places).revokeAllByUserAndType userId type now = (db.revokeAllByUserAndType userId type now).erase places := by
  refine ext_tokens rfl fun raw => ?_
  rw [revokeAllByUserAndType, List.getElem?_map, getElem?_erase, getElem?_erase, revokeAllByUserAndType, List.getElem?_map]
  cases db.tokens[raw]? with
  | none => rfl
  | some token =>
    by_cases hraw : raw ∈ places
    · -- revoked or not, what is left of the row is the same
      have hkept : (if token.userId = userId && token.type = type && !token.isRevoked then token.revoke now else token).deleted =
          token.deleted := by
        split <;> rfl
      simp only [Option.map_some, if_pos hraw, hkept]
      simp [Token.deleted]
    · simp only [Option.map_some, if_neg hraw]

@[simp] theorem setUser_erase (id : UserId) (f : User → User) :
    (db.erase places).setUser id f = (db.setUser id f).erase places := rfl

/-- The old tokens, deleted as well. -/
theorem purge_erase (h : db.Erasable places now) : ∃ more, db.Erasable more now ∧
    (db.erase places).purgeExpiredTokens now = db.erase more := by
  let more := (List.range db.tokens.length).filter fun raw => (db.tokens[raw]?).any (·.isOld now)
  have hmore (raw : RawToken) : raw ∈ more ↔ ∃ token, db.tokens[raw]? = some token ∧ token.isOld now := by
    simp only [more, List.mem_filter, List.mem_range, Option.any_eq_true]
    exact ⟨fun h => h.2, fun h => ⟨(List.getElem?_eq_some_iff.mp h.choose_spec.1).1, h⟩⟩
  have husers : ((db.erase places).purgeExpiredTokens now).users = (db.erase more).users := by
    rw [users_purgeExpiredTokens, users_erase, users_erase]
  refine ⟨more, fun raw hraw => (hmore raw).mp hraw, ext_tokens husers fun raw => ?_⟩
  rw [purgeExpiredTokens, List.getElem?_map, getElem?_erase, getElem?_erase]
  cases htoken : db.tokens[raw]? with
  | none => simp only [Option.map_none]
  | some token =>
    have hold : raw ∈ more ↔ token.isOld now := by
      rw [hmore, htoken]
      simp
    by_cases hraw : raw ∈ places
    · obtain ⟨old, hsome, hisOld⟩ := h raw hraw
      have hsame : old = token := Option.some.inj (hsome.symm.trans htoken)
      rw [hsame] at hisOld
      have hdeleted : token.deleted.isOld now := by rwa [isOld_deleted]
      have htwice : token.deleted.deleted = token.deleted := rfl
      rw [Option.map_some, Option.map_some, Option.map_some, if_pos hraw, if_pos hdeleted, if_pos (hold.mpr hisOld), htwice]
    · rw [Option.map_some, Option.map_some, Option.map_some, if_neg hraw]
      by_cases hisOld : token.isOld now
      · rw [if_pos hisOld, if_pos (hold.mpr hisOld)]
      · rw [if_neg hisOld, if_neg (hold.not.mpr hisOld)]

/-! ## Where the old tokens stay -/

section

variable {db' : AuthDb}

/-- Tokens are added, and none changes its expiry. -/
theorem Erasable.of_tokens (h : db.Erasable places now)
    (hkeep : ∀ (raw : RawToken) (token : Token), db.tokens[raw]? = some token →
      ∃ token' : Token, db'.tokens[raw]? = some token' ∧ token'.expiresAt = token.expiresAt) :
    db'.Erasable places now := by
  intro raw hraw
  obtain ⟨token, htoken, hold⟩ := h raw hraw
  obtain ⟨token', htoken', hexpires⟩ := hkeep raw token htoken
  exact ⟨token', htoken', by rwa [Token.isOld, hexpires]⟩

theorem Erasable.createToken (h : db.Erasable places now) (expiresAt : Time) :
    (db.createToken userId type expiresAt).Erasable places now :=
  h.of_tokens fun _ token htoken =>
    ⟨token, (List.getElem?_append_left (List.getElem?_eq_some_iff.mp htoken).1).trans htoken, rfl⟩

theorem Erasable.revoke (h : db.Erasable places now) : (db.revoke raw now).Erasable places now := by
  refine h.of_tokens fun raw' token htoken => ?_
  rw [AuthDb.revoke, List.getElem?_modify, htoken]
  split
  · exact ⟨_, rfl, rfl⟩
  · exact ⟨_, rfl, rfl⟩

theorem Erasable.revokeAll (h : db.Erasable places now) : (db.revokeAllByUserAndType userId type now).Erasable places now := by
  refine h.of_tokens fun raw token htoken => ?_
  rw [revokeAllByUserAndType, List.getElem?_map, htoken]
  refine ⟨_, rfl, ?_⟩
  dsimp only
  split <;> rfl

theorem Erasable.users (h : db.Erasable places now) (users : List User) : Erasable places now { db with users } := h

theorem Erasable.created {user : User} (h : db.Erasable places now) (hc : db.createUser user = .ok db') : db'.Erasable places now := by
  unfold createUser at hc
  split at hc <;> cases hc
  exact h

theorem Erasable.mono {later : Time} (h : db.Erasable places now) (hl : now ≤ later) : db.Erasable places later := by
  intro raw hraw
  obtain ⟨token, htoken, hold⟩ := h raw hraw
  refine ⟨token, htoken, ?_⟩
  simp only [Token.isOld, decide_eq_true_eq] at hold ⊢
  exact hold.trans_le hl

end

end AuthDb

/-! ## The calls -/

def AuthReply.erase (places : List RawToken) (reply : AuthReply) : AuthReply := { reply with db := reply.db.erase places }

theorem AuthReply.erase_mk {places : List RawToken} (db : AuthDb) (refreshCookie : Option RawToken) (mail : Option Mail) :
    AuthReply.erase places ⟨db, refreshCookie, mail⟩ = ⟨db.erase places, refreshCookie, mail⟩ := rfl

theorem map_reply {α β : Type} (f : α → β) (reply : α) : (Except.ok reply : Except HttpError α).map f = .ok (f reply) := rfl

theorem map_failure {α β : Type} (f : α → β) (err : HttpError) : (Except.error err : Except HttpError α).map f = .error err := rfl

section

open AuthDb

variable [Unicode] [Bcrypt] {settings : AuthSettings} {now : Time} {db : AuthDb} {places : List RawToken} {userId : UserId}
  {raw : RawToken}

omit [Bcrypt] in
theorem userByEmail_erase (email : String) : (db.erase places).userByEmail email = db.userByEmail email := rfl

omit [Unicode] [Bcrypt] in
theorem getCurrentUser_erase (id : UserId) : getCurrentUser (db.erase places) id = getCurrentUser db id := rfl

omit [Unicode] [Bcrypt] in
theorem issueVerification_erase (h : db.Erasable places now) (address : String) :
    issueVerification settings now (db.erase places) userId address =
      (issueVerification settings now db userId address).erase places := by
  simp only [issueVerification, AuthReply.erase, createToken_erase h, length_erase]

omit [Unicode] [Bcrypt] in
theorem issueSession_erase (h : db.Erasable places now) :
    issueSession settings now (db.erase places) userId = (issueSession settings now db userId).erase places := by
  simp only [issueSession, AuthReply.erase, createToken_erase h, length_erase]

omit [Unicode] [Bcrypt] in
theorem createUser_erase (user : User) : (db.erase places).createUser user = (db.createUser user).map (AuthDb.erase places) := by
  by_cases htaken : db.users.any (·.email = user.email)
  · rw [createUser, createUser, users_erase, if_pos htaken, if_pos htaken, map_failure]
  · rw [createUser, createUser, users_erase, if_neg htaken, if_neg htaken, map_reply]
    rfl

theorem register_erase (h : db.Erasable places now) (email password : String) :
    register settings now (db.erase places) email password =
      (register settings now db email password).map (AuthReply.erase places) := by
  unfold register
  rw [userByEmail_erase]
  cases db.userByEmail email with
  | some _ => rfl
  | none =>
    dsimp only
    rw [createUser_erase]
    cases hcreated : db.createUser { email := Unicode.lower email, hashedPassword := getPasswordHash password } with
    | error _ => rfl
    | ok db' => exact congrArg Except.ok (issueVerification_erase (h.created hcreated) _)

omit [Bcrypt] in
theorem linkGoogleAccount_erase (email : String) :
    linkGoogleAccount (db.erase places) email = (linkGoogleAccount db email).map fun e => (e.1, e.2.erase places) := by
  unfold linkGoogleAccount
  rw [userByEmail_erase]
  cases db.userByEmail email with
  | some _ => rfl
  | none =>
    dsimp only
    rw [createUser_erase]
    cases db.createUser _ with
    | error _ => rfl
    | ok _ => rfl

omit [Bcrypt] in
theorem tokens_linkGoogleAccount {email : String} {e : UserId × AuthDb} (h : linkGoogleAccount db email = .ok e) :
    e.2.tokens = db.tokens := by
  unfold linkGoogleAccount at h
  split at h
  · unfold createUser at h
    split at h <;> cases h
    rfl
  · cases h
    rfl

omit [Bcrypt] in
theorem googleAuth_erase (h : db.Erasable places now) (info : TokenInfo) :
    googleAuth settings now (db.erase places) info = (googleAuth settings now db info).map (AuthReply.erase places) := by
  unfold googleAuth
  cases verifyGoogleIdToken settings info with
  | error _ => rfl
  | ok email =>
    show (linkGoogleAccount (db.erase places) (Unicode.lower email)).bind _ =
      ((linkGoogleAccount db (Unicode.lower email)).bind _).map _
    rw [linkGoogleAccount_erase]
    cases hlink : linkGoogleAccount db (Unicode.lower email) with
    | error _ => rfl
    | ok e =>
      have he : e.2.Erasable places now := by
        unfold Erasable
        rw [tokens_linkGoogleAccount hlink]
        exact h
      exact congrArg Except.ok (issueSession_erase he)

theorem login_erase (h : db.Erasable places now) (email password : String) :
    login settings now (db.erase places) email password = (login settings now db email password).map (AuthReply.erase places) := by
  unfold login
  rw [userByEmail_erase, users_erase]
  cases (db.userByEmail email).bind fun id => (db.users[id]?).map fun user => (id, user) with
  | none => rfl
  | some row => simp only [apply_ite (Except.map _), map_failure, map_reply, issueSession_erase h]

omit [Unicode] [Bcrypt] in
theorem notMem_of_new (h : db.Erasable places now) (hraw : ∀ token ∈ db.tokens[raw]?, token.isOld now = false) : raw ∉ places := by
  intro hmem
  obtain ⟨token, htoken, hold⟩ := h raw hmem
  cases (hraw token htoken).symm.trans hold

omit [Unicode] [Bcrypt] in
theorem verifyEmail_erase (h : db.Erasable places now) (hraw : ∀ token ∈ db.tokens[raw]?, token.isOld now = false) :
    verifyEmail now (db.erase places) raw = (verifyEmail now db raw).map (AuthReply.erase places) := by
  have hnot := notMem_of_new h hraw
  unfold verifyEmail
  rw [getElem?_erase_of_notMem hnot]
  cases (db.tokens[raw]?).filter (·.type = .verify_email) with
  | none => rfl
  | some token =>
    simp only [userById_erase]
    cases db.userById token.userId with
    | none => rfl
    | some user =>
      simp only [apply_ite (Except.map _), map_failure, map_reply, AuthReply.erase_mk, setUser_erase, revoke_erase hnot]

omit [Bcrypt] in
theorem resendVerification_erase (h : db.Erasable places now) (email : String) :
    resendVerification settings now (db.erase places) email = (resendVerification settings now db email).erase places := by
  unfold resendVerification
  rw [userByEmail_erase, users_erase]
  cases (db.userByEmail email).bind fun id => (db.users[id]?).map fun user => (id, user) with
  | none => rfl
  | some row =>
    simp only [apply_ite (AuthReply.erase places), revokeAll_erase, issueVerification_erase h.revokeAll]
    rfl

omit [Unicode] [Bcrypt] in
theorem refreshAccessToken_erase (h : db.Erasable places now) (rawRefresh : Option RawToken)
    (hraw : ∀ raw ∈ rawRefresh, ∀ token ∈ db.getRecentlyRevoked raw .refresh now, token.isOld now = false) :
    refreshAccessToken settings now (db.erase places) rawRefresh =
      (refreshAccessToken settings now db rawRefresh).map (AuthReply.erase places) := by
  unfold refreshAccessToken
  cases rawRefresh with
  | none => rfl
  | some raw =>
    simp only [getActive_erase h]
    cases hactive : db.getActive raw .refresh now with
    | none =>
      simp only [getRecentlyRevoked_erase h (hraw raw rfl)]
      cases db.getRecentlyRevoked raw .refresh now with
      | none => rfl
      | some grace =>
        simp only [userById_erase]
        cases db.userById grace.userId with
        | none => rfl
        | some _ => exact congrArg Except.ok (issueSession_erase h)
    | some token =>
      simp only [userById_erase, revoke_erase (notMem_of_active h hactive)]
      cases db.userById token.userId with
      | none => rfl
      | some _ => exact congrArg Except.ok (issueSession_erase h.revoke)

omit [Unicode] [Bcrypt] in
theorem logout_erase (h : db.Erasable places now) (rawRefresh : Option RawToken) :
    logout now (db.erase places) rawRefresh = (logout now db rawRefresh).erase places := by
  unfold logout
  cases rawRefresh with
  | none => rfl
  | some raw =>
    simp only [getActive_erase h]
    cases hactive : db.getActive raw .refresh now with
    | none => rfl
    | some token =>
      simp only [revoke_erase (notMem_of_active h hactive)]
      rfl

omit [Bcrypt] in
theorem forgotPassword_erase (h : db.Erasable places now) (email : String) :
    forgotPassword settings now (db.erase places) email = (forgotPassword settings now db email).erase places := by
  unfold forgotPassword
  rw [userByEmail_erase, users_erase]
  cases (db.userByEmail email).bind fun id => (db.users[id]?).map fun user => (id, user) with
  | none => rfl
  | some row =>
    simp only [apply_ite (AuthReply.erase places), revokeAll_erase, createToken_erase h.revokeAll, length_erase, AuthReply.erase_mk]

omit [Unicode] in
theorem resetPassword_erase (h : db.Erasable places now) (newPassword : String) :
    resetPassword now (db.erase places) raw newPassword = (resetPassword now db raw newPassword).map (AuthReply.erase places) := by
  unfold resetPassword
  rw [getActive_erase h]
  cases hactive : db.getActive raw .reset_password now with
  | none => rfl
  | some token =>
    simp only [userById_erase]
    cases db.userById token.userId with
    | none => rfl
    | some _ =>
      simp only [setUser_erase, revoke_erase (notMem_of_active h hactive), revokeAll_erase]
      rfl

omit [Unicode] in
theorem changePassword_erase (id : UserId) (user : User) (currentPassword newPassword : String) :
    changePassword now (db.erase places) id user currentPassword newPassword =
      (changePassword now db id user currentPassword newPassword).map (AuthReply.erase places) := by
  unfold changePassword
  simp only [apply_ite (Except.map _), map_failure, map_reply, setUser_erase, revokeAll_erase, AuthReply.erase_mk]

omit [Unicode] in
theorem setPassword_erase (id : UserId) (user : User) (newPassword : String) :
    setPassword (db.erase places) id user newPassword = (setPassword db id user newPassword).map (AuthReply.erase places) := by
  unfold setPassword
  simp only [apply_ite (Except.map _), map_failure, map_reply, setUser_erase, AuthReply.erase_mk]

theorem changeEmail_erase (h : db.Erasable places now) (id : UserId) (user : User) (currentPassword newEmail : String) :
    changeEmail settings now (db.erase places) id user currentPassword newEmail =
      (changeEmail settings now db id user currentPassword newEmail).map (AuthReply.erase places) := by
  have hissued (f : User → User) (address : String) := @issueVerification_erase settings now (db.setUser id f) places id h address
  unfold changeEmail
  simp only [apply_ite (Except.map _), map_failure, map_reply, userByEmail_erase, users_erase, setUser_erase, hissued]
  simp only [AuthReply.erase, revokeAll_erase]

omit [Unicode] [Bcrypt] in
theorem revokeSession_erase (h : db.Erasable places now) (id : UserId) :
    revokeSession now (db.erase places) id raw = (revokeSession now db id raw).map (AuthReply.erase places) := by
  unfold revokeSession
  rw [getActive_erase h]
  cases hactive : db.getActive raw .refresh now with
  | none => rfl
  | some token =>
    rw [revoke_erase (notMem_of_active h hactive)]
    cases (some token).filter fun token => decide (token.userId = id) with
    | none => rfl
    | some _ => rfl

omit [Unicode] in
theorem deleteAccount_erase (id : UserId) (user : User) (currentPassword : Option String) :
    deleteAccount now (db.erase places) id user currentPassword =
      (deleteAccount now db id user currentPassword).map (AuthReply.erase places) := by
  unfold deleteAccount
  simp only [apply_ite (Except.map _), map_failure, map_reply, setUser_erase, revokeAll_erase, AuthReply.erase_mk]

/-! ## A call -/

theorem call_erase (h : db.Erasable places now) {call : AuthCall} (hok : call.PresentsNoOld now db) :
    (db.erase places).call settings now call = (db.call settings now call).map (AuthReply.erase places) := by
  cases call with
  | register email password => exact register_erase h email password
  | verifyEmail raw => exact verifyEmail_erase h hok
  | resendVerification email => exact congrArg Except.ok (resendVerification_erase h email)
  | login email password => exact login_erase h email password
  | googleAuth info => exact googleAuth_erase h info
  | refresh rawRefresh =>
    refine refreshAccessToken_erase h rawRefresh fun raw hraw => ?_
    cases Option.mem_def.mp hraw
    exact hok
  | logout rawRefresh => exact congrArg Except.ok (logout_erase h rawRefresh)
  | forgotPassword email => exact congrArg Except.ok (forgotPassword_erase h email)
  | resetPassword raw newPassword => exact resetPassword_erase h newPassword
  | changePassword id current new =>
    show (getCurrentUser (db.erase places) id).bind _ = ((getCurrentUser db id).bind _).map _
    rw [getCurrentUser_erase]
    cases getCurrentUser db id with
    | error _ => rfl
    | ok user => exact changePassword_erase id user current new
  | setPassword id new =>
    show (getCurrentUser (db.erase places) id).bind _ = ((getCurrentUser db id).bind _).map _
    rw [getCurrentUser_erase]
    cases getCurrentUser db id with
    | error _ => rfl
    | ok user => exact setPassword_erase id user new
  | changeEmail id current newEmail =>
    show (getCurrentUser (db.erase places) id).bind _ = ((getCurrentUser db id).bind _).map _
    rw [getCurrentUser_erase]
    cases getCurrentUser db id with
    | error _ => rfl
    | ok user => exact changeEmail_erase h id user current newEmail
  | revokeSession id raw =>
    show (getCurrentUser (db.erase places) id).bind _ = ((getCurrentUser db id).bind _).map _
    rw [getCurrentUser_erase]
    cases getCurrentUser db id with
    | error _ => rfl
    | ok user => exact revokeSession_erase h id
  | deleteAccount id current =>
    show (getCurrentUser (db.erase places) id).bind _ = ((getCurrentUser db id).bind _).map _
    rw [getCurrentUser_erase]
    cases getCurrentUser db id with
    | error _ => rfl
    | ok user => exact deleteAccount_erase id user current

/-- A call leaves the old tokens where they are. -/
theorem AuthDb.Erasable.call {call : AuthCall} {reply : AuthReply} (h : db.Erasable places now)
    (hcall : db.call settings now call = .ok reply) : reply.db.Erasable places now := by
  cases AuthDb.call_effect hcall with
  | verifiedAlready | nothingSent | loggedOutAlready => exact h
  | registered => exact (h.users _).createToken _
  | verified => exact (h.users _).revoke
  | resent => exact h.revokeAll.createToken _
  | loggedIn | graced => exact h.createToken _
  | googleCreated | googleLinked => exact (h.users _).createToken _
  | rotated => exact h.revoke.createToken _
  | loggedOut | sessionRevoked => exact h.revoke
  | resetSent => exact h.revokeAll.createToken _
  | passwordReset => exact (h.users _).revoke.revokeAll
  | passwordChanged | deleted => exact (h.users _).revokeAll
  | passwordSet => exact h.users _
  | emailChanged => exact ((h.users _).createToken _).revokeAll

end

/-! ## The service, purging and not -/

namespace AnswerState

section

open AuthDb

variable [Unicode] [Bcrypt] {settings : AuthSettings} {s s' t : AnswerState} {a : TokenLabel} {places : List RawToken}

/-- The service that purges: some old tokens are gone, and nothing else differs. -/
def Purged (s t : AnswerState) : Prop := ∃ places, s.db.Erasable places s.now ∧ t = { s with db := s.db.erase places }

omit [Unicode] [Bcrypt] in
theorem listSessions_erase {now : Time} {db : AuthDb} (h : db.Erasable places now) (id : UserId) (current : Option RawToken) :
    SignalSync.listSessions now (db.erase places) id current = SignalSync.listSessions now db id current := by
  simp only [SignalSync.listSessions, length_erase, getActive_erase h]

theorem respond_erase {now : Time} {db : AuthDb} (h : db.Erasable places now) {request : TokenRequest}
    (hok : ∀ call, request = .call call → call.PresentsNoOld now db) :
    respond settings now (db.erase places) request = (respond settings now db request).map (fun e => (e.1.erase places, e.2)) ∧
      ∀ e, respond settings now db request = .ok e → e.1.Erasable places now := by
  cases request with
  | call call =>
    simp only [respond, call_erase h (hok call rfl)]
    cases hcall : db.call settings now call with
    | error _ => exact ⟨rfl, fun e he => by cases he⟩
    | ok reply => exact ⟨rfl, fun e he => by cases he; exact h.call hcall⟩
  | listSessions id current =>
    simp only [respond, getCurrentUser_erase, listSessions_erase h]
    cases getCurrentUser db id with
    | error _ => exact ⟨rfl, fun e he => by cases he⟩
    | ok user => exact ⟨rfl, fun e he => by cases he; exact h⟩
  | suspend id =>
    simp only [respond, suspendUser, userById_erase]
    cases db.userById id with
    | none => exact ⟨rfl, fun e he => by cases he⟩
    | some user =>
      refine ⟨?_, fun e he => by cases he; exact (h.users _).revokeAll⟩
      simp only [Except.map, setUser_erase, revokeAll_erase]
  | restore id =>
    simp only [respond, restoreUser, userById_erase]
    cases db.userById id with
    | none => exact ⟨rfl, fun e he => by cases he⟩
    | some user => exact ⟨rfl, fun e he => by cases he; exact h.users _⟩

/-- The service that purges follows the one that does not. -/
theorem Purged.step (h : s.Purged t) (hok : s.PresentsNoOld a) (hs : step settings false s a = some s') :
    ∃ t', step settings true t a = some t' ∧ s'.Purged t' := by
  obtain ⟨places, herasable, rfl⟩ := h
  cases a with
  | tick duration =>
    cases hs
    exact ⟨_, rfl, places, herasable.mono (Nat.le_add_right _ _), rfl⟩
  | purge =>
    cases hs
    obtain ⟨more, hmore, hpurge⟩ := purge_erase herasable
    refine ⟨_, rfl, more, hmore, ?_⟩
    simp only [if_true, hpurge]
    rfl
  | request request =>
    cases hs
    have hcall (call : AuthCall) (hc : request = .call call) : call.PresentsNoOld s.now s.db := by
      subst hc
      exact hok
    obtain ⟨hsame, hkept⟩ : _ ∧ ∀ e, respond settings s.now s.db request = .ok e → e.1.Erasable places s.now :=
      respond_erase herasable hcall
    refine ⟨_, rfl, places, ?_, ?_⟩
    · cases hr : respond settings s.now s.db request with
      | error _ => exact herasable
      | ok e => exact hkept e hr
    · simp only [hsame]
      cases respond settings s.now s.db request with
      | error _ => rfl
      | ok e => rfl

/-- **Purges go unseen**: whenever tokens are purged, every request is answered as if they had not
been, unless it presents a token that expired over thirty days before to `verify_email`, or within
the grace period of its revocation to `refresh_access_token`. -/
theorem purges_unseen {labels : List TokenLabel} (h : runIf (step settings false) PresentsNoOld {} labels = some s) :
    ∃ t, run (step settings true) {} labels = some t ∧ t.answers = s.answers ∧ t.db.users = s.db.users := by
  have hstart : Purged {} {} := ⟨[], (fun _ hraw => by cases hraw), rfl⟩
  obtain ⟨t, ht, places, -, rfl⟩ := run_simulation (fun _ _ _ _ h hok hs => h.step hok hs) hstart h
  exact ⟨_, ht, rfl, rfl⟩

omit [Unicode] [Bcrypt] in
/-- A session that ended long before is purged, and its token is refused as it would have been. -/
theorem purges_unseen_oldSession :
    let _ := Unicode.ascii
    let _ : Bcrypt := ⟨id⟩
    let settings : AuthSettings := { googleClientId := "client" }
    ∃ labels s t, runIf (step settings false) PresentsNoOld {} labels = some s ∧ run (step settings true) {} labels = some t ∧
      t.answers = s.answers ∧ t.db.tokens ≠ s.db.tokens := by
  intro _ _ settings
  let labels : List TokenLabel := [.request (.call (.googleAuth (.claims (some "client") true (some "gold@example.com")))),
    .tick (seconds (61 * 86400)), .purge, .request (.listSessions 0 (some 0)), .request (.call (.refresh (some 0)))]
  have hplain : ((runIf (step settings false) PresentsNoOld {} labels).map fun s => s.db.tokens.map (·.type)) = some [.refresh] := by
    decide +kernel
  have hpurged : ((run (step settings true) {} labels).map fun t => t.db.tokens.map (·.type)) = some [.access] := by decide +kernel
  obtain ⟨s, hs, htypes⟩ := Option.map_eq_some_iff.mp hplain
  obtain ⟨t, ht, hanswers, -⟩ := purges_unseen hs
  refine ⟨labels, s, t, hs, ht, hanswers, fun hsame => ?_⟩
  rw [ht, Option.map_some, hsame, htypes] at hpurged
  cases hpurged

end

end AnswerState

end SignalSync
