import SignalSync.Auth.Service

/-!
# What a call of the auth service does

`AuthEffect` lists what a call that is answered can have done, with the checks it
has passed; `AuthDb.call_effect` is the case analysis over the service.
-/

namespace SignalSync

open Library

section

variable [Unicode] [Bcrypt] (settings : AuthSettings) (now : Time) (db : AuthDb)

inductive AuthEffect : AuthCall → AuthReply → Prop
  | verifiedAlready (raw : RawToken) : AuthEffect (.verifyEmail raw) { db }
  | nothingSent {call : AuthCall} (email : String) (hc : call = .resendVerification email ∨ call = .forgotPassword email) :
      AuthEffect call { db }
  | loggedOutAlready {raw : Option RawToken} (ha : ∀ r ∈ raw, db.getActive r .refresh now = none) :
      AuthEffect (.logout raw) { db }
  | registered {email password : String} (hn : ∀ user ∈ db.users, user.email ≠ Unicode.lower email) :
      AuthEffect (.register email password)
        (issueVerification settings now
          { db with users := db.users ++ [{ email := Unicode.lower email, hashedPassword := getPasswordHash password }] }
          db.users.length (Unicode.lower email))
  | verified {raw : RawToken} {token : Token} {user : User} (ht : db.tokens[raw]? = some token)
      (htype : token.type = .verify_email) (hu : db.userById token.userId = some user) (hv : user.isEmailVerified = false)
      (hr : token.isRevoked = false) (he : now < token.expiresAt) :
      AuthEffect (.verifyEmail raw)
        { db := (db.setUser token.userId fun user => { user with isEmailVerified := true }).revoke raw now }
  | resent {email : String} {id : UserId} {user : User} (hu : db.users[id]? = some user) (hv : user.isEmailVerified = false) :
      AuthEffect (.resendVerification email)
        (issueVerification settings now (db.revokeAllByUserAndType id .verify_email now) id user.email)
  | loggedIn {email password : String} {id : UserId} {user : User} (hid : db.userByEmail email = some id)
      (hu : db.users[id]? = some user) (hp : verifyPassword password user.hashedPassword) (hv : user.isEmailVerified)
      (hs : user.isSuspended = false) :
      AuthEffect (.login email password) (issueSession settings now db id)
  | googleCreated {info : TokenInfo} {email : String} (hi : verifyGoogleIdToken settings info = .ok email)
      (hn : ∀ user ∈ db.users, user.email ≠ Unicode.lower (Unicode.lower email)) :
      AuthEffect (.googleAuth info)
        (issueSession settings now
          { db with
            users := db.users ++
              [{ email := Unicode.lower (Unicode.lower email), hashedPassword := unusablePasswordHash, authProvider := .google
                 hasUsablePassword := false, isEmailVerified := true }] } db.users.length)
  | googleLinked {info : TokenInfo} {email : String} {id : UserId} (hi : verifyGoogleIdToken settings info = .ok email)
      (hid : db.userByEmail (Unicode.lower email) = some id) :
      AuthEffect (.googleAuth info)
        (issueSession settings now (db.setUser id fun user => { user with isEmailVerified := true }) id)
  | rotated {raw : RawToken} {token : Token} (ht : db.getActive raw .refresh now = some token)
      (hu : (db.userById token.userId).isSome) :
      AuthEffect (.refresh (some raw)) (issueSession settings now (db.revoke raw now) token.userId)
  | graced {raw : RawToken} {token : Token} (ha : db.getActive raw .refresh now = none)
      (ht : db.getRecentlyRevoked raw .refresh now = some token) (hu : (db.userById token.userId).isSome) :
      AuthEffect (.refresh (some raw)) (issueSession settings now db token.userId)
  | loggedOut {raw : RawToken} {token : Token} (ht : db.getActive raw .refresh now = some token) :
      AuthEffect (.logout (some raw)) { db := db.revoke raw now }
  | resetSent {email : String} {id : UserId} {user : User} (hu : db.users[id]? = some user) (hv : user.isEmailVerified) :
      AuthEffect (.forgotPassword email)
        { db := (db.revokeAllByUserAndType id .reset_password now).createToken id .reset_password
            (now + seconds (settings.passwordResetExpiryMinutes * 60))
          mail := some ⟨user.email, db.tokens.length⟩ }
  | passwordReset {raw : RawToken} {newPassword : String} {token : Token} (ht : db.getActive raw .reset_password now = some token) :
      AuthEffect (.resetPassword raw newPassword)
        { db := ((db.setUser token.userId fun user =>
              { user with hashedPassword := getPasswordHash newPassword, hasUsablePassword := true }).revoke raw
            now).revokeAllByUserAndType token.userId .refresh now }
  | passwordChanged {id : UserId} {user : User} {current new : String} (hu : getCurrentUser db id = .ok user) :
      AuthEffect (.changePassword id current new)
        { db := (db.setUser id fun user => { user with hashedPassword := getPasswordHash new }).revokeAllByUserAndType id
            .refresh now }
  | passwordSet {id : UserId} {user : User} {new : String} (hu : getCurrentUser db id = .ok user) :
      AuthEffect (.setPassword id new)
        { db := db.setUser id fun user => { user with hashedPassword := getPasswordHash new, hasUsablePassword := true } }
  | emailChanged {id : UserId} {user : User} {current newEmail : String} (hu : getCurrentUser db id = .ok user)
      (hn : ∀ user ∈ db.users, user.email ≠ Unicode.lower newEmail) :
      AuthEffect (.changeEmail id current newEmail)
        { issueVerification settings now
            (db.setUser id fun user => { user with email := Unicode.lower newEmail, isEmailVerified := false }) id
            (Unicode.lower newEmail) with
          db := (issueVerification settings now
            (db.setUser id fun user => { user with email := Unicode.lower newEmail, isEmailVerified := false }) id
            (Unicode.lower newEmail)).db.revokeAllByUserAndType id .refresh now }
  | sessionRevoked {id : UserId} {raw : RawToken} {token : Token} (ht : db.getActive raw .refresh now = some token) :
      AuthEffect (.revokeSession id raw) { db := db.revoke raw now }
  | deleted {id : UserId} {user : User} {current : Option String} (hu : getCurrentUser db id = .ok user) :
      AuthEffect (.deleteAccount id current)
        { db := (db.setUser id fun user => { user with isDeleted := true }).revokeAllByUserAndType id .refresh now }

variable {settings now db} {reply : AuthReply}

omit [Bcrypt] [Unicode] in
/-- A new row's address is no other row's. -/
theorem AuthDb.createUser_eq_ok {user : User} {db' : AuthDb} (h : db.createUser user = .ok db') :
    db' = { db with users := db.users ++ [user] } ∧ ∀ other ∈ db.users, other.email ≠ user.email := by
  unfold createUser at h
  split at h
  · cases h
  · rename_i hany
    cases h
    exact ⟨rfl, fun other ho he => hany (List.any_eq_true.mpr ⟨other, ho, by simpa using he⟩)⟩

omit [Unicode] [Bcrypt] in
theorem exists_row {id : Option UserId} {row : UserId × User}
    (h : (id.bind fun id => (db.users[id]?).map fun user => (id, user)) = some row) :
    id = some row.1 ∧ db.users[row.1]? = some row.2 := by
  obtain ⟨i, rfl, h⟩ := Option.bind_eq_some_iff.mp h
  obtain ⟨user, hu, rfl⟩ := Option.map_eq_some_iff.mp h
  exact ⟨rfl, hu⟩

theorem register_effect {email password : String} (h : register settings now db email password = .ok reply) :
    AuthEffect settings now db (.register email password) reply := by
  unfold register at h
  split at h
  · cases h
  · cases hc : db.createUser { email := Unicode.lower email, hashedPassword := getPasswordHash password } with
    | error e => rw [hc] at h; cases h
    | ok db' =>
      rw [hc] at h
      cases h
      obtain ⟨rfl, hn⟩ := AuthDb.createUser_eq_ok hc
      exact .registered hn

theorem login_effect {email password : String} (h : login settings now db email password = .ok reply) :
    AuthEffect settings now db (.login email password) reply := by
  unfold login at h
  split at h
  · cases h
  · rename_i id user hrow
    obtain ⟨hid, hu⟩ := exists_row hrow
    split_ifs at h with hp hv hs
    cases h
    exact .loggedIn hid hu (by simpa using hp) (by simpa using hv) (by simpa using hs)

theorem googleAuth_effect {info : TokenInfo} (h : googleAuth settings now db info = .ok reply) :
    AuthEffect settings now db (.googleAuth info) reply := by
  unfold googleAuth at h
  cases hi : verifyGoogleIdToken settings info with
  | error e => rw [hi] at h; cases h
  | ok email =>
    rw [hi] at h
    simp only [bind, Except.bind] at h
    unfold linkGoogleAccount at h
    split at h
    · cases h
    · rename_i linked hl
      split at hl
      · rename_i hnone
        revert hl
        cases hc : db.createUser _ with
        | error e => intro hl; cases hl
        | ok db' =>
          intro hl
          cases hl
          cases h
          obtain ⟨rfl, hn⟩ := AuthDb.createUser_eq_ok hc
          exact .googleCreated hi hn
      · rename_i id hid
        cases hl
        cases h
        exact .googleLinked hi hid

theorem verifyEmail_effect {raw : RawToken} (h : verifyEmail now db raw = .ok reply) :
    AuthEffect settings now db (.verifyEmail raw) reply := by
  unfold verifyEmail at h
  split at h
  · cases h
  · rename_i token ht
    obtain ⟨ht, htype⟩ := Option.filter_eq_some_iff.mp ht
    split at h
    · cases h
    · rename_i user hu
      split_ifs at h with hv hlive
      · cases h
        exact .verifiedAlready raw
      · cases h
        simp only [Bool.or_eq_true, decide_eq_true_eq, not_or, Bool.not_eq_true, not_le] at hlive
        exact .verified ht (by simpa using htype) hu (by simpa using hv) hlive.1 hlive.2

theorem resendVerification_effect (email : String) :
    AuthEffect settings now db (.resendVerification email) (resendVerification settings now db email) := by
  unfold resendVerification
  split
  · exact .nothingSent email (.inl rfl)
  · rename_i id user hrow
    split
    · exact .nothingSent email (.inl rfl)
    · rename_i hv
      exact .resent (exists_row hrow).2 (by simpa using hv)

theorem refreshAccessToken_effect {raw : Option RawToken} (h : refreshAccessToken settings now db raw = .ok reply) :
    AuthEffect settings now db (.refresh raw) reply := by
  unfold refreshAccessToken at h
  split at h
  · cases h
  · split at h
    · rename_i ha
      split at h
      · cases h
      · rename_i ht
        split at h
        · cases h
        · rename_i user hu
          cases h
          exact .graced ha ht (hu ▸ rfl)
    · rename_i ht
      split at h
      · cases h
      · rename_i user hu
        cases h
        exact .rotated ht (hu ▸ rfl)

theorem logout_effect (raw : Option RawToken) : AuthEffect settings now db (.logout raw) (logout now db raw) := by
  unfold logout
  split
  · exact .loggedOutAlready nofun
  · split
    · rename_i ha
      obtain ⟨token, ht⟩ := Option.isSome_iff_exists.mp ha
      exact .loggedOut ht
    · rename_i ha
      exact .loggedOutAlready fun r hr => by cases hr; exact Option.not_isSome_iff_eq_none.mp ha

theorem forgotPassword_effect (email : String) :
    AuthEffect settings now db (.forgotPassword email) (forgotPassword settings now db email) := by
  unfold forgotPassword
  split
  · exact .nothingSent email (.inr rfl)
  · rename_i id user hrow
    split
    · rename_i hv
      have heffect : AuthEffect settings now db (.forgotPassword email) _ := .resetSent (exists_row hrow).2 hv
      simpa only [AuthDb.revokeAllByUserAndType, List.length_map] using heffect
    · exact .nothingSent email (.inr rfl)

theorem resetPassword_effect {raw : RawToken} {newPassword : String} (h : resetPassword now db raw newPassword = .ok reply) :
    AuthEffect settings now db (.resetPassword raw newPassword) reply := by
  unfold resetPassword at h
  split at h
  · cases h
  · rename_i ht
    split at h
    · cases h
    · cases h
      exact .passwordReset ht

theorem changeEmail_effect {id : UserId} {user : User} {current newEmail : String} (hu : getCurrentUser db id = .ok user)
    (h : changeEmail settings now db id user current newEmail = .ok reply) :
    AuthEffect settings now db (.changeEmail id current newEmail) reply := by
  unfold changeEmail at h
  dsimp only at h
  split_ifs at h with _ _ _ _ hany
  cases h
  exact .emailChanged hu fun other ho he => hany (List.any_eq_true.mpr ⟨other, ho, by simpa using he⟩)

/-- Every answer has one of the effects. -/
theorem AuthDb.call_effect {call : AuthCall} (h : db.call settings now call = .ok reply) :
    AuthEffect settings now db call reply := by
  cases call with
  | register email password => exact register_effect h
  | verifyEmail token => exact verifyEmail_effect h
  | resendVerification email => cases h; exact resendVerification_effect email
  | login email password => exact login_effect h
  | googleAuth info => exact googleAuth_effect h
  | refresh raw => exact refreshAccessToken_effect h
  | logout raw => cases h; exact logout_effect raw
  | forgotPassword email => cases h; exact forgotPassword_effect email
  | resetPassword token newPassword => exact resetPassword_effect h
  | changePassword id current new =>
    simp only [call, bind, Except.bind] at h
    split at h
    · cases h
    · rename_i user hu
      unfold changePassword at h
      split_ifs at h
      cases h
      exact .passwordChanged hu
  | setPassword id new =>
    simp only [call, bind, Except.bind] at h
    split at h
    · cases h
    · rename_i user hu
      unfold setPassword at h
      split_ifs at h
      cases h
      exact .passwordSet hu
  | changeEmail id current newEmail =>
    simp only [call, bind, Except.bind] at h
    split at h
    · cases h
    · rename_i user hu
      exact changeEmail_effect hu h
  | revokeSession id raw =>
    simp only [call, bind, Except.bind] at h
    split at h
    · cases h
    · unfold revokeSession at h
      split at h
      · cases h
      · rename_i ht
        cases h
        exact .sessionRevoked (Option.filter_eq_some_iff.mp ht).1
  | deleteAccount id current =>
    simp only [call, bind, Except.bind] at h
    split at h
    · cases h
    · rename_i user hu
      unfold deleteAccount at h
      split_ifs at h
      cases h
      exact .deleted hu

end

end SignalSync
