import SignalSync.Auth.Tokens
import SignalSync.Library.Run

/-!
# Verification tokens

A verification token names a user and no address. `resend_verification` revokes the
tokens sent before; `change_email` does not, and an account that Google has verified
still has the token it was registered with (`oldToken_verifies_newAddress`). Where
no verification token is left in force when an address changes, a token verifies only
the address it was sent to (`verifies_address_sent_to`).

* `SentTo.step`: the tokens in force have been sent to the user's address.
-/

namespace SignalSync

open Library

/-- The service's state and all mail it has enqueued. -/
structure MailState where
  now : Time := 0
  db : AuthDb := {}
  mails : List Mail := []

inductive MailLabel
  | call (call : AuthCall)
  | tick (duration : Time)

namespace MailState

section

variable [Unicode] [Bcrypt] (settings : AuthSettings)

def step (s : MailState) : MailLabel → Option MailState
  | .call call =>
    match s.db.call settings s.now call with
    | .ok reply => some { s with db := reply.db, mails := s.mails ++ reply.mail.toList }
    | .error _ => some s
  | .tick duration => some { s with now := s.now + duration }

omit [Unicode] [Bcrypt] in
/-- An address is changed only when no verification token of the user is in force. -/
def ChangesClean (s : MailState) : MailLabel → Prop
  | .call (.changeEmail id ..) => ∀ raw < s.db.tokens.length, s.db.Active s.now .verify_email raw → s.db.ownerOf raw ≠ some id
  | _ => True

instance (s : MailState) (a : MailLabel) : Decidable (s.ChangesClean a) := by
  unfold ChangesClean
  split <;> infer_instance

omit [Unicode] [Bcrypt] in
/-- The verification tokens in force have been sent to their users' addresses. -/
structure SentTo (s : MailState) : Prop where
  owner : ∀ raw id, s.db.ownerOf raw = some id → id < s.db.users.length
  sent : ∀ raw id address, s.db.Active s.now .verify_email raw → s.db.ownerOf raw = some id →
    s.db.addressOf id = some address → ⟨address, raw⟩ ∈ s.mails

variable {settings} {s t : MailState} {a : MailLabel} {db' : AuthDb} {id : UserId}

/-! ## One change at a time -/

omit [Unicode] [Bcrypt] in
theorem SentTo.mail (h : s.SentTo) (more : List Mail) : SentTo { s with mails := s.mails ++ more } :=
  ⟨h.owner, fun raw id address ha ho hd => List.mem_append_left _ (h.sent raw id address ha ho hd)⟩

omit [Unicode] [Bcrypt] in
/-- No token is added; one that stays in force is of a user whose address stays. -/
theorem SentTo.keep (h : s.SentTo) (he : s.db.Extends db') (hlength : db'.tokens.length = s.db.tokens.length)
    (husers : s.db.users.length ≤ db'.users.length)
    (ha : ∀ raw, db'.Active s.now .verify_email raw → s.db.Active s.now .verify_email raw)
    (hd : ∀ raw id, db'.Active s.now .verify_email raw → s.db.ownerOf raw = some id → db'.addressOf id = s.db.addressOf id) :
    SentTo { s with db := db' } := by
  have howner {raw : RawToken} {id : UserId} (ho : db'.ownerOf raw = some id) : s.db.ownerOf raw = some id :=
    he.owner raw (hlength ▸ AuthDb.lt_length_of_owner (by rw [ho]; nofun)) ▸ ho
  refine ⟨fun raw id ho => (h.owner raw id (howner ho)).trans_le husers, fun raw id address hactive ho haddress => ?_⟩
  exact h.sent raw id address (ha raw hactive) (howner ho) (hd raw id hactive (howner ho) ▸ haddress)

omit [Unicode] [Bcrypt] in
theorem SentTo.revoke (h : s.SentTo) (raw : RawToken) : SentTo { s with db := s.db.revoke raw s.now } :=
  h.keep (AuthDb.extends_revoke ..) (List.length_modify ..) le_rfl (fun _ ha => (AuthDb.active_revoke ha).1)
    fun _ _ _ _ => rfl

omit [Unicode] [Bcrypt] in
theorem SentTo.revokeAll (h : s.SentTo) (userId : UserId) (type : TokenType) :
    SentTo { s with db := s.db.revokeAllByUserAndType userId type s.now } :=
  h.keep (AuthDb.extends_revokeAll ..) (List.length_map ..) le_rfl (fun _ ha => (AuthDb.active_revokeAll ha).1)
    fun _ _ _ _ => rfl

omit [Unicode] [Bcrypt] in
theorem ownerOf_createToken {db : AuthDb} {type : TokenType} {expiresAt : Time} {raw : RawToken} {id' : UserId}
    (h : (db.createToken id type expiresAt).ownerOf raw = some id') :
    raw < db.tokens.length ∧ db.ownerOf raw = some id' ∨ raw = db.tokens.length ∧ id' = id := by
  rcases lt_trichotomy raw db.tokens.length with hlt | rfl | hgt
  · exact .inl ⟨hlt, (AuthDb.extends_createToken id type expiresAt).owner raw hlt ▸ h⟩
  · rw [AuthDb.ownerOf, AuthDb.createToken, List.getElem?_concat_length] at h
    exact .inr ⟨rfl, (Option.some.inj h).symm⟩
  · rw [AuthDb.ownerOf, AuthDb.createToken, List.getElem?_eq_none (by simpa using Nat.succ_le_of_lt hgt)] at h
    cases h

omit [Unicode] [Bcrypt] in
/-- A token of another type is added. -/
theorem SentTo.token (h : s.SentTo) (hid : id < s.db.users.length) {type : TokenType} (htype : type ≠ .verify_email)
    (expiresAt : Time) : SentTo { s with db := s.db.createToken id type expiresAt } := by
  refine ⟨fun raw id' ho => ?_, fun raw id' address hactive ho haddress => ?_⟩
  · rcases ownerOf_createToken ho with ⟨-, ho⟩ | ⟨-, rfl⟩
    · exact h.owner raw id' ho
    · exact hid
  · have hactive := (AuthDb.active_createToken hactive).resolve_right fun hnew => htype hnew.2
    rcases ownerOf_createToken ho with ⟨-, ho⟩ | ⟨hraw, -⟩
    · exact h.sent raw id' address hactive ho haddress
    · exact absurd hraw hactive.lt_length.ne

omit [Unicode] [Bcrypt] in
/-- A verification token is added, and sent to the user's address. -/
theorem SentTo.verification (h : s.SentTo) {address : String} (haddress : s.db.addressOf id = some address) :
    SentTo { s with
      db := (issueVerification settings s.now s.db id address).db
      mails := s.mails ++ (issueVerification settings s.now s.db id address).mail.toList } := by
  have hid : id < s.db.users.length := by
    by_contra hge
    rw [AuthDb.addressOf, List.getElem?_eq_none (not_lt.mp hge)] at haddress
    cases haddress
  refine ⟨fun raw id' ho => ?_, fun raw id' address' hactive ho haddress' => ?_⟩
  · rcases ownerOf_createToken ho with ⟨-, ho⟩ | ⟨-, rfl⟩
    · exact h.owner raw id' ho
    · exact hid
  · rcases ownerOf_createToken ho with ⟨hlt, ho⟩ | ⟨rfl, rfl⟩
    · have hactive := (AuthDb.active_createToken hactive).resolve_right fun hnew => hlt.ne hnew.1
      exact List.mem_append_left _ (h.sent raw id' address' hactive ho haddress')
    · cases haddress.symm.trans haddress'
      exact List.mem_append_right _ (List.mem_singleton_self _)

/-! ## Every call -/

theorem SentTo.step (h : s.SentTo) (hok : s.ChangesClean a) (hs : s.step settings a = some t) : t.SentTo := by
  cases a with
  | tick duration =>
    cases hs
    exact ⟨h.owner, fun raw id address ha => h.sent raw id address (ha.of_le (Nat.le_add_right _ _))⟩
  | call call =>
    simp only [MailState.step] at hs
    split at hs
    · rename_i reply hreply
      cases hs
      have hrows {i : UserId} {f : User → User} (hf : ∀ user, (f user).email = user.email) :
          SentTo { s with db := s.db.setUser i f } :=
        h.keep (.of_tokens rfl) rfl (AuthDb.length_setUser f i).ge (fun _ ha => ha) fun _ id _ _ =>
          AuthDb.addressOf_setUser hf i id
      have hadd (user : User) : SentTo { s with db := { s.db with users := s.db.users ++ [user] } } :=
        h.keep (.of_tokens rfl) rfl (by simp) (fun _ ha => ha) fun raw id _ ho =>
          AuthDb.addressOf_append user (h.owner raw id ho)
      cases AuthDb.call_effect hreply with
      | verifiedAlready raw => exact h.mail _
      | nothingSent email hc => exact h.mail _
      | loggedOutAlready ha => exact h.mail _
      | registered hn => exact (hadd _).verification (AuthDb.addressOf_concat _)
      | verified ht htype hu hv hr he => exact ((hrows (by simp)).revoke _).mail _
      | resent hu hv =>
        exact (h.revokeAll _ _).verification (by rw [AuthDb.addressOf, AuthDb.revokeAllByUserAndType, hu]; rfl)
      | loggedIn hid hu hp hv => exact (h.token (AuthDb.lt_of_userByEmail hid) (by decide) _).mail _
      | googleCreated hi hn => exact ((hadd _).token (by simp) (by decide) _).mail _
      | googleLinked hi hid =>
        refine ((hrows (by simp)).token ?_ (by decide) _).mail _
        exact (AuthDb.length_setUser _ _).symm ▸ AuthDb.lt_of_userByEmail hid
      | rotated ht => exact ((h.revoke _).token (h.owner _ _ (AuthDb.ownerOf_getActive ht)) (by decide) _).mail _
      | graced ha ht => exact (h.token (h.owner _ _ (AuthDb.ownerOf_getRecentlyRevoked ht)) (by decide) _).mail _
      | loggedOut ht => exact (h.revoke _).mail _
      | resetSent hu hv =>
        refine ((h.revokeAll _ _).token ?_ (by decide) _).mail _
        exact (List.getElem?_eq_some_iff.mp hu).1
      | passwordReset ht => exact (((hrows (by simp)).revoke _).revokeAll _ _).mail _
      | passwordChanged hu => exact ((hrows (by simp)).revokeAll _ _).mail _
      | passwordSet hu => exact (hrows (by simp)).mail _
      | @emailChanged id user current newEmail hu hn =>
        have hid : id < s.db.users.length := AuthDb.lt_of_getCurrentUser hu
        -- no token in force is of the user, so every owner's address stays
        have hmoved : SentTo { s with
            db := s.db.setUser id fun user => { user with email := Unicode.lower newEmail, isEmailVerified := false } } :=
          h.keep (.of_tokens rfl) rfl (AuthDb.length_setUser _ _).ge (fun _ ha => ha) fun raw id' ha ho =>
            AuthDb.addressOf_setUser_of_ne _ fun he => hok raw ha.lt_length ha (he ▸ ho)
        exact (hmoved.verification (AuthDb.addressOf_setUser_self hid _)).revokeAll _ _
      | sessionRevoked ht => exact (h.revoke _).mail _
      | deleted hu => exact ((hrows (by simp)).revokeAll _ _).mail _
    · cases hs
      exact h

/-- In a run that changes addresses so, a token that verifies a user has been sent to
the user's address. -/
theorem verifies_address_sent_to (h : Reach (MailState.step settings) ChangesClean {} s) {raw : RawToken} {reply : AuthReply}
    {before after : User} (hreply : verifyEmail s.now s.db raw = .ok reply) (hb : s.db.users[id]? = some before)
    (ha : reply.db.users[id]? = some after) (hunverified : before.isEmailVerified = false)
    (hverified : after.isEmailVerified = true) : ⟨after.email, raw⟩ ∈ s.mails := by
  have hsent : SentTo s := h.invariant ⟨nofun, fun raw _ _ hactive => absurd hactive.lt_length (Nat.not_lt_zero raw)⟩
    fun _ _ _ hsent hok hs => hsent.step hok hs
  have heffect : AuthEffect settings s.now s.db (.verifyEmail raw) reply := verifyEmail_effect hreply
  cases heffect with
  | verifiedAlready raw =>
    cases hb.symm.trans ha
    rw [hunverified] at hverified
    cases hverified
  | nothingSent email hc => rcases hc with hc | hc <;> cases hc
  | @verified raw token user ht htype hu hv hr he =>
    have ha : (s.db.users.modify token.userId fun user => { user with isEmailVerified := true })[id]? = some after := ha
    rw [List.getElem?_modify, hb] at ha
    by_cases hid : token.userId = id
    · simp only [hid, if_pos, Option.map_eq_map, Option.map_some, Option.some.injEq] at ha
      subst ha
      refine hsent.sent raw id before.email (AuthDb.active_iff.2 ⟨token, ht, by simp [Token.isActive, htype, hr, he]⟩) ?_ ?_
      · rw [AuthDb.ownerOf, ht, ← hid]
        rfl
      · rw [AuthDb.addressOf, hb]
        rfl
    · simp only [if_neg hid, Option.map_eq_map, Option.map_some, Option.some.injEq] at ha
      rw [← ha, hunverified] at hverified
      cases hverified

/-! ## A token of an earlier address -/

/-- An account is registered; its token 0 goes to the old address. -/
def silverRegistered : List MailLabel := [.call (.register "old@example.com" "secret")]

omit [Unicode] [Bcrypt] in
/-- Its token is used before the address changes; the next one goes to the new address. -/
theorem verifies_address_sent_to_silver :
    let _ := Unicode.ascii
    let _ : Bcrypt := ⟨fun password => password⟩
    let settings : AuthSettings := { googleClientId := "client" }
    ∃ s reply before after, Reach (step settings) ChangesClean {} s ∧ verifyEmail s.now s.db 1 = .ok reply ∧
      s.db.users[0]? = some before ∧ reply.db.users[0]? = some after ∧ before.isEmailVerified = false ∧
      after.isEmailVerified = true ∧ after.email = "new@example.com" ∧ ⟨after.email, 1⟩ ∈ s.mails := by
  intro _ _ settings
  have hrun : (runIf (step settings) ChangesClean {} (silverRegistered ++
      [.call (.verifyEmail 0), .call (.changeEmail 0 "secret" "new@example.com")])).map
      (fun s => (s.db.users[0]?, (verifyEmail s.now s.db 1).toOption.bind fun reply => reply.db.users[0]?)) = some
        (some { email := "new@example.com", hashedPassword := getPasswordHash "secret" },
          some { email := "new@example.com", hashedPassword := getPasswordHash "secret", isEmailVerified := true }) := by
    decide +kernel
  obtain ⟨s, hs, hr⟩ := Option.map_eq_some_iff.mp hrun
  simp only [Prod.mk.injEq] at hr
  obtain ⟨hb, hafter⟩ := hr
  cases hreply : verifyEmail s.now s.db 1 with
  | error e => rw [hreply] at hafter; cases hafter
  | ok reply =>
    rw [hreply] at hafter
    have h := Reach.of_runIf hs
    exact ⟨s, reply, _, _, h, hreply, hb, hafter, rfl, rfl, rfl, verifies_address_sent_to h hreply hb hafter rfl rfl⟩

omit [Unicode] [Bcrypt] in
/-- Google verifies the account, token 0 stays in force, and after the address has
changed it verifies the new one. -/
theorem oldToken_verifies_newAddress :
    let _ := Unicode.ascii
    let _ : Bcrypt := ⟨fun password => password⟩
    let settings : AuthSettings := { googleClientId := "client" }
    ∃ s reply before after, Reach (step settings) always {} s ∧ verifyEmail s.now s.db 0 = .ok reply ∧
      s.db.users[0]? = some before ∧ reply.db.users[0]? = some after ∧ before.isEmailVerified = false ∧
      after.isEmailVerified = true ∧ after.email = "new@example.com" ∧
      ∀ mail ∈ s.mails, mail.token = 0 → mail.address = "old@example.com" := by
  intro _ _ settings
  have hrun : (run (step settings) {} (silverRegistered ++
      [.call (.googleAuth (.claims (some "client") true (some "old@example.com"))),
        .call (.changeEmail 0 "secret" "new@example.com")])).map
      (fun s => ((verifyEmail s.now s.db 0).toOption.bind fun reply => reply.db.users[0]?, s.db.users[0]?,
        s.mails)) = some
        (some { email := "new@example.com", hashedPassword := getPasswordHash "secret", isEmailVerified := true },
          some { email := "new@example.com", hashedPassword := getPasswordHash "secret" },
          [⟨"old@example.com", 0⟩, ⟨"new@example.com", 2⟩]) := by decide +kernel
  obtain ⟨s, hs, hr⟩ := Option.map_eq_some_iff.mp hrun
  simp only [Prod.mk.injEq] at hr
  obtain ⟨hafter, hbefore, hmails⟩ := hr
  cases hreply : verifyEmail s.now s.db 0 with
  | error e => rw [hreply] at hafter; cases hafter
  | ok reply =>
    rw [hreply] at hafter
    refine ⟨s, reply, _, _, .of_run hs, hreply, hbefore, hafter, rfl, rfl, rfl, ?_⟩
    rw [hmails]
    decide

end

end MailState

end SignalSync
