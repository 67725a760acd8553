import SignalSync.Auth.Tokens
import SignalSync.Library.Run

/-!
# Revoked sessions

A session is a login's refresh token with all that rotation has drawn from it. The
grace period is meant for a token that a parallel request has just rotated, but
`get_recently_revoked` asks only when a token was revoked: a token revoked by a
logout is answered with a new pair for thirty seconds more
(`loggedOut_session_answered`). Where no token of a revoked session is presented
within that time, and none is left live when a session is ended, a revoked session
stays dead (`revoked_session_stays_dead`).

* `Dead.step`: no step brings a token of a revoked session back to life.
-/

namespace SignalSync

open Library

/-! ## Sessions -/

/-- The service's state with the session of every refresh token, known by the token
it began with, and the sessions that have been revoked. -/
structure SessionState where
  now : Time := 0
  db : AuthDb := {}
  sessionOf : RawToken → RawToken := id
  revoked : List RawToken := []

inductive SessionLabel
  | call (call : AuthCall)
  | tick (duration : Time)

namespace SessionState

/-- The sessions of a user. -/
def sessionsOf (s : SessionState) (userId : UserId) : List RawToken :=
  ((List.range s.db.tokens.length).filter fun raw => (s.db.tokens[raw]?).any (·.userId = userId)).map s.sessionOf

/-- The sessions an answered call has revoked: a logout and a revocation the
token's, the others all of the user's. -/
def revokes (s : SessionState) : AuthCall → List RawToken
  | .logout (some raw) => if s.db.Active s.now .refresh raw then [s.sessionOf raw] else []
  | .revokeSession _ raw => [s.sessionOf raw]
  | .resetPassword raw _ => ((s.db.tokens[raw]?).map fun token => s.sessionsOf token.userId).getD []
  | .changePassword id .. | .changeEmail id .. | .deleteAccount id .. => s.sessionsOf id
  | _ => []

/-- A refreshed token's session goes on with the new token. -/
def continues (s : SessionState) : AuthCall → AuthReply → RawToken → RawToken
  | .refresh (some raw), { refreshCookie := some new, .. } => Function.update s.sessionOf new (s.sessionOf raw)
  | _, _ => s.sessionOf

section

variable [Unicode] [Bcrypt] (settings : AuthSettings)

def step (s : SessionState) : SessionLabel → Option SessionState
  | .call call =>
    match s.db.call settings s.now call with
    | .ok reply =>
      some { s with db := reply.db, sessionOf := s.continues call reply, revoked := s.revoked ++ s.revokes call }
    | .error _ => some s
  | .tick duration => some { s with now := s.now + duration }

omit [Unicode] [Bcrypt] in
/-- No token of a revoked session is presented while the grace period of its own
revocation lasts, and a session is ended with its last live token. -/
def EndsSessions (s : SessionState) : SessionLabel → Prop
  | .call (.refresh (some raw)) => s.sessionOf raw ∈ s.revoked → s.db.getRecentlyRevoked raw .refresh s.now = none
  | .call (.logout (some raw)) | .call (.revokeSession _ raw) => s.db.Active s.now .refresh raw →
      ∀ raw' < s.db.tokens.length, s.db.Active s.now .refresh raw' → s.sessionOf raw' = s.sessionOf raw → raw' = raw
  | _ => True

instance (s : SessionState) (a : SessionLabel) : Decidable (s.EndsSessions a) := by
  unfold EndsSessions
  split <;> infer_instance

/-! ## What every step keeps -/

omit [Unicode] [Bcrypt] in
/-- No token of a revoked session is active; a session is one user's. -/
structure Dead (s : SessionState) : Prop where
  tokens : ∀ raw, s.db.Active s.now .refresh raw → s.sessionOf raw ∉ s.revoked
  owner : ∀ raw, s.db.ownerOf (s.sessionOf raw) = s.db.ownerOf raw
  fresh : ∀ raw, s.db.tokens.length ≤ raw → s.sessionOf raw = raw
  revoked : ∀ session ∈ s.revoked, session < s.db.tokens.length

variable {settings} {s t : SessionState} {a : SessionLabel}

omit [Unicode] [Bcrypt] in
theorem Dead.sessionOf_lt (h : Dead s) {raw : RawToken} (hr : raw < s.db.tokens.length) :
    s.sessionOf raw < s.db.tokens.length :=
  AuthDb.lt_length_of_owner (h.owner raw ▸ AuthDb.ownerOf_ne_none hr)

omit [Unicode] [Bcrypt] in
/-- A call that goes on with no session: it leaves live what was, and not revoked,
or begins one. -/
theorem Dead.extend (h : Dead s) {db' : AuthDb} {more : List RawToken} (he : s.db.Extends db')
    (hm : ∀ session ∈ more, session < s.db.tokens.length)
    (ha : ∀ raw, db'.Active s.now .refresh raw → s.db.Active s.now .refresh raw ∧ s.sessionOf raw ∉ more ∨ raw = s.db.tokens.length ∧ more = []) :
    Dead { s with db := db', revoked := s.revoked ++ more } where
  tokens := fun raw hraw hmem => by
    rcases ha raw hraw with ⟨hactive, hnot⟩ | ⟨rfl, rfl⟩
    · rcases List.mem_append.mp hmem with hmem | hmem
      · exact h.tokens raw hactive hmem
      · exact hnot hmem
    · rw [List.append_nil, h.fresh _ le_rfl] at hmem
      exact absurd (h.revoked _ hmem) (lt_irrefl _)
  owner := fun raw => by
    rcases lt_or_ge raw s.db.tokens.length with hlt | hge
    · exact (he.owner _ (h.sessionOf_lt hlt)).trans ((h.owner raw).trans (he.owner raw hlt).symm)
    · exact congrArg db'.ownerOf (h.fresh raw hge)
  fresh := fun raw hge => h.fresh raw (he.length.trans hge)
  revoked := fun session hmem => by
    rcases List.mem_append.mp hmem with hmem | hmem
    · exact (h.revoked session hmem).trans_le he.length
    · exact (hm session hmem).trans_le he.length

omit [Unicode] [Bcrypt] in
/-- A session goes on with one more token. -/
theorem Dead.continue (h : Dead s) {db' : AuthDb} {raw : RawToken} {userId : UserId} {expiresAt : Time}
    (he : s.db.Extends db') (hl : db'.tokens.length = s.db.tokens.length)
    (ha : ∀ raw', db'.Active s.now .refresh raw' → s.db.Active s.now .refresh raw') (ho : s.db.ownerOf raw = some userId)
    (hr : s.sessionOf raw ∉ s.revoked) :
    Dead { s with
      db := db'.createToken userId .refresh expiresAt
      sessionOf := Function.update s.sessionOf db'.tokens.length (s.sessionOf raw) } := by
  have hraw : raw < s.db.tokens.length := AuthDb.lt_length_of_owner (by rw [ho]; nofun)
  have hext := he.trans (AuthDb.extends_createToken userId .refresh expiresAt)
  have hroot : (db'.createToken userId .refresh expiresAt).ownerOf (s.sessionOf raw) = some userId :=
    (hext.owner _ (h.sessionOf_lt hraw)).trans ((h.owner raw).trans ho)
  refine ⟨fun raw' hraw' => ?_, fun raw' => ?_, fun raw' hge => ?_, fun session hmem => ?_⟩
  · dsimp only
    by_cases hnew : raw' = db'.tokens.length
    · subst hnew
      rwa [Function.update_self]
    · rw [Function.update_of_ne hnew]
      rcases AuthDb.active_createToken hraw' with hactive | ⟨hnew', -⟩
      · exact h.tokens raw' (ha raw' hactive)
      · exact absurd hnew' hnew
  · dsimp only
    by_cases hnew : raw' = db'.tokens.length
    · subst hnew
      rw [Function.update_self, hroot, AuthDb.ownerOf, AuthDb.createToken, List.getElem?_concat_length]
      rfl
    · rw [Function.update_of_ne hnew]
      rcases lt_or_ge raw' s.db.tokens.length with hlt | hge
      · exact (hext.owner _ (h.sessionOf_lt hlt)).trans ((h.owner raw').trans (hext.owner raw' hlt).symm)
      · exact congrArg _ (h.fresh raw' hge)
  · have hlt : db'.tokens.length < raw' := Nat.lt_of_succ_le (by simpa [AuthDb.createToken] using hge)
    dsimp only
    rw [Function.update_of_ne hlt.ne']
    exact h.fresh raw' (hl ▸ hlt.le)
  · exact (h.revoked session hmem).trans_le hext.length

omit [Unicode] [Bcrypt] in
theorem mem_sessionsOf {userId : UserId} {session : RawToken} :
    session ∈ s.sessionsOf userId ↔ ∃ raw, s.db.ownerOf raw = some userId ∧ s.sessionOf raw = session := by
  simp only [sessionsOf, List.mem_map, List.mem_filter, List.mem_range, AuthDb.ownerOf]
  constructor
  · rintro ⟨raw, ⟨-, hr⟩, rfl⟩
    obtain ⟨token, ht, hu⟩ := (Option.any_eq_true _ _).mp hr
    exact ⟨raw, by rw [ht]; simpa using hu, rfl⟩
  · rintro ⟨raw, ho, rfl⟩
    obtain ⟨token, ht, hu⟩ := Option.map_eq_some_iff.mp ho
    exact ⟨raw, ⟨(List.getElem?_eq_some_iff.mp ht).1, by rw [ht]; simpa using hu⟩, rfl⟩

omit [Unicode] [Bcrypt] in
theorem Dead.sessionsOf_lt (h : Dead s) {userId : UserId} : ∀ session ∈ s.sessionsOf userId, session < s.db.tokens.length := by
  intro session hs
  obtain ⟨raw, ho, rfl⟩ := mem_sessionsOf.1 hs
  exact h.sessionOf_lt (AuthDb.lt_length_of_owner (by rw [ho]; nofun))

omit [Unicode] [Bcrypt] in
/-- After all of a user's refresh tokens are revoked, what is active is of no session
of the user. -/
theorem Dead.revokeAll (h : Dead s) {db' : AuthDb} {userId : UserId} (he : s.db.Extends db')
    (ha : ∀ raw, db'.Active s.now .refresh raw → s.db.Active s.now .refresh raw) {raw : RawToken}
    (hraw : (db'.revokeAllByUserAndType userId .refresh s.now).Active s.now .refresh raw) :
    s.db.Active s.now .refresh raw ∧ s.sessionOf raw ∉ s.sessionsOf userId := by
  obtain ⟨hactive, howner⟩ := AuthDb.active_revokeAll hraw
  have hlt := (ha raw hactive).lt_length
  refine ⟨ha raw hactive, fun hmem => howner rfl ?_⟩
  obtain ⟨raw', ho, hs⟩ := mem_sessionsOf.1 hmem
  rw [he.owner raw hlt, ← h.owner raw, ← hs, h.owner raw', ho]

theorem Dead.step (h : Dead s) (hok : s.EndsSessions a) (hs : s.step settings a = some t) : Dead t := by
  cases a with
  | tick duration =>
    cases hs
    exact ⟨fun raw ha => h.tokens raw (ha.of_le (Nat.le_add_right _ _)), h.owner, h.fresh, h.revoked⟩
  | call call =>
    simp only [SessionState.step] at hs
    split at hs
    · rename_i reply hreply
      cases hs
      have hsame {db' : AuthDb} (ht : db'.tokens = s.db.tokens) : Dead { s with db := db', revoked := s.revoked ++ [] } :=
        h.extend (.of_tokens ht) (List.forall_mem_nil _) fun raw hraw => .inl ⟨(AuthDb.active_of_tokens ht).mp hraw, List.not_mem_nil⟩
      have hissue {db' : AuthDb} (ht : db'.tokens = s.db.tokens) (userId : UserId) (type : TokenType) (expiresAt : Time) :
          Dead { s with db := db'.createToken userId type expiresAt, revoked := s.revoked ++ [] } := by
        refine h.extend ((AuthDb.Extends.of_tokens ht).trans (AuthDb.extends_createToken ..)) (List.forall_mem_nil _) fun raw hraw => ?_
        rcases AuthDb.active_createToken hraw with hactive | ⟨hnew, -⟩
        · exact .inl ⟨(AuthDb.active_of_tokens ht).mp hactive, List.not_mem_nil⟩
        · exact .inr ⟨ht ▸ hnew, rfl⟩
      have hend {raw : RawToken} (hactive : s.db.Active s.now .refresh raw) (hlast : s.EndsSessions (.call (.logout (some raw)))) :
          Dead { s with db := s.db.revoke raw s.now, revoked := s.revoked ++ [s.sessionOf raw] } := by
        refine h.extend (AuthDb.extends_revoke raw s.now) (by simpa using h.sessionOf_lt hactive.lt_length) fun raw' hraw' => .inl ?_
        obtain ⟨hactive', hne⟩ := AuthDb.active_revoke hraw'
        exact ⟨hactive', by simpa using fun he => hne (hlast hactive raw' hactive'.lt_length hactive' he)⟩
      have hendAll {db' : AuthDb} (he : s.db.Extends db') (userId : UserId)
          (ha : ∀ raw, db'.Active s.now .refresh raw → s.db.Active s.now .refresh raw) :
          Dead { s with
            db := db'.revokeAllByUserAndType userId .refresh s.now, revoked := s.revoked ++ s.sessionsOf userId } :=
        h.extend (he.trans (AuthDb.extends_revokeAll ..)) h.sessionsOf_lt fun _ hraw => .inl (h.revokeAll he ha hraw)
      have hmail {type : TokenType} (htype : type ≠ .refresh) (userId : UserId) (expiresAt : Time) :
          Dead { s with
            db := (s.db.revokeAllByUserAndType userId type s.now).createToken userId type expiresAt
            revoked := s.revoked ++ [] } := by
        refine h.extend ((AuthDb.extends_revokeAll ..).trans (AuthDb.extends_createToken ..)) (List.forall_mem_nil _) fun raw hraw => .inl ?_
        have hactive := (AuthDb.active_createToken hraw).resolve_right fun hnew => htype hnew.2
        exact ⟨(AuthDb.active_revokeAll hactive).1, List.not_mem_nil⟩
      cases AuthDb.call_effect hreply with
      | verifiedAlready raw => exact hsame rfl
      | nothingSent email hc => rcases hc with rfl | rfl <;> exact hsame rfl
      | @loggedOutAlready raw ha =>
        cases raw with
        | none => exact hsame rfl
        | some raw =>
          have hnone : s.revokes (.logout (some raw)) = [] := if_neg (by rw [AuthDb.Active, ha raw rfl]; exact Bool.noConfusion)
          rw [hnone]
          exact hsame rfl
      | registered hn => exact hissue (by rfl) ..
      | verified ht htype hu hv hr he =>
        refine h.extend ((AuthDb.Extends.of_tokens (by rfl)).trans (AuthDb.extends_revoke ..)) (List.forall_mem_nil _) fun raw hraw => .inl ?_
        exact ⟨(AuthDb.active_revoke hraw).1, List.not_mem_nil⟩
      | resent hu hv => exact hmail (by decide) ..
      | loggedIn hid hu hp hv => exact hissue (by rfl) ..
      | googleCreated hi hn => exact hissue (by rfl) ..
      | googleLinked hi hid => exact hissue (by rfl) ..
      | @rotated raw token ht =>
        have hactive : s.db.Active s.now .refresh raw := by rw [AuthDb.Active, ht]; rfl
        have howner : s.db.ownerOf raw = some token.userId := by
          rw [AuthDb.ownerOf, (Option.filter_eq_some_iff.mp ht).1]
          rfl
        have hlength : (s.db.revoke raw s.now).tokens.length = s.db.tokens.length := List.length_modify ..
        have hnone : s.revokes (.refresh (some raw)) = [] := rfl
        rw [hnone, List.append_nil]
        exact h.continue (AuthDb.extends_revoke raw s.now) hlength (fun _ hraw => (AuthDb.active_revoke hraw).1) howner
          (h.tokens raw hactive)
      | @graced raw token ha ht =>
        have howner : s.db.ownerOf raw = some token.userId := by
          rw [AuthDb.ownerOf, (Option.filter_eq_some_iff.mp ht).1]
          rfl
        have hlive : s.sessionOf raw ∉ s.revoked := fun hmem => by
          rw [hok hmem] at ht
          cases ht
        have hnone : s.revokes (.refresh (some raw)) = [] := rfl
        rw [hnone, List.append_nil]
        exact h.continue (.of_tokens rfl) rfl (fun _ hraw => hraw) howner hlive
      | @loggedOut raw token ht =>
        have hactive : s.db.Active s.now .refresh raw := by rw [AuthDb.Active, ht]; rfl
        have hsession : s.revokes (.logout (some raw)) = [s.sessionOf raw] := if_pos hactive
        rw [hsession]
        exact hend hactive hok
      | resetSent hu hv => exact hmail (by decide) ..
      | @passwordReset raw newPassword token ht =>
        have htoken := (Option.filter_eq_some_iff.mp ht).1
        have hsessions : s.revokes (.resetPassword raw newPassword) = s.sessionsOf token.userId := by
          simp only [revokes, htoken, Option.map_some, Option.getD_some]
        rw [hsessions]
        exact hendAll ((AuthDb.Extends.of_tokens (by rfl)).trans (AuthDb.extends_revoke ..)) token.userId
          fun _ hraw => (AuthDb.active_revoke hraw).1
      | passwordChanged hu => exact hendAll (.of_tokens (by rfl)) _ fun _ hraw => hraw
      | passwordSet hu => exact hsame rfl
      | emailChanged hu hn =>
        refine hendAll ((AuthDb.Extends.of_tokens (by rfl)).trans (AuthDb.extends_createToken ..)) _ fun raw hraw => ?_
        exact (AuthDb.active_createToken hraw).resolve_right (by simp)
      | @sessionRevoked id raw token ht =>
        have hactive : s.db.Active s.now .refresh raw := by rw [AuthDb.Active, ht]; rfl
        exact hend hactive hok
      | deleted hu => exact hendAll (.of_tokens (by rfl)) _ fun _ hraw => hraw
    · cases hs
      exact h

/-- In a run that ends sessions so, no token that has ever belonged to a revoked
session is answered with a new pair. -/
theorem revoked_session_stays_dead (h : Reach (step settings) EndsSessions {} s) {raw : RawToken}
    (hr : s.sessionOf raw ∈ s.revoked) (hok : s.EndsSessions (.call (.refresh (some raw)))) :
    ∃ e, refreshAccessToken settings s.now s.db (some raw) = .error e := by
  have hdead : Dead s := h.invariant ⟨fun raw ha => absurd ha.lt_length (Nat.not_lt_zero raw), fun _ => rfl, fun _ _ => rfl, nofun⟩
    fun _ _ _ hd hok hs => hd.step hok hs
  have hactive : s.db.getActive raw .refresh s.now = none :=
    Option.not_isSome_iff_eq_none.mp fun ha => hdead.tokens raw ha hr
  refine ⟨⟨401, "Invalid or expired refresh token."⟩, ?_⟩
  simp only [refreshAccessToken, hactive, hok hr]

/-! ## A logout -/

/-- A user signs up with Google, and so begins a session with token 0. -/
def goldSession : List SessionLabel :=
  [.call (.googleAuth (.claims (some "client") true (some "gold@example.com")))]

omit [Unicode] [Bcrypt] in
/-- Token 0 is rotated into token 1, the session is ended with it, and both are
presented after the grace period. -/
theorem revoked_session_stays_dead_goldSession :
    let _ := Unicode.ascii
    let _ : Bcrypt := ⟨id⟩
    let settings : AuthSettings := { googleClientId := "client" }
    ∃ s, Reach (step settings) EndsSessions {} s ∧ s.sessionOf 1 = 0 ∧
      ∃ e, refreshAccessToken settings s.now s.db (some 1) = .error e := by
  intro _ _ settings
  have hrun : (runIf (step settings) EndsSessions {} (goldSession ++
      [.call (.refresh (some 0)), .call (.logout (some 1)), .tick (seconds 31)])).map
        (fun s => (s.sessionOf 1, decide (s.sessionOf 1 ∈ s.revoked), decide (s.EndsSessions (.call (.refresh (some 1)))))) =
          some (0, true, true) := by decide +kernel
  obtain ⟨s, hs, hr⟩ := Option.map_eq_some_iff.mp hrun
  simp only [Prod.mk.injEq, decide_eq_true_eq] at hr
  have h := Reach.of_runIf hs
  exact ⟨s, h, hr.1, revoked_session_stays_dead h hr.2.1 hr.2.2⟩

omit [Unicode] [Bcrypt] in
/-- A second after the logout the token is answered with token 1. -/
theorem loggedOut_session_answered :
    let _ := Unicode.ascii
    let _ : Bcrypt := ⟨id⟩
    let settings : AuthSettings := { googleClientId := "client" }
    ∃ s, Reach (step settings) always {} s ∧ s.sessionOf 0 ∈ s.revoked ∧
      ∃ reply, refreshAccessToken settings s.now s.db (some 0) = .ok reply ∧ reply.refreshCookie = some 1 := by
  intro _ _ settings
  have hrun : (run (step settings) {} (goldSession ++ [.call (.logout (some 0)), .tick (seconds 1)])).map
      (fun s => (decide (s.sessionOf 0 ∈ s.revoked),
        (refreshAccessToken settings s.now s.db (some 0)).toOption.map (·.refreshCookie))) = some (true, some (some 1)) := by
    decide +kernel
  obtain ⟨s, hs, hr⟩ := Option.map_eq_some_iff.mp hrun
  simp only [Prod.mk.injEq, decide_eq_true_eq] at hr
  refine ⟨s, .of_run hs, hr.1, ?_⟩
  cases hreply : refreshAccessToken settings s.now s.db (some 0) with
  | error e => rw [hreply] at hr; cases hr.2
  | ok reply =>
    rw [hreply] at hr
    exact ⟨reply, rfl, Option.some.inj hr.2⟩

end

end SessionState

end SignalSync
