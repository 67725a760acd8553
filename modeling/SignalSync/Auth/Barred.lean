import SignalSync.Auth.Tokens
import SignalSync.Library.Run

/-!
# Barred users

A user who is suspended or deleted, or whose address is not verified, is to get no
session. `login` looks at all three. `google_auth` does not look at the suspension, and
neither does the grace branch of `refresh_access_token`, which answers a token that the
suspension itself has just revoked. The law holds of exactly the runs whose steps keep
clear of both (`sessions_admitted_iff`).

* `Live.step`: a refresh token in force is of a user who is neither suspended nor
  unverified.
-/

namespace SignalSync

open Library

/-! ## The administrators' requests -/

/-- `suspend_user`, by an administrator who may manage the user. -/
def suspendUser (now : Time) (db : AuthDb) (id : UserId) : Except HttpError AuthDb :=
  match db.userById id with
  | none => .error ⟨404, "User not found."⟩
  | some _ =>
    .ok ((db.setUser id fun user => { user with isSuspended := true }).revokeAllByUserAndType id .refresh now)

/-- `restore_user`, likewise. -/
def restoreUser (db : AuthDb) (id : UserId) : Except HttpError AuthDb :=
  match db.userById id with
  | none => .error ⟨404, "User not found."⟩
  | some _ => .ok (db.setUser id fun user => { user with isSuspended := false })

/-! ## Sessions and whom they are given -/

/-- The user is not suspended, and the address is verified. -/
def User.isClear (user : User) : Bool := !user.isSuspended && user.isEmailVerified

/-- The user is to have no session. -/
def User.isBarred (user : User) : Bool := user.isDeleted || !user.isClear

/-- The service's state, with the row that the user of each session had when the
session was given. -/
structure AccessState where
  now : Time := 0
  db : AuthDb := {}
  issued : List (Option User) := []

inductive AccessLabel
  | call (call : AuthCall)
  | suspend (id : UserId)
  | restore (id : UserId)
  | tick (duration : Time)

/-- The row of the user to whom a token belongs. -/
def AuthDb.userOf (db : AuthDb) (raw : RawToken) : Option User := (db.ownerOf raw).bind fun id => db.users[id]?

namespace AccessState

/-- Every session was given to a user who was not barred then. -/
def Admitted (s : AccessState) : Prop := ∀ user ∈ s.issued, user.any fun user => !user.isBarred

instance (s : AccessState) : Decidable s.Admitted := inferInstanceAs (Decidable (∀ user ∈ s.issued, _))

section

variable [Unicode] [Bcrypt] (settings : AuthSettings)

def step (s : AccessState) : AccessLabel → Option AccessState
  | .call call =>
    match s.db.call settings s.now call with
    | .ok reply => some { s with db := reply.db, issued := s.issued ++ reply.refreshCookie.toList.map reply.db.userOf }
    | .error _ => some s
  | .suspend id =>
    match suspendUser s.now s.db id with
    | .ok db => some { s with db }
    | .error _ => some s
  | .restore id =>
    match restoreUser s.db id with
    | .ok db => some { s with db }
    | .error _ => some s
  | .tick duration => some { s with now := s.now + duration }

/-- No Google identity of a suspended user signs in, and no token is presented in its
grace period whose user is suspended, or has to verify an address again. -/
def KeepsClear (s : AccessState) : AccessLabel → Prop
  | .call (.googleAuth info) =>
    match verifyGoogleIdToken settings info with
    | .ok email => ∀ id ∈ s.db.userByEmail (Unicode.lower email), ∀ user ∈ s.db.users[id]?, user.isSuspended = false
    | .error _ => True
  | .call (.refresh (some raw)) =>
    ∀ token ∈ s.db.getRecentlyRevoked raw .refresh s.now, ∀ user ∈ s.db.userById token.userId, user.isClear
  | _ => True

instance (s : AccessState) (a : AccessLabel) : Decidable (s.KeepsClear settings a) := by
  unfold KeepsClear
  split <;> first | infer_instance | (split <;> infer_instance)

end

end AccessState

/-! ## Tokens in force -/

/-- Refresh tokens in force are of users who are clear. -/
def AuthDb.Live (db : AuthDb) (now : Time) : Prop := ∀ raw, db.Active now .refresh raw → (db.userOf raw).any (·.isClear)

namespace AuthDb

variable {db db' : AuthDb} {now : Time} {id : UserId} {f : User → User}

/-- No token comes into force, and users who have one stay clear. -/
theorem Live.keep (h : db.Live now) (he : db.Extends db') (ha : ∀ raw, db'.Active now .refresh raw → db.Active now .refresh raw)
    (hu : ∀ raw id user, db'.Active now .refresh raw → db.ownerOf raw = some id → db.users[id]? = some user → user.isClear →
      (db'.users[id]?).any (·.isClear)) : db'.Live now := by
  intro raw hraw
  have hactive := ha raw hraw
  obtain ⟨user, huser, hclear⟩ := (Option.any_eq_true _ _).mp (h raw hactive)
  obtain ⟨id, hid, huser⟩ := Option.bind_eq_some_iff.mp huser
  rw [userOf, he.owner raw hactive.lt_length, hid, Option.bind_some]
  exact hu raw id user hraw hid huser hclear

theorem Live.revoke (h : db.Live now) (raw : RawToken) : (db.revoke raw now).Live now :=
  h.keep (extends_revoke ..) (fun _ hraw => (active_revoke hraw).1) fun _ _ _ _ _ hu hc => by
    show (db.users[_]?).any _
    rwa [hu]

theorem Live.revokeAll (h : db.Live now) (id : UserId) (type : TokenType) : (db.revokeAllByUserAndType id type now).Live now :=
  h.keep (extends_revokeAll ..) (fun _ hraw => (active_revokeAll hraw).1) fun _ _ _ _ _ hu hc => by
    show (db.users[_]?).any _
    rwa [hu]

theorem Live.setUser (h : db.Live now) (id : UserId) (hf : ∀ user, user.isClear → (f user).isClear) : (db.setUser id f).Live now :=
  h.keep (.of_tokens rfl) (fun _ hraw => hraw) fun _ id' user _ _ hu hc => by
    rw [AuthDb.setUser, List.getElem?_modify, hu]
    show (if id = id' then f user else user).isClear
    split
    · exact hf user hc
    · exact hc

/-- One user is changed, and loses the tokens. -/
theorem Live.change (h : db.Live now) (he : db.Extends db') (ha : ∀ raw, db'.Active now .refresh raw → db.Active now .refresh raw)
    (hu : ∀ id' ≠ id, db'.users[id']? = db.users[id']?) : (db'.revokeAllByUserAndType id .refresh now).Live now := by
  refine h.keep (he.trans (extends_revokeAll ..)) (fun raw hraw => ha raw (active_revokeAll hraw).1) ?_
  intro raw id' user hraw hid huser hc
  obtain ⟨hactive, howner⟩ := active_revokeAll hraw
  have hne : id' ≠ id := by
    rintro rfl
    exact howner rfl ((he.owner raw (ha raw hactive).lt_length).trans hid)
  show (db'.users[id']?).any _
  rw [hu id' hne, huser]
  exact hc

theorem getElem?_setUser_of_ne {id' : UserId} (h : id' ≠ id) : (db.setUser id f).users[id']? = db.users[id']? := by
  simp [AuthDb.setUser, Ne.symm h]

theorem Live.setUser_revokeAll (h : db.Live now) (id : UserId) (f : User → User) :
    ((db.setUser id f).revokeAllByUserAndType id .refresh now).Live now :=
  h.change (.of_tokens rfl) (fun _ hraw => hraw) fun _ hne => getElem?_setUser_of_ne hne

theorem Live.addUser (h : db.Live now) (user : User) : Live { db with users := db.users ++ [user] } now :=
  h.keep (.of_tokens rfl) (fun _ hraw => hraw) fun _ _ _ _ _ hu hc => by
    rw [List.getElem?_append_left (List.getElem?_eq_some_iff.mp hu).1, hu]
    exact hc

theorem userOf_createToken (db : AuthDb) (id : UserId) (type : TokenType) (expiresAt : Time) :
    (db.createToken id type expiresAt).userOf db.tokens.length = db.users[id]? := by
  rw [userOf, ownerOf, createToken, List.getElem?_concat_length]
  rfl

theorem Live.createToken (h : db.Live now) {type : TokenType} (hu : type = .refresh → (db.users[id]?).any (·.isClear)) (expiresAt : Time) :
    (db.createToken id type expiresAt).Live now := by
  intro raw hraw
  rcases active_createToken hraw with hactive | ⟨rfl, htype⟩
  · have howner := (extends_createToken id type expiresAt).owner raw hactive.lt_length
    have hlive := h raw hactive
    rwa [userOf, ← howner] at hlive
  · rw [userOf_createToken]
    exact hu htype

/-- What `get_by_id` finds, it finds in the table. -/
theorem userById_eq_some {user : User} (h : db.userById id = some user) : db.users[id]? = some user ∧ user.isDeleted = false := by
  obtain ⟨hu, hd⟩ := Option.filter_eq_some_iff.mp h
  exact ⟨hu, by simpa using hd⟩

theorem isDeleted_of_userByEmail [Unicode] {email : String} {user : User} (h : db.userByEmail email = some id)
    (hu : db.users[id]? = some user) : user.isDeleted = false := by
  obtain ⟨hlt, hrow, -⟩ := List.findIdx?_eq_some_iff_getElem.mp h
  cases (List.getElem?_eq_getElem hlt).symm.trans hu
  simp only [Bool.and_eq_true, Bool.not_eq_eq_eq_not, Bool.not_true] at hrow
  exact hrow.2

/-- A token in its grace period is not in force. -/
theorem getActive_eq_none_of_recentlyRevoked {raw : RawToken} {type : TokenType} {token : Token}
    (h : db.getRecentlyRevoked raw type now = some token) : db.getActive raw type now = none := by
  obtain ⟨ht, hr⟩ := Option.filter_eq_some_iff.mp h
  simp only [Bool.and_eq_true] at hr
  simp [getActive, ht, Token.isActive, hr.1.2]

end AuthDb

namespace AccessState

section

variable [Unicode] [Bcrypt] {settings : AuthSettings} {s t : AccessState} {a : AccessLabel}

theorem Live.step (h : s.db.Live s.now) (hok : s.KeepsClear settings a) (hs : s.step settings a = some t) : t.db.Live t.now := by
  cases a with
  | tick duration =>
    cases hs
    exact fun raw ha => h raw (ha.of_le (Nat.le_add_right _ _))
  | suspend id =>
    simp only [AccessState.step, suspendUser] at hs
    split at hs
    · rename_i db hdb
      split at hdb <;> cases hdb
      cases hs
      exact h.setUser_revokeAll id _
    · cases hs
      exact h
  | restore id =>
    simp only [AccessState.step, restoreUser] at hs
    split at hs
    · rename_i db hdb
      split at hdb <;> cases hdb
      cases hs
      exact h.setUser id fun user hc => by
        simp only [User.isClear, Bool.and_eq_true] at hc
        simp [User.isClear, hc.2]
    · cases hs
      exact h
  | call call =>
    simp only [AccessState.step] at hs
    split at hs
    · rename_i reply hreply
      cases hs
      cases AuthDb.call_effect hreply with
      | verifiedAlready raw => exact h
      | nothingSent email hc => exact h
      | loggedOutAlready ha => exact h
      | registered hn => exact (h.addUser _).createToken (by simp) _
      | verified ht htype hu hv hr he =>
        refine (h.setUser _ fun user hc => ?_).revoke _
        simp only [User.isClear, Bool.and_eq_true] at hc
        simp [User.isClear, hc.1]
      | resent hu hv => exact (h.revokeAll _ _).createToken (by simp) _
      | loggedIn hid hu hp hv hsusp =>
        exact h.createToken (fun _ => by simp [hu, User.isClear, hv, hsusp]) _
      | googleCreated hi hn => exact (h.addUser _).createToken (fun _ => by simp [User.isClear]) _
      | @googleLinked info email id hi hid =>
        simp only [KeepsClear, hi] at hok
        have hlink : ∀ user : User, user.isClear → ({ user with isEmailVerified := true } : User).isClear := fun user hc => by
          simp only [User.isClear, Bool.and_eq_true] at hc
          simp [User.isClear, hc.1]
        refine (h.setUser id hlink).createToken (fun _ => ?_) _
        have hlt := AuthDb.lt_of_userByEmail hid
        have hclear := hok id hid _ (List.getElem?_eq_getElem hlt)
        simp [AuthDb.setUser, hlt, User.isClear, hclear]
      | @rotated raw token ht hu =>
        have hlive := h raw (by rw [AuthDb.Active, ht]; rfl)
        refine (h.revoke raw).createToken (fun _ => ?_) _
        rwa [AuthDb.userOf, AuthDb.ownerOf_getActive ht] at hlive
      | @graced raw token ha ht hu =>
        obtain ⟨user, huser⟩ := Option.isSome_iff_exists.mp hu
        refine h.createToken (fun _ => ?_) _
        rw [(AuthDb.userById_eq_some huser).1]
        exact hok token ht user huser
      | loggedOut ht => exact h.revoke _
      | resetSent hu hv => exact (h.revokeAll _ _).createToken (by simp) _
      | passwordReset ht =>
        refine ((h.setUser _ ?_).revoke _).revokeAll _ _
        exact fun _ hc => hc
      | passwordChanged hu => exact h.setUser_revokeAll _ _
      | passwordSet hu => exact h.setUser _ fun _ hc => hc
      | emailChanged hu hn =>
        refine h.change ((AuthDb.Extends.of_tokens (by rfl)).trans (AuthDb.extends_createToken ..)) (fun raw hraw => ?_)
          fun _ hne => AuthDb.getElem?_setUser_of_ne hne
        exact (AuthDb.active_createToken hraw).resolve_right (by simp)
      | sessionRevoked ht => exact h.revoke _
      | deleted hu => exact h.setUser_revokeAll _ _
    · cases hs
      exact h

/-! ## The sessions of a step -/

omit [Unicode] [Bcrypt] in
theorem admitted_concat {db : AuthDb} {issued : List (Option User)} {now : Time} {raw : RawToken} :
    Admitted { now, db, issued := issued ++ [db.userOf raw] } ↔
      Admitted { now, db, issued } ∧ (db.userOf raw).any fun user => !user.isBarred := by
  simp [Admitted, or_imp, forall_and]

omit [Unicode] [Bcrypt] in
/-- A session is given to a user who is not barred iff the user, not deleted, is clear. -/
theorem admitted_issueSession {db : AuthDb} {id : UserId} {user : User} (hu : db.users[id]? = some user) (hd : user.isDeleted = false) :
    Admitted { s with
      db := (issueSession settings s.now db id).db
      issued := s.issued ++ [(issueSession settings s.now db id).db.userOf db.tokens.length] } ↔ s.Admitted ∧ user.isClear := by
  rw [admitted_concat, issueSession, AuthDb.userOf_createToken, hu]
  simp [Admitted, User.isBarred, hd]

/-- A call that is refused gives no session to anybody. -/
theorem keepsClear_of_error {call : AuthCall} {e : HttpError} (h : s.db.call settings s.now call = .error e) :
    s.KeepsClear settings (.call call) := by
  cases call with
  | googleAuth info =>
    simp only [KeepsClear]
    split
    · rename_i email hi
      intro id hid
      simp [AuthDb.call, googleAuth, hi, linkGoogleAccount, Option.mem_def.mp hid, bind, Except.bind, pure, Except.pure] at h
    · trivial
  | refresh raw =>
    cases raw with
    | none => trivial
    | some raw =>
      intro token ht user hu
      simp [AuthDb.call, refreshAccessToken, AuthDb.getActive_eq_none_of_recentlyRevoked ht, Option.mem_def.mp ht,
        Option.mem_def.mp hu] at h
  | _ => trivial

/-- Whom a step gives a session is not barred iff the step keeps clear. -/
theorem admitted_step (h : s.db.Live s.now) (ha : s.Admitted) (hs : s.step settings a = some t) :
    t.Admitted ↔ s.KeepsClear settings a := by
  cases a with
  | tick duration =>
    cases hs
    exact iff_of_true ha trivial
  | suspend id | restore id =>
    simp only [AccessState.step] at hs
    split at hs <;> cases hs <;> exact iff_of_true ha trivial
  | call call =>
    simp only [AccessState.step] at hs
    split at hs
    · rename_i reply hreply
      cases hs
      have hsame : AccessState.Admitted { s with db := reply.db, issued := s.issued ++ [] } := by
        rw [List.append_nil]
        exact ha
      cases AuthDb.call_effect hreply with
      | @loggedIn email password id user hid hu hp hv hsusp =>
        have hclear : user.isClear := by simp [User.isClear, hv, hsusp]
        exact (admitted_issueSession hu (AuthDb.isDeleted_of_userByEmail hid hu)).trans (iff_of_true ⟨ha, hclear⟩ trivial)
      | @googleCreated info email hi hn =>
        refine (admitted_issueSession (List.getElem?_concat_length ..) rfl).trans ?_
        have hnone : s.db.userByEmail (Unicode.lower email) = none :=
          List.findIdx?_eq_none_iff.mpr fun user hu => by simp [hn user hu]
        simp [KeepsClear, hi, hnone, ha, User.isClear]
      | @googleLinked info email id hi hid =>
        have hlt := AuthDb.lt_of_userByEmail hid
        have hrow := List.getElem?_eq_getElem hlt
        have hd := AuthDb.isDeleted_of_userByEmail hid hrow
        have hlinked : (s.db.setUser id fun user => { user with isEmailVerified := true }).users[id]? =
            some { s.db.users[id] with isEmailVerified := true } := by
          simp [AuthDb.setUser, hlt]
        refine (admitted_issueSession hlinked hd).trans ?_
        simp [KeepsClear, hi, hid, hlt, ha, User.isClear]
      | @rotated raw token ht hu =>
        obtain ⟨user, huser⟩ := Option.isSome_iff_exists.mp hu
        obtain ⟨hrow, hd⟩ := AuthDb.userById_eq_some huser
        have hlive := h raw (by rw [AuthDb.Active, ht]; rfl)
        rw [AuthDb.userOf, AuthDb.ownerOf_getActive ht, Option.bind_some, hrow] at hlive
        have hnone : s.db.getRecentlyRevoked raw .refresh s.now = none := by
          by_contra hsome
          obtain ⟨grace, hgrace⟩ := Option.ne_none_iff_exists'.mp hsome
          cases ht.symm.trans (AuthDb.getActive_eq_none_of_recentlyRevoked hgrace)
        have hrow' : (s.db.revoke raw s.now).users[token.userId]? = some user := hrow
        refine (admitted_issueSession hrow' hd).trans ?_
        simp only [KeepsClear, hnone]
        exact iff_of_true ⟨ha, hlive⟩ fun token h => absurd h (by simp)
      | @graced raw token hactive ht hu =>
        obtain ⟨user, huser⟩ := Option.isSome_iff_exists.mp hu
        obtain ⟨hrow, hd⟩ := AuthDb.userById_eq_some huser
        refine (admitted_issueSession hrow hd).trans ?_
        simp [KeepsClear, ht, huser, ha]
      | loggedOutAlready hnone => exact iff_of_true hsame trivial
      | nothingSent email hc => rcases hc with rfl | rfl <;> exact iff_of_true hsame trivial
      | _ => exact iff_of_true hsame trivial
    · rename_i e he
      cases hs
      exact iff_of_true ha (keepsClear_of_error he)

/-- Sessions are never taken back from the record. -/
theorem admitted_of_step (hs : s.step settings a = some t) (ht : t.Admitted) : s.Admitted := by
  have hmono {more : List (Option User)} {now : Time} {db : AuthDb} (h : Admitted { now, db, issued := s.issued ++ more }) : s.Admitted :=
    fun user hu => h user (List.mem_append_left _ hu)
  cases a with
  | tick duration =>
    cases hs
    exact ht
  | suspend id | restore id | call call =>
    simp only [AccessState.step] at hs
    split at hs <;> cases hs
    · first | exact ht | exact hmono ht
    · exact ht

/-- Nobody who is barred is ever given a session iff every step keeps clear. -/
theorem sessions_admitted_iff {labels : List AccessLabel} (h : run (step settings) {} labels = some s) :
    s.Admitted ↔ runIf (step settings) (KeepsClear settings) {} labels = some s :=
  runIf_iff h (P := fun s => s.db.Live s.now) (fun raw ha => absurd ha.lt_length (Nat.not_lt_zero raw)) nofun
    (fun _ _ _ => Live.step) (fun _ _ _ => admitted_step) fun _ _ _ => admitted_of_step

/-! ## A suspension -/

/-- A user signs up with Google and is suspended. -/
def goldSuspended : List AccessLabel :=
  [.call (.googleAuth (.claims (some "client") true (some "gold@example.com"))), .suspend 0]

omit [Unicode] [Bcrypt] in
/-- The token is presented after the grace period, and after the user is restored the
identity signs in. -/
theorem sessions_admitted_iff_goldSuspended :
    let _ := Unicode.ascii
    let _ : Bcrypt := ⟨id⟩
    let settings : AuthSettings := { googleClientId := "client" }
    ∃ labels s, run (step settings) {} (goldSuspended ++ labels) = some s ∧ s.issued.length = 2 ∧
      runIf (step settings) (KeepsClear settings) {} (goldSuspended ++ labels) = some s := by
  intro _ _ settings
  let labels : List AccessLabel := [.tick (seconds 31), .call (.refresh (some 0)), .restore 0,
    .call (.googleAuth (.claims (some "client") true (some "gold@example.com")))]
  have hrun : (run (step settings) {} (goldSuspended ++ labels)).map (fun s => (s.issued.length, decide s.Admitted)) =
      some (2, true) := by decide +kernel
  obtain ⟨s, hs, hr⟩ := Option.map_eq_some_iff.mp hrun
  simp only [Prod.mk.injEq, decide_eq_true_eq] at hr
  exact ⟨labels, s, hs, hr.1, (sessions_admitted_iff hs).mp hr.2⟩

omit [Unicode] [Bcrypt] in
/-- The suspended user signs in again, and the token that the suspension has revoked is
answered with a new one. -/
theorem suspended_givenSessions :
    let _ := Unicode.ascii
    let _ : Bcrypt := ⟨id⟩
    let settings : AuthSettings := { googleClientId := "client" }
    ∃ s, Reach (step settings) always {} s ∧ s.issued.map (fun user => user.map (·.isSuspended)) = [some false, some true, some true] ∧
      ¬ s.Admitted := by
  intro _ _ settings
  have hrun : (run (step settings) {} (goldSuspended ++
      [.call (.googleAuth (.claims (some "client") true (some "gold@example.com"))), .tick (seconds 1), .call (.refresh (some 0))])).map
        (fun s => (s.issued.map (fun user => user.map (·.isSuspended)), decide s.Admitted)) =
          some ([some false, some true, some true], false) := by decide +kernel
  obtain ⟨s, hs, hr⟩ := Option.map_eq_some_iff.mp hrun
  simp only [Prod.mk.injEq, decide_eq_false_iff_not] at hr
  exact ⟨s, .of_run hs, hr⟩

end

end AccessState

end SignalSync
