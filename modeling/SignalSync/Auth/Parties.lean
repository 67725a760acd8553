import SignalSync.Auth.Tokens
import SignalSync.Library.Run

/-!
# The parties of an address

Calls of the service are made by parties, and each address belongs to one of them:
it alone reads the mail sent to the address and holds a Google identity for it.
Verifying an address does not look at who has chosen the account's password, so one
chosen before by somebody else comes to life (`registered_by_other`). In runs where
the flag is turned on only over the owner's own password, a password that logs in
is the owner's (`login_password_of_owner`).

* `PartyState.May`: the calls a party can make;
* `Holds.step`: tokens and mail are with the owner of the address;
* `Own.step`: a verified account has a password its owner has chosen.
-/

namespace SignalSync

open Library

/-- A password that a party has registered or set for an address. -/
structure Chosen (Party : Type) where
  party : Party
  address : String
  password : String
deriving DecidableEq

/-- The service's state, with the mail it has sent, the refresh tokens that parties
have been given and the passwords they have chosen. -/
structure PartyState (Party : Type) where
  now : Time := 0
  db : AuthDb := {}
  mails : List Mail := []
  cookies : List (Party × RawToken) := []
  chosen : List (Chosen Party) := []

inductive PartyLabel (Party : Type)
  | call (party : Party) (call : AuthCall)
  | tick (duration : Time)

variable {Party : Type}

namespace PartyState

section

variable [Unicode] [Bcrypt] [DecidableEq Party] (settings : AuthSettings) (owner : String → Party)

/-- The party has a session of the user. -/
def Access (s : PartyState Party) (party : Party) (id : UserId) : Prop :=
  ∃ cookie ∈ s.cookies, cookie.1 = party ∧ s.db.ownerOf cookie.2 = some id

omit [Unicode] [Bcrypt] in
instance (s : PartyState Party) (party : Party) (id : UserId) : Decidable (s.Access party id) :=
  inferInstanceAs (Decidable (∃ cookie ∈ s.cookies, _))

/-- The calls a party can make. Tokens come by mail to the address's owner, Google
identities are the owner's, and the security page needs a session. `change_email`,
which takes an account to another address, is not among them. -/
def May (s : PartyState Party) (party : Party) : AuthCall → Prop
  | .verifyEmail raw | .resetPassword raw _ => ∃ mail ∈ s.mails, mail.token = raw ∧ owner mail.address = party
  | .googleAuth info =>
    match verifyGoogleIdToken settings info with
    | .ok email => owner (Unicode.lower (Unicode.lower email)) = party
    | .error _ => True
  | .refresh (some raw) | .logout (some raw) => (party, raw) ∈ s.cookies
  | .changePassword id .. | .setPassword id .. | .revokeSession id _ | .deleteAccount id _ => s.Access party id
  | .changeEmail .. => False
  | _ => True

omit [Bcrypt] in
instance (s : PartyState Party) (party : Party) (call : AuthCall) : Decidable (s.May settings owner party call) :=
  match call with
  | .verifyEmail raw | .resetPassword raw _ => inferInstanceAs (Decidable (∃ mail ∈ s.mails, mail.token = raw ∧ owner mail.address = party))
  | .googleAuth info =>
    match hinfo : verifyGoogleIdToken settings info with
    | .ok email => decidable_of_iff (owner (Unicode.lower (Unicode.lower email)) = party) (by rw [May, hinfo])
    | .error _ => isTrue (by rw [May, hinfo]; trivial)
  | .refresh (some raw) | .logout (some raw) => inferInstanceAs (Decidable ((party, raw) ∈ s.cookies))
  | .changePassword id .. | .setPassword id .. | .revokeSession id _ | .deleteAccount id _ => inferInstanceAs (Decidable (s.Access party id))
  | .changeEmail .. => isFalse id
  | .register .. | .resendVerification _ | .login .. | .refresh none | .logout none | .forgotPassword _ => isTrue trivial

/-- The password that an answered call gives an address. -/
def chooses (s : PartyState Party) : AuthCall → Option (String × String)
  | .register email password => some (Unicode.lower email, password)
  | .resetPassword raw new => ((s.db.ownerOf raw).bind s.db.addressOf).map fun address => (address, new)
  | .changePassword id _ new | .setPassword id new => (s.db.addressOf id).map fun address => (address, new)
  | _ => none

def step (s : PartyState Party) : PartyLabel Party → Option (PartyState Party)
  | .call party call =>
    if s.May settings owner party call then
      match s.db.call settings s.now call with
      | .ok reply => some
        { s with
          db := reply.db
          mails := s.mails ++ reply.mail.toList
          cookies := s.cookies ++ reply.refreshCookie.toList.map fun raw => (party, raw)
          chosen := s.chosen ++ (s.chooses call).toList.map fun (address, password) => ⟨party, address, password⟩ }
      | .error _ => some s
    else none
  | .tick duration => some { s with now := s.now + duration }

/-- The account has no password, or one that the address's owner has registered or set. -/
def OwnPassword (chosen : List (Chosen Party)) (user : User) : Prop :=
  user.hashedPassword = unusablePasswordHash ∨
    ∃ c ∈ chosen, c.address = user.email ∧ c.party = owner user.email ∧ getPasswordHash c.password = user.hashedPassword

omit [Unicode] in
instance (chosen : List (Chosen Party)) (user : User) : Decidable (OwnPassword owner chosen user) :=
  inferInstanceAs (Decidable (_ ∨ _))

/-- An account is verified only over its owner's own password, and nobody else knows
that password. -/
def Proven (s : PartyState Party) : PartyLabel Party → Prop
  | .call _ (.verifyEmail raw) =>
    s.db.Active s.now .verify_email raw →
      ∀ id ∈ s.db.ownerOf raw, ∀ user ∈ s.db.userById id, user.isEmailVerified = false → OwnPassword owner s.chosen user
  | .call _ (.googleAuth info) =>
    match verifyGoogleIdToken settings info with
    | .ok email =>
      ∀ id ∈ s.db.userByEmail (Unicode.lower email), ∀ user ∈ s.db.users[id]?,
        user.isEmailVerified = false → OwnPassword owner s.chosen user
    | .error _ => True
  | .call party (.login email password) =>
    ∀ id ∈ s.db.userByEmail email, ∀ user ∈ s.db.users[id]?, user.isEmailVerified →
      OwnPassword owner s.chosen user → verifyPassword password user.hashedPassword → party = owner user.email
  | _ => True

instance (s : PartyState Party) (a : PartyLabel Party) : Decidable (s.Proven settings owner a) :=
  match a with
  | .tick _ => isTrue trivial
  | .call _ (.verifyEmail raw) => inferInstanceAs (Decidable (s.db.Active s.now .verify_email raw →
      ∀ id ∈ s.db.ownerOf raw, ∀ user ∈ s.db.userById id, user.isEmailVerified = false → OwnPassword owner s.chosen user))
  | .call _ (.googleAuth info) =>
    match hinfo : verifyGoogleIdToken settings info with
    | .ok email => decidable_of_iff (∀ id ∈ s.db.userByEmail (Unicode.lower email), ∀ user ∈ s.db.users[id]?,
        user.isEmailVerified = false → OwnPassword owner s.chosen user) (by rw [Proven, hinfo])
    | .error _ => isTrue (by rw [Proven, hinfo]; trivial)
  | .call party (.login email password) => inferInstanceAs (Decidable (∀ id ∈ s.db.userByEmail email, ∀ user ∈ s.db.users[id]?,
      user.isEmailVerified → OwnPassword owner s.chosen user → verifyPassword password user.hashedPassword → party = owner user.email))
  | .call _ (.register ..) | .call _ (.resendVerification _) | .call _ (.refresh _) | .call _ (.logout _)
  | .call _ (.forgotPassword _) | .call _ (.resetPassword ..) | .call _ (.changePassword ..) | .call _ (.setPassword ..)
  | .call _ (.changeEmail ..) | .call _ (.revokeSession ..) | .call _ (.deleteAccount ..) => isTrue trivial

variable {settings owner} {s t : PartyState Party} {a : PartyLabel Party} {party : Party} {id : UserId}

/-! ## Tokens and mail -/

/-- A token that was mailed is of the account with that address, and one given to a
party is of an account whose address is the party's. -/
structure Holds (owner : String → Party) (db : AuthDb) (mails : List Mail) (cookies : List (Party × RawToken)) : Prop where
  mail : ∀ mail ∈ mails, ∃ id, db.ownerOf mail.token = some id ∧ db.addressOf id = some mail.address
  cookie : ∀ cookie ∈ cookies, ∃ id address, db.ownerOf cookie.2 = some id ∧ db.addressOf id = some address ∧
    owner address = cookie.1

variable {db db' : AuthDb} {mails : List Mail} {cookies : List (Party × RawToken)}

omit [Unicode] [Bcrypt] [DecidableEq Party] in
theorem Holds.access (h : Holds owner s.db s.mails s.cookies) (ha : s.Access party id) :
    ∃ address, s.db.addressOf id = some address ∧ owner address = party := by
  obtain ⟨cookie, hmem, rfl, howner⟩ := ha
  obtain ⟨id', address, howner', haddress, hparty⟩ := h.cookie cookie hmem
  cases howner.symm.trans howner'
  exact ⟨address, haddress, hparty⟩

omit [Unicode] [Bcrypt] [DecidableEq Party] in
/-- Tokens are added and no address changes. -/
theorem Holds.keep (h : Holds owner db mails cookies) (he : db.Extends db')
    (ha : ∀ id < db.users.length, db'.addressOf id = db.addressOf id) : Holds owner db' mails cookies := by
  have howner {raw : RawToken} {id : UserId} (ho : db.ownerOf raw = some id) : db'.ownerOf raw = some id :=
    (he.owner raw (AuthDb.lt_length_of_owner (by rw [ho]; nofun))).trans ho
  have haddress {id : UserId} {address : String} (had : db.addressOf id = some address) : db'.addressOf id = some address :=
    (ha id (AuthDb.lt_of_addressOf had)).trans had
  refine ⟨fun mail hm => ?_, fun cookie hc => ?_⟩
  · obtain ⟨id, ho, had⟩ := h.mail mail hm
    exact ⟨id, howner ho, haddress had⟩
  · obtain ⟨id, address, ho, had, hp⟩ := h.cookie cookie hc
    exact ⟨id, address, howner ho, haddress had, hp⟩

omit [Unicode] [Bcrypt] [DecidableEq Party] in
/-- A token is created for a user, and mailed to its address or given to its owner. -/
theorem Holds.issue (h : Holds owner db mails cookies) {address : String} (had : db.addressOf id = some address)
    (type : TokenType) (expiresAt : Time) {moreMails : List Mail} (hm : ∀ mail ∈ moreMails, mail = ⟨address, db.tokens.length⟩)
    {moreCookies : List (Party × RawToken)} (hc : ∀ cookie ∈ moreCookies, cookie = (owner address, db.tokens.length)) :
    Holds owner (db.createToken id type expiresAt) (mails ++ moreMails) (cookies ++ moreCookies) := by
  have hkeep : Holds owner (db.createToken id type expiresAt) mails cookies :=
    h.keep (AuthDb.extends_createToken ..) fun _ _ => rfl
  have hnew : (db.createToken id type expiresAt).ownerOf db.tokens.length = some id := by
    rw [AuthDb.ownerOf, AuthDb.createToken, List.getElem?_concat_length]
    rfl
  refine ⟨fun mail hmem => ?_, fun cookie hmem => ?_⟩
  · rcases List.mem_append.mp hmem with hmem | hmem
    · exact hkeep.mail mail hmem
    · cases hm mail hmem
      exact ⟨id, hnew, had⟩
  · rcases List.mem_append.mp hmem with hmem | hmem
    · exact hkeep.cookie cookie hmem
    · cases hc cookie hmem
      exact ⟨id, address, hnew, had, rfl⟩

omit [Unicode] [Bcrypt] [DecidableEq Party] in
theorem Holds.revoke (h : Holds owner db mails cookies) (raw : RawToken) (now : Time) :
    Holds owner (db.revoke raw now) mails cookies :=
  h.keep (AuthDb.extends_revoke ..) fun _ _ => rfl

omit [Unicode] [Bcrypt] [DecidableEq Party] in
theorem Holds.revokeAll (h : Holds owner db mails cookies) (userId : UserId) (type : TokenType) (now : Time) :
    Holds owner (db.revokeAllByUserAndType userId type now) mails cookies :=
  h.keep (AuthDb.extends_revokeAll ..) fun _ _ => rfl

omit [Unicode] [Bcrypt] [DecidableEq Party] in
theorem Holds.setUser (h : Holds owner db mails cookies) (id : UserId) {f : User → User} (hf : ∀ user, (f user).email = user.email) :
    Holds owner (db.setUser id f) mails cookies :=
  h.keep (.of_tokens rfl) fun id' _ => AuthDb.addressOf_setUser hf id id'

omit [Unicode] [Bcrypt] [DecidableEq Party] in
theorem Holds.addUser (h : Holds owner db mails cookies) (user : User) :
    Holds owner { db with users := db.users ++ [user] } mails cookies :=
  h.keep (.of_tokens rfl) fun _ hid => AuthDb.addressOf_append user hid

/-! ## Passwords -/

/-- A verified account has a password that its owner has chosen. -/
def Own (owner : String → Party) (chosen : List (Chosen Party)) (db : AuthDb) : Prop :=
  ∀ user ∈ db.users, user.isEmailVerified → OwnPassword owner chosen user

omit [Unicode] [DecidableEq Party] in
theorem OwnPassword.append {chosen : List (Chosen Party)} {user : User} (h : OwnPassword owner chosen user)
    (more : List (Chosen Party)) : OwnPassword owner (chosen ++ more) user :=
  h.imp_right fun ⟨c, hc, hmatch⟩ => ⟨c, List.mem_append_left _ hc, hmatch⟩

omit [Unicode] [DecidableEq Party] in
/-- What is not about the address or the password does not matter. -/
theorem OwnPassword.congr {chosen : List (Chosen Party)} {user user' : User} (h : OwnPassword owner chosen user)
    (hemail : user'.email = user.email) (hpassword : user'.hashedPassword = user.hashedPassword) :
    OwnPassword owner chosen user' := by
  unfold OwnPassword
  rw [hemail, hpassword]
  exact h

omit [Unicode] [DecidableEq Party] in
theorem OwnPassword.of_chosen {chosen : List (Chosen Party)} {user : User} (password : String)
    (hc : ⟨owner user.email, user.email, password⟩ ∈ chosen) (hp : user.hashedPassword = getPasswordHash password) :
    OwnPassword owner chosen user :=
  .inr ⟨_, hc, rfl, rfl, hp.symm⟩

/-- What the run keeps. -/
structure Owned (owner : String → Party) (s : PartyState Party) : Prop where
  holds : Holds owner s.db s.mails s.cookies
  own : Own owner s.chosen s.db

omit [Unicode] [DecidableEq Party] in
theorem Own.append {chosen : List (Chosen Party)} (h : Own owner chosen db) (more : List (Chosen Party)) :
    Own owner (chosen ++ more) db :=
  fun user hmem hv => (h user hmem hv).append more

omit [Unicode] [DecidableEq Party] in
theorem Own.addUser {chosen : List (Chosen Party)} (h : Own owner chosen db) {user : User}
    (hu : user.isEmailVerified → OwnPassword owner chosen user) : Own owner chosen { db with users := db.users ++ [user] } := by
  intro user' hmem hv
  rcases List.mem_append.mp hmem with hmem | hmem
  · exact h user' hmem hv
  · cases List.mem_singleton.mp hmem
    exact hu hv

omit [Unicode] [DecidableEq Party] in
theorem Own.setUser {chosen : List (Chosen Party)} (h : Own owner chosen db) {f : User → User}
    (hf : ∀ user, db.users[id]? = some user → (f user).isEmailVerified → OwnPassword owner chosen (f user)) :
    Own owner chosen (db.setUser id f) := by
  intro user hmem hv
  rcases AuthDb.mem_setUser hmem with hmem | ⟨old, hold, rfl⟩
  · exact h user hmem hv
  · exact hf old hold hv

/-! ## Every call -/

theorem Owned.step (h : Owned owner s) (hok : Proven settings owner s a) (hs : s.step settings owner a = some t) : Owned owner t := by
  cases a with
  | tick duration =>
    cases hs
    exact ⟨h.holds, h.own⟩
  | call party call =>
    simp only [PartyState.step] at hs
    split_ifs at hs with hmay
    split at hs
    · rename_i reply hreply
      cases hs
      have hholds : Holds owner s.db (s.mails ++ []) (s.cookies ++ []) := by
        simp only [List.append_nil]
        exact h.holds
      have hown := h.own.append ((s.chooses call).toList.map fun chosen => ⟨party, chosen.1, chosen.2⟩)
      have hissue {db' : AuthDb} {id : UserId} {address : String} (hdb : Holds owner db' s.mails s.cookies)
          (had : db'.addressOf id = some address) (hparty : owner address = party) (expiresAt : Time) :
          Holds owner (db'.createToken id .refresh expiresAt) (s.mails ++ []) (s.cookies ++ [(party, db'.tokens.length)]) :=
        hdb.issue had _ _ (by simp) (by simp [hparty])
      have hset {id : UserId} {address new : String} {f : User → User} (had : s.db.addressOf id = some address)
          (hparty : owner address = party) (hc : s.chooses call = some (address, new)) (hf : ∀ user, (f user).email = user.email)
          (hp : ∀ user, (f user).hashedPassword = getPasswordHash new) :
          Own owner (s.chosen ++ (s.chooses call).toList.map fun chosen => ⟨party, chosen.1, chosen.2⟩)
            (s.db.setUser id f) := by
        refine hown.setUser fun user hu _ => .of_chosen new ?_ (hp user)
        have haddress : user.email = address := by simpa [AuthDb.addressOf, hu] using had
        simp [hc, hf, haddress, hparty]
      cases AuthDb.call_effect hreply with
      | verifiedAlready raw => exact ⟨hholds, hown⟩
      | nothingSent email hc => exact ⟨hholds, hown⟩
      | loggedOutAlready ha => exact ⟨hholds, hown⟩
      | registered hn =>
        refine ⟨?_, hown.addUser Bool.noConfusion⟩
        exact (h.holds.addUser _).issue (AuthDb.addressOf_concat _) _ _ (by simp [issueVerification]) (by simp [issueVerification])
      | @verified raw token user ht htype hu hv hr he =>
        have hactive : s.db.Active s.now .verify_email raw :=
          AuthDb.active_iff.2 ⟨token, ht, by simp [Token.isActive, htype, hr, he]⟩
        have howner : s.db.ownerOf raw = some token.userId := by rw [AuthDb.ownerOf, ht]; rfl
        have hpassword := hok hactive token.userId howner user hu hv
        refine ⟨(hholds.setUser _ (by simp)).revoke _ _, hown.setUser fun user' hu' _ => ?_⟩
        cases hu'.symm.trans (Option.filter_eq_some_iff.mp hu).1
        exact (hpassword.append _).congr rfl rfl
      | @resent email id user hu hv =>
        have had : s.db.addressOf id = some user.email := by rw [AuthDb.addressOf, hu]; rfl
        exact ⟨(h.holds.revokeAll _ _ _).issue had _ _ (by simp [issueVerification]) (by simp [issueVerification]), hown⟩
      | @loggedIn email password id user hid hu hp hv =>
        have had : s.db.addressOf id = some user.email := by rw [AuthDb.addressOf, hu]; rfl
        have hparty := hok id hid user hu hv (h.own user (List.mem_of_getElem? hu) hv) hp
        exact ⟨hissue h.holds had hparty.symm _, hown⟩
      | @googleCreated info email hi hn =>
        have hparty : owner (Unicode.lower (Unicode.lower email)) = party := by simpa only [May, hi] using hmay
        exact ⟨hissue (h.holds.addUser _) (AuthDb.addressOf_concat _) hparty _, hown.addUser fun _ => .inl rfl⟩
      | @googleLinked info email id hi hid =>
        have hparty : owner (Unicode.lower (Unicode.lower email)) = party := by simpa only [May, hi] using hmay
        have had := AuthDb.addressOf_userByEmail hid
        refine ⟨hissue (h.holds.setUser _ (by simp)) ?_ hparty _, hown.setUser fun user hu _ => ?_⟩
        · exact (AuthDb.addressOf_setUser (by simp) _ _).trans had
        · have hpassword : OwnPassword owner s.chosen user := by
            by_cases hv : user.isEmailVerified = true
            · exact h.own user (List.mem_of_getElem? hu) hv
            · simp only [Proven, hi] at hok
              exact hok id hid user hu (by simpa using hv)
          exact (hpassword.append _).congr rfl rfl
      | @rotated raw token ht =>
        obtain ⟨id, address, ho, had, hparty⟩ := h.holds.cookie _ hmay
        cases ho.symm.trans (AuthDb.ownerOf_getActive ht)
        exact ⟨hissue (h.holds.revoke _ _) had hparty _, hown⟩
      | @graced raw token ha ht =>
        obtain ⟨id, address, ho, had, hparty⟩ := h.holds.cookie _ hmay
        cases ho.symm.trans (AuthDb.ownerOf_getRecentlyRevoked ht)
        exact ⟨hissue h.holds had hparty _, hown⟩
      | loggedOut ht => exact ⟨hholds.revoke _ _, hown⟩
      | @resetSent email id user hu hv =>
        have had : s.db.addressOf id = some user.email := by rw [AuthDb.addressOf, hu]; rfl
        exact ⟨(h.holds.revokeAll _ _ _).issue had _ _ (by simp [AuthDb.revokeAllByUserAndType]) (List.forall_mem_nil _), hown⟩
      | @passwordReset raw new token ht =>
        obtain ⟨mail, hmem, rfl, hparty⟩ := hmay
        obtain ⟨id, ho, had⟩ := h.holds.mail mail hmem
        cases ho.symm.trans (AuthDb.ownerOf_getActive ht)
        refine ⟨((hholds.setUser _ (by simp)).revoke _ _).revokeAll _ _ _, ?_⟩
        have hnew : s.chooses (.resetPassword mail.token new) = some (mail.address, new) := by simp [chooses, ho, had]
        exact hset had hparty hnew (by simp) (by simp)
      | @passwordChanged id user current new hu =>
        obtain ⟨address, had, hparty⟩ := h.holds.access hmay
        refine ⟨(hholds.setUser _ (by simp)).revokeAll _ _ _, ?_⟩
        have hnew : s.chooses (.changePassword id current new) = some (address, new) := by simp [chooses, had]
        exact hset had hparty hnew (by simp) (by simp)
      | @passwordSet id user new hu =>
        obtain ⟨address, had, hparty⟩ := h.holds.access hmay
        have hnew : s.chooses (.setPassword id new) = some (address, new) := by simp [chooses, had]
        exact ⟨hholds.setUser _ (by simp), hset had hparty hnew (by simp) (by simp)⟩
      | emailChanged hu hn => cases hmay
      | sessionRevoked ht => exact ⟨hholds.revoke _ _, hown⟩
      | deleted hu =>
        refine ⟨(hholds.setUser _ (by simp)).revokeAll _ _ _, hown.setUser fun user hu hv => ?_⟩
        exact ((h.own user (List.mem_of_getElem? hu) hv).append _).congr rfl rfl
    · cases hs
      exact h

/-- In such a run, a password that logs in is one that the owner of the address has
registered or set, as far as bcrypt reads it. -/
theorem login_password_of_owner (h : Reach (PartyState.step settings owner) (Proven settings owner) {} s)
    {email password : String} {reply : AuthReply} (hl : login settings s.now s.db email password = .ok reply) :
    ∃ c ∈ s.chosen, c.address = Unicode.lower email ∧ c.party = owner (Unicode.lower email) ∧
      Bcrypt.significant c.password = Bcrypt.significant password := by
  have howned : Owned owner s := h.invariant ⟨⟨nofun, nofun⟩, nofun⟩ fun _ _ _ ho hok hs => ho.step hok hs
  have heffect : AuthEffect settings s.now s.db (.login email password) reply := login_effect hl
  cases heffect with
  | nothingSent email hc => rcases hc with hc | hc <;> cases hc
  | @loggedIn email password id user hid hu hp hv =>
    have haddress : user.email = Unicode.lower email := by
      simpa [AuthDb.addressOf, hu] using AuthDb.addressOf_userByEmail hid
    have hp : user.hashedPassword.significant = some (Bcrypt.significant password) := by simpa [verifyPassword] using hp
    rcases howned.own user (List.mem_of_getElem? hu) hv with hunusable | ⟨c, hc, hca, hcp, hch⟩
    · rw [hunusable] at hp
      cases hp
    · rw [← hch] at hp
      exact ⟨c, hc, hca.trans haddress, hcp.trans (congrArg owner haddress), Option.some.inj hp⟩

/-! ## Two parties -/

inductive Side
  | owner | other
deriving DecidableEq

/-- Google's claims for the address. -/
def ownIdentity : TokenInfo := .claims (some "client") true (some "gold@example.com")

/-- Whose address it is. -/
def sideOf (address : String) : Side := if address = "gold@example.com" then .owner else .other

/-- Both parties register and verify their addresses, and the other one tries its password on both. -/
def bothRegistered : List (PartyLabel Side) :=
  [ .call .other (.register "silver@example.com" "planted"),
    .call .owner (.register "gold@example.com" "secret"),
    .call .owner (.verifyEmail 1),
    .call .other (.verifyEmail 0),
    .call .other (.login "gold@example.com" "planted"),
    .call .other (.login "silver@example.com" "planted") ]

omit [Unicode] [Bcrypt] in
/-- The owner logs in with its own password. -/
theorem login_password_of_owner_registered :
    let _ := Unicode.ascii
    let _ : Bcrypt := ⟨fun password => password⟩
    let settings : AuthSettings := { googleClientId := "client" }
    ∃ (s : PartyState Side) (reply : AuthReply),
      Reach (step settings sideOf) (Proven settings sideOf) {} s ∧ (∃ c ∈ s.chosen, c.party = .other) ∧
        login settings s.now s.db "gold@example.com" "secret" = .ok reply ∧
        ∃ c ∈ s.chosen, c.address = "gold@example.com" ∧ c.party = .owner ∧ c.password = "secret" := by
  intro _ _ settings
  have hrun : (runIf (step settings sideOf) (Proven settings sideOf) {} bothRegistered).map
      (fun s => ((login settings s.now s.db "gold@example.com" "secret").toOption.isSome, decide (∃ c ∈ s.chosen, c.party = .other))) =
        some (true, true) := by decide +kernel
  obtain ⟨s, hs, hr⟩ := Option.map_eq_some_iff.mp hrun
  simp only [Prod.mk.injEq, decide_eq_true_eq] at hr
  cases hl : login settings s.now s.db "gold@example.com" "secret" with
  | error e => rw [hl] at hr; cases hr.1
  | ok reply =>
    have h := Reach.of_runIf hs
    exact ⟨s, reply, h, hr.2, hl, login_password_of_owner h hl⟩

omit [Unicode] [Bcrypt] in
/-- The other party registers the address, and its owner signs in with Google; the
password of the other party logs in. -/
theorem registered_by_other :
    let _ := Unicode.ascii
    let _ : Bcrypt := ⟨fun password => password⟩
    let settings : AuthSettings := { googleClientId := "client" }
    ∃ (s : PartyState Side) (reply : AuthReply), Reach (step settings fun _ => .owner) always {} s ∧
      login settings s.now s.db "gold@example.com" "planted" = .ok reply ∧ ∀ c ∈ s.chosen, c.party = .other := by
  intro _ _ settings
  have hrun : (run (step settings fun _ => Side.owner) {}
      [.call .other (.register "gold@example.com" "planted"), .call .owner (.googleAuth ownIdentity)]).map
        (fun s => ((login settings s.now s.db "gold@example.com" "planted").toOption.isSome, s.chosen)) =
          some (true, [⟨.other, "gold@example.com", "planted"⟩]) := by decide +kernel
  obtain ⟨s, hs, hr⟩ := Option.map_eq_some_iff.mp hrun
  simp only [Prod.mk.injEq] at hr
  cases hl : login settings s.now s.db "gold@example.com" "planted" with
  | error e => rw [hl] at hr; cases hr.1
  | ok reply =>
    refine ⟨s, reply, .of_run hs, hl, ?_⟩
    rw [hr.2]
    decide

end

end PartyState

end SignalSync
