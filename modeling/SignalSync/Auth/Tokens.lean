import SignalSync.Auth.Effects
import SignalSync.Library.Sessions

/-!
# Tokens in force

* `active_createToken`, `active_revoke`, `active_revokeAll`: what an operation does to
  the tokens in force;
* `Extends`: tokens are added, and none changes hands.
-/

namespace SignalSync

open Library

namespace AuthDb

variable {db : AuthDb} {raw raw' : RawToken} {type : TokenType} {now : Time} {token : Token} {userId : UserId}

/-! ## Active tokens -/

/-- Whose a token is. -/
def ownerOf (db : AuthDb) (raw : RawToken) : Option UserId := (db.tokens[raw]?).map (·.userId)

/-- The token is in force. -/
def Active (db : AuthDb) (now : Time) (type : TokenType) (raw : RawToken) : Prop := (db.getActive raw type now).isSome

instance (db : AuthDb) (now : Time) (type : TokenType) (raw : RawToken) : Decidable (db.Active now type raw) :=
  inferInstanceAs (Decidable (_ = _))

theorem active_iff : db.Active now type raw ↔ ∃ token, db.tokens[raw]? = some token ∧ token.isActive type now := by
  rw [Active, getActive, Option.isSome_filter, Option.any_eq_true]

theorem Active.lt_length (h : db.Active now type raw) : raw < db.tokens.length := by
  obtain ⟨token, ht, -⟩ := active_iff.1 h
  exact (List.getElem?_eq_some_iff.mp ht).1

/-- What expires does not come back. -/
theorem Active.of_le {later : Time} (h : db.Active later type raw) (hl : now ≤ later) : db.Active now type raw := by
  obtain ⟨token, ht, ha⟩ := active_iff.1 h
  refine active_iff.2 ⟨token, ht, ?_⟩
  simp only [Token.isActive, Bool.and_eq_true, decide_eq_true_eq] at ha ⊢
  exact ⟨ha.1, hl.trans_lt ha.2⟩

theorem active_of_tokens {db' : AuthDb} (h : db'.tokens = db.tokens) : db'.Active now type raw ↔ db.Active now type raw := by
  rw [active_iff, active_iff, h]

theorem active_createToken {type' : TokenType} {expiresAt : Time} (h : (db.createToken userId type' expiresAt).Active now type raw) :
    db.Active now type raw ∨ raw = db.tokens.length ∧ type' = type := by
  obtain ⟨token, ht, ha⟩ := active_iff.1 h
  rcases getElem?_concat_cases ht with ⟨rfl, rfl⟩ | ht
  · simp only [Token.isActive, Bool.and_eq_true, decide_eq_true_eq] at ha
    exact .inr ⟨rfl, ha.1.1⟩
  · exact .inl (active_iff.2 ⟨token, ht, ha⟩)

theorem active_revoke (h : (db.revoke raw' now).Active now type raw) : db.Active now type raw ∧ raw ≠ raw' := by
  obtain ⟨token, ht, ha⟩ := active_iff.1 h
  rw [revoke, List.getElem?_modify] at ht
  obtain ⟨old, hold, rfl⟩ := Option.map_eq_some_iff.mp ht
  by_cases he : raw' = raw
  · rw [if_pos he] at ha
    simp [Token.isActive, Token.revoke] at ha
  · rw [if_neg he] at ha
    exact ⟨active_iff.2 ⟨old, hold, ha⟩, Ne.symm he⟩

theorem active_revokeAll {type' : TokenType} (h : (db.revokeAllByUserAndType userId type' now).Active now type raw) :
    db.Active now type raw ∧ (type' = type → db.ownerOf raw ≠ some userId) := by
  obtain ⟨token, ht, ha⟩ := active_iff.1 h
  rw [revokeAllByUserAndType, List.getElem?_map] at ht
  obtain ⟨old, hold, rfl⟩ := Option.map_eq_some_iff.mp ht
  by_cases hr : (old.userId = userId && old.type = type' && !old.isRevoked) = true
  · rw [if_pos hr] at ha
    simp [Token.isActive, Token.revoke] at ha
  · rw [if_neg hr] at ha
    refine ⟨active_iff.2 ⟨old, hold, ha⟩, fun htype howner => hr ?_⟩
    rw [ownerOf, hold] at howner
    simp only [Token.isActive, Bool.and_eq_true, decide_eq_true_eq] at ha
    simp [Option.some.inj howner, htype, ha.1.1, ha.1.2]

/-! ## Owners -/

/-- Tokens are added, and none changes hands. -/
structure Extends (db db' : AuthDb) : Prop where
  length : db.tokens.length ≤ db'.tokens.length
  owner : ∀ raw < db.tokens.length, db'.ownerOf raw = db.ownerOf raw

theorem Extends.of_tokens {db' : AuthDb} (h : db'.tokens = db.tokens) : db.Extends db' :=
  ⟨h ▸ le_rfl, fun _ _ => by rw [ownerOf, ownerOf, h]⟩

theorem Extends.trans {db' db'' : AuthDb} (h : db.Extends db') (h' : db'.Extends db'') : db.Extends db'' :=
  ⟨h.length.trans h'.length, fun raw hr => (h'.owner raw (hr.trans_le h.length)).trans (h.owner raw hr)⟩

theorem extends_createToken (userId : UserId) (type : TokenType) (expiresAt : Time) :
    db.Extends (db.createToken userId type expiresAt) := by
  refine ⟨by simp [createToken], fun raw hr => ?_⟩
  rw [ownerOf, ownerOf, createToken, List.getElem?_append_left hr]

theorem extends_revoke (raw : RawToken) (now : Time) : db.Extends (db.revoke raw now) := by
  refine ⟨by simp [revoke], fun raw' _ => ?_⟩
  rw [ownerOf, ownerOf, revoke, List.getElem?_modify, Option.map_eq_map, Option.map_map]
  refine congrArg (fun f => Option.map f db.tokens[raw']?) (funext fun token => ?_)
  simp only [Function.comp_apply]
  split <;> rfl

theorem extends_revokeAll (userId : UserId) (type : TokenType) (now : Time) :
    db.Extends (db.revokeAllByUserAndType userId type now) := by
  refine ⟨by simp [revokeAllByUserAndType], fun raw' _ => ?_⟩
  rw [ownerOf, ownerOf, revokeAllByUserAndType, List.getElem?_map, Option.map_map]
  refine congrArg (fun f => Option.map f db.tokens[raw']?) (funext fun token => ?_)
  simp only [Function.comp_apply]
  split <;> rfl

theorem lt_length_of_owner (h : db.ownerOf raw ≠ none) : raw < db.tokens.length := by
  by_contra hge
  exact h (by rw [ownerOf, List.getElem?_eq_none (not_lt.mp hge)]; rfl)

theorem ownerOf_ne_none (h : raw < db.tokens.length) : db.ownerOf raw ≠ none := by
  rw [ownerOf, List.getElem?_eq_getElem h]
  nofun

/-! ## Addresses -/

/-- The address of a user. -/
def addressOf (db : AuthDb) (id : UserId) : Option String := (db.users[id]?).map (·.email)

theorem addressOf_setUser {f : User → User} (hf : ∀ user, (f user).email = user.email) (i id : UserId) :
    (db.setUser i f).addressOf id = db.addressOf id := by
  rw [addressOf, addressOf, setUser, List.getElem?_modify, Option.map_eq_map, Option.map_map]
  refine congrArg (fun g => Option.map g db.users[id]?) (funext fun user => ?_)
  simp only [Function.comp_apply]
  split
  · exact hf user
  · rfl

theorem addressOf_setUser_of_ne (f : User → User) {i id : UserId} (h : id ≠ i) : (db.setUser i f).addressOf id = db.addressOf id := by
  simp [addressOf, setUser, Ne.symm h]

theorem addressOf_setUser_self {id : UserId} (h : id < db.users.length) (f : User → User) :
    (db.setUser id f).addressOf id = some (f db.users[id]).email := by
  simp [addressOf, setUser, List.getElem?_eq_getElem h]

theorem addressOf_append (user : User) {id : UserId} (h : id < db.users.length) :
    AuthDb.addressOf { db with users := db.users ++ [user] } id = db.addressOf id := by
  rw [addressOf, addressOf, List.getElem?_append_left h]

theorem addressOf_concat (user : User) :
    AuthDb.addressOf { db with users := db.users ++ [user] } db.users.length = some user.email := by
  rw [addressOf, List.getElem?_concat_length]
  rfl

theorem lt_of_addressOf {id : UserId} {address : String} (h : db.addressOf id = some address) : id < db.users.length := by
  obtain ⟨user, hu, -⟩ := Option.map_eq_some_iff.mp h
  exact (List.getElem?_eq_some_iff.mp hu).1

theorem addressOf_userByEmail [Library.Unicode] {email : String} {id : UserId} (h : db.userByEmail email = some id) :
    db.addressOf id = some (Library.Unicode.lower email) := by
  obtain ⟨hlt, hrow, -⟩ := List.findIdx?_eq_some_iff_getElem.mp h
  rw [addressOf, List.getElem?_eq_getElem hlt]
  simp only [Bool.and_eq_true, decide_eq_true_eq] at hrow
  exact congrArg some hrow.1

theorem mem_setUser {f : User → User} {id : UserId} {user : User} (h : user ∈ (db.setUser id f).users) :
    user ∈ db.users ∨ ∃ old, db.users[id]? = some old ∧ user = f old := by
  obtain ⟨i, hi⟩ := List.mem_iff_getElem?.mp h
  rw [setUser, List.getElem?_modify] at hi
  obtain ⟨old, hold, rfl⟩ := Option.map_eq_some_iff.mp hi
  by_cases he : id = i
  · rw [if_pos he]
    exact .inr ⟨old, he ▸ hold, rfl⟩
  · rw [if_neg he]
    exact .inl (List.mem_iff_getElem?.mpr ⟨i, hold⟩)

theorem lt_of_userByEmail [Library.Unicode] {email : String} {id : UserId} (h : db.userByEmail email = some id) : id < db.users.length :=
  (List.findIdx?_eq_some_iff_getElem.mp h).1

theorem lt_of_getCurrentUser {id : UserId} {user : User} (h : getCurrentUser db id = .ok user) : id < db.users.length := by
  unfold getCurrentUser at h
  split at h
  · cases h
  · rename_i user' hu
    obtain ⟨hu, -⟩ := Option.filter_eq_some_iff.mp hu
    obtain ⟨hu, -⟩ := Option.filter_eq_some_iff.mp hu
    exact (List.getElem?_eq_some_iff.mp hu).1

theorem ownerOf_getActive (h : db.getActive raw type now = some token) : db.ownerOf raw = some token.userId := by
  rw [ownerOf, (Option.filter_eq_some_iff.mp h).1]
  rfl

theorem ownerOf_getRecentlyRevoked (h : db.getRecentlyRevoked raw type now = some token) : db.ownerOf raw = some token.userId := by
  rw [ownerOf, (Option.filter_eq_some_iff.mp h).1]
  rfl

theorem length_setUser (f : User → User) (id : UserId) : (db.setUser id f).users.length = db.users.length :=
  List.length_modify ..

end AuthDb

end SignalSync
