import SignalSync.Library.Sessions
import SignalSync.Provisioning.Convergence
import SignalSync.Routes.Service

/-!
# The capacity for copy accounts

One user's requests that create, retry and delete a connection, cut at their reads and
commits, where billing is enforced. A creation takes the user's advisory lock and counts
under it; it commits over the row it looked up before. The other requests take no lock,
and write what follows from the row as they read it: a retry can bring back a connection
that has been deleted since.

* `occupied`: the live connections and the one that a creation is about to commit;
* `capacity`: the live connections never exceed the limit, as long as a retry that
  brings one back finds room.
-/

namespace SignalSync

open Library

namespace Provisioning

/-- A request of `create_copy_connection`, the new row's id and its transaction id. -/
structure CreateRequest where
  id : Uuid
  brokerLogin : String
  brokerServer : String
  transactionId : Nat

/-- A request between two of its reads and commits. -/
inductive CapacitySession
  /-- The identity is to be looked up. -/
  | lookUp (r : CreateRequest)
  /-- The lock is to be taken. -/
  | lock (r : CreateRequest) (existing : Option (Uuid × CopyTradingConnection))
  | count (r : CreateRequest) (existing : Option (Uuid × CopyTradingConnection))
  | commit (r : CreateRequest) (existing : Option (Uuid × CopyTradingConnection))
  | retry (id : Uuid) (loaded : CopyTradingConnection)
  | delete (id : Uuid) (loaded : CopyTradingConnection)
  | done

/-- The connection that a creation is about to commit, once its capacity is checked. -/
def CapacitySession.target : CapacitySession → Option Uuid
  | .commit r none => some r.id
  | .commit _ (some (id, _)) => some id
  | _ => none

/-- The row that a creation has looked up. -/
def CapacitySession.existing : CapacitySession → Option (Uuid × CopyTradingConnection)
  | .lock _ existing | .count _ existing | .commit _ existing => existing
  | _ => none

/-- The session has taken the lock. -/
def CapacitySession.underLock : CapacitySession → Bool
  | .count .. | .commit .. => true
  | _ => false

structure CapacityState where
  connections : Connections
  sessions : List CapacitySession := []
  /-- The session that holds the user's advisory lock. -/
  holder : Option Nat := none

inductive CapacityLabel
  | create (r : CreateRequest)
  | retry (id : Uuid)
  | delete (id : Uuid)
  | next (i : Nat)
  /-- A session ends, and what it has not committed is rolled back. -/
  | abort (i : Nat)
  /-- The provisioning side moves a connection; none that is being deleted comes back. -/
  | provisioned (id : Uuid) (state : CopyTradingConnectionState)

/-- The connection counts, as the capacity is counted. -/
def CopyTradingConnection.counts (user : Uuid) (connection : CopyTradingConnection) : Bool :=
  connection.userId = user && !Routes.isDead connection.state

/-- A deleted row that is created again, over what was loaded of it. -/
def CopyTradingConnection.recreate (loaded new stored : CopyTradingConnection) : CopyTradingConnection :=
  { loaded.writeBack new stored with
    brokerLogin := SignalSync.writeBack loaded.brokerLogin new.brokerLogin stored.brokerLogin
    brokerServer := SignalSync.writeBack loaded.brokerServer new.brokerServer stored.brokerServer
    hasPassword := new.hasPassword
    provisioningTransactionId := new.provisioningTransactionId }

namespace CapacityState

section

variable (user : Uuid) (s : CapacityState)

/-- `current_account_count`; the session has the row it looked up as it was then. -/
def currentAccountCount (existing : Option (Uuid × CopyTradingConnection)) : Nat :=
  (s.connections.select fun id row =>
    match existing with
    | some (id', loaded) => (if id = id' then loaded else row).counts user
    | none => row.counts user).length

/-- The user's connections that are neither deleting nor deleted. -/
def live : List Uuid := (s.connections.select fun _ row => row.counts user).map Prod.fst

/-- What the session under the lock is about to commit. -/
def reserved : Option Uuid := s.holder.bind fun i => s.sessions[i]?.bind CapacitySession.target

/-- The live connections and the one about to be. -/
def occupied : Finset Uuid := (s.live user).toFinset ∪ s.reserved.toFinset

def set (i : Nat) (session : CapacitySession) : CapacityState := { s with sessions := s.sessions.set i session }

/-- The end of a session's transaction, which releases the lock. -/
def finish (i : Nat) : CapacityState := { s.set i .done with holder := if s.holder = some i then none else s.holder }

def begin (session : CapacitySession) : CapacityState := { s with sessions := s.sessions ++ [session] }

end

section

variable [Unicode] (user : Uuid) (limit : Nat) (s : CapacityState)

def commitCreate (r : CreateRequest) : Option (Uuid × CopyTradingConnection) → Connections
  | some (id, loaded) =>
    s.connections.modify id (loaded.recreate (submittedConnection r.transactionId user r.brokerLogin (Unicode.strip r.brokerServer)))
  | none =>
    if takenIdentity s.connections user r.brokerLogin (Unicode.strip r.brokerServer) then s.connections
    else s.connections.add r.id (submittedConnection r.transactionId user r.brokerLogin (Unicode.strip r.brokerServer))

/-- The next read or commit of session `i`. -/
def next (i : Nat) : CapacitySession → Option CapacityState
  | .lookUp r =>
    match getCopyConnectionByIdentity s.connections user r.brokerLogin (Unicode.strip r.brokerServer) with
    | some (id, existing) =>
      if existing.state = .deleted then some (s.set i (.lock r (some (id, existing)))) else some (s.finish i)
    | none => some (s.set i (.lock r none))
  | .lock r existing =>
    if s.holder = none then some { s.set i (.count r existing) with holder := some i } else none
  | .count r existing =>
    if limit ≤ s.currentAccountCount user existing then some (s.finish i) else some (s.set i (.commit r existing))
  | .commit r existing => some { s.finish i with connections := s.commitCreate user r existing }
  | .retry id loaded =>
    match ProvisioningState.retry loaded with
    | some new => some { s.finish i with connections := s.connections.modify id (loaded.writeBack new) }
    | none => some (s.finish i)
  | .delete id loaded =>
    if loaded.state = .deleted then some (s.finish i)
    else some { s.finish i with connections := s.connections.modify id (loaded.writeBack { loaded with state := .deleting }) }
  | .done => none

def step : CapacityLabel → Option CapacityState
  | .create r => some (s.begin (.lookUp r))
  | .retry id => ((s.connections.get? id).filter (·.userId = user)).map fun loaded => s.begin (.retry id loaded)
  | .delete id => ((s.connections.get? id).filter (·.userId = user)).map fun loaded => s.begin (.delete id loaded)
  | .next i => s.sessions[i]?.bind (s.next user limit i)
  | .abort i => some (s.finish i)
  | .provisioned id state =>
    match s.connections.get? id with
    | none => none
    | some connection =>
      if Routes.isDead connection.state && !Routes.isDead state then none
      else some { s with connections := s.connections.modify id fun connection => { connection with state } }

end

/-- A retry that brings back a connection finds room for it. -/
def Room (user : Uuid) (limit : Nat) (s : CapacityState) : CapacityLabel → Prop
  | .next i =>
    match s.sessions[i]? with
    | some (.retry id loaded) => loaded.state ≠ .provisioning → Routes.isDead loaded.state = false →
        (∃ row ∈ s.connections.get? id, Routes.isDead row.state) → id ∈ s.occupied user ∨ (s.occupied user).card < limit
    | _ => True
  | _ => True

instance (user : Uuid) (limit : Nat) (s : CapacityState) (l : CapacityLabel) : Decidable (Room user limit s l) := by
  unfold Room
  split
  · split <;> infer_instance
  · infer_instance

/-! ## The occupied connections -/

section

variable {user : Uuid} {limit : Nat} {s t : CapacityState} {i : Nat} {id : Uuid} {session : CapacitySession}

theorem mem_live : id ∈ s.live user ↔ ∃ row, s.connections.get? id = some row ∧ row.counts user := by
  rw [live, List.mem_map]
  constructor
  · rintro ⟨⟨id', row⟩, hmem, rfl⟩
    exact ⟨row, Table.mem_select.1 hmem⟩
  · rintro ⟨row, hrow, hc⟩
    exact ⟨(id, row), Table.mem_select.2 ⟨hrow, hc⟩, rfl⟩

theorem mem_occupied : id ∈ s.occupied user ↔ id ∈ s.live user ∨ s.reserved = some id := by
  simp [occupied]

/-- Connections that are occupied after a step were before. -/
theorem card_occupied_le (s t : CapacityState) (hl : ∀ id ∈ t.live user, id ∈ s.occupied user) (hr : ∀ id, t.reserved = some id → s.reserved = some id) :
    (t.occupied user).card ≤ (s.occupied user).card := by
  refine Finset.card_le_card fun id hid => ?_
  rcases mem_occupied.1 hid with hid | hid
  · exact hl id hid
  · exact mem_occupied.2 (.inr (hr id hid))

theorem length_live (s : CapacityState) : (s.live user).length = (s.live user).toFinset.card :=
  (List.toFinset_card_of_nodup (Table.nodup_select _ _)).symm

theorem reserved_eq_some : s.reserved = some id ↔
    ∃ i session, s.holder = some i ∧ s.sessions[i]? = some session ∧ session.target = some id := by
  simp [reserved, Option.bind_eq_some_iff]

theorem reserved_set (hi : session.target = none) (h : (s.set i session).reserved = some id) : s.reserved = some id := by
  obtain ⟨j, session', hj, hs, ht⟩ := reserved_eq_some.1 h
  rcases getElem?_set_cases hs with ⟨-, rfl⟩ | ⟨-, hs⟩
  · rw [hi] at ht
    cases ht
  · exact reserved_eq_some.2 ⟨j, session', hj, hs, ht⟩

theorem holder_finish {j : Nat} (h : (s.finish i).holder = some j) : s.holder = some j := by
  simp only [finish] at h
  split at h
  · cases h
  · exact h

theorem reserved_finish (h : (s.finish i).reserved = some id) : s.reserved = some id := by
  obtain ⟨j, session', hj, hs, ht⟩ := reserved_eq_some.1 h
  have hdone : CapacitySession.done.target = none := rfl
  exact reserved_set hdone (reserved_eq_some.2 ⟨j, session', holder_finish hj, hs, ht⟩)

theorem reserved_begin (hi : session.target = none) (h : (s.begin session).reserved = some id) : s.reserved = some id := by
  obtain ⟨j, session', hj, hs, ht⟩ := reserved_eq_some.1 h
  rcases getElem?_concat_cases hs with ⟨-, rfl⟩ | hs
  · rw [hi] at ht
    cases ht
  · exact reserved_eq_some.2 ⟨j, session', hj, hs, ht⟩

/-- Only a row that is rewritten can begin to count. -/
theorem live_modify {f : CopyTradingConnection → CopyTradingConnection} {x : Uuid}
    (h : x ∈ live user { t with connections := s.connections.modify id f }) :
    x ∈ s.live user ∨ x = id ∧ ∃ row, s.connections.get? id = some row ∧ row.counts user = false ∧ (f row).counts user := by
  obtain ⟨row, hrow, hc⟩ := mem_live.1 h
  simp only [Table.get?_modify] at hrow
  split at hrow
  · rename_i he
    obtain ⟨stored, hstored, rfl⟩ := Option.map_eq_some_iff.mp hrow
    cases hcs : stored.counts user with
    | true => exact .inl (mem_live.2 ⟨stored, hstored, hcs⟩)
    | false => exact .inr ⟨he, stored, he ▸ hstored, hcs, hc⟩
  · exact .inl (mem_live.2 ⟨row, hrow, hc⟩)

theorem counts_eq_false_of_dead {row : CopyTradingConnection} (h : Routes.isDead row.state) : row.counts user = false := by
  simp [CopyTradingConnection.counts, h]

/-- What is counted and the connection to come are within the limit. -/
theorem card_occupied_count {r : CreateRequest} {existing : Option (Uuid × CopyTradingConnection)}
    (hlive : t.live user = s.live user) (hres : t.reserved = (CapacitySession.commit r existing).target)
    (hdeleted : ∀ id loaded, existing = some (id, loaded) → loaded.state = .deleted)
    (hcount : s.currentAccountCount user existing < limit) : (t.occupied user).card ≤ limit := by
  have hkeys (p : Uuid → CopyTradingConnection → Bool) (target : Uuid) (hc : (s.connections.select p).length < limit)
      (hsub : ∀ x ∈ t.occupied user, x = target ∨ x ∈ (s.connections.select p).map Prod.fst) : (t.occupied user).card ≤ limit := by
    have hcard : ((s.connections.select p).map Prod.fst).toFinset.card = (s.connections.select p).length := by
      rw [List.toFinset_card_of_nodup (Table.nodup_select _ _), List.length_map]
    have hle : (t.occupied user).card ≤ (insert target ((s.connections.select p).map Prod.fst).toFinset).card :=
      Finset.card_le_card fun x hx => by simpa using hsub x hx
    have hinsert := Finset.card_insert_le target ((s.connections.select p).map Prod.fst).toFinset
    omega
  cases existing with
  | none =>
    refine hkeys _ r.id hcount fun x hx => ?_
    rcases mem_occupied.1 hx with hx | hx
    · rw [hlive] at hx
      exact .inr hx
    · rw [hres] at hx
      exact .inl (Option.some.inj hx).symm
  | some e =>
    obtain ⟨id, loaded⟩ := e
    have hdead : loaded.counts user = false := counts_eq_false_of_dead (by simp [Routes.isDead, hdeleted id loaded rfl])
    refine hkeys _ id hcount fun x hx => ?_
    rcases mem_occupied.1 hx with hx | hx
    · by_cases he : x = id
      · exact .inl he
      · obtain ⟨row, hrow, hc⟩ := mem_live.1 (hlive ▸ hx)
        exact .inr (List.mem_map.mpr ⟨(x, row), Table.mem_select.2 ⟨hrow, by simpa [he] using hc⟩, rfl⟩)
    · rw [hres] at hx
      exact .inl (Option.some.inj hx).symm

/-- The occupied connections are within the limit, and the lock is held by the session
that counts. -/
structure Bounded (user : Uuid) (limit : Nat) (s : CapacityState) : Prop where
  card : (s.occupied user).card ≤ limit
  holds : ∀ i session, s.sessions[i]? = some session → session.underLock → s.holder = some i
  deleted : ∀ (i : Nat) session, s.sessions[i]? = some session → ∀ id loaded, session.existing = some (id, loaded) → loaded.state = .deleted

variable {connections : Connections}

/-- A session begins, or goes on without the lock. -/
theorem Bounded.begin (h : Bounded user limit s) (ht : session.target = none) (hu : session.underLock = false)
    (he : session.existing = none) : Bounded user limit (s.begin session) where
  card := (card_occupied_le s (s.begin session) (fun _ hid => mem_occupied.2 (.inl hid)) fun _ => reserved_begin ht).trans h.card
  holds i session' hs hl := by
    rcases getElem?_concat_cases hs with ⟨-, rfl⟩ | hs
    · rw [hu] at hl
      cases hl
    · exact h.holds i session' hs hl
  deleted i session' hs id loaded hl := by
    rcases getElem?_concat_cases hs with ⟨-, rfl⟩ | hs
    · rw [he] at hl
      cases hl
    · exact h.deleted i session' hs id loaded hl

theorem Bounded.finish (h : Bounded user limit s)
    (hl : ∀ id ∈ live user { s.finish i with connections }, id ∈ s.occupied user) :
    Bounded user limit { s.finish i with connections } where
  card := (card_occupied_le s _ hl fun _ hr => reserved_finish hr).trans h.card
  holds j session' hs hu := by
    rcases getElem?_set_cases hs with ⟨-, rfl⟩ | ⟨hne, hs⟩
    · cases hu
    · have hholder := h.holds j session' hs hu
      show (if s.holder = some i then none else s.holder) = some j
      rw [hholder, if_neg fun he => hne (Option.some.inj he)]
  deleted j session' hs id loaded he := by
    rcases getElem?_set_cases hs with ⟨-, rfl⟩ | ⟨-, hs⟩
    · cases he
    · exact h.deleted j session' hs id loaded he

/-- A session goes on, and reserves nothing. -/
theorem Bounded.set (h : Bounded user limit s) {session : CapacitySession} {holder : Option Nat}
    (hold : ∀ j, s.holder = some j → holder = some j) (hu : session.underLock → holder = some i)
    (he : ∀ id loaded, session.existing = some (id, loaded) → loaded.state = .deleted)
    (hres : ∀ id, reserved { s.set i session with holder } = some id → s.reserved = some id) :
    Bounded user limit { s.set i session with holder } where
  card := (card_occupied_le s { s.set i session with holder } (fun _ hid => mem_occupied.2 (.inl hid)) hres).trans h.card
  holds j session₁ hs₁ hu₁ := by
    rcases getElem?_set_cases hs₁ with ⟨rfl, rfl⟩ | ⟨-, hs₁⟩
    · exact hu hu₁
    · exact hold j (h.holds j session₁ hs₁ hu₁)
  deleted j session₁ hs₁ id loaded he₁ := by
    rcases getElem?_set_cases hs₁ with ⟨rfl, rfl⟩ | ⟨-, hs₁⟩
    · exact he id loaded he₁
    · exact h.deleted j session₁ hs₁ id loaded he₁

/-- A retry that brings a connection back takes up room. -/
theorem Bounded.revive (h : Bounded user limit s) (hroom : id ∈ s.occupied user ∨ (s.occupied user).card < limit)
    (hl : ∀ x ∈ live user { s.finish i with connections }, x ∈ s.live user ∨ x = id) :
    Bounded user limit { s.finish i with connections } := by
  have hold : Bounded user limit (s.finish i) := h.finish (i := i) fun _ hid => mem_occupied.2 (.inl hid)
  refine ⟨?_, hold.holds, hold.deleted⟩
  rcases hroom with hmem | hlt
  · refine (card_occupied_le s { s.finish i with connections } (fun x hx => ?_) fun _ hr => reserved_finish hr).trans h.card
    rcases hl x hx with hx | rfl
    · exact mem_occupied.2 (.inl hx)
    · exact hmem
  · have hsub : occupied user { s.finish i with connections } ⊆ insert id (s.occupied user) := fun x hx => by
      rcases mem_occupied.1 hx with hx | hx
      · rcases hl x hx with hx | rfl
        · exact Finset.mem_insert_of_mem (mem_occupied.2 (.inl hx))
        · exact Finset.mem_insert_self _ _
      · exact Finset.mem_insert_of_mem (mem_occupied.2 (.inr (reserved_finish hx)))
    have hcard := Finset.card_le_card hsub
    have hinsert := Finset.card_insert_le id (s.occupied user)
    omega

section

variable [Unicode]

/-- A commit of a creation makes its target count, and no other connection. -/
theorem live_commitCreate {r : CreateRequest} {existing : Option (Uuid × CopyTradingConnection)} {x : Uuid}
    (h : x ∈ live user { t with connections := s.commitCreate user r existing }) :
    x ∈ s.live user ∨ (CapacitySession.commit r existing).target = some x := by
  cases existing with
  | some e =>
    rcases live_modify h with h | ⟨rfl, -⟩
    · exact .inl h
    · exact .inr rfl
  | none =>
    obtain ⟨row, hrow, hc⟩ := mem_live.1 h
    simp only [commitCreate] at hrow
    split at hrow
    · exact .inl (mem_live.2 ⟨row, hrow, hc⟩)
    · rw [Table.get?_add] at hrow
      cases hx : s.connections.get? x with
      | some row' =>
        rw [hx] at hrow
        cases hrow
        exact .inl (mem_live.2 ⟨row, hx, hc⟩)
      | none =>
        rw [hx, Option.none_or] at hrow
        split at hrow <;> cases hrow
        rename_i he
        exact .inr (congrArg some he.symm)

theorem Bounded.next (h : Bounded user limit s) (hs : s.sessions[i]? = some session) (hroom : Room user limit s (.next i))
    (hn : s.next user limit i session = some t) : Bounded user limit t := by
  have hfinish : Bounded user limit (s.finish i) := h.finish fun _ hid => mem_occupied.2 (.inl hid)
  cases session with
  | done => cases hn
  | lookUp r =>
    simp only [CapacityState.next] at hn
    split at hn
    · split at hn <;> cases hn
      · rename_i hdel
        exact h.set (fun _ hj => hj) (by simp [CapacitySession.underLock])
          (fun id loaded he => by cases he; exact hdel) fun _ => reserved_set rfl
      · exact hfinish
    · cases hn
      exact h.set (fun _ hj => hj) (by simp [CapacitySession.underLock]) (by simp [CapacitySession.existing])
        fun _ => reserved_set rfl
  | lock r existing =>
    simp only [CapacityState.next] at hn
    split at hn <;> cases hn
    rename_i hfree
    refine h.set (by simp [hfree]) (fun _ => rfl) (fun id loaded he => h.deleted i _ hs id loaded he) fun id hr => ?_
    -- the new holder has nothing checked yet
    obtain ⟨j, session', hj, hs', ht⟩ := reserved_eq_some.1 hr
    cases hj
    rcases getElem?_set_cases hs' with ⟨-, rfl⟩ | ⟨hne, -⟩
    · cases ht
    · exact absurd rfl hne
  | count r existing =>
    simp only [CapacityState.next] at hn
    split at hn <;> cases hn
    · exact hfinish
    · rename_i hcount
      have hholder := h.holds i _ hs rfl
      have hlt : i < s.sessions.length := (List.getElem?_eq_some_iff.mp hs).1
      have hres : (s.set i (.commit r existing)).reserved = (CapacitySession.commit r existing).target := by
        show (s.holder.bind fun j => (s.sessions.set i (.commit r existing))[j]?.bind CapacitySession.target) = _
        rw [hholder, Option.bind_some, List.getElem?_set_self hlt]
        rfl
      refine ⟨card_occupied_count rfl hres (h.deleted i _ hs) (Nat.lt_of_not_le hcount), fun j session₁ hs₁ hu₁ => ?_,
        fun j session₁ hs₁ id loaded he₁ => ?_⟩
      · rcases getElem?_set_cases hs₁ with ⟨rfl, -⟩ | ⟨-, hs₁⟩
        · exact hholder
        · exact h.holds j session₁ hs₁ hu₁
      · rcases getElem?_set_cases hs₁ with ⟨rfl, rfl⟩ | ⟨-, hs₁⟩
        · exact h.deleted _ _ hs id loaded he₁
        · exact h.deleted j session₁ hs₁ id loaded he₁
  | commit r existing =>
    cases hn
    refine h.finish fun x hx => ?_
    rcases live_commitCreate hx with hx | hx
    · exact mem_occupied.2 (.inl hx)
    · exact mem_occupied.2 (.inr (reserved_eq_some.2 ⟨i, _, h.holds i _ hs rfl, hs, hx⟩))
  | retry id loaded =>
    simp only [CapacityState.next] at hn
    cases hr : ProvisioningState.retry loaded with
    | none =>
      rw [hr] at hn
      cases hn
      exact hfinish
    | some new =>
      rw [hr] at hn
      cases hn
      simp only [ProvisioningState.retry] at hr
      split at hr <;> cases hr
      rename_i halive
      have hloaded : Routes.isDead loaded.state = false := by simpa [Routes.isDead] using halive
      by_cases hsame : loaded.state = .provisioning
      · -- the state is not written
        refine h.finish fun x hx => ?_
        rcases live_modify hx with hx | ⟨-, row, -, hc, hc'⟩
        · exact mem_occupied.2 (.inl hx)
        · simp [CopyTradingConnection.writeBack, SignalSync.writeBack, CopyTradingConnection.counts, hsame] at hc hc'
          simp [hc'] at hc
      · by_cases hdead : ∃ row ∈ s.connections.get? id, Routes.isDead row.state
        · simp only [Room, hs] at hroom
          exact h.revive (hroom hsame hloaded hdead) fun x hx => (live_modify hx).imp_right (·.1)
        · refine h.finish fun x hx => ?_
          rcases live_modify hx with hx | ⟨-, row, hrow, hc, hc'⟩
          · exact mem_occupied.2 (.inl hx)
          · have halive : Routes.isDead row.state = false := by
              by_contra hd
              exact hdead ⟨row, hrow, by simpa using hd⟩
            have huser : row.userId = user := by
              simp only [CopyTradingConnection.counts, CopyTradingConnection.writeBack, Bool.and_eq_true] at hc'
              exact of_decide_eq_true hc'.1
            simp [CopyTradingConnection.counts, halive, huser] at hc
  | delete id loaded =>
    simp only [CapacityState.next] at hn
    split at hn <;> cases hn
    · exact hfinish
    · refine h.finish fun x hx => ?_
      rcases live_modify hx with hx | ⟨-, row, -, hc, hc'⟩
      · exact mem_occupied.2 (.inl hx)
      · simp only [CopyTradingConnection.counts, CopyTradingConnection.writeBack, SignalSync.writeBack] at hc hc'
        split at hc'
        · rw [hc] at hc'
          cases hc'
        · simp [Routes.isDead] at hc'

theorem Bounded.step {l : CapacityLabel} (h : Bounded user limit s) (hroom : Room user limit s l)
    (hs : s.step user limit l = some t) : Bounded user limit t := by
  cases l with
  | create r =>
    cases hs
    exact h.begin rfl rfl rfl
  | retry id | delete id =>
    obtain ⟨loaded, -, rfl⟩ := Option.map_eq_some_iff.mp hs
    exact h.begin rfl rfl rfl
  | next i =>
    obtain ⟨session, hsession, hn⟩ := Option.bind_eq_some_iff.mp hs
    exact h.next hsession hroom hn
  | abort i =>
    cases hs
    exact h.finish fun _ hid => mem_occupied.2 (.inl hid)
  | provisioned id state =>
    simp only [CapacityState.step] at hs
    split at hs
    · cases hs
    · rename_i connection hrow
      split at hs <;> cases hs
      rename_i hdead
      refine ⟨.trans (card_occupied_le s _ ?_ fun _ hr => hr) h.card, h.holds, h.deleted⟩
      intro x hx
      rcases live_modify hx with hx | ⟨-, row, hrow', hc, hc'⟩
      · exact mem_occupied.2 (.inl hx)
      · cases hrow.symm.trans hrow'
        simp only [CopyTradingConnection.counts, Bool.and_eq_true, Bool.not_eq_eq_eq_not, Bool.not_true] at hc'
        simp [CopyTradingConnection.counts, hc'.1] at hc
        simp [hc, hc'.2] at hdead

/-- The user's live connections never exceed the limit. -/
theorem capacity {connections : Connections} (hstart : (live user { connections }).length ≤ limit)
    (h : Reach (CapacityState.step user limit) (Room user limit) { connections } s) : (s.live user).length ≤ limit := by
  have hinitial : Bounded user limit { connections } := by
    refine ⟨?_, by simp, by simp⟩
    rw [length_live] at hstart
    simpa [occupied, reserved] using hstart
  have hbounded : Bounded user limit s := h.invariant hinitial fun _ _ _ h hroom hs => h.step hroom hs
  rw [length_live]
  exact (Finset.card_le_card fun x hx => mem_occupied.2 (.inl (List.mem_toFinset.mp hx))).trans hbounded.card

end

end

/-! ## One account of two -/

def goldReady : Connections :=
  .add ∅ 1 { submittedConnection 0 1 "1001" "Gold-Live" with state := .ready, metaapiAccountId := some "gold" }

def goldSecond : CreateRequest := ⟨2, "1002", "Gold-Live", 1⟩

/-- The first connection is deleted, a second one takes its place. -/
def goldReplaced : List CapacityLabel :=
  [.delete 1, .next 0, .create goldSecond, .next 1, .next 1, .next 1, .next 1, .retry 2, .next 2]

theorem capacity_goldReplaced :
    let _ := Unicode.ascii
    ∃ s, Reach (CapacityState.step 1 1) (Room 1 1) { connections := goldReady } s ∧ s.live 1 = [2] ∧ (s.live 1).length ≤ 1 := by
  intro _
  have hrun : (runIf (CapacityState.step 1 1) (Room 1 1) { connections := goldReady } goldReplaced).map (live 1) = some [2] := by
    decide +kernel
  obtain ⟨s, hs, hl⟩ := Option.map_eq_some_iff.mp hrun
  exact ⟨s, .of_runIf hs, hl, capacity (by decide +kernel) (.of_runIf hs)⟩

/-- A retry that has read the first connection before its deletion commits after the
second one has been created. -/
theorem lateRetry_exceeds :
    let _ := Unicode.ascii
    ∃ s, (live 1 { connections := goldReady }).length ≤ 1 ∧
      Reach (CapacityState.step 1 1) always { connections := goldReady } s ∧ s.live 1 = [1, 2] := by
  intro _
  have hrun : (run (CapacityState.step 1 1) { connections := goldReady }
      [.retry 1, .delete 1, .next 1, .create goldSecond, .next 2, .next 2, .next 2, .next 2, .next 0]).map (live 1) = some [1, 2] := by
    decide +kernel
  obtain ⟨s, hs, hl⟩ := Option.map_eq_some_iff.mp hrun
  exact ⟨s, by decide +kernel, .of_run hs, hl⟩

end CapacityState

end Provisioning

end SignalSync
