import SignalSync.Provisioning.Capacity

/-!
# Re-creations of one connection

Requests of one user that create the connection of one login and server again, after it has
been deleted, cut at their reads and commits. A request reads the row before it takes the
lock, if it takes one, and commits over it what it has read long before.

* `Recreated.step`: a re-creation over a row that is still deleted is the first;
* `one_winner`: where all re-creations are, there is one winner and the row is the winner's.
-/

namespace SignalSync

open Library

namespace Provisioning

/-- A request, with the password it has encrypted. -/
structure RecreationRequest extends CreateRequest where
  encryptedTraderPassword : String

inductive CreateAnswer
  | created
  /-- 409, `copy_account_already_connected`. -/
  | conflict
  /-- The subscription has no room. -/
  | capacity
deriving DecidableEq

/-- A request between two of its reads and commits, with the row it has looked up. -/
inductive RecreationSession
  | lookUp (r : RecreationRequest)
  | lock (r : RecreationRequest) (existing : Option (Uuid × CopyTradingConnection))
  | count (r : RecreationRequest) (existing : Option (Uuid × CopyTradingConnection))
  | commit (r : RecreationRequest) (existing : Option (Uuid × CopyTradingConnection))
  | answered (r : RecreationRequest) (answer : CreateAnswer)
  | aborted

def RecreationSession.existing : RecreationSession → Option (Uuid × CopyTradingConnection)
  | .lock _ existing | .count _ existing | .commit _ existing => existing
  | _ => none

structure RecreationState where
  connections : Connections
  /-- `encrypted_trader_password`. -/
  passwords : Uuid → Option String
  sessions : List RecreationSession := []
  /-- The session that holds the user's advisory lock. -/
  holder : Option Nat := none

inductive RecreationLabel
  | create (r : RecreationRequest)
  | next (i : Nat)
  | abort (i : Nat)

/-- What the requests have in common: their user, and the login and the folded server name
that they look up. -/
structure Identity where
  user : Uuid
  login : String
  server : String

section

variable [Unicode]

/-- The row is the identity's. -/
def Identity.Names (who : Identity) (row : CopyTradingConnection) : Prop :=
  row.userId = who.user ∧ row.brokerLogin = who.login ∧ Unicode.lower row.brokerServer = who.server

def Identity.Asks (who : Identity) (r : RecreationRequest) : Prop :=
  r.brokerLogin = who.login ∧ Unicode.casefold (Unicode.strip r.brokerServer) = who.server

instance (who : Identity) (r : RecreationRequest) : Decidable (who.Asks r) := inferInstanceAs (Decidable (_ ∧ _))

end

namespace RecreationState

section

variable (s : RecreationState)

def set (i : Nat) (session : RecreationSession) : RecreationState := { s with sessions := s.sessions.set i session }

/-- The end of a session's transaction, which releases the lock. -/
def finish (i : Nat) (session : RecreationSession) : RecreationState :=
  { s.set i session with holder := if s.holder = some i then none else s.holder }

/-- Without billing there is no lock and nothing is counted. -/
def afterLookUp (enforced : Bool) (r : RecreationRequest) (existing : Option (Uuid × CopyTradingConnection)) : RecreationSession :=
  if enforced then .lock r existing else .commit r existing

end

section

variable [Unicode] (enforced : Bool) (limit : Nat) (who : Identity) (s : RecreationState)

/-- The row as the request submits it. -/
def submitted (r : RecreationRequest) : CopyTradingConnection :=
  submittedConnection r.transactionId who.user r.brokerLogin (Unicode.strip r.brokerServer)

def taken (r : RecreationRequest) : Bool := takenIdentity s.connections who.user r.brokerLogin (Unicode.strip r.brokerServer)

/-- The next read or commit of session `i`. -/
def next (i : Nat) : RecreationSession → Option RecreationState
  | .lookUp r =>
    match getCopyConnectionByIdentity s.connections who.user r.brokerLogin (Unicode.strip r.brokerServer) with
    | some (id, existing) =>
      if existing.state = .deleted then some (s.set i (afterLookUp enforced r (some (id, existing))))
      else some (s.finish i (.answered r .conflict))
    | none => some (s.set i (afterLookUp enforced r none))
  | .lock r existing => if s.holder = none then some { s.set i (.count r existing) with holder := some i } else none
  | .count r existing =>
    if limit ≤ CapacityState.currentAccountCount who.user { connections := s.connections } existing then
      some (s.finish i (.answered r .capacity))
    else some (s.set i (.commit r existing))
  | .commit r (some (id, loaded)) =>
    some { s.finish i (.answered r .created) with
      connections := s.connections.modify id (loaded.recreate (submitted who r))
      passwords := Function.update s.passwords id (some r.encryptedTraderPassword) }
  | .commit r none =>
    if s.taken who r then some (s.finish i (.answered r .conflict))
    else some { s.finish i (.answered r .created) with
      connections := s.connections.add r.id (submitted who r)
      passwords := Function.update s.passwords r.id (some r.encryptedTraderPassword) }
  | .answered .. | .aborted => none

def step : RecreationLabel → Option RecreationState
  | .create r =>
    if who.Asks r then some { s with sessions := s.sessions ++ [.lookUp r] } else none
  | .next i => s.sessions[i]?.bind (s.next enforced limit who i)
  | .abort i =>
    match s.sessions[i]? with
    | none | some (.answered ..) => none
    | some _ => some (s.finish i .aborted)

/-- A re-creation finds the row still deleted, and a request that no longer finds the row
finds its server name taken. -/
def InTime : RecreationLabel → Prop
  | .next i =>
    match s.sessions[i]? with
    | some (.commit _ (some (id, _))) => ∃ row ∈ s.connections.get? id, row.state = .deleted
    | some (.commit r none) => s.taken who r
    | _ => True
  | _ => True

instance (l : RecreationLabel) : Decidable (s.InTime who l) := by
  unfold InTime
  split
  · split <;> infer_instance
  · infer_instance

end

/-- At most one request has succeeded, and the row has its password and transaction id. -/
structure OneWinner (s : RecreationState) (id : Uuid) : Prop where
  unique : ∀ (i j : Nat) r r', s.sessions[i]? = some (.answered r .created) → s.sessions[j]? = some (.answered r' .created) → i = j
  kept : ∀ (i : Nat) r, s.sessions[i]? = some (.answered r .created) → s.passwords id = some r.encryptedTraderPassword ∧
    ∃ row, s.connections.get? id = some row ∧ row.provisioningTransactionId = r.transactionId

section

variable [Unicode] {enforced : Bool} {limit : Nat} {who : Identity} {s t : RecreationState} {id : Uuid} {i : Nat}

/-- The row is the only one that the requests look up, what they have read of it was
deleted, and a request that has succeeded has left the row as it is. -/
structure Recreated (who : Identity) (id : Uuid) (s : RecreationState) : Prop where
  row : ∃ row, s.connections.get? id = some row
  others : ∀ id' row, s.connections.get? id' = some row → who.Names row → id' = id
  requests : ∀ (j : Nat) r, s.sessions[j]? = some (.lookUp r) → who.Asks r
  read : ∀ (j : Nat) session, s.sessions[j]? = some session → ∀ id' loaded, session.existing = some (id', loaded) →
    id' = id ∧ loaded.state = .deleted
  winner : ∀ (j : Nat) r, s.sessions[j]? = some (.answered r .created) → s.passwords id = some r.encryptedTraderPassword ∧
    (∀ row, s.connections.get? id = some row → row.state ≠ .deleted ∧ row.provisioningTransactionId = r.transactionId) ∧
    ∀ (k : Nat) r', s.sessions[k]? = some (.answered r' .created) → k = j

/-- A session goes on without a commit. -/
theorem Recreated.set (h : s.Recreated who id) {session : RecreationSession} (holder : Option Nat) (hl : ∀ r, session ≠ .lookUp r)
    (hread : ∀ id' loaded, session.existing = some (id', loaded) → id' = id ∧ loaded.state = .deleted)
    (hn : ∀ r, session ≠ .answered r .created) : Recreated who id { s.set i session with holder } where
  row := h.row
  others := h.others
  requests j r hj := by
    rcases getElem?_set_cases hj with ⟨-, rfl⟩ | ⟨-, hj⟩
    · exact absurd rfl (hl r)
    · exact h.requests j r hj
  read j session' hj id' loaded he := by
    rcases getElem?_set_cases hj with ⟨-, rfl⟩ | ⟨-, hj⟩
    · exact hread id' loaded he
    · exact h.read j session' hj id' loaded he
  winner j r hj := by
    rcases getElem?_set_cases hj with ⟨-, rfl⟩ | ⟨-, hj⟩
    · exact absurd rfl (hn r)
    · obtain ⟨hpassword, hrow, hunique⟩ := h.winner j r hj
      refine ⟨hpassword, hrow, fun k r' hk => ?_⟩
      rcases getElem?_set_cases hk with ⟨-, rfl⟩ | ⟨-, hk⟩
      · exact absurd rfl (hn r')
      · exact hunique k r' hk

theorem Recreated.begin (h : s.Recreated who id) {r : RecreationRequest} (hr : who.Asks r) :
    Recreated who id { s with sessions := s.sessions ++ [.lookUp r] } where
  row := h.row
  others := h.others
  requests j r' hj := by
    rcases getElem?_concat_cases hj with ⟨-, he⟩ | hj
    · cases he
      exact hr
    · exact h.requests j r' hj
  read j session hj id' loaded he := by
    rcases getElem?_concat_cases hj with ⟨-, rfl⟩ | hj
    · cases he
    · exact h.read j session hj id' loaded he
  winner j r' hj := by
    rcases getElem?_concat_cases hj with ⟨-, he⟩ | hj
    · cases he
    · obtain ⟨hpassword, hrow, hunique⟩ := h.winner j r' hj
      refine ⟨hpassword, hrow, fun k r'' hk => ?_⟩
      rcases getElem?_concat_cases hk with ⟨-, he⟩ | hk
      · cases he
      · exact hunique k r'' hk

/-- A request that looks the identity up finds the row. -/
theorem Recreated.lookUp (h : s.Recreated who id) {r : RecreationRequest} (hr : who.Asks r) {id' : Uuid} {existing : CopyTradingConnection}
    (hfound : getCopyConnectionByIdentity s.connections who.user r.brokerLogin (Unicode.strip r.brokerServer) = some (id', existing)) :
    id' = id := by
  have hmatch := List.find?_some hfound
  simp only [Bool.and_eq_true, decide_eq_true_eq] at hmatch
  obtain ⟨⟨huser, hlogin⟩, hserver⟩ := hmatch
  exact h.others id' existing (Table.get?_eq_some.2 (List.mem_of_find?_eq_some hfound))
    ⟨huser, hlogin.trans hr.1, hserver.trans hr.2⟩

/-- While the row is deleted, no request has succeeded. -/
theorem Recreated.no_winner (h : s.Recreated who id) (hdeleted : ∃ row ∈ s.connections.get? id, row.state = .deleted) (j : Nat)
    (r : RecreationRequest) : s.sessions[j]? ≠ some (.answered r .created) := by
  obtain ⟨row, hrow, hstate⟩ := hdeleted
  intro hj
  exact ((h.winner j r hj).2.1 row hrow).1 hstate

/-- A commit over a row that is still deleted. -/
theorem Recreated.commit (h : s.Recreated who id) (r : RecreationRequest) {loaded : CopyTradingConnection}
    (hloaded : loaded.state = .deleted) (hdeleted : ∃ row ∈ s.connections.get? id, row.state = .deleted) :
    Recreated who id { s.finish i (.answered r .created) with
      connections := s.connections.modify id (loaded.recreate (submitted who r))
      passwords := Function.update s.passwords id (some r.encryptedTraderPassword) } := by
  have hfirst {k : Nat} {r' : RecreationRequest} (hk : (s.set i (.answered r .created)).sessions[k]? = some (.answered r' .created)) :
      k = i ∧ r' = r := by
    rcases getElem?_set_cases hk with ⟨hki, he⟩ | ⟨-, hk⟩
    · cases he
      exact ⟨hki, rfl⟩
    · exact absurd hk (h.no_winner hdeleted k r')
  obtain ⟨stored, hstored⟩ := h.row
  have hget := get?_modify_connection (f := loaded.recreate (submitted who r)) hstored
  refine ⟨⟨_, (hget id).trans (if_pos rfl)⟩, fun id' row hrow hnames => ?_, fun j r' hj => ?_, fun j session hj id' loaded' he => ?_,
    fun j r' hj => ?_⟩
  · by_cases he : id' = id
    · exact he
    · exact h.others id' row (((hget id').trans (if_neg he)).symm.trans hrow) hnames
  · rcases getElem?_set_cases hj with ⟨-, he⟩ | ⟨-, hj⟩
    · cases he
    · exact h.requests j r' hj
  · rcases getElem?_set_cases hj with ⟨-, rfl⟩ | ⟨-, hj⟩
    · cases he
    · exact h.read j session hj id' loaded' he
  · obtain ⟨hji, hr⟩ := hfirst hj
    subst hr
    refine ⟨Function.update_self .., fun row hrow => ?_, fun k r'' hk => (hfirst hk).1.trans hji.symm⟩
    cases ((hget id).trans (if_pos rfl)).symm.trans hrow
    constructor
    · show writeBack loaded.state .submitted stored.state ≠ .deleted
      rw [hloaded, writeBack, if_neg (by decide)]
      decide
    · rfl

theorem Recreated.step (h : s.Recreated who id) {l : RecreationLabel} (hok : s.InTime who l)
    (hs : s.step enforced limit who l = some t) : t.Recreated who id := by
  cases l with
  | create r =>
    simp only [RecreationState.step] at hs
    split at hs <;> cases hs
    rename_i hr
    exact h.begin hr
  | abort j =>
    simp only [RecreationState.step] at hs
    split at hs <;> cases hs
    exact h.set _ (by simp) (fun _ _ he => by cases he) (by simp)
  | next j =>
    obtain ⟨session, hj, hs⟩ := Option.bind_eq_some_iff.mp hs
    have hread := h.read j session hj
    cases session with
    | lookUp r =>
      have hafter (existing : Option (Uuid × CopyTradingConnection)) (he : ∀ id' loaded, existing = some (id', loaded) →
          id' = id ∧ loaded.state = .deleted) : Recreated who id (s.set j (afterLookUp enforced r existing)) := by
        unfold afterLookUp
        split
        · exact h.set _ (by simp) he (by simp)
        · exact h.set _ (by simp) he (by simp)
      simp only [next] at hs
      split at hs
      · rename_i id' existing hfound
        split at hs <;> cases hs
        · rename_i hdeleted
          refine hafter _ fun id'' loaded he => ?_
          cases he
          exact ⟨h.lookUp (h.requests j r hj) hfound, hdeleted⟩
        · exact h.set _ (by simp) (fun _ _ he => by cases he) (by simp)
      · cases hs
        exact hafter none fun _ _ he => by cases he
    | lock r existing =>
      simp only [next] at hs
      split at hs <;> cases hs
      exact h.set _ (by simp) hread (by simp)
    | count r existing =>
      simp only [next] at hs
      split at hs <;> cases hs
      · exact h.set _ (by simp) (fun _ _ he => by cases he) (by simp)
      · exact h.set _ (by simp) hread (by simp)
    | commit r existing =>
      simp only [InTime, hj] at hok
      cases existing with
      | some e =>
        obtain ⟨id', loaded⟩ := e
        obtain ⟨rfl, hloaded⟩ := hread id' loaded rfl
        cases hs
        exact h.commit r hloaded hok
      | none =>
        simp only [next, if_pos hok] at hs
        cases hs
        exact h.set _ (by simp) (fun _ _ he => by cases he) (by simp)
    | answered | aborted => cases hs

/-- Where every re-creation is over a row that is still deleted, one request succeeds, and the
row is the winner's. -/
theorem one_winner (enforced : Bool) (limit : Nat) (who : Identity) {connections : Connections} {passwords : Uuid → Option String}
    {id : Uuid} (hid : ∃ row, connections.get? id = some row)
    (hone : ∀ id' row, connections.get? id' = some row → who.Names row → id' = id)
    (h : Reach (RecreationState.step enforced limit who) (InTime who) { connections, passwords } s) : s.OneWinner id := by
  have hinv : s.Recreated who id := h.invariant ⟨hid, hone, by simp, by simp, by simp⟩ fun _ _ _ hinv hok hs => hinv.step hok hs
  refine ⟨fun i j r r' hi hj => (hinv.winner j r' hj).2.2 i r hi, fun i r hi => ?_⟩
  obtain ⟨hpassword, hrow, -⟩ := hinv.winner i r hi
  obtain ⟨row, hstored⟩ := hinv.row
  exact ⟨hpassword, row, hstored, (hrow row hstored).2⟩

end

/-! ## Two requests for a deleted connection -/

def goldDeleted : Connections :=
  .add ∅ 1 { submittedConnection 0 1 "1001" "Gold-Live" with state := .deleted, hasPassword := false }

def goldIdentity : Identity := ⟨1, "1001", "gold-live"⟩

def goldRequest (n : Nat) (password : String) : RecreationRequest where
  id := .given (n + 1)
  brokerLogin := "1001"
  brokerServer := "Gold-Live "
  transactionId := n
  encryptedTraderPassword := password

/-- The answers of the requests. -/
def answers (s : RecreationState) : List (Option CreateAnswer) := s.sessions.map fun
  | .answered _ answer => some answer
  | _ => none

theorem answered_of_answers {s : RecreationState} {i : Nat} {answer : CreateAnswer} (h : s.answers[i]? = some (some answer)) :
    ∃ r, s.sessions[i]? = some (.answered r answer) := by
  rw [answers, List.getElem?_map, Option.map_eq_some_iff] at h
  obtain ⟨session, hsession, he⟩ := h
  cases session with
  | answered r answer' =>
    cases he
    exact ⟨r, hsession⟩
  | _ => cases he

theorem goldDeleted_only {id : Uuid} {row : CopyTradingConnection} (h : goldDeleted.get? id = some row) : id = 1 := by
  by_contra hne
  rw [goldDeleted, Table.get?_add, if_neg hne] at h
  cases h

/-- `one_winner`, where the second request looks the row up after the first has committed. -/
theorem one_winner_inTurn :
    let _ := Unicode.ascii
    ∃ s, Reach (RecreationState.step true 1 goldIdentity) (InTime goldIdentity) { connections := goldDeleted, passwords := fun _ => none } s ∧
      s.answers = [some .created, some .conflict] ∧ s.OneWinner 1 := by
  intro _
  have hrun : (runIf (RecreationState.step true 1 goldIdentity) (InTime goldIdentity)
      { connections := goldDeleted, passwords := fun _ => none }
      [.create (goldRequest 1 "a"), .next 0, .next 0, .next 0, .next 0, .create (goldRequest 2 "b"), .next 1]).map answers =
        some [some .created, some .conflict] := by decide +kernel
  obtain ⟨s, hs, ha⟩ := Option.map_eq_some_iff.mp hrun
  refine ⟨s, .of_runIf hs, ha, one_winner true 1 goldIdentity ⟨_, rfl⟩ (fun _ _ hrow _ => goldDeleted_only hrow) (.of_runIf hs)⟩

/-- Both requests read the deleted row; both succeed, and the row has the second password. -/
theorem two_winners :
    ¬ ∀ (_ : Unicode) enforced limit who connections passwords id s,
      (∃ row : CopyTradingConnection, Table.get? connections id = some row ∧ row.state = .deleted) →
      (∀ id' row, Table.get? connections id' = some row → who.Names row → id' = id) →
      Reach (RecreationState.step enforced limit who) always { connections, passwords } s → s.OneWinner id := by
  intro h
  let _ := Unicode.ascii
  have hrun : (run (RecreationState.step true 1 goldIdentity) { connections := goldDeleted, passwords := fun _ => none }
      [.create (goldRequest 1 "a"), .create (goldRequest 2 "b"), .next 0, .next 1, .next 0, .next 0, .next 0, .next 1, .next 1,
        .next 1]).map answers = some [some .created, some .created] := by decide +kernel
  obtain ⟨s, hs, ha⟩ := Option.map_eq_some_iff.mp hrun
  have hwinner := h _ true 1 goldIdentity goldDeleted (fun _ => none) 1 s ⟨_, rfl, rfl⟩ (fun _ _ hrow _ => goldDeleted_only hrow) (.of_run hs)
  obtain ⟨r, hr⟩ := answered_of_answers (i := 0) (by rw [ha]; rfl)
  obtain ⟨r', hr'⟩ := answered_of_answers (i := 1) (by rw [ha]; rfl)
  exact absurd (hwinner.unique 0 1 r r' hr hr') (by decide)

end RecreationState

end Provisioning

end SignalSync
