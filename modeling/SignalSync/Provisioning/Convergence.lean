import SignalSync.Library.Run
import SignalSync.Provisioning.Handler

/-!
# Convergence of provisioning

The requests that create and retry a copy connection, and the workers on the
provisioning stream. All provision events of a connection carry one key until the
connection is deleted, so a retry after a run that has succeeded, with an error or
without, is dropped (`retry_dropped`); and a connection in a transition is given
up after the attempts, unless it is `provisioning` without an account. Where this
does not happen and the runs for a connection do not overlap, it converges
(`provisioning_converges`).

* `Attended.step`: a connection in a transition has an event that is to be worked on.
-/

namespace SignalSync

open Library

namespace Provisioning

/-- A `connection.provision` event. -/
structure ProvisionEvent where
  connectionId : Uuid
  transactionId : Nat
deriving DecidableEq

/-- Its idempotency key. -/
def ProvisionEvent.key (event : ProvisionEvent) : Uuid × Nat := (event.connectionId, event.transactionId)

abbrev ProvisionStream := StreamState (Uuid × Nat) ProvisionEvent ProvisioningPhase

structure ProvisioningState where
  connections : Connections
  stream : ProvisionStream
  locks : Uuid → Option (Nat × Time) := fun _ => none
  /-- The transaction ids drawn so far. -/
  transactions : Nat := 0
  /-- The entries a worker has taken up, and not dropped as duplicates. -/
  attempted : List Nat := []

inductive ProvisioningAction
  /-- `create_copy_connection`; a request that is cut off after its commit publishes nothing. -/
  | create (id userId : Uuid) (brokerLogin brokerServer : String) (published : Bool)
  | retry (id : Uuid) (published : Bool)
  /-- A step of the stream or of a worker, other than publishing and concluding. -/
  | stream (l : StreamLabel ProvisionEvent)
  /-- What follows a result; `retry_exhausted_handler` may fail. -/
  | conclude (delivery : Nat) (pendingKnown marked : Bool)
  | run (delivery : Nat) (label : ProvisioningLabel)

/-- `mark_provisioning_retry_exhausted`. -/
def markProvisioningRetryExhausted (connection : CopyTradingConnection) : CopyTradingConnection :=
  if connection.state = .provisioning && !connection.hasAccount then
    { connection with
      state := .provisioning_failed
      lastError := some ("provisioning_timeout",
        "The broker connection is taking longer than expected. Please try again.") }
  else connection

/-- `_provisioning_lock_ttl_seconds`. -/
def ProvisioningSettings.lockTtl (settings : ProvisioningSettings) : Time :=
  seconds (max 60 (settings.connectionTimeoutSeconds * 3 + 30))

/-- A connection as a request creates it. -/
def submittedConnection (transactionId : Nat) (userId : Uuid) (brokerLogin brokerServer : String) : CopyTradingConnection where
  userId := userId
  brokerLogin := brokerLogin
  brokerServer := brokerServer
  hasPassword := true
  metaapiAccountId := none
  provisioningTransactionId := transactionId
  state := .submitted

section

variable [Unicode]

/-- `get_copy_connection_by_identity`. -/
def getCopyConnectionByIdentity (connections : Connections) (userId : Uuid) (brokerLogin brokerServer : String) :
    Option (Uuid × CopyTradingConnection) :=
  connections.entries.find? fun e =>
    e.2.userId = userId && e.2.brokerLogin = brokerLogin && Unicode.lower e.2.brokerServer = Unicode.casefold brokerServer

/-- The unique constraint, where lower case and folded case differ. -/
def takenIdentity (connections : Connections) (userId : Uuid) (brokerLogin brokerServer : String) : Bool :=
  connections.entries.any fun e => e.2.userId = userId && e.2.brokerLogin = brokerLogin && e.2.brokerServer = brokerServer

/-- `create_copy_connection`: the connection of that identity, if it has been deleted,
or a new one. -/
def createCopyConnection (connections : Connections) (transactionId : Nat) (id userId : Uuid) (brokerLogin brokerServer : String) :
    Option (Uuid × Connections) :=
  let brokerServer := Unicode.strip brokerServer
  let row := submittedConnection transactionId userId brokerLogin brokerServer
  match getCopyConnectionByIdentity connections userId brokerLogin brokerServer with
  | some (id, existing) => if existing.state = .deleted then some (id, connections.modify id fun _ => row) else none
  | none =>
    if takenIdentity connections userId brokerLogin brokerServer then none
    else (connections.push id row).map fun connections => (id, connections)

/-- Only a deleted connection is created again. -/
theorem createCopyConnection_eq_some {connections connections' : Connections} {transactionId : Nat} {id id' userId : Uuid}
    {brokerLogin brokerServer : String}
    (h : createCopyConnection connections transactionId id userId brokerLogin brokerServer = some (id', connections')) :
    (∀ row, connections.get? id' = some row → row.state = .deleted) ∧
      ∀ id₁, connections'.get? id₁ =
        if id₁ = id' then some (submittedConnection transactionId userId brokerLogin (Unicode.strip brokerServer))
        else connections.get? id₁ := by
  simp only [createCopyConnection] at h
  split at h
  · rename_i id₀ existing hfind
    have hex : connections.get? id₀ = some existing := Table.get?_eq_some.2 (List.mem_of_find?_eq_some hfind)
    split at h
    · rename_i hdel
      cases h
      refine ⟨fun row hrow => ?_, get?_modify_connection hex⟩
      cases hex.symm.trans hrow
      exact hdel
    · cases h
  · split at h
    · cases h
    · obtain ⟨connections', hpush, he⟩ := Option.map_eq_some_iff.mp h
      cases he
      refine ⟨fun row hrow => ?_, fun _ => Table.get?_push hpush⟩
      rw [Table.push_eq_none.2 ⟨row, hrow⟩] at hpush
      cases hpush

end

namespace ProvisioningState

/-- Before the first request: every connection there is has been deleted. -/
def initial (settings : ProvisioningSettings) (connections : Connections) : ProvisioningState where
  connections := connections.mapRows fun _ connection => { connection with state := .deleted }
  stream := { maxAttempts := max 2 settings.maxAttempts, retryIdle := max (seconds 5) (seconds settings.pollSeconds) }

def publish (w : ProvisioningState) (published : Bool) (event : ProvisionEvent) : ProvisioningState :=
  if published then { w with stream := { w.stream with entries := w.stream.entries ++ [{ event }] } } else w

def lockFree (w : ProvisioningState) (id : Uuid) : Bool := (w.locks id).all fun lock => lock.2 ≤ w.stream.now

/-- The lock of the connection after a step of delivery `d`. -/
def changeLock (settings : ProvisioningSettings) (w : ProvisioningState) (d : Nat) (id : Uuid) :
    DeliveryStage ProvisioningPhase → Uuid → Option (Nat × Time)
  | .handle .load => Function.update w.locks id (some (d, w.stream.now + settings.lockTtl))
  | .result _ => if (w.locks id).any (·.1 = d) then Function.update w.locks id none else w.locks
  | _ => w.locks

/-- The entry that a step of the stream takes up. -/
def takes (w : ProvisioningState) : StreamLabel ProvisionEvent → List Nat
  | .start d =>
    match w.stream.delivered d with
    | some (⟨i, .check⟩, e) => if w.stream.isProcessed e.event.key then [] else [i]
    | _ => []
  | .startFails d _ => (w.stream.delivered d).toList.map (·.1.entry)
  | _ => []

/-- The result of a delivery leaves its event a dead letter after the last attempt. -/
def exhausts (w : ProvisioningState) (e : StreamEntry ProvisionEvent) (known : Bool) : DeliveryResult → Bool
  | .retry code => w.stream.isFinal e.status known (.retry code)
  | _ => false

section

variable [Unicode] (settings : ProvisioningSettings)

/-- `create_copy_connection`. -/
def create (w : ProvisioningState) (id userId : Uuid) (brokerLogin brokerServer : String) : Option (Uuid × ProvisioningState) :=
  (createCopyConnection w.connections w.transactions id userId brokerLogin brokerServer).map fun (id, connections) =>
    (id, { w with connections, transactions := w.transactions + 1 })

/-- `retry_copy_connection`. -/
def retry (connection : CopyTradingConnection) : Option CopyTradingConnection :=
  if connection.state = .deleting ∨ connection.state = .deleted then none
  else some { connection with state := .provisioning, lastError := none }

def step (w : ProvisioningState) : ProvisioningAction → Option ProvisioningState
  | .create id userId brokerLogin brokerServer published =>
    (create w id userId brokerLogin brokerServer).map fun (id, w') => w'.publish published ⟨id, w.transactions⟩
  | .retry id published =>
    ((w.connections.get? id).bind retry).map fun row =>
      { w with connections := w.connections.modify id fun _ => row }.publish published ⟨id, row.provisioningTransactionId⟩
  | .stream (.publish _) | .stream (.conclude ..) => none
  | .stream l =>
    (w.stream.step ProvisionEvent.key (fun _ => .start) l).map fun stream =>
      { w with stream, attempted := w.attempted ++ w.takes l }
  | .conclude d known marked =>
    match w.stream.delivered d with
    | some (⟨_, .result result⟩, e) =>
      (w.stream.step ProvisionEvent.key (fun _ => .start) (.conclude d known)).map fun stream =>
        { w with
          stream
          connections :=
            if marked && w.exhausts e known result then
              w.connections.modify e.event.connectionId markProvisioningRetryExhausted
            else w.connections }
    | _ => none
  | .run d label =>
    match w.stream.delivered d with
    | some (⟨_, .handle phase⟩, e) =>
      let id := e.event.connectionId
      (provisioningStep settings id w.connections (w.lockFree id) phase label).map fun h =>
        { w with
          connections := h.connections, stream := w.stream.setStage d h.stage
          locks := w.changeLock settings d id h.stage }
    | _ => none

end

/-! ## Orderly runs -/

/-- A delivery that ends its event. -/
def isEnding : DeliveryStage ProvisioningPhase → Bool
  | .result .success | .acknowledge => true
  | _ => false

/-- A delivery past its lock, or one that ends its event. -/
def isWorking : DeliveryStage ProvisioningPhase → Bool
  | .handle .start => false
  | .handle _ => true
  | stage => isEnding stage

/-- The connection a delivery is at work on. -/
def workingOn (w : ProvisioningState) (d : Nat) : Option Uuid :=
  match w.stream.delivered d with
  | some (x, e) => if isWorking x.stage then some e.event.connectionId else none
  | none => none

/-- No other delivery is at work on the connection. -/
def OthersIdle (w : ProvisioningState) (d : Nat) (id : Uuid) : Prop :=
  ∀ d' < w.stream.deliveries.length, d' ≠ d → w.workingOn d' ≠ some id

/-- Entry `i` is an event of the connection that no run has ended. -/
def Waiting (w : ProvisioningState) (id : Uuid) (i : Nat) : Prop :=
  (∃ e ∈ w.stream.entries[i]?, e.event.connectionId = id ∧ e.status ≠ .acked ∧ w.stream.isProcessed e.event.key = false) ∧
    ∀ x ∈ w.stream.deliveries, x.entry = i → isEnding x.stage = false

/-- A success under the key is remembered, or about to be. -/
def Succeeded (w : ProvisioningState) (key : Uuid × Nat) : Prop :=
  w.stream.isProcessed key ∨ ∃ d < w.stream.deliveries.length, match w.stream.delivered d with
    | some (⟨_, .result .success⟩, e) => e.event.key = key
    | _ => False

/-- What is left of a connection that is given up is not in a transition. -/
def SettledBy (w : ProvisioningState) (id : Uuid) (marked : Bool) : Prop :=
  ∀ row ∈ w.connections.get? id, row.state.isTransitional = false ∨
    marked ∧ row.state = .provisioning ∧ row.hasAccount = false

instance (w : ProvisioningState) (d : Nat) (id : Uuid) : Decidable (w.OthersIdle d id) :=
  decidable_of_iff (∀ d' ∈ List.range w.stream.deliveries.length, d' ≠ d → w.workingOn d' ≠ some id)
    (by simp only [List.mem_range]; rfl)

instance (w : ProvisioningState) (id : Uuid) (i : Nat) : Decidable (w.Waiting id i) := by
  delta Waiting
  infer_instance

instance (w : ProvisioningState) (key : Uuid × Nat) : Decidable (w.Succeeded key) := by
  have (d : Nat) : Decidable (match w.stream.delivered d with
      | some (⟨_, .result .success⟩, e) => e.event.key = key
      | _ => False) := by split <;> infer_instance
  exact inferInstanceAs (Decidable (_ ∨ _))

instance (w : ProvisioningState) (id : Uuid) (marked : Bool) : Decidable (w.SettledBy id marked) := by
  delta SettledBy
  infer_instance

/-- Requests are published, and a retry is made only while no success of the
connection is remembered. A run takes the lock only while no other is at work on the
connection, its event is still to be acknowledged and no success is remembered. An
event ends with a success only when every other of its key has been taken up, and
is given up only when no other run is at work and the connection is not left in a
transition, or has another event. -/
def Orderly (w : ProvisioningState) : ProvisioningAction → Prop
  | .create _ _ _ _ published => published
  | .retry id published => published ∧ ∀ row ∈ w.connections.get? id, ¬ w.Succeeded (id, row.provisioningTransactionId)
  | .run d .lock =>
    match w.stream.delivered d with
    | some (⟨_, .handle .start⟩, e) => w.lockFree e.event.connectionId →
      w.OthersIdle d e.event.connectionId ∧ e.status ≠ .acked ∧ w.stream.isProcessed e.event.key = false
    | _ => True
  | .run _ (.created (.created accountId)) => accountId ≠ ""
  | .conclude d known marked =>
    match w.stream.delivered d with
    | some (⟨i, .result .success⟩, e) => ∀ j < w.stream.entries.length, j ≠ i →
      ((w.stream.entries[j]?).any fun e' => e'.event.key = e.event.key && e'.status ≠ .acked) → j ∈ w.attempted
    | some (⟨i, .result result⟩, e) => w.stream.isFinal e.status known result →
      w.OthersIdle d e.event.connectionId ∧
        (w.SettledBy e.event.connectionId (marked && w.exhausts e known result) ∨
          ∃ j < w.stream.entries.length, j ≠ i ∧ w.Waiting e.event.connectionId j)
    | _ => True
  | _ => True

instance (w : ProvisioningState) (a : ProvisioningAction) : Decidable (w.Orderly a) := by
  unfold Orderly
  split
  · infer_instance
  · infer_instance
  · split <;> infer_instance
  · infer_instance
  · split <;> infer_instance
  · infer_instance

/-! ## Where the deliveries are -/

section

variable {s t : ProvisionStream} {l : StreamLabel ProvisionEvent} {i d : Nat} {x' : Delivery ProvisioningPhase}
  {e' : StreamEntry ProvisionEvent}

abbrev StreamStep (s : ProvisionStream) (l : StreamLabel ProvisionEvent) (t : ProvisionStream) : Prop :=
  s.Step ProvisionEvent.key (fun _ => .start) l t

/-- A delivery that works was at it before, if none is concluded. -/
theorem working_of_step (h : StreamStep s l t) (hv : s.Valid) (hl : ∀ d known, l ≠ .conclude d known)
    (hd : t.delivered d = some (x', e')) (hx : isWorking x'.stage) : ∃ e, s.delivered d = some (x', e) ∧ e.event = e'.event := by
  obtain ⟨i, stage⟩ := x'
  rcases StreamState.delivered_of_step h hv hd with ⟨⟨i₀, stage₀⟩, e, hd₀, hi, hev, hst⟩ | hst
  · simp only at hi hx
    subst hi
    rcases hst with hst | hst | ⟨-, ⟨hst, -⟩ | ⟨code, hst⟩⟩ | ⟨r, -, hst, -⟩ <;> simp only at hst <;> subst hst
    · exact ⟨e, hd₀, hev⟩
    · cases hx
    · cases hx
    · cases hx
    · rcases StreamState.acknowledge_of_step h hv hd with ⟨e, he, hev⟩ | ⟨known, -, -, hc, -⟩
      · exact ⟨e, he, hev⟩
      · exact absurd hc (hl d known)
  · simp only at hst hx
    rw [hst] at hx
    cases hx

theorem isProcessed_of_step (h : StreamStep s l t) (hl : ∀ d known, l ≠ .conclude d known) {key : Uuid × Nat}
    (hp : t.isProcessed key) : s.isProcessed key := by
  obtain ⟨p, hp, hk, hn⟩ := StreamState.isProcessed_iff.1 hp
  rcases StreamState.processed_of_step h hp with hp | ⟨d, known, -, -, hc, -⟩
  · exact StreamState.isProcessed_iff.2 ⟨p, hp, hk, Nat.lt_of_le_of_lt (StreamState.now_le_of_step h) hn⟩
  · exact absurd hc (hl d known)

end

/-! ## What orderly runs keep -/

/-- Entry `i` has not been taken up, nor dropped. -/
structure Untouched (s : ProvisionStream) (i : Nat) (e : StreamEntry ProvisionEvent) : Prop where
  open_ : e.status ≠ .acked
  unprocessed : s.isProcessed e.event.key = false
  deliveries : ∀ d x e', s.delivered d = some (x, e') → x.entry = i → x.stage = .check ∨ x.stage = .done

/-- A connection in a transition has an event that waits for a run, and every event
has been taken up or is still to be. -/
structure Attended (w : ProvisioningState) : Prop where
  valid : w.stream.Valid
  known : ∀ (i : Nat) (e : StreamEntry ProvisionEvent), w.stream.entries[i]? = some e →
    ∃ row, w.connections.get? e.event.connectionId = some row ∧
      row.provisioningTransactionId = e.event.transactionId ∧ row.state ≠ .deleted
  password : ∀ id row, w.connections.get? id = some row → row.state ≠ .deleted → row.hasPassword
  processed : ∀ p ∈ w.stream.processed, ∃ (i : Nat) (e : StreamEntry ProvisionEvent), w.stream.entries[i]? = some e ∧ e.event.key = p.key
  alone : ∀ d d' x x' e e', w.stream.delivered d = some (x, e) → w.stream.delivered d' = some (x', e') →
    isWorking x.stage → isWorking x'.stage → e.event.connectionId = e'.event.connectionId → d = d'
  running : ∀ d i phase e, w.stream.delivered d = some (⟨i, .handle phase⟩, e) → phase ≠ .start →
    e.status ≠ .acked ∧ w.stream.isProcessed e.event.key = false
  sound : ∀ d i phase e row, w.stream.delivered d = some (⟨i, .handle phase⟩, e) →
    w.connections.get? e.event.connectionId = some row → phase.Sound row
  ended : ∀ d i e row, w.stream.delivered d = some (⟨i, .result .success⟩, e) →
    w.connections.get? e.event.connectionId = some row → row.state.isTransitional = false
  waiting : ∀ id row, w.connections.get? id = some row → row.state.isTransitional → ∃ i, w.Waiting id i
  attempted : ∀ (i : Nat) (e : StreamEntry ProvisionEvent), w.stream.entries[i]? = some e → i ∈ w.attempted ∨ Untouched w.stream i e

variable {w : ProvisioningState} {id : Uuid} {i d : Nat}

theorem waiting_iff (hv : w.stream.Valid) : w.Waiting id i ↔
    (∃ e, w.stream.entries[i]? = some e ∧ e.event.connectionId = id ∧ e.status ≠ .acked ∧ w.stream.isProcessed e.event.key = false) ∧
      ∀ d x e, w.stream.delivered d = some (x, e) → x.entry = i → isEnding x.stage = false := by
  refine and_congr (by simp only [Option.mem_def]) ⟨fun h d x e hd => ?_, fun h x hx hi => ?_⟩
  · exact h x (List.mem_of_getElem? (StreamState.delivered_eq_some.1 hd).1)
  · obtain ⟨d, hd⟩ := List.mem_iff_getElem?.mp hx
    obtain ⟨e, he⟩ : ∃ e, w.stream.entries[x.entry]? = some e := ⟨_, List.getElem?_eq_getElem (hv x hx)⟩
    exact h d x e (StreamState.delivered_eq_some.2 ⟨hd, he⟩) hi

theorem isWorking_of_isEnding {stage : DeliveryStage ProvisioningPhase} (h : isEnding stage) : isWorking stage := by
  cases stage <;> first | exact h | cases h

theorem isWorking_handle {phase : ProvisioningPhase} (h : phase ≠ .start) : isWorking (.handle phase) := by
  cases phase <;> first | rfl | exact absurd rfl h

theorem OthersIdle.not_working (h : w.OthersIdle d id) {d' : Nat} {x : Delivery ProvisioningPhase} {e : StreamEntry ProvisionEvent}
    (hd : w.stream.delivered d' = some (x, e)) (hne : d' ≠ d) (he : e.event.connectionId = id) : isWorking x.stage = false := by
  have hlt := (List.getElem?_eq_some_iff.mp (StreamState.delivered_eq_some.1 hd).1).1
  have hw := h d' hlt hne
  by_contra hx
  rw [Bool.not_eq_false] at hx
  simp only [workingOn, hd, hx, if_true, he, ne_eq, not_true_eq_false] at hw

/-! ### A step of the stream -/

variable {t : ProvisionStream} {l : StreamLabel ProvisionEvent}

theorem Waiting.stream (hw : w.Waiting id i) (hv : w.stream.Valid) (h : StreamStep w.stream l t) (hl : ∀ d known, l ≠ .conclude d known)
    {w' : ProvisioningState} (ht : w'.stream = t) : w'.Waiting id i := by
  obtain ⟨⟨e, he, hc, hs, hp⟩, hd⟩ := (waiting_iff hv).mp hw
  rw [waiting_iff (ht ▸ hv.step h), ht]
  obtain ⟨e', he', hev⟩ := StreamState.entry_step h he
  refine ⟨⟨e', he', hev ▸ hc, fun ha => ?_, ?_⟩, fun d' x' e₁ hd' hx' => ?_⟩
  · obtain ⟨e₀, he₀, -, ha | ⟨d', x, hx, hxi, ha⟩⟩ := StreamState.acked_of_step h he' ha
    · cases he₀.symm.trans he
      exact hs ha
    · cases he₀.symm.trans he
      rcases ha with ha | ⟨-, ha⟩
      · have := hd d' x e hx hxi
        rw [ha] at this
        cases this
      · rw [hp] at ha
        cases ha
  · cases hp' : t.isProcessed e'.event.key with
    | false => rfl
    | true =>
      rw [hev] at hp'
      rw [isProcessed_of_step h hl hp'] at hp
      cases hp
  · cases hx : isEnding x'.stage with
    | false => rfl
    | true =>
      obtain ⟨e₂, he₂, -⟩ := working_of_step h hv hl hd' (isWorking_of_isEnding hx)
      rw [hd d' x' e₂ he₂ hx'] at hx
      cases hx

/-- An entry that no delivery was at is so still, or is taken up. -/
theorem Untouched.stream {e e' : StreamEntry ProvisionEvent} (hu : Untouched w.stream i e) (hv : w.stream.Valid)
    (h : StreamStep w.stream l t) (hl : ∀ d known, l ≠ .conclude d known) (he : w.stream.entries[i]? = some e)
    (he' : t.entries[i]? = some e') (hev : e'.event = e.event) : i ∈ w.takes l ∨ Untouched t i e' := by
  have hacked : e'.status ≠ .acked := fun ha => by
    obtain ⟨e₀, he₀, -, ha | ⟨d', x, hx, hxi, ha⟩⟩ := StreamState.acked_of_step h he' ha
    · cases he₀.symm.trans he
      exact hu.open_ ha
    · cases he₀.symm.trans he
      rcases ha with ha | ⟨-, ha⟩
      · rcases hu.deliveries d' x e hx hxi with hc | hc <;> rw [ha] at hc <;> cases hc
      · rw [hu.unprocessed] at ha
        cases ha
  have hprocessed : t.isProcessed e'.event.key = false := by
    rw [hev]
    cases hp : t.isProcessed e.event.key with
    | false => rfl
    | true => exact (isProcessed_of_step h hl hp).symm.trans hu.unprocessed
  by_cases hdel : ∀ d x e₁, t.delivered d = some (x, e₁) → x.entry = i → x.stage = .check ∨ x.stage = .done
  · exact .inr ⟨hacked, hprocessed, hdel⟩
  · push Not at hdel
    obtain ⟨d, ⟨i', stage⟩, e₁, hd, rfl, hc, hdone⟩ := hdel
    refine .inl ?_
    rcases StreamState.delivered_of_step h hv hd with ⟨⟨i₀, stage₀⟩, e₀, hd₀, hi, hev₀, hst⟩ | hst
    · simp only at hi
      subst hi
      have hne : stage ≠ stage₀ := by
        rintro rfl
        exact (hu.deliveries d _ e₀ hd₀ rfl).elim hc hdone
      have hx := (StreamState.delivered_eq_some.1 hd).1
      have hx₀ := (StreamState.delivered_eq_some.1 hd₀).1
      have hset {d' : Nat} {stage' : DeliveryStage ProvisioningPhase}
          (hx : (w.stream.setStage d' stage').deliveries[d]? = some ⟨i₀, stage⟩) : d' = d ∧ stage = stage' := by
        rw [StreamState.deliveries_setStage, hx₀, Option.map_some] at hx
        split at hx
        · exact ⟨by assumption, (Delivery.mk.inj (Option.some.inj hx)).2.symm⟩
        · exact absurd (Delivery.mk.inj (Option.some.inj hx)).2.symm hne
      cases h with
      | publish | tick => exact absurd (Delivery.mk.inj (Option.some.inj (hx.symm.trans hx₀))).2 hne
      | deliver =>
        rw [StreamState.deliver, List.getElem?_append_left (List.getElem?_eq_some_iff.mp hx₀).1] at hx
        exact absurd (Delivery.mk.inj (Option.some.inj (hx.symm.trans hx₀))).2 hne
      | drop | acknowledge | finish => exact absurd (hset hx).2 hdone
      | success | deadLetter => exact absurd rfl (hl _ _)
      | handle hd' hp =>
        obtain ⟨rfl, -⟩ := hset hx
        cases hd'.symm.trans hd₀
        simp [takes, hd', hp]
      | fail hd' =>
        obtain ⟨rfl, -⟩ := hset hx
        simp [takes, hd₀]
    · exact absurd hst hc

theorem Attended.stream (hw : w.Attended) (h : StreamStep w.stream l t) (hl : ∀ d known, l ≠ .conclude d known)
    (hp : ∀ event, l ≠ .publish event) : Attended { w with stream := t, attempted := w.attempted ++ w.takes l } := by
  have hv := hw.valid
  have hback {d : Nat} {x : Delivery ProvisioningPhase} {e : StreamEntry ProvisionEvent} (hd : t.delivered d = some (x, e))
      (hx : isWorking x.stage) := working_of_step h hv hl hd hx
  refine ⟨hv.step h, fun i e he => ?_, hw.password, fun p hp' => ?_, fun d d' x x' e e' hd hd' hx hx' hid => ?_,
    fun d i phase e hd hne => ?_, fun d i phase e row hd hrow => ?_, fun d i e row hd hrow => ?_, fun id row hrow ht => ?_, fun i e he => ?_⟩
  · rcases StreamState.entry_of_step h he with ⟨e₀, he₀, hev⟩ | ⟨event, hc, -⟩
    · exact hev ▸ hw.known i e₀ he₀
    · exact absurd hc (hp event)
  · rcases StreamState.processed_of_step h hp' with hp' | ⟨d, known, -, -, hc, -⟩
    · obtain ⟨i, e, he, hk⟩ := hw.processed p hp'
      obtain ⟨e', he', hev⟩ := StreamState.entry_step h he
      exact ⟨i, e', he', hev ▸ hk⟩
    · exact absurd hc (hl d known)
  · obtain ⟨e₀, hd₀, hev⟩ := hback hd hx
    obtain ⟨e₀', hd₀', hev'⟩ := hback hd' hx'
    exact hw.alone d d' x x' e₀ e₀' hd₀ hd₀' hx hx' (by rw [hev, hev', hid])
  · obtain ⟨e₀, hd₀, hev⟩ := hback hd (isWorking_handle hne)
    obtain ⟨ha, hpr⟩ := hw.running d i phase e₀ hd₀ hne
    refine ⟨fun hacked => ?_, ?_⟩
    · obtain ⟨e₁, he₁, -, hacked | ⟨d', x, hx, hxi, hst⟩⟩ := StreamState.acked_of_step h (StreamState.delivered_eq_some.1 hd).2 hacked
      · cases he₁.symm.trans (StreamState.delivered_eq_some.1 hd₀).2
        exact ha hacked
      · cases he₁.symm.trans (StreamState.delivered_eq_some.1 hd₀).2
        rcases hst with hst | ⟨-, hst⟩
        · -- the run is the only one at work on the connection
          have := hw.alone d d' _ x _ _ hd₀ hx (isWorking_handle hne) (by rw [hst]; rfl) rfl
          subst this
          cases hd₀.symm.trans hx
          cases hst
        · rw [hpr] at hst
          cases hst
    · rw [← hev]
      cases hp' : t.isProcessed e₀.event.key with
      | false => rfl
      | true => exact (isProcessed_of_step h hl hp').symm.trans hpr
  · by_cases hne : phase = .start
    · subst hne
      trivial
    · obtain ⟨e₀, hd₀, hev⟩ := hback hd (isWorking_handle hne)
      exact hw.sound d i phase e₀ row hd₀ (hev ▸ hrow)
  · obtain ⟨e₀, hd₀, hev⟩ := hback hd rfl
    exact hw.ended d i e₀ row hd₀ (hev ▸ hrow)
  · obtain ⟨i, hi⟩ := hw.waiting id row hrow ht
    exact ⟨i, hi.stream hv h hl rfl⟩
  · rcases StreamState.entry_of_step h he with ⟨e₀, he₀, hev⟩ | ⟨event, hc, -⟩
    · rcases hw.attempted i e₀ he₀ with ha | hu
      · exact .inl (List.mem_append_left _ ha)
      · exact (hu.stream hv h hl he₀ he hev.symm).imp_left (List.mem_append_right _)
    · exact absurd hc (hp event)

/-! ### A result -/

variable {e : StreamEntry ProvisionEvent} {r : DeliveryResult} {known : Bool}

/-- What follows a result: the event is processed, is a dead letter, or is left for
another attempt. -/
theorem conclude_cases (hd : w.stream.delivered d = some (⟨i, .result r⟩, e))
    (h : w.stream.step ProvisionEvent.key (fun _ => .start) (.conclude d known) = some t) :
    (r = .success ∧ t =
        { w.stream.setStage d .acknowledge with
          processed := w.stream.processed ++ [⟨e.event.key, e.event, w.stream.now + seconds processedSeconds⟩] }) ∨
      (r ≠ .success ∧ w.stream.isFinal e.status known r ∧
        t = { w.stream.setStage d .acknowledge with deadLetters := w.stream.deadLetters ++ [e.event] }) ∨
      w.exhausts e known r = false ∧ t = w.stream.setStage d .done := by
  simp only [StreamState.step, hd, Option.some.injEq] at h
  subst h
  cases r with
  | success => exact .inl ⟨rfl, rfl⟩
  | retry code =>
    simp only [StreamState.conclude]
    split
    · rename_i hf
      exact .inr (.inl ⟨by simp, hf, rfl⟩)
    · rename_i hf
      rw [Bool.not_eq_true] at hf
      exact .inr (.inr ⟨hf, rfl⟩)
  | dead_letter code => exact .inr (.inl ⟨by simp, rfl, rfl⟩)

/-- Only the delivery's own stage changes. -/
theorem delivered_setStage_cases {s : ProvisionStream} {stage : DeliveryStage ProvisioningPhase} {x : Delivery ProvisioningPhase}
    {e₀ : StreamEntry ProvisionEvent} (hd : s.delivered d = some (x, e₀)) {d' : Nat} {x' : Delivery ProvisioningPhase}
    {e' : StreamEntry ProvisionEvent} (hd' : (s.setStage d stage).delivered d' = some (x', e')) :
    d' = d ∧ x' = ⟨x.entry, stage⟩ ∧ e' = e₀ ∨ d' ≠ d ∧ s.delivered d' = some (x', e') := by
  obtain ⟨x₁, hx₁, rfl⟩ := StreamState.delivered_setStage hd'
  by_cases hdd : d = d'
  · subst hdd
    cases hd.symm.trans hx₁
    exact .inl ⟨rfl, by rw [if_pos rfl], rfl⟩
  · rw [if_neg hdd] at *
    exact .inr ⟨fun he => hdd he.symm, hx₁⟩

theorem not_untouched {x : Delivery ProvisioningPhase} {e' : StreamEntry ProvisionEvent} (hd : w.stream.delivered d = some (x, e))
    (hx : x.stage ≠ .check ∧ x.stage ≠ .done) (hi : x.entry = i) : ¬ Untouched w.stream i e' :=
  fun hu => (hu.deliveries d x e hd hi).elim hx.1 hx.2

/-- Another event waits as before, and its own does unless the delivery ends it. -/
theorem Waiting.setStage (hw : w.Waiting id i) {x : Delivery ProvisioningPhase} {stage : DeliveryStage ProvisioningPhase}
    (hd : w.stream.delivered d = some (x, e)) (hne : x.entry = i → isEnding stage = false) {w' : ProvisioningState}
    (ht : w'.stream.deliveries = (w.stream.setStage d stage).deliveries) (hen : w'.stream.entries = w.stream.entries)
    (hp : ∀ key : Uuid × Nat, key.1 = id → w'.stream.isProcessed key = w.stream.isProcessed key) : w'.Waiting id i := by
  obtain ⟨⟨e₀, he₀, hc, hs, hpr⟩, hdel⟩ := hw
  refine ⟨⟨e₀, hen ▸ he₀, hc, hs, (hp _ hc).trans hpr⟩, fun x' hx' hi => ?_⟩
  obtain ⟨d', hd'⟩ := List.mem_iff_getElem?.mp hx'
  rw [ht, StreamState.deliveries_setStage] at hd'
  obtain ⟨x₀, hx₀, rfl⟩ := Option.map_eq_some_iff.mp hd'
  split
  · rename_i hdd
    subst hdd
    cases (StreamState.delivered_eq_some.1 hd).1.symm.trans hx₀
    rw [if_pos rfl] at hi
    exact hne hi
  · rename_i hdd
    rw [if_neg hdd] at hi
    exact hdel x₀ (List.mem_of_getElem? hx₀) hi

/-- A delivery stops to work, and its event is left. -/
theorem Attended.left (hw : w.Attended) {x : Delivery ProvisioningPhase} (hd : w.stream.delivered d = some (x, e))
    (hx : x.stage ≠ .check ∧ x.stage ≠ .done) {stage : DeliveryStage ProvisioningPhase} (hstage : isWorking stage = false)
    (hph : ∀ phase, stage ≠ .handle phase) {locks : Uuid → Option (Nat × Time)} :
    Attended { w with stream := w.stream.setStage d stage, locks } := by
  have hback {d' : Nat} {x' : Delivery ProvisioningPhase} {e' : StreamEntry ProvisionEvent}
      (hd' : (w.stream.setStage d stage).delivered d' = some (x', e')) (hx : x'.stage ≠ stage) :
      w.stream.delivered d' = some (x', e') := by
    rcases delivered_setStage_cases hd hd' with ⟨-, rfl, -⟩ | ⟨-, hd'⟩
    · exact absurd rfl hx
    · exact hd'
  have hworking {x : Delivery ProvisioningPhase} (hx : isWorking x.stage) : x.stage ≠ stage := fun he => by
    rw [he, hstage] at hx
    cases hx
  refine ⟨hw.valid.setStage d stage, hw.known, hw.password, hw.processed, fun d₁ d₂ x₁ x₂ e₁ e₂ h₁ h₂ hx₁ hx₂ hid => ?_,
    fun d' i' phase e' hd' hne => ?_, fun d' i' phase e' row hd' hrow => ?_, fun d' i' e' row hd' hrow => ?_, fun id row hrow ht => ?_,
    fun i' e' he' => ?_⟩
  · exact hw.alone d₁ d₂ x₁ x₂ e₁ e₂ (hback h₁ (hworking hx₁)) (hback h₂ (hworking hx₂)) hx₁ hx₂ hid
  · exact hw.running d' i' phase e' (hback hd' (hph phase).symm) hne
  · exact hw.sound d' i' phase e' row (hback hd' (hph phase).symm) hrow
  · exact hw.ended d' i' e' row (hback hd' (hworking rfl)) hrow
  · obtain ⟨i', hi'⟩ := hw.waiting id row hrow ht
    refine ⟨i', hi'.setStage hd (fun _ => ?_) rfl rfl fun _ _ => rfl⟩
    by_contra he
    rw [isWorking_of_isEnding (by simpa using he)] at hstage
    cases hstage
  · rcases hw.attempted i' e' he' with ha | hu
    · exact .inl ha
    · refine .inr ⟨hu.open_, hu.unprocessed, fun d' x' e₁ hd' hx' => ?_⟩
      rcases delivered_setStage_cases hd hd' with ⟨-, rfl, -⟩ | ⟨-, hd'⟩
      · exact absurd hu (not_untouched hd hx hx')
      · exact hu.deliveries d' x' e₁ hd' hx'

/-- A delivery takes a step while no other is at work on its connection. -/
theorem Attended.advance (hw : w.Attended) {x : Delivery ProvisioningPhase} (hd : w.stream.delivered d = some (x, e))
    (hx : x.stage ≠ .check ∧ x.stage ≠ .done) {stage : DeliveryStage ProvisioningPhase} {stored new : CopyTradingConnection}
    (hothers : ∀ d' x' e', w.stream.delivered d' = some (x', e') → d' ≠ d → e'.event.connectionId = e.event.connectionId →
      isWorking x'.stage = false)
    (hstored : w.connections.get? e.event.connectionId = some stored) (hkeeps : stored.Keeps new)
    (hsound : ∀ phase, stage = .handle phase → phase.Sound new)
    (hended : stage = .result .success → new.state.isTransitional = false) {w' : ProvisioningState}
    (hdeliveries : w'.stream.deliveries = (w.stream.setStage d stage).deliveries) (hentries : w'.stream.entries = w.stream.entries)
    (hattempted : w'.attempted = w.attempted)
    (hconnections : ∀ id, w'.connections.get? id = if id = e.event.connectionId then some new else w.connections.get? id)
    (hprocessed : ∀ p ∈ w'.stream.processed, p ∈ w.stream.processed ∨ p.key = e.event.key)
    (hothersProcessed : ∀ key, key ≠ e.event.key → w'.stream.isProcessed key = w.stream.isProcessed key)
    (hrunning : ∀ phase, stage = .handle phase → phase ≠ .start → e.status ≠ .acked ∧ w'.stream.isProcessed e.event.key = false)
    (hwaiting : new.state.isTransitional → ∃ j, w'.Waiting e.event.connectionId j)
    (huntouched : ∀ (j : Nat) (e' : StreamEntry ProvisionEvent), w.stream.entries[j]? = some e' → j ≠ x.entry → e'.event.key = e.event.key →
      Untouched w.stream j e' → j ∈ w.attempted ∨ w'.stream.isProcessed e.event.key = false) : w'.Attended := by
  have hdelivered (d' : Nat) : w'.stream.delivered d' = (w.stream.setStage d stage).delivered d' := by
    rw [StreamState.delivered, StreamState.delivered, hdeliveries, hentries]
    rfl
  have hcases {d' : Nat} {x' : Delivery ProvisioningPhase} {e' : StreamEntry ProvisionEvent}
      (hd' : w'.stream.delivered d' = some (x', e')) :
      d' = d ∧ x' = ⟨x.entry, stage⟩ ∧ e' = e ∨ d' ≠ d ∧ w.stream.delivered d' = some (x', e') :=
    delivered_setStage_cases hd ((hdelivered d').symm.trans hd')
  have hkey {e' : StreamEntry ProvisionEvent} (hid : e'.event.connectionId ≠ e.event.connectionId) : e'.event.key ≠ e.event.key :=
    fun hk => hid (congrArg Prod.fst hk)
  refine ⟨fun x' hx' => ?_, fun i' e' he' => ?_, fun id row hrow hdel => ?_, fun p hp => ?_,
    fun d₁ d₂ x₁ x₂ e₁ e₂ h₁ h₂ hx₁ hx₂ hid => ?_, fun d' i' phase e' hd' hne => ?_, fun d' i' phase e' row hd' hrow => ?_,
    fun d' i' e' row hd' hrow => ?_, fun id row hrow ht => ?_, fun i' e' he' => ?_⟩
  · rw [hdeliveries] at hx'
    rw [hentries]
    exact hw.valid.setStage d stage x' hx'
  · rw [hentries] at he'
    obtain ⟨row, hrow, htid, hdel⟩ := hw.known i' e' he'
    rw [hconnections]
    split
    · rename_i hid
      rw [hid, hstored] at hrow
      cases hrow
      exact ⟨new, rfl, hkeeps.transactionId.trans htid, hkeeps.notDeleted hdel⟩
    · exact ⟨row, hrow, htid, hdel⟩
  · rw [hconnections] at hrow
    split at hrow
    · cases hrow
      obtain ⟨row, hrow, -, hdel⟩ := hw.known _ e (StreamState.delivered_eq_some.1 hd).2
      rw [hstored] at hrow
      cases hrow
      exact hkeeps.hasPassword ▸ hw.password _ stored hstored hdel
    · exact hw.password id row hrow hdel
  · rw [hentries]
    rcases hprocessed p hp with hp | hp
    · exact hw.processed p hp
    · exact ⟨x.entry, e, (StreamState.delivered_eq_some.1 hd).2, hp.symm⟩
  · rcases hcases h₁ with ⟨rfl, rfl, rfl⟩ | ⟨hne₁, h₁⟩ <;> rcases hcases h₂ with ⟨rfl, rfl, rfl⟩ | ⟨hne₂, h₂⟩
    · rfl
    · rw [hothers d₂ x₂ e₂ h₂ hne₂ hid.symm] at hx₂
      cases hx₂
    · rw [hothers d₁ x₁ e₁ h₁ hne₁ hid] at hx₁
      cases hx₁
    · exact hw.alone d₁ d₂ x₁ x₂ e₁ e₂ h₁ h₂ hx₁ hx₂ hid
  · rcases hcases hd' with ⟨-, hx', rfl⟩ | ⟨hne', hd'⟩
    · exact hrunning phase (Delivery.mk.inj hx').2.symm hne
    · obtain ⟨hs, hp⟩ := hw.running d' i' phase e' hd' hne
      refine ⟨hs, (hothersProcessed _ (hkey fun hid => ?_)).trans hp⟩
      have := hothers d' _ e' hd' hne' hid
      rw [isWorking_handle hne] at this
      cases this
  · rw [hconnections] at hrow
    rcases hcases hd' with ⟨-, hx', rfl⟩ | ⟨hne', hd'⟩
    · rw [if_pos rfl] at hrow
      cases hrow
      exact hsound phase (Delivery.mk.inj hx').2.symm
    · split at hrow
      · rename_i hid
        by_cases hne : phase = .start
        · subst hne
          trivial
        · have := hothers d' _ e' hd' hne' hid
          rw [isWorking_handle hne] at this
          cases this
      · exact hw.sound d' i' phase e' row hd' hrow
  · rw [hconnections] at hrow
    rcases hcases hd' with ⟨-, hx', rfl⟩ | ⟨hne', hd'⟩
    · rw [if_pos rfl] at hrow
      cases hrow
      exact hended (Delivery.mk.inj hx').2.symm
    · split at hrow
      · rename_i hid
        cases hothers d' _ e' hd' hne' hid
      · exact hw.ended d' i' e' row hd' hrow
  · rw [hconnections] at hrow
    split at hrow
    · rename_i hid
      cases hrow
      exact hid ▸ hwaiting ht
    · rename_i hid
      obtain ⟨i', hi'⟩ := hw.waiting id row hrow ht
      refine ⟨i', hi'.setStage hd (fun hi => ?_) hdeliveries hentries fun key hk => ?_⟩
      · obtain ⟨⟨e₀, he₀, hc, -⟩, -⟩ := hi'
        cases he₀.symm.trans (hi ▸ (StreamState.delivered_eq_some.1 hd).2)
        exact absurd hc.symm hid
      · exact hothersProcessed key fun he => hid (hk.symm.trans (congrArg Prod.fst he))
  · rw [hentries] at he'
    rw [hattempted]
    rcases hw.attempted i' e' he' with ha | hu
    · exact .inl ha
    · have hi : x.entry ≠ i' := fun hi => not_untouched hd hx hi hu
      have hdel (d' : Nat) (x' : Delivery ProvisioningPhase) (e₁ : StreamEntry ProvisionEvent)
          (hd' : w'.stream.delivered d' = some (x', e₁)) (hx' : x'.entry = i') : x'.stage = .check ∨ x'.stage = .done := by
        rcases hcases hd' with ⟨-, rfl, -⟩ | ⟨-, hd'⟩
        · exact absurd hx' hi
        · exact hu.deliveries d' x' e₁ hd' hx'
      by_cases hk : e'.event.key = e.event.key
      · exact (huntouched i' e' he' hi.symm hk hu).imp_right fun hp => ⟨hu.open_, hk ▸ hp, hdel⟩
      · exact .inr ⟨hu.open_, (hothersProcessed _ hk).trans hu.unprocessed, hdel⟩

theorem isProcessed_append {s : ProvisionStream} {p : ProcessedKey (Uuid × Nat) ProvisionEvent} {stage : DeliveryStage ProvisioningPhase}
    {key : Uuid × Nat} (hk : key ≠ p.key) :
    StreamState.isProcessed { s.setStage d stage with processed := s.processed ++ [p] } key = s.isProcessed key := by
  simp only [StreamState.isProcessed, StreamState.setStage, List.any_append, List.any_cons, List.any_nil, Bool.or_false,
    decide_eq_false hk.symm, Bool.false_and]
  rfl

theorem markProvisioningRetryExhausted_keeps (stored : CopyTradingConnection) :
    stored.Keeps (markProvisioningRetryExhausted stored) := by
  unfold markProvisioningRetryExhausted
  split
  · exact ⟨rfl, rfl, fun h => h, fun _ => by simp⟩
  · exact .refl stored

/-- What is marked was not in a transition, or is so no more. -/
theorem markProvisioningRetryExhausted_transitional {stored : CopyTradingConnection}
    (h : (markProvisioningRetryExhausted stored).state.isTransitional) :
    stored.state.isTransitional ∧ ¬ (stored.state = .provisioning ∧ stored.hasAccount = false) := by
  unfold markProvisioningRetryExhausted at h
  split at h
  · cases h
  · rename_i hc
    exact ⟨h, by simpa using hc⟩

theorem Attended.success (hw : w.Attended) (hd : w.stream.delivered d = some (⟨i, .result .success⟩, e))
    (ho : ∀ j < w.stream.entries.length, j ≠ i →
      ((w.stream.entries[j]?).any fun e' => e'.event.key = e.event.key && e'.status ≠ .acked) → j ∈ w.attempted) :
    Attended { w with stream := { w.stream.setStage d .acknowledge with
      processed := w.stream.processed ++ [⟨e.event.key, e.event, w.stream.now + seconds processedSeconds⟩] } } := by
  obtain ⟨stored, hstored, -⟩ := hw.known i e (StreamState.delivered_eq_some.1 hd).2
  have hended := hw.ended d i e stored hd hstored
  refine hw.advance hd ⟨by simp, by simp⟩ (fun d' x' e' hd' hne hid => ?_) hstored (.refl stored) (fun _ h => by cases h)
    (fun h => by cases h) rfl rfl rfl (fun id => ?_) (fun p hp => ?_) (fun key hk => isProcessed_append hk) (fun _ h => by cases h)
    (fun ht => ?_) (fun j e' he' hne hk hu => ?_)
  · by_contra hx'
    rw [Bool.not_eq_false] at hx'
    exact hne (hw.alone d' d x' _ e' e hd' hd hx' rfl hid)
  · split
    · rename_i hid
      rw [hid, hstored]
    · rfl
  · exact (List.mem_append.mp hp).imp_right fun hp => by rw [List.mem_singleton.mp hp]
  · rw [hended] at ht
    cases ht
  · refine .inl (ho j (List.getElem?_eq_some_iff.mp he').1 hne ?_)
    rw [he']
    simpa using ⟨hk, hu.open_⟩

theorem Attended.deadLetter (hw : w.Attended) (hd : w.stream.delivered d = some (⟨i, .result r⟩, e))
    (hidle : w.OthersIdle d e.event.connectionId) {marked : Bool}
    (ho : w.SettledBy e.event.connectionId marked ∨ ∃ j < w.stream.entries.length, j ≠ i ∧ w.Waiting e.event.connectionId j) :
    Attended { w with
      stream := { w.stream.setStage d .acknowledge with deadLetters := w.stream.deadLetters ++ [e.event] }
      connections := if marked then w.connections.modify e.event.connectionId markProvisioningRetryExhausted else w.connections } := by
  obtain ⟨stored, hstored, -⟩ := hw.known i e (StreamState.delivered_eq_some.1 hd).2
  refine hw.advance hd ⟨by simp, by simp⟩ (fun d' x' e' hd' hne hid => hidle.not_working hd' hne hid) hstored
    (show stored.Keeps (if marked then markProvisioningRetryExhausted stored else stored) from ?_) (fun _ h => by cases h)
    (fun h => by cases h) rfl rfl rfl (fun id => ?_) (fun p hp => .inl hp) (fun key hk => rfl) (fun _ h => by cases h)
    (fun ht => ?_) (fun j e' he' hne hk hu => .inr (hk ▸ hu.unprocessed))
  · split
    · exact markProvisioningRetryExhausted_keeps stored
    · exact .refl stored
  · cases marked with
    | true => exact get?_modify_connection hstored id
    | false =>
      simp only [Bool.false_eq_true, if_false]
      split
      · rename_i hid
        rw [hid, hstored]
      · rfl
  · rcases ho with hs | ⟨j, -, hne, hj⟩
    · have hs := hs stored hstored
      cases marked with
      | true =>
        obtain ⟨ht, hn⟩ := markProvisioningRetryExhausted_transitional ht
        rcases hs with hs | ⟨-, hs⟩
        · rw [hs] at ht
          cases ht
        · exact absurd hs hn
      | false =>
        rcases hs with hs | ⟨hs, -⟩
        · exact absurd (hs.symm.trans ht) (by simp)
        · cases hs
    · exact ⟨j, hj.setStage hd (fun hi => absurd hi.symm hne) rfl rfl fun _ _ => rfl⟩

theorem Attended.conclude [Unicode] {settings : ProvisioningSettings} {marked : Bool} {w' : ProvisioningState} (hw : w.Attended)
    (ho : w.Orderly (.conclude d known marked)) (h : step settings w (.conclude d known marked) = some w') : w'.Attended := by
  simp only [step] at h
  simp only [Orderly] at ho
  split at h
  · rename_i i r e hd
    obtain ⟨t, ht, rfl⟩ := Option.map_eq_some_iff.mp h
    rw [hd] at ho
    rcases conclude_cases hd ht with ⟨rfl, rfl⟩ | ⟨hr, hf, rfl⟩ | ⟨he, rfl⟩
    · simp only [exhausts, Bool.and_false]
      exact hw.success hd ho
    · cases r with
      | success => exact absurd rfl hr
      | _ =>
        obtain ⟨hidle, ho⟩ := ho hf
        exact hw.deadLetter hd hidle ho
    · simp only [he, Bool.and_false]
      exact hw.left hd ⟨by simp, by simp⟩ rfl fun _ => by simp
  · cases h

/-! ### A step of a run -/

section

variable [Unicode] {settings : ProvisioningSettings} {connections : Connections} {lockFree : Bool} {phase : ProvisioningPhase}
  {label : ProvisioningLabel} {h : ProvisioningStep}

theorem provisioningStep_start (hs : provisioningStep settings id connections lockFree .start label = some h) :
    h.connections = connections ∧ ((∃ code, h.stage = .result (.retry code)) ∨ label = .lock ∧ lockFree ∧ h.stage = .handle .load) := by
  cases label with
  | lock =>
    simp only [provisioningStep, Option.some.injEq] at hs
    subst hs
    refine ⟨rfl, ?_⟩
    split
    · exact .inl ⟨_, rfl⟩
    · split
      · exact .inr ⟨rfl, by assumption, rfl⟩
      · exact .inl ⟨_, rfl⟩
  | fails e =>
    cases hs
    exact ⟨rfl, .inl ⟨_, rfl⟩⟩
  | _ => cases hs

theorem Attended.run {w' : ProvisioningState} (hw : w.Attended) (ho : w.Orderly (.run d label))
    (hstep : step settings w (.run d label) = some w') : w'.Attended := by
  simp only [step] at hstep
  split at hstep
  · rename_i i phase e hd
    obtain ⟨h, hs, rfl⟩ := Option.map_eq_some_iff.mp hstep
    obtain ⟨stored, hstored, -, hdel⟩ := hw.known i e (StreamState.delivered_eq_some.1 hd).2
    have hid : label ≠ .created (.created "") := by
      rintro rfl
      exact ho rfl
    obtain ⟨new, hget, hkeeps, hstage⟩ := provisioningStep_sound hs hstored (hw.sound d i phase e stored hd hstored)
      (hw.password _ stored hstored hdel) hid
    -- a run that does not take the lock does nothing
    by_cases hleft : phase = .start ∧ ∃ code, h.stage = .result (.retry code)
    · obtain ⟨rfl, code, hcode⟩ := hleft
      rw [(provisioningStep_start hs).1, hcode]
      exact hw.left hd ⟨by simp, by simp⟩ rfl fun _ => by simp
    · obtain ⟨hothers, hopen, hunprocessed⟩ : (∀ d' x' e', w.stream.delivered d' = some (x', e') → d' ≠ d →
          e'.event.connectionId = e.event.connectionId → isWorking x'.stage = false) ∧
          e.status ≠ .acked ∧ w.stream.isProcessed e.event.key = false := by
        by_cases hne : phase = .start
        · subst hne
          rcases (provisioningStep_start hs).2 with hcode | ⟨rfl, hfree, -⟩
          · exact absurd ⟨rfl, hcode⟩ hleft
          · simp only [Orderly, hd] at ho
            obtain ⟨hidle, hopen⟩ := ho hfree
            exact ⟨fun d' x' e' hd' hne hid => hidle.not_working hd' hne hid, hopen⟩
        · refine ⟨fun d' x' e' hd' hdd hid => ?_, hw.running d i phase e hd hne⟩
          by_contra hx'
          rw [Bool.not_eq_false] at hx'
          exact hdd (hw.alone d' d x' _ e' e hd' hd hx' (isWorking_handle hne) hid)
      refine hw.advance hd ⟨by simp, by simp⟩ hothers hstored hkeeps (fun phase' hp => ?_) (fun hsuccess => ?_) rfl rfl rfl hget
        (fun p hp => .inl hp) (fun _ _ => rfl) (fun _ _ _ => ⟨hopen, hunprocessed⟩) (fun ht => ?_) (fun _ _ _ _ _ _ => .inr hunprocessed)
      · rcases hstage with ⟨phase₁, hp₁, -, hsound⟩ | ⟨code, hc⟩ | ⟨hc, -⟩
        · rw [hp] at hp₁
          cases hp₁
          exact hsound
        · rw [hp] at hc
          cases hc
        · rw [hp] at hc
          cases hc
      · rcases hstage with ⟨phase₁, hp₁, -⟩ | ⟨code, hc⟩ | ⟨-, hout⟩
        · rw [hp₁] at hsuccess
          cases hsuccess
        · rw [hc] at hsuccess
          cases hsuccess
        · exact hout
      · have hending : isEnding h.stage = false := by
          rcases hstage with ⟨phase₁, hp₁, -⟩ | ⟨code, hc⟩ | ⟨-, hout⟩
          · rw [hp₁]
            rfl
          · rw [hc]
            rfl
          · rw [hout] at ht
            cases ht
        refine ⟨i, ⟨⟨e, (StreamState.delivered_eq_some.1 hd).2, rfl, hopen, hunprocessed⟩, fun x' hx' hi => ?_⟩⟩
        obtain ⟨d', hd'⟩ := List.mem_iff_getElem?.mp hx'
        have he : w.stream.entries[x'.entry]? = some e := hi ▸ (StreamState.delivered_eq_some.1 hd).2
        rcases delivered_setStage_cases hd (StreamState.delivered_eq_some.2 ⟨hd', he⟩) with ⟨-, rfl, -⟩ | ⟨hne, hd'⟩
        · exact hending
        · by_contra hx'
          rw [Bool.not_eq_false] at hx'
          have := hothers d' x' e hd' hne rfl
          rw [isWorking_of_isEnding hx'] at this
          cases this
  · cases hstep

end

/-! ### A request -/

theorem delivered_publish {s : ProvisionStream} (hv : s.Valid) (event : ProvisionEvent) (d : Nat) :
    StreamState.delivered { s with entries := s.entries ++ [{ event }] } d = s.delivered d := by
  simp only [StreamState.delivered]
  cases hx : s.deliveries[d]? with
  | none => rfl
  | some x => rw [Option.bind_some, Option.bind_some, List.getElem?_append_left (hv x (List.mem_of_getElem? hx))]

/-- A request writes its connection and publishes its event. -/
theorem Attended.request (hw : w.Attended) {row : CopyTradingConnection} {connections : Connections} {transactions : Nat}
    (hconnections : ∀ id', connections.get? id' = if id' = id then some row else w.connections.get? id')
    (hdeleted : row.state ≠ .deleted) (hpassword : row.hasPassword)
    (hknown : ∀ (i : Nat) (e : StreamEntry ProvisionEvent), w.stream.entries[i]? = some e → e.event.connectionId = id →
      row.provisioningTransactionId = e.event.transactionId)
    (hsound : ∀ d i phase e, w.stream.delivered d = some (⟨i, .handle phase⟩, e) → e.event.connectionId = id → phase.Sound row)
    (hended : ∀ d i e, w.stream.delivered d = some (⟨i, .result .success⟩, e) → e.event.connectionId ≠ id)
    (hprocessed : w.stream.isProcessed (id, row.provisioningTransactionId) = false) :
    Attended { w with
      connections, transactions
      stream := { w.stream with entries := w.stream.entries ++ [{ event := ⟨id, row.provisioningTransactionId⟩ }] } } := by
  have hv := hw.valid
  have hdelivered (d : Nat) := delivered_publish hv ⟨id, row.provisioningTransactionId⟩ d
  have hentry {i : Nat} {e : StreamEntry ProvisionEvent}
      (he : (w.stream.entries ++ [{ event := ⟨id, row.provisioningTransactionId⟩ }])[i]? = some e) :
      w.stream.entries[i]? = some e ∨ i = w.stream.entries.length ∧ e = { event := ⟨id, row.provisioningTransactionId⟩ } := by
    rw [List.getElem?_append] at he
    split at he
    · exact .inl he
    · rw [List.getElem?_singleton] at he
      split at he
      · cases he
        exact .inr ⟨by omega, rfl⟩
      · cases he
  have hnew : (w.stream.entries ++ [{ event := ⟨id, row.provisioningTransactionId⟩ }])[w.stream.entries.length]? =
      some { event := ⟨id, row.provisioningTransactionId⟩ } := by
    rw [List.getElem?_append_right (Nat.le_refl _), Nat.sub_self]
    rfl
  refine ⟨fun x hx => ?_, fun i e he => ?_, fun id' row' hrow hdel => ?_, fun p hp => ?_, ?_, ?_, fun d i phase e row' hd hrow => ?_,
    fun d i e row' hd hrow => ?_, fun id' row' hrow ht => ?_, fun i e he => ?_⟩
  · exact Nat.lt_of_lt_of_le (hv x hx) (by simp)
  · rw [hconnections]
    rcases hentry he with he | ⟨-, rfl⟩
    · split
      · rename_i hid
        exact ⟨row, rfl, hknown i e he hid, hdeleted⟩
      · exact hw.known i e he
    · rw [if_pos rfl]
      exact ⟨row, rfl, rfl, hdeleted⟩
  · rw [hconnections] at hrow
    split at hrow
    · cases hrow
      exact hpassword
    · exact hw.password id' row' hrow hdel
  · obtain ⟨i, e, he, hk⟩ := hw.processed p hp
    exact ⟨i, e, (List.getElem?_append_left (List.getElem?_eq_some_iff.mp he).1).trans he, hk⟩
  · intro d d' x x' e e' hd hd'
    rw [hdelivered] at hd hd'
    exact hw.alone d d' x x' e e' hd hd'
  · intro d i phase e hd
    rw [hdelivered] at hd
    exact hw.running d i phase e hd
  · rw [hdelivered] at hd
    rw [hconnections] at hrow
    split at hrow
    · rename_i hid
      cases hrow
      exact hsound d i phase e hd hid
    · exact hw.sound d i phase e row' hd hrow
  · rw [hdelivered] at hd
    rw [hconnections] at hrow
    split at hrow
    · rename_i hid
      exact absurd hid (hended d i e hd)
    · exact hw.ended d i e row' hd hrow
  · rw [hconnections] at hrow
    split at hrow
    · rename_i hid
      subst hid
      refine ⟨w.stream.entries.length, ⟨_, hnew, rfl, by simp, hprocessed⟩, fun x hx hi => ?_⟩
      exact absurd (hv x hx) (by omega)
    · obtain ⟨j, ⟨e, he, hwait⟩, hdel⟩ := hw.waiting id' row' hrow ht
      exact ⟨j, ⟨e, (List.getElem?_append_left (List.getElem?_eq_some_iff.mp he).1).trans he, hwait⟩, hdel⟩
  · rcases hentry he with he | ⟨rfl, rfl⟩
    · refine (hw.attempted i e he).imp_right fun hu => ⟨hu.open_, hu.unprocessed, fun d x e' hd => ?_⟩
      rw [hdelivered] at hd
      exact hu.deliveries d x e' hd
    · refine .inr ⟨by simp, hprocessed, fun d x e' hd hx => ?_⟩
      rw [hdelivered] at hd
      exact absurd (hv x (List.mem_of_getElem? (StreamState.delivered_eq_some.1 hd).1)) (by omega)

/-- A connection that is not there, or is deleted, has no events. -/
theorem Attended.create_request (hw : w.Attended) {row : CopyTradingConnection} {connections : Connections} {transactions : Nat}
    (hfresh : ∀ row', w.connections.get? id = some row' → row'.state = .deleted)
    (hconnections : ∀ id', connections.get? id' = if id' = id then some row else w.connections.get? id')
    (hdeleted : row.state ≠ .deleted) (hpassword : row.hasPassword) :
    Attended { w with
      connections, transactions
      stream := { w.stream with entries := w.stream.entries ++ [{ event := ⟨id, row.provisioningTransactionId⟩ }] } } := by
  have hno {i : Nat} {e : StreamEntry ProvisionEvent} (he : w.stream.entries[i]? = some e) : e.event.connectionId ≠ id := by
    rintro rfl
    obtain ⟨row', hrow, -, hdel⟩ := hw.known i e he
    exact hdel (hfresh row' hrow)
  refine hw.request hconnections hdeleted hpassword (fun i e he hid => absurd hid (hno he))
    (fun d i phase e hd hid => absurd hid (hno (StreamState.delivered_eq_some.1 hd).2))
    (fun d i e hd => hno (StreamState.delivered_eq_some.1 hd).2) ?_
  by_contra hp
  rw [Bool.not_eq_false] at hp
  obtain ⟨p, hp, hk, -⟩ := StreamState.isProcessed_iff.1 hp
  obtain ⟨i, e, he, hek⟩ := hw.processed p hp
  exact hno he (congrArg Prod.fst (hek.trans hk))

section

variable [Unicode] {settings : ProvisioningSettings} {w' : ProvisioningState}

theorem Attended.create {userId : Uuid} {brokerLogin brokerServer : String} {published : Bool} (hw : w.Attended)
    (hp : published) (h : step settings w (.create id userId brokerLogin brokerServer published) = some w') : w'.Attended := by
  subst hp
  obtain ⟨⟨id', w₁⟩, hcreate, rfl⟩ := Option.map_eq_some_iff.mp h
  obtain ⟨⟨id₁, connections⟩, hc, he⟩ := Option.map_eq_some_iff.mp hcreate
  cases he
  obtain ⟨hdeleted, hrows⟩ := createCopyConnection_eq_some hc
  exact hw.create_request hdeleted hrows (by simp [submittedConnection]) rfl

omit [Unicode] in
theorem sound_of_retry {phase : ProvisioningPhase} {row row' : CopyTradingConnection} (h : retry row = some row')
    (hs : phase.Sound row) : phase.Sound row' := by
  unfold retry at h
  split at h
  · cases h
  · cases h
    cases phase with
    | begin loaded => exact ⟨hs.1, fun _ => rfl, hs.2.2⟩
    | request => rfl
    | create loaded => exact ⟨hs.1, rfl, hs.2.2⟩
    | deploy | synchronize => exact ⟨rfl, hs.2⟩
    | _ => exact hs

theorem Attended.retry {published : Bool} (hw : w.Attended) (ho : w.Orderly (.retry id published))
    (h : step settings w (.retry id published) = some w') : w'.Attended := by
  obtain ⟨hp, ho⟩ := ho
  subst hp
  obtain ⟨row', hretry, rfl⟩ := Option.map_eq_some_iff.mp h
  obtain ⟨row, hrow, hretry⟩ := Option.bind_eq_some_iff.mp hretry
  have hfacts : row'.state ≠ .deleted ∧ row'.hasPassword = row.hasPassword ∧
      row'.provisioningTransactionId = row.provisioningTransactionId ∧ row.state ≠ .deleted := by
    unfold ProvisioningState.retry at hretry
    split at hretry
    · cases hretry
    · rename_i hstate
      cases hretry
      exact ⟨by simp, rfl, rfl, fun hd => hstate (.inr hd)⟩
  obtain ⟨hdel', hpw, htid, hdel⟩ := hfacts
  have hsucceeded := ho row hrow
  have hid {i : Nat} {e : StreamEntry ProvisionEvent} (he : w.stream.entries[i]? = some e) (hid : e.event.connectionId = id) :
      row.provisioningTransactionId = e.event.transactionId := by
    obtain ⟨row₀, hrow₀, ht, -⟩ := hw.known i e he
    rw [hid, hrow] at hrow₀
    cases hrow₀
    exact ht
  refine hw.request (get?_modify_connection hrow) hdel' (hpw.trans (hw.password id row hrow hdel))
    (fun i e he hc => htid.trans (hid he hc)) (fun d i phase e hd hc => ?_) (fun d i e hd hc => hsucceeded (.inr ?_)) ?_
  · exact sound_of_retry hretry (hw.sound d i phase e row hd (hc ▸ hrow))
  · obtain ⟨hx, he⟩ := StreamState.delivered_eq_some.1 hd
    refine ⟨d, (List.getElem?_eq_some_iff.mp hx).1, ?_⟩
    rw [hd]
    exact Prod.ext hc (hid he hc).symm
  · rw [htid]
    by_contra hp
    rw [Bool.not_eq_false] at hp
    exact hsucceeded (.inl hp)

/-! ## Runs -/

omit [Unicode] in
theorem Attended.initial (connections : Connections) : Attended (ProvisioningState.initial settings connections) := by
  have hdeleted {id : Uuid} {row : CopyTradingConnection} (h : (ProvisioningState.initial settings connections).connections.get? id = some row) :
      row.state = .deleted := by
    rw [ProvisioningState.initial, Table.get?_mapRows] at h
    obtain ⟨row₀, -, rfl⟩ := Option.map_eq_some_iff.mp h
    rfl
  have hentries (i : Nat) : (ProvisioningState.initial settings connections).stream.entries[i]? = none := rfl
  have hdelivered (d : Nat) : (ProvisioningState.initial settings connections).stream.delivered d = none := rfl
  exact
    { valid := fun x hx => absurd hx List.not_mem_nil
      known := fun i e he => absurd he (by simp [hentries])
      password := fun id row hrow hd => absurd (hdeleted hrow) hd
      processed := fun p hp => absurd hp List.not_mem_nil
      alone := fun d d' x x' e e' hd => absurd hd (by simp [hdelivered])
      running := fun d i phase e hd => absurd hd (by simp [hdelivered])
      sound := fun d i phase e row hd => absurd hd (by simp [hdelivered])
      ended := fun d i e row hd => absurd hd (by simp [hdelivered])
      waiting := fun id row hrow ht => by rw [hdeleted hrow] at ht; cases ht
      attempted := fun i e he => absurd he (by simp [hentries]) }

theorem Attended.step {a : ProvisioningAction} (hw : w.Attended) (ho : w.Orderly a) (h : ProvisioningState.step settings w a = some w') :
    w'.Attended := by
  cases a with
  | create id userId brokerLogin brokerServer published => exact hw.create ho h
  | retry id published => exact hw.retry ho h
  | conclude d known marked => exact hw.conclude ho h
  | run d label => exact hw.run ho h
  | stream l =>
    have hstream (hp : ∀ event, l ≠ .publish event) (hc : ∀ d known, l ≠ .conclude d known)
        (h : ((w.stream.step ProvisionEvent.key (fun _ => .start) l).map fun stream =>
          { w with stream, attempted := w.attempted ++ w.takes l }) = some w') : w'.Attended := by
      obtain ⟨t, ht, rfl⟩ := Option.map_eq_some_iff.mp h
      exact hw.stream (StreamState.step_cases ht) hc hp
    cases l with
    | publish event => cases h
    | conclude d known => cases h
    | _ =>
      simp only [ProvisioningState.step] at h
      exact hstream (by simp) (by simp) h

/-- A connection none of whose events is in process is not in a transition, and
every event that is not in process has been taken up. -/
structure Converged (w : ProvisioningState) : Prop where
  settled : ∀ id row, w.connections.get? id = some row →
    (∀ (i : Nat) (e : StreamEntry ProvisionEvent), w.stream.entries[i]? = some e → e.event.connectionId = id → w.stream.inProcess i = false) →
    row.state.isTransitional = false
  attempted : ∀ i < w.stream.entries.length, w.stream.inProcess i = false → i ∈ w.attempted

omit [Unicode] in
theorem Attended.converged (hw : w.Attended) : w.Converged where
  settled id row hrow hidle := by
    by_contra ht
    rw [Bool.not_eq_false] at ht
    obtain ⟨i, ⟨e, he, hid, hopen, -⟩, -⟩ := hw.waiting id row hrow ht
    have hprocess : w.stream.inProcess i := StreamState.inProcess_iff.2 (.inl ⟨e, he, hopen⟩)
    exact absurd ((hidle i e he hid).symm.trans hprocess) (by simp)
  attempted i hi hidle := by
    obtain ⟨e, he⟩ : ∃ e, w.stream.entries[i]? = some e := ⟨_, List.getElem?_eq_getElem hi⟩
    refine (hw.attempted i e he).resolve_right fun hu => ?_
    rw [StreamState.inProcess_iff.2 (.inl ⟨e, he, hu.open_⟩)] at hidle
    cases hidle

/-- In an orderly run every connection converges. -/
theorem provisioning_converges {connections : Connections}
    (h : Reach (ProvisioningState.step settings) Orderly (ProvisioningState.initial settings connections) w) : w.Converged :=
  (h.invariant (Attended.initial connections) fun _ _ _ => Attended.step).converged

end

/-! ## A first attempt and a retry -/

/-- A run takes up its event, and MetaApi answers the request for an account. -/
def goldCreation (d : Nat) (response : CreateResponse) : List ProvisioningAction :=
  [.stream .read, .stream (.start d), .run d .lock, .run d .load, .run d .begin, .run d .reload, .run d (.created response)]

def goldConnection : ProvisioningAction := .create 0 1 "1001" "Gold-Live" true

def goldInformation : AccountInformation where
  login := "1001"
  server := "gold-live"
  tradeAllowed := true
  investorMode := false

/-- The first run is told to come back, and the one of the retry completes. -/
def goldProvisioned : List ProvisioningAction :=
  [goldConnection] ++ goldCreation 0 .accepted ++ [.conclude 0 true false, .retry 0 true] ++ goldCreation 1 (.created "gold") ++
    [.run 1 .reload, .run 1 (.deployed none), .run 1 (.connected none), .run 1 .reload, .run 1 (.acquired (.ok goldInformation)),
      .conclude 1 true false, .stream (.acknowledge 1), .stream (.tick (seconds 60)), .stream (.claim 0), .stream (.start 2)]

/-- The first run is refused, which concludes its event with a success. -/
def goldRefused : List ProvisioningAction :=
  [goldConnection] ++ goldCreation 0 (.rejected "E_AUTH" "" 400) ++
    [.conclude 0 true false, .stream (.acknowledge 0), .retry 0 true, .stream .read, .stream (.start 1)]

theorem provisioning_converges_goldProvisioned :
    let _ := Unicode.ascii
    ∃ w, Reach (ProvisioningState.step {}) Orderly (ProvisioningState.initial {} ∅) w ∧
      (w.connections.get? 0).map (·.state) = some .ready ∧ (∀ i < w.stream.entries.length, w.stream.inProcess i = false) ∧ w.Converged := by
  intro _
  have hrun : (runIf (ProvisioningState.step {}) Orderly (ProvisioningState.initial {} ∅) goldProvisioned).map (fun w =>
      decide ((w.connections.get? 0).map (·.state) = some .ready ∧ ∀ i < w.stream.entries.length, w.stream.inProcess i = false)) =
      some true := by decide +kernel
  obtain ⟨w, hw, hd⟩ := Option.map_eq_some_iff.mp hrun
  obtain ⟨hstate, hidle⟩ := of_decide_eq_true hd
  exact ⟨w, .of_runIf hw, hstate, hidle, provisioning_converges (.of_runIf hw)⟩

/-- The event of a retry after a refusal is dropped as a duplicate, and its connection
stays `provisioning`. -/
theorem retry_dropped :
    let _ := Unicode.ascii
    ∃ w, Reach (ProvisioningState.step {}) always (ProvisioningState.initial {} ∅) w ∧
      (w.connections.get? 0).map (·.state) = some .provisioning ∧
      (∀ i < w.stream.entries.length, w.stream.inProcess i = false) ∧ 1 < w.stream.entries.length ∧ 1 ∉ w.attempted ∧ ¬ w.Converged := by
  intro _
  have hrun : (run (ProvisioningState.step {}) (ProvisioningState.initial {} ∅) goldRefused).map (fun w =>
      decide ((w.connections.get? 0).map (·.state) = some .provisioning ∧
        (∀ i < w.stream.entries.length, w.stream.inProcess i = false) ∧ 1 < w.stream.entries.length ∧ 1 ∉ w.attempted)) =
      some true := by decide +kernel
  obtain ⟨w, hw, hd⟩ := Option.map_eq_some_iff.mp hrun
  obtain ⟨hstate, hidle, hlen, hdropped⟩ := of_decide_eq_true hd
  exact ⟨w, .of_run hw, hstate, hidle, hlen, hdropped, fun hc => hdropped (hc.attempted 1 hlen (hidle 1 hlen))⟩

end ProvisioningState

end Provisioning

end SignalSync
