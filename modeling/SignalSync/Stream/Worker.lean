import SignalSync.Delivery

/-!
# Streams and their workers

A Redis stream with one consumer group, and the `StreamWorker`s that read it.
An entry is delivered, and delivered again by `XAUTOCLAIM` once it has been idle
for five seconds, until it is acknowledged; `_process_message` drops an event
whose idempotency key has been processed, hands any other to the handler, and
concludes from the handler's result. Deliveries overlap, and any of them can end
at any point with its worker.

The events, their keys and the states of a handler at work are parameters.

* `inProcess_of_step`: only publishing brings an entry into process;
* `Sound.step`: an acknowledged event has what every processed event has, or is a
  dead letter.
-/

namespace SignalSync

/-- What the consumer group knows of an entry: never delivered, delivered (how
often, and when last), or acknowledged. -/
inductive EntryStatus
  | new
  | pending (timesDelivered : Nat) (deliveredAt : Time)
  | acked
deriving DecidableEq

structure StreamEntry (ε : Type) where
  event : ε
  status : EntryStatus := .new

/-- Where `_process_message` stands, and in `handle` where its handler does. -/
inductive DeliveryStage (ρ : Type)
  | check
  | handle (phase : ρ)
  | result (result : DeliveryResult)
  | acknowledge
  | done

/-- A message in the hands of a worker. -/
structure Delivery (ρ : Type) where
  entry : Nat
  stage : DeliveryStage ρ

/-- A `copy:processed` key, the event it was set for and when it expires. -/
structure ProcessedKey (κ ε : Type) where
  key : κ
  event : ε
  expires : Time

structure StreamState (κ ε ρ : Type) where
  /-- `StreamWorker.max_attempts`. -/
  maxAttempts : Nat := 2
  /-- `StreamWorker.retry_idle_ms`. -/
  retryIdle : Time := seconds 5
  now : Time := 0
  entries : List (StreamEntry ε) := []
  deliveries : List (Delivery ρ) := []
  processed : List (ProcessedKey κ ε) := []
  deadLetters : List ε := []

/-- How long a `copy:processed` key lives. -/
def processedSeconds : Nat := 604800

inductive StreamLabel (ε : Type)
  | publish (event : ε)
  /-- `XREADGROUP >`. -/
  | read
  /-- `XAUTOCLAIM` of an idle entry. -/
  | claim (entry : Nat)
  /-- `_process_message` looks for the event's key. -/
  | start (delivery : Nat)
  /-- It cannot, for an exception. -/
  | startFails (delivery : Nat) (errorCode : String)
  /-- What follows the handler's result, up to the acknowledgement; `XPENDING` may fail. -/
  | conclude (delivery : Nat) (pendingKnown : Bool)
  | acknowledge (delivery : Nat)
  /-- The delivery ends with its worker. -/
  | crash (delivery : Nat)
  | tick (duration : Time)

def DeliveryStage.isActive {ρ : Type} : DeliveryStage ρ → Bool
  | .done => false
  | _ => true

namespace StreamState

variable {κ ε ρ : Type}

def modifyEntry (s : StreamState κ ε ρ) (i : Nat) (status : EntryStatus) : StreamState κ ε ρ :=
  { s with entries := s.entries.modify i fun e => { e with status } }

def setStage (s : StreamState κ ε ρ) (d : Nat) (stage : DeliveryStage ρ) : StreamState κ ε ρ :=
  { s with deliveries := s.deliveries.modify d fun x => { x with stage } }

/-- Entry `i` goes to a worker, for the `n`-th time. -/
def deliver (s : StreamState κ ε ρ) (i n : Nat) : StreamState κ ε ρ :=
  { s.modifyEntry i (.pending n s.now) with deliveries := s.deliveries ++ [⟨i, .check⟩] }

/-- `XACK`, which ends the delivery. -/
def ack (s : StreamState κ ε ρ) (d i : Nat) : StreamState κ ε ρ := (s.modifyEntry i .acked).setStage d .done

/-- The delivery and its event. -/
def delivered (s : StreamState κ ε ρ) (d : Nat) : Option (Delivery ρ × StreamEntry ε) :=
  (s.deliveries[d]?).bind fun x => (s.entries[x.entry]?).map fun e => (x, e)

/-- Everything published so far. -/
def events (s : StreamState κ ε ρ) : List ε := s.entries.map (·.event)

/-- `_pending_attempts`. -/
def pendingAttempts (status : EntryStatus) (pendingKnown : Bool) : Nat :=
  match status with
  | .pending n _ => if pendingKnown then n else 1
  | _ => 1

/-- The result leaves its event a dead letter. -/
def isFinal (s : StreamState κ ε ρ) (status : EntryStatus) (pendingKnown : Bool) : DeliveryResult → Bool
  | .success => false
  | .retry _ => s.maxAttempts ≤ pendingAttempts status pendingKnown
  | .dead_letter _ => true

variable [DecidableEq κ] (key : ε → κ) (begin : ε → ρ)

/-- The key's processed record, while it lives. -/
def isProcessed (s : StreamState κ ε ρ) (k : κ) : Bool := s.processed.any fun p => p.key = k && s.now < p.expires

/-- What is done with a result. -/
def conclude (s : StreamState κ ε ρ) (d : Nat) (e : StreamEntry ε) (pendingKnown : Bool) :
    DeliveryResult → StreamState κ ε ρ
  | .success =>
    { s.setStage d .acknowledge with
      processed := s.processed ++ [⟨key e.event, e.event, s.now + seconds processedSeconds⟩] }
  | result =>
    if s.isFinal e.status pendingKnown result then
      { s.setStage d .acknowledge with deadLetters := s.deadLetters ++ [e.event] }
    else s.setStage d .done

/-- One step of the stream or of a worker, the handlers' own steps aside; `begin`
is where a handler starts on an event. -/
def step (s : StreamState κ ε ρ) : StreamLabel ε → Option (StreamState κ ε ρ)
  | .publish event => some { s with entries := s.entries ++ [{ event }] }
  | .read => (s.entries.findIdx? (·.status = .new)).map fun i => s.deliver i 1
  | .claim i =>
    match s.entries[i]? with
    | some ⟨_, .pending n deliveredAt⟩ => if deliveredAt + s.retryIdle ≤ s.now then some (s.deliver i (n + 1)) else none
    | _ => none
  | .start d =>
    match s.delivered d with
    | some (⟨i, .check⟩, e) =>
      some (if s.isProcessed (key e.event) then s.ack d i else s.setStage d (.handle (begin e.event)))
    | _ => none
  | .startFails d errorCode =>
    match s.delivered d with
    | some (⟨_, .check⟩, _) => some (s.setStage d (.result (.retry errorCode)))
    | _ => none
  | .conclude d pendingKnown =>
    match s.delivered d with
    | some (⟨_, .result result⟩, e) => some (s.conclude key d e pendingKnown result)
    | _ => none
  | .acknowledge d =>
    match s.delivered d with
    | some (⟨i, .acknowledge⟩, _) => some (s.ack d i)
    | _ => none
  | .crash d => some (s.setStage d .done)
  | .tick duration => some { s with now := s.now + duration }

/-- An entry that is not acknowledged, or that some worker is still at. -/
def inProcess (s : StreamState κ ε ρ) (i : Nat) : Bool :=
  (s.entries[i]?).any (·.status ≠ .acked) || s.deliveries.any fun x => x.entry = i && x.stage.isActive

/-! ## What a step can do -/

/-- The steps of a stream, guards included. -/
inductive Step (s : StreamState κ ε ρ) : StreamLabel ε → StreamState κ ε ρ → Prop
  | publish (event : ε) : Step s (.publish event) { s with entries := s.entries ++ [{ event }] }
  | deliver {l : StreamLabel ε} {i : Nat} {e : StreamEntry ε} (n : Nat) (hl : ∀ event, l ≠ .publish event)
      (he : s.entries[i]? = some e) (hs : e.status ≠ .acked) : Step s l (s.deliver i n)
  | drop {d i : Nat} {e : StreamEntry ε} (hd : s.delivered d = some (⟨i, .check⟩, e))
      (hp : s.isProcessed (key e.event)) : Step s (.start d) (s.ack d i)
  | handle {d i : Nat} {e : StreamEntry ε} (hd : s.delivered d = some (⟨i, .check⟩, e))
      (hp : s.isProcessed (key e.event) = false) : Step s (.start d) (s.setStage d (.handle (begin e.event)))
  | fail {d i : Nat} {e : StreamEntry ε} {errorCode : String} (hd : s.delivered d = some (⟨i, .check⟩, e)) :
      Step s (.startFails d errorCode) (s.setStage d (.result (.retry errorCode)))
  | success {d i : Nat} {e : StreamEntry ε} {known : Bool} (hd : s.delivered d = some (⟨i, .result .success⟩, e)) :
      Step s (.conclude d known)
        { s.setStage d .acknowledge with
          processed := s.processed ++ [⟨key e.event, e.event, s.now + seconds processedSeconds⟩] }
  | deadLetter {d i : Nat} {e : StreamEntry ε} {known : Bool} {r : DeliveryResult}
      (hd : s.delivered d = some (⟨i, .result r⟩, e)) (hr : s.isFinal e.status known r) :
      Step s (.conclude d known)
        { s.setStage d .acknowledge with deadLetters := s.deadLetters ++ [e.event] }
  | acknowledge {d i : Nat} {e : StreamEntry ε} (hd : s.delivered d = some (⟨i, .acknowledge⟩, e)) :
      Step s (.acknowledge d) (s.ack d i)
  /-- A retry to come, or a crash. -/
  | finish {d : Nat} {l : StreamLabel ε} (hl : l = .crash d ∨ ∃ known i e code, l = .conclude d known ∧
      s.delivered d = some (⟨i, .result (.retry code)⟩, e)) : Step s l (s.setStage d .done)
  | tick (duration : Time) : Step s (.tick duration) { s with now := s.now + duration }

variable {key begin} {s t : StreamState κ ε ρ} {l : StreamLabel ε}

theorem step_cases (h : s.step key begin l = some t) :
    Step key begin s l t := by
  cases l with
  | publish event => cases h; exact .publish event
  | read =>
    obtain ⟨i, hi, rfl⟩ := Option.map_eq_some_iff.mp h
    obtain ⟨hlt, hnew, -⟩ := List.findIdx?_eq_some_iff_getElem.mp hi
    exact .deliver 1 (by simp) (List.getElem?_eq_getElem hlt) (by simp_all)
  | claim i =>
    simp only [step] at h
    split at h
    · rename_i he
      split at h
      · cases h
        exact .deliver _ (by simp) he (by simp)
      · cases h
    · cases h
  | start d =>
    simp only [step] at h
    split at h
    · rename_i hd
      cases h
      split
      · rename_i hp
        exact .drop hd hp
      · rename_i hp
        exact .handle hd (by simpa using hp)
    · cases h
  | startFails d code =>
    simp only [step] at h
    split at h
    · rename_i hd
      cases h
      exact .fail hd
    · cases h
  | conclude d known =>
    simp only [step] at h
    split at h
    · rename_i result e hd
      cases h
      cases result with
      | success => exact .success hd
      | retry code =>
        simp only [conclude]
        split
        · exact .deadLetter hd (by assumption)
        · exact .finish (.inr ⟨_, _, _, _, rfl, hd⟩)
      | dead_letter code => exact .deadLetter hd rfl
    · cases h
  | acknowledge d =>
    simp only [step] at h
    split at h
    · rename_i hd
      cases h
      exact .acknowledge hd
    · cases h
  | crash d => cases h; exact .finish (.inl rfl)
  | tick duration => cases h; exact .tick duration

/-! ## Entries and deliveries -/

variable {i j d : Nat}

omit [DecidableEq κ] in
theorem delivered_eq_some {x : Delivery ρ} {e : StreamEntry ε} :
    s.delivered d = some (x, e) ↔ s.deliveries[d]? = some x ∧ s.entries[x.entry]? = some e := by
  simp only [delivered, Option.bind_eq_some_iff, Option.map_eq_some_iff, Prod.mk.injEq]
  exact ⟨fun ⟨_, hx, _, he, h, h'⟩ => h ▸ h' ▸ ⟨hx, he⟩, fun ⟨hx, he⟩ => ⟨x, hx, e, he, rfl, rfl⟩⟩

omit [DecidableEq κ] in
theorem entries_modifyEntry (status : EntryStatus) : (s.modifyEntry i status).entries[j]? =
    (s.entries[j]?).map fun e => if i = j then { e with status } else e := by
  rw [modifyEntry, List.getElem?_modify]
  rfl

omit [DecidableEq κ] in
theorem deliveries_setStage (stage : DeliveryStage ρ) : (s.setStage i stage).deliveries[j]? =
    (s.deliveries[j]?).map fun x => if i = j then { x with stage } else x := by
  rw [setStage, List.getElem?_modify]
  rfl

omit [DecidableEq κ] in
theorem inProcess_iff : s.inProcess i ↔ (∃ e : StreamEntry ε, s.entries[i]? = some e ∧ e.status ≠ .acked) ∨
    ∃ (d : Nat) (x : Delivery ρ), s.deliveries[d]? = some x ∧ x.entry = i ∧ x.stage.isActive := by
  simp only [inProcess, Bool.or_eq_true, Option.any_eq_true, decide_eq_true_eq, List.any_eq_true, Bool.and_eq_true,
    List.mem_iff_getElem?]
  exact or_congr_right ⟨fun ⟨x, ⟨d, hd⟩, h⟩ => ⟨d, x, hd, h⟩, fun ⟨d, x, hd, h⟩ => ⟨x, ⟨d, hd⟩, h⟩⟩

omit [DecidableEq κ] in
theorem inProcess_of_delivered {x : Delivery ρ} {e : StreamEntry ε} (h : s.delivered d = some (x, e))
    (ha : x.stage.isActive) : s.inProcess x.entry :=
  inProcess_iff.2 (.inr ⟨d, x, (delivered_eq_some.1 h).1, rfl, ha⟩)

omit [DecidableEq κ] in
theorem inProcess_of_setStage {stage : DeliveryStage ρ} (h : (s.setStage d stage).inProcess i)
    (ha : stage.isActive → ∀ x, s.deliveries[d]? = some x → x.stage.isActive) : s.inProcess i := by
  rcases inProcess_iff.1 h with h | ⟨d', x', hx', he, hs⟩
  · exact inProcess_iff.2 (.inl h)
  · rw [deliveries_setStage] at hx'
    obtain ⟨x, hx, rfl⟩ := Option.map_eq_some_iff.mp hx'
    by_cases hd : d = d'
    · subst hd
      rw [if_pos rfl] at he hs
      exact inProcess_iff.2 (.inr ⟨d, x, hx, he, ha hs x hx⟩)
    · rw [if_neg hd] at he hs
      exact inProcess_iff.2 (.inr ⟨d', x, hx, he, hs⟩)

omit [DecidableEq κ] in
theorem inProcess_setStage_of_active {stage : DeliveryStage ρ} {x : Delivery ρ} {e : StreamEntry ε}
    (hd : s.delivered d = some (x, e)) (ha : x.stage.isActive) (h : (s.setStage d stage).inProcess i) : s.inProcess i :=
  inProcess_of_setStage h fun _ x' hx' => by
    cases (delivered_eq_some.1 hd).1.symm.trans hx'
    exact ha

omit [DecidableEq κ] in
theorem inProcess_of_modifyEntry {status : EntryStatus} (h : (s.modifyEntry j status).inProcess i)
    (ha : status ≠ .acked → ∀ e, s.entries[j]? = some e → e.status ≠ .acked) : s.inProcess i := by
  rcases inProcess_iff.1 h with ⟨e', he', hs⟩ | h
  · rw [entries_modifyEntry] at he'
    obtain ⟨e, he, rfl⟩ := Option.map_eq_some_iff.mp he'
    by_cases hj : j = i
    · subst hj
      rw [if_pos rfl] at hs
      exact inProcess_iff.2 (.inl ⟨e, he, ha hs e he⟩)
    · rw [if_neg hj] at hs
      exact inProcess_iff.2 (.inl ⟨e, he, hs⟩)
  · exact inProcess_iff.2 (.inr h)

omit [DecidableEq κ] in
/-- A delivery of an entry that is not acknowledged. -/
theorem inProcess_of_deliver {n : Nat} {e : StreamEntry ε} (he : s.entries[j]? = some e) (hs : e.status ≠ .acked)
    (h : (s.deliver j n).inProcess i) : s.inProcess i := by
  have hj : s.inProcess j := inProcess_iff.2 (.inl ⟨e, he, hs⟩)
  have hmod : (s.modifyEntry j (.pending n s.now)).inProcess i → s.inProcess i := fun h =>
    inProcess_of_modifyEntry h fun _ e' he' => by cases he.symm.trans he'; exact hs
  rcases inProcess_iff.1 h with h | ⟨d, x, hx, hxi, ha⟩
  · exact hmod (inProcess_iff.2 (.inl h))
  · simp only [deliver, List.getElem?_append] at hx
    split at hx
    · exact hmod (inProcess_iff.2 (.inr ⟨d, x, hx, hxi, ha⟩))
    · rw [List.getElem?_singleton] at hx
      split at hx
      · cases hx
        exact hxi ▸ hj
      · cases hx

/-- Only publishing brings an entry into process. -/
theorem inProcess_of_step (h : Step key begin s l t) (hi : t.inProcess i) :
    s.inProcess i ∨ ∃ event, l = .publish event ∧ i = s.entries.length := by
  cases h with
  | publish event =>
    rcases inProcess_iff.1 hi with ⟨e, he, hs⟩ | h
    · simp only [List.getElem?_append] at he
      split at he
      · exact .inl (inProcess_iff.2 (.inl ⟨e, he, hs⟩))
      · rw [List.getElem?_singleton] at he
        split at he
        · exact .inr ⟨event, rfl, by omega⟩
        · cases he
    · exact .inl (inProcess_iff.2 (.inr h))
  | deliver n hl he hs => exact .inl (inProcess_of_deliver he hs hi)
  | drop hd hp => exact .inl (inProcess_of_modifyEntry (inProcess_of_setStage hi nofun) (absurd rfl))
  | handle hd hp => exact .inl (inProcess_setStage_of_active hd rfl hi)
  | fail hd => exact .inl (inProcess_setStage_of_active hd rfl hi)
  | success hd => exact .inl (inProcess_setStage_of_active hd rfl hi)
  | deadLetter hd hr => exact .inl (inProcess_setStage_of_active hd rfl hi)
  | acknowledge hd => exact .inl (inProcess_of_modifyEntry (inProcess_of_setStage hi nofun) (absurd rfl))
  | finish hl => exact .inl (inProcess_of_setStage hi nofun)
  | tick duration => exact .inl hi

/-- An entry and its event were there before, or are published. -/
theorem entry_of_step (h : Step key begin s l t) {e' : StreamEntry ε} (he : t.entries[i]? = some e') :
    (∃ e, s.entries[i]? = some e ∧ e.event = e'.event) ∨
      ∃ event, l = .publish event ∧ i = s.entries.length ∧ e' = { event } := by
  have hmod {j : Nat} {status : EntryStatus} (he : (s.modifyEntry j status).entries[i]? = some e') :
      ∃ e, s.entries[i]? = some e ∧ e.event = e'.event := by
    rw [entries_modifyEntry] at he
    obtain ⟨e, he₀, rfl⟩ := Option.map_eq_some_iff.mp he
    exact ⟨e, he₀, by split <;> rfl⟩
  cases h with
  | publish event =>
    rw [List.getElem?_append] at he
    split at he
    · exact .inl ⟨e', he, rfl⟩
    · rw [List.getElem?_singleton] at he
      split at he
      · cases he
        exact .inr ⟨event, rfl, by omega, rfl⟩
      · cases he
  | deliver n hl _ hs => exact .inl (hmod he)
  | drop hd hp => exact .inl (hmod he)
  | acknowledge hd => exact .inl (hmod he)
  | handle | fail | success | deadLetter | finish | tick => exact .inl ⟨e', he, rfl⟩

omit [DecidableEq κ] in
theorem events_modifyEntry (status : EntryStatus) : (s.modifyEntry j status).events = s.events := by
  refine List.ext_getElem? fun i => ?_
  rw [events, events, List.getElem?_map, List.getElem?_map, entries_modifyEntry, Option.map_map]
  congr 1
  funext e
  simp only [Function.comp]
  split <;> rfl

omit [DecidableEq κ] in
theorem mem_events {e : StreamEntry ε} (he : s.entries[i]? = some e) : e.event ∈ s.events :=
  List.mem_map_of_mem (List.mem_of_getElem? he)

/-- An entry stays where it is. -/
theorem entry_step (h : Step key begin s l t) {e : StreamEntry ε} (he : s.entries[i]? = some e) :
    ∃ e', t.entries[i]? = some e' ∧ e'.event = e.event := by
  have hmod {j : Nat} (status : EntryStatus) : ∃ e', (s.modifyEntry j status).entries[i]? = some e' ∧ e'.event = e.event := by
    rw [entries_modifyEntry, he]
    exact ⟨_, rfl, by split <;> rfl⟩
  cases h with
  | publish event => exact ⟨e, (List.getElem?_append_left (List.getElem?_eq_some_iff.mp he).1).trans he, rfl⟩
  | deliver | drop | acknowledge => exact hmod _
  | handle | fail | success | deadLetter | finish | tick => exact ⟨e, he, rfl⟩

/-- Nothing but publishing changes what is published. -/
theorem events_of_step (h : Step key begin s l t) :
    t.events = s.events ∨ ∃ event, l = .publish event ∧ t.events = s.events ++ [event] := by
  cases h with
  | publish event => exact .inr ⟨event, rfl, List.map_append⟩
  | @deliver l i e n => exact .inl (events_modifyEntry (s := s) (j := i) (.pending n s.now))
  | @drop d i => exact .inl (events_modifyEntry (s := s) (j := i) .acked)
  | @acknowledge d i => exact .inl (events_modifyEntry (s := s) (j := i) .acked)
  | handle | fail | success | deadLetter | finish | tick => exact .inl rfl

/-- What is published stays published. -/
theorem mem_events_of_step (h : Step key begin s l t) {event : ε} (he : event ∈ s.events) : event ∈ t.events := by
  rcases events_of_step h with hs | ⟨event', -, hs⟩ <;> rw [hs]
  · exact he
  · exact List.mem_append_left _ he

/-- Where a delivery can be after a step that had it at `stage`. -/
def StageStep (key : ε → κ) (begin : ε → ρ) (s t : StreamState κ ε ρ) (event : ε) (stage stage' : DeliveryStage ρ) : Prop :=
  stage' = stage ∨ stage' = .done ∨
    (stage = .check ∧ (stage' = .handle (begin event) ∧ s.isProcessed (key event) = false ∨
      ∃ code, stage' = .result (.retry code))) ∨
    ∃ r, stage = .result r ∧ stage' = .acknowledge ∧ (r = .success ∨ event ∈ t.deadLetters)

/-- Every delivery's entry is there. -/
def Valid (s : StreamState κ ε ρ) : Prop := ∀ x ∈ s.deliveries, x.entry < s.entries.length

omit [DecidableEq κ] in
theorem delivered_setStage {stage : DeliveryStage ρ} {x' : Delivery ρ} {e : StreamEntry ε}
    (h : (s.setStage d stage).delivered i = some (x', e)) :
    ∃ x, s.delivered i = some (x, e) ∧ x' = if d = i then { x with stage } else x := by
  obtain ⟨hx, he⟩ := delivered_eq_some.1 h
  rw [deliveries_setStage] at hx
  obtain ⟨x, hx₀, rfl⟩ := Option.map_eq_some_iff.mp hx
  refine ⟨x, delivered_eq_some.2 ⟨hx₀, ?_⟩, rfl⟩
  split at he <;> exact he

omit [DecidableEq κ] in
theorem delivered_modifyEntry {status : EntryStatus} {x : Delivery ρ} {e' : StreamEntry ε}
    (h : (s.modifyEntry j status).delivered i = some (x, e')) : ∃ e, s.delivered i = some (x, e) ∧ e.event = e'.event := by
  obtain ⟨hx, he⟩ := delivered_eq_some.1 h
  rw [entries_modifyEntry] at he
  obtain ⟨e, he₀, rfl⟩ := Option.map_eq_some_iff.mp he
  exact ⟨e, delivered_eq_some.2 ⟨hx, he₀⟩, by split <;> rfl⟩

/-- A delivery was there before, one stage back at most, or is new. -/
theorem delivered_of_step (h : Step key begin s l t) (hv : s.Valid) {x' : Delivery ρ} {e' : StreamEntry ε}
    (hd : t.delivered i = some (x', e')) :
    (∃ x e, s.delivered i = some (x, e) ∧ x.entry = x'.entry ∧ e.event = e'.event ∧
      StageStep key begin s t e.event x.stage x'.stage) ∨ x'.stage = .check := by
  have hset {d : Nat} {stage : DeliveryStage ρ} (hd' : (s.setStage d stage).delivered i = some (x', e'))
      (hstep : ∀ x e, s.delivered d = some (x, e) → StageStep key begin s t e.event x.stage stage) :
      ∃ x e, s.delivered i = some (x, e) ∧ x.entry = x'.entry ∧ e.event = e'.event ∧
        StageStep key begin s t e.event x.stage x'.stage := by
    obtain ⟨x, hx, rfl⟩ := delivered_setStage hd'
    refine ⟨x, e', hx, ?_, rfl, ?_⟩
    · split <;> rfl
    · split
      · rename_i hdi
        exact hstep x e' (hdi ▸ hx)
      · exact .inl rfl
  have hack {d j : Nat} (hd' : (s.ack d j).delivered i = some (x', e')) :
      ∃ x e, s.delivered i = some (x, e) ∧ x.entry = x'.entry ∧ e.event = e'.event ∧
        StageStep key begin s t e.event x.stage x'.stage := by
    obtain ⟨x, hx, rfl⟩ := delivered_setStage hd'
    obtain ⟨e, he, hev⟩ := delivered_modifyEntry hx
    refine ⟨x, e, he, ?_, hev, ?_⟩
    · split <;> rfl
    · split
      · exact .inr (.inl rfl)
      · exact .inl rfl
  cases h with
  | publish event =>
    obtain ⟨hx, he⟩ := delivered_eq_some.1 hd
    rw [List.getElem?_append_left (hv x' (List.mem_of_getElem? hx))] at he
    exact .inl ⟨x', e', delivered_eq_some.2 ⟨hx, he⟩, rfl, rfl, .inl rfl⟩
  | @deliver l j e n hl he hs =>
    obtain ⟨hx, he'⟩ := delivered_eq_some.1 hd
    simp only [deliver, List.getElem?_append] at hx
    split at hx
    · obtain ⟨e₀, he₀, hev⟩ := delivered_modifyEntry (j := j) (delivered_eq_some.2 ⟨hx, he'⟩)
      exact .inl ⟨x', e₀, he₀, rfl, hev, .inl rfl⟩
    · rw [List.getElem?_singleton] at hx
      split at hx
      · cases hx
        exact .inr rfl
      · cases hx
  | drop hd' hp => exact .inl (hack hd)
  | acknowledge hd' => exact .inl (hack hd)
  | handle hd' hp =>
    exact .inl (hset hd fun x e hx => by cases hd'.symm.trans hx; exact .inr (.inr (.inl ⟨rfl, .inl ⟨rfl, hp⟩⟩)))
  | fail hd' =>
    exact .inl (hset hd fun x e hx => by cases hd'.symm.trans hx; exact .inr (.inr (.inl ⟨rfl, .inr ⟨_, rfl⟩⟩)))
  | success hd' =>
    exact .inl (hset hd fun x e hx => by cases hd'.symm.trans hx; exact .inr (.inr (.inr ⟨_, rfl, rfl, .inl rfl⟩)))
  | deadLetter hd' hr =>
    refine .inl (hset hd fun x e hx => ?_)
    cases hd'.symm.trans hx
    exact .inr (.inr (.inr ⟨_, rfl, rfl, .inr (List.mem_append_right _ (List.mem_singleton_self _))⟩))
  | finish hl => exact .inl (hset hd fun _ _ _ => .inr (.inl rfl))
  | tick duration => exact .inl ⟨x', e', hd, rfl, rfl, .inl rfl⟩

/-- A delivery about to acknowledge was so before, or is concluded. -/
theorem acknowledge_of_step (h : Step key begin s l t) (hv : s.Valid) {e' : StreamEntry ε}
    (hd : t.delivered d = some (⟨i, .acknowledge⟩, e')) :
    (∃ e, s.delivered d = some (⟨i, .acknowledge⟩, e) ∧ e.event = e'.event) ∨
      ∃ known r e, l = .conclude d known ∧ s.delivered d = some (⟨i, .result r⟩, e) ∧ e.event = e'.event ∧
        (r = .success ∨ s.isFinal e.status known r) := by
  rcases delivered_of_step h hv hd with ⟨⟨i₀, stage⟩, e, hd₀, hi, hev, hst⟩ | hst
  · simp only at hi
    subst hi
    rcases hst with hst | hst | ⟨-, ⟨hst, -⟩ | ⟨code, hst⟩⟩ | ⟨r, hr, -, -⟩ <;> simp only at *
    · subst hst
      exact .inl ⟨e, hd₀, hev⟩
    · cases hst
    · cases hst
    · cases hst
    · subst hr
      have hx := (delivered_eq_some.1 hd).1
      have hx₀ := (delivered_eq_some.1 hd₀).1
      have hset {d' : Nat} {stage : DeliveryStage ρ} (h : (s.setStage d' stage).deliveries[d]? = some ⟨i₀, .acknowledge⟩) :
          d' = d ∧ stage = .acknowledge := by
        rw [deliveries_setStage, hx₀, Option.map_some] at h
        split at h
        · exact ⟨by assumption, (Delivery.mk.inj (Option.some.inj h)).2⟩
        · cases h
      refine .inr ?_
      cases h with
      | publish | tick => cases hx₀.symm.trans hx
      | deliver =>
        rw [deliver, List.getElem?_append_left (List.getElem?_eq_some_iff.mp hx₀).1] at hx
        cases hx₀.symm.trans hx
      | drop | acknowledge | handle | fail | finish => cases (hset hx).2
      | success hd' =>
        obtain ⟨rfl, -⟩ := hset hx
        exact ⟨_, r, e, rfl, hd₀, hev, .inl (by cases hd'.symm.trans hd₀; rfl)⟩
      | deadLetter hd' hf =>
        obtain ⟨rfl, -⟩ := hset hx
        cases hd'.symm.trans hd₀
        exact ⟨_, r, e, rfl, hd₀, hev, .inr hf⟩
  · cases hst

omit [DecidableEq κ] in
theorem delivered_setStage_of_ne {stage : DeliveryStage ρ} (hne : d ≠ i) {x : Delivery ρ} {e : StreamEntry ε}
    (h : s.delivered i = some (x, e)) : (s.setStage d stage).delivered i = some (x, e) := by
  obtain ⟨hx, he⟩ := delivered_eq_some.1 h
  exact delivered_eq_some.2 ⟨by rw [deliveries_setStage, hx, Option.map_some, if_neg hne], he⟩

omit [DecidableEq κ] in
theorem delivered_modifyEntry_of {status : EntryStatus} {x : Delivery ρ} {e : StreamEntry ε}
    (h : s.delivered i = some (x, e)) : ∃ e', (s.modifyEntry j status).delivered i = some (x, e') ∧ e'.event = e.event := by
  obtain ⟨hx, he⟩ := delivered_eq_some.1 h
  refine ⟨_, delivered_eq_some.2 ⟨hx, by rw [entries_modifyEntry, he, Option.map_some]⟩, ?_⟩
  split <;> rfl

/-- A run of the handler is left alone, unless it ends with its worker. -/
theorem handled_of_step (h : Step key begin s l t) {phase : ρ} {e : StreamEntry ε}
    (hd : s.delivered i = some (⟨j, .handle phase⟩, e)) (hl : l ≠ .crash i) :
    ∃ e', t.delivered i = some (⟨j, .handle phase⟩, e') ∧ e'.event = e.event := by
  have hset {d : Nat} {x : Delivery ρ} {e₀ : StreamEntry ε} {stage : DeliveryStage ρ} (hd₀ : s.delivered d = some (x, e₀))
      (hx : ∀ phase, x.stage ≠ .handle phase) :
      ∃ e', (s.setStage d stage).delivered i = some (⟨j, .handle phase⟩, e') ∧ e'.event = e.event := by
    refine ⟨e, delivered_setStage_of_ne (fun hdi => ?_) hd, rfl⟩
    subst hdi
    cases hd₀.symm.trans hd
    exact hx phase rfl
  have hack {d k : Nat} {x : Delivery ρ} {e₀ : StreamEntry ε} (hd₀ : s.delivered d = some (x, e₀))
      (hx : ∀ phase, x.stage ≠ .handle phase) :
      ∃ e', (s.ack d k).delivered i = some (⟨j, .handle phase⟩, e') ∧ e'.event = e.event := by
    obtain ⟨e', he', hev⟩ : ∃ e', (s.modifyEntry k .acked).delivered i = some (_, e') ∧ e'.event = e.event :=
      delivered_modifyEntry_of hd
    refine ⟨e', delivered_setStage_of_ne (fun hdi => ?_) he', hev⟩
    subst hdi
    cases hd₀.symm.trans hd
    exact hx phase rfl
  cases h with
  | publish event =>
    obtain ⟨hx, he⟩ := delivered_eq_some.1 hd
    refine ⟨e, delivered_eq_some.2 ⟨hx, ?_⟩, rfl⟩
    rw [List.getElem?_append_left (List.getElem?_eq_some_iff.mp he).1]
    exact he
  | @deliver l k e₀ n hl he₀ hs =>
    obtain ⟨e', he', hev⟩ : ∃ e', (s.modifyEntry k (.pending n s.now)).delivered i = some (_, e') ∧ e'.event = e.event :=
      delivered_modifyEntry_of hd
    obtain ⟨hx, he⟩ := delivered_eq_some.1 he'
    exact ⟨e', delivered_eq_some.2 ⟨(List.getElem?_append_left (List.getElem?_eq_some_iff.mp hx).1).trans hx, he⟩, hev⟩
  | drop hd₀ => exact hack hd₀ (by simp)
  | acknowledge hd₀ => exact hack hd₀ (by simp)
  | handle hd₀ => exact hset hd₀ (by simp)
  | fail hd₀ => exact hset hd₀ (by simp)
  | success hd₀ => exact hset hd₀ (by simp)
  | deadLetter hd₀ => exact hset hd₀ (by simp)
  | @finish d _ hl₀ =>
    rcases hl₀ with rfl | ⟨known, k, e₀, code, rfl, hd₀⟩
    · exact ⟨e, delivered_setStage_of_ne (fun hdi => hl (by rw [hdi])) hd, rfl⟩
    · exact hset hd₀ (by simp)
  | tick => exact ⟨e, hd, rfl⟩

omit [DecidableEq κ] in
theorem Valid.setStage (hv : s.Valid) (d : Nat) (stage : DeliveryStage ρ) : (s.setStage d stage).Valid := by
  intro x hx
  obtain ⟨i, hi⟩ := List.mem_iff_getElem?.mp hx
  rw [deliveries_setStage] at hi
  obtain ⟨x₀, hx₀, rfl⟩ := Option.map_eq_some_iff.mp hi
  have := hv x₀ (List.mem_of_getElem? hx₀)
  split <;> exact this

theorem Valid.step (hv : s.Valid) (h : Step key begin s l t) : t.Valid := by
  cases h with
  | publish event => exact fun x hx => Nat.lt_of_lt_of_le (hv x hx) (by simp)
  | deliver n hl he hs =>
    intro x hx
    rw [deliver, modifyEntry, List.length_modify]
    rcases List.mem_append.mp hx with hx | hx
    · exact hv x hx
    · rw [List.mem_singleton.mp hx]
      exact (List.getElem?_eq_some_iff.mp he).1
  | drop hd hp => exact fun x hx => by simpa [ack, StreamState.setStage, modifyEntry] using hv.setStage _ _ x hx
  | acknowledge hd => exact fun x hx => by simpa [ack, StreamState.setStage, modifyEntry] using hv.setStage _ _ x hx
  | handle | fail | success | deadLetter | finish => exact hv.setStage _ _
  | tick duration => exact hv

/-- An entry is acknowledged once its event is dropped, or after its conclusion. -/
theorem acked_of_step (h : Step key begin s l t) {e' : StreamEntry ε} (he : t.entries[i]? = some e')
    (ha : e'.status = .acked) :
    ∃ e, s.entries[i]? = some e ∧ e.event = e'.event ∧ (e.status = .acked ∨
      ∃ d x, s.delivered d = some (x, e) ∧ x.entry = i ∧
        (x.stage = .acknowledge ∨ x.stage = .check ∧ s.isProcessed (key e.event))) := by
  have hack {d j : Nat} {x : Delivery ρ} {e : StreamEntry ε} (hd : s.delivered d = some (x, e)) (hj : x.entry = j)
      (hs : x.stage = .acknowledge ∨ x.stage = .check ∧ s.isProcessed (key e.event))
      (he : (s.ack d j).entries[i]? = some e') :
      ∃ e, s.entries[i]? = some e ∧ e.event = e'.event ∧ (e.status = .acked ∨
        ∃ d x, s.delivered d = some (x, e) ∧ x.entry = i ∧
          (x.stage = .acknowledge ∨ x.stage = .check ∧ s.isProcessed (key e.event))) := by
    have he : (s.modifyEntry j .acked).entries[i]? = some e' := he
    rw [entries_modifyEntry] at he
    obtain ⟨e₀, he₀, rfl⟩ := Option.map_eq_some_iff.mp he
    by_cases hji : j = i
    · have : e₀ = e := Option.some.inj (he₀.symm.trans (hji ▸ hj ▸ (delivered_eq_some.1 hd).2))
      subst this
      exact ⟨e₀, he₀, by split <;> rfl, .inr ⟨d, x, hd, hj.trans hji, hs⟩⟩
    · rw [if_neg hji] at ha ⊢
      exact ⟨e₀, he₀, rfl, .inl ha⟩
  cases h with
  | publish event =>
    rw [List.getElem?_append] at he
    split at he
    · exact ⟨e', he, rfl, .inl ha⟩
    · rw [List.getElem?_singleton] at he
      split at he
      · cases he
        cases ha
      · cases he
  | @deliver l j e n hl hej hs =>
    have he : (s.modifyEntry j (.pending n s.now)).entries[i]? = some e' := he
    rw [entries_modifyEntry] at he
    obtain ⟨e₀, he₀, rfl⟩ := Option.map_eq_some_iff.mp he
    split at ha
    · cases ha
    · exact ⟨e₀, he₀, by split <;> rfl, .inl ha⟩
  | drop hd hp => exact hack hd rfl (.inr ⟨rfl, hp⟩) he
  | acknowledge hd => exact hack hd rfl (.inl rfl) he
  | handle | fail | success | deadLetter | finish | tick => exact ⟨e', he, rfl, .inl ha⟩

omit [DecidableEq κ] in
theorem Valid.lt_length (hv : s.Valid) (hi : s.inProcess i) : i < s.entries.length := by
  rcases inProcess_iff.1 hi with ⟨e, he, -⟩ | ⟨d, x, hx, rfl, -⟩
  · exact (List.getElem?_eq_some_iff.mp he).1
  · exact hv x (List.mem_of_getElem? hx)

/-- An entry in process was so before, or is published. -/
theorem inProcess_entry_of_step (h : Step key begin s l t) {e' : StreamEntry ε} (he : t.entries[i]? = some e')
    (hi : t.inProcess i) :
    (∃ e, s.entries[i]? = some e ∧ e.event = e'.event ∧ s.inProcess i) ∨ l = .publish e'.event ∧ i = s.entries.length := by
  rcases entry_of_step h he with ⟨e, he, hev⟩ | ⟨event, hl, hlen, rfl⟩
  · rcases inProcess_of_step h hi with hi | ⟨-, -, hlen⟩
    · exact .inl ⟨e, he, hev, hi⟩
    · exact absurd (List.getElem?_eq_some_iff.mp he).1 (by omega)
  · exact .inr ⟨hl, hlen⟩

theorem deadLetters_of_step (h : Step key begin s l t) {event : ε} (he : event ∈ s.deadLetters) : event ∈ t.deadLetters := by
  cases h with
  | deadLetter => exact List.mem_append_left _ he
  | _ => exact he

theorem processed_of_step (h : Step key begin s l t) {p : ProcessedKey κ ε} (hp : p ∈ t.processed) :
    p ∈ s.processed ∨ ∃ d known i e, l = .conclude d known ∧ s.delivered d = some (⟨i, .result .success⟩, e) ∧
      p.key = key e.event ∧ p.event = e.event := by
  cases h with
  | success hd =>
    rcases List.mem_append.mp hp with hp | hp
    · exact .inl hp
    · rw [List.mem_singleton.mp hp]
      exact .inr ⟨_, _, _, _, rfl, hd, rfl, rfl⟩
  | _ => exact .inl hp

theorem now_le_of_step (h : Step key begin s l t) : s.now ≤ t.now := by
  cases h with
  | tick duration => exact Nat.le_add_right _ _
  | _ => exact Nat.le_refl _

/-! ## What acknowledged events have in common -/

/-- `Good` holds of every event whose handler has succeeded, and of every event
in process whose key is remembered; what is acknowledged is good or dead. -/
structure Sound (key : ε → κ) (Good : ε → Prop) (s : StreamState κ ε ρ) : Prop where
  valid : s.Valid
  processed : ∀ p ∈ s.processed, s.now < p.expires → ∀ (i : Nat) (e : StreamEntry ε), s.entries[i]? = some e → s.inProcess i →
    key e.event = p.key → Good e.event
  finished : ∀ d x e, s.delivered d = some (x, e) → x.stage = .result .success → Good e.event
  acknowledged : ∀ d x e, s.delivered d = some (x, e) → x.stage = .acknowledge → Good e.event ∨ e.event ∈ s.deadLetters
  acked : ∀ (i : Nat) (e : StreamEntry ε), s.entries[i]? = some e → e.status = .acked → Good e.event ∨ e.event ∈ s.deadLetters

theorem isProcessed_iff {k : κ} : s.isProcessed k ↔ ∃ p ∈ s.processed, p.key = k ∧ s.now < p.expires := by
  simp [isProcessed]

variable {Good : ε → Prop}

/-- An event that is dropped is good. -/
theorem Sound.dropped (hs : s.Sound key Good) {x : Delivery ρ} {e : StreamEntry ε} (hd : s.delivered d = some (x, e))
    (hx : x.stage = .check) (hp : s.isProcessed (key e.event)) : Good e.event := by
  obtain ⟨p, hp, hk, hn⟩ := isProcessed_iff.1 hp
  exact hs.processed p hp hn x.entry e (delivered_eq_some.1 hd).2 (inProcess_of_delivered hd (by rw [hx]; rfl)) hk.symm

/-- A step of the stream keeps it sound, if events in process are good once one of
their key has succeeded, and one published under a remembered key is good. -/
theorem Sound.step (hs : s.Sound key Good) (h : Step key begin s l t)
    (hsame : ∀ (d : Nat) (known : Bool) (i j : Nat) (e e' : StreamEntry ε), l = .conclude d known →
      s.delivered d = some (⟨i, .result .success⟩, e) → s.entries[j]? = some e' → s.inProcess j →
      key e.event = key e'.event → Good e'.event)
    (hpublish : ∀ event, l = .publish event → s.isProcessed (key event) → Good event) : t.Sound key Good := by
  refine ⟨hs.valid.step h, fun p hp hn i e' he' hi hk => ?_, fun d x' e' hd hx => ?_, fun d x' e' hd hx => ?_,
    fun i e' he' ha => ?_⟩
  · have hn := Nat.lt_of_le_of_lt (now_le_of_step h) hn
    rcases inProcess_of_step h hi with hin | ⟨event, rfl, hlen⟩
    · rcases entry_of_step h he' with ⟨e, he, hev⟩ | ⟨-, -, hlen, -⟩
      · rw [← hev] at hk ⊢
        rcases processed_of_step h hp with hp | ⟨d, known, j, e₀, hl, hd, hpk, -⟩
        · exact hs.processed p hp hn i e he hin hk
        · exact hsame d known j i e₀ e hl hd he hin (hpk.symm.trans hk.symm)
      · exact absurd (hs.valid.lt_length hin) (by omega)
    · have hp : p ∈ s.processed := by
        cases h with
        | publish => exact hp
        | deliver _ hl => exact absurd rfl (hl event)
        | finish hl => rcases hl with hl | ⟨_, _, _, _, hl, _⟩ <;> cases hl
      rcases entry_of_step h he' with ⟨e, he, -⟩ | ⟨event', hl, -, rfl⟩
      · exact absurd (List.getElem?_eq_some_iff.mp he).1 (by omega)
      · cases hl
        exact hpublish event rfl (isProcessed_iff.2 ⟨p, hp, hk.symm, hn⟩)
  · rcases delivered_of_step h hs.valid hd with ⟨x, e, hd, -, hev, hstep⟩ | hc
    · rw [← hev]
      rcases hstep with hst | hst | ⟨-, ⟨hst, -⟩ | ⟨code, hst⟩⟩ | ⟨r, -, hst, -⟩ <;> rw [hst] at hx
      · exact hs.finished d x e hd hx
      all_goals cases hx
    · rw [hc] at hx
      cases hx
  · rcases delivered_of_step h hs.valid hd with ⟨x, e, hd, -, hev, hstep⟩ | hc
    · rw [← hev]
      have hkeep : Good e.event ∨ e.event ∈ s.deadLetters → Good e.event ∨ e.event ∈ t.deadLetters :=
        Or.imp_right (deadLetters_of_step h)
      rcases hstep with hst | hst | ⟨-, ⟨hst, -⟩ | ⟨code, hst⟩⟩ | ⟨r, hr, hst, rfl | hdead⟩
      · exact hkeep (hs.acknowledged d x e hd (hst ▸ hx))
      · rw [hst] at hx; cases hx
      · rw [hst] at hx; cases hx
      · rw [hst] at hx; cases hx
      · exact .inl (hs.finished d x e hd hr)
      · exact .inr hdead
    · rw [hc] at hx
      cases hx
  · obtain ⟨e, he, hev, ha | ⟨d, x, hd, -, hx | ⟨hx, hp⟩⟩⟩ := acked_of_step h he' ha
    · exact hev ▸ (hs.acked i e he ha).imp_right (deadLetters_of_step h)
    · exact hev ▸ (hs.acknowledged d x e hd hx).imp_right (deadLetters_of_step h)
    · exact hev ▸ .inl (hs.dropped hd hx hp)

/-- Publishing keeps it sound. -/
theorem Sound.publish (hs : s.Sound key Good) (begin : ε → ρ) {event : ε} (hp : s.isProcessed (key event) → Good event) :
    Sound key Good { s with entries := s.entries ++ [{ event }] } :=
  hs.step (Step.publish event : Step key begin s (.publish event) _) (fun _ _ _ _ _ _ hl => by cases hl) fun event' hl => by
    cases hl
    exact hp

omit [DecidableEq κ] in
/-- So does a step of a handler, which succeeds on good events only. -/
theorem Sound.setStage (hs : s.Sound key Good) {x : Delivery ρ} {e : StreamEntry ε} (hd : s.delivered d = some (x, e))
    (ha : x.stage.isActive) {stage : DeliveryStage ρ} (hstage : stage ≠ .acknowledge)
    (hgood : stage = .result .success → Good e.event) : (s.setStage d stage).Sound key Good := by
  have hdel {d' : Nat} {x' : Delivery ρ} {e' : StreamEntry ε} (h : (s.setStage d stage).delivered d' = some (x', e')) :
      s.delivered d' = some (x', e') ∨ x'.stage = stage ∧ e' = e := by
    obtain ⟨x₀, hx₀, rfl⟩ := delivered_setStage h
    split
    · rename_i hdd
      subst hdd
      cases hd.symm.trans hx₀
      exact .inr ⟨rfl, rfl⟩
    · exact .inl hx₀
  refine ⟨hs.valid.setStage d stage, fun p hp hn i e' he' hi hk => ?_, fun d' x' e' h hx => ?_, fun d' x' e' h hx => ?_,
    hs.acked⟩
  · exact hs.processed p hp hn i e' he' (inProcess_setStage_of_active hd ha hi) hk
  · rcases hdel h with h | ⟨hst, rfl⟩
    · exact hs.finished d' x' e' h hx
    · exact hgood (hst ▸ hx)
  · rcases hdel h with h | ⟨hst, -⟩
    · exact hs.acknowledged d' x' e' h hx
    · exact absurd (hst ▸ hx) hstage

omit [DecidableEq κ] in
theorem Sound.mono {Good' : ε → Prop} (hs : s.Sound key Good) (h : ∀ event ∈ s.events, Good event → Good' event) :
    s.Sound key Good' where
  valid := hs.valid
  processed p hp hn i e he hi hk := h _ (mem_events he) (hs.processed p hp hn i e he hi hk)
  finished d x e hd hx := h _ (mem_events (delivered_eq_some.1 hd).2) (hs.finished d x e hd hx)
  acknowledged d x e hd hx := (hs.acknowledged d x e hd hx).imp_left (h _ (mem_events (delivered_eq_some.1 hd).2))
  acked i e he ha := (hs.acked i e he ha).imp_left (h _ (mem_events he))

end StreamState

end SignalSync
