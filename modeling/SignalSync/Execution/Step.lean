import SignalSync.Execution.Handler

/-!
# Steps of the execution handler

What one step of a run can do, over all phases: `HandlerCase` lists the cases with
the rows each of them has loaded and the columns it commits.

* `handlerStep_cases`: every step is one of them;
* `HandlerCase.intentPayload`: no step changes an intent's payload or key;
* `HandlerCase.settled`: an intent out of reach of execution stays so, unless
  `retryable` is committed over a state that was not loaded;
* `HandlerCase.trade_isSome`: no step removes a copied trade.
-/

namespace SignalSync

open Library

/-! ## States of stored intents -/

namespace Database

def intentState (db : Database) (id : Uuid) : Option TradeIntentState := (db.intents.get? id).map (·.state)

/-- What an intent is created with for good. -/
def intentPayload (db : Database) (id : Uuid) : Option (IntentKey × Payload) :=
  (db.intents.get? id).map fun row => (row.idempotencyKey, row.requestPayload)

/-- A stored intent that `execution_handler` passes over. -/
def Settled (db : Database) (id : Uuid) : Prop := ∃ state, db.intentState id = some state ∧ state.isExecutable = false

/-- A stored intent that `execution_handler` executes. -/
def Executable (db : Database) (id : Uuid) : Prop := ∃ state, db.intentState id = some state ∧ state.isExecutable = true

theorem Settled.not_executable {db : Database} {id : Uuid} (h : db.Settled id) : ¬ db.Executable id := by
  rintro ⟨state, hs, he⟩
  obtain ⟨state', hs', hf⟩ := h
  cases hs.symm.trans hs'
  rw [he] at hf
  cases hf

theorem settled_or_executable {db : Database} {id : Uuid} {row : TradeIntent} (h : db.intents.get? id = some row) :
    db.Settled id ∨ db.Executable id := by
  have hs : db.intentState id = some row.state := by rw [intentState, h]; rfl
  cases he : row.state.isExecutable with
  | false => exact .inl ⟨_, hs, he⟩
  | true => exact .inr ⟨_, hs, he⟩

/-- The action of a stored intent opens a trade. -/
def Opens (db : Database) (id : Uuid) : Prop :=
  (db.intentPayload id).any fun p => p.2.context.action.any SignalAction.isOpening

instance (db : Database) (id : Uuid) : Decidable (db.Opens id) := inferInstanceAs (Decidable (_ = _))

end Database

/-! ## Phases -/

namespace ExecutionPhase

/-- The intent a run executes; a reconciliation or an emergency executes none. -/
def executes : ExecutionPhase → Option Uuid
  | .load intentId | .bar intentId _ => some intentId
  | .acquire s | .gate s => some s.intentId
  | .connect s | .prepare s _ => some s.intentId
  | .call c | .settle c .. | .publish c => some c.intentId
  | _ => none

/-- The intent a session has loaded and not yet committed, with its id. -/
def session : ExecutionPhase → Option (Uuid × TradeIntent)
  | .bar intentId loaded => some (intentId, loaded)
  | .acquire s | .gate s => some (s.intentId, s.intent)
  | .connect s | .prepare s _ => some (s.intentId, s.intent)
  | _ => none

/-- The call a run is making or has made. -/
def call? : ExecutionPhase → Option ExecutionCall
  | .call c | .settle c .. | .publish c => some c
  | _ => none

theorem of_call? {phase : ExecutionPhase} {c : ExecutionCall} (h : phase.call? = some c) :
    phase.executes = some c.intentId ∧ phase.session = none := by
  cases phase <;> cases h <;> exact ⟨rfl, rfl⟩

/-- The intent whose `submitted` this run is to replace. -/
def onItsWay : ExecutionPhase → Option Uuid
  | .call c => some c.intentId
  | .settle c loaded .. => if loaded.state = .submitted then some c.intentId else none
  | _ => none

theorem call?_of_onItsWay {phase : ExecutionPhase} {id : Uuid} (h : phase.onItsWay = some id) :
    ∃ c, phase.call? = some c ∧ c.intentId = id := by
  cases phase with
  | call c => cases h; exact ⟨c, rfl, rfl⟩
  | settle c loaded =>
    simp only [onItsWay, Option.ite_none_right_eq_some, Option.some.injEq] at h
    exact ⟨c, rfl, h.2⟩
  | _ => cases h

theorem executes_of_session {phase : ExecutionPhase} {x : Uuid × TradeIntent} (h : phase.session = some x) :
    phase.executes = some x.1 := by
  cases phase <;> cases h <;> rfl

/-- The run can end here with an exception or a retry: between the call and its
result, only where the confirmed trade cannot be written. -/
def canRaise (run : Nat) (now : Time) (db : Database) : ExecutionPhase → Bool
  | .call _ | .publish _ => false
  | .settle c _ copied outcome =>
    match outcome with
    | .ok (result, volume) => !(confirmTrades run now db c copied result volume).isOk
    | .error _ => false
  | _ => true

end ExecutionPhase

/-! ## The cases -/

/-- A step that leaves intents and trades as they are. -/
structure HandlerStep.Keeps (h : HandlerStep) (db : Database) : Prop where
  intents : h.db.intents = db.intents
  trades : h.db.trades = db.trades
  call : h.call = none
  publish : h.publish = none

/-- A step that commits the columns of one intent. -/
structure HandlerStep.Writes (h : HandlerStep) (db : Database) (id : Uuid) (loaded new : TradeIntent) : Prop where
  intents : h.db.intents = db.intents.modify id (loaded.writeBack new)
  call : h.call = none
  publish : h.publish = none

section

variable [Unicode]

/-- The steps of a run, by what they do to the intents and the copied trades. -/
inductive HandlerCase (run : Nat) (now : Time) (db : Database) : ExecutionPhase → HandlerLabel → HandlerStep → Prop
  /-- The run ends, to be retried. -/
  | raise {phase : ExecutionPhase} {label : HandlerLabel} {h : HandlerStep} (code : String) (hr : phase.canRaise run now db)
      (hk : h.Keeps db) (hs : h.stage = .result (.retry code)) : HandlerCase run now db phase label h
  /-- The intent is not to be executed. -/
  | ignore {id : Uuid} {label : HandlerLabel} {h : HandlerStep} (hi : db.Settled id) (hk : h.Keeps db)
      (hs : h.stage = .result .success) : HandlerCase run now db (.load id) label h
  /-- There is nothing to reconcile or to close. -/
  | skip {phase : ExecutionPhase} {label : HandlerLabel} {h : HandlerStep} (hp : phase.executes = none) (hk : h.Keeps db)
      (hs : h.stage = .result .success) : HandlerCase run now db phase label h
  | load {id : Uuid} {intent : TradeIntent} (phase' : ExecutionPhase) {label : HandlerLabel} {h : HandlerStep}
      (hi : db.intents.get? id = some intent) (he : intent.state.isExecutable) (hp : phase'.session = some (id, intent))
      (hk : h.Keeps db) (hs : h.stage = .handle phase') : HandlerCase run now db (.load id) label h
  /-- To the next phase of the same session. -/
  | advance {phase : ExecutionPhase} (phase' : ExecutionPhase) {label : HandlerLabel} {h : HandlerStep}
      (hp : phase'.session = phase.session) (hx : phase'.executes = phase.executes)
      (hn : phase.session.isSome ∨ phase.executes = none ∧ ∃ request rows, phase' = .emergencyRows request rows)
      (hk : h.Keeps db) (hs : h.stage = .handle phase') : HandlerCase run now db phase label h
  | reject {phase : ExecutionPhase} {id : Uuid} {loaded new : TradeIntent} {label : HandlerLabel} {h : HandlerStep}
      (hl : phase.session = some (id, loaded)) (hn : new.state = .failed) (hw : h.Writes db id loaded new) (ht : h.db.trades = db.trades)
      (hs : h.stage = .result .success) : HandlerCase run now db phase label h
  | retryable {s : ReadySession} {restored : List (Uuid × CopyRoute)} {view : BrokerView} {pending : PendingWrites}
      {code : String} {new : TradeIntent} {h : HandlerStep}
      (hx : prepareExecution db now s restored view = .ok (pending, .done (.retry code) new)) (hn : new.state = .retryable)
      (hw : h.Writes db s.intentId s.intent new) (ht : h.db.trades = db.trades)
      (hs : h.stage = .result (.retry code)) : HandlerCase run now db (.prepare s restored) (.prepare view) h
  | submit {s : ReadySession} {restored : List (Uuid × CopyRoute)} {view : BrokerView} {pending : PendingWrites}
      {c : ExecutionCall} {new : TradeIntent} {h : HandlerStep}
      (hx : prepareExecution db now s restored view = .ok (pending, .submit c new)) (hn : new.state = .submitted)
      (hid : c.intentId = s.intentId) (hact : s.intent.requestPayload.context.action = some c.action)
      (hw : h.Writes db s.intentId s.intent new) (ht : h.db.trades = db.trades)
      (hs : h.stage = .handle (.call c)) : HandlerCase run now db (.prepare s restored) (.prepare view) h
  | call {c : ExecutionCall} {loaded : TradeIntent} {copied : Option CopiedTrade} {outcome : CallOutcome}
      {label : HandlerLabel} {h : HandlerStep} (hi : db.intents.get? c.intentId = some loaded)
      (hd : h.db = db) (hc : ∀ x ∈ h.call, x.1 = c.intentId) (hp : h.publish = none)
      (hs : h.stage = .handle (.settle c loaded copied outcome)) : HandlerCase run now db (.call c) label h
  | settle {c : ExecutionCall} {loaded new : TradeIntent} {copied : Option CopiedTrade} {outcome : CallOutcome}
      {label : HandlerLabel} {h : HandlerStep} (hw : h.Writes db c.intentId loaded new) (ht : h.db.trades = db.trades)
      (hs : new.state = .failed ∧ h.stage = .result .success ∨ new.state = .uncertain ∧ h.stage = .handle (.publish c)) :
      HandlerCase run now db (.settle c loaded copied outcome) label h
  | confirm {c : ExecutionCall} {loaded new : TradeIntent} {copied : Option CopiedTrade} {outcome : CallOutcome}
      {label : HandlerLabel} {h : HandlerStep} (hw : h.Writes db c.intentId loaded new) (hn : new.state = .confirmed)
      (ht : ∀ id, (db.trades.get? id).isSome → (h.db.trades.get? id).isSome)
      (ho : c.action.isOpening → (h.db.trades.get? c.intentId).isSome) (hs : h.stage = .result .success) :
      HandlerCase run now db (.settle c loaded copied outcome) label h
  | publish {c : ExecutionCall} {intent : TradeIntent} {label : HandlerLabel} {h : HandlerStep}
      (hi : db.intents.get? c.intentId = some intent) (hd : h.db = db) (hc : h.call = none)
      (hp : h.publish = some ⟨.reconcile c.intentId intent.attemptCount, .reconcile c.intentId⟩)
      (hs : h.stage = .result .success) : HandlerCase run now db (.publish c) label h
  | look {id : Uuid} {intent : TradeIntent} {label : HandlerLabel} {h : HandlerStep} (hi : db.intents.get? id = some intent)
      (hu : intent.state.isUnresolved) (hk : h.Keeps db) (hs : h.stage = .handle (.mark id intent)) :
      HandlerCase run now db (.reconcile id) label h
  | reconcile {id : Uuid} {loaded new : TradeIntent} {label : HandlerLabel} {h : HandlerStep} (hn : new.state = .reconciling)
      (hw : h.Writes db id loaded new) (ht : h.db.trades = db.trades) (hs : h.stage = .handle (.find id)) :
      HandlerCase run now db (.mark id loaded) label h
  | find {id : Uuid} {loaded : TradeIntent} {found : Bool} {label : HandlerLabel} {h : HandlerStep}
      (hi : db.intents.get? id = some loaded) (hk : h.Keeps db) (hs : h.stage = .handle (.conclude id loaded found)) :
      HandlerCase run now db (.find id) label h
  | conclude {id : Uuid} {loaded new : TradeIntent} {found : Bool} {h : HandlerStep}
      (hn : new.state = .confirmed ∧ found = true ∨ new.state = .failed ∨ new.state = .uncertain)
      (hw : h.Writes db id loaded new) (ht : h.db.trades = db.trades) (hs : h.stage = .result .success) :
      HandlerCase run now db (.conclude id loaded found) .conclude h
  /-- A trade of an emergency. -/
  | close {request : EmergencyRequest} {id : Uuid} {rest : List Uuid} {label : HandlerLabel} {h : HandlerStep}
      (f : CopiedTrade → CopiedTrade) (hi : h.db.intents = db.intents) (ht : h.db.trades = db.trades.modify id f)
      (hc : h.call = none) (hp : h.publish = none) (hs : h.stage = .handle (.emergencyRows request rest)) :
      HandlerCase run now db (.emergencyRows request (id :: rest)) label h

variable {settings : ExecutionSettings} {run : Nat} {now : Time} {lockFree : Option Uuid → Bool} {db : Database}

/-! ### One lemma a phase -/

omit [Unicode] in
theorem writeIntent_writes {id : Uuid} {loaded new : TradeIntent} {result : DeliveryResult} {lock : LockChange} :
    (HandlerStep.finish (db.writeIntent id loaded new) result lock).Writes db id loaded new := ⟨rfl, rfl, rfl⟩

theorem loadStep_cases (id : Uuid) (access : Bool) (label : HandlerLabel) :
    HandlerCase run now db (.load id) label (loadStep settings db id access) := by
  unfold loadStep
  split
  · exact .raise _ rfl ⟨rfl, rfl, rfl, rfl⟩ rfl
  · rename_i intent hi
    split
    · rename_i he
      exact .ignore ⟨_, by rw [Database.intentState, hi]; rfl, by simpa using he⟩ ⟨rfl, rfl, rfl, rfl⟩ rfl
    · rename_i he
      have he : intent.state.isExecutable := by simpa using he
      split
      · exact .load (.bar id intent) hi he rfl ⟨rfl, rfl, rfl, rfl⟩ rfl
      · exact .load (.acquire _) hi he rfl ⟨rfl, rfl, rfl, rfl⟩ rfl

theorem gateStep_cases (s : ExecutionSession) (label : HandlerLabel) :
    HandlerCase run now db (.gate s) label (gateStep settings db s) := by
  unfold gateStep
  split
  · exact .raise _ rfl ⟨rfl, rfl, rfl, rfl⟩ rfl
  · dsimp only
    split
    · exact .reject rfl rfl writeIntent_writes rfl rfl
    · exact .advance (.connect _) rfl rfl (.inl rfl) ⟨rfl, rfl, rfl, rfl⟩ rfl

theorem connectStep_cases (s : ReadySession) (error : Option PyException) (label : HandlerLabel) :
    HandlerCase run now db (.connect s) label (connectStep db s error) := by
  unfold connectStep
  split
  · exact .raise _ rfl ⟨rfl, rfl, rfl, rfl⟩ rfl
  · exact .advance (.prepare _ _) rfl rfl (.inl rfl) ⟨rfl, rfl, rfl, rfl⟩ rfl

/-- The preparation of an order: what it has submitted, or why it has not. -/
theorem prepareExecution_cases {s : ReadySession} {restored : List (Uuid × CopyRoute)} {view : BrokerView}
    {pending : PendingWrites} {prepared : Prepared} (h : prepareExecution db now s restored view = .ok (pending, prepared)) :
    (∃ new, prepared = .done .success new ∧ new.state = .failed) ∨
      (∃ code new, prepared = .done (.retry code) new ∧ new.state = .retryable) ∨
      ∃ c new, prepared = .submit c new ∧ new.state = .submitted ∧ c.intentId = s.intentId ∧
        s.intent.requestPayload.context.action = some c.action := by
  unfold prepareExecution at h
  split at h
  · cases h
  · cases h
  · rename_i action _ hact
    simp only at h
    split at h
    · cases h
    · cases h
      unfold afterQualityError
      simp only
      split
      · exact .inr (.inl ⟨_, _, rfl, rfl⟩)
      · exact .inl ⟨_, rfl, rfl⟩
    · split at h
      · cases h
      · cases h
        exact .inl ⟨_, rfl, rfl⟩
      · cases h
        exact .inr (.inr ⟨_, _, rfl, rfl, rfl, hact⟩)

theorem prepareStep_cases (s : ReadySession) (restored : List (Uuid × CopyRoute)) (view : BrokerView) :
    HandlerCase run now db (.prepare s restored) (.prepare view) (prepareStep now db s restored view) := by
  have hw (pending : PendingWrites) (new : TradeIntent) :
      (((pending.apply db).writeIntent s.intentId s.intent new).intents =
        db.intents.modify s.intentId (s.intent.writeBack new)) := by
    rw [Database.writeIntent, PendingWrites.apply_intents]
  have ht (pending : PendingWrites) (new : TradeIntent) :
      ((pending.apply db).writeIntent s.intentId s.intent new).trades = db.trades := by
    rw [Database.writeIntent, PendingWrites.apply_trades]
  unfold prepareStep
  split
  · exact .raise _ rfl ⟨rfl, rfl, rfl, rfl⟩ rfl
  · rename_i pending result new hx
    rcases prepareExecution_cases hx with ⟨new', he, hn⟩ | ⟨code, new', he, hn⟩ | ⟨c, new', he, -⟩ <;> cases he
    · exact .reject rfl hn ⟨hw pending new, rfl, rfl⟩ (ht pending new) rfl
    · exact .retryable hx hn ⟨hw pending new, rfl, rfl⟩ (ht pending new) rfl
  · rename_i pending c new hx
    rcases prepareExecution_cases hx with ⟨new', he, -⟩ | ⟨code, new', he, -⟩ | ⟨c', new', he, hn, hid, hact⟩ <;> cases he
    exact .submit hx hn hid hact ⟨hw pending new, rfl, rfl⟩ (ht pending new) rfl

theorem callStep_cases {c : ExecutionCall} {response : Except PyException BrokerResult} {h : HandlerStep}
    (label : HandlerLabel) (hs : callStep db c response = some h) : HandlerCase run now db (.call c) label h := by
  obtain ⟨loaded, hi, rfl⟩ := Option.map_eq_some_iff.mp hs
  simp only
  split
  · refine .call hi rfl (fun _ hx => ?_) rfl rfl
    cases hx
  · exact .call hi rfl (by simp) rfl rfl

omit [Unicode] in
/-- A confirmed call keeps every trade, and an opening leaves its own. -/
theorem confirmTrades_isSome {c : ExecutionCall} {copied : Option CopiedTrade} {result : BrokerResult} {volume : Option ℚ}
    {trades : Table Uuid CopiedTrade} (h : confirmTrades run now db c copied result volume = .ok trades) :
    (∀ id, (db.trades.get? id).isSome → (trades.get? id).isSome) ∧
      (c.action.isOpening → (trades.get? c.intentId).isSome) := by
  unfold confirmTrades at h
  split at h
  · split at h
    · split at h
      · rename_i hp
        cases h
        refine ⟨fun id hid => ?_, fun _ => by rw [Table.get?_push hp, if_pos rfl]; rfl⟩
        rw [Table.get?_push hp]
        split
        · rfl
        · exact hid
      · cases h
    · cases h
  · rename_i ho
    refine ⟨fun id hid => ?_, fun h => absurd h ho⟩
    split at h
    · unfold Except.map at h
      split at h
      · cases h
      · cases h
        rw [Table.get?_modify]
        split
        · rw [Option.isSome_map]
          exact hid
        · exact hid
    · cases h
      exact hid

theorem settleStep_cases (c : ExecutionCall) (loaded : TradeIntent) (copied : Option CopiedTrade) (outcome : CallOutcome)
    (label : HandlerLabel) :
    HandlerCase run now db (.settle c loaded copied outcome) label (settleStep run now db c loaded copied outcome) := by
  unfold settleStep
  simp only
  split
  · split
    · exact .settle writeIntent_writes rfl (.inl ⟨by simp_all, rfl⟩)
    · exact .settle ⟨rfl, rfl, rfl⟩ rfl (.inr ⟨by simp_all, rfl⟩)
  · split
    · rename_i hc
      exact .raise _ (by rw [ExecutionPhase.canRaise, hc]; rfl) ⟨rfl, rfl, rfl, rfl⟩ rfl
    · rename_i hc
      obtain ⟨hkeep, hopen⟩ := confirmTrades_isSome hc
      exact .confirm ⟨rfl, rfl, rfl⟩ rfl hkeep hopen rfl

theorem reconcileStep_cases (id : Uuid) (label : HandlerLabel) :
    HandlerCase run now db (.reconcile id) label (reconcileStep db id) := by
  unfold reconcileStep
  split
  · exact .skip rfl ⟨rfl, rfl, rfl, rfl⟩ rfl
  · rename_i intent hi
    split
    · exact .skip rfl ⟨rfl, rfl, rfl, rfl⟩ rfl
    · split
      · exact .raise _ rfl ⟨rfl, rfl, rfl, rfl⟩ rfl
      · rename_i hu _
        exact .look hi (by simpa using hu) ⟨rfl, rfl, rfl, rfl⟩ rfl

theorem findStep_cases {id : Uuid} {found : Except PyException Bool} {h : HandlerStep} (label : HandlerLabel)
    (hs : findStep db id found = some h) : HandlerCase run now db (.find id) label h := by
  unfold findStep at hs
  split at hs
  · cases hs
    exact .raise _ rfl ⟨rfl, rfl, rfl, rfl⟩ rfl
  · obtain ⟨loaded, hi, rfl⟩ := Option.map_eq_some_iff.mp hs
    exact .find hi ⟨rfl, rfl, rfl, rfl⟩ rfl

theorem concludeStep_cases (id : Uuid) (loaded : TradeIntent) (found : Bool) :
    HandlerCase run now db (.conclude id loaded found) .conclude (concludeStep settings now db id loaded found) := by
  refine .conclude ?_ writeIntent_writes rfl rfl
  split
  · rename_i hf
    exact .inl ⟨rfl, hf⟩
  · split
    · exact .inr (.inl rfl)
    · exact .inr (.inr rfl)

theorem gotoRows_cases {phase : ExecutionPhase} (hx : phase.executes = none) (hp : phase.session = none)
    (request : EmergencyRequest) (rows : List Uuid) (label : HandlerLabel) :
    HandlerCase run now db phase label (.goto db (.emergencyRows request rows)) :=
  .advance (.emergencyRows request rows) hp.symm hx.symm (.inr ⟨hx, request, rows, rfl⟩) ⟨rfl, rfl, rfl, rfl⟩ rfl

theorem emergencyStep_cases {request : EmergencyRequest} {id : Uuid} {rest : List Uuid} {label : HandlerLabel}
    {h : HandlerStep} (hs : emergencyStep lockFree db request id rest label = some h) :
    HandlerCase run now db (.emergencyRows request (id :: rest)) label h := by
  unfold emergencyStep at hs
  split at hs
  · cases hs
  · dsimp only at hs
    split at hs
    · cases hs
      exact gotoRows_cases rfl rfl _ _ _
    · cases hs
      exact .raise _ rfl ⟨rfl, rfl, rfl, rfl⟩ rfl
    · split at hs <;> cases hs
      exact .raise _ rfl ⟨rfl, rfl, rfl, rfl⟩ rfl
    · split at hs <;> cases hs
      exact .close _ rfl rfl rfl rfl rfl
    · cases hs

/-- Every step of a run is one of the cases. -/
theorem handlerStep_cases {phase : ExecutionPhase} {label : HandlerLabel} {h : HandlerStep}
    (hs : handlerStep settings run now lockFree db phase label = some h) : HandlerCase run now db phase label h := by
  unfold handlerStep at hs
  split at hs
  · cases hs; exact loadStep_cases _ _ _
  · cases hs; exact .reject rfl rfl writeIntent_writes rfl rfl
  · split at hs <;> cases hs
    exact .advance (.gate _) rfl rfl (.inl rfl) ⟨rfl, rfl, rfl, rfl⟩ rfl
  · cases hs; exact .raise _ rfl ⟨rfl, rfl, rfl, rfl⟩ rfl
  · cases hs; exact gateStep_cases _ _
  · cases hs; exact connectStep_cases _ _ _
  · cases hs; exact prepareStep_cases _ _ _
  · exact callStep_cases _ hs
  · cases hs; exact settleStep_cases _ _ _ _ _
  · obtain ⟨intent, hi, rfl⟩ := Option.map_eq_some_iff.mp hs
    exact .publish hi rfl rfl rfl rfl
  · cases hs; exact reconcileStep_cases _ _
  · cases hs; exact .reconcile rfl ⟨rfl, rfl, rfl⟩ rfl rfl
  · exact findStep_cases _ hs
  · cases hs; exact concludeStep_cases _ _ _
  · cases hs; exact gotoRows_cases rfl rfl _ _ _
  · cases hs; exact .skip rfl ⟨rfl, rfl, rfl, rfl⟩ rfl
  · exact emergencyStep_cases hs
  · cases hs

/-! ## What every step keeps -/

variable {phase : ExecutionPhase} {label : HandlerLabel} {h : HandlerStep} {id : Uuid}

omit [Unicode] in
theorem Database.intentState_of_intents {db' : Database} (hi : db'.intents = db.intents) :
    db'.intentState id = db.intentState id := by
  rw [intentState, intentState, hi]

omit [Unicode] in
theorem Database.intentPayload_of_intents {db' : Database} (hi : db'.intents = db.intents) :
    db'.intentPayload id = db.intentPayload id := by
  rw [intentPayload, intentPayload, hi]

omit [Unicode] in
/-- The state of the intent that is committed, and of every other. -/
theorem HandlerStep.Writes.intentState {id' : Uuid} {loaded new : TradeIntent} (hw : h.Writes db id' loaded new) :
    h.db.intentState id =
      if id = id' then (db.intentState id).map (writeBack loaded.state new.state) else db.intentState id := by
  rw [Database.intentState, Database.intentState, hw.intents, Table.get?_modify]
  split
  · rw [Option.map_map, Option.map_map]
    rfl
  · rfl

omit [Unicode] in
theorem HandlerStep.Writes.intentPayload {id' : Uuid} {loaded new : TradeIntent} (hw : h.Writes db id' loaded new) :
    h.db.intentPayload id = db.intentPayload id := by
  rw [Database.intentPayload, Database.intentPayload, hw.intents, Table.get?_modify]
  split
  · rw [Option.map_map]
    rfl
  · rfl

/-- No step changes an intent's payload or key, or removes it. -/
theorem HandlerCase.intentPayload (hc : HandlerCase run now db phase label h) :
    h.db.intentPayload id = db.intentPayload id := by
  cases hc with
  | raise _ _ hk | ignore _ hk | skip _ hk | load _ _ _ _ hk | advance _ _ _ _ hk | look _ _ hk | find _ hk =>
    exact Database.intentPayload_of_intents hk.intents
  | reject _ _ hw | retryable _ _ hw | submit _ _ _ _ hw | settle hw | confirm hw | reconcile _ hw | conclude _ hw =>
    exact hw.intentPayload
  | call _ hd | publish _ hd => rw [hd]
  | close _ hi => exact Database.intentPayload_of_intents hi

omit [Unicode] in
/-- A state was there before, or is the one committed. -/
theorem HandlerStep.Writes.intentState_cases {id' : Uuid} {loaded new : TradeIntent} (hw : h.Writes db id' loaded new)
    {state : TradeIntentState} (hs : h.db.intentState id = some state) :
    db.intentState id = some state ∨ id = id' ∧ new.state = state := by
  rw [hw.intentState] at hs
  split at hs
  · obtain ⟨state', hst, hwb⟩ := Option.map_eq_some_iff.mp hs
    unfold writeBack at hwb
    split at hwb
    · exact .inl (hwb ▸ hst)
    · exact .inr ⟨by assumption, hwb⟩
  · exact .inl hs

omit [Unicode] in
/-- An intent is brought back into reach of execution only by committing a state
that is so over one that was not loaded. -/
theorem HandlerStep.Writes.settled {id' : Uuid} {loaded new : TradeIntent} (hw : h.Writes db id' loaded new)
    (hn : new.state.isExecutable = false) (hs : db.Settled id) : h.db.Settled id := by
  obtain ⟨state, hst, he⟩ := hs
  rw [Database.Settled, hw.intentState]
  split
  · refine ⟨_, by rw [hst]; rfl, ?_⟩
    unfold writeBack
    split
    · exact he
    · exact hn
  · exact ⟨state, hst, he⟩

omit [Unicode] in
/-- An executable intent is settled by a commit of a state that is not. -/
theorem HandlerStep.Writes.settles {loaded new : TradeIntent} (hw : h.Writes db id loaded new)
    (hi : (db.intentState id).isSome) (hl : loaded.state.isExecutable) (hn : new.state.isExecutable = false) :
    h.db.Settled id := by
  obtain ⟨state, hst⟩ := Option.isSome_iff_exists.mp hi
  refine ⟨new.state, ?_, hn⟩
  rw [hw.intentState, if_pos rfl, hst, Option.map_some, writeBack, if_neg fun he => ?_]
  rw [he, hl] at hn
  cases hn

/-- The state commits go over is the one that was loaded. -/
def KeepsLoaded (db : Database) (s : ReadySession) : Prop := db.intentState s.intentId = some s.intent.state

instance (db : Database) (s : ReadySession) : Decidable (KeepsLoaded db s) := inferInstanceAs (Decidable (_ = _))

/-- A settled intent stays settled, if no run commits `retryable` over a state it
has not loaded. -/
theorem HandlerCase.settled (hc : HandlerCase run now db phase label h)
    (hr : ∀ s restored view pending code new, phase = .prepare s restored → label = .prepare view →
      prepareExecution db now s restored view = .ok (pending, .done (.retry code) new) → KeepsLoaded db s)
    (hsess : ∀ x, phase.session = some x → x.2.state.isExecutable) (hs : db.Settled id) : h.db.Settled id := by
  have hkeep (hi : h.db.intents = db.intents) : h.db.Settled id := by
    rw [Database.Settled, Database.intentState_of_intents hi]
    exact hs
  cases hc with
  | raise _ _ hk | ignore _ hk | skip _ hk | load _ _ _ _ hk | advance _ _ _ _ hk | look _ _ hk | find _ hk => exact hkeep hk.intents
  | call _ hd | publish _ hd => exact hkeep (hd ▸ rfl)
  | close _ hi => exact hkeep hi
  | reject _ hn hw | submit _ hn _ _ hw | confirm hw hn | reconcile hn hw => exact hw.settled (by rw [hn]; rfl) hs
  | settle hw _ hst =>
    refine hw.settled ?_ hs
    rcases hst with ⟨hn, -⟩ | ⟨hn, -⟩ <;> rw [hn] <;> rfl
  | conclude hn hw =>
    refine hw.settled ?_ hs
    rcases hn with ⟨hn, -⟩ | hn | hn <;> rw [hn] <;> rfl
  | @retryable s restored view pending code new _ hx hn hw =>
    obtain ⟨state, hst, he⟩ := hs
    have hloaded := hr s restored view pending code new rfl rfl hx
    rw [Database.Settled, hw.intentState]
    split
    · rename_i hid
      -- the state stored is the one loaded, and that one is executable
      subst hid
      cases hst.symm.trans hloaded
      rw [hsess _ rfl] at he
      cases he
    · exact ⟨state, hst, he⟩

/-- No step removes a copied trade. -/
theorem HandlerCase.trade_isSome (hc : HandlerCase run now db phase label h) (ht : (db.trades.get? id).isSome) :
    (h.db.trades.get? id).isSome := by
  cases hc with
  | raise _ _ hk | ignore _ hk | skip _ hk | load _ _ _ _ hk | advance _ _ _ _ hk | look _ _ hk | find _ hk => rwa [hk.trades]
  | reject _ _ _ he | retryable _ _ _ he | submit _ _ _ _ _ he | settle _ he | reconcile _ _ he | conclude _ _ he =>
    rwa [he]
  | call _ hd | publish _ hd => rwa [hd]
  | confirm _ _ hk => exact hk id ht
  | close f _ he =>
    rw [he, Table.get?_modify]
    split
    · rwa [Option.isSome_map]
    · exact ht

/-- A session holds what it had, or the executable intent it has just loaded. -/
theorem HandlerCase.session (hc : HandlerCase run now db phase label h) {phase' : ExecutionPhase}
    (hs : h.stage = .handle phase') {x : Uuid × TradeIntent} (hx : phase'.session = some x) :
    phase.session = some x ∨ phase = .load x.1 ∧ db.intents.get? x.1 = some x.2 ∧ x.2.state.isExecutable := by
  cases hc with
  | raise _ _ _ he | ignore _ _ he | skip _ _ he | reject _ _ _ _ he | retryable _ _ _ _ he | confirm _ _ _ _ he
  | publish _ _ _ _ he | conclude _ _ _ he => cases he.symm.trans hs
  | load _ hi hex hp _ he =>
    cases he.symm.trans hs
    cases hp.symm.trans hx
    exact .inr ⟨rfl, hi, hex⟩
  | advance _ hp _ _ _ he => cases he.symm.trans hs; exact .inl (hp ▸ hx)
  | submit _ _ _ _ _ _ he | call _ _ _ _ he | look _ _ _ he | reconcile _ _ _ he | find _ _ he | close _ _ _ _ _ he =>
    cases he.symm.trans hs
    cases hx
  | settle _ _ he =>
    rcases he with ⟨-, he⟩ | ⟨-, he⟩
    · cases he.symm.trans hs
    · cases he.symm.trans hs
      cases hx

/-- A call is the one of the phase before, or is prepared. -/
theorem HandlerCase.call? (hc : HandlerCase run now db phase label h) {phase' : ExecutionPhase}
    (hs : h.stage = .handle phase') {c : ExecutionCall} (hx : phase'.call? = some c) :
    (phase.call? = some c ∧ ∀ c', phase' ≠ .call c') ∨ ∃ s restored view pending new, phase = .prepare s restored ∧ label = .prepare view ∧
      prepareExecution db now s restored view = .ok (pending, .submit c new) ∧ new.state = .submitted ∧
      c.intentId = s.intentId ∧ s.intent.requestPayload.context.action = some c.action ∧
      h.Writes db s.intentId s.intent new ∧ phase' = .call c := by
  cases hc with
  | raise _ _ _ he | ignore _ _ he | skip _ _ he | reject _ _ _ _ he | retryable _ _ _ _ he | confirm _ _ _ _ he
  | publish _ _ _ _ he | conclude _ _ _ he => cases he.symm.trans hs
  | look _ _ _ he | reconcile _ _ _ he | find _ _ he | close _ _ _ _ _ he =>
    cases he.symm.trans hs
    cases hx
  | load _ _ _ hp _ he =>
    cases he.symm.trans hs
    cases hp.symm.trans (ExecutionPhase.of_call? hx).2
  | advance _ hse hex hn _ he =>
    cases he.symm.trans hs
    obtain ⟨hxe, hxs⟩ := ExecutionPhase.of_call? hx
    rcases hn with hn | ⟨hn, -⟩
    · rw [← hse, hxs] at hn
      cases hn
    · rw [hex, hn] at hxe
      cases hxe
  | submit hprep hn hid hact hw _ he =>
    cases he.symm.trans hs
    cases hx
    exact .inr ⟨_, _, _, _, _, rfl, rfl, hprep, hn, hid, hact, hw, rfl⟩
  | call _ _ _ _ he =>
    cases he.symm.trans hs
    exact .inl ⟨hx, by simp⟩
  | settle _ _ he =>
    rcases he with ⟨-, he⟩ | ⟨-, he⟩
    · cases he.symm.trans hs
    · cases he.symm.trans hs
      exact .inl ⟨hx, by simp⟩

/-- A run goes on with the intent it is about. -/
theorem HandlerCase.executes (hc : HandlerCase run now db phase label h) {phase' : ExecutionPhase}
    (hs : h.stage = .handle phase') : phase'.executes = phase.executes := by
  cases hc with
  | raise _ _ _ he | ignore _ _ he | skip _ _ he | reject _ _ _ _ he | retryable _ _ _ _ he | confirm _ _ _ _ he
  | publish _ _ _ _ he | conclude _ _ _ he => cases he.symm.trans hs
  | load _ _ _ hp _ he => cases he.symm.trans hs; exact ExecutionPhase.executes_of_session hp
  | advance _ _ hx _ _ he => cases he.symm.trans hs; exact hx
  | submit _ _ hid _ _ _ he => cases he.symm.trans hs; exact congrArg some hid
  | call _ _ _ _ he | look _ _ _ he | reconcile _ _ _ he | find _ _ he | close _ _ _ _ _ he => cases he.symm.trans hs; rfl
  | settle _ _ he =>
    rcases he with ⟨-, he⟩ | ⟨-, he⟩
    · cases he.symm.trans hs
    · cases he.symm.trans hs
      rfl

/-- A run that ends well with an intent to execute has found it settled, has made its
call, or has rejected it. -/
theorem HandlerCase.success (hc : HandlerCase run now db phase label h) (hs : h.stage = .result .success)
    (hx : phase.executes = some id) : db.Settled id ∨ (∃ c, phase.call? = some c ∧ c.intentId = id) ∨
      ∃ loaded new, phase.session = some (id, loaded) ∧ new.state = .failed ∧ h.Writes db id loaded new := by
  cases hc with
  | raise _ _ _ he | load _ _ _ _ _ he | advance _ _ _ _ _ he | retryable _ _ _ _ he | submit _ _ _ _ _ _ he
  | call _ _ _ _ he | look _ _ _ he | reconcile _ _ _ he | find _ _ he | close _ _ _ _ _ he => cases he.symm.trans hs
  | ignore hi => cases hx; exact .inl hi
  | skip hp => cases hp.symm.trans hx
  | @reject _ id' loaded new _ _ hl hn hw =>
    have hid : id' = id := Option.some.inj ((ExecutionPhase.executes_of_session hl).symm.trans hx)
    subst hid
    exact .inr (.inr ⟨loaded, new, hl, hn, hw⟩)
  | settle | confirm | publish => cases hx; exact .inr (.inl ⟨_, rfl, rfl⟩)
  | conclude => cases hx

/-- A run on its way goes on, unless it is cut off or the intent is settled. -/
theorem HandlerCase.onItsWay (hc : HandlerCase run now db phase label h) (hx : phase.onItsWay = some id)
    (hr : phase.canRaise run now db = false) (hdb : db.intentState id = some .submitted)
    (hs : h.db.intentState id = some .submitted) : ∃ phase', h.stage = .handle phase' ∧ phase'.onItsWay = some id := by
  obtain ⟨c, hcall, hid⟩ := ExecutionPhase.call?_of_onItsWay hx
  obtain ⟨hexec, hsess⟩ := ExecutionPhase.of_call? hcall
  -- what is settled is no longer `submitted`
  have hsettled {c : ExecutionCall} {loaded new : TradeIntent} {copied : Option CopiedTrade} {outcome : CallOutcome}
      (hx : (ExecutionPhase.settle c loaded copied outcome).onItsWay = some id) (hw : h.Writes db c.intentId loaded new)
      (hn : new.state ≠ .submitted) : False := by
    simp only [ExecutionPhase.onItsWay, Option.ite_none_right_eq_some, Option.some.injEq] at hx
    obtain ⟨hl, rfl⟩ := hx
    rw [hw.intentState, if_pos rfl, hdb, Option.map_some, writeBack, hl, if_neg hn] at hs
    exact hn (Option.some.inj hs)
  cases hc with
  | raise _ hr' => rw [hr] at hr'; cases hr'
  | ignore | retryable | submit | publish | load | look | reconcile | find | conclude | close => cases hx
  | skip hp => cases hp.symm.trans hexec
  | advance _ _ _ hn =>
    rcases hn with hn | ⟨hn, -⟩
    · rw [hsess] at hn
      cases hn
    · cases hn.symm.trans hexec
  | reject hl => cases hl.symm.trans hsess
  | @call c loaded copied outcome _ _ hi _ _ _ he =>
    cases hx
    refine ⟨_, he, ?_⟩
    rw [Database.intentState, hi] at hdb
    rw [ExecutionPhase.onItsWay, if_pos (Option.some.inj hdb)]
  | settle hw _ hst => rcases hst with ⟨hn, -⟩ | ⟨hn, -⟩ <;> exact (hsettled hx hw (by rw [hn]; nofun)).elim
  | confirm hw hn => exact (hsettled hx hw (by rw [hn]; nofun)).elim

/-- A run does not acknowledge its event. -/
theorem HandlerCase.stage_ne (hc : HandlerCase run now db phase label h) : h.stage ≠ .acknowledge := by
  cases hc with
  | raise _ _ _ he | ignore _ _ he | skip _ _ he | load _ _ _ _ _ he | advance _ _ _ _ _ he | reject _ _ _ _ he
  | retryable _ _ _ _ he | submit _ _ _ _ _ _ he | call _ _ _ _ he | confirm _ _ _ _ he | publish _ _ _ _ he
  | look _ _ _ he | reconcile _ _ _ he | find _ _ he | conclude _ _ _ he | close _ _ _ _ _ he => rw [he]; nofun
  | settle _ _ he => rcases he with ⟨-, he⟩ | ⟨-, he⟩ <;> rw [he] <;> nofun

/-- What a run publishes is to be reconciled. -/
theorem HandlerCase.published (hc : HandlerCase run now db phase label h) {event : ExecutionEvent}
    (hp : h.publish = some event) : ∃ id attempt, event = ⟨.reconcile id attempt, .reconcile id⟩ := by
  have hnone (he : h.publish = none) : ∃ id attempt, event = ⟨.reconcile id attempt, .reconcile id⟩ := by
    cases he.symm.trans hp
  cases hc with
  | raise _ _ hk | ignore _ hk | skip _ hk | load _ _ _ _ hk | advance _ _ _ _ hk | look _ _ hk | find _ hk => exact hnone hk.publish
  | reject _ _ hw | retryable _ _ hw | submit _ _ _ _ hw | settle hw | confirm hw | reconcile _ hw | conclude _ hw =>
    exact hnone hw.publish
  | call _ _ _ he | close _ _ _ _ he => exact hnone he
  | publish _ _ _ he => cases he.symm.trans hp; exact ⟨_, _, rfl⟩

end

end SignalSync
