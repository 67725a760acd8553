import SignalSync.Stream.Worker
import SignalSync.Execution.Action

/-!
# Provisioning a copy account

`provisioning_handler` on a `connection.provision` event, cut at its commits like
the execution handler: a session's rows expire with each commit and are read again
where they are next used (`ProvisioningPhase`, `provisioningStep`). Errors of the
provider are sorted by `classifyProvisioningError` and `classifyMetaapiSdkError`.

* `CopyTradingConnectionState.IsOutcome`: the states an error or a validation leaves;
* `provisioningStep_sound`: a run that succeeds leaves an outcome, whatever has been
  committed in between.
-/

namespace SignalSync

open Library

namespace Provisioning

/-- A connection with the columns provisioning reads and writes. -/
structure CopyTradingConnection extends SignalSync.CopyTradingConnection where
  userId : Uuid
  brokerLogin : String
  brokerServer : String
  /-- `encrypted_trader_password` is set. -/
  hasPassword : Bool
  provisioningTransactionId : Nat
  /-- `last_error_code` and `last_error_message`. -/
  lastError : Option (String × String) := none
deriving DecidableEq

end Provisioning

/-- The connection is on its way to `ready`. -/
def CopyTradingConnectionState.isTransitional : CopyTradingConnectionState → Bool
  | .submitted | .provisioning | .deploying | .connecting | .synchronizing => true
  | _ => false

/-- A state that a run can end in. -/
def CopyTradingConnectionState.IsOutcome (state : CopyTradingConnectionState) : Prop :=
  state.isTransitional = false ∧ state ≠ .deleted

namespace Provisioning

def CopyTradingConnection.hasAccount (connection : CopyTradingConnection) : Bool :=
  (connection.metaapiAccountId.filter (· ≠ "")).isSome

structure MetaApiProvisioningError where
  code : String
  state : CopyTradingConnectionState
  userMessage : String
  retryable : Bool := false

/-- An exception of the MetaApi client: its class and its text. -/
structure SdkError where
  name : String
  text : String

/-- What `create_account` comes to; the texts are `_detail_code` and the message of
the response's body. -/
inductive CreateResponse
  | accepted
  | created (accountId : String)
  | rejected (details message : String) (statusCode : Nat)
  | failed (e : SdkError)

/-- `account_information`, its login and server as texts. -/
structure AccountInformation where
  login : String
  server : String
  tradeAllowed : Bool
  investorMode : Bool

structure ProvisioningSettings where
  /-- `METAAPI_TOKEN` is set. -/
  metaapiConfigured : Bool := true
  connectionTimeoutSeconds : Nat := 30
  pollSeconds : Nat := 60
  maxAttempts : Nat := 15

section

variable [Unicode]

def classifyProvisioningError (details message : String) (statusCode : Option Nat) : MetaApiProvisioningError :=
  let evidence := Unicode.upper details ++ " " ++ Unicode.upper message
  if containsWord evidence "E_SRV_NOT_FOUND" then
    { code := "server_not_found", state := .server_not_found
      userMessage := "The broker server was not found. Check the exact MT5 server name." }
  else if containsWord evidence "E_AUTH" || containsWord evidence "INVALID ACCOUNT" then
    { code := "invalid_credentials", state := .invalid_credentials
      userMessage := "The broker rejected the account login, server, or trader password." }
  else if containsWord evidence "E_TRADING_ACCOUNT_DISABLED" || containsWord evidence "ACCOUNT DISABLED" then
    { code := "trading_disabled", state := .trading_disabled
      userMessage := "The broker reports that trading is disabled for this account." }
  else
    { code := "provisioning_failed", state := .provisioning_failed
      userMessage := "The copy account could not be provisioned. Please try again."
      retryable := statusCode.all fun code => 500 ≤ code || code = 429 }

def classifyMetaapiSdkError (e : SdkError) : MetaApiProvisioningError :=
  let evidence := Unicode.upper (e.name ++ " " ++ e.text)
  if containsWord evidence "TOP UP" || containsWord evidence "ALLOW TRADING ACCOUNT DEPLOYMENT" then
    { code := "metaapi_billing_required", state := .provisioning_failed
      userMessage := "MetaApi rejected account deployment because the MetaApi account needs funding." }
  else if containsWord evidence "TIMED OUT WAITING" && containsWord evidence "CONNECT" then
    { code := "broker_connection_timeout", state := .broker_disconnected
      userMessage := "MetaApi deployed the account but could not connect to the broker in time."
      retryable := true }
  else classifyProvisioningError "" "" none

theorem classifyProvisioningError_outcome (details message : String) (statusCode : Option Nat) :
    (classifyProvisioningError details message statusCode).state.IsOutcome := by
  unfold classifyProvisioningError
  simp only
  split
  · exact ⟨rfl, by simp⟩
  · split
    · exact ⟨rfl, by simp⟩
    · split <;> exact ⟨rfl, by simp⟩

theorem classifyMetaapiSdkError_outcome (e : SdkError) : (classifyMetaapiSdkError e).state.IsOutcome := by
  unfold classifyMetaapiSdkError
  simp only
  split
  · exact ⟨rfl, by simp⟩
  · split
    · exact ⟨rfl, by simp⟩
    · exact classifyProvisioningError_outcome ..

/-- `validate_terminal_account`: the state and the error of an account that is not
the one asked for, or cannot trade. -/
def validateTerminalAccount (connection : CopyTradingConnection) (info : Option AccountInformation) :
    Option (CopyTradingConnectionState × String × String) :=
  match info with
  | none => some (.synchronization_failed, "account_information_missing", "The broker account did not finish synchronizing.")
  | some info =>
    if info.login ≠ connection.brokerLogin || Unicode.casefold info.server ≠ Unicode.casefold connection.brokerServer then
      some (.synchronization_failed, "account_identity_mismatch",
        "The synchronized broker account does not match the requested login and server.")
    else if !info.tradeAllowed || info.investorMode then
      some (.trading_disabled, "trading_disabled", "Trader access is required for copy trading.")
    else none

theorem validateTerminalAccount_outcome {connection : CopyTradingConnection} {info : Option AccountInformation}
    {e : CopyTradingConnectionState × String × String} (h : validateTerminalAccount connection info = some e) :
    e.1.IsOutcome := by
  unfold validateTerminalAccount at h
  split at h
  · cases h
    exact ⟨rfl, by simp⟩
  · split at h
    · cases h
      exact ⟨rfl, by simp⟩
    · split at h <;> cases h
      exact ⟨rfl, by simp⟩

end

/-! ## The phases of a run -/

inductive ProvisioningPhase
  /-- The lock is still to be taken. -/
  | start
  | load
  | begin (loaded : CopyTradingConnection)
  /-- `provisioning` is committed. -/
  | request
  /-- The account is asked for. -/
  | create (loaded : CopyTradingConnection)
  /-- `deploying` is committed. -/
  | deploy
  | deployed (loaded : CopyTradingConnection)
  /-- `connecting` is committed. -/
  | connect
  /-- `synchronizing` is committed. -/
  | synchronize
  | acquire (loaded : CopyTradingConnection)

inductive ProvisioningLabel
  | lock
  | load
  | begin
  | reload
  | created (response : CreateResponse)
  | deployed (e : Option SdkError)
  | connected (e : Option SdkError)
  | acquired (response : Except PyException (Option AccountInformation))
  /-- Any other exception. -/
  | fails (e : PyException)

abbrev Connections := Table Uuid CopyTradingConnection

structure ProvisioningStep where
  connections : Connections
  stage : DeliveryStage ProvisioningPhase

/-- The changed columns, over the stored ones. -/
def CopyTradingConnection.writeBack (loaded new stored : CopyTradingConnection) : CopyTradingConnection :=
  { stored with
    state := SignalSync.writeBack loaded.state new.state stored.state
    metaapiAccountId := SignalSync.writeBack loaded.metaapiAccountId new.metaapiAccountId stored.metaapiAccountId
    lastError := SignalSync.writeBack loaded.lastError new.lastError stored.lastError }

section

variable [Unicode] (settings : ProvisioningSettings) (id : Uuid) (connections : Connections)

/-- The handler on an error of the provider; `write` is what is committed. -/
def failStep (error : MetaApiProvisioningError)
    (write : CopyTradingConnectionState → Option (String × String) → CopyTradingConnection → CopyTradingConnection) :
    ProvisioningStep where
  connections := connections.modify id (write error.state (some (error.code, error.userMessage)))
  stage := .result (if error.retryable then .retry error.code else .success)

/-- Over what the session has loaded. -/
def failLoaded (loaded : CopyTradingConnection) (error : MetaApiProvisioningError) : ProvisioningStep :=
  failStep id connections error fun state lastError => loaded.writeBack { loaded with state, lastError }

/-- Over attributes that have expired. -/
def failExpired (error : MetaApiProvisioningError) : ProvisioningStep :=
  failStep id connections error fun state lastError stored => { stored with state, lastError }

def commitStep (loaded new : CopyTradingConnection) (stage : DeliveryStage ProvisioningPhase) : ProvisioningStep where
  connections := connections.modify id (loaded.writeBack new)
  stage := stage

/-- After the job: the account is acquired, if there is one. -/
def completedStep (loaded : CopyTradingConnection) : ProvisioningStep where
  connections := connections
  stage := if loaded.hasAccount then .handle (.acquire loaded) else .result .success

def beginStep (loaded : CopyTradingConnection) : ProvisioningStep :=
  if !loaded.hasPassword then completedStep connections loaded
  else if loaded.hasAccount then commitStep id connections loaded { loaded with state := .deploying } (.handle .deploy)
  else commitStep id connections loaded { loaded with state := .provisioning, lastError := none } (.handle .request)

def createStep (loaded : CopyTradingConnection) : CreateResponse → ProvisioningStep
  | .accepted => ⟨connections, .result (.retry "PROVISIONING_ACCEPTED")⟩
  | .created accountId =>
    commitStep id connections loaded { loaded with metaapiAccountId := some accountId, state := .deploying } (.handle .deploy)
  | .rejected details message statusCode => failLoaded id connections loaded (classifyProvisioningError details message statusCode)
  | .failed e => failLoaded id connections loaded (classifyMetaapiSdkError e)

def acquireStep (loaded : CopyTradingConnection) : Except PyException (Option AccountInformation) → ProvisioningStep
  | .error e => ⟨connections, .result (.retry (Unicode.upper e.name))⟩
  | .ok info =>
    match validateTerminalAccount loaded info with
    | some (state, error) => commitStep id connections loaded { loaded with state, lastError := some error } (.result .success)
    | none => commitStep id connections loaded { loaded with state := .ready, lastError := none } (.result .success)

/-- The next step of a run; `none` where the label is not what the run waits for. -/
def provisioningStep (lockFree : Bool) : ProvisioningPhase → ProvisioningLabel → Option ProvisioningStep
  | .start, .lock =>
    some ⟨connections,
      if !settings.metaapiConfigured then .result (.retry "METAAPI_NOT_CONFIGURED")
      else if lockFree then .handle .load
      else .result (.retry "PROVISIONING_IN_PROGRESS")⟩
  | .load, .load =>
    some ⟨connections, match connections.get? id with
      | none => .result .success
      | some loaded => .handle (.begin loaded)⟩
  | .begin loaded, .begin => some (beginStep id connections loaded)
  | .request, .reload => (connections.get? id).map fun loaded => ⟨connections, .handle (.create loaded)⟩
  | .create loaded, .created response => some (createStep id connections loaded response)
  | .deploy, .reload => (connections.get? id).map fun loaded => ⟨connections, .handle (.deployed loaded)⟩
  | .deployed loaded, .deployed none =>
    some (commitStep id connections loaded { loaded with state := .connecting } (.handle .connect))
  | .deployed loaded, .deployed (some e) => some (failLoaded id connections loaded (classifyMetaapiSdkError e))
  | .connect, .connected none =>
    some ⟨connections.modify id fun stored => { stored with state := .synchronizing }, .handle .synchronize⟩
  | .connect, .connected (some e) => some (failExpired id connections (classifyMetaapiSdkError e))
  | .synchronize, .reload => (connections.get? id).map (completedStep connections)
  | .acquire loaded, .acquired response => some (acquireStep id connections loaded response)
  | _, .fails e => some ⟨connections, .result (.retry (Unicode.upper e.name))⟩
  | _, _ => none

end

/-! ## What a run relies on -/

/-- What every step keeps of a connection. -/
structure CopyTradingConnection.Keeps (stored new : CopyTradingConnection) : Prop where
  hasPassword : new.hasPassword = stored.hasPassword
  transactionId : new.provisioningTransactionId = stored.provisioningTransactionId
  hasAccount : stored.hasAccount → new.hasAccount
  notDeleted : stored.state ≠ .deleted → new.state ≠ .deleted

/-- What a phase relies on of the stored connection: nobody has taken its account
away, and nobody but the run has ended the transition. -/
def ProvisioningPhase.Sound (stored : CopyTradingConnection) : ProvisioningPhase → Prop
  | .start | .load => True
  | .begin loaded =>
    loaded.hasPassword ∧ (loaded.state.isTransitional → stored.state.isTransitional) ∧ (loaded.hasAccount → stored.hasAccount)
  | .request => stored.state.isTransitional
  | .create loaded =>
    loaded.state.isTransitional ∧ stored.state.isTransitional ∧ (loaded.hasAccount → stored.hasAccount)
  | .deploy | .synchronize => stored.state.isTransitional ∧ stored.hasAccount
  | .deployed loaded | .acquire loaded => loaded.state.isTransitional ∧ stored.hasAccount
  | .connect => stored.hasAccount

/-- What a step makes of its connection, and where the run stands then. -/
structure ProvisioningStep.Sound (h : ProvisioningStep) (id : Uuid) (connections : Connections) (stored new : CopyTradingConnection) :
    Prop where
  get? : ∀ id', h.connections.get? id' = if id' = id then some new else connections.get? id'
  keeps : stored.Keeps new
  stage : (∃ phase, h.stage = .handle phase ∧ phase ≠ .start ∧ phase.Sound new) ∨ (∃ code, h.stage = .result (.retry code)) ∨
    h.stage = .result .success ∧ new.state.isTransitional = false

section

variable {id : Uuid} {connections : Connections} {stored loaded new : CopyTradingConnection} {stage : DeliveryStage ProvisioningPhase}

theorem CopyTradingConnection.Keeps.refl (stored : CopyTradingConnection) : stored.Keeps stored := ⟨rfl, rfl, id, id⟩

theorem get?_modify_connection {f : CopyTradingConnection → CopyTradingConnection} (hrow : connections.get? id = some stored) (id' : Uuid) :
    (connections.modify id f).get? id' = if id' = id then some (f stored) else connections.get? id' := by
  rw [Table.get?_modify]
  split
  · rename_i he
    rw [he, hrow]
    rfl
  · rfl

/-- Columns written over what was loaded. -/
theorem keeps_writeBack (hs : new.state ≠ .deleted) (ha : new.hasAccount ∨ new.metaapiAccountId = loaded.metaapiAccountId) :
    stored.Keeps (loaded.writeBack new stored) where
  hasPassword := rfl
  transactionId := rfl
  hasAccount := by
    intro hst
    simp only [CopyTradingConnection.writeBack, CopyTradingConnection.hasAccount, SignalSync.writeBack] at *
    split
    · exact hst
    · rename_i hne
      exact ha.resolve_right hne
  notDeleted := by
    intro hst
    simp only [CopyTradingConnection.writeBack, SignalSync.writeBack]
    split
    · exact hst
    · exact hs

theorem writeBack_transitional (hn : new.state.isTransitional) (hl : loaded.state.isTransitional → stored.state.isTransitional) :
    (loaded.writeBack new stored).state.isTransitional := by
  simp only [CopyTradingConnection.writeBack, SignalSync.writeBack]
  split
  · rename_i he
    exact hl (he ▸ hn)
  · exact hn

/-- The end of a transition is always written. -/
theorem writeBack_outcome (hn : new.state.isTransitional = false) (hl : loaded.state.isTransitional) :
    (loaded.writeBack new stored).state.isTransitional = false := by
  simp only [CopyTradingConnection.writeBack, SignalSync.writeBack]
  split
  · rename_i he
    rw [← he, hn] at hl
    cases hl
  · exact hn

theorem writeBack_hasAccount (hn : new.hasAccount) (hl : loaded.hasAccount → stored.hasAccount) :
    (loaded.writeBack new stored).hasAccount := by
  simp only [CopyTradingConnection.writeBack, CopyTradingConnection.hasAccount, SignalSync.writeBack] at *
  split
  · rename_i he
    exact hl (he ▸ hn)
  · exact hn

/-- A step that writes nothing. -/
theorem sound_of_read (hrow : connections.get? id = some stored)
    (hstage : (∃ phase, stage = .handle phase ∧ phase ≠ .start ∧ phase.Sound stored) ∨ (∃ code, stage = .result (.retry code)) ∨
      stage = .result .success ∧ stored.state.isTransitional = false) :
    ProvisioningStep.Sound ⟨connections, stage⟩ id connections stored stored where
  get? id' := by
    split
    · rename_i he
      rw [he, hrow]
    · rfl
  keeps := .refl stored
  stage := hstage

theorem sound_of_fail {error : MetaApiProvisioningError}
    {write : CopyTradingConnectionState → Option (String × String) → CopyTradingConnection → CopyTradingConnection}
    (hrow : connections.get? id = some stored)
    (hk : stored.Keeps (write error.state (some (error.code, error.userMessage)) stored))
    (hw : (write error.state (some (error.code, error.userMessage)) stored).state.isTransitional = false) :
    ∃ new, (failStep id connections error write).Sound id connections stored new := by
  refine ⟨_, get?_modify_connection hrow, hk, ?_⟩
  unfold failStep
  dsimp only
  split
  · exact .inr (.inl ⟨_, rfl⟩)
  · exact .inr (.inr ⟨rfl, hw⟩)

theorem sound_of_failLoaded {error : MetaApiProvisioningError} (he : error.state.IsOutcome) (hrow : connections.get? id = some stored)
    (hl : loaded.state.isTransitional) : ∃ new, (failLoaded id connections loaded error).Sound id connections stored new :=
  sound_of_fail hrow (keeps_writeBack he.2 (.inr rfl)) (writeBack_outcome he.1 hl)

theorem sound_of_commit (hrow : connections.get? id = some stored) (hk : stored.Keeps (loaded.writeBack new stored))
    (hstage : (∃ phase, stage = .handle phase ∧ phase ≠ .start ∧ phase.Sound (loaded.writeBack new stored)) ∨
      (∃ code, stage = .result (.retry code)) ∨
      stage = .result .success ∧ (loaded.writeBack new stored).state.isTransitional = false) :
    ∃ written, (commitStep id connections loaded new stage).Sound id connections stored written :=
  ⟨_, get?_modify_connection hrow, hk, hstage⟩

variable [Unicode] {settings : ProvisioningSettings} {lockFree : Bool} {phase : ProvisioningPhase} {label : ProvisioningLabel}
  {h : ProvisioningStep}

/-- A step of a run on a sound phase leaves a sound one, is to be retried, or has
ended the transition. -/
theorem provisioningStep_sound (hs : provisioningStep settings id connections lockFree phase label = some h)
    (hrow : connections.get? id = some stored) (hph : phase.Sound stored) (hpw : stored.hasPassword)
    (hid : label ≠ .created (.created "")) : ∃ new, h.Sound id connections stored new := by
  unfold provisioningStep at hs
  split at hs
  · cases hs
    refine ⟨stored, sound_of_read hrow ?_⟩
    split
    · exact .inr (.inl ⟨_, rfl⟩)
    · split
      · exact .inl ⟨.load, rfl, by simp, trivial⟩
      · exact .inr (.inl ⟨_, rfl⟩)
  · cases hs
    refine ⟨stored, sound_of_read hrow ?_⟩
    rw [hrow]
    exact .inl ⟨.begin stored, rfl, by simp, hpw, fun h => h, fun h => h⟩
  · cases hs
    obtain ⟨hpl, hst, hac⟩ := hph
    unfold beginStep
    rw [hpl, if_neg (by simp)]
    split
    · rename_i hacc
      refine sound_of_commit hrow (keeps_writeBack (by simp) (.inr rfl)) (.inl ⟨.deploy, rfl, by simp, ?_, ?_⟩)
      · exact writeBack_transitional rfl hst
      · exact writeBack_hasAccount hacc hac
    · refine sound_of_commit hrow (keeps_writeBack (by simp) (.inr rfl)) (.inl ⟨.request, rfl, by simp, ?_⟩)
      exact writeBack_transitional rfl hst
  · obtain ⟨loaded, hl, rfl⟩ := Option.map_eq_some_iff.mp hs
    cases hrow.symm.trans hl
    exact ⟨stored, sound_of_read hrow (.inl ⟨.create stored, rfl, by simp, hph, hph, fun h => h⟩)⟩
  · rename_i loaded response
    cases hs
    obtain ⟨hl, hst, hac⟩ := hph
    cases response with
    | accepted => exact ⟨stored, sound_of_read hrow (.inr (.inl ⟨_, rfl⟩))⟩
    | created accountId =>
      have hne : accountId ≠ "" := fun he => hid (by rw [he])
      have hacc : CopyTradingConnection.hasAccount
          { loaded with metaapiAccountId := some accountId, state := .deploying } := by
        simp [CopyTradingConnection.hasAccount, hne]
      refine sound_of_commit hrow (keeps_writeBack (by simp) (.inl hacc)) (.inl ⟨.deploy, rfl, by simp, ?_, ?_⟩)
      · exact writeBack_transitional rfl fun _ => hst
      · exact writeBack_hasAccount hacc hac
    | rejected => exact sound_of_failLoaded (classifyProvisioningError_outcome ..) hrow hl
    | failed => exact sound_of_failLoaded (classifyMetaapiSdkError_outcome _) hrow hl
  · obtain ⟨loaded, hl, rfl⟩ := Option.map_eq_some_iff.mp hs
    cases hrow.symm.trans hl
    exact ⟨stored, sound_of_read hrow (.inl ⟨.deployed stored, rfl, by simp, hph⟩)⟩
  · rename_i loaded
    cases hs
    have hk : stored.Keeps (loaded.writeBack { loaded with state := .connecting } stored) := keeps_writeBack (by simp) (.inr rfl)
    exact sound_of_commit hrow hk (.inl ⟨.connect, rfl, by simp, hk.hasAccount hph.2⟩)
  · cases hs
    exact sound_of_failLoaded (classifyMetaapiSdkError_outcome _) hrow hph.1
  · cases hs
    exact ⟨_, get?_modify_connection hrow, ⟨rfl, rfl, fun h => h, fun _ => by simp⟩, .inl ⟨.synchronize, rfl, by simp, rfl, hph⟩⟩
  · rename_i e
    cases hs
    have he := classifyMetaapiSdkError_outcome e
    exact sound_of_fail hrow ⟨rfl, rfl, fun h => h, fun _ => he.2⟩ he.1
  · obtain ⟨loaded, hl, rfl⟩ := Option.map_eq_some_iff.mp hs
    cases hrow.symm.trans hl
    refine ⟨stored, sound_of_read hrow (.inl ⟨.acquire stored, ?_, by simp, hph⟩)⟩
    rw [if_pos hph.2]
  · rename_i loaded response
    cases hs
    obtain ⟨hl, -⟩ := hph
    cases response with
    | error e => exact ⟨stored, sound_of_read hrow (.inr (.inl ⟨_, rfl⟩))⟩
    | ok info =>
      unfold acquireStep
      dsimp only
      split
      · rename_i hv
        have he := validateTerminalAccount_outcome hv
        exact sound_of_commit hrow (keeps_writeBack he.2 (.inr rfl)) (.inr (.inr ⟨rfl, writeBack_outcome he.1 hl⟩))
      · exact sound_of_commit hrow (keeps_writeBack (by simp) (.inr rfl)) (.inr (.inr ⟨rfl, writeBack_outcome rfl hl⟩))
  · cases hs
    exact ⟨stored, sound_of_read hrow (.inr (.inl ⟨_, rfl⟩))⟩
  · cases hs

end

end Provisioning

end SignalSync
