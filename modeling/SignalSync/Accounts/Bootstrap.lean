import SignalSync.Accounts.Account
import SignalSync.Library.Except
import SignalSync.Library.Json
import SignalSync.Library.Text

/-!
# The bootstrap of an account

`bootstrap_account` verifies a new account's credentials, commits, and imports its
history; each part has except clauses for the client's own errors. Any other exception
leaves the task: the one that `sync_account_deals_mt5` raises when another sync has the
account's lock does. A run then ends with the account pending or bootstrapping and
nothing scheduled. `bootstrap_settles_iff` says which outcomes of the calls are so.
-/

namespace SignalSync

open Library

namespace Accounts

/-- The first characters of a text. -/
def clip (n : Nat) (text : String) : String := .ofList (text.toList.take n)

/-- How a run of the task ends. -/
inductive BootstrapEnd
  | skipped (reason : String)
  | returned (status reason : String)
  /-- Another run is scheduled. -/
  | retried (countdown : Nat)
  | raised (e : CallError)
deriving DecidableEq

/-- The row as the run leaves it, and whether the account's data version is raised. -/
structure BootstrapReply where
  account : Option TradingAccount
  ending : BootstrapEnd
  bumped : Bool := false
deriving DecidableEq

/-- What the calls of a run come to. -/
structure BootstrapCalls where
  now : Time
  bootstrapLock : Bool
  /-- `decrypt_secret` finds the secret, in the task and again in the sync. -/
  decrypts : Bool
  decryptsAgain : Bool
  verify : Except CallError Json
  ingestSnapshots : Json → Except CallError Nat
  syncLock : Bool
  submit : Except CallError Json
  ingestHistory : Json → Except CallError SyncResult

def maxRetries : Nat := 1

section

variable [Unicode] [Python]

/-- `is_valid_mt5_verification_result`; only a dictionary has `get`. -/
def isValidMt5VerificationResult (requestedLogin requestedServer : String) : Json → Except CallError Bool
  | .object fields =>
    let result := Json.object fields
    let verifiedLogin := Unicode.strip ((result.get "login").orElse (.string requestedLogin)).text
    let verifiedServer := Unicode.strip ((result.get "server").orElse (.string requestedServer)).text
    .ok ((result.get "verified").truthy && verifiedLogin = Unicode.strip requestedLogin &&
      Unicode.lower verifiedServer = Unicode.lower (Unicode.strip requestedServer))
  | _ => .error (.other "AttributeError")

/-- `_verification_snapshot`; the time of capture is text here. -/
def verificationSnapshot (now : Time) (result : Json) : Json :=
  .object [("captured_at", .string (toString now)), ("balance", result.get "balance"), ("equity", result.get "equity"),
    ("floating_pnl", .number "0" true)]

def syncAccountDealsMt5 (calls : BootstrapCalls) : Except CallError SyncResult :=
  if !calls.syncLock then .error (.http ⟨409, "Sync already in progress for this account."⟩)
  else if !calls.decryptsAgain then .error (.http ⟨500, "Failed to decrypt account credentials."⟩)
  else calls.submit.bind calls.ingestHistory

/-- The body of the first `try`: whether the credentials are those of the account. -/
def BootstrapCalls.verification (calls : BootstrapCalls) (account : TradingAccount) : Except CallError Bool := do
  let result ← calls.verify
  if ← isValidMt5VerificationResult account.brokerLogin account.brokerServer result then
    let _ ← calls.ingestSnapshots (verificationSnapshot calls.now result)
    return true
  else return false

/-- The import of the history. -/
def bootstrapSync (account : TradingAccount) (calls : BootstrapCalls) : BootstrapReply :=
  match syncAccountDealsMt5 calls with
  | .ok result =>
    { account := some ((account.setAccountLastSyncedAt calls.now).markAccountReadyForStats calls.now
        (if 0 < result.changedTrades then "success" else "success_empty"))
      ending := .returned "ready" ""
      bumped := 0 < result.changedTrades }
  | .error (.client ⟨.jobFailed, _⟩) =>
    { account := some (account.markAccountVerificationFailed mt5InvalidCredentialsMessage)
      ending := .returned "verification_failed" "invalid_credentials" }
  | .error (.client ⟨_, message⟩) =>
    { account := some ((account.markAccountBootstrapFailed (clip 500 message)).setAccountSyncError
        ("Initial sync failed: " ++ clip 450 message))
      ending := .returned "bootstrap_failed" message }
  | .error e => { account := some account, ending := .raised e }

def verificationUnavailableMessage : String := "Service Error: MT5 verification is temporarily unavailable. Please retry."

/-- `bootstrap_account`, in its run after `retries` others. -/
def bootstrapAccount (retries : Nat) (account : Option TradingAccount) (calls : BootstrapCalls) : BootstrapReply :=
  match account with
  | none => { account, ending := .skipped "account_not_found" }
  | some account =>
    if account.isArchived then { account, ending := .skipped "account_archived" }
    else if !calls.bootstrapLock then { account, ending := .skipped "bootstrap_in_progress" }
    else if !calls.decrypts then
      { account := some (account.markAccountVerificationFailed "Stored account credentials could not be decrypted.")
        ending := .returned "verification_failed" "credential_decrypt_failed" }
    else if account.connectionState = .pending_verification then
      match calls.verification account with
      | .ok true => bootstrapSync account.markAccountBootstrapping calls
      | .ok false =>
        { account := some (account.markAccountVerificationFailed mt5InvalidCredentialsMessage)
          ending := .returned "verification_failed" "invalid_credentials" }
      | .error (.client ⟨.jobFailed, _⟩) =>
        { account := some (account.markAccountVerificationFailed mt5InvalidCredentialsMessage)
          ending := .returned "verification_failed" "invalid_credentials" }
      | .error (.client _) =>
        if retries < maxRetries then { account, ending := .retried 2 }
        else
          { account := some ((account.markAccountBootstrapFailed verificationUnavailableMessage).setAccountSyncError
              verificationUnavailableMessage)
            ending := .returned "service_unavailable" "verification_unavailable" }
      | .error e => { account, ending := .raised e }
    else bootstrapSync account calls

/-! ## How a run ends -/

/-- The account has come to a state in which nothing more is expected. -/
def TradingAccount.IsSettled (account : TradingAccount) : Prop :=
  account.connectionState = .ready ∨ account.connectionState = .verification_failed ∨ account.connectionState = .bootstrap_failed

omit [Unicode] [Python] in
instance (account : TradingAccount) : Decidable account.IsSettled := inferInstanceAs (Decidable (_ ∨ _))

/-- A run that is not skipped settles the account, or schedules another run. -/
def BootstrapReply.Settles (reply : BootstrapReply) : Prop :=
  match reply.ending with
  | .skipped _ | .retried _ => True
  | _ => ∀ account ∈ reply.account, account.IsSettled

/-- What a call raises, if anything, is one of the client's own errors. -/
def Expected {α : Type} (call : Except CallError α) : Prop := ∀ e, call = .error e → e.isClient

/-- The import finds the account's lock free and the secret readable, and meets no other
exception. -/
structure BootstrapCalls.SyncExpected (calls : BootstrapCalls) : Prop where
  lock : calls.syncLock
  decrypts : calls.decryptsAgain
  submit : Expected calls.submit
  ingest : ∀ result, calls.submit = .ok result → Expected (calls.ingestHistory result)

/-- The verification answers with a dictionary, and meets no other exception. -/
structure BootstrapCalls.VerificationExpected (calls : BootstrapCalls) (account : TradingAccount) : Prop where
  verify : Expected calls.verify
  dictionary : ∀ result, calls.verify = .ok result → ∃ fields, result = .object fields
  ingest : ∀ result, calls.verify = .ok result →
    isValidMt5VerificationResult account.brokerLogin account.brokerServer result = .ok true →
      Expected (calls.ingestSnapshots (verificationSnapshot calls.now result))

/-- The credentials are verified, and the snapshot is stored. -/
def BootstrapCalls.Verified (calls : BootstrapCalls) (account : TradingAccount) : Prop :=
  ∃ result stored, calls.verify = .ok result ∧
    isValidMt5VerificationResult account.brokerLogin account.brokerServer result = .ok true ∧
      calls.ingestSnapshots (verificationSnapshot calls.now result) = .ok stored

/-- In a run that is not skipped, and has the credentials, the calls of each part that is
reached raise the client's errors only. -/
def BootstrapCalls.Foreseen (calls : BootstrapCalls) (account : TradingAccount) : Prop :=
  account.isArchived = false → calls.bootstrapLock → calls.decrypts →
    (account.connectionState = .pending_verification →
      calls.VerificationExpected account ∧ (calls.Verified account → calls.SyncExpected)) ∧
    (account.connectionState = .bootstrapping → calls.SyncExpected)

variable {retries : Nat} {account : TradingAccount} {calls : BootstrapCalls}

section

omit [Unicode] [Python]

variable {α β : Type}

theorem expected_ok (a : α) : Expected (.ok a : Except CallError α) := nofun

@[simp] theorem expected_error {e : CallError} : Expected (.error e : Except CallError α) ↔ e.isClient := by
  simp [Expected]

theorem expected_bind {call : Except CallError α} {f : α → Except CallError β} :
    Expected (call.bind f) ↔ Expected call ∧ ∀ a, call = .ok a → Expected (f a) := by
  cases call with
  | error e => simp [Except.bind]
  | ok a => simp [Except.bind, expected_ok]

theorem sync_expected_iff : Expected (syncAccountDealsMt5 calls) ↔ calls.SyncExpected := by
  unfold syncAccountDealsMt5
  split_ifs with hlock hdecrypts
  · rw [expected_error]
    exact iff_of_false nofun fun h => by simp [h.lock] at hlock
  · rw [expected_error]
    exact iff_of_false nofun fun h => by simp [h.decrypts] at hdecrypts
  · rw [expected_bind]
    exact ⟨fun h => ⟨by simpa using hlock, by simpa using hdecrypts, h.1, h.2⟩, fun h => ⟨h.submit, h.ingest⟩⟩

/-- What the import's except clauses catch, they settle. -/
theorem bootstrapSync_settles : (bootstrapSync account calls).Settles ↔ account.IsSettled ∨ calls.SyncExpected := by
  rw [← sync_expected_iff]
  unfold bootstrapSync
  split
  · rename_i hcall
    rw [hcall]
    exact iff_of_true (by simp [BootstrapReply.Settles, TradingAccount.IsSettled, TradingAccount.markAccountReadyForStats])
      (.inr (expected_ok _))
  · rename_i hcall
    rw [hcall, expected_error]
    exact iff_of_true (by simp [BootstrapReply.Settles, TradingAccount.IsSettled, TradingAccount.markAccountVerificationFailed])
      (.inr rfl)
  · rename_i hcall
    rw [hcall, expected_error]
    exact iff_of_true (by simp [BootstrapReply.Settles, TradingAccount.IsSettled, TradingAccount.markAccountBootstrapFailed,
      TradingAccount.setAccountSyncError]) (.inr rfl)
  · rename_i e hjob hclient hcall
    have hother : ¬ e.isClient := by
      cases e with
      | client e => exact absurd rfl (hclient e.kind e.message)
      | http e => nofun
      | other name => nofun
    rw [hcall, expected_error, or_iff_left hother]
    simp [BootstrapReply.Settles]

end

theorem isValid_expected_iff {login server : String} {result : Json} :
    Expected (isValidMt5VerificationResult login server result) ↔ ∃ fields, result = .object fields := by
  cases result with
  | object fields => exact iff_of_true (expected_ok _) ⟨fields, rfl⟩
  | _ => exact iff_of_false (by simp [isValidMt5VerificationResult, CallError.isClient]) (by simp)

theorem verification_eq : calls.verification account = calls.verify.bind fun result =>
    (isValidMt5VerificationResult account.brokerLogin account.brokerServer result).bind fun isValid =>
      if isValid then (calls.ingestSnapshots (verificationSnapshot calls.now result)).bind fun _ => .ok true else .ok false := rfl

theorem verification_expected_iff : Expected (calls.verification account) ↔ calls.VerificationExpected account := by
  have hanswer (result : Json) : Expected ((isValidMt5VerificationResult account.brokerLogin account.brokerServer result).bind
      fun isValid => if isValid then (calls.ingestSnapshots (verificationSnapshot calls.now result)).bind fun _ => .ok true
        else .ok false) ↔ (∃ fields, result = .object fields) ∧
      (isValidMt5VerificationResult account.brokerLogin account.brokerServer result = .ok true →
        Expected (calls.ingestSnapshots (verificationSnapshot calls.now result))) := by
    rw [expected_bind, isValid_expected_iff]
    refine and_congr_right fun _ => ⟨fun h hvalid => ?_, fun h isValid hvalid => ?_⟩
    · have hingest := h true hvalid
      rw [if_pos rfl, expected_bind] at hingest
      exact hingest.1
    · cases isValid with
      | false => exact expected_ok _
      | true =>
        rw [if_pos rfl, expected_bind]
        exact ⟨h hvalid, fun _ _ => expected_ok _⟩
  rw [verification_eq, expected_bind]
  exact ⟨fun h => ⟨h.1, fun result hr => ((hanswer result).mp (h.2 result hr)).1, fun result hr => ((hanswer result).mp (h.2 result hr)).2⟩,
    fun h => ⟨h.verify, fun result hr => (hanswer result).mpr ⟨h.dictionary result hr, h.ingest result hr⟩⟩⟩

theorem verification_eq_true : calls.verification account = .ok true ↔ calls.Verified account := by
  rw [verification_eq]
  constructor
  · intro h
    obtain ⟨result, hresult, h⟩ := bind_eq_ok.mp h
    obtain ⟨isValid, hvalid, h⟩ := bind_eq_ok.mp h
    cases isValid with
    | false => cases h
    | true =>
      obtain ⟨stored, hstored, -⟩ := bind_eq_ok.mp h
      exact ⟨result, stored, hresult, hvalid, hstored⟩
  · rintro ⟨result, stored, hresult, hvalid, hstored⟩
    simp [hresult, hvalid, hstored, Except.bind]

omit [Unicode] [Python] in
theorem settled_iff : account.IsSettled ↔
    account.connectionState ≠ .pending_verification ∧ account.connectionState ≠ .bootstrapping := by
  unfold TradingAccount.IsSettled
  cases account.connectionState <;> decide

/-- A run that verifies first settles what the client's errors leave, and the import the rest. -/
theorem settles_of_pending (harchived : account.isArchived = false) (hlock : calls.bootstrapLock) (hdecrypts : calls.decrypts)
    (hpending : account.connectionState = .pending_verification) :
    (bootstrapAccount retries (some account) calls).Settles ↔
      Expected (calls.verification account) ∧ (calls.verification account = .ok true → calls.SyncExpected) := by
  have hunsettled : ¬ account.IsSettled := fun h => (settled_iff.1 h).1 hpending
  simp only [bootstrapAccount, harchived, hlock, hdecrypts, hpending, if_true, Bool.not_true, Bool.false_eq_true, if_false]
  split
  · rename_i hv
    have hbootstrapping : ¬ account.markAccountBootstrapping.IsSettled := fun h => (settled_iff.1 h).2 rfl
    rw [bootstrapSync_settles, or_iff_right hbootstrapping, hv]
    simp [expected_ok]
  · rename_i hv
    rw [hv]
    simp [expected_ok, BootstrapReply.Settles, TradingAccount.IsSettled, TradingAccount.markAccountVerificationFailed]
  · rename_i hv
    rw [hv]
    simp [BootstrapReply.Settles, TradingAccount.IsSettled, TradingAccount.markAccountVerificationFailed, CallError.isClient]
  · rename_i hv
    rw [hv]
    split_ifs
    · simp [BootstrapReply.Settles, CallError.isClient]
    · simp [BootstrapReply.Settles, TradingAccount.IsSettled, TradingAccount.markAccountBootstrapFailed,
        TradingAccount.setAccountSyncError, CallError.isClient]
  · rename_i e hjob hclient hv
    have hother : e.isClient = false := by
      cases e with
      | client e => exact absurd rfl (hclient e)
      | http e => rfl
      | other name => rfl
    rw [hv]
    simp [BootstrapReply.Settles, hunsettled, hother]

/-- A run settles the account, or schedules another run, iff its calls are foreseen. -/
theorem bootstrap_settles_iff : (bootstrapAccount retries (some account) calls).Settles ↔ calls.Foreseen account := by
  cases harchived : account.isArchived with
  | true => simp [bootstrapAccount, BootstrapReply.Settles, BootstrapCalls.Foreseen, harchived]
  | false =>
    cases hlock : calls.bootstrapLock with
    | false => simp [bootstrapAccount, BootstrapReply.Settles, BootstrapCalls.Foreseen, harchived, hlock]
    | true =>
      cases hdecrypts : calls.decrypts with
      | false =>
        simp [bootstrapAccount, BootstrapReply.Settles, BootstrapCalls.Foreseen, harchived, hlock, hdecrypts, settled_iff,
          TradingAccount.markAccountVerificationFailed]
      | true =>
        have hforeseen : calls.Foreseen account ↔
            (account.connectionState = .pending_verification →
              calls.VerificationExpected account ∧ (calls.Verified account → calls.SyncExpected)) ∧
            (account.connectionState = .bootstrapping → calls.SyncExpected) := by
          simp [BootstrapCalls.Foreseen, harchived, hlock, hdecrypts]
        rw [hforeseen]
        by_cases hpending : account.connectionState = .pending_verification
        · rw [settles_of_pending harchived hlock hdecrypts hpending, verification_expected_iff, verification_eq_true]
          simp [hpending]
        · have himport : bootstrapAccount retries (some account) calls = bootstrapSync account calls := by
            simp [bootstrapAccount, harchived, hlock, hdecrypts, hpending]
          rw [himport, bootstrapSync_settles, settled_iff]
          simp only [ne_eq, hpending, not_false_eq_true, true_and, false_implies]
          exact ⟨fun h hstate => h.resolve_left (absurd hstate), fun h => or_iff_not_imp_left.mpr fun hs => h (not_not.mp hs)⟩

/-! ## Another sync has the lock -/

def silverAccount : TradingAccount := { userId := 1, brokerLogin := "1001", brokerServer := "Silver-Live" }

/-- The credentials are verified, and a manual sync runs. -/
def silverCalls : BootstrapCalls where
  now := 0
  bootstrapLock := true
  decrypts := true
  decryptsAgain := true
  verify := .ok (.object [("verified", .bool true)])
  ingestSnapshots _ := .ok 1
  syncLock := false
  submit := .ok (.object [])
  ingestHistory _ := .ok ⟨0, 0, 0, 0⟩

omit [Unicode] [Python] in
theorem lockedSync_unsettled :
    let _ := Unicode.ascii
    let _ : Python := ⟨fun _ => "", fun _ => none⟩
    (bootstrapAccount 0 (some silverAccount) silverCalls).account = some { silverAccount with connectionState := .bootstrapping } ∧
      (bootstrapAccount 0 (some silverAccount) silverCalls).ending =
        .raised (.http ⟨409, "Sync already in progress for this account."⟩) ∧
      ¬ (bootstrapAccount 0 (some silverAccount) silverCalls).Settles := by
  intro _ _
  have hreply : bootstrapAccount 0 (some silverAccount) silverCalls =
      { account := some { silverAccount with connectionState := .bootstrapping }
        ending := .raised (.http ⟨409, "Sync already in progress for this account."⟩) } := by decide +kernel
  rw [hreply]
  refine ⟨rfl, rfl, fun h => ?_⟩
  have hsettled : ({ silverAccount with connectionState := .bootstrapping } : TradingAccount).IsSettled := h _ rfl
  exact absurd hsettled (by decide)

end

end Accounts

end SignalSync
