import SignalSync.Database
import SignalSync.Delivery

/-!
# Trading accounts

The row of an account that is synced with its broker, what the repository marks on it,
and what a call of the broker's service can raise.
-/

namespace SignalSync

namespace Accounts

inductive TradingAccountStatus
  | pending_sync | synced | error
deriving DecidableEq, Repr

inductive TradingAccountConnectionState
  | pending_verification | verification_failed | bootstrapping | ready | bootstrap_failed
deriving DecidableEq, Repr

inductive ImportMethod
  | auto_sync | csv_upload | manual
deriving DecidableEq, Repr

inductive TradingAccountType
  | demo | live
deriving DecidableEq, Repr

structure TradingAccount where
  userId : Uuid
  accountType : TradingAccountType := .live
  importMethod : ImportMethod := .auto_sync
  brokerLogin : String := ""
  brokerServer : String := ""
  isArchived : Bool := false
  status : TradingAccountStatus := .pending_sync
  syncErrorMessage : Option String := none
  connectionState : TradingAccountConnectionState := .pending_verification
  isDataReadyForStats : Bool := false
  lastSyncedAt : Option Time := none
  lastSyncAttemptedAt : Option Time := none
  lastSyncOutcome : Option String := none
  nextSyncNotBefore : Option Time := none
  consecutiveSyncFailures : Nat := 0
  lastBootstrapSyncedAt : Option Time := none
  bootstrapErrorMessage : Option String := none
deriving DecidableEq

/-! ## The repository's marks -/

namespace TradingAccount

variable (account : TradingAccount)

def setSyncAttemptStarted (attemptedAt : Time) : TradingAccount := { account with lastSyncAttemptedAt := some attemptedAt }

def markSyncSuccess (syncedAt : Time) (nextSyncNotBefore : Option Time) (outcome : String) : TradingAccount :=
  { account with
    lastSyncedAt := some syncedAt, lastSyncAttemptedAt := some syncedAt, nextSyncNotBefore
    lastSyncOutcome := some outcome, consecutiveSyncFailures := 0, status := .synced, syncErrorMessage := none }

def markSyncRetryable (outcome message : String) (retryAfterSeconds : Option Nat) (attemptedAt : Time) : TradingAccount :=
  { account with
    lastSyncAttemptedAt := some attemptedAt, lastSyncOutcome := some outcome
    consecutiveSyncFailures := account.consecutiveSyncFailures + 1
    nextSyncNotBefore := some (attemptedAt + seconds (retryAfterSeconds.getD 60)), syncErrorMessage := some message }

def markSyncAttentionRequired (outcome message : String) (attemptedAt : Time) : TradingAccount :=
  { account with
    lastSyncAttemptedAt := some attemptedAt, lastSyncOutcome := some outcome, syncErrorMessage := some message }

def setAccountLastSyncedAt (syncedAt : Time) : TradingAccount :=
  { account with lastSyncedAt := some syncedAt, status := .synced, syncErrorMessage := none }

def setAccountSyncError (message : String) : TradingAccount := { account with status := .error, syncErrorMessage := some message }

def markAccountBootstrapping : TradingAccount :=
  { account with connectionState := .bootstrapping, isDataReadyForStats := false, bootstrapErrorMessage := none }

def markAccountReadyForStats (syncedAt : Time) (syncOutcome : String) : TradingAccount :=
  { account with
    connectionState := .ready, isDataReadyForStats := true, lastSyncedAt := some syncedAt
    lastSyncAttemptedAt := some syncedAt, lastSyncOutcome := some syncOutcome, consecutiveSyncFailures := 0
    nextSyncNotBefore := none, syncErrorMessage := none, lastBootstrapSyncedAt := some syncedAt
    bootstrapErrorMessage := none }

def markAccountVerificationFailed (message : String) : TradingAccount :=
  { account with
    status := .error, connectionState := .verification_failed, isDataReadyForStats := false
    syncErrorMessage := some message, bootstrapErrorMessage := none }

def markAccountBootstrapFailed (message : String) : TradingAccount :=
  { account with
    connectionState := .bootstrap_failed, isDataReadyForStats := false, bootstrapErrorMessage := some message }

/-- The columns the marks write, over the row as it is stored by now. -/
def writeBack (loaded new stored : TradingAccount) : TradingAccount :=
  { stored with
    status := SignalSync.writeBack loaded.status new.status stored.status
    syncErrorMessage := SignalSync.writeBack loaded.syncErrorMessage new.syncErrorMessage stored.syncErrorMessage
    connectionState := SignalSync.writeBack loaded.connectionState new.connectionState stored.connectionState
    isDataReadyForStats := SignalSync.writeBack loaded.isDataReadyForStats new.isDataReadyForStats stored.isDataReadyForStats
    lastSyncedAt := SignalSync.writeBack loaded.lastSyncedAt new.lastSyncedAt stored.lastSyncedAt
    lastSyncAttemptedAt := SignalSync.writeBack loaded.lastSyncAttemptedAt new.lastSyncAttemptedAt stored.lastSyncAttemptedAt
    lastSyncOutcome := SignalSync.writeBack loaded.lastSyncOutcome new.lastSyncOutcome stored.lastSyncOutcome
    nextSyncNotBefore := SignalSync.writeBack loaded.nextSyncNotBefore new.nextSyncNotBefore stored.nextSyncNotBefore
    consecutiveSyncFailures :=
      SignalSync.writeBack loaded.consecutiveSyncFailures new.consecutiveSyncFailures stored.consecutiveSyncFailures
    lastBootstrapSyncedAt :=
      SignalSync.writeBack loaded.lastBootstrapSyncedAt new.lastBootstrapSyncedAt stored.lastBootstrapSyncedAt
    bootstrapErrorMessage :=
      SignalSync.writeBack loaded.bootstrapErrorMessage new.bootstrapErrorMessage stored.bootstrapErrorMessage }

end TradingAccount

/-! ## Calls of the broker's service -/

/-- The classes of `Mt5CoreClientError`, with what the handlers read of them. -/
inductive Mt5CoreClientErrorKind
  | error | timeout | workerUnavailable | jobFailed | transientJobFailed | http
  | rateLimited (retryAfterSeconds : Option Nat)
  | backpressure (retryAfterSeconds : Option Nat)
deriving DecidableEq, Repr

structure Mt5CoreClientError where
  kind : Mt5CoreClientErrorKind
  message : String
deriving DecidableEq

/-- What a call raises; any other exception goes by its name. -/
inductive CallError
  | client (e : Mt5CoreClientError)
  | http (e : HttpError)
  | other (name : String)
deriving DecidableEq

/-- `Mt5CoreClientError` or one of its subclasses. -/
def CallError.isClient : CallError → Bool
  | .client _ => true
  | _ => false

structure SyncResult where
  insertedTrades : Nat
  touchedTradingDates : Nat
  updatedTrades : Nat := 0
  deletedTrades : Nat := 0
deriving DecidableEq

def SyncResult.changedTrades (result : SyncResult) : Nat := result.insertedTrades + result.updatedTrades + result.deletedTrades

def mt5InvalidCredentialsMessage : String :=
  "MT5 authorization failed. Check the account number, broker server, and investor password."

end Accounts

end SignalSync
