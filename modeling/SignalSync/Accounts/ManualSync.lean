import SignalSync.Accounts.Account
import SignalSync.Library.Run
import Mathlib.Data.List.Sort

/-!
# The burst limit of manual syncs

A request counts the user's accounts whose last attempt lies in the window. An account
keeps one timestamp: a request that is admitted again before the worker has taken up the
first one writes over it, and so does a sync that began before the request and took the
lock after it. Where neither happens, and no account goes with its timestamp, no window
has more admitted requests than the limit (`admitted_le`).

* `Marked`: the requests of the last window are on different accounts, each of which
  still shows an attempt at least as late.
-/

namespace SignalSync

open Library

namespace Accounts

structure ManualSyncSettings where
  manualSyncCooldownSeconds : Nat := 300
  manualSyncBurstWindowSeconds : Nat := 60
  manualSyncBurstMaxAttempts : Nat := 5

def ManualSyncSettings.window (settings : ManualSyncSettings) : Time := seconds settings.manualSyncBurstWindowSeconds

/-! ## Admission -/

/-- `_build_guarded_result`. -/
structure GuardedResult where
  outcome : String
  retryAfterSeconds : Nat
  message : String
deriving DecidableEq

def secondsUntil (target now : Time) : Nat := max 1 ((target - now + 999000) / seconds 1)

section

variable (settings : ManualSyncSettings) (accounts : Table Uuid TradingAccount)

/-- The user's accounts whose last attempt is not before `since`, where `since` is the
window's length before now. -/
def recentAccounts (userId : Uuid) (now : Time) : List (Uuid × TradingAccount) :=
  accounts.select fun _ row => row.userId = userId && row.lastSyncAttemptedAt.any fun last => now ≤ last + settings.window

def listRecentSyncAttemptsForUser (userId : Uuid) (now : Time) : List Time :=
  ((recentAccounts settings accounts userId now).filterMap fun row => row.2.lastSyncAttemptedAt).insertionSort (· ≤ ·)

def checkManualSyncAdmission (account : TradingAccount) (isLocked : Bool) (attemptedAt : Time) : Option GuardedResult :=
  if isLocked then some ⟨"in_progress", 10, "Sync already in progress for this account."⟩
  else match account.nextSyncNotBefore.filter (attemptedAt < ·) with
  | some notBefore => some ⟨"cooldown", secondsUntil notBefore attemptedAt, "Manual sync is on cooldown for this account."⟩
  | none =>
    let recentAttempts := listRecentSyncAttemptsForUser settings accounts account.userId attemptedAt
    if settings.manualSyncBurstMaxAttempts ≤ recentAttempts.length then
      some ⟨"rate_limited", secondsUntil (recentAttempts.headD 0 + settings.window) attemptedAt,
        "You have reached the manual sync limit for now. Please retry shortly."⟩
    else none

end

/-- What `orchestrate_mt5_sync` makes of the call to the broker, for a sync that the
router has admitted; `none` leaves the row as it is. -/
def orchestrateMt5Sync (settings : ManualSyncSettings) (account : TradingAccount) (attemptedAt : Time) :
    Except CallError SyncResult → Option TradingAccount
  | .ok _ =>
    some (account.markSyncSuccess attemptedAt (some (attemptedAt + seconds settings.manualSyncCooldownSeconds)) "success")
  | .error (.client ⟨.rateLimited retryAfter, message⟩) =>
    some (account.markSyncRetryable "rate_limited" message retryAfter attemptedAt)
  | .error (.client ⟨.backpressure retryAfter, message⟩) =>
    some (account.markSyncRetryable "backpressure" message retryAfter attemptedAt)
  | .error (.client ⟨.timeout, message⟩) => some (account.markSyncRetryable "timeout" message none attemptedAt)
  | .error (.client ⟨.jobFailed, _⟩) =>
    some ((account.markAccountVerificationFailed mt5InvalidCredentialsMessage).markSyncAttentionRequired
      "invalid_credentials" mt5InvalidCredentialsMessage attemptedAt)
  | .error (.client ⟨_, message⟩) => some (account.markSyncRetryable "transient_error" message none attemptedAt)
  | .error (.http _) | .error (.other _) => none

/-! ## Requests and syncs -/

/-- A run of `sync_account`, with the row it has loaded. -/
inductive SyncRun
  | started (id : Uuid) (loaded : TradingAccount) (attemptedAt : Time)
  /-- The run has the account's advisory lock. -/
  | locked (id : Uuid) (loaded : TradingAccount) (attemptedAt : Time)
  | done

def SyncRun.locks (id : Uuid) : SyncRun → Bool
  | .locked id' .. => id' = id
  | _ => false

/-- The accounts, the runs of the worker, and the user's requests that were admitted. -/
structure SyncState where
  now : Time := 0
  accounts : Table Uuid TradingAccount := ∅
  runs : List SyncRun := []
  admitted : List (Uuid × Time) := []

inductive SyncLabel
  | connect (id : Uuid) (account : TradingAccount)
  | delete (id : Uuid)
  /-- A request of the user. -/
  | manualSync (id : Uuid)
  | start (id : Uuid)
  | lock (i : Nat)
  | finish (i : Nat) (result : Except CallError SyncResult)
  /-- The account's bootstrap ends well. -/
  | bootstrapped (id : Uuid) (outcome : String)
  | tick (duration : Time)

namespace SyncState

section

variable (settings : ManualSyncSettings) (user : Uuid) (s : SyncState)

/-- `is_account_sync_locked`. -/
def isAccountSyncLocked (id : Uuid) : Bool := s.runs.any (·.locks id)

/-- `manual_sync`, for the row it has found. -/
def manualSync (id : Uuid) (account : TradingAccount) : SyncState :=
  if account.accountType = .demo then s
  else if account.importMethod ≠ .auto_sync then s
  else match checkManualSyncAdmission settings s.accounts account (s.isAccountSyncLocked id) s.now with
  | some _ => s
  | none =>
    { s with
      accounts := s.accounts.modify id (·.setSyncAttemptStarted s.now)
      admitted := s.admitted ++ [(id, s.now)] }

def step : SyncLabel → Option SyncState
  | .connect id account => some { s with accounts := s.accounts.add id account }
  | .delete id => some { s with accounts := s.accounts.remove id }
  | .manualSync id =>
    match (s.accounts.get? id).filter (·.userId = user) with
    | some account => some (s.manualSync settings id account)
    | none => some s
  | .start id =>
    match s.accounts.get? id with
    | some account => if account.isArchived then some s else some { s with runs := s.runs ++ [.started id account s.now] }
    | none => some s
  | .lock i =>
    match s.runs[i]? with
    | some (.started id loaded attemptedAt) =>
      if s.isAccountSyncLocked id then some { s with runs := s.runs.set i .done }
      else some { s with runs := s.runs.set i (.locked id loaded attemptedAt) }
    | _ => none
  | .finish i result =>
    match s.runs[i]? with
    | some (.locked id loaded attemptedAt) =>
      match orchestrateMt5Sync settings loaded attemptedAt result with
      | some new => some { s with runs := s.runs.set i .done, accounts := s.accounts.modify id (loaded.writeBack new) }
      | none => some { s with runs := s.runs.set i .done }
    | _ => none
  | .bootstrapped id outcome =>
    some { s with accounts := s.accounts.modify id (·.markAccountReadyForStats s.now outcome) }
  | .tick duration => some { s with now := s.now + duration }

/-- The user's requests that were admitted within the window before now. -/
def recent : List (Uuid × Time) := s.admitted.filter fun e => s.now ≤ e.2 + settings.window

/-- Every admitted request keeps its mark through the window. Its account is not asked
again unless a sync, a cooldown or the marks themselves stop the request, it is not deleted,
and no sync that began before the request ends. -/
def KeepsMarks : SyncLabel → Prop
  | .manualSync id =>
    (∃ e ∈ s.recent settings, e.1 = id) →
      s.isAccountSyncLocked id ∨ ∃ account ∈ s.accounts.get? id,
        (∃ notBefore ∈ account.nextSyncNotBefore, s.now < notBefore) ∨
          settings.manualSyncBurstMaxAttempts ≤ (listRecentSyncAttemptsForUser settings s.accounts account.userId s.now).length
  | .delete id => ∀ e ∈ s.recent settings, e.1 ≠ id
  | .finish i _ =>
    match s.runs[i]? with
    | some (.locked id _ attemptedAt) => ∀ e ∈ s.recent settings, e.1 = id → e.2 ≤ attemptedAt
    | _ => True
  | _ => True

instance (l : SyncLabel) : Decidable (s.KeepsMarks settings l) := by
  unfold KeepsMarks
  split <;> first | infer_instance | (split <;> infer_instance)

end

/-! ## Marks -/

section

variable {settings : ManualSyncSettings} {user : Uuid} {s t : SyncState}

/-- The account still shows an attempt at least as late as the request. -/
def Shows (accounts : Table Uuid TradingAccount) (user : Uuid) (e : Uuid × Time) : Prop :=
  ∃ row, accounts.get? e.1 = some row ∧ row.userId = user ∧ ∃ last, row.lastSyncAttemptedAt = some last ∧ e.2 ≤ last

structure Marked (settings : ManualSyncSettings) (user : Uuid) (s : SyncState) : Prop where
  past : ∀ e ∈ s.admitted, e.2 ≤ s.now
  shown : ∀ e ∈ s.recent settings, Shows s.accounts user e
  distinct : ((s.recent settings).map Prod.fst).Nodup
  bounded : ∀ t, (s.admitted.filter fun e => t ≤ e.2 && e.2 ≤ t + settings.window).length ≤ settings.manualSyncBurstMaxAttempts

theorem mem_recent {e : Uuid × Time} : e ∈ s.recent settings ↔ e ∈ s.admitted ∧ s.now ≤ e.2 + settings.window := by
  simp [recent]

/-- A row that is rewritten keeps its user, and an attempt as late as the requests. -/
theorem Shows.modify {accounts : Table Uuid TradingAccount} {id : Uuid} {f : TradingAccount → TradingAccount} {e : Uuid × Time}
    (h : Shows accounts user e) (hu : ∀ row, (f row).userId = row.userId)
    (hf : e.1 = id → ∀ row last, row.lastSyncAttemptedAt = some last → e.2 ≤ last →
      ∃ last', (f row).lastSyncAttemptedAt = some last' ∧ e.2 ≤ last') : Shows (accounts.modify id f) user e := by
  obtain ⟨row, hrow, huser, last, hlast, hle⟩ := h
  by_cases he : e.1 = id
  · refine ⟨f row, ?_, (hu row).trans huser, hf he row last hlast hle⟩
    rw [Table.get?_modify, if_pos he, hrow]
    rfl
  · exact ⟨row, (Table.get?_modify_of_ne f he).trans hrow, huser, last, hlast, hle⟩

/-- A step that admits nothing and leaves each mark. -/
theorem Marked.accounts (h : Marked settings user s) {accounts : Table Uuid TradingAccount} {runs : List SyncRun}
    (hs : ∀ e ∈ s.recent settings, Shows accounts user e) : Marked settings user { s with accounts, runs } :=
  ⟨h.past, hs, h.distinct, h.bounded⟩

theorem Marked.modify (h : Marked settings user s) {id : Uuid} {f : TradingAccount → TradingAccount} {runs : List SyncRun}
    (hu : ∀ row, (f row).userId = row.userId)
    (hf : ∀ e ∈ s.recent settings, e.1 = id → ∀ row last, row.lastSyncAttemptedAt = some last → e.2 ≤ last →
      ∃ last', (f row).lastSyncAttemptedAt = some last' ∧ e.2 ≤ last') :
    Marked settings user { s with accounts := s.accounts.modify id f, runs } :=
  h.accounts fun e he => (h.shown e he).modify hu (hf e he)

/-- The requests of the window are among the attempts that are counted. -/
theorem Marked.length_recent_le (h : Marked settings user s) :
    (s.recent settings).length ≤ (listRecentSyncAttemptsForUser settings s.accounts user s.now).length := by
  have hkeys : (s.recent settings).map Prod.fst ⊆ (recentAccounts settings s.accounts user s.now).map Prod.fst := by
    intro id hid
    obtain ⟨e, he, rfl⟩ := List.mem_map.mp hid
    obtain ⟨row, hrow, huser, last, hlast, hle⟩ := h.shown e he
    have hwindow : s.now ≤ last + settings.window := (mem_recent.1 he).2.trans (Nat.add_le_add_right hle _)
    refine List.mem_map.mpr ⟨(e.1, row), Table.mem_select.2 ⟨hrow, ?_⟩, rfl⟩
    simp [huser, hlast, hwindow]
  have hcounted : (listRecentSyncAttemptsForUser settings s.accounts user s.now).length =
      (recentAccounts settings s.accounts user s.now).length := by
    rw [listRecentSyncAttemptsForUser, List.length_insertionSort, List.length_filterMap_eq_countP, List.countP_eq_length]
    intro e he
    obtain ⟨-, hselected⟩ := Table.mem_select.1 he
    simp only [Bool.and_eq_true] at hselected
    exact Option.isSome_of_any hselected.2
  have hle := (h.distinct.subperm hkeys).length_le
  rw [List.length_map, List.length_map] at hle
  omega

/-- A request is admitted on an account that the window does not have yet. -/
theorem Marked.admit (h : Marked settings user s) {id : Uuid} {account : TradingAccount} (hrow : s.accounts.get? id = some account)
    (huser : account.userId = user) (hnew : ∀ e ∈ s.recent settings, e.1 ≠ id)
    (hcount : (listRecentSyncAttemptsForUser settings s.accounts user s.now).length < settings.manualSyncBurstMaxAttempts) :
    Marked settings user
      { s with
        accounts := s.accounts.modify id (·.setSyncAttemptStarted s.now)
        admitted := s.admitted ++ [(id, s.now)] } := by
  have hnow : s.now ≤ s.now + settings.window := Nat.le_add_right _ _
  have hrecent : recent settings { s with
      accounts := s.accounts.modify id (·.setSyncAttemptStarted s.now)
      admitted := s.admitted ++ [(id, s.now)] } = s.recent settings ++ [(id, s.now)] := by
    simp [recent, hnow]
  refine ⟨fun e he => ?_, fun e he => ?_, ?_, fun t => ?_⟩
  · rcases List.mem_append.mp he with he | he
    · exact h.past e he
    · cases List.mem_singleton.mp he
      exact le_rfl
  · rw [hrecent] at he
    rcases List.mem_append.mp he with he | he
    · exact (h.shown e he).modify (fun _ => rfl) fun hid => absurd hid (hnew e he)
    · cases List.mem_singleton.mp he
      exact ⟨account.setSyncAttemptStarted s.now, by rw [Table.get?_modify_self, hrow]; rfl, huser, s.now, rfl, le_rfl⟩
  · rw [hrecent, List.map_append]
    refine h.distinct.append (List.nodup_singleton id) (List.disjoint_singleton.mpr fun hid => ?_)
    obtain ⟨e, he, hid⟩ := List.mem_map.mp hid
    exact hnew e he hid
  · rw [List.filter_append, List.length_append]
    by_cases ht : t ≤ s.now ∧ s.now ≤ t + settings.window
    · -- what the window of `t` had before now, the window before now has too
      have hsub : (s.admitted.filter fun e => t ≤ e.2 && e.2 ≤ t + settings.window).length ≤ (s.recent settings).length := by
        refine (List.monotone_filter_right s.admitted fun e he => ?_).length_le
        simp only [Bool.and_eq_true, decide_eq_true_eq] at he ⊢
        exact ht.2.trans (Nat.add_le_add_right he.1 _)
      have hlast : ([(id, s.now)].filter fun e => t ≤ e.2 && e.2 ≤ t + settings.window).length ≤ 1 := List.length_filter_le ..
      have hlt := (hsub.trans h.length_recent_le).trans_lt hcount
      exact (Nat.add_le_add_left hlast _).trans hlt
    · have hnone : [(id, s.now)].filter (fun e => t ≤ e.2 && e.2 ≤ t + settings.window) = [] := by
        simp only [List.filter_eq_nil_iff, List.mem_singleton, forall_eq, Bool.and_eq_true, decide_eq_true_eq]
        exact ht
      rw [hnone]
      exact h.bounded t

/-- Every outcome keeps the user, and shows the time the sync began or what was stored. -/
theorem orchestrated_mark {loaded new : TradingAccount} (stored : TradingAccount) {attemptedAt : Time}
    {result : Except CallError SyncResult} (h : orchestrateMt5Sync settings loaded attemptedAt result = some new) :
    (loaded.writeBack new stored).lastSyncAttemptedAt = some attemptedAt ∨
      (loaded.writeBack new stored).lastSyncAttemptedAt = stored.lastSyncAttemptedAt := by
  have hnew : new.lastSyncAttemptedAt = some attemptedAt := by
    unfold orchestrateMt5Sync at h
    split at h <;> cases h <;> rfl
  show writeBack _ _ _ = _ ∨ writeBack _ _ _ = _
  rw [hnew, writeBack]
  split
  · exact .inr rfl
  · exact .inl rfl

theorem Marked.manualSync (h : Marked settings user s) {id : Uuid} {account : TradingAccount} (hrow : s.accounts.get? id = some account)
    (huser : account.userId = user) (hok : s.KeepsMarks settings (.manualSync id)) : Marked settings user (s.manualSync settings id account) := by
  unfold SyncState.manualSync
  split_ifs
  · exact h
  · exact h
  · split
    · exact h
    · rename_i hnone
      simp only [checkManualSyncAdmission] at hnone
      split at hnone
      · cases hnone
      · rename_i hfree
        split at hnone
        · cases hnone
        · rename_i hcooldown
          split_ifs at hnone with hcount
          refine h.admit hrow huser (fun e he hid => ?_) (huser ▸ Nat.lt_of_not_le hcount)
          rcases hok ⟨e, he, hid⟩ with hlocked | ⟨account', hrow', ⟨notBefore, hnot, hlt⟩ | hfull⟩
          · exact hfree hlocked
          · cases hrow.symm.trans hrow'
            rw [Option.filter_eq_none_iff] at hcooldown
            exact absurd hlt (by simpa using hcooldown notBefore hnot)
          · cases hrow.symm.trans hrow'
            exact hcount hfull

theorem Marked.step {l : SyncLabel} (h : Marked settings user s) (hok : s.KeepsMarks settings l) (hs : s.step settings user l = some t) :
    Marked settings user t := by
  cases l with
  | connect id account =>
    cases hs
    refine h.accounts fun e he => ?_
    obtain ⟨row, hrow, hshown⟩ := h.shown e he
    exact ⟨row, by rw [Table.get?_add, hrow, Option.some_or], hshown⟩
  | delete id =>
    cases hs
    refine h.accounts fun e he => ?_
    obtain ⟨row, hrow, hshown⟩ := h.shown e he
    exact ⟨row, by rw [Table.get?_remove, if_neg (hok e he), hrow], hshown⟩
  | manualSync id =>
    simp only [SyncState.step] at hs
    split at hs <;> cases hs
    · rename_i account hrow
      obtain ⟨hrow, huser⟩ := Option.filter_eq_some_iff.mp hrow
      exact h.manualSync hrow (by simpa using huser) hok
    · exact h
  | start id =>
    simp only [SyncState.step] at hs
    split at hs
    · split at hs <;> cases hs
      · exact h
      · exact h.accounts h.shown
    · cases hs
      exact h
  | lock i =>
    simp only [SyncState.step] at hs
    split at hs
    · split at hs <;> cases hs <;> exact h.accounts h.shown
    · cases hs
  | finish i result =>
    simp only [SyncState.step] at hs
    split at hs
    · rename_i id loaded attemptedAt hrun
      simp only [KeepsMarks, hrun] at hok
      split at hs <;> cases hs
      · rename_i new hnew
        refine h.modify (fun _ => rfl) fun e he hid row last hlast hle => ?_
        rcases orchestrated_mark row hnew with hmark | hmark
        · exact ⟨attemptedAt, hmark, hok e he hid⟩
        · exact ⟨last, hmark.trans hlast, hle⟩
      · exact h.accounts h.shown
    · cases hs
  | bootstrapped id outcome =>
    cases hs
    exact h.modify (fun _ => rfl) fun e he _ row last _ _ => ⟨s.now, rfl, h.past e (mem_recent.1 he).1⟩
  | tick duration =>
    cases hs
    have hsub : (s.admitted.filter fun e => s.now + duration ≤ e.2 + settings.window).Sublist (s.recent settings) := by
      refine List.monotone_filter_right s.admitted fun e he => ?_
      simp only [decide_eq_true_eq] at he ⊢
      exact (Nat.le_add_right _ _).trans he
    exact ⟨fun e he => (h.past e he).trans (Nat.le_add_right _ _), fun e he => h.shown e (hsub.subset he),
      h.distinct.sublist (hsub.map _), h.bounded⟩

/-- No window has more admitted requests than the limit. -/
theorem admitted_le {accounts : Table Uuid TradingAccount} {now : Time}
    (h : Reach (SyncState.step settings user) (KeepsMarks settings) { now, accounts } s) (t : Time) :
    (s.admitted.filter fun e => t ≤ e.2 && e.2 ≤ t + settings.window).length ≤ settings.manualSyncBurstMaxAttempts := by
  have hinitial : Marked settings user { now, accounts } := ⟨nofun, nofun, List.nodup_nil, fun _ => Nat.zero_le _⟩
  exact (h.invariant hinitial fun _ _ _ h hok hs => h.step hok hs).bounded t

/-! ## Two accounts -/

def goldSilver : Table Uuid TradingAccount := .add (.add ∅ 1 { userId := 1 }) 2 { userId := 1 }

/-- Each account is asked once, and the first again after its sync. -/
def goldSilverSyncs : List SyncLabel :=
  [.manualSync 1, .manualSync 2, .tick (seconds 1), .start 1, .lock 0, .tick (seconds 5), .finish 0 (.ok ⟨1, 1, 0, 0⟩), .manualSync 1]

theorem admitted_le_goldSilver :
    ∃ s, Reach (SyncState.step {} 1) (KeepsMarks {}) { accounts := goldSilver } s ∧
      s.admitted = [(1, 0), (2, 0)] ∧ (s.admitted.filter fun e => 0 ≤ e.2 && e.2 ≤ 0 + seconds 60).length ≤ 5 := by
  have hrun : (runIf (SyncState.step {} 1) (KeepsMarks {}) { accounts := goldSilver } goldSilverSyncs).map (·.admitted) =
      some [(1, 0), (2, 0)] := by decide +kernel
  obtain ⟨s, hs, ha⟩ := Option.map_eq_some_iff.mp hrun
  exact ⟨s, .of_runIf hs, ha, admitted_le (.of_runIf hs) 0⟩

/-- One account is asked six times before the worker takes up the first request. -/
theorem reTaps_exceed :
    ∃ s, Reach (SyncState.step {} 1) always { accounts := goldSilver } s ∧
      (s.admitted.filter fun e => 0 ≤ e.2 && e.2 ≤ 0 + seconds 60).length = 6 := by
  have hrun : (run (SyncState.step {} 1) { accounts := goldSilver } (List.replicate 6 (.manualSync 1))).map
      (fun s => (s.admitted.filter fun e => 0 ≤ e.2 && e.2 ≤ 0 + seconds 60).length) = some 6 := by decide +kernel
  obtain ⟨s, hs, ha⟩ := Option.map_eq_some_iff.mp hrun
  exact ⟨s, .of_run hs, ha⟩

end

end SyncState

end Accounts

end SignalSync
