import SignalSync.Provisioning.Handler

/-!
# The cleanup of a deleted connection

A run of `connection.delete` undeploys and removes the account at the provider and then
commits the row without it. Runs fail, or are cut off, between any two of their steps, and
are delivered again.

* `Cleanable.attempt`: a run cut off anywhere but between the removal and the commit can be repeated;
* `Stranded.attempt`: after a run cut off there none gets past `get_account`;
* `cleanup_retrySafe_iff`: when a redelivery still deletes the connection.
-/

namespace SignalSync

open Library

namespace Provisioning

/-- The stored row, and the accounts at the provider with their `state`. -/
structure CleanupState where
  row : Option CopyTradingConnection
  accounts : String → Option String

/-- Between two steps of a run. -/
inductive CleanupPhase
  | load
  | begin
  /-- `deleting` is committed. -/
  | fetch
  | undeploy (accountId : String)
  | remove (accountId : String)
  | finish

/-- How a step of a run ends. -/
inductive CleanupOutcome
  | goto (s : CleanupState) (phase : CleanupPhase)
  | done (s : CleanupState)
  | raise (s : CleanupState)

/-- `if connection.metaapi_account_id`. -/
def CopyTradingConnection.accountId (connection : CopyTradingConnection) : Option String := connection.metaapiAccountId.filter (· ≠ "")

/-- `cleanup`'s last commit, on the row. -/
def CopyTradingConnection.cleaned (connection : CopyTradingConnection) : CopyTradingConnection :=
  { connection with
    metaapiAccountId := if connection.accountId.isSome then none else connection.metaapiAccountId
    hasPassword := false
    state := .deleted }

/-- Where a run is cut off: the steps it takes. Before it, the accounts at the provider may
have changed their states. -/
structure CleanupAttempt where
  steps : Nat
  drift : String → String → String := fun _ state => state

namespace CleanupState

section

variable [Unicode] (s : CleanupState)

/-- A step of the handler and of `cleanup`; an account that does not exist cannot be fetched. -/
def step : CleanupPhase → CleanupOutcome
  | .load => if s.row.isSome then .goto s .begin else .done s
  | .begin => .goto { s with row := s.row.map fun row => { row with state := .deleting } } .fetch
  | .fetch =>
    match s.row.bind CopyTradingConnection.accountId with
    | none => .goto s .finish
    | some accountId =>
      match s.accounts accountId with
      | none => .raise s
      | some state => .goto s (if Unicode.upper state ≠ "UNDEPLOYED" then .undeploy accountId else .remove accountId)
  | .undeploy accountId => .goto { s with accounts := Function.update s.accounts accountId (some "UNDEPLOYING") } (.remove accountId)
  | .remove accountId => .goto { s with accounts := Function.update s.accounts accountId none } .finish
  | .finish => .done { s with row := s.row.map CopyTradingConnection.cleaned }

/-- What a run leaves that is cut off after so many steps, if it does not end before. -/
def runFor : Nat → CleanupPhase → CleanupState → CleanupState
  | 0, _, s => s
  | n + 1, phase, s =>
    match s.step phase with
    | .goto s' phase' => runFor n phase' s'
    | .done s' | .raise s' => s'

def drift (f : String → String → String) : CleanupState := { s with accounts := fun accountId => (s.accounts accountId).map (f accountId) }

def attempt (a : CleanupAttempt) : CleanupState := runFor a.steps .load (s.drift a.drift)

def attempts (as : List CleanupAttempt) : CleanupState := as.foldl attempt s

/-- A delivery to a provider that works: the run is not cut off. -/
def redeliver (drift : String → String → String) : CleanupState := s.attempt { steps := 6, drift }

/-- The connection is deleted, and its password erased. -/
def Deleted : Prop := ∃ row, s.row = some row ∧ row.state = .deleted ∧ row.hasPassword = false

/-- The run is cut off when it has removed the account and not yet committed. -/
def RemovedOnly (a : CleanupAttempt) : Prop :=
  ∃ row accountId state, s.row = some row ∧ row.accountId = some accountId ∧ s.accounts accountId = some state ∧
    a.steps = if Unicode.upper (a.drift accountId state) ≠ "UNDEPLOYED" then 5 else 4

/-- No run is cut off there. -/
def NeverRemovedOnly : CleanupState → List CleanupAttempt → Prop
  | _, [] => True
  | s, a :: as => ¬ s.RemovedOnly a ∧ NeverRemovedOnly (s.attempt a) as

/-- The account of the row is at the provider. -/
def Cleanable : Prop := ∃ row, s.row = some row ∧ ∀ accountId, row.accountId = some accountId → (s.accounts accountId).isSome

/-- The account of the row is gone. -/
def Stranded : Prop := ∃ row accountId, s.row = some row ∧ row.accountId = some accountId ∧ s.accounts accountId = none

end

section

variable [Unicode] {s : CleanupState} {row : CopyTradingConnection} {accountId state : String} {a : CleanupAttempt} {n : Nat}

/-! ### One run -/

omit [Unicode] in
theorem accountId_cleaned (row : CopyTradingConnection) : row.cleaned.accountId = none := by
  unfold CopyTradingConnection.cleaned CopyTradingConnection.accountId
  cases h : row.metaapiAccountId.filter (· ≠ "") with
  | none => exact h
  | some accountId => rfl

/-- A run on a connection without an account. -/
theorem runFor_without (hrow : s.row = some row) (hnone : row.accountId = none) (n : Nat) :
    ∃ row', (runFor n .load s).row = some row' ∧ row'.accountId = none ∧ (4 ≤ n → row'.state = .deleted ∧ row'.hasPassword = false) := by
  have hdeleting : CopyTradingConnection.accountId { row with state := .deleting } = none := hnone
  match n with
  | 0 => exact ⟨row, hrow, hnone, by simp⟩
  | 1 => exact ⟨row, by simp [runFor, step, hrow], hnone, by simp⟩
  | 2 | 3 => exact ⟨_, by simp [runFor, step, hrow, hdeleting], hdeleting, by simp⟩
  | n + 4 =>
    refine ⟨CopyTradingConnection.cleaned { row with state := .deleting }, ?_, accountId_cleaned _, fun _ => ⟨rfl, rfl⟩⟩
    simp [runFor, step, hrow, hdeleting]

/-- The number of steps up to the removal of an account. -/
def stepsToRemove (state : String) : Nat := if Unicode.upper state ≠ "UNDEPLOYED" then 5 else 4

omit [Unicode] in
theorem cleanable_of_there (hrow : s.row = some row) (haccount : row.accountId = some accountId)
    (hthere : (s.accounts accountId).isSome) : s.Cleanable :=
  ⟨row, hrow, fun accountId' h => by
    cases haccount.symm.trans h
    exact hthere⟩

/-- From the removal on: the account is there, or gone and the row not written, or gone and
the row written. -/
theorem runFor_remove (hrow : s.row = some row) (haccount : row.accountId = some accountId) (hthere : (s.accounts accountId).isSome)
    (n : Nat) :
    (n < 1 → (runFor n (.remove accountId) s).Cleanable) ∧ (n = 1 → (runFor n (.remove accountId) s).Stranded) ∧
      (1 < n → (runFor n (.remove accountId) s).Cleanable ∧ (runFor n (.remove accountId) s).Deleted) := by
  match n with
  | 0 => exact ⟨fun _ => cleanable_of_there hrow haccount hthere, by simp, by simp⟩
  | 1 => exact ⟨by simp, fun _ => ⟨row, accountId, hrow, haccount, Function.update_self ..⟩, by simp⟩
  | n + 2 =>
    have hwritten : (runFor (n + 2) (.remove accountId) s).row = some row.cleaned := by simp [runFor, step, hrow]
    refine ⟨by simp, by simp, fun _ => ⟨⟨row.cleaned, hwritten, fun accountId' h => ?_⟩, row.cleaned, hwritten, rfl, rfl⟩⟩
    rw [accountId_cleaned] at h
    cases h

/-- Up to the provider, where the account is fetched. -/
theorem runFor_load (hrow : s.row = some row) (haccount : row.accountId = some accountId) (hstate : s.accounts accountId = some state)
    (n : Nat) :
    (n < 3 → ∃ row', (runFor n .load s).row = some row' ∧ row'.accountId = some accountId ∧ (runFor n .load s).accounts = s.accounts) ∧
      runFor (n + 3) .load s = runFor n (if Unicode.upper state ≠ "UNDEPLOYED" then .undeploy accountId else .remove accountId)
        { s with row := some { row with state := .deleting } } := by
  have hdeleting : CopyTradingConnection.accountId { row with state := .deleting } = some accountId := haccount
  constructor
  · intro hn
    match n, hn with
    | 0, _ => exact ⟨row, hrow, haccount, rfl⟩
    | 1, _ =>
      have hone : runFor 1 .load s = s := by simp [runFor, step, hrow]
      rw [hone]
      exact ⟨row, hrow, haccount, rfl⟩
    | 2, _ =>
      have htwo : runFor 2 .load s = { s with row := some { row with state := .deleting } } := by simp [runFor, step, hrow]
      rw [htwo]
      exact ⟨_, rfl, hdeleting, rfl⟩
  · simp [runFor, step, hrow, hdeleting, hstate]

/-- A run on a connection with an account at the provider. -/
theorem runFor_with (hrow : s.row = some row) (haccount : row.accountId = some accountId) (hstate : s.accounts accountId = some state)
    (n : Nat) :
    (n < stepsToRemove state → (runFor n .load s).Cleanable) ∧ (n = stepsToRemove state → (runFor n .load s).Stranded) ∧
      (stepsToRemove state < n → (runFor n .load s).Cleanable ∧ (runFor n .load s).Deleted) := by
  by_cases hn : n < 3
  · obtain ⟨row', hrow', haccount', hsame⟩ := (runFor_load hrow haccount hstate n).1 hn
    have hle : 3 < stepsToRemove state := by
      unfold stepsToRemove
      split <;> decide
    exact ⟨fun _ => cleanable_of_there hrow' haccount' (by rw [hsame, hstate]; rfl), fun h => by omega, fun h => by omega⟩
  · obtain ⟨n, rfl⟩ := Nat.exists_eq_add_of_le' (Nat.not_lt.mp hn)
    rw [(runFor_load hrow haccount hstate n).2]
    unfold stepsToRemove
    split
    · -- the account is undeployed first
      cases n with
      | zero => exact ⟨fun _ => cleanable_of_there rfl haccount (Option.isSome_iff_exists.mpr ⟨state, hstate⟩), by simp, by simp⟩
      | succ n =>
        obtain ⟨hbefore, hat, hafter⟩ := runFor_remove
          (s := { row := some { row with state := .deleting }, accounts := Function.update s.accounts accountId (some "UNDEPLOYING") })
          rfl haccount (Option.isSome_iff_exists.mpr ⟨_, Function.update_self ..⟩) n
        exact ⟨fun h => hbefore (by omega), fun h => hat (by omega), fun h => hafter (by omega)⟩
    · obtain ⟨hbefore, hat, hafter⟩ := runFor_remove (s := { s with row := some { row with state := .deleting } }) rfl haccount
        (Option.isSome_iff_exists.mpr ⟨state, hstate⟩) n
      exact ⟨fun h => hbefore (by omega), fun h => hat (by omega), fun h => hafter (by omega)⟩

/-- A run on a connection whose account is gone gets no further than the fetch. -/
theorem runFor_stranded (h : s.Stranded) (n : Nat) : (runFor n .load s).Stranded ∧ (2 ≤ n → ¬ (runFor n .load s).Deleted) := by
  obtain ⟨row, accountId, hrow, haccount, hgone⟩ := h
  have hdeleting : CopyTradingConnection.accountId { row with state := .deleting } = some accountId := haccount
  match n with
  | 0 => exact ⟨⟨row, accountId, hrow, haccount, hgone⟩, by simp⟩
  | 1 =>
    have hone : runFor 1 .load s = s := by simp [runFor, step, hrow]
    rw [hone]
    exact ⟨⟨row, accountId, hrow, haccount, hgone⟩, by simp⟩
  | n + 2 =>
    have hraised : runFor (n + 2) .load s = { s with row := some { row with state := .deleting } } := by
      cases n with
      | zero => simp [runFor, step, hrow]
      | succ n => simp [runFor, step, hrow, hdeleting, hgone]
    rw [hraised]
    refine ⟨⟨_, accountId, rfl, hdeleting, hgone⟩, fun _ hdeleted => ?_⟩
    obtain ⟨row', hrow', hstate, -⟩ := hdeleted
    cases hrow'
    cases hstate

/-! ### Any number of runs -/

omit [Unicode] in
theorem accounts_drift (s : CleanupState) (f : String → String → String) (accountId : String) :
    (s.drift f).accounts accountId = (s.accounts accountId).map (f accountId) := rfl

theorem Stranded.attempt (h : s.Stranded) (a : CleanupAttempt) :
    (s.attempt a).Stranded ∧ (2 ≤ a.steps → ¬ (s.attempt a).Deleted) := by
  obtain ⟨row, accountId, hrow, haccount, hgone⟩ := h
  exact runFor_stranded (s := s.drift a.drift) ⟨row, accountId, hrow, haccount, by rw [accounts_drift, hgone, Option.map_none]⟩ a.steps

/-- A run leaves a connection that can be cleaned up, unless it is cut off after the removal. -/
theorem Cleanable.attempt (h : s.Cleanable) (a : CleanupAttempt) :
    (¬ s.RemovedOnly a → (s.attempt a).Cleanable) ∧ (s.RemovedOnly a → (s.attempt a).Stranded) ∧
      (6 ≤ a.steps → (s.attempt a).Deleted) := by
  obtain ⟨row, hrow, hthere⟩ := h
  cases haccount : row.accountId with
  | none =>
    obtain ⟨row', hrow', hnone, hdone⟩ := runFor_without (s := s.drift a.drift) hrow haccount a.steps
    refine ⟨fun _ => ⟨row', hrow', fun accountId' h => ?_⟩, fun hremoved => ?_, fun hsteps => ⟨row', hrow', hdone (by omega)⟩⟩
    · rw [hnone] at h
      cases h
    · obtain ⟨row'', accountId, -, hrow'', haccount', -⟩ := hremoved
      cases hrow.symm.trans hrow''
      cases haccount.symm.trans haccount'
  | some accountId =>
    obtain ⟨state, hstate⟩ := Option.isSome_iff_exists.mp (hthere accountId haccount)
    have hdrift : (s.drift a.drift).accounts accountId = some (a.drift accountId state) := by rw [accounts_drift, hstate, Option.map_some]
    have hremoved : s.RemovedOnly a ↔ a.steps = stepsToRemove (a.drift accountId state) := by
      constructor
      · rintro ⟨row', accountId', state', hrow', haccount', hstate', hsteps⟩
        cases hrow.symm.trans hrow'
        cases haccount.symm.trans haccount'
        cases hstate.symm.trans hstate'
        exact hsteps
      · exact fun hsteps => ⟨row, accountId, state, hrow, haccount, hstate, hsteps⟩
    have hle : stepsToRemove (a.drift accountId state) < 6 := by
      unfold stepsToRemove
      split <;> decide
    obtain ⟨hbefore, hat, hafter⟩ := runFor_with (s := s.drift a.drift) hrow haccount hdrift a.steps
    rw [hremoved]
    refine ⟨fun hne => ?_, hat, fun hsteps => (hafter (by omega)).2⟩
    rcases Nat.lt_or_gt_of_ne hne with hlt | hgt
    · exact hbefore hlt
    · exact (hafter hgt).1

/-- A redelivery to a provider that works deletes the connection iff no run has been cut off
between the removal of the account and the commit. -/
theorem cleanup_retrySafe_iff {s : CleanupState} (h : s.Cleanable) (as : List CleanupAttempt) (drift : String → String → String) :
    ((s.attempts as).redeliver drift).Deleted ↔ s.NeverRemovedOnly as := by
  have hstranded {s : CleanupState} (h : s.Stranded) (as : List CleanupAttempt) : ¬ ((s.attempts as).redeliver drift).Deleted := by
    induction as generalizing s with
    | nil => exact (h.attempt _).2 (by simp)
    | cons a as ih => exact ih (h.attempt a).1
  induction as generalizing s with
  | nil => exact iff_of_true ((h.attempt _).2.2 (by simp)) trivial
  | cons a as ih =>
    obtain ⟨hclean, hlost, -⟩ := h.attempt a
    by_cases hremoved : s.RemovedOnly a
    · exact iff_of_false (hstranded (hlost hremoved) as) fun hnever => hnever.1 hremoved
    · exact (ih (hclean hremoved)).trans (and_iff_right hremoved).symm

end

/-! ## One connection -/

/-- A connection that is deployed at the provider. -/
def goldDeployed : CleanupState where
  row := some
    { metaapiAccountId := some "gold", state := .ready, userId := 1, brokerLogin := "1001", brokerServer := "Gold-Live"
      hasPassword := true, provisioningTransactionId := 0 }
  accounts := Function.update (fun _ => none) "gold" (some "DEPLOYED")

theorem goldDeployed_cleanable : goldDeployed.Cleanable :=
  ⟨_, rfl, fun accountId h => by
    cases h
    rfl⟩

/-- `cleanup_retrySafe_iff`, where a run has undeployed the account and not removed it. -/
theorem cleanup_retrySafe_undeployed :
    let _ := Unicode.ascii
    ((goldDeployed.attempts [{ steps := 4 }]).redeliver fun _ state => state).Deleted := by
  intro _
  refine (cleanup_retrySafe_iff goldDeployed_cleanable [{ steps := 4 }] _).2 ⟨?_, trivial⟩
  rintro ⟨row, accountId, state, hrow, haccount, hstate, hsteps⟩
  cases hrow
  cases haccount
  cases hstate
  revert hsteps
  decide +kernel

/-- A run removes the account and is cut off; no redelivery deletes the connection. -/
theorem removedOnly_stays : ¬ ∀ (_ : Unicode) (s : CleanupState) (as : List CleanupAttempt) (drift : String → String → String),
    s.Cleanable → ((s.attempts as).redeliver drift).Deleted := by
  intro h
  let _ := Unicode.ascii
  obtain ⟨row, hrow, hstate, -⟩ := h _ goldDeployed [{ steps := 5 }] (fun _ state => state) goldDeployed_cleanable
  have hleft : (((goldDeployed.attempts [{ steps := 5 }]).redeliver fun _ state => state).row).map (·.state) = some .deleting := by
    decide +kernel
  rw [hrow, Option.map_some, hstate] at hleft
  cases hleft

end CleanupState

end Provisioning

end SignalSync
