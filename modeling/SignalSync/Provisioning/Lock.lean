import SignalSync.Ids
import SignalSync.Delivery
import SignalSync.Library.Lease
import SignalSync.Library.Run
import SignalSync.Library.Sessions

/-!
# The provisioning lock of a connection

`provisioning_handler` sets a key of the connection with a token of its own, for longer
than the three timeouts a job can run into, and deletes it if the token is still the one
stored. A run may die with the key set, and may outlive it: even then no other run's lock is
taken away, and of the runs whose time has not run out there is one (`lock_kept`).
-/

namespace SignalSync

namespace Provisioning

open Library

/-- `_provisioning_lock_ttl_seconds`. -/
def provisioningLockTtlSeconds (metaapiConnectionTimeoutSeconds : Nat) : Nat := max 60 (metaapiConnectionTimeoutSeconds * 3 + 30)

/-- A run of the handler that got the lock, with the time its lock ends. -/
inductive LockedRun
  | working (ends : Nat)
  | ended
deriving DecidableEq

/-- The runs for one connection; each has drawn its own token. -/
structure LockState where
  now : Nat := 0
  lock : Lease Nat := {}
  runs : List LockedRun := []

inductive LockLabel
  | tick (duration : Nat)
  | start
  /-- The `finally` of a run; or it dies without one. -/
  | finish (i : Nat)
  | crash (i : Nat)

namespace LockState

variable (metaapiConnectionTimeoutSeconds : Nat)

/-- The beginning of a run, and its answer where the lock is taken. -/
def acquire (s : LockState) : Except DeliveryResult LockState :=
  let ttl := seconds (provisioningLockTtlSeconds metaapiConnectionTimeoutSeconds)
  match s.lock.claim s.now ttl s.runs.length with
  | some lock => .ok { s with lock, runs := s.runs ++ [.working (s.now + ttl)] }
  | none => .error (.retry "PROVISIONING_IN_PROGRESS")

def step (s : LockState) : LockLabel → Option LockState
  | .tick duration => some { s with now := s.now + duration }
  | .start =>
    match s.acquire metaapiConnectionTimeoutSeconds with
    | .ok s => some s
    -- a token is drawn all the same
    | .error _ => some { s with runs := s.runs ++ [.ended] }
  | .finish i =>
    match s.runs[i]? with
    | some (.working _) => some { s with lock := s.lock.release s.now i, runs := s.runs.set i .ended }
    | _ => none
  | .crash i => if i < s.runs.length then some { s with runs := s.runs.set i .ended } else none

/-- The runs at work, with the ends of their locks. -/
def holders (s : LockState) : Set (Nat × Nat) := {h | s.runs[h.1]? = some (.working h.2)}

variable {metaapiConnectionTimeoutSeconds} {s t : LockState} {a : LockLabel} {i ends : Nat}

theorem holders_set_ended (s : LockState) (i : Nat) :
    holders { s with runs := s.runs.set i .ended } ⊆ {h ∈ s.holders | h.1 ≠ i} := by
  rintro ⟨j, ends⟩ h
  rcases getElem?_set_cases h with ⟨-, he⟩ | ⟨hij, h⟩
  · cases he
  · exact ⟨h, hij⟩

theorem holders_append (s : LockState) (run : LockedRun) :
    holders { s with runs := s.runs ++ [run] } ⊆ {h | h ∈ s.holders ∨ h.1 = s.runs.length ∧ run = .working h.2} := by
  rintro ⟨j, ends⟩ h
  rcases getElem?_concat_cases h with ⟨hj, hrun⟩ | h
  · exact .inr ⟨hj, hrun.symm⟩
  · exact .inl h

theorem backs_step (hs : s.lock.Backs s.now s.holders) (hstep : s.step metaapiConnectionTimeoutSeconds a = some t) :
    t.lock.Backs t.now t.holders := by
  cases a with
  | tick duration =>
    cases hstep
    exact hs.mono (Nat.le_add_right ..) subset_rfl
  | start =>
    simp only [LockState.step, acquire] at hstep
    split at hstep
    · rename_i s' hacquire
      cases hstep
      split at hacquire
      · rename_i lock hclaim
        cases hacquire
        refine (hs.claim hclaim).mono le_rfl ((holders_append s _).trans ?_)
        rintro ⟨j, ends⟩ (h | ⟨rfl, h⟩)
        · exact Set.mem_insert_of_mem _ h
        · cases h
          exact Set.mem_insert _ _
      · cases hacquire
    · cases hstep
      refine hs.mono le_rfl ((holders_append s .ended).trans ?_)
      rintro ⟨j, ends⟩ (h | ⟨-, h⟩)
      · exact h
      · cases h
  | finish i =>
    simp only [LockState.step] at hstep
    split at hstep <;> cases hstep
    exact hs.release.mono le_rfl (holders_set_ended s i)
  | crash i =>
    simp only [LockState.step] at hstep
    split at hstep <;> cases hstep
    exact hs.mono le_rfl fun h hh => (holders_set_ended s i hh).1

/-- Whatever runs have died or are late, the lock is that of the run whose time has not run
out, and there is one such run at most. -/
theorem lock_kept (h : Reach (step metaapiConnectionTimeoutSeconds) always {} s)
    (hi : s.runs[i]? = some (.working ends)) (hnow : s.now < ends) :
    s.lock.live s.now = some (i, ends) ∧ ∀ j ends', s.runs[j]? = some (.working ends') → s.now < ends' → j = i := by
  have hs : s.lock.Backs s.now s.holders := by
    refine h.invariant (P := fun s => s.lock.Backs s.now s.holders) ?_ fun _ _ _ hs _ hstep => backs_step hs hstep
    intro h hh
    cases hh
  have hmem : (i, ends) ∈ s.holders := hi
  refine ⟨Lease.live_of_backs hs hmem hnow, fun j ends' hj hnow' => ?_⟩
  have hmem' : (j, ends') ∈ s.holders := hj
  exact congrArg Prod.fst (hs.unique hmem' hmem hnow' hnow)

/-- The first run outlives its lock and ends while the second has it. -/
theorem lock_kept_outlived : ∃ s, Reach (step 10) always {} s ∧ s.runs[1]? = some (.working (seconds 120)) ∧
    s.lock.live s.now = some (1, seconds 120) ∧ ∀ j ends', s.runs[j]? = some (.working ends') → s.now < ends' → j = 1 := by
  have hrun : ((run (step 10) {} [.start, .tick (seconds 60), .start, .finish 0]).map fun s => (s.now, s.runs[1]?)) =
      some (seconds 60, some (.working (seconds 120))) := by decide +kernel
  obtain ⟨s, hs, hends⟩ := Option.map_eq_some_iff.mp hrun
  obtain ⟨hnow, hi⟩ := Prod.mk.inj hends
  have hlt : s.now < seconds 120 := hnow ▸ by decide
  exact ⟨s, .of_run hs, hi, lock_kept (.of_run hs) hi hlt⟩

end LockState

end Provisioning

end SignalSync
