import SignalSync.Ids
import SignalSync.Library.Lease
import SignalSync.Library.Run
import SignalSync.Library.Sessions

/-!
# One Telegram runtime at a time

A runtime claims a key in Redis before it restores its clients, puts its expiry off in its
loop, and deletes it once the clients are disconnected. A token is as good as the process
that drew it. No two runtimes have clients as long as none is kept from its loop for 25
seconds (`one_runtime`): the lease is refreshed after 5 and lasts for 30.
-/

namespace SignalSync

namespace Telegram

open Library

abbrev runtimeOwnershipTtlSeconds : Nat := 30

abbrev runtimeOwnershipRefreshSeconds : Nat := 5

/-- Where `TelegramSessionRuntime.run` is. `checkedAt` is when its loop was last at the
check, or when it claimed, and `ends` when its lease ends. -/
inductive RuntimePhase
  | claiming
  | looping (lastOwnershipRefreshAt : Nat) (checkedAt ends : Nat)
  /-- In the `finally`, with clients still to disconnect. -/
  | disconnecting (checkedAt ends : Nat)
  | ended

/-- A process, and when its `time.monotonic()` was zero. -/
structure Runtime where
  bootedAt : Nat
  phase : RuntimePhase := .claiming

structure Ownership where
  now : Nat := 0
  lease : Lease Nat := {}
  runtimes : List Runtime := []

inductive OwnershipLabel
  | tick (duration : Nat)
  | start (bootedAt : Nat)
  | claim (i : Nat)
  /-- The loop comes to `last_ownership_refresh_at`. -/
  | check (i : Nat)
  /-- An exception leaves the loop. -/
  | raise (i : Nat)
  | release (i : Nat)
  | crash (i : Nat)

namespace Ownership

def setPhase (s : Ownership) (i : Nat) (runtime : Runtime) (phase : RuntimePhase) : Ownership :=
  { s with runtimes := s.runtimes.set i { runtime with phase } }

def tryClaimRuntimeOwnership (s : Ownership) (i : Nat) (runtime : Runtime) : Ownership :=
  match s.lease.claim s.now (seconds runtimeOwnershipTtlSeconds) i with
  | some lease => { s.setPhase i runtime (.looping 0 s.now (s.now + seconds runtimeOwnershipTtlSeconds)) with lease }
  | none => s

def checkOwnership (s : Ownership) (i : Nat) (runtime : Runtime) (lastOwnershipRefreshAt : Nat) (checkedAt ends : Nat) : Ownership :=
  let now := s.now - runtime.bootedAt
  if seconds runtimeOwnershipRefreshSeconds ≤ now - lastOwnershipRefreshAt then
    match s.lease.refresh s.now (seconds runtimeOwnershipTtlSeconds) i with
    | some lease => { s.setPhase i runtime (.looping now s.now (s.now + seconds runtimeOwnershipTtlSeconds)) with lease }
    | none => s.setPhase i runtime (.disconnecting checkedAt ends)
  else s.setPhase i runtime (.looping lastOwnershipRefreshAt s.now ends)

def step (s : Ownership) : OwnershipLabel → Option Ownership
  | .tick duration => some { s with now := s.now + duration }
  | .start bootedAt => if bootedAt ≤ s.now then some { s with runtimes := s.runtimes ++ [{ bootedAt }] } else none
  | .claim i =>
    match s.runtimes[i]? with
    | some ⟨bootedAt, .claiming⟩ => some (s.tryClaimRuntimeOwnership i ⟨bootedAt, .claiming⟩)
    | _ => none
  | .check i =>
    match s.runtimes[i]? with
    | some ⟨bootedAt, .looping last checkedAt ends⟩ =>
      some (s.checkOwnership i ⟨bootedAt, .looping last checkedAt ends⟩ last checkedAt ends)
    | _ => none
  | .raise i =>
    match s.runtimes[i]? with
    | some ⟨bootedAt, .looping _ checkedAt ends⟩ => some (s.setPhase i ⟨bootedAt, .ended⟩ (.disconnecting checkedAt ends))
    | _ => none
  | .release i =>
    match s.runtimes[i]? with
    | some ⟨bootedAt, .disconnecting _ _⟩ => some { s.setPhase i ⟨bootedAt, .ended⟩ .ended with lease := s.lease.release s.now i }
    | _ => none
  | .crash i => s.runtimes[i]?.map fun runtime => s.setPhase i runtime .ended

end Ownership

namespace RuntimePhase

/-- When a runtime that has clients was last at the check, and when its lease ends. -/
def lease? : RuntimePhase → Option (Nat × Nat)
  | .looping _ checkedAt ends | .disconnecting checkedAt ends => some (checkedAt, ends)
  | .claiming | .ended => none

end RuntimePhase

namespace Ownership

/-- Process `i` has clients, and its lease runs until `ends`. -/
def Holds (s : Ownership) (i : Nat) (checkedAt ends : Nat) : Prop :=
  ∃ runtime, s.runtimes[i]? = some runtime ∧ runtime.phase.lease? = some (checkedAt, ends)

/-- Nobody is kept from the check for longer than 25 seconds. -/
def Prompt (s : Ownership) : OwnershipLabel → Prop
  | .tick duration => ∀ runtime ∈ s.runtimes, ∀ times ∈ runtime.phase.lease?, s.now + duration ≤ times.1 + seconds 25
  | _ => True

instance (s : Ownership) (a : OwnershipLabel) : Decidable (s.Prompt a) :=
  match a with
  | .tick duration =>
    inferInstanceAs (Decidable (∀ runtime ∈ s.runtimes, ∀ times ∈ runtime.phase.lease?, s.now + duration ≤ times.1 + seconds 25))
  | .start _ | .claim _ | .check _ | .raise _ | .release _ | .crash _ => isTrue trivial

/-- A loop's lease was set no earlier than the refresh it remembers, so that it is refreshed
in time; and the lease outlives the next 25 seconds. -/
structure Fresh (s : Ownership) : Prop where
  backs : s.lease.Backs s.now {h | ∃ checkedAt, s.Holds h.1 checkedAt h.2}
  booted : ∀ runtime ∈ s.runtimes, runtime.bootedAt ≤ s.now
  ahead : ∀ i checkedAt ends, s.Holds i checkedAt ends → s.now ≤ checkedAt + seconds 25 ∧ checkedAt + seconds 25 < ends
  remembered : ∀ (runtime : Runtime) (last checkedAt ends : Nat), runtime ∈ s.runtimes → runtime.phase = .looping last checkedAt ends →
    runtime.bootedAt + last + seconds runtimeOwnershipTtlSeconds ≤ ends

variable {s t : Ownership} {a : OwnershipLabel} {i j : Nat} {runtime : Runtime} {phase : RuntimePhase} {checkedAt ends : Nat}

theorem holds_setPhase (hi : s.runtimes[i]? = some runtime) : (s.setPhase i runtime phase).Holds j checkedAt ends ↔
    if i = j then phase.lease? = some (checkedAt, ends) else s.Holds j checkedAt ends := by
  have hlt := (List.getElem?_eq_some_iff.mp hi).1
  simp only [Holds, setPhase, List.getElem?_set, if_pos hlt]
  split
  · constructor
    · rintro ⟨r, hr, h⟩
      cases hr
      exact h
    · exact fun h => ⟨_, rfl, h⟩
  · rfl

/-- The other holders, and the runtime if it has clients after the change. -/
theorem holders_setPhase (hi : s.runtimes[i]? = some runtime) :
    {h : Nat × Nat | ∃ checkedAt, (s.setPhase i runtime phase).Holds h.1 checkedAt h.2} ⊆
      {h | (h.1 = i ∧ ∃ checkedAt, phase.lease? = some (checkedAt, h.2)) ∨ (∃ checkedAt, s.Holds h.1 checkedAt h.2) ∧ h.1 ≠ i} := by
  rintro h ⟨checkedAt, hh⟩
  rw [holds_setPhase hi] at hh
  split at hh
  · rename_i hij
    exact .inl ⟨hij.symm, checkedAt, hh⟩
  · rename_i hij
    exact .inr ⟨⟨checkedAt, hh⟩, fun h => hij h.symm⟩

/-- What is to be shown of a runtime whose phase changes. -/
theorem Fresh.setPhase (hs : s.Fresh) (hi : s.runtimes[i]? = some runtime) {lease : Lease Nat}
    (hbacks : lease.Backs s.now {h | (h.1 = i ∧ ∃ checkedAt, phase.lease? = some (checkedAt, h.2)) ∨
      (∃ checkedAt, s.Holds h.1 checkedAt h.2) ∧ h.1 ≠ i})
    (hahead : ∀ checkedAt ends, phase.lease? = some (checkedAt, ends) → s.now ≤ checkedAt + seconds 25 ∧ checkedAt + seconds 25 < ends)
    (hremembered : ∀ last checkedAt ends, phase = .looping last checkedAt ends →
      runtime.bootedAt + last + seconds runtimeOwnershipTtlSeconds ≤ ends) :
    Fresh { s.setPhase i runtime phase with lease } where
  backs := hbacks.mono le_rfl (holders_setPhase hi)
  booted r hr := by
    rcases List.mem_or_eq_of_mem_set hr with hr | rfl
    · exact hs.booted r hr
    · exact hs.booted runtime (List.mem_of_getElem? hi)
  ahead j checkedAt ends h := by
    have h := (holds_setPhase hi).1 h
    split at h
    · exact hahead checkedAt ends h
    · exact hs.ahead j checkedAt ends h
  remembered r last checkedAt ends hr hphase := by
    rcases List.mem_or_eq_of_mem_set hr with hr | rfl
    · exact hs.remembered r last checkedAt ends hr hphase
    · exact hremembered last checkedAt ends hphase

/-- A lease that the runtime has already. -/
theorem Fresh.backs_same (hs : s.Fresh) (hi : s.Holds i checkedAt ends) {checkedAt' : Nat}
    (hphase : phase.lease? = some (checkedAt', ends)) :
    s.lease.Backs s.now {h | (h.1 = i ∧ ∃ checkedAt, phase.lease? = some (checkedAt, h.2)) ∨
      (∃ checkedAt, s.Holds h.1 checkedAt h.2) ∧ h.1 ≠ i} := by
  refine hs.backs.mono le_rfl ?_
  rintro ⟨j, ends'⟩ (⟨rfl, checkedAt₁, h⟩ | ⟨h, -⟩)
  · cases hphase.symm.trans h
    exact ⟨checkedAt, hi⟩
  · exact h

theorem Fresh.check (hs : s.Fresh) {bootedAt last : Nat} (hi : s.runtimes[i]? = some ⟨bootedAt, .looping last checkedAt ends⟩) :
    (s.checkOwnership i ⟨bootedAt, .looping last checkedAt ends⟩ last checkedAt ends).Fresh := by
  have hmem := List.mem_of_getElem? hi
  have hbooted := hs.booted _ hmem
  have hremembered := hs.remembered _ last checkedAt ends hmem rfl
  have hholds : s.Holds i checkedAt ends := ⟨_, hi, rfl⟩
  have hahead := hs.ahead i checkedAt ends hholds
  simp only [seconds, runtimeOwnershipTtlSeconds] at hbooted hremembered hahead
  unfold checkOwnership
  dsimp only
  split
  · split
    · rename_i lease hlease
      refine hs.setPhase hi ((hs.backs.refresh hlease).mono le_rfl ?_) (fun _ _ h => ?_) fun _ _ _ h => ?_
      · rintro ⟨j, ends'⟩ (⟨rfl, _, h⟩ | ⟨h, hne⟩)
        · cases h
          exact Set.mem_insert _ _
        · exact Set.mem_insert_of_mem _ ⟨h, hne⟩
      · cases h
        simp only [seconds, runtimeOwnershipTtlSeconds]
        omega
      · cases h
        exact (congrArg (· + _) (Nat.add_sub_of_le hbooted)).le
    · refine hs.setPhase hi (hs.backs_same hholds rfl) (fun _ _ h => ?_) fun _ _ _ h => by cases h
      cases h
      exact hahead
  · -- refreshed less than 5 seconds ago, so that the lease has more than 25 to go
    rename_i hrecent
    have hrecent : s.now - bootedAt - last < 5 * 1000000 := Nat.lt_of_not_le hrecent
    refine hs.setPhase hi (hs.backs_same hholds rfl) (fun _ _ h => ?_) fun _ _ _ h => ?_
    · cases h
      simp only [seconds]
      omega
    · cases h
      exact hremembered

theorem Fresh.step (hs : s.Fresh) (hok : s.Prompt a) (hstep : s.step a = some t) : t.Fresh := by
  cases a with
  | tick duration =>
    cases hstep
    refine ⟨hs.backs.mono (Nat.le_add_right ..) subset_rfl, fun r hr => (hs.booted r hr).trans (Nat.le_add_right ..),
      fun i checkedAt ends h => ?_, hs.remembered⟩
    obtain ⟨runtime, hi, hlease⟩ := h
    exact ⟨hok runtime (List.mem_of_getElem? hi) _ hlease, (hs.ahead i checkedAt ends ⟨runtime, hi, hlease⟩).2⟩
  | start bootedAt =>
    simp only [Ownership.step] at hstep
    split at hstep <;> cases hstep
    rename_i hbooted
    have hold {i : Nat} {checkedAt ends : Nat} (h : Holds { s with runtimes := s.runtimes ++ [{ bootedAt }] } i checkedAt ends) :
        s.Holds i checkedAt ends := by
      obtain ⟨runtime, hi, hlease⟩ := h
      rcases getElem?_concat_cases hi with ⟨-, rfl⟩ | hi
      · cases hlease
      · exact ⟨runtime, hi, hlease⟩
    refine ⟨hs.backs.mono le_rfl ?_, fun r hr => ?_, fun i checkedAt ends h => hs.ahead i checkedAt ends (hold h),
      fun r last checkedAt ends hr hphase => ?_⟩
    · rintro h ⟨checkedAt, hh⟩
      exact ⟨checkedAt, hold hh⟩
    · rcases List.mem_append.mp hr with hr | hr
      · exact hs.booted r hr
      · cases List.mem_singleton.mp hr
        exact hbooted
    · rcases List.mem_append.mp hr with hr | hr
      · exact hs.remembered r last checkedAt ends hr hphase
      · cases List.mem_singleton.mp hr
        cases hphase
  | claim i =>
    simp only [Ownership.step] at hstep
    split at hstep
    · rename_i bootedAt hi
      cases hstep
      have hbooted := hs.booted _ (List.mem_of_getElem? hi)
      unfold tryClaimRuntimeOwnership
      split
      · rename_i lease hlease
        refine hs.setPhase hi ((hs.backs.claim hlease).mono le_rfl ?_) (fun _ _ h => ?_) fun _ _ _ h => ?_
        · rintro ⟨j, ends'⟩ (⟨rfl, _, h⟩ | ⟨h, -⟩)
          · cases h
            exact Set.mem_insert _ _
          · exact Set.mem_insert_of_mem _ h
        · cases h
          simp only [seconds, runtimeOwnershipTtlSeconds]
          omega
        · cases h
          simp only [seconds, runtimeOwnershipTtlSeconds] at hbooted ⊢
          omega
      · exact hs
    · cases hstep
  | check i =>
    simp only [Ownership.step] at hstep
    split at hstep
    · rename_i hi
      cases hstep
      exact hs.check hi
    · cases hstep
  | raise i =>
    simp only [Ownership.step] at hstep
    split at hstep
    · rename_i bootedAt last checkedAt ends hi
      cases hstep
      have hholds : s.Holds i checkedAt ends := ⟨_, hi, rfl⟩
      refine hs.setPhase hi (hs.backs_same hholds rfl) (fun _ _ h => ?_)
        fun _ _ _ h => by cases h
      cases h
      exact hs.ahead i checkedAt ends hholds
    · cases hstep
  | release i =>
    simp only [Ownership.step] at hstep
    split at hstep
    · rename_i bootedAt checkedAt ends hi
      cases hstep
      refine hs.setPhase hi (hs.backs.release.mono le_rfl ?_)
        (fun _ _ h => by cases h) fun _ _ _ h => by cases h
      rintro h (⟨-, _, hh⟩ | hh)
      · cases hh
      · exact hh
    · cases hstep
  | crash i =>
    obtain ⟨runtime, hi, rfl⟩ := Option.map_eq_some_iff.mp hstep
    refine @Fresh.setPhase _ _ _ _ hs hi s.lease (hs.backs.mono le_rfl ?_) (fun _ _ h => by cases h) fun _ _ _ h => by cases h
    rintro h (⟨-, _, hh⟩ | ⟨hh, -⟩)
    · cases hh
    · exact hh

/-- As long as no runtime that has clients is kept from its check for more than 25 seconds,
there is one such runtime at most, and the key has its token. -/
theorem one_runtime (h : Reach step Prompt {} s) (hi : s.Holds i checkedAt ends) :
    s.lease.live s.now = some (i, ends) ∧ ∀ j checkedAt' ends', s.Holds j checkedAt' ends' → j = i := by
  have hs : s.Fresh := by
    refine h.invariant ?_ fun _ _ _ hs hok hstep => hs.step hok hstep
    refine ⟨?_, List.forall_mem_nil _, fun i checkedAt ends h => ?_, fun r _ _ _ hr => absurd hr List.not_mem_nil⟩
    · rintro h ⟨checkedAt, runtime, hr, -⟩
      cases hr
    · obtain ⟨runtime, hr, -⟩ := h
      cases hr
  have hnow := hs.ahead i checkedAt ends hi
  have hmem : (i, ends) ∈ {h : Nat × Nat | ∃ checkedAt, s.Holds h.1 checkedAt h.2} := ⟨checkedAt, hi⟩
  have hlt : s.now < ends := hnow.1.trans_lt hnow.2
  refine ⟨Lease.live_of_backs hs.backs hmem hlt, fun j checkedAt' ends' hj => ?_⟩
  have hnow' := hs.ahead j checkedAt' ends' hj
  have hmem' : (j, ends') ∈ {h : Nat × Nat | ∃ checkedAt, s.Holds h.1 checkedAt h.2} := ⟨checkedAt', hj⟩
  exact congrArg Prod.fst (hs.backs.unique hmem' hmem (hnow'.1.trans_lt hnow'.2) hlt)

/-- One runtime dies, and another takes over when its lease has ended. -/
theorem one_runtime_takeover : ∃ s, Reach step Prompt {} s ∧ s.Holds 1 (seconds 41) (seconds 71) ∧
    s.lease.live s.now = some (1, seconds 71) ∧ ∀ j checkedAt' ends', s.Holds j checkedAt' ends' → j = 1 := by
  have hrun : ((runIf step Prompt {} [.tick (seconds 10), .start 0, .start 5, .claim 0, .claim 1, .tick (seconds 1), .check 0, .crash 0,
      .tick (seconds 29), .claim 1, .tick (seconds 1), .claim 1]).bind fun s => s.runtimes[1]?.bind (·.phase.lease?)) =
      some (seconds 41, seconds 71) := by decide +kernel
  obtain ⟨s, hs, hlease⟩ := Option.bind_eq_some_iff.mp hrun
  obtain ⟨runtime, hi, hlease⟩ := Option.bind_eq_some_iff.mp hlease
  have hholds : s.Holds 1 (seconds 41) (seconds 71) := ⟨runtime, hi, hlease⟩
  exact ⟨s, .of_runIf hs, hholds, one_runtime (.of_runIf hs) hholds⟩

end Ownership

end Telegram

end SignalSync
