import Mathlib.Data.List.Nodup

/-!
# Programs over a database session

A `Program` reads and writes a session's state and commits; `exec` runs it, cut off
after a number of statements if it is told to, and yields what is committed. A program
that does nothing after a commit is `Atomic`: cut off anywhere it leaves what it found,
or what it leaves when it is not cut off.

* `exec_of_atomic`: all or nothing;
* `Once.apply_successes`, `Once.nodup_successes`: attempts that claim a message's key
  with its effect come to each message applied once, in the order of their success.
-/

namespace Library

universe u v w

/-- A session's program: its result, an exception, a read, a write that may be refused,
or a commit. -/
inductive Program (σ : Type u) (ε : Type v) (α : Type w)
  | done (a : α)
  | raise (e : ε)
  | query (next : σ → Program σ ε α)
  | write (update : σ → Except ε σ) (next : Program σ ε α)
  | commit (next : Program σ ε α)

namespace Program

variable {σ : Type u} {ε : Type v} {α : Type w}

/-- What is committed once the program is over, or cut off after `n` statements; an
exception rolls the session back. -/
def exec : Program σ ε α → Option Nat → (committed session : σ) → σ
  | .done _, _, committed, _ => committed
  | .raise _, _, committed, _ => committed
  | .query next, n, committed, session =>
    if n = some 0 then committed else (next session).exec (n.map (· - 1)) committed session
  | .write update next, n, committed, session =>
    if n = some 0 then committed
    else match update session with
    | .error _ => committed
    | .ok session => next.exec (n.map (· - 1)) committed session
  | .commit next, n, committed, session =>
    if n = some 0 then committed else next.exec (n.map (· - 1)) session session

/-- Nothing comes after the first commit. -/
def Atomic : Program σ ε α → Prop
  | .done _ | .raise _ => True
  | .query next => ∀ session, (next session).Atomic
  | .write _ next => next.Atomic
  | .commit next => ∃ a, next = .done a

variable {p : Program σ ε α} {committed session : σ}

@[simp] theorem exec_done (a : α) (n : Option Nat) : (done a : Program σ ε α).exec n committed session = committed := rfl

@[simp] theorem exec_raise (e : ε) (n : Option Nat) : (raise e : Program σ ε α).exec n committed session = committed := rfl

@[simp] theorem exec_query (next : σ → Program σ ε α) :
    (query next).exec none committed session = (next session).exec none committed session := by simp [exec]

@[simp] theorem exec_commit (next : Program σ ε α) :
    (commit next).exec none committed session = next.exec none session session := by simp [exec]

theorem exec_write_ok {update : σ → Except ε σ} {w : σ} (h : update session = .ok w) (next : Program σ ε α) :
    (write update next).exec none committed session = next.exec none committed w := by simp [exec, h]

theorem exec_write_error {update : σ → Except ε σ} {e : ε} (h : update session = .error e) (next : Program σ ε α) :
    (write update next).exec none committed session = committed := by simp [exec, h]

/-- All or nothing. -/
theorem exec_of_atomic (h : p.Atomic) (n : Option Nat) (committed session : σ) :
    p.exec n committed session = committed ∨ p.exec n committed session = p.exec none committed session := by
  induction p generalizing n session with
  | done a => exact .inl rfl
  | raise e => exact .inl rfl
  | query next ih =>
    simp only [exec]
    split
    · exact .inl rfl
    · simpa using ih session (h session) (n.map (· - 1)) session
  | write update next ih =>
    simp only [exec]
    split
    · exact .inl rfl
    · cases update session with
      | error e => exact .inl rfl
      | ok session => simpa using ih h (n.map (· - 1)) session
  | commit next _ =>
    obtain ⟨a, rfl⟩ := h
    simp only [exec]
    split
    · exact .inl rfl
    · exact .inr (by simp)

end Program

/-! ## Messages that are processed once -/

/-- A store that keeps the keys it has claimed. An attempt at a message changes nothing,
or applies it and claims its key, which was free. -/
structure Once (σ : Type u) (μ : Type v) (κ : Type w) where
  key : μ → Option κ
  claims : σ → List κ
  apply : μ → σ → Option σ
  attempt : μ → σ → σ
  attempt_cases : ∀ m s, attempt m s = s ∨
    ∃ k, key m = some k ∧ k ∉ claims s ∧ apply m s = some (attempt m s) ∧ claims (attempt m s) = claims s ++ [k]

namespace Once

variable {σ : Type u} {μ : Type v} {κ : Type w} [DecidableEq κ] (o : Once σ μ κ)

/-- The attempt claims the message's key. -/
def succeeds (m : μ) (s : σ) : Bool := (o.key m).any fun k => k ∉ o.claims s && k ∈ o.claims (o.attempt m s)

/-- The state after all attempts. -/
def attemptAll (s : σ) (ms : List μ) : σ := ms.foldl (fun s m => o.attempt m s) s

/-- The attempts that succeed, in order. -/
def successes : σ → List μ → List μ
  | _, [] => []
  | s, m :: ms => if o.succeeds m s then m :: successes (o.attempt m s) ms else successes (o.attempt m s) ms

variable {o} {s : σ} {m : μ}

theorem attempt_of_not_succeeds (h : o.succeeds m s = false) : o.attempt m s = s := by
  rcases o.attempt_cases m s with hs | ⟨k, hk, hfree, -, hclaims⟩
  · exact hs
  · simp [succeeds, hk, hfree, hclaims] at h

theorem of_succeeds (h : o.succeeds m s) :
    ∃ k, o.key m = some k ∧ k ∉ o.claims s ∧ o.apply m s = some (o.attempt m s) ∧
      o.claims (o.attempt m s) = o.claims s ++ [k] := by
  rcases o.attempt_cases m s with hs | h'
  · obtain ⟨k, -, hk⟩ := (Option.any_eq_true _ _).mp h
    rw [hs] at hk
    simp at hk
  · exact h'

/-- The attempts come to the successful ones, each applied once. -/
theorem apply_successes (o : Once σ μ κ) (s : σ) (ms : List μ) :
    (o.successes s ms).foldlM (fun s m => o.apply m s) s = some (o.attemptAll s ms) := by
  induction ms generalizing s with
  | nil => rfl
  | cons m ms ih =>
    cases h : o.succeeds m s with
    | false =>
      have hs : o.attempt m s = s := attempt_of_not_succeeds h
      show (if o.succeeds m s then _ else _ : List μ).foldlM _ s = some (o.attemptAll (o.attempt m s) ms)
      rw [h, if_neg (by simp), hs]
      exact ih s
    | true =>
      obtain ⟨k, -, -, happly, -⟩ := of_succeeds h
      show (if o.succeeds m s then _ else _ : List μ).foldlM _ s = some (o.attemptAll (o.attempt m s) ms)
      rw [h, if_pos rfl, List.foldlM_cons, happly]
      exact ih _

theorem claims_attemptAll (o : Once σ μ κ) (s : σ) (ms : List μ) :
    o.claims (o.attemptAll s ms) = o.claims s ++ (o.successes s ms).filterMap o.key := by
  induction ms generalizing s with
  | nil => simp [attemptAll, successes]
  | cons m ms ih =>
    show o.claims (o.attemptAll (o.attempt m s) ms) = _
    rw [ih, successes]
    cases h : o.succeeds m s with
    | false => simp [attempt_of_not_succeeds h]
    | true =>
      obtain ⟨k, hk, -, -, hclaims⟩ := of_succeeds h
      simp [hk, hclaims]

/-- No key is claimed twice. -/
theorem nodup_successes (o : Once σ μ κ) (s : σ) (ms : List μ) :
    ((o.successes s ms).filterMap o.key).Nodup ∧ ∀ k ∈ (o.successes s ms).filterMap o.key, k ∉ o.claims s := by
  induction ms generalizing s with
  | nil => simp [successes]
  | cons m ms ih =>
    obtain ⟨hn, hfree⟩ := ih (o.attempt m s)
    rw [successes]
    cases h : o.succeeds m s with
    | false => simpa [attempt_of_not_succeeds h] using ih s
    | true =>
      obtain ⟨k, hk, hk', -, hclaims⟩ := of_succeeds h
      rw [if_pos rfl, List.filterMap_cons_some hk]
      refine ⟨List.nodup_cons.mpr ⟨fun hmem => ?_, hn⟩, fun k' hmem => ?_⟩
      · exact hfree k hmem (by simp [hclaims])
      · rcases List.mem_cons.mp hmem with rfl | hmem
        · exact hk'
        · have := hfree k' hmem
          rw [hclaims] at this
          exact fun hc => this (List.mem_append_left _ hc)

end Once

end Library
