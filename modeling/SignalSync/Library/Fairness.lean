import SignalSync.Library.Run
import Mathlib.Data.Nat.Find
import Mathlib.Tactic.Choose

/-!
# Infinite runs and progress

An `Execution` is a run that never ends. What one step keeps holds from then on,
and what some party works towards comes about if that party steps again and again.

* `Execution.reach`: every later state is reached from every earlier one;
* `Execution.exists_of_rank`: a rank no step raises, and the party's own steps lower;
* `Execution.exists_own`: what others leave alone is there when the party steps next;
* `Execution.exists_of_schedule`: how an execution is made.
-/

namespace Library

universe u v

variable {σ : Type u} {α : Type v} {step : σ → α → Option σ} {ok : σ → α → Prop}

/-- An infinite run whose steps all satisfy `ok`. -/
structure Execution (step : σ → α → Option σ) (ok : σ → α → Prop) where
  state : Nat → σ
  label : Nat → α
  next : ∀ n, step (state n) (label n) = some (state (n + 1))
  allowed : ∀ n, ok (state n) (label n)

namespace Execution

variable (x : Execution step ok)

/-- Labels of the kind `own` occur again and again. -/
def Often (own : α → Prop) : Prop := ∀ n, ∃ k, n ≤ k ∧ own (x.label k)

variable {x} {J P : σ → Prop} {own : α → Prop} {m n : Nat}

theorem reach (h : m ≤ n) : Reach step ok (x.state m) (x.state n) := by
  induction n, h using Nat.le_induction with
  | base => exact .refl
  | succ n _ ih => exact ih.tail (x.allowed n) (x.next n)

/-- An execution's states are those its labels lead to. -/
theorem run_range (n : Nat) : run step (x.state 0) ((List.range n).map x.label) = some (x.state n) := by
  induction n with
  | zero => rfl
  | succ n ih =>
    rw [List.range_succ, List.map_append, run_append, ih, Option.bind_some, List.map_singleton, run, x.next]
    rfl

/-- What holds and is kept by every step holds from then on. -/
theorem holds_of_le (hstep : ∀ s a t, J s → ok s a → step s a = some t → J t) (h : J (x.state m)) (hmn : m ≤ n) :
    J (x.state n) :=
  (reach hmn).invariant h hstep

/-- What others keep still holds when `own` steps next. -/
theorem exists_own (hown : x.Often own)
    (hkeep : ∀ s a t, J s → ok s a → step s a = some t → ¬ own a → J t) (h : J (x.state n)) :
    ∃ k, n ≤ k ∧ own (x.label k) ∧ J (x.state k) := by
  classical
  have hfind := hown n
  obtain ⟨hn, ho⟩ := Nat.find_spec hfind
  refine ⟨Nat.find hfind, hn, ho, ?_⟩
  have hbefore : ∀ k, n ≤ k → k ≤ Nat.find hfind → J (x.state k) := fun k hk => by
    induction k, hk using Nat.le_induction with
    | base => exact fun _ => h
    | succ k hk ih =>
      exact fun hlt => hkeep _ _ _ (ih (by omega)) (x.allowed k) (x.next k) fun hown =>
        Nat.find_min hfind (m := k) (by omega) ⟨hk, hown⟩
  exact hbefore _ hn (Nat.le_refl _)

/-- Until `P` comes about, `J` is kept and the rank is not raised. -/
theorem rank_le_of_le (rank : σ → Nat)
    (hstep : ∀ s a t, J s → ok s a → step s a = some t → P t ∨ J t ∧ rank t ≤ rank s) (h : J (x.state m)) (hmn : m ≤ n) :
    (∃ k, m ≤ k ∧ P (x.state k)) ∨ J (x.state n) ∧ rank (x.state n) ≤ rank (x.state m) := by
  induction n, hmn using Nat.le_induction with
  | base => exact .inr ⟨h, Nat.le_refl _⟩
  | succ n hmn ih =>
    rcases ih with hP | ⟨hJ, hr⟩
    · exact .inl hP
    · rcases hstep _ _ _ hJ (x.allowed n) (x.next n) with hP | ⟨hJ', hr'⟩
      · exact .inl ⟨n + 1, by omega, hP⟩
      · exact .inr ⟨hJ', Nat.le_trans hr' hr⟩

/-- Until `P`, `J` is kept, no step raises the rank and each step of `own` lowers
it; if `own` steps again and again, `P` comes about. -/
theorem exists_of_rank (rank : σ → Nat) (hown : x.Often own)
    (hstep : ∀ s a t, J s → ok s a → step s a = some t → P t ∨ J t ∧ rank t ≤ rank s ∧ (own a → rank t < rank s))
    (h : J (x.state n)) : ∃ k, n ≤ k ∧ P (x.state k) := by
  induction hr : rank (x.state n) using Nat.strong_induction_on generalizing n with
  | _ r ih =>
    obtain ⟨k, hnk, hk⟩ := hown n
    rcases rank_le_of_le rank (fun s a t hJ ho hs => (hstep s a t hJ ho hs).imp_right fun h => ⟨h.1, h.2.1⟩) h hnk with
      hP | ⟨hJ, hle⟩
    · exact hP
    · rcases hstep _ _ _ hJ (x.allowed k) (x.next k) with hP | ⟨hJ', -, hlt⟩
      · exact ⟨k + 1, by omega, hP⟩
      · obtain ⟨j, hj, hP⟩ := ih (rank (x.state (k + 1))) (by have := hlt hk; omega) hJ' rfl
        exact ⟨j, by omega, hP⟩

/-- A schedule whose labels are enabled and allowed wherever it comes is an execution. -/
theorem exists_of_schedule {s₀ : σ} (label : Nat → α) (h₀ : J s₀)
    (hstep : ∀ n s, J s → ∃ t, step s (label n) = some t ∧ ok s (label n) ∧ J t) :
    ∃ x : Execution step ok, x.state 0 = s₀ ∧ x.label = label ∧ ∀ n, J (x.state n) := by
  choose! next hnext using hstep
  let state : Nat → σ := fun n => n.rec s₀ fun k s => next k s
  have hJ : ∀ n, J (state n) := fun n => by
    induction n with
    | zero => exact h₀
    | succ n ih => exact (hnext n _ ih).2.2
  exact ⟨⟨state, label, fun n => (hnext n _ (hJ n)).1, fun n => (hnext n _ (hJ n)).2.1⟩, rfl, rfl, hJ⟩

end Execution

end Library
