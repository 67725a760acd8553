import Mathlib.Data.Nat.Find

/-!
# Repeated passes over a list of tasks

A pass takes the tasks one after another and ends with the first that fails. It is
repeated, each time from the beginning and in an order of its own, over the tasks
that have not left, until one pass is complete.

* `mem_visited`: a pass comes to the tasks before which none fails;
* `left_eq_false`: what has left has left in one of the passes;
* `all_tried_iff`: each task gets its turn iff each can be given a pass in which
  nothing that is still there before it fails.
-/

namespace Library

variable {α : Type*} [DecidableEq α]

/-- The tasks of a list up to the first that fails, it included. -/
def upToFailure (ok : α → Bool) : List α → List α
  | [] => []
  | a :: l => a :: if ok a then upToFailure ok l else []

/-- One pass: the order of the tasks, which of them succeed if it comes to them, and
on which it does what the passes are for. -/
structure Pass (α : Type*) where
  order : List α
  ok : α → Bool
  tried : α → Bool

namespace Pass

/-- What the pass comes to, of the tasks still there. -/
def visited (p : Pass α) (left : α → Bool) : List α := upToFailure p.ok (p.order.filter left)

def Before (p : Pass α) (b a : α) : Prop := p.order.idxOf b < p.order.idxOf a

instance (p : Pass α) (b a : α) : Decidable (p.Before b a) := inferInstanceAs (Decidable (_ < _))

end Pass

theorem mem_upToFailure {ok p : α → Bool} {a : α} (l : List α) :
    a ∈ upToFailure ok (l.filter p) ↔ a ∈ l ∧ p a ∧ ∀ b ∈ l, p b → l.idxOf b < l.idxOf a → ok b := by
  induction l with
  | nil => simp [upToFailure]
  | cons c l ih =>
    have hidx : ∀ b, c ≠ b → (c :: l).idxOf b = l.idxOf b + 1 := fun b hb => by
      rw [List.idxOf_cons, beq_false_of_ne hb, cond_false]
    by_cases hac : c = a
    · subst c
      have hfirst : ∀ b, ¬ (a :: l).idxOf b < (a :: l).idxOf a := fun b hb => by simp [List.idxOf_cons_self] at hb
      cases hp : p a with
      | false =>
        have hnot : a ∉ upToFailure ok (l.filter p) := fun h => by simp [hp] at ih; exact ih h
        simp [hp, hnot]
      | true => simp [hp, upToFailure]
    · have hrest : (∀ b ∈ c :: l, p b → (c :: l).idxOf b < (c :: l).idxOf a → ok b) ↔
          (p c → ok c) ∧ ∀ b ∈ l, p b → l.idxOf b < l.idxOf a → ok b := by
        constructor
        · intro h
          refine ⟨fun hp => h c List.mem_cons_self hp (by simp [List.idxOf_cons_self, hidx a hac]), fun b hb hp hlt => ?_⟩
          by_cases hbc : c = b
          · subst c
            exact h b List.mem_cons_self hp (by simp [List.idxOf_cons_self, hidx a hac])
          · exact h b (List.mem_cons_of_mem c hb) hp (by rw [hidx a hac, hidx b hbc]; omega)
        · rintro ⟨hc, h⟩ b hb hp hlt
          by_cases hbc : c = b
          · subst c
            exact hc hp
          · rw [hidx a hac, hidx b hbc] at hlt
            exact h b ((List.mem_cons.mp hb).resolve_left (Ne.symm hbc)) hp (by omega)
      rw [hrest]
      have hca : a ≠ c := Ne.symm hac
      cases hp : p c with
      | false => simp [hp, ih, hca]
      | true =>
        cases hok : ok c with
        | false => simp [hp, upToFailure, hok, hca]
        | true => simp [hp, upToFailure, hok, hca, ih]

theorem mem_visited {p : Pass α} {left : α → Bool} {a : α} :
    a ∈ p.visited left ↔ a ∈ p.order ∧ left a ∧ ∀ b ∈ p.order, left b → p.Before b a → p.ok b :=
  mem_upToFailure p.order

/-! ## Passes in a row -/

section

variable (passes : Nat → Pass α) (leaves : α → Bool)

/-- The tasks still there before pass `k`: of those that leave, the ones no pass has
succeeded on. -/
def left : Nat → α → Bool
  | 0, _ => true
  | k + 1, a => left k a && !(leaves a && decide (a ∈ (passes k).visited (left k)) && (passes k).ok a)

/-- Pass `k` takes place: none before it was complete. -/
def Running (k : Nat) : Prop := ∀ j < k, ∃ a ∈ (passes j).order, left passes leaves j a ∧ (passes j).ok a = false

/-- In pass `k`, `a` gets its turn. -/
def Tried (k : Nat) (a : α) : Prop :=
  Running passes leaves k ∧ a ∈ (passes k).visited (left passes leaves k) ∧ (passes k).tried a

end

variable {passes : Nat → Pass α} {leaves : α → Bool} {k j n : Nat} {a b : α} {tasks : List α}

theorem Running.mono (h : Running passes leaves k) (hj : j ≤ k) : Running passes leaves j :=
  fun i hi => h i (by omega)

theorem running_succ : Running passes leaves (k + 1) ↔
    Running passes leaves k ∧ ∃ a ∈ (passes k).order, left passes leaves k a ∧ (passes k).ok a = false := by
  constructor
  · exact fun h => ⟨h.mono (by omega), h k (by omega)⟩
  · rintro ⟨h, hk⟩ j hj
    by_cases hjk : j = k
    · exact hjk ▸ hk
    · exact h j (by omega)

theorem left_eq_false : left passes leaves k a = false ↔
    ∃ j < k, leaves a ∧ a ∈ (passes j).visited (left passes leaves j) ∧ (passes j).ok a := by
  induction k with
  | zero => simp [left]
  | succ k ih =>
    rw [left, Bool.and_eq_false_iff, ih]
    constructor
    · rintro (⟨j, hj, h⟩ | h)
      · exact ⟨j, by omega, h⟩
      · exact ⟨k, by omega, by simpa [and_assoc] using h⟩
    · rintro ⟨j, hj, h⟩
      by_cases hjk : j = k
      · subst j
        exact .inr (by simpa [and_assoc] using h)
      · exact .inl ⟨j, by omega, h⟩

theorem left_of_le (h : left passes leaves k a) (hj : j ≤ k) : left passes leaves j a := by
  cases hl : left passes leaves j a with
  | true => rfl
  | false =>
    obtain ⟨i, hi, hg⟩ := left_eq_false.1 hl
    have hf : left passes leaves k a = false := left_eq_false.2 ⟨i, by omega, hg⟩
    simp [hf] at h

/-- What leaves has been tried. -/
theorem tried_of_gone (htried : ∀ k a, leaves a → (passes k).ok a → (passes k).tried a) (hr : Running passes leaves k)
    (h : left passes leaves k a = false) : ∃ j < k, Tried passes leaves j a ∧ (passes j).ok a := by
  obtain ⟨j, hj, hl, hv, ho⟩ := left_eq_false.1 h
  exact ⟨j, hj, ⟨hr.mono (by omega), hv, htried j a hl ho⟩, ho⟩

/-- Before a pass that does not take place, one was complete. -/
theorem exists_complete (h : ¬ Running passes leaves k) :
    ∃ j < k, Running passes leaves j ∧ ∀ a ∈ (passes j).order, left passes leaves j a → (passes j).ok a := by
  classical
  simp only [Running, not_forall] at h
  have hex : ∃ j, j < k ∧ ¬ ∃ a ∈ (passes j).order, left passes leaves j a ∧ (passes j).ok a = false := by
    obtain ⟨j, hj, h⟩ := h
    exact ⟨j, hj, h⟩
  obtain ⟨hj, hc⟩ := Nat.find_spec hex
  refine ⟨Nat.find hex, hj, fun i hi => ?_, fun a ha hl => ?_⟩
  · by_contra hi'
    exact Nat.find_min hex hi ⟨by omega, hi'⟩
  · by_contra ho
    exact hc ⟨a, ha, hl, by simpa using ho⟩

/-- The turns of the tasks: each has a pass in which it is tried, and what comes
before it there does not fail or has left in its own turn. -/
def Turns (passes : Nat → Pass α) (leaves : α → Bool) (tasks : List α) (n : Nat) (turn : α → Nat) : Prop :=
  ∀ a ∈ tasks, leaves a → turn a < n ∧ (passes (turn a)).tried a ∧
    ∀ b ∈ tasks, (passes (turn a)).Before b a →
      (passes (turn a)).ok b ∨ leaves b ∧ turn b < turn a ∧ (passes (turn b)).ok b

/-- In its turn a task that is still there is reached. -/
theorem Turns.visited {turn : α → Nat} (h : Turns passes leaves tasks n turn)
    (horder : ∀ k a, a ∈ (passes k).order ↔ a ∈ tasks) :
    ∀ k, ∀ a ∈ tasks, leaves a → turn a = k → left passes leaves k a → a ∈ (passes k).visited (left passes leaves k) := by
  intro k
  induction k using Nat.strong_induction_on with
  | _ k ih =>
    rintro a ha hl rfl hleft
    refine mem_visited.2 ⟨(horder _ a).mpr ha, hleft, fun b hb hlb hbefore => ?_⟩
    rw [horder] at hb
    rcases (h a ha hl).2.2 b hb hbefore with ho | ⟨hbl, hlt, ho⟩
    · exact ho
    · -- `b` has left in its turn
      have hv := ih (turn b) hlt b hb hbl rfl (left_of_le hlb (by omega))
      have hgone : left passes leaves (turn a) b = false := left_eq_false.2 ⟨turn b, hlt, hbl, hv, ho⟩
      simp [hgone] at hlb

/-- Every task that leaves is tried in one of the first `n` passes iff there are
turns for them. -/
theorem all_tried_iff (horder : ∀ k a, a ∈ (passes k).order ↔ a ∈ tasks)
    (htried : ∀ k a, leaves a → (passes k).ok a → (passes k).tried a) :
    (∀ a ∈ tasks, leaves a → ∃ k < n, Tried passes leaves k a) ↔ ∃ turn, Turns passes leaves tasks n turn := by
  classical
  constructor
  · intro h
    -- the turn of a task is the last pass it is tried in
    let P (a : α) (k : Nat) : Prop := k < n ∧ Tried passes leaves k a
    have hex : ∃ last : α → Nat, ∀ a k, P a k → P a (last a) ∧ k ≤ last a :=
      ⟨fun a => Nat.findGreatest (P a) n, fun a k hk =>
        ⟨Nat.findGreatest_spec (Nat.le_of_lt hk.1) hk, Nat.le_findGreatest (Nat.le_of_lt hk.1) hk⟩⟩
    obtain ⟨last, hlast⟩ := hex
    refine ⟨last, fun a ha hl => ?_⟩
    obtain ⟨k, hk, ht⟩ := h a ha hl
    obtain ⟨⟨hn, hr, hv, htr⟩, -⟩ := hlast a k ⟨hk, ht⟩
    refine ⟨hn, htr, fun b hb hbefore => ?_⟩
    cases hlb : left passes leaves (last a) b with
    | true => exact .inl ((mem_visited.1 hv).2.2 b ((horder _ b).mpr hb) hlb hbefore)
    | false =>
      obtain ⟨j, hj, hbl, hbv, ho⟩ := left_eq_false.1 hlb
      obtain ⟨⟨-, -, hbv', -⟩, hle⟩ := hlast b j ⟨by omega, hr.mono (by omega), hbv, htried j b hbl ho⟩
      have heq : last b = j := by
        by_contra hne
        have hgone : left passes leaves (last b) b = false := left_eq_false.2 ⟨j, by omega, hbl, hbv, ho⟩
        exact absurd (mem_visited.1 hbv').2.1 (by simp [hgone])
      exact .inr ⟨hbl, by omega, by rw [heq]; exact ho⟩
  · rintro ⟨turn, h⟩ a ha hl
    obtain ⟨hn, htr, -⟩ := h a ha hl
    by_cases hr : Running passes leaves (turn a)
    · cases hleft : left passes leaves (turn a) a with
      | true => exact ⟨turn a, hn, hr, h.visited horder _ a ha hl rfl hleft, htr⟩
      | false =>
        obtain ⟨j, hj, ht, -⟩ := tried_of_gone htried hr hleft
        exact ⟨j, by omega, ht⟩
    · obtain ⟨j, hj, hr, hc⟩ := exists_complete hr
      cases hleft : left passes leaves j a with
      | true =>
        have hv : a ∈ (passes j).visited (left passes leaves j) :=
          mem_visited.2 ⟨(horder j a).mpr ha, hleft, fun b hb hlb _ => hc b hb hlb⟩
        exact ⟨j, by omega, hr, hv, htried j a hl (hc a ((horder j a).mpr ha) hleft)⟩
      | false =>
        obtain ⟨i, hi, ht, -⟩ := tried_of_gone htried hr hleft
        exact ⟨i, by omega, ht⟩

end Library
