import Mathlib.Logic.Function.Basic

/-!
# Runs of a system given by a step function

A system is a partial step function `step : σ → α → Option σ`: in state `s` the
label `a` is enabled iff `step s a` is a state. `run` replays a list of labels,
and `Reach step ok s t` are the states `t` reached from `s` by steps each of
which satisfies the condition `ok` in the state it is taken in.

* `Reach.invariant`: what one step keeps, every run keeps;
* `Reach.of_run`: a replay is a run;
* `Reach.of_runIf`: a replay that checks the condition is a run under it;
* `runIf_iff`: a condition that is exactly what a property needs of each step;
* `Reach.mono`: a run under a condition is a run under a weaker one;
* `run_simulation`: a system that follows another one step by step follows its replays;
* `answered_cons`, `answered_concat`: which labels of a history are answered.
-/

namespace Library

universe u v

variable {σ : Type u} {α : Type v} {step : σ → α → Option σ}

/-- Replay of a list of labels; `none` once a label is not enabled. -/
def run (step : σ → α → Option σ) : σ → List α → Option σ
  | s, [] => some s
  | s, a :: as => (step s a).bind fun t => run step t as

/-- `Reach step ok s t`: `t` is reached from `s` by steps that satisfy `ok`. -/
inductive Reach (step : σ → α → Option σ) (ok : σ → α → Prop) (s : σ) : σ → Prop
  | refl : Reach step ok s s
  | tail {t u : σ} {a : α} : Reach step ok s t → ok t a → step t a = some u → Reach step ok s u

/-- No condition on the steps. -/
def always : σ → α → Prop := fun _ _ => True

variable {ok ok' : σ → α → Prop} {s t u : σ}

/-- What holds at the start and is kept by every allowed step holds of every
state reached. -/
theorem Reach.invariant {P : σ → Prop} (h : Reach step ok s t) (h₀ : P s)
    (hstep : ∀ t a u, P t → ok t a → step t a = some u → P u) : P t := by
  induction h with
  | refl => exact h₀
  | tail _ ho hs ih => exact hstep _ _ _ ih ho hs

theorem Reach.mono (h : Reach step ok s t) (hok : ∀ t a, ok t a → ok' t a) : Reach step ok' s t := by
  induction h with
  | refl => exact .refl
  | tail _ ho hs ih => exact ih.tail (hok _ _ ho) hs

theorem Reach.trans (h₁ : Reach step ok s t) (h₂ : Reach step ok t u) : Reach step ok s u := by
  induction h₂ with
  | refl => exact h₁
  | tail _ ho hs ih => exact ih.tail ho hs

/-- A replay is a run. -/
theorem Reach.of_run {as : List α} (h : run step s as = some t) : Reach step always s t := by
  induction as generalizing s with
  | nil => cases h; exact .refl
  | cons a as ih =>
    obtain ⟨u, hu, h⟩ := Option.bind_eq_some_iff.mp h
    exact (Reach.refl.tail trivial hu).trans (ih h)

/-- Replay that stops at a label that does not satisfy the condition. -/
def runIf (step : σ → α → Option σ) (ok : σ → α → Prop) [∀ s a, Decidable (ok s a)] : σ → List α → Option σ :=
  run fun s a => if ok s a then step s a else none

theorem Reach.of_runIf [∀ s a, Decidable (ok s a)] {as : List α} (h : runIf step ok s as = some t) :
    Reach step ok s t := by
  unfold runIf at h
  induction as generalizing s with
  | nil => cases h; exact .refl
  | cons a as ih =>
    obtain ⟨u, hu, h⟩ := Option.bind_eq_some_iff.mp h
    simp only at hu
    split at hu
    · rename_i hok
      exact (Reach.refl.tail hok hu).trans (ih h)
    · cases hu

/-- Where a property that is never regained is lost by just the steps that do not satisfy
the condition, a replay ends with the property iff all its steps satisfy the condition. -/
theorem runIf_iff [∀ s a, Decidable (ok s a)] {P Q : σ → Prop} {as : List α} (h : run step s as = some t) (hP : P s) (hQ : Q s)
    (hkeep : ∀ s a t, P s → ok s a → step s a = some t → P t) (hstep : ∀ s a t, P s → Q s → step s a = some t → (Q t ↔ ok s a))
    (hmono : ∀ s a t, step s a = some t → Q t → Q s) : Q t ↔ runIf step ok s as = some t := by
  induction as generalizing s with
  | nil =>
    cases h
    exact ⟨fun _ => rfl, fun _ => hQ⟩
  | cons a as ih =>
    obtain ⟨u, hu, h⟩ := Option.bind_eq_some_iff.mp h
    by_cases hok : ok s a
    · have hrun : runIf step ok s (a :: as) = runIf step ok u as := by simp [runIf, run, hok, hu]
      rw [hrun]
      exact ih h (hkeep s a u hP hok hu) ((hstep s a u hP hQ hu).mpr hok)
    · have hrun : runIf step ok s (a :: as) = none := by simp [runIf, run, hok]
      have hlost : ¬ Q u := fun hQu => hok ((hstep s a u hP hQ hu).mp hQu)
      have hlast : Q t → Q u := (Reach.of_run h).invariant (P := fun t => Q t → Q u) id
        fun _ _ _ hQt _ hs hQ => hQt (hmono _ _ _ hs hQ)
      rw [hrun]
      exact ⟨fun hQt => absurd (hlast hQt) hlost, nofun⟩

/-- A relation that each allowed step keeps is kept by a replay that checks the condition. -/
theorem run_simulation {τ : Type*} {step' : τ → α → Option τ} {R : σ → τ → Prop} [∀ s a, Decidable (ok s a)]
    (hstep : ∀ s s' t a, R s t → ok s a → step s a = some s' → ∃ t', step' t a = some t' ∧ R s' t') {as : List α} {s' : σ} {t : τ}
    (h : R s t) (hrun : runIf step ok s as = some s') : ∃ t', run step' t as = some t' ∧ R s' t' := by
  unfold runIf at hrun
  induction as generalizing s t with
  | nil =>
    cases hrun
    exact ⟨t, rfl, h⟩
  | cons a as ih =>
    obtain ⟨u, hu, hrest⟩ := Option.bind_eq_some_iff.mp hrun
    simp only at hu
    split at hu
    · rename_i hok
      obtain ⟨v, hv, huv⟩ := hstep s u t a h hok hu
      obtain ⟨t', ht', hR⟩ := ih huv hrest
      exact ⟨t', Option.bind_eq_some_iff.mpr ⟨v, hv, ht'⟩, hR⟩
    · cases hu

theorem run_append (as bs : List α) : run step s (as ++ bs) = (run step s as).bind fun t => run step t bs := by
  induction as generalizing s with
  | nil => rfl
  | cons a as ih =>
    simp only [List.cons_append, run, Option.bind_assoc]
    exact Option.bind_congr fun t _ => ih

/-! ## Histories -/

/-- Every label of the first kind has one of the second after it. -/
def Answered (p q : α → Prop) (history : List α) : Prop :=
  ∀ before a after, history = before ++ a :: after → p a → ∃ b ∈ after, q b

variable {p q : α → Prop} {history : List α} {a : α}

theorem answered_nil : Answered p q [] := fun before _ _ h => by cases before <;> cases h

theorem answered_cons : Answered p q (a :: history) ↔ (p a → ∃ b ∈ history, q b) ∧ Answered p q history := by
  constructor
  · exact fun h => ⟨h [] a history rfl, fun before b after he => h (a :: before) b after (by simp [he])⟩
  · rintro ⟨ha, h⟩ (_ | ⟨c, before⟩) b after he <;> cases he
    · exact ha
    · exact h before b after rfl

theorem answered_concat (hpq : q a → ¬ p a) :
    Answered p q (history ++ [a]) ↔ q a ∨ ¬ p a ∧ Answered p q history := by
  constructor
  · intro h
    by_cases hq : q a
    · exact .inl hq
    have hlast : ¬ p a := fun hp => by obtain ⟨b, hb, -⟩ := h history a [] rfl hp; cases hb
    refine .inr ⟨hlast, fun before b after he hb => ?_⟩
    obtain ⟨c, hc, hqc⟩ := h before b (after ++ [a]) (by simp [he]) hb
    rcases List.mem_append.mp hc with hc | hc
    · exact ⟨c, hc, hqc⟩
    · exact absurd (List.mem_singleton.mp hc ▸ hqc) hq
  · intro h before b after he hb
    rcases List.eq_nil_or_concat after with rfl | ⟨after, c, rfl⟩
    · -- the last label itself
      obtain ⟨-, hc⟩ := List.append_inj' he rfl
      cases hc
      exact h.elim (fun hq => absurd hb (hpq hq)) fun h => absurd hb h.1
    · rw [List.concat_eq_append] at he ⊢
      obtain ⟨hh, hc⟩ := List.append_inj' (show history ++ [a] = (before ++ b :: after) ++ [c] by simpa using he) rfl
      cases hc
      rcases h with hq | ⟨-, h⟩
      · exact ⟨a, by simp, hq⟩
      · obtain ⟨d, hd, hqd⟩ := h before b after hh hb
        exact ⟨d, List.mem_append_left _ hd, hqd⟩

end Library
