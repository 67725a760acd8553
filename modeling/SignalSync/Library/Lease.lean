import Mathlib.Data.Set.Insert

/-!
# Leases

A key that is set for a time with a token, if it is not there (`SET NX EX`), and whose
expiry is put off, or which is deleted, by who knows the token. Holders know until when
their lease runs. `Backs` is what makes it one: whoever's time has not run out is the one
whose token is stored.

* `Backs.unique`: there is one such holder at most;
* `Backs.claim`, `Backs.refresh`, `Backs.release`, `Backs.mono`: what holders do, and leave undone.
-/

namespace Library

universe u

/-- The token that is stored, with the time it expires at. -/
structure Lease (τ : Type u) where
  stored : Option (τ × Nat) := none

namespace Lease

variable {τ : Type u} [DecidableEq τ]

/-- What a command sees of it. -/
def live (l : Lease τ) (now : Nat) : Option (τ × Nat) := l.stored.filter fun e => now < e.2

def claim (l : Lease τ) (now ttl : Nat) (token : τ) : Option (Lease τ) :=
  if (l.live now).isNone then some ⟨some (token, now + ttl)⟩ else none

def refresh (l : Lease τ) (now ttl : Nat) (token : τ) : Option (Lease τ) :=
  if (l.live now).any fun e => e.1 = token then some ⟨some (token, now + ttl)⟩ else none

def release (l : Lease τ) (now : Nat) (token : τ) : Lease τ :=
  if (l.live now).any fun e => e.1 = token then {} else l

/-- The holders' times: a token and the end of its lease. -/
def Backs (l : Lease τ) (now : Nat) (holders : Set (τ × Nat)) : Prop := ∀ h ∈ holders, now < h.2 → l.stored = some h

variable {l l' : Lease τ} {now now' ttl : Nat} {token : τ} {holders holders' : Set (τ × Nat)} {h h' : τ × Nat}

omit [DecidableEq τ] in
theorem Backs.unique (hl : l.Backs now holders) (hh : h ∈ holders) (hh' : h' ∈ holders) (hnow : now < h.2) (hnow' : now < h'.2) :
    h = h' := Option.some_inj.mp ((hl h hh hnow).symm.trans (hl h' hh' hnow'))

omit [DecidableEq τ] in
/-- Time passes, and holders give up. -/
theorem Backs.mono (hl : l.Backs now holders) (hnow : now ≤ now') (hsub : holders' ⊆ holders) : l.Backs now' holders' :=
  fun h hh hlt => hl h (hsub hh) (Nat.lt_of_le_of_lt hnow hlt)

omit [DecidableEq τ] in
theorem live_of_backs (hl : l.Backs now holders) (hh : h ∈ holders) (hnow : now < h.2) : l.live now = some h := by
  rw [live, hl h hh hnow, Option.filter_some, if_pos (by simpa using hnow)]

omit [DecidableEq τ] in
theorem Backs.claim (hl : l.Backs now holders) (hc : l.claim now ttl token = some l') :
    l'.Backs now (insert (token, now + ttl) holders) := by
  unfold Lease.claim at hc
  split at hc <;> cases hc
  rename_i hfree
  intro h hh hnow
  rcases Set.mem_insert_iff.mp hh with rfl | hh
  · rfl
  · rw [live_of_backs hl hh hnow] at hfree
    cases hfree

/-- The token's holder has a new time; the others have other tokens. -/
theorem Backs.refresh (hl : l.Backs now holders) (hr : l.refresh now ttl token = some l') :
    l'.Backs now (insert (token, now + ttl) {h ∈ holders | h.1 ≠ token}) := by
  unfold Lease.refresh at hr
  split at hr <;> cases hr
  rename_i hstored
  intro h hh hnow
  rcases Set.mem_insert_iff.mp hh with rfl | ⟨hh, hne⟩
  · rfl
  · rw [live_of_backs hl hh hnow, Option.any_some, decide_eq_true_iff] at hstored
    exact absurd hstored hne

theorem Backs.release (hl : l.Backs now holders) : (l.release now token).Backs now {h ∈ holders | h.1 ≠ token} := by
  rintro h ⟨hh, hne⟩ hnow
  rw [Lease.release, live_of_backs hl hh hnow, Option.any_some, if_neg (by simpa using hne)]
  exact hl h hh hnow

end Lease

end Library
