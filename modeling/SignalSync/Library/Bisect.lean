import Mathlib.Data.List.Basic
import Mathlib.Order.Lattice

/-!
# Bisection

`bisectRight` halves a window of a list until nothing is left of it, comparing with the
element in the middle. Where the elements above `x` are those from some place on, it finds
that place (`bisectRight_eq`); such a place is there as soon as what follows an element above
`x` is above it too (`exists_cut`).
-/

namespace Library

section

variable {above : Nat → Bool} {k : Nat}

/-- The loop on the window from `lo` to `hi`; its first length is fuel enough. -/
def bisectLoop (above : Nat → Bool) : Nat → Nat → Nat → Nat
  | 0, lo, _ => lo
  | fuel + 1, lo, hi =>
    if lo < hi then
      let mid := (lo + hi) / 2
      if above mid then bisectLoop above fuel lo mid else bisectLoop above fuel (mid + 1) hi
    else lo

theorem bisectLoop_eq {fuel lo hi : Nat} (hf : hi ≤ lo + fuel) (hlo : lo ≤ k) (hhi : k ≤ hi)
    (h : ∀ i, lo ≤ i → i < hi → (above i ↔ k ≤ i)) : bisectLoop above fuel lo hi = k := by
  induction fuel generalizing lo hi with
  | zero =>
    rw [bisectLoop]
    omega
  | succ fuel ih =>
    rw [bisectLoop]
    split
    · next hlt =>
      have hmid := h ((lo + hi) / 2) (by omega) (by omega)
      simp only
      split
      · next habove =>
        have := hmid.mp habove
        exact ih (by omega) hlo this fun i hl hr => h i hl (by omega)
      · next hbelow =>
        have : ¬ k ≤ (lo + hi) / 2 := fun hk => hbelow (hmid.mpr hk)
        exact ih (by omega) (by omega) hhi fun i hl hr => h i (by omega) hr
    · omega

end

/-- A condition that holds of the next place too holds from some place on. -/
theorem exists_cut {p : Nat → Prop} {n : Nat} (h : ∀ i, i + 1 < n → p i → p (i + 1)) : ∃ k ≤ n, ∀ i < n, p i ↔ k ≤ i := by
  induction n with
  | zero => exact ⟨0, Nat.le_refl 0, nofun⟩
  | succ n ih =>
    obtain ⟨k, hk, hcut⟩ := ih fun i hi => h i (by omega)
    by_cases hp : p n
    · refine ⟨k, by omega, fun i hi => ?_⟩
      rcases Nat.lt_succ_iff_lt_or_eq.mp hi with hlt | rfl
      · exact hcut i hlt
      · exact ⟨fun _ => hk, fun _ => hp⟩
    · have hkn : k = n := by
        by_contra hne
        obtain ⟨m, rfl⟩ : ∃ m, n = m + 1 := ⟨n - 1, by omega⟩
        exact hp (h m (by omega) ((hcut m (by omega)).mpr (by omega)))
      refine ⟨n + 1, Nat.le_refl _, fun i hi => ?_⟩
      rcases Nat.lt_succ_iff_lt_or_eq.mp hi with hlt | rfl
      · rw [hcut i hlt]
        omega
      · exact ⟨fun hpi => absurd hpi hp, fun hle => by omega⟩

variable {α : Type*} [LinearOrder α]

/-- The place after which `x` is put among the elements of `a`. -/
def bisectRight (a : List α) (x : α) : Nat := bisectLoop (fun i => a[i]?.any (x < ·)) a.length 0 a.length

theorem bisectRight_eq {a : List α} {x : α} {k : Nat} (hk : k ≤ a.length) (h : ∀ i (hi : i < a.length), x < a[i] ↔ k ≤ i) :
    bisectRight a x = k := by
  refine bisectLoop_eq (by omega) (Nat.zero_le k) hk fun i _ hi => ?_
  rw [List.getElem?_eq_getElem hi, Option.any_some, decide_eq_true_eq]
  exact h i hi

end Library
