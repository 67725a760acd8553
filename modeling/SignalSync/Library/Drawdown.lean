import Mathlib.Algebra.BigOperators.Group.List.Basic
import Mathlib.Algebra.Order.Group.Defs
import Mathlib.Data.List.Induction
import Mathlib.Order.Bounds.Basic

/-!
# Falls of a running total

A list of gains runs through its totals, from zero on. `totals` has all of them and `falls`
the differences from a total to a later one, or to itself. What is greatest in either after
one more gain follows from what was greatest before it:

* `isGreatest_totals_concat`: the highest total;
* `isGreatest_falls_concat`: the deepest fall.
-/

namespace Library

universe u

variable {G : Type u} [AddCommGroup G]

/-- The totals that are gone through, and zero before the first gain. -/
def totals (gains : List G) : Set G := {total | ∃ k ≤ gains.length, (gains.take k).sum = total}

/-- The falls from a total to one that is not before it. -/
def falls (gains : List G) : Set G :=
  {fall | ∃ i j, i ≤ j ∧ j ≤ gains.length ∧ (gains.take i).sum - (gains.take j).sum = fall}

variable {gains more : List G} {gain total fall : G}

theorem zero_mem_totals (gains : List G) : 0 ∈ totals gains := ⟨0, Nat.zero_le _, by simp⟩

theorem sum_mem_totals (gains : List G) : gains.sum ∈ totals gains := ⟨gains.length, le_rfl, by rw [List.take_length]⟩

theorem zero_mem_falls (gains : List G) : 0 ∈ falls gains := ⟨0, 0, le_rfl, Nat.zero_le _, sub_self _⟩

/-- From every total there is a fall to the last one. -/
theorem sub_sum_mem_falls (h : total ∈ totals gains) : total - gains.sum ∈ falls gains := by
  obtain ⟨k, hk, rfl⟩ := h
  exact ⟨k, gains.length, hk, le_rfl, by rw [List.take_length]⟩

/-- Falls stay when there are more gains. -/
theorem falls_subset_append (gains more : List G) : falls gains ⊆ falls (gains ++ more) := by
  rintro fall ⟨i, j, hij, hj, rfl⟩
  refine ⟨i, j, hij, hj.trans (by simp), ?_⟩
  rw [List.take_append_of_le_length (hij.trans hj), List.take_append_of_le_length hj]

theorem totals_concat : totals (gains ++ [gain]) = insert (gains.sum + gain) (totals gains) := by
  ext total
  constructor
  · rintro ⟨k, hk, rfl⟩
    rw [List.length_append, List.length_singleton] at hk
    rcases Nat.le_or_eq_of_le_succ hk with hle | rfl
    · exact .inr ⟨k, hle, by rw [List.take_append_of_le_length hle]⟩
    · left
      rw [List.take_of_length_le (by simp), List.sum_append, List.sum_singleton]
  · rintro (rfl | ⟨k, hk, rfl⟩)
    · have hlast := sum_mem_totals (gains ++ [gain])
      rwa [List.sum_append, List.sum_singleton] at hlast
    · exact ⟨k, hk.trans (by simp), by rw [List.take_append_of_le_length hk]⟩

/-- A fall ends before the last gain, or after it. -/
theorem mem_falls_concat : fall ∈ falls (gains ++ [gain]) ↔
    fall ∈ falls gains ∨ ∃ total ∈ totals (gains ++ [gain]), total - (gains.sum + gain) = fall := by
  constructor
  · rintro ⟨i, j, hij, hj, rfl⟩
    have hlength : (gains ++ [gain]).length = gains.length + 1 := by simp
    rcases Nat.le_or_eq_of_le_succ (hlength ▸ hj) with hle | rfl
    · refine .inl ⟨i, j, hij, hle, ?_⟩
      rw [List.take_append_of_le_length (hij.trans hle), List.take_append_of_le_length hle]
    · refine .inr ⟨_, ⟨i, hij.trans hj, rfl⟩, ?_⟩
      rw [List.take_of_length_le (i := gains.length + 1) hlength.le, List.sum_append, List.sum_singleton]
  · rintro (h | ⟨total, htotal, rfl⟩)
    · exact falls_subset_append gains [gain] h
    · have hlast := sub_sum_mem_falls htotal
      rwa [List.sum_append, List.sum_singleton] at hlast

theorem isGreatest_totals_nil [PartialOrder G] : IsGreatest (totals ([] : List G)) 0 := by
  refine ⟨zero_mem_totals _, ?_⟩
  rintro total ⟨k, -, rfl⟩
  simp

theorem isGreatest_falls_nil [PartialOrder G] : IsGreatest (falls ([] : List G)) 0 := by
  refine ⟨zero_mem_falls _, ?_⟩
  rintro fall ⟨i, j, -, -, rfl⟩
  simp

variable [LinearOrder G] {highest deepest : G}

theorem isGreatest_totals_concat (h : IsGreatest (totals gains) highest) :
    IsGreatest (totals (gains ++ [gain])) (max highest (gains.sum + gain)) := by
  rw [totals_concat, max_comm]
  exact h.insert _

variable [IsOrderedAddMonoid G]

theorem isGreatest_falls_concat (h : IsGreatest (falls gains) deepest) (ht : IsGreatest (totals (gains ++ [gain])) highest) :
    IsGreatest (falls (gains ++ [gain])) (max deepest (highest - (gains.sum + gain))) := by
  constructor
  · rcases max_choice deepest (highest - (gains.sum + gain)) with hmax | hmax <;> rw [hmax]
    · exact mem_falls_concat.2 (.inl h.1)
    · exact mem_falls_concat.2 (.inr ⟨highest, ht.1, rfl⟩)
  · intro fall hfall
    rcases mem_falls_concat.1 hfall with hbefore | ⟨total, htotal, rfl⟩
    · exact (h.2 hbefore).trans (le_max_left _ _)
    · exact (sub_le_sub_right (ht.2 htotal) _).trans (le_max_right _ _)

end Library
