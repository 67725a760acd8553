import Mathlib.Data.List.MinMax

/-!
# Members of least size

`least size l` are the members of a list that none is smaller than.

* `least_eq_singleton`: it has one member exactly if one is smaller than all others;
* `least_eq_filter`: the members of the size of one that is found with `argmin`;
* `least_perm`: it does not depend on the order.
-/

namespace Library

universe u v

variable {α : Type u} {β : Type v} [LinearOrder β] {size : α → β} {l l' : List α} {a : α}

def least (size : α → β) (l : List α) : List α := l.filter fun a => l.all fun b => size a ≤ size b

theorem mem_least : a ∈ least size l ↔ a ∈ l ∧ ∀ b ∈ l, size a ≤ size b := by simp [least]

/-- What `argmin` finds is of least size. -/
theorem argmin_spec (h : l.argmin size = some a) : a ∈ l ∧ ∀ b ∈ l, size a ≤ size b :=
  ⟨List.argmin_mem h, fun _ hb => List.le_of_mem_argmin hb h⟩

theorem least_eq_filter (h : l.argmin size = some a) : least size l = l.filter fun b => size b = size a := by
  obtain ⟨ha, hle⟩ := argmin_spec h
  refine List.filter_congr fun b hb => ?_
  rw [Bool.eq_iff_iff, List.all_eq_true]
  simp only [decide_eq_true_eq]
  exact ⟨fun hmin => le_antisymm (hmin a ha) (hle b hb), fun heq c hc => heq.trans_le (hle c hc)⟩

theorem least_perm (h : l.Perm l') : (least size l).Perm (least size l') := by
  have hcongr : least size l = l.filter fun a => l'.all fun b => size a ≤ size b :=
    List.filter_congr fun a _ => h.all_eq
  rw [hcongr]
  exact h.filter _

/-- One member alone: it is smaller than every other. -/
theorem least_eq_singleton : least size l = [a] ↔ ∃ l₁ l₂, l = l₁ ++ a :: l₂ ∧ ∀ b ∈ l₁ ++ l₂, size a < size b := by
  constructor
  · intro h
    have hmem : a ∈ least size l := h ▸ List.mem_singleton_self a
    obtain ⟨ha, hle⟩ := mem_least.1 hmem
    obtain ⟨l₁, l₂, rfl⟩ := List.append_of_mem ha
    refine ⟨l₁, l₂, rfl, fun b hb => ?_⟩
    have hself : (l₁ ++ a :: l₂).all (fun c => size a ≤ size c) = true := by simpa only [List.all_eq_true, decide_eq_true_eq] using hle
    rw [least, List.filter_append, List.filter_cons, if_pos hself] at h
    -- the rest of the list has no member of this size
    have hrest : (l₁ ++ l₂).filter (fun b => (l₁ ++ a :: l₂).all fun c => size b ≤ size c) = [] := by
      have hlength := congrArg List.length h
      rw [List.length_append, List.length_cons, List.length_singleton] at hlength
      rw [List.filter_append, List.append_eq_nil_iff, ← List.length_eq_zero_iff, ← List.length_eq_zero_iff]
      omega
    have hnot := List.filter_eq_nil_iff.mp hrest b hb
    rw [List.all_eq_true] at hnot
    simp only [decide_eq_true_eq] at hnot
    refine lt_of_not_ge fun hba => hnot fun c hc => hba.trans (hle c hc)
  · rintro ⟨l₁, l₂, rfl, hlt⟩
    have hnone (part : List α) (hpart : ∀ b ∈ part, size a < size b) :
        part.filter (fun b => (l₁ ++ a :: l₂).all fun c => size b ≤ size c) = [] := by
      refine List.filter_eq_nil_iff.mpr fun b hb hall => ?_
      rw [List.all_eq_true] at hall
      have hle := hall a (List.mem_append_right _ List.mem_cons_self)
      rw [decide_eq_true_eq] at hle
      exact hle.not_gt (hpart b hb)
    have hself : (l₁ ++ a :: l₂).all (fun c => size a ≤ size c) = true := by
      rw [List.all_eq_true]
      intro c hc
      rw [decide_eq_true_eq]
      rcases List.mem_append.mp hc with hc | hc
      · exact (hlt c (List.mem_append_left _ hc)).le
      · rcases List.mem_cons.mp hc with rfl | hc
        · exact le_rfl
        · exact (hlt c (List.mem_append_right _ hc)).le
    rw [least, List.filter_append, List.filter_cons, if_pos hself,
      hnone l₁ fun b hb => hlt b (List.mem_append_left _ hb), hnone l₂ fun b hb => hlt b (List.mem_append_right _ hb)]
    rfl

end Library
