import Mathlib.Data.List.Basic

/-!
# Lists of sessions

Sessions that run side by side, in the order in which they began, each known by its
position: one of them goes on, or another begins.

* `getElem?_set_cases`, `getElem?_concat_cases`: which session there is afterwards.
-/

namespace Library

variable {α : Type*} {sessions : List α} {session session' : α} {i j : Nat}

theorem getElem?_set_cases (h : (sessions.set i session)[j]? = some session') :
    j = i ∧ session' = session ∨ j ≠ i ∧ sessions[j]? = some session' := by
  rw [List.getElem?_set] at h
  split at h
  · rename_i he
    split at h <;> cases h
    exact .inl ⟨he.symm, rfl⟩
  · rename_i hne
    exact .inr ⟨fun he => hne he.symm, h⟩

theorem getElem?_concat_cases (h : (sessions ++ [session])[j]? = some session') :
    j = sessions.length ∧ session' = session ∨ sessions[j]? = some session' := by
  rcases Nat.lt_trichotomy j sessions.length with hlt | rfl | hgt
  · rw [List.getElem?_append_left hlt] at h
    exact .inr h
  · rw [List.getElem?_concat_length] at h
    exact .inl ⟨rfl, (Option.some.inj h).symm⟩
  · rw [List.getElem?_eq_none (by rw [List.length_append, List.length_singleton]; exact hgt)] at h
    cases h

end Library
