import SignalSync.Library.Table

/-!
# Rows with owners

Rows of a table that belong to users, or to nobody. `others` are the rows that are not a
user's, and whoever sees only such rows sees nothing of what happens to the user's own
(`select_of_others`).

* `others_push`, `others_modify`, `others_filter`: rows of the user that are added, rewritten or deleted;
* `others_modifyOwn`: rewritten where they are the user's own.
-/

namespace Library

universe u v w

namespace Table

variable {κ : Type u} {α : Type v} {ν : Type w} [DecidableEq κ] [DecidableEq ν]

/-- The rows that are not the user's. -/
def others (t : Table κ α) (owner : κ → α → Option ν) (user : ν) : List (κ × α) := t.select fun k a => owner k a ≠ some user

variable {t t' : Table κ α} {owner : κ → α → Option ν} {user : ν} {k : κ} {a : α}

/-- A view of rows that are not the user's. -/
theorem select_of_others (h : t'.others owner user = t.others owner user) {p : κ → α → Bool}
    (hp : ∀ k a, t.get? k = some a ∨ t'.get? k = some a → p k a → owner k a ≠ some user) : t'.select p = t.select p := by
  have hview (s : Table κ α) (hs : ∀ k a, s.get? k = some a → p k a → owner k a ≠ some user) :
      s.select p = (s.others owner user).filter fun e => p e.1 e.2 := by
    show s.entries.filter _ = (s.entries.filter _).filter _
    rw [List.filter_filter]
    refine List.filter_congr fun e he => ?_
    cases hpe : p e.1 e.2 with
    | false => rfl
    | true => simp [hs e.1 e.2 (get?_eq_some.mpr he) hpe]
  rw [hview t' fun k a ha => hp k a (.inr ha), hview t fun k a ha => hp k a (.inl ha), h]

/-- A new row has a key of its own. -/
theorem ne_of_push (h : t.push k a = some t') {k' : κ} {b : α} (hb : t.get? k' = some b) : k' ≠ k := by
  rintro rfl
  rw [push_eq_none.mpr ⟨b, hb⟩] at h
  cases h

theorem others_push (h : t.push k a = some t') (howner : owner k a = some user) : t'.others owner user = t.others owner user := by
  rw [others, select_push h, if_neg (by simp [howner]), List.append_nil, others]

theorem others_modify {f : α → α} (hold : ∀ a, t.get? k = some a → owner k a = some user ∧ owner k (f a) = some user) :
    (t.modify k f).others owner user = t.others owner user :=
  select_modify fun a ha => by simp [hold a ha]

omit [DecidableEq κ] in
theorem others_filter {p : κ → α → Bool} (h : ∀ k a, (k, a) ∈ t.entries → p k a = false → owner k a = some user) :
    (t.filter p).others owner user = t.others owner user := by
  show (t.entries.filter _).filter _ = t.entries.filter _
  rw [List.filter_filter]
  refine List.filter_congr fun e he => ?_
  cases hp : p e.1 e.2 with
  | true => simp
  | false => simp [h e.1 e.2 he hp]

/-- An update with a condition on the row's owner. -/
def modifyOwn (owner : κ → α → Option ν) (user : ν) (f : α → α) (t : Table κ α) (k : κ) : Table κ α :=
  t.modify k fun a => if owner k a = some user then f a else a

theorem get?_modifyOwn {f : α → α} {k' : κ} : (modifyOwn owner user f t k).get? k' =
    if k' = k then (t.get? k').map fun a => if owner k a = some user then f a else a else t.get? k' := get?_modify _

theorem others_modifyOwn {f : α → α} (hf : ∀ a, owner k (f a) = owner k a) :
    (modifyOwn owner user f t k).others owner user = t.others owner user := by
  by_cases h : ∃ a, t.get? k = some a ∧ owner k a = some user
  · obtain ⟨a, ha, howner⟩ := h
    refine others_modify fun a' ha' => ?_
    cases ha.symm.trans ha'
    rw [if_pos howner, hf, and_self]
    exact howner
  · rw [modifyOwn, modify_eq_self fun a ha => if_neg fun howner => h ⟨a, ha, howner⟩]

end Table

end Library
