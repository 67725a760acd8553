import Mathlib.Algebra.BigOperators.Group.List.Basic
import Mathlib.Data.List.Induction
import SignalSync.Library.Table

/-!
# Values collected by a key

`groups key new step l` goes through a list and collects its members by their keys: the
first member of a key finds the value `new`, each member is taken in by `step`. The keys
come in the order of their first members.

* `get?_groups`: what is collected under a key is a fold over the members of that key;
* `map_entries_groups`: what is read off the collected values can be collected itself;
* `sum_groups`: a weight that each member adds to is, over all keys, that of the whole list.
-/

namespace Library

universe u v w

namespace Table

variable {κ : Type u} {α : Type v} {β : Type w} [DecidableEq κ]

/-- Take a member in under its key. -/
def collect (key : α → κ) (new : β) (step : β → α → β) (t : Table κ β) (a : α) : Table κ β :=
  (t.add (key a) new).modify (key a) fun b => step b a

def groups (key : α → κ) (new : β) (step : β → α → β) (l : List α) : Table κ β := l.foldl (collect key new step) ∅

variable {key : α → κ} {new : β} {step : β → α → β} {t : Table κ β} {a : α} {l : List α} {k : κ} {b : β}

theorem get?_collect :
    (collect key new step t a).get? k = if k = key a then some (step ((t.get? k).getD new) a) else t.get? k := by
  rw [collect, get?_modify, get?_add]
  by_cases hk : k = key a
  · subst hk
    rw [if_pos rfl, if_pos rfl, if_pos rfl]
    cases t.get? (key a) <;> rfl
  · rw [if_neg hk, if_neg hk, if_neg hk, Option.or_none]

theorem groups_concat : groups key new step (l ++ [a]) = collect key new step (groups key new step l) a := by
  rw [groups, List.foldl_append]
  rfl

theorem get?_groups :
    (groups key new step l).get? k =
      if k ∈ l.map key then some ((l.filter fun a => key a = k).foldl step new) else none := by
  induction l using List.reverseRecOn with
  | nil => rfl
  | append_singleton l a ih =>
    rw [groups_concat, get?_collect, ih, List.map_append, List.filter_append]
    by_cases hk : k = key a
    · subst hk
      have hmem : key a ∈ l.map key ++ [a].map key := List.mem_append_right _ List.mem_cons_self
      rw [if_pos rfl, if_pos hmem, List.filter_cons_of_pos (by simp), List.filter_nil, List.foldl_append]
      split
      · rfl
      · rename_i hnone
        have hempty : (l.filter fun x => key x = key a) = [] := by
          refine List.filter_eq_nil_iff.mpr fun x hx hkey => hnone ?_
          exact List.mem_map.mpr ⟨x, hx, by simpa using hkey⟩
        rw [hempty]
        rfl
    · have hlast : ([a].filter fun x => key x = k) = [] := List.filter_cons_of_neg (by simpa using fun h => hk h.symm)
      rw [if_neg hk, hlast, List.append_nil]
      simp only [List.mem_append, List.map_cons, List.map_nil, List.mem_singleton, hk, or_false]

theorem mem_groups :
    (k, b) ∈ (groups key new step l).entries ↔ k ∈ l.map key ∧ b = (l.filter fun a => key a = k).foldl step new := by
  rw [← get?_eq_some, get?_groups]
  split
  · rename_i hk
    rw [Option.some_inj]
    exact ⟨fun h => ⟨hk, h.symm⟩, fun h => h.2.symm⟩
  · rename_i hk
    exact ⟨nofun, fun h => absurd h.1 hk⟩

theorem groups_eq_nil : (groups key new step l).entries = [] ↔ l = [] := by
  constructor
  · intro h
    cases l with
    | nil => rfl
    | cons a l =>
      have hmem : (key a, _) ∈ (groups key new step (a :: l)).entries := mem_groups.2 ⟨List.mem_cons_self, rfl⟩
      rw [h] at hmem
      cases hmem
  · rintro rfl
    rfl

/-! ## One list by another's fold -/

section

universe x

variable {γ : Type x} {f : β → γ} {new' : γ} {step' : γ → α → γ} {t' : Table κ γ}

theorem map_entries_collect (hnew : f new = new') (hstep : ∀ b a, f (step b a) = step' (f b) a)
    (h : t.entries.map (fun e => (e.1, f e.2)) = t'.entries) :
    (collect key new step t a).entries.map (fun e => (e.1, f e.2)) = (collect key new' step' t' a).entries := by
  have hkeys : t.entries.map Prod.fst = t'.entries.map Prod.fst := by
    rw [← h, List.map_map]
    rfl
  have hadd : (t.add (key a) new).entries.map (fun e => (e.1, f e.2)) = (t'.add (key a) new').entries := by
    unfold add push
    by_cases hk : key a ∈ t.entries.map Prod.fst
    · rw [dif_pos hk, dif_pos (hkeys ▸ hk)]
      exact h
    · rw [dif_neg hk, dif_neg (hkeys ▸ hk), Option.getD_some, Option.getD_some, List.map_append, h, List.map_singleton, hnew]
  unfold collect modify mapRows
  dsimp only
  rw [← hadd, List.map_map, List.map_map]
  refine List.map_congr_left fun e _ => Prod.ext rfl ?_
  simp only [Function.comp_apply]
  split
  · exact hstep e.2 a
  · rfl

/-- What is read off each collected value can be collected itself. -/
theorem map_entries_groups (hnew : f new = new') (hstep : ∀ b a, f (step b a) = step' (f b) a) (l : List α) :
    (groups key new step l).entries.map (fun e => (e.1, f e.2)) = (groups key new' step' l).entries := by
  induction l using List.reverseRecOn with
  | nil => rfl
  | append_singleton l a ih =>
    rw [groups_concat, groups_concat]
    exact map_entries_collect hnew hstep ih

end

/-! ## Weights -/

section

variable {M : Type*} [AddCommMonoid M] {weight : β → M} {value : α → M}

theorem sum_add (h : weight new = 0) :
    ((t.add k new).entries.map fun e => weight e.2).sum = (t.entries.map fun e => weight e.2).sum := by
  unfold add
  cases hpush : t.push k new with
  | none => rfl
  | some t' => rw [Option.getD_some, entries_push hpush, List.map_append, List.sum_append, List.map_singleton,
      List.sum_singleton, h, add_zero]

theorem sum_modify {f : β → β} {x : M} (hrow : t.get? k = some b) (hf : weight (f b) = weight b + x) :
    ((t.modify k f).entries.map fun e => weight e.2).sum = (t.entries.map fun e => weight e.2).sum + x := by
  have hmem := get?_eq_some.1 hrow
  obtain ⟨entries, nodup⟩ := t
  simp only [modify, mapRows, List.map_map] at hmem ⊢
  clear hrow
  induction entries with
  | nil => cases hmem
  | cons e entries ih =>
    rw [List.map_cons, List.nodup_cons] at nodup
    simp only [List.map_cons, List.sum_cons, Function.comp_apply]
    rcases List.mem_cons.mp hmem with rfl | hrest
    · -- the row is the first one; its key is in no other
      have hothers : (entries.map ((fun e => weight e.2) ∘ fun e => (e.1, if e.1 = k then f e.2 else e.2))) =
          entries.map fun e => weight e.2 := by
        refine List.map_congr_left fun e he => ?_
        have hne : e.1 ≠ k := fun hk => nodup.1 (List.mem_map.mpr ⟨e, he, hk⟩)
        simp only [Function.comp_apply, if_neg hne]
      rw [hothers, if_pos rfl, hf, add_right_comm]
    · have hne : e.1 ≠ k := fun hk => nodup.1 (List.mem_map.mpr ⟨_, hrest, hk.symm⟩)
      rw [if_neg hne, ih nodup.2 hrest, add_assoc]

theorem sum_collect (hnew : weight new = 0) (hstep : ∀ b a, weight (step b a) = weight b + value a) :
    ((collect key new step t a).entries.map fun e => weight e.2).sum =
      (t.entries.map fun e => weight e.2).sum + value a := by
  have hrow : (t.add (key a) new).get? (key a) = some ((t.get? (key a)).getD new) := by
    rw [get?_add, if_pos rfl]
    cases t.get? (key a) <;> rfl
  rw [collect, sum_modify hrow (hstep _ a), sum_add hnew]

theorem sum_groups (hnew : weight new = 0) (hstep : ∀ b a, weight (step b a) = weight b + value a) :
    ((groups key new step l).entries.map fun e => weight e.2).sum = (l.map value).sum := by
  induction l using List.reverseRecOn with
  | nil => rfl
  | append_singleton l a ih =>
    rw [groups_concat, sum_collect hnew hstep, ih, List.map_append, List.sum_append, List.map_singleton, List.sum_singleton]

end

end Table

end Library
