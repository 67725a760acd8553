import Mathlib.Algebra.BigOperators.Group.List.Basic
import SignalSync.Library.Overwrite

/-!
# Totals over the rows of a table

`total weight t` adds up what each row weighs. What an operation does to the total is the
weight of the one row that it writes or takes away:

* `total_add`, `total_remove`, `total_modify`, `total_set`: rows of a table;
* `total_filter`: a table is what satisfies a condition and what does not;
* `sum_set`: the same of the items of a list;
* `sum_buckets`: what the members of a list weigh, added up bucket by bucket.
-/

namespace Library

universe u v w

variable {M : Type w} [AddCommMonoid M]

/-- An item of a list that becomes another one. -/
theorem sum_set {α : Type v} {g : α → M} {l : List α} {i : Nat} {a b : α} (h : l[i]? = some a) :
    ((l.set i b).map g).sum + g a = (l.map g).sum + g b := by
  induction l generalizing i with
  | nil => cases h
  | cons c l ih =>
    cases i with
    | zero =>
      cases h
      simp only [List.set_cons_zero, List.map_cons, List.sum_cons]
      rw [add_right_comm, add_comm (g b), add_right_comm]
    | succ i =>
      simp only [List.set_cons_succ, List.map_cons, List.sum_cons]
      rw [add_assoc, ih (by simpa using h), add_assoc]

/-- Each member of a list is in one of the buckets. -/
theorem sum_buckets {κ : Type u} {α : Type v} [DecidableEq κ] {key : α → κ} {value : α → M} {buckets : List κ} {l : List α}
    (hnodup : buckets.Nodup) (hmem : ∀ a ∈ l, key a ∈ buckets) :
    (buckets.map fun k => ((l.filter fun a => key a = k).map value).sum).sum = (l.map value).sum := by
  induction l with
  | nil => simp
  | cons a l ih =>
    have hsplit (k : κ) : (((a :: l).filter fun a => key a = k).map value).sum =
        (if k = key a then value a else 0) + ((l.filter fun a => key a = k).map value).sum := by
      by_cases hk : key a = k
      · rw [List.filter_cons_of_pos (by simpa using hk), if_pos hk.symm, List.map_cons, List.sum_cons]
      · rw [List.filter_cons_of_neg (by simpa using hk), if_neg (Ne.symm hk), zero_add]
    have hone : (buckets.map fun k => if k = key a then value a else 0).sum = value a := by
      rw [List.sum_map_eq_nsmul_single (key a) _ fun k hk _ => if_neg hk, if_pos rfl,
        List.count_eq_one_of_mem hnodup (hmem a List.mem_cons_self), one_nsmul]
    simp only [hsplit]
    rw [List.sum_map_add, hone, ih fun b hb => hmem b (List.mem_cons_of_mem _ hb), List.map_cons, List.sum_cons]

namespace Table

variable {κ : Type u} {α : Type v} [DecidableEq κ]

def total (weight : α → M) (t : Table κ α) : M := (t.entries.map fun e => weight e.2).sum

variable {g : α → M} {t : Table κ α} {k : κ} {a b : α}

omit [DecidableEq κ] in
@[simp] theorem total_empty : (∅ : Table κ α).total g = 0 := rfl

theorem total_add (h : t.get? k = none) : (t.add k a).total g = t.total g + g a := by
  unfold add
  cases hpush : t.push k a with
  | none =>
    obtain ⟨b, hb⟩ := push_eq_none.1 hpush
    cases h.symm.trans hb
  | some t' => rw [Option.getD_some, total, entries_push hpush, List.map_append, List.sum_append, List.map_singleton,
      List.sum_singleton, total]

omit [DecidableEq κ] in
theorem total_filter (p : κ → α → Bool) :
    (t.filter p).total g + (t.filter fun k a => !p k a).total g = t.total g := by
  have h (entries : List (κ × α)) :
      ((entries.filter fun e => p e.1 e.2).map fun e => g e.2).sum +
        ((entries.filter fun e => !p e.1 e.2).map fun e => g e.2).sum = (entries.map fun e => g e.2).sum := by
    induction entries with
    | nil => simp
    | cons e entries ih =>
      cases hp : p e.1 e.2
      · rw [List.filter_cons_of_neg (by simp [hp]), List.filter_cons_of_pos (by simp [hp]), List.map_cons, List.map_cons,
          List.sum_cons, List.sum_cons, add_left_comm, ih]
      · rw [List.filter_cons_of_pos (by simp [hp]), List.filter_cons_of_neg (by simp [hp]), List.map_cons, List.map_cons,
          List.sum_cons, List.sum_cons, add_assoc, ih]
  exact h t.entries

theorem remove_of_none (h : t.get? k = none) : t.remove k = t := by
  refine filter_eq_self fun k' a ha => decide_eq_true fun hk => ?_
  cases (hk ▸ ha).symm.trans h

/-- The row of a key, taken out. -/
theorem total_remove (h : t.get? k = some a) : (t.remove k).total g + g a = t.total g := by
  have hrow : (t.filter fun k' _ => !decide (k' ≠ k)).entries = [(k, a)] := by
    have hlength := length_select_key (Option.isSome_iff_exists.mpr ⟨a, h⟩)
    obtain ⟨e, he⟩ := List.length_eq_one_iff.mp hlength
    have hmem : (k, a) ∈ t.select fun k' _ => k' = k := mem_select.2 ⟨h, by simp⟩
    rw [he, List.mem_singleton] at hmem
    have hsame : (t.filter fun k' _ => !decide (k' ≠ k)).entries = t.select fun k' _ => k' = k := by
      simp [filter, select]
    rw [hsame, he, hmem]
  rw [← total_filter (t := t) fun k' _ => decide (k' ≠ k), ← remove]
  congr 1
  rw [total, hrow, List.map_singleton, List.sum_singleton]

theorem total_modify {f : α → α} (h : t.get? k = some a) :
    (t.modify k f).total g + g a = t.total g + g (f a) := by
  have hother : (t.modify k f).remove k = t.remove k := by
    have hentries : ((t.modify k f).remove k).entries = (t.remove k).entries := by
      simp only [remove, filter, select, modify, mapRows, List.filter_map]
      refine (List.map_congr_left fun e he => ?_).trans (List.map_id _)
      have hk : e.1 ≠ k := by simpa using (List.mem_filter.mp he).2
      rw [if_neg hk]
      rfl
    simp only [remove, filter] at hentries ⊢
    congr
  have hrow : (t.modify k f).get? k = some (f a) := by rw [get?_modify_self, h]; rfl
  have hold := total_remove (g := g) h
  have hnew := total_remove (g := g) hrow
  rw [← hnew, hother, add_right_comm, hold]

theorem total_set_of_none (h : t.get? k = none) : (t.set (k, b)).total g = t.total g + g b := by
  rw [set, upsert, h]
  exact total_add h

theorem total_set_of_some (h : t.get? k = some a) : (t.set (k, b)).total g + g a = t.total g + g b := by
  rw [set, upsert, h]
  exact total_modify h

end Table

end Library
