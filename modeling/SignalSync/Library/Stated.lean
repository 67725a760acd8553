import Mathlib.Data.List.Dedup
import Mathlib.Data.List.Induction
import Mathlib.Data.List.Perm.Basic

/-!
# Values stated in any order

Two ways in which a list of sources is read into one value. `overlay` keeps the last value
that is stated; `gather` keeps every item, each once.

* `overlay_of_none`, `overlay_of_mem`: where the sources do not contradict each other, it is what
  any of them states;
* `perm_gather`: the items are the same in any order.
-/

namespace Library

universe u v

variable {α : Type u} {β : Type v} {l l' : List α} {a : α}

/-! ## One value -/

/-- The last value stated, over what there was. -/
def overlay (stated : α → Option β) (start : Option β) (l : List α) : Option β := l.foldl (fun value a => (stated a).or value) start

/-- What two sources state is the same, if both state something. -/
def Agree (x y : Option β) : Prop := ∀ b ∈ x, ∀ c ∈ y, b = c

instance [DecidableEq β] (x y : Option β) : Decidable (Agree x y) := inferInstanceAs (Decidable (∀ b ∈ x, ∀ c ∈ y, b = c))

variable {stated : α → Option β} {start : Option β} {b : β}

theorem overlay_concat (stated : α → Option β) (start : Option β) (l : List α) (a : α) :
    overlay stated start (l ++ [a]) = (stated a).or (overlay stated start l) := by
  rw [overlay, List.foldl_append]
  rfl

theorem overlay_of_none (h : ∀ a ∈ l, stated a = none) : overlay stated start l = start := by
  induction l using List.reverseRecOn with
  | nil => rfl
  | append_singleton l a ih =>
    rw [overlay_concat, h a (List.mem_append_right _ List.mem_cons_self), Option.none_or]
    exact ih fun a ha => h a (List.mem_append_left _ ha)

/-- What one of the sources states, none of the others contradicts. -/
theorem overlay_of_mem (h : ∀ a ∈ l, ∀ a' ∈ l, Agree (stated a) (stated a')) (ha : a ∈ l) (hb : stated a = some b) :
    overlay stated start l = some b := by
  induction l using List.reverseRecOn with
  | nil => cases ha
  | append_singleton l last ih =>
    rw [overlay_concat]
    have hlast : last ∈ l ++ [last] := List.mem_append_right _ List.mem_cons_self
    cases hstated : stated last with
    | some c => exact congrArg some (h last hlast a ha c hstated b hb)
    | none =>
      rcases List.mem_append.mp ha with hbefore | hself
      · exact ih (fun a ha a' ha' => h a (List.mem_append_left _ ha) a' (List.mem_append_left _ ha')) hbefore
      · rw [List.mem_singleton.mp hself, hstated] at hb
        cases hb

/-! ## All items -/

variable [DecidableEq β] {items : α → List β} {found : List β}

/-- Every item that is stated, each once, from the first source on that states any. -/
def gather (items : α → List β) (start : List β) (l : List α) : List β :=
  l.foldl (fun found a => if (items a).isEmpty then found else (found ++ items a).eraseDups) start

theorem nodup_eraseDups (l : List β) : l.eraseDups.Nodup := by
  induction l using List.reverseRecOn with
  | nil => exact List.nodup_nil
  | append_singleton l b ih =>
    rw [List.eraseDups_append]
    by_cases hb : b ∈ l
    · have hnone : [b].removeAll l = [] := by simp [List.removeAll, hb]
      rw [hnone, List.eraseDups_nil, List.append_nil]
      exact ih
    · have hone : [b].removeAll l = [b] := by simp [List.removeAll, hb]
      rw [hone]
      refine List.Nodup.append ih (List.nodup_singleton b) (List.disjoint_singleton.mpr ?_)
      rwa [List.mem_eraseDups]

theorem gather_concat (items : α → List β) (found : List β) (l : List α) (a : α) :
    gather items found (l ++ [a]) =
      if (items a).isEmpty then gather items found l else (gather items found l ++ items a).eraseDups := by
  rw [gather, List.foldl_append]
  rfl

/-- Nothing is ever lost. -/
theorem mem_gather : b ∈ gather items found l ↔ b ∈ found ∨ ∃ a ∈ l, b ∈ items a := by
  induction l using List.reverseRecOn with
  | nil => simp [gather]
  | append_singleton l a ih =>
    rw [gather_concat]
    split
    · rename_i hempty
      rw [ih]
      simp [List.isEmpty_iff.mp hempty, or_and_right, exists_or]
    · rw [List.mem_eraseDups, List.mem_append, ih]
      simp [or_and_right, exists_or, or_assoc]

theorem gather_of_nil (h : ∀ a ∈ l, items a = []) : gather items found l = found := by
  induction l using List.reverseRecOn with
  | nil => rfl
  | append_singleton l a ih =>
    rw [gather_concat, h a (List.mem_append_right _ List.mem_cons_self), List.isEmpty_nil, if_pos rfl]
    exact ih fun a ha => h a (List.mem_append_left _ ha)

/-- Once an item is stated, none is there twice. -/
theorem nodup_gather (h : ¬ ∀ a ∈ l, items a = []) : (gather items found l).Nodup := by
  induction l using List.reverseRecOn with
  | nil => exact absurd (fun a ha => nomatch ha) h
  | append_singleton l a ih =>
    rw [gather_concat]
    split
    · rename_i hempty
      refine ih fun hnone => h fun a' ha' => ?_
      rcases List.mem_append.mp ha' with hbefore | hself
      · exact hnone a' hbefore
      · rw [List.mem_singleton.mp hself]
        exact List.isEmpty_iff.mp hempty
    · exact nodup_eraseDups _

theorem perm_gather (hl : ∀ a, a ∈ l ↔ a ∈ l') : (gather items found l).Perm (gather items found l') := by
  by_cases hnone : ∀ a ∈ l, items a = []
  · rw [gather_of_nil hnone, gather_of_nil fun a ha => hnone a ((hl a).2 ha)]
  · have hnone' : ¬ ∀ a ∈ l', items a = [] := fun h => hnone fun a ha => h a ((hl a).1 ha)
    refine (List.perm_ext_iff_of_nodup (nodup_gather hnone) (nodup_gather hnone')).mpr fun b => ?_
    rw [mem_gather, mem_gather]
    simp only [hl]

end Library
