import Mathlib.Data.List.Nodup

/-!
# Tables

A table is a list of rows with distinct keys, in the order they were added.
`push` adds a row under a new key and fails on a key that is taken (`add` then
leaves the table as it is); `modify` and `mapRows` rewrite rows in place.

* `find?_key`, `get?_eq_some`: a lookup is membership;
* `get?_push`, `get?_add`, `get?_filter`, `get?_remove`, `get?_modify`, `get?_mapRows`: what each
  operation does to a lookup;
* `select_push`, `select_addAll`, `select_modify`: and to the rows a condition selects.
-/

namespace Library

universe u v

/-- The one with a key, among items of different keys. -/
theorem find?_key {α : Type u} {β : Type v} [DecidableEq β] {key : α → β} {items : List α} (hkeys : (items.map key).Nodup) {item : α}
    (hmem : item ∈ items) : (items.find? fun other => key other = key item) = some item := by
  obtain ⟨found, hfound⟩ : ∃ found, (items.find? fun other => key other = key item) = some found :=
    Option.isSome_iff_exists.mp (List.find?_isSome.mpr ⟨item, hmem, decide_eq_true rfl⟩)
  have hsame : key found = key item := by simpa using List.find?_some hfound
  rw [hfound, List.inj_on_of_nodup_map hkeys (List.mem_of_find?_eq_some hfound) hmem hsame]

structure Table (κ : Type u) (α : Type v) where
  entries : List (κ × α)
  nodup : (entries.map Prod.fst).Nodup

namespace Table

variable {κ : Type u} {α : Type v} [DecidableEq κ]

instance : EmptyCollection (Table κ α) := ⟨⟨[], List.nodup_nil⟩⟩

def get? (t : Table κ α) (k : κ) : Option α := (t.entries.find? fun e => e.1 = k).map Prod.snd

/-- The rows that satisfy a condition, with their keys. -/
def select (t : Table κ α) (p : κ → α → Bool) : List (κ × α) := t.entries.filter fun e => p e.1 e.2

def mapRows (t : Table κ α) (f : κ → α → α) : Table κ α where
  entries := t.entries.map fun e => (e.1, f e.1 e.2)
  nodup := by
    rw [List.map_map]
    exact t.nodup

def modify (t : Table κ α) (k : κ) (f : α → α) : Table κ α := t.mapRows fun k' a => if k' = k then f a else a

def push (t : Table κ α) (k : κ) (a : α) : Option (Table κ α) :=
  if h : k ∈ t.entries.map Prod.fst then none
  else some
    { entries := t.entries ++ [(k, a)]
      nodup := by
        rw [List.map_append]
        exact t.nodup.append (List.nodup_singleton k) (List.disjoint_singleton.mpr h) }

/-- Add a row unless its key is taken. -/
def add (t : Table κ α) (k : κ) (a : α) : Table κ α := (t.push k a).getD t

/-- The rows that satisfy a condition. -/
def filter (t : Table κ α) (p : κ → α → Bool) : Table κ α where
  entries := t.select p
  nodup := t.nodup.sublist (List.filter_sublist.map _)

def remove (t : Table κ α) (k : κ) : Table κ α := t.filter fun k' _ => k' ≠ k

/-- Add rows in order. -/
def addAll (t : Table κ α) (rows : List (κ × α)) : Table κ α := rows.foldl (fun t e => t.add e.1 e.2) t

variable {t t' : Table κ α} {k k' : κ} {a b : α}

theorem get?_eq_some : t.get? k = some a ↔ (k, a) ∈ t.entries := by
  rw [get?, Option.map_eq_some_iff]
  constructor
  · rintro ⟨⟨k', a⟩, hfound, rfl⟩
    have hk : k' = k := by simpa using List.find?_some hfound
    exact hk ▸ List.mem_of_find?_eq_some hfound
  · exact fun h => ⟨(k, a), find?_key t.nodup h, rfl⟩

instance {P : κ → α → Prop} [∀ k a, Decidable (P k a)] : Decidable (∀ k a, t.get? k = some a → P k a) :=
  decidable_of_iff (∀ e ∈ t.entries, P e.1 e.2)
    ⟨fun h k a ha => h (k, a) (get?_eq_some.1 ha), fun h e he => h e.1 e.2 (get?_eq_some.2 he)⟩

theorem get?_eq_none : t.get? k = none ↔ k ∉ t.entries.map Prod.fst := by
  rw [← not_iff_not, ← ne_eq, Option.ne_none_iff_exists', not_not, List.mem_map]
  exact ⟨fun ⟨a, h⟩ => ⟨_, get?_eq_some.1 h, rfl⟩, fun ⟨e, h, hk⟩ => ⟨e.2, get?_eq_some.2 (hk ▸ h)⟩⟩

@[simp] theorem get?_empty : (∅ : Table κ α).get? k = none := rfl

theorem get?_mapRows (f : κ → α → α) : (t.mapRows f).get? k = (t.get? k).map (f k) := by
  simp only [get?, mapRows, List.find?_map, Option.map_map]
  cases h : t.entries.find? fun e => e.1 = k with
  | none => simp [Function.comp_def, h]
  | some e =>
    have hk : e.1 = k := by simpa using List.find?_some h
    simp [Function.comp_def, h, hk]

theorem get?_modify (f : α → α) :
    (t.modify k f).get? k' = if k' = k then (t.get? k').map f else t.get? k' := by
  rw [modify, get?_mapRows]
  split <;> simp

@[simp] theorem get?_modify_self (f : α → α) : (t.modify k f).get? k = (t.get? k).map f := by
  rw [get?_modify, if_pos rfl]

theorem get?_modify_of_ne (f : α → α) (h : k' ≠ k) : (t.modify k f).get? k' = t.get? k' := by
  rw [get?_modify, if_neg h]

/-- A row the function leaves as it is. -/
theorem modify_eq_self {f : α → α} (h : ∀ a, t.get? k = some a → f a = a) : t.modify k f = t := by
  have hentries : (t.modify k f).entries = t.entries := by
    refine (List.map_congr_left fun e he => ?_).trans (List.map_id _)
    show (e.1, if e.1 = k then f e.2 else e.2) = e
    by_cases hk : e.1 = k
    · have hrow := h e.2 (get?_eq_some.2 (hk ▸ he))
      rw [if_pos hk, hrow]
    · rw [if_neg hk]
  obtain ⟨entries, nodup⟩ := t
  simp only [modify, mapRows] at hentries ⊢
  congr

theorem entries_push (h : t.push k a = some t') : t'.entries = t.entries ++ [(k, a)] := by
  unfold push at h
  split at h <;> cases h
  rfl

theorem push_eq_none : t.push k a = none ↔ ∃ b, t.get? k = some b := by
  rw [← Option.ne_none_iff_exists', ne_eq, get?_eq_none, not_not, push]
  split <;> simp_all

theorem get?_push (h : t.push k a = some t') : t'.get? k' = if k' = k then some a else t.get? k' := by
  have hfresh : t.get? k = none := by
    by_contra hne
    rw [push_eq_none.2 (Option.ne_none_iff_exists'.mp hne)] at h
    cases h
  simp only [get?, entries_push h, List.find?_append] at hfresh ⊢
  split
  · subst k'
    rw [Option.map_eq_none_iff.mp hfresh]
    simp
  · rename_i hk
    simp [show ¬ k = k' from fun he => hk he.symm]

theorem select_push (h : t.push k a = some t') (p : κ → α → Bool) :
    t'.select p = t.select p ++ if p k a then [(k, a)] else [] := by
  simp only [select, entries_push h, List.filter_append, List.filter_cons, List.filter_nil]

theorem get?_filter {p : κ → α → Bool} : (t.filter p).get? k = (t.get? k).filter (p k) := by
  refine Option.ext fun a => ?_
  rw [get?_eq_some, Option.filter_eq_some_iff, get?_eq_some]
  exact List.mem_filter

theorem get?_remove : (t.remove k).get? k' = if k' = k then none else t.get? k' := by
  rw [remove, get?_filter]
  split
  · rename_i hk
    simp [hk]
  · rename_i hk
    cases t.get? k' <;> simp [hk]

/-- A condition that all rows satisfy. -/
theorem filter_eq_self {p : κ → α → Bool} (h : ∀ k a, t.get? k = some a → p k a) : t.filter p = t := by
  have hentries : (t.filter p).entries = t.entries := by
    exact List.filter_eq_self.2 fun e he => h e.1 e.2 (get?_eq_some.2 he)
  obtain ⟨entries, nodup⟩ := t
  simp only [filter, select] at hentries ⊢
  congr

theorem get?_add : (t.add k a).get? k' = (t.get? k').or (if k' = k then some a else none) := by
  rw [add]
  cases h : t.push k a with
  | none =>
    obtain ⟨b, hb⟩ := push_eq_none.1 h
    split
    · subst k'; simp [hb]
    · simp
  | some t' =>
    rw [Option.getD_some, get?_push h]
    split
    · subst k'
      cases hg : t.get? k with
      | none => rfl
      | some b => rw [push_eq_none.2 ⟨b, hg⟩] at h; cases h
    · simp

theorem select_add {p : κ → α → Bool} (h : p k a = false) : (t.add k a).select p = t.select p := by
  rw [add]
  cases hp : t.push k a with
  | none => rfl
  | some t' => simp [select_push hp, h]

theorem select_addAll {p : κ → α → Bool} {rows : List (κ × α)} (h : ∀ e ∈ rows, p e.1 e.2 = false) :
    (t.addAll rows).select p = t.select p := by
  induction rows generalizing t with
  | nil => rfl
  | cons e rows ih =>
    rw [addAll, List.foldl_cons, ← addAll, ih fun e he => h e (List.mem_cons_of_mem _ he),
      select_add (h e List.mem_cons_self)]

theorem get?_addAll_cases {rows : List (κ × α)} (h : (t.addAll rows).get? k = some a) :
    t.get? k = some a ∨ (k, a) ∈ rows := by
  induction rows generalizing t with
  | nil => exact .inl h
  | cons e rows ih =>
    rw [addAll, List.foldl_cons, ← addAll] at h
    rcases ih h with h | h
    · rw [get?_add] at h
      rcases Option.or_eq_some_iff.mp h with h | ⟨-, h⟩
      · exact .inl h
      · by_cases he : k = e.1
        · subst he
          rw [if_pos rfl] at h
          cases h
          exact .inr List.mem_cons_self
        · rw [if_neg he] at h
          cases h
    · exact .inr (List.mem_cons_of_mem _ h)

theorem get?_addAll_of_some {rows : List (κ × α)} (h : t.get? k = some a) : (t.addAll rows).get? k = some a := by
  induction rows generalizing t with
  | nil => exact h
  | cons e rows ih =>
    rw [addAll, List.foldl_cons, ← addAll]
    exact ih (by rw [get?_add, h, Option.some_or])

/-- Rows under new and distinct keys are all added. -/
theorem entries_addAll {rows : List (κ × α)} (hn : (rows.map Prod.fst).Nodup) (h : ∀ e ∈ rows, t.get? e.1 = none) :
    (t.addAll rows).entries = t.entries ++ rows := by
  induction rows generalizing t with
  | nil => simp [addAll]
  | cons e rows ih =>
    rw [List.map_cons, List.nodup_cons] at hn
    have hadd : (t.add e.1 e.2).entries = t.entries ++ [e] := by
      rw [add]
      cases hp : t.push e.1 e.2 with
      | none =>
        obtain ⟨b, hb⟩ := push_eq_none.1 hp
        rw [h e List.mem_cons_self] at hb
        cases hb
      | some t' => exact entries_push hp
    rw [addAll, List.foldl_cons, ← addAll, ih hn.2, hadd, List.append_assoc, List.singleton_append]
    intro e' he'
    have hne : e'.1 ≠ e.1 := fun he => hn.1 (he ▸ List.mem_map_of_mem he')
    rw [get?_add, h e' (List.mem_cons_of_mem _ he'), if_neg hne]
    rfl

theorem get?_addAll_of_mem {rows : List (κ × α)} (hn : (rows.map Prod.fst).Nodup) (h : ∀ e ∈ rows, t.get? e.1 = none)
    (hm : (k, a) ∈ rows) : (t.addAll rows).get? k = some a := by
  rw [get?_eq_some, entries_addAll hn h]
  exact List.mem_append_right _ hm

theorem mem_select {p : κ → α → Bool} {e : κ × α} : e ∈ t.select p ↔ t.get? e.1 = some e.2 ∧ p e.1 e.2 := by
  rw [select, List.mem_filter, get?_eq_some]

omit [DecidableEq κ] in
theorem nodup_select (t : Table κ α) (p : κ → α → Bool) : ((t.select p).map Prod.fst).Nodup :=
  t.nodup.sublist (List.filter_sublist.map _)

/-- There is exactly one row under a key that is there. -/
theorem length_select_key (h : (t.get? k).isSome) : (t.select fun k' _ => k' = k).length = 1 := by
  obtain ⟨a, ha⟩ := Option.isSome_iff_exists.mp h
  have hcount := List.count_eq_one_of_mem t.nodup (List.mem_map_of_mem (get?_eq_some.1 ha))
  rw [List.count, List.countP_map, List.countP_eq_length_filter] at hcount
  exact hcount

/-- Rewriting a row that is not selected, before or after, does not show. -/
theorem select_modify {f : α → α} {p : κ → α → Bool} (h : ∀ a, t.get? k = some a → p k a = false ∧ p k (f a) = false) :
    (t.modify k f).select p = t.select p := by
  obtain ⟨entries, nodup⟩ := t
  replace h : ∀ a, (k, a) ∈ entries → p k a = false ∧ p k (f a) = false := fun a ha => h a (get?_eq_some.2 ha)
  simp only [select, modify, mapRows]
  clear nodup
  induction entries with
  | nil => rfl
  | cons e entries ih =>
    obtain ⟨k₀, a₀⟩ := e
    have ih := ih fun a ha => h a (List.mem_cons_of_mem _ ha)
    simp only [List.map_cons, List.filter_cons, ih]
    by_cases hk : k₀ = k
    · subst hk
      simp [h a₀ List.mem_cons_self]
    · simp [hk]

end Table

end Library
