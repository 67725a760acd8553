import SignalSync.Library.Table

/-!
# Rows written over a table

`upsert` writes a row: where its key is new the row is added, else what is stored is
merged with it. `upsertAll` writes rows in order, and `replaceWithin` makes a part of the
table, given by a condition on rows, what a batch of rows says: the rows of that part
whose keys the batch does not have go, then the batch is written.

* `get?_upsertAll_of_mem`, `get?_upsertAll_of_not_mem`: a batch with distinct keys, key by key;
* `upsertAll_eq_self`: rows that are merged into what is stored already;
* `get?_replaceWithin_of_mem`, `get?_replaceWithin_of_not_mem`, `replaceWithin_eq_self`: the
  same of a part that is replaced;
* `flatten_chunks`: a list cut into chunks.
-/

namespace Library

universe u v

namespace Table

variable {κ : Type u} {α : Type v} [DecidableEq κ]

/-- What is stored once a row is written over it. -/
def merged (merge : α → α → α) : Option α → α → α
  | some old, a => merge old a
  | none, a => a

def upsert (merge : α → α → α) (t : Table κ α) (e : κ × α) : Table κ α :=
  match t.get? e.1 with
  | some _ => t.modify e.1 fun old => merge old e.2
  | none => t.add e.1 e.2

def upsertAll (merge : α → α → α) (t : Table κ α) (rows : List (κ × α)) : Table κ α := rows.foldl (upsert merge) t

/-- The rows of a part of the table are to be those of a batch. -/
def outdated (p : α → Bool) (rows : List (κ × α)) (k : κ) (a : α) : Bool := p a && !(rows.map Prod.fst).contains k

def replaceWithin (merge : α → α → α) (p : α → Bool) (t : Table κ α) (rows : List (κ × α)) : Table κ α :=
  (t.filter fun k a => !outdated p rows k a).upsertAll merge rows

variable {merge : α → α → α} {p : α → Bool} {t : Table κ α} {e : κ × α} {rows : List (κ × α)} {k : κ} {a : α}

theorem get?_upsert : (t.upsert merge e).get? k = if k = e.1 then some (merged merge (t.get? k) e.2) else t.get? k := by
  unfold upsert
  split
  · rename_i old hold
    rw [get?_modify]
    split
    · rename_i hk
      rw [hk, hold]
      rfl
    · rfl
  · rename_i hnone
    rw [get?_add]
    split
    · rename_i hk
      rw [hk, hnone]
      rfl
    · rw [Option.or_none]

theorem upsertAll_cons : t.upsertAll merge (e :: rows) = (t.upsert merge e).upsertAll merge rows := rfl

theorem get?_upsertAll_of_not_mem (h : k ∉ rows.map Prod.fst) : (t.upsertAll merge rows).get? k = t.get? k := by
  induction rows generalizing t with
  | nil => rfl
  | cons e rows ih =>
    rw [List.map_cons, List.mem_cons, not_or] at h
    rw [upsertAll_cons, ih h.2, get?_upsert, if_neg h.1]

theorem get?_upsertAll_of_mem (hn : (rows.map Prod.fst).Nodup) (h : (k, a) ∈ rows) :
    (t.upsertAll merge rows).get? k = some (merged merge (t.get? k) a) := by
  induction rows generalizing t with
  | nil => cases h
  | cons e rows ih =>
    rw [List.map_cons, List.nodup_cons] at hn
    rw [upsertAll_cons]
    rcases List.mem_cons.mp h with rfl | h
    · rw [get?_upsertAll_of_not_mem hn.1, get?_upsert, if_pos rfl]
    · have hne : k ≠ e.1 := fun hk => hn.1 (hk ▸ List.mem_map_of_mem h)
      rw [ih hn.2 h, get?_upsert, if_neg hne]

/-- Rows that what is stored already has in it. -/
theorem upsertAll_eq_self (h : ∀ e ∈ rows, ∃ old, t.get? e.1 = some old ∧ merge old e.2 = old) : t.upsertAll merge rows = t := by
  induction rows with
  | nil => rfl
  | cons e rows ih =>
    obtain ⟨old, hold, hmerge⟩ := h e List.mem_cons_self
    have hsame : t.upsert merge e = t := by
      rw [upsert, hold]
      exact modify_eq_self fun stored hstored => by
        cases hold.symm.trans hstored
        exact hmerge
    rw [upsertAll_cons, hsame]
    exact ih fun e he => h e (List.mem_cons_of_mem _ he)

theorem get?_replaceWithin_of_not_mem (h : k ∉ rows.map Prod.fst) :
    (t.replaceWithin merge p rows).get? k = (t.get? k).filter fun a => !p a := by
  rw [replaceWithin, get?_upsertAll_of_not_mem h, get?_filter]
  simp [outdated, h]

theorem get?_replaceWithin_of_mem (hn : (rows.map Prod.fst).Nodup) (h : (k, a) ∈ rows) :
    (t.replaceWithin merge p rows).get? k = some (merged merge (t.get? k) a) := by
  have hk : k ∈ rows.map Prod.fst := List.mem_map_of_mem h
  have hkeep : (t.get? k).filter (fun a => !outdated p rows k a) = t.get? k := by
    cases t.get? k with
    | none => rfl
    | some a => simp [outdated, hk]
  rw [replaceWithin, get?_upsertAll_of_mem hn h, get?_filter, hkeep]

/-- Nothing is outdated. -/
theorem filter_outdated_eq_self (h : ∀ k a, t.get? k = some a → p a → k ∈ rows.map Prod.fst) :
    (t.filter fun k a => !outdated p rows k a) = t :=
  filter_eq_self fun k a ha => by
    cases hp : p a with
    | false => simp [outdated, hp]
    | true => simp [outdated, hp, h k a ha hp]

theorem replaceWithin_eq_self (hp : ∀ k a, t.get? k = some a → p a → k ∈ rows.map Prod.fst)
    (h : ∀ e ∈ rows, ∃ old, t.get? e.1 = some old ∧ merge old e.2 = old) : t.replaceWithin merge p rows = t := by
  rw [replaceWithin, filter_outdated_eq_self hp, upsertAll_eq_self h]

end Table

/-! ## Chunks -/

variable {α : Type u}

/-- Consecutive parts of `n` elements each, the last one shorter. -/
def chunks (n : Nat) (l : List α) : List (List α) :=
  (List.range ((l.length + (n - 1)) / n)).map fun i => (l.drop (n * i)).take n

theorem flatten_chunks {n : Nat} (hn : 0 < n) (l : List α) : (chunks n l).flatten = l := by
  have htake (m : Nat) : ((List.range m).map fun i => (l.drop (n * i)).take n).flatten = l.take (n * m) := by
    induction m with
    | zero => simp
    | succ m ih => rw [List.range_succ, List.map_append, List.flatten_append, ih, Nat.mul_succ, List.take_add]; simp
  rw [chunks, htake, List.take_of_length_le]
  have hdiv := Nat.div_add_mod (l.length + (n - 1)) n
  have hmod := Nat.mod_lt (l.length + (n - 1)) hn
  omega

theorem sublist_of_mem_chunks {n : Nat} {l chunk : List α} (h : chunk ∈ chunks n l) : chunk.Sublist l := by
  obtain ⟨i, -, rfl⟩ := List.mem_map.mp h
  exact (List.take_sublist _ _).trans (List.drop_sublist _ _)

end Library
