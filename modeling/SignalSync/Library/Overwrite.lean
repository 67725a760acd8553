import SignalSync.Library.Upsert

/-!
# Tables written over

Rows that are written one over another, the way a dictionary is: of the rows of a key the
last one is kept (`get?_setAll`), and rows that are written once more change nothing
(`setAll_setAll`).
-/

namespace Library

universe u v

namespace Table

variable {κ : Type u} {α : Type v} [DecidableEq κ] {t t' : Table κ α} {e : κ × α} {rows : List (κ × α)} {k : κ} {a : α}

/-- The row of a key becomes this one. -/
def set (t : Table κ α) (e : κ × α) : Table κ α := t.upsert (fun _ new => new) e

def setAll (t : Table κ α) (rows : List (κ × α)) : Table κ α := rows.foldl set t

/-- The last of the rows that is for the key. -/
def lastOf (rows : List (κ × α)) (k : κ) : Option α := (rows.reverse.find? fun e => e.1 = k).map Prod.snd

@[simp] theorem lastOf_nil : lastOf ([] : List (κ × α)) k = none := rfl

theorem lastOf_cons : lastOf (e :: rows) k = (lastOf rows k).or (if k = e.1 then some e.2 else none) := by
  simp only [lastOf, List.reverse_cons, List.find?_append, Option.map_or, List.find?_singleton, eq_comm (a := k), decide_eq_true_eq]
  congr 1
  split <;> rfl

theorem lastOf_append (rows' : List (κ × α)) : lastOf (rows ++ rows') k = (lastOf rows' k).or (lastOf rows k) := by
  simp only [lastOf, List.reverse_append, List.find?_append, Option.map_or]

theorem lastOf_map {β : Type v} (f : α → β) : lastOf (rows.map (Prod.map id f)) k = (lastOf rows k).map f := by
  induction rows with
  | nil => rfl
  | cons e rows ih =>
    rw [List.map_cons, lastOf_cons, lastOf_cons, ih, Option.map_or, Prod.map_fst, Prod.map_snd, id]
    congr 1
    split_ifs <;> rfl

/-- Of a table's rows there is one for each key. -/
theorem lastOf_entries (t : Table κ α) : lastOf t.entries k = t.get? k := by
  refine Option.ext fun a => ?_
  rw [get?_eq_some, lastOf, Option.map_eq_some_iff]
  constructor
  · rintro ⟨e, he, rfl⟩
    have hk : e.1 = k := by simpa using List.find?_some he
    exact hk ▸ List.mem_reverse.1 (List.mem_of_find?_eq_some he)
  · intro h
    obtain ⟨e, he⟩ : ∃ e, (t.entries.reverse.find? fun e => e.1 = k) = some e :=
      Option.isSome_iff_exists.1 (List.find?_isSome.2 ⟨(k, a), List.mem_reverse.2 h, by simp⟩)
    have hk : e.1 = k := by simpa using List.find?_some he
    have hmem : (k, e.2) ∈ t.entries := hk ▸ List.mem_reverse.1 (List.mem_of_find?_eq_some he)
    exact ⟨e, he, Option.some_inj.1 ((get?_eq_some.2 hmem).symm.trans (get?_eq_some.2 h))⟩

theorem get?_set : (t.set e).get? k = if k = e.1 then some e.2 else t.get? k := by
  rw [set, get?_upsert]
  cases t.get? k <;> rfl

theorem setAll_cons : t.setAll (e :: rows) = (t.set e).setAll rows := rfl

theorem get?_setAll : (t.setAll rows).get? k = (lastOf rows k).or (t.get? k) := by
  induction rows generalizing t with
  | nil => simp [setAll]
  | cons e rows ih =>
    rw [setAll_cons, ih, get?_set, lastOf_cons, Option.or_assoc]
    split <;> simp

/-! ## Writing once more -/

/-- A table is its keys, in their order, and what is stored for each. -/
theorem ext_get? (hkeys : t.entries.map Prod.fst = t'.entries.map Prod.fst) (h : ∀ k, t.get? k = t'.get? k) : t = t' := by
  have hentries : ∀ t : Table κ α, t.entries = (t.entries.map Prod.fst).filterMap fun k => (t.get? k).map (Prod.mk k) := by
    intro t
    rw [List.filterMap_map]
    refine ((List.filterMap_congr fun e he => ?_).trans List.filterMap_some).symm
    rw [Function.comp_apply, get?_eq_some.2 (show (e.1, e.2) ∈ t.entries from he), Option.map_some]
  have hsame : t.entries = t'.entries := by
    rw [hentries t, hentries t', hkeys]
    simp only [h]
  obtain ⟨entries, nodup⟩ := t
  cases hsame
  rfl

theorem keys_set (h : (t.get? e.1).isSome) : (t.set e).entries.map Prod.fst = t.entries.map Prod.fst := by
  obtain ⟨a, ha⟩ := Option.isSome_iff_exists.1 h
  simp only [set, upsert, ha, modify, mapRows, List.map_map]
  rfl

theorem keys_setAll (h : ∀ e ∈ rows, (t.get? e.1).isSome) : (t.setAll rows).entries.map Prod.fst = t.entries.map Prod.fst := by
  induction rows generalizing t with
  | nil => rfl
  | cons e rows ih =>
    rw [setAll_cons, ih, keys_set (h e List.mem_cons_self)]
    intro e' he'
    rw [get?_set]
    split
    · rfl
    · exact h e' (List.mem_cons_of_mem _ he')

theorem lastOf_isSome (h : e ∈ rows) : (lastOf rows e.1).isSome := by
  rw [lastOf, Option.isSome_map, List.find?_isSome]
  exact ⟨e, List.mem_reverse.2 h, by simp⟩

/-- The same rows, written once more. -/
theorem setAll_setAll : (t.setAll rows).setAll rows = t.setAll rows := by
  refine ext_get? (keys_setAll fun e he => ?_) fun k => ?_
  · rw [get?_setAll, Option.isSome_or, lastOf_isSome he, Bool.true_or]
  · rw [get?_setAll, get?_setAll, ← Option.or_assoc, Option.or_self]

end Table

end Library
