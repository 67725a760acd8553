import Mathlib.Data.List.Perm.Basic
import Mathlib.Order.Lattice

/-!
# Pages of a listing

Rows are listed by a key, largest first, a page at a time. The cursor of a page is the key
of its last row, and the next page lists the rows whose keys are below it. Rows of one key
come in any order.

* `sorted_follow`, `follow_isSome`: the pages come to an end, in order;
* `follow_perm_iff`: they have all the rows iff no rows of one key lie on both sides of a
  page's end (`Apart`).
-/

namespace Library

universe u v

/-- How rows are ordered: by their keys, largest first. -/
structure Listing {α : Type u} {τ : Type v} [LinearOrder τ] (key : α → τ) where
  order : List α → List α
  perm : ∀ rows, (order rows).Perm rows
  sorted : ∀ rows, (order rows).Pairwise fun a b => key b ≤ key a

namespace Listing

variable {α : Type u} {τ : Type v} [LinearOrder τ] {key : α → τ} (L : Listing key)

/-- The rows below a cursor. -/
def query (rows : List α) (before : Option τ) : List α := L.order (rows.filter fun a => before.all (key a < ·))

def visible (rows : List α) (limit : Nat) (before : Option τ) : List α := (L.query rows before).take limit

def nextCursor (rows : List α) (limit : Nat) (before : Option τ) : Option τ :=
  if limit < (L.query rows before).length then (L.visible rows limit before).getLast?.map key else none

/-- The pages one after the other, from a cursor on; `none` where there are more than
`fuel`. -/
def follow (rows : List α) (limit : Nat) : Nat → Option τ → Option (List α)
  | 0, _ => none
  | fuel + 1, before =>
    match L.nextCursor rows limit before with
    | none => some (L.visible rows limit before)
    | some cursor => (follow rows limit fuel (some cursor)).map (L.visible rows limit before ++ ·)

/-- No rows of one key lie on both sides of a page's end: for each end, as many rows come
before a key's, or all rows of that key and those before it come first. -/
def Apart (key : α → τ) (rows : List α) (limit : Nat) : Prop :=
  ∀ (k : τ) (n : Nat), n * limit ≤ rows.countP (k < key ·) ∨ rows.countP (k ≤ key ·) ≤ n * limit

variable {L} {rows : List α} {limit fuel : Nat} {before : Option τ} {k cursor : τ} {items : List α}

/-- The rows of a page and what is below its cursor. -/
theorem nextCursor_cases (rows : List α) (hlimit : 0 < limit) :
    (L.nextCursor rows limit none = none ∧ (L.visible rows limit none).Perm rows ∧ rows.length ≤ limit) ∨
    ∃ cursor, L.nextCursor rows limit none = some cursor ∧ (∀ a ∈ L.visible rows limit none, cursor ≤ key a) ∧
      (L.visible rows limit none).length = limit ∧ rows.countP (cursor < key ·) < limit ∧ limit ≤ rows.countP (cursor ≤ key ·) := by
  have hquery : L.query rows none = L.order rows := by simp [query]
  have hperm := L.perm rows
  have hsorted := L.sorted rows
  unfold nextCursor visible
  rw [hquery]
  by_cases hmore : limit < (L.order rows).length
  · rw [if_pos hmore]
    have hlen : ((L.order rows).take limit).length = limit := List.length_take_of_le (Nat.le_of_lt hmore)
    obtain ⟨init, last, hlast⟩ : ∃ init last, (L.order rows).take limit = init ++ [last] := by
      rcases List.eq_nil_or_concat ((L.order rows).take limit) with h | ⟨init, last, h⟩
      · rw [h] at hlen
        exact absurd hlen (Nat.ne_of_lt hlimit)
      · exact ⟨init, last, by rw [h, List.concat_eq_append]⟩
    have hwhole := List.take_append_drop limit (L.order rows)
    rw [hlast] at hlen ⊢
    rw [hlast] at hwhole
    rw [← hwhole, List.append_assoc, List.pairwise_append] at hsorted
    obtain ⟨-, hrest, hinit⟩ := hsorted
    have hge : ∀ a ∈ init ++ [last], key last ≤ key a := by
      intro a ha
      rcases List.mem_append.mp ha with ha | ha
      · exact hinit a ha last (by simp)
      · rw [List.mem_singleton.mp ha]
    have hle : ∀ a ∈ (L.order rows).drop limit, key a ≤ key last := by
      intro a ha
      rw [List.singleton_append, List.pairwise_cons] at hrest
      exact hrest.1 a ha
    have hcount (p : α → Bool) : rows.countP p = (init ++ [last]).countP p + ((L.order rows).drop limit).countP p := by
      rw [← hperm.countP_eq, ← List.countP_append, hwhole]
    refine .inr ⟨key last, by simp, hge, hlen, ?_, ?_⟩
    · have hnone : ((L.order rows).drop limit).countP (key last < key ·) = 0 :=
        List.countP_eq_zero.mpr fun a ha => by simpa using hle a ha
      have hinit := List.countP_le_length (p := fun a => decide (key last < key a)) (l := init)
      rw [List.length_append, List.length_singleton] at hlen
      rw [hcount, hnone, List.countP_append, List.countP_singleton]
      simp
      omega
    · rw [hcount, List.countP_eq_length.mpr fun a ha => by simpa using hge a ha, hlen]
      exact Nat.le_add_right _ _
  · rw [if_neg hmore, List.take_of_length_le (Nat.not_lt.mp hmore)]
    exact .inl ⟨rfl, hperm, hperm.length_eq ▸ Nat.not_lt.mp hmore⟩

theorem lt_of_nextCursor {next : τ} (h : L.nextCursor rows limit (some cursor) = some next) : next < cursor := by
  unfold nextCursor at h
  split at h
  · obtain ⟨last, hlast, rfl⟩ := Option.map_eq_some_iff.mp h
    have hmem := (L.perm _).subset ((List.take_subset _ _) (List.mem_of_getLast? hlast))
    simpa using (List.mem_filter.mp hmem).2
  · cases h

/-- Below a cursor, the pages are those of the rows below it. -/
theorem follow_filter (hk : cursor ≤ k) :
    L.follow (rows.filter (key · < k)) limit fuel (some cursor) = L.follow rows limit fuel (some cursor) := by
  induction fuel generalizing cursor with
  | zero => rfl
  | succ fuel ih =>
    have hquery : L.query (rows.filter (key · < k)) (some cursor) = L.query rows (some cursor) := by
      unfold query
      rw [List.filter_filter]
      congr 1
      refine List.filter_congr fun a _ => ?_
      by_cases ha : key a < cursor
      · simp [ha, ha.trans_le hk]
      · simp [ha]
    have hvisible : L.visible (rows.filter (key · < k)) limit (some cursor) = L.visible rows limit (some cursor) := by
      rw [visible, visible, hquery]
    have hnext : L.nextCursor (rows.filter (key · < k)) limit (some cursor) = L.nextCursor rows limit (some cursor) := by
      rw [nextCursor, nextCursor, hquery, hvisible]
    rw [follow, follow, hnext, hvisible]
    cases hcursor : L.nextCursor rows limit (some cursor) with
    | none => rfl
    | some next =>
      simp only
      rw [ih ((lt_of_nextCursor hcursor).le.trans hk)]

/-- The next pages are those of the rows below the cursor. -/
theorem follow_some (rows : List α) (limit fuel : Nat) (cursor : τ) :
    L.follow rows limit fuel (some cursor) = L.follow (rows.filter (key · < cursor)) limit fuel none := by
  cases fuel with
  | zero => rfl
  | succ fuel =>
    have hquery : L.query (rows.filter (key · < cursor)) none = L.query rows (some cursor) := by simp [query]
    have hvisible : L.visible (rows.filter (key · < cursor)) limit none = L.visible rows limit (some cursor) := by
      rw [visible, visible, hquery]
    have hnext : L.nextCursor (rows.filter (key · < cursor)) limit none = L.nextCursor rows limit (some cursor) := by
      rw [nextCursor, nextCursor, hquery, hvisible]
    rw [follow, follow, hnext, hvisible]
    cases hcursor : L.nextCursor rows limit (some cursor) with
    | none => rfl
    | some next =>
      simp only
      rw [follow_filter (lt_of_nextCursor hcursor).le]

variable (key) in
theorem length_below (rows : List α) (cursor : τ) :
    (rows.filter (key · < cursor)).length + rows.countP (cursor ≤ key ·) = rows.length := by
  rw [← List.countP_eq_length_filter, List.length_eq_countP_add_countP (fun a => decide (key a < cursor))]
  congr 1
  exact List.countP_congr fun a _ => by simp

theorem follow_isSome (hlimit : 0 < limit) (hfuel : rows.length < fuel) : ∃ items, L.follow rows limit fuel none = some items := by
  induction fuel generalizing rows with
  | zero => cases hfuel
  | succ fuel ih =>
    rw [follow]
    rcases nextCursor_cases (L := L) rows hlimit with ⟨hnext, -⟩ | ⟨cursor, hnext, -, -, -, hcount⟩ <;> rw [hnext]
    · exact ⟨_, rfl⟩
    · have hlength := length_below key rows cursor
      obtain ⟨items, hitems⟩ : ∃ items, L.follow (rows.filter (key · < cursor)) limit fuel none = some items := ih (by omega)
      simp only [follow_some, hitems]
      exact ⟨_, rfl⟩

/-- What the pages have, and that it is in order. -/
theorem sorted_follow (hlimit : 0 < limit) (h : L.follow rows limit fuel none = some items) :
    items.Pairwise (fun a b => key b ≤ key a) ∧ (∀ a ∈ items, a ∈ rows) ∧ items.length ≤ rows.length := by
  induction fuel generalizing rows items with
  | zero => cases h
  | succ fuel ih =>
    have hsorted : (L.visible rows limit none).Pairwise fun a b => key b ≤ key a := (L.sorted _).sublist (List.take_sublist _ _)
    have hmem : ∀ a ∈ L.visible rows limit none, a ∈ rows := fun a ha =>
      (List.mem_filter.mp ((L.perm _).subset (List.take_subset _ _ ha))).1
    rw [follow] at h
    rcases nextCursor_cases (L := L) rows hlimit with ⟨hnext, hperm, -⟩ | ⟨cursor, hnext, hge, hlength, -, hcount⟩ <;> rw [hnext] at h
    · cases h
      exact ⟨hsorted, hmem, Nat.le_of_eq hperm.length_eq⟩
    · obtain ⟨rest, hrest, rfl⟩ := Option.map_eq_some_iff.mp h
      rw [follow_some] at hrest
      obtain ⟨hpairs, hrows, hlen⟩ := ih hrest
      have hbelow := length_below key rows cursor
      refine ⟨List.pairwise_append.mpr ⟨hsorted, hpairs, fun a ha b hb => ?_⟩, fun a ha => ?_, ?_⟩
      · have hb := (List.mem_filter.mp (hrows b hb)).2
        exact (le_of_lt (by simpa using hb)).trans (hge a ha)
      · exact (List.mem_append.mp ha).elim (hmem a) fun ha => (List.mem_filter.mp (hrows a ha)).1
      · rw [List.length_append, hlength]
        omega

variable (key) in
theorem countP_below (rows : List α) (cursor : τ) (p : α → Bool) : rows.countP p =
    (rows.filter (key · < cursor)).countP p + (rows.filter (cursor ≤ key ·)).countP p := by
  rw [List.countP_eq_countP_filter_add rows p fun a => decide (key a < cursor)]
  congr 2
  exact List.filter_congr fun a _ => by rw [Bool.eq_iff_iff]; simp

/-- Where a page ends between two keys, its rows and the others are apart iff the others are. -/
theorem apart_below (hcount : rows.countP (cursor ≤ key ·) = limit) :
    Apart key (rows.filter (key · < cursor)) limit ↔ Apart key rows limit := by
  have habove (k : τ) (hk : k < cursor) : rows.countP (k < key ·) = (rows.filter (key · < cursor)).countP (k < key ·) + limit ∧
      rows.countP (k ≤ key ·) = (rows.filter (key · < cursor)).countP (k ≤ key ·) + limit := by
    rw [List.countP_eq_length_filter] at hcount
    rw [countP_below key rows cursor (k < key ·), countP_below key rows cursor (k ≤ key ·), ← hcount]
    refine ⟨congrArg _ (List.countP_eq_length.mpr fun a ha => ?_), congrArg _ (List.countP_eq_length.mpr fun a ha => ?_)⟩
    · simpa using hk.trans_le (by simpa using (List.mem_filter.mp ha).2)
    · simpa using hk.le.trans (by simpa using (List.mem_filter.mp ha).2)
  have hbelow (k : τ) (hk : cursor ≤ k) : rows.countP (k ≤ key ·) ≤ limit ∧ (rows.filter (key · < cursor)).countP (k ≤ key ·) = 0 := by
    refine ⟨hcount ▸ List.countP_mono_left fun a _ ha => ?_, List.countP_eq_zero.mpr fun a ha => ?_⟩
    · simpa using hk.trans (by simpa using ha)
    · simpa using (show key a < cursor by simpa using (List.mem_filter.mp ha).2).trans_le hk
  constructor
  · intro h k n
    cases n with
    | zero => exact .inl (by simp)
    | succ n =>
      rw [Nat.succ_mul]
      by_cases hk : k < cursor
      · rw [(habove k hk).1, (habove k hk).2]
        exact (h k n).imp (fun h => by omega) fun h => by omega
      · have hle := (hbelow k (not_lt.mp hk)).1
        exact .inr (by omega)
  · intro h k n
    by_cases hk : k < cursor
    · have happ := h k (n + 1)
      rw [(habove k hk).1, (habove k hk).2, Nat.succ_mul] at happ
      exact happ.imp (fun h => by omega) fun h => by omega
    · exact .inr (by rw [(hbelow k (not_lt.mp hk)).2]; exact Nat.zero_le _)

/-- The pages have every row once iff no page ends between rows of one key. -/
theorem follow_perm_iff (hlimit : 0 < limit) (h : L.follow rows limit fuel none = some items) : items.Perm rows ↔ Apart key rows limit := by
  induction fuel generalizing rows items with
  | zero => cases h
  | succ fuel ih =>
    rw [follow] at h
    rcases nextCursor_cases (L := L) rows hlimit with ⟨hnext, hperm, hlength⟩ | ⟨cursor, hnext, hge, hlength, hlt, hle⟩ <;> rw [hnext] at h
    · cases h
      refine iff_of_true hperm fun k n => ?_
      cases n with
      | zero => exact .inl (by simp)
      | succ n =>
        have hcount := List.countP_le_length (p := fun a => decide (k ≤ key a)) (l := rows)
        rw [Nat.succ_mul]
        exact .inr (by omega)
    · obtain ⟨rest, hrest, rfl⟩ := Option.map_eq_some_iff.mp h
      rw [follow_some] at hrest
      have hbelow := length_below key rows cursor
      by_cases hcount : rows.countP (cursor ≤ key ·) = limit
      · have hvisible : (L.visible rows limit none).Perm (rows.filter (cursor ≤ key ·)) := by
          have hquery : (L.query rows none).Perm rows := by
            rw [query]
            simpa using L.perm rows
          have hsub : (L.visible rows limit none).Sublist ((L.query rows none).filter (cursor ≤ key ·)) := by
            rw [← List.filter_eq_self.mpr fun a ha => decide_eq_true (hge a ha)]
            exact (List.take_sublist _ _).filter _
          have hsame : (L.visible rows limit none).length = ((L.query rows none).filter (cursor ≤ key ·)).length := by
            rw [hlength, ← List.countP_eq_length_filter, hquery.countP_eq, hcount]
          rw [hsub.eq_of_length hsame]
          exact hquery.filter _
        have hparts : (rows.filter (cursor ≤ key ·) ++ rows.filter (key · < cursor)).Perm rows := by
          have hnot : (rows.filter fun a => !decide (cursor ≤ key a)) = rows.filter (key · < cursor) :=
            List.filter_congr fun a _ => by rw [Bool.eq_iff_iff]; simp
          rw [← hnot]
          exact List.filter_append_perm _ rows
        rw [← apart_below hcount, ← ih hrest]
        constructor
        · intro hitems
          exact (List.perm_append_left_iff _).mp (((hvisible.symm.append_right rest).trans hitems).trans hparts.symm)
        · intro hrows
          exact ((hvisible.append_right rest).trans ((List.perm_append_left_iff _).mpr hrows)).trans hparts
      · -- rows of the cursor's key are left behind the page
        have hrestlen := (sorted_follow hlimit hrest).2.2
        refine iff_of_false (fun hperm => ?_) fun happ => ?_
        · have hall := hperm.length_eq
          rw [List.length_append, hlength] at hall
          omega
        · have hend := happ cursor 1
          omega

end Listing

end Library
