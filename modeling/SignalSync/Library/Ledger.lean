import Mathlib.Data.Finset.Card
import Mathlib.Data.List.Perm.Basic
import Mathlib.Data.List.Dedup
import Mathlib.Data.List.Nodup

/-!
# Ledgers with a limit

A ledger is a list of entries with distinct keys. An entry is added unless its key is
there, or as many entries count as the limit allows; a revision changes entries in
place. Revisions commute with one another, never make an entry count that did not, and
never undo what they change (`progress`).

* `replay_of_full`: where nothing can be added, a history comes to its revisions;
* `replay_of_room`: where there is room for everything, to its revisions of what was
  there before and all that it adds;
* `orderFree_iff`: the orders of a history agree iff nothing is added in any, or there is
  room for everything and no revision changes what is added.
-/

namespace Library

variable {ε ρ κ γ : Type*}

inductive LedgerEvent (ε ρ : Type*)
  | add (entry : ε)
  | revise (revision : ρ)

/-- The entries of a ledger, and what is seen of them. -/
structure Ledger (ε ρ κ γ : Type*) where
  key : ε → κ
  counts : ε → Bool
  limit : ℕ
  revise : ρ → ε → ε
  view : ε → γ
  progress : γ → ℕ
  key_revise (r : ρ) (x : ε) : key (revise r x) = key x
  revise_comm (r r' : ρ) (x : ε) : revise r (revise r' x) = revise r' (revise r x)
  counts_of_revise {r : ρ} {x : ε} : counts (revise r x) → counts x
  progress_revise {r : ρ} {x : ε} : revise r x = x ∨ progress (view x) < progress (view (revise r x))

namespace LedgerEvent

def entry? : LedgerEvent ε ρ → Option ε
  | add x => some x
  | revise _ => none

def revision? : LedgerEvent ε ρ → Option ρ
  | add _ => none
  | revise r => some r

end LedgerEvent

/-- What a history adds, and its revisions. -/
def added (l : List (LedgerEvent ε ρ)) : List ε := l.filterMap LedgerEvent.entry?

def revisions (l : List (LedgerEvent ε ρ)) : List ρ := l.filterMap LedgerEvent.revision?

/-- Additions first, then revisions. -/
def addFirst (xs : List ε) (rs : List ρ) : List (LedgerEvent ε ρ) := xs.map .add ++ rs.map .revise

namespace Ledger

variable (L : Ledger ε ρ κ γ)

def reviseAll (revisions : List ρ) (x : ε) : ε := revisions.foldl (fun x r => L.revise r x) x

section

variable [DecidableEq κ]

def has (s : List ε) (k : κ) : Bool := s.any fun x => L.key x = k

def step (s : List ε) : LedgerEvent ε ρ → List ε
  | .add x => if L.has s (L.key x) || L.limit ≤ s.countP L.counts then s else s ++ [x]
  | .revise r => s.map (L.revise r)

def replay (s : List ε) (l : List (LedgerEvent ε ρ)) : List ε := l.foldl L.step s

def look (s : List ε) (k : κ) : Option γ := (s.find? fun x => L.key x = k).map L.view

/-- What is seen of each key is the same after all orders of a history. -/
def OrderFree (s : List ε) (l : List (LedgerEvent ε ρ)) : Prop :=
  ∀ l₁ l₂ : List (LedgerEvent ε ρ), l₁.Perm l → l₂.Perm l → ∀ k, L.look (L.replay s l₁) k = L.look (L.replay s l₂) k

/-- The keys that a history could add. -/
def fresh (s : List ε) (l : List (LedgerEvent ε ρ)) : List κ := (((added l).map L.key).filter fun k => !L.has s k).dedup

end

variable {L} {s : List ε} {l l' : List (LedgerEvent ε ρ)} {k : κ} {x : ε} {r : ρ}

/-! ## Revisions -/

theorem key_reviseAll (rs : List ρ) (x : ε) : L.key (L.reviseAll rs x) = L.key x := by
  unfold reviseAll
  induction rs generalizing x with
  | nil => rfl
  | cons r rs ih => exact (ih _).trans (L.key_revise r x)

theorem counts_of_reviseAll {rs : List ρ} (h : L.counts (L.reviseAll rs x)) : L.counts x := by
  unfold reviseAll at h
  induction rs generalizing x with
  | nil => exact h
  | cons r rs ih => exact L.counts_of_revise (ih h)

theorem reviseAll_perm {rs rs' : List ρ} (h : rs.Perm rs') (x : ε) : L.reviseAll rs x = L.reviseAll rs' x :=
  h.foldl_eq' (fun r _ r' _ x => L.revise_comm r' r x) x

theorem map_reviseAll_perm {rs rs' : List ρ} (h : rs.Perm rs') (s : List ε) : s.map (L.reviseAll rs) = s.map (L.reviseAll rs') :=
  List.map_congr_left fun x _ => reviseAll_perm h x

theorem progress_reviseAll (rs : List ρ) (x : ε) : L.progress (L.view x) ≤ L.progress (L.view (L.reviseAll rs x)) := by
  unfold reviseAll
  induction rs generalizing x with
  | nil => exact le_rfl
  | cons r rs ih =>
    refine le_trans ?_ (ih _)
    show L.progress (L.view x) ≤ L.progress (L.view (L.revise r x))
    rcases L.progress_revise (r := r) (x := x) with h | h
    · rw [h]
    · exact h.le

/-- What one of them changes, all of them change. -/
theorem reviseAll_ne {rs : List ρ} (hr : r ∈ rs) (h : L.revise r x ≠ x) : L.view (L.reviseAll rs x) ≠ L.view x := by
  intro he
  obtain ⟨before, after, rfl⟩ := List.append_of_mem hr
  have hfirst : L.reviseAll (before ++ r :: after) x = L.reviseAll (before ++ after) (L.revise r x) :=
    reviseAll_perm List.perm_middle x
  have hle := progress_reviseAll (L := L) (before ++ after) (L.revise r x)
  rw [← hfirst, he] at hle
  exact absurd (L.progress_revise.resolve_left h) (by omega)

theorem map_reviseAll_nil (s : List ε) : s.map (L.reviseAll []) = s := List.map_id s

theorem countP_reviseAll_le (rs : List ρ) (s : List ε) : (s.map (L.reviseAll rs)).countP L.counts ≤ s.countP L.counts := by
  rw [List.countP_map]
  exact List.countP_mono_left fun x _ h => counts_of_reviseAll h

/-! ## Keys -/

variable [DecidableEq κ]

theorem has_iff : L.has s k ↔ ∃ x ∈ s, L.key x = k := by simp [has]

theorem has_append (s t : List ε) : L.has (s ++ t) k = (L.has s k || L.has t k) := List.any_append

theorem has_map {f : ε → ε} (h : ∀ x, L.key (f x) = L.key x) : L.has (s.map f) k = L.has s k := by
  simp [has, List.any_map, Function.comp_def, h]

theorem isSome_find (s : List ε) (k : κ) : (s.find? fun x => L.key x = k).isSome = L.has s k := by
  rw [Bool.eq_iff_iff, List.find?_isSome, has_iff]
  simp

theorem look_isSome : (L.look s k).isSome = L.has s k := by rw [look, Option.isSome_map, isSome_find]

theorem look_append_of_has {t : List ε} (h : L.has s k) : L.look (s ++ t) k = L.look s k := by
  obtain ⟨x, hx⟩ := Option.isSome_iff_exists.mp ((isSome_find s k).trans h)
  simp [look, List.find?_append, hx]

theorem look_append_of_not_has {t : List ε} (h : L.has s k = false) : L.look (s ++ t) k = L.look t k := by
  have hs : (s.find? fun x => L.key x = k) = none := Option.not_isSome_iff_eq_none.mp (by rw [isSome_find, h]; simp)
  simp [look, List.find?_append, hs]

/-! ## Histories -/

theorem replay_append (s : List ε) (l l' : List (LedgerEvent ε ρ)) : L.replay s (l ++ l') = L.replay (L.replay s l) l' :=
  List.foldl_append

@[simp] theorem added_map_add (xs : List ε) : added (xs.map (LedgerEvent.add (ρ := ρ))) = xs := by
  simp [added, List.filterMap_map, Function.comp_def, LedgerEvent.entry?]

@[simp] theorem revisions_map_add (xs : List ε) : revisions (xs.map (LedgerEvent.add (ρ := ρ))) = [] := by
  simp [revisions, Function.comp_def, LedgerEvent.revision?]

@[simp] theorem added_map_revise (rs : List ρ) : added (rs.map (LedgerEvent.revise (ε := ε))) = [] := by
  simp [added, Function.comp_def, LedgerEvent.entry?]

@[simp] theorem revisions_map_revise (rs : List ρ) : revisions (rs.map (LedgerEvent.revise (ε := ε))) = rs := by
  simp [revisions, List.filterMap_map, Function.comp_def, LedgerEvent.revision?]

theorem perm_addFirst {xs : List ε} (h : xs.Perm (added l)) : (addFirst xs (revisions l)).Perm l := by
  have hsplit : ∀ l : List (LedgerEvent ε ρ), (addFirst (added l) (revisions l)).Perm l := by
    intro l
    induction l with
    | nil => exact List.Perm.refl _
    | cons e l ih =>
      cases e with
      | add x => exact ih.cons (.add x)
      | revise r => exact List.perm_middle.trans (ih.cons (.revise r))
  exact ((h.map _).append_right _).trans (hsplit l)

/-- Where nothing can be added, a history comes to its revisions. -/
theorem replay_of_full
    (h : ∀ x ∈ added l, L.has s (L.key x) ∨ L.limit ≤ (s.map (L.reviseAll (revisions l))).countP L.counts) :
    L.replay s l = s.map (L.reviseAll (revisions l)) := by
  unfold replay
  induction l generalizing s with
  | nil =>
    exact (map_reviseAll_nil s).symm
  | cons e l ih =>
    cases e with
    | add x =>
      have hx : (L.has s (L.key x) || decide (L.limit ≤ s.countP L.counts)) = true := by
        rcases h x List.mem_cons_self with h | h
        · rw [h, Bool.true_or]
        · rw [decide_eq_true (h.trans (countP_reviseAll_le _ s)), Bool.or_true]
      rw [List.foldl_cons, step, if_pos hx]
      exact ih fun y hy => h y (List.mem_cons_of_mem x hy)
    | revise r =>
      have hmap : (s.map (L.revise r)).map (L.reviseAll (revisions l)) = s.map (L.reviseAll (revisions (.revise r :: l))) := by
        rw [List.map_map]
        rfl
      rw [List.foldl_cons, step, ← hmap]
      refine ih fun x hx => (h x hx).imp (fun h => ?_) fun h => ?_
      · rw [has_map (L.key_revise r), h]
      · rwa [hmap]

theorem replay_revisions (s : List ε) (rs : List ρ) : L.replay s (rs.map .revise) = s.map (L.reviseAll rs) := by
  have h := replay_of_full (L := L) (s := s) (l := rs.map .revise) (by simp)
  rwa [revisions_map_revise] at h

/-- Additions leave what is there. -/
theorem replay_adds (s : List ε) (xs : List ε) :
    ∃ extra, L.replay s (xs.map .add) = s ++ extra ∧ (∀ y ∈ extra, y ∈ xs) ∧
      (s ++ extra).countP L.counts ≤ max L.limit (s.countP L.counts) := by
  unfold replay
  induction xs generalizing s with
  | nil => exact ⟨[], by simp, by simp, by simp⟩
  | cons x xs ih =>
    rw [List.map_cons, List.foldl_cons, step]
    split
    · obtain ⟨extra, he, hmem, hc⟩ := ih s
      exact ⟨extra, he, fun y hy => List.mem_cons_of_mem x (hmem y hy), hc⟩
    · rename_i hroom
      simp only [Bool.or_eq_true, decide_eq_true_eq, not_or, not_le] at hroom
      obtain ⟨extra, he, hmem, hc⟩ := ih (s ++ [x])
      rw [List.append_assoc] at he hc
      refine ⟨x :: extra, he, fun y hy => ?_, hc.trans ?_⟩
      · rcases List.mem_cons.mp hy with rfl | hy
        · exact List.mem_cons_self
        · exact List.mem_cons_of_mem x (hmem y hy)
      · have hone : [x].countP L.counts ≤ 1 := List.countP_le_length
        rw [List.countP_append]
        omega

/-- What is added first stays as it was added. -/
theorem look_adds (xs : List ε) (hk : L.has s (L.key x) = false) (hroom : s.countP L.counts < L.limit) :
    ∃ extra, L.replay s ((x :: xs).map .add) = s ++ x :: extra := by
  have hstep : L.step s (.add x) = s ++ [x] := by
    rw [step, if_neg]
    simp only [hk, Bool.false_or, decide_eq_true_eq]
    omega
  obtain ⟨extra, he, -⟩ := replay_adds (L := L) (s ++ [x]) xs
  refine ⟨extra, ?_⟩
  rw [List.append_assoc] at he
  simpa [replay, hstep] using he

theorem look_of_first {s t : List ε} (hk : L.has s (L.key x) = false) : L.look (s ++ x :: t) (L.key x) = some (L.view x) := by
  rw [look_append_of_not_has hk]
  simp [look]

/-! ## Fresh keys -/

theorem mem_fresh : k ∈ L.fresh s l ↔ (∃ x ∈ added l, L.key x = k) ∧ L.has s k = false := by
  simp [fresh]

theorem nodup_fresh (s : List ε) (l : List (LedgerEvent ε ρ)) : (L.fresh s l).Nodup := List.nodup_dedup _

theorem length_le_fresh {ks : List κ} (hn : ks.Nodup) (h : ∀ k ∈ ks, k ∈ L.fresh s l) : ks.length ≤ (L.fresh s l).length :=
  (List.subperm_of_subset hn h).length_le

/-- Where there is room for everything, a history comes to its revisions of what was there
and, after it, all that it adds. -/
theorem replay_of_room (hroom : s.countP L.counts + (L.fresh s l).length ≤ L.limit)
    (hfix : ∀ x ∈ added l, L.has s (L.key x) = false → ∀ r ∈ revisions l, L.revise r x = x) :
    ∃ extra, L.replay s l = s.map (L.reviseAll (revisions l)) ++ extra ∧
      (∀ y ∈ extra, y ∈ added l ∧ L.has s (L.key y) = false) ∧
      (∀ y ∈ added l, L.has s (L.key y) = false → L.has extra (L.key y)) ∧ (extra.map L.key).Nodup := by
  induction l using List.reverseRecOn with
  | nil => exact ⟨[], by simp [replay, revisions, map_reviseAll_nil], by simp, by simp [added], by simp⟩
  | append_singleton l e ih =>
    have hadded : added (l ++ [e]) = added l ++ added [e] := List.filterMap_append
    have hrevisions : revisions (l ++ [e]) = revisions l ++ revisions [e] := List.filterMap_append
    have hmono : (L.fresh s l).length ≤ (L.fresh s (l ++ [e])).length := length_le_fresh (nodup_fresh s l) fun k hk => by
      obtain ⟨⟨x, hx, hxk⟩, hs⟩ := mem_fresh.1 hk
      exact mem_fresh.2 ⟨⟨x, by rw [hadded]; exact List.mem_append_left _ hx, hxk⟩, hs⟩
    obtain ⟨extra, he, hold, hall, hn⟩ := ih (by omega) fun x hx hs r hr =>
      hfix x (by rw [hadded]; exact List.mem_append_left _ hx) hs r (by rw [hrevisions]; exact List.mem_append_left _ hr)
    rw [replay_append, he]
    cases e with
    | revise r =>
      have hextra : extra.map (L.revise r) = extra := by
        refine (List.map_congr_left fun y hy => ?_).trans (List.map_id' extra)
        obtain ⟨hy, hs⟩ := hold y hy
        exact hfix y (by rw [hadded]; exact List.mem_append_left _ hy) hs r (by simp [revisions, LedgerEvent.revision?])
      refine ⟨extra, ?_, fun y hy => ?_, fun y hy => ?_, hn⟩
      · show (s.map (L.reviseAll (revisions l)) ++ extra).map (L.revise r) = _
        rw [List.map_append, hextra, List.map_map, hrevisions]
        refine congrArg (· ++ extra) (List.map_congr_left fun x _ => ?_)
        simp [reviseAll, revisions, LedgerEvent.revision?]
      · simpa [added, LedgerEvent.entry?] using hold y hy
      · exact hall y (by simpa [hadded, added, LedgerEvent.entry?] using hy)
    | add x =>
      have hmem : ∀ y, y ∈ added (l ++ [.add x]) ↔ y ∈ added l ∨ y = x := fun y => by
        simp [added, LedgerEvent.entry?]
      have hrev : revisions (l ++ [.add x]) = revisions l := by simp [revisions, LedgerEvent.revision?]
      rw [hrev]
      show ∃ extra', L.step (s.map (L.reviseAll (revisions l)) ++ extra) (.add x) = _ ∧ _
      rw [step, has_append, has_map (key_reviseAll _)]
      by_cases hk : (L.has s (L.key x) || L.has extra (L.key x)) = true
      · rw [hk, Bool.true_or, if_pos rfl]
        refine ⟨extra, rfl, fun y hy => ⟨(hmem y).mpr (.inl (hold y hy).1), (hold y hy).2⟩, fun y hy hs => ?_, hn⟩
        rcases (hmem y).mp hy with hy | rfl
        · exact hall y hy hs
        · simpa [hs] using hk
      · rw [Bool.not_eq_true, Bool.or_eq_false_iff] at hk
        have hfresh : (L.key x :: extra.map L.key).Nodup := by
          refine List.nodup_cons.mpr ⟨fun hx => ?_, hn⟩
          obtain ⟨y, hy, hyk⟩ := List.mem_map.mp hx
          have hhas : L.has extra (L.key x) := has_iff.2 ⟨y, hy, hyk⟩
          simp [hk.2] at hhas
        have hlen : (L.key x :: extra.map L.key).length ≤ (L.fresh s (l ++ [.add x])).length := length_le_fresh hfresh fun k hkm => by
          rcases List.mem_cons.mp hkm with rfl | hkm
          · exact mem_fresh.2 ⟨⟨x, (hmem x).mpr (.inr rfl), rfl⟩, hk.1⟩
          · obtain ⟨y, hy, rfl⟩ := List.mem_map.mp hkm
            exact mem_fresh.2 ⟨⟨y, (hmem y).mpr (.inl (hold y hy).1), rfl⟩, (hold y hy).2⟩
        have hcount : (s.map (L.reviseAll (revisions l)) ++ extra).countP L.counts ≤ s.countP L.counts + extra.length := by
          rw [List.countP_append]
          exact Nat.add_le_add (countP_reviseAll_le _ s) List.countP_le_length
        simp only [List.length_cons, List.length_map] at hlen
        rw [hk.1, hk.2, Bool.or_self, Bool.false_or, if_neg (by rw [decide_eq_true_iff]; omega)]
        refine ⟨extra ++ [x], by rw [List.append_assoc], fun y hy => ?_, fun y hy hs => ?_, ?_⟩
        · rcases List.mem_append.mp hy with hy | hy
          · exact ⟨(hmem y).mpr (.inl (hold y hy).1), (hold y hy).2⟩
          · cases List.mem_singleton.mp hy
            exact ⟨(hmem x).mpr (.inr rfl), hk.1⟩
        · rw [has_append, Bool.or_eq_true]
          rcases (hmem y).mp hy with hy | rfl
          · exact .inl (hall y hy hs)
          · exact .inr (by simp [has])
        · rw [List.map_append]
          exact (List.perm_append_comm.nodup_iff).mp hfresh

/-! ## Orders -/

theorem added_perm (h : l.Perm l') : (added l).Perm (added l') := h.filterMap _

theorem revisions_perm (h : l.Perm l') : (revisions l).Perm (revisions l') := h.filterMap _

theorem fresh_perm (h : l.Perm l') : (L.fresh s l).Perm (L.fresh s l') := (((added_perm h).map _).filter _).dedup

/-- Every order of what a list reads is the reading of an order of the list. -/
theorem exists_perm_filterMap {α β : Type*} {f : α → Option β} {l : List α} {l' : List β} (h : l'.Perm (l.filterMap f)) :
    ∃ l'' : List α, l''.Perm l ∧ l''.filterMap f = l' := by
  induction l' generalizing l with
  | nil => exact ⟨l, List.Perm.refl l, h.nil_eq.symm⟩
  | cons b l' ih =>
    obtain ⟨a, ha, hb⟩ := List.mem_filterMap.mp (h.mem_iff.mp List.mem_cons_self)
    obtain ⟨before, after, rfl⟩ := List.append_of_mem ha
    have hmiddle : (before ++ a :: after).Perm (a :: (before ++ after)) := List.perm_middle
    have hrest : (b :: l').Perm (b :: (before ++ after).filterMap f) := by
      have := h.trans (hmiddle.filterMap f)
      rwa [List.filterMap_cons_some hb] at this
    obtain ⟨l'', hl, hf⟩ := ih hrest.cons_inv
    exact ⟨a :: l'', (hl.cons a).trans hmiddle.symm, by rw [List.filterMap_cons_some hb, hf]⟩

/-- Where nothing is ever added, all orders agree. -/
theorem orderFree_of_full
    (h : ∀ x ∈ added l, L.has s (L.key x) ∨ L.limit ≤ (s.map (L.reviseAll (revisions l))).countP L.counts) : L.OrderFree s l := by
  have hone (l' : List (LedgerEvent ε ρ)) (hl : l'.Perm l) : L.replay s l' = s.map (L.reviseAll (revisions l)) := by
    have hrev := map_reviseAll_perm (L := L) (revisions_perm hl) s
    rw [← hrev]
    exact replay_of_full fun x hx => by rw [hrev]; exact h x ((added_perm hl).mem_iff.mp hx)
  intro l₁ l₂ h₁ h₂ k
  rw [hone l₁ h₁, hone l₂ h₂]

/-- Where everything is added and stays as it is, all orders agree. -/
theorem orderFree_of_room (hsame : ∀ x ∈ added l, ∀ y ∈ added l, L.key x = L.key y → L.view x = L.view y)
    (hroom : s.countP L.counts + (L.fresh s l).length ≤ L.limit)
    (hfix : ∀ x ∈ added l, L.has s (L.key x) = false → ∀ r ∈ revisions l, L.revise r x = x) : L.OrderFree s l := by
  -- what is seen of a key in any order
  have hone (l' : List (LedgerEvent ε ρ)) (hl : l'.Perm l) (k : κ) :
      (L.has s k → L.look (L.replay s l') k = L.look (s.map (L.reviseAll (revisions l))) k) ∧
        (L.has s k = false → (∀ x ∈ added l, L.key x ≠ k) → L.look (L.replay s l') k = none) ∧
        ∀ x ∈ added l, L.has s k = false → L.key x = k → L.look (L.replay s l') k = some (L.view x) := by
    obtain ⟨extra, he, hold, hall, hn⟩ := replay_of_room (L := L) (s := s) (l := l')
      (by rwa [(fresh_perm hl).length_eq]) fun x hx hs r hr =>
        hfix x ((added_perm hl).mem_iff.mp hx) hs r ((revisions_perm hl).mem_iff.mp hr)
    rw [he, map_reviseAll_perm (revisions_perm hl)]
    have hkeys : L.has (s.map (L.reviseAll (revisions l))) k = L.has s k := has_map (key_reviseAll _)
    refine ⟨fun hk => look_append_of_has (by rw [hkeys, hk]), fun hk hno => ?_, fun x hx hk hxk => ?_⟩
    · rw [look_append_of_not_has (by rw [hkeys, hk])]
      refine Option.not_isSome_iff_eq_none.mp fun hsome => ?_
      rw [look_isSome] at hsome
      obtain ⟨y, hy, hyk⟩ := has_iff.1 hsome
      exact hno y ((added_perm hl).mem_iff.mp (hold y hy).1) hyk
    · rw [look_append_of_not_has (by rw [hkeys, hk])]
      have hhas : L.has extra k := hxk ▸ hall x ((added_perm hl).mem_iff.mpr hx) (hxk ▸ hk)
      have hfind := (isSome_find extra k).trans hhas
      obtain ⟨y, hy⟩ := Option.isSome_iff_exists.mp hfind
      have hyk : L.key y = k := by simpa using List.find?_some hy
      rw [look, hy, Option.map_some,
        hsame y ((added_perm hl).mem_iff.mp (hold y (List.mem_of_find?_eq_some hy)).1) x hx (hyk.trans hxk.symm)]
  intro l₁ l₂ h₁ h₂ k
  obtain ⟨hs₁, hn₁, ha₁⟩ := hone l₁ h₁ k
  obtain ⟨hs₂, hn₂, ha₂⟩ := hone l₂ h₂ k
  cases hk : L.has s k with
  | true => rw [hs₁ hk, hs₂ hk]
  | false =>
    by_cases hx : ∃ x ∈ added l, L.key x = k
    · obtain ⟨x, hx, hxk⟩ := hx
      rw [ha₁ x hx hk hxk, ha₂ x hx hk hxk]
    · have hno : ∀ x ∈ added l, L.key x ≠ k := fun x hx' hxk => hx ⟨x, hx', hxk⟩
      rw [hn₁ hk hno, hn₂ hk hno]

/-- An entry of a history, with the others after it. -/
theorem exists_first (hx : x ∈ added l) : ∃ rest, (x :: rest).Perm (added l) := by
  obtain ⟨before, after, he⟩ := List.append_of_mem hx
  exact ⟨before ++ after, by rw [he]; exact List.perm_middle.symm⟩

/-- With room at the beginning, an entry that comes first is there in the end, revised. -/
theorem look_first {xs : List ε} {rs : List ρ} (hk : L.has s (L.key x) = false) (hroom : s.countP L.counts < L.limit) :
    L.look (L.replay s (addFirst (x :: xs) rs)) (L.key x) = some (L.view (L.reviseAll rs x)) := by
  obtain ⟨extra, he⟩ := look_adds (L := L) xs hk hroom
  rw [addFirst, replay_append, he, replay_revisions, List.map_append, List.map_cons, ← key_reviseAll (L := L) rs x]
  exact look_of_first (by rw [has_map (key_reviseAll rs), key_reviseAll, hk])

/-- And with room after all revisions, one that comes after them. -/
theorem look_last {xs : List ε} {rs : List ρ} (hk : L.has s (L.key x) = false)
    (hroom : (s.map (L.reviseAll rs)).countP L.counts < L.limit) :
    L.look (L.replay s (rs.map .revise ++ (x :: xs).map .add)) (L.key x) = some (L.view x) := by
  have hk' : L.has (s.map (L.reviseAll rs)) (L.key x) = false := by rw [has_map (key_reviseAll rs), hk]
  obtain ⟨extra, he⟩ := look_adds (L := L) xs hk' hroom
  rw [replay_append, replay_revisions, he]
  exact look_of_first hk'

theorem orderFree_iff (hcounts : ∀ x ∈ added l, L.counts x)
    (hsame : ∀ x ∈ added l, ∀ y ∈ added l, L.key x = L.key y → L.view x = L.view y) :
    L.OrderFree s l ↔ L.fresh s l = [] ∨ L.limit ≤ (s.map (L.reviseAll (revisions l))).countP L.counts ∨
      s.countP L.counts + (L.fresh s l).length ≤ L.limit ∧
        ∀ x ∈ added l, L.has s (L.key x) = false → ∀ r ∈ revisions l, L.revise r x = x := by
  constructor
  · intro h
    by_contra hno
    simp only [not_or, not_le] at hno
    obtain ⟨hfresh, hend, hroom⟩ := hno
    obtain ⟨k, hk⟩ := List.exists_mem_of_ne_nil _ hfresh
    obtain ⟨⟨x, hx, rfl⟩, hs⟩ := mem_fresh.1 hk
    have hlast {y : ε} (hy : y ∈ added l) (hys : L.has s (L.key y) = false) : ∀ l', l'.Perm l →
        L.look (L.replay s l') (L.key y) = some (L.view y) := fun l' hl => by
      obtain ⟨rest, hrest⟩ := exists_first hy
      rw [h l' _ hl ((List.perm_append_comm.trans (perm_addFirst hrest)) : (_ ++ (y :: rest).map .add).Perm l)]
      exact look_last hys hend
    rcases Nat.lt_or_ge (s.countP L.counts) L.limit with hlt | hge
    · by_cases hall : ∀ y ∈ added l, L.has s (L.key y) = false → L.has (L.replay s ((added l).map .add)) (L.key y)
      · -- everything is added: a revision changes what it comes after
        obtain ⟨extra, he, hmem, hcount⟩ := replay_adds (L := L) s (added l)
        have hextra : extra.countP L.counts = extra.length :=
          List.countP_eq_length.mpr fun y hy => hcounts y (hmem y hy)
        have hlen : (L.fresh s l).length ≤ (extra.map L.key).length := by
          refine (List.subperm_of_subset (nodup_fresh s l) fun k hk => ?_).length_le
          obtain ⟨⟨y, hy, rfl⟩, hys⟩ := mem_fresh.1 hk
          have hhas := hall y hy hys
          rw [he, has_append, hys, Bool.false_or] at hhas
          obtain ⟨z, hz, hzk⟩ := has_iff.1 hhas
          exact List.mem_map.mpr ⟨z, hz, hzk⟩
        rw [List.countP_append, hextra, max_eq_left hlt.le] at hcount
        rw [List.length_map] at hlen
        refine hroom ⟨by omega, fun y hy hys r hr => ?_⟩
        by_contra hne
        obtain ⟨rest, hrest⟩ := exists_first hy
        have hfirst := hlast hy hys _ (perm_addFirst hrest)
        rw [look_first hys hlt] at hfirst
        exact reviseAll_ne hr hne (Option.some.inj hfirst)
      · -- one is left out unless it comes first
        push Not at hall
        obtain ⟨y, hy, hys, hnot⟩ := hall
        have hfirst := hlast hy hys _ (perm_addFirst (List.Perm.refl _))
        have hsome : L.has (L.replay s (addFirst (added l) (revisions l))) (L.key y) := by rw [← look_isSome, hfirst]; rfl
        rw [addFirst, replay_append, replay_revisions, has_map (key_reviseAll _)] at hsome
        exact hnot hsome
    · -- nothing is added before the revisions
      have hadds : L.replay s ((added l).map .add) = s := by
        have hfull := replay_of_full (L := L) (s := s) (l := (added l).map .add) fun y _ =>
          .inr (by rwa [revisions_map_add, map_reviseAll_nil])
        rwa [revisions_map_add, map_reviseAll_nil] at hfull
      have hfirst := hlast hx hs _ (perm_addFirst (List.Perm.refl _))
      have hsome : L.has (L.replay s (addFirst (added l) (revisions l))) (L.key x) := by rw [← look_isSome, hfirst]; rfl
      rw [addFirst, replay_append, hadds, replay_revisions, has_map (key_reviseAll _), hs] at hsome
      cases hsome
  · rintro (h | h | ⟨hroom, hfix⟩)
    · refine orderFree_of_full fun x hx => .inl ?_
      by_contra hs
      have hmem : L.key x ∈ L.fresh s l := mem_fresh.2 ⟨⟨x, hx, rfl⟩, by simpa using hs⟩
      simp [h] at hmem
    · exact orderFree_of_full fun _ _ => .inr h
    · exact orderFree_of_room hsame hroom hfix

end Ledger

end Library
