import SignalSync.Library.Regex

/-!
# The words of a text

What a pattern of words finds.

* `hits_append`: a pattern that does not read a separator matches in the blocks between
  the separators;
* `hits_wordGroup`: a word is found in a block if it is the block.
-/

namespace Library

namespace Regex

section

variable [Unicode] {r s : Regex} {c d : Cursor} {m : Match} {p : Char → Bool}

/-! ## Words -/

/-- Only word characters, and some. -/
def IsWord (w : String) : Prop := w.toList ≠ [] ∧ ∀ x ∈ w.toList, Unicode.isWord x

theorem IsWord.getLast? {w : String} (h : IsWord w) (b : Option Char) : (w.toList.getLast?.or b).any Unicode.isWord := by
  obtain ⟨x, hx⟩ : ∃ x, w.toList.getLast? = some x := ⟨_, List.getLast?_eq_getLast_of_ne_nil h.1⟩
  rw [hx]
  exact h.2 x (List.mem_of_getLast? hx)

theorem mem_run_word {ws : List String} : m ∈ run (word ws) c ↔ c.isBoundary ∧ ∃ w ∈ ws, ∃ rest, c.rest = w.toList ++ rest ∧
    Cursor.isBoundary ⟨w.toList.getLast?.or c.before, rest⟩ ∧ m = ⟨⟨w.toList.getLast?.or c.before, rest⟩, []⟩ := by
  constructor
  · intro h
    obtain ⟨m₁, hm₁, m₂, hm₂, rfl⟩ := mem_run_seqs_cons.1 h
    obtain ⟨hb, rfl⟩ := mem_run_boundary.1 hm₁
    obtain ⟨m₃, hm₃, m₄, hm₄, rfl⟩ := mem_run_seqs_cons.1 hm₂
    obtain ⟨w, hw, rest, hrest, rfl⟩ := mem_run_anyOf.1 hm₃
    obtain ⟨m₅, hm₅, m₆, hm₆, rfl⟩ := mem_run_seqs_cons.1 hm₄
    obtain ⟨hb', rfl⟩ := mem_run_boundary.1 hm₅
    cases mem_run_seqs_nil.1 hm₆
    exact ⟨hb, w, hw, rest, hrest, hb', rfl⟩
  · rintro ⟨hb, w, hw, rest, hrest, hb', rfl⟩
    exact mem_run_seqs_cons.2 ⟨_, mem_run_boundary.2 ⟨hb, rfl⟩, _, mem_run_seqs_cons.2
      ⟨_, mem_run_anyOf.2 ⟨w, hw, rest, hrest, rfl⟩, _, mem_run_seqs_cons.2
        ⟨_, mem_run_boundary.2 ⟨hb', rfl⟩, _, mem_run_seqs_nil.2 rfl, rfl⟩, rfl⟩, rfl⟩

variable {ws : List String}

/-! ## Blocks between separators -/

/-- No part of the pattern reads `x`. -/
def Avoids (x : Char) : Regex → Prop
  | empty | start | boundary | notBehind _ => True
  | char p => p x = false
  | seq r s | alt r s => r.Avoids x ∧ s.Avoids x
  | many r _ _ | group r => r.Avoids x

/-- Every match reads something. -/
def Progress (r : Regex) : Prop := ∀ c, ∀ m ∈ run r c, m.cursor.rest.length < c.rest.length

/-- The text goes on. -/
def extend (u : List Char) (m : Match) : Match := { m with cursor := { m.cursor with rest := m.cursor.rest ++ u } }

omit [Unicode] in
theorem iterate_fuel {step : Cursor → List Match} {n n' lo : Nat} (hn : c.rest.length ≤ n) (hn' : c.rest.length ≤ n') :
    iterate step n lo c = iterate step n' lo c := by
  have hstop (hc : c.rest.length = 0) (n : Nat) : iterate step n lo c = if lo = 0 then [⟨c, []⟩] else [] := by
    cases n with
    | zero => rfl
    | succ n => simp [iterate, hc]
  induction n generalizing n' lo c with
  | zero => rw [hstop (by omega), hstop (by omega)]
  | succ n ih =>
    cases n' with
    | zero => rw [hstop (by omega), hstop (by omega)]
    | succ n' =>
      simp only [iterate]
      congr 1
      refine List.flatMap_congr fun m hm => ?_
      have hlt : m.cursor.rest.length < c.rest.length := by simpa using (List.mem_filter.mp hm).2
      have hle : iterate step n (lo - 1) m.cursor = iterate step n' (lo - 1) m.cursor := by
        refine ih (by omega) (by omega) fun hc n => ?_
        cases n with
        | zero => rfl
        | succ n => simp [iterate, hc]
      rw [hle]

omit [Unicode] in
theorem iterate_append {step : Cursor → List Match} {u : List Char}
    (hstep : ∀ c, step { c with rest := c.rest ++ u } = (step c).map (extend u)) (n lo : Nat) (c : Cursor) :
    iterate step n lo { c with rest := c.rest ++ u } = (iterate step n lo c).map (extend u) := by
  have hstop (c : Cursor) (lo : Nat) : (if lo = 0 then [⟨{ c with rest := c.rest ++ u }, []⟩] else ([] : List Match)) =
      (if lo = 0 then [⟨c, []⟩] else []).map (extend u) := by
    split <;> rfl
  induction n generalizing lo c with
  | zero => exact hstop c lo
  | succ n ih =>
    simp only [iterate]
    rw [List.map_append, ← hstop c lo, hstep]
    congr 1
    rw [List.filter_map, List.flatMap_map, List.map_flatMap]
    have hfilter : ((fun m : Match => decide (m.cursor.rest.length < (c.rest ++ u).length)) ∘ extend u) =
        fun m => decide (m.cursor.rest.length < c.rest.length) := by
      funext m
      simp [extend]
    rw [hfilter]
    refine List.flatMap_congr fun m _ => ?_
    rw [show (extend u m).cursor = { m.cursor with rest := m.cursor.rest ++ u } from rfl, ih, List.map_map, List.map_map]
    rfl

/-- A pattern that does not read `x` matches before it as at the end of the text. -/
theorem run_append {x : Char} (hx : Unicode.isWord x = false) (h : r.Avoids x) (c : Cursor) (t : List Char) :
    run r { c with rest := c.rest ++ x :: t } = (run r c).map (extend (x :: t)) := by
  induction r generalizing c with
  | empty => rfl
  | char p =>
    obtain ⟨b, s⟩ := c
    cases s with
    | nil => simp [run, show p x = false from h]
    | cons y s =>
      simp only [run, List.cons_append]
      split <;> rfl
  | seq r s ihr ihs =>
    simp only [run, ihr h.1, List.flatMap_map, List.map_flatMap]
    refine List.flatMap_congr fun m _ => ?_
    rw [show (extend (x :: t) m).cursor = { m.cursor with rest := m.cursor.rest ++ x :: t } from rfl, ihs h.2, List.map_map, List.map_map]
    rfl
  | alt r s ihr ihs => simp only [run, ihr h.1, ihs h.2, List.map_append]
  | many r lo hi ih =>
    simp only [run]
    cases hi with
    | some hi => exact iterate_append (fun c => ih h c) hi lo c
    | none =>
      have hfuel : iterate (fun c => run r c) c.rest.length lo c = iterate (fun c => run r c) (c.rest ++ x :: t).length lo c :=
        iterate_fuel (Nat.le_refl _) (by simp)
      rw [Option.getD_none, Option.getD_none, hfuel]
      exact iterate_append (fun c => ih h c) _ lo c
  | start =>
    simp only [run]
    split <;> rfl
  | boundary =>
    have hb : Cursor.isBoundary { c with rest := c.rest ++ x :: t } = c.isBoundary := by
      obtain ⟨b, s⟩ := c
      cases s <;> simp [Cursor.isBoundary, hx]
    simp only [run, hb]
    split <;> rfl
  | notBehind p =>
    simp only [run]
    split <;> rfl
  | group r ih =>
    simp only [run, ih h, List.map_map]
    refine List.map_congr_left fun m hm => ?_
    have hle := (later_of_run hm).length_le
    simp only [Function.comp, extend, between, List.length_append]
    rw [Nat.add_sub_add_right, List.take_append_of_le_length (by omega)]

/-- What is found, without its place. -/
def hits (r : Regex) (c : Cursor) : List (List Char × List (List Char)) :=
  (findAllFrom r c.rest.length c).map fun f => (f.text, f.groups)

theorem after_lt_of_find? (hr : r.Progress) {b : Option Char} {s : List Char} {f : Found} (h : find? r b s = some f) :
    f.after.rest.length < s.length := by
  obtain ⟨d, hd, hm, -⟩ := mem_run_of_find? h
  exact Nat.lt_of_lt_of_le (hr d _ hm) hd.length_le

theorem findAllFrom_fuel (hr : r.Progress) (n n' : Nat) (hn : c.rest.length ≤ n) (hn' : c.rest.length ≤ n') :
    findAllFrom r n c = findAllFrom r n' c := by
  have hstop (c : Cursor) (hc : c.rest.length = 0) (n : Nat) : findAllFrom r n c = [] := by
    cases n with
    | zero => rfl
    | succ n =>
      cases hf : find? r c.before c.rest with
      | none => simp [findAllFrom, hf]
      | some f => exact absurd (after_lt_of_find? hr hf) (by omega)
  induction n generalizing n' c with
  | zero => rw [hstop c (by omega), hstop c (by omega)]
  | succ n ih =>
    cases n' with
    | zero => rw [hstop c (by omega), hstop c (by omega)]
    | succ n' =>
      simp only [findAllFrom]
      cases hf : find? r c.before c.rest with
      | none => rfl
      | some f =>
        have := after_lt_of_find? hr hf
        exact congrArg (f :: ·) (ih n' (by omega) (by omega))

/-- What is found is the first match and those after it. -/
theorem findAllFrom_eq (hr : r.Progress) (b : Option Char) (s : List Char) : findAllFrom r s.length ⟨b, s⟩ =
    (find? r b s).elim [] fun f => f :: findAllFrom r f.after.rest.length f.after := by
  have hfuel : findAllFrom r s.length ⟨b, s⟩ = findAllFrom r (s.length + 1) ⟨b, s⟩ :=
    findAllFrom_fuel hr _ _ (Nat.le_refl _) (Nat.le_succ _)
  rw [hfuel, findAllFrom]
  cases hf : find? r b s with
  | none => rfl
  | some f =>
    have := after_lt_of_find? hr hf
    exact congrArg (f :: ·) (findAllFrom_fuel hr _ _ (by omega) (Nat.le_refl _))

theorem hits_eq (hr : r.Progress) (b : Option Char) (s : List Char) :
    hits r ⟨b, s⟩ = (find? r b s).elim [] fun f => (f.text, f.groups) :: hits r f.after := by
  rw [hits, findAllFrom_eq hr]
  cases find? r b s <;> rfl

theorem head?_hits (hr : r.Progress) (b : Option Char) (s : List Char) :
    (hits r ⟨b, s⟩).head? = (find? r b s).map fun f => (f.text, f.groups) := by
  rw [hits_eq hr]
  cases find? r b s <;> rfl

theorem find?_eq_none_iff_hits (hr : r.Progress) {b : Option Char} {s : List Char} : find? r b s = none ↔ hits r ⟨b, s⟩ = [] := by
  rw [← List.head?_eq_none_iff, head?_hits hr, Option.map_eq_none_iff]

theorem find?_append {x : Char} (hx : Unicode.isWord x = false) (h : r.Avoids x) (b : Option Char) (s t : List Char) :
    find? r b (s ++ x :: t) = ((find? r b s).map fun f => { f with after := { f.after with rest := f.after.rest ++ x :: t } }).or
      ((find? r (some x) t).map fun f => { f with skipped := s ++ x :: f.skipped }) := by
  induction s generalizing b with
  | nil =>
    have hrun := run_append hx h ⟨b, []⟩ t
    simp only [List.nil_append] at hrun
    simp only [List.nil_append, find?, hrun, List.head?_map]
    cases hm : (run r ⟨b, []⟩).head? with
    | none => rfl
    | some m =>
      have hle := (later_of_run (List.mem_of_mem_head? hm)).length_le
      obtain ⟨⟨b', s'⟩, g⟩ := m
      obtain rfl : s' = [] := List.length_eq_zero_iff.mp (Nat.le_zero.mp hle)
      simp [extend, between]
  | cons y s ih =>
    have hrun := run_append hx h ⟨b, y :: s⟩ t
    simp only [List.cons_append] at hrun
    simp only [List.cons_append, find?, hrun, List.head?_map]
    cases hm : (run r ⟨b, y :: s⟩).head? with
    | none =>
      simp only [Option.map_none, ih, Option.map_or, Option.map_map]
      rfl
    | some m =>
      have hle := (later_of_run (List.mem_of_mem_head? hm)).length_le
      simp only [Option.map_some, Option.some_or, Option.some.injEq, Found.mk.injEq, true_and, extend, and_true]
      simp only [between, ← List.cons_append, List.length_append]
      rw [Nat.add_sub_add_right, List.take_append_of_le_length (by omega)]

/-- The hits before a separator, and those after it. -/
theorem hits_append {x : Char} (hx : Unicode.isWord x = false) (h : r.Avoids x) (hr : r.Progress) (b : Option Char) (s t : List Char) :
    hits r ⟨b, s ++ x :: t⟩ = hits r ⟨b, s⟩ ++ hits r ⟨some x, t⟩ := by
  induction hn : s.length using Nat.strong_induction_on generalizing b s with
  | _ n ih =>
    subst hn
    rw [hits_eq hr b (s ++ x :: t), hits_eq hr b s, find?_append hx h]
    cases hf : find? r b s with
    | none =>
      rw [Option.map_none, Option.none_or, hits_eq hr (some x) t]
      cases find? r (some x) t <;> rfl
    | some f => exact congrArg ((f.text, f.groups) :: ·) (ih _ (after_lt_of_find? hr hf) f.after.before f.after.rest rfl)

/-- In a block of word characters a pattern that begins at a boundary matches at the
start, if at all. -/
theorem find?_block {b : Option Char} {w : List Char} (hw : ∀ x ∈ w, Unicode.isWord x)
    (hr : r.Progress) : find? (seq boundary r) b w = (run (seq boundary r) ⟨b, w⟩).head?.map fun m =>
      ⟨[], between ⟨b, w⟩ m.cursor, m.groups, m.cursor⟩ := by
  cases w with
  | nil =>
    simp only [find?]
    congr 1
    funext m
    simp [between]
  | cons x s =>
    have hnone : find? (seq boundary r) (some x) s = none := by
      rw [find?_eq_none]
      rintro ⟨b', s'⟩ ⟨pre, hp, hb'⟩
      refine List.eq_nil_iff_forall_not_mem.mpr fun m hm => ?_
      obtain ⟨m₁, hm₁, m₂, hm₂, -⟩ := mem_run_seq.1 hm
      obtain ⟨hbd, rfl⟩ := mem_run_boundary.1 hm₁
      simp only at hp hb'
      subst hp
      have hbefore : b'.any Unicode.isWord := by
        rw [hb']
        cases hl : pre.getLast? with
        | none => exact hw x List.mem_cons_self
        | some y => exact hw y (List.mem_cons_of_mem _ (List.mem_append_left _ (List.mem_of_getLast? hl)))
      cases s' with
      | nil => exact absurd (hr _ m₂ hm₂) (Nat.not_lt_zero _)
      | cons y s' =>
        have hy : Unicode.isWord y := hw y (by simp)
        simp [Cursor.isBoundary, hbefore, hy] at hbd
    simp only [find?, hnone]
    cases (run (seq boundary r) ⟨b, x :: s⟩).head? <;> rfl

/-- If it reads the whole block, that is the only hit. -/
theorem hits_block {b : Option Char} {w : List Char} {g : List (List Char)}
    (hw : ∀ x ∈ w, Unicode.isWord x) (hr : r.Progress)
    (hwhole : ∀ m ∈ run (seq boundary r) ⟨b, w⟩, m.cursor.rest = [] ∧ m.groups = g) :
    hits (seq boundary r) ⟨b, w⟩ = if run (seq boundary r) ⟨b, w⟩ = [] then [] else [(w, g)] := by
  have hseq : (seq boundary r).Progress := fun c m hm => by
    obtain ⟨m₁, hm₁, m₂, hm₂, rfl⟩ := mem_run_seq.1 hm
    obtain ⟨-, rfl⟩ := mem_run_boundary.1 hm₁
    exact hr c m₂ hm₂
  rw [hits_eq hseq, find?_block hw hr]
  cases hm : (run (seq boundary r) ⟨b, w⟩).head? with
  | none => rw [List.head?_eq_none_iff.mp hm, if_pos rfl]; rfl
  | some m =>
    have hmem := List.mem_of_mem_head? hm
    obtain ⟨hrest, hg⟩ := hwhole m hmem
    have hend : hits (seq boundary r) m.cursor = [] := by
      obtain ⟨⟨b', s'⟩, g'⟩ := m
      cases hrest
      rfl
    rw [if_neg (List.ne_nil_of_mem hmem)]
    simp [between, hrest, hg, hend]

/-! ## Words and repeated characters -/

/-- The group is what is read. -/
theorem run_wordGroup (ws : List String) (c : Cursor) :
    run (wordGroup ws) c = (run (word ws) c).map fun m => ⟨m.cursor, [between c m.cursor]⟩ := by
  simp only [wordGroup, word, seqs, List.foldr_cons, List.foldr_nil, run]
  by_cases hb : c.isBoundary
  · rw [if_pos hb, List.flatMap_singleton, List.flatMap_singleton, List.flatMap_map]
    simp only [List.map_flatMap, List.map_map, List.nil_append]
    refine List.flatMap_congr fun m hm => ?_
    obtain ⟨r, hr, hm⟩ := mem_run_alts.1 hm
    obtain ⟨w, -, rfl⟩ := List.mem_map.mp hr
    obtain ⟨rest, -, rfl⟩ := mem_run_lit.1 hm
    split <;> simp
  · rw [if_neg hb]
    rfl

theorem progress_words (h : ∀ w ∈ ws, IsWord w) : Progress (seqs [Regex.alts (ws.map lit), boundary]) := by
  intro c m hm
  obtain ⟨m₁, hm₁, m₂, hm₂, rfl⟩ := mem_run_seqs_cons.1 hm
  obtain ⟨r, hr, hm₁⟩ := mem_run_alts.1 hm₁
  obtain ⟨w, hw, rfl⟩ := List.mem_map.mp hr
  obtain ⟨rest, hrest, rfl⟩ := mem_run_lit.1 hm₁
  have hle := (later_of_run hm₂).length_le
  have hlen : 0 < w.toList.length := List.length_pos_iff.mpr (h w hw).1
  rw [hrest, List.length_append]
  simp only at hle ⊢
  omega

theorem Progress.seq_boundary (h : s.Progress) : (seq boundary s).Progress := by
  intro c m hm
  obtain ⟨m₁, hm₁, m₂, hm₂, rfl⟩ := mem_run_seq.1 hm
  obtain ⟨-, rfl⟩ := mem_run_boundary.1 hm₁
  exact h c m₂ hm₂

theorem progress_word (h : ∀ w ∈ ws, IsWord w) : (word ws).Progress := (progress_words h).seq_boundary

theorem progress_wordGroup (h : ∀ w ∈ ws, IsWord w) : (wordGroup ws).Progress := by
  intro c m hm
  rw [run_wordGroup] at hm
  obtain ⟨m', hm', rfl⟩ := List.mem_map.mp hm
  exact progress_word h c m' hm'

/-- On a block, a word of the list is the block. -/
theorem run_word_block (h : ∀ w ∈ ws, IsWord w) {b : Option Char} {x : List Char} (hx : ∀ c ∈ x, Unicode.isWord c)
    (hm : m ∈ run (word ws) ⟨b, x⟩) : m.cursor.rest = [] ∧ String.ofList x ∈ ws := by
  obtain ⟨-, w, hw, rest, hrest, hb, rfl⟩ := mem_run_word.1 hm
  simp only at hrest hb
  have hnil : rest = [] := by
    cases rest with
    | nil => rfl
    | cons y rest =>
      have hy : Unicode.isWord y := hx y (by rw [hrest]; simp)
      simp [Cursor.isBoundary, (h w hw).getLast? b, hy] at hb
  refine ⟨hnil, ?_⟩
  rw [hrest, hnil, List.append_nil, String.ofList_toList]
  exact hw

theorem run_word_eq_nil (h : ∀ w ∈ ws, IsWord w) {b : Option Char} {x : List Char} (hb : b.any Unicode.isWord = false)
    (hx : ∀ c ∈ x, Unicode.isWord c) : run (word ws) ⟨b, x⟩ = [] ↔ String.ofList x ∉ ws := by
  refine ⟨fun he hmem => ?_, fun hmem => List.eq_nil_iff_forall_not_mem.mpr fun m hm => hmem (run_word_block h hx hm).2⟩
  have hw := h _ hmem
  refine List.ne_nil_of_mem (mem_run_word.2 ⟨?_, _, hmem, [], ?_, ?_, rfl⟩) he
  · obtain ⟨hne, -⟩ := hw
    cases x with
    | nil => exact absurd String.toList_ofList hne
    | cons y x => simp [Cursor.isBoundary, hb, hx y List.mem_cons_self]
  · simp [String.toList_ofList]
  · have hlast := hw.getLast? b
    rw [String.toList_ofList] at hlast
    simp [Cursor.isBoundary, String.toList_ofList, hlast]

theorem hits_wordGroup (h : ∀ w ∈ ws, IsWord w) {b : Option Char} {x : List Char} (hb : b.any Unicode.isWord = false)
    (hx : ∀ c ∈ x, Unicode.isWord c) : hits (wordGroup ws) ⟨b, x⟩ = if String.ofList x ∈ ws then [(x, [x])] else [] := by
  have hprogress : Progress (seqs [group (Regex.alts (ws.map lit)), boundary]) := by
    intro c m hm
    obtain ⟨m₁, hm₁, m₂, hm₂, rfl⟩ := mem_run_seqs_cons.1 hm
    obtain ⟨m₃, hm₃, rfl⟩ := mem_run_group.1 hm₁
    exact progress_words h c ⟨m₂.cursor, m₃.groups ++ m₂.groups⟩ (mem_run_seqs_cons.2 ⟨m₃, hm₃, m₂, hm₂, rfl⟩)
  have hmem {m : Match} (hm : m ∈ run (wordGroup ws) ⟨b, x⟩) : m.cursor.rest = [] ∧ String.ofList x ∈ ws ∧ m.groups = [x] := by
    rw [run_wordGroup] at hm
    obtain ⟨m', hm', rfl⟩ := List.mem_map.mp hm
    obtain ⟨hrest, hmem⟩ := run_word_block h hx hm'
    exact ⟨hrest, hmem, by simp [between, hrest]⟩
  refine (hits_block (b := b) (g := [x]) hx hprogress fun m hm => ⟨(hmem hm).1, (hmem hm).2.2⟩).trans ?_
  have hnil : run (wordGroup ws) ⟨b, x⟩ = [] ↔ String.ofList x ∉ ws := by
    rw [run_wordGroup, List.map_eq_nil_iff, run_word_eq_nil h hb hx]
  by_cases hmem : String.ofList x ∈ ws
  · rw [if_pos hmem]
    exact if_neg fun he => hnil.mp he hmem
  · rw [if_neg hmem]
    exact if_pos (hnil.mpr hmem)

theorem mem_run_many_char {lo hi : Nat} : m ∈ run (many (char p) lo (some hi)) c ↔ ∃ pre rest, c.rest = pre ++ rest ∧
    lo ≤ pre.length ∧ pre.length ≤ hi ∧ (∀ x ∈ pre, p x) ∧ m = ⟨⟨pre.getLast?.or c.before, rest⟩, []⟩ := by
  have hlast (x : Char) (pre : List Char) (b : Option Char) : pre.getLast?.or (some x) = (x :: pre).getLast?.or b := by
    rw [List.getLast?_cons]
    cases pre.getLast? <;> rfl
  have hstop (c : Cursor) (lo : Nat) (m : Match) : m ∈ (if lo = 0 then [⟨c, []⟩] else ([] : List Match)) ↔ lo = 0 ∧ m = ⟨c, []⟩ := by
    split <;> simp_all
  simp only [run, Option.getD_some]
  induction hi generalizing lo c m with
  | zero =>
    rw [iterate, hstop]
    constructor
    · rintro ⟨rfl, rfl⟩
      exact ⟨[], c.rest, rfl, Nat.le_refl _, Nat.le_refl _, List.forall_mem_nil _, rfl⟩
    · rintro ⟨pre, rest, hc, hlo, hhi, -, rfl⟩
      obtain rfl : pre = [] := List.length_eq_zero_iff.mp (Nat.le_zero.mp hhi)
      obtain ⟨b, s⟩ := c
      cases hc
      exact ⟨Nat.le_zero.mp hlo, rfl⟩
  | succ hi ih =>
    rw [iterate, List.mem_append, hstop, List.mem_flatMap]
    constructor
    · rintro (⟨m₁, hm₁, hm⟩ | ⟨rfl, rfl⟩)
      · obtain ⟨m₂, hm₂, rfl⟩ := List.mem_map.mp hm
        obtain ⟨x, rest, hc, hx, rfl⟩ := mem_run_char.1 (List.mem_of_mem_filter hm₁)
        obtain ⟨pre, rest', hr, hlo, hhi, hall, rfl⟩ := ih.mp hm₂
        refine ⟨x :: pre, rest', hc.trans (congrArg (x :: ·) hr), by simp; omega, by simp; omega, ?_, ?_⟩
        · exact fun y hy => (List.mem_cons.mp hy).elim (fun h => h ▸ hx) (hall y)
        · simp only [List.nil_append, hlast x pre c.before]
      · exact ⟨[], c.rest, rfl, Nat.le_refl _, Nat.zero_le _, List.forall_mem_nil _, rfl⟩
    · rintro ⟨pre, rest, hc, hlo, hhi, hall, rfl⟩
      cases pre with
      | nil =>
        obtain ⟨b, s⟩ := c
        cases hc
        exact .inr ⟨Nat.le_zero.mp hlo, rfl⟩
      | cons x pre =>
        refine .inl ⟨⟨⟨some x, pre ++ rest⟩, []⟩, List.mem_filter.mpr ⟨mem_run_char.2 ⟨x, _, hc, hall x List.mem_cons_self, rfl⟩, ?_⟩, ?_⟩
        · simp [hc]
        · refine List.mem_map.mpr ⟨⟨⟨pre.getLast?.or (some x), rest⟩, []⟩, ih.mpr
            ⟨pre, rest, rfl, ?_, ?_, fun y hy => hall y (List.mem_cons_of_mem _ hy), rfl⟩, ?_⟩
          · simp only [List.length_cons] at hlo
            omega
          · simp only [List.length_cons] at hhi
            omega
          · simp only [List.nil_append, hlast x pre c.before]

end

end Regex

end Library
