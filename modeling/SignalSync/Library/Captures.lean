import SignalSync.Library.Scan

/-!
# What a search captures

The first match of a pattern, at a place of a text that is not known.

* `first_of_find?`, `first_of_findAll`: what is found is the first match at its place;
* `first_seq`: the first match of a sequence goes on to the first match of its rest;
* `Leaves`, `Keeps`: what holds of the place where a match ends, and `Enters`: where it begins;
* `groups_of_plain`, `first_plain`: a pattern without groups captures nothing.
-/

namespace Library

namespace Regex

section

variable [Unicode] {r s : Regex} {c d : Cursor} {m : Match} {p q : Char → Bool} {b : Option Char} {t : List Char}

/-! ## First matches -/

omit [Unicode] in
theorem later_iff : Later ⟨none, t⟩ d ↔ ∃ pre, t = pre ++ d.rest ∧ d.before = pre.getLast? := by
  unfold Later
  simp only [Option.or_none]

omit [Unicode] in
theorem later_append (pre : List Char) : Later ⟨b, pre ++ t⟩ ⟨lastOr pre b, t⟩ := ⟨pre, rfl, (getLast?_or pre b).symm⟩

omit [Unicode] in
/-- A later place is known by its rest. -/
theorem Later.cursor {u v : List Char} (h : Later ⟨b, u ++ v⟩ d) (hd : d.rest = v) : d = ⟨lastOr u b, v⟩ := by
  obtain ⟨pre, hrest, hbefore⟩ := h
  rw [hd] at hrest
  rw [← List.append_cancel_right hrest, getLast?_or] at hbefore
  obtain ⟨d, rest⟩ := d
  exact congrArg₂ Cursor.mk hbefore hd

/-- A match is known by what is left. -/
theorem cursor_of_run {u v : List Char} (h : m ∈ run r ⟨b, u ++ v⟩) (hend : m.cursor.rest = v) :
    m.cursor = ⟨lastOr u b, v⟩ ∧ between ⟨b, u ++ v⟩ m.cursor = u := by
  have hcursor := (later_of_run h).cursor hend
  exact ⟨hcursor, by rw [hcursor, between_append]⟩

/-- What is found is the first match at its place. -/
theorem first_of_find? {f : Found} (h : find? r b t = some f) :
    ∃ u, t = f.skipped ++ u ∧ (run r ⟨lastOr f.skipped b, u⟩).head? = some ⟨f.after, f.groups⟩ := by
  induction t generalizing b f with
  | nil =>
    obtain ⟨m, hm, rfl⟩ := Option.map_eq_some_iff.mp h
    exact ⟨[], rfl, hm⟩
  | cons x t ih =>
    simp only [find?] at h
    split at h
    · next m hm =>
      cases h
      exact ⟨x :: t, rfl, hm⟩
    · obtain ⟨f, hf, rfl⟩ := Option.map_eq_some_iff.mp h
      obtain ⟨u, ht, hfirst⟩ := ih hf
      exact ⟨u, congrArg (x :: ·) ht, hfirst⟩

theorem first_of_search {f : Found} (h : search r t = some f) :
    ∃ d, Later ⟨none, t⟩ d ∧ (run r d).head? = some ⟨f.after, f.groups⟩ := by
  obtain ⟨u, ht, hfirst⟩ := first_of_find? h
  exact ⟨_, by rw [ht]; exact later_append _, hfirst⟩

theorem first_of_findAll {f : Found} (h : f ∈ findAll r t) :
    ∃ d, Later ⟨none, t⟩ d ∧ (run r d).head? = some ⟨f.after, f.groups⟩ := by
  have hall (n : Nat) (c : Cursor) (hc : Later ⟨none, t⟩ c) (hf : f ∈ findAllFrom r n c) :
      ∃ d, Later ⟨none, t⟩ d ∧ (run r d).head? = some ⟨f.after, f.groups⟩ := by
    induction n generalizing c with
    | zero => cases hf
    | succ n ih =>
      rw [findAllFrom] at hf
      split at hf
      · next f' hf' =>
        obtain ⟨u, hrest, hfirst⟩ := first_of_find? hf'
        obtain ⟨b, rest⟩ := c
        subst hrest
        have hplace : Later ⟨none, t⟩ ⟨lastOr f'.skipped b, u⟩ := hc.trans (later_append _)
        rcases List.mem_cons.mp hf with rfl | hf
        · exact ⟨_, hplace, hfirst⟩
        · exact ih f'.after (hplace.trans (later_of_run (List.mem_of_mem_head? hfirst))) hf
      · cases hf
  exact hall _ _ (.refl _) h

/-- No match begins before what is found. -/
theorem skips_of_find? {f : Found} {u : List Char} (h : find? r b t = some f) (ht : t = f.skipped ++ u) : Skips r b f.skipped u := by
  induction t generalizing b f with
  | nil =>
    obtain ⟨m, -, rfl⟩ := Option.map_eq_some_iff.mp h
    trivial
  | cons x t ih =>
    simp only [find?] at h
    split at h
    · cases h
      trivial
    · next hnone =>
      obtain ⟨f, hf, rfl⟩ := Option.map_eq_some_iff.mp h
      obtain ⟨-, rfl⟩ := List.cons.inj ht
      exact ⟨List.head?_eq_none_iff.mp hnone, ih hf rfl⟩

theorem Skips.run_eq_nil {u v : List Char} {x : Char} {pre : List Char} (h : Skips r b (pre ++ x :: u) v) :
    run r ⟨lastOr pre b, x :: (u ++ v)⟩ = [] := by
  induction pre generalizing b with
  | nil => exact h.1
  | cons y pre ih => exact ih h.2

/-- A match that no other match reaches into is found. -/
theorem exists_mem_findAllFrom (hr : r.Progress) {pre rest : List Char} (ht : t = pre ++ rest)
    (hm : (run r ⟨lastOr pre b, rest⟩).head? = some m)
    (hcross : ∀ b' p, p ≠ [] → lastOr p b' = lastOr pre b → ∀ m' ∈ run r ⟨b', p ++ rest⟩, rest.length ≤ m'.cursor.rest.length) :
    ∃ f ∈ findAllFrom r t.length ⟨b, t⟩, f.groups = m.groups := by
  induction hn : t.length using Nat.strong_induction_on generalizing b t pre with
  | _ k ih =>
    subst hn
    rw [findAllFrom_eq hr]
    cases hf : find? r b t with
    | none =>
      rw [find?_eq_none.1 hf ⟨lastOr pre b, rest⟩ (by rw [ht]; exact later_append pre)] at hm
      cases hm
    | some f =>
      have hlt := after_lt_of_find? hr hf
      obtain ⟨u, hu, hfirst⟩ := first_of_find? hf
      have hhere (hsame : pre = f.skipped ∧ rest = u) : ∃ f' ∈ f :: findAllFrom r f.after.rest.length f.after, f'.groups = m.groups := by
        rw [hsame.1, hsame.2, hfirst] at hm
        cases hm
        exact ⟨f, List.mem_cons_self, rfl⟩
      rcases List.append_eq_append_iff.mp (ht.symm.trans hu) with ⟨c, hskipped, hrest⟩ | ⟨p, hpre, hrest⟩
      · cases c with
        | nil => exact hhere ⟨by simpa using hskipped.symm, by simpa using hrest⟩
        | cons x c =>
          have hskips := skips_of_find? hf hu
          rw [hskipped] at hskips
          rw [hrest, List.cons_append, hskips.run_eq_nil] at hm
          cases hm
      · by_cases hp : p = []
        · subst hp
          exact hhere ⟨by simpa using hpre, by simpa using hrest.symm⟩
        · -- what is found ends before the place, and the rest of the search starts there
          subst hrest
          have hlast : lastOr p (lastOr f.skipped b) = lastOr pre b := by rw [hpre, lastOr_append]
          have hle := hcross _ p hp hlast _ (List.mem_of_mem_head? hfirst)
          obtain ⟨w, hw, hbefore⟩ := later_of_run (List.mem_of_mem_head? hfirst)
          obtain ⟨q, hq⟩ : rest <:+ f.after.rest := List.suffix_of_suffix_length_le (List.suffix_append p rest) ⟨w, hw.symm⟩ hle
          have hpq : p = w ++ q := List.append_cancel_right (by rw [List.append_assoc, hq]; exact hw)
          have hplace : lastOr q f.after.before = lastOr pre b := by
            rw [← hlast, hpq, lastOr_append, show f.after.before = _ from hbefore, getLast?_or]
          obtain ⟨f', hf', hgroups⟩ := ih _ hlt (b := f.after.before) hq.symm (by rw [hplace]; exact hm) (by rwa [hplace]) rfl
          exact ⟨f', List.mem_cons_of_mem _ hf', hgroups⟩

/-- The first match of a sequence goes on to the first match of its rest. -/
theorem first_seq (h : (run (seq r s) c).head? = some m) :
    ∃ m₁ ∈ run r c, ∃ m₂, (run s m₁.cursor).head? = some m₂ ∧ m = ⟨m₂.cursor, m₁.groups ++ m₂.groups⟩ := by
  rw [run] at h
  obtain ⟨ms, hms⟩ := List.head?_eq_some_iff.mp h
  generalize run r c = l at hms
  induction l with
  | nil => cases hms
  | cons m₁ l ih =>
    rw [List.flatMap_cons] at hms
    cases hrun : run s m₁.cursor with
    | nil =>
      rw [hrun] at hms
      obtain ⟨m₁', hmem, hrest⟩ := ih hms
      exact ⟨m₁', List.mem_cons_of_mem _ hmem, hrest⟩
    | cons m₂ rest =>
      rw [hrun] at hms
      exact ⟨m₁, List.mem_cons_self, m₂, by rw [hrun]; rfl, (List.cons.inj hms).1.symm⟩

omit [Unicode] in
/-- What holds of no iteration, and of one more, holds of every match. -/
theorem iterate_induction {step : Cursor → List Match} {P : Cursor → Match → Prop} (hstop : ∀ c, P c ⟨c, []⟩)
    (hstep : ∀ c, ∀ m ∈ step c, ∀ m', P m.cursor m' → P c ⟨m'.cursor, m.groups ++ m'.groups⟩) {n lo : Nat}
    (h : m ∈ iterate step n lo c) : P c m := by
  induction n generalizing lo c m with
  | zero =>
    rw [iterate] at h
    split at h
    · rw [List.mem_singleton.mp h]
      exact hstop c
    · cases h
  | succ n ih =>
    simp only [iterate, List.mem_append, List.mem_flatMap, List.mem_map] at h
    rcases h with ⟨m₁, hm₁, m₂, hm₂, rfl⟩ | h
    · exact hstep c m₁ (List.mem_of_mem_filter hm₁) m₂ (ih hm₂)
    · split at h
      · rw [List.mem_singleton.mp h]
        exact hstop c
      · cases h

theorem mem_run_opt (h : m ∈ run (opt r) c) : m = ⟨c, []⟩ ∨ m ∈ run r c := by
  simp only [opt, run, Option.getD_some, iterate, if_true, List.mem_append, List.mem_flatMap, List.mem_map, List.mem_singleton] at h
  rcases h with ⟨m₁, hm₁, _, rfl, rfl⟩ | rfl
  · exact .inr (by simpa using List.mem_of_mem_filter hm₁)
  · exact .inl rfl

/-! ## Where a match ends -/

/-- Every match ends at a place with the property. -/
def Leaves (r : Regex) (K : Cursor → Prop) : Prop := ∀ c, ∀ m ∈ run r c, K m.cursor

/-- From a place with the property, every match ends at one. -/
def Keeps (r : Regex) (K : Cursor → Prop) : Prop := ∀ c, K c → ∀ m ∈ run r c, K m.cursor

variable {K : Cursor → Prop}

theorem Leaves.keeps (h : Leaves r K) : Keeps r K := fun c _ => h c

theorem Leaves.seq_right (h : Leaves s K) : Leaves (seq r s) K := fun c m hm => by
  obtain ⟨m₁, -, m₂, hm₂, rfl⟩ := mem_run_seq.1 hm
  exact h _ m₂ hm₂

theorem Leaves.seq_keeps (h : Leaves r K) (hs : Keeps s K) : Leaves (seq r s) K := fun c m hm => by
  obtain ⟨m₁, hm₁, m₂, hm₂, rfl⟩ := mem_run_seq.1 hm
  exact hs _ (h c m₁ hm₁) m₂ hm₂

theorem Leaves.alts {rs : List Regex} (h : ∀ r ∈ rs, Leaves r K) : Leaves (alts rs) K := fun c m hm => by
  obtain ⟨r, hr, hm⟩ := mem_run_alts.1 hm
  exact h r hr c m hm

theorem Keeps.seq (h : Keeps r K) (hs : Keeps s K) : Keeps (seq r s) K := fun c hc m hm => by
  obtain ⟨m₁, hm₁, m₂, hm₂, rfl⟩ := mem_run_seq.1 hm
  exact hs _ (h c hc m₁ hm₁) m₂ hm₂

theorem keeps_empty : Keeps (seqs []) K := fun c hc m hm => by
  rw [mem_run_seqs_nil.1 hm]
  exact hc

theorem keeps_boundary : Keeps boundary K := fun c hc m hm => by
  rw [(mem_run_boundary.1 hm).2]
  exact hc

theorem Keeps.many {lo : Nat} {hi : Option Nat} (h : Keeps r K) : Keeps (many r lo hi) K := fun _ hc _ hm =>
  iterate_induction (P := fun c m => K c → K m.cursor) (fun _ hc => hc) (fun c m₁ hm₁ _ ih hc => ih (h c hc m₁ hm₁)) hm hc

theorem leaves_char (h : ∀ x, p x → q x) : Leaves (char p) fun c => c.before.any q := fun c m hm => by
  obtain ⟨x, rest, -, hx, rfl⟩ := mem_run_char.1 hm
  exact h x hx

/-- Of a word, the last letter is left. -/
theorem leaves_litI {w : String} (hw : w.toList ≠ []) (h : ∀ y ∈ w.toList, ∀ x, Unicode.sameCase y x → q x) :
    Leaves (litI w) fun c => c.before.any q := by
  have hall (l : List Char) (hne : l ≠ []) (hl : ∀ y ∈ l, ∀ x, Unicode.sameCase y x → q x) :
      Leaves (seqs (l.map fun c => char (Unicode.sameCase c))) fun c => c.before.any q := by
    induction l with
    | nil => exact absurd rfl hne
    | cons y l ih =>
      cases l with
      | nil => exact (leaves_char (hl y List.mem_cons_self)).seq_keeps keeps_empty
      | cons z l => exact (ih (List.cons_ne_nil _ _) fun y hy => hl y (List.mem_cons_of_mem _ hy)).seq_right
  exact hall _ hw h

/-- Every match begins before a character with the property. -/
def Enters (r : Regex) (q : Char → Bool) : Prop := ∀ c, ∀ m ∈ run r c, c.rest.head?.any q

theorem enters_char (h : ∀ x, p x → q x) : Enters (char p) q := fun c m hm => by
  obtain ⟨x, rest, hc, hx, -⟩ := mem_run_char.1 hm
  rw [hc]
  exact h x hx

theorem Enters.seq_left (h : Enters r q) : Enters (seq r s) q := fun c m hm => by
  obtain ⟨m₁, hm₁, -⟩ := mem_run_seq.1 hm
  exact h c m₁ hm₁

theorem Enters.boundary_seq (h : Enters r q) : Enters (seq boundary r) q := fun c m hm => by
  obtain ⟨m₁, hm₁, m₂, hm₂, -⟩ := mem_run_seq.1 hm
  rw [(mem_run_boundary.1 hm₁).2] at hm₂
  exact h c m₂ hm₂

theorem Enters.alts {rs : List Regex} (h : ∀ r ∈ rs, Enters r q) : Enters (alts rs) q := fun c m hm => by
  obtain ⟨r, hr, hm⟩ := mem_run_alts.1 hm
  exact h r hr c m hm

/-- Iterations begin like the pattern, or there are none and the rest begins. -/
theorem Enters.many_seq {lo : Nat} {hi : Option Nat} (hr : Enters r q) (hs : Enters s q) : Enters (seq (many r lo hi) s) q := by
  intro c m hm
  obtain ⟨m₁, hm₁, m₂, hm₂, -⟩ := mem_run_seq.1 hm
  have hfirst : m₁.cursor = c ∨ c.rest.head?.any q :=
    iterate_induction (P := fun c m => m.cursor = c ∨ c.rest.head?.any q) (fun c => .inl rfl) (fun c m hm m' _ => .inr (hr c m hm)) hm₁
  rcases hfirst with hsame | hq
  · rw [hsame] at hm₂
    exact hs c m₂ hm₂
  · exact hq

theorem enters_litI {w : String} (hw : w.toList ≠ []) (h : ∀ y ∈ w.toList, ∀ x, Unicode.sameCase y x → q x) : Enters (litI w) q := by
  obtain ⟨y, l, hl⟩ := List.exists_cons_of_ne_nil hw
  unfold litI
  rw [hl]
  exact .seq_left (enters_char (h y (by rw [hl]; exact List.mem_cons_self)))

/-! ## Groups -/

/-- No part of the pattern is a group. -/
def plain : Regex → Bool
  | empty | char _ | start | boundary | notBehind _ => true
  | seq r s | alt r s => r.plain && s.plain
  | many r _ _ => r.plain
  | group _ => false

theorem groups_of_plain (h : r.plain) (hm : m ∈ run r c) : m.groups = [] := by
  induction r generalizing c m with
  | empty => rw [List.mem_singleton.mp hm]
  | char p =>
    obtain ⟨x, rest, -, -, rfl⟩ := mem_run_char.1 hm
    rfl
  | seq r s ihr ihs =>
    rw [plain, Bool.and_eq_true] at h
    obtain ⟨m₁, hm₁, m₂, hm₂, rfl⟩ := mem_run_seq.1 hm
    rw [ihr h.1 hm₁, ihs h.2 hm₂]
    rfl
  | alt r s ihr ihs =>
    rw [plain, Bool.and_eq_true] at h
    exact (mem_run_alt.1 hm).elim (ihr h.1) (ihs h.2)
  | many r lo hi ih =>
    refine iterate_induction (P := fun _ m => m.groups = []) (fun c => rfl) (fun c m₁ hm₁ m₂ hm₂ => ?_) hm
    have hfirst : m₁.groups = [] := ih h hm₁
    rw [hfirst, hm₂]
    rfl
  | start =>
    simp only [run] at hm
    split at hm
    · rw [List.mem_singleton.mp hm]
    · cases hm
  | boundary => rw [(mem_run_boundary.1 hm).2]
  | notBehind p =>
    simp only [run] at hm
    split at hm
    · cases hm
    · rw [List.mem_singleton.mp hm]
  | group r => cases h

/-- A part without groups leaves the first match to the rest. -/
theorem first_plain (hr : r.plain) (h : (run (seq r s) c).head? = some m) :
    ∃ m₁ ∈ run r c, (run s m₁.cursor).head? = some m := by
  obtain ⟨m₁, hm₁, m₂, hm₂, rfl⟩ := first_seq h
  refine ⟨m₁, hm₁, ?_⟩
  rw [hm₂, groups_of_plain hr hm₁]
  rfl

/-! ## Words in a text -/

/-- The word is in the text, with no word character beside it. -/
def WordIn (w : String) (t : List Char) : Prop :=
  ∃ pre post, t = pre ++ (w.toList ++ post) ∧ pre.getLast?.any Unicode.isWord = false ∧ post.head?.any Unicode.isWord = false

variable {ws : List String} {w : String}

/-- A boundary before a word is no word character. -/
theorem isBoundary_before (hw : IsWord w) {rest : List Char} : Cursor.isBoundary ⟨b, w.toList ++ rest⟩ ↔ b.any Unicode.isWord = false := by
  obtain ⟨x, l, hl⟩ := List.exists_cons_of_ne_nil hw.1
  have hx := hw.2 x (by rw [hl]; exact List.mem_cons_self)
  cases hb : b.any Unicode.isWord <;> simp [Cursor.isBoundary, hl, hx, hb]

theorem isBoundary_behind (hw : IsWord w) {rest : List Char} :
    Cursor.isBoundary ⟨w.toList.getLast?.or b, rest⟩ ↔ rest.head?.any Unicode.isWord = false := by
  cases hr : rest.head?.any Unicode.isWord <;> simp [Cursor.isBoundary, hw.getLast? b, hr]

/-- Two words that end where they do are one. -/
theorem eq_of_word {w' : String} {post post' : List Char} (hw : IsWord w) (hw' : IsWord w') (h : w.toList ++ post = w'.toList ++ post')
    (hpost : post.head?.any Unicode.isWord = false) (hpost' : post'.head?.any Unicode.isWord = false) : w = w' := by
  rcases List.append_eq_append_iff.mp h with ⟨a, ha, hrest⟩ | ⟨a, ha, hrest⟩
  · cases a with
    | nil => exact String.toList_injective (by simpa using ha.symm)
    | cons x a =>
      have hx := hw'.2 x (by rw [ha]; simp)
      rw [hrest] at hpost
      simp [hx] at hpost
  · cases a with
    | nil => exact String.toList_injective (by simpa using ha)
    | cons x a =>
      have hx := hw.2 x (by rw [ha]; simp)
      rw [hrest] at hpost'
      simp [hx] at hpost'

theorem mem_run_wordGroup : m ∈ run (wordGroup ws) c ↔ c.isBoundary ∧ ∃ w ∈ ws, ∃ rest, c.rest = w.toList ++ rest ∧
    Cursor.isBoundary ⟨w.toList.getLast?.or c.before, rest⟩ ∧ m = ⟨⟨w.toList.getLast?.or c.before, rest⟩, [w.toList]⟩ := by
  have hbetween {w : String} {rest : List Char} (hrest : c.rest = w.toList ++ rest) :
      between c ⟨w.toList.getLast?.or c.before, rest⟩ = w.toList := by
    simp [between, hrest]
  rw [run_wordGroup, List.mem_map]
  constructor
  · rintro ⟨m', hm', rfl⟩
    obtain ⟨hb, w, hw, rest, hrest, hb', rfl⟩ := mem_run_word.1 hm'
    exact ⟨hb, w, hw, rest, hrest, hb', by rw [hbetween hrest]⟩
  · rintro ⟨hb, w, hw, rest, hrest, hb', rfl⟩
    exact ⟨_, mem_run_word.2 ⟨hb, w, hw, rest, hrest, hb', rfl⟩, by rw [hbetween hrest]⟩

/-- All the words that are in the text are found, and no others. -/
theorem wordIn_iff (h : ∀ w ∈ ws, IsWord w) (hw : w ∈ ws) : WordIn w t ↔ ∃ f ∈ findAll (wordGroup ws) t, f.groups = [w.toList] := by
  constructor
  · rintro ⟨pre, post, rfl, hpre, hpost⟩
    have hmem : ⟨⟨w.toList.getLast?.or (lastOr pre none), post⟩, [w.toList]⟩ ∈ run (wordGroup ws) ⟨lastOr pre none, w.toList ++ post⟩ := by
      refine mem_run_wordGroup.2 ⟨(isBoundary_before (h w hw)).2 ?_, w, hw, post, rfl, (isBoundary_behind (h w hw)).2 hpost, rfl⟩
      rwa [← getLast?_or, Option.or_none]
    cases hm : (run (wordGroup ws) ⟨lastOr pre none, w.toList ++ post⟩).head? with
    | none =>
      rw [List.head?_eq_none_iff.mp hm] at hmem
      cases hmem
    | some m =>
      obtain ⟨-, w', hw', rest, hrest, hb', rfl⟩ := mem_run_wordGroup.1 (List.mem_of_mem_head? hm)
      obtain rfl : w = w' := eq_of_word (h w hw) (h w' hw') hrest hpost ((isBoundary_behind (h w' hw')).1 hb')
      refine exists_mem_findAllFrom (progress_wordGroup h) rfl hm fun b' p hp hlast m' hm' => ?_
      obtain ⟨-, w', hw', rest', hrest', -, rfl⟩ := mem_run_wordGroup.1 hm'
      rcases List.append_eq_append_iff.mp hrest' with ⟨a, ha, -⟩ | ⟨a, -, ha⟩
      · -- a word that goes on into this one would have a word character before it
        have hword := lastOr_any hp (fun x hx => (h w' hw').2 x (by rw [ha]; exact List.mem_append_left _ hx)) b'
        rw [hlast, ← getLast?_or, Option.or_none, hpre] at hword
        cases hword
      · simp [ha]
  · rintro ⟨f, hf, hgroups⟩
    obtain ⟨d, hd, hfirst⟩ := first_of_findAll hf
    obtain ⟨hb, w', hw', rest, hrest, hb', hm⟩ := mem_run_wordGroup.1 (List.mem_of_mem_head? hfirst)
    obtain ⟨pre, ht, hbefore⟩ := later_iff.1 hd
    obtain rfl : w' = w := by
      have hsame : f.groups = [w'.toList] := (Match.mk.inj hm).2
      rw [hgroups] at hsame
      exact String.toList_injective (List.cons.inj hsame).1.symm
    obtain ⟨before, rest'⟩ := d
    cases hrest
    cases hbefore
    exact ⟨pre, rest, ht, (isBoundary_before (h _ hw)).1 hb, (isBoundary_behind (h _ hw)).1 hb'⟩

end

end Regex

end Library
