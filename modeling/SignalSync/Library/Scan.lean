import SignalSync.Library.Words

/-!
# Scanning a known text

The matches of a pattern in a text whose parts are known.

* `Reads`: what the first match at a place reads. With `reads_seq`, `reads_many`, … it is
  composed along the pattern where each part's first match goes on to a match of the rest;
* `Needs`: a fragment that every match reads or comes before, up to case. `find?_eq_none_of_needs`
  refutes a pattern by the fragments of the text;
* `Opens`: a fragment that every match begins with, and `Skips`: no match begins in a part of
  the text;
* `hits_skip`, `hits_reads`, `subFrom_skip`, `subFrom_reads`: what is found, and replaced, part by part.
-/

namespace Library

namespace Regex

/-- The character before a place, once `u` has been read. -/
def lastOr : List Char → Option Char → Option Char
  | [], b => b
  | x :: u, _ => lastOr u (some x)

@[simp] theorem lastOr_nil (b : Option Char) : lastOr [] b = b := rfl

@[simp] theorem lastOr_cons (x : Char) (u : List Char) (b : Option Char) : lastOr (x :: u) b = lastOr u (some x) := rfl

@[simp] theorem lastOr_append (u v : List Char) (b : Option Char) : lastOr (u ++ v) b = lastOr v (lastOr u b) := by
  induction u generalizing b with
  | nil => rfl
  | cons x u ih => exact ih (some x)

theorem getLast?_or (u : List Char) (b : Option Char) : u.getLast?.or b = lastOr u b := by
  induction u generalizing b with
  | nil => rfl
  | cons x u ih =>
    rw [lastOr_cons, ← ih, List.getLast?_cons]
    cases u.getLast? <;> rfl

/-- What ends in a character ends in it. -/
theorem lastOr_any {p : Char → Bool} {u : List Char} (hu : u ≠ []) (h : ∀ x ∈ u, p x) (b : Option Char) : (lastOr u b).any p := by
  rw [← getLast?_or, List.getLast?_eq_some_getLast hu]
  exact h _ (List.getLast_mem hu)

section

variable [Unicode] {r s : Regex} {p : Char → Bool} {b : Option Char} {u u' v w : List Char} {gs gs' : List (List Char)}

/-! ## First matches -/

/-- Before `v`, the first match reads `u`. -/
def Reads (r : Regex) (b : Option Char) (u v : List Char) (gs : List (List Char)) : Prop :=
  (run r ⟨b, u ++ v⟩).head? = some ⟨⟨lastOr u b, v⟩, gs⟩

omit [Unicode] in
theorem between_append : between ⟨b, u ++ v⟩ ⟨lastOr u b, v⟩ = u := by
  simp [between]

theorem reads_char {x : Char} (h : p x) : Reads (char p) b [x] v [] := by
  simp [Reads, run, h]

theorem reads_seq (hr : Reads r b u (u' ++ v) gs) (hs : Reads s (lastOr u b) u' v gs') : Reads (seq r s) b (u ++ u') v (gs ++ gs') := by
  unfold Reads at hr hs ⊢
  obtain ⟨ms, hms⟩ := List.head?_eq_some_iff.mp hr
  obtain ⟨ms', hms'⟩ := List.head?_eq_some_iff.mp hs
  rw [List.append_assoc, run, hms, List.flatMap_cons, hms', lastOr_append]
  rfl

theorem reads_seqs_cons {rs : List Regex} {t : List Char} (hr : Reads r b u (t ++ v) gs) (hs : Reads (seqs rs) (lastOr u b) t v gs') :
    Reads (seqs (r :: rs)) b (u ++ t) v (gs ++ gs') := reads_seq hr hs

theorem reads_seqs_nil : Reads (seqs []) b [] v [] := rfl

theorem reads_seqs_one (h : Reads r b u v gs) : Reads (seqs [r]) b u v gs := by
  have hread := reads_seqs_cons (t := []) h reads_seqs_nil
  rwa [List.append_nil, List.append_nil] at hread

theorem reads_alt_left (h : Reads r b u v gs) : Reads (alt r s) b u v gs := by
  unfold Reads at h ⊢
  rw [run, List.head?_append, h]
  rfl

theorem reads_alt_right (hr : run r ⟨b, u ++ v⟩ = []) (h : Reads s b u v gs) : Reads (alt r s) b u v gs := by
  unfold Reads at h ⊢
  rw [run, hr, List.nil_append, h]

theorem reads_alts_head {rs : List Regex} (h : Reads r b u v gs) : Reads (alts (r :: rs)) b u v gs := reads_alt_left h

theorem reads_alts_tail {rs : List Regex} (hr : run r ⟨b, u ++ v⟩ = []) (h : Reads (alts rs) b u v gs) :
    Reads (alts (r :: rs)) b u v gs := reads_alt_right hr h

theorem reads_group (h : Reads r b u v gs) : Reads (group r) b u v (gs ++ [u]) := by
  unfold Reads at h ⊢
  rw [run, List.head?_map, h, Option.map_some, between_append]

theorem reads_boundary (h : Cursor.isBoundary ⟨b, v⟩) : Reads boundary b [] v [] := by
  simp [Reads, run, h]

omit [Unicode] in
theorem length_le_length_flatten {us : List (List Char)} (h : ∀ u ∈ us, u ≠ []) : us.length ≤ us.flatten.length := by
  induction us with
  | nil => exact Nat.le_refl _
  | cons u us ih =>
    have hpos := List.length_pos_iff.mpr (h u List.mem_cons_self)
    have hrest := ih fun u' hu' => h u' (List.mem_cons_of_mem _ hu')
    rw [List.flatten_cons, List.length_append, List.length_cons]
    omega

theorem head?_iterate {us : List (List Char)} {n lo : Nat} (h : ∀ u ∈ us, u ≠ [] ∧ ∀ b v, Reads r b u v [])
    (hlo : lo ≤ us.length) (hn : us.length ≤ n) (hstop : run r ⟨lastOr us.flatten b, v⟩ = [] ∨ n = us.length) :
    (iterate (fun c => run r c) n lo ⟨b, us.flatten ++ v⟩).head? = some ⟨⟨lastOr us.flatten b, v⟩, []⟩ := by
  induction us generalizing n lo b with
  | nil =>
    obtain rfl : lo = 0 := Nat.le_zero.mp hlo
    cases n with
    | zero => rfl
    | succ n =>
      have hnil : run r ⟨b, v⟩ = [] := hstop.resolve_right (Nat.succ_ne_zero n)
      simp [iterate, hnil]
  | cons u us ih =>
    rw [List.length_cons] at hlo hn
    obtain ⟨n, rfl⟩ : ∃ n', n = n' + 1 := ⟨n - 1, by omega⟩
    obtain ⟨hu, hread⟩ := h u List.mem_cons_self
    have hfirst : (run r ⟨b, u ++ (us.flatten ++ v)⟩).head? = _ := hread b (us.flatten ++ v)
    obtain ⟨ms, hms⟩ := List.head?_eq_some_iff.mp hfirst
    have hrest : (iterate (fun c => run r c) n (lo - 1) ⟨lastOr u b, us.flatten ++ v⟩).head? =
        some ⟨⟨lastOr us.flatten (lastOr u b), v⟩, []⟩ :=
      ih (fun u' hu' => h u' (List.mem_cons_of_mem _ hu')) (by omega) (by omega) (hstop.imp (by simp) (by simp))
    obtain ⟨ms', hms'⟩ := List.head?_eq_some_iff.mp hrest
    have hlt : (us.flatten ++ v).length < (u ++ (us.flatten ++ v)).length := by
      have hpos := List.length_pos_iff.mpr hu
      simp only [List.length_append]
      omega
    rw [List.flatten_cons, List.append_assoc, iterate, hms, List.filter_cons_of_pos (by simpa using hlt), List.flatMap_cons, hms']
    simp

/-- Iterations of the pattern, each reading one of `us`; then it fails, or there have been
enough. -/
theorem reads_many {us : List (List Char)} {lo : Nat} {hi : Option Nat} (h : ∀ u ∈ us, u ≠ [] ∧ ∀ b v, Reads r b u v [])
    (hlo : lo ≤ us.length) (hhi : ∀ n ∈ hi, us.length ≤ n)
    (hstop : run r ⟨lastOr us.flatten b, v⟩ = [] ∨ hi = some us.length) : Reads (many r lo hi) b us.flatten v [] := by
  unfold Reads
  rw [run]
  refine head?_iterate h hlo ?_ ?_
  · cases hi with
    | some n => exact hhi n rfl
    | none =>
      have hlen := length_le_length_flatten fun u hu => (h u hu).1
      rw [Option.getD_none, List.length_append]
      omega
  · cases hi with
    | some n => exact hstop.imp id (by simp)
    | none => exact .inl (hstop.resolve_right (by simp))

/-- A run of characters that the next one does not go on with. -/
theorem reads_many_char {lo : Nat} {hi : Option Nat} (h : ∀ x ∈ u, p x) (hlo : lo ≤ u.length) (hhi : ∀ n ∈ hi, u.length ≤ n)
    (hstop : v.head?.any p = false ∨ hi = some u.length) : Reads (many (char p) lo hi) b u v [] := by
  have hus : (u.map fun x => [x]).flatten = u := by rw [← List.flatMap_def, List.flatMap_singleton']
  have hread : Reads (many (char p) lo hi) b (u.map fun x => [x]).flatten v [] := by
    refine reads_many (fun w hw => ?_) (by simpa using hlo) (by simpa using hhi) ?_
    · obtain ⟨x, hx, rfl⟩ := List.mem_map.mp hw
      exact ⟨by simp, fun _ _ => reads_char (h x hx)⟩
    · rw [List.length_map]
      refine hstop.imp (fun hv => ?_) id
      cases v with
      | nil => rfl
      | cons y v => simpa [run] using hv
  rwa [hus] at hread

theorem exists_mem_of_many {lo : Nat} {hi : Option Nat} (hlo : 0 < lo) {c : Cursor} {m : Match} (h : m ∈ run (many r lo hi) c) :
    ∃ m', m' ∈ run r c := by
  rw [run] at h
  cases hn : hi.getD c.rest.length with
  | zero => simp [hn, iterate, hlo.ne'] at h
  | succ n =>
    simp only [hn, iterate, hlo.ne', if_false, List.append_nil, List.mem_flatMap] at h
    obtain ⟨m', hm', -⟩ := h
    exact ⟨m', List.mem_of_mem_filter hm'⟩

theorem reads_opt (hu : u ≠ []) (h : Reads r b u v gs) : Reads (opt r) b u v gs := by
  unfold Reads at h ⊢
  obtain ⟨ms, hms⟩ := List.head?_eq_some_iff.mp h
  have hlt : v.length < (u ++ v).length := by
    have hpos := List.length_pos_iff.mpr hu
    rw [List.length_append]
    omega
  rw [opt, run, Option.getD_some, iterate, hms, List.filter_cons_of_pos (by simpa using hlt), List.flatMap_cons]
  simp [iterate]

theorem reads_opt_nil (h : run r ⟨b, v⟩ = []) : Reads (opt r) b [] v [] := by
  simp [Reads, opt, run, iterate, h]

/-- One character after the other. -/
theorem reads_chars {ps : List (Char → Bool)} (h : List.Forall₂ (fun p x => p x) ps u) : Reads (seqs (ps.map char)) b u v [] := by
  induction h generalizing b with
  | nil => exact reads_seqs_nil
  | cons hx _ ih => exact reads_seqs_cons (u := [_]) (reads_char hx) ih

theorem reads_lit (w : String) : Reads (lit w) b w.toList v [] := by
  have hlit : lit w = seqs ((w.toList.map fun c x => decide (x = c)).map char) := by
    rw [lit, List.map_map]
    rfl
  rw [hlit]
  refine reads_chars (List.forall₂_map_left_iff.mpr (List.forall₂_same.mpr fun x _ => ?_))
  simp

/-! ## Fragments -/

/-- Each match in an ASCII text comes before one of the fragments or reads it, up to case. -/
def Needs (r : Regex) (fs : List String) : Prop :=
  ∀ c, (∀ x ∈ c.rest, x.toNat < 128) → ∀ m ∈ run r c, ∃ f ∈ fs, f.toList <:+: c.rest.map Char.toUpper

/-- Each match in an ASCII text begins with one of the fragments, up to case. -/
def Opens (r : Regex) (fs : List String) : Prop :=
  ∀ c, (∀ x ∈ c.rest, x.toNat < 128) → ∀ m ∈ run r c, ∃ f ∈ fs, f.toList <+: c.rest.map Char.toUpper

variable {fs : List String}

theorem find?_eq_none_of_needs (h : Needs r fs) {t : List Char} (ht : ∀ x ∈ t, x.toNat < 128)
    (hf : ∀ f ∈ fs, ¬ f.toList <:+: t.map Char.toUpper) : find? r b t = none := by
  refine find?_eq_none.2 fun d ⟨pre, hp, _⟩ => List.eq_nil_iff_forall_not_mem.mpr fun m hm => ?_
  have hsuffix : d.rest <:+ t := ⟨pre, hp.symm⟩
  obtain ⟨f, hmem, hwithin⟩ := h d (fun x hx => ht x (hsuffix.subset hx)) m hm
  exact hf f hmem (hwithin.trans (hsuffix.isInfix.map Char.toUpper))

theorem run_eq_nil_of_opens {l : List String} (h : Opens r l) {c : Cursor} (hc : ∀ x ∈ c.rest, x.toNat < 128)
    (hf : ∀ f ∈ l, ¬ f.toList <+: c.rest.map Char.toUpper) : run r c = [] :=
  List.eq_nil_iff_forall_not_mem.mpr fun m hm => by
    obtain ⟨f, hmem, hprefix⟩ := h c hc m hm
    exact hf f hmem hprefix

theorem Opens.needs (h : Opens r fs) : Needs r fs := fun c hc m hm => by
  obtain ⟨f, hmem, hprefix⟩ := h c hc m hm
  exact ⟨f, hmem, hprefix.isInfix⟩

theorem Needs.seq_left (h : Needs r fs) : Needs (seq r s) fs := fun c hc m hm => by
  obtain ⟨m₁, hm₁, -⟩ := mem_run_seq.1 hm
  exact h c hc m₁ hm₁

theorem Needs.seq_right (h : Needs s fs) : Needs (seq r s) fs := fun c hc m hm => by
  obtain ⟨m₁, hm₁, m₂, hm₂, -⟩ := mem_run_seq.1 hm
  obtain ⟨pre, hp, -⟩ := later_of_run hm₁
  have hsuffix : m₁.cursor.rest <:+ c.rest := ⟨pre, hp.symm⟩
  obtain ⟨f, hmem, hwithin⟩ := h m₁.cursor (fun x hx => hc x (hsuffix.subset hx)) m₂ hm₂
  exact ⟨f, hmem, hwithin.trans (hsuffix.isInfix.map Char.toUpper)⟩

theorem Needs.alts {rs : List Regex} (h : ∀ r ∈ rs, Needs r fs) : Needs (alts rs) fs := fun c hc m hm => by
  obtain ⟨r, hr, hm⟩ := mem_run_alts.1 hm
  exact h r hr c hc m hm

theorem Needs.group (h : Needs r fs) : Needs (group r) fs := fun c hc m hm => by
  obtain ⟨m', hm', -⟩ := mem_run_group.1 hm
  exact h c hc m' hm'

theorem Opens.seq_left (h : Opens r fs) : Opens (seq r s) fs := fun c hc m hm => by
  obtain ⟨m₁, hm₁, -⟩ := mem_run_seq.1 hm
  exact h c hc m₁ hm₁

theorem Opens.boundary_seq (h : Opens r fs) : Opens (seq boundary r) fs := fun c hc m hm => by
  obtain ⟨m₁, hm₁, m₂, hm₂, -⟩ := mem_run_seq.1 hm
  obtain ⟨-, rfl⟩ := mem_run_boundary.1 hm₁
  exact h c hc m₂ hm₂

theorem Opens.alts {rs : List Regex} (h : ∀ r ∈ rs, Opens r fs) : Opens (alts rs) fs := fun c hc m hm => by
  obtain ⟨r, hr, hm⟩ := mem_run_alts.1 hm
  exact h r hr c hc m hm

theorem needs_lit {w : String} (h : ∃ f ∈ fs, f.toList <:+: w.toList.map Char.toUpper) : Needs (lit w) fs := fun c _ m hm => by
  obtain ⟨rest, hc, -⟩ := mem_run_lit.1 hm
  obtain ⟨f, hmem, hf⟩ := h
  refine ⟨f, hmem, ?_⟩
  rw [hc, List.map_append]
  exact List.infix_append_of_infix_left hf

theorem needs_anyOf {ws : List String} (h : ∀ w ∈ ws, ∃ f ∈ fs, f.toList <:+: w.toList.map Char.toUpper) : Needs (anyOf ws) fs :=
  .alts fun r hr => by
    obtain ⟨w, hw, rfl⟩ := List.mem_map.mp hr
    exact needs_lit (h w hw)

theorem needs_word {ws : List String} (h : ∀ w ∈ ws, ∃ f ∈ fs, f.toList <:+: w.toList.map Char.toUpper) : Needs (word ws) fs :=
  (needs_anyOf h).seq_left.seq_right

/-! ## Text up to case -/

omit [Unicode] in
instance (w : String) : Decidable (IsAscii w) := decidableLetters (fun x => x.toNat < 128) w.toList

omit [Unicode] in
theorem ascii_induction {P : Char → Prop} (h : ∀ n < 128, P (Char.ofNat n)) {x : Char} (hx : x.toNat < 128) : P x := by
  rw [← Char.ofNat_toNat x]
  exact h _ hx

omit [Unicode] in
theorem toUpper_eq_of_toLower_eq {x y : Char} (hx : x.toNat < 128) (hy : y.toNat < 128) (h : x.toLower = y.toLower) :
    x.toUpper = y.toUpper := by
  have hback {z : Char} (hz : z.toNat < 128) : z.toLower.toUpper = z.toUpper :=
    ascii_induction (P := fun z => z.toLower.toUpper = z.toUpper) (by decide) hz
  rw [← hback hx, ← hback hy, h]

theorem mem_run_litI {w : String} (hw : IsAscii w) {c : Cursor} (hc : ∀ x ∈ c.rest, x.toNat < 128) {m : Match}
    (hm : m ∈ run (litI w) c) : ∃ pre rest, c.rest = pre ++ rest ∧ pre.map Char.toUpper = w.toList.map Char.toUpper := by
  have hlit : litI w = seqs ((w.toList.map Unicode.sameCase).map char) := by
    rw [litI, List.map_map]
    rfl
  rw [hlit] at hm
  obtain ⟨pre, rest, hrest, hpre, -⟩ := mem_run_chars.1 hm
  refine ⟨pre, rest, hrest, ?_⟩
  have hascii : ∀ x ∈ pre, x.toNat < 128 := fun x hx => hc x (hrest ▸ List.mem_append_left _ hx)
  have hsame := List.forall₂_map_left_iff.mp hpre
  clear hm hpre hrest hlit
  unfold IsAscii at hw
  generalize w.toList = ws at hw hsame
  induction hsame with
  | nil => rfl
  | @cons y x ys pre hyx _ ih =>
    have hy := hw y List.mem_cons_self
    have hx := hascii x List.mem_cons_self
    rw [Unicode.sameCase_ascii hy hx, decide_eq_true_eq] at hyx
    rw [List.map_cons, List.map_cons, toUpper_eq_of_toLower_eq hy hx hyx]
    exact congrArg _ (ih (fun z hz => hascii z (List.mem_cons_of_mem _ hz)) fun z hz => hw z (List.mem_cons_of_mem _ hz))

theorem opens_litI {w : String} (hw : IsAscii w) (h : ∃ f ∈ fs, f.toList <+: w.toList.map Char.toUpper) : Opens (litI w) fs :=
  fun c hc m hm => by
    obtain ⟨pre, rest, hrest, hpre⟩ := mem_run_litI hw hc hm
    obtain ⟨f, hmem, hf⟩ := h
    refine ⟨f, hmem, ?_⟩
    rw [hrest, List.map_append, hpre]
    exact hf.trans (List.prefix_append _ _)

theorem needs_litI {w : String} (hw : IsAscii w) (h : ∃ f ∈ fs, f.toList <:+: w.toList.map Char.toUpper) : Needs (litI w) fs :=
  fun c hc m hm => by
    obtain ⟨pre, rest, hrest, hpre⟩ := mem_run_litI hw hc hm
    obtain ⟨f, hmem, hf⟩ := h
    refine ⟨f, hmem, ?_⟩
    rw [hrest, List.map_append, hpre]
    exact List.infix_append_of_infix_left hf

theorem reads_litI {w : String} (hw : IsAscii w) : Reads (litI w) b w.toList v [] := by
  have hlit : litI w = seqs ((w.toList.map Unicode.sameCase).map char) := by
    rw [litI, List.map_map]
    rfl
  rw [hlit]
  refine reads_chars (List.forall₂_map_left_iff.mpr (List.forall₂_same.mpr fun x hx => ?_))
  rw [Unicode.sameCase_ascii (hw x hx) (hw x hx)]
  simp

/-! ## Scanning -/

/-- No match begins in `u`, where `v` comes after it. -/
def Skips (r : Regex) (b : Option Char) : List Char → List Char → Prop
  | [], _ => True
  | x :: u, v => run r ⟨b, x :: (u ++ v)⟩ = [] ∧ Skips r (some x) u v

theorem skips_of_opens (h : Opens r fs) (ht : ∀ y ∈ u ++ v, y.toNat < 128) (hv : ∀ x ∈ v.head?, ∀ f ∈ fs, x.toUpper ∉ f.toList)
    (hf : ∀ f ∈ fs, ¬ f.toList <:+: u.map Char.toUpper) : Skips r b u v := by
  induction u generalizing b with
  | nil => trivial
  | cons x u ih =>
    refine ⟨run_eq_nil_of_opens h ht fun f hmem hprefix => ?_, ih (fun y hy => ht y (List.mem_cons_of_mem _ hy)) fun f hmem hwithin =>
      hf f hmem (hwithin.trans (List.suffix_cons _ _).isInfix)⟩
    refine hf f hmem (List.IsPrefix.isInfix ?_)
    rw [← List.cons_append, List.map_append] at hprefix
    -- the fragment does not go on into `v`
    rcases List.prefix_or_prefix_of_prefix hprefix (List.prefix_append _ _) with h' | ⟨t, htext⟩
    · exact h'
    · rw [← htext] at hprefix ⊢
      cases t with
      | nil => simp
      | cons y t =>
        obtain ⟨t', ht'⟩ := hprefix
        rw [List.append_assoc, List.append_cancel_left_eq] at ht'
        cases v with
        | nil => cases ht'
        | cons z v =>
          obtain ⟨rfl, -⟩ := List.cons.inj ht'
          exact absurd (htext ▸ List.mem_append_right _ List.mem_cons_self) (hv z rfl f hmem)

theorem skips_char (h : Opens r fs) {x : Char} (ht : ∀ y ∈ x :: v, y.toNat < 128)
    (hx : ∀ f ∈ fs, f.toList ≠ [] ∧ x.toUpper ∉ f.toList) : Skips r b [x] v := by
  refine ⟨run_eq_nil_of_opens h ht fun f hmem hprefix => ?_, trivial⟩
  obtain ⟨hne, hnot⟩ := hx f hmem
  obtain ⟨y, l, hl⟩ := List.exists_cons_of_ne_nil hne
  rw [hl] at hprefix hnot
  obtain ⟨rfl, -⟩ := List.cons_prefix_cons.mp hprefix
  exact hnot List.mem_cons_self

theorem Skips.append {w : List Char} (hu : Skips r b u (w ++ v)) (hw : Skips r (lastOr u b) w v) : Skips r b (u ++ w) v := by
  induction u generalizing b with
  | nil => exact hw
  | cons x u ih =>
    refine ⟨?_, ih hu.2 hw⟩
    have hrun := hu.1
    rwa [← List.append_assoc] at hrun

theorem find?_skip (h : Skips r b u v) :
    find? r b (u ++ v) = (find? r (lastOr u b) v).map fun f => { f with skipped := u ++ f.skipped } := by
  induction u generalizing b with
  | nil =>
    rw [List.nil_append, lastOr_nil]
    cases find? r b v <;> rfl
  | cons x u ih =>
    rw [List.cons_append, find?, h.1, List.head?_nil]
    simp only [ih h.2, Option.map_map, lastOr_cons]
    rfl

theorem find?_reads (h : Reads r b u v gs) : find? r b (u ++ v) = some ⟨[], u, gs, ⟨lastOr u b, v⟩⟩ := by
  have hbetween : between ⟨b, u ++ v⟩ ⟨lastOr u b, v⟩ = u := between_append
  cases ht : u ++ v with
  | nil =>
    obtain ⟨rfl, rfl⟩ := List.append_eq_nil_iff.mp ht
    unfold Reads at h
    rw [List.nil_append] at h
    rw [find?, h]
    rfl
  | cons x t =>
    unfold Reads at h
    rw [ht] at h hbetween
    rw [find?, h]
    simp only [hbetween]

theorem search_reads (hs : Skips r none u (u' ++ v)) (h : Reads r (lastOr u none) u' v gs) :
    search r (u ++ (u' ++ v)) = some ⟨u, u', gs, ⟨lastOr (u ++ u') none, v⟩⟩ := by
  rw [search, find?_skip hs, find?_reads h]
  simp

theorem hits_skip (hr : r.Progress) (h : Skips r b u v) : hits r ⟨b, u ++ v⟩ = hits r ⟨lastOr u b, v⟩ := by
  rw [hits_eq hr, hits_eq hr, find?_skip h]
  cases find? r (lastOr u b) v <;> rfl

theorem hits_reads (hr : r.Progress) (h : Reads r b u v gs) : hits r ⟨b, u ++ v⟩ = (u, gs) :: hits r ⟨lastOr u b, v⟩ := by
  rw [hits_eq hr, find?_reads h]
  rfl

theorem findAll_eq_nil {t : List Char} (h : search r t = none) : findAll r t = [] := by
  unfold findAll
  cases t.length with
  | zero => rfl
  | succ n =>
    rw [findAllFrom]
    simp only [show find? r none t = none from h]

/-- What `sub` makes of the text from a place on. -/
def subFrom (r : Regex) (replacement : List Char) (c : Cursor) : List Char :=
  let found := findAllFrom r c.rest.length c
  found.flatMap (fun f => f.skipped ++ replacement) ++ (found.getLast?.elim c.rest fun f => f.after.rest)

theorem sub_eq_subFrom (r : Regex) (replacement t : List Char) : sub r replacement t = subFrom r replacement ⟨none, t⟩ := rfl

theorem subFrom_eq (hr : r.Progress) (replacement t : List Char) : subFrom r replacement ⟨b, t⟩ =
    (find? r b t).elim t fun f => f.skipped ++ (replacement ++ subFrom r replacement f.after) := by
  have hfound := findAllFrom_eq hr b t
  unfold subFrom
  simp only [hfound]
  cases find? r b t with
  | none => rfl
  | some f =>
    simp only [Option.elim_some, List.flatMap_cons, List.append_assoc, List.getLast?_cons]
    cases (findAllFrom r f.after.rest.length f.after).getLast? <;> rfl

theorem subFrom_skip (hr : r.Progress) {replacement : List Char} (h : Skips r b u v) :
    subFrom r replacement ⟨b, u ++ v⟩ = u ++ subFrom r replacement ⟨lastOr u b, v⟩ := by
  rw [subFrom_eq hr, subFrom_eq hr, find?_skip h]
  cases find? r (lastOr u b) v <;> simp

theorem subFrom_reads (hr : r.Progress) {replacement : List Char} (h : Reads r b u v gs) :
    subFrom r replacement ⟨b, u ++ v⟩ = replacement ++ subFrom r replacement ⟨lastOr u b, v⟩ := by
  rw [subFrom_eq hr, find?_reads h]
  rfl

theorem Progress.seq_left (h : r.Progress) : (seq r s).Progress := fun c m hm => by
  obtain ⟨m₁, hm₁, m₂, hm₂, rfl⟩ := mem_run_seq.1 hm
  exact Nat.lt_of_le_of_lt (later_of_run hm₂).length_le (h c m₁ hm₁)

theorem Progress.seq_right (h : s.Progress) : (seq r s).Progress := fun c m hm => by
  obtain ⟨m₁, hm₁, m₂, hm₂, rfl⟩ := mem_run_seq.1 hm
  exact Nat.lt_of_lt_of_le (h m₁.cursor m₂ hm₂) (later_of_run hm₁).length_le

theorem Progress.alts {rs : List Regex} (h : ∀ r ∈ rs, r.Progress) : (alts rs).Progress := fun c m hm => by
  obtain ⟨r, hr, hm⟩ := mem_run_alts.1 hm
  exact h r hr c m hm

theorem progress_char : (char p).Progress := fun c m hm => by
  obtain ⟨x, rest, hc, -, rfl⟩ := mem_run_char.1 hm
  rw [hc]
  exact Nat.lt_succ_self _

theorem progress_litI {w : String} (hw : w.toList ≠ []) : (litI w).Progress := fun c m hm => by
  have hlit : litI w = seqs ((w.toList.map Unicode.sameCase).map char) := by
    rw [litI, List.map_map]
    rfl
  rw [hlit] at hm
  obtain ⟨pre, rest, hrest, hpre, rfl⟩ := mem_run_chars.1 hm
  have hlen := hpre.length_eq
  have hpos := List.length_pos_iff.mpr hw
  rw [List.length_map] at hlen
  rw [hrest, List.length_append]
  show rest.length < _
  omega

omit [Unicode] in
theorem avoids_alts {rs : List Regex} {x : Char} (h : ∀ r ∈ rs, r.Avoids x) : (alts rs).Avoids x := by
  induction rs with
  | nil => rfl
  | cons r rs ih => exact ⟨h r List.mem_cons_self, ih fun r' hr' => h r' (List.mem_cons_of_mem _ hr')⟩

omit [Unicode] in
theorem avoids_chars {l : List Char} {x : Char} (h : x ∉ l) : (seqs (l.map fun c => char (· = c))).Avoids x := by
  induction l with
  | nil => trivial
  | cons y l ih => exact ⟨decide_eq_false fun he => h (he ▸ List.mem_cons_self), ih fun hx => h (List.mem_cons_of_mem _ hx)⟩

omit [Unicode] in
theorem avoids_wordGroup {ws : List String} {x : Char} (h : ∀ w ∈ ws, x ∉ w.toList) : (wordGroup ws).Avoids x := by
  refine ⟨trivial, avoids_alts fun r hr => ?_, trivial, trivial⟩
  obtain ⟨w, hw, rfl⟩ := List.mem_map.mp hr
  exact avoids_chars (h w hw)

/-! ## Characters that a match reads -/

/-- Each match comes before a character that satisfies the condition. -/
def Uses (r : Regex) (p : Char → Bool) : Prop := ∀ c, ∀ m ∈ run r c, ∃ x ∈ c.rest, p x

variable {q : Char → Bool}

theorem find?_eq_none_of_uses (h : Uses r q) {t : List Char} (ht : ∀ x ∈ t, q x = false) : find? r b t = none := by
  refine find?_eq_none.2 fun d ⟨pre, hp, _⟩ => List.eq_nil_iff_forall_not_mem.mpr fun m hm => ?_
  obtain ⟨x, hx, hq⟩ := h d m hm
  have hmem : x ∈ t := by
    rw [show t = pre ++ d.rest from hp]
    exact List.mem_append_right _ hx
  rw [ht x hmem] at hq
  cases hq

theorem uses_char (h : ∀ x, p x → q x) : Uses (char p) q := fun c m hm => by
  obtain ⟨x, rest, hc, hx, -⟩ := mem_run_char.1 hm
  exact ⟨x, by rw [hc]; exact List.mem_cons_self, h x hx⟩

theorem Uses.seq_left (h : Uses r q) : Uses (seq r s) q := fun c m hm => by
  obtain ⟨m₁, hm₁, -⟩ := mem_run_seq.1 hm
  exact h c m₁ hm₁

theorem Uses.seq_right (h : Uses s q) : Uses (seq r s) q := fun c m hm => by
  obtain ⟨m₁, hm₁, m₂, hm₂, -⟩ := mem_run_seq.1 hm
  obtain ⟨pre, hp, -⟩ := later_of_run hm₁
  obtain ⟨x, hx, hq⟩ := h m₁.cursor m₂ hm₂
  exact ⟨x, by rw [hp]; exact List.mem_append_right _ hx, hq⟩

theorem Uses.alts {rs : List Regex} (h : ∀ r ∈ rs, Uses r q) : Uses (alts rs) q := fun c m hm => by
  obtain ⟨r, hr, hm⟩ := mem_run_alts.1 hm
  exact h r hr c m hm

theorem Uses.many {lo : Nat} {hi : Option Nat} (hlo : 0 < lo) (h : Uses r q) : Uses (many r lo hi) q := fun c m hm => by
  obtain ⟨m', hm'⟩ := exists_mem_of_many hlo hm
  exact h c m' hm'

/-- What is found leaves out nothing but what it reads. -/
theorem subset_of_find? {t : List Char} {f : Found} (h : find? r b t = some f) : f.skipped ⊆ t ∧ f.after.rest ⊆ t := by
  induction t generalizing b f with
  | nil =>
    obtain ⟨m, hm, rfl⟩ := Option.map_eq_some_iff.mp h
    obtain ⟨pre, hp, -⟩ := later_of_run (List.mem_of_mem_head? hm)
    exact ⟨fun x hx => hx, fun x hx => by rw [show ([] : List Char) = _ from hp]; exact List.mem_append_right _ hx⟩
  | cons y t ih =>
    simp only [find?] at h
    split at h
    · rename_i m hm
      cases h
      obtain ⟨pre, hp, -⟩ := later_of_run (List.mem_of_mem_head? hm)
      exact ⟨List.nil_subset _, fun x hx => by rw [show y :: t = _ from hp]; exact List.mem_append_right _ hx⟩
    · obtain ⟨f, hf, rfl⟩ := Option.map_eq_some_iff.mp h
      obtain ⟨hs, ha⟩ := ih hf
      exact ⟨List.cons_subset_cons y hs, fun x hx => List.mem_cons_of_mem _ (ha hx)⟩

theorem subset_of_findAllFrom {n : Nat} {c : Cursor} {f : Found} (h : f ∈ findAllFrom r n c) :
    f.skipped ⊆ c.rest ∧ f.after.rest ⊆ c.rest := by
  induction n generalizing c with
  | zero => cases h
  | succ n ih =>
    rw [findAllFrom] at h
    split at h
    · rename_i f' hf'
      have hsub := subset_of_find? hf'
      rcases List.mem_cons.mp h with rfl | h
      · exact hsub
      · obtain ⟨hs, ha⟩ := ih h
        exact ⟨fun x hx => hsub.2 (hs hx), fun x hx => hsub.2 (ha hx)⟩
    · cases h

theorem mem_sub {replacement t : List Char} {x : Char} (h : x ∈ sub r replacement t) : x ∈ t ∨ x ∈ replacement := by
  rw [sub, List.mem_append, List.mem_flatMap] at h
  rcases h with ⟨f, hf, hx⟩ | hx
  · exact (List.mem_append.mp hx).imp (fun hx => (subset_of_findAllFrom hf).1 hx) id
  · cases hl : (findAll r t).getLast? with
    | none =>
      rw [hl] at hx
      exact .inl hx
    | some f =>
      rw [hl] at hx
      exact .inl ((subset_of_findAllFrom (List.mem_of_getLast? hl)).2 hx)

end

end Regex

end Library
