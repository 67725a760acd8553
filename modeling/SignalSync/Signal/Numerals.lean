import SignalSync.Library.Captures
import SignalSync.Signal.Parser

/-!
# The numerals of a text

A numeral is a run of digits with commas or dots between digits. `_NUMBER` reads less than that:
commas before groups of three digits, and one dot.

* `exists_numeral`: a digit begins a numeral that does not go on;
* `mem_run_number`: what `_NUMBER` can read;
* `reads_written`: what it reads first, where the numeral is one of its own;
* `reads_standing`: what it reads begins a numeral of the text.
-/

namespace SignalSync

open Library Regex

namespace Parser

section

variable [Unicode]

/-- What is known of the digits of the tables: they are alphanumeric, no letter is one in
another case, and neither is a dash. -/
class LawfulDigits : Prop where
  isAlnum_of_decimal {x : Char} : (Unicode.decimal x).isSome → Unicode.isAlnum x
  decimal_of_sameCase {x y : Char} : x.isAlpha → Unicode.sameCase x y → Unicode.decimal y = none
  decimal_dash : Unicode.decimal '\u2013' = none ∧ Unicode.decimal '\u2014' = none

def isDecimal (x : Char) : Bool := (Unicode.decimal x).isSome

def isSeparator (x : Char) : Bool := x = ',' || x = '.'

/-- Digits, with commas or dots between them. -/
def isNumeralText : List Char → Bool
  | [] => false
  | [x] => isDecimal x
  | x :: y :: n => isDecimal x && (isNumeralText (y :: n) || isSeparator y && isNumeralText n)

/-- A numeral goes on here. -/
def goesOn : List Char → Bool
  | [] => false
  | x :: v => isDecimal x || isSeparator x && v.head?.any isDecimal

/-- `n` is a whole numeral of the text, behind `front`. -/
structure Stands (t front n post : List Char) : Prop where
  text : t = front ++ (n ++ post)
  numeral : isNumeralText n
  starts : goesOn front.reverse = false
  ends : goesOn post = false

variable {t front n post u v : List Char} {x : Char} {b : Option Char} {c : Cursor} {m : Match}

/-! ## Numerals -/

theorem isNumeralText_cons (h : isNumeralText n) : ∃ x u, n = x :: u ∧ isDecimal x := by
  cases n with
  | nil => cases h
  | cons x u =>
    refine ⟨x, u, rfl, ?_⟩
    cases u with
    | nil => exact h
    | cons y u =>
      rw [isNumeralText, Bool.and_eq_true] at h
      exact h.1

/-- A numeral ends in a digit. -/
theorem isNumeralText_last (h : isNumeralText n) (b : Option Char) : (lastOr n b).any isDecimal := by
  induction n using isNumeralText.induct generalizing b with
  | case1 => cases h
  | case2 x => exact h
  | case3 x y n ih₁ ih₂ =>
    rw [isNumeralText, Bool.and_eq_true, Bool.or_eq_true, Bool.and_eq_true] at h
    rcases h.2 with h | ⟨-, h⟩
    · exact ih₁ h (some x)
    · exact ih₂ h (some y)

theorem isNumeralText_of_digits (hne : u ≠ []) (h : ∀ x ∈ u, isDecimal x) : isNumeralText u := by
  induction u with
  | nil => exact absurd rfl hne
  | cons x u ih =>
    cases u with
    | nil => exact h x List.mem_cons_self
    | cons y u =>
      rw [isNumeralText, h x List.mem_cons_self, ih (List.cons_ne_nil _ _) fun z hz => h z (List.mem_cons_of_mem _ hz)]
      rfl

/-- A numeral goes on with a separator and another. -/
theorem isNumeralText_append {y : Char} (hu : isNumeralText u) (hy : isSeparator y) (hv : isNumeralText v) :
    isNumeralText (u ++ y :: v) := by
  induction u using isNumeralText.induct with
  | case1 => cases hu
  | case2 x =>
    rw [isNumeralText] at hu
    simp [isNumeralText, hu, hy, hv]
  | case3 x z n ih₁ ih₂ =>
    rw [isNumeralText, Bool.and_eq_true, Bool.or_eq_true, Bool.and_eq_true] at hu
    rw [List.cons_append, List.cons_append, isNumeralText, hu.1, Bool.true_and, Bool.or_eq_true, Bool.and_eq_true]
    exact hu.2.imp ih₁ fun hn => ⟨hn.1, ih₂ hn.2⟩

/-- A digit begins a numeral that does not go on. -/
theorem exists_numeral (hx : isDecimal x) (v : List Char) : ∃ n post, x :: v = n ++ post ∧ isNumeralText n ∧ goesOn post = false := by
  induction hn : v.length using Nat.strong_induction_on generalizing x v with
  | _ k ih =>
    subst hn
    cases v with
    | nil => exact ⟨[x], [], rfl, hx, rfl⟩
    | cons y v =>
      by_cases hy : isDecimal y
      · obtain ⟨n, post, hv, hnumeral, hpost⟩ := ih _ (Nat.lt_succ_self _) hy v rfl
        obtain ⟨z, u, rfl, hz⟩ := isNumeralText_cons hnumeral
        refine ⟨x :: z :: u, post, congrArg (x :: ·) hv, ?_, hpost⟩
        rw [isNumeralText, hx, hnumeral]
        rfl
      · by_cases hsep : isSeparator y ∧ v.head?.any isDecimal
        · cases v with
          | nil => cases hsep.2
          | cons z v =>
            obtain ⟨n, post, hv, hnumeral, hpost⟩ := ih v.length (by simp only [List.length_cons]; omega) hsep.2 v rfl
            refine ⟨x :: y :: n, post, congrArg (fun v => x :: y :: v) hv, ?_, hpost⟩
            simp [isNumeralText, hx, hsep.1, hnumeral]
        · refine ⟨[x], y :: v, rfl, hx, ?_⟩
          rw [goesOn, Bool.or_eq_false_iff]
          exact ⟨by simpa using hy, by simpa using hsep⟩

/-- A numeral begins one that does not go on. -/
theorem exists_numeral_append {k : List Char} (hk : isNumeralText k) (v : List Char) :
    ∃ w post, v = w ++ post ∧ isNumeralText (k ++ w) ∧ goesOn post = false := by
  induction k using isNumeralText.induct with
  | case1 => cases hk
  | case2 x =>
    obtain ⟨n, post, hn, hnumeral, hpost⟩ := exists_numeral hk v
    obtain ⟨y, w, rfl, -⟩ := isNumeralText_cons hnumeral
    obtain ⟨rfl, hw⟩ := List.cons.inj hn
    exact ⟨w, post, hw, hnumeral, hpost⟩
  | case3 x y n ih₁ ih₂ =>
    rw [isNumeralText, Bool.and_eq_true, Bool.or_eq_true, Bool.and_eq_true] at hk
    rcases hk.2 with hk' | ⟨hy, hk'⟩
    · obtain ⟨w, post, hw, hnumeral, hpost⟩ := ih₁ hk'
      rw [List.cons_append] at hnumeral
      refine ⟨w, post, hw, ?_, hpost⟩
      simp [isNumeralText, hk.1, hnumeral]
    · obtain ⟨w, post, hw, hnumeral, hpost⟩ := ih₂ hk'
      refine ⟨w, post, hw, ?_, hpost⟩
      simp [isNumeralText, hk.1, hy, hnumeral]

theorem mem_numeral (hn : isNumeralText n) (hx : x ∈ n) : isDecimal x ∨ isSeparator x := by
  induction n using isNumeralText.induct with
  | case1 => cases hx
  | case2 y =>
    rw [List.mem_singleton.mp hx]
    exact .inl hn
  | case3 y z n ih₁ ih₂ =>
    rw [isNumeralText, Bool.and_eq_true, Bool.or_eq_true, Bool.and_eq_true] at hn
    rcases List.mem_cons.mp hx with rfl | hx
    · exact .inl hn.1
    · rcases hn.2 with hn' | ⟨hz, hn'⟩
      · exact ih₁ hn' hx
      · rcases List.mem_cons.mp hx with rfl | hx
        · exact .inr hz
        · exact ih₂ hn' hx

theorem decimal_separator : ∀ x, isSeparator x → isDecimal x = false := by
  intro x hx
  simp only [isSeparator, Bool.or_eq_true, decide_eq_true_eq] at hx
  rcases hx with rfl | rfl <;> simp [isDecimal, Unicode.decimal_ascii, asciiDecimal, Char.isDigit]

/-! ## What `_NUMBER` can read -/

/-- Digits, or groups of three of them after the first. -/
def IsWhole (w : List Char) : Prop :=
  ∃ first groups, w = first ++ (groups.map (',' :: ·)).flatten ∧ first ≠ [] ∧ (∀ x ∈ first, isDecimal x) ∧
    (groups ≠ [] → first.length ≤ 3) ∧ ∀ g ∈ groups, g.length = 3 ∧ ∀ x ∈ g, isDecimal x

def IsFraction (f : List Char) : Prop := f = [] ∨ ∃ ds, f = '.' :: ds ∧ ds ≠ [] ∧ ∀ x ∈ ds, isDecimal x

/-- A number without a sign. -/
inductive IsUnsigned : List Char → Prop
  | whole {w f : List Char} : IsWhole w → IsFraction f → IsUnsigned (w ++ f)
  | point {ds : List Char} : ds ≠ [] → (∀ x ∈ ds, isDecimal x) → IsUnsigned ('.' :: ds)

def IsSign (sgn : List Char) : Prop := sgn = [] ∨ sgn = ['-'] ∨ sgn = ['+']

/-- One group after a comma. -/
def thousandsGroup : Regex := seqs [lit ",", many digit 3 (some 3)]

theorem mem_run_digits {lo : Nat} {hi : Option Nat} (h : m ∈ run (many digit lo hi) c) : ∃ ds, c.rest = ds ++ m.cursor.rest ∧
    lo ≤ ds.length ∧ (∀ k ∈ hi, ds.length ≤ k) ∧ ∀ x ∈ ds, isDecimal x := by
  have hrun : m ∈ run (many digit lo (some (hi.getD c.rest.length))) c := h
  obtain ⟨ds, rest, hrest, hlo, hhi, hdigits, rfl⟩ := mem_run_many_char.1 hrun
  refine ⟨ds, hrest, hlo, fun k hk => ?_, hdigits⟩
  cases hk
  exact hhi

theorem mem_run_point (h : m ∈ run (seqs [lit ".", plus digit]) c) :
    ∃ ds, c.rest = '.' :: (ds ++ m.cursor.rest) ∧ ds ≠ [] ∧ ∀ x ∈ ds, isDecimal x := by
  obtain ⟨m₁, hm₁, m₂, hm₂, rfl⟩ := mem_run_seqs_cons.1 h
  obtain ⟨m₃, hm₃, m₄, hm₄, rfl⟩ := mem_run_seqs_cons.1 hm₂
  obtain ⟨rest, hrest, rfl⟩ := mem_run_lit.1 hm₁
  obtain ⟨ds, hds, hlo, -, hdigits⟩ := mem_run_digits hm₃
  cases mem_run_seqs_nil.1 hm₄
  exact ⟨ds, hrest.trans (congrArg ('.' :: ·) hds), List.length_pos_iff.mp hlo, hdigits⟩

theorem mem_run_groups (h : m ∈ run (plus thousandsGroup) c) : ∃ groups : List (List Char),
    c.rest = (groups.map (',' :: ·)).flatten ++ m.cursor.rest ∧ ∀ g ∈ groups, g.length = 3 ∧ ∀ x ∈ g, isDecimal x := by
  refine iterate_induction (P := fun c m => ∃ groups : List (List Char), c.rest = (groups.map (',' :: ·)).flatten ++ m.cursor.rest ∧
    ∀ g ∈ groups, g.length = 3 ∧ ∀ x ∈ g, isDecimal x) (fun c => ⟨[], rfl, nofun⟩) (fun c m₁ hm₁ m₂ ih => ?_) h
  obtain ⟨groups, hgroups, hall⟩ := ih
  obtain ⟨m₃, hm₃, m₄, hm₄, rfl⟩ := mem_run_seqs_cons.1 hm₁
  obtain ⟨m₅, hm₅, m₆, hm₆, rfl⟩ := mem_run_seqs_cons.1 hm₄
  obtain ⟨rest, hrest, rfl⟩ := mem_run_lit.1 hm₃
  obtain ⟨g, hg, hlo, hhi, hdigits⟩ := mem_run_digits hm₅
  cases mem_run_seqs_nil.1 hm₆
  refine ⟨g :: groups, ?_, List.forall_mem_cons.mpr ⟨⟨le_antisymm (hhi 3 rfl) hlo, hdigits⟩, hall⟩⟩
  rw [hrest, show rest = _ from hg, hgroups]
  simp

theorem mem_run_whole (h : m ∈ run (alts [seqs [many digit 1 (some 3), plus thousandsGroup], plus digit]) c) :
    ∃ w, c.rest = w ++ m.cursor.rest ∧ IsWhole w := by
  obtain ⟨r, hr, hm⟩ := mem_run_alts.1 h
  simp only [List.mem_cons, List.not_mem_nil, or_false] at hr
  rcases hr with rfl | rfl
  · obtain ⟨m₁, hm₁, m₂, hm₂, rfl⟩ := mem_run_seqs_cons.1 hm
    obtain ⟨m₃, hm₃, m₄, hm₄, rfl⟩ := mem_run_seqs_cons.1 hm₂
    obtain ⟨first, hfirst, hlo, hhi, hdigits⟩ := mem_run_digits hm₁
    obtain ⟨groups, hgroups, hall⟩ := mem_run_groups hm₃
    cases mem_run_seqs_nil.1 hm₄
    refine ⟨_, ?_, first, groups, rfl, List.length_pos_iff.mp hlo, hdigits, fun _ => hhi 3 rfl, hall⟩
    rw [hfirst, hgroups, List.append_assoc]
  · obtain ⟨ds, hds, hlo, -, hdigits⟩ := mem_run_digits hm
    exact ⟨ds, hds, ds, [], by simp, List.length_pos_iff.mp hlo, hdigits, fun h => absurd rfl h, nofun⟩

/-- What `_NUMBER` reads is a sign, or none, and a number. -/
theorem mem_run_number (h : m ∈ run number c) :
    ∃ sgn body, c.rest = sgn ++ (body ++ m.cursor.rest) ∧ IsSign sgn ∧ IsUnsigned body := by
  obtain ⟨m₁, hm₁, m₂, hm₂, rfl⟩ := mem_run_seqs_cons.1 h
  obtain ⟨m₃, hm₃, m₄, hm₄, rfl⟩ := mem_run_seqs_cons.1 hm₂
  cases mem_run_seqs_nil.1 hm₄
  have hbody : ∃ body, m₁.cursor.rest = body ++ m₃.cursor.rest ∧ IsUnsigned body := by
    obtain ⟨r, hr, hm⟩ := mem_run_alts.1 hm₃
    simp only [List.mem_cons, List.not_mem_nil, or_false] at hr
    rcases hr with rfl | rfl
    · obtain ⟨m₅, hm₅, m₆, hm₆, rfl⟩ := mem_run_seqs_cons.1 hm
      obtain ⟨m₇, hm₇, m₈, hm₈, rfl⟩ := mem_run_seqs_cons.1 hm₆
      cases mem_run_seqs_nil.1 hm₈
      obtain ⟨w, hw, hwhole⟩ := mem_run_whole hm₅
      rcases mem_run_opt hm₇ with rfl | hpoint
      · exact ⟨w, hw, by simpa using IsUnsigned.whole hwhole (.inl rfl)⟩
      · obtain ⟨ds, hds, hne, hdigits⟩ := mem_run_point hpoint
        refine ⟨w ++ '.' :: ds, ?_, .whole hwhole (.inr ⟨ds, rfl, hne, hdigits⟩)⟩
        rw [hw, hds]
        simp
    · obtain ⟨ds, hds, hne, hdigits⟩ := mem_run_point hm
      exact ⟨_, hds, .point hne hdigits⟩
  obtain ⟨body, hrest, hunsigned⟩ := hbody
  rcases mem_run_opt hm₁ with rfl | hsign
  · exact ⟨[], body, hrest, .inl rfl, hunsigned⟩
  · obtain ⟨x, rest, hx, hmem, rfl⟩ := mem_run_char.1 hsign
    refine ⟨[x], body, hx.trans (congrArg (x :: ·) hrest), .inr ?_, hunsigned⟩
    simpa using hmem

theorem IsWhole.numeral {w : List Char} (h : IsWhole w) : isNumeralText w := by
  have hgroups (groups : List (List Char)) (hall : ∀ g ∈ groups, g.length = 3 ∧ ∀ x ∈ g, isDecimal x) (u : List Char)
      (hu : isNumeralText u) : isNumeralText (u ++ (groups.map (',' :: ·)).flatten) := by
    induction groups generalizing u with
    | nil => simpa using hu
    | cons g groups ih =>
      obtain ⟨⟨hlen, hg⟩, hall⟩ := List.forall_mem_cons.mp hall
      have hne : g ≠ [] := fun he => by
        rw [he] at hlen
        cases hlen
      have hnext := ih hall _ (isNumeralText_append hu (y := ',') rfl (isNumeralText_of_digits hne hg))
      simpa using hnext
  obtain ⟨first, groups, rfl, hne, hfirst, -, hall⟩ := h
  exact hgroups groups hall first (isNumeralText_of_digits hne hfirst)

theorem IsUnsigned.numeral {body : List Char} (h : IsUnsigned body) :
    ∃ point n, body = point ++ n ∧ isNumeralText n ∧ (point = [] ∨ point = ['.'] ∧ ∀ x ∈ n, isDecimal x) := by
  cases h with
  | whole hw hf =>
    refine ⟨[], _, rfl, ?_, .inl rfl⟩
    rcases hf with rfl | ⟨ds, rfl, hne, hds⟩
    · simpa using hw.numeral
    · exact isNumeralText_append hw.numeral rfl (isNumeralText_of_digits hne hds)
  | point hne hds => exact ⟨['.'], _, rfl, isNumeralText_of_digits hne hds, .inr ⟨rfl, hds⟩⟩

/-! ## What `_NUMBER` reads first -/

/-- The whole part of a number does not go on here. -/
def EndsWhole (v : List Char) : Prop := ∀ x u, v = x :: u → isDecimal x = false ∧ (x = ',' → u.head?.any isDecimal = false)

theorem endsWhole_of_goesOn (h : goesOn v = false) : EndsWhole v := by
  rintro x u rfl
  rw [goesOn, Bool.or_eq_false_iff] at h
  refine ⟨h.1, fun hx => ?_⟩
  subst hx
  exact h.2

theorem endsWhole_fraction {f : List Char} (hf : IsFraction f) (h : goesOn v = false) : EndsWhole (f ++ v) := by
  rcases hf with rfl | ⟨ds, rfl, -, -⟩
  · exact endsWhole_of_goesOn h
  · rintro x u hxu
    obtain ⟨rfl, -⟩ := List.cons.inj hxu
    exact ⟨decimal_separator _ rfl, nofun⟩

theorem EndsWhole.head (h : EndsWhole v) : v.head?.any isDecimal = false := by
  cases v with
  | nil => rfl
  | cons x u => exact (h x u rfl).1

theorem reads_decimals {lo : Nat} {hi : Option Nat} (h : ∀ x ∈ u, isDecimal x) (hlo : lo ≤ u.length) (hhi : ∀ k ∈ hi, u.length ≤ k)
    (hstop : v.head?.any isDecimal = false ∨ hi = some u.length) : Reads (many digit lo hi) b u v [] :=
  reads_many_char h hlo hhi hstop

/-- Digits without a group after them are not the first group of several. -/
theorem run_groups_eq_nil (hu : ∀ x ∈ u, isDecimal x) (hv : EndsWhole v) :
    run (seqs [many digit 1 (some 3), plus thousandsGroup]) ⟨b, u ++ v⟩ = [] := by
  refine List.eq_nil_iff_forall_not_mem.mpr fun m hm => ?_
  obtain ⟨m₁, hm₁, m₂, hm₂, -⟩ := mem_run_seqs_cons.1 hm
  obtain ⟨m₃, hm₃, -⟩ := mem_run_seqs_cons.1 hm₂
  obtain ⟨pre, hpre, -, -, hdigits⟩ := mem_run_digits hm₁
  obtain ⟨m₄, hm₄⟩ := exists_mem_of_many Nat.one_pos hm₃
  obtain ⟨m₅, hm₅, m₆, hm₆, -⟩ := mem_run_seqs_cons.1 hm₄
  obtain ⟨m₇, hm₇, -⟩ := mem_run_seqs_cons.1 hm₆
  obtain ⟨rest, hcomma, rfl⟩ := mem_run_lit.1 hm₅
  obtain ⟨g, hg, hlen, -, hgroup⟩ := mem_run_digits hm₇
  -- the comma would come after some of the digits
  have htext : u ++ v = pre ++ ',' :: rest := hpre.trans (congrArg (pre ++ ·) hcomma)
  rcases List.append_eq_append_iff.mp htext with ⟨a, rfl, hva⟩ | ⟨a, rfl, hva⟩
  · cases a with
    | nil =>
      obtain ⟨x, g, rfl⟩ := List.exists_cons_of_length_pos (Nat.lt_of_lt_of_le (by decide) hlen)
      have hstop := (hv ',' rest (by simpa using hva)).2 rfl
      rw [show rest = _ from hg] at hstop
      simp [hgroup x List.mem_cons_self] at hstop
    | cons x a =>
      have hx := hdigits x (by simp)
      rw [(hv x _ hva).1] at hx
      cases hx
  · cases a with
    | nil =>
      obtain ⟨x, g, rfl⟩ := List.exists_cons_of_length_pos (Nat.lt_of_lt_of_le (by decide) hlen)
      have hstop := (hv ',' rest (by simpa using hva.symm)).2 rfl
      rw [show rest = _ from hg] at hstop
      simp [hgroup x List.mem_cons_self] at hstop
    | cons x a =>
      obtain ⟨rfl, -⟩ := List.cons.inj hva
      have hcomma := hu ',' (by simp)
      rw [decimal_separator ',' rfl] at hcomma
      cases hcomma

theorem reads_thousandsGroup (h : ∀ x ∈ u, isDecimal x) (hlen : u.length = 3) : Reads thousandsGroup b (',' :: u) v [] := by
  have hcomma : Reads (lit ",") b [','] (u ++ v) [] := reads_lit ","
  have hgroup : Reads (many digit 3 (some 3)) (some ',') u v [] := reads_decimals h hlen.ge (by simp [hlen]) (.inr (by rw [hlen]))
  exact reads_seqs_cons hcomma (reads_seqs_one hgroup)

theorem run_thousandsGroup_eq_nil (hv : EndsWhole v) : run thousandsGroup ⟨b, v⟩ = [] := by
  refine List.eq_nil_iff_forall_not_mem.mpr fun m hm => ?_
  obtain ⟨m₁, hm₁, m₂, hm₂, -⟩ := mem_run_seqs_cons.1 hm
  obtain ⟨m₃, hm₃, -⟩ := mem_run_seqs_cons.1 hm₂
  obtain ⟨rest, hcomma, rfl⟩ := mem_run_lit.1 hm₁
  obtain ⟨g, hg, hlen, -, hgroup⟩ := mem_run_digits hm₃
  obtain ⟨x, g, rfl⟩ := List.exists_cons_of_length_pos (Nat.lt_of_lt_of_le (by decide) hlen)
  have hstop := (hv ',' rest hcomma).2 rfl
  rw [show rest = _ from hg] at hstop
  simp [hgroup x List.mem_cons_self] at hstop

theorem reads_whole {w : List Char} (h : IsWhole w) (hv : EndsWhole v) :
    Reads (alts [seqs [many digit 1 (some 3), plus thousandsGroup], plus digit]) b w v [] := by
  obtain ⟨first, groups, rfl, hne, hfirst, hlen, hgroups⟩ := h
  have hpos := List.length_pos_iff.mpr hne
  cases groups with
  | nil =>
    have hsame : first ++ (([] : List (List Char)).map (',' :: ·)).flatten = first := by simp
    rw [hsame]
    exact reads_alts_tail (run_groups_eq_nil hfirst hv) (reads_alts_head (reads_decimals hfirst hpos nofun (.inl hv.head)))
  | cons g groups =>
    have hcomma : (((g :: groups).map (',' :: ·)).flatten ++ v).head?.any isDecimal = false := decimal_separator ',' rfl
    have hrest : Reads (plus thousandsGroup) (lastOr first b) ((g :: groups).map (',' :: ·)).flatten v [] := by
      refine reads_many (fun u hu => ?_) (by simp) nofun (.inl (run_thousandsGroup_eq_nil hv))
      obtain ⟨g', hg', rfl⟩ := List.mem_map.mp hu
      exact ⟨by simp, fun _ _ => reads_thousandsGroup (hgroups g' hg').2 (hgroups g' hg').1⟩
    have hstart : Reads (many digit 1 (some 3)) b first (((g :: groups).map (',' :: ·)).flatten ++ v) [] :=
      reads_decimals hfirst hpos (by simpa using hlen (by simp)) (.inl hcomma)
    exact reads_alts_head (reads_seqs_cons hstart (reads_seqs_one hrest))

theorem run_point_eq_nil (hv : goesOn v = false) : run (seqs [lit ".", plus digit]) ⟨b, v⟩ = [] := by
  refine List.eq_nil_iff_forall_not_mem.mpr fun m hm => ?_
  obtain ⟨ds, hds, hne, hdigits⟩ := mem_run_point hm
  obtain ⟨x, ds, rfl⟩ := List.exists_cons_of_ne_nil hne
  rw [show v = _ from hds] at hv
  simp [goesOn, isSeparator, hdigits x List.mem_cons_self] at hv

theorem reads_point (hne : u ≠ []) (hu : ∀ x ∈ u, isDecimal x) (hv : v.head?.any isDecimal = false) :
    Reads (seqs [lit ".", plus digit]) b ('.' :: u) v [] := by
  have hdot : Reads (lit ".") b ['.'] (u ++ v) [] := reads_lit "."
  exact reads_seqs_cons hdot (reads_seqs_one (reads_decimals hu (List.length_pos_iff.mpr hne) nofun (.inl hv)))

theorem head_of_goesOn (hv : goesOn v = false) : v.head?.any isDecimal = false := (endsWhole_of_goesOn hv).head

theorem reads_fraction {f : List Char} (hf : IsFraction f) (hv : goesOn v = false) :
    Reads (opt (seqs [lit ".", plus digit])) b f v [] := by
  rcases hf with rfl | ⟨ds, rfl, hne, hds⟩
  · exact reads_opt_nil (run_point_eq_nil hv)
  · exact reads_opt (by simp) (reads_point hne hds (head_of_goesOn hv))

/-- `_NUMBER` without its sign. -/
def unsigned : Regex :=
  alts
    [seqs [alts [seqs [many digit 1 (some 3), plus thousandsGroup], plus digit], opt (seqs [lit ".", plus digit])],
      seqs [lit ".", plus digit]]

theorem reads_unsigned {body : List Char} (h : IsUnsigned body) (hv : goesOn v = false) : Reads unsigned b body v [] := by
  cases h with
  | whole hw hf =>
    exact reads_alts_head (reads_seqs_cons (reads_whole hw (endsWhole_fraction hf hv)) (reads_seqs_one (reads_fraction hf hv)))
  | point hne hds =>
    refine reads_alts_tail (List.eq_nil_iff_forall_not_mem.mpr fun m hm => ?_)
      (reads_alts_head (reads_point hne hds (head_of_goesOn hv)))
    obtain ⟨m₁, hm₁, -⟩ := mem_run_seqs_cons.1 hm
    obtain ⟨w, hw, hwhole⟩ := mem_run_whole hm₁
    obtain ⟨x, u, rfl, hx⟩ := isNumeralText_cons hwhole.numeral
    obtain ⟨rfl, -⟩ := List.cons.inj hw
    rw [decimal_separator '.' rfl] at hx
    cases hx

theorem IsUnsigned.head {body : List Char} (h : IsUnsigned body) : ∃ x u, body = x :: u ∧ (isDecimal x ∨ x = '.') := by
  obtain ⟨point, n, rfl, hn, rfl | ⟨rfl, -⟩⟩ := h.numeral
  · obtain ⟨x, u, rfl, hx⟩ := isNumeralText_cons hn
    exact ⟨x, u, rfl, .inl hx⟩
  · exact ⟨'.', n, rfl, .inr rfl⟩

theorem decimal_sign : isDecimal '-' = false ∧ isDecimal '+' = false := by
  simp [isDecimal, Unicode.decimal_ascii, asciiDecimal, Char.isDigit]

/-- A signed number, or one without a sign, is read as a whole where its numeral does not go on. -/
theorem reads_written {sgn body : List Char} (hsgn : IsSign sgn) (hbody : IsUnsigned body) (hv : goesOn v = false) :
    Reads number b (sgn ++ body) v [] := by
  refine reads_seqs_cons (?_ : Reads (opt (oneOf "-+")) b sgn (body ++ v) []) (reads_seqs_one (reads_unsigned hbody hv))
  rcases hsgn with rfl | rfl | rfl
  · obtain ⟨x, u, rfl, hx⟩ := hbody.head
    refine reads_opt_nil (List.eq_nil_iff_forall_not_mem.mpr fun m hm => ?_)
    obtain ⟨y, rest, hy, hsign, -⟩ := mem_run_char.1 hm
    obtain ⟨rfl, -⟩ := List.cons.inj hy
    have hmem : x = '-' ∨ x = '+' := by simpa using hsign
    rcases hmem with rfl | rfl <;> rcases hx with hx | hx
    · rw [decimal_sign.1] at hx
      cases hx
    · cases hx
    · rw [decimal_sign.2] at hx
      cases hx
    · cases hx
  · exact reads_opt (by simp) (reads_char (by decide))
  · exact reads_opt (by simp) (reads_char (by decide))

/-! ## Legible numerals -/

/-- `_NUMBER` reads the numeral as a whole (behind a dot, digits), and what comes after does not
end it early. -/
def IsLegible (point n post : List Char) : Prop :=
  (if point = [] then fullmatch number n = true else ∀ x ∈ n, isDecimal x) ∧
    (n.any isSeparator → post.head?.any Unicode.isWord = false)

/-- A number can begin here, but for its sign. -/
def opensNumber : List Char → Bool
  | [] => false
  | x :: v => isDecimal x || x = '.' && v.head?.any isDecimal

theorem isUnsigned_of_fullmatch (hn : isNumeralText n) (h : fullmatch number n) : IsUnsigned n := by
  obtain ⟨m, hm, hend⟩ := List.any_eq_true.mp h
  obtain ⟨sgn, body, hrest, hsgn, hbody⟩ := mem_run_number hm
  rw [of_decide_eq_true hend, List.append_nil] at hrest
  obtain ⟨x, u, rfl, hx⟩ := isNumeralText_cons hn
  rcases hsgn with rfl | rfl | rfl
  · rw [show x :: u = body from hrest]
    exact hbody
  · rw [(List.cons.inj hrest).1, decimal_sign.1] at hx
    cases hx
  · rw [(List.cons.inj hrest).1, decimal_sign.2] at hx
    cases hx

/-- Behind a sign, and a dot, a numeral can begin. -/
theorem starts_number {sgn point : List Char} (hsgn : IsSign sgn) (hpoint : point = [] ∨ point = ['.'])
    (h : goesOn front.reverse = false ∨ sgn ≠ []) : goesOn (front ++ (sgn ++ point)).reverse = false := by
  have hstart : goesOn (front ++ sgn).reverse = false := by
    rcases hsgn with rfl | rfl | rfl
    · simpa using h
    · simp [goesOn, decimal_sign.1, isSeparator]
    · simp [goesOn, decimal_sign.2, isSeparator]
  rcases hpoint with rfl | rfl
  · rwa [List.append_nil]
  · rw [← List.append_assoc, List.reverse_append]
    show (isDecimal '.' || isSeparator '.' && (front ++ sgn).reverse.head?.any isDecimal) = false
    rw [decimal_separator '.' rfl, head_of_goesOn hstart, Bool.and_false]
    rfl

theorem IsLegible.isUnsigned {point : List Char} (hn : isNumeralText n) (hpoint : point = [] ∨ point = ['.'])
    (h : IsLegible point n post) : IsUnsigned (point ++ n) := by
  obtain ⟨x, u, rfl, -⟩ := isNumeralText_cons hn
  rcases hpoint with rfl | rfl
  · exact isUnsigned_of_fullmatch hn h.1
  · exact .point (List.cons_ne_nil _ _) h.1

/-- What `_NUMBER` reads begins a numeral, of which it reads the whole first if that is legible. -/
theorem reads_standing (ht : t = front ++ c.rest) (hstart : goesOn front.reverse = false ∨ opensNumber c.rest = false)
    (hm : m ∈ run number c) :
    ∃ sgn point k w post, c.rest = sgn ++ (point ++ k) ++ (w ++ post) ∧ m.cursor.rest = w ++ post ∧ isNumeralText k ∧ IsSign sgn ∧
      (point = [] ∨ point = ['.']) ∧ Stands t (front ++ (sgn ++ point)) (k ++ w) post ∧
      (IsLegible point (k ++ w) post → Reads number c.before (sgn ++ (point ++ (k ++ w))) post []) := by
  obtain ⟨sgn, body, hrest, hsgn, hbody⟩ := mem_run_number hm
  obtain ⟨point, k, rfl, hk, hpoint⟩ := hbody.numeral
  have hpoint' : point = [] ∨ point = ['.'] := hpoint.imp id And.left
  obtain ⟨w, post, hw, hnumeral, hpost⟩ := exists_numeral_append hk m.cursor.rest
  have htext : c.rest = sgn ++ (point ++ k) ++ (w ++ post) := by
    rw [hrest, ← hw]
    simp
  have hopens : sgn = [] → opensNumber c.rest = true := by
    rintro rfl
    obtain ⟨x, u, rfl, hx⟩ := isNumeralText_cons hk
    rw [hrest]
    rcases hpoint' with rfl | rfl <;> simp [opensNumber, hx]
  have hstands : Stands t (front ++ (sgn ++ point)) (k ++ w) post := by
    refine ⟨by rw [ht, htext]; simp, hnumeral, starts_number hsgn hpoint' (hstart.imp id fun h hnil => ?_), hpost⟩
    rw [hopens hnil] at h
    cases h
  exact ⟨sgn, point, k, w, post, htext, hw, hk, hsgn, hpoint', hstands, fun hlegible =>
    reads_written hsgn (hlegible.isUnsigned hnumeral hpoint') hpost⟩

end

end Parser

end SignalSync
