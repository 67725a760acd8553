import Mathlib.Data.List.Forall2
import SignalSync.Library.Text

/-!
# Regular expressions

Patterns as a backtracking matcher reads them. `Regex.run` lists the matches at a
position in the order they are tried, so that the match is its head; `find?`,
`search`, `findAll` and `sub` are over them.

* `mem_run_seq`, `mem_run_lit`, …: what the matches are;
* `later_of_run`: a match ends at its place or later;
* `find?_eq_none`, `mem_run_of_find?`: what is found is a match, and nothing is if
  there is none.
-/

namespace Library

/-- A place in a text: the character before it, and what follows. -/
structure Cursor where
  before : Option Char := none
  rest : List Char
deriving DecidableEq

/-- Where a match ends, and the groups that closed in it. -/
structure Match where
  cursor : Cursor
  groups : List (List Char) := []
deriving DecidableEq

inductive Regex
  | empty
  | char (p : Char → Bool)
  | seq (r s : Regex)
  | alt (r s : Regex)
  /-- `r{lo,hi}`, as often as it can. -/
  | many (r : Regex) (lo : Nat) (hi : Option Nat)
  | start
  | boundary
  /-- `(?<!p)`. -/
  | notBehind (p : Char → Bool)
  | group (r : Regex)

section

variable [Unicode]

/-- `\w`. -/
def Unicode.isWord (c : Char) : Bool := Unicode.isAlnum c || c = '_'

/-- `\b`. -/
def Cursor.isBoundary (c : Cursor) : Bool := (c.before.any Unicode.isWord) != (c.rest.head?.any Unicode.isWord)

end

namespace Regex

/-! ## Matching -/

/-- At most `n` more iterations, and at least `lo`; each has to get on. -/
def iterate (step : Cursor → List Match) : Nat → Nat → Cursor → List Match
  | 0, lo, c => if lo = 0 then [⟨c, []⟩] else []
  | n + 1, lo, c =>
    ((step c).filter fun m => m.cursor.rest.length < c.rest.length).flatMap (fun m =>
      (iterate step n (lo - 1) m.cursor).map fun m' => ⟨m'.cursor, m.groups ++ m'.groups⟩) ++
    if lo = 0 then [⟨c, []⟩] else []

/-- What is read from `c` on to `d`. -/
def between (c d : Cursor) : List Char := c.rest.take (c.rest.length - d.rest.length)

section

variable [Unicode]

def run : Regex → Cursor → List Match
  | empty, c => [⟨c, []⟩]
  | char p, c =>
    match c.rest with
    | x :: rest => if p x then [⟨⟨some x, rest⟩, []⟩] else []
    | [] => []
  | seq r s, c => (run r c).flatMap fun m => (run s m.cursor).map fun m' => ⟨m'.cursor, m.groups ++ m'.groups⟩
  | alt r s, c => run r c ++ run s c
  | many r lo hi, c => iterate (fun c => run r c) (hi.getD c.rest.length) lo c
  | start, c => if c.before.isNone then [⟨c, []⟩] else []
  | boundary, c => if c.isBoundary then [⟨c, []⟩] else []
  | notBehind p, c => if c.before.any p then [] else [⟨c, []⟩]
  | group r, c => (run r c).map fun m => ⟨m.cursor, m.groups ++ [between c m.cursor]⟩

/-- A match in a text: what comes before it, what it reads, and where it ends. -/
structure Found where
  skipped : List Char
  text : List Char
  groups : List (List Char)
  after : Cursor

/-- The first match. -/
def find? (r : Regex) (before : Option Char) : List Char → Option Found
  | [] => (run r ⟨before, []⟩).head?.map fun m => ⟨[], [], m.groups, m.cursor⟩
  | x :: s =>
    match (run r ⟨before, x :: s⟩).head? with
    | some m => some ⟨[], between ⟨before, x :: s⟩ m.cursor, m.groups, m.cursor⟩
    | none => (find? r (some x) s).map fun f => { f with skipped := x :: f.skipped }

/-- `re.search`. -/
def search (r : Regex) (s : List Char) : Option Found := find? r none s

/-- `re.fullmatch`, as a test. -/
def fullmatch (r : Regex) (s : List Char) : Bool := (run r ⟨none, s⟩).any fun m => m.cursor.rest = []

def findAllFrom (r : Regex) : Nat → Cursor → List Found
  | 0, _ => []
  | n + 1, c =>
    match find? r c.before c.rest with
    | some f => f :: findAllFrom r n f.after
    | none => []

/-- `re.finditer`, of a pattern that does not match the empty text. -/
def findAll (r : Regex) (s : List Char) : List Found := findAllFrom r s.length ⟨none, s⟩

/-- `re.sub`, of such a pattern. -/
def sub (r : Regex) (replacement s : List Char) : List Char :=
  let found := findAll r s
  found.flatMap (fun f => f.skipped ++ replacement) ++ (found.getLast?.elim s fun f => f.after.rest)

end

/-! ## Building patterns -/

def seqs (rs : List Regex) : Regex := rs.foldr seq empty

def alts (rs : List Regex) : Regex := rs.foldr alt (char fun _ => false)

def lit (s : String) : Regex := seqs (s.toList.map fun c => char (· = c))

/-- One of the words. -/
def anyOf (ws : List String) : Regex := alts (ws.map lit)

def oneOf (s : String) : Regex := char fun c => c ∈ s.toList

/-- `r?`. -/
def opt (r : Regex) : Regex := many r 0 (some 1)

/-- `r*`. -/
def star (r : Regex) : Regex := many r 0 none

/-- `r+`. -/
def plus (r : Regex) : Regex := many r 1 none

section

variable [Unicode]

/-- `\s`. -/
def space : Regex := char Unicode.isSpace

/-- `\d`. -/
def digit : Regex := char fun c => (Unicode.decimal c).isSome

/-- Ignoring case. -/
def litI (s : String) : Regex := seqs (s.toList.map fun c => char (Unicode.sameCase c))

def oneOfI (s : String) : Regex := char fun c => s.toList.any (Unicode.sameCase c)

/-- `\b(?:…)\b`, of one of the words. -/
def word (ws : List String) : Regex := seqs [boundary, anyOf ws, boundary]

/-- `\b(…)\b`. -/
def wordGroup (ws : List String) : Regex := seqs [boundary, group (anyOf ws), boundary]

end

/-! ## What a match reads -/

/-- `d` is `c` or a later place of the same text. -/
def Later (c d : Cursor) : Prop := ∃ pre, c.rest = pre ++ d.rest ∧ d.before = pre.getLast?.or c.before

theorem Later.refl (c : Cursor) : Later c c := ⟨[], rfl, rfl⟩

theorem Later.trans {c d e : Cursor} (h : Later c d) (h' : Later d e) : Later c e := by
  obtain ⟨p, hp, hb⟩ := h
  obtain ⟨q, hq, hb'⟩ := h'
  exact ⟨p ++ q, by rw [hp, hq, List.append_assoc], by rw [hb', hb, List.getLast?_append, Option.or_assoc]⟩

theorem Later.next (b : Option Char) (x : Char) (s : List Char) : Later ⟨b, x :: s⟩ ⟨some x, s⟩ := ⟨[x], rfl, rfl⟩

theorem Later.length_le {c d : Cursor} (h : Later c d) : d.rest.length ≤ c.rest.length := by
  obtain ⟨p, hp, -⟩ := h
  rw [hp, List.length_append]
  omega

theorem Later.cases {b : Option Char} {x : Char} {s : List Char} {d : Cursor} (h : Later ⟨b, x :: s⟩ d) :
    d = ⟨b, x :: s⟩ ∨ Later ⟨some x, s⟩ d := by
  obtain ⟨p, hp, hb⟩ := h
  cases p with
  | nil =>
    left
    cases d
    simp_all
  | cons y p =>
    obtain ⟨rfl, hs⟩ := List.cons.inj hp
    refine .inr ⟨p, hs, hb.trans ?_⟩
    simp only [List.getLast?_cons]
    cases p.getLast? <;> rfl

theorem Later.between {c d : Cursor} (h : Later c d) : c.rest = Regex.between c d ++ d.rest := by
  obtain ⟨p, hp, -⟩ := h
  rw [Regex.between, hp, List.length_append, Nat.add_sub_cancel, List.take_left']
  rfl

section

variable [Unicode] {r s : Regex} {c d : Cursor} {m : Match} {p : Char → Bool}

theorem mem_run_seq : m ∈ run (seq r s) c ↔
    ∃ m₁ ∈ run r c, ∃ m₂ ∈ run s m₁.cursor, m = ⟨m₂.cursor, m₁.groups ++ m₂.groups⟩ := by
  simp only [run, List.mem_flatMap, List.mem_map, eq_comm]

theorem mem_run_alt : m ∈ run (alt r s) c ↔ m ∈ run r c ∨ m ∈ run s c := List.mem_append

theorem mem_run_char : m ∈ run (char p) c ↔ ∃ x rest, c.rest = x :: rest ∧ p x ∧ m = ⟨⟨some x, rest⟩, []⟩ := by
  obtain ⟨b, rest⟩ := c
  cases rest with
  | nil => simp [run]
  | cons x rest =>
    simp only [run]
    split <;> simp_all

theorem mem_run_boundary : m ∈ run boundary c ↔ c.isBoundary ∧ m = ⟨c, []⟩ := by
  simp only [run]
  split <;> simp_all

theorem mem_run_group : m ∈ run (group r) c ↔ ∃ m' ∈ run r c, m = ⟨m'.cursor, m'.groups ++ [between c m'.cursor]⟩ := by
  simp only [run, List.mem_map, eq_comm]

theorem mem_run_alts {rs : List Regex} : m ∈ run (alts rs) c ↔ ∃ r ∈ rs, m ∈ run r c := by
  induction rs with
  | nil => simp [alts, mem_run_char]
  | cons r rs ih =>
    rw [alts, List.foldr_cons, ← alts, mem_run_alt, ih]
    simp

theorem mem_run_seqs_cons {rs : List Regex} : m ∈ run (seqs (r :: rs)) c ↔
    ∃ m₁ ∈ run r c, ∃ m₂ ∈ run (seqs rs) m₁.cursor, m = ⟨m₂.cursor, m₁.groups ++ m₂.groups⟩ := mem_run_seq

theorem mem_run_seqs_nil : m ∈ run (seqs []) c ↔ m = ⟨c, []⟩ := List.mem_singleton

theorem mem_run_chars {ps : List (Char → Bool)} : m ∈ run (seqs (ps.map char)) c ↔
    ∃ pre rest, c.rest = pre ++ rest ∧ List.Forall₂ (fun p x => p x) ps pre ∧ m = ⟨⟨pre.getLast?.or c.before, rest⟩, []⟩ := by
  induction ps generalizing c m with
  | nil =>
    rw [List.map_nil, mem_run_seqs_nil]
    constructor
    · rintro rfl
      exact ⟨[], c.rest, rfl, .nil, rfl⟩
    · rintro ⟨pre, rest, hc, hpre, rfl⟩
      cases hpre
      obtain ⟨b, s⟩ := c
      cases hc
      rfl
  | cons p ps ih =>
    have hlast (x : Char) (pre : List Char) (b : Option Char) : pre.getLast?.or (some x) = (x :: pre).getLast?.or b := by
      rw [List.getLast?_cons]
      cases pre.getLast? <;> rfl
    rw [List.map_cons, mem_run_seqs_cons]
    constructor
    · rintro ⟨m₁, hm₁, m₂, hm₂, rfl⟩
      obtain ⟨x, rest, hc, hx, rfl⟩ := mem_run_char.1 hm₁
      obtain ⟨pre, rest', hr, hpre, rfl⟩ := ih.mp hm₂
      refine ⟨x :: pre, rest', hc.trans (congrArg (x :: ·) hr), .cons hx hpre, ?_⟩
      simp only [List.nil_append, hlast x pre c.before]
    · rintro ⟨pre, rest, hc, hpre, rfl⟩
      cases hpre with
      | @cons _ x _ pre hx hpre =>
        refine ⟨⟨⟨some x, pre ++ rest⟩, []⟩, mem_run_char.2 ⟨x, _, hc, hx, rfl⟩, _, ih.mpr ⟨pre, rest, rfl, hpre, rfl⟩, ?_⟩
        simp only [List.nil_append, hlast x pre c.before]

theorem mem_run_lit {w : String} : m ∈ run (lit w) c ↔
    ∃ rest, c.rest = w.toList ++ rest ∧ m = ⟨⟨w.toList.getLast?.or c.before, rest⟩, []⟩ := by
  have hlit : lit w = seqs ((w.toList.map fun c x => decide (x = c)).map char) := by
    rw [lit, List.map_map]
    rfl
  rw [hlit, mem_run_chars]
  have hf (pre : List Char) : List.Forall₂ (fun (p : Char → Bool) x => (p x : Prop)) (w.toList.map fun c x => decide (x = c)) pre ↔
      pre = w.toList := by
    rw [List.forall₂_map_left_iff]
    simp only [decide_eq_true_eq]
    rw [show (fun (c : Char) (d : Char) => d = c) = fun c d => c = d from by funext c d; exact propext eq_comm,
      List.forall₂_eq_eq_eq]
    exact eq_comm
  simp only [hf]
  constructor
  · rintro ⟨_, rest, hc, rfl, rfl⟩
    exact ⟨rest, hc, rfl⟩
  · rintro ⟨rest, hc, rfl⟩
    exact ⟨_, rest, hc, rfl, rfl⟩

omit [Unicode] in
theorem later_of_iterate {step : Cursor → List Match} (hstep : ∀ c, ∀ m ∈ step c, Later c m.cursor) {n lo : Nat}
    (h : m ∈ iterate step n lo c) : Later c m.cursor := by
  induction n generalizing lo c m with
  | zero =>
    simp only [iterate] at h
    split at h
    · rw [List.mem_singleton.mp h]
      exact .refl c
    · cases h
  | succ n ih =>
    simp only [iterate, List.mem_append, List.mem_flatMap, List.mem_map] at h
    rcases h with ⟨m₁, hm₁, m₂, hm₂, rfl⟩ | h
    · have h₂ : Later m₁.cursor m₂.cursor := ih hm₂
      exact (hstep c m₁ (List.mem_of_mem_filter hm₁)).trans h₂
    · split at h
      · rw [List.mem_singleton.mp h]
        exact .refl c
      · cases h

theorem later_of_run (h : m ∈ run r c) : Later c m.cursor := by
  induction r generalizing c m with
  | empty =>
    rw [List.mem_singleton.mp h]
    exact .refl c
  | char p =>
    obtain ⟨x, rest, hc, -, rfl⟩ := mem_run_char.1 h
    exact ⟨[x], hc, rfl⟩
  | seq r s ihr ihs =>
    obtain ⟨m₁, hm₁, m₂, hm₂, rfl⟩ := mem_run_seq.1 h
    have h₂ : Later m₁.cursor m₂.cursor := ihs hm₂
    exact (ihr hm₁).trans h₂
  | alt r s ihr ihs => exact (mem_run_alt.1 h).elim ihr ihs
  | many r lo hi ih => exact later_of_iterate (fun c m hm => ih hm) h
  | start =>
    simp only [run] at h
    split at h
    · rw [List.mem_singleton.mp h]
      exact .refl c
    · cases h
  | boundary =>
    rw [(mem_run_boundary.1 h).2]
    exact .refl c
  | notBehind p =>
    simp only [run] at h
    split at h
    · cases h
    · rw [List.mem_singleton.mp h]
      exact .refl c
  | group r ih =>
    obtain ⟨m', hm', rfl⟩ := mem_run_group.1 h
    have h' : Later c m'.cursor := ih hm'
    exact h'

theorem mem_run_anyOf {ws : List String} : m ∈ run (anyOf ws) c ↔
    ∃ w ∈ ws, ∃ rest, c.rest = w.toList ++ rest ∧ m = ⟨⟨w.toList.getLast?.or c.before, rest⟩, []⟩ := by
  simp only [anyOf, mem_run_alts, List.mem_map, exists_exists_and_eq_and, mem_run_lit]

/-! ## Searching -/

theorem find?_eq_none {b : Option Char} {s : List Char} : find? r b s = none ↔ ∀ d, Later ⟨b, s⟩ d → run r d = [] := by
  induction s generalizing b with
  | nil =>
    simp only [find?, Option.map_eq_none_iff, List.head?_eq_none_iff]
    constructor
    · rintro h ⟨b', s'⟩ ⟨pre, hp, hb⟩
      obtain ⟨rfl, rfl⟩ := List.nil_eq_append_iff.mp hp
      cases hb
      exact h
    · exact fun h => h _ (.refl _)
  | cons x s ih =>
    simp only [find?]
    split
    · rename_i m hm
      refine ⟨nofun, fun h => ?_⟩
      rw [h _ (.refl _)] at hm
      cases hm
    · rename_i hm
      rw [Option.map_eq_none_iff, ih]
      constructor
      · intro h d hd
        rcases hd.cases with rfl | hd
        · exact List.head?_eq_none_iff.mp hm
        · exact h d hd
      · exact fun h d hd => h d ((Later.next b x s).trans hd)

/-- What is found is a match. -/
theorem mem_run_of_find? {b : Option Char} {s : List Char} {f : Found} (h : find? r b s = some f) :
    ∃ d, Later ⟨b, s⟩ d ∧ ⟨f.after, f.groups⟩ ∈ run r d ∧ f.text = between d f.after := by
  induction s generalizing b f with
  | nil =>
    obtain ⟨m, hm, rfl⟩ := Option.map_eq_some_iff.mp h
    refine ⟨_, .refl _, List.mem_of_mem_head? hm, ?_⟩
    simp [between]
  | cons x s ih =>
    simp only [find?] at h
    split at h
    · rename_i m hm
      cases h
      exact ⟨_, .refl _, List.mem_of_mem_head? hm, rfl⟩
    · obtain ⟨f, hf, rfl⟩ := Option.map_eq_some_iff.mp h
      obtain ⟨d, hd, hm⟩ := ih hf
      exact ⟨d, (Later.next b x s).trans hd, hm⟩

end

end Regex

end Library
