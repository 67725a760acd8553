import SignalSync.Signal.Rendering

/-!
# The line of a written signal

`deterministic_parse` reads the text with its white space reduced, and in capitals. The line
of a written signal is ASCII, its parts are a direction, a known symbol, prices and their labels;
so it lacks most pairs of letters, and each pattern that needs one of those finds nothing.

* `compact_text`, `upper_line`: the two forms of the text;
* `foreign_absent`: the fragments that the line lacks;
* `search_eq_none`: a pattern that needs one of them finds nothing.
-/

namespace SignalSync

open Library Regex

namespace Parser

/-! ## The characters of the parts -/

/-- A character of a numeral. -/
def isNumeral (x : Char) : Bool := x.isDigit || x = ',' || x = '.'

/-- What is printed in a part. -/
def isPrinted (x : Char) : Bool := isUpperOrDigit x || x = ',' || x = '.' || x = '@'

section

variable {n : Numeral} {x : Char}

/-- The characters of ASCII by kind, checked one by one. -/
theorem ascii_facts (hx : x.toNat < 128) :
    (isPrinted x → x.toUpper = x ∧ isAsciiSpace x = false ∧ x ≠ ' ' ∧ x ≠ '/') ∧
    (isNumeral x → isPrinted x ∧ isUpper x = false ∧ x ≠ '@') ∧
    (isUpper x.toUpper → isAsciiSpace x = false ∧ x.isDigit = false) ∧
    (isUpperOrDigit x → (x.isAlphanum || decide (x = '_'))) :=
  ascii_induction (P := fun x => (isPrinted x → x.toUpper = x ∧ isAsciiSpace x = false ∧ x ≠ ' ' ∧ x ≠ '/') ∧
    (isNumeral x → isPrinted x ∧ isUpper x = false ∧ x ≠ '@') ∧ (isUpper x.toUpper → isAsciiSpace x = false ∧ x.isDigit = false) ∧
    (isUpperOrDigit x → (x.isAlphanum || decide (x = '_')))) (by decide +kernel) hx

theorem isNumeral_text (h : x ∈ n.text) : isNumeral x := by
  have hdigit (hx : x.isDigit) : isNumeral x := by simp [isNumeral, hx]
  rcases List.mem_append.mp h with h | h
  · have hwhole : ∀ y ∈ n.whole, y.isDigit := fun y hy => n.digits y (List.mem_append_left _ hy)
    unfold Numeral.wholeText at h
    split at h
    · obtain ⟨first, rest, hgroups, -, -, -, hw⟩ := thousands_spec n.whole_ne
      rw [hgroups, intercalate_cons, List.mem_append, List.mem_flatten] at h
      rcases h with h | ⟨_, hg, h⟩
      · exact hdigit (hwhole x (by rw [hw]; exact List.mem_append_left _ h))
      · obtain ⟨g, hmem, rfl⟩ := List.mem_map.mp hg
        rcases List.mem_cons.mp h with rfl | h
        · rfl
        · exact hdigit (hwhole x (by rw [hw]; exact List.mem_append_right _ (List.mem_flatten_of_mem hmem h)))
    · exact hdigit (hwhole x h)
  · unfold Numeral.fractionText at h
    split at h
    · cases h
    · rcases List.mem_cons.mp h with rfl | h
      · rfl
      · exact hdigit (n.digits x (List.mem_append_right _ h))

theorem text_ne_nil (n : Numeral) : n.text ≠ [] := by
  obtain ⟨x, rest, hx, -⟩ := head_wholeText n
  simp [Numeral.text, hx]

/-- A numeral ends in digits. -/
theorem exists_text_eq (n : Numeral) : ∃ pre digits, n.text = pre ++ digits ∧ digits ≠ [] ∧ ∀ x ∈ digits, x.isDigit := by
  have hwhole : ∀ x ∈ n.whole, x.isDigit := fun x hx => n.digits x (List.mem_append_left _ hx)
  by_cases hfraction : n.fraction = []
  · have htext : n.text = n.wholeText := by simp [Numeral.text, Numeral.fractionText, hfraction]
    rw [htext, Numeral.wholeText]
    split
    · obtain ⟨first, rest, hgroups, hne, -, hlen, hw⟩ := thousands_spec n.whole_ne
      rw [hw] at hwhole
      rw [hgroups, intercalate_cons]
      rcases List.eq_nil_or_concat rest with rfl | ⟨rest, g, rfl⟩
      · exact ⟨[], first, by simp, hne, fun x hx => hwhole x (List.mem_append_left _ hx)⟩
      · have hg : g ∈ rest.concat g := by simp
        refine ⟨first ++ (rest.map (',' :: ·)).flatten ++ [','], g, by simp, ?_, fun x hx => ?_⟩
        · rintro rfl
          cases hlen [] hg
        · exact hwhole x (List.mem_append_right _ (List.mem_flatten_of_mem hg hx))
    · exact ⟨[], n.whole, rfl, n.whole_ne, hwhole⟩
  · exact ⟨n.wholeText ++ ['.'], n.fraction, by simp [Numeral.text, Numeral.fractionText, hfraction], hfraction,
      fun x hx => n.digits x (List.mem_append_right _ hx)⟩

theorem numeral_ascii (h : isNumeral x) : x.toNat < 128 := by
  simp only [isNumeral, Bool.or_eq_true, decide_eq_true_eq] at h
  rcases h with (h | rfl) | rfl
  · exact Nat.lt_of_le_of_lt (Char.isDigit_iff_toNat.mp h).2 (by decide)
  · decide
  · decide

theorem numeral_facts (h : isNumeral x) :
    x.toUpper = x ∧ isUpper x = false ∧ isAsciiSpace x = false ∧ x ≠ ' ' ∧ x ≠ '@' ∧ x ≠ '/' := by
  obtain ⟨hprinted, hnumeral, -, -⟩ := ascii_facts (numeral_ascii h)
  obtain ⟨hx, hupper, hat⟩ := hnumeral h
  obtain ⟨hself, hspace, hblank, hslash⟩ := hprinted hx
  exact ⟨hself, hupper, hspace, hblank, hat, hslash⟩

theorem isUpperOrDigit_of_isDigit (h : x.isDigit) : isUpperOrDigit x := by
  obtain ⟨hlo, hhi⟩ := Char.isDigit_iff_toNat.mp h
  have h0 : '0' ≤ x := hlo
  have h9 : x ≤ '9' := hhi
  simp [isUpperOrDigit, h0, h9]

theorem head_text (n : Numeral) : ∃ x rest, n.text = x :: rest ∧ x.isDigit := by
  obtain ⟨x, rest, hx, hdigit⟩ := head_wholeText n
  exact ⟨x, rest ++ n.fractionText, by rw [Numeral.text, hx]; rfl, hdigit⟩

theorem numeral_of_isDigit (h : x.isDigit) : isNumeral x := by simp [isNumeral, h]

theorem printed_facts (h : isPrinted x) :
    x.toNat < 128 ∧ x.toUpper = x ∧ isAsciiSpace x = false ∧ x ≠ ' ' ∧ x ≠ '/' := by
  have hx : x.toNat < 128 := by
    simp only [isPrinted, isUpperOrDigit, isUpper, Bool.or_eq_true, Bool.and_eq_true, decide_eq_true_eq] at h
    rcases h with (((⟨-, h⟩ | ⟨-, h⟩) | rfl) | rfl) | rfl
    · exact Nat.lt_of_le_of_lt h (by decide)
    · exact Nat.lt_of_le_of_lt h (by decide)
    all_goals decide
  exact ⟨hx, (ascii_facts hx).1 h⟩

theorem printed_of_isUpper (h : isUpper x) : isPrinted x := by simp [isPrinted, isUpperOrDigit, h]

theorem toUpper_of_isUpper (h : isUpper x) : x.toUpper = x := (printed_facts (printed_of_isUpper h)).2.1

theorem printed_text (h : x ∈ n.text) : isPrinted x := by
  have hnumeral := isNumeral_text h
  exact ((ascii_facts (numeral_ascii hnumeral)).2.1 hnumeral).1

theorem map_toUpper_of_printed {u : List Char} (h : ∀ x ∈ u, isPrinted x) : u.map Char.toUpper = u := by
  refine (List.map_congr_left fun x hx => ?_).trans (List.map_id _)
  exact (printed_facts (h x hx)).2.1

end

section

variable [Unicode] {b : Option Char} {u v : List Char} {n : Numeral}

theorem isWord_of_isUpperOrDigit {x : Char} (h : isUpperOrDigit x) : Unicode.isWord x := by
  have hle : x.toNat ≤ 90 := by
    simp only [isUpperOrDigit, isUpper, Bool.or_eq_true, Bool.and_eq_true, decide_eq_true_eq] at h
    rcases h with ⟨-, h⟩ | ⟨-, h⟩
    · exact h
    · exact Nat.le_trans h (by decide)
  have hx : x.toNat < 128 := by omega
  rw [Unicode.isWord, Unicode.isAlnum_ascii hx]
  exact (ascii_facts hx).2.2.2 h

theorem isWord_space : Unicode.isWord ' ' = false := by
  rw [Unicode.isWord, Unicode.isAlnum_ascii (by decide)]
  decide

theorem EndsNumber.head (hv : EndsNumber v) : v.head?.any Unicode.isWord = false := by
  cases v with
  | nil => rfl
  | cons x v =>
    rw [List.head?_cons, Option.any_some, hv x rfl]
    exact isWord_space

theorem isBoundary_text (n : Numeral) (b : Option Char) (hv : EndsNumber v) : Cursor.isBoundary ⟨lastOr n.text b, v⟩ := by
  obtain ⟨pre, digits, htext, hne, hdigits⟩ := exists_text_eq n
  have hword : (lastOr n.text b).any Unicode.isWord := by
    rw [htext, lastOr_append]
    exact lastOr_any hne (fun x hx => isWord_of_isUpperOrDigit (isUpperOrDigit_of_isDigit (hdigits x hx))) _
  simp [Cursor.isBoundary, hword, hv.head]

omit [Unicode] in
theorem label_eq (t : WrittenTakeProfit) : ∃ index, t.label = 'T' :: 'P' :: index ∧ ∀ x ∈ index, x.isDigit := by
  refine ⟨t.index.elim [] (Nat.toDigits 10), rfl, fun x hx => ?_⟩
  cases hi : t.index with
  | none => rw [hi] at hx; cases hx
  | some i =>
    rw [hi] at hx
    exact Nat.isDigit_of_mem_toDigits (by decide) (by decide) hx

/-! ## Known symbols -/

/-- The two halves of a six-letter symbol. -/
def bases : List (List Char) := (currencyCodes ++ ["XAU", "XAG", "BTC", "ETH"]).map String.toList

def quotes : List (List Char) := (currencyCodes ++ ["BTC", "ETH"]).map String.toList

def knownSymbols : List (List Char) := bases.flatMap fun base => quotes.map (base ++ ·)

omit [Unicode] in
theorem take_of_mem_knownSymbols (h : u ∈ knownSymbols) : u.take 3 ∈ bases := by
  obtain ⟨base, hbase, hu⟩ := List.mem_flatMap.mp h
  obtain ⟨quote, -, rfl⟩ := List.mem_map.mp hu
  have hlength : ∀ base ∈ bases, base.length = 3 := by decide +kernel
  rwa [← hlength base hbase, List.take_left]

omit [Unicode] in
/-- A word that does not begin with a base is no symbol. -/
theorem not_mem_of_take {ws : List String} (hno : ∀ w ∈ ws, w.toList.take 3 ∉ bases) (h : u ∈ knownSymbols) : String.ofList u ∉ ws :=
  fun hmem => hno _ hmem (by
    rw [String.toList_ofList]
    exact take_of_mem_knownSymbols h)

/-- `core` leaves capitals and digits alone. -/
theorem core_eq_self (h : ∀ x ∈ u, isUpperOrDigit x) : core u = u := by
  have huses : Uses (char fun c => !isUpperOrDigit c) fun c => !isUpperOrDigit c := uses_char fun _ => id
  rw [core, sub_eq_subFrom, subFrom_eq progress_char, find?_eq_none_of_uses huses fun x hx => by simp [h x hx]]
  rfl

theorem mem_knownSymbols (hl : ∀ x ∈ u, isUpper x) (h6 : u.length = 6) (hk : looksLikeSymbol u) : u ∈ knownSymbols := by
  have hcore : core u = u := core_eq_self fun x hx => by simp [isUpperOrDigit, hl x hx]
  have hdigits : fullmatch (seqs [anyOf ["US", "NAS", "GER", "DE", "UK", "JP", "HK"], many digit 2 (some 4), opt (char isUpper)]) u = false := by
    have huses : Uses (seqs [anyOf ["US", "NAS", "GER", "DE", "UK", "JP", "HK"], many digit 2 (some 4), opt (char isUpper)])
        fun x => (Unicode.decimal x).isSome :=
      .seq_right (.seq_left (.many (by decide) (uses_char fun _ => id)))
    refine List.any_eq_false.mpr fun m hm => ?_
    obtain ⟨x, hx, hdecimal⟩ := huses _ m hm
    have hupper := hl x hx
    have hascii : x.toNat < 128 := (printed_facts (printed_of_isUpper hupper)).1
    have hdigit : x.isDigit = false := ((ascii_facts hascii).2.2.1 (by rwa [toUpper_of_isUpper hupper])).2
    simp [decimal_other hascii hdigit] at hdecimal
  unfold looksLikeSymbol at hk
  simp only [hcore, hdigits, Bool.or_false, Bool.and_eq_true, decide_eq_true_eq] at hk
  obtain ⟨⟨-, hbase⟩, hquote⟩ := hk
  have hsplit : u = u.take 3 ++ (u.drop 3).take 3 := by
    rw [List.take_of_length_le (l := u.drop 3) (by simp [h6]), List.take_append_drop]
  rw [hsplit]
  have hmem : u.take 3 ∈ bases := List.mem_map.mpr ⟨_, hbase, String.toList_ofList⟩
  have hmem' : (u.drop 3).take 3 ∈ quotes := List.mem_map.mpr ⟨_, hquote, String.toList_ofList⟩
  exact List.mem_flatMap.mpr ⟨_, hmem, List.mem_map_of_mem hmem'⟩

/-! ## The line -/

namespace WrittenSignal

variable (s : WrittenSignal)

def upperWord : List Char := s.word.map Char.toUpper

theorem exists_side : ∃ side ∈ sides, s.upperWord = side.toList :=
  ⟨_, s.word_side, String.toList_ofList.symm⟩

theorem symbol_mem : s.symbol ∈ knownSymbols := mem_knownSymbols s.symbol_letters s.symbol_length s.symbol_known

end WrittenSignal

/-- The kinds of parts after the symbol. -/
inductive IsLevelPart : List Char → Prop
  | sign : IsLevelPart ['@']
  | entry (n : Numeral) : IsLevelPart ('@' :: n.text)
  | stopLoss : IsLevelPart "SL".toList
  | number (n : Numeral) : IsLevelPart n.text
  | takeProfit (t : WrittenTakeProfit) : IsLevelPart t.label

variable {s : WrittenSignal} {part : List Char}

theorem isLevelPart_of_mem (h : part ∈ s.parts) : IsLevelPart part := by
  unfold WrittenSignal.parts at h
  rcases List.mem_append.mp h with h | h
  · cases he : s.entry with
    | none => rw [he] at h; cases h
    | some e =>
      rw [he, Option.elim_some, WrittenEntry.parts] at h
      split at h
      · rcases List.mem_cons.mp h with rfl | h
        · exact .sign
        · rw [List.mem_singleton.mp h]
          exact .number e.price
      · rw [List.mem_singleton.mp h]
        exact .entry e.price
  rcases List.mem_cons.mp h with rfl | h
  · exact .stopLoss
  rcases List.mem_cons.mp h with rfl | h
  · exact .number s.stopLoss
  · obtain ⟨t, -, h⟩ := List.mem_flatMap.mp h
    rcases List.mem_cons.mp h with rfl | h
    · exact .takeProfit t
    · rw [List.mem_singleton.mp h]
      exact .number t.price

omit [Unicode] in
theorem IsLevelPart.printed (h : IsLevelPart part) : part ≠ [] ∧ ∀ x ∈ part, isPrinted x := by
  cases h with
  | sign => exact ⟨by simp, by decide⟩
  | entry n =>
    refine ⟨by simp, fun x hx => ?_⟩
    rcases List.mem_cons.mp hx with rfl | hx
    · rfl
    · exact printed_text hx
  | stopLoss => exact ⟨by decide, by decide⟩
  | number n => exact ⟨text_ne_nil n, fun x hx => printed_text hx⟩
  | takeProfit t =>
    obtain ⟨index, hlabel, hindex⟩ := label_eq t
    refine ⟨by simp [hlabel], fun x hx => ?_⟩
    rw [hlabel] at hx
    rcases List.mem_cons.mp hx with rfl | hx
    · rfl
    rcases List.mem_cons.mp hx with rfl | hx
    · rfl
    · simp [isPrinted, isUpperOrDigit_of_isDigit (hindex x hx)]

theorem parts_printed (h : part ∈ s.symbol :: s.parts) : part ≠ [] ∧ ∀ x ∈ part, isPrinted x := by
  rcases List.mem_cons.mp h with rfl | h
  · exact ⟨fun h => by simpa [h] using s.symbol_length, fun x hx => printed_of_isUpper (s.symbol_letters x hx)⟩
  · exact (isLevelPart_of_mem h).printed

theorem upperWord_printed : s.upperWord ≠ [] ∧ ∀ x ∈ s.upperWord, isUpper x := by
  obtain ⟨side, hmem, hside⟩ := s.exists_side
  have hsides : ∀ side ∈ sides, side.toList ≠ [] ∧ ∀ x ∈ side.toList, isUpper x := by decide +kernel
  rw [hside]
  exact hsides side hmem

/-- Parts with a blank before each. -/
def blanks (parts : List (List Char)) : List Char := (parts.map (' ' :: ·)).flatten

omit [Unicode] in
theorem blanks_cons (parts : List (List Char)) : blanks (u :: parts) = ' ' :: (u ++ blanks parts) := rfl

namespace WrittenSignal

/-- The text with its white space reduced. -/
def line (s : WrittenSignal) : List Char := s.word ++ blanks (s.symbol :: s.parts)

/-- And in capitals. -/
def upperLine (s : WrittenSignal) : List Char := s.upperWord ++ blanks (s.symbol :: s.parts)

end WrittenSignal

theorem isPart_of_printed (hne : u ≠ []) (h : ∀ x ∈ u, isPrinted x) : IsPart u :=
  ⟨hne, fun x hx => by
    obtain ⟨hascii, -, hspace, -⟩ := printed_facts (h x hx)
    rw [Unicode.isSpace_ascii hascii, hspace]⟩

omit [Unicode] in
/-- A letter of either case. -/
theorem letter_facts {x : Char} (hupper : isUpper x.toUpper) : x.toNat < 128 ∧ isAsciiSpace x = false ∧ x.isDigit = false := by
  have hascii : x.toNat < 128 := by
    have hle : x.toUpper.toNat ≤ 90 := by
      simp only [isUpper, Bool.and_eq_true, decide_eq_true_eq] at hupper
      exact hupper.2
    by_contra hx
    have hno : ¬ ('a'.val ≤ x.val ∧ x.val ≤ 'z'.val) := fun hz => hx (Nat.lt_of_le_of_lt hz.2 (by decide))
    have hself : x.toUpper = x := dif_neg hno
    rw [hself] at hle
    omega
  exact ⟨hascii, (ascii_facts hascii).2.2.1 hupper⟩

theorem word_facts {x : Char} (h : x ∈ s.word) : x.toNat < 128 ∧ isAsciiSpace x = false ∧ x.isDigit = false :=
  letter_facts (upperWord_printed.2 _ (List.mem_map_of_mem h))

theorem isPart_word : IsPart s.word := by
  refine ⟨fun h => ?_, fun x hx => ?_⟩
  · have hne := (upperWord_printed (s := s)).1
    simp [WrittenSignal.upperWord, h] at hne
  · obtain ⟨hascii, hspace, -⟩ := word_facts hx
    rw [Unicode.isSpace_ascii hascii, hspace]

theorem compact_text (s : WrittenSignal) : compact s.text = s.line := by
  refine compact_layOut isPart_word (fun part hmem => ?_) fun i => ⟨s.gap_ne i, fun x hx => ?_⟩
  · obtain ⟨hne, hprinted⟩ := parts_printed hmem
    exact isPart_of_printed hne hprinted
  · rcases s.gap_space i x hx with rfl | rfl
    · rw [Unicode.isSpace_ascii (by decide)]
      rfl
    · rw [Unicode.isSpace_ascii (by decide)]
      rfl

omit [Unicode] in
theorem mem_blanks {x : Char} {parts : List (List Char)} (h : x ∈ blanks parts) : x = ' ' ∨ ∃ part ∈ parts, x ∈ part := by
  obtain ⟨_, hmem, hx⟩ := List.mem_flatten.mp h
  obtain ⟨part, hpart, rfl⟩ := List.mem_map.mp hmem
  exact (List.mem_cons.mp hx).imp id fun hx => ⟨part, hpart, hx⟩

omit [Unicode] in
theorem blanks_ascii {parts : List (List Char)} (h : ∀ part ∈ parts, ∀ x ∈ part, isPrinted x) :
    ∀ x ∈ blanks parts, x.toNat < 128 := by
  intro x hx
  rcases mem_blanks hx with rfl | ⟨part, hmem, hx⟩
  · decide
  · exact (printed_facts (h part hmem x hx)).1

theorem line_ascii : ∀ x ∈ s.line, x.toNat < 128 := fun x hx =>
  (List.mem_append.mp hx).elim (fun hx => (word_facts hx).1) (blanks_ascii (fun _ hmem => (parts_printed hmem).2) x)

omit [Unicode] in
theorem map_toUpper_blanks {parts : List (List Char)} (h : ∀ part ∈ parts, ∀ x ∈ part, isPrinted x) :
    (blanks parts).map Char.toUpper = blanks parts := by
  refine (List.map_congr_left fun x hx => ?_).trans (List.map_id _)
  rcases mem_blanks hx with rfl | ⟨part, hmem, hx⟩
  · rfl
  · exact (printed_facts (h part hmem x hx)).2.1

theorem map_toUpper_line : s.line.map Char.toUpper = s.upperLine := by
  rw [WrittenSignal.line, List.map_append, map_toUpper_blanks fun part hmem => (parts_printed hmem).2]
  rfl

theorem upperWord_isPrinted : ∀ x ∈ s.upperWord, isPrinted x := fun x hx => printed_of_isUpper (upperWord_printed.2 x hx)

theorem upperLine_ascii : ∀ x ∈ s.upperLine, x.toNat < 128 := fun x hx =>
  (List.mem_append.mp hx).elim (fun hx => (printed_facts (upperWord_isPrinted x hx)).1) (blanks_ascii (fun _ hmem => (parts_printed hmem).2) x)

theorem map_toUpper_upperLine : s.upperLine.map Char.toUpper = s.upperLine := by
  rw [WrittenSignal.upperLine, List.map_append, map_toUpper_blanks fun part hmem => (parts_printed hmem).2,
    map_toUpper_of_printed upperWord_isPrinted]

theorem upper_line : upper s.line = s.upperLine := by
  rw [upper, Unicode.upper_ascii fun x hx => line_ascii x (by rwa [String.toList_ofList] at hx), asciiUpper, String.toList_ofList,
    String.toList_ofList, map_toUpper_line]

/-! ## Fragments that the text does not have -/

omit [Unicode] in
theorem infix_append_cons {f u v : List Char} {x : Char} (hx : x ∉ f) (h : f <:+: u ++ x :: v) : f <:+: u ∨ f <:+: v := by
  rcases List.infix_append_iff.mp h with h | h | ⟨l₁, l₂, rfl, h₁, h₂⟩
  · exact .inl h
  · rcases List.infix_cons_iff.mp h with h | h
    · cases f with
      | nil => exact .inl List.nil_infix
      | cons y f =>
        obtain ⟨rfl, -⟩ := List.cons_prefix_cons.mp h
        exact absurd List.mem_cons_self hx
    · exact .inr h
  · cases l₂ with
    | nil =>
      rw [List.append_nil]
      exact .inl h₁.isInfix
    | cons y l₂ =>
      obtain ⟨rfl, -⟩ := List.cons_prefix_cons.mp h₂
      exact absurd (List.mem_append_right _ List.mem_cons_self) hx

omit [Unicode] in
theorem infix_blanks {f : List Char} {parts : List (List Char)} (hf : ' ' ∉ f) (h : f <:+: u ++ blanks parts) :
    ∃ part ∈ u :: parts, f <:+: part := by
  induction parts generalizing u with
  | nil => exact ⟨u, List.mem_cons_self, by simpa [blanks] using h⟩
  | cons part parts ih =>
    rw [blanks_cons] at h
    rcases infix_append_cons hf h with h | h
    · exact ⟨u, List.mem_cons_self, h⟩
    · obtain ⟨part', hmem, h⟩ := ih h
      exact ⟨part', List.mem_cons_of_mem _ hmem, h⟩

/-- A fragment of capitals that none of the words has. -/
def isAbsent (words : List (List Char)) (f : String) : Bool :=
  f ≠ "" && f.toList.all isUpper && words.all fun w => !decide (f.toList <:+: w)

/-- The directions and the symbols. -/
def openingWords : List (List Char) := sides.map String.toList ++ knownSymbols

def labelWords : List (List Char) := ["SL".toList, "TP".toList]

/-- Each pattern that does not match needs one of these. -/
def foreign : List String :=
  ["IF", "MA", "MI", "PO", "WA", "OO", "HI", "EA", "OP", "DO", "IG", "AV", "AN", "TE", "UL", "EX", "CK", "OU", "OL", "LE", "OS", "XI",
    "NT", "IL", "IM", "BE"]

omit [Unicode] in
theorem isAbsent_iff {words : List (List Char)} {f : String} : isAbsent words f ↔
    f.toList ≠ [] ∧ (∀ x ∈ f.toList, isUpper x) ∧ ∀ w ∈ words, ¬ f.toList <:+: w := by
  simp [isAbsent, String.toList_eq_nil_iff, and_assoc]

omit [Unicode] in
/-- A fragment of two letters is in neither part of a word, nor does it join them. -/
theorem not_infix_append {f u v : List Char} (hlength : f.length = 2) (hu : ¬ f <:+: u) (hv : ¬ f <:+: v)
    (hjoin : u.getLast? ≠ f.head? ∨ v.head? ≠ f.getLast?) : ¬ f <:+: u ++ v := by
  intro h
  rcases List.infix_append_iff.mp h with h | h | ⟨l₁, l₂, rfl, ⟨u', rfl⟩, ⟨v', rfl⟩⟩
  · exact hu h
  · exact hv h
  · cases l₁ with
    | nil => exact hv (List.prefix_append l₂ v').isInfix
    | cons x l₁ =>
      cases l₂ with
      | nil => exact hu (by simpa using (List.suffix_append u' (x :: l₁)).isInfix)
      | cons y l₂ =>
        have hnil : l₁ = [] ∧ l₂ = [] := by
          simp only [List.length_append, List.length_cons] at hlength
          exact ⟨List.eq_nil_of_length_eq_zero (by omega), List.eq_nil_of_length_eq_zero (by omega)⟩
        obtain ⟨rfl, rfl⟩ := hnil
        simp at hjoin

/-- What the labels of the levels begin with. -/
def labelStarts : List String := ["SL", "ST", "TP", "TA", "AT"]

omit [Unicode] in
theorem isAbsent_opening : ∀ f ∈ labelStarts ++ foreign, isAbsent openingWords f := by
  have hparts : ∀ f ∈ labelStarts ++ foreign, f.toList.length = 2 ∧ (∀ x ∈ f.toList, isUpper x) ∧
      ∀ w ∈ bases ++ sides.map String.toList, ¬ f.toList <:+: w := by decide +kernel
  have hjoin : ∀ f ∈ labelStarts ++ foreign,
      (∀ base ∈ bases, base.getLast? ≠ f.toList.head?) ∨ ∀ quote ∈ quotes, quote.head? ≠ f.toList.getLast? := by decide +kernel
  have hquotes : ∀ quote ∈ quotes, quote ∈ bases := by decide +kernel
  intro f hf
  obtain ⟨hlength, hupper, habsent⟩ := hparts f hf
  refine isAbsent_iff.2 ⟨fun hnil => by simp [hnil] at hlength, hupper, fun w hw => ?_⟩
  rcases List.mem_append.mp hw with hside | hsymbol
  · exact habsent w (List.mem_append_right _ hside)
  · obtain ⟨base, hbase, hw⟩ := List.mem_flatMap.mp hsymbol
    obtain ⟨quote, hquote, rfl⟩ := List.mem_map.mp hw
    exact not_infix_append hlength (habsent base (List.mem_append_left _ hbase)) (habsent quote (List.mem_append_left _ (hquotes quote hquote)))
      ((hjoin f hf).imp (fun h => h base hbase) fun h => h quote hquote)

omit [Unicode] in
theorem isAbsent_labelStart {fs : List String} (h : fs ⊆ labelStarts) : ∀ f ∈ fs, isAbsent openingWords f :=
  fun f hf => isAbsent_opening f (List.mem_append_left _ (h hf))

omit [Unicode] in
theorem isAbsent_foreign : ∀ f ∈ foreign, isAbsent openingWords f ∧ isAbsent labelWords f := by
  have hlabels : ∀ f ∈ foreign, isAbsent labelWords f := by decide +kernel
  exact fun f hf => ⟨isAbsent_opening f (List.mem_append_right _ hf), hlabels f hf⟩

omit [Unicode] in
theorem infix_append_of_disjoint {f : List Char} (hf : f ≠ []) (hd : ∀ x ∈ v, x ∉ f) (h : f <:+: u ++ v) : f <:+: u := by
  rcases List.infix_append_iff.mp h with h | h | ⟨l₁, l₂, rfl, h₁, h₂⟩
  · exact h
  · obtain ⟨x, hx⟩ := List.exists_mem_of_ne_nil f hf
    exact absurd hx (hd x (h.subset hx))
  · cases l₂ with
    | nil =>
      rw [List.append_nil]
      exact h₁.isInfix
    | cons y l₂ => exact absurd (List.mem_append_right _ List.mem_cons_self) (hd y (h₂.subset List.mem_cons_self))

omit [Unicode] in
/-- Nor has a part without capitals. -/
theorem not_within_of_plain {f : List Char} (hne : f ≠ []) (hupper : ∀ x ∈ f, isUpper x) (h : ∀ x ∈ part, isUpper x = false) :
    ¬ f <:+: part := fun hwithin => by
  obtain ⟨x, hx⟩ := List.exists_mem_of_ne_nil _ hne
  have hno := h x (hwithin.subset hx)
  rw [hupper x hx] at hno
  cases hno

omit [Unicode] in
theorem text_plain (n : Numeral) : ∀ x ∈ n.text, isUpper x = false := fun _ hx => (numeral_facts (isNumeral_text hx)).2.1

omit [Unicode] in
theorem IsLevelPart.not_within {f : String} (h : IsLevelPart part) (hf : isAbsent labelWords f) : ¬ f.toList <:+: part := by
  obtain ⟨hne, hupper, habsent⟩ := isAbsent_iff.1 hf
  cases h with
  | sign => exact not_within_of_plain hne hupper (by decide)
  | entry n =>
    refine not_within_of_plain hne hupper fun x hx => ?_
    rcases List.mem_cons.mp hx with rfl | hx
    · decide
    · exact text_plain n x hx
  | stopLoss => exact habsent _ (by decide)
  | number n => exact not_within_of_plain hne hupper (text_plain n)
  | takeProfit t =>
    obtain ⟨index, hlabel, hindex⟩ := label_eq t
    have hdigits : ∀ x ∈ index, x ∉ f.toList := fun x hx hmem => by
      have hno := (numeral_facts (numeral_of_isDigit (hindex x hx))).2.1
      rw [hupper x hmem] at hno
      cases hno
    rw [hlabel]
    exact fun hwithin => habsent ['T', 'P'] (by decide) (infix_append_of_disjoint (u := ['T', 'P']) hne hdigits hwithin)

/-- Of the direction, the symbol and other parts. -/
theorem not_within_blanks {f : String} {parts : List (List Char)} (hf : isAbsent openingWords f) (hparts : ∀ part ∈ parts, ¬ f.toList <:+: part) :
    ¬ f.toList <:+: s.upperWord ++ blanks (s.symbol :: parts) := by
  obtain ⟨-, hupper, habsent⟩ := isAbsent_iff.1 hf
  intro hwithin
  have hblank : ' ' ∉ f.toList := fun hx => by cases hupper ' ' hx
  obtain ⟨part, hmem, hwithin⟩ := infix_blanks hblank hwithin
  rcases List.mem_cons.mp hmem with rfl | hmem
  · obtain ⟨side, hside, hword⟩ := s.exists_side
    exact habsent _ (List.mem_append_left _ (List.mem_map_of_mem hside)) (hword ▸ hwithin)
  rcases List.mem_cons.mp hmem with rfl | hmem
  · exact habsent _ (List.mem_append_right _ s.symbol_mem) hwithin
  · exact hparts part hmem hwithin

theorem foreign_absent {f : String} (h : f ∈ foreign) : ¬ f.toList <:+: s.upperLine := by
  obtain ⟨hopening, hlabel⟩ := isAbsent_foreign f h
  exact not_within_blanks hopening fun part hmem => (isLevelPart_of_mem hmem).not_within hlabel

/-- A pattern that needs a foreign fragment does not match. -/
theorem search_eq_none {r : Regex} (h : Needs r foreign) : search r s.line = none ∧ search r s.upperLine = none := by
  have habsent : ∀ f ∈ foreign, ¬ f.toList <:+: s.upperLine := fun f hf => foreign_absent hf
  refine ⟨find?_eq_none_of_needs h line_ascii ?_, find?_eq_none_of_needs h upperLine_ascii ?_⟩
  · rwa [map_toUpper_line]
  · rwa [map_toUpper_upperLine]

/-! ## Patterns that do not match -/

theorem needs_hedged : Needs hedgedPattern foreign := by
  refine needs_word ?_
  simp only [List.forall_mem_cons]
  exact ⟨⟨"IF", by decide, by decide⟩, ⟨"MA", by decide, by decide⟩, ⟨"MI", by decide, by decide⟩, ⟨"PO", by decide, by decide⟩,
    ⟨"WA", by decide, by decide⟩, ⟨"OO", by decide, by decide⟩, nofun⟩

theorem needs_status : Needs statusPattern foreign := by
  refine .alts ?_
  simp only [List.forall_mem_cons]
  refine ⟨?_, ?_, ?_, nofun⟩
  · refine .seq_right (.seq_right (.seq_right (.seq_left (needs_anyOf ?_))))
    simp only [List.forall_mem_cons]
    exact ⟨⟨"HI", by decide, by decide⟩, ⟨"EA", by decide, by decide⟩, nofun⟩
  · exact .seq_right (.seq_left (needs_lit ⟨"OP", by decide, by decide⟩))
  · exact .seq_right (.seq_right (.seq_right (.seq_left (needs_lit ⟨"HI", by decide, by decide⟩))))

theorem needs_context : Needs contextPattern foreign := by
  refine .alts ?_
  simp only [List.forall_mem_cons]
  refine ⟨?_, ?_, ?_, ?_, nofun⟩
  · refine .seq_right (.seq_left (.alts ?_))
    simp only [List.forall_mem_cons]
    exact ⟨.seq_left (needs_lit ⟨"DO", by decide, by decide⟩), .seq_left (needs_lit ⟨"DO", by decide, by decide⟩),
      needs_lit ⟨"IG", by decide, by decide⟩, needs_lit ⟨"AV", by decide, by decide⟩, nofun⟩
  · exact .seq_right (.seq_left (needs_lit ⟨"AN", by decide, by decide⟩))
  · refine .seq_right (.seq_left (.alts ?_))
    simp only [List.forall_mem_cons]
    exact ⟨needs_lit ⟨"TE", by decide, by decide⟩, .seq_left (needs_lit ⟨"UL", by decide, by decide⟩),
      needs_lit ⟨"EX", by decide, by decide⟩, needs_lit ⟨"CK", by decide, by decide⟩, nofun⟩
  · refine .seq_right (.seq_right (.seq_left (needs_anyOf ?_)))
    simp only [List.forall_mem_cons]
    exact ⟨⟨"OU", by decide, by decide⟩, ⟨"OL", by decide, by decide⟩, nofun⟩

theorem needs_breakEven : Needs breakEvenPattern foreign := by
  refine .seq_right (.seq_right (.seq_left (.alts ?_)))
  simp only [List.forall_mem_cons]
  exact ⟨needs_lit ⟨"BE", by decide, by decide⟩, .seq_left (needs_lit ⟨"EA", by decide, by decide⟩), nofun⟩

theorem needs_cancel : Needs cancelPattern foreign := by
  refine .seq_right (.seq_left (.alts ?_))
  simp only [List.forall_mem_cons]
  exact ⟨.seq_left (needs_lit ⟨"AN", by decide, by decide⟩), .seq_left (needs_lit ⟨"LE", by decide, by decide⟩), nofun⟩

theorem needs_percent : Needs percentPattern foreign := .seq_right (.seq_left (needs_lit ⟨"OS", by decide, by decide⟩))

theorem needs_half : Needs halfPattern foreign := .seq_right (.seq_left (needs_lit ⟨"OS", by decide, by decide⟩))

theorem needs_close : Needs closePattern foreign := by
  refine .seq_right (.seq_left (needs_anyOf ?_))
  simp only [List.forall_mem_cons]
  exact ⟨⟨"OS", by decide, by decide⟩, ⟨"XI", by decide, by decide⟩, nofun⟩

theorem needs_wordGroup {ws : List String} (h : ∀ w ∈ ws, ∃ f ∈ foreign, f.toList <:+: w.toList.map Char.toUpper) :
    Needs (wordGroup ws) foreign := .seq_right (.seq_left (.group (needs_anyOf h)))

theorem needs_entry : Needs (litI "ENTRY") foreign := needs_litI (by decide) ⟨"NT", by decide, by decide⟩

theorem needs_entryLabel : Needs entryLabel foreign := .seq_right (.seq_left needs_entry)

theorem entryRange_line : entryRange s.line = (none, none) := by
  have hnone := (search_eq_none (s := s) (needs_entryLabel.seq_left
    (s := seqs [group number, star space, rangeSign, star space, group number]))).1
  unfold entryRange
  rw [show seqs [entryLabel, group number, star space, rangeSign, star space, group number] =
    seq entryLabel (seqs [group number, star space, rangeSign, star space, group number]) from rfl, hnone]

theorem labelledNumber_entry : labelledNumber s.line (litI "ENTRY") = none := by
  have hnone := (search_eq_none (s := s) (needs_entry.seq_left
    (s := seqs [star space, opt labelSeparator, star space, group number, boundary]))).1
  unfold labelledNumber
  rw [show seqs [litI "ENTRY", star space, opt labelSeparator, star space, group number, boundary] =
    seq (litI "ENTRY") (seqs [star space, opt labelSeparator, star space, group number, boundary]) from rfl, hnone]
  rfl

end

end Parser

end SignalSync
