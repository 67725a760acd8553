import SignalSync.Library.Scan
import SignalSync.Library.Upsert
import SignalSync.Signal.Numerals

/-!
# Signals in writing

A signal as it is written: a direction, a symbol, an entry after a sign, a stop loss and
take profits, with any white space between the parts. The numbers, and the text with its
white space reduced, are read here; what the parser makes of the whole is in `RoundTrip`.

* `reads_number`: the number pattern reads a numeral and nothing after it;
* `decimal_text`: and its value is the numeral's;
* `compact_layOut`: the white space between the parts is reduced to blanks;
* `WrittenSignal`: the signals, and what each of them says.
-/

namespace SignalSync

open Library Regex

namespace Parser

/-! ## Numerals -/

/-- An unsigned decimal, written with thousands commas or without. -/
structure Numeral where
  whole : List Char
  fraction : List Char := []
  commas : Bool := false
  whole_ne : whole ≠ []
  digits : ∀ x ∈ whole ++ fraction, x.isDigit

/-- The groups of three, from the right. -/
def thousands (digits : List Char) : List (List Char) :=
  (if digits.length % 3 = 0 then [] else [digits.take (digits.length % 3)]) ++ chunks 3 (digits.drop (digits.length % 3))

namespace Numeral

variable (n : Numeral)

def wholeText : List Char := if n.commas then [','].intercalate (thousands n.whole) else n.whole

def fractionText : List Char := if n.fraction = [] then [] else '.' :: n.fraction

def text : List Char := n.wholeText ++ n.fractionText

def value : Decimal :=
  ⟨false, ((n.whole ++ n.fraction).map fun x => x.toNat - 48).foldl (fun m d => 10 * m + d) 0, -n.fraction.length⟩

end Numeral

theorem thousands_spec {digits : List Char} (h : digits ≠ []) : ∃ first rest, thousands digits = first :: rest ∧
    first ≠ [] ∧ first.length ≤ 3 ∧ (∀ g ∈ rest, g.length = 3) ∧ digits = first ++ rest.flatten := by
  have hchunks {l : List Char} (hl : l.length % 3 = 0) : ∀ g ∈ chunks 3 l, g.length = 3 := by
    intro g hg
    obtain ⟨i, hi, rfl⟩ := List.mem_map.mp hg
    have hi := List.mem_range.mp hi
    rw [List.length_take, List.length_drop]
    omega
  have hdrop : (digits.drop (digits.length % 3)).length % 3 = 0 := by
    rw [List.length_drop]
    omega
  have hpos := List.length_pos_iff.mpr h
  by_cases hmod : digits.length % 3 = 0
  · have hflat := flatten_chunks (n := 3) (by decide) digits
    cases hc : chunks 3 digits with
    | nil => simp [hc] at hflat; exact absurd hflat h
    | cons first rest =>
      have hfirst := hchunks hmod first (by simp [hc])
      refine ⟨first, rest, by simp [thousands, hmod, hc], ?_, hfirst.le, fun g hg => hchunks hmod g (by simp [hc, hg]), ?_⟩
      · rintro rfl
        cases hfirst
      · rw [← hflat, hc, List.flatten_cons]
  · refine ⟨_, _, by rw [thousands, if_neg hmod]; rfl, ?_, ?_, hchunks hdrop, ?_⟩
    · rw [← List.length_pos_iff, List.length_take]
      omega
    · rw [List.length_take]
      omega
    · rw [flatten_chunks (by decide), List.take_append_drop]

theorem intercalate_cons {x : Char} (first : List Char) (rest : List (List Char)) :
    [x].intercalate (first :: rest) = first ++ (rest.map (x :: ·)).flatten := by
  induction rest generalizing first with
  | nil => simp
  | cons g rest ih => rw [List.intercalate_cons_cons, ih]; simp

section

variable [Unicode] {b : Option Char} {u v w part : List Char} {rest : List (List Char)} {gap : Nat → List Char} {n : Numeral}

theorem decimal_digit {x : Char} (h : x.isDigit) : Unicode.decimal x = some (x.toNat - 48) := by
  have hx : x.toNat < 128 := Nat.lt_of_le_of_lt (Char.isDigit_iff_toNat.mp h).2 (by decide)
  rw [Unicode.decimal_ascii hx, asciiDecimal, if_pos h]

theorem decimal_other {x : Char} (hx : x.toNat < 128) (h : x.isDigit = false) : Unicode.decimal x = none := by
  rw [Unicode.decimal_ascii hx, asciiDecimal, h]
  rfl

/-- What comes after a numeral. -/
def EndsNumber (v : List Char) : Prop := ∀ x ∈ v.head?, x = ' '

theorem isDecimal_digit {x : Char} (h : x.isDigit) : isDecimal x := by
  rw [isDecimal, decimal_digit h]
  rfl

theorem isWhole_wholeText (n : Numeral) : IsWhole n.wholeText := by
  have hdigits : ∀ x ∈ n.whole, isDecimal x := fun x hx => isDecimal_digit (n.digits x (List.mem_append_left _ hx))
  unfold Numeral.wholeText
  split
  · obtain ⟨first, rest, hgroups, hne, hlen, hrest, hwhole⟩ := thousands_spec n.whole_ne
    rw [hwhole] at hdigits
    refine ⟨first, rest, by rw [hgroups, intercalate_cons], hne, fun x hx => hdigits x (List.mem_append_left _ hx), fun _ => hlen, ?_⟩
    exact fun g hg => ⟨hrest g hg, fun x hx => hdigits x (List.mem_append_right _ (List.mem_flatten_of_mem hg hx))⟩
  · exact ⟨n.whole, [], by simp, n.whole_ne, hdigits, fun h => absurd rfl h, nofun⟩

theorem isFraction_fractionText (n : Numeral) : IsFraction n.fractionText := by
  unfold Numeral.fractionText
  split
  · exact .inl rfl
  · rename_i hne
    exact .inr ⟨n.fraction, rfl, hne, fun x hx => isDecimal_digit (n.digits x (List.mem_append_right _ hx))⟩

theorem EndsNumber.not_goesOn (hv : EndsNumber v) : goesOn v = false := by
  cases v with
  | nil => rfl
  | cons x v =>
    cases hv x rfl
    simp [goesOn, isSeparator, isDecimal, decimal_other (x := ' ') (by decide) (by decide)]

omit [Unicode] in
theorem head_wholeText (n : Numeral) : ∃ x rest, n.wholeText = x :: rest ∧ x.isDigit := by
  have hdigits : ∀ x ∈ n.whole, x.isDigit := fun x hx => n.digits x (List.mem_append_left _ hx)
  unfold Numeral.wholeText
  split
  · obtain ⟨first, rest, hgroups, hne, -, -, hwhole⟩ := thousands_spec n.whole_ne
    obtain ⟨x, first, rfl⟩ := List.exists_cons_of_ne_nil hne
    exact ⟨x, _, by rw [hgroups, intercalate_cons]; rfl, hdigits x (by simp [hwhole])⟩
  · obtain ⟨x, rest, hx⟩ := List.exists_cons_of_ne_nil n.whole_ne
    exact ⟨x, rest, hx, hdigits x (by simp [hx])⟩

theorem isUnsigned_text (n : Numeral) : IsUnsigned n.text := .whole (isWhole_wholeText n) (isFraction_fractionText n)

theorem reads_number (n : Numeral) (hv : EndsNumber v) : Reads number b n.text v [] := by
  have h : Reads number b ([] ++ n.text) v [] := reads_written (.inl rfl) (isUnsigned_text n) hv.not_goesOn
  exact h

omit [Unicode] in
/-- The characters of a numeral, commas aside. -/
theorem filter_text (n : Numeral) : n.text.filter (· ≠ ',') = n.whole ++ n.fractionText := by
  have hdigit {x : Char} (h : x.isDigit) : x ≠ ',' := fun he => by
    rw [he] at h
    cases h
  have hself {l : List Char} (h : ∀ x ∈ l, x.isDigit) : l.filter (· ≠ ',') = l :=
    List.filter_eq_self.2 fun x hx => by simpa using hdigit (h x hx)
  have hwhole : n.wholeText.filter (· ≠ ',') = n.whole := by
    have hdigits : ∀ x ∈ n.whole, x.isDigit := fun x hx => n.digits x (List.mem_append_left _ hx)
    unfold Numeral.wholeText
    split
    · obtain ⟨first, rest, hgroups, -, -, -, hw⟩ := thousands_spec n.whole_ne
      rw [hw] at hdigits
      have hrest : ((rest.map (',' :: ·)).flatten.filter (· ≠ ',')) = rest.flatten.filter (· ≠ ',') := by
        simp [List.filter_flatten, Function.comp_def]
      rw [hgroups, intercalate_cons, List.filter_append, hrest, ← List.filter_append, hself hdigits, hw]
    · exact hself hdigits
  have hfraction : n.fractionText.filter (· ≠ ',') = n.fractionText := by
    have hdigits : ∀ x ∈ n.fraction, x.isDigit := fun x hx => n.digits x (List.mem_append_right _ hx)
    unfold Numeral.fractionText
    split
    · rfl
    · rw [List.filter_cons_of_pos (by decide), hself hdigits]
  rw [Numeral.text, List.filter_append, hwhole, hfraction]

theorem mapM_decimal (h : ∀ x ∈ u, x.isDigit) : u.mapM Unicode.decimal = some (u.map fun x => x.toNat - 48) := by
  induction u with
  | nil => rfl
  | cons x u ih =>
    rw [List.mapM_cons, decimal_digit (h x List.mem_cons_self), ih fun y hy => h y (List.mem_cons_of_mem _ hy)]
    rfl

theorem decimal_text (n : Numeral) : decimal n.text = some n.value := by
  have hwhole : ∀ x ∈ n.whole, x.isDigit := fun x hx => n.digits x (List.mem_append_left _ hx)
  have hne {x y : Char} (h : x.isDigit) (hy : y.isDigit = false) : x ≠ y := fun he => by
    rw [he, hy] at h
    cases h
  obtain ⟨x, rest, hx⟩ := List.exists_cons_of_ne_nil n.whole_ne
  have hdigit : x.isDigit := hwhole x (by simp [hx])
  have hbody : ∀ body : List Char, body = n.whole ++ n.fractionText →
      body.takeWhile (· ≠ '.') = n.whole ∧ (body.dropWhile (· ≠ '.')).drop 1 = n.fraction := by
    rintro body rfl
    have hpoint : ∀ x ∈ n.whole, decide (x ≠ '.') := fun x hx => by simpa using hne (hwhole x hx) (by decide)
    rw [List.takeWhile_append_of_pos hpoint, List.dropWhile_append_of_pos hpoint]
    unfold Numeral.fractionText
    split
    · rename_i h
      simp [h]
    · simp
  have hminus : x ≠ '-' := hne hdigit (by decide)
  have hplus : x ≠ '+' := hne hdigit (by decide)
  have hnil : n.whole ++ n.fraction ≠ [] := by simp [n.whole_ne]
  obtain ⟨htake, hdrop⟩ := hbody _ rfl
  unfold decimal
  rw [filter_text]
  rw [hx, List.cons_append] at htake hdrop ⊢
  dsimp only
  split
  · rename_i s he
    exact absurd (List.cons.inj he).1 hminus
  · rename_i s he
    exact absurd (List.cons.inj he).1 hplus
  · rw [htake, hdrop, ← hx, if_neg hnil, mapM_decimal n.digits]
    rfl

/-! ## White space -/

/-- Parts with a gap before each after the first. -/
def layOut : List Char → List (List Char) → (Nat → List Char) → List Char
  | part, [], _ => part
  | part, next :: rest, gap => part ++ (gap 0 ++ layOut next rest fun i => gap (i + 1))

/-- A gap is white space, and some. -/
def IsGap (gap : List Char) : Prop := gap ≠ [] ∧ ∀ x ∈ gap, Unicode.isSpace x

/-- A part has no white space, and is not empty. -/
def IsPart (part : List Char) : Prop := part ≠ [] ∧ ∀ x ∈ part, Unicode.isSpace x = false

theorem splitOnP_gap (hv : ∀ x ∈ v, Unicode.isSpace x) (hu : ∀ x ∈ u, Unicode.isSpace x = false) (hne : v ≠ []) :
    ((u ++ (v ++ w)).splitOnP Unicode.isSpace).filter (· ≠ []) =
      [u].filter (· ≠ []) ++ (w.splitOnP Unicode.isSpace).filter (· ≠ []) := by
  obtain ⟨x, v, rfl⟩ := List.exists_cons_of_ne_nil hne
  have hspaces {v : List Char} (hv : ∀ x ∈ v, Unicode.isSpace x) :
      ((v ++ w).splitOnP Unicode.isSpace).filter (· ≠ []) = (w.splitOnP Unicode.isSpace).filter (· ≠ []) := by
    induction v with
    | nil => rfl
    | cons x v ih =>
      rw [List.cons_append, List.splitOnP_cons_eq_if_modifyHead, if_pos (hv x List.mem_cons_self)]
      simpa using ih fun y hy => hv y (List.mem_cons_of_mem _ hy)
  rw [List.cons_append, List.splitOnP_append_cons_of_forall_mem hu x (hv x List.mem_cons_self), List.filter_cons,
    hspaces fun y hy => hv y (List.mem_cons_of_mem _ hy)]
  by_cases hu : u = [] <;> simp [hu]

theorem splitOnP_layOut (hpart : IsPart part) (hrest : ∀ p ∈ rest, IsPart p)
    (hgap : ∀ i, IsGap (gap i)) :
    ((layOut part rest gap).splitOnP Unicode.isSpace).filter (· ≠ []) = part :: rest := by
  induction rest generalizing part gap with
  | nil => simp [layOut, List.splitOnP_eq_singleton hpart.2, hpart.1]
  | cons next rest ih =>
    rw [layOut, splitOnP_gap (hgap 0).2 hpart.2 (hgap 0).1,
      ih (hrest next List.mem_cons_self) (fun p hp => hrest p (List.mem_cons_of_mem _ hp)) fun i => hgap (i + 1)]
    simp [hpart.1]

variable (rest gap) in
theorem layOut_ne_nil (hpart : IsPart part) : layOut part rest gap ≠ [] := by
  cases rest <;> simp [layOut, hpart.1]

variable (rest gap) in
theorem head?_layOut (hpart : IsPart part) : ∀ x ∈ (layOut part rest gap).head?, Unicode.isSpace x = false := by
  obtain ⟨x, part, rfl⟩ := List.exists_cons_of_ne_nil hpart.1
  have hx : Unicode.isSpace x = false := hpart.2 x List.mem_cons_self
  cases rest <;> simpa [layOut] using hx

variable (gap) in
theorem getLast?_layOut (hpart : IsPart part) (hrest : ∀ p ∈ rest, IsPart p) :
    ∀ x ∈ (layOut part rest gap).getLast?, Unicode.isSpace x = false := by
  induction rest generalizing part gap with
  | nil => exact fun x hx => hpart.2 x (List.mem_of_getLast? hx)
  | cons next rest ih =>
    intro x hx
    have hnext : IsPart next := hrest next List.mem_cons_self
    have hne := layOut_ne_nil rest (fun i => gap (i + 1)) hnext
    rw [layOut, List.getLast?_append_of_ne_nil _ (by simp [hne]), List.getLast?_append_of_ne_nil _ hne] at hx
    exact ih (fun i => gap (i + 1)) hnext (fun p hp => hrest p (List.mem_cons_of_mem _ hp)) x hx

theorem strip_layOut (hpart : IsPart part) (hrest : ∀ p ∈ rest, IsPart p) :
    Unicode.strip (.ofList (layOut part rest gap)) = .ofList (layOut part rest gap) := by
  have hhead := head?_layOut rest gap hpart
  have hlast := getLast?_layOut gap hpart hrest
  have hdrop : (layOut part rest gap).dropWhile Unicode.isSpace = layOut part rest gap :=
    List.dropWhile_eq_self_iff.mpr fun hl => by
      rw [hhead _ (by rw [List.head?_eq_getElem?, List.getElem?_eq_getElem hl]; rfl)]
      exact Bool.false_ne_true
  have hrdrop : (layOut part rest gap).rdropWhile Unicode.isSpace = layOut part rest gap :=
    List.rdropWhile_eq_self_iff.mpr fun hl => by
      rw [hlast _ (List.getLast?_eq_some_getLast hl)]
      exact Bool.false_ne_true
  rw [Unicode.strip_eq, String.toList_ofList, hdrop, hrdrop]

theorem compact_layOut (hpart : IsPart part) (hrest : ∀ p ∈ rest, IsPart p)
    (hgap : ∀ i, IsGap (gap i)) :
    compact (.ofList (layOut part rest gap)) = part ++ (rest.map (' ' :: ·)).flatten := by
  rw [compact, strip_layOut hpart hrest, String.toList_ofList, splitOnP_layOut hpart hrest hgap, intercalate_cons]

/-! ## Signals -/

/-- The price after the sign, in the same part or in one of its own. -/
structure WrittenEntry where
  apart : Bool
  price : Numeral

omit [Unicode] in
def WrittenEntry.parts (e : WrittenEntry) : List (List Char) :=
  if e.apart then [['@'], e.price.text] else ['@' :: e.price.text]

/-- The label `TP` with an index or without one. -/
structure WrittenTakeProfit where
  index : Option Nat
  price : Numeral

def WrittenTakeProfit.label (t : WrittenTakeProfit) : List Char := "TP".toList ++ t.index.elim [] (Nat.toDigits 10)

structure WrittenSignal where
  word : List Char
  word_side : String.ofList (word.map Char.toUpper) ∈ sides
  symbol : List Char
  symbol_letters : ∀ x ∈ symbol, isUpper x
  symbol_length : symbol.length = 6
  symbol_known : looksLikeSymbol symbol
  entry : Option WrittenEntry
  stopLoss : Numeral
  takeProfits : List WrittenTakeProfit
  gap : Nat → List Char
  gap_ne : ∀ i, gap i ≠ []
  gap_space : ∀ i, ∀ x ∈ gap i, x = ' ' ∨ x = '\n'

namespace WrittenSignal

variable (s : WrittenSignal)

/-- The parts after the symbol. -/
def parts : List (List Char) :=
  s.entry.elim [] WrittenEntry.parts ++ ("SL".toList :: s.stopLoss.text :: s.takeProfits.flatMap fun t => [t.label, t.price.text])

def text : String := .ofList (layOut s.word (s.symbol :: s.parts) s.gap)

def meaning : AiAction where
  action := .open_market
  symbol := some (.ofList s.symbol)
  direction := some (sideOf (.ofList (s.word.map Char.toUpper)))
  entry := s.entry.map (·.price.value)
  stopLoss := some s.stopLoss.value
  takeProfits := s.takeProfits.map (·.price.value)
  confidence := 1

end WrittenSignal

end

end Parser

end SignalSync
