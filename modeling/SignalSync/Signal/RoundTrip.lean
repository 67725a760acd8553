import SignalSync.Signal.Line
import SignalSync.Signal.Prices

/-!
# What is written is read

`deterministic_parse` reads a written signal back (`parse_written`): the direction, the
symbol, the stop loss, the take profits and the entry, each by the pattern for it, and
nothing by the others.
-/

namespace SignalSync

open Library Regex

namespace Parser

section

variable [Unicode] {b : Option Char} {u v : List Char} {s : WrittenSignal} {part : List Char}

/-! ## Labelled numbers -/

/-- No white space before a numeral. -/
theorem reads_no_space (n : Numeral) : Reads (star space) b [] (n.text ++ v) [] := by
  obtain ⟨x, rest, hx, hdigit⟩ := head_text n
  have hspace : Unicode.isSpace x = false := by
    rw [Unicode.isSpace_ascii (numeral_ascii (numeral_of_isDigit hdigit))]
    exact (numeral_facts (numeral_of_isDigit hdigit)).2.2.1
  exact reads_many_char nofun (Nat.zero_le _) (by simp) (.inl (by simp [hx, hspace]))

theorem reads_blank (n : Numeral) : Reads (star space) b [' '] (n.text ++ v) [] := by
  obtain ⟨x, rest, hx, hdigit⟩ := head_text n
  have hblank : Unicode.isSpace ' ' := by rw [Unicode.isSpace_ascii (by decide)]; rfl
  have hspace : Unicode.isSpace x = false := by
    rw [Unicode.isSpace_ascii (numeral_ascii (numeral_of_isDigit hdigit))]
    exact (numeral_facts (numeral_of_isDigit hdigit)).2.2.1
  exact reads_many_char (by simpa using hblank) (Nat.zero_le _) (by simp) (.inl (by simp [hx, hspace]))

theorem opens_oneOf {fs : List String} {w : String} (h : ∀ x ∈ w.toList, String.singleton x.toUpper ∈ fs) : Opens (oneOf w) fs := by
  intro c _ m hm
  obtain ⟨x, rest, hc, hx, -⟩ := mem_run_char.1 hm
  refine ⟨_, h x (by simpa using hx), ?_⟩
  rw [hc]
  simp

theorem opens_labelSeparator : Opens labelSeparator [":", "=", "@", "TO", "AT", "IS"] := by
  refine .alts ?_
  simp only [List.forall_mem_cons]
  refine ⟨opens_oneOf (by decide), ?_, nofun⟩
  refine .boundary_seq (.seq_left (.alts ?_))
  simp only [List.forall_mem_cons]
  exact ⟨opens_litI (by decide) ⟨"TO", by decide, by decide⟩, opens_litI (by decide) ⟨"AT", by decide, by decide⟩,
    opens_litI (by decide) ⟨"IS", by decide, by decide⟩, nofun⟩

variable (n : Numeral) in
theorem reads_labelled {labels num : Regex} {label : List Char} {gs : List (List Char)}
    (hlabel : Reads labels b label (' ' :: (n.text ++ v)) []) (hnum : ∀ b, Reads num b n.text v gs) (hv : EndsNumber v)
    (hascii : ∀ x ∈ v, x.toNat < 128) :
    Reads (seqs [labels, star space, opt labelSeparator, star space, num, boundary]) b (label ++ ' ' :: n.text) v gs := by
  have hseparator (b : Option Char) : Reads (opt labelSeparator) b [] (n.text ++ v) [] := by
    refine reads_opt_nil (run_eq_nil_of_opens opens_labelSeparator (fun x hx => ?_) fun f hf hprefix => ?_)
    · exact (List.mem_append.mp hx).elim (fun hx => numeral_ascii (isNumeral_text hx)) (hascii x)
    · obtain ⟨x, rest, hx, hdigit⟩ := head_text n
      have hupper : x.toUpper = x := (numeral_facts (numeral_of_isDigit hdigit)).1
      have hno : ∀ f ∈ [":", "=", "@", "TO", "AT", "IS"], ∀ y ∈ f.toList.head?, y.isDigit = false := by
        simp
      simp only [hx, List.cons_append, List.map_cons, hupper] at hprefix
      cases hl : f.toList with
      | nil =>
        have hne : ∀ f ∈ [":", "=", "@", "TO", "AT", "IS"], f.toList ≠ [] := by decide
        exact hne f hf hl
      | cons y l =>
        rw [hl] at hprefix
        obtain ⟨rfl, -⟩ := List.cons_prefix_cons.mp hprefix
        rw [hno f hf y (by rw [hl]; rfl)] at hdigit
        cases hdigit
  have hend : Reads (seqs [num, boundary]) (some ' ') (n.text ++ []) v (gs ++ []) :=
    reads_seqs_cons (t := []) (hnum _) (reads_seqs_one (reads_boundary (isBoundary_text n _ hv)))
  rw [List.append_nil, List.append_nil] at hend
  have hrest : Reads (seqs [opt labelSeparator, star space, num, boundary]) (some ' ') n.text v gs :=
    reads_seqs_cons (u := []) (hseparator _) (reads_seqs_cons (u := []) (reads_no_space n) hend)
  exact reads_seqs_cons hlabel (reads_seqs_cons (u := [' ']) (reads_blank n) hrest)

/-! ## Labels -/

/-- After a blank and before one, a part of capitals and digits stands between boundaries. -/
theorem isBoundary_part {part w : List Char} (hne : part ≠ []) (h : ∀ x ∈ part, isUpperOrDigit x) :
    Cursor.isBoundary ⟨some ' ', part ++ w⟩ ∧ Cursor.isBoundary ⟨lastOr part (some ' '), ' ' :: w⟩ := by
  have hword : ∀ x ∈ part, Unicode.isWord x := fun x hx => isWord_of_isUpperOrDigit (h x hx)
  have hlast : (lastOr part (some ' ')).any Unicode.isWord := lastOr_any hne hword _
  refine ⟨?_, by simp [Cursor.isBoundary, hlast, isWord_space]⟩
  obtain ⟨x, part, rfl⟩ := List.exists_cons_of_ne_nil hne
  simp [Cursor.isBoundary, isWord_space, hword x List.mem_cons_self]

theorem reads_takeProfitLabel (t : WrittenTakeProfit) : Reads (alts takeProfitLabels) (some ' ') t.label (' ' :: v) [] := by
  obtain ⟨index, hlabel, hindex⟩ := label_eq t
  have hpart : ∀ x ∈ t.label, isUpperOrDigit x := by
    rw [hlabel]
    intro x hx
    rcases List.mem_cons.mp hx with rfl | hx
    · rfl
    rcases List.mem_cons.mp hx with rfl | hx
    · rfl
    · exact isUpperOrDigit_of_isDigit (hindex x hx)
  have hne : t.label ≠ [] := by simp [hlabel]
  have hblank : ((' ' :: v).head?.any fun x => (Unicode.decimal x).isSome) = false := by
    simp [decimal_other (x := ' ') (by decide) (by decide)]
  have hopt : Reads (opt (plus digit)) (some 'P') index (' ' :: v) [] := by
    by_cases hi : index = []
    · subst hi
      refine reads_opt_nil (List.eq_nil_iff_forall_not_mem.mpr fun m hm => ?_)
      obtain ⟨m', hm'⟩ := exists_mem_of_many Nat.one_pos hm
      obtain ⟨x, rest, hx, hp, -⟩ := mem_run_char.1 hm'
      cases hx
      simp [hp] at hblank
    · exact reads_opt hi (reads_decimals (fun x hx => isDecimal_digit (hindex x hx)) (List.length_pos_iff.mpr hi) (by simp) (.inl hblank))
  have hend : Reads (seqs [opt (plus digit), boundary]) (some 'P') (index ++ []) (' ' :: v) [] := by
    refine reads_seqs_cons (t := []) hopt (reads_seqs_one (reads_boundary ?_))
    have hboundary := (isBoundary_part (w := v) hne hpart).2
    rwa [hlabel] at hboundary
  rw [List.append_nil] at hend
  refine reads_alts_head (reads_seqs_cons (u := []) (reads_boundary (isBoundary_part hne hpart).1) ?_)
  rw [hlabel]
  exact reads_seqs_cons (u := ['T', 'P']) (reads_litI (w := "TP") (by decide)) hend

/-! ## The symbol -/

theorem uses_pair : Uses pairPattern fun x => x = '/' := by
  refine .seq_right (.seq_right (.seq_right (.seq_left ?_)))
  exact .seq_left (uses_char fun _ => id)

theorem uses_candidate : Uses candidatePattern isUpper := .seq_right (.seq_left (uses_char fun _ => id))

theorem progress_candidate : candidatePattern.Progress := .seq_right (.seq_left progress_char)

/-- In a block of capitals and digits, the block or nothing. -/
theorem hits_candidate (hu : ∀ x ∈ u, isUpperOrDigit x) :
    hits candidatePattern ⟨b, u⟩ = if run candidatePattern ⟨b, u⟩ = [] then [] else [(u, [])] := by
  refine hits_block (fun x hx => isWord_of_isUpperOrDigit (hu x hx)) (.seq_left progress_char) fun m hm => ?_
  obtain ⟨m₁, hm₁, m₂, hm₂, rfl⟩ := mem_run_seq.1 hm
  obtain ⟨-, rfl⟩ := mem_run_boundary.1 hm₁
  obtain ⟨m₃, hm₃, m₄, hm₄, rfl⟩ := mem_run_seq.1 hm₂
  obtain ⟨x, rest, hx, -, rfl⟩ := mem_run_char.1 hm₃
  obtain ⟨m₅, hm₅, m₆, hm₆, rfl⟩ := mem_run_seq.1 hm₄
  obtain ⟨pre, rest', hrest, hlo, -, -, rfl⟩ := mem_run_many_char.1 hm₅
  obtain ⟨m₇, hm₇, m₈, hm₈, rfl⟩ := mem_run_seq.1 hm₆
  obtain ⟨hboundary, rfl⟩ := mem_run_boundary.1 hm₇
  obtain rfl := List.mem_singleton.mp hm₈
  refine ⟨?_, rfl⟩
  -- a word character has been read, so none comes next
  have hu' : u = x :: (pre ++ rest') := hx.trans (congrArg (x :: ·) hrest)
  have hword : ∀ y ∈ pre ++ rest', Unicode.isWord y := fun y hy =>
    isWord_of_isUpperOrDigit (hu y (by rw [hu']; exact List.mem_cons_of_mem _ hy))
  have hlast : (pre.getLast?.or (some x)).any Unicode.isWord := by
    rw [getLast?_or]
    exact lastOr_any (List.length_pos_iff.mp (by omega)) (fun y hy => hword y (List.mem_append_left _ hy)) _
  show rest' = []
  cases rest' with
  | nil => rfl
  | cons y rest' =>
    have hy : Unicode.isWord y := hword y (List.mem_append_right _ List.mem_cons_self)
    have hno : Cursor.isBoundary ⟨pre.getLast?.or (some x), y :: rest'⟩ = false := by
      rw [Cursor.isBoundary, hlast, List.head?_cons, Option.any_some, hy]
      rfl
    exact absurd hboundary (by rw [hno]; exact Bool.false_ne_true)

theorem run_candidate_ne_nil {x : Char} (hb : b.any Unicode.isWord = false) (hx : isUpper x) (hu : ∀ y ∈ u, isUpperOrDigit y)
    (hlo : 2 ≤ u.length) (hhi : u.length ≤ 15) : run candidatePattern ⟨b, x :: u⟩ ≠ [] := by
  have hxw : Unicode.isWord x := isWord_of_isUpperOrDigit (by simp [isUpperOrDigit, hx])
  have hlast : (lastOr u (some x)).any Unicode.isWord :=
    lastOr_any (List.length_pos_iff.mp (by omega)) (fun y hy => isWord_of_isUpperOrDigit (hu y hy)) _
  have hmany : Reads (many (char fun c => isUpperOrDigit c || c ∈ "._-".toList) 2 (some 15)) (some x) u [] [] :=
    reads_many_char (fun y hy => by simp [hu y hy]) hlo (by simpa using hhi) (.inl rfl)
  have hend : Reads (seqs [boundary]) (lastOr u (some x)) [] [] [] :=
    reads_seqs_one (reads_boundary (by simp [Cursor.isBoundary, hlast]))
  have hstart : Reads boundary b [] (x :: u ++ []) [] := reads_boundary (by simp [Cursor.isBoundary, hb, hxw])
  have hrest : Reads (seqs [many (char fun c => isUpperOrDigit c || c ∈ "._-".toList) 2 (some 15), boundary]) (some x) (u ++ []) [] [] :=
    reads_seqs_cons (t := []) hmany hend
  rw [List.append_nil] at hrest
  have hread : Reads candidatePattern b (x :: u) [] [] :=
    reads_seqs_cons (u := []) hstart (reads_seqs_cons (u := [x]) (reads_char hx) hrest)
  intro hnil
  rw [Reads, List.append_nil, hnil] at hread
  cases hread

omit [Unicode] in
theorem avoids_candidate : candidatePattern.Avoids ' ' := by
  refine ⟨trivial, ?_, ?_, trivial, trivial⟩
  · show isUpper ' ' = false
    decide
  · show (isUpperOrDigit ' ' || decide (' ' ∈ "._-".toList)) = false
    decide

theorem addCandidate_of_skipped {found : List String} (hu : ∀ x ∈ u, isUpperOrDigit x)
    (h : String.ofList u ∈ reservedTokens ∨ ['T', 'P'] <+: u) : addCandidate found u = found := by
  unfold addCandidate
  rw [core_eq_self hu, if_pos]
  rcases h with h | h <;> simp [h]

/-- No other part than the symbol adds one. -/
theorem foldl_candidate {found : List String} (h : IsLevelPart part) :
    (hits candidatePattern ⟨some ' ', part⟩).foldl (fun found f => addCandidate found f.1) found = found := by
  have hnone (hpart : ∀ x ∈ part, isUpper x = false) : hits candidatePattern ⟨some ' ', part⟩ = [] :=
    (find?_eq_none_iff_hits progress_candidate).mp (find?_eq_none_of_uses uses_candidate hpart)
  have hblock (hpart : ∀ x ∈ part, isUpperOrDigit x) (hskip : String.ofList part ∈ reservedTokens ∨ ['T', 'P'] <+: part) :
      (hits candidatePattern ⟨some ' ', part⟩).foldl (fun found f => addCandidate found f.1) found = found := by
    rw [hits_candidate hpart]
    split
    · rfl
    · exact addCandidate_of_skipped hpart hskip
  have hnumeral (n : Numeral) : ∀ x ∈ n.text, isUpper x = false := fun x hx => (numeral_facts (isNumeral_text hx)).2.1
  cases h with
  | sign => rw [hnone (by decide)]; rfl
  | entry n =>
    rw [hnone fun x hx => (List.mem_cons.mp hx).elim (fun h => by rw [h]; decide) (hnumeral n x)]
    rfl
  | number n => rw [hnone (hnumeral n)]; rfl
  | stopLoss => exact hblock (by decide) (.inl (by decide +kernel))
  | takeProfit t =>
    obtain ⟨index, hlabel, hindex⟩ := label_eq t
    refine hblock (fun x hx => ?_) (.inr ⟨index, hlabel.symm⟩)
    rw [hlabel] at hx
    rcases List.mem_cons.mp hx with rfl | hx
    · rfl
    rcases List.mem_cons.mp hx with rfl | hx
    · rfl
    · exact isUpperOrDigit_of_isDigit (hindex x hx)

theorem foldl_candidate_word {found : List String} :
    (hits candidatePattern ⟨none, s.upperWord⟩).foldl (fun found f => addCandidate found f.1) found = found := by
  have hupper : ∀ x ∈ s.upperWord, isUpperOrDigit x := fun x hx => by simp [isUpperOrDigit, upperWord_printed.2 x hx]
  rw [hits_candidate hupper]
  split
  · rfl
  · have hreserved : ∀ side ∈ sides, side ∈ reservedTokens := by decide +kernel
    exact addCandidate_of_skipped hupper (.inl (hreserved _ s.word_side))

theorem foldl_candidate_symbol :
    (hits candidatePattern ⟨some ' ', s.symbol⟩).foldl (fun found f => addCandidate found f.1) [] = [.ofList s.symbol] := by
  have hupper : ∀ x ∈ s.symbol, isUpperOrDigit x := fun x hx => by simp [isUpperOrDigit, s.symbol_letters x hx]
  have hreserved : String.ofList s.symbol ∉ reservedTokens := not_mem_of_take (by decide +kernel) s.symbol_mem
  have hlabels : ∀ base ∈ bases, ¬ ['T', 'P'] <+: base ∧ ¬ ['S', 'L'] <+: base := by decide +kernel
  obtain ⟨htp, hsl⟩ := hlabels _ (take_of_mem_knownSymbols s.symbol_mem)
  rw [List.prefix_take_iff] at htp hsl
  have hlength := s.symbol_length
  have hrun : run candidatePattern ⟨some ' ', s.symbol⟩ ≠ [] := by
    obtain ⟨x, rest, hx⟩ := List.exists_cons_of_ne_nil (List.length_pos_iff.mp (by omega : 0 < s.symbol.length))
    rw [hx] at hupper hlength ⊢
    rw [List.length_cons] at hlength
    exact run_candidate_ne_nil isWord_space (s.symbol_letters x (by rw [hx]; exact List.mem_cons_self))
      (fun y hy => hupper y (List.mem_cons_of_mem _ hy)) (by omega) (by omega)
  rw [hits_candidate hupper, if_neg hrun, List.foldl_cons, List.foldl_nil, addCandidate, core_eq_self hupper, if_neg]
  · simp only [s.symbol_known, if_true]
    rfl
  · have hlong : 2 ≤ 3 := by decide
    simp [hreserved, not_and'.mp htp hlong, not_and'.mp hsl hlong]

/-- Part by part. -/
theorem hits_blanks {r : Regex} (hr : r.Progress) (ha : r.Avoids ' ') (parts : List (List Char)) :
    hits r ⟨b, u ++ blanks parts⟩ = hits r ⟨b, u⟩ ++ parts.flatMap fun part => hits r ⟨some ' ', part⟩ := by
  induction parts generalizing b u with
  | nil => simp [blanks]
  | cons part parts ih => rw [blanks_cons, hits_append isWord_space ha hr, ih, List.flatMap_cons]

theorem symbols_line : symbols s.line = [.ofList s.symbol] := by
  have hpair : findAll pairPattern s.upperLine = [] := by
    refine findAll_eq_nil (find?_eq_none_of_uses uses_pair fun x hx => ?_)
    rcases List.mem_append.mp hx with hx | hx
    · simpa using (printed_facts (upperWord_isPrinted x hx)).2.2.2.2
    rcases mem_blanks hx with rfl | ⟨part, hmem, hx⟩
    · decide
    · simpa using (printed_facts ((parts_printed hmem).2 x hx)).2.2.2.2
  have halias (w : String) (hw : ∃ f ∈ foreign, f.toList <:+: w.toList.map Char.toUpper) : search (word [w]) s.upperLine = none :=
    (search_eq_none (needs_word (List.forall_mem_singleton.mpr hw))).2
  have hfold (parts : List (List Char)) (h : ∀ part ∈ parts, IsLevelPart part) (found : List String) :
      (parts.flatMap fun part => hits candidatePattern ⟨some ' ', part⟩).foldl (fun found f => addCandidate found f.1) found = found := by
    induction parts generalizing found with
    | nil => rfl
    | cons part parts ih =>
      rw [List.flatMap_cons, List.foldl_append, foldl_candidate (h part List.mem_cons_self)]
      exact ih (fun p hp => h p (List.mem_cons_of_mem _ hp)) found
  unfold symbols
  simp only [upper_line, hpair, List.foldl_nil, symbolAliases, List.foldl_cons, halias "GOLD" ⟨"OL", by decide, by decide⟩,
    halias "SILVER" ⟨"IL", by decide, by decide⟩, Option.isSome_none, Bool.false_eq_true, if_false]
  have hcandidates : (findAll candidatePattern s.upperLine).foldl (fun found f => addCandidate found f.text) [] =
      (hits candidatePattern ⟨none, s.upperLine⟩).foldl (fun found f => addCandidate found f.1) [] := by
    rw [hits, List.foldl_map]
    rfl
  rw [hcandidates, WrittenSignal.upperLine, hits_blanks progress_candidate avoids_candidate, List.foldl_append, foldl_candidate_word,
    List.flatMap_cons, List.foldl_append, foldl_candidate_symbol]
  exact hfold s.parts (fun _ => isLevelPart_of_mem) _

/-! ## The direction -/

theorem isWord_side {ws : List String} (h : ∀ w ∈ ws, w.toList ≠ [] ∧ ∀ x ∈ w.toList, isUpper x) : ∀ w ∈ ws, IsWord w :=
  fun w hw => ⟨(h w hw).1, fun x hx => isWord_of_isUpperOrDigit (by simp [isUpperOrDigit, (h w hw).2 x hx])⟩

theorem isWord_sides : ∀ w ∈ sides, IsWord w := isWord_side (by decide +kernel)

/-- After the symbol no part has a fragment of letters but its label. -/
theorem IsLevelPart.hits_eq_nil {r : Regex} {fs : List String} (h : IsLevelPart part) (hr : r.Progress) (hn : Needs r fs)
    (hfs : ∀ f ∈ fs, isAbsent labelWords f) : hits r ⟨some ' ', part⟩ = [] := by
  obtain ⟨-, hprinted⟩ := h.printed
  refine (find?_eq_none_iff_hits hr).mp (find?_eq_none_of_needs hn (fun x hx => (printed_facts (hprinted x hx)).1) fun f hf => ?_)
  rw [map_toUpper_of_printed hprinted]
  exact h.not_within (hfs f hf)

theorem hits_side : hits (wordGroup sides) ⟨none, s.upperLine⟩ = [(s.upperWord, [s.upperWord])] := by
  have hprogress : (wordGroup sides).Progress := progress_wordGroup isWord_sides
  have hword : ∀ x ∈ s.upperWord, Unicode.isWord x := fun x hx =>
    isWord_of_isUpperOrDigit (by simp [isUpperOrDigit, upperWord_printed.2 x hx])
  have hsymbol : ∀ x ∈ s.symbol, Unicode.isWord x := fun x hx =>
    isWord_of_isUpperOrDigit (by simp [isUpperOrDigit, s.symbol_letters x hx])
  have hknown : String.ofList s.symbol ∉ sides := not_mem_of_take (by decide +kernel) s.symbol_mem
  have hneeds : Needs (wordGroup sides) sides := .seq_right (.seq_left (.group (needs_anyOf fun w hw =>
    ⟨w, hw, by rw [(by decide +kernel : ∀ w ∈ sides, w.toList.map Char.toUpper = w.toList) w hw]⟩)))
  have hparts : (s.parts.flatMap fun part => hits (wordGroup sides) ⟨some ' ', part⟩) = [] :=
    List.flatMap_eq_nil_iff.mpr fun part hmem => (isLevelPart_of_mem hmem).hits_eq_nil hprogress hneeds (by decide +kernel)
  rw [WrittenSignal.upperLine, hits_blanks hprogress (avoids_wordGroup (by decide)), hits_wordGroup isWord_sides rfl hword,
    if_pos (show String.ofList s.upperWord ∈ sides from s.word_side), List.flatMap_cons, hits_wordGroup (b := some ' ') isWord_sides isWord_space hsymbol, if_neg hknown, hparts]
  rfl

theorem search_side : ∃ f, search (wordGroup sides) s.upperLine = some f ∧ f.groups = [s.upperWord] := by
  have hhead := head?_hits (progress_wordGroup isWord_sides) none s.upperLine
  rw [hits_side] at hhead
  obtain ⟨f, hf, hgroups⟩ := Option.map_eq_some_iff.mp hhead.symm
  exact ⟨f, hf, (Prod.ext_iff.mp hgroups).2⟩

theorem directionWords_line :
    ((findAll (wordGroup sides) s.upperLine).map fun f => String.ofList f.groups.flatten) = [.ofList s.upperWord] := by
  have hhits := congrArg (List.map fun f => String.ofList f.2.flatten) (hits_side (s := s))
  rw [hits, List.map_map] at hhits
  simpa [findAll] using hhits

/-! ## The levels -/

/-- A label and its number. -/
def labelled (label : List Char) (n : Numeral) : List Char := label ++ ' ' :: n.text

/-- The take profits, with a blank before each. -/
def levels (ts : List WrittenTakeProfit) : List Char := ts.flatMap fun t => ' ' :: labelled t.label t.price

namespace WrittenSignal

/-- Up to the symbol. -/
def opening (s : WrittenSignal) : List Char := s.word ++ blanks [s.symbol]

/-- Up to the entry. -/
def front (s : WrittenSignal) : List Char := s.opening ++ blanks (s.entry.elim [] WrittenEntry.parts)

end WrittenSignal

omit [Unicode] in
theorem blanks_append (parts parts' : List (List Char)) : blanks (parts ++ parts') = blanks parts ++ blanks parts' := by
  simp [blanks]

theorem line_eq : s.line = s.front ++ ' ' :: (labelled "SL".toList s.stopLoss ++ levels s.takeProfits) := by
  have hlevels (ts : List WrittenTakeProfit) : blanks (ts.flatMap fun t => [t.label, t.price.text]) = levels ts := by
    induction ts with
    | nil => rfl
    | cons t ts ih => simp [blanks_cons, ih, levels, labelled]
  rw [WrittenSignal.line, WrittenSignal.parts, blanks_cons, blanks_append, blanks_cons, blanks_cons, hlevels]
  simp [WrittenSignal.front, WrittenSignal.opening, blanks, labelled]

omit [Unicode] in
theorem endsNumber_levels (ts : List WrittenTakeProfit) : EndsNumber (levels ts) := by
  cases ts with
  | nil => exact nofun
  | cons t ts =>
    intro x hx
    cases hx
    rfl

omit [Unicode] in
theorem labelled_ascii {label : List Char} (h : ∀ x ∈ label, isPrinted x) (n : Numeral) : ∀ x ∈ labelled label n, x.toNat < 128 := by
  intro x hx
  rcases List.mem_append.mp hx with hx | hx
  · exact (printed_facts (h x hx)).1
  rcases List.mem_cons.mp hx with rfl | hx
  · decide
  · exact numeral_ascii (isNumeral_text hx)

omit [Unicode] in
theorem levels_ascii (ts : List WrittenTakeProfit) : ∀ x ∈ levels ts, x.toNat < 128 := by
  intro x hx
  obtain ⟨t, -, hx⟩ := List.mem_flatMap.mp hx
  rcases List.mem_cons.mp hx with rfl | hx
  · decide
  · exact labelled_ascii (IsLevelPart.takeProfit t).printed.2 t.price x hx

theorem front_ascii : ∀ x ∈ s.front, x.toNat < 128 := fun x hx =>
  line_ascii x (by rw [line_eq]; exact List.mem_append_left _ hx)

omit [Unicode] in
theorem entry_parts {e : WrittenEntry} (h : part ∈ e.parts) : ∀ x ∈ part, isNumeral x ∨ x = '@' := by
  unfold WrittenEntry.parts at h
  split at h
  · rcases List.mem_cons.mp h with rfl | h
    · exact fun x hx => .inr (List.mem_singleton.mp hx)
    · rw [List.mem_singleton.mp h]
      exact fun x hx => .inl (isNumeral_text hx)
  · rw [List.mem_singleton.mp h]
    exact fun x hx => (List.mem_cons.mp hx).elim .inr fun hx => .inl (isNumeral_text hx)

theorem map_toUpper_front : s.front.map Char.toUpper = s.upperWord ++ blanks (s.symbol :: s.entry.elim [] WrittenEntry.parts) := by
  have hfront : s.front = s.word ++ blanks (s.symbol :: s.entry.elim [] WrittenEntry.parts) := by
    simp [WrittenSignal.front, WrittenSignal.opening, blanks]
  have hprinted : ∀ part ∈ s.symbol :: s.entry.elim [] WrittenEntry.parts, ∀ x ∈ part, isPrinted x := by
    intro part hmem
    refine (parts_printed (List.mem_cons.mpr ((List.mem_cons.mp hmem).imp id fun hmem => ?_))).2
    exact List.mem_append_left _ hmem
  rw [hfront, List.map_append, map_toUpper_blanks hprinted]
  rfl

/-- The fragments that the front lacks. -/
theorem front_absent {f : String} (h : isAbsent openingWords f) : ¬ f.toList <:+: s.front.map Char.toUpper := by
  obtain ⟨hne, hupper, -⟩ := isAbsent_iff.1 h
  rw [map_toUpper_front]
  refine not_within_blanks h fun part hmem => not_within_of_plain hne hupper fun x hx => ?_
  cases he : s.entry with
  | none => rw [he] at hmem; cases hmem
  | some e =>
    rw [he] at hmem
    rcases entry_parts hmem x hx with hx | rfl
    · exact (numeral_facts hx).2.1
    · decide

/-- A pattern that begins with other fragments does not begin in the text, nor at the blank after it. -/
theorem skips_blank {r : Regex} {fs : List String} (h : Opens r fs) (hfs : ∀ f ∈ fs, f.toList ≠ [] ∧ ' ' ∉ f.toList)
    (habsent : ∀ f ∈ fs, ¬ f.toList <:+: u.map Char.toUpper) (hu : ∀ x ∈ u, x.toNat < 128) (hv : ∀ x ∈ v, x.toNat < 128) :
    Skips r b (u ++ [' ']) v := by
  have hascii : ∀ x ∈ ' ' :: v, x.toNat < 128 := List.forall_mem_cons.mpr ⟨by decide, hv⟩
  refine Skips.append (skips_of_opens h (fun x hx => ?_) (fun x hx f hf => ?_) habsent) (skips_char h hascii hfs)
  · exact (List.mem_append.mp hx).elim (hu x) (hascii x)
  · cases hx
    exact (hfs f hf).2

theorem skips_front {r : Regex} {fs : List String} (h : Opens r fs) (hfs : ∀ f ∈ fs, isAbsent openingWords f)
    (hv : ∀ x ∈ v, x.toNat < 128) : Skips r none (s.front ++ [' ']) v :=
  skips_blank h (fun f hf => ⟨(isAbsent_iff.1 (hfs f hf)).1, fun hx => by cases (isAbsent_iff.1 (hfs f hf)).2.1 ' ' hx⟩)
    (fun f hf => front_absent (hfs f hf)) front_ascii hv

theorem opens_stopLoss : Opens (alts [litI "SL", seqs [litI "STOP", plus space, litI "LOSS"]]) ["SL", "ST"] := by
  refine .alts ?_
  simp only [List.forall_mem_cons]
  exact ⟨opens_litI (by decide) ⟨"SL", by decide, by decide⟩, .seq_left (opens_litI (by decide) ⟨"ST", by decide, by decide⟩), List.forall_mem_nil _⟩

theorem opens_takeProfit {fs : List String} (htp : "TP" ∈ fs) (hta : "TA" ∈ fs) : ∀ r ∈ takeProfitLabels, Opens r fs := by
  simp only [takeProfitLabels, List.forall_mem_cons]
  exact ⟨.boundary_seq (.seq_left (opens_litI (by decide) ⟨"TP", htp, by decide⟩)),
    .boundary_seq (.seq_left (opens_litI (by decide) ⟨"TA", hta, by decide⟩)), List.forall_mem_nil _⟩

theorem stopLoss_line : labelledNumber s.line (alts [litI "SL", seqs [litI "STOP", plus space, litI "LOSS"]]) = some s.stopLoss.value := by
  have hascii : ∀ x ∈ labelled "SL".toList s.stopLoss ++ levels s.takeProfits, x.toNat < 128 := fun x hx =>
    (List.mem_append.mp hx).elim (labelled_ascii (by decide) _ x) (levels_ascii _ x)
  set r := seqs [alts [litI "SL", seqs [litI "STOP", plus space, litI "LOSS"]], star space, opt labelSeparator, star space, group number,
    boundary] with hr
  have hopens : Opens r ["SL", "ST"] := opens_stopLoss.seq_left
  have hlabel : Reads (alts [litI "SL", seqs [litI "STOP", plus space, litI "LOSS"]]) (some ' ') "SL".toList
      (' ' :: (s.stopLoss.text ++ levels s.takeProfits)) [] := reads_alts_head (reads_litI (by decide))
  have hread : Reads r (lastOr (s.front ++ [' ']) none) (labelled "SL".toList s.stopLoss) (levels s.takeProfits) [s.stopLoss.text] := by
    rw [lastOr_append]
    exact reads_labelled s.stopLoss hlabel (fun b => reads_group (reads_number s.stopLoss (endsNumber_levels _))) (endsNumber_levels _)
      (levels_ascii _)
  have hline : s.line = (s.front ++ [' ']) ++ (labelled "SL".toList s.stopLoss ++ levels s.takeProfits) := by simp [line_eq]
  unfold labelledNumber
  rw [← hr, hline, search_reads (skips_front hopens (isAbsent_labelStart (by decide)) hascii) hread]
  exact decimal_text _

/-! ## Take profits -/

theorem hits_levels {r : Regex} {fs : List String} {gs : WrittenTakeProfit → List (List Char)} (hr : r.Progress) (ho : Opens r fs)
    (hfs : ∀ f ∈ fs, f.toList ≠ [] ∧ ' ' ∉ f.toList)
    (hread : ∀ t v, EndsNumber v → (∀ x ∈ v, x.toNat < 128) → Reads r (some ' ') (labelled t.label t.price) v (gs t))
    (ts : List WrittenTakeProfit) : hits r ⟨b, levels ts⟩ = ts.map fun t => (labelled t.label t.price, gs t) := by
  induction ts generalizing b with
  | nil => rfl
  | cons t ts ih =>
    have hlevels : levels (t :: ts) = [' '] ++ (labelled t.label t.price ++ levels ts) := rfl
    have hskip : Skips r b [' '] (labelled t.label t.price ++ levels ts) := skips_char ho (levels_ascii (t :: ts)) hfs
    rw [hlevels, hits_skip hr hskip]
    exact (hits_reads hr (hread t _ (endsNumber_levels ts) (levels_ascii ts))).trans (congrArg _ ih)

/-- And replaced. -/
theorem subFrom_levels {r : Regex} {fs : List String} {gs : WrittenTakeProfit → List (List Char)} (hr : r.Progress) (ho : Opens r fs)
    (hfs : ∀ f ∈ fs, f.toList ≠ [] ∧ ' ' ∉ f.toList)
    (hread : ∀ t v, EndsNumber v → (∀ x ∈ v, x.toNat < 128) → Reads r (some ' ') (labelled t.label t.price) v (gs t))
    (ts : List WrittenTakeProfit) : subFrom r [' '] ⟨b, levels ts⟩ = ts.flatMap fun _ => [' ', ' '] := by
  induction ts generalizing b with
  | nil => rfl
  | cons t ts ih =>
    have hlevels : levels (t :: ts) = [' '] ++ (labelled t.label t.price ++ levels ts) := rfl
    have hskip : Skips r b [' '] (labelled t.label t.price ++ levels ts) := skips_char ho (levels_ascii (t :: ts)) hfs
    rw [hlevels, subFrom_skip hr hskip]
    exact congrArg ([' '] ++ ·) ((subFrom_reads hr (hread t _ (endsNumber_levels ts) (levels_ascii ts))).trans (congrArg _ ih))

theorem takeProfits_line : takeProfits s.line = s.takeProfits.map (·.price.value) := by
  set r := seqs [alts takeProfitLabels, star space, opt labelSeparator, star space, group number, boundary] with hr
  have hopens : Opens r ["TP", "TA"] := .seq_left (.alts (opens_takeProfit (by decide) (by decide)))
  have hprogress : r.Progress := .seq_left (.alts progress_takeProfit)
  have hfs : ∀ f ∈ ["TP", "TA"], f.toList ≠ [] ∧ ' ' ∉ f.toList := by decide
  have hupper : ∀ f ∈ ["TP", "TA"], ∀ x ∈ f.toList, isUpper x := by decide
  have hread (t : WrittenTakeProfit) (v : List Char) (hv : EndsNumber v) (hascii : ∀ x ∈ v, x.toNat < 128) :
      Reads r (some ' ') (labelled t.label t.price) v [t.price.text] :=
    reads_labelled t.price (reads_takeProfitLabel t) (fun b => reads_group (reads_number t.price hv)) hv hascii
  -- nothing is found before the first of them
  have hstop : ∀ f ∈ ["TP", "TA"], ¬ f.toList <:+: (labelled "SL".toList s.stopLoss).map Char.toUpper := by
    intro f hf hwithin
    rw [labelled, List.map_append, List.map_cons] at hwithin
    rcases infix_append_cons (by exact (hfs f hf).2) hwithin with h | h
    · revert h
      exact (by decide : ∀ f ∈ ["TP", "TA"], ¬ f.toList <:+: "SL".toList.map Char.toUpper) f hf
    · rw [map_toUpper_of_printed fun x hx => printed_text hx] at h
      exact not_within_of_plain (hfs f hf).1 (hupper f hf) (text_plain _) h
  have hascii : ∀ x ∈ labelled "SL".toList s.stopLoss ++ levels s.takeProfits, x.toNat < 128 := fun x hx =>
    (List.mem_append.mp hx).elim (labelled_ascii (by decide) _ x) (levels_ascii _ x)
  have hskip : Skips r none ((s.front ++ [' ']) ++ labelled "SL".toList s.stopLoss) (levels s.takeProfits) := by
    refine Skips.append (skips_front hopens (isAbsent_labelStart (by decide)) hascii) (skips_of_opens hopens hascii (fun x hx f hf => ?_) hstop)
    rw [endsNumber_levels _ x hx]
    exact (hfs f hf).2
  have hline : s.line = ((s.front ++ [' ']) ++ labelled "SL".toList s.stopLoss) ++ levels s.takeProfits := by simp [line_eq]
  have hhits : hits r ⟨none, s.line⟩ = s.takeProfits.map fun t => (labelled t.label t.price, [t.price.text]) := by
    rw [hline, hits_skip hprogress hskip]
    exact hits_levels hprogress hopens hfs hread s.takeProfits
  have htake : takeProfits s.line = (hits r ⟨none, s.line⟩).filterMap fun f => (f.2.head?).bind decimal := by
    rw [hits, List.filterMap_map]
    rfl
  rw [htake, hhits, List.filterMap_map]
  simp [Function.comp_def, decimal_text]

/-! ## The entry -/

theorem opens_level : Opens levelPattern ["SL", "ST", "TP", "TA"] := by
  refine .seq_left (.alts ?_)
  simp only [List.forall_mem_append, List.forall_mem_cons]
  exact ⟨⟨.boundary_seq (.seq_left (opens_litI (by decide) ⟨"SL", by decide, by decide⟩)),
    .boundary_seq (.seq_left (opens_litI (by decide) ⟨"ST", by decide, by decide⟩)), nofun⟩, opens_takeProfit (by decide) (by decide)⟩

theorem reads_level_stopLoss (n : Numeral) (hv : EndsNumber v) (hascii : ∀ x ∈ v, x.toNat < 128) :
    Reads levelPattern (some ' ') (labelled "SL".toList n) v [] := by
  have hpart : ∀ x ∈ "SL".toList, isUpperOrDigit x := by decide
  have hend : Reads (seqs [litI "SL", boundary]) (some ' ') ("SL".toList ++ []) (' ' :: (n.text ++ v)) [] :=
    reads_seqs_cons (t := []) (reads_litI (w := "SL") (by decide)) (reads_seqs_one (reads_boundary (isBoundary_part (by decide) hpart).2))
  rw [List.append_nil] at hend
  have hlabel : Reads (seqs [boundary, litI "SL", boundary]) (some ' ') "SL".toList (' ' :: (n.text ++ v)) [] :=
    reads_seqs_cons (u := []) (reads_boundary (isBoundary_part (by decide) hpart).1) hend
  exact reads_labelled n (reads_alts_head hlabel) (fun b => reads_number n hv) hv hascii

theorem reads_level_takeProfit (t : WrittenTakeProfit) (hv : EndsNumber v) (hascii : ∀ x ∈ v, x.toNat < 128) :
    Reads levelPattern (some ' ') (labelled t.label t.price) v [] := by
  obtain ⟨index, hlabel, hindex⟩ := label_eq t
  have htext : ∀ x ∈ t.label ++ ' ' :: (t.price.text ++ v), x.toNat < 128 := fun x hx => by
    rw [← List.cons_append, ← List.append_assoc] at hx
    exact (List.mem_append.mp hx).elim (labelled_ascii (IsLevelPart.takeProfit t).printed.2 t.price x) (hascii x)
  -- the labels of a stop loss begin with another letter
  have hnil (w : String) (hw : IsAscii w) (hs : ∃ l, w.toList.map Char.toUpper = 'S' :: l) (rest : List Regex) :
      run (seqs (boundary :: litI w :: rest)) ⟨some ' ', t.label ++ ' ' :: (t.price.text ++ v)⟩ = [] := by
    refine run_eq_nil_of_opens (l := ["S"]) (.boundary_seq (.seq_left (opens_litI hw ?_))) htext fun f hf hprefix => ?_
    · obtain ⟨l, hl⟩ := hs
      exact ⟨"S", List.mem_singleton.mpr rfl, by rw [hl]; exact ⟨l, rfl⟩⟩
    · rw [List.mem_singleton.mp hf, hlabel] at hprefix
      obtain ⟨h, -⟩ := List.cons_prefix_cons.mp hprefix
      cases h
  have hlabels := reads_alts_tail (hnil "SL" (by decide) ⟨['L'], by decide⟩ [boundary])
    (reads_alts_tail (hnil "STOP" (by decide) ⟨"TOP".toList, by decide⟩ [plus space, litI "LOSS", boundary]) (reads_takeProfitLabel t))
  exact reads_labelled t.price hlabels (fun b => reads_number t.price hv) hv hascii

/-- Without the levels the text is the front, and blanks. -/
theorem sub_level : sub levelPattern [' '] s.line = s.front ++ ' ' :: ' ' :: s.takeProfits.flatMap fun _ => [' ', ' '] := by
  have hascii : ∀ x ∈ labelled "SL".toList s.stopLoss ++ levels s.takeProfits, x.toNat < 128 := fun x hx =>
    (List.mem_append.mp hx).elim (labelled_ascii (by decide) _ x) (levels_ascii _ x)
  have hline : s.line = (s.front ++ [' ']) ++ (labelled "SL".toList s.stopLoss ++ levels s.takeProfits) := by simp [line_eq]
  have hlast : lastOr (s.front ++ [' ']) none = some ' ' := by rw [lastOr_append]; rfl
  rw [sub_eq_subFrom, hline, subFrom_skip progress_level (skips_front opens_level (isAbsent_labelStart (by decide)) hascii), hlast,
    subFrom_reads progress_level (reads_level_stopLoss s.stopLoss (endsNumber_levels _) (levels_ascii _)),
    subFrom_levels progress_level opens_level (by decide) (fun t _ => reads_level_takeProfit t)]
  simp

theorem opens_at : Opens atPattern ["@", "AT"] := by
  refine .seq_left (.alts ?_)
  simp only [List.forall_mem_cons]
  exact ⟨opens_oneOf (by decide), .boundary_seq (.seq_left (opens_litI (by decide) ⟨"AT", by decide, by decide⟩)), nofun⟩

theorem opening_absent : ∀ f ∈ ["@", "AT"], ¬ f.toList <:+: s.opening.map Char.toUpper := by
  have hat : ∀ f ∈ ["AT"], isAbsent openingWords f := isAbsent_labelStart (by decide)
  have hprefix : s.opening.map Char.toUpper <+: s.front.map Char.toUpper := by
    rw [WrittenSignal.front, List.map_append]
    exact List.prefix_append _ _
  have hupper : s.opening.map Char.toUpper = s.upperWord ++ blanks [s.symbol] := by
    rw [WrittenSignal.opening, List.map_append, map_toUpper_blanks fun part hmem => ?_]
    · rfl
    · rw [List.mem_singleton.mp hmem]
      exact fun x hx => printed_of_isUpper (s.symbol_letters x hx)
  simp only [List.forall_mem_cons]
  refine ⟨fun hwithin => ?_, fun hwithin => front_absent (hat "AT" List.mem_cons_self) (hwithin.trans hprefix.isInfix), nofun⟩
  have hmem : '@' ∈ s.upperWord ++ blanks [s.symbol] := hupper ▸ hwithin.subset List.mem_cons_self
  rcases List.mem_append.mp hmem with h | h
  · cases upperWord_printed.2 _ h
  rcases mem_blanks h with h | ⟨part, hpart, h⟩
  · cases h
  · rw [List.mem_singleton.mp hpart] at h
    cases s.symbol_letters _ h

theorem opening_ascii : ∀ x ∈ s.opening, x.toNat < 128 := fun x hx => front_ascii x (List.mem_append_left _ hx)

theorem reads_at {gap : List Char} {n : Numeral} (hgap : gap = [] ∨ gap = [' ']) (hv : EndsNumber v) :
    Reads atPattern b ('@' :: (gap ++ n.text)) v [n.text] := by
  have hsign : Reads (alts [oneOf "@", seqs [boundary, litI "AT", boundary]]) b ['@'] (gap ++ n.text ++ v) [] :=
    reads_alts_head (reads_char (by decide))
  have hspace : Reads (star space) (some '@') gap (n.text ++ v) [] := by
    rcases hgap with rfl | rfl
    · exact reads_no_space n
    · exact reads_blank n
  have hend (b : Option Char) : Reads (seqs [group number, boundary]) b (n.text ++ []) v ([n.text] ++ []) :=
    reads_seqs_cons (t := []) (reads_group (reads_number n hv)) (reads_seqs_one (reads_boundary (isBoundary_text n _ hv)))
  simp only [List.append_nil] at hend
  exact reads_seqs_cons (u := ['@']) hsign (reads_seqs_cons hspace (hend _))

theorem entry_line : entry s.line false = s.entry.map (·.price.value) := by
  set spaces := s.takeProfits.flatMap fun _ => [' ', ' '] with hspaces
  have hblank : ∀ x ∈ ' ' :: spaces, x = ' ' := by
    refine List.forall_mem_cons.mpr ⟨rfl, fun x hx => ?_⟩
    obtain ⟨-, -, hx⟩ := List.mem_flatMap.mp hx
    simpa using hx
  have hascii : ∀ x ∈ ' ' :: spaces, x.toNat < 128 := fun x hx => by rw [hblank x hx]; decide
  have hfs : ∀ f ∈ ["@", "AT"], f.toList ≠ [] ∧ ' ' ∉ f.toList := by decide
  unfold entry
  rw [entryRange_line, labelledNumber_entry, sub_level, ← hspaces, ← atPattern]
  dsimp only
  cases he : s.entry with
  | none =>
    have hfront : s.front = s.opening := by simp [WrittenSignal.front, he, blanks]
    have hnone : search atPattern (s.opening ++ ' ' :: ' ' :: spaces) = none := by
      refine find?_eq_none_of_needs opens_at.needs (fun x hx => ?_) fun f hf hwithin => ?_
      · exact (List.mem_append.mp hx).elim (opening_ascii x) (List.forall_mem_cons.mpr ⟨by decide, hascii⟩ x)
      · rw [List.map_append, List.map_cons] at hwithin
        rcases infix_append_cons (by exact (hfs f hf).2) hwithin with h | h
        · exact opening_absent f hf h
        · obtain ⟨x, hx⟩ := List.exists_mem_of_ne_nil _ (hfs f hf).1
          obtain ⟨y, hy, rfl⟩ := List.mem_map.mp (h.subset hx)
          rw [hblank y hy] at hx
          exact (hfs f hf).2 hx
    rw [hfront, hnone]
    rfl
  | some e =>
    obtain ⟨gap, hgap, hparts⟩ : ∃ gap, (gap = [] ∨ gap = [' ']) ∧ blanks e.parts = ' ' :: '@' :: (gap ++ e.price.text) := by
      unfold WrittenEntry.parts
      split
      · exact ⟨[' '], .inr rfl, by simp [blanks]⟩
      · exact ⟨[], .inl rfl, by simp [blanks]⟩
    have hfront : s.front ++ ' ' :: ' ' :: spaces = (s.opening ++ [' ']) ++ ('@' :: (gap ++ e.price.text) ++ ' ' :: ' ' :: spaces) := by
      simp [WrittenSignal.front, he, hparts]
    have hend : EndsNumber (' ' :: ' ' :: spaces) := fun x hx => by
      cases hx
      rfl
    have htext : ∀ x ∈ '@' :: (gap ++ e.price.text) ++ ' ' :: ' ' :: spaces, x.toNat < 128 := fun x hx => by
      rcases List.mem_append.mp hx with hx | hx
      · refine front_ascii (s := s) x (List.mem_append_right _ ?_)
        rw [he, Option.elim_some, hparts]
        exact List.mem_cons_of_mem _ hx
      · exact List.forall_mem_cons.mpr ⟨by decide, hascii⟩ x hx
    rw [hfront, search_reads (skips_blank opens_at hfs opening_absent opening_ascii htext) (reads_at hgap hend)]
    exact decimal_text _

/-! ## Numbers without a label -/

theorem uses_number : Uses number fun x => (Unicode.decimal x).isSome := by
  have hdigits {lo : Nat} {hi : Option Nat} (hlo : 0 < lo) : Uses (many digit lo hi) fun x => (Unicode.decimal x).isSome :=
    .many hlo (uses_char fun _ => id)
  refine .seq_right (.seq_left (.alts ?_))
  simp only [List.forall_mem_cons]
  refine ⟨.seq_left (.alts ?_), .seq_right (.seq_left (hdigits Nat.one_pos)), nofun⟩
  simp only [List.forall_mem_cons]
  exact ⟨.seq_left (hdigits Nat.one_pos), hdigits Nat.one_pos, nofun⟩

/-- A text without digits. -/
def NoDigits (t : List Char) : Prop := ∀ x ∈ t, (Unicode.decimal x).isSome = false

theorem noDigits_sub {r : Regex} {t : List Char} (h : NoDigits t) : NoDigits (sub r [' '] t) := fun x hx => by
  rcases mem_sub hx with hx | hx
  · exact h x hx
  · rw [List.mem_singleton.mp hx, decimal_other (by decide) (by decide)]
    rfl

theorem hasUnlabelledNumber_of_noDigits {t : List Char} (h : NoDigits (sub levelPattern [' '] t)) (symbol : Option String) :
    hasUnlabelledNumber t symbol = false := by
  have hfold (symbol : String) (aliases : List (String × String)) {t : List Char} (ht : NoDigits t) :
      NoDigits (aliases.foldl (fun cleaned a =>
        if a.2 = symbol then sub (seqs [boundary, litI a.1, boundary]) [' '] cleaned else cleaned) t) := by
    induction aliases generalizing t with
    | nil => exact ht
    | cons a aliases ih =>
      rw [List.foldl_cons]
      refine ih ?_
      split
      · exact noDigits_sub ht
      · exact ht
  have hnone {t : List Char} (ht : NoDigits t) : (search number t).isSome = false := by
    rw [search, find?_eq_none_of_uses uses_number ht]
    rfl
  unfold hasUnlabelledNumber
  cases symbol with
  | none => exact hnone (noDigits_sub h)
  | some symbol => exact hnone (hfold symbol symbolAliases (noDigits_sub (noDigits_sub h)))

theorem hasUnlabelledNumber_line (h : s.entry = none) (symbol : Option String) : hasUnlabelledNumber s.line symbol = false := by
  refine hasUnlabelledNumber_of_noDigits (fun x hx => ?_) symbol
  have hother {x : Char} (hx : x.toNat < 128) (hd : x.isDigit = false) : (Unicode.decimal x).isSome = false := by
    rw [decimal_other hx hd]
    rfl
  have hfront : s.front = s.word ++ ' ' :: s.symbol := by simp [WrittenSignal.front, WrittenSignal.opening, h, blanks]
  rw [sub_level, hfront, List.append_assoc, List.mem_append] at hx
  rcases hx with hx | hx
  · obtain ⟨hascii, -, hdigit⟩ := word_facts hx
    exact hother hascii hdigit
  rcases List.mem_cons.mp hx with rfl | hx
  · exact hother (by decide) (by decide)
  rcases List.mem_append.mp hx with hx | hx
  · have hletter : isUpper x.toUpper := by
      rw [toUpper_of_isUpper (s.symbol_letters x hx)]
      exact s.symbol_letters x hx
    obtain ⟨hascii, -, hdigit⟩ := letter_facts hletter
    exact hother hascii hdigit
  · have hblank : x = ' ' := by
      rcases List.mem_cons.mp hx with rfl | hx
      · rfl
      rcases List.mem_cons.mp hx with rfl | hx
      · rfl
      · obtain ⟨-, -, hx⟩ := List.mem_flatMap.mp hx
        simpa using hx
    rw [hblank]
    exact hother (by decide) (by decide)

/-! ## The whole -/

theorem parse_written (s : WrittenSignal) : deterministicParse s.text = some s.meaning := by
  have hnone {r : Regex} (h : Needs r foreign) : search r s.upperLine = none := (search_eq_none h).2
  have hline : s.line ≠ [] := by simp [WrittenSignal.line, isPart_word.1]
  obtain ⟨f, hf, hgroups⟩ := search_side (s := s)
  have hwords : ∀ w ∈ ["LIMIT", "STOP"], ∃ f ∈ foreign, f.toList <:+: w.toList.map Char.toUpper := by
    simp only [List.forall_mem_cons]
    exact ⟨⟨"IM", by decide, by decide⟩, ⟨"OP", by decide, by decide⟩, List.forall_mem_nil _⟩
  have hpending : search (wordGroup ["LIMIT", "STOP"]) s.upperLine = none := hnone (needs_wordGroup hwords)
  have hunlabelled : ((s.entry.map (·.price.value)).isNone && hasUnlabelledNumber s.line (some (String.ofList s.symbol))) = false := by
    cases he : s.entry with
    | none => exact (Bool.true_and _).trans (hasUnlabelledNumber_line he _)
    | some e => rfl
  unfold deterministicParse
  simp only [compact_text, upper_line, hnone needs_hedged, hnone needs_status, hnone needs_context, hnone needs_breakEven, hnone needs_cancel,
    hnone needs_percent, hnone needs_half, hnone needs_close, if_neg hline, Option.isSome_none, Bool.false_and, Bool.false_eq_true, if_false]
  unfold parseLevels
  simp only [upper_line, hf, symbols_line, takeProfits_line, stopLoss_line, directionWords_line, hgroups]
  unfold parseOpening
  simp only [upper_line, hpending, entryRange_line, Option.isSome_none, Option.none_or, entry_line, Bool.not_false, Bool.true_and, hunlabelled]
  simp [WrittenSignal.meaning, WrittenSignal.upperWord]

end

/-! ## A gold signal -/

/-- `buy XAUUSD @ 2,395.5`, with a stop loss and two take profits on the next line. -/
def goldWritten : @WrittenSignal Unicode.ascii :=
  let _ := Unicode.ascii
  { word := "buy".toList
    word_side := by decide +kernel
    symbol := "XAUUSD".toList
    symbol_letters := by decide
    symbol_length := rfl
    symbol_known := by decide +kernel
    entry := some
      { apart := true
        price := { whole := "2395".toList, fraction := "5".toList, commas := true, whole_ne := by decide, digits := by decide } }
    stopLoss := { whole := "2390".toList, whole_ne := by decide, digits := by decide }
    takeProfits :=
      [ { index := some 1, price := { whole := "2400".toList, whole_ne := by decide, digits := by decide } },
        { index := none, price := { whole := "2410".toList, whole_ne := by decide, digits := by decide } } ]
    gap := fun i => if i = 3 then ['\n'] else [' ']
    gap_ne := fun i => by split <;> exact List.cons_ne_nil _ _
    gap_space := fun i => by split <;> simp }

theorem parse_written_goldWritten :
    let _ := Unicode.ascii
    goldWritten.text = "buy XAUUSD @ 2,395.5\nSL 2390 TP1 2400 TP 2410" ∧
      deterministicParse goldWritten.text = some
        { action := .open_market
          symbol := some "XAUUSD"
          direction := some .buy
          entry := some ⟨false, 23955, -1⟩
          stopLoss := some 2390
          takeProfits := [2400, 2410]
          confidence := 1 } := by
  intro _
  refine ⟨by decide +kernel, (parse_written goldWritten).trans (congrArg some ?_)⟩
  decide +kernel

end Parser

end SignalSync
