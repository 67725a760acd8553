import SignalSync.Signal.Numerals

/-!
# Where the prices come from

Each price of an opening is the first number that one of the price patterns captures in the
text. It begins a numeral of the text, and is the whole of it where the numeral is legible.
-/

namespace SignalSync

open Library Regex

namespace Parser

section

variable [Unicode]

/-- The price is read from a numeral of the text, with a sign or a dot before it: from its
beginning, and where the numeral is legible, from the whole of it. -/
def IsRead (t : List Char) (price : Decimal) : Prop :=
  ∃ front sgn point k w post, Stands t (front ++ (sgn ++ point)) (k ++ w) post ∧ isNumeralText k ∧ IsSign sgn ∧
    (point = [] ∨ point = ['.']) ∧ decimal (sgn ++ (point ++ k)) = some price ∧ (IsLegible point (k ++ w) post → w = [])

/-- An index of a take profit that goes on with a dot and a digit. -/
def indexPattern : Regex := seqs [boundary, litI "TP", plus digit, lit ".", digit]

/-- A word with a digit after `LIMIT` or `STOP`. -/
def digitWordPattern : Regex :=
  seqs
    [boundary, alts [litI "LIMIT", litI "STOP"], boundary, plus space, oneOfI "ABCDEFGHIJKLMNOPQRSTUVWXYZ",
      star (oneOfI "ABCDEFGHIJKLMNOPQRSTUVWXYZ0123456789._-"), alts [digit, seqs [lit ".", digit]]]

/-- A character of no numeral. -/
def isOutside (x : Char) : Bool := !isDecimal x && !isSeparator x

/-- A number that begins here is no part of one that began before. -/
def Ready (c : Cursor) : Prop := c.before.any isOutside ∨ opensNumber c.rest = false

variable {t : List Char} {r labels num : Regex} {c d : Cursor} {m : Match} {x y : Char}

/-! ## Places where a number can begin -/

theorem exists_front (hc : Later ⟨none, t⟩ c) (h : Ready c) :
    ∃ front, t = front ++ c.rest ∧ (goesOn front.reverse = false ∨ opensNumber c.rest = false) := by
  obtain ⟨front, ht, hbefore⟩ := later_iff.1 hc
  refine ⟨front, ht, h.imp (fun hout => ?_) id⟩
  rw [hbefore, ← List.head?_reverse] at hout
  cases hrev : front.reverse with
  | nil => rfl
  | cons x u =>
    rw [hrev] at hout
    have hx : isDecimal x = false ∧ isSeparator x = false := by simpa [isOutside] using hout
    simp [goesOn, hx.1, hx.2]

theorem leaves_ready (h : Leaves r fun c => c.before.any isOutside) : Leaves r Ready := fun c m hm => .inl (h c m hm)

theorem outside_ascii (h : x.toNat < 128 ∧ x.isDigit = false ∧ x ≠ ',' ∧ x ≠ '.') : isOutside x := by
  simp [isOutside, isDecimal, isSeparator, Unicode.decimal_ascii h.1, asciiDecimal, h.2]

theorem leaves_oneOf {w : String} (h : ∀ x ∈ w.toList, isOutside x) : Leaves (oneOf w) Ready :=
  leaves_ready (leaves_char fun x hx => h x (by simpa using hx))

variable [LawfulDigits]

theorem isWord_of_decimal (h : isDecimal x) : Unicode.isWord x := by
  rw [Unicode.isWord, LawfulDigits.isAlnum_of_decimal h]
  rfl

theorem outside_space (h : Unicode.isSpace x) : isOutside x := by
  have hdecimal : isDecimal x = false := by
    by_contra hx
    rw [Bool.not_eq_false] at hx
    have halnum := LawfulDigits.isAlnum_of_decimal hx
    rw [Unicode.isAlnum_space h] at halnum
    cases halnum
  have hseparator : isSeparator x = false := by
    rw [isSeparator, Bool.or_eq_false_iff, decide_eq_false_iff_not, decide_eq_false_iff_not]
    refine ⟨?_, ?_⟩ <;> rintro rfl <;> rw [Unicode.isSpace_ascii (by decide)] at h <;> cases h
  simp [isOutside, hdecimal, hseparator]

omit [Unicode] [LawfulDigits] in
theorem lt_of_isAlpha (hx : x.isAlpha) : x.toNat < 128 := by
  rw [isAlpha_iff] at hx
  omega

/-- No case of a letter is in a numeral. -/
theorem outside_sameCase (hx : x.isAlpha) (h : Unicode.sameCase x y) : isOutside y := by
  have hdecimal : isDecimal y = false := by rw [isDecimal, LawfulDigits.decimal_of_sameCase hx h]; rfl
  have hascii : x.toNat < 128 := lt_of_isAlpha hx
  have hlower : ∀ z ∈ [',', '.'], x.toLower ≠ z.toLower :=
    ascii_induction (P := fun x => x.isAlpha → ∀ z ∈ [',', '.'], x.toLower ≠ z.toLower) (by decide +kernel) hascii hx
  have hseparator : isSeparator y = false := by
    rw [isSeparator, Bool.or_eq_false_iff, decide_eq_false_iff_not, decide_eq_false_iff_not]
    refine ⟨?_, ?_⟩ <;> rintro rfl <;> rw [Unicode.sameCase_ascii hascii (by decide), decide_eq_true_eq] at h
    · exact hlower _ (by simp) h
    · exact hlower _ (by simp) h
  simp [isOutside, hdecimal, hseparator]

theorem leaves_word {w : String} (hw : w.toList ≠ [] ∧ ∀ x ∈ w.toList, x.isAlpha) : Leaves (litI w) Ready :=
  leaves_ready (leaves_litI hw.1 fun y hy _ h => outside_sameCase (hw.2 y hy) h)

theorem keeps_space : Keeps (star space) Ready := (leaves_ready (leaves_char fun _ h => outside_space h)).keeps.many

theorem keeps_separator : Keeps (opt labelSeparator) Ready := by
  refine (Leaves.keeps (.alts ?_)).many
  simp only [List.forall_mem_cons]
  refine ⟨leaves_oneOf ?_, Leaves.seq_right ((Leaves.alts ?_).seq_keeps (keeps_boundary.seq keeps_empty)), nofun⟩
  · exact fun x hx => outside_ascii ((by decide : ∀ x ∈ ":=@".toList, x.toNat < 128 ∧ x.isDigit = false ∧ x ≠ ',' ∧ x ≠ '.') x hx)
  · simp only [List.forall_mem_cons]
    exact ⟨leaves_word (by decide), leaves_word (by decide), leaves_word (by decide), nofun⟩

/-! ## Captures -/

theorem lastOr_numeral {sgn point n : List Char} (hn : isNumeralText n) (b : Option Char) :
    (lastOr (sgn ++ (point ++ n)) b).any Unicode.isWord := by
  rw [lastOr_append, lastOr_append]
  have hlast := isNumeralText_last hn (lastOr point (lastOr sgn b))
  cases h : lastOr n (lastOr point (lastOr sgn b)) with
  | none => rw [h] at hlast; cases hlast
  | some x =>
    rw [h] at hlast
    exact isWord_of_decimal hlast

/-- What is captured is read from a numeral of the text. -/
def Captured (t : List Char) (groups : List (List Char)) : Prop :=
  ∃ text, groups = [text] ∧ ∀ price, decimal text = some price → IsRead t price

/-- At a place where a number can begin, a numeral is captured from its beginning. -/
theorem first_number (hc : Later ⟨none, t⟩ c) (hready : Ready c) {rs : List Regex} (hrs : rs = [] ∨ rs = [boundary])
    (h : (run (seqs (group number :: rs)) c).head? = some m) : Captured t m.groups := by
  obtain ⟨front, ht, hstart⟩ := exists_front hc hready
  obtain ⟨m₁, hm₁, m₂, hm₂, rfl⟩ := mem_run_seqs_cons.1 (List.mem_of_mem_head? h)
  obtain ⟨m₃, hm₃, rfl⟩ := mem_run_group.1 hm₁
  obtain ⟨sgn, point, k, w, post, hrest, hend, hk, hsgn, hpoint, hstands, hreads⟩ := reads_standing ht hstart hm₃
  obtain ⟨b, rest⟩ := c
  subst hrest
  obtain ⟨hcursor, hcapture⟩ := cursor_of_run hm₃ hend
  have hplain : m₃.groups = [] ∧ m₂.groups = [] := by
    refine ⟨groups_of_plain rfl hm₃, groups_of_plain ?_ hm₂⟩
    rcases hrs with rfl | rfl <;> rfl
  rw [hcapture, hplain.1, hplain.2] at h ⊢
  refine ⟨_, rfl, fun price hprice => ⟨front, sgn, point, k, w, post, hstands, hk, hsgn, hpoint, hprice, fun hlegible => ?_⟩⟩
  cases w with
  | nil => rfl
  | cons z w =>
    have htail : Reads (seqs rs) (lastOr (sgn ++ (point ++ (k ++ z :: w))) b) [] post [] := by
      rcases hrs with rfl | rfl
      · exact reads_seqs_nil
      · obtain ⟨m₄, hm₄, -⟩ := mem_run_seqs_cons.1 hm₂
        have hbound := (mem_run_boundary.1 hm₄).1
        rw [hcursor, Cursor.isBoundary, lastOr_numeral hk] at hbound
        have hz : isDecimal z = false := by
          by_contra hz
          have hword : Unicode.isWord z := isWord_of_decimal (by simpa using hz)
          simp [hword] at hbound
        have hseparator : isSeparator z := (mem_numeral hstands.numeral (by simp)).resolve_left (by simp [hz])
        have hpost := hlegible.2 (List.any_eq_true.mpr ⟨z, by simp, hseparator⟩)
        refine reads_seqs_one (reads_boundary ?_)
        rw [Cursor.isBoundary, lastOr_numeral hstands.numeral, hpost]
        rfl
    have hwhole := reads_seqs_cons (reads_group (hreads hlegible)) htail
    -- the capture would be the whole numeral, and is only its beginning
    have hmatch := h.symm.trans (by simpa [Reads] using hwhole)
    simp at hmatch

omit [LawfulDigits] in
/-- A number with nothing of a numeral behind it is captured as a whole. -/
theorem captured_between (hc : Later ⟨none, t⟩ c) (hready : Ready c) (hm : m ∈ run number c) (hend : m.cursor.rest.head?.any isOutside) :
    Captured t [between c m.cursor] := by
  obtain ⟨front, ht, hstart⟩ := exists_front hc hready
  obtain ⟨sgn, point, k, w, post, hrest, hpost, hk, hsgn, hpoint, hstands, -⟩ := reads_standing ht hstart hm
  obtain ⟨b, rest⟩ := c
  subst hrest
  refine ⟨_, rfl, fun price hprice => ?_⟩
  rw [(cursor_of_run hm hpost).2] at hprice
  refine ⟨front, sgn, point, k, w, post, hstands, hk, hsgn, hpoint, hprice, fun _ => ?_⟩
  cases w with
  | nil => rfl
  | cons z w =>
    have hz := mem_numeral hstands.numeral (x := z) (by simp)
    rw [hpost] at hend
    simp only [isOutside, List.cons_append, List.head?_cons, Option.any_some, Bool.and_eq_true, Bool.not_eq_true'] at hend
    simp [hend] at hz

/-! ## Labelled numbers -/

omit [LawfulDigits] in
theorem Captured.read {groups : List (List Char)} {price : Decimal} (h : Captured t groups) (hprice : groups.head?.bind decimal = some price) :
    IsRead t price := by
  obtain ⟨text, rfl, hread⟩ := h
  exact hread price hprice

omit [LawfulDigits] in
/-- A part that keeps the places where a number can begin. -/
theorem first_keeps (hr : r.plain) (hkeeps : Keeps r Ready) (hc : Later ⟨none, t⟩ c) (hready : Ready c)
    (h : (run (seq r num) c).head? = some m) : ∃ d, Later ⟨none, t⟩ d ∧ Ready d ∧ (run num d).head? = some m := by
  obtain ⟨m₁, hm₁, hrest⟩ := first_plain hr h
  exact ⟨m₁.cursor, hc.trans (later_of_run hm₁), hkeeps c hready m₁ hm₁, hrest⟩

/-- The number behind a label. -/
theorem first_labelled (hplain : labels.plain) (hlabels : ∀ m ∈ run labels c, Ready m.cursor) (hc : Later ⟨none, t⟩ c)
    (h : (run (seqs [labels, star space, opt labelSeparator, star space, group number, boundary]) c).head? = some m) :
    Captured t m.groups := by
  obtain ⟨m₁, hm₁, h⟩ := first_plain hplain h
  obtain ⟨d₁, hd₁, hready₁, h⟩ := first_keeps rfl keeps_space (hc.trans (later_of_run hm₁)) (hlabels m₁ hm₁) h
  obtain ⟨d₂, hd₂, hready₂, h⟩ := first_keeps rfl keeps_separator hd₁ hready₁ h
  obtain ⟨d₃, hd₃, hready₃, h⟩ := first_keeps rfl keeps_space hd₂ hready₂ h
  exact first_number hd₃ hready₃ (.inr rfl) h

theorem read_labelledNumber {price : Decimal} (hplain : labels.plain) (hlabels : Leaves labels Ready)
    (h : labelledNumber t labels = some price) : IsRead t price := by
  obtain ⟨f, hf, hprice⟩ := Option.bind_eq_some_iff.mp h
  obtain ⟨d, hd, hfirst⟩ := first_of_search hf
  exact (first_labelled hplain (hlabels d) hd hfirst).read hprice

theorem read_stopLoss {price : Decimal}
    (h : labelledNumber t (alts [litI "SL", seqs [litI "STOP", plus space, litI "LOSS"]]) = some price) : IsRead t price := by
  refine read_labelledNumber rfl (.alts ?_) h
  simp only [List.forall_mem_cons]
  exact ⟨leaves_word (by decide), Leaves.seq_right (Leaves.seq_right ((leaves_word (by decide)).seq_keeps keeps_empty)), nofun⟩

/-- Digits that end at a boundary do not go on. -/
theorem not_decimal_of_boundary {v : List Char} (h : m ∈ run (plus digit) c) (hbound : m.cursor.isBoundary)
    (hrest : m.cursor.rest = x :: v) : isDecimal x = false := by
  obtain ⟨ds, hds, hlo, -, hdigits⟩ := mem_run_digits h
  obtain ⟨b, rest⟩ := c
  subst hds
  have hlast := lastOr_any (List.length_pos_iff.mp hlo) (fun y hy => isWord_of_decimal (hdigits y hy)) b
  by_contra hx
  have hword : Unicode.isWord x := isWord_of_decimal (by simpa using hx)
  rw [(later_of_run h).cursor rfl, Cursor.isBoundary, hlast, hrest] at hbound
  simp [hword] at hbound

omit [LawfulDigits] in
theorem progress_takeProfit : ∀ r ∈ takeProfitLabels, r.Progress := by
  simp only [takeProfitLabels, List.forall_mem_cons]
  exact ⟨.seq_right (.seq_left (progress_litI (by decide))), .seq_right (.seq_left (progress_litI (by decide))), nofun⟩

omit [LawfulDigits] in
theorem progress_level : levelPattern.Progress := by
  refine .seq_left (.alts ?_)
  simp only [List.forall_mem_append, List.forall_mem_cons]
  exact ⟨⟨.seq_right (.seq_left (progress_litI (by decide))), .seq_right (.seq_left (progress_litI (by decide))), nofun⟩, progress_takeProfit⟩

/-- Behind the label of a take profit a number can begin, unless its index goes on. -/
theorem ready_takeProfit (hindex : search indexPattern t = none) (hc : Later ⟨none, t⟩ c) :
    ∀ m ∈ run (alts takeProfitLabels) c, Ready m.cursor := by
  intro m hm
  obtain ⟨r, hr, hm⟩ := mem_run_alts.1 hm
  simp only [takeProfitLabels, List.mem_cons, List.not_mem_nil, or_false] at hr
  rcases hr with rfl | rfl
  · obtain ⟨m₁, hm₁, m₂, hm₂, rfl⟩ := mem_run_seqs_cons.1 hm
    obtain ⟨m₃, hm₃, m₄, hm₄, rfl⟩ := mem_run_seqs_cons.1 hm₂
    obtain ⟨m₅, hm₅, m₆, hm₆, rfl⟩ := mem_run_seqs_cons.1 hm₄
    obtain ⟨m₇, hm₇, m₈, hm₈, rfl⟩ := mem_run_seqs_cons.1 hm₆
    cases mem_run_seqs_nil.1 hm₈
    obtain ⟨hbound, rfl⟩ := mem_run_boundary.1 hm₇
    have hword : Ready m₃.cursor := leaves_word (by decide) m₁.cursor m₃ hm₃
    rcases mem_run_opt hm₅ with rfl | hdigits
    · exact hword
    · refine .inr ?_
      cases hrest : m₅.cursor.rest with
      | nil => rfl
      | cons x v =>
        have hx : isDecimal x = false := not_decimal_of_boundary hdigits hbound hrest
        rw [opensNumber, hx, Bool.false_or]
        by_contra hopens
        obtain ⟨rfl, hv⟩ : x = '.' ∧ v.head?.any isDecimal := by simpa using hopens
        cases v with
        | nil => cases hv
        | cons y v =>
          have hmatch : _ ∈ run indexPattern c := mem_run_seqs_cons.2 ⟨_, hm₁, _, mem_run_seqs_cons.2 ⟨_, hm₃, _, mem_run_seqs_cons.2 ⟨_, hdigits, _,
            mem_run_seqs_cons.2 ⟨_, mem_run_lit.2 ⟨_, hrest, rfl⟩, _, mem_run_seqs_cons.2
              ⟨_, mem_run_char.2 ⟨_, _, rfl, hv, rfl⟩, _, mem_run_seqs_nil.2 rfl, rfl⟩, rfl⟩, rfl⟩, rfl⟩, rfl⟩
          exact List.ne_nil_of_mem hmatch (find?_eq_none.1 hindex c hc)
  · have hleaves : Leaves (seqs [boundary, litI "TAKE", plus space, litI "PROFIT", boundary]) Ready :=
      Leaves.seq_right (Leaves.seq_right (Leaves.seq_right ((leaves_word (by decide)).seq_keeps (keeps_boundary.seq keeps_empty))))
    exact hleaves c m hm

theorem read_takeProfits {price : Decimal} (hindex : search indexPattern t = none) (h : price ∈ takeProfits t) : IsRead t price := by
  obtain ⟨f, hf, hprice⟩ := List.mem_filterMap.mp h
  obtain ⟨d, hd, hfirst⟩ := first_of_findAll hf
  exact (first_labelled rfl (ready_takeProfit hindex hd) hd hfirst).read hprice

/-! ## The entry -/

theorem outside_dash : ∀ x ∈ ("-\u2013\u2014" : String).toList, isOutside x := by
  obtain ⟨hen, hem⟩ := LawfulDigits.decimal_dash
  rw [show ("-\u2013\u2014" : String).toList = ['-', '\u2013', '\u2014'] by decide]
  simp only [List.forall_mem_cons]
  refine ⟨outside_ascii (by decide), ?_, ?_, nofun⟩
  · simp [isOutside, isDecimal, isSeparator, hen]
  · simp [isOutside, isDecimal, isSeparator, hem]

theorem leaves_entryLabel : Leaves entryLabel Ready := by
  have hkeeps : Keeps (opt (alts [oneOf ":=@", litI "IS", litI "AT"])) Ready := by
    refine (Leaves.keeps (.alts ?_)).many
    simp only [List.forall_mem_cons]
    refine ⟨leaves_oneOf fun x hx => outside_ascii ?_, leaves_word (by decide), leaves_word (by decide), nofun⟩
    exact (by decide : ∀ x ∈ ":=@".toList, x.toNat < 128 ∧ x.isDigit = false ∧ x ≠ ',' ∧ x ≠ '.') x hx
  have hword : Leaves (litI "ENTRY") Ready := leaves_word (by decide)
  exact Leaves.seq_right (hword.seq_keeps (keeps_boundary.seq (keeps_space.seq (hkeeps.seq (keeps_space.seq keeps_empty)))))

/-- Behind the low end of a range comes no more of its numeral. -/
theorem enters_range {num : Regex} : Enters (seqs [star space, rangeSign, star space, num]) isOutside := by
  refine Enters.many_seq (enters_char fun x hx => outside_space hx) (.seq_left (.alts ?_))
  simp only [List.forall_mem_cons]
  exact ⟨enters_char fun x hx => outside_dash x (by simpa using hx),
    enters_litI (by decide) fun y hy x hx => outside_sameCase ((by decide : ∀ y ∈ "TO".toList, y.isAlpha) y hy) hx, nofun⟩

theorem leaves_rangeSign : Leaves rangeSign Ready := by
  refine .alts ?_
  simp only [List.forall_mem_cons]
  exact ⟨leaves_oneOf outside_dash, leaves_word (by decide), nofun⟩

theorem read_entryRange {price : Decimal} (h : (entryRange t).1 = some price ∨ (entryRange t).2 = some price) : IsRead t price := by
  unfold entryRange at h
  split at h
  · next f skipped text low high after hf =>
    obtain ⟨d, hd, hfirst⟩ := first_of_search hf
    obtain ⟨m₁, hm₁, hfirst⟩ := first_plain (r := entryLabel) rfl hfirst
    have hready := leaves_entryLabel d m₁ hm₁
    have hplace := hd.trans (later_of_run hm₁)
    obtain ⟨m₂, hm₂, m₃, hfirst, hgroups⟩ := first_seq hfirst
    obtain ⟨m₄, hm₄, rfl⟩ := mem_run_group.1 hm₂
    have hlow : Captured t [between m₁.cursor m₄.cursor] :=
      captured_between hplace hready hm₄ (enters_range _ m₃ (List.mem_of_mem_head? hfirst))
    have hplace₂ := hplace.trans (later_of_run hm₄)
    obtain ⟨m₅, hm₅, hfirst⟩ := first_plain (r := star space) rfl hfirst
    obtain ⟨m₆, hm₆, hfirst⟩ := first_plain (r := rangeSign) rfl hfirst
    have hplace₃ := (hplace₂.trans (later_of_run hm₅)).trans (later_of_run hm₆)
    obtain ⟨c, hc, hready, hfirst⟩ := first_keeps rfl keeps_space hplace₃ (leaves_rangeSign _ m₆ hm₆) hfirst
    have hhigh : Captured t m₃.groups := first_number hc hready (.inl rfl) hfirst
    have hboth : [low, high] = [between m₁.cursor m₄.cursor] ++ m₃.groups := by
      have hfound : [low, high] = (m₄.groups ++ [between m₁.cursor m₄.cursor]) ++ m₃.groups := (Match.mk.inj hgroups).2
      rw [hfound, groups_of_plain rfl hm₄]
      rfl
    obtain ⟨text, htext, hread⟩ := hhigh
    rw [htext] at hboth
    obtain ⟨rfl, hrest⟩ := List.cons.inj hboth
    obtain ⟨rfl, -⟩ := List.cons.inj hrest
    rcases h with h | h
    · exact hlow.read h
    · exact hread price h
  · rcases h with h | h <;> cases h

/-- `@` or `AT`, and a number. -/
def atPattern : Regex := seqs [alts [oneOf "@", seqs [boundary, litI "AT", boundary]], star space, group number, boundary]

/-- The price of a pending order, behind its kind and at most one word. -/
def pendingPattern : Regex :=
  seqs
    [boundary, alts [litI "LIMIT", litI "STOP"], boundary,
      opt (seqs [plus space, oneOfI "ABCDEFGHIJKLMNOPQRSTUVWXYZ", star (oneOfI "ABCDEFGHIJKLMNOPQRSTUVWXYZ0123456789._-")]),
      star space, opt (alts [oneOf "@", litI "AT"]), star space, group number, boundary]

theorem first_at (hc : Later ⟨none, t⟩ c) (h : (run atPattern c).head? = some m) : Captured t m.groups := by
  have hlabels : Leaves (alts [oneOf "@", seqs [boundary, litI "AT", boundary]]) Ready := by
    refine .alts ?_
    simp only [List.forall_mem_cons]
    refine ⟨leaves_oneOf fun x hx => outside_ascii ?_, ?_, nofun⟩
    · exact (by decide : ∀ x ∈ "@".toList, x.toNat < 128 ∧ x.isDigit = false ∧ x ≠ ',' ∧ x ≠ '.') x hx
    · exact Leaves.seq_right ((leaves_word (by decide)).seq_keeps (keeps_boundary.seq keeps_empty))
  obtain ⟨m₁, hm₁, h⟩ := first_plain rfl h
  obtain ⟨d, hd, hready, h⟩ := first_keeps rfl keeps_space (hc.trans (later_of_run hm₁)) (hlabels c m₁ hm₁) h
  exact first_number hd hready (.inr rfl) h

omit [LawfulDigits] in
theorem exists_opening (h : opensNumber c.rest) : ∃ m, m ∈ run (alts [digit, seqs [lit ".", digit]]) c := by
  cases hrest : c.rest with
  | nil =>
    rw [hrest] at h
    cases h
  | cons x v =>
    rw [hrest, opensNumber, Bool.or_eq_true, Bool.and_eq_true, decide_eq_true_eq] at h
    rcases h with hx | ⟨rfl, hv⟩
    · exact ⟨_, mem_run_alts.2 ⟨digit, by simp, mem_run_char.2 ⟨x, v, hrest, hx, rfl⟩⟩⟩
    · cases v with
      | nil => cases hv
      | cons y v =>
        exact ⟨_, mem_run_alts.2 ⟨seqs [lit ".", digit], by simp, mem_run_seqs_cons.2 ⟨_, mem_run_lit.2 ⟨_, hrest, rfl⟩, _,
          mem_run_seqs_cons.2 ⟨_, mem_run_char.2 ⟨y, v, rfl, hv, rfl⟩, _, mem_run_seqs_nil.2 rfl, rfl⟩, rfl⟩⟩⟩

theorem first_pending (hword : search digitWordPattern t = none) (hc : Later ⟨none, t⟩ c) (h : (run pendingPattern c).head? = some m) :
    Captured t m.groups := by
  have hkeeps : Keeps (opt (alts [oneOf "@", litI "AT"])) Ready := by
    refine (Leaves.keeps (.alts ?_)).many
    simp only [List.forall_mem_cons]
    refine ⟨leaves_oneOf fun x hx => outside_ascii ?_, leaves_word (by decide), nofun⟩
    exact (by decide : ∀ x ∈ "@".toList, x.toNat < 128 ∧ x.isDigit = false ∧ x ≠ ',' ∧ x ≠ '.') x hx
  have hkind : Leaves (alts [litI "LIMIT", litI "STOP"]) Ready := by
    refine .alts ?_
    simp only [List.forall_mem_cons]
    exact ⟨leaves_word (by decide), leaves_word (by decide), nofun⟩
  obtain ⟨m₁, hm₁, h⟩ := first_plain (r := boundary) rfl h
  obtain ⟨m₂, hm₂, h⟩ := first_plain (r := alts [litI "LIMIT", litI "STOP"]) rfl h
  obtain ⟨m₃, hm₃, h⟩ := first_plain (r := boundary) rfl h
  obtain ⟨m₄, hm₄, h⟩ := first_plain rfl h
  have hplace := (((hc.trans (later_of_run hm₁)).trans (later_of_run hm₂)).trans (later_of_run hm₃)).trans (later_of_run hm₄)
  have hready : Ready m₄.cursor := by
    rcases mem_run_opt hm₄ with rfl | hm₄
    · exact keeps_boundary _ (hkind _ m₂ hm₂) m₃ hm₃
    · refine .inr (Bool.eq_false_iff.mpr fun hopens => ?_)
      obtain ⟨m₅, hm₅, m₆, hm₆, rfl⟩ := mem_run_seqs_cons.1 hm₄
      obtain ⟨m₇, hm₇, m₈, hm₈, rfl⟩ := mem_run_seqs_cons.1 hm₆
      obtain ⟨m₉, hm₉, m₁₀, hm₁₀, rfl⟩ := mem_run_seqs_cons.1 hm₈
      cases mem_run_seqs_nil.1 hm₁₀
      obtain ⟨m, hm⟩ := exists_opening hopens
      have hmatch : _ ∈ run digitWordPattern c := mem_run_seqs_cons.2 ⟨m₁, hm₁, _, mem_run_seqs_cons.2 ⟨m₂, hm₂, _,
        mem_run_seqs_cons.2 ⟨m₃, hm₃, _, mem_run_seqs_cons.2 ⟨m₅, hm₅, _, mem_run_seqs_cons.2 ⟨m₇, hm₇, _,
          mem_run_seqs_cons.2 ⟨m₉, hm₉, _, mem_run_seqs_cons.2 ⟨m, hm, _, mem_run_seqs_nil.2 rfl, rfl⟩, rfl⟩, rfl⟩, rfl⟩, rfl⟩, rfl⟩, rfl⟩
      exact List.ne_nil_of_mem hmatch (find?_eq_none.1 hword c hc)
  obtain ⟨d₁, hd₁, hready₁, h⟩ := first_keeps rfl keeps_space hplace hready h
  obtain ⟨d₂, hd₂, hready₂, h⟩ := first_keeps rfl hkeeps hd₁ hready₁ h
  obtain ⟨d₃, hd₃, hready₃, h⟩ := first_keeps rfl keeps_space hd₂ hready₂ h
  exact first_number hd₃ hready₃ (.inr rfl) h

end

end Parser

end SignalSync
