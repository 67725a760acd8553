import SignalSync.Signal.Blanks
import SignalSync.Signal.RoundTrip

/-!
# What an opening is made of

An opening that `deterministic_parse` returns states nothing that is not in the text: its
side, its symbol and its prices are read there, and no phrase of the text takes them back.
-/

namespace SignalSync

open Library Regex

namespace Parser

section

variable [Unicode] {text : String} {t : List Char} {action : AiAction} {symbol : String} {direction : Direction}
  {stopLoss : Option Decimal} {targets : List Decimal}

/-! ## The branch that opens -/

/-- No phrase of the text screens it out. -/
structure Unscreened (t : List Char) : Prop where
  hedged : search hedgedPattern (upper t) = none
  status : search statusPattern (upper t) = none
  context : search contextPattern (upper t) = none ∨ search detailsPattern (upper t) = none

theorem opening_of_parse (h : deterministicParse text = some action) (hopens : action.action.isOpen) :
    Unscreened (compact text) ∧ parseLevels (compact text) = some action := by
  unfold deterministicParse at h
  dsimp only at h
  split at h
  · cases h
  split at h
  · cases h
  next hhedged =>
  split at h
  · cases h
    cases hopens
  next hstatus =>
  split at h
  · cases h
    cases hopens
  next hcontext =>
  rw [Bool.and_eq_true, not_and_or, Option.not_isSome_iff_eq_none, Option.not_isSome_iff_eq_none] at hcontext
  have hscreened : Unscreened (compact text) := ⟨by simpa using hhedged, by simpa using hstatus, hcontext⟩
  split at h
  · cases h
    cases hopens
  split at h
  · cases h
    cases hopens
  split at h
  · cases h
    cases hopens
  split at h
  · cases h
    cases hopens
  split at h
  · cases h
    cases hopens
  exact ⟨hscreened, h⟩

/-- The parts of an opening. -/
theorem opening_of_levels (h : parseLevels t = some action) (hopens : action.action.isOpen) :
    ∃ f symbol, search (wordGroup sides) (upper t) = some f ∧ symbols t = [symbol] ∧
      ((((findAll (wordGroup sides) (upper t)).map fun f => String.ofList f.groups.flatten).map sideOf).dedup.length ≤ 1) ∧
      parseOpening t symbol (sideOf (.ofList f.groups.flatten))
        (labelledNumber t (alts [litI "SL", seqs [litI "STOP", plus space, litI "LOSS"]])) (takeProfits t) = some action := by
  unfold parseLevels at h
  dsimp only at h
  split at h
  · split at h
    · cases h
      cases hopens
    · split at h
      · cases h
        cases hopens
      · cases h
  next f hf =>
  split at h
  · cases h
  next symbol others hsymbols =>
  split at h
  · cases h
    cases hopens
  next hone =>
  simp only [Bool.or_eq_true, decide_eq_true_eq, not_or, not_lt, not_not] at hone
  obtain ⟨hside, rfl⟩ := hone
  exact ⟨f, symbol, hf, hsymbols, hside, h⟩

theorem parts_of_opening (h : parseOpening t symbol direction stopLoss targets = some action) :
    action.symbol = some symbol ∧ action.direction = some direction ∧ action.stopLoss = stopLoss ∧ action.takeProfits = targets ∧
      action.entryHigh = (entryRange t).2 ∧ ∃ pending, action.entry = (entryRange t).1.or (entry t pending) := by
  unfold parseOpening at h
  dsimp only at h
  split at h
  · cases h
  · cases h
    exact ⟨rfl, rfl, rfl, rfl, rfl, _, rfl⟩

/-! ## The side -/

/-- The side words of the text are all of the side, and there are some. -/
def NamesSide (t : List Char) (side : Direction) : Prop :=
  (∃ w ∈ sides, WordIn w (upper t)) ∧ ∀ w ∈ sides, WordIn w (upper t) → sideOf w = side

omit [Unicode] in
theorem eq_of_dedup {α : Type} [DecidableEq α] {l : List α} (h : l.dedup.length ≤ 1) {x y : α} (hx : x ∈ l) (hy : y ∈ l) : x = y := by
  obtain ⟨z, hz⟩ | hnil : (∃ z, l.dedup = [z]) ∨ l.dedup = [] := by
    cases hl : l.dedup with
    | nil => exact .inr rfl
    | cons z l' =>
      rw [hl, List.length_cons] at h
      exact .inl ⟨z, by rw [List.length_eq_zero_iff.mp (show l'.length = 0 by omega)]⟩
  · rw [← List.mem_dedup, hz, List.mem_singleton] at hx hy
    rw [hx, hy]
  · rw [← List.mem_dedup, hnil] at hx
    cases hx

theorem mem_findAll_of_search {r : Regex} {f : Found} (hr : r.Progress) (h : search r t = some f) : f ∈ findAll r t := by
  rw [findAll, findAllFrom_eq hr, show find? r none t = some f from h]
  exact List.mem_cons_self

theorem word_of_found {f : Found} (h : f ∈ findAll (wordGroup sides) t) : ∃ w ∈ sides, f.groups = [w.toList] := by
  obtain ⟨d, -, hfirst⟩ := first_of_findAll h
  obtain ⟨-, w, hw, rest, -, -, hm⟩ := mem_run_wordGroup.1 (List.mem_of_mem_head? hfirst)
  exact ⟨w, hw, (Match.mk.inj hm).2⟩

theorem namesSide_of_found {f : Found} (hf : search (wordGroup sides) (upper t) = some f)
    (hone : (((findAll (wordGroup sides) (upper t)).map fun f => String.ofList f.groups.flatten).map sideOf).dedup.length ≤ 1) :
    NamesSide t (sideOf (.ofList f.groups.flatten)) := by
  have hfound := mem_findAll_of_search (progress_wordGroup isWord_sides) hf
  have hmem {f : Found} (hf : f ∈ findAll (wordGroup sides) (upper t)) : sideOf (.ofList f.groups.flatten) ∈
      ((findAll (wordGroup sides) (upper t)).map fun f => String.ofList f.groups.flatten).map sideOf :=
    List.mem_map_of_mem (List.mem_map_of_mem hf)
  constructor
  · obtain ⟨w, hw, hgroups⟩ := word_of_found hfound
    exact ⟨w, hw, (wordIn_iff isWord_sides hw).2 ⟨f, hfound, hgroups⟩⟩
  · intro w hw hin
    obtain ⟨f', hf', hgroups⟩ := (wordIn_iff isWord_sides hw).1 hin
    have hside := eq_of_dedup hone (hmem hf') (hmem hfound)
    rw [hgroups] at hside
    simpa using hside

/-- A side word is a detail of a trade. -/
theorem details_of_found {f : Found} (hf : search (wordGroup sides) t = some f) : search detailsPattern t ≠ none := by
  intro hnone
  obtain ⟨d, hd, hfirst⟩ := first_of_search hf
  obtain ⟨hb, w, hw, rest, hrest, hb', -⟩ := mem_run_wordGroup.1 (List.mem_of_mem_head? hfirst)
  have hdetail : lit w ∈ [lit "BUY", lit "SELL", lit "LONG", lit "SHORT", lit "BOUGHT", lit "SOLD", lit "SL",
      seqs [lit "TP", star digit], lit "ENTRY"] := by
    simp only [sides, List.mem_cons, List.not_mem_nil, or_false] at hw
    rcases hw with rfl | rfl | rfl | rfl <;> simp
  have hmatch : _ ∈ run detailsPattern d := mem_run_seqs_cons.2 ⟨_, mem_run_boundary.2 ⟨hb, rfl⟩, _, mem_run_seqs_cons.2
    ⟨_, mem_run_alts.2 ⟨lit w, hdetail, mem_run_lit.2 ⟨rest, hrest, rfl⟩⟩, _, mem_run_seqs_cons.2
      ⟨_, mem_run_boundary.2 ⟨hb', rfl⟩, _, mem_run_seqs_nil.2 rfl, rfl⟩, rfl⟩, rfl⟩
  exact List.ne_nil_of_mem hmatch (find?_eq_none.1 hnone d hd)

/-! ## What an opening states -/

/-- What an opening states is in the text: one side, one symbol, none of the phrases that take a
signal back, and the numerals its prices are read from. -/
theorem opening_states [LawfulDigits] (h : deterministicParse text = some action) (hopens : action.action.isOpen) :
    (∃ side, action.direction = some side ∧ NamesSide (compact text) side) ∧
    (∃ symbol, action.symbol = some symbol ∧ symbols (compact text) = [symbol]) ∧
    (search hedgedPattern (upper (compact text)) = none ∧ search statusPattern (upper (compact text)) = none ∧
      search contextPattern (upper (compact text)) = none) ∧
    (∀ price ∈ action.stopLoss, IsRead text.toList price) ∧
    (∀ price ∈ action.entryHigh, IsRead text.toList price) ∧
    (search indexPattern (compact text) = none → ∀ price ∈ action.takeProfits, IsRead text.toList price) ∧
    ((∀ f ∈ findAll levelPattern (compact text), goesOn f.after.rest = false) →
      (entry (compact text) false).isSome ∨ search digitWordPattern (compact text) = none →
      ∀ price ∈ action.entry, IsRead text.toList price) := by
  obtain ⟨⟨hhedged, hstatus, hcontext⟩, hlevels⟩ := opening_of_parse h hopens
  obtain ⟨f, symbol, hf, hsymbols, hone, hopening⟩ := opening_of_levels hlevels hopens
  obtain ⟨hsymbol, hdirection, hstop, htargets, hhigh, pending, hentry⟩ := parts_of_opening hopening
  refine ⟨⟨_, hdirection, namesSide_of_found hf hone⟩, ⟨symbol, hsymbol, hsymbols⟩,
    ⟨hhedged, hstatus, hcontext.resolve_right (details_of_found hf)⟩, fun price hprice => ?_, fun price hprice => ?_,
    fun hindex price hprice => ?_, fun hends hword price hprice => ?_⟩ <;> apply read_of_compact
  · rw [hstop] at hprice
    exact read_stopLoss hprice
  · rw [hhigh] at hprice
    exact read_entryRange (.inr hprice)
  · rw [htargets] at hprice
    exact read_takeProfits hindex hprice
  · rw [hentry, Option.mem_def, Option.or_eq_some_iff] at hprice
    rcases hprice with hlow | ⟨-, hprice⟩
    · exact read_entryRange (.inl hlow)
    · exact read_entry hends hword hprice

end

theorem lawfulDigits_ascii : @LawfulDigits Unicode.ascii := by
  let _ := Unicode.ascii
  refine { isAlnum_of_decimal := ?_, decimal_of_sameCase := ?_, decimal_dash := by decide }
  · intro x hx
    have hdigit : x.isDigit := by
      by_contra hx'
      simp [Unicode.decimal, asciiDecimal, hx'] at hx
    show (x.isAlpha || x.isDigit) = true
    rw [hdigit, Bool.or_true]
  · intro x y hx hy
    have hsame : x.toLower = y.toLower := of_decide_eq_true hy
    have hletter : x.toLower.isDigit = false :=
      ascii_induction (P := fun x => x.isAlpha → x.toLower.isDigit = false) (by decide +kernel) (lt_of_isAlpha hx) hx
    have hy : y.isDigit = false := by
      by_contra hy
      rw [Bool.not_eq_false] at hy
      have hascii : y.toNat < 128 := Nat.lt_of_le_of_lt (Char.isDigit_iff_toNat.mp hy).2 (by decide)
      have hdigit : y.toLower.isDigit :=
        ascii_induction (P := fun y => y.isDigit → y.toLower.isDigit) (by decide +kernel) hascii hy
      rw [hsame, hdigit] at hletter
      cases hletter
    simp [Unicode.decimal, asciiDecimal, hy]

def goldLimit : String := "BUY LIMIT gold\n@  2,400.50 - SL: 2390\n TP1 2,420.5 tp2: 2430"

theorem opening_states_goldLimit :
    let _ := Unicode.ascii
    NamesSide (compact goldLimit) .buy ∧ IsRead goldLimit.toList ⟨false, 240050, -2⟩ ∧ IsRead goldLimit.toList 2390 ∧
      IsRead goldLimit.toList ⟨false, 24205, -1⟩ ∧ IsRead goldLimit.toList 2430 := by
  let _ := Unicode.ascii
  have hparse : deterministicParse goldLimit = some
      { action := .place_pending, symbol := some "XAUUSD", direction := some .buy, orderType := some "limit"
        entry := some ⟨false, 240050, -2⟩, stopLoss := some 2390, takeProfits := [⟨false, 24205, -1⟩, 2430], confidence := 1 } := by
    decide +kernel
  obtain ⟨⟨side, hside, hnames⟩, -, -, hstop, -, htargets, hentry⟩ := @opening_states _ _ _ lawfulDigits_ascii hparse rfl
  cases hside
  have hindex : search indexPattern (compact goldLimit) = none := by decide +kernel
  have hends : ∀ f ∈ findAll levelPattern (compact goldLimit), goesOn f.after.rest = false := by decide +kernel
  have hlabel : (entry (compact goldLimit) false).isSome := by decide +kernel
  exact ⟨hnames, hentry hends (.inl hlabel) _ rfl, hstop _ rfl, htargets hindex _ (by simp), htargets hindex _ (by simp)⟩

/-- A numeral has no sign. -/
theorem decimal_nonneg [Unicode] {n : List Char} {value : Decimal} (hn : isNumeralText n) (h : decimal n = some value) :
    0 ≤ value.toRat := by
  obtain ⟨x, u, rfl, hx⟩ := isNumeralText_cons hn
  have hsign : x ≠ '-' ∧ x ≠ '+' := by
    refine ⟨?_, ?_⟩ <;> rintro rfl
    · rw [decimal_sign.1] at hx
      cases hx
    · rw [decimal_sign.2] at hx
      cases hx
  have hcomma : x ≠ ',' := by
    rintro rfl
    rw [decimal_separator ',' rfl] at hx
    cases hx
  have hnegative : value.negative = false := by
    unfold decimal at h
    rw [List.filter_cons_of_pos (by simpa using hcomma)] at h
    dsimp only at h
    split at h
    · next he => exact absurd (List.cons.inj he).1 hsign.1
    · next he => exact absurd (List.cons.inj he).1 hsign.2
    · split at h
      · cases h
      · obtain ⟨ds, -, rfl⟩ := Option.map_eq_some_iff.mp h
        rfl
  have hmagnitude : 0 ≤ value.magnitude := by
    unfold Decimal.magnitude
    split <;> positivity
  rwa [Decimal.toRat, hnegative, if_neg Bool.false_ne_true]

/-- The sign before a numeral is read too. -/
theorem opening_signed :
    let _ := Unicode.ascii
    ∃ action, deterministicParse "BUY EURUSD SL -1 TP 1.1000" = some action ∧ action.action.isOpen ∧ ∃ price ∈ action.stopLoss,
      ∀ front n post value, Stands "BUY EURUSD SL -1 TP 1.1000".toList front n post → decimal n = some value → value.toRat ≠ price.toRat := by
  let _ := Unicode.ascii
  refine ⟨{ action := .open_market, symbol := some "EURUSD", direction := some .buy, stopLoss := some ⟨true, 1, 0⟩
            takeProfits := [⟨false, 11000, -4⟩], confidence := 1 }, by decide +kernel, rfl, _, rfl, fun front n post value hn hvalue heq => ?_⟩
  have hnonneg := decimal_nonneg hn.numeral hvalue
  rw [heq] at hnonneg
  exact absurd hnonneg (by decide +kernel)

end Parser

end SignalSync
