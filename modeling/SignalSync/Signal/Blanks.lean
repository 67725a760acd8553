import SignalSync.Signal.Prices
import SignalSync.Signal.Rendering

/-!
# Texts with parts blanked out

The at-price is searched in the text without its levels, and all prices in the text with its
white space reduced. What is read there is read from a numeral of the text itself.

* `Blanked.stands`: a numeral of the blanked text is one of the text;
* `blanked_sub`, `blanked_words`: what a substitution and `split` blank out.
-/

namespace SignalSync

open Library Regex

namespace Parser

section

variable [Unicode]

/-- Parts of the text that begin and end outside of a numeral are replaced by blanks. -/
inductive Blanked : List Char → List Char → Prop
  | done (t : List Char) : Blanked t t
  | part (s : List Char) {m v v' : List Char} : m.head?.any isOutside → goesOn v = false ∨ m.getLast?.any isOutside → Blanked v v' →
      Blanked (s ++ (m ++ v)) (s ++ ' ' :: v')

variable {t t' s u v m front n post : List Char} {price : Decimal}

/-! ## Numerals -/

theorem goesOn_left (h : goesOn (u ++ v) = false) : goesOn u = false := by
  match u with
  | [] => rfl
  | [x] =>
    rw [List.singleton_append, goesOn, Bool.or_eq_false_iff] at h
    rw [goesOn, h.1]
    simp
  | x :: y :: u => exact h

/-- A numeral does not go on past what is outside. -/
theorem goesOn_outside (hu : goesOn u = false) (hm : m.head?.any isOutside) : goesOn (u ++ (m ++ v)) = false := by
  cases m with
  | nil => cases hm
  | cons z m =>
    have hz : isDecimal z = false ∧ isSeparator z = false := by simpa [isOutside] using hm
    obtain _ | ⟨x, _ | ⟨y, u⟩⟩ := u
    · simp [goesOn, hz]
    · have hx : isDecimal x = false := by simpa [goesOn] using hu
      simp [goesOn, hx, hz.1]
    · exact hu

omit [Unicode] in
/-- A part without blanks is before a blank, or after it. -/
theorem append_blank (hu : u ≠ []) (hblank : ' ' ∉ u) (h : s ++ ' ' :: v = front ++ (u ++ post)) :
    (∃ a, s = front ++ (u ++ a) ∧ post = a ++ ' ' :: v) ∨ ∃ f, front = s ++ ' ' :: f ∧ v = f ++ (u ++ post) := by
  rcases List.append_eq_append_iff.mp h with ⟨a, rfl, ha⟩ | ⟨c, rfl, hc⟩
  · cases a with
    | nil =>
      obtain ⟨x, u, rfl⟩ := List.exists_cons_of_ne_nil hu
      obtain ⟨rfl, -⟩ := List.cons.inj ha
      exact absurd List.mem_cons_self hblank
    | cons y f =>
      obtain ⟨rfl, hv⟩ := List.cons.inj ha
      exact .inr ⟨f, rfl, hv⟩
  · rcases List.append_eq_append_iff.mp hc with ⟨a, rfl, ha⟩ | ⟨b, rfl, hb⟩
    · exact .inl ⟨a, rfl, ha⟩
    · cases b with
      | nil => exact .inl ⟨[], by simp, by simpa using hb.symm⟩
      | cons y b =>
        obtain ⟨rfl, -⟩ := List.cons.inj hb
        exact absurd (by simp) hblank

/-- Where nothing goes on here, the numeral that is behind at most one character begins. -/
theorem goesOn_behind (hv : goesOn (u ++ (n ++ post)) = false) (hn : isNumeralText n) (hu : goesOn u.reverse = false) :
    goesOn (u.reverse ++ v) = false := by
  obtain ⟨z, n, rfl, hz⟩ := isNumeralText_cons hn
  cases hrev : u.reverse with
  | nil =>
    obtain rfl : u = [] := List.reverse_eq_nil_iff.mp hrev
    simp [goesOn, hz] at hv
  | cons x w =>
    rw [hrev] at hu
    cases w with
    | nil =>
      obtain rfl : u = [x] := by simpa using congrArg List.reverse hrev
      have hx : isDecimal x = false ∧ isSeparator x = false := by simpa [goesOn, hz] using hv
      simp [goesOn, hx]
    | cons y w => exact hu

theorem not_word_blank : Unicode.isWord ' ' = false := by
  rw [Unicode.isWord, Unicode.isAlnum_ascii (by decide)]
  rfl

/-- A numeral of the blanked text is one of the text, with what is before it up to a blank. -/
theorem Blanked.stands {sp : List Char} (h : Blanked t t') (hsp : ' ' ∉ sp) (hn : Stands t' (front ++ sp) n post) :
    ∃ front₀ post₀, Stands t (front₀ ++ sp) n post₀ ∧ (post₀.head?.any Unicode.isWord = false → post.head?.any Unicode.isWord = false) := by
  induction h generalizing front post with
  | done => exact ⟨front, post, hn, id⟩
  | @part s m v v' hm hv _ ih =>
    obtain ⟨x, n', hcons, -⟩ := isNumeralText_cons hn.numeral
    have hblank : ' ' ∉ sp ++ n := by
      refine fun hmem => (List.mem_append.mp hmem).elim hsp fun hmem => ?_
      have hout : isOutside ' ' := outside_ascii (by decide)
      have hin := mem_numeral hn.numeral hmem
      simp only [isOutside, Bool.and_eq_true, Bool.not_eq_true'] at hout
      simp [hout] at hin
    have htext : s ++ ' ' :: v' = front ++ ((sp ++ n) ++ post) := by simpa using hn.text
    rcases append_blank (by simp [hcons]) hblank htext with ⟨a, rfl, rfl⟩ | ⟨f, rfl, rfl⟩
    · refine ⟨front, a ++ (m ++ v), ⟨by simp, hn.numeral, hn.starts, goesOn_outside (goesOn_left hn.ends) hm⟩, ?_⟩
      cases a with
      | nil => exact fun _ => not_word_blank
      | cons y a => exact id
    · have hstarts : goesOn (f ++ sp).reverse = false := by
        refine goesOn_left (v := ' ' :: s.reverse) ?_
        simpa using hn.starts
      obtain ⟨f₀, post₀, hstands, hword⟩ := ih ⟨by simp, hn.numeral, hstarts, hn.ends⟩
      refine ⟨s ++ (m ++ f₀), post₀, ⟨by simp [hstands.text], hn.numeral, ?_, hstands.ends⟩, hword⟩
      rw [show (s ++ (m ++ f₀) ++ sp).reverse = (f₀ ++ sp).reverse ++ (m.reverse ++ s.reverse) by simp]
      rcases hv with hv | hm
      · rw [hstands.text] at hv
        exact goesOn_behind hv hn.numeral hstands.starts
      · exact goesOn_outside hstands.starts (by rwa [List.head?_reverse])

/-- What is read in the blanked text is read in the text. -/
theorem Blanked.read (h : Blanked t t') (hread : IsRead t' price) : IsRead t price := by
  obtain ⟨front, sgn, point, k, w, post, hstands, hk, hsgn, hpoint, hprice, hwhole⟩ := hread
  have hblank : ' ' ∉ sgn ++ point := by
    rcases hsgn with rfl | rfl | rfl <;> rcases hpoint with rfl | rfl <;> simp
  obtain ⟨front₀, post₀, hstands₀, hword⟩ := h.stands hblank hstands
  exact ⟨front₀, sgn, point, k, w, post₀, hstands₀, hk, hsgn, hpoint, hprice, fun hlegible =>
    hwhole ⟨hlegible.1, fun hseparator => hword (hlegible.2 hseparator)⟩⟩

/-! ## What is blanked out -/

/-- A substitution of blanks for matches that begin and end outside of a numeral. -/
theorem blanked_subFrom {r : Regex} (hr : r.Progress) (henters : Enters r isOutside) {b : Option Char}
    (hends : ∀ f ∈ findAllFrom r t.length ⟨b, t⟩, goesOn f.after.rest = false) : Blanked t (subFrom r [' '] ⟨b, t⟩) := by
  induction hn : t.length using Nat.strong_induction_on generalizing b t with
  | _ k ih =>
    subst hn
    rw [findAllFrom_eq hr] at hends
    rw [subFrom_eq hr]
    cases hf : find? r b t with
    | none => exact .done t
    | some f =>
      rw [hf] at hends
      obtain ⟨hend, hrest⟩ := List.forall_mem_cons.mp hends
      have hlt := after_lt_of_find? hr hf
      obtain ⟨u, rfl, hfirst⟩ := first_of_find? hf
      have hmem := List.mem_of_mem_head? hfirst
      have hhead := henters _ _ hmem
      have hpos : f.after.rest.length < u.length := hr _ _ hmem
      have hread : u = between ⟨lastOr f.skipped b, u⟩ f.after ++ f.after.rest := (later_of_run hmem).between
      generalize between ⟨lastOr f.skipped b, u⟩ f.after = w at hread
      subst hread
      have hw : w.head?.any isOutside := by
        cases w with
        | nil => exact absurd hpos (lt_irrefl _)
        | cons x w => exact hhead
      have hblanked : Blanked f.after.rest (subFrom r [' '] ⟨f.after.before, f.after.rest⟩) := ih _ hlt hrest rfl
      exact .part f.skipped hw (.inl hend) hblanked

variable [LawfulDigits]

theorem enters_level : Enters levelPattern isOutside := by
  have hword {w : String} (hw : w.toList ≠ [] ∧ ∀ x ∈ w.toList, x.isAlpha) : Enters (litI w) isOutside :=
    enters_litI hw.1 fun y hy _ h => outside_sameCase (hw.2 y hy) h
  refine .seq_left (.alts ?_)
  simp only [takeProfitLabels, List.cons_append, List.nil_append, List.forall_mem_cons]
  exact ⟨.boundary_seq (.seq_left (hword (by decide))), .boundary_seq (.seq_left (hword (by decide))),
    .boundary_seq (.seq_left (hword (by decide))), .boundary_seq (.seq_left (hword (by decide))), List.forall_mem_nil _⟩

/-- The entry is read in the text, if no level ends inside of a numeral and, where it has no label,
no word behind the kind of the order has a digit. -/
theorem read_entry {pending : Bool} (hlevels : ∀ f ∈ findAll levelPattern t, goesOn f.after.rest = false)
    (hword : (entry t false).isSome ∨ search digitWordPattern t = none) (h : entry t pending = some price) : IsRead t price := by
  unfold entry at h hword
  rw [Option.or_eq_some_iff, Option.or_eq_some_iff] at h
  rcases h with (hrange | ⟨-, hlabel⟩) | ⟨hnone, h⟩
  · exact read_entryRange (.inl hrange)
  · exact read_labelledNumber rfl (leaves_word (by decide)) hlabel
  · rw [hnone, Option.none_or] at hword
    dsimp only at h hword
    split at h
    · next f hf =>
      obtain ⟨d, hd, hfirst⟩ := first_of_search (r := atPattern) hf
      exact (blanked_subFrom progress_level enters_level hlevels).read ((first_at hd hfirst).read h)
    · next hat =>
      split at h
      · obtain ⟨f, hf, hprice⟩ := Option.bind_eq_some_iff.mp h
        obtain ⟨d, hd, hfirst⟩ := first_of_search (r := pendingPattern) hf
        rcases hword with hword | hword
        · rw [hat] at hword
          cases hword
        · exact (first_pending hword hd hfirst).read hprice
      · cases h

/-! ## White space -/

omit [LawfulDigits] in
/-- What is read in a part of the text is read in the text, if nothing of a numeral is around it. -/
theorem IsRead.append (h : IsRead t price) (hu : ∀ x ∈ u, isOutside x) (hv : ∀ x ∈ v, isOutside x) : IsRead (u ++ (t ++ v)) price := by
  obtain ⟨front, sgn, point, k, w, post, hstands, hk, hsgn, hpoint, hprice, hwhole⟩ := h
  have hstarts : goesOn (u ++ front ++ (sgn ++ point)).reverse = false := by
    rw [show (u ++ front ++ (sgn ++ point)).reverse = (front ++ (sgn ++ point)).reverse ++ (u.reverse ++ []) by simp]
    cases hrev : u.reverse with
    | nil =>
      rw [List.append_nil, List.append_nil]
      exact hstands.starts
    | cons x w => exact goesOn_outside hstands.starts (hu x (by rw [← List.mem_reverse, hrev]; exact List.mem_cons_self))
  have hends : goesOn (post ++ v) = false := by
    cases v with
    | nil =>
      rw [List.append_nil]
      exact hstands.ends
    | cons x v =>
      have hend := goesOn_outside (m := [x]) (v := v) hstands.ends (hv x List.mem_cons_self)
      exact hend
  refine ⟨u ++ front, sgn, point, k, w, post ++ v, ⟨by simp [hstands.text], hstands.numeral, hstarts, hends⟩, hk, hsgn, hpoint, hprice,
    fun hlegible => hwhole ⟨hlegible.1, fun hseparator => ?_⟩⟩
  cases post with
  | nil => rfl
  | cons x post => exact hlegible.2 hseparator

omit [Unicode] [LawfulDigits] in
theorem exists_span (p : Char → Bool) (t : List Char) : ∃ u v, t = u ++ v ∧ (∀ x ∈ u, p x) ∧ v.head?.any p = false := by
  refine ⟨t.takeWhile p, t.dropWhile p, List.takeWhile_append_dropWhile.symm, fun x hx => List.mem_takeWhile_imp hx, ?_⟩
  have hhead := List.head?_dropWhile_not p t
  cases h : (t.dropWhile p).head? with
  | none => rfl
  | some x => simpa [h] using hhead

omit [LawfulDigits] in
/-- A text with no white space around it is a word, or one with a gap and another such text. -/
theorem exists_word (hne : t ≠ []) (hhead : t.head?.any Unicode.isSpace = false) (hlast : t.getLast?.any Unicode.isSpace = false) :
    ∃ word, word ≠ [] ∧ (∀ x ∈ word, Unicode.isSpace x = false) ∧
      (t = word ∨ ∃ gap l, t = word ++ (gap ++ l) ∧ gap ≠ [] ∧ (∀ x ∈ gap, Unicode.isSpace x) ∧ l ≠ [] ∧
        l.head?.any Unicode.isSpace = false ∧ l.getLast?.any Unicode.isSpace = false) := by
  obtain ⟨word, rest, rfl, hword, hrest⟩ := exists_span (!Unicode.isSpace ·) t
  refine ⟨word, ?_, fun x hx => by simpa using hword x hx, ?_⟩
  · rintro rfl
    obtain ⟨x, r, rfl⟩ := List.exists_cons_of_ne_nil hne
    have hspace : Unicode.isSpace x = true := by simpa using hrest
    have hno : Unicode.isSpace x = false := hhead
    simp [hspace] at hno
  cases rest with
  | nil => exact .inl (List.append_nil _)
  | cons x r =>
    have hx : Unicode.isSpace x := by simpa using hrest
    obtain ⟨gap, l, hr, hgap, hl⟩ := exists_span Unicode.isSpace (x :: r)
    have hgapne : gap ≠ [] := by
      rintro rfl
      rw [List.nil_append] at hr
      rw [← hr] at hl
      have hno : Unicode.isSpace x = false := hl
      simp [hx] at hno
    rw [hr, List.getLast?_append_of_ne_nil _ (by simp [hgapne])] at hlast
    have hlne : l ≠ [] := by
      rintro rfl
      rw [List.append_nil, List.getLast?_eq_some_getLast hgapne] at hlast
      have hspace := hgap _ (List.getLast_mem hgapne)
      have hno : Unicode.isSpace (gap.getLast hgapne) = false := hlast
      simp [hspace] at hno
    rw [List.getLast?_append_of_ne_nil _ hlne] at hlast
    exact .inr ⟨gap, l, by rw [hr], hgapne, hgap, hlne, hl, hlast⟩

/-- The white space between the words is blanked out. -/
theorem blanked_words (hne : t ≠ []) (hhead : t.head?.any Unicode.isSpace = false) (hlast : t.getLast?.any Unicode.isSpace = false) :
    (t.splitOnP Unicode.isSpace).filter (· ≠ []) ≠ [] ∧
      Blanked t (List.intercalate [' '] ((t.splitOnP Unicode.isSpace).filter (· ≠ []))) := by
  induction hn : t.length using Nat.strong_induction_on generalizing t with
  | _ k ih =>
    subst hn
    obtain ⟨word, hword, hletters, rfl | ⟨gap, l, rfl, hgap, hspaces, hl, hlhead, hllast⟩⟩ := exists_word hne hhead hlast
    · have hone : [t].filter (· ≠ []) = [t] := by simp [hword]
      rw [List.splitOnP_eq_singleton hletters, hone, intercalate_cons, List.map_nil, List.flatten_nil, List.append_nil]
      exact ⟨List.cons_ne_nil _ _, .done t⟩
    · have hone : [word].filter (· ≠ []) = [word] := by simp [hword]
      have hpos := List.length_pos_iff.mpr hword
      have hlen : l.length < (word ++ (gap ++ l)).length := by
        rw [List.length_append, List.length_append]
        omega
      obtain ⟨hwords, hblanked⟩ := ih _ hlen hl hlhead hllast rfl
      rw [splitOnP_gap hspaces hletters hgap, hone]
      refine ⟨List.cons_ne_nil _ _, ?_⟩
      obtain ⟨next, others, hcons⟩ := List.exists_cons_of_ne_nil hwords
      rw [hcons] at hblanked ⊢
      rw [List.singleton_append, List.intercalate_cons_cons, List.append_assoc]
      obtain ⟨x, gap, rfl⟩ := List.exists_cons_of_ne_nil hgap
      refine .part word (outside_space (hspaces x List.mem_cons_self)) (.inr ?_) hblanked
      rw [List.getLast?_eq_some_getLast hgap]
      exact outside_space (hspaces _ (List.getLast_mem hgap))

/-- What is read in the text with its white space reduced is read in the text. -/
theorem read_of_compact {text : String} (h : IsRead (compact text) price) : IsRead text.toList price := by
  set trimmed := (text.toList.dropWhile Unicode.isSpace).rdropWhile Unicode.isSpace with htrimmed
  have hblanked : Blanked trimmed (compact text) := by
    rw [compact, Unicode.strip_eq, String.toList_ofList, ← htrimmed]
    by_cases hne : trimmed = []
    · rw [hne]
      exact .done []
    · refine (blanked_words hne ?_ ?_).2
      · obtain ⟨w, hw⟩ := List.rdropWhile_prefix Unicode.isSpace (l := text.toList.dropWhile Unicode.isSpace)
        have hhead := List.head?_dropWhile_not Unicode.isSpace text.toList
        rw [← hw, ← htrimmed] at hhead
        obtain ⟨x, u, hcons⟩ := List.exists_cons_of_ne_nil hne
        rw [hcons] at hhead ⊢
        simpa using hhead
      · have hlast := List.rdropWhile_last_not Unicode.isSpace _ hne
        rw [List.getLast?_eq_some_getLast hne]
        simpa using hlast
  have htext : text.toList = text.toList.takeWhile Unicode.isSpace ++
      (trimmed ++ (text.toList.dropWhile Unicode.isSpace).rtakeWhile Unicode.isSpace) := by
    rw [htrimmed, List.rdropWhile_append_rtakeWhile, List.takeWhile_append_dropWhile]
  rw [htext]
  exact (hblanked.read h).append (fun x hx => outside_space (List.mem_takeWhile_imp hx))
    fun x hx => outside_space (List.mem_rtakeWhile_imp hx)

end

end Parser

end SignalSync
