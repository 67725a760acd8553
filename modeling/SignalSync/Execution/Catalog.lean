import SignalSync.Execution.Symbols
import SignalSync.Library.Grid
import SignalSync.Library.Least

/-!
# What is chosen from a broker's catalog

The volume that is ordered for a requested one, and the symbol that is meant by a name.

* `normalizeVolume_spec`: the volume is the greatest step that is allowed and not asked too much;
* `resolveSymbol_eq`: of the tradable symbols that extend the name, one is closer than all others;
* `resolveSymbol_spec`: the choice does not depend on the order, nor on symbols that cannot be
  traded.
-/

namespace SignalSync

open Library

/-! ## Volumes -/

section

variable {symbol : BrokerSymbol} {volume : ℚ}

/-- With a minimum on the grid the last clamp does nothing. -/
theorem normalizeVolume_eq (hgrid : OnGrid symbol.volumeStep symbol.minVolume) (hle : symbol.minVolume ≤ symbol.maxVolume)
    (volume : ℚ) :
    normalizeVolume volume symbol = floorTo symbol.volumeStep (min (max volume symbol.minVolume) symbol.maxVolume) := by
  obtain ⟨⟨-, hmin, hmax, -⟩, -⟩ := isGreatest_floorTo_clamp symbol.volumeStep_pos hgrid hle volume
  show max _ (min (floorTo _ _) _) = _
  rw [min_eq_left hmax, max_eq_right hmin]

theorem normalizeVolume_mono {volume' : ℚ} (symbol : BrokerSymbol) (h : volume ≤ volume') :
    normalizeVolume volume symbol ≤ normalizeVolume volume' symbol := by
  have hbounded : min (max volume symbol.minVolume) symbol.maxVolume ≤ min (max volume' symbol.minVolume) symbol.maxVolume :=
    min_le_min_right _ (max_le_max_right _ h)
  exact max_le_max_left _ (min_le_min_right _ (floorTo_mono symbol.volumeStep_pos hbounded))

/-- **Volumes.** For a broker whose minimum is a multiple of its step, and no more than its
maximum: the volume is a multiple of the step between the two, the greatest such that is not above
the requested volume or the minimum; it is monotone in the request, and a volume once normalized
stays. -/
theorem normalizeVolume_spec (symbol : BrokerSymbol) (hgrid : OnGrid symbol.volumeStep symbol.minVolume)
    (hle : symbol.minVolume ≤ symbol.maxVolume) :
    (∀ volume, OnGrid symbol.volumeStep (normalizeVolume volume symbol) ∧
        symbol.minVolume ≤ normalizeVolume volume symbol ∧ normalizeVolume volume symbol ≤ symbol.maxVolume ∧
        IsGreatest {v | OnGrid symbol.volumeStep v ∧ symbol.minVolume ≤ v ∧ v ≤ symbol.maxVolume ∧ v ≤ max volume symbol.minVolume}
          (normalizeVolume volume symbol) ∧
        normalizeVolume (normalizeVolume volume symbol) symbol = normalizeVolume volume symbol) ∧
      Monotone (normalizeVolume · symbol) := by
  refine ⟨fun volume => ?_, fun _ _ h => normalizeVolume_mono symbol h⟩
  have hgreatest := isGreatest_floorTo_clamp symbol.volumeStep_pos hgrid hle volume
  rw [← normalizeVolume_eq hgrid hle] at hgreatest
  obtain ⟨hon, hmin, hmax, -⟩ := hgreatest.1
  refine ⟨hon, hmin, hmax, hgreatest, ?_⟩
  rw [normalizeVolume_eq hgrid hle, max_eq_left hmin, min_eq_left hmax]
  exact floorTo_of_onGrid symbol.volumeStep_pos hon

end

/-- A broker whose maximum is not a multiple of its step. -/
def oddMaximum : BrokerSymbol where
  name := "XAUUSD"
  tradeMode := .code 4
  minVolume := 1 / 100
  maxVolume := 1005 / 1000
  volumeStep := 1 / 100
  point := 1 / 100
  minVolume_pos := hundredth_lot_pos
  volumeStep_pos := hundredth_lot_pos

/-- The most that is ordered of it is the last step below the maximum. -/
theorem normalizeVolume_spec_oddMaximum : normalizeVolume 5 oddMaximum = 1 ∧ Monotone (normalizeVolume · oddMaximum) := by
  have hspec := normalizeVolume_spec oddMaximum ⟨1, by norm_num [oddMaximum]⟩ (by norm_num [oddMaximum])
  exact ⟨by decide +kernel, hspec.2⟩

/-! ## Symbols -/

variable [Unicode]

open Symbols

/-- The length of the normal form. -/
def symbolSize (symbol : BrokerSymbol) : Nat := (normalizeSymbol symbol.name).length

/-- A tradable symbol whose normal form extends the requested one. -/
def extendsName (requested : String) (symbol : BrokerSymbol) : Bool :=
  tradable symbol && startsWith (normalizeSymbol symbol.name) (normalizeSymbol requested)

def isExact (requested : String) (symbol : BrokerSymbol) : Bool :=
  tradable symbol && normalizeSymbol symbol.name = normalizeSymbol requested

/-- The symbol is one of the catalog, and closer than all others that could be meant. -/
def IsClosest (requested : String) (symbols : List BrokerSymbol) (symbol : BrokerSymbol) : Prop :=
  ∃ before after, symbols = before ++ symbol :: after ∧ extendsName requested symbol ∧
    ∀ other ∈ before ++ after, extendsName requested other → symbolSize symbol < symbolSize other

section

variable {requested : String} {symbols symbols' : List BrokerSymbol} {symbol : BrokerSymbol}

theorem length_le_of_extendsName (h : extendsName requested symbol) : (normalizeSymbol requested).length ≤ symbolSize symbol := by
  have hprefix := (List.isPrefixOf_iff_prefix.mp (Bool.and_eq_true_iff.mp h).2).length_le
  rwa [String.length_toList, String.length_toList] at hprefix

/-- An extension that is no longer than the name is an exact match. -/
theorem isExact_iff : isExact requested symbol ↔ extendsName requested symbol ∧ symbolSize symbol ≤ (normalizeSymbol requested).length := by
  constructor
  · intro h
    obtain ⟨htradable, hexact⟩ := Bool.and_eq_true_iff.mp h
    rw [decide_eq_true_eq] at hexact
    refine ⟨Bool.and_eq_true_iff.mpr ⟨htradable, ?_⟩, (congrArg String.length hexact).le⟩
    rw [startsWith, hexact]
    exact List.isPrefixOf_iff_prefix.mpr (List.prefix_refl _)
  · rintro ⟨h, hle⟩
    obtain ⟨htradable, hstarts⟩ := Bool.and_eq_true_iff.mp h
    refine Bool.and_eq_true_iff.mpr ⟨htradable, decide_eq_true ?_⟩
    have hwithin := List.isPrefixOf_iff_prefix.mp hstarts
    refine String.toList_inj.mp (hwithin.eq_of_length_le ?_).symm
    rwa [String.length_toList, String.length_toList]

/-- Where a symbol matches exactly, the closest ones are those that do. -/
theorem least_eq_exact (h : (symbols.filter (isExact requested)) ≠ []) :
    least symbolSize (symbols.filter (extendsName requested)) = symbols.filter (isExact requested) := by
  obtain ⟨exact, hexact⟩ := List.exists_mem_of_ne_nil _ h
  obtain ⟨hmem, hmatches⟩ := List.mem_filter.mp hexact
  obtain ⟨hextends, hlength⟩ := isExact_iff.1 hmatches
  rw [least, List.filter_filter]
  refine List.filter_congr fun symbol _ => ?_
  rw [Bool.eq_iff_iff, Bool.and_eq_true, List.all_eq_true, isExact_iff]
  simp only [decide_eq_true_eq]
  constructor
  · rintro ⟨hle, hsymbol⟩
    exact ⟨hsymbol, (hle exact (List.mem_filter.mpr ⟨hmem, hextends⟩)).trans hlength⟩
  · rintro ⟨hsymbol, hle⟩
    exact ⟨fun other hother => hle.trans (length_le_of_extendsName (List.mem_filter.mp hother).2), hsymbol⟩

/-- The symbol that is resolved is the only closest one; which error there is else. -/
theorem resolveSymbol_eq (requested : String) (symbols : List BrokerSymbol) :
    resolveSymbol requested symbols =
      match least symbolSize (symbols.filter (extendsName requested)) with
      | [] => .error (.noMatch requested)
      | [symbol] => .ok symbol
      | closest => .error (if symbols.any (isExact requested) then .multipleExact requested
          else .ambiguous requested (closest.map (·.name))) := by
  have hexacts : (symbols.filter tradable).filter (fun symbol => normalizeSymbol symbol.name = normalizeSymbol requested) =
      symbols.filter (isExact requested) := by
    rw [List.filter_filter]
    exact List.filter_congr fun symbol _ => Bool.and_comm _ _
  have hextensions : (symbols.filter tradable).filter (fun symbol => startsWith (normalizeSymbol symbol.name) (normalizeSymbol requested)) =
      symbols.filter (extendsName requested) := by
    rw [List.filter_filter]
    exact List.filter_congr fun symbol _ => Bool.and_comm _ _
  rw [resolveSymbol, hexacts, hextensions]
  cases hexact : symbols.filter (isExact requested) with
  | cons symbol others =>
    have hany : symbols.any (isExact requested) = true := by
      have hmem : symbol ∈ symbols.filter (isExact requested) := hexact ▸ List.mem_cons_self
      exact List.any_eq_true.mpr ⟨symbol, List.mem_filter.mp hmem⟩
    rw [least_eq_exact (by rw [hexact]; exact List.cons_ne_nil _ _), hexact]
    cases others with
    | nil => rfl
    | cons other others =>
      dsimp only
      rw [if_pos hany]
  | nil =>
    have hany : symbols.any (isExact requested) = false := by
      rw [List.any_eq_false]
      exact List.filter_eq_nil_iff.mp hexact
    dsimp only
    cases hmin : (symbols.filter (extendsName requested)).argmin symbolSize with
    | none =>
      have hnone : (symbols.filter (extendsName requested)).argmin (fun symbol => (normalizeSymbol symbol.name).length) = none := hmin
      rw [hnone, List.argmin_eq_none.mp hmin]
      rfl
    | some shortest =>
      have hsome : (symbols.filter (extendsName requested)).argmin (fun symbol => (normalizeSymbol symbol.name).length) = some shortest := hmin
      rw [hsome, hany]
      have hmem : shortest ∈ least symbolSize (symbols.filter (extendsName requested)) := mem_least.2 (argmin_spec hmin)
      have hleast : ((symbols.filter (extendsName requested)).filter fun symbol =>
          decide ((normalizeSymbol symbol.name).length = (normalizeSymbol shortest.name).length)) =
          least symbolSize (symbols.filter (extendsName requested)) := by
        rw [least_eq_filter hmin]
        exact List.filter_congr fun symbol _ => decide_eq_decide.mpr Iff.rfl
      dsimp only
      rw [hleast]
      generalize least symbolSize (symbols.filter (extendsName requested)) = closest at hmem ⊢
      obtain _ | ⟨symbol, _ | ⟨other, others⟩⟩ := closest
      · cases hmem
      · rfl
      · rfl

theorem resolveSymbol_ok_iff : resolveSymbol requested symbols = .ok symbol ↔
    least symbolSize (symbols.filter (extendsName requested)) = [symbol] := by
  rw [resolveSymbol_eq]
  match least symbolSize (symbols.filter (extendsName requested)) with
  | [] => simp
  | [_] => simp
  | _ :: _ :: _ => simp

/-- The closest among the symbols that extend the name, in terms of the catalog. -/
theorem isClosest_iff : IsClosest requested symbols symbol ↔ least symbolSize (symbols.filter (extendsName requested)) = [symbol] := by
  rw [least_eq_singleton]
  constructor
  · rintro ⟨before, after, rfl, hextends, hlt⟩
    refine ⟨before.filter (extendsName requested), after.filter (extendsName requested), ?_, fun other hother => ?_⟩
    · rw [List.filter_append, List.filter_cons_of_pos hextends]
    · rw [← List.filter_append, List.mem_filter] at hother
      exact hlt other hother.1 hother.2
  · rintro ⟨l₁, l₂, heq, hlt⟩
    obtain ⟨before, rest, rfl, hbefore, hrest⟩ := List.filter_eq_append_iff.mp heq
    obtain ⟨skipped, after, rfl, hskipped, hextends, hafter⟩ := List.filter_eq_cons_iff.mp hrest
    refine ⟨before ++ skipped, after, by simp, hextends, fun other hother hother' => hlt other ?_⟩
    rw [← hbefore, ← hafter]
    simp only [List.append_assoc, List.mem_append, List.mem_filter] at hother ⊢
    rcases hother with hmem | hmem | hmem
    · exact .inl ⟨hmem, hother'⟩
    · exact absurd hother' (hskipped other hmem)
    · exact .inr ⟨hmem, hother'⟩

omit [Unicode] in
theorem mergeSort_names_of_perm {names names' : List String} (h : names.Perm names') :
    names.mergeSort (· ≤ ·) = names'.mergeSort (· ≤ ·) := by
  have htrans (a b c : String) (hab : decide (a ≤ b) = true) (hbc : decide (b ≤ c) = true) : decide (a ≤ c) = true :=
    decide_eq_true (String.le_trans (of_decide_eq_true hab) (of_decide_eq_true hbc))
  have htotal (a b : String) : (decide (a ≤ b) || decide (b ≤ a)) = true := by
    rcases String.le_total a b with h | h <;> simp [h]
  have hpairwise (l : List String) := List.pairwise_mergeSort htrans htotal l
  refine List.Perm.eq_of_pairwise (fun a b _ _ hab hba => ?_) (hpairwise names) (hpairwise names') ?_
  · exact String.le_antisymm (of_decide_eq_true hab) (of_decide_eq_true hba)
  · exact (List.mergeSort_perm _ _).trans (h.trans (List.mergeSort_perm _ _).symm)

omit [Unicode] in
/-- The text of an error depends on the names in their order only. -/
theorem message_ambiguous {names names' : List String} (h : names.Perm names') :
    (ResolveError.ambiguous requested names).message = (ResolveError.ambiguous requested names').message := by
  have hmessage (l : List String) : (ResolveError.ambiguous requested l).message =
      (fun sorted : List String => let joined := ", ".intercalate sorted; s!"Broker symbol mapping for {requested} is ambiguous: {joined}.")
        (l.mergeSort (· ≤ ·)) := by
    delta ResolveError.message
    rfl
  rw [hmessage, hmessage, mergeSort_names_of_perm h]

/-- The order of the catalog does not matter, to the symbol or to the text of the error. -/
theorem resolveSymbol_perm (h : symbols.Perm symbols') :
    (resolveSymbol requested symbols).mapError ResolveError.message = (resolveSymbol requested symbols').mapError ResolveError.message := by
  have hleast : (least symbolSize (symbols.filter (extendsName requested))).Perm
      (least symbolSize (symbols'.filter (extendsName requested))) := least_perm (h.filter _)
  rw [resolveSymbol_eq, resolveSymbol_eq, h.any_eq]
  generalize least symbolSize (symbols.filter (extendsName requested)) = closest at hleast ⊢
  generalize least symbolSize (symbols'.filter (extendsName requested)) = closest' at hleast ⊢
  match closest, closest', hleast with
  | [], closest', hperm =>
    rw [hperm.nil_eq]
  | [symbol], closest', hperm =>
    rw [List.singleton_perm.mp hperm]
  | _ :: _ :: _, [], hperm => exact absurd hperm.length_eq (by simp)
  | _ :: _ :: _, [_], hperm => exact absurd hperm.length_eq (by simp)
  | _ :: _ :: _, _ :: _ :: _, hperm =>
    dsimp only
    split
    · rfl
    · exact congrArg Except.error (message_ambiguous (hperm.map _))

theorem resolveSymbol_filter_tradable : resolveSymbol requested (symbols.filter tradable) = resolveSymbol requested symbols := by
  unfold resolveSymbol
  rw [List.filter_filter, List.filter_congr fun symbol _ => Bool.and_self _]

end

/-- **Symbols.** What is resolved is the one tradable symbol that extends the requested name and is
shorter than all others that do, an exact match where there is one. An error is raised exactly when
there is none. Neither depends on the order of the catalog, nor on symbols that cannot be traded. -/
theorem resolveSymbol_spec (requested : String) (symbols : List BrokerSymbol) :
    (∀ symbol, resolveSymbol requested symbols = .ok symbol ↔ IsClosest requested symbols symbol) ∧
      ((∃ e, resolveSymbol requested symbols = .error e) ↔ ¬ ∃ symbol, IsClosest requested symbols symbol) ∧
      (∀ symbol, resolveSymbol requested symbols = .ok symbol → (∃ other ∈ symbols, isExact requested other) →
        normalizeSymbol symbol.name = normalizeSymbol requested) ∧
      (∀ symbols', symbols.Perm symbols' → (resolveSymbol requested symbols').mapError ResolveError.message =
        (resolveSymbol requested symbols).mapError ResolveError.message) ∧
      ∀ symbols', symbols'.filter tradable = symbols.filter tradable → resolveSymbol requested symbols' = resolveSymbol requested symbols := by
  have hok (symbol : BrokerSymbol) : resolveSymbol requested symbols = .ok symbol ↔ IsClosest requested symbols symbol :=
    resolveSymbol_ok_iff.trans isClosest_iff.symm
  refine ⟨hok, ?_, fun symbol h ⟨other, hother, hexact⟩ => ?_, fun symbols' h => (resolveSymbol_perm h).symm, fun symbols' h => ?_⟩
  · constructor
    · rintro ⟨e, he⟩ ⟨symbol, hsymbol⟩
      rw [(hok symbol).2 hsymbol] at he
      cases he
    · intro hnone
      cases hresult : resolveSymbol requested symbols with
      | error e => exact ⟨e, rfl⟩
      | ok symbol => exact absurd ⟨symbol, (hok symbol).1 hresult⟩ hnone
  · have hmem : other ∈ symbols.filter (isExact requested) := List.mem_filter.mpr ⟨hother, hexact⟩
    have hleast := resolveSymbol_ok_iff.1 h
    rw [least_eq_exact (List.ne_nil_of_mem hmem)] at hleast
    have hsymbol : symbol ∈ symbols.filter (isExact requested) := hleast ▸ List.mem_singleton_self symbol
    simpa using (Bool.and_eq_true_iff.mp (List.mem_filter.mp hsymbol).2).2
  · rw [← resolveSymbol_filter_tradable, h, resolveSymbol_filter_tradable]

/-- Gold by its name and by a longer one. -/
def goldCatalog : List BrokerSymbol := [oddMaximum, { oddMaximum with name := "XAUUSD.m" }]

omit [Unicode] in
/-- A reversed catalog, and one with a symbol that is closed for trading. -/
theorem resolveSymbol_spec_goldCatalog :
    let _ := Unicode.ascii
    (resolveSymbol "gold" goldCatalog).toOption.map (·.name) = some "XAUUSD" ∧
      (resolveSymbol "gold" goldCatalog.reverse).mapError ResolveError.message =
        (resolveSymbol "gold" goldCatalog).mapError ResolveError.message ∧
      resolveSymbol "gold" ({ oddMaximum with tradeMode := .code 0 } :: goldCatalog) = resolveSymbol "gold" goldCatalog := by
  intro _
  obtain ⟨-, -, -, hperm, htradable⟩ := resolveSymbol_spec "gold" goldCatalog
  exact ⟨by decide +kernel, hperm _ (List.reverse_perm _).symm, htradable _ rfl⟩

end SignalSync
