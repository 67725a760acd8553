import Mathlib.Data.List.Dedup
import SignalSync.Signal.Handler

/-!
# Targets and their revisions

The messages and edits merged into a generation before its opening is submitted. Each merge
adds the targets of the update to those of the generation, as they are spelled; it does not
know which message or which revision of it a target came from.

* `mem_takeProfits`: a generation has every target that was ever stated in it;
* `replaced_iff`: it has those of the latest revisions, each once, exactly where no older
  revision stated another one and no number is spelled in two ways.
-/

namespace SignalSync

open Library

/-- A message or an edit with what is read from it. -/
abbrev MergedMessage := MessageEvent × Context

/-- The generation after the messages and edits are merged into it. -/
def generationAfter (start : RouteSignalAssembly) (history : List MergedMessage) : RouteSignalAssembly :=
  history.foldl (fun assembly (event, update) => mergeMessage event update assembly) start

/-- The latest revision of each message. -/
def latestRevisions : List MergedMessage → List MergedMessage
  | [] => []
  | e :: rest => if rest.any (·.1.messageId = e.1.messageId) then latestRevisions rest else e :: latestRevisions rest

def statedTargets (history : List MergedMessage) : List Decimal := history.flatMap fun e => e.2.takeProfits

/-- The targets that the latest revisions state, as numbers. -/
def latestTargets (history : List MergedMessage) : List ℚ := (statedTargets (latestRevisions history)).map Decimal.toRat

/-- A generation has the targets of the latest revisions, each once, and an opening that places
all of them one leg for each. -/
structure Replaced (start : RouteSignalAssembly) (history : List MergedMessage) : Prop where
  exact : ∀ q, q ∈ ((generationAfter start history).context.takeProfits.map Decimal.toRat) ↔ q ∈ latestTargets history
  distinct : ((generationAfter start history).context.takeProfits.map Decimal.toRat).Nodup
  legs : ∀ (action : SignalAction) (fixedLot : ℚ) (distribution : LotDistribution), action.isOpen →
    ((intentLegsForAction action fixedLot (generationAfter start history).context.takeProfits .all distribution).filterMap
      fun leg => leg.map fun leg => leg.takeProfit.toRat).Perm (latestTargets history).dedup

/-- The targets a generation started with, and those stated in it. -/
def allTargets (start : RouteSignalAssembly) (history : List MergedMessage) : List Decimal :=
  start.context.takeProfits ++ statedTargets history

/-! ## Merging -/

section

variable {start : RouteSignalAssembly} {history : List MergedMessage} {t : Decimal}

theorem nodup_eraseDups (l : List Decimal) : l.eraseDups.Nodup := by
  induction l using List.reverseRecOn with
  | nil => exact List.nodup_nil
  | append_singleton l a ih =>
    rw [List.eraseDups_append]
    by_cases ha : a ∈ l
    · have hnone : [a].removeAll l = [] := by simp [List.removeAll, ha]
      rw [hnone, List.eraseDups_nil, List.append_nil]
      exact ih
    · have hone : [a].removeAll l = [a] := by simp [List.removeAll, ha]
      rw [hone]
      refine List.Nodup.append ih (List.nodup_singleton a) (List.disjoint_singleton.mpr ?_)
      rwa [List.mem_eraseDups]

theorem generationAfter_concat (e : MergedMessage) :
    generationAfter start (history ++ [e]) = mergeMessage e.1 e.2 (generationAfter start history) := by
  simp [generationAfter]

theorem generationAfter_openingIntentId : (generationAfter start history).openingIntentId = start.openingIntentId := by
  induction history using List.reverseRecOn with
  | nil => rfl
  | append_singleton history e ih =>
    rw [generationAfter_concat]
    exact ih

theorem takeProfits_concat (h : start.openingIntentId = none) (e : MergedMessage) :
    (generationAfter start (history ++ [e])).context.takeProfits =
      if e.2.takeProfits.isEmpty then (generationAfter start history).context.takeProfits
      else ((generationAfter start history).context.takeProfits ++ e.2.takeProfits).eraseDups := by
  rw [generationAfter_concat, mergeMessage, generationAfter_openingIntentId.trans h]
  exact takeProfits_mergeGenerationContext _ _

theorem statedTargets_concat (e : MergedMessage) : statedTargets (history ++ [e]) = statedTargets history ++ e.2.takeProfits := by
  simp [statedTargets]

/-- Nothing that was stated is ever taken back. -/
theorem mem_takeProfits (h : start.openingIntentId = none) :
    t ∈ (generationAfter start history).context.takeProfits ↔ t ∈ allTargets start history := by
  induction history using List.reverseRecOn with
  | nil => simp [allTargets, statedTargets, generationAfter]
  | append_singleton history e ih =>
    rw [allTargets, List.mem_append] at ih ⊢
    rw [takeProfits_concat h, statedTargets_concat, List.mem_append, ← or_assoc, ← ih]
    split
    · rename_i hempty
      rw [List.isEmpty_iff.mp hempty]
      simp
    · rw [List.mem_eraseDups, List.mem_append]

/-- Once a target is stated in the generation, no spelling is there twice. -/
theorem nodup_takeProfits (history : List MergedMessage) (h : start.openingIntentId = none) :
    (statedTargets history = [] ∧ (generationAfter start history).context.takeProfits = start.context.takeProfits) ∨
      (generationAfter start history).context.takeProfits.Nodup := by
  induction history using List.reverseRecOn with
  | nil => exact .inl ⟨rfl, rfl⟩
  | append_singleton history e ih =>
    rw [takeProfits_concat h, statedTargets_concat]
    split
    · rename_i hempty
      rw [List.isEmpty_iff.mp hempty, List.append_nil]
      exact ih
    · exact .inr (nodup_eraseDups _)

theorem latestRevisions_subset : latestRevisions history ⊆ history := by
  induction history with
  | nil => exact List.Subset.refl _
  | cons first rest ih =>
    rw [latestRevisions]
    split
    · exact List.Subset.trans ih (List.subset_cons_self _ _)
    · exact List.cons_subset_cons _ ih

theorem mem_statedTargets {q : ℚ} (h : q ∈ latestTargets history) : ∃ t ∈ statedTargets history, t.toRat = q := by
  obtain ⟨t, ht, rfl⟩ := List.mem_map.mp h
  obtain ⟨e, he, hmem⟩ := List.mem_flatMap.mp ht
  exact ⟨t, List.mem_flatMap.mpr ⟨e, latestRevisions_subset he, hmem⟩, rfl⟩

/-! ## Legs -/

/-- An opening that places all targets has a leg for each. -/
theorem legs_takeProfits {action : SignalAction} (ha : action.isOpen) (fixedLot : ℚ) (takeProfits : List Decimal)
    (distribution : LotDistribution) :
    (intentLegsForAction action fixedLot takeProfits .all distribution).filterMap
      (fun leg => leg.map fun leg => leg.takeProfit.toRat) = takeProfits.map Decimal.toRat := by
  rw [intentLegsForAction, if_pos (SignalAction.isOpening_of_isOpen ha)]
  cases takeProfits with
  | nil => rfl
  | cons t rest => simp [buildTpLegs, List.filterMap_map, Function.comp_def]

/-! ## Where edits replace -/

/-- Targets are replaced exactly where all that were ever stated are targets of latest revisions, and
each number has one spelling. -/
theorem replaced_iff (h : start.openingIntentId = none) :
    Replaced start history ↔
      (∀ t ∈ allTargets start history, t.toRat ∈ latestTargets history) ∧
        ∀ t ∈ allTargets start history, ∀ u ∈ allTargets start history, t.toRat = u.toRat → t = u := by
  have hmem (q : ℚ) : q ∈ (generationAfter start history).context.takeProfits.map Decimal.toRat ↔
      ∃ t ∈ allTargets start history, t.toRat = q := by
    rw [List.mem_map]
    exact exists_congr fun t => and_congr_left fun _ => mem_takeProfits h
  constructor
  · intro hr
    refine ⟨fun t ht => (hr.exact t.toRat).mp ((hmem _).mpr ⟨t, ht, rfl⟩), fun t ht u hu heq => ?_⟩
    exact List.inj_on_of_nodup_map hr.distinct ((mem_takeProfits h).mpr ht) ((mem_takeProfits h).mpr hu) heq
  · rintro ⟨hlatest, hspelled⟩
    have hexact (q : ℚ) : q ∈ (generationAfter start history).context.takeProfits.map Decimal.toRat ↔ q ∈ latestTargets history := by
      rw [hmem]
      refine ⟨fun ⟨t, ht, heq⟩ => heq ▸ hlatest t ht, fun hq => ?_⟩
      obtain ⟨t, ht, heq⟩ := mem_statedTargets hq
      exact ⟨t, List.mem_append_right _ ht, heq⟩
    have hnodup : (generationAfter start history).context.takeProfits.Nodup := by
      rcases nodup_takeProfits history h with ⟨hnone, hstart⟩ | hnodup
      · -- a target it started with would have to be stated
        have hempty : start.context.takeProfits = [] := by
          refine List.eq_nil_iff_forall_not_mem.mpr fun t ht => ?_
          obtain ⟨u, hu, -⟩ := mem_statedTargets (hlatest t (List.mem_append_left _ ht))
          rw [hnone] at hu
          cases hu
        rw [hstart, hempty]
        exact List.nodup_nil
      · exact hnodup
    have hdistinct : ((generationAfter start history).context.takeProfits.map Decimal.toRat).Nodup :=
      hnodup.map_on fun t ht u hu heq => hspelled t ((mem_takeProfits h).mp ht) u ((mem_takeProfits h).mp hu) heq
    refine ⟨hexact, hdistinct, fun action fixedLot distribution ha => ?_⟩
    rw [legs_takeProfits ha]
    refine (List.perm_ext_iff_of_nodup hdistinct (List.nodup_dedup _)).mpr fun q => ?_
    rw [hexact, List.mem_dedup]

end

/-- A generation that starts with nothing. -/
def emptyGeneration : RouteSignalAssembly where
  conversationId := .conversation 0
  routeId := 4
  state := .assembling
  context := {}
  messageReferences := []
  generation := 1
  assemblyDeadline := seconds 190

/-- Two messages, each with a target of its own. -/
def twoTargets : List MergedMessage :=
  [(goldMessage, { takeProfits := [2350] }), ({ goldMessage with messageId := 12 }, { takeProfits := [2360] })]

theorem replaced_iff_twoTargets :
    emptyGeneration.openingIntentId = none ∧
      (Replaced emptyGeneration twoTargets ↔
        (∀ t ∈ allTargets emptyGeneration twoTargets, t.toRat ∈ latestTargets twoTargets) ∧
          ∀ t ∈ allTargets emptyGeneration twoTargets, ∀ u ∈ allTargets emptyGeneration twoTargets, t.toRat = u.toRat → t = u) :=
  ⟨rfl, replaced_iff rfl⟩

/-- A message with the target 2350, edited to the target 2360. -/
def editedTarget : List MergedMessage :=
  [(goldMessage, { takeProfits := [2350] }), ({ goldMessage with eventType := .edited }, { takeProfits := [2360] })]

/-- The same number in two spellings. -/
def respelledTarget : List MergedMessage :=
  [(goldMessage, { takeProfits := [2350] }), ({ goldMessage with messageId := 12 }, { takeProfits := [2350.0] })]

/-- The target before the edit stays, and a number spelled anew gets a second leg. -/
theorem edited_target_stays :
    (generationAfter emptyGeneration editedTarget).context.takeProfits = [2350, 2360] ∧
      latestTargets editedTarget = [2360] ∧ ¬ Replaced emptyGeneration editedTarget ∧
      (intentLegsForAction .open_market 1 (generationAfter emptyGeneration respelledTarget).context.takeProfits .all .fixed_each).map
        (fun leg => leg.map fun leg => leg.takeProfit.toRat) = [some 2350, some 2350] ∧
      ¬ Replaced emptyGeneration respelledTarget := by
  refine ⟨by decide +kernel, by decide +kernel, fun h => ?_, by decide +kernel, fun h => ?_⟩
  · have hstays := (h.exact 2350).mp (by decide +kernel)
    exact absurd hstays (by decide +kernel)
  · exact absurd h.distinct (by decide +kernel)

end SignalSync
