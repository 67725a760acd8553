import Mathlib.Data.Finset.Insert
import SignalSync.Library.Stated
import SignalSync.Signal.Generations

/-!
# Fragments of a signal

A signal can arrive in parts: an opening, and messages that add a stop loss or targets to it.
Until the opening is submitted, each part is merged into the generation as it comes.

* `get_mergedFragments`: a field holds the last value that was stated;
* `action_mergedFragments`: the action is the opening's, from the opening on;
* `fragments_anyOrder`: where the parts do not contradict each other, their order does not matter.
-/

namespace SignalSync

open Library

/-- The empty text states nothing. -/
def statedText (text : Option String) : Option String := text.filter (· ≠ "")

theorem mergeText_eq (current update : Option String) : mergeText current update = (statedText update).or current := by
  unfold mergeText statedText
  cases update with
  | none => rfl
  | some text =>
    by_cases h : text = ""
    · rw [h]
      rfl
    · rw [if_neg (by simpa using h), Option.filter_some, if_pos (by simpa using h)]
      rfl

theorem mergeField_eq {α : Type} (current update : Option α) : mergeField current update = update.or current := by
  cases update <;> rfl

/-- The fragments state the same, where both state something; actions, confidence and targets
apart. -/
structure AiAction.Compatible (f g : AiAction) : Prop where
  symbol : Agree (statedText f.symbol) (statedText g.symbol)
  direction : Agree f.direction g.direction
  orderType : Agree (statedText f.orderType) (statedText g.orderType)
  entry : Agree f.entry g.entry
  entryHigh : Agree f.entryHigh g.entryHigh
  stopLoss : Agree f.stopLoss g.stopLoss
  closeFraction : Agree f.closeFraction g.closeFraction
  explicitReference : Agree (statedText f.explicitReference) (statedText g.explicitReference)

instance (f g : AiAction) : Decidable (f.Compatible g) :=
  decidable_of_iff
    (Agree (statedText f.symbol) (statedText g.symbol) ∧ Agree f.direction g.direction ∧
      Agree (statedText f.orderType) (statedText g.orderType) ∧ Agree f.entry g.entry ∧ Agree f.entryHigh g.entryHigh ∧
      Agree f.stopLoss g.stopLoss ∧ Agree f.closeFraction g.closeFraction ∧
      Agree (statedText f.explicitReference) (statedText g.explicitReference))
    ⟨fun ⟨h₁, h₂, h₃, h₄, h₅, h₆, h₇, h₈⟩ => ⟨h₁, h₂, h₃, h₄, h₅, h₆, h₇, h₈⟩,
      fun h => ⟨h.symbol, h.direction, h.orderType, h.entry, h.entryHigh, h.stopLoss, h.closeFraction, h.explicitReference⟩⟩

/-- The generation after the fragments, before the opening is submitted. -/
def mergedFragments (start : Context) (l : List AiAction) : Context :=
  l.foldl (fun current fragment => mergeGenerationContext current fragment.modelDump false) start

/-- A field has the value that a fragment states, or what it had if none does. -/
def Settled {β : Type} (stated : AiAction → Option β) (fragments : Finset AiAction) (start merged : Option β) : Prop :=
  (∀ f ∈ fragments, ∀ b ∈ stated f, merged = some b) ∧ ((∀ f ∈ fragments, stated f = none) → merged = start)

/-- The generation that has the opening's action, each stated field its value, and all targets. -/
structure FragmentsMerged (start : Context) (fragments : Finset AiAction) (opening : AiAction) (merged : Context) : Prop where
  action : merged.action = some opening.action
  symbol : Settled (fun f => statedText f.symbol) fragments start.symbol merged.symbol
  direction : Settled AiAction.direction fragments start.direction merged.direction
  orderType : Settled (fun f => statedText f.orderType) fragments start.orderType merged.orderType
  entry : Settled AiAction.entry fragments start.entry merged.entry
  entryHigh : Settled AiAction.entryHigh fragments start.entryHigh merged.entryHigh
  stopLoss : Settled AiAction.stopLoss fragments start.stopLoss merged.stopLoss
  closeFraction : Settled AiAction.closeFraction fragments start.closeFraction merged.closeFraction
  explicitReference : Settled (fun f => statedText f.explicitReference) fragments start.explicitReference merged.explicitReference
  takeProfits : ∀ p, p ∈ merged.takeProfits ↔ p ∈ start.takeProfits ∨ ∃ f ∈ fragments, p ∈ f.takeProfits

/-- The contexts differ in their confidence and in the order of their targets only. -/
structure Context.SameUpToOrder (c c' : Context) : Prop where
  others : { c with confidence := none, takeProfits := [] } = { c' with confidence := none, takeProfits := [] }
  takeProfits : c.takeProfits.Perm c'.takeProfits

section

variable {start : Context} {l l' : List AiAction} {fragments : Finset AiAction} {opening fragment : AiAction} {β : Type}
  {get : Context → Option β} {stated : AiAction → Option β}

theorem mergedFragments_concat (start : Context) (l : List AiAction) (fragment : AiAction) :
    mergedFragments start (l ++ [fragment]) = mergeGenerationContext (mergedFragments start l) fragment.modelDump false := by
  rw [mergedFragments, List.foldl_append]
  rfl

/-- A field that a merge overwrites with what is stated has the last value stated. -/
theorem get_mergedFragments
    (h : ∀ current f, get (mergeGenerationContext current (AiAction.modelDump f) false) = (stated f).or (get current)) (l : List AiAction) :
    get (mergedFragments start l) = overlay stated (get start) l := by
  induction l using List.reverseRecOn with
  | nil => rfl
  | append_singleton l fragment ih => rw [mergedFragments_concat, h, ih, overlay_concat]

theorem takeProfits_mergedFragments (l : List AiAction) :
    (mergedFragments start l).takeProfits = gather AiAction.takeProfits start.takeProfits l := by
  induction l using List.reverseRecOn with
  | nil => rfl
  | append_singleton l fragment ih =>
    rw [mergedFragments_concat, gather_concat, ← ih]
    exact takeProfits_mergeGenerationContext _ _

/-- Once the opening is merged, its action stays. -/
theorem action_mergedFragments (hopen : opening.action.isOpen) (hothers : ∀ f ∈ l, f ≠ opening → f.action.isManagement)
    (hmem : opening ∈ l) : (mergedFragments start l).action = some opening.action := by
  induction l using List.reverseRecOn with
  | nil => cases hmem
  | append_singleton l last ih =>
    rw [mergedFragments_concat, mergeGeneration_action rfl]
    by_cases hlast : last = opening
    · have hnot : opening.action.isManagement = false := by
        cases haction : opening.action <;> rw [haction] at hopen <;> first | rfl | cases hopen
      rw [hlast, hnot, Bool.and_false, if_neg Bool.false_ne_true]
    · have hbefore : opening ∈ l := (List.mem_append.mp hmem).resolve_right fun h => hlast (List.mem_singleton.mp h).symm
      have haction := ih (fun f hf => hothers f (List.mem_append_left _ hf)) hbefore
      have hmanages := hothers last (List.mem_append_right _ List.mem_cons_self) hlast
      rw [haction, Option.any_some, hopen, hmanages]
      rfl

/-- There is one value that a field can have. -/
theorem Settled.eq {start merged merged' : Option β} (h : Settled stated fragments start merged)
    (h' : Settled stated fragments start merged') : merged = merged' := by
  by_cases hnone : ∀ f ∈ fragments, stated f = none
  · rw [h.2 hnone, h'.2 hnone]
  · obtain ⟨f, hf, hne⟩ : ∃ f ∈ fragments, stated f ≠ none := by simpa using hnone
    obtain ⟨b, hb⟩ := Option.ne_none_iff_exists'.mp hne
    rw [h.1 f hf b hb, h'.1 f hf b hb]

theorem settled_overlay {start : Option β} (hagree : ∀ f ∈ fragments, ∀ g ∈ fragments, Agree (stated f) (stated g))
    (hl : ∀ f, f ∈ l ↔ f ∈ fragments) : Settled stated fragments start (overlay stated start l) := by
  refine ⟨fun f hf b hb => ?_, fun hnone => overlay_of_none fun f hf => hnone f ((hl f).1 hf)⟩
  exact overlay_of_mem (fun f hf g hg => hagree f ((hl f).1 hf) g ((hl g).1 hg)) ((hl f).2 hf) hb

theorem fragmentsMerged (hmem : opening ∈ fragments) (hopen : opening.action.isOpen)
    (hothers : ∀ f ∈ fragments, f ≠ opening → f.action.isManagement) (hcompat : ∀ f ∈ fragments, ∀ g ∈ fragments, f.Compatible g)
    (hl : ∀ f, f ∈ l ↔ f ∈ fragments) : FragmentsMerged start fragments opening (mergedFragments start l) := by
  have hfield {β : Type} {get : Context → Option β} {stated : AiAction → Option β}
      (h : ∀ current f, get (mergeGenerationContext current (AiAction.modelDump f) false) = (stated f).or (get current))
      (hagree : ∀ f g : AiAction, f.Compatible g → Agree (stated f) (stated g)) :
      Settled stated fragments (get start) (get (mergedFragments start l)) := by
    rw [get_mergedFragments h]
    exact settled_overlay (fun f hf g hg => hagree f g (hcompat f hf g hg)) hl
  refine {
    action := action_mergedFragments hopen (fun f hf => hothers f ((hl f).1 hf)) ((hl opening).2 hmem)
    symbol := hfield (fun current f => mergeText_eq current.symbol f.symbol) fun _ _ h => h.symbol
    direction := hfield (fun current f => mergeField_eq current.direction f.direction) fun _ _ h => h.direction
    orderType := hfield (fun current f => mergeText_eq current.orderType f.orderType) fun _ _ h => h.orderType
    entry := hfield (fun current f => mergeField_eq current.entry f.entry) fun _ _ h => h.entry
    entryHigh := hfield (fun current f => mergeField_eq current.entryHigh f.entryHigh) fun _ _ h => h.entryHigh
    stopLoss := hfield (fun current f => mergeField_eq current.stopLoss f.stopLoss) fun _ _ h => h.stopLoss
    closeFraction := hfield (fun current f => mergeField_eq current.closeFraction f.closeFraction) fun _ _ h => h.closeFraction
    explicitReference := hfield (fun current f => mergeText_eq current.explicitReference f.explicitReference) fun _ _ h =>
      h.explicitReference
    takeProfits := fun p => ?_ }
  rw [takeProfits_mergedFragments, mem_gather]
  simp only [hl]

/-- **Fragments.** An opening and fragments that manage it, which do not contradict each other, are
merged into one generation in any order and however often each comes: it has the opening's action,
each stated field has its value, and the targets are those of before and of all fragments. -/
theorem fragments_anyOrder (start : Context) (fragments : Finset AiAction) (opening : AiAction) (hmem : opening ∈ fragments)
    (hopen : opening.action.isOpen) (hothers : ∀ f ∈ fragments, f ≠ opening → f.action.isManagement)
    (hcompat : ∀ f ∈ fragments, ∀ g ∈ fragments, f.Compatible g) (l l' : List AiAction) (hl : ∀ f, f ∈ l ↔ f ∈ fragments)
    (hl' : ∀ f, f ∈ l' ↔ f ∈ fragments) :
    FragmentsMerged start fragments opening (mergedFragments start l) ∧
      (mergedFragments start l).SameUpToOrder (mergedFragments start l') := by
  have hmerged : FragmentsMerged start fragments opening (mergedFragments start l) := fragmentsMerged hmem hopen hothers hcompat hl
  have hmerged' : FragmentsMerged start fragments opening (mergedFragments start l') := fragmentsMerged hmem hopen hothers hcompat hl'
  refine ⟨hmerged, ?_, ?_⟩
  · rw [hmerged.action.trans hmerged'.action.symm, hmerged.symbol.eq hmerged'.symbol, hmerged.direction.eq hmerged'.direction,
      hmerged.orderType.eq hmerged'.orderType, hmerged.entry.eq hmerged'.entry, hmerged.entryHigh.eq hmerged'.entryHigh,
      hmerged.stopLoss.eq hmerged'.stopLoss, hmerged.closeFraction.eq hmerged'.closeFraction,
      hmerged.explicitReference.eq hmerged'.explicitReference]
  · rw [takeProfits_mergedFragments, takeProfits_mergedFragments]
    exact perm_gather fun f => (hl f).trans (hl' f).symm

end

def fragmentOpening : AiAction where
  action := .open_market
  symbol := some "XAUUSD"
  direction := some .buy
  confidence := 1

def fragmentStop : AiAction where
  action := .modify_sl_tp
  stopLoss := some ⟨false, 2310, 0⟩
  confidence := 1

def fragmentTarget : AiAction where
  action := .modify_sl_tp
  takeProfits := [⟨false, 2350, 0⟩]
  confidence := 1

/-- The stop loss and the target can come before the opening, the target once more. -/
theorem fragments_anyOrder_gold : (mergedFragments {} [fragmentTarget, fragmentStop, fragmentTarget, fragmentOpening]).action = some .open_market ∧
    (mergedFragments {} [fragmentTarget, fragmentStop, fragmentTarget, fragmentOpening]).SameUpToOrder (mergedFragments {} [fragmentOpening, fragmentStop, fragmentTarget]) := by
  have hcompat : ∀ f ∈ ({fragmentOpening, fragmentStop, fragmentTarget} : Finset AiAction), ∀ g ∈ ({fragmentOpening, fragmentStop, fragmentTarget} : Finset AiAction),
      f.Compatible g := by decide +kernel
  obtain ⟨hmerged, hsame⟩ := fragments_anyOrder {} {fragmentOpening, fragmentStop, fragmentTarget} fragmentOpening (by decide +kernel) rfl
    (by decide +kernel) hcompat [fragmentTarget, fragmentStop, fragmentTarget, fragmentOpening] [fragmentOpening, fragmentStop, fragmentTarget]
    (fun f => by simp only [List.mem_cons, List.not_mem_nil, Finset.mem_insert, Finset.mem_singleton]; tauto)
    (fun f => by simp only [List.mem_cons, List.not_mem_nil, Finset.mem_insert, Finset.mem_singleton]; tauto)
  exact ⟨hmerged.action, hsame⟩

end SignalSync
