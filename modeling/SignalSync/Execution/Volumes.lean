import SignalSync.Execution.Action
import SignalSync.Signal.Edits
import Mathlib.Algebra.BigOperators.Group.List.Basic

/-!
# Volumes sent to the broker

An opening's volume is brought onto the grid of the broker's symbol, a partial close's is not:
it is the fraction of what the trade holds. What is left is rounded to the column, and a trade
that holds nothing is taken for one that still holds its original volume.

* `tradable_iff`: every volume sent can be traded exactly where no partial close falls beside
  the grid, below the minimum or over what is left;
* `addUp_iff`: partial closes one after another add up exactly as long as something is left,
  and the column can hold it.
-/

namespace SignalSync

open Library

namespace Payload

/-- `Decimal(str(payload.get("close_fraction") or "0.5"))`. -/
def fraction (payload : Payload) : ℚ := (payload.context.closeFraction.getD ⟨false, 5, -1⟩).toRat

end Payload

section

variable [Unicode] {route : CopyRoute} {clientId : ClientOrderId} {payload : Payload} {trade : CopiedTrade}
  {selected : Option BrokerSymbol} {symbol : BrokerSymbol} {live v c : Lots}

/-- A partial close asks for its fraction of the live volume. -/
theorem runAction_partialClose (h : trade.liveVolume = some live) :
    runAction route clientId payload .partial_close (some trade) selected =
      .ok (.closePosition trade.brokerPositionId (some (live.toRat * payload.fraction)) clientId,
        some (live.toRat * payload.fraction)) := by
  simp only [runAction, h]
  rfl

omit [Unicode] in
theorem liveVolume_of_ne_zero (h : trade.currentVolume = some c) (hc : c.toRat ≠ 0) : trade.liveVolume = some c := by
  simp [CopiedTrade.liveVolume, h, hc]

omit [Unicode] in
theorem liveVolume_of_zero (h : trade.currentVolume = some c) (hc : c.toRat = 0) : trade.liveVolume = trade.originalVolume := by
  have hnone : (some c).filter (·.toRat ≠ 0) = none := by
    rw [Option.filter_eq_none_iff]
    intro a ha
    cases ha
    simpa using hc
  rw [CopiedTrade.liveVolume, h, hnone]
  rfl

/-! ## The grid -/

namespace BrokerSymbol

/-- The limits the broker states are consistent: a minimum on the grid, and a maximum not below it. -/
structure Consistent (symbol : BrokerSymbol) : Prop where
  min_le_max : symbol.minVolume ≤ symbol.maxVolume
  minOnGrid : ∃ k : Int, symbol.minVolume = k * symbol.volumeStep

/-- A volume that can be traded. -/
structure Admits (symbol : BrokerSymbol) (volume : ℚ) : Prop where
  onGrid : ∃ k : Int, volume = k * symbol.volumeStep
  min_le : symbol.minVolume ≤ volume

end BrokerSymbol

omit [Unicode] in
theorem normalizeVolume_admits (h : symbol.Consistent) (volume : ℚ) : symbol.Admits (normalizeVolume volume symbol) := by
  refine ⟨?_, minVolume_le_normalizeVolume⟩
  rw [normalizeVolume]
  have hfloor : ⌊min (max volume symbol.minVolume) symbol.maxVolume / symbol.volumeStep⌋ * symbol.volumeStep ≤ symbol.maxVolume :=
    (floor_mul_le _ symbol).trans (min_le_right _ _)
  rw [min_eq_left hfloor]
  rcases max_choice symbol.minVolume
      (⌊min (max volume symbol.minVolume) symbol.maxVolume / symbol.volumeStep⌋ * symbol.volumeStep) with hmax | hmax
  · rw [hmax]
    exact h.minOnGrid
  · exact ⟨_, hmax⟩

omit [Unicode] in
theorem normalizeVolume_le_maxVolume (h : symbol.Consistent) (volume : ℚ) : normalizeVolume volume symbol ≤ symbol.maxVolume :=
  max_le h.min_le_max (min_le_right _ _)

/-- The volume a call asks for. -/
def BrokerCall.volume : BrokerCall → Option ℚ
  | .marketOrder _ _ volume .. | .pendingOrder _ _ _ volume .. => some volume
  | .closePosition _ volume _ => volume
  | _ => none

/-- What the trade still holds. -/
def CopiedTrade.remaining (trade : CopiedTrade) : Option Lots := trade.currentVolume <|> trade.originalVolume

/-- Each volume that is sent can be traded; an opening's is not over the broker's maximum, a close's
not over what is left of the trade. -/
def Tradable (route : CopyRoute) (clientId : ClientOrderId) (payload : Payload) (action : SignalAction)
    (copied : Option CopiedTrade) (symbol : BrokerSymbol) : Prop :=
  ∀ call submitted, runAction route clientId payload action copied (some symbol) = .ok (call, submitted) →
    ∀ volume, call.volume = some volume → symbol.Admits volume ∧
      if action.isOpening then volume ≤ symbol.maxVolume
      else ∀ trade, copied = some trade → ∀ left, trade.remaining = some left → volume ≤ left.toRat

/-- The fraction of what the trade holds is a number of steps, not below the minimum, and not more than
it holds; nothing is sent for a trade without a volume. -/
def PartialFits (payload : Payload) (trade : CopiedTrade) (symbol : BrokerSymbol) : Prop :=
  ∀ live, trade.liveVolume = some live →
    (∃ k : Int, live.toRat * payload.fraction = k * symbol.volumeStep) ∧ symbol.minVolume ≤ live.toRat * payload.fraction ∧
      payload.fraction ≤ 1 ∧ ∀ current, trade.currentVolume = some current → current.toRat ≠ 0

omit [Unicode] in
/-- Where the minimum is asked for at least, the live volume is not zero. -/
theorem live_pos (h : symbol.minVolume ≤ live.toRat * payload.fraction) : 0 < live.toRat ∧ 0 < payload.fraction := by
  have hpos : 0 < live.toRat * payload.fraction := symbol.minVolume_pos.trans_le h
  have hlive : 0 < live.toRat := live.toRat_nonneg.lt_of_ne fun hzero => by
    rw [← hzero, zero_mul] at hpos
    exact lt_irrefl _ hpos
  exact ⟨hlive, pos_of_mul_pos_right hpos hlive.le⟩

/-- An opening's volume, whatever is asked for. -/
theorem opening_tradable (h : symbol.Consistent) {action : SignalAction} (ha : action.isOpening) (copied : Option CopiedTrade) :
    Tradable route clientId payload action copied symbol := by
  intro call submitted hcall volume hvolume
  rw [if_pos ha]
  suffices hnormal : volume = normalizeVolume (payload.requestedVolume route) symbol by
    rw [hnormal]
    exact ⟨normalizeVolume_admits h _, normalizeVolume_le_maxVolume h _⟩
  obtain ⟨_, direction, hselected, -, -, rfl | ⟨_, _, rfl⟩⟩ := runAction_opening hcall ha <;> cases hselected <;>
    exact (Option.some_inj.mp hvolume).symm

theorem partialClose_tradable :
    Tradable route clientId payload .partial_close (some trade) symbol ↔ PartialFits payload trade symbol := by
  constructor
  · intro h live hlive
    obtain ⟨⟨hgrid, hmin⟩, hleft⟩ := h _ _ (runAction_partialClose hlive) _ rfl
    rw [if_neg (show ¬ SignalAction.partial_close.isOpening from Bool.false_ne_true)] at hleft
    obtain ⟨hpos, hfraction⟩ := live_pos hmin
    have hcurrent : ∀ current, trade.currentVolume = some current → current.toRat ≠ 0 := by
      intro current hc hzero
      have hover := hleft trade rfl current (by rw [CopiedTrade.remaining, hc]; rfl)
      rw [hzero] at hover
      exact absurd hover (not_le.mpr (mul_pos hpos hfraction))
    have hremaining : trade.remaining = some live := by
      cases hc : trade.currentVolume with
      | none =>
        rw [CopiedTrade.liveVolume, hc] at hlive
        rw [CopiedTrade.remaining, hc]
        exact hlive
      | some current =>
        rw [liveVolume_of_ne_zero hc (hcurrent current hc)] at hlive
        rw [CopiedTrade.remaining, hc, ← Option.some_inj.mp hlive]
        rfl
    refine ⟨hgrid, hmin, ?_, hcurrent⟩
    have hle := hleft trade rfl live hremaining
    exact le_of_mul_le_mul_left (hle.trans_eq (mul_one _).symm) hpos
  · intro h call submitted hcall volume hvolume
    cases hlive : trade.liveVolume with
    | none =>
      simp only [runAction, hlive] at hcall
      cases hcall
    | some live =>
      rw [runAction_partialClose hlive] at hcall
      cases hcall
      cases hvolume
      obtain ⟨hgrid, hmin, hone, hcurrent⟩ := h live hlive
      rw [if_neg (show ¬ SignalAction.partial_close.isOpening from Bool.false_ne_true)]
      refine ⟨⟨hgrid, hmin⟩, fun t ht left hleft => ?_⟩
      cases ht
      have hsame : left = live := by
        cases hc : trade.currentVolume with
        | none =>
          rw [CopiedTrade.liveVolume, hc] at hlive
          rw [CopiedTrade.remaining, hc] at hleft
          exact Option.some_inj.mp (hleft.symm.trans hlive)
        | some current =>
          rw [liveVolume_of_ne_zero hc (hcurrent current hc)] at hlive
          rw [CopiedTrade.remaining, hc] at hleft
          exact (Option.some_inj.mp hleft).symm.trans (Option.some_inj.mp hlive)
      rw [hsame]
      exact mul_le_of_le_one_right live.toRat_nonneg hone

/-- Over every payload, copied trade and symbol with consistent limits. -/
theorem tradable_iff (h : symbol.Consistent) (action : SignalAction) (copied : Option CopiedTrade) :
    Tradable route clientId payload action copied symbol ↔
      (action = .partial_close → ∀ trade, copied = some trade → PartialFits payload trade symbol) := by
  by_cases ho : action.isOpening
  · refine ⟨fun _ hp => ?_, fun _ => opening_tradable h ho copied⟩
    rw [hp] at ho
    cases ho
  · cases copied with
    | none =>
      refine ⟨fun _ _ _ ht => (by cases ht), fun _ call submitted hcall => ?_⟩
      cases action <;> first | cases hcall | exact absurd rfl ho
    | some trade =>
      by_cases hp : action = .partial_close
      · rw [hp, partialClose_tradable]
        exact ⟨fun hfits _ t ht => Option.some_inj.mp ht ▸ hfits, fun hfits => hfits rfl trade rfl⟩
      · refine ⟨fun _ he => absurd he hp, fun _ call submitted hcall volume hvolume => ?_⟩
        -- no other call names a volume
        cases action <;> first | exact absurd rfl hp | exact absurd rfl ho | (cases hcall <;> cases hvolume)

/-! ## Partial closes one after another -/

/-- A partial close that is confirmed, with the volume it closes. -/
def closeOnce (route : CopyRoute) (clientId : ClientOrderId) (selected : Option BrokerSymbol) (payload : Payload) (trade : CopiedTrade) :
    Except PyException (ℚ × CopiedTrade) :=
  match runAction route clientId payload .partial_close (some trade) selected with
  | .error e => .error e
  | .ok (_, submitted) =>
    (confirmCopied payload .partial_close (submitted.getD 0) trade).map fun new => (submitted.getD 0, new)

/-- After some of a trade's original volume is closed: what is left is stored, it is not negative, and
nothing left counts for nothing in the exposure. -/
structure Sound (original closed : ℚ) (trade : CopiedTrade) : Prop where
  left : ∃ current, trade.currentVolume = some current ∧ current.toRat = original - closed
  nonneg : 0 ≤ original - closed
  exposure : original - closed = 0 → trade.exposure = 0

/-- The trade is sound before and after each of the closes, and none asks for more than is left. -/
def AddUp (route : CopyRoute) (clientId : ClientOrderId) (selected : Option BrokerSymbol) (original : ℚ) :
    ℚ → CopiedTrade → List Payload → Prop
  | closed, trade, [] => Sound original closed trade
  | closed, trade, payload :: rest => Sound original closed trade ∧
    ∃ volume new, closeOnce route clientId selected payload trade = .ok (volume, new) ∧ volume ≤ original - closed ∧
      AddUp route clientId selected original (closed + volume) new rest

/-- The part of a trade that some closes leave. -/
def leftAfter (payloads : List Payload) : ℚ := (payloads.map fun payload => 1 - payload.fraction).prod

/-- Something is left, and the column can hold it. -/
def Holds (volume : ℚ) : Prop := ∃ c : Lots, 0 < c.toRat ∧ c.toRat = volume

theorem AddUp.sound {original closed : ℚ} {payloads : List Payload}
    (h : AddUp route clientId selected original closed trade payloads) : Sound original closed trade := by
  cases payloads with
  | nil => exact h
  | cons payload rest => exact h.1

theorem closeOnce_eq (hlive : trade.liveVolume = some live) (hc : trade.currentVolume = some c) :
    closeOnce route clientId selected payload trade = .ok (live.toRat * payload.fraction,
      { trade with currentVolume := some (.ofRat (max 0 (c.toRat - live.toRat * payload.fraction)) (le_max_left _ _)) }) := by
  simp only [closeOnce, runAction_partialClose hlive, Option.getD_some, confirmCopied, hc]
  rfl

omit [Unicode] in
theorem exposure_of_zero (hc : trade.currentVolume = some c) (hzero : c.toRat = 0) (ho : trade.originalVolume = some v) :
    trade.exposure = v.toRat := by
  have hnone : trade.currentVolume.filter (·.toRat ≠ 0) = none := by
    rw [hc, Option.filter_eq_none_iff]
    intro a ha
    cases ha
    simpa using hzero
  simp only [CopiedTrade.exposure, hnone, ho, Option.map_some, Option.getD_some]

omit [Unicode] in
/-- A trade that holds nothing still counts for its original volume. -/
theorem sound_iff (hc : trade.currentVolume = some c) (ho : trade.originalVolume = some v) (hv : 0 < v.toRat) :
    Sound v.toRat (v.toRat - c.toRat) trade ↔ 0 < c.toRat := by
  have hleft : v.toRat - (v.toRat - c.toRat) = c.toRat := sub_sub_cancel _ _
  constructor
  · intro h
    refine c.toRat_nonneg.lt_of_ne fun hzero => hv.ne' ?_
    rw [← exposure_of_zero hc hzero.symm ho]
    exact h.exposure (hleft.trans hzero.symm)
  · intro hpos
    exact ⟨⟨c, hc, hleft.symm⟩, hleft.symm ▸ hpos.le, fun hzero => absurd (hleft.symm.trans hzero) hpos.ne'⟩

omit [Unicode] in
theorem holds_cons {q : ℚ} {payload : Payload} {rest : List Payload} :
    (∀ done, done <+: payload :: rest → Holds (q * leftAfter done)) ↔
      Holds q ∧ ∀ done, done <+: rest → Holds (q * (1 - payload.fraction) * leftAfter done) := by
  have hcons (done : List Payload) : q * leftAfter (payload :: done) = q * (1 - payload.fraction) * leftAfter done := by
    rw [leftAfter, List.map_cons, List.prod_cons, ← mul_assoc]
    rfl
  constructor
  · intro h
    refine ⟨?_, fun done hdone => hcons done ▸ h _ (List.prefix_cons_iff.mpr (.inr ⟨done, rfl, hdone⟩))⟩
    have hnil := h [] List.nil_prefix
    rwa [leftAfter, List.map_nil, List.prod_nil, mul_one] at hnil
  · rintro ⟨hq, h⟩ done hdone
    rcases List.prefix_cons_iff.mp hdone with rfl | ⟨done', rfl, hdone'⟩
    · rwa [leftAfter, List.map_nil, List.prod_nil, mul_one]
    · rw [hcons]
      exact h done' hdone'

omit [Unicode] in
theorem holds_self : Holds c.toRat ↔ 0 < c.toRat := ⟨fun ⟨_, hpos, heq⟩ => heq ▸ hpos, fun h => ⟨c, h, rfl⟩⟩

/-- One close after the other. -/
theorem addUp_iff_of_pos (hc : trade.currentVolume = some c) (ho : trade.originalVolume = some v) (hv : 0 < v.toRat)
    (payloads : List Payload) :
    AddUp route clientId selected v.toRat (v.toRat - c.toRat) trade payloads ↔
      ∀ done, done <+: payloads → Holds (c.toRat * leftAfter done) := by
  induction payloads generalizing trade c with
  | nil =>
    have hnil : leftAfter [] = 1 := rfl
    simp only [AddUp, sound_iff hc ho hv, List.prefix_nil, forall_eq, hnil, mul_one, holds_self]
  | cons payload rest ih =>
    rw [holds_cons, holds_self, AddUp, sound_iff hc ho hv]
    refine and_congr_right fun hpos => ?_
    rw [closeOnce_eq (liveVolume_of_ne_zero hc hpos.ne') hc, sub_sub_cancel]
    have hvolume : c.toRat - c.toRat * payload.fraction = c.toRat * (1 - payload.fraction) := by ring
    have hclosed : v.toRat - c.toRat + c.toRat * payload.fraction = v.toRat - c.toRat * (1 - payload.fraction) := by ring
    constructor
    · rintro ⟨_, _, heq, hle, hrest⟩
      cases heq
      obtain ⟨c', hc', hleft⟩ := hrest.sound.left
      have hexact : c'.toRat = c.toRat * (1 - payload.fraction) := by rw [hleft, hclosed, sub_sub_cancel]
      rw [hclosed, ← hexact] at hrest
      rw [← hexact]
      exact (ih hc' ho).mp hrest
    · intro h
      obtain ⟨c', -, hexact⟩ := h [] List.nil_prefix
      have hnil : leftAfter [] = 1 := rfl
      rw [hnil, mul_one] at hexact
      refine ⟨_, _, rfl, ?_, ?_⟩
      · rw [← sub_nonneg, hvolume, ← hexact]
        exact c'.toRat_nonneg
      · rw [hclosed, ← hexact]
        have hnext := congrArg some (Lots.ofRat_max (hexact.trans hvolume.symm))
        exact (ih hnext (by exact ho)).mpr (hexact ▸ h)

omit [Unicode] in
theorem sound_of_zero (hc : trade.currentVolume = some c) (ho : trade.originalVolume = some v) (hzero : c.toRat = 0)
    (hv : v.toRat = 0) : Sound v.toRat 0 trade :=
  ⟨⟨c, hc, by rw [hzero, hv, sub_zero]⟩, by rw [hv, sub_zero], fun _ => by rw [exposure_of_zero hc hzero ho, hv]⟩

/-- Without a volume there is nothing to add up. -/
theorem addUp_of_zero (hc : trade.currentVolume = some c) (ho : trade.originalVolume = some v) (hzero : c.toRat = 0)
    (hv : v.toRat = 0) (payloads : List Payload) : AddUp route clientId selected v.toRat 0 trade payloads := by
  induction payloads generalizing trade c with
  | nil => exact sound_of_zero hc ho hzero hv
  | cons payload rest ih =>
    have hlive : trade.liveVolume = some v := (liveVolume_of_zero hc hzero).trans ho
    have hnothing : v.toRat * payload.fraction = 0 := by rw [hv, zero_mul]
    have hnext := congrArg some (Lots.ofRat_max (show c.toRat = c.toRat - v.toRat * payload.fraction by rw [hnothing, sub_zero]))
    refine ⟨sound_of_zero hc ho hzero hv, _, _, closeOnce_eq hlive hc, by rw [hnothing, hv, sub_zero], ?_⟩
    rw [hnothing, add_zero]
    rw [hnothing] at hnext
    exact ih hnext (by exact ho) hzero

/-- Closes of a trade as it was opened add up exactly where it had no volume, or each leaves some that
the column can hold. -/
theorem addUp_iff (hc : trade.currentVolume = some v) (ho : trade.originalVolume = some v) (payloads : List Payload) :
    AddUp route clientId selected v.toRat 0 trade payloads ↔
      v.toRat = 0 ∨ ∀ done, done <+: payloads → Holds (v.toRat * leftAfter done) := by
  rcases v.toRat_nonneg.eq_or_lt with hzero | hpos
  · exact ⟨fun _ => .inl hzero.symm, fun _ => addUp_of_zero hc ho hzero.symm hzero.symm payloads⟩
  · have h : AddUp route clientId selected v.toRat (v.toRat - v.toRat) trade payloads ↔ _ := addUp_iff_of_pos hc ho hpos payloads
    rw [sub_self] at h
    rw [h]
    exact ⟨.inr, fun h => h.resolve_left hpos.ne'⟩

end

/-! ## Gold -/

/-- A symbol that is traded in steps of a hundredth of a lot. -/
def hundredths : BrokerSymbol where
  name := "XAUUSD"
  tradeMode := .code 4
  minVolume := 1 / 100
  maxVolume := 100
  volumeStep := 1 / 100
  point := 1 / 100
  minVolume_pos := hundredth_lot_pos
  volumeStep_pos := hundredth_lot_pos

theorem hundredths_consistent : hundredths.Consistent where
  min_le_max := by norm_num [hundredths]
  minOnGrid := ⟨1, by norm_num [hundredths]⟩

/-- A number of ten-thousandths of a lot. -/
def Lots.ofUnits (units : Nat) : Lots := ⟨⟨units⟩, Int.natCast_nonneg units⟩

/-- A trade of gold as it was opened. -/
def goldOf (units : Nat) : CopiedTrade :=
  { goldTrade with originalVolume := some (.ofUnits units), currentVolume := some (.ofUnits units) }

def closing (fraction : Decimal) : Payload where
  context := { action := some .partial_close, symbol := some "XAUUSD", closeFraction := some fraction }
  volume := none
  takeProfit := none
  conversationId := .conversation 0
  copiedTradeId := some goldTrade.id

/-- Half of a trade of 0.1 lots can be closed. -/
theorem tradable_iff_half :
    let _ := Unicode.ascii
    hundredths.Consistent ∧
      (Tradable goldRoute ⟨4, 1⟩ (closing 0.5) .partial_close (some (goldOf 1000)) hundredths ↔
        (SignalAction.partial_close = .partial_close → ∀ trade, some (goldOf 1000) = some trade →
          PartialFits (closing 0.5) trade hundredths)) := by
  intro _
  exact ⟨hundredths_consistent, tradable_iff hundredths_consistent .partial_close (some (goldOf 1000))⟩

/-- Half of a trade of 0.05 lots is sent as it is, although 0.025 lots cannot be traded. -/
theorem half_beside_grid :
    let _ := Unicode.ascii
    hundredths.Consistent ∧
      runAction goldRoute ⟨4, 1⟩ (closing 0.5) .partial_close (some (goldOf 500)) (some hundredths) =
        .ok (.closePosition (some "1") (some (1 / 40)) ⟨4, 1⟩, some (1 / 40)) ∧
      ¬ Tradable goldRoute ⟨4, 1⟩ (closing 0.5) .partial_close (some (goldOf 500)) hundredths := by
  intro _
  have hrun : runAction goldRoute ⟨4, 1⟩ (closing 0.5) .partial_close (some (goldOf 500)) (some hundredths) =
      .ok (.closePosition (some "1") (some (1 / 40)) ⟨4, 1⟩, some (1 / 40)) := by
    have hlive : (goldOf 500).liveVolume = some (.ofUnits 500) := by decide +kernel
    have hvolume : (Lots.ofUnits 500).toRat * (closing 0.5).fraction = 1 / 40 := by decide +kernel
    rw [runAction_partialClose hlive, hvolume]
    rfl
  refine ⟨hundredths_consistent, hrun, fun h => ?_⟩
  obtain ⟨k, hk⟩ := (h _ _ hrun _ rfl).1.onGrid
  have htwo : (5 : ℚ) = ((2 * k : Int) : ℚ) := by
    rw [show hundredths.volumeStep = 1 / 100 from rfl] at hk
    push_cast
    linarith
  have hodd : (5 : Int) = 2 * k := by exact_mod_cast htwo
  omega

/-- Two closes of half of a trade of 0.1 lots. -/
theorem addUp_iff_halves :
    let _ := Unicode.ascii
    AddUp goldRoute ⟨4, 1⟩ none (Lots.ofUnits 1000).toRat 0 (goldOf 1000) [closing 0.5, closing 0.5] ↔
      (Lots.ofUnits 1000).toRat = 0 ∨ ∀ done, done <+: [closing 0.5, closing 0.5] →
        Holds ((Lots.ofUnits 1000).toRat * leftAfter done) := by
  intro _
  exact addUp_iff (show (goldOf 1000).currentVolume = some (.ofUnits 1000) from rfl) rfl [closing 0.5, closing 0.5]

/-- A trade of 0.1 lots after its last part is closed. -/
def closedOut : CopiedTrade := { goldOf 1000 with currentVolume := some 0 }

/-- It still counts for 0.1 lots, and the next close asks for half of these. -/
theorem closed_volume_reappears :
    let _ := Unicode.ascii
    ¬ AddUp goldRoute ⟨4, 1⟩ none (Lots.ofUnits 1000).toRat 0 (goldOf 1000) [closing 1, closing 0.5] ∧
      closeOnce goldRoute ⟨4, 1⟩ none (closing 1) (goldOf 1000) = .ok ((Lots.ofUnits 1000).toRat, closedOut) ∧
      closedOut.exposure = 1 / 10 ∧
      runAction goldRoute ⟨4, 1⟩ (closing 0.5) .partial_close (some closedOut) none =
        .ok (.closePosition (some "1") (some (1 / 20)) ⟨4, 1⟩, some (1 / 20)) := by
  intro _
  have hall : closeOnce goldRoute ⟨4, 1⟩ none (closing 1) (goldOf 1000) = .ok ((Lots.ofUnits 1000).toRat, closedOut) := by
    have hlive : (goldOf 1000).liveVolume = some (.ofUnits 1000) := by decide +kernel
    have hvolume : (Lots.ofUnits 1000).toRat * (closing 1).fraction = (Lots.ofUnits 1000).toRat := by decide +kernel
    have hnothing : (0 : Lots).toRat = (Lots.ofUnits 1000).toRat - (Lots.ofUnits 1000).toRat := by decide +kernel
    rw [closeOnce_eq hlive rfl, hvolume, Lots.ofRat_max hnothing]
    rfl
  have hexposure : closedOut.exposure = 1 / 10 := by decide +kernel
  have hlive : closedOut.liveVolume = some (.ofUnits 1000) := by decide +kernel
  have hvolume : (Lots.ofUnits 1000).toRat * (closing 0.5).fraction = 1 / 20 := by decide +kernel
  refine ⟨fun h => ?_, hall, hexposure, by rw [runAction_partialClose hlive, hvolume]; rfl⟩
  obtain ⟨-, volume, new, heq, -, hsound, -⟩ := h
  cases hall.symm.trans heq
  have hzero := hsound.exposure (by rw [zero_add, sub_self])
  rw [hexposure] at hzero
  norm_num at hzero

end SignalSync
