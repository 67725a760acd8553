import SignalSync.Affiliates.Service
import SignalSync.Execution.Reconciliation

/-!
# Snapshots as the broker returns them

A position or an order is a dictionary, in the shape of MetaApi or in the older one, and any of
its values may be missing or no number. `apply_broker_snapshot` works on the trade of a session,
whose numbers are rounded to their columns only when it is stored.

* `snapshot_settles`: a snapshot is taken in at once;
* `applyBrokerSnapshot_refines`: over stored trades this is `SignalSync.applyBrokerSnapshot`.
-/

namespace SignalSync

open Library

section

variable [Python] [Unicode]

/-- `_safe_decimal`. -/
def SnapshotItem.safeDecimal : Json → Option ℚ
  | .null => none
  | value => decimalOfText value.text

structure SnapshotItem where
  fields : List (String × Json)

namespace SnapshotItem

variable (item : SnapshotItem)

omit [Python] [Unicode] in
def get (key : String) : Json := (Json.object item.fields).get key

omit [Python] [Unicode] in
/-- `_broker_value`. -/
def brokerValue (metaapiKey legacyKey : String) : Json :=
  match item.get metaapiKey with
  | .null => item.get legacyKey
  | value => value

omit [Python] [Unicode] in
/-- `_broker_id`. -/
def brokerId : Json := item.brokerValue "id" "ticket"

def idText : String := item.brokerId.text

/-- `str(item.get("comment", ""))`. -/
def comment : String := (item.fields.lookup "comment").elim "" Json.text

/-- The volume, where it is a number and not negative. -/
def volume : Option ℚ := (safeDecimal (item.get "volume")).filter (0 ≤ ·)

def stopLoss : Option ℚ := safeDecimal (item.brokerValue "stopLoss" "sl")

def takeProfit : Option ℚ := safeDecimal (item.brokerValue "takeProfit" "tp")

/-- The position carries the client id, or the comment made of it; an empty id is none. -/
def activates (clientOrderId : Option String) : Bool :=
  (clientOrderId.filter (· ≠ "")).any fun id =>
    (item.get "clientId").string? = some id || item.comment = "cpid:" ++ String.ofList (id.toList.take 20)

end SnapshotItem

/-- A copied trade in a session. -/
structure SessionTrade where
  lifecycleState : LifecycleState
  brokerOrderId : Option String
  brokerPositionId : Option String
  currentVolume : Option ℚ
  stopLoss : Option ℚ
  takeProfit : Option ℚ
  brokerSyncedAt : Option Time
deriving DecidableEq

namespace SessionTrade

def assign (trade : SessionTrade) (position : SnapshotItem) : SessionTrade :=
  { trade with
    currentVolume := position.volume <|> trade.currentVolume
    stopLoss := position.stopLoss
    takeProfit := position.takeProfit }

/-- One of `values` differs from the trade's. -/
def differs (trade : SessionTrade) (position : SnapshotItem) : Bool :=
  position.volume.any (trade.currentVolume ≠ some ·) || trade.stopLoss ≠ position.stopLoss || trade.takeProfit ≠ position.takeProfit

/-- The position an open trade is, or a pending one has become. -/
def shownBy (trade : SessionTrade) (positions orders : List SnapshotItem) (clientOrderId : Option String) : Option SnapshotItem :=
  match trade.lifecycleState with
  | .open => positions.find? fun item : SnapshotItem => item.idText = pyStr trade.brokerPositionId
  | .pending =>
    if orders.any fun item : SnapshotItem => item.idText = pyStr trade.brokerOrderId then none
    else positions.find? fun item : SnapshotItem => item.activates clientOrderId
  | .closed | .cancelled => none

/-- `apply_broker_snapshot`, with whether it reports a change. -/
def applyBrokerSnapshot (trade : SessionTrade) (positions orders : List SnapshotItem) (observedAt : Time)
    (clientOrderId : Option String) : SessionTrade × Bool :=
  let (trade, changed) :=
    match trade.lifecycleState with
    | .open =>
      match positions.find? fun item : SnapshotItem => item.idText = pyStr trade.brokerPositionId with
      | none => ({ trade with lifecycleState := .closed, currentVolume := some 0 }, true)
      | some position => (trade.assign position, trade.differs position)
    | .pending =>
      if orders.any fun item : SnapshotItem => item.idText = pyStr trade.brokerOrderId then (trade, false)
      else
        -- what activates the trade has a key, so it is no empty dictionary
        match positions.find? fun item : SnapshotItem => item.activates clientOrderId with
        | some activated =>
          ({ trade.assign activated with lifecycleState := .open, brokerPositionId := some activated.idText }, true)
        | none => ({ trade with lifecycleState := .cancelled }, true)
    | .closed | .cancelled => (trade, false)
  ({ trade with brokerSyncedAt := some observedAt }, changed)

variable {trade : SessionTrade} {position : SnapshotItem} {positions orders : List SnapshotItem} {clientOrderId : Option String}
  {observedAt : Time}

/-! ## Applied again -/

theorem assign_assign : (trade.assign position).assign position = trade.assign position := by
  unfold assign
  cases position.volume <;> rfl

/-- The trade is like the position, whose volume may be missing. -/
theorem differs_eq_false : trade.differs position = false ↔
    (∀ v, position.volume = some v → trade.currentVolume = some v) ∧ trade.stopLoss = position.stopLoss ∧
      trade.takeProfit = position.takeProfit := by
  unfold differs
  cases position.volume <;> simp [and_assoc]

theorem differs_assign : (trade.assign position).differs position = false :=
  differs_eq_false.2 ⟨fun v hv => by rw [assign, hv]; rfl, rfl, rfl⟩

/-- An open trade takes in a position it is already like. -/
theorem applyBrokerSnapshot_assigned (hopen : trade.lifecycleState = .open)
    (hshown : (positions.find? fun item : SnapshotItem => item.idText = pyStr trade.brokerPositionId) = some position)
    (hassign : trade.assign position = trade) :
    trade.applyBrokerSnapshot positions orders observedAt clientOrderId = ({ trade with brokerSyncedAt := some observedAt }, false) := by
  have hdiffers : trade.differs position = false := by
    rw [← hassign]
    exact differs_assign
  simp only [applyBrokerSnapshot, hopen, hshown, hassign, hdiffers]

/-- The time of the last snapshot is not looked at. -/
theorem applyBrokerSnapshot_synced (time : Option Time) :
    ({ trade with brokerSyncedAt := time }).applyBrokerSnapshot positions orders observedAt clientOrderId =
      trade.applyBrokerSnapshot positions orders observedAt clientOrderId := by
  obtain ⟨state, orderId, positionId, volume, stopLoss, takeProfit, -⟩ := trade
  unfold applyBrokerSnapshot
  cases state with
  | «open» =>
    simp only
    cases positions.find? fun item : SnapshotItem => item.idText = pyStr positionId <;> rfl
  | pending =>
    simp only
    cases orders.any fun item : SnapshotItem => item.idText = pyStr orderId with
    | true => rfl
    | false => cases positions.find? fun item : SnapshotItem => item.activates clientOrderId <;> rfl
  | closed | cancelled => rfl

/-- A finished trade is left alone. -/
theorem applyBrokerSnapshot_of_finished (h : trade.lifecycleState.isActive = false) :
    trade.applyBrokerSnapshot positions orders observedAt clientOrderId = ({ trade with brokerSyncedAt := some observedAt }, false) := by
  unfold applyBrokerSnapshot
  cases hs : trade.lifecycleState <;> simp_all [LifecycleState.isActive]

/-- So is a pending trade whose order stands. -/
theorem applyBrokerSnapshot_of_order (hpending : trade.lifecycleState = .pending)
    (horder : (orders.any fun item : SnapshotItem => item.idText = pyStr trade.brokerOrderId) = true) :
    trade.applyBrokerSnapshot positions orders observedAt clientOrderId = ({ trade with brokerSyncedAt := some observedAt }, false) := by
  simp only [applyBrokerSnapshot, hpending, horder, if_true]

/-- What a snapshot makes of a trade, the time aside, and whether that is a change. -/
inductive SnapshotStep (positions orders : List SnapshotItem) (clientOrderId : Option String) (trade : SessionTrade) :
    SessionTrade → Bool → Prop
  | finished (hfinished : trade.lifecycleState.isActive = false) : SnapshotStep positions orders clientOrderId trade trade false
  | assigned {position : SnapshotItem} (hopen : trade.lifecycleState = .open)
      (hshown : (positions.find? fun item : SnapshotItem => item.idText = pyStr trade.brokerPositionId) = some position) :
      SnapshotStep positions orders clientOrderId trade (trade.assign position) (trade.differs position)
  | closed (hopen : trade.lifecycleState = .open)
      (hgone : (positions.find? fun item : SnapshotItem => item.idText = pyStr trade.brokerPositionId) = none) :
      SnapshotStep positions orders clientOrderId trade { trade with lifecycleState := .closed, currentVolume := some 0 } true
  | waiting (hpending : trade.lifecycleState = .pending)
      (horder : (orders.any fun item : SnapshotItem => item.idText = pyStr trade.brokerOrderId) = true) :
      SnapshotStep positions orders clientOrderId trade trade false
  | activated {position : SnapshotItem} (hpending : trade.lifecycleState = .pending)
      (horder : (orders.any fun item : SnapshotItem => item.idText = pyStr trade.brokerOrderId) = false)
      (hshown : (positions.find? fun item : SnapshotItem => item.activates clientOrderId) = some position) :
      SnapshotStep positions orders clientOrderId trade
        { trade.assign position with lifecycleState := .open, brokerPositionId := some position.idText } true
  | cancelled (hpending : trade.lifecycleState = .pending)
      (horder : (orders.any fun item : SnapshotItem => item.idText = pyStr trade.brokerOrderId) = false)
      (hgone : (positions.find? fun item : SnapshotItem => item.activates clientOrderId) = none) :
      SnapshotStep positions orders clientOrderId trade { trade with lifecycleState := .cancelled } true

theorem applyBrokerSnapshot_step (trade : SessionTrade) (positions orders : List SnapshotItem) (observedAt : Time)
    (clientOrderId : Option String) :
    ∃ after changed, SnapshotStep positions orders clientOrderId trade after changed ∧
      trade.applyBrokerSnapshot positions orders observedAt clientOrderId =
        ({ after with brokerSyncedAt := some observedAt }, changed) := by
  unfold applyBrokerSnapshot
  cases hs : trade.lifecycleState with
  | «open» =>
    cases hshown : positions.find? fun item : SnapshotItem => item.idText = pyStr trade.brokerPositionId with
    | none => exact ⟨_, _, .closed hs hshown, rfl⟩
    | some position => exact ⟨_, _, .assigned hs hshown, rfl⟩
  | pending =>
    cases horder : orders.any fun item : SnapshotItem => item.idText = pyStr trade.brokerOrderId with
    | true => exact ⟨_, _, .waiting hs horder, rfl⟩
    | false =>
      cases hshown : positions.find? fun item : SnapshotItem => item.activates clientOrderId with
      | none => exact ⟨_, _, .cancelled hs horder hshown, rfl⟩
      | some position => exact ⟨_, _, .activated hs horder hshown, rfl⟩
  | closed => exact ⟨_, _, .finished (by rw [hs]; rfl), rfl⟩
  | cancelled => exact ⟨_, _, .finished (by rw [hs]; rfl), rfl⟩

variable {after : SessionTrade} {changed : Bool}

/-- After a step the snapshot has nothing to tell any more. -/
theorem SnapshotStep.settled (h : SnapshotStep positions orders clientOrderId trade after changed)
    (hids : (positions.map SnapshotItem.idText).Nodup) :
    after.applyBrokerSnapshot positions orders observedAt clientOrderId = ({ after with brokerSyncedAt := some observedAt }, false) := by
  cases h with
  | finished hfinished => exact applyBrokerSnapshot_of_finished hfinished
  | assigned hopen hshown => exact applyBrokerSnapshot_assigned hopen hshown assign_assign
  | closed => exact applyBrokerSnapshot_of_finished rfl
  | waiting hpending horder => exact applyBrokerSnapshot_of_order hpending horder
  | activated hpending horder hshown =>
    -- the trade is open now, and found by the id it has been given
    refine applyBrokerSnapshot_assigned rfl (find?_key hids (List.mem_of_find?_eq_some hshown)) ?_
    unfold assign
    cases SnapshotItem.volume _ <;> rfl
  | cancelled => exact applyBrokerSnapshot_of_finished rfl

/-- The lifecycle moves from open to closed and from pending to open or cancelled. -/
theorem SnapshotStep.lifecycle (h : SnapshotStep positions orders clientOrderId trade after changed) :
    after.lifecycleState = trade.lifecycleState ∨
      trade.lifecycleState = .open ∧ after.lifecycleState = .closed ∨
      trade.lifecycleState = .pending ∧ (after.lifecycleState = .open ∨ after.lifecycleState = .cancelled) := by
  cases h with
  | finished | assigned | waiting => exact .inl rfl
  | closed hopen => exact .inr (.inl ⟨hopen, rfl⟩)
  | activated hpending => exact .inr (.inr ⟨hpending, .inl rfl⟩)
  | cancelled hpending => exact .inr (.inr ⟨hpending, .inr rfl⟩)

theorem SnapshotStep.eq_of_finished (h : SnapshotStep positions orders clientOrderId trade after changed)
    (hfinished : trade.lifecycleState.isActive = false) : after = trade := by
  cases h with
  | finished | waiting => rfl
  | assigned hopen | closed hopen =>
    rw [hopen] at hfinished
    cases hfinished
  | activated hpending | cancelled hpending =>
    rw [hpending] at hfinished
    cases hfinished

/-- The volume changes when the position is gone, and to a number that its position shows. -/
theorem SnapshotStep.volume (h : SnapshotStep positions orders clientOrderId trade after changed) :
    after.currentVolume = trade.currentVolume ∨
      trade.lifecycleState = .open ∧ after.lifecycleState = .closed ∧ after.currentVolume = some 0 ∨
      ∃ position, trade.shownBy positions orders clientOrderId = some position ∧
        ∃ v, SnapshotItem.safeDecimal (position.get "volume") = some v ∧ 0 ≤ v ∧ after.currentVolume = some v := by
  have hassign (position : SnapshotItem) : (trade.assign position).currentVolume = trade.currentVolume ∨
      ∃ v, SnapshotItem.safeDecimal (position.get "volume") = some v ∧ 0 ≤ v ∧ (trade.assign position).currentVolume = some v := by
    cases hvolume : position.volume with
    | none => exact .inl (by simp [assign, hvolume])
    | some v =>
      obtain ⟨hnumber, hnonneg⟩ := Option.filter_eq_some_iff.mp hvolume
      exact .inr ⟨v, hnumber, by simpa using hnonneg, by simp [assign, hvolume]⟩
  cases h with
  | finished | waiting | cancelled => exact .inl rfl
  | assigned hopen hshown =>
    exact (hassign _).imp_right fun hvalid => .inr ⟨_, by rw [shownBy, hopen]; exact hshown, hvalid⟩
  | closed hopen => exact .inr (.inl ⟨hopen, rfl, rfl⟩)
  | activated hpending horder hshown =>
    refine (hassign _).imp_right fun hvalid => .inr ⟨_, ?_, hvalid⟩
    simp only [shownBy, hpending, horder]
    exact hshown

end SessionTrade

/-- A snapshot is taken in at once, the only changes of the lifecycle are from open to closed and
from pending to open or cancelled, a finished trade stays as it is, and the volume takes no value
but one that is a number and not negative. -/
theorem snapshot_settles (trade : SessionTrade) (positions orders : List SnapshotItem) (clientOrderId : Option String)
    (observedAt again : Time) (hids : (positions.map SnapshotItem.idText).Nodup) :
    let after := (trade.applyBrokerSnapshot positions orders observedAt clientOrderId).1
    after.applyBrokerSnapshot positions orders again clientOrderId = ({ after with brokerSyncedAt := some again }, false) ∧
      (after.lifecycleState = trade.lifecycleState ∨
        trade.lifecycleState = .open ∧ after.lifecycleState = .closed ∨
        trade.lifecycleState = .pending ∧ (after.lifecycleState = .open ∨ after.lifecycleState = .cancelled)) ∧
      (trade.lifecycleState = .closed ∨ trade.lifecycleState = .cancelled → after = { trade with brokerSyncedAt := some observedAt }) ∧
      (after.currentVolume = trade.currentVolume ∨
        trade.lifecycleState = .open ∧ after.lifecycleState = .closed ∧ after.currentVolume = some 0 ∨
        ∃ position, trade.shownBy positions orders clientOrderId = some position ∧
          ∃ v, SnapshotItem.safeDecimal (position.get "volume") = some v ∧ 0 ≤ v ∧ after.currentVolume = some v) := by
  obtain ⟨after, changed, hstep, heq⟩ := trade.applyBrokerSnapshot_step positions orders observedAt clientOrderId
  simp only [heq]
  refine ⟨?_, hstep.lifecycle, fun hfinished => ?_, hstep.volume⟩
  · rw [SessionTrade.applyBrokerSnapshot_synced, hstep.settled hids]
  · rw [hstep.eq_of_finished]
    rcases hfinished with h | h <;> rw [h] <;> rfl

end

/-! ## A pending order that was filled -/

def filledOrder : SessionTrade where
  lifecycleState := .pending
  brokerOrderId := some "77"
  brokerPositionId := none
  currentVolume := some (1 / 10)
  stopLoss := none
  takeProfit := none
  brokerSyncedAt := none

def filledPositions : List SnapshotItem :=
  [⟨[("ticket", .number "98" false), ("volume", .number "0.2" false)]⟩,
    ⟨[("ticket", .number "99" false), ("comment", .string "cpid:CLIENT123"), ("volume", .number "nan" false), ("sl", .number "1.08" false)]⟩]

theorem snapshot_settles_filledOrder :
    let _ : Python := ⟨fun _ => "", fun _ => none⟩
    let _ := Unicode.ascii
    let after := (filledOrder.applyBrokerSnapshot filledPositions [] 0 (some "CLIENT123")).1
    after = { filledOrder with
        lifecycleState := .open, brokerPositionId := some "99", stopLoss := some 1.08, brokerSyncedAt := some 0 } ∧
      after.applyBrokerSnapshot filledPositions [] 1 (some "CLIENT123") = ({ after with brokerSyncedAt := some 1 }, false) := by
  intro _ _ after
  exact ⟨by decide +kernel, (snapshot_settles filledOrder filledPositions [] (some "CLIENT123") 0 1 (by decide +kernel)).1⟩

/-! ## Stored trades -/

section

variable [Python] [Unicode]

def CopiedTrade.load (trade : CopiedTrade) (brokerSyncedAt : Option Time) : SessionTrade where
  lifecycleState := trade.lifecycleState
  brokerOrderId := trade.brokerOrderId
  brokerPositionId := trade.brokerPositionId
  currentVolume := trade.currentVolume.map Lots.toRat
  stopLoss := trade.stopLoss.map Numeric.toRat
  takeProfit := trade.takeProfit.map Numeric.toRat
  brokerSyncedAt

/-- The row that is written back; the numbers are rounded to their columns. No snapshot makes a
volume negative. -/
def CopiedTrade.written (row : CopiedTrade) (trade : SessionTrade) : CopiedTrade :=
  { row with
    lifecycleState := trade.lifecycleState
    brokerOrderId := trade.brokerOrderId
    brokerPositionId := trade.brokerPositionId
    currentVolume := trade.currentVolume.map fun v => .ofRat (max 0 v) (Lots.zero_le_max v)
    stopLoss := trade.stopLoss.map (Numeric.ofRat 8)
    takeProfit := trade.takeProfit.map (Numeric.ofRat 8) }

/-- The position as it was read of the dictionary, where `text` writes a client id. -/
structure SnapshotItem.Shows (text : ClientOrderId → String) (item : SnapshotItem) (position : BrokerPosition) : Prop where
  id : item.idText = pyStr position.id
  volume : SnapshotItem.safeDecimal (item.get "volume") = position.volume
  stopLoss : item.stopLoss = position.stopLoss
  takeProfit : item.takeProfit = position.takeProfit
  activates (clientOrderId : ClientOrderId) : item.activates (some (text clientOrderId)) =
    (position.clientId = some clientOrderId || position.comment = some clientOrderId)

variable {text : ClientOrderId → String} {row : CopiedTrade} {item : SnapshotItem} {position : BrokerPosition}
  {items orders : List SnapshotItem} {snapshot : BrokerSnapshot} {time : Option Time}

omit [Python] [Unicode] in
theorem map_ofRat_toRat (price : Option Price) : (price.map Numeric.toRat).map (Numeric.ofRat 8) = price := by
  cases price with
  | none => rfl
  | some n => exact congrArg some (Numeric.ofRat_toRat n)

omit [Python] [Unicode] in
theorem written_load : row.written (row.load time) = row := by
  have hvolume : (row.currentVolume.map Lots.toRat).map (fun v => Lots.ofRat (max 0 v) (le_max_left _ _)) = row.currentVolume := by
    cases row.currentVolume with
    | none => rfl
    | some v => exact congrArg some (Lots.ofRat_max rfl)
  simp only [CopiedTrade.written, CopiedTrade.load, hvolume, map_ofRat_toRat]

omit [Python] [Unicode] in
/-- A change of the lifecycle alone is written as it is. -/
theorem written_lifecycle (state : LifecycleState) :
    row.written { row.load time with lifecycleState := state } = { row with lifecycleState := state } := by
  have hwritten : row.written (row.load time) = row := written_load
  exact congrArg (fun row : CopiedTrade => { row with lifecycleState := state }) hwritten

/-- `applyPosition` is the assignment, written back. -/
theorem written_assign (h : item.Shows text position) :
    (row.written ((row.load time).assign item), (row.load time).differs item) = applyPosition row position := by
  have hread : item.volume = position.volume.filter (0 ≤ ·) := by rw [SnapshotItem.volume, h.volume]
  have hvolume (volume : Option ℚ) :
      (volume <|> row.currentVolume.map Lots.toRat).map (fun v => Lots.ofRat (max 0 v) (le_max_left _ _)) =
        (volume.map (fun v => Lots.ofRat (max 0 v) (le_max_left _ _)) <|> row.currentVolume) := by
    cases volume with
    | none =>
      cases row.currentVolume with
      | none => rfl
      | some v => exact congrArg some (Lots.ofRat_max rfl)
    | some v => rfl
  simp only [applyPosition, CopiedTrade.written, CopiedTrade.load, SessionTrade.assign, SessionTrade.differs, hread, hvolume,
    h.stopLoss, h.takeProfit]
  rfl

/-- The first item with a property is shown by the first position with it. -/
theorem find?_shows {positions : List BrokerPosition} (h : List.Forall₂ (SnapshotItem.Shows text) items positions)
    {p : SnapshotItem → Bool} {q : BrokerPosition → Bool} (hpq : ∀ item position, item.Shows text position → p item = q position) :
    items.find? p = none ∧ positions.find? q = none ∨
      ∃ item position, items.find? p = some item ∧ positions.find? q = some position ∧ item.Shows text position := by
  induction h with
  | nil => exact .inl ⟨rfl, rfl⟩
  | @cons item position items positions hshows _ ih =>
    rw [List.find?_cons, List.find?_cons, hpq item position hshows]
    cases q position with
    | true => exact .inr ⟨item, position, rfl, rfl, hshows⟩
    | false => exact ih

/-- Over stored trades, and with the snapshot as it was read. -/
theorem applyBrokerSnapshot_refines (row : CopiedTrade) (time : Option Time) (observedAt : Time) (clientOrderId : ClientOrderId)
    (hpositions : List.Forall₂ (SnapshotItem.Shows text) items snapshot.positions)
    (horders : orders.map SnapshotItem.idText = snapshot.orders.map pyStr) :
    let (trade, changed) := (row.load time).applyBrokerSnapshot items orders observedAt (some (text clientOrderId))
    (SyncedTrade.mk (row.written trade) trade.brokerSyncedAt, changed) =
      applyBrokerSnapshot ⟨row, time⟩ clientOrderId snapshot observedAt := by
  have hid := find?_shows hpositions (p := fun item => item.idText = pyStr row.brokerPositionId)
    (q := fun position => pyStr position.id = pyStr row.brokerPositionId) fun item position h => by rw [h.id]
  have hactivates := find?_shows hpositions (p := fun item => item.activates (some (text clientOrderId)))
    fun item position h => h.activates clientOrderId
  have hany : (orders.any fun item : SnapshotItem => item.idText = pyStr row.brokerOrderId) =
      snapshot.orders.any fun order => pyStr order = pyStr row.brokerOrderId := by
    have hany := congrArg (List.any · (· = pyStr row.brokerOrderId)) horders
    rwa [List.any_map, List.any_map] at hany
  obtain ⟨after, changed, hstep, heq⟩ :=
    (row.load time).applyBrokerSnapshot_step items orders observedAt (some (text clientOrderId))
  rw [heq]
  -- the time aside, both are the row that is written back
  suffices hrow : (row.written after, changed) = updateFromSnapshot row clientOrderId snapshot by
    rw [applyBrokerSnapshot, ← hrow]
    rfl
  cases hstep with
  | finished hfinished => rw [updateFromSnapshot_finished hfinished, written_load]
  | @assigned item hopen hshown =>
    obtain ⟨hnone, -⟩ | ⟨_, position, hsome, hposition, hshows⟩ := hid
    · cases hnone.symm.trans hshown
    · cases hsome.symm.trans hshown
      rw [written_assign hshows, updateFromSnapshot, show row.lifecycleState = .open from hopen]
      simp only [hposition]
  | closed hopen hgone =>
    obtain ⟨-, hposition⟩ | ⟨_, _, hsome, -⟩ := hid
    · rw [updateFromSnapshot, show row.lifecycleState = .open from hopen]
      simp only [hposition]
      have hzero : Lots.ofRat (max 0 0) (le_max_left _ _) = 0 := by decide +kernel
      refine Prod.ext ?_ rfl
      simp only [CopiedTrade.written, CopiedTrade.load, map_ofRat_toRat, Option.map_some, hzero]
    · cases hsome.symm.trans hgone
  | waiting hpending horder =>
    rw [updateFromSnapshot, show row.lifecycleState = .pending from hpending, written_load]
    simp only [hany.symm.trans horder, if_true]
  | @activated item hpending horder hshown =>
    obtain ⟨hnone, -⟩ | ⟨_, position, hsome, hposition, hshows⟩ := hactivates
    · cases hnone.symm.trans hshown
    · cases hsome.symm.trans hshown
      rw [updateFromSnapshot, show row.lifecycleState = .pending from hpending]
      have hassigned : (row.written ((row.load time).assign item), (row.load time).differs item) = applyPosition row position :=
        written_assign hshows
      simp only [hany.symm.trans horder, hposition, ← hassigned, hshows.id]
      rfl
  | cancelled hpending horder hgone =>
    obtain ⟨-, hposition⟩ | ⟨_, _, hsome, -⟩ := hactivates
    · rw [updateFromSnapshot, show row.lifecycleState = .pending from hpending, written_lifecycle]
      simp only [hany.symm.trans horder, hposition]
      rfl
    · cases hsome.symm.trans hgone

end

end SignalSync
