import SignalSync.Routes.Service
import SignalSync.Library.Text

/-!
# The settings of routes and accounts

The requests that create and update a route and update an account's policy, with
the checks of their schemas. A field of an update is unset, null or a value. An
update of a route is checked on the row and its changes together, and only the
fields that were set are written; the policy's lists of symbols are checked
against each other only where a request sends both.

* `setFields_eq_merged`: the row after an update is the one that was checked;
* `route_configuration`: what holds of every stored route;
* `policy_configuration`: what holds of every stored policy, as long as a list sent
  alone has no symbol of the other one.
-/

namespace SignalSync

open Library

namespace Routes

/-! ## Payloads -/

/-- A field of an update: unset, null or a value. -/
abbrev Field (α : Type) := Option (Option α)

namespace Field

variable {α : Type}

/-- The attribute of the payload; an unset field is null there. -/
def value (f : Field α) : Option α := f.join

/-- The field, or what is stored if it is unset. -/
def orStored (f : Field α) (stored : Option α) : Option α := f.getD stored

/-- The attribute after `setattr` where the field is set. -/
def set (f : Field α) (validated stored : α) : α := if f.isSome then validated else stored

/-- Set to null, which a column that is required does not take. -/
def isNull : Field α → Bool
  | some none => true
  | _ => false

theorem set_value {f : Field α} {stored : α} (h : f.isNull = false) : f.set (f.value.getD stored) stored = f.value.getD stored := by
  cases f with
  | none => rfl
  | some value => rfl

end Field

/-- `UNSAFE_MINIMUM_FIELDS`. -/
def unsafeMinimumFields (minimum : MinimumFields) : Bool :=
  minimum = .direction_symbol || minimum = .direction_symbol_entry || minimum = .direction_symbol_sl ||
    minimum = .direction_symbol_tp

/-- For the text of the field that is out of its bounds. -/
def boundsError : String := "Input should be within the bounds of the field."

def splitError : String := "Split lot is available only when all take profits are enabled."

def unsafeError : String := "Unsafe minimum fields require explicit warning confirmation."

/-- The user, the state and the state before a pause are not read. -/
structure CopyRouteCreate where
  settings : CopyRoute
  unsafeMinimumConfirmed : Bool := false

/-- At most twelve digits, four of them decimal places. -/
def lotFits (lot : Numeric 4) : Bool := 0 < lot.units && lot.units < 10 ^ 12

def assemblyWindowFits (window : Option Nat) : Bool := window.all fun n => 1 ≤ n && n ≤ 600

/-- The bounds of the fields, then `validate_route_settings`. -/
def CopyRouteCreate.validate (payload : CopyRouteCreate) : Except String Unit :=
  let settings := payload.settings
  if !lotFits settings.fixedLot || !assemblyWindowFits settings.assemblyWindowSeconds ||
      3600 < settings.semanticDuplicateWindowSeconds then
    .error boundsError
  else if settings.lotDistribution = .split_total && settings.takeProfitMode ≠ .all then .error splitError
  else if unsafeMinimumFields settings.minimumFields && !payload.unsafeMinimumConfirmed then .error unsafeError
  else .ok ()

structure CopyRouteUpdate where
  fixedLot : Field (Numeric 4) := none
  takeProfitMode : Field TakeProfitMode := none
  lotDistribution : Field LotDistribution := none
  pendingOrdersEnabled : Field Bool := none
  minimumFields : Field MinimumFields := none
  assemblyWindowSeconds : Field Nat := none
  processAllGroupAuthors : Field Bool := none
  semanticDuplicateWindowSeconds : Field Nat := none
  allowSlTpUpdates : Field Bool := none
  allowBreakEven : Field Bool := none
  allowAdditionalTp : Field Bool := none
  allowPartialClose : Field Bool := none
  allowFullClose : Field Bool := none
  allowPendingCancel : Field Bool := none
  unsafeMinimumConfirmed : Field Bool := none

/-- The bounds of the fields, then `validate_explicit_route_settings`. -/
def CopyRouteUpdate.validate (payload : CopyRouteUpdate) : Except String Unit :=
  if !payload.fixedLot.value.all lotFits || !assemblyWindowFits payload.assemblyWindowSeconds.value ||
      payload.semanticDuplicateWindowSeconds.value.any (3600 < ·) then
    .error boundsError
  else if payload.lotDistribution.value = some .split_total && payload.takeProfitMode.value.any (· ≠ .all) then
    .error splitError
  else if payload.minimumFields.value.any unsafeMinimumFields && payload.unsafeMinimumConfirmed.value ≠ some true then
    .error unsafeError
  else .ok ()

structure CopyAccountPolicyUpdate where
  maxLot : Field (Numeric 4) := none
  maxLotPerTrade : Field (Numeric 4) := none
  maxOpenPositions : Field Nat := none
  dailyLossLimit : Field (Numeric 2) := none
  maxDrawdownPercent : Field (Numeric 2) := none
  allowedSymbols : Field (List String) := none
  blockedSymbols : Field (List String) := none
  marketSignalMaxAgeSeconds : Field Nat := none
  maxSpreadPoints : Field Nat := none
  maxSlippagePoints : Field Nat := none
  maxQuoteAgeSeconds : Field Nat := none
  highSpreadBehavior : Field HighSpreadBehavior := none
  tradingStartHourUtc : Field Nat := none
  tradingEndHourUtc : Field Nat := none
  isPaused : Field Bool := none

/-- The bounds of a policy's fields. -/
def CopyAccountPolicyUpdate.fits (payload : CopyAccountPolicyUpdate) : Bool :=
  payload.maxLot.value.all lotFits && payload.maxLotPerTrade.value.all lotFits &&
    payload.maxOpenPositions.value.all (fun n => 1 ≤ n && n ≤ 1000) &&
    payload.dailyLossLimit.value.all (fun limit => 0 < limit.units && limit.units < 10 ^ 20) &&
    payload.maxDrawdownPercent.value.all (fun percent => 0 < percent.units && percent.units ≤ 10000) &&
    payload.allowedSymbols.value.all (·.length ≤ 200) && payload.blockedSymbols.value.all (·.length ≤ 200) &&
    payload.marketSignalMaxAgeSeconds.value.all (fun n => 1 ≤ n && n ≤ 3600) &&
    payload.maxSpreadPoints.value.all (· ≤ 100000) && payload.maxSlippagePoints.value.all (· ≤ 100000) &&
    payload.maxQuoteAgeSeconds.value.all (fun n => 1 ≤ n && n ≤ 300) &&
    payload.tradingStartHourUtc.value.all (· ≤ 23) && payload.tradingEndHourUtc.value.all (· ≤ 23)

section

variable [Unicode]

/-- `normalize_symbol_lists`, on one list: stripped, in upper case, without blanks. -/
def normalizeSymbols (symbols : List String) : List String :=
  (((symbols.filter fun symbol => Unicode.strip symbol ≠ "").map fun symbol =>
    Unicode.upper (Unicode.strip symbol)).dedup).insertionSort (· ≤ ·)

/-- The payload with its lists normalized, if no symbol is in both. -/
def CopyAccountPolicyUpdate.validate (payload : CopyAccountPolicyUpdate) : Except String CopyAccountPolicyUpdate :=
  let payload :=
    { payload with
      allowedSymbols := payload.allowedSymbols.map (·.map normalizeSymbols)
      blockedSymbols := payload.blockedSymbols.map (·.map normalizeSymbols) }
  let overlap := (payload.allowedSymbols.value.getD []).filter (· ∈ payload.blockedSymbols.value.getD [])
  if !payload.fits then .error boundsError
  else if overlap ≠ [] then .error ("A symbol cannot be both allowed and blocked: " ++ ", ".intercalate overlap)
  else .ok payload

end

/-! ## The requests -/

/-- The tables, and the column `unsafe_minimum_confirmed_at` of the routes. -/
structure ConfigurationState where
  db : Database
  confirmedAt : Uuid → Option Time := fun _ => none

/-- `get_or_create_account_policy`. -/
def getOrCreateAccountPolicy (db : Database) (connectionId : Uuid) : CopyAccountPolicy × Database :=
  let policies := db.policies.add connectionId {}
  ((policies.get? connectionId).getD {}, { db with policies })

def lotError : HttpError := ⟨422, "Fixed lot exceeds this account's configured trade or exposure limit."⟩

def internalError : HttpError := ⟨500, "Internal Server Error"⟩

/-- A field that `CopyRouteCreate` requires is null. -/
def CopyRouteUpdate.hasNull (payload : CopyRouteUpdate) : Bool :=
  payload.fixedLot.isNull || payload.takeProfitMode.isNull || payload.lotDistribution.isNull ||
    payload.pendingOrdersEnabled.isNull || payload.minimumFields.isNull || payload.processAllGroupAuthors.isNull ||
    payload.semanticDuplicateWindowSeconds.isNull || payload.allowSlTpUpdates.isNull || payload.allowBreakEven.isNull ||
    payload.allowAdditionalTp.isNull || payload.allowPartialClose.isNull || payload.allowFullClose.isNull ||
    payload.allowPendingCancel.isNull

/-- The stored row with the changes over it, as `CopyRouteCreate`. -/
def merged (route : CopyRoute) (confirmedAt : Option Time) (payload : CopyRouteUpdate) : Option CopyRouteCreate :=
  if payload.hasNull then none
  else if fixedLot_pos : 0 < (payload.fixedLot.value.getD route.fixedLot).units then
    some
      { settings :=
          { route with
            fixedLot := payload.fixedLot.value.getD route.fixedLot
            fixedLot_pos
            takeProfitMode := payload.takeProfitMode.value.getD route.takeProfitMode
            lotDistribution := payload.lotDistribution.value.getD route.lotDistribution
            pendingOrdersEnabled := payload.pendingOrdersEnabled.value.getD route.pendingOrdersEnabled
            minimumFields := payload.minimumFields.value.getD route.minimumFields
            processAllGroupAuthors := payload.processAllGroupAuthors.value.getD route.processAllGroupAuthors
            semanticDuplicateWindowSeconds := payload.semanticDuplicateWindowSeconds.value.getD route.semanticDuplicateWindowSeconds
            allowSlTpUpdates := payload.allowSlTpUpdates.value.getD route.allowSlTpUpdates
            allowBreakEven := payload.allowBreakEven.value.getD route.allowBreakEven
            allowAdditionalTp := payload.allowAdditionalTp.value.getD route.allowAdditionalTp
            allowPartialClose := payload.allowPartialClose.value.getD route.allowPartialClose
            allowFullClose := payload.allowFullClose.value.getD route.allowFullClose
            allowPendingCancel := payload.allowPendingCancel.value.getD route.allowPendingCancel
            assemblyWindowSeconds := payload.assemblyWindowSeconds.orStored route.assemblyWindowSeconds }
        unsafeMinimumConfirmed := payload.unsafeMinimumConfirmed.value.getD confirmedAt.isSome }
  else none

/-- The fields of the payload that are set, as validated. -/
def setFields (payload : CopyRouteUpdate) (validated route : CopyRoute) : CopyRoute :=
  { route with
    fixedLot := payload.fixedLot.set validated.fixedLot route.fixedLot
    takeProfitMode := payload.takeProfitMode.set validated.takeProfitMode route.takeProfitMode
    lotDistribution := payload.lotDistribution.set validated.lotDistribution route.lotDistribution
    pendingOrdersEnabled := payload.pendingOrdersEnabled.set validated.pendingOrdersEnabled route.pendingOrdersEnabled
    minimumFields := payload.minimumFields.set validated.minimumFields route.minimumFields
    assemblyWindowSeconds :=
      if payload.assemblyWindowSeconds.isSome then validated.assemblyWindowSeconds else route.assemblyWindowSeconds
    processAllGroupAuthors := payload.processAllGroupAuthors.set validated.processAllGroupAuthors route.processAllGroupAuthors
    semanticDuplicateWindowSeconds :=
      payload.semanticDuplicateWindowSeconds.set validated.semanticDuplicateWindowSeconds route.semanticDuplicateWindowSeconds
    allowSlTpUpdates := payload.allowSlTpUpdates.set validated.allowSlTpUpdates route.allowSlTpUpdates
    allowBreakEven := payload.allowBreakEven.set validated.allowBreakEven route.allowBreakEven
    allowAdditionalTp := payload.allowAdditionalTp.set validated.allowAdditionalTp route.allowAdditionalTp
    allowPartialClose := payload.allowPartialClose.set validated.allowPartialClose route.allowPartialClose
    allowFullClose := payload.allowFullClose.set validated.allowFullClose route.allowFullClose
    allowPendingCancel := payload.allowPendingCancel.set validated.allowPendingCancel route.allowPendingCancel
    fixedLot_pos := by
      unfold Field.set
      split
      · exact validated.fixedLot_pos
      · exact route.fixedLot_pos }

/-- `unsafe_minimum_confirmed_at` after an update. -/
def confirmation (now : Time) (payload : CopyRouteUpdate) (minimum : MinimumFields) (confirmedAt : Option Time) : Option Time :=
  if payload.minimumFields.isSome && unsafeMinimumFields minimum && payload.unsafeMinimumConfirmed.value.getD false then some now
  else if !unsafeMinimumFields minimum then none
  else confirmedAt

section

variable [Owners] (user : Uuid) (now : Time) (s : ConfigurationState)

/-- The request, with its schema, that creates a route. -/
def createConfiguredRoute (id : Uuid) (payload : CopyRouteCreate) : Except HttpError ConfigurationState :=
  match payload.validate with
  | .error e => .error ⟨422, e⟩
  | .ok () => (createRoute user s.db id payload.settings).map fun db =>
      { db
        confirmedAt := Function.update s.confirmedAt id
          (if unsafeMinimumFields payload.settings.minimumFields then some now else none) }

def updateRoute (id : Uuid) (payload : CopyRouteUpdate) : Except HttpError ConfigurationState :=
  match payload.validate with
  | .error e => .error ⟨422, e⟩
  | .ok () =>
    match ownedRoute user s.db id with
    | .error e => .error e
    | .ok route =>
      match merged route (s.confirmedAt id) payload, route.targetConnectionId with
      | some validated, some connectionId =>
        match validated.validate with
        | .error _ => .error internalError
        | .ok () =>
          let (policy, db) := getOrCreateAccountPolicy s.db connectionId
          if policy.maxLot.toRat < validated.settings.fixedLot.toRat ∨
              policy.maxLotPerTrade.toRat < validated.settings.fixedLot.toRat then
            .error lotError
          else .ok
            { db := { db with routes := db.routes.modify id (setFields payload validated.settings) }
              confirmedAt := Function.update s.confirmedAt id
                (confirmation now payload validated.settings.minimumFields (s.confirmedAt id)) }
      | _, _ => .error internalError

/-- `max_fixed_lot_for_connection`. -/
def maxFixedLotForConnection (db : Database) (connectionId : Uuid) : Option (Numeric 4) :=
  ((db.routes.select fun _ route => route.userId = user && route.targetConnectionId = some connectionId).map
    fun e => e.2.fixedLot.units).max?.map fun units => ⟨units⟩

end

def hoursError : HttpError := ⟨422, "Trading start and end hours must be set or cleared together."⟩

/-- A `Numeric(12, 4)` as text. -/
def lotText (lot : Numeric 4) : String :=
  let fraction := toString (lot.units.toNat % 10000)
  toString (lot.units.toNat / 10000) ++ "." ++ "".pushn '0' (4 - fraction.length) ++ fraction

def capError (label : String) (largest : Numeric 4) : HttpError :=
  ⟨409, "The " ++ label ++ " limit cannot be lower than the largest configured route lot (" ++ lotText largest ++ ")."⟩

/-- A cap that is lower than the largest route lot. -/
def capBelow (cap largest : Option (Numeric 4)) : Option (Numeric 4) :=
  largest.filter fun largest => cap.any fun cap => cap.toRat < largest.toRat

/-- A column that is required is to be null; a list that is null has no symbols. -/
def CopyAccountPolicyUpdate.hasNull (payload : CopyAccountPolicyUpdate) : Bool :=
  payload.maxLot.isNull || payload.maxLotPerTrade.isNull || payload.maxOpenPositions.isNull ||
    payload.marketSignalMaxAgeSeconds.isNull || payload.maxQuoteAgeSeconds.isNull || payload.highSpreadBehavior.isNull ||
    payload.isPaused.isNull

/-- The row after `setattr` of the changes. -/
def CopyAccountPolicyUpdate.write (payload : CopyAccountPolicyUpdate) (policy : CopyAccountPolicy) : CopyAccountPolicy where
  maxLot := payload.maxLot.value.getD policy.maxLot
  maxLotPerTrade := payload.maxLotPerTrade.value.getD policy.maxLotPerTrade
  maxOpenPositions := payload.maxOpenPositions.value.getD policy.maxOpenPositions
  marketSignalMaxAgeSeconds := payload.marketSignalMaxAgeSeconds.value.getD policy.marketSignalMaxAgeSeconds
  maxQuoteAgeSeconds := payload.maxQuoteAgeSeconds.value.getD policy.maxQuoteAgeSeconds
  highSpreadBehavior := payload.highSpreadBehavior.value.getD policy.highSpreadBehavior
  isPaused := payload.isPaused.value.getD policy.isPaused
  dailyLossLimit := payload.dailyLossLimit.orStored policy.dailyLossLimit
  maxDrawdownPercent := payload.maxDrawdownPercent.orStored policy.maxDrawdownPercent
  allowedSymbols := (payload.allowedSymbols.orStored (some policy.allowedSymbols)).getD []
  blockedSymbols := (payload.blockedSymbols.orStored (some policy.blockedSymbols)).getD []
  maxSpreadPoints := payload.maxSpreadPoints.orStored policy.maxSpreadPoints
  maxSlippagePoints := payload.maxSlippagePoints.orStored policy.maxSlippagePoints
  tradingStartHourUtc := payload.tradingStartHourUtc.orStored policy.tradingStartHourUtc
  tradingEndHourUtc := payload.tradingEndHourUtc.orStored policy.tradingEndHourUtc
  dailyEquityAnchor := if payload.dailyLossLimit.isSome then none else policy.dailyEquityAnchor
  dailyEquityAnchorDate := if payload.dailyLossLimit.isSome then none else policy.dailyEquityAnchorDate
  peakEquity := if payload.maxDrawdownPercent.isSome then none else policy.peakEquity

section

variable [Owners] [Unicode]

def updateAccountPolicy (user : Uuid) (s : ConfigurationState) (connectionId : Uuid) (payload : CopyAccountPolicyUpdate) :
    Except HttpError ConfigurationState :=
  match payload.validate with
  | .error e => .error ⟨422, e⟩
  | .ok payload =>
    match ownedReadyCopyConnection user s.db connectionId with
    | .error e => .error e
    | .ok _ =>
      let (policy, db) := getOrCreateAccountPolicy s.db connectionId
      let startHour := payload.tradingStartHourUtc.orStored policy.tradingStartHourUtc
      let endHour := payload.tradingEndHourUtc.orStored policy.tradingEndHourUtc
      let largest := maxFixedLotForConnection user db connectionId
      if startHour.isNone ≠ endHour.isNone then .error hoursError
      else match capBelow payload.maxLot.value largest, capBelow payload.maxLotPerTrade.value largest with
      | some lot, _ => .error (capError "total exposure" lot)
      | none, some lot => .error (capError "per-trade size" lot)
      | none, none =>
        if payload.hasNull then .error internalError
        else .ok { s with db := { db with policies := db.policies.modify connectionId payload.write } }

end

/-! ## The system -/

inductive ConfigurationLabel
  | createRoute (user : Uuid) (now : Time) (id : Uuid) (payload : CopyRouteCreate)
  | updateRoute (user : Uuid) (now : Time) (id : Uuid) (payload : CopyRouteUpdate)
  | updateAccountPolicy (user connectionId : Uuid) (payload : CopyAccountPolicyUpdate)
  /-- Sources and connections come, change and go. -/
  | elsewhere (sources : Table Uuid TelegramSource) (connections : Table Uuid CopyTradingConnection)

namespace ConfigurationState

/-- Before the first request. -/
def initial (db : Database) : ConfigurationState where
  db := { db with routes := ∅, policies := ∅ }

variable [Owners] [Unicode]

/-- The requests that are accepted; the others change nothing. -/
def step (s : ConfigurationState) : ConfigurationLabel → Option ConfigurationState
  | .createRoute user now id payload => (createConfiguredRoute user now s id payload).toOption
  | .updateRoute user now id payload => (updateRoute user now s id payload).toOption
  | .updateAccountPolicy user connectionId payload => (updateAccountPolicy user s connectionId payload).toOption
  | .elsewhere sources connections => some { s with db := { s.db with sources, connections } }

end ConfigurationState

/-! ## What a request writes -/

variable {route : CopyRoute} {confirmedAt : Option Time} {payload : CopyRouteUpdate} {validated : CopyRouteCreate}

theorem merged_eq_some (h : merged route confirmedAt payload = some validated) :
    payload.hasNull = false ∧ validated.settings.userId = route.userId ∧
      validated.settings.targetConnectionId = route.targetConnectionId ∧
      validated.settings.minimumFields = payload.minimumFields.value.getD route.minimumFields ∧
      validated.unsafeMinimumConfirmed = payload.unsafeMinimumConfirmed.value.getD confirmedAt.isSome := by
  unfold merged at h
  split at h
  · cases h
  · rename_i hnull
    split at h <;> cases h
    exact ⟨Bool.eq_false_of_not_eq_true hnull, rfl, rfl, rfl, rfl⟩

/-- The row that an update writes is the one it has checked. -/
theorem setFields_eq_merged (h : merged route confirmedAt payload = some validated) :
    setFields payload validated.settings route = validated.settings := by
  have hnull := (merged_eq_some h).1
  simp only [CopyRouteUpdate.hasNull, Bool.or_eq_false_iff] at hnull
  obtain ⟨⟨⟨⟨⟨⟨⟨⟨⟨⟨⟨⟨h₁, h₂⟩, h₃⟩, h₄⟩, h₅⟩, h₆⟩, h₇⟩, h₈⟩, h₉⟩, h₁₀⟩, h₁₁⟩, h₁₂⟩, h₁₃⟩ := hnull
  unfold merged at h
  split at h
  · cases h
  · split at h <;> cases h
    have hwindow : (if payload.assemblyWindowSeconds.isSome then payload.assemblyWindowSeconds.orStored route.assemblyWindowSeconds
        else route.assemblyWindowSeconds) = payload.assemblyWindowSeconds.orStored route.assemblyWindowSeconds := by
      cases payload.assemblyWindowSeconds <;> rfl
    simp only [setFields, hwindow, Field.set_value h₁, Field.set_value h₂, Field.set_value h₃, Field.set_value h₄,
      Field.set_value h₅, Field.set_value h₆, Field.set_value h₇, Field.set_value h₈, Field.set_value h₉,
      Field.set_value h₁₀, Field.set_value h₁₁, Field.set_value h₁₂, Field.set_value h₁₃]

/-- The policies once the connection has one. -/
abbrev withPolicy (db : Database) (connectionId : Uuid) : Table Uuid CopyAccountPolicy := db.policies.add connectionId {}

/-- Neither limit of the policy is lower than the lot. -/
structure CopyAccountPolicy.Admits (policy : CopyAccountPolicy) (lot : Numeric 4) : Prop where
  maxLot : lot.toRat ≤ policy.maxLot.toRat
  maxLotPerTrade : lot.toRat ≤ policy.maxLotPerTrade.toRat

theorem admits_of_not {policy : CopyAccountPolicy} {lot : Numeric 4}
    (h : ¬ (policy.maxLot.toRat < lot.toRat ∨ policy.maxLotPerTrade.toRat < lot.toRat)) : CopyAccountPolicy.Admits policy lot :=
  ⟨not_lt.mp fun hl => h (.inl hl), not_lt.mp fun hl => h (.inr hl)⟩

theorem get?_withPolicy (db : Database) (connectionId : Uuid) :
    ∃ policy, (withPolicy db connectionId).get? connectionId = some policy ∧
      ((withPolicy db connectionId).get? connectionId).getD {} = policy := by
  rw [withPolicy, Table.get?_add]
  cases db.policies.get? connectionId with
  | none => exact ⟨{}, by simp⟩
  | some policy => exact ⟨policy, by simp⟩

theorem get?_withPolicy_of_some {db : Database} {connectionId id : Uuid} {policy : CopyAccountPolicy}
    (h : db.policies.get? id = some policy) : (withPolicy db connectionId).get? id = some policy := by
  rw [withPolicy, Table.get?_add, h]
  rfl

section

variable [Owners] [Unicode] {s t : ConfigurationState} {l : ConfigurationLabel}

/-- What an accepted request has found, and what it writes. -/
inductive ConfigurationCase (s : ConfigurationState) : ConfigurationLabel → ConfigurationState → Prop
  | created {user id connectionId : Uuid} {now : Time} {payload : CopyRouteCreate} {policy : CopyAccountPolicy}
      {routes : Table Uuid CopyRoute} (hv : payload.validate = .ok ()) (ht : payload.settings.targetConnectionId = some connectionId)
      (ho : Owners.ofConnection connectionId = user) (hp : (withPolicy s.db connectionId).get? connectionId = some policy)
      (hl : CopyAccountPolicy.Admits policy payload.settings.fixedLot)
      (hr : s.db.routes.push id { payload.settings with userId := user, state := .ready, pausedFromState := none } = some routes) :
      ConfigurationCase s (.createRoute user now id payload)
        { db := { s.db with policies := withPolicy s.db connectionId, routes }
          confirmedAt := Function.update s.confirmedAt id
            (if unsafeMinimumFields payload.settings.minimumFields then some now else none) }
  | updated {user id connectionId : Uuid} {now : Time} {payload : CopyRouteUpdate} {policy : CopyAccountPolicy} {route : CopyRoute}
      {validated : CopyRouteCreate} (hv : payload.validate = .ok ()) (hr : s.db.routes.get? id = some route)
      (hm : merged route (s.confirmedAt id) payload = some validated) (ht : route.targetConnectionId = some connectionId)
      (hw : validated.validate = .ok ()) (hp : (withPolicy s.db connectionId).get? connectionId = some policy)
      (hl : CopyAccountPolicy.Admits policy validated.settings.fixedLot) :
      ConfigurationCase s (.updateRoute user now id payload)
        { db := { s.db with
            policies := withPolicy s.db connectionId
            routes := s.db.routes.modify id (setFields payload validated.settings) }
          confirmedAt := Function.update s.confirmedAt id
            (confirmation now payload validated.settings.minimumFields (s.confirmedAt id)) }
  | policy {user connectionId : Uuid} {payload normalized : CopyAccountPolicyUpdate} {policy : CopyAccountPolicy}
      (hv : payload.validate = .ok normalized) (ho : Owners.ofConnection connectionId = user)
      (hp : (withPolicy s.db connectionId).get? connectionId = some policy)
      (hh : (normalized.tradingStartHourUtc.orStored policy.tradingStartHourUtc).isNone =
        (normalized.tradingEndHourUtc.orStored policy.tradingEndHourUtc).isNone)
      (hc : capBelow normalized.maxLot.value (maxFixedLotForConnection user s.db connectionId) = none)
      (ht : capBelow normalized.maxLotPerTrade.value (maxFixedLotForConnection user s.db connectionId) = none)
      (hn : normalized.hasNull = false) :
      ConfigurationCase s (.updateAccountPolicy user connectionId payload)
        { s with db := { s.db with policies := (withPolicy s.db connectionId).modify connectionId normalized.write } }
  | elsewhere {sources : Table Uuid TelegramSource} {connections : Table Uuid CopyTradingConnection} :
      ConfigurationCase s (.elsewhere sources connections) { s with db := { s.db with sources, connections } }

omit [Unicode] in
theorem ownedReadyCopyConnection_owner {user id : Uuid} {db : Database} {connection : CopyTradingConnection}
    (h : ownedReadyCopyConnection user db id = .ok connection) : Owners.ofConnection id = user := by
  unfold ownedReadyCopyConnection ownedCopyConnection at h
  cases hf : (db.connections.get? id).filter fun _ => Owners.ofConnection id = user with
  | none => simp [hf] at h
  | some connection' => simpa using (Option.filter_eq_some_iff.mp hf).2

theorem createConfiguredRoute_cases {user id : Uuid} {now : Time} {payload : CopyRouteCreate}
    (h : createConfiguredRoute user now s id payload = .ok t) : ConfigurationCase s (.createRoute user now id payload) t := by
  unfold createConfiguredRoute at h
  cases hv : payload.validate <;> simp only [hv] at h
  · cases h
  cases hdb : createRoute user s.db id payload.settings <;> rw [hdb] at h <;> cases h
  unfold createRoute at hdb
  cases ht : payload.settings.targetConnectionId with
  | none => simp [ht] at hdb
  | some connectionId =>
    simp only [ht] at hdb
    split at hdb
    · cases hc : ownedReadyCopyConnection user s.db connectionId <;> simp only [hc] at hdb
      · cases hdb
      · split at hdb
        · cases hdb
        · split at hdb
          · cases hdb
          · rename_i hl
            split at hdb <;> cases hdb
            rename_i hr
            obtain ⟨policy, hp, hd⟩ := get?_withPolicy s.db connectionId
            rw [hd] at hl
            exact .created hv ht (ownedReadyCopyConnection_owner hc) hp (admits_of_not hl) (by simpa only [ht] using hr)
    · cases hdb

theorem updateRoute_cases {user id : Uuid} {now : Time} {payload : CopyRouteUpdate}
    (h : updateRoute user now s id payload = .ok t) : ConfigurationCase s (.updateRoute user now id payload) t := by
  unfold updateRoute at h
  cases hv : payload.validate <;> simp only [hv] at h
  · cases h
  cases hr : ownedRoute user s.db id <;> simp only [hr] at h
  · cases h
  rename_i route
  cases hm : merged route (s.confirmedAt id) payload <;> simp only [hm] at h
  · cases h
  rename_i validated
  cases ht : route.targetConnectionId <;> simp only [ht] at h
  · cases h
  rename_i connectionId
  cases hw : validated.validate <;> simp only [hw] at h
  · cases h
  split at h
  · cases h
  · rename_i hl
    cases h
    obtain ⟨policy, hp, hd⟩ := get?_withPolicy s.db connectionId
    rw [getOrCreateAccountPolicy, hd] at hl
    exact .updated hv (ownedRoute_eq_ok hr) hm ht hw hp (admits_of_not hl)

theorem updateAccountPolicy_cases {user connectionId : Uuid} {payload : CopyAccountPolicyUpdate}
    (h : updateAccountPolicy user s connectionId payload = .ok t) :
    ConfigurationCase s (.updateAccountPolicy user connectionId payload) t := by
  unfold updateAccountPolicy at h
  cases hv : payload.validate <;> simp only [hv] at h
  · cases h
  rename_i normalized
  cases hc : ownedReadyCopyConnection user s.db connectionId <;> simp only [hc] at h
  · cases h
  obtain ⟨policy, hp, hd⟩ := get?_withPolicy s.db connectionId
  simp only [getOrCreateAccountPolicy, hd] at h
  split at h
  · cases h
  · rename_i hh
    split at h
    · cases h
    · cases h
    · rename_i hlot hper
      split at h <;> cases h
      rename_i hn
      exact .policy hv (ownedReadyCopyConnection_owner hc) hp (not_ne_iff.mp hh) hlot hper (Bool.eq_false_of_not_eq_true hn)

theorem ConfigurationState.step_cases (h : s.step l = some t) : ConfigurationCase s l t := by
  have of_toOption {r : Except HttpError ConfigurationState} (h : r.toOption = some t) : r = .ok t := by
    cases r <;> cases h
    rfl
  cases l with
  | createRoute user now id payload => exact createConfiguredRoute_cases (of_toOption h)
  | updateRoute user now id payload => exact updateRoute_cases (of_toOption h)
  | updateAccountPolicy user connectionId payload => exact updateAccountPolicy_cases (of_toOption h)
  | elsewhere sources connections =>
    cases h
    exact .elsewhere

end

/-! ## Routes -/

section

theorem CopyRouteCreate.of_validate (h : validated.validate = .ok ()) :
    (validated.settings.lotDistribution = .split_total → validated.settings.takeProfitMode = .all) ∧
      (unsafeMinimumFields validated.settings.minimumFields → validated.unsafeMinimumConfirmed) := by
  unfold CopyRouteCreate.validate at h
  simp only at h
  split at h
  · cases h
  · split at h
    · cases h
    · rename_i hsplit
      split at h
      · cases h
      · rename_i hunsafe
        constructor
        · intro hs
          by_contra hall
          exact hsplit (by simp [hs, hall])
        · intro hu
          by_contra hc
          exact hunsafe (by simp [hu, hc])

theorem CopyRouteUpdate.of_validate (h : payload.validate = .ok ()) (hu : payload.minimumFields.value.any unsafeMinimumFields) :
    payload.unsafeMinimumConfirmed.value = some true := by
  unfold CopyRouteUpdate.validate at h
  split at h
  · cases h
  · split at h
    · cases h
    · split at h
      · cases h
      · rename_i hunsafe
        by_contra hc
        exact hunsafe (by simp [hu, hc])

/-- Unsafe fields have been confirmed, if they had been before. -/
theorem confirmation_isSome {now : Time} (hv : payload.validate = .ok ()) (hm : merged route confirmedAt payload = some validated)
    (hc : unsafeMinimumFields route.minimumFields → confirmedAt.isSome)
    (hu : unsafeMinimumFields validated.settings.minimumFields) :
    (confirmation now payload validated.settings.minimumFields confirmedAt).isSome := by
  obtain ⟨hnull, -, -, hmin, -⟩ := merged_eq_some hm
  unfold confirmation
  split
  · rfl
  · rename_i hnow
    rw [hu, Bool.not_true, if_neg (by simp)]
    cases hf : payload.minimumFields with
    | none =>
      have hmin : validated.settings.minimumFields = route.minimumFields := by rw [hmin, hf]; rfl
      exact hc (hmin ▸ hu)
    | some value =>
      -- a new value that is unsafe is confirmed by the same request
      cases value with
      | none => simp [CopyRouteUpdate.hasNull, hf, Field.isNull] at hnull
      | some minimum =>
        have hmin : validated.settings.minimumFields = minimum := by rw [hmin, hf]; rfl
        have hconfirmed := CopyRouteUpdate.of_validate hv (by rw [hf]; exact hmin ▸ hu)
        rw [hf, hu, hconfirmed] at hnow
        exact absurd rfl hnow

theorem le_maxFixedLotForConnection {user r connectionId : Uuid} {db : Database} (hr : db.routes.get? r = some route)
    (hu : route.userId = user) (ht : route.targetConnectionId = some connectionId) :
    ∃ largest, maxFixedLotForConnection user db connectionId = some largest ∧ route.fixedLot.toRat ≤ largest.toRat := by
  have hmem : route.fixedLot.units ∈
      (db.routes.select fun _ route => route.userId = user && route.targetConnectionId = some connectionId).map
        fun e => e.2.fixedLot.units :=
    List.mem_map.mpr ⟨(r, route), Table.mem_select.2 ⟨hr, by simp [hu, ht]⟩, rfl⟩
  obtain ⟨units, hmax⟩ := Option.isSome_iff_exists.mp (List.isSome_max?_of_mem hmem)
  refine ⟨⟨units⟩, by rw [maxFixedLotForConnection, hmax]; rfl, Numeric.toRat_le_toRat.2 ?_⟩
  exact (List.max?_le_iff hmax).mp le_rfl _ hmem

/-- A cap that is accepted is not below a route's lot. -/
theorem le_of_capBelow {user r connectionId : Uuid} {db : Database} {cap : Option (Numeric 4)} (hr : db.routes.get? r = some route)
    (hu : route.userId = user) (ht : route.targetConnectionId = some connectionId)
    (h : capBelow cap (maxFixedLotForConnection user db connectionId) = none) {lot : Numeric 4} (hc : cap = some lot) :
    route.fixedLot.toRat ≤ lot.toRat := by
  obtain ⟨largest, hlargest, hle⟩ := le_maxFixedLotForConnection hr hu ht
  rw [capBelow, hlargest, hc, Option.filter_eq_none_iff] at h
  have hcap : ¬ lot.toRat < largest.toRat := by simpa using h largest rfl
  exact hle.trans (not_lt.mp hcap)

end

variable [Owners] [Unicode] {s t : ConfigurationState} {l : ConfigurationLabel}

/-- A stored route as the requests leave it. -/
structure Configured (s : ConfigurationState) (r : Uuid) (route : CopyRoute) : Prop where
  split : route.lotDistribution = .split_total → route.takeProfitMode = .all
  confirmed : unsafeMinimumFields route.minimumFields → (s.confirmedAt r).isSome
  owner : ∀ connectionId, route.targetConnectionId = some connectionId → Owners.ofConnection connectionId = route.userId
  admitted : ∀ connectionId, route.targetConnectionId = some connectionId →
    ∃ policy, s.db.policies.get? connectionId = some policy ∧ CopyAccountPolicy.Admits policy route.fixedLot

def AllConfigured (s : ConfigurationState) : Prop := ∀ r route, s.db.routes.get? r = some route → Configured s r route

omit [Unicode] in
/-- Policies that still admit the lots. -/
theorem Configured.of_policies {r : Uuid} {route : CopyRoute} (h : Configured s r route)
    (hc : t.confirmedAt r = s.confirmedAt r)
    (hp : ∀ connectionId policy, route.targetConnectionId = some connectionId → s.db.policies.get? connectionId = some policy →
      CopyAccountPolicy.Admits policy route.fixedLot →
        ∃ policy', t.db.policies.get? connectionId = some policy' ∧ CopyAccountPolicy.Admits policy' route.fixedLot) :
    Configured t r route where
  split := h.split
  confirmed := by rw [hc]; exact h.confirmed
  owner := h.owner
  admitted connectionId ht := by
    obtain ⟨policy, hpolicy, ha⟩ := h.admitted connectionId ht
    exact hp connectionId policy ht hpolicy ha

theorem AllConfigured.step (h : AllConfigured s) (hs : s.step l = some t) : AllConfigured t := by
  cases ConfigurationState.step_cases hs with
  | @created user id connectionId now payload policy routes hv ht ho hp hl hpush =>
    intro r route hr
    rw [Table.get?_push hpush] at hr
    split at hr
    · rename_i he
      subst he
      cases hr
      obtain ⟨hsplit, -⟩ := CopyRouteCreate.of_validate hv
      refine ⟨hsplit, fun hu => ?_, fun c hc => ?_, fun c hc => ?_⟩
      · have hu : unsafeMinimumFields payload.settings.minimumFields = true := hu
        simp [hu]
      · cases ht.symm.trans hc
        exact ho
      · cases ht.symm.trans hc
        exact ⟨policy, hp, hl⟩
    · rename_i hne
      exact (h r route hr).of_policies (Function.update_of_ne hne _ _) fun c policy _ hpolicy ha =>
        ⟨policy, get?_withPolicy_of_some hpolicy, ha⟩
  | @updated user id connectionId now payload policy route validated hv hr hm ht hw hp hl =>
    intro r row hrow
    rw [Table.get?_modify] at hrow
    split at hrow
    · rename_i he
      subst he
      rw [hr, Option.map_some, setFields_eq_merged hm, Option.some_inj] at hrow
      subst hrow
      obtain ⟨-, huser, htarget, -, -⟩ := merged_eq_some hm
      have hold := h r route hr
      refine ⟨(CopyRouteCreate.of_validate hw).1, fun hu => ?_, fun c hc => ?_, fun c hc => ?_⟩
      · show (Function.update s.confirmedAt r _ r).isSome
        rw [Function.update_self]
        exact confirmation_isSome hv hm hold.confirmed hu
      · rw [huser]
        exact hold.owner c (htarget ▸ hc)
      · cases ht.symm.trans (htarget ▸ hc)
        exact ⟨policy, hp, hl⟩
    · rename_i hne
      exact (h r row hrow).of_policies (Function.update_of_ne hne _ _) fun c policy _ hpolicy ha =>
        ⟨policy, get?_withPolicy_of_some hpolicy, ha⟩
  | @policy user connectionId payload normalized policy hv ho hp hh hc ht hn =>
    intro r route hr
    refine (h r route hr).of_policies rfl fun c policy' htarget hpolicy ha => ?_
    rw [Table.get?_modify]
    split
    · rename_i he
      subst he
      have huser : route.userId = user := ((h r route hr).owner c htarget).symm.trans ho
      have hpolicy' : (withPolicy s.db c).get? c = some policy' := get?_withPolicy_of_some hpolicy
      rw [hpolicy']
      refine ⟨_, rfl, ?_, ?_⟩
      · show _ ≤ (normalized.maxLot.value.getD policy'.maxLot).toRat
        cases hlot : normalized.maxLot.value with
        | none => exact ha.maxLot
        | some lot => exact le_of_capBelow hr huser htarget hc hlot
      · show _ ≤ (normalized.maxLotPerTrade.value.getD policy'.maxLotPerTrade).toRat
        cases hlot : normalized.maxLotPerTrade.value with
        | none => exact ha.maxLotPerTrade
        | some lot => exact le_of_capBelow hr huser htarget ht hlot
    · exact ⟨policy', get?_withPolicy_of_some hpolicy, ha⟩
  | elsewhere =>
    intro r route hr
    exact (h r route hr).of_policies rfl fun c policy _ hpolicy ha => ⟨policy, hpolicy, ha⟩

/-- Every stored route is consistent in itself, and within the limits of its account. -/
theorem route_configuration {db : Database} (h : Reach ConfigurationState.step always (.initial db) s) {r : Uuid}
    {route : CopyRoute} (hr : s.db.routes.get? r = some route) :
    (route.lotDistribution = .split_total → route.takeProfitMode = .all) ∧
      (unsafeMinimumFields route.minimumFields → (s.confirmedAt r).isSome) ∧
      ∀ connectionId, route.targetConnectionId = some connectionId →
        ∃ policy, s.db.policies.get? connectionId = some policy ∧ route.fixedLot.toRat ≤ policy.maxLot.toRat ∧
          route.fixedLot.toRat ≤ policy.maxLotPerTrade.toRat := by
  have hall : AllConfigured s := h.invariant (fun _ _ hr => by cases hr) fun _ _ _ h _ hs => AllConfigured.step h hs
  have hroute := hall r route hr
  refine ⟨hroute.split, hroute.confirmed, fun connectionId ht => ?_⟩
  obtain ⟨policy, hp, ha⟩ := hroute.admitted connectionId ht
  exact ⟨policy, hp, ha.maxLot, ha.maxLotPerTrade⟩

/-- A route is created, its fields made unsafe with a confirmation, and its account's
limit lowered to its lot. -/
def goldRequests : List ConfigurationLabel :=
  [.createRoute 1 5 4 { settings := goldTarget },
    .updateRoute 1 6 4 { minimumFields := some (some .direction_symbol), unsafeMinimumConfirmed := some (some true) },
    .updateRoute 1 7 4 { lotDistribution := some (some .split_total), fixedLot := some (some ⟨500⟩) },
    .updateAccountPolicy 1 3 { maxLot := some (some ⟨500⟩) }]

omit [Owners] [Unicode] in
theorem route_configuration_goldRequests :
    let _ := oneUser
    let _ := Unicode.ascii
    ∃ s route, Reach ConfigurationState.step always (.initial goldAccount) s ∧ s.db.routes.get? 4 = some route ∧
      route.lotDistribution = .split_total ∧ route.minimumFields = .direction_symbol ∧
      (route.lotDistribution = .split_total → route.takeProfitMode = .all) ∧
      (unsafeMinimumFields route.minimumFields → (s.confirmedAt 4).isSome) ∧
      ∀ connectionId, route.targetConnectionId = some connectionId →
        ∃ policy, s.db.policies.get? connectionId = some policy ∧ route.fixedLot.toRat ≤ policy.maxLot.toRat ∧
          route.fixedLot.toRat ≤ policy.maxLotPerTrade.toRat := by
  intro _ _
  have hrun : ((run ConfigurationState.step (.initial goldAccount) goldRequests).bind fun s =>
      (s.db.routes.get? 4).map fun route => (route.lotDistribution, route.minimumFields)) =
      some (.split_total, .direction_symbol) := by decide +kernel
  obtain ⟨s, hs, hr⟩ := Option.bind_eq_some_iff.mp hrun
  obtain ⟨route, hr, he⟩ := Option.map_eq_some_iff.mp hr
  exact ⟨s, route, .of_run hs, hr, congrArg Prod.fst he, congrArg Prod.snd he, route_configuration (.of_run hs) hr⟩

/-! ## Policies -/

/-- A list of symbols that is sent alone has none of the other, stored one. -/
def Separate (s : ConfigurationState) : ConfigurationLabel → Prop
  | .updateAccountPolicy _ connectionId payload => ∀ policy ∈ s.db.policies.get? connectionId,
      (payload.allowedSymbols = none →
        ∀ symbol ∈ normalizeSymbols (payload.blockedSymbols.value.getD []), symbol ∉ policy.allowedSymbols) ∧
      (payload.blockedSymbols = none →
        ∀ symbol ∈ normalizeSymbols (payload.allowedSymbols.value.getD []), symbol ∉ policy.blockedSymbols)
  | _ => True

instance (s : ConfigurationState) (l : ConfigurationLabel) : Decidable (Separate s l) := by
  unfold Separate
  split <;> infer_instance

/-- A stored policy as the requests leave it. -/
structure Separated (policy : CopyAccountPolicy) : Prop where
  hours : policy.tradingStartHourUtc.isNone = policy.tradingEndHourUtc.isNone
  symbols : ∀ symbol ∈ policy.allowedSymbols, symbol ∉ policy.blockedSymbols

omit [Owners] in
theorem CopyAccountPolicyUpdate.of_validate {payload normalized : CopyAccountPolicyUpdate} (h : payload.validate = .ok normalized) :
    normalized =
        { payload with
          allowedSymbols := payload.allowedSymbols.map (·.map normalizeSymbols)
          blockedSymbols := payload.blockedSymbols.map (·.map normalizeSymbols) } ∧
      ∀ symbol ∈ normalized.allowedSymbols.value.getD [], symbol ∉ normalized.blockedSymbols.value.getD [] := by
  unfold CopyAccountPolicyUpdate.validate at h
  simp only at h
  split at h
  · cases h
  · split at h
    · cases h
    · rename_i hoverlap
      cases h
      refine ⟨rfl, fun symbol ha hb => ?_⟩
      exact List.filter_eq_nil_iff.mp (not_ne_iff.mp hoverlap) symbol ha (decide_eq_true hb)

omit [Owners] in
/-- The lists after an update have a symbol in common iff one that is sent alone has one
of the other. -/
theorem symbols_write_iff {payload normalized : CopyAccountPolicyUpdate} {policy : CopyAccountPolicy}
    (h : payload.validate = .ok normalized) (hs : ∀ symbol ∈ policy.allowedSymbols, symbol ∉ policy.blockedSymbols) :
    (∀ symbol ∈ (normalized.write policy).allowedSymbols, symbol ∉ (normalized.write policy).blockedSymbols) ↔
      (payload.allowedSymbols = none →
        ∀ symbol ∈ normalizeSymbols (payload.blockedSymbols.value.getD []), symbol ∉ policy.allowedSymbols) ∧
      (payload.blockedSymbols = none →
        ∀ symbol ∈ normalizeSymbols (payload.allowedSymbols.value.getD []), symbol ∉ policy.blockedSymbols) := by
  obtain ⟨rfl, hboth⟩ := CopyAccountPolicyUpdate.of_validate h
  simp only [CopyAccountPolicyUpdate.write, Field.orStored, Field.value] at hboth ⊢
  have hnil : normalizeSymbols [] = [] := rfl
  cases ha : payload.allowedSymbols with
  | none =>
    cases hb : payload.blockedSymbols with
    | none => simpa [hnil] using hs
    | some blocked =>
      cases blocked with
      | none => simp [hnil]
      | some blocked =>
        simp only [Option.map_some, Option.getD_some, Option.join_some, forall_const, reduceCtorEq,
          false_implies, and_true]
        exact ⟨fun h symbol hb ha => h symbol ha hb, fun h symbol ha hb => h symbol hb ha⟩
  | some allowed =>
    cases hb : payload.blockedSymbols with
    | none =>
      cases allowed with
      | none => simp [hnil]
      | some allowed => simp
    | some blocked =>
      simp only [ha, hb, Option.map_some] at hboth
      cases allowed with
      | none => simp
      | some allowed =>
        cases blocked with
        | none => simp
        | some blocked => simpa using hboth

/-- A policy is written by an update alone. -/
theorem Separated.step (h : ∀ c policy, s.db.policies.get? c = some policy → Separated policy) (ho : Separate s l)
    (hs : s.step l = some t) {c : Uuid} {policy : CopyAccountPolicy} (hp : t.db.policies.get? c = some policy) :
    Separated policy := by
  have hwith (connectionId : Uuid) {policy : CopyAccountPolicy} (hp : (withPolicy s.db connectionId).get? c = some policy) :
      Separated policy := by
    rw [withPolicy, Table.get?_add] at hp
    cases hc : s.db.policies.get? c with
    | some policy' =>
      rw [hc] at hp
      cases hp
      exact h c policy hc
    | none =>
      rw [hc, Option.none_or] at hp
      split at hp <;> cases hp
      exact ⟨rfl, by simp⟩
  cases ConfigurationState.step_cases hs with
  | created | updated => exact hwith _ hp
  | elsewhere => exact h c policy hp
  | @policy user connectionId payload normalized stored hv _ hstored hh _ _ _ =>
    rw [Table.get?_modify] at hp
    split at hp
    · rename_i he
      subst he
      rw [hstored] at hp
      cases hp
      have hold := hwith c hstored
      refine ⟨hh, (symbols_write_iff hv hold.symbols).mpr ?_⟩
      cases hc : s.db.policies.get? c with
      | some stored' =>
        have hlook : (withPolicy s.db c).get? c = some stored' := get?_withPolicy_of_some hc
        cases hlook.symm.trans hstored
        exact ho stored hc
      | none =>
        -- the policy has just been created, with empty lists
        rw [withPolicy, Table.get?_add, hc] at hstored
        simp only [Option.none_or, if_true, Option.some_inj] at hstored
        subst hstored
        simp
    · exact hwith connectionId hp

/-- Every stored policy has both hours or none, and no symbol in both lists. -/
theorem policy_configuration {db : Database} (h : Reach ConfigurationState.step Separate (.initial db) s) {c : Uuid}
    {policy : CopyAccountPolicy} (hp : s.db.policies.get? c = some policy) :
    policy.tradingStartHourUtc.isNone = policy.tradingEndHourUtc.isNone ∧
      ∀ symbol ∈ policy.allowedSymbols, symbol ∉ policy.blockedSymbols := by
  have hall : ∀ c policy, s.db.policies.get? c = some policy → Separated policy :=
    h.invariant (P := fun s => ∀ c policy, s.db.policies.get? c = some policy → Separated policy) (fun _ _ hp => by cases hp)
      fun _ _ _ h ho hs _ _ hp => Separated.step h ho hs hp
  exact ⟨(hall c policy hp).hours, (hall c policy hp).symbols⟩

/-- The lists are sent one after the other. -/
def goldLists : List ConfigurationLabel :=
  [.updateAccountPolicy 1 3 { allowedSymbols := some (some ["EURUSD"]), tradingStartHourUtc := some (some 7), tradingEndHourUtc := some (some 20) },
    .updateAccountPolicy 1 3 { blockedSymbols := some (some [" xauusd"]) }]

omit [Owners] [Unicode] in
theorem policy_configuration_goldLists :
    let _ := oneUser
    let _ := Unicode.ascii
    ∃ s policy, Reach ConfigurationState.step Separate (.initial goldAccount) s ∧ s.db.policies.get? 3 = some policy ∧
      policy.allowedSymbols = ["EURUSD"] ∧ policy.blockedSymbols = ["XAUUSD"] ∧
      policy.tradingStartHourUtc.isNone = policy.tradingEndHourUtc.isNone ∧
      ∀ symbol ∈ policy.allowedSymbols, symbol ∉ policy.blockedSymbols := by
  intro _ _
  have hrun : ((runIf ConfigurationState.step Separate (.initial goldAccount) goldLists).bind fun s =>
      (s.db.policies.get? 3).map fun policy => (policy.allowedSymbols, policy.blockedSymbols)) =
      some (["EURUSD"], ["XAUUSD"]) := by decide +kernel
  obtain ⟨s, hs, hp⟩ := Option.bind_eq_some_iff.mp hrun
  obtain ⟨policy, hp, he⟩ := Option.map_eq_some_iff.mp hp
  exact ⟨s, policy, .of_runIf hs, hp, congrArg Prod.fst he, congrArg Prod.snd he, policy_configuration (.of_runIf hs) hp⟩

omit [Owners] [Unicode] in
/-- A symbol that is allowed is blocked by a second request. -/
theorem blockedAllowed_overlaps :
    let _ := oneUser
    let _ := Unicode.ascii
    ∃ s policy, Reach ConfigurationState.step always (.initial goldAccount) s ∧ s.db.policies.get? 3 = some policy ∧
      "EURUSD" ∈ policy.allowedSymbols ∧ "EURUSD" ∈ policy.blockedSymbols := by
  intro _ _
  have hrun : ((run ConfigurationState.step (.initial goldAccount)
      [.updateAccountPolicy 1 3 { allowedSymbols := some (some ["EURUSD"]) },
        .updateAccountPolicy 1 3 { blockedSymbols := some (some [" eurusd"]) }]).bind fun s =>
      (s.db.policies.get? 3).map fun policy => (policy.allowedSymbols, policy.blockedSymbols)) =
      some (["EURUSD"], ["EURUSD"]) := by decide +kernel
  obtain ⟨s, hs, hp⟩ := Option.bind_eq_some_iff.mp hrun
  obtain ⟨policy, hp, he⟩ := Option.map_eq_some_iff.mp hp
  refine ⟨s, policy, .of_run hs, hp, ?_, ?_⟩
  · rw [show policy.allowedSymbols = ["EURUSD"] from congrArg Prod.fst he]
    simp
  · rw [show policy.blockedSymbols = ["EURUSD"] from congrArg Prod.snd he]
    simp

end Routes

end SignalSync
