import SignalSync.Execution.World

/-!
# Exposure limits

Openings executed one after another on one connection. `_enforce_live_account_risk`
checks the volume that is requested; what is submitted and recorded is that volume
as the broker's symbol admits it, which is larger where the broker's minimum is
(`goldMinimum_exceeds_limits`). Where the minimum fits the limits too, no confirmed
opening exceeds them (`openings_within_limits`).

* `prepareExecution_submit`: what a prepared opening has been checked for;
* `OnItsWay.step`: what is known of an opening between its check and its record.
-/

namespace SignalSync

open Library

namespace Database

/-- The open and pending trades of a connection. -/
def openTrades (db : Database) (connectionId : Uuid) : List (Uuid × CopiedTrade) :=
  db.trades.select fun _ trade =>
    (db.routes.get? trade.routeId).any (·.targetConnectionId = some connectionId) && trade.lifecycleState.isActive

/-- The volume a trade has at present. -/
def volumeOf (trade : CopiedTrade) : ℚ := (trade.currentVolume.map Lots.toRat).getD 0

def openVolume (db : Database) (connectionId : Uuid) : ℚ := ((db.openTrades connectionId).map fun e => volumeOf e.2).sum

end Database

/-- The limits of a policy that bound volumes and positions. -/
structure VolumeLimits where
  perTrade : Numeric 4
  total : Numeric 4
  positions : Nat
deriving DecidableEq

def CopyAccountPolicy.volumeLimits (policy : CopyAccountPolicy) : VolumeLimits where
  perTrade := policy.maxLotPerTrade
  total := policy.maxLot
  positions := policy.maxOpenPositions

/-! ## Openings in sequence -/

/-- What a confirmed opening leaves: its own volume, and the volume and number of all
open and pending trades of the connection. -/
structure OpeningRecord where
  volume : ℚ
  total : ℚ
  positions : Nat
deriving DecidableEq

/-- The database, the run at work if there is one, and what the openings have left. -/
structure AccountState where
  db : Database
  run : Nat := 0
  phase : Option ExecutionPhase := none
  records : List OpeningRecord := []

inductive AccountLabel
  /-- A run begins, on an opening of the connection. -/
  | execute (intentId : Uuid)
  | handler (now : Time) (label : HandlerLabel)
  /-- What happens between the runs; the policy's limits are fixed. -/
  | other (db : Database)

/-- An opening of a connection; a leg's volume is a positive part of a lot. -/
def OpensOn (connectionId : Uuid) (intent : TradeIntent) (route : CopyRoute) : Prop :=
  intent.connectionId = some connectionId ∧ route.targetConnectionId = some connectionId ∧
    intent.requestPayload.context.action.any SignalAction.isOpening ∧ 0 < intent.requestPayload.requestedVolume route

instance (connectionId : Uuid) (intent : TradeIntent) (route : CopyRoute) : Decidable (OpensOn connectionId intent route) :=
  inferInstanceAs (Decidable (_ ∧ _ ∧ _ ∧ _))

namespace AccountState

/-- The intent is stored, with its route, and an opening of the connection. -/
def canExecute (s : AccountState) (connectionId intentId : Uuid) : Bool :=
  (s.db.intents.get? intentId).any fun intent =>
    (s.db.routes.get? intent.routeId).any fun route => decide (OpensOn connectionId intent route)

/-- The record of the opening that a step has confirmed. -/
def recordOf (connectionId : Uuid) (before after : Database) : ExecutionPhase → List OpeningRecord
  | .settle c .. =>
    match before.trades.get? c.intentId, after.trades.get? c.intentId with
    | none, some trade =>
      [{ volume := Database.volumeOf trade, total := after.openVolume connectionId
         positions := (after.openTrades connectionId).length }]
    | _, _ => []
  | _ => []

/-- The database and the run after a step of the handler. -/
def afterStep (connectionId : Uuid) (s : AccountState) (phase : ExecutionPhase) (h : HandlerStep) : AccountState :=
  { s with
    db := h.db
    phase := match h.stage with
      | .handle phase' => some phase'
      | _ => none
    records := s.records ++ recordOf connectionId s.db h.db phase }

section

variable [Unicode] (settings : ExecutionSettings) (connectionId : Uuid)

/-- One step of the openings of a connection, which nobody else has the lock of. -/
def step (s : AccountState) : AccountLabel → Option AccountState
  | .execute intentId =>
    if s.phase.isNone && s.canExecute connectionId intentId then
      some { s with run := s.run + 1, phase := some (.load intentId) }
    else none
  | .handler now label =>
    match s.phase with
    | some phase => (handlerStep settings s.run now (fun _ => true) s.db phase label).map (s.afterStep connectionId phase)
    | none => none
  | .other db =>
    if s.phase.isNone ∧ (db.policies.get? connectionId).map CopyAccountPolicy.volumeLimits =
        (s.db.policies.get? connectionId).map CopyAccountPolicy.volumeLimits then some { s with db }
    else none

/-- Where the broker's minimum is more than the requested volume, the minimum itself
is within the limits. -/
def MinimumFits (s : AccountState) : AccountLabel → Prop
  | .handler _ .settle =>
    match s.phase with
    | some (.settle c _ _ (.ok _)) =>
      ∀ symbol ∈ c.selected, ∀ policy ∈ s.db.policies.get? connectionId,
        symbol.minVolume ≤ c.intent.requestPayload.requestedVolume c.route ∨
          (Numeric.ofRat 4 symbol.minVolume).toRat ≤ policy.maxLotPerTrade.toRat ∧
            s.db.openVolume connectionId + (Numeric.ofRat 4 symbol.minVolume).toRat ≤ policy.maxLot.toRat
    | _ => True
  | _ => True

end

end AccountState

/-! ## Open volume -/

section

variable {db db' : Database} {connectionId : Uuid}

theorem volumeOf_le_exposure (trade : CopiedTrade) : Database.volumeOf trade ≤ trade.exposure := by
  have horiginal : 0 ≤ (trade.originalVolume.map Lots.toRat).getD 0 := by
    cases trade.originalVolume with
    | none => exact le_rfl
    | some v => exact v.toRat_nonneg
  unfold Database.volumeOf CopiedTrade.exposure
  cases trade.currentVolume with
  | none => exact horiginal
  | some v =>
    by_cases hv : v.toRat = 0
    · simpa [Option.filter, hv] using horiginal
    · simp [Option.filter, hv]

/-- The exposure that is checked is no less than the open volume. -/
theorem openVolume_le_currentExposure (db : Database) {route : CopyRoute} (hr : route.targetConnectionId = some connectionId) :
    db.openVolume connectionId ≤ currentExposure (db.activeTrades route) := by
  rw [Database.openVolume, currentExposure, Database.activeTrades, hr]
  exact List.sum_le_sum fun e _ => volumeOf_le_exposure e.2

theorem length_openTrades (db : Database) {route : CopyRoute} (hr : route.targetConnectionId = some connectionId) :
    (db.activeTrades route).length = (db.openTrades connectionId).length := by
  rw [Database.activeTrades, hr]
  rfl

/-- Volumes are values of the column, and so is their sum. -/
theorem exists_openVolume (db : Database) (connectionId : Uuid) : ∃ n : Numeric 4, n.toRat = db.openVolume connectionId := by
  rw [Database.openVolume]
  induction db.openTrades connectionId with
  | nil => exact ⟨⟨0⟩, by simp [Numeric.toRat]⟩
  | cons e rest ih =>
    obtain ⟨n, hn⟩ := ih
    have hvolume : ∃ m : Numeric 4, m.toRat = Database.volumeOf e.2 := by
      unfold Database.volumeOf
      cases e.2.currentVolume with
      | none => exact ⟨⟨0⟩, by simp [Numeric.toRat]⟩
      | some v => exact ⟨v.1, rfl⟩
    obtain ⟨m, hm⟩ := hvolume
    refine ⟨⟨m.units + n.units⟩, ?_⟩
    rw [List.map_cons, List.sum_cons, ← hm, ← hn, Numeric.toRat, Numeric.toRat, Numeric.toRat, Int.cast_add, add_div]

/-- The targets of the routes and the limits of the policies are the same. -/
structure SameAccount (db db' : Database) : Prop where
  trades : db'.trades = db.trades
  targets : ∀ id, (db'.routes.get? id).map (·.targetConnectionId) = (db.routes.get? id).map (·.targetConnectionId)
  limits : ∀ id, (db'.policies.get? id).map CopyAccountPolicy.volumeLimits = (db.policies.get? id).map CopyAccountPolicy.volumeLimits

theorem SameAccount.openTrades (h : SameAccount db db') (connectionId : Uuid) :
    db'.openTrades connectionId = db.openTrades connectionId := by
  have hany (id : Uuid) : (db'.routes.get? id).any (·.targetConnectionId = some connectionId) =
      (db.routes.get? id).any (·.targetConnectionId = some connectionId) := by
    have := congrArg (Option.any fun target => decide (target = some connectionId)) (h.targets id)
    rwa [Option.any_map, Option.any_map] at this
  simp only [Database.openTrades, Table.select, h.trades, hany]

theorem SameAccount.openVolume (h : SameAccount db db') (connectionId : Uuid) :
    db'.openVolume connectionId = db.openVolume connectionId := by
  rw [Database.openVolume, Database.openVolume, h.openTrades]

theorem SameAccount.trans {db'' : Database} (h : SameAccount db db') (h' : SameAccount db' db'') : SameAccount db db'' :=
  ⟨h'.trades.trans h.trades, fun id => (h'.targets id).trans (h.targets id), fun id => (h'.limits id).trans (h.limits id)⟩

theorem sameAccount_restoreRoutes (db : Database) (restored : List (Uuid × CopyRoute)) :
    SameAccount db (db.restoreRoutes restored) := by
  refine ⟨rfl, fun id => ?_, fun _ => rfl⟩
  rw [Database.restoreRoutes]
  simp only
  induction restored using List.reverseRecOn with
  | nil => rfl
  | append_singleton rest e ih =>
    rw [List.foldl_append, List.foldl_cons, List.foldl_nil, Table.get?_modify, ← ih]
    split
    · rw [Option.map_map]
      rfl
    · rfl

theorem sameAccount_writeAnchors (db : Database) (id : Uuid) (loaded : CopyAccountPolicy) (anchors : EquityAnchors) :
    SameAccount db (db.writeAnchors id loaded anchors) := by
  refine ⟨rfl, fun _ => rfl, fun id' => ?_⟩
  rw [Database.writeAnchors, Table.get?_modify]
  split
  · rw [Option.map_map]
    rfl
  · rfl

/-- What a prepared run writes beside its intent. -/
theorem sameAccount_apply (p : PendingWrites) (db : Database) : SameAccount db (p.apply db) := by
  have hconnection : SameAccount db (db.writeConnection p.connectionId p.connection .ready) := ⟨rfl, fun _ => rfl, fun _ => rfl⟩
  have hroutes := hconnection.trans (sameAccount_restoreRoutes _ p.restored)
  have hmapping (key : MappingKey) (loaded : Option SymbolMapping) (new : SymbolMapping) :
      SameAccount db (((db.writeConnection p.connectionId p.connection .ready).restoreRoutes p.restored).writeMapping key loaded
        new) := hroutes.trans ⟨rfl, fun _ => rfl, fun _ => rfl⟩
  unfold PendingWrites.apply
  split <;> split
  · exact (hmapping _ _ _).trans (sameAccount_writeAnchors _ _ _ _)
  · exact hmapping _ _ _
  · exact hroutes.trans (sameAccount_writeAnchors _ _ _ _)
  · exact hroutes

end

/-! ## What is checked -/

section

variable [Unicode] {settings : ExecutionSettings} {run : Nat} {now : Time} {lockFree : Option Uuid → Bool}
  {db : Database} {connectionId : Uuid}

/-- A passed check bounds the volume it was made for. -/
theorem enforceLiveAccountRisk_ok {s : ReadySession} {view : BrokerView} {volume : ℚ}
    {anchors : Option (CopyAccountPolicy × EquityAnchors)} (h : enforceLiveAccountRisk db s view now volume = .ok (anchors, none))
    (hv : 0 < volume) : ∃ policy, s.policy = some policy ∧ volume ≤ policy.maxLotPerTrade.toRat ∧
      currentExposure (db.activeTrades s.route) + volume ≤ policy.maxLot.toRat ∧
      (db.activeTrades s.route).length < policy.maxOpenPositions := by
  unfold enforceLiveAccountRisk at h
  rw [if_neg (not_le.mpr hv)] at h
  split at h
  · cases h
  · rename_i policy hp
    simp only at h
    split at h
    · rename_i hok
      have hlimits := within_limits hok
      simp only [liveRisk] at hlimits
      exact ⟨policy, hp, hlimits⟩
    · cases h

/-- A prepared opening has been checked for the volume it requests. -/
theorem prepareExecution_submit {s : ReadySession} {restored : List (Uuid × CopyRoute)} {view : BrokerView}
    {pending : PendingWrites} {c : ExecutionCall} {new : TradeIntent}
    (h : prepareExecution db now s restored view = .ok (pending, .submit c new))
    (ho : s.intent.requestPayload.context.action.any SignalAction.isOpening)
    (hv : 0 < s.intent.requestPayload.requestedVolume s.route) :
    c.intentId = s.intentId ∧ c.intent = s.intent ∧ c.route = s.route ∧ c.action.isOpening ∧
      ∃ policy, s.policy = some policy ∧ s.intent.requestPayload.requestedVolume s.route ≤ policy.maxLotPerTrade.toRat ∧
        currentExposure (db.activeTrades s.route) + s.intent.requestPayload.requestedVolume s.route ≤ policy.maxLot.toRat ∧
        (db.activeTrades s.route).length < policy.maxOpenPositions := by
  unfold prepareExecution at h
  split at h
  · cases h
  · cases h
  · rename_i action _ hact
    rw [hact, Option.any_some] at ho
    simp only at h
    split at h
    · cases h
    · unfold afterQualityError at h
      simp only at h
      split at h <;> cases h
    · split at h
      · cases h
      · cases h
      · rename_i hrisk
        cases h
        rw [requestedVolume, if_pos ho] at hrisk
        exact ⟨rfl, rfl, rfl, ho, enforceLiveAccountRisk_ok hrisk hv⟩

end

/-! ## An opening on its way -/

/-- The limits of a connection's policy. -/
def Database.volumeLimits (db : Database) (connectionId : Uuid) : Option VolumeLimits :=
  (db.policies.get? connectionId).map CopyAccountPolicy.volumeLimits

def VolumeLimits.Hold (limits : VolumeLimits) (r : OpeningRecord) : Prop :=
  r.volume ≤ limits.perTrade.toRat ∧ r.total ≤ limits.total.toRat ∧ r.positions ≤ limits.positions

/-- The volume a call requests is within the limits. -/
structure ExecutionCall.Checked (c : ExecutionCall) (connectionId : Uuid) (db : Database) : Prop where
  opening : c.action.isOpening
  within : ∃ limits, db.volumeLimits connectionId = some limits ∧
    c.intent.requestPayload.requestedVolume c.route ≤ limits.perTrade.toRat ∧
    db.openVolume connectionId + c.intent.requestPayload.requestedVolume c.route ≤ limits.total.toRat ∧
    (db.openTrades connectionId).length < limits.positions

/-- What is known of an opening in a phase of its run. -/
def ExecutionPhase.OnItsWay (connectionId : Uuid) (db : Database) : ExecutionPhase → Prop
  | .load intentId => ∃ intent route, db.intents.get? intentId = some intent ∧ db.routes.get? intent.routeId = some route ∧
      OpensOn connectionId intent route
  | .acquire s | .gate s => ∃ route, s.route = some route ∧ OpensOn connectionId s.intent route
  | .connect s | .prepare s _ => s.policy = db.policies.get? connectionId ∧ OpensOn connectionId s.intent s.route
  | .call c => c.Checked connectionId db
  | .settle c _ _ outcome => c.Checked connectionId db ∧ ∀ result volume, outcome = .ok (result, volume) →
      ∃ symbol, c.selected = some symbol ∧ volume = some (normalizeVolume (c.intent.requestPayload.requestedVolume c.route) symbol)
  | .bar .. | .publish _ => True
  | _ => False

/-- A step keeps the limits, and what is known of the opening goes on. -/
structure HandlerStep.KeepsOn (h : HandlerStep) (connectionId : Uuid) (db : Database) : Prop where
  limits : h.db.volumeLimits connectionId = db.volumeLimits connectionId
  goesOn : ∀ phase, h.stage = .handle phase → phase.OnItsWay connectionId h.db

section

variable [Unicode] {settings : ExecutionSettings} {run : Nat} {now : Time} {lockFree : Option Uuid → Bool}
  {db : Database} {connectionId : Uuid}

omit [Unicode] in
theorem keepsOn_goto {db' : Database} {phase : ExecutionPhase} {lock : LockChange}
    (hl : db'.volumeLimits connectionId = db.volumeLimits connectionId) (h : phase.OnItsWay connectionId db') :
    (HandlerStep.goto db' phase lock).KeepsOn connectionId db :=
  ⟨hl, fun phase' hs => by cases hs; exact h⟩

omit [Unicode] in
theorem keepsOn_finish {db' : Database} {result : DeliveryResult} {lock : LockChange}
    (hl : db'.volumeLimits connectionId = db.volumeLimits connectionId) :
    (HandlerStep.finish db' result lock).KeepsOn connectionId db :=
  ⟨hl, fun phase' hs => by cases hs⟩

omit [Unicode] in
theorem loadStep_keepsOn {intentId : Uuid} {access : Bool}
    (h : (ExecutionPhase.load intentId).OnItsWay connectionId db) :
    (loadStep settings db intentId access).KeepsOn connectionId db := by
  obtain ⟨intent, route, hi, hr, ho⟩ := h
  unfold loadStep
  rw [hi]
  simp only
  split
  · exact keepsOn_finish rfl
  · split
    · exact keepsOn_goto rfl trivial
    · exact keepsOn_goto rfl ⟨route, hr, ho⟩

omit [Unicode] in
theorem gateStep_keepsOn {s : ExecutionSession} (h : (ExecutionPhase.gate s).OnItsWay connectionId db) :
    (gateStep settings db s).KeepsOn connectionId db := by
  obtain ⟨route, hr, ho⟩ := h
  unfold gateStep
  split
  · exact keepsOn_finish rfl
  · dsimp only
    split
    · exact keepsOn_finish rfl
    · rename_i route' connectionId' connection hready
      have hroute : route' = route := by
        unfold ExecutionSession.ready at hready
        split at hready
        · split at hready
          · cases hready
          · rename_i hr' _ _ _
            cases hready
            exact Option.some.inj (hr'.symm.trans hr)
        · cases hready
      subst hroute
      exact keepsOn_goto rfl ⟨by rw [ho.1]; rfl, ho⟩

theorem connectStep_keepsOn {s : ReadySession} {error : Option PyException}
    (h : (ExecutionPhase.connect s).OnItsWay connectionId db) : (connectStep db s error).KeepsOn connectionId db := by
  unfold connectStep
  split
  · exact keepsOn_finish rfl
  · exact keepsOn_goto rfl h

omit [Unicode] in
/-- A check holds on in a database with the same open trades and limits. -/
theorem ExecutionCall.Checked.of_sameAccount {c : ExecutionCall} {db' : Database} (h : c.Checked connectionId db)
    (hs : SameAccount db db') : c.Checked connectionId db' := by
  obtain ⟨ho, limits, hl, hw⟩ := h
  refine ⟨ho, limits, (hs.limits connectionId).trans hl, ?_⟩
  rwa [hs.openVolume, hs.openTrades]

theorem prepareStep_keepsOn {s : ReadySession} {restored : List (Uuid × CopyRoute)} {view : BrokerView}
    (h : (ExecutionPhase.prepare s restored).OnItsWay connectionId db) :
    (prepareStep now db s restored view).KeepsOn connectionId db := by
  obtain ⟨hpolicy, -, htarget, hopen, hpos⟩ := h
  unfold prepareStep
  split
  · exact keepsOn_finish rfl
  · rename_i pending result new hx
    exact keepsOn_finish ((sameAccount_apply pending db).limits connectionId)
  · rename_i pending c new hx
    refine keepsOn_goto ((sameAccount_apply pending db).limits connectionId) ?_
    obtain ⟨-, hintent, hroute, hopening, policy, hp, hper, htotal, hcount⟩ := prepareExecution_submit hx hopen hpos
    have hchecked : c.Checked connectionId db := by
      refine ⟨hopening, policy.volumeLimits, by rw [Database.volumeLimits, ← hpolicy, hp]; rfl, ?_⟩
      rw [hintent, hroute]
      refine ⟨hper, ?_, ?_⟩
      · have := openVolume_le_currentExposure db htarget
        exact (add_le_add_left this _).trans htotal
      · rwa [← length_openTrades db htarget]
    exact hchecked.of_sameAccount ((sameAccount_apply pending db).trans ⟨rfl, fun _ => rfl, fun _ => rfl⟩)

theorem callStep_keepsOn {c : ExecutionCall} {response : Except PyException BrokerResult} {h : HandlerStep}
    (hs : callStep db c response = some h) (hc : c.Checked connectionId db) : h.KeepsOn connectionId db := by
  obtain ⟨loaded, hi, rfl⟩ := Option.map_eq_some_iff.mp hs
  dsimp only
  split
  · exact keepsOn_goto rfl ⟨hc, nofun⟩
  · rename_i call volume hrun
    refine ⟨rfl, fun phase hph => ?_⟩
    cases hph
    refine ⟨hc, fun result volume' hr => ?_⟩
    obtain ⟨symbol, -, hsel, -, hvol, -⟩ := runAction_opening hrun hc.opening
    cases response with
    | error e => cases hr
    | ok r => cases hr; exact ⟨symbol, hsel, hvol⟩

theorem settleStep_keepsOn (c : ExecutionCall) (loaded : TradeIntent) (copied : Option CopiedTrade) (outcome : CallOutcome) :
    (settleStep run now db c loaded copied outcome).KeepsOn connectionId db := by
  unfold settleStep
  dsimp only
  split
  · split
    · exact keepsOn_finish rfl
    · exact keepsOn_goto rfl trivial
  · split <;> exact keepsOn_finish rfl

/-- What is known of an opening goes on with every step. -/
theorem ExecutionPhase.OnItsWay.step {phase : ExecutionPhase} (hp : phase.OnItsWay connectionId db) {label : HandlerLabel}
    {h : HandlerStep} (hs : handlerStep settings run now lockFree db phase label = some h) : h.KeepsOn connectionId db := by
  unfold handlerStep at hs
  split at hs
  · cases hs; exact loadStep_keepsOn hp
  · cases hs; exact keepsOn_finish rfl
  · split at hs <;> cases hs
    exact keepsOn_goto rfl hp
  · cases hs; exact keepsOn_finish rfl
  · cases hs; exact gateStep_keepsOn hp
  · cases hs; exact connectStep_keepsOn hp
  · cases hs; exact prepareStep_keepsOn hp
  · exact callStep_keepsOn hs hp
  · cases hs; exact settleStep_keepsOn _ _ _ _
  · obtain ⟨intent, hi, rfl⟩ := Option.map_eq_some_iff.mp hs
    exact ⟨rfl, fun _ hph => by cases hph⟩
  · exact hp.elim
  · exact hp.elim
  · exact hp.elim
  · exact hp.elim
  · exact hp.elim
  · exact hp.elim
  · exact hp.elim
  · cases hs

/-! ## What a confirmation records -/

omit [Unicode] in
/-- A new trade adds its volume at most, and one position at most. -/
theorem openTrades_push {id : Uuid} {trade : CopiedTrade} {trades : Table Uuid CopiedTrade}
    (h : db.trades.push id trade = some trades) (hv : 0 ≤ Database.volumeOf trade) :
    { db with trades }.openVolume connectionId ≤ db.openVolume connectionId + Database.volumeOf trade ∧
      ({ db with trades }.openTrades connectionId).length ≤ (db.openTrades connectionId).length + 1 := by
  have hselect : { db with trades }.openTrades connectionId = db.openTrades connectionId ++
      if (db.routes.get? trade.routeId).any (·.targetConnectionId = some connectionId) && trade.lifecycleState.isActive then
        [(id, trade)] else [] := Table.select_push h _
  rw [Database.openVolume, Database.openVolume, hselect]
  split
  · simp
  · simpa using hv

omit [Unicode] in
/-- A confirmed opening adds a trade of the submitted volume. -/
theorem confirmTrades_opening {c : ExecutionCall} {copied : Option CopiedTrade} {result : BrokerResult} {volume : ℚ}
    {trades : Table Uuid CopiedTrade} (h : confirmTrades run now db c copied result (some volume) = .ok trades)
    (ho : c.action.isOpening) (hv : 0 ≤ volume) : ∃ trade, db.trades.push c.intentId trade = some trades ∧
      Database.volumeOf trade = (Numeric.ofRat 4 volume).toRat := by
  unfold confirmTrades at h
  rw [if_pos ho] at h
  split at h
  · split at h
    · rename_i hpush
      cases h
      refine ⟨_, hpush, ?_⟩
      simp only [Database.volumeOf, openedTrade, Lots.ofRat, Option.getD_some, max_eq_right hv]
      rfl
    · cases h
  · cases h

omit [Unicode] in
/-- A record is of a trade that is new. -/
theorem mem_recordOf {db' : Database} {c : ExecutionCall} {loaded : TradeIntent} {copied : Option CopiedTrade}
    {outcome : CallOutcome} {r : OpeningRecord}
    (hr : r ∈ AccountState.recordOf connectionId db db' (.settle c loaded copied outcome)) :
    ∃ trade, db.trades.get? c.intentId = none ∧ db'.trades.get? c.intentId = some trade ∧
      r = ⟨Database.volumeOf trade, db'.openVolume connectionId, (db'.openTrades connectionId).length⟩ := by
  unfold AccountState.recordOf at hr
  dsimp only at hr
  split at hr
  · rename_i trade hnone hsome
    exact ⟨trade, hnone, hsome, List.mem_singleton.mp hr⟩
  · cases hr

/-- The record of a confirmed opening is of the volume its call has submitted. -/
theorem recordOf_settleStep {c : ExecutionCall} {loaded : TradeIntent} {copied : Option CopiedTrade} {outcome : CallOutcome}
    {r : OpeningRecord} (hp : (ExecutionPhase.settle c loaded copied outcome).OnItsWay connectionId db)
    (hr : r ∈ AccountState.recordOf connectionId db (settleStep run now db c loaded copied outcome).db
      (.settle c loaded copied outcome)) :
    ∃ symbol result volume, outcome = .ok (result, volume) ∧ c.selected = some symbol ∧
      r.volume = (Numeric.ofRat 4 (normalizeVolume (c.intent.requestPayload.requestedVolume c.route) symbol)).toRat ∧
      r.total ≤ db.openVolume connectionId + r.volume ∧ r.positions ≤ (db.openTrades connectionId).length + 1 := by
  obtain ⟨trade, hnone, hsome, rfl⟩ := mem_recordOf hr
  clear hr
  obtain ⟨hc, hvolume⟩ := hp
  -- a step that leaves the trades as they are adds none
  have hadded : (settleStep run now db c loaded copied outcome).db.trades ≠ db.trades := fun he => by
    rw [he, hnone] at hsome
    cases hsome
  unfold settleStep at hadded hsome ⊢
  dsimp only at hadded hsome ⊢
  split at hadded
  · split at hadded <;> exact absurd rfl hadded
  · rename_i result volume
    obtain ⟨symbol, hsel, rfl⟩ := hvolume result volume rfl
    split at hadded
    · exact absurd rfl hadded
    · rename_i trades ht
      obtain ⟨trade', hpush, hvol⟩ := confirmTrades_opening ht hc.opening normalizeVolume_nonneg
      have htrade : trade' = trade := by
        simp only [ht, HandlerStep.finish, Database.writeIntent, Table.get?_push hpush, if_true] at hsome
        exact Option.some.inj hsome
      subst htrade
      have hnonneg : 0 ≤ Database.volumeOf trade' := by
        rw [hvol]
        exact Numeric.toRat_nonneg (Numeric.ofRat_units_nonneg normalizeVolume_nonneg)
      exact ⟨symbol, result, _, rfl, hsel, hvol, openTrades_push hpush hnonneg⟩

omit [Unicode] in
/-- A volume that is requested within the limits is recorded within them, where the
symbol's minimum is. -/
theorem checked_hold {c : ExecutionCall} {symbol : BrokerSymbol} {policy : CopyAccountPolicy} {r : OpeningRecord}
    (hc : c.Checked connectionId db) (hp : db.policies.get? connectionId = some policy)
    (hr : r.volume = (Numeric.ofRat 4 (normalizeVolume (c.intent.requestPayload.requestedVolume c.route) symbol)).toRat)
    (ht : r.total ≤ db.openVolume connectionId + r.volume) (hn : r.positions ≤ (db.openTrades connectionId).length + 1)
    (hfit : symbol.minVolume ≤ c.intent.requestPayload.requestedVolume c.route ∨
      (Numeric.ofRat 4 symbol.minVolume).toRat ≤ policy.maxLotPerTrade.toRat ∧
        db.openVolume connectionId + (Numeric.ofRat 4 symbol.minVolume).toRat ≤ policy.maxLot.toRat) :
    policy.volumeLimits.Hold r := by
  obtain ⟨-, limits, hl, hper, htotal, hcount⟩ := hc
  rw [Database.volumeLimits, hp] at hl
  cases hl
  have hvolume : r.volume ≤ policy.maxLotPerTrade.toRat ∧ db.openVolume connectionId + r.volume ≤ policy.maxLot.toRat := by
    rw [hr]
    by_cases hmin : symbol.minVolume ≤ c.intent.requestPayload.requestedVolume c.route
    · have hle := normalizeVolume_le hmin
      obtain ⟨open', ho⟩ := exists_openVolume db connectionId
      rw [← ho] at htotal ⊢
      exact ⟨Numeric.ofRat_le (hle.trans hper), Numeric.add_ofRat_le ((add_le_add_right hle _).trans htotal)⟩
    · rw [normalizeVolume_of_lt (not_le.mp hmin)]
      exact hfit.resolve_left hmin
  exact ⟨hvolume.1, ht.trans hvolume.2, hn.trans hcount⟩

/-! ## Every run of openings -/

namespace AccountState

/-- The limits are the policy's, and every record is within them. -/
structure WithinLimits (connectionId : Uuid) (policy : CopyAccountPolicy) (s : AccountState) : Prop where
  limits : s.db.volumeLimits connectionId = some policy.volumeLimits
  phase : ∀ phase, s.phase = some phase → phase.OnItsWay connectionId s.db
  records : ∀ r ∈ s.records, policy.volumeLimits.Hold r

variable {policy : CopyAccountPolicy} {s t : AccountState} {a : AccountLabel}

omit [Unicode] in
theorem canExecute_onItsWay {intentId : Uuid} (h : s.canExecute connectionId intentId) :
    (ExecutionPhase.load intentId).OnItsWay connectionId s.db := by
  obtain ⟨intent, hi, h⟩ := (Option.any_eq_true _ _).mp h
  obtain ⟨route, hr, h⟩ := (Option.any_eq_true _ _).mp h
  exact ⟨intent, route, hi, hr, of_decide_eq_true h⟩

/-- A step of the handler adds only records that are within the limits. -/
theorem recordOf_hold {phase : ExecutionPhase} {now : Time} {label : HandlerLabel} {h : HandlerStep} {r : OpeningRecord}
    (hp : phase.OnItsWay connectionId s.db) (hl : s.db.volumeLimits connectionId = some policy.volumeLimits)
    (hs : handlerStep settings s.run now lockFree s.db phase label = some h) (hphase : s.phase = some phase)
    (hok : s.MinimumFits connectionId (.handler now label)) (hr : r ∈ recordOf connectionId s.db h.db phase) :
    policy.volumeLimits.Hold r := by
  cases phase with
  | settle c loaded copied outcome =>
    cases label with
    | settle =>
      cases hs
      obtain ⟨symbol, result, volume, rfl, hsel, hv, ht, hn⟩ := recordOf_settleStep hp hr
      obtain ⟨stored, hstored, hsame⟩ := Option.map_eq_some_iff.mp hl
      simp only [MinimumFits, hphase] at hok
      rw [← hsame]
      exact checked_hold hp.1 hstored hv ht hn (hok symbol hsel stored hstored)
    | _ => cases hs
  | _ => cases hr

theorem WithinLimits.step (hw : s.WithinLimits connectionId policy) (hok : s.MinimumFits connectionId a)
    (hs : s.step settings connectionId a = some t) : t.WithinLimits connectionId policy := by
  cases a with
  | execute intentId =>
    simp only [AccountState.step] at hs
    split at hs <;> cases hs
    rename_i hcan
    refine ⟨hw.limits, fun phase hp => ?_, hw.records⟩
    cases hp
    exact canExecute_onItsWay (Bool.and_eq_true_iff.mp hcan).2
  | handler now label =>
    simp only [AccountState.step] at hs
    split at hs
    · rename_i phase hphase
      obtain ⟨h, hstep, rfl⟩ := Option.map_eq_some_iff.mp hs
      have hon := hw.phase phase hphase
      have hkeeps := hon.step hstep
      refine ⟨hkeeps.limits.trans hw.limits, fun phase' hp => ?_, fun r hr => ?_⟩
      · refine hkeeps.goesOn phase' ?_
        simp only [afterStep] at hp
        split at hp
        · cases hp
          assumption
        · cases hp
      · rcases List.mem_append.mp hr with hr | hr
        · exact hw.records r hr
        · exact recordOf_hold hon hw.limits hstep hphase hok hr
    · cases hs
  | other db =>
    simp only [AccountState.step] at hs
    split at hs <;> cases hs
    rename_i hother
    refine ⟨hother.2.trans hw.limits, fun phase hp => ?_, hw.records⟩
    rw [hp] at hother
    cases hother.1

instance (connectionId : Uuid) (s : AccountState) (a : AccountLabel) : Decidable (s.MinimumFits connectionId a) := by
  unfold MinimumFits
  split
  · split <;> infer_instance
  · infer_instance

/-- Where the minimum of the broker's symbol fits the limits, every confirmed opening
leaves the account within them. -/
theorem openings_within_limits {db : Database} (hpolicy : db.policies.get? connectionId = some policy)
    (h : Reach (step settings connectionId) (MinimumFits connectionId) { db } s) :
    ∀ r ∈ s.records, r.volume ≤ policy.maxLotPerTrade.toRat ∧ r.total ≤ policy.maxLot.toRat ∧
      r.positions ≤ policy.maxOpenPositions := by
  refine (h.invariant (P := WithinLimits connectionId policy) ⟨?_, fun _ hp => (by cases hp), fun _ hr => (by cases hr)⟩
    fun _ _ _ hw hok hs => hw.step hok hs).records
  rw [Database.volumeLimits, hpolicy]
  rfl

/-- An account with the given policy and `goldIntent`. -/
def goldLimited (policy : CopyAccountPolicy) : Database :=
  { World.goldAccount with policies := .add ∅ 3 policy, intents := .add ∅ 12 World.goldIntent }

/-- The opening of `goldIntent`, from its load to its confirmation. -/
def goldOpening (view : BrokerView) : List AccountLabel :=
  .execute 12 :: [.load true, .acquire, .gate, .connect none, .prepare view, .call (.ok { positionId := some "1" }),
    .settle].map (.handler (seconds 101))

omit [Unicode] in
/-- One opening of 0.01 lots, where the broker admits it. -/
theorem openings_within_limits_goldIntent :
    let _ := Unicode.ascii
    ∃ s, Reach (step {} 3) (MinimumFits 3) { db := goldLimited {} } s ∧ s.records = [⟨1 / 100, 1 / 100, 1⟩] ∧
      ∀ r ∈ s.records, r.volume ≤ 100 ∧ r.total ≤ 100 ∧ r.positions ≤ 100 := by
  intro _
  have hrun : (runIf (step {} 3) (MinimumFits 3) { db := goldLimited {} }
      (goldOpening (World.goldTerminal (seconds 101)))).map (·.records) = some [⟨1 / 100, 1 / 100, 1⟩] := by decide +kernel
  obtain ⟨s, hs, hr⟩ := Option.map_eq_some_iff.mp hrun
  have h := Reach.of_runIf hs
  have hlimit : (⟨1000000⟩ : Numeric 4).toRat = 100 := by norm_num [Numeric.toRat]
  have hpolicy : (goldLimited {}).policies.get? 3 = some {} := rfl
  have hwithin := openings_within_limits hpolicy h
  rw [hlimit] at hwithin
  exact ⟨s, h, hr, hwithin⟩

/-- Gold at a broker whose smallest order is of 0.1 lots. -/
def goldMinimum (now : Time) : BrokerView where
  specifications :=
    [{ symbol := "XAUUSD", tradeMode := .name "SYMBOL_TRADE_MODE_FULL", minVolume := some (1 / 10)
       minVolume_nonneg := by norm_num, volumeStep_nonneg := Specification.nonneg_none }]
  quote := some { bid := some 2399, ask := some 2400, time := .at now }
  equity := some 10000

omit [Unicode] in
/-- An account limited to 0.05 lots requests 0.01 and is left with 0.1. -/
theorem goldMinimum_exceeds_limits :
    let _ := Unicode.ascii
    let policy : CopyAccountPolicy := { maxLot := ⟨500⟩, maxLotPerTrade := ⟨500⟩ }
    ∃ s, Reach (step {} 3) always { db := goldLimited policy } s ∧ ∃ r ∈ s.records,
      ¬ r.volume ≤ policy.maxLotPerTrade.toRat ∧ ¬ r.total ≤ policy.maxLot.toRat := by
  intro _ policy
  have hrun : (Library.run (step {} 3) { db := goldLimited policy } (goldOpening (goldMinimum (seconds 101)))).map (·.records) =
      some [⟨1 / 10, 1 / 10, 1⟩] := by decide +kernel
  obtain ⟨s, hs, hr⟩ := Option.map_eq_some_iff.mp hrun
  have hlimit : (⟨500⟩ : Numeric 4).toRat = 1 / 20 := by norm_num [Numeric.toRat]
  refine ⟨s, .of_run hs, ⟨1 / 10, 1 / 10, 1⟩, by rw [hr]; exact List.mem_singleton_self _, ?_⟩
  rw [hlimit]
  norm_num

end AccountState

end

end SignalSync
