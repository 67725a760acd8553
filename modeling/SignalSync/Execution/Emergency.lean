import SignalSync.Execution.Handler
import SignalSync.Library.Passes
import SignalSync.Library.Run

/-!
# Emergencies

`execute_emergency` and its retries. The loop goes over the open and pending trades
of the scope; a busy connection ends it with a retry and an exception leaves it, and
the event is delivered again, from the beginning, until it has been delivered
`max_attempts` times. What an earlier delivery has closed or cancelled is not in the
query of a later one.

* `reach_emergencyLoop`: the handler goes through the rows as the loop does;
* `emergencyLoop_swept`: one delivery is a pass over the trades;
* `emergency_reaches_all`: which trades the deliveries reach.
-/

namespace SignalSync

open Library

/-- What becomes of a trade the loop comes to: the lock of its connection is held,
`runtime.acquire` or the broker's call raises, or neither does. -/
inductive EmergencyOutcome
  | busy
  | unavailable (e : PyException)
  | rejected (e : PyException)
  | done
deriving DecidableEq

/-- The action is about trades in the state of this one. -/
def EmergencyRequest.applies (request : EmergencyRequest) (trade : CopiedTrade) : Bool :=
  match trade.lifecycleState with
  | .open => request.action ≠ .cancel_pending
  | .pending => request.action ≠ .close_positions
  | _ => false

/-- Whether the action applies to a trade, if its connection has a broker account. -/
def Database.emergencyTarget (db : Database) (request : EmergencyRequest) (id : Uuid) : Option Bool :=
  (db.trades.get? id).bind fun trade => (db.tradeConnection trade).map fun _ => request.applies trade

/-- The run returns `DeliveryResult.success()`. -/
def isAcknowledged : Except PyException DeliveryResult → Bool
  | .ok .success => true
  | _ => false

/-- What a run of `execute_emergency` leaves: the trades it has called the broker for. -/
structure EmergencyRun where
  db : Database
  called : List Uuid
  result : Except PyException DeliveryResult

/-- The loop of `execute_emergency`. -/
def emergencyLoop (request : EmergencyRequest) (outcome : Uuid → EmergencyOutcome) :
    Database → List Uuid → EmergencyRun
  | db, [] => ⟨db, [], .ok .success⟩
  | db, id :: rest =>
    match db.emergencyTarget request id, outcome id with
    | none, _ => emergencyLoop request outcome db rest
    | some _, .busy => ⟨db, [], .ok (.retry "CONNECTION_BUSY")⟩
    | some _, .unavailable e => ⟨db, [], .error e⟩
    | some true, .rejected e => ⟨db, [id], .error e⟩
    | some applies, _ =>
      let run := emergencyLoop request outcome { db with trades := db.trades.modify id (emergencyTrade request) } rest
      { run with called := if applies then id :: run.called else run.called }

/-- A delivery of an emergency about the trades of `db`: the order in which its query
returns them, and what becomes of each. -/
structure EmergencyDelivery (db : Database) (request : EmergencyRequest) where
  order : List Uuid
  outcome : Uuid → EmergencyOutcome
  order_perm : order.Perm (db.emergencyTrades request)

variable {db : Database} {request : EmergencyRequest}

/-- `execute_emergency`. -/
def executeEmergency (db' : Database) (d : EmergencyDelivery db request) : EmergencyRun :=
  emergencyLoop request d.outcome db' (d.order.filter fun id => id ∈ db'.emergencyTrades request)

structure EmergencyState where
  db : Database
  called : List Uuid := []
  acknowledged : Bool := false

/-- After `k` deliveries; a run that succeeds is the last. -/
def emergencyAfter (deliveries : Nat → EmergencyDelivery db request) : Nat → EmergencyState
  | 0 => { db }
  | k + 1 =>
    let s := emergencyAfter deliveries k
    if s.acknowledged then s
    else
      let run := executeEmergency s.db (deliveries k)
      { db := run.db, called := s.called ++ run.called, acknowledged := isAcknowledged run.result }

/-! ## The loop and the handler's steps -/

/-- What the worker makes of the loop's end. -/
def EmergencyRun.delivered [Unicode] (run : EmergencyRun) : DeliveryResult :=
  match run.result with
  | .ok result => result
  | .error e => .retry (Unicode.upper e.name)

/-- A turn of the loop is a step of the handler, from the rows that are left. -/
theorem emergencyStep_of_loop [Unicode] {outcome : Uuid → EmergencyOutcome} {id : Uuid} {rest : List Uuid}
    (h : (db.trades.get? id).isSome) :
    ∃ label hs, emergencyStep (fun _ => true) db request id rest label = some hs ∧
      (hs.stage = .handle (.emergencyRows request rest) ∧
          (emergencyLoop request outcome db (id :: rest)).db = (emergencyLoop request outcome hs.db rest).db ∧
          (emergencyLoop request outcome db (id :: rest)).result = (emergencyLoop request outcome hs.db rest).result ∨
        hs.db = (emergencyLoop request outcome db (id :: rest)).db ∧
          hs.stage = .result (emergencyLoop request outcome db (id :: rest)).delivered) := by
  obtain ⟨trade, ht⟩ := Option.isSome_iff_exists.mp h
  cases hc : db.tradeConnection trade with
  | none =>
    have htarget : db.emergencyTarget request id = none := by simp [Database.emergencyTarget, ht, hc]
    exact ⟨.emergencyDone, .goto db (.emergencyRows request rest), by simp [emergencyStep, ht, hc],
      .inl ⟨rfl, by simp [emergencyLoop, htarget, HandlerStep.goto], by simp [emergencyLoop, htarget, HandlerStep.goto]⟩⟩
  | some connectionId =>
    have htarget : db.emergencyTarget request id = some (request.applies trade) := by
      simp [Database.emergencyTarget, ht, hc]
    cases ho : outcome id with
    | busy =>
      exact ⟨.emergencyBusy, .finish db (.retry "CONNECTION_BUSY"), by simp [emergencyStep, ht, hc],
        .inr (by simp [emergencyLoop, htarget, ho, HandlerStep.finish, EmergencyRun.delivered])⟩
    | unavailable e =>
      exact ⟨.emergencyFails e, .raise db e, by simp [emergencyStep, ht, hc],
        .inr (by simp [emergencyLoop, htarget, ho, HandlerStep.raise, HandlerStep.finish, EmergencyRun.delivered])⟩
    | rejected e =>
      cases happ : request.applies trade with
      | true =>
        exact ⟨.emergencyFails e, .raise db e, by simp [emergencyStep, ht, hc],
          .inr (by simp [emergencyLoop, htarget, happ, ho, HandlerStep.raise, HandlerStep.finish, EmergencyRun.delivered])⟩
      | false =>
        exact ⟨.emergencyDone, _, by simp [emergencyStep, ht, hc]; rfl,
          .inl (by simp [emergencyLoop, htarget, happ, ho, HandlerStep.goto])⟩
    | done =>
      exact ⟨.emergencyDone, _, by simp [emergencyStep, ht, hc]; rfl,
        .inl (by simp [emergencyLoop, htarget, ho, HandlerStep.goto])⟩

/-- It leaves the trades alone, or ends the next one. -/
theorem emergencyStep_trades [Unicode] {lockFree : Option Uuid → Bool} {id : Uuid} {rest : List Uuid} {label : HandlerLabel} {h : HandlerStep}
    (hs : emergencyStep lockFree db request id rest label = some h) :
    h.db.trades = db.trades ∨ label = .emergencyDone ∧ h.db.trades = db.trades.modify id (emergencyTrade request) := by
  unfold emergencyStep at hs
  split at hs
  · cases hs
  · dsimp only at hs
    split at hs
    · cases hs
      exact .inl rfl
    · cases hs
      exact .inl rfl
    · split at hs <;> cases hs
      exact .inl rfl
    · split at hs <;> cases hs
      exact .inr ⟨rfl, rfl⟩
    · cases hs

/-- A step of a delivery's handler, while the connections are free. -/
def handlingStep [Unicode] (settings : ExecutionSettings) (attempt : Nat) (now : Time) (s : Database × DeliveryStage ExecutionPhase)
    (label : HandlerLabel) : Option (Database × DeliveryStage ExecutionPhase) :=
  match s.2 with
  | .handle phase => (handlerStep settings attempt now (fun _ => true) s.1 phase label).map fun hs => (hs.db, hs.stage)
  | _ => none

/-- The handler goes through the rows as the loop does, and ends as it does. -/
theorem reach_emergencyLoop [Unicode] (settings : ExecutionSettings) (attempt : Nat) (now : Time) (request : EmergencyRequest)
    (outcome : Uuid → EmergencyOutcome) {ids : List Uuid} (h : ∀ id ∈ ids, (db.trades.get? id).isSome) :
    Reach (handlingStep settings attempt now) always (db, .handle (.emergencyRows request ids))
      ((emergencyLoop request outcome db ids).db, .result (emergencyLoop request outcome db ids).delivered) := by
  induction ids generalizing db with
  | nil => exact Reach.refl.tail (a := .emergency) trivial rfl
  | cons id rest ih =>
    obtain ⟨label, hs, hstep, hends⟩ := @emergencyStep_of_loop db request _ outcome id rest (h id List.mem_cons_self)
    have hsession : handlingStep settings attempt now (db, .handle (.emergencyRows request (id :: rest))) label = some (hs.db, hs.stage) := by
      cases label <;> first | exact congrArg (Option.map fun hs => (hs.db, hs.stage)) hstep
    have hfirst : Reach (handlingStep settings attempt now) always (db, .handle (.emergencyRows request (id :: rest))) (hs.db, hs.stage) :=
      Reach.refl.tail trivial hsession
    rcases hends with ⟨hstage, hdb, hresult⟩ | ⟨hdb, hstage⟩
    · have hrest : ∀ id' ∈ rest, (hs.db.trades.get? id').isSome := by
        intro id' hid'
        have hsome := h id' (List.mem_cons_of_mem _ hid')
        rcases emergencyStep_trades hstep with ht | ⟨-, ht⟩
        · rwa [ht]
        · rw [ht, Table.get?_modify]
          split
          · rwa [Option.isSome_map]
          · exact hsome
      rw [hstage] at hfirst
      rw [hdb, EmergencyRun.delivered, hresult, ← EmergencyRun.delivered]
      exact hfirst.trans (ih hrest)
    · rwa [hdb, hstage] at hfirst

/-! ## One delivery -/

theorem applies_emergencyTrade {trade : CopiedTrade} (h : request.applies trade = false) :
    emergencyTrade request trade = trade := by
  unfold EmergencyRequest.applies at h
  unfold emergencyTrade
  split at h <;> simp_all

theorem isActive_emergencyTrade {trade : CopiedTrade} (h : request.applies trade) :
    (emergencyTrade request trade).lifecycleState.isActive = false := by
  unfold EmergencyRequest.applies at h
  unfold emergencyTrade
  split at h <;> simp_all [LifecycleState.isActive]

namespace Database

/-- The database once the trades that are not `still` there have been closed or
cancelled. -/
def swept (db : Database) (request : EmergencyRequest) (still : Uuid → Bool) : Database :=
  { db with trades := db.trades.mapRows fun id trade => if still id then trade else emergencyTrade request trade }

/-- Trades the action applies to and whose connection has an account leave once done. -/
def emergencyLeaves (db : Database) (request : EmergencyRequest) (id : Uuid) : Bool :=
  db.emergencyTarget request id = some true

variable {still : Uuid → Bool} {id : Uuid}

theorem emergencyTarget_swept (h : still id) : (db.swept request still).emergencyTarget request id = db.emergencyTarget request id := by
  have hrow : (db.swept request still).trades.get? id = db.trades.get? id := by simp [swept, Table.get?_mapRows, h]
  rw [emergencyTarget, emergencyTarget, hrow]
  rfl

theorem swept_all : db.swept request (fun _ => true) = db := by
  have htrades : (db.trades.mapRows fun _ trade => trade) = db.trades := by simp [Table.mapRows]
  simp [swept, htrades]

/-- One more trade leaves. -/
theorem modify_swept (h : still id) :
    { db.swept request still with trades := (db.swept request still).trades.modify id (emergencyTrade request) } =
      db.swept request (fun i => still i && i ≠ id) := by
  have htrades : (db.swept request still).trades.modify id (emergencyTrade request) =
      (db.swept request fun i => still i && i ≠ id).trades := by
    simp only [swept, Table.modify, Table.mapRows, List.map_map, Table.mk.injEq]
    refine List.map_congr_left fun e _ => ?_
    by_cases he : e.1 = id
    · subst id
      simp [h]
    · simp [he]
  rw [htrades]
  rfl

/-- The query of a later delivery. -/
theorem mem_emergencyTrades_swept (hs : ∀ i, still i = false → db.emergencyLeaves request i) :
    id ∈ (db.swept request still).emergencyTrades request ↔ id ∈ db.emergencyTrades request ∧ still id := by
  simp only [emergencyTrades, List.mem_map, Table.mem_select, Prod.exists, exists_and_right, exists_eq_right]
  have hrow : (db.swept request still).trades.get? id =
      (db.trades.get? id).map fun trade => if still id then trade else emergencyTrade request trade := Table.get?_mapRows _
  cases h : still id with
  | true =>
    simp only [hrow, h, if_true, Option.map_id', and_true]
    rfl
  | false =>
    simp only [hrow, h, Bool.false_eq_true, if_false, and_false, iff_false]
    rintro ⟨trade, ht, ha⟩
    obtain ⟨trade, htrade, rfl⟩ := Option.map_eq_some_iff.mp ht
    have hleaves := hs id h
    have happ : request.applies trade := by
      simp only [emergencyLeaves, emergencyTarget, htrade, decide_eq_true_eq] at hleaves
      obtain ⟨_, -, happ⟩ := Option.map_eq_some_iff.mp hleaves
      exact happ
    simp [isActive_emergencyTrade happ] at ha

end Database

namespace EmergencyDelivery

variable (d : EmergencyDelivery db request)

/-- The loop goes on after the trade, if it comes to it. -/
def succeeds (id : Uuid) : Bool :=
  match db.emergencyTarget request id, d.outcome id with
  | none, _ => true
  | some _, .done => true
  | some false, .rejected _ => true
  | _, _ => false

/-- The broker is called for the trade, if the loop comes to it. -/
def calls (id : Uuid) : Bool :=
  match db.emergencyTarget request id, d.outcome id with
  | some true, .rejected _ => true
  | some true, .done => true
  | _, _ => false

def pass : Pass Uuid := ⟨d.order, d.succeeds, d.calls⟩

variable {d} {db' : Database} {id : Uuid} {rest : List Uuid}

theorem calls_of_succeeds (hl : db.emergencyLeaves request id) (h : d.succeeds id) : d.calls id := by
  have ht : db.emergencyTarget request id = some true := of_decide_eq_true hl
  unfold succeeds at h
  unfold calls
  cases ho : d.outcome id <;> simp_all

/-- A trade that ends the loop. -/
theorem loop_of_fails (rest : List Uuid) (ht : db'.emergencyTarget request id = db.emergencyTarget request id)
    (h : d.succeeds id = false) :
    (emergencyLoop request d.outcome db' (id :: rest)).db = db' ∧
      (emergencyLoop request d.outcome db' (id :: rest)).called = (if d.calls id then [id] else []) ∧
      isAcknowledged (emergencyLoop request d.outcome db' (id :: rest)).result = false := by
  unfold succeeds at h
  unfold calls emergencyLoop
  rw [ht]
  split at h
  · cases h
  · cases h
  · cases h
  · cases htarget : db.emergencyTarget request id with
    | none => simp_all
    | some applies => cases ho : d.outcome id <;> cases applies <;> simp_all [isAcknowledged]

/-- A trade after which it goes on. -/
theorem loop_of_succeeds (ht : db'.emergencyTarget request id = db.emergencyTarget request id) (h : d.succeeds id) :
    emergencyLoop request d.outcome db' (id :: rest) =
      let run := emergencyLoop request d.outcome
        (if db.emergencyLeaves request id then { db' with trades := db'.trades.modify id (emergencyTrade request) } else db') rest
      { run with called := if d.calls id then id :: run.called else run.called } := by
  unfold succeeds at h
  unfold calls Database.emergencyLeaves
  rw [emergencyLoop, ht]
  cases htarget : db.emergencyTarget request id with
  | none => simp
  | some applies =>
    cases applies with
    | true => cases ho : d.outcome id <;> simp_all
    | false =>
      have hself : db'.trades.modify id (emergencyTrade request) = db'.trades := Table.modify_eq_self fun trade hrow => by
        rw [htarget, Database.emergencyTarget, hrow] at ht
        obtain ⟨_, -, happ⟩ := Option.map_eq_some_iff.mp ht
        exact applies_emergencyTrade happ
      cases ho : d.outcome id <;> simp_all

/-- One delivery is a pass over the trades still there. -/
theorem loop_swept {still : Uuid → Bool} {rows : List Uuid} (hn : rows.Nodup) (hs : ∀ i ∈ rows, still i) :
    (emergencyLoop request d.outcome (db.swept request still) rows).db =
        db.swept request (fun i => still i && !(db.emergencyLeaves request i && decide (i ∈ upToFailure d.succeeds rows) && d.succeeds i)) ∧
      (emergencyLoop request d.outcome (db.swept request still) rows).called = (upToFailure d.succeeds rows).filter d.calls ∧
      (isAcknowledged (emergencyLoop request d.outcome (db.swept request still) rows).result ↔ ∀ i ∈ rows, d.succeeds i) := by
  induction rows generalizing still with
  | nil => simp [emergencyLoop, upToFailure, isAcknowledged]
  | cons id rest ih =>
    obtain ⟨hid, hn⟩ := List.nodup_cons.mp hn
    have hstill : still id := hs id List.mem_cons_self
    have ht : (db.swept request still).emergencyTarget request id = db.emergencyTarget request id := Database.emergencyTarget_swept hstill
    cases ho : d.succeeds id with
    | false =>
      obtain ⟨hdb, hc, hr⟩ := loop_of_fails rest ht ho
      refine ⟨hdb.trans (congrArg _ (funext fun i => ?_)), by simp [hc, upToFailure, ho, List.filter_cons], by simp [hr, ho]⟩
      by_cases hi : i = id <;> simp [upToFailure, ho, hi]
    | true =>
      rw [loop_of_succeeds ht ho]
      dsimp only
      cases hl : db.emergencyLeaves request id with
      | false =>
        obtain ⟨hdb, hc, hr⟩ := ih hn fun i hi => hs i (List.mem_cons_of_mem id hi)
        refine ⟨hdb.trans (congrArg _ (funext fun i => ?_)), ?_, by simpa [ho] using hr⟩
        · by_cases hi : i = id
          · simp [hi, hl]
          · simp [upToFailure, ho, hi]
        · simp [hc, upToFailure, ho, List.filter_cons]
      | true =>
        rw [if_pos rfl, Database.modify_swept hstill]
        have hrest : ∀ i ∈ rest, (still i && decide (i ≠ id)) = true := fun i hi => by
          have hne : i ≠ id := fun he => hid (he ▸ hi)
          simp [hs i (List.mem_cons_of_mem id hi), hne]
        obtain ⟨hdb, hc, hr⟩ := ih hn hrest
        refine ⟨hdb.trans (congrArg _ (funext fun i => ?_)), ?_, by simpa [ho] using hr⟩
        · by_cases hi : i = id
          · simp [hi, hl, ho, upToFailure]
          · simp [upToFailure, ho, hi]
        · rw [hc]
          simp [upToFailure, ho, List.filter_cons]

end EmergencyDelivery

/-! ## All deliveries -/

section

variable (deliveries : Nat → EmergencyDelivery db request)

/-- The deliveries as passes. -/
def emergencyPasses (k : Nat) : Pass Uuid := (deliveries k).pass

/-- The action is about the trade. -/
def Database.emergencyApplies (db : Database) (request : EmergencyRequest) (id : Uuid) : Bool :=
  (db.trades.get? id).any request.applies

variable {deliveries} {id : Uuid}

theorem mem_emergencyPasses {k : Nat} : id ∈ (emergencyPasses deliveries k).order ↔ id ∈ db.emergencyTrades request :=
  (deliveries k).order_perm.mem_iff

variable (deliveries) in
/-- What the deliveries so far have done: they are passes over the trades, each called
for where it has been tried. -/
theorem emergencyAfter_passes (k : Nat) :
    ((emergencyAfter deliveries k).acknowledged = false ↔ Running (emergencyPasses deliveries) (db.emergencyLeaves request) k) ∧
      (Running (emergencyPasses deliveries) (db.emergencyLeaves request) k →
        (emergencyAfter deliveries k).db = db.swept request (left (emergencyPasses deliveries) (db.emergencyLeaves request) k)) ∧
      ∀ id, id ∈ (emergencyAfter deliveries k).called ↔
        ∃ j < k, Tried (emergencyPasses deliveries) (db.emergencyLeaves request) j id := by
  induction k with
  | zero => simp [emergencyAfter, Running, left, Database.swept_all]
  | succ k ih =>
    obtain ⟨hack, hdb, hcalled⟩ := ih
    have hlast : ∀ id, (∃ j < k + 1, Tried (emergencyPasses deliveries) (db.emergencyLeaves request) j id) ↔
        (∃ j < k, Tried (emergencyPasses deliveries) (db.emergencyLeaves request) j id) ∨
          Tried (emergencyPasses deliveries) (db.emergencyLeaves request) k id := fun id => Nat.exists_lt_succ_right
    simp only [emergencyAfter, hlast, running_succ]
    cases ha : (emergencyAfter deliveries k).acknowledged with
    | true =>
      have hr : ¬ Running (emergencyPasses deliveries) (db.emergencyLeaves request) k := fun hr => by
        rw [hack.mpr hr] at ha
        cases ha
      simp only [if_true, ha, hr, false_and, Bool.true_eq_false, false_implies, true_and, hcalled]
      intro id
      exact ⟨.inl, fun h => h.resolve_right fun h => hr h.1⟩
    | false =>
      have hr := hack.mp ha
      have hstill : ∀ i, left (emergencyPasses deliveries) (db.emergencyLeaves request) k i = false → db.emergencyLeaves request i :=
        fun i hi => by
          obtain ⟨_, -, hl, -⟩ := left_eq_false.1 hi
          exact hl
      -- the rows of this delivery are the trades still there
      have hrows : ((deliveries k).order.filter fun id => id ∈ (emergencyAfter deliveries k).db.emergencyTrades request) =
          (deliveries k).order.filter (left (emergencyPasses deliveries) (db.emergencyLeaves request) k) :=
        List.filter_congr fun id hid => by
          simp [hdb hr, Database.mem_emergencyTrades_swept hstill, mem_emergencyPasses.1 hid]
      have hrun : executeEmergency (emergencyAfter deliveries k).db (deliveries k) = emergencyLoop request (deliveries k).outcome
          (db.swept request (left (emergencyPasses deliveries) (db.emergencyLeaves request) k))
          ((deliveries k).order.filter (left (emergencyPasses deliveries) (db.emergencyLeaves request) k)) := by
        rw [executeEmergency, hrows, hdb hr]
      have hn : (deliveries k).order.Nodup := (deliveries k).order_perm.nodup_iff.mpr (Table.nodup_select _ _)
      obtain ⟨hdb', hcalled', hack'⟩ := (deliveries k).loop_swept (hn.filter _) fun i hi => (List.mem_filter.mp hi).2
      simp only [Bool.false_eq_true, if_false, hrun]
      refine ⟨?_, fun _ => hdb', fun id => ?_⟩
      · rw [← Bool.not_eq_true, hack']
        simp [hr, emergencyPasses, EmergencyDelivery.pass]
      · rw [hcalled', List.mem_append, hcalled, List.mem_filter]
        exact or_congr_right ⟨fun h => ⟨hr, h.1, h.2⟩, fun h => ⟨h.2.1, h.2.2⟩⟩

/-- Every trade the action is about is called for in one of the `max_attempts`
deliveries iff each is on a connection with an account and has a turn: a delivery
in which its lock is free and its account acquired, and in which every trade the query
returns before it succeeds, unless that one has been done in its own, earlier, turn. -/
theorem emergency_reaches_all (deliveries : Nat → EmergencyDelivery db request) (maxAttempts : Nat) :
    (∀ id ∈ db.emergencyTrades request, db.emergencyApplies request id →
        id ∈ (emergencyAfter deliveries maxAttempts).called) ↔
      (∀ id ∈ db.emergencyTrades request, db.emergencyApplies request id → (db.emergencyTarget request id).isSome) ∧
        ∃ turn, Turns (emergencyPasses deliveries) (db.emergencyLeaves request) (db.emergencyTrades request) maxAttempts turn := by
  obtain ⟨-, -, hcalled⟩ := emergencyAfter_passes deliveries maxAttempts
  rw [← all_tried_iff (fun k id => mem_emergencyPasses) fun k id hl ho => EmergencyDelivery.calls_of_succeeds hl ho]
  simp only [hcalled]
  have hleaves : ∀ id, db.emergencyLeaves request id ↔
      db.emergencyApplies request id ∧ (db.emergencyTarget request id).isSome := fun id => by
    unfold Database.emergencyLeaves Database.emergencyApplies Database.emergencyTarget
    cases db.trades.get? id with
    | none => simp
    | some trade => cases hc : db.tradeConnection trade <;> simp [hc]
  constructor
  · intro h
    refine ⟨fun id hid ha => ?_, fun id hid hl => h id hid ((hleaves id).mp hl).1⟩
    obtain ⟨j, -, -, -, hc⟩ := h id hid ha
    -- the broker is called only for an account
    cases ht : db.emergencyTarget request id with
    | some _ => rfl
    | none => simp [emergencyPasses, EmergencyDelivery.pass, EmergencyDelivery.calls, ht] at hc
  · rintro ⟨haccount, h⟩ id hid ha
    exact h id hid ((hleaves id).mpr ⟨ha, haccount id hid ha⟩)

end

/-! ## An account that cannot be acquired -/

/-- Two open trades of one user, on two routes to two accounts. -/
def goldEmergency : Database where
  connections := .addAll ∅ [(3, { metaapiAccountId := some "A", state := .ready }), (6, { metaapiAccountId := some "B", state := .ready })]
  routes := .addAll ∅ ([(4, 3), (5, 6)].map fun (id, target) =>
    (id, { userId := 1, sourceId := 2, targetConnectionId := some target, state := .active, fixedLot := ⟨100⟩, fixedLot_pos := hundredth_pos }))
  trades := .addAll ∅ ([(12, 4, 3), (13, 5, 6)].map fun (id, route, target) =>
    (id, { id, routeId := route, threadId := 0, connectionId := some target, signalSymbol := "XAUUSD", brokerSymbol := "XAUUSD"
           brokerOrderId := none, brokerPositionId := some "P", lifecycleState := .open, originalVolume := none
           currentVolume := none, stopLoss := none, takeProfit := none, createdAt := seconds 101 }))

def goldCloseAll : EmergencyRequest := { userId := 1, action := .close_positions }

/-- In every delivery, the account of the first trade cannot be acquired. -/
def goldUnavailable (_ : Nat) : EmergencyDelivery goldEmergency goldCloseAll where
  order := [12, 13]
  outcome id := if id = 12 then .unavailable ⟨"TimeoutException", false, false⟩ else .done
  order_perm := by decide

/-- The second trade is never called for, though nothing about it fails. -/
theorem goldUnavailable_stops : 13 ∈ goldEmergency.emergencyTrades goldCloseAll ∧ goldEmergency.emergencyApplies goldCloseAll 13 ∧
    (∀ k, (goldUnavailable k).outcome 13 = .done) ∧ 13 ∉ (emergencyAfter goldUnavailable 2).called := by
  refine ⟨by decide +kernel, by decide +kernel, fun k => rfl, by decide +kernel⟩

end SignalSync
