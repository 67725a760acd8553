import SignalSync.Execution.World
import SignalSync.Routes.Configuration

/-!
# The reference values of the equity limits

A policy's peak and daily anchor are moved by the checks of openings and cleared by the
requests that set the limits. The columns hold them with two digits; a check compares the
equity of its moment with what they hold, or with that equity itself where it takes their
place.

* `EquityHistory.columns`: what the columns hold, by what has been seen;
* `EquityHistory.prepareStep`: the preparation of an order is one of these checks;
* `equityGuards`: no opening is submitted once a limit is reached.
-/

namespace SignalSync

open Library Routes

/-! ## What has been seen -/

/-- What happens to the reference values of a policy. -/
inductive EquityEvent
  /-- An opening is checked, the account's equity known or not. -/
  | evaluated (day : Nat) (equity : Option ℚ)
  /-- A request is accepted; it sets the daily loss limit, the drawdown limit. -/
  | updated (lossLimit drawdownLimit : Bool)
deriving DecidableEq

/-- The equities seen since the drawdown limit was set last, the latest event first. -/
def sinceDrawdownLimit : List EquityEvent → List ℚ
  | [] => []
  | .evaluated _ equity :: log => equity.toList ++ sinceDrawdownLimit log
  | .updated _ drawdownLimit :: log => if drawdownLimit then [] else sinceDrawdownLimit log

/-- The equities seen since the daily loss limit was set last, with their dates. -/
def sinceLossLimit : List EquityEvent → List (Nat × ℚ)
  | [] => []
  | .evaluated day equity :: log => (equity.map fun equity => (day, equity)).toList ++ sinceLossLimit log
  | .updated lossLimit _ :: log => if lossLimit then [] else sinceLossLimit log

/-- The first of the equities of the latest date. -/
def firstOfLatest (seen : List (Nat × ℚ)) : Option (Nat × ℚ) :=
  seen.head?.bind fun latest => (seen.filter (·.1 = latest.1)).getLast?

/-- The columns of a policy that hold its reference values. -/
@[ext] structure EquityColumns where
  date : Option Nat := none
  daily : Option (Numeric 2) := none
  peak : Option (Numeric 2) := none
deriving DecidableEq

def CopyAccountPolicy.equityColumns (policy : CopyAccountPolicy) : EquityColumns :=
  ⟨policy.dailyEquityAnchorDate, policy.dailyEquityAnchor, policy.peakEquity⟩

/-- The columns of a connection's policy; one that is not there yet has none set. -/
def Database.equityColumns (db : Database) (connectionId : Uuid) : EquityColumns :=
  ((db.policies.get? connectionId).map CopyAccountPolicy.equityColumns).getD {}

/-- The peak is the highest equity seen, the anchor the first one of the latest date. -/
def EquityColumns.of (log : List EquityEvent) : EquityColumns where
  date := (firstOfLatest (sinceLossLimit log)).map Prod.fst
  daily := (firstOfLatest (sinceLossLimit log)).map fun first => Numeric.ofRat 2 first.2
  peak := (sinceDrawdownLimit log).max?.map (Numeric.ofRat 2)

/-- The evaluations so far were not on later dates. -/
def UpTo (log : List EquityEvent) (day : Nat) : Prop := ∀ day' equity, .evaluated day' equity ∈ log → day' ≤ day

variable [Owners] [Unicode]

/-- Checks of openings on one connection and requests for its settings, each on the policy the
one before it has left. -/
inductive EquityHistory (connectionId : Uuid) : Database → List EquityEvent → Prop
  | start {db : Database} (h : db.equityColumns connectionId = {}) : EquityHistory connectionId db []
  | evaluate {db : Database} {log : List EquityEvent} (h : EquityHistory connectionId db log) {s : ReadySession} {view : BrokerView}
      {now : Time} {volume : ℚ} {loaded : CopyAccountPolicy} {anchors : EquityAnchors} {verdict : Option RiskError}
      (hs : s.policy = db.policies.get? connectionId) (hday : UpTo log (dayUtc now))
      (he : enforceLiveAccountRisk db s view now volume = .ok (some (loaded, anchors), verdict)) :
      EquityHistory connectionId (db.writeAnchors connectionId loaded anchors) (.evaluated (dayUtc now) view.equity :: log)
  | update {s s' : ConfigurationState} {log : List EquityEvent} (h : EquityHistory connectionId s.db log) {user : Uuid}
      {payload : CopyAccountPolicyUpdate} (hu : updateAccountPolicy user s connectionId payload = .ok s') :
      EquityHistory connectionId s'.db (.updated payload.dailyLossLimit.isSome payload.maxDrawdownPercent.isSome :: log)
  | other {db db' : Database} {log : List EquityEvent} (h : EquityHistory connectionId db log)
      (hc : db'.equityColumns connectionId = db.equityColumns connectionId) : EquityHistory connectionId db' log

/-! ## What the columns hold -/

/-- What a check compares the equity with for the drawdown. -/
def peakReference (log : List EquityEvent) (equity : ℚ) : ℚ :=
  ((sinceDrawdownLimit log).max?.map fun highest => max (Numeric.ofRat 2 highest).toRat equity).getD equity

/-- What it compares it with for the daily loss. -/
def dailyReference (log : List EquityEvent) (day : Nat) (equity : ℚ) : ℚ :=
  (((firstOfLatest (sinceLossLimit log)).filter (·.1 = day)).map fun first => (Numeric.ofRat 2 first.2).toRat).getD equity

omit [Owners] [Unicode] in
theorem firstOfLatest_fst {seen : List (Nat × ℚ)} {first : Nat × ℚ} (h : firstOfLatest seen = some first) :
    ∃ latest, seen.head? = some latest ∧ first.1 = latest.1 := by
  obtain ⟨latest, hlatest, hlast⟩ := Option.bind_eq_some_iff.mp h
  have hmem := List.mem_of_getLast? hlast
  exact ⟨latest, hlatest, by simpa using (List.mem_filter.mp hmem).2⟩

omit [Owners] [Unicode] in
/-- One more equity: the first of its date, unless there is one before it. -/
theorem firstOfLatest_cons {seen : List (Nat × ℚ)} {day : Nat} {equity : ℚ} (hs : seen.Pairwise fun a b => b.1 ≤ a.1)
    (hday : ∀ e ∈ seen, e.1 ≤ day) :
    firstOfLatest ((day, equity) :: seen) = some (((firstOfLatest seen).filter (·.1 = day)).getD (day, equity)) := by
  have hcons : firstOfLatest ((day, equity) :: seen) = some ((seen.filter (·.1 = day)).getLast?.getD (day, equity)) := by
    simp only [firstOfLatest, List.head?_cons, Option.bind_some, List.filter_cons, decide_true, if_true]
    exact List.getLast?_cons
  rw [hcons]
  cases seen with
  | nil => rfl
  | cons latest rest =>
    by_cases hl : latest.1 = day
    · have hsame : firstOfLatest (latest :: rest) = ((latest :: rest).filter (·.1 = day)).getLast? := by
        simp only [firstOfLatest, List.head?_cons, Option.bind_some, hl]
      have hkept : (firstOfLatest (latest :: rest)).filter (·.1 = day) = firstOfLatest (latest :: rest) := by
        cases hfirst : firstOfLatest (latest :: rest) with
        | none => rfl
        | some first =>
          obtain ⟨_, hhead, hfst⟩ := firstOfLatest_fst hfirst
          cases hhead
          rw [Option.filter_some, if_pos (decide_eq_true (hfst.trans hl))]
      rw [hkept, hsame]
    · have hnone : (latest :: rest).filter (·.1 = day) = [] := by
        refine List.filter_eq_nil_iff.mpr fun e he => ?_
        have hlatest : e.1 ≤ latest.1 := by
          rcases List.mem_cons.mp he with rfl | he
          · exact le_rfl
          · exact (List.pairwise_cons.mp hs).1 e he
        have := lt_of_le_of_ne (hday latest List.mem_cons_self) hl
        simp only [decide_eq_true_eq]
        omega
      have hother : (firstOfLatest (latest :: rest)).filter (·.1 = day) = none := by
        refine Option.filter_eq_none_iff.mpr fun first hfirst => ?_
        obtain ⟨_, hhead, hfst⟩ := firstOfLatest_fst hfirst
        cases hhead
        simp [hfst, hl]
      rw [hnone, hother]
      rfl

omit [Owners] [Unicode] in
/-- The columns that one more equity leaves. -/
theorem columns_of_seen {log : List EquityEvent} {day : Nat} (equity : ℚ)
    (hs : (sinceLossLimit log).Pairwise fun a b => b.1 ≤ a.1) (hday : ∀ e ∈ sinceLossLimit log, e.1 ≤ day) :
    EquityColumns.of (.evaluated day (some equity) :: log) =
      ⟨some day, some (Numeric.ofRat 2 (dailyReference log day equity)), some (Numeric.ofRat 2 (peakReference log equity))⟩ := by
  have hfirst : firstOfLatest (sinceLossLimit (.evaluated day (some equity) :: log)) =
      some (((firstOfLatest (sinceLossLimit log)).filter (·.1 = day)).getD (day, equity)) := firstOfLatest_cons hs hday
  refine EquityColumns.ext ?_ ?_ ?_
  · show (firstOfLatest _).map Prod.fst = some day
    rw [hfirst, Option.map_some]
    cases hf : (firstOfLatest (sinceLossLimit log)).filter (·.1 = day) with
    | none => rfl
    | some first => exact congrArg some (by simpa using (Option.filter_eq_some_iff.mp hf).2)
  · show (firstOfLatest _).map _ = some (Numeric.ofRat 2 (dailyReference log day equity))
    rw [hfirst, Option.map_some, dailyReference]
    cases (firstOfLatest (sinceLossLimit log)).filter (·.1 = day) with
    | none => rfl
    | some first => exact congrArg some (Numeric.ofRat_toRat _).symm
  · show (sinceDrawdownLimit (.evaluated day (some equity) :: log)).max?.map _ = some (Numeric.ofRat 2 (peakReference log equity))
    have hmax : (sinceDrawdownLimit (.evaluated day (some equity) :: log)).max? =
        some ((sinceDrawdownLimit log).max?.elim equity (max equity)) := List.max?_cons
    rw [hmax, Option.map_some, peakReference]
    cases (sinceDrawdownLimit log).max? with
    | none => rfl
    | some highest =>
      have hraised := Numeric.ofRat_raised (s := 2) highest equity
      rw [← max_def_lt] at hraised
      exact congrArg some hraised.symm

/-! ## The checks -/

omit [Owners] [Unicode] in
/-- The anchors of a check, by what has been seen before it. -/
theorem anchors_of_columns {policy : CopyAccountPolicy} {log : List EquityEvent} (h : policy.equityColumns = .of log) (now : Time)
    (equity : ℚ) : policy.anchors now (some equity) =
      ⟨some (dayUtc now), some (dailyReference log (dayUtc now) equity), some (peakReference log equity)⟩ := by
  obtain ⟨hdate, hdaily, hpeak⟩ := EquityColumns.ext_iff.mp h
  simp only [CopyAccountPolicy.equityColumns, EquityColumns.of] at hdate hdaily hpeak
  have hd : (if policy.dailyEquityAnchorDate = some (dayUtc now) then policy.dailyEquityAnchor.map Numeric.toRat else some equity) =
      some (dailyReference log (dayUtc now) equity) := by
    rw [hdate, hdaily, dailyReference]
    cases firstOfLatest (sinceLossLimit log) with
    | none => rfl
    | some first =>
      by_cases hday : first.1 = dayUtc now
      · rw [Option.map_some, if_pos (congrArg some hday), Option.filter_some, if_pos (decide_eq_true hday)]
        rfl
      · rw [Option.map_some, if_neg (fun he => hday (Option.some.inj he)), Option.filter_some, if_neg (by simpa using hday)]
        rfl
  have hp : (if (policy.peakEquity.map Numeric.toRat).all (· < equity) then some equity else policy.peakEquity.map Numeric.toRat) =
      some (peakReference log equity) := by
    rw [hpeak, peakReference]
    cases (sinceDrawdownLimit log).max? with
    | none => rfl
    | some highest =>
      simp only [Option.map_some, Option.all_some, Option.getD_some, decide_eq_true_eq, max_def_lt]
      split <;> rfl
  rw [CopyAccountPolicy.anchors]
  simp only [hd, hp]

omit [Owners] in
theorem enforceLiveAccountRisk_of_policy {db : Database} {s : ReadySession} {policy : CopyAccountPolicy} {view : BrokerView}
    {now : Time} {volume : ℚ} (hs : s.policy = some policy) (hv : 0 < volume) :
    enforceLiveAccountRisk db s view now volume = .ok (some (policy, policy.anchors now view.equity),
      (liveRisk policy (db.activeTrades s.route) (policy.anchors now view.equity) view.equity
        s.intent.requestPayload.context.symbol volume).violation) := by
  rw [enforceLiveAccountRisk, if_neg (not_le.mpr hv), hs]
  simp only [ensureAccountRiskWithinLimits]
  split
  · next hok =>
    split at hok
    · cases hok
    · next hviolation => rw [hviolation]
  · next hrefused =>
    split at hrefused
    · next hviolation =>
      cases hrefused
      rw [hviolation]
    · cases hrefused

omit [Owners] in
/-- A check that has moved the anchors was made for the session's policy. -/
theorem enforceLiveAccountRisk_moved {db : Database} {s : ReadySession} {loaded : CopyAccountPolicy} {view : BrokerView}
    {now : Time} {volume : ℚ} {anchors : EquityAnchors} {verdict : Option RiskError}
    (h : enforceLiveAccountRisk db s view now volume = .ok (some (loaded, anchors), verdict)) :
    s.policy = some loaded ∧ anchors = loaded.anchors now view.equity := by
  by_cases hv : 0 < volume
  · cases hs : s.policy with
    | none =>
      rw [enforceLiveAccountRisk, if_neg (not_le.mpr hv), hs] at h
      cases h
    | some policy =>
      rw [enforceLiveAccountRisk_of_policy hs hv] at h
      cases h
      exact ⟨rfl, rfl⟩
  · rw [enforceLiveAccountRisk, if_pos (not_lt.mp hv)] at h
    cases h

/-! ## Histories -/

variable {connectionId : Uuid} {db : Database} {log : List EquityEvent}

omit [Owners] [Unicode] in
theorem equityColumns_of_policy {policy : CopyAccountPolicy} (h : db.policies.get? connectionId = some policy) :
    db.equityColumns connectionId = policy.equityColumns := by
  rw [Database.equityColumns, h]
  rfl

omit [Owners] [Unicode] in
theorem equityColumns_writeAnchors {loaded : CopyAccountPolicy} (h : db.policies.get? connectionId = some loaded)
    (anchors : EquityAnchors) : (db.writeAnchors connectionId loaded anchors).equityColumns connectionId =
      ⟨anchors.date, anchors.daily.map (Numeric.ofRat 2), anchors.peak.map (Numeric.ofRat 2)⟩ := by
  rw [Database.equityColumns, Database.writeAnchors, Table.get?_modify_self, h]
  simp only [Option.map_some, Option.getD_some, CopyAccountPolicy.equityColumns, writeBack_self]

omit [Owners] in
/-- The lists of symbols are all that a validation touches. -/
theorem limits_of_validate {payload normalized : CopyAccountPolicyUpdate} (h : payload.validate = .ok normalized) :
    normalized.dailyLossLimit = payload.dailyLossLimit ∧ normalized.maxDrawdownPercent = payload.maxDrawdownPercent := by
  unfold CopyAccountPolicyUpdate.validate at h
  simp only at h
  split at h
  · cases h
  · split at h
    · cases h
    · cases h
      exact ⟨rfl, rfl⟩

/-- A request clears what belongs to the limits it sets. -/
theorem equityColumns_updateAccountPolicy {user : Uuid} {s s' : ConfigurationState} {payload : CopyAccountPolicyUpdate}
    (h : updateAccountPolicy user s connectionId payload = .ok s') :
    s'.db.equityColumns connectionId =
      { date := if payload.dailyLossLimit.isSome then none else (s.db.equityColumns connectionId).date
        daily := if payload.dailyLossLimit.isSome then none else (s.db.equityColumns connectionId).daily
        peak := if payload.maxDrawdownPercent.isSome then none else (s.db.equityColumns connectionId).peak } := by
  cases updateAccountPolicy_cases h with
  | @policy _ _ _ normalized policy hv _ hp =>
    have hbefore : policy.equityColumns = s.db.equityColumns connectionId := by
      rw [withPolicy, Table.get?_add, if_pos rfl] at hp
      rw [Database.equityColumns]
      cases hs : s.db.policies.get? connectionId with
      | none =>
        rw [hs] at hp
        cases hp
        rfl
      | some stored =>
        rw [hs] at hp
        cases hp
        rfl
    obtain ⟨hloss, hdrawdown⟩ := limits_of_validate hv
    rw [Database.equityColumns, Table.get?_modify_self, hp, ← hbefore, ← hloss, ← hdrawdown]
    rfl

omit [Owners] [Unicode] in
theorem mem_of_sinceLossLimit {e : Nat × ℚ} (h : e ∈ sinceLossLimit log) : .evaluated e.1 (some e.2) ∈ log := by
  induction log with
  | nil => cases h
  | cons event log ih =>
    cases event with
    | updated lossLimit drawdownLimit =>
      rw [sinceLossLimit] at h
      split at h
      · cases h
      · exact List.mem_cons_of_mem _ (ih h)
    | evaluated day equity =>
      rcases List.mem_append.mp h with h | h
      · obtain ⟨value, rfl, rfl⟩ := Option.map_eq_some_iff.mp (Option.mem_toList.mp h)
        exact List.mem_cons_self
      · exact List.mem_cons_of_mem _ (ih h)

/-- The equities since the loss limit was set are in the order of their dates. -/
theorem EquityHistory.sorted (h : EquityHistory connectionId db log) : (sinceLossLimit log).Pairwise fun a b => b.1 ≤ a.1 := by
  induction h with
  | start => exact List.Pairwise.nil
  | other _ _ ih => exact ih
  | update _ _ ih =>
    rw [sinceLossLimit]
    split
    · exact List.Pairwise.nil
    · exact ih
  | @evaluate _ log _ _ view now _ _ _ _ _ hday _ ih =>
    rw [sinceLossLimit]
    cases view.equity with
    | none => exact ih
    | some equity => exact List.pairwise_cons.mpr ⟨fun e he => hday e.1 (some e.2) (mem_of_sinceLossLimit he), ih⟩

/-- The columns hold what has been seen. -/
theorem EquityHistory.columns (h : EquityHistory connectionId db log) : db.equityColumns connectionId = .of log := by
  induction h with
  | start h => exact h
  | other _ hc ih => exact hc.trans ih
  | update _ hu ih =>
    rw [equityColumns_updateAccountPolicy hu, ih]
    refine EquityColumns.ext ?_ ?_ ?_ <;> simp only [EquityColumns.of, sinceLossLimit, sinceDrawdownLimit] <;> split <;> rfl
  | @evaluate db log h s view now _ loaded anchors _ hs hday he ih =>
    obtain ⟨hp, rfl⟩ := enforceLiveAccountRisk_moved he
    rw [hs] at hp
    have hstored : loaded.equityColumns = .of log := (equityColumns_of_policy hp).symm.trans ih
    rw [equityColumns_writeAnchors hp]
    cases view.equity with
    | none =>
      have hkept (column : Option (Numeric 2)) : (column.map Numeric.toRat).map (Numeric.ofRat 2) = column := by
        cases column with
        | none => rfl
        | some n => exact congrArg some (Numeric.ofRat_toRat n)
      have hnothing : EquityColumns.of (.evaluated (dayUtc now) none :: log) = .of log := rfl
      rw [CopyAccountPolicy.anchors, hnothing, ← hstored]
      simp only [hkept]
      rfl
    | some equity =>
      rw [anchors_of_columns hstored, columns_of_seen equity h.sorted fun e he => hday e.1 (some e.2) (mem_of_sinceLossLimit he)]
      rfl

omit [Owners] in
/-- What a prepared run writes to its policy is what the check has moved. -/
theorem anchors_of_prepareExecution {now : Time} {s : ReadySession} {restored : List (Uuid × CopyRoute)} {view : BrokerView}
    {pending : PendingWrites} {prepared : Prepared} (h : prepareExecution db now s restored view = .ok (pending, prepared)) :
    pending.connectionId = s.connectionId ∧ (pending.anchors = none ∨ ∃ volume verdict,
      enforceLiveAccountRisk db s view now volume = .ok (pending.anchors, verdict)) := by
  unfold prepareExecution at h
  split at h
  · cases h
  · cases h
  · simp only at h
    split at h
    · cases h
    · cases h
      exact ⟨rfl, .inl rfl⟩
    · split at h
      · cases h
      · next hrisk =>
        cases h
        exact ⟨rfl, .inr ⟨_, _, hrisk⟩⟩
      · next hrisk =>
        cases h
        exact ⟨rfl, .inr ⟨_, _, hrisk⟩⟩

omit [Owners] [Unicode] in
theorem equityColumns_apply (p : PendingWrites) (db : Database) :
    (p.apply db).equityColumns p.connectionId = match p.anchors with
      | some (loaded, anchors) => (db.writeAnchors p.connectionId loaded anchors).equityColumns p.connectionId
      | none => db.equityColumns p.connectionId := by
  unfold PendingWrites.apply
  cases p.mapping <;> cases p.anchors <;> rfl

/-- The preparation of an order is a check of it, or leaves the columns as they are. -/
theorem EquityHistory.prepareStep {s : ReadySession} (h : EquityHistory s.connectionId db log)
    (hs : s.policy = db.policies.get? s.connectionId) {now : Time} (hday : UpTo log (dayUtc now))
    (restored : List (Uuid × CopyRoute)) (view : BrokerView) :
    EquityHistory s.connectionId (prepareStep now db s restored view).db log ∨
      EquityHistory s.connectionId (prepareStep now db s restored view).db (.evaluated (dayUtc now) view.equity :: log) := by
  rcases prepareStep_db now db s restored view with hsame | ⟨pending, prepared, intent, hp, hdb⟩
  · rw [hsame]
    exact .inl h
  · rw [hdb]
    obtain ⟨hid, hanchors⟩ := anchors_of_prepareExecution hp
    have hcolumns : ((pending.apply db).writeIntent s.intentId s.intent intent).equityColumns s.connectionId = _ :=
      hid ▸ equityColumns_apply pending db
    rcases ha : pending.anchors with _ | ⟨loaded, anchors⟩
    · rw [ha] at hcolumns
      exact .inl (.other h hcolumns)
    · rw [ha] at hcolumns
      rcases hanchors with hnone | ⟨volume, verdict, hrisk⟩
      · rw [ha] at hnone
        cases hnone
      · rw [ha] at hrisk
        exact .inr (.other (.evaluate h hs hday hrisk) hcolumns)

/-! ## Openings that are refused -/

/-- A limit is reached at the equity of the moment, or cannot be checked. -/
def CopyAccountPolicy.Reached (policy : CopyAccountPolicy) (log : List EquityEvent) (day : Nat) : Option ℚ → Prop
  | none => policy.dailyLossLimit.isSome ∨ policy.maxDrawdownPercent.isSome
  | some equity =>
    (∃ limit ∈ policy.dailyLossLimit, limit.toRat ≤ dailyReference log day equity - equity) ∨
      ∃ limit ∈ policy.maxDrawdownPercent, 0 < peakReference log equity ∧
        limit.toRat ≤ (peakReference log equity - equity) / peakReference log equity * 100

omit [Owners] in
/-- A check of the equity finds nothing only below both limits. -/
theorem not_reached_of_violation {risk : AccountRisk} (h : risk.violation = none) :
    (risk.equity = none → risk.dailyLossLimit = none ∧ risk.maxDrawdownPercent = none) ∧
      ∀ equity, risk.equity = some equity → (∀ limit ∈ risk.dailyLossLimit, risk.dailyLossReached equity limit = false) ∧
        ∀ limit ∈ risk.maxDrawdownPercent, risk.drawdownReached equity limit = false := by
  unfold AccountRisk.violation at h
  -- the limits of the volume, the positions and the symbols come first
  iterate 5
    split at h
    · cases h
  cases he : risk.equity with
  | none =>
    rw [he] at h
    refine ⟨fun _ => ?_, nofun⟩
    simpa using h
  | some equity =>
    rw [he] at h
    refine ⟨nofun, fun _ heq => ?_⟩
    cases heq
    simp only at h
    split at h
    · cases h
    · next hloss =>
      refine ⟨fun limit hl => ?_, fun limit hl => ?_⟩
      · exact Bool.eq_false_iff.mpr (Option.filter_eq_none_iff.mp hloss limit hl)
      · exact Bool.eq_false_iff.mpr (Option.filter_eq_none_iff.mp (Option.map_eq_none_iff.mp h) limit hl)

omit [Owners] in
theorem violation_of_reached {policy : CopyAccountPolicy} (hc : policy.equityColumns = .of log) {now : Time} {equity : Option ℚ}
    (h : policy.Reached log (dayUtc now) equity) (trades : List (Uuid × CopiedTrade)) (symbol : Option String) (volume : ℚ) :
    (liveRisk policy trades (policy.anchors now equity) equity symbol volume).violation ≠ none := by
  intro hnone
  obtain ⟨hmissing, hseen⟩ := not_reached_of_violation hnone
  cases equity with
  | none =>
    obtain ⟨hloss, hdrawdown⟩ := hmissing rfl
    rcases h with h | h
    · rw [show policy.dailyLossLimit = none from hloss] at h
      cases h
    · rw [show policy.maxDrawdownPercent = none from hdrawdown] at h
      cases h
  | some equity =>
    obtain ⟨hloss, hdrawdown⟩ := hseen equity rfl
    rcases h with ⟨limit, hl, hreached⟩ | ⟨limit, hl, hpos, hreached⟩
    · have hbelow := hloss limit hl
      rw [AccountRisk.dailyLossReached, anchors_of_columns hc] at hbelow
      exact of_decide_eq_false hbelow hreached
    · have hbelow := hdrawdown limit hl
      rw [AccountRisk.drawdownReached, anchors_of_columns hc] at hbelow
      simp only [liveRisk, Option.any_some, Bool.and_eq_false_iff, decide_eq_false_iff_not] at hbelow
      exact hbelow.elim (fun hn => hn hpos) fun hn => hn hreached

omit [Owners] in
/-- A submitted order has passed the check of its volume. -/
theorem enforceLiveAccountRisk_of_submit {now : Time} {s : ReadySession} {restored : List (Uuid × CopyRoute)} {view : BrokerView}
    {pending : PendingWrites} {call : ExecutionCall} {new : TradeIntent}
    (h : prepareExecution db now s restored view = .ok (pending, .submit call new)) :
    ∃ action anchors, s.intent.requestPayload.context.action = some action ∧
      enforceLiveAccountRisk db s view now (requestedVolume s action) = .ok (anchors, none) := by
  unfold prepareExecution at h
  split at h
  · cases h
  · cases h
  · next action _ hact =>
    simp only at h
    split at h
    · cases h
    · unfold afterQualityError at h
      simp only at h
      split at h <;> cases h
    · split at h
      · cases h
      · cases h
      · next hrisk => exact ⟨action, _, hact, hrisk⟩

/-- **The equity guards.** After any history the columns hold the highest equity and the first one
of the latest date, each since its limit was set, and no opening is submitted while a limit is
reached against them. -/
theorem equityGuards (h : EquityHistory connectionId db log) :
    db.equityColumns connectionId = .of log ∧
      ∀ (s : ReadySession) (policy : CopyAccountPolicy) (restored : List (Uuid × CopyRoute)) (view : BrokerView) (now : Time)
        (action : SignalAction), s.policy = db.policies.get? connectionId → s.policy = some policy →
        s.intent.requestPayload.context.action = some action → 0 < requestedVolume s action →
        policy.Reached log (dayUtc now) view.equity →
        ∀ pending call new, prepareExecution db now s restored view ≠ .ok (pending, .submit call new) := by
  refine ⟨h.columns, fun s policy restored view now action hs hp hact hv hreached pending call new hsubmit => ?_⟩
  have hstored : policy.equityColumns = .of log :=
    (equityColumns_of_policy (hs ▸ hp)).symm.trans h.columns
  obtain ⟨action', anchors, hact', hrisk⟩ := enforceLiveAccountRisk_of_submit hsubmit
  rw [hact] at hact'
  cases hact'
  rw [enforceLiveAccountRisk_of_policy hp hv] at hrisk
  exact violation_of_reached hstored hreached _ _ _ (Prod.mk.inj (Except.ok.inj hrisk)).2

/-! ## A gold account with a drawdown limit -/

/-- Ten percent below the peak nothing is opened. -/
def guarded : CopyAccountPolicy := { maxDrawdownPercent := some ⟨1000⟩ }

def guardedAccount (policy : CopyAccountPolicy) : Database := { World.goldAccount with policies := .add ∅ 3 policy }

def guardedSession (policy : CopyAccountPolicy) : ReadySession where
  intentId := 12
  intent := World.goldIntent
  route := goldRoute
  connectionId := 3
  connection := { metaapiAccountId := some "A", state := .ready }
  parsedAction := World.goldAccount.parsedActions.get? 9
  policy := some policy

def goldEquity (equity : ℚ) : BrokerView := { World.goldTerminal (seconds 101) with equity := some equity }

/-- The account after its first check. -/
def onceChecked (equity : ℚ) : Database :=
  (guardedAccount guarded).writeAnchors 3 guarded (guarded.anchors (seconds 101) (some equity))

theorem onceChecked_history (equity : ℚ) : EquityHistory 3 (onceChecked equity) [.evaluated 0 (some equity)] :=
  have hrisk := enforceLiveAccountRisk_of_policy (show (guardedSession guarded).policy = some guarded from rfl) one_pos
  .evaluate (.start rfl) rfl nofun (hrisk : enforceLiveAccountRisk (guardedAccount guarded) _ (goldEquity equity) (seconds 101) 1 = _)

omit [Owners] [Unicode] in
/-- The column does not hold a tenth of a cent. -/
theorem equityColumns_tenthOfCent :
    let _ := Unicode.ascii
    let _ := oneUser
    ¬ ∀ connectionId db log, EquityHistory connectionId db log → ∀ peak ∈ (db.equityColumns connectionId).peak,
      ∀ highest ∈ (sinceDrawdownLimit log).max?, peak.toRat = highest := by
  intro _ _ h
  have hpeak := h 3 _ _ (onceChecked_history (100004 / 1000)) ⟨10000⟩ (by decide +kernel) (100004 / 1000) (by decide +kernel)
  revert hpeak
  norm_num [Numeric.toRat]

omit [Owners] [Unicode] in
/-- From 10000 to 8000 the limit is reached. -/
theorem equityGuards_onceChecked :
    let _ := Unicode.ascii
    let _ := oneUser
    let policy : CopyAccountPolicy :=
      { guarded with dailyEquityAnchor := some ⟨1000000⟩, dailyEquityAnchorDate := some 0, peakEquity := some ⟨1000000⟩ }
    ∀ pending call new, prepareExecution (onceChecked 10000) (seconds 200) (guardedSession policy) [] (goldEquity 8000) ≠
      .ok (pending, .submit call new) := by
  intro _ _ policy
  refine (equityGuards (onceChecked_history 10000)).2 (guardedSession policy) policy [] (goldEquity 8000) (seconds 200) .open_market
    (by decide +kernel) rfl rfl ?_ (.inr ⟨⟨1000⟩, rfl, ?_⟩)
  · decide +kernel
  · decide +kernel

end SignalSync
