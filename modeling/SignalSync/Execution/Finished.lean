import SignalSync.Execution.Emergency
import SignalSync.Execution.World

/-!
# Finished trades

A trade is ended in four places: by a confirmed closing or cancellation and by a snapshot that
no longer shows its position, which clear its volume, and by an emergency and by a snapshot that
no longer shows its order, which leave the volume as it is. A confirmed call is moreover written
over a row that a snapshot may have changed since the call.

* `World.trades_of_step`: what a step makes of the copied trades;
* `finished_confirm`, `finished_emergency`, `finished_snapshot`: what each of the places leaves;
* `World.finished_empty`: where none of them leaves volume with a trade that it ends, no finished
  trade has any.
-/

namespace SignalSync

open Library

/-- A closed or cancelled trade has no volume. -/
def CopiedTrade.Finished (trade : CopiedTrade) : Prop := trade.lifecycleState.isActive = false → trade.currentVolume = some 0

instance (trade : CopiedTrade) : Decidable trade.Finished := inferInstanceAs (Decidable (_ → _))

/-- The trades that are not live have no volume. -/
def Database.FinishedEmpty (db : Database) : Prop := ∀ id trade, db.trades.get? id = some trade → trade.Finished

/-! ## The places a trade is ended in -/

/-- A confirmed call leaves no volume behind: a partial close finds the trade live, or closes all
that was loaded; a closing has loaded a volume, or finds none. -/
def ClearsVolume (action : SignalAction) (loaded stored : CopiedTrade) (volume : ℚ) : Prop :=
  match action with
  | .partial_close => stored.lifecycleState.isActive ∨ ∀ current ∈ loaded.currentVolume, current.toRat ≤ volume
  | .full_close | .cancel_pending => loaded.currentVolume ≠ some 0 ∨ stored.currentVolume = some 0
  | _ => True

instance (action : SignalAction) (loaded stored : CopiedTrade) (volume : ℚ) :
    Decidable (ClearsVolume action loaded stored volume) := by
  unfold ClearsVolume
  split <;> infer_instance

/-- A pending trade is gone from the broker: neither its order nor a position opened by it. -/
def CopiedTrade.isGone (trade : CopiedTrade) (clientOrderId : ClientOrderId) (snapshot : BrokerSnapshot) : Bool :=
  trade.lifecycleState = .pending && !(snapshot.orders.any fun order => pyStr order = pyStr trade.brokerOrderId) &&
    !(snapshot.positions.any fun position => position.clientId = some clientOrderId || position.comment = some clientOrderId)

section

variable {payload : Payload} {action : SignalAction} {loaded stored new trade : CopiedTrade} {volume : ℚ}

/-- Nothing is left of a volume closed whole. -/
theorem ofRat_eq_zero {q : ℚ} (h : q ≤ 0) : Lots.ofRat (max 0 q) (le_max_left _ _) = 0 := by
  have hzero : (⟨0⟩ : Numeric 4).toRat = 0 := by rw [Numeric.toRat, Int.cast_zero, zero_div]
  refine Subtype.ext ?_
  show Numeric.ofRat 4 (max 0 q) = ⟨0⟩
  rw [max_eq_left h, ← hzero, Numeric.ofRat_toRat]

/-- A column written back has its stored value or the new one. -/
theorem writeBack_eq {α : Type} [DecidableEq α] {loaded new stored value : α} (hstored : new = loaded → stored = value)
    (hnew : new ≠ loaded → new = value) : writeBack loaded new stored = value := by
  unfold writeBack
  split
  · next h => exact hstored h
  · next h => exact hnew h

/-- A confirmed call keeps finished trades empty. -/
theorem finished_confirm (h : confirmCopied payload action volume loaded = .ok new) (hf : stored.Finished)
    (hclear : ClearsVolume action loaded stored volume) : (loaded.writeBack new stored).Finished := by
  intro hended
  show writeBack loaded.currentVolume new.currentVolume stored.currentVolume = some 0
  have hstored (hl : new.lifecycleState = loaded.lifecycleState) : stored.lifecycleState.isActive = false := by
    rw [← hended]
    show stored.lifecycleState.isActive = (writeBack loaded.lifecycleState new.lifecycleState stored.lifecycleState).isActive
    rw [hl, writeBack, if_pos rfl]
  have hcleared (hnew : new.currentVolume = some 0) (hc : loaded.currentVolume ≠ some 0 ∨ stored.currentVolume = some 0) :
      writeBack loaded.currentVolume new.currentVolume stored.currentVolume = some 0 :=
    writeBack_eq (fun heq => hc.resolve_left fun hne => hne (heq ▸ hnew)) fun _ => hnew
  cases action with
  | partial_close =>
    simp only [confirmCopied] at h
    split at h
    · cases h
    · next current hcurrent =>
      cases h
      refine writeBack_eq (fun _ => hf (hstored rfl)) fun _ => ?_
      rcases hclear with hactive | hwhole
      · -- the stored trade is live, and stays so
        rw [hstored rfl] at hactive
        cases hactive
      · exact congrArg some (ofRat_eq_zero (sub_nonpos.mpr (hwhole current hcurrent)))
  | full_close | cancel_pending =>
    cases h
    exact hcleared rfl hclear
  | modify_sl_tp | break_even | open_market | place_pending | additional_tp | status_only =>
    cases h
    exact writeBack_eq (fun _ => hf (hstored rfl)) fun hne => absurd rfl hne

theorem finished_emergency (request : EmergencyRequest) (hf : trade.Finished)
    (hclear : request.applies trade → trade.currentVolume = some 0) : (emergencyTrade request trade).Finished := by
  intro hended
  unfold emergencyTrade at hended ⊢
  split
  · next hopen => exact hclear (by simp [EmergencyRequest.applies, hopen.1, hopen.2])
  · split
    · next hpending => exact hclear (by simp [EmergencyRequest.applies, hpending.1, hpending.2])
    · next hopen hpending =>
      rw [if_neg hopen, if_neg hpending] at hended
      exact hf hended

theorem finished_snapshot (clientOrderId : ClientOrderId) (snapshot : BrokerSnapshot) (hf : trade.Finished)
    (hclear : trade.isGone clientOrderId snapshot → trade.currentVolume = some 0) :
    (updateFromSnapshot trade clientOrderId snapshot).1.Finished := by
  cases hl : trade.lifecycleState with
  | closed | cancelled =>
    rw [updateFromSnapshot_finished (by rw [hl]; rfl)]
    exact hf
  | «open» =>
    simp only [updateFromSnapshot, hl]
    split
    · exact fun _ => rfl
    · next position =>
      intro hended
      rw [applyPosition] at hended
      simp only [hl] at hended
      cases hended
  | pending =>
    simp only [updateFromSnapshot, hl]
    split
    · exact hf
    · next horders =>
      split
      · next hpositions =>
        refine fun _ => hclear ?_
        rw [List.find?_eq_none] at hpositions
        simp only [CopiedTrade.isGone, hl, decide_true, Bool.true_and, Bool.and_eq_true, Bool.not_eq_true']
        exact ⟨Bool.eq_false_iff.mpr horders, List.any_eq_false.mpr hpositions⟩
      · exact fun hended => nomatch hended

end

/-! ## Steps of the handler -/

section

variable [Unicode] {settings : ExecutionSettings} {run : Nat} {now : Time} {lockFree : Option Uuid → Bool} {db : Database}

/-- A step of a run confirms a call, ends a trade of an emergency, or leaves the trades alone. -/
theorem handlerStep_trades {phase : ExecutionPhase} {label : HandlerLabel} {h : HandlerStep}
    (hs : handlerStep settings run now lockFree db phase label = some h) :
    h.db.trades = db.trades ∨
      (∃ c loaded copied result volume, phase = .settle c loaded copied (.ok (result, volume)) ∧ label = .settle ∧
        confirmTrades run now db c copied result volume = .ok h.db.trades) ∨
      ∃ request id rest, phase = .emergencyRows request (id :: rest) ∧ label = .emergencyDone ∧
        h.db.trades = db.trades.modify id (emergencyTrade request) := by
  cases handlerStep_cases hs with
  | raise _ _ hk | ignore _ hk | skip _ hk | load _ _ _ _ hk | advance _ _ _ _ hk | look _ _ hk | find _ hk => exact .inl hk.trades
  | reject _ _ _ ht | retryable _ _ _ ht | submit _ _ _ _ _ ht | settle _ ht | reconcile _ _ ht | conclude _ _ ht => exact .inl ht
  | call _ hd | publish _ hd => exact .inl (congrArg Database.trades hd)
  | @confirm c loaded new copied outcome label h =>
    cases label with
    | settle =>
      cases hs
      unfold settleStep
      cases outcome with
      | error e =>
        left
        dsimp only
        split <;> rfl
      | ok r =>
        obtain ⟨result, volume⟩ := r
        dsimp only
        split
        · exact .inl rfl
        · next hc => exact .inr (.inl ⟨c, loaded, copied, result, volume, rfl, rfl, hc⟩)
    | _ => cases hs
  | close =>
    rcases emergencyStep_trades hs with ht | ⟨hlabel, ht⟩
    · exact .inl ht
    · exact .inr (.inr ⟨_, _, _, rfl, hlabel, ht⟩)

omit [Unicode] in
theorem finished_openedTrade {routeId threadId : Uuid} {connectionId : Option Uuid} {payload : Payload} {action : SignalAction}
    {symbol : BrokerSymbol} {volume : ℚ} {result : BrokerResult} :
    (openedTrade run now routeId threadId connectionId payload action symbol volume result).Finished := by
  intro hended
  rw [openedTrade] at hended
  dsimp only at hended
  split at hended <;> cases hended

omit [Unicode] in
theorem finishedEmpty_confirm {c : ExecutionCall} {copied : Option CopiedTrade} {result : BrokerResult} {volume : Option ℚ}
    {trades : Table Uuid CopiedTrade} (hf : db.FinishedEmpty) (h : confirmTrades run now db c copied result volume = .ok trades)
    (hclear : ∀ loaded ∈ copied, ∀ key ∈ c.copied, ∀ stored ∈ db.trades.get? key,
      ClearsVolume c.action loaded stored (volume.getD 0)) : ∀ id trade, trades.get? id = some trade → trade.Finished := by
  intro id trade hid
  unfold confirmTrades at h
  split at h
  · split at h
    · split at h
      · next hpush =>
        cases h
        rw [Table.get?_push hpush] at hid
        split at hid
        · cases hid
          exact finished_openedTrade
        · exact hf id trade hid
      · cases h
    · cases h
  · split at h
    · next key loaded hkey =>
      cases hnew : confirmCopied c.intent.requestPayload c.action (volume.getD 0) loaded with
      | error e =>
        rw [hnew] at h
        cases h
      | ok new =>
        rw [hnew] at h
        cases h
        rw [Table.get?_modify] at hid
        split at hid
        · next hsame =>
          obtain ⟨stored, hstored, rfl⟩ := Option.map_eq_some_iff.mp hid
          exact finished_confirm hnew (hf id stored hstored)
            (hclear loaded rfl key hkey stored (hsame ▸ hstored))
        · exact hf id trade hid
    · cases h
      exact hf id trade hid

omit [Unicode] in
theorem finishedEmpty_reconcile {snapshot : Uuid → Option BrokerSnapshot} {db' : Database} (hf : db.FinishedEmpty)
    (h : reconcileCopiedTrades db snapshot = some db')
    (hclear : ∀ e ∈ db.trades.entries, ∀ intent ∈ db.intents.get? e.1, ∀ view ∈ (db.tradeConnection e.2).bind snapshot,
      e.2.isGone intent.clientOrderId view → e.2.currentVolume = some 0) : db'.FinishedEmpty := by
  intro id trade hid
  unfold reconcileCopiedTrades at h
  split at h
  · cases h
  · cases h
    rw [Table.get?_mapRows] at hid
    obtain ⟨stored, hstored, rfl⟩ := Option.map_eq_some_iff.mp hid
    split
    · next view intent hview hintent =>
      exact finished_snapshot _ _ (hf id stored hstored)
        (hclear (id, stored) (Table.get?_eq_some.1 hstored) intent hintent view hview)
    · exact hf id stored hstored

end

namespace World

/-! ## Runs -/

/-- The step leaves no volume with a trade that it ends. -/
def EndsEmpty (w : World) : WorldLabel → Prop
  | .handler d .settle =>
    match w.stream.delivered d with
    | some (⟨_, .handle (.settle c _ (some loaded) (.ok (_, volume)))⟩, _) =>
      ∀ key ∈ c.copied, ∀ stored ∈ w.db.trades.get? key, ClearsVolume c.action loaded stored (volume.getD 0)
    | _ => True
  | .handler d .emergencyDone =>
    match w.stream.delivered d with
    | some (⟨_, .handle (.emergencyRows request (id :: _))⟩, _) =>
      ∀ trade ∈ w.db.trades.get? id, request.applies trade → trade.currentVolume = some 0
    | _ => True
  | .snapshot view =>
    ∀ e ∈ w.db.trades.entries, ∀ intent ∈ w.db.intents.get? e.1, ∀ snapshot ∈ (w.db.tradeConnection e.2).bind view,
      e.2.isGone intent.clientOrderId snapshot → e.2.currentVolume = some 0
  | _ => True

instance (w : World) (a : WorldLabel) : Decidable (w.EndsEmpty a) := by
  unfold EndsEmpty
  split
  · split <;> infer_instance
  · split <;> infer_instance
  · infer_instance
  · infer_instance

section

variable [Unicode] {settings : ExecutionSettings} {w t : World} {a : WorldLabel}

/-- What a step makes of the copied trades. -/
theorem trades_of_step (h : w.step settings a = some t) :
    t.db.trades = w.db.trades ∨
      (∃ d label i phase e r, a = .handler d label ∧ w.stream.delivered d = some (⟨i, .handle phase⟩, e) ∧
        handlerStep settings d w.stream.now w.lockFree w.db phase label = some r ∧ t.db = r.db) ∨
      ∃ view, a = .snapshot view ∧ reconcileCopiedTrades w.db view = some t.db := by
  cases a with
  | handler d label =>
    simp only [step] at h
    split at h
    · next hd =>
      obtain ⟨r, hr, rfl⟩ := Option.map_eq_some_iff.mp h
      exact .inr (.inl ⟨d, label, _, _, _, r, rfl, hd, hr, after_db ..⟩)
    · cases h
  | snapshot view =>
    obtain ⟨db, hdb, rfl⟩ := Option.map_eq_some_iff.mp h
    exact .inr (.inr ⟨view, rfl, hdb⟩)
  | stream l =>
    left
    cases l with
    | publish event => cases h
    | _ =>
      simp only [step] at h
      obtain ⟨s, -, rfl⟩ := Option.map_eq_some_iff.mp h
      rfl
  | publishIntent id row | replay n | publishUnresolved n =>
    left
    simp only [step] at h
    split at h
    all_goals first | cases h | skip
    all_goals first | rfl | (split at h <;> cases h; rfl)
  | commitIntent id =>
    left
    simp only [step] at h
    split at h
    · obtain ⟨intents, -, rfl⟩ := Option.map_eq_some_iff.mp h
      rfl
    · cases h
  | publishAgain i =>
    obtain ⟨e, -, rfl⟩ := Option.map_eq_some_iff.mp h
    exact .inl rfl
  | rollbackIntent id | emergency request | sweep | outside db =>
    cases h
    exact .inl rfl

theorem finishedEmpty_of_step (hf : w.db.FinishedEmpty) (hok : w.EndsEmpty a) (h : w.step settings a = some t) :
    t.db.FinishedEmpty := by
  rcases trades_of_step h with ht | ⟨d, label, i, phase, e, r, rfl, hd, hr, hdb⟩ | ⟨view, rfl, hr⟩
  · rw [Database.FinishedEmpty, ht]
    exact hf
  · rw [hdb]
    rcases handlerStep_trades hr with ht | ⟨c, loaded, copied, result, volume, rfl, rfl, hc⟩ | ⟨request, id, rest, rfl, rfl, ht⟩
    · rw [Database.FinishedEmpty, ht]
      exact hf
    · simp only [EndsEmpty, hd] at hok
      refine finishedEmpty_confirm hf hc fun copied' hcopied => ?_
      cases hcopied
      exact hok
    · simp only [EndsEmpty, hd] at hok
      intro id' trade hid
      rw [ht, Table.get?_modify] at hid
      split at hid
      · next hsame =>
        obtain ⟨stored, hstored, rfl⟩ := Option.map_eq_some_iff.mp hid
        exact finished_emergency request (hf id' stored hstored) (hok stored (hsame ▸ hstored))
      · exact hf id' trade hid
  · exact finishedEmpty_reconcile hf hr hok

/-- **Finished trades hold no volume**, in every run in which no step leaves volume with a trade
that it ends. -/
theorem finished_empty {db : Database} (h : Reach (step settings) EndsEmpty (initial db) w) {id : Uuid} {trade : CopiedTrade}
    (hid : w.db.trades.get? id = some trade) (hended : trade.lifecycleState = .closed ∨ trade.lifecycleState = .cancelled) :
    trade.currentVolume = some 0 := by
  have hf : w.db.FinishedEmpty :=
    h.invariant (fun _ _ hid => nomatch hid) fun _ _ _ ht hok hu => finishedEmpty_of_step ht hok hu
  refine hf id trade hid ?_
  rcases hended with hl | hl <;> rw [hl] <;> rfl

/-- An opening is confirmed. -/
def goldOpened : List WorldLabel :=
  goldPublished ++ [.handler 0 (.load true)] ++ goldSubmitted 0 (seconds 101) (.ok { positionId := some "1" }) ++ goldSettled 0

omit [Unicode] in
/-- A position that is closed at the broker. -/
theorem finished_empty_goldIntent :
    let _ := Unicode.ascii
    ∃ w trade, Reach (step {}) EndsEmpty (initial goldAccount) w ∧ w.db.trades.get? 12 = some trade ∧
      trade.lifecycleState = .closed ∧ trade.currentVolume = some 0 := by
  intro _
  have hrun : (runIf (step {}) EndsEmpty (initial goldAccount) (goldOpened ++ [.snapshot fun _ => some ⟨[], []⟩])).bind (fun w =>
      (w.db.trades.get? 12).map (·.lifecycleState)) = some .closed := by decide +kernel
  obtain ⟨w, hw, hrow⟩ := Option.bind_eq_some_iff.mp hrun
  obtain ⟨trade, hid, hl⟩ := Option.map_eq_some_iff.mp hrow
  have h := Reach.of_runIf hw
  exact ⟨w, trade, h, hid, hl, finished_empty h hid (.inl hl)⟩

omit [Unicode] in
/-- A position closed by an emergency keeps its 0.01 lots. -/
theorem goldEmergency_keeps_volume :
    let _ := Unicode.ascii
    ∃ w trade, Reach (step {}) always (initial goldAccount) w ∧ w.db.trades.get? 12 = some trade ∧
      trade.lifecycleState = .closed ∧ trade.currentVolume.map Lots.toRat = some (1 / 100) := by
  intro _
  have hrun : (run (step {}) (initial goldAccount) (goldOpened ++ [.emergency goldCloseAll, .stream .read, .stream (.start 1),
      .handler 1 .emergency, .handler 1 .emergencyDone])).bind (fun w => (w.db.trades.get? 12).map fun trade =>
        (trade.lifecycleState, trade.currentVolume.map Lots.toRat)) = some (.closed, some (1 / 100)) := by decide +kernel
  obtain ⟨w, hw, hrow⟩ := Option.bind_eq_some_iff.mp hrun
  obtain ⟨trade, hid, hl⟩ := Option.map_eq_some_iff.mp hrow
  exact ⟨w, trade, .of_run hw, hid, congrArg Prod.fst hl, congrArg Prod.snd hl⟩

end

end World

end SignalSync
