import SignalSync.Execution.Handler

/-!
# Saved symbol mappings

A mapping is saved for a route, a connection and a normalized symbol, together with the
catalog it was found in. It is used again while the catalog is the same, by every spelling
with that normal form; the symbol is then looked up by its name alone.

* `resolveSymbol_congr`: spellings of one normal form resolve to the same symbol;
* `SymbolHistory.sound`: a saved mapping is what its catalog resolves to;
* `resolveBrokerSymbol_transparent`: with a saved mapping or without, the answer is the
  catalog's.
-/

namespace SignalSync

open Library

variable [Unicode] {requested : String} {symbols : List BrokerSymbol} {symbol : BrokerSymbol}

/-! ## Resolution -/

/-- Two spellings of one normal form. -/
theorem resolveSymbol_congr {other : String} (h : Symbols.normalizeSymbol other = Symbols.normalizeSymbol requested) :
    (resolveSymbol other symbols).toOption = (resolveSymbol requested symbols).toOption := by
  simp only [resolveSymbol]
  rw [h]
  split
  · rfl
  · rfl
  · split
    · rfl
    · split <;> rfl

/-- The resolved symbol is the only tradable one that a condition on the name leaves. -/
theorem resolveSymbol_eq_ok (h : resolveSymbol requested symbols = .ok symbol) :
    ∃ p : String → Bool, (symbols.filter tradable).filter (fun other => p other.name) = [symbol] := by
  simp only [resolveSymbol] at h
  split at h
  · next hexact =>
    cases h
    exact ⟨fun name => Symbols.normalizeSymbol name = Symbols.normalizeSymbol requested, hexact⟩
  · cases h
  · split at h
    · cases h
    · next shortest _ =>
      split at h
      · next hclosest =>
        cases h
        rw [List.filter_filter] at hclosest
        exact ⟨fun name => (Symbols.normalizeSymbol name).length = (Symbols.normalizeSymbol shortest.name).length &&
          Symbols.startsWith (Symbols.normalizeSymbol name) (Symbols.normalizeSymbol requested), hclosest⟩
      · cases h

theorem tradable_of_resolveSymbol (h : resolveSymbol requested symbols = .ok symbol) : tradable symbol := by
  obtain ⟨p, hp⟩ := resolveSymbol_eq_ok h
  have hm := List.mem_singleton_self symbol
  rw [← hp] at hm
  exact (List.mem_filter.mp (List.mem_filter.mp hm).1).2

/-- Among the tradable symbols, the resolved one is the only one of its name. -/
theorem eq_of_resolveSymbol {other : BrokerSymbol} (h : resolveSymbol requested symbols = .ok symbol)
    (hm : other ∈ symbols) (ht : tradable other) (hname : other.name = symbol.name) : other = symbol := by
  obtain ⟨p, hp⟩ := resolveSymbol_eq_ok h
  have hfound := List.mem_singleton_self symbol
  rw [← hp] at hfound
  have hother : other ∈ [symbol] := by
    rw [← hp]
    exact List.mem_filter.mpr ⟨List.mem_filter.mpr ⟨hm, ht⟩, hname ▸ (List.mem_filter.mp hfound).2⟩
  exact List.mem_singleton.mp hother

/-! ## Histories -/

/-- The symbol of a catalog that a request means. -/
def resolveIn (specifications : List Specification) (requested : String) : Except ResolveError BrokerSymbol :=
  resolveSymbol requested (specifications.map brokerSymbolFromMetaapi)

/-- The mapping is what its catalog resolves to, in each spelling of the key. -/
def SymbolMapping.Sound (mapping : SymbolMapping) (normalized : String) : Prop :=
  ∀ requested, Symbols.normalizeSymbol requested = normalized →
    ∃ symbol, resolveIn mapping.catalogVersion requested = .ok symbol ∧ symbol.name = mapping.brokerSymbol

def Database.MappingsSound (db : Database) : Prop :=
  ∀ key mapping, db.symbolMappings.get? key = some mapping → mapping.Sound key.2.2

/-- Requests for symbols, each on the catalog of its moment and committed with whatever else
its session writes; a session that rolls back, and every other transaction, leaves the mappings
as they are. -/
inductive SymbolHistory : Database → Prop
  | start {db : Database} (h : db.symbolMappings = ∅) : SymbolHistory db
  | request {db : Database} (h : SymbolHistory db) {routeId connectionId : Uuid} {view : BrokerView} {requested : String}
      {symbol : BrokerSymbol} {p : PendingWrites}
      (hr : resolveBrokerSymbol db routeId connectionId view requested = .ok (symbol, p.mapping)) : SymbolHistory (p.apply db)
  | other {db db' : Database} (h : SymbolHistory db) (hm : db'.symbolMappings = db.symbolMappings) : SymbolHistory db'

variable {db : Database} {routeId connectionId : Uuid} {view : BrokerView}

/-- A mapping of this catalog answers by its name; otherwise the catalog does, and the answer is
to be saved. -/
theorem resolveBrokerSymbol_cases (db : Database) (routeId connectionId : Uuid) (view : BrokerView) (requested : String) :
    (∃ mapping symbol, db.symbolMappings.get? (routeId, connectionId, Symbols.normalizeSymbol requested) = some mapping ∧
      mapping.catalogVersion = view.specifications ∧
      (view.specifications.map brokerSymbolFromMetaapi).reverse.find? (·.name = mapping.brokerSymbol) = some symbol ∧
      resolveBrokerSymbol db routeId connectionId view requested = .ok (symbol, none)) ∨
    resolveBrokerSymbol db routeId connectionId view requested = (resolveIn view.specifications requested).map fun symbol =>
      (symbol, some ((routeId, connectionId, Symbols.normalizeSymbol requested),
        db.symbolMappings.get? (routeId, connectionId, Symbols.normalizeSymbol requested),
        { brokerSymbol := symbol.name, catalogVersion := view.specifications })) := by
  simp only [resolveBrokerSymbol, resolveIn]
  split
  · next symbol hcurrent =>
    obtain ⟨mapping, hsaved, hfound⟩ := Option.bind_eq_some_iff.mp hcurrent
    rw [Option.filter_eq_some_iff] at hsaved
    exact .inl ⟨mapping, symbol, hsaved.1, by simpa using hsaved.2, hfound, rfl⟩
  · exact .inr rfl

omit [Unicode] in
theorem apply_symbolMappings (p : PendingWrites) (db : Database) :
    (p.apply db).symbolMappings = match p.mapping with
      | some (key, loaded, new) => (db.writeMapping key loaded new).symbolMappings
      | none => db.symbolMappings := by
  unfold PendingWrites.apply
  cases p.mapping <;> cases p.anchors <;> rfl

omit [Unicode] in
/-- The mapping of a key after its row is added or brought up to date. -/
theorem get?_writeMapping (db : Database) (key key' : MappingKey) (new : SymbolMapping) :
    (db.writeMapping key (db.symbolMappings.get? key) new).symbolMappings.get? key' =
      if key' = key then some new else db.symbolMappings.get? key' := by
  unfold Database.writeMapping
  cases hs : db.symbolMappings.get? key with
  | none =>
    simp only
    rw [Table.get?_add]
    split
    · next hk =>
      rw [hk, hs]
      rfl
    · exact Option.or_none
  | some loaded =>
    simp only
    rw [Table.get?_modify]
    split
    · next hk =>
      rw [hk, hs, Option.map_some, writeBack_self, writeBack_self]
    · rfl

/-- What a catalog resolves to is a sound mapping of it. -/
theorem SymbolMapping.sound_of_resolveIn {specifications : List Specification}
    (h : resolveIn specifications requested = .ok symbol) :
    SymbolMapping.Sound { brokerSymbol := symbol.name, catalogVersion := specifications } (Symbols.normalizeSymbol requested) := by
  intro other hother
  have hsame : (resolveIn specifications other).toOption = (resolveIn specifications requested).toOption :=
    resolveSymbol_congr hother
  rw [h] at hsame
  cases ho : resolveIn specifications other with
  | error e =>
    rw [ho] at hsame
    cases hsame
  | ok found =>
    rw [ho] at hsame
    exact ⟨found, rfl, congrArg BrokerSymbol.name (Option.some.inj hsame)⟩

/-- What is to be saved was found for the symbol of the order. -/
theorem payloadSymbol_of_prepareExecution {now : Time} {s : ReadySession} {restored : List (Uuid × CopyRoute)}
    {pending : PendingWrites} {prepared : Prepared} (h : prepareExecution db now s restored view = .ok (pending, prepared)) :
    ∃ selected, payloadSymbol db s view = .ok (selected, pending.mapping) := by
  unfold prepareExecution at h
  split at h
  · cases h
  · cases h
  · next selected mapping action hsymbol _ =>
    rw [hsymbol]
    simp only at h
    split at h
    · cases h
    · cases h
      exact ⟨selected, rfl⟩
    · split at h <;> first | cases h; done | (cases h; exact ⟨selected, rfl⟩)

theorem SymbolHistory.sound (h : SymbolHistory db) : db.MappingsSound := by
  induction h with
  | start h =>
    intro key mapping hm
    rw [h] at hm
    cases hm
  | other _ hm ih =>
    intro key mapping hk
    rw [hm] at hk
    exact ih key mapping hk
  | @request db _ routeId connectionId view requested symbol p hr ih =>
    intro key mapping hk
    rw [apply_symbolMappings] at hk
    rcases resolveBrokerSymbol_cases db routeId connectionId view requested with ⟨_, _, -, -, -, hc⟩ | hc
    · rw [hc] at hr
      rw [← (Prod.mk.inj (Except.ok.inj hr)).2] at hk
      exact ih key mapping hk
    · rw [hc] at hr
      cases hresolve : resolveIn view.specifications requested with
      | error e =>
        rw [hresolve] at hr
        cases hr
      | ok found =>
        rw [hresolve] at hr
        rw [← (Prod.mk.inj (Except.ok.inj hr)).2] at hk
        simp only [get?_writeMapping] at hk
        split at hk
        · next hkey =>
          cases hk
          rw [hkey]
          exact SymbolMapping.sound_of_resolveIn hresolve
        · exact ih key mapping hk

/-- The preparation of an order is such a request, or none. -/
theorem SymbolHistory.prepareStep (h : SymbolHistory db) (now : Time) (s : ReadySession) (restored : List (Uuid × CopyRoute))
    (view : BrokerView) : SymbolHistory (prepareStep now db s restored view).db := by
  rcases prepareStep_db now db s restored view with hsame | ⟨pending, prepared, intent, hp, hdb⟩
  · rw [hsame]
    exact h
  · rw [hdb]
    obtain ⟨selected, hsymbol⟩ := payloadSymbol_of_prepareExecution hp
    have happly : SymbolHistory (pending.apply db) := by
      unfold payloadSymbol at hsymbol
      split at hsymbol
      · have hnone : pending.mapping = none := (Prod.mk.inj (Except.ok.inj hsymbol)).2.symm
        refine .other h ?_
        rw [apply_symbolMappings, hnone]
      · split at hsymbol
        · next hr =>
          rw [(Prod.mk.inj (Except.ok.inj hsymbol)).2] at hr
          exact .request h hr
        · cases hsymbol
    exact .other happly rfl

/-- Saved mappings show only where a name is listed both as tradable and not. -/
theorem resolveBrokerSymbol_transparent (h : SymbolHistory db) (view : BrokerView)
    (hlisted : ∀ a ∈ view.specifications.map brokerSymbolFromMetaapi, ∀ b ∈ view.specifications.map brokerSymbolFromMetaapi,
      a.name = b.name → tradable a = tradable b) (routeId connectionId : Uuid) (requested : String) :
    (resolveBrokerSymbol db routeId connectionId view requested).map Prod.fst = resolveIn view.specifications requested := by
  rcases resolveBrokerSymbol_cases db routeId connectionId view requested with ⟨mapping, found, hsaved, hversion, hfound, hc⟩ | hc
  · obtain ⟨symbol, hresolve, hname⟩ := h.sound _ _ hsaved requested rfl
    rw [hversion] at hresolve
    have hmem : found ∈ view.specifications.map brokerSymbolFromMetaapi := List.mem_reverse.mp (List.mem_of_find?_eq_some hfound)
    have hsame : found.name = symbol.name := by
      rw [hname]
      simpa using List.find?_some hfound
    have htradable : tradable found := by
      rw [hlisted found hmem symbol (resolveSymbol_mem hresolve) hsame]
      exact tradable_of_resolveSymbol hresolve
    rw [hc, hresolve, eq_of_resolveSymbol hresolve hmem htradable hsame]
    rfl
  · rw [hc]
    cases resolveIn view.specifications requested <;> rfl

/-! ## A catalog that lists a name twice -/

/-- The euro, tradable and then disabled. -/
def euroTwice : BrokerView where
  specifications :=
    [{ symbol := "EURUSD", tradeMode := .name "SYMBOL_TRADE_MODE_FULL", minVolume_nonneg := Specification.nonneg_none
       volumeStep_nonneg := Specification.nonneg_none },
     { symbol := "EURUSD", tradeMode := .name "SYMBOL_TRADE_MODE_DISABLED", minVolume_nonneg := Specification.nonneg_none
       volumeStep_nonneg := Specification.nonneg_none }]
  quote := none
  equity := none

/-- The euro alone. -/
def euroOnce : BrokerView := { euroTwice with specifications := euroTwice.specifications.take 1 }

/-- What a session that resolved the euro commits. -/
def euroWrites (view : BrokerView) : PendingWrites where
  connectionId := 3
  connection := { metaapiAccountId := some "gold", state := .ready }
  restored := []
  mapping := some ((4, 3, "EURUSD"), none, { brokerSymbol := "EURUSD", catalogVersion := view.specifications })

theorem euroWrites_history (hn : Symbols.normalizeSymbol "EURUSD" = "EURUSD")
    (h : (resolveIn view.specifications "EURUSD").toOption.map (·.name) = some "EURUSD") :
    SymbolHistory ((euroWrites view).apply {}) := by
  cases hr : resolveIn view.specifications "EURUSD" with
  | error e =>
    rw [hr] at h
    cases h
  | ok symbol =>
    rw [hr] at h
    have hname : symbol.name = "EURUSD" := Option.some.inj h
    have hfirst : resolveBrokerSymbol {} 4 3 view "EURUSD" = .ok (symbol, (euroWrites view).mapping) := by
      rcases resolveBrokerSymbol_cases {} 4 3 view "EURUSD" with ⟨_, _, hsaved, -⟩ | hc
      · cases hsaved
      · rw [hc, hr, hn, euroWrites, ← hname]
        rfl
    exact .request (.start rfl) hfirst

omit [Unicode] in
/-- The second request is answered with the entry that is disabled. -/
theorem resolveBrokerSymbol_euroTwice :
    let _ := Unicode.ascii
    ¬ ∀ db, SymbolHistory db → ∀ (view : BrokerView) (routeId connectionId : Uuid) (requested : String),
      (resolveBrokerSymbol db routeId connectionId view requested).map Prod.fst = resolveIn view.specifications requested := by
  intro _ h
  have hhistory : SymbolHistory ((euroWrites euroTwice).apply {}) := euroWrites_history (by decide +kernel) (by decide +kernel)
  have hsame := h _ hhistory euroTwice 4 3 "EURUSD"
  have hmodes := congrArg (fun answer => answer.toOption.map (·.tradeMode)) hsame
  revert hmodes
  decide +kernel

omit [Unicode] in
/-- A mapping of the euro answers another spelling of it. -/
theorem resolveBrokerSymbol_transparent_euroOnce :
    let _ := Unicode.ascii
    (resolveBrokerSymbol ((euroWrites euroOnce).apply {}) 4 3 euroOnce "eur/usd").map Prod.fst =
      resolveIn euroOnce.specifications "eur/usd" := by
  intro _
  refine resolveBrokerSymbol_transparent (euroWrites_history (by decide +kernel) (by decide +kernel)) euroOnce ?_ 4 3 "eur/usd"
  rintro a ha b hb -
  rw [List.mem_singleton.mp ha, List.mem_singleton.mp hb]

end SignalSync
