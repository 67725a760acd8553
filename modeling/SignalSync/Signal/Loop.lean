import SignalSync.Signal.Handler

/-!
# The loop over the routes

A route is processed from its own rows: what is written for one route does not
show on another (`routeView_write`), and its duplicate key is its own. So the
loop gives each route what it would get alone (`routeOutcome`), whatever the
other routes did before it.

* `processRoutes_ok`, `processRoutes_isOk`: the loop, route by route;
* `loopEnds`: the rows a loop leaves, of its routes and of all others;
* `Kept.signalHandler`: what every written plan keeps, the handler keeps.
-/

namespace SignalSync

open Library

variable [Unicode]

/-- A plan that writes rows of its route only. -/
structure RoutePlan.OnlyFor (plan : RoutePlan) (db : Database) (run : Nat) (routeId : Uuid) : Prop where
  new : plan.isNew → plan.assemblyId = .assembly run routeId
  old : plan.isNew = false → ∀ a, db.assemblies.get? plan.assemblyId = some a → a.routeId = routeId
  assembly : plan.assembly.routeId = routeId
  parsedAction : plan.parsedAction.routeId = routeId
  ids : ∀ e ∈ plan.intents, e.1.isIntentOf run routeId
  keys : ∀ e ∈ plan.intents, e.2.idempotencyKey.routeId = routeId

omit [Unicode] in
theorem Uuid.isIntentOf_unique {id : Uuid} {run : Nat} {r r' : Uuid} (h : id.isIntentOf run r) (h' : id.isIntentOf run r') :
    r = r' := by
  cases id <;> simp_all [Uuid.isIntentOf]

section

variable {env : SignalEnv} {event : MessageEvent} {parsed : AiAction} {update : Context} {conversationId : Uuid}
  {conversation : SignalConversation} {routeId : Uuid} {route : CopyRoute} {db : Database}
  {alive : SemanticKey → Bool} {s : RouteSignal} {plan : RoutePlan}

omit [Unicode] in
/-- The generation of a signal is one of its conversation and route. -/
theorem currentAssembly_routeView {id : Uuid} {a : RouteSignalAssembly} {isNew : Bool}
    (h : currentAssembly env conversationId conversation routeId route (db.routeView env.run conversationId routeId route)
      = (id, a, isNew)) :
    a.conversationId = conversationId ∧ a.routeId = routeId ∧
      if isNew then id = .assembly env.run routeId ∧ a.context = conversation.context ∧ a.openingIntentId = none
      else db.assemblies.get? id = some a ∧ a.state.isActive := by
  unfold currentAssembly at h
  split at h
  · rename_i id' a' hf
    cases h
    have hm := List.mem_of_find?_eq_some hf
    have ha := List.find?_some hf
    simp only [Database.routeView, Table.mem_select, Bool.and_eq_true, decide_eq_true_eq] at hm
    exact ⟨hm.2.1, hm.2.2, by simpa using ⟨hm.1, ha⟩⟩
  · cases h
    exact ⟨rfl, rfl, rfl, rfl, rfl⟩

theorem planRoute_onlyFor
    (h : planRoute env event parsed update conversationId conversation routeId route
      (db.routeView env.run conversationId routeId route) alive = .ok plan) : plan.OnlyFor db env.run routeId := by
  obtain ⟨s, hs, rfl⟩ := planRoute_eq_ok h
  obtain ⟨current, hc, hm, ha, hp, -⟩ := routeSignal_eq_ok hs
  obtain ⟨-, hroute, hnew⟩ := currentAssembly_routeView hc
  obtain ⟨hid, hisNew, hparsed⟩ := planSignal_rows env event conversationId conversation routeId route
    (db.routeView env.run conversationId routeId route) alive s
  refine ⟨fun h => ?_, fun h a hg => ?_, ?_, by rw [hparsed, hp], fun e he => (planSignal_isIntentFor ha he).id,
    fun e he => (planSignal_isIntentFor ha he).route⟩
  · rw [hisNew] at h
    rw [hid]
    rw [if_pos h] at hnew
    exact hnew.1
  · rw [hisNew] at h
    rw [hid] at hg
    rw [if_neg (by simp [h])] at hnew
    rw [hnew.1] at hg
    cases hg
    exact hroute
  · rw [(planSignal_assembly_ids ..).1, hm]
    exact hroute

/-- The generations after a plan is written. -/
theorem planRoute_assemblies
    (h : planRoute env event parsed update conversationId conversation routeId route
      (db.routeView env.run conversationId routeId route) alive = .ok plan) (id : Uuid) :
    (plan.write env.run routeId db).assemblies.get? id =
      if id = plan.assemblyId then some plan.assembly else db.assemblies.get? id := by
  obtain ⟨s, hs, rfl⟩ := planRoute_eq_ok h
  obtain ⟨current, hc, -, -, -, hfree⟩ := routeSignal_eq_ok hs
  obtain ⟨-, -, hnew⟩ := currentAssembly_routeView hc
  obtain ⟨hid, hisNew, -⟩ := planSignal_rows env event conversationId conversation routeId route
    (db.routeView env.run conversationId routeId route) alive s
  generalize planSignal env event conversationId conversation routeId route
    (db.routeView env.run conversationId routeId route) alive s = plan at hid hisNew ⊢
  rw [RoutePlan.write]
  by_cases he : id = plan.assemblyId
  · subst he
    rw [if_pos rfl]
    split
    · rename_i hn
      rw [hisNew] at hn
      have hfree := hfree hn
      rw [if_pos hn] at hnew
      simp only [Database.routeView, Option.isSome_eq_false_iff, Option.isNone_iff_eq_none] at hfree
      rw [Table.get?_add, hid, hnew.1, hfree, if_pos rfl, Option.none_or]
    · rename_i hn
      rw [hisNew] at hn
      rw [if_neg hn] at hnew
      rw [Table.get?_modify_self, hid, hnew.1]
      rfl
  · rw [if_neg he]
    split
    · rw [Table.get?_add, if_neg he, Option.or_none]
    · rw [Table.get?_modify_of_ne _ he]

/-- A generation that a plan goes on with is an active one of its conversation and route. -/
theorem planRoute_current
    (h : planRoute env event parsed update conversationId conversation routeId route
      (db.routeView env.run conversationId routeId route) alive = .ok plan) {a : RouteSignalAssembly}
    (ha : db.assemblies.get? plan.assemblyId = some a) :
    a.state.isActive ∧ a.conversationId = conversationId ∧ a.routeId = routeId := by
  obtain ⟨s, hs, rfl⟩ := planRoute_eq_ok h
  obtain ⟨current, hc, -, -, -, hfree⟩ := routeSignal_eq_ok hs
  obtain ⟨hconv, hroute, hnew⟩ := currentAssembly_routeView hc
  rw [(planSignal_rows env event conversationId conversation routeId route
    (db.routeView env.run conversationId routeId route) alive s).1] at ha
  split at hnew
  · rename_i hn
    have hfree := hfree hn
    simp [Database.routeView, ← hnew.1, ha] at hfree
  · cases ha.symm.trans hnew.1
    exact ⟨hnew.2, hconv, hroute⟩

theorem planRoute_actionFree
    (h : planRoute env event parsed update conversationId conversation routeId route
      (db.routeView env.run conversationId routeId route) alive = .ok plan) :
    db.parsedActions.get? (.parsedAction env.run routeId) = none := by
  obtain ⟨s, hs, -⟩ := planRoute_eq_ok h
  obtain ⟨-, -, -, -, -, htaken⟩ := routeSignal_row hs
  simpa [Database.routeView] using htaken

/-- The generations of other routes stay. -/
theorem planRoute_keeps
    (h : planRoute env event parsed update conversationId conversation routeId route
      (db.routeView env.run conversationId routeId route) alive = .ok plan) {id : Uuid} {a : RouteSignalAssembly}
    (ha : db.assemblies.get? id = some a) (hne : a.routeId ≠ routeId) :
    (plan.write env.run routeId db).assemblies.get? id = some a := by
  rw [planRoute_assemblies h, if_neg, ha]
  rintro rfl
  exact hne (planRoute_current h ha).2.2

omit [Unicode] in
/-- What is written for a route does not show on another. -/
theorem routeView_write (h : plan.OnlyFor db env.run routeId) {r : Uuid} (hne : r ≠ routeId) (route' : CopyRoute) :
    (plan.write env.run routeId db).routeView env.run conversationId r route' =
      db.routeView env.run conversationId r route' := by
  have hassembly : plan.assembly.routeId ≠ r := fun he => hne (he.symm.trans h.assembly)
  have hparsed : plan.parsedAction.routeId ≠ r := fun he => hne (he.symm.trans h.parsedAction)
  have hkeys : ∀ e ∈ plan.intents, e.2.idempotencyKey.routeId ≠ r := fun e he hk =>
    hne (hk.symm.trans (h.keys e he))
  have hids : ∀ e ∈ plan.intents, e.1.isIntentOf env.run r = false := fun e he => by
    by_contra hc
    exact hne (Uuid.isIntentOf_unique (by simpa using hc) (h.ids e he))
  simp only [Database.routeView, RoutePlan.write, Database.intentsOf, Database.activeTrades, RouteView.mk.injEq,
    true_and, and_true]
  refine ⟨?_, ?_, ?_, ?_, ?_, ?_⟩
  · split
    · exact Table.select_add (by simp [hassembly])
    · rename_i hn
      refine Table.select_modify fun a ha => ⟨?_, by simp [hassembly]⟩
      have := h.old (by simpa using hn) a ha
      simp [this, hne.symm]
  · split
    · rename_i hn
      rw [h.new hn, Table.get?_add, if_neg (by simp [hne]), Option.or_none]
    · rw [Table.get?_modify]
      split
      · rename_i he; rw [he, Option.isSome_map]
      · rfl
  · exact Table.select_add (by simp [hparsed])
  · rw [Table.get?_add, if_neg (by simp [hne]), Option.or_none]
  · exact Table.select_addAll fun e he => by simp [hkeys e he]
  · rw [Table.select_addAll fun e he => hids e he]

omit [Unicode] in
theorem intentsOf_write_of_ne (h : plan.OnlyFor db env.run routeId) {r : Uuid} (hne : r ≠ routeId) :
    (plan.write env.run routeId db).intentsOf r = db.intentsOf r :=
  Table.select_addAll fun e he => by simp [h.keys e he, hne.symm]

/-- The route's own intents are those it had and those of the plan. -/
theorem intentsOf_write
    (h : planRoute env event parsed update conversationId conversation routeId route
      (db.routeView env.run conversationId routeId route) alive = .ok plan) :
    (plan.write env.run routeId db).intentsOf routeId = db.intentsOf routeId ++ plan.intents := by
  have honly := planRoute_onlyFor h
  obtain ⟨s, hs, rfl⟩ := planRoute_eq_ok h
  have hfresh : ∀ e ∈ (planSignal env event conversationId conversation routeId route
      (db.routeView env.run conversationId routeId route) alive s).intents, db.intents.get? e.1 = none := by
    intro e he
    have hid := honly.ids e he
    rw [planSignal_intents] at he
    split at he
    · cases he
    · have hno := createdIntents_fresh he
      cases hg : db.intents.get? e.1 with
      | none => rfl
      | some i => exact absurd (List.mem_map.mpr ⟨(e.1, i), Table.mem_select.2 ⟨hg, hid⟩, rfl⟩) hno
  have hnodup : ((planSignal env event conversationId conversation routeId route
      (db.routeView env.run conversationId routeId route) alive s).intents.map Prod.fst).Nodup := by
    rw [planSignal_intents]
    split
    · exact List.nodup_nil
    · exact createdIntents_nodup
  rw [Database.intentsOf, Table.select, RoutePlan.write, Table.entries_addAll hnodup hfresh, List.filter_append]
  congr 1
  exact List.filter_eq_self.2 fun e he => by simpa using honly.keys e he

/-! ## Duplicate keys -/

omit [Unicode] in
theorem alive_applyAll (keys : SemanticKeys) (effects : List RedisEffect) (now : Time) (key : SemanticKey) :
    (keys.applyAll effects).alive now key ↔
      keys.alive now key ∨ ∃ expires, .setSemantic key expires ∈ effects ∧ now < expires := by
  induction effects generalizing keys with
  | nil => simp [SemanticKeys.applyAll]
  | cons effect effects ih =>
    rw [SemanticKeys.applyAll, List.foldl_cons, ← SemanticKeys.applyAll, ih]
    cases effect with
    | setSemantic k e =>
      simp only [RedisEffect.apply, SemanticKeys.alive, List.any_cons, Bool.or_eq_true, Bool.and_eq_true,
        decide_eq_true_eq, List.mem_cons, RedisEffect.setSemantic.injEq]
      constructor
      · rintro ((⟨rfl, h⟩ | h) | ⟨e', h, h'⟩)
        · exact .inr ⟨e, .inl ⟨rfl, rfl⟩, h⟩
        · exact .inl h
        · exact .inr ⟨e', .inr h, h'⟩
      · rintro (h | ⟨e', ⟨rfl, rfl⟩ | h, h'⟩)
        · exact .inl (.inr h)
        · exact .inl (.inl ⟨rfl, h'⟩)
        · exact .inr ⟨e', h, h'⟩
    | publishExecute id k => simp [RedisEffect.apply]

/-- A plan leaves the duplicate keys of the other routes alone. -/
theorem alive_plan
    (h : planRoute env event parsed update conversationId conversation routeId route
      (db.routeView env.run conversationId routeId route) alive = .ok plan)
    (keys : SemanticKeys) (now : Time) {key : SemanticKey} (hne : key.routeId ≠ routeId) :
    (keys.applyAll plan.effects).alive now key = keys.alive now key := by
  rw [Bool.eq_iff_iff, alive_applyAll, or_iff_left]
  rintro ⟨expires, hm, -⟩
  obtain ⟨s, -, rfl⟩ := planRoute_eq_ok h
  exact hne (by rw [planSignal_effects hm]; rfl)

/-! ## The loop -/

namespace RouteLoop

variable (env : SignalEnv) (event : MessageEvent) (loop : RouteLoop) (e : Uuid × CopyRoute)

/-- The rows a route sees in the loop. -/
def view : RouteView := loop.db.routeView env.run loop.conversationId e.1 e.2

/-- Where the route's signal is read from. -/
def current : Uuid × RouteSignalAssembly × Bool :=
  currentAssembly env loop.conversationId loop.conversation e.1 e.2 (loop.view env e)

def signal : Except SignalError RouteSignal :=
  routeSignal env event loop.parsed loop.update loop.conversationId loop.conversation e.1 e.2 (loop.view env e)

/-- What is written for a route that is not paused. -/
def planFor (keys : SemanticKeys) : Except SignalError RoutePlan :=
  planRoute env event loop.parsed loop.update loop.conversationId loop.conversation e.1 e.2 (loop.view env e)
    (keys.alive env.now)

end RouteLoop

/-- The intents a route gets, from the database the loop started with. -/
def routeOutcome (env : SignalEnv) (event : MessageEvent) (loop : RouteLoop) (keys : SemanticKeys)
    (e : Uuid × CopyRoute) : Except SignalError (List (Uuid × TradeIntent)) :=
  let view := loop.db.routeView env.run loop.conversationId e.1 e.2
  if view.isPaused then .ok []
  else
    (planRoute env event loop.parsed loop.update loop.conversationId loop.conversation e.1 e.2 view
      (keys.alive env.now)).map RoutePlan.intents

/-- The intents of an outcome are for the route's signal. -/
theorem routeOutcome_isIntentFor {loop : RouteLoop} {keys : SemanticKeys} {e : Uuid × CopyRoute} {out : List (Uuid × TradeIntent)}
    (h : routeOutcome env event loop keys e = .ok out) {i : Uuid × TradeIntent} (hi : i ∈ out) :
    ∃ s, routeSignal env event loop.parsed loop.update loop.conversationId loop.conversation e.1 e.2
        (loop.db.routeView env.run loop.conversationId e.1 e.2) = .ok s ∧
      IsIntentFor env event e.1 loop.conversationId s.assembly.context i := by
  simp only [routeOutcome] at h
  split at h
  · cases h
    cases hi
  · cases hp : planRoute env event loop.parsed loop.update loop.conversationId loop.conversation e.1 e.2
        (loop.db.routeView env.run loop.conversationId e.1 e.2) (keys.alive env.now) with
    | error x => rw [hp] at h; cases h
    | ok plan =>
      rw [hp] at h
      cases h
      obtain ⟨s, hs, rfl⟩ := planRoute_eq_ok hp
      obtain ⟨-, -, -, hact, -⟩ := routeSignal_eq_ok hs
      exact ⟨s, hs, planSignal_isIntentFor hact hi⟩

/-- The routes still to process see what they would have seen at the start. -/
structure Unseen (env : SignalEnv) (loop : RouteLoop) (keys : SemanticKeys) (routes : List (Uuid × CopyRoute))
    (p : Progress) : Prop where
  view : ∀ e ∈ routes, p.db.routeView env.run loop.conversationId e.1 e.2 =
    loop.db.routeView env.run loop.conversationId e.1 e.2
  alive : ∀ e ∈ routes, ∀ key : SemanticKey, key.routeId = e.1 → p.semantic.alive env.now key = keys.alive env.now key

variable {loop : RouteLoop} {keys : SemanticKeys} {e : Uuid × CopyRoute} {routes : List (Uuid × CopyRoute)}
  {p p' : Progress}

/-- Only the route's own duplicate key counts. -/
theorem planRoute_congr (env : SignalEnv) (event : MessageEvent) (parsed : AiAction) (update : Context)
    (conversationId : Uuid) (conversation : SignalConversation) (routeId : Uuid) (route : CopyRoute) (view : RouteView)
    {alive alive' : SemanticKey → Bool} (h : ∀ key : SemanticKey, key.routeId = routeId → alive key = alive' key) :
    planRoute env event parsed update conversationId conversation routeId route view alive =
      planRoute env event parsed update conversationId conversation routeId route view alive' := by
  unfold planRoute
  congr 1
  funext s
  simp only [planSignal, RouteSignal.heldBack, h (s.duplicateKey routeId) rfl]

/-- A route processed: it has its outcome, the others have what they had. -/
theorem processRoute_ok (hu : Unseen env loop keys (e :: routes) p) (hn : e.1 ∉ routes.map Prod.fst)
    (h : processRoute env event loop.parsed loop.update loop.conversationId loop.conversation p e.1 e.2 = .ok p') :
    (∃ out, routeOutcome env event loop keys e = .ok out ∧ p'.db.intentsOf e.1 = loop.db.intentsOf e.1 ++ out) ∧
      (∀ r ≠ e.1, p'.db.intentsOf r = p.db.intentsOf r) ∧ Unseen env loop keys routes p' := by
  have hview := hu.view e List.mem_cons_self
  have hintents : p.db.intentsOf e.1 = loop.db.intentsOf e.1 := congrArg RouteView.intents hview
  have hrest : Unseen env loop keys routes p :=
    ⟨fun e' he' => hu.view e' (List.mem_cons_of_mem _ he'), fun e' he' => hu.alive e' (List.mem_cons_of_mem _ he')⟩
  have hplan := planRoute_congr env event loop.parsed loop.update loop.conversationId loop.conversation e.1 e.2
    (loop.db.routeView env.run loop.conversationId e.1 e.2) (hu.alive e List.mem_cons_self)
  simp only [processRoute] at h
  rw [hview] at h
  simp only [routeOutcome]
  split at h
  · rename_i hp
    cases h
    exact ⟨⟨[], by simp [hp], by simp [hintents]⟩, fun _ _ => rfl, hrest⟩
  · rename_i hp
    cases hr : planRoute env event loop.parsed loop.update loop.conversationId loop.conversation e.1 e.2
        (loop.db.routeView env.run loop.conversationId e.1 e.2) (p.semantic.alive env.now) with
    | error x => rw [hr] at h; cases h
    | ok plan =>
      rw [hr] at h
      cases h
      rw [← hview] at hr
      have honly := planRoute_onlyFor hr
      refine ⟨⟨plan.intents, ?_, ?_⟩, fun r hne => intentsOf_write_of_ne honly hne, fun e' he' => ?_, fun e' he' key hk => ?_⟩
      · rw [if_neg hp, ← hplan, ← hview, hr]
        rfl
      · rw [← hintents]
        exact intentsOf_write hr
      · have hne : e'.1 ≠ e.1 := fun he => hn (he ▸ List.mem_map_of_mem he')
        exact (routeView_write honly hne e'.2).trans (hrest.view e' he')
      · have hne : key.routeId ≠ e.1 := fun he => hn (he ▸ hk ▸ List.mem_map_of_mem he')
        exact (alive_plan hr p.semantic env.now hne).trans (hrest.alive e' he' key hk)

/-- An exception in a route is one the route has alone. -/
theorem processRoute_error (hu : Unseen env loop keys (e :: routes) p) {x : SignalError}
    (h : processRoute env event loop.parsed loop.update loop.conversationId loop.conversation p e.1 e.2 = .error x) :
    routeOutcome env event loop keys e = .error x := by
  have hplan := planRoute_congr env event loop.parsed loop.update loop.conversationId loop.conversation e.1 e.2
    (loop.db.routeView env.run loop.conversationId e.1 e.2) (hu.alive e List.mem_cons_self)
  simp only [processRoute, hu.view e List.mem_cons_self] at h
  simp only [routeOutcome]
  split at h
  · cases h
  · rename_i hp
    rw [if_neg hp, ← hplan]
    cases hr : planRoute env event loop.parsed loop.update loop.conversationId loop.conversation e.1 e.2
        (loop.db.routeView env.run loop.conversationId e.1 e.2) (p.semantic.alive env.now) with
    | error x' => rw [hr] at h; cases h; rfl
    | ok plan => rw [hr] at h; cases h

/-- **The loop, route by route.** A loop that ends gives every route its
outcome and no other route anything. -/
theorem processRoutes_ok {db' : Database} {effects : List RedisEffect} (hnd : (routes.map Prod.fst).Nodup)
    (hu : Unseen env loop keys routes p)
    (h : processRoutes env event loop.parsed loop.update loop.conversationId loop.conversation routes p =
      (.ok db', effects)) :
    (∀ e ∈ routes, ∃ out, routeOutcome env event loop keys e = .ok out ∧
        db'.intentsOf e.1 = loop.db.intentsOf e.1 ++ out) ∧
      ∀ r, r ∉ routes.map Prod.fst → db'.intentsOf r = p.db.intentsOf r := by
  induction routes generalizing p with
  | nil =>
    simp only [processRoutes, Prod.mk.injEq, Except.ok.injEq] at h
    exact ⟨fun _ he => absurd he List.not_mem_nil, fun r _ => by rw [← h.1]⟩
  | cons e routes ih =>
    rw [List.map_cons, List.nodup_cons] at hnd
    simp only [processRoutes] at h
    split at h
    · rename_i p' hp
      obtain ⟨⟨out, hout, hself⟩, hother, hu'⟩ := processRoute_ok hu hnd.1 hp
      obtain ⟨hin, hout'⟩ := ih hnd.2 hu' h
      refine ⟨fun e' he' => ?_, fun r hr => ?_⟩
      · rcases List.mem_cons.mp he' with rfl | he'
        · exact ⟨out, hout, by rw [hout' _ hnd.1, hself]⟩
        · exact hin e' he'
      · simp only [List.map_cons, List.mem_cons, not_or] at hr
        rw [hout' r hr.2, hother r hr.1]
    · cases h

/-- The generations and parsed actions of other routes stay. -/
theorem processRoutes_keeps {db' : Database} {effects : List RedisEffect}
    (h : processRoutes env event parsed update conversationId conversation routes p = (.ok db', effects)) :
    (∀ id a, p.db.assemblies.get? id = some a → a.routeId ∉ routes.map Prod.fst → db'.assemblies.get? id = some a) ∧
      ∀ id row, p.db.parsedActions.get? id = some row → db'.parsedActions.get? id = some row := by
  induction routes generalizing p with
  | nil =>
    simp only [processRoutes, Prod.mk.injEq, Except.ok.injEq] at h
    rw [← h.1]
    exact ⟨fun _ _ ha _ => ha, fun _ _ h => h⟩
  | cons e routes ih =>
    simp only [processRoutes] at h
    split at h
    · rename_i p' hp
      obtain ⟨hassemblies, hactions⟩ := ih h
      simp only [processRoute] at hp
      split at hp
      · cases hp
        exact ⟨fun id a ha hr => hassemblies id a ha fun hm => hr (List.mem_cons_of_mem _ hm), hactions⟩
      · cases hplan : planRoute env event parsed update conversationId conversation e.1 e.2
            (p.db.routeView env.run conversationId e.1 e.2) (p.semantic.alive env.now) with
        | error x => rw [hplan] at hp; cases hp
        | ok plan =>
          rw [hplan] at hp
          cases hp
          refine ⟨fun id a ha hr => ?_, fun id row hrow => hactions id row ?_⟩
          · simp only [List.map_cons, List.mem_cons, not_or] at hr
            exact hassemblies id a (planRoute_keeps hplan ha hr.1) hr.2
          · simp only [RoutePlan.write]
            rw [Table.get?_add, hrow, Option.some_or]
    · cases h

/-- **The rows of a loop.** Every route that is not paused has a plan, made from the
database the loop started with, and its rows are written; the other generations are
as they were. -/
theorem processRoutes_rows {db' : Database} {effects : List RedisEffect} (hnd : (routes.map Prod.fst).Nodup)
    (hu : Unseen env loop keys routes p)
    (h : processRoutes env event loop.parsed loop.update loop.conversationId loop.conversation routes p =
      (.ok db', effects)) :
    (∀ e ∈ routes, (loop.view env e).isPaused = false → ∃ plan, loop.planFor env event e keys = .ok plan ∧
      db'.assemblies.get? plan.assemblyId = some plan.assembly ∧
      db'.parsedActions.get? (.parsedAction env.run e.1) = some plan.parsedAction) ∧
    ∀ id, db'.assemblies.get? id = p.db.assemblies.get? id ∨
      ∃ e ∈ routes, ∃ plan, (loop.view env e).isPaused = false ∧ loop.planFor env event e keys = .ok plan ∧ plan.assemblyId = id := by
  induction routes generalizing p with
  | nil =>
    simp only [processRoutes, Prod.mk.injEq, Except.ok.injEq] at h
    rw [← h.1]
    exact ⟨fun _ he => absurd he List.not_mem_nil, fun _ => .inl rfl⟩
  | cons e routes ih =>
    rw [List.map_cons, List.nodup_cons] at hnd
    simp only [processRoutes] at h
    split at h
    · rename_i p' hp
      obtain ⟨hrows, hothers⟩ := ih hnd.2 (processRoute_ok hu hnd.1 hp).2.2 h
      have hview : p.db.routeView env.run loop.conversationId e.1 e.2 = loop.view env e := hu.view e List.mem_cons_self
      simp only [processRoute] at hp
      split at hp
      · rename_i hpaused
        cases hp
        refine ⟨fun e' he' hn => ?_, fun id => (hothers id).imp_right (Exists.imp fun e' => And.imp_left (List.mem_cons_of_mem _))⟩
        rcases List.mem_cons.mp he' with rfl | he'
        · rw [hview, hn] at hpaused
          cases hpaused
        · exact hrows e' he' hn
      · rename_i hpaused
        cases hplan : planRoute env event loop.parsed loop.update loop.conversationId loop.conversation e.1 e.2
            (p.db.routeView env.run loop.conversationId e.1 e.2) (p.semantic.alive env.now) with
        | error x => rw [hplan] at hp; cases hp
        | ok plan =>
          rw [hplan] at hp
          cases hp
          have hplan' : loop.planFor env event e keys = .ok plan := by
            rw [RouteLoop.planFor, ← planRoute_congr env event loop.parsed loop.update loop.conversationId loop.conversation e.1 e.2
              (loop.view env e) (hu.alive e List.mem_cons_self), ← hview]
            exact hplan
          have hn : (loop.view env e).isPaused = false := by
            rw [← hview]
            exact Bool.eq_false_iff.mpr hpaused
          obtain ⟨hkeepA, hkeepP⟩ := processRoutes_keeps h
          refine ⟨fun e' he' hn' => ?_, fun id => ?_⟩
          · rcases List.mem_cons.mp he' with rfl | he'
            · refine ⟨plan, hplan', hkeepA _ _ ?_ ?_, hkeepP _ _ ?_⟩
              · exact (planRoute_assemblies hplan _).trans (if_pos rfl)
              · rw [(planRoute_onlyFor hplan).assembly]
                exact hnd.1
              · simp only [RoutePlan.write]
                rw [Table.get?_add, planRoute_actionFree hplan, Option.none_or, if_pos rfl]
            · exact hrows e' he' hn'
          · rcases hothers id with hid | ⟨e', he', h⟩
            · rw [hid, planRoute_assemblies hplan]
              by_cases he : id = plan.assemblyId
              · exact .inr ⟨e, List.mem_cons_self, plan, hn, hplan', he.symm⟩
              · exact .inl (if_neg he)
            · exact .inr ⟨e', List.mem_cons_of_mem _ he', h⟩
    · cases h

theorem processRoutes_isOk (hnd : (routes.map Prod.fst).Nodup) (hu : Unseen env loop keys routes p)
    (h : ∀ e ∈ routes, ∃ out, routeOutcome env event loop keys e = .ok out) :
    ∃ db' effects, processRoutes env event loop.parsed loop.update loop.conversationId loop.conversation routes p =
      (.ok db', effects) := by
  induction routes generalizing p with
  | nil => exact ⟨p.db, p.effects, rfl⟩
  | cons e routes ih =>
    rw [List.map_cons, List.nodup_cons] at hnd
    simp only [processRoutes]
    split
    · rename_i p' hp
      exact ih hnd.2 (processRoute_ok hu hnd.1 hp).2.2 fun e' he' => h e' (List.mem_cons_of_mem _ he')
    · rename_i x hp
      obtain ⟨out, hout⟩ := h e List.mem_cons_self
      rw [processRoute_error hu hp] at hout
      cases hout

/-- A loop that raises, raises what one of its routes raises alone. -/
theorem processRoutes_error {x : SignalError} {effects : List RedisEffect} (hnd : (routes.map Prod.fst).Nodup)
    (hu : Unseen env loop keys routes p)
    (h : processRoutes env event loop.parsed loop.update loop.conversationId loop.conversation routes p =
      (.error x, effects)) : ∃ e ∈ routes, routeOutcome env event loop keys e = .error x := by
  induction routes generalizing p with
  | nil => cases h
  | cons e routes ih =>
    rw [List.map_cons, List.nodup_cons] at hnd
    simp only [processRoutes] at h
    split at h
    · rename_i p' hp
      obtain ⟨e', he', hout⟩ := ih hnd.2 (processRoute_ok hu hnd.1 hp).2.2 h
      exact ⟨e', List.mem_cons_of_mem _ he', hout⟩
    · rename_i x' hp
      cases h
      exact ⟨e, List.mem_cons_self, processRoute_error hu hp⟩

/-- A run that commits has ended before the loop, or its loop has ended. -/
theorem signalHandler_eq_ok {keys : SemanticKeys} {r : DeliveryResult} {db' : Database}
    (h : (signalHandler env event db keys).result = .ok (r, db')) :
    ((∃ run, prepare env event db = .error run) ∧
        db' = if event.eventType = .deleted then handleDeletedMessage event db else db) ∨
      ∃ loop effects, prepare env event db = .ok loop ∧
        processRoutes env event loop.parsed loop.update loop.conversationId loop.conversation loop.routes
          { db := loop.db, semantic := keys, effects := [] } = (.ok db', effects) := by
  unfold signalHandler at h
  split at h
  · rename_i run hp
    exact .inl ⟨⟨run, hp⟩, prepare_eq_error_db hp h⟩
  · rename_i loop hp
    unfold RouteLoop.run at h
    rcases hrun : processRoutes env event loop.parsed loop.update loop.conversationId loop.conversation loop.routes
      { db := loop.db, semantic := keys, effects := [] } with ⟨result, effects⟩
    rw [hrun] at h
    cases result with
    | error x => cases h
    | ok db₁ =>
      cases h
      exact .inr ⟨loop, effects, hp, hrun⟩

/-! ## What every run keeps -/

/-- What every written plan keeps, a loop keeps. -/
theorem processRoutes_invariant {P : Database → Prop}
    (hwrite : ∀ (db : Database) (routeId : Uuid) (route : CopyRoute) (alive : SemanticKey → Bool) (plan : RoutePlan), P db →
      planRoute env event parsed update conversationId conversation routeId route
        (db.routeView env.run conversationId routeId route) alive = .ok plan → P (plan.write env.run routeId db))
    {db' : Database} {effects : List RedisEffect} (hp : P p.db)
    (h : processRoutes env event parsed update conversationId conversation routes p = (.ok db', effects)) : P db' := by
  induction routes generalizing p with
  | nil =>
    simp only [processRoutes, Prod.mk.injEq, Except.ok.injEq] at h
    exact h.1 ▸ hp
  | cons e routes ih =>
    simp only [processRoutes] at h
    split at h
    · rename_i p' hroute
      refine ih ?_ h
      simp only [processRoute] at hroute
      split at hroute
      · cases hroute
        exact hp
      · cases hplan : planRoute env event parsed update conversationId conversation e.1 e.2
            (p.db.routeView env.run conversationId e.1 e.2) (p.semantic.alive env.now) with
        | error x => rw [hplan] at hroute; cases hroute
        | ok plan =>
          rw [hplan] at hroute
          cases hroute
          exact hwrite _ _ _ _ _ hp hplan
    · cases h

/-- A loop writes no conversation and no trade. -/
theorem processRoutes_tables {db' : Database} {effects : List RedisEffect}
    (h : processRoutes env event parsed update conversationId conversation routes p = (.ok db', effects)) :
    db'.conversations = p.db.conversations ∧ db'.trades = p.db.trades :=
  processRoutes_invariant (P := fun db => db.conversations = p.db.conversations ∧ db.trades = p.db.trades)
    (fun _ _ _ _ _ h _ => h) ⟨rfl, rfl⟩ h

/-- What the conversations do not matter to and every written plan keeps. -/
structure Kept (env : SignalEnv) (event : MessageEvent) (P : Database → Prop) : Prop where
  conversations : ∀ db conversations, P db → P { db with conversations }
  write : ∀ (db : Database) (parsed : AiAction) (update : Context) (conversationId : Uuid) (conversation : SignalConversation)
    (routeId : Uuid) (route : CopyRoute) (alive : SemanticKey → Bool) (plan : RoutePlan), P db →
      planRoute env event parsed update conversationId conversation routeId route
        (db.routeView env.run conversationId routeId route) alive = .ok plan → P (plan.write env.run routeId db)

theorem Kept.processRoutes {P : Database → Prop} (hk : Kept env event P) {db' : Database} {effects : List RedisEffect}
    (hp : P p.db) (h : processRoutes env event parsed update conversationId conversation routes p = (.ok db', effects)) : P db' :=
  processRoutes_invariant (fun db routeId route alive plan => hk.write db parsed update conversationId conversation routeId route alive plan) hp h

/-- The handler starts from what is kept, or marks a deleted message's generations. -/
theorem Kept.signalHandler {P : Database → Prop} (hk : Kept env event P) (hdeleted : P db → P (handleDeletedMessage event db))
    (hp : P db) {keys : SemanticKeys} {r : DeliveryResult} {db' : Database}
    (h : (signalHandler env event db keys).result = .ok (r, db')) : P db' := by
  rcases signalHandler_eq_ok h with ⟨-, rfl⟩ | ⟨loop, effects, hprepare, hrun⟩
  · split
    · exact hdeleted hp
    · exact hp
  · obtain ⟨conversations, hdb⟩ := prepare_loop_db hprepare
    refine hk.processRoutes ?_ hrun
    simp only [hdb]
    exact hk.conversations _ _ hp

omit [Unicode] in
/-- Every row is among the intents of its route. -/
theorem mem_intentsOf {id : Uuid} {row : TradeIntent} :
    (id, row) ∈ db.intentsOf row.idempotencyKey.routeId ↔ db.intents.get? id = some row := by
  simp [Database.intentsOf, Table.mem_select]

/-- A loop that ends keeps every intent, and what it adds is in the plan of a route. -/
theorem processRoutes_intents {db' : Database} {effects : List RedisEffect} (hnd : (routes.map Prod.fst).Nodup)
    (hu : Unseen env loop keys routes p) (hp : p.db.intents = loop.db.intents)
    (h : processRoutes env event loop.parsed loop.update loop.conversationId loop.conversation routes p =
      (.ok db', effects)) {id : Uuid} {row : TradeIntent} :
    db'.intents.get? id = some row ↔ loop.db.intents.get? id = some row ∨
      ∃ e ∈ routes, (loop.view env e).isPaused = false ∧ ∃ plan, loop.planFor env event e keys = .ok plan ∧
        (id, row) ∈ plan.intents ∧ row.idempotencyKey.routeId = e.1 := by
  obtain ⟨hin, hout⟩ := processRoutes_ok hnd hu h
  have hsame (r : Uuid) : p.db.intentsOf r = loop.db.intentsOf r := by rw [Database.intentsOf, hp]; rfl
  have hplan (e : Uuid × CopyRoute) (out : List (Uuid × TradeIntent)) (ho : routeOutcome env event loop keys e = .ok out) :
      (id, row) ∈ out ↔ (loop.view env e).isPaused = false ∧ ∃ plan, loop.planFor env event e keys = .ok plan ∧
        (id, row) ∈ plan.intents := by
    have ho' : (if (loop.view env e).isPaused then .ok [] else (loop.planFor env event e keys).map RoutePlan.intents) =
      Except.ok out := ho
    by_cases hpaused : (loop.view env e).isPaused
    · rw [if_pos hpaused] at ho'
      cases ho'
      simp [hpaused]
    · rw [if_neg hpaused] at ho'
      cases hpf : loop.planFor env event e keys with
      | error x => rw [hpf] at ho'; cases ho'
      | ok plan =>
        rw [hpf] at ho'
        cases ho'
        simp [hpaused]
  rw [← mem_intentsOf, ← mem_intentsOf]
  constructor
  · intro hm
    by_cases hmem : row.idempotencyKey.routeId ∈ routes.map Prod.fst
    · obtain ⟨e, he, hr⟩ := List.mem_map.mp hmem
      obtain ⟨out, hoc, hints⟩ := hin e he
      rw [← hr, hints] at hm
      rcases List.mem_append.mp hm with hm | hm
      · exact .inl (hr ▸ hm)
      · obtain ⟨hn, plan, hpl, hrow⟩ := (hplan e out hoc).mp hm
        exact .inr ⟨e, he, hn, plan, hpl, hrow, hr.symm⟩
    · rw [hout _ hmem, hsame] at hm
      exact .inl hm
  · rintro (hm | ⟨e, he, hn, plan, hpl, hrow, hr⟩)
    · by_cases hmem : row.idempotencyKey.routeId ∈ routes.map Prod.fst
      · obtain ⟨e, he, hr⟩ := List.mem_map.mp hmem
        obtain ⟨out, -, hints⟩ := hin e he
        rw [← hr, hints]
        exact List.mem_append_left _ (hr ▸ hm)
      · rw [hout _ hmem, hsame]
        exact hm
    · obtain ⟨out, hoc, hints⟩ := hin e he
      rw [hr, hints]
      exact List.mem_append_right _ ((hplan e out hoc).mpr ⟨hn, plan, hpl, hrow⟩)

/-- A run keeps every intent, and what it adds is what a route's signal asks for. -/
theorem signalHandler_intents {keys : SemanticKeys} {r : DeliveryResult} {db' : Database}
    (h : (signalHandler env event db keys).result = .ok (r, db')) {id : Uuid} {row : TradeIntent} :
    (db.intents.get? id = some row → db'.intents.get? id = some row) ∧
      (db'.intents.get? id = some row → db.intents.get? id = some row ∨
        ∃ loop s e, prepare env event db = .ok loop ∧ e ∈ loop.routes ∧
          routeSignal env event loop.parsed loop.update loop.conversationId loop.conversation e.1 e.2
            (loop.db.routeView env.run loop.conversationId e.1 e.2) = .ok s ∧
          some s.action = s.assembly.context.action ∧
          IsIntentFor env event e.1 loop.conversationId s.assembly.context (id, row)) := by
  rcases signalHandler_eq_ok h with ⟨-, rfl⟩ | ⟨loop, effects, hp, hrun⟩
  · split <;> exact ⟨fun h => h, .inl⟩
  · obtain ⟨conversations, hdb⟩ := prepare_loop_db hp
    have hsame : loop.db.intents = db.intents := by rw [hdb]
    have hiff : db'.intents.get? id = some row ↔ _ :=
      processRoutes_intents (prepare_routes hp) ⟨fun _ _ => rfl, fun _ _ _ _ => rfl⟩ rfl hrun
    rw [hsame] at hiff
    rw [hiff]
    refine ⟨.inl, Or.imp_right ?_⟩
    rintro ⟨e, he, -, plan, hplan, hrow, -⟩
    obtain ⟨s, hs, rfl⟩ := planRoute_eq_ok hplan
    obtain ⟨-, -, -, hact, -⟩ := routeSignal_eq_ok hs
    exact ⟨loop, s, e, hp, he, hs, hact.symm, planSignal_isIntentFor hact hrow⟩

/-! ## What a loop leaves -/

omit [Unicode] in
/-- A generation begins where none is in progress. -/
theorem not_active_of_new (hn : (loop.current env e).2.2) {id : Uuid} {a : RouteSignalAssembly}
    (ha : loop.db.assemblies.get? id = some a) (hc : a.conversationId = loop.conversationId) (hr : a.routeId = e.1) :
    a.state.isActive = false := by
  have hm : (id, a) ∈ (loop.view env e).assemblies := by
    simp only [RouteLoop.view, Database.routeView, Table.mem_select]
    exact ⟨ha, by simp [hc, hr]⟩
  unfold RouteLoop.current currentAssembly at hn
  split at hn
  · cases hn
  · rename_i hnone
    simpa using List.find?_eq_none.1 hnone _ hm

/-- The generation of a plan: the one its route's signal is read from, with the
message merged in. -/
theorem planFor_assembly (h : loop.planFor env event e keys = .ok plan) :
    plan.assemblyId = (loop.current env e).1 ∧ plan.parsedAction.assemblyId = plan.assemblyId ∧
      plan.assembly.conversationId = loop.conversationId ∧ plan.assembly.routeId = e.1 ∧
      plan.assembly.context = (mergeMessage event loop.update (loop.current env e).2.1).context := by
  obtain ⟨s, hs, rfl⟩ := planRoute_eq_ok h
  obtain ⟨current, isNew, hc, -, hrow, -⟩ := routeSignal_row hs
  obtain ⟨current', hc', hm, -⟩ := routeSignal_eq_ok hs
  cases hc.symm.trans hc'
  have hcurrent : loop.current env e = (s.assemblyId, current, s.isNew) := hc
  obtain ⟨hconv, hroute, -⟩ := currentAssembly_routeView hc
  obtain ⟨hid, -, hparsed⟩ := planSignal_rows env event loop.conversationId loop.conversation e.1 e.2 (loop.view env e)
    (keys.alive env.now) s
  obtain ⟨_, _, hkept⟩ := planSignal_assembly_kept env event loop.conversationId loop.conversation e.1 e.2 (loop.view env e)
    (keys.alive env.now) s
  rw [hid, hparsed, hkept, hrow, hm, hcurrent]
  exact ⟨rfl, rfl, hconv, hroute, rfl⟩

/-- The rows that a loop leaves. -/
structure LoopEnds (env : SignalEnv) (event : MessageEvent) (keys : SemanticKeys) (db : Database) (loop : RouteLoop)
    (db' : Database) : Prop where
  nodup : (loop.routes.map Prod.fst).Nodup
  assemblies : loop.db.assemblies = db.assemblies
  intents : loop.db.intents = db.intents
  conversations : db'.conversations = loop.db.conversations
  trades : db'.trades = db.trades
  rows : ∀ e ∈ loop.routes, (loop.view env e).isPaused = false → ∃ plan, loop.planFor env event e keys = .ok plan ∧
    db'.assemblies.get? plan.assemblyId = some plan.assembly ∧
    db'.parsedActions.get? (.parsedAction env.run e.1) = some plan.parsedAction
  others : ∀ id, db'.assemblies.get? id = db.assemblies.get? id ∨ ∃ e ∈ loop.routes, ∃ plan,
    (loop.view env e).isPaused = false ∧ loop.planFor env event e keys = .ok plan ∧ plan.assemblyId = id
  added : ∀ id row, db'.intents.get? id = some row ↔ db.intents.get? id = some row ∨
    ∃ e ∈ loop.routes, (loop.view env e).isPaused = false ∧ ∃ plan, loop.planFor env event e keys = .ok plan ∧
      (id, row) ∈ plan.intents ∧ row.idempotencyKey.routeId = e.1

theorem loopEnds (hl : prepare env event db = .ok loop)
    (h : processRoutes env event loop.parsed loop.update loop.conversationId loop.conversation loop.routes
      { db := loop.db, semantic := keys, effects := [] } = (.ok db', effects)) : LoopEnds env event keys db loop db' := by
  obtain ⟨conversations, hdb⟩ := prepare_loop_db hl
  have ha : loop.db.assemblies = db.assemblies := by rw [hdb]
  have hi : loop.db.intents = db.intents := by rw [hdb]
  have hu : Unseen env loop keys loop.routes { db := loop.db, semantic := keys, effects := [] } :=
    ⟨fun _ _ => rfl, fun _ _ _ _ => rfl⟩
  obtain ⟨hrows, hothers⟩ := processRoutes_rows (prepare_routes hl) hu h
  obtain ⟨hconversations, htrades⟩ := processRoutes_tables h
  exact ⟨prepare_routes hl, ha, hi, hconversations, htrades.trans (by rw [hdb]), hrows, fun id => ha ▸ hothers id,
    fun id row => hi ▸ processRoutes_intents (prepare_routes hl) hu rfl h⟩

end

end SignalSync
