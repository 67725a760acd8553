import SignalSync.Copying.Generations

/-!
# The numbers of generations

The generations of a conversation on a route are numbered, and a message goes to the one
that is in progress or begins the next. The table has a unique index on those in progress,
which the handler never runs into.

* `Numbered`: the numbers go from 1 on, each once, and the generation in progress has the last;
* `Numbered.write`: a route's plan keeps them;
* `one_generation_active`: so does every run, of messages, sweeps and executions.
-/

namespace SignalSync

open Library

/-- A generation of the same conversation, on the same route. -/
def RouteSignalAssembly.Alongside (a a' : RouteSignalAssembly) : Prop := a.conversationId = a'.conversationId ∧ a.routeId = a'.routeId

structure Numbered (db : Database) : Prop where
  positive : ∀ id a, db.assemblies.get? id = some a → 0 < a.generation
  unique : ∀ id id' a a', db.assemblies.get? id = some a → db.assemblies.get? id' = some a' → a.Alongside a' →
    a.generation = a'.generation → id = id'
  gapless : ∀ id a, db.assemblies.get? id = some a → 1 < a.generation →
    ∃ id' a', db.assemblies.get? id' = some a' ∧ a'.Alongside a ∧ a'.generation + 1 = a.generation
  latest : ∀ id id' a a', db.assemblies.get? id = some a → db.assemblies.get? id' = some a' → a.Alongside a' →
    a'.state.isActive → a.generation ≤ a'.generation

theorem foldr_max_spec (l : List Nat) : (∀ n ∈ l, n ≤ l.foldr max 0) ∧ (l.foldr max 0 = 0 ∨ l.foldr max 0 ∈ l) := by
  induction l with
  | nil => exact ⟨List.forall_mem_nil _, .inl rfl⟩
  | cons n l ih =>
    refine ⟨fun m hm => ?_, ?_⟩
    · rcases List.mem_cons.mp hm with rfl | hm
      · exact le_max_left ..
      · exact (ih.1 m hm).trans (le_max_right ..)
    · rcases max_choice n (l.foldr max 0) with h | h <;> rw [List.foldr_cons, h]
      · exact .inr List.mem_cons_self
      · exact ih.2.imp id (List.mem_cons_of_mem _)

section

variable [Unicode] {env : SignalEnv} {event : MessageEvent} {parsed : AiAction} {update : Context} {conversationId : Uuid}
  {conversation : SignalConversation} {routeId : Uuid} {route : CopyRoute} {db : Database} {alive : SemanticKey → Bool} {plan : RoutePlan}

/-- What a plan does to the generations of its conversation and route: it begins the next,
with none in progress, or goes on with the one in progress. -/
theorem planRoute_generation
    (h : planRoute env event parsed update conversationId conversation routeId route
      (db.routeView env.run conversationId routeId route) alive = .ok plan) :
    plan.assembly.conversationId = conversationId ∧ plan.assembly.routeId = routeId ∧
      (db.assemblies.get? plan.assemblyId = none ∧
          (∀ id a, db.assemblies.get? id = some a → a.Alongside plan.assembly →
            a.state.isActive = false ∧ a.generation < plan.assembly.generation) ∧
          (plan.assembly.generation = 1 ∨ ∃ id a, db.assemblies.get? id = some a ∧ a.Alongside plan.assembly ∧
            a.generation + 1 = plan.assembly.generation) ∨
        ∃ current, db.assemblies.get? plan.assemblyId = some current ∧ current.state.isActive ∧ current.Alongside plan.assembly ∧
          current.generation = plan.assembly.generation) := by
  obtain ⟨s, hs, rfl⟩ := planRoute_eq_ok h
  obtain ⟨current, hc, hm, -, -, hfree⟩ := routeSignal_eq_ok hs
  obtain ⟨hconv, hroute, hnew⟩ := currentAssembly_routeView hc
  obtain ⟨hid, -, -⟩ := planSignal_rows env event conversationId conversation routeId route
    (db.routeView env.run conversationId routeId route) alive s
  obtain ⟨state, openingIntentId, hkept⟩ := planSignal_assembly_kept env event conversationId conversation routeId route
    (db.routeView env.run conversationId routeId route) alive s
  have hassembly : (planSignal env event conversationId conversation routeId route
      (db.routeView env.run conversationId routeId route) alive s).assembly.conversationId = current.conversationId ∧
      (planSignal env event conversationId conversation routeId route
        (db.routeView env.run conversationId routeId route) alive s).assembly.routeId = current.routeId ∧
      (planSignal env event conversationId conversation routeId route
        (db.routeView env.run conversationId routeId route) alive s).assembly.generation = current.generation := by
    rw [hkept, hm]
    exact ⟨rfl, rfl, rfl⟩
  generalize planSignal env event conversationId conversation routeId route
    (db.routeView env.run conversationId routeId route) alive s = plan at hid hassembly ⊢
  obtain ⟨hc', hr', hg'⟩ := hassembly
  refine ⟨hc'.trans hconv, hr'.trans hroute, ?_⟩
  rw [hid]
  have hrows (id : Uuid) (a : RouteSignalAssembly) : (id, a) ∈ (db.routeView env.run conversationId routeId route).assemblies ↔
      db.assemblies.get? id = some a ∧ a.Alongside plan.assembly := by
    simp [Database.routeView, Table.mem_select, RouteSignalAssembly.Alongside, hc', hr', hconv, hroute]
  rw [hg']
  unfold currentAssembly at hc
  split at hc
  · rename_i i a hf
    obtain ⟨hi, ha, -⟩ : i = s.assemblyId ∧ a = current ∧ false = s.isNew := by simpa using hc
    obtain ⟨hget, halong⟩ := (hrows i a).1 (List.mem_of_find?_eq_some hf)
    exact .inr ⟨a, hi ▸ hget, by simpa using List.find?_some hf, halong, by rw [ha]⟩
  · rename_i hnone
    obtain ⟨hid, hcurrent, hisNew⟩ : .assembly env.run routeId = s.assemblyId ∧ _ = current ∧ true = s.isNew := by
      simpa only [Prod.mk.injEq] using hc
    have hgeneration : current.generation =
        (((db.routeView env.run conversationId routeId route).assemblies.map fun e => e.2.generation).foldr max 0) + 1 := by
      rw [← hcurrent]
    obtain ⟨hle, hmax⟩ := foldr_max_spec ((db.routeView env.run conversationId routeId route).assemblies.map fun e => e.2.generation)
    rw [hgeneration]
    refine .inl ⟨?_, fun id a ha halong => ⟨?_, ?_⟩, ?_⟩
    · have hfree := hfree hisNew.symm
      rw [← hid]
      simpa [Database.routeView] using hfree
    · simpa using List.find?_eq_none.1 hnone _ ((hrows id a).2 ⟨ha, halong⟩)
    · exact Nat.lt_succ_of_le (hle _ (List.mem_map.mpr ⟨(id, a), (hrows id a).2 ⟨ha, halong⟩, rfl⟩))
    · rcases hmax with hzero | hmem
      · exact .inl (by rw [hzero])
      · obtain ⟨e, he, hegen⟩ := List.mem_map.mp hmem
        obtain ⟨hget, halong⟩ := (hrows e.1 e.2).1 he
        exact .inr ⟨e.1, e.2, hget, halong, by rw [hegen]⟩

theorem Numbered.write (hn : Numbered db)
    (h : planRoute env event parsed update conversationId conversation routeId route
      (db.routeView env.run conversationId routeId route) alive = .ok plan) : Numbered (plan.write env.run routeId db) := by
  have hget := planRoute_assemblies h
  obtain ⟨-, -, ⟨hfree, hbefore, hnext⟩ | ⟨current, hcurrent, hactive, halong, hsame⟩⟩ := planRoute_generation h
  · -- the next one
    have hold {id : Uuid} {a : RouteSignalAssembly} (ha : (plan.write env.run routeId db).assemblies.get? id = some a) :
        id = plan.assemblyId ∧ a = plan.assembly ∨ db.assemblies.get? id = some a := by
      rw [hget] at ha
      split at ha
      · rename_i hid
        cases ha
        exact .inl ⟨hid, rfl⟩
      · exact .inr ha
    have hkeep {id : Uuid} {a : RouteSignalAssembly} (ha : db.assemblies.get? id = some a) :
        (plan.write env.run routeId db).assemblies.get? id = some a := by
      rw [hget, if_neg, ha]
      rintro rfl
      cases hfree.symm.trans ha
    have hself : (plan.write env.run routeId db).assemblies.get? plan.assemblyId = some plan.assembly := by rw [hget, if_pos rfl]
    refine ⟨fun id a ha => ?_, fun id id' a a' ha ha' hal hg => ?_, fun id a ha hone => ?_, fun id id' a a' ha ha' hal hact => ?_⟩
    · rcases hold ha with ⟨rfl, rfl⟩ | ha
      · rcases hnext with hone | ⟨_, _, -, -, hsucc⟩ <;> omega
      · exact hn.positive id a ha
    · rcases hold ha with ⟨rfl, rfl⟩ | ha <;> rcases hold ha' with ⟨rfl, rfl⟩ | ha'
      · rfl
      · exact absurd hg.symm (Nat.ne_of_lt (hbefore id' a' ha' ⟨hal.1.symm, hal.2.symm⟩).2)
      · exact absurd hg (Nat.ne_of_lt (hbefore id a ha hal).2)
      · exact hn.unique id id' a a' ha ha' hal hg
    · rcases hold ha with ⟨rfl, rfl⟩ | ha
      · rcases hnext with hfirst | ⟨id', a', ha', hal, hsucc⟩
        · omega
        · exact ⟨id', a', hkeep ha', hal, hsucc⟩
      · obtain ⟨id', a', ha', hrest⟩ := hn.gapless id a ha hone
        exact ⟨id', a', hkeep ha', hrest⟩
    · rcases hold ha with ⟨rfl, rfl⟩ | ha <;> rcases hold ha' with ⟨rfl, rfl⟩ | ha'
      · exact le_rfl
      · have hinactive := (hbefore id' a' ha' ⟨hal.1.symm, hal.2.symm⟩).1
        rw [hact] at hinactive
        cases hinactive
      · exact (hbefore id a ha hal).2.le
      · exact hn.latest id id' a a' ha ha' hal hact
  · -- the one in progress, with the message merged in
    have hold {id : Uuid} {a : RouteSignalAssembly} (ha : (plan.write env.run routeId db).assemblies.get? id = some a) :
        ∃ a₀, db.assemblies.get? id = some a₀ ∧ a₀.Alongside a ∧ a₀.generation = a.generation ∧ (a.state.isActive → a₀.state.isActive) := by
      rw [hget] at ha
      split at ha
      · rename_i hid
        cases ha
        exact ⟨current, hid ▸ hcurrent, halong, hsame, fun _ => hactive⟩
      · exact ⟨a, ha, ⟨rfl, rfl⟩, rfl, fun h => h⟩
    have hkeep {id : Uuid} {a₀ : RouteSignalAssembly} (ha : db.assemblies.get? id = some a₀) :
        ∃ a, (plan.write env.run routeId db).assemblies.get? id = some a ∧ a₀.Alongside a ∧ a₀.generation = a.generation := by
      rw [hget]
      split
      · rename_i hid
        subst hid
        cases ha.symm.trans hcurrent
        exact ⟨plan.assembly, rfl, halong, hsame⟩
      · exact ⟨a₀, ha, ⟨rfl, rfl⟩, rfl⟩
    refine ⟨fun id a ha => ?_, fun id id' a a' ha ha' hal hg => ?_, fun id a ha hone => ?_, fun id id' a a' ha ha' hal hact => ?_⟩
    · obtain ⟨a₀, ha₀, -, hg, -⟩ := hold ha
      exact hg ▸ hn.positive id a₀ ha₀
    · obtain ⟨a₀, ha₀, hal₀, hg₀, -⟩ := hold ha
      obtain ⟨a₁, ha₁, hal₁, hg₁, -⟩ := hold ha'
      exact hn.unique id id' a₀ a₁ ha₀ ha₁ ⟨hal₀.1.trans (hal.1.trans hal₁.1.symm), hal₀.2.trans (hal.2.trans hal₁.2.symm)⟩
        (hg₀.trans (hg.trans hg₁.symm))
    · obtain ⟨a₀, ha₀, hal₀, hg₀, -⟩ := hold ha
      obtain ⟨id', a₁, ha₁, hal₁, hg₁⟩ := hn.gapless id a₀ ha₀ (hg₀ ▸ hone)
      obtain ⟨a', ha', hal', hg'⟩ := hkeep ha₁
      exact ⟨id', a', ha', ⟨hal'.1.symm.trans (hal₁.1.trans hal₀.1), hal'.2.symm.trans (hal₁.2.trans hal₀.2)⟩, by omega⟩
    · obtain ⟨a₀, ha₀, hal₀, hg₀, -⟩ := hold ha
      obtain ⟨a₁, ha₁, hal₁, hg₁, hact₁⟩ := hold ha'
      have hle := hn.latest id id' a₀ a₁ ha₀ ha₁ ⟨hal₀.1.trans (hal.1.trans hal₁.1.symm), hal₀.2.trans (hal.2.trans hal₁.2.symm)⟩
        (hact₁ hact)
      omega

theorem kept_numbered : Kept env event Numbered where
  conversations _ _ hn := ⟨hn.positive, hn.unique, hn.gapless, hn.latest⟩
  write _ _ _ _ _ _ _ _ _ hn h := hn.write h

omit [Unicode] in
/-- Generations that only come to an end keep their numbers. -/
theorem Numbered.mapRows (hn : Numbered db) {db' : Database} {f : Uuid → RouteSignalAssembly → RouteSignalAssembly}
    (ha : db'.assemblies = db.assemblies.mapRows f)
    (hf : ∀ id a, a.Alongside (f id a) ∧ a.generation = (f id a).generation ∧ ((f id a).state.isActive → a.state.isActive)) :
    Numbered db' := by
  have hrow {id : Uuid} {a : RouteSignalAssembly} : db'.assemblies.get? id = some a ↔
      ∃ a₀, db.assemblies.get? id = some a₀ ∧ f id a₀ = a := by
    rw [ha, Table.get?_mapRows, Option.map_eq_some_iff]
  refine ⟨fun id a ha => ?_, fun id id' a a' ha ha' hal hg => ?_, fun id a ha hone => ?_, fun id id' a a' ha ha' hal hact => ?_⟩
  · obtain ⟨a₀, ha₀, rfl⟩ := hrow.1 ha
    exact (hf id a₀).2.1 ▸ hn.positive id a₀ ha₀
  · obtain ⟨a₀, ha₀, rfl⟩ := hrow.1 ha
    obtain ⟨a₁, ha₁, rfl⟩ := hrow.1 ha'
    obtain ⟨hal₀, hg₀, -⟩ := hf id a₀
    obtain ⟨hal₁, hg₁, -⟩ := hf id' a₁
    exact hn.unique id id' a₀ a₁ ha₀ ha₁ ⟨hal₀.1.trans (hal.1.trans hal₁.1.symm), hal₀.2.trans (hal.2.trans hal₁.2.symm)⟩
      (hg₀.trans (hg.trans hg₁.symm))
  · obtain ⟨a₀, ha₀, rfl⟩ := hrow.1 ha
    obtain ⟨hal₀, hg₀, -⟩ := hf id a₀
    obtain ⟨id', a₁, ha₁, hal₁, hg₁⟩ := hn.gapless id a₀ ha₀ (hg₀ ▸ hone)
    obtain ⟨hal', hg', -⟩ := hf id' a₁
    exact ⟨id', _, hrow.2 ⟨a₁, ha₁, rfl⟩, ⟨hal'.1.symm.trans (hal₁.1.trans hal₀.1), hal'.2.symm.trans (hal₁.2.trans hal₀.2)⟩, by omega⟩
  · obtain ⟨a₀, ha₀, rfl⟩ := hrow.1 ha
    obtain ⟨a₁, ha₁, rfl⟩ := hrow.1 ha'
    obtain ⟨hal₀, hg₀, -⟩ := hf id a₀
    obtain ⟨hal₁, hg₁, hact₁⟩ := hf id' a₁
    have hle := hn.latest id id' a₀ a₁ ha₀ ha₁ ⟨hal₀.1.trans (hal.1.trans hal₁.1.symm), hal₀.2.trans (hal.2.trans hal₁.2.symm)⟩
      (hact₁ hact)
    omega

end

/-! ## Runs -/

namespace CopyState

variable [Unicode] {settings : ExecutionSettings} {s t : CopyState} {label : CopyLabel}

theorem numbered_of_step (h : Step settings s label t) (hn : Numbered s.db) : Numbered t.db := by
  have hkeep {db : Database} (ha : db.assemblies = s.db.assemblies) : Numbered db := by
    refine hn.mapRows (f := fun _ a => a) ?_ fun id a => ⟨⟨rfl, rfl⟩, rfl, fun h => h⟩
    rw [ha, Table.mapRows]
    simp
  have hended (f : RouteSignalAssembly → RouteSignalAssembly) {db : Database} (ha : db.assemblies = s.db.assemblies.mapRows fun _ => f)
      (hf : ∀ a, f a = a ∨ f a = { a with state := (f a).state } ∧ (f a).state.isActive = false) : Numbered db := by
    refine hn.mapRows ha fun id a => ?_
    rcases hf a with h | ⟨h, hinactive⟩
    · rw [h]
      exact ⟨⟨rfl, rfl⟩, rfl, fun h => h⟩
    · refine ⟨?_, ?_, fun hact => ?_⟩
      · rw [h]; exact ⟨rfl, rfl⟩
      · rw [h]
      · rw [hact] at hinactive
        cases hinactive
  cases h with
  | message hr ht =>
    rw [ht.db]
    refine kept_numbered.signalHandler (fun _ => hended (deleteGeneration _ s.db) rfl fun a => ?_) hn hr
    unfold deleteGeneration
    split
    · exact .inr ⟨rfl, rfl⟩
    · exact .inl rfl
  | fails ht => exact hkeep (by rw [ht.db])
  | expire =>
    refine hended (expireGeneration s.world.stream.now) rfl fun a => ?_
    unfold expireGeneration
    split
    · exact .inr ⟨rfl, rfl⟩
    · exact .inl rfl
  | execution ha hw => exact hkeep (assemblies_of_step ha hw)
  | outside _ ha => exact hkeep ha

/-- A generation has a number from 1 on, every number up to it is that of one generation of
its conversation and route, one of them at most is in progress, and that is the last. -/
theorem one_generation_active {db : Database} (h : Reach (step settings) always (initial db) s) {id : Uuid} {a : RouteSignalAssembly}
    (ha : s.db.assemblies.get? id = some a) :
    0 < a.generation ∧
    (∀ id' a', s.db.assemblies.get? id' = some a' → a'.Alongside a →
      (a.state.isActive → a'.generation ≤ a.generation ∧ (a'.state.isActive → id' = id))) ∧
    ∀ n, 0 < n → n ≤ a.generation → ∃ id₀, (∃ a₀, s.db.assemblies.get? id₀ = some a₀ ∧ a₀.Alongside a ∧ a₀.generation = n) ∧
      ∀ id₁ a₁, s.db.assemblies.get? id₁ = some a₁ → a₁.Alongside a → a₁.generation = n → id₁ = id₀ := by
  have hn : Numbered s.db := by
    refine h.invariant (P := fun s => Numbered s.db) ?_ fun _ _ _ hn _ hs => numbered_of_step (step_cases hs) hn
    refine ⟨fun id a ha => ?_, fun id id' a a' ha => ?_, fun id a ha => ?_, fun id id' a a' ha => ?_⟩ <;> cases ha
  refine ⟨hn.positive id a ha, fun id' a' ha' hal hact => ?_, fun n hpos hle => ?_⟩
  · have hle := hn.latest id' id a' a ha' ha hal hact
    refine ⟨hle, fun hact' => hn.unique id' id a' a ha' ha hal ?_⟩
    exact le_antisymm hle (hn.latest id id' a a' ha ha' ⟨hal.1.symm, hal.2.symm⟩ hact')
  · -- down from the generation, one number at a time
    obtain ⟨k, hk⟩ := Nat.exists_eq_add_of_le hle
    have hfound : ∃ id₀ a₀, s.db.assemblies.get? id₀ = some a₀ ∧ a₀.Alongside a ∧ a₀.generation = n := by
      induction k generalizing n with
      | zero => exact ⟨id, a, ha, ⟨rfl, rfl⟩, by omega⟩
      | succ k ih =>
        obtain ⟨id₀, a₀, ha₀, hal, hgen⟩ := ih (n + 1) (Nat.succ_pos n) (by omega) (by omega)
        obtain ⟨id₁, a₁, ha₁, hal₁, hgen₁⟩ := hn.gapless id₀ a₀ ha₀ (by omega)
        exact ⟨id₁, a₁, ha₁, ⟨hal₁.1.trans hal.1, hal₁.2.trans hal.2⟩, by omega⟩
    obtain ⟨id₀, a₀, ha₀, hal, hgen⟩ := hfound
    refine ⟨id₀, ⟨a₀, ha₀, hal, hgen⟩, fun id₁ a₁ ha₁ hal₁ hgen₁ => ?_⟩
    exact hn.unique id₁ id₀ a₁ a₀ ha₁ ha₀ ⟨hal₁.1.trans hal.1.symm, hal₁.2.trans hal.2.symm⟩ (hgen₁.trans hgen.symm)

/-- The first message waits for a take profit and is deleted, the second one opens. -/
def goldRestarted : List CopyLabel :=
  goldReceived { buyGold with takeProfits := [] } ++
    [ .execution (.stream (.tick (seconds 10))),
      .message (goldEnv 1 (seconds 111) buyGold)
        { goldMessage with eventType := .deleted, correlationId := 16, text := "", occurredAt := seconds 110 },
      .execution (.stream (.tick (seconds 10))),
      .message (goldEnv 2 (seconds 121) buyGold)
        { goldMessage with messageId := 12, correlationId := 17, occurredAt := seconds 120 } ]

omit [Unicode] in
/-- `one_generation_active`, for the second generation of a conversation. -/
theorem one_generation_active_goldRestarted :
    let _ := Unicode.ascii
    ∃ s a, Reach (step {}) always (initial World.goldAccount) s ∧ s.db.assemblies.get? (.assembly 2 4) = some a ∧
      a.generation = 2 ∧ 0 < a.generation ∧
      (∀ id' a', s.db.assemblies.get? id' = some a' → a'.Alongside a → a'.state.isActive → id' = .assembly 2 4) ∧
      ∃ id₀ a₀, s.db.assemblies.get? id₀ = some a₀ ∧ a₀.Alongside a ∧ a₀.generation = 1 := by
  intro _
  have hrun : (run (step {}) (initial World.goldAccount) goldRestarted).bind (fun s =>
      (s.db.assemblies.get? (.assembly 2 4)).map fun a => decide (a.generation = 2 ∧ a.state.isActive)) = some true := by decide +kernel
  obtain ⟨s, hs, hr⟩ := Option.bind_eq_some_iff.mp hrun
  obtain ⟨a, ha, hd⟩ := Option.map_eq_some_iff.mp hr
  obtain ⟨htwo, hact⟩ := of_decide_eq_true hd
  obtain ⟨hpos, hlast, hnumbers⟩ := one_generation_active (.of_run hs) ha
  obtain ⟨id₀, ⟨a₀, hfirst⟩, -⟩ := hnumbers 1 Nat.one_pos (htwo ▸ by decide)
  exact ⟨s, a, .of_run hs, ha, htwo, hpos, fun id' a' ha' hal => (hlast id' a' ha' hal hact).2, id₀, a₀, hfirst⟩

end CopyState

end SignalSync
