import SignalSync.Library.Fairness
import SignalSync.Stream.Runtime

/-!
# Every message is handled

An exception leaves a worker's main loop at three places: when the stale-claim loop
comes to an entry that does not decode, or writes a dead letter the database does not
take, and when a payload that is no object is asked for its ordering key. Where none
of these comes, and no publication trims an entry that is not acknowledged, the loops
go on, and under a fair schedule every entry is acknowledged: the first that is not is
read, then claimed again and again, and the claim that finds it delivered
`max_attempts` times ends with its acknowledgement.

* `healthy_step`: no main loop stops, and no entry is lost;
* `Accounted.step`: an entry is acknowledged with a completed run of its handler, or
  for an event of its idempotency key that was handled with success;
* `exists_main_step`: a worker comes round to its claim, and to its read;
* `exists_claim`: an idle entry is claimed;
* `exists_acked_of_claim`: the last claim ends in its acknowledgement;
* `poison_harmless`: both, from the start of a stream.
-/

namespace SignalSync

open Library

variable [Runtime]

/-- The fields of an event, with an object for its payload. -/
def Fields.IsEvent (fields : Fields) : Prop :=
  ∃ event payload, CopyEvent.fromFields fields = some event ∧ event.payload = .object payload

theorem Fields.IsEvent.orderingKey_isSome {fields : Fields} (h : fields.IsEvent) : (orderingKey fields).isSome := by
  obtain ⟨event, payload, he, hp⟩ := h
  simp [orderingKey, he, hp]

namespace GroupState

/-- Every entry is an event with an object for its payload, those that are trimmed have
been acknowledged, and the database takes the dead letters of the stale-claim loops. -/
def Harmless (s : GroupState) : GroupLabel → Prop
  | .publish fields trimmed =>
    fields.IsEvent ∧ ∀ i, s.first ≤ i → i < s.first + trimmed → s.status? i = some .acked
  | .main w _ =>
    match (s.workers w).main with
    | .process i (.result result) _ =>
      s.isFinal i result → ∀ event, s.event? i = some event → (persistDeadLetter s.now event).isSome
    | _ => True
  | _ => True

/-- The main loops run on, over entries that are all events, and none of them is lost. -/
structure Healthy (s : GroupState) : Prop where
  events : ∀ i fields, s.fields? i = some fields → fields.IsEvent
  running : ∀ w, (s.workers w).main.isStopped = false
  trimmed : ∀ i < s.first, s.status? i = some .acked

variable {s t : GroupState} {l : GroupLabel} {i w : Nat}

/-- An entry's fields were there before, or are published. -/
theorem fields?_back (h : Step s l t) {fields : Fields} (hf : t.fields? i = some fields) :
    s.fields? i = some fields ∨ ∃ trimmed, l = .publish fields trimmed := by
  cases h with
  | @publish fields' trimmed =>
    obtain ⟨e, he, rfl⟩ := Option.map_eq_some_iff.mp hf
    rw [List.getElem?_append] at he
    split at he
    · exact .inl (Option.map_eq_some_iff.mpr ⟨e, he, rfl⟩)
    · rw [List.getElem?_singleton] at he
      split at he
      · cases he
        exact .inr ⟨trimmed, rfl⟩
      · cases he
  | claim | read => exact .inl ((StreamGroup.fields?_deliver ..).symm.trans hf)
  | process | task => exact .inl (StreamGroup.fields?_processMessage.symm.trans hf)
  | choke | submit | tick => exact .inl hf

omit [Runtime] in
theorem isStopped_processing (batch : List Nat) : (Main.processing batch).isStopped = false := by cases batch <;> rfl

omit [Runtime] in
theorem isStopped_submitting (batch : List Nat) : (Main.submitting batch).isStopped = false := by cases batch <;> rfl

omit [Runtime] in
theorem fields?_of_entry {g : StreamGroup} {e : StreamEntry Fields} (he : g.entries[i]? = some e) : g.fields? i = some e.event := by
  rw [StreamGroup.fields?, he, Option.map_some]

/-- The stale-claim loop does not raise. -/
theorem outcome_of_harmless (hs : s.Healthy) {stage : Stage} {rest : List Nat} {result : DeliveryResult}
    (hl : s.Harmless (.main w result)) {e : StreamEntry Fields} (hm : (s.workers w).main = .process i stage rest)
    (he : s.entries[i]? = some e) : (s.processMessage i e.event result stage).2 ≠ .raises := by
  obtain ⟨event, payload, hev, -⟩ := hs.events i e.event (fields?_of_entry he)
  have h := processed_of_some s.toStreamGroup i result stage hev
  intro hr
  rw [hr] at h
  generalize (s.processMessage i e.event result stage).1 = g at h
  cases h with
  | unstorable hf hp =>
    simp only [Harmless, hm] at hl
    have := hl hf event (by rw [StreamGroup.event?, fields?_of_entry he]; exact hev)
    rw [hp] at this
    cases this

omit [Runtime] in
/-- Only a pending entry is dropped. -/
theorem Drops.pending {status : EntryStatus} (h : Drops s t i) (hs : s.status? i = some status) :
    ∃ n deliveredAt, status = .pending n deliveredAt := by
  obtain ⟨-, ⟨n, deliveredAt, hp⟩, -⟩ := h
  exact ⟨n, deliveredAt, Option.some.inj (hs.symm.trans hp)⟩

/-- Every trimmed entry is acknowledged, so that none is dropped. -/
theorem Healthy.not_drops (hs : s.Healthy) : ¬ Drops s t i := fun h => by
  obtain ⟨n, deliveredAt, he⟩ := h.pending (hs.trimmed i (of_decide_eq_true h.1))
  cases he

/-- What is acknowledged stays so. -/
theorem acked_of_step (h : Step s l t) (hs : s.status? i = some .acked) : t.status? i = some .acked := by
  rcases status?_of_step h hs with h | h | ⟨h, -⟩ | ⟨_, ⟨_, _, _, _, _, _, h⟩, _⟩ | hd
  · exact h
  · exact h
  · cases h
  · cases hs.symm.trans h
  · obtain ⟨_, _, he⟩ := hd.pending hs
    cases he

/-- Only a publication trims the stream. -/
theorem first_of_step (h : Step s l t) :
    t.first = s.first ∨ ∃ fields trimmed, l = .publish fields trimmed ∧ t.first = s.first + trimmed := by
  have hp {g : StreamGroup} {i : Nat} {fields : Fields} {result : DeliveryResult} {stage : Stage} :
      (g.processMessage i fields result stage).1.first = g.first := by
    cases he : CopyEvent.fromFields fields with
    | none => rw [processMessage_of_none he]
    | some event =>
      have h := processed_of_some g i result stage he
      generalize g.processMessage i fields result stage = p at h
      obtain ⟨g', o⟩ := p
      cases h <;> rfl
  cases h with
  | publish fields => exact .inr ⟨fields, _, rfl, rfl⟩
  | process | task => exact .inl hp
  | _ => exact .inl rfl

/-- The entries that a harmless step leaves trimmed are acknowledged. -/
theorem Healthy.trimmed_of_step (hs : s.Healthy) (h : Step s l t) (hl : s.Harmless l) (hi : i < t.first) :
    t.status? i = some .acked := by
  refine acked_of_step h ?_
  by_cases hlt : i < s.first
  · exact hs.trimmed i hlt
  · rcases first_of_step h with hfirst | ⟨fields, trimmed, rfl, hfirst⟩
    · exact absurd (hfirst ▸ hi) hlt
    · exact hl.2 i (Nat.not_lt.mp hlt) (hfirst ▸ hi)

/-- No main loop stops, and no entry is lost. -/
theorem healthy_step (h : Step s l t) (hs : s.Healthy) (hl : s.Harmless l) : t.Healthy := by
  refine ⟨fun i fields hf => ?_, fun v => ?_, fun i => hs.trimmed_of_step h hl⟩
  · rcases fields?_back h hf with hf | ⟨trimmed, rfl⟩
    · exact hs.events i fields hf
    · exact hl.1
  · cases h with
    | publish | tick => exact hs.running v
    | @claim w result hm =>
      change ((s.setMain w _).workers v).main.isStopped = false
      rw [workers_setMain]
      split
      · exact isStopped_processing _
      · exact hs.running v
    | @read w result hm =>
      change ((s.setMain w _).workers v).main.isStopped = false
      rw [workers_setMain]
      split
      · exact isStopped_submitting _
      · exact hs.running v
    | @process w i stage rest result e hm he =>
      change ((s.setMain w _).workers v).main.isStopped = false
      rw [workers_setMain]
      split
      · have ho := outcome_of_harmless hs hl hm he
        generalize (s.processMessage i e.event result stage).2 = o at ho
        cases o with
        | goes => rfl
        | returns => exact isStopped_processing _
        | raises => exact absurd rfl ho
      · exact hs.running v
    | @choke w i rest result e hm he hk =>
      have := (hs.events i e.event (fields?_of_entry he)).orderingKey_isSome
      rw [hk] at this
      cases this
    | @submit w i rest result e key hm he hk =>
      rw [workers_setWorker]
      split
      · exact isStopped_submitting _
      · exact hs.running v
    | @task w j task result e hj hh he =>
      change ((s.setWorker w _).workers v).main.isStopped = false
      rw [workers_setWorker]
      split
      · rename_i hv
        subst hv
        have hmain (o : Outcome) : ((s.workers v).afterTask j task o).main = (s.workers v).main := by cases o <;> rfl
        rw [hmain]
        exact hs.running v
      · exact hs.running v

/-! ## The main loop's rounds -/

end GroupState

/-- Stages of `_process_message` that are to come. -/
def Stage.left : Stage → Nat
  | .start => 3
  | .handling => 2
  | .result _ => 1
  | .acknowledge => 0

namespace Main

/-- A step of a main loop that does not stop. -/
inductive Next : Main → Main → Prop
  | claim {batch : List Nat} (h : batch.length ≤ 10) : Next .claim (processing batch)
  | goes {i : Nat} {stage stage' : Stage} {rest : List Nat} (h : stage'.left < stage.left) :
      Next (.process i stage rest) (.process i stage' rest)
  | returns {i : Nat} {stage : Stage} {rest : List Nat} : Next (.process i stage rest) (processing rest)
  | read {batch : List Nat} (h : batch.length ≤ 10) : Next .read (submitting batch)
  | submit {i : Nat} {rest : List Nat} : Next (.submit i rest) (submitting rest)

/-- Steps to the next claim, at most. -/
def toClaim : Main → Nat
  | .claim | .stopped _ => 0
  | .submit _ rest => 1 + rest.length
  | .read => 11
  | .process _ stage rest => 12 + stage.left + 4 * rest.length

/-- Steps to the next read, at most. -/
def toRead : Main → Nat
  | .read | .stopped _ => 0
  | .process _ stage rest => 1 + stage.left + 4 * rest.length
  | .claim => 41
  | .submit _ rest => 42 + rest.length

variable {m m' : Main}

omit [Runtime] in
theorem Next.toClaim_lt (h : Next m m') : m = .claim ∨ m'.toClaim < m.toClaim := by
  cases h with
  | claim => exact .inl rfl
  | goes h => right; simp only [toClaim]; omega
  | @returns i stage rest => right; cases rest <;> simp only [processing, toClaim, Stage.left, List.length_cons, List.length_nil] <;> omega
  | @read batch h => right; cases batch <;> simp only [submitting, toClaim, List.length_cons] at * <;> omega
  | @submit i rest => right; cases rest <;> simp only [submitting, toClaim, List.length_cons, List.length_nil] <;> omega

omit [Runtime] in
theorem Next.toRead_lt (h : Next m m') : m = .read ∨ m'.toRead < m.toRead := by
  cases h with
  | read => exact .inl rfl
  | goes h => right; simp only [toRead]; omega
  | @returns i stage rest => right; cases rest <;> simp only [processing, toRead, Stage.left, List.length_cons, List.length_nil] <;> omega
  | @claim batch h => right; cases batch <;> simp only [processing, toRead, Stage.left, List.length_cons] at * <;> omega
  | @submit i rest => right; cases rest <;> simp only [submitting, toRead, List.length_cons, List.length_nil] <;> omega

end Main

namespace GroupState

variable {s t : GroupState} {l : GroupLabel} {i w : Nat}

theorem left_lt_of_goes {g : StreamGroup} {fields : Fields} {result : DeliveryResult} {stage stage' : Stage}
    (h : (g.processMessage i fields result stage).2 = .goes stage') : stage'.left < stage.left := by
  cases he : CopyEvent.fromFields fields with
  | none => rw [processMessage_of_none he] at h; cases h
  | some event =>
    have hp := processed_of_some g i result stage he
    generalize g.processMessage i fields result stage = p at h hp
    obtain ⟨g', o⟩ := p
    cases h
    cases hp <;> simp [Stage.left]

/-- A main loop moves by its own steps. -/
theorem main_of_step (h : Step s l t) (ht : (t.workers w).main.isStopped = false) :
    (t.workers w).main = (s.workers w).main ∧ (∀ result, l ≠ .main w result) ∨
      (∃ result, l = .main w result) ∧ Main.Next (s.workers w).main (t.workers w).main := by
  have hother {v : Nat} {x : Worker} (hv : w ≠ v) : (s.setWorker v x).workers w = s.workers w := by
    rw [workers_setWorker, if_neg hv]
  have hself {x : Worker} : (s.setWorker w x).workers w = x := by rw [workers_setWorker, if_pos rfl]
  have hne {v : Nat} {result : DeliveryResult} (hv : w ≠ v) (result' : DeliveryResult) :
      GroupLabel.main v result ≠ .main w result' := fun heq => hv (by cases heq; rfl)
  have hten (q : List Nat) : (q.take 10).length ≤ 10 := List.length_take_le ..
  cases h with
  | publish | tick => exact .inl ⟨rfl, fun _ => GroupLabel.noConfusion⟩
  | @claim v result hm =>
    by_cases hv : w = v
    · subst hv
      refine .inr ⟨⟨result, rfl⟩, ?_⟩
      change Main.Next _ ((s.setWorker w _).workers w).main
      rw [hself, hm]
      exact .claim (Nat.le_trans (List.length_filter_le ..) (hten _))
    · exact .inl ⟨congrArg Worker.main (hother hv), hne hv⟩
  | @read v result hm =>
    by_cases hv : w = v
    · subst hv
      refine .inr ⟨⟨result, rfl⟩, ?_⟩
      change Main.Next _ ((s.setWorker w _).workers w).main
      rw [hself, hm]
      exact .read (hten _)
    · exact .inl ⟨congrArg Worker.main (hother hv), hne hv⟩
  | @process v i stage rest result e hm he =>
    by_cases hv : w = v
    · subst hv
      refine .inr ⟨⟨result, rfl⟩, ?_⟩
      change ((s.setWorker w _).workers w).main.isStopped = false at ht
      change Main.Next _ ((s.setWorker w _).workers w).main
      rw [hself] at ht ⊢
      rw [hm]
      cases ho : (s.processMessage i e.event result stage).2 with
      | goes stage' => exact .goes (left_lt_of_goes ho)
      | returns => exact .returns
      | raises => rw [ho] at ht; cases ht
    · exact .inl ⟨congrArg Worker.main (hother hv), hne hv⟩
  | @choke v i rest result e hm he hk =>
    by_cases hv : w = v
    · subst hv
      rw [setMain, hself] at ht
      cases ht
    · exact .inl ⟨congrArg Worker.main (hother hv), hne hv⟩
  | @submit v i rest result e key hm he hk =>
    by_cases hv : w = v
    · subst hv
      refine .inr ⟨⟨result, rfl⟩, ?_⟩
      rw [hself, hm]
      exact .submit
    · exact .inl ⟨congrArg Worker.main (hother hv), hne hv⟩
  | @task v j task result e hj hh he =>
    refine .inl ⟨?_, fun _ => GroupLabel.noConfusion⟩
    change ((s.setWorker v _).workers w).main = _
    by_cases hv : w = v
    · subst hv
      rw [hself]
      cases (s.processMessage task.entry e.event result task.stage).2 <;> rfl
    · rw [hother hv]

/-! ## Fair executions -/

/-- Some worker runs, a main loop that has stepped and has not stopped steps again, and
time goes on. -/
structure Fair (x : Execution step Harmless) : Prop where
  begins : ∃ n w result, x.label n = .main w result
  loops : ∀ n w result, x.label n = .main w result → ((x.state (n + 1)).workers w).main.isStopped = false →
    ∃ k, n < k ∧ ∃ result, x.label k = .main w result
  time : ∀ T, ∃ n, T ≤ (x.state n).now

/-- A step of the main loop of `w`. -/
def IsMain (w : Nat) (l : GroupLabel) : Prop := ∃ result, l = .main w result

variable {x : Execution step Harmless} {n : Nat}

theorem healthy (h₀ : (x.state 0).Healthy) : (x.state n).Healthy :=
  x.holds_of_le (fun _ _ _ hJ hok hs => healthy_step (step_cases hs) hJ hok) h₀ (Nat.zero_le n)

/-- A worker that has stepped steps again and again. -/
theorem Fair.often (hf : Fair x) (h₀ : (x.state 0).Healthy) (hn : IsMain w (x.label n)) : x.Often (IsMain w) := by
  intro m
  induction m with
  | zero => exact ⟨n, Nat.zero_le n, hn⟩
  | succ m ih =>
    obtain ⟨k, hk, result, hl⟩ := ih
    obtain ⟨j, hj, hl⟩ := hf.loops k w result hl ((healthy h₀).running w)
    exact ⟨j, by omega, hl⟩

/-- A worker comes round to every point of its loop that is so many steps away. -/
theorem exists_main_step {target : Main} {rank : Main → Nat} (h₀ : (x.state 0).Healthy) (ho : x.Often (IsMain w))
    (hrank : ∀ m m', Main.Next m m' → m = target ∨ rank m' < rank m) (n : Nat) :
    ∃ k, n ≤ k ∧ IsMain w (x.label k) ∧ ((x.state k).workers w).main = target := by
  have hmain {s t : GroupState} {l : GroupLabel} (hJ : s.Healthy) (hok : s.Harmless l) (hs : s.step l = some t) :=
    main_of_step (w := w) (step_cases hs) ((healthy_step (step_cases hs) hJ hok).running w)
  -- the target is reached, and left alone until the worker's next step
  obtain ⟨k, hk, ht⟩ : ∃ k, n ≤ k ∧ ((x.state k).workers w).main = target := by
    by_cases ht : ((x.state n).workers w).main = target
    · exact ⟨n, Nat.le_refl n, ht⟩
    · refine x.exists_of_rank (J := fun s => s.Healthy ∧ (s.workers w).main ≠ target)
        (P := fun s => (s.workers w).main = target) (fun s => rank (s.workers w).main) ho (fun s l t hJ hok hs => ?_) ⟨healthy h₀, ht⟩
      by_cases htt : (t.workers w).main = target
      · exact .inl htt
      · refine .inr ⟨⟨healthy_step (step_cases hs) hJ.1 hok, htt⟩, ?_⟩
        rcases hmain hJ.1 hok hs with ⟨hm, hl⟩ | ⟨-, hm⟩
        · exact ⟨by rw [hm], fun ⟨result, hown⟩ => absurd hown (hl result)⟩
        · have hlt := (hrank _ _ hm).resolve_left hJ.2
          exact ⟨Nat.le_of_lt hlt, fun _ => hlt⟩
  obtain ⟨j, hj, hown, -, hm⟩ := x.exists_own (J := fun s => s.Healthy ∧ (s.workers w).main = target) ho
    (fun s l t hJ hok hs hown => ⟨healthy_step (step_cases hs) hJ.1 hok, by
      rcases hmain hJ.1 hok hs with ⟨hm, -⟩ | ⟨hl, -⟩
      · exact hm.trans hJ.2
      · exact absurd hl hown⟩) ⟨healthy h₀, ht⟩
  exact ⟨j, by omega, hown, hm⟩

/-! ## An entry's way -/

omit [Runtime] in
/-- The first entry of a kind heads the list of them. -/
theorem filter_range_eq_cons {p : Nat → Bool} (hi : i < n) (hp : p i) (hlt : ∀ j < i, p j = false) :
    ∃ rest, (List.range n).filter p = i :: rest := by
  obtain ⟨d, rfl⟩ := Nat.exists_eq_add_of_lt hi
  have hbelow : (List.range i).filter p = [] :=
    List.filter_eq_nil_iff.mpr fun j hj => by simp [hlt j (List.mem_range.mp hj)]
  refine ⟨((List.range d).map fun k => i + (k + 1)).filter p, ?_⟩
  rw [show i + d + 1 = i + (d + 1) by omega, List.range_add, List.filter_append, hbelow, List.nil_append,
    List.range_succ_eq_map, List.map_cons, Nat.add_zero, List.filter_cons_of_pos hp, List.map_map]
  rfl

omit [Runtime] in
theorem mem_unread (ht : s.isTrimmed i = false) (hn : s.status? i = some .new)
    (hlt : ∀ j < i, s.status? j = some .acked) : i ∈ s.unread := by
  have hi : i < s.entries.length := by
    obtain ⟨e, he, -⟩ := Option.map_eq_some_iff.mp hn
    exact (List.getElem?_eq_some_iff.mp he).1
  obtain ⟨rest, hrest⟩ := filter_range_eq_cons hi (p := fun i => !s.isTrimmed i && s.isNew i)
    (by simp [StreamGroup.isNew, hn, ht]) fun j hj => by simp [StreamGroup.isNew, hlt j hj]
  rw [StreamGroup.unread, hrest]
  exact List.mem_cons_self

omit [Runtime] in
theorem mem_claimable {attempts : Nat} {deliveredAt : Time} (ht : s.isTrimmed i = false)
    (hp : s.status? i = some (.pending attempts deliveredAt)) (hidle : deliveredAt + s.retryIdle ≤ s.now)
    (hlt : ∀ j < i, s.status? j = some .acked) : i ∈ s.claimable := by
  have hi : i < s.entries.length := by
    obtain ⟨e, he, -⟩ := Option.map_eq_some_iff.mp hp
    exact (List.getElem?_eq_some_iff.mp he).1
  obtain ⟨rest, hrest⟩ := filter_range_eq_cons hi (p := s.isPending) (by simp [StreamGroup.isPending, hp])
    fun j hj => by simp [StreamGroup.isPending, hlt j hj]
  have hii : s.isIdle i := by simp [StreamGroup.isIdle, hp, hidle]
  refine List.mem_filter.mpr ⟨?_, by rw [ht]; rfl⟩
  rw [StreamGroup.scanned, hrest, List.take_succ_cons, List.filter_cons_of_pos (by rw [hii, Bool.or_true])]
  exact List.mem_cons_self

omit [Runtime] in
/-- An entry that is not acknowledged is not trimmed. -/
theorem Healthy.isTrimmed_eq_false [Runtime] (hs : s.Healthy) {status : EntryStatus} (hi : s.status? i = some status)
    (hne : status ≠ .acked) : s.isTrimmed i = false :=
  decide_eq_false fun hlt => hne (Option.some.inj (hi.symm.trans (hs.trimmed i hlt)))

theorem acked_of_le {m : Nat} (h : (x.state m).status? i = some .acked) (hmn : m ≤ n) : (x.state n).status? i = some .acked :=
  x.holds_of_le (J := fun s => s.status? i = some .acked) (fun _ _ _ hs _ hstep => acked_of_step (step_cases hstep) hs) h hmn

/-- The settings do not change, and time does not go back. -/
theorem settings_of_step (h : Step s l t) : t.maxAttempts = s.maxAttempts ∧ t.retryIdle = s.retryIdle ∧ s.now ≤ t.now := by
  have hp {g : StreamGroup} {i : Nat} {fields : Fields} {result : DeliveryResult} {stage : Stage} :
      (g.processMessage i fields result stage).1.maxAttempts = g.maxAttempts ∧
        (g.processMessage i fields result stage).1.retryIdle = g.retryIdle ∧
        g.now ≤ (g.processMessage i fields result stage).1.now := by
    cases he : CopyEvent.fromFields fields with
    | none => rw [processMessage_of_none he]; exact ⟨rfl, rfl, Nat.le_refl _⟩
    | some event =>
      have h := processed_of_some g i result stage he
      generalize g.processMessage i fields result stage = p at h
      obtain ⟨g', o⟩ := p
      cases h <;> exact ⟨rfl, rfl, Nat.le_refl _⟩
  cases h with
  | tick duration => exact ⟨rfl, rfl, Nat.le_add_right ..⟩
  | process | task => exact hp
  | _ => exact ⟨rfl, rfl, Nat.le_refl _⟩

/-- Every earlier entry is acknowledged. -/
def FirstLeft (s : GroupState) (i : Nat) : Prop := ∀ j < i, s.status? j = some .acked

theorem firstLeft_of_le {m : Nat} (h : (x.state m).FirstLeft i) (hmn : m ≤ n) : (x.state n).FirstLeft i :=
  fun j hj => acked_of_le (h j hj) hmn

omit [Runtime] in
theorem lt_of_status? {g : StreamGroup} : i < g.entries.length ↔ ∃ status, g.status? i = some status := by
  rw [← Option.isSome_iff_exists]
  simp [StreamGroup.status?]

/-- A published entry is there from then on. -/
theorem lt_of_le {m : Nat} (h : i < (x.state m).entries.length) (hmn : m ≤ n) : i < (x.state n).entries.length :=
  x.holds_of_le (J := fun s => i < s.entries.length) (fun s l t hJ _ hstep => by
    obtain ⟨status, hs⟩ := lt_of_status?.1 hJ
    rcases status?_of_step (step_cases hstep) hs with h | h | ⟨-, h⟩ | ⟨_, -, h⟩ | ⟨-, -, h⟩ <;>
      exact lt_of_status?.2 ⟨_, h⟩) h hmn

/-- The first entry left is delivered. -/
theorem exists_delivered (hf : Fair x) (h₀ : (x.state 0).Healthy) (hi : i < (x.state n).entries.length)
    (hfirst : (x.state n).FirstLeft i) : ∃ k, n ≤ k ∧ ∃ status, (x.state k).status? i = some status ∧ status ≠ .new := by
  obtain ⟨m, w, result, hm⟩ := hf.begins
  obtain ⟨k, hk, ⟨result, hl⟩, hr⟩ :=
    exists_main_step h₀ (hf.often h₀ ⟨result, hm⟩) (fun _ _ => Main.Next.toRead_lt) n
  obtain ⟨status, hs⟩ := lt_of_status?.1 (lt_of_le hi hk)
  by_cases hnew : status = .new
  · subst hnew
    have hstep := step_cases (x.next k)
    rw [hl] at hstep
    have hunread := mem_unread ((healthy h₀).isTrimmed_eq_false hs nofun) hs (firstLeft_of_le hfirst hk)
    refine ⟨k + 1, by omega, ?_⟩
    generalize x.state (k + 1) = t at hstep
    cases hstep with
    | read =>
      refine ⟨.pending 1 (x.state k).now, ?_, nofun⟩
      change ((x.state k).deliver (x.state k).unread).status? i = _
      rw [status?_deliver_of_mem hunread, hs]; rfl
    | claim h | process h | choke h | submit h => cases h.symm.trans hr
  · exact ⟨k, hk, status, hs, hnew⟩

/-- What a claim leaves. -/
theorem Claims.next {attempts : Nat} (hc : s.Claims l i attempts) (h : Step s l t) :
    t.status? i = some (.pending (attempts + 1) s.now) ∧
      ∃ w, IsMain w l ∧ (t.workers w).main = .processing s.claimable ∧ i ∈ s.claimable := by
  obtain ⟨w, result, deliveredAt, rfl, hm, hmem, hs⟩ := hc
  cases h with
  | claim =>
    refine ⟨?_, w, ⟨result, rfl⟩, ?_, hmem⟩
    · change (s.deliver s.claimable s.gone).status? i = _
      rw [status?_deliver_of_mem hmem, hs]; rfl
    · change ((s.setMain w _).workers w).main = _
      rw [workers_setMain, if_pos rfl]
  | read h | process h | choke h | submit h => cases h.symm.trans hm

/-- Until it is claimed or acknowledged, a pending entry stays as it is. -/
theorem pending_of_le (h₀ : (x.state 0).Healthy) {m attempts : Nat} {deliveredAt : Time}
    (hp : (x.state m).status? i = some (.pending attempts deliveredAt)) (hmn : m ≤ n) :
    (x.state n).status? i = some (.pending attempts deliveredAt) ∨
      ∃ k, m ≤ k ∧ ((x.state k).status? i = some .acked ∨ (x.state k).Claims (x.label k) i attempts) := by
  induction n, hmn using Nat.le_induction with
  | base => exact .inl hp
  | succ n hmn ih =>
    rcases ih with hn | h
    · rcases status?_of_step (step_cases (x.next n)) hn with h | h | ⟨h, -⟩ | ⟨attempts', hc, -⟩ | hd
      · exact .inl h
      · exact .inr ⟨n + 1, by omega, .inl h⟩
      · cases h
      · have hsame : attempts' = attempts := by
          obtain ⟨_, _, _, -, -, -, hs⟩ := hc
          cases hn.symm.trans hs
          rfl
        exact .inr ⟨n, hmn, .inr (hsame ▸ hc)⟩
      · exact absurd hd (healthy h₀).not_drops
    · exact .inr h

/-- The first entry left, once delivered, is claimed or acknowledged. -/
theorem exists_claim (hf : Fair x) (h₀ : (x.state 0).Healthy) (hfirst : (x.state n).FirstLeft i) {attempts : Nat}
    {deliveredAt : Time} (hp : (x.state n).status? i = some (.pending attempts deliveredAt)) :
    ∃ k, n ≤ k ∧ ((x.state k).status? i = some .acked ∨ (x.state k).Claims (x.label k) i attempts) := by
  obtain ⟨m, w, result, hm⟩ := hf.begins
  obtain ⟨T, hT⟩ := hf.time (deliveredAt + (x.state 0).retryIdle)
  obtain ⟨k, hk, ⟨result, hl⟩, hc⟩ :=
    exists_main_step h₀ (hf.often h₀ ⟨result, hm⟩) (fun _ _ => Main.Next.toClaim_lt) (max n T)
  have hidle : deliveredAt + (x.state k).retryIdle ≤ (x.state k).now := by
    have hretry : (x.state k).retryIdle = (x.state 0).retryIdle :=
      x.holds_of_le (J := fun s => s.retryIdle = (x.state 0).retryIdle)
        (fun _ _ _ hJ _ hs => (settings_of_step (step_cases hs)).2.1.trans hJ) rfl (Nat.zero_le k)
    have hnow : deliveredAt + (x.state 0).retryIdle ≤ (x.state k).now :=
      x.holds_of_le (J := fun s => deliveredAt + (x.state 0).retryIdle ≤ s.now)
        (fun _ _ _ hJ _ hs => Nat.le_trans hJ (settings_of_step (step_cases hs)).2.2) hT (by omega)
    rwa [hretry]
  rcases pending_of_le h₀ hp (show n ≤ k by omega) with hp | h
  · have ht := (healthy h₀).isTrimmed_eq_false hp nofun
    exact ⟨k, by omega, .inr ⟨w, result, deliveredAt, hl, hc, mem_claimable ht hp hidle (firstLeft_of_le hfirst (by omega)), hp⟩⟩
  · exact h

/-- It is claimed as often as need be, or acknowledged. -/
theorem exists_claim_ge (hf : Fair x) (h₀ : (x.state 0).Healthy) (hfirst : (x.state n).FirstLeft i) {attempts : Nat}
    {deliveredAt : Time} (hp : (x.state n).status? i = some (.pending attempts deliveredAt)) (d : Nat) :
    ∃ k, n ≤ k ∧ ((x.state k).status? i = some .acked ∨ ∃ attempts, d ≤ attempts ∧ (x.state k).Claims (x.label k) i attempts) := by
  induction d with
  | zero =>
    obtain ⟨k, hk, h⟩ := exists_claim hf h₀ hfirst hp
    exact ⟨k, hk, h.imp_right fun h => ⟨attempts, Nat.zero_le _, h⟩⟩
  | succ d ih =>
    obtain ⟨k, hk, h | ⟨attempts', hd, hc⟩⟩ := ih
    · exact ⟨k, hk, .inl h⟩
    · obtain ⟨j, hj, h⟩ :=
        exists_claim hf h₀ (firstLeft_of_le hfirst (by omega)) (hc.next (step_cases (x.next k))).1
      exact ⟨j, by omega, h.imp_right fun h => ⟨_, by omega, h⟩⟩

/-- Processing a message that has been delivered as often as is tried ends with its
acknowledgement. -/
theorem acked_of_returns {g : StreamGroup} {fields : Fields} {result : DeliveryResult} {stage : Stage} {attempts : Nat}
    {deliveredAt : Time} (hp : g.status? i = some (.pending attempts deliveredAt)) (ha : g.maxAttempts ≤ attempts)
    (ho : (g.processMessage i fields result stage).2 = .returns) :
    (g.processMessage i fields result stage).1.status? i = some .acked := by
  cases he : CopyEvent.fromFields fields with
  | none => rw [processMessage_of_none he] at ho; cases ho
  | some event =>
    have h := processed_of_some g i result stage he
    rw [ho] at h
    generalize (g.processMessage i fields result stage).1 = g' at h
    cases h with
    | retry hlt =>
      simp only [StreamGroup.pendingAttempts, hp] at hlt
      omega
    | acknowledge => rw [status?_ack, hp, Option.map_some, if_pos rfl]

/-- Worker `w` has claimed the entry, delivered as often as is tried, and has yet to
finish with it. -/
structure LastClaim (w i : Nat) (s : GroupState) : Prop where
  healthy : s.Healthy
  held : ∃ j stage rest, (s.workers w).main = .process j stage rest ∧ i ∈ j :: rest
  attempts : ∃ attempts deliveredAt, s.status? i = some (.pending attempts deliveredAt) ∧ s.maxAttempts ≤ attempts

omit [Runtime] in
theorem held_processing {batch : List Nat} (hi : i ∈ batch) :
    ∃ j stage rest, Main.processing batch = .process j stage rest ∧ i ∈ j :: rest := by
  cases batch with
  | nil => cases hi
  | cons j rest => exact ⟨j, .start, rest, rfl, hi⟩

/-- The loop of `w` goes on with the entry until it is acknowledged. -/
theorem LastClaim.step (hJ : s.LastClaim w i) (hok : s.Harmless l) (h : Step s l t) :
    t.status? i = some .acked ∨
      t.LastClaim w i ∧ (t.workers w).main.toRead ≤ (s.workers w).main.toRead ∧
        (IsMain w l → (t.workers w).main.toRead < (s.workers w).main.toRead) := by
  obtain ⟨hh, ⟨j, stage, rest, hm, hi⟩, attempts, deliveredAt, hp, ha⟩ := hJ
  have ht := healthy_step h hh hok
  have hmax : t.maxAttempts = s.maxAttempts := (settings_of_step h).1
  -- the deliveries are counted up
  have hcount : t.status? i = some .acked ∨
      ∃ attempts deliveredAt, t.status? i = some (.pending attempts deliveredAt) ∧ t.maxAttempts ≤ attempts := by
    rcases status?_of_step h hp with h | h | ⟨h, -⟩ | ⟨attempts', ⟨_, _, _, -, -, -, hs⟩, h⟩ | hd
    · exact .inr ⟨_, _, h, hmax ▸ ha⟩
    · exact .inl h
    · cases h
    · cases hp.symm.trans hs
      exact .inr ⟨_, _, h, by omega⟩
    · exact absurd hd hh.not_drops
  rcases hcount with hacked | hcount
  · exact .inl hacked
  rcases main_of_step h (ht.running w) with ⟨hmain, hl⟩ | ⟨⟨result, rfl⟩, hnext⟩
  · exact .inr ⟨⟨ht, ⟨j, stage, rest, hmain.trans hm, hi⟩, hcount⟩, by rw [hmain], fun ⟨result, hl'⟩ => absurd hl' (hl result)⟩
  · have hlt := hnext.toRead_lt.resolve_left (by rw [hm]; nofun)
    suffices hheld : t.status? i = some .acked ∨ ∃ j stage rest, (t.workers w).main = .process j stage rest ∧ i ∈ j :: rest by
      exact hheld.imp_right fun hheld => ⟨⟨ht, hheld, hcount⟩, Nat.le_of_lt hlt, fun _ => hlt⟩
    cases h with
    | @process _ j' stage' rest' _ e hm' he =>
      cases hm.symm.trans hm'
      have hmain : (({ s.setMain w (.after j rest (s.processMessage j e.event result stage).2) with
          toStreamGroup := (s.processMessage j e.event result stage).1 } : GroupState).workers w).main =
            .after j rest (s.processMessage j e.event result stage).2 := by
        change ((s.setMain w _).workers w).main = _
        rw [workers_setMain, if_pos rfl]
      rw [hmain]
      cases ho : (s.processMessage j e.event result stage).2 with
      | goes stage' => exact .inr ⟨j, stage', rest, rfl, hi⟩
      | returns =>
        by_cases hrest : i ∈ rest
        · exact .inr (held_processing hrest)
        · obtain rfl := (List.mem_cons.mp hi).resolve_right hrest
          exact .inl (acked_of_returns hp ha ho)
      | raises => exact absurd ho (outcome_of_harmless hh hok hm he)
    | claim h | read h | choke h | submit h => cases h.symm.trans hm

/-- The last claim ends in the entry's acknowledgement. -/
theorem exists_acked_of_claim (hf : Fair x) (h₀ : (x.state 0).Healthy) {attempts : Nat}
    (hc : (x.state n).Claims (x.label n) i attempts) (ha : (x.state n).maxAttempts ≤ attempts + 1) :
    ∃ k, n ≤ k ∧ (x.state k).status? i = some .acked := by
  obtain ⟨hp, w, hown, hm, hi⟩ := hc.next (step_cases (x.next n))
  have hlast : (x.state (n + 1)).LastClaim w i :=
    ⟨healthy h₀, hm ▸ held_processing hi, _, _, hp, (settings_of_step (step_cases (x.next n))).1 ▸ ha⟩
  obtain ⟨k, hk, h⟩ := x.exists_of_rank (J := LastClaim w i) (P := fun s => s.status? i = some .acked)
    (fun s => (s.workers w).main.toRead) (hf.often h₀ hown) (fun _ _ _ hJ hok hs => hJ.step hok (step_cases hs)) hlast
  exact ⟨k, by omega, h⟩

/-- Under a fair schedule every entry is acknowledged. -/
theorem exists_acked (hf : Fair x) (h₀ : (x.state 0).Healthy) (hi : i < (x.state n).entries.length) :
    ∃ k, n ≤ k ∧ (x.state k).status? i = some .acked := by
  induction i using Nat.strong_induction_on generalizing n with
  | _ i ih =>
    -- the earlier entries first
    have hbelow : ∀ j, j ≤ i → ∃ k, n ≤ k ∧ (x.state k).FirstLeft j := fun j => by
      induction j with
      | zero => exact fun _ => ⟨n, Nat.le_refl n, nofun⟩
      | succ j ihj =>
        intro hj
        obtain ⟨k, hk, hfirst⟩ := ihj (by omega)
        obtain ⟨k', hk', hacked⟩ := ih j (by omega) (lt_of_le (Nat.lt_trans hj hi) hk)
        refine ⟨k', by omega, fun j' hj' => ?_⟩
        rcases Nat.lt_succ_iff_lt_or_eq.mp hj' with hlt | rfl
        · exact acked_of_le (hfirst j' hlt) hk'
        · exact hacked
    obtain ⟨m, hm, hfirst⟩ := hbelow i (Nat.le_refl i)
    obtain ⟨k, hk, status, hs, hnew⟩ := exists_delivered hf h₀ (lt_of_le hi hm) hfirst
    cases status with
    | new => exact absurd rfl hnew
    | acked => exact ⟨k, by omega, hs⟩
    | pending attempts deliveredAt =>
      obtain ⟨c, hc, hacked | ⟨attempts', hd, hclaim⟩⟩ :=
        exists_claim_ge hf h₀ (firstLeft_of_le hfirst hk) hs (x.state 0).maxAttempts
      · exact ⟨c, by omega, hacked⟩
      · have hmax : (x.state c).maxAttempts = (x.state 0).maxAttempts :=
          x.holds_of_le (J := fun s => s.maxAttempts = (x.state 0).maxAttempts)
            (fun _ _ _ hJ _ hs => (settings_of_step (step_cases hs)).1.trans hJ) rfl (Nat.zero_le c)
        obtain ⟨d, hcd, hacked⟩ := exists_acked_of_claim hf h₀ hclaim (by omega)
        exact ⟨d, by omega, hacked⟩

end GroupState

/-! ## What an acknowledgement stands for -/

namespace StreamGroup

/-- A run of the entry's handler is completed, or one for an event of its idempotency
key has ended in success. -/
def Handled (g : StreamGroup) (i : Nat) : Prop :=
  (∃ result, (i, result) ∈ g.runs) ∨
    ∃ j event event', g.event? i = some event ∧ g.event? j = some event' ∧ event'.idempotencyKey = event.idempotencyKey ∧
      (j, .success) ∈ g.runs

/-- What the stage of a message stands for. -/
def Settled (g : StreamGroup) (m : Nat × Stage) : Prop :=
  match m.2 with
  | .result result => (m.1, result) ∈ g.runs
  | .acknowledge => g.Handled m.1
  | _ => True

/-- What the group has on record stands for runs of the handlers. -/
structure Accounted (g : StreamGroup) : Prop where
  keys : ∀ p ∈ g.processed, ∃ j event, g.event? j = some event ∧ event.idempotencyKey = p.key ∧ (j, .success) ∈ g.runs
  acked : ∀ i, g.status? i = some .acked → g.Handled i
  deadLetters : ∀ d ∈ g.deadLetters, ∃ result, (d.entry, result) ∈ g.runs ∧ result ≠ .success

/-- Runs are added, and events stay. -/
structure Extends (g g' : StreamGroup) : Prop where
  runs : ∀ run ∈ g.runs, run ∈ g'.runs
  events : ∀ i event, g.event? i = some event → g'.event? i = some event

variable {g g' : StreamGroup} {i : Nat}

theorem Handled.mono (h : g.Handled i) (he : Extends g g') : g'.Handled i := by
  rcases h with ⟨result, hr⟩ | ⟨j, event, event', hi, hj, hk, hr⟩
  · exact .inl ⟨result, he.runs _ hr⟩
  · exact .inr ⟨j, event, event', he.events _ _ hi, he.events _ _ hj, hk, he.runs _ hr⟩

theorem Settled.mono {m : Nat × Stage} (h : g.Settled m) (he : Extends g g') : g'.Settled m := by
  unfold Settled at *
  split
  · rename_i hs
    rw [hs] at h
    exact he.runs _ h
  · rename_i hs
    rw [hs] at h
    exact Handled.mono h he
  · trivial

/-- A group that extends another, with the same records, is accounted for. -/
theorem Accounted.mono (h : g.Accounted) (he : Extends g g') (hp : g'.processed = g.processed)
    (hd : g'.deadLetters = g.deadLetters) (ha : ∀ i, g'.status? i = some .acked → g.status? i = some .acked ∨ g'.Handled i) :
    g'.Accounted where
  keys p hp' := by
    obtain ⟨j, event, hj, hk, hr⟩ := h.keys p (hp ▸ hp')
    exact ⟨j, event, he.events _ _ hj, hk, he.runs _ hr⟩
  acked i hi := (ha i hi).elim (fun hi => (h.acked i hi).mono he) id
  deadLetters d hd' := by
    obtain ⟨result, hr, hne⟩ := h.deadLetters d (hd ▸ hd')
    exact ⟨result, he.runs _ hr, hne⟩

/-- What a stage of `_process_message` leaves. -/
theorem Accounted.processMessage (h : g.Accounted) {stage : Stage} (hs : g.Settled (i, stage)) {fields : Fields}
    (hf : g.fields? i = some fields) (result : DeliveryResult) :
    (g.processMessage i fields result stage).1.Accounted ∧ Extends g (g.processMessage i fields result stage).1 ∧
      ∀ m ∈ (g.processMessage i fields result stage).2.next i, (g.processMessage i fields result stage).1.Settled m := by
  cases hev : CopyEvent.fromFields fields with
  | none =>
    rw [processMessage_of_none hev]
    exact ⟨h, ⟨fun _ => id, fun _ _ => id⟩, nofun⟩
  | some event =>
    have hi : g.event? i = some event := by rw [event?, hf]; exact hev
    have hp := processed_of_some g i result stage hev
    generalize g.processMessage i fields result stage = p at hp
    obtain ⟨g', o⟩ := p
    have hself : Extends g g := ⟨fun _ => id, fun _ _ => id⟩
    cases hp with
    | duplicate hk =>
      refine ⟨h, hself, fun m hm => ?_⟩
      rw [List.mem_singleton.mp hm]
      obtain ⟨p, hp, hkey⟩ := List.any_eq_true.mp hk
      obtain ⟨j, event', hj, hk', hr⟩ := h.keys p hp
      exact .inr ⟨j, event, event', hi, hj, hk'.trans (of_decide_eq_true (Bool.and_eq_true _ _ ▸ hkey).1), hr⟩
    | handle =>
      refine ⟨h, hself, fun m hm => ?_⟩
      rw [List.mem_singleton.mp hm]
      trivial
    | complete =>
      have hext : Extends g { g with runs := g.runs ++ [(i, result)] } := ⟨fun _ => List.mem_append_left _, fun _ _ => id⟩
      refine ⟨h.mono hext rfl rfl fun _ => .inl, hext, fun m hm => ?_⟩
      rw [List.mem_singleton.mp hm]
      exact List.mem_append_right _ (List.mem_singleton_self _)
    | succeed =>
      refine ⟨⟨fun p hp => ?_, h.acked, h.deadLetters⟩, ⟨fun _ => id, fun _ _ => id⟩, fun m hm => ?_⟩
      · rcases List.mem_append.mp hp with hp | hp
        · exact h.keys p hp
        · rw [List.mem_singleton.mp hp]
          exact ⟨i, event, hi, rfl, hs⟩
      · rw [List.mem_singleton.mp hm]
        exact .inl ⟨_, hs⟩
    | retry => exact ⟨h, hself, nofun⟩
    | @deadLetter r userId hfin hper =>
      refine ⟨⟨h.keys, h.acked, fun d hd => ?_⟩, ⟨fun _ => id, fun _ _ => id⟩, fun m hm => ?_⟩
      · rcases List.mem_append.mp hd with hd | hd
        · exact h.deadLetters d hd
        · rw [List.mem_singleton.mp hd]
          exact ⟨r, hs, by rintro rfl; cases hfin⟩
      · rw [List.mem_singleton.mp hm]
        exact .inl ⟨r, hs⟩
    | unstorable => exact ⟨h, hself, nofun⟩
    | acknowledge =>
      have hext : Extends g (g.ack i) := ⟨fun _ => id, fun j event hj => by rw [event?, fields?_ack]; exact hj⟩
      refine ⟨h.mono hext rfl rfl fun j hj => ?_, hext, nofun⟩
      have hj : (g.ack i).status? j = some .acked := hj
      rw [GroupState.status?_ack] at hj
      obtain ⟨status, hj, hst⟩ := Option.map_eq_some_iff.mp hj
      split at hst
      · rename_i hij
        subst hij
        exact .inr (Handled.mono hs hext)
      · exact .inl (hst ▸ hj)

end StreamGroup

namespace GroupState

variable {s t : GroupState} {l : GroupLabel} {maxAttempts : Nat} {retryIdle : Time}

/-- The records, and the stages the workers are at, stand for runs. -/
structure Accounted (s : GroupState) : Prop where
  group : s.toStreamGroup.Accounted
  held : ∀ w, ∀ m ∈ (s.workers w).messages, s.Settled m

theorem extends_of_entries {g : StreamGroup} {entries : List (StreamEntry Fields)} {first : Nat} {now : Time}
    (h : ∀ (i : Nat) (e : StreamEntry Fields), g.entries[i]? = some e → ∃ e', entries[i]? = some e' ∧ e'.event = e.event) :
    StreamGroup.Extends g { g with entries, first, now } where
  runs _ := id
  events i event hi := by
    obtain ⟨fields, hf, hev⟩ := Option.bind_eq_some_iff.mp hi
    obtain ⟨e, he, rfl⟩ := Option.map_eq_some_iff.mp hf
    obtain ⟨e', he', hee⟩ := h i e he
    simp only [StreamGroup.event?, StreamGroup.fields?, he', Option.map_some, Option.bind_some, hee]
    exact hev

/-- What a step keeps. -/
theorem Accounted.step (hs : s.Accounted) (h : Step s l t) : t.Accounted := by
  cases moved_of_step h with
  | @publish fields trimmed =>
    have hext : StreamGroup.Extends s.toStreamGroup
        { s.toStreamGroup with entries := s.entries ++ [{ event := fields }], first := s.first + trimmed } :=
      extends_of_entries fun i e he => ⟨e, (List.getElem?_append_left (List.getElem?_eq_some_iff.mp he).1).trans he, rfl⟩
    refine ⟨hs.group.mono hext rfl rfl fun i hi => .inl ?_, fun w m hm => (hs.held w m hm).mono hext⟩
    obtain ⟨e, he, hacked⟩ := Option.map_eq_some_iff.mp hi
    rw [List.getElem?_append] at he
    split at he
    · exact Option.map_eq_some_iff.mpr ⟨e, he, hacked⟩
    · rw [List.getElem?_singleton] at he
      split at he <;> cases he
      cases hacked
  | tick duration =>
    have hext : StreamGroup.Extends s.toStreamGroup { s.toStreamGroup with now := s.now + duration } :=
      extends_of_entries fun i e he => ⟨e, he, rfl⟩
    exact ⟨hs.group.mono hext rfl rfl fun _ => .inl, fun w m hm => (hs.held w m hm).mono hext⟩
  | kept hg hm =>
    exact ⟨hg ▸ hs.group, fun w m hmem => hg ▸ hs.held w m ((hm w).mem_iff.mp hmem)⟩
  | @took l t w batch gone hg hb hm ho =>
    have hext : StreamGroup.Extends s.toStreamGroup (s.deliver batch gone) :=
      ⟨fun _ => id, fun i event hi => by rw [StreamGroup.event?, StreamGroup.fields?_deliver]; exact hi⟩
    refine ⟨hg ▸ hs.group.mono hext rfl rfl fun i hi => .inl ?_, fun v m hmem => hg ▸ ?_⟩
    · rw [status?_deliver] at hi
      obtain ⟨status, hi, hst⟩ := Option.map_eq_some_iff.mp hi
      split at hst
      · cases status <;> cases hst
      · split at hst
        · cases hst
        · exact hst ▸ hi
    · by_cases hv : v = w
      · subst hv
        rcases List.mem_append.mp (hm.mem_iff.mp hmem) with hmem | hmem
        · obtain ⟨i, -, rfl⟩ := List.mem_map.mp hmem
          trivial
        · exact (hs.held v m hmem).mono hext
      · exact (hs.held v m (ho v hv ▸ hmem)).mono hext
  | @went l t w i stage e result o others he hg hp hh hm ho =>
    obtain ⟨hacc, hext, hnext⟩ :=
      hs.group.processMessage (hs.held w (i, stage) (hh.mem_iff.mpr List.mem_cons_self)) (fields?_of_entry he) result
    refine ⟨hg ▸ hacc, fun v m hmem => hg ▸ ?_⟩
    by_cases hv : v = w
    · subst hv
      rcases List.mem_append.mp (hm.mem_iff.mp hmem) with hmem | hmem
      · exact hnext m (hp ▸ hmem)
      · exact (hs.held v m (hh.mem_iff.mpr (List.mem_cons_of_mem _ hmem))).mono hext
    · exact (hs.held v m (ho v hv ▸ hmem)).mono hext

theorem accounted_initial : ({ maxAttempts, retryIdle } : GroupState).Accounted :=
  ⟨⟨nofun, by simp [StreamGroup.status?], nofun⟩, fun _ _ hm => by cases hm⟩

theorem healthy_initial : ({ maxAttempts, retryIdle } : GroupState).Healthy :=
  ⟨by simp [StreamGroup.fields?], fun _ => rfl, nofun⟩

omit [Runtime] in
theorem valid_initial : ({ maxAttempts, retryIdle } : GroupState).Valid := fun _ _ hm => by cases hm

theorem running_of_reach (h : Reach step Harmless { maxAttempts, retryIdle } s) (w : Nat) :
    (s.workers w).main.isStopped = false :=
  (h.invariant (P := Healthy) healthy_initial fun _ _ _ hP hok hs => healthy_step (step_cases hs) hP hok).running w

theorem accounted {x : Execution step Harmless} (h₀ : x.state 0 = { maxAttempts, retryIdle }) (n : Nat) : (x.state n).Accounted :=
  x.holds_of_le (J := Accounted) (fun _ _ _ hJ _ hs => hJ.step (step_cases hs)) (h₀ ▸ accounted_initial) (Nat.zero_le n)

theorem exists_handled {x : Execution step Harmless} (h₀ : x.state 0 = { maxAttempts, retryIdle }) (hf : Fair x) {n i : Nat}
    (hi : i < (x.state n).entries.length) : ∃ k, n ≤ k ∧ (x.state k).status? i = some .acked ∧ (x.state k).Handled i := by
  obtain ⟨k, hk, hacked⟩ := exists_acked hf (h₀ ▸ healthy_initial) hi
  exact ⟨k, hk, hacked, (accounted h₀ k).group.acked i hacked⟩

/-! ## Messages and a worker -/

/-- Messages of a source, then by turns a second of time and a step of the main loop,
where a handler's run that ends comes to `result`. -/
def turns (keys : List String) (result : Nat → DeliveryResult) (n : Nat) : GroupLabel :=
  match keys[n]? with
  | some key => .publish (sourceMessage key)
  | none => if n % 2 = 1 then .main 0 (result n) else .tick (seconds 1)

section

variable {keys : List String} {result : Nat → DeliveryResult}

omit [Runtime] in
theorem turns_of_le {n : Nat} (h : keys.length ≤ n) :
    turns keys result n = if n % 2 = 1 then .main 0 (result n) else .tick (seconds 1) := by
  rw [turns, List.getElem?_eq_none h]

omit [Runtime] in
theorem of_turns_eq_main {n w : Nat} {r : DeliveryResult} (h : turns keys result n = .main w r) :
    keys.length ≤ n ∧ n % 2 = 1 ∧ w = 0 ∧ r = result n := by
  rcases Nat.lt_or_ge n keys.length with hlt | hle
  · rw [turns, List.getElem?_eq_getElem hlt] at h
    cases h
  · rw [turns_of_le hle] at h
    split at h
    · cases h
      exact ⟨hle, by assumption, rfl, rfl⟩
    · cases h

omit [Runtime] in
theorem exists_turns (keys : List String) (result : Nat → DeliveryResult) :
    let _ := Runtime.oneSource
    ∃ x : Execution step Harmless, x.state 0 = {} ∧ x.label = turns keys result ∧ Fair x := by
  intro _
  have hevent (key : String) : Fields.IsEvent (sourceMessage key) := ⟨_, _, rfl, rfl⟩
  obtain ⟨x, h₀, hl, hx⟩ : ∃ x : Execution step Harmless, x.state 0 = {} ∧ x.label = turns keys result ∧
      ∀ n, (x.state n).Healthy ∧ (x.state n).Valid ∧
        ∀ i fields, (x.state n).fields? i = some fields → ∃ key, fields = sourceMessage key := by
    refine Execution.exists_of_schedule (turns keys result)
      (J := fun s : GroupState =>
        s.Healthy ∧ s.Valid ∧ ∀ i fields, s.fields? i = some fields → ∃ key, fields = sourceMessage key)
      ⟨healthy_initial, valid_initial, by simp [StreamGroup.fields?]⟩ fun n s ⟨hs, hv, hfields⟩ => ?_
    -- the step is enabled and harmless, and the rest follows from both
    suffices h : (step s (turns keys result n)).isSome ∧ s.Harmless (turns keys result n) by
      obtain ⟨t, ht⟩ := Option.isSome_iff_exists.mp h.1
      refine ⟨t, ht, h.2, healthy_step (step_cases ht) hs h.2, valid_of_step (step_cases ht) hv, fun i fields hf => ?_⟩
      rcases fields?_back (step_cases ht) hf with hf | ⟨trimmed, hl⟩
      · exact hfields i fields hf
      · unfold turns at hl
        split at hl
        · cases hl
          exact ⟨_, rfl⟩
        · split at hl <;> cases hl
    unfold turns
    split
    · exact ⟨rfl, hevent _, fun i hle hlt => absurd hlt (Nat.not_lt.mpr hle)⟩
    · split
      · refine ⟨stepMain_isSome hv (hs.running 0) _, ?_⟩
        unfold Harmless
        simp only
        split
        · intro _ event he
          obtain ⟨fields, hf, hev⟩ := Option.bind_eq_some_iff.mp he
          obtain ⟨key, rfl⟩ := hfields _ _ hf
          cases hev
          rfl
        · trivial
      · exact ⟨rfl, trivial⟩
  refine ⟨x, h₀, hl, ⟨2 * keys.length + 1, 0, result (2 * keys.length + 1), ?_⟩, fun n w r hn _ => ?_, fun T => ?_⟩
  · rw [hl, turns_of_le (by omega), if_pos (by omega)]
  · obtain ⟨hle, hodd, rfl, -⟩ := of_turns_eq_main (hl ▸ hn)
    refine ⟨n + 2, by omega, result (n + 2), ?_⟩
    rw [hl, turns_of_le (by omega), if_pos (by omega)]
  · -- a second is over after every two steps
    have hnow : ∀ k, k ≤ (x.state (2 * (keys.length + k) + 1)).now := fun k => by
      induction k with
      | zero => exact Nat.zero_le _
      | succ k ih =>
        have h₁ := (settings_of_step (step_cases (x.next (2 * (keys.length + k) + 1)))).2.2
        have h₂ := x.next (2 * (keys.length + k) + 1 + 1)
        rw [hl, turns_of_le (by omega), if_neg (by omega)] at h₂
        have h₃ := congrArg (fun s : GroupState => s.now) (Option.some.inj h₂)
        change (x.state (2 * (keys.length + k) + 1 + 1)).now + seconds 1 = _ at h₃
        rw [show 2 * (keys.length + (k + 1)) + 1 = 2 * (keys.length + k) + 1 + 1 + 1 by omega, ← h₃]
        exact Nat.add_le_add (Nat.le_trans ih h₁) (by decide)
    exact ⟨2 * (keys.length + T) + 1, hnow T⟩

end

/-! ## Streams of events -/

/-- From the start of a stream of events whose dead letters are taken, and which is trimmed
of acknowledged entries only, no main loop stops, and under a fair schedule every entry is
acknowledged and handled. -/
theorem poison_harmless :
    (∀ s, Reach step Harmless { maxAttempts, retryIdle } s → ∀ w, (s.workers w).main.isStopped = false) ∧
    ∀ x : Execution step Harmless, x.state 0 = { maxAttempts, retryIdle } → Fair x →
      ∀ n i, i < (x.state n).entries.length →
        ∃ k, n ≤ k ∧ (x.state k).status? i = some .acked ∧ (x.state k).Handled i :=
  ⟨fun _ h => running_of_reach h, fun _ h₀ hf _ _ hi => exists_handled h₀ hf hi⟩

omit [Runtime] in
/-- The handler fails on the first of two messages, which becomes a dead letter, and
succeeds on the second; both are acknowledged and handled. -/
theorem poison_harmless_twoMessages :
    let _ := Runtime.oneSource
    ∃ x : Execution step Harmless, x.state 0 = {} ∧ Fair x ∧ (x.state 2).entries.length = 2 ∧
      (x.state 32).deadLetters.map (·.entry) = [0] ∧ (x.state 32).runs = [(0, .retry "VALUEERROR"), (1, .success)] ∧
      (∀ w, ((x.state 32).workers w).main.isStopped = false) ∧
      ∀ i < 2, ∃ k, 2 ≤ k ∧ (x.state k).status? i = some .acked ∧ (x.state k).Handled i := by
  intro _
  obtain ⟨x, h₀, hl, hf⟩ := exists_turns ["1", "2"] fun n => if n < 24 then .retry "VALUEERROR" else .success
  have hstate (n : Nat) := x.run_range n
  simp only [h₀, hl] at hstate
  have htwo : (x.state 2).entries.length = 2 := by
    rw [← Option.some.inj (hstate 2)]
    rfl
  have hrun : (run step {} ((List.range 32).map
      (turns ["1", "2"] fun n => if n < 24 then .retry "VALUEERROR" else .success))).map
      (fun s => (s.deadLetters.map (·.entry), s.runs)) = some ([0], [(0, .retry "VALUEERROR"), (1, .success)]) := by
    decide +kernel
  rw [hstate 32] at hrun
  obtain ⟨hdead, hruns⟩ := Prod.mk.inj (Option.some.inj hrun)
  exact ⟨x, h₀, hf, htwo, hdead, hruns, poison_harmless.1 _ (h₀ ▸ x.reach (Nat.zero_le 32)), fun i hi =>
    poison_harmless.2 x h₀ hf 2 i (Nat.lt_of_lt_of_eq hi htwo.symm)⟩

omit [Runtime] in
/-- An entry without its fields is passed over by the executor, and stops the worker
that claims it. -/
theorem undecodable_stops :
    let _ := Runtime.oneSource
    ∃ s, Reach step always {} s ∧ (s.workers 0).main.isStopped ∧ s.entries.length = 2 ∧ s.status? 1 = some .new := by
  intro _
  have hrun : (run step {}
      [.publish [("stream", "copy:telegram:messages")], .main 0 .success, .main 0 .success, .main 0 .success,
        .task 0 0 .success, .publish (sourceMessage "1"), .tick (seconds 5), .main 0 .success, .main 0 .success]).map
      (fun s => ((s.workers 0).main.isStopped, s.entries.length, s.status? 1)) = some (true, 2, some .new) := by
    decide +kernel
  obtain ⟨s, hs, h⟩ := Option.map_eq_some_iff.mp hrun
  obtain ⟨hstop, h⟩ := Prod.mk.inj h
  exact ⟨s, .of_run hs, hstop, Prod.mk.inj h⟩

end GroupState

end SignalSync
