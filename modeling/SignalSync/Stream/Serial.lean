import SignalSync.Library.Run
import SignalSync.Stream.Runtime

/-!
# One handler run for each ordering key

The executor runs one message of an ordering key at a time. The stale-claim loop
does not look at the executor: it processes what it has claimed at once, and it
claims a message that has been in the executor's queue, or in its handler, for five
seconds.

* `Serial.afterTask`: the executor by itself is serial;
* `serialRuns`: a worker is serial as long as its stale-claim loop takes up no
  message while the executor has one of its key;
* `stale_overlaps`: otherwise a message can be handled twice at once.
-/

namespace SignalSync

open Library

/-- The message whose handler the stale-claim loop is running. -/
def Main.running : Main → List Nat
  | .process i .handling _ => [i]
  | _ => []

/-- The messages whose handler the worker is running. -/
def Worker.running (v : Worker) : List Nat :=
  v.main.running ++ (v.executor.filter (·.stage = .handling)).map (·.entry)

namespace GroupState

variable [Runtime]

/-- The handler runs worker `w` has in progress are of different messages with
different ordering keys. -/
def SerialRuns (s : GroupState) (w : Nat) : Prop :=
  (s.workers w).running.Pairwise fun i j => i ≠ j ∧ (s.keyOf i = none ∨ s.keyOf i ≠ s.keyOf j)

instance (s : GroupState) (w : Nat) : Decidable (s.SerialRuns w) := by delta SerialRuns; infer_instance

/-- The stale-claim loop of worker `w` takes up a message only if the executor has
none of its key. -/
def ClaimsApart (w : Nat) (s : GroupState) : GroupLabel → Prop
  | .main v _ =>
    match (s.workers v).main with
    | .process i .start _ => v = w → ∀ task ∈ (s.workers v).executor, task.key = none ∨ task.key ≠ s.keyOf i
    | _ => True
  | _ => True

instance (w : Nat) (s : GroupState) (l : GroupLabel) : Decidable (s.ClaimsApart w l) := by
  unfold ClaimsApart
  repeat' first | infer_instance | split

/-- No worker holds a message. -/
def Fresh (s : GroupState) : Prop := ∀ w, s.workers w = {}

end GroupState

/-- Replacing an element keeps a relation that it has to those before and after it. -/
theorem pairwise_set {α : Type} {R : α → α → Prop} {l : List α} {j : Nat} {a b : α} (h : l.Pairwise R)
    (ha : l[j]? = some a) (hl : ∀ x ∈ l.take j, R x b) (hr : ∀ y, R a y → R b y) : (l.set j b).Pairwise R := by
  induction l generalizing j with
  | nil => cases ha
  | cons x l ih =>
    obtain ⟨hx, htail⟩ := List.pairwise_cons.mp h
    cases j with
    | zero =>
      cases ha
      exact List.pairwise_cons.mpr ⟨fun y hy => hr y (hx y hy), htail⟩
    | succ j =>
      refine List.pairwise_cons.mpr ⟨fun y hy => ?_, ih htail ha fun y hy => hl y (List.mem_cons_of_mem _ hy)⟩
      rcases List.mem_or_eq_of_mem_set hy with hy | rfl
      · exact hx y hy
      · exact hl x List.mem_cons_self

/-! ## The invariant -/

section

variable [Runtime]

/-- The worker's runs are serial, now and as its tasks go on. -/
structure Serial (g : StreamGroup) (v : Worker) : Prop where
  there : ∀ m ∈ v.main.messages, (g.fields? m.1).isSome
  keys : ∀ task ∈ v.executor, (g.fields? task.entry).bind orderingKey = some task.key
  begun : ∀ task ∈ v.executor, task.stage ≠ .start → task.key ≠ none
  heads : v.executor.Pairwise fun a b => b.stage ≠ .start → a.key ≠ b.key
  inline : ∀ i stage rest, v.main = .process i stage rest → stage ≠ .start →
    ∀ task ∈ v.executor, task.key = none ∨ task.key ≠ g.keyOf i

variable {g g' : StreamGroup} {v : Worker} {i j : Nat} {rest batch : List Nat}

theorem keyOf_of_bind {key : Option String} (h : (g.fields? i).bind orderingKey = some key) : g.keyOf i = key := by
  rw [StreamGroup.keyOf, h, Option.join_some]

theorem orderingKey_eq_none_key {fields : Fields} (h : orderingKey fields = some none) : CopyEvent.fromFields fields = none := by
  unfold orderingKey at h
  split at h
  · assumption
  · split at h <;> cases h

theorem Serial.mono (h : Serial g v) (hg : ∀ i fields, g.fields? i = some fields → g'.fields? i = some fields) :
    Serial g' v where
  there m hm := by
    obtain ⟨fields, hf⟩ := Option.isSome_iff_exists.mp (h.there m hm)
    rw [hg _ _ hf]
    rfl
  keys task ht := by
    obtain ⟨fields, hf, hk⟩ := Option.bind_eq_some_iff.mp (h.keys task ht)
    rw [hg _ _ hf]
    exact hk
  begun := h.begun
  heads := h.heads
  inline i stage rest hm hs task ht := by
    obtain ⟨fields, hf⟩ := Option.isSome_iff_exists.mp (h.there (i, stage) (by simp [hm, Main.messages]))
    have hkey : g'.keyOf i = g.keyOf i := by rw [StreamGroup.keyOf, StreamGroup.keyOf, hf, hg _ _ hf]
    rw [hkey]
    exact h.inline i stage rest hm hs task ht

/-- The main loop goes on to messages it has not begun. -/
theorem Serial.setMain (h : Serial g v) {main : Main} (hthere : ∀ m ∈ main.messages, (g.fields? m.1).isSome)
    (hs : ∀ i stage rest, main = .process i stage rest → stage ≠ .start →
      ∀ task ∈ v.executor, task.key = none ∨ task.key ≠ g.keyOf i) : Serial g { v with main } where
  there := hthere
  keys := h.keys
  begun := h.begun
  heads := h.heads
  inline := hs

/-- The loop goes on after a stage of its message. -/
theorem Serial.after {stage : Stage} (h : Serial g v) (hm : v.main = .process i stage rest) {o : Outcome}
    (ho : ∀ stage', o = .goes stage' → ∀ task ∈ v.executor, task.key = none ∨ task.key ≠ g.keyOf i) :
    Serial g { v with main := .after i rest o } := by
  have hrest {k : Nat} (hk : k ∈ rest) : (g.fields? k).isSome := h.there (k, .start) (by simp [hm, Main.messages, hk])
  cases o with
  | goes stage' =>
    refine h.setMain (fun m hm' => ?_) fun k stage rest' hm' _ => by cases hm'; exact ho stage' rfl
    rcases List.mem_cons.mp hm' with rfl | hm'
    · exact h.there (i, stage) (by simp [hm, Main.messages])
    · obtain ⟨k, hk, rfl⟩ := List.mem_map.mp hm'
      exact hrest hk
  | returns =>
    refine h.setMain (fun m hm' => ?_) fun k stage rest' hp hs => absurd (Main.start_of_processing hp) hs
    obtain ⟨k, hk, rfl⟩ := List.mem_map.mp (Main.messages_processing ▸ hm')
    exact hrest hk
  | raises =>
    refine h.setMain (fun m hm' => ?_) fun k stage rest' hm' => by cases hm'
    obtain ⟨k, hk, rfl⟩ := List.mem_map.mp hm'
    exact hrest hk

/-- The loop submits a message. -/
theorem Serial.submit (h : Serial g v) (hm : v.main = .submit i rest) {key : Option String}
    (hk : (g.fields? i).bind orderingKey = some key) :
    Serial g { main := .submitting rest, executor := v.executor ++ [⟨i, key, .start⟩] } where
  there m hm' := by
    obtain ⟨k, hk, rfl⟩ := List.mem_map.mp (Main.messages_submitting ▸ hm')
    exact h.there (k, .start) (by simp [hm, Main.messages, hk])
  keys task ht := by
    rcases List.mem_append.mp ht with ht | ht
    · exact h.keys task ht
    · rw [List.mem_singleton.mp ht]
      exact hk
  begun task ht hs := by
    rcases List.mem_append.mp ht with ht | ht
    · exact h.begun task ht hs
    · rw [List.mem_singleton.mp ht] at hs
      exact absurd rfl hs
  heads := List.pairwise_append.mpr ⟨h.heads, List.pairwise_singleton .., fun a _ b hb hs => by
    rw [List.mem_singleton.mp hb] at hs
    exact absurd rfl hs⟩
  inline k stage rest' hm' := by cases rest <;> cases hm'

/-- A task can only go on from a stage if its fields decode. -/
theorem fromFields_of_goes {fields : Fields} {result : DeliveryResult} {stage stage' : Stage}
    (h : (g.processMessage i fields result stage).2 = .goes stage') : ∃ event, CopyEvent.fromFields fields = some event := by
  refine Option.ne_none_iff_exists'.mp fun he => ?_
  rw [processMessage_of_none he] at h
  cases h

/-- The executor by itself is serial. -/
theorem Serial.afterTask (h : Serial g v) {task : Task} (hj : v.executor[j]? = some task) (hh : v.isHead j task)
    {fields : Fields} (hf : g.fields? task.entry = some fields) {o : Outcome}
    (ho : ∀ stage, o = .goes stage → ∃ event, CopyEvent.fromFields fields = some event) :
    Serial g (v.afterTask j task o) := by
  have ht : task ∈ v.executor := List.mem_of_getElem? hj
  cases o with
  | goes stage =>
    have hmem {x : Task} (hx : x ∈ v.executor.set j { task with stage }) : x ∈ v.executor ∨ x = { task with stage } :=
      List.mem_or_eq_of_mem_set hx
    have hkey : task.key ≠ none := by
      obtain ⟨event, he⟩ := ho stage rfl
      intro hn
      have hk := h.keys task ht
      rw [hf, Option.bind_some, hn] at hk
      exact absurd (orderingKey_eq_none_key hk) (by rw [he]; exact nofun)
    exact {
      there := h.there
      keys := fun x hx => (hmem hx).elim (h.keys x) fun hx => hx ▸ h.keys task ht
      begun := fun x hx hs => (hmem hx).elim (h.begun x · hs) fun hx => hx ▸ hkey
      heads := by
        refine pairwise_set h.heads hj (fun x hx _ => ?_) fun y hy hs => hy hs
        rcases Bool.or_eq_true _ _ ▸ hh with hn | hall
        · exact absurd (Option.isNone_iff_eq_none.mp hn) hkey
        · simpa using List.all_eq_true.mp hall x hx
      inline := fun k s rest hm hs x hx =>
        (hmem hx).elim (h.inline k s rest hm hs x) fun hx => hx ▸ h.inline k s rest hm hs task ht }
  | returns | raises =>
    have hmem {x : Task} (hx : x ∈ v.executor.eraseIdx j) : x ∈ v.executor := List.mem_of_mem_eraseIdx hx
    exact {
      there := h.there
      keys := fun x hx => h.keys x (hmem hx)
      begun := fun x hx => h.begun x (hmem hx)
      heads := h.heads.sublist (List.eraseIdx_sublist ..)
      inline := fun k s rest hm hs x hx => h.inline k s rest hm hs x (hmem hx) }

/-- No run of the worker is of the message or the key of another. -/
theorem Serial.running (h : Serial g v) :
    v.running.Pairwise fun i j => i ≠ j ∧ (g.keyOf i = none ∨ g.keyOf i ≠ g.keyOf j) := by
  -- two runs with different keys, one of them a key at all, are not of one message
  have hne {i j : Nat} (hj : g.keyOf j ≠ none) (hk : g.keyOf i ≠ g.keyOf j) :
      i ≠ j ∧ (g.keyOf i = none ∨ g.keyOf i ≠ g.keyOf j) := ⟨fun hij => hk (hij ▸ rfl), .inr hk⟩
  have htask {task : Task} (ht : task ∈ v.executor) (hs : task.stage = .handling) :
      g.keyOf task.entry = task.key ∧ task.key ≠ none :=
    ⟨keyOf_of_bind (h.keys task ht), h.begun task ht (by simp [hs])⟩
  have hmain {i : Nat} (hi : i ∈ v.main.running) : ∃ rest, v.main = .process i .handling rest := by
    unfold Main.running at hi
    split at hi
    · rw [List.mem_singleton.mp hi]
      exact ⟨_, by assumption⟩
    · cases hi
  refine List.pairwise_append.mpr ⟨?_, ?_, fun i hi j hj => ?_⟩
  · unfold Main.running
    split
    · exact List.pairwise_singleton ..
    · exact .nil
  · refine List.pairwise_map.mpr ((h.heads.filter _).imp_of_mem fun {a b} ha hb hab => ?_)
    obtain ⟨ha, hsa⟩ := List.mem_filter.mp ha
    obtain ⟨hb, hsb⟩ := List.mem_filter.mp hb
    obtain ⟨hka, -⟩ := htask ha (of_decide_eq_true hsa)
    obtain ⟨hkb, hnb⟩ := htask hb (of_decide_eq_true hsb)
    exact hne (hkb ▸ hnb) (by rw [hka, hkb]; exact hab (by simp [of_decide_eq_true hsb]))
  · obtain ⟨rest, hm⟩ := hmain hi
    obtain ⟨task, ht, rfl⟩ := List.mem_map.mp hj
    obtain ⟨ht, hs⟩ := List.mem_filter.mp ht
    obtain ⟨hk, hn⟩ := htask ht (of_decide_eq_true hs)
    refine hne (hk ▸ hn) fun he => ?_
    rcases h.inline i .handling rest hm nofun task ht with hn' | hne'
    · exact hn hn'
    · exact hne' (hk ▸ he.symm)

end

namespace GroupState

variable [Runtime] {s t : GroupState} {l : GroupLabel} {w : Nat}

theorem Fresh.isSerial (h : s.Fresh) : Serial s.toStreamGroup (s.workers w) := by
  rw [h w]
  exact ⟨nofun, nofun, nofun, .nil, nofun⟩

/-- What a step keeps. -/
theorem serial_step (h : Step s l t) (hw : Serial s.toStreamGroup (s.workers w)) (hok : s.ClaimsApart w l) :
    Serial t.toStreamGroup (t.workers w) := by
  have hkeep : Serial t.toStreamGroup (s.workers w) := hw.mono fun _ _ => fields?_of_step h
  cases h with
  | publish | tick => exact hkeep
  | @claim v result hm =>
    change Serial _ ((s.setMain v _).workers w)
    rw [workers_setMain]
    split
    · rename_i hwv
      subst hwv
      refine hkeep.setMain (fun m hm' => ?_) fun i stage rest hp hs => absurd (Main.start_of_processing hp) hs
      obtain ⟨i, hi, rfl⟩ := List.mem_map.mp (Main.messages_processing ▸ hm')
      rw [StreamGroup.fields?_deliver]
      exact StreamGroup.isSome_fields?.2 (StreamGroup.lt_of_mem_claimable hi)
    · exact hkeep
  | @read v result hm =>
    change Serial _ ((s.setMain v _).workers w)
    rw [workers_setMain]
    split
    · rename_i hwv
      subst hwv
      refine hkeep.setMain (fun m hm' => ?_) fun i stage rest hp _ => ?_
      · obtain ⟨i, hi, rfl⟩ := List.mem_map.mp (Main.messages_submitting ▸ hm')
        rw [StreamGroup.fields?_deliver]
        exact StreamGroup.isSome_fields?.2 (StreamGroup.lt_of_mem_unread hi)
      · cases hu : s.unread <;> rw [hu] at hp <;> cases hp
    · exact hkeep
  | @process v i stage rest result e hm he =>
    change Serial _ ((s.setMain v _).workers w)
    rw [workers_setMain]
    split
    · rename_i hwv
      subst hwv
      refine hkeep.after hm fun stage' _ task ht => ?_
      by_cases hs : stage = .start
      · subst hs
        have hap := hok
        simp only [ClaimsApart, hm] at hap
        rw [StreamGroup.keyOf, StreamGroup.fields?_processMessage]
        exact hap trivial task ht
      · exact hkeep.inline i stage rest hm hs task ht
    · exact hkeep
  | @choke v i rest result e hm he hk =>
    rw [workers_setMain]
    split
    · rename_i hwv
      subst hwv
      refine hkeep.setMain (fun m hm' => hkeep.there m ?_) nofun
      rw [hm]
      simpa [Main.messages] using hm'
    · exact hkeep
  | @submit v i rest result e key hm he hk =>
    rw [workers_setWorker]
    split
    · rename_i hwv
      subst hwv
      refine hkeep.submit hm ?_
      rw [StreamGroup.fields?, show (s.setWorker w _).entries[i]? = some e from he]
      exact hk
    · exact hkeep
  | @task v j task result e hj hh he =>
    change Serial _ ((s.setWorker v _).workers w)
    rw [workers_setWorker]
    split
    · rename_i hwv
      subst hwv
      have hf : (s.processMessage task.entry e.event result task.stage).1.fields? task.entry = some e.event := by
        rw [StreamGroup.fields?_processMessage, StreamGroup.fields?, he, Option.map_some]
      exact hkeep.afterTask hj hh hf fun stage => fromFields_of_goes
    · exact hkeep

/-- A worker whose stale-claim loop takes up no message while its executor has one of
the same key is serial. -/
theorem serialRuns {s₀ : GroupState} (h₀ : s₀.Fresh) (h : Reach step (ClaimsApart w) s₀ s) : s.SerialRuns w :=
  Serial.running (h.invariant (P := fun s => Serial s.toStreamGroup (s.workers w)) h₀.isSerial
    fun _ _ _ hP hok hs => serial_step (step_cases hs) hP hok)

omit [Runtime] in
/-- Two messages of a source: the second waits for the first. -/
theorem serialRuns_oneSource :
    let _ := Runtime.oneSource
    ∃ s, Reach step (ClaimsApart 0) {} s ∧ (s.workers 0).executor.length = 2 ∧ s.SerialRuns 0 := by
  intro _
  have hrun : (runIf step (ClaimsApart 0) {}
      [.publish (sourceMessage "1"), .publish (sourceMessage "2"), .main 0 .success, .main 0 .success, .main 0 .success,
        .main 0 .success, .task 0 0 .success]).map (fun s => (s.workers 0).executor.length) = some 2 := by decide +kernel
  obtain ⟨s, hs, hlen⟩ := Option.map_eq_some_iff.mp hrun
  exact ⟨s, .of_runIf hs, hlen, serialRuns (fun _ => rfl) (.of_runIf hs)⟩

omit [Runtime] in
/-- A message whose handler takes five seconds is claimed and handled again. -/
theorem stale_overlaps :
    let _ := Runtime.oneSource
    ∃ s, Reach step always {} s ∧ (s.workers 0).running = [0, 0] ∧ ¬ s.SerialRuns 0 := by
  intro _
  have hrun : (run step {}
      [.publish (sourceMessage "1"), .main 0 .success, .main 0 .success, .main 0 .success, .task 0 0 .success,
        .tick (seconds 5), .main 0 .success, .main 0 .success]).map (fun s => ((s.workers 0).running, decide (s.SerialRuns 0))) =
        some ([0, 0], false) := by decide +kernel
  obtain ⟨s, hs, hser⟩ := Option.map_eq_some_iff.mp hrun
  obtain ⟨hrunning, hser⟩ := Prod.mk.inj hser
  exact ⟨s, .of_run hs, hrunning, of_decide_eq_false hser⟩

end GroupState

end SignalSync
