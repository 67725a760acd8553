import Mathlib.Algebra.Ring.Nat
import Mathlib.Data.List.Nodup
import SignalSync.Library.Run

/-!
# The keyed serial executor

`KeyedSerialExecutor`: a submission puts its task at the end of its key's queue and, where
the queue was empty, schedules a drain of that key. A drain goes through its loop in critical
sections: it looks at the head of the queue, calls it outside of the lock, and drops it from
the queue, which goes with its last task. Between any two of these come the submissions and
the drains of the other threads, in any order; a drain that is scheduled begins at any time,
so the pool's order and its number of threads are left open.

* `Serves.submit`, `Serves.drain`: what a submission and a step of a drain keep, for one key;
* `Serving.step`: and for all keys;
* `serial`: one task of a key at a time, in the order of submission, each with its outcome;
* `exists_rest`: the drains of a key come to rest whatever its tasks come to.
-/

namespace SignalSync

open Library

variable {κ φ α ε : Type}

/-- An entry of a queue: what is called, and the future of its result. -/
structure QueuedTask (φ : Type) where
  result : Nat
  function : φ
deriving DecidableEq

/-- Where a drain is. -/
inductive Drain (φ : Type)
  /-- Before the first critical section, at the top of the loop. -/
  | look
  | call (task : QueuedTask φ)
  | running (task : QueuedTask φ)
  /-- Before the second critical section. -/
  | drop
deriving DecidableEq

inductive TaskEvent (φ α ε : Type)
  | start (task : QueuedTask φ)
  | finish (task : QueuedTask φ) (outcome : Except ε α)

/-- What there is of one key; its submissions and the calls of its tasks are recorded. -/
structure KeyState (φ α ε : Type) where
  queue : Option (List (QueuedTask φ)) := none
  drains : List (Drain φ) := []
  submitted : List (QueuedTask φ) := []
  log : List (TaskEvent φ α ε) := []

/-- The futures are numbered; a pending one has no outcome yet. -/
abbrev Futures (α ε : Type) := List (Option (Except ε α))

structure KeyedSerialExecutor (κ φ α ε : Type) where
  keys : κ → KeyState φ α ε := fun _ => {}
  futures : Futures α ε := []

inductive ExecutorLabel (κ φ α ε : Type)
  | submit (key : κ) (function : φ)
  /-- A step of a drain; `outcome` is what the task comes to, where its call ends. -/
  | drain (key : κ) (i : Nat) (outcome : Except ε α)

namespace KeyState

def submit (s : KeyState φ α ε) (task : QueuedTask φ) : KeyState φ α ε :=
  let queue := s.queue.getD [] ++ [task]
  { s with
    queue := some queue
    drains := if queue.length = 1 then s.drains ++ [.look] else s.drains
    submitted := s.submitted ++ [task] }

/-- The next step of drain `i`. -/
def drain (s : KeyState φ α ε) (futures : Futures α ε) (i : Nat) (outcome : Except ε α) :
    Drain φ → KeyState φ α ε × Futures α ε
  | .look =>
    match s.queue with
    | none | some [] => ({ s with queue := none, drains := s.drains.eraseIdx i }, futures)
    | some (task :: _) => ({ s with drains := s.drains.set i (.call task) }, futures)
  | .call task => ({ s with drains := s.drains.set i (.running task), log := s.log ++ [.start task] }, futures)
  | .running task =>
    match futures[task.result]? with
    | some none =>
      ({ s with drains := s.drains.set i .drop, log := s.log ++ [.finish task outcome] },
        futures.set task.result (some outcome))
    -- `InvalidStateError`, also of `set_exception`: it ends the drain
    | _ => ({ s with drains := s.drains.eraseIdx i, log := s.log ++ [.finish task outcome] }, futures)
  | .drop =>
    match s.queue with
    | none | some [] => ({ s with drains := s.drains.set i .look }, futures)
    | some [_] => ({ s with queue := none, drains := s.drains.eraseIdx i }, futures)
    | some (_ :: rest) => ({ s with queue := some rest, drains := s.drains.set i .look }, futures)

end KeyState

namespace KeyedSerialExecutor

variable [DecidableEq κ]

def step (s : KeyedSerialExecutor κ φ α ε) : ExecutorLabel κ φ α ε → Option (KeyedSerialExecutor κ φ α ε)
  | .submit key function => some
    { keys := Function.update s.keys key ((s.keys key).submit { result := s.futures.length, function })
      futures := s.futures ++ [none] }
  | .drain key i outcome => (s.keys key).drains[i]?.map fun d =>
    let next := (s.keys key).drain s.futures i outcome d
    { keys := Function.update s.keys key next.1, futures := next.2 }

end KeyedSerialExecutor

/-! ## One key -/

/-- The calls of tasks that ran one after the other, with what they came to. -/
def calls (done : List (QueuedTask φ × Except ε α)) : List (TaskEvent φ α ε) :=
  done.flatMap fun r => [.start r.1, .finish r.1 r.2]

theorem calls_concat (done : List (QueuedTask φ × Except ε α)) (r : QueuedTask φ × Except ε α) :
    calls (done ++ [r]) = calls done ++ [.start r.1, .finish r.1 r.2] := by
  simp [calls]

/-- Some tasks are done, the others wait: there is no queue and no drain, or one drain, at a
point of its loop. Its task is the head of the queue until it is dropped. -/
inductive DrainStage (done : List (QueuedTask φ × Except ε α)) : List (QueuedTask φ) → KeyState φ α ε → Prop
  | idle {submitted} : DrainStage done [] ⟨none, [], submitted, calls done⟩
  | look {t rest submitted} : DrainStage done (t :: rest) ⟨some (t :: rest), [.look], submitted, calls done⟩
  | call {t rest submitted} : DrainStage done (t :: rest) ⟨some (t :: rest), [.call t], submitted, calls done⟩
  | running {t rest submitted} :
    DrainStage done (t :: rest) ⟨some (t :: rest), [.running t], submitted, calls done ++ [.start t]⟩
  | drop {t waiting submitted} : DrainStage done waiting ⟨some (t :: waiting), [.drop], submitted, calls done⟩

/-- The state of one key; the tasks done have their outcomes, the others are pending. -/
structure Serves (futures : Futures α ε) (s : KeyState φ α ε) (done : List (QueuedTask φ × Except ε α))
    (waiting : List (QueuedTask φ)) : Prop where
  submitted : s.submitted = done.map Prod.fst ++ waiting
  stage : DrainStage done waiting s
  completed : ∀ r ∈ done, futures[r.1.result]? = some (some r.2)
  pending : ∀ t ∈ waiting, futures[t.result]? = some none
  distinct : (s.submitted.map QueuedTask.result).Nodup

section

variable {futures : Futures α ε} {s : KeyState φ α ε} {done : List (QueuedTask φ × Except ε α)} {waiting : List (QueuedTask φ)}
  {task : QueuedTask φ} {d : Drain φ} {i : Nat} {outcome : Except ε α}

theorem Serves.empty : Serves futures ({} : KeyState φ α ε) [] [] where
  submitted := rfl
  stage := .idle
  completed := nofun
  pending := nofun
  distinct := List.nodup_nil

/-- A new future, and the other futures as they were. -/
theorem getElem?_new {j : Nat} {o : Option (Except ε α)} (h : futures[j]? = some o) : (futures ++ [none])[j]? = some o :=
  List.getElem?_append_left (List.getElem?_eq_some_iff.mp h).1 ▸ h

theorem Serves.result_lt (h : Serves futures s done waiting) {t : QueuedTask φ} (ht : t ∈ s.submitted) : t.result < futures.length := by
  rw [h.submitted] at ht
  rcases List.mem_append.mp ht with hd | hw
  · obtain ⟨r, hr, rfl⟩ := List.mem_map.mp hd
    exact (List.getElem?_eq_some_iff.mp (h.completed r hr)).1
  · exact (List.getElem?_eq_some_iff.mp (h.pending t hw)).1

/-- No drain is scheduled where there is a queue already. -/
theorem submit_of_queue {t : QueuedTask φ} {rest : List (QueuedTask φ)} (h : s.queue = some (t :: rest)) :
    s.submit task = { s with queue := some (t :: (rest ++ [task])), submitted := s.submitted ++ [task] } := by
  rw [KeyState.submit, h]
  simp

theorem DrainStage.submit (h : DrainStage done waiting s) : DrainStage done (waiting ++ [task]) (s.submit task) := by
  cases h with
  | idle => exact .look
  | look =>
    rw [submit_of_queue rfl]
    exact .look
  | call =>
    rw [submit_of_queue rfl]
    exact .call
  | running =>
    rw [submit_of_queue rfl]
    exact .running
  | drop =>
    rw [submit_of_queue rfl]
    exact .drop

/-- A submission to the key. -/
theorem Serves.submit (h : Serves futures s done waiting) (ht : task.result = futures.length) :
    Serves (futures ++ [none]) (s.submit task) done (waiting ++ [task]) where
  submitted := by
    show s.submitted ++ [task] = _
    rw [h.submitted, List.append_assoc]
  stage := h.stage.submit
  completed r hr := getElem?_new (h.completed r hr)
  pending t hw := by
    rcases List.mem_append.mp hw with hw | hw
    · exact getElem?_new (h.pending t hw)
    · cases List.mem_singleton.mp hw
      rw [ht, List.getElem?_concat_length]
  distinct := by
    show ((s.submitted ++ [task]).map QueuedTask.result).Nodup
    rw [List.map_append, List.map_singleton]
    refine List.Nodup.append h.distinct (List.nodup_singleton _) (List.disjoint_singleton.mpr fun hmem => ?_)
    obtain ⟨t, hmem, heq⟩ := List.mem_map.mp hmem
    have hlt := h.result_lt hmem
    omega

/-- A submission to another key. -/
theorem Serves.submit_other (h : Serves futures s done waiting) : Serves (futures ++ [none]) s done waiting :=
  { h with
    completed := fun r hr => getElem?_new (h.completed r hr)
    pending := fun t hw => getElem?_new (h.pending t hw) }

/-- The end of a task of another key. -/
theorem Serves.set_other (h : Serves futures s done waiting) {j : Nat} (hj : ∀ t ∈ s.submitted, t.result ≠ j) :
    Serves (futures.set j (some outcome)) s done waiting := by
  have hset {t : QueuedTask φ} (ht : t ∈ s.submitted) : (futures.set j (some outcome))[t.result]? = futures[t.result]? :=
    List.getElem?_set_ne (hj t ht).symm
  refine { h with completed := fun r hr => ?_, pending := fun t hw => ?_ }
  · rw [hset (h.submitted ▸ List.mem_append_left _ (List.mem_map_of_mem hr))]
    exact h.completed r hr
  · rw [hset (h.submitted ▸ List.mem_append_right _ hw)]
    exact h.pending t hw

/-- The future of a task that is called is no other task's. -/
theorem Serves.finish {t : QueuedTask φ} {rest : List (QueuedTask φ)} {log : List (TaskEvent φ α ε)} {drains : List (Drain φ)}
    (h : Serves futures s done (t :: rest)) (hstage : DrainStage (done ++ [(t, outcome)]) rest { s with drains, log }) :
    Serves (futures.set t.result (some outcome)) { s with drains, log } (done ++ [(t, outcome)]) rest := by
  have hsubmitted : s.submitted = (done ++ [(t, outcome)]).map Prod.fst ++ rest := by
    rw [h.submitted, List.map_append, List.append_assoc]
    rfl
  have hresults := h.distinct
  rw [h.submitted, List.map_append, List.map_cons, List.nodup_append] at hresults
  obtain ⟨-, hwaiting, hapart⟩ := hresults
  refine ⟨hsubmitted, hstage, fun r hr => ?_, fun u hu => ?_, h.distinct⟩
  · rcases List.mem_append.mp hr with hr | hr
    · have hne := hapart r.1.result (List.mem_map_of_mem (List.mem_map_of_mem hr)) t.result List.mem_cons_self
      rw [List.getElem?_set_ne hne.symm]
      exact h.completed r hr
    · cases List.mem_singleton.mp hr
      exact List.getElem?_set_self (h.result_lt (h.submitted ▸ List.mem_append_right _ List.mem_cons_self))
  · have hne : t.result ≠ u.result := fun heq =>
      (List.nodup_cons.mp hwaiting).1 (heq ▸ List.mem_map_of_mem hu)
    rw [List.getElem?_set_ne hne]
    exact h.pending u (List.mem_cons_of_mem _ hu)

/-- A step of the drain of the key. -/
theorem Serves.drain (h : Serves futures s done waiting) (hd : s.drains[i]? = some d) :
    ∃ done' waiting', Serves (s.drain futures i outcome d).2 (s.drain futures i outcome d).1 done' waiting' := by
  have hstage := h.stage
  have hzero {e : Drain φ} (he : [e][i]? = some d) : i = 0 ∧ d = e := by
    cases i with
    | zero => exact ⟨rfl, (Option.some_inj.mp he).symm⟩
    | succ i => cases he
  cases hstage with
  | idle => cases hd
  | look =>
    obtain ⟨rfl, rfl⟩ := hzero hd
    exact ⟨done, _, { h with stage := .call }⟩
  | call =>
    obtain ⟨rfl, rfl⟩ := hzero hd
    exact ⟨done, _, { h with stage := .running }⟩
  | @running t rest submitted =>
    obtain ⟨rfl, rfl⟩ := hzero hd
    have hpending := h.pending t List.mem_cons_self
    rw [KeyState.drain, hpending]
    refine ⟨done ++ [(t, outcome)], rest, h.finish ?_⟩
    rw [List.append_assoc]
    show DrainStage _ _ ⟨_, _, _, calls done ++ [.start t, .finish t outcome]⟩
    rw [← calls_concat done (t, outcome)]
    exact .drop
  | @drop t waiting submitted =>
    obtain ⟨rfl, rfl⟩ := hzero hd
    cases waiting with
    | nil => exact ⟨done, [], { h with stage := .idle }⟩
    | cons u rest => exact ⟨done, _, { h with stage := .look }⟩

theorem drain_submitted : (s.drain futures i outcome d).1.submitted = s.submitted := by
  cases d <;> simp only [KeyState.drain] <;> split <;> rfl

/-- A drain sets no future but that of the task it called. -/
theorem drain_futures (s : KeyState φ α ε) (futures : Futures α ε) (i : Nat) (outcome : Except ε α) (d : Drain φ) :
    (s.drain futures i outcome d).2 = futures ∨
      ∃ t, d = .running t ∧ (s.drain futures i outcome d).2 = futures.set t.result (some outcome) := by
  cases d with
  | look | drop =>
    left
    simp only [KeyState.drain]
    split <;> rfl
  | call => exact .inl rfl
  | running t =>
    simp only [KeyState.drain]
    split
    · exact .inr ⟨t, rfl, rfl⟩
    · exact .inl rfl

theorem Serves.running_mem (h : Serves futures s done waiting) {t : QueuedTask φ} (hd : s.drains[i]? = some (.running t)) :
    t ∈ s.submitted := by
  have hwaiting : t ∈ waiting := by
    have hmem := List.mem_of_getElem? hd
    cases h.stage <;> simp_all
  exact h.submitted ▸ List.mem_append_right _ hwaiting

end

/-! ## Coming to rest -/

/-- How many steps a drain has left before it drops the task it is at. -/
def Drain.left : Drain φ → Nat
  | .look => 4
  | .call _ => 3
  | .running _ => 2
  | .drop => 1

/-- The steps left to the drains of a key, where nothing more is submitted. -/
def KeyState.work (s : KeyState φ α ε) : Nat := 4 * (s.queue.getD []).length + (s.drains.map Drain.left).sum

theorem Serves.work_lt {futures : Futures α ε} {s : KeyState φ α ε} {done : List (QueuedTask φ × Except ε α)}
    {waiting : List (QueuedTask φ)} (h : Serves futures s done waiting) {d : Drain φ} (hd : s.drains[0]? = some d) (outcome : Except ε α) :
    (s.drain futures 0 outcome d).1.work < s.work := by
  have hstage := h.stage
  cases hstage with
  | idle => cases hd
  | look | call =>
    cases hd
    simp [KeyState.drain, KeyState.work, Drain.left]
  | @running t rest submitted =>
    cases hd
    simp [KeyState.drain, KeyState.work, Drain.left, h.pending t List.mem_cons_self]
  | @drop t waiting submitted =>
    cases hd
    cases waiting with
    | nil => simp [KeyState.drain, KeyState.work, Drain.left]
    | cons u rest =>
      simp only [KeyState.drain, KeyState.work, Drain.left, Option.getD_some, List.length_cons, List.set_cons_zero,
        List.map_cons, List.map_nil, List.sum_cons, List.sum_nil]
      omega

/-! ## All keys -/

section

variable [DecidableEq κ] {s t : KeyedSerialExecutor κ φ α ε} {a : ExecutorLabel κ φ α ε}

/-- Every key is served, and no two keys have a task with one future. -/
structure Serving (s : KeyedSerialExecutor κ φ α ε) : Prop where
  serves : ∀ k, ∃ done waiting, Serves s.futures (s.keys k) done waiting
  apart : ∀ k k', k ≠ k' → ∀ t ∈ (s.keys k).submitted, ∀ t' ∈ (s.keys k').submitted, t.result ≠ t'.result

omit [DecidableEq κ] in
theorem Serving.result_lt (h : Serving s) {k : κ} {t : QueuedTask φ} (ht : t ∈ (s.keys k).submitted) : t.result < s.futures.length := by
  obtain ⟨done, waiting, hk⟩ := h.serves k
  exact hk.result_lt ht

theorem Serving.step (h : Serving s) (hs : s.step a = some t) : Serving t := by
  cases a with
  | submit key function =>
    cases hs
    constructor
    · intro k
      obtain ⟨done, waiting, hk⟩ := h.serves k
      simp only [Function.update_apply]
      split
      · rename_i hkey
        subst hkey
        exact ⟨done, _, hk.submit rfl⟩
      · exact ⟨done, waiting, hk.submit_other⟩
    · -- the future of the new task is a new one
      have hnew {k : κ} {t : QueuedTask φ} (ht : t ∈ (s.keys k).submitted) : t.result ≠ s.futures.length :=
        Nat.ne_of_lt (h.result_lt ht)
      intro k k' hne t ht t' ht'
      simp only [Function.update_apply] at ht ht'
      split at ht <;> split at ht'
      · rename_i hk hk'
        exact absurd (hk.trans hk'.symm) hne
      · rename_i hk hk'
        rcases List.mem_append.mp ht with ht | ht
        · exact h.apart key k' (hk ▸ hne) t ht t' ht'
        · cases List.mem_singleton.mp ht
          exact (hnew ht').symm
      · rename_i hk hk'
        rcases List.mem_append.mp ht' with ht' | ht'
        · exact h.apart k key (hk' ▸ hne) t ht t' ht'
        · cases List.mem_singleton.mp ht'
          exact hnew ht
      · exact h.apart k k' hne t ht t' ht'
  | drain key i outcome =>
    obtain ⟨d, hd, rfl⟩ := Option.map_eq_some_iff.mp hs
    have hsubmitted (k : κ) : (Function.update s.keys key ((s.keys key).drain s.futures i outcome d).1 k).submitted =
        (s.keys k).submitted := by
      rw [Function.update_apply]
      split
      · rename_i hkey
        rw [drain_submitted, hkey]
      · rfl
    refine ⟨fun k => ?_, fun k k' hne t ht t' ht' => h.apart k k' hne t (hsubmitted k ▸ ht) t' (hsubmitted k' ▸ ht')⟩
    obtain ⟨done, waiting, hk⟩ := h.serves k
    simp only [Function.update_apply]
    split
    · rename_i hkey
      subst hkey
      exact hk.drain hd
    · rename_i hkey
      refine ⟨done, waiting, ?_⟩
      rcases drain_futures (s.keys key) s.futures i outcome d with heq | ⟨t, rfl, heq⟩
      · rw [heq]
        exact hk
      · rw [heq]
        obtain ⟨_, _, hdraining⟩ := h.serves key
        exact hk.set_other fun u hu => h.apart k key hkey u hu t (hdraining.running_mem hd)

theorem Serving.of_reach (h : Reach KeyedSerialExecutor.step always {} s) : Serving s := by
  refine h.invariant ⟨fun _ => ⟨[], [], .empty⟩, fun _ _ _ t ht => nomatch ht⟩ fun t a u ht _ hs => ht.step hs

/-- A drain of the key takes its next step, whatever the call it may be in comes to. -/
theorem Serving.goes_on (h : Serving s) {k : κ} (hd : (s.keys k).drains ≠ []) (outcome : Except ε α) :
    ∃ t, s.step (.drain k 0 outcome) = some t ∧ (t.keys k).work < (s.keys k).work ∧
      (t.keys k).submitted = (s.keys k).submitted := by
  obtain ⟨d, ds, hdrains⟩ := List.exists_cons_of_ne_nil hd
  have hhead : (s.keys k).drains[0]? = some d := by rw [hdrains, List.getElem?_cons_zero]
  obtain ⟨done, waiting, hk⟩ := h.serves k
  refine ⟨_, by rw [KeyedSerialExecutor.step, hhead, Option.map_some], ?_, ?_⟩
  · show ((Function.update s.keys k _) k).work < _
    rw [Function.update_self]
    exact hk.work_lt hhead outcome
  · show ((Function.update s.keys k _) k).submitted = _
    rw [Function.update_self]
    exact drain_submitted

/-- With an outcome for every call, the drains of a key come to rest. -/
theorem exists_rest (h : Serving s) (k : κ) (outcomes : List (Except ε α)) (hwork : (s.keys k).work ≤ outcomes.length) :
    ∃ n t, run KeyedSerialExecutor.step s ((outcomes.take n).map (.drain k 0)) = some t ∧
      (t.keys k).drains = [] ∧ (t.keys k).submitted = (s.keys k).submitted := by
  induction outcomes generalizing s with
  | nil =>
    refine ⟨0, s, rfl, ?_, rfl⟩
    by_contra hd
    obtain ⟨d, ds, hdrains⟩ := List.exists_cons_of_ne_nil hd
    rw [KeyState.work, hdrains, List.map_cons, List.sum_cons] at hwork
    cases d <;> simp only [Drain.left, List.length_nil] at hwork <;> omega
  | cons outcome outcomes ih =>
    by_cases hd : (s.keys k).drains = []
    · exact ⟨0, s, rfl, hd, rfl⟩
    · obtain ⟨u, hu, hlt, hsubmitted⟩ := h.goes_on hd outcome
      obtain ⟨n, t, hrun, hrest, hsame⟩ := ih (h.step hu) (by rw [List.length_cons] at hwork; omega)
      refine ⟨n + 1, t, ?_, hrest, hsame.trans hsubmitted⟩
      rw [List.take_succ_cons, List.map_cons, run, hu, Option.bind_some]
      exact hrun

end

/-! ## The executor -/

/-- What a caller of the executor can rely on, for the tasks of one key. -/
structure KeyedSerialExecutor.Serial [DecidableEq κ] (s : KeyedSerialExecutor κ φ α ε) (k : κ) : Prop where
  /-- Each submission has a future of its own. -/
  distinct : ((s.keys k).submitted.map QueuedTask.result).Nodup
  /-- The tasks that were called are the first ones submitted, in that order and each once, the next
  one only after the one before it has ended; a future holds what its task came to. -/
  inOrder : ∃ done waiting, (s.keys k).submitted = done.map Prod.fst ++ waiting ∧
    ((s.keys k).log = calls done ∨ ∃ t rest, waiting = t :: rest ∧ (s.keys k).log = calls done ++ [.start t]) ∧
    (∀ r ∈ done, s.futures[r.1.result]? = some (some r.2)) ∧ (∀ t ∈ waiting, s.futures[t.result]? = some none) ∧
    ((s.keys k).drains = [] → waiting = [])
  /-- A queue that is there is not empty, and it has one drain; without a queue there is none. -/
  oneDrain : match (s.keys k).queue with
    | none => (s.keys k).drains = []
    | some queue => queue ≠ [] ∧ (s.keys k).drains.length = 1
  /-- Whatever the calls come to, the drain goes on until every task submitted has run. -/
  atRest : ∀ outcomes : List (Except ε α), (s.keys k).work ≤ outcomes.length →
    ∃ n t, run KeyedSerialExecutor.step s ((outcomes.take n).map (.drain k 0)) = some t ∧
      (t.keys k).drains = [] ∧ (t.keys k).submitted = (s.keys k).submitted

theorem Serves.oneDrain {futures : Futures α ε} {s : KeyState φ α ε} {done : List (QueuedTask φ × Except ε α)}
    {waiting : List (QueuedTask φ)} (h : Serves futures s done waiting) :
    match s.queue with
    | none => s.drains = []
    | some queue => queue ≠ [] ∧ s.drains.length = 1 := by
  have hstage := h.stage
  cases hstage with
  | idle => rfl
  | look | call | running | drop => exact ⟨List.cons_ne_nil _ _, rfl⟩

theorem Serves.log {futures : Futures α ε} {s : KeyState φ α ε} {done : List (QueuedTask φ × Except ε α)}
    {waiting : List (QueuedTask φ)} (h : Serves futures s done waiting) :
    (s.log = calls done ∨ ∃ t rest, waiting = t :: rest ∧ s.log = calls done ++ [.start t]) ∧ (s.drains = [] → waiting = []) := by
  have hstage := h.stage
  cases hstage with
  | idle => exact ⟨.inl rfl, fun _ => rfl⟩
  | look | call | drop => exact ⟨.inl rfl, nofun⟩
  | running => exact ⟨.inr ⟨_, _, rfl, rfl⟩, nofun⟩

/-- In every interleaving of submissions and of the steps of the drains. -/
theorem serial [DecidableEq κ] {s : KeyedSerialExecutor κ φ α ε} (h : Reach KeyedSerialExecutor.step always {} s) (k : κ) :
    s.Serial k := by
  have hserving := Serving.of_reach h
  obtain ⟨done, waiting, hk⟩ := hserving.serves k
  refine ⟨hk.distinct, ⟨done, waiting, hk.submitted, hk.log.1, hk.completed, hk.pending, hk.log.2⟩, hk.oneDrain, ?_⟩
  exact exists_rest hserving k

/-- A task that raises, with one of its key behind it and one of another key beside it. -/
def raisingFirst : List (ExecutorLabel String String Unit String) :=
  [.submit "source-a" "first", .submit "source-a" "second", .drain "source-a" 0 (.ok ()), .drain "source-a" 0 (.ok ()),
    .submit "source-b" "other", .drain "source-a" 0 (.error "boom"), .drain "source-b" 0 (.ok ()),
    .drain "source-a" 0 (.ok ()), .drain "source-a" 0 (.ok ())]

theorem serial_raisingFirst :
    ∃ s, run KeyedSerialExecutor.step {} raisingFirst = some s ∧
      s.futures = [some (.error "boom"), none, none] ∧ s.Serial "source-a" :=
  ⟨_, rfl, rfl, serial (.of_run (show run _ _ raisingFirst = _ from rfl)) "source-a"⟩

end SignalSync
