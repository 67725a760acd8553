import Mathlib.Algebra.Ring.Nat
import Mathlib.Data.List.Count
import SignalSync.Library.Run
import SignalSync.Library.Sessions
import SignalSync.Library.Totals

/-!
# The streaming connections of the provider's accounts

`MetaApiConnectionManager`, as its event loop runs it. A coroutine goes on until its next
`await`, and whatever is waiting goes on after that in any order; nothing awaits while it
holds the lock, so that no one ever waits for it. `acquire`, `close_account`, `evict_idle`
and `shutdown` are one step each, up to their first `await`. What they await then is an
`_open`, which is a task of its own, or the closing of connections they have taken out
(`Closer`).

* `ConnectionManager.closed_nodup`: whatever comes in whichever order, no connection is closed
  twice, none that was closed is in an entry, and the registered opens go on;
* `ConnectionManager.copies_eq_one`: while no open begins behind a cancelled one of its
  account and no `close` raises with connections behind it, one open runs for an account
  and every connection is in one place;
* `ConnectionManager.shut`: in such runs nothing comes back after a shutdown unless it is
  acquired.
-/

namespace SignalSync

open Library

/-- `_ConnectionEntry`. -/
structure ConnectionEntry where
  connection : Nat
  lastUsedAt : Int

/-- Where an `_open` waits. -/
inductive OpenPoint
  /-- Its task has not run yet. -/
  | created
  | getAccount
  | connect (connection : Nat)
  | waitSynchronized (connection : Nat)
  /-- In `connection.close()`, with the exception to be raised again. -/
  | closing (connection : Nat)
  | done
deriving DecidableEq

structure OpenTask where
  account : String
  point : OpenPoint := .created
  cancelled : Bool := false

/-- A coroutine that awaits cancelled opens and then closes what it has taken out. -/
structure Closer where
  awaits : List Nat := []
  connections : List Nat
  called : Bool := false

structure ConnectionManager where
  idleSeconds : Int
  entries : Table String ConnectionEntry := ∅
  opening : Table String Nat := ∅
  tasks : List OpenTask := []
  closers : List Closer := []
  /-- How many connections there were, and those `close` was called on. -/
  connections : Nat := 0
  closed : List Nat := []

/-- What the loop does next. `healthy` is what the health monitors say, `ok` whether the
account was deployed and what was awaited has returned. -/
inductive ManagerLabel
  | acquire (account : String) (healthy : Nat → Bool) (now : Int)
  | closeAccount (account : String)
  | evictIdle (now : Int)
  | shutdown
  /-- An open goes on, or gets the `CancelledError`. -/
  | resume (task : Nat) (ok : Bool) (now : Int)
  | throw (task : Nat)
  /-- A closer calls `close` on its next connection, or the call it awaits raises. -/
  | close (closer : Nat)
  | raise (closer : Nat)

namespace OpenTask

def IsRunning (task : OpenTask) : Prop := task.point ≠ .done

instance (task : OpenTask) : Decidable task.IsRunning := inferInstanceAs (Decidable (_ ≠ _))

def cancel (task : OpenTask) : OpenTask := { task with cancelled := true }

/-- The connection an open has, which nobody else knows yet. -/
def holds (connection : Nat) (task : OpenTask) : Nat :=
  match task.point with
  | .connect c | .waitSynchronized c => if c = connection then 1 else 0
  | .created | .getAccount | .closing _ | .done => 0

end OpenTask

namespace ConnectionManager

def cancelAll (m : ConnectionManager) (opens : List Nat) : List OpenTask :=
  m.tasks.mapIdx fun i task => if i ∈ opens then task.cancel else task

/-- Register an open of the account unless there is one. -/
def openFor (m : ConnectionManager) (account : String) : ConnectionManager :=
  match m.opening.get? account with
  | some _ => m
  | none => { m with tasks := m.tasks ++ [{ account }], opening := m.opening.add account m.tasks.length }

def acquire (m : ConnectionManager) (account : String) (healthy : Nat → Bool) (now : Int) : ConnectionManager :=
  match m.entries.get? account with
  | some entry =>
    if healthy entry.connection then { m with entries := m.entries.modify account fun e => { e with lastUsedAt := now } }
    else
      let m := { m with entries := m.entries.remove account }
      { m.openFor account with closers := m.closers ++ [{ connections := [entry.connection] }] }
  | none => m.openFor account

def closeAccount (m : ConnectionManager) (account : String) : ConnectionManager :=
  let opens := (m.opening.get? account).toList
  { m with
    entries := m.entries.remove account
    opening := m.opening.remove account
    tasks := m.cancelAll opens
    closers := m.closers ++ [{ awaits := opens, connections := ((m.entries.get? account).map ConnectionEntry.connection).toList }] }

/-- The entries' connections, in the order of the entries. -/
def connectionsOf (entries : Table String ConnectionEntry) : List Nat := entries.entries.map fun e => e.2.connection

def evictIdle (m : ConnectionManager) (now : Int) : ConnectionManager :=
  let cutoff := now - m.idleSeconds
  { m with
    entries := m.entries.filter fun _ entry => !decide (entry.lastUsedAt < cutoff)
    closers := m.closers ++ [{ connections := connectionsOf (m.entries.filter fun _ entry => decide (entry.lastUsedAt < cutoff)) }] }

def shutdown (m : ConnectionManager) : ConnectionManager :=
  let opens := m.opening.entries.map Prod.snd
  { m with
    entries := ∅
    opening := ∅
    tasks := m.cancelAll opens
    closers := m.closers ++ [{ awaits := opens, connections := connectionsOf m.entries }] }

/-- An open goes to another `await`. -/
def goTo (m : ConnectionManager) (i : Nat) (task : OpenTask) (point : OpenPoint) : ConnectionManager :=
  { m with tasks := m.tasks.set i { task with point } }

/-- The `finally` of an open. -/
def finish (m : ConnectionManager) (i : Nat) (task : OpenTask) : ConnectionManager :=
  { m.goTo i task .done with opening := m.opening.remove task.account }

/-- The `except` of an open that has a connection, up to its `await`. -/
def fail (m : ConnectionManager) (i : Nat) (task : OpenTask) (connection : Nat) : ConnectionManager :=
  { m.goTo i task (.closing connection) with closed := m.closed ++ [connection] }

def resume (m : ConnectionManager) (i : Nat) (ok : Bool) (now : Int) (task : OpenTask) : Option ConnectionManager :=
  match task.point, task.cancelled with
  | .closing _, _ => some (m.finish i task)
  | .done, _ | _, true => none
  | .created, false => some (m.goTo i task .getAccount)
  | .getAccount, false =>
    some (if ok then { m.goTo i task (.connect m.connections) with connections := m.connections + 1 } else m.finish i task)
  | .connect c, false => some (if ok then m.goTo i task (.waitSynchronized c) else m.fail i task c)
  | .waitSynchronized c, false =>
    some (if ok then { m.finish i task with entries := m.entries.set (task.account, { connection := c, lastUsedAt := now }) }
      else m.fail i task c)

def throw (m : ConnectionManager) (i : Nat) (task : OpenTask) : Option ConnectionManager :=
  match task.point, task.cancelled with
  | .done, _ | _, false => none
  -- the coroutine never began, and neither did its `try`
  | .created, true => some (m.goTo i task .done)
  | .getAccount, true | .closing _, true => some (m.finish i task)
  | .connect c, true | .waitSynchronized c, true => some (m.fail i task c)

/-- All opens that a closer awaits have come to an end. -/
def HasAwaited (m : ConnectionManager) (closer : Closer) : Prop :=
  ∀ i ∈ closer.awaits, ∀ task ∈ m.tasks[i]?, ¬ task.IsRunning

instance (m : ConnectionManager) (closer : Closer) : Decidable (m.HasAwaited closer) :=
  inferInstanceAs (Decidable (∀ i ∈ closer.awaits, _))

def close (m : ConnectionManager) (i : Nat) (closer : Closer) : Option ConnectionManager :=
  match closer.connections with
  | [] => none
  | c :: rest =>
    if m.HasAwaited closer then
      some { m with closers := m.closers.set i { closer with connections := rest, called := true }, closed := m.closed ++ [c] }
    else none

/-- What is left of the loop over the connections is not done. -/
def raise (m : ConnectionManager) (i : Nat) (closer : Closer) : Option ConnectionManager :=
  if closer.called then some { m with closers := m.closers.set i { closer with connections := [] } } else none

def step (m : ConnectionManager) : ManagerLabel → Option ConnectionManager
  | .acquire account healthy now => some (m.acquire account healthy now)
  | .closeAccount account => some (m.closeAccount account)
  | .evictIdle now => some (m.evictIdle now)
  | .shutdown => some m.shutdown
  | .resume i ok now => m.tasks[i]?.bind (m.resume i ok now)
  | .throw i => m.tasks[i]?.bind (m.throw i)
  | .close i => m.closers[i]?.bind (m.close i)
  | .raise i => m.closers[i]?.bind (m.raise i)

/-! ## Where the connections are -/

/-- In how many places a connection is: in entries, with opens, with closers, and among
those `close` was called on. -/
def copies (m : ConnectionManager) (c : Nat) : Nat :=
  m.entries.total (fun entry => if entry.connection = c then 1 else 0) + (m.tasks.map (OpenTask.holds c)).sum +
    (m.closers.map fun closer => closer.connections.count c).sum + m.closed.count c

/-- What an open does next. -/
inductive Opens (m : ConnectionManager) (i : Nat) (task : OpenTask) : ConnectionManager → Prop
  | started (h : task.point = .created) (hc : task.cancelled = false) : Opens m i task (m.goTo i task .getAccount)
  | connecting (h : task.point = .getAccount) (hc : task.cancelled = false) :
    Opens m i task { m.goTo i task (.connect m.connections) with connections := m.connections + 1 }
  | connected (c : Nat) (h : task.point = .connect c) (hc : task.cancelled = false) :
    Opens m i task (m.goTo i task (.waitSynchronized c))
  | opened (c : Nat) (now : Int) (h : task.point = .waitSynchronized c) (hc : task.cancelled = false) :
    Opens m i task { m.finish i task with entries := m.entries.set (task.account, { connection := c, lastUsedAt := now }) }
  | failed (c : Nat) (h : task.point = .connect c ∨ task.point = .waitSynchronized c) : Opens m i task (m.fail i task c)
  | finished (h : task.point = .getAccount ∨ ∃ c, task.point = .closing c) : Opens m i task (m.finish i task)
  | dropped (h : task.point = .created) (hc : task.cancelled = true) : Opens m i task (m.goTo i task .done)

/-- The step writes over no entry, and leaves no connection behind one whose `close` raises. -/
def Keeps (m : ConnectionManager) : ManagerLabel → Prop
  | .resume i .. => ∀ task ∈ m.tasks[i]?, task.cancelled = false → task.point ≠ .done → m.entries.get? task.account = none
  | .raise i => ∀ closer ∈ m.closers[i]?, closer.connections = []
  | _ => True

variable {m m' m₀ : ConnectionManager} {a : ManagerLabel} {account : String} {i c : Nat} {task : OpenTask}

theorem count_connectionsOf (entries : Table String ConnectionEntry) :
    (connectionsOf entries).count c = entries.total fun entry => if entry.connection = c then 1 else 0 := by
  obtain ⟨entries, nodup⟩ := entries
  simp only [connectionsOf, Table.total]
  clear nodup
  induction entries with
  | nil => rfl
  | cons e entries ih =>
    rw [List.map_cons, List.map_cons, List.sum_cons, List.count_cons, ih, Nat.add_comm]
    simp only [beq_iff_eq]

theorem map_holds_cancelAll (m : ConnectionManager) (opens : List Nat) :
    (m.cancelAll opens).map (OpenTask.holds c) = m.tasks.map (OpenTask.holds c) := by
  refine List.ext_getElem? fun i => ?_
  simp only [cancelAll, List.getElem?_map, List.getElem?_mapIdx]
  cases m.tasks[i]? with
  | none => rfl
  | some task =>
    simp only [Option.map_some]
    split <;> rfl

theorem copies_openFor (m : ConnectionManager) (account : String) (c : Nat) : (m.openFor account).copies c = m.copies c := by
  unfold openFor
  split
  · rfl
  · simp only [copies, List.map_append, List.sum_append, List.map_singleton, List.sum_singleton]
    have hnew : OpenTask.holds c { account } = 0 := rfl
    rw [hnew, Nat.add_zero]

theorem copies_acquire (healthy : Nat → Bool) (now : Int) : (m.acquire account healthy now).copies c = m.copies c := by
  unfold acquire
  split
  · rename_i entry hentry
    split
    · have htotal := Table.total_modify (g := fun entry : ConnectionEntry => if entry.connection = c then 1 else 0)
        (f := fun e => { e with lastUsedAt := now }) hentry
      simp only [copies] at htotal ⊢
      omega
    · have htotal := Table.total_remove (g := fun entry : ConnectionEntry => if entry.connection = c then 1 else 0) hentry
      have hopen := copies_openFor { m with entries := m.entries.remove account } account c
      have hclosers : ({ m with entries := m.entries.remove account }.openFor account).closers = m.closers := by
        unfold openFor
        split <;> rfl
      simp only [copies, hclosers] at hopen ⊢
      simp only [List.map_append, List.sum_append, List.map_singleton, List.sum_singleton, List.count_singleton, beq_iff_eq]
      omega
  · exact copies_openFor m account c

theorem copies_closeAccount : (m.closeAccount account).copies c = m.copies c := by
  simp only [copies, closeAccount, map_holds_cancelAll, List.map_append, List.sum_append, List.map_singleton, List.sum_singleton]
  cases hentry : m.entries.get? account with
  | none =>
    rw [Table.remove_of_none hentry]
    rfl
  | some entry =>
    have htotal := Table.total_remove (g := fun entry : ConnectionEntry => if entry.connection = c then 1 else 0) hentry
    simp only [Option.map_some, Option.toList_some, List.count_singleton, beq_iff_eq]
    omega

theorem copies_evictIdle (now : Int) : (m.evictIdle now).copies c = m.copies c := by
  have htotal := Table.total_filter (t := m.entries) (g := fun entry => if entry.connection = c then 1 else 0)
    fun _ entry => decide (entry.lastUsedAt < now - m.idleSeconds)
  simp only [copies, evictIdle, List.map_append, List.sum_append, List.map_singleton, List.sum_singleton, count_connectionsOf]
  omega

theorem copies_shutdown : m.shutdown.copies c = m.copies c := by
  simp only [copies, shutdown, map_holds_cancelAll, List.map_append, List.sum_append, List.map_singleton, List.sum_singleton,
    count_connectionsOf, Table.total_empty]
  omega

theorem copies_goTo (h : m.tasks[i]? = some task) (point : OpenPoint) :
    (m.goTo i task point).copies c + task.holds c = m.copies c + { task with point }.holds c := by
  have hsum := sum_set (g := OpenTask.holds c) (b := { task with point }) h
  simp only [copies, goTo]
  omega

theorem copies_finish (h : m.tasks[i]? = some task) : (m.finish i task).copies c + task.holds c = m.copies c :=
  copies_goTo h .done

theorem copies_fail (h : m.tasks[i]? = some task) {c₀ : Nat} (hholds : task.holds c = if c₀ = c then 1 else 0) :
    (m.fail i task c₀).copies c = m.copies c := by
  have hgo := copies_goTo (c := c) h (.closing c₀)
  have hclosing : { task with point := OpenPoint.closing c₀ }.holds c = 0 := rfl
  simp only [copies, fail, goTo, List.count_append, List.count_singleton, beq_iff_eq] at hgo ⊢
  omega

theorem Opens.of_resume {ok : Bool} {now : Int} (hs : m.resume i ok now task = some m') : m.Opens i task m' := by
  obtain ⟨account, point, cancelled⟩ := task
  cases point with
  | created =>
    cases cancelled <;> cases hs
    exact .started rfl rfl
  | getAccount =>
    cases cancelled <;> cases ok <;> cases hs
    · exact .finished (.inl rfl)
    · exact .connecting rfl rfl
  | connect c =>
    cases cancelled <;> cases ok <;> cases hs
    · exact .failed c (.inl rfl)
    · exact .connected c rfl rfl
  | waitSynchronized c =>
    cases cancelled <;> cases ok <;> cases hs
    · exact .failed c (.inr rfl)
    · exact .opened c now rfl rfl
  | closing c =>
    cases cancelled <;> cases hs <;> exact .finished (.inr ⟨c, rfl⟩)
  | done => cases cancelled <;> cases hs

theorem Opens.of_throw (hs : m.throw i task = some m') : m.Opens i task m' ∧ task.cancelled = true := by
  obtain ⟨account, point, cancelled⟩ := task
  cases cancelled with
  | false => cases point <;> cases hs
  | true =>
    refine ⟨?_, rfl⟩
    cases point <;> cases hs
    · exact .dropped rfl rfl
    · exact .finished (.inl rfl)
    · exact .failed _ (.inl rfl)
    · exact .failed _ (.inr rfl)
    · exact .finished (.inr ⟨_, rfl⟩)

/-- An open takes its connection along: to its entry, or to `close`. -/
theorem Opens.copies (h : m.tasks[i]? = some task) (hs : m.Opens i task m') : ∃ gone made : List Nat,
    ((task.cancelled = false → task.point ≠ .done → m.entries.get? task.account = none) → gone = []) ∧
      (made = [] ∨ made = [m.connections]) ∧ m'.connections = m.connections + made.length ∧
      ∀ c, m'.copies c + gone.count c = m.copies c + made.count c := by
  have hgo (c : Nat) (point : OpenPoint) := copies_goTo (c := c) h point
  obtain ⟨account, point, cancelled⟩ := task
  cases hs with
  | started hpoint hc =>
    cases hpoint
    exact ⟨[], [], fun _ => rfl, .inl rfl, rfl, fun c => hgo c .getAccount⟩
  | connecting hpoint hc =>
    cases hpoint
    refine ⟨[], [m.connections], fun _ => rfl, .inr rfl, rfl, fun c => ?_⟩
    rw [List.count_singleton]
    simp only [beq_iff_eq]
    exact hgo c (.connect m.connections)
  | connected c₀ hpoint hc =>
    cases hpoint
    exact ⟨[], [], fun _ => rfl, .inl rfl, rfl, fun c => Nat.add_right_cancel (hgo c (.waitSynchronized c₀))⟩
  | opened c₀ now hpoint hc =>
    cases hpoint
    cases hc
    refine ⟨((m.entries.get? account).map ConnectionEntry.connection).toList, [], fun hkeep => ?_, .inl rfl, rfl, fun c => ?_⟩
    · have hnone : m.entries.get? account = none := hkeep rfl fun h => by cases h
      rw [hnone]
      rfl
    · have hfinish : (m.finish i ⟨account, .waitSynchronized c₀, false⟩).copies c + (if c₀ = c then 1 else 0) = m.copies c :=
        copies_finish h
      simp only [ConnectionManager.copies, finish, goTo] at hfinish ⊢
      cases hentry : m.entries.get? account with
      | none =>
        rw [Table.total_set_of_none hentry]
        simp only [Option.map_none, Option.toList_none, List.count_nil]
        omega
      | some entry =>
        have htotal := Table.total_set_of_some (g := fun entry : ConnectionEntry => if entry.connection = c then 1 else 0)
          (b := { connection := c₀, lastUsedAt := now }) hentry
        simp only [Option.map_some, Option.toList_some, List.count_singleton, List.count_nil, beq_iff_eq] at htotal ⊢
        omega
  | failed c₀ hpoint =>
    refine ⟨[], [], fun _ => rfl, .inl rfl, rfl, fun c => copies_fail h ?_⟩
    rcases hpoint with hpoint | hpoint <;> cases hpoint <;> rfl
  | finished hpoint =>
    refine ⟨[], [], fun _ => rfl, .inl rfl, rfl, fun c => ?_⟩
    have hnone : OpenTask.holds c ⟨account, point, cancelled⟩ = 0 := by
      rcases hpoint with hpoint | ⟨c₀, hpoint⟩ <;> cases hpoint <;> rfl
    have hfinish := copies_finish (c := c) h
    rw [hnone] at hfinish
    exact hfinish
  | dropped hpoint hc =>
    cases hpoint
    exact ⟨[], [], fun _ => rfl, .inl rfl, rfl, fun c => hgo c .done⟩

/-- What a step makes of the places: they stay, but for what is gone, and there may be a new
connection. -/
theorem copies_step (hs : m.step a = some m') : ∃ gone made : List Nat, (m.Keeps a → gone = []) ∧
    (made = [] ∨ made = [m.connections]) ∧ m'.connections = m.connections + made.length ∧
    ∀ c, m'.copies c + gone.count c = m.copies c + made.count c := by
  cases a with
  | acquire account healthy now =>
    cases hs
    refine ⟨[], [], fun _ => rfl, .inl rfl, ?_, fun c => copies_acquire healthy now⟩
    have hopen (m : ConnectionManager) : (m.openFor account).connections = m.connections := by
      unfold openFor
      split <;> rfl
    unfold acquire
    split
    · split
      · rfl
      · exact hopen _
    · exact hopen m
  | closeAccount account =>
    cases hs
    exact ⟨[], [], fun _ => rfl, .inl rfl, rfl, fun c => copies_closeAccount⟩
  | evictIdle now =>
    cases hs
    exact ⟨[], [], fun _ => rfl, .inl rfl, rfl, fun c => copies_evictIdle now⟩
  | shutdown =>
    cases hs
    exact ⟨[], [], fun _ => rfl, .inl rfl, rfl, fun c => copies_shutdown⟩
  | resume i ok now =>
    obtain ⟨task, htask, hs⟩ := Option.bind_eq_some_iff.mp hs
    obtain ⟨gone, made, hkeep, h⟩ := (Opens.of_resume hs).copies htask
    exact ⟨gone, made, fun hk => hkeep (hk task htask), h⟩
  | throw i =>
    obtain ⟨task, htask, hs⟩ := Option.bind_eq_some_iff.mp hs
    obtain ⟨hs, hcancelled⟩ := Opens.of_throw hs
    obtain ⟨gone, made, hkeep, h⟩ := hs.copies htask
    exact ⟨gone, made, fun _ => hkeep fun hnot => absurd hcancelled (by simp [hnot]), h⟩
  | close i =>
    obtain ⟨closer, hcloser, hs⟩ := Option.bind_eq_some_iff.mp hs
    obtain ⟨awaits, connections, called⟩ := closer
    simp only [close] at hs
    split at hs
    · cases hs
    · split at hs
      · rename_i c₀ rest hawaited
        cases hs
        refine ⟨[], [], fun _ => rfl, .inl rfl, rfl, fun c => ?_⟩
        have hsum := sum_set (g := fun closer : Closer => closer.connections.count c)
          (b := { awaits, connections := rest, called := true }) hcloser
        simp only [copies, List.count_nil, List.count_append, List.count_cons] at hsum ⊢
        omega
      · cases hs
  | raise i =>
    obtain ⟨closer, hcloser, hs⟩ := Option.bind_eq_some_iff.mp hs
    simp only [raise] at hs
    split at hs
    · cases hs
      refine ⟨closer.connections, [], fun hk => hk closer hcloser, .inl rfl, rfl, fun c => ?_⟩
      have hsum := sum_set (g := fun closer : Closer => closer.connections.count c)
        (b := { closer with connections := [] }) hcloser
      simp only [copies, List.count_nil] at hsum ⊢
      omega
    · cases hs

/-! ## The registered opens -/

/-- A registered open goes on and is not cancelled. -/
def Registered (m : ConnectionManager) : Prop :=
  ∀ account i, m.opening.get? account = some i →
    ∃ task, m.tasks[i]? = some task ∧ task.account = account ∧ task.IsRunning ∧ task.cancelled = false

theorem getElem?_cancelAll (opens : List Nat) (j : Nat) :
    (m.cancelAll opens)[j]? = m.tasks[j]?.map fun task => if j ∈ opens then task.cancel else task := List.getElem?_mapIdx

theorem getElem?_goTo (h : m.tasks[i]? = some task) (point : OpenPoint) (j : Nat) :
    (m.goTo i task point).tasks[j]? = if i = j then some { task with point } else m.tasks[j]? := by
  have hlt := (List.getElem?_eq_some_iff.mp h).1
  rw [goTo, List.getElem?_set, if_pos hlt]

theorem Registered.goTo (hm : m.Registered) (h : m.tasks[i]? = some task) {point : OpenPoint}
    (hpoint : task.cancelled = false → point ≠ .done) : (m.goTo i task point).Registered := by
  intro account j hj
  obtain ⟨old, hold, haccount, hrunning, hnot⟩ := hm account j hj
  rw [getElem?_goTo h]
  split
  · rename_i hij
    subst hij
    cases h.symm.trans hold
    exact ⟨_, rfl, haccount, hpoint hnot, hnot⟩
  · exact ⟨old, hold, haccount, hrunning, hnot⟩

theorem Registered.finish (hm : m.Registered) (h : m.tasks[i]? = some task) : (m.finish i task).Registered := by
  intro account j hj
  change (m.opening.remove task.account).get? account = some j at hj
  rw [Table.get?_remove] at hj
  split at hj
  · cases hj
  · rename_i hne
    obtain ⟨old, hold, haccount, hrunning, hnot⟩ := hm account j hj
    refine ⟨old, ?_, haccount, hrunning, hnot⟩
    have hij : i ≠ j := by
      rintro rfl
      cases h.symm.trans hold
      exact hne haccount.symm
    change (m.goTo i task .done).tasks[j]? = some old
    rw [getElem?_goTo h, if_neg hij, hold]

theorem Registered.opens (hm : m.Registered) (h : m.tasks[i]? = some task) (hs : m.Opens i task m') : m'.Registered := by
  cases hs with
  | started | connecting | connected | failed => exact hm.goTo h fun _ h => by cases h
  | opened | finished => exact hm.finish h
  | dropped _ hc => exact hm.goTo h fun hnot => absurd hc (by simp [hnot])

theorem Registered.openFor (hm : m.Registered) (account : String) : (m.openFor account).Registered := by
  unfold ConnectionManager.openFor
  split
  · exact hm
  · rename_i hnone
    intro account' j hj
    simp only [Table.get?_add] at hj
    rcases Option.or_eq_some_iff.mp hj with hj | ⟨-, hj⟩
    · obtain ⟨old, hold, hrest⟩ := hm account' j hj
      exact ⟨old, List.getElem?_append_left (List.getElem?_eq_some_iff.mp hold).1 ▸ hold, hrest⟩
    · split at hj
      · rename_i haccount
        cases hj
        exact ⟨{ account }, List.getElem?_concat_length, haccount.symm, (by decide : OpenPoint.created ≠ .done), rfl⟩
      · cases hj

/-- Opens that are cancelled are taken off the register. -/
theorem Registered.cancel (hm : m.Registered) {opens : List Nat} {opening : Table String Nat}
    (h : ∀ account i, opening.get? account = some i → m.opening.get? account = some i ∧ i ∉ opens) {m' : ConnectionManager}
    (htasks : m'.tasks = m.cancelAll opens) (hopening : m'.opening = opening) : m'.Registered := by
  intro account i hi
  obtain ⟨hi, hnot⟩ := h account i (hopening ▸ hi)
  obtain ⟨task, htask, hrest⟩ := hm account i hi
  refine ⟨task, ?_, hrest⟩
  rw [htasks, getElem?_cancelAll, htask, Option.map_some, if_neg hnot]

theorem Registered.closeAccount (hm : m.Registered) (account : String) : (m.closeAccount account).Registered := by
  have hothers (account' : String) (i : Nat) (hi : (m.opening.remove account).get? account' = some i) :
      m.opening.get? account' = some i ∧ i ∉ (m.opening.get? account).toList := ?_
  · exact hm.cancel hothers rfl rfl
  rw [Table.get?_remove] at hi
  split at hi
  · cases hi
  · rename_i hne
    refine ⟨hi, fun hmem => hne ?_⟩
    obtain ⟨task, htask, haccount, -⟩ := hm account' i hi
    obtain ⟨task', htask', haccount', -⟩ := hm account i (Option.mem_toList.mp hmem)
    cases htask.symm.trans htask'
    exact haccount.symm.trans haccount'

theorem Registered.step (hm : m.Registered) (hs : m.step a = some m') : m'.Registered := by
  cases a with
  | acquire account healthy now =>
    cases hs
    unfold acquire
    split
    · split
      · exact hm
      · exact Registered.openFor (m := { m with entries := m.entries.remove account }) hm account
    · exact hm.openFor account
  | closeAccount account =>
    cases hs
    exact hm.closeAccount account
  | evictIdle now =>
    cases hs
    exact hm
  | shutdown =>
    cases hs
    have hnone (account : String) (i : Nat) (hi : (∅ : Table String Nat).get? account = some i) :
        m.opening.get? account = some i ∧ i ∉ m.opening.entries.map Prod.snd := by cases hi
    exact hm.cancel hnone rfl rfl
  | resume i ok now =>
    obtain ⟨task, htask, hs⟩ := Option.bind_eq_some_iff.mp hs
    exact hm.opens htask (Opens.of_resume hs)
  | throw i =>
    obtain ⟨task, htask, hs⟩ := Option.bind_eq_some_iff.mp hs
    exact hm.opens htask (Opens.of_throw hs).1
  | close i =>
    obtain ⟨closer, -, hs⟩ := Option.bind_eq_some_iff.mp hs
    simp only [close] at hs
    split at hs
    · cases hs
    · split at hs <;> cases hs
      exact hm
  | raise i =>
    obtain ⟨closer, -, hs⟩ := Option.bind_eq_some_iff.mp hs
    simp only [raise] at hs
    split at hs <;> cases hs
    exact hm

/-! ## Every run -/

/-- A connection is in one place at most, and in none before it is made. -/
def Apart (m : ConnectionManager) : Prop := ∀ c, m.copies c ≤ if c < m.connections then 1 else 0

theorem Apart.step (hm : m.Apart) (hs : m.step a = some m') : m'.Apart := by
  intro c
  obtain ⟨gone, made, -, hmade, hconnections, hcopies⟩ := copies_step hs
  have hbefore := hm c
  have hafter := hcopies c
  rw [hconnections]
  rcases hmade with rfl | rfl
  · simp only [List.count_nil, List.length_nil, Nat.add_zero] at hafter ⊢
    omega
  · simp only [List.count_singleton, List.length_singleton, beq_iff_eq] at hafter ⊢
    split_ifs at * <;> omega

theorem reach_apart {idleSeconds : Int} (h : Reach step always { idleSeconds } m) : m.Apart ∧ m.Registered := by
  refine h.invariant (P := fun m => m.Apart ∧ m.Registered) ⟨fun c => ?_, fun account i hi => ?_⟩ fun m a m' hm _ hs =>
    ⟨hm.1.step hs, hm.2.step hs⟩
  · exact Nat.zero_le _
  · cases hi

/-- In every run no connection is closed twice, the connections of entries are different ones
and were never closed, and a registered open goes on and is not cancelled. -/
theorem closed_nodup {idleSeconds : Int} (h : Reach step always { idleSeconds } m) :
    m.closed.Nodup ∧ (connectionsOf m.entries).Nodup ∧ (∀ c ∈ connectionsOf m.entries, c ∉ m.closed) ∧ m.Registered := by
  obtain ⟨hapart, hregistered⟩ := reach_apart h
  have hle (c : Nat) : (connectionsOf m.entries).count c + m.closed.count c ≤ 1 := by
    have hc := hapart c
    rw [copies, ← count_connectionsOf] at hc
    split_ifs at hc <;> omega
  refine ⟨List.nodup_iff_count_le_one.mpr fun c => ?_, List.nodup_iff_count_le_one.mpr fun c => ?_, fun c hc hclosed => ?_, hregistered⟩
  · exact (Nat.le_add_left _ _).trans (hle c)
  · exact (Nat.le_add_right _ _).trans (hle c)
  · have hc := List.count_pos_iff.mpr hc
    have hclosed := List.count_pos_iff.mpr hclosed
    have hle := hle c
    omega

/-- An account is opened, its connection is lost, and it is opened again. -/
def reopening : List ManagerLabel :=
  .acquire "1" (fun _ => true) 0 :: List.replicate 4 (.resume 0 true 0) ++
    .acquire "1" (fun c => c ≠ 0) 5 :: .close 0 :: List.replicate 4 (.resume 1 true 5)

theorem closed_nodup_reopening : ∃ m, Reach step always { idleSeconds := 600 } m ∧ m.closed = [0] ∧ connectionsOf m.entries = [1] ∧
    m.closed.Nodup ∧ (connectionsOf m.entries).Nodup ∧ (∀ c ∈ connectionsOf m.entries, c ∉ m.closed) ∧ m.Registered := by
  have hrun : ((run step { idleSeconds := 600 } reopening).map fun m => (m.closed, connectionsOf m.entries)) = some ([0], [1]) := by
    decide +kernel
  obtain ⟨m, hm, hplaces⟩ := Option.map_eq_some_iff.mp hrun
  obtain ⟨hclosed, hentries⟩ := Prod.mk.inj hplaces
  exact ⟨m, .of_run hm, hclosed, hentries, closed_nodup (.of_run hm)⟩

/-! ## Runs in which cancelled opens end first -/

/-- No open begins behind a cancelled one of its account that has not ended, and no `close`
raises with connections behind it. -/
def Clean (m : ConnectionManager) : ManagerLabel → Prop
  | .acquire account _ _ => ∀ task ∈ m.tasks, task.account = account → task.cancelled → ¬ task.IsRunning
  | .raise i => ∀ closer ∈ m.closers[i]?, closer.connections = []
  | _ => True

instance (m : ConnectionManager) (a : ManagerLabel) : Decidable (m.Clean a) :=
  match a with
  | .acquire account _ _ => inferInstanceAs (Decidable (∀ task ∈ m.tasks, task.account = account → task.cancelled → ¬ task.IsRunning))
  | .raise i => inferInstanceAs (Decidable (∀ closer ∈ m.closers[i]?, closer.connections = []))
  | .closeAccount _ | .evictIdle _ | .shutdown | .resume .. | .throw _ | .close _ => isTrue trivial

/-- One open at most goes on for an account, it is registered unless it is cancelled, and
while it is there is no entry. -/
structure Single (m : ConnectionManager) : Prop where
  registered : m.Registered
  unique : ∀ (i j : Nat) (task task' : OpenTask), m.tasks[i]? = some task → m.tasks[j]? = some task' → task.IsRunning →
    task'.IsRunning → task.account = task'.account → i = j
  found : ∀ (i : Nat) (task : OpenTask), m.tasks[i]? = some task → task.IsRunning → task.cancelled = false →
    m.opening.get? task.account = some i
  cold : ∀ account i, m.opening.get? account = some i → m.entries.get? account = none

/-- The entries of a registered account are not there, so that none is written over. -/
theorem Single.keeps (hm : m.Single) (hclean : m.Clean a) : m.Keeps a := by
  cases a with
  | resume i ok now => exact fun task htask hnot hrunning => hm.cold _ i (hm.found i task htask hrunning hnot)
  | raise i => exact hclean
  | _ => trivial

theorem Single.goTo (hm : m.Single) (h : m.tasks[i]? = some task) {point : OpenPoint} (hrunning : task.IsRunning)
    (hpoint : task.cancelled = false → point ≠ .done) : (m.goTo i task point).Single where
  registered := hm.registered.goTo h hpoint
  unique j k t t' hj hk hr hr' ha := by
    rw [getElem?_goTo h] at hj hk
    split at hj <;> split at hk
    · rename_i hij hik
      exact hij.symm.trans hik
    · rename_i hij _
      cases hj
      exact hij.symm.trans (hm.unique i k task t' h hk hrunning hr' ha)
    · rename_i _ hik
      cases hk
      exact (hm.unique j i t task hj h hr hrunning ha).trans hik
    · exact hm.unique j k t t' hj hk hr hr' ha
  found j t hj hr hnot := by
    rw [getElem?_goTo h] at hj
    split at hj
    · rename_i hij
      cases hj
      exact hij ▸ hm.found i task h hrunning hnot
    · exact hm.found j t hj hr hnot
  cold := hm.cold

/-- An open that ends; what it opened is in the entry, where there was none. -/
theorem Single.finish (hm : m.Single) (h : m.tasks[i]? = some task) (hrunning : task.IsRunning) {entries : Table String ConnectionEntry}
    (hentries : ∀ account, account ≠ task.account → entries.get? account = m.entries.get? account) :
    Single { m.finish i task with entries } where
  registered := hm.registered.finish h
  unique j k t t' hj hk hr hr' ha := by
    replace hj : (m.goTo i task .done).tasks[j]? = some t := hj
    replace hk : (m.goTo i task .done).tasks[k]? = some t' := hk
    rw [getElem?_goTo h] at hj hk
    split at hj
    · cases hj
      exact absurd rfl hr
    · split at hk
      · cases hk
        exact absurd rfl hr'
      · exact hm.unique j k t t' hj hk hr hr' ha
  found j t hj hr hnot := by
    replace hj : (m.goTo i task .done).tasks[j]? = some t := hj
    rw [getElem?_goTo h] at hj
    split at hj
    · cases hj
      exact absurd rfl hr
    · rename_i hij
      have haccount : t.account ≠ task.account := fun ha => hij (hm.unique i j task t h hj hrunning hr ha.symm)
      show (m.opening.remove task.account).get? t.account = some j
      rw [Table.get?_remove, if_neg haccount]
      exact hm.found j t hj hr hnot
  cold account j hj := by
    change (m.opening.remove task.account).get? account = some j at hj
    rw [Table.get?_remove] at hj
    split at hj
    · cases hj
    · rename_i hne
      exact (hentries account hne).trans (hm.cold account j hj)

theorem Single.opens (hm : m.Single) (h : m.tasks[i]? = some task) (hs : m.Opens i task m') : m'.Single := by
  have hrunning {point : OpenPoint} (hpoint : task.point = point) (hne : point ≠ .done) : task.IsRunning := fun h => hne (hpoint ▸ h)
  cases hs with
  | started hpoint | connected _ hpoint => exact hm.goTo h (hrunning hpoint (fun h => by cases h)) fun _ h => by cases h
  | connecting hpoint =>
    have hgo : (m.goTo i task (.connect m.connections)).Single :=
      hm.goTo h (hrunning hpoint (fun h => by cases h)) fun _ h => by cases h
    exact ⟨hgo.registered, hgo.unique, hgo.found, hgo.cold⟩
  | opened c now hpoint =>
    refine hm.finish h (hrunning hpoint fun h => by cases h) fun account hne => ?_
    rw [Table.set, Table.get?_upsert, if_neg hne]
  | failed c hpoint =>
    have hr : task.IsRunning := hpoint.elim (fun hp => hrunning hp fun h => by cases h) fun hp => hrunning hp fun h => by cases h
    have hgo : (m.goTo i task (.closing c)).Single := hm.goTo h hr fun _ h => by cases h
    exact ⟨hgo.registered, hgo.unique, hgo.found, hgo.cold⟩
  | finished hpoint =>
    refine hm.finish h ?_ fun _ _ => rfl
    rcases hpoint with hp | ⟨c, hp⟩
    · exact hrunning hp fun h => by cases h
    · exact hrunning hp fun h => by cases h
  | dropped hpoint hc => exact hm.goTo h (hrunning hpoint fun h => by cases h) fun hnot => absurd hc (by simp [hnot])

/-- Opens that are cancelled; entries may go. -/
theorem Single.cancel (hm : m.Single) {opens : List Nat} (hregistered : m'.Registered) (htasks : m'.tasks = m.cancelAll opens)
    (hfound : ∀ account i, m.opening.get? account = some i → i ∉ opens → m'.opening.get? account = some i)
    (hcold : ∀ account i, m'.opening.get? account = some i → m'.entries.get? account = none) : m'.Single where
  registered := hregistered
  unique i j t t' hi hj hr hr' ha := by
    rw [htasks, getElem?_cancelAll, Option.map_eq_some_iff] at hi hj
    obtain ⟨old, hold, rfl⟩ := hi
    obtain ⟨old', hold', rfl⟩ := hj
    have hpoint (k : Nat) (o : OpenTask) : (if k ∈ opens then o.cancel else o).point = o.point ∧
        (if k ∈ opens then o.cancel else o).account = o.account := by split <;> exact ⟨rfl, rfl⟩
    simp only [OpenTask.IsRunning, hpoint] at hr hr' ha
    exact hm.unique i j old old' hold hold' hr hr' ha
  found i t hi hr hnot := by
    rw [htasks, getElem?_cancelAll, Option.map_eq_some_iff] at hi
    obtain ⟨old, hold, rfl⟩ := hi
    by_cases hmem : i ∈ opens
    · rw [if_pos hmem] at hnot
      cases hnot
    · rw [if_neg hmem] at hr hnot ⊢
      exact hfound old.account i (hm.found i old hold hr hnot) hmem
  cold := hcold

theorem Single.openFor (hm : m.Single) {account : String} (hentries : m.entries.get? account = none)
    (hclean : ∀ task ∈ m.tasks, task.account = account → task.cancelled → ¬ task.IsRunning) : (m.openFor account).Single := by
  have hregistered := hm.registered.openFor account
  unfold ConnectionManager.openFor at hregistered ⊢
  split at hregistered
  · exact hm
  · rename_i hnone
    -- no open of the account goes on, be it cancelled or not
    have hended (j : Nat) (t : OpenTask) (hj : m.tasks[j]? = some t) (ha : t.account = account) : ¬ t.IsRunning := by
      intro hr
      cases hc : t.cancelled with
      | true => exact hclean t (List.mem_of_getElem? hj) ha hc hr
      | false => cases hnone.symm.trans (ha ▸ hm.found j t hj hr hc)
    have hcases (j : Nat) (t : OpenTask) (hj : (m.tasks ++ [OpenTask.mk account .created false])[j]? = some t) :
        m.tasks[j]? = some t ∨ j = m.tasks.length ∧ t = OpenTask.mk account .created false := (getElem?_concat_cases hj).symm
    refine ⟨hregistered, fun j k t t' hj hk hr hr' ha => ?_, fun j t hj hr hnot => ?_, fun account' j hj => ?_⟩
    · rcases hcases j t hj with hj | ⟨rfl, rfl⟩ <;> rcases hcases k t' hk with hk | ⟨rfl, rfl⟩
      · exact hm.unique j k t t' hj hk hr hr' ha
      · exact absurd hr (hended j t hj ha)
      · exact absurd hr' (hended k t' hk ha.symm)
      · rfl
    · rw [Table.get?_add]
      rcases hcases j t hj with hj | ⟨rfl, rfl⟩
      · rw [hm.found j t hj hr hnot, Option.some_or]
      · rw [hnone, if_pos rfl, Option.none_or]
    · rw [Table.get?_add] at hj
      rcases Option.or_eq_some_iff.mp hj with hj | ⟨-, hj⟩
      · exact hm.cold account' j hj
      · split at hj
        · rename_i ha
          exact ha ▸ hentries
        · cases hj

theorem Single.step (hm : m.Single) (hclean : m.Clean a) (hs : m.step a = some m') : m'.Single := by
  cases a with
  | acquire account healthy now =>
    cases hs
    unfold acquire
    split
    · rename_i entry hentry
      split
      · refine ⟨hm.registered, hm.unique, hm.found, fun account' j hj => ?_⟩
        rw [Table.get?_modify, hm.cold account' j hj]
        split <;> rfl
      · have hremoved : Single { m with entries := m.entries.remove account } := by
          refine ⟨hm.registered, hm.unique, hm.found, fun account' j hj => ?_⟩
          rw [Table.get?_remove, hm.cold account' j hj]
          split <;> rfl
        have hgone : (m.entries.remove account).get? account = none := by rw [Table.get?_remove, if_pos rfl]
        have hopen := hremoved.openFor hgone hclean
        exact ⟨hopen.registered, hopen.unique, hopen.found, hopen.cold⟩
    · rename_i hnone
      exact hm.openFor hnone hclean
  | closeAccount account =>
    cases hs
    refine hm.cancel (hm.registered.closeAccount account) rfl (fun account' i hi hnot => ?_) fun account' i hi => ?_
    · have hne : account' ≠ account := fun he => hnot (by rw [← he, hi]; exact List.mem_singleton.mpr rfl)
      exact (Table.get?_remove.trans (if_neg hne)).trans hi
    · simp only [ConnectionManager.closeAccount, Table.get?_remove] at hi ⊢
      split at hi
      · cases hi
      · rename_i hne
        rw [if_neg hne, hm.cold account' i hi]
  | evictIdle now =>
    cases hs
    refine ⟨hm.registered, hm.unique, hm.found, fun account j hj => ?_⟩
    simp only [ConnectionManager.evictIdle, Table.get?_filter, hm.cold account j hj, Option.filter_none]
  | shutdown =>
    cases hs
    refine hm.cancel (hm.registered.step (a := .shutdown) rfl) rfl (fun account i hi hnot => ?_) fun account i hi => rfl
    exact absurd (List.mem_map.mpr ⟨_, Table.get?_eq_some.1 hi, rfl⟩) hnot
  | resume i ok now =>
    obtain ⟨task, htask, hs⟩ := Option.bind_eq_some_iff.mp hs
    exact hm.opens htask (Opens.of_resume hs)
  | throw i =>
    obtain ⟨task, htask, hs⟩ := Option.bind_eq_some_iff.mp hs
    exact hm.opens htask (Opens.of_throw hs).1
  | close i =>
    obtain ⟨closer, -, hs⟩ := Option.bind_eq_some_iff.mp hs
    simp only [close] at hs
    split at hs
    · cases hs
    · split at hs <;> cases hs
      exact ⟨hm.registered, hm.unique, hm.found, hm.cold⟩
  | raise i =>
    obtain ⟨closer, -, hs⟩ := Option.bind_eq_some_iff.mp hs
    simp only [raise] at hs
    split at hs <;> cases hs
    exact ⟨hm.registered, hm.unique, hm.found, hm.cold⟩

/-- Every connection that was made is in one place, and in one only. -/
def Conserved (m : ConnectionManager) : Prop := ∀ c, m.copies c = if c < m.connections then 1 else 0

theorem Conserved.step (hm : m.Conserved) (hkeeps : m.Keeps a) (hs : m.step a = some m') : m'.Conserved := by
  intro c
  obtain ⟨gone, made, hgone, hmade, hconnections, hcopies⟩ := copies_step hs
  have hbefore := hm c
  have hafter := hcopies c
  rw [hgone hkeeps, List.count_nil, Nat.add_zero, hbefore] at hafter
  rw [hafter, hconnections]
  rcases hmade with rfl | rfl
  · rfl
  · rw [List.count_singleton, List.length_singleton]
    simp only [beq_iff_eq]
    split_ifs <;> omega

theorem reach_single {idleSeconds : Int} (h : Reach step Clean { idleSeconds } m) : m.Single ∧ m.Conserved := by
  refine h.invariant (P := fun m => m.Single ∧ m.Conserved) ⟨?_, fun c => ?_⟩ fun m a m' hm hclean hs =>
    ⟨hm.1.step hclean hs, hm.2.step (hm.1.keeps hclean) hs⟩
  · refine ⟨fun account i hi => ?_, fun i j task task' hi => ?_, fun i task hi => ?_, fun account i hi => ?_⟩ <;> cases hi
  · rfl

/-- While the steps are clean, one open runs for an account, and every connection is in one
place: an entry, an open, a closer, or those that `close` was called on. -/
theorem copies_eq_one {idleSeconds : Int} (h : Reach step Clean { idleSeconds } m) :
    (∀ (i j : Nat) (task task' : OpenTask), m.tasks[i]? = some task → m.tasks[j]? = some task' → task.IsRunning → task'.IsRunning →
      task.account = task'.account → i = j) ∧ ∀ c < m.connections, m.copies c = 1 := by
  obtain ⟨hsingle, hconserved⟩ := reach_single h
  exact ⟨hsingle.unique, fun c hc => (hconserved c).trans (if_pos hc)⟩

theorem copies_eq_one_reopening : ∃ m, Reach step Clean { idleSeconds := 600 } m ∧ m.connections = 2 ∧
    (∀ (i j : Nat) (task task' : OpenTask), m.tasks[i]? = some task → m.tasks[j]? = some task' → task.IsRunning → task'.IsRunning →
      task.account = task'.account → i = j) ∧ ∀ c < m.connections, m.copies c = 1 := by
  have hrun : ((runIf step Clean { idleSeconds := 600 } reopening).map ConnectionManager.connections) = some 2 := by decide +kernel
  obtain ⟨m, hm, hmade⟩ := Option.map_eq_some_iff.mp hrun
  exact ⟨m, .of_runIf hm, hmade, copies_eq_one (.of_runIf hm)⟩

/-! ## After a shutdown -/

/-- Nothing is open, and no open can get to its entry. -/
def Shut (m : ConnectionManager) : Prop :=
  (∀ account, m.entries.get? account = none) ∧ ∀ task ∈ m.tasks, task.IsRunning → task.cancelled

theorem Shut.goTo (hm : m.Shut) (h : m.tasks[i]? = some task) (hrunning : task.IsRunning) (point : OpenPoint) :
    (m.goTo i task point).Shut := by
  refine ⟨hm.1, fun t ht hr => ?_⟩
  obtain ⟨j, hj⟩ := List.getElem?_of_mem ht
  rw [getElem?_goTo h] at hj
  split at hj
  · cases hj
    exact hm.2 task (List.mem_of_getElem? h) hrunning
  · exact hm.2 t (List.mem_of_getElem? hj) hr

theorem Shut.opens (hm : m.Shut) (h : m.tasks[i]? = some task) (hs : m.Opens i task m') : m'.Shut := by
  have hrunning {point : OpenPoint} (hpoint : task.point = point) (hne : point ≠ .done) : task.IsRunning := fun h => hne (hpoint ▸ h)
  have hcancelled {point : OpenPoint} (hpoint : task.point = point) (hne : point ≠ .done) (hnot : task.cancelled = false) : False := by
    have hc := hm.2 task (List.mem_of_getElem? h) (hrunning hpoint hne)
    simp [hnot] at hc
  cases hs with
  | started hpoint hc | connecting hpoint hc | connected _ hpoint hc | opened _ _ hpoint hc =>
    exact absurd (hcancelled hpoint (fun h => by cases h) hc) id
  | failed c hpoint =>
    have hr : task.IsRunning := hpoint.elim (fun hp => hrunning hp fun h => by cases h) fun hp => hrunning hp fun h => by cases h
    exact hm.goTo h hr (.closing c)
  | finished hpoint =>
    have hr : task.IsRunning := by
      rcases hpoint with hp | ⟨c, hp⟩
      · exact hrunning hp fun h => by cases h
      · exact hrunning hp fun h => by cases h
    exact hm.goTo h hr .done
  | dropped hpoint => exact hm.goTo h (hrunning hpoint fun h => by cases h) .done

def IsAcquire : ManagerLabel → Prop
  | .acquire .. => True
  | _ => False

theorem Shut.cancel (hm : ∀ task ∈ m.tasks, task.IsRunning → task.cancelled) (opens : List Nat) :
    ∀ task ∈ m.cancelAll opens, task.IsRunning → task.cancelled := by
  intro task htask hr
  obtain ⟨j, hj⟩ := List.getElem?_of_mem htask
  rw [getElem?_cancelAll, Option.map_eq_some_iff] at hj
  obtain ⟨old, hold, rfl⟩ := hj
  split at hr
  · rename_i hmem
    rw [if_pos hmem]
    rfl
  · rename_i hmem
    rw [if_neg hmem]
    exact hm old (List.mem_of_getElem? hold) hr

theorem Shut.step (hm : m.Shut) (hacquire : ¬ IsAcquire a) (hs : m.step a = some m') : m'.Shut := by
  cases a with
  | acquire account healthy now => exact absurd trivial hacquire
  | closeAccount account =>
    cases hs
    refine ⟨fun account' => ?_, cancel hm.2 _⟩
    rw [closeAccount, Table.get?_remove, hm.1]
    exact ite_self none
  | evictIdle now =>
    cases hs
    refine ⟨fun account => ?_, hm.2⟩
    rw [evictIdle, Table.get?_filter, hm.1]
    rfl
  | shutdown =>
    cases hs
    exact ⟨fun account => rfl, cancel hm.2 _⟩
  | resume i ok now =>
    obtain ⟨task, htask, hs⟩ := Option.bind_eq_some_iff.mp hs
    exact hm.opens htask (Opens.of_resume hs)
  | throw i =>
    obtain ⟨task, htask, hs⟩ := Option.bind_eq_some_iff.mp hs
    exact hm.opens htask (Opens.of_throw hs).1
  | close i =>
    obtain ⟨closer, -, hs⟩ := Option.bind_eq_some_iff.mp hs
    simp only [close] at hs
    split at hs
    · cases hs
    · split at hs <;> cases hs
      exact hm
  | raise i =>
    obtain ⟨closer, -, hs⟩ := Option.bind_eq_some_iff.mp hs
    simp only [raise] at hs
    split at hs <;> cases hs
    exact hm

theorem Single.shut_shutdown (hm : m.Single) : m.shutdown.Shut := by
  refine ⟨fun account => rfl, fun task htask hr => ?_⟩
  obtain ⟨j, hj⟩ := List.getElem?_of_mem htask
  have hshut := hm.step (a := .shutdown) trivial rfl
  cases hc : task.cancelled with
  | true => rfl
  | false => cases hshut.found j task hj hr hc

/-- After a shutdown in a run of clean steps, and until something is acquired again, there are
no entries. Once the opens and the closers have come to their ends, `close` was called on every
connection. -/
theorem shut {idleSeconds : Int} (h : Reach step Clean { idleSeconds } m)
    (h' : Reach step (fun m a => m.Clean a ∧ ¬ IsAcquire a) m.shutdown m') :
    (∀ account, m'.entries.get? account = none) ∧
      ((∀ task ∈ m'.tasks, ¬ task.IsRunning) → (∀ closer ∈ m'.closers, closer.connections = []) →
        ∀ c < m'.connections, c ∈ m'.closed) := by
  have hfrom : Reach step Clean { idleSeconds } m.shutdown := h.tail (a := .shutdown) trivial rfl
  have hconserved := (reach_single (hfrom.trans (h'.mono fun _ _ hok => hok.1))).2
  have hshut : m'.Shut := h'.invariant (reach_single h).1.shut_shutdown fun m a m' hm hok hs => hm.step hok.2 hs
  refine ⟨hshut.1, fun htasks hclosers c hc => ?_⟩
  have hentries : m'.entries.entries = [] := by
    rcases hlist : m'.entries.entries with _ | ⟨e, rest⟩
    · rfl
    · have he : (e.1, e.2) ∈ m'.entries.entries := by rw [hlist]; exact List.mem_cons_self
      cases (hshut.1 e.1).symm.trans (Table.get?_eq_some.2 he)
  have hheld : (m'.tasks.map (OpenTask.holds c)).sum = 0 := by
    refine List.sum_eq_zero fun n hn => ?_
    obtain ⟨task, htask, rfl⟩ := List.mem_map.mp hn
    have hdone : task.point = .done := not_not.mp (htasks task htask)
    rw [OpenTask.holds, hdone]
  have hqueued : (m'.closers.map fun closer => closer.connections.count c).sum = 0 := by
    refine List.sum_eq_zero fun n hn => ?_
    obtain ⟨closer, hcloser, rfl⟩ := List.mem_map.mp hn
    rw [hclosers closer hcloser, List.count_nil]
  have hone := hconserved c
  rw [if_pos hc, copies, Table.total, hentries, hheld, hqueued] at hone
  refine List.count_pos_iff.mp ?_
  simp only [List.map_nil, List.sum_nil, Nat.zero_add] at hone
  omega

instance (a : ManagerLabel) : Decidable (IsAcquire a) :=
  match a with
  | .acquire .. => isTrue trivial
  | .closeAccount _ | .evictIdle _ | .shutdown | .resume .. | .throw _ | .close _ | .raise _ => isFalse id

/-- A shutdown while an account is opened again: the open is cancelled in its connection. -/
theorem shut_reopening : ∃ m m', Reach step Clean { idleSeconds := 600 } m ∧
    Reach step (fun m a => m.Clean a ∧ ¬ IsAcquire a) m.shutdown m' ∧ (∀ account, m'.entries.get? account = none) ∧
      ((∀ task ∈ m'.tasks, ¬ task.IsRunning) → (∀ closer ∈ m'.closers, closer.connections = []) →
        ∀ c < m'.connections, c ∈ m'.closed) := by
  have hrun : (runIf step Clean { idleSeconds := 600 } (reopening.take 9)).any (fun m =>
      (runIf step (fun m a => m.Clean a ∧ ¬ IsAcquire a) m.shutdown [.throw 1, .resume 1 true 6]).isSome) = true := by
    decide +kernel
  obtain ⟨hm, hshut⟩ := (Option.any_eq_true_iff_get _ _).mp hrun
  obtain ⟨m', hm'⟩ := Option.isSome_iff_exists.mp hshut
  have h := Reach.of_runIf (Option.some_get hm).symm
  exact ⟨_, m', h, .of_runIf hm', shut h (.of_runIf hm')⟩

end ConnectionManager

end SignalSync
