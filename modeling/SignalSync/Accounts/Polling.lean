import Mathlib.Algebra.Order.Archimedean.Basic
import Mathlib.Data.Rat.Floor
import SignalSync.Execution.Action
import SignalSync.Library.Json
import SignalSync.Library.Text

/-!
# Polling a job of the broker's service

`_poll_job` asks for the status of a job until it is done. Two timers end the loop: one runs from
the first time the job is seen running, the other, for a job whose worker is unavailable, from the
beginning; each is looked at in some branches only.

* `after_eq_ok`: the loop polls on as long as no response and no timer ends it;
* `endsAsClaimed_iff`: the runs that end, and end no earlier than the worker was waited for.
-/

namespace SignalSync

open Library

namespace Accounts

/-! ## Responses -/

/-- What becomes of a request: the connection is closed by the service, another error of the transport or of the reading of
the body, or a body. -/
inductive PollResponse
  | closed
  | unreadable (e : String)
  | body (resp : Json)

/-- How a call ends. -/
inductive PollEnd
  | result (value : Json)
  | fetchFailed (message : String)
  | transientJobFailed (message : String)
  | jobFailed (message : String) (submissionStarted uncertain : Bool) (code : Json)
  | workerUnavailable (message : String)
  | timeout (message : String)
  | attributeError

/-- What a response says, to the loop. -/
inductive PollKind
  /-- A closed connection, or a status that the loop does not know. -/
  | silent
  /-- The job is done, or the response cannot be read. -/
  | final
  | running
  | queued
  | queuedWithoutWorker
deriving DecidableEq

/-- `value is False`. -/
def isFalse : Json → Bool
  | .bool false => true
  | _ => false

def isDict : Json → Bool
  | .object _ => true
  | _ => false

def PollResponse.kind : PollResponse → PollKind
  | .closed => .silent
  | .unreadable _ => .final
  | .body resp =>
    let status := (resp.get "status").string?
    if isDict resp = false ∨ status = some "succeeded" ∨ status = some "failed" then .final
    else if status = some "running" then .running
    else if status = some "queued" then if isFalse (resp.get "worker_available") then .queuedWithoutWorker else .queued
    else .silent

/-! ## The loop -/

/-- The readings of the clock: when the call begins, while the response of a poll is handled, and at the end of that poll. -/
structure PollClock where
  began : ℚ
  handled : ℕ → ℚ
  checked : ℕ → ℚ
  began_le : began ≤ handled 0
  handled_le (n : ℕ) : handled n ≤ checked n
  checked_le (n : ℕ) : checked n ≤ handled (n + 1)
  /-- The clock advances beyond every time. -/
  advances (t : ℚ) : ∃ n, t ≤ checked n

/-- A call of `_poll_job`: the settings of the client, the arguments, the clock, and what becomes of the requests. -/
structure PollJob where
  pollTimeout : ℚ
  workerWaitTimeout : ℚ
  /-- `str(self.poll_timeout)`. -/
  pollTimeoutText : String
  jobId : String
  waitForWorker : Bool
  clock : PollClock
  responses : ℕ → PollResponse

section

variable [Unicode] [Python]

def isTransientJobError (error : Json) : Bool :=
  ["-10005", "-10004", "-10003", "ipc", "pipe", "connection"].any (containsWord (Unicode.lower error.text))

/-- What is raised for a job that failed. -/
def jobFailure (resp : Json) : PollEnd :=
  let error := (resp.get "error").orElse (.string "Job failed")
  let errorDetails := (resp.get "error_details").orElse (.object [])
  if isTransientJobError error then .transientJobFailed error.text
  else if isDict errorDetails then
    .jobFailed error.text (errorDetails.get "submission_started").truthy (errorDetails.get "uncertain").truthy (errorDetails.get "code")
  else .attributeError

namespace PollJob

variable (job : PollJob)

/-- The response of the poll; the state is `processing_started_at`. -/
def handle (n : ℕ) (processingStartedAt : Option ℚ) : Except PollEnd (Option ℚ) :=
  match job.responses n with
  | .closed => .ok processingStartedAt
  | .unreadable e => .error (.fetchFailed s!"Failed to fetch job status for {job.jobId}: {e}")
  | .body resp =>
    if isDict resp = false then .error .attributeError
    else
      let status := (resp.get "status").string?
      if status = some "succeeded" then .error (.result ((resp.get "result").orElse (.object [])))
      else if status = some "failed" then .error (jobFailure resp)
      else if status = some "queued" then
        if isFalse (resp.get "worker_available") then
          if job.waitForWorker = false then .error (.workerUnavailable s!"No MT5 worker is available for queued job {job.jobId}")
          else if job.workerWaitTimeout ≤ job.clock.handled n - job.clock.began then
            .error (.workerUnavailable s!"No MT5 worker became available for queued job {job.jobId}")
          else .ok processingStartedAt
        else .ok processingStartedAt
      else if status = some "running" ∧ processingStartedAt = none then .ok (some (job.clock.handled n))
      else .ok processingStartedAt

/-- One round of the loop. -/
def poll (n : ℕ) (processingStartedAt : Option ℚ) : Except PollEnd (Option ℚ) :=
  (job.handle n processingStartedAt).bind fun processingStartedAt =>
    match processingStartedAt with
    | none => .ok none
    | some startedAt =>
      if job.pollTimeout ≤ job.clock.checked n - startedAt then
        .error (.timeout s!"Polling job {job.jobId} timed out after {job.pollTimeoutText} seconds")
      else .ok (some startedAt)

/-- The state after so many polls, or how the call has ended by then. -/
def after : ℕ → Except PollEnd (Option ℚ)
  | 0 => .ok none
  | n + 1 => (after n).bind (job.poll n)

end PollJob

end

/-! ## What is expected of it -/

namespace PollJob

variable (job : PollJob)

def kind (n : ℕ) : PollKind := (job.responses n).kind

/-- The worker was reported unavailable, and nothing else of it, since at least the time it is waited for. -/
def UnavailableFor (n : ℕ) : Prop :=
  ∃ m ≤ n, job.kind m = .queuedWithoutWorker ∧ job.workerWaitTimeout ≤ job.clock.handled n - job.clock.handled m ∧
    ∀ k, m ≤ k → k ≤ n → job.kind k = .queuedWithoutWorker ∨ job.kind k = .silent

/-- The response of the poll ends the call. -/
def Stops (n : ℕ) : Prop :=
  job.kind n = .final ∨
    job.kind n = .queuedWithoutWorker ∧ (job.waitForWorker → job.workerWaitTimeout ≤ job.clock.handled n - job.clock.began)

/-- No response and no timer has ended the call before the poll. -/
def Alive (n : ℕ) : Prop :=
  ∀ k < n, ¬job.Stops k ∧ ∀ j ≤ k, job.kind j = .running → job.clock.checked k - job.clock.handled j < job.pollTimeout

/-- Where the loop does what is expected of it. -/
structure WellPolled : Prop where
  /-- A response ends the call or the job is seen running, unless from some poll on it is only queued. -/
  progress : (∃ n, job.Stops n ∨ job.kind n = .running) ∨ ∃ N, ∀ n ≥ N, job.kind n = .queued
  /-- A report of the worker as unavailable that comes later than it is waited for since the beginning follows on others
  for that long. -/
  patience : job.waitForWorker → ∀ n, job.Alive n → job.kind n = .queuedWithoutWorker →
    job.workerWaitTimeout ≤ job.clock.handled n - job.clock.began → job.UnavailableFor n

variable [Unicode] [Python]

structure EndsAsClaimed : Prop where
  /-- The call returns or raises, unless from some poll on the job is reported as queued, with a worker. -/
  ends : (∃ n outcome, job.after n = .error outcome) ∨ ∃ N, ∀ n ≥ N, job.kind n = .queued
  /-- An endless run of closed connections and unknown statuses ends in a timeout. -/
  silence : ∀ N state, job.after N = .ok state → (∀ n ≥ N, job.kind n = .silent) → ∃ n message, job.after n = .error (.timeout message)
  /-- A call that waits for the worker gives up only once this was unavailable for that long. -/
  patience : job.waitForWorker → ∀ n state message, job.after n = .ok state → job.poll n state = .error (.workerUnavailable message) →
    job.UnavailableFor n

end PollJob

/-! ## One poll -/

theorem jobFailure_ne [Unicode] [Python] (resp : Json) :
    (∀ message, jobFailure resp ≠ .workerUnavailable message) ∧ ∀ message, jobFailure resp ≠ .timeout message := by
  unfold jobFailure
  dsimp only
  split_ifs <;> simp

namespace PollJob

section

variable [Unicode] [Python] {job : PollJob} {n : ℕ} {s s' : Option ℚ}

/-- What a response comes to, by what it says. -/
theorem handle_cases (job : PollJob) (n : ℕ) (s : Option ℚ) :
    (job.kind n = .final ∧ ∃ outcome, job.handle n s = .error outcome ∧ (∀ message, outcome ≠ .workerUnavailable message) ∧
        ∀ message, outcome ≠ .timeout message) ∨
      (job.kind n = .queuedWithoutWorker ∧ job.Stops n ∧ ∃ message, job.handle n s = .error (.workerUnavailable message)) ∨
        (job.kind n = .queuedWithoutWorker ∧ ¬job.Stops n ∧ job.handle n s = .ok s) ∨
          (job.kind n = .running ∧ job.handle n s = .ok (s.or (some (job.clock.handled n)))) ∨
            ((job.kind n = .silent ∨ job.kind n = .queued) ∧ job.handle n s = .ok s) := by
  unfold kind handle Stops kind
  cases hresponse : job.responses n with
  | closed => simp [PollResponse.kind]
  | unreadable e => simp [PollResponse.kind]
  | body resp =>
    simp only [PollResponse.kind]
    by_cases hdict : isDict resp
    · by_cases hsucceeded : (resp.get "status").string? = some "succeeded"
      · simp [hdict, hsucceeded]
      · by_cases hfailed : (resp.get "status").string? = some "failed"
        · simp [hdict, hfailed, jobFailure_ne]
        · by_cases hrunning : (resp.get "status").string? = some "running"
          · cases s <;> simp [hdict, hrunning]
          · by_cases hqueued : (resp.get "status").string? = some "queued"
            · by_cases hworker : isFalse (resp.get "worker_available")
              · cases hwait : job.waitForWorker
                · simp [hdict, hqueued, hworker]
                · by_cases hlate : job.workerWaitTimeout ≤ job.clock.handled n - job.clock.began
                  · simp [hdict, hqueued, hworker, hlate]
                  · simp [hdict, hqueued, hworker, hlate]
              · simp [hdict, hqueued, hworker]
            · simp [hdict, hsucceeded, hfailed, hrunning, hqueued]
    · simp [hdict]

/-- The loop goes on if the response does not end it. -/
theorem handle_eq_ok : job.handle n s = .ok s' ↔
    ¬job.Stops n ∧ s' = if job.kind n = .running then s.or (some (job.clock.handled n)) else s := by
  rcases handle_cases job n s with ⟨hkind, _, hhandle, -⟩ | ⟨hkind, hstops, _, hhandle⟩ | ⟨hkind, hstops, hhandle⟩ | ⟨hkind, hhandle⟩ |
    ⟨hkind, hhandle⟩
  · simp [hhandle, Stops, hkind]
  · simp [hhandle, hstops]
  · simp [hhandle, hstops, hkind, eq_comm (a := s')]
  · simp [hhandle, Stops, hkind, eq_comm (a := s')]
  · rcases hkind with hkind | hkind <;> simp [hhandle, Stops, hkind, eq_comm (a := s')]

/-- The loop goes on if the time is not up either. -/
theorem poll_eq_ok : job.poll n s = .ok s' ↔
    job.handle n s = .ok s' ∧ ∀ startedAt, s' = some startedAt → job.clock.checked n - startedAt < job.pollTimeout := by
  unfold poll
  cases job.handle n s with
  | error outcome => simp [Except.bind]
  | ok state =>
    cases state with
    | none =>
      simp only [Except.bind, Except.ok.injEq]
      exact ⟨fun h => ⟨h, fun _ hs => by cases h.trans hs⟩, fun h => h.1⟩
    | some startedAt =>
      simp only [Except.bind]
      split_ifs with hup
      · refine ⟨fun h => (by cases h), fun ⟨h, htime⟩ => ?_⟩
        cases h
        exact absurd (htime startedAt rfl) (not_lt.2 hup)
      · refine ⟨fun h => ⟨h, ?_⟩, fun h => h.1⟩
        cases h
        rintro _ ⟨⟩
        exact not_le.1 hup

/-- The worker is given up only for a response that says so. -/
theorem poll_eq_workerUnavailable {message : String} (h : job.poll n s = .error (.workerUnavailable message)) :
    job.kind n = .queuedWithoutWorker ∧ job.Stops n := by
  unfold poll at h
  rcases handle_cases job n s with ⟨-, outcome, hhandle, hne, -⟩ | ⟨hkind, hstops, -⟩ | ⟨-, -, hhandle⟩ | ⟨-, hhandle⟩ | ⟨-, hhandle⟩
  · rw [hhandle] at h
    cases h
    exact absurd rfl (hne message)
  · exact ⟨hkind, hstops⟩
  all_goals
    rw [hhandle, Except.bind] at h
    split at h
    · cases h
    · split_ifs at h
      cases h

/-- After a response that says nothing, only the timer can end the call. -/
theorem poll_of_silent {outcome : PollEnd} (hkind : job.kind n = .silent) (h : job.poll n s = .error outcome) :
    ∃ message, outcome = .timeout message := by
  have hhandle : job.handle n s = .ok s := handle_eq_ok.2 ⟨by simp [Stops, hkind], by simp [hkind]⟩
  rw [poll, hhandle, Except.bind] at h
  split at h
  · cases h
  · split_ifs at h
    cases h
    exact ⟨_, rfl⟩

/-! ## The loop -/

/-- The moment at which the job was first seen running, among the polls before this one. -/
def started (job : PollJob) (n : ℕ) : Option ℚ := ((List.range n).find? fun k => job.kind k = .running).map job.clock.handled

omit [Unicode] [Python] in
theorem started_succ (job : PollJob) (n : ℕ) :
    job.started (n + 1) = if job.kind n = .running then (job.started n).or (some (job.clock.handled n)) else job.started n := by
  rw [started, List.range_succ, List.find?_append, Option.map_or, List.find?_singleton]
  split_ifs with hkind <;> simp_all [started]

omit [Unicode] [Python] in
theorem handled_mono (job : PollJob) : Monotone job.clock.handled :=
  monotone_nat_of_le_succ fun n => (job.clock.handled_le n).trans (job.clock.checked_le n)

omit [Unicode] [Python] in
theorem checked_mono (job : PollJob) : Monotone job.clock.checked :=
  monotone_nat_of_le_succ fun n => (job.clock.checked_le n).trans (job.clock.handled_le (n + 1))

omit [Unicode] [Python] in
/-- The timer runs from the first poll that saw the job running. -/
theorem started_lt_iff (job : PollJob) (n : ℕ) (t timeout : ℚ) :
    (∀ startedAt, job.started n = some startedAt → t - startedAt < timeout) ↔
      ∀ j < n, job.kind j = .running → t - job.clock.handled j < timeout := by
  constructor
  · intro h j hj hkind
    obtain ⟨i, hi⟩ : ∃ i, (List.range n).find? (fun k => job.kind k = .running) = some i :=
      Option.isSome_iff_exists.1 (List.find?_isSome.2 ⟨j, List.mem_range.2 hj, by simpa using hkind⟩)
    have hle : i ≤ j := by
      by_contra hlt
      have hbefore := (List.find?_range_eq_some.1 hi).2.2 j (not_le.1 hlt)
      simp [hkind] at hbefore
    have hfirst := h (job.clock.handled i) (by rw [started, hi, Option.map_some])
    exact (sub_le_sub_left (handled_mono job hle) t).trans_lt hfirst
  · intro h startedAt hstarted
    obtain ⟨i, hi, rfl⟩ := Option.map_eq_some_iff.1 hstarted
    have hfound := List.find?_range_eq_some.1 hi
    exact h i (List.mem_range.1 hfound.2.1) (by simpa using hfound.1)

omit [Unicode] [Python] in
theorem alive_succ (job : PollJob) (n : ℕ) : job.Alive (n + 1) ↔
    job.Alive n ∧ ¬job.Stops n ∧ ∀ j < n + 1, job.kind j = .running → job.clock.checked n - job.clock.handled j < job.pollTimeout := by
  simp only [Alive, Nat.lt_succ_iff]
  constructor
  · exact fun h => ⟨fun k hk => h k hk.le, h n le_rfl⟩
  · rintro ⟨halive, hn⟩ k hk
    rcases hk.lt_or_eq with hk | rfl
    · exact halive k hk
    · exact hn

/-- The loop polls on as long as no response and no timer ends it. -/
theorem after_eq_ok : job.after n = .ok s ↔ job.Alive n ∧ s = job.started n := by
  induction n generalizing s with
  | zero => simp [after, Alive, started, eq_comm]
  | succ n ih =>
    have hstep : job.after (n + 1) = .ok s ↔ ∃ s₀, job.after n = .ok s₀ ∧ job.poll n s₀ = .ok s := by
      rw [after]
      cases job.after n <;> simp [Except.bind]
    rw [hstep, alive_succ]
    constructor
    · rintro ⟨s₀, hbefore, hpoll⟩
      obtain ⟨halive, rfl⟩ := ih.1 hbefore
      obtain ⟨hhandle, htime⟩ := poll_eq_ok.1 hpoll
      obtain ⟨hstops, rfl⟩ := handle_eq_ok.1 hhandle
      rw [← started_succ] at htime ⊢
      exact ⟨⟨halive, hstops, (started_lt_iff job (n + 1) _ _).1 htime⟩, rfl⟩
    · rintro ⟨⟨halive, hstops, htime⟩, rfl⟩
      refine ⟨job.started n, ih.2 ⟨halive, rfl⟩, poll_eq_ok.2 ⟨handle_eq_ok.2 ⟨hstops, started_succ job n⟩, ?_⟩⟩
      exact (started_lt_iff job (n + 1) _ _).2 htime

/-! ## Its end -/

theorem exists_error_iff : (∃ outcome, job.after n = .error outcome) ↔ ¬job.Alive n := by
  cases hafter : job.after n with
  | error outcome =>
    refine ⟨fun _ halive => ?_, fun _ => ⟨outcome, rfl⟩⟩
    cases hafter.symm.trans (after_eq_ok.2 ⟨halive, rfl⟩)
  | ok state => simp [(after_eq_ok.1 hafter).1]

/-- The call ends if a response ends it or the job is ever seen running: the clock advances until the time is up. -/
theorem ends_iff (job : PollJob) : (∃ n outcome, job.after n = .error outcome) ↔ ∃ n, job.Stops n ∨ job.kind n = .running := by
  simp only [exists_error_iff]
  constructor
  · rintro ⟨n, hdead⟩
    by_contra hnone
    simp only [not_exists, not_or] at hnone
    exact hdead fun k _ => ⟨(hnone k).1, fun j _ hrunning => absurd hrunning (hnone j).2⟩
  · rintro ⟨n, hstops | hrunning⟩
    · exact ⟨n + 1, fun halive => (halive n n.lt_succ_self).1 hstops⟩
    · obtain ⟨k, hk⟩ := job.clock.advances (job.clock.handled n + job.pollTimeout)
      refine ⟨max k n + 1, fun halive => ?_⟩
      have htime := (halive (max k n) (max k n).lt_succ_self).2 n (le_max_right k n) hrunning
      have hlate := hk.trans (checked_mono job (le_max_left k n))
      linarith

/-- Once only closed connections and unknown statuses follow, a call that ends does so for the timer. -/
theorem timeout_of_silent {N : ℕ} (hafter : job.after N = .ok s) (hsilent : ∀ n ≥ N, job.kind n = .silent)
    (hends : ∃ n outcome, job.after n = .error outcome) : ∃ n message, job.after n = .error (.timeout message) := by
  obtain ⟨n, outcome, hend⟩ := hends
  induction n generalizing outcome with
  | zero => cases hend
  | succ n ih =>
    cases hbefore : job.after n with
    | error outcome' => exact ih outcome' hbefore
    | ok state =>
      rw [after, hbefore] at hend
      have hle : N ≤ n := by
        by_contra hlt
        have halive := (after_eq_ok.1 hafter).1
        obtain hdead := exists_error_iff.1 ⟨outcome, show job.after (n + 1) = .error outcome by rw [after, hbefore]; exact hend⟩
        exact hdead fun k hk => halive k (hk.trans_le (not_le.1 hlt))
      obtain ⟨message, rfl⟩ := poll_of_silent (hsilent n hle) hend
      exact ⟨n + 1, message, by rw [after, hbefore]; exact hend⟩

/-- The loop does what is expected of it exactly where it is `WellPolled`. -/
theorem endsAsClaimed_iff (job : PollJob) : job.EndsAsClaimed ↔ job.WellPolled := by
  constructor
  · rintro ⟨hends, -, hpatience⟩
    refine ⟨hends.imp_left (ends_iff job).1, fun hwait n halive hkind hlate => ?_⟩
    have hafter : job.after n = .ok (job.started n) := after_eq_ok.2 ⟨halive, rfl⟩
    rcases handle_cases job n (job.started n) with ⟨hfinal, -⟩ | ⟨-, -, message, hhandle⟩ | ⟨-, hstops, -⟩ | ⟨hrunning, -⟩ | ⟨hother, -⟩
    · cases hkind.symm.trans hfinal
    · exact hpatience hwait n _ message hafter (by rw [poll, hhandle, Except.bind])
    · exact absurd (.inr ⟨hkind, fun _ => hlate⟩) hstops
    · cases hkind.symm.trans hrunning
    · rcases hother with hother | hother <;> cases hkind.symm.trans hother
  · rintro ⟨hprogress, hpatience⟩
    refine ⟨hprogress.imp_left (ends_iff job).2, fun N state hafter hsilent => ?_, fun hwait n state message hafter hpoll => ?_⟩
    · refine timeout_of_silent hafter hsilent (hprogress.elim (ends_iff job).2 ?_)
      rintro ⟨M, hqueued⟩
      cases (hqueued (max M N) (le_max_left M N)).symm.trans (hsilent (max M N) (le_max_right M N))
    · obtain ⟨hkind, hstops⟩ := poll_eq_workerUnavailable hpoll
      refine hpatience hwait n (after_eq_ok.1 hafter).1 hkind (hstops.elim (fun hfinal => ?_) fun h => h.2 hwait)
      cases hkind.symm.trans hfinal

end

end PollJob

/-- A clock that shows the number of the poll. -/
def countingClock : PollClock where
  began := 0
  handled n := n
  checked n := n
  began_le := le_of_eq Nat.cast_zero.symm
  handled_le _ := le_rfl
  checked_le n := Nat.cast_le.2 n.le_succ
  advances := exists_nat_ge

/-- A call whose connections are all closed. -/
def closedJob : PollJob where
  pollTimeout := 60
  workerWaitTimeout := 60
  pollTimeoutText := "60"
  jobId := "job-1"
  waitForWorker := true
  clock := countingClock
  responses _ := .closed

/-- It polls for ever. -/
theorem endsAsClaimed_closedJob :
    let _ := Unicode.ascii
    let _ : Python := ⟨fun _ => "", fun _ => none⟩
    ¬closedJob.EndsAsClaimed := by
  intro _ _
  rintro ⟨hends, -, -⟩
  have hafter : ∀ n, closedJob.after n = .ok none := by
    intro n
    induction n with
    | zero => rfl
    | succ n ih =>
      rw [PollJob.after, ih]
      rfl
  rcases hends with ⟨n, outcome, hend⟩ | ⟨N, hqueued⟩
  · cases (hafter n).symm.trans hend
  · cases (show closedJob.kind N = .silent from rfl).symm.trans (hqueued N le_rfl)

end Accounts

end SignalSync
