import SignalSync.Stream.Liveness

/-!
# Attempts and dead letters

`_process_message` takes the delivery count of Redis for the number of attempts. A
claim of a message that waits in an executor's queue, or whose handler is at work,
counts as well.

* `Counted.step`: as long as claims take only messages that no worker holds, a message
  has not been delivered more often than its handler has run, or is about to;
* `deadLetters_due`: so no event is a dead letter too early, and under a fair schedule
  an event whose handler succeeds is handled;
* `claimed_while_queued`: a claim of a queued message makes it a dead letter after one
  run.
-/

namespace SignalSync

open Library

def DeliveryResult.isRetry : DeliveryResult → Bool
  | .retry _ => true
  | _ => false

namespace StreamGroup

variable [Runtime]

/-- Completed runs of the entry's handler that ended in a retryable failure. -/
def retries (g : StreamGroup) (i : Nat) : Nat := g.runs.countP fun run => run.1 = i && run.2.isRetry

/-- The entry's handler has asked for a dead letter. -/
def Rejected (g : StreamGroup) (i : Nat) : Prop := ∃ code, (i, .dead_letter code) ∈ g.runs

/-- A dead letter is due: asked for, or after as many retryable failures as are tried. -/
def Due (g : StreamGroup) (i : Nat) : Prop := g.Rejected i ∨ g.maxAttempts ≤ g.retries i

/-- All deliveries of the entry but `more` have ended in a retryable failure. -/
def Covered (g : StreamGroup) (i more : Nat) : Prop :=
  ∀ n deliveredAt, g.status? i = some (.pending n deliveredAt) → g.event? i ≠ none → g.Rejected i ∨ n ≤ g.retries i + more

/-- The deliveries of a message at a stage. -/
def CoveredAt (g : StreamGroup) (m : Nat × Stage) : Prop :=
  match m.2 with
  | .start | .handling => g.Covered m.1 1
  | .result .success | .acknowledge => True
  | .result _ => g.Covered m.1 0

variable {g g' : StreamGroup} {i j more : Nat}

/-- Runs are added at the end. -/
def RunsExtend (g g' : StreamGroup) : Prop := ∃ runs, g'.runs = g.runs ++ runs

omit [Runtime] in
theorem RunsExtend.refl (h : g'.runs = g.runs) : RunsExtend g g' := ⟨[], by rw [h, List.append_nil]⟩

omit [Runtime] in
theorem Rejected.mono (h : g.Rejected i) (hr : RunsExtend g g') : g'.Rejected i := by
  obtain ⟨runs, hr⟩ := hr
  exact h.imp fun _ h => hr ▸ List.mem_append_left _ h

omit [Runtime] in
theorem retries_le (hr : RunsExtend g g') : g.retries i ≤ g'.retries i := by
  obtain ⟨runs, hr⟩ := hr
  rw [retries, retries, hr, List.countP_append]
  exact Nat.le_add_right ..

/-- Where the entry is pending, it was so before. -/
def NotDelivered (g g' : StreamGroup) (i : Nat) : Prop :=
  ∀ n deliveredAt, g'.status? i = some (.pending n deliveredAt) → g.status? i = some (.pending n deliveredAt)

omit [Runtime] in
theorem NotDelivered.of_eq (h : g'.status? i = g.status? i) : NotDelivered g g' i := fun _ _ hp => h ▸ hp

/-- Deliveries stay covered where nothing but runs is added. -/
theorem Covered.mono (h : g.Covered i more) (hs : NotDelivered g g' i) (he : g'.event? i = g.event? i)
    (hr : RunsExtend g g') : g'.Covered i more := fun n deliveredAt hp hev =>
  (h n deliveredAt (hs n deliveredAt hp) (he ▸ hev)).imp (·.mono hr) fun hn => by
    have := retries_le (i := i) hr
    omega

theorem CoveredAt.mono {m : Nat × Stage} (h : g.CoveredAt m) (hs : NotDelivered g g' m.1)
    (he : g'.event? m.1 = g.event? m.1) (hr : RunsExtend g g') : g'.CoveredAt m := by
  obtain ⟨i, stage⟩ := m
  cases stage with
  | start | handling => exact Covered.mono h hs he hr
  | acknowledge => trivial
  | result r =>
    cases r with
    | success => trivial
    | retry | dead_letter => exact Covered.mono h hs he hr

omit [Runtime] in
theorem Due.mono (h : g.Due i) (hm : g'.maxAttempts = g.maxAttempts) (hr : RunsExtend g g') : g'.Due i :=
  h.imp (·.mono hr) fun hn => hm ▸ Nat.le_trans hn (retries_le hr)

theorem event?_eq (h : g'.fields? i = g.fields? i) : g'.event? i = g.event? i := by rw [event?, event?, h]

/-- What a stage of `_process_message` leaves of the count. -/
structure Counts (g g' : StreamGroup) (i : Nat) (o : Outcome) : Prop where
  runs : RunsExtend g g'
  others : ∀ j, j ≠ i → g'.status? j = g.status? j
  next : ∀ m ∈ o.next i, g'.CoveredAt m
  done : o.next i = [] → g'.Covered i 0
  deadLetters : ∀ d ∈ g'.deadLetters, d ∈ g.deadLetters ∨ d.entry = i ∧ g'.Due i
  maxAttempts : g'.maxAttempts = g.maxAttempts
  first : g'.first = g.first

omit [Runtime] in
/-- A result that calls for a dead letter makes it due. -/
theorem due_of_isFinal {r : DeliveryResult} (hf : g.isFinal i r) (hs : (i, r) ∈ g.runs)
    (hc : ∀ n deliveredAt, g.status? i = some (.pending n deliveredAt) → g.Rejected i ∨ n ≤ g.retries i) : g.Due i := by
  cases r with
  | success => cases hf
  | dead_letter code => exact .inl ⟨code, hs⟩
  | retry code =>
    have hmax : g.maxAttempts ≤ g.pendingAttempts i := of_decide_eq_true hf
    have hone : 1 ≤ g.retries i := List.countP_pos_iff.mpr ⟨_, hs, by simp [DeliveryResult.isRetry]⟩
    unfold pendingAttempts at hmax
    split at hmax
    · rename_i hp
      exact (hc _ _ hp).imp_right (Nat.le_trans hmax)
    · exact .inr (Nat.le_trans hmax hone)

theorem covered_of_isFinal {r : DeliveryResult} (hc : g.CoveredAt (i, .result r)) (hf : g.isFinal i r) : g.Covered i 0 := by
  cases r with
  | success => cases hf
  | retry | dead_letter => exact hc

theorem counts_processMessage {stage : Stage} (hc : g.CoveredAt (i, stage)) (hs : g.Settled (i, stage)) {fields : Fields}
    (hf : g.fields? i = some fields) (result : DeliveryResult) :
    Counts g (g.processMessage i fields result stage).1 i (g.processMessage i fields result stage).2 := by
  cases hev : CopyEvent.fromFields fields with
  | none =>
    rw [processMessage_of_none hev]
    refine ⟨.refl rfl, fun _ _ => rfl, List.forall_mem_nil _, fun _ _ _ _ he => absurd ?_ he, fun _ => .inl, rfl, rfl⟩
    rw [event?, hf]
    exact hev
  | some event =>
    have hi : g.event? i ≠ none := by rw [event?, hf, Option.bind_some, hev]; exact Option.some_ne_none event
    have hmore {g' : StreamGroup} {m : Nat × Stage} : [m] = [] → g'.Covered i 0 := fun h => absurd h (List.cons_ne_nil _ _)
    have hp := processed_of_some g i result stage hev
    generalize g.processMessage i fields result stage = p at hp
    obtain ⟨g', o⟩ := p
    cases hp with
    | duplicate hk => exact ⟨.refl rfl, fun _ _ => rfl, fun m hm => by rw [List.mem_singleton.mp hm]; trivial, hmore, fun _ => .inl, rfl, rfl⟩
    | handle => exact ⟨.refl rfl, fun _ _ => rfl, fun m hm => by rw [List.mem_singleton.mp hm]; exact hc, hmore, fun _ => .inl, rfl, rfl⟩
    | complete =>
      have hruns : RunsExtend g { g with runs := g.runs ++ [(i, result)] } := ⟨_, rfl⟩
      refine ⟨hruns, fun _ _ => rfl, fun m hm => ?_, hmore, fun _ => .inl, rfl, rfl⟩
      rw [List.mem_singleton.mp hm]
      cases result with
      | success => trivial
      | dead_letter code => exact fun _ _ _ _ => .inl ⟨code, List.mem_append_right _ (List.mem_singleton_self _)⟩
      | retry code =>
        have hadds : retries { g with runs := g.runs ++ [(i, .retry code)] } i = g.retries i + 1 := by
          simp [retries, List.countP_append, DeliveryResult.isRetry]
        exact fun n deliveredAt hst he => (hc n deliveredAt hst he).imp (·.mono hruns) fun hn => hadds ▸ hn
    | succeed => exact ⟨.refl rfl, fun _ _ => rfl, fun m hm => by rw [List.mem_singleton.mp hm]; trivial, hmore, fun _ => .inl, rfl, rfl⟩
    | retry h => exact ⟨.refl rfl, fun _ _ => rfl, List.forall_mem_nil _, fun _ => hc, fun _ => .inl, rfl, rfl⟩
    | @deadLetter r userId h hp =>
      refine ⟨.refl rfl, fun _ _ => rfl, fun m hm => by rw [List.mem_singleton.mp hm]; trivial, hmore, fun d hd => ?_, rfl, rfl⟩
      refine (List.mem_append.mp hd).imp_right fun hd => ?_
      rw [List.mem_singleton.mp hd]
      exact ⟨rfl, (due_of_isFinal h hs fun n deliveredAt hst => (covered_of_isFinal hc h) n deliveredAt hst hi).mono rfl (.refl rfl)⟩
    | unstorable h => exact ⟨.refl rfl, fun _ _ => rfl, List.forall_mem_nil _, fun _ => covered_of_isFinal hc h, fun _ => .inl, rfl, rfl⟩
    | acknowledge =>
      refine ⟨.refl rfl, fun j hj => ?_, List.forall_mem_nil _, fun _ n deliveredAt hst => ?_, fun _ => .inl, rfl, rfl⟩
      · change (g.ack i).status? j = _
        rw [GroupState.status?_ack]
        cases g.status? j <;> simp [Ne.symm hj]
      · have hst : (g.ack i).status? i = some (.pending n deliveredAt) := hst
        rw [GroupState.status?_ack] at hst
        cases hg : g.status? i <;> simp [hg] at hst

end StreamGroup

namespace GroupState

variable [Runtime] {s t : GroupState} {l : GroupLabel} {maxAttempts : Nat} {retryIdle : Time}

/-- Some worker holds the message. -/
def Held (s : GroupState) (i : Nat) : Prop := ∃ w, ∃ m ∈ (s.workers w).messages, m.1 = i

/-- A claim takes no message that a worker holds, or held when it stopped. -/
def ClaimsFree (s : GroupState) : GroupLabel → Prop
  | .main w _ => (s.workers w).main = .claim → ∀ i ∈ s.claimable, ¬ s.Held i
  | _ => True

omit [Runtime] in
/-- What is in the stream was so before. -/
theorem isTrimmed_of_le {g g' : StreamGroup} {i : Nat} (h : g.first ≤ g'.first) (ht : g'.isTrimmed i = false) :
    g.isTrimmed i = false :=
  decide_eq_false fun hlt => of_decide_eq_false ht (Nat.lt_of_lt_of_le hlt h)

/-- No message is held twice, and the deliveries of each are covered. -/
structure Counted (s : GroupState) : Prop where
  valid : s.Valid
  accounted : s.Accounted
  nodup : ∀ w, ((s.workers w).messages.map (·.1)).Nodup
  apart : ∀ w v, w ≠ v → ∀ m ∈ (s.workers w).messages, ∀ m' ∈ (s.workers v).messages, m.1 ≠ m'.1
  taken : ∀ w, ∀ m ∈ (s.workers w).messages, s.isTrimmed m.1 = false → s.status? m.1 ≠ some .new
  free : ∀ i, ¬ s.Held i → s.Covered i 0
  held : ∀ w, ∀ m ∈ (s.workers w).messages, s.CoveredAt m
  deadLetters : ∀ d ∈ s.deadLetters, s.Due d.entry

/-- The workers hold the same messages, and the entries that come are new. -/
theorem Counted.of_perm (hs : s.Counted) (hw : ∀ w, (t.workers w).messages.Perm (s.workers w).messages) (hacc : t.Accounted)
    (hv : t.Valid) (hfirst : s.first ≤ t.first)
    (hst : ∀ i, t.status? i = s.status? i ∨ t.status? i = some .new ∧ s.status? i = none)
    (hev : ∀ i, s.status? i ≠ none → t.event? i = s.event? i) (hr : t.runs = s.runs) (hd : t.deadLetters = s.deadLetters)
    (hm : t.maxAttempts = s.maxAttempts) : t.Counted := by
  have hthere {w : Nat} {m : Nat × Stage} (hm : m ∈ (t.workers w).messages) : s.status? m.1 ≠ none := by
    obtain ⟨status, h⟩ := lt_of_status?.1 (hs.valid w m ((hw w).mem_iff.mp hm))
    rw [h]
    nofun
  have hsame {i : Nat} (hi : s.status? i ≠ none) : t.status? i = s.status? i := (hst i).resolve_right fun h => hi h.2
  exact {
    valid := hv
    accounted := hacc
    nodup := fun w => (((hw w).map _).nodup_iff).mpr (hs.nodup w)
    apart := fun w v hwv m h m' h' => hs.apart w v hwv m ((hw w).mem_iff.mp h) m' ((hw v).mem_iff.mp h')
    taken := fun w m h ht => by
      rw [hsame (hthere h)]
      exact hs.taken w m ((hw w).mem_iff.mp h) (isTrimmed_of_le hfirst ht)
    free := fun i hi n deliveredAt hp => by
      have hheld : ¬ s.Held i := fun ⟨w, m, h, hmi⟩ => hi ⟨w, m, (hw w).mem_iff.mpr h, hmi⟩
      rcases hst i with h | ⟨h, -⟩
      · exact (hs.free i hheld).mono (.of_eq h) (hev i (by rw [← h, hp]; nofun)) (.refl hr) n deliveredAt hp
      · cases h.symm.trans hp
    held := fun w m h => (hs.held w m ((hw w).mem_iff.mp h)).mono (.of_eq (hsame (hthere h))) (hev _ (hthere h)) (.refl hr)
    deadLetters := fun d hmem => (hs.deadLetters d (hd ▸ hmem)).mono hm (.refl hr) }

omit [Runtime] in
theorem nodup_unread {g : StreamGroup} : g.unread.Nodup :=
  (List.nodup_range.filter _).sublist (List.take_sublist ..)

omit [Runtime] in
theorem nodup_claimable {g : StreamGroup} : g.claimable.Nodup :=
  ((((List.nodup_range.filter _).sublist (List.take_sublist ..)).filter _).sublist (List.take_sublist ..)).filter _

/-- A batch of messages that nobody holds goes to a worker; what is gone was trimmed. -/
theorem Counted.took (hs : s.Counted) {w : Nat} {batch gone : List Nat} (hacc : t.Accounted) (hv : t.Valid)
    (hg : t.toStreamGroup = s.deliver batch gone) (hn : batch.Nodup) (hfree : ∀ i ∈ batch, ¬ s.Held i)
    (hgone : ∀ i ∈ gone, s.isTrimmed i)
    (hm : (t.workers w).messages.Perm (batch.map (·, .start) ++ (s.workers w).messages))
    (ho : ∀ v, v ≠ w → t.workers v = s.workers v) : t.Counted := by
  have hmem {v : Nat} {m : Nat × Stage} (h : m ∈ (t.workers v).messages) :
      m ∈ (s.workers v).messages ∨ v = w ∧ m.1 ∈ batch ∧ m.2 = .start := by
    by_cases hv : v = w
    · subst hv
      rcases List.mem_append.mp (hm.mem_iff.mp h) with h | h
      · obtain ⟨i, hi, rfl⟩ := List.mem_map.mp h
        exact .inr ⟨rfl, hi, rfl⟩
      · exact .inl h
    · exact .inl (ho v hv ▸ h)
  have hback {v : Nat} {m : Nat × Stage} (h : m ∈ (s.workers v).messages) : m ∈ (t.workers v).messages := by
    by_cases hv : v = w
    · subst hv
      exact hm.mem_iff.mpr (List.mem_append_right _ h)
    · rwa [ho v hv]
  have hnot {v : Nat} {m : Nat × Stage} (h : m ∈ (s.workers v).messages) : m.1 ∉ batch := fun hb => hfree _ hb ⟨v, m, h, rfl⟩
  have hstatus (i : Nat) : t.status? i = (s.deliver batch gone).status? i := by rw [hg]
  have hev (i : Nat) : t.event? i = s.event? i := by
    rw [hg]
    exact StreamGroup.event?_eq (StreamGroup.fields?_deliver ..)
  have hstays {i : Nat} (hi : i ∉ batch) : StreamGroup.NotDelivered s.toStreamGroup t.toStreamGroup i := fun n deliveredAt hp => by
    rw [hstatus, status?_deliver, Option.map_eq_some_iff] at hp
    obtain ⟨status, hst, hp⟩ := hp
    rw [if_neg hi] at hp
    split at hp
    · cases hp
    · exact hp ▸ hst
  have hruns : StreamGroup.RunsExtend s.toStreamGroup t.toStreamGroup := .refl (by rw [hg]; rfl)
  refine ⟨hv, hacc, fun v => ?_, fun v v' hvv m h m' h' => ?_, fun v m h => ?_, fun i hi => ?_, fun v m h => ?_, fun d hd => ?_⟩
  · by_cases hv : v = w
    · subst hv
      refine ((hm.map _).nodup_iff).mpr ?_
      rw [List.map_append, List.map_map]
      refine List.nodup_append.mpr ⟨by simpa [Function.comp_def] using hn, hs.nodup v, fun i hi j hj => ?_⟩
      obtain ⟨m, hm, rfl⟩ := List.mem_map.mp hj
      rintro rfl
      exact hnot hm (by simpa using hi)
    · exact ho v hv ▸ hs.nodup v
  · rcases hmem h with h | ⟨rfl, hb, -⟩ <;> rcases hmem h' with h' | ⟨rfl, hb', -⟩
    · exact hs.apart v v' hvv m h m' h'
    · exact fun he => hnot h (he ▸ hb')
    · exact fun he => hnot h' (he ▸ hb)
    · exact absurd rfl hvv
  · rcases hmem h with h | ⟨-, hb, -⟩
    · intro ht
      have ht : s.isTrimmed m.1 = false := by
        rw [hg] at ht
        exact ht
      have hgone' : m.1 ∉ gone := fun hmem => by
        rw [hgone _ hmem] at ht
        cases ht
      rw [hstatus, status?_deliver]
      simpa [hnot h, hgone'] using hs.taken v m h ht
    · rw [hstatus, status?_deliver_of_mem hb]
      cases s.status? m.1 with
      | none => nofun
      | some status => cases status <;> nofun
  · have hb : i ∉ batch := fun hb => hi ⟨w, (i, .start), hm.mem_iff.mpr (List.mem_append_left _ (List.mem_map_of_mem hb)), rfl⟩
    exact (hs.free i fun ⟨v, m, h, hmi⟩ => hi ⟨v, m, hback h, hmi⟩).mono (hstays hb) (hev i) hruns
  · rcases hmem h with h | ⟨-, hb, hst⟩
    · exact (hs.held v m h).mono (hstays (hnot h)) (hev _) hruns
    · obtain ⟨i, stage⟩ := m
      cases hst
      -- one delivery more than before
      intro n deliveredAt hp he
      rw [hstatus, status?_deliver_of_mem hb] at hp
      obtain ⟨status, hst, hp⟩ := Option.map_eq_some_iff.mp hp
      have hle := StreamGroup.retries_le (i := i) hruns
      cases status with
      | new | acked => cases hp; exact .inr (by omega)
      | pending n' at' =>
        cases hp
        refine (hs.free i (hfree i hb) n' at' hst (hev i ▸ he)).imp (·.mono hruns) fun hn => ?_
        exact Nat.succ_le_succ (Nat.le_trans hn hle)
  · rw [hg] at hd
    exact (hs.deadLetters d hd).mono (by rw [hg]; rfl) hruns

/-- A message goes through a stage. -/
theorem Counted.went (hs : s.Counted) {w i : Nat} {stage : Stage} {e : StreamEntry Fields} {result : DeliveryResult}
    {others : List (Nat × Stage)} (hacc : t.Accounted) (hv : t.Valid) (he : s.entries[i]? = some e)
    (hg : t.toStreamGroup = (s.processMessage i e.event result stage).1)
    (hh : (s.workers w).messages.Perm ((i, stage) :: others))
    (hm : (t.workers w).messages.Perm ((s.processMessage i e.event result stage).2.next i ++ others))
    (ho : ∀ v, v ≠ w → t.workers v = s.workers v) : t.Counted := by
  have hi : (i, stage) ∈ (s.workers w).messages := hh.mem_iff.mpr List.mem_cons_self
  have hnd : i ∉ others.map (·.1) ∧ (others.map (·.1)).Nodup :=
    List.nodup_cons.mp (((hh.map Prod.fst).nodup_iff).mp (hs.nodup w))
  have hc := StreamGroup.counts_processMessage (hs.held w _ hi) (hs.accounted.held w _ hi) (fields?_of_entry he) result
  rw [← hg] at hc
  have hother {m : Nat × Stage} (h : m ∈ others) : m ∈ (s.workers w).messages := hh.mem_iff.mpr (List.mem_cons_of_mem _ h)
  have hmem {v : Nat} {m : Nat × Stage} (h : m ∈ (t.workers v).messages) :
      m ∈ (s.workers v).messages ∧ m.1 ≠ i ∨ v = w ∧ m ∈ (s.processMessage i e.event result stage).2.next i ∧ m.1 = i := by
    by_cases hv : v = w
    · subst hv
      rcases List.mem_append.mp (hm.mem_iff.mp h) with h | h
      · refine .inr ⟨rfl, h, ?_⟩
        cases ho : (s.processMessage i e.event result stage).2 with
        | goes stage' => rw [ho] at h; rw [List.mem_singleton.mp h]
        | returns | raises => rw [ho] at h; cases h
      · exact .inl ⟨hother h, fun hmi => hnd.1 (hmi ▸ List.mem_map_of_mem h)⟩
    · rw [ho v hv] at h
      exact .inl ⟨h, hs.apart v w hv m h _ hi⟩
  have hback {v : Nat} {m : Nat × Stage} (h : m ∈ (s.workers v).messages) (hmi : m.1 ≠ i) : m ∈ (t.workers v).messages := by
    by_cases hv : v = w
    · subst hv
      refine hm.mem_iff.mpr (List.mem_append_right _ ((List.mem_cons.mp (hh.mem_iff.mp h)).resolve_left ?_))
      rintro rfl
      exact hmi rfl
    · rwa [ho v hv]
  have hev (j : Nat) : t.event? j = s.event? j := by
    rw [hg]
    exact StreamGroup.event?_eq StreamGroup.fields?_processMessage
  have hnew {j : Nat} (h : s.status? j ≠ some .new) (hlt : ∃ status, s.status? j = some status) : t.status? j ≠ some .new := by
    obtain ⟨status, hst⟩ := hlt
    rw [hg]
    rcases status?_processMessage i stage hst with h' | h' <;> rw [h']
    · exact hst ▸ h
    · nofun
  refine ⟨hv, hacc, fun v => ?_, fun v v' hvv m h m' h' => ?_, fun v m h => ?_, fun j hj => ?_, fun v m h => ?_, fun d hd => ?_⟩
  · by_cases hv : v = w
    · subst hv
      refine ((hm.map _).nodup_iff).mpr ?_
      cases (s.processMessage i e.event result stage).2 with
      | goes => exact List.nodup_cons.mpr hnd
      | returns | raises => exact hnd.2
    · exact ho v hv ▸ hs.nodup v
  · rcases hmem h with ⟨h, hne⟩ | ⟨rfl, -, hmi⟩ <;> rcases hmem h' with ⟨h', hne'⟩ | ⟨rfl, -, hmi'⟩
    · exact hs.apart v v' hvv m h m' h'
    · rwa [hmi']
    · rw [hmi]
      exact hne'.symm
    · exact absurd rfl hvv
  · intro ht
    have ht := isTrimmed_of_le (Nat.le_of_eq hc.first.symm) ht
    rcases hmem h with ⟨h, -⟩ | ⟨-, -, hmi⟩
    · exact hnew (hs.taken v m h ht) (lt_of_status?.1 (hs.valid v m h))
    · rw [hmi] at ht ⊢
      exact hnew (hs.taken w _ hi ht) (lt_of_status?.1 (hs.valid w _ hi))
  · by_cases hji : j = i
    · subst hji
      refine hc.done ?_
      cases ho : (s.processMessage j e.event result stage).2 with
      | goes stage' =>
        exact absurd ⟨w, (j, stage'), hm.mem_iff.mpr (List.mem_append_left _ (by rw [ho]; exact List.mem_cons_self)), rfl⟩ hj
      | returns | raises => rfl
    · exact (hs.free j fun ⟨v, m, h, hmj⟩ => hj ⟨v, m, hback h (hmj ▸ hji), hmj⟩).mono (.of_eq (hc.others j hji)) (hev j) hc.runs
  · rcases hmem h with ⟨h, hne⟩ | ⟨-, h, -⟩
    · exact (hs.held v m h).mono (.of_eq (hc.others _ hne)) (hev _) hc.runs
    · exact hc.next m h
  · rcases hc.deadLetters d hd with hd | ⟨hdi, hdue⟩
    · exact (hs.deadLetters d hd).mono hc.maxAttempts hc.runs
    · rwa [hdi]

/-- What a step keeps, if it claims no message that is held. -/
theorem Counted.step (hs : s.Counted) (hok : s.ClaimsFree l) (h : Step s l t) : t.Counted := by
  have hacc := hs.accounted.step h
  have hv := valid_of_step h hs.valid
  cases moved_of_step h with
  | publish fields =>
    refine hs.of_perm (fun _ => .refl _) hacc hv (Nat.le_add_right ..) (fun i => ?_) (fun i hi => ?_) rfl rfl rfl
    · simp only [StreamGroup.status?, List.getElem?_append]
      split
      · exact .inl rfl
      · have hnone : s.entries[i]? = none := List.getElem?_eq_none (by omega)
        rw [hnone, List.getElem?_singleton]
        split
        · exact .inr ⟨rfl, rfl⟩
        · exact .inl rfl
    · obtain ⟨status, h⟩ := Option.ne_none_iff_exists'.mp hi
      refine StreamGroup.event?_eq ?_
      simp only [StreamGroup.fields?]
      rw [List.getElem?_append_left (lt_of_status?.2 ⟨status, h⟩)]
  | tick duration =>
    exact hs.of_perm (fun _ => .refl _) hacc hv (Nat.le_refl _) (fun _ => .inl rfl) (fun _ _ => rfl) rfl rfl rfl
  | kept hg hm =>
    exact hs.of_perm hm hacc hv (by rw [hg]) (fun _ => .inl (by rw [hg])) (fun _ _ => by rw [hg]) (by rw [hg]) (by rw [hg])
      (by rw [hg])
  | took hg hb hm ho =>
    rcases hb with ⟨rfl, rfl⟩ | ⟨⟨result, rfl⟩, hclaim, rfl, rfl⟩
    · refine hs.took hacc hv hg nodup_unread (fun i hi hheld => ?_) (fun i hi => absurd hi List.not_mem_nil) hm ho
      obtain ⟨w, m, hmem, hmi⟩ := hheld
      obtain ⟨hnew, ht⟩ := status?_of_mem_unread hi
      exact hs.taken w m hmem (hmi ▸ ht) (hmi ▸ hnew)
    · exact hs.took hacc hv hg nodup_claimable (hok hclaim) (fun i => StreamGroup.isTrimmed_of_mem_gone) hm ho
  | went others he hg hp hh hm ho => exact hs.went hacc hv he hg hh (hp ▸ hm) ho

theorem counted_initial : ({ maxAttempts, retryIdle } : GroupState).Counted where
  valid := valid_initial
  accounted := accounted_initial
  nodup _ := .nil
  apart _ _ _ _ h := by cases h
  taken _ _ h := by cases h
  free i _ n deliveredAt hp := by simp [StreamGroup.status?] at hp
  held _ _ h := by cases h
  deadLetters _ h := by cases h

/-- What a step adds to the completed runs is the result it brings. -/
theorem runs_of_step (h : Step s l t) : t.runs = s.runs ∨
    ∃ i result, t.runs = s.runs ++ [(i, result)] ∧ ((∃ w, l = .main w result) ∨ ∃ w j, l = .task w j result) := by
  have hp {g : StreamGroup} {i : Nat} {fields : Fields} {result : DeliveryResult} {stage : Stage} :
      (g.processMessage i fields result stage).1.runs = g.runs ∨
        (g.processMessage i fields result stage).1.runs = g.runs ++ [(i, result)] := by
    cases he : CopyEvent.fromFields fields with
    | none => rw [processMessage_of_none he]; exact .inl rfl
    | some event =>
      have h := processed_of_some g i result stage he
      generalize g.processMessage i fields result stage = p at h
      obtain ⟨g', o⟩ := p
      cases h with
      | complete => exact .inr rfl
      | _ => exact .inl rfl
  cases h with
  | @process w i stage rest result => exact hp.imp_right fun h => ⟨i, result, h, .inl ⟨w, rfl⟩⟩
  | @task w j task result => exact hp.imp_right fun h => ⟨task.entry, result, h, .inr ⟨w, j, rfl⟩⟩
  | _ => exact .inl rfl

/-- From the start of a stream: while claims take only messages that no worker holds,
every dead letter is due, whatever is trimmed. Where the main loops run on and no entry is
lost, under a fair schedule, an event whose handler's runs end in success is handled and
is no dead letter. -/
theorem deadLetters_due :
    (∀ s, Reach step ClaimsFree { maxAttempts, retryIdle } s → ∀ d ∈ s.deadLetters, s.Due d.entry) ∧
    ∀ x : Execution step Harmless, x.state 0 = { maxAttempts, retryIdle } → Fair x →
      ∀ n i, i < (x.state n).entries.length → (∀ k, ∀ run ∈ (x.state k).runs, run.1 = i → run.2 = .success) →
        (∃ k, n ≤ k ∧ (x.state k).status? i = some .acked ∧ ∃ j event event', (x.state k).event? i = some event ∧
          (x.state k).event? j = some event' ∧ event'.idempotencyKey = event.idempotencyKey ∧
          (j, .success) ∈ (x.state k).runs) ∧
        ∀ k, ∀ d ∈ (x.state k).deadLetters, d.entry ≠ i := by
  refine ⟨fun s h => ?_, fun x h₀ hf n i hi hsucc => ?_⟩
  · exact (h.invariant (P := Counted) counted_initial fun _ _ _ hP hok hs => hP.step hok (step_cases hs)).deadLetters
  · obtain ⟨k, hk, hacked, hhandled⟩ := exists_handled h₀ hf hi
    refine ⟨⟨k, hk, hacked, ?_⟩, fun k d hd hdi => ?_⟩
    · rcases hhandled with ⟨result, hr⟩ | h
      · cases hsucc k _ hr rfl
        obtain ⟨e, he⟩ : ∃ e, (x.state k).entries[i]? = some e := ⟨_, List.getElem?_eq_getElem (lt_of_le hi hk)⟩
        obtain ⟨event, -, hev, -⟩ := (healthy (h₀ ▸ healthy_initial)).events i e.event (fields?_of_entry he)
        have hi : (x.state k).event? i = some event := by rw [StreamGroup.event?, fields?_of_entry he]; exact hev
        exact ⟨i, event, event, hi, hi, rfl, hr⟩
      · exact h
    · obtain ⟨result, hr, hne⟩ := (accounted h₀ k).group.deadLetters d hd
      exact hne (hsucc k _ hr hdi)

omit [Runtime] in
/-- A message whose handler asks for a dead letter, and one whose handler succeeds. -/
theorem deadLetters_due_oneMessage :
    let _ := Runtime.oneSource
    (∃ s, Reach step ClaimsFree {} s ∧ (s.deadLetters.map (·.entry)) = [0] ∧ ∀ d ∈ s.deadLetters, s.Due d.entry) ∧
    ∃ x : Execution step Harmless, x.state 0 = {} ∧ Fair x ∧ 0 < (x.state 1).entries.length ∧
      ∃ k, 1 ≤ k ∧ ∃ j, (j, .success) ∈ (x.state k).runs := by
  intro _
  constructor
  · -- no entry is idle, so that no claim takes anything
    have hrun : (runIf step (fun s _ => s.claimable = []) {}
        [.publish (sourceMessage "1"), .main 0 .success, .main 0 .success, .main 0 .success, .task 0 0 .success,
          .task 0 0 (.dead_letter "INVALID_EVENT"), .task 0 0 .success]).map (·.deadLetters.map (·.entry)) = some [0] := by
      decide +kernel
    obtain ⟨s, hs, hd⟩ := Option.map_eq_some_iff.mp hrun
    have hreach : Reach step ClaimsFree {} s := (Reach.of_runIf hs).mono fun t l hclaim => by
      unfold ClaimsFree
      split
      · intro _ i hi
        rw [hclaim] at hi
        cases hi
      · trivial
    exact ⟨s, hreach, hd, deadLetters_due.1 s hreach⟩
  · obtain ⟨x, h₀, hl, hf⟩ := exists_turns ["1"] fun _ => .success
    have hone : 0 < (x.state 1).entries.length := by
      have h := x.run_range 1
      rw [h₀, hl] at h
      rw [← Option.some.inj h]
      exact Nat.one_pos
    have hsucc : ∀ k, ∀ run ∈ (x.state k).runs, run.2 = .success := fun k => by
      induction k with
      | zero => rw [h₀]; nofun
      | succ k ih =>
        intro run hrun
        rcases runs_of_step (step_cases (x.next k)) with h | ⟨i, result, h, hlabel⟩
        · exact ih run (h ▸ hrun)
        · rcases List.mem_append.mp (h ▸ hrun) with hrun | hrun
          · exact ih run hrun
          · rw [List.mem_singleton.mp hrun]
            rw [hl] at hlabel
            rcases hlabel with ⟨w, hw⟩ | ⟨w, j, hj⟩
            · exact (of_turns_eq_main hw).2.2.2
            · unfold turns at hj
              split at hj
              · cases hj
              · split at hj <;> cases hj
    obtain ⟨⟨k, hk, -, j, -, -, -, -, -, hr⟩, -⟩ := deadLetters_due.2 x h₀ hf 1 0 hone fun k run hrun _ => hsucc k run hrun
    exact ⟨x, h₀, hf, hone, k, hk, j, hr⟩

omit [Runtime] in
/-- A dead letter after one run: a handler that asks for it, and a message that was
claimed while it was queued and whose only run fails. -/
theorem deadLetters_after_one_run :
    let _ := Runtime.oneSource
    (∃ s, Reach step always {} s ∧ s.maxAttempts = 2 ∧ (s.deadLetters.map (·.entry)) = [0] ∧
      s.runs = [(0, .dead_letter "INVALID_EVENT")]) ∧
    ∃ s, Reach step always {} s ∧ s.maxAttempts = 2 ∧ (s.deadLetters.map (·.entry)) = [0] ∧ s.runs = [(0, .retry "TIMEOUT")] := by
  intro _
  constructor
  · have hrun : (run step {}
        [.publish (sourceMessage "1"), .main 0 .success, .main 0 .success, .main 0 .success, .task 0 0 .success,
          .task 0 0 (.dead_letter "INVALID_EVENT"), .task 0 0 .success]).map
        (fun s => (s.maxAttempts, s.deadLetters.map (·.entry), s.runs)) =
          some (2, [0], [(0, .dead_letter "INVALID_EVENT")]) := by decide +kernel
    obtain ⟨s, hs, h⟩ := Option.map_eq_some_iff.mp hrun
    obtain ⟨hmax, h⟩ := Prod.mk.inj h
    exact ⟨s, .of_run hs, hmax, Prod.mk.inj h⟩
  · have hrun : (run step {}
        [.publish (sourceMessage "1"), .main 0 .success, .main 0 .success, .main 0 .success, .tick (seconds 5),
          .main 0 .success, .main 0 .success, .main 0 (.retry "TIMEOUT"), .main 0 .success]).map
        (fun s => (s.maxAttempts, s.deadLetters.map (·.entry), s.runs)) = some (2, [0], [(0, .retry "TIMEOUT")]) := by
      decide +kernel
    obtain ⟨s, hs, h⟩ := Option.map_eq_some_iff.mp hrun
    obtain ⟨hmax, h⟩ := Prod.mk.inj h
    exact ⟨s, .of_run hs, hmax, Prod.mk.inj h⟩

end GroupState

end SignalSync
