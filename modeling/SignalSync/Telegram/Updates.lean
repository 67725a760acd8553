import SignalSync.Signal.Edits
import SignalSync.Stream.Worker

/-!
# From Telegram to the signal handler

The Telegram runtime publishes a message when it is posted and when it is edited
(`publishMessage`); the stream's workers hand what it published to the signal
handler, unless its idempotency key has been processed. All edits of a message
have one key.

* `edits_not_lost`: in a run in which no edit is published while another edit of
  its message is in process or remembered, no edit is lost;
* `secondEdit_lost`: the second of two edits within a week is.
-/

namespace SignalSync

open Library

/-! ## Publishing -/

/-- A message as Telegram shows it. `revision` counts its edits; the runtime does
not read it. -/
structure TelegramMessage where
  id : Int
  chatId : Int
  text : String
  replyToMessageId : Option Int := none
  date : Time
  revision : Nat := 0

/-- What the runtime finds for a message: its connection, `none` if it is gone,
its source, and whether a group's sender administers it. -/
structure PublishContext where
  connectionId : Uuid
  connectionPaused : Option Bool := some false
  source : Option (Uuid × TelegramSource)
  senderIsAdmin : Bool := false

/-- `f"{connection_id}:{chat_id}:{message.id}:{event_type}"`. -/
structure MessageKey where
  connectionId : Uuid
  chatId : Int
  messageId : Int
  eventType : MessageEventType
deriving DecidableEq

/-- An event of the message stream. The revision it was published at is not part
of the event. -/
structure MessageUpdate where
  key : MessageKey
  event : MessageEvent
  revision : Nat

/-- Two events for the same revision of a message. -/
def SameUpdate (u v : MessageUpdate) : Prop := u.key = v.key ∧ u.revision = v.revision

variable [Unicode]

/-- `publish_message_unlocked`. -/
def publishMessage (context : PublishContext) (correlationId : Uuid) (eventType : MessageEventType)
    (message : TelegramMessage) : Option MessageUpdate :=
  match context.source with
  | none => none
  | some (sourceId, source) =>
    if context.connectionPaused ≠ some false || source.isPaused then none
    -- a message without text, or with an image only
    else if Unicode.strip message.text = "" then none
    else some
      { key := ⟨context.connectionId, message.chatId, message.id, eventType⟩
        event :=
          { eventType, correlationId
            connectionId := context.connectionId
            sourceId := sourceId
            chatId := message.chatId
            messageId := message.id
            replyToMessageId := message.replyToMessageId
            senderIsAdmin := !source.isGroup || context.senderIsAdmin
            text := message.text
            occurredAt := message.date }
        revision := message.revision }

/-! ## The pipeline -/

abbrev MessageStream := StreamState MessageKey MessageUpdate Unit

structure Pipeline where
  stream : MessageStream := {}
  signal : SignalState
  /-- The events the handler has handled, and those dropped as processed. -/
  handled : List MessageUpdate := []
  dropped : List MessageUpdate := []

inductive PipelineStep
  | telegram (context : PublishContext) (correlationId : Uuid) (eventType : MessageEventType) (message : TelegramMessage)
  | worker (label : StreamLabel MessageUpdate)
  /-- The handler runs on a delivery, to its end. -/
  | handle (delivery : Nat) (env : SignalEnv)
  /-- What else happens to the database. -/
  | other (step : SignalStep)

def SignalError.code : SignalError → String
  | .attributeError => "ATTRIBUTEERROR"
  | .integrityError => "INTEGRITYERROR"
  | .keyError => "KEYERROR"

/-- The result a run is concluded with. -/
def SignalRun.delivery (run : SignalRun) : DeliveryResult :=
  match run.result with
  | .ok (result, _) => result
  | .error e => .retry e.code

/-- The event a step of a worker drops. -/
def MessageStream.dropped (s : MessageStream) : StreamLabel MessageUpdate → List MessageUpdate
  | .start d =>
    match s.delivered d with
    | some (⟨_, .check⟩, e) => if s.isProcessed e.event.key then [e.event] else []
    | _ => []
  | _ => []

/-- Telegram announces the edits of a message in order. -/
def MessageStream.inOrder (s : MessageStream) (u : MessageUpdate) : Bool :=
  s.events.all fun v => v.key ≠ u.key || v.revision ≤ u.revision

def pipelineStep (s : Pipeline) : PipelineStep → Option Pipeline
  | .telegram context correlationId eventType message =>
    match publishMessage context correlationId eventType message with
    | none => some s
    | some u =>
      if s.stream.inOrder u then
        (s.stream.step MessageUpdate.key (fun _ => ()) (.publish u)).map fun stream => { s with stream }
      else none
  | .worker (.publish _) => none
  | .worker label => (s.stream.step MessageUpdate.key (fun _ => ()) label).map fun stream =>
      { s with stream, dropped := s.dropped ++ s.stream.dropped label }
  | .handle d env =>
    match s.stream.delivered d with
    | some (⟨_, .handle _⟩, e) =>
      let result := (signalHandler env e.event.event s.signal.db s.signal.keys).delivery
      (signalStep s.signal (.message env e.event.event)).map fun signal =>
        { s with
          signal
          stream := s.stream.setStage d (.result result)
          handled := if result = .success then s.handled ++ [e.event] else s.handled }
    | _ => none
  | .other step => (signalStep s.signal step).map fun signal => { s with signal }

/-- No other revision of the message is in process or remembered. -/
def Fresh (s : MessageStream) (u : MessageUpdate) : Prop :=
  (∀ e ∈ s.entries.zipIdx, s.inProcess e.2 → e.1.event.key = u.key → e.1.event.revision = u.revision) ∧
    ∀ p ∈ s.processed, s.now < p.expires → p.key = u.key → p.event.revision = u.revision

instance (s : MessageStream) (u : MessageUpdate) : Decidable (Fresh s u) := by
  delta Fresh
  infer_instance

/-- What is published is fresh. -/
def publishesFresh (s : Pipeline) : PipelineStep → Prop
  | .telegram context correlationId eventType message =>
    ∀ u ∈ publishMessage context correlationId eventType message, Fresh s.stream u
  | _ => True

instance : ∀ (s : Pipeline) (a : PipelineStep), Decidable (publishesFresh s a)
  | s, .telegram context correlationId eventType message =>
    inferInstanceAs (Decidable (∀ u ∈ publishMessage context correlationId eventType message, Fresh s.stream u))
  | _, .worker _ | _, .handle _ _ | _, .other _ => .isTrue trivial

/-! ## No edit is lost -/

/-- The event's revision has been handled. -/
def Pipeline.HasHandled (s : Pipeline) (u : MessageUpdate) : Prop := ∃ h ∈ s.handled, SameUpdate h u

/-- Between steps: events in process that share a key are for one revision, and
what has been handled is not newer. -/
structure PipelineInvariant (s : Pipeline) : Prop where
  sound : s.stream.Sound MessageUpdate.key s.HasHandled
  same : ∀ (i j : Nat) (e e' : StreamEntry MessageUpdate), s.stream.entries[i]? = some e → s.stream.entries[j]? = some e' →
    s.stream.inProcess i → s.stream.inProcess j → e.event.key = e'.event.key → e.event.revision = e'.event.revision
  remembered : ∀ p ∈ s.stream.processed, p.key = p.event.key ∧ s.HasHandled p.event
  published : ∀ h ∈ s.handled, h ∈ s.stream.events
  order : ∀ h ∈ s.handled, ∀ (i : Nat) (e : StreamEntry MessageUpdate), s.stream.entries[i]? = some e →
    s.stream.inProcess i → h.key = e.event.key → h.revision ≤ e.event.revision
  sorted : s.handled.Pairwise fun h h' => h.key = h'.key → h.revision ≤ h'.revision
  dropped : ∀ u ∈ s.dropped, s.HasHandled u

section

variable {s t : Pipeline} {m : MessageStream} {l : StreamLabel MessageUpdate} {u : MessageUpdate}

abbrev MessageStream.Step (s : MessageStream) := StreamState.Step MessageUpdate.key (fun _ => ()) s

omit [Unicode] in
/-- Good for the entry's revision, good for every revision equal to it. -/
theorem HasHandled.same (h : s.HasHandled u) {v : MessageUpdate} (hv : SameUpdate u v) : s.HasHandled v := by
  obtain ⟨w, hw, hs⟩ := h
  exact ⟨w, hw, hs.1.trans hv.1, hs.2.trans hv.2⟩

omit [Unicode] in
theorem revision_of_fresh (h : Fresh s.stream u) {i : Nat} {e : StreamEntry MessageUpdate} (he : s.stream.entries[i]? = some e)
    (hi : s.stream.inProcess i) (hk : e.event.key = u.key) : e.event.revision = u.revision :=
  h.1 (e, i) (List.mem_zipIdx_iff_getElem?.mpr he) hi hk

omit [Unicode] in
theorem revision_of_inOrder (h : s.stream.inOrder u) {v : MessageUpdate} (hv : v ∈ s.stream.events) (hk : v.key = u.key) :
    v.revision ≤ u.revision := by
  have := List.all_eq_true.mp h v hv
  simpa [hk] using this

omit [Unicode] in
/-- A step of the stream or of a worker keeps the invariant; what is published
must be fresh and in order. -/
theorem PipelineInvariant.stream_step (hs : PipelineInvariant s) (h : s.stream.Step l m)
    (hfresh : ∀ u, l = .publish u → Fresh s.stream u ∧ s.stream.inOrder u) :
    PipelineInvariant { s with stream := m, dropped := s.dropped ++ s.stream.dropped l } where
  sound := by
    refine hs.sound.step h (fun d _ i j e e' _ hd he' hj hk => ?_) fun u hl hp => ?_
    · exact HasHandled.same (s := s) (hs.sound.finished d _ e hd rfl)
        ⟨hk, hs.same i j e e' (StreamState.delivered_eq_some.1 hd).2 he' (StreamState.inProcess_of_delivered hd rfl) hj hk⟩
    · obtain ⟨p, hp, hk, hn⟩ := StreamState.isProcessed_iff.1 hp
      obtain ⟨hkey, hhandled⟩ := hs.remembered p hp
      exact HasHandled.same (s := s) hhandled ⟨hkey.symm.trans hk, (hfresh u hl).1.2 p hp hn hk⟩
  same i j e e' he he' hi hj hk := by
    rcases StreamState.inProcess_entry_of_step h he hi with ⟨e₀, he₀, hev, hi⟩ | ⟨hl, hi⟩ <;>
      rcases StreamState.inProcess_entry_of_step h he' hj with ⟨e₁, he₁, hev', hj⟩ | ⟨hl', hj⟩
    · rw [← hev, ← hev'] at hk ⊢
      exact hs.same i j e₀ e₁ he₀ he₁ hi hj hk
    · rw [← hev] at hk ⊢
      exact revision_of_fresh (hfresh _ hl').1 he₀ hi hk
    · rw [← hev'] at hk ⊢
      exact (revision_of_fresh (hfresh _ hl).1 he₁ hj hk.symm).symm
    · subst hi hj
      cases he.symm.trans he'
      rfl
  remembered p hp := by
    rcases StreamState.processed_of_step h hp with hp | ⟨d, _, i, e, -, hd, hk, he⟩
    · exact hs.remembered p hp
    · rw [he]
      exact ⟨hk, hs.sound.finished d _ e hd rfl⟩
  published u hu := StreamState.mem_events_of_step h (hs.published u hu)
  order u hu i e he hi hk := by
    rcases StreamState.inProcess_entry_of_step h he hi with ⟨e₀, he₀, hev, hi⟩ | ⟨hl, -⟩
    · rw [← hev] at hk ⊢
      exact hs.order u hu i e₀ he₀ hi hk
    · exact revision_of_inOrder (hfresh _ hl).2 (hs.published u hu) hk
  sorted := hs.sorted
  dropped u hu := by
    rcases List.mem_append.mp hu with hu | hu
    · exact hs.dropped u hu
    · unfold MessageStream.dropped at hu
      split at hu
      · split at hu
        · rename_i e hd
          split at hu
          · rw [List.mem_singleton.mp hu]
            exact hs.sound.dropped hd rfl (by assumption)
          · cases hu
        · cases hu
      · cases hu

omit [Unicode] in
/-- So does a run of the handler: what it handles is in process. -/
theorem PipelineInvariant.handle_step (hs : PipelineInvariant s) {d : Nat} {x : Delivery Unit} {e : StreamEntry MessageUpdate}
    (hd : s.stream.delivered d = some (x, e)) (ha : x.stage.isActive) (result : DeliveryResult) (signal : SignalState) :
    PipelineInvariant
      { s with
        signal
        stream := s.stream.setStage d (.result result)
        handled := if result = .success then s.handled ++ [e.event] else s.handled } := by
  have hi := StreamState.inProcess_of_delivered hd ha
  have he := (StreamState.delivered_eq_some.1 hd).2
  have hback {i : Nat} (h : (s.stream.setStage d (.result result)).inProcess i) : s.stream.inProcess i :=
    StreamState.inProcess_setStage_of_active hd ha h
  set handled := if result = .success then s.handled ++ [e.event] else s.handled with hhandled
  have hmem : ∀ u ∈ handled, u ∈ s.handled ∨ result = .success ∧ u = e.event := by
    intro u hu
    rw [hhandled] at hu
    split at hu
    · rename_i hr
      rcases List.mem_append.mp hu with hu | hu
      · exact .inl hu
      · exact .inr ⟨hr, List.mem_singleton.mp hu⟩
    · exact .inl hu
  have hmono : ∀ u ∈ s.handled, u ∈ handled := by
    intro u hu
    rw [hhandled]
    split
    · exact List.mem_append_left _ hu
    · exact hu
  have hkeep (u : MessageUpdate) (h : s.HasHandled u) : ∃ v ∈ handled, SameUpdate v u := by
    obtain ⟨v, hv, hs⟩ := h
    exact ⟨v, hmono v hv, hs⟩
  refine ⟨?_, fun i j e₀ e₁ he₀ he₁ hi hj => hs.same i j e₀ e₁ he₀ he₁ (hback hi) (hback hj), fun p hp => ?_, fun u hu => ?_,
    fun u hu i e' he' hi' hk => ?_, ?_, fun u hu => hkeep u (hs.dropped u hu)⟩
  · refine (hs.sound.mono fun u _ => hkeep u).setStage hd ha (by simp) fun hr => ?_
    have hr : result = .success := by simpa using hr
    exact ⟨e.event, by simp [hhandled, hr], rfl, rfl⟩
  · exact ⟨(hs.remembered p hp).1, hkeep _ (hs.remembered p hp).2⟩
  · rcases hmem u hu with hu | ⟨-, rfl⟩
    · exact hs.published u hu
    · exact List.mem_map.mpr ⟨e, List.mem_of_getElem? he, rfl⟩
  · rcases hmem u hu with hu | ⟨-, rfl⟩
    · exact hs.order u hu i e' he' (hback hi') hk
    · exact (hs.same x.entry i e e' he he' hi (hback hi') hk).le
  · simp only [hhandled]
    split
    · refine List.pairwise_append.mpr ⟨hs.sorted, List.pairwise_singleton _ _, fun u hu v hv hk => ?_⟩
      rw [List.mem_singleton.mp hv] at hk ⊢
      exact hs.order u hu x.entry e he hi hk
    · exact hs.sorted

/-- One step keeps the invariant. -/
theorem PipelineInvariant.step (hs : PipelineInvariant s) {a : PipelineStep} (ha : publishesFresh s a)
    (h : pipelineStep s a = some t) : PipelineInvariant t := by
  cases a with
  | telegram context correlationId eventType message =>
    simp only [pipelineStep] at h
    split at h
    · cases h
      exact hs
    · rename_i u hu
      split at h
      · rename_i horder
        obtain ⟨m, hm, rfl⟩ := Option.map_eq_some_iff.mp h
        have := hs.stream_step (StreamState.step_cases hm) fun v hv => by
          cases hv
          exact ⟨ha u hu, horder⟩
        simpa [MessageStream.dropped] using this
      · cases h
  | worker label =>
    have hno : ∀ u, label ≠ .publish u := by
      rintro u rfl
      cases h
    have h : (s.stream.step MessageUpdate.key (fun _ => ()) label).map (fun stream =>
        { s with stream, dropped := s.dropped ++ s.stream.dropped label }) = some t := by
      cases label with
      | publish u => exact absurd rfl (hno u)
      | _ => exact h
    obtain ⟨m, hm, rfl⟩ := Option.map_eq_some_iff.mp h
    exact hs.stream_step (StreamState.step_cases hm) fun u hu => absurd hu (hno u)
  | handle d env =>
    simp only [pipelineStep] at h
    split at h
    · rename_i hd
      obtain ⟨signal, -, rfl⟩ := Option.map_eq_some_iff.mp h
      exact hs.handle_step hd rfl _ _
    · cases h
  | other step =>
    obtain ⟨signal, -, rfl⟩ := Option.map_eq_some_iff.mp h
    exact ⟨hs.sound, hs.same, hs.remembered, hs.published, hs.order, hs.sorted, hs.dropped⟩

end

omit [Unicode] in
theorem PipelineInvariant.start (signal : SignalState) : PipelineInvariant { signal } where
  sound :=
    { valid := fun _ h => absurd h List.not_mem_nil
      processed := fun _ h => absurd h List.not_mem_nil
      finished := fun _ _ _ h => by simp [StreamState.delivered] at h
      acknowledged := fun _ _ _ h => by simp [StreamState.delivered] at h
      acked := fun _ _ h => by simp at h }
  same _ _ _ _ h := by simp at h
  remembered _ h := absurd h List.not_mem_nil
  published _ h := absurd h List.not_mem_nil
  order _ h := absurd h List.not_mem_nil
  sorted := .nil
  dropped _ h := absurd h List.not_mem_nil

/-- **No edit is lost.** In a run that publishes fresh events only, an event is
dropped only when its revision has been handled, an event that is acknowledged has
been handled or is a dead letter, and the revisions of a message are handled in
order, the last one last. -/
theorem edits_not_lost {signal : SignalState} {s : Pipeline} (h : Reach pipelineStep publishesFresh { signal } s) :
    (∀ u ∈ s.dropped, s.HasHandled u) ∧
      (∀ e ∈ s.stream.entries, e.status = .acked → s.HasHandled e.event ∨ e.event ∈ s.stream.deadLetters) ∧
      s.handled.Pairwise fun u v => u.key = v.key → u.revision ≤ v.revision := by
  have hs : PipelineInvariant s := h.invariant (.start signal) fun _ _ _ hs ha h => hs.step ha h
  refine ⟨hs.dropped, fun e he ha => ?_, hs.sorted⟩
  obtain ⟨i, hi⟩ := List.mem_iff_getElem?.mp he
  exact hs.sound.acked i e hi ha

/-! ## Two edits of a message -/

/-- An edit of message 11 is published and processed, as delivery `d`. -/
def goldEditSteps (d revision : Nat) (now : Time) (text : String) (parsed : AiAction) : List PipelineStep :=
  [ .worker (.tick now),
    .telegram { connectionId := 6, source := some (2, { isGroup := false, isPaused := false }) } (.given (20 + d)) .edited
      { id := 11, chatId := 7, text, date := seconds 100, revision },
    .worker .read,
    .worker (.start d),
    .handle d (goldEnv d now parsed),
    .worker (.conclude d true),
    .worker (.acknowledge d) ]

/-- An opening is completed by a second edit. -/
def goldEdits (pause : Time) : List PipelineStep :=
  goldEditSteps 0 1 (seconds 101) "BUY XAUUSD" buyNow ++ goldEditSteps 1 2 pause "BUY XAUUSD SL 2390 TP 2410" buyGold

omit [Unicode] in
/-- The second edit comes eight days after the first, and both are handled. -/
theorem edits_not_lost_goldEdits :
    let _ := Unicode.ascii
    ∃ s : Pipeline, s.handled.map (·.revision) = [1, 2] ∧ (∀ u ∈ s.dropped, s.HasHandled u) ∧
      (∀ e ∈ s.stream.entries, e.status = .acked → s.HasHandled e.event ∨ e.event ∈ s.stream.deadLetters) ∧
      s.handled.Pairwise fun u v => u.key = v.key → u.revision ≤ v.revision := by
  intro _
  have hrun : (runIf pipelineStep publishesFresh { signal := { db := goldDatabase } } (goldEdits (seconds 691200))).map
      (fun s => s.handled.map (·.revision)) = some [1, 2] := by decide +kernel
  obtain ⟨s, hs, hh⟩ := Option.map_eq_some_iff.mp hrun
  exact ⟨s, hh, edits_not_lost (.of_runIf hs)⟩

omit [Unicode] in
/-- The second edit comes a minute after the first, and is dropped. -/
theorem secondEdit_lost :
    let _ := Unicode.ascii
    ∃ s : Pipeline, Reach pipelineStep always { signal := { db := goldDatabase } } s ∧
      s.dropped.map (·.revision) = [2] ∧ s.handled.map (·.revision) = [1] := by
  intro _
  have hrun : (run pipelineStep { signal := { db := goldDatabase } } ((goldEdits (seconds 60)).take 11)).map
      (fun s => (s.dropped.map (·.revision), s.handled.map (·.revision))) = some ([2], [1]) := by decide +kernel
  obtain ⟨s, hs, hh⟩ := Option.map_eq_some_iff.mp hrun
  exact ⟨s, .of_run hs, congrArg Prod.fst hh, congrArg Prod.snd hh⟩

end SignalSync
