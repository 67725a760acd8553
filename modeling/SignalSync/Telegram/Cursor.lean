import SignalSync.Library.Run
import SignalSync.Telegram.Updates

/-!
# The cursor of a source

The runtime keeps the highest message id it has handled for a source, and a poll
publishes what Telegram has above it. A live update moves the cursor too, whatever
lies between: a message whose update was lost is passed over for good as soon as a
later one arrives (`lostUpdate_passed`). As long as no live update comes before an
earlier message is handled, no message is skipped and a later poll finds what was
lost (`no_message_skipped`).
-/

namespace SignalSync

open Library

/-- `_recover_missed_source_messages` on the source. -/
inductive RecoveryPoll
  | idle
  /-- It has read the cursor. -/
  | read (cursor : Int)
  /-- It found no cursor, and the latest message. -/
  | latest (id : Int)
  /-- The messages it has still to publish. -/
  | listed (rest : List Int)
deriving DecidableEq

/-- One source. `existing` are the ids of its messages, in order; `initial` is the
first cursor that was stored. -/
structure CursorState where
  existing : List Int := []
  cursor : Option Int := none
  poll : RecoveryPoll := .idle
  initial : Option Int := none
  published : List Int := []
  passedOver : List Int := []

inductive CursorLabel
  | post (id : Int)
  /-- `_refresh_source_recovery_cache` finds the last message of a conversation. -/
  | seed (id : Int)
  /-- An update arrives; `cut` if the runtime fails before it moves the cursor. -/
  | live (context : PublishContext) (correlationId : Uuid) (eventType : MessageEventType) (message : TelegramMessage) (cut : Bool)
  | poll
  | list
  | setLatest
  | publish (context : PublishContext) (correlationId : Uuid) (message : TelegramMessage) (cut : Bool)
  /-- The poll ends, or fails. -/
  | stop

namespace CursorState

/-- The message has been published, or passed over on purpose. -/
def Handled (s : CursorState) (id : Int) : Prop := id ∈ s.published ∨ id ∈ s.passedOver

instance (s : CursorState) (id : Int) : Decidable (s.Handled id) := inferInstanceAs (Decidable (_ ∨ _))

/-- `redis.set(cursor_key, …)`. -/
def setCursor (s : CursorState) (id : Int) : CursorState := { s with cursor := some id, initial := s.initial.or (some id) }

/-- `_advance_source_cursor`. -/
def advance (s : CursorState) (id : Int) : CursorState := if s.cursor.getD 0 < id then s.setCursor id else s

variable [Unicode]

/-- `publish_message_unlocked`, for a source that is there. -/
def publishUnlocked (s : CursorState) (context : PublishContext) (correlationId : Uuid) (eventType : MessageEventType)
    (message : TelegramMessage) (cut : Bool) : CursorState :=
  let s :=
    match publishMessage context correlationId eventType message with
    | none => { s with passedOver := s.passedOver ++ [message.id] }
    | some _ => { s with published := s.published ++ [message.id] }
  if cut then s else s.advance message.id

/-- What `iter_messages` yields above a cursor. -/
def listing (s : CursorState) (cursor : Int) : List Int := (s.existing.filter fun id => cursor < id).take 100

def step (s : CursorState) : CursorLabel → Option CursorState
  | .post id => if 0 < id ∧ ∀ id' ∈ s.existing, id' < id then some { s with existing := s.existing ++ [id] } else none
  | .seed id => if 0 < id ∧ s.cursor = none then some (s.setCursor id) else none
  | .live context correlationId eventType message cut =>
    if context.source.isSome ∧ message.id ∈ s.existing then
      some (s.publishUnlocked context correlationId eventType message cut)
    else none
  | .poll => if s.poll = .idle then some { s with poll := .read (s.cursor.getD 0) } else none
  | .list =>
    match s.poll with
    | .read cursor =>
      if cursor = 0 then some { s with poll := s.existing.getLast?.elim .idle .latest }
      else some { s with poll := .listed (s.listing cursor) }
    | _ => none
  | .setLatest =>
    match s.poll with
    | .latest id => some { s.setCursor id with poll := .idle }
    | _ => none
  | .publish context correlationId message cut =>
    match s.poll with
    | .listed (id :: rest) =>
      if context.source.isSome ∧ message.id = id then
        some { s.publishUnlocked context correlationId .created message cut with poll := if cut then .idle else .listed rest }
      else none
    | _ => none
  | .stop => some { s with poll := .idle }

/-- The messages above the first cursor and below `id` have been handled. -/
def HandledBelow (s : CursorState) (id : Int) : Prop := ∀ id' ∈ s.existing, (∀ i ∈ s.initial, i < id') → id' < id → s.Handled id'

instance (s : CursorState) (id : Int) : Decidable (s.HandledBelow id) := inferInstanceAs (Decidable (∀ _ ∈ _, _ → _ → _))

/-- No update overtakes a message that has not been handled, and neither does the
latest message a poll has found when it saw no cursor. -/
def InOrder (s : CursorState) : CursorLabel → Prop
  | .live _ _ _ message cut => cut = false → s.cursor ≠ none → s.HandledBelow message.id
  | .setLatest =>
    match s.poll with
    | .latest id => s.cursor ≠ none → s.HandledBelow (id + 1)
    | _ => True
  | _ => True

instance (s : CursorState) : ∀ l, Decidable (s.InOrder l)
  | .live _ _ _ _ _ => inferInstanceAs (Decidable (_ → _ → _))
  | .setLatest =>
    match hp : s.poll with
    | .latest id => decidable_of_iff (s.cursor ≠ none → s.HandledBelow (id + 1)) (by simp [InOrder, hp])
    | .idle | .read _ | .listed _ => isTrue (by simp [InOrder, hp])
  | .post _ | .seed _ | .poll | .list | .publish _ _ _ _ | .stop => isTrue trivial

variable {s t : CursorState} {l : CursorLabel}

/-! ## The invariant -/

/-- What a poll has read still holds: above the cursor it saw, or in the list it has
got, everything older has been handled or is still to come. -/
def PollSound (s : CursorState) : RecoveryPoll → Prop
  | .idle => True
  | .read c => c ≠ 0 → ((∃ i, s.initial = some i ∧ c ≤ i) ∨ c ∈ s.existing) ∧ s.initial ≠ none ∧ s.HandledBelow (c + 1)
  | .latest id => id ∈ s.existing
  | .listed rest => s.initial ≠ none ∧ rest.Pairwise (· < ·) ∧ rest ⊆ s.existing ∧
    ∀ id ∈ rest, ∀ id' ∈ s.existing, (∀ i ∈ s.initial, i < id') → id' < id → s.Handled id' ∨ id' ∈ rest

/-- What every run keeps. -/
structure Gapless (s : CursorState) : Prop where
  sorted : s.existing.Pairwise (· < ·)
  positive : ∀ id ∈ s.existing, 0 < id
  initial : s.initial = none ↔ s.cursor = none
  bounded : ∀ c, s.cursor = some c → 0 < c ∧ ((∃ i, s.initial = some i ∧ c ≤ i) ∨ c ∈ s.existing)
  handled : ∀ c, s.cursor = some c → s.HandledBelow (c + 1)
  poll : s.PollSound s.poll

omit [Unicode] in
theorem HandledBelow.mono {id : Int} (h : s.HandledBelow id) (he : t.existing = s.existing)
    (hi : ∀ i, s.initial = some i → t.initial = some i) (hh : ∀ id, s.Handled id → t.Handled id) : t.HandledBelow id :=
  fun id' hid' hin hlt => hh id' (h id' (he ▸ hid') (fun i his => hin i (hi i his)) hlt)

omit [Unicode] in
theorem PollSound.mono {poll : RecoveryPoll} (h : s.PollSound poll) (he : t.existing = s.existing)
    (hi : ∀ i, s.initial = some i → t.initial = some i) (hh : ∀ id, s.Handled id → t.Handled id) : t.PollSound poll := by
  have hne (h : s.initial ≠ none) : t.initial ≠ none := by
    obtain ⟨i, his⟩ := Option.ne_none_iff_exists'.mp h
    simp [hi i his]
  cases poll with
  | idle => trivial
  | read c =>
    intro hc
    obtain ⟨hb, hin, hbelow⟩ := h hc
    refine ⟨?_, hne hin, hbelow.mono he hi hh⟩
    rcases hb with ⟨i, his, hle⟩ | hm
    · exact .inl ⟨i, hi i his, hle⟩
    · exact .inr (he ▸ hm)
  | latest id => exact (he ▸ h : id ∈ t.existing)
  | listed rest =>
    obtain ⟨hin, hsorted, hsub, hrest⟩ := h
    refine ⟨hne hin, hsorted, he ▸ hsub, fun id hid id' hid' hini hlt => ?_⟩
    exact (hrest id hid id' (he ▸ hid') (fun i his => hini i (hi i his)) hlt).imp_left (hh id')

omit [Unicode] in
/-- The cursor stays, or moves to a message with nothing unhandled below it. -/
theorem Gapless.update (hs : s.Gapless) (he : t.existing = s.existing) (hh : ∀ id, s.Handled id → t.Handled id)
    (hc : t.cursor = s.cursor ∧ t.initial = s.initial ∨ ∃ id, 0 < id ∧ t.cursor = some id ∧ t.initial = s.initial.or (some id) ∧
      (s.cursor = none ∨ id ∈ s.existing ∧ t.HandledBelow (id + 1)))
    (hp : t.poll = s.poll ∨ t.PollSound t.poll) : t.Gapless := by
  have hi (i : Int) (his : s.initial = some i) : t.initial = some i := by
    rcases hc with ⟨-, hc⟩ | ⟨id, -, -, hc, -⟩ <;> simp [hc, his]
  refine ⟨he ▸ hs.sorted, he ▸ hs.positive, ?_, fun c htc => ?_, fun c htc => ?_, ?_⟩
  · rcases hc with ⟨hc, hin⟩ | ⟨id, -, hc, hin, -⟩
    · rw [hc, hin]; exact hs.initial
    · simp [hc, hin]
  · rcases hc with ⟨hc, hin⟩ | ⟨id, hpos, hc, hin, hid⟩
    · rw [hin, he]; exact hs.bounded c (hc ▸ htc)
    · cases hc.symm.trans htc
      refine ⟨hpos, ?_⟩
      rcases hid with hnone | ⟨hm, -⟩
      · exact .inl ⟨c, by simp [hin, hs.initial.2 hnone]⟩
      · exact .inr (he ▸ hm)
  · rcases hc with ⟨hc, hin⟩ | ⟨id, hpos, hc, hin, hid⟩
    · exact (hs.handled c (hc ▸ htc)).mono he hi hh
    · cases hc.symm.trans htc
      rcases hid with hnone | ⟨-, hbelow⟩
      · intro id' _ hini hlt
        have := hini c (by simp [hin, hs.initial.2 hnone])
        omega
      · exact hbelow
  · rcases hp with hp | hp
    · exact hp ▸ hs.poll.mono he hi hh
    · exact hp

/-! ## The steps -/

theorem publishUnlocked_spec (s : CursorState) (context : PublishContext) (correlationId : Uuid) (eventType : MessageEventType)
    (message : TelegramMessage) (cut : Bool) :
    (s.publishUnlocked context correlationId eventType message cut).existing = s.existing ∧
    (s.publishUnlocked context correlationId eventType message cut).poll = s.poll ∧
    (∀ id, s.Handled id ∨ id = message.id → (s.publishUnlocked context correlationId eventType message cut).Handled id) ∧
    ((s.publishUnlocked context correlationId eventType message cut).cursor = s.cursor ∧
      (s.publishUnlocked context correlationId eventType message cut).initial = s.initial ∧
      (cut = false → message.id ≤ s.cursor.getD 0) ∨
    cut = false ∧ s.cursor.getD 0 < message.id ∧
      (s.publishUnlocked context correlationId eventType message cut).cursor = some message.id ∧
      (s.publishUnlocked context correlationId eventType message cut).initial = s.initial.or (some message.id)) := by
  unfold publishUnlocked
  cases publishMessage context correlationId eventType message <;> simp only [advance] <;> split
  all_goals try split
  all_goals simp_all [Handled, setCursor]
  all_goals grind

section

variable {context : PublishContext} {correlationId : Uuid} {eventType : MessageEventType} {message : TelegramMessage} {cut : Bool}

theorem initial_publishUnlocked {i : Int} (hi : s.initial = some i) :
    (s.publishUnlocked context correlationId eventType message cut).initial = some i := by
  obtain ⟨-, -, -, ⟨-, hc, -⟩ | ⟨-, -, -, hc⟩⟩ := s.publishUnlocked_spec context correlationId eventType message cut <;>
    simp [hc, hi]

/-- With nothing left below a message, nothing is left up to it once it is handled. -/
theorem HandledBelow.publishUnlocked (h : s.HandledBelow message.id) :
    (s.publishUnlocked context correlationId eventType message cut).HandledBelow (message.id + 1) := by
  obtain ⟨he, -, hh, -⟩ := s.publishUnlocked_spec context correlationId eventType message cut
  intro id hid hini hle
  rcases lt_or_eq_of_le (show id ≤ message.id by omega) with hlt | rfl
  · exact hh id (.inl (h id (he ▸ hid) (fun i hi => hini i (initial_publishUnlocked hi)) hlt))
  · exact hh message.id (.inr rfl)

theorem Gapless.publish (hs : s.Gapless) (hm : message.id ∈ s.existing)
    (hok : cut = false → s.cursor ≠ none → s.HandledBelow message.id) {poll : RecoveryPoll}
    (hp : poll = s.poll ∨ (s.publishUnlocked context correlationId eventType message cut).PollSound poll) :
    { s.publishUnlocked context correlationId eventType message cut with poll := poll }.Gapless := by
  obtain ⟨he, -, hh, hc⟩ := s.publishUnlocked_spec context correlationId eventType message cut
  refine hs.update he (fun id h => hh id (.inl h)) ?_ hp
  rcases hc with ⟨hc, hin, -⟩ | ⟨hcut, -, hc, hin⟩
  · exact .inl ⟨hc, hin⟩
  · refine .inr ⟨message.id, hs.positive _ hm, hc, hin, ?_⟩
    by_cases hnone : s.cursor = none
    · exact .inl hnone
    · exact .inr ⟨hm, (hok hcut hnone).publishUnlocked⟩

omit [Unicode] in
/-- Nothing is left below the next message of a list. -/
theorem PollSound.below {id : Int} {rest : List Int} (h : s.PollSound (.listed (id :: rest))) : s.HandledBelow id := by
  obtain ⟨-, hsorted, -, hrest⟩ := h
  intro id' hid' hini hlt
  refine (hrest id List.mem_cons_self id' hid' hini hlt).resolve_right fun hlist => ?_
  rcases List.mem_cons.mp hlist with rfl | hlist
  · omega
  · have := (List.pairwise_cons.mp hsorted).1 id' hlist
    omega

theorem PollSound.publish {rest : List Int} (h : s.PollSound (.listed (message.id :: rest))) :
    (s.publishUnlocked context correlationId eventType message cut).PollSound (.listed rest) := by
  obtain ⟨hin, hsorted, hsub, hrest⟩ := h
  obtain ⟨he, -, hh, -⟩ := s.publishUnlocked_spec context correlationId eventType message cut
  refine ⟨?_, (List.pairwise_cons.mp hsorted).2, fun a ha => he ▸ hsub (List.mem_cons_of_mem _ ha), fun a ha b hb hini hlt => ?_⟩
  · obtain ⟨i, hi⟩ := Option.ne_none_iff_exists'.mp hin
    simp [initial_publishUnlocked hi]
  · rcases hrest a (List.mem_cons_of_mem _ ha) b (he ▸ hb) (fun i hi => hini i (initial_publishUnlocked hi)) hlt with hdone | hlist
    · exact .inl (hh b (.inl hdone))
    · rcases List.mem_cons.mp hlist with rfl | hlist
      · exact .inl (hh _ (.inr rfl))
      · exact .inr hlist

end

omit [Unicode] in
/-- A message that is posted later is above what has been read. -/
theorem HandledBelow.post {c id : Int} (h : s.HandledBelow (c + 1)) (hb : (∃ i, s.initial = some i ∧ c ≤ i) ∨ c ∈ s.existing)
    (hid : ∀ id' ∈ s.existing, id' < id) : { s with existing := s.existing ++ [id] }.HandledBelow (c + 1) := by
  intro id' hid' hin hlt
  rcases List.mem_append.mp hid' with hold | hnew
  · exact h id' hold hin hlt
  · cases List.mem_singleton.mp hnew
    rcases hb with ⟨i, his, hle⟩ | hc
    · have := hin i his
      omega
    · have := hid c hc
      omega

omit [Unicode] in
theorem Gapless.post {id : Int} (hs : s.Gapless) (hpos : 0 < id) (hid : ∀ id' ∈ s.existing, id' < id) :
    { s with existing := s.existing ++ [id] }.Gapless := by
  refine ⟨?_, ?_, hs.initial, fun c hc => ?_, fun c hc => (hs.handled c hc).post (hs.bounded c hc).2 hid, ?_⟩
  · exact List.pairwise_append.mpr ⟨hs.sorted, List.pairwise_singleton _ _, fun a ha b hb => List.mem_singleton.mp hb ▸ hid a ha⟩
  · exact fun a ha => (List.mem_append.mp ha).elim (hs.positive a) fun h => List.mem_singleton.mp h ▸ hpos
  · exact ⟨(hs.bounded c hc).1, (hs.bounded c hc).2.imp_right fun h => List.mem_append_left _ h⟩
  · have hp := hs.poll
    simp only
    cases hpoll : s.poll with
    | idle => trivial
    | read c =>
      rw [hpoll] at hp
      intro hc
      obtain ⟨hb, hin, hbelow⟩ := hp hc
      exact ⟨hb.imp_right fun h => List.mem_append_left _ h, hin, hbelow.post hb hid⟩
    | latest c =>
      rw [hpoll] at hp
      exact List.mem_append_left _ hp
    | listed rest =>
      rw [hpoll] at hp
      obtain ⟨hin, hsorted, hsub, hrest⟩ := hp
      refine ⟨hin, hsorted, fun a ha => List.mem_append_left _ (hsub ha), fun a ha b hb hini hlt => ?_⟩
      rcases List.mem_append.mp hb with hold | hnew
      · exact hrest a ha b hold hini hlt
      · cases List.mem_singleton.mp hnew
        have := hid a (hsub ha)
        omega

omit [Unicode] in
/-- The list a poll gets goes on where the cursor stood. -/
theorem pollSound_listing (hs : s.Gapless) {c : Int} (hc : c ≠ 0) (hp : s.PollSound (.read c)) :
    s.PollSound (.listed (s.listing c)) := by
  obtain ⟨-, hin, hbelow⟩ := hp hc
  have hsub : List.Sublist (s.listing c) s.existing := (List.take_sublist _ _).trans List.filter_sublist
  refine ⟨hin, hs.sorted.sublist hsub, hsub.subset, fun id hid id' hid' hini hlt => ?_⟩
  by_cases hle : id' ≤ c
  · exact .inl (hbelow id' hid' hini (by omega))
  · -- what is above the cursor and below a listed message is listed
    right
    have hmem : id' ∈ s.existing.filter fun id => c < id := List.mem_filter.mpr ⟨hid', by simpa using hle⟩
    have hsorted : (s.existing.filter fun id => c < id).Pairwise (· < ·) := hs.sorted.sublist List.filter_sublist
    rw [listing] at hid ⊢
    rw [← List.take_append_drop 100 (s.existing.filter fun id => c < id)] at hmem hsorted
    refine (List.mem_append.mp hmem).resolve_right fun hdrop => ?_
    have := (List.pairwise_append.mp hsorted).2.2 id hid id' hdrop
    omega

omit [Unicode] in
theorem Gapless.setPoll (hs : s.Gapless) {poll : RecoveryPoll} (hp : s.PollSound poll) : { s with poll := poll }.Gapless :=
  ⟨hs.sorted, hs.positive, hs.initial, hs.bounded, hs.handled, hp⟩

theorem Gapless.step (hs : s.Gapless) (hok : s.InOrder l) (h : s.step l = some t) : t.Gapless := by
  cases l with
  | post id =>
    simp only [CursorState.step] at h
    split at h <;> cases h
    exact hs.post ‹_ ∧ _›.1 ‹_ ∧ _›.2
  | seed id =>
    simp only [CursorState.step] at h
    split at h <;> cases h
    rename_i hid
    exact hs.update rfl (fun _ h => h) (.inr ⟨id, hid.1, rfl, rfl, .inl hid.2⟩) (.inl rfl)
  | live context correlationId eventType message cut =>
    simp only [CursorState.step] at h
    split at h <;> cases h
    rename_i hm
    obtain ⟨-, hpoll, -, -⟩ := s.publishUnlocked_spec context correlationId eventType message cut
    exact hs.publish hm.2 hok (.inl hpoll)
  | poll =>
    simp only [CursorState.step] at h
    split at h <;> cases h
    refine hs.setPoll fun hc => ?_
    cases hcur : s.cursor with
    | none => simp [hcur] at hc
    | some c =>
      rw [Option.getD_some]
      exact ⟨(hs.bounded c hcur).2, fun hin => by simp [hs.initial.1 hin] at hcur, hs.handled c hcur⟩
  | list =>
    simp only [CursorState.step] at h
    split at h
    · rename_i c hpoll
      have hp := hs.poll
      rw [hpoll] at hp
      split at h <;> cases h
      · refine hs.setPoll ?_
        cases hlast : s.existing.getLast? with
        | none => trivial
        | some id => exact List.mem_of_getLast? hlast
      · exact hs.setPoll (pollSound_listing hs ‹_› hp)
    · cases h
  | setLatest =>
    simp only [CursorState.step] at h
    split at h <;> cases h
    rename_i id hpoll
    have hp := hs.poll
    rw [hpoll] at hp
    refine hs.update rfl (fun _ h => h) (.inr ⟨id, hs.positive id hp, rfl, rfl, ?_⟩) (.inr trivial)
    by_cases hnone : s.cursor = none
    · exact .inl hnone
    · simp only [InOrder, hpoll] at hok
      refine .inr ⟨hp, fun id' hid' hini hlt => hok hnone id' hid' (fun i his => hini i ?_) hlt⟩
      change i ∈ s.initial.or (some id)
      rw [Option.mem_def.mp his, Option.some_or]
      rfl
  | publish context correlationId message cut =>
    simp only [CursorState.step] at h
    split at h
    · rename_i id rest hpoll
      split at h <;> cases h
      rename_i hm
      obtain ⟨-, rfl⟩ := hm
      have hp := hs.poll
      rw [hpoll] at hp
      refine hs.publish (hp.2.2.1 List.mem_cons_self) (fun _ _ => hp.below) (.inr ?_)
      split
      · trivial
      · exact hp.publish
    · cases h
  | stop =>
    cases h
    exact hs.setPoll trivial

/-! ## A poll alone -/

/-- The messages of the source, as a poll finds them. -/
structure Timeline where
  context : Int → PublishContext
  correlationId : Uuid
  message : Int → TelegramMessage
  source : ∀ id, (context id).source.isSome
  message_id : ∀ id, (message id).id = id

variable (timeline : Timeline)

def publications (ids : List Int) : List CursorLabel :=
  ids.map fun id => .publish (timeline.context id) timeline.correlationId (timeline.message id) false

/-- A poll from its start to its end, with nothing in between. -/
def recover (s : CursorState) : Option CursorState :=
  run step s ([.stop, .poll, .list] ++ publications timeline (s.listing (s.cursor.getD 0)))

variable {timeline}

/-- What the polls leave. -/
structure Recovered (s t : CursorState) (ids : List Int) : Prop where
  gapless : t.Gapless
  existing : t.existing = s.existing
  initial : ∀ i, s.initial = some i → t.initial = some i
  cursor : s.cursor.getD 0 ≤ t.cursor.getD 0
  ids : ∀ id ∈ ids, id ≤ t.cursor.getD 0

variable (timeline) in
theorem run_publications {rest : List Int} (hs : s.Gapless) (hp : s.poll = .listed rest) :
    ∃ t, run step s (publications timeline rest) = some t ∧ Recovered s t rest := by
  induction rest generalizing s with
  | nil => exact ⟨s, rfl, hs, rfl, fun _ h => h, le_rfl, fun id h => by cases h⟩
  | cons id rest ih =>
    obtain ⟨he, -, -, hc⟩ := s.publishUnlocked_spec (timeline.context id) timeline.correlationId .created (timeline.message id) false
    have hstep : s.step (.publish (timeline.context id) timeline.correlationId (timeline.message id) false) =
        some { s.publishUnlocked (timeline.context id) timeline.correlationId .created (timeline.message id) false with
          poll := .listed rest } := by
      simp only [step, hp, timeline.source, timeline.message_id]
      rfl
    have hcursor : s.cursor.getD 0 ≤ (s.publishUnlocked (timeline.context id) timeline.correlationId .created
        (timeline.message id) false).cursor.getD 0 ∧ id ≤ (s.publishUnlocked (timeline.context id) timeline.correlationId
        .created (timeline.message id) false).cursor.getD 0 := by
      rw [timeline.message_id] at hc
      rcases hc with ⟨hc, -, hle⟩ | ⟨-, hlt, hc, -⟩
      · exact ⟨by rw [hc], by rw [hc]; exact hle rfl⟩
      · exact ⟨by rw [hc]; exact hlt.le, by rw [hc]; rfl⟩
    obtain ⟨t, ht, hg, het, hin, hcur, hids⟩ := ih (hs.step (l := .publish _ _ _ _) trivial hstep) rfl
    refine ⟨t, by rw [publications, List.map_cons, run, hstep]; exact ht, hg, het.trans he, fun i hi => ?_,
      hcursor.1.trans hcur, fun id' hid' => ?_⟩
    · exact hin i (initial_publishUnlocked hi)
    · rcases List.mem_cons.mp hid' with rfl | hid'
      · exact hcursor.2.trans hcur
      · exact hids id' hid'

variable (timeline) in
theorem recover_spec (hs : s.Gapless) {c : Int} (hc : s.cursor = some c) :
    ∃ t, s.recover timeline = some t ∧ Recovered s t (s.listing c) := by
  have hne : c ≠ 0 := ne_of_gt (hs.bounded c hc).1
  have hstop : s.step .stop = some { s with poll := .idle } := rfl
  have hpoll : { s with poll := .idle }.step .poll = some { s with poll := .read c } := by simp [step, hc]
  have hlist : { s with poll := .read c }.step .list = some { s with poll := .listed (s.listing c) } := by
    simp only [step, if_neg hne]
    rfl
  have hgap := ((hs.step (l := .stop) trivial hstop).step (l := .poll) trivial hpoll).step (l := .list) trivial hlist
  obtain ⟨t, ht, hr⟩ := run_publications timeline hgap rfl
  refine ⟨t, ?_, hr.gapless, hr.existing, hr.initial, hr.cursor, hr.ids⟩
  have hids : s.listing (s.cursor.getD 0) = s.listing c := by rw [hc, Option.getD_some]
  rw [recover, hids, run_append, run, hstop, Option.bind_some, run, hpoll, Option.bind_some, run, hlist, Option.bind_some, run,
    Option.bind_some]
  exact ht

omit [Unicode] in
theorem Gapless.cursor_of_initial (hs : s.Gapless) {i : Int} (hi : s.initial = some i) : ∃ c, s.cursor = some c := by
  refine Option.ne_none_iff_exists'.mp fun h => ?_
  rw [hs.initial.2 h] at hi
  cases hi

/-- Polls go on until every message has been handled. -/
theorem exists_recovered (hs : s.Gapless) {id i : Int} (hid : id ∈ s.existing) (hi : s.initial = some i) (hlt : i < id) :
    ∃ k t, (fun s => s.bind (recover timeline))^[k] (some s) = some t ∧ t.Handled id := by
  obtain ⟨c, hc⟩ := hs.cursor_of_initial hi
  -- on the number of messages above the cursor
  induction hn : (s.existing.filter fun id => c < id).length using Nat.strong_induction_on generalizing s c with
  | _ n ih =>
    subst hn
    by_cases hle : id ≤ c
    · refine ⟨0, s, rfl, hs.handled c hc id hid (fun i' hi' => ?_) (by omega)⟩
      cases hi.symm.trans hi'
      exact hlt
    · obtain ⟨t, ht, hr⟩ := recover_spec timeline hs hc
      obtain ⟨c', hc'⟩ := hr.gapless.cursor_of_initial (hr.initial i hi)
      have hcc : c ≤ c' := by simpa [hc, hc'] using hr.cursor
      -- the first message above the cursor is listed
      have hfewer : (t.existing.filter fun id => c' < id).length < (s.existing.filter fun id => c < id).length := by
        have hsame : (t.existing.filter fun id => c' < id) = (s.existing.filter fun id => c < id).filter fun id => c' < id := by
          rw [List.filter_filter, hr.existing]
          refine List.filter_congr fun id _ => ?_
          by_cases h : c' < id
          · simp [h, show c < id by omega]
          · simp [h]
        rw [hsame, List.length_filter_lt_length_iff_exists]
        cases hf : s.existing.filter fun id => c < id with
        | nil =>
          have := hf ▸ List.mem_filter.mpr ⟨hid, by simpa using hle⟩
          cases this
        | cons first rest =>
          refine ⟨first, List.mem_cons_self, ?_⟩
          have := hr.ids first (by simp [listing, hf])
          simpa [hc'] using this
      obtain ⟨k, u, hu, hdone⟩ := ih _ hfewer hr.gapless (hr.existing ▸ hid) (hr.initial i hi) c' hc' rfl
      exact ⟨k + 1, u, by rw [Function.iterate_succ_apply, Option.bind_some, ht]; exact hu, hdone⟩

/-- As long as no live update overtakes a message that has not been handled, every
message above the first cursor and up to the stored one has been handled, and polls
handle all others. -/
theorem no_message_skipped (h : Reach step InOrder {} s) {id i : Int} (hid : id ∈ s.existing) (hi : s.initial = some i)
    (hlt : i < id) :
    (∀ c, s.cursor = some c → id ≤ c → s.Handled id) ∧
      ∀ timeline, ∃ k t, (fun s => s.bind (recover timeline))^[k] (some s) = some t ∧ t.Handled id := by
  have hs : s.Gapless := h.invariant ⟨.nil, by simp, by simp, by simp, by simp, trivial⟩ fun _ _ _ hs hok h => hs.step hok h
  refine ⟨fun c hc hle => ?_, fun timeline => exists_recovered hs hid hi hlt⟩
  refine hs.handled c hc id hid (fun i' hi' => ?_) (by omega)
  cases hi.symm.trans hi'
  exact hlt

/-! ## A lost update -/

def goldSource : PublishContext where
  connectionId := 5
  source := some (2, { isGroup := false, isPaused := false })

def goldUpdate (id : Int) : CursorLabel :=
  .live goldSource 6 .created { id := id, chatId := 7, text := "BUY XAUUSD", date := 0 } false

omit [Unicode] in
/-- `no_message_skipped`, where the second update is lost. -/
theorem no_message_skipped_goldUpdate :
    let _ := Unicode.ascii
    ∃ s, Reach step InOrder {} s ∧ 2 ∈ s.existing ∧ s.initial = some 1 ∧ (∀ c, s.cursor = some c → 2 ≤ c → s.Handled 2) ∧
      ∀ timeline, ∃ k t, (fun s => s.bind (recover timeline))^[k] (some s) = some t ∧ t.Handled 2 := by
  intro _
  have hrun : (runIf step InOrder {} [.post 1, goldUpdate 1, .post 2]).map (fun s => decide (2 ∈ s.existing ∧ s.initial = some 1)) =
      some true := by decide +kernel
  obtain ⟨s, hs, hd⟩ := Option.map_eq_some_iff.mp hrun
  obtain ⟨hid, hi⟩ := of_decide_eq_true hd
  exact ⟨s, .of_runIf hs, hid, hi, no_message_skipped (.of_runIf hs) hid hi (by decide)⟩

omit [Unicode] in
/-- The update of the second message is lost and that of the third arrives: the cursor
is at 3, where no poll finds the second. -/
theorem lostUpdate_passed :
    let _ := Unicode.ascii
    ∃ s, Reach step always {} s ∧ 2 ∈ s.existing ∧ s.initial = some 1 ∧ s.cursor = some 3 ∧ ¬ s.Handled 2 ∧ s.listing 3 = [] := by
  intro _
  have hrun : (run step {} [.post 1, goldUpdate 1, .post 2, .post 3, goldUpdate 3]).map (fun s =>
      decide (2 ∈ s.existing ∧ s.initial = some 1 ∧ s.cursor = some 3 ∧ ¬ s.Handled 2 ∧ s.listing 3 = [])) = some true := by
    decide +kernel
  obtain ⟨s, hs, hd⟩ := Option.map_eq_some_iff.mp hrun
  exact ⟨s, .of_run hs, of_decide_eq_true hd⟩

end CursorState

end SignalSync
