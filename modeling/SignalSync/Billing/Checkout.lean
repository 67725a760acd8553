import SignalSync.Billing.PlanChange
import SignalSync.Library.Run
import SignalSync.Library.Sessions
import Mathlib.Order.Nat

/-!
# One checkout at a time

A user who has no subscription may press the button many times. Each request sets a key of
the user in Redis before it asks the provider for a checkout, writes the checkout's URL over
it, and deletes it where the provider gave none; a request that finds the key hands out the
URL, or says that a checkout is being prepared. The key carries no token. As long as no
request takes an hour for that, the checkouts whose URLs come back are opened an hour apart,
and whoever gets a URL gets that of the last one (`one_checkout`). A checkout whose answer is
lost is no one's: the request gives up, and the next may open another at once.

A request that nobody comes between ends as `startCheckout` does (`exists_run_startCheckout`).
-/

namespace SignalSync

namespace Billing

open Library

abbrev checkoutTtlSeconds : Nat := 60 * 60

abbrev creating : String := "creating"

/-- Where `start_checkout_or_change_plan` awaits. -/
inductive CheckoutPoint
  | started
  /-- The key is there. -/
  | taken
  | creating (acquiredAt : Nat)
  /-- The provider has opened a checkout, and its answer does not come. -/
  | losing (acquiredAt : Nat)
  /-- The provider has answered with the URL of a checkout. -/
  | storing (acquiredAt : Nat) (checkoutUrl : String)
  | done (result : Except HttpError String)
  | died

/-- The requests of a user; `opened` are the provider's checkouts whose URLs have come back, each
with the time the key was set for it, `unseen` such times of those whose URLs have not, and
`served` the URLs handed out, each with how many had been opened. -/
structure Checkouts where
  now : Nat := 0
  /-- The value, and when it expires. -/
  key : Option (String × Nat) := none
  requests : List CheckoutPoint := []
  opened : List (Nat × String) := []
  unseen : List Nat := []
  served : List (Nat × String) := []

/-- Where Redis fails a command may have been carried out. -/
inductive CheckoutLabel
  | tick (duration : Nat)
  | start
  | set (i : Nat)
  | setError (i : Nat) (applied : Bool)
  | get (i : Nat)
  | getError (i : Nat)
  | created (i : Nat) (checkoutUrl : String)
  /-- The provider opens a checkout, but the request times out or the answer is lost. -/
  | lose (i : Nat)
  /-- A `BachsError`, or an answer without a URL; the key is deleted unless Redis fails. -/
  | refused (i : Nat) (detail : String) (deleted : Bool)
  | store (i : Nat)
  | storeError (i : Nat) (applied : Bool)
  | die (i : Nat)

namespace Checkouts

def goTo (s : Checkouts) (i : Nat) (point : CheckoutPoint) : Checkouts := { s with requests := s.requests.set i point }

/-- What a command sees of the key. -/
def live (s : Checkouts) : Option String := (s.key.filter fun e => s.now < e.2).map Prod.fst

def setKey (s : Checkouts) (value : String) : Checkouts := { s with key := some (value, s.now + seconds checkoutTtlSeconds) }

def unavailable : HttpError := ⟨503, "Checkout protection is temporarily unavailable"⟩

def preparing : HttpError := ⟨409, "A checkout is already being prepared. Please wait a moment."⟩

def serve (s : Checkouts) (i : Nat) (checkoutUrl : String) : Checkouts :=
  { s.goTo i (.done (.ok checkoutUrl)) with served := s.served ++ [(s.opened.length, checkoutUrl)] }

/-- `SET … NX`. -/
def acquire (s : Checkouts) (i : Nat) : Checkouts :=
  if s.live.isNone then (s.setKey creating).goTo i (.creating s.now) else s.goTo i .taken

/-- `GET`: an open checkout is one whose key holds a URL. -/
def read (s : Checkouts) (i : Nat) : Checkouts :=
  match s.live.filter (·.startsWith "https://") with
  | some checkoutUrl => s.serve i checkoutUrl
  | none => s.goTo i (.done (.error preparing))

def step (s : Checkouts) : CheckoutLabel → Option Checkouts
  | .tick duration => some { s with now := s.now + duration }
  | .start => some { s with requests := s.requests ++ [.started] }
  | .set i =>
    match s.requests[i]? with
    | some .started => some (s.acquire i)
    | _ => none
  | .setError i applied =>
    match s.requests[i]? with
    | some .started => some ((if applied && s.live.isNone then s.setKey creating else s).goTo i (.done (.error unavailable)))
    | _ => none
  | .get i =>
    match s.requests[i]? with
    | some .taken => some (s.read i)
    | _ => none
  | .getError i =>
    match s.requests[i]? with
    | some .taken => some (s.goTo i (.done (.error unavailable)))
    | _ => none
  | .created i checkoutUrl =>
    match s.requests[i]? with
    | some (.creating acquiredAt) =>
      if checkoutUrl.startsWith "https://" then
        some { s.goTo i (.storing acquiredAt checkoutUrl) with opened := s.opened ++ [(acquiredAt, checkoutUrl)] }
      else none
    | _ => none
  | .lose i =>
    match s.requests[i]? with
    | some (.creating acquiredAt) => some { s.goTo i (.losing acquiredAt) with unseen := s.unseen ++ [acquiredAt] }
    | _ => none
  | .refused i detail deleted =>
    match s.requests[i]? with
    | some (.creating _) | some (.losing _) => some ({ s with key := if deleted then none else s.key }.goTo i (.done (.error ⟨502, detail⟩)))
    | _ => none
  | .store i =>
    match s.requests[i]? with
    | some (.storing _ checkoutUrl) => some ((s.setKey checkoutUrl).serve i checkoutUrl)
    | _ => none
  | .storeError i applied =>
    match s.requests[i]? with
    | some (.storing _ checkoutUrl) => some ((if applied then s.setKey checkoutUrl else s).goTo i (.done (.error unavailable)))
    | _ => none
  | .die i => if i < s.requests.length then some (s.goTo i .died) else none

end Checkouts

/-- When a request that is with the provider, or about to store the URL, has set the key. -/
def CheckoutPoint.acquiredAt? : CheckoutPoint → Option Nat
  | .creating acquiredAt | .losing acquiredAt | .storing acquiredAt _ => some acquiredAt
  | .started | .taken | .done _ | .died => none

/-- When a request that no URL has come back to has set the key. -/
def CheckoutPoint.asksSince? : CheckoutPoint → Option Nat
  | .creating acquiredAt | .losing acquiredAt => some acquiredAt
  | .started | .taken | .storing .. | .done _ | .died => none

theorem CheckoutPoint.acquiredAt_of_asksSince {point : CheckoutPoint} {acquiredAt : Nat} (h : point.asksSince? = some acquiredAt) :
    point.acquiredAt? = some acquiredAt := by
  cases point <;> first | exact h | cases h

namespace Checkouts

/-- Nobody who has set the key takes an hour. -/
def Prompt (s : Checkouts) : CheckoutLabel → Prop
  | .tick duration => ∀ point ∈ s.requests, ∀ acquiredAt ∈ point.acquiredAt?, s.now + duration < acquiredAt + seconds checkoutTtlSeconds
  | _ => True

instance (s : Checkouts) (a : CheckoutLabel) : Decidable (s.Prompt a) :=
  match a with
  | .tick duration => inferInstanceAs (Decidable (∀ point ∈ s.requests, ∀ acquiredAt ∈ point.acquiredAt?, s.now + duration < acquiredAt + seconds checkoutTtlSeconds))
  | .start | .set _ | .setError _ _ | .get _ | .getError _ | .created _ _ | .lose _ | .refused _ _ _ | .store _ | .storeError _ _ | .die _ => isTrue trivial

/-- Request `i` has set the key, and is not done with it. -/
def Holds (s : Checkouts) (i acquiredAt : Nat) : Prop := ∃ point, s.requests[i]? = some point ∧ point.acquiredAt? = some acquiredAt

structure Guarded (s : Checkouts) : Prop where
  held : ∀ i a, s.Holds i a → s.key = some (creating, a + seconds checkoutTtlSeconds) ∧ a ≤ s.now ∧ s.now < a + seconds checkoutTtlSeconds
  alone : ∀ i j a b, s.Holds i a → s.Holds j b → i = j
  past : ∀ o ∈ s.opened, o.1 ≤ s.now
  /-- The key of a checkout lives for an hour. -/
  lives : ∀ o ∈ s.opened, s.now < o.1 + seconds checkoutTtlSeconds → ∃ value ends, s.key = some (value, ends) ∧ o.1 + seconds checkoutTtlSeconds ≤ ends
  /-- Before a URL has come back. -/
  fresh : ∀ (i a : Nat) (point : CheckoutPoint), s.requests[i]? = some point → point.asksSince? = some a →
    ∀ o ∈ s.opened, o.1 + seconds checkoutTtlSeconds ≤ a
  apart : s.opened.Pairwise fun o o' => o.1 + seconds checkoutTtlSeconds ≤ o'.1
  /-- A URL that is stored is that of the last checkout, and so is one that is about to be. -/
  stored : ∀ value ends, s.key = some (value, ends) → value = creating ∨ (s.opened.getLast?.map Prod.snd) = some value
  storing : ∀ (i a : Nat) (url : String), s.requests[i]? = some (.storing a url) → (s.opened.getLast?.map Prod.snd) = some url
  served : ∀ e ∈ s.served, e.1 ≤ s.opened.length ∧ ((s.opened.take e.1).getLast?.map Prod.snd) = some e.2

variable {s t : Checkouts} {l : CheckoutLabel} {i j a : Nat} {point : CheckoutPoint} {url : String}

theorem holds_goTo (hi : i < s.requests.length) : (s.goTo i point).Holds j a ↔ if j = i then point.acquiredAt? = some a else s.Holds j a := by
  simp only [Holds, goTo]
  split
  · subst j
    rw [List.getElem?_set_self hi]
    exact ⟨fun ⟨_, he, h⟩ => Option.some.inj he ▸ h, fun h => ⟨point, rfl, h⟩⟩
  · rename_i hne
    rw [List.getElem?_set_ne fun he => hne he.symm]

/-- A request that is done holds nothing, and the others are where they were. -/
theorem Holds.of_goTo (h : (s.goTo i point).Holds j a) (hi : i < s.requests.length) (hp : point.acquiredAt? = none) : j ≠ i ∧ s.Holds j a := by
  have h := (holds_goTo hi).mp h
  split at h
  · rw [hp] at h
    cases h
  · rename_i hne
    exact ⟨hne, h⟩

theorem holds_of_asking (h : s.requests[i]? = some point) (ha : point.asksSince? = some a) : s.Holds i a :=
  ⟨_, h, CheckoutPoint.acquiredAt_of_asksSince ha⟩

theorem holds_of_storing (h : s.requests[i]? = some (.storing a url)) : s.Holds i a := ⟨_, h, rfl⟩

theorem lt_of_getElem? (h : s.requests[i]? = some point) : i < s.requests.length := (List.getElem?_eq_some_iff.mp h).1

/-- A request that is done, with the key as it is. -/
theorem Guarded.finish (hs : s.Guarded) (hi : i < s.requests.length) (hp : point.acquiredAt? = none) : (s.goTo i point).Guarded where
  held j b h := hs.held j b (h.of_goTo hi hp).2
  alone j j' b b' h h' := hs.alone j j' b b' (h.of_goTo hi hp).2 (h'.of_goTo hi hp).2
  past := hs.past
  lives := hs.lives
  fresh j b point' h hb := by
    obtain ⟨hne, -⟩ := (holds_of_asking h hb).of_goTo hi hp
    dsimp only [goTo] at h
    rw [List.getElem?_set_ne fun he => hne he.symm] at h
    exact hs.fresh j b point' h hb
  apart := hs.apart
  stored := hs.stored
  storing j b u h := by
    obtain ⟨hne, -⟩ := (holds_of_storing h).of_goTo hi hp
    dsimp only [goTo] at h
    rw [List.getElem?_set_ne fun he => hne he.symm] at h
    exact hs.storing j b u h
  served := hs.served

/-- A key that nobody holds is written over. -/
theorem Guarded.setKey (hs : s.Guarded) {value : String} (hfree : ∀ j b, ¬ s.Holds j b)
    (hvalue : value = creating ∨ (s.opened.getLast?.map Prod.snd) = some value) : (s.setKey value).Guarded where
  held j b h := absurd h (hfree j b)
  alone j j' b b' h := absurd h (hfree j b)
  past := hs.past
  lives o ho _ := ⟨value, _, rfl, Nat.add_le_add_right (hs.past o ho) _⟩
  fresh j b _ h hb := absurd (holds_of_asking h hb) (hfree j b)
  apart := hs.apart
  stored v ends h := by
    cases h
    exact hvalue
  storing := hs.storing
  served := hs.served

theorem Guarded.serve (hs : s.Guarded) (hi : i < s.requests.length) (hurl : (s.opened.getLast?.map Prod.snd) = some url) :
    (s.serve i url).Guarded := by
  have hdone : (s.goTo i (.done (.ok url))).Guarded := hs.finish hi rfl
  refine { hdone with served := fun e he => ?_ }
  rcases List.mem_append.mp he with he | he
  · exact hs.served e he
  · rw [List.mem_singleton.mp he]
    exact ⟨le_rfl, by rwa [Checkouts.serve, goTo, List.take_length]⟩

theorem Guarded.not_holds (hs : s.Guarded) (hlive : s.live = none) : ¬ s.Holds j a := by
  intro h
  obtain ⟨hkey, -, hlt⟩ := hs.held j a h
  simp only [live, hkey, Option.filter_some, hlt, decide_true, if_true, Option.map_some, reduceCtorEq] at hlive

/-- The key that nobody sees is that of no recent checkout. -/
theorem Guarded.le_now (hs : s.Guarded) (hlive : s.live = none) {o : Nat × String} (ho : o ∈ s.opened) :
    o.1 + seconds checkoutTtlSeconds ≤ s.now := by
  by_contra hlt
  obtain ⟨value, ends, hkey, hle⟩ := hs.lives o ho (Nat.lt_of_not_le hlt)
  have hnow : s.now < ends := (Nat.lt_of_not_le hlt).trans_le hle
  simp only [live, hkey, Option.filter_some, hnow, decide_true, if_true, Option.map_some, reduceCtorEq] at hlive

theorem Guarded.acquire (hs : s.Guarded) (hi : i < s.requests.length) : (s.acquire i).Guarded := by
  unfold Checkouts.acquire
  split
  case isFalse => exact hs.finish hi rfl
  rename_i hlive
  have hnone := Option.isNone_iff_eq_none.mp hlive
  have hfree (j b : Nat) : ¬ s.Holds j b := hs.not_holds hnone
  have hset := hs.setKey hfree (.inl rfl)
  have hholds {j b : Nat} (h : ((s.setKey creating).goTo i (.creating s.now)).Holds j b) : j = i ∧ b = s.now := by
    have h := (holds_goTo (s := s.setKey creating) hi).mp h
    split at h
    · rename_i he
      exact ⟨he, (Option.some.inj h).symm⟩
    · exact absurd h (hfree j b)
  refine { hset with held := fun j b h => ?_, alone := fun j j' b b' h h' => ?_, fresh := fun j b _ h hb o ho => ?_, storing := fun j b u h => ?_ }
  · obtain ⟨-, rfl⟩ := hholds h
    exact ⟨rfl, le_rfl, Nat.lt_add_of_pos_right (by decide)⟩
  · exact (hholds h).1.trans (hholds h').1.symm
  · obtain ⟨-, rfl⟩ := hholds (holds_of_asking h hb)
    exact hs.le_now hnone ho
  · obtain ⟨rfl, -⟩ := hholds (holds_of_storing h)
    cases (List.getElem?_set_self hi).symm.trans h

theorem Guarded.read (hs : s.Guarded) (hi : i < s.requests.length) : (s.read i).Guarded := by
  unfold Checkouts.read
  split
  · rename_i url hread
    obtain ⟨hlive, hurl⟩ := Option.filter_eq_some_iff.mp hread
    obtain ⟨⟨value, ends⟩, hkey, rfl⟩ := Option.map_eq_some_iff.mp hlive
    refine hs.serve hi ((hs.stored value ends (Option.filter_eq_some_iff.mp hkey).1).resolve_left ?_)
    rintro rfl
    exact absurd (show creating.startsWith "https://" = true from hurl) (by decide +kernel)
  · exact hs.finish hi rfl

theorem Guarded.created (hs : s.Guarded) (hr : s.requests[i]? = some (.creating a)) :
    Guarded { s.goTo i (.storing a url) with opened := s.opened ++ [(a, url)] } := by
  have hi := lt_of_getElem? hr
  have hold := holds_of_asking hr rfl
  obtain ⟨hkey, hle, hlt⟩ := hs.held i a hold
  have hholds {j b : Nat} (h : (s.goTo i (.storing a url)).Holds j b) : s.Holds j b := by
    have h := (holds_goTo hi).mp h
    split at h
    · rename_i he
      cases h
      exact he ▸ hold
    · exact h
  have hlast : (s.opened ++ [(a, url)]).getLast? = some (a, url) := List.getLast?_concat
  refine
    { held := fun j b h => hs.held j b (hholds h)
      alone := fun j j' b b' h h' => hs.alone j j' b b' (hholds h) (hholds h')
      past := fun o ho => ?_, lives := fun o ho hnow => ?_, fresh := fun j b _ h hb => ?_, apart := ?_
      stored := fun value ends h => .inl ?_, storing := fun j b u h => ?_, served := fun e he => ?_ }
  · rcases List.mem_append.mp ho with ho | ho
    · exact hs.past o ho
    · cases List.mem_singleton.mp ho
      exact hle
  · rcases List.mem_append.mp ho with ho | ho
    · exact hs.lives o ho hnow
    · cases List.mem_singleton.mp ho
      exact ⟨creating, _, hkey, le_rfl⟩
  · cases hs.alone j i b a (hholds (holds_of_asking h hb)) hold
    cases (List.getElem?_set_self hi).symm.trans h
    cases hb
  · refine List.pairwise_append.mpr ⟨hs.apart, List.pairwise_singleton _ _, fun o ho o' ho' => ?_⟩
    cases List.mem_singleton.mp ho'
    exact hs.fresh i a _ hr rfl o ho
  · cases hkey.symm.trans h
    rfl
  · cases hs.alone j i b a (hholds (holds_of_storing h)) hold
    cases (List.getElem?_set_self hi).symm.trans h
    exact congrArg _ hlast
  · obtain ⟨hlen, hserved⟩ := hs.served e he
    refine ⟨hlen.trans (by simp), ?_⟩
    dsimp only
    rw [List.take_append_of_le_length hlen]
    exact hserved

/-- What is written once nobody is with the provider any more. -/
theorem Guarded.release (hs : s.Guarded) (hr : s.Holds i a) (hp : point.acquiredAt? = none) (j b : Nat) :
    ¬ (s.goTo i point).Holds j b := by
  have hi : i < s.requests.length := by
    obtain ⟨_, hpoint, -⟩ := hr
    exact lt_of_getElem? hpoint
  intro h
  obtain ⟨hne, h⟩ := h.of_goTo hi hp
  exact hne (hs.alone j i b a h hr)

/-- The provider has refused: a key that was deleted was of no checkout. -/
theorem Guarded.refused (hs : s.Guarded) {asking : CheckoutPoint} (hr : s.requests[i]? = some asking) (ha : asking.asksSince? = some a)
    (hp : point.acquiredAt? = none) (deleted : Bool) : ({ s with key := if deleted then none else s.key }.goTo i point).Guarded := by
  have hi := lt_of_getElem? hr
  have hfinished := hs.finish hi hp
  have hfree := hs.release (holds_of_asking hr ha) hp
  cases deleted with
  | false => exact hfinished
  | true =>
    refine { hfinished with held := fun j b h => absurd h (hfree j b), lives := fun o ho hnow => ?_, stored := fun v ends h => by cases h }
    have hle := (hs.fresh i a _ hr ha o ho).trans (hs.held i a (holds_of_asking hr ha)).2.1
    exact absurd hnow (Nat.not_lt_of_le hle)

/-- The provider's answer is lost: the request still waits for it. -/
theorem Guarded.lose (hs : s.Guarded) (hr : s.requests[i]? = some (.creating a)) (unseen : List Nat) :
    Guarded { s.goTo i (.losing a) with unseen } := by
  have hi := lt_of_getElem? hr
  have hholds {j b : Nat} (h : (s.goTo i (.losing a)).Holds j b) : s.Holds j b := by
    have h := (holds_goTo hi).mp h
    split at h
    · rename_i he
      cases h
      exact he ▸ holds_of_asking hr rfl
    · exact h
  have hasks {j b : Nat} {point : CheckoutPoint} (h : (s.goTo i (.losing a)).requests[j]? = some point)
      (hb : point.asksSince? = some b) : ∃ point', s.requests[j]? = some point' ∧ point'.asksSince? = some b := by
    rcases getElem?_set_cases h with ⟨rfl, rfl⟩ | ⟨-, h⟩
    · exact ⟨_, hr, hb⟩
    · exact ⟨point, h, hb⟩
  refine
    { hs with
      held := fun j b h => hs.held j b (hholds h)
      alone := fun j j' b b' h h' => hs.alone j j' b b' (hholds h) (hholds h')
      fresh := fun j b point h hb => ?_, storing := fun j b u h => ?_ }
  · obtain ⟨point', hpoint', hb'⟩ := hasks h hb
    exact hs.fresh j b point' hpoint' hb'
  · rcases getElem?_set_cases h with ⟨-, he⟩ | ⟨-, h⟩
    · cases he
    · exact hs.storing j b u h

theorem Guarded.step (hs : s.Guarded) (hok : s.Prompt l) (h : s.step l = some t) : t.Guarded := by
  cases l with
  | tick duration =>
    cases h
    refine { hs with held := fun i a hi => ?_, past := fun o ho => (hs.past o ho).trans (Nat.le_add_right ..), lives := fun o ho hnow => ?_ }
    · obtain ⟨hkey, hle, -⟩ := hs.held i a hi
      obtain ⟨point, hpoint, ha⟩ := hi
      exact ⟨hkey, hle.trans (Nat.le_add_right ..), hok point (List.mem_of_getElem? hpoint) a ha⟩
    · exact hs.lives o ho (Nat.lt_of_le_of_lt (Nat.le_add_right ..) hnow)
  | start =>
    cases h
    have hget {j : Nat} {point : CheckoutPoint} (h : (s.requests ++ [CheckoutPoint.started])[j]? = some point) :
        s.requests[j]? = some point ∨ point = .started := (getElem?_concat_cases h).symm.imp_right And.right
    have hholds {j b : Nat} (h : Holds { s with requests := s.requests ++ [.started] } j b) : s.Holds j b := by
      obtain ⟨point, hpoint, ha⟩ := h
      rcases hget hpoint with hpoint | rfl
      · exact ⟨point, hpoint, ha⟩
      · cases ha
    exact { hs with
      held := fun j b h => hs.held j b (hholds h)
      alone := fun j j' b b' h h' => hs.alone j j' b b' (hholds h) (hholds h')
      fresh := fun j b point h hb => hs.fresh j b point ((hget h).resolve_right (by rintro rfl; cases hb)) hb
      storing := fun j b u h => hs.storing j b u ((hget h).resolve_right (by simp)) }
  | set i =>
    simp only [Checkouts.step] at h
    split at h <;> cases h
    rename_i hr
    exact hs.acquire (lt_of_getElem? hr)
  | setError i applied =>
    simp only [Checkouts.step] at h
    split at h <;> cases h
    rename_i hr
    split
    · rename_i hlive
      have hnone := Option.isNone_iff_eq_none.mp (Bool.and_eq_true_iff.mp hlive).2
      exact (hs.setKey (fun _ _ => hs.not_holds hnone) (.inl rfl)).finish (lt_of_getElem? hr) rfl
    · exact hs.finish (lt_of_getElem? hr) rfl
  | get i =>
    simp only [Checkouts.step] at h
    split at h <;> cases h
    rename_i hr
    exact hs.read (lt_of_getElem? hr)
  | getError i =>
    simp only [Checkouts.step] at h
    split at h <;> cases h
    rename_i hr
    exact hs.finish (lt_of_getElem? hr) rfl
  | created i url =>
    simp only [Checkouts.step] at h
    split at h
    case h_2 => cases h
    rename_i acquiredAt hr
    split at h <;> cases h
    exact hs.created hr
  | lose i =>
    simp only [Checkouts.step] at h
    split at h <;> cases h
    rename_i acquiredAt hr
    exact hs.lose hr _
  | refused i detail deleted =>
    simp only [Checkouts.step] at h
    split at h <;> cases h
    · rename_i acquiredAt hr
      exact hs.refused hr rfl rfl deleted
    · rename_i acquiredAt hr
      exact hs.refused hr rfl rfl deleted
  | store i =>
    simp only [Checkouts.step] at h
    split at h <;> cases h
    rename_i acquiredAt url hr
    have hi := lt_of_getElem? hr
    have hurl := hs.storing i acquiredAt url hr
    -- the URL is written once the request is done with the provider
    have hfinished : (s.goTo i (.done (.ok url))).Guarded := hs.finish hi rfl
    have hdone := hfinished.setKey (hs.release (holds_of_storing hr) rfl) (.inr hurl)
    refine { hdone with served := fun e he => ?_ }
    rcases List.mem_append.mp he with he | he
    · exact hs.served e he
    · rw [List.mem_singleton.mp he]
      exact ⟨le_rfl, by rwa [Checkouts.serve, goTo, Checkouts.setKey, List.take_length]⟩
  | storeError i applied =>
    simp only [Checkouts.step] at h
    split at h <;> cases h
    rename_i acquiredAt url hr
    have hi := lt_of_getElem? hr
    split
    · have hfinished : (s.goTo i (.done (.error unavailable))).Guarded := hs.finish hi rfl
      exact hfinished.setKey (hs.release (holds_of_storing hr) rfl) (.inr (hs.storing i acquiredAt url hr))
    · exact hs.finish hi rfl
  | die i =>
    simp only [Checkouts.step] at h
    split at h <;> cases h
    rename_i hi
    exact hs.finish hi rfl

/-- As long as no request takes an hour, the keys of the checkouts whose URLs came back were set
an hour apart at least, and a URL that is handed out is that of the last of them. -/
theorem one_checkout (h : Reach step Prompt {} s) :
    (s.opened.Pairwise fun o o' => o.1 + seconds checkoutTtlSeconds ≤ o'.1) ∧
      ∀ n url, (n, url) ∈ s.served → ((s.opened.take n).getLast?.map Prod.snd) = some url := by
  have hs : s.Guarded := by
    refine h.invariant ?_ fun _ _ _ hs hok hstep => hs.step hok hstep
    exact
      { held := fun _ _ ⟨_, h, _⟩ => by cases h
        alone := fun _ _ _ _ ⟨_, h, _⟩ => by cases h
        past := List.forall_mem_nil _
        lives := List.forall_mem_nil _
        fresh := fun _ _ _ h => by cases h
        apart := .nil
        stored := fun _ _ h => by cases h
        storing := fun _ _ _ h => by cases h
        served := List.forall_mem_nil _ }
  exact ⟨hs.apart, fun n url hmem => (hs.served _ hmem).2⟩

/-- The first checkout's answer is lost and the next request opens another. A third finds the key,
one the URL, and one asks the provider again when the key has expired. -/
theorem one_checkout_reopened : ∃ s, Reach step Prompt {} s ∧ s.opened.length = 2 ∧ s.unseen.length = 1 ∧ s.served.length = 3 ∧
    (s.opened.Pairwise fun o o' => o.1 + seconds checkoutTtlSeconds ≤ o'.1) := by
  have hrun : (runIf step Prompt {} [.start, .set 0, .lose 0, .refused 0 "The billing provider could not process the request" true,
      .start, .start, .set 1, .set 2, .get 2, .created 1 "https://pay/1", .tick 5, .store 1, .start, .set 3, .get 3,
      .tick (seconds 3600), .start, .set 4, .created 4 "https://pay/2", .store 4]).map
      (fun s => (s.opened.length, s.unseen.length, s.served.length)) = some (2, 1, 3) := by decide +kernel
  obtain ⟨s, hs, hlength⟩ := Option.map_eq_some_iff.mp hrun
  obtain ⟨hopened, hlength⟩ := Prod.mk.inj hlength
  obtain ⟨hunseen, hserved⟩ := Prod.mk.inj hlength
  exact ⟨s, .of_runIf hs, hopened, hunseen, hserved, (one_checkout (.of_runIf hs)).1⟩

/-! ## A request that nobody comes between -/

/-- `checkout_guard`, as such a request finds it while Redis answers. -/
def guard (s : Checkouts) : CheckoutGuard where
  acquire := .ok (s.live.map fun value => if value.startsWith "https://" then value else creating)
  store _ := .ok ()

/-- The answer to a request for a checkout. -/
def reply (c : PlanChange) : Option (Except HttpError String) :=
  match c.result with
  | .ok (_, some checkoutUrl, _) => some (.ok checkoutUrl)
  | .error (.http_exception statusCode detail) => some (.error ⟨statusCode, detail⟩)
  | .ok (_, none, _) | .error (.billing _) => none

theorem requests_goTo (hi : i < s.requests.length) : (s.goTo i point).requests[i]? = some point := List.getElem?_set_self hi

/-- A request that sets the key asks the provider. -/
theorem exists_run_of_live_none (hr : s.requests[i]? = some .started) (hlive : s.live = none) (client : BachsClient) (db : BillingDb)
    (productId : String) :
    ∃ labels t result, run step s labels = some t ∧ t.requests[i]? = some (.done result) ∧
      reply (startCheckout s.guard client db productId) = some result := by
  have hi := lt_of_getElem? hr
  have hset : step s (.set i) = some (s.acquire i) := by simp only [step, hr]
  have hacquire : s.acquire i = (s.setKey creating).goTo i (.creating s.now) := by simp only [acquire, hlive]; rfl
  have hasking : (s.acquire i).requests[i]? = some (.creating s.now) := by rw [hacquire]; exact requests_goTo hi
  have hlength : i < (s.acquire i).requests.length := lt_of_getElem? hasking
  have hstart : startCheckout s.guard client db productId = startCheckout ⟨.ok none, fun _ => .ok ()⟩ client db productId := by
    simp only [guard, hlive, Option.map_none]
  have hrefused (detail : String) : ∃ t, run step s [.set i, .refused i detail true] = some t ∧
      t.requests[i]? = some (.done (.error ⟨502, detail⟩)) := by
    have hstep : step (s.acquire i) (.refused i detail true) =
        some ({ s.acquire i with key := none }.goTo i (.done (.error ⟨502, detail⟩))) := by simp only [step, hasking, if_true]
    refine ⟨{ s.acquire i with key := none }.goTo i (.done (.error ⟨502, detail⟩)), ?_, requests_goTo hlength⟩
    simp only [run, hset, hstep, Option.bind_some]
  rw [hstart]
  simp only [startCheckout, reduceCtorEq, if_false, Option.filter_none, reply]
  cases hanswer : client (.create_checkout productId) with
  | error detail =>
    obtain ⟨t, ht, hdone⟩ := hrefused detail
    exact ⟨_, t, _, ht, hdone, rfl⟩
  | ok answer =>
    cases hurl : (answer.get "checkout_url").string?.filter (·.startsWith "https://") with
    | none =>
      obtain ⟨t, ht, hdone⟩ := hrefused "The billing provider returned no checkout URL"
      exact ⟨_, t, _, ht, hdone, by simp only [hurl]⟩
    | some url =>
      have hhttps : url.startsWith "https://" := (Option.filter_eq_some_iff.mp hurl).2
      obtain ⟨s', hcreated, hstoring⟩ : ∃ s', step (s.acquire i) (.created i url) = some s' ∧
          s'.requests[i]? = some (.storing s.now url) := by
        refine ⟨{ (s.acquire i).goTo i (.storing s.now url) with opened := (s.acquire i).opened ++ [(s.now, url)] }, ?_,
          requests_goTo hlength⟩
        simp only [step, hasking, hhttps, if_true]
      have hstore : step s' (.store i) = some ((s'.setKey url).serve i url) := by simp only [step, hstoring]
      refine ⟨[.set i, .created i url, .store i], (s'.setKey url).serve i url, .ok url, ?_, requests_goTo (lt_of_getElem? hstoring), ?_⟩
      · simp only [run, hset, hcreated, hstore, Option.bind_some]
      · simp only [hurl]

/-- A request that finds the key reads it. -/
theorem exists_run_of_live_some {value : String} (hr : s.requests[i]? = some .started) (hlive : s.live = some value) (client : BachsClient)
    (db : BillingDb) (productId : String) :
    ∃ labels t result, run step s labels = some t ∧ t.requests[i]? = some (.done result) ∧
      reply (startCheckout s.guard client db productId) = some result := by
  have hi := lt_of_getElem? hr
  have hset : step s (.set i) = some (s.acquire i) := by simp only [step, hr]
  have hacquire : s.acquire i = s.goTo i .taken := by simp only [acquire, hlive]; rfl
  have htaken : (s.acquire i).requests[i]? = some .taken := by rw [hacquire]; exact requests_goTo hi
  have hlength : i < (s.acquire i).requests.length := lt_of_getElem? htaken
  have hget : step (s.acquire i) (.get i) = some ((s.acquire i).read i) := by simp only [step, htaken]
  have hread : (s.acquire i).read i = if value.startsWith "https://" then (s.acquire i).serve i value
      else (s.acquire i).goTo i (.done (.error preparing)) := by
    have hsame : (s.acquire i).live = some value := by rw [hacquire]; exact hlive
    simp only [read, hsame, Option.filter_some]
    split_ifs <;> rfl
  refine ⟨[.set i, .get i], (s.acquire i).read i, if value.startsWith "https://" then .ok value else .error preparing, ?_, ?_, ?_⟩
  · simp only [run, hset, hget, Option.bind_some]
  · rw [hread]
    split_ifs <;> exact requests_goTo hlength
  · by_cases hhttps : value.startsWith "https://"
    · have hacquired : s.guard.acquire = .ok (some value) := by simp only [guard, hlive, Option.map_some, hhttps, if_true]
      have hcreating : ¬ some value = some "creating" := by
        rintro ⟨⟩
        exact absurd hhttps (by decide +kernel)
      have hempty : value ≠ "" := by
        rintro rfl
        exact absurd hhttps (by decide +kernel)
      simp only [startCheckout, hacquired, if_neg hcreating, Option.filter_some, hempty, ne_eq, not_false_eq_true, decide_true, if_true,
        hhttps, reply]
    · have hacquired : s.guard.acquire = .ok (some "creating") := by
        simp only [guard, hlive, Option.map_some, hhttps, if_false, Bool.false_eq_true]
      simp only [startCheckout, hacquired, if_true, hhttps, if_false, Bool.false_eq_true, reply, preparing]

/-- A request that nobody comes between ends as `startCheckout` does. -/
theorem exists_run_startCheckout (hr : s.requests[i]? = some .started) (client : BachsClient) (db : BillingDb) (productId : String) :
    ∃ labels t result, run step s labels = some t ∧ t.requests[i]? = some (.done result) ∧
      reply (startCheckout s.guard client db productId) = some result := by
  cases hlive : s.live with
  | none => exact exists_run_of_live_none hr hlive client db productId
  | some value => exact exists_run_of_live_some hr hlive client db productId

end Checkouts

end Billing

end SignalSync
