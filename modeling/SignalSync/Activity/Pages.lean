import SignalSync.Library.Pages
import SignalSync.Library.Json
import SignalSync.Library.Text
import SignalSync.Delivery
import Mathlib.Data.List.Sort

/-!
# Pages of activity

`list_activity` answers with a page of the user's events, newest first, and with the time
of its last event as the cursor of the next page. The next page's events are older than
the cursor.

* `followed_iff`: a client that follows the cursors goes through the library's pages;
* `activity_complete_iff`: for which events it gets each of them once.
-/

namespace SignalSync

open Library

inductive CopyActivityLevel
  | info | success | warning | error
deriving DecidableEq, Repr

structure CopyActivityEvent where
  id : Uuid
  userId : Uuid
  sourceId : Option Uuid := none
  connectionId : Option Uuid := none
  level : CopyActivityLevel := .info
  title : String
  body : Option String := none
  createdAt : Time
deriving DecidableEq

/-- `datetime.isoformat`, which `datetime.fromisoformat` reads. -/
class IsoFormat extends Python where
  isoformat : Time → String
  fromIsoFormat_isoformat (t : Time) : fromIsoFormat (isoformat t) = some t
  isoformat_ne_empty (t : Time) : isoformat t ≠ ""

/-- What a request may ask for beside a page. -/
structure ActivityFilter where
  level : Option CopyActivityLevel := none
  sourceId : Option Uuid := none
  connectionId : Option Uuid := none
  search : Option { text : String // text.length ≤ 200 } := none

/-- The `limit` of a request. -/
abbrev PageLimit := { n : Nat // 1 ≤ n ∧ n ≤ 100 }

structure CopyActivityPage where
  items : List CopyActivityEvent
  nextCursor : Option String
deriving DecidableEq

/-- Newest first; the database orders events of one time. -/
abbrev ActivityOrder := Listing CopyActivityEvent.createdAt

section

-- `ilike` is the database's: a text, and a pattern
variable [Unicode] (ilike : String → String → Bool)

/-- The `where` clauses that the filter adds. -/
def ActivityFilter.admits (f : ActivityFilter) (event : CopyActivityEvent) : Bool :=
  f.level.all (event.level = ·) && f.sourceId.all (event.sourceId = some ·) && f.connectionId.all (event.connectionId = some ·) &&
    (f.search.filter (·.1 ≠ "")).all fun text =>
      let term := "%" ++ Unicode.strip text.1 ++ "%"
      ilike event.title term || event.body.any (ilike · term)

variable (L : ActivityOrder) (events : List CopyActivityEvent) (userId : Uuid) (filter : ActivityFilter)

/-- The events that the pages list. -/
def matchingActivity : List CopyActivityEvent := events.filter fun event => event.userId = userId && filter.admits ilike event

def listActivityForUser (limit : Nat) (before : Option Time) : List CopyActivityEvent :=
  (L.order (events.filter fun event =>
    event.userId = userId && before.all (event.createdAt < ·) && filter.admits ilike event)).take limit

variable [IsoFormat]

def listActivity (limit : PageLimit) (cursor : Option String) : Except HttpError CopyActivityPage := do
  let before ← match cursor with
    | none => pure none
    | some text =>
      if text = "" then pure none
      else match Python.fromIsoFormat text with
        | some time => pure (some time)
        | none => throw ⟨422, "Activity cursor is invalid."⟩
  let found := listActivityForUser ilike L events userId filter (limit.1 + 1) before
  let visible := found.take limit.1
  return {
    items := visible
    nextCursor := if limit.1 < found.length then visible.getLast?.map fun event => IsoFormat.isoformat event.createdAt else none }

/-- The events a client gets that follows the cursors from one on, to the end. -/
inductive Followed (limit : PageLimit) : Option String → List CopyActivityEvent → Prop
  | last {cursor : Option String} {page : CopyActivityPage} (h : listActivity ilike L events userId filter limit cursor = .ok page)
      (hnext : page.nextCursor = none) : Followed limit cursor page.items
  | next {cursor : Option String} {page : CopyActivityPage} {next : String} {rest : List CopyActivityEvent}
      (h : listActivity ilike L events userId filter limit cursor = .ok page) (hnext : page.nextCursor = some next)
      (hrest : Followed limit (some next) rest) : Followed limit cursor (page.items ++ rest)

end

section

variable [Unicode] [IsoFormat] {ilike : String → String → Bool} {L : ActivityOrder} {events : List CopyActivityEvent} {userId : Uuid}
  {filter : ActivityFilter} {limit : PageLimit} {before : Option Time} {items : List CopyActivityEvent}

omit [IsoFormat] in
theorem listActivityForUser_eq (n : Nat) :
    listActivityForUser ilike L events userId filter n before = (L.query (matchingActivity ilike events userId filter) before).take n := by
  unfold listActivityForUser matchingActivity Listing.query
  rw [List.filter_filter]
  congr 2
  refine List.filter_congr fun event _ => ?_
  rw [Bool.and_comm _ (before.all _), Bool.and_assoc]

/-- A page is the library's, its cursor written. -/
theorem listActivity_eq : listActivity ilike L events userId filter limit (before.map IsoFormat.isoformat) =
    .ok ⟨L.visible (matchingActivity ilike events userId filter) limit before,
      (L.nextCursor (matchingActivity ilike events userId filter) limit before).map IsoFormat.isoformat⟩ := by
  have hvisible (rows : List CopyActivityEvent) : (rows.take (limit.1 + 1)).take limit.1 = rows.take limit.1 := by
    rw [List.take_take, Nat.min_eq_left (Nat.le_succ _)]
  have hnext (rows : List CopyActivityEvent) :
      (if limit.1 < (rows.take (limit.1 + 1)).length then
        (rows.take limit.1).getLast?.map fun event => IsoFormat.isoformat event.createdAt else none) =
      (if limit.1 < rows.length then (rows.take limit.1).getLast?.map CopyActivityEvent.createdAt else none).map IsoFormat.isoformat := by
    have hmore : limit.1 < (rows.take (limit.1 + 1)).length ↔ limit.1 < rows.length := by
      rw [List.length_take]
      omega
    simp only [hmore]
    split
    · rw [Option.map_map]
      rfl
    · rfl
  unfold listActivity
  cases before with
  | none =>
    simp only [Option.map_none, pure_bind, listActivityForUser_eq, hvisible, hnext]
    rfl
  | some time =>
    simp only [Option.map_some, if_neg (IsoFormat.isoformat_ne_empty time), IsoFormat.fromIsoFormat_isoformat, pure_bind,
      listActivityForUser_eq, hvisible, hnext]
    rfl

variable (before) in
/-- A client that follows the cursors goes through the pages. -/
theorem followed_iff : Followed ilike L events userId filter limit (before.map IsoFormat.isoformat) items ↔
    ∃ fuel, L.follow (matchingActivity ilike events userId filter) limit fuel before = some items := by
  constructor
  · intro h
    generalize hcursor : before.map IsoFormat.isoformat = cursor at h
    induction h generalizing before with
    | last h hnext =>
      subst hcursor
      cases listActivity_eq.symm.trans h
      exact ⟨1, by rw [Listing.follow, Option.map_eq_none_iff.1 hnext]⟩
    | next h hnext hrest ih =>
      subst hcursor
      cases listActivity_eq.symm.trans h
      obtain ⟨time, htime, hwritten⟩ := Option.map_eq_some_iff.mp hnext
      obtain ⟨fuel, hfuel⟩ := ih (some time) (congrArg some hwritten)
      exact ⟨fuel + 1, by rw [Listing.follow, htime]; simp only [hfuel, Option.map_some]⟩
  · rintro ⟨fuel, h⟩
    induction fuel generalizing before items with
    | zero => cases h
    | succ fuel ih =>
      rw [Listing.follow] at h
      cases hnext : L.nextCursor (matchingActivity ilike events userId filter) limit before with
      | none =>
        rw [hnext] at h
        cases h
        exact .last listActivity_eq (by rw [hnext]; rfl)
      | some time =>
        rw [hnext] at h
        obtain ⟨rest, hrest, rfl⟩ := Option.map_eq_some_iff.mp h
        exact .next listActivity_eq (by rw [hnext]; rfl) (ih _ hrest)

/-- The client gets every event that matches once, newest first, iff no page ends between
events of one time. -/
theorem activity_complete_iff (ilike : String → String → Bool) (L : ActivityOrder) (events : List CopyActivityEvent) (userId : Uuid)
    (filter : ActivityFilter) (limit : PageLimit) :
    (∃ items, Followed ilike L events userId filter limit none items ∧ items.Perm (matchingActivity ilike events userId filter) ∧
      items.Pairwise fun a b => b.createdAt ≤ a.createdAt) ↔
    Listing.Apart CopyActivityEvent.createdAt (matchingActivity ilike events userId filter) limit := by
  have hlimit : 0 < limit.1 := limit.2.1
  constructor
  · rintro ⟨items, hitems, hperm, -⟩
    obtain ⟨fuel, hfuel⟩ := (followed_iff none).1 hitems
    exact (Listing.follow_perm_iff hlimit hfuel).1 hperm
  · intro happart
    obtain ⟨items, hitems⟩ := Listing.follow_isSome (L := L) hlimit (Nat.lt_succ_self (matchingActivity ilike events userId filter).length)
    exact ⟨items, (followed_iff none).2 ⟨_, hitems⟩, (Listing.follow_perm_iff hlimit hitems).2 happart,
      (Listing.sorted_follow hlimit hitems).1⟩

end

section

/-- Times written in unary. -/
@[reducible] def unaryTimes : IsoFormat where
  repr _ := ""
  fromIsoFormat text := some (text.length - 1)
  isoformat t := .ofList (List.replicate (t + 1) '|')
  fromIsoFormat_isoformat t := by simp
  isoformat_ne_empty t h := by simpa using congrArg String.length h

def newestFirst : ActivityOrder where
  order rows := rows.insertionSort fun a b => b.createdAt ≤ a.createdAt
  perm rows := List.perm_insertionSort _ rows
  sorted rows := List.pairwise_insertionSort _ rows

/-- Two events of one commit. -/
def eventsOfOneTime : List CopyActivityEvent :=
  [{ id := 0, userId := 0, title := "Order sent", createdAt := 1 }, { id := 1, userId := 0, title := "Order filled", createdAt := 1 }]

/-- Of two events of one time, pages of one event have one. -/
theorem secondEvent_lost :
    let _ := Unicode.ascii
    let _ := unaryTimes
    ¬ ∃ items, Followed (fun _ _ => true) newestFirst eventsOfOneTime 0 {} ⟨1, by decide⟩ none items ∧
      items.Perm (matchingActivity (fun _ _ => true) eventsOfOneTime 0 {}) ∧ items.Pairwise fun a b => b.createdAt ≤ a.createdAt := by
  intro _ _
  rintro ⟨items, hitems, hperm, -⟩
  have hlength : items.length = 2 := hperm.length_eq
  have hfirst : listActivity (fun _ _ => true) newestFirst eventsOfOneTime 0 {} ⟨1, by decide⟩ none =
      .ok ⟨eventsOfOneTime.take 1, some "||"⟩ := by decide +kernel
  have hsecond : listActivity (fun _ _ => true) newestFirst eventsOfOneTime 0 {} ⟨1, by decide⟩ (some "||") = .ok ⟨[], none⟩ := by
    decide +kernel
  cases hitems with
  | last h hnext =>
    cases hfirst.symm.trans h
    cases hnext
  | next h hnext hrest =>
    cases hfirst.symm.trans h
    cases hnext
    cases hrest with
    | last h hnext =>
      cases hsecond.symm.trans h
      cases hlength
    | next h hnext hrest =>
      cases hsecond.symm.trans h
      cases hnext

end

end SignalSync
