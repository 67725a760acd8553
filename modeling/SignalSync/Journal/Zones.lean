import SignalSync.Journal.Analytics
import SignalSync.Library.Bisect

/-!
# Timezones and their days

A timezone is a list of transitions, each with the offset it changes to. The clocks show a
time of UTC with the offset of the last transition before it; a reading of the clocks is
taken with the offset of the last transition that it is past in both offsets (`fold=0`), so
that of a reading shown twice the first time is meant, and one left out is read with the
offset before the gap.

* `le_local_iff`: a midnight that no transition jumps over starts its day;
* `daysPartition_iff`: the ranges of the days are the days exactly in the timezones whose
  transitions jump over no midnight.
-/

namespace SignalSync

namespace Journal

open Library Accounts

/-- The transitions of a timezone, in order, and the offset before the first one. -/
structure Transitions where
  before : Int
  changes : List (Time × Int)
  sorted : changes.Pairwise fun a b => a.1 < b.1
  pos : ∀ e ∈ changes, 0 < e.1

namespace Transitions

variable (z : Transitions)

/-- The `i`-th transition, in UTC. -/
def transUtc (i : Nat) : Int := (z.changes.map fun e => (e.1 : Int)).getD i 0

/-- The offset after `i` transitions. -/
def utcoff (i : Nat) : Int := (z.before :: z.changes.map Prod.snd).getD i 0

/-- The `i`-th transition as the clocks show it, the later of its two readings. -/
def transWall (i : Nat) : Int := z.transUtc i + max (z.utcoff i) (z.utcoff (i + 1))

/-- The `ZoneInfo`. -/
def zone : Zone where
  offset t := z.utcoff (bisectRight (z.changes.map fun e => (e.1 : Int)) t)
  offsetOfReading reading := z.utcoff (bisectRight ((List.range z.changes.length).map z.transWall) reading)

/-- A transition sets the clocks from a reading before `midnight` to one after it, or back. -/
def JumpsOver (i : Nat) (midnight : Int) : Prop :=
  min (z.utcoff i) (z.utcoff (i + 1)) < midnight - z.transUtc i ∧ midnight - z.transUtc i < max (z.utcoff i) (z.utcoff (i + 1))

variable {z} {midnight : Int}

theorem transUtc_lt {i j : Nat} (hij : i < j) (hj : j < z.changes.length) : z.transUtc i < z.transUtc j := by
  have hlt := List.pairwise_iff_getElem.mp z.sorted i j (hij.trans hj) hj hij
  simpa [transUtc, hij.trans hj, hj] using hlt

theorem transUtc_pos {i : Nat} (hi : i < z.changes.length) : 0 < z.transUtc i := by
  have hpos := z.pos _ (List.getElem_mem hi)
  simpa [transUtc, hi] using hpos

/-- The offset at a time: the transitions after it are those from some place on. -/
theorem zone_offset (z : Transitions) (t : Time) : ∃ k ≤ z.changes.length,
    (∀ i < z.changes.length, (t : Int) < z.transUtc i ↔ k ≤ i) ∧ z.zone.offset t = z.utcoff k := by
  obtain ⟨k, hk, hcut⟩ := exists_cut (p := fun i => (t : Int) < z.transUtc i) (n := z.changes.length)
    fun i hi hlt => hlt.trans (transUtc_lt (Nat.lt_add_one i) hi)
  refine ⟨k, hk, hcut, congrArg z.utcoff (bisectRight_eq (by simpa using hk) fun i hi => ?_)⟩
  rw [List.length_map] at hi
  have hentry : z.transUtc i = z.changes[i].1 := by simp [transUtc, hi]
  rw [List.getElem_map, ← hentry]
  exact hcut i hi

/-- The offset at a transition. -/
theorem zone_offset_at {i : Nat} (hi : i < z.changes.length) :
    ∃ t : Time, (t : Int) = z.transUtc i ∧ z.zone.offset t = z.utcoff (i + 1) := by
  have hpos := transUtc_pos hi
  obtain ⟨k, hk, hcut, hoffset⟩ := zone_offset z (z.transUtc i).toNat
  have hafter := (hcut i hi).not.mp (by omega)
  have hk' : k = i + 1 := by
    rcases Nat.lt_or_ge (i + 1) z.changes.length with hlt | hge
    · have hnext := (hcut (i + 1) hlt).mp (by have := transUtc_lt (Nat.lt_add_one i) hlt; omega)
      omega
    · omega
  exact ⟨(z.transUtc i).toNat, by omega, by rw [hoffset, hk']⟩

/-- The offset just before a transition. -/
theorem zone_offset_before {i : Nat} (hi : i < z.changes.length) :
    ∃ t : Time, (t : Int) = z.transUtc i - 1 ∧ z.zone.offset t = z.utcoff i := by
  have hpos := transUtc_pos hi
  obtain ⟨k, hk, hcut, hoffset⟩ := zone_offset z (z.transUtc i - 1).toNat
  have hthis := (hcut i hi).mp (by omega)
  have hk' : k = i := by
    rcases Nat.eq_zero_or_pos i with rfl | hi₀
    · omega
    · have hprevious := (hcut (i - 1) (by omega)).not.mp (by have := transUtc_lt (show i - 1 < i by omega) hi; omega)
      omega
  exact ⟨(z.transUtc i - 1).toNat, by omega, by rw [hoffset, hk']⟩

/-- The offset of a midnight that no transition puts off: the transitions that it is not past
in both offsets are those from some place on. -/
theorem zone_offsetOfReading (h : ∀ i < z.changes.length, ¬ (z.utcoff (i + 1) < midnight - z.transUtc i ∧
      midnight - z.transUtc i < z.utcoff i)) :
    ∃ k ≤ z.changes.length, (∀ i < z.changes.length, midnight < z.transWall i ↔ k ≤ i) ∧
      z.zone.offsetOfReading midnight = z.utcoff k := by
  obtain ⟨k, hk, hcut⟩ := exists_cut (p := fun i => midnight < z.transWall i) (n := z.changes.length) fun i hi hlt => by
    have hset := h i (by omega)
    have hlater := transUtc_lt (Nat.lt_add_one i) hi
    simp only [transWall] at hlt ⊢
    omega
  refine ⟨k, hk, hcut, congrArg z.utcoff (bisectRight_eq (by simpa using hk) fun i hi => ?_)⟩
  rw [List.getElem_map, List.getElem_range]
  exact hcut i (by simpa using hi)

/-- The clocks show a midnight or later from the time on that it is read as. -/
theorem le_local_iff (h : ∀ i < z.changes.length, ¬ z.JumpsOver i midnight) (t : Time) :
    midnight ≤ t + z.zone.offset t ↔ midnight - z.zone.offsetOfReading midnight ≤ t := by
  simp only [JumpsOver] at h
  obtain ⟨j, hj, htime, hoffset⟩ := zone_offset z t
  have hback : ∀ i < z.changes.length, ¬ (z.utcoff (i + 1) < midnight - z.transUtc i ∧ midnight - z.transUtc i < z.utcoff i) := by
    intro i hi
    have := h i hi
    omega
  obtain ⟨k, hk, hread, hreading⟩ := zone_offsetOfReading hback
  simp only [transWall] at hread
  rw [hoffset, hreading]
  rcases Nat.lt_trichotomy j k with hlt | rfl | hgt
  · -- the midnight is past the transition that `t` is before, and read after the last one it is past
    have ht := (htime j (by omega)).mpr (Nat.le_refl j)
    have hpast := (hread j (by omega)).not.mpr (by omega)
    have hlast := (hread (k - 1) (by omega)).not.mpr (by omega)
    have hk' : k - 1 + 1 = k := by omega
    rw [hk'] at hlast
    have hle : z.transUtc j ≤ z.transUtc (k - 1) := by
      rcases Nat.lt_or_ge j (k - 1) with hlt | hge
      · exact (transUtc_lt hlt (by omega)).le
      · rw [show k - 1 = j by omega]
    omega
  · omega
  · -- the midnight is not past the transitions from `k` on, of which `t` is past the last
    have ht := (htime (j - 1) (by omega)).not.mpr (by omega)
    have hfirst := (hread k (by omega)).mpr (Nat.le_refl k)
    have hlast := (hread (j - 1) (by omega)).mpr (by omega)
    have hk₀ := h k (by omega)
    have hj₀ := h (j - 1) (by omega)
    have hj' : j - 1 + 1 = j := by omega
    rw [hj'] at hlast hj₀
    have hle : z.transUtc k ≤ z.transUtc (j - 1) := by
      rcases Nat.lt_or_ge k (j - 1) with hlt | hge
      · exact (transUtc_lt hlt (by omega)).le
      · rw [show j - 1 = k by omega]
    omega

/-- A midnight that the clocks show from one time on, and that is read as this time, is not jumped
over. -/
theorem not_jumpsOver (h : ∀ t : Time, midnight ≤ t + z.zone.offset t ↔ midnight - z.zone.offsetOfReading midnight ≤ t) :
    ∀ i < z.changes.length, ¬ z.JumpsOver i midnight := by
  have hback : ∀ i < z.changes.length, ¬ (z.utcoff (i + 1) < midnight - z.transUtc i ∧ midnight - z.transUtc i < z.utcoff i) := by
    intro i hi
    obtain ⟨t, ht, hoffset⟩ := zone_offset_at hi
    obtain ⟨t', ht', hoffset'⟩ := zone_offset_before hi
    have hlater := h t
    have hearlier := h t'
    omega
  obtain ⟨k, hk, hread, hreading⟩ := zone_offsetOfReading hback
  intro i hi hjump
  rw [JumpsOver] at hjump
  have hset := hback i hi
  -- so the clocks jump ahead over it, and it is read as the transition
  obtain ⟨t, ht, hoffset⟩ := zone_offset_at hi
  obtain ⟨t', ht', hoffset'⟩ := zone_offset_before hi
  have hlater := h t
  have hearlier := h t'
  have hki : k ≤ i := (hread i hi).mp (by rw [transWall]; omega)
  rcases hki.lt_or_eq with hlt | rfl
  · obtain ⟨u, hu, hoffsetu⟩ := zone_offset_at (hlt.trans hi)
    have hthere := h u
    have hwall := (hread k (hlt.trans hi)).mpr (Nat.le_refl k)
    have horder := transUtc_lt hlt hi
    rw [transWall] at hwall
    omega
  · omega

/-- The offsets are within some bound. -/
theorem exists_bound (z : Transitions) : ∃ bound : Nat, ∀ i, (z.utcoff i).natAbs ≤ bound := by
  have hlist (offsets : List Int) : ∃ bound : Nat, ∀ i, (offsets.getD i 0).natAbs ≤ bound := by
    induction offsets with
    | nil => exact ⟨0, fun i => by simp⟩
    | cons offset rest ih =>
      obtain ⟨bound, hbound⟩ := ih
      refine ⟨offset.natAbs + bound, fun i => ?_⟩
      cases i with
      | zero =>
        rw [List.getD_cons_zero]
        omega
      | succ i =>
        have := hbound i
        rw [List.getD_cons_succ]
        omega
  exact hlist _

end Transitions

/-! ## Days -/

/-- The days as `to_account_local_date` tells them and as `local_date_to_utc_range` does. -/
structure DaysPartition (zone : Zone) : Prop where
  contains : ∀ (d : Date) (t : Time), ((localDateToUtcRange d zone).1 ≤ t ∧ t < (localDateToUtcRange d zone).2) ↔
    toAccountLocalDate t zone = d
  adjacent : ∀ d : Date, (localDateToUtcRange d zone).2 = (localDateToUtcRange (d + 1) zone).1
  window : ∀ (rows : List Trade) (fromDate toDate : Option Date) (trade : Trade),
    trade ∈ listTradeRowsForAnalytics rows (resolveDateWindow fromDate toDate zone).1 (resolveDateWindow fromDate toDate zone).2 ↔
      trade ∈ rows ∧ fromDate.all (· ≤ toAccountLocalDate trade.closedAt zone) ∧
        toDate.all (toAccountLocalDate trade.closedAt zone ≤ ·)

section

variable {zone : Zone}

theorem le_toAccountLocalDate {d : Int} {t : Time} : d ≤ toAccountLocalDate t zone ↔ d * aDay ≤ t + zone.offset t :=
  Int.le_ediv_iff_mul_le (by decide)

theorem range_end (d : Int) (zone : Zone) : (localDateToUtcRange d zone).2 = (localDateToUtcRange (d + 1) zone).1 := by
  simp only [localDateToUtcRange, add_mul, one_mul]

/-- It is enough that a day starts where its range does. -/
theorem daysPartition_of_starts (h : ∀ (d : Int) (t : Time), d ≤ toAccountLocalDate t zone ↔ (localDateToUtcRange d zone).1 ≤ t) :
    DaysPartition zone where
  contains := by
    intro (d : Int) t
    have hstart := h d t
    have hend := h (d + 1) t
    rw [range_end]
    show _ ↔ (toAccountLocalDate t zone : Int) = d
    unfold Date at *
    omega
  adjacent d := range_end d zone
  window rows fromDate toDate trade := by
    rw [mem_listTradeRows]
    refine and_congr_right fun _ => ?_
    have hfrom : (resolveDateWindow fromDate toDate zone).1.all (· ≤ (trade.closedAt : Int)) =
        fromDate.all (· ≤ toAccountLocalDate trade.closedAt zone) := by
      cases fromDate with
      | none => rfl
      | some d => exact decide_eq_decide.mpr (h d trade.closedAt).symm
    have hto : (resolveDateWindow fromDate toDate zone).2.all ((trade.closedAt : Int) < ·) =
        toDate.all (toAccountLocalDate trade.closedAt zone ≤ ·) := by
      cases toDate with
      | none => rfl
      | some d =>
        have hend := h (d + 1) trade.closedAt
        refine decide_eq_decide.mpr ?_
        show (trade.closedAt : Int) < (localDateToUtcRange d zone).2 ↔ _
        rw [range_end]
        unfold Date at *
        omega
    rw [inWindow, hfrom, hto, Bool.and_eq_true]

/-- And it is necessary, where the offsets are within some bound: a range that is left through
its end is entered again nowhere else. -/
theorem starts_of_contains {bound : Nat} (hb : ∀ reading, (zone.offsetOfReading reading).natAbs ≤ bound)
    (hc : ∀ (d : Date) (t : Time), ((localDateToUtcRange d zone).1 ≤ t ∧ t < (localDateToUtcRange d zone).2) ↔
      toAccountLocalDate t zone = d) (d : Int) (t : Time) :
    d ≤ toAccountLocalDate t zone ↔ (localDateToUtcRange d zone).1 ≤ t := by
  have hday : aDay = 86400000000 := rfl
  have hown := (hc (toAccountLocalDate t zone) t).mpr rfl
  have hnext (k : Int) (hk : k ≠ toAccountLocalDate t zone) (hle : (localDateToUtcRange k zone).1 ≤ t) :
      (localDateToUtcRange (k + 1) zone).1 ≤ t := by
    have hnot := (hc k t).not.mpr (Ne.symm hk)
    rw [range_end] at hnot
    omega
  constructor
  · intro hd
    by_contra hlt
    have hbelow (n : Nat) : ¬ (localDateToUtcRange (d - n) zone).1 ≤ t := by
      induction n with
      | zero => simpa using hlt
      | succ n ih =>
        intro hle
        refine ih ?_
        have := hnext (d - (n + 1 : Nat)) (by omega) hle
        rwa [show d - ((n + 1 : Nat) : Int) + 1 = d - n by omega] at this
    obtain ⟨n, hn⟩ : ∃ n : Nat, d - (n : Int) ≤ -(bound : Int) := ⟨d.toNat + bound, by omega⟩
    have hread := hb ((d - n) * aDay)
    have hfar := hbelow n
    simp only [localDateToUtcRange, hday] at hread hfar
    omega
  · intro hle
    by_contra hd
    have habove (n : Nat) : (localDateToUtcRange (d + n) zone).1 ≤ t := by
      induction n with
      | zero => simpa using hle
      | succ n ih =>
        have := hnext (d + n) (by omega) ih
        rwa [show d + (n : Int) + 1 = d + (n + 1 : Nat) by omega] at this
    obtain ⟨n, hn⟩ : ∃ n : Nat, (t : Int) + bound < d + (n : Int) := ⟨d.natAbs + t + bound + 1, by omega⟩
    have hread := hb ((d + n) * aDay)
    have hfar := habove n
    simp only [localDateToUtcRange, hday] at hread hfar
    omega

/-- No transition of the timezone jumps over a midnight. -/
def Transitions.KeepsMidnights (z : Transitions) : Prop := ∀ (d : Date), ∀ i < z.changes.length, ¬ z.JumpsOver i (d * aDay)

/-- **Local days.** The ranges of the days are the days of the account, they follow on each other,
and the filters admit what is counted in their days, exactly where no transition jumps over a
midnight. -/
theorem daysPartition_iff (z : Transitions) : DaysPartition z.zone ↔ z.KeepsMidnights := by
  constructor
  · intro h d
    obtain ⟨bound, hb⟩ := z.exists_bound
    refine Transitions.not_jumpsOver fun t => ?_
    rw [← le_toAccountLocalDate]
    exact starts_of_contains (fun _ => hb _) h.contains d t
  · intro h
    refine daysPartition_of_starts fun d t => ?_
    rw [le_toAccountLocalDate]
    exact Transitions.le_local_iff (h d) t

/-- In Newfoundland the clocks went back by an hour at one minute past midnight. -/
def newfoundland : Transitions where
  before := -seconds 9000
  changes := [(seconds 181860, -seconds 12600)]
  sorted := List.pairwise_singleton _ _
  pos := by decide

/-- They show the first day again, but the range of the second one has begun. -/
theorem contains_newfoundland :
    ¬ ∀ (z : Transitions) (d : Date) (t : Time),
      ((localDateToUtcRange d z.zone).1 ≤ t ∧ t < (localDateToUtcRange d z.zone).2) ↔ toAccountLocalDate t z.zone = d := by
  intro h
  have hday := (h newfoundland 2 (seconds 181860)).mp (by decide +kernel)
  revert hday
  decide +kernel

end

end Journal

end SignalSync
