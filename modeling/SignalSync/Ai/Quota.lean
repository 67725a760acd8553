import Mathlib.Order.MinMax
import SignalSync.Delivery
import SignalSync.Library.Run
import SignalSync.Library.Upsert

/-!
# The monthly quota of AI credits

A debit is committed to the database, then reads the month's total back and writes it to
Redis; debits of one user run at the same time, Redis may fail or forget a key at any time,
and each of the three looks at the clock for its month. What a request is checked against is
the greater of the two totals.

* `spent_le`: in every run it is at least what was committed for the month;
* `usage_eq`: it is just that, as long as no month ends between the reading and the writing of
  a debit, and then a request is refused where the committed credits have reached the limit.
-/

namespace SignalSync

namespace Ai

open Library

structure AiSettings where
  aiEnabled : Bool := true
  aiCreditsFree : Nat
  aiCreditsEssential : Nat
  aiCreditsPro : Nat

/-- What `subscription_response` grants. -/
structure Access where
  hasCopyAccess : Bool := false
  hasJournalAccess : Bool := false

inductive Plan
  | free | journal | copy
deriving DecidableEq

def planForUser (access : Access) : Plan :=
  if access.hasCopyAccess then .copy else if access.hasJournalAccess then .journal else .free

/-- `PLAN_CREDITS`. -/
def AiSettings.planCredits (settings : AiSettings) : Plan → Nat
  | .free => settings.aiCreditsFree
  | .journal => settings.aiCreditsEssential
  | .copy => settings.aiCreditsPro

/-- A user and a month. -/
abbrev UsageKey := String × Nat

structure AiUsage where
  creditsUsed : Nat := 0
  messageCount : Nat := 0
  inputTokens : Nat := 0
  outputTokens : Nat := 0
deriving DecidableEq

/-- The arguments of `debit`. -/
structure Debit where
  userId : String
  credits : Nat
  inputTokens : Nat := 0
  outputTokens : Nat := 0
deriving DecidableEq

def Debit.usage (debit : Debit) : AiUsage where
  creditsUsed := debit.credits
  messageCount := 1
  inputTokens := debit.inputTokens
  outputTokens := debit.outputTokens

/-- The `set_` of the upsert. -/
def AiUsage.add (usage excluded : AiUsage) : AiUsage where
  creditsUsed := usage.creditsUsed + excluded.creditsUsed
  messageCount := usage.messageCount + excluded.messageCount
  inputTokens := usage.inputTokens + excluded.inputTokens
  outputTokens := usage.outputTokens + excluded.outputTokens

def incrementUsage (usage : Table UsageKey AiUsage) (debit : Debit) (periodMonth : Nat) : Table UsageKey AiUsage :=
  usage.upsert AiUsage.add ((debit.userId, periodMonth), debit.usage)

/-- A row that is not there is made with its defaults, and rolled back with the session. -/
def getOrCreateUsage (usage : Table UsageKey AiUsage) (userId : String) (periodMonth : Nat) : AiUsage :=
  (usage.get? (userId, periodMonth)).getD {}

/-- Where a debit is. -/
inductive DebitPhase
  | committed (userId : String)
  | read (userId : String) (month authoritativeTotal : Nat)
  | done

/-- The month whose total a debit has read. -/
def DebitPhase.monthRead : DebitPhase → Option Nat
  | .read _ month _ => some month
  | .committed _ | .done => none

structure QuotaState where
  usage : Table UsageKey AiUsage := ∅
  redis : Table UsageKey Nat := ∅
  debits : List DebitPhase := []
  /-- The debits that were committed, with their months. -/
  history : List (Nat × Debit) := []

inductive QuotaLabel
  | commit (debit : Debit) (month : Nat)
  | read (i : Nat) (month : Nat)
  | set (i : Nat) (month : Nat)
  /-- The reading raises, or Redis does. -/
  | fail (i : Nat)
  /-- A key expires or is evicted. -/
  | forget (key : UsageKey)

namespace QuotaState

def step (s : QuotaState) : QuotaLabel → Option QuotaState
  | .commit debit month => some
    { s with
      usage := incrementUsage s.usage debit month
      debits := s.debits ++ [.committed debit.userId]
      history := s.history ++ [(month, debit)] }
  | .read i month =>
    match s.debits[i]? with
    | some (.committed userId) =>
      some { s with debits := s.debits.set i (.read userId month (getOrCreateUsage s.usage userId month).creditsUsed) }
    | _ => none
  | .set i month =>
    match s.debits[i]? with
    | some (.read userId _ authoritativeTotal) =>
      let key := (userId, month)
      some { s with redis := (s.redis.remove key).add key authoritativeTotal, debits := s.debits.set i .done }
    | _ => none
  | .fail i => some { s with debits := s.debits.set i .done }
  | .forget key => some { s with redis := s.redis.remove key }

def authoritativeUsage (s : QuotaState) (redisUp : Bool) (userId : String) (month : Nat) : Nat :=
  let redisUsed := if redisUp then (s.redis.get? (userId, month)).getD 0 else 0
  max (getOrCreateUsage s.usage userId month).creditsUsed redisUsed

def check (settings : AiSettings) (s : QuotaState) (redisUp : Bool) (access : Access) (userId : String) (month : Nat) :
    Except HttpError Unit :=
  if settings.aiEnabled = false then .error ⟨503, "AI features are currently disabled."⟩
  else if settings.planCredits (planForUser access) ≤ s.authoritativeUsage redisUp userId month then
    .error ⟨402, "Monthly AI credits used up. Upgrade your plan for more."⟩
  else .ok ()

/-- What the user's debits of the month come to. -/
def spent (s : QuotaState) (userId : String) (month : Nat) : AiUsage :=
  ((s.history.filter fun e => e.1 = month ∧ e.2.userId = userId).map fun e => e.2.usage).foldl AiUsage.add {}

/-- A debit writes the key of the month it has read. -/
def InMonth (s : QuotaState) : QuotaLabel → Prop
  | .set i month => ∀ phase ∈ s.debits[i]?, ∀ read ∈ phase.monthRead, read = month
  | _ => True

instance (s : QuotaState) (a : QuotaLabel) : Decidable (s.InMonth a) :=
  match a with
  | .set i month => inferInstanceAs (Decidable (∀ phase ∈ s.debits[i]?, ∀ read ∈ phase.monthRead, read = month))
  | .commit .. | .read .. | .fail _ | .forget _ => isTrue trivial

variable {s t : QuotaState} {a : QuotaLabel} {userId : String} {month : Nat} {redisUp : Bool}

/-! ## The database -/

/-- The rows are what was committed. -/
def Accounted (s : QuotaState) : Prop := ∀ userId month, getOrCreateUsage s.usage userId month = s.spent userId month

theorem getOrCreateUsage_incrementUsage (usage : Table UsageKey AiUsage) (debit : Debit) (m : Nat) :
    getOrCreateUsage (incrementUsage usage debit m) userId month =
      if month = m ∧ userId = debit.userId then (getOrCreateUsage usage userId month).add debit.usage
      else getOrCreateUsage usage userId month := by
  rw [getOrCreateUsage, incrementUsage, Table.get?_upsert]
  simp only [Prod.mk.injEq]
  by_cases h : userId = debit.userId ∧ month = m
  · obtain ⟨rfl, rfl⟩ := h
    rw [if_pos ⟨rfl, rfl⟩, if_pos ⟨rfl, rfl⟩, Option.getD_some, getOrCreateUsage]
    cases usage.get? (debit.userId, month) with
    | none => simp [Table.merged, AiUsage.add]
    | some row => rfl
  · rw [if_neg h, if_neg fun h' => h h'.symm]
    rfl

theorem Accounted.step (h : s.Accounted) (hs : s.step a = some t) : t.Accounted := by
  cases a with
  | commit debit m =>
    cases hs
    intro userId month
    rw [getOrCreateUsage_incrementUsage, h userId month, spent, spent]
    simp only [List.filter_append, List.map_append, List.foldl_append, List.filter_cons, List.filter_nil]
    by_cases hkey : month = m ∧ userId = debit.userId
    · rw [if_pos hkey, if_pos (by simp [hkey])]
      rfl
    · have hother : ¬ (m = month ∧ debit.userId = userId) := fun h => hkey ⟨h.1.symm, h.2.symm⟩
      rw [if_neg hkey, if_neg (by simpa using hother)]
      rfl
  | read i m | set i m =>
    simp only [QuotaState.step] at hs
    split at hs <;> cases hs
    exact h
  | fail i | forget key =>
    cases hs
    exact h

theorem reach_accounted {ok : QuotaState → QuotaLabel → Prop} (h : Reach step ok {} s) : s.Accounted := by
  refine h.invariant ?_ fun _ _ _ hs _ hstep => hs.step hstep
  intro userId month
  rfl

/-- A month's check never falls short of what was committed for it. -/
theorem spent_le (h : Reach step always {} s) : (s.spent userId month).creditsUsed ≤ s.authoritativeUsage redisUp userId month := by
  rw [← reach_accounted h userId month]
  exact le_max_left ..

/-! ## Redis -/

/-- What Redis has, or is about to get, is a total the database has reached. -/
structure Behind (s : QuotaState) : Prop where
  redis : ∀ userId month total, s.redis.get? (userId, month) = some total → total ≤ (s.spent userId month).creditsUsed
  reads : ∀ userId month total, .read userId month total ∈ s.debits → total ≤ (s.spent userId month).creditsUsed

theorem creditsUsed_foldl (l : List AiUsage) (usage : AiUsage) : usage.creditsUsed ≤ (l.foldl AiUsage.add usage).creditsUsed := by
  induction l generalizing usage with
  | nil => exact le_rfl
  | cons u l ih => exact (Nat.le_add_right _ _).trans (ih (usage.add u))

/-- What is committed is not taken back. -/
theorem spent_mono (hs : s.step a = some t) (userId : String) (month : Nat) :
    (s.spent userId month).creditsUsed ≤ (t.spent userId month).creditsUsed := by
  cases a with
  | commit debit m =>
    cases hs
    simp only [spent, List.filter_append, List.map_append, List.foldl_append]
    exact creditsUsed_foldl _ _
  | read i m | set i m =>
    simp only [QuotaState.step] at hs
    split at hs <;> cases hs
    exact le_rfl
  | fail i | forget key =>
    cases hs
    exact le_rfl

theorem Behind.step (h : s.Behind) (ha : s.Accounted) (hok : s.InMonth a) (hs : s.step a = some t) : t.Behind := by
  have hmono := spent_mono hs
  have hset {i : Nat} {phase : DebitPhase} {userId : String} {month total : Nat}
      (hm : .read userId month total ∈ s.debits.set i phase) : .read userId month total ∈ s.debits ∨ phase = .read userId month total :=
    (List.mem_or_eq_of_mem_set hm).imp id Eq.symm
  cases a with
  | commit debit m =>
    cases hs
    refine ⟨fun userId month total hr => (h.redis userId month total hr).trans (hmono userId month), fun userId month total hm => ?_⟩
    rcases List.mem_append.mp hm with hm | hm
    · exact (h.reads userId month total hm).trans (hmono userId month)
    · cases List.mem_singleton.mp hm
  | read i m =>
    simp only [QuotaState.step] at hs
    split at hs <;> cases hs
    refine ⟨h.redis, fun userId month total hm => ?_⟩
    rcases hset hm with hm | hm
    · exact h.reads userId month total hm
    · cases hm
      exact (congrArg AiUsage.creditsUsed (ha _ _)).le
  | set i m =>
    simp only [QuotaState.step] at hs
    split at hs
    · rename_i user read total hphase
      cases hok _ hphase _ rfl
      cases hs
      refine ⟨fun userId month total' hr => ?_, fun userId month total' hm => ?_⟩
      · simp only [Table.get?_add, Table.get?_remove, Prod.mk.injEq] at hr
        by_cases hkey : userId = user ∧ month = m
        · rw [if_pos hkey, if_pos hkey, Option.none_or] at hr
          cases hr
          obtain ⟨rfl, rfl⟩ := hkey
          exact h.reads userId month total (List.mem_of_getElem? hphase)
        · rw [if_neg hkey, if_neg hkey, Option.or_none] at hr
          exact h.redis userId month total' hr
      · rcases hset hm with hm | hm
        · exact h.reads userId month total' hm
        · cases hm
    · cases hs
  | fail i =>
    cases hs
    refine ⟨h.redis, fun userId month total hm => ?_⟩
    rcases hset hm with hm | hm
    · exact h.reads userId month total hm
    · cases hm
  | forget key =>
    cases hs
    refine ⟨fun userId month total hr => ?_, h.reads⟩
    rw [Table.get?_remove] at hr
    split at hr
    · cases hr
    · exact h.redis userId month total hr

/-- As long as no month ends between the reading and the writing of a debit, what a request is
checked against is what was committed for the month, whatever Redis has, and it is refused
where that has reached the plan's limit. -/
theorem usage_eq (h : Reach step InMonth {} s) (settings : AiSettings) (access : Access) :
    s.authoritativeUsage redisUp userId month = (s.spent userId month).creditsUsed ∧
      (check settings s redisUp access userId month = .ok () ↔
        settings.aiEnabled ∧ (s.spent userId month).creditsUsed < settings.planCredits (planForUser access)) := by
  have hboth : s.Behind ∧ s.Accounted := by
    refine h.invariant (P := fun s => s.Behind ∧ s.Accounted) ⟨⟨fun userId month total hr => ?_, fun userId month total hm => ?_⟩,
      fun userId month => rfl⟩ fun s a t hs hok hstep => ⟨hs.1.step hs.2 hok hstep, hs.2.step hstep⟩
    · cases hr
    · cases hm
  obtain ⟨hbehind, haccounted⟩ := hboth
  have hle : (if redisUp then (s.redis.get? (userId, month)).getD 0 else 0) ≤ (s.spent userId month).creditsUsed := by
    split
    · cases hr : s.redis.get? (userId, month) with
      | none => exact Nat.zero_le _
      | some total => exact hbehind.redis userId month total hr
    · exact Nat.zero_le _
  have husage : s.authoritativeUsage redisUp userId month = (s.spent userId month).creditsUsed := by
    rw [authoritativeUsage, haccounted userId month]
    exact max_eq_left hle
  refine ⟨husage, ?_⟩
  rw [check, husage]
  cases settings.aiEnabled with
  | false => simp
  | true =>
    simp only [Bool.true_eq_false, if_false, true_and]
    split
    · rename_i hfull
      exact iff_of_false (fun h => by cases h) (not_lt.mpr hfull)
    · rename_i hroom
      exact iff_of_true rfl (not_le.mp hroom)

/-- Two debits at once: the second total is written before the first, and Redis falls behind. -/
theorem usage_eq_racing : ∃ s, Reach step InMonth {} s ∧ s.redis.get? ("ada", 7) = some 3 ∧
    s.authoritativeUsage true "ada" 7 = (s.spent "ada" 7).creditsUsed ∧
      (check { aiCreditsFree := 4, aiCreditsEssential := 40, aiCreditsPro := 400 } s true {} "ada" 7 = .ok () ↔
        true ∧ (s.spent "ada" 7).creditsUsed < 4) := by
  have hrun : ((runIf step InMonth {} [.commit { userId := "ada", credits := 3 } 7, .read 0 7, .commit { userId := "ada", credits := 1 } 7,
      .read 1 7, .set 1 7, .set 0 7]).map fun s => s.redis.get? ("ada", 7)) = some (some 3) := by decide +kernel
  obtain ⟨s, hs, hredis⟩ := Option.map_eq_some_iff.mp hrun
  exact ⟨s, .of_runIf hs, hredis, usage_eq (.of_runIf hs) _ _⟩

end QuotaState

end Ai

end SignalSync
