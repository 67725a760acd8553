import SignalSync.Accounts.Ingestion
import SignalSync.Library.Run
import Mathlib.Data.List.Sort

/-!
# The cache of the AI tools

`tool_cache` keeps what a tool has computed under the tool's arguments and the version
counters of the accounts in `account_ids`, and a sync that changes trades raises its
account's counter once it has committed. The tool itself reads the accounts that
`enforce_account_scope` makes of `account_ids`, which need not be among them, and
neither an import nor a deletion raises a counter.

A result is never older than the trades it is about as long as each change to a named
account has raised its counter, and no account that is read without being named has
changed (`tool_cache_fresh`).
-/

namespace SignalSync

open Library Accounts

namespace Ai

/-! ## Tools -/

/-- A call of a tool: `account_ids`, the accounts of the server's `config`, and the other
keyword arguments. -/
structure ToolCall where
  toolName : String
  accountIds : List String
  scope : List String
  kwargs : List (String × String) := []
deriving DecidableEq

/-- Clamp model-supplied account ids to the turn's scope. -/
def enforceAccountScope (accountIds allowedIds : List String) : List String :=
  if allowedIds = [] then []
  else
    let clampedIds := accountIds.filter fun accountId => allowedIds.contains accountId
    if clampedIds = [] then allowedIds else clampedIds

/-- The accounts the tool reads. -/
def ToolCall.accountsRead (call : ToolCall) : List String := enforceAccountScope call.accountIds call.scope

/-- What is read is the rows of trades with an id among those of the accounts. -/
def rowsOf (trades : String → Trades) (accountIds : List String) (accountId : String) : Trades :=
  if accountId ∈ accountIds then trades accountId else ∅

/-- What a tool makes of its name, the scope, its other arguments and the rows. -/
abbrev ToolBody := String → List String → List (String × String) → (String → Trades) → String

/-- The text that is hashed has its parts in this order; no part is lost in it. -/
structure ToolCacheKey where
  call : ToolCall
  versions : List Nat
deriving DecidableEq

def makeToolCacheKey (call : ToolCall) (versions : List Nat) : ToolCacheKey where
  call := { call with accountIds := call.accountIds.insertionSort (· ≤ ·) }
  versions := versions

/-! ## The cache and the writers of trades -/

/-- Accounts by their ids. A counter that is missing reads as 0.

* `bumps`: syncs that have committed a change and are to raise the counter;
* `unannounced`: accounts whose trades have changed, while the cache had a result that
  names them, since their counter was last raised;
* `unnoticed`: those whose trades have changed while the cache had a result that reads
  them without naming them. -/
structure CacheState where
  trades : String → Trades
  dataVersion : String → Nat := fun _ => 0
  cache : Table ToolCacheKey String := ∅
  bumps : List String := []
  unannounced : List String := []
  unnoticed : List String := []

/-- What Redis does in a call: whether the counters are read, the result is, and the new
one is stored. -/
structure CacheAccess where
  versionsRead : Bool := true
  cacheRead : Bool := true
  stored : Bool := true

/-- The arguments of an ingestion. -/
structure History where
  draw : String → Uuid
  now : Time
  localDate : Time → Int
  authoritative : Bool
  window : SyncWindow
  deals : List Mt5Deal

inductive CacheLabel
  /-- A sync commits, and a later `bump` of its account raises the counter, unless Redis
  is unavailable. -/
  | sync (accountId : String) (history : History)
  | bump (i : Nat) (available : Bool)
  | confirmImport (accountId : String) (rows : List (String × Trade))
  | delete (accountId : String)
  | expire (key : ToolCacheKey)
  | call (call : ToolCall) (redis : CacheAccess)

/-- `on_conflict_do_nothing`, and whether a row was inserted. -/
def upsertClosedTrade (trades : Trades) (row : String × Trade) : Trades × Bool :=
  (trades.add row.1 row.2, (trades.get? row.1).isNone)

/-- The trades of an import. -/
def importTrades (trades : Trades) (rows : List (String × Trade)) : Trades :=
  rows.foldl (fun trades row => (upsertClosedTrade trades row).1) trades

namespace CacheState

/-- What the tool computes on the trades as they are. -/
def runTool (body : ToolBody) (s : CacheState) (call : ToolCall) : String :=
  body call.toolName call.scope call.kwargs (rowsOf s.trades call.accountsRead)

def syncDataVersion (s : CacheState) (accountIds : List String) : List Nat := accountIds.map s.dataVersion

def key (s : CacheState) (call : ToolCall) : ToolCacheKey := makeToolCacheKey call (s.syncDataVersion call.accountIds)

/-- The wrapper of `tool_cache`. -/
def toolCache (body : ToolBody) (s : CacheState) (call : ToolCall) (redis : CacheAccess) : String × CacheState :=
  if !redis.versionsRead || !redis.cacheRead then (s.runTool body call, s)
  else match s.cache.get? (s.key call) with
  | some hit => (hit, s)
  | none =>
    (s.runTool body call, if redis.stored then { s with cache := s.cache.add (s.key call) (s.runTool body call) } else s)

/-- The cache has a result that names the account. -/
def named (s : CacheState) (accountId : String) : Bool := s.cache.entries.any fun e => e.1.call.accountIds.contains accountId

/-- The cache has a result that reads the account and does not name it. -/
def clamped (s : CacheState) (accountId : String) : Bool :=
  s.cache.entries.any fun e => e.1.call.accountsRead.contains accountId && !e.1.call.accountIds.contains accountId

/-- The trades of an account become `new`. -/
def change (s : CacheState) (accountId : String) (new : Trades) : CacheState :=
  if new.entries = (s.trades accountId).entries then s
  else
    { s with
      trades := Function.update s.trades accountId new
      unannounced := if s.named accountId then accountId :: s.unannounced else s.unannounced
      unnoticed := if s.clamped accountId then accountId :: s.unnoticed else s.unnoticed }

variable [Unicode] [Python]

def step (body : ToolBody) (s : CacheState) : CacheLabel → Option CacheState
  | .sync accountId history =>
    match ingestMt5CoreHistoryResult history.draw history.now history.localDate history.authoritative history.window
      (s.trades accountId) history.deals with
    | .error _ => some s
    | .ok ingested =>
      some { s.change accountId ingested.trades with
        bumps := if 0 < ingested.result.changedTrades then s.bumps ++ [accountId] else s.bumps }
  | .bump i available => s.bumps[i]?.map fun accountId =>
    if available then
      { s with
        dataVersion := Function.update s.dataVersion accountId (s.dataVersion accountId + 1)
        bumps := s.bumps.eraseIdx i
        unannounced := s.unannounced.filter (· ≠ accountId) }
    else { s with bumps := s.bumps.eraseIdx i }
  | .confirmImport accountId rows => some (s.change accountId (importTrades (s.trades accountId) rows))
  | .delete accountId => some (s.change accountId ∅)
  | .expire key => some { s with cache := s.cache.remove key }
  | .call call redis => some (s.toolCache body call redis).2

/-- Of the accounts that a call reads, each one that it names has had every change
announced, and no other has changed. That is sufficient only: a change may leave the call's
result as it was. -/
def Announced (s : CacheState) (call : ToolCall) : Prop :=
  ∀ a ∈ call.accountsRead, if a ∈ call.accountIds then a ∉ s.unannounced else a ∉ s.unnoticed

omit [Unicode] [Python] in
instance (s : CacheState) (call : ToolCall) : Decidable (s.Announced call) := by delta Announced; infer_instance

end CacheState

/-! ## Keys -/

section

variable {accountIds accountIds' allowedIds : List String} {a : String} {body : ToolBody} {s : CacheState} {call : ToolCall}

theorem mem_enforceAccountScope :
    a ∈ enforceAccountScope accountIds allowedIds ↔ a ∈ allowedIds ∧ (a ∈ accountIds ∨ ∀ b ∈ accountIds, b ∉ allowedIds) := by
  have hnil : (accountIds.filter fun accountId => allowedIds.contains accountId) = [] ↔ ∀ b ∈ accountIds, b ∉ allowedIds := by
    simp [List.filter_eq_nil_iff]
  by_cases hallowed : allowedIds = []
  · simp [enforceAccountScope, hallowed]
  rw [enforceAccountScope, if_neg hallowed]
  by_cases hscope : (accountIds.filter fun accountId => allowedIds.contains accountId) = []
  · simp only [hscope, if_true, iff_self_and]
    exact fun _ => .inr (hnil.mp hscope)
  · simp only [hscope, if_false, List.mem_filter, List.contains_iff_mem]
    rw [and_comm, or_iff_left (mt hnil.mpr hscope)]

/-- The order of `account_ids` makes no difference to what is read. -/
theorem mem_accountsRead_of_perm (h : accountIds.Perm call.accountIds) :
    a ∈ ({ call with accountIds } : ToolCall).accountsRead ↔ a ∈ call.accountsRead := by
  simp only [ToolCall.accountsRead, mem_enforceAccountScope, h.mem_iff]

theorem rowsOf_congr {trades trades' : String → Trades} (hmem : ∀ a, a ∈ accountIds ↔ a ∈ accountIds')
    (h : ∀ a ∈ accountIds', trades a = trades' a) : rowsOf trades accountIds = rowsOf trades' accountIds' := by
  funext a
  unfold rowsOf
  by_cases ha : a ∈ accountIds'
  · rw [if_pos ((hmem a).mpr ha), if_pos ha, h a ha]
  · rw [if_neg (mt (hmem a).mp ha), if_neg ha]

namespace CacheState

theorem runTool_of_perm (h : accountIds.Perm call.accountIds) : s.runTool body { call with accountIds } = s.runTool body call := by
  have hrows : rowsOf s.trades ({ call with accountIds } : ToolCall).accountsRead = rowsOf s.trades call.accountsRead :=
    rowsOf_congr (fun _ => mem_accountsRead_of_perm h) fun _ _ => rfl
  simp only [runTool, hrows]

theorem announced_of_perm (h : accountIds.Perm call.accountIds) : s.Announced { call with accountIds } ↔ s.Announced call := by
  simp only [Announced, mem_accountsRead_of_perm h, h.mem_iff]

end CacheState

/-! ## Freshness -/

/-- Counters that only increase and read the same, in some order, are the same. -/
theorem eq_of_perm_of_map_eq {α : Type} {l l' : List α} {f g : α → Nat} (hperm : l'.Perm l) (hle : ∀ a ∈ l, f a ≤ g a)
    (h : l'.map f = l.map g) : ∀ a ∈ l, f a = g a := by
  have hsum : (l.map f).sum = (l.map g).sum := by rw [← h, (hperm.map f).sum_eq]
  clear h hperm
  induction l with
  | nil => exact fun a ha => by cases ha
  | cons b l ih =>
    have hb : f b ≤ g b := hle b List.mem_cons_self
    have hrest : (l.map f).sum ≤ (l.map g).sum := List.sum_le_sum fun a ha => hle a (List.mem_cons_of_mem _ ha)
    rw [List.map_cons, List.sum_cons, List.map_cons, List.sum_cons] at hsum
    intro a ha
    rcases List.mem_cons.mp ha with rfl | ha
    · omega
    · exact ih (fun a ha => hle a (List.mem_cons_of_mem _ ha)) (by omega) a ha

namespace CacheState

/-- A result under a key is what the tool computes now, if the counters are still those
of the key and every change has been announced. -/
def Current (body : ToolBody) (s : CacheState) (key : ToolCacheKey) (result : String) : Prop :=
  ∃ (accountIds : List String) (versions : String → Nat), accountIds.Perm key.call.accountIds ∧
    key.versions = accountIds.map versions ∧ (∀ a ∈ accountIds, versions a ≤ s.dataVersion a) ∧
    ((∀ a ∈ accountIds, versions a = s.dataVersion a) → s.Announced key.call → result = s.runTool body key.call)

def Coherent (body : ToolBody) (s : CacheState) : Prop := ∀ key result, s.cache.get? key = some result → s.Current body key result

variable {t : CacheState} {key : ToolCacheKey} {result : String} {new : Trades} {redis : CacheAccess}

theorem Current.mono (h : s.Current body key result) (hle : ∀ a, s.dataVersion a ≤ t.dataVersion a)
    (hsame : (∀ a ∈ key.call.accountIds, s.dataVersion a = t.dataVersion a) → t.Announced key.call →
      s.Announced key.call ∧ s.runTool body key.call = t.runTool body key.call) : t.Current body key result := by
  obtain ⟨ids, versions, hperm, hkey, hv, hcur⟩ := h
  refine ⟨ids, versions, hperm, hkey, fun a ha => (hv a ha).trans (hle a), fun heq hann => ?_⟩
  have hold : ∀ a ∈ ids, versions a = s.dataVersion a := fun a ha => le_antisymm (hv a ha) ((hle a).trans (heq a ha).ge)
  obtain ⟨hann, hrun⟩ := hsame (fun a ha => by
    rw [← hold a (hperm.mem_iff.mpr ha), heq a (hperm.mem_iff.mpr ha)]) hann
  exact (hcur hold hann).trans hrun

theorem Announced.of_subset (h : t.Announced call) (hu : ∀ a ∈ call.accountIds, a ∈ s.unannounced → a ∈ t.unannounced)
    (hn : s.unnoticed ⊆ t.unnoticed) : s.Announced call := by
  intro a ha
  have hlisted := h a ha
  by_cases hid : a ∈ call.accountIds
  · rw [if_pos hid] at hlisted ⊢
    exact mt (hu a hid) hlisted
  · rw [if_neg hid] at hlisted ⊢
    exact mt (@hn a) hlisted

/-- A hit, where every change has been announced. -/
theorem Coherent.hit (h : s.Coherent body) (hhit : s.cache.get? (s.key call) = some result) (hann : s.Announced call) :
    result = s.runTool body call := by
  obtain ⟨ids, versions, hperm, hkey, hv, hcur⟩ := h _ _ hhit
  have hsorted : (call.accountIds.insertionSort (· ≤ ·)).Perm call.accountIds := List.perm_insertionSort _ _
  have hids : ids.Perm call.accountIds := hperm.trans hsorted
  have hversions : ∀ a ∈ call.accountIds, versions a = s.dataVersion a :=
    eq_of_perm_of_map_eq hids (fun a ha => hv a (hids.mem_iff.mpr ha)) hkey.symm
  rw [hcur (fun a ha => hversions a (hids.mem_iff.mp ha)) ((announced_of_perm hsorted).mpr hann)]
  exact runTool_of_perm hsorted

theorem Coherent.change (h : s.Coherent body) : (s.change a new).Coherent body := by
  unfold CacheState.change
  split
  · exact h
  intro key result hkey
  refine (h key result hkey).mono (fun _ => le_rfl) fun _ hann => ?_
  have hmem : (key, result) ∈ s.cache.entries := Table.get?_eq_some.1 hkey
  -- the account is not among those that are read, or the change is on one of the lists
  have hread : a ∉ key.call.accountsRead := fun hread => by
    have hlisted := hann a hread
    by_cases hid : a ∈ key.call.accountIds
    · have hnamed : s.named a = true := List.any_eq_true.mpr ⟨_, hmem, List.contains_iff_mem.mpr hid⟩
      simp [hid, hnamed] at hlisted
    · have hclamped : s.clamped a = true := List.any_eq_true.mpr ⟨_, hmem, by simp [hread, hid]⟩
      simp [hid, hclamped] at hlisted
  have hkeep {l : List String} {p : Bool} : l ⊆ if p then a :: l else l := by
    split
    · exact List.subset_cons_self a l
    · exact fun _ => id
  refine ⟨hann.of_subset (fun _ _ => @hkeep _ _ _) hkeep, ?_⟩
  have hrows : rowsOf s.trades key.call.accountsRead = rowsOf (Function.update s.trades a new) key.call.accountsRead := by
    refine rowsOf_congr (fun _ => Iff.rfl) fun b hb => ?_
    have hne : b ≠ a := fun he => hread (he ▸ hb)
    rw [Function.update_of_ne hne]
  simp only [runTool, hrows]

/-- A call adds at most a result that is computed in it. -/
theorem Coherent.toolCache (h : s.Coherent body) : (s.toolCache body call redis).2.Coherent body := by
  unfold CacheState.toolCache
  split
  · exact h
  split
  · exact h
  · rename_i hmiss
    dsimp only
    split
    · intro key result hkey
      rw [Table.get?_add] at hkey
      split at hkey
      · rename_i hk
        subst hk
        rw [hmiss, Option.none_or] at hkey
        cases hkey
        have hsorted : (call.accountIds.insertionSort (· ≤ ·)).Perm call.accountIds := List.perm_insertionSort _ _
        refine ⟨call.accountIds, s.dataVersion, hsorted.symm, rfl, fun _ _ => le_rfl, fun _ _ => ?_⟩
        exact (runTool_of_perm (s := s) hsorted).symm
      · exact h key result (by simpa using hkey)
    · exact h

variable [Unicode] [Python] {l : CacheLabel}

theorem Coherent.step (h : s.Coherent body) (hs : s.step body l = some t) : t.Coherent body := by
  cases l with
  | sync accountId history =>
    simp only [CacheState.step] at hs
    split at hs <;> cases hs
    · exact h
    · exact h.change
  | bump i available =>
    obtain ⟨accountId, -, ht⟩ := Option.map_eq_some_iff.mp hs
    split at ht <;> subst ht
    · intro key result hkey
      refine (h key result hkey).mono (fun a => ?_) fun heq hann => ?_
      · by_cases ha : a = accountId
        · subst ha
          simp
        · simp [ha]
      · -- a key that names the account has an older counter
        have hne : accountId ∉ key.call.accountIds := fun hid => by simpa using heq accountId hid
        refine ⟨hann.of_subset (fun b hid hb => ?_) fun _ => id, rfl⟩
        have hb' : b ≠ accountId := fun he => hne (he ▸ hid)
        exact List.mem_filter.mpr ⟨hb, by simpa using hb'⟩
    · exact h
  | confirmImport accountId rows =>
    cases hs
    exact h.change
  | delete accountId =>
    cases hs
    exact h.change
  | expire key =>
    cases hs
    intro key' result hkey
    rw [Table.get?_remove] at hkey
    split at hkey
    · cases hkey
    · exact h key' result hkey
  | call call redis =>
    cases hs
    exact h.toolCache

end CacheState

end

section

variable [Unicode] [Python] {body : ToolBody} {start s : CacheState} {call : ToolCall}

/-- Whatever has happened to the trades and in the cache, a call, or a hit of one, for
which every change has been announced is answered with what the tool computes now. -/
theorem tool_cache_fresh (hstart : start.cache = ∅) (h : Reach (CacheState.step body) always start s)
    (hann : (s.cache.get? (s.key call)).isSome → s.Announced call) (redis : CacheAccess) :
    (s.toolCache body call redis).1 = s.runTool body call := by
  have hcoherent : s.Coherent body :=
    h.invariant (fun _ _ hkey => by rw [hstart] at hkey; cases hkey) fun _ _ _ hc _ hs => hc.step hs
  unfold CacheState.toolCache
  split
  · rfl
  split
  · rename_i hit hhit
    exact hcoherent.hit hhit (hann (by rw [hhit]; rfl))
  · rfl

end

/-! ## Runs -/

/-- A tool that says whether there are trades. -/
def anyTrades : ToolBody := fun _ _ _ rows => if (rows "a").entries = [] then "No trades found." else "Trades found."

def named : ToolCall := { toolName := "find_trades", accountIds := ["a"], scope := ["a"] }

/-- A sync of the account that reports one trade. -/
def syncOfTrade : CacheLabel :=
  .sync "a" ⟨fun _ => 1, 0, fun _ => 0, true, {}, [reportedDeal]⟩

/-- An import of one trade. -/
def importOfTrade : CacheLabel := .confirmImport "a" [("8", unreportedTrade)]

def noTrades : CacheState where
  trades _ := ∅

/-- `tool_cache_fresh` after a sync that has raised the counter. -/
theorem tool_cache_fresh_synced :
    let _ := Unicode.ascii
    let _ := tallied
    ∃ s, Reach (CacheState.step anyTrades) always noTrades s ∧ (s.toolCache anyTrades named {}).1 = "Trades found." := by
  intro _ _
  have hrun : (run (CacheState.step anyTrades) noTrades [.call named {}, syncOfTrade, .bump 0 true, .call named {}]).map
      (fun s => decide (s.Announced named ∧ s.runTool anyTrades named = "Trades found.")) = some true := by decide +kernel
  obtain ⟨s, hs, hrun⟩ := Option.map_eq_some_iff.mp hrun
  obtain ⟨hann, htool⟩ := of_decide_eq_true hrun
  have hreach : Reach (CacheState.step anyTrades) always noTrades s := .of_run hs
  exact ⟨s, hreach, (tool_cache_fresh rfl hreach (fun _ => hann) {}).trans htool⟩

/-- An import raises no counter. -/
theorem import_served_stale :
    let _ := Unicode.ascii
    let _ := tallied
    ∃ s, Reach (CacheState.step anyTrades) always noTrades s ∧ (s.toolCache anyTrades named {}).1 ≠ s.runTool anyTrades named := by
  intro _ _
  have hrun : (run (CacheState.step anyTrades) noTrades [.call named {}, importOfTrade]).map
      (fun s => decide ((s.toolCache anyTrades named {}).1 ≠ s.runTool anyTrades named)) = some true := by decide +kernel
  obtain ⟨s, hs, hrun⟩ := Option.map_eq_some_iff.mp hrun
  exact ⟨s, .of_run hs, of_decide_eq_true hrun⟩

end Ai

end SignalSync
