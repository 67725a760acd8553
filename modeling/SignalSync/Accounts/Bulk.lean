import SignalSync.Accounts.Ingestion

/-!
# Deals in bulk and one by one

`bulk_upsert_closed_trades` writes five hundred rows a statement, and a statement that
would write a row twice is refused as a whole. `upsertOneByOne` writes each row with a
call of its own, which is what the bulk is to come to.

* `upsertOneByOne_eq`: one by one the rows are always written;
* `bulk_oneByOne_iff`: the bulk does the same iff no statement has an id twice.
-/

namespace SignalSync

open Library

namespace Accounts

/-- The counts and times of a second call after those of a first. -/
def UpsertResult.after (acc result : UpsertResult) : UpsertResult where
  trades := result.trades
  inserted := acc.inserted + result.inserted
  updated := acc.updated + result.updated
  affectedClosedAts := acc.affectedClosedAts ++ result.affectedClosedAts

/-- Each deal is written by itself, in the order of the list. -/
def upsertOneByOne (trades : Trades) (rows : List (String × Trade)) : Except CallError UpsertResult :=
  rows.foldlM (fun acc row => (bulkUpsertClosedTrades acc.trades [row]).map acc.after) { trades }

variable {acc : UpsertResult} {trades : Trades} {rows : List (String × Trade)} {row : String × Trade}

theorem upsertOne (acc : UpsertResult) (row : String × Trade) :
    (bulkUpsertClosedTrades acc.trades [row]).map acc.after = .ok (upsertRow acc row) := by
  have hone : bulkUpsertClosedTrades acc.trades [row] = .ok (upsertRow { trades := acc.trades } row) :=
    bulkUpsert_of_nodup acc.trades (List.nodup_singleton row.1)
  rw [hone]
  simp [Except.map, UpsertResult.after, upsertRow]

/-- One by one, the rows are written like those of a single statement, and none is refused. -/
theorem upsertOneByOne_eq (trades : Trades) (rows : List (String × Trade)) :
    upsertOneByOne trades rows = .ok (rows.foldl upsertRow { trades }) := by
  have hrows (acc : UpsertResult) : rows.foldlM (fun acc row => (bulkUpsertClosedTrades acc.trades [row]).map acc.after) acc =
      .ok (rows.foldl upsertRow acc) := by
    induction rows generalizing acc with
    | nil => rfl
    | cons row rows ih =>
      rw [List.foldlM_cons, upsertOne]
      exact ih (upsertRow acc row)
  exact hrows { trades }

/-- A statement with an id twice refuses the whole list. -/
theorem foldlM_upsertChunk_of_twice {parts : List (List (String × Trade))} {part : List (String × Trade)} (hmem : part ∈ parts)
    (htwice : ¬ (part.map Prod.fst).Nodup) (acc : UpsertResult) : ∃ e, parts.foldlM upsertChunk acc = .error e := by
  induction parts generalizing acc with
  | nil => cases hmem
  | cons first parts ih =>
    rw [List.foldlM_cons]
    by_cases hfirst : (first.map Prod.fst).Nodup
    · rcases List.mem_cons.mp hmem with rfl | hmem
      · exact absurd hfirst htwice
      · rw [upsertChunk, if_pos hfirst]
        exact ih hmem _
    · rw [upsertChunk, if_neg hfirst]
      exact ⟨_, rfl⟩

/-- The bulk succeeds, does what the deals do one by one, and counts each of them. -/
def BulkAgrees (trades : Trades) (rows : List (String × Trade)) : Prop :=
  ∃ result, bulkUpsertClosedTrades trades rows = .ok result ∧ upsertOneByOne trades rows = .ok result ∧
    result.inserted + result.updated = rows.length

/-- The bulk is the deals one by one iff no five hundred that go together have an id twice. -/
theorem bulk_oneByOne_iff (trades : Trades) (rows : List (String × Trade)) :
    BulkAgrees trades rows ↔ ∀ chunk ∈ chunks 500 rows, (chunk.map Prod.fst).Nodup := by
  constructor
  · rintro ⟨result, hbulk, -⟩ chunk hmem
    by_contra htwice
    obtain ⟨e, herror⟩ := foldlM_upsertChunk_of_twice hmem htwice { trades }
    rw [bulkUpsertClosedTrades, herror] at hbulk
    cases hbulk
  · intro h
    obtain ⟨result, hbulk⟩ := exists_foldlM_upsertChunk { trades } h
    have heq : result = rows.foldl upsertRow { trades } := bulkUpsert_eq_ok hbulk
    refine ⟨result, hbulk, by rw [upsertOneByOne_eq, heq], ?_⟩
    rw [heq, counts_foldl_upsertRow]
    exact Nat.zero_add _

/-- A ticket that is reported twice, first without its stop loss. -/
def reportedTwice : List (String × Trade) := [("7", unreportedTrade), ("7", { unreportedTrade with sl := some ⟨100000⟩ })]

theorem reportedTwice_refused : ¬ ∀ trades rows, BulkAgrees trades rows := by
  intro h
  obtain ⟨result, hbulk, -⟩ := h ∅ reportedTwice
  have hmem : reportedTwice ∈ chunks 500 reportedTwice := by simp [chunks, reportedTwice]
  have htwice : ¬ (reportedTwice.map Prod.fst).Nodup := by simp [reportedTwice]
  obtain ⟨e, herror⟩ := foldlM_upsertChunk_of_twice hmem htwice { trades := ∅ }
  rw [bulkUpsertClosedTrades, herror] at hbulk
  cases hbulk

end Accounts

end SignalSync
