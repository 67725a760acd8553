import SignalSync.Accounts.Account
import SignalSync.Library.Json
import SignalSync.Library.Text
import SignalSync.Library.Upsert
import Mathlib.Data.List.Infix

/-!
# The ingestion of a broker's history

`ingest_mt5_core_history_result` first deletes the trades of the window that the history
does not have, then writes the history's deals over what is stored, in chunks, and last
counts. With distinct tickets this is `Table.replaceWithin`, whatever trades move across
the window's bounds (`ingest_eq`): the trades of the window are then those reported, the
others stay, and the same history changes nothing any more
(`authoritative_ingestion_converges`).
-/

namespace SignalSync

open Library

namespace Accounts

/-! ## Trades -/

inductive TradeDirection
  | buy | sell
deriving DecidableEq, Repr

inductive TradeSession
  | asian | london | new_york | london_ny_overlap | off_hours
deriving DecidableEq, Repr

inductive TradeSource
  | personal | copied
deriving DecidableEq, Repr

/-- A row of an account's trades; its key is the broker's id. -/
structure Trade where
  id : Uuid
  symbol : String
  direction : TradeDirection
  openPrice : Numeric 5
  closePrice : Numeric 5
  volume : Numeric 2
  profit : Numeric 2
  commission : Numeric 2
  swap : Numeric 2
  netProfit : Numeric 2
  durationSeconds : Nat
  session : TradeSession
  openedAt : Time
  closedAt : Time
  sl : Option (Numeric 5) := none
  tp : Option (Numeric 5) := none
  magicNumber : Option Int := none
  positionId : Option String := none
  tradeSource : Option TradeSource := none
  mfe : Option (Numeric 5) := none
  mae : Option (Numeric 5) := none
  setup : Option String := none
  createdAt : Time
deriving DecidableEq

/-- The trades of one account. -/
abbrev Trades := Table String Trade

/-- `on_conflict_do_update`: enrichment that is not reported stays. -/
def Trade.update (stored new : Trade) : Trade :=
  { stored with
    symbol := new.symbol, direction := new.direction, openPrice := new.openPrice, closePrice := new.closePrice
    volume := new.volume, profit := new.profit, commission := new.commission, swap := new.swap
    netProfit := new.netProfit, durationSeconds := new.durationSeconds, session := new.session
    openedAt := new.openedAt, closedAt := new.closedAt
    sl := new.sl.or stored.sl, tp := new.tp.or stored.tp, magicNumber := new.magicNumber.or stored.magicNumber
    positionId := new.positionId.or stored.positionId, tradeSource := new.tradeSource.or stored.tradeSource
    mfe := new.mfe.or stored.mfe, mae := new.mae.or stored.mae }

structure UpsertResult where
  trades : Trades
  inserted : Nat := 0
  updated : Nat := 0
  affectedClosedAts : List Time := []

def upsertRow (acc : UpsertResult) (row : String × Trade) : UpsertResult where
  trades := acc.trades.upsert Trade.update row
  inserted := acc.inserted + if (acc.trades.get? row.1).isNone then 1 else 0
  updated := acc.updated + if (acc.trades.get? row.1).isSome then 1 else 0
  affectedClosedAts := acc.affectedClosedAts ++ [row.2.closedAt]

/-- One statement of `bulk_upsert_closed_trades`; it cannot write a row twice. The columns
have room for what a broker reports. -/
def upsertChunk (acc : UpsertResult) (chunk : List (String × Trade)) : Except CallError UpsertResult :=
  if (chunk.map Prod.fst).Nodup then .ok (chunk.foldl upsertRow acc) else .error (.other "CardinalityViolation")

def bulkUpsertClosedTrades (trades : Trades) (rows : List (String × Trade)) : Except CallError UpsertResult :=
  (chunks 500 rows).foldlM upsertChunk { trades }

/-- The half-open window of `closed_at`; a missing bound is none. -/
structure SyncWindow where
  closedFromUtc : Option Time := none
  closedToUtcExclusive : Option Time := none

def SyncWindow.contains (window : SyncWindow) (trade : Trade) : Bool :=
  window.closedFromUtc.all (· ≤ trade.closedAt) && window.closedToUtcExclusive.all (trade.closedAt < ·)

/-- What `delete_trades_outside_valid_broker_ids_in_window` deletes. -/
def deletedInWindow (window : SyncWindow) (validBrokerTradeIds : List String) (brokerTradeId : String) (trade : Trade) : Bool :=
  window.contains trade && (validBrokerTradeIds.isEmpty || !validBrokerTradeIds.contains brokerTradeId)

/-! ## Deals -/

/-- A deal of the history, its numbers by their values; a ticket is written out as text,
and a missing one is empty. -/
structure Mt5Deal where
  ticket : String
  symbol : Option String := none
  direction : Option String := none
  priceIn : Option ℚ := none
  priceOut : Option ℚ := none
  price : Option ℚ := none
  volume : Option ℚ := none
  grossProfit : Option ℚ := none
  profit : Option ℚ := none
  commission : Option ℚ := none
  swap : Option ℚ := none
  timeSetup : Option String := none
  openedAt : Option String := none
  timeClosed : Option String := none
  closedAt : Option String := none
  positionId : Option String := none
  sl : Option ℚ := none
  tp : Option ℚ := none
  magicNumber : Option Int := none
  tradeSource : Option String := none
  mfe : Option ℚ := none
  mae : Option ℚ := none

/-- `a or b`, of numbers. -/
def orNumber (a b : Option ℚ) : Option ℚ := (a.filter (· ≠ 0)).or b

/-- `a or b`, of text. -/
def orText (a b : Option String) : Option String := (a.filter (· ≠ "")).or b

def classifySession (openedAtUtc : Time) : TradeSession :=
  let hour := openedAtUtc / seconds 3600 % 24
  if 13 ≤ hour && hour < 16 then .london_ny_overlap
  else if 16 ≤ hour && hour < 21 then .new_york
  else if 8 ≤ hour && hour < 16 then .london
  else if hour < 8 then .asian
  else .off_hours

section

variable [Unicode] [Python]

/-- `_pick_timestamp`; text without an offset is read as UTC. -/
def pickTimestamp (value : Option String) : Option Time :=
  (value.filter (· ≠ "")).bind fun text => Python.fromIsoFormat (text.replace "Z" "+00:00")

namespace Mt5Deal

variable (deal : Mt5Deal)

def brokerTradeId : String := Unicode.strip deal.ticket

def openedRaw : Option Time := pickTimestamp (orText deal.timeSetup deal.openedAt)

def closedRaw : Option Time := pickTimestamp (orText deal.timeClosed deal.closedAt)

/-- The row of a deal that is traded between the two times: `ingest_mt5_deals`, and the
loop of `ingest_closed_deals` for what it maps the deal to. -/
def trade (id : Uuid) (now openedAtUtc closedAtUtc : Time) : Trade :=
  let direction := Unicode.lower ((deal.direction.filter (· ≠ "")).getD "buy")
  let closePrice := (orNumber deal.priceOut deal.price).getD 0
  let openPrice := deal.priceIn.getD 0
  let profit := (orNumber deal.grossProfit deal.profit).getD 0
  let commission := deal.commission.getD 0
  let swap := deal.swap.getD 0
  let symbol := Unicode.strip ((deal.symbol.filter (· ≠ "")).getD "UNKNOWN")
  { id
    symbol := if symbol = "" then "UNKNOWN" else symbol
    direction := if "sell".toList <:+: (Unicode.lower direction).toList then .sell else .buy
    openPrice := .ofRat 5 (if openPrice = 0 then closePrice else openPrice)
    closePrice := .ofRat 5 closePrice
    volume := .ofRat 2 (deal.volume.getD 0)
    profit := .ofRat 2 profit
    commission := .ofRat 2 commission
    swap := .ofRat 2 swap
    netProfit := .ofRat 2 (profit + commission + swap)
    durationSeconds := (closedAtUtc - openedAtUtc) / seconds 1
    session := classifySession openedAtUtc
    openedAt := openedAtUtc
    closedAt := closedAtUtc
    sl := deal.sl.map (.ofRat 5)
    tp := deal.tp.map (.ofRat 5)
    magicNumber := deal.magicNumber
    positionId := deal.positionId.filter (· ≠ "")
    tradeSource :=
      if deal.tradeSource = some "personal" then some .personal
      else if deal.tradeSource = some "copied" then some .copied
      else none
    mfe := deal.mfe.map (.ofRat 5)
    mae := deal.mae.map (.ofRat 5)
    createdAt := now }

/-- The row of a deal, unless the deal is skipped. -/
def row (draw : String → Uuid) (now : Time) : Option (String × Trade) :=
  if deal.brokerTradeId = "" then none
  else match deal.closedRaw with
  | none => none
  | some closedAtUtc => deal.openedRaw.map fun openedAtUtc =>
      (deal.brokerTradeId, deal.trade (draw deal.brokerTradeId) now openedAtUtc closedAtUtc)

end Mt5Deal

/-! ## The ingestion -/

structure Ingested where
  trades : Trades
  result : SyncResult

/-- `ingest_mt5_core_history_result`, as far as it is about trades. Rows take the ids that
are drawn for them, and `localDate` is the account's calendar. -/
def ingestMt5CoreHistoryResult (draw : String → Uuid) (now : Time) (localDate : Time → Int) (authoritative : Bool)
    (window : SyncWindow) (trades : Trades) (deals : List Mt5Deal) : Except CallError Ingested :=
  let validBrokerTradeIds := (deals.map (·.brokerTradeId)).filter (· ≠ "")
  let deleted := if authoritative && !validBrokerTradeIds.isEmpty then deletedInWindow window validBrokerTradeIds else fun _ _ => false
  let deletedRows := trades.select deleted
  (bulkUpsertClosedTrades (trades.filter fun id trade => !deleted id trade) (deals.filterMap (·.row draw now))).map fun upserted =>
    { trades := upserted.trades
      result :=
        { insertedTrades := upserted.inserted
          updatedTrades := upserted.updated
          deletedTrades := deletedRows.length
          touchedTradingDates :=
            ((deletedRows.map fun row => localDate row.2.closedAt) ++ upserted.affectedClosedAts.map localDate).dedup.length } }

end

/-! ## What is written -/

section

variable {acc acc' : UpsertResult} {trades : Trades} {rows : List (String × Trade)}

theorem trades_foldl_upsertRow : (rows.foldl upsertRow acc).trades = acc.trades.upsertAll Trade.update rows := by
  induction rows generalizing acc with
  | nil => rfl
  | cons row rows ih => exact ih

/-- Every row is inserted or updated. -/
theorem counts_foldl_upsertRow : (rows.foldl upsertRow acc).inserted + (rows.foldl upsertRow acc).updated =
    acc.inserted + acc.updated + rows.length := by
  induction rows generalizing acc with
  | nil => rfl
  | cons row rows ih =>
    rw [List.foldl_cons, ih, List.length_cons]
    cases hrow : acc.trades.get? row.1 <;> simp [upsertRow, hrow] <;> omega

/-- Rows under ids that are stored already. -/
theorem inserted_foldl_upsertRow (h : ∀ row ∈ rows, (acc.trades.get? row.1).isSome) : (rows.foldl upsertRow acc).inserted = acc.inserted := by
  induction rows generalizing acc with
  | nil => rfl
  | cons row rows ih =>
    have hrow : (acc.trades.get? row.1).isSome := h row List.mem_cons_self
    rw [List.foldl_cons, ih]
    · simp [upsertRow, Option.isNone_iff_eq_none, Option.isSome_iff_ne_none.mp hrow]
    · intro row' hmem
      show ((acc.trades.upsert Trade.update row).get? row'.1).isSome
      rw [Table.get?_upsert]
      split
      · rfl
      · exact h row' (List.mem_cons_of_mem _ hmem)

/-- Chunks make no difference to what is written. -/
theorem foldlM_upsertChunk {parts : List (List (String × Trade))} (h : parts.foldlM upsertChunk acc = .ok acc') :
    acc' = parts.flatten.foldl upsertRow acc := by
  induction parts generalizing acc with
  | nil =>
    cases h
    rfl
  | cons part parts ih =>
    rw [List.foldlM_cons] at h
    unfold upsertChunk at h
    split at h
    · rw [List.flatten_cons, List.foldl_append]
      exact ih h
    · cases h

theorem bulkUpsert_eq_ok (h : bulkUpsertClosedTrades trades rows = .ok acc) : acc = rows.foldl upsertRow { trades } := by
  rw [foldlM_upsertChunk h, flatten_chunks (by decide)]

theorem exists_foldlM_upsertChunk (acc : UpsertResult) {parts : List (List (String × Trade))} (h : ∀ part ∈ parts, (part.map Prod.fst).Nodup) :
    ∃ acc', parts.foldlM upsertChunk acc = .ok acc' := by
  induction parts generalizing acc with
  | nil => exact ⟨acc, rfl⟩
  | cons part parts ih =>
    obtain ⟨acc', hacc⟩ := ih (part.foldl upsertRow acc) fun part hmem => h part (List.mem_cons_of_mem _ hmem)
    refine ⟨acc', ?_⟩
    rw [List.foldlM_cons, upsertChunk, if_pos (h part List.mem_cons_self)]
    exact hacc

/-- Rows under distinct ids are written without an error. -/
theorem bulkUpsert_of_nodup (trades : Trades) (h : (rows.map Prod.fst).Nodup) : bulkUpsertClosedTrades trades rows = .ok (rows.foldl upsertRow { trades }) := by
  have hparts : ∀ part ∈ chunks 500 rows, (part.map Prod.fst).Nodup := fun part hpart =>
    h.sublist ((sublist_of_mem_chunks hpart).map _)
  obtain ⟨acc, hacc⟩ := exists_foldlM_upsertChunk { trades } hparts
  have hok : bulkUpsertClosedTrades trades rows = .ok acc := hacc
  rw [hok, bulkUpsert_eq_ok hok]

theorem or_or_self {α : Type} (a b : Option α) : a.or (a.or b) = a.or b := by
  cases a <;> rfl

theorem closedAt_merged {stored : Option Trade} {new : Trade} : (Table.merged Trade.update stored new).closedAt = new.closedAt := by
  cases stored <;> rfl

end

section

variable [Unicode] [Python] {draw draw' : String → Uuid} {now now' : Time} {localDate : Time → Int} {window : SyncWindow}
  {trades : Trades} {deals : List Mt5Deal} {deal : Mt5Deal}

omit [Python] in
/-- A deal that is written again, under another id and at another time, adds nothing. -/
theorem update_trade_again {stored : Option Trade} {id id' : Uuid} {opened closed : Time} :
    (Table.merged Trade.update stored (deal.trade id now opened closed)).update (deal.trade id' now' opened closed) =
      Table.merged Trade.update stored (deal.trade id now opened closed) := by
  cases stored <;> simp [Table.merged, Trade.update, Mt5Deal.trade, or_or_self]

/-! ## An authoritative history -/

/-- The history has deals, with distinct tickets, and each has a ticket and both times. -/
structure WellFormed (deals : List Mt5Deal) : Prop where
  nonempty : deals ≠ []
  distinct : (deals.map (·.brokerTradeId)).Nodup
  tickets : ∀ deal ∈ deals, deal.brokerTradeId ≠ ""
  timestamps : ∀ deal ∈ deals, deal.openedRaw.isSome ∧ deal.closedRaw.isSome

theorem row_eq_some {id : String} {new : Trade} (h : deal.row draw now = some (id, new)) :
    id = deal.brokerTradeId ∧ ∃ opened closed, deal.openedRaw = some opened ∧ deal.closedRaw = some closed ∧
      new = deal.trade (draw id) now opened closed := by
  unfold Mt5Deal.row at h
  split_ifs at h
  split at h
  · cases h
  · rename_i closed hclosed
    obtain ⟨opened, hopened, h⟩ := Option.map_eq_some_iff.mp h
    cases h
    exact ⟨rfl, opened, closed, hopened, hclosed, rfl⟩

theorem WellFormed.exists_row (h : WellFormed deals) (hmem : deal ∈ deals) (draw : String → Uuid) (now : Time) :
    ∃ new, deal.row draw now = some (deal.brokerTradeId, new) := by
  obtain ⟨hopened, hclosed⟩ := h.timestamps deal hmem
  obtain ⟨opened, hopened⟩ := Option.isSome_iff_exists.mp hopened
  obtain ⟨closed, hclosed⟩ := Option.isSome_iff_exists.mp hclosed
  exact ⟨_, by rw [Mt5Deal.row, if_neg (h.tickets deal hmem), hclosed, hopened]; rfl⟩

theorem WellFormed.rows_fst (h : WellFormed deals) (draw : String → Uuid) (now : Time) :
    (deals.filterMap (·.row draw now)).map Prod.fst = deals.map (·.brokerTradeId) := by
  rw [List.map_filterMap, ← List.filterMap_eq_map]
  refine List.filterMap_congr fun deal hmem => ?_
  obtain ⟨new, hrow⟩ := h.exists_row hmem draw now
  rw [hrow]
  rfl

variable (draw now localDate window trades) in
/-- The window's part of the trades is replaced by the history. -/
theorem WellFormed.ingest_eq (h : WellFormed deals) : ∃ result,
    ingestMt5CoreHistoryResult draw now localDate true window trades deals =
      .ok ⟨trades.replaceWithin Trade.update window.contains (deals.filterMap (·.row draw now)), result⟩ ∧
    result.insertedTrades = ((deals.filterMap (·.row draw now)).foldl upsertRow
      { trades := trades.filter fun id trade => !Table.outdated window.contains (deals.filterMap (·.row draw now)) id trade }).inserted ∧
    result.deletedTrades = (trades.select (Table.outdated window.contains (deals.filterMap (·.row draw now)))).length := by
  have hfst := h.rows_fst draw now
  have hvalid : (deals.map (·.brokerTradeId)).filter (· ≠ "") = deals.map (·.brokerTradeId) :=
    List.filter_eq_self.2 fun id hid => by
      obtain ⟨deal, hmem, rfl⟩ := List.mem_map.mp hid
      simpa using h.tickets deal hmem
  have hsome : (deals.map (·.brokerTradeId)).isEmpty = false := by
    simpa using h.nonempty
  have hdeleted : deletedInWindow window (deals.map (·.brokerTradeId)) =
      Table.outdated window.contains (deals.filterMap (·.row draw now)) := by
    funext id trade
    rw [deletedInWindow, Table.outdated, hsome, hfst, Bool.false_or]
  have hbulk := bulkUpsert_of_nodup
    (trades.filter fun id trade => !Table.outdated window.contains (deals.filterMap (·.row draw now)) id trade) (hfst ▸ h.distinct)
  simp only [ingestMt5CoreHistoryResult, hvalid, hsome, hdeleted, Bool.not_false, Bool.and_self, if_true, hbulk,
    Except.map, trades_foldl_upsertRow]
  exact ⟨_, rfl, rfl, rfl⟩

/-- After the history: inside the window there are the reported trades closed in it, each
merged with what was stored under its id; trades of other ids are there iff they were
and are outside. -/
structure Replaced (draw : String → Uuid) (now : Time) (window : SyncWindow) (deals : List Mt5Deal) (before after : Trades) : Prop where
  inside : ∀ id stored, after.get? id = some stored ∧ window.contains stored ↔
    ∃ deal ∈ deals, ∃ new, deal.row draw now = some (id, new) ∧ window.contains new ∧
      stored = Table.merged Trade.update (before.get? id) new
  others : ∀ id ∉ deals.map (·.brokerTradeId), ∀ stored, after.get? id = some stored ↔
    before.get? id = some stored ∧ window.contains stored = false

omit [Unicode] [Python] in
theorem contains_merged {stored : Option Trade} {new : Trade} : window.contains (Table.merged Trade.update stored new) = window.contains new := by
  rw [SyncWindow.contains, SyncWindow.contains, closedAt_merged]

theorem WellFormed.replaced (h : WellFormed deals) :
    Replaced draw now window deals trades
      (trades.replaceWithin Trade.update window.contains (deals.filterMap (·.row draw now))) := by
  have hfst := h.rows_fst draw now
  have hothers (id : String) (hid : id ∉ deals.map (·.brokerTradeId)) (stored : Trade) :
      (trades.replaceWithin Trade.update window.contains (deals.filterMap (·.row draw now))).get? id = some stored ↔
        trades.get? id = some stored ∧ window.contains stored = false := by
    rw [Table.get?_replaceWithin_of_not_mem (hfst ▸ hid), Option.filter_eq_some_iff, Bool.not_eq_true']
  have hreported {deal : Mt5Deal} {id : String} {new : Trade} (hmem : deal ∈ deals) (hrow : deal.row draw now = some (id, new)) :
      (trades.replaceWithin Trade.update window.contains (deals.filterMap (·.row draw now))).get? id =
        some (Table.merged Trade.update (trades.get? id) new) :=
    Table.get?_replaceWithin_of_mem (hfst ▸ h.distinct) (List.mem_filterMap.mpr ⟨deal, hmem, hrow⟩)
  refine ⟨fun id stored => ⟨fun ⟨hstored, hin⟩ => ?_, fun ⟨deal, hmem, new, hrow, hin, hstored⟩ => ?_⟩, hothers⟩
  · by_cases hid : id ∈ deals.map (·.brokerTradeId)
    · obtain ⟨deal, hmem, rfl⟩ := List.mem_map.mp hid
      obtain ⟨new, hrow⟩ := h.exists_row hmem draw now
      cases (hreported hmem hrow).symm.trans hstored
      exact ⟨deal, hmem, new, hrow, contains_merged.symm.trans hin, rfl⟩
    · rw [((hothers id hid stored).mp hstored).2] at hin
      cases hin
  · subst hstored
    exact ⟨hreported hmem hrow, contains_merged.trans hin⟩

/-- The history once more, at another time. -/
theorem WellFormed.ingest_again (h : WellFormed deals) {after : Trades}
    (hafter : after = trades.replaceWithin Trade.update window.contains (deals.filterMap (·.row draw now))) :
    ∃ again, ingestMt5CoreHistoryResult draw' now' localDate true window after deals = .ok again ∧
      again.trades = after ∧ again.result.insertedTrades = 0 ∧ again.result.deletedTrades = 0 := by
  have hreplaced : Replaced draw now window deals trades after := hafter ▸ h.replaced
  have hfst := h.rows_fst draw' now'
  have hcurrent : ∀ id stored, after.get? id = some stored → window.contains stored →
      id ∈ (deals.filterMap (·.row draw' now')).map Prod.fst := by
    intro id stored hstored hin
    obtain ⟨deal, hmem, new, hrow, -⟩ := (hreplaced.inside id stored).mp ⟨hstored, hin⟩
    rw [hfst, (row_eq_some hrow).1]
    exact List.mem_map_of_mem hmem
  have hsame : ∀ row ∈ deals.filterMap (·.row draw' now'), ∃ old, after.get? row.1 = some old ∧ old.update row.2 = old := by
    rintro ⟨id, new'⟩ hmem
    obtain ⟨deal, hdeal, hrow'⟩ := List.mem_filterMap.mp hmem
    obtain ⟨rfl, opened, closed, hopened, hclosed, rfl⟩ := row_eq_some hrow'
    obtain ⟨new, hrow⟩ := h.exists_row hdeal draw now
    obtain ⟨-, opened', closed', hopened', hclosed', rfl⟩ := row_eq_some hrow
    cases hopened.symm.trans hopened'
    cases hclosed.symm.trans hclosed'
    have hstored : after.get? deal.brokerTradeId =
        some (Table.merged Trade.update (trades.get? deal.brokerTradeId) (deal.trade (draw deal.brokerTradeId) now opened closed)) := by
      rw [hafter]
      exact Table.get?_replaceWithin_of_mem (h.rows_fst draw now ▸ h.distinct) (List.mem_filterMap.mpr ⟨deal, hdeal, hrow⟩)
    exact ⟨_, hstored, update_trade_again⟩
  obtain ⟨result, hok, hinserted, hdeleted⟩ := h.ingest_eq draw' now' localDate window after
  refine ⟨_, hok, Table.replaceWithin_eq_self hcurrent hsame, ?_, ?_⟩
  · rw [hinserted, inserted_foldl_upsertRow]
    rintro row hmem
    obtain ⟨old, hold, -⟩ := hsame row hmem
    rw [Table.filter_outdated_eq_self hcurrent, hold]
    rfl
  · rw [hdeleted, List.length_eq_zero_iff, List.eq_nil_iff_forall_not_mem]
    rintro ⟨id, stored⟩ hmem
    obtain ⟨hstored, hout⟩ := Table.mem_select.1 hmem
    simp only [Table.outdated, Bool.and_eq_true, Bool.not_eq_true', List.contains_eq_mem, decide_eq_false_iff_not] at hout
    exact hout.2 (hcurrent id stored hstored hout.1)

/-- An authoritative history makes the window's trades those that it reports, leaves the
others, and once more changes nothing. -/
theorem authoritative_ingestion_converges (h : WellFormed deals) (draw : String → Uuid) (now : Time) (localDate : Time → Int)
    (window : SyncWindow) (trades : Trades) :
    ∃ after, ingestMt5CoreHistoryResult draw now localDate true window trades deals = .ok after ∧
      Replaced draw now window deals trades after.trades ∧
      ∀ draw' now', ∃ again, ingestMt5CoreHistoryResult draw' now' localDate true window after.trades deals = .ok again ∧
        again.trades = after.trades ∧ again.result.insertedTrades = 0 ∧ again.result.deletedTrades = 0 := by
  obtain ⟨result, hok, -⟩ := h.ingest_eq draw now localDate window trades
  exact ⟨_, hok, h.replaced, fun draw' now' => h.ingest_again rfl⟩

end

section

/-- Timestamps that are the number of seconds, in unary. -/
@[reducible] def tallied : Python := ⟨fun _ => "", fun text => some (seconds text.length)⟩

def reportedDeal : Mt5Deal where
  ticket := " 7 "
  symbol := some "EURUSD"
  direction := some "SELL"
  volume := some 1
  openedAt := some "|"
  closedAt := some "||"

/-- Stored, and not in the history. -/
def unreportedTrade : Trade :=
  let _ := Unicode.ascii
  reportedDeal.trade 0 0 (seconds 1) (seconds 3)

/-- `authoritative_ingestion_converges`, where the history has one of two trades. -/
theorem authoritative_ingestion_converges_reportedDeal :
    let _ := Unicode.ascii
    let _ := tallied
    ∃ after, ingestMt5CoreHistoryResult (fun _ => 1) 0 (fun _ => 0) true {} (Table.add ∅ "8" unreportedTrade) [reportedDeal] = .ok after ∧
      after.trades.get? "8" = none ∧ (after.trades.get? "7").isSome ∧
      ∃ again, ingestMt5CoreHistoryResult (fun _ => 2) 1 (fun _ => 0) true {} after.trades [reportedDeal] = .ok again ∧
        again.trades = after.trades := by
  intro _ _
  have h : WellFormed [reportedDeal] :=
    ⟨by decide, by decide +kernel, by decide +kernel, by decide +kernel⟩
  obtain ⟨after, hok, hreplaced, hagain⟩ :=
    authoritative_ingestion_converges h (fun _ => 1) 0 (fun _ => 0) {} (Table.add ∅ "8" unreportedTrade)
  obtain ⟨again, hok', hsame, -⟩ := hagain (fun _ => 2) 1
  refine ⟨after, hok, ?_, ?_, again, hok', hsame⟩
  · refine Option.eq_none_iff_forall_ne_some.mpr fun stored hstored => ?_
    cases ((hreplaced.others "8" (by decide +kernel) stored).mp hstored).2
  · obtain ⟨new, hrow⟩ := h.exists_row List.mem_cons_self (fun _ => 1) 0
    obtain ⟨hstored, -⟩ := (hreplaced.inside "7" _).mpr ⟨reportedDeal, List.mem_cons_self, new, hrow, rfl, rfl⟩
    exact Option.isSome_of_mem hstored

end

end Accounts

end SignalSync
