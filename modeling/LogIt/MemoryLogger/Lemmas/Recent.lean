import Mathlib.Data.List.Nodup
import LogIt.Mdbx.Lemmas.Reader
import LogIt.MemoryLogger.Lemmas.Readers

/-!
This module contains `read_recent` of the `MdbxLogger` and compares it with the one of the
`MemoryLogger`.
-/

namespace LogIt

open List

open MemoryLogger (BufferedLogEntry Logger LogReadOrder)

namespace MdbxLogger

def readRecentResult (tables : Tables) (fault : Option ReadThrown) (limit : Nat) (periodMs : Int64)
    (order : LogReadOrder) (nowMs : Int64) : LogReadResult (List LogRecordSnapshot) :=
  let fromMs := if 0 < periodMs then nowMs - periodMs else 0
  let result := readRangeResult tables fault fromMs (nowMs + 1) 0
  match result.value with
  | none => result
  | some value =>
    let value := if 0 < limit ∧ limit < value.length then value.drop (value.length - limit) else value
    { result with
      value := some (if order = .descending ∧ value ≠ [] then value.reverse else value) }

def LogRecordSnapshot.entry (snapshot : LogRecordSnapshot) : BufferedLogEntry where
  level := snapshot.level
  timestampMs := snapshot.timestampMs
  file := snapshot.file
  line := snapshot.line
  function := snapshot.function
  message := snapshot.message

def Database.history (db : Database) : List BufferedLogEntry :=
  db.stored.map (fun record => (toLogRecordSnapshot record).entry)

end MdbxLogger

open MdbxLogger

namespace MemoryLogger

/--
The last `limit` entries of a list in the order of their time.
-/
def latest {α : Type} (limit : Nat) (order : LogReadOrder) (entries : List α) : List α :=
  let last := if limit = 0 then entries else entries.drop (entries.length - limit)
  match order with
  | .ascending => last
  | .descending => last.reverse

theorem map_latest {α β : Type} (f : α → β) (limit : Nat) (order : LogReadOrder) (entries : List α)
    : (latest limit order entries).map f = latest limit order (entries.map f) := by
  unfold latest
  cases order <;> by_cases hlimit : limit = 0 <;> simp [hlimit]

theorem latest_inj {α : Type} {entries entries' : List α}
    : (∀ limit order, latest limit order entries = latest limit order entries') ↔
        entries = entries' := by
  constructor
  . intro h
    exact h 0 .ascending
  . intro h limit order
    rw [h]

theorem readRecentResult_eq {tables : Tables} (h : tables.RecordsStored) (limit : Nat)
    (order : LogReadOrder) (nowMs : Int64)
    : (readRecentResult tables none limit 0 order nowMs).value =
        some (latest limit order (readRange tables 0 (nowMs + 1) 0)) := by
  unfold readRecentResult latest
  dsimp only
  rw [h.readRangeResult_eq, if_neg (by decide)]
  generalize readRange tables 0 (nowMs + 1) 0 = found
  have hcut : (if 0 < limit ∧ limit < found.length then found.drop (found.length - limit) else found)
      = if limit = 0 then found else found.drop (found.length - limit) := by
    split_ifs
    . omega
    . rfl
    . rfl
    . rw [Nat.sub_eq_zero_of_le (by omega), drop_zero]
  dsimp only [LogReadResult.ok]
  rw [hcut]
  generalize (if limit = 0 then found else found.drop (found.length - limit)) = last
  cases order with
  | ascending => simp
  | descending => cases last <;> simp

theorem perm_history {db : Database} (h : InOrder db.store db.stored) (hlt : fromMs < toMs)
    : ((db.store.tables.records.range (makeMdbxRecordKey fromMs 0)
        (makeMdbxRecordKey (toMs - 1) maxSequence)).map
          (fun entry => (toLogRecordSnapshot entry.2).entry)).Perm
        (db.history.filter (fun entry =>
          decide (fromMs ≤ entry.timestampMs ∧ entry.timestampMs < toMs))) := by
  apply ((h.entries.filter _).map _).trans
  unfold Database.history
  rw [filter_map, filter_map, map_map]
  simp only [Function.comp_def, Record.entry, makeMdbxRecordKey_mem_range_iff hlt]
  exact Perm.refl _

theorem map_readRange {db : Database} (hdb : database.ReachableVia ResetsWithoutGaps db)
    (hdistinct : (db.history.map BufferedLogEntry.timestampMs).Nodup) (fromMs toMs : Int64)
    : (readRange db.store.tables fromMs toMs 0).map LogRecordSnapshot.entry =
        (byTime db.history).filter (fun entry =>
          decide (fromMs ≤ entry.timestampMs ∧ entry.timestampMs < toMs)) := by
  unfold readRange
  split
  . next hle =>
    symm
    rw [map_nil, filter_eq_nil_iff]
    intro entry _ hrange
    rw [decide_eq_true_eq] at hrange
    exact Int64.not_lt.mpr hle (Std.lt_of_le_of_lt hrange.1 hrange.2)
  . next hlt =>
    have hperm := perm_history (reachable_inOrder hdb) (Int64.not_le.mp hlt)
    rw [if_pos rfl, map_map]
    apply @Perm.eq_of_pairwise _ (fun a b => a.timestampMs ≤ b.timestampMs)
    . intro a b ha hb hle hge
      apply inj_on_of_nodup_map hdistinct (mem_of_mem_filter (hperm.mem_iff.mp ha)) _
        (Int64.le_antisymm hle hge)
      exact mem_mergeSort.mp (mem_of_mem_filter hb)
    . have hpairwise := (reachable_recordsStored hdb.reachable).pairwise_range
        (makeMdbxRecordKey fromMs 0) (makeMdbxRecordKey (toMs - 1) maxSequence)
      rw [pairwise_map] at hpairwise ⊢
      apply hpairwise.imp
      rintro a b (hlt | heq)
      . exact Int64.le_of_lt hlt
      . exact Int64.le_of_eq heq.1
    . exact (pairwise_byTime _).filter _
    . exact hperm.trans ((mergeSort_perm db.history _).symm.filter _)

structure Config.Unlimited (config : Config) : Prop where
  records : config.maxRecords = 0
  bytes : config.maxBytes = 0
  age : config.maxAgeMs ≤ 0

namespace Config.Unlimited

variable {config : Config} {l : Logger} (h : config.Unlimited)
include h

theorem entries_eq (hreach : (system config).Reachable l) : l.entries = l.accepted := by
  have hinv := (Logger.inv_of_reachable hreach).1
  cases hremoved : l.removed with
  | nil => simp [hinv.suffix, hremoved]
  | cons removal removed =>
    have hjustified := hinv.justified removal (by simp [hremoved]) (by
      have hage := Int64.le_iff_toInt_le.mp h.age
      have hnow := removal.nowMs.le_toInt
      rw [Int64.toInt_zero] at hage
      unfold Removal.InRange
      omega)
    simp [Removal.Justified, h.records, h.bytes, Int64.not_lt.mpr h.age] at hjustified

theorem readRecent_eq (limit : Nat) (order : LogReadOrder) (nowMs nowMs' : Int64)
    : (l.readRecent config limit 0 order nowMs nowMs').1 =
        latest limit order (l.entries.map toSnapshot) := by
  unfold Logger.readRecent Logger.mEvictExpiredLocked Logger.collect latest
  rw [if_pos h.age]
  by_cases hlimit : limit = 0
  . cases order <;> simp [hlimit]
  . cases order <;> simp [hlimit, reverse_take, reverse_drop]
    omega

end Config.Unlimited

theorem read_recent_iff {config : Config} {l : Logger} {db : Database} (hconfig : config.Unlimited)
    (hl : (system config).Reachable l) (hdb : database.ReachableVia ResetsWithoutGaps db)
    (hsame : l.accepted = db.history)
    (hdistinct : (l.accepted.map BufferedLogEntry.timestampMs).Nodup) (nowMs nowMs' nowMs'' : Int64)
    : (∀ limit order,
        (l.readRecent config limit 0 order nowMs nowMs').1.map LogRecordSnapshot.entry =
            latest limit order (byTime l.accepted)
          ∧ (readRecentResult db.store.tables none limit 0 order nowMs'').value.map
            (map LogRecordSnapshot.entry) = some (latest limit order (byTime l.accepted))) ↔
      l.accepted.Pairwise (fun a b => a.timestampMs ≤ b.timestampMs)
        ∧ ∀ entry ∈ l.accepted, 0 ≤ entry.timestampMs ∧ entry.timestampMs < nowMs'' + 1 := by
  have hstored := reachable_recordsStored hdb.reachable
  have hentry : LogRecordSnapshot.entry ∘ toSnapshot = id := rfl
  rw [hsame] at hdistinct
  simp only [hconfig.readRecent_eq, readRecentResult_eq hstored, Option.map_some,
    Option.some.injEq, map_latest, forall_and, latest_inj, map_map, hentry, map_id,
    hconfig.entries_eq hl, eq_byTime_iff]
  simp [hsame, map_readRange hdb hdistinct, filter_eq_self, byTime, imp_and, forall_and]

def unlimited : Config :=
  { maxRecords := 0, maxBytes := 0, maxAgeMs := 0 }

def entryAt (timestampMs : Int64) : BufferedLogEntry :=
  ⟨.info, timestampMs, [], 0, [], [65]⟩

def written (times : List Int64) : List DatabaseEvent :=
  [.reopen .default (worldThrowingAt none),
    .write (times.map (fun timestampMs => ⟨.info, timestampMs, [], [], 0, [65]⟩)) (worldThrowingAt none)]

theorem read_recent_in_order
    : ∃ (l : Logger) (db : Database), l.accepted = [entryAt 5, entryAt 7] ∧ l.accepted = db.history ∧
        (l.readRecent unlimited 1 0 .ascending 9 9).1.map LogRecordSnapshot.entry =
            latest 1 .ascending (byTime l.accepted)
          ∧ (readRecentResult db.store.tables none 1 0 .ascending 9).value.map
            (map LogRecordSnapshot.entry) = some (latest 1 .ascending (byTime l.accepted)) := by
  obtain ⟨l, hl, haccepted⟩ := (system unlimited).exists_reachable
    (P := fun l => l.accepted = [entryAt 5, entryAt 7])
    [.log (recordAt 5) [65], .log (recordAt 7) [65]] (by decide +kernel)
  obtain ⟨db, hdb, hhistory⟩ := database.exists_reachableVia ResetsWithoutGaps
    (P := fun db => [entryAt 5, entryAt 7] = db.history) (written [5, 7]) (by decide +kernel)
  rw [← haccepted] at hhistory
  refine ⟨l, db, haccepted, hhistory, ?_⟩
  apply (read_recent_iff ⟨rfl, rfl, by decide⟩ hl hdb hhistory _ 9 9 9).mpr _ 1 .ascending
  . rw [haccepted]
    decide
  . rw [haccepted]
    decide

theorem read_recent_of_negative_time
    : (∃ l, (system unlimited).Reachable l ∧ l.accepted = [entryAt 5, entryAt (-1)] ∧
        (l.readRecent unlimited 1 0 .ascending 9 9).1.map LogRecordSnapshot.timestampMs = [-1]) ∧
      ∃ db, database.ReachableVia ResetsWithoutGaps db ∧ db.history = [entryAt 5, entryAt (-1)] ∧
        (readRecentResult db.store.tables none 0 0 .ascending 9).value.map
          (map LogRecordSnapshot.timestampMs) = some [5] := by
  constructor
  . apply (system unlimited).exists_reachable [.log (recordAt 5) [65], .log (recordAt (-1)) [65]]
    decide +kernel
  . apply database.exists_reachableVia ResetsWithoutGaps (written [5, -1])
    decide +kernel

end MemoryLogger

end LogIt
