import LogIt.Mdbx.Impl.Database
import LogIt.Mdbx.Lemmas.Store

namespace LogIt.MdbxLogger

open Fallible

def Tables.Taken (tables : Tables) (timestampMs : Int64) (n : UInt32) : Prop :=
  tables.records.contains (makeMdbxRecordKey timestampMs n) = true

structure InOrder (store : Store) (stored : List Record) : Prop where
  entries : store.tables.records.entries.Perm (stored.map Record.entry)
  order : stored.Pairwise (fun a b => a.timestampMs = b.timestampMs → a.sequence < b.sequence)
  above : ∀ timestampMs n m, store.tables.Taken timestampMs n →
    store.nextSequence timestampMs ≤ m → m ≤ n → store.tables.Taken timestampMs m

namespace InOrder

variable {store store' : Store} {stored : List Record} {timestampMs : Int64} {n m : UInt32}
  {cfg : Config} {item : MdbxLogItem} {batch : List MdbxLogItem} {written : Written}
  {all : List Written}

theorem taken_of_mem (h : InOrder store stored) (hrecord : record ∈ stored)
    : store.tables.Taken record.timestampMs record.sequence := by
  have hentry : record.entry ∈ store.tables.records.entries := by
    rw [h.entries.mem_iff]
    exact List.mem_map_of_mem hrecord
  unfold Tables.Taken Table.contains
  rw [Table.mem_entries_iff.mp hentry]
  rfl

theorem lt_of_firstFree (h : InOrder store stored)
    (hfree : FirstFree store.tables timestampMs (store.nextSequence timestampMs) n)
    (htaken : store.tables.Taken timestampMs m)
    : m < n := by
  rw [← UInt32.not_le]
  intro hle
  have hn := h.above timestampMs m n htaken hfree.le hle
  unfold Tables.Taken at hn
  rw [hfree.free] at hn
  contradiction

theorem taken_add : (store.tables.add written).Taken timestampMs n
    ↔ (timestampMs = written.record.timestampMs ∧ n = written.record.sequence) ∨
      store.tables.Taken timestampMs n := by
  unfold Tables.Taken Tables.add
  rw [Table.contains_assign, makeMdbxRecordKey_inj]

theorem le_nextSequence (hwrote : Wrote cfg item store store' written)
    : written.record.sequence ≤ store'.nextSequence item.timestampMs := by
  unfold Store.nextSequence
  rw [hwrote.next]
  simp only [Store.useSequence, Function.update_self, Option.getD_some]
  exact le_sequence_succ _

theorem nextSequence_of_ne (hwrote : Wrote cfg item store store' written)
    (hne : timestampMs ≠ item.timestampMs)
    : store'.nextSequence timestampMs = store.nextSequence timestampMs := by
  unfold Store.nextSequence
  rw [hwrote.next]
  simp only [Store.useSequence, Function.update_of_ne hne]

section

variable (h : InOrder store stored)

include h

theorem wrote (hwrote : Wrote cfg item store store' written)
    : InOrder store' (stored ++ [written.record]) where
  entries := by
    apply hwrote.perm_records.trans
    rw [List.map_append]
    exact (h.entries.cons _).trans (List.perm_append_singleton _ _).symm
  order := by
    rw [List.pairwise_append]
    refine ⟨h.order, List.pairwise_singleton _ _, ?_⟩
    intro record hrecord new hnew htime
    rw [List.mem_singleton.mp hnew, hwrote.stores.timestampMs] at htime
    rw [List.mem_singleton.mp hnew]
    have htaken := h.taken_of_mem hrecord
    rw [htime] at htaken
    exact h.lt_of_firstFree hwrote.sequence htaken
  above := by
    intro timestampMs n m htaken hnext hle
    rw [hwrote.tables, taken_add, hwrote.stores.timestampMs] at htaken ⊢
    by_cases htime : timestampMs = item.timestampMs
    . -- What is tried from now on is not below the new number, which is above all others.
      rw [htime] at htaken hnext
      have hge := UInt32.le_trans (le_nextSequence hwrote) hnext
      cases htaken with
      | inl hnew =>
        rw [hnew.2] at hle
        exact .inl ⟨htime, UInt32.le_antisymm hle hge⟩
      | inr hold =>
        have hlt := h.lt_of_firstFree hwrote.sequence hold
        exact absurd (UInt32.le_trans hge hle) (UInt32.not_le.mpr hlt)
    . rw [nextSequence_of_ne hwrote htime] at hnext
      cases htaken with
      | inl hnew => exact absurd hnew.1 htime
      | inr hold => exact .inr (h.above timestampMs n m hold hnext hle)

theorem wroteAll (hwrote : WroteAll cfg batch store store' all)
    : InOrder store' (stored ++ all.map Written.record) := by
  induction hwrote generalizing stored with
  | nil =>
    rw [List.map_nil, List.append_nil]
    exact h
  | cons hitem _ ih =>
    have hrest := ih (h.wrote hitem)
    rw [List.append_assoc] at hrest
    exact hrest

theorem advance (hrecords : store'.tables.records = store.tables.records)
    (hnext : ∀ timestampMs, store.nextSequence timestampMs ≤ store'.nextSequence timestampMs)
    : InOrder store' stored where
  entries := by
    rw [hrecords]
    exact h.entries
  order := h.order
  above := by
    intro timestampMs n m htaken hle
    unfold Tables.Taken at htaken ⊢
    rw [hrecords] at htaken ⊢
    exact h.above timestampMs n m htaken (UInt32.le_trans (hnext timestampMs) hle)

end

theorem cleared (hrecords : store.tables.records = .empty) : InOrder store [] where
  entries := by
    rw [hrecords]
    exact List.Perm.nil
  order := List.Pairwise.nil
  above := by
    intro timestampMs n m htaken
    unfold Tables.Taken at htaken
    rw [hrecords] at htaken
    contradiction

end InOrder

def NoGaps (tables : Tables) : Prop :=
  ∀ entry ∈ tables.records.entries, ∀ m < entry.2.sequence.toNat,
    tables.records.contains (makeMdbxRecordKey entry.2.timestampMs (UInt32.ofNat m)) = true

instance (tables : Tables) : Decidable (NoGaps tables) := by
  unfold NoGaps
  infer_instance

theorem InOrder.reset {store store' : Store} {stored : List Record} (h : InOrder store stored)
    (hrecords : store'.tables.records = store.tables.records) (hgaps : NoGaps store.tables)
    : InOrder store' stored where
  entries := by
    rw [hrecords]
    exact h.entries
  order := h.order
  above := by
    intro timestampMs n m htaken _ hle
    unfold Tables.Taken at htaken ⊢
    rw [hrecords] at htaken ⊢
    by_cases heq : m = n
    . rw [heq]
      exact htaken
    . -- The record under the key of `n` has the number `n`, so there is no gap below it.
      obtain ⟨record, hrecord⟩ := Option.isSome_iff_exists.mp htaken
      have hentry := Table.mem_entries_iff.mpr hrecord
      have hmem := h.entries.mem_iff.mp hentry
      obtain ⟨record', _, hrecord'⟩ := List.mem_map.mp hmem
      simp only [Record.entry, Prod.mk.injEq] at hrecord'
      obtain ⟨hkey, hsame⟩ := hrecord'
      rw [makeMdbxRecordKey_inj, hsame] at hkey
      have hlt : m.toNat < record.sequence.toNat := by
        have hne : m.toNat ≠ n.toNat := by
          intro h
          exact heq (UInt32.toNat_inj.mp h)
        rw [hkey.2]
        rw [UInt32.le_iff_toNat_le] at hle
        omega
      have htaken := hgaps _ hentry m.toNat hlt
      dsimp only at htaken
      rw [hkey.1, UInt32.ofNat_toNat] at htaken
      exact htaken

section Clear

structure Store.SameRecords (store store' : Store) : Prop where
  records : store'.tables.records = store.tables.records
  next : store'.nextSequenceByTimestamp = store.nextSequenceByTimestamp

structure Store.SameContents (store store' : Store) : Prop extends store.SameRecords store' where
  payloads : store'.tables.payloads = store.tables.payloads

theorem Store.OnlySessions.sameContents {store : Store} (h : store.OnlySessions store')
    : store.SameContents store' := by
  obtain ⟨sessions, hstore⟩ := h
  rw [hstore]
  exact ⟨⟨rfl, rfl⟩, rfl⟩

theorem Store.SameRecords.trans {store : Store} (h : store.SameRecords store')
    (h' : store'.SameRecords store'')
    : store.SameRecords store'' where
  records := by rw [h'.records, h.records]
  next := by rw [h'.next, h.next]

theorem Store.SameContents.trans {store : Store} (h : store.SameContents store')
    (h' : store'.SameContents store'')
    : store.SameContents store'' where
  toSameRecords := h.toSameRecords.trans h'.toSameRecords
  payloads := by rw [h'.payloads, h.payloads]

def ContentsFree {α : Type} (m : TxnM α) : Prop :=
  Preserves (fun txn txn' => txn.toStore.SameContents txn'.toStore) m

theorem SessionProgram.contentsFree {α : Type} {m : TxnM α} (h : SessionProgram m)
    : ContentsFree m :=
  fun txn => (h txn).mono (fun _ _ h => h.sameContents) (fun _ _ h => h.sameContents)

theorem ContentsFree.bind {α β : Type} {m : TxnM α} {f : α → TxnM β} (hm : ContentsFree m)
    (hf : ∀ a, ContentsFree (f a))
    : ContentsFree (m >>= f) :=
  Preserves.bind Store.SameContents.trans hm hf

def RecordFree {α : Type} (m : TxnM α) : Prop :=
  Preserves (fun txn txn' => txn.toStore.SameRecords txn'.toStore) m

theorem ContentsFree.recordFree {α : Type} {m : TxnM α} (h : ContentsFree m) : RecordFree m :=
  fun txn => (h txn).mono (fun _ _ h => h.toSameRecords) (fun _ _ h => h.toSameRecords)

theorem SessionProgram.recordFree {α : Type} {m : TxnM α} (h : SessionProgram m) : RecordFree m :=
  h.contentsFree.recordFree

theorem RecordFree.bind {α β : Type} {m : TxnM α} {f : α → TxnM β} (hm : RecordFree m)
    (hf : ∀ a, RecordFree (f a))
    : RecordFree (m >>= f) :=
  Preserves.bind Store.SameRecords.trans hm hf

variable {cfg : Config} {options : LogClearOptions} {txn : Txn}

theorem recordFree_clearPayloads : RecordFree (clearPayloads options) := by
  unfold clearPayloads
  split
  . apply SessionProgram.access.recordFree.bind
    intro _ txn
    exact ⟨rfl, rfl⟩
  . exact (SessionProgram.pure ()).recordFree

theorem contentsFree_clearSessions : ContentsFree (clearSessions cfg options) := by
  have hclear : ContentsFree sessions.clear := by
    apply SessionProgram.access.contentsFree.bind
    intro _ txn
    exact ⟨⟨rfl, rfl⟩, rfl⟩
  unfold clearSessions
  split
  . apply hclear.bind
    intro _
    apply SessionProgram.currentTimestampMs.contentsFree.bind
    intro nowMs
    apply SessionProgram.currentProcessId.contentsFree.bind
    intro pid
    apply SessionProgram.makeUniqueId.contentsFree.bind
    intro sessionId
    apply ContentsFree.bind
    . intro txn
      exact ⟨⟨rfl, rfl⟩, rfl⟩
    . intro _
      exact (SessionProgram.insertOrAssign _ _).contentsFree
  . exact (SessionProgram.pure ()).contentsFree

theorem recordFree_count : RecordFree records.count := by
  apply SessionProgram.recordFree
  apply SessionProgram.access.bind
  intro _
  exact SessionProgram.get.bind (fun _ => SessionProgram.pure _)

structure Store.Cleared (options : LogClearOptions) (store store' : Store) : Prop where
  records : store'.tables.records =
    if options.includePersistentRecords then .empty else store.tables.records
  next : store'.nextSequenceByTimestamp = store.nextSequenceByTimestamp

theorem clearRecords_spec
    : (clearRecords options).wp (fun _ txn' => txn.Cleared options txn'.toStore)
        (fun _ txn' => txn'.nextSequenceByTimestamp = txn.nextSequenceByTimestamp) txn := by
  unfold clearRecords
  split
  . apply (recordFree_count txn).bind _ (fun _ _ h => h.next)
    intro count txn₁ hsame
    unfold TableRef.clear
    rw [wp_bind, wp_bind]
    apply access_spec.mono
    . intro _ txn₂ hstore
      rw [wp_modify, wp_pure]
      refine ⟨(if_pos ‹_›).symm, ?_⟩
      dsimp only
      rw [hstore]
      exact hsame.next
    . intro _ txn₂ hstore
      rw [hstore]
      exact hsame.next
  . exact ⟨(if_neg ‹_›).symm, rfl⟩

theorem clearTables_spec
    : (clearTables cfg options).wp (fun _ txn' => txn.Cleared options txn'.toStore)
        (fun _ txn' => txn'.nextSequenceByTimestamp = txn.nextSequenceByTimestamp) txn := by
  unfold clearTables
  apply clearRecords_spec.seq
  intro count txn₁ hcleared
  have hrest : RecordFree (do
      clearPayloads options
      clearSessions cfg options
      return count) := by
    apply recordFree_clearPayloads.bind
    intro _
    apply contentsFree_clearSessions.recordFree.bind
    intro _
    exact (SessionProgram.pure count).recordFree
  apply (hrest txn₁).mono
  . intro _ txn₂ hsame
    exact ⟨hsame.records.trans hcleared.records, hsame.next.trans hcleared.next⟩
  . intro _ txn₂ hsame
    exact hsame.next.trans hcleared.next

end Clear

section Steps

def ResetsWithoutGaps (db : Database) (event : DatabaseEvent) : Prop :=
  match event with
  | .clearSequences | .reopen _ _ => NoGaps db.store.tables
  | _ => True

instance (db : Database) (event : DatabaseEvent) : Decidable (ResetsWithoutGaps db event) := by
  unfold ResetsWithoutGaps
  split <;> infer_instance

inductive RecordStep (db : Database) : DatabaseEvent → Database → Prop where
  | write {batch world store all} (hwrote : WroteAll db.cfg batch db.store store all)
    : RecordStep db (.write batch world)
        { db with store := store, stored := db.stored ++ all.map Written.record }
  | fail {batch world store} (hfailed : Failed db.store store)
    : RecordStep db (.write batch world) { db with store := store }
  | clear {options world db'} (hoptions : options.includePersistentRecords = true)
      (hrecords : db'.store.tables.records = .empty) (hstored : db'.stored = [])
    : RecordStep db (.clearTables options world) db'
  | reset {event db'} (hgaps : ResetsWithoutGaps db event → NoGaps db.store.tables)
      (hrecords : db'.store.tables.records = db.store.tables.records)
      (hstored : db'.stored = db.stored)
    : RecordStep db event db'
  | keep {event db'} (hsame : db.store.SameRecords db'.store) (hstored : db'.stored = db.stored)
    : RecordStep db event db'

variable {db db' : Database} {event : DatabaseEvent}

theorem RecordStep.of_write (db : Database) (batch : List MdbxLogItem) (world : World)
    : RecordStep db (.write batch world) (db.write batch world) := by
  have hspec := writeBatch_spec db.cfg batch world db.store
  unfold Database.write
  split
  . exact .keep ⟨rfl, rfl⟩ rfl
  . split
    . next hbatch =>
      rw [hbatch] at hspec
      exact .write hspec.1
    . next hbatch =>
      rw [hbatch] at hspec
      exact .fail hspec

theorem RecordStep.of_clearTables (db : Database) (options : LogClearOptions) (world : World)
    : RecordStep db (.clearTables options world) (db.clearTables options world) := by
  have hbody (txn : Txn) (hstore : txn.toStore = db.store)
      : (MdbxLogger.clearTables db.cfg options).wp
          (fun _ txn' => db.store.Cleared options txn'.toStore ∧
            txn'.nextSequenceByTimestamp = db.store.nextSequenceByTimestamp)
          (fun _ txn' => txn'.nextSequenceByTimestamp = db.store.nextSequenceByTimestamp) txn := by
    rw [← hstore]
    exact clearTables_spec.mono (fun _ _ h => ⟨h, h.next⟩) (fun _ _ h => h)
  have hspec := @transaction_spec _ world db.store (MdbxLogger.clearTables db.cfg options)
    (fun _ => db.store.Cleared options)
    (fun store => store.nextSequenceByTimestamp = db.store.nextSequenceByTimestamp) rfl hbody
  unfold Database.clearTables
  split
  . next htransaction =>
    rw [htransaction] at hspec
    obtain ⟨hrecords, hnext⟩ := hspec
    cases hoptions : options.includePersistentRecords with
    | true =>
      rw [hoptions, if_pos rfl] at hrecords
      exact .clear hoptions hrecords rfl
    | false =>
      rw [hoptions] at hrecords
      exact .keep ⟨hrecords, hnext⟩ rfl
  . next htransaction =>
    rw [htransaction] at hspec
    obtain ⟨last, hnext, hstore⟩ := hspec
    refine RecordStep.keep ?_ rfl
    rw [hstore]
    exact ⟨rfl, hnext⟩

theorem RecordStep.of_reopen (db : Database) (cfg : Config) (world : World)
    : RecordStep db (.reopen cfg world) (db.reopen cfg world) := by
  have hsessions := (SessionProgram.openSession cfg.normalize).transaction world
    ⟨db.store.tables, fun _ => none, 0, 0, 0⟩
  unfold Database.reopen
  split
  . next htransaction =>
    rw [htransaction] at hsessions
    exact .reset id hsessions.sameContents.records rfl
  . exact .keep ⟨rfl, rfl⟩ rfl

theorem RecordStep.of_step (h : db.step event = some db') : RecordStep db event db' := by
  unfold Database.step at h
  cases event with dsimp only at h
  | write batch world =>
    split at h
    . cases h
      exact .of_write db batch world
    . contradiction
  | clearTables options world =>
    split at h
    . cases h
      exact .of_clearTables db options world
    . contradiction
  | clearSequences =>
    split at h
    . cases h
      exact .reset id rfl rfl
    . contradiction
  | close world =>
    split at h
    . cases h
      have hsessions := (SessionProgram.updateSessionEnd db.cfg).transaction world db.store
      exact .keep hsessions.sameContents.toSameRecords rfl
    . contradiction
  | reopen cfg world =>
    split at h
    . contradiction
    . cases h
      exact .of_reopen db cfg world

theorem InOrder.step (h : InOrder db.store db.stored) (hok : ResetsWithoutGaps db event)
    (hstep : RecordStep db event db')
    : InOrder db'.store db'.stored := by
  cases hstep with
  | write hwrote => exact h.wroteAll hwrote
  | fail hfailed => exact h.advance (congrArg Tables.records hfailed.tables) hfailed.next
  | clear _ hrecords hstored =>
    rw [hstored]
    exact .cleared hrecords
  | reset hgaps hrecords hstored =>
    rw [hstored]
    exact h.reset hrecords (hgaps hok)
  | keep hsame hstored =>
    rw [hstored]
    apply h.advance hsame.records
    intro timestampMs
    unfold Store.nextSequence
    rw [hsame.next]
    exact UInt32.le_refl _

theorem reachable_inOrder (h : database.ReachableVia ResetsWithoutGaps db)
    : InOrder db.store db.stored := by
  apply h.invariant (fun db => InOrder db.store db.stored)
  . exact .cleared rfl
  . intro db event db' _ hinv hok hstep
    exact hinv.step hok (.of_step hstep)

theorem WroteAll.find?_records (h : WroteAll cfg batch store store' all)
    (hrecord : store.tables.records.find? key = some record)
    : store'.tables.records.find? key = some record := by
  induction h with
  | nil => exact hrecord
  | cons hitem _ ih =>
    apply ih
    have hfresh := hitem.find?_records
    rw [hitem.tables]
    unfold Tables.add
    dsimp only
    rw [Table.find?_assign, if_neg]
    . exact hrecord
    . intro hkey
      rw [← hkey, hrecord] at hfresh
      contradiction

theorem RecordStep.find?_records (hstep : RecordStep db event db')
    (hrecord : db.store.tables.records.find? key = some record)
    : db'.store.tables.records.find? key = some record ∨
      ∃ options world, event = .clearTables options world ∧
        options.includePersistentRecords = true := by
  cases hstep with
  | write hwrote => exact .inl (hwrote.find?_records hrecord)
  | fail hfailed =>
    left
    dsimp only
    rw [hfailed.tables]
    exact hrecord
  | clear hoptions => exact .inr ⟨_, _, rfl, hoptions⟩
  | reset _ hrecords =>
    left
    rw [hrecords]
    exact hrecord
  | keep hsame =>
    left
    rw [hsame.records]
    exact hrecord

end Steps

section Read

variable {store : Store} {stored : List Record} {fromMs toMs timestampMs : Int64}

theorem InOrder.mem_entries (h : InOrder store stored)
    (hentry : entry ∈ store.tables.records.entries)
    : entry = entry.2.entry := by
  rw [h.entries.mem_iff, List.mem_map] at hentry
  obtain ⟨record, _, hrecord⟩ := hentry
  rw [← hrecord]
  rfl

theorem InOrder.filter_entries (h : InOrder store stored)
    : (store.tables.records.entries.filter (fun entry => entry.2.timestampMs = timestampMs)).map
        Prod.snd
      = stored.filter (fun record => record.timestampMs = timestampMs) := by
  apply @List.Perm.eq_of_pairwise _ (fun a b : Record => a.sequence < b.sequence)
  . intro a b _ _ hlt hgt
    exact absurd hgt (UInt32.not_lt.mpr (UInt32.le_of_lt hlt))
  . rw [List.pairwise_map]
    apply (store.tables.records.sorted.filter _).imp_of_mem
    intro entry entry' hentry hentry' hlt
    rw [List.mem_filter, decide_eq_true_eq] at hentry hentry'
    rw [h.mem_entries hentry.1, h.mem_entries hentry'.1] at hlt
    simp only [Record.entry, makeMdbxRecordKey_lt_iff, hentry.2, hentry'.2] at hlt
    cases hlt with
    | inl hlt => exact (Int64.lt_irrefl hlt).elim
    | inr hlt => exact hlt.2
  . apply (h.order.filter _).imp_of_mem
    intro record record' hrecord hrecord' hlt
    rw [List.mem_filter, decide_eq_true_eq] at hrecord hrecord'
    exact hlt (by rw [hrecord.2, hrecord'.2])
  . apply ((h.entries.filter _).map _).trans
    rw [List.filter_map, List.map_map]
    exact List.Perm.of_eq (List.map_id _)

theorem InOrder.filter_readRange (h : InOrder store stored) (hfrom : fromMs ≤ timestampMs)
    (hto : timestampMs < toMs)
    : (readRange store.tables fromMs toMs 0).filter
        (fun snapshot => snapshot.timestampMs = timestampMs)
      = (stored.filter (fun record => record.timestampMs = timestampMs)).map
          toLogRecordSnapshot := by
  have hrange : fromMs < toMs := Std.lt_of_le_of_lt hfrom hto
  unfold readRange
  rw [if_neg (Int64.not_le.mpr hrange)]
  dsimp only
  rw [if_pos rfl, ← h.filter_entries, List.map_map, List.filter_map]
  unfold Table.range
  rw [List.filter_filter]
  congr 1
  apply List.filter_congr
  intro entry hentry
  have hkey := h.mem_entries hentry
  simp only [Function.comp_apply, toLogRecordSnapshot, Bool.decide_and, Bool.and_eq_left_iff_imp,
    decide_eq_true_eq, Bool.and_eq_true]
  intro htime
  rw [hkey]
  simp only [Record.entry, htime]
  exact (makeMdbxRecordKey_mem_range_iff hrange).mpr ⟨hfrom, hto⟩

end Read

theorem equal_times_in_write_order (db : Database)
    (h : database.ReachableVia ResetsWithoutGaps db)
    : (∀ event db', database.step db event = some db' → ∀ key record,
        db.store.tables.records.find? key = some record →
        db'.store.tables.records.find? key = some record ∨
        ∃ options world, event = .clearTables options world ∧
          options.includePersistentRecords = true) ∧
      (db.store.tables.records.entries.Perm (db.stored.map Record.entry) ∧
        db.stored.Pairwise
          (fun a b => a.timestampMs = b.timestampMs → a.sequence < b.sequence)) ∧
      ∀ fromMs toMs timestampMs, fromMs ≤ timestampMs → timestampMs < toMs →
        (readRange db.store.tables fromMs toMs 0).filter
            (fun snapshot => snapshot.timestampMs = timestampMs)
          = (db.stored.filter (fun record => record.timestampMs = timestampMs)).map
              toLogRecordSnapshot := by
  have hinOrder := reachable_inOrder h
  refine ⟨?_, ⟨hinOrder.entries, hinOrder.order⟩, ?_⟩
  . intro event db' hstep key record hrecord
    exact (RecordStep.of_step hstep).find?_records hrecord
  . intro fromMs toMs timestampMs hfrom hto
    exact hinOrder.filter_readRange hfrom hto

theorem equal_times_in_write_order_reopened
    : ∃ db, (database.ReachableVia ResetsWithoutGaps db ∧
        db.stored.map (fun record => (record.message, record.sequence))
          = [([0], 0), ([1], 1), ([3], 3)]) ∧
      (readRange db.store.tables (-5) 5 0).filter (fun snapshot => snapshot.timestampMs = 0)
        = (db.stored.filter (fun record => record.timestampMs = 0)).map toLogRecordSnapshot := by
  have hrun : ∃ db, database.ReachableVia ResetsWithoutGaps db ∧
      db.stored.map (fun record => (record.message, record.sequence))
        = [([0], 0), ([1], 1), ([3], 3)] := by
    apply Lts.exists_reachableVia _ _
      [.reopen .default (worldThrowingAt none),
        .write [itemOf 0, itemOf 1] (worldThrowingAt none), .close (worldThrowingAt none),
        .reopen .default (worldThrowingAt none), .write [itemOf 2] (worldThrowingAt (some 5)),
        .write [itemOf 3] (worldThrowingAt none)]
    decide +kernel
  obtain ⟨db, reach, hstored⟩ := hrun
  refine ⟨db, ⟨reach, hstored⟩, ?_⟩
  exact (equal_times_in_write_order db reach).2.2 (-5) 5 0 (by decide) (by decide)

theorem later_record_read_first
    : ∃ db, database.Reachable db ∧
        db.stored.map (fun record => (record.message, record.timestampMs, record.sequence))
          = [([1], 0, 1), ([2], 0, 0)] ∧
        (readRange db.store.tables 0 1 0).map LogRecordSnapshot.message = [[2], [1]] := by
  apply Lts.exists_reachable database
    [.reopen .default (worldThrowingAt none), .write [itemOf 0] (worldThrowingAt (some 3)),
      .write [itemOf 1] (worldThrowingAt none), .close (worldThrowingAt none),
      .reopen .default (worldThrowingAt none), .write [itemOf 2] (worldThrowingAt none)]
  decide +kernel

end LogIt.MdbxLogger
