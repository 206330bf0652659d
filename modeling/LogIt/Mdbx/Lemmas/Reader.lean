import LogIt.Mdbx.Impl.Reader
import LogIt.Mdbx.Lemmas.Database

namespace LogIt.MdbxLogger

theorem load_record (h : record.Valid) : records.load record = .ok record := by
  obtain ⟨code, hserialize, hdeserialize, _⟩ := record_selfDelimiting.roundTrip record h
  simp only [TableRef.load, records, hserialize, hdeserialize]

theorem load_payload (h : payload.Valid) : payloads.load payload = .ok payload := by
  obtain ⟨code, hserialize, hdeserialize, _⟩ := payload_selfDelimiting.roundTrip payload h
  simp only [TableRef.load, payloads, hserialize, hdeserialize]

def Tables.RecordsStored (tables : Tables) : Prop :=
  ∀ entry ∈ tables.records.entries, entry = entry.2.entry ∧ entry.2.Valid

section Invariant

variable {db db' : Database} {event : DatabaseEvent}

theorem WroteAll.valid (h : WroteAll cfg batch store store' all)
    : ∀ written ∈ all, written.record.Valid := by
  induction h with
  | nil => simp
  | cons hitem _ ih =>
    intro written hwritten
    cases List.mem_cons.mp hwritten with
    | inl heq =>
      rw [heq]
      exact hitem.valid
    | inr hrest => exact ih written hrest

theorem RecordStep.recordsStored (hstep : RecordStep db event db')
    (h : db.store.tables.RecordsStored)
    : db'.store.tables.RecordsStored := by
  intro entry hentry
  cases hstep with
  | write hwrote =>
    rw [hwrote.perm_records.mem_iff, List.mem_append, List.mem_map] at hentry
    cases hentry with
    | inl hnew =>
      obtain ⟨written, hwritten, hentry⟩ := hnew
      rw [← hentry]
      exact ⟨rfl, hwrote.valid written hwritten⟩
    | inr hold => exact h entry hold
  | fail hfailed =>
    dsimp only at hentry
    rw [hfailed.tables] at hentry
    exact h entry hentry
  | clear _ hrecords =>
    rw [hrecords] at hentry
    contradiction
  | reset _ hrecords =>
    rw [hrecords] at hentry
    exact h entry hentry
  | keep hsame =>
    rw [hsame.records] at hentry
    exact h entry hentry

theorem reachable_recordsStored (h : database.Reachable db) : db.store.tables.RecordsStored := by
  apply h.invariant (fun db => db.store.tables.RecordsStored)
  . intro entry hentry
    contradiction
  . intro db event db' _ hinv hstep
    exact (RecordStep.of_step hstep).recordsStored hinv

end Invariant

section Loop

variable {limit : Nat} {entries : List (List UInt8 × Record)} {value : List LogRecordSnapshot}

theorem collectRecord_run (h : record.Valid)
    : (collectRecord limit key record).run value
        = .ok (limit == 0 || decide (value.length + 1 < limit),
            value ++ [toLogRecordSnapshot record]) := by
  unfold collectRecord
  rw [load_record h]
  rw [StateT.run_bind, StateT.run_monadLift]
  simp

theorem visit_collectRecord_run (hvalid : ∀ entry ∈ entries, entry.2.Valid)
    (hlimit : limit = 0 ∨ value.length < limit)
    : (Table.visit (collectRecord limit) entries).run value
        = .ok ((), value ++
            (if limit = 0 then entries else entries.take (limit - value.length)).map
              (fun entry => toLogRecordSnapshot entry.2)) := by
  induction entries generalizing value with
  | nil =>
    rw [List.take_nil, ite_self, List.map_nil, List.append_nil]
    rfl
  | cons entry entries ih =>
    have hentry := hvalid entry List.mem_cons_self
    have hrest : ∀ entry ∈ entries, entry.2.Valid := by
      intro entry hentry
      exact hvalid entry (List.mem_cons_of_mem _ hentry)
    unfold Table.visit
    rw [StateT.run_bind, collectRecord_run hentry]
    change (if (limit == 0 || decide (value.length + 1 < limit)) = true then
      Table.visit (collectRecord limit) entries else pure ()).run _ = _
    by_cases hmore : limit = 0 ∨ value.length + 1 < limit
    . rw [if_pos (by simpa using hmore), ih hrest (by simpa using hmore), List.append_assoc]
      congr 2
      by_cases hzero : limit = 0
      . simp [hzero]
      . have hsub : limit - value.length = (limit - (value.length + 1)) + 1 := by omega
        simp [hzero, hsub]
    . -- This entry was the last one below the limit.
      have hlast : limit = value.length + 1 := by omega
      rw [if_neg (by simpa using hmore)]
      rw [StateT.run_pure]
      simp [hlast, pure, Except.pure]

end Loop

section Range

variable {tables : Tables} {fromMs toMs : Int64}

theorem Tables.RecordsStored.mem_range_iff (h : tables.RecordsStored) (hlt : fromMs < toMs)
    : entry ∈ tables.records.range (makeMdbxRecordKey fromMs 0)
        (makeMdbxRecordKey (toMs - 1) maxSequence)
      ↔ entry ∈ tables.records.entries ∧ fromMs ≤ entry.2.timestampMs ∧
        entry.2.timestampMs < toMs := by
  unfold Table.range
  rw [List.mem_filter, decide_eq_true_eq]
  apply and_congr_right
  intro hentry
  rw [← makeMdbxRecordKey_mem_range_iff hlt, (h entry hentry).1]
  rfl

theorem Tables.RecordsStored.pairwise_range (h : tables.RecordsStored) (first last : List UInt8)
    : ((tables.records.range first last).map Prod.snd).Pairwise
        (fun a b => a.timestampMs < b.timestampMs ∨
          a.timestampMs = b.timestampMs ∧ a.sequence < b.sequence) := by
  rw [List.pairwise_map]
  apply (tables.records.sorted.filter _).imp_of_mem
  intro entry entry' hentry hentry' hlt
  rw [(h entry (List.mem_of_mem_filter hentry)).1, (h entry' (List.mem_of_mem_filter hentry')).1]
    at hlt
  exact makeMdbxRecordKey_lt_iff.mp hlt

theorem Tables.RecordsStored.readRangeResult_eq (h : tables.RecordsStored) (limit : Nat)
    : readRangeResult tables none fromMs toMs limit
        = .ok (readRange tables fromMs toMs limit) := by
  unfold readRangeResult readRange
  split
  . rfl
  . have hvalid : ∀ entry ∈ tables.records.range (makeMdbxRecordKey fromMs 0)
        (makeMdbxRecordKey (toMs - 1) maxSequence), entry.2.Valid := by
      intro entry hentry
      exact (h entry (List.mem_of_mem_filter hentry)).2
    have hloop := @visit_collectRecord_run limit _ [] hvalid (by simp; omega)
    dsimp only
    unfold Table.forEachRange
    rw [hloop]
    split
    . rfl
    . simp only [raise, catchRead, bind, Except.bind, pure, Except.pure, List.nil_append,
        List.map_take]
      rfl

end Range

def extremeTimes : Tables :=
  let record (timestampMs : Int64) (sequence : UInt32) : Record :=
    ⟨1, timestampMs, sequence, ⟨0⟩, [], 0, [], [], 0⟩
  let add (table : Table (List UInt8) Record) (record : Record) :=
    table.assign record.entry.1 record.entry.2
  { Tables.empty with
    records := [record Int64.maxValue 0, record Int64.minValue maxSequence,
      record Int64.minValue 0].foldl add .empty
  }

end LogIt.MdbxLogger
