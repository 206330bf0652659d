import Mathlib.Data.List.Forall2
import LogIt.Mdbx.Lemmas.Reader

namespace LogIt.MdbxLogger

open Fallible

section Batch

variable {cfg : Config} {item : MdbxLogItem} {batch : List MdbxLogItem} {store store' : Store}
  {written : Written} {all : List Written} {payload : Payload} {id : UInt64}

theorem Wrote.find?_payloads (h : Wrote cfg item store store' written)
    (hpayload : store.tables.payloads.find? id = some payload)
    : store'.tables.payloads.find? id = some payload := by
  have hfresh := h.payload
  rw [h.tables]
  unfold Tables.add
  dsimp only
  split
  . next new hnew =>
    rw [Table.find?_assign, if_neg]
    . exact hpayload
    . intro hid
      have hfind := Table.contains_eq_false_iff.mp (hfresh new hnew).2.1
      rw [← hid, hpayload] at hfind
      contradiction
  . exact hpayload

theorem WroteAll.find?_payloads (h : WroteAll cfg batch store store' all)
    (hpayload : store.tables.payloads.find? id = some payload)
    : store'.tables.payloads.find? id = some payload := by
  induction h with
  | nil => exact hpayload
  | cons hitem _ ih => exact ih (hitem.find?_payloads hpayload)

theorem Wrote.find?_new (h : Wrote cfg item store store' written)
    (hpayload : written.payload = some payload)
    : store'.tables.payloads.find? payload.payloadId = some payload := by
  rw [h.tables]
  unfold Tables.add
  rw [hpayload]
  dsimp only
  rw [Table.find?_assign, if_pos rfl]

structure Keeps (cfg : Config) (tables : Tables) (item : MdbxLogItem) (payload : Payload)
    : Prop where
  id : payload.payloadId ≠ 0
  valid : payload.Valid
  holds : Holds cfg item.message payload
  raw : payload.compression = .none → payload.data = item.message
  stored : tables.payloads.find? payload.payloadId = some payload

inductive Keeping (cfg : Config) (tables : Tables) (item : MdbxLogItem) (written : Written)
    : Prop where
  | whole (hpayload : written.payload = none) (hid : written.record.payloadId = 0)
      (hmessage : written.record.message = item.message)
  | spilled {payload : Payload} (hpayload : written.payload = some payload)
      (hid : written.record.payloadId = payload.payloadId)
      (hmessage : written.record.message = makePayloadPreview cfg item.message)
      (hkeeps : Keeps cfg tables item payload)

theorem Wrote.keeping (h : Wrote cfg item store store' written)
    : Keeping cfg store'.tables item written := by
  have hpayload := h.stores.payload
  split at hpayload
  . obtain ⟨payload, hsome, hholds, hid, hmessage⟩ := hpayload
    obtain ⟨hzero, _, hvalid, hraw⟩ := h.payload payload hsome
    exact .spilled hsome hid hmessage ⟨hzero, hvalid, hholds, hraw, h.find?_new hsome⟩
  . obtain ⟨hnone, hid, hmessage⟩ := hpayload
    exact .whole hnone hid hmessage

theorem Keeping.mono {tables tables' : Tables} (h : Keeping cfg tables item written)
    (hmono : ∀ {id payload}, tables.payloads.find? id = some payload →
      tables'.payloads.find? id = some payload)
    : Keeping cfg tables' item written := by
  cases h with
  | whole hpayload hid hmessage => exact .whole hpayload hid hmessage
  | spilled hpayload hid hmessage hkeeps =>
    exact .spilled hpayload hid hmessage { hkeeps with stored := hmono hkeeps.stored }

theorem WroteAll.keeping (h : WroteAll cfg batch store store' all)
    : List.Forall₂ (Keeping cfg store'.tables) batch all := by
  induction h with
  | nil => exact List.Forall₂.nil
  | cons hitem hbatch ih => exact List.Forall₂.cons (hitem.keeping.mono hbatch.find?_payloads) ih

theorem Keeping.contains (h : Keeping cfg tables item written) (hid : written.record.payloadId ≠ 0)
    : tables.payloads.contains written.record.payloadId = true := by
  cases h with
  | whole _ hzero => contradiction
  | spilled _ hsame _ hkeeps =>
    rw [hsame]
    unfold Table.contains
    rw [hkeeps.stored]
    rfl

theorem contains_of_keeping (h : List.Forall₂ (Keeping cfg tables) batch all)
    : ∀ written ∈ all, written.record.payloadId ≠ 0 →
        tables.payloads.contains written.record.payloadId = true := by
  induction h with
  | nil => simp
  | cons hitem _ ih =>
    intro written hwritten hid
    cases List.mem_cons.mp hwritten with
    | inl heq =>
      rw [heq] at hid ⊢
      exact hitem.contains hid
    | inr hrest => exact ih written hrest hid

theorem Wrote.fresh (h : Wrote cfg item store store' written)
    (hid : written.record.payloadId ≠ 0)
    : store.tables.payloads.contains written.record.payloadId = false := by
  have hpayload := h.stores.payload
  split at hpayload
  . obtain ⟨payload, hsome, _, hsame, _⟩ := hpayload
    rw [hsame]
    exact (h.payload payload hsome).2.1
  . exact absurd hpayload.2.1 hid

theorem WroteAll.fresh (h : WroteAll cfg batch store store' all)
    : ∀ written ∈ all, written.record.payloadId ≠ 0 →
        store.tables.payloads.contains written.record.payloadId = false := by
  induction h with
  | nil => simp
  | cons hitem _ ih =>
    intro written hwritten hid
    cases List.mem_cons.mp hwritten with
    | inl heq =>
      rw [heq] at hid ⊢
      exact hitem.fresh hid
    | inr hrest =>
      have hfresh := Table.contains_eq_false_iff.mp (ih written hrest hid)
      rw [Table.contains_eq_false_iff, Option.eq_none_iff_forall_ne_some]
      intro payload hpayload
      rw [hitem.find?_payloads hpayload] at hfresh
      contradiction

theorem WroteAll.pairwise_ids (h : WroteAll cfg batch store store' all)
    : all.Pairwise (fun a b => a.record.payloadId = b.record.payloadId →
        a.record.payloadId = 0) := by
  induction h with
  | nil => exact List.Pairwise.nil
  | @cons item batch store store' store'' written rest hitem hbatch ih =>
    refine List.Pairwise.cons ?_ ih
    intro other hother hsame
    by_contra hid
    have hfresh := hbatch.fresh other hother (by rwa [← hsame])
    rw [← hsame, hitem.keeping.contains hid] at hfresh
    contradiction

end Batch

section Read

variable {cfg : Config} {decompressors : Decompressors} {tables : Tables} {item : MdbxLogItem}
  {payload : Payload}

def Config.Inverts (cfg : Config) (decompressors : Decompressors) : Prop :=
  cfg.payloadCompression ≠ .none → ∀ message, message.length < 2 ^ 32 →
    decompressors.decompress cfg.payloadCompression (cfg.compress message) = some message

theorem Keeps.readPayloadResult_eq (h : Keeps cfg tables item payload)
    : readPayloadResult tables none payload.payloadId = .ok payload.toView := by
  unfold readPayloadResult
  rw [if_neg h.id, h.stored]
  simp only [load_payload h.valid]
  rfl

theorem Keeps.readPayloadDataResult_eq (h : Keeps cfg tables item payload)
    (hinverts : cfg.Inverts decompressors) (hshort : item.message.length < 2 ^ 32)
    : readPayloadDataResult decompressors tables none payload.payloadId = .ok item.message := by
  unfold readPayloadDataResult
  rw [h.readPayloadResult_eq]
  simp only [LogReadResult.ok, Payload.toView]
  split
  . next hnone => rw [h.raw hnone]
  . next hcompressed =>
    cases h.holds with
    | inl hraw => exact absurd hraw.1 hcompressed
    | inr hholds =>
      rw [hholds.1] at hcompressed
      rw [hholds.1, hholds.2, hinverts hcompressed item.message hshort]

end Read

section Steps

def PayloadFree {α : Type} (m : TxnM α) : Prop :=
  Preserves (fun txn txn' => txn'.tables.payloads = txn.tables.payloads) m

namespace PayloadFree

variable {α β : Type} {cfg : Config} {options : LogClearOptions}

theorem bind {f : α → TxnM β} (hm : PayloadFree m) (hf : ∀ a, PayloadFree (f a))
    : PayloadFree (m >>= f) := by
  apply Preserves.bind _ hm hf
  intro txn txn' txn'' h h'
  rw [h', h]

theorem of_contentsFree (h : ContentsFree m) : PayloadFree m :=
  fun txn => (h txn).mono (fun _ _ h => h.payloads) (fun _ _ h => h.payloads)

theorem of_sessionProgram (h : SessionProgram m) : PayloadFree m :=
  of_contentsFree h.contentsFree

theorem clearRecords : PayloadFree (clearRecords options) := by
  unfold MdbxLogger.clearRecords
  split
  . apply bind
    . apply bind (of_sessionProgram .access)
      intro _
      apply bind (of_sessionProgram .get)
      intro _
      exact of_sessionProgram (.pure _)
    . intro count
      apply bind
      . apply bind (of_sessionProgram .access)
        intro _ txn
        exact rfl
      . intro _
        exact of_sessionProgram (.pure count)
  . exact of_sessionProgram (.pure 0)

theorem clearPayloads (h : options.includePayloads = false)
    : PayloadFree (clearPayloads options) := by
  unfold MdbxLogger.clearPayloads
  rw [h]
  exact of_sessionProgram (.pure ())

theorem clearTables (h : options.includePayloads = false)
    : PayloadFree (clearTables cfg options) := by
  apply bind clearRecords
  intro clearedRecords
  apply bind (clearPayloads h)
  intro _
  apply bind (of_contentsFree contentsFree_clearSessions)
  intro _
  exact of_sessionProgram (.pure clearedRecords)

theorem transaction (h : PayloadFree body) (world : World) (store : Store)
    : (transaction body world store).2.tables.payloads = store.tables.payloads := by
  have hbody (txn : Txn) (hstore : txn.toStore = store)
      : body.wp (fun _ txn' => txn'.tables.payloads = store.tables.payloads ∧ True)
          (fun _ _ => True) txn := by
    rw [← hstore]
    exact (h txn).mono (fun _ _ h => ⟨h, trivial⟩) (fun _ _ _ => trivial)
  have hspec := @transaction_spec _ world store body
    (fun _ store' => store'.tables.payloads = store.tables.payloads) (fun _ => True) trivial hbody
  split at hspec
  . next htransaction =>
    rw [htransaction]
    exact hspec
  . next htransaction =>
    obtain ⟨last, _, hstore⟩ := hspec
    rw [htransaction, hstore]

end PayloadFree

def KeepsPayloads (event : DatabaseEvent) : Prop :=
  match event with
  | .clearTables options _ => options.includePayloads = false
  | _ => True

instance (event : DatabaseEvent) : Decidable (KeepsPayloads event) := by
  unfold KeepsPayloads
  split <;> infer_instance

variable {db db' : Database} {event : DatabaseEvent} {id : UInt64} {payload : Payload}

theorem find?_payloads_write (hpayload : db.store.tables.payloads.find? id = some payload)
    : (db.write batch world).store.tables.payloads.find? id = some payload := by
  have hspec := writeBatch_spec db.cfg batch world db.store
  unfold Database.write
  split
  . exact hpayload
  . split
    . next hbatch =>
      rw [hbatch] at hspec
      exact hspec.1.find?_payloads hpayload
    . next hbatch =>
      rw [hbatch] at hspec
      dsimp only
      rw [hspec.tables]
      exact hpayload

theorem payloads_clearTables (h : options.includePayloads = false)
    : (db.clearTables options world).store.tables.payloads = db.store.tables.payloads := by
  have hclear := (@PayloadFree.clearTables db.cfg options h).transaction world db.store
  unfold Database.clearTables
  split
  . next htransaction =>
    rw [htransaction] at hclear
    exact hclear
  . next htransaction =>
    rw [htransaction] at hclear
    exact hclear

theorem payloads_close : (db.close world).store.tables.payloads = db.store.tables.payloads :=
  (PayloadFree.of_sessionProgram (.updateSessionEnd db.cfg)).transaction world db.store

theorem payloads_reopen
    : (db.reopen cfg world).store.tables.payloads = db.store.tables.payloads := by
  have hopen := (PayloadFree.of_sessionProgram (.openSession cfg.normalize)).transaction world
    ⟨db.store.tables, fun _ => none, 0, 0, 0⟩
  unfold Database.reopen
  split
  . next htransaction =>
    rw [htransaction] at hopen
    exact hopen
  . rfl

theorem find?_payloads_step (hstep : database.step db event = some db') (hok : KeepsPayloads event)
    (hpayload : db.store.tables.payloads.find? id = some payload)
    : db'.store.tables.payloads.find? id = some payload := by
  unfold database Database.step at hstep
  cases event with dsimp only at hstep
  | write batch world =>
    split at hstep
    . cases hstep
      exact find?_payloads_write hpayload
    . contradiction
  | clearTables options world =>
    split at hstep
    . cases hstep
      rw [payloads_clearTables hok]
      exact hpayload
    . contradiction
  | clearSequences =>
    split at hstep
    . cases hstep
      exact hpayload
    . contradiction
  | close world =>
    split at hstep
    . cases hstep
      rw [payloads_close]
      exact hpayload
    . contradiction
  | reopen cfg world =>
    split at hstep
    . contradiction
    . cases hstep
      rw [payloads_reopen]
      exact hpayload

theorem find?_payloads_run (h : (database.startingAt db).ReachableVia (fun _ => KeepsPayloads) db')
    (hpayload : db.store.tables.payloads.find? id = some payload)
    : db'.store.tables.payloads.find? id = some payload := by
  apply h.invariant (fun db => db.store.tables.payloads.find? id = some payload)
  . exact hpayload
  . intro db event db' _ hinv hok hstep
    exact find?_payloads_step hstep hok hinv

end Steps

structure Readable (decompressors : Decompressors) (cfg : Config) (tables : Tables)
    (item : MdbxLogItem) (record : Record) : Prop where
  whole : record.payloadId = 0 → record.message = item.message
  spilled : record.payloadId ≠ 0 →
    record.message = item.message.take (min item.message.length cfg.payloadPreviewSize) ∧
    (∃ payload, tables.payloads.find? record.payloadId = some payload) ∧
    readPayloadDataResult decompressors tables none record.payloadId = .ok item.message

theorem Keeping.readable (h : Keeping cfg tables item written)
    (hinverts : cfg.Inverts decompressors) (hshort : item.message.length < 2 ^ 32)
    : Readable decompressors cfg tables item written.record := by
  cases h with
  | whole _ hid hmessage => exact ⟨fun _ => hmessage, fun hne => absurd hid hne⟩
  | spilled _ hid hmessage hkeeps =>
    refine ⟨?_, ?_⟩
    . intro hzero
      rw [hid] at hzero
      exact absurd hzero hkeeps.id
    . intro _
      rw [hid]
      exact ⟨hmessage, ⟨_, hkeeps.stored⟩, hkeeps.readPayloadDataResult_eq hinverts hshort⟩

theorem spilled_message_survives (decompressors : Decompressors) (db : Database)
    (hinverts : db.cfg.Inverts decompressors) (batch : List MdbxLogItem) (world : World)
    (store : Store) (all : List Written)
    (hcommit : writeBatch db.cfg batch world db.store = (.ok all, store))
    : (∀ written ∈ all, store.tables.records.find?
          (makeMdbxRecordKey written.record.timestampMs written.record.sequence)
        = some written.record) ∧
      (∀ written ∈ all, written.record.payloadId ≠ 0 →
        db.store.tables.payloads.find? written.record.payloadId = none) ∧
      all.Pairwise (fun a b => a.record.payloadId = b.record.payloadId →
        a.record.payloadId = 0) ∧
      ∀ db', (database.startingAt { db with store := store }).ReachableVia
          (fun _ => KeepsPayloads) db' →
        List.Forall₂ (fun item written => item.message.length < 2 ^ 32 →
          Readable decompressors db.cfg db'.store.tables item written.record) batch all ∧
        ∀ batch' world' store' all',
          writeBatch db'.cfg batch' world' db'.store = (.ok all', store') →
          ∀ written ∈ all, ∀ written' ∈ all',
            written.record.payloadId = written'.record.payloadId →
            written.record.payloadId = 0 := by
  have hspec := writeBatch_spec db.cfg batch world db.store
  rw [hcommit] at hspec
  have hwrote : WroteAll db.cfg batch db.store store all := hspec.1
  refine ⟨?_, ?_, hwrote.pairwise_ids, ?_⟩
  . intro written hwritten
    rw [← Table.mem_entries_iff, hwrote.perm_records.mem_iff, List.mem_append]
    exact Or.inl (List.mem_map.mpr ⟨written, hwritten, rfl⟩)
  . intro written hwritten hid
    exact Table.contains_eq_false_iff.mp (hwrote.fresh written hwritten hid)
  . intro db' hrun
    have hkeeping : List.Forall₂ (Keeping db.cfg db'.store.tables) batch all := by
      apply hwrote.keeping.imp
      intro item written hkeeping
      exact hkeeping.mono (find?_payloads_run hrun)
    refine ⟨?_, ?_⟩
    . apply hkeeping.imp
      intro item written hkeeping hshort
      exact hkeeping.readable hinverts hshort
    . intro batch' world' store' all' hcommit' written hwritten written' hwritten' hsame
      have hspec' := writeBatch_spec db'.cfg batch' world' db'.store
      rw [hcommit'] at hspec'
      by_contra hid
      have hfresh := hspec'.1.fresh written' hwritten' (by rwa [← hsame])
      rw [← hsame, contains_of_keeping hkeeping written hwritten hid] at hfresh
      contradiction

def spillingDatabase : Database where
  cfg := { Config.default with
    largePayloadThreshold := 2
    payloadPreviewSize := 1
    payloadCompression := .gzip
    compress := fun message => 0 :: message
  }
  isOpen := true
  store := ⟨.empty, fun _ => none, 1, 0, 0⟩
  clearing := 0
  stored := []

def longItem : MdbxLogItem :=
  { itemOf 0 with message := [1, 2, 3] }

theorem spilled_message_survives_gzip
    : ∃ (record : Record) (tables : Tables), record.message = [1] ∧ record.payloadId ≠ 0 ∧
        readPayloadDataResult ⟨List.tail?, fun _ => none⟩ tables none record.payloadId
          = .ok [1, 2, 3] := by
  generalize hcommit : writeBatch spillingDatabase.cfg [longItem] (worldThrowingAt none)
    spillingDatabase.store = result
  obtain ⟨outcome, store⟩ := result
  have hone : outcome.toOption.map (fun all => all.map (fun written =>
      (written.record.message, written.record.payloadId))) = some [([1], 1)] := by
    rw [show outcome = (writeBatch spillingDatabase.cfg [longItem] (worldThrowingAt none)
      spillingDatabase.store).1 by rw [hcommit]]
    decide +kernel
  cases outcome with
  | error e => contradiction
  | ok all =>
    obtain ⟨_, _, _, hread⟩ := spilled_message_survives ⟨List.tail?, fun _ => none⟩ spillingDatabase
      (fun _ _ _ => rfl) _ _ _ _ hcommit
    obtain ⟨hreadable, _⟩ := hread _ .init
    cases hreadable with
    | @cons _ written _ _ hitem _ =>
      simp only [Except.toOption, Option.map_some, List.map_cons, Option.some.injEq,
        List.cons.injEq, Prod.mk.injEq] at hone
      obtain ⟨⟨hmessage, hid⟩, _⟩ := hone
      have hne : written.record.payloadId ≠ 0 := by
        rw [hid]
        decide
      exact ⟨_, _, hmessage, hne, ((hitem (by decide)).spilled hne).2.2⟩

end LogIt.MdbxLogger
