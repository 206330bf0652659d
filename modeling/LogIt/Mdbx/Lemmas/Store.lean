import LogIt.Mdbx.Impl.Store
import LogIt.Mdbx.Lemmas.Codec

namespace LogIt.MdbxLogger

variable {t t' : Int64} {n n' : UInt32}

theorem flip_inj
    : (t.toUInt64 ^^^ 0x8000000000000000) = (t'.toUInt64 ^^^ 0x8000000000000000) ↔ t = t' := by
  rw [UInt64.xor_left_inj]
  constructor
  . intro h
    rw [← Int64.toInt64_toUInt64 t, h, Int64.toInt64_toUInt64]
  . intro h
    rw [h]

theorem makeMdbxRecordKey_inj
    : makeMdbxRecordKey t n = makeMdbxRecordKey t' n' ↔ t = t' ∧ n = n' := by
  constructor
  . intro h
    have hparts := List.append_inj h (by rw [length_bigEndian, length_bigEndian])
    rw [bigEndian_inj (w := 64) _ _ 8 (by decide) rfl,
      bigEndian_inj (w := 32) _ _ 4 (by decide) rfl, UInt64.toBitVec_inj, UInt32.toBitVec_inj,
      flip_inj] at hparts
    exact hparts
  . rintro ⟨ht, hn⟩
    rw [ht, hn]

theorem makeMdbxRecordKey_lt_iff
    : makeMdbxRecordKey t n < makeMdbxRecordKey t' n' ↔ t < t' ∨ t = t' ∧ n < n' := by
  unfold makeMdbxRecordKey
  rw [List.append_lt_append_iff]
  . rw [bigEndian_lt_iff_lt (w := 64) _ _ 8 (by decide) rfl,
      bigEndian_lt_iff_lt (w := 32) _ _ 4 (by decide) rfl,
      bigEndian_inj (w := 64) _ _ 8 (by decide) rfl, UInt64.toBitVec_inj, flip_inj]
    rw [← UInt64.lt_iff_toBitVec_lt, ← UInt32.lt_iff_toBitVec_lt, Int64.flip_lt_flip_iff]
  . rw [length_bigEndian, length_bigEndian]

theorem makeMdbxRecordKey_le_iff
    : makeMdbxRecordKey t n ≤ makeMdbxRecordKey t' n' ↔ t < t' ∨ t = t' ∧ n ≤ n' := by
  rw [Std.le_iff_lt_or_eq, makeMdbxRecordKey_lt_iff, makeMdbxRecordKey_inj,
    UInt32.le_iff_lt_or_eq]
  tauto

theorem zero_makeMdbxRecordKey_le_iff
    : makeMdbxRecordKey t 0 ≤ makeMdbxRecordKey t' n ↔ t ≤ t' := by
  rw [makeMdbxRecordKey_le_iff, Int64.le_iff_lt_or_eq]
  simp [UInt32.zero_le]

theorem toNat_le_maxSequence (n : UInt32) : n.toNat ≤ maxSequence.toNat := by
  have hlt := n.toNat_lt
  have hmax : maxSequence.toNat = 2 ^ 32 - 1 := rfl
  omega

theorem makeMdbxRecordKey_le_max_iff
    : makeMdbxRecordKey t n ≤ makeMdbxRecordKey t' maxSequence ↔ t ≤ t' := by
  rw [makeMdbxRecordKey_le_iff, Int64.le_iff_lt_or_eq]
  simp [UInt32.le_iff_toNat_le.mpr (toNat_le_maxSequence n)]

theorem le_sub_one_iff (h : t < t') {x : Int64} : x ≤ t' - 1 ↔ x < t' := by
  have hmin := t.minValue_le_toInt
  have hmax := t'.toInt_le
  have hmin' : Int64.minValue.toInt = -2 ^ 63 := rfl
  have hmax' : Int64.maxValue.toInt = 2 ^ 63 - 1 := rfl
  rw [Int64.lt_iff_toInt_lt] at h
  -- There is a smaller time, so the predecessor does not wrap.
  rw [Int64.lt_iff_toInt_lt, Int64.le_iff_toInt_le, Int64.toInt_sub, Int64.toInt_one,
    Int.bmod_eq_of_le]
  . omega
  . omega
  . omega

theorem makeMdbxRecordKey_mem_range_iff (h : t < t') {x : Int64}
    : (makeMdbxRecordKey t 0 ≤ makeMdbxRecordKey x n ∧
        makeMdbxRecordKey x n ≤ makeMdbxRecordKey (t' - 1) maxSequence) ↔ t ≤ x ∧ x < t' := by
  rw [zero_makeMdbxRecordKey_le_iff, makeMdbxRecordKey_le_max_iff, le_sub_one_iff h]

end LogIt.MdbxLogger

namespace LogIt.MdbxLogger

open Fallible

def Store.nextSequence (store : Store) (timestampMs : Int64) : UInt32 :=
  (store.nextSequenceByTimestamp timestampMs).getD 0

structure Store.Advances (store store' : Store) : Prop where
  next : ∀ timestampMs, store.nextSequence timestampMs ≤ store'.nextSequence timestampMs
  sessionId : store'.sessionId = store.sessionId
  failures : store'.failedWrites + store.compressionFailures
    = store.failedWrites + store'.compressionFailures

namespace Store.Advances

theorem refl (store : Store) : store.Advances store where
  next _ := UInt32.le_refl _
  sessionId := rfl
  failures := rfl

theorem of_eq {store store' : Store} (h : store' = store) : store.Advances store' := by
  rw [h]
  exact refl store

theorem trans {store : Store} (h : store.Advances store') (h' : store'.Advances store'')
    : store.Advances store'' where
  next timestampMs := UInt32.le_trans (h.next timestampMs) (h'.next timestampMs)
  sessionId := by rw [h'.sessionId, h.sessionId]
  failures := by
    have hfirst := h.failures
    have hsecond := h'.failures
    omega

end Store.Advances

section Calls

variable {txn : Txn}

theorem wp_call {Q : Answer → Txn → Prop} {E : Thrown → Txn → Prop}
    : call.wp Q E txn ↔ Q (txn.world txn.calls) { txn with calls := txn.calls + 1 } := by
  rfl

theorem access_spec
    : access.wp (fun _ txn' => txn'.toStore = txn.toStore)
        (fun _ txn' => txn'.toStore = txn.toStore) txn := by
  unfold access
  rw [wp_bind, wp_call]
  split
  . rw [wp_throw]
  . rw [wp_pure]

theorem makeUniqueId_spec {E : Thrown → Txn → Prop}
    : makeUniqueId.wp (fun id txn' => txn'.toStore = txn.toStore ∧ id ≠ 0) E txn := by
  unfold makeUniqueId
  rw [wp_bind, wp_call, wp_pure]
  refine ⟨rfl, ?_⟩
  split
  . -- The counter is masked, so its successor is not zero either.
    intro hzero
    have hmask : ((txn.world txn.calls).counter &&& 0xFFFF).toNat ≤ 0xFFFF := by
      rw [UInt64.toNat_and]
      exact Nat.and_le_right
    rw [← UInt64.toNat_inj, UInt64.toNat_add, UInt64.toNat_one, UInt64.toNat_zero] at hzero
    omega
  . assumption

variable {κ ν : Type} [LT κ] [DecidableEq κ] {table : TableRef κ ν} {key : κ} {value : ν}

theorem contains_spec
    : (table.contains key).wp
        (fun found txn' => txn'.toStore = txn.toStore ∧
          found = (table.content txn.tables).contains key)
        (fun _ txn' => txn'.toStore = txn.toStore) txn := by
  unfold TableRef.contains
  apply access_spec.bind
  . intro _ txn' hstore
    rw [wp_bind, wp_get, wp_pure, hstore]
    exact ⟨rfl, rfl⟩
  . intro _ txn' hstore
    exact hstore

omit [DecidableEq κ] in
theorem checkSerialize_spec
    : (table.checkSerialize value).wp
        (fun _ txn' => txn'.toStore = txn.toStore ∧ ∃ code, table.serialize value = .ok code)
        (fun _ txn' => txn'.toStore = txn.toStore) txn := by
  unfold TableRef.checkSerialize
  split
  . next code hcode =>
    rw [wp_pure]
    exact ⟨rfl, code, hcode⟩
  . rw [wp_throw]

theorem insert_spec [LE κ] [DecidableLT κ] [Std.IsLinearOrder κ] [Std.LawfulOrderLT κ]
    (hfresh : (table.content txn.tables).contains key = false)
    : (table.insert key value).wp
        (fun inserted txn' => inserted = true ∧ (∃ code, table.serialize value = .ok code) ∧
          txn'.toStore = { txn.toStore with
            tables := table.replace txn.tables ((table.content txn.tables).assign key value) })
        (fun _ txn' => txn'.toStore = txn.toStore) txn := by
  unfold TableRef.insert
  apply access_spec.seq
  intro _ txn₁ hstore₁
  apply checkSerialize_spec.bind
  . rintro _ txn₂ ⟨hstore₂, hcode⟩
    rw [wp_bind, wp_get, wp_ite, hstore₂, hstore₁, if_neg (by simp [hfresh]), wp_bind, wp_modify,
      wp_pure, hstore₂, hstore₁]
    exact ⟨rfl, hcode, rfl⟩
  . intro _ txn₂ hstore₂
    rw [hstore₂, hstore₁]

end Calls

structure FirstFree (tables : Tables) (timestampMs : Int64) (candidate n : UInt32) : Prop where
  le : candidate ≤ n
  taken : ∀ m, candidate ≤ m → m < n →
    tables.records.contains (makeMdbxRecordKey timestampMs m) = true
  free : tables.records.contains (makeMdbxRecordKey timestampMs n) = false

def Store.useSequence (store : Store) (timestampMs : Int64) (n : UInt32) : Store :=
  { store with
    nextSequenceByTimestamp := Function.update store.nextSequenceByTimestamp timestampMs
      (some (if n ≠ maxSequence then n + 1 else n)) }

theorem le_sequence_succ (n : UInt32) : n ≤ if n ≠ maxSequence then n + 1 else n := by
  split
  . next hne =>
    have hlt : n.toNat < maxSequence.toNat := by
      have hle := toNat_le_maxSequence n
      have hne : n.toNat ≠ maxSequence.toNat := by
        intro h
        exact hne (UInt32.toNat_inj.mp h)
      omega
    have hmax : maxSequence.toNat = 2 ^ 32 - 1 := rfl
    rw [UInt32.le_iff_toNat_le, UInt32.toNat_add, UInt32.toNat_one]
    omega
  . exact UInt32.le_refl n

theorem Store.advances_useSequence {store : Store} (h : store.nextSequence timestampMs ≤ n)
    : store.Advances (store.useSequence timestampMs n) where
  next := by
    intro timestampMs'
    unfold Store.nextSequence Store.useSequence
    by_cases heq : timestampMs' = timestampMs
    . rw [heq]
      simp only [Function.update_self, Option.getD_some]
      exact UInt32.le_trans h (le_sequence_succ n)
    . simp only [Function.update_of_ne heq]
      exact UInt32.le_refl _
  sessionId := rfl
  failures := rfl

namespace FirstFree

variable {tables : Tables} {timestampMs : Int64} {candidate n : UInt32}

theorem self (h : tables.records.contains (makeMdbxRecordKey timestampMs candidate) = false)
    : FirstFree tables timestampMs candidate candidate where
  le := UInt32.le_refl _
  taken := by
    intro m hle hlt
    exact absurd hlt (UInt32.not_lt.mpr hle)
  free := h

theorem of_succ (h : FirstFree tables timestampMs (candidate + 1) n)
    (hsucc : (candidate + 1).toNat = candidate.toNat + 1)
    (hcandidate : tables.records.contains (makeMdbxRecordKey timestampMs candidate) = true)
    : FirstFree tables timestampMs candidate n where
  le := by
    have hle := h.le
    rw [UInt32.le_iff_toNat_le] at hle ⊢
    omega
  taken := by
    intro m hle hlt
    by_cases heq : m = candidate
    . rw [heq]
      exact hcandidate
    . apply h.taken m _ hlt
      have hne : m.toNat ≠ candidate.toNat := by
        intro h
        exact heq (UInt32.toNat_inj.mp h)
      rw [UInt32.le_iff_toNat_le] at hle ⊢
      omega
  free := h.free

theorem congr (h : FirstFree tables timestampMs candidate n)
    (hrecords : tables.records = tables'.records)
    : FirstFree tables' timestampMs candidate n where
  le := h.le
  taken := by
    rw [← hrecords]
    exact h.taken
  free := by
    rw [← hrecords]
    exact h.free

end FirstFree

section Records

variable {txn : Txn} {timestampMs : Int64}

theorem nextSequenceFrom_spec (hremaining : candidate.toNat + remaining = maxSequence.toNat)
    : (nextSequenceFrom timestampMs remaining candidate).wp
        (fun n txn' => FirstFree txn.tables timestampMs candidate n ∧
          txn'.toStore = txn.toStore.useSequence timestampMs n)
        (fun _ txn' => txn'.toStore = txn.toStore) txn := by
  -- The rounds that are left are the distance to the last number, so the candidate does not wrap.
  induction remaining generalizing candidate txn with unfold nextSequenceFrom
  | zero =>
    apply contains_spec.seq
    rintro found txn' ⟨hstore, hfound⟩
    cases found with
    | true => exact wp_throw.mpr hstore
    | false =>
      refine ⟨FirstFree.self hfound.symm, ?_⟩
      rw [← hstore]
      rfl
  | succ remaining ih =>
    apply contains_spec.seq
    rintro found txn' ⟨hstore, hfound⟩
    cases found with
    | true =>
      have hsucc : (candidate + 1).toNat = candidate.toNat + 1 := by
        have hmax : maxSequence.toNat = 2 ^ 32 - 1 := rfl
        rw [UInt32.toNat_add, UInt32.toNat_one]
        omega
      have hrest : (candidate + 1).toNat + remaining = maxSequence.toNat := by omega
      rw [← hstore]
      apply (ih hrest).mono _ (fun _ _ hstore => hstore)
      rintro n txn'' ⟨hfree, hstore'⟩
      refine ⟨hfree.of_succ hsucc ?_, hstore'⟩
      rw [hstore]
      exact hfound.symm
    | false =>
      refine ⟨FirstFree.self hfound.symm, ?_⟩
      rw [← hstore]
      rfl

theorem nextRecordKeyLocked_spec
    : (nextRecordKeyLocked timestampMs).wp
        (fun n txn' => FirstFree txn.tables timestampMs (txn.nextSequence timestampMs) n ∧
          txn'.toStore = txn.toStore.useSequence timestampMs n)
        (fun _ txn' => txn'.toStore = txn.toStore) txn := by
  unfold nextRecordKeyLocked
  rw [wp_bind, wp_get]
  apply nextSequenceFrom_spec
  have hle := toNat_le_maxSequence (txn.nextSequence timestampMs)
  unfold Store.nextSequence at hle
  omega

theorem insertRecord_spec {attempts : Nat} {record : Record} (hattempts : 0 < attempts)
    : (insertRecord attempts record).wp
        (fun record' txn' => ∃ n,
          FirstFree txn.tables record.timestampMs (txn.nextSequence record.timestampMs) n ∧
          record' = { record with sequence := n } ∧ record'.Valid ∧
          txn'.toStore = { txn.toStore.useSequence record.timestampMs n with
            tables := { txn.tables with
              records := txn.tables.records.assign (makeMdbxRecordKey record.timestampMs n)
                record' } })
        (fun _ txn' => txn.toStore.Advances txn'.toStore) txn := by
  obtain ⟨attempts, rfl⟩ := Nat.exists_eq_succ_of_ne_zero (Nat.ne_of_gt hattempts)
  unfold insertRecord
  apply nextRecordKeyLocked_spec.bind _ (fun _ _ hstore => .of_eq hstore)
  rintro n txn' ⟨hfree, hstore⟩
  have htables : txn'.tables = txn.tables := by
    rw [hstore]
    rfl
  rw [wp_bind]
  -- The key was found free, so the loop does not get to its second round.
  have hfresh : (records.content txn'.tables).contains
      (makeMdbxRecordKey record.timestampMs n) = false := by
    rw [htables]
    exact hfree.free
  apply (insert_spec hfresh).mono
  . rintro inserted txn'' ⟨hinserted, ⟨code, hcode⟩, hstore'⟩
    rw [hinserted, if_pos rfl, wp_pure]
    refine ⟨n, hfree, rfl, valid_of_serializeRecord hcode, ?_⟩
    rw [hstore', hstore]
    rfl
  . intro _ txn'' hstore'
    rw [hstore', hstore]
    exact Store.advances_useSequence hfree.le

end Records

section Payloads

variable {cfg : Config} {txn : Txn}

theorem allocatePayloadId_spec (attempts : Nat)
    : (allocatePayloadId attempts).wp
        (fun id txn' => txn'.toStore = txn.toStore ∧ id ≠ 0 ∧
          txn.tables.payloads.contains id = false)
        (fun _ txn' => txn'.toStore = txn.toStore) txn := by
  induction attempts generalizing txn with unfold allocatePayloadId
  | zero => exact wp_throw.mpr rfl
  | succ attempts ih =>
    apply makeUniqueId_spec.seq
    rintro id txn' ⟨hstore, hid⟩
    rw [wp_bind]
    rw [← hstore]
    apply contains_spec.mono _ (fun _ _ hstore => hstore)
    rintro found txn'' ⟨hstore', hfound⟩
    cases found with
    | true =>
      rw [← hstore']
      exact ih
    | false => exact ⟨hstore', hid, hfound.symm⟩

def Holds (cfg : Config) (message : List UInt8) (payload : Payload) : Prop :=
  (payload.compression = .none ∧ payload.data = message) ∨
    (payload.compression = cfg.payloadCompression ∧ payload.data = cfg.compress message)

def Store.countFailures (store : Store) (failures : Nat) : Store :=
  { store with
    failedWrites := store.failedWrites + failures
    compressionFailures := store.compressionFailures + failures }

theorem Store.advances_countFailures (store : Store) (failures : Nat)
    : store.Advances (store.countFailures failures) where
  next _ := UInt32.le_refl _
  sessionId := rfl
  failures := by
    simp only [Store.countFailures]
    omega

theorem fillPayload_spec {message : List UInt8} {id : UInt64} {E : Thrown → Txn → Prop}
    : (fillPayload cfg message id).wp
        (fun payload txn' => payload.payloadId = id ∧ Holds cfg message payload ∧
          (payload.compression = .none → payload.data = message) ∧
          ∃ failures, txn'.toStore = txn.toStore.countFailures failures) E txn := by
  unfold fillPayload
  rw [wp_ite]
  split
  . exact ⟨rfl, .inl ⟨rfl, rfl⟩, fun _ => rfl, 0, rfl⟩
  . next hcompression =>
    rw [wp_bind, wp_call, wp_ite]
    split
    . exact ⟨rfl, .inl ⟨rfl, rfl⟩, fun _ => rfl, 1, rfl⟩
    . exact ⟨rfl, .inr ⟨rfl, rfl⟩, fun h => absurd h hcompression, 0, rfl⟩

end Payloads

section Items

def Tables.add (tables : Tables) (written : Written) : Tables where
  sessions := tables.sessions
  records := tables.records.assign
    (makeMdbxRecordKey written.record.timestampMs written.record.sequence) written.record
  payloads :=
    match written.payload with
    | some payload => tables.payloads.assign payload.payloadId payload
    | none => tables.payloads

structure Stores (cfg : Config) (sessionId : UInt64) (item : MdbxLogItem) (written : Written)
    : Prop where
  payload : if shouldSpillPayload cfg item.message then
      ∃ payload, written.payload = some payload ∧ Holds cfg item.message payload ∧
        written.record.payloadId = payload.payloadId ∧
        written.record.message = makePayloadPreview cfg item.message
    else
      written.payload = none ∧ written.record.payloadId = 0 ∧
        written.record.message = item.message
  sessionId : written.record.sessionId = sessionId
  timestampMs : written.record.timestampMs = item.timestampMs
  level : written.record.level = item.level
  file : written.record.file = item.file
  function : written.record.function = item.function
  line : written.record.line = item.line

structure Wrote (cfg : Config) (item : MdbxLogItem) (store store' : Store) (written : Written)
    : Prop where
  stores : Stores cfg store.sessionId item written
  sequence : FirstFree store.tables item.timestampMs (store.nextSequence item.timestampMs)
    written.record.sequence
  payload : ∀ payload, written.payload = some payload →
    payload.payloadId ≠ 0 ∧ store.tables.payloads.contains payload.payloadId = false ∧
      payload.Valid ∧ (payload.compression = .none → payload.data = item.message)
  valid : written.record.Valid
  tables : store'.tables = store.tables.add written
  next : store'.nextSequenceByTimestamp =
    (store.useSequence item.timestampMs written.record.sequence).nextSequenceByTimestamp
  advances : store.Advances store'

variable {cfg : Config} {txn : Txn} {item : MdbxLogItem}

theorem writeItemLocked_spec
    : (writeItemLocked cfg item).wp
        (fun written txn' => Wrote cfg item txn.toStore txn'.toStore written)
        (fun _ txn' => txn.toStore.Advances txn'.toStore) txn := by
  unfold writeItemLocked
  rw [wp_bind, wp_get]
  dsimp only
  rw [wp_ite]
  split
  . next hspill =>
    apply (allocatePayloadId_spec 1024).bind _ (fun _ _ hstore => .of_eq hstore)
    rintro id txn₁ ⟨hstore₁, hzero, hid⟩
    apply fillPayload_spec.seq
    rintro payload txn₂ ⟨hpayloadId, hholds, hraw, failures, hstore₂⟩
    rw [hstore₁] at hstore₂
    have hfresh : (payloads.content txn₂.tables).contains payload.payloadId = false := by
      rw [hstore₂, hpayloadId]
      exact hid
    apply (insert_spec hfresh).bind
    . rintro inserted txn₃ ⟨_, ⟨code, hcode⟩, hstore₃⟩
      rw [hstore₂] at hstore₃
      have hadvances : txn.toStore.Advances txn₃.toStore := by
        have hcount := Store.advances_countFailures txn.toStore failures
        rw [hstore₃]
        exact ⟨hcount.next, hcount.sessionId, hcount.failures⟩
      have hrecords : txn₃.tables.records = txn.tables.records := by
        rw [hstore₃]
        rfl
      have hnext : txn₃.nextSequence item.timestampMs = txn.nextSequence item.timestampMs := by
        rw [hstore₃]
        rfl
      apply (insertRecord_spec (by decide)).bind _ (fun _ _ h => hadvances.trans h)
      rintro record txn₄ ⟨n, hfree, hrecord, hvalid, hstore₄⟩
      have huse := Store.advances_useSequence hfree.le
      rw [wp_pure, hrecord]
      rw [hrecord] at hstore₄
      refine ⟨⟨?_, rfl, rfl, rfl, rfl, rfl, rfl⟩, ?_, ?_, ?_, ?_, ?_, ?_⟩
      . rw [if_pos hspill]
        exact ⟨payload, rfl, hholds, rfl, rfl⟩
      . rw [← hnext]
        exact hfree.congr hrecords
      . intro payload' hpayload'
        cases hpayload'
        refine ⟨?_, ?_, valid_of_serializePayload hcode, hraw⟩
        . rw [hpayloadId]
          exact hzero
        . rw [hpayloadId]
          exact hid
      . rw [← hrecord]
        exact hvalid
      . rw [hstore₄, hstore₃]
        rfl
      . rw [hstore₄, hstore₃]
        rfl
      . apply hadvances.trans
        rw [hstore₄]
        exact ⟨huse.next, huse.sessionId, huse.failures⟩
    . intro _ txn₃ hstore₃
      rw [hstore₃, hstore₂]
      exact Store.advances_countFailures _ _
  . next hspill =>
    apply (insertRecord_spec (by decide)).seq
    rintro record txn₁ ⟨n, hfree, hrecord, hvalid, hstore₁⟩
    have huse := Store.advances_useSequence hfree.le
    rw [wp_pure, hrecord]
    rw [hrecord] at hstore₁
    refine ⟨⟨?_, rfl, rfl, rfl, rfl, rfl, rfl⟩, hfree, ?_, ?_, ?_, ?_, ?_⟩
    . rw [if_neg hspill]
      exact ⟨rfl, rfl, rfl⟩
    . intro payload hpayload
      contradiction
    . rw [← hrecord]
      exact hvalid
    . rw [hstore₁]
      rfl
    . rw [hstore₁]
    . rw [hstore₁]
      exact ⟨huse.next, huse.sessionId, huse.failures⟩

inductive WroteAll (cfg : Config) : List MdbxLogItem → Store → Store → List Written → Prop where
  | nil {store : Store} : WroteAll cfg [] store store []
  | cons {item : MdbxLogItem} {batch : List MdbxLogItem} {store store' store'' : Store}
      {written : Written} {rest : List Written} (hitem : Wrote cfg item store store' written)
      (hbatch : WroteAll cfg batch store' store'' rest)
    : WroteAll cfg (item :: batch) store store'' (written :: rest)

theorem writeItemsLocked_spec (batch : List MdbxLogItem)
    : (writeItemsLocked cfg batch).wp
        (fun written txn' => WroteAll cfg batch txn.toStore txn'.toStore written ∧
          txn.toStore.Advances txn'.toStore)
        (fun _ txn' => txn.toStore.Advances txn'.toStore) txn := by
  induction batch generalizing txn with unfold writeItemsLocked
  | nil =>
    rw [wp_pure]
    exact ⟨.nil, .refl _⟩
  | cons item batch ih =>
    apply writeItemLocked_spec.seq
    intro written txn' hwrote
    apply ih.bind _ (fun _ _ h => hwrote.advances.trans h)
    rintro rest txn'' ⟨hrest, hadvances⟩
    rw [wp_pure]
    exact ⟨.cons hwrote hrest, hwrote.advances.trans hadvances⟩

end Items

section Entries

def Record.entry (record : Record) : List UInt8 × Record :=
  (makeMdbxRecordKey record.timestampMs record.sequence, record)

def Written.recordEntry (written : Written) : List UInt8 × Record :=
  written.record.entry

def Written.payloadEntry (written : Written) : Option (UInt64 × Payload) :=
  written.payload.map (fun payload => (payload.payloadId, payload))

variable {cfg : Config} {item : MdbxLogItem} {batch : List MdbxLogItem} {store store' : Store}
  {written : Written} {all : List Written}

section

variable (h : Wrote cfg item store store' written)

include h

theorem Wrote.find?_records
    : store.tables.records.find? (makeMdbxRecordKey written.record.timestampMs
        written.record.sequence) = none := by
  rw [h.stores.timestampMs, ← Table.contains_eq_false_iff]
  exact h.sequence.free

theorem Wrote.perm_records
    : store'.tables.records.entries.Perm (written.recordEntry :: store.tables.records.entries) := by
  rw [h.tables]
  exact Table.perm_entries_assign h.find?_records

theorem Wrote.perm_payloads
    : store'.tables.payloads.entries.Perm
        (written.payloadEntry.toList ++ store.tables.payloads.entries) := by
  have hfresh := h.payload
  rw [h.tables]
  unfold Tables.add Written.payloadEntry
  cases hpayload : written.payload with
  | none => exact List.Perm.refl _
  | some payload =>
    apply Table.perm_entries_assign
    rw [← Table.contains_eq_false_iff]
    exact (hfresh payload hpayload).2.1

end

section

variable (h : WroteAll cfg batch store store' all)

include h

theorem WroteAll.perm_records
    : store'.tables.records.entries.Perm
        (all.map Written.recordEntry ++ store.tables.records.entries) := by
  induction h with
  | nil => exact List.Perm.refl _
  | cons hitem _ ih =>
    apply ih.trans
    rw [List.map_cons, List.cons_append]
    exact (hitem.perm_records.append_left _).trans List.perm_middle

theorem WroteAll.perm_payloads
    : store'.tables.payloads.entries.Perm
        (all.filterMap Written.payloadEntry ++ store.tables.payloads.entries) := by
  induction h with
  | nil => exact List.Perm.refl _
  | @cons item _ store store' store'' written rest hitem _ ih =>
    have hitem := hitem.perm_payloads
    apply ih.trans
    rw [List.filterMap_cons]
    cases hentry : written.payloadEntry with rw [hentry] at hitem
    | none => exact hitem.append_left _
    | some entry => exact (hitem.append_left _).trans List.perm_middle

theorem WroteAll.stores : List.Forall₂ (Stores cfg store.sessionId) batch all := by
  induction h with
  | nil => exact List.Forall₂.nil
  | cons hitem _ ih =>
    rw [hitem.advances.sessionId] at ih
    exact List.Forall₂.cons hitem.stores ih

end

end Entries

section Batch

variable {α : Type} {cfg : Config} {world : World} {store store' : Store}

theorem transaction_spec {body : TxnM α} {Q : α → Store → Prop} {E : Store → Prop}
    (hstart : E store)
    (hbody : ∀ txn : Txn, txn.toStore = store →
      body.wp (fun a txn' => Q a txn'.toStore ∧ E txn'.toStore) (fun _ txn' => E txn'.toStore) txn)
    : match transaction body world store with
      | (.ok a, store') => Q a store'
      | (.error _, store') => ∃ last, E last ∧ store' = { last with tables := store.tables } := by
  have hprogram : (do
      access
      let result ← body
      access
      return result : TxnM α).wp (fun a txn' => Q a txn'.toStore) (fun _ txn' => E txn'.toStore)
      { store with world := world, calls := 0 } := by
    apply access_spec.bind
    . intro _ txn hstore
      apply (hbody txn hstore).seq
      rintro a txn' ⟨hq, he⟩
      apply access_spec.bind
      . intro _ txn'' hstore'
        rw [wp_pure, hstore']
        exact hq
      . intro _ txn'' hstore'
        rw [hstore']
        exact he
    . intro _ txn hstore
      rw [hstore]
      exact hstart
  unfold transaction
  dsimp only
  split
  . next hexec =>
    split at hexec
    . next hrun =>
      cases hexec
      exact hprogram.ok hrun
    . cases hexec
  . next hexec =>
    split at hexec
    . cases hexec
    . next hrun =>
      cases hexec
      exact ⟨_, hprogram.error hrun, rfl⟩

structure Failed (store store' : Store) : Prop where
  tables : store'.tables = store.tables
  next : ∀ timestampMs, store.nextSequence timestampMs ≤ store'.nextSequence timestampMs
  sessionId : store'.sessionId = store.sessionId
  failures : store'.failedWrites + store.compressionFailures
    = store.failedWrites + store'.compressionFailures + 1

theorem writeBatch_spec (cfg : Config) (batch : List MdbxLogItem) (world : World) (store : Store)
    : match writeBatch cfg batch world store with
      | (.ok written, store') => WroteAll cfg batch store store' written ∧ store.Advances store'
      | (.error _, store') => Failed store store' := by
  have hbody (txn : Txn) (hstore : txn.toStore = store)
      : (writeItemsLocked cfg batch).wp
          (fun written txn' => (WroteAll cfg batch store txn'.toStore written ∧
            store.Advances txn'.toStore) ∧ store.Advances txn'.toStore)
          (fun _ txn' => store.Advances txn'.toStore) txn := by
    rw [← hstore]
    exact (writeItemsLocked_spec batch).mono (fun _ _ h => ⟨h, h.2⟩) (fun _ _ h => h)
  have hspec := @transaction_spec _ world store (writeItemsLocked cfg batch)
    (fun written store' => WroteAll cfg batch store store' written ∧ store.Advances store')
    store.Advances (.refl store) hbody
  unfold writeBatch
  split
  . next hbatch =>
    split at hbatch
    . next htransaction =>
      cases hbatch
      rw [htransaction] at hspec
      exact hspec
    . cases hbatch
  . next hbatch =>
    split at hbatch
    . cases hbatch
    . next htransaction =>
      cases hbatch
      rw [htransaction] at hspec
      obtain ⟨last, hadvances, hlast⟩ := hspec
      rw [hlast]
      refine ⟨rfl, hadvances.next, hadvances.sessionId, ?_⟩
      have hfailures := hadvances.failures
      dsimp only
      omega

end Batch

def Store.OnlySessions (store store' : Store) : Prop :=
  ∃ sessions, store' = { store with tables := { store.tables with sessions := sessions } }

theorem Store.OnlySessions.of_eq {store store' : Store} (h : store' = store)
    : store.OnlySessions store' :=
  ⟨store.tables.sessions, h⟩

theorem Store.OnlySessions.trans {store : Store} (h : store.OnlySessions store')
    (h' : store'.OnlySessions store'')
    : store.OnlySessions store'' := by
  obtain ⟨sessions, hstore⟩ := h
  obtain ⟨sessions', hstore'⟩ := h'
  refine ⟨sessions', ?_⟩
  rw [hstore', hstore]

def SessionProgram {α : Type} (m : TxnM α) : Prop :=
  Preserves (fun txn txn' => txn.toStore.OnlySessions txn'.toStore) m

namespace SessionProgram

variable {α β : Type}

theorem pure (a : α) : SessionProgram (Pure.pure a : TxnM α) :=
  Preserves.pure (fun _ => .of_eq rfl) a

theorem throw (e : Thrown) : SessionProgram (MonadExcept.throw e : TxnM α) :=
  Preserves.throw (fun _ => .of_eq rfl) e

theorem bind {f : α → TxnM β} (hm : SessionProgram m) (hf : ∀ a, SessionProgram (f a))
    : SessionProgram (m >>= f) :=
  Preserves.bind Store.OnlySessions.trans hm hf

theorem get : SessionProgram (MonadState.get : TxnM Txn) :=
  fun _ => .of_eq rfl

theorem call : SessionProgram MdbxLogger.call :=
  fun _ => .of_eq rfl

theorem access : SessionProgram MdbxLogger.access :=
  fun _ => access_spec.mono (fun _ _ h => .of_eq h) (fun _ _ h => .of_eq h)

theorem currentTimestampMs : SessionProgram MdbxLogger.currentTimestampMs :=
  call.bind (fun _ => pure _)

theorem currentProcessId : SessionProgram MdbxLogger.currentProcessId :=
  call.bind (fun _ => pure _)

theorem makeUniqueId : SessionProgram MdbxLogger.makeUniqueId :=
  call.bind (fun _ => pure _)

theorem find? (id : UInt64) : SessionProgram (sessions.find? id) :=
  access.bind (fun _ => get.bind (fun _ => pure _))

theorem assign (id : UInt64) (session : Session)
    : SessionProgram (modify (fun txn : Txn => { txn with
        tables := sessions.replace txn.tables ((sessions.content txn.tables).assign id session) })) :=
  fun _ => ⟨_, rfl⟩

theorem checkSerialize (session : Session) : SessionProgram (sessions.checkSerialize session) :=
  fun _ => checkSerialize_spec.mono (fun _ _ h => .of_eq h.1) (fun _ _ h => .of_eq h)

theorem insertOrAssign (id : UInt64) (session : Session)
    : SessionProgram (sessions.insertOrAssign id session) :=
  access.bind (fun _ => (checkSerialize session).bind (fun _ => assign id session))

theorem insert (id : UInt64) (session : Session) : SessionProgram (sessions.insert id session) := by
  apply access.bind
  intro _
  apply (checkSerialize session).bind
  intro _
  apply get.bind
  intro txn
  split
  . exact pure false
  . exact (assign id session).bind (fun _ => pure true)

theorem allocateSessionId (session : Session) (attempts : Nat)
    : SessionProgram (MdbxLogger.allocateSessionId session attempts) := by
  induction attempts with
  | zero => exact throw _
  | succ attempts ih =>
    unfold MdbxLogger.allocateSessionId
    apply makeUniqueId.bind
    intro id
    apply (insert id session).bind
    intro inserted
    split
    . exact pure id
    . exact ih

theorem openSession (cfg : Config) : SessionProgram (MdbxLogger.openSession cfg) := by
  unfold MdbxLogger.openSession
  apply currentTimestampMs.bind
  intro nowMs
  apply currentProcessId.bind
  intro pid
  split
  . apply (find? cfg.sessionId).bind
    intro session
    cases session with
    | some session | none => exact (insertOrAssign _ _).bind (fun _ => pure _)
  . exact allocateSessionId _ _

theorem updateSessionEnd (cfg : Config) : SessionProgram (MdbxLogger.updateSessionEnd cfg) := by
  unfold MdbxLogger.updateSessionEnd
  apply get.bind
  intro txn
  apply (find? txn.sessionId).bind
  intro session
  cases session with
  | some session =>
    apply (pure session).bind
    intro session
    exact currentTimestampMs.bind (fun _ => insertOrAssign _ _)
  | none =>
    apply currentTimestampMs.bind
    intro nowMs
    apply currentProcessId.bind
    intro pid
    apply (pure _).bind
    intro session
    exact currentTimestampMs.bind (fun _ => insertOrAssign _ _)

theorem transaction (h : SessionProgram body) (world : World) (store : Store)
    : store.OnlySessions (MdbxLogger.transaction body world store).2 := by
  have hbody (txn : Txn) (hstore : txn.toStore = store)
      : body.wp (fun _ txn' => store.OnlySessions txn'.toStore ∧ store.OnlySessions txn'.toStore)
          (fun _ txn' => store.OnlySessions txn'.toStore) txn := by
    rw [← hstore]
    exact (h txn).mono (fun _ _ h => ⟨h, h⟩) (fun _ _ h => h)
  have hspec := @transaction_spec _ world store body (fun _ store' => store.OnlySessions store')
    store.OnlySessions (.of_eq rfl) hbody
  split at hspec
  . next htransaction =>
    rw [htransaction]
    exact hspec
  . next htransaction =>
    rw [htransaction]
    obtain ⟨last, ⟨sessions, hlast⟩, hstore⟩ := hspec
    apply Store.OnlySessions.of_eq
    rw [hstore, hlast]

end SessionProgram

def worldThrowingAt (failing : Option Nat) : World :=
  fun call =>
    { throws := if failing = some call then some .other else none
      clock := 0
      counter := UInt64.ofNat call
      processId := 0
      compressionFails := false }

def itemOf (r : Nat) : MdbxLogItem where
  level := ⟨0⟩
  timestampMs := 0
  file := []
  function := []
  line := 0
  message := [UInt8.ofNat r]

end LogIt.MdbxLogger
