import LogIt.Mdbx.Impl.Codec

namespace LogIt.MdbxLogger

open MdbxByteWriter MdbxByteReader

def Writes (out : MdbxByteWriter Unit) (code : List UInt8) : Prop :=
  ∀ front, out front = .ok ((), front ++ code)

theorem Writes.bind (h : Writes out code) (h' : Writes out' code')
    : Writes (out >>= fun _ => out') (code ++ code') := by
  intro front
  show (out front >>= fun (_, front) => out' front) = _
  rw [h front]
  show out' (front ++ code) = _
  rw [h', List.append_assoc]

theorem Writes.bytes (h : Writes out code) : MdbxByteWriter.bytes out = .ok code := by
  unfold MdbxByteWriter.bytes
  rw [h []]
  rfl

theorem writes_pushBytes (code : List UInt8) : Writes (pushBytes code) code := by
  intro front
  rfl

def stringCode (value : List UInt8) : List UInt8 :=
  bigEndian (UInt32.ofNat value.length).toBitVec 4 ++ value

theorem writes_writeString (h : value.length < 2 ^ 32)
    : Writes (writeString value) (stringCode value) := by
  unfold MdbxByteWriter.writeString
  rw [if_neg (by omega)]
  apply Writes.bind
  . apply writes_pushBytes
  . apply writes_pushBytes

theorem bind_eq_ok {rest : Unit → MdbxByteWriter Unit} (h : (out >>= rest) front = .ok ((), back))
    : ∃ middle, out front = .ok ((), middle) ∧ rest () middle = .ok ((), back) := by
  change (out front >>= fun (a, middle) => rest a middle) = _ at h
  generalize out front = res at h
  cases res with
  | error e => contradiction
  | ok res => exact ⟨res.2, rfl, h⟩

theorem length_of_writeString (h : writeString value front = .ok ((), back))
    : value.length < 2 ^ 32 := by
  unfold MdbxByteWriter.writeString at h
  split at h
  . contradiction
  . omega

theorem bytes_eq_ok (h : MdbxByteWriter.bytes out = .ok code) : out [] = .ok ((), code) := by
  unfold MdbxByteWriter.bytes at h
  split at h
  . next hout =>
    cases h
    exact hout
  . contradiction

section Reader

variable {α σ : Type}

abbrev Codec (closed : Prop) (valid : σ → Prop) (code : σ → List UInt8) (value : σ → α)
    (reader : MdbxByteReader α) : Prop :=
  CursorM.Codec Error.isException closed valid code value reader

@[simp]
theorem isException_runtimeError (message : String)
    : Error.isException (.runtimeError message) := by
  simp [Error.isException]

@[simp]
theorem isException_readException (error : LogReadError) (message : String)
    : Error.isException (.readException error message) := by
  simp [Error.isException]

theorem codec_readU8 : Codec False (fun _ => True) (fun value => [value]) id readU8 := by
  apply CursorM.Codec.next
  simp

theorem codec_readU32
    : Codec False (fun _ => True) (fun value => bigEndian value.toBitVec 4) id readU32 := by
  apply CursorM.Codec.nextWord
  . exact fun _ => rfl
  . exact fun _ => rfl
  . decide
  . rfl
  . simp

theorem codec_readU64
    : Codec False (fun _ => True) (fun value => bigEndian value.toBitVec 8) id readU64 := by
  apply CursorM.Codec.nextWord
  . exact fun _ => rfl
  . exact fun _ => rfl
  . decide
  . rfl
  . simp

theorem codec_readI64
    : Codec False (fun _ => True) (fun value => bigEndian value.toUInt64.toBitVec 8) id readI64 := by
  have hbind : Codec False (fun _ => True)
      (fun value : Int64 => bigEndian value.toUInt64.toBitVec 8 ++ []) id readI64 := by
    apply CursorM.Codec.bind Int64.toUInt64 codec_readU64 (fun _ _ => trivial)
    intro bits _
    apply CursorM.Codec.pure bits.toInt64
    intro value
    constructor
    . rintro ⟨rfl, _⟩
      rfl
    . rintro rfl
      exact ⟨rfl, trivial⟩
  simpa using hbind

theorem codec_readString
    : Codec False (fun value => value.length < 2 ^ 32) stringCode id readString := by
  apply CursorM.Codec.bind (fun value : List UInt8 => UInt32.ofNat value.length) codec_readU32
    (fun _ _ => trivial)
  intro size _
  have hvalid : (fun value : List UInt8 => UInt32.ofNat value.length = size ∧ value.length < 2 ^ 32)
      = fun value => value.length = size.toNat := by
    funext value
    rw [eq_iff_iff]
    constructor
    . rintro ⟨rfl, hlength⟩
      rw [UInt32.toNat_ofNat_of_lt' (by simpa using hlength)]
    . intro hlength
      rw [hlength]
      exact ⟨UInt32.ofNat_toNat, size.toNat_lt⟩
  rw [hvalid]
  apply CursorM.Codec.nextBytes
  simp

theorem codec_last {β : Type} {valid : α → Prop} {code : α → List UInt8} {result : α → β}
    {V : σ → Prop} {value : σ → β} (field : σ → α) (hreader : Codec False valid code id reader)
    (hV : ∀ y, V y → valid (field y))
    (hresult : ∀ x, valid x → ∃ z, value z = result x ∧ ∀ y, field y = x ∧ V y ↔ y = z)
    : Codec True V (fun y => code (field y)) value
        (reader >>= fun x => finish >>= fun _ => pure (result x)) := by
  have hbind : Codec True V (fun y => code (field y) ++ []) value
      (reader >>= fun x => finish >>= fun _ => pure (result x)) := by
    apply CursorM.Codec.bind field hreader hV
    intro x hx
    obtain ⟨z, hz, hunique⟩ := hresult x hx
    rw [← hz]
    exact CursorM.Codec.finish (by simp) z hunique
  simpa using hbind

def Decodes (valid : σ → Prop) (code : σ → List UInt8) (value : σ → α)
    (deserialize : ByteRange → Except Error α) : Prop :=
  ∃ reader, Codec True valid code value reader ∧
    deserialize = fun range => MdbxByteReader.run range reader

variable {valid : σ → Prop} {code : σ → List UInt8} {value : σ → α}

theorem Decodes.eq_ok
    (h : Decodes valid code value deserialize) (hok : deserialize (.data content) = .ok a)
    : ∃ x, valid x ∧ value x = a ∧ content = code x := by
  obtain ⟨reader, hcodec, rfl⟩ := h
  simp only [MdbxByteReader.run] at hok
  generalize hres : reader ⟨content, 0⟩ = res at hok
  cases res with
  | error e => contradiction
  | ok res =>
    cases hok
    obtain ⟨_, _, x, hx, hvalue, hcode, hend⟩ := hcodec.ok _ res.1 res.2 (Nat.zero_le _) hres
    rw [hend trivial, List.append_nil] at hcode
    exact ⟨x, hx, hvalue, hcode⟩

theorem run_ne_outOfRange (h : Codec True valid code value reader) (range : ByteRange)
    : MdbxByteReader.run range reader ≠ .error .outOfRange := by
  have hdata : ∀ content, (·.1) <$> reader ⟨content, 0⟩ ≠ .error Error.outOfRange := by
    intro content
    generalize hres : reader ⟨content, 0⟩ = res
    cases res with
    | ok res => exact nofun
    | error e =>
      intro heq
      cases heq
      exact h.error _ _ (Nat.zero_le _) hres rfl
  cases range with
  | null size =>
    cases size with
    | zero => apply hdata
    | succ size => exact nofun
  | data content => apply hdata

end Reader

structure SelfDelimiting {α : Type} (valid : α → Prop) (serialize : α → Except Error (List UInt8))
    (deserialize : ByteRange → Except Error α) : Prop where
  roundTrip : ∀ a, valid a → ∃ code, serialize a = .ok code ∧ deserialize (.data code) = .ok a ∧
    (∀ front, front <+: code → front ≠ code →
      ∃ e, deserialize (.data front) = .error e ∧ e.isException) ∧
    ∀ rest, rest ≠ [] → ∃ e, deserialize (.data (code ++ rest)) = .error e ∧ e.isException
  inRange : ∀ range, deserialize range ≠ .error .outOfRange

theorem Decodes.selfDelimiting {α σ : Type} {valid : σ → Prop} {code : σ → List UInt8}
    {value : σ → α} {deserialize : ByteRange → Except Error α}
    (h : Decodes valid code value deserialize) {valid' : α → Prop}
    {serialize : α → Except Error (List UInt8)}
    (hserialize : ∀ a, valid' a → ∃ x, valid x ∧ value x = a ∧ serialize a = .ok (code x))
    : SelfDelimiting valid' serialize deserialize := by
  obtain ⟨reader, hcodec, rfl⟩ := h
  have hrefused : ∀ {content}, (∃ e, reader ⟨content, 0⟩ = .error e) →
      ∃ e, MdbxByteReader.run (.data content) reader = .error e ∧ e.isException := by
    rintro content ⟨e, herror⟩
    refine ⟨e, ?_, hcodec.error _ e (Nat.zero_le _) herror⟩
    simp only [MdbxByteReader.run, herror]
    rfl
  constructor
  . intro a ha
    obtain ⟨x, hx, rfl, hcode⟩ := hserialize a ha
    refine ⟨code x, hcode, ?_, ?_, ?_⟩
    . have hread := hcodec.reads x hx [] [] (fun _ => rfl)
      rw [List.append_nil, List.nil_append] at hread
      simp only [MdbxByteReader.run]
      rw [show reader ⟨code x, 0⟩ = _ from hread]
      rfl
    . intro front hprefix hne
      have hshort := hcodec.short x hx [] front.length (by
        apply Nat.lt_of_le_of_ne hprefix.length_le
        intro hlength
        apply hne
        apply hprefix.eq_of_length hlength)
      rw [← List.prefix_iff_eq_take.mp hprefix] at hshort
      exact hrefused hshort
    . intro rest hrest
      exact hrefused (hcodec.long hx [] hrest)
  . apply run_ne_outOfRange hcodec

def Session.Valid (s : Session) : Prop :=
  s.appName.length < 2 ^ 32

def Record.Valid (r : Record) : Prop :=
  r.message.length < 2 ^ 32 ∧ r.file.length < 2 ^ 32 ∧ r.function.length < 2 ^ 32

def Payload.Valid (p : Payload) : Prop :=
  p.data.length < 2 ^ 32

def sessionCode (s : Session) : List UInt8 :=
  bigEndian (1 : UInt32).toBitVec 4 ++ (stringCode s.appName ++
    (bigEndian s.startTimeMs.toUInt64.toBitVec 8 ++ (bigEndian s.endTimeMs.toUInt64.toBitVec 8 ++
    (bigEndian s.processId.toBitVec 8 ++ bigEndian s.schemaVersion.toBitVec 4))))

theorem serializeSession_eq (hs : s.Valid) : serializeSession s = .ok (sessionCode s) := by
  apply Writes.bytes
  apply Writes.bind (writes_pushBytes _)
  apply Writes.bind (writes_writeString hs)
  apply Writes.bind (writes_pushBytes _)
  apply Writes.bind (writes_pushBytes _)
  apply Writes.bind (writes_pushBytes _)
  apply writes_pushBytes

theorem decodes_session : Decodes Session.Valid sessionCode id deserializeSession := by
  refine ⟨_, ?_, rfl⟩
  apply CursorM.Codec.bind (fun _ => 1) codec_readU32 (fun _ _ => trivial)
  intro version _
  apply CursorM.Codec.guard (by simp) (fun s hs => not_not_intro hs.1.symm)
  intro hversion
  apply CursorM.Codec.bind Session.appName codec_readString (fun s hs => hs.2)
  intro appName hname
  apply CursorM.Codec.bind Session.startTimeMs codec_readI64 (fun _ _ => trivial)
  intro start _
  apply CursorM.Codec.bind Session.endTimeMs codec_readI64 (fun _ _ => trivial)
  intro stop _
  apply CursorM.Codec.bind Session.processId codec_readU64 (fun _ _ => trivial)
  intro process _
  apply codec_last Session.schemaVersion codec_readU32 (fun _ _ => trivial)
  intro schema _
  refine ⟨_, rfl, ?_⟩
  intro s
  constructor
  . rintro ⟨rfl, rfl, rfl, rfl, rfl, _⟩
    rfl
  . rintro rfl
    exact ⟨rfl, rfl, rfl, rfl, rfl, (not_not.mp hversion).symm, hname⟩

theorem session_selfDelimiting
    : SelfDelimiting Session.Valid serializeSession deserializeSession := by
  apply decodes_session.selfDelimiting
  intro s hs
  exact ⟨s, hs, rfl, serializeSession_eq hs⟩

def recordCode (r : Record) : List UInt8 :=
  bigEndian (1 : UInt32).toBitVec 4 ++ (bigEndian r.sessionId.toBitVec 8 ++
    (bigEndian r.timestampMs.toUInt64.toBitVec 8 ++ (bigEndian r.sequence.toBitVec 4 ++
    (bigEndian r.level.value.toUInt32.toBitVec 4 ++ (stringCode r.message ++
    (bigEndian r.payloadId.toBitVec 8 ++ (stringCode r.file ++ (stringCode r.function ++
    bigEndian r.line.toInt64.toUInt64.toBitVec 8))))))))

theorem serializeRecord_eq (hr : r.Valid) : serializeRecord r = .ok (recordCode r) := by
  obtain ⟨hmessage, hfile, hfunction⟩ := hr
  apply Writes.bytes
  apply Writes.bind (writes_pushBytes _)
  apply Writes.bind (writes_pushBytes _)
  apply Writes.bind (writes_pushBytes _)
  apply Writes.bind (writes_pushBytes _)
  apply Writes.bind (writes_pushBytes _)
  apply Writes.bind (writes_writeString hmessage)
  apply Writes.bind (writes_pushBytes _)
  apply Writes.bind (writes_writeString hfile)
  apply Writes.bind (writes_writeString hfunction)
  apply writes_pushBytes

theorem valid_of_serializeRecord (h : serializeRecord r = .ok code) : r.Valid := by
  obtain ⟨_, _, h⟩ := bind_eq_ok (bytes_eq_ok h)
  obtain ⟨_, _, h⟩ := bind_eq_ok h
  obtain ⟨_, _, h⟩ := bind_eq_ok h
  obtain ⟨_, _, h⟩ := bind_eq_ok h
  obtain ⟨_, _, h⟩ := bind_eq_ok h
  obtain ⟨_, hmessage, h⟩ := bind_eq_ok h
  obtain ⟨_, _, h⟩ := bind_eq_ok h
  obtain ⟨_, hfile, h⟩ := bind_eq_ok h
  obtain ⟨_, hfunction, _⟩ := bind_eq_ok h
  refine ⟨?_, ?_, ?_⟩
  . exact length_of_writeString hmessage
  . exact length_of_writeString hfile
  . exact length_of_writeString hfunction

def wideCode (r : Record) (line : Int64) : List UInt8 :=
  bigEndian (1 : UInt32).toBitVec 4 ++ (bigEndian r.sessionId.toBitVec 8 ++
    (bigEndian r.timestampMs.toUInt64.toBitVec 8 ++ (bigEndian r.sequence.toBitVec 4 ++
    (bigEndian r.level.value.toUInt32.toBitVec 4 ++ (stringCode r.message ++
    (bigEndian r.payloadId.toBitVec 8 ++ (stringCode r.file ++ (stringCode r.function ++
    bigEndian line.toUInt64.toBitVec 8))))))))

-- The line is stored in a wider type, so what is decoded need not be what was stored.
theorem decodes_record
    : Decodes (fun stored : Record × Int64 => stored.1.Valid ∧ stored.1.line = stored.2.toInt32)
        (fun stored => wideCode stored.1 stored.2) Prod.fst deserializeRecord := by
  refine ⟨_, ?_, rfl⟩
  apply CursorM.Codec.bind (fun _ => 1) codec_readU32 (fun _ _ => trivial)
  intro version _
  apply CursorM.Codec.guard (by simp) (fun r hr => not_not_intro hr.1.symm)
  intro hversion
  apply CursorM.Codec.bind (fun r : Record × Int64 => r.1.sessionId) codec_readU64
    (fun _ _ => trivial)
  intro sessionId _
  apply CursorM.Codec.bind (fun r : Record × Int64 => r.1.timestampMs) codec_readI64
    (fun _ _ => trivial)
  intro timestampMs _
  apply CursorM.Codec.bind (fun r : Record × Int64 => r.1.sequence) codec_readU32
    (fun _ _ => trivial)
  intro sequence _
  apply CursorM.Codec.bind (fun r : Record × Int64 => r.1.level.value.toUInt32) codec_readU32
    (fun _ _ => trivial)
  intro level _
  apply CursorM.Codec.bind (fun r : Record × Int64 => r.1.message) codec_readString
  . rintro r ⟨_, _, _, _, _, hr, _⟩
    exact hr.1
  intro message hmessage
  apply CursorM.Codec.bind (fun r : Record × Int64 => r.1.payloadId) codec_readU64
    (fun _ _ => trivial)
  intro payloadId _
  apply CursorM.Codec.bind (fun r : Record × Int64 => r.1.file) codec_readString
  . rintro r ⟨_, _, _, _, _, _, _, hr, _⟩
    exact hr.2.1
  intro file hfile
  apply CursorM.Codec.bind (fun r : Record × Int64 => r.1.function) codec_readString
  . rintro r ⟨_, _, _, _, _, _, _, _, hr, _⟩
    exact hr.2.2
  intro function hfunction
  apply codec_last Prod.snd codec_readI64 (fun _ _ => trivial)
  intro line _
  refine ⟨(_, line), rfl, ?_⟩
  intro stored
  constructor
  . rintro ⟨rfl, rfl, rfl, rfl, rfl, rfl, rfl, rfl, rfl, _, _, hline⟩
    rw [← hline]
    rfl
  . rintro rfl
    exact ⟨rfl, rfl, rfl, rfl, rfl, rfl, rfl, rfl, rfl, (not_not.mp hversion).symm,
      ⟨hmessage, hfile, hfunction⟩, rfl⟩

theorem record_selfDelimiting
    : SelfDelimiting Record.Valid serializeRecord deserializeRecord := by
  apply decodes_record.selfDelimiting
  intro r hr
  exact ⟨(r, r.line.toInt64), ⟨hr, (Int32.toInt32_toInt64 _).symm⟩, rfl, serializeRecord_eq hr⟩

theorem MdbxPayloadCompression.ofUInt8_toUInt8 (compression : MdbxPayloadCompression)
    : ofUInt8 compression.toUInt8 = compression := by
  cases compression <;> rfl

theorem MdbxPayloadCompression.toUInt8_le (compression : MdbxPayloadCompression)
    : ¬ zstd.toUInt8 < compression.toUInt8 := by
  cases compression <;> decide

theorem MdbxPayloadCompression.toUInt8_ofUInt8 (h : ¬ zstd.toUInt8 < value)
    : (ofUInt8 value).toUInt8 = value := by
  have hle : value.toNat ≤ 2 := by
    rw [UInt8.lt_iff_toNat_lt] at h
    exact Nat.le_of_not_lt h
  unfold MdbxPayloadCompression.ofUInt8
  split
  . next hzero => exact hzero.symm
  . next hzero =>
    split
    . next hone => exact hone.symm
    . next hone =>
      rw [← UInt8.toNat_inj] at hzero hone ⊢
      have hzero : value.toNat ≠ 0 := hzero
      have hone : value.toNat ≠ 1 := hone
      have htwo : zstd.toUInt8.toNat = 2 := rfl
      omega

def payloadCode (p : Payload) : List UInt8 :=
  bigEndian (1 : UInt32).toBitVec 4 ++ (bigEndian p.payloadId.toBitVec 8 ++
    ([p.compression.toUInt8] ++ stringCode p.data))

theorem serializePayload_eq (hp : p.Valid) : serializePayload p = .ok (payloadCode p) := by
  apply Writes.bytes
  apply Writes.bind (writes_pushBytes _)
  apply Writes.bind (writes_pushBytes _)
  apply Writes.bind (writes_pushBytes _)
  apply writes_writeString hp

theorem valid_of_serializePayload (h : serializePayload p = .ok code) : p.Valid := by
  obtain ⟨_, _, h⟩ := bind_eq_ok (bytes_eq_ok h)
  obtain ⟨_, _, h⟩ := bind_eq_ok h
  obtain ⟨_, _, h⟩ := bind_eq_ok h
  exact length_of_writeString h

theorem decodes_payload : Decodes Payload.Valid payloadCode id deserializePayload := by
  refine ⟨_, ?_, rfl⟩
  apply CursorM.Codec.bind (fun _ => 1) codec_readU32 (fun _ _ => trivial)
  intro version _
  apply CursorM.Codec.guard (by simp) (fun p hp => not_not_intro hp.1.symm)
  intro hversion
  apply CursorM.Codec.bind Payload.payloadId codec_readU64 (fun _ _ => trivial)
  intro payloadId _
  apply CursorM.Codec.bind (fun p : Payload => p.compression.toUInt8) codec_readU8
    (fun _ _ => trivial)
  intro compression _
  apply CursorM.Codec.guard (by simp) (fun p hp => hp.1 ▸ p.compression.toUInt8_le)
  intro hknown
  apply codec_last Payload.data codec_readString (fun p hp => hp.2.2.2)
  intro data hdata
  refine ⟨_, rfl, ?_⟩
  intro p
  constructor
  . rintro ⟨rfl, rfl, rfl, _⟩
    rw [MdbxPayloadCompression.ofUInt8_toUInt8]
  . rintro rfl
    exact ⟨rfl, MdbxPayloadCompression.toUInt8_ofUInt8 hknown, rfl, (not_not.mp hversion).symm,
      hdata⟩

theorem payload_selfDelimiting
    : SelfDelimiting Payload.Valid serializePayload deserializePayload := by
  apply decodes_payload.selfDelimiting
  intro p hp
  exact ⟨p, hp, rfl, serializePayload_eq hp⟩

theorem value_codec_selfDelimiting
    : SelfDelimiting Session.Valid serializeSession deserializeSession ∧
      SelfDelimiting Record.Valid serializeRecord deserializeRecord ∧
      SelfDelimiting Payload.Valid serializePayload deserializePayload := by
  refine ⟨?_, ?_, ?_⟩
  . apply session_selfDelimiting
  . apply record_selfDelimiting
  . apply payload_selfDelimiting

def storedLine (content : List UInt8) : Int64 :=
  (UInt64.ofBitVec ((content.drop (content.length - 8)).foldl shiftIn 0#64)).toInt64

theorem storedLine_append (front : List UInt8) (line : Int64)
    : storedLine (front ++ bigEndian line.toUInt64.toBitVec 8) = line := by
  have hlength := length_bigEndian line.toUInt64.toBitVec 8
  have hword := foldl_bigEndian line.toUInt64.toBitVec 8 (by decide) rfl
  unfold storedLine
  rw [List.length_append, hlength, Nat.add_sub_cancel, List.drop_left, hword]
  rfl

theorem toInt64_toInt32_eq_iff (line : Int64)
    : line.toInt32.toInt64 = line ↔ -2 ^ 31 ≤ line.toInt ∧ line.toInt < 2 ^ 31 := by
  rw [← Int64.toInt_inj, Int32.toInt_toInt64, Int64.toInt_toInt32, Int.bmod_eq_iff]
  . omega
  . decide

theorem storedLine_wideCode (r : Record) (line : Int64) : storedLine (wideCode r line) = line := by
  unfold wideCode
  simp only [← List.append_assoc]
  apply storedLine_append

theorem wideCode_eq_recordCode_iff : recordCode r = wideCode r line ↔ r.line.toInt64 = line := by
  constructor
  . intro h
    rw [← storedLine_wideCode r line, ← h]
    exact (storedLine_wideCode r _).symm
  . rintro rfl
    rfl

theorem serializeRecord_eq_iff (h : deserializeRecord (.data content) = .ok r)
    : serializeRecord r = .ok content
      ↔ -2 ^ 31 ≤ (storedLine content).toInt ∧ (storedLine content).toInt < 2 ^ 31 := by
  obtain ⟨⟨r, line⟩, ⟨hvalid, hline⟩, rfl, rfl⟩ := decodes_record.eq_ok h
  rw [storedLine_wideCode, serializeRecord_eq hvalid, Except.ok.injEq, wideCode_eq_recordCode_iff,
    hline, toInt64_toInt32_eq_iff]

theorem decoded_value_reserializes (content : List UInt8)
    : (∀ s, deserializeSession (.data content) = .ok s →
        serializeSession s = .ok content) ∧
      (∀ r, deserializeRecord (.data content) = .ok r →
        (serializeRecord r = .ok content
          ↔ -2 ^ 31 ≤ (storedLine content).toInt ∧ (storedLine content).toInt < 2 ^ 31)) ∧
      (∀ p, deserializePayload (.data content) = .ok p →
        serializePayload p = .ok content) := by
  refine ⟨?_, ?_, ?_⟩
  . intro s h
    obtain ⟨s, hvalid, rfl, rfl⟩ := decodes_session.eq_ok h
    exact serializeSession_eq hvalid
  . intro r h
    apply serializeRecord_eq_iff h
  . intro p h
    obtain ⟨p, hvalid, rfl, rfl⟩ := decodes_payload.eq_ok h
    exact serializePayload_eq hvalid

theorem decoded_value_reserializes_negative_line
    : deserializeRecord (.data (recordCode ⟨7, -1, 2, ⟨-1⟩, [65], 0, [66, 67], [], -3⟩))
        = .ok ⟨7, -1, 2, ⟨-1⟩, [65], 0, [66, 67], [], -3⟩ ∧
      serializeRecord ⟨7, -1, 2, ⟨-1⟩, [65], 0, [66, 67], [], -3⟩
        = .ok (recordCode ⟨7, -1, 2, ⟨-1⟩, [65], 0, [66, 67], [], -3⟩) := by
  have hdecode : deserializeRecord (.data (recordCode ⟨7, -1, 2, ⟨-1⟩, [65], 0, [66, 67], [], -3⟩))
      = .ok ⟨7, -1, 2, ⟨-1⟩, [65], 0, [66, 67], [], -3⟩ := by
    decide +kernel
  refine ⟨hdecode, ?_⟩
  apply ((decoded_value_reserializes _).2.1 _ hdecode).mpr
  decide +kernel

def wideLineRecord : List UInt8 :=
  [0, 0, 0, 1] ++ List.replicate 44 0 ++ [0, 0, 0, 1, 0, 0, 0, 0]

theorem record_line_altered
    : ∃ r, deserializeRecord (.data wideLineRecord) = .ok r ∧
        serializeRecord r ≠ .ok wideLineRecord ∧ r.line = 0 ∧
        (storedLine wideLineRecord).toInt = 2 ^ 32 := by
  refine ⟨⟨0, 0, 0, ⟨0⟩, [], 0, [], [], 0⟩, ?_, ?_, rfl, ?_⟩
  . decide +kernel
  . decide +kernel
  . decide +kernel

end LogIt.MdbxLogger
