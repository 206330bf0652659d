import LogIt.Mdbx.Impl.Store

/-!
This module contains the readers of an `MdbxLogger`. What is read is decoded from the serialization
of what was stored.
-/

namespace LogIt.MdbxLogger

structure LogReadResult (α : Type) where
  value : Option α
  error : LogReadError
  message : String
  deriving DecidableEq

inductive ReadThrown where
  | readException (error : LogReadError) (what : String)
  | mdbxException (what : String)
  | std (what : String)
  | other
  deriving DecidableEq

def Error.readThrown (e : Error) : ReadThrown :=
  match e with
  | .lengthError message => .std message
  | .runtimeError message => .std message
  | .readException error message => .readException error message
  | .outOfRange => .other

def LogReadResult.ok {α : Type} (value : α) : LogReadResult α :=
  ⟨some value, .none, ""⟩

def makeNotFoundResult {α : Type} (message : String) : LogReadResult α :=
  ⟨none, .notFound, message⟩

def catchRead {α : Type} (unknown : String) (result : Except ReadThrown (LogReadResult α))
    : LogReadResult α :=
  match result with
  | .ok result => result
  | .error (.readException error what) => ⟨none, error, what⟩
  | .error (.mdbxException what) => ⟨none, .storageError, what⟩
  | .error (.std what) => ⟨none, .decodeError, what⟩
  | .error .other => ⟨none, .decodeError, unknown⟩

def TableRef.load {κ ν : Type} [LT κ] (table : TableRef κ ν) (value : ν) : Except ReadThrown ν :=
  match table.serialize value with
  | .error e => .error e.readThrown
  | .ok code =>
    match table.deserialize (.data code) with
    | .error e => .error e.readThrown
    | .ok value => .ok value

def raise (fault : Option ReadThrown) : Except ReadThrown Unit :=
  match fault with
  | some e => .error e
  | none => .ok ()

def collectRecord (limit : Nat) (_ : List UInt8) (record : Record)
    : StateT (List LogRecordSnapshot) (Except ReadThrown) Bool := do
  let record ← records.load record
  modify (fun value => value ++ [toLogRecordSnapshot record])
  let value ← get
  return limit == 0 || decide (value.length < limit)

def readRangeResult (tables : Tables) (fault : Option ReadThrown) (fromMs toMs : Int64)
    (limit : Nat) : LogReadResult (List LogRecordSnapshot) :=
  if toMs ≤ fromMs then
    .ok []
  else
    catchRead "MdbxLogger: unknown read_range error" do
      let fromKey := makeMdbxRecordKey fromMs 0
      let toKey := makeMdbxRecordKey (toMs - 1) maxSequence
      raise fault
      let (_, value) ← (tables.records.forEachRange fromKey toKey (collectRecord limit)).run []
      return .ok value

structure PayloadView where
  payloadId : UInt64
  compression : MdbxPayloadCompression
  data : List UInt8
  deriving DecidableEq

def Payload.toView (payload : Payload) : PayloadView where
  payloadId := payload.payloadId
  compression := payload.compression
  data := payload.data

def readPayloadResult (tables : Tables) (fault : Option ReadThrown) (payloadId : UInt64)
    : LogReadResult PayloadView :=
  if payloadId = 0 then
    makeNotFoundResult "MdbxLogger: payload id is zero"
  else
    catchRead "MdbxLogger: unknown payload read error" do
      raise fault
      match tables.payloads.find? payloadId with
      | none => return makeNotFoundResult "MdbxLogger: payload not found"
      | some payload =>
        let payload ← payloads.load payload
        return .ok payload.toView

structure Decompressors where
  gzip : List UInt8 → Option (List UInt8)
  zstd : List UInt8 → Option (List UInt8)

def Decompressors.decompress (decompressors : Decompressors) (compression : MdbxPayloadCompression)
    (data : List UInt8) : Option (List UInt8) :=
  match compression with
  | .none => none
  | .gzip => decompressors.gzip data
  | .zstd => decompressors.zstd data

def readPayloadDataResult (decompressors : Decompressors) (tables : Tables)
    (fault : Option ReadThrown) (payloadId : UInt64) : LogReadResult (List UInt8) :=
  let view := readPayloadResult tables fault payloadId
  match view.value with
  | none => ⟨none, view.error, view.message⟩
  | some value =>
    if value.compression = .none then
      .ok value.data
    else
      match decompressors.decompress value.compression value.data with
      | some output => .ok output
      | none => ⟨none, .decompressionError, "MdbxLogger: failed to decompress payload data"⟩

end LogIt.MdbxLogger
