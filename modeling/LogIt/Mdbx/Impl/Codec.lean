import LogIt.Lib.ByteCursor

/-!
This module contains the binary format in which `MdbxLogger` stores the values of its tables.
-/

namespace LogIt.MdbxLogger

inductive LogReadError where
  | none
  | notFound
  | storageError
  | decodeError
  | unsupportedVersion
  | decompressionError
  deriving DecidableEq

inductive Error where
  | lengthError (message : String)
  | runtimeError (message : String)
  | readException (error : LogReadError) (message : String)
  -- undefined behaviour, a byte outside of the given range is read
  | outOfRange
  deriving DecidableEq

def Error.isException (e : Error) : Prop :=
  e ≠ .outOfRange

inductive MdbxPayloadCompression where
  | none
  | gzip
  | zstd
  deriving DecidableEq

def MdbxPayloadCompression.toUInt8 (compression : MdbxPayloadCompression) : UInt8 :=
  match compression with
  | .none => 0
  | .gzip => 1
  | .zstd => 2

def MdbxPayloadCompression.ofUInt8 (value : UInt8) : MdbxPayloadCompression :=
  if value = 0 then
    .none
  else if value = 1 then
    .gzip
  else
    .zstd

/--
An `enum class` over `int`, whose values are not limited to the enumerators.
-/
structure LogLevel where
  value : Int32
  deriving DecidableEq

namespace LogLevel

def trace : LogLevel := ⟨0⟩

def debug : LogLevel := ⟨1⟩

def info : LogLevel := ⟨2⟩

def warn : LogLevel := ⟨3⟩

def error : LogLevel := ⟨4⟩

def fatal : LogLevel := ⟨5⟩

end LogLevel

structure Session where
  appName : List UInt8
  startTimeMs : Int64
  endTimeMs : Int64
  processId : UInt64
  schemaVersion : UInt32
  deriving DecidableEq

structure Record where
  sessionId : UInt64
  timestampMs : Int64
  sequence : UInt32
  level : LogLevel
  message : List UInt8
  payloadId : UInt64
  file : List UInt8
  function : List UInt8
  line : Int32
  deriving DecidableEq

structure Payload where
  payloadId : UInt64
  compression : MdbxPayloadCompression
  data : List UInt8
  deriving DecidableEq

abbrev MdbxByteWriter := StateT (List UInt8) (Except Error)

namespace MdbxByteWriter

def pushBytes (code : List UInt8) : MdbxByteWriter Unit :=
  fun out => .ok ((), out ++ code)

def writeU8 (value : UInt8) : MdbxByteWriter Unit :=
  pushBytes [value]

def writeU32 (value : UInt32) : MdbxByteWriter Unit :=
  pushBytes (bigEndian value.toBitVec 4)

def writeU64 (value : UInt64) : MdbxByteWriter Unit :=
  pushBytes (bigEndian value.toBitVec 8)

def writeI64 (value : Int64) : MdbxByteWriter Unit :=
  writeU64 value.toUInt64

def writeString (value : List UInt8) : MdbxByteWriter Unit := do
  if 2 ^ 32 - 1 < value.length then
    throw (.lengthError "MdbxLogger: string field is too large")
  else
    writeU32 (UInt32.ofNat value.length)
    pushBytes value

def bytes (out : MdbxByteWriter Unit) : Except Error (List UInt8) :=
  match out [] with
  | .ok (_, code) => .ok code
  | .error e => .error e

end MdbxByteWriter

/--
The arguments `(data, size)` of a reader. All bytes that `data` points to may be read.
-/
inductive ByteRange where
  | null (size : Nat)
  | data (content : List UInt8)

abbrev MdbxByteReader := CursorM Error

namespace MdbxByteReader

def require (size : Nat) : MdbxByteReader Unit :=
  CursorM.require size (.runtimeError "MdbxLogger: corrupted serialized value")

def readU8 : MdbxByteReader UInt8 := do
  require 1
  CursorM.next .outOfRange

def readU32 : MdbxByteReader UInt32 := do
  require 4
  let value ← CursorM.nextWord .outOfRange 4 0#32
  return UInt32.ofBitVec value

def readU64 : MdbxByteReader UInt64 := do
  require 8
  let value ← CursorM.nextWord .outOfRange 8 0#64
  return UInt64.ofBitVec value

def readI64 : MdbxByteReader Int64 := do
  let bits ← readU64
  return bits.toInt64

def readString : MdbxByteReader (List UInt8) := do
  let size ← readU32
  require size.toNat
  CursorM.nextBytes .outOfRange size.toNat

def finish : MdbxByteReader Unit :=
  CursorM.finish (.runtimeError "MdbxLogger: trailing bytes in serialized value")

def run {α : Type} (range : ByteRange) (reader : MdbxByteReader α) : Except Error α :=
  match range with
  | .null 0 => (·.1) <$> reader ⟨[], 0⟩
  | .null (_ + 1) => .error (.runtimeError "MdbxLogger: null serialized value")
  | .data content => (·.1) <$> reader ⟨content, 0⟩

end MdbxByteReader

open MdbxByteWriter MdbxByteReader

def serializeSession (s : Session) : Except Error (List UInt8) :=
  MdbxByteWriter.bytes do
    writeU32 1
    writeString s.appName
    writeI64 s.startTimeMs
    writeI64 s.endTimeMs
    writeU64 s.processId
    writeU32 s.schemaVersion

def deserializeSession (range : ByteRange) : Except Error Session :=
  MdbxByteReader.run range do
    let version ← readU32
    if version ≠ 1 then
      throw (.readException .unsupportedVersion "MdbxLogger: unsupported session value version")
    else
      let appName ← readString
      let startTimeMs ← readI64
      let endTimeMs ← readI64
      let processId ← readU64
      let schemaVersion ← readU32
      finish
      return { appName, startTimeMs, endTimeMs, processId, schemaVersion }

def serializeRecord (r : Record) : Except Error (List UInt8) :=
  MdbxByteWriter.bytes do
    writeU32 1
    writeU64 r.sessionId
    writeI64 r.timestampMs
    writeU32 r.sequence
    writeU32 r.level.value.toUInt32
    writeString r.message
    writeU64 r.payloadId
    writeString r.file
    writeString r.function
    writeI64 r.line.toInt64

def deserializeRecord (range : ByteRange) : Except Error Record :=
  MdbxByteReader.run range do
    let version ← readU32
    if version ≠ 1 then
      throw (.readException .unsupportedVersion "MdbxLogger: unsupported record value version")
    else
      let sessionId ← readU64
      let timestampMs ← readI64
      let sequence ← readU32
      let level ← readU32
      let message ← readString
      let payloadId ← readU64
      let file ← readString
      let function ← readString
      let line ← readI64
      finish
      return {
        sessionId, timestampMs, sequence, level := ⟨level.toInt32⟩, message, payloadId, file,
        function, line := line.toInt32
      }

def serializePayload (p : Payload) : Except Error (List UInt8) :=
  MdbxByteWriter.bytes do
    writeU32 1
    writeU64 p.payloadId
    writeU8 p.compression.toUInt8
    writeString p.data

def deserializePayload (range : ByteRange) : Except Error Payload :=
  MdbxByteReader.run range do
    let version ← readU32
    if version ≠ 1 then
      throw (.readException .unsupportedVersion "MdbxLogger: unsupported payload value version")
    else
      let payloadId ← readU64
      let compression ← readU8
      if MdbxPayloadCompression.zstd.toUInt8 < compression then
        throw (.readException .decodeError "MdbxLogger: unsupported payload compression")
      else
        let data ← readString
        finish
        return { payloadId, compression := .ofUInt8 compression, data }

end LogIt.MdbxLogger
