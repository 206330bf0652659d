import Mathlib.Logic.Function.Basic
import LogIt.Lib.Fallible
import LogIt.Lib.Table
import LogIt.Mdbx.Impl.Codec

/-!
This module contains what `MdbxLogger` does with its tables. A transaction works on a copy of them,
while what is in the memory of the logger keeps its value when the transaction fails. The tables
hold values instead of their serializations.
-/

namespace LogIt.MdbxLogger

instance lawfulOrderLTBytes : Std.LawfulOrderLT (List UInt8) :=
  inferInstance

inductive Thrown where
  | std (what : String)
  | other
  deriving DecidableEq

/--
`compress` is what the compression library makes of a message with the configured method and level.
`reportsErrors` says that there is an `on_error`.
-/
structure Config where
  appName : List UInt8
  sessionId : UInt64
  dropOnOverflow : Bool
  maxQueueSize : Nat
  maxBatchSize : Nat
  largePayloadThreshold : Nat
  payloadPreviewSize : Nat
  storeLargePayloadsSeparately : Bool
  payloadCompression : MdbxPayloadCompression
  compress : List UInt8 → List UInt8
  reportsErrors : Bool

def Config.default : Config where
  appName := []
  sessionId := 0
  dropOnOverflow := true
  maxQueueSize := 8192
  maxBatchSize := 256
  largePayloadThreshold := 4096
  payloadPreviewSize := 512
  storeLargePayloadsSeparately := true
  payloadCompression := .none
  compress := id
  reportsErrors := false

def Config.normalize (cfg : Config) : Config :=
  if cfg.maxBatchSize = 0 then
    { cfg with maxBatchSize := 1 }
  else
    cfg

structure MdbxLogItem where
  level : LogLevel
  timestampMs : Int64
  file : List UInt8
  function : List UInt8
  line : Int32
  message : List UInt8
  deriving DecidableEq

def makeMdbxRecordKey (timestampMs : Int64) (sequence : UInt32) : List UInt8 :=
  let sortableTs := timestampMs.toUInt64 ^^^ 0x8000000000000000
  bigEndian sortableTs.toBitVec 8 ++ bigEndian sequence.toBitVec 4

structure Tables where
  sessions : Table UInt64 Session
  records : Table (List UInt8) Record
  payloads : Table UInt64 Payload

def Tables.empty : Tables :=
  ⟨.empty, .empty, .empty⟩

/--
What a call gets from outside: the exception of the database, the time, the counter of the ids, the
id of the process and whether a compression fails.
-/
structure Answer where
  throws : Option Thrown
  clock : Int64
  counter : UInt64
  processId : UInt64
  compressionFails : Bool

abbrev World := Nat → Answer

/--
`compressionFailures` is history.
-/
structure Store where
  tables : Tables
  nextSequenceByTimestamp : Int64 → Option UInt32
  sessionId : UInt64
  failedWrites : Nat
  compressionFailures : Nat

structure Txn extends Store where
  world : World
  calls : Nat

abbrev TxnM := Fallible Thrown Txn

structure TableRef (κ ν : Type) [LT κ] where
  content : Tables → Table κ ν
  replace : Tables → Table κ ν → Tables
  serialize : ν → Except Error (List UInt8)
  deserialize : ByteRange → Except Error ν

def sessions : TableRef UInt64 Session where
  content := Tables.sessions
  replace tables sessions := { tables with sessions := sessions }
  serialize := serializeSession
  deserialize := deserializeSession

def records : TableRef (List UInt8) Record where
  content := Tables.records
  replace tables records := { tables with records := records }
  serialize := serializeRecord
  deserialize := deserializeRecord

def payloads : TableRef UInt64 Payload where
  content := Tables.payloads
  replace tables payloads := { tables with payloads := payloads }
  serialize := serializePayload
  deserialize := deserializePayload

def call : TxnM Answer := do
  let txn ← get
  modify (fun txn => { txn with calls := txn.calls + 1 })
  return txn.world txn.calls

def Error.thrown (e : Error) : Thrown :=
  match e with
  | .lengthError message => .std message
  | .runtimeError message => .std message
  | .readException _ message => .std message
  | .outOfRange => .other

def access : TxnM Unit := do
  let answer ← call
  match answer.throws with
  | some e => throw e
  | none => return ()

namespace TableRef

variable {κ ν : Type} [LT κ] (table : TableRef κ ν)

def clear : TxnM Unit := do
  access
  modify (fun txn => { txn with tables := table.replace txn.tables .empty })

def count : TxnM Nat := do
  access
  let txn ← get
  return (table.content txn.tables).count

def checkSerialize (value : ν) : TxnM Unit :=
  match table.serialize value with
  | .ok _ => return ()
  | .error e => throw e.thrown

variable [DecidableEq κ]

def find? (key : κ) : TxnM (Option ν) := do
  access
  let txn ← get
  return (table.content txn.tables).find? key

def contains (key : κ) : TxnM Bool := do
  access
  let txn ← get
  return (table.content txn.tables).contains key

variable [LE κ] [DecidableLT κ] [Std.IsLinearOrder κ] [Std.LawfulOrderLT κ]

def insertOrAssign (key : κ) (value : ν) : TxnM Unit := do
  access
  table.checkSerialize value
  modify (fun txn =>
    { txn with tables := table.replace txn.tables ((table.content txn.tables).assign key value) })

def insert (key : κ) (value : ν) : TxnM Bool := do
  access
  table.checkSerialize value
  let txn ← get
  if (table.content txn.tables).contains key then
    return false
  else
    modify (fun txn =>
      { txn with tables := table.replace txn.tables ((table.content txn.tables).assign key value) })
    return true

end TableRef

def makeUniqueId : TxnM UInt64 := do
  let answer ← call
  let n := answer.counter &&& 0xFFFF
  let id := (answer.clock.toUInt64 <<< 16) ^^^ (answer.processId <<< 1) ^^^ n
  return if id = 0 then n + 1 else id

def currentTimestampMs : TxnM Int64 := do
  let answer ← call
  return answer.clock

def currentProcessId : TxnM UInt64 := do
  let answer ← call
  return answer.processId

def allocatePayloadId (attempts : Nat) : TxnM UInt64 := do
  match attempts with
  | 0 => throw (.std "MdbxLogger: failed to allocate unique payload id")
  | attempts + 1 =>
    let candidate ← makeUniqueId
    if ← payloads.contains candidate then
      allocatePayloadId attempts
    else
      return candidate

def allocatePayloadIdLocked : TxnM UInt64 :=
  allocatePayloadId 1024

def shouldSpillPayload (cfg : Config) (message : List UInt8) : Bool :=
  cfg.storeLargePayloadsSeparately && decide (cfg.largePayloadThreshold < message.length)

def makePayloadPreview (cfg : Config) (message : List UInt8) : List UInt8 :=
  message.take (min message.length cfg.payloadPreviewSize)

def fillPayload (cfg : Config) (message : List UInt8) (payloadId : UInt64) : TxnM Payload := do
  if cfg.payloadCompression = .none then
    return ⟨payloadId, .none, message⟩
  else
    let answer ← call
    if answer.compressionFails then
      modify (fun txn =>
        { txn with
          failedWrites := txn.failedWrites + 1
          compressionFailures := txn.compressionFailures + 1
        })
      return ⟨payloadId, .none, message⟩
    else
      return ⟨payloadId, cfg.payloadCompression, cfg.compress message⟩

def setNextSequence (timestampMs : Int64) (sequence : UInt32) : TxnM Unit :=
  modify (fun txn =>
    { txn with
      nextSequenceByTimestamp :=
        Function.update txn.nextSequenceByTimestamp timestampMs (some sequence)
    })

def maxSequence : UInt32 :=
  0xFFFFFFFF

/--
There are `remaining` numbers above `candidate`.
-/
def nextSequenceFrom (timestampMs : Int64) (remaining : Nat) (candidate : UInt32)
    : TxnM UInt32 := do
  if ← records.contains (makeMdbxRecordKey timestampMs candidate) then
    match remaining with
    | 0 => throw (.std "MdbxLogger: sequence exhausted for timestamp")
    | remaining + 1 => nextSequenceFrom timestampMs remaining (candidate + 1)
  else
    setNextSequence timestampMs (if candidate ≠ maxSequence then candidate + 1 else candidate)
    return candidate

def nextRecordKeyLocked (timestampMs : Int64) : TxnM UInt32 := do
  let txn ← get
  let candidate := (txn.nextSequenceByTimestamp timestampMs).getD 0
  nextSequenceFrom timestampMs (maxSequence.toNat - candidate.toNat) candidate

def advanceSequenceAfterCollision (timestampMs : Int64) (sequence : UInt32) : TxnM Unit := do
  if sequence = maxSequence then
    throw (.std "MdbxLogger: sequence exhausted for timestamp")
  else
    setNextSequence timestampMs (sequence + 1)

/--
Each round takes a larger number, so there are not more rounds than numbers.
-/
def insertRecord (attempts : Nat) (record : Record) : TxnM Record := do
  match attempts with
  | 0 => throw (.std "MdbxLogger: sequence exhausted for timestamp")
  | attempts + 1 =>
    let sequence ← nextRecordKeyLocked record.timestampMs
    let record := { record with sequence := sequence }
    if ← records.insert (makeMdbxRecordKey record.timestampMs sequence) record then
      return record
    else
      advanceSequenceAfterCollision record.timestampMs sequence
      insertRecord attempts record

/--
The payload is history.
-/
structure Written where
  record : Record
  payload : Option Payload
  deriving DecidableEq

def writeItemLocked (cfg : Config) (item : MdbxLogItem) : TxnM Written := do
  let txn ← get
  let record : Record := {
    sessionId := txn.sessionId
    timestampMs := item.timestampMs
    sequence := 0
    level := item.level
    message := item.message
    payloadId := 0
    file := item.file
    function := item.function
    line := item.line
  }
  if shouldSpillPayload cfg item.message then
    let payloadId ← allocatePayloadIdLocked
    let payload ← fillPayload cfg item.message payloadId
    let _ ← payloads.insert payload.payloadId payload
    let record ← insertRecord (2 ^ 32)
      { record with payloadId := payload.payloadId, message := makePayloadPreview cfg item.message }
    return ⟨record, some payload⟩
  else
    let record ← insertRecord (2 ^ 32) record
    return ⟨record, none⟩

def writeItemsLocked (cfg : Config) (batch : List MdbxLogItem) : TxnM (List Written) := do
  match batch with
  | [] => return []
  | item :: batch =>
    let written ← writeItemLocked cfg item
    let rest ← writeItemsLocked cfg batch
    return written :: rest

def transaction {α : Type} (body : TxnM α) (world : World) (store : Store)
    : Except Thrown α × Store :=
  let program : TxnM α := do
    access
    let result ← body
    access
    return result
  match program.exec { store with world := world, calls := 0 } with
  | (.ok result, txn) => (.ok result, txn.toStore)
  | (.error e, txn) => (.error e, { txn.toStore with tables := store.tables })

def writeBatch (cfg : Config) (batch : List MdbxLogItem) (world : World) (store : Store)
    : Except Thrown (List Written) × Store :=
  match transaction (writeItemsLocked cfg batch) world store with
  | (.ok written, store) => (.ok written, store)
  | (.error e, store) => (.error e, { store with failedWrites := store.failedWrites + 1 })

def newSession (cfg : Config) (nowMs : Int64) (pid : UInt64) : Session where
  appName := cfg.appName
  startTimeMs := nowMs
  endTimeMs := 0
  processId := pid
  schemaVersion := 1

def resumeSession (cfg : Config) (nowMs : Int64) (pid : UInt64) (session : Session) : Session where
  appName := if cfg.appName.isEmpty then session.appName else cfg.appName
  startTimeMs := if session.startTimeMs = 0 then nowMs else session.startTimeMs
  endTimeMs := 0
  processId := pid
  schemaVersion := 1

def allocateSessionId (session : Session) (attempts : Nat) : TxnM UInt64 := do
  match attempts with
  | 0 => throw (.std "MdbxLogger: failed to allocate unique session id")
  | attempts + 1 =>
    let candidate ← makeUniqueId
    if ← sessions.insert candidate session then
      return candidate
    else
      allocateSessionId session attempts

def openSession (cfg : Config) : TxnM UInt64 := do
  let nowMs ← currentTimestampMs
  let pid ← currentProcessId
  if cfg.sessionId ≠ 0 then
    match ← sessions.find? cfg.sessionId with
    | some session => sessions.insertOrAssign cfg.sessionId (resumeSession cfg nowMs pid session)
    | none => sessions.insertOrAssign cfg.sessionId (newSession cfg nowMs pid)
    return cfg.sessionId
  else
    allocateSessionId (newSession cfg nowMs pid) 1024

def updateSessionEnd (cfg : Config) : TxnM Unit := do
  let txn ← get
  let session ← do
    match ← sessions.find? txn.sessionId with
    | some session => pure session
    | none =>
      let nowMs ← currentTimestampMs
      let pid ← currentProcessId
      pure (newSession cfg nowMs pid)
  let endTimeMs ← currentTimestampMs
  sessions.insertOrAssign txn.sessionId { session with endTimeMs := endTimeMs }

structure LogClearOptions where
  includePersistentRecords : Bool
  includePayloads : Bool
  includeSessions : Bool
  deriving DecidableEq

def clearRecords (options : LogClearOptions) : TxnM Nat := do
  if options.includePersistentRecords then
    let clearedRecords ← records.count
    records.clear
    return clearedRecords
  else
    return 0

def clearPayloads (options : LogClearOptions) : TxnM Unit := do
  if options.includePayloads then
    payloads.clear
  else
    return ()

def clearSessions (cfg : Config) (options : LogClearOptions) : TxnM Unit := do
  if options.includeSessions then
    sessions.clear
    let nowMs ← currentTimestampMs
    let pid ← currentProcessId
    let sessionId ← makeUniqueId
    modify (fun txn => { txn with sessionId := sessionId })
    sessions.insertOrAssign sessionId (newSession cfg nowMs pid)
  else
    return ()

def clearTables (cfg : Config) (options : LogClearOptions) : TxnM Nat := do
  let clearedRecords ← clearRecords options
  clearPayloads options
  clearSessions cfg options
  return clearedRecords

structure LogRecordSnapshot where
  sessionId : UInt64
  timestampMs : Int64
  sequence : UInt32
  level : LogLevel
  message : List UInt8
  payloadId : UInt64
  file : List UInt8
  function : List UInt8
  line : Int32
  deriving DecidableEq

def toLogRecordSnapshot (record : Record) : LogRecordSnapshot where
  sessionId := record.sessionId
  timestampMs := record.timestampMs
  sequence := record.sequence
  level := record.level
  message := record.message
  payloadId := record.payloadId
  file := record.file
  function := record.function
  line := record.line

def readRange (tables : Tables) (fromMs toMs : Int64) (limit : Nat) : List LogRecordSnapshot :=
  if toMs ≤ fromMs then
    []
  else
    let fromKey := makeMdbxRecordKey fromMs 0
    let toKey := makeMdbxRecordKey (toMs - 1) maxSequence
    let found := (tables.records.range fromKey toKey).map (fun entry => toLogRecordSnapshot entry.2)
    if limit = 0 then found else found.take limit

end LogIt.MdbxLogger
