import LogIt.Lib.Lts
import LogIt.Mdbx.Impl.Reader

/-!
This module contains the `MemoryLogger`. Its calls are one step each. The clock is read by the
functions that have a parameter `nowMs`, and time stamps wrap around at 64 bits.
-/

namespace LogIt

open MdbxLogger (LogLevel LogReadResult LogRecordSnapshot)

namespace MemoryLogger

structure Config where
  maxRecords : UInt64 := 1000
  maxBytes : UInt64 := 1024 * 1024
  maxAgeMs : Int64 := 24 * 60 * 60 * 1000

structure LogRecord where
  logLevel : LogLevel
  timestampMs : Int64
  file : List UInt8
  line : Int32
  function : List UInt8
  rawMode : Bool

structure BufferedLogEntry where
  level : LogLevel
  timestampMs : Int64
  file : List UInt8
  line : Int32
  function : List UInt8
  message : List UInt8
  deriving DecidableEq

inductive LogReadOrder where
  | ascending
  | descending
  deriving DecidableEq

/--
`rest` are the entries behind the removed one.
-/
structure Removal where
  entry : BufferedLogEntry
  rest : List BufferedLogEntry
  nowMs : Int64
  deriving DecidableEq

/--
The fields from `accepted` on are history since the last `clear_logs`.
-/
structure Logger where
  entries : List BufferedLogEntry
  totalBytes : UInt64
  logLevel : LogLevel
  lastLogTs : Int64
  accepted : List BufferedLogEntry
  removed : List Removal

def mEntryBytes (entry : BufferedLogEntry) : UInt64 :=
  UInt64.ofNat entry.message.length

def storedBytes (entries : List BufferedLogEntry) : Nat :=
  (entries.map (fun entry => entry.message.length)).sum

def toSnapshot (e : BufferedLogEntry) : LogRecordSnapshot where
  sessionId := 0
  timestampMs := e.timestampMs
  sequence := 0
  level := e.level
  message := e.message
  payloadId := 0
  file := e.file
  function := e.function
  line := e.line

namespace Logger

def mPopFrontLocked (l : Logger) (nowMs : Int64) : Logger :=
  match l.entries with
  | [] => l
  | front :: rest =>
    { l with
      totalBytes := l.totalBytes - mEntryBytes front
      entries := rest
      removed := l.removed ++ [⟨front, rest, nowMs⟩]
    }

def popWhile (nowMs : Int64) (exceeds : Logger → Bool) (rounds : Nat) (l : Logger) : Logger :=
  match rounds with
  | 0 => l
  | rounds + 1 =>
    if exceeds l then
      (l.mPopFrontLocked nowMs).popWhile nowMs exceeds rounds
    else
      l

def frontBefore (cutoff : Int64) (l : Logger) : Bool :=
  match l.entries with
  | [] => false
  | front :: _ => decide (front.timestampMs < cutoff)

section

variable (config : Config) (l : Logger) (nowMs : Int64)

def mEvictExpiredLocked : Logger :=
  if config.maxAgeMs ≤ 0 then
    l
  else
    let cutoff := nowMs - config.maxAgeMs
    l.popWhile nowMs (frontBefore cutoff) l.entries.length

def enforceRecords : Logger :=
  if 0 < config.maxRecords then
    l.popWhile nowMs (fun l => decide (config.maxRecords.toNat < l.entries.length)) l.entries.length
  else
    l

def enforceBytes : Logger :=
  if 0 < config.maxBytes then
    l.popWhile nowMs (fun l => decide (config.maxBytes < l.totalBytes) && !l.entries.isEmpty)
      l.entries.length
  else
    l

def mEnforceLimitsLocked : Logger :=
  let l := l.mEvictExpiredLocked config nowMs
  let l := l.enforceRecords config nowMs
  l.enforceBytes config nowMs

end

def pushBack (l : Logger) (entry : BufferedLogEntry) : Logger :=
  { l with
    totalBytes := l.totalBytes + mEntryBytes entry
    entries := l.entries ++ [entry]
    lastLogTs := entry.timestampMs
    accepted := l.accepted ++ [entry]
  }

section

variable (config : Config) (l : Logger)

/--
The entry is copied before old ones are removed, so there is no memory for it if it does not fit
into the address space together with them.
-/
def log (record : LogRecord) (message : List UInt8) : Option Logger :=
  if !record.rawMode && decide (record.logLevel.value < l.logLevel.value) then
    some l
  else if 2 ^ 64 ≤ storedBytes l.entries + message.length then
    none
  else
    let entry : BufferedLogEntry := {
      level := record.logLevel
      timestampMs := record.timestampMs
      file := record.file
      line := record.line
      function := record.function
      message := message
    }
    let l := l.mEvictExpiredLocked config record.timestampMs
    let l := l.pushBack entry
    some (l.mEnforceLimitsLocked config record.timestampMs)

def getBufferedStrings (nowMs : Int64) : List (List UInt8) × Logger :=
  let l := l.mEvictExpiredLocked config nowMs
  (l.entries.map (fun entry => entry.message), l)

def getBufferedEntries (nowMs : Int64) : List BufferedLogEntry × Logger :=
  let l := l.mEvictExpiredLocked config nowMs
  (l.entries, l)

end

def collect (limit : Nat) (found : BufferedLogEntry → Bool) (entries : List BufferedLogEntry)
    : List LogRecordSnapshot :=
  let found := (entries.filter found).map toSnapshot
  if limit = 0 then found else found.take limit

section

variable (config : Config) (l : Logger) (fromMs toMs : Int64) (limit : Nat) (nowMs : Int64)

def readRange : List LogRecordSnapshot × Logger :=
  if toMs ≤ fromMs then
    ([], l)
  else
    let l := l.mEvictExpiredLocked config nowMs
    let found := collect limit
      (fun entry => decide (fromMs ≤ entry.timestampMs) && decide (entry.timestampMs < toMs)) l.entries
    (found, l)

def readRangeResult : LogReadResult (List LogRecordSnapshot) × Logger :=
  if toMs ≤ fromMs then
    (.ok [], l)
  else
    let l := l.mEvictExpiredLocked config nowMs
    let found := collect limit
      (fun entry => decide (fromMs ≤ entry.timestampMs) && decide (entry.timestampMs < toMs)) l.entries
    (.ok found, l)

/--
`read_range()` from C++17 on, while `readRange` is the one before.
-/
def readRangeCpp17 : List LogRecordSnapshot × Logger :=
  let result := l.readRangeResult config fromMs toMs limit nowMs
  (result.1.value.getD [], result.2)

end

def readRecent (config : Config) (l : Logger) (limit : Nat) (periodMs : Int64) (order : LogReadOrder)
    (nowMs nowMs' : Int64) : List LogRecordSnapshot × Logger :=
  let l := l.mEvictExpiredLocked config nowMs
  let fromMs := if 0 < periodMs then nowMs' - periodMs else 0
  let found := collect limit
    (fun entry => decide (periodMs ≤ 0) || decide (fromMs ≤ entry.timestampMs)) l.entries.reverse
  match order with
  | .ascending => (found.reverse, l)
  | .descending => (found, l)

def clearLogs (l : Logger) : Nat × Logger :=
  (l.entries.length,
    { l with entries := [], totalBytes := 0, lastLogTs := 0, accepted := [], removed := [] })

end Logger

inductive Action where
  | log (record : LogRecord) (message : List UInt8)
  | getBufferedStrings (nowMs : Int64)
  | getBufferedEntries (nowMs : Int64)
  | readRange (fromMs toMs : Int64) (limit : Nat) (nowMs : Int64)
  | readRecent (limit : Nat) (periodMs : Int64) (order : LogReadOrder) (nowMs nowMs' : Int64)
  | clearLogs
  | setLogLevel (level : LogLevel)

def step (config : Config) (l : Logger) (a : Action) : Option Logger :=
  match a with
  | .log record message => l.log config record message
  | .getBufferedStrings nowMs => some (l.getBufferedStrings config nowMs).2
  | .getBufferedEntries nowMs => some (l.getBufferedEntries config nowMs).2
  | .readRange fromMs toMs limit nowMs => some (l.readRange config fromMs toMs limit nowMs).2
  | .readRecent limit periodMs order nowMs nowMs' =>
    some (l.readRecent config limit periodMs order nowMs nowMs').2
  | .clearLogs => some l.clearLogs.2
  | .setLogLevel level => some { l with logLevel := level }

def init : Logger where
  entries := []
  totalBytes := 0
  logLevel := .trace
  lastLogTs := 0
  accepted := []
  removed := []

def system (config : Config) : Lts Logger Action where
  init := init
  step := step config

end MemoryLogger
end LogIt
