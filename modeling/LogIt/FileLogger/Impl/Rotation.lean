import LogIt.FileLogger.Impl.Names
import LogIt.Lib.Directory
import LogIt.Lib.Numbering

/-!
This module contains what `write_log` does to the log directory. The calls of the file system
succeed, except for the renaming of a missing file, and compression runs in place.
-/

namespace LogIt.FileLogger

/--
The functions of `time_shield` that are called. The format of a date is left open.
-/
structure TimeShield where
  msToSec : Nat → Nat
  startOfDay : Nat → Nat
  toIso8601Date : Nat → Name
  ts : Name → Int
  msToSec_eq : ∀ ms, msToSec ms = ms / 1000
  startOfDay_eq : ∀ sec, startOfDay sec = sec - sec % 86400

/--
The date has ten characters and is read back as its day.
-/
structure TimeShield.Dated (T : TimeShield) (day : Nat) : Prop where
  length_eq : (T.toIso8601Date day).length = 10
  ts_eq : T.ts (T.toIso8601Date day) = day

namespace TimeShield

/--
Years begin in March, and eras of 400 years have the same number of days.
-/
def civilFromDays (days : Nat) : Nat × Nat × Nat :=
  let z := days + 719468
  let doe := z % 146097
  let yoe := (doe - doe / 1460 + doe / 36524 - doe / 146096) / 365
  let doy := doe - (365 * yoe + yoe / 4 - yoe / 100)
  let mp := (5 * doy + 2) / 153
  let m := if mp < 10 then mp + 3 else mp - 9
  let y := yoe + z / 146097 * 400
  (if m ≤ 2 then y + 1 else y, m, doy - (153 * mp + 2) / 5 + 1)

def daysFromCivil (year m d : Nat) : Nat :=
  let y := if m ≤ 2 then year - 1 else year
  let yoe := y % 400
  let mp := if m > 2 then m - 3 else m + 9
  let doy := (153 * mp + 2) / 5 + d - 1
  y / 400 * 146097 + (yoe * 365 + yoe / 4 - yoe / 100 + doy) - 719468

def gregorian : TimeShield where
  msToSec ms := ms / 1000
  startOfDay sec := sec - sec % 86400
  toIso8601Date sec :=
    let (y, m, d) := civilFromDays (sec / 86400)
    padded 4 y ++ '-' :: padded 2 m ++ '-' :: padded 2 d
  ts name :=
    let number := fun (s : Name) => Nat.ofDigitChars 10 s 0
    86400 * daysFromCivil (number (name.take 4)) (number ((name.drop 5).take 2))
      (number ((name.drop 8).take 2))
  msToSec_eq _ := rfl
  startOfDay_eq _ := rfl

def calendar (T : TimeShield) : Calendar where
  dayOf ms := T.startOfDay (T.msToSec ms.toNat)
  date day := T.toIso8601Date day.toNat
  ts := T.ts

end TimeShield

abbrev Dir : Type := Directory Name UInt8
abbrev LogFile : Type := Directory.File Name UInt8

/--
`externalCmd` is what the command does to the directory, given the name of the file to compress.
-/
structure Config where
  autoDeleteDays : Int := 30
  maxFileSizeBytes : UInt64 := 0
  maxRotatedFiles : UInt32 := 0
  compress : CompressType := .none
  externalCmd : Name → Dir → Dir := fun _ dir => dir
  naming : RotationNaming := .sequence
  seqWidth : UInt32 := 3

/--
`rotated` is history: the file that every rotation has left behind, with the content it had then.
-/
structure Logger where
  config : Config
  dir : Dir
  file : Option Name
  currentDateTs : Nat
  currentFileSize : UInt64
  rotated : List LogFile

inductive Failure where
  | renameFailed
  | noFreeName
  deriving DecidableEq

section Search

variable (config : Config) (base : Name) (dir : Dir)

def makeSequenceName : Option Name :=
  let taken := fun idx => decide (sequenceName config.seqWidth base idx ∈ dir)
  (freeIndex taken UInt32.size 1).map (sequenceName config.seqWidth base)

def makeTimestampName (T : TimeShield) (tsMs : Nat) : Option Name :=
  let timepart := timePart config.naming (T.msToSec tsMs) tsMs
  if timestampName base timepart ∈ dir then
    let taken := fun idx => decide (timestampIdxName base timepart idx ∈ dir)
    (freeIndex taken UInt32.size 1).map (timestampIdxName base timepart)
  else
    some (timestampName base timepart)

def makeRotatedName (T : TimeShield) (tsMs : Nat) : Option Name :=
  match config.naming with
  | .sequence => makeSequenceName config base dir
  | .timestamp | .timestampMs => makeTimestampName config base dir T tsMs

end Search

def CompressType.suffix (type : CompressType) : Name :=
  match type with
  | .gzip => gzSuffix
  | .zstd => zstSuffix
  | .none | .externalCmd => []

def compressFile (config : Config) (src : Name) (dir : Dir) : Dir :=
  match config.compress with
  | .none => dir
  | .externalCmd => config.externalCmd src dir
  | .gzip | .zstd => replace (src ++ config.compress.suffix)
where
  replace (dst : Name) : Dir :=
    let tmp := dst ++ tmpSuffix
    match dir.copy src tmp with
    | none => dir.remove tmp
    | some dir =>
      match dir.rename tmp dst with
      | none => dir.remove tmp
      | some dir => dir.remove src

def enforceRotationRetention (base : Name) (maxFiles : Nat) (dir : Dir) : Dir :=
  let files := dir.keys.filter (fun name => base.isPrefixOf name && name != base ++ logSuffix)
  if files.length ≤ maxFiles then
    dir
  else
    let files := files.insertionSort (fun a b => ¬ sortsBefore base b a)
    (files.take (files.length - maxFiles)).foldl Directory.remove dir

section Logger

variable (T : TimeShield)

def createFilePath (dateTs : Nat) : Name :=
  T.toIso8601Date dateTs ++ logSuffix

def openLogFile (l : Logger) (dateTs : Nat) : Logger :=
  let name := createFilePath T dateTs
  let dir := l.dir.openAppend name
  { l with
    dir
    file := some name
    currentDateTs := dateTs
    currentFileSize := UInt64.ofNat ((dir.lookup name).getD []).length
  }

def rotateCurrentFile (l : Logger) (tsMs : Nat) : Except Failure Logger :=
  let base := T.toIso8601Date l.currentDateTs
  let cur := base ++ logSuffix
  match makeRotatedName l.config base l.dir T tsMs with
  | none => .error .noFreeName
  | some rotated =>
    match l.dir.rename cur rotated with
    | none => .error .renameFailed
    | some dir =>
      let content := (l.dir.lookup cur).getD []
      let l := openLogFile T { l with dir, file := none } l.currentDateTs
      let dir := compressFile l.config rotated l.dir
      let dir :=
        if 0 < l.config.maxRotatedFiles then
          enforceRotationRetention base l.config.maxRotatedFiles.toNat dir
        else
          dir
      .ok { l with
        dir
        currentFileSize := 0
        rotated := l.rotated ++ [⟨rotated ++ l.config.compress.suffix, content⟩]
      }

def removeOldLogs (l : Logger) : Logger :=
  let thresholdTs : Int := l.currentDateTs - 86400 * l.config.autoDeleteDays
  let old := l.dir.keys.filter
    (fun name => isValidLogFilename name && decide (T.ts (name.take 10) < thresholdTs))
  { l with dir := old.foldl Directory.remove l.dir }

structure Call where
  message : List UInt8
  timestampMs : Nat
  tsMs : Nat

def Call.line (call : Call) : List UInt8 :=
  call.message ++ [10]

def Call.add (call : Call) : UInt64 :=
  UInt64.ofNat (call.message.length + 1)

def writeMessage (l : Logger) (call : Call) : Logger :=
  match l.file with
  | some name =>
    { l with
      dir := l.dir.append name call.line
      currentFileSize := l.currentFileSize + call.add
    }
  | none => l

def rotates (config : Config) (currentFileSize : UInt64) (call : Call) : Prop :=
  0 < config.maxFileSizeBytes ∧ config.maxFileSizeBytes < currentFileSize + call.add

instance (config : Config) (currentFileSize : UInt64) (call : Call)
    : Decidable (rotates config currentFileSize call) := by
  unfold rotates
  infer_instance

def writeLog (l : Logger) (call : Call) : Except Failure Logger :=
  let messageDateTs := T.startOfDay (T.msToSec call.timestampMs)
  let l :=
    if messageDateTs ≠ l.currentDateTs then
      openLogFile T l messageDateTs
    else
      l
  let rotated :=
    if rotates l.config l.currentFileSize call then
      rotateCurrentFile T l call.tsMs
    else
      .ok l
  rotated.map (fun l => removeOldLogs T (writeMessage l call))

def startLogging (config : Config) (tsMs : Nat) : Logger :=
  let l : Logger := {
    config
    dir := ∅
    file := none
    currentDateTs := 0
    currentFileSize := 0
    rotated := []
  }
  removeOldLogs T (openLogFile T l (T.startOfDay (T.msToSec tsMs)))

def writeLogs (l : Logger) (calls : List Call) : Except Failure Logger :=
  match calls with
  | [] => .ok l
  | call :: calls =>
    match writeLog T l call with
    | .ok l => writeLogs l calls
    | .error e => .error e

def Logger.rotatedFiles (l : Logger) : List LogFile :=
  l.dir.entries.filter (fun file => file.1 ≠ createFilePath T l.currentDateTs)

end Logger
end LogIt.FileLogger
