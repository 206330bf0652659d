import LogIt.FileLogger.Impl.Rotation
import LogIt.Lib.Fallible
import LogIt.Lib.Lts

/-!
This module contains `write_log` for time stamps of any day, a directory that need not be empty,
background compression, and calls of the file system that fail. The background compression of one
file is one step.
-/

namespace LogIt.FileLogger

structure Settings extends Config where
  compressAsync : Bool := false

/--
`queued` are the files still to be compressed in the background. `rotated` is history.
-/
structure Writer where
  dir : Dir
  file : Option Name := none
  currentDateTs : Int := 0
  currentFileSize : UInt64 := 0
  queued : List Name := []
  rotated : List LogFile := []

inductive WriteFailure where
  | openFailed
  | renameFailed
  | noFreeName
  deriving DecidableEq

abbrev WriterM : Type → Type :=
  Fallible WriteFailure Writer

/--
The calls that fail: opening the file of another day, renaming the current file, opening it again
after that, and compressing the rotated file.
-/
structure Faults where
  openFails : Bool := false
  renameFails : Bool := false
  reopenFails : Bool := false
  compressFails : Bool := false
  deriving DecidableEq

structure Write where
  message : List UInt8
  timestampMs : Int
  tsMs : Nat
  faults : Faults := {}

namespace Write

def line (write : Write) : List UInt8 :=
  write.message ++ [10]

def add (write : Write) : UInt64 :=
  UInt64.ofNat (write.message.length + 1)

def rotates (write : Write) (settings : Settings) (currentFileSize : UInt64) : Prop :=
  0 < settings.maxFileSizeBytes ∧ settings.maxFileSizeBytes < currentFileSize + write.add

instance (write : Write) (settings : Settings) (currentFileSize : UInt64)
    : Decidable (write.rotates settings currentFileSize) :=
  inferInstanceAs (Decidable (_ ∧ _))

end Write

namespace Writer

variable (T : TimeShield) (C : Calendar) (settings : Settings)

def createFilePath (dateTs : Int) : Name :=
  C.date dateTs ++ logSuffix

def opened (w : Writer) : Writer :=
  let name := createFilePath C w.currentDateTs
  let dir := w.dir.openAppend name
  { w with
    dir
    file := some name
    currentFileSize := UInt64.ofNat ((dir.lookup name).getD []).length
  }

def openLogFile (fails : Bool) (dateTs : Int) : WriterM Unit := do
  modify fun w => { w with file := none, currentDateTs := dateTs }
  if fails then
    throw .openFailed
  else
    modify (opened C)

def renamed (fails : Bool) (rotated : Name) (w : Writer) : Option Writer :=
  let cur := createFilePath C w.currentDateTs
  if fails then
    none
  else
    (w.dir.rename cur rotated).map fun dir =>
      { w with
        dir
        rotated := w.rotated ++ [⟨rotated, (w.dir.lookup cur).getD []⟩]
      }

def compressRotated (fails : Bool) (rotated : Name) (w : Writer) : Writer :=
  if settings.compress = .none then
    w
  else if settings.compressAsync then
    { w with queued := w.queued ++ [rotated] }
  else if fails then
    w
  else
    { w with dir := compressFile settings.toConfig rotated w.dir }

def enforceRetention (w : Writer) : Writer :=
  if 0 < settings.maxRotatedFiles then
    { w with
      dir := enforceRotationRetention (C.date w.currentDateTs) settings.maxRotatedFiles.toNat w.dir
    }
  else
    w

def rotateCurrentFile (write : Write) : WriterM Unit := do
  modify fun w => { w with file := none }
  let w ← get
  match makeRotatedName settings.toConfig (C.date w.currentDateTs) w.dir T write.tsMs with
  | none => throw .noFreeName
  | some rotated =>
    match w.renamed C write.faults.renameFails rotated with
    | none => throw .renameFailed
    | some w' => do
      set w'
      openLogFile C write.faults.reopenFails w.currentDateTs
      modify fun w => { w with currentFileSize := 0 }
      modify (compressRotated settings write.faults.compressFails rotated)
      modify (enforceRetention C settings)

def writeMessage (write : Write) (w : Writer) : Writer :=
  match w.file with
  | some name =>
    { w with
      dir := w.dir.append name write.line
      currentFileSize := w.currentFileSize + write.add
    }
  | none => w

def removeOldLogs (w : Writer) : Writer :=
  let thresholdTs := w.currentDateTs - 86400 * settings.autoDeleteDays
  let old := w.dir.keys.filter
    (fun name => isValidLogFilename name && decide (C.ts (name.take 10) < thresholdTs))
  { w with dir := old.foldl Directory.remove w.dir }

def writeLog (write : Write) : WriterM Unit := do
  let w ← get
  if C.dayOf write.timestampMs ≠ w.currentDateTs then
    openLogFile C write.faults.openFails (C.dayOf write.timestampMs)
  let w ← get
  if write.rotates settings w.currentFileSize then
    rotateCurrentFile T C settings write
  modify (writeMessage write)
  modify (removeOldLogs C settings)

def startLogging (dir : Dir) (nowMs : Int) (fails : Bool) : Writer :=
  let start : WriterM Unit := do
    openLogFile C fails (C.dayOf nowMs)
    modify (removeOldLogs C settings)
  (start.exec { dir }).2

inductive Action where
  | write (write : Write)
  | compress (fails : Bool)

def step (w : Writer) (a : Action) : Option Writer :=
  match a with
  | .write write =>
    match (writeLog T C settings write).exec w with
    | (.error .noFreeName, _) => none
    | (_, w) => some w
  | .compress fails =>
    match w.queued with
    | [] => none
    | src :: queued =>
      let dir := if fails then w.dir else compressFile settings.toConfig src w.dir
      some { w with dir, queued }

def system (dir : Dir) (nowMs : Int) (fails : Bool) : Lts Writer Action where
  init := startLogging C settings dir nowMs fails
  step := step T C settings

end Writer
end LogIt.FileLogger
