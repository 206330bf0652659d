import LogIt.FileLogger.Impl.Rotation
import LogIt.Formatter.Impl.Instruction

/-!
This module contains the files of the `UniqueFileLogger`. All of them are in one directory, and the
calls of the file system succeed.
-/

namespace LogIt.UniqueFileLogger

open FileLogger (Name Dir padded logSuffix stripCompressionSuffix)
open Formatter (DateTime decimal)

/--
The functions of `time_shield` that are called. What `ts` makes of a date is left open.
-/
structure TimeShield where
  toDateTimeMs : Int → DateTime
  msToSec : Int → Int
  ts : Name → Int
  msToSec_eq : ∀ ms, msToSec ms = ms / 1000

def TimeShield.gregorian : TimeShield where
  toDateTimeMs ms :=
    let sec := ms.toNat / 1000
    let (y, m, d) := FileLogger.TimeShield.civilFromDays (sec / 86400)
    { year := y
      mon := m
      day := d
      hour := (sec % 86400 / 3600 : Nat)
      min := (sec % 3600 / 60 : Nat)
      sec := (sec % 60 : Nat)
      ms := (ms.toNat % 1000 : Nat) }
  msToSec ms := ms / 1000
  ts := FileLogger.TimeShield.gregorian.ts
  msToSec_eq _ := rfl

def precision (digits : Nat) (n : Int) : Name :=
  if n < 0 then '-' :: padded digits n.natAbs else padded digits n.natAbs

/--
The buffer has 32 bytes, of which the last one ends the text.
-/
def formatTimestamp (T : TimeShield) (tsMs : Int) : Name :=
  let dt := T.toDateTimeMs tsMs
  let text := decimal dt.year ++ '-' :: precision 2 dt.mon ++ '-' :: precision 2 dt.day
    ++ '_' :: precision 2 dt.hour ++ '-' :: precision 2 dt.min ++ '-' :: precision 2 dt.sec
    ++ '-' :: precision 3 dt.ms
  text.take 31

def charset : List Char :=
  "0123456789ABCDEFGHIJKLMNOPQRSTUVWXYZabcdefghijklmnopqrstuvwxyz".toList

def generateFixedLengthHash (draw : Nat → Fin charset.length) (length : Nat) : Name :=
  (List.range length).map (fun i => charset.get (draw i))

def createUniqueFilePath (T : TimeShield) (hashLength : Nat) (draw : Nat → Fin charset.length)
    (tsMs : Int) : Name :=
  formatTimestamp T tsMs ++ '-' :: generateFixedLengthHash draw hashLength ++ logSuffix

def isLabelChar (c : Char) : Bool :=
  c.isAlphanum || c = '-' || c = '_'

def dropFields (fields : List (Nat × Char)) (s : Name) : Option Name :=
  match fields with
  | [] => some s
  | (n, c) :: fields =>
    if (s.take n).length = n ∧ (s.take n).all Char.isDigit ∧ (s.drop n).head? = some c then
      dropFields fields (s.drop (n + 1))
    else
      none

def timestampFields : List (Nat × Char) :=
  [(4, '-'), (2, '-'), (2, '_'), (2, '-'), (2, '-'), (2, '-'), (3, '-')]

def isValidLogFilename (filename : Name) : Bool :=
  match dropFields timestampFields (stripCompressionSuffix filename) with
  | some s => !(s.takeWhile isLabelChar).isEmpty && s.dropWhile isLabelChar == logSuffix
  | none => false

structure Write where
  message : List UInt8
  timestampMs : Int
  draw : Nat → Fin charset.length

def Write.name (T : TimeShield) (hashLength : Nat) (w : Write) : Name :=
  createUniqueFilePath T hashLength w.draw w.timestampMs

def writeLog (T : TimeShield) (hashLength : Nat) (dir : Dir) (w : Write) : Dir :=
  dir.insert (w.name T hashLength) w.message

def removeOldLogs (T : TimeShield) (autoDeleteDays : Int) (nowMs : Int) (dir : Dir) : Dir :=
  let thresholdTs := T.msToSec nowMs - autoDeleteDays * 86400
  let old := dir.keys.filter
    (fun name => isValidLogFilename name && decide (T.ts (name.take 10) < thresholdTs))
  old.foldl Directory.remove dir

end LogIt.UniqueFileLogger
