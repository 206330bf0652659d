import Mathlib.Data.List.Basic
import Mathlib.Data.UInt

/-!
This module contains the names that the `FileLogger` gives to its files and what it reads from them.
All files are in one directory.
-/

namespace LogIt.FileLogger

abbrev Name : Type := List Char

inductive RotationNaming where
  | sequence
  | timestamp
  | timestampMs
  deriving DecidableEq

inductive CompressType where
  | none
  | gzip
  | zstd
  | externalCmd
  deriving DecidableEq

def decimal (n : Nat) : Name :=
  Nat.toDigits 10 n

def padded (width : Nat) (n : Nat) : Name :=
  (decimal n).leftpad width '0'

def isSpace (c : Char) : Bool :=
  c = ' ' || (9 ≤ c.toNat && c.toNat ≤ 13)

/--
It reads as many digits as there are and saturates.
-/
def strtoll (s : Name) : Int :=
  match s.dropWhile isSpace with
  | '-' :: s => max (-(digits s : Int)) (-2 ^ 63)
  | '+' :: s => min (digits s : Int) (2 ^ 63 - 1)
  | s => min (digits s : Int) (2 ^ 63 - 1)
where
  digits (s : Name) : Nat := Nat.ofDigitChars 10 (s.takeWhile Char.isDigit) 0

/--
The value of `strtol` in 32 bits.
-/
def atoi (s : Name) : Int :=
  (BitVec.ofInt 32 (strtoll s)).toInt

def logSuffix : Name := ['.', 'l', 'o', 'g']
def gzSuffix : Name := ['.', 'g', 'z']
def zstSuffix : Name := ['.', 'z', 's', 't']
def tmpSuffix : Name := ['.', 't', 'm', 'p']

/--
The width is an `int`, of which a negative one does not pad.
-/
def sequenceName (seqWidth : UInt32) (base : Name) (idx : UInt32) : Name :=
  base ++ '.' :: padded seqWidth.toInt32.toNatClampNeg idx.toNat ++ logSuffix

def timestampName (base timepart : Name) : Name :=
  base ++ '_' :: timepart ++ logSuffix

def timestampIdxName (base timepart : Name) (idx : UInt32) : Name :=
  base ++ '_' :: timepart ++ '.' :: decimal idx.toNat ++ logSuffix

def hhmmss (sec : Nat) : Name :=
  padded 2 (sec % 86400 / 3600) ++ padded 2 (sec % 3600 / 60) ++ padded 2 (sec % 60)

def timePart (naming : RotationNaming) (sec tsMs : Nat) : Name :=
  match naming with
  | .timestampMs => hhmmss sec ++ padded 3 (tsMs % 1000)
  | _ => hhmmss sec

def extract (base name : Name) : Int × Int :=
  match name.drop base.length with
  | [] => (0, 0)
  | c :: rest =>
    if c = '_' ∨ c = '.' then
      let ts := strtoll (rest.takeWhile (· ≠ '.'))
      match rest.dropWhile (· ≠ '.') with
      | [] => (ts, 0)
      | _ :: rest =>
        if '.' ∈ rest then
          (ts, atoi (rest.takeWhile (· ≠ '.')))
        else
          (ts, 0)
    else
      (0, 0)

def sortsBefore (base a b : Name) : Prop :=
  let pa := extract base a
  let pb := extract base b
  if pa.1 = pb.1 then pa.2 < pb.2 else pa.1 < pb.1

instance (base a b : Name) : Decidable (sortsBefore base a b) := by
  unfold sortsBefore
  infer_instance

def stripCompressionSuffix (filename : Name) : Name :=
  if gzSuffix.isSuffixOf filename then
    filename.take (filename.length - 3)
  else if zstSuffix.isSuffixOf filename then
    filename.take (filename.length - 4)
  else
    filename

/--
The pattern `\d{4}-\d{2}-\d{2}`.
-/
def isDate (s : Name) : Bool :=
  match s with
  | [y1, y2, y3, y4, '-', m1, m2, '-', d1, d2] => [y1, y2, y3, y4, m1, m2, d1, d2].all Char.isDigit
  | _ => false

/--
The pattern `\.\d+\.log`.
-/
def isIndexed (s : Name) : Bool :=
  match s with
  | '.' :: s => !(s.takeWhile Char.isDigit).isEmpty && s.dropWhile Char.isDigit == logSuffix
  | _ => false

/--
The pattern `_\d{6}(\d{3})?(\.\d+)?\.log`.
-/
def isTimestamp (s : Name) : Bool :=
  match s with
  | '_' :: s =>
    let digits := s.takeWhile Char.isDigit
    let rest := s.dropWhile Char.isDigit
    (digits.length == 6 || digits.length == 9) && (rest == logSuffix || isIndexed rest)
  | _ => false

def isValidLogFilename (filename : Name) : Bool :=
  let plainName := stripCompressionSuffix filename
  let rest := plainName.drop 10
  isDate (plainName.take 10) && (rest == logSuffix || isIndexed rest || isTimestamp rest)

/--
The functions of `time_shield` for any time stamp.
-/
structure Calendar where
  dayOf : Int → Int
  date : Int → Name
  ts : Name → Int

/--
A date that the logger recognises in a name is read back as its day.
-/
structure Calendar.Dated (C : Calendar) (day : Int) : Prop where
  plain : ∀ c ∈ C.date day, c.isDigit = true ∨ c = '-'
  ts_eq : isValidLogFilename (C.date day ++ logSuffix) = true →
    C.ts ((C.date day ++ logSuffix).take 10) = day

instance (C : Calendar) (day : Int) : Decidable (C.Dated day) :=
  haveI : Decidable (∀ c ∈ C.date day, c.isDigit = true ∨ c = '-') := List.decidableBAll _ _
  decidable_of_iff ((∀ c ∈ C.date day, c.isDigit = true ∨ c = '-') ∧
    (isValidLogFilename (C.date day ++ logSuffix) = true →
      C.ts ((C.date day ++ logSuffix).take 10) = day))
    ⟨fun h => ⟨h.1, h.2⟩, fun h => ⟨h.plain, h.ts_eq⟩⟩

end LogIt.FileLogger
