import Mathlib.Algebra.Group.Int.Defs
import Mathlib.Algebra.Group.Nat.Defs
import Mathlib.Data.Int.Init
import Mathlib.Data.List.Basic

/-!
This module contains the instructions of a log pattern and what they write for a record.
-/

namespace LogIt.Formatter

abbrev Text : Type := List Char

inductive LogLevel where
  | trace
  | debug
  | info
  | warn
  | error
  | fatal
  deriving DecidableEq, Inhabited

def LogLevel.toString (level : LogLevel) : Text :=
  match level with
  | .trace => ['T', 'R', 'A', 'C', 'E']
  | .debug => ['D', 'E', 'B', 'U', 'G']
  | .info => ['I', 'N', 'F', 'O']
  | .warn => ['W', 'A', 'R', 'N']
  | .error => ['E', 'R', 'R', 'O', 'R']
  | .fatal => ['F', 'A', 'T', 'A', 'L']

def LogLevel.toStringShort (level : LogLevel) : Text :=
  level.toString.take 1

inductive TextColor where
  | black
  | darkRed
  | darkGreen
  | darkYellow
  | darkBlue
  | darkMagenta
  | darkCyan
  | lightGray
  | darkGray
  | red
  | green
  | yellow
  | blue
  | magenta
  | cyan
  | white
  deriving DecidableEq

def esc : Char :=
  '\x1b'

def TextColor.code (color : TextColor) : Text :=
  match color with
  | .black => ['3', '0']
  | .darkRed => ['3', '1']
  | .darkGreen => ['3', '2']
  | .darkYellow => ['3', '3']
  | .darkBlue => ['3', '4']
  | .darkMagenta => ['3', '5']
  | .darkCyan => ['3', '6']
  | .lightGray => ['3', '7']
  | .darkGray => ['9', '0']
  | .red => ['9', '1']
  | .green => ['9', '2']
  | .yellow => ['9', '3']
  | .blue => ['9', '4']
  | .magenta => ['9', '5']
  | .cyan => ['9', '6']
  | .white => ['9', '7']

def TextColor.toString (color : TextColor) : Text :=
  esc :: '[' :: color.code ++ ['m']

/--
The macros that the library is built with.
-/
structure Build where
  levelColor : LogLevel → TextColor
  defaultColor : TextColor
  withFmt : Bool

def Build.standard : Build where
  levelColor level :=
    match level with
    | .trace => .darkGray
    | .debug => .blue
    | .info => .green
    | .warn => .yellow
    | .error => .red
    | .fatal => .magenta
  defaultColor := .lightGray
  withFmt := false

def Build.getLogLevelColor (build : Build) (level : LogLevel) : Text :=
  (build.levelColor level).toString

inductive ValueType where
  | int8
  | uint8
  | int16
  | uint16
  | int32
  | uint32
  | int64
  | uint64
  | bool
  | char
  | float
  | double
  | longDouble
  | duration
  | timePoint
  | string
  | exception
  | errorCode
  | enum
  | path
  | pointer
  | smartPointer
  | variant
  | optional
  | unknown
  deriving DecidableEq

/--
What the functions of an argument give for a format.
-/
structure VariableValue where
  name : Text
  type : ValueType
  isLiteral : Bool
  toString : Text
  toStringWith : Text → Text
  toStringFmt : Text → Text

/--
The mapped context is in the order of its keys.
-/
structure LogContext where
  mdc : List (Text × Text)
  ndc : List Text

/--
The thread is given as the stream writes it. There is no context unless the library is built with
it.
-/
structure LogRecord where
  logLevel : LogLevel
  timestampMs : Int
  file : Text
  line : Int
  function : Text
  format : Text
  argsArray : List VariableValue
  threadId : Text
  printMode : Bool
  fmtMode : Bool
  context : Option LogContext
  deriving Inhabited

structure DateTime where
  year : Int
  mon : Int
  day : Int
  hour : Int
  min : Int
  sec : Int
  ms : Int
  deriving Inhabited

structure TimeShield where
  toDateTimeMs : Int → DateTime
  msToSec : Int → Int
  monthShort : Int → Text
  monthFull : Int → Text
  weekdayShort : Int → Int → Int → Text
  weekdayFull : Int → Int → Int → Text
  deriving Inhabited

def decimal (n : Int) : Text :=
  if n < 0 then
    '-' :: Nat.toDigits 10 n.natAbs
  else
    Nat.toDigits 10 n.natAbs

def zeroPadded (width : Nat) (n : Int) : Text :=
  (decimal n).leftpad width '0'

def twoDigits (n : Int) : Text :=
  if n < 0 then
    '-' :: (Nat.toDigits 10 n.natAbs).leftpad 2 '0'
  else
    (Nat.toDigits 10 n.natAbs).leftpad 2 '0'

def buffered (s : Text) : Text :=
  s.take 15

def sizeT (n : Int) : Nat :=
  (n % 2 ^ 64).toNat

inductive CompileContext where
  | default
  | noArgsFallback
  deriving DecidableEq

inductive FormatType where
  | staticText
  | year
  | month
  | day
  | hour
  | minute
  | second
  | millisecond
  | twoDigitYear
  | dateTime
  | shortDate
  | timeISO8601
  | dateISO8601
  | timeStamp
  | milliSecondTimeStamp
  | abbreviatedMonthName
  | fullMonthName
  | abbreviatedWeekdayName
  | fullWeekdayName
  | logLevel
  | shortLogLevel
  | fileName
  | fullFileName
  | sourceFileAndLine
  | lineNumber
  | functionName
  | threadId
  | mappedDiagnosticContext
  | mappedDiagnosticContextValue
  | nestedDiagnosticContext
  | startColor
  | endColor
  | message
  deriving DecidableEq

structure FormatInstruction where
  context : CompileContext
  type : FormatType
  staticText : Text
  width : Int
  leftAlign : Bool
  centerAlign : Bool
  truncate : Bool
  stripAnsi : Bool
  contextKey : Text
  deriving DecidableEq

def formattedArg (build : Build) (record : LogRecord) (arg : VariableValue) : Text :=
  let value := if build.withFmt && record.fmtMode then
      arg.toStringFmt record.format
    else
      arg.toStringWith record.format
  match arg.type with
  | .string | .exception | .errorCode | .enum | .duration | .timePoint | .pointer | .smartPointer
  | .variant | .optional => value
  | _ => if arg.isLiteral then arg.name ++ [':', ' '] ++ value else value

def plainArg (record : LogRecord) (arg : VariableValue) : Text :=
  let named := if record.printMode then arg.toString else arg.name ++ [':', ' '] ++ arg.toString
  match arg.type with
  | .string | .exception | .errorCode => arg.toString
  | .path | .duration | .timePoint | .pointer | .smartPointer | .variant | .optional => named
  | _ => if arg.isLiteral then named else arg.toString

def separator (record : LogRecord) : Text :=
  if record.printMode then [] else [',', ' ']

def message (build : Build) (record : LogRecord) : Text :=
  if record.format ≠ [] then
    if record.argsArray = [] then
      record.format
    else
      (separator record).intercalate (record.argsArray.map (formattedArg build record))
  else
    (separator record).intercalate (record.argsArray.map (plainArg record))

def isLetter (c : Char) : Bool :=
  ('a' ≤ c && c ≤ 'z') || ('A' ≤ c && c ≤ 'Z')

def removeFrom (inEscapeSequence : Bool) (input : Text) : Text :=
  match inEscapeSequence, input with
  | _, [] => []
  | true, c :: input => removeFrom (!isLetter c) input
  | false, '\x1b' :: '[' :: input => removeFrom true input
  | false, c :: input => c :: removeFrom false input

def removeAnsiEscapeCodes (input : Text) : Text :=
  removeFrom false input

namespace FormatInstruction

variable (build : Build) (time : TimeShield)

section

variable (i : FormatInstruction) (record : LogRecord)

def render (dt : DateTime) : Text :=
  match i.type with
  | .staticText => i.staticText
  | .year => decimal dt.year
  | .month => zeroPadded 2 dt.mon
  | .day => zeroPadded 2 dt.day
  | .hour => zeroPadded 2 dt.hour
  | .minute => zeroPadded 2 dt.min
  | .second => zeroPadded 2 dt.sec
  | .millisecond => zeroPadded 3 dt.ms
  | .twoDigitYear => zeroPadded 2 (dt.year.tmod 100)
  | .dateTime =>
    time.weekdayShort dt.year dt.mon dt.day ++ [' '] ++ time.monthShort dt.mon ++ [' ']
      ++ buffered ((decimal dt.day).leftpad 2 ' ' ++ [' '])
      ++ buffered (twoDigits dt.hour ++ [':'] ++ twoDigits dt.min ++ [':'] ++ twoDigits dt.sec ++ [' '])
      ++ decimal dt.year
  | .shortDate =>
    zeroPadded 2 dt.mon ++ ['/'] ++ zeroPadded 2 dt.day ++ ['/'] ++ zeroPadded 2 (dt.year.tmod 100)
  | .timeISO8601 =>
    zeroPadded 2 dt.hour ++ [':'] ++ zeroPadded 2 dt.min ++ [':'] ++ zeroPadded 2 dt.sec
  | .dateISO8601 => decimal dt.year ++ ['-'] ++ zeroPadded 2 dt.mon ++ ['-'] ++ zeroPadded 2 dt.day
  | .timeStamp => decimal (time.msToSec record.timestampMs)
  | .milliSecondTimeStamp => decimal record.timestampMs
  | .abbreviatedMonthName => time.monthShort dt.mon
  | .fullMonthName => time.monthFull dt.mon
  | .abbreviatedWeekdayName => time.weekdayShort dt.year dt.mon dt.day
  | .fullWeekdayName => time.weekdayFull dt.year dt.mon dt.day
  | .logLevel => record.logLevel.toString
  | .shortLogLevel => record.logLevel.toStringShort
  | .fileName => (record.file.reverse.takeWhile (fun c => c ≠ '/' && c ≠ '\\')).reverse
  | .fullFileName => record.file
  | .sourceFileAndLine => record.file ++ [':'] ++ decimal record.line
  | .lineNumber => decimal record.line
  | .functionName => record.function
  | .threadId => record.threadId
  | .mappedDiagnosticContext =>
    match record.context with
    | none => []
    | some context => [' '].intercalate (context.mdc.map (fun entry => entry.1 ++ ['='] ++ entry.2))
  | .mappedDiagnosticContextValue =>
    match record.context with
    | none => []
    | some context => (context.mdc.lookup i.contextKey).getD []
  | .nestedDiagnosticContext =>
    match record.context with
    | none => []
    | some context => [' ', '>', ' '].intercalate context.ndc
  | .startColor | .endColor => []
  | .message => message build record

def marker : Text :=
  match i.type with
  | .startColor => if i.stripAnsi then [] else build.getLogLevelColor record.logLevel
  | .endColor => if i.stripAnsi then [] else build.defaultColor.toString
  | _ => []

def value (dt : DateTime) : Text :=
  if i.stripAnsi then
    removeAnsiEscapeCodes (i.render build time record dt)
  else
    i.render build time record dt

end

def placeholder : Text :=
  ['.', '.', '.']

def extendEnd (width lineSize : Int) (keepEnd : Nat) : Nat :=
  match keepEnd with
  | 0 => 0
  | keepEnd + 1 =>
    if lineSize < width then
      extendEnd width (lineSize + 1) keepEnd
    else
      keepEnd + 1

def shorten (width : Int) (result : Text) : Text :=
  if width ≤ placeholder.length then
    placeholder.take (sizeT width)
  else
    let keepSize := ((width - placeholder.length) / 2).toNat
    let keepEnd := extendEnd width (2 * keepSize + placeholder.length) (result.length - keepSize)
    result.take keepSize ++ placeholder ++ result.drop keepEnd

def truncated (i : FormatInstruction) (result : Text) : Text :=
  if i.truncate && sizeT i.width < result.length then
    match i.type with
    | .fileName | .fullFileName | .sourceFileAndLine | .functionName => shorten i.width result
    | _ => result.take (sizeT i.width)
  else
    result

def aligned (i : FormatInstruction) (result : Text) : Text :=
  if 0 < i.width ∧ result.length < sizeT i.width then
    if i.leftAlign then
      result.rightpad (sizeT i.width) ' '
    else if i.centerAlign then
      let padding := (sizeT i.width - result.length) / 2
      List.replicate padding ' ' ++ result
        ++ List.replicate (sizeT i.width - padding - result.length) ' '
    else
      result.leftpad (sizeT i.width) ' '
  else
    result

def apply (i : FormatInstruction) (record : LogRecord) (dt : DateTime) : Text :=
  if i.context = .noArgsFallback ∧ (record.format ≠ [] ∨ record.argsArray ≠ []) then
    []
  else
    i.marker build record ++ i.aligned (i.truncated (i.value build time record dt))

end FormatInstruction
end LogIt.Formatter
