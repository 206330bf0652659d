import LogIt.Formatter.Impl.Instruction

/-!
This module contains the compiler of log patterns. Its loop is split into what it reads, which does
not depend on its state, and what it does with it.
-/

namespace LogIt.Formatter

section Read

structure Spec where
  leftAlign : Bool := false
  centerAlign : Bool := false
  truncate : Bool := false
  width : Int := 0
  deriving DecidableEq

/--
The width is an `int`, which is assumed to wrap around.
-/
def Spec.digit (spec : Spec) (c : Char) : Spec :=
  { spec with width := (spec.width * 10 + (c.toNat - '0'.toNat : Nat)).bmod (2 ^ 32) }

def Spec.flag (spec : Spec) (c : Char) : Spec :=
  if c = '-' then
    { spec with leftAlign := true }
  else if c = '=' then
    { spec with centerAlign := true }
  else
    spec.digit c

/--
The characters behind `%` up to the one that names the placeholder.
-/
def readSpec (spec : Spec) (pattern : Text) : Spec × Text :=
  match pattern with
  | [] => (spec, [])
  | c :: pattern =>
    if c.isDigit || c = '-' || c = '=' then
      match pattern with
      | '!' :: pattern => ({ spec.flag c with truncate := true }, pattern)
      | pattern => readSpec (spec.flag c) pattern
    else
      (spec, c :: pattern)

inductive Token where
  | field (type : FormatType) (contextKey : Text)
  | color (type : FormatType)
  -- the colour stripping is switched
  | strip (on : Bool)
  -- the body of `%N(...)`
  | noArgs (params : Text)
  | nothing
  -- an unknown character, which stands for itself
  | char (c : Char)
  deriving DecidableEq

def Token.ofType (type : FormatType) : Token :=
  .field type []

def ifNext (c : Char) (long short : Token) (pattern : Text) : Token × Text :=
  match pattern with
  | [] => (short, [])
  | d :: rest => if d = c then (long, rest) else (short, d :: rest)

def readFile (pattern : Text) : Token × Text :=
  match pattern with
  | 'f' :: 'n' :: rest => (.ofType .fullFileName, rest)
  | 'n' :: rest => (.ofType .fileName, rest)
  | pattern => (.ofType .fileName, pattern)

def readKey (pattern : Text) : Token × Text :=
  match pattern with
  | '\x7b' :: rest =>
    if '\x7d' ∈ rest then
      (.field .mappedDiagnosticContextValue (rest.takeWhile (· ≠ '\x7d')),
        (rest.dropWhile (· ≠ '\x7d')).drop 1)
    else
      (.ofType .mappedDiagnosticContext, pattern)
  | pattern => (.ofType .mappedDiagnosticContext, pattern)

/--
If the body of `%N(...)` is not closed, only the parenthesis is skipped, and one at the end of the
pattern is not.
-/
def readNoArgs (pattern : Text) : Token × Text :=
  match pattern with
  | '(' :: c :: rest =>
    if ')' ∈ c :: rest then
      (.noArgs ((c :: rest).takeWhile (· ≠ ')')), ((c :: rest).dropWhile (· ≠ ')')).drop 1)
    else
      (.nothing, c :: rest)
  | pattern => (.nothing, pattern)

def readToken (next : Char) : Text → Token × Text :=
  match next with
  | 'Y' => Prod.mk (.ofType .year)
  | 'm' => ifNext 's' (.ofType .milliSecondTimeStamp) (.ofType .month)
  | 'd' => Prod.mk (.ofType .day)
  | 'H' => Prod.mk (.ofType .hour)
  | 'M' => Prod.mk (.ofType .minute)
  | 'S' => ifNext 'C' (.strip true) (.ofType .second)
  | 'e' => ifNext 'c' (.strip false) (.ofType .millisecond)
  | 'C' => Prod.mk (.ofType .twoDigitYear)
  | 'c' => Prod.mk (.ofType .dateTime)
  | 'D' => Prod.mk (.ofType .shortDate)
  | 'T' => Prod.mk (.ofType .timeISO8601)
  | 'X' => Prod.mk (.ofType .timeISO8601)
  | 'F' => Prod.mk (.ofType .dateISO8601)
  | 's' => ifNext 'c' (.strip true) (.ofType .timeStamp)
  | 'E' => ifNext 'C' (.strip false) (.ofType .timeStamp)
  | 'b' => ifNext 's' (.ofType .fileName) (.ofType .abbreviatedMonthName)
  | 'B' => Prod.mk (.ofType .fullMonthName)
  | 'a' => Prod.mk (.ofType .abbreviatedWeekdayName)
  | 'A' => Prod.mk (.ofType .fullWeekdayName)
  | 'l' => Prod.mk (.ofType .logLevel)
  | 'L' => Prod.mk (.ofType .shortLogLevel)
  | 't' => Prod.mk (.ofType .threadId)
  | 'K' => readKey
  | 'J' => Prod.mk (.ofType .nestedDiagnosticContext)
  | 'f' => readFile
  | 'g' => Prod.mk (.ofType .fullFileName)
  | '@' => Prod.mk (.ofType .sourceFileAndLine)
  | '#' => Prod.mk (.ofType .lineNumber)
  | '!' => Prod.mk (.ofType .functionName)
  | '^' => Prod.mk (.color .startColor)
  | '$' => Prod.mk (.color .endColor)
  | 'v' => Prod.mk (.ofType .message)
  | 'N' => readNoArgs
  | next => Prod.mk (.char next)

inductive Item where
  | text (c : Char)
  | placeholder (spec : Spec) (token : Token)
  -- a `%` behind which nothing is left
  | percent
  deriving DecidableEq

def readItems (rounds : Nat) (pattern : Text) : List Item :=
  match rounds, pattern with
  | 0, _ => []
  | _, [] => []
  | rounds + 1, c :: pattern =>
    if c = '%' then
      let (spec, pattern) := readSpec {} pattern
      match pattern with
      | [] => [.percent]
      | next :: pattern =>
        let (token, pattern) := readToken next pattern
        .placeholder spec token :: readItems rounds pattern
    else
      .text c :: readItems rounds pattern

def items (pattern : Text) : List Item :=
  readItems pattern.length pattern

end Read

section Compile

structure CompileState where
  instructions : List FormatInstruction := []
  buffer : Text := []
  stripAnsi : Bool := false
  deriving DecidableEq

def FormatInstruction.ofText (context : CompileContext) (text : Text) (stripAnsi : Bool)
    : FormatInstruction where
  context := context
  type := .staticText
  staticText := text
  width := 0
  leftAlign := false
  centerAlign := false
  truncate := false
  stripAnsi := stripAnsi
  contextKey := []

def FormatInstruction.ofField (context : CompileContext) (type : FormatType) (spec : Spec)
    (stripAnsi : Bool) (contextKey : Text)
    : FormatInstruction where
  context := context
  type := type
  staticText := []
  width := spec.width
  leftAlign := spec.leftAlign
  centerAlign := spec.centerAlign
  truncate := spec.truncate
  stripAnsi := stripAnsi
  contextKey := contextKey

namespace CompileState

variable (context : CompileContext) (body : Text → List FormatInstruction)

variable (s : CompileState)

def flush : CompileState :=
  if s.buffer.isEmpty then
    s
  else
    { s with
      instructions := s.instructions ++ [.ofText context s.buffer s.stripAnsi]
      buffer := []
    }

def push (instructions : List FormatInstruction) : CompileState :=
  { s with instructions := s.instructions ++ instructions }

def token (spec : Spec) (token : Token) : CompileState :=
  match token with
  | .field type key => s.push [.ofField context type spec s.stripAnsi key]
  | .color type => s.push [.ofField context type {} s.stripAnsi []]
  | .strip on => { s with stripAnsi := on }
  | .noArgs params => s.push (body params)
  | .nothing => s
  | .char c => { s with buffer := s.buffer ++ [c] }

def step (item : Item) : CompileState :=
  match item with
  | .text c => { s with buffer := s.buffer ++ [c] }
  | .placeholder spec token => (s.flush context).token context body spec token
  | .percent => s.flush context

end CompileState

/--
The depth bounds the recursion: the body of a `%N(...)` is shorter than the pattern.
-/
def compileWithin (depth : Nat) (context : CompileContext) (pattern : Text)
    : List FormatInstruction :=
  match depth with
  | 0 => []
  | depth + 1 =>
    let s := (items pattern).foldl (CompileState.step context (compileWithin depth .noArgsFallback)) {}
    (s.flush context).instructions

def compile (pattern : Text) (context : CompileContext) : List FormatInstruction :=
  compileWithin (pattern.length + 1) context pattern

end Compile

section Format

variable (build : Build) (time : TimeShield)

def applyAll (instructions : List FormatInstruction) (record : LogRecord) (dt : DateTime) : Text :=
  instructions.flatMap (fun i => i.apply build time record dt)

def formatAsPattern (offsetMs : Int) (pattern : Text) (record : LogRecord) : Text :=
  let dt := time.toDateTimeMs (record.timestampMs + offsetMs)
  applyAll build time (compile pattern .default) record dt

end Format
end LogIt.Formatter
