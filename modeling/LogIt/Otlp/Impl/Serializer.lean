import LogIt.Formatter.Impl.Instruction
import LogIt.Lib.JsonText
import LogIt.Lib.MachineInteger

/-!
This module contains the serializer of the OTLP loggers. The strings are bytes, each as the
character with its number.
-/

namespace LogIt.Otlp

open Formatter (Text LogLevel ValueType decimal)

/--
A `double`, as the stream writes it or, if it is not finite, as `std::to_string` gives it.
-/
inductive Double where
  | finite (token : { s : Text // JsonText.isNumber s })
  | nonFinite (text : Text)

/--
An argument with what `pod_value` holds for its type.
-/
structure VariableValue where
  name : Text
  type : ValueType
  boolValue : Bool := false
  intValue : Int := 0
  uintValue : Nat := 0
  doubleValue : Double := .nonFinite []
  toString : Text := []

structure OtlpRecordSnapshot where
  logLevel : LogLevel := .trace
  timestampMs : Int := 0
  file : Text := []
  line : Int := 0
  function : Text := []
  format : Text := []
  argNames : Text := []
  argsArray : List VariableValue := []
  threadId : Text := []
  loggerIndex : Int := -1
  printMode : Bool := false
  fmtMode : Bool := false
  rawMode : Bool := false

structure OtlpLogItem where
  record : OtlpRecordSnapshot
  message : Text

structure OtlpJsonFormatConfig where
  serviceName : Text := "logit-app".toList
  serviceNamespace : Text := []
  serviceInstanceId : Text := []
  deploymentEnvironment : Text := []
  includeSource : Bool := true
  includeThreadId : Bool := true
  includeFormat : Bool := true
  includeArgNames : Bool := false
  includeArgs : Bool := true
  argsPrefix : Text := "logit.arg.".toList

def escapeChar (c : Char) : Text :=
  match c with
  | '"' => ['\\', '"']
  | '\\' => ['\\', '\\']
  | '\x08' => ['\\', 'b']
  | '\x0c' => ['\\', 'f']
  | '\n' => ['\\', 'n']
  | '\r' => ['\\', 'r']
  | '\t' => ['\\', 't']
  | c =>
    if c.toNat < 0x20 then
      ['\\', 'u', '0', '0', Nat.digitChar (c.toNat / 16), Nat.digitChar (c.toNat % 16)]
    else
      [c]

def otlpJsonEscape (value : Text) : Text :=
  value.flatMap escapeChar

def otlpSeverityNumber (level : LogLevel) : Nat :=
  match level with
  | .trace => 1
  | .debug => 5
  | .info => 9
  | .warn => 13
  | .error => 17
  | .fatal => 21

def quoted (text : Text) : Text :=
  '"' :: text ++ ['"']

def writeAttr (key : Text) (kind : String) (value : Text) : Text :=
  "\x7b\"key\":\"".toList ++ otlpJsonEscape key ++ "\",\"value\":\x7b\"".toList ++ kind.toList
    ++ "\":".toList ++ value ++ "\x7d\x7d".toList

def otlpWriteStringAttr (key value : Text) : Text :=
  writeAttr key "stringValue" (quoted (otlpJsonEscape value))

def otlpWriteIntAttr (key : Text) (value : Int) : Text :=
  writeAttr key "intValue" (quoted (decimal value))

def otlpWriteBoolAttr (key : Text) (value : Bool) : Text :=
  writeAttr key "boolValue" (if value then "true".toList else "false".toList)

def otlpWriteDoubleAttr (key : Text) (value : Double) : Text :=
  match value with
  | .finite token => writeAttr key "doubleValue" token.val
  | .nonFinite text => writeAttr key "stringValue" (quoted (otlpJsonEscape text))

def otlpWriteUintAttr (key : Text) (value : Nat) : Text :=
  if value ≤ 2 ^ 63 - 1 then
    otlpWriteIntAttr key value
  else
    writeAttr key "stringValue" (quoted (decimal value))

inductive Attribute where
  | string (key value : Text)
  | int (key : Text) (value : Int)
  | bool (key : Text) (value : Bool)
  | double (key : Text) (value : Double)
  | uint (key : Text) (value : Nat)

def Attribute.key (a : Attribute) : Text :=
  match a with
  | .string key _ | .int key _ | .bool key _ | .double key _ | .uint key _ => key

def Attribute.write (a : Attribute) : Text :=
  match a with
  | .string key value => otlpWriteStringAttr key value
  | .int key value => otlpWriteIntAttr key value
  | .bool key value => otlpWriteBoolAttr key value
  | .double key value => otlpWriteDoubleAttr key value
  | .uint key value => otlpWriteUintAttr key value

/--
The calls, with `otlp_write_comma_if_needed` before each of them.
-/
def writeAttributes (attributes : List Attribute) (os : Text) (first : Bool) : Text :=
  match attributes with
  | [] => os
  | a :: attributes => writeAttributes attributes (os ++ (if first then [] else [',']) ++ a.write) false

def sanitizeOtlpKey (name : Text) : Text :=
  name.map (fun c => if c.isAlphanum || c = '_' || c = '.' || c = '-' then c else '_')

def argKey (config : OtlpJsonFormatConfig) (i : Nat) (name : Text) : Text :=
  let sanitized := sanitizeOtlpKey name
  if sanitized.isEmpty || sanitized.all (· = '_') then
    config.argsPrefix ++ decimal i
  else
    config.argsPrefix ++ sanitized

def assignKey (keyCount : Text → Option Nat) (key : Text) : Text × (Text → Option Nat) :=
  match keyCount key with
  | some count =>
    let numbered := key ++ '.' :: decimal (count + 1)
    (numbered, Function.update (Function.update keyCount key (some (count + 1))) numbered (some 0))
  | none => (key, Function.update keyCount key (some 0))

def argAttribute (key : Text) (arg : VariableValue) : Attribute :=
  match arg.type with
  | .bool => .bool key arg.boolValue
  | .int8 | .int16 | .int32 | .int64 => .int key arg.intValue
  | .uint8 | .uint16 | .uint32 | .uint64 => .uint key arg.uintValue
  | .float | .double | .longDouble => .double key arg.doubleValue
  | _ => .string key arg.toString

def argAttributes (config : OtlpJsonFormatConfig) (i : Nat) (keyCount : Text → Option Nat)
    (args : List VariableValue) : List Attribute :=
  match args with
  | [] => []
  | arg :: args =>
    let (key, keyCount) := assignKey keyCount (argKey config i arg.name)
    argAttribute key arg :: argAttributes config (i + 1) keyCount args

def recordAttributes (config : OtlpJsonFormatConfig) (r : OtlpRecordSnapshot) : List Attribute :=
  (if config.includeSource then
    [.string "code.file.path".toList r.file, .int "code.line.number".toList r.line,
      .string "code.function.name".toList r.function]
  else [])
  ++ (if config.includeThreadId then [.string "thread.id".toList r.threadId] else [])
  ++ (if config.includeFormat then [.string "logit.format".toList r.format] else [])
  ++ (if config.includeArgNames && !r.argNames.isEmpty then
    [.string "logit.arg_names".toList r.argNames] else [])
  ++ (if config.includeArgs && !r.argsArray.isEmpty then
    argAttributes config 0 (fun _ => none) r.argsArray else [])
  ++ [.int "logit.logger_index".toList r.loggerIndex, .bool "logit.raw_mode".toList r.rawMode,
    .bool "logit.print_mode".toList r.printMode, .bool "logit.fmt_mode".toList r.fmtMode]

/--
The product is an `int64_t`, which is assumed to wrap around.
-/
def timeUnixNano (timestampMs : Int) : Int :=
  MachineInteger.cast ⟨64, true⟩ (timestampMs * 1000000)

variable (config : OtlpJsonFormatConfig)

def otlpWriteLogRecordJson (item : OtlpLogItem) : Text :=
  let r := item.record
  "\x7b\"timeUnixNano\":\"".toList ++ decimal (timeUnixNano r.timestampMs)
    ++ "\",\"severityText\":\"".toList ++ otlpJsonEscape r.logLevel.toString
    ++ "\",\"severityNumber\":".toList ++ decimal (otlpSeverityNumber r.logLevel)
    ++ ",\"body\":\x7b\"stringValue\":\"".toList ++ otlpJsonEscape item.message
    ++ "\"\x7d,\"attributes\":[".toList ++ writeAttributes (recordAttributes config r) [] true
    ++ "]\x7d".toList

def resourceAttributes : List Attribute :=
  .string "service.name".toList config.serviceName ::
    (if config.serviceNamespace.isEmpty then [] else
      [.string "service.namespace".toList config.serviceNamespace])
    ++ (if config.serviceInstanceId.isEmpty then [] else
      [.string "service.instance.id".toList config.serviceInstanceId])
    ++ (if config.deploymentEnvironment.isEmpty then [] else
      [.string "deployment.environment.name".toList config.deploymentEnvironment])

def buildOtlpLogsJsonPayload (batch : List OtlpLogItem) : Text :=
  "\x7b\"resourceLogs\":[\x7b\"resource\":\x7b\"attributes\":[".toList
    ++ writeAttributes (resourceAttributes config) [] true
    ++ "]\x7d,\"scopeLogs\":[\x7b\"scope\":\x7b\"name\":\"logit-cpp\"\x7d,\"logRecords\":[".toList
    ++ (batch.mapIdx fun i item =>
      (if i ≠ 0 then [','] else []) ++ otlpWriteLogRecordJson config item).flatten
    ++ "]\x7d]\x7d]\x7d".toList

end LogIt.Otlp
