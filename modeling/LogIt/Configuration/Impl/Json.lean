import LogIt.Configuration.Impl.Model

/-!
This module contains the JSON frontend of the configuration model.
-/

namespace LogIt

open MdbxLogger (LogLevel)

/--
An object has its members in the order of the names.
-/
inductive Json where
  | null
  | boolean (value : Bool)
  | unsigned (value : UInt64)
  | integer (value : Int64)
  | float
  | string (value : String)
  | array (items : List Json)
  | object (members : List (String × Json))
  | binary

namespace Json

def getString : Json → Option String
  | .string value => some value
  | _ => none

def getBoolean : Json → Option Bool
  | .boolean value => some value
  | _ => none

def find (input : Json) (name : String) : Option Json :=
  match input with
  | .object members => members.lookup name
  | _ => none

end Json

namespace ConfigurationJson

def rejectUnknownFields (members : List (String × Json)) (allowed : List String) (path : String)
    : Diagnosed PUnit :=
  forM members fun field => do
    if field.1 ∉ allowed then
      diagnose .unknownField (if path.isEmpty then field.1 else path ++ "." ++ field.1)
        "Unknown JSON configuration field"

section Values

variable (path : String)

def unsignedValue (value : UInt64) (preferSigned : Bool) : Diagnosed (Written ConfigurationValue) :=
  if preferSigned then
    if value > Int64.maxValue.toUInt64 then do
      diagnose .invalidValue path "Integer value exceeds the signed 64-bit range"
      return { valid := false, output := .null }
    else
      return { valid := true, output := .signed value.toInt64 }
  else
    return { valid := true, output := .unsigned value }

def integerValue (value : Int64) (preferSigned : Bool) : ConfigurationValue :=
  if 0 ≤ value ∧ !preferSigned then
    .unsigned value.toUInt64
  else
    .signed value

mutual

def toConfigurationValue (path : String) (preferSigned : Bool)
    : Json → Diagnosed (Written ConfigurationValue)
  | .null => return { valid := true, output := .null }
  | .boolean value => return { valid := true, output := .boolean value }
  | .unsigned value => unsignedValue path value preferSigned
  | .integer value => return { valid := true, output := integerValue value preferSigned }
  | .float => do
    diagnose .invalidValue path "Floating-point values are not supported by configuration schema v1"
    return { valid := false, output := .null }
  | .string value => return { valid := true, output := .string value }
  | .array items => do
    let values ← toConfigurationValues path 0 items
    return { valid := values.valid, output := .array values.output }
  | .object members => do
    let fields ← toConfigurationFields path [] members
    return { valid := fields.valid, output := .object fields.output }
  | .binary => do
    diagnose .invalidValue path "Unsupported JSON value"
    return { valid := false, output := .null }
termination_by structural input => input

def toConfigurationValues (path : String) (index : Nat)
    : List Json → Diagnosed (Written (List ConfigurationValue))
  | [] => return { valid := true, output := [] }
  | item :: items => do
    let value ← toConfigurationValue (path ++ "[" ++ toString index ++ "]") false item
    let values ← toConfigurationValues path (index + 1) items
    return { valid := value.valid && values.valid, output := value.output :: values.output }
termination_by structural items => items

def toConfigurationFields (path : String) (fields : ConfigurationFieldMap)
    : List (String × Json) → Diagnosed (Written ConfigurationFieldMap)
  | [] => return { valid := true, output := fields }
  | (name, member) :: members => do
    let value ← toConfigurationValue (path ++ "." ++ name) false member
    let fields ← toConfigurationFields path (Table.assignEntry name value.output fields) members
    return { valid := value.valid && fields.valid, output := fields.output }
termination_by structural members => members

end

end Values

section Strategy

variable {α σ : Type}

def readPresent (members : List (String × Json)) (name : String)
    (read : Json → σ → Diagnosed (Written σ)) (output : σ) : Diagnosed (Written σ) :=
  match members.lookup name with
  | none => return { valid := true, output }
  | some input => read input output

def readOptional (get : Json → Option α) (members : List (String × Json)) (name path : String)
    (message : String) (store : α → σ → σ) (output : σ) : Diagnosed (Written σ) :=
  let read (input : Json) (output : σ) : Diagnosed (Written σ) :=
    match get input with
    | none => do
      diagnose .invalidValue (path ++ "." ++ name) message
      return { valid := false, output }
    | some value => return { valid := true, output := store value output }
  readPresent members name read output

def readFormatter (input : Json) (path : String) (output : ConfigurationFormatterSpec)
    : Diagnosed (Written ConfigurationFormatterSpec) :=
  match input with
  | .object members => do
    rejectUnknownFields members ["type", "pattern", "json"] path
    let type ← readOptional Json.getString members "type" path "formatter type must be a string"
      (fun value output => { output with type := value }) output
    let pattern ← readOptional Json.getString members "pattern" path
      "formatter pattern must be a string"
      (fun value output => { output with hasPattern := true, pattern := value }) type.output
    let json ← readOptional Json.getBoolean members "json" path "formatter json must be boolean"
      (fun value output => { output with hasJsonFormat := true, jsonFormat := value })
      pattern.output
    return { valid := type.valid && pattern.valid && json.valid, output := json.output }
  | _ => do
    diagnose .invalidValue path "formatter must be an object"
    return { valid := false, output }

def levelNames : List (String × LogLevel) :=
  [("trace", .trace), ("debug", .debug), ("info", .info), ("warn", .warn), ("error", .error),
   ("fatal", .fatal)]

variable (input : Json) (path : String) (output : ConfigurationStrategySpec)

def readLevel : Diagnosed (Written ConfigurationStrategySpec) :=
  match input with
  | .string value =>
    match levelNames.lookup value with
    | some level => return { valid := true, output := { output with level, hasLevel := true } }
    | none => do
      diagnose .invalidValue path "Unknown log level"
      return { valid := false, output }
  | _ => do
    diagnose .invalidValue path "level must be a named string value"
    return { valid := false, output }

def readStrategyFormatter
    : Diagnosed (Written ConfigurationStrategySpec) := do
  let formatter ← readFormatter input path output.formatter
  return {
    valid := formatter.valid
    output := { output with hasFormatter := true, formatter := formatter.output } }

def readStrategy : Diagnosed (Written ConfigurationStrategySpec) :=
  match input with
  | .object members => do
    rejectUnknownFields members ["level", "formatter"] path
    let level ← readPresent members "level" (fun input => readLevel input (path ++ ".level")) output
    let formatter ← readPresent members "formatter"
      (fun input => readStrategyFormatter input (path ++ ".formatter")) level.output
    return { valid := level.valid && formatter.valid, output := formatter.output }
  | _ => do
    diagnose .invalidValue path "strategy must be an object"
    return { valid := false, output }

end Strategy

def readRequiredString (members : List (String × Json)) (name path message : String)
    : Diagnosed (Written String) :=
  match members.lookup name with
  | some (.string value) => return { valid := true, output := value }
  | _ => do
    diagnose .invalidValue (path ++ "." ++ name) message
    return { valid := false, output := "" }

def readBackendFields (type path : String) (fields : ConfigurationFieldMap)
    : List (String × Json) → Diagnosed (Written ConfigurationFieldMap)
  | [] => return { valid := true, output := fields }
  | field :: members => do
    let value ← toConfigurationValue (path ++ ".backend." ++ field.1)
      (configurationBackendFieldUsesSignedInteger type field.1) field.2
    let rest ← readBackendFields type path (Table.assignEntry field.1 value.output fields) members
    return { valid := value.valid && rest.valid, output := rest.output }

def readBackend (members : List (String × Json)) (type path : String)
    : Diagnosed (Written ConfigurationFieldMap) :=
  match members.lookup "backend" with
  | none => return { valid := true, output := [] }
  | some (.object fields) => readBackendFields type path [] fields
  | some _ => do
    diagnose .invalidValue (path ++ ".backend") "backend must be an object"
    return { valid := false, output := [] }

def readLogger (input : Json) (index : Nat) : Diagnosed (Written ConfigurationLoggerSpec) :=
  let path := loggerPath index
  match input with
  | .object members => do
    rejectUnknownFields members ["id", "type", "strategy", "backend"] path
    let id ← readRequiredString members "id" path "logger id is required and must be a string"
    let type ← readRequiredString members "type" path "logger type is required and must be a string"
    let strategy ← readPresent members "strategy"
      (fun input => readStrategy input (path ++ ".strategy")) {}
    let backend ← readBackend members type.output path
    return {
      valid := id.valid && type.valid && strategy.valid && backend.valid
      output := {
        id := id.output
        type := type.output
        strategy := strategy.output
        backend := backend.output } }
  | _ => do
    diagnose .invalidValue path "logger entry must be an object"
    return { valid := false, output := {} }

end ConfigurationJson

open ConfigurationJson

section Documents

def findSchemaVersion (members : List (String × Json)) : Option UInt64 :=
  match members.lookup "schema_version" with
  | some (.unsigned value) => some value
  | some (.integer value) => if 0 ≤ value then some value.toUInt64 else none
  | _ => none

def readSchemaVersion (members : List (String × Json)) : Diagnosed (Written UInt32) :=
  match (findSchemaVersion members).filter (fun value => value ≤ 0xffffffff) with
  | some value => return { valid := true, output := value.toUInt32 }
  | none => do
    diagnose .invalidValue "schema_version"
      "schema_version is required and must be an unsigned 32-bit integer"
    return { valid := false, output := 0 }

def readLoggers (items : List Json) : List (Diagnosed (Written ConfigurationLoggerSpec)) :=
  items.mapIdx (fun index item => readLogger item index)

def raisedByLoggers (results : List (Diagnosed (Written ConfigurationLoggerSpec))) : List Raised :=
  (results.mapIdx (fun index result => Raised.byEntry index result.messages)).flatten

variable {θ : Type}

def parseConfigurationJson (input : Json) (output : ConfigurationDocument)
    : PhaseResult θ ConfigurationDocument :=
  match input with
  | .object members =>
    let unknown := rejectUnknownFields members ["schema_version", "loggers"] ""
    let version := readSchemaVersion members
    let raised := Raised.byDocument (unknown.messages ++ version.messages)
    match members.lookup "loggers" with
    | some (.array items) =>
      let results := readLoggers items
      let raised := raised ++ raisedByLoggers results
      if version.value.valid && results.all (fun result => result.value.valid) && raised.isEmpty then
        { result := .ok true
          output := {
            schemaVersion := version.value.output
            loggers := results.map (fun result => result.value.output) }
          raised }
      else
        { result := .ok false, output, raised }
    | _ =>
      let missing : ConfigurationDiagnostic := {
        code := .invalidValue
        path := "loggers"
        message := "loggers is required and must be an array" }
      { result := .ok false, output, raised := raised ++ Raised.byDocument [missing] }
  | _ =>
    let root : ConfigurationDiagnostic := {
      code := .invalidValue
      path := ""
      message := "Configuration JSON root must be an object" }
    { result := .ok false, output, raised := Raised.byDocument [root] }

inductive JsonThrown (θ : Type) where
  | parseError (what : String)
  | other (e : θ)

def parseConfigurationText (parse : String → Except (JsonThrown θ) Json) (input : String)
    (output : ConfigurationDocument) (raised : List Raised)
    : PhaseResult θ ConfigurationDocument :=
  match parse input with
  | .ok json => parseConfigurationJson json output
  | .error (.parseError what) =>
    let failed : ConfigurationDiagnostic := {
      code := .configurationParseFailed
      path := ""
      message := "Invalid configuration JSON: " ++ what }
    { result := .ok false, output, raised := Raised.byDocument [failed] }
  -- the caller's diagnostics are not reached
  | .error (.other e) => { result := .error e, output, raised }

end Documents
end LogIt
