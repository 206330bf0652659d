import LogIt.Lib.Report
import LogIt.Lib.Table
import LogIt.Mdbx.Impl.Codec

/-!
This module contains the configuration model, the validation of documents and their materialization.
-/

namespace LogIt

open MdbxLogger (LogLevel)

inductive ConfigurationErrorCode where
  | unsupportedSchemaVersion
  | emptyLoggerId
  | duplicateLoggerId
  | emptyBackendType
  | unknownBackendType
  | invalidValue
  | unsupportedCombination
  | unavailableBackend
  | missingProgrammaticBinding
  | unknownField
  | backendValidationFailed
  | materializationFailed
  | bindingResolutionFailed
  | instantiationFailed
  | configurationParseFailed
  deriving DecidableEq

structure ConfigurationDiagnostic where
  code : ConfigurationErrorCode
  path : String
  message : String
  deriving DecidableEq

abbrev ConfigurationDiagnostics : Type := List ConfigurationDiagnostic

namespace ConfigurationDiagnostics

def rebasedPath (path front : String) : String :=
  if path.isEmpty then front else front ++ "." ++ path

def appendRebased (source : ConfigurationDiagnostics) (front : String) : ConfigurationDiagnostics :=
  source.map (fun diagnostic => { diagnostic with path := rebasedPath diagnostic.path front })

end ConfigurationDiagnostics

abbrev Diagnosed (α : Type) : Type := Report ConfigurationDiagnostic α

def diagnose (code : ConfigurationErrorCode) (path message : String) : Diagnosed PUnit :=
  Report.add { code, path, message }

def diagnoseIf (failed : Bool) (code : ConfigurationErrorCode) (path message : String)
    : Diagnosed PUnit :=
  if failed then diagnose code path message else pure ⟨⟩

def refuse (code : ConfigurationErrorCode) (path message : String) : Diagnosed Bool := do
  diagnose code path message
  return false

inductive ConfigurationValue where
  | null
  | boolean (value : Bool)
  | signed (value : Int64)
  | unsigned (value : UInt64)
  | string (value : String)
  | array (value : List ConfigurationValue)
  | object (value : List (String × ConfigurationValue))

abbrev ConfigurationFieldMap : Type := List (String × ConfigurationValue)

namespace ConfigurationValue

inductive Kind where
  | null
  | boolean
  | signedInteger
  | unsignedInteger
  | string
  | array
  | object
  deriving DecidableEq

def type : ConfigurationValue → Kind
  | .null => .null
  | .boolean _ => .boolean
  | .signed _ => .signedInteger
  | .unsigned _ => .unsignedInteger
  | .string _ => .string
  | .array _ => .array
  | .object _ => .object

def getBoolean : ConfigurationValue → Option Bool
  | .boolean value => some value
  | _ => none

def getSigned : ConfigurationValue → Option Int64
  | .signed value => some value
  | _ => none

def getUnsigned : ConfigurationValue → Option UInt64
  | .unsigned value => some value
  | _ => none

def getString : ConfigurationValue → Option String
  | .string value => some value
  | _ => none

def getArray : ConfigurationValue → Option (List ConfigurationValue)
  | .array value => some value
  | _ => none

def getObject : ConfigurationValue → Option ConfigurationFieldMap
  | .object value => some value
  | _ => none

end ConfigurationValue

structure ConfigurationFormatterSpec where
  type : String := "simple"
  hasPattern : Bool := false
  pattern : String := ""
  hasJsonFormat : Bool := false
  jsonFormat : Bool := false

structure ConfigurationStrategySpec where
  hasLevel : Bool := false
  level : LogLevel := LogLevel.trace
  hasFormatter : Bool := false
  formatter : ConfigurationFormatterSpec := {}

structure ConfigurationLoggerSpec where
  id : String := ""
  type : String := ""
  strategy : ConfigurationStrategySpec := {}
  backend : ConfigurationFieldMap := []

structure ConfigurationDocument where
  schemaVersion : UInt32 := 0
  loggers : List ConfigurationLoggerSpec := []

structure ConfigurationMaterializedLogger where
  id : String := ""
  type : String := ""
  strategy : ConfigurationStrategySpec := {}
  backend : ConfigurationFieldMap := []
  requiredBindings : List String := []

structure ConfigurationPlan where
  schemaVersion : UInt32 := 0
  loggers : List ConfigurationMaterializedLogger := []

structure Raised where
  entry : Option Nat
  diagnostic : ConfigurationDiagnostic

def Raised.byDocument (diagnostics : ConfigurationDiagnostics) : List Raised :=
  diagnostics.map (Raised.mk none)

def Raised.byEntry (index : Nat) (diagnostics : ConfigurationDiagnostics) : List Raised :=
  diagnostics.map (Raised.mk (some index))

structure PhaseResult (θ ω : Type) where
  result : Except θ Bool
  output : ω
  raised : List Raised

def PhaseResult.diagnostics {θ ω : Type} (phase : PhaseResult θ ω) : ConfigurationDiagnostics :=
  phase.raised.map Raised.diagnostic

def loggerPath (index : Nat) : String :=
  "loggers[" ++ toString index ++ "]"

inductive Abort (θ : Type) where
  | thrown (e : θ)
  | rejected (raised : List Raised)

def Abort.phaseResult {θ ω : Type} (abort : Abort θ) (output : ω) : PhaseResult θ ω :=
  match abort with
  | .thrown e => { result := .error e, output, raised := [] }
  | .rejected raised => { result := .ok false, output, raised }

def rejectEntry (index : Nat) (own : ConfigurationDiagnostics) (code : ConfigurationErrorCode)
    (path message : String) : List Raised :=
  Raised.byEntry index <|
    if own.isEmpty then
      [{ code, path, message }]
    else
      own.appendRebased (loggerPath index)

section Validation

def isKnownConfigurationBackend (type : String) : Bool :=
  type == "console" ||
  type == "file" ||
  type == "unique_file" ||
  type == "memory" ||
  type == "crash" ||
  type == "syslog" ||
  type == "event_log" ||
  type == "windows_debug" ||
  type == "mdbx" ||
  type == "otlp_http" ||
  type == "otlp_payload" ||
  type == "prometheus_http" ||
  type == "prometheus_payload"

def configurationBackendFieldUsesSignedInteger (type field : String) : Bool :=
  if type = "file" then
    field == "auto_delete_days" || field == "compress_level"
  else if type = "unique_file" then
    field == "auto_delete_days"
  else if type = "memory" then
    field == "max_age_ms"
  else if type = "mdbx" then
    field == "flush_interval_ms" || field == "payload_compression_level"
  else if type = "otlp_http" then
    field == "export_interval_ms" || field == "request_timeout_sec" || field == "retry_attempts" ||
      field == "retry_delay_ms" || field == "compression_level"
  else
    false

def configurationLogLevelIsValid (level : LogLevel) : Bool :=
  level ∈ [LogLevel.trace, .debug, .info, .warn, .error, .fatal]

def configurationGetBool (fields : ConfigurationFieldMap) (name : String) : Bool × Option Bool :=
  match fields.lookup name with
  | none => (true, none)
  | some value => (value.getBoolean.isSome, value.getBoolean)

def configurationHasField (fields : ConfigurationFieldMap) (name : String) : Bool :=
  (fields.lookup name).isSome

variable (logger : ConfigurationLoggerSpec)

def validateId (path : String) (seen : List String) : Diagnosed PUnit := do
  if logger.id.isEmpty then
    diagnose .emptyLoggerId (path ++ ".id") "Logger id must not be empty"
  else if logger.id ∈ seen then
    diagnose .duplicateLoggerId (path ++ ".id") "Logger id must be unique within the document"

def validateBackendType (path : String) : Diagnosed PUnit := do
  if logger.type.isEmpty then
    diagnose .emptyBackendType (path ++ ".type") "Logger backend type must not be empty"
  else if !isKnownConfigurationBackend logger.type then
    diagnose .unknownBackendType (path ++ ".type")
      "Logger backend type is not known to the v1 contract"

def validateStrategy (path : String) : Diagnosed PUnit := do
  diagnoseIf (logger.strategy.hasLevel && !configurationLogLevelIsValid logger.strategy.level)
    .invalidValue (path ++ ".strategy.level") "Logger level is not valid"
  diagnoseIf (logger.strategy.hasFormatter && logger.strategy.formatter.type != "simple")
    .invalidValue (path ++ ".strategy.formatter.type")
    "Only the simple formatter is defined by the v1 model"

def validateExecutorFields (path : String) : Diagnosed PUnit := do
  let dedicated := configurationGetBool logger.backend "use_dedicated_executor"
  let async := configurationGetBool logger.backend "async"
  let hasExecutorField := configurationHasField logger.backend "queue_capacity" ||
    configurationHasField logger.backend "queue_policy"
  diagnoseIf (!dedicated.1) .invalidValue (path ++ ".backend.use_dedicated_executor")
    "use_dedicated_executor must be boolean"
  diagnoseIf (!async.1) .invalidValue (path ++ ".backend.async") "async must be boolean"
  -- `dedicated` is initialized with `false` and `async` with `true`, they keep that if the field is
  -- not a boolean
  diagnoseIf (hasExecutorField && (dedicated.2 != some true || async.2 == some false))
    .unsupportedCombination (path ++ ".backend")
    "Executor queue fields require an effective dedicated executor"

instance lawfulBEqOptionString : LawfulBEq (Option String) :=
  inferInstance

def queuePolicyIsValid (value : ConfigurationValue) : Bool :=
  value.getString ∈ [some "block", some "drop_newest", some "drop_oldest"]

def validateQueueFields (path : String) : Diagnosed PUnit := do
  diagnoseIf ((logger.backend.lookup "queue_policy").any (fun value => !queuePolicyIsValid value))
    .invalidValue (path ++ ".backend.queue_policy")
    "queue_policy must be block, drop_newest, or drop_oldest"
  diagnoseIf
    ((logger.backend.lookup "queue_capacity").any (fun value => value.type != .unsignedInteger))
    .invalidValue (path ++ ".backend.queue_capacity") "queue_capacity must be an unsigned integer"

def validateLogger (index : Nat) (seen : List String) : Diagnosed PUnit := do
  let path := loggerPath index
  validateId logger path seen
  validateBackendType logger path
  validateStrategy logger path
  validateExecutorFields logger path
  validateQueueFields logger path

/--
An empty id is not recorded, it never equals one that reaches the search in `seen_ids`.
-/
def validateLoggers (index : Nat) (seen : List String)
    : List ConfigurationLoggerSpec → List Raised
  | [] => []
  | logger :: loggers =>
    Raised.byEntry index (validateLogger logger index seen).messages ++
      validateLoggers (index + 1) (logger.id :: seen) loggers

def validateConfiguration (document : ConfigurationDocument) : List Raised :=
  let version : ConfigurationDiagnostics :=
    if document.schemaVersion ≠ 1 then
      [{ code := .unsupportedSchemaVersion
         path := "schema_version"
         message := "Only configuration schema version 1 is supported" }]
    else
      []
  Raised.byDocument version ++ validateLoggers 0 [] document.loggers

end Validation

section Materialization

structure Written (α : Type) where
  valid : Bool
  output : α

/--
It gets the number of the call, its answers need not be determined by the logger alone.
-/
structure ConfigurationMaterializer (θ : Type) where
  validateBackend : Nat → ConfigurationLoggerSpec → Except θ (Diagnosed Bool)
  materializeBackend : Nat → ConfigurationLoggerSpec
    → Except θ (Diagnosed (Written ConfigurationMaterializedLogger))

variable {θ : Type} (materializer : ConfigurationMaterializer θ)

def validateEntry (index : Nat) (logger : ConfigurationLoggerSpec) : Except (Abort θ) PUnit :=
  match materializer.validateBackend index logger with
  | .error e => .error (.thrown e)
  | .ok own =>
    if own.value && own.messages.isEmpty then
      .ok ⟨⟩
    else
      .error (.rejected (rejectEntry index own.messages .backendValidationFailed
        (loggerPath index ++ ".backend") "Backend materializer rejected the logger configuration"))

def materializeEntry (index : Nat) (logger : ConfigurationLoggerSpec)
    : Except (Abort θ) ConfigurationMaterializedLogger :=
  match materializer.materializeBackend index logger with
  | .error e => .error (.thrown e)
  | .ok own =>
    if own.value.valid && own.messages.isEmpty then
      .ok own.value.output
    else
      .error (.rejected (rejectEntry index own.messages .materializationFailed
        (loggerPath index) "Backend materializer could not produce a logger plan"))

def materializeConfiguration (document : ConfigurationDocument) (plan : ConfigurationPlan)
    : PhaseResult θ ConfigurationPlan :=
  let diagnostics := validateConfiguration document
  if !diagnostics.isEmpty then
    { result := .ok false, output := plan, raised := diagnostics }
  else
    match (rounds (validateEntry materializer) 0 document.loggers).thrown with
    | some abort => abort.phaseResult plan
    | none =>
      let candidate := rounds (materializeEntry materializer) 0 document.loggers
      match candidate.thrown with
      | some abort => abort.phaseResult plan
      | none =>
        { result := .ok true
          output := { schemaVersion := document.schemaVersion, loggers := candidate.results }
          raised := [] }

end Materialization
end LogIt
