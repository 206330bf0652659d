import LogIt.Configuration.Impl.Builtins
import LogIt.Configuration.Impl.Runtime
import LogIt.Deque.Impl.Executor
import LogIt.FileLogger.Impl.Names

/-!
This module contains the factory of the built-in loggers. The members of the `Config` structures
that it never writes are left out.
-/

namespace LogIt

open MdbxLogger (LogLevel MdbxPayloadCompression)

open FileLogger (CompressType RotationNaming)

structure FileConfig where
  directory : String := "logs"
  async : Bool := true
  autoDeleteDays : Int32 := 30
  maxFileSizeBytes : UInt64 := 0
  maxRotatedFiles : UInt32 := 0
  compress : CompressType := .none
  compressLevel : Int32 := 1
  compressAsync : Bool := true
  externalCmd : String := ""
  naming : RotationNaming := .sequence
  seqWidth : UInt32 := 3
  useDedicatedExecutor : Bool := false
  queueCapacity : UInt64 := 0
  queuePolicy : QueuePolicy := .block

structure UniqueFileConfig where
  directory : String := "unique_logs"
  async : Bool := true
  autoDeleteDays : Int32 := 30
  hashLength : UInt64 := 8
  useDedicatedExecutor : Bool := false
  queueCapacity : UInt64 := 0
  queuePolicy : QueuePolicy := .block

structure MemoryConfig where
  maxRecords : UInt64 := 1000
  maxBytes : UInt64 := 1024 * 1024
  maxAgeMs : Int64 := 24 * 60 * 60 * 1000

structure MdbxConfig where
  path : String := "logs.mdbx"
  appName : String := ""
  sessionId : UInt64 := 0
  async : Bool := true
  dropOnOverflow : Bool := true
  maxQueueSize : UInt64 := 8192
  maxBatchSize : UInt64 := 256
  flushIntervalMs : Int32 := 100
  largePayloadThreshold : UInt64 := 4096
  payloadPreviewSize : UInt64 := 512
  storeLargePayloadsSeparately : Bool := true
  payloadCompression : MdbxPayloadCompression := .none
  payloadCompressionLevel : Int32 := 6
  onError : Option Nat := none

structure OtlpJsonFormatConfig where
  serviceName : String := "logit-app"
  serviceNamespace : String := ""
  serviceInstanceId : String := ""
  deploymentEnvironment : String := ""
  includeSource : Bool := true
  includeThreadId : Bool := true
  includeFormat : Bool := true
  includeArgNames : Bool := false
  includeArgs : Bool := true
  argsPrefix : String := "logit.arg."

inductive OtlpCompression where
  | none
  | gzip
  | zstd
  deriving DecidableEq

/--
A `long` of 32 bits is held in 64 bits as well.
-/
structure OtlpHttpConfig where
  format : OtlpJsonFormatConfig := {}
  host : String := "http://localhost:4318"
  path : String := "/v1/logs"
  maxQueueSize : UInt64 := 8192
  maxBatchSize : UInt64 := 256
  maxInFlightRequests : UInt64 := 1
  exportIntervalMs : Int32 := 1000
  requestTimeoutSec : Int32 := 3
  retryAttempts : Int64 := 2
  retryDelayMs : Int64 := 250
  maxPayloadBytes : UInt64 := 1024 * 1024
  compression : OtlpCompression := .none
  compressionLevel : Int32 := 6
  dropOnOverflow : Bool := true
  async : Bool := true
  cancelOnShutdown : Bool := false

structure OtlpPayloadConfig where
  format : OtlpJsonFormatConfig := {}
  onPayload : Option Nat := none
  async : Bool := true
  maxPayloadBytes : UInt64 := 1024 * 1024
  maxBatchSize : UInt64 := 256
  maxQueueSize : UInt64 := 1024
  dropOnOverflow : Bool := true
  exportIntervalMs : UInt32 := 100

structure PrometheusLabel where
  name : String := ""
  value : String := ""

structure PrometheusTextFormatConfig where
  includeHelp : Bool := true
  includeType : Bool := true
  includeTimestamp : Bool := false
  metricPrefix : String := "logit_"
  constLabels : List PrometheusLabel := []
  includeLoggerLabel : Bool := true
  loggerLabelName : String := "logger"
  includeInstanceLabel : Bool := false
  instanceLabelName : String := "instance"
  instanceLabelValue : String := ""
  includeBuildInfo : Bool := true

structure PrometheusHttpConfig where
  format : PrometheusTextFormatConfig := {}
  address : String := "0.0.0.0"
  port : UInt16 := 9090
  path : String := "/metrics"
  healthPath : String := "/health"
  enableHealthEndpoint : Bool := true
  startImmediately : Bool := true

structure PrometheusPayloadConfig where
  format : PrometheusTextFormatConfig := {}
  onPayload : Option Nat := none
  emitOnLog : Bool := false
  emitOnWait : Bool := true

inductive BackendConfig where
  | file (config : FileConfig)
  | uniqueFile (config : UniqueFileConfig)
  | memory (config : MemoryConfig)
  | mdbx (config : MdbxConfig)
  | otlpHttp (config : OtlpHttpConfig)
  | otlpPayload (config : OtlpPayloadConfig)
  | prometheusHttp (config : PrometheusHttpConfig)
  | prometheusPayload (config : PrometheusPayloadConfig)

namespace ConfigurationRuntime

section Readers

variable {α C : Type}

def readField (get : ConfigurationValue → Option α) (message : String)
    (fields : ConfigurationFieldMap) (path name : String) : Diagnosed (Option α) :=
  match (fields.lookup name).bind get with
  | some value => return some value
  | none => do
    diagnose .invalidValue (path ++ "." ++ name) message
    return none

variable (logger : ConfigurationMaterializedLogger)

def readString (name : String) : Diagnosed (Option String) :=
  readField ConfigurationValue.getString "Materialized field must be a string" logger.backend
    "backend" name

def readBool (name : String) : Diagnosed (Option Bool) :=
  readField ConfigurationValue.getBoolean "Materialized field must be boolean" logger.backend
    "backend" name

def readUnsigned (name : String) : Diagnosed (Option UInt64) :=
  readField ConfigurationValue.getUnsigned "Materialized field must be an unsigned integer"
    logger.backend "backend" name

def readSigned (name : String) : Diagnosed (Option Int64) :=
  readField ConfigurationValue.getSigned "Materialized field must be a signed integer"
    logger.backend "backend" name

def readObject (name : String) : Diagnosed (Option ConfigurationFieldMap) :=
  readField ConfigurationValue.getObject "Materialized field must be an object" logger.backend
    "backend" name

def objectString (object : ConfigurationFieldMap) (name path : String) : Diagnosed (Option String) :=
  readField ConfigurationValue.getString "Materialized nested field must be a string" object path
    name

def objectBool (object : ConfigurationFieldMap) (name path : String) : Diagnosed (Option Bool) :=
  readField ConfigurationValue.getBoolean "Materialized nested field must be boolean" object path
    name

def readNamed (name : String) (names : List (String × α)) (message : String)
    : Diagnosed (Option α) := do
  match ← readString logger name with
  | none => return none
  | some text =>
    match names.lookup text with
    | some value => return some value
    | none => do
      diagnose .invalidValue ("backend." ++ name) message
      return none

def queuePolicyNames : List (String × QueuePolicy) :=
  [("block", .block), ("drop_newest", .dropNewest), ("drop_oldest", .dropOldest)]

def readQueuePolicy : Diagnosed (Option QueuePolicy) :=
  readNamed logger "queue_policy" queuePolicyNames "Unknown queue policy"

def store (read : Diagnosed (Option α)) (write : α → C → C) (config : C) : Diagnosed (Written C) := do
  match ← read with
  | some value => return { valid := true, output := write value config }
  | none => return { valid := false, output := config }

def readAll : List (C → Diagnosed (Written C)) → C → Diagnosed (Written C)
  | [], config => return { valid := true, output := config }
  | read :: reads, config => do
    let first ← read config
    let rest ← readAll reads first.output
    return { valid := rest.valid && first.valid, output := rest.output }

end Readers

variable (logger : ConfigurationMaterializedLogger)

def compressNames : List (String × CompressType) :=
  [("none", .none), ("gzip", .gzip), ("zstd", .zstd), ("external_cmd", .externalCmd)]

def namingNames : List (String × RotationNaming) :=
  [("sequence", .sequence), ("timestamp", .timestamp), ("timestamp_ms", .timestampMs)]

def readFileConfig : FileConfig → Diagnosed (Written FileConfig) :=
  readAll [
    store (readString logger "directory") (fun v c => { c with directory := v }),
    store (readBool logger "async") (fun v c => { c with async := v }),
    store (readSigned logger "auto_delete_days") (fun v c => { c with autoDeleteDays := v.toInt32 }),
    store (readUnsigned logger "max_file_size_bytes") (fun v c => { c with maxFileSizeBytes := v }),
    store (readUnsigned logger "max_rotated_files")
      (fun v c => { c with maxRotatedFiles := v.toUInt32 }),
    store (readNamed logger "compress" compressNames "Unknown compression")
      (fun v c => { c with compress := v }),
    store (readSigned logger "compress_level") (fun v c => { c with compressLevel := v.toInt32 }),
    store (readBool logger "compress_async") (fun v c => { c with compressAsync := v }),
    store (readString logger "external_cmd") (fun v c => { c with externalCmd := v }),
    store (readNamed logger "naming" namingNames "Unknown rotation naming")
      (fun v c => { c with naming := v }),
    store (readUnsigned logger "seq_width") (fun v c => { c with seqWidth := v.toUInt32 }),
    store (readBool logger "use_dedicated_executor")
      (fun v c => { c with useDedicatedExecutor := v }),
    store (readUnsigned logger "queue_capacity") (fun v c => { c with queueCapacity := v }),
    store (readQueuePolicy logger) (fun v c => { c with queuePolicy := v })]

def readUniqueFileConfig : UniqueFileConfig → Diagnosed (Written UniqueFileConfig) :=
  readAll [
    store (readString logger "directory") (fun v c => { c with directory := v }),
    store (readBool logger "async") (fun v c => { c with async := v }),
    store (readSigned logger "auto_delete_days") (fun v c => { c with autoDeleteDays := v.toInt32 }),
    store (readUnsigned logger "hash_length") (fun v c => { c with hashLength := v }),
    store (readBool logger "use_dedicated_executor")
      (fun v c => { c with useDedicatedExecutor := v }),
    store (readUnsigned logger "queue_capacity") (fun v c => { c with queueCapacity := v }),
    store (readQueuePolicy logger) (fun v c => { c with queuePolicy := v })]

def readMemoryConfig : MemoryConfig → Diagnosed (Written MemoryConfig) :=
  readAll [
    store (readUnsigned logger "max_records") (fun v c => { c with maxRecords := v }),
    store (readUnsigned logger "max_bytes") (fun v c => { c with maxBytes := v }),
    store (readSigned logger "max_age_ms") (fun v c => { c with maxAgeMs := v })]

def readOnError (bindings : ConfigurationBindingSet) (config : MdbxConfig)
    : Diagnosed (Written MdbxConfig) :=
  if bindings.containsName "on_error" then
    match bindings.get .errorCallback "on_error" with
    | none => do
      diagnose .instantiationFailed "binding.on_error"
        "MDBX on_error binding has an incompatible type"
      return { valid := false, output := config }
    | some callback => return { valid := true, output := { config with onError := some callback } }
  else
    return { valid := true, output := config }

def payloadCompressionNames : List (String × MdbxPayloadCompression) :=
  [("none", .none), ("gzip", .gzip), ("zstd", .zstd)]

def readMdbxConfig (bindings : ConfigurationBindingSet)
    : MdbxConfig → Diagnosed (Written MdbxConfig) :=
  readAll [
    store (readString logger "path") (fun v c => { c with path := v }),
    store (readString logger "app_name") (fun v c => { c with appName := v }),
    store (readUnsigned logger "session_id") (fun v c => { c with sessionId := v }),
    store (readBool logger "async") (fun v c => { c with async := v }),
    store (readBool logger "drop_on_overflow") (fun v c => { c with dropOnOverflow := v }),
    store (readUnsigned logger "max_queue_size") (fun v c => { c with maxQueueSize := v }),
    store (readUnsigned logger "max_batch_size") (fun v c => { c with maxBatchSize := v }),
    store (readSigned logger "flush_interval_ms")
      (fun v c => { c with flushIntervalMs := v.toInt32 }),
    store (readUnsigned logger "large_payload_threshold")
      (fun v c => { c with largePayloadThreshold := v }),
    store (readUnsigned logger "payload_preview_size")
      (fun v c => { c with payloadPreviewSize := v }),
    store (readBool logger "store_large_payloads_separately")
      (fun v c => { c with storeLargePayloadsSeparately := v }),
    store
      (readNamed logger "payload_compression" payloadCompressionNames
        "Unknown MDBX payload compression")
      (fun v c => { c with payloadCompression := v }),
    store (readSigned logger "payload_compression_level")
      (fun v c => { c with payloadCompressionLevel := v.toInt32 }),
    readOnError bindings]

def readOtlpFormat (config : OtlpJsonFormatConfig) : Diagnosed (Written OtlpJsonFormatConfig) := do
  match ← readObject logger "format" with
  | none => return { valid := false, output := config }
  | some object =>
    let path := "backend.format"
    readAll [
      store (objectString object "service_name" path) (fun v c => { c with serviceName := v }),
      store (objectString object "service_namespace" path)
        (fun v c => { c with serviceNamespace := v }),
      store (objectString object "service_instance_id" path)
        (fun v c => { c with serviceInstanceId := v }),
      store (objectString object "deployment_environment" path)
        (fun v c => { c with deploymentEnvironment := v }),
      store (objectBool object "include_source" path) (fun v c => { c with includeSource := v }),
      store (objectBool object "include_thread_id" path)
        (fun v c => { c with includeThreadId := v }),
      store (objectBool object "include_format" path) (fun v c => { c with includeFormat := v }),
      store (objectBool object "include_arg_names" path)
        (fun v c => { c with includeArgNames := v }),
      store (objectBool object "include_args" path) (fun v c => { c with includeArgs := v }),
      store (objectString object "args_prefix" path) (fun v c => { c with argsPrefix := v })] config

def toLong (build : BuildOptions) (value : Int64) : Int64 :=
  if build.longHas64Bits then value else value.toInt32.toInt64

def otlpCompressionNames : List (String × OtlpCompression) :=
  [("none", .none), ("gzip", .gzip), ("zstd", .zstd)]

def readOtlpCompression : Diagnosed (Option OtlpCompression) :=
  readNamed logger "compression" otlpCompressionNames "Unknown OTLP compression"

def storeFormat {F C : Type} (read : F → Diagnosed (Written F)) (get : C → F) (write : F → C → C)
    (config : C) : Diagnosed (Written C) := do
  let format ← read (get config)
  return { valid := format.valid, output := write format.output config }

def readOtlpHttpConfig (build : BuildOptions) : OtlpHttpConfig → Diagnosed (Written OtlpHttpConfig) :=
  readAll [
    storeFormat (readOtlpFormat logger) OtlpHttpConfig.format (fun v c => { c with format := v }),
    store (readString logger "host") (fun v c => { c with host := v }),
    store (readString logger "path") (fun v c => { c with path := v }),
    store (readUnsigned logger "max_queue_size") (fun v c => { c with maxQueueSize := v }),
    store (readUnsigned logger "max_batch_size") (fun v c => { c with maxBatchSize := v }),
    store (readUnsigned logger "max_in_flight_requests")
      (fun v c => { c with maxInFlightRequests := v }),
    store (readSigned logger "export_interval_ms")
      (fun v c => { c with exportIntervalMs := v.toInt32 }),
    store (readSigned logger "request_timeout_sec")
      (fun v c => { c with requestTimeoutSec := v.toInt32 }),
    store (readSigned logger "retry_attempts")
      (fun v c => { c with retryAttempts := toLong build v }),
    store (readSigned logger "retry_delay_ms")
      (fun v c => { c with retryDelayMs := toLong build v }),
    store (readUnsigned logger "max_payload_bytes") (fun v c => { c with maxPayloadBytes := v }),
    store (readOtlpCompression logger) (fun v c => { c with compression := v }),
    store (readSigned logger "compression_level")
      (fun v c => { c with compressionLevel := v.toInt32 }),
    store (readBool logger "drop_on_overflow") (fun v c => { c with dropOnOverflow := v }),
    store (readBool logger "async") (fun v c => { c with async := v }),
    store (readBool logger "cancel_on_shutdown") (fun v c => { c with cancelOnShutdown := v })]

def readOnPayload (bindings : ConfigurationBindingSet) (message : String)
    : Diagnosed (Option Nat) :=
  match bindings.get .payloadCallback "on_payload" with
  | none => do
    diagnose .missingProgrammaticBinding "binding.on_payload" message
    return none
  | some callback => return some callback

def readOtlpPayloadConfig (bindings : ConfigurationBindingSet)
    : OtlpPayloadConfig → Diagnosed (Written OtlpPayloadConfig) :=
  readAll [
    storeFormat (readOtlpFormat logger) OtlpPayloadConfig.format
      (fun v c => { c with format := v }),
    store (readBool logger "async") (fun v c => { c with async := v }),
    store (readUnsigned logger "max_payload_bytes") (fun v c => { c with maxPayloadBytes := v }),
    store (readUnsigned logger "max_batch_size") (fun v c => { c with maxBatchSize := v }),
    store (readUnsigned logger "max_queue_size") (fun v c => { c with maxQueueSize := v }),
    store (readBool logger "drop_on_overflow") (fun v c => { c with dropOnOverflow := v }),
    store (readUnsigned logger "export_interval_ms")
      (fun v c => { c with exportIntervalMs := v.toUInt32 }),
    store (readOnPayload bindings "OTLP payload factory requires on_payload")
      (fun v c => { c with onPayload := some v })]

def constLabelPath (index : Nat) : String :=
  "backend.format.const_labels[" ++ toString index ++ "]"

def readLabels (index : Nat) (config : PrometheusTextFormatConfig)
    : List ConfigurationValue → Diagnosed (Written PrometheusTextFormatConfig)
  | [] => return { valid := true, output := config }
  | .object label :: labels => do
    let read ← readAll [
      store (objectString label "name" (constLabelPath index)) (fun v c => { c with name := v }),
      store (objectString label "value" (constLabelPath index)) (fun v c => { c with value := v })]
      ({} : PrometheusLabel)
    let rest ← readLabels (index + 1)
      { config with constLabels := config.constLabels ++ [read.output] } labels
    return { valid := rest.valid && read.valid, output := rest.output }
  | _ :: labels => do
    diagnose .invalidValue (constLabelPath index) "Label must be an object"
    let rest ← readLabels (index + 1) config labels
    return { valid := false, output := rest.output }

def readConstLabels (object : ConfigurationFieldMap) (config : PrometheusTextFormatConfig)
    : Diagnosed (Written PrometheusTextFormatConfig) :=
  match object.lookup "const_labels" with
  | none => do
    diagnose .invalidValue "backend.format.const_labels" "Missing constant labels array"
    return { valid := false, output := config }
  | some (.array labels) => readLabels 0 config labels
  | some _ => do
    diagnose .invalidValue "backend.format.const_labels" "Constant labels must be an array"
    return { valid := false, output := config }

def readPrometheusFormat (config : PrometheusTextFormatConfig)
    : Diagnosed (Written PrometheusTextFormatConfig) := do
  match ← readObject logger "format" with
  | none => return { valid := false, output := config }
  | some object =>
    let path := "backend.format"
    readAll [
      store (objectBool object "include_help" path) (fun v c => { c with includeHelp := v }),
      store (objectBool object "include_type" path) (fun v c => { c with includeType := v }),
      store (objectBool object "include_timestamp" path)
        (fun v c => { c with includeTimestamp := v }),
      store (objectString object "metric_prefix" path) (fun v c => { c with metricPrefix := v }),
      store (objectBool object "include_logger_label" path)
        (fun v c => { c with includeLoggerLabel := v }),
      store (objectString object "logger_label_name" path)
        (fun v c => { c with loggerLabelName := v }),
      store (objectBool object "include_instance_label" path)
        (fun v c => { c with includeInstanceLabel := v }),
      store (objectString object "instance_label_name" path)
        (fun v c => { c with instanceLabelName := v }),
      store (objectString object "instance_label_value" path)
        (fun v c => { c with instanceLabelValue := v }),
      store (objectBool object "include_build_info" path)
        (fun v c => { c with includeBuildInfo := v }),
      readConstLabels object] config

def readPrometheusHttpMembers : PrometheusHttpConfig → Diagnosed (Written PrometheusHttpConfig) :=
  readAll [
    store (readString logger "address") (fun v c => { c with address := v }),
    store (readUnsigned logger "port") (fun v c => { c with port := v.toUInt16 }),
    store (readString logger "path") (fun v c => { c with path := v }),
    store (readString logger "health_path") (fun v c => { c with healthPath := v }),
    store (readBool logger "enable_health_endpoint")
      (fun v c => { c with enableHealthEndpoint := v }),
    store (readBool logger "start_immediately") (fun v c => { c with startImmediately := v })]

def readPrometheusHttpConfig (config : PrometheusHttpConfig)
    : Diagnosed (Written PrometheusHttpConfig) := do
  let format ← readPrometheusFormat logger config.format
  if format.valid then
    readPrometheusHttpMembers logger { config with format := format.output }
  else
    return { valid := false, output := { config with format := format.output } }

def readPrometheusPayloadConfig (bindings : ConfigurationBindingSet)
    : PrometheusPayloadConfig → Diagnosed (Written PrometheusPayloadConfig) :=
  readAll [
    storeFormat (readPrometheusFormat logger) PrometheusPayloadConfig.format
      (fun v c => { c with format := v }),
    store (readBool logger "emit_on_log") (fun v c => { c with emitOnLog := v }),
    store (readBool logger "emit_on_wait") (fun v c => { c with emitOnWait := v }),
    store (readOnPayload bindings "Prometheus payload factory requires on_payload")
      (fun v c => { c with onPayload := some v })]

end ConfigurationRuntime

namespace BuiltinConfigurationLoggerFactory

open ConfigurationRuntime

structure RuntimeLogger where
  config : BackendConfig
  logLevel : LogLevel := LogLevel.trace

def RuntimeLogger.getLogLevel (logger : RuntimeLogger) : LogLevel :=
  logger.logLevel

inductive ConstructorThrown where
  | exception (what : String)
  | other

def configured {C : Type} (read : Diagnosed (Written C)) (backend : C → BackendConfig)
    : Diagnosed (Option BackendConfig) := do
  let config ← read
  return if config.valid then some (backend config.output) else none

def readConfig (build : BuildOptions) (logger : ConfigurationMaterializedLogger)
    (bindings : ConfigurationBindingSet) : Diagnosed (Option BackendConfig) :=
  if logger.type = "file" then
    configured (readFileConfig logger {}) .file
  else if logger.type = "unique_file" then
    configured (readUniqueFileConfig logger {}) .uniqueFile
  else if logger.type = "memory" then
    configured (readMemoryConfig logger {}) .memory
  else if logger.type = "mdbx" ∧ build.withMdbx then
    configured (readMdbxConfig logger bindings {}) .mdbx
  else if logger.type = "otlp_http" ∧ build.withOtlp then
    configured (readOtlpHttpConfig logger build {}) .otlpHttp
  else if logger.type = "otlp_payload" ∧ build.withOtlp then
    configured (readOtlpPayloadConfig logger bindings {}) .otlpPayload
  else if logger.type = "prometheus_http" ∧ build.withPrometheusServer then
    configured (readPrometheusHttpConfig logger {}) .prometheusHttp
  else if logger.type = "prometheus_payload" ∧ build.withPrometheus then
    configured (readPrometheusPayloadConfig logger bindings {}) .prometheusPayload
  else do
    diagnose .unavailableBackend "type" "Built-in runtime factory does not support this backend yet"
    return none

def instantiate (build : BuildOptions) (construct : BackendConfig → Option ConstructorThrown)
    (logger : ConfigurationMaterializedLogger) (bindings : ConfigurationBindingSet)
    : Diagnosed (Option RuntimeLogger) := do
  match ← readConfig build logger bindings with
  | none => return none
  | some config =>
    match construct config with
    | none => return some { config }
    | some (.exception what) => do
      diagnose .instantiationFailed "type" ("Logger construction failed: " ++ what)
      return none
    | some .other => do
      diagnose .instantiationFailed "type" "Logger construction failed"
      return none

def factory (θ : Type) (build : BuildOptions)
    (construct : Nat → BackendConfig → Option ConstructorThrown)
    : ConfigurationLoggerFactory θ RuntimeLogger where
  instantiate call logger bindings := .ok (instantiate build (construct call) logger bindings)

end BuiltinConfigurationLoggerFactory
end LogIt
