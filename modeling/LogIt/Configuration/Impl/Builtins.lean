import LogIt.Configuration.Impl.Model

/-!
This module contains the adapter for the fields of the built-in backends.
-/

namespace LogIt

structure BuildOptions where
  withMdbx : Bool
  withOtlp : Bool
  withPrometheus : Bool
  withPrometheusServer : Bool
  hasZlib : Bool
  hasZstd : Bool
  longHas64Bits : Bool

namespace BuiltinConfigurationMaterializer

open ConfigurationValue (Kind)

def backendAvailable (build : BuildOptions) (type : String) : Bool :=
  if type = "mdbx" then
    build.withMdbx
  else if type = "otlp_http" ∨ type = "otlp_payload" then
    build.withOtlp
  else if type = "prometheus_http" then
    build.withPrometheusServer
  else if type = "prometheus_payload" then
    build.withPrometheus
  else
    true

def adapterSupported (type : String) : Bool :=
  type == "file" || type == "unique_file" || type == "memory" || type == "mdbx" ||
    type == "otlp_http" || type == "otlp_payload" || type == "prometheus_http" ||
    type == "prometheus_payload"

def allowedFields (type : String) : List String :=
  if type = "file" then
    ["directory", "async", "auto_delete_days", "max_file_size_bytes", "max_rotated_files",
     "compress", "compress_level", "compress_async", "external_cmd", "naming", "seq_width",
     "use_dedicated_executor", "queue_capacity", "queue_policy"]
  else if type = "unique_file" then
    ["directory", "async", "auto_delete_days", "hash_length", "use_dedicated_executor",
     "queue_capacity", "queue_policy"]
  else if type = "memory" then
    ["max_records", "max_bytes", "max_age_ms"]
  else if type = "mdbx" then
    ["path", "app_name", "session_id", "async", "drop_on_overflow", "max_queue_size",
     "max_batch_size", "flush_interval_ms", "large_payload_threshold", "payload_preview_size",
     "store_large_payloads_separately", "payload_compression", "payload_compression_level"]
  else if type = "otlp_http" then
    ["format", "host", "path", "max_queue_size", "max_batch_size", "max_in_flight_requests",
     "export_interval_ms", "request_timeout_sec", "retry_attempts", "retry_delay_ms",
     "max_payload_bytes", "compression", "compression_level", "drop_on_overflow", "async",
     "cancel_on_shutdown"]
  else if type = "otlp_payload" then
    ["format", "async", "max_payload_bytes", "max_batch_size", "max_queue_size",
     "drop_on_overflow", "export_interval_ms"]
  else if type = "prometheus_http" then
    ["format", "address", "port", "path", "health_path", "enable_health_endpoint",
     "start_immediately"]
  else if type = "prometheus_payload" then
    ["format", "emit_on_log", "emit_on_wait"]
  else
    []

def fieldAllowed (type field : String) : Bool :=
  field ∈ allowedFields type

def has (fields : ConfigurationFieldMap) (name : String) : Bool :=
  (fields.lookup name).isSome

def typeIs (fields : ConfigurationFieldMap) (name : String) (kind : Kind) : Bool :=
  match fields.lookup name with
  | none => true
  | some value => value.type = kind

section Validate

variable (logger : ConfigurationLoggerSpec)

def validateType (name : String) (kind : Kind) : Diagnosed Bool :=
  if typeIs logger.backend name kind then
    return true
  else
    refuse .invalidValue ("backend." ++ name) "Field has an invalid value type"

def validateTypes (kinds : List (String × Kind)) : Diagnosed Bool :=
  Report.all (kinds.map (fun field => validateType logger field.1 field.2))

def validateEnum (name : String) (values : List String) : Diagnosed Bool :=
  match logger.backend.lookup name with
  | none => return true
  | some value =>
    if value.getString ∈ values.map some then
      return true
    else
      refuse .invalidValue ("backend." ++ name) "Field has an unsupported named value"

def commonTypes : List (String × Kind) :=
  [("async", .boolean), ("use_dedicated_executor", .boolean), ("queue_capacity", .unsignedInteger),
   ("queue_policy", .string)]

def validateCommonTypes : Diagnosed Bool :=
  validateTypes logger commonTypes

def fileTypes : List (String × Kind) :=
  [("directory", .string), ("auto_delete_days", .signedInteger),
   ("max_file_size_bytes", .unsignedInteger), ("max_rotated_files", .unsignedInteger),
   ("compress", .string), ("compress_level", .signedInteger), ("compress_async", .boolean),
   ("external_cmd", .string), ("naming", .string), ("seq_width", .unsignedInteger)]

def validateFileTypes : Diagnosed Bool :=
  Report.all [
    validateTypes logger fileTypes,
    validateEnum logger "compress" ["none", "gzip", "zstd", "external_cmd"],
    validateEnum logger "naming" ["sequence", "timestamp", "timestamp_ms"],
    if logger.type = "unique_file" then
      validateType logger "hash_length" .unsignedInteger
    else
      return true]

def memoryTypes : List (String × Kind) :=
  [("max_records", .unsignedInteger), ("max_bytes", .unsignedInteger),
   ("max_age_ms", .signedInteger)]

def validateMemoryTypes : Diagnosed Bool :=
  validateTypes logger memoryTypes

def mdbxTypes : List (String × Kind) :=
  [("path", .string), ("app_name", .string), ("session_id", .unsignedInteger), ("async", .boolean),
   ("drop_on_overflow", .boolean), ("max_queue_size", .unsignedInteger),
   ("max_batch_size", .unsignedInteger), ("flush_interval_ms", .signedInteger),
   ("large_payload_threshold", .unsignedInteger), ("payload_preview_size", .unsignedInteger),
   ("store_large_payloads_separately", .boolean), ("payload_compression", .string),
   ("payload_compression_level", .signedInteger)]

def validatePayloadCompression (available : Bool) (value message : String) : Diagnosed Bool :=
  if (logger.backend.lookup "payload_compression").bind ConfigurationValue.getString = some value
      ∧ !available then
    refuse .unavailableBackend "backend.payload_compression" message
  else
    return true

def validateMdbxTypes (build : BuildOptions) : Diagnosed Bool :=
  Report.all [
    validateTypes logger mdbxTypes,
    validateEnum logger "payload_compression" ["none", "gzip", "zstd"],
    validatePayloadCompression logger build.hasZlib "gzip"
      "MDBX gzip payload compression is unavailable in this build",
    validatePayloadCompression logger build.hasZstd "zstd"
      "MDBX zstd payload compression is unavailable in this build"]

end Validate

def validateFormatField (kind : String → Option Kind) (unknown : String)
    (field : String × ConfigurationValue) : Diagnosed Bool :=
  match kind field.1 with
  | none => refuse .unknownField ("backend.format." ++ field.1) unknown
  | some kind =>
    if field.2.type = kind then
      return true
    else
      refuse .invalidValue ("backend.format." ++ field.1) "Field has an invalid value type"

def validateFormat (logger : ConfigurationLoggerSpec)
    (validateField : String × ConfigurationValue → Diagnosed Bool) : Diagnosed Bool :=
  match logger.backend.lookup "format" with
  | none => return true
  | some (.object fields) => Report.all (fields.map validateField)
  | some _ => refuse .invalidValue "backend.format" "format must be an object"

def otlpStringFields : List String :=
  ["service_name", "service_namespace", "service_instance_id", "deployment_environment",
   "args_prefix"]

def otlpBoolFields : List String :=
  ["include_source", "include_thread_id", "include_format", "include_arg_names", "include_args"]

def otlpFormatKind (name : String) : Option Kind :=
  if name ∈ otlpStringFields then
    some .string
  else if name ∈ otlpBoolFields then
    some .boolean
  else
    none

def validateOtlpFormat (logger : ConfigurationLoggerSpec) : Diagnosed Bool :=
  validateFormat logger
    (validateFormatField otlpFormatKind "Field is not part of OtlpJsonFormatConfig")

def prometheusStringFields : List String :=
  ["metric_prefix", "logger_label_name", "instance_label_name", "instance_label_value"]

def prometheusBoolFields : List String :=
  ["include_help", "include_type", "include_timestamp", "include_logger_label",
   "include_instance_label", "include_build_info"]

def prometheusFormatKind (name : String) : Option Kind :=
  if name ∈ prometheusStringFields then
    some .string
  else if name ∈ prometheusBoolFields then
    some .boolean
  else if name = "const_labels" then
    some .array
  else
    none

def labelPath (index : Nat) : String :=
  "backend.format.const_labels[" ++ toString index ++ "]"

def validateLabel (index : Nat) (label : ConfigurationValue) : Diagnosed Bool :=
  match label with
  | .object members =>
    Report.all [
      Report.all (members.map fun member =>
        if member.1 ≠ "name" ∧ member.1 ≠ "value" then
          refuse .unknownField (labelPath index ++ "." ++ member.1)
            "Field is not part of PrometheusLabel"
        else
          return true),
      if (members.lookup "name").map ConfigurationValue.type = some .string
          ∧ (members.lookup "value").map ConfigurationValue.type = some .string then
        return true
      else
        refuse .invalidValue (labelPath index) "Constant labels require string name and value"]
  | _ => refuse .invalidValue (labelPath index) "Each constant label must be an object"

def validateConstLabels (field : String × ConfigurationValue) : Diagnosed Bool :=
  match field.2 with
  | .array labels =>
    if field.1 = "const_labels" then
      Report.all (labels.mapIdx validateLabel)
    else
      return true
  | _ => return true

def validatePrometheusFormatField (field : String × ConfigurationValue) : Diagnosed Bool :=
  Report.all [
    validateFormatField prometheusFormatKind "Field is not part of PrometheusTextFormatConfig"
      field,
    validateConstLabels field]

def validatePrometheusFormat (logger : ConfigurationLoggerSpec) : Diagnosed Bool :=
  validateFormat logger validatePrometheusFormatField

section Backends

variable (logger : ConfigurationLoggerSpec)

def otlpTypes (type : String) : List (String × Kind) :=
  [("host", .string), ("path", .string), ("max_queue_size", .unsignedInteger),
   ("max_batch_size", .unsignedInteger), ("max_in_flight_requests", .unsignedInteger),
   ("export_interval_ms", if type = "otlp_payload" then .unsignedInteger else .signedInteger),
   ("request_timeout_sec", .signedInteger), ("retry_attempts", .signedInteger),
   ("retry_delay_ms", .signedInteger), ("max_payload_bytes", .unsignedInteger),
   ("compression", .string), ("compression_level", .signedInteger), ("drop_on_overflow", .boolean),
   ("async", .boolean), ("cancel_on_shutdown", .boolean)]

def validateOtlpTypes : Diagnosed Bool :=
  Report.all [
    validateOtlpFormat logger,
    validateTypes logger (otlpTypes logger.type),
    validateEnum logger "compression" ["none", "gzip", "zstd"]]

def prometheusHttpTypes : List (String × Kind) :=
  [("address", .string), ("port", .unsignedInteger), ("path", .string), ("health_path", .string),
   ("enable_health_endpoint", .boolean), ("start_immediately", .boolean)]

def prometheusPayloadTypes : List (String × Kind) :=
  [("emit_on_log", .boolean), ("emit_on_wait", .boolean)]

def validatePrometheusTypes : Diagnosed Bool :=
  Report.all [
    validatePrometheusFormat logger,
    if logger.type = "prometheus_http" then
      validateTypes logger prometheusHttpTypes
    else if logger.type = "prometheus_payload" then
      validateTypes logger prometheusPayloadTypes
    else
      return true]

def validateUnknownFields : Diagnosed Bool :=
  Report.all (logger.backend.map fun field =>
    if fieldAllowed logger.type field.1 then
      return true
    else
      refuse .unknownField ("backend." ++ field.1)
        "Field is not part of the selected built-in backend")

def validateBackendTypes (build : BuildOptions) : Diagnosed Bool :=
  if logger.type = "file" ∨ logger.type = "unique_file" then
    validateFileTypes logger
  else if logger.type = "memory" then
    validateMemoryTypes logger
  else if logger.type = "mdbx" then
    validateMdbxTypes logger build
  else if logger.type = "otlp_http" ∨ logger.type = "otlp_payload" then
    validateOtlpTypes logger
  else if logger.type = "prometheus_http" ∨ logger.type = "prometheus_payload" then
    validatePrometheusTypes logger
  else
    return true

def validateBackend (build : BuildOptions) : Diagnosed Bool :=
  if !isKnownConfigurationBackend logger.type then
    refuse .unknownBackendType "type" "Built-in materializer does not know this backend"
  else if !backendAvailable build logger.type then
    refuse .unavailableBackend "type" "The selected optional backend is not enabled in this build"
  else if !adapterSupported logger.type then
    refuse .unavailableBackend "type"
      "No built-in semantic adapter is defined for this backend yet"
  else
    Report.all [
      validateUnknownFields logger,
      validateCommonTypes logger,
      validateBackendTypes logger build]

end Backends

def setDefault (fields : ConfigurationFieldMap) (field : String × ConfigurationValue)
    : ConfigurationFieldMap :=
  if has fields field.1 then fields else Table.assignEntry field.1 field.2 fields

def setDefaults (fields defaults : ConfigurationFieldMap) : ConfigurationFieldMap :=
  defaults.foldl setDefault fields

def mergeObjectDefaults (fields : ConfigurationFieldMap) (name : String)
    (defaults : ConfigurationFieldMap) : ConfigurationFieldMap :=
  match fields.lookup name with
  | none => Table.assignEntry name (.object defaults) fields
  | some (.object observed) => Table.assignEntry name (.object (setDefaults observed defaults)) fields
  | some _ => fields

def fileDefaults : ConfigurationFieldMap :=
  [("directory", .string "logs"), ("async", .boolean true), ("auto_delete_days", .signed 30),
   ("max_file_size_bytes", .unsigned 0), ("max_rotated_files", .unsigned 0),
   ("compress", .string "none"), ("compress_level", .signed 1), ("compress_async", .boolean true),
   ("external_cmd", .string ""), ("naming", .string "sequence"), ("seq_width", .unsigned 3),
   ("use_dedicated_executor", .boolean false), ("queue_capacity", .unsigned 0),
   ("queue_policy", .string "block")]

def uniqueFileDefaults : ConfigurationFieldMap :=
  [("directory", .string "unique_logs"), ("async", .boolean true), ("auto_delete_days", .signed 30),
   ("hash_length", .unsigned 8), ("use_dedicated_executor", .boolean false),
   ("queue_capacity", .unsigned 0), ("queue_policy", .string "block")]

def memoryDefaults : ConfigurationFieldMap :=
  [("max_records", .unsigned 1000), ("max_bytes", .unsigned (1024 * 1024)),
   ("max_age_ms", .signed (24 * 60 * 60 * 1000))]

def mdbxDefaults : ConfigurationFieldMap :=
  [("path", .string "logs.mdbx"), ("app_name", .string ""), ("session_id", .unsigned 0),
   ("async", .boolean true), ("drop_on_overflow", .boolean true),
   ("max_queue_size", .unsigned 8192), ("max_batch_size", .unsigned 256),
   ("flush_interval_ms", .signed 100), ("large_payload_threshold", .unsigned 4096),
   ("payload_preview_size", .unsigned 512), ("store_large_payloads_separately", .boolean true),
   ("payload_compression", .string "none"), ("payload_compression_level", .signed 6)]

def fieldsOf (fields : ConfigurationFieldMap) : ConfigurationFieldMap :=
  fields.foldl (fun fields field => Table.assignEntry field.1 field.2 fields) []

def otlpFormatDefaults : ConfigurationFieldMap :=
  fieldsOf
    [("service_name", .string "logit-app"), ("service_namespace", .string ""),
     ("service_instance_id", .string ""), ("deployment_environment", .string ""),
     ("include_source", .boolean true), ("include_thread_id", .boolean true),
     ("include_format", .boolean true), ("include_arg_names", .boolean false),
     ("include_args", .boolean true), ("args_prefix", .string "logit.arg.")]

def otlpHttpDefaults : ConfigurationFieldMap :=
  [("host", .string "http://localhost:4318"), ("path", .string "/v1/logs"),
   ("max_queue_size", .unsigned 8192), ("max_batch_size", .unsigned 256),
   ("max_in_flight_requests", .unsigned 1), ("export_interval_ms", .signed 1000),
   ("request_timeout_sec", .signed 3), ("retry_attempts", .signed 2),
   ("retry_delay_ms", .signed 250), ("max_payload_bytes", .unsigned (1024 * 1024)),
   ("compression", .string "none"), ("compression_level", .signed 6),
   ("drop_on_overflow", .boolean true), ("async", .boolean true),
   ("cancel_on_shutdown", .boolean false)]

def otlpPayloadDefaults : ConfigurationFieldMap :=
  [("async", .boolean true), ("max_payload_bytes", .unsigned (1024 * 1024)),
   ("max_batch_size", .unsigned 256), ("max_queue_size", .unsigned 1024),
   ("drop_on_overflow", .boolean true), ("export_interval_ms", .unsigned 100)]

def prometheusFormatDefaults : ConfigurationFieldMap :=
  fieldsOf
    [("include_help", .boolean true), ("include_type", .boolean true),
     ("include_timestamp", .boolean false), ("metric_prefix", .string "logit_"),
     ("const_labels", .array []), ("include_logger_label", .boolean true),
     ("logger_label_name", .string "logger"), ("include_instance_label", .boolean false),
     ("instance_label_name", .string "instance"), ("instance_label_value", .string ""),
     ("include_build_info", .boolean true)]

def prometheusHttpDefaults : ConfigurationFieldMap :=
  [("address", .string "0.0.0.0"), ("port", .unsigned 9090), ("path", .string "/metrics"),
   ("health_path", .string "/health"), ("enable_health_endpoint", .boolean true),
   ("start_immediately", .boolean true)]

def prometheusPayloadDefaults : ConfigurationFieldMap :=
  [("emit_on_log", .boolean false), ("emit_on_wait", .boolean true)]

def formatDefaults (type : String) : Option ConfigurationFieldMap :=
  if type = "otlp_http" ∨ type = "otlp_payload" then
    some otlpFormatDefaults
  else if type = "prometheus_http" ∨ type = "prometheus_payload" then
    some prometheusFormatDefaults
  else
    none

def fieldDefaults (type : String) : ConfigurationFieldMap :=
  if type = "file" then
    fileDefaults
  else if type = "unique_file" then
    uniqueFileDefaults
  else if type = "memory" then
    memoryDefaults
  else if type = "mdbx" then
    mdbxDefaults
  else if type = "otlp_http" then
    otlpHttpDefaults
  else if type = "otlp_payload" then
    otlpPayloadDefaults
  else if type = "prometheus_http" then
    prometheusHttpDefaults
  else if type = "prometheus_payload" then
    prometheusPayloadDefaults
  else
    []

def applyDefaults (type : String) (fields : ConfigurationFieldMap) : ConfigurationFieldMap :=
  let fields := match formatDefaults type with
    | none => fields
    | some format => mergeObjectDefaults fields "format" format
  setDefaults fields (fieldDefaults type)

def materializeBackend (build : BuildOptions) (logger : ConfigurationLoggerSpec)
    : Diagnosed (Written ConfigurationMaterializedLogger) := do
  if ← validateBackend logger build then
    return {
      valid := true
      output := {
        id := logger.id
        type := logger.type
        strategy := logger.strategy
        backend := applyDefaults logger.type logger.backend
        requiredBindings :=
          if logger.type = "otlp_payload" ∨ logger.type = "prometheus_payload" then
            ["on_payload"]
          else
            [] } }
  else
    return { valid := false, output := {} }

def materializer (θ : Type) (build : BuildOptions) : ConfigurationMaterializer θ where
  validateBackend _ logger := .ok (validateBackend logger build)
  materializeBackend _ logger := .ok (materializeBackend build logger)

end BuiltinConfigurationMaterializer
end LogIt
