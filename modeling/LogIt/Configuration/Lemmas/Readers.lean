import LogIt.Configuration.Impl.RuntimeBuiltins

namespace LogIt

open ConfigurationValue (Kind)

namespace ConfigurationRuntime

section Values

def HasKind (fields : ConfigurationFieldMap) (name : String) (kind : Kind) : Prop :=
  ∃ value, fields.lookup name = some value ∧ value.type = kind

abbrev HasKinds (fields : ConfigurationFieldMap) (table : List (String × Kind)) : Prop :=
  ∀ name kind, (name, kind) ∈ table → HasKind fields name kind

def HasName (fields : ConfigurationFieldMap) (name : String) (values : List String) : Prop :=
  ∃ text ∈ values, fields.lookup name = some (.string text)

variable (fields : ConfigurationFieldMap) (name : String)

def booleanAt : Bool :=
  ((fields.lookup name).bind ConfigurationValue.getBoolean).getD false

def signedAt : Int64 :=
  ((fields.lookup name).bind ConfigurationValue.getSigned).getD 0

def unsignedAt : UInt64 :=
  ((fields.lookup name).bind ConfigurationValue.getUnsigned).getD 0

def stringAt : String :=
  ((fields.lookup name).bind ConfigurationValue.getString).getD ""

def objectAt : ConfigurationFieldMap :=
  ((fields.lookup name).bind ConfigurationValue.getObject).getD []

def arrayAt : List ConfigurationValue :=
  ((fields.lookup name).bind ConfigurationValue.getArray).getD []

def namedAt {α : Type} (names : List (String × α)) (default : α) : α :=
  (names.lookup (stringAt fields name)).getD default

end Values

section Fields

variable {α C : Type} {fields : ConfigurationFieldMap} {name path message : String} {kind : Kind}

theorem bind_get_of_hasKind {get : ConfigurationValue → Option α}
    (hget : ∀ value, value.type = kind → (get value).isSome = true) (default : α)
    (h : HasKind fields name kind)
    : (fields.lookup name).bind get = some (((fields.lookup name).bind get).getD default) := by
  obtain ⟨value, hvalue, hkind⟩ := h
  obtain ⟨a, ha⟩ := Option.isSome_iff_exists.mp (hget value hkind)
  simp [hvalue, ha]

section

variable (value : ConfigurationValue)

theorem isSome_getBoolean (h : value.type = .boolean) : value.getBoolean.isSome = true := by
  cases value <;> first | rfl | cases h

theorem isSome_getSigned (h : value.type = .signedInteger) : value.getSigned.isSome = true := by
  cases value <;> first | rfl | cases h

theorem isSome_getUnsigned (h : value.type = .unsignedInteger)
    : value.getUnsigned.isSome = true := by
  cases value <;> first | rfl | cases h

theorem isSome_getString (h : value.type = .string) : value.getString.isSome = true := by
  cases value <;> first | rfl | cases h

theorem isSome_getObject (h : value.type = .object) : value.getObject.isSome = true := by
  cases value <;> first | rfl | cases h

end

theorem readField_of {get : ConfigurationValue → Option α}
    (h : (fields.lookup name).bind get = some a)
    : readField get message fields path name = pure (some a) := by
  unfold readField
  rw [h]

def Writes (read : C → Diagnosed (Written C)) (write : C → C) : Prop :=
  ∀ config, read config = pure { valid := true, output := write config }

theorem Writes.store {read : Diagnosed (Option α)} {write : α → C → C} {a : α}
    (h : read = pure (some a))
    : Writes (store read write) (write a) := by
  intro config
  rw [h]
  rfl

theorem readAll_cons {read : C → Diagnosed (Written C)} (h : Writes read write)
    (reads : List (C → Diagnosed (Written C))) (config : C)
    : readAll (read :: reads) config = readAll reads (write config) := by
  have hvalid (r : Diagnosed (Written C))
      : r.value = { valid := r.value.valid && true, output := r.value.output } := by
    rw [Bool.and_true]
  have heq : readAll (read :: reads) config =
      ⟨{ valid := (readAll reads (write config)).value.valid && true
         output := (readAll reads (write config)).value.output },
        [] ++ ((readAll reads (write config)).messages ++ [])⟩ := by
    conv => lhs; unfold readAll
    rw [h config]
    rfl
  rw [heq, ← hvalid, List.append_nil, List.nil_append]

variable {logger : ConfigurationMaterializedLogger}

theorem readObject_of (h : HasKind logger.backend name .object)
    : readObject logger name = pure (some (objectAt logger.backend name)) :=
  readField_of (bind_get_of_hasKind isSome_getObject _ h)

section ReadAll

variable (reads : List (C → Diagnosed (Written C))) (config : C)

theorem readAll_string (write : String → C → C) (h : HasKind logger.backend name .string)
    : readAll (store (readString logger name) write :: reads) config =
        readAll reads (write (stringAt logger.backend name) config) :=
  readAll_cons (Writes.store (readField_of (bind_get_of_hasKind isSome_getString _ h))) reads config

theorem readAll_bool (write : Bool → C → C) (h : HasKind logger.backend name .boolean)
    : readAll (store (readBool logger name) write :: reads) config =
        readAll reads (write (booleanAt logger.backend name) config) :=
  readAll_cons (Writes.store (readField_of (bind_get_of_hasKind isSome_getBoolean _ h))) reads config

theorem readAll_signed (write : Int64 → C → C) (h : HasKind logger.backend name .signedInteger)
    : readAll (store (readSigned logger name) write :: reads) config =
        readAll reads (write (signedAt logger.backend name) config) :=
  readAll_cons (Writes.store (readField_of (bind_get_of_hasKind isSome_getSigned _ h))) reads config

theorem readAll_unsigned (write : UInt64 → C → C) (h : HasKind logger.backend name .unsignedInteger)
    : readAll (store (readUnsigned logger name) write :: reads) config =
        readAll reads (write (unsignedAt logger.backend name) config) :=
  readAll_cons (Writes.store (readField_of (bind_get_of_hasKind isSome_getUnsigned _ h))) reads config

theorem readAll_objectString (write : String → C → C) (h : HasKind fields name .string)
    : readAll (store (objectString fields name path) write :: reads) config =
        readAll reads (write (stringAt fields name) config) :=
  readAll_cons (Writes.store (readField_of (bind_get_of_hasKind isSome_getString _ h))) reads config

theorem readAll_objectBool (write : Bool → C → C) (h : HasKind fields name .boolean)
    : readAll (store (objectBool fields name path) write :: reads) config =
        readAll reads (write (booleanAt fields name) config) :=
  readAll_cons (Writes.store (readField_of (bind_get_of_hasKind isSome_getBoolean _ h))) reads config

end ReadAll

theorem writes_named {write : α → C → C} (names : List (String × α)) {values : List String}
    (default : α) (h : HasName logger.backend name values)
    (hnames : ∀ text ∈ values, (names.lookup text).isSome = true)
    : Writes (store (readNamed logger name names message) write)
        (write (namedAt logger.backend name names default)) := by
  obtain ⟨text, htext, hvalue⟩ := h
  obtain ⟨a, ha⟩ := Option.isSome_iff_exists.mp (hnames text htext)
  have hread : readString logger name = pure (some text) := by
    apply readField_of
    rw [hvalue]
    rfl
  apply Writes.store
  unfold readNamed namedAt stringAt
  rw [hread, hvalue]
  simp [ConfigurationValue.getString, ha, Bind.bind, Pure.pure]

end Fields
end ConfigurationRuntime

open ConfigurationRuntime BuiltinConfigurationMaterializer

section Configs

variable (fields : ConfigurationFieldMap)

/-! The configurations that the fields of a backend stand for. -/

def FileConfig.ofFields : FileConfig where
  directory := stringAt fields "directory"
  async := booleanAt fields "async"
  autoDeleteDays := (signedAt fields "auto_delete_days").toInt32
  maxFileSizeBytes := unsignedAt fields "max_file_size_bytes"
  maxRotatedFiles := (unsignedAt fields "max_rotated_files").toUInt32
  compress := namedAt fields "compress" compressNames .none
  compressLevel := (signedAt fields "compress_level").toInt32
  compressAsync := booleanAt fields "compress_async"
  externalCmd := stringAt fields "external_cmd"
  naming := namedAt fields "naming" namingNames .sequence
  seqWidth := (unsignedAt fields "seq_width").toUInt32
  useDedicatedExecutor := booleanAt fields "use_dedicated_executor"
  queueCapacity := unsignedAt fields "queue_capacity"
  queuePolicy := namedAt fields "queue_policy" queuePolicyNames .block

def UniqueFileConfig.ofFields : UniqueFileConfig where
  directory := stringAt fields "directory"
  async := booleanAt fields "async"
  autoDeleteDays := (signedAt fields "auto_delete_days").toInt32
  hashLength := unsignedAt fields "hash_length"
  useDedicatedExecutor := booleanAt fields "use_dedicated_executor"
  queueCapacity := unsignedAt fields "queue_capacity"
  queuePolicy := namedAt fields "queue_policy" queuePolicyNames .block

def MemoryConfig.ofFields : MemoryConfig where
  maxRecords := unsignedAt fields "max_records"
  maxBytes := unsignedAt fields "max_bytes"
  maxAgeMs := signedAt fields "max_age_ms"

def MdbxConfig.ofFields (onError : Option Nat) : MdbxConfig where
  path := stringAt fields "path"
  appName := stringAt fields "app_name"
  sessionId := unsignedAt fields "session_id"
  async := booleanAt fields "async"
  dropOnOverflow := booleanAt fields "drop_on_overflow"
  maxQueueSize := unsignedAt fields "max_queue_size"
  maxBatchSize := unsignedAt fields "max_batch_size"
  flushIntervalMs := (signedAt fields "flush_interval_ms").toInt32
  largePayloadThreshold := unsignedAt fields "large_payload_threshold"
  payloadPreviewSize := unsignedAt fields "payload_preview_size"
  storeLargePayloadsSeparately := booleanAt fields "store_large_payloads_separately"
  payloadCompression := namedAt fields "payload_compression" payloadCompressionNames .none
  payloadCompressionLevel := (signedAt fields "payload_compression_level").toInt32
  onError := onError

def OtlpJsonFormatConfig.ofFields : OtlpJsonFormatConfig where
  serviceName := stringAt fields "service_name"
  serviceNamespace := stringAt fields "service_namespace"
  serviceInstanceId := stringAt fields "service_instance_id"
  deploymentEnvironment := stringAt fields "deployment_environment"
  includeSource := booleanAt fields "include_source"
  includeThreadId := booleanAt fields "include_thread_id"
  includeFormat := booleanAt fields "include_format"
  includeArgNames := booleanAt fields "include_arg_names"
  includeArgs := booleanAt fields "include_args"
  argsPrefix := stringAt fields "args_prefix"

def OtlpHttpConfig.ofFields (build : BuildOptions) : OtlpHttpConfig where
  format := OtlpJsonFormatConfig.ofFields (objectAt fields "format")
  host := stringAt fields "host"
  path := stringAt fields "path"
  maxQueueSize := unsignedAt fields "max_queue_size"
  maxBatchSize := unsignedAt fields "max_batch_size"
  maxInFlightRequests := unsignedAt fields "max_in_flight_requests"
  exportIntervalMs := (signedAt fields "export_interval_ms").toInt32
  requestTimeoutSec := (signedAt fields "request_timeout_sec").toInt32
  retryAttempts := toLong build (signedAt fields "retry_attempts")
  retryDelayMs := toLong build (signedAt fields "retry_delay_ms")
  maxPayloadBytes := unsignedAt fields "max_payload_bytes"
  compression := namedAt fields "compression" otlpCompressionNames .none
  compressionLevel := (signedAt fields "compression_level").toInt32
  dropOnOverflow := booleanAt fields "drop_on_overflow"
  async := booleanAt fields "async"
  cancelOnShutdown := booleanAt fields "cancel_on_shutdown"

def OtlpPayloadConfig.ofFields (onPayload : Nat) : OtlpPayloadConfig where
  format := OtlpJsonFormatConfig.ofFields (objectAt fields "format")
  onPayload := some onPayload
  async := booleanAt fields "async"
  maxPayloadBytes := unsignedAt fields "max_payload_bytes"
  maxBatchSize := unsignedAt fields "max_batch_size"
  maxQueueSize := unsignedAt fields "max_queue_size"
  dropOnOverflow := booleanAt fields "drop_on_overflow"
  exportIntervalMs := (unsignedAt fields "export_interval_ms").toUInt32

def PrometheusLabel.ofValue (value : ConfigurationValue) : PrometheusLabel where
  name := stringAt (value.getObject.getD []) "name"
  value := stringAt (value.getObject.getD []) "value"

def PrometheusTextFormatConfig.ofFields : PrometheusTextFormatConfig where
  includeHelp := booleanAt fields "include_help"
  includeType := booleanAt fields "include_type"
  includeTimestamp := booleanAt fields "include_timestamp"
  metricPrefix := stringAt fields "metric_prefix"
  constLabels := (arrayAt fields "const_labels").map PrometheusLabel.ofValue
  includeLoggerLabel := booleanAt fields "include_logger_label"
  loggerLabelName := stringAt fields "logger_label_name"
  includeInstanceLabel := booleanAt fields "include_instance_label"
  instanceLabelName := stringAt fields "instance_label_name"
  instanceLabelValue := stringAt fields "instance_label_value"
  includeBuildInfo := booleanAt fields "include_build_info"

def PrometheusHttpConfig.ofFields : PrometheusHttpConfig where
  format := PrometheusTextFormatConfig.ofFields (objectAt fields "format")
  address := stringAt fields "address"
  port := (unsignedAt fields "port").toUInt16
  path := stringAt fields "path"
  healthPath := stringAt fields "health_path"
  enableHealthEndpoint := booleanAt fields "enable_health_endpoint"
  startImmediately := booleanAt fields "start_immediately"

def PrometheusPayloadConfig.ofFields (onPayload : Nat) : PrometheusPayloadConfig where
  format := PrometheusTextFormatConfig.ofFields (objectAt fields "format")
  onPayload := some onPayload
  emitOnLog := booleanAt fields "emit_on_log"
  emitOnWait := booleanAt fields "emit_on_wait"

end Configs

namespace ConfigurationRuntime

section Readers

variable {logger : ConfigurationMaterializedLogger} {bindings : ConfigurationBindingSet}

def queuePolicies : List String :=
  ["block", "drop_newest", "drop_oldest"]

def uniqueFileTypes : List (String × Kind) :=
  [("directory", .string), ("async", .boolean), ("auto_delete_days", .signedInteger),
   ("hash_length", .unsignedInteger), ("use_dedicated_executor", .boolean),
   ("queue_capacity", .unsignedInteger)]

def otlpPayloadTypes : List (String × Kind) :=
  [("async", .boolean), ("max_payload_bytes", .unsignedInteger),
   ("max_batch_size", .unsignedInteger), ("max_queue_size", .unsignedInteger),
   ("drop_on_overflow", .boolean), ("export_interval_ms", .unsignedInteger)]

theorem writes_readFileConfig
    (hkinds : HasKinds logger.backend (commonTypes ++ fileTypes))
    (hcompress : HasName logger.backend "compress" ["none", "gzip", "zstd", "external_cmd"])
    (hnaming : HasName logger.backend "naming" ["sequence", "timestamp", "timestamp_ms"])
    (hpolicy : HasName logger.backend "queue_policy" queuePolicies)
    : Writes (readFileConfig logger) (fun _ => FileConfig.ofFields logger.backend) := by
  intro config
  unfold readFileConfig readQueuePolicy
  simp (disch := exact hkinds _ _ (by decide)) only [readAll_string, readAll_bool, readAll_signed,
    readAll_unsigned, readAll_cons (writes_named compressNames .none hcompress (by decide)),
    readAll_cons (writes_named namingNames .sequence hnaming (by decide)),
    readAll_cons (writes_named queuePolicyNames .block hpolicy (by decide))]
  rfl

theorem writes_readUniqueFileConfig
    (hkinds : HasKinds logger.backend uniqueFileTypes)
    (hpolicy : HasName logger.backend "queue_policy" queuePolicies)
    : Writes (readUniqueFileConfig logger) (fun _ => UniqueFileConfig.ofFields logger.backend) := by
  intro config
  unfold readUniqueFileConfig readQueuePolicy
  simp (disch := exact hkinds _ _ (by decide)) only [readAll_string, readAll_bool, readAll_signed,
    readAll_unsigned, readAll_cons (writes_named queuePolicyNames .block hpolicy (by decide))]
  rfl

theorem writes_readMemoryConfig
    (hkinds : HasKinds logger.backend memoryTypes)
    : Writes (readMemoryConfig logger) (fun _ => MemoryConfig.ofFields logger.backend) := by
  intro config
  unfold readMemoryConfig
  simp (disch := exact hkinds _ _ (by decide)) only [readAll_signed, readAll_unsigned]
  rfl

theorem writes_readOnError
    (hbindings : bindings.containsName "on_error" = true →
      (bindings.get .errorCallback "on_error").isSome = true)
    : Writes (readOnError bindings)
        (fun config => { config with
          onError := (bindings.get .errorCallback "on_error").or config.onError }) := by
  intro config
  unfold readOnError
  split
  . next hname =>
    obtain ⟨callback, hcallback⟩ := Option.isSome_iff_exists.mp (hbindings hname)
    rw [hcallback]
    rfl
  . next hname =>
    have hnone : bindings.get .errorCallback "on_error" = none := by
      unfold ConfigurationBindingSet.get
      unfold ConfigurationBindingSet.containsName at hname
      rw [Bool.not_eq_true, Option.isSome_eq_false_iff, Option.isNone_iff_eq_none] at hname
      rw [hname]
    rw [hnone]
    rfl

theorem writes_readMdbxConfig
    (hkinds : HasKinds logger.backend mdbxTypes)
    (hcompression : HasName logger.backend "payload_compression" ["none", "gzip", "zstd"])
    (hbindings : bindings.containsName "on_error" = true →
      (bindings.get .errorCallback "on_error").isSome = true)
    : Writes (readMdbxConfig logger bindings)
        (fun config => MdbxConfig.ofFields logger.backend
          ((bindings.get .errorCallback "on_error").or config.onError)) := by
  intro config
  unfold readMdbxConfig
  simp (disch := exact hkinds _ _ (by decide)) only [readAll_string, readAll_bool, readAll_signed,
    readAll_unsigned,
    readAll_cons (writes_named payloadCompressionNames .none hcompression (by decide)),
    readAll_cons (writes_readOnError hbindings)]
  rfl

structure HasFormat (kinds : String → Option Kind) (fields : ConfigurationFieldMap) : Prop where
  object : HasKind fields "format" .object
  members : ∀ name kind, kinds name = some kind → HasKind (objectAt fields "format") name kind

theorem writes_readOtlpFormat (hformat : HasFormat otlpFormatKind logger.backend)
    : Writes (readOtlpFormat logger)
        (fun _ => OtlpJsonFormatConfig.ofFields (objectAt logger.backend "format")) := by
  intro config
  unfold readOtlpFormat
  rw [readObject_of hformat.object]
  change readAll _ config = _
  simp (disch := exact hformat.members _ _ rfl) only [readAll_objectString, readAll_objectBool]
  rfl

theorem writes_storeFormat {F C : Type} {read : F → Diagnosed (Written F)} {get : C → F}
    {write : F → C → C} {format : F → F} (h : Writes read format)
    : Writes (storeFormat read get write) (fun config => write (format (get config)) config) := by
  intro config
  unfold storeFormat
  rw [h (get config)]
  rfl

theorem writes_readOtlpHttpConfig (hformat : HasFormat otlpFormatKind logger.backend)
    (hkinds : HasKinds logger.backend (otlpTypes "otlp_http"))
    (hcompression : HasName logger.backend "compression" ["none", "gzip", "zstd"])
    : Writes (readOtlpHttpConfig logger build)
        (fun _ => OtlpHttpConfig.ofFields logger.backend build) := by
  intro config
  unfold readOtlpHttpConfig readOtlpCompression
  simp (disch := exact hkinds _ _ (by decide)) only [readAll_string, readAll_bool, readAll_signed,
    readAll_unsigned, readAll_cons (writes_storeFormat (writes_readOtlpFormat hformat)),
    readAll_cons (writes_named otlpCompressionNames .none hcompression (by decide))]
  rfl

theorem writes_readOnPayload {C : Type} {message : String} {write : Nat → C → C} {callback : Nat}
    (h : bindings.get .payloadCallback "on_payload" = some callback)
    : Writes (store (readOnPayload bindings message) write) (write callback) := by
  apply Writes.store
  unfold readOnPayload
  rw [h]

theorem writes_readOtlpPayloadConfig (hformat : HasFormat otlpFormatKind logger.backend)
    (hkinds : HasKinds logger.backend otlpPayloadTypes)
    (hbinding : bindings.get .payloadCallback "on_payload" = some callback)
    : Writes (readOtlpPayloadConfig logger bindings)
        (fun _ => OtlpPayloadConfig.ofFields logger.backend callback) := by
  intro config
  unfold readOtlpPayloadConfig
  simp (disch := exact hkinds _ _ (by decide)) only [readAll_bool, readAll_unsigned,
    readAll_cons (writes_storeFormat (writes_readOtlpFormat hformat)),
    readAll_cons (writes_readOnPayload hbinding)]
  rfl

def IsLabel (label : ConfigurationValue) : Prop :=
  ∃ members, label = .object members ∧ HasKind members "name" .string
    ∧ HasKind members "value" .string

theorem readLabels_of (h : ∀ label ∈ labels, IsLabel label) (index : Nat)
    (config : PrometheusTextFormatConfig)
    : readLabels index config labels
        = pure {
          valid := true
          output := { config with
            constLabels := config.constLabels ++ labels.map PrometheusLabel.ofValue } } := by
  induction labels generalizing index config with
  | nil =>
    rw [List.map_nil, List.append_nil]
    rfl
  | cons label labels ih =>
    rw [List.forall_mem_cons] at h
    obtain ⟨members, rfl, hname, hvalue⟩ := h.1
    have hlabel : readAll [
        store (objectString members "name" (constLabelPath index)) (fun v c => { c with name := v }),
        store (objectString members "value" (constLabelPath index))
          (fun v c => { c with value := v })] ({} : PrometheusLabel)
        = pure { valid := true, output := PrometheusLabel.ofValue (.object members) } := by
      rw [readAll_objectString _ _ _ hname, readAll_objectString _ _ _ hvalue]
      rfl
    unfold readLabels
    rw [hlabel]
    change (do
      let rest ← readLabels (index + 1) { config with
        constLabels := config.constLabels ++ [PrometheusLabel.ofValue (.object members)] } labels
      return ({ valid := rest.valid && true, output := rest.output } : Written _)) = _
    rw [ih h.2, List.append_assoc]
    rfl

theorem writes_readConstLabels (h : HasKind object "const_labels" .array)
    (hlabels : ∀ label ∈ arrayAt object "const_labels", IsLabel label)
    : Writes (readConstLabels object)
        (fun config => { config with
          constLabels := config.constLabels
            ++ (arrayAt object "const_labels").map PrometheusLabel.ofValue }) := by
  intro config
  obtain ⟨value, hvalue, hkind⟩ := h
  cases value with
  | array labels =>
    have harray : arrayAt object "const_labels" = labels := by
      unfold arrayAt
      rw [hvalue]
      rfl
    unfold readConstLabels
    rw [hvalue]
    rw [harray] at hlabels ⊢
    exact readLabels_of hlabels 0 config
  | null | boolean value | signed value | unsigned value | string value | object value =>
    cases hkind

structure HasPrometheusFormat (fields : ConfigurationFieldMap) : Prop
    extends HasFormat prometheusFormatKind fields where
  labels : ∀ label ∈ arrayAt (objectAt fields "format") "const_labels", IsLabel label

theorem writes_readPrometheusFormat (hformat : HasPrometheusFormat logger.backend)
    : Writes (readPrometheusFormat logger)
        (fun config => { PrometheusTextFormatConfig.ofFields (objectAt logger.backend "format") with
          constLabels := config.constLabels ++
            (arrayAt (objectAt logger.backend "format") "const_labels").map
              PrometheusLabel.ofValue }) := by
  intro config
  unfold readPrometheusFormat
  rw [readObject_of hformat.object]
  change readAll _ config = _
  simp (disch := exact hformat.members _ _ rfl) only [readAll_objectString, readAll_objectBool,
    readAll_cons (writes_readConstLabels (hformat.members "const_labels" _ rfl) hformat.labels)]
  rfl

theorem writes_readPrometheusHttpMembers
    (hkinds : HasKinds logger.backend prometheusHttpTypes)
    : Writes (readPrometheusHttpMembers logger) (fun config =>
        { PrometheusHttpConfig.ofFields logger.backend with format := config.format }) := by
  intro config
  unfold readPrometheusHttpMembers
  simp (disch := exact hkinds _ _ (by decide)) only [readAll_string, readAll_bool, readAll_unsigned]
  rfl

theorem readPrometheusHttpConfig_of (hformat : HasPrometheusFormat logger.backend)
    (hkinds : HasKinds logger.backend prometheusHttpTypes)
    : readPrometheusHttpConfig logger {}
        = pure { valid := true, output := PrometheusHttpConfig.ofFields logger.backend } := by
  unfold readPrometheusHttpConfig
  rw [writes_readPrometheusFormat hformat]
  exact writes_readPrometheusHttpMembers hkinds _

theorem readPrometheusPayloadConfig_of (hformat : HasPrometheusFormat logger.backend)
    (hkinds : HasKinds logger.backend prometheusPayloadTypes)
    (hbinding : bindings.get .payloadCallback "on_payload" = some callback)
    : readPrometheusPayloadConfig logger bindings {}
        = pure {
          valid := true
          output := PrometheusPayloadConfig.ofFields logger.backend callback } := by
  suffices h : Writes (readPrometheusPayloadConfig logger bindings) (fun config =>
      { PrometheusPayloadConfig.ofFields logger.backend callback with
        format := { PrometheusTextFormatConfig.ofFields (objectAt logger.backend "format") with
          constLabels := config.format.constLabels ++
            (arrayAt (objectAt logger.backend "format") "const_labels").map
              PrometheusLabel.ofValue } }) from h {}
  intro config
  unfold readPrometheusPayloadConfig
  simp (disch := exact hkinds _ _ (by decide)) only [readAll_bool,
    readAll_cons (writes_storeFormat (writes_readPrometheusFormat hformat)),
    readAll_cons (writes_readOnPayload hbinding)]
  rfl

end Readers
end ConfigurationRuntime
end LogIt
