import LogIt.Configuration.Lemmas.Readable
import LogIt.Lib.MachineInteger

namespace LogIt

open List Option

open ConfigurationValue (Kind)

open BuiltinConfigurationMaterializer ConfigurationRuntime

namespace MachineInteger

def int : MachineInteger := ⟨32, true⟩

def int64 : MachineInteger := ⟨64, true⟩

def uint64 : MachineInteger := ⟨64, false⟩

def uint32 : MachineInteger := ⟨32, false⟩

def unsignedShort : MachineInteger := ⟨16, false⟩

def long (longHas64Bits : Bool) : MachineInteger := ⟨if longHas64Bits then 64 else 32, true⟩

end MachineInteger

open MachineInteger

def ConfigurationValue.integer : ConfigurationValue → Option Int
  | .signed value => some value.toInt
  | .unsigned value => some value.toNat
  | _ => none

def FileConfig.integers (config : FileConfig) : List (String × Int) :=
  [("auto_delete_days", config.autoDeleteDays.toInt),
   ("max_file_size_bytes", config.maxFileSizeBytes.toNat),
   ("max_rotated_files", config.maxRotatedFiles.toNat),
   ("compress_level", config.compressLevel.toInt),
   ("seq_width", config.seqWidth.toNat),
   ("queue_capacity", config.queueCapacity.toNat)]

def UniqueFileConfig.integers (config : UniqueFileConfig) : List (String × Int) :=
  [("auto_delete_days", config.autoDeleteDays.toInt),
   ("hash_length", config.hashLength.toNat),
   ("queue_capacity", config.queueCapacity.toNat)]

def MemoryConfig.integers (config : MemoryConfig) : List (String × Int) :=
  [("max_records", config.maxRecords.toNat),
   ("max_bytes", config.maxBytes.toNat),
   ("max_age_ms", config.maxAgeMs.toInt)]

def MdbxConfig.integers (config : MdbxConfig) : List (String × Int) :=
  [("session_id", config.sessionId.toNat),
   ("max_queue_size", config.maxQueueSize.toNat),
   ("max_batch_size", config.maxBatchSize.toNat),
   ("flush_interval_ms", config.flushIntervalMs.toInt),
   ("large_payload_threshold", config.largePayloadThreshold.toNat),
   ("payload_preview_size", config.payloadPreviewSize.toNat),
   ("payload_compression_level", config.payloadCompressionLevel.toInt)]

def OtlpHttpConfig.integers (config : OtlpHttpConfig) : List (String × Int) :=
  [("max_queue_size", config.maxQueueSize.toNat),
   ("max_batch_size", config.maxBatchSize.toNat),
   ("max_in_flight_requests", config.maxInFlightRequests.toNat),
   ("export_interval_ms", config.exportIntervalMs.toInt),
   ("request_timeout_sec", config.requestTimeoutSec.toInt),
   ("retry_attempts", config.retryAttempts.toInt),
   ("retry_delay_ms", config.retryDelayMs.toInt),
   ("max_payload_bytes", config.maxPayloadBytes.toNat),
   ("compression_level", config.compressionLevel.toInt)]

def OtlpPayloadConfig.integers (config : OtlpPayloadConfig) : List (String × Int) :=
  [("max_payload_bytes", config.maxPayloadBytes.toNat),
   ("max_batch_size", config.maxBatchSize.toNat),
   ("max_queue_size", config.maxQueueSize.toNat),
   ("export_interval_ms", config.exportIntervalMs.toNat)]

def PrometheusHttpConfig.integers (config : PrometheusHttpConfig) : List (String × Int) :=
  [("port", config.port.toNat)]

def BackendConfig.integers : BackendConfig → List (String × Int)
  | .file config => config.integers
  | .uniqueFile config => config.integers
  | .memory config => config.integers
  | .mdbx config => config.integers
  | .otlpHttp config => config.integers
  | .otlpPayload config => config.integers
  | .prometheusHttp config => config.integers
  | .prometheusPayload _ => []

def integerTypes (longHas64Bits : Bool) (type : String) : List (String × MachineInteger) :=
  if type = "file" then
    [("auto_delete_days", int), ("max_file_size_bytes", uint64), ("max_rotated_files", uint32),
     ("compress_level", int), ("seq_width", uint32), ("queue_capacity", uint64)]
  else if type = "unique_file" then
    [("auto_delete_days", int), ("hash_length", uint64), ("queue_capacity", uint64)]
  else if type = "memory" then
    [("max_records", uint64), ("max_bytes", uint64), ("max_age_ms", int64)]
  else if type = "mdbx" then
    [("session_id", uint64), ("max_queue_size", uint64), ("max_batch_size", uint64),
     ("flush_interval_ms", int), ("large_payload_threshold", uint64),
     ("payload_preview_size", uint64), ("payload_compression_level", int)]
  else if type = "otlp_http" then
    [("max_queue_size", uint64), ("max_batch_size", uint64), ("max_in_flight_requests", uint64),
     ("export_interval_ms", int), ("request_timeout_sec", int),
     ("retry_attempts", long longHas64Bits), ("retry_delay_ms", long longHas64Bits),
     ("max_payload_bytes", uint64), ("compression_level", int)]
  else if type = "otlp_payload" then
    [("max_payload_bytes", uint64), ("max_batch_size", uint64), ("max_queue_size", uint64),
     ("export_interval_ms", uint32)]
  else if type = "prometheus_http" then
    [("port", unsignedShort)]
  else
    []

section Fields

variable {build : BuildOptions} {type name : String} {fields : ConfigurationFieldMap}

def MachineInteger.kind (type : MachineInteger) : Kind :=
  if type.signed then .signedInteger else .unsignedInteger

theorem kind_int : int.kind = .signedInteger := by
  rfl

theorem kind_int64 : int64.kind = .signedInteger := by
  rfl

theorem kind_uint64 : uint64.kind = .unsignedInteger := by
  rfl

theorem kind_uint32 : uint32.kind = .unsignedInteger := by
  rfl

theorem kind_unsignedShort : unsignedShort.kind = .unsignedInteger := by
  rfl

theorem kind_long (longHas64Bits : Bool) : (long longHas64Bits).kind = .signedInteger := by
  rfl

def integerAt (fields : ConfigurationFieldMap) (name : String) : Int :=
  ((fields.lookup name).bind ConfigurationValue.integer).getD 0

theorem toInt_signedAt (h : HasKind fields name .signedInteger)
    : (signedAt fields name).toInt = integerAt fields name := by
  obtain ⟨value, hvalue, hkind⟩ := h
  unfold signedAt integerAt
  rw [hvalue]
  cases value <;> first | rfl | cases hkind

theorem toNat_unsignedAt (h : HasKind fields name .unsignedInteger)
    : ((unsignedAt fields name).toNat : Int) = integerAt fields name := by
  obtain ⟨value, hvalue, hkind⟩ := h
  unfold unsignedAt integerAt
  rw [hvalue]
  cases value <;> first | rfl | cases hkind

/-! What the members of a configuration hold, one lemma per type. -/

theorem int_at (h : HasKind fields name .signedInteger)
    : (signedAt fields name).toInt32.toInt = int.cast (integerAt fields name) := by
  rw [toInt_toInt32_eq_cast, toInt_signedAt h]
  rfl

theorem int64_at (h : HasKind fields name .signedInteger)
    : (signedAt fields name).toInt = int64.cast (integerAt fields name) := by
  rw [toInt_eq_cast, toInt_signedAt h]
  rfl

section

variable (h : HasKind fields name .unsignedInteger)

include h

theorem uint64_at
    : ((unsignedAt fields name).toNat : Int) = uint64.cast (integerAt fields name) := by
  rw [toNat_eq_cast, toNat_unsignedAt h]
  rfl

theorem uint32_at
    : ((unsignedAt fields name).toUInt32.toNat : Int) = uint32.cast (integerAt fields name) := by
  rw [toNat_toUInt32_eq_cast, toNat_unsignedAt h]
  rfl

theorem unsignedShort_at
    : ((unsignedAt fields name).toUInt16.toNat : Int)
        = unsignedShort.cast (integerAt fields name) := by
  rw [toNat_toUInt16_eq_cast, toNat_unsignedAt h]
  rfl

end

theorem long_at (h : HasKind fields name .signedInteger)
    : (toLong build (signedAt fields name)).toInt
        = (long build.longHas64Bits).cast (integerAt fields name) := by
  unfold toLong long
  split
  . exact int64_at h
  . rw [Int32.toInt_toInt64]
    exact int_at h

theorem integer_fields
    : ∀ longHas64Bits, ∀ type ∈ supportedTypes, ∀ name ∈ allowedFields type,
      ((integerTypes longHas64Bits type).lookup name).isSome = true ∨ name = "format"
        ∨ ∃ field ∈ commonTypes ++ checkedKinds type,
          field.1 = name ∧ field.2 ≠ .signedInteger ∧ field.2 ≠ .unsignedInteger := by
  decide +kernel

theorem integer_kinds
    : ∀ longHas64Bits, ∀ type ∈ supportedTypes, ∀ field ∈ integerTypes longHas64Bits type,
      (field.1, field.2.kind) ∈ commonTypes ++ checkedKinds type
        ∧ has (fieldDefaults type) field.1 = true := by
  decide +kernel

theorem hasKind_integerTypes (h : Accepts build type fields) (longHas64Bits : Bool)
    : ∀ field ∈ integerTypes longHas64Bits type,
      HasKind (applyDefaults type fields) field.1 field.2.kind := by
  intro field hfield
  have htable : ∀ kind ∈ [(field.1, field.2.kind)],
      kind ∈ commonTypes ++ checkedKinds type ∧ has (fieldDefaults type) kind.1 = true := by
    rw [forall_mem_singleton]
    exact integer_kinds longHas64Bits type h.supported field hfield
  exact hasKind_of_accepts h htable _ _ mem_cons_self

theorem lookup_map_key {α β : Type} (list : List (String × α)) (f : String × α → β) (name : String)
    : (list.map (fun field => (field.1, f field))).lookup name
        = (list.lookup name).map (fun a => f (name, a)) := by
  induction list with
  | nil => rfl
  | cons field list ih =>
    obtain ⟨key, a⟩ := field
    rw [map_cons, lookup_cons, lookup_cons, ih]
    cases hname : name == key with
    | true =>
      rw [eq_of_beq hname]
      rfl
    | false => rfl

end Fields

namespace BuiltinConfigurationLoggerFactory

variable {build : BuildOptions} {bindings : ConfigurationBindingSet} {type name : String}
variable {fields : ConfigurationFieldMap}

theorem integers_configOf (h : Accepts build type fields)
    : (configOf build bindings type (applyDefaults type fields)).integers
        = (integerTypes build.longHas64Bits type).map
          (fun field => (field.1, field.2.cast (integerAt (applyDefaults type fields) field.1))) := by
  have hkinds := hasKind_integerTypes h build.longHas64Bits
  have htypes := h.supported
  simp only [supportedTypes, mem_cons, not_mem_nil, or_false] at htypes
  generalize applyDefaults type fields = planned at hkinds ⊢
  rcases htypes with rfl | rfl | rfl | rfl | rfl | rfl | rfl | rfl
    <;> simp only [integerTypes, String.reduceEq, if_true, if_false, forall_mem_cons, kind_int,
      kind_int64, kind_uint64, kind_uint32, kind_unsignedShort, kind_long] at hkinds
    <;> simp only [configOf, integerTypes, String.reduceEq, if_true, if_false, BackendConfig.integers,
      map_cons, map_nil]
  . simp only [FileConfig.integers, FileConfig.ofFields, int_at, uint64_at, uint32_at, hkinds]
  . simp only [UniqueFileConfig.integers, UniqueFileConfig.ofFields, int_at, uint64_at, hkinds]
  . simp only [MemoryConfig.integers, MemoryConfig.ofFields, int64_at, uint64_at, hkinds]
  . simp only [MdbxConfig.integers, MdbxConfig.ofFields, int_at, uint64_at, hkinds]
  . simp only [OtlpHttpConfig.integers, OtlpHttpConfig.ofFields, int_at, uint64_at, long_at, hkinds]
  . simp only [OtlpPayloadConfig.integers, OtlpPayloadConfig.ofFields, uint32_at, uint64_at, hkinds]
  . simp only [PrometheusHttpConfig.integers, PrometheusHttpConfig.ofFields, unsignedShort_at, hkinds]

theorem type_of_integer {value : ConfigurationValue} (h : value.integer = some n)
    : value.type = .signedInteger ∨ value.type = .unsignedInteger := by
  cases value with
  | signed value => exact .inl rfl
  | unsigned value => exact .inr rfl
  | null | boolean value | string value | object value | array value => cases h

theorem integers_of_accepts (h : Accepts build type fields)
    (hvalue : fields.lookup name = some value) (hinteger : value.integer = some n)
    : ∃ target, (integerTypes build.longHas64Bits type).lookup name = some target
        ∧ (configOf build bindings type (applyDefaults type fields)).integers.lookup name
          = some (target.cast n) := by
  have hallowed := h.allowed (name, value) (mem_of_lookup hvalue)
  have hkind := type_of_integer hinteger
  have hname := of_decide_eq_true hallowed
  rcases integer_fields build.longHas64Bits type h.supported name hname with hsome | rfl | hother
  . obtain ⟨target, htarget⟩ := isSome_iff_exists.mp hsome
    have hmem := integer_kinds _ type h.supported _ (mem_of_lookup htarget)
    have hformat := (defaults_kinds type h.supported _ hmem.1).1
    refine ⟨target, htarget, ?_⟩
    rw [integers_configOf h, lookup_map_key, htarget, map_some, integerAt,
      lookup_applyDefaults type fields hformat, hvalue, some_or, bind_some, hinteger]
    rfl
  . obtain ⟨check, hcheck⟩ :=
      isSome_iff_exists.mp (format_of_allowed type h.supported hallowed).1
    obtain ⟨members, rfl, _⟩ := h.format check hcheck value hvalue
    cases hinteger
  . obtain ⟨field, hfield, rfl, hsigned, hunsigned⟩ := hother
    have hchecked := h.kinds field hfield
    unfold typeIs at hchecked
    rw [hvalue] at hchecked
    have hchecked : value.type = field.2 := of_decide_eq_true hchecked
    rw [hchecked] at hkind
    cases hkind with
    | inl hkind => exact absurd hkind hsigned
    | inr hkind => exact absurd hkind hunsigned

/-! A reader only succeeds with bindings that fit. -/

theorem valid_of_readAll {C : Type} {reads : List (C → Diagnosed (Written C))} {config : C}
    (h : (readAll reads config).value.valid = true) {read : C → Diagnosed (Written C)}
    (hread : read ∈ reads)
    : ∃ config, (read config).value.valid = true := by
  induction reads generalizing config with
  | nil => cases hread
  | cons first reads ih =>
    unfold readAll at h
    simp only [Report.value_bind, Report.value_pure, Bool.and_eq_true] at h
    cases mem_cons.mp hread with
    | inl hread =>
      rw [hread]
      exact ⟨config, h.2⟩
    | inr hread => exact ih h.1 hread

theorem valid_of_configured {C : Type} {read : Diagnosed (Written C)}
    {backend : C → BackendConfig} {config : BackendConfig}
    (h : (configured read backend).value = some config)
    : read.value.valid = true := by
  unfold configured at h
  simp only [Report.value_bind] at h
  split at h
  . next hvalid => exact hvalid
  . cases h

theorem onPayload_of_store {C : Type} {message : String} {write : Nat → C → C} {config : C}
    (h : (store (readOnPayload bindings message) write config).value.valid = true)
    : (bindings.get .payloadCallback "on_payload").isSome = true := by
  unfold store readOnPayload at h
  cases hget : bindings.get .payloadCallback "on_payload" with
  | some callback => rfl
  | none =>
    rw [hget] at h
    cases h

theorem onError_of_readOnError (h : (readOnError bindings config).value.valid = true)
    (hname : bindings.containsName "on_error" = true)
    : (bindings.get .errorCallback "on_error").isSome = true := by
  unfold readOnError at h
  rw [if_pos hname] at h
  cases hget : bindings.get .errorCallback "on_error" with
  | some callback => rfl
  | none =>
    rw [hget] at h
    cases h

theorem supplies_of_readConfig {logger : ConfigurationLoggerSpec} {config : BackendConfig}
    (h : (readConfig build (materializedLogger logger) bindings).value = some config)
    : Supplies bindings (materializedLogger logger) where
  onPayload hrequired := by
    have hentry : (materializedLogger logger).type = logger.type := rfl
    rcases mem_requiredBindings.mp hrequired with htype | htype
    . rw [htype] at hentry
      simp only [readConfig, hentry, String.reduceEq, false_and, if_false, true_and] at h
      split at h
      . obtain ⟨config, hvalid⟩ := valid_of_readAll (valid_of_configured h)
          (mem_of_getElem? (i := 7) rfl)
        exact onPayload_of_store hvalid
      . simp at h
    . rw [htype] at hentry
      simp only [readConfig, hentry, String.reduceEq, false_and, if_false, true_and] at h
      split at h
      . obtain ⟨config, hvalid⟩ := valid_of_readAll (valid_of_configured h)
          (mem_of_getElem? (i := 3) rfl)
        exact onPayload_of_store hvalid
      . simp at h
  onError htype hname := by
    simp only [readConfig, htype, String.reduceEq, if_false, true_and] at h
    split at h
    . obtain ⟨config, hvalid⟩ := valid_of_readAll (valid_of_configured h)
        (show readOnError bindings ∈ _ by simp)
      exact onError_of_readOnError hvalid hname
    . simp at h

theorem integers_of_readConfig (θ : Type) (build : BuildOptions) (document : ConfigurationDocument)
    (plan : ConfigurationPlan) (index : Nat) (logger : ConfigurationLoggerSpec)
    (entry : ConfigurationMaterializedLogger) (bindings : ConfigurationBindingSet)
    (config : BackendConfig) (name : String) (value : ConfigurationValue) (n : Int)
    (h : (materializeConfiguration (materializer θ build) document plan).result = .ok true)
    (hentry : (materializeConfiguration (materializer θ build) document plan).output.loggers[index]?
      = some entry)
    (hread : (readConfig build entry bindings).value = some config)
    (hlogger : document.loggers[index]? = some logger)
    (hvalue : logger.backend.lookup name = some value) (hinteger : value.integer = some n)
    : ∃ target m, (integerTypes build.longHas64Bits logger.type).lookup name = some target
        ∧ config.integers.lookup name = some m ∧ (m = n ↔ target.Fits n) := by
  obtain ⟨own, hown, rfl, haccepts, hpolicy⟩ := accepted_of_entry h hentry
  rw [hlogger, some.injEq] at hown
  subst hown
  rw [readConfig_of_accepts haccepts hpolicy (supplies_of_readConfig hread), Report.value_pure,
    some.injEq] at hread
  subst hread
  obtain ⟨target, htarget, hmember⟩ := integers_of_accepts haccepts hvalue hinteger
  exact ⟨target, target.cast n, htarget, hmember, target.cast_eq_self_iff n⟩

theorem integers_small_port
    : let document := ConfigurationDocument.single "prometheus_http" [("port", .unsigned 9091)]
      let materialized := materializeConfiguration (materializer Unit .full) document {}
      ∃ entry config, materialized.result = .ok true ∧ materialized.output.loggers[0]? = some entry
        ∧ (readConfig .full entry []).value = some config
        ∧ config.integers.lookup "port" = some 9091 := by
  intro document materialized
  have hresult : materialized.result = .ok true := by decide +kernel
  have hsome : (materialized.output.loggers[0]?).isSome = true := by decide +kernel
  obtain ⟨entry, hentry⟩ := isSome_iff_exists.mp hsome
  have hsome : ((materialized.output.loggers[0]?).bind
      (fun entry => (readConfig .full entry []).value)).isSome = true := by
    decide +kernel
  rw [hentry, bind_some] at hsome
  obtain ⟨config, hread⟩ := isSome_iff_exists.mp hsome
  obtain ⟨target, m, htarget, hm, hiff⟩ := integers_of_readConfig Unit .full document {} 0 _ entry []
    config "port" (.unsigned 9091) 9091 hresult hentry hread rfl rfl rfl
  refine ⟨entry, config, hresult, hentry, hread, ?_⟩
  rw [hm, hiff.mpr]
  cases htarget
  decide

theorem integers_large_port
    : let document := ConfigurationDocument.single "prometheus_http" [("port", .unsigned 65536)]
      let materialized := materializeConfiguration (materializer Unit .full) document {}
      materialized.result = .ok true ∧ materialized.raised.isEmpty = true
        ∧ ((materialized.output.loggers[0]?).bind
          (fun entry => (readConfig .full entry []).value)).bind
            (fun config => config.integers.lookup "port") = some 0 := by
  decide +kernel

end BuiltinConfigurationLoggerFactory
end LogIt
