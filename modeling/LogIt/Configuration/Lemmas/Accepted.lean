import LogIt.Configuration.Lemmas.Defaults

namespace LogIt.BuiltinConfigurationMaterializer

open ConfigurationValue (Kind)

def supportedTypes : List String :=
  ["file", "unique_file", "memory", "mdbx", "otlp_http", "otlp_payload", "prometheus_http",
   "prometheus_payload"]

def checkedKinds (type : String) : List (String × Kind) :=
  if type = "file" then
    fileTypes
  else if type = "unique_file" then
    fileTypes ++ [("hash_length", .unsignedInteger)]
  else if type = "memory" then
    memoryTypes
  else if type = "mdbx" then
    mdbxTypes
  else if type = "otlp_http" ∨ type = "otlp_payload" then
    otlpTypes type
  else if type = "prometheus_http" then
    prometheusHttpTypes
  else if type = "prometheus_payload" then
    prometheusPayloadTypes
  else
    []

def checkedNames (type : String) : List (String × List String) :=
  if type = "file" ∨ type = "unique_file" then
    [("compress", ["none", "gzip", "zstd", "external_cmd"]),
     ("naming", ["sequence", "timestamp", "timestamp_ms"])]
  else if type = "mdbx" then
    [("payload_compression", ["none", "gzip", "zstd"])]
  else if type = "otlp_http" ∨ type = "otlp_payload" then
    [("compression", ["none", "gzip", "zstd"])]
  else
    []

def formatCheck (type : String) : Option (String × ConfigurationValue → Diagnosed Bool) :=
  if type = "otlp_http" ∨ type = "otlp_payload" then
    some (validateFormatField otlpFormatKind "Field is not part of OtlpJsonFormatConfig")
  else if type = "prometheus_http" ∨ type = "prometheus_payload" then
    some validatePrometheusFormatField
  else
    none

def nameIs (fields : ConfigurationFieldMap) (name : String) (values : List String) : Bool :=
  match fields.lookup name with
  | none => true
  | some value => value.getString ∈ values.map some

def FormatIs (fields : ConfigurationFieldMap) (check : String × ConfigurationValue → Diagnosed Bool)
    : Prop :=
  ∀ value, fields.lookup "format" = some value →
    ∃ members, value = .object members ∧ ∀ member ∈ members, (check member).value = true

def CompressionAvailable (build : BuildOptions) (fields : ConfigurationFieldMap) : Prop :=
  let compression := (fields.lookup "payload_compression").bind ConfigurationValue.getString
  (compression = some "gzip" → build.hasZlib = true)
    ∧ (compression = some "zstd" → build.hasZstd = true)

structure Accepts (build : BuildOptions) (type : String) (fields : ConfigurationFieldMap) : Prop where
  supported : type ∈ supportedTypes
  available : backendAvailable build type = true
  allowed : ∀ field ∈ fields, fieldAllowed type field.1 = true
  kinds : ∀ field ∈ commonTypes ++ checkedKinds type, typeIs fields field.1 field.2 = true
  names : ∀ field ∈ checkedNames type, nameIs fields field.1 field.2 = true
  compression : type = "mdbx" → CompressionAvailable build fields
  format : ∀ check, formatCheck type = some check → FormatIs fields check

section Checks

variable {logger : ConfigurationLoggerSpec}

@[simp]
theorem value_refuse (code : ConfigurationErrorCode) (path message : String)
    : (refuse code path message).value = false := by
  rfl

theorem value_validateType
    : (validateType logger name kind).value = typeIs logger.backend name kind := by
  unfold validateType
  split
  . next h => rw [h, Report.value_pure]
  . next h => rw [Bool.not_eq_true] at h; rw [h, value_refuse]

theorem value_validateTypes
    : (validateTypes logger kinds).value = true
        ↔ ∀ field ∈ kinds, typeIs logger.backend field.1 field.2 = true := by
  unfold validateTypes
  rw [Report.value_all, List.forall_mem_map]
  simp only [value_validateType]

theorem value_validateEnum
    : (validateEnum logger name values).value = nameIs logger.backend name values := by
  unfold validateEnum nameIs
  cases logger.backend.lookup name with
  | none => rfl
  | some value =>
    dsimp only
    split
    . next h => simp [h]
    . next h => simp [h]

theorem value_validateUnknownFields
    : (validateUnknownFields logger).value = true
        ↔ ∀ field ∈ logger.backend, fieldAllowed logger.type field.1 = true := by
  unfold validateUnknownFields
  rw [Report.value_all, List.forall_mem_map]
  apply forall₂_congr
  intro field _
  split
  . next h => simp [h]
  . next h => simp [h]

theorem value_validatePayloadCompression
    : (validatePayloadCompression logger available value message).value = true
        ↔ ((logger.backend.lookup "payload_compression").bind ConfigurationValue.getString
            = some value → available = true) := by
  unfold validatePayloadCompression
  split
  . next h => simpa using h
  . next h => simpa using h

theorem value_validateFormat
    : (validateFormat logger check).value = true ↔ FormatIs logger.backend check := by
  unfold validateFormat FormatIs
  split
  . next h => simp [h]
  . next fields h =>
    rw [Report.value_all, List.forall_mem_map]
    simp [h]
  . next value hobject h =>
    rw [value_refuse]
    constructor
    . intro hfalse
      cases hfalse
    . intro hall
      obtain ⟨members, hmembers, _⟩ := hall value h
      exact absurd hmembers (hobject members)

theorem adapterSupported_iff : adapterSupported type = true ↔ type ∈ supportedTypes := by
  simp [adapterSupported, supportedTypes, or_assoc]

theorem isKnown_of_supported (h : type ∈ supportedTypes)
    : isKnownConfigurationBackend type = true := by
  revert type
  decide

theorem value_validateBackendTypes (h : logger.type ∈ supportedTypes)
    : (validateBackendTypes logger build).value = true
        ↔ (∀ field ∈ checkedKinds logger.type, typeIs logger.backend field.1 field.2 = true)
          ∧ (∀ field ∈ checkedNames logger.type, nameIs logger.backend field.1 field.2 = true)
          ∧ (logger.type = "mdbx" → CompressionAvailable build logger.backend)
          ∧ ∀ check, formatCheck logger.type = some check → FormatIs logger.backend check := by
  simp only [supportedTypes, List.mem_cons, List.not_mem_nil, or_false] at h
  unfold validateBackendTypes checkedKinds checkedNames formatCheck
  rcases h with h | h | h | h | h | h | h | h
  . simp [h, validateFileTypes, Report.value_all, value_validateTypes, value_validateEnum]
  . simp [h, validateFileTypes, Report.value_all, value_validateTypes, value_validateEnum,
      value_validateType, or_imp, forall_and]
    tauto
  . simp [h, validateMemoryTypes, value_validateTypes]
  . simp [h, validateMdbxTypes, Report.value_all, value_validateTypes, value_validateEnum,
      value_validatePayloadCompression, CompressionAvailable]
  . simp [h, validateOtlpTypes, validateOtlpFormat, Report.value_all, value_validateTypes,
      value_validateEnum, value_validateFormat]
    tauto
  . simp [h, validateOtlpTypes, validateOtlpFormat, Report.value_all, value_validateTypes,
      value_validateEnum, value_validateFormat]
    tauto
  . simp [h, validatePrometheusTypes, validatePrometheusFormat, Report.value_all,
      value_validateTypes, value_validateFormat]
    tauto
  . simp [h, validatePrometheusTypes, validatePrometheusFormat, Report.value_all,
      value_validateTypes, value_validateFormat]
    tauto

theorem value_validateBackend
    : (validateBackend logger build).value = true ↔ Accepts build logger.type logger.backend := by
  unfold validateBackend
  by_cases hsupported : logger.type ∈ supportedTypes
  . have hknown := isKnown_of_supported hsupported
    have hadapter := adapterSupported_iff.mpr hsupported
    rw [hknown, hadapter]
    cases havailable : backendAvailable build logger.type with
    | false =>
      constructor
      . intro h
        cases h
      . intro h
        rw [h.available] at havailable
        cases havailable
    | true =>
      simp only [Bool.not_true, Bool.false_eq_true, if_false, Report.value_all, List.mem_cons,
        List.not_mem_nil, or_false, forall_eq_or_imp, forall_eq]
      rw [value_validateUnknownFields, validateCommonTypes, value_validateTypes,
        value_validateBackendTypes hsupported]
      constructor
      . rintro ⟨hallowed, hcommon, hkinds, hnames, hcompression, hformat⟩
        refine ⟨hsupported, havailable, hallowed, ?_, hnames, hcompression, hformat⟩
        exact List.forall_mem_append.mpr ⟨hcommon, hkinds⟩
      . intro h
        have hkinds := List.forall_mem_append.mp h.kinds
        exact ⟨h.allowed, hkinds.1, hkinds.2, h.names, h.compression, h.format⟩
  . constructor
    . intro h
      have hadapter : adapterSupported logger.type = false := by
        rw [← Bool.not_eq_true, adapterSupported_iff]
        exact hsupported
      simp only [hadapter, Bool.not_false, if_true] at h
      split at h
      . cases h
      . split at h
        . cases h
        . cases h
    . intro h
      exact absurd h.supported hsupported

end Checks

section Agreement

variable {type : String}

/-! The tables for the fields of a backend agree with each other. -/

theorem defaults_allowed
    : ∀ type ∈ supportedTypes, ∀ field ∈ fieldDefaults type, fieldAllowed type field.1 = true := by
  decide +kernel

theorem format_allowed
    : ∀ type ∈ supportedTypes, (formatDefaults type).isSome = true →
      fieldAllowed type "format" = true := by
  decide +kernel

theorem defaults_kinds
    : ∀ type ∈ supportedTypes, ∀ field ∈ commonTypes ++ checkedKinds type,
      field.1 ≠ "format" ∧ typeIs (fieldDefaults type) field.1 field.2 = true := by
  decide +kernel

theorem defaults_names
    : ∀ type ∈ supportedTypes, ∀ field ∈ checkedNames type,
      field.1 ≠ "format" ∧ nameIs (fieldDefaults type) field.1 field.2 = true := by
  decide +kernel

theorem format_defaults
    : ∀ type ∈ supportedTypes, ∀ format ∈ formatDefaults type, ∀ check ∈ formatCheck type,
      ∀ member ∈ format, (check member).value = true := by
  decide +kernel

end Agreement

section Apply

variable {build : BuildOptions} {type name : String} {fields : ConfigurationFieldMap}

theorem typeIs_applyDefaults (hname : name ≠ "format") (hfields : typeIs fields name kind = true)
    (hdefaults : typeIs (fieldDefaults type) name kind = true)
    : typeIs (applyDefaults type fields) name kind = true := by
  unfold typeIs at *
  rw [lookup_applyDefaults type fields hname]
  cases h : fields.lookup name with
  | none => exact hdefaults
  | some value =>
    rw [h] at hfields
    exact hfields

theorem nameIs_applyDefaults (hname : name ≠ "format") (hfields : nameIs fields name values = true)
    (hdefaults : nameIs (fieldDefaults type) name values = true)
    : nameIs (applyDefaults type fields) name values = true := by
  unfold nameIs at *
  rw [lookup_applyDefaults type fields hname]
  cases h : fields.lookup name with
  | none => exact hdefaults
  | some value =>
    rw [h] at hfields
    exact hfields

theorem compressionAvailable_applyDefaults (h : CompressionAvailable build fields)
    : CompressionAvailable build (applyDefaults "mdbx" fields) := by
  unfold CompressionAvailable at *
  dsimp only at *
  rw [lookup_applyDefaults "mdbx" fields (by decide)]
  cases hvalue : fields.lookup "payload_compression" with
  | none =>
    have hdefault : (fieldDefaults "mdbx").lookup "payload_compression" = some (.string "none") := by
      rfl
    rw [hdefault]
    simp [ConfigurationValue.getString]
  | some value =>
    rw [hvalue] at h
    exact h

theorem formatIs_applyDefaults {check : String × ConfigurationValue → Diagnosed Bool}
    (hformat : formatDefaults type = some format)
    (hdefaults : ∀ member ∈ format, (check member).value = true) (h : FormatIs fields check)
    : FormatIs (applyDefaults type fields) check := by
  intro value hvalue
  rw [lookup_format_applyDefaults type fields hformat, Option.some.injEq] at hvalue
  rw [← hvalue]
  cases hfields : fields.lookup "format" with
  | none => exact ⟨format, rfl, hdefaults⟩
  | some value =>
    obtain ⟨members, rfl, hmembers⟩ := h value hfields
    refine ⟨setDefaults members format, rfl, ?_⟩
    intro member hmember
    cases mem_setDefaults hmember with
    | inl hmember => exact hmembers member hmember
    | inr hmember => exact hdefaults member hmember

theorem isSome_formatDefaults (h : formatCheck type = some check)
    : ∃ format, formatDefaults type = some format := by
  unfold formatCheck at h
  unfold formatDefaults
  split at h
  . next htype => exact ⟨_, if_pos htype⟩
  . next hotlp =>
    rw [if_neg hotlp]
    split at h
    . next htype => exact ⟨_, if_pos htype⟩
    . cases h

theorem Accepts.applyDefaults (h : Accepts build type fields)
    : Accepts build type (applyDefaults type fields) where
  __ := h
  allowed field hfield := by
    rcases mem_applyDefaults hfield with hfield | hfield | ⟨hname, hformat⟩
    . exact h.allowed field hfield
    . exact defaults_allowed type h.supported field hfield
    . rw [hname]
      exact format_allowed type h.supported hformat
  kinds field hfield := by
    have hdefault := defaults_kinds type h.supported field hfield
    exact typeIs_applyDefaults hdefault.1 (h.kinds field hfield) hdefault.2
  names field hfield := by
    have hdefault := defaults_names type h.supported field hfield
    exact nameIs_applyDefaults hdefault.1 (h.names field hfield) hdefault.2
  compression htype := by
    have hcompression := h.compression htype
    rw [htype]
    exact compressionAvailable_applyDefaults hcompression
  format check hcheck := by
    obtain ⟨format, hformat⟩ := isSome_formatDefaults hcheck
    have hdefaults := format_defaults type h.supported format hformat check hcheck
    exact formatIs_applyDefaults hformat hdefaults (h.format check hcheck)

end Apply

section Quiet

variable {logger : ConfigurationLoggerSpec}

theorem quiet_refuse (code : ConfigurationErrorCode) (path message : String)
    : (refuse code path message).Quiet := by
  apply Report.Quiet.of_value
  rfl

theorem quiet_ite [Decidable c] {check check' : Diagnosed Bool} (h : check.Quiet)
    (h' : check'.Quiet)
    : (if c then check else check').Quiet := by
  split
  . exact h
  . exact h'

theorem quiet_validateType (name : String) (kind : Kind) : (validateType logger name kind).Quiet :=
  quiet_ite (Report.Quiet.pure _) (quiet_refuse _ _ _)

theorem quiet_validateTypes (kinds : List (String × Kind)) : (validateTypes logger kinds).Quiet := by
  apply Report.Quiet.map
  intro field
  apply quiet_validateType

theorem quiet_validateEnum (name : String) (values : List String)
    : (validateEnum logger name values).Quiet := by
  unfold validateEnum
  split
  . exact Report.Quiet.pure _
  . exact quiet_ite (Report.Quiet.pure _) (quiet_refuse _ _ _)

theorem quiet_validateFormatField (kind : String → Option Kind) (unknown : String)
    (field : String × ConfigurationValue)
    : (validateFormatField kind unknown field).Quiet := by
  unfold validateFormatField
  split
  . apply quiet_refuse
  . exact quiet_ite (Report.Quiet.pure _) (quiet_refuse _ _ _)

theorem quiet_validateFormat {check : String × ConfigurationValue → Diagnosed Bool}
    (h : ∀ member, (check member).Quiet)
    : (validateFormat logger check).Quiet := by
  unfold validateFormat
  split
  . exact Report.Quiet.pure _
  . exact Report.Quiet.map h
  . apply quiet_refuse

theorem quiet_validateLabel (index : Nat) (label : ConfigurationValue)
    : (validateLabel index label).Quiet := by
  unfold validateLabel
  split
  . apply Report.Quiet.cons
    . apply Report.Quiet.map
      intro member
      exact quiet_ite (quiet_refuse _ _ _) (Report.Quiet.pure _)
    . exact Report.Quiet.cons (quiet_ite (Report.Quiet.pure _) (quiet_refuse _ _ _)) Report.Quiet.nil
  . apply quiet_refuse

theorem quiet_validatePrometheusFormatField (field : String × ConfigurationValue)
    : (validatePrometheusFormatField field).Quiet := by
  apply Report.Quiet.cons (quiet_validateFormatField _ _ _)
  apply Report.Quiet.cons _ Report.Quiet.nil
  unfold validateConstLabels
  split
  . apply quiet_ite _ (Report.Quiet.pure _)
    apply Report.Quiet.all
    intro check hcheck
    obtain ⟨index, hindex, rfl⟩ := List.mem_mapIdx.mp hcheck
    apply quiet_validateLabel
  . exact Report.Quiet.pure _

theorem quiet_validateFileTypes : (validateFileTypes logger).Quiet := by
  apply Report.Quiet.cons (quiet_validateTypes _)
  apply Report.Quiet.cons (quiet_validateEnum _ _)
  apply Report.Quiet.cons (quiet_validateEnum _ _)
  apply Report.Quiet.cons _ Report.Quiet.nil
  exact quiet_ite (quiet_validateType _ _) (Report.Quiet.pure _)

theorem quiet_validateMdbxTypes (build : BuildOptions) : (validateMdbxTypes logger build).Quiet := by
  apply Report.Quiet.cons (quiet_validateTypes _)
  apply Report.Quiet.cons (quiet_validateEnum _ _)
  apply Report.Quiet.cons (quiet_ite (quiet_refuse _ _ _) (Report.Quiet.pure _))
  apply Report.Quiet.cons (quiet_ite (quiet_refuse _ _ _) (Report.Quiet.pure _))
  exact Report.Quiet.nil

theorem quiet_validateOtlpTypes : (validateOtlpTypes logger).Quiet := by
  apply Report.Quiet.cons (quiet_validateFormat (quiet_validateFormatField _ _))
  apply Report.Quiet.cons (quiet_validateTypes _)
  apply Report.Quiet.cons (quiet_validateEnum _ _)
  exact Report.Quiet.nil

theorem quiet_validatePrometheusTypes : (validatePrometheusTypes logger).Quiet := by
  apply Report.Quiet.cons (quiet_validateFormat quiet_validatePrometheusFormatField)
  apply Report.Quiet.cons _ Report.Quiet.nil
  apply quiet_ite (quiet_validateTypes _)
  exact quiet_ite (quiet_validateTypes _) (Report.Quiet.pure _)

theorem quiet_validateBackendTypes (build : BuildOptions)
    : (validateBackendTypes logger build).Quiet := by
  apply quiet_ite quiet_validateFileTypes
  apply quiet_ite (quiet_validateTypes _)
  apply quiet_ite (quiet_validateMdbxTypes build)
  apply quiet_ite quiet_validateOtlpTypes
  apply quiet_ite quiet_validatePrometheusTypes
  exact Report.Quiet.pure _

theorem quiet_validateBackend (build : BuildOptions) : (validateBackend logger build).Quiet := by
  apply quiet_ite (quiet_refuse _ _ _)
  apply quiet_ite (quiet_refuse _ _ _)
  apply quiet_ite (quiet_refuse _ _ _)
  apply Report.Quiet.cons
  . apply Report.Quiet.map
    intro field
    exact quiet_ite (Report.Quiet.pure _) (quiet_refuse _ _ _)
  apply Report.Quiet.cons (quiet_validateTypes _)
  apply Report.Quiet.cons (quiet_validateBackendTypes build)
  exact Report.Quiet.nil

end Quiet

section Materialize

variable {build : BuildOptions} {logger : ConfigurationLoggerSpec}

def materializedLogger (logger : ConfigurationLoggerSpec) : ConfigurationMaterializedLogger where
  __ := logger
  backend := applyDefaults logger.type logger.backend
  requiredBindings :=
    if logger.type = "otlp_payload" ∨ logger.type = "prometheus_payload" then ["on_payload"] else []

theorem materializeBackend_of_accepts (h : Accepts build logger.type logger.backend)
    : materializeBackend build logger
        = pure { valid := true, output := materializedLogger logger } := by
  unfold materializeBackend
  rw [(quiet_validateBackend build).eq_pure (value_validateBackend.mpr h)]
  rfl

theorem accepts_of_materializeBackend (h : (materializeBackend build logger).value.valid = true)
    : Accepts build logger.type logger.backend := by
  apply value_validateBackend.mp
  unfold materializeBackend at h
  rw [Report.value_bind] at h
  cases hvalid : (validateBackend logger build).value with
  | true => rfl
  | false =>
    rw [hvalid] at h
    cases h

end Materialize
end LogIt.BuiltinConfigurationMaterializer
