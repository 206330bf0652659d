import LogIt.Configuration.Lemmas.Accepted
import LogIt.Configuration.Lemmas.Pipeline
import LogIt.Configuration.Lemmas.Readers

namespace LogIt

open ConfigurationValue (Kind)

open BuiltinConfigurationMaterializer ConfigurationRuntime

section Fields

variable {build : BuildOptions} {type name : String} {fields : ConfigurationFieldMap}

theorem hasKind_of_typeIs (hhas : has fields name = true) (h : typeIs fields name kind = true)
    : HasKind fields name kind := by
  obtain ⟨value, hvalue⟩ := Option.isSome_iff_exists.mp hhas
  refine ⟨value, hvalue, ?_⟩
  unfold typeIs at h
  rw [hvalue] at h
  exact of_decide_eq_true h

theorem hasName_of_nameIs (hhas : has fields name = true) (h : nameIs fields name values = true)
    : HasName fields name values := by
  obtain ⟨value, hvalue⟩ := Option.isSome_iff_exists.mp hhas
  unfold nameIs at h
  rw [hvalue] at h
  obtain ⟨text, htext, hstring⟩ := List.mem_map.mp (of_decide_eq_true h)
  refine ⟨text, htext, ?_⟩
  cases value <;> cases hstring
  exact hvalue

theorem has_applyDefaults (hname : name ≠ "format") (h : has (fieldDefaults type) name = true)
    : has (applyDefaults type fields) name = true := by
  unfold has at *
  rw [lookup_applyDefaults type fields hname, Option.isSome_or, h, Bool.or_true]

theorem hasKind_of_accepts (h : Accepts build type fields) {table : List (String × Kind)}
    (htable : ∀ field ∈ table,
      field ∈ commonTypes ++ checkedKinds type ∧ has (fieldDefaults type) field.1 = true)
    : HasKinds (applyDefaults type fields) table := by
  intro name kind hfield
  obtain ⟨hchecked, hdefault⟩ := htable (name, kind) hfield
  have hname := (defaults_kinds type h.supported (name, kind) hchecked).1
  exact hasKind_of_typeIs (has_applyDefaults hname hdefault)
    (h.applyDefaults.kinds (name, kind) hchecked)

theorem hasName_of_accepts (h : Accepts build type fields)
    (hchecked : (name, values) ∈ checkedNames type)
    (hdefault : has (fieldDefaults type) name = true)
    : HasName (applyDefaults type fields) name values := by
  have hname := (defaults_names type h.supported (name, values) hchecked).1
  exact hasName_of_nameIs (has_applyDefaults hname hdefault)
    (h.applyDefaults.names (name, values) hchecked)

end Fields

section QueuePolicy

variable {logger : ConfigurationLoggerSpec}

theorem exists_of_validateLoggers (h : validateLoggers index seen loggers = [])
    (hlogger : logger ∈ loggers)
    : ∃ index seen, (validateLogger logger index seen).messages = [] := by
  induction loggers generalizing index seen with
  | nil => cases hlogger
  | cons head loggers ih =>
    rw [validateLoggers, List.append_eq_nil_iff, Raised.byEntry_eq_nil_iff] at h
    cases List.mem_cons.mp hlogger with
    | inl hhead =>
      rw [hhead]
      exact ⟨index, seen, h.1⟩
    | inr hlogger => exact ih h.2 hlogger

theorem nameIs_of_validateLogger (h : (validateLogger logger index seen).messages = [])
    : nameIs logger.backend "queue_policy" queuePolicies = true := by
  unfold validateLogger validateQueueFields at h
  simp only [Report.messages_bind, List.append_eq_nil_iff] at h
  obtain ⟨_, _, _, _, hpolicy, _⟩ := h
  unfold nameIs
  split
  . rfl
  . next value hvalue =>
    rw [hvalue] at hpolicy
    unfold diagnoseIf at hpolicy
    split at hpolicy
    . cases hpolicy
    . next hvalid =>
      have hvalid : queuePolicyIsValid value = true := by simpa using hvalid
      exact hvalid

theorem nameIs_of_validateConfiguration (h : validateConfiguration document = [])
    (hlogger : logger ∈ document.loggers)
    : nameIs logger.backend "queue_policy" queuePolicies = true := by
  unfold validateConfiguration at h
  dsimp only at h
  rw [List.append_eq_nil_iff] at h
  obtain ⟨index, seen, hvalid⟩ := exists_of_validateLoggers h.2 hlogger
  exact nameIs_of_validateLogger hvalid

end QueuePolicy

section Format

variable {build : BuildOptions} {type name : String} {fields : ConfigurationFieldMap}

theorem mem_of_lookup {α : Type} {entries : List (String × α)} {a : α}
    (h : entries.lookup name = some a)
    : (name, a) ∈ entries := by
  obtain ⟨front, back, rfl, _⟩ := List.lookup_eq_some_iff.mp h
  simp

theorem value_validateFormatField {kind : String → Option Kind}
    : (validateFormatField kind unknown field).value = true ↔ kind field.1 = some field.2.type := by
  unfold validateFormatField
  split
  . next h => simp [h]
  . next kind h =>
    split
    . next hkind => simp [h, hkind]
    . next hkind => simpa [h] using Ne.symm hkind

theorem format_of_accepts (h : Accepts build type fields) (hcheck : formatCheck type = some check)
    (hformat : formatDefaults type = some format)
    : ∃ members, (applyDefaults type fields).lookup "format" = some (.object members)
        ∧ objectAt (applyDefaults type fields) "format" = members
        ∧ (∀ member ∈ members, (check member).value = true)
        ∧ ∀ name, has format name = true → has members name = true := by
  have hlookup := lookup_format_applyDefaults type fields hformat
  obtain ⟨members, hmembers, hvalid⟩ := h.applyDefaults.format check hcheck _ hlookup
  rw [hmembers] at hlookup
  refine ⟨members, hlookup, ?_, hvalid, ?_⟩
  . unfold objectAt
    rw [hlookup]
    rfl
  . intro name hname
    unfold mergedObject at hmembers
    split at hmembers
    . cases hmembers
      exact hname
    . cases hmembers
      unfold has at *
      rw [lookup_setDefaults, Option.isSome_or, hname, Bool.or_true]
    . next hobject _ => exact absurd hmembers (hobject members)

theorem hasKind_of_check {members : ConfigurationFieldMap} {kind : String → Option Kind} {k : Kind}
    (hvalid : ∀ member ∈ members, kind member.1 = some member.2.type)
    (hhas : has members name = true) (hkind : kind name = some k)
    : HasKind members name k := by
  obtain ⟨value, hvalue⟩ := Option.isSome_iff_exists.mp hhas
  refine ⟨value, hvalue, ?_⟩
  have hmember := hvalid (name, value) (mem_of_lookup hvalue)
  rw [hkind, Option.some.injEq] at hmember
  exact hmember.symm

theorem has_otlpFormatDefaults (h : otlpFormatKind name = some kind)
    : has otlpFormatDefaults name = true := by
  have hnames : ∀ name ∈ otlpStringFields ++ otlpBoolFields, has otlpFormatDefaults name = true := by
    decide +kernel
  apply hnames
  unfold otlpFormatKind at h
  split at h
  . next hname => exact List.mem_append_left _ hname
  . split at h
    . next hname => exact List.mem_append_right _ hname
    . cases h

theorem has_prometheusFormatDefaults (h : prometheusFormatKind name = some kind)
    : has prometheusFormatDefaults name = true := by
  have hnames : ∀ name ∈ prometheusStringFields ++ prometheusBoolFields ++ ["const_labels"],
      has prometheusFormatDefaults name = true := by
    decide +kernel
  apply hnames
  unfold prometheusFormatKind at h
  split at h
  . next hname => exact List.mem_append_left _ (List.mem_append_left _ hname)
  . split at h
    . next hname => exact List.mem_append_left _ (List.mem_append_right _ hname)
    . split at h
      . next hname => exact List.mem_append_right _ (List.mem_singleton.mpr hname)
      . cases h

theorem isLabel_of_validateLabel (h : (validateLabel index label).value = true)
    : IsLabel label := by
  unfold validateLabel at h
  split at h
  . next members =>
    rw [Report.value_all] at h
    have hlast := h _ (List.mem_cons_of_mem _ List.mem_cons_self)
    split at hlast
    . next hkinds =>
      obtain ⟨name, hname, hstring⟩ := Option.map_eq_some_iff.mp hkinds.1
      obtain ⟨value, hvalue, hstring'⟩ := Option.map_eq_some_iff.mp hkinds.2
      exact ⟨members, rfl, ⟨name, hname, hstring⟩, ⟨value, hvalue, hstring'⟩⟩
    . cases hlast
  . cases h

theorem value_validatePrometheusFormatField (h : (validatePrometheusFormatField field).value = true)
    : prometheusFormatKind field.1 = some field.2.type
        ∧ ∀ labels, field = ("const_labels", .array labels) → ∀ label ∈ labels, IsLabel label := by
  unfold validatePrometheusFormatField at h
  rw [Report.value_all] at h
  refine ⟨value_validateFormatField.mp (h _ List.mem_cons_self), ?_⟩
  rintro labels rfl label hlabel
  have hlabels := h _ (List.mem_cons_of_mem _ List.mem_cons_self)
  unfold validateConstLabels at hlabels
  dsimp only at hlabels
  rw [if_pos rfl, Report.value_all] at hlabels
  obtain ⟨index, hindex, rfl⟩ := List.getElem_of_mem hlabel
  apply isLabel_of_validateLabel
  apply hlabels
  exact List.mem_mapIdx.mpr ⟨index, hindex, rfl⟩

end Format

namespace BuiltinConfigurationLoggerFactory

variable {build : BuildOptions} {bindings : ConfigurationBindingSet}

structure Supplies (bindings : ConfigurationBindingSet) (logger : ConfigurationMaterializedLogger)
    : Prop where
  onPayload : "on_payload" ∈ logger.requiredBindings →
    (bindings.get .payloadCallback "on_payload").isSome = true
  onError : logger.type = "mdbx" → bindings.containsName "on_error" = true →
    (bindings.get .errorCallback "on_error").isSome = true

def configOf (build : BuildOptions) (bindings : ConfigurationBindingSet) (type : String)
    (fields : ConfigurationFieldMap) : BackendConfig :=
  let onPayload := (bindings.get .payloadCallback "on_payload").getD 0
  if type = "file" then
    .file (FileConfig.ofFields fields)
  else if type = "unique_file" then
    .uniqueFile (UniqueFileConfig.ofFields fields)
  else if type = "memory" then
    .memory (MemoryConfig.ofFields fields)
  else if type = "mdbx" then
    .mdbx (MdbxConfig.ofFields fields (bindings.get .errorCallback "on_error"))
  else if type = "otlp_http" then
    .otlpHttp (OtlpHttpConfig.ofFields fields build)
  else if type = "otlp_payload" then
    .otlpPayload (OtlpPayloadConfig.ofFields fields onPayload)
  else if type = "prometheus_http" then
    .prometheusHttp (PrometheusHttpConfig.ofFields fields)
  else
    .prometheusPayload (PrometheusPayloadConfig.ofFields fields onPayload)

theorem configured_of {C : Type} {read : Diagnosed (Written C)} {backend : C → BackendConfig} {c : C}
    (h : read = pure { valid := true, output := c })
    : configured read backend = pure (some (backend c)) := by
  rw [h]
  rfl

section Backends

variable {type : String} {fields : ConfigurationFieldMap}

theorem hasName_queuePolicy (hpolicy : nameIs fields "queue_policy" queuePolicies = true)
    (hdefault : nameIs (fieldDefaults type) "queue_policy" queuePolicies = true)
    (hhas : has (fieldDefaults type) "queue_policy" = true)
    : HasName (applyDefaults type fields) "queue_policy" queuePolicies := by
  apply hasName_of_nameIs
  . exact has_applyDefaults (by decide) hhas
  . exact nameIs_applyDefaults (by decide) hpolicy hdefault

theorem otlpFormat_of_accepts (h : Accepts build type fields)
    (htype : type = "otlp_http" ∨ type = "otlp_payload")
    : HasFormat otlpFormatKind (applyDefaults type fields) := by
  have hcheck : formatCheck type
      = some (validateFormatField otlpFormatKind "Field is not part of OtlpJsonFormatConfig") :=
    if_pos htype
  have hformat : formatDefaults type = some otlpFormatDefaults := if_pos htype
  obtain ⟨members, hlookup, hobject, hvalid, hhas⟩ := format_of_accepts h hcheck hformat
  refine ⟨⟨_, hlookup, rfl⟩, ?_⟩
  intro name kind hkind
  rw [hobject]
  apply hasKind_of_check _ (hhas name (has_otlpFormatDefaults hkind)) hkind
  intro member hmember
  exact value_validateFormatField.mp (hvalid member hmember)

theorem prometheusFormat_of_accepts (h : Accepts build type fields)
    (htype : type = "prometheus_http" ∨ type = "prometheus_payload")
    : HasPrometheusFormat (applyDefaults type fields) := by
  have hotlp : ¬(type = "otlp_http" ∨ type = "otlp_payload") := by
    rcases htype with rfl | rfl
    . decide
    . decide
  have hcheck : formatCheck type = some validatePrometheusFormatField := by
    unfold formatCheck
    rw [if_neg hotlp, if_pos htype]
  have hformat : formatDefaults type = some prometheusFormatDefaults := by
    unfold formatDefaults
    rw [if_neg hotlp, if_pos htype]
  obtain ⟨members, hlookup, hobject, hvalid, hhas⟩ := format_of_accepts h hcheck hformat
  refine ⟨⟨⟨_, hlookup, rfl⟩, ?_⟩, ?_⟩
  . intro name kind hkind
    rw [hobject]
    apply hasKind_of_check _ (hhas name (has_prometheusFormatDefaults hkind)) hkind
    intro member hmember
    exact (value_validatePrometheusFormatField (hvalid member hmember)).1
  . intro label hlabel
    rw [hobject] at hlabel
    unfold arrayAt at hlabel
    cases hlabels : members.lookup "const_labels" with
    | none => simp [hlabels] at hlabel
    | some value =>
      rw [hlabels] at hlabel
      cases value with
      | array labels =>
        have hmember := hvalid _ (mem_of_lookup hlabels)
        exact (value_validatePrometheusFormatField hmember).2 labels rfl label hlabel
      | null | boolean value | signed value | unsigned value | string value | object value =>
        cases hlabel

end Backends

theorem mem_requiredBindings
    : "on_payload" ∈ (materializedLogger logger).requiredBindings
        ↔ logger.type = "otlp_payload" ∨ logger.type = "prometheus_payload" := by
  unfold materializedLogger
  dsimp only
  split
  . next htype => exact iff_of_true (List.mem_singleton.mpr rfl) htype
  . next htype => exact iff_of_false List.not_mem_nil htype

theorem readConfig_of_accepts {logger : ConfigurationLoggerSpec}
    (h : Accepts build logger.type logger.backend)
    (hpolicy : nameIs logger.backend "queue_policy" queuePolicies = true)
    (hbindings : Supplies bindings (materializedLogger logger))
    : readConfig build (materializedLogger logger) bindings
        = pure (some (configOf build bindings logger.type (materializedLogger logger).backend)) := by
  have htypes := h.supported
  simp only [supportedTypes, List.mem_cons, List.not_mem_nil, or_false] at htypes
  have havailable := h.available
  have hentry : (materializedLogger logger).type = logger.type := rfl
  have hfields : (materializedLogger logger).backend = applyDefaults logger.type logger.backend := rfl
  rcases htypes with htype | htype | htype | htype | htype | htype | htype | htype
    <;> rw [htype] at h havailable hentry hfields
    <;> simp only [readConfig, configOf, hentry, htype, String.reduceEq, false_and, if_false]
  . apply configured_of
    apply writes_readFileConfig <;> rw [hfields]
    . exact hasKind_of_accepts h (by decide +kernel)
    . exact hasName_of_accepts h (by decide +kernel) (by decide +kernel)
    . exact hasName_of_accepts h (by decide +kernel) (by decide +kernel)
    . exact hasName_queuePolicy hpolicy (by decide +kernel) (by decide +kernel)
  . apply configured_of
    apply writes_readUniqueFileConfig <;> rw [hfields]
    . exact hasKind_of_accepts h (by decide +kernel)
    . exact hasName_queuePolicy hpolicy (by decide +kernel) (by decide +kernel)
  . apply configured_of
    apply writes_readMemoryConfig
    rw [hfields]
    exact hasKind_of_accepts h (by decide +kernel)
  . rw [if_pos ⟨trivial, havailable⟩]
    apply configured_of
    rw [writes_readMdbxConfig _ _ (hbindings.onError hentry)]
    . dsimp only
      rw [Option.or_none]
    all_goals rw [hfields]
    . exact hasKind_of_accepts h (by decide +kernel)
    . exact hasName_of_accepts h (by decide +kernel) (by decide +kernel)
  . rw [if_pos ⟨trivial, havailable⟩]
    apply configured_of
    apply writes_readOtlpHttpConfig <;> rw [hfields]
    . exact otlpFormat_of_accepts h (.inl rfl)
    . exact hasKind_of_accepts h (by decide +kernel)
    . exact hasName_of_accepts h (by decide +kernel) (by decide +kernel)
  . obtain ⟨callback, hcallback⟩ := Option.isSome_iff_exists.mp
      (hbindings.onPayload (mem_requiredBindings.mpr (.inl htype)))
    rw [if_pos ⟨trivial, havailable⟩, hcallback]
    apply configured_of
    apply writes_readOtlpPayloadConfig _ _ hcallback <;> rw [hfields]
    . exact otlpFormat_of_accepts h (.inr rfl)
    . exact hasKind_of_accepts h (by decide +kernel)
  . rw [if_pos ⟨trivial, havailable⟩]
    apply configured_of
    apply readPrometheusHttpConfig_of <;> rw [hfields]
    . exact prometheusFormat_of_accepts h (.inl rfl)
    . exact hasKind_of_accepts h (by decide +kernel)
  . obtain ⟨callback, hcallback⟩ := Option.isSome_iff_exists.mp
      (hbindings.onPayload (mem_requiredBindings.mpr (.inr htype)))
    rw [if_pos ⟨trivial, havailable⟩, hcallback]
    apply configured_of
    apply readPrometheusPayloadConfig_of _ _ hcallback <;> rw [hfields]
    . exact prometheusFormat_of_accepts h (.inr rfl)
    . exact hasKind_of_accepts h (by decide +kernel)

end BuiltinConfigurationLoggerFactory

section Plans

variable {θ : Type} {build : BuildOptions} {document : ConfigurationDocument}
variable {plan : ConfigurationPlan}

structure KeepsFields (fields planned : ConfigurationFieldMap) : Prop where
  field : ∀ name value, name ≠ "format" → fields.lookup name = some value →
    planned.lookup name = some value
  format : ∀ value, fields.lookup "format" = some value →
    ∃ members members', value = .object members ∧ planned.lookup "format" = some (.object members')
      ∧ ∀ name member, members.lookup name = some member → members'.lookup name = some member

theorem format_of_allowed
    : ∀ type ∈ supportedTypes, fieldAllowed type "format" = true →
      (formatCheck type).isSome = true ∧ (formatDefaults type).isSome = true := by
  decide +kernel

theorem keepsFields_applyDefaults {type : String} {fields : ConfigurationFieldMap}
    (h : Accepts build type fields)
    : KeepsFields fields (applyDefaults type fields) where
  field name value hname hvalue := by
    rw [lookup_applyDefaults type fields hname, hvalue]
    rfl
  format value hvalue := by
    have hallowed := h.allowed ("format", value) (mem_of_lookup hvalue)
    have hformat := format_of_allowed type h.supported hallowed
    obtain ⟨check, hcheck⟩ := Option.isSome_iff_exists.mp hformat.1
    obtain ⟨format, hformat⟩ := Option.isSome_iff_exists.mp hformat.2
    obtain ⟨members, hmembers, _⟩ := h.format check hcheck value hvalue
    refine ⟨members, setDefaults members format, hmembers, ?_, ?_⟩
    . rw [lookup_format_applyDefaults type fields hformat, hvalue, hmembers]
      rfl
    . intro name member hmember
      rw [lookup_setDefaults, hmember]
      rfl

def ConfigurationMaterializedLogger.toLoggerSpec (entry : ConfigurationMaterializedLogger)
    : ConfigurationLoggerSpec where
  __ := entry

theorem accepted_of_entry
    (h : (materializeConfiguration (materializer θ build) document plan).result = .ok true)
    {index : Nat} {entry : ConfigurationMaterializedLogger}
    (hentry : (materializeConfiguration (materializer θ build) document plan).output.loggers[index]?
      = some entry)
    : ∃ logger, document.loggers[index]? = some logger ∧ entry = materializedLogger logger
        ∧ Accepts build logger.type logger.backend
        ∧ nameIs logger.backend "queue_policy" queuePolicies = true := by
  have hplan := (materialize_sound _ _ _).done h
  obtain ⟨hindex, _⟩ := List.getElem?_eq_some_iff.mp hentry
  rw [hplan.length] at hindex
  have hlogger := List.getElem?_eq_getElem hindex
  obtain ⟨own, hown, hvalid, _, houtput⟩ := hplan.entries index _ hlogger
  have hown : own = materializeBackend build document.loggers[index] := (Except.ok.inj hown).symm
  rw [hown] at hvalid houtput
  have haccepts := accepts_of_materializeBackend hvalid
  rw [materializeBackend_of_accepts haccepts, hentry] at houtput
  refine ⟨_, hlogger, Option.some.inj houtput, haccepts, ?_⟩
  exact nameIs_of_validateConfiguration hplan.valid (List.mem_of_getElem? hlogger)

end Plans

open BuiltinConfigurationLoggerFactory in
theorem readConfig_of_materializeConfiguration (θ : Type) (build : BuildOptions)
    (document : ConfigurationDocument) (plan : ConfigurationPlan) (index : Nat)
    (entry : ConfigurationMaterializedLogger)
    (h : (materializeConfiguration (materializer θ build) document plan).result = .ok true)
    (hentry : (materializeConfiguration (materializer θ build) document plan).output.loggers[index]?
      = some entry)
    : (∀ bindings, Supplies bindings entry →
        ∃ config, readConfig build entry bindings = pure (some config))
      ∧ (∃ logger, document.loggers[index]? = some logger ∧ entry.type = logger.type
          ∧ KeepsFields logger.backend entry.backend)
      ∧ ∃ again, materializeBackend build (entry.toLoggerSpec) = pure { valid := true, output := again }
          ∧ ∀ name, again.backend.lookup name = entry.backend.lookup name := by
  obtain ⟨logger, hlogger, rfl, haccepts, hpolicy⟩ := accepted_of_entry h hentry
  refine ⟨?_, ?_, ?_⟩
  . intro bindings hbindings
    exact ⟨_, readConfig_of_accepts haccepts hpolicy hbindings⟩
  . exact ⟨logger, hlogger, rfl, keepsFields_applyDefaults haccepts⟩
  . refine ⟨_, materializeBackend_of_accepts haccepts.applyDefaults, ?_⟩
    intro name
    exact lookup_applyDefaults_twice logger.type logger.backend name

def BuildOptions.full : BuildOptions where
  withMdbx := true
  withOtlp := true
  withPrometheus := true
  withPrometheusServer := true
  hasZlib := true
  hasZstd := true
  longHas64Bits := true

def ConfigurationDocument.single (type : String) (backend : ConfigurationFieldMap)
    : ConfigurationDocument where
  schemaVersion := 1
  loggers := [{ id := "only", type, backend }]

theorem readConfig_payload_logger
    : let document := ConfigurationDocument.single "prometheus_payload"
        [("format", .object [("metric_prefix", .string "app")])]
      let materialized := materializeConfiguration (materializer Unit .full) document {}
      let bindings := [("on_payload", { type := .payloadCallback, value := some 7 })]
      ∃ entry, materialized.result = .ok true ∧ materialized.output.loggers[0]? = some entry
        ∧ ∃ config, BuiltinConfigurationLoggerFactory.readConfig .full entry bindings
          = pure (some config) := by
  intro document materialized bindings
  have hresult : materialized.result = .ok true := by decide +kernel
  have hsome : (materialized.output.loggers[0]?).isSome = true := by decide +kernel
  obtain ⟨entry, hentry⟩ := Option.isSome_iff_exists.mp hsome
  have hread := readConfig_of_materializeConfiguration Unit .full document {} 0 entry hresult hentry
  refine ⟨entry, hresult, hentry, hread.1 bindings ⟨?_, ?_⟩⟩
  . intro _
    decide
  . intro _ h
    exact absurd h (by decide)

end LogIt
