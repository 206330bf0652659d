import LogIt.Configuration.Lemmas.Readable

namespace LogIt

open MdbxLogger (LogLevel)

open ConfigurationJson

def Json.configuredLevel (item : Json) : Option LogLevel :=
  ((item.find "strategy").bind (fun strategy => strategy.find "level")).bind
    (fun level => level.getString.bind (fun name => levelNames.lookup name))

def ConfigurationStrategySpec.configuredLevel (strategy : ConfigurationStrategySpec)
    : Option LogLevel :=
  if strategy.hasLevel then some strategy.level else none

section Parse

variable (input : Json) (path : String) (strategy : ConfigurationStrategySpec)

theorem configuredLevel_readLevel (h : strategy.hasLevel = false)
    : (readLevel input path strategy).value.output.configuredLevel
        = input.getString.bind (fun name => levelNames.lookup name) := by
  have hnone : strategy.configuredLevel = none := by
    unfold ConfigurationStrategySpec.configuredLevel
    rw [h]
    rfl
  unfold readLevel
  split
  . next name =>
    cases hlevel : levelNames.lookup name with
    | some level => simp [Json.getString, hlevel, ConfigurationStrategySpec.configuredLevel]
    | none => simpa [Json.getString, hlevel] using hnone
  . next hstring =>
    cases input with
    | string name => exact absurd rfl (hstring name)
    | _ => exact hnone

theorem configuredLevel_formatter (members : List (String × Json))
    : (readPresent members "formatter" (fun input => readStrategyFormatter input path)
        strategy).value.output.configuredLevel
        = strategy.configuredLevel := by
  unfold readPresent
  split
  . rfl
  . rfl

theorem configuredLevel_readStrategy
    : (readStrategy input path {}).value.output.configuredLevel
        = (input.find "level").bind
          (fun level => level.getString.bind (fun name => levelNames.lookup name)) := by
  unfold readStrategy
  split
  . next members =>
    simp only [Report.value_bind, Report.value_pure, configuredLevel_formatter]
    unfold readPresent Json.find
    dsimp only
    split
    . next h =>
      rw [h]
      rfl
    . next level h =>
      rw [h, Option.bind_some]
      apply configuredLevel_readLevel
      rfl
  . next hobject =>
    cases input with
    | object members => exact absurd rfl (hobject members)
    | _ => rfl

theorem configuredLevel_readLogger (index : Nat)
    : (readLogger input index).value.output.strategy.configuredLevel = input.configuredLevel := by
  unfold readLogger Json.configuredLevel
  split
  . next members =>
    simp only [Report.value_bind, Report.value_pure, readPresent, Json.find]
    split
    . next h =>
      rw [h]
      rfl
    . next strategy h =>
      rw [h, Option.bind_some]
      apply configuredLevel_readStrategy
  . next hobject =>
    cases input with
    | object members => exact absurd rfl (hobject members)
    | _ => rfl

end Parse

namespace BuiltinConfigurationLoggerFactory

open BuiltinConfigurationMaterializer

theorem getLogLevel_of_instantiate {construct : BackendConfig → Option ConstructorThrown}
    (h : (instantiate build construct entry bindings).value = some logger)
    : logger.getLogLevel = LogLevel.trace := by
  unfold instantiate at h
  simp only [Report.value_bind] at h
  split at h
  . cases h
  . split at h
    . cases h
      rfl
    . cases h
    . cases h

theorem getLogLevel_of_pipeline {θ : Type} (build : BuildOptions)
    (resolver : ConfigurationBindingResolver θ)
    (construct : Nat → BackendConfig → Option ConstructorThrown) (input : Json)
    (document : ConfigurationDocument) (plan : ConfigurationPlan) (loggers : List RuntimeLogger)
    : let parsed : PhaseResult θ ConfigurationDocument := parseConfigurationJson input document
      let materialized := materializeConfiguration (materializer θ build) parsed.output plan
      let instantiated := instantiateConfiguration resolver (factory θ build construct)
        materialized.output loggers
      parsed.result = .ok true → materialized.result = .ok true → instantiated.result = .ok true →
        ∀ (items : List Json) (index : Nat) (item : Json),
          input.find "loggers" = some (.array items) → items[index]? = some item →
          ∃ (entry : ConfigurationMaterializedLogger) (logger : RuntimeLogger),
            materialized.output.loggers[index]? = some entry
              ∧ entry.strategy.configuredLevel = item.configuredLevel
              ∧ instantiated.output[index]? = some logger
              ∧ (logger.getLogLevel = item.configuredLevel.getD LogLevel.trace
                ↔ ∀ level ∈ item.configuredLevel, level = LogLevel.trace) := by
  intro parsed materialized instantiated hparsed hmaterialized hinstantiated items index item hitems
    hitem
  obtain ⟨items', hitems', hloggers⟩ := (parse_sound input document).done hparsed
  rw [hitems, Option.some.injEq, Json.array.injEq] at hitems'
  subst hitems'
  have hspec : parsed.output.loggers[index]? = some (readLogger item index).value.output := by
    rw [hloggers, List.getElem?_map, getElem?_readLoggers, hitem]
    rfl
  have hplan := (materialize_sound _ _ plan).done hmaterialized
  obtain ⟨own, hown, hvalid, _, hentry⟩ := hplan.entries index _ hspec
  have hown : own = materializeBackend build (readLogger item index).value.output :=
    (Except.ok.inj hown).symm
  rw [hown] at hvalid hentry
  rw [materializeBackend_of_accepts (accepts_of_materializeBackend hvalid)] at hentry
  obtain ⟨bindings, created, logger, _, hcreated, hvalue, _, hlogger⟩ :=
    ((instantiate_sound _ _ _ loggers).done hinstantiated).entries index _ hentry
  rw [← Except.ok.inj hcreated] at hvalue
  refine ⟨_, logger, hentry, configuredLevel_readLogger item index, hlogger, ?_⟩
  rw [getLogLevel_of_instantiate hvalue]
  cases item.configuredLevel with
  | none => simp
  | some level => simp [eq_comm]

def emptyResolver : ConfigurationBindingResolver Unit where
  resolve _ _ := .ok (pure { valid := true, output := [] })

def memoryDocument (level : String) : Json :=
  .object [
    ("loggers", .array [
      .object [
        ("id", .string "only"),
        ("strategy", .object [("level", .string level)]),
        ("type", .string "memory")]]),
    ("schema_version", .unsigned 1)]

theorem getLogLevel_trace_document
    : let parsed : PhaseResult Unit ConfigurationDocument :=
        parseConfigurationJson (memoryDocument "trace") {}
      let materialized := materializeConfiguration (materializer Unit .full) parsed.output {}
      let instantiated := instantiateConfiguration emptyResolver
        (factory Unit .full (fun _ _ => none)) materialized.output []
      parsed.result = .ok true ∧ materialized.result = .ok true ∧ instantiated.result = .ok true
        ∧ ∃ logger, instantiated.output[0]? = some logger ∧ logger.getLogLevel = LogLevel.trace := by
  intro parsed materialized instantiated
  have hparsed : parsed.result = .ok true := by decide +kernel
  have hmaterialized : materialized.result = .ok true := by decide +kernel
  have hinstantiated : instantiated.result = .ok true := by decide +kernel
  obtain ⟨_, logger, _, _, hlogger, hlevel⟩ := getLogLevel_of_pipeline .full emptyResolver
    (fun _ _ => none) (memoryDocument "trace") {} {} [] hparsed hmaterialized hinstantiated _ 0 _ rfl
    rfl
  refine ⟨hparsed, hmaterialized, hinstantiated, logger, hlogger, ?_⟩
  apply hlevel.mpr
  decide

theorem getLogLevel_error_document
    : let parsed : PhaseResult Unit ConfigurationDocument :=
        parseConfigurationJson (memoryDocument "error") {}
      let materialized := materializeConfiguration (materializer Unit .full) parsed.output {}
      let instantiated := instantiateConfiguration emptyResolver
        (factory Unit .full (fun _ _ => none)) materialized.output []
      parsed.result = .ok true ∧ materialized.result = .ok true ∧ instantiated.result = .ok true
        ∧ materialized.output.loggers.map (fun entry => entry.strategy.configuredLevel)
          = [some LogLevel.error]
        ∧ instantiated.output.map RuntimeLogger.getLogLevel = [LogLevel.trace] := by
  decide +kernel

end BuiltinConfigurationLoggerFactory
end LogIt
