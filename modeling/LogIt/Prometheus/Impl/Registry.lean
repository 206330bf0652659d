import LogIt.Prometheus.Impl.TextFormat

/-!
This module contains the built-in metrics of the Prometheus loggers, with the conversion of an integer
to `double` as a parameter, and the registry of custom metrics. A callback is a function of the state
in which `collect` calls it.
-/

namespace LogIt.Prometheus

open Formatter (Text)

structure PrometheusLoggerMetrics where
  logRecordsTotal : Nat
  dropped : Nat
  failedExports : Nat
  lastLogTs : Int

structure BuildInfo where
  version : Text
  compiler : Text

def timeSinceLastLogMs (metrics : PrometheusLoggerMetrics) (nowMs : Int) : Int :=
  let last := metrics.lastLogTs
  if last ≤ 0 then
    0
  else if nowMs > last then
    nowMs - last
  else
    0

def commonLabels (config : PrometheusTextFormatConfig) (loggerName : Text) : List PrometheusLabel :=
  (if config.includeLoggerLabel then [⟨config.loggerLabelName, loggerName⟩] else [])
    ++ (if config.includeInstanceLabel then
        [⟨config.instanceLabelName, config.instanceLabelValue⟩]
      else
        [])

def addCommonLabels (sample : PrometheusSample) (config : PrometheusTextFormatConfig)
    (loggerName : Text) : PrometheusSample :=
  { sample with labels := sample.labels ++ commonLabels config loggerName }

def builtinMetric (config : PrometheusTextFormatConfig) (loggerName name help : Text)
    (type : PrometheusMetricType) (value : Double) (labels : List PrometheusLabel)
    : PrometheusMetricFamily where
  name := config.metricPrefix ++ name
  help := help
  type := type
  samples :=
    [addCommonLabels { name := config.metricPrefix ++ name, value, labels } config loggerName]

def buildBuiltinMetrics (build : BuildInfo) (toDouble : Int → Double)
    (metrics : PrometheusLoggerMetrics) (families : List PrometheusMetricFamily)
    (config : PrometheusTextFormatConfig) (loggerName : Text) (nowMs : Int)
    : List PrometheusMetricFamily :=
  families
    ++ [builtinMetric config loggerName "log_records_total".toList
          "Total number of log records processed".toList .counter
          (toDouble metrics.logRecordsTotal) [],
        builtinMetric config loggerName "dropped_logs_total".toList
          "Total number of dropped log records".toList .counter (toDouble metrics.dropped) [],
        builtinMetric config loggerName "failed_exports_total".toList
          "Total number of failed export attempts".toList .counter
          (toDouble metrics.failedExports) [],
        builtinMetric config loggerName "last_log_timestamp_ms".toList
          "Timestamp of the last log record in milliseconds".toList .gauge
          (toDouble metrics.lastLogTs) [],
        builtinMetric config loggerName "time_since_last_log_ms".toList
          "Milliseconds since the last log record".toList .gauge
          (toDouble (timeSinceLastLogMs metrics nowMs)) []]
    ++ (if config.includeBuildInfo then
        [builtinMetric config loggerName "build_info".toList
          "Build information for logit-cpp".toList .gauge (toDouble 1)
          [⟨"version".toList, build.version⟩, ⟨"compiler".toList, build.compiler⟩]]
      else
        [])

variable {ω ε : Type}

structure Entry (ω ε : Type) where
  type : PrometheusMetricType
  name : Text
  help : Text
  valueFn : ω → Except ε Double
  labels : List PrometheusLabel

structure PrometheusRegistry (ω ε : Type) where
  metricPrefix : Text
  entries : List (Entry ω ε)

def labelsEqual (lhs rhs : List PrometheusLabel) : Bool :=
  lhs.length = rhs.length
    ∧ (lhs.zip rhs).all (fun pair => pair.1.name = pair.2.name ∧ pair.1.value = pair.2.value)

def setEntry (metric : Entry ω ε) (entries : List (Entry ω ε)) : List (Entry ω ε) :=
  match entries with
  | [] => [metric]
  | entry :: entries =>
    if entry.name = metric.name ∧ labelsEqual entry.labels metric.labels then
      metric :: entries
    else
      entry :: setEntry metric entries

def setMetric (registry : PrometheusRegistry ω ε) (metric : Entry ω ε) : PrometheusRegistry ω ε :=
  { registry with entries := setEntry metric registry.entries }

inductive Call (ω ε : Type) where
  | setGauge (name help : Text) (valueFn : ω → Except ε Double) (labels : List PrometheusLabel)
  | setCounter (name help : Text) (valueFn : ω → Except ε Double) (labels : List PrometheusLabel)

def Call.metric (call : Call ω ε) : Entry ω ε :=
  match call with
  | .setGauge name help valueFn labels => ⟨.gauge, name, help, valueFn, labels⟩
  | .setCounter name help valueFn labels => ⟨.counter, name, help, valueFn, labels⟩

def PrometheusRegistry.apply (registry : PrometheusRegistry ω ε) (call : Call ω ε)
    : PrometheusRegistry ω ε :=
  setMetric registry call.metric

def registered (metricPrefix : Text) (calls : List (Call ω ε)) : PrometheusRegistry ω ε :=
  calls.foldl PrometheusRegistry.apply ⟨metricPrefix, []⟩

def findFamily (families : List PrometheusMetricFamily) (name : Text) (type : PrometheusMetricType)
    : Option Nat :=
  families.findIdx? (fun family => family.name = name ∧ family.type = type)

def addSample (families : List PrometheusMetricFamily) (fullName : Text) (entry : Entry ω ε)
    (value : Double) : List PrometheusMetricFamily :=
  let sample : PrometheusSample := { name := fullName, value, labels := entry.labels }
  match findFamily families fullName entry.type with
  | some index =>
    families.modify index (fun family => { family with samples := family.samples ++ [sample] })
  | none =>
    families ++ [{ name := fullName, help := entry.help, type := entry.type, samples := [sample] }]

structure Collecting (ε : Type) where
  collected : List PrometheusMetricFamily
  firstException : Option ε

def collectEntry (metricPrefix : Text) (world : ω) (s : Collecting ε) (entry : Entry ω ε)
    : Collecting ε :=
  match entry.valueFn world with
  | .error exception => { s with firstException := s.firstException.or (some exception) }
  | .ok value => { s with collected := addSample s.collected (metricPrefix ++ entry.name) entry value }

def collect (registry : PrometheusRegistry ω ε) (world : ω) (out : List PrometheusMetricFamily)
    : List PrometheusMetricFamily × Option ε :=
  let s := registry.entries.foldl (collectEntry registry.metricPrefix world) ⟨[], none⟩
  (out ++ s.collected, s.firstException)

end LogIt.Prometheus
