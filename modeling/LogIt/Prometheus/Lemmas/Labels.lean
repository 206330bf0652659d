import Mathlib.Data.List.Nodup
import LogIt.Prometheus.Impl.Registry
import LogIt.Prometheus.Lemmas.Exposition

namespace LogIt.Prometheus

open List

open Formatter (Text)

def Line.labelNames (line : Line) : List Text :=
  match line with
  | .sample _ labels _ _ => labels.map Prod.fst
  | _ => []

def LabelsDistinct (payload : Text) : Prop :=
  ∃ ls, parsePayload payload = some ls ∧ ∀ l ∈ ls, l.labelNames.Nodup

def printedNames (labels : List PrometheusLabel) : List Text :=
  labels.map (fun label => prometheusSanitizeLabelName label.name)

theorem labelsDistinct_build (families : List PrometheusMetricFamily)
    (config : PrometheusTextFormatConfig)
    : LabelsDistinct (buildPrometheusTextPayload families config)
      ↔ ∀ family ∈ families, ∀ sample ∈ family.samples,
          (printedNames (config.constLabels ++ sample.labels)).Nodup := by
  have hsample : ∀ sample, (sampleLine config sample).labelNames
      = printedNames (config.constLabels ++ sample.labels) := by
    intro sample
    simp [sampleLine, Line.labelNames, printedNames, Function.comp_def]
  have hfamily : ∀ family, (∀ l ∈ familyLines config family, l.labelNames.Nodup)
      ↔ ∀ sample ∈ family.samples, (printedNames (config.constLabels ++ sample.labels)).Nodup := by
    intro family
    simp only [familyLines, forall_mem_append, forall_mem_map, hsample]
    refine and_iff_right ⟨?_, ?_⟩
    . split <;> simp [Line.labelNames]
    . split <;> simp [Line.labelNames]
  simp only [LabelsDistinct, parsePayload_build, Option.some.injEq, exists_eq_left',
    forall_mem_flatMap, hfamily]

theorem nodup_printedNames {labels : List PrometheusLabel}
    (h : (labels.map PrometheusLabel.name).Nodup)
    : (printedNames labels).Nodup
      ↔ ∀ a ∈ labels, ∀ b ∈ labels,
          prometheusSanitizeLabelName a.name = prometheusSanitizeLabelName b.name
            → a.name = b.name := by
  have hmap : printedNames labels
      = (labels.map PrometheusLabel.name).map prometheusSanitizeLabelName := by
    rw [printedNames, map_map]
    rfl
  rw [hmap, nodup_map_iff_inj_on h]
  simp only [forall_mem_map]

def builtinLabelNames (config : PrometheusTextFormatConfig) : List Text :=
  config.constLabels.map PrometheusLabel.name
    ++ (if config.includeBuildInfo then ["version".toList, "compiler".toList] else [])
    ++ (commonLabels config []).map PrometheusLabel.name

section

variable (config : PrometheusTextFormatConfig)

theorem names_commonLabels (loggerName : Text)
    : (commonLabels config loggerName).map PrometheusLabel.name
      = (commonLabels config []).map PrometheusLabel.name := by
  unfold commonLabels
  split <;> rfl

theorem labelsDistinct_builtin (build : BuildInfo) (toDouble : Int → Double)
    (metrics : PrometheusLoggerMetrics) (loggerName : Text) (nowMs : Int)
    : LabelsDistinct (buildPrometheusTextPayload
        (buildBuiltinMetrics build toDouble metrics [] config loggerName nowMs) config)
      ↔ ((builtinLabelNames config).map prometheusSanitizeLabelName).Nodup := by
  have hmetric : ∀ name help type value labels,
      (∀ sample ∈ (builtinMetric config loggerName name help type value labels).samples,
        (printedNames (config.constLabels ++ sample.labels)).Nodup)
      ↔ ((config.constLabels.map PrometheusLabel.name ++ labels.map PrometheusLabel.name
          ++ (commonLabels config []).map PrometheusLabel.name).map
            prometheusSanitizeLabelName).Nodup := by
    intro name help type value labels
    rw [← names_commonLabels config loggerName]
    simp [builtinMetric, addCommonLabels, printedNames, Function.comp_def]
  rw [labelsDistinct_build, builtinLabelNames]
  simp only [buildBuiltinMetrics, nil_append, forall_mem_append, forall_mem_cons,
    not_mem_nil, false_imp_iff, implies_true, and_true, and_self, hmetric, map_nil,
    append_nil]
  by_cases hbuild : config.includeBuildInfo = true
  . rw [if_pos hbuild, if_pos hbuild, forall_mem_singleton, hmetric]
    -- The other metrics have the same labels except for those of the build.
    refine and_iff_right_of_imp (fun h => h.sublist (List.Sublist.map _ ?_))
    exact (sublist_append_left _ _).append_right _
  . simp [hbuild]

end

def clashingConfig : PrometheusTextFormatConfig :=
  { constLabels := [⟨['a', '-'], []⟩, ⟨['a', '_'], []⟩], loggerLabelName := "version".toList }

def clashingFamily (name : Char) : PrometheusMetricFamily :=
  ⟨['m'], [], .gauge, [{ name := ['m'], value := .nan, labels := [⟨[name], []⟩] }]⟩

end LogIt.Prometheus
