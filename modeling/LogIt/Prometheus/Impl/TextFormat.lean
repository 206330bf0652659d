import LogIt.Formatter.Impl.Instruction

/-!
This module contains the serializer of the text exposition format. The strings are bytes, each as
the character with its number.
-/

namespace LogIt.Prometheus

open Formatter (Text decimal)

inductive PrometheusMetricType where
  | counter
  | gauge
  | untyped
  deriving DecidableEq

structure PrometheusLabel where
  name : Text
  value : Text
  deriving DecidableEq

/--
What a stream writes for a finite `double` in the classic locale.
-/
def NumberToken : Type :=
  { token : Text // ' ' ∉ token ∧ '\n' ∉ token }

inductive Double where
  | nan
  | inf (negative : Bool)
  | finite (token : NumberToken)

structure PrometheusSample where
  name : Text
  value : Double
  labels : List PrometheusLabel
  timestampMs : Int := 0

structure PrometheusMetricFamily where
  name : Text
  help : Text
  type : PrometheusMetricType
  samples : List PrometheusSample

structure PrometheusTextFormatConfig where
  includeHelp : Bool := true
  includeType : Bool := true
  includeTimestamp : Bool := false
  metricPrefix : Text := "logit_".toList
  constLabels : List PrometheusLabel := []
  includeLoggerLabel : Bool := true
  loggerLabelName : Text := "logger".toList
  includeInstanceLabel : Bool := false
  instanceLabelName : Text := "instance".toList
  instanceLabelValue : Text := []
  includeBuildInfo : Bool := true

def escapeHelpChar (c : Char) : Text :=
  if c = '\\' then
    ['\\', '\\']
  else if c = '\n' then
    ['\\', 'n']
  else
    [c]

def prometheusEscapeHelp (value : Text) : Text :=
  value.flatMap escapeHelpChar

def escapeLabelValueChar (c : Char) : Text :=
  if c = '\\' then
    ['\\', '\\']
  else if c = '"' then
    ['\\', '"']
  else if c = '\n' then
    ['\\', 'n']
  else
    [c]

def prometheusEscapeLabelValue (value : Text) : Text :=
  value.flatMap escapeLabelValueChar

def sanitizeName (isFirst isNext : Char → Bool) (name : Text) : Text :=
  match name with
  | [] => ['_']
  | c :: name => (if isFirst c then c else '_') :: name.map (fun c => if isNext c then c else '_')

def isMetricNameFirst (c : Char) : Bool :=
  c.isAlpha || c = '_' || c = ':'

def isMetricNameChar (c : Char) : Bool :=
  c.isAlphanum || c = '_' || c = ':'

def prometheusSanitizeMetricName (name : Text) : Text :=
  sanitizeName isMetricNameFirst isMetricNameChar name

def isLabelNameFirst (c : Char) : Bool :=
  c.isAlpha || c = '_'

def isLabelNameChar (c : Char) : Bool :=
  c.isAlphanum || c = '_'

def prometheusSanitizeLabelName (name : Text) : Text :=
  sanitizeName isLabelNameFirst isLabelNameChar name

def prometheusFormatValue (value : Double) : Text :=
  match value with
  | .nan => ['N', 'a', 'N']
  | .inf false => ['+', 'I', 'n', 'f']
  | .inf true => ['-', 'I', 'n', 'f']
  | .finite token => token.val

def PrometheusMetricType.typeStr (type : PrometheusMetricType) : Text :=
  match type with
  | .counter => "counter".toList
  | .gauge => "gauge".toList
  | .untyped => "untyped".toList

def mergedLabels (config : PrometheusTextFormatConfig) (sample : PrometheusSample)
    : List PrometheusLabel :=
  config.constLabels ++ sample.labels

def writeLabel (label : PrometheusLabel) : Text :=
  prometheusSanitizeLabelName label.name ++ ['=', '"'] ++ prometheusEscapeLabelValue label.value
    ++ ['"']

def writeLabels (labels : List PrometheusLabel) : Text :=
  match labels with
  | [] => []
  | label :: labels =>
    '\x7b' :: writeLabel label ++ labels.flatMap (fun label => ',' :: writeLabel label) ++ ['\x7d']

section

variable (config : PrometheusTextFormatConfig)

def writeTimestamp (sample : PrometheusSample) : Text :=
  if config.includeTimestamp ∧ sample.timestampMs ≠ 0 then
    ' ' :: decimal sample.timestampMs
  else
    []

def writeSample (sample : PrometheusSample) : Text :=
  prometheusSanitizeMetricName sample.name ++ writeLabels (mergedLabels config sample)
    ++ ' ' :: prometheusFormatValue sample.value ++ writeTimestamp config sample ++ ['\n']

variable (family : PrometheusMetricFamily)

def writeHelp : Text :=
  if config.includeHelp ∧ family.help ≠ [] then
    "# HELP ".toList ++ prometheusSanitizeMetricName family.name
      ++ ' ' :: prometheusEscapeHelp family.help ++ ['\n']
  else
    []

def writeType : Text :=
  if config.includeType then
    "# TYPE ".toList ++ prometheusSanitizeMetricName family.name ++ ' ' :: family.type.typeStr
      ++ ['\n']
  else
    []

def prometheusWriteMetricFamily : Text :=
  writeHelp config family ++ writeType config family ++ family.samples.flatMap (writeSample config)

end

def buildPrometheusTextPayload (families : List PrometheusMetricFamily)
    (config : PrometheusTextFormatConfig) : Text :=
  families.flatMap (prometheusWriteMetricFamily config)

end LogIt.Prometheus
