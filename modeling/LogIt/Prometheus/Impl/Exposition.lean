import LogIt.Lib.TextReader
import LogIt.Prometheus.Impl.TextFormat

/-!
This module contains a parser for the text exposition format, and the lines a payload is meant to
have.
-/

namespace LogIt.Prometheus

open Formatter (Text decimal)
open TextReader

inductive Line where
  | help (name help : Text)
  | type (name : Text) (type : PrometheusMetricType)
  | sample (name : Text) (labels : List (Text × Text)) (value : Text) (timestamp : Option Text)

def isName (isFirst isNext : Char → Bool) (name : Text) : Bool :=
  match name with
  | [] => false
  | c :: name => isFirst c && name.all isNext

def isMetricName (name : Text) : Bool :=
  isName isMetricNameFirst isMetricNameChar name

def isLabelName (name : Text) : Bool :=
  isName isLabelNameFirst isLabelNameChar name

def readName (isFirst isNext : Char → Bool) (s : Text) : Option (Text × Text) :=
  if isName isFirst isNext (s.takeWhile isNext) then
    some (s.takeWhile isNext, s.dropWhile isNext)
  else
    none

def unescapeHelp (s : Text) : Option (Text × Text) :=
  match s with
  | '\\' :: '\\' :: s => some (['\\'], s)
  | '\\' :: 'n' :: s => some (['\n'], s)
  | '\\' :: _ => none
  | c :: s => some ([c], s)
  | [] => none

def unescapeLabelValue (s : Text) : Option (Text × Text) :=
  match s with
  | '\\' :: '"' :: s => some (['"'], s)
  | s => unescapeHelp s

def readLabel (s : Text) : Option ((Text × Text) × Text) := do
  let (name, s) ← readName isLabelNameFirst isLabelNameChar s
  let s ← strip ['=', '"'] s
  let (value, s) ← readDelimited unescapeLabelValue '"' s
  return ((name, value), s)

def readLabels (s : Text) : Option (List (Text × Text) × Text) :=
  match strip ['\x7b'] s with
  | some s => readSeparated readLabel ',' '\x7d' s
  | none => some ([], s)

/--
The value and the timestamp at the end of a sample line.
-/
def readFields (s : Text) : Option (Text × Option Text) :=
  match s.dropWhile (· ≠ ' ') with
  | [] => some (s, none)
  | _ :: timestamp =>
    if ' ' ∈ timestamp then
      none
    else
      some (s.takeWhile (· ≠ ' '), some timestamp)

def parseSample (s : Text) : Option Line := do
  let (name, s) ← readName isMetricNameFirst isMetricNameChar s
  let (labels, s) ← readLabels s
  let s ← strip [' '] s
  let (value, timestamp) ← readFields s
  return .sample name labels value timestamp

def parseHelp (s : Text) : Option Line := do
  let (name, s) ← readName isMetricNameFirst isMetricNameChar s
  let s ← strip [' '] s
  let (help, _) ← readDelimited unescapeHelp '\n' (s ++ ['\n'])
  return .help name help

def parseType (s : Text) : Option Line := do
  let (name, s) ← readName isMetricNameFirst isMetricNameChar s
  let s ← strip [' '] s
  let type ← [.counter, .gauge, .untyped].find? (fun type => type.typeStr = s)
  return .type name type

def parseLine (line : Text) : Option Line :=
  match strip "# HELP ".toList line with
  | some s => parseHelp s
  | none =>
    match strip "# TYPE ".toList line with
    | some s => parseType s
    | none => parseSample line

def lines (line : Text) : Text → Option (List Text)
  | [] => if line = [] then some [] else none
  | c :: s => if c = '\n' then (lines [] s).map (line :: ·) else lines (line ++ [c]) s

def parsePayload (payload : Text) : Option (List Line) :=
  (lines [] payload).bind (fun ls => ls.mapM parseLine)

def sampleLine (config : PrometheusTextFormatConfig) (sample : PrometheusSample) : Line :=
  .sample (prometheusSanitizeMetricName sample.name)
    ((config.constLabels ++ sample.labels).map (fun label =>
      (prometheusSanitizeLabelName label.name, label.value)))
    (prometheusFormatValue sample.value)
    (if config.includeTimestamp ∧ sample.timestampMs ≠ 0 then
      some (decimal sample.timestampMs)
    else
      none)

def familyLines (config : PrometheusTextFormatConfig) (family : PrometheusMetricFamily)
    : List Line :=
  (if config.includeHelp ∧ family.help ≠ [] then
      [.help (prometheusSanitizeMetricName family.name) family.help]
    else
      [])
    ++ (if config.includeType then
      [.type (prometheusSanitizeMetricName family.name) family.type]
    else
      [])
    ++ family.samples.map (sampleLine config)

def Line.NamesValid (line : Line) : Prop :=
  match line with
  | .help name _ => isMetricName name
  | .type name _ => isMetricName name
  | .sample name labels _ _ => isMetricName name ∧ ∀ label ∈ labels, isLabelName label.1

end LogIt.Prometheus
