import LogIt.Prometheus.Impl.Exposition

namespace LogIt.Prometheus

open List

open Formatter (Text decimal)
open TextReader

section Names

variable {isFirst isNext : Char → Bool}

theorem isName_sanitizeName (hfirst : isFirst '_') (hnext : isNext '_') (name : Text)
    : isName isFirst isNext (sanitizeName isFirst isNext name) := by
  have hif : ∀ (p : Char → Bool) (c : Char), p '_' → p (if p c then c else '_') := by
    intro p c hp
    split <;> assumption
  cases name with
  | nil => simpa [sanitizeName, isName] using hfirst
  | cons c name =>
    simp only [sanitizeName, isName, Bool.and_eq_true, all_map, all_eq_true]
    exact ⟨hif isFirst c hfirst, fun d _ => hif isNext d hnext⟩

theorem isMetricName_sanitize (name : Text) : isMetricName (prometheusSanitizeMetricName name) :=
  isName_sanitizeName rfl rfl name

theorem isLabelName_sanitize (name : Text) : isLabelName (prometheusSanitizeLabelName name) :=
  isName_sanitizeName rfl rfl name

theorem all_of_isName (himp : ∀ c, isFirst c → isNext c) (h : isName isFirst isNext name)
    : ∀ c ∈ name, isNext c := by
  cases name with
  | nil => simp
  | cons c name =>
    simp only [isName, Bool.and_eq_true, all_eq_true] at h
    simpa using ⟨himp c h.1, h.2⟩

theorem metricNameChar_of_first (c : Char) (h : isMetricNameFirst c) : isMetricNameChar c := by
  simp only [isMetricNameFirst, isMetricNameChar, Char.isAlphanum, Bool.or_eq_true] at h ⊢
  tauto

theorem labelNameChar_of_first (c : Char) (h : isLabelNameFirst c) : isLabelNameChar c := by
  simp only [isLabelNameFirst, isLabelNameChar, Char.isAlphanum, Bool.or_eq_true] at h ⊢
  tauto

theorem readName_append (himp : ∀ c, isFirst c → isNext c) (h : isName isFirst isNext name)
    (hc : isNext c = false) (rest : Text)
    : readName isFirst isNext (name ++ c :: rest) = some (name, c :: rest) := by
  have hall := all_of_isName himp h
  have htake : (name ++ c :: rest).takeWhile isNext = name := by
    rw [takeWhile_append_of_pos hall, takeWhile_cons_of_neg (by simp [hc]),
      append_nil]
  have hdrop : (name ++ c :: rest).dropWhile isNext = c :: rest := by
    rw [dropWhile_append_of_pos hall, dropWhile_cons_of_neg (by simp [hc])]
  rw [readName, htake, hdrop, if_pos h]

theorem readMetricName (hc : isMetricNameChar c = false) (name rest : Text)
    : readName isMetricNameFirst isMetricNameChar (prometheusSanitizeMetricName name ++ c :: rest)
      = some (prometheusSanitizeMetricName name, c :: rest) :=
  readName_append metricNameChar_of_first (isMetricName_sanitize name) hc rest

end Names

theorem unescapeHelp_cons (hc : c ≠ '\\') (rest : Text)
    : unescapeHelp (c :: rest) = some ([c], rest) := by
  unfold unescapeHelp
  split <;> simp_all

theorem escapes_help : Escapes unescapeHelp '\n' escapeHelpChar where
  next_escape := by
    intro c rest
    unfold escapeHelpChar
    split
    . next h => simp [h, unescapeHelp]
    . next h =>
      split
      . next hn => simp [hn, unescapeHelp]
      . exact unescapeHelp_cons h rest
  head_escape := by
    intro c
    unfold escapeHelpChar
    split
    . exact ⟨_, _, rfl, by decide⟩
    . split
      . exact ⟨_, _, rfl, by decide⟩
      . next h => exact ⟨_, _, rfl, h⟩

theorem escapes_labelValue : Escapes unescapeLabelValue '"' escapeLabelValueChar where
  next_escape := by
    intro c rest
    unfold escapeLabelValueChar
    split
    . next h => simp [h, unescapeLabelValue, unescapeHelp]
    . next h =>
      split
      . next hq => simp [hq, unescapeLabelValue]
      . split
        . next hn => simp [hn, unescapeLabelValue, unescapeHelp]
        . unfold unescapeLabelValue
          split
          . simp_all
          . exact unescapeHelp_cons h rest
  head_escape := by
    intro c
    unfold escapeLabelValueChar
    split
    . exact ⟨_, _, rfl, by decide⟩
    . split
      . exact ⟨_, _, rfl, by decide⟩
      . next h =>
        split
        . exact ⟨_, _, rfl, by decide⟩
        . exact ⟨_, _, rfl, h⟩

def printedLabel (label : PrometheusLabel) : Text × Text :=
  (prometheusSanitizeLabelName label.name, label.value)

theorem readLabel_writeLabel (label : PrometheusLabel) (rest : Text)
    : readLabel (writeLabel label ++ rest) = some (printedLabel label, rest) := by
  have hname := readName_append labelNameChar_of_first (isLabelName_sanitize label.name)
    (c := '=') rfl ('"' :: (label.value.flatMap escapeLabelValueChar ++ '"' :: rest))
  have hstrip := strip_append ['=', '"'] (label.value.flatMap escapeLabelValueChar ++ '"' :: rest)
  have htext : writeLabel label ++ rest = prometheusSanitizeLabelName label.name
      ++ '=' :: '"' :: (label.value.flatMap escapeLabelValueChar ++ '"' :: rest) := by
    simp [writeLabel, prometheusEscapeLabelValue]
  rw [cons_append, cons_append, nil_append] at hstrip
  simp [readLabel, htext, hname, hstrip, readDelimited_flatMap escapes_labelValue, printedLabel]

theorem readLabels_writeLabels (labels : List PrometheusLabel) (rest : Text)
    : readLabels (writeLabels labels ++ ' ' :: rest)
      = some (labels.map printedLabel, ' ' :: rest) := by
  cases labels with
  | nil => rfl
  | cons label labels =>
    have htext : writeLabels (label :: labels) ++ ' ' :: rest = '\x7b' :: (writeLabel label
        ++ labels.flatMap (fun label => ',' :: [] ++ writeLabel label) ++ '\x7d' :: ' ' :: rest) := by
      simp [writeLabels]
    rw [htext, readLabels, strip_cons_self]
    apply readSeparated_join (by decide) writeLabel printedLabel [] label labels
    intro y _ g hg c _ rest
    obtain rfl : g = [] := by simpa using hg
    exact readLabel_writeLabel y (c :: rest)

theorem mem_decimal {n : Int} (h : c ∈ decimal n) : c = '-' ∨ c.isDigit := by
  unfold decimal at h
  split at h
  . obtain rfl | h := mem_cons.mp h
    . exact .inl rfl
    . exact .inr (Nat.isDigit_of_mem_toDigits (by decide) (by decide) h)
  . exact .inr (Nat.isDigit_of_mem_toDigits (by decide) (by decide) h)

theorem mem_formatValue (value : Double)
    : ' ' ∉ prometheusFormatValue value ∧ '\n' ∉ prometheusFormatValue value := by
  cases value with
  | nan => decide
  | inf negative => cases negative <;> decide
  | finite token => exact token.property

theorem readFields_append (hvalue : ' ' ∉ value) (timestamp : Option Int)
    : readFields (value ++ timestamp.elim [] (fun n => ' ' :: decimal n))
      = some (value, timestamp.map decimal) := by
  have hall : ∀ c ∈ value, decide (c ≠ ' ') := by
    intro c hc
    rw [decide_eq_true_eq]
    rintro rfl
    exact hvalue hc
  cases timestamp with
  | none =>
    have hdrop : value.dropWhile (· ≠ ' ') = [] := by
      rw [← append_nil value, dropWhile_append_of_pos hall]
      rfl
    rw [Option.elim_none, append_nil, readFields, hdrop]
    rfl
  | some n =>
    have hspace : ' ' ∉ decimal n := by
      intro h
      cases mem_decimal h with
      | inl h | inr h => exact absurd h (by decide)
    simp only [Option.elim_some, readFields, dropWhile_append_of_pos hall,
      takeWhile_append_of_pos hall]
    simp [hspace]

def timestampOf (config : PrometheusTextFormatConfig) (sample : PrometheusSample) : Option Int :=
  if config.includeTimestamp ∧ sample.timestampMs ≠ 0 then some sample.timestampMs else none

def sampleText (config : PrometheusTextFormatConfig) (sample : PrometheusSample) : Text :=
  prometheusSanitizeMetricName sample.name ++ (writeLabels (mergedLabels config sample)
    ++ ' ' :: (prometheusFormatValue sample.value
      ++ (timestampOf config sample).elim [] (fun n => ' ' :: decimal n)))

section

variable (config : PrometheusTextFormatConfig) (sample : PrometheusSample)

theorem writeSample_eq : writeSample config sample = sampleText config sample ++ ['\n'] := by
  simp only [writeSample, sampleText, writeTimestamp, timestampOf]
  split <;> simp

theorem parseSample_sampleText
    : parseSample (sampleText config sample) = some (sampleLine config sample) := by
  have hname : ∀ rest, readName isMetricNameFirst isMetricNameChar
      (prometheusSanitizeMetricName sample.name
        ++ (writeLabels (mergedLabels config sample) ++ ' ' :: rest))
      = some (prometheusSanitizeMetricName sample.name,
          writeLabels (mergedLabels config sample) ++ ' ' :: rest) := by
    intro rest
    cases mergedLabels config sample with
    | nil | cons label labels => exact readMetricName rfl _ _
  simp only [parseSample, sampleText, hname, Option.bind_eq_bind, Option.bind_some,
    readLabels_writeLabels, strip_cons_self, readFields_append (mem_formatValue sample.value).1]
  simp only [sampleLine, mergedLabels, timestampOf, apply_ite (Option.map decimal), Option.map_some,
    Option.map_none]
  rfl

theorem parseLine_sampleText
    : parseLine (sampleText config sample) = some (sampleLine config sample) := by
  rw [← parseSample_sampleText]
  have hname := isMetricName_sanitize sample.name
  cases h : prometheusSanitizeMetricName sample.name with
  | nil =>
    rw [h] at hname
    contradiction
  | cons c name =>
    -- A name does not start with the character of the comment lines.
    have hc : '#' ≠ c := by
      rintro rfl
      rw [h] at hname
      contradiction
    have htext : ∃ rest, sampleText config sample = c :: rest := by
      rw [sampleText, h]
      exact ⟨_, rfl⟩
    obtain ⟨rest, htext⟩ := htext
    rw [htext, parseLine]
    have hstrip : ∀ w, strip ('#' :: w) (c :: rest) = none := fun w => strip_cons_of_ne hc w rest
    simp only [show "# HELP ".toList = '#' :: " HELP ".toList from rfl,
      show "# TYPE ".toList = '#' :: " TYPE ".toList from rfl, hstrip]

end

theorem lines_append (current line rest : Text) (h : '\n' ∉ line)
    : lines current (line ++ '\n' :: rest) = (lines [] rest).map ((current ++ line) :: ·) := by
  induction line generalizing current with
  | nil => simp [lines]
  | cons c line ih =>
    obtain ⟨hc, hline⟩ := not_or.mp (mt mem_cons.mpr h)
    rw [cons_append, lines, if_neg (Ne.symm hc), ih _ hline]
    simp

/-- The text is read as the given lines, whatever comes after it. -/
def Prints (text : Text) (ls : List Line) : Prop :=
  ∀ rest, parsePayload (text ++ rest) = (parsePayload rest).map (ls ++ ·)

theorem Prints.nil : Prints [] [] := by
  intro rest
  simp

theorem Prints.append (h : Prints text ls) (h' : Prints text' ls')
    : Prints (text ++ text') (ls ++ ls') := by
  intro rest
  rw [append_assoc, h, h', Option.map_map]
  congr 1
  funext ls''
  exact (append_assoc ls ls' ls'').symm

theorem Prints.flatMap {α : Type} {write : α → Text} {read : α → List Line} {xs : List α}
    (h : ∀ x ∈ xs, Prints (write x) (read x)) : Prints (xs.flatMap write) (xs.flatMap read) := by
  induction xs with
  | nil => exact Prints.nil
  | cons x xs ih => exact (h x mem_cons_self).append (ih (fun y hy => h y (mem_cons_of_mem x hy)))

theorem Prints.line (hnewline : '\n' ∉ text) (hparse : parseLine text = some l)
    : Prints (text ++ ['\n']) [l] := by
  intro rest
  rw [append_assoc, parsePayload, parsePayload, singleton_append,
    lines_append [] text rest hnewline]
  cases lines [] rest with
  | none => rfl
  | some ls =>
    simp only [nil_append, Option.map_some, Option.bind_some, mapM_cons, hparse]
    cases ls.mapM parseLine <;> rfl

theorem notMem_sanitizeName {isFirst isNext : Char → Bool} (himp : ∀ c, isFirst c → isNext c)
    (h : isName isFirst isNext name) (hc : isNext c = false)
    : c ∉ name := by
  intro hmem
  rw [all_of_isName himp h c hmem] at hc
  contradiction

theorem newline_notMem_flatMap {escape : Char → Text} (h : ∀ c, '\n' ∉ escape c) (s : Text)
    : '\n' ∉ s.flatMap escape := by
  simpa using fun c _ => h c

theorem newline_notMem_metricName (name : Text) : '\n' ∉ prometheusSanitizeMetricName name :=
  notMem_sanitizeName metricNameChar_of_first (isMetricName_sanitize name) rfl

theorem newline_notMem_escapeHelp (s : Text) : '\n' ∉ prometheusEscapeHelp s := by
  apply newline_notMem_flatMap
  intro c
  unfold escapeHelpChar
  split
  . decide
  . split
    . decide
    . next h => simpa using Ne.symm h

theorem newline_notMem_writeLabel (label : PrometheusLabel) : '\n' ∉ writeLabel label := by
  have hname : '\n' ∉ prometheusSanitizeLabelName label.name :=
    notMem_sanitizeName labelNameChar_of_first (isLabelName_sanitize label.name) rfl
  have hvalue : '\n' ∉ prometheusEscapeLabelValue label.value := by
    apply newline_notMem_flatMap
    intro c
    unfold escapeLabelValueChar
    split
    . decide
    . split
      . decide
      . split
        . decide
        . next h => simpa using Ne.symm h
  simp [writeLabel, hname, hvalue]

theorem newline_notMem_sampleText (config : PrometheusTextFormatConfig) (sample : PrometheusSample)
    : '\n' ∉ sampleText config sample := by
  have hlabels : '\n' ∉ writeLabels (mergedLabels config sample) := by
    cases mergedLabels config sample with
    | nil => decide
    | cons label labels => simp [writeLabels, newline_notMem_writeLabel]
  have htimestamp : '\n' ∉ (timestampOf config sample).elim [] (fun n => ' ' :: decimal n) := by
    cases timestampOf config sample with
    | none => decide
    | some n =>
      intro h
      cases (mem_cons.mp h).imp id mem_decimal with
      | inl h | inr h => exact absurd h (by decide)
  simp [sampleText, newline_notMem_metricName, hlabels, (mem_formatValue sample.value).2, htimestamp]

section Payload

variable (config : PrometheusTextFormatConfig) (family : PrometheusMetricFamily)

theorem prints_help (name help : Text)
    : Prints ("# HELP ".toList ++ prometheusSanitizeMetricName name
        ++ ' ' :: prometheusEscapeHelp help ++ ['\n'])
        [.help (prometheusSanitizeMetricName name) help] := by
  apply Prints.line
  . simp [newline_notMem_metricName, newline_notMem_escapeHelp]
  . rw [append_assoc, parseLine, strip_append]
    simp [parseHelp, readMetricName (c := ' ') rfl, prometheusEscapeHelp,
      readDelimited_flatMap escapes_help]

theorem prints_type (name : Text) (type : PrometheusMetricType)
    : Prints ("# TYPE ".toList ++ prometheusSanitizeMetricName name ++ ' ' :: type.typeStr ++ ['\n'])
        [.type (prometheusSanitizeMetricName name) type] := by
  apply Prints.line
  . have htype : '\n' ∉ type.typeStr := by cases type <;> decide
    simp [newline_notMem_metricName, htype]
  . have hhelp : ∀ s, strip "# HELP ".toList ("# TYPE ".toList ++ s) = none := fun _ => rfl
    rw [append_assoc, parseLine, hhelp, strip_append]
    simp only [parseType, readMetricName (c := ' ') rfl, Option.bind_eq_bind, Option.bind_some,
      strip_cons_self]
    cases type <;> rfl

theorem prints_family
    : Prints (prometheusWriteMetricFamily config family) (familyLines config family) := by
  refine Prints.append (Prints.append ?_ ?_) ?_
  . unfold writeHelp
    split
    . exact prints_help _ _
    . exact Prints.nil
  . unfold writeType
    split
    . exact prints_type _ _
    . exact Prints.nil
  . rw [← flatMap_singleton' (family.samples.map _), flatMap_map]
    apply Prints.flatMap
    intro sample _
    rw [writeSample_eq]
    exact Prints.line (newline_notMem_sampleText config sample) (parseLine_sampleText config sample)

theorem namesValid_familyLines (h : l ∈ familyLines config family) : l.NamesValid := by
  simp only [familyLines, mem_append, mem_map] at h
  obtain (h | h) | ⟨sample, -, rfl⟩ := h
  . split at h
    . rw [mem_singleton.mp h]
      exact isMetricName_sanitize _
    . contradiction
  . split at h
    . rw [mem_singleton.mp h]
      exact isMetricName_sanitize _
    . contradiction
  . refine ⟨isMetricName_sanitize _, ?_⟩
    simp only [forall_mem_map]
    exact fun label _ => isLabelName_sanitize label.name

theorem parsePayload_build (families : List PrometheusMetricFamily)
    : parsePayload (buildPrometheusTextPayload families config)
      = some (families.flatMap (familyLines config)) := by
  have hprints := Prints.flatMap (fun family (_ : family ∈ families) => prints_family config family) []
  rw [append_nil] at hprints
  simpa [buildPrometheusTextPayload, parsePayload, lines] using hprints

end Payload

end LogIt.Prometheus
