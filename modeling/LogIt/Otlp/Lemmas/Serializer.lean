import LogIt.Otlp.Impl.Serializer

namespace LogIt.Otlp

open List

open Formatter (Text LogLevel decimal)
open JsonText TextReader

theorem escapes_escapeChar : Escapes readChar '"' escapeChar where
  next_escape := by
    intro c rest
    unfold escapeChar
    split
    iterate 7 rfl
    next hbackslash _ _ _ _ _ =>
    split
    . next hlt =>
      have hhex : ∀ n < 32, readHex ['0', '0', Nat.digitChar (n / 16), Nat.digitChar (n % 16)]
          = some n := by
        decide
      have hchar : utf8 c.toNat = [c] := by
        rw [utf8, if_pos (by omega), Char.ofNat_toNat]
      simp [readChar, readEscape, hhex c.toNat hlt, hchar]
    . next hge => simp only [cons_append, nil_append, readChar, if_neg hbackslash, if_neg hge]
  head_escape := by
    intro c
    unfold escapeChar
    split
    iterate 7 exact ⟨_, _, rfl, by decide⟩
    next hquote _ _ _ _ _ _ =>
    split
    . exact ⟨_, _, rfl, by decide⟩
    . exact ⟨_, _, rfl, hquote⟩

def isPlain (s : Text) : Bool :=
  s.all (fun c => escapeChar c = [c])

theorem otlpJsonEscape_of_plain {s : Text} (h : isPlain s) : otlpJsonEscape s = s := by
  have hmap : s.map escapeChar = s.map (fun c => [c]) := by
    apply map_congr_left
    intro c hc
    simpa using all_eq_true.mp h c hc
  rw [otlpJsonEscape, flatMap_def, hmap, ← flatMap_def, flatMap_singleton']

theorem quote_plain {s : Text} (h : isPlain s) : quote escapeChar s = quoted s :=
  congrArg quoted (otlpJsonEscape_of_plain h)

theorem isPlain_decimal (n : Int) : isPlain (decimal n) := by
  have hdigits (n : Nat) (c : Char) (hc : c ∈ Nat.toDigits 10 n) : escapeChar c = [c] := by
    have hdigit : c.isDigit := Nat.isDigit_of_mem_toDigits (by decide) (by decide) hc
    unfold escapeChar
    split <;> first | contradiction | skip
    have hge : 48 ≤ c.toNat := by
      simp only [Char.isDigit, Bool.and_eq_true, decide_eq_true_eq, ge_iff_le,
        UInt32.le_iff_toNat_le] at hdigit
      exact hdigit.1
    rw [if_neg (by omega)]
  have hplain (n : Nat) : isPlain (Nat.toDigits 10 n) := by
    rw [isPlain, all_eq_true]
    intro c hc
    exact decide_eq_true (hdigits n c hc)
  unfold decimal
  split
  . exact hplain _
  . exact hplain _

def object (members : List (String × Value)) : Value :=
  .object (members.map (fun m => (m.1.toList, m.2)))

def Attribute.content (a : Attribute) : String × Value :=
  match a with
  | .string _ value => ("stringValue", .string value)
  | .int _ value => ("intValue", .string (decimal value))
  | .bool _ value => ("boolValue", .bool value)
  | .double _ (.finite token) => ("doubleValue", .number token)
  | .double _ (.nonFinite text) => ("stringValue", .string text)
  | .uint _ value => (if value < 2 ^ 63 then "intValue" else "stringValue", .string (decimal value))

def Attribute.value (a : Attribute) : Value :=
  object [("key", .string a.key), ("value", object [a.content])]

theorem print_attribute (key : Text) {kind : String} (hkind : isPlain kind.toList) (value : Value)
    : print escapeChar [] (object [("key", .string key), ("value", object [(kind, value)])])
        = writeAttr key kind (print escapeChar [] value) := by
  unfold writeAttr
  simp (disch := first | assumption | decide) only [object, print, map_cons, map_nil,
    quote_plain, joined, flatMap_cons, flatMap_nil]
  simp only [quote, quoted, otlpJsonEscape, String.reduceToList, append_assoc, cons_append,
    nil_append]

theorem print_decimal (n : Int) : print escapeChar [] (.string (decimal n)) = quoted (decimal n) := by
  rw [print, quote_plain (isPlain_decimal n)]

theorem print_value (a : Attribute) : print escapeChar [] a.value = a.write := by
  unfold Attribute.value Attribute.content Attribute.write
  split
  . rw [print_attribute _ (by decide), print]
    rfl
  . rw [print_attribute _ (by decide), print_decimal]
    rfl
  . next value =>
    rw [print_attribute _ (by decide)]
    cases value with
    | false | true =>
      rw [print]
      rfl
  . rw [print_attribute _ (by decide), print]
    rfl
  . rw [print_attribute _ (by decide), print]
    rfl
  . split
    . rw [print_attribute _ (by decide), print_decimal]
      exact (if_pos (by omega)).symm
    . rw [print_attribute _ (by decide), print_decimal]
      exact (if_neg (by omega)).symm

theorem writeAttributes_false (attributes : List Attribute) (os : Text)
    : writeAttributes attributes os false
        = os ++ (attributes.map Attribute.write).flatMap (fun text => ',' :: [] ++ text) := by
  induction attributes generalizing os with
  | nil => simp [writeAttributes]
  | cons a attributes ih => simp [writeAttributes, ih]

theorem writeAttributes_true (attributes : List Attribute)
    : writeAttributes attributes [] true
        = joined [] ((attributes.map Attribute.value).map (print escapeChar [])) := by
  have hwrite : (attributes.map Attribute.value).map (print escapeChar [])
      = attributes.map Attribute.write := by
    rw [map_map]
    apply map_congr_left
    intro a _
    exact print_value a
  rw [hwrite]
  cases attributes with
  | nil => rfl
  | cons a attributes =>
    rw [writeAttributes, writeAttributes_false]
    rfl

section

variable (config : OtlpJsonFormatConfig)

def recordValue (item : OtlpLogItem) : Value :=
  let r := item.record
  object [("timeUnixNano", .string (decimal (timeUnixNano r.timestampMs))),
    ("severityText", .string r.logLevel.toString),
    ("severityNumber", .number ⟨decimal (otlpSeverityNumber r.logLevel), by cases r.logLevel <;> decide⟩),
    ("body", object [("stringValue", .string item.message)]),
    ("attributes", .array ((recordAttributes config r).map Attribute.value))]

def requestValue (batch : List OtlpLogItem) : Value :=
  object [("resourceLogs", .array [object [
    ("resource", object [("attributes", .array ((resourceAttributes config).map Attribute.value))]),
    ("scopeLogs", .array [object [("scope", object [("name", .string "logit-cpp".toList)]),
      ("logRecords", .array (batch.map (recordValue config)))]])]])]

theorem print_recordValue (item : OtlpLogItem)
    : print escapeChar [] (recordValue config item) = otlpWriteLogRecordJson config item := by
  unfold recordValue otlpWriteLogRecordJson
  simp (disch := decide) only [object, print, map_cons, map_nil, quote_plain,
    quote_plain (isPlain_decimal _), writeAttributes_true, joined, flatMap_cons, flatMap_nil]
  simp only [quote, quoted, otlpJsonEscape, String.reduceToList, append_assoc, cons_append,
    nil_append]

theorem print_requestValue (batch : List OtlpLogItem)
    : print escapeChar [] (requestValue config batch) = buildOtlpLogsJsonPayload config batch := by
  have hrecords : (batch.map (recordValue config)).map (print escapeChar [])
      = batch.map (otlpWriteLogRecordJson config) := by
    rw [map_map]
    apply map_congr_left
    intro item _
    exact print_recordValue config item
  unfold requestValue buildOtlpLogsJsonPayload
  simp (disch := decide) only [object, print, map_cons, map_nil, quote_plain,
    writeAttributes_true, hrecords, flatten_mapIdx, joined, flatMap_cons, flatMap_nil]
  simp only [quoted, String.reduceToList, append_assoc, cons_append, nil_append]

end

section Time

def denoted (text : Text) : Int :=
  match text with
  | '-' :: digits => -Nat.ofDigitChars 10 digits 0
  | digits => Nat.ofDigitChars 10 digits 0

theorem denoted_decimal (n : Int) : denoted (decimal n) = n := by
  unfold decimal
  split
  . rw [denoted, Nat.ofDigitChars_ten_toDigits]
    omega
  . rw [denoted, Nat.ofDigitChars_ten_toDigits]
    . omega
    . intro digits h
      have hdigit := Nat.isDigit_of_mem_toDigits (b := 10) (n := n.natAbs) (by decide) (by decide)
        (by rw [h]; exact mem_cons_self)
      contradiction

/--
The number in the member `timeUnixNano` of the JSON text of a record.
-/
def exportedTime (config : OtlpJsonFormatConfig) (item : OtlpLogItem) : Option Int :=
  match parse (otlpWriteLogRecordJson config item) with
  | some (.object members) =>
    match members.lookup "timeUnixNano".toList with
    | some (.string text) => some (denoted text)
    | _ => none
  | _ => none

theorem exportedTime_eq (config : OtlpJsonFormatConfig) (item : OtlpLogItem)
    : exportedTime config item = some (timeUnixNano item.record.timestampMs) := by
  have hparse : parse (otlpWriteLogRecordJson config item) = some (recordValue config item) := by
    rw [← print_recordValue]
    apply parse_print escapes_escapeChar
    simp
  unfold exportedTime
  rw [hparse]
  simp only [recordValue, object, map_cons, lookup_cons_self, denoted_decimal]

theorem exported_times_exact_iff (config : OtlpJsonFormatConfig) {s t : OtlpLogItem}
    (hle : s.record.timestampMs ≤ t.record.timestampMs)
    : ((∃ m n, exportedTime config s = some m ∧ exportedTime config t = some n ∧ m ≤ n ∧
          m = s.record.timestampMs * 1000000 ∧ n = t.record.timestampMs * 1000000) ∧
        MachineInteger.Fits ⟨64, true⟩ (s.record.timestampMs * 1000000) ∧
        MachineInteger.Fits ⟨64, true⟩ (t.record.timestampMs * 1000000)) ↔
      -9223372036854 ≤ s.record.timestampMs ∧ t.record.timestampMs ≤ 9223372036854 := by
  have hfits (n : Int) : MachineInteger.Fits ⟨64, true⟩ (n * 1000000) ↔
      -9223372036854 ≤ n ∧ n ≤ 9223372036854 := by
    simp only [MachineInteger.Fits, if_true]
    omega
  constructor
  . rintro ⟨_, hs, ht⟩
    exact ⟨((hfits _).mp hs).1, ((hfits _).mp ht).2⟩
  . rintro ⟨hs, ht⟩
    have hsFits := (hfits _).mpr ⟨hs, by omega⟩
    have htFits := (hfits _).mpr ⟨by omega, ht⟩
    refine ⟨⟨_, _, exportedTime_eq config s, exportedTime_eq config t, ?_⟩, hsFits, htFits⟩
    have hsEq : timeUnixNano s.record.timestampMs = s.record.timestampMs * 1000000 :=
      (MachineInteger.cast_eq_self_iff ..).mpr hsFits
    have htEq : timeUnixNano t.record.timestampMs = t.record.timestampMs * 1000000 :=
      (MachineInteger.cast_eq_self_iff ..).mpr htFits
    rw [hsEq, htEq]
    exact ⟨by omega, rfl, rfl⟩

theorem exported_times_exact_2024
    : ∃ m n, exportedTime {} ⟨{ timestampMs := -1 }, []⟩ = some m ∧
        exportedTime {} ⟨{ timestampMs := 1704067200000 }, []⟩ = some n ∧ m ≤ n ∧
        m = -1000000 ∧ n = 1704067200000000000 :=
  ((exported_times_exact_iff {} (s := ⟨{ timestampMs := -1 }, []⟩)
    (t := ⟨{ timestampMs := 1704067200000 }, []⟩) (by decide)).mpr (by decide)).1

theorem exported_time_overflows
    : MachineInteger.Fits ⟨64, true⟩ 9223372036855 ∧
      ¬ MachineInteger.Fits ⟨64, true⟩ (9223372036855 * 1000000) ∧
      exportedTime {} ⟨{ timestampMs := 0 }, []⟩ = some 0 ∧
      exportedTime {} ⟨{ timestampMs := 9223372036855 }, []⟩ = some (-9223372036854551616) := by
  refine ⟨by decide, by decide, ?_, ?_⟩
  all_goals
    rw [exportedTime_eq]
    decide

end Time

open Formatter (Text decimal)

variable (config : OtlpJsonFormatConfig)

theorem key_argAttribute (key : Text) (arg : VariableValue) : (argAttribute key arg).key = key := by
  unfold argAttribute
  split <;> rfl

def numberIsFresh (keyCount : Text → Option Nat) (key : Text) : Bool :=
  (keyCount key).all (fun count => (keyCount (key ++ '.' :: decimal (count + 1))).isNone)

def numbersAreFresh (i : Nat) (keyCount : Text → Option Nat) (args : List VariableValue) : Bool :=
  match args with
  | [] => true
  | arg :: args =>
    let key := argKey config i arg.name
    numberIsFresh keyCount key && numbersAreFresh (i + 1) (assignKey keyCount key).2 args

section

variable (keyCount : Text → Option Nat) (key : Text)

theorem assignKey_fst
    : numberIsFresh keyCount key = true ↔ keyCount (assignKey keyCount key).1 = none := by
  unfold numberIsFresh assignKey
  split
  . next count hcount => simp [hcount]
  . next hnone => simp [hnone]

theorem assignKey_snd (k : Text)
    : (assignKey keyCount key).2 k = none ↔ k ≠ (assignKey keyCount key).1 ∧ keyCount k = none := by
  unfold assignKey
  split
  . next count hcount =>
    dsimp only
    by_cases hk : k = key ++ '.' :: decimal (count + 1)
    . simp [hk]
    . rw [Function.update_of_ne hk]
      by_cases hkey : k = key
      . simp [hkey, hcount]
      . simp [Function.update_of_ne hkey, hk]
  . by_cases hk : k = key
    . simp [hk]
    . simp [hk]

end

theorem numbersAreFresh_iff (i : Nat) (keyCount : Text → Option Nat) (args : List VariableValue)
    : numbersAreFresh config i keyCount args = true ↔
        ((argAttributes config i keyCount args).map Attribute.key).Nodup ∧
          ∀ key ∈ (argAttributes config i keyCount args).map Attribute.key, keyCount key = none := by
  induction args generalizing i keyCount with
  | nil => simp [numbersAreFresh, argAttributes]
  | cons arg args ih =>
    have hsnd := assignKey_snd keyCount (argKey config i arg.name)
    rw [numbersAreFresh, Bool.and_eq_true, ih, assignKey_fst]
    simp only [argAttributes, List.map_cons, key_argAttribute, List.nodup_cons, List.mem_cons, hsnd]
    grind

def namedArgs (names : List String) : List VariableValue :=
  names.map (fun name => { name := name.toList, type := .string })

end LogIt.Otlp
