import Mathlib.Data.List.TakeWhile
import LogIt.Otlp.Lemmas.Serializer

/-!
This module contains the JSON mode of `SimpleLogFormatter`. The strings are bytes, each as the
character with its number.
-/

namespace LogIt.Formatter

open List JsonText

structure JsonRecord extends LogRecord where
  argNames : Text

/--
The default case is written by `std::hex << std::setw(4) << std::setfill('0')`.
-/
def escapeJsonChar (c : Char) : Text :=
  match c with
  | '"' => ['\\', '"']
  | '\\' => ['\\', '\\']
  | '\x08' => ['\\', 'b']
  | '\x0c' => ['\\', 'f']
  | '\n' => ['\\', 'n']
  | '\r' => ['\\', 'r']
  | '\t' => ['\\', 't']
  | c =>
    if '\x00'.toNat ≤ c.toNat ∧ c.toNat ≤ '\x1f'.toNat then
      ['\\', 'u'] ++ (Nat.toDigits 16 c.toNat).leftpad 4 '0'
    else
      [c]

def escapeJsonString (input : Text) : Text :=
  input.flatMap escapeJsonChar

def LogLevel.toNat (level : LogLevel) : Nat :=
  match level with
  | .trace => 0
  | .debug => 1
  | .info => 2
  | .warn => 3
  | .error => 4
  | .fatal => 5

def formatAsJson (r : JsonRecord) : Text :=
  "\x7b\"log_level\": ".toList ++ decimal r.logLevel.toNat
    ++ ", \"timestamp_ms\": ".toList ++ decimal r.timestampMs
    ++ ", \"file\": \"".toList ++ escapeJsonString r.file
    ++ "\", \"line\": ".toList ++ decimal r.line
    ++ ", \"function\": \"".toList ++ escapeJsonString r.function
    ++ "\", \"format\": \"".toList ++ escapeJsonString r.format
    ++ "\", \"arg_names\": \"".toList ++ escapeJsonString r.argNames
    ++ "\", \"args_array\": [".toList
    ++ (r.argsArray.mapIdx (fun i arg => (if i ≠ 0 then ", ".toList else [])
      ++ ('"' :: escapeJsonString arg.toString ++ ['"']))).flatten
    ++ "], \"thread_id\": \"".toList ++ escapeJsonString r.threadId ++ "\"\x7d".toList

theorem escapeJsonChar_eq : escapeJsonChar = Otlp.escapeChar := by
  have hdigits : ∀ n < 32, ['\\', 'u'] ++ (Nat.toDigits 16 n).leftpad 4 '0' =
      ['\\', 'u', '0', '0', Nat.digitChar (n / 16), Nat.digitChar (n % 16)] := by
    decide
  funext c
  unfold escapeJsonChar
  split
  iterate 7 rfl
  simp only [Otlp.escapeChar]
  by_cases h : c.toNat < 0x20
  . rw [if_pos h, if_pos ⟨Nat.zero_le _, Nat.le_of_lt_succ h⟩, hdigits _ h]
  . rw [if_neg h, if_neg (fun hle => h (Nat.lt_succ_of_le hle.2))]

theorem escapeJsonString_eq (s : Text) : escapeJsonString s = Otlp.otlpJsonEscape s := by
  rw [escapeJsonString, escapeJsonChar_eq, Otlp.otlpJsonEscape]

theorem toDigits_eq_cons (n : Nat)
    : ∃ c s, Nat.toDigits 10 n = c :: s ∧ (c = '0' → s = []) ∧ ∀ d ∈ c :: s, d.isDigit := by
  cases h : Nat.toDigits 10 n with
  | nil => exact absurd h Nat.toDigits_ne_nil
  | cons c s =>
    refine ⟨c, s, rfl, ?_, ?_⟩
    . rintro rfl
      induction n using Nat.strongRecOn generalizing s with
      | ind n ih =>
        rw [Nat.toDigits_eq_if (by decide)] at h
        split at h
        . exact (cons.inj h).2.symm
        . next hge =>
          obtain ⟨s', hs⟩ : ∃ s', Nat.toDigits 10 (n / 10) = '0' :: s' := by
            cases hd : Nat.toDigits 10 (n / 10) with
            | nil => exact absurd hd Nat.toDigits_ne_nil
            | cons c s' =>
              rw [hd] at h
              exact ⟨s', by rw [(cons.inj h).1]⟩
          have hzero := congrArg (Nat.ofDigitChars 10 · 0) hs
          rw [ih (n / 10) (by omega) s' hs, Nat.ofDigitChars_ten_toDigits] at hzero
          have : n / 10 = 0 := hzero
          omega
    . intro d hd
      rw [← h] at hd
      exact Nat.isDigit_of_mem_toDigits (by decide) (by decide) hd

theorem dropInteger_toDigits (n : Nat) : dropInteger (Nat.toDigits 10 n) = some [] := by
  obtain ⟨c, s, hs, hzero, hdigits⟩ := toDigits_eq_cons n
  rw [hs, dropInteger]
  by_cases hc : c = '0'
  . rw [hc, hzero hc, TextReader.strip_cons_self]
  . rw [TextReader.strip_cons_of_ne (Ne.symm hc)]
    refine (if_pos (hdigits c mem_cons_self)).trans ?_
    rw [dropWhile_eq_nil_iff.mpr hdigits]

theorem isNumber_decimal (n : Int) : isNumber (decimal n) := by
  obtain ⟨c, s, hs, -, hdigits⟩ := toDigits_eq_cons n.natAbs
  have hall : (c :: s).all isAtomChar = true := by
    rw [all_eq_true]
    intro d hd
    simp [isAtomChar, Char.isAlphanum, hdigits d hd]
  have hdrop := dropInteger_toDigits n.natAbs
  rw [hs] at hdrop
  unfold decimal isNumber
  split
  . rw [hs, TextReader.strip_cons_self, Option.getD_some, hdrop, all_cons, hall]
    rfl
  . have hne : '-' ≠ c := by
      rintro rfl
      exact absurd (hdigits _ mem_cons_self) (by decide)
    rw [hs, TextReader.strip_cons_of_ne hne, Option.getD_none, hdrop, hall]
    rfl

def jsonValue (r : JsonRecord) : Value :=
  Otlp.object [("log_level", .number ⟨_, isNumber_decimal r.logLevel.toNat⟩),
    ("timestamp_ms", .number ⟨_, isNumber_decimal r.timestampMs⟩), ("file", .string r.file),
    ("line", .number ⟨_, isNumber_decimal r.line⟩), ("function", .string r.function),
    ("format", .string r.format), ("arg_names", .string r.argNames),
    ("args_array", .array (r.argsArray.map (fun arg => .string arg.toString))),
    ("thread_id", .string r.threadId)]

theorem print_jsonValue (r : JsonRecord)
    : print Otlp.escapeChar [' '] (jsonValue r) = formatAsJson r := by
  have hargs : (r.argsArray.map (fun arg => Value.string arg.toString)).map
      (print Otlp.escapeChar [' ']) =
        r.argsArray.map (fun arg => '"' :: escapeJsonString arg.toString ++ ['"']) := by
    rw [map_map]
    apply map_congr_left
    intro arg _
    rw [Function.comp, print, escapeJsonString, escapeJsonChar_eq]
    rfl
  have hsep : ", ".toList = ',' :: [' '] := rfl
  unfold jsonValue formatAsJson
  simp (disch := decide) only [Otlp.object, print, map_cons, map_nil, Otlp.quote_plain, hargs, hsep,
    flatten_mapIdx, joined, flatMap_cons, flatMap_nil]
  simp only [quote, Otlp.quoted, escapeJsonString, escapeJsonChar_eq, String.reduceToList,
    append_assoc, cons_append, nil_append]

def isClean (s : Text) : Bool :=
  s.all (fun c => 0x20 ≤ c.toNat)

theorem isClean_escape (s : Text) : isClean (escapeJsonString s) := by
  rw [isClean, escapeJsonString, escapeJsonChar_eq, all_flatMap, all_eq_true]
  intro c _
  unfold Otlp.escapeChar
  split
  iterate 7 rfl
  split
  . next h =>
    have hdigits : ∀ n < 32, 0x20 ≤ (Nat.digitChar (n / 16)).toNat
        ∧ 0x20 ≤ (Nat.digitChar (n % 16)).toNat := by
      decide
    simp [hdigits _ h]
  . next h => simp; omega

theorem isClean_decimal (n : Int) : isClean (decimal n) := by
  have h := isClean_escape (decimal n)
  rw [escapeJsonString_eq, Otlp.otlpJsonEscape_of_plain (Otlp.isPlain_decimal n)] at h
  exact h

theorem isClean_args (args : List VariableValue)
    : isClean (args.mapIdx (fun i arg => (if i ≠ 0 then ", ".toList else [])
        ++ ('"' :: escapeJsonString arg.toString ++ ['"']))).flatten := by
  rw [isClean, all_flatten, all_eq_true]
  intro text htext
  obtain ⟨i, hi, rfl⟩ := mem_mapIdx.mp htext
  have hescape := isClean_escape args[i].toString
  rw [isClean] at hescape
  rw [all_append, cons_append, all_cons, all_append, hescape]
  split <;> rfl

end LogIt.Formatter
