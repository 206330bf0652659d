import LogIt.FileLogger.Impl.Tree
import LogIt.FileLogger.Lemmas.SortKey

namespace LogIt.FileLogger

open List

def IsNumber (digits : Name) : Prop :=
  digits ≠ [] ∧ ∀ c ∈ digits, c.isDigit = true

inductive Middle : Name → Prop
  | current : Middle []
  | indexed {index : Name} (hindex : IsNumber index) : Middle ('.' :: index)
  | timestamp {time : Name} (htime : IsNumber time) : Middle ('_' :: time)
  | timestampIndexed {time index : Name} (htime : IsNumber time) (hindex : IsNumber index)
    : Middle ('_' :: time ++ '.' :: index)

structure LogName (date middle ext name : Name) : Prop where
  name_eq : name = date ++ (middle ++ (logSuffix ++ ext))
  strip_eq : stripCompressionSuffix name = date ++ (middle ++ logSuffix)
  date : isDate date = true
  middle : Middle middle
  ext : ext = [] ∨ ext = gzSuffix ∨ ext = zstSuffix

theorem IsNumber.not_dot (h : IsNumber digits) : '.' ∉ digits :=
  not_mem_of_isDigit h.2

theorem exists_of_isIndexed (h : isIndexed s = true)
    : ∃ index, IsNumber index ∧ s = '.' :: index ++ logSuffix := by
  unfold isIndexed at h
  split at h
  . next s =>
    rw [Bool.and_eq_true, beq_iff_eq, Bool.not_eq_true', isEmpty_eq_false_iff] at h
    refine ⟨s.takeWhile Char.isDigit, ⟨h.1, fun c hc => mem_takeWhile_imp hc⟩, ?_⟩
    rw [← h.2, cons_append, takeWhile_append_dropWhile]
  . contradiction

theorem exists_of_isTimestamp (h : isTimestamp s = true)
    : ∃ middle, Middle middle ∧ s = middle ++ logSuffix := by
  unfold isTimestamp at h
  split at h
  . next s =>
    simp only [Bool.and_eq_true, Bool.or_eq_true, beq_iff_eq] at h
    have htime : IsNumber (s.takeWhile Char.isDigit) := by
      refine ⟨?_, fun c hc => mem_takeWhile_imp hc⟩
      intro hnil
      rw [hnil] at h
      simp at h
    have hs := takeWhile_append_dropWhile (p := Char.isDigit) (l := s)
    cases h.2 with
    | inl hlog =>
      refine ⟨_, Middle.timestamp htime, ?_⟩
      rw [cons_append, ← hlog, hs]
    | inr hindexed =>
      obtain ⟨index, hindex, hrest⟩ := exists_of_isIndexed hindexed
      refine ⟨_, Middle.timestampIndexed htime hindex, ?_⟩
      rw [append_assoc, ← hrest, cons_append, hs]
  . contradiction

theorem length_of_isDate (h : isDate date = true) : date.length = 10 := by
  unfold isDate at h
  split at h
  . rfl
  . contradiction

theorem mem_of_isDate (h : isDate date = true) (hc : c ∈ date) : c.isDigit = true ∨ c = '-' := by
  unfold isDate at h
  split at h
  . simp only [all_cons, all_nil, Bool.and_true, Bool.and_eq_true] at h
    simp only [mem_cons, not_mem_nil, or_false] at hc
    grind
  . contradiction

theorem stripCompressionSuffix_append (name : Name)
    : ∃ ext, name = stripCompressionSuffix name ++ ext ∧
        (ext = [] ∨ ext = gzSuffix ∨ ext = zstSuffix) := by
  unfold stripCompressionSuffix
  split
  . next hgz =>
    obtain ⟨plain, rfl⟩ := isSuffixOf_iff_suffix.mp hgz
    exact ⟨gzSuffix, by simp [gzSuffix], .inr (.inl rfl)⟩
  . split
    . next hzst =>
      obtain ⟨plain, rfl⟩ := isSuffixOf_iff_suffix.mp hzst
      exact ⟨zstSuffix, by simp [zstSuffix], .inr (.inr rfl)⟩
    . exact ⟨[], by simp, .inl rfl⟩

theorem exists_logName (h : isValidLogFilename name = true)
    : ∃ middle ext, LogName (name.take 10) middle ext name := by
  obtain ⟨ext, hname, hext⟩ := stripCompressionSuffix_append name
  unfold isValidLogFilename at h
  simp only [Bool.and_eq_true, Bool.or_eq_true, beq_iff_eq] at h
  obtain ⟨hdate, hrest⟩ := h
  have hmiddle : ∃ middle, Middle middle ∧
      (stripCompressionSuffix name).drop 10 = middle ++ logSuffix := by
    rcases hrest with (hlog | hindexed) | htimestamp
    . exact ⟨[], Middle.current, hlog⟩
    . obtain ⟨index, hindex, hrest⟩ := exists_of_isIndexed hindexed
      exact ⟨_, Middle.indexed hindex, hrest⟩
    . exact exists_of_isTimestamp htimestamp
  obtain ⟨middle, hmiddle, hdrop⟩ := hmiddle
  have htake : name.take 10 = (stripCompressionSuffix name).take 10 := by
    have hlen := length_of_isDate hdate
    rw [length_take] at hlen
    rw [hname, take_append_of_le_length (by omega), ← hname]
  have hstrip : stripCompressionSuffix name = name.take 10 ++ (middle ++ logSuffix) := by
    rw [htake, ← hdrop, take_append_drop]
  refine ⟨middle, ext, ?_, hstrip, by rw [htake]; exact hdate, hmiddle, hext⟩
  rw [← append_assoc middle, ← append_assoc, ← hstrip]
  exact hname

section Generated

variable {date ext : Name}

theorem strip_append (plain : Name) (hext : ext = [] ∨ ext = gzSuffix ∨ ext = zstSuffix)
    : stripCompressionSuffix (plain ++ logSuffix ++ ext) = plain ++ logSuffix := by
  unfold stripCompressionSuffix
  rcases hext with rfl | rfl | rfl
  . simp [isSuffixOf, gzSuffix, zstSuffix, logSuffix]
  . simp [isSuffixOf, gzSuffix, logSuffix, take_length_add_append]
  . simp [isSuffixOf, gzSuffix, zstSuffix, logSuffix, take_length_add_append]

theorem takeWhile_isDigit {digits : Name} (rest : Name) (h : ∀ c ∈ digits, c.isDigit = true)
    : (digits ++ '.' :: rest).takeWhile Char.isDigit = digits ∧
        (digits ++ '.' :: rest).dropWhile Char.isDigit = '.' :: rest := by
  rw [takeWhile_append_of_pos h, dropWhile_append_of_pos h]
  simp

theorem isIndexed_append (h : IsNumber index) : isIndexed ('.' :: index ++ logSuffix) = true := by
  obtain ⟨htake, hdrop⟩ := takeWhile_isDigit ['l', 'o', 'g'] h.2
  unfold isIndexed logSuffix
  simp [htake, hdrop, h.1]

theorem isTimestamp_append {time : Name} (rest : Name)
    (hlength : time.length = 6 ∨ time.length = 9)
    (htime : ∀ c ∈ time, c.isDigit = true)
    (hrest : rest = [] ∨ ∃ index, IsNumber index ∧ rest = '.' :: index)
    : isTimestamp ('_' :: time ++ (rest ++ logSuffix)) = true := by
  obtain ⟨tail, htail⟩ : ∃ tail, rest ++ logSuffix = '.' :: tail := by
    rcases hrest with rfl | ⟨index, _, rfl⟩
    . exact ⟨_, rfl⟩
    . exact ⟨_, rfl⟩
  have hrest : rest ++ logSuffix = logSuffix ∨ isIndexed (rest ++ logSuffix) = true := by
    rcases hrest with rfl | ⟨index, hindex, rfl⟩
    . exact .inl rfl
    . exact .inr (isIndexed_append hindex)
  rw [htail] at hrest ⊢
  obtain ⟨htake, hdrop⟩ := takeWhile_isDigit tail htime
  unfold isTimestamp
  simp [htake, hdrop, hlength, hrest]

theorem isValid_append {rest : Name} (hdate : isDate date = true)
    (hrest : rest = [] ∨ isIndexed (rest ++ logSuffix) = true ∨ isTimestamp (rest ++ logSuffix) = true)
    (hext : ext = [] ∨ ext = gzSuffix ∨ ext = zstSuffix)
    : isValidLogFilename (date ++ rest ++ logSuffix ++ ext) = true := by
  unfold isValidLogFilename
  rw [strip_append _ hext, append_assoc]
  have hlength := length_of_isDate hdate
  simp [hlength, hdate, or_assoc, hrest]

theorem isNumber_padded (width n : Nat) : IsNumber (padded width n) := by
  refine ⟨?_, fun c hc => isDigit_padded hc⟩
  unfold padded leftpad decimal
  exact append_ne_nil_of_right_ne_nil _ Nat.toDigits_ne_nil

variable {config : Config} {dir : Dir} {T : TimeShield} {tsMs : Nat} {name : Name}

theorem exists_of_makeTimestampName
    (hlength : (timePart config.naming (T.msToSec tsMs) tsMs).length = 6 ∨
      (timePart config.naming (T.msToSec tsMs) tsMs).length = 9)
    (hdigits : ∀ c ∈ timePart config.naming (T.msToSec tsMs) tsMs, c.isDigit = true)
    (h : makeTimestampName config date dir T tsMs = some name)
    : ∃ rest, name = date ++ rest ++ logSuffix ∧ isTimestamp (rest ++ logSuffix) = true := by
  unfold makeTimestampName at h
  dsimp only at h
  split at h
  . obtain ⟨idx, _, rfl⟩ := Option.map_eq_some_iff.mp h
    have hindex := isNumber_padded 0 idx.toNat
    rw [padded_zero] at hindex
    refine ⟨'_' :: timePart config.naming (T.msToSec tsMs) tsMs ++ '.' :: decimal idx.toNat, ?_, ?_⟩
    . simp [timestampIdxName]
    . rw [append_assoc]
      exact isTimestamp_append _ hlength hdigits (.inr ⟨_, hindex, rfl⟩)
  . cases h
    refine ⟨'_' :: timePart config.naming (T.msToSec tsMs) tsMs, ?_, ?_⟩
    . simp [timestampName]
    . exact isTimestamp_append [] hlength hdigits (.inl rfl)

theorem exists_of_makeRotatedName (h : makeRotatedName config date dir T tsMs = some name)
    : ∃ rest, name = date ++ rest ++ logSuffix ∧
        (isIndexed (rest ++ logSuffix) = true ∨ isTimestamp (rest ++ logSuffix) = true) := by
  unfold makeRotatedName at h
  have hkey := validKey_rotationKey T config.naming tsMs
  split at h
  . obtain ⟨idx, _, rfl⟩ := Option.map_eq_some_iff.mp h
    refine ⟨'.' :: padded config.seqWidth.toInt32.toNatClampNeg idx.toNat, ?_, ?_⟩
    . simp [sequenceName]
    . exact .inl (isIndexed_append (isNumber_padded _ _))
  all_goals
    next hnaming =>
    have heq : rotationKey T config.naming tsMs = timePart config.naming (T.msToSec tsMs) tsMs := by
      rw [hnaming]
      rfl
    rw [heq] at hkey
    obtain ⟨rest, hname, hrest⟩ := exists_of_makeTimestampName
      (by rw [hkey.length_eq, hnaming]; decide) hkey.isDigit h
    exact ⟨rest, hname, .inr hrest⟩

end Generated

section Dates

open TimeShield (civilFromDays gregorian)

theorem civilFromDays_bounds (days : Nat)
    : 1000 ≤ (civilFromDays days).1 ∧ (civilFromDays days).2.1 < 100 ∧
        (civilFromDays days).2.2 < 100 := by
  have hera : 4 ≤ (days + 719468) / 146097 := by omega
  have hdoe : (days + 719468) % 146097 < 146097 := Nat.mod_lt _ (by omega)
  unfold civilFromDays
  dsimp only
  generalize (days + 719468) / 146097 = era at hera
  generalize (days + 719468) % 146097 = doe at hdoe
  generalize hyoe : (doe - doe / 1460 + doe / 36524 - doe / 146096) / 365 = yoe
  have hdoy : doe - (365 * yoe + yoe / 4 - yoe / 100) < 1000 := by omega
  generalize doe - (365 * yoe + yoe / 4 - yoe / 100) = doy at hdoy
  have hmp : (5 * doy + 2) / 153 < 50 := by omega
  have hyear (m : Nat) : 1000 ≤ if m ≤ 2 then yoe + era * 400 + 1 else yoe + era * 400 := by
    split <;> omega
  have hmonth : (if (5 * doy + 2) / 153 < 10 then (5 * doy + 2) / 153 + 3 else (5 * doy + 2) / 153 - 9)
      < 100 := by
    split <;> omega
  exact ⟨hyear _, hmonth, by omega⟩

theorem isDate_append {year month day : Name} (hyear : year.length = 4) (hmonth : month.length = 2)
    (hday : day.length = 2) (hdigits : ∀ c ∈ year ++ month ++ day, c.isDigit = true)
    : isDate (year ++ '-' :: month ++ '-' :: day) = true := by
  match year, hyear, month, hmonth, day, hday with
  | [y1, y2, y3, y4], _, [m1, m2], _, [d1, d2], _ =>
    simp only [isDate, cons_append, nil_append, all_eq_true]
    exact hdigits

theorem toIso8601Date_gregorian (sec : Nat)
    : gregorian.toIso8601Date sec = padded 4 (civilFromDays (sec / 86400)).1 ++ '-' ::
        padded 2 (civilFromDays (sec / 86400)).2.1 ++ '-' ::
        padded 2 (civilFromDays (sec / 86400)).2.2 := by
  unfold gregorian
  dsimp only

theorem isDate_gregorian (h : (civilFromDays (sec / 86400)).1 < 10000)
    : isDate (gregorian.toIso8601Date sec) = true := by
  obtain ⟨_, hmonth, hday⟩ := civilFromDays_bounds (sec / 86400)
  rw [toIso8601Date_gregorian]
  apply isDate_append (length_padded (by omega) h) (length_padded (by omega) hmonth)
    (length_padded (by omega) hday)
  intro c hc
  rw [mem_append, mem_append] at hc
  rcases hc with (hc | hc) | hc <;> exact isDigit_padded hc

end Dates

def IsNameChar (c : Char) : Prop :=
  c.isDigit = true ∨ c ∈ ['-', '.', '_', 'l', 'o', 'g', 'z', 's', 't']

theorem Middle.isNameChar (h : Middle middle) (hc : c ∈ middle) : IsNameChar c := by
  unfold IsNameChar
  cases h with
  | current => contradiction
  | indexed hindex =>
    rw [mem_cons] at hc
    cases hc with
    | inl hc => simp [hc]
    | inr hc => exact .inl (hindex.2 c hc)
  | timestamp htime =>
    rw [mem_cons] at hc
    cases hc with
    | inl hc => simp [hc]
    | inr hc => exact .inl (htime.2 c hc)
  | timestampIndexed htime hindex =>
    rw [cons_append, mem_cons, mem_append, mem_cons] at hc
    rcases hc with hc | hc | hc | hc
    . simp [hc]
    . exact .inl (htime.2 c hc)
    . simp [hc]
    . exact .inl (hindex.2 c hc)

theorem LogName.isNameChar {date middle ext name : Name} (h : LogName date middle ext name)
    {c : Char} (hc : c ∈ name)
    : IsNameChar c := by
  rw [h.name_eq, mem_append, mem_append, mem_append] at hc
  rcases hc with hc | hc | hc | hc
  . cases mem_of_isDate h.date hc with
    | inl hdigit => exact .inl hdigit
    | inr hhyphen => simp [IsNameChar, hhyphen]
  . exact h.middle.isNameChar hc
  . right
    simp only [logSuffix, mem_cons, not_mem_nil, or_false] at hc ⊢
    tauto
  . right
    rcases h.ext with hext | hext | hext
    . rw [hext] at hc
      contradiction
    . simp only [hext, gzSuffix, mem_cons, not_mem_nil, or_false] at hc ⊢
      tauto
    . simp only [hext, zstSuffix, mem_cons, not_mem_nil, or_false] at hc ⊢
      tauto

theorem IsNameChar.not_separator (h : IsNameChar c) : c ≠ '/' ∧ c ≠ '\\' := by
  constructor
  . rintro rfl
    simp [IsNameChar] at h
  . rintro rfl
    simp [IsNameChar] at h

theorem not_separator_of_isValid (h : isValidLogFilename name = true) (hc : c ∈ name)
    : c ≠ '/' ∧ c ≠ '\\' := by
  obtain ⟨middle, ext, hname⟩ := exists_logName h
  exact (hname.isNameChar hc).not_separator

section Keys

def FileSortKey.retained (key : FileSortKey) : Int × Int :=
  (key.primary, (BitVec.ofInt 32 key.secondary).toInt)

variable {base middle ext : Name} {info : LogFileInfo}

theorem extract_log {c : Char} {x : Name} (hc : c = '_' ∨ c = '.') (hx : '.' ∉ x)
    (hext : ext = [] ∨ ext = gzSuffix ∨ ext = zstSuffix)
    : extract base (base ++ (c :: x ++ (logSuffix ++ ext))) = (strtoll x, 0) := by
  have hlog : logSuffix ++ ext = '.' :: (['l', 'o', 'g'] ++ ext) := rfl
  rw [hlog, cons_append, extract_cons base _ hc hx]
  rcases hext with rfl | rfl | rfl
  . rfl
  . rfl
  . rfl

theorem extract_current (hext : ext = [] ∨ ext = gzSuffix ∨ ext = zstSuffix)
    : extract base (base ++ ([] ++ (logSuffix ++ ext))) = (0, 0) := by
  unfold extract
  rw [drop_left]
  rcases hext with rfl | rfl | rfl
  . rfl
  . rfl
  . rfl

theorem extract_indexed {time index : Name} (htime : '.' ∉ time) (hindex : '.' ∉ index)
    : extract base (base ++ ('_' :: time ++ '.' :: index ++ (logSuffix ++ ext)))
        = (strtoll time, atoi index) := by
  have hlog : logSuffix ++ ext = '.' :: (['l', 'o', 'g'] ++ ext) := rfl
  rw [hlog, append_assoc, cons_append, cons_append,
    extract_cons base _ (.inl rfl) htime, if_pos (by simp), takeWhile_append_dot _ hindex]

theorem parts_of_rotated {name : Name} (hbase : base.length = 10)
    (hname : name = base ++ (kind :: rest ++ logSuffix))
    : name.length = rest.length + 15 ∧ name[10]? = some kind
        ∧ (name.drop 11).take rest.length = rest := by
  rw [hname]
  refine ⟨?_, ?_, ?_⟩
  . simp [hbase, logSuffix]
    omega
  . rw [getElem?_append_right (by omega), hbase]
    rfl
  . rw [drop_append, drop_eq_nil_of_le (by omega), hbase]
    exact take_left

theorem makeFileSortKey_indexed (hbase : base.length = 10) (hindex : IsNumber index)
    (hstrip : stripCompressionSuffix info.name = base ++ ('.' :: index ++ logSuffix))
    : makeFileSortKey info = {
        kindRank := 1
        primary := strtoll index
        artifactName := stripCompressionSuffix info.name
      } := by
  have hpos := length_pos_iff.mpr hindex.1
  obtain ⟨hlength, hkind, hrest⟩ := parts_of_rotated hbase hstrip
  unfold makeFileSortKey
  dsimp only
  rw [hlength, hkind, Nat.add_sub_cancel, hrest, if_neg (by simp), if_pos (by simpa using hpos)]

theorem makeFileSortKey_timestamp (rest : Name) (hbase : base.length = 10) (hpos : 0 < rest.length)
    (hstrip : stripCompressionSuffix info.name = base ++ ('_' :: rest ++ logSuffix))
    : makeFileSortKey info = {
        kindRank := 2
        primary := strtoll (rest.takeWhile (· ≠ '.'))
        secondary := if '.' ∈ rest then strtoll ((rest.dropWhile (· ≠ '.')).drop 1) else 0
        artifactName := stripCompressionSuffix info.name
      } := by
  obtain ⟨hlength, hkind, hrest⟩ := parts_of_rotated hbase hstrip
  unfold makeFileSortKey
  dsimp only
  rw [hlength, hkind, Nat.add_sub_cancel, hrest, if_pos (by simpa using hpos)]

theorem makeFileSortKey_current (hbase : base.length = 10)
    (hstrip : stripCompressionSuffix info.name = base ++ logSuffix)
    : makeFileSortKey info = { artifactName := stripCompressionSuffix info.name } := by
  have hlength : (stripCompressionSuffix info.name).length = 14 := by
    rw [hstrip]
    simp [hbase, logSuffix]
  unfold makeFileSortKey
  dsimp only
  rw [hlength, if_neg (by omega), if_neg (by omega)]

theorem LogName.extract_eq (h : LogName base middle ext info.name)
    : extract base info.name = (makeFileSortKey info).retained := by
  have hbase := length_of_isDate h.date
  have hstrip := h.strip_eq
  rw [h.name_eq]
  cases h.middle with
  | current =>
    rw [extract_current h.ext, makeFileSortKey_current hbase hstrip]
    rfl
  | indexed hindex =>
    rw [extract_log (.inr rfl) hindex.not_dot h.ext, makeFileSortKey_indexed hbase hindex hstrip]
    rfl
  | timestamp htime =>
    rw [extract_log (.inl rfl) htime.not_dot h.ext,
      makeFileSortKey_timestamp _ hbase (length_pos_iff.mpr htime.1) hstrip]
    rw [if_neg htime.not_dot, takeWhile_eq_self_iff.mpr]
    . rfl
    . intro c hc
      simp only [ne_eq, decide_eq_true_eq]
      rintro rfl
      exact htime.not_dot hc
  | @timestampIndexed time index htime hindex =>
    have hkey : makeFileSortKey info = _ :=
      makeFileSortKey_timestamp (time ++ '.' :: index) hbase (by simp) hstrip
    rw [extract_indexed htime.not_dot hindex.not_dot, hkey]
    rw [if_pos (by simp), takeWhile_append_dot _ htime.not_dot, dropWhile_append_dot _ htime.not_dot]
    rfl

end Keys
end LogIt.FileLogger
