import LogIt.FileLogger.Lemmas.ValidNames
import LogIt.UniqueFileLogger.Impl.Files

namespace LogIt.UniqueFileLogger

open List

open FileLogger (Name Dir padded logSuffix gzSuffix zstSuffix)
open FileLogger.TimeShield (civilFromDays)

section Names

variable (draw : Nat → Fin charset.length) (hashLength : Nat)

theorem length_hash : (generateFixedLengthHash draw hashLength).length = hashLength := by
  unfold generateFixedLengthHash
  rw [length_map, length_range]

theorem isLabelChar_hash (h : c ∈ generateFixedLengthHash draw hashLength)
    : isLabelChar c = true := by
  have hcharset : charset.all isLabelChar = true := by decide +kernel
  obtain ⟨i, _, rfl⟩ := mem_map.mp h
  exact all_eq_true.mp hcharset _ (get_mem ..)

theorem dropFields_append {digits rest : Name} {n : Nat} {c : Char} {fields : List (Nat × Char)}
    (hlength : digits.length = n) (hdigits : ∀ c ∈ digits, c.isDigit = true)
    : dropFields ((n, c) :: fields) (digits ++ c :: rest) = dropFields fields rest := by
  subst hlength
  have hall : digits.all Char.isDigit = true := all_eq_true.mpr hdigits
  have hdrop : (digits ++ c :: rest).drop (digits.length + 1) = rest := by
    rw [drop_length_add_append]
    rfl
  rw [dropFields, hdrop]
  simp [hall]

theorem decimal_natCast {y : Nat} (h : 1000 ≤ y) : Formatter.decimal y = padded 4 y := by
  have hlength : ¬ (Nat.toDigits 10 y).length ≤ 3 := by
    rw [Nat.length_toDigits_le_iff (by omega) (by omega)]
    omega
  unfold Formatter.decimal padded FileLogger.decimal leftpad
  have hzero : 4 - (Nat.toDigits 10 y).length = 0 := by omega
  rw [if_neg (by omega), hzero]
  rfl

theorem precision_natCast (digits n : Nat) : precision digits n = padded digits n := by
  unfold precision
  rw [if_neg (by omega)]
  rfl

structure HasFields (T : TimeShield) (t : Int) (year mon day hour min sec ms : Nat) : Prop where
  eq : T.toDateTimeMs t = ⟨year, mon, day, hour, min, sec, ms⟩
  year_ge : 1000 ≤ year
  year_lt : year < 10000
  mon_lt : mon < 100
  day_lt : day < 100
  hour_lt : hour < 100
  min_lt : min < 100
  sec_lt : sec < 100
  ms_lt : ms < 1000

namespace HasFields

variable {T : TimeShield} {t : Int} {year mon day hour min sec ms : Nat}

section

variable (h : HasFields T t year mon day hour min sec ms)

include h

theorem format_eq
    : formatTimestamp T t = padded 4 year ++ '-' :: padded 2 mon ++ '-' :: padded 2 day ++ '_' ::
        padded 2 hour ++ '-' :: padded 2 min ++ '-' :: padded 2 sec ++ '-' :: padded 3 ms := by
  unfold formatTimestamp
  rw [h.eq]
  simp only [precision_natCast, decimal_natCast h.year_ge]
  apply take_of_length_le
  simp only [length_append, length_cons]
  rw [FileLogger.length_padded (by omega) h.year_lt, FileLogger.length_padded (by omega) h.mon_lt,
    FileLogger.length_padded (by omega) h.day_lt, FileLogger.length_padded (by omega) h.hour_lt,
    FileLogger.length_padded (by omega) h.min_lt, FileLogger.length_padded (by omega) h.sec_lt,
    FileLogger.length_padded (by omega) h.ms_lt]
  decide

theorem date_le
    : padded 4 year ++ '-' :: padded 2 mon ++ '-' :: padded 2 day <+: formatTimestamp T t := by
  rw [h.format_eq]
  exact (((prefix_append _ _).trans (prefix_append _ _)).trans
    (prefix_append _ _)).trans (prefix_append _ _)

theorem dropFields_eq (rest : Name)
    : dropFields timestampFields (formatTimestamp T t ++ '-' :: rest) = some rest := by
  have hfield {width n : Nat} {c : Char} {fields : List (Nat × Char)} {s : Name} (hpos : 0 < width)
      (hn : n < 10 ^ width)
      : dropFields ((width, c) :: fields) (padded width n ++ c :: s) = dropFields fields s :=
    dropFields_append (FileLogger.length_padded hpos hn) (fun _ hc => FileLogger.isDigit_padded hc)
  rw [h.format_eq]
  unfold timestampFields
  simp only [append_assoc, cons_append]
  rw [hfield (by omega) h.year_lt, hfield (by omega) h.mon_lt, hfield (by omega) h.day_lt,
    hfield (by omega) h.hour_lt, hfield (by omega) h.min_lt, hfield (by omega) h.sec_lt,
    hfield (by omega) h.ms_lt, dropFields]

theorem isValid_iff
    : isValidLogFilename (createUniqueFilePath T hashLength draw t) = true ↔ hashLength ≠ 0 := by
  have hlabel : ∀ c ∈ generateFixedLengthHash draw hashLength, isLabelChar c = true :=
    fun _ hc => isLabelChar_hash draw hashLength hc
  have hstrip := FileLogger.strip_append
    (formatTimestamp T t ++ '-' :: generateFixedLengthHash draw hashLength) (.inl rfl)
  rw [append_nil] at hstrip
  unfold isValidLogFilename createUniqueFilePath
  rw [hstrip, append_assoc, cons_append, h.dropFields_eq]
  dsimp only
  rw [takeWhile_append_of_pos hlabel, dropWhile_append_of_pos hlabel]
  have hdot : isLabelChar '.' = false := by decide
  have hempty : generateFixedLengthHash draw hashLength = [] ↔ hashLength = 0 := by
    rw [← length_eq_zero_iff, length_hash]
  simp [logSuffix, hdot, hempty]

end

end HasFields

def InYears (tsMs : Nat) : Prop :=
  (civilFromDays (tsMs / 1000 / 86400)).1 < 10000

instance (tsMs : Nat) : Decidable (InYears tsMs) :=
  inferInstanceAs (Decidable (_ < _))

theorem hasFields_gregorian (h : InYears tsMs)
    : HasFields .gregorian tsMs (civilFromDays (tsMs / 1000 / 86400)).1
        (civilFromDays (tsMs / 1000 / 86400)).2.1 (civilFromDays (tsMs / 1000 / 86400)).2.2
        (tsMs / 1000 % 86400 / 3600) (tsMs / 1000 % 3600 / 60) (tsMs / 1000 % 60) (tsMs % 1000) := by
  obtain ⟨hyear, hmonth, hday⟩ := FileLogger.civilFromDays_bounds (tsMs / 1000 / 86400)
  refine ⟨?_, hyear, h, hmonth, hday, by omega, by omega, by omega, by omega⟩
  unfold TimeShield.gregorian
  dsimp only
  rw [Int.toNat_natCast]

def firstDraw (_ : Nat) : Fin charset.length :=
  ⟨0, by decide +kernel⟩

end Names

section Retention

variable {T : TimeShield} {days now : Int} {dir : Dir} {name : Name}

theorem mem_removeOldLogs
    : name ∈ removeOldLogs T days now dir ↔ name ∈ dir ∧
        (isValidLogFilename name = true → now / 1000 - days * 86400 ≤ T.ts (name.take 10)) := by
  unfold removeOldLogs
  dsimp only
  rw [Directory.mem_foldl_remove, mem_filter, T.msToSec_eq, ← AList.mem_keys]
  simp only [Bool.and_eq_true, decide_eq_true_eq]
  constructor
  . rintro ⟨hkept, hmem⟩
    exact ⟨hmem, fun hvalid => not_lt.mp (fun hlt => hkept ⟨hmem, hvalid, hlt⟩)⟩
  . rintro ⟨hmem, hkept⟩
    exact ⟨fun hold => not_lt.mpr (hkept hold.2.1) hold.2.2, hmem⟩

theorem kept_for_days_iff (T : TimeShield) (hashLength : Nat) (draw : Nat → Fin charset.length)
    (t days : Int) (dir : Dir) (hdays : 0 ≤ days)
    (hmem : createUniqueFilePath T hashLength draw t ∈ dir)
    (hts : isValidLogFilename (createUniqueFilePath T hashLength draw t) = true →
      T.ts ((createUniqueFilePath T hashLength draw t).take 10) = t / 86400000 * 86400)
    : ((∀ now, createUniqueFilePath T hashLength draw t ∉ removeOldLogs T days now dir →
          days * 86400000 ≤ now - t) ↔
        (isValidLogFilename (createUniqueFilePath T hashLength draw t) = true →
          t % 86400000 ≤ 1000)) ∧
      (createUniqueFilePath T hashLength draw t ∈ removeOldLogs T days t dir ↔
        (isValidLogFilename (createUniqueFilePath T hashLength draw t) = true →
          0 < days ∨ t % 86400000 < 1000)) := by
  generalize createUniqueFilePath T hashLength draw t = name at hmem hts ⊢
  simp only [mem_removeOldLogs, hmem, true_and]
  refine ⟨⟨?_, ?_⟩, ?_⟩
  . intro h hvalid
    have hage := h ((t / 86400000 * 86400 + days * 86400 + 1) * 1000) (fun hkept => by
      have := hkept hvalid
      rw [hts hvalid] at this
      omega)
    omega
  . intro h now hdeleted
    obtain ⟨hvalid, hold⟩ := Classical.not_imp.mp hdeleted
    have hmidnight := h hvalid
    rw [hts hvalid] at hold
    omega
  . refine forall_congr' (fun hvalid => ?_)
    rw [hts hvalid]
    omega

def singleFile (tsMs : Nat) : Dir :=
  AList.singleton (createUniqueFilePath .gregorian 8 firstDraw tsMs) [65]

theorem kept_for_days_noon
    : createUniqueFilePath .gregorian 8 firstDraw (1704110400000 : Nat) ∈
        removeOldLogs .gregorian 1 (1704110400000 : Nat) (singleFile 1704110400000) :=
  (kept_for_days_iff .gregorian 8 firstDraw (1704110400000 : Nat) 1 (singleFile 1704110400000)
    (by decide) (by decide +kernel) (fun _ => by decide +kernel)).2.mpr (fun _ => .inl (by decide))

theorem deleted_before_days
    : createUniqueFilePath .gregorian 8 firstDraw (1704110400000 : Nat) ∉
          removeOldLogs .gregorian 1 (1704110400000 + 43201000) (singleFile 1704110400000) ∧
        createUniqueFilePath .gregorian 8 firstDraw (1704110400000 : Nat) ∉
          removeOldLogs .gregorian 0 1704110400000 (singleFile 1704110400000) := by
  decide +kernel

end Retention

section Uniqueness

variable (T : TimeShield) (hashLength : Nat)

def Write.file (w : Write) : FileLogger.LogFile :=
  ⟨w.name T hashLength, w.message⟩

def Write.stamp (w : Write) : Name × Name :=
  (formatTimestamp T w.timestampMs, generateFixedLengthHash w.draw hashLength)

theorem Write.name_eq_iff (w w' : Write)
    : w.name T hashLength = w'.name T hashLength ↔ w.stamp T hashLength = w'.stamp T hashLength := by
  unfold Write.name Write.stamp createUniqueFilePath
  rw [append_left_inj, Prod.mk.injEq]
  constructor
  . intro h
    have hlength := (length_hash w.draw hashLength).trans (length_hash w'.draw hashLength).symm
    obtain ⟨hformat, hhash⟩ := append_inj' h (by rw [length_cons, length_cons, hlength])
    exact ⟨hformat, tail_eq_of_cons_eq hhash⟩
  . rintro ⟨hformat, hhash⟩
    rw [hformat, hhash]

theorem keys_file (writes : List Write)
    : (writes.map (Write.file T hashLength)).keys = writes.map (Write.name T hashLength) := by
  unfold keys
  rw [map_map]
  rfl

theorem lists_foldl_writeLog (writes : List Write) {dir : Dir} {files : List FileLogger.LogFile}
    (h : dir.Lists files) (hnodup : (files.keys ++ writes.map (Write.name T hashLength)).Nodup)
    : Directory.Lists (writes.foldl (writeLog T hashLength) dir)
        (files ++ writes.map (Write.file T hashLength)) := by
  induction writes generalizing dir files with
  | nil => simpa using h
  | cons w writes ih =>
    rw [map_cons, perm_middle.nodup_iff] at hnodup
    have hnew : w.name T hashLength ∉ files.keys :=
      fun hmem => (nodup_cons.mp hnodup).1 (mem_append_left _ hmem)
    have hwritten : (writeLog T hashLength dir w).Lists (w.file T hashLength :: files) :=
      h.insert_new hnew
    exact (ih hwritten hnodup).of_perm perm_middle.symm

theorem one_file_per_message_iff (writes : List Write)
    : Directory.Lists (writes.foldl (writeLog T hashLength) ∅)
          (writes.map (Write.file T hashLength)) ↔
        (writes.map (Write.stamp T hashLength)).Nodup := by
  have hnames : (writes.map (Write.name T hashLength)).Nodup ↔
      (writes.map (Write.stamp T hashLength)).Nodup := by
    unfold List.Nodup
    rw [pairwise_map, pairwise_map]
    simp only [ne_eq, Write.name_eq_iff]
  rw [← hnames]
  constructor
  . intro h
    rw [← keys_file]
    exact h.nodupKeys
  . intro hnodup
    have hempty : Directory.Lists (∅ : Dir) [] := List.Perm.refl _
    exact lists_foldl_writeLog T hashLength writes hempty hnodup

def writesAt (times : List Int) : List Write :=
  times.map (fun t => ⟨[65], t, firstDraw⟩)

theorem one_file_per_message_two
    : Directory.Lists ((writesAt [0, 1]).foldl (writeLog .gregorian 8) ∅)
        ((writesAt [0, 1]).map (Write.file .gregorian 8)) :=
  (one_file_per_message_iff .gregorian 8 (writesAt [0, 1])).mpr (by decide +kernel)

theorem second_message_overwrites
    : (([⟨[65], 0, firstDraw⟩, ⟨[66], 0, firstDraw⟩] : List Write).foldl (writeLog .gregorian 8)
        ∅).entries = [⟨createUniqueFilePath .gregorian 8 firstDraw 0, [66]⟩] := by
  decide +kernel

end Uniqueness
end LogIt.UniqueFileLogger
