import LogIt.FileLogger.Lemmas.Names

namespace LogIt.FileLogger

open List

def keyValue (key : Name) : Nat :=
  Nat.ofDigitChars 10 key 0

def orderedSlots (naming : RotationNaming) : Nat :=
  match naming with
  | .sequence => 2 ^ 32 - 1
  | .timestamp | .timestampMs => 2 ^ 31

theorem ofDigitChars_lt {s : Name} (h : ∀ c ∈ s, c.isDigit = true)
    : Nat.ofDigitChars 10 s 0 < 10 ^ s.length := by
  induction s using reverseRecOn with
  | nil => simp
  | append_singleton s c ih =>
    have hs := ih (fun c hc => h c (mem_append_left _ hc))
    have hc := Char.isDigit_iff_toNat.mp (h c (by simp))
    have hzero : '0'.toNat = 48 := rfl
    have hnine : '9'.toNat = 57 := rfl
    rw [Nat.ofDigitChars_append, Nat.ofDigitChars_cons, Nat.ofDigitChars_nil, length_append,
      length_singleton, Nat.pow_succ]
    omega

theorem strtoll_key (h : ValidKey naming key) : strtoll key = keyValue key := by
  apply strtoll_digits h.isDigit
  have hlt := ofDigitChars_lt h.isDigit
  rw [h.length_eq] at hlt
  cases naming with
  | sequence | timestamp | timestampMs =>
    simp only [keyLength] at hlt
    omega

theorem keyValue_append_padded (s : Name) (hpos : 0 < width) (hn : n < 10 ^ width)
    : keyValue (s ++ padded width n) = 10 ^ width * keyValue s + n := by
  unfold keyValue
  rw [Nat.ofDigitChars_append, Nat.ofDigitChars_eq_ofDigitChars_zero, length_padded hpos hn,
    ofDigitChars_padded]

theorem keyValue_hhmmss (sec : Nat)
    : keyValue (hhmmss sec)
        = 10000 * (sec % 86400 / 3600) + 100 * (sec % 3600 / 60) + sec % 60 := by
  have hhours : keyValue (padded 2 (sec % 86400 / 3600)) = sec % 86400 / 3600 :=
    ofDigitChars_padded _ _
  unfold hhmmss
  rw [keyValue_append_padded _ (by omega) (by omega), keyValue_append_padded _ (by omega) (by omega),
    hhours]
  omega

theorem keyValue_hhmmss_lt (hlt : sec < sec') (hday : sec - sec % 86400 = sec' - sec' % 86400)
    : keyValue (hhmmss sec) < keyValue (hhmmss sec') := by
  rw [keyValue_hhmmss, keyValue_hhmmss]
  omega

theorem rotationKey_mono (T : TimeShield) (naming : RotationNaming) (hle : tsMs ≤ tsMs')
    (hday : T.startOfDay (T.msToSec tsMs) = T.startOfDay (T.msToSec tsMs'))
    : rotationKey T naming tsMs = rotationKey T naming tsMs' ∨
      keyValue (rotationKey T naming tsMs) < keyValue (rotationKey T naming tsMs') := by
  rw [T.startOfDay_eq, T.startOfDay_eq] at hday
  have hsec := T.msToSec_eq tsMs
  have hsec' := T.msToSec_eq tsMs'
  unfold rotationKey timePart
  cases naming with
  | sequence => exact .inl rfl
  | timestamp =>
    dsimp only
    by_cases heq : T.msToSec tsMs = T.msToSec tsMs'
    . rw [heq]
      exact .inl rfl
    . right
      exact keyValue_hhmmss_lt (by omega) hday
  | timestampMs =>
    dsimp only
    rw [keyValue_append_padded _ (by omega) (by omega),
      keyValue_append_padded _ (by omega) (by omega)]
    by_cases heq : T.msToSec tsMs = T.msToSec tsMs'
    . -- Within one second the milliseconds decide.
      rw [heq]
      by_cases hms : tsMs % 1000 = tsMs' % 1000
      . rw [hms]
        exact .inl rfl
      . omega
    . right
      have hlt := keyValue_hhmmss_lt (by omega : T.msToSec tsMs < T.msToSec tsMs') hday
      omega

section Extract

theorem takeWhile_append_dot {x : Name} (y : Name) (h : '.' ∉ x)
    : (x ++ '.' :: y).takeWhile (· ≠ '.') = x := by
  rw [takeWhile_append_of_pos]
  . simp
  . intro c hc
    simp only [ne_eq, decide_eq_true_eq]
    exact fun hdot => h (hdot ▸ hc)

theorem dropWhile_append_dot {x : Name} (y : Name) (h : '.' ∉ x)
    : (x ++ '.' :: y).dropWhile (· ≠ '.') = '.' :: y := by
  rw [dropWhile_append_of_pos]
  . simp
  . intro c hc
    simp only [ne_eq, decide_eq_true_eq]
    exact fun hdot => h (hdot ▸ hc)

theorem extract_cons (base : Name) {c : Char} {x : Name} (y : Name) (hc : c = '_' ∨ c = '.')
    (hx : '.' ∉ x)
    : extract base (base ++ c :: (x ++ '.' :: y))
        = (strtoll x, if '.' ∈ y then atoi (y.takeWhile (· ≠ '.')) else 0) := by
  unfold extract
  rw [drop_left]
  dsimp only
  rw [if_pos hc, takeWhile_append_dot _ hx, dropWhile_append_dot _ hx]
  dsimp only
  split <;> rfl

theorem extract_append (base : Name) {c : Char} {x : Name} (hc : c = '_' ∨ c = '.') (hx : '.' ∉ x)
    : extract base (base ++ c :: x ++ logSuffix) = (strtoll x, 0) := by
  rw [append_assoc, cons_append]
  exact extract_cons base ['l', 'o', 'g'] hc hx

theorem extract_append_append (base : Name) {x y : Name} (hx : '.' ∉ x) (hy : '.' ∉ y)
    : extract base (base ++ ('_' :: x ++ '.' :: y) ++ logSuffix) = (strtoll x, atoi y) := by
  rw [append_assoc, append_assoc, cons_append, cons_append]
  unfold logSuffix
  rw [extract_cons base _ (.inl rfl) hx, if_pos (by simp), takeWhile_append_dot _ hy]

variable {config : Config} (base : Name) {key key' : Name} {n n' : Nat}

theorem extract_sequence (hnaming : config.naming = .sequence)
    : extract base (slotName config base key n) = ((((n + 1) % 2 ^ 32 : Nat) : Int), 0) := by
  have hdigits : ∀ c ∈ padded config.seqWidth.toInt32.toNatClampNeg ((n + 1) % 2 ^ 32),
      c.isDigit = true := fun c hc => isDigit_padded hc
  rw [slotName_eq]
  unfold slotMiddle
  rw [hnaming]
  dsimp only
  rw [extract_append base (.inr rfl) (not_mem_of_isDigit hdigits), strtoll_digits hdigits,
    ofDigitChars_padded]
  rw [ofDigitChars_padded]
  omega

theorem extract_timestamp (hnaming : config.naming ≠ .sequence) (hkey : ValidKey config.naming key)
    : extract base (slotName config base key n)
        = ((keyValue key : Int), ((n % 2 ^ 32 : Nat) : Int).bmod (2 ^ 32)) := by
  have hdot := not_mem_of_isDigit hkey.isDigit
  have hmiddle : slotMiddle config key n = slotMiddle.timestampMiddle key n := by
    unfold slotMiddle
    split
    . contradiction
    . rfl
    . rfl
  rw [slotName_eq, hmiddle]
  unfold slotMiddle.timestampMiddle
  cases n with dsimp only
  | zero =>
    rw [extract_append base (.inl rfl) hdot, strtoll_key hkey]
    rfl
  | succ n =>
    rw [extract_append_append base hdot (not_mem_of_isDigit fun c hc => isDigit_decimal hc),
      strtoll_key hkey, atoi_decimal (by omega)]

variable (hkey : ValidKey config.naming key)

include hkey

theorem sortsBefore_of_lt (hlt : n < n') (hn' : n' < orderedSlots config.naming)
    : sortsBefore base (slotName config base key n) (slotName config base key n') := by
  unfold sortsBefore
  by_cases hnaming : config.naming = .sequence
  . rw [hnaming] at hn'
    simp only [orderedSlots] at hn'
    simp only [extract_sequence base hnaming]
    rw [if_neg (by omega)]
    omega
  . have hn' : n' < 2 ^ 31 := by
      unfold orderedSlots at hn'
      split at hn'
      . contradiction
      . exact hn'
      . exact hn'
    simp only [extract_timestamp base hnaming hkey, if_true]
    rw [Int.bmod_eq_of_le (by omega) (by omega), Int.bmod_eq_of_le (by omega) (by omega)]
    omega

theorem sortsBefore_overflow
    : sortsBefore base (slotName config base key (orderedSlots config.naming))
        (slotName config base key 0) := by
  unfold sortsBefore
  by_cases hnaming : config.naming = .sequence
  . simp only [extract_sequence base hnaming, hnaming, orderedSlots]
    decide
  . have hslots : orderedSlots config.naming = 2 ^ 31 := by
      unfold orderedSlots
      split
      . contradiction
      . rfl
      . rfl
    simp only [extract_timestamp base hnaming hkey, if_true, hslots]
    decide

theorem sortsBefore_of_keyValue
    (hkey' : ValidKey config.naming key') (hlt : keyValue key < keyValue key')
    : sortsBefore base (slotName config base key n) (slotName config base key' n') := by
  unfold sortsBefore
  by_cases hnaming : config.naming = .sequence
  . -- There is only one key.
    have hlen := hkey.length_eq
    have hlen' := hkey'.length_eq
    rw [hnaming] at hlen hlen'
    rw [eq_nil_of_length_eq_zero hlen, eq_nil_of_length_eq_zero hlen'] at hlt
    omega
  . simp only [extract_timestamp base hnaming hkey, extract_timestamp base hnaming hkey']
    rw [if_neg (by omega)]
    omega

end Extract
end LogIt.FileLogger
