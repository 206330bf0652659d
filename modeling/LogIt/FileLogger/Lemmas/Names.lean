import Mathlib.Data.List.TakeWhile
import Mathlib.Data.Nat.Digits.Defs
import LogIt.FileLogger.Impl.Rotation

namespace LogIt.FileLogger

open List

theorem isDigit_decimal (h : c ∈ decimal n) : c.isDigit = true :=
  Nat.isDigit_of_mem_toDigits (by decide) (by decide) h

theorem isDigit_padded (h : c ∈ padded width n) : c.isDigit = true := by
  unfold padded leftpad at h
  rw [mem_append] at h
  cases h with
  | inl h =>
    rw [eq_of_mem_replicate h]
    rfl
  | inr h => exact isDigit_decimal h

theorem padded_zero (n : Nat) : padded 0 n = decimal n := by
  simp [padded, leftpad]

theorem length_padded (hpos : 0 < width) (h : n < 10 ^ width)
    : (padded width n).length = width := by
  unfold padded
  rw [length_leftpad]
  exact Nat.max_eq_left (Nat.toDigits_length 10 n width hpos h)

theorem ofDigitChars_padded (width n : Nat) : Nat.ofDigitChars 10 (padded width n) 0 = n := by
  unfold padded leftpad decimal
  rw [Nat.ofDigitChars_append, Nat.ofDigitChars_replicate_zero, Nat.mul_zero,
    Nat.ofDigitChars_ten_toDigits]

theorem padded_inj (h : padded width n = padded width n') : n = n' := by
  rw [← ofDigitChars_padded width n, h, ofDigitChars_padded]

theorem strtoll_digits {s : Name} (h : ∀ c ∈ s, c.isDigit = true)
    (hlt : Nat.ofDigitChars 10 s 0 < 2 ^ 63)
    : strtoll s = Nat.ofDigitChars 10 s 0 := by
  have hvalue : strtoll.digits s = Nat.ofDigitChars 10 s 0 := by
    unfold strtoll.digits
    rw [takeWhile_eq_self_iff.mpr h]
  have hspace : s.dropWhile isSpace = s := by
    cases s with
    | nil => rfl
    | cons c s =>
      have hc := Char.isDigit_iff_toNat.mp (h c (mem_cons_self ..))
      have hzero : '0'.toNat = 48 := rfl
      apply dropWhile_cons_of_neg
      have hne : c ≠ ' ' := by
        rintro rfl
        simp at hc
      simp only [isSpace, hne, decide_false, Bool.false_or, Bool.and_eq_true, decide_eq_true_eq]
      omega
  unfold strtoll
  rw [hspace]
  split
  . have := h '-' (mem_cons_self ..)
    contradiction
  . have := h '+' (mem_cons_self ..)
    contradiction
  . rw [hvalue]
    omega

theorem atoi_decimal (h : n < 2 ^ 63) : atoi (decimal n) = (n : Int).bmod (2 ^ 32) := by
  have hvalue : Nat.ofDigitChars 10 (decimal n) 0 = n := Nat.ofDigitChars_ten_toDigits
  unfold atoi
  rw [strtoll_digits (fun c hc => isDigit_decimal hc) (by omega), hvalue, BitVec.toInt_ofInt]

theorem not_mem_of_isDigit {s : Name} (h : ∀ c ∈ s, c.isDigit = true) : '.' ∉ s := by
  intro hdot
  have := h '.' hdot
  contradiction

theorem append_cons_inj {c : Char} {x x' y y' : Name} (hx : c ∉ x) (hx' : c ∉ x')
    (h : x ++ c :: y = x' ++ c :: y')
    : x = x' ∧ y = y' := by
  induction x generalizing x' with
  | nil =>
    cases x' with
    | nil => simpa using h
    | cons a x' =>
      simp only [nil_append, cons_append, cons.injEq] at h
      simp [h.1] at hx'
  | cons a x ih =>
    cases x' with
    | nil =>
      simp only [nil_append, cons_append, cons.injEq] at h
      simp [h.1] at hx
    | cons a' x' =>
      simp only [cons_append, cons.injEq] at h
      simp only [mem_cons, not_or] at hx hx'
      obtain ⟨hxx, hyy⟩ := ih hx.2 hx'.2 h.2
      exact ⟨by rw [h.1, hxx], hyy⟩

def rotationKey (T : TimeShield) (naming : RotationNaming) (tsMs : Nat) : Name :=
  match naming with
  | .sequence => []
  | naming => timePart naming (T.msToSec tsMs) tsMs

def keyLength (naming : RotationNaming) : Nat :=
  match naming with
  | .sequence => 0
  | .timestamp => 6
  | .timestampMs => 9

structure ValidKey (naming : RotationNaming) (key : Name) : Prop where
  length_eq : key.length = keyLength naming
  isDigit : ∀ c ∈ key, c.isDigit = true

theorem isDigit_hhmmss (h : c ∈ hhmmss sec) : c.isDigit = true := by
  unfold hhmmss at h
  rw [mem_append, mem_append] at h
  rcases h with (h | h) | h <;> exact isDigit_padded h

theorem length_hhmmss (sec : Nat) : (hhmmss sec).length = 6 := by
  unfold hhmmss
  rw [length_append, length_append, length_padded (by omega) (by omega),
    length_padded (by omega) (by omega), length_padded (by omega) (by omega)]

theorem validKey_rotationKey (T : TimeShield) (naming : RotationNaming) (tsMs : Nat)
    : ValidKey naming (rotationKey T naming tsMs) := by
  cases naming with
  | sequence => exact ⟨rfl, fun c hc => nomatch hc⟩
  | timestamp => exact ⟨length_hhmmss _, fun c hc => isDigit_hhmmss hc⟩
  | timestampMs =>
    unfold rotationKey timePart
    constructor
    case length_eq =>
      dsimp only
      rw [length_append, length_hhmmss, length_padded (by omega) (by omega)]
      rfl
    case isDigit =>
      intro c hc
      rw [mem_append] at hc
      cases hc with
      | inl hc => exact isDigit_hhmmss hc
      | inr hc => exact isDigit_padded hc

section Slots

variable (config : Config) (base : Name)

def slotName (key : Name) (n : Nat) : Name :=
  match config.naming with
  | .sequence => sequenceName config.seqWidth base (UInt32.ofNat (n + 1))
  | .timestamp | .timestampMs =>
    match n with
    | 0 => timestampName base key
    | n + 1 => timestampIdxName base key (UInt32.ofNat (n + 1))

def slots (naming : RotationNaming) : Nat :=
  match naming with
  | .sequence => 2 ^ 32
  | .timestamp | .timestampMs => 2 ^ 32 + 1

section

variable (key : Name) (n : Nat)

def artifactName : Name :=
  slotName config base key n ++ config.compress.suffix

def slotMiddle : Name :=
  match config.naming with
  | .sequence => '.' :: padded config.seqWidth.toInt32.toNatClampNeg ((n + 1) % 2 ^ 32)
  | .timestamp | .timestampMs => timestampMiddle key n
where
  timestampMiddle (key : Name) (n : Nat) : Name :=
    match n with
    | 0 => '_' :: key
    | n + 1 => '_' :: key ++ '.' :: decimal ((n + 1) % 2 ^ 32)

theorem slotName_eq
    : slotName config base key n = base ++ slotMiddle config key n ++ logSuffix := by
  unfold slotName slotMiddle slotMiddle.timestampMiddle
  split
  . simp [sequenceName, UInt32.toNat_ofNat']
  . cases n with
    | zero => simp [timestampName]
    | succ n => simp [timestampIdxName, UInt32.toNat_ofNat']
  . cases n with
    | zero => simp [timestampName]
    | succ n => simp [timestampIdxName, UInt32.toNat_ofNat']

theorem slotMiddle_ne_nil : slotMiddle config key n ≠ [] := by
  unfold slotMiddle slotMiddle.timestampMiddle
  split
  . simp
  . cases n <;> simp
  . cases n <;> simp

end

theorem timestampMiddle_inj (hkey : '.' ∉ key) (hkey' : '.' ∉ key') (hn : n < 2 ^ 32 + 1)
    (hn' : n' < 2 ^ 32 + 1)
    (h : slotMiddle.timestampMiddle key n = slotMiddle.timestampMiddle key' n')
    : key = key' ∧ n = n' := by
  unfold slotMiddle.timestampMiddle at h
  cases n with
  | zero =>
    cases n' with
    | zero => simpa using h
    | succ n' =>
      -- Only one of the names has an index.
      dsimp only at h
      rw [cons_append, cons.injEq] at h
      rw [h.2] at hkey
      simp at hkey
  | succ n =>
    cases n' with dsimp only at h
    | zero =>
      rw [cons_append, cons.injEq] at h
      rw [← h.2] at hkey'
      simp at hkey'
    | succ n' =>
      rw [cons_append, cons_append, cons.injEq] at h
      obtain ⟨hkeys, hidx⟩ := append_cons_inj hkey hkey' h.2
      rw [← padded_zero, ← padded_zero] at hidx
      have := padded_inj hidx
      exact ⟨hkeys, by omega⟩

theorem slotName_inj {key key' : Name} {n n' : Nat} (hkey : ValidKey config.naming key)
    (hkey' : ValidKey config.naming key') (hn : n < slots config.naming)
    (hn' : n' < slots config.naming)
    (h : slotName config base key n = slotName config base key' n')
    : key = key' ∧ n = n' := by
  rw [slotName_eq, slotName_eq, append_cancel_right_eq, append_cancel_left_eq] at h
  have hdot := not_mem_of_isDigit hkey.isDigit
  have hdot' := not_mem_of_isDigit hkey'.isDigit
  unfold slotMiddle at h
  cases hnaming : config.naming with
  | sequence =>
    simp only [hnaming, slots, cons.injEq, true_and] at h hn hn'
    have := padded_inj h
    have hlen := hkey.length_eq
    have hlen' := hkey'.length_eq
    simp only [hnaming, keyLength, length_eq_zero_iff] at hlen hlen'
    exact ⟨by rw [hlen, hlen'], by omega⟩
  | timestamp | timestampMs =>
    simp only [hnaming, slots] at h hn hn'
    exact timestampMiddle_inj hdot hdot' hn hn' h

theorem artifactName_of_none (hnone : config.compress = .none) (key : Name) (n : Nat)
    : artifactName config base key n = slotName config base key n := by
  unfold artifactName
  rw [hnone]
  exact append_nil _

theorem artifactName_inj (hkey : ValidKey config.naming key) (hkey' : ValidKey config.naming key')
    (hn : n < slots config.naming) (hn' : n' < slots config.naming)
    (h : artifactName config base key n = artifactName config base key' n')
    : key = key' ∧ n = n' := by
  unfold artifactName at h
  rw [append_cancel_right_eq] at h
  exact slotName_inj config base hkey hkey' hn hn' h

section

variable (key : Name) (n : Nat)

theorem isPrefixOf_artifactName : base.isPrefixOf (artifactName config base key n) = true := by
  rw [ isPrefixOf_iff_prefix]
  unfold artifactName
  rw [slotName_eq, append_assoc, append_assoc]
  exact prefix_append _ _

theorem take_artifactName (hbase : base.length = 10)
    : (artifactName config base key n).take 10 = base := by
  unfold artifactName
  rw [slotName_eq, append_assoc, append_assoc]
  exact take_left' hbase

theorem artifactName_ne_current : artifactName config base key n ≠ base ++ logSuffix := by
  intro h
  have hlen := congrArg length h
  have hpos := length_pos_iff.mpr (slotMiddle_ne_nil config key n)
  unfold artifactName at hlen
  rw [slotName_eq] at hlen
  simp only [length_append] at hlen
  omega

theorem slotName_ne_current : slotName config base key n ≠ base ++ logSuffix := by
  have := artifactName_ne_current { config with compress := .none } base key n
  simpa [artifactName, CompressType.suffix, slotName] using this

end

theorem slotName_ne_append {suffix : Name} (key : Name) (n : Nat) (name : Name)
    (hne : suffix ≠ []) (hlast : suffix.getLast? ≠ some 'g')
    : slotName config base key n ≠ name ++ suffix := by
  intro h
  have hg : (slotName config base key n).getLast? = some 'g' := by
    rw [slotName_eq, getLast?_append_of_ne_nil _ (by simp [logSuffix])]
    rfl
  rw [h, getLast?_append_of_ne_nil _ hne] at hg
  exact hlast hg

end Slots

section Search

variable {config : Config} {base : Name} {dir : Dir} {T : TimeShield} {tsMs : Nat}

theorem ofNat_succ (n : Nat) : UInt32.ofNat (n + 1) = 1 + UInt32.ofNat n := by
  rw [UInt32.ofNat_add, UInt32.add_comm]
  rfl

theorem slotName_sequence (hnaming : config.naming = .sequence) (key : Name) (n : Nat)
    : slotName config base key n = sequenceName config.seqWidth base (1 + UInt32.ofNat n) := by
  unfold slotName
  rw [hnaming, ofNat_succ]

theorem slotName_zero (hnaming : config.naming ≠ .sequence) (key : Name)
    : slotName config base key 0 = timestampName base key := by
  unfold slotName
  split
  . contradiction
  . rfl
  . rfl

theorem slotName_succ (hnaming : config.naming ≠ .sequence) (key : Name) (n : Nat)
    : slotName config base key (n + 1) = timestampIdxName base key (1 + UInt32.ofNat n) := by
  unfold slotName
  rw [← ofNat_succ]
  split
  . contradiction
  . rfl
  . rfl

theorem makeRotatedName_sequence (hnaming : config.naming = .sequence)
    : makeRotatedName config base dir T tsMs = makeSequenceName config base dir ∧
      slots config.naming = UInt32.size := by
  unfold makeRotatedName
  rw [hnaming]
  exact ⟨rfl, rfl⟩

theorem makeRotatedName_timestamp (hnaming : config.naming ≠ .sequence)
    : makeRotatedName config base dir T tsMs = makeTimestampName config base dir T tsMs ∧
      timePart config.naming (T.msToSec tsMs) tsMs = rotationKey T config.naming tsMs ∧
      slots config.naming = UInt32.size + 1 := by
  unfold makeRotatedName rotationKey slots
  cases hn : config.naming with
  | sequence => contradiction
  | timestamp | timestampMs => exact ⟨rfl, rfl, rfl⟩

theorem makeRotatedName_eq (hkey : rotationKey T config.naming tsMs = key)
    (htaken : ∀ i < n, slotName config base key i ∈ dir) (hfree : slotName config base key n ∉ dir)
    (hn : n < slots config.naming)
    : makeRotatedName config base dir T tsMs = some (slotName config base key n) := by
  by_cases hnaming : config.naming = .sequence
  . obtain ⟨hmake, hslots⟩ := makeRotatedName_sequence hnaming
    rw [hmake]
    simp only [slotName_sequence hnaming] at htaken hfree ⊢
    unfold makeSequenceName
    dsimp only
    rw [freeIndex_eq_some (by simpa using htaken) (by simpa using hfree) (by omega)]
    rfl
  . obtain ⟨hmake, hpart, hslots⟩ := makeRotatedName_timestamp hnaming
    rw [hmake]
    unfold makeTimestampName
    rw [hpart, hkey]
    cases n with
    | zero =>
      rw [slotName_zero hnaming] at hfree ⊢
      exact if_neg hfree
    | succ n =>
      have hzero := htaken 0 (by omega)
      rw [slotName_zero hnaming] at hzero
      have hnext : ∀ i < n, timestampIdxName base key (1 + UInt32.ofNat i) ∈ dir := by
        intro i hi
        rw [← slotName_succ hnaming]
        exact htaken (i + 1) (by omega)
      rw [slotName_succ hnaming] at hfree ⊢
      dsimp only
      rw [if_pos hzero,
        freeIndex_eq_some (by simpa using hnext) (by simpa using hfree) (by omega)]
      rfl

theorem makeRotatedName_eq_none (hkey : rotationKey T config.naming tsMs = key)
    (htaken : ∀ i < slots config.naming, slotName config base key i ∈ dir)
    : makeRotatedName config base dir T tsMs = none := by
  by_cases hnaming : config.naming = .sequence
  . obtain ⟨hmake, hslots⟩ := makeRotatedName_sequence hnaming
    rw [hslots] at htaken
    rw [hmake]
    simp only [slotName_sequence hnaming] at htaken
    unfold makeSequenceName
    dsimp only
    rw [freeIndex_eq_none (by simpa using htaken)]
    rfl
  . obtain ⟨hmake, hpart, hslots⟩ := makeRotatedName_timestamp hnaming
    rw [hslots] at htaken
    rw [hmake]
    unfold makeTimestampName
    rw [hpart, hkey]
    have hzero := htaken 0 (by omega)
    rw [slotName_zero hnaming] at hzero
    have hnext : ∀ i < UInt32.size, timestampIdxName base key (1 + UInt32.ofNat i) ∈ dir := by
      intro i hi
      rw [← slotName_succ hnaming]
      exact htaken (i + 1) (by omega)
    dsimp only
    rw [if_pos hzero, freeIndex_eq_none (by simpa using hnext)]
    rfl

end Search
end LogIt.FileLogger
