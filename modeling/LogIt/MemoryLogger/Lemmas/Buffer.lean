import LogIt.MemoryLogger.Impl.Buffer

namespace LogIt.MemoryLogger

open List

def Removal.Justified (config : Config) (removal : Removal) : Prop :=
  (0 < config.maxAgeMs ∧
    removal.entry.timestampMs.toInt < removal.nowMs.toInt - config.maxAgeMs.toInt) ∨
  (0 < config.maxRecords ∧ config.maxRecords.toNat < (removal.entry :: removal.rest).length) ∨
  (0 < config.maxBytes ∧ config.maxBytes.toNat < storedBytes (removal.entry :: removal.rest))

instance (config : Config) (removal : Removal) : Decidable (removal.Justified config) :=
  inferInstanceAs (Decidable (_ ∨ _))

def Removal.InRange (config : Config) (removal : Removal) : Prop :=
  -2 ^ 63 ≤ removal.nowMs.toInt - config.maxAgeMs.toInt

structure Logger.Inv (config : Config) (l : Logger) : Prop where
  bytes : l.totalBytes.toNat = storedBytes l.entries
  suffix : l.accepted = l.removed.map Removal.entry ++ l.entries
  justified : ∀ removal ∈ l.removed, removal.InRange config → removal.Justified config

structure Logger.Limited (config : Config) (l : Logger) : Prop where
  records : 0 < config.maxRecords → l.entries.length ≤ config.maxRecords.toNat
  bytes : 0 < config.maxBytes → l.totalBytes ≤ config.maxBytes

variable {config : Config} {l l' : Logger} {nowMs : Int64} {exceeds : Logger → Bool}

theorem storedBytes_cons (entry : BufferedLogEntry) (entries : List BufferedLogEntry)
    : storedBytes (entry :: entries) = entry.message.length + storedBytes entries := by
  unfold storedBytes
  rw [map_cons, sum_cons]

theorem storedBytes_concat (entries : List BufferedLogEntry) (entry : BufferedLogEntry)
    : storedBytes (entries ++ [entry]) = storedBytes entries + entry.message.length := by
  unfold storedBytes
  rw [map_append, sum_append, map_singleton, sum_singleton]

theorem toNat_mEntryBytes (h : entry.message.length < 2 ^ 64)
    : (mEntryBytes entry).toNat = entry.message.length := by
  unfold mEntryBytes
  apply UInt64.toNat_ofNat_of_lt'
  exact h

namespace Logger

theorem Inv.mPopFrontLocked (h : Inv config l)
    (hreason : ∀ front rest, l.entries = front :: rest → Removal.InRange config ⟨front, rest, nowMs⟩ →
      Removal.Justified config ⟨front, rest, nowMs⟩)
    : Inv config (l.mPopFrontLocked nowMs) := by
  unfold Logger.mPopFrontLocked
  split
  . exact h
  . next front rest hentries =>
    have hbytes := h.bytes
    rw [hentries, storedBytes_cons] at hbytes
    have hfront : (mEntryBytes front).toNat = front.message.length := by
      apply toNat_mEntryBytes
      have := l.totalBytes.toNat_lt
      omega
    constructor
    case bytes =>
      dsimp only
      rw [UInt64.toNat_sub_of_le, hfront]
      . omega
      . rw [UInt64.le_iff_toNat_le, hfront]
        omega
    case suffix =>
      dsimp only
      rw [h.suffix, hentries, map_append, append_assoc]
      rfl
    case justified =>
      intro removal hremoval
      rw [mem_append, mem_singleton] at hremoval
      cases hremoval with
      | inl hold => exact h.justified removal hold
      | inr hnew =>
        rw [hnew]
        exact hreason front rest hentries

theorem Inv.popWhile (h : Inv config l)
    (hreason : ∀ l front rest, Inv config l → exceeds l = true → l.entries = front :: rest →
      Removal.InRange config ⟨front, rest, nowMs⟩ → Removal.Justified config ⟨front, rest, nowMs⟩)
    (rounds : Nat)
    : Inv config (l.popWhile nowMs exceeds rounds) := by
  induction rounds generalizing l with
  | zero => exact h
  | succ rounds ih =>
    unfold Logger.popWhile
    split
    . next hexceeds =>
      apply ih
      apply h.mPopFrontLocked
      intro front rest
      exact hreason l front rest h hexceeds
    . exact h

theorem length_mPopFrontLocked (l : Logger) (nowMs : Int64)
    : (l.mPopFrontLocked nowMs).entries.length = l.entries.length - 1 := by
  unfold mPopFrontLocked
  split
  . next hentries => rw [hentries, length_nil]
  . next hentries => rw [hentries, length_cons, Nat.add_sub_cancel]

theorem length_popWhile_le (l : Logger) (rounds : Nat)
    : (l.popWhile nowMs exceeds rounds).entries.length ≤ l.entries.length := by
  induction rounds generalizing l with
  | zero => exact Nat.le_refl _
  | succ rounds ih =>
    unfold popWhile
    split
    . have hrest := ih (l.mPopFrontLocked nowMs)
      rw [length_mPopFrontLocked] at hrest
      omega
    . exact Nat.le_refl _

theorem popWhile_ends (exceeds : Logger → Bool)
    (hempty : ∀ l : Logger, l.entries = [] → exceeds l = false)
    {rounds : Nat} (hrounds : l.entries.length ≤ rounds)
    : exceeds (l.popWhile nowMs exceeds rounds) = false := by
  induction rounds generalizing l with
  | zero =>
    apply hempty
    exact eq_nil_of_length_eq_zero (Nat.le_zero.mp hrounds)
  | succ rounds ih =>
    unfold popWhile
    split
    . apply ih
      rw [length_mPopFrontLocked]
      omega
    . next hexceeds => exact Bool.eq_false_of_not_eq_true hexceeds

theorem storedBytes_popWhile_le (l : Logger) (rounds : Nat)
    : storedBytes (l.popWhile nowMs exceeds rounds).entries ≤ storedBytes l.entries := by
  induction rounds generalizing l with
  | zero => exact Nat.le_refl _
  | succ rounds ih =>
    unfold popWhile
    split
    . apply Nat.le_trans (ih _)
      unfold mPopFrontLocked
      split
      . exact Nat.le_refl _
      . next hentries =>
        rw [hentries, storedBytes_cons]
        exact Nat.le_add_left _ _
    . exact Nat.le_refl _

theorem frontBefore_expired (h : frontBefore cutoff l = true) (hentries : l.entries = front :: rest)
    : front.timestampMs < cutoff := by
  unfold frontBefore at h
  rw [hentries] at h
  exact of_decide_eq_true h

theorem toInt_sub_maxAgeMs (hage : ¬ config.maxAgeMs ≤ 0)
    (hrange : -2 ^ 63 ≤ nowMs.toInt - config.maxAgeMs.toInt)
    : (nowMs - config.maxAgeMs).toInt = nowMs.toInt - config.maxAgeMs.toInt := by
  rw [Int64.toInt_sub]
  have hpos : 0 < config.maxAgeMs.toInt := by
    rw [Int64.not_le, Int64.lt_iff_toInt_lt] at hage
    exact hage
  have hnow := nowMs.toInt_lt
  apply Int.bmod_eq_of_le
  . omega
  . omega

section

variable (h : Inv config l) (nowMs : Int64)

include h

theorem Inv.mEvictExpiredLocked : Inv config (l.mEvictExpiredLocked config nowMs) := by
  unfold Logger.mEvictExpiredLocked
  split
  . exact h
  . next hage =>
    apply h.popWhile
    intro l front rest _ hexpired hentries hrange
    left
    refine ⟨Int64.not_le.mp hage, ?_⟩
    rw [← toInt_sub_maxAgeMs hage hrange, ← Int64.lt_iff_toInt_lt]
    exact frontBefore_expired hexpired hentries

theorem Inv.enforceRecords : Inv config (l.enforceRecords config nowMs) := by
  unfold Logger.enforceRecords
  split
  . next hlimit =>
    apply h.popWhile
    intro l front rest _ hexceeds hentries _
    right
    left
    refine ⟨hlimit, ?_⟩
    rw [← hentries]
    exact of_decide_eq_true hexceeds
  . exact h

theorem Inv.enforceBytes : Inv config (l.enforceBytes config nowMs) := by
  unfold Logger.enforceBytes
  split
  . next hlimit =>
    apply h.popWhile
    intro l front rest hinv hexceeds hentries _
    right
    right
    refine ⟨hlimit, ?_⟩
    rw [Bool.and_eq_true, decide_eq_true_eq, UInt64.lt_iff_toNat_lt, hinv.bytes, hentries] at hexceeds
    exact hexceeds.1
  . exact h

end

theorem enforceRecords_length (l : Logger) (nowMs : Int64) (hlimit : 0 < config.maxRecords)
    : (l.enforceRecords config nowMs).entries.length ≤ config.maxRecords.toNat := by
  unfold enforceRecords
  rw [if_pos hlimit]
  apply Nat.le_of_not_lt
  apply of_decide_eq_false
  refine popWhile_ends (fun l => decide (config.maxRecords.toNat < l.entries.length)) ?_
    (Nat.le_refl _)
  intro l hempty
  rw [hempty]
  simp

theorem length_enforceBytes_le (config : Config) (l : Logger) (nowMs : Int64)
    : (l.enforceBytes config nowMs).entries.length ≤ l.entries.length := by
  unfold enforceBytes
  split
  . exact length_popWhile_le _ _
  . exact Nat.le_refl _

theorem Inv.enforceBytes_le (h : Inv config l) (nowMs : Int64) (hlimit : 0 < config.maxBytes)
    : (l.enforceBytes config nowMs).totalBytes ≤ config.maxBytes := by
  have hinv := h.enforceBytes nowMs
  have hends : (decide (config.maxBytes < (l.enforceBytes config nowMs).totalBytes)
      && !(l.enforceBytes config nowMs).entries.isEmpty) = false := by
    unfold Logger.enforceBytes
    rw [if_pos hlimit]
    refine popWhile_ends
      (fun l => decide (config.maxBytes < l.totalBytes) && !l.entries.isEmpty) ?_
      (Nat.le_refl _)
    intro l hempty
    rw [hempty]
    simp
  rw [Bool.and_eq_false_iff] at hends
  cases hends with
  | inl hle => exact UInt64.not_lt.mp (of_decide_eq_false hle)
  | inr hempty =>
    have hentries : (l.enforceBytes config nowMs).entries = [] := by simpa using hempty
    have hzero := hinv.bytes
    rw [hentries] at hzero
    rw [UInt64.le_iff_toNat_le, hzero]
    exact Nat.zero_le _

theorem Inv.mEnforceLimitsLocked (h : Inv config l) (nowMs : Int64)
    : Inv config (l.mEnforceLimitsLocked config nowMs) ∧
      Limited config (l.mEnforceLimitsLocked config nowMs) := by
  unfold Logger.mEnforceLimitsLocked
  have hrecords := (h.mEvictExpiredLocked nowMs).enforceRecords nowMs
  refine ⟨hrecords.enforceBytes nowMs, ?_, ?_⟩
  . intro hlimit
    apply Nat.le_trans (length_enforceBytes_le config _ nowMs)
    exact enforceRecords_length _ nowMs hlimit
  . intro hlimit
    exact hrecords.enforceBytes_le nowMs hlimit

theorem Inv.pushBack (h : Inv config l)
    (hfits : storedBytes l.entries + entry.message.length < 2 ^ 64)
    : Inv config (l.pushBack entry) where
  bytes := by
    unfold Logger.pushBack
    dsimp only
    rw [UInt64.toNat_add, h.bytes, toNat_mEntryBytes (by omega), storedBytes_concat]
    exact Nat.mod_eq_of_lt hfits
  suffix := by
    unfold Logger.pushBack
    dsimp only
    rw [h.suffix, append_assoc]
  justified := h.justified

theorem storedBytes_mEvictExpiredLocked_le (config : Config) (l : Logger) (nowMs : Int64)
    : storedBytes (l.mEvictExpiredLocked config nowMs).entries ≤ storedBytes l.entries := by
  unfold mEvictExpiredLocked
  split
  . exact Nat.le_refl _
  . exact storedBytes_popWhile_le _ _

theorem Limited.mEvictExpiredLocked (hinv : Inv config l) (h : Limited config l) (nowMs : Int64)
    : Limited config (l.mEvictExpiredLocked config nowMs) where
  records := by
    intro hlimit
    apply Nat.le_trans _ (h.records hlimit)
    unfold Logger.mEvictExpiredLocked
    split
    . exact Nat.le_refl _
    . exact length_popWhile_le _ _
  bytes := by
    intro hlimit
    have hle := h.bytes hlimit
    have hstored := storedBytes_mEvictExpiredLocked_le config l nowMs
    rw [UInt64.le_iff_toNat_le] at hle ⊢
    rw [(hinv.mEvictExpiredLocked nowMs).bytes]
    rw [hinv.bytes] at hle
    omega

theorem Inv.log (hinv : Inv config l) (h : Limited config l)
    (hlog : l.log config record message = some l')
    : Inv config l' ∧ Limited config l' := by
  unfold Logger.log at hlog
  split at hlog
  . cases hlog
    exact ⟨hinv, h⟩
  . split at hlog
    . contradiction
    . next hfits =>
      cases hlog
      apply Inv.mEnforceLimitsLocked
      apply (hinv.mEvictExpiredLocked record.timestampMs).pushBack
      have hstored := storedBytes_mEvictExpiredLocked_le config l record.timestampMs
      dsimp only
      omega

end Logger

open Logger in
theorem Logger.Inv.step (hinv : Inv config l) (h : Limited config l)
    (hstep : step config l a = some l')
    : Inv config l' ∧ Limited config l' := by
  have hevict (nowMs : Int64) : Inv config (l.mEvictExpiredLocked config nowMs) ∧
      Limited config (l.mEvictExpiredLocked config nowMs) :=
    ⟨hinv.mEvictExpiredLocked nowMs, h.mEvictExpiredLocked hinv nowMs⟩
  cases a with
  | log record message => exact hinv.log h hstep
  | getBufferedStrings nowMs | getBufferedEntries nowMs =>
    cases hstep
    exact hevict nowMs
  | readRange fromMs toMs limit nowMs =>
    cases hstep
    unfold Logger.readRange
    split
    . exact ⟨hinv, h⟩
    . exact hevict nowMs
  | readRecent limit periodMs order nowMs nowMs' =>
    cases hstep
    cases order with
    | ascending | descending => exact hevict nowMs
  | clearLogs =>
    cases hstep
    refine ⟨⟨rfl, rfl, nofun⟩, ⟨?_, ?_⟩⟩
    . intro _
      exact Nat.zero_le _
    . intro _
      exact UInt64.zero_le
  | setLogLevel level =>
    cases hstep
    exact ⟨⟨hinv.bytes, hinv.suffix, hinv.justified⟩, ⟨h.records, h.bytes⟩⟩

theorem Logger.inv_of_reachable (h : (system config).Reachable l)
    : Logger.Inv config l ∧ Logger.Limited config l := by
  apply h.invariant (fun l => Logger.Inv config l ∧ Logger.Limited config l)
  . refine ⟨⟨rfl, rfl, nofun⟩, ⟨?_, ?_⟩⟩
    . intro _
      exact Nat.zero_le _
    . intro _
      exact UInt64.zero_le
  . intro l a l' _ hinv hstep
    exact hinv.1.step hinv.2 hstep

theorem buffer_bounded_suffix (config : Config) (l : Logger) (h : (system config).Reachable l)
    : l.totalBytes.toNat = storedBytes l.entries ∧
      l.accepted = l.removed.map Removal.entry ++ l.entries ∧
      (0 < config.maxRecords → l.entries.length ≤ config.maxRecords.toNat) ∧
      (0 < config.maxBytes → l.totalBytes ≤ config.maxBytes) ∧
      ∀ removal ∈ l.removed, -2 ^ 63 ≤ removal.nowMs.toInt - config.maxAgeMs.toInt →
        removal.Justified config := by
  obtain ⟨hinv, hlimited⟩ := Logger.inv_of_reachable h
  exact ⟨hinv.bytes, hinv.suffix, hlimited.records, hlimited.bytes, hinv.justified⟩

def recordAt (timestampMs : Int64) : LogRecord where
  logLevel := .info
  timestampMs := timestampMs
  file := []
  line := 0
  function := []
  rawMode := false

theorem buffer_bounded_suffix_three_messages
    : ∃ l, (system { maxRecords := 1, maxBytes := 8, maxAgeMs := 10 }).Reachable l ∧
        l.removed.length = 2 ∧ l.entries.length = 1 ∧ l.totalBytes.toNat = 2 ∧
        ∀ removal ∈ l.removed, removal.Justified { maxRecords := 1, maxBytes := 8, maxAgeMs := 10 } := by
  obtain ⟨l, hreach, hremoved, hentries, htimes⟩ :=
    (system { maxRecords := 1, maxBytes := 8, maxAgeMs := 10 }).exists_reachable
      (P := fun l => l.removed.length = 2 ∧ storedBytes l.entries = 2 ∧ l.entries.length = 1 ∧
        ∀ removal ∈ l.removed, -2 ^ 63 ≤ removal.nowMs.toInt - 10)
      [.log (recordAt 100) [65], .log (recordAt 120) [66], .log (recordAt 121) [67, 68]]
      (by decide +kernel)
  obtain ⟨hbytes, _, _, _, hjustified⟩ := buffer_bounded_suffix _ l hreach
  refine ⟨l, hreach, hremoved, htimes.1, ?_, ?_⟩
  . rw [hbytes]
    exact hentries
  . intro removal hremoval
    exact hjustified removal hremoval (htimes.2 removal hremoval)

theorem buffer_loses_first_time
    : ∃ l, (system {}).Reachable l ∧ l.entries = [] ∧ l.accepted.length = 1 ∧
        ∃ removal ∈ l.removed, ¬ removal.Justified {} := by
  apply (system {}).exists_reachable [.log (recordAt Int64.minValue) [65]]
  decide +kernel

end LogIt.MemoryLogger
