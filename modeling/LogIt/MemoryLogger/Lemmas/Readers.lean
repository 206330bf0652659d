import LogIt.MemoryLogger.Lemmas.Buffer

/-!
This module contains what the readers of a `MemoryLogger` return when the records do not come in the
order of their time stamps.
-/

namespace LogIt.MemoryLogger

open List

open MdbxLogger (LogRecordSnapshot)

theorem forall_mem_dropWhile_iff {α : Type} {p : α → Bool} {l : List α}
    : (∀ a ∈ l.dropWhile p, p a = false) ↔ l.Pairwise (fun a b => p b = true → p a = true) := by
  induction l with
  | nil => simp
  | cons a l ih =>
    rw [pairwise_cons]
    cases ha : p a with
    | true =>
      rw [dropWhile_cons_of_pos ha, ih]
      simp
    | false =>
      rw [dropWhile_cons_of_neg (by simp [ha]), forall_mem_cons]
      simp only [ha, Bool.false_eq_true, imp_false, Bool.not_eq_true, true_and]
      constructor
      . intro h
        refine ⟨h, ?_⟩
        apply List.Pairwise.imp_of_mem _ (pairwise_of_forall (R := fun _ _ => True) (by simp))
        intro x b _ hb _ hpb
        rw [h b hb] at hpb
        contradiction
      . intro h
        exact h.1

def Fresh (config : Config) (nowMs timestampMs : Int64) : Prop :=
  nowMs.toInt - config.maxAgeMs.toInt ≤ timestampMs.toInt

instance (config : Config) (nowMs timestampMs : Int64) : Decidable (Fresh config nowMs timestampMs) :=
  inferInstanceAs (Decidable (_ ≤ _))

structure Logger.ReadsFresh (config : Config) (l : Logger) (nowMs : Int64) : Prop where
  entries : ∀ entry ∈ (l.getBufferedEntries config nowMs).1, Fresh config nowMs entry.timestampMs
  strings : (l.getBufferedStrings config nowMs).1
    = (l.getBufferedEntries config nowMs).1.map BufferedLogEntry.message
  range : ∀ fromMs toMs limit, ∀ snapshot ∈ (l.readRange config fromMs toMs limit nowMs).1,
    Fresh config nowMs snapshot.timestampMs
  recent : ∀ limit periodMs order nowMs',
    ∀ snapshot ∈ (l.readRecent config limit periodMs order nowMs nowMs').1,
      Fresh config nowMs snapshot.timestampMs

namespace Logger

variable {config : Config} {l : Logger} {nowMs : Int64}

theorem entries_popWhile_frontBefore (cutoff : Int64) {rounds : Nat}
    (h : l.entries.length ≤ rounds)
    : (l.popWhile nowMs (frontBefore cutoff) rounds).entries
        = l.entries.dropWhile (fun entry => decide (entry.timestampMs < cutoff)) := by
  induction rounds generalizing l with
  | zero =>
    rw [eq_nil_of_length_eq_zero (Nat.le_zero.mp h), dropWhile_nil]
    exact eq_nil_of_length_eq_zero (Nat.le_zero.mp h)
  | succ rounds ih =>
    unfold popWhile frontBefore mPopFrontLocked
    cases hentries : l.entries with
    | nil =>
      rw [if_neg (by simp)]
      exact hentries
    | cons front rest =>
      rw [hentries, length_cons] at h
      rw [dropWhile_cons]
      dsimp only
      split
      . exact ih (Nat.le_of_succ_le_succ h)
      . exact hentries

theorem entries_mEvictExpiredLocked (hage : 0 < config.maxAgeMs)
    : (l.mEvictExpiredLocked config nowMs).entries
        = l.entries.dropWhile (fun entry => decide (entry.timestampMs < nowMs - config.maxAgeMs)) := by
  unfold mEvictExpiredLocked
  rw [if_neg (Int64.not_le.mpr hage)]
  exact entries_popWhile_frontBefore _ (Nat.le_refl _)

theorem mem_collect {limit : Nat} {found : BufferedLogEntry → Bool} {entries : List BufferedLogEntry}
    {snapshot : LogRecordSnapshot} (h : snapshot ∈ collect limit found entries)
    : ∃ entry ∈ entries, snapshot = toSnapshot entry := by
  have hmem : snapshot ∈ (entries.filter found).map toSnapshot := by
    unfold collect at h
    dsimp only at h
    split at h
    . exact h
    . exact mem_of_mem_take h
  obtain ⟨entry, hentry, rfl⟩ := mem_map.mp hmem
  exact ⟨entry, mem_of_mem_filter hentry, rfl⟩

theorem mem_readRecent (h : snapshot ∈ (l.readRecent config limit periodMs order nowMs nowMs').1)
    : ∃ entry ∈ (l.mEvictExpiredLocked config nowMs).entries, snapshot = toSnapshot entry := by
  cases order with
  | ascending =>
    obtain ⟨entry, hentry, heq⟩ := mem_collect (mem_reverse.mp h)
    exact ⟨entry, mem_reverse.mp hentry, heq⟩
  | descending =>
    obtain ⟨entry, hentry, heq⟩ := mem_collect h
    exact ⟨entry, mem_reverse.mp hentry, heq⟩

theorem readsFresh_iff
    : l.ReadsFresh config nowMs ↔
        ∀ entry ∈ (l.mEvictExpiredLocked config nowMs).entries,
          Fresh config nowMs entry.timestampMs := by
  constructor
  . intro h
    exact h.entries
  . intro h
    refine ⟨h, rfl, ?_, ?_⟩
    . intro fromMs toMs limit snapshot hsnapshot
      unfold readRange at hsnapshot
      split at hsnapshot
      . contradiction
      . obtain ⟨entry, hentry, rfl⟩ := mem_collect hsnapshot
        exact h entry hentry
    . intro limit periodMs order nowMs' snapshot hsnapshot
      obtain ⟨entry, hentry, rfl⟩ := mem_readRecent hsnapshot
      exact h entry hentry

theorem fresh_iff (hage : 0 < config.maxAgeMs)
    (hrange : -2 ^ 63 ≤ nowMs.toInt - config.maxAgeMs.toInt) (timestampMs : Int64)
    : Fresh config nowMs timestampMs ↔ decide (timestampMs < nowMs - config.maxAgeMs) = false := by
  rw [decide_eq_false_iff_not, Int64.lt_iff_toInt_lt,
    toInt_sub_maxAgeMs (Int64.not_le.mpr hage) hrange, Int.not_lt]
  rfl

theorem readsFresh_iff_pairwise (hage : 0 < config.maxAgeMs)
    : l.ReadsFresh config nowMs ↔
        l.entries.Pairwise (fun a b => Fresh config nowMs a.timestampMs →
          Fresh config nowMs b.timestampMs) := by
  rw [readsFresh_iff]
  by_cases hrange : -2 ^ 63 ≤ nowMs.toInt - config.maxAgeMs.toInt
  . rw [entries_mEvictExpiredLocked hage]
    simp only [fresh_iff hage hrange]
    rw [forall_mem_dropWhile_iff]
    simp only [← Bool.not_eq_true, not_imp_not]
  . -- No time stamp is that small, although the subtraction wraps around.
    have hfresh (timestampMs : Int64) : Fresh config nowMs timestampMs := by
      have := timestampMs.le_toInt
      unfold Fresh
      omega
    simp only [hfresh, implies_true, true_iff]
    exact pairwise_of_forall (by simp)

end Logger

theorem expired_unread_iff (config : Config) (hage : 0 < config.maxAgeMs)
    : (∀ (l : Logger) nowMs, l.ReadsFresh config nowMs ↔
        l.entries.Pairwise (fun a b => Fresh config nowMs a.timestampMs →
          Fresh config nowMs b.timestampMs)) ∧
      ∀ l, (system config).Reachable l →
        l.accepted.Pairwise (fun a b => a.timestampMs ≤ b.timestampMs) →
          ∀ nowMs, l.ReadsFresh config nowMs := by
  refine ⟨fun l nowMs => Logger.readsFresh_iff_pairwise hage, ?_⟩
  intro l hreach hsorted nowMs
  rw [Logger.readsFresh_iff_pairwise hage]
  rw [(Logger.inv_of_reachable hreach).1.suffix, pairwise_append] at hsorted
  apply hsorted.2.1.imp
  intro a b hle hfresh
  rw [Int64.le_iff_toInt_le] at hle
  exact Int.le_trans hfresh hle

def aged : Config :=
  { maxAgeMs := 10 }

theorem expired_unread_in_order
    : ∃ l, (system aged).Reachable l ∧ l.entries.length = 2 ∧ l.ReadsFresh aged 115 := by
  obtain ⟨l, hreach, hlength, hsorted⟩ := (system aged).exists_reachable
    (P := fun l => l.entries.length = 2 ∧
      l.accepted.Pairwise (fun a b => a.timestampMs ≤ b.timestampMs))
    [.log (recordAt 100) [65], .log (recordAt 107) [66]] (by decide +kernel)
  exact ⟨l, hreach, hlength, (expired_unread_iff aged (by decide)).2 l hreach hsorted 115⟩

theorem expired_read_behind_fresh
    : ∃ l, (system aged).Reachable l ∧
        (l.getBufferedEntries aged 105).1.map BufferedLogEntry.timestampMs = [100, 50] ∧
        ¬ Fresh aged 105 50 := by
  apply (system aged).exists_reachable [.log (recordAt 100) [65], .log (recordAt 50) [66]]
  decide +kernel

def byTime (entries : List BufferedLogEntry) : List BufferedLogEntry :=
  entries.mergeSort (fun a b => decide (a.timestampMs ≤ b.timestampMs))

theorem pairwise_byTime (entries : List BufferedLogEntry)
    : (byTime entries).Pairwise (fun a b => a.timestampMs ≤ b.timestampMs) := by
  apply (pairwise_mergeSort _ _ _).imp
  . intro a b hle
    exact of_decide_eq_true hle
  . intro a b c hab hbc
    rw [decide_eq_true_eq] at hab hbc ⊢
    exact Int64.le_trans hab hbc
  . intro a b
    rw [Bool.or_eq_true, decide_eq_true_eq, decide_eq_true_eq]
    exact Int64.le_total _ _

theorem eq_byTime_iff {entries : List BufferedLogEntry}
    : entries = byTime entries ↔ entries.Pairwise (fun a b => a.timestampMs ≤ b.timestampMs) := by
  constructor
  . intro h
    rw [h]
    exact pairwise_byTime entries
  . intro h
    exact (mergeSort_of_pairwise (h.imp (fun hle => decide_eq_true hle))).symm

def Logger.sortedRange (l : Logger) (fromMs toMs : Int64) (limit : Nat) : List LogRecordSnapshot :=
  let found := l.entries.filter (fun entry =>
    decide (fromMs ≤ entry.timestampMs) && decide (entry.timestampMs < toMs))
  let sorted := (found.mergeSort (fun a b => decide (a.timestampMs ≤ b.timestampMs))).map toSnapshot
  if limit = 0 then sorted else sorted.take limit

namespace Logger

variable {config : Config} {l : Logger} {nowMs fromMs toMs : Int64} {limit : Nat}

theorem readRangeCpp17_eq
    : l.readRangeCpp17 config fromMs toMs limit nowMs = l.readRange config fromMs toMs limit nowMs := by
  unfold readRangeCpp17 readRangeResult readRange
  split
  . rfl
  . rfl

theorem readRange_eq (hage : config.maxAgeMs ≤ 0)
    : (l.readRange config fromMs toMs limit nowMs).1
        = collect limit (fun entry => decide (fromMs ≤ entry.timestampMs) &&
            decide (entry.timestampMs < toMs)) l.entries := by
  unfold readRange mEvictExpiredLocked
  rw [if_pos hage]
  split
  . next hle =>
    have hempty : l.entries.filter (fun entry => decide (fromMs ≤ entry.timestampMs) &&
        decide (entry.timestampMs < toMs)) = [] := by
      rw [filter_eq_nil_iff]
      intro entry _ hfound
      rw [Bool.and_eq_true, decide_eq_true_eq, decide_eq_true_eq] at hfound
      exact Int64.not_lt.mpr hle (Std.lt_of_le_of_lt hfound.1 hfound.2)
    unfold collect
    rw [hempty]
    simp
  . rfl

theorem pairwise_sortedRange (l : Logger) (fromMs toMs : Int64)
    : ((l.sortedRange fromMs toMs 0).map LogRecordSnapshot.timestampMs).Pairwise (· ≤ ·) := by
  unfold sortedRange
  rw [if_pos rfl, map_map, pairwise_map]
  exact pairwise_byTime _

theorem collect_eq_sortedRange
    (h : (l.entries.filter (fun entry => decide (entry.timestampMs < Int64.maxValue))).Pairwise
      (fun a b => a.timestampMs ≤ b.timestampMs))
    : collect limit (fun entry => decide (fromMs ≤ entry.timestampMs) &&
        decide (entry.timestampMs < toMs)) l.entries = l.sortedRange fromMs toMs limit := by
  have hsorted : (l.entries.filter (fun entry => decide (fromMs ≤ entry.timestampMs) &&
      decide (entry.timestampMs < toMs))).Pairwise (fun a b => a.timestampMs ≤ b.timestampMs) := by
    refine List.Pairwise.sublist (monotone_filter_right _ ?_) h
    intro entry hfound
    rw [Bool.and_eq_true, decide_eq_true_eq, decide_eq_true_eq] at hfound
    exact decide_eq_true (Std.lt_of_lt_of_le hfound.2 (Int64.le_maxValue _))
  have heq := eq_byTime_iff.mpr hsorted
  unfold byTime at heq
  unfold collect sortedRange
  dsimp only
  rw [← heq]

end Logger

theorem read_range_sorted_iff (config : Config) (hage : config.maxAgeMs ≤ 0) (l : Logger)
    (nowMs : Int64)
    : (∀ fromMs toMs limit,
        (l.readRange config fromMs toMs limit nowMs).1 = l.sortedRange fromMs toMs limit ∧
        (l.readRangeCpp17 config fromMs toMs limit nowMs).1 = l.sortedRange fromMs toMs limit) ↔
      (l.entries.filter (fun entry => decide (entry.timestampMs < Int64.maxValue))).Pairwise
        (fun a b => a.timestampMs ≤ b.timestampMs) := by
  simp only [Logger.readRangeCpp17_eq, and_self, Logger.readRange_eq hage]
  constructor
  . intro h
    have hsorted := l.pairwise_sortedRange Int64.minValue Int64.maxValue
    rw [← h Int64.minValue Int64.maxValue 0] at hsorted
    unfold Logger.collect at hsorted
    rw [if_pos rfl, map_map, pairwise_map] at hsorted
    simp only [Int64.minValue_le, decide_true, Bool.true_and] at hsorted
    exact hsorted
  . intro h fromMs toMs limit
    exact Logger.collect_eq_sortedRange h

def unaged : Config :=
  { maxAgeMs := 0 }

theorem read_range_sorted_in_order
    : ∃ l, (system unaged).Reachable l ∧ l.entries.length = 2 ∧
        (l.readRangeCpp17 unaged 1 3 1 9).1 = l.sortedRange 1 3 1 := by
  obtain ⟨l, hreach, hlength, hsorted⟩ := (system unaged).exists_reachable
    (P := fun l => l.entries.length = 2 ∧
      (l.entries.filter (fun entry => decide (entry.timestampMs < Int64.maxValue))).Pairwise
        (fun a b => a.timestampMs ≤ b.timestampMs))
    [.log (recordAt 1) [65], .log (recordAt 2) [66]] (by decide +kernel)
  have h := (read_range_sorted_iff unaged (by decide) l 9).mpr hsorted
  exact ⟨l, hreach, hlength, (h 1 3 1).2⟩

theorem read_range_unsorted
    : ∃ l, (system unaged).Reachable l ∧
        (l.readRange unaged 0 9 0 9).1.map LogRecordSnapshot.timestampMs = [2, 1] ∧
        (l.readRange unaged 0 9 0 9).1 ≠ l.sortedRange 0 9 0 := by
  obtain ⟨l, hreach, hread⟩ := (system unaged).exists_reachable
    (P := fun l => (l.readRange unaged 0 9 0 9).1.map LogRecordSnapshot.timestampMs = [2, 1])
    [.log (recordAt 2) [65], .log (recordAt 1) [66]] (by decide +kernel)
  refine ⟨l, hreach, hread, ?_⟩
  intro heq
  have hsorted := l.pairwise_sortedRange 0 9
  rw [← heq, hread] at hsorted
  revert hsorted
  decide

end LogIt.MemoryLogger
