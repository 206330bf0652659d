import Mathlib.Data.List.Sort
import Mathlib.Data.Prod.Lex
import LogIt.FileLogger.Lemmas.Rotation
import LogIt.FileLogger.Lemmas.SortKey

namespace LogIt.FileLogger

open List

section Enforce

variable {base : Name} {dir : Dir} {files : List LogFile} {content : List UInt8} {maxFiles : Nat}

theorem sortsBefore_iff (base a b : Name)
    : sortsBefore base a b ↔ toLex (extract base a) < toLex (extract base b) := by
  unfold sortsBefore
  rw [Prod.Lex.toLex_lt_toLex]
  dsimp only
  split <;> omega

theorem not_sortsBefore_iff (base a b : Name)
    : ¬ sortsBefore base b a ↔ toLex (extract base a) ≤ toLex (extract base b) := by
  rw [sortsBefore_iff, not_lt]

instance (base : Name) : Std.Total (fun a b => ¬ sortsBefore base b a) where
  total a b := by
    rw [not_sortsBefore_iff, not_sortsBefore_iff]
    exact le_total _ _

instance (base : Name) : IsTrans Name (fun a b => ¬ sortsBefore base b a) where
  trans a b c := by
    rw [not_sortsBefore_iff, not_sortsBefore_iff, not_sortsBefore_iff]
    exact le_trans

theorem filter_keys_perm (hlists : dir.Lists (⟨base ++ logSuffix, content⟩ :: files))
    (hfiles : ∀ name ∈ files.keys, base.isPrefixOf name = true ∧ name ≠ base ++ logSuffix)
    : (dir.keys.filter (fun name => base.isPrefixOf name && name != base ++ logSuffix)).Perm
        files.keys := by
  have hkeys : dir.keys.Perm ((base ++ logSuffix) :: files.keys) := hlists.map Sigma.fst
  refine (hkeys.filter _).trans ?_
  rw [filter_cons_of_neg (by simp)]
  rw [filter_eq_self.mpr]
  intro name hname
  obtain ⟨hbegins, hne⟩ := hfiles name hname
  simp [hbegins, hne]

def Pruned (base : Name) (maxFiles : Nat) (files files' : List LogFile) : Prop :=
  if files.length ≤ maxFiles then
    files' = files
  else
    ∃ file, files.Perm (file :: files') ∧ ∀ other ∈ files, ¬ sortsBefore base other.1 file.1

theorem enforceRotationRetention_lists
    (hlists : dir.Lists (⟨base ++ logSuffix, content⟩ :: files))
    (hfiles : ∀ name ∈ files.keys, base.isPrefixOf name = true ∧ name ≠ base ++ logSuffix)
    (hlength : files.length ≤ maxFiles + 1)
    : ∃ files', Pruned base maxFiles files files' ∧
        (enforceRotationRetention base maxFiles dir).Lists
          (⟨base ++ logSuffix, content⟩ :: files') := by
  have hperm := filter_keys_perm hlists hfiles
  have hkeyslen : files.keys.length = files.length := length_map ..
  unfold enforceRotationRetention Pruned
  dsimp only
  rw [hperm.length_eq, hkeyslen]
  split
  . exact ⟨files, rfl, hlists⟩
  . next hgt =>
    generalize hsort : insertionSort (fun a b => ¬ sortsBefore base b a) _ = sorted
    have hsorted : sorted.Pairwise (fun a b => ¬ sortsBefore base b a) := by
      rw [← hsort]
      exact pairwise_insertionSort _ _
    have hkeys : sorted.Perm files.keys := by
      rw [← hsort]
      exact (perm_insertionSort _ _).trans hperm
    have hone : sorted.length - maxFiles = 1 := by
      rw [hkeys.length_eq, hkeyslen]
      omega
    rw [hone]
    cases sorted with
    | nil =>
      rw [length_nil] at hone
      omega
    | cons first sorted =>
      rw [take_succ_cons, take_zero, foldl_cons, foldl_nil]
      obtain ⟨file, hmem, rfl⟩ := mem_map.mp (hkeys.subset (mem_cons_self ..))
      have hrest := perm_cons_erase hmem
      refine ⟨_, ⟨file, hrest, ?_⟩, ?_⟩
      . intro other hother
        have hothers := hkeys.symm.subset (mem_map_of_mem hother)
        rw [mem_cons] at hothers
        cases hothers with
        | inl heq => rw [heq, not_sortsBefore_iff]
        | inr hlater => exact (pairwise_cons.mp hsorted).1 _ hlater
      . apply Directory.Lists.remove
        exact hlists.of_perm ((hrest.cons _).trans (List.Perm.swap _ _ _))

theorem Pruned.subset (h : Pruned base maxFiles files files') : ∀ file ∈ files', file ∈ files := by
  intro file hfile
  unfold Pruned at h
  split at h
  . rwa [h] at hfile
  . obtain ⟨removed, hperm, _⟩ := h
    exact hperm.symm.subset (mem_cons_of_mem _ hfile)

theorem Pruned.perm_of_first (h : Pruned base maxFiles (file :: files) files')
    (hgt : maxFiles < (file :: files).length)
    (hfirst : ∀ other ∈ files, sortsBefore base file.1 other.1)
    : files'.Perm files := by
  unfold Pruned at h
  rw [if_neg (by omega)] at h
  obtain ⟨removed, hperm, hleast⟩ := h
  have hremoved := hperm.symm.subset (mem_cons_self ..)
  rw [mem_cons] at hremoved
  cases hremoved with
  | inl heq =>
    rw [heq] at hperm
    exact hperm.symm.cons_inv
  | inr hmem => exact absurd (hfirst removed hmem) (hleast file (mem_cons_self ..))

theorem Pruned.mem_of_sortsBefore (h : Pruned base maxFiles files files') (hfile : file ∈ files)
    (hother : other ∈ files) (hlt : sortsBefore base other.1 file.1)
    : file ∈ files' := by
  unfold Pruned at h
  split at h
  . rw [h]
    exact hfile
  . obtain ⟨removed, hperm, hleast⟩ := h
    have hmem := hperm.subset hfile
    rw [mem_cons] at hmem
    cases hmem with
    | inl heq =>
      rw [heq] at hlt
      exact absurd hlt (hleast other hother)
    | inr hmem => exact hmem

end Enforce

section Kept

variable {α : Type} {config : Config}

section

variable (hretention : 0 < config.maxRotatedFiles)

include hretention

theorem kept_of_pos (rotated : List α)
    : kept config rotated = rotated.drop (rotated.length - config.maxRotatedFiles.toNat) := by
  unfold kept
  rw [if_pos hretention]

theorem kept_concat (rotated : List α) (a : α)
    : kept config rotated ++ [a] = (rotated ++ [a]).drop
        ((rotated ++ [a]).length - (config.maxRotatedFiles.toNat + 1)) := by
  rw [kept_of_pos hretention, length_append, length_singleton, Nat.add_sub_add_right]
  exact (drop_append_of_le_length (Nat.sub_le _ _)).symm

theorem kept_concat_eq_cons (hlength : config.maxRotatedFiles.toNat ≤ rotated.length)
    : ∃ oldest, kept config rotated ++ [a] = oldest :: kept config (rotated ++ [a]) := by
  have hlen : (rotated ++ [a]).length = rotated.length + 1 := length_append
  have hlt : (rotated ++ [a]).length - (config.maxRotatedFiles.toNat + 1)
      < (rotated ++ [a]).length := by omega
  rw [kept_concat hretention, drop_eq_getElem_cons hlt, kept_of_pos hretention]
  have hsucc : (rotated ++ [a]).length - (config.maxRotatedFiles.toNat + 1) + 1
      = (rotated ++ [a]).length - config.maxRotatedFiles.toNat := by omega
  rw [hsucc]
  exact ⟨_, rfl⟩

end

end Kept

section Keys

def SortedKeys (keys : List Name) : Prop :=
  keys.Pairwise (fun a b => a = b ∨ keyValue a < keyValue b)

def WithinRetention (config : Config) (keys : List Name) : Prop :=
  ∀ key, keys.count key ≤ min (config.maxRotatedFiles.toNat + 1) (orderedSlots config.naming) ∨
    keys.length ≤ keys.idxOf key + config.maxRotatedFiles.toNat

variable {config : Config} {keys : List Name} {key : Name}

theorem rotationKeys_sublist (T : TimeShield) (config : Config) (size : UInt64)
    (calls : List Call)
    : (rotationKeys T config size calls).Sublist
        (calls.map (fun call => rotationKey T config.naming call.tsMs)) := by
  induction calls generalizing size with
  | nil => exact List.Sublist.refl _
  | cons call calls ih =>
    unfold rotationKeys
    rw [map_cons]
    split
    . exact (ih _).cons_cons _
    . exact (ih _).cons _

theorem sortedKeys_rotationKeys (hcalls : ∀ call ∈ calls, T.startOfDay (T.msToSec call.tsMs) = day)
    (hclock : calls.Pairwise (fun a b => a.tsMs ≤ b.tsMs)) (config : Config) (size : UInt64)
    : SortedKeys (rotationKeys T config size calls) := by
  apply List.Pairwise.sublist (rotationKeys_sublist T config size calls)
  rw [pairwise_map]
  apply hclock.imp_of_mem
  intro a b ha hb hle
  exact rotationKey_mono T config.naming hle ((hcalls a ha).trans (hcalls b hb).symm)

theorem SortedKeys.last (h : SortedKeys (keys ++ [key]))
    : ∃ front, key ∉ front ∧ keys = front ++ replicate (keys.count key) key := by
  unfold SortedKeys at h
  rw [pairwise_append] at h
  exact eq_append_replicate (fun a b => keyValue a < keyValue b) (fun _ => Nat.lt_irrefl _)
    (fun _ _ _ => Nat.lt_trans) h.1 (fun a ha => h.2.2 a ha key (mem_singleton_self key))

theorem SortedKeys.length_le (h : SortedKeys (keys ++ [key]))
    : keys.length ≤ keys.idxOf key + keys.count key := by
  obtain ⟨front, hfront, hkeys⟩ := h.last
  have hlength := congrArg length hkeys
  rw [length_append, length_replicate] at hlength
  have hidx : front.length ≤ keys.idxOf key := by
    rw [hkeys, idxOf_append_of_notMem hfront]
    omega
  omega

theorem SortedKeys.numbered_eq (h : SortedKeys (keys ++ [key]))
    : ∃ front : List Name, keys.length = front.length + keys.count key ∧
        numbered keys = numbered front ++ (range (keys.count key)).map (fun i => (key, i)) := by
  obtain ⟨front, hfront, hkeys⟩ := h.last
  have hlength := congrArg length hkeys
  rw [length_append, length_replicate] at hlength
  refine ⟨front, hlength, ?_⟩
  rw [← numbered_append_replicate _ hfront, ← hkeys]

theorem WithinRetention.front (h : WithinRetention config (keys ++ keys'))
    : WithinRetention config keys := by
  intro key
  by_cases hmem : key ∈ keys
  . have := h key
    rw [count_append, length_append, idxOf_append_of_mem hmem] at this
    omega
  . rw [count_eq_zero_of_not_mem hmem]
    omega

theorem WithinRetention.count_le (h : WithinRetention config keys) (key : Name)
    : keys.count key ≤ config.maxRotatedFiles.toNat + 1 := by
  have hidx := count_add_idxOf_le keys key
  cases h key with
  | inl hle => omega
  | inr hle => omega

theorem lt_slots (config : Config)
    : config.maxRotatedFiles.toNat + 1 ≤ slots config.naming := by
  have := config.maxRotatedFiles.toNat_lt
  cases config.naming <;> simp only [slots] <;> omega

theorem sortsBefore_of_withinRetention (base : Name) (hsorted : SortedKeys keys)
    (hwithin : WithinRetention config keys) (hvalid : ∀ key ∈ keys, ValidKey config.naming key)
    (hdrop : (numbered keys).drop (keys.length - (config.maxRotatedFiles.toNat + 1)) = a :: rest)
    (hlength : config.maxRotatedFiles.toNat < keys.length)
    : ∀ b ∈ rest,
        sortsBefore base (slotName config base a.1 a.2) (slotName config base b.1 b.2) := by
  intro b hb
  have hpairs := (pairwise_numbered hsorted).sublist
    (drop_sublist (keys.length - (config.maxRotatedFiles.toNat + 1)) _)
  have hmem : ∀ c ∈ a :: rest, c.2 < keys.count c.1 := by
    intro c hc
    rw [← hdrop] at hc
    exact mem_numbered.mp (mem_of_mem_drop hc)
  have hkey : ∀ c ∈ a :: rest, ValidKey config.naming c.1 :=
    fun c hc => hvalid c.1 (count_pos_iff.mp (Nat.zero_lt_of_lt (hmem c hc)))
  rw [hdrop, pairwise_cons] at hpairs
  have hkeya := hkey a (mem_cons_self ..)
  cases hpairs.1 b hb with
  | inl hlt => exact sortsBefore_of_keyValue base hkeya (hkey b (mem_cons_of_mem a hb)) hlt
  | inr hsame =>
    -- All rotations with this time part count, since it is the one of the oldest file.
    have hfirst : keys.drop (keys.length - (config.maxRotatedFiles.toNat + 1))
        = a.1 :: rest.map Prod.fst := by
      rw [← map_cons, ← hdrop, map_drop, map_fst_numbered]
    have hidx := idxOf_le_of_drop hfirst
    have hcount := hmem b (mem_cons_of_mem a hb)
    have hle := hwithin a.1
    rw [← hsame.1] at hcount ⊢
    exact sortsBefore_of_lt base hkeya hsame.2 (by omega)

theorem drop_of_not_withinRetention (hsorted : SortedKeys (keys ++ [key]))
    (hwithin : WithinRetention config keys) (hbad : ¬ WithinRetention config (keys ++ [key]))
    (hcount : keys.count key ≤ config.maxRotatedFiles.toNat)
    : config.maxRotatedFiles.toNat ≤ keys.length ∧
      ∃ key' ∈ keys ++ [key], ∃ rest,
        (numbered (keys ++ [key])).drop (keys.length - config.maxRotatedFiles.toNat)
          = (key', 0) :: rest ∧
        (key', orderedSlots config.naming) ∈ (key', 0) :: rest := by
  unfold WithinRetention at hbad
  rw [not_forall] at hbad
  obtain ⟨key', hkey'⟩ := hbad
  have hpos : 0 < (keys ++ [key]).count key' := by omega
  have hmem := count_pos_iff.mp hpos
  have hbound := count_add_idxOf_le (keys ++ [key]) key'
  rw [length_append, length_singleton] at hkey' hbound
  -- The time part is the one of the oldest file, or it would have violated the condition before.
  have hidx : (keys ++ [key]).idxOf key' = keys.length - config.maxRotatedFiles.toNat := by
    by_contra hne
    have hlt : (keys ++ [key]).idxOf key' < keys.length := by omega
    have hold : key' ∈ keys := by
      by_contra hnew
      rw [idxOf_append_of_notMem hnew] at hlt
      omega
    rw [idxOf_append_of_mem hold] at hne hlt hkey' hbound
    have hbefore := hwithin key'
    rw [count_append, count_singleton] at hkey'
    by_cases heq : key = key'
    . subst heq
      have hlast := hsorted.length_le
      omega
    . have hbeq : (key == key') = false := by simpa using heq
      rw [hbeq] at hkey'
      simp only [Bool.false_eq_true, if_false] at hkey'
      omega
  obtain ⟨rest, hdrop, hall⟩ := drop_idxOf_numbered hmem
  rw [hidx] at hdrop
  exact ⟨by omega, key', hmem, rest, hdrop, hall _ (by omega)⟩

theorem SortedKeys.mem_kept (hsorted : SortedKeys (keys ++ [key]))
    (hretention : 0 < config.maxRotatedFiles)
    (hcount : keys.count key ≤ config.maxRotatedFiles.toNat)
    : ∀ i < keys.count key, (key, i) ∈ kept config (numbered keys) := by
  intro i hi
  obtain ⟨front, hlength, hnumbered⟩ := hsorted.numbered_eq
  rw [kept_of_pos hretention, length_numbered, hnumbered,
    drop_append_of_le_length (by rw [length_numbered]; omega), mem_append]
  exact Or.inr (mem_map.mpr ⟨i, mem_range.mpr hi, rfl⟩)

theorem count_not_mem_kept (config : Config) (keys : List Name) (key : Name)
    : (key, keys.count key) ∉ kept config (numbered keys) := by
  intro hkept
  have := mem_numbered.mp ((kept_sublist _ _).subset hkept)
  omega

theorem SortedKeys.kept_eq (hsorted : SortedKeys (keys ++ [key]))
    (hretention : 0 < config.maxRotatedFiles)
    (hcount : keys.count key = config.maxRotatedFiles.toNat + 1)
    : kept config (numbered keys)
        = (range config.maxRotatedFiles.toNat).map (fun i => (key, i + 1)) := by
  obtain ⟨front, hlength, hnumbered⟩ := hsorted.numbered_eq
  rw [hcount, range_succ_eq_map, map_cons, map_map] at hnumbered
  have hdrop : keys.length - config.maxRotatedFiles.toNat = (numbered front).length + 1 := by
    rw [length_numbered]
    omega
  rw [kept_of_pos hretention, length_numbered, hdrop, hnumbered,
    drop_length_add_append]
  rfl

theorem exists_sortsBefore (base : Name) (hretention : 0 < config.maxRotatedFiles)
    (hvalid : ∀ key' ∈ keys ++ [key], ValidKey config.naming key')
    (hsorted : SortedKeys (keys ++ [key])) (hwithin : WithinRetention config keys)
    (hbad : ¬ WithinRetention config (keys ++ [key]))
    : config.maxRotatedFiles.toNat ≤ keys.length ∧ ∃ n < slots config.naming,
      (∀ i < n, (key, i) ∈ kept config (numbered keys)) ∧ (key, n) ∉ kept config (numbered keys) ∧
      ∃ a rest, kept config (numbered keys) ++ [(key, n)] = a :: rest ∧ ∃ b ∈ a :: rest,
        sortsBefore base (slotName config base b.1 b.2) (slotName config base a.1 a.2) := by
  have hslots := lt_slots config
  have hpos : 0 < config.maxRotatedFiles.toNat := hretention
  by_cases hcount : keys.count key ≤ config.maxRotatedFiles.toNat
  . -- The new file is in the slot after the others, but an index has become too large.
    obtain ⟨hlength, key', hmem, rest, hdrop, hlast⟩ :=
      drop_of_not_withinRetention hsorted hwithin hbad hcount
    refine ⟨hlength, keys.count key, by omega, hsorted.mem_kept hretention hcount,
      count_not_mem_kept config keys key, (key', 0), rest, ?_, _, hlast,
      sortsBefore_overflow base (hvalid key' hmem)⟩
    rw [kept_concat hretention, ← numbered_concat, length_numbered, length_append,
      length_singleton, Nat.add_sub_add_right]
    exact hdrop
  . -- The new file gets the slot of one that has been removed.
    have hfull : keys.count key = config.maxRotatedFiles.toNat + 1 := by
      have := hwithin.count_le key
      omega
    have hkept := hsorted.kept_eq hretention hfull
    obtain ⟨n, hn⟩ := Nat.exists_eq_add_of_lt hpos
    have hlength : keys.count key ≤ keys.length := count_le_length
    have hone : 1 < orderedSlots config.naming := by cases config.naming <;> decide
    refine ⟨by omega, 0, by omega, by omega, ?_, (key, 1), ?_⟩
    . rw [hkept]
      simp
    . rw [hkept, hn, Nat.zero_add, range_succ_eq_map, map_cons, cons_append]
      refine ⟨_, rfl, (key, 0), by simp, ?_⟩
      exact sortsBefore_of_lt base (hvalid key (by simp)) Nat.zero_lt_one hone

end Keys
end LogIt.FileLogger
