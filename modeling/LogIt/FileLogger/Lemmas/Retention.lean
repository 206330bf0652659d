import LogIt.FileLogger.Lemmas.Prune

namespace LogIt.FileLogger

section Step

variable {T : TimeShield} {config : Config} {day : Nat} {l : Logger} {keys : List Name}
  {written : List UInt8} {call : Call} {key : Name}

section

variable (h : Inv T config day l keys written)

include h

theorem Inv.length_rotated : l.rotated.length = keys.length := by
  have hlength := congrArg List.length h.names_eq
  rw [List.keys, List.length_map, List.length_map, length_numbered] at hlength
  exact hlength

theorem Inv.makeRotatedName_eq (hnone : config.compress = .none)
    (hwithin : WithinRetention config keys) (hkey : rotationKey T config.naming tsMs = key)
    (hn : n < slots config.naming) (htaken : ∀ i < n, (key, i) ∈ kept config (numbered keys))
    (hfree : (key, n) ∉ kept config (numbered keys))
    : slotName config (T.toIso8601Date day) key n ∉ l.dir ∧
      makeRotatedName config (T.toIso8601Date day) l.dir T tsMs
        = some (slotName config (T.toIso8601Date day) key n) := by
  have hmem : ∀ i < slots config.naming, slotName config (T.toIso8601Date day) key i ∈ l.dir ↔
      (key, i) ∈ kept config (numbered keys) := by
    intro i hi
    rw [← artifactName_of_none _ _ hnone]
    apply h.artifactName_mem_iff _ _ hi
    . intro key'
      exact Nat.le_trans (hwithin.count_le key') (lt_slots config)
    . rw [← hkey]
      exact validKey_rotationKey T config.naming tsMs
  have hnew := (hmem n hn).not.mpr hfree
  refine ⟨hnew, FileLogger.makeRotatedName_eq hkey ?_ hnew hn⟩
  intro i hi
  exact (hmem i (by omega)).mpr (htaken i hi)

theorem Inv.writeLog_retention (hdated : T.Dated day) (hdays : 0 ≤ config.autoDeleteDays)
    (hnone : config.compress = .none) (hretention : 0 < config.maxRotatedFiles)
    (hwithin : WithinRetention config keys) (hday : T.startOfDay (T.msToSec call.timestampMs) = day)
    (hrotates : rotates config l.currentFileSize call)
    (hkey : rotationKey T config.naming call.tsMs = key) (hn : n < slots config.naming)
    (htaken : ∀ i < n, (key, i) ∈ kept config (numbered keys))
    (hfree : (key, n) ∉ kept config (numbered keys))
    : ∃ file : LogFile, ∃ l' files, file.1 = artifactName config (T.toIso8601Date day) key n ∧
        l.rotated.flatMap Sigma.snd ++ file.2 = written ∧
        writeLog T l call = .ok l' ∧ l'.config = config ∧ l'.currentDateTs = day ∧
        l'.file = some (createFilePath T day) ∧ l'.currentFileSize = call.add ∧
        l'.rotated = l.rotated ++ [file] ∧ (kept config l.rotated ++ [file]).NodupKeys ∧
        Pruned (T.toIso8601Date day) config.maxRotatedFiles.toNat
          (kept config l.rotated ++ [file]) files ∧
        l'.dir.Lists (⟨createFilePath T day, call.line⟩ :: files) := by
  have hcompress : config.compress ≠ .externalCmd := by simp [hnone]
  obtain ⟨hnew, hmake⟩ := h.makeRotatedName_eq hnone hwithin hkey hn htaken hfree
  obtain ⟨content, dir, hwritten, hdir, hnext⟩ := h.writeLog_rotate hdated hdays hcompress hday
    hrotates hmake hnew (by rwa [artifactName_of_none _ _ hnone])
  generalize hfile : (⟨artifactName config (T.toIso8601Date day) key n, content⟩ : LogFile) = file
    at hdir hnext
  have hnames : ∀ name ∈ (kept config l.rotated ++ [file]).keys,
      (T.toIso8601Date day).isPrefixOf name = true ∧ name ≠ T.toIso8601Date day ++ logSuffix := by
    intro name hname
    rw [List.keys, List.map_append, List.mem_append] at hname
    have hartifact : ∃ key n, name = artifactName config (T.toIso8601Date day) key n := by
      cases hname with
      | inl hname => exact h.artifact_of_mem_kept hname
      | inr hname =>
        rw [List.map_singleton, List.mem_singleton, ← hfile] at hname
        exact ⟨key, n, hname⟩
    obtain ⟨key', n', rfl⟩ := hartifact
    exact ⟨isPrefixOf_artifactName _ _ _ _, artifactName_ne_current _ _ _ _⟩
  have hlength : (kept config l.rotated ++ [file]).length ≤ config.maxRotatedFiles.toNat + 1 := by
    rw [kept_of_pos hretention, List.length_append, List.length_drop, List.length_singleton]
    omega
  obtain ⟨files, hpruned, hfiles⟩ := enforceRotationRetention_lists hdir hnames hlength
  obtain ⟨l', hok, hconfig, hdate, hopen, hsize, hrotated, hlists⟩ :=
    hnext files hpruned.subset (by
      unfold retained
      rw [if_pos hretention]
      exact hfiles)
  refine ⟨file, l', files, ?_, ?_, hok, hconfig, hdate, hopen, hsize, hrotated, ?_, hpruned, hlists⟩
  . rw [← hfile]
  . rw [← hfile]
    exact hwritten
  . exact (List.nodupKeys_cons.mp hdir.nodupKeys).2

theorem Inv.keys_kept_concat (hnone : config.compress = .none)
    (hname : file.1 = artifactName config (T.toIso8601Date day) key n)
    : (kept config l.rotated ++ [file]).map Sigma.fst
        = (kept config (numbered keys) ++ [(key, n)]).map
          (fun a => slotName config (T.toIso8601Date day) a.1 a.2) := by
  have hkept := h.keys_kept
  unfold List.keys at hkept
  rw [List.map_append, hkept, List.map_append, List.map_singleton, List.map_singleton, hname]
  simp only [artifactName_of_none _ _ hnone]

theorem Inv.perm_kept (hnone : config.compress = .none) (hretention : 0 < config.maxRotatedFiles)
    (hkey : ValidKey config.naming key) (hsorted : SortedKeys (keys ++ [key]))
    (hwithin : WithinRetention config (keys ++ [key])) {file : LogFile} {files : List LogFile}
    (hname : file.1 = artifactName config (T.toIso8601Date day) key (keys.count key))
    (hpruned : Pruned (T.toIso8601Date day) config.maxRotatedFiles.toNat (kept config l.rotated ++ [file]) files)
    : files.Perm (kept config (l.rotated ++ [file])) := by
  have hrotated := h.length_rotated
  by_cases hlength : config.maxRotatedFiles.toNat ≤ l.rotated.length
  . obtain ⟨oldest, hfiles⟩ := kept_concat_eq_cons hretention (a := file) hlength
    have hnames := h.keys_kept_concat hnone hname
    rw [hfiles] at hpruned hnames
    rw [kept_concat hretention, ← numbered_concat, List.map_cons, eq_comm, List.map_eq_cons_iff]
      at hnames
    obtain ⟨a, rest, hdrop, holdest, hrest⟩ := hnames
    apply hpruned.perm_of_first
    . rw [← hfiles, kept_concat hretention, List.length_drop, List.length_append,
        List.length_singleton]
      omega
    . intro other hother
      have hmem := List.mem_map_of_mem (f := Sigma.fst) hother
      rw [← hrest, List.mem_map] at hmem
      obtain ⟨b, hb, heq⟩ := hmem
      rw [← holdest, ← heq]
      rw [length_numbered] at hdrop
      apply sortsBefore_of_withinRetention _ hsorted hwithin (h.valid_concat hkey) hdrop _ b hb
      rw [List.length_append, List.length_singleton]
      omega
  . unfold Pruned at hpruned
    have hall : kept config l.rotated ++ [file] = kept config (l.rotated ++ [file]) := by
      rw [kept_of_pos hretention, kept_of_pos hretention, List.length_append,
        List.length_singleton, Nat.sub_eq_zero_of_le (by omega),
        Nat.sub_eq_zero_of_le (by omega)]
      rfl
    have hle : (kept config (l.rotated ++ [file])).length ≤ config.maxRotatedFiles.toNat := by
      rw [kept_of_pos hretention, List.length_drop]
      omega
    rw [hall, if_pos hle] at hpruned
    rw [hpruned]

end

theorem keepsInv_withinRetention (hdated : T.Dated day) (hdays : 0 ≤ config.autoDeleteDays)
    (hnone : config.compress = .none) (hretention : 0 < config.maxRotatedFiles)
    : KeepsInv T config day (fun keys => SortedKeys keys ∧ WithinRetention config keys) := by
  intro l keys written call h hday hrotates hgood
  obtain ⟨hsorted, hwithin⟩ := hgood
  have hkey := validKey_rotationKey T config.naming call.tsMs
  have hslots := lt_slots config
  have hcount := hwithin.count_le (rotationKey T config.naming call.tsMs)
  rw [List.count_append, List.count_singleton_self] at hcount
  obtain ⟨⟨name, content⟩, l', files, hname, hwritten, hok, hconfig, hdate, hfile, hsize, hrotated,
    _, hpruned, hlists⟩ := h.writeLog_retention hdated hdays hnone hretention hwithin.front hday
      hrotates rfl (by omega) (hsorted.mem_kept hretention (by omega))
      (count_not_mem_kept config keys _)
  have hperm := h.perm_kept hnone hretention hkey hsorted hwithin hname hpruned
  dsimp only at hname
  subst hname
  rw [← hrotated] at hperm
  exact ⟨l', hok, h.concat hkey hwritten hconfig hdate hfile hrotated
    (hlists.of_perm (hperm.cons _)), hsize⟩

theorem rotatedFiles_perm {files : List LogFile} {content : List UInt8}
    (hlists : l.dir.Lists (⟨createFilePath T l.currentDateTs, content⟩ :: files))
    : (l.rotatedFiles T).Perm files := by
  have hcurrent : createFilePath T l.currentDateTs ∉ files.keys :=
    List.notMem_keys_of_nodupKeys_cons hlists.nodupKeys
  unfold Logger.rotatedFiles
  refine (List.Perm.filter _ hlists).trans ?_
  rw [List.filter_cons_of_neg (by simp), List.filter_eq_self.mpr]
  intro file hfile
  rw [decide_eq_true_eq]
  intro heq
  rw [← heq] at hcurrent
  exact hcurrent (List.mem_map_of_mem hfile)

theorem Inv.not_perm_of_not_withinRetention (h : Inv T config day l keys written)
    (hdated : T.Dated day) (hdays : 0 ≤ config.autoDeleteDays) (hnone : config.compress = .none)
    (hretention : 0 < config.maxRotatedFiles)
    (hday : T.startOfDay (T.msToSec call.timestampMs) = day)
    (hrotates : rotates config l.currentFileSize call)
    (hkey : rotationKey T config.naming call.tsMs = key)
    (hsorted : SortedKeys (keys ++ [key])) (hwithin : WithinRetention config keys)
    (hbad : ¬ WithinRetention config (keys ++ [key]))
    : ∃ l', writeLog T l call = .ok l' ∧
        ¬ (l'.rotatedFiles T).Perm (kept config l'.rotated) := by
  have hvalid : ValidKey config.naming key := by
    rw [← hkey]
    exact validKey_rotationKey T config.naming call.tsMs
  obtain ⟨hlength, n, hn, htaken, hfree, a, rest, hlast, b, hb, hbefore⟩ :=
    exists_sortsBefore (T.toIso8601Date day) hretention (h.valid_concat hvalid) hsorted hwithin hbad
  obtain ⟨file, l', files, hname, _, hok, _, hdate, _, _, hrotated, hnodup, hpruned, hlists⟩ :=
    h.writeLog_retention hdated hdays hnone hretention hwithin hday hrotates hkey hn htaken hfree
  have hnames := h.keys_kept_concat hnone hname
  obtain ⟨oldest, hfiles⟩ := kept_concat_eq_cons hretention (a := file)
    (hlength.trans_eq h.length_rotated.symm)
  rw [hfiles, ← hrotated] at hnodup hpruned hnames
  rw [hlast] at hnames
  have holdest : oldest.1 = slotName config (T.toIso8601Date day) a.1 a.2 := by
    rw [List.map_cons, List.map_cons, List.cons.injEq] at hnames
    exact hnames.1
  have hother := List.mem_map_of_mem
    (f := fun a => slotName config (T.toIso8601Date day) a.1 a.2) hb
  rw [← hnames, List.mem_map] at hother
  obtain ⟨other, hother, heq⟩ := hother
  rw [← heq, ← holdest] at hbefore
  have hmem := hpruned.mem_of_sortsBefore (List.mem_cons_self ..) hother hbefore
  refine ⟨l', hok, ?_⟩
  intro hperm
  rw [← hdate] at hlists
  have hkept := ((rotatedFiles_perm hlists).symm.trans hperm).subset hmem
  exact List.notMem_keys_of_nodupKeys_cons hnodup (List.mem_map_of_mem hkept)

end Step

section Retention

variable {T : TimeShield} {config : Config} {day : Nat} {l : Logger} {calls : List Call}

theorem Inv.rotatedFiles_perm (h : Inv T config day l keys written)
    : (l.rotatedFiles T).Perm (kept config l.rotated) := by
  obtain ⟨content, hlists, _⟩ := h.files
  rw [← h.date_eq] at hlists
  exact FileLogger.rotatedFiles_perm hlists

theorem rotationKeys_prefix (T : TimeShield) (config : Config) (size : UInt64)
    (hfront : front <+: calls)
    : rotationKeys T config size front <+: rotationKeys T config size calls := by
  obtain ⟨back, rfl⟩ := hfront
  induction front generalizing size with
  | nil => exact List.nil_prefix
  | cons call front ih =>
    rw [List.cons_append]
    unfold rotationKeys
    split
    . exact (List.prefix_cons_inj _).mpr (ih _)
    . exact ih _

theorem retention_keeps_newest_iff (T : TimeShield) (config : Config) (day start : Nat)
    (calls : List Call) (hdated : T.Dated day) (hnone : config.compress = .none)
    (hretention : 0 < config.maxRotatedFiles) (hdays : 0 ≤ config.autoDeleteDays)
    (hstart : T.startOfDay (T.msToSec start) = day)
    (hcalls : ∀ call ∈ calls, T.startOfDay (T.msToSec call.timestampMs) = day ∧
      T.startOfDay (T.msToSec call.tsMs) = day)
    (hclock : calls.Pairwise (fun a b => a.tsMs ≤ b.tsMs))
    : (∀ front, front <+: calls →
        ∃ l, writeLogs T (startLogging T config start) front = .ok l ∧
          (l.rotatedFiles T).Perm
            (l.rotated.drop (l.rotated.length - config.maxRotatedFiles.toNat))) ↔
      ∀ key, (rotationKeys T config 0 calls).count key
          ≤ min (config.maxRotatedFiles.toNat + 1) (orderedSlots config.naming) ∨
        (rotationKeys T config 0 calls).length
          ≤ (rotationKeys T config 0 calls).idxOf key + config.maxRotatedFiles.toNat := by
  obtain ⟨hinit, hsize⟩ := Inv.start config hdated hdays hstart
  have hkeeps := keepsInv_withinRetention hdated hdays hnone hretention
  have hdates : ∀ call ∈ calls, T.startOfDay (T.msToSec call.timestampMs) = day :=
    fun call hcall => (hcalls call hcall).1
  have hsorted := sortedKeys_rotationKeys (fun call hcall => (hcalls call hcall).2) hclock config 0
  have hrun {front : List Call} (hfront : front <+: calls) := hinit.writeLogs hdated hdays
    (fun call hcall => hdates call (hfront.subset hcall)) hkeeps
    ⟨List.Pairwise.nil, fun key => .inl (Nat.zero_le _)⟩
  rw [hsize] at hrun
  constructor
  . intro hproperty
    by_contra hbad
    obtain ⟨front, call, back, l, keys, written, rfl, hfront, h, hgood, hrotates, hnext, hbegins⟩ :=
      (hrun (List.prefix_refl _)).resolve_left (fun hall => hbad hall.choose_spec.2.2.2)
    rw [List.nil_append] at hbegins
    have hsorted' := List.Pairwise.sublist hbegins.sublist hsorted
    obtain ⟨l', hok, hnot⟩ := h.not_perm_of_not_withinRetention hdated hdays hnone hretention
      (hdates call (by simp)) hrotates rfl hsorted' hgood.2
      (fun hwithin => hnext ⟨hsorted', hwithin⟩)
    obtain ⟨l₁, hrun, hperm⟩ := hproperty (front ++ [call]) (by simp)
    obtain ⟨l₂, hfront₂, hrest⟩ := writeLogs_append hrun
    obtain ⟨l₃, hcall, hnil⟩ := writeLogs_cons hrest
    cases hnil
    rw [hfront] at hfront₂
    cases hfront₂
    rw [hok] at hcall
    cases hcall
    rw [kept_of_pos hretention] at hnot
    exact hnot hperm
  . intro hwithin front hfront
    obtain ⟨rest, hrest⟩ := rotationKeys_prefix T config 0 hfront
    rw [← hrest] at hsorted
    obtain ⟨l, hrun, h, _⟩ := (hrun hfront).resolve_right (fun hviolates => hviolates.not_good
      (fun ks ks' hgood => ⟨hgood.1.sublist (List.sublist_append_left ks ks'), hgood.2.front⟩)
      ⟨hsorted.sublist (List.sublist_append_left _ _), WithinRetention.front (hrest ▸ hwithin)⟩)
    refine ⟨l, hrun, ?_⟩
    rw [← kept_of_pos hretention]
    exact h.rotatedFiles_perm

theorem retention_keeps_newest_three
    : ∃ l, writeLogs .gregorian (startLogging .gregorian
          { maxFileSizeBytes := 2, maxRotatedFiles := 2 } 1704067200000)
          [⟨[65], 1704067200000, 1704067200000⟩, ⟨[66], 1704067200000, 1704067200000⟩,
            ⟨[67], 1704067201000, 1704067201000⟩, ⟨[68], 1704067202000, 1704067202000⟩] = .ok l ∧
        (l.rotatedFiles .gregorian).Perm (l.rotated.drop (l.rotated.length - 2)) := by
  apply (retention_keeps_newest_iff .gregorian
    { maxFileSizeBytes := 2, maxRotatedFiles := 2 } 1704067200 1704067200000
    [⟨[65], 1704067200000, 1704067200000⟩, ⟨[66], 1704067200000, 1704067200000⟩,
      ⟨[67], 1704067201000, 1704067201000⟩, ⟨[68], 1704067202000, 1704067202000⟩]
    ⟨by decide +kernel, by decide +kernel⟩ rfl (by decide) (by decide) rfl (by decide)
    (by decide)).mpr
  . intro key
    exact .inl (List.count_le_length.trans (by decide +kernel))
  . exact List.prefix_refl _

theorem retention_removes_newest
    : ∃ l, writeLogs .gregorian (startLogging .gregorian
          { maxFileSizeBytes := 2, maxRotatedFiles := 2, naming := .timestamp } 1704067200000)
          [⟨[65], 1704067200000, 1704067200000⟩, ⟨[66], 1704067200000, 1704067200000⟩,
            ⟨[67], 1704067200000, 1704067200000⟩, ⟨[68], 1704067200000, 1704067200000⟩,
            ⟨[69], 1704067200000, 1704067200000⟩] = .ok l ∧
        l.rotated = [⟨"2024-01-01_000000.log".toList, [65, 10]⟩,
          ⟨"2024-01-01_000000.1.log".toList, [66, 10]⟩,
          ⟨"2024-01-01_000000.2.log".toList, [67, 10]⟩,
          ⟨"2024-01-01_000000.log".toList, [68, 10]⟩] ∧
        l.rotatedFiles .gregorian = [⟨"2024-01-01_000000.2.log".toList, [67, 10]⟩,
          ⟨"2024-01-01_000000.1.log".toList, [66, 10]⟩] ∧
        ¬ (l.rotatedFiles .gregorian).Perm (l.rotated.drop (l.rotated.length - 2)) := by
  apply exists_ok
  decide +kernel

end Retention
end LogIt.FileLogger
