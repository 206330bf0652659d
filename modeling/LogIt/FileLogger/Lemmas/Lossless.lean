import LogIt.FileLogger.Lemmas.Rotation

namespace LogIt.FileLogger

def capacity (config : Config) : Nat :=
  if config.compress = .none then slots config.naming else 1

structure Lossless (T : TimeShield) (l : Logger) (calls : List Call) : Prop where
  distinct : l.rotated.keys.Nodup
  content : l.rotated.flatMap (fun file => (l.dir.lookup file.1).getD [])
    ++ (l.dir.lookup (createFilePath T l.currentDateTs)).getD [] = calls.flatMap Call.line

variable {T : TimeShield} {config : Config} {day : Nat} {l l' : Logger} {keys : List Name}
  {written : List UInt8} {call : Call} {calls : List Call}

theorem rotateCurrentFile_rotated (h : rotateCurrentFile T l tsMs = .ok l')
    : ∃ name content,
        makeRotatedName l.config (T.toIso8601Date l.currentDateTs) l.dir T tsMs = some name ∧
        l'.rotated = l.rotated ++ [⟨name ++ l.config.compress.suffix, content⟩] := by
  unfold rotateCurrentFile at h
  dsimp only at h
  split at h
  . contradiction
  . next name hmake =>
    split at h
    . contradiction
    . cases h
      exact ⟨name, _, hmake, rfl⟩

theorem writeMessage_rotated (l : Logger) (call : Call)
    : (removeOldLogs T (writeMessage l call)).rotated = l.rotated := by
  unfold removeOldLogs writeMessage
  split <;> rfl

theorem writeLog_rotated (h : writeLog T l call = .ok l') : l.rotated <+: l'.rotated := by
  have hopen : ∀ dateTs, (if dateTs ≠ l.currentDateTs then openLogFile T l dateTs else l).rotated
      = l.rotated := by
    intro dateTs
    split <;> rfl
  unfold writeLog at h
  dsimp only at h
  rw [← hopen (T.startOfDay (T.msToSec call.timestampMs))]
  generalize (if T.startOfDay (T.msToSec call.timestampMs) ≠ l.currentDateTs then
    openLogFile T l (T.startOfDay (T.msToSec call.timestampMs)) else l) = opened at h ⊢
  split at h
  . cases hrotate : rotateCurrentFile T opened call.tsMs with rw [hrotate] at h
    | error e => contradiction
    | ok rotated =>
      cases h
      obtain ⟨name, content, _, heq⟩ := rotateCurrentFile_rotated hrotate
      rw [writeMessage_rotated, heq]
      exact List.prefix_append _ _
  . cases h
    rw [writeMessage_rotated]

theorem writeLogs_rotated (h : writeLogs T l calls = .ok l') : l.rotated <+: l'.rotated := by
  induction calls generalizing l with
  | nil =>
    cases h
    exact List.prefix_refl _
  | cons call calls ih =>
    obtain ⟨l₁, hok, hrest⟩ := writeLogs_cons h
    exact (writeLog_rotated hok).trans (ih hrest)

def WithinCapacity (config : Config) (keys : List Name) : Prop :=
  ∀ key, keys.count key ≤ capacity config

theorem capacity_le_slots (config : Config) : capacity config ≤ slots config.naming := by
  unfold capacity
  split
  . exact Nat.le_refl _
  . cases config.naming <;> decide

theorem capacity_of_none (hnone : config.compress = .none)
    : capacity config = slots config.naming := by
  unfold capacity
  rw [if_pos hnone]

theorem capacity_of_ne_none (hnone : config.compress ≠ .none) : capacity config = 1 := by
  unfold capacity
  rw [if_neg hnone]

theorem suffix_ne_nil (hnone : config.compress ≠ .none) (hcompress : config.compress ≠ .externalCmd)
    : config.compress.suffix ≠ [] := by
  cases htype : config.compress with
  | none | externalCmd => contradiction
  | gzip => decide
  | zstd => decide

theorem kept_eq {α : Type} (hretention : config.maxRotatedFiles = 0) (rotated : List α)
    : kept config rotated = rotated := by
  unfold kept
  rw [hretention, if_neg (by decide)]

theorem retained_eq (hretention : config.maxRotatedFiles = 0) (base : Name) (dir : Dir)
    : retained config base dir = dir := by
  unfold retained
  rw [hretention, if_neg (by decide)]

theorem WithinCapacity.front (h : WithinCapacity config (keys ++ keys'))
    : WithinCapacity config keys := by
  intro key
  have := h key
  rw [List.count_append] at this
  omega

theorem WithinCapacity.count_le (h : WithinCapacity config keys) (key : Name)
    : keys.count key ≤ slots config.naming :=
  Nat.le_trans (h key) (capacity_le_slots config)

theorem WithinCapacity.count_eq (h : WithinCapacity config keys)
    (hbad : ¬ WithinCapacity config (keys ++ [key]))
    : keys.count key = capacity config := by
  unfold WithinCapacity at hbad
  rw [not_forall] at hbad
  obtain ⟨key', hcount⟩ := hbad
  have hle := h key'
  rw [List.count_append, List.count_singleton] at hcount
  split at hcount
  . next heq =>
    rw [eq_of_beq heq]
    omega
  . omega

theorem Inv.artifactName_mem_iff_lt (h : Inv T config day l keys written)
    (hretention : config.maxRotatedFiles = 0) (hwithin : WithinCapacity config keys)
    (hkey : ValidKey config.naming key) (hn : n < slots config.naming)
    : artifactName config (T.toIso8601Date day) key n ∈ l.dir ↔ n < keys.count key := by
  rw [h.artifactName_mem_iff hwithin.count_le hkey hn, kept_eq hretention, mem_numbered]

theorem Inv.next_slot (h : Inv T config day l keys written)
    (hcompress : config.compress ≠ .externalCmd) (hretention : config.maxRotatedFiles = 0)
    (hkey : ValidKey config.naming key) (hgood : WithinCapacity config (keys ++ [key]))
    : keys.count key < slots config.naming ∧
      (∀ i < keys.count key, slotName config (T.toIso8601Date day) key i ∈ l.dir) ∧
      slotName config (T.toIso8601Date day) key (keys.count key) ∉ l.dir ∧
      artifactName config (T.toIso8601Date day) key (keys.count key) ∉ l.dir := by
  have hslots := capacity_le_slots config
  have hlt : keys.count key < capacity config := by
    have := hgood key
    rw [List.count_append, List.count_singleton_self] at this
    omega
  have hnew : artifactName config (T.toIso8601Date day) key (keys.count key) ∉ l.dir := by
    rw [h.artifactName_mem_iff_lt hretention hgood.front hkey (by omega)]
    omega
  by_cases hnone : config.compress = .none
  . rw [artifactName_of_none _ _ hnone] at hnew
    refine ⟨by omega, ?_, hnew, by rwa [artifactName_of_none _ _ hnone]⟩
    intro i hi
    rw [← artifactName_of_none _ _ hnone,
      h.artifactName_mem_iff_lt hretention hgood.front hkey (by omega)]
    exact hi
  . -- A compressed file is the only one of its time part.
    have hone := capacity_of_ne_none hnone
    exact ⟨by omega, by omega, h.slotName_not_mem (suffix_ne_nil hnone hcompress) _ _, hnew⟩

theorem keepsInv_withinCapacity (hdated : T.Dated day) (hdays : 0 ≤ config.autoDeleteDays)
    (hcompress : config.compress ≠ .externalCmd) (hretention : config.maxRotatedFiles = 0)
    : KeepsInv T config day (WithinCapacity config) := by
  intro l keys written call h hday hrotates hgood
  have hkey := validKey_rotationKey T config.naming call.tsMs
  obtain ⟨hlt, htaken, hfree, hnew⟩ := h.next_slot hcompress hretention hkey hgood
  obtain ⟨content, dir, hwritten, hdir, hnext⟩ := h.writeLog_rotate hdated hdays hcompress hday
    hrotates (makeRotatedName_eq rfl htaken hfree hlt) hfree hnew
  obtain ⟨l', hok, hconfig, hdate, hfile, hsize, hrotated, hlists⟩ :=
    hnext _ (fun _ hfile => hfile) (by rwa [retained_eq hretention])
  refine ⟨l', hok, h.concat hkey hwritten hconfig hdate hfile hrotated ?_, hsize⟩
  rw [kept_eq hretention] at hlists ⊢
  rw [hrotated]
  exact hlists

section

variable (h : Inv T config day l keys written) (hcompress : config.compress ≠ .externalCmd)
  (hretention : config.maxRotatedFiles = 0)

include h hcompress hretention

theorem Inv.mem_of_full (hwithin : WithinCapacity config keys)
    (hkey : rotationKey T config.naming tsMs = key) (hcount : keys.count key = capacity config)
    (hmake : makeRotatedName config (T.toIso8601Date day) l.dir T tsMs = some name)
    : name ++ config.compress.suffix ∈ l.rotated.keys := by
  by_cases hnone : config.compress = .none
  . -- All names are taken.
    have hfull : makeRotatedName config (T.toIso8601Date day) l.dir T tsMs = none := by
      apply makeRotatedName_eq_none hkey
      intro i hi
      rw [← artifactName_of_none _ _ hnone, h.artifactName_mem_iff_lt hretention hwithin ?_ hi,
        hcount, capacity_of_none hnone]
      . exact hi
      . rw [← hkey]
        exact validKey_rotationKey T config.naming tsMs
    rw [hfull] at hmake
    contradiction
  . -- The search finds the first name again.
    rw [capacity_of_ne_none hnone] at hcount
    have hfirst : makeRotatedName config (T.toIso8601Date day) l.dir T tsMs
        = some (slotName config (T.toIso8601Date day) key 0) := by
      apply makeRotatedName_eq hkey
      . intro i hi
        omega
      . exact h.slotName_not_mem (suffix_ne_nil hnone hcompress) key 0
      . have := capacity_le_slots config
        rw [capacity_of_ne_none hnone] at this
        omega
    rw [hfirst] at hmake
    cases hmake
    rw [h.names_eq]
    exact List.mem_map.mpr ⟨(key, 0), mem_numbered.mpr (by omega), rfl⟩

theorem Inv.not_nodup_of_full (hday : T.startOfDay (T.msToSec call.timestampMs) = day)
    (hrotates : rotates config l.currentFileSize call) (hwithin : WithinCapacity config keys)
    (hcount : keys.count (rotationKey T config.naming call.tsMs) = capacity config)
    (hok : writeLog T l call = .ok l')
    : ¬ l'.rotated.keys.Nodup := by
  have hconfig := h.config_eq
  subst hconfig
  have hdate := h.date_eq
  subst hdate
  rw [writeLog_eq hday, if_pos hrotates] at hok
  cases hrotate : rotateCurrentFile T l call.tsMs with rw [hrotate] at hok
  | error e => contradiction
  | ok rotated =>
    cases hok
    obtain ⟨name, content, hmake, hrotated⟩ := rotateCurrentFile_rotated hrotate
    have hmem := h.mem_of_full hcompress hretention hwithin rfl hcount hmake
    rw [writeMessage_rotated, hrotated]
    unfold List.keys at hmem ⊢
    rw [List.map_append, List.nodup_append]
    intro hnodup
    exact hnodup.2.2 _ hmem _ (List.mem_singleton_self _) rfl

end

theorem Inv.lossless (h : Inv T config day l keys (calls.flatMap Call.line))
    (hretention : config.maxRotatedFiles = 0)
    : Lossless T l calls := by
  obtain ⟨content, hlists, hwritten⟩ := h.files
  rw [kept_eq hretention] at hlists
  constructor
  case distinct => exact (List.nodupKeys_cons.mp hlists.nodupKeys).2
  case content =>
    rw [h.date_eq, hlists.lookup_eq (List.mem_cons_self ..), ← hwritten]
    congr 1
    apply List.flatMap_congr
    intro file hfile
    rw [hlists.lookup_eq (List.mem_cons_of_mem _ hfile)]
    rfl

theorem not_nodup_of_violates (h : Violates T config day (WithinCapacity config) l calls all)
    (hcompress : config.compress ≠ .externalCmd) (hretention : config.maxRotatedFiles = 0)
    (hcalls : ∀ call ∈ calls, T.startOfDay (T.msToSec call.timestampMs) = day)
    (hrun : writeLogs T l calls = .ok l')
    : ¬ l'.rotated.keys.Nodup := by
  obtain ⟨front, call, back, l₁, keys, written, rfl, hfront, h₁, hwithin, hrotates, hbad, _⟩ := h
  obtain ⟨l₂, hfront₂, hback⟩ := writeLogs_append hrun
  rw [hfront] at hfront₂
  cases hfront₂
  obtain ⟨l₃, hcall, hrest⟩ := writeLogs_cons hback
  intro hnodup
  apply h₁.not_nodup_of_full hcompress hretention (hcalls call (by simp)) hrotates hwithin
    (hwithin.count_eq hbad) hcall
  exact hnodup.sublist ((writeLogs_rotated hrest).sublist.map Sigma.fst)

theorem rotation_lossless_iff (T : TimeShield) (config : Config) (day start : Nat)
    (calls : List Call) (hdated : T.Dated day) (hcompress : config.compress ≠ .externalCmd)
    (hretention : config.maxRotatedFiles = 0) (hdays : 0 ≤ config.autoDeleteDays)
    (hstart : T.startOfDay (T.msToSec start) = day)
    (hcalls : ∀ call ∈ calls, T.startOfDay (T.msToSec call.timestampMs) = day)
    : (∃ l, writeLogs T (startLogging T config start) calls = .ok l ∧ Lossless T l calls) ↔
        ∀ key, (rotationKeys T config 0 calls).count key ≤ capacity config := by
  obtain ⟨hinit, hsize⟩ := Inv.start config hdated hdays hstart
  have hkeeps := keepsInv_withinCapacity hdated hdays hcompress hretention
  have hall := hinit.writeLogs hdated hdays hcalls hkeeps (fun _ => Nat.zero_le _)
  rw [hsize] at hall
  constructor
  . rintro ⟨l, hrun, hlossless⟩
    cases hall with
    | inl hkept => exact hkept.choose_spec.2.2
    | inr hviolates =>
      exact absurd hlossless.distinct
        (not_nodup_of_violates hviolates hcompress hretention hcalls hrun)
  . intro hwithin
    obtain ⟨l, hrun, h, _⟩ := hall.resolve_right (fun hviolates => hviolates.not_good
      (fun _ _ hgood => hgood.front) hwithin)
    exact ⟨l, hrun, h.lossless hretention⟩

theorem rotation_lossless_timestamp
    : ∃ l, writeLogs .gregorian (startLogging .gregorian
          { maxFileSizeBytes := 2, compress := .gzip, naming := .timestamp } 1704067200000)
          [⟨[65], 1704067200000, 1704067200000⟩, ⟨[66], 1704067201000, 1704067201000⟩,
            ⟨[67], 1704067202000, 1704067202000⟩] = .ok l ∧
        Lossless .gregorian l
          [⟨[65], 1704067200000, 1704067200000⟩, ⟨[66], 1704067201000, 1704067201000⟩,
            ⟨[67], 1704067202000, 1704067202000⟩] := by
  apply (rotation_lossless_iff .gregorian _ 1704067200 1704067200000 _ ?_ (by decide) rfl
    (by decide) rfl (by decide)).mpr
  . exact List.nodup_iff_count_le_one.mp (by decide +kernel)
  . exact ⟨by decide +kernel, by decide +kernel⟩

theorem rotation_loses_message
    : ∃ l, writeLogs .gregorian (startLogging .gregorian
          { maxFileSizeBytes := 2, compress := .gzip } 1704067200000)
          [⟨[65], 1704067200000, 1704067200000⟩, ⟨[66], 1704067201000, 1704067201000⟩,
            ⟨[67], 1704067202000, 1704067202000⟩] = .ok l ∧
        l.dir.entries = [⟨"2024-01-01.log".toList, [67, 10]⟩,
          ⟨"2024-01-01.001.log.gz".toList, [66, 10]⟩] ∧
        ¬ Lossless .gregorian l
          [⟨[65], 1704067200000, 1704067200000⟩, ⟨[66], 1704067201000, 1704067201000⟩,
            ⟨[67], 1704067202000, 1704067202000⟩] := by
  obtain ⟨l, hrun, hfiles, hnames⟩ : ∃ l, writeLogs .gregorian (startLogging .gregorian
      { maxFileSizeBytes := 2, compress := .gzip } 1704067200000)
      [⟨[65], 1704067200000, 1704067200000⟩, ⟨[66], 1704067201000, 1704067201000⟩,
        ⟨[67], 1704067202000, 1704067202000⟩] = .ok l ∧
      l.dir.entries = [⟨"2024-01-01.log".toList, [67, 10]⟩,
        ⟨"2024-01-01.001.log.gz".toList, [66, 10]⟩] ∧
      ¬ l.rotated.keys.Nodup := by
    apply exists_ok
    decide +kernel
  exact ⟨l, hrun, hfiles, fun hlossless => hnames hlossless.distinct⟩

end LogIt.FileLogger
