import LogIt.FileLogger.Impl.Writer
import LogIt.FileLogger.Lemmas.Rotation
import LogIt.FileLogger.Lemmas.ValidNames

namespace LogIt.FileLogger

open List Fallible

def Derived (name : Name) : Prop :=
  '_' ∈ name ∨ 2 ≤ name.count '.'

instance (name : Name) : Decidable (Derived name) :=
  inferInstanceAs (Decidable (_ ∨ _))

theorem Derived.append (h : Derived name) (suffix : Name) : Derived (name ++ suffix) := by
  cases h with
  | inl h => exact .inl (mem_append_left _ h)
  | inr h =>
    right
    rw [count_append]
    omega

theorem not_derived_createFilePath (hdated : C.Dated day)
    : ¬ Derived (Writer.createFilePath C day) := by
  have hplain : ∀ c, c.isDigit = false → c ≠ '-' → c ∉ C.date day := by
    intro c hdigit hhyphen hc
    cases hdated.plain c hc with
    | inl h =>
      rw [hdigit] at h
      contradiction
    | inr h => exact hhyphen h
  unfold Derived Writer.createFilePath
  rw [mem_append, count_append, count_eq_zero_of_not_mem (hplain '.' rfl (by decide))]
  have hsuffix : '_' ∉ logSuffix ∧ logSuffix.count '.' = 1 := by decide
  rw [hsuffix.2]
  rintro ((h | h) | h)
  . exact hplain '_' rfl (by decide) h
  . exact hsuffix.1 h
  . omega

theorem derived_sequenceName (seqWidth : UInt32) (base : Name) (idx : UInt32)
    : Derived (sequenceName seqWidth base idx) := by
  right
  unfold sequenceName logSuffix
  rw [count_append, count_append, count_cons, count_cons]
  simp
  omega

theorem derived_makeRotatedName (h : makeRotatedName config base dir T tsMs = some rotated)
    : Derived rotated := by
  unfold makeRotatedName at h
  split at h
  . unfold makeSequenceName at h
    obtain ⟨idx, _, rfl⟩ := Option.map_eq_some_iff.mp h
    exact derived_sequenceName _ _ _
  all_goals
    unfold makeTimestampName at h
    dsimp only at h
    left
    split at h
    . obtain ⟨idx, _, rfl⟩ := Option.map_eq_some_iff.mp h
      simp [timestampIdxName]
    . rw [Option.some.injEq] at h
      rw [← h]
      simp [timestampName]

def Settings.CommandKeeps (settings : Settings) : Prop :=
  ∀ src dir name, ¬ Derived name → (settings.externalCmd src dir).lookup name = dir.lookup name

section Lookup

variable {config : Config} {base name src : Name} {dir : Dir}

theorem lookup_replace (hsrc : Derived src) (hdst : Derived dst) (hname : ¬ Derived name)
    : (compressFile.replace src dir dst).lookup name = dir.lookup name := by
  have hne : ∀ other, Derived other → name ≠ other := by
    rintro other hother rfl
    exact hname hother
  unfold compressFile.replace
  dsimp only
  cases hcopy : dir.copy src (dst ++ tmpSuffix) with
  | none => exact Directory.lookup_remove_ne (hne _ (hdst.append _))
  | some copied =>
    have hcopied := Directory.lookup_copy_ne hcopy (hne _ (hdst.append _))
    dsimp only
    cases hrename : copied.rename (dst ++ tmpSuffix) dst with dsimp only
    | none => rw [Directory.lookup_remove_ne (hne _ (hdst.append _)), hcopied]
    | some renamed =>
      rw [Directory.lookup_remove_ne (hne _ hsrc),
        Directory.lookup_rename_ne hrename (hne _ (hdst.append _)) (hne _ hdst), hcopied]

theorem lookup_compressFile {settings : Settings} (hcmd : settings.CommandKeeps) (hsrc : Derived src)
    (hname : ¬ Derived name)
    : (compressFile settings.toConfig src dir).lookup name = dir.lookup name := by
  unfold compressFile
  cases settings.compress with
  | none => rfl
  | externalCmd => exact hcmd src dir name hname
  | gzip | zstd => exact lookup_replace hsrc (hsrc.append _) hname

theorem lookup_enforceRotationRetention (base : Name) (maxFiles : Nat) (dir : Dir)
    : (enforceRotationRetention base maxFiles dir).lookup (base ++ logSuffix)
        = dir.lookup (base ++ logSuffix) := by
  unfold enforceRotationRetention
  dsimp only
  split
  . rfl
  . apply Directory.lookup_foldl_remove
    intro hmem
    have hmem := mem_of_mem_take hmem
    rw [mem_insertionSort, mem_filter] at hmem
    simp at hmem

theorem lookup_enforceRotationRetention_or (base : Name) (maxFiles : Nat) (dir : Dir) (name : Name)
    : (enforceRotationRetention base maxFiles dir).lookup name = dir.lookup name ∨
        (enforceRotationRetention base maxFiles dir).lookup name = none := by
  unfold enforceRotationRetention
  dsimp only
  split
  . exact .inl rfl
  . exact Directory.lookup_foldl_remove_or _

end Lookup

namespace Writer

variable {T : TimeShield} {C : Calendar} {settings : Settings} {write : Write} {w w' : Writer}

structure Open (C : Calendar) (w : Writer) (content : List UInt8) : Prop where
  file : w.file = some (createFilePath C w.currentDateTs)
  lookup : w.dir.lookup (createFilePath C w.currentDateTs) = some content
  size : w.currentFileSize = UInt64.ofNat content.length

structure Frame (name : Name) (w w' : Writer) : Prop where
  date : w'.currentDateTs = w.currentDateTs
  others : ∀ other, ¬ Derived other → other ≠ name →
    w'.dir.lookup other = w.dir.lookup other ∨ w'.dir.lookup other = none
  queued : ∀ src ∈ w'.queued, src ∈ w.queued ∨ Derived src

theorem Frame.refl (name : Name) (w : Writer) : Frame name w w where
  date := rfl
  others _ _ _ := .inl rfl
  queued _ := .inl

theorem Frame.trans (h : Frame name w w') (h' : Frame name w' w'') : Frame name w w'' where
  date := h'.date.trans h.date
  others other hderived hne := by
    cases h'.others other hderived hne with
    | inl heq =>
      rw [heq]
      exact h.others other hderived hne
    | inr hnone => exact .inr hnone
  queued src hsrc := by
    cases h'.queued src hsrc with
    | inl hmem => exact h.queued src hmem
    | inr hderived => exact .inr hderived

theorem open_opened (C : Calendar) (w : Writer)
    : Open C (opened C w) ((w.dir.lookup (createFilePath C w.currentDateTs)).getD []) := by
  have hlookup := Directory.lookup_openAppend w.dir (createFilePath C w.currentDateTs)
  refine ⟨rfl, hlookup, ?_⟩
  unfold opened
  dsimp only
  rw [hlookup]
  rfl

theorem wp_openLogFile {Q : Unit → Writer → Prop} {E : WriteFailure → Writer → Prop}
    : (openLogFile C fails day).wp Q E w ↔
        if fails = true then
          E .openFailed { w with file := none, currentDateTs := day }
        else
          Q () (opened C { w with file := none, currentDateTs := day }) := by
  unfold openLogFile
  rw [wp_bind, wp_modify, wp_ite]
  rfl

theorem lookup_compressRotated {fails : Bool} {rotated name : Name} (hcmd : settings.CommandKeeps)
    (hrotated : Derived rotated) (hname : ¬ Derived name)
    : (compressRotated settings fails rotated w).dir.lookup name = w.dir.lookup name := by
  unfold compressRotated
  split
  . rfl
  . split
    . rfl
    . split
      . rfl
      . exact lookup_compressFile hcmd hrotated hname

theorem compressRotated_eq (settings : Settings) (fails : Bool) (rotated : Name) (w : Writer)
    : (compressRotated settings fails rotated w).file = w.file ∧
      (compressRotated settings fails rotated w).currentDateTs = w.currentDateTs ∧
      (compressRotated settings fails rotated w).currentFileSize = w.currentFileSize ∧
      (compressRotated settings fails rotated w).rotated = w.rotated ∧
      ∀ src ∈ (compressRotated settings fails rotated w).queued, src ∈ w.queued ∨ src = rotated := by
  unfold compressRotated
  split
  . exact ⟨rfl, rfl, rfl, rfl, fun _ => .inl⟩
  . split
    . refine ⟨rfl, rfl, rfl, rfl, ?_⟩
      intro src hsrc
      simpa using hsrc
    . split
      . exact ⟨rfl, rfl, rfl, rfl, fun _ => .inl⟩
      . exact ⟨rfl, rfl, rfl, rfl, fun _ => .inl⟩

theorem frame_compressRotated {fails : Bool} {rotated : Name} (hcmd : settings.CommandKeeps)
    (hrotated : Derived rotated) (name : Name)
    : Frame name w (compressRotated settings fails rotated w) := by
  have heq := compressRotated_eq settings fails rotated w
  constructor
  case date => exact heq.2.1
  case others =>
    intro other hother _
    exact .inl (lookup_compressRotated hcmd hrotated hother)
  case queued =>
    intro src hsrc
    cases heq.2.2.2.2 src hsrc with
    | inl hmem => exact .inl hmem
    | inr hnew =>
      rw [hnew]
      exact .inr hrotated

theorem Open.compressRotated {content : List UInt8} {fails : Bool} {rotated : Name}
    (h : Open C w content) (hcmd : settings.CommandKeeps) (hrotated : Derived rotated)
    (hcurrent : ¬ Derived (createFilePath C w.currentDateTs))
    : Open C (compressRotated settings fails rotated w) content := by
  obtain ⟨hfile, hdate, hsize, _⟩ := compressRotated_eq settings fails rotated w
  constructor
  case file => rw [hfile, hdate, h.file]
  case lookup => rw [hdate, lookup_compressRotated hcmd hrotated hcurrent, h.lookup]
  case size => rw [hsize, h.size]

theorem frame_enforceRetention (C : Calendar) (settings : Settings) (name : Name) (w : Writer)
    : Frame name w (enforceRetention C settings w) := by
  unfold enforceRetention
  split
  . constructor
    case date => rfl
    case others =>
      intro other _ _
      exact lookup_enforceRotationRetention_or _ _ _ _
    case queued =>
      intro src
      exact .inl
  . exact Frame.refl _ _

theorem Open.enforceRetention (h : Open C w content) (settings : Settings)
    : Open C (enforceRetention C settings w) content := by
  unfold Writer.enforceRetention
  split
  . exact ⟨h.file, (lookup_enforceRotationRetention _ _ _).trans h.lookup, h.size⟩
  . exact h

theorem enforceRetention_rotated (C : Calendar) (settings : Settings) (w : Writer)
    : (enforceRetention C settings w).rotated = w.rotated := by
  unfold enforceRetention
  split <;> rfl

theorem frame_removeOldLogs (C : Calendar) (settings : Settings) (name : Name) (w : Writer)
    : Frame name w (removeOldLogs C settings w) where
  date := rfl
  others _ _ _ := Directory.lookup_foldl_remove_or _
  queued _ := .inl

theorem lookup_removeOldLogs (hdated : C.Dated w.currentDateTs) (hdays : 0 ≤ settings.autoDeleteDays)
    : (removeOldLogs C settings w).dir.lookup (createFilePath C w.currentDateTs)
        = w.dir.lookup (createFilePath C w.currentDateTs) := by
  apply Directory.lookup_foldl_remove
  intro hmem
  rw [mem_filter, Bool.and_eq_true, decide_eq_true_eq] at hmem
  obtain ⟨_, hvalid, hold⟩ := hmem
  unfold createFilePath at hvalid hold
  rw [hdated.ts_eq hvalid] at hold
  omega

theorem Open.removeOldLogs (h : Open C w content) (hdated : C.Dated w.currentDateTs)
    (hdays : 0 ≤ settings.autoDeleteDays)
    : Open C (removeOldLogs C settings w) content :=
  ⟨h.file, (lookup_removeOldLogs hdated hdays).trans h.lookup, h.size⟩

theorem Open.writeMessage (h : Open C w content) (write : Write)
    : Open C (writeMessage write w) (content ++ write.line) ∧
      Frame (createFilePath C w.currentDateTs) w (writeMessage write w) ∧
      (writeMessage write w).rotated = w.rotated := by
  unfold Writer.writeMessage
  rw [h.file]
  dsimp only
  refine ⟨⟨rfl, Directory.lookup_append h.lookup _, ?_⟩, ⟨rfl, ?_, fun _ => .inl⟩, rfl⟩
  . dsimp only
    unfold Write.add Write.line
    rw [h.size, ← UInt64.ofNat_add, length_append, length_append, length_singleton]
  . intro other _ hne
    exact .inl (Directory.lookup_append_ne hne _)

structure Rotated (C : Calendar) (w w' : Writer) : Prop where
  isOpen : Open C w' []
  frame : Frame (createFilePath C w.currentDateTs) w w'
  rotated : ∃ name content, w.dir.lookup (createFilePath C w.currentDateTs) = some content ∧
    w'.rotated = w.rotated ++ [⟨name, content⟩]

section

variable {fails : Bool} {rotated : Name}

theorem renamed_eq_some (h : w.renamed C fails rotated = some w')
    : ∃ dir content, w.dir.rename (createFilePath C w.currentDateTs) rotated = some dir ∧
        w.dir.lookup (createFilePath C w.currentDateTs) = some content ∧
        w' = { w with dir, rotated := w.rotated ++ [⟨rotated, content⟩] } := by
  unfold renamed at h
  dsimp only at h
  split at h
  . contradiction
  . obtain ⟨dir, hdir, rfl⟩ := Option.map_eq_some_iff.mp h
    obtain ⟨content, hcontent, _⟩ := Directory.rename_eq_some hdir
    refine ⟨dir, content, hdir, hcontent, ?_⟩
    rw [hcontent]
    rfl

theorem renamed_eq_none (h : w.renamed C fails rotated = none)
    : fails = true ∨ w.dir.lookup (createFilePath C w.currentDateTs) = none := by
  unfold renamed at h
  dsimp only at h
  split at h
  . next hfails => exact .inl hfails
  . rw [Option.map_eq_none_iff] at h
    exact .inr (Directory.rename_eq_none h)

theorem open_of_renamed (h : w.renamed C fails rotated = some w') (hrotated : Derived rotated)
    (hcurrent : ¬ Derived (createFilePath C w.currentDateTs))
    : Open C (opened C { w' with file := none, currentDateTs := w.currentDateTs }) [] ∧
      Frame (createFilePath C w.currentDateTs) w
        (opened C { w' with file := none, currentDateTs := w.currentDateTs }) := by
  obtain ⟨dir, content, hdir, _, rfl⟩ := renamed_eq_some h
  have hne : createFilePath C w.currentDateTs ≠ rotated := by
    intro heq
    rw [heq] at hcurrent
    exact hcurrent hrotated
  constructor
  . have hopen := open_opened C { w with
      dir
      file := none
      rotated := w.rotated ++ [⟨rotated, content⟩] }
    rw [Directory.lookup_rename_src hdir hne] at hopen
    exact hopen
  . refine ⟨rfl, ?_, fun _ => .inl⟩
    intro other hother hcur
    left
    have hrot : other ≠ rotated := by
      rintro rfl
      exact hother hrotated
    refine (Directory.lookup_openAppend_ne hcur).trans ?_
    exact Directory.lookup_rename_ne hdir hcur hrot

end

theorem rotateCurrentFile_spec (T : TimeShield) (write : Write) (hcmd : settings.CommandKeeps)
    (hcurrent : ¬ Derived (createFilePath C w.currentDateTs))
    : (rotateCurrentFile T C settings write).wp
        (fun _ w' => Rotated C w w')
        (fun e w' => w'.file = none ∧ w'.currentDateTs = w.currentDateTs ∧ w'.queued = w.queued ∧
          (write.faults = {} →
            w.dir.lookup (createFilePath C w.currentDateTs) ≠ none → e = .noFreeName)) w := by
  unfold rotateCurrentFile
  rw [wp_bind, wp_modify, wp_bind, wp_get]
  dsimp only
  cases hname : makeRotatedName settings.toConfig (C.date w.currentDateTs) w.dir T write.tsMs with
  | none => exact ⟨rfl, rfl, rfl, fun _ _ => rfl⟩
  | some rotated =>
    have hrotated := derived_makeRotatedName hname
    dsimp only
    cases hrenamed : ({ w with file := none } : Writer).renamed C write.faults.renameFails rotated with
    | none =>
      refine ⟨rfl, rfl, rfl, ?_⟩
      intro hfaults hfound
      cases renamed_eq_none hrenamed with
      | inl hfails =>
        rw [hfaults] at hfails
        contradiction
      | inr hmissing => contradiction
    | some w₁ =>
      obtain ⟨hopen, hframe⟩ := open_of_renamed hrenamed hrotated hcurrent
      obtain ⟨dir, content, _, hfound, hw₁⟩ := renamed_eq_some hrenamed
      dsimp only
      rw [wp_bind, wp_set, wp_bind, wp_openLogFile]
      split
      . next hfails =>
        rw [hw₁]
        refine ⟨rfl, rfl, rfl, ?_⟩
        intro hfaults
        rw [hfaults] at hfails
        contradiction
      . rw [wp_bind, wp_modify, wp_bind, wp_modify,
          wp_modify]
        -- The counter is set to 0, which it is already.
        have hzero : Open C { opened C { w₁ with file := none, currentDateTs := w.currentDateTs }
            with currentFileSize := 0 } [] := ⟨hopen.file, hopen.lookup, rfl⟩
        constructor
        case isOpen => exact (hzero.compressRotated hcmd hrotated hcurrent).enforceRetention settings
        case frame =>
          have hstart : Frame (createFilePath C w.currentDateTs) w
              { opened C { w₁ with file := none, currentDateTs := w.currentDateTs }
                with currentFileSize := 0 } := ⟨hframe.date, hframe.others, hframe.queued⟩
          exact (hstart.trans (frame_compressRotated hcmd hrotated _)).trans
            (frame_enforceRetention C settings _ _)
        case rotated =>
          refine ⟨rotated, content, hfound, ?_⟩
          rw [enforceRetention_rotated, (compressRotated_eq ..).2.2.2.1, hw₁]
          rfl

end Writer
end LogIt.FileLogger
