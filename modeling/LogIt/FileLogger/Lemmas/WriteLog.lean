import LogIt.FileLogger.Lemmas.Writer

namespace LogIt.FileLogger
namespace Writer

open TimeShield Option Fallible

variable {T : TimeShield} {C : Calendar} {settings : Settings} {write : Write} {w w' v : Writer}

def finishWrite (T : TimeShield) (C : Calendar) (settings : Settings) (write : Write) : WriterM Unit := do
  let w ← get
  if write.rotates settings w.currentFileSize then
    rotateCurrentFile T C settings write
  modify (writeMessage write)
  modify (removeOldLogs C settings)

def switched (C : Calendar) (write : Write) (w : Writer) : Writer :=
  if C.dayOf write.timestampMs ≠ w.currentDateTs then
    opened C { w with file := none, currentDateTs := C.dayOf write.timestampMs }
  else
    w

theorem wp_writeLog {Q : Unit → Writer → Prop} {E : WriteFailure → Writer → Prop}
    : (writeLog T C settings write).wp Q E w ↔
        if C.dayOf write.timestampMs ≠ w.currentDateTs ∧ write.faults.openFails = true then
          E .openFailed { w with file := none, currentDateTs := C.dayOf write.timestampMs }
        else
          (finishWrite T C settings write).wp Q E (switched C write w) := by
  have heq : writeLog T C settings write = (do
      let w ← get
      if C.dayOf write.timestampMs ≠ w.currentDateTs then
        openLogFile C write.faults.openFails (C.dayOf write.timestampMs)
      finishWrite T C settings write) := rfl
  rw [heq, wp_bind, wp_get]
  unfold switched
  by_cases hday : C.dayOf write.timestampMs ≠ w.currentDateTs
  . rw [if_pos hday, if_pos hday, wp_bind, wp_openLogFile]
    simp only [hday, ne_eq, not_false_eq_true, true_and]
  . rw [if_neg hday, if_neg hday, if_neg (fun h => hday h.1)]

inductive Outcome (C : Calendar) (settings : Settings) (write : Write) (v w' : Writer) : Prop where
  | dropped (hfile : v.file = none) (hsize : ¬ write.rotates settings v.currentFileSize)
      (hfile' : w'.file = none)
      (hlookup : w'.dir.lookup (createFilePath C v.currentDateTs)
        = v.dir.lookup (createFilePath C v.currentDateTs))
      (hrotated : w'.rotated = v.rotated)
  | appended {content : List UInt8} (hopen : Open C v content)
      (hsize : ¬ write.rotates settings v.currentFileSize)
      (hopen' : Open C w' (content ++ write.line)) (hrotated : w'.rotated = v.rotated)
  | rotated {content : List UInt8} {name : Name}
      (hfound : v.dir.lookup (createFilePath C v.currentDateTs) = some content)
      (hsize : write.rotates settings v.currentFileSize) (hopen' : Open C w' write.line)
      (hrotated : w'.rotated = v.rotated ++ [⟨name, content⟩])

theorem finishWrite_spec (T : TimeShield) (write : Write) (hdated : C.Dated v.currentDateTs)
    (hdays : 0 ≤ settings.autoDeleteDays) (hcmd : settings.CommandKeeps)
    (hisOpen : v.file ≠ none → ∃ content, Open C v content)
    : (finishWrite T C settings write).wp
        (fun _ w' => Outcome C settings write v w' ∧ Frame (createFilePath C v.currentDateTs) v w')
        (fun e w' => w'.file = none ∧ w'.currentDateTs = v.currentDateTs ∧ w'.queued = v.queued ∧
          (write.faults = {} →
            v.dir.lookup (createFilePath C v.currentDateTs) ≠ none → e = .noFreeName)) v := by
  unfold finishWrite
  rw [wp_bind, wp_get]
  split
  . next hsize =>
    rw [wp_bind]
    apply (rotateCurrentFile_spec T write hcmd (not_derived_createFilePath hdated)).mono
    . intro _ w₁ hrotated
      rw [wp_bind, wp_modify, wp_modify]
      obtain ⟨name, content, hfound, hnew⟩ := hrotated.rotated
      obtain ⟨hopen, hframe, hsame⟩ := hrotated.isOpen.writeMessage write
      have hdate := hrotated.frame.date
      have hdate' := hframe.date
      rw [hdate] at hframe hdate'
      refine ⟨.rotated hfound hsize (hopen.removeOldLogs (by rw [hdate']; exact hdated) hdays)
        (hsame.trans hnew), ?_⟩
      exact (hrotated.frame.trans hframe).trans (frame_removeOldLogs C settings _ _)
    . intro e w' h
      exact h
  . next hsize =>
    rw [wp_bind, wp_modify, wp_modify]
    by_cases hfile : v.file = none
    . have hnothing : writeMessage write v = v := by
        unfold writeMessage
        rw [hfile]
      rw [hnothing]
      exact ⟨.dropped hfile hsize hfile (lookup_removeOldLogs hdated hdays) rfl,
        frame_removeOldLogs C settings _ _⟩
    . obtain ⟨content, hopen⟩ := hisOpen hfile
      obtain ⟨hopen', hframe, hsame⟩ := hopen.writeMessage write
      refine ⟨.appended hopen hsize (hopen'.removeOldLogs (by rw [hframe.date]; exact hdated) hdays)
        hsame, ?_⟩
      exact hframe.trans (frame_removeOldLogs C settings _ _)

structure Inv (C : Calendar) (w : Writer) : Prop where
  dated : C.Dated w.currentDateTs
  isOpen : w.file ≠ none → ∃ content, Open C w content
  queued : ∀ src ∈ w.queued, Derived src

section

variable (C : Calendar) (write : Write) (w : Writer)

theorem currentDateTs_switched
    : (switched C write w).currentDateTs = C.dayOf write.timestampMs := by
  unfold switched
  split
  . rfl
  . next heq => exact (not_not.mp heq).symm

theorem frame_switched
    : ∀ other, other ≠ createFilePath C (C.dayOf write.timestampMs) →
        (switched C write w).dir.lookup other = w.dir.lookup other := by
  intro other hne
  unfold switched
  split
  . exact Directory.lookup_openAppend_ne hne
  . rfl

theorem switched_eq
    : (switched C write w).rotated = w.rotated ∧ (switched C write w).queued = w.queued := by
  unfold switched
  split
  . exact ⟨rfl, rfl⟩
  . exact ⟨rfl, rfl⟩

end

theorem switched_file (hfile : w.file ≠ none) : (switched C write w).file ≠ none := by
  unfold switched
  split
  . exact some_ne_none _
  . exact hfile

theorem Inv.switched (h : Inv C w) (hdated : C.Dated (C.dayOf write.timestampMs))
    : Inv C (switched C write w) := by
  constructor
  case dated =>
    rw [currentDateTs_switched]
    exact hdated
  case isOpen =>
    intro hfile
    unfold Writer.switched at hfile ⊢
    split
    . exact ⟨_, open_opened C _⟩
    . next heq =>
      rw [if_neg heq] at hfile
      exact h.isOpen hfile
  case queued =>
    rw [(switched_eq C write w).2]
    exact h.queued

def found (C : Calendar) (write : Write) (w : Writer) : List UInt8 :=
  (w.dir.lookup (createFilePath C (C.dayOf write.timestampMs))).getD []

theorem Open.eq_found (h : Open C (Writer.switched C write w) content)
    : content = found C write w := by
  have hlookup := h.lookup
  rw [currentDateTs_switched] at hlookup
  unfold found
  unfold Writer.switched at hlookup
  split at hlookup
  . have hopened := Directory.lookup_openAppend w.dir
      (createFilePath C (C.dayOf write.timestampMs))
    exact (some.inj (hopened.symm.trans hlookup)).symm
  . rw [hlookup]
    rfl

theorem writeLog_spec (T : TimeShield) (h : Inv C w) (hdated : C.Dated (C.dayOf write.timestampMs))
    (hdays : 0 ≤ settings.autoDeleteDays) (hcmd : settings.CommandKeeps)
    : (writeLog T C settings write).wp
        (fun _ w' => Outcome C settings write (switched C write w) w' ∧
          Frame (createFilePath C (C.dayOf write.timestampMs)) (switched C write w) w')
        (fun e w' => w'.file = none ∧ w'.currentDateTs = C.dayOf write.timestampMs ∧
          w'.queued = w.queued ∧ (write.faults = {} → w.file ≠ none → e = .noFreeName)) w := by
  have hswitched := h.switched hdated
  have hspec := finishWrite_spec T write hswitched.dated hdays hcmd hswitched.isOpen
  rw [currentDateTs_switched] at hspec
  rw [wp_writeLog]
  split
  . next hfails =>
    refine ⟨rfl, rfl, rfl, ?_⟩
    intro hfaults
    rw [hfaults] at hfails
    exact nomatch hfails.2
  . apply hspec.mono
    . exact fun _ _ h => h
    . rintro e w' ⟨hfile, hday, hqueued, herror⟩
      refine ⟨hfile, hday, hqueued.trans (switched_eq C write w).2, ?_⟩
      intro hfaults hopen
      apply herror hfaults
      obtain ⟨content, hopen⟩ := hswitched.isOpen (switched_file hopen)
      have hlookup := hopen.lookup
      rw [currentDateTs_switched] at hlookup
      rw [hlookup]
      exact some_ne_none content

section Runs

def Action.Dated (C : Calendar) (a : Action) : Prop :=
  match a with
  | .write write => C.Dated (C.dayOf write.timestampMs)
  | .compress _ => True

instance (C : Calendar) (a : Action) : Decidable (a.Dated C) :=
  match a with
  | .write write => inferInstanceAs (Decidable (C.Dated (C.dayOf write.timestampMs)))
  | .compress _ => isTrue trivial

variable {dir : Dir} {nowMs : Int} {fails : Bool}

theorem Outcome.isOpen (h : Outcome C settings write v w') (hfile : w'.file ≠ none)
    : ∃ content, Open C w' content := by
  cases h with
  | dropped _ _ hfile' => exact absurd hfile' hfile
  | appended _ _ hopen' | rotated _ _ hopen' => exact ⟨_, hopen'⟩

theorem Inv.writeLog (h : Inv C w) (hdated : C.Dated (C.dayOf write.timestampMs))
    (hdays : 0 ≤ settings.autoDeleteDays) (hcmd : settings.CommandKeeps)
    : Inv C ((writeLog T C settings write).exec w).2 := by
  have hspec := writeLog_spec T h hdated hdays hcmd
  obtain ⟨result, w', hexec⟩ : ∃ result w', (Writer.writeLog T C settings write).exec w = (result, w') :=
    ⟨_, _, rfl⟩
  rw [hexec]
  cases result with
  | ok _ =>
    obtain ⟨houtcome, hframe⟩ := hspec.ok hexec
    have hdate := hframe.date
    rw [currentDateTs_switched] at hdate
    refine ⟨by rw [hdate]; exact hdated, houtcome.isOpen, ?_⟩
    intro src hsrc
    cases hframe.queued src hsrc with
    | inl hmem => exact (h.switched hdated).queued src hmem
    | inr hderived => exact hderived
  | error e =>
    obtain ⟨hfile, hdate, hqueued, _⟩ := hspec.error hexec
    refine ⟨by rw [hdate]; exact hdated, fun hopen => absurd hfile hopen, ?_⟩
    rw [hqueued]
    exact h.queued

theorem Inv.compress (h : Inv C w) (hcmd : settings.CommandKeeps) {src : Name} {queued : List Name}
    (hqueued : w.queued = src :: queued) (fails : Bool)
    : Inv C { w with
        dir := if fails then w.dir else compressFile settings.toConfig src w.dir
        queued } := by
  have hsrc : Derived src := by
    apply h.queued
    rw [hqueued]
    exact List.mem_cons_self ..
  constructor
  case dated => exact h.dated
  case isOpen =>
    intro hfile
    obtain ⟨content, hopen⟩ := h.isOpen hfile
    refine ⟨content, hopen.file, ?_, hopen.size⟩
    dsimp only
    split
    . exact hopen.lookup
    . exact (lookup_compressFile hcmd hsrc (not_derived_createFilePath h.dated)).trans hopen.lookup
  case queued =>
    intro other hother
    apply h.queued
    rw [hqueued]
    exact List.mem_cons_of_mem _ hother

theorem Inv.step (h : Inv C w) (hdated : a.Dated C) (hdays : 0 ≤ settings.autoDeleteDays)
    (hcmd : settings.CommandKeeps) (hstep : step T C settings w a = some w')
    : Inv C w' := by
  cases a with
  | write write =>
    have hinv := h.writeLog (T := T) hdated hdays hcmd
    unfold Writer.step at hstep
    dsimp only at hstep
    split at hstep
    . contradiction
    . next hexec =>
      rw [hexec] at hinv
      rw [← some.inj hstep]
      exact hinv
  | compress fails =>
    unfold Writer.step at hstep
    dsimp only at hstep
    split at hstep
    . contradiction
    . next hqueued =>
      rw [← some.inj hstep]
      exact h.compress hcmd hqueued fails

theorem Inv.start (dir : Dir) (fails : Bool) (hdated : C.Dated (C.dayOf nowMs))
    (hdays : 0 ≤ settings.autoDeleteDays)
    : Inv C (startLogging C settings dir nowMs fails) := by
  cases fails with
  | true => exact ⟨hdated, fun hopen => absurd rfl hopen, nofun⟩
  | false =>
    have hopen := (open_opened C { dir, currentDateTs := C.dayOf nowMs }).removeOldLogs hdated hdays
    exact ⟨hdated, fun _ => ⟨_, hopen⟩, nofun⟩

theorem Inv.of_reachable (hdays : 0 ≤ settings.autoDeleteDays) (hcmd : settings.CommandKeeps)
    (hstart : C.Dated (C.dayOf nowMs))
    (hreach : (system T C settings dir nowMs fails).ReachableVia (fun _ a => a.Dated C) w)
    : Inv C w := by
  apply hreach.invariant (Inv C)
  . exact Inv.start dir fails hstart hdays
  . intro w a w' _ hinv hdated hstep
    exact hinv.step hdated hdays hcmd hstep

end Runs

def Appended (C : Calendar) (write : Write) (w w' : Writer) : Prop :=
  w'.dir.lookup (createFilePath C (C.dayOf write.timestampMs))
    = some ((if w'.rotated = w.rotated then found C write w else []) ++ write.line)

theorem Outcome.appended_iff (h : Outcome C settings write (switched C write w) w')
    (hdate : w'.currentDateTs = C.dayOf write.timestampMs)
    : Appended C write w w' ↔
        (switched C write w).file ≠ none ∨
          write.rotates settings (switched C write w).currentFileSize := by
  unfold Appended
  cases h with
  | dropped hfile hsize _ hlookup hrotated =>
    have hsame : switched C write w = w := by
      apply if_neg
      intro hday
      unfold switched at hfile
      rw [if_pos hday] at hfile
      contradiction
    constructor
    . intro happended
      exfalso
      rw [currentDateTs_switched, hsame] at hlookup
      rw [if_pos (hrotated.trans (switched_eq C write w).1), hlookup] at happended
      have hfound : found C write w = found C write w ++ write.line := by
        conv => lhs; unfold found
        rw [happended]
        rfl
      have hlength := congrArg List.length hfound
      simp [Write.line] at hlength
    . rintro (hopen | hrotates)
      . exact absurd hfile hopen
      . exact absurd hrotates hsize
  | appended hopen hsize hopen' hrotated =>
    refine ⟨fun _ => .inl ?_, fun _ => ?_⟩
    . rw [hopen.file]
      exact some_ne_none _
    . have hlookup := hopen'.lookup
      rw [hdate, hopen.eq_found] at hlookup
      rw [if_pos (hrotated.trans (switched_eq C write w).1), hlookup]
  | rotated hfound hsize hopen' hrotated =>
    refine ⟨fun _ => .inr hsize, fun _ => ?_⟩
    have hlookup := hopen'.lookup
    rw [hdate] at hlookup
    have hne : w'.rotated ≠ w.rotated := by
      rw [hrotated, (switched_eq C write w).1]
      simp
    rw [if_neg hne, hlookup]
    rfl

theorem returned_write_appends_iff (T : TimeShield) (C : Calendar) (settings : Settings) (dir : Dir)
    (nowMs : Int) (fails : Bool) (w w' : Writer) (write : Write)
    (hdays : 0 ≤ settings.autoDeleteDays) (hcmd : settings.CommandKeeps)
    (hstart : C.Dated (C.dayOf nowMs))
    (hreach : (system T C settings dir nowMs fails).ReachableVia (fun _ a => a.Dated C) w)
    (hdated : C.Dated (C.dayOf write.timestampMs))
    (hreturns : (writeLog T C settings write).exec w = (.ok (), w'))
    : Appended C write w w' ↔
        w.file ≠ none ∨ C.dayOf write.timestampMs ≠ w.currentDateTs ∨
          write.rotates settings w.currentFileSize := by
  have hinv := Inv.of_reachable hdays hcmd hstart hreach
  obtain ⟨houtcome, hframe⟩ := (writeLog_spec T hinv hdated hdays hcmd).ok hreturns
  rw [houtcome.appended_iff (hframe.date.trans (currentDateTs_switched C write w))]
  by_cases hday : C.dayOf write.timestampMs ≠ w.currentDateTs
  . have hopen : (switched C write w).file ≠ none := by
      unfold switched
      rw [if_pos hday]
      exact some_ne_none _
    exact ⟨fun _ => .inr (.inl hday), fun _ => .inl hopen⟩
  . have hsame : switched C write w = w := if_neg hday
    rw [hsame]
    refine or_congr_right ?_
    exact ⟨.inr, fun h => h.resolve_left hday⟩

def letter (timestampMs : Int) (faults : Faults) : Write where
  message := [65]
  timestampMs
  tsMs := 0
  faults

theorem returned_write_appends_first
    : ∃ w', (writeLog TimeShield.gregorian TimeShield.gregorian.calendar {} (letter 5000 {})).exec
          (system TimeShield.gregorian TimeShield.gregorian.calendar {} ∅ 0 false).init = (.ok (), w') ∧
        Appended TimeShield.gregorian.calendar (letter 5000 {})
          (system TimeShield.gregorian TimeShield.gregorian.calendar {} ∅ 0 false).init w' := by
  have hexec := exec_eq_ok (show ((writeLog gregorian
    gregorian.calendar {} (letter 5000 {})).exec
      (system gregorian gregorian.calendar {} ∅ 0 false).init).1.toOption
        = some () by decide +kernel)
  refine ⟨_, hexec, ?_⟩
  refine (returned_write_appends_iff gregorian _ {} ∅ 0 false _ _ _ (by decide)
    (fun _ _ _ _ => rfl) (by decide +kernel) .init (by decide +kernel) hexec).mpr (.inl ?_)
  exact some_ne_none _

theorem write_lost_after_failed_open
    : ∃ w, (system TimeShield.gregorian TimeShield.gregorian.calendar {} ∅ 0 false).ReachableVia
          (fun _ a => a.Dated TimeShield.gregorian.calendar) w ∧
        ((writeLog TimeShield.gregorian TimeShield.gregorian.calendar {}
          (letter 86400001 {})).exec w).1.toOption = some () ∧
        ((writeLog TimeShield.gregorian TimeShield.gregorian.calendar {}
          (letter 86400001 {})).exec w).2.dir.lookup "1970-01-02.log".toList = none := by
  apply (system gregorian gregorian.calendar {} ∅ 0 false).exists_reachableVia
    (fun _ a => a.Dated gregorian.calendar)
    [.write (letter 5000 {}), .write (letter 86400000 { openFails := true })]
  decide +kernel

section SizeLimit

def Action.Succeeds (C : Calendar) (a : Action) : Prop :=
  match a with
  | .write write => write.faults = {} ∧ C.Dated (C.dayOf write.timestampMs)
  | .compress _ => True

instance (C : Calendar) (a : Action) : Decidable (a.Succeeds C) :=
  match a with
  | .write write =>
    inferInstanceAs (Decidable (write.faults = {} ∧ C.Dated (C.dayOf write.timestampMs)))
  | .compress _ => isTrue trivial

variable {dir : Dir} {nowMs : Int}

theorem Action.Succeeds.dated {a : Action} (h : a.Succeeds C) : a.Dated C := by
  cases a with
  | write write => exact h.2
  | compress fails => trivial

theorem Outcome.file_ne_none (h : Outcome C settings write v w') (hfile : v.file ≠ none)
    : w'.file ≠ none := by
  cases h with
  | dropped hnone => exact absurd hnone hfile
  | appended _ _ hopen' | rotated _ _ hopen' =>
    rw [hopen'.file]
    exact some_ne_none _

structure Healthy (C : Calendar) (w : Writer) : Prop extends Inv C w where
  file_ne_none : w.file ≠ none

section

variable {a : Action} (h : Healthy C w) (hok : a.Succeeds C) (hdays : 0 ≤ settings.autoDeleteDays)
  (hcmd : settings.CommandKeeps) (hstep : step T C settings w a = some w')

include h hok hdays hcmd hstep

theorem Healthy.step_cases
    : (∃ write, a = .write write ∧ Outcome C settings write (switched C write w) w' ∧
        Frame (createFilePath C (C.dayOf write.timestampMs)) (switched C write w) w') ∨
      (∃ fails src queued, a = .compress fails ∧ w.queued = src :: queued ∧
        w' = { w with
          dir := if fails then w.dir else compressFile settings.toConfig src w.dir
          queued }) := by
  cases a with
  | write write =>
    left
    refine ⟨write, rfl, ?_⟩
    have hspec := writeLog_spec T h.toInv hok.2 hdays hcmd
    unfold step at hstep
    dsimp only at hstep
    cases hexec : (writeLog T C settings write).exec w with
    | mk result w₁ =>
      rw [hexec] at hstep
      cases result with
      | ok _ =>
        rw [← some.inj hstep]
        exact hspec.ok hexec
      | error e =>
        obtain ⟨_, _, _, herror⟩ := hspec.error hexec
        rw [herror hok.1 h.file_ne_none] at hstep
        contradiction
  | compress fails =>
    right
    unfold step at hstep
    dsimp only at hstep
    cases hqueued : w.queued with rw [hqueued] at hstep
    | nil => contradiction
    | cons src queued => exact ⟨fails, src, queued, rfl, rfl, (some.inj hstep).symm⟩

theorem Healthy.step : Healthy C w' := by
  refine ⟨h.toInv.step hok.dated hdays hcmd hstep, ?_⟩
  obtain ⟨write, _, houtcome, _⟩ | ⟨fails, src, queued, _, _, rfl⟩ :=
    h.step_cases hok hdays hcmd hstep
  . exact houtcome.file_ne_none (switched_file h.file_ne_none)
  . exact h.file_ne_none

end

theorem Healthy.start (dir : Dir) (hstart : C.Dated (C.dayOf nowMs))
    (hdays : 0 ≤ settings.autoDeleteDays)
    : Healthy C (startLogging C settings dir nowMs false) :=
  ⟨Inv.start dir false hstart hdays, some_ne_none _⟩

theorem Healthy.of_reachable (hdays : 0 ≤ settings.autoDeleteDays) (hcmd : settings.CommandKeeps)
    (hstart : C.Dated (C.dayOf nowMs))
    (hreach : (system T C settings dir nowMs false).ReachableVia (fun _ a => a.Succeeds C) w)
    : Healthy C w := by
  apply hreach.invariant (Healthy C)
  . exact Healthy.start dir hstart hdays
  . intro w a w' _ hinv hok hstep
    exact hinv.step hok hdays hcmd hstep

theorem Open.toNat_size (h : Open C w content) (hlength : content.length < 2 ^ 64)
    : w.currentFileSize.toNat = content.length := by
  rw [h.size]
  exact UInt64.toNat_ofNat_of_lt' hlength

theorem Open.length_le (h : Open C w content) (hlimit : 0 < settings.maxFileSizeBytes)
    (hsize : ¬ write.rotates settings w.currentFileSize)
    (hlength : (content ++ write.line).length < 2 ^ 64)
    : (content ++ write.line).length ≤ settings.maxFileSizeBytes.toNat := by
  unfold Write.rotates Write.add at hsize
  rw [h.size, ← UInt64.ofNat_add, not_and] at hsize
  have hle := UInt64.le_iff_toNat_le.mp (UInt64.not_lt.mp (hsize hlimit))
  have hline : (content ++ write.line).length = content.length + (write.message.length + 1) := by
    simp [Write.line]
  rw [hline] at hlength ⊢
  rw [UInt64.toNat_ofNat_of_lt' hlength] at hle
  exact hle

theorem size_limit_respected (T : TimeShield) (C : Calendar) (settings : Settings) (dir : Dir)
    (nowMs : Int) (w : Writer) (write : Write) (hlimit : 0 < settings.maxFileSizeBytes)
    (hdays : 0 ≤ settings.autoDeleteDays) (hcmd : settings.CommandKeeps)
    (hstart : C.Dated (C.dayOf nowMs))
    (hreach : (system T C settings dir nowMs false).ReachableVia (fun _ a => a.Succeeds C) w)
    (hok : (Action.write write).Succeeds C)
    : (writeLog T C settings write).wp
        (fun _ w' => ∃ content, w'.file = some (createFilePath C w'.currentDateTs) ∧
          w'.dir.lookup (createFilePath C w'.currentDateTs) = some content ∧
          (content.length < 2 ^ 64 →
            w'.currentFileSize.toNat = content.length ∧
            (content.length ≤ settings.maxFileSizeBytes.toNat ∨ content = write.line)))
        (fun e _ => e = .noFreeName) w := by
  have hhealthy := Healthy.of_reachable hdays hcmd hstart hreach
  apply (writeLog_spec T hhealthy.toInv hok.2 hdays hcmd).mono
  . rintro _ w' ⟨houtcome, _⟩
    cases houtcome with
    | dropped hfile => exact absurd hfile (switched_file hhealthy.file_ne_none)
    | appended hopen hsize hopen' =>
      refine ⟨_, hopen'.file, hopen'.lookup, ?_⟩
      intro hlength
      exact ⟨hopen'.toNat_size hlength, .inl (hopen.length_le hlimit hsize hlength)⟩
    | rotated _ _ hopen' =>
      refine ⟨_, hopen'.file, hopen'.lookup, ?_⟩
      intro hlength
      exact ⟨hopen'.toNat_size hlength, .inr rfl⟩
  . rintro e _ ⟨_, _, _, herror⟩
    exact herror hok.1 hhealthy.file_ne_none

theorem size_limit_respected_three_letters
    : ∃ w w' content, (system TimeShield.gregorian TimeShield.gregorian.calendar
            { maxFileSizeBytes := 3 } ∅ 0 false).ReachableVia
          (fun _ a => a.Succeeds TimeShield.gregorian.calendar) w ∧
        (writeLog TimeShield.gregorian TimeShield.gregorian.calendar { maxFileSizeBytes := 3 }
          (letter 7000 {})).exec w = (.ok (), w') ∧
        w'.dir.lookup "1970-01-01.log".toList = some content ∧
        w'.currentFileSize.toNat = content.length ∧ content.length ≤ 3 := by
  obtain ⟨w, hreach, hreturns, hdate, hlookup⟩ := (system gregorian
    gregorian.calendar { maxFileSizeBytes := 3 } ∅ 0 false).exists_reachableVia
      (fun _ a => a.Succeeds gregorian.calendar)
      (P := fun w =>
        ((writeLog gregorian gregorian.calendar { maxFileSizeBytes := 3 }
          (letter 7000 {})).exec w).1.toOption = some () ∧
        createFilePath gregorian.calendar
          ((writeLog gregorian gregorian.calendar { maxFileSizeBytes := 3 }
            (letter 7000 {})).exec w).2.currentDateTs = "1970-01-01.log".toList ∧
        ((writeLog gregorian gregorian.calendar { maxFileSizeBytes := 3 }
          (letter 7000 {})).exec w).2.dir.lookup "1970-01-01.log".toList = some [65, 10])
      [.write (letter 5000 {}), .write (letter 6000 {})] (by decide +kernel)
  have hexec := exec_eq_ok hreturns
  obtain ⟨content, _, hcontent, hsize⟩ := (size_limit_respected gregorian
    gregorian.calendar { maxFileSizeBytes := 3 } ∅ 0 w (letter 7000 {}) (by decide)
    (by decide) (fun _ _ _ _ => rfl) (by decide +kernel) hreach (by decide +kernel)).ok hexec
  rw [hdate, hlookup] at hcontent
  rw [← some.inj hcontent] at hsize
  exact ⟨w, _, _, hreach, hexec, hlookup, (hsize (by decide)).1, by decide⟩

end SizeLimit
end Writer
end LogIt.FileLogger
