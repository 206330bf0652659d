import LogIt.FileLogger.Lemmas.WriteLog

namespace LogIt.FileLogger
namespace Writer

open TimeShield Option List

variable {T : TimeShield} {C : Calendar} {settings : Settings} {write : Write} {w w' : Writer}

section EmptyFiles

def HasMessage (content : List UInt8) : Prop :=
  ∃ messages : List (List UInt8), messages ≠ [] ∧ content = messages.flatMap (· ++ [10])

def RotatesEmpty (C : Calendar) (settings : Settings) (w : Writer) (a : Action) : Prop :=
  match a with
  | .write write => found C write w = [] ∧ write.rotates settings 0
  | .compress _ => False

def Lines (w : Writer) : Prop :=
  ∀ name, ¬ Derived name → ∀ content, w.dir.lookup name = some content →
    content = [] ∨ HasMessage content

variable {nowMs : Int} {a : Action}

theorem HasMessage.line (write : Write) : HasMessage write.line :=
  ⟨[write.message], cons_ne_nil _ _, by simp [Write.line]⟩

theorem HasMessage.append (hx : x = [] ∨ HasMessage x) (hy : HasMessage y)
    : HasMessage (x ++ y) := by
  cases hx with
  | inl hx =>
    rw [hx]
    exact hy
  | inr hx =>
    obtain ⟨front, hfront, rfl⟩ := hx
    obtain ⟨back, _, rfl⟩ := hy
    refine ⟨front ++ back, ?_, flatMap_append.symm⟩
    simp [hfront]

theorem not_hasMessage_nil : ¬ HasMessage [] := by
  rintro ⟨messages, hne, heq⟩
  cases messages with
  | nil => contradiction
  | cons message messages => simp at heq

theorem Lines.found (h : Lines w) (hdated : C.Dated (C.dayOf write.timestampMs))
    : found C write w = [] ∨ HasMessage (found C write w) := by
  unfold Writer.found
  cases hlookup : w.dir.lookup (createFilePath C (C.dayOf write.timestampMs)) with
  | none => exact .inl rfl
  | some content => exact h _ (not_derived_createFilePath hdated) content hlookup

theorem Outcome.lines (h : Outcome C settings write (switched C write w) w')
    (hframe : Frame (createFilePath C (C.dayOf write.timestampMs)) (switched C write w) w')
    (hhealthy : Healthy C w) (hlines : Lines w) (hdated : C.Dated (C.dayOf write.timestampMs))
    : Lines w' := by
  have hcurrent : ∃ content, Open C w' content ∧ HasMessage content := by
    cases h with
    | dropped hfile => exact absurd hfile (switched_file hhealthy.file_ne_none)
    | appended hopen _ hopen' =>
      rw [hopen.eq_found] at hopen'
      exact ⟨_, hopen', HasMessage.append (hlines.found hdated) (HasMessage.line write)⟩
    | rotated _ _ hopen' => exact ⟨_, hopen', HasMessage.line write⟩
  obtain ⟨current, hopen, hmessage⟩ := hcurrent
  have hdate := hframe.date.trans (currentDateTs_switched C write w)
  intro name hname content hlookup
  by_cases hcur : name = createFilePath C (C.dayOf write.timestampMs)
  . have hfound := hopen.lookup
    rw [hdate, ← hcur, hlookup] at hfound
    rw [some.inj hfound]
    exact .inr hmessage
  . cases hframe.others name hname hcur with
    | inl hsame =>
      rw [hsame, frame_switched C write w name hcur] at hlookup
      exact hlines name hname content hlookup
    | inr hnone =>
      rw [hnone] at hlookup
      contradiction

theorem Outcome.rotated_cases (h : Outcome C settings write (switched C write w) w')
    (hhealthy : Healthy C w) (hdated : C.Dated (C.dayOf write.timestampMs))
    : (w'.rotated = w.rotated ∧ ¬ RotatesEmpty C settings w (.write write)) ∨
      (∃ name, w'.rotated = w.rotated ++ [⟨name, found C write w⟩] ∧
        (RotatesEmpty C settings w (.write write) ↔ found C write w = [])) := by
  have hsame := (switched_eq C write w).1
  obtain ⟨content, hopen⟩ := (hhealthy.toInv.switched hdated).isOpen
    (switched_file hhealthy.file_ne_none)
  have hfound := hopen.eq_found
  have hsize : found C write w = [] → (switched C write w).currentFileSize = 0 := by
    intro hempty
    rw [hopen.size, hfound, hempty]
    rfl
  cases h with
  | dropped hfile => exact absurd hfile (switched_file hhealthy.file_ne_none)
  | appended _ hnot _ hrotated =>
    refine .inl ⟨hrotated.trans hsame, ?_⟩
    rintro ⟨hempty, hrotates⟩
    rw [hsize hempty] at hnot
    exact hnot hrotates
  | rotated hlookup hrotates _ hrotated =>
    rw [hopen.lookup] at hlookup
    rw [← some.inj hlookup, hfound, hsame] at hrotated
    refine .inr ⟨_, hrotated, And.left, ?_⟩
    intro hempty
    rw [hsize hempty] at hrotates
    exact ⟨hempty, hrotates⟩

structure Spent (C : Calendar) (w : Writer) : Prop extends Healthy C w where
  lines : Lines w
  messages : ∀ f ∈ w.rotated, HasMessage f.2

theorem Lines.compress (h : Lines w) (hcmd : settings.CommandKeeps) (hsrc : Derived src)
    (fails : Bool) (queued : List Name)
    : Lines { w with
        dir := if fails then w.dir else compressFile settings.toConfig src w.dir
        queued } := by
  intro name hname content hlookup
  dsimp only at hlookup
  split at hlookup
  . exact h name hname content hlookup
  . rw [lookup_compressFile hcmd hsrc hname] at hlookup
    exact h name hname content hlookup

theorem Spent.step (h : Spent C w) (hok : a.Succeeds C) (hdays : 0 ≤ settings.autoDeleteDays)
    (hcmd : settings.CommandKeeps) (hstep : step T C settings w a = some w')
    : (RotatesEmpty C settings w a ∧ ∃ f ∈ w'.rotated, f.2 = []) ∨
      (¬ RotatesEmpty C settings w a ∧ Spent C w') := by
  have hhealthy := h.toHealthy.step hok hdays hcmd hstep
  obtain ⟨write, rfl, houtcome, hframe⟩ | ⟨fails, src, queued, rfl, hqueued, rfl⟩ :=
    h.toHealthy.step_cases hok hdays hcmd hstep
  . have hlines := houtcome.lines hframe h.toHealthy h.lines hok.2
    rcases houtcome.rotated_cases h.toHealthy hok.2 with ⟨hsame, hnot⟩ | ⟨name, hnew, hiff⟩
    . refine .inr ⟨hnot, hhealthy, hlines, ?_⟩
      rw [hsame]
      exact h.messages
    . by_cases hempty : found C write w = []
      . refine .inl ⟨hiff.mpr hempty, ⟨name, found C write w⟩, ?_, hempty⟩
        rw [hnew]
        exact mem_append_right _ (mem_singleton_self _)
      . refine .inr ⟨fun hrotates => hempty (hiff.mp hrotates), hhealthy, hlines, ?_⟩
        intro f hf
        rw [hnew, mem_append, mem_singleton] at hf
        cases hf with
        | inl hf => exact h.messages f hf
        | inr hf =>
          rw [hf]
          exact (h.lines.found hok.2).resolve_left hempty
  . have hsrc : Derived src := by
      apply h.queued
      rw [hqueued]
      exact mem_cons_self ..
    exact .inr ⟨not_false, hhealthy, h.lines.compress hcmd hsrc fails queued, h.messages⟩

theorem Spent.start (hstart : C.Dated (C.dayOf nowMs)) (hdays : 0 ≤ settings.autoDeleteDays)
    : Spent C (startLogging C settings ∅ nowMs false) := by
  refine ⟨Healthy.start ∅ hstart hdays, ?_, nofun⟩
  intro name hname content hlookup
  left
  by_cases hcur : name = createFilePath C (C.dayOf nowMs)
  . have hopen := (open_opened C { dir := ∅, currentDateTs := C.dayOf nowMs }).removeOldLogs
      hstart hdays
    rw [hcur] at hlookup
    exact some.inj (hlookup.symm.trans hopen.lookup)
  . have hnone : (opened C { dir := ∅, currentDateTs := C.dayOf nowMs }).dir.lookup name = none :=
      Directory.lookup_openAppend_ne hcur
    cases (frame_removeOldLogs C settings (createFilePath C (C.dayOf nowMs)) _).others name hname
      hcur with
    | inl h => exact nomatch hlookup.symm.trans (h.trans hnone)
    | inr h => exact nomatch hlookup.symm.trans h

theorem Healthy.mem_rotated (h : Healthy C w) (hok : a.Succeeds C)
    (hdays : 0 ≤ settings.autoDeleteDays) (hcmd : settings.CommandKeeps)
    (hstep : Writer.step T C settings w a = some w') (hf : f ∈ w.rotated)
    : f ∈ w'.rotated := by
  obtain ⟨write, rfl, houtcome, _⟩ | ⟨fails, src, queued, rfl, _, rfl⟩ :=
    h.step_cases hok hdays hcmd hstep
  . rcases houtcome.rotated_cases h hok.2 with ⟨hsame, _⟩ | ⟨name, hnew, _⟩
    . rw [hsame]
      exact hf
    . rw [hnew]
      exact mem_append_left _ hf
  . exact hf

variable {sys : Lts Writer Action} {actions : List Action}

theorem Healthy.mem_rotated_run (h : Healthy C w) (hsys : sys.step = Writer.step T C settings)
    (hdays : 0 ≤ settings.autoDeleteDays) (hcmd : settings.CommandKeeps)
    (hrun : sys.runVia (fun _ a => a.Succeeds C) w actions = some w') (hf : f ∈ w.rotated)
    : f ∈ w'.rotated := by
  induction actions generalizing w with
  | nil =>
    rw [← some.inj hrun]
    exact hf
  | cons a actions ih =>
    obtain ⟨hok, w₁, hstep, hrun⟩ := Lts.runVia_cons.mp hrun
    rw [hsys] at hstep
    exact ih (h.step hok hdays hcmd hstep) hrun (h.mem_rotated hok hdays hcmd hstep hf)

def NeverRotatesEmpty (C : Calendar) (settings : Settings) (sys : Lts Writer Action) (w : Writer)
    (actions : List Action)
    : Prop :=
  ∀ front a back v, actions = front ++ a :: back →
    sys.runVia (fun _ a => a.Succeeds C) w front = some v → ¬ RotatesEmpty C settings v a

theorem neverRotatesEmpty_cons (hok : a.Succeeds C) (hstep : sys.step w a = some w₁)
    : NeverRotatesEmpty C settings sys w (a :: actions) ↔
        ¬ RotatesEmpty C settings w a ∧ NeverRotatesEmpty C settings sys w₁ actions := by
  constructor
  . intro h
    refine ⟨h [] a actions w rfl rfl, ?_⟩
    intro front b back v heq hrun
    refine h (a :: front) b back v (by rw [heq]; rfl) ?_
    exact Lts.runVia_cons.mpr ⟨hok, w₁, hstep, hrun⟩
  . rintro ⟨hnot, h⟩ front b back v heq hrun
    cases front with
    | nil =>
      obtain ⟨rfl, _⟩ := cons.inj heq
      rw [← some.inj hrun]
      exact hnot
    | cons c front =>
      obtain ⟨rfl, hback⟩ := cons.inj heq
      obtain ⟨_, w₂, hstep', hrun⟩ := Lts.runVia_cons.mp hrun
      rw [hstep, some.injEq] at hstep'
      rw [← hstep'] at hrun
      exact h front b back v hback hrun

theorem Spent.run_iff (h : Spent C w) (hsys : sys.step = Writer.step T C settings)
    (hdays : 0 ≤ settings.autoDeleteDays) (hcmd : settings.CommandKeeps)
    (hrun : sys.runVia (fun _ a => a.Succeeds C) w actions = some w')
    : (∀ f ∈ w'.rotated, HasMessage f.2) ↔ NeverRotatesEmpty C settings sys w actions := by
  induction actions generalizing w with
  | nil =>
    rw [← some.inj hrun]
    refine ⟨fun _ front a back v heq => ?_, fun _ => h.messages⟩
    simp at heq
  | cons a actions ih =>
    obtain ⟨hok, w₁, hstep, hrun⟩ := Lts.runVia_cons.mp hrun
    rw [neverRotatesEmpty_cons hok hstep]
    rw [hsys] at hstep
    rcases h.step hok hdays hcmd hstep with ⟨hrotates, f, hf, hempty⟩ | ⟨hnot, hspent⟩
    . -- The empty file stays among the rotated ones.
      have hkept := (h.toHealthy.step hok hdays hcmd hstep).mem_rotated_run hsys hdays hcmd hrun hf
      refine ⟨fun hall => ?_, fun hnever => absurd hrotates hnever.1⟩
      have hmessage := hall f hkept
      rw [hempty] at hmessage
      exact absurd hmessage not_hasMessage_nil
    . rw [ih hspent hrun]
      exact ⟨fun hnever => ⟨hnot, hnever⟩, And.right⟩

theorem rotated_files_have_messages_iff (T : TimeShield) (C : Calendar) (settings : Settings)
    (nowMs : Int) (actions : List Action) (w : Writer) (hdays : 0 ≤ settings.autoDeleteDays)
    (hcmd : settings.CommandKeeps) (hstart : C.Dated (C.dayOf nowMs))
    (hrun : (system T C settings ∅ nowMs false).runVia (fun _ a => a.Succeeds C)
      (system T C settings ∅ nowMs false).init actions = some w)
    : (∀ f ∈ w.rotated, HasMessage f.2) ↔
        NeverRotatesEmpty C settings (system T C settings ∅ nowMs false)
          (system T C settings ∅ nowMs false).init actions :=
  (Spent.start hstart hdays).run_iff rfl hdays hcmd hrun

theorem rotated_files_have_messages_two_letters
    : NeverRotatesEmpty TimeShield.gregorian.calendar { maxFileSizeBytes := 3 }
        (system TimeShield.gregorian TimeShield.gregorian.calendar { maxFileSizeBytes := 3 } ∅ 0 false)
        (system TimeShield.gregorian TimeShield.gregorian.calendar { maxFileSizeBytes := 3 } ∅ 0
          false).init
        [.write (letter 5000 {}), .write (letter 6000 {})] := by
  have hrun : ((system gregorian gregorian.calendar { maxFileSizeBytes := 3 } ∅
      0 false).runVia (fun _ a => a.Succeeds gregorian.calendar)
      (system gregorian gregorian.calendar { maxFileSizeBytes := 3 } ∅ 0
        false).init [.write (letter 5000 {}), .write (letter 6000 {})]).any
        (fun w => decide (∀ f ∈ w.rotated, f.2 = [65, 10])) = true := by decide +kernel
  obtain ⟨w, hrun, hrotated⟩ := (any_eq_true _ _).mp hrun
  refine (rotated_files_have_messages_iff _ _ _ _ _ w (by decide) (fun _ _ _ _ => rfl)
    (by decide +kernel) hrun).mp ?_
  intro f hf
  rw [of_decide_eq_true hrotated f hf]
  exact ⟨[[65]], by decide, rfl⟩

theorem rotation_of_empty_file
    : ∃ w, (system TimeShield.gregorian TimeShield.gregorian.calendar { maxFileSizeBytes := 1 } ∅ 0
            false).ReachableVia (fun _ a => a.Succeeds TimeShield.gregorian.calendar) w ∧
        w.rotated = [⟨"1970-01-01.001.log".toList, []⟩] ∧
        w.dir.lookup "1970-01-01.001.log".toList = some [] := by
  apply (system gregorian gregorian.calendar { maxFileSizeBytes := 1 } ∅ 0
    false).exists_reachableVia (fun _ a => a.Succeeds gregorian.calendar)
    [.write (letter 5000 {})]
  decide +kernel

end EmptyFiles
end Writer
end LogIt.FileLogger
