import LogIt.Compression.Impl.Worker

namespace LogIt.Compression
namespace Worker

open List

open FileLogger (Name)

variable {ι : Type} {s s' : State ι}

def WorkerPc.Knows (s : State ι) (pc : WorkerPc) : Prop :=
  match pc with
  | .loop | .woken => s.called = s.processed ∧ s.busy = false
  | .parked => s.called = s.processed ∧ s.busy = false ∧ s.queue = [] ∧ s.stop = false
  | .compressing src => s.called = s.processed ++ [src] ∧ s.busy = true
  | .finishing => s.called = s.processed ∧ s.busy = true
  | .exited => s.called = s.processed ∧ s.busy = false ∧ s.stop = true ∧ s.queue = s.late ∧
      s.atDestructor <+: s.processed

def ClientPc.Knows (s : State ι) (pc : ClientPc) : Prop :=
  match pc with
  | .idle => True
  | .parked before => before <+: s.enqueued ∧ s.idle = false
  | .woken before => before <+: s.enqueued
  | .returned before => before <+: s.processed

structure Inv (s : State ι) : Prop where
  queued : s.called ++ s.queue = s.enqueued
  worker : s.worker.Knows s
  clients : ∀ c, (s.clients c).Knows s
  late : s.worker ≠ .exited → s.late = []
  atDestructor : s.atDestructor <+: s.enqueued
  joined : s.joined = true → s.worker = .exited

theorem State.idle_iff : s.idle = true ↔ s.queue = [] ∧ s.busy = false := by
  unfold State.idle
  rw [Bool.and_eq_true, List.isEmpty_iff, Bool.not_eq_true']

section

variable {pc : ClientPc} (h : pc.Knows s) (henqueued : s.enqueued <+: s'.enqueued)
  (hprocessed : s.processed <+: s'.processed)

include h henqueued hprocessed

theorem ClientPc.Knows.mono (hidle : s.idle = false → s'.idle = false) : pc.Knows s' := by
  cases pc with
  | idle => trivial
  | parked before => exact ⟨h.1.trans henqueued, hidle h.2⟩
  | woken before => exact List.IsPrefix.trans h henqueued
  | returned before => exact List.IsPrefix.trans h hprocessed

theorem ClientPc.Knows.woken : pc.wake.Knows s' := by
  cases pc with
  | idle => trivial
  | parked before => exact h.1.trans henqueued
  | woken before => exact List.IsPrefix.trans h henqueued
  | returned before => exact List.IsPrefix.trans h hprocessed

end

theorem Inv.processed_eq (h : Inv s) (hidle : s.idle = true) : s.processed = s.enqueued := by
  obtain ⟨hqueue, hbusy⟩ := State.idle_iff.mp hidle
  have hqueued := h.queued
  rw [hqueue, append_nil] at hqueued
  have hworker := h.worker
  rw [← hqueued]
  cases hpc : s.worker with rw [hpc] at hworker
  | compressing src => exact absurd hworker.2 (by rw [hbusy]; exact nofun)
  | _ => exact hworker.1.symm

@[simp]
theorem WorkerPc.wake_eq_exited {pc : WorkerPc} : pc.wake = .exited ↔ pc = .exited := by
  cases pc with
  | _ => simp [WorkerPc.wake]

theorem Inv.enqueue (h : Inv s) (hjoined : s.joined = false) (path : Name)
    : Inv { s with
        queue := s.queue ++ [path]
        worker := s.worker.wake
        enqueued := s.enqueued ++ [path]
        late := if s.worker = .exited then s.late ++ [path] else s.late
      } := by
  constructor
  case queued =>
    rw [← h.queued]
    exact (append_assoc _ _ _).symm
  case worker =>
    have hworker := h.worker
    cases hpc : s.worker with rw [hpc] at hworker
    | parked => exact ⟨hworker.1, hworker.2.1⟩
    | exited =>
      obtain ⟨hcalled, hbusy, hstop, hqueue, hbefore⟩ := hworker
      exact ⟨hcalled, hbusy, hstop, congrArg (· ++ [path]) hqueue, hbefore⟩
    | _ => exact hworker
  case clients =>
    intro c
    refine (h.clients c).mono (prefix_append _ _) prefix_rfl ?_
    intro _
    simp [State.idle]
  case late =>
    intro hworker
    have hne : s.worker ≠ .exited := fun hpc => hworker (WorkerPc.wake_eq_exited.mpr hpc)
    exact (if_neg hne).trans (h.late hne)
  case atDestructor => exact h.atDestructor.trans (prefix_append _ _)
  case joined =>
    intro hj
    exact absurd (hjoined.symm.trans hj) (by decide)

theorem Inv.destroy (h : Inv s) (hstop : s.stop = false)
    : Inv { s with stop := true, worker := s.worker.wake, atDestructor := s.enqueued } := by
  have hworker := h.worker
  constructor
  case queued => exact h.queued
  case worker =>
    cases hpc : s.worker with rw [hpc] at hworker
    | parked => exact ⟨hworker.1, hworker.2.1⟩
    | exited => exact absurd (hstop.symm.trans hworker.2.2.1) (by decide)
    | _ => exact hworker
  case clients => exact fun c => (h.clients c).mono prefix_rfl prefix_rfl id
  case late => exact fun hne => h.late (fun hpc => hne (WorkerPc.wake_eq_exited.mpr hpc))
  case atDestructor => exact prefix_rfl
  case joined => exact fun hj => WorkerPc.wake_eq_exited.mpr (h.joined hj)

theorem Inv.workerSpurious (h : Inv s) : Inv { s with worker := s.worker.wake } := by
  have hworker := h.worker
  constructor
  case queued => exact h.queued
  case worker =>
    cases hpc : s.worker with rw [hpc] at hworker
    | parked => exact ⟨hworker.1, hworker.2.1⟩
    | _ => exact hworker
  case clients => exact fun c => (h.clients c).mono prefix_rfl prefix_rfl id
  case late => exact fun hne => h.late (fun hpc => hne (WorkerPc.wake_eq_exited.mpr hpc))
  case atDestructor => exact h.atDestructor
  case joined => exact fun hj => WorkerPc.wake_eq_exited.mpr (h.joined hj)

theorem Inv.take (h : Inv s) (hpc : s.worker = .loop ∨ s.worker = .woken) : Inv s.take := by
  have hne : s.worker ≠ .exited := by
    rcases hpc with hpc | hpc
    all_goals
      rw [hpc]
      exact nofun
  have hknows : s.called = s.processed ∧ s.busy = false := by
    have hworker := h.worker
    rcases hpc with hpc | hpc
    all_goals
      rw [hpc] at hworker
      exact hworker
  have hjoined (hj : s.joined = true) : False := hne (h.joined hj)
  have hqueued := h.queued
  cases hqueue : s.queue with
  | nil =>
    have htake : s.take =
        if s.stop then { s with worker := .exited } else { s with worker := .parked } := by
      unfold State.take
      rw [hqueue]
    rw [hqueue, append_nil] at hqueued
    have hlate := h.late hne
    rw [htake]
    split
    . next hstop =>
      refine ⟨h.queued, ⟨hknows.1, hknows.2, hstop, ?_, ?_⟩, ?_, fun hx => absurd rfl hx,
        h.atDestructor, fun hj => absurd hj hjoined⟩
      . exact hqueue.trans hlate.symm
      . rw [← hknows.1, hqueued]
        exact h.atDestructor
      . exact fun c => (h.clients c).mono prefix_rfl prefix_rfl id
    . next hstop =>
      refine ⟨h.queued, ⟨hknows.1, hknows.2, hqueue, eq_false_of_ne_true hstop⟩, ?_, fun _ => hlate,
        h.atDestructor, fun hj => absurd hj hjoined⟩
      exact fun c => (h.clients c).mono prefix_rfl prefix_rfl id
  | cons src queue =>
    have htake : s.take = { s with
        queue := queue
        busy := true
        worker := .compressing src
        called := s.called ++ [src] } := by
      unfold State.take
      rw [hqueue]
    rw [hqueue] at hqueued
    rw [htake]
    refine ⟨?_, ⟨congrArg (· ++ [src]) hknows.1, rfl⟩, ?_, fun _ => h.late hne, h.atDestructor,
      fun hj => absurd hj hjoined⟩
    . rw [← hqueued]
      exact append_assoc _ _ _
    . intro c
      refine (h.clients c).mono prefix_rfl prefix_rfl ?_
      intro _
      simp [State.idle]

theorem Inv.compressed (h : Inv s) (hpc : s.worker = .compressing src)
    : Inv { s with worker := .finishing, processed := s.processed ++ [src] } := by
  have hworker := h.worker
  rw [hpc] at hworker
  have hne : s.worker ≠ .exited := by
    rw [hpc]
    exact nofun
  refine ⟨h.queued, hworker, ?_, fun _ => h.late hne, h.atDestructor, fun hj => absurd (h.joined hj) hne⟩
  exact fun c => (h.clients c).mono prefix_rfl (prefix_append _ _) id

theorem Inv.finish (h : Inv s) (hpc : s.worker = .finishing) : Inv s.finish := by
  have hworker := h.worker
  rw [hpc] at hworker
  have hne : s.worker ≠ .exited := by
    rw [hpc]
    exact nofun
  refine ⟨h.queued, ⟨hworker.1, rfl⟩, ?_, fun _ => h.late hne, h.atDestructor,
    fun hj => absurd (h.joined hj) hne⟩
  intro c
  unfold State.finish
  dsimp only
  split
  . exact (h.clients c).woken prefix_rfl prefix_rfl
  . next hqueue =>
    refine (h.clients c).mono prefix_rfl prefix_rfl ?_
    intro _
    simp only [State.idle, hqueue, Bool.false_and]

variable [DecidableEq ι]

theorem Inv.client (h : Inv s) (hknows : pc.Knows s)
    : Inv { s with clients := Function.update s.clients c pc } := by
  refine ⟨h.queued, h.worker, ?_, h.late, h.atDestructor, h.joined⟩
  intro c'
  dsimp only
  by_cases hsame : c' = c
  . rw [hsame, Function.update_self]
    exact hknows
  . rw [Function.update_of_ne hsame]
    exact h.clients c'

theorem Inv.check (h : Inv s) (c : ι) (hbefore : before <+: s.enqueued)
    : Inv (s.check c before) := by
  apply h.client
  split
  . next hidle =>
    have heq := h.processed_eq hidle
    exact (by rw [heq]; exact hbefore : before <+: s.processed)
  . next hidle => exact ⟨hbefore, eq_false_of_ne_true hidle⟩

theorem Inv.step (h : Inv s) (hstep : Worker.step s a = some s') : Inv s' := by
  unfold Worker.step at hstep
  obtain ⟨hjoined, hstep⟩ := Option.ite_none_left_eq_some.mp hstep
  have hlive := eq_false_of_ne_true hjoined
  cases a with dsimp only at hstep
  | enqueue path =>
    cases hstep
    exact h.enqueue hlive path
  | wait c =>
    cases hc : s.clients c with rw [hc] at hstep
    | idle | returned before =>
      cases hstep
      exact h.check c prefix_rfl
    | _ => contradiction
  | waitCheck c =>
    have hclient := h.clients c
    split at hstep
    . next before hc =>
      rw [hc] at hclient
      cases hstep
      exact h.check c hclient
    . contradiction
  | waitSpurious c =>
    cases hstep
    exact h.client ((h.clients c).woken prefix_rfl prefix_rfl)
  | destroy =>
    obtain ⟨hstop, hstep⟩ := Option.ite_none_left_eq_some.mp hstep
    cases hstep
    exact h.destroy (eq_false_of_ne_true hstop)
  | join =>
    obtain ⟨hexited, heq⟩ := Option.ite_none_right_eq_some.mp hstep
    cases heq
    rw [Bool.and_eq_true, decide_eq_true_eq] at hexited
    exact ⟨h.queued, h.worker, fun c => (h.clients c).mono prefix_rfl prefix_rfl id, h.late,
      h.atDestructor, fun _ => hexited.2⟩
  | workerCheck =>
    split at hstep
    . next hpc =>
      cases hstep
      exact h.take (.inl hpc)
    . next hpc =>
      cases hstep
      exact h.take (.inr hpc)
    . contradiction
  | workerSpurious =>
    cases hstep
    exact h.workerSpurious
  | compressed =>
    split at hstep
    . next src hpc =>
      cases hstep
      exact h.compressed hpc
    . contradiction
  | workerFinish =>
    split at hstep
    . next hpc =>
      cases hstep
      exact h.finish hpc
    . contradiction

theorem reachable_inv (h : (system ι).Reachable s) : Inv s := by
  apply h.invariant
  . constructor
    case clients => exact fun _ => trivial
    case late => exact fun _ => rfl
    case joined => exact nofun
    all_goals simp [system, init, WorkerPc.Knows]
  . intro s a s' _ hinv hstep
    exact hinv.step hstep

theorem files_processed_in_order (h : (system ι).Reachable s)
    : s.called <+: s.enqueued ∧ s.processed <+: s.called ∧
      (∀ c before, s.clients c = .returned before → before <+: s.processed) ∧
      (s.worker = .parked → s.queue = [] ∧ s.stop = false) ∧
      (∀ c before, s.clients c = .parked before → ¬ (s.queue = [] ∧ s.busy = false)) ∧
      (s.joined = true → s.atDestructor <+: s.processed ∧ s.processed ++ s.late = s.enqueued) := by
  have hinv := reachable_inv h
  have hworker := hinv.worker
  refine ⟨⟨s.queue, hinv.queued⟩, ?_, ?_, ?_, ?_, ?_⟩
  . cases hpc : s.worker with rw [hpc] at hworker
    | compressing src =>
      rw [hworker.1]
      exact prefix_append _ _
    | _ => rw [hworker.1]
  . intro c before hc
    have hclient := hinv.clients c
    rw [hc] at hclient
    exact hclient
  . intro hpc
    rw [hpc] at hworker
    exact hworker.2.2
  . intro c before hc hidle
    have hclient := hinv.clients c
    rw [hc] at hclient
    have hfalse := hclient.2
    rw [State.idle_iff.mpr hidle] at hfalse
    contradiction
  . intro hj
    rw [hinv.joined hj] at hworker
    obtain ⟨hcalled, _, _, hqueue, hbefore⟩ := hworker
    refine ⟨hbefore, ?_⟩
    rw [← hcalled, ← hqueue]
    exact hinv.queued

theorem files_processed_one
    : ∃ s, (system Unit).Reachable s ∧ s.enqueued = [['a']] ∧ s.processed = [['a']] ∧
        s.clients () = .returned [['a']] ∧ [['a']] <+: s.processed := by
  have hinit : (system Unit).Reachable init := Lts.Reachable.init
  have h := (((hinit.step (a := .enqueue ['a']) rfl).step (a := .workerCheck) rfl).step
    (a := .compressed) rfl).step (a := .workerFinish) rfl
  have hwait := h.step (a := .wait ()) rfl
  exact ⟨_, hwait, rfl, rfl, rfl, (files_processed_in_order hwait).2.2.1 () [['a']] rfl⟩

theorem late_path_not_processed
    : ∃ s, (system Unit).Reachable s ∧ s.joined = true ∧ s.enqueued = [['a']] ∧ s.processed = [] :=
  ⟨_, (((Lts.Reachable.init.step (a := .destroy) rfl).step (a := .workerCheck) rfl).step
    (a := .enqueue ['a']) rfl).step (a := .join) rfl, rfl, rfl, rfl⟩

end Worker
end LogIt.Compression
