import LogIt.Mpsc.Lemmas.Invariant

namespace LogIt.MpscExecutor

open Multiset

def Action.changesLifecycle {ι κ : Type} (a : Action ι κ) : Bool :=
  match a with
  | .setMaxQueueSize _ | .shutdown | .lifecycle | .expire => true
  | _ => false

variable {ι κ : Type} {s s' : State ι κ} {cfg : Config} {a : Action ι κ}

theorem WorkerPc.uncompleted_eq (pc : WorkerPc)
    : (pc.uncompleted : Multiset Nat) = pc.finishing + pc.running := by
  cases pc <;> rfl

theorem Transition.droppedTasks [DecidableEq ι] [DecidableEq κ] (h : Transition cfg s a s')
    (ha : a.changesLifecycle = true)
    : s'.droppedTasks = s.droppedTasks := by
  cases h with
  | drop | resetDrops => contradiction
  | _ => rfl

variable [Fintype ι]

theorem Tickets.accepted_nodup (h : Tickets s) : s.accepted.Nodup := by
  rw [← coe_nodup]
  apply nodup_of_le _ (nodup_range s.submittedTasks)
  have hexecuted : (s.executed : Multiset Nat) ≤ s.completions + s.worker.finishing := by
    rw [← h.results, add_assoc]
    exact le_add_right _ _
  calc
    (s.accepted : Multiset Nat)
      = s.executed + s.worker.running + s.claimed.drop s.popped.length := by
        rw [h.order, ← coe_add, ← coe_add]
    _ ≤ s.completions + s.worker.finishing + s.worker.running
          + s.claimed.drop s.popped.length := by
        gcongr
    _ = s.completions + s.worker.uncompleted + s.claimed.drop s.popped.length := by
        rw [WorkerPc.uncompleted_eq, ← add_assoc]
    _ ≤ range s.submittedTasks := by
        rw [← h.tickets]
        exact le_add_right _ _

namespace Inv

theorem drained_at_swap (h : Inv s) {size : Nat} (hpc : s.lifecycle = .resizeSwap size)
    : (∀ i < s.ring.cap, (s.ring.cells i).storage = none) ∧ s.executed = s.accepted := by
  obtain ⟨_, hworker, hpending⟩ := h.at_swap hpc
  constructor
  . exact h.ring.storage_eq_none (h.ring.drained_of_drop hpending)
  . rw [h.tickets.order, hworker, hpending]
    simp [WorkerPc.running]

theorem no_refusal (h : Inv s) (hreq : s.shutdownRequested = false)
    : s.stopped = [] ∧ ∀ i t, s.producers i ≠ .complete t .stopped := by
  constructor
  . by_contra hne
    rw [h.refused hne] at hreq
    contradiction
  . intro i t hpc
    rw [h.refusing i t hpc] at hreq
    contradiction

end Inv

variable [DecidableEq ι] [DecidableEq κ]

theorem resize_lossless (h : (system ι κ cfg).Reachable s)
    : (∀ size, s.lifecycle = .resizeSwap size →
        (∀ i, (s.producers i).admitted = false) ∧ s.worker = .exited ∧
        (∀ i < s.ring.cap, (s.ring.cells i).storage = none) ∧ s.executed = s.accepted) ∧
      (s.accepted = s.executed ++ s.worker.running ++ s.claimed.drop s.popped.length ∧
        s.accepted.Nodup) ∧
      (∀ a s', a.changesLifecycle = true → (system ι κ cfg).step s a = some s' →
        s'.droppedTasks = s.droppedTasks) ∧
      (s.lifecycle = .resizeAbort →
        s.resizeFrom = (s.ringCount, s.workerCount, s.maxQueueSize) ∧
        (system ι κ cfg).step s .lifecycle
          = some { s with resizing := false, lifecycle := .free }) ∧
      (s.shutdownRequested = false →
        s.stopped = [] ∧ ∀ i t, s.producers i ≠ .complete t .stopped) := by
  have hinv := reachable_inv h
  refine ⟨?_, ⟨hinv.tickets.order, hinv.tickets.accepted_nodup⟩, ?_, ?_, hinv.no_refusal⟩
  . intro size hpc
    obtain ⟨hproducers, hworker, _⟩ := hinv.at_swap hpc
    exact ⟨hproducers, hworker, hinv.drained_at_swap hpc⟩
  . intro a s' ha hstep
    exact (Transition.of_step hstep).droppedTasks ha
  . intro hpc
    refine ⟨hinv.unchanged (by rw [hpc]; rfl), ?_⟩
    simp [system, step, lifecycleStep, hpc]

theorem resize_lossless_swap
    : ∃ s : State (Fin 1) (Fin 1), (system (Fin 1) (Fin 1) .default).Reachable s ∧
        s.lifecycle = .resizeSwap 5 ∧ s.accepted = [0] ∧ s.worker = .exited ∧
        s.executed = s.accepted := by
  obtain ⟨s, hreach, hpc, haccepted⟩ : ∃ s : State (Fin 1) (Fin 1),
      (system (Fin 1) (Fin 1) .default).Reachable s ∧
      s.lifecycle = .resizeSwap 5 ∧ s.accepted = [0] := by
    apply Lts.exists_reachable _ (List.flatten [
      [.addTask 0 true], List.replicate 13 (.producer 0 false), List.replicate 11 (.worker false),
      [.setMaxQueueSize 5], List.replicate 8 .lifecycle, List.replicate 7 (.worker false),
      [.lifecycle]])
    decide +kernel
  obtain ⟨_, hworker, _, hexecuted⟩ := (resize_lossless hreach).1 5 hpc
  exact ⟨s, hreach, hpc, haccepted, hworker, hexecuted⟩

end LogIt.MpscExecutor
