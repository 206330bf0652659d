import LogIt.Mpsc.Lemmas.Invariant

namespace LogIt.MpscExecutor

open Function Multiset

def WaiterPc.before (pc : WaiterPc) : List Nat :=
  match pc with
  | .idle => []
  | .load before | .wait before _ | .testStop before | .testDone before | .returned before => before

def State.underWay {ι κ : Type} [Fintype ι] (s : State ι κ) : Multiset Nat :=
  s.worker.uncompleted + s.claimed.drop s.popped.length
    + threadSum ProducerPc.unresolved s.producers

variable {ι κ : Type} {s s' : State ι κ} {cfg : Config} {a : Action ι κ}

structure Waits (waiters : κ → WaiterPc) (submitted : Nat) (requested : Bool)
    (executed dropped : List Nat) : Prop where
  reserved : ∀ k, ∀ t ∈ (waiters k).before, t < submitted
  finished : requested = false → ∀ k before, waiters k = .returned before →
    ∀ t ∈ before, t ∈ executed ∨ t ∈ dropped

namespace Waits

theorem mono {waiters : κ → WaiterPc} (h : Waits waiters submitted requested executed dropped)
    (hsubmitted : submitted ≤ submitted') (hexecuted : executed ⊆ executed')
    (hdropped : dropped ⊆ dropped')
    : Waits waiters submitted' requested executed' dropped' := by
  constructor
  case reserved =>
    intro k t ht
    exact lt_of_lt_of_le (h.reserved k t ht) hsubmitted
  case finished =>
    intro hreq k before hk t ht
    exact (h.finished hreq k before hk t ht).imp (@hexecuted t) (@hdropped t)

theorem setWaiter [DecidableEq κ] {waiters : κ → WaiterPc} {submitted : Nat} {requested : Bool}
    {executed dropped : List Nat} {k : κ} {pc : WaiterPc}
    (h : Waits waiters submitted requested executed dropped)
    (hreserved : ∀ t ∈ pc.before, t < submitted)
    (hfinished : requested = false → ∀ before, pc = .returned before →
      ∀ t ∈ before, t ∈ executed ∨ t ∈ dropped)
    : Waits (update waiters k pc) submitted requested executed dropped := by
  constructor
  case reserved =>
    intro k' t ht
    by_cases hk : k' = k
    . rw [hk, update_self] at ht
      exact hreserved t ht
    . rw [update_of_ne hk] at ht
      exact h.reserved k' t ht
  case finished =>
    intro hreq k' before hk'
    by_cases hk : k' = k
    . rw [hk, update_self] at hk'
      exact hfinished hreq before hk'
    . rw [update_of_ne hk] at hk'
      exact h.finished hreq k' before hk'

end Waits

theorem WaiterMove.reserved (h : WaiterMove s pc pc') (hreturned : ∀ t ∈ s.returned, t < submitted)
    (hreserved : ∀ t ∈ pc.before, t < submitted)
    : ∀ t ∈ pc'.before, t < submitted := by
  cases h with
  | call | callAgain => exact hreturned
  | _ => exact hreserved

variable [Fintype ι]

theorem Tickets.count_eq_one (h : Tickets s) (ht : t < s.submittedTasks)
    : s.completions.count t + s.underWay.count t = 1 := by
  have hsum : (s.completions : Multiset Nat) + s.underWay = range s.submittedTasks := by
    unfold State.underWay
    rw [← h.tickets, add_assoc, add_assoc, add_assoc]
  rw [← coe_count, ← count_add, hsum]
  apply count_eq_one_of_mem (nodup_range _)
  exact mem_range.mpr ht

theorem Inv.quiet_of_stop (h : Inv s) (hreq : s.shutdownRequested = false)
    (hstop : s.stopFlag = true)
    : s.submittedTasks ≤ s.completedTasks := by
  apply h.quiet
  apply LifecyclePc.committed_of_stops
  simpa [hreq] using h.stop.raised.mp hstop

theorem Inv.finished (h : Inv s) (hreq : s.shutdownRequested = false)
    (hdone : s.submittedTasks ≤ s.completedTasks) (ht : t < s.submittedTasks)
    : t ∈ s.executed ∨ t ∈ s.dropped := by
  have hstopped : s.stopped = [] := by
    by_contra hne
    rw [h.refused hne] at hreq
    contradiction
  simpa [hstopped] using h.tickets.finished hdone ht

theorem WaiterMove.quiet (h : WaiterMove s pc (.returned before)) (hinv : Inv s)
    (hreq : s.shutdownRequested = false)
    : s.submittedTasks ≤ s.completedTasks := by
  cases h with
  | stopped hstop => exact hinv.quiet_of_stop hreq hstop
  | done hdone => exact hdone

theorem Waits.step [DecidableEq ι] [DecidableEq κ]
    (h : Waits s.waiters s.submittedTasks s.shutdownRequested s.executed s.dropped) (hinv : Inv s)
    (hstep : Transition cfg s a s')
    : Waits s'.waiters s'.submittedTasks s'.shutdownRequested s'.executed s'.dropped := by
  cases hstep with
  | ticket => exact h.mono (Nat.le_succ _) (List.Subset.refl _) (List.Subset.refl _)
  | completeDropped =>
    exact h.mono (Nat.le_refl _) (List.Subset.refl _) (List.subset_append_left _ _)
  | run => exact h.mono (Nat.le_refl _) (List.subset_append_left _ _) (List.Subset.refl _)
  | @waiterMove _ k pc hmove =>
    have hreserved := hmove.reserved hinv.tickets.returned (h.reserved k)
    apply h.setWaiter hreserved
    intro hreq before hpc t ht
    rw [hpc] at hmove hreserved
    exact hinv.finished hreq (hmove.quiet hinv hreq) (hreserved t ht)
  | shutdownRaise => exact ⟨h.reserved, fun hreq => nomatch hreq⟩
  | _ => exact h

variable [DecidableEq ι] [DecidableEq κ]

theorem reachable_waits (h : (system ι κ cfg).Reachable s)
    : Waits s.waiters s.submittedTasks s.shutdownRequested s.executed s.dropped := by
  apply h.invariant (fun s =>
    Waits s.waiters s.submittedTasks s.shutdownRequested s.executed s.dropped)
  case hinit => exact ⟨by simp [system, init, WaiterPc.before], by simp [system, init]⟩
  case hkeep =>
    intro s a s' hreach hwaits hstep
    exact hwaits.step (reachable_inv hreach) (.of_step hstep)

theorem wait_barrier (h : (system ι κ cfg).Reachable s) (hreq : s.shutdownRequested = false)
    : (∀ k before, s.waiters k = .returned before →
        ∀ t ∈ before, t ∈ s.executed ∨ t ∈ s.dropped) ∧
      s.completedTasks ≤ s.submittedTasks ∧ s.completedTasks = s.completions.length ∧
      ∀ t < s.submittedTasks, s.completions.count t + s.underWay.count t = 1 := by
  have htickets := (reachable_inv h).tickets
  refine ⟨?_, htickets.completed_le, htickets.completed, fun t ht => htickets.count_eq_one ht⟩
  exact (reachable_waits h).finished hreq

theorem wait_barrier_resize
    : ∃ s : State (Fin 1) (Fin 1), (system (Fin 1) (Fin 1) .default).Reachable s ∧
        s.stopFlag = true ∧ s.waiters 0 = .returned [0] ∧ (0 ∈ s.executed ∨ 0 ∈ s.dropped) := by
  obtain ⟨s, hreach, hreq, hstop, hwaiter⟩ : ∃ s : State (Fin 1) (Fin 1),
      (system (Fin 1) (Fin 1) .default).Reachable s ∧
      s.shutdownRequested = false ∧ s.stopFlag = true ∧ s.waiters 0 = .returned [0] := by
    apply Lts.exists_reachable _ (List.flatten [
      [.addTask 0 true], List.replicate 13 (.producer 0 false), List.replicate 10 (.worker false),
      [.wait 0, .waiter 0, .waiter 0, .setMaxQueueSize 5], List.replicate 8 .lifecycle,
      [.waiter 0]])
    decide +kernel
  exact ⟨s, hreach, hstop, hwaiter, (wait_barrier hreach hreq).1 0 [0] hwaiter 0 (by decide)⟩

end LogIt.MpscExecutor
