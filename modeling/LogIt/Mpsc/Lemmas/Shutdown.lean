import LogIt.Mpsc.Lemmas.Invariant

namespace LogIt.MpscExecutor

def ProducerPc.pushing (pc : ProducerPc) : Bool :=
  match pc with
  | .loadPolicy _ | .checkLimit _ _ | .push _ _ _ => true
  | _ => false

namespace WorkerPc

def testsEmpty (pc : WorkerPc) : Bool :=
  match pc with
  | .testEmpty _ | .sleepEmpty => true
  | _ => false

def sawEmpty (pc : WorkerPc) : Bool :=
  match pc with
  | .testActive _ | .testStop _ => true
  | _ => false

def leaving (pc : WorkerPc) : Bool :=
  match pc with
  | .exited => true
  | pc => pc.sawEmpty

end WorkerPc

variable {ι κ : Type} {s s' : State ι κ} {cfg : Config} {a : Action ι κ}

def DrainSafe (s : State ι κ) (a : Action ι κ) : Prop :=
  match a with
  | .lifecycle => s.lifecycle = .shutdownStop → s.stopFlag = false → s.worker.sawEmpty = false
  | .worker _ =>
    s.worker.testsEmpty = true → s.stopFlag = true → s.ring.empty = true →
      ∀ i, (s.producers i).pushing = false
  | _ => True

instance [Fintype ι] (s : State ι κ) (a : Action ι κ) : Decidable (DrainSafe s a) := by
  unfold DrainSafe
  split <;> infer_instance

def Drained (s : State ι κ) : Prop :=
  s.stopFlag = true → s.worker.leaving = true →
    s.popped.length = s.claimed.length ∧ ∀ i, (s.producers i).pushing = false

theorem ProducerPc.pushing_of_owns {pc : ProducerPc} {p : Nat} (h : pc.ringPc.Owns p)
    : pc.pushing = true := by
  cases pc with
  | push t policy pc => rfl
  | _ => exact h.elim

theorem ProducerPc.pushing_of_not_admitted {pc : ProducerPc} (h : pc.admitted = false)
    : pc.pushing = false := by
  cases pc with
  | idle | enter | count | recheck | backOff => rfl
  | _ => contradiction

theorem ProducerMove.pushing (h : ProducerMove s pc pc') (hstop : s.stopFlag = true)
    (hold : pc.pushing = false)
    : pc'.pushing = false := by
  cases h with
  | goOn hlow =>
    rw [hlow] at hstop
    contradiction
  | loadPolicy | tryPush => contradiction
  | _ => rfl

theorem AfterPop.leaving (h : AfterPop budget drained pc pc') : pc'.leaving = false := by
  cases h <;> rfl

namespace Drained

section Producer

variable [DecidableEq ι] {i : ι} {pc : ProducerPc}

theorem setProducer (h : Drained s)
    (hpc : s.stopFlag = true → (s.producers i).pushing = false → pc.pushing = false)
    : Drained (s.setProducer i pc) := by
  intro hstop hleaving
  obtain ⟨hdrained, hpushing⟩ := h hstop hleaving
  refine ⟨hdrained, ?_⟩
  intro j
  unfold State.setProducer
  dsimp only
  by_cases hj : j = i
  . rw [hj, Function.update_self]
    exact hpc hstop (hpushing i)
  . rw [Function.update_of_ne hj]
    exact hpushing j

end Producer

theorem of_empty (hring : RingInv s) (hidle : s.worker.ringPc = .idle)
    (hempty : s.ring.empty = true) (hpushing : ∀ i, (s.producers i).pushing = false)
    : s.popped.length = s.claimed.length ∧ ∀ i, (s.producers i).pushing = false := by
  refine ⟨hring.drained_of_empty hempty hidle ?_, hpushing⟩
  intro i p howns
  have := ProducerPc.pushing_of_owns howns
  rw [hpushing i] at this
  contradiction

theorem setWorker (h : Drained s) (hring : RingInv s) (hsafe : DrainSafe s (.worker spurious))
    (hmove : WorkerMove s s.worker pc)
    : Drained { s with activeTasks := active, worker := pc } := by
  intro hstop hleaving
  have hleave := of_empty hring hmove.ringPc.1
  unfold DrainSafe at hsafe
  dsimp only at hstop hleaving hsafe
  unfold Drained at h
  generalize s.worker = old at hmove h hsafe
  cases hmove with
  | empty hempty | sleepEmpty hempty => exact hleave hempty (hsafe rfl hstop hempty)
  | inactive | stop => exact h hstop rfl
  | _ => contradiction

variable [Fintype ι] [DecidableEq ι] [DecidableEq κ]

theorem step (h : Drained s) (hinv : Inv s) (hsafe : DrainSafe s a)
    (hstep : Transition cfg s a s')
    : Drained s' := by
  cases hstep with
  | producerMove hmove => exact h.setProducer hmove.pushing
  | count | uncount | ticket | drop | completeDropped | completeStopped | leave =>
    exact h.setProducer (fun _ _ => rfl)
  | @push i _ t policy pc hpc =>
    -- Nobody pushes any more.
    intro hstop hleaving
    have hpushing := (h hstop hleaving).2 i
    rw [hpc] at hpushing
    contradiction
  | workerMove hmove => exact h.setWorker hinv.ring hsafe hmove
  | pop hpc hafter =>
    intro _ hleaving
    rw [hafter.leaving] at hleaving
    contradiction
  | run | finish | restart => exact fun _ hleaving => nomatch hleaving
  | raise hpc =>
    -- The resize raises the flag when all tickets are completed and the gate is closed.
    intro _ _
    have hquiet := hinv.tickets.quiet (hinv.quiet (by rw [hpc]; rfl))
    refine ⟨hinv.ring.drained_of_drop hquiet.2.1, ?_⟩
    intro i
    exact ProducerPc.pushing_of_not_admitted (hinv.gate.closed (by rw [hpc]; rfl) i)
  | swap hpc =>
    intro _ _
    refine ⟨rfl, ?_⟩
    intro i
    exact ProducerPc.pushing_of_not_admitted ((hinv.at_swap hpc).1 i)
  | clear => exact fun hstop _ => nomatch hstop
  | shutdownRaise hpc =>
    intro _ hleaving
    cases hstop : s.stopFlag with
    | true => exact h hstop hleaving
    | false =>
      have hsaw := hsafe hpc hstop
      dsimp only at hleaving
      cases hworker : s.worker with
      | exited =>
        -- An exited worker has seen the flag.
        have := hinv.worker.exited hworker
        rw [hstop, hpc] at this
        simp at this
      | _ =>
        rw [hworker] at hsaw hleaving
        unfold WorkerPc.leaving at hleaving
        dsimp only at hleaving
        rw [hsaw] at hleaving
        contradiction
  | _ => exact h

end Drained

theorem Tickets.completed_eq [Fintype ι] (h : Tickets s) (hidle : ∀ i, s.producers i = .idle)
    (hworker : s.worker = .exited) (hpending : s.claimed.drop s.popped.length = [])
    : s.completedTasks = s.submittedTasks := by
  have hunresolved : threadSum ProducerPc.unresolved s.producers = 0 := by
    rw [threadSum_eq_zero_iff]
    intro i
    rw [hidle i]
    rfl
  have hcard := h.card_eq
  rw [hworker, hpending, hunresolved] at hcard
  simpa [WorkerPc.uncompleted] using hcard

section Shutdown

variable [Fintype ι] [DecidableEq ι] [DecidableEq κ]

theorem reachable_drained (h : (system ι κ cfg).ReachableVia DrainSafe s) : Drained s := by
  apply h.invariant Drained
  case hinit => exact fun hstop => nomatch hstop
  case hkeep =>
    intro s a s' hreach hdrained hsafe hstep
    exact hdrained.step (reachable_inv hreach.reachable) hsafe (.of_step hstep)

theorem shutdown_drains (h : (system ι κ cfg).ReachableVia DrainSafe s)
    (hreturned : s.shutdownReturned = true) (hidle : ∀ i, s.producers i = .idle)
    : s.executed = s.accepted ∧ (∀ i < s.ring.cap, (s.ring.cells i).storage = none) ∧
      s.completedTasks = s.submittedTasks := by
  have hinv := reachable_inv h.reachable
  have hworker := hinv.worker.done hreturned
  have hstop := hinv.stop.raised.mpr (Or.inl (hinv.requested hreturned))
  have hdrained := (reachable_drained h hstop (by rw [hworker]; rfl)).1
  have hpending : s.claimed.drop s.popped.length = [] := by
    rw [hdrained]
    exact List.drop_length
  refine ⟨?_, hinv.ring.storage_eq_none hdrained, hinv.tickets.completed_eq hidle hworker hpending⟩
  rw [hinv.tickets.order, hworker, hpending]
  simp [WorkerPc.running]

theorem shutdown_drains_one
    : ∃ s : State (Fin 1) (Fin 1), ((system (Fin 1) (Fin 1) .default).ReachableVia DrainSafe s ∧
        s.shutdownReturned = true ∧ (∀ i, s.producers i = .idle) ∧ s.accepted = [0]) ∧
        s.executed = s.accepted ∧ s.completedTasks = s.submittedTasks := by
  have hrun : ∃ s : State (Fin 1) (Fin 1),
      (system (Fin 1) (Fin 1) .default).ReachableVia DrainSafe s ∧
      s.shutdownReturned = true ∧ (∀ i, s.producers i = .idle) ∧ s.accepted = [0] := by
    apply Lts.exists_reachableVia _ DrainSafe (List.flatten [
      [.addTask 0 true], List.replicate 13 (.producer 0 false), [.shutdown, .lifecycle],
      List.replicate 18 (.worker false), [.lifecycle]])
    decide +kernel
  obtain ⟨s, hreach, hreturned, hidle, haccepted⟩ := hrun
  obtain ⟨hexecuted, _, hcompleted⟩ := shutdown_drains hreach hreturned hidle
  exact ⟨s, ⟨hreach, hreturned, hidle, haccepted⟩, hexecuted, hcompleted⟩

theorem shutdown_loses_task
    : ∃ s : State (Fin 1) (Fin 1), (system (Fin 1) (Fin 1) .default).Reachable s ∧
        s.shutdownReturned = true ∧ (∀ i, s.producers i = .idle) ∧ s.accepted = [0] ∧
        s.executed = [] ∧ (s.ring.cells 0).storage = some 0 ∧ s.completedTasks = 0 ∧
        s.submittedTasks = 1 := by
  apply Lts.exists_reachable _ (List.flatten [
    List.replicate 7 (.worker false), [.addTask 0 true], List.replicate 13 (.producer 0 false),
    [.shutdown, .lifecycle, .worker false, .lifecycle]])
  decide +kernel

end Shutdown
end LogIt.MpscExecutor
