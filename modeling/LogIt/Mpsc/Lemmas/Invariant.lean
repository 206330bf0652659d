import LogIt.Mpsc.Lemmas.Phases

namespace LogIt.MpscExecutor

variable {ι κ : Type} {s s' : State ι κ} {cfg : Config} {a : Action ι κ}

theorem ProducerPc.ringPc_of_not_admitted {pc : ProducerPc} (h : pc.admitted = false)
    : pc.ringPc = .idle := by
  cases pc with
  | push t policy pc => contradiction
  | _ => rfl

theorem LifecycleMove.committed (h : LifecycleMove s pc pc') (hcommitted : pc'.committed = true)
    : pc.committed = true ∨ s.submittedTasks ≤ s.completedTasks ∨
      (s.stopFlag = true ∧ pc.outside = false ∧ pc.stops = false) := by
  cases h with
  | stopped hstop => exact .inr (.inr ⟨hstop, rfl, rfl⟩)
  | done hdone => exact .inr (.inl hdone)
  | joined => exact .inl rfl
  | _ => contradiction

theorem LifecycleMove.unchanged (h : LifecycleMove s pc pc') (hunchanged : pc'.unchanged = true)
    : pc.unchanged = true := by
  cases h with
  | shutdown | refused => contradiction
  | _ => rfl

theorem RingInv.step [DecidableEq ι] [DecidableEq κ] (h : RingInv s)
    (hswap : ∀ size, s.lifecycle = .resizeSwap size →
      (∀ i, (s.producers i).ringPc = .idle) ∧ s.worker.ringPc = .idle)
    (hrestart : s.lifecycle = .resizeStart → s.worker = .exited) (hstep : Transition cfg s a s')
    : RingInv s' := by
  cases hstep with
  | producerMove hmove => exact h.setProducer hmove.ringPc.1 hmove.ringPc.2
  | count hpc | uncount hpc | ticket hpc | drop hpc | completeDropped hpc | completeStopped hpc
  | leave hpc => exact h.setProducer (by rw [hpc]; rfl) (.inl rfl)
  | push hpc => exact h.push hpc
  | workerMove hmove => exact h.setWorker hmove.ringPc.1 hmove.ringPc.2
  | pop hpc hafter => exact h.pop hpc hafter
  | run hpc | finish hpc => exact h.setWorker (by rw [hpc]; rfl) (.inl rfl)
  | @swap size hpc =>
    obtain ⟨hproducers, hworker⟩ := hswap size hpc
    unfold RingInv
    dsimp only
    rw [hworker, funext hproducers]
    exact .new _
  | restart hpc => exact h.setWorker (by rw [hrestart hpc]; rfl) (.inl rfl)
  | _ => exact h

variable [Fintype ι]

structure Inv (s : State ι κ) : Prop where
  ring : RingInv s
  tickets : Tickets s
  gate : Gate s
  stop : StopInv s.stopFlag s.shutdownRequested s.lifecycle
  worker : WorkerInv s.worker s.stopFlag s.shutdownReturned s.lifecycle
  quiet : s.lifecycle.committed = true → s.submittedTasks ≤ s.completedTasks
  requested : s.shutdownReturned = true → s.shutdownRequested = true
  refusing : ∀ i t, s.producers i = .complete t .stopped → s.shutdownRequested = true
  refused : s.stopped ≠ [] → s.shutdownRequested = true
  unchanged : s.lifecycle.unchanged = true →
    s.resizeFrom = (s.ringCount, s.workerCount, s.maxQueueSize)

namespace Inv

theorem at_swap (h : Inv s) (hpc : s.lifecycle = .resizeSwap size)
    : (∀ i, (s.producers i).admitted = false) ∧ s.worker = .exited ∧
      s.claimed.drop s.popped.length = [] := by
  refine ⟨h.gate.closed (by rw [hpc]; rfl), h.worker.joined (by rw [hpc]; rfl), ?_⟩
  exact (h.tickets.quiet (h.quiet (by rw [hpc]; rfl))).2.1

theorem requested_of_admitted (h : Inv s) {i : ι} (hadmitted : (s.producers i).admitted = true)
    (hstop : s.stopFlag = true)
    : s.shutdownRequested = true := by
  cases h.stop.raised.mp hstop with
  | inl hreq => exact hreq
  | inr hstops =>
    have hclosed := LifecyclePc.closed_of_committed (LifecyclePc.committed_of_stops hstops)
    rw [h.gate.closed hclosed i] at hadmitted
    contradiction

theorem init (cfg : Config) : Inv (MpscExecutor.init cfg : State ι κ) where
  ring := MpscRingAny.Inv.new _
  tickets := .init cfg
  gate := .init cfg
  stop := .init
  worker := .init
  quiet := by simp [MpscExecutor.init, LifecyclePc.committed]
  requested := by simp [MpscExecutor.init]
  refusing := by simp [MpscExecutor.init]
  refused := by simp [MpscExecutor.init]
  unchanged := by simp [MpscExecutor.init]

theorem refusing_update [DecidableEq ι] (h : Inv s) {i : ι} {pc : ProducerPc}
    (hpc : ∀ t, pc ≠ .complete t .stopped)
    : ∀ j t, Function.update s.producers i pc j = .complete t .stopped →
        s.shutdownRequested = true := by
  intro j t hj
  by_cases hji : j = i
  . rw [hji, Function.update_self] at hj
    exact absurd hj (hpc t)
  . rw [Function.update_of_ne hji] at hj
    exact h.refusing j t hj

variable [DecidableEq ι] [DecidableEq κ]

section

variable (h : Inv s) (hstep : Transition cfg s a s')

include h hstep

theorem quiet_step : s'.lifecycle.committed = true → s'.submittedTasks ≤ s'.completedTasks := by
  cases hstep with
  | @ticket i _ hpc =>
    -- A ticket is reserved inside of the gate.
    intro hcommitted
    have hout := h.gate.closed (LifecyclePc.closed_of_committed hcommitted) i
    rw [hpc] at hout
    contradiction
  | completeDropped | completeStopped | finish =>
    exact fun hcommitted => Nat.le_succ_of_le (h.quiet hcommitted)
  | lifecycleMove hmove =>
    intro hcommitted
    rcases hmove.committed hcommitted with hold | hdone | ⟨hstop, hout, hstops⟩
    . exact h.quiet hold
    . exact hdone
    . -- The flag is not up while the resize waits for the tickets.
      have hraised := h.stop.raised.mp hstop
      rw [h.stop.not_requested hout, hstops] at hraised
      simp at hraised
  | setMaxQueueSize | flag | reopen | shutdownRaise | shutdownReturn => simp [LifecyclePc.committed]
  | raise hpc | swap hpc | zero hpc | clear hpc | restart hpc =>
    exact fun _ => h.quiet (by rw [hpc]; rfl)
  | _ => exact h.quiet

theorem refusing_step
    : ∀ i t, s'.producers i = .complete t .stopped → s'.shutdownRequested = true := by
  cases hstep with
  | @producerMove _ i pc hmove =>
    generalize hold : s.producers i = old at hmove
    cases hmove with
    | @stopped t hstop =>
      intro j t' _
      exact h.requested_of_admitted (i := i) (by rw [hold]; rfl) hstop
    | _ => exact h.refusing_update (by simp)
  | count | uncount | ticket | drop | completeDropped | completeStopped | leave =>
    exact h.refusing_update (by simp)
  | @push i spurious t policy pc =>
    apply h.refusing_update
    intro t'
    cases (s.ring.pushStep spurious pc).2 with
    | returned ok v =>
      cases ok with
      | true => simp [afterPush]
      | false => cases policy <;> simp [afterPush]
    | _ => simp [afterPush]
  | shutdownRaise => exact fun _ _ _ => rfl
  | _ => exact h.refusing

theorem refused_step : s'.stopped ≠ [] → s'.shutdownRequested = true := by
  cases hstep with
  | completeStopped hpc => exact fun _ => h.refusing _ _ hpc
  | shutdownRaise => exact fun _ => rfl
  | _ => exact h.refused

theorem unchanged_step
    : s'.lifecycle.unchanged = true →
        s'.resizeFrom = (s'.ringCount, s'.workerCount, s'.maxQueueSize) := by
  cases hstep with
  | lifecycleMove hmove => exact fun hunchanged => h.unchanged (hmove.unchanged hunchanged)
  | setMaxQueueSize => exact fun _ => rfl
  | flag hpc | raise hpc => exact fun _ => h.unchanged (by rw [hpc]; rfl)
  | swap | zero | clear | restart | reopen | shutdownRaise | shutdownReturn =>
    simp [LifecyclePc.unchanged]
  | _ => exact h.unchanged

theorem requested_step : s'.shutdownReturned = true → s'.shutdownRequested = true := by
  cases hstep with
  | shutdownRaise => exact fun _ => rfl
  | shutdownReturn hpc => exact fun _ => h.stop.joining hpc
  | _ => exact h.requested

theorem step : Inv s' := by
  have hexited : s.lifecycle = .resizeStart → s.worker = .exited := by
    intro hpc
    exact h.worker.joined (by rw [hpc]; rfl)
  refine {
    ring := h.ring.step ?_ hexited hstep
    tickets := h.tickets.step h.ring (fun _ hpc => (h.at_swap hpc).2.2) hexited hstep
    gate := h.gate.step hstep
    stop := h.stop.step hstep
    worker := h.worker.step ?_ hstep
    quiet := h.quiet_step hstep
    requested := h.requested_step hstep
    refusing := h.refusing_step hstep
    refused := h.refused_step hstep
    unchanged := h.unchanged_step hstep }
  . intro size hpc
    obtain ⟨hnone, hworker, _⟩ := h.at_swap hpc
    refine ⟨fun i => ProducerPc.ringPc_of_not_admitted (hnone i), ?_⟩
    rw [hworker]
    rfl
  . intro hpc
    have hreq := h.stop.not_requested (by rw [hpc]; rfl)
    rw [← Bool.not_eq_true]
    intro hdone
    rw [h.requested hdone] at hreq
    contradiction

end

end Inv

theorem reachable_inv [DecidableEq ι] [DecidableEq κ] (h : (system ι κ cfg).Reachable s)
    : Inv s := by
  apply h.invariant Inv (.init cfg)
  intro s a s' _ hinv hstep
  exact hinv.step (.of_step hstep)

end LogIt.MpscExecutor
