import LogIt.Mpsc.Lemmas.Tickets

namespace LogIt.MpscExecutor
namespace ProducerPc

def counted (pc : ProducerPc) : Nat :=
  match pc with
  | .idle | .enter | .count => 0
  | _ => 1

def admitted (pc : ProducerPc) : Bool :=
  match pc with
  | .idle | .enter | .count | .recheck | .backOff => false
  | _ => true

theorem admitted_eq_false {pc : ProducerPc} (h : pc.counted = 0) : pc.admitted = false := by
  cases pc with
  | idle => rfl
  | enter => rfl
  | count => rfl
  | _ => contradiction

end ProducerPc

namespace LifecyclePc

def flagged (pc : LifecyclePc) : Bool :=
  match pc with
  | .free | .resizeCheck _ | .resizeFlag _ | .shutdownStop | .shutdownJoin => false
  | _ => true

def closed (pc : LifecyclePc) : Bool :=
  match pc with
  | .free | .resizeCheck _ | .resizeFlag _ | .resizePause _ | .resizeAbort | .shutdownStop
  | .shutdownJoin => false
  | _ => true

theorem flagged_of_closed {pc : LifecyclePc} (h : pc.closed = true) : pc.flagged = true := by
  cases pc with
  | free | resizeCheck size | resizeFlag size | shutdownStop | shutdownJoin => contradiction
  | _ => rfl

end LifecyclePc

variable {ι κ : Type} {s s' : State ι κ}

theorem ProducerMove.counted (h : ProducerMove s pc pc') : pc'.counted = pc.counted := by
  cases h <;> rfl

theorem ProducerMove.admitted (h : ProducerMove s pc pc')
    : pc'.admitted = pc.admitted ∨ s.resizing = false := by
  cases h with
  | passGate hgate => exact .inr hgate
  | _ => exact .inl rfl

theorem LifecycleMove.flagged (h : LifecycleMove s pc pc') (hflag : pc'.flagged = true)
    : pc.flagged = true := by
  cases h with
  | shutdown | refused | start => contradiction
  | _ => rfl

theorem LifecycleMove.closed (h : LifecycleMove s pc pc') (hclosed : pc'.closed = true)
    : pc.closed = true ∨ s.activeProducers = 0 := by
  cases h with
  | shutdown | refused | start | expirePause | expireWait | expireDone => contradiction
  | paused hpaused => exact .inr hpaused
  | _ => exact .inl rfl

variable [Fintype ι]

structure GateInv (producers : ι → ProducerPc) (activeProducers : Nat) (resizing : Bool)
    (lifecycle : LifecyclePc) : Prop where
  counted : activeProducers = threadSum ProducerPc.counted producers
  flagged : lifecycle.flagged = true → resizing = true
  closed : lifecycle.closed = true → ∀ i, (producers i).admitted = false

def Gate (s : State ι κ) : Prop :=
  GateInv s.producers s.activeProducers s.resizing s.lifecycle

namespace GateInv

variable {producers : ι → ProducerPc} {active : Nat} {resizing : Bool} {lifecycle : LifecyclePc}

section

variable (h : GateInv producers active resizing lifecycle)

include h

theorem not_admitted_of_count_zero (hzero : active = 0) (i : ι)
    : (producers i).admitted = false := by
  have hsum := h.counted
  rw [hzero] at hsum
  exact ProducerPc.admitted_eq_false (threadSum_eq_zero_iff.mp hsum.symm i)

theorem counted_le (i : ι) : (producers i).counted ≤ active := by
  rw [h.counted]
  exact le_threadSum ProducerPc.counted producers i

theorem setLifecycle (hflagged : pc.flagged = true → resizing' = true)
    (hclosed : pc.closed = true → lifecycle.closed = true ∨ active = 0)
    : GateInv producers active resizing' pc where
  counted := h.counted
  flagged := hflagged
  closed := by
    intro hpc i
    cases hclosed hpc with
    | inl hold => exact h.closed hold i
    | inr hzero => exact h.not_admitted_of_count_zero hzero i

theorem advance (hclosed : lifecycle.closed = true) : GateInv producers active resizing pc :=
  h.setLifecycle (fun _ => h.flagged (LifecyclePc.flagged_of_closed hclosed)) (fun _ => .inl hclosed)

theorem outside (hflagged : pc.flagged = true → resizing' = true) (hclosed : pc.closed = false)
    : GateInv producers active resizing' pc :=
  h.setLifecycle hflagged (by simp [hclosed])

end

variable [DecidableEq ι] {i : ι} {pc : ProducerPc}

theorem setProducer (h : GateInv producers active resizing lifecycle)
    (hcount : active' + (producers i).counted = active + pc.counted)
    (hadmitted : pc.admitted = (producers i).admitted ∨ resizing = false ∨ pc.admitted = false)
    : GateInv (Function.update producers i pc) active' resizing lifecycle where
  counted := by
    have hsum := threadSum_update ProducerPc.counted producers i pc
    have hcounted := h.counted
    omega
  flagged := h.flagged
  closed := by
    intro hclosed
    have hnone := h.closed hclosed
    rw [Function.forall_update_iff producers (fun _ x => x.admitted = false)]
    refine ⟨?_, fun j _ => hnone j⟩
    rcases hadmitted with hsame | hopen | hout
    . rw [hsame]
      exact hnone i
    . rw [h.flagged (LifecyclePc.flagged_of_closed hclosed)] at hopen
      contradiction
    . exact hout

theorem keep (h : GateInv producers active resizing lifecycle)
    (hcount : pc.counted = (producers i).counted) (hadmitted : pc.admitted = (producers i).admitted)
    : GateInv (Function.update producers i pc) active resizing lifecycle :=
  h.setProducer (by rw [hcount]) (.inl hadmitted)

end GateInv

namespace Gate

theorem init (cfg : Config) : Gate (MpscExecutor.init cfg : State ι κ) := by
  constructor
  case counted =>
    simp only [MpscExecutor.init]
    rw [threadSum_const_zero (by rfl : ProducerPc.counted .idle = 0)]
  case flagged => simp [MpscExecutor.init, LifecyclePc.flagged]
  case closed => simp [MpscExecutor.init, LifecyclePc.closed]

theorem afterPush_side (t : Nat) (policy : QueuePolicy) (pc : PushPc Nat Nat)
    : (afterPush t policy pc).counted = 1 ∧ (afterPush t policy pc).admitted = true := by
  cases pc with
  | returned ok v =>
    cases ok with
    | true => exact ⟨rfl, rfl⟩
    | false => cases policy <;> exact ⟨rfl, rfl⟩
  | _ => exact ⟨rfl, rfl⟩

theorem step [DecidableEq ι] [DecidableEq κ] (h : Gate s) (hstep : Transition cfg s a s')
    : Gate s' := by
  cases hstep with
  | skip => exact h
  | producerMove hmove =>
    exact GateInv.setProducer h (by rw [hmove.counted]; rfl) (hmove.admitted.imp_right .inl)
  | count hpc => exact GateInv.setProducer h (by rw [hpc]; rfl) (.inr (.inr rfl))
  | @uncount i _ hpc | @leave i _ t hpc =>
    have hle := GateInv.counted_le h i
    rw [hpc] at hle
    refine GateInv.setProducer h ?_ (.inr (.inr rfl))
    rw [hpc]
    exact Nat.sub_add_cancel hle
  | ticket hpc | drop hpc | completeDropped hpc | completeStopped hpc =>
    exact GateInv.keep h (by rw [hpc]; rfl) (by rw [hpc]; rfl)
  | @push i spurious t policy pc hpc =>
    obtain ⟨hcount, hadmitted⟩ := afterPush_side t policy (s.ring.pushStep spurious pc).2
    exact GateInv.keep h (by rw [hcount, hpc]; rfl) (by rw [hadmitted, hpc]; rfl)
  | lifecycleMove hmove =>
    refine GateInv.setLifecycle h ?_ hmove.closed
    intro hflagged
    exact h.flagged (hmove.flagged hflagged)
  | setMaxQueueSize | reopen | shutdownRaise | shutdownReturn =>
    exact GateInv.outside h (by simp [LifecyclePc.flagged]) rfl
  | flag => exact GateInv.outside h (fun _ => rfl) rfl
  | raise hpc | swap hpc | zero hpc | clear hpc | restart hpc =>
    exact GateInv.advance h (by rw [hpc]; rfl)
  | _ => exact h

end Gate
end LogIt.MpscExecutor

namespace LogIt.MpscExecutor
namespace LifecyclePc

section

variable (pc : LifecyclePc)

def stops : Bool :=
  match pc with
  | .resizeJoin _ | .resizeSwap _ | .resizeZero | .resizeClear => true
  | _ => false

def outside : Bool :=
  match pc with
  | .free | .resizeCheck _ | .shutdownStop | .shutdownJoin => true
  | _ => false

def joined : Bool :=
  match pc with
  | .resizeSwap _ | .resizeZero | .resizeClear | .resizeStart => true
  | _ => false

def committed : Bool :=
  match pc with
  | .resizeStop _ | .resizeJoin _ | .resizeSwap _ | .resizeZero | .resizeClear | .resizeStart
  | .resizeReopen => true
  | _ => false

def unchanged : Bool :=
  match pc with
  | .resizeCheck _ | .resizeFlag _ | .resizePause _ | .idleLoad _ | .idleWait _ _ | .idleStop _
  | .idleDone _ | .resizeStop _ | .resizeJoin _ | .resizeSwap _ | .resizeAbort => true
  | _ => false

end

theorem closed_of_committed {pc : LifecyclePc} (h : pc.committed = true) : pc.closed = true := by
  cases pc with
  | resizeStop size | resizeJoin size | resizeSwap size | resizeZero | resizeClear | resizeStart
  | resizeReopen => rfl
  | _ => contradiction

theorem committed_of_stops {pc : LifecyclePc} (h : pc.stops = true) : pc.committed = true := by
  cases pc with
  | resizeJoin size | resizeSwap size | resizeZero | resizeClear => rfl
  | _ => contradiction

end LifecyclePc

variable {ι κ : Type} {s s' : State ι κ} {cfg : Config} {a : Action ι κ}

section

variable {pc pc' : LifecyclePc} (h : LifecycleMove s pc pc')

include h

theorem LifecycleMove.stops : pc'.stops = pc.stops := by
  cases h <;> rfl

theorem LifecycleMove.outside (hout : pc.outside = true)
    : pc'.outside = true ∨ s.stopFlag = false := by
  cases h with
  | shutdown | refused => exact .inl rfl
  | start hstop => exact .inr hstop
  | _ => contradiction

theorem LifecycleMove.ne_shutdownJoin : pc' ≠ .shutdownJoin := by
  cases h <;> simp

end

structure StopInv (stop requested : Bool) (lifecycle : LifecyclePc) : Prop where
  raised : stop = true ↔ requested = true ∨ lifecycle.stops = true
  outside : requested = true → lifecycle.outside = true
  joining : lifecycle = .shutdownJoin → requested = true

theorem StopInv.init : StopInv false false .free where
  raised := by simp [LifecyclePc.stops]
  outside := by simp
  joining := by simp

theorem StopInv.setLifecycle (h : StopInv stop requested lifecycle)
    (hstops : pc.stops = lifecycle.stops) (hout : requested = true → pc.outside = true)
    (hpc : pc ≠ .shutdownJoin)
    : StopInv stop requested pc where
  raised := by
    rw [hstops]
    exact h.raised
  outside := hout
  joining := fun hjoin => absurd hjoin hpc

theorem StopInv.not_requested (h : StopInv stop requested lifecycle)
    (hout : lifecycle.outside = false)
    : requested = false := by
  rw [← Bool.not_eq_true]
  intro hreq
  rw [h.outside hreq] at hout
  contradiction

theorem StopInv.step [DecidableEq ι] [DecidableEq κ]
    (h : StopInv s.stopFlag s.shutdownRequested s.lifecycle)
    (hstep : Transition cfg s a s')
    : StopInv s'.stopFlag s'.shutdownRequested s'.lifecycle := by
  -- A resize that goes on without touching the flag.
  have hadvance : ∀ {pc : LifecyclePc}, s.lifecycle.outside = false →
      pc.stops = s.lifecycle.stops → pc ≠ .shutdownJoin →
      StopInv s.stopFlag s.shutdownRequested pc := by
    intro pc hout hstops hpc
    refine h.setLifecycle hstops ?_ hpc
    simp [h.not_requested hout]
  cases hstep with
  | lifecycleMove hmove =>
    refine h.setLifecycle hmove.stops ?_ ?_
    . intro hreq
      cases hmove.outside (h.outside hreq) with
      | inl hout => exact hout
      | inr hstop =>
        rw [h.raised.mpr (.inl hreq)] at hstop
        contradiction
    . exact hmove.ne_shutdownJoin
  | flag hpc | swap hpc | zero hpc | restart hpc =>
    exact hadvance (by rw [hpc]; rfl) (by rw [hpc]; rfl) (by simp)
  | raise hpc =>
    have hreq := h.not_requested (by rw [hpc]; rfl)
    exact { raised := by simp [LifecyclePc.stops], outside := by simp [hreq], joining := by simp }
  | clear hpc =>
    have hreq := h.not_requested (by rw [hpc]; rfl)
    exact {
      raised := by simp [LifecyclePc.stops, hreq], outside := by simp [hreq], joining := by simp }
  | reopen hpc =>
    refine h.setLifecycle ?_ (fun _ => rfl) (by simp)
    cases hpc with
    | inl hpc | inr hpc => rw [hpc]; rfl
  | shutdownRaise => exact { raised := by simp, outside := fun _ => rfl, joining := fun _ => rfl }
  | setMaxQueueSize hpc | shutdownReturn hpc =>
    exact h.setLifecycle (by rw [hpc]; rfl) (fun _ => rfl) (by simp)
  | _ => exact h

theorem LifecycleMove.exited_of_joined (h : LifecycleMove s pc pc') (hjoined : pc'.joined = true)
    : s.worker = .exited := by
  cases h with
  | joined hexited => exact hexited
  | _ => contradiction

theorem LifecycleMove.ne_start (h : LifecycleMove s pc pc') : pc ≠ .resizeStart := by
  cases h <;> simp

theorem WorkerMove.ne_exited (h : WorkerMove s pc pc') : pc ≠ .exited := by
  cases h <;> simp

structure WorkerInv (worker : WorkerPc) (stop done : Bool) (lifecycle : LifecyclePc) : Prop where
  joined : lifecycle.joined = true → worker = .exited
  exited : worker = .exited → stop = true ∨ lifecycle = .resizeStart
  sleeping : worker = .sleepEmpty → stop = true
  done : done = true → worker = .exited

theorem WorkerInv.init : WorkerInv .loop false false .free where
  joined := by simp [LifecyclePc.joined]
  exited := by simp
  sleeping := by simp
  done := by simp

theorem WorkerInv.setWorker {worker pc : WorkerPc} {stop done : Bool} {lifecycle : LifecyclePc}
    (h : WorkerInv worker stop done lifecycle) (hold : worker ≠ .exited) (hnew : pc ≠ .exited)
    (hsleep : pc ≠ .sleepEmpty)
    : WorkerInv pc stop done lifecycle where
  joined := fun hjoined => absurd (h.joined hjoined) hold
  exited := fun hexited => absurd hexited hnew
  sleeping := fun hsleeping => absurd hsleeping hsleep
  done := fun hdone => absurd (h.done hdone) hold

theorem WorkerInv.workerMove (h : WorkerInv s.worker s.stopFlag s.shutdownReturned s.lifecycle)
    (hmove : WorkerMove s s.worker pc)
    : WorkerInv pc s.stopFlag s.shutdownReturned s.lifecycle where
  joined := fun hjoined => absurd (h.joined hjoined) hmove.ne_exited
  exited := by
    intro hexited
    generalize hw : s.worker = worker at hmove
    cases hmove with
    | stop hstop => exact .inl hstop
    | sleepEmpty => exact .inl (h.sleeping hw)
    | _ => contradiction
  sleeping := by
    intro hsleeping
    generalize s.worker = worker at hmove
    cases hmove with
    | sleepStop hstop => exact hstop
    | _ => contradiction
  done := fun hdone => absurd (h.done hdone) hmove.ne_exited

theorem AfterPop.running (h : AfterPop budget drained pc pc')
    : pc' ≠ .exited ∧ pc' ≠ .sleepEmpty := by
  cases h <;> simp

section

variable {worker : WorkerPc} {stop done : Bool} {lifecycle pc : LifecyclePc}
  (h : WorkerInv worker stop done lifecycle)

include h

theorem WorkerInv.setLifecycle (hold : lifecycle ≠ .resizeStart)
    (hjoined : pc.joined = true → worker = .exited)
    : WorkerInv worker stop done pc where
  __ := h
  joined := hjoined
  exited := by
    intro hexited
    cases h.exited hexited with
    | inl hstop => exact .inl hstop
    | inr hstart => exact absurd hstart hold

theorem WorkerInv.raise (hpc : pc.joined = false)
    : WorkerInv worker true done pc where
  joined := by simp [hpc]
  exited := fun _ => .inl rfl
  sleeping := fun _ => rfl
  done := h.done

end

theorem WorkerInv.step [DecidableEq ι] [DecidableEq κ]
    (h : WorkerInv s.worker s.stopFlag s.shutdownReturned s.lifecycle)
    (hrestart : s.lifecycle = .resizeStart → s.shutdownReturned = false)
    (hstep : Transition cfg s a s')
    : WorkerInv s'.worker s'.stopFlag s'.shutdownReturned s'.lifecycle := by
  cases hstep with
  | workerMove hmove => exact h.workerMove hmove
  | pop hpc hafter => exact h.setWorker (by simp [hpc]) hafter.running.1 hafter.running.2
  | run hpc | finish hpc => exact h.setWorker (by simp [hpc]) (by simp) (by simp)
  | lifecycleMove hmove => exact h.setLifecycle hmove.ne_start hmove.exited_of_joined
  | setMaxQueueSize hpc | flag hpc =>
    exact h.setLifecycle (by simp [hpc]) (by simp [LifecyclePc.joined])
  | raise | shutdownRaise => exact h.raise rfl
  | swap hpc | zero hpc =>
    exact h.setLifecycle (by simp [hpc]) (fun _ => h.joined (by rw [hpc]; rfl))
  | clear hpc =>
    have hexited := h.joined (by rw [hpc]; rfl)
    exact {
      joined := fun _ => hexited
      exited := fun _ => .inr rfl
      sleeping := by simp [hexited]
      done := h.done }
  | restart hpc =>
    have hdone := hrestart hpc
    exact {
      joined := by simp [LifecyclePc.joined]
      exited := by simp
      sleeping := by simp
      done := by simp [hdone] }
  | reopen hpc =>
    refine h.setLifecycle ?_ (by simp [LifecyclePc.joined])
    cases hpc with
    | inl hpc | inr hpc => simp [hpc]
  | shutdownReturn hpc hexited =>
    exact {
      joined := fun _ => hexited
      exited := by
        intro _
        cases h.exited hexited with
        | inl hstop => exact .inl hstop
        | inr hstart =>
          rw [hpc] at hstart
          contradiction
      sleeping := h.sleeping
      done := fun _ => hexited }
  | _ => exact h

end LogIt.MpscExecutor
