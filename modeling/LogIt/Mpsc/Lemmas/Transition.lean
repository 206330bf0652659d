import LogIt.Mpsc.Impl.Executor

namespace LogIt.MpscExecutor

variable {ι κ : Type}

inductive ProducerMove (s : State ι κ) : ProducerPc → ProducerPc → Prop where
  | call : ProducerMove s .idle .enter
  | enter (hgate : s.resizing = false) : ProducerMove s .enter .count
  | backOff (hgate : s.resizing = true) : ProducerMove s .recheck .backOff
  | passGate (hgate : s.resizing = false) : ProducerMove s .recheck .ticket
  | stopped {t} (hstop : s.stopFlag = true) : ProducerMove s (.checkStop t) (.complete t .stopped)
  | goOn {t} (hstop : s.stopFlag = false) : ProducerMove s (.checkStop t) (.loadPolicy t)
  | loadPolicy {t policy} : ProducerMove s (.loadPolicy t) (.checkLimit t policy)
  | backpressure {t policy} : ProducerMove s (.checkLimit t policy) (.checkStop t)
  | tryPush {t policy} : ProducerMove s (.checkLimit t policy) (.push t policy (.load t))

inductive WorkerMove (s : State ι κ) : WorkerPc → WorkerPc → Prop where
  | loop {budget} : WorkerMove s .loop (.drain budget false)
  | drained {drained} : WorkerMove s (.drain 0 drained) (.testEmpty drained)
  | tryPop {budget drained} : WorkerMove s (.drain (budget + 1) drained) (.pop budget drained .load)
  | popFail {drained} : WorkerMove s (.popFail drained) (.testEmpty drained)
  | release {budget} : WorkerMove s (.release budget) (.drain budget true)
  | empty {drained} (hempty : s.ring.empty = true)
    : WorkerMove s (.testEmpty drained) (.testActive drained)
  | nonempty {drained} : WorkerMove s (.testEmpty drained) (.tail drained)
  | inactive {drained} : WorkerMove s (.testActive drained) (.testStop drained)
  | active {drained} : WorkerMove s (.testActive drained) (.tail drained)
  | stop {drained} (hstop : s.stopFlag = true) : WorkerMove s (.testStop drained) .exited
  | goOn {drained} : WorkerMove s (.testStop drained) (.tail drained)
  | again : WorkerMove s (.tail true) .loop
  | sleep : WorkerMove s (.tail false) .sleepStop
  | sleepStop (hstop : s.stopFlag = true) : WorkerMove s .sleepStop .sleepEmpty
  | awake : WorkerMove s .sleepStop .loop
  | sleepEmpty (hempty : s.ring.empty = true) : WorkerMove s .sleepEmpty .exited
  | sleepNonempty : WorkerMove s .sleepEmpty .loop

inductive WaiterMove (s : State ι κ) : WaiterPc → WaiterPc → Prop where
  | call : WaiterMove s .idle (.load s.returned)
  | callAgain {before} : WaiterMove s (.returned before) (.load s.returned)
  | load {before target} : WaiterMove s (.load before) (.wait before target)
  | wake {before target} : WaiterMove s (.wait before target) (.testStop before)
  | stopped {before} (hstop : s.stopFlag = true)
    : WaiterMove s (.testStop before) (.returned before)
  | goOn {before} : WaiterMove s (.testStop before) (.testDone before)
  | done {before} (hdone : s.submittedTasks ≤ s.completedTasks)
    : WaiterMove s (.testDone before) (.returned before)
  | again {before} : WaiterMove s (.testDone before) (.load before)

inductive LifecycleMove (s : State ι κ) : LifecyclePc → LifecyclePc → Prop where
  | shutdown : LifecycleMove s .free .shutdownStop
  | refused {size} : LifecycleMove s (.resizeCheck size) .free
  | start {size} (hstop : s.stopFlag = false)
    : LifecycleMove s (.resizeCheck size) (.resizeFlag size)
  | paused {size} (hpaused : s.activeProducers = 0)
    : LifecycleMove s (.resizePause size) (.idleLoad size)
  | load {size target} : LifecycleMove s (.idleLoad size) (.idleWait size target)
  | idle {size target} : LifecycleMove s (.idleWait size target) (.idleStop size)
  | stopped {size} (hstop : s.stopFlag = true) : LifecycleMove s (.idleStop size) (.resizeStop size)
  | goOn {size} : LifecycleMove s (.idleStop size) (.idleDone size)
  | done {size} (hdone : s.submittedTasks ≤ s.completedTasks)
    : LifecycleMove s (.idleDone size) (.resizeStop size)
  | again {size} : LifecycleMove s (.idleDone size) (.idleLoad size)
  | joined {size} (hexited : s.worker = .exited)
    : LifecycleMove s (.resizeJoin size) (.resizeSwap size)
  | expirePause {size} : LifecycleMove s (.resizePause size) .resizeAbort
  | expireWait {size target} : LifecycleMove s (.idleWait size target) .resizeAbort
  | expireDone {size} : LifecycleMove s (.idleDone size) .resizeAbort

inductive AfterPop (budget : Nat) (drained : Bool) : PopPc Nat Nat → WorkerPc → Prop where
  | run {t} : AfterPop budget drained (.returned true (some t)) (.run budget t)
  | fail {out} : AfterPop budget drained (.returned false out) (.popFail drained)
  | goOn {pc} (hcall : pc.inCall = true ∨ pc = .idle)
    : AfterPop budget drained pc (.pop budget drained pc)

section Transition

variable [DecidableEq ι] [DecidableEq κ]

variable (cfg : Config) (s : State ι κ) in
inductive Transition : Action ι κ → State ι κ → Prop where
  | skip {a} : Transition a s
  | producerMove {a i pc} (hmove : ProducerMove s (s.producers i) pc)
    : Transition a (s.setProducer i pc)
  | count {i spurious} (hpc : s.producers i = .count) : Transition (.producer i spurious)
        { s.setProducer i .recheck with activeProducers := s.activeProducers + 1 }
  | uncount {i spurious} (hpc : s.producers i = .backOff) : Transition (.producer i spurious)
        { s.setProducer i .enter with activeProducers := s.activeProducers - 1 }
  | ticket {i spurious} (hpc : s.producers i = .ticket)
    : Transition (.producer i spurious) { s.setProducer i (.checkStop s.submittedTasks) with
          submittedTasks := s.submittedTasks + 1 }
  | push {i spurious t policy pc} (hpc : s.producers i = .push t policy pc)
    : Transition (.producer i spurious)
        { s.setProducer i (afterPush t policy (s.ring.pushStep spurious pc).2) with
          ring := (s.ring.pushStep spurious pc).1
          claimed := s.claimed ++ pc.claims (s.ring.pushStep spurious pc).2
          accepted := s.accepted ++ pc.claims (s.ring.pushStep spurious pc).2 }
  | drop {i spurious t} (hpc : s.producers i = .drop t) : Transition (.producer i spurious)
        { s.setProducer i (.complete t .dropped) with droppedTasks := s.droppedTasks + 1 }
  | completeDropped {i spurious t} (hpc : s.producers i = .complete t .dropped)
    : Transition (.producer i spurious) { s.setProducer i (.leave t) with
          completedTasks := s.completedTasks + 1
          completions := s.completions ++ [t]
          dropped := s.dropped ++ [t] }
  | completeStopped {i spurious t} (hpc : s.producers i = .complete t .stopped)
    : Transition (.producer i spurious) { s.setProducer i (.leave t) with
          completedTasks := s.completedTasks + 1
          completions := s.completions ++ [t]
          stopped := s.stopped ++ [t] }
  | leave {i spurious t} (hpc : s.producers i = .leave t)
    : Transition (.producer i spurious) { s.setProducer i .idle with
          activeProducers := s.activeProducers - 1
          returned := s.returned ++ [t] }
  | workerMove {spurious active pc} (hmove : WorkerMove s s.worker pc)
    : Transition (.worker spurious) { s with activeTasks := active, worker := pc }
  | pop {spurious budget drained pc pc'} (hpc : s.worker = .pop budget drained pc)
      (hafter : AfterPop budget drained (s.ring.popStep spurious pc).2 pc')
    : Transition (.worker spurious) { s with
          ring := (s.ring.popStep spurious pc).1
          popped := s.popped ++ pc.pops (s.ring.popStep spurious pc).2
          worker := pc' }
  | run {spurious budget t} (hpc : s.worker = .run budget t) : Transition (.worker spurious)
        { s with worker := .finish budget t, executed := s.executed ++ [t] }
  | finish {spurious budget t} (hpc : s.worker = .finish budget t)
    : Transition (.worker spurious) { s with
          worker := .release budget
          completedTasks := s.completedTasks + 1
          completions := s.completions ++ [t] }
  | waiterMove {a k pc} (hmove : WaiterMove s (s.waiters k) pc) : Transition a (s.setWaiter k pc)
  | lifecycleMove {a pc} (hmove : LifecycleMove s s.lifecycle pc)
    : Transition a { s with lifecycle := pc }
  | setMaxQueueSize {size} (hpc : s.lifecycle = .free) : Transition (.setMaxQueueSize size)
        { s with
          lifecycle := .resizeCheck size
          resizeFrom := (s.ringCount, s.workerCount, s.maxQueueSize) }
  | flag {size} (hpc : s.lifecycle = .resizeFlag size)
    : Transition .lifecycle { s with resizing := true, lifecycle := .resizePause size }
  | raise {size} (hpc : s.lifecycle = .resizeStop size)
    : Transition .lifecycle { s with stopFlag := true, lifecycle := .resizeJoin size }
  | swap {size} (hpc : s.lifecycle = .resizeSwap size) : Transition .lifecycle
        { s with
          maxQueueSize := size
          ring := .new (if size = 0 then cfg.defaultRingCap else size)
          claimed := []
          popped := []
          ringCount := s.ringCount + 1
          lifecycle := .resizeZero }
  | zero (hpc : s.lifecycle = .resizeZero)
    : Transition .lifecycle { s with activeTasks := 0, lifecycle := .resizeClear }
  | clear (hpc : s.lifecycle = .resizeClear)
    : Transition .lifecycle { s with stopFlag := false, lifecycle := .resizeStart }
  | restart (hpc : s.lifecycle = .resizeStart) : Transition .lifecycle
        { s with
          worker := .loop
          workerCount := s.workerCount + 1
          lifecycle := .resizeReopen }
  | reopen (hpc : s.lifecycle = .resizeReopen ∨ s.lifecycle = .resizeAbort)
    : Transition .lifecycle { s with resizing := false, lifecycle := .free }
  | shutdownRaise (hpc : s.lifecycle = .shutdownStop) : Transition .lifecycle
        { s with stopFlag := true, shutdownRequested := true, lifecycle := .shutdownJoin }
  | shutdownReturn (hpc : s.lifecycle = .shutdownJoin) (hexited : s.worker = .exited)
    : Transition .lifecycle { s with shutdownReturned := true, lifecycle := .free }
  | setPolicy {policy} : Transition (.setQueuePolicy policy) { s with overflowPolicy := policy }
  | resetDrops : Transition .resetDroppedTasks { s with droppedTasks := 0 }

variable {cfg : Config} {s s' : State ι κ}

theorem Transition.of_producerStep (h : producerStep s i spurious = some s')
    : Transition cfg s (.producer i spurious) s' := by
  have hmove : ∀ pc, ProducerMove s (s.producers i) pc →
      Transition cfg s (.producer i spurious) (s.setProducer i pc) :=
    fun _ => .producerMove
  unfold producerStep at h
  cases hpc : s.producers i with simp only [hpc] at h hmove
  | idle => contradiction
  | enter =>
    split at h
    . cases h
      exact .skip
    . next hgate =>
      cases h
      exact hmove _ (.enter (by simpa using hgate))
  | count =>
    cases h
    exact .count hpc
  | recheck =>
    split at h
    . next hgate =>
      cases h
      exact hmove _ (.backOff hgate)
    . next hgate =>
      cases h
      exact hmove _ (.passGate (by simpa using hgate))
  | backOff =>
    cases h
    exact .uncount hpc
  | ticket =>
    cases h
    exact .ticket hpc
  | checkStop t =>
    split at h
    . next hstop =>
      cases h
      exact hmove _ (.stopped hstop)
    . next hstop =>
      cases h
      exact hmove _ (.goOn (by simpa using hstop))
  | loadPolicy t =>
    cases h
    exact hmove _ .loadPolicy
  | checkLimit t policy =>
    split at h
    . cases h
      exact hmove _ .backpressure
    . cases h
      exact hmove _ .tryPush
  | push t policy pc =>
    cases h
    exact .push hpc
  | drop t =>
    cases h
    exact .drop hpc
  | complete t refusal =>
    cases refusal with
    | dropped =>
      cases h
      exact .completeDropped hpc
    | stopped =>
      cases h
      exact .completeStopped hpc
  | leave t =>
    cases h
    exact .leave hpc

theorem Transition.of_workerStep (h : workerStep cfg s spurious = some s')
    : Transition cfg s (.worker spurious) s' := by
  have hmove : ∀ pc active, WorkerMove s s.worker pc →
      Transition cfg s (.worker spurious) { s with activeTasks := active, worker := pc } :=
    fun _ _ => .workerMove
  unfold workerStep at h
  cases hpc : s.worker with simp only [hpc] at h hmove
  | exited => contradiction
  | loop =>
    cases h
    exact hmove _ _ .loop
  | drain budget drained =>
    cases budget with
    | zero =>
      cases h
      exact hmove _ _ .drained
    | succ budget =>
      cases h
      exact hmove _ _ .tryPop
  | pop budget drained pc =>
    have hpop : ∀ pc', AfterPop budget drained (s.ring.popStep spurious pc).2 pc' →
        Transition cfg s (.worker spurious)
          { s with
            ring := (s.ring.popStep spurious pc).1
            popped := s.popped ++ pc.pops (s.ring.popStep spurious pc).2
            worker := pc' } :=
      fun _ => .pop hpc
    cases hres : (s.ring.popStep spurious pc).2 with rw [hres] at h hpop
    | returned ok out =>
      cases ok with
      | true =>
        cases out with
        | none => contradiction
        | some t =>
          cases h
          exact hpop _ .run
      | false =>
        cases h
        exact hpop _ .fail
    | idle =>
      cases h
      exact hpop _ (.goOn (.inr rfl))
    | _ =>
      cases h
      exact hpop _ (.goOn (.inl rfl))
  | popFail drained =>
    cases h
    exact hmove _ _ .popFail
  | run budget t =>
    cases h
    exact .run hpc
  | finish budget t =>
    cases h
    exact .finish hpc
  | release budget =>
    cases h
    exact hmove _ _ .release
  | testEmpty drained =>
    split at h
    . next hempty =>
      cases h
      exact hmove _ _ (.empty hempty)
    . cases h
      exact hmove _ _ .nonempty
  | testActive drained =>
    split at h
    . cases h
      exact hmove _ _ .inactive
    . cases h
      exact hmove _ _ .active
  | testStop drained =>
    split at h
    . next hstop =>
      cases h
      exact hmove _ _ (.stop hstop)
    . cases h
      exact hmove _ _ .goOn
  | tail drained =>
    cases drained with
    | true =>
      cases h
      exact hmove _ _ .again
    | false =>
      cases h
      exact hmove _ _ .sleep
  | sleepStop =>
    split at h
    . next hstop =>
      cases h
      exact hmove _ _ (.sleepStop hstop)
    . cases h
      exact hmove _ _ .awake
  | sleepEmpty =>
    split at h
    . next hempty =>
      cases h
      exact hmove _ _ (.sleepEmpty hempty)
    . cases h
      exact hmove _ _ .sleepNonempty

theorem Transition.of_waiterStep (h : waiterStep s k = some s')
    : Transition cfg s (.waiter k) s' := by
  have hmove : ∀ pc, WaiterMove s (s.waiters k) pc →
      Transition cfg s (.waiter k) (s.setWaiter k pc) :=
    fun _ => .waiterMove
  unfold waiterStep at h
  cases hpc : s.waiters k with simp only [hpc] at h hmove
  | idle | returned before => contradiction
  | load before =>
    cases h
    exact hmove _ .load
  | wait before target =>
    split at h
    . cases h
      exact hmove _ .wake
    . cases h
      exact .skip
  | testStop before =>
    split at h
    . next hstop =>
      cases h
      exact hmove _ (.stopped hstop)
    . cases h
      exact hmove _ .goOn
  | testDone before =>
    split at h
    . next hdone =>
      cases h
      exact hmove _ (.done hdone)
    . cases h
      exact hmove _ .again

theorem Transition.of_lifecycleStep (h : lifecycleStep cfg s = some s')
    : Transition cfg s .lifecycle s' := by
  have hmove : ∀ pc, LifecycleMove s s.lifecycle pc →
      Transition cfg s .lifecycle { s with lifecycle := pc } :=
    fun _ => .lifecycleMove
  unfold lifecycleStep at h
  cases hpc : s.lifecycle with simp only [hpc] at h hmove
  | free => contradiction
  | resizeCheck size =>
    split at h
    . cases h
      exact hmove _ .refused
    . next hstop =>
      cases h
      exact hmove _ (.start (by simpa using hstop))
  | resizeFlag size =>
    cases h
    exact .flag hpc
  | resizePause size =>
    split at h
    . next hpaused =>
      cases h
      exact hmove _ (.paused hpaused)
    . cases h
      exact .skip
  | idleLoad size =>
    cases h
    exact hmove _ .load
  | idleWait size target =>
    split at h
    . cases h
      exact hmove _ .idle
    . cases h
      exact .skip
  | idleStop size =>
    split at h
    . next hstop =>
      cases h
      exact hmove _ (.stopped hstop)
    . cases h
      exact hmove _ .goOn
  | idleDone size =>
    split at h
    . next hdone =>
      cases h
      exact hmove _ (.done hdone)
    . cases h
      exact hmove _ .again
  | resizeStop size =>
    cases h
    exact .raise hpc
  | resizeJoin size =>
    split at h
    . next hexited =>
      cases h
      exact hmove _ (.joined hexited)
    . contradiction
  | resizeSwap size =>
    cases h
    exact .swap hpc
  | resizeZero =>
    cases h
    exact .zero hpc
  | resizeClear =>
    cases h
    exact .clear hpc
  | resizeStart =>
    cases h
    exact .restart hpc
  | resizeReopen =>
    cases h
    exact .reopen (.inl hpc)
  | resizeAbort =>
    cases h
    exact .reopen (.inr hpc)
  | shutdownStop =>
    cases h
    exact .shutdownRaise hpc
  | shutdownJoin =>
    split at h
    . next hexited =>
      cases h
      exact .shutdownReturn hpc hexited
    . contradiction

theorem Transition.of_step (h : step cfg s a = some s') : Transition cfg s a s' := by
  cases a with simp only [step] at h
  | addTask i callable =>
    split at h
    . next hpc =>
      cases h
      exact .producerMove (by rw [hpc]; exact .call)
    . cases h
      exact .skip
    . contradiction
  | producer i spurious => exact .of_producerStep h
  | worker spurious => exact .of_workerStep h
  | wait k =>
    split at h
    . next hpc =>
      cases h
      exact .waiterMove (by rw [hpc]; exact .call)
    . next hpc =>
      cases h
      exact .waiterMove (by rw [hpc]; exact .callAgain)
    . contradiction
  | waiter k => exact .of_waiterStep h
  | setMaxQueueSize size =>
    split at h
    . next hpc =>
      cases h
      exact .setMaxQueueSize hpc
    . contradiction
  | shutdown =>
    split at h
    . next hpc =>
      cases h
      exact .lifecycleMove (by rw [hpc]; exact .shutdown)
    . contradiction
  | lifecycle => exact .of_lifecycleStep h
  | expire =>
    split at h
    . next hpc =>
      cases h
      exact .lifecycleMove (by rw [hpc]; exact .expirePause)
    . next hpc =>
      cases h
      exact .lifecycleMove (by rw [hpc]; exact .expireWait)
    . next hpc =>
      cases h
      exact .lifecycleMove (by rw [hpc]; exact .expireDone)
    . contradiction
  | setQueuePolicy policy =>
    split at h
    . split at h
      . cases h
        exact .skip
      . cases h
        exact .setPolicy
    . contradiction
  | resetDroppedTasks =>
    cases h
    exact .resetDrops

end Transition
end LogIt.MpscExecutor
