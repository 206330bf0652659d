import LogIt.Deque.Impl.Executor

namespace LogIt.DequeExecutor

variable {ι : Type} [DecidableEq ι] [Fintype ι]

variable (v : Variant) (s : State ι) in
inductive Transition : Action ι → State ι → Prop where
  -- an empty task, or a setter after the stop
  | skip {a} : Transition a s
  | call {c} (hc : s.clients c = .idle) : Transition (.addTask c true)
        { s.setClient c (.addTask s.submitted) with submitted := s.submitted + 1 }
  | reject {c t} (hc : s.clients c = .addTask t ∨ s.clients c = .addWoken t)
      (hstop : s.stopFlag = true)
    : Transition (.addLock c) (s.reject c t)
  | dropNewest {c t} (hc : s.clients c = .addTask t) (hlimit : 0 < s.maxQueueSize)
    : Transition (.addLock c) (s.dropNewest c t)
  | dropOldest {c t old ts} (hc : s.clients c = .addTask t)
      (hqueue : s.tasksQueue = old :: ts) (hstop : s.stopFlag = false)
      (hlimit : 0 < s.maxQueueSize) (hpolicy : s.overflowPolicy = .dropOldest)
    : Transition (.addLock c) (s.dropOldest.pushBack c t)
  | push {c t} (hc : s.clients c = .addTask t ∨ s.clients c = .addWoken t)
      (hroom : s.clients c = .addWoken t → s.hasRoom v = true) (hstop : s.stopFlag = false)
      (hlimit : 0 < s.maxQueueSize → s.tasksQueue.length < s.maxQueueSize)
    : Transition (.addLock c) (s.pushBack c t)
  | parkProducer {c t} (hc : s.clients c = .addTask t ∨ s.clients c = .addWoken t)
      (hfirst : s.clients c = .addTask t → 0 < s.maxQueueSize) (hroom : s.hasRoom v = false)
    : Transition (.addLock c) (s.setClient c (.addParked t))
  | addNotify {c t target s'} (hc : s.clients c = .addNotify t)
      (hnotify : { s.setClient c .idle with returned := s.returned ++ [t] }.notifyOne target
        = some s')
    : Transition (.addNotify c target) s'
  | wait {c} (hc : s.clients c = .idle) : Transition (.wait c) (s.setClient c (.wait s.enqueued))
  | waitDone {c before} (hc : s.clients c = .wait before ∨ s.clients c = .waitWoken before)
      (hdrained : s.drained v = true)
    : Transition (.waitLock c) (s.setClient c (.waitReturned before s.stopFlag))
  | parkWaiter {c before} (hc : s.clients c = .wait before ∨ s.clients c = .waitWoken before)
    : Transition (.waitLock c) (s.setClient c (.waitParked before))
  | waitReturn {c before stopped} (hc : s.clients c = .waitReturned before stopped)
    : Transition (.waitReturn c) (s.setClient c .idle)
  | setLimit {c size} (hv : v = .taskExecutor)
    : Transition (.setMaxQueueSize c size) { s with maxQueueSize := size }
  | setLimitNotify {c size} (hc : s.clients c = .idle) (hv : v = .singleThreadExecutor)
    : Transition (.setMaxQueueSize c size) { s.setClient c .limitNotify with maxQueueSize := size }
  | limitNotify {c} (hc : s.clients c = .limitNotify)
    : Transition (.limitNotify c) (s.setClient c .idle).notifyAll
  | setPolicy {policy} : Transition (.setQueuePolicy policy) { s with overflowPolicy := policy }
  | resetDrops : Transition .resetDroppedTasks { s with droppedTasks := 0, dropsReset := true }
  | shutdown {c onWorker done locked} (hc : s.clients c = .idle)
    : Transition (.shutdown c onWorker) { s.setClient c (.shutdownNotify onWorker) with
          shutdownDone := done, lifecycleLocked := locked, stopFlag := true }
  | shutdownAgain {c onWorker} (hc : s.clients c = .idle)
    : Transition (.shutdown c onWorker) (s.setClient c (.shutdownJoin onWorker))
  | shutdownNotify {c onWorker} (hc : s.clients c = .shutdownNotify onWorker)
    : Transition (.shutdownNotify c) (s.setClient c (.shutdownJoin onWorker)).notifyAll
  | shutdownJoin {c onWorker} (hc : s.clients c = .shutdownJoin onWorker)
    : Transition (.shutdownJoin c) { s.setClient c .idle with lifecycleLocked := false }
  | exit (hw : s.worker = .ready ∨ s.worker = .woken) (hstop : s.stopFlag = true)
      (hqueue : s.tasksQueue = [])
    : Transition .workerLock { s with worker := .exited }
  | pop {t ts} (hw : s.worker = .ready ∨ s.worker = .woken) (hqueue : s.tasksQueue = t :: ts)
    : Transition .workerLock
        { s with tasksQueue := ts, activeTasks := s.activeTasks + 1, worker := .popNotify t }
  | parkWorker (hw : s.worker = .ready ∨ s.worker = .woken) (hstop : s.stopFlag = false)
      (hqueue : s.tasksQueue = [])
    : Transition .workerLock { s with worker := .parked }
  | notifyOne {t target s'} (hv : v = .taskExecutor) (hw : s.worker = .popNotify t)
      (hnotify : { s with worker := .running t, started := s.started ++ [t] }.notifyOne target
        = some s')
    : Transition (.workerNotify target) s'
  | notifyAll {t target} (hv : v = .singleThreadExecutor) (hw : s.worker = .popNotify t)
    : Transition (.workerNotify target)
        { s with worker := .running t, started := s.started ++ [t] }.notifyAll
  | run {t} (hw : s.worker = .running t)
    : Transition .workerRun { s with worker := .finishing, executed := s.executed ++ [t] }
  | finish (hw : s.worker = .finishing) : Transition .workerFinish s.workerFinish
  | spurious {target s'} (hnotify : s.notifyOne target = some s')
    : Transition (.spuriousWakeup target) s'

section Inversion

variable {v : Variant} {s s' : State ι} {c : ι} {t : Nat}

omit [DecidableEq ι] [Fintype ι] in
theorem lt_maxQueueSize_of_hasRoom (hroom : s.hasRoom v = true) (hstop : s.stopFlag = false)
    (hlimit : 0 < s.maxQueueSize)
    : s.tasksQueue.length < s.maxQueueSize := by
  cases v with
  | taskExecutor => simpa [State.hasRoom, hstop] using hroom
  | singleThreadExecutor =>
    simp only [State.hasRoom, hstop, Bool.or_false, Bool.or_eq_true, beq_iff_eq,
      decide_eq_true_eq] at hroom
    omega

theorem Transition.of_waitForRoom
    (hc : s.clients c = .addTask t ∨ s.clients c = .addWoken t)
    (hfirst : s.clients c = .addTask t → 0 < s.maxQueueSize)
    : Transition v s (.addLock c) (s.waitForRoom v c t) := by
  unfold State.waitForRoom
  split
  . next hroom =>
    split
    . next hstop => exact .reject hc hstop
    . next hstop =>
      have hstop : s.stopFlag = false := by simpa using hstop
      exact .push hc (fun _ => hroom) hstop (lt_maxQueueSize_of_hasRoom hroom hstop)
  . next hroom => exact .parkProducer hc hfirst (by simpa using hroom)

theorem Transition.of_addTask (hc : s.clients c = .addTask t)
    : Transition v s (.addLock c) (s.addTask v c t) := by
  unfold State.addTask
  split
  . next hstop => exact .reject (.inl hc) hstop
  . next hstop =>
    split
    . next hfull =>
      split
      . exact .dropNewest hc hfull.1
      . next hpolicy =>
        cases hqueue : s.tasksQueue with
        | nil =>
          rw [hqueue] at hfull
          simp only [List.length_nil] at hfull
          omega
        | cons old ts => exact .dropOldest hc hqueue (by simpa using hstop) hfull.1 hpolicy
      . exact .of_waitForRoom (.inl hc) (fun _ => hfull.1)
    . next hroom =>
      apply Transition.push (.inl hc)
      . simp [hc]
      . simpa using hstop
      . simpa using hroom

theorem Transition.of_workerTake (hw : s.worker = .ready ∨ s.worker = .woken)
    : Transition v s .workerLock s.workerTake := by
  unfold State.workerTake
  split
  . next hsome =>
    split
    . next hexit =>
      simp only [Bool.and_eq_true, List.isEmpty_iff] at hexit
      exact .exit hw hexit.1 hexit.2
    . next hstay =>
      split
      . next hqueue => simp_all
      . next hqueue => exact .pop hw hqueue
  . next hnone =>
    simp only [Bool.or_eq_true, Bool.not_eq_true', not_or, Bool.not_eq_false, List.isEmpty_iff,
      Bool.not_eq_true] at hnone
    exact .parkWorker hw hnone.2 hnone.1

theorem Transition.of_step (h : step v s a = some s') : Transition v s a s' := by
  cases a with simp only [step] at h
  | addTask c callable =>
    split at h
    . next hc =>
      cases h
      exact .call hc
    . cases h
      exact .skip
    . contradiction
  | addLock c =>
    split at h
    . next hc =>
      cases h
      exact .of_addTask hc
    . next hc =>
      cases h
      exact .of_waitForRoom (.inr hc) (by simp [hc])
    . contradiction
  | addNotify c target =>
    split at h
    . next hc => exact .addNotify hc h
    . contradiction
  | wait c =>
    split at h
    . next hc =>
      cases h
      exact .wait hc
    . contradiction
  | waitLock c =>
    have hlock : ∀ before, s.clients c = .wait before ∨ s.clients c = .waitWoken before →
        (if s.drained v then some (s.setClient c (.waitReturned before s.stopFlag))
          else some (s.setClient c (.waitParked before))) = some s' →
        Transition v s (.waitLock c) s' := by
      intro before hc h
      split at h
      . next hdrained =>
        cases h
        exact .waitDone hc hdrained
      . cases h
        exact .parkWaiter hc
    split at h
    . next hc => exact hlock _ (.inl hc) h
    . next hc => exact hlock _ (.inr hc) h
    . contradiction
  | waitReturn c =>
    split at h
    . next hc =>
      cases h
      exact .waitReturn hc
    . contradiction
  | setMaxQueueSize c size =>
    split at h
    . contradiction
    . next hidle =>
      simp only [not_or, ne_eq, not_not] at hidle
      split at h
      . cases h
        exact .skip
      . split at h
        . cases h
          exact .setLimit rfl
        . cases h
          exact .setLimitNotify hidle.2 rfl
  | limitNotify c =>
    split at h
    . next hc =>
      cases h
      exact .limitNotify hc
    . contradiction
  | setQueuePolicy policy =>
    split at h
    . contradiction
    . split at h
      . cases h
        exact .skip
      . cases h
        exact .setPolicy
  | resetDroppedTasks =>
    cases h
    exact .resetDrops
  | shutdown c onWorker =>
    split at h
    . contradiction
    . next hidle =>
      simp only [not_or, ne_eq, not_not] at hidle
      cases h
      unfold State.shutdown
      split
      . exact .shutdown hidle.2.1
      . split
        . exact .shutdownAgain hidle.2.1
        . exact .shutdown hidle.2.1
  | shutdownNotify c =>
    split at h
    . next hc =>
      cases h
      exact .shutdownNotify hc
    . contradiction
  | shutdownJoin c =>
    split at h
    . next hc =>
      split at h
      . cases h
        exact .shutdownJoin hc
      . contradiction
    . contradiction
  | workerLock =>
    split at h
    . next hw =>
      cases h
      exact .of_workerTake (.inl hw)
    . next hw =>
      cases h
      exact .of_workerTake (.inr hw)
    . contradiction
  | workerNotify target =>
    split at h
    . next hw =>
      split at h
      . exact .notifyOne rfl hw h
      . cases h
        exact .notifyAll rfl hw
    . contradiction
  | workerRun =>
    split at h
    . next hw =>
      cases h
      exact .run hw
    . contradiction
  | workerFinish =>
    split at h
    . next hw =>
      cases h
      exact .finish hw
    . contradiction
  | spuriousWakeup target => exact .spurious h

end Inversion

section Notify

variable {s s' : State ι}

theorem State.notifyOne_cases (h : s.notifyOne target = some s')
    : (s' = s ∧ s.worker ≠ .parked ∧ ∀ c, (s.clients c).parked = false) ∨
      (s' = { s with worker := .woken } ∧ s.worker = .parked) ∨
      ∃ c, s' = s.setClient c (s.clients c).wake ∧ (s.clients c).parked = true := by
  unfold notifyOne at h
  split at h
  . split at h
    . next hnobody =>
      cases h
      exact .inl ⟨rfl, hnobody⟩
    . contradiction
  . split at h
    . next hparked =>
      cases h
      refine .inr (.inl ⟨?_, hparked⟩)
      rw [hparked]
      rfl
    . contradiction
  . next c =>
    split at h
    . next hparked =>
      cases h
      exact .inr (.inr ⟨c, rfl, hparked⟩)
    . contradiction

end Notify
end LogIt.DequeExecutor
