import LogIt.Deque.Lemmas.Pool
import LogIt.Mpsc.Lemmas.Pool
import LogIt.UniqueFileLogger.Lemmas.Pending

namespace LogIt.UniqueFileLogger

open DequeExecutor (Variant)

theorem pending_logs_exact (ι : Type) [DecidableEq ι] [Fintype ι]
    : (∀ (v : Variant) (s : State ι (DequeExecutor.State ι)),
        (system (DequeExecutor.pool ι v)).ReachableVia (KeepsCount (DequeExecutor.pool ι v)) s →
        Counted (DequeExecutor.pool ι v) s) ∧
      (∀ (cfg : MpscExecutor.Config) (s : State ι (MpscExecutor.State ι ι)),
        (system (MpscExecutor.pool ι cfg)).ReachableVia (KeepsCount (MpscExecutor.pool ι cfg)) s →
        Counted (MpscExecutor.pool ι cfg) s) := by
  constructor
  . intro v s h
    have hpool := DequeExecutor.pool_lawful ι v
    exact (reachable_exact hpool h).counted hpool (reachable_inv hpool h.reachable)
  . intro cfg s h
    have hpool := MpscExecutor.pool_lawful ι cfg
    exact (reachable_exact hpool h).counted hpool (reachable_inv hpool h.reachable)

theorem pending_logs_exact_queued
    : ∃ s info, ((system (DequeExecutor.pool (Fin 1) .singleThreadExecutor)).ReachableVia
          (KeepsCount (DequeExecutor.pool (Fin 1) .singleThreadExecutor)) s ∧
        s.exec.tasksQueue = [1] ∧ s.threadLogInfo 0 = some info ∧
        (∀ c, (s.clients c).inLog 0 = false)) ∧
        info.pendingLogs = 1 := by
  have hrun : ∃ s, (system (DequeExecutor.pool (Fin 1) .singleThreadExecutor)).ReachableVia
      (KeepsCount (DequeExecutor.pool (Fin 1) .singleThreadExecutor)) s ∧
      s.exec.tasksQueue = [1] ∧ (s.threadLogInfo 0).isSome = true ∧
      (∀ c, (s.clients c).inLog 0 = false) ∧
      s.outstanding (DequeExecutor.pool (Fin 1) .singleThreadExecutor) 0 = 1 := by
    apply Lts.exists_reachableVia _ _
      [.log 0 0, .logCount 0, .logAdd 0, .exec (.addLock 0), .exec (.addNotify 0 .nobody),
        .logReturn 0, .exec .workerLock, .exec (.workerNotify .nobody), .taskWrite ['a'],
        .taskUpdate, .exec .workerRun, .log 0 0, .logCount 0, .logAdd 0, .exec (.addLock 0),
        .exec (.addNotify 0 .nobody), .logReturn 0]
    decide +kernel
  obtain ⟨s, reach, hqueue, hentry, hout, houtstanding⟩ := hrun
  obtain ⟨info, hinfo⟩ := Option.isSome_iff_exists.mp hentry
  have hpending := ((pending_logs_exact (Fin 1)).1 .singleThreadExecutor s reach).pending 0 info
    hinfo hout
  rw [houtstanding] at hpending
  exact ⟨s, info, ⟨reach, hqueue, hinfo, hout⟩, hpending⟩

theorem pending_logs_inexact
    : (∃ s, (system (DequeExecutor.pool (Fin 2) .singleThreadExecutor)).Reachable s ∧
        s.outstanding (DequeExecutor.pool (Fin 2) .singleThreadExecutor) 0 = 0 ∧
        (∀ c, s.clients c = .idle) ∧ s.threadLogInfo 0 = some ⟨1, ['a'], ['a']⟩ ∧
        getLastLogFileName s 0 = none) ∧
      (∃ s, (system (DequeExecutor.pool (Fin 2) .singleThreadExecutor)).Reachable s ∧
        s.outstanding (DequeExecutor.pool (Fin 2) .singleThreadExecutor) 0 = 0 ∧
        (∀ c, s.clients c = .idle) ∧ s.threadLogInfo 0 = some ⟨-1, ['b'], ['b']⟩ ∧
        getLastLogFileName s 0 = none) := by
  constructor
  . apply Lts.exists_reachable _
      [.exec (.setQueuePolicy .dropNewest), .exec (.setMaxQueueSize 1 1), .exec (.limitNotify 1),
        .log 0 0, .logCount 0, .logAdd 0, .exec (.addLock 0), .exec (.addNotify 0 .nobody),
        .logReturn 0, .log 0 0, .logCount 0, .logAdd 0, .exec (.addLock 0), .logReturn 0,
        .exec .workerLock, .exec (.workerNotify .nobody), .taskWrite ['a'], .taskUpdate,
        .exec .workerRun]
    decide +kernel
  . apply Lts.exists_reachable _
      [.wait 1 true, .exec (.waitLock 1), .exec (.waitReturn 1), .waitReturn 1,
        .log 0 0, .logCount 0, .logAdd 0, .exec (.addLock 0), .exec (.addNotify 0 .nobody),
        .logReturn 0, .clear 1, .clearFiles 1 false, .clearInfo 1,
        .log 0 0, .logCount 0, .logAdd 0, .exec (.addLock 0), .exec (.addNotify 0 .nobody),
        .logReturn 0, .exec .workerLock, .exec (.workerNotify .nobody), .taskWrite ['a'],
        .taskUpdate, .exec .workerRun, .exec .workerFinish, .exec .workerLock,
        .exec (.workerNotify .nobody), .taskWrite ['b'], .taskUpdate, .exec .workerRun]
    decide +kernel

end LogIt.UniqueFileLogger
