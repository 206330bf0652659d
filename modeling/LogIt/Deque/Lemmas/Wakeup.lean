import LogIt.Deque.Lemmas.Transition

namespace LogIt.DequeExecutor

variable {ι : Type} {v : Variant} {s s' : State ι} {a : Action ι}

theorem WorkerPc.wake_ne_parked (pc : WorkerPc) : pc.wake ≠ .parked := by
  cases pc <;> simp [wake]

theorem ClientPc.notifies_of_parked {pc : ClientPc} (h : pc.parked = true)
    : pc.notifies = false := by
  cases pc with
  | addParked t => rfl
  | waitParked before => rfl
  | _ => contradiction

theorem notifies_of_adding (hc : s.clients c = .addTask t ∨ s.clients c = .addWoken t)
    : (s.clients c).notifies = false := by
  cases hc with
  | inl hc | inr hc => rw [hc]; rfl

theorem notifies_of_waiting (hc : s.clients c = .wait before ∨ s.clients c = .waitWoken before)
    : (s.clients c).notifies = false := by
  cases hc with
  | inl hc | inr hc => rw [hc]; rfl

def Attended (s : State ι) : Prop :=
  s.worker = .parked → (s.tasksQueue = [] ∧ s.stopFlag = false) ∨ ∃ c, (s.clients c).notifies = true

namespace Attended

theorem of_not_parked (h : s.worker ≠ .parked) : Attended s :=
  fun hw => absurd hw h

theorem of_notifies (h : (s.clients c).notifies = true) : Attended s :=
  fun _ => .inr ⟨c, h⟩

theorem frame (h : Attended s) (hw : s'.worker = s.worker) (hqueue : s'.tasksQueue = s.tasksQueue)
    (hstop : s'.stopFlag = s.stopFlag)
    (hnotifies : ∀ c, (s.clients c).notifies = true → (s'.clients c).notifies = true)
    : Attended s' := by
  intro hparked
  rw [hw] at hparked
  rw [hqueue, hstop]
  cases h hparked with
  | inl hnothing => exact .inl hnothing
  | inr howed =>
    obtain ⟨c, hc⟩ := howed
    exact .inr ⟨c, hnotifies c hc⟩

theorem notifyAll (s : State ι) : Attended s.notifyAll :=
  of_not_parked s.worker.wake_ne_parked

variable [DecidableEq ι] {c : ι} {pc : ClientPc}

theorem notifies_update (hc : (s.clients c).notifies = false) (c' : ι)
    (h : (s.clients c').notifies = true)
    : (Function.update s.clients c pc c').notifies = true := by
  have hne : c' ≠ c := by
    intro heq
    rw [heq, hc] at h
    contradiction
  rw [Function.update_of_ne hne]
  exact h

theorem setClient (h : Attended s) (hc : (s.clients c).notifies = false)
    : Attended (s.setClient c pc) := by
  exact h.frame rfl rfl rfl (notifies_update hc)

theorem notifyOne [Fintype ι] (h : Attended s) (hnotify : s.notifyOne target = some s')
    : Attended s' := by
  rcases State.notifyOne_cases hnotify with ⟨rfl, _⟩ | ⟨rfl, _⟩ | ⟨c, rfl, hparked⟩
  . exact h
  . exact of_not_parked (by simp)
  . exact h.setClient (ClientPc.notifies_of_parked hparked)

end Attended

variable [DecidableEq ι] [Fintype ι]

def WorkerAlone (s : State ι) (a : Action ι) : Prop :=
  match a with
  | .addNotify _ _ => s.worker = .parked → ∀ c, (s.clients c).parked = false
  | _ => True

instance (s : State ι) (a : Action ι) : Decidable (WorkerAlone s a) :=
  match a with
  | .addNotify _ _ => inferInstanceAs (Decidable (_ → _))
  | .addTask .. | .addLock .. | .wait .. | .waitLock .. | .waitReturn .. | .setMaxQueueSize ..
  | .limitNotify .. | .setQueuePolicy .. | .resetDroppedTasks | .shutdown .. | .shutdownNotify ..
  | .shutdownJoin .. | .workerLock | .workerNotify .. | .workerRun | .workerFinish
  | .spuriousWakeup .. => instDecidableTrue

theorem Attended.addNotify {c : ι} {t : Nat} {target : Target ι}
    (halone : s.worker = .parked → ∀ c, (s.clients c).parked = false)
    (hnotify : { s.setClient c .idle with returned := s.returned ++ [t] }.notifyOne target = some s')
    : Attended s' := by
  apply Attended.of_not_parked
  intro hparked
  rcases State.notifyOne_cases hnotify with ⟨rfl, hne, _⟩ | ⟨rfl, _⟩ | ⟨c', rfl, hc'⟩
  . exact hne hparked
  . simp at hparked
  . have hothers := halone hparked c'
    simp only [State.setClient, Function.update_apply] at hc'
    split at hc'
    . contradiction
    . rw [hothers] at hc'
      contradiction

theorem Attended.step (h : Attended s) (hok : WorkerAlone s a) (hstep : Transition v s a s')
    : Attended s' := by
  cases hstep with
  | skip => exact h
  | call hc | dropNewest hc | setLimitNotify hc | shutdownJoin hc =>
    exact h.frame rfl rfl rfl (notifies_update (by rw [hc]; rfl))
  | reject hc => exact h.frame rfl rfl rfl (notifies_update (notifies_of_adding hc))
  | @dropOldest c t | @push c t =>
    exact .of_notifies (c := c) (by simp [State.pushBack, State.setClient,
      ClientPc.notifies])
  | parkProducer hc => exact h.setClient (notifies_of_adding hc)
  | addNotify hc hnotify => exact .addNotify hok hnotify
  | wait hc | waitReturn hc | shutdownAgain hc => exact h.setClient (by rw [hc]; rfl)
  | waitDone hc | parkWaiter hc => exact h.setClient (notifies_of_waiting hc)
  | setLimit | setPolicy | resetDrops => exact h.frame rfl rfl rfl (fun _ hc => hc)
  | limitNotify | shutdownNotify | notifyAll => exact .notifyAll _
  | @shutdown c => exact .of_notifies (c := c) (by simp [State.setClient, ClientPc.notifies])
  | exit | pop | run => exact .of_not_parked (by simp)
  | parkWorker _ hstop hqueue => exact fun _ => .inl ⟨hqueue, hstop⟩
  | notifyOne _ _ hnotify =>
    refine Attended.notifyOne (.of_not_parked ?_) hnotify
    simp
  | finish =>
    unfold State.workerFinish
    dsimp only
    split
    . exact .notifyAll _
    . exact .of_not_parked (by simp)
  | spurious hnotify => exact h.notifyOne hnotify

theorem parked_worker_idle (ι : Type) [DecidableEq ι] [Fintype ι] (v : Variant) (s : State ι)
    (h : (system ι v).ReachableVia WorkerAlone s) (hquiet : s.Quiet) (hparked : s.worker = .parked)
    : s.tasksQueue = [] ∧ s.stopFlag = false := by
  have hattended : Attended s := by
    apply h.invariant Attended
    . exact .of_not_parked (by simp [system, init])
    . intro s a s' _ hattended hok hstep
      exact hattended.step hok (.of_step hstep)
  cases hattended hparked with
  | inl hnothing => exact hnothing
  | inr howed =>
    obtain ⟨c, hc⟩ := howed
    rw [(hquiet.1 c).1] at hc
    contradiction

theorem parked_worker_idle_after_task
    : ∃ s : State (Fin 1), ((system (Fin 1) .taskExecutor).ReachableVia WorkerAlone s ∧
        s.Quiet ∧ s.worker = .parked ∧ s.executed = [0]) ∧
        s.tasksQueue = [] ∧ s.stopFlag = false := by
  have hrun : ∃ s : State (Fin 1), (system (Fin 1) .taskExecutor).ReachableVia WorkerAlone s ∧
      s.Quiet ∧ s.worker = .parked ∧ s.executed = [0] := by
    apply Lts.exists_reachableVia _ WorkerAlone [
      .workerLock, .addTask 0 true, .addLock 0, .addNotify 0 .worker,
      .workerLock, .workerNotify .nobody, .workerRun, .workerFinish, .workerLock]
    decide
  obtain ⟨s, hreach, hquiet, hparked, hexecuted⟩ := hrun
  exact ⟨s, ⟨hreach, hquiet, hparked, hexecuted⟩,
    parked_worker_idle (Fin 1) .taskExecutor s hreach hquiet hparked⟩

theorem parked_worker_task_queued
    : (∃ s : State (Fin 2),
        (system (Fin 2) .taskExecutor).ReachableVia (fun _ a => a.spurious = false) s ∧
        s.Quiet ∧ s.worker = .parked ∧ s.tasksQueue = [0]) ∧
      (∃ s : State (Fin 2),
        (system (Fin 2) .singleThreadExecutor).ReachableVia (fun _ a => a.spurious = false) s ∧
        s.Quiet ∧ s.worker = .parked ∧ s.tasksQueue = [0]) := by
  constructor
  all_goals
    apply Lts.exists_reachableVia _ _ [
      .workerLock, .addTask 0 true, .addLock 0, .wait 1, .waitLock 1, .addNotify 0 (.client 1),
      .waitLock 1]
    decide

end LogIt.DequeExecutor
