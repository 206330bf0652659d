import LogIt.Deque.Lemmas.Accounting

namespace LogIt.DequeExecutor

open Multiset

variable {ι : Type} {v : Variant} {s s' : State ι} {a : Action ι}

theorem unsettled_of_adding (hc : s.clients c = .addTask t ∨ s.clients c = .addWoken t)
    : (s.clients c).unsettled = {t} := by
  cases hc with
  | inl hc | inr hc => rw [hc]; rfl

def State.classes (s : State ι) : List Nat :=
  s.executed ++ s.worker.held ++ s.tasksQueue ++ (s.refused ++ s.evicted) ++ s.rejected

namespace Inv

variable [Fintype ι]

section

variable (h : Inv s)

include h

theorem waitDone (hdrained : s.drained v = true) (hbefore : before ⊆ s.enqueued)
    : (ClientPc.waitReturned before s.stopFlag).Justified s.enqueued (s.executed ++ s.evicted) := by
  cases hstop : s.stopFlag with
  | true => trivial
  | false =>
    have hidle : s.tasksQueue = [] ∧ s.activeTasks = 0 := by
      unfold State.drained at hdrained
      split at hdrained
      all_goals simpa [hstop] using hdrained
    have hheld : s.worker.held = [] := by
      have hactive := h.active
      rw [hidle.2] at hactive
      cases hw : s.worker with
      | popNotify t | running t => simp [hw, WorkerPc.active] at hactive
      | _ => rfl
    intro t ht
    have hmem := mem_coe.mpr (hbefore ht)
    rw [← h.tasks, hidle.1, hheld] at hmem
    simpa using hmem

theorem classes_eq
    : (s.classes : Multiset Nat) = (s.enqueued : Multiset Nat) + s.refused + s.rejected := by
  rw [← h.tasks]
  simp only [State.classes, ← coe_add]
  abel

theorem classes_nodup : s.classes.Nodup := by
  rw [← coe_nodup, h.classes_eq]
  apply nodup_of_le _ (nodup_range s.submitted)
  rw [← h.submissions]
  exact le_add_right _ _

theorem enqueued_nodup : s.enqueued.Nodup := by
  rw [← coe_nodup]
  apply nodup_of_le _ (nodup_range s.submitted)
  rw [← h.submissions, add_assoc, add_assoc]
  exact le_add_right _ _

theorem returned_mem_classes (ht : t ∈ s.returned) : t ∈ s.classes := by
  rw [← mem_coe, h.classes_eq]
  simp only [mem_add, mem_coe, or_assoc]
  exact h.returned t ht

theorem started_sublist : s.started.Sublist s.enqueued := by
  have hentered : s.worker.entered.Sublist s.worker.held := by
    cases s.worker <;> simp [WorkerPc.entered, WorkerPc.held]
  rw [h.started]
  refine List.Sublist.trans ?_ h.order
  exact ((List.Sublist.refl _).append hentered).trans (List.sublist_append_left _ _)

theorem enqueued_of_exited (hw : s.worker = .exited) (ht : t ∈ s.enqueued)
    : t ∈ s.executed ∨ t ∈ s.evicted := by
  rw [← mem_coe, ← h.tasks, hw, (h.exited hw).1] at ht
  simpa [WorkerPc.held] using ht

end

end Inv

variable [DecidableEq ι] [Fintype ι]

theorem Inv.step (h : Inv s) (hstep : Transition v s a s') : Inv s' := by
  cases hstep with
  | skip => exact h
  | call hc => exact h.call hc
  | reject hc => exact h.reject (unsettled_of_adding hc)
  | dropNewest hc => exact h.dropNewest (unsettled_of_adding (.inl hc))
  | @dropOldest c t old ts hc hqueue hstop =>
    have hclients : s.dropOldest.clients = s.clients := by simp [State.dropOldest, hqueue]
    have hstop' : s.dropOldest.stopFlag = s.stopFlag := by simp [State.dropOldest, hqueue]
    apply Inv.pushBack _ h.dropOldest
    . rw [hstop', hstop]
    . rw [hclients]
      exact unsettled_of_adding (.inl hc)
  | push hc _ hstop => exact h.pushBack (unsettled_of_adding hc) hstop
  | parkProducer hc => exact h.setClient (unsettled_of_adding hc).symm trivial
  | @addNotify c t target s' hc hnotify =>
    have henq := h.clients c
    rw [hc] at henq
    have hidle : Inv (s.setClient c .idle) := h.setClient (by rw [hc]; rfl) trivial
    refine Inv.notifyOne ?_ hnotify
    exact { hidle with
      returned := by
        intro x hx
        simp only [List.mem_append, List.mem_singleton] at hx
        cases hx with
        | inl hx => exact h.returned x hx
        | inr hx =>
          rw [hx]
          exact .inl henq }
  | wait hc => exact h.setClient (by rw [hc]; rfl) (List.Subset.refl _)
  | @waitDone c before hc hdrained =>
    have hjust := h.clients c
    cases hc with
    | inl hc | inr hc =>
      rw [hc] at hjust
      exact h.setClient (by rw [hc]; rfl) (h.waitDone hdrained hjust)
  | @parkWaiter c before hc =>
    have hjust := h.clients c
    cases hc with
    | inl hc | inr hc =>
      rw [hc] at hjust
      exact h.setClient (by rw [hc]; rfl) hjust
  | waitReturn hc | shutdownAgain hc => exact h.setClient (by rw [hc]; rfl) trivial
  | setLimit | setPolicy => exact h.configure _ _ _ _ _ id
  | @setLimitNotify c size hc =>
    have hset : Inv (s.setClient c .limitNotify) := h.setClient (by rw [hc]; rfl) trivial
    exact hset.configure _ _ _ _ _ id
  | @limitNotify c hc =>
    have hset : Inv (s.setClient c .idle) := h.setClient (by rw [hc]; rfl) trivial
    exact hset.notifyAll
  | resetDrops =>
    exact { h with
      drops := by simp }
  | @shutdown c onWorker done locked hc =>
    have hset : Inv (s.setClient c (.shutdownNotify onWorker)) :=
      h.setClient (by rw [hc]; rfl) trivial
    exact hset.configure _ _ _ _ _ (fun _ => rfl)
  | @shutdownNotify c onWorker hc =>
    have hset : Inv (s.setClient c (.shutdownJoin onWorker)) :=
      h.setClient (by rw [hc]; rfl) trivial
    exact hset.notifyAll
  | @shutdownJoin c onWorker hc =>
    have hset : Inv (s.setClient c .idle) := h.setClient (by rw [hc]; rfl) trivial
    exact hset.configure _ _ _ _ _ id
  | exit hw hstop hqueue =>
    obtain ⟨hheld, hentered, hactive⟩ := WorkerPc.between hw
    exact h.setWorker hheld.symm hentered.symm hactive.symm (fun _ => ⟨hqueue, hstop⟩)
  | pop hw hqueue => exact h.pop hw hqueue
  | parkWorker hw =>
    obtain ⟨hheld, hentered, hactive⟩ := WorkerPc.between hw
    exact h.setWorker hheld.symm hentered.symm hactive.symm (by simp)
  | notifyOne _ hw hnotify => exact (h.start hw).notifyOne hnotify
  | notifyAll _ hw => exact (h.start hw).notifyAll
  | run hw => exact h.run hw
  | finish hw => exact h.workerFinish hw
  | spurious hnotify => exact h.notifyOne hnotify

theorem reachable_inv (h : (system ι v).Reachable s) : Inv s := by
  apply h.invariant Inv Inv.init
  intro s a s' _ hinv hstep
  exact hinv.step (.of_step hstep)

theorem Transition.exited (hstep : Transition v s a s') (hw : s.worker = .exited)
    : s'.worker = .exited := by
  have hnotify : ∀ {s s' : State ι} {target : Target ι}, s.worker = .exited →
      s.notifyOne target = some s' → s'.worker = .exited := by
    intro s s' target hw h
    rcases State.notifyOne_cases h with ⟨rfl, _⟩ | ⟨rfl, hparked⟩ | ⟨c, rfl, _⟩
    . exact hw
    . simp [hw] at hparked
    . exact hw
  cases hstep with
  | addNotify _ h => exact hnotify (by exact hw) h
  | dropOldest _ hqueue => simp [State.pushBack, State.setClient, State.dropOldest, hqueue, hw]
  | limitNotify | shutdownNotify => simp [State.notifyAll, State.setClient, hw, WorkerPc.wake]
  | exit => rfl
  | pop h | parkWorker h | notifyOne _ h | notifyAll _ h | run h | finish h => simp [hw] at h
  | spurious h => exact hnotify hw h
  | _ => exact hw

theorem tasks_conserved (ι : Type) [DecidableEq ι] [Fintype ι] (v : Variant) (s : State ι)
    (h : (system ι v).Reachable s)
    : (s.started.Sublist s.enqueued ∧ s.enqueued.Nodup ∧ s.started.Nodup) ∧
      (s.classes.Nodup ∧ (∀ t ∈ s.returned, t ∈ s.classes) ∧
        (s.dropsReset = false → s.droppedTasks = (s.refused ++ s.evicted).length)) ∧
      (s.worker = .exited → s.tasksQueue = [] ∧
        (∀ t ∈ s.enqueued, t ∈ s.executed ∨ t ∈ s.evicted) ∧
        ∀ a s', step v s a = some s' → s'.worker = .exited ∧ s'.tasksQueue = []) ∧
      ∀ c before, s.clients c = .waitReturned before false →
        ∀ t ∈ before, t ∈ s.executed ∨ t ∈ s.evicted := by
  have hinv := reachable_inv h
  refine ⟨⟨hinv.started_sublist, hinv.enqueued_nodup, ?_⟩, ⟨hinv.classes_nodup, ?_, ?_⟩, ?_, ?_⟩
  . exact hinv.enqueued_nodup.sublist hinv.started_sublist
  . intro t ht
    exact hinv.returned_mem_classes ht
  . intro hreset
    rw [List.length_append]
    exact hinv.drops hreset
  . intro hw
    refine ⟨(hinv.exited hw).1, fun t => hinv.enqueued_of_exited hw, ?_⟩
    intro a s' hstep
    have hw' := (Transition.of_step hstep).exited hw
    exact ⟨hw', ((reachable_inv (h.step hstep)).exited hw').1⟩
  . intro c before hc t ht
    have hjust := hinv.clients c
    rw [hc] at hjust
    simpa using hjust ht

theorem tasks_conserved_dropOldest
    : ∃ s : State (Fin 2), ((system (Fin 2) .taskExecutor).Reachable s ∧
        s.clients 1 = .waitReturned [0, 1] false ∧ s.executed = [1] ∧ s.evicted = [0]) ∧
        s.started.Sublist s.enqueued ∧ s.classes.Nodup ∧
        ∀ t ∈ [0, 1], t ∈ s.executed ∨ t ∈ s.evicted := by
  have hrun : ∃ s : State (Fin 2), (system (Fin 2) .taskExecutor).Reachable s ∧
      s.clients 1 = .waitReturned [0, 1] false ∧ s.executed = [1] ∧ s.evicted = [0] := by
    apply Lts.exists_reachable _ [
      .setMaxQueueSize 0 1, .setQueuePolicy .dropOldest,
      .addTask 0 true, .addLock 0, .addNotify 0 .nobody,
      .addTask 0 true, .addLock 0, .addNotify 0 .nobody,
      .wait 1, .waitLock 1,
      .workerLock, .workerNotify (.client 1), .waitLock 1, .workerRun, .workerFinish,
      .waitLock 1]
    decide
  obtain ⟨s, hreach, hstate⟩ := hrun
  have hcons := tasks_conserved (Fin 2) .taskExecutor s hreach
  exact ⟨s, ⟨hreach, hstate⟩, hcons.1.1, hcons.2.1.1, hcons.2.2.2 1 [0, 1] hstate.1⟩

end LogIt.DequeExecutor
