import LogIt.Deque.Lemmas.Conservation
import LogIt.Lib.TaskPool

namespace LogIt.DequeExecutor

open Function Multiset

variable {ι : Type} [DecidableEq ι] [Fintype ι]

def Action.runs (a : Action ι) : Bool :=
  match a with
  | .workerRun => true
  | _ => false

def WorkerPc.task (pc : WorkerPc) : Option Nat :=
  match pc with
  | .running t => some t
  | _ => none

def pool (ι : Type) [DecidableEq ι] [Fintype ι] (v : Variant)
    : TaskPool ι (State ι) (Action ι) where
  sys := system ι v
  addTask c := .addTask c true
  wait c := .wait c
  client := Action.client
  calls := Action.calls
  runs := Action.runs
  idle s c := decide (s.clients c = .idle)
  preparing _ _ := false
  inHand s c := (s.clients c).unsettled
  issued s := s.submitted
  unfinished s := s.worker.held ++ s.tasksQueue
  running s := s.worker.task
  executed s := s.executed
  discarded s := s.refused ++ s.evicted ++ s.rejected

variable {v : Variant} {s s' : State ι} {a : Action ι}

omit [DecidableEq ι] [Fintype ι] in
theorem WorkerPc.task_wake (pc : WorkerPc) : pc.wake.task = pc.task := by
  cases pc with
  | _ => rfl

theorem WorkerPc.task_between {pc : WorkerPc} (h : pc = .ready ∨ pc = .woken) : pc.task = none := by
  cases h with
  | inl h | inr h => rw [h]; rfl

theorem State.notifyOne_observed {r : State ι} (h : r.notifyOne target = some s')
    : s'.submitted = r.submitted ∧ s'.executed = r.executed ∧
      s'.refused ++ s'.evicted ++ s'.rejected = r.refused ++ r.evicted ++ r.rejected ∧
      s'.worker.task = r.worker.task ∧ ∀ c, (s'.clients c).unsettled = (r.clients c).unsettled := by
  rcases State.notifyOne_cases h with ⟨hs, _⟩ | ⟨hs, hparked⟩ | ⟨c, hs, _⟩
  . rw [hs]
    exact ⟨rfl, rfl, rfl, rfl, fun _ => rfl⟩
  . rw [hs]
    refine ⟨rfl, rfl, rfl, ?_, fun _ => rfl⟩
    rw [hparked]
    rfl
  . rw [hs]
    refine ⟨rfl, rfl, rfl, rfl, ?_⟩
    intro c'
    change (update r.clients c (r.clients c).wake c').unsettled = _
    by_cases hsame : c' = c
    . rw [hsame, update_self, ClientPc.unsettled_wake]
    . rw [update_of_ne hsame]

theorem Transition.event (h : Transition v s a s') (hruns : a.runs = false)
    : (pool ι v).Event s a s' := by
  have hkeep (lost : Multiset Nat) (hsubmitted : s'.submitted = s.submitted)
      (hexecuted : s'.executed = s.executed)
      (hdiscarded : ((s'.refused ++ s'.evicted ++ s'.rejected : List Nat) : Multiset Nat)
        = (s.refused ++ s.evicted ++ s.rejected : List Nat) + lost)
      (hrunning : ∀ t, s.worker.task = some t → s'.worker.task = some t)
      : (pool ι v).Event s a s' :=
    .keep hsubmitted hexecuted hdiscarded (fun t ht => ⟨hruns, hrunning t ht⟩)
  have hquiet (hsubmitted : s'.submitted = s.submitted) (hexecuted : s'.executed = s.executed)
      (hdiscarded : s'.refused ++ s'.evicted ++ s'.rejected = s.refused ++ s.evicted ++ s.rejected)
      (hrunning : ∀ t, s.worker.task = some t → s'.worker.task = some t)
      : (pool ι v).Event s a s' :=
    .quiet hsubmitted hexecuted hdiscarded (fun t ht => ⟨hruns, hrunning t ht⟩)
  have hidle (hw : s.worker.task = none)
      : ∀ t, s.worker.task = some t → s'.worker.task = some t := by
    intro t ht
    rw [hw] at ht
    contradiction
  cases h with
  | call => exact .issue rfl rfl rfl rfl (fun t ht => ⟨rfl, ht⟩)
  | @reject c t =>
    apply hkeep {t} rfl rfl _ (fun _ ht => ht)
    simp only [State.reject, State.setClient, ← coe_add, coe_singleton]
    abel
  | @dropNewest c t =>
    apply hkeep {t} rfl rfl _ (fun _ ht => ht)
    simp only [State.dropNewest, State.setClient, ← coe_add, coe_singleton]
    abel
  | @dropOldest c t old ts hc hqueue =>
    have hs' : s.dropOldest = { s with
        tasksQueue := ts
        droppedTasks := s.droppedTasks + 1
        evicted := s.evicted ++ [old] } := by
      simp only [State.dropOldest, hqueue]
    rw [hs'] at hkeep ⊢
    apply hkeep {old} rfl rfl _ (fun _ ht => ht)
    simp only [State.pushBack, State.setClient, ← coe_add, coe_singleton]
    abel
  | addNotify hc hnotify | spurious hnotify =>
    obtain ⟨hsubmitted, hexecuted, hdiscarded, htask, _⟩ := State.notifyOne_observed hnotify
    apply hquiet hsubmitted hexecuted hdiscarded
    intro t ht
    rw [htask]
    exact ht
  | notifyOne hv hw hnotify =>
    obtain ⟨hsubmitted, hexecuted, hdiscarded, _, _⟩ := State.notifyOne_observed hnotify
    exact hquiet hsubmitted hexecuted hdiscarded (hidle (by rw [hw]; rfl))
  | notifyAll hv hw => exact hquiet rfl rfl rfl (hidle (by rw [hw]; rfl))
  | limitNotify | shutdownNotify =>
    apply hquiet rfl rfl rfl
    intro t ht
    exact (WorkerPc.task_wake s.worker).trans ht
  | exit hw | pop hw | parkWorker hw => exact hquiet rfl rfl rfl (hidle (WorkerPc.task_between hw))
  | run => contradiction
  | finish hw =>
    -- The worker notifies only if the queue is drained, so its new state is found by cases.
    have htask := hidle (by rw [hw]; rfl)
    unfold State.workerFinish at hquiet htask ⊢
    dsimp only at hquiet htask ⊢
    split
    . next hdrained =>
      rw [if_pos hdrained] at hquiet htask
      exact hquiet rfl rfl rfl htask
    . next hdrained =>
      rw [if_neg hdrained] at hquiet htask
      exact hquiet rfl rfl rfl htask
  | _ => exact hquiet rfl rfl rfl (fun _ ht => ht)

theorem Transition.unsettled (h : Transition v s a s') (ht : t ∈ (s'.clients c).unsettled)
    : t ∈ (s.clients c).unsettled ∨
        (t = s.submitted ∧ a.client = some c ∧ s'.submitted = s.submitted + 1) := by
  have hupdate {r : State ι} {c' : ι} {pc : ClientPc}
      (hpc : pc.unsettled ≤ (s.clients c').unsettled)
      (hr : (r.clients c).unsettled = (update s.clients c' pc c).unsettled)
      (ht : t ∈ (r.clients c).unsettled)
      : t ∈ (s.clients c).unsettled := by
    rw [hr] at ht
    rcases update_cases (P := fun pc : ClientPc => t ∈ pc.unsettled) ht with ⟨rfl, hnew⟩ | hold
    . exact mem_of_le hpc hnew
    . exact hold
  have hnone {pc : ClientPc} (c' : ι) (hpc : pc.unsettled = 0)
      : pc.unsettled ≤ (s.clients c').unsettled := by
    rw [hpc]
    exact zero_le _
  cases h with
  | @call c' hc' =>
    change t ∈ (update s.clients c' _ c).unsettled at ht
    rcases update_cases (P := fun pc : ClientPc => t ∈ pc.unsettled) ht with ⟨rfl, hnew⟩ | hold
    . exact .inr ⟨mem_singleton.mp hnew, rfl, rfl⟩
    . exact .inl hold
  | reject | dropNewest | push | wait | waitDone | parkWaiter | waitReturn | setLimitNotify
  | shutdown | shutdownAgain | shutdownJoin => exact .inl (hupdate (hnone _ rfl) rfl ht)
  | @dropOldest c' t' old ts hc' hqueue =>
    have hclients : s.dropOldest.clients = s.clients := by simp only [State.dropOldest, hqueue]
    left
    refine @hupdate _ c' (.addNotify t') (hnone c' rfl) ?_ ht
    change (update s.dropOldest.clients c' _ c).unsettled = _
    rw [hclients]
  | @parkProducer c' t' hc' =>
    left
    refine @hupdate _ c' (.addParked t') ?_ rfl ht
    exact le_of_eq (unsettled_of_adding hc').symm
  | @addNotify c' t' target s' hc' hnotify =>
    obtain ⟨_, _, _, _, hclients⟩ := State.notifyOne_observed hnotify
    exact .inl (hupdate (hnone c' rfl) (hclients c) ht)
  | @limitNotify c' | @shutdownNotify c' =>
    exact .inl (hupdate (hnone c' rfl) (ClientPc.unsettled_wake _) ht)
  | notifyOne hv hw hnotify | spurious hnotify =>
    obtain ⟨_, _, _, _, hclients⟩ := State.notifyOne_observed hnotify
    rw [hclients] at ht
    exact .inl ht
  | notifyAll =>
    left
    rw [← ClientPc.unsettled_wake]
    exact ht
  | finish =>
    left
    unfold State.workerFinish at ht
    dsimp only at ht
    split at ht
    . rw [← ClientPc.unsettled_wake]
      exact ht
    . exact ht
  | _ => exact .inl ht

theorem run_of_step (h : step v s .workerRun = some s')
    : ∃ t, s.worker = .running t ∧
        s' = { s with worker := .finishing, executed := s.executed ++ [t] } := by
  dsimp only [step] at h
  split at h
  . next t hw =>
    cases h
    exact ⟨t, hw, rfl⟩
  . contradiction

theorem pool_lawful (ι : Type) [DecidableEq ι] [Fintype ι] (v : Variant)
    : (pool ι v).Lawful where
  client_addTask _ := rfl
  runs_addTask _ := rfl
  runs_wait _ := rfl
  running_mem := by
    intro s t ht
    change s.worker.task = some t at ht
    apply List.mem_append_left
    unfold WorkerPc.task at ht
    split at ht
    . next hw =>
      cases ht
      rw [hw]
      exact List.mem_singleton_self _
    . contradiction
  inHand_idle := by
    intro s c hidle
    change (s.clients c).unsettled = 0
    rw [of_decide_eq_true hidle]
    rfl
  preparing_idle _ _ _ := rfl
  conserved := by
    intro s reach
    have hinv := reachable_inv reach
    change threadSum ClientPc.unsettled s.clients
      + ((s.worker.held ++ s.tasksQueue : List Nat) : Multiset Nat) + s.executed
      + ((s.refused ++ s.evicted ++ s.rejected : List Nat) : Multiset Nat)
        = range s.submitted
    rw [← hinv.submissions, ← hinv.tasks]
    simp only [← coe_add]
    abel
  event := by
    intro s a s' _ hstep
    cases hruns : a.runs with
    | false => exact (Transition.of_step hstep).event hruns
    | true =>
      cases a with
      | workerRun =>
        obtain ⟨t, hw, rfl⟩ := @run_of_step ι _ _ v s s' hstep
        refine .run rfl ?_ rfl rfl rfl
        change s.worker.task = some t
        rw [hw]
        rfl
      | _ => contradiction
  inHand_step := by
    intro s a s' c t _ hstep ht
    exact (Transition.of_step hstep).unsettled ht
  addTask_step := by
    intro s c s' hstep
    left
    change step v s (.addTask c true) = some s' at hstep
    dsimp only [step] at hstep
    split at hstep
    . cases hstep
      rfl
    . contradiction
    . contradiction
  preparing_step := by
    intro s a s' c _ hpreparing
    contradiction

end LogIt.DequeExecutor
