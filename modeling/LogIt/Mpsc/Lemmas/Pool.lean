import LogIt.Lib.TaskPool
import LogIt.Mpsc.Lemmas.Resize

namespace LogIt.MpscExecutor

open Function Multiset

variable {ι : Type}

def Action.client (a : Action ι ι) : Option ι :=
  match a with
  | .addTask c _ | .producer c _ | .wait c | .waiter c => some c
  | _ => none

def Action.calls (a : Action ι ι) : Bool :=
  match a with
  | .addTask _ _ | .wait _ => true
  | _ => false

def Action.runs (a : Action ι ι) : Bool :=
  match a with
  | .worker _ => true
  | _ => false

def ProducerPc.preparing (pc : ProducerPc) : Bool :=
  match pc with
  | .enter | .count | .recheck | .backOff | .ticket => true
  | _ => false

def WaiterPc.free (pc : WaiterPc) : Bool :=
  match pc with
  | .idle | .returned _ => true
  | _ => false

def WorkerPc.task (pc : WorkerPc) : Option Nat :=
  match pc with
  | .run _ t => some t
  | _ => none

def pool (ι : Type) [DecidableEq ι] (cfg : Config)
    : TaskPool ι (State ι ι) (Action ι ι) where
  sys := system ι ι cfg
  addTask c := .addTask c true
  wait c := .wait c
  client := Action.client
  calls := Action.calls
  runs := Action.runs
  idle s c := decide (s.producers c = .idle) && (s.waiters c).free
  preparing s c := (s.producers c).preparing
  inHand s c := (s.producers c).unresolved
  issued s := s.submittedTasks
  unfinished s := s.worker.running ++ s.claimed.drop s.popped.length
  running s := s.worker.task
  executed s := s.executed
  discarded s := s.dropped ++ s.stopped

variable {cfg : Config} {s s' : State ι ι} {a : Action ι ι}

theorem WorkerMove.task {pc pc' : WorkerPc} (h : WorkerMove s pc pc') : pc.task = none := by
  cases h <;> rfl

theorem ProducerMove.preparing {pc pc' : ProducerPc} (h : ProducerMove s pc pc')
    (hpc : pc.preparing = true)
    : pc'.preparing = true := by
  cases h with
  | enter => rfl
  | backOff => rfl
  | passGate => rfl
  | _ => contradiction

variable [DecidableEq ι]

theorem Transition.event [Fintype ι] (hinv : Inv s) (h : Transition cfg s a s')
    (hruns : s.worker.task = none ∨ a.runs = false)
    : (pool ι cfg).Event s a s' := by
  have hstay (hworker : s'.worker = s.worker)
      : ∀ t, s.worker.task = some t → a.runs = false ∧ s'.worker.task = some t := by
    intro t ht
    cases hruns with
    | inl hnone =>
      rw [hnone] at ht
      contradiction
    | inr hruns =>
      rw [hworker]
      exact ⟨hruns, ht⟩
  have hidle (hnone : s.worker.task = none)
      : ∀ t, s.worker.task = some t → a.runs = false ∧ s'.worker.task = some t := by
    intro t ht
    rw [hnone] at ht
    contradiction
  cases h with
  | ticket => exact .issue rfl rfl rfl rfl (hstay rfl)
  | @completeDropped i spurious t | @completeStopped i spurious t =>
    refine @TaskPool.Event.keep _ _ _ _ _ _ _ {t} rfl rfl ?_ (hstay rfl)
    simp only [pool, State.setProducer, ← coe_add, coe_singleton]
    abel
  | workerMove hmove => exact TaskPool.Event.quiet rfl rfl rfl (hidle hmove.task)
  | pop hpc | finish hpc => exact TaskPool.Event.quiet rfl rfl rfl (hidle (by rw [hpc]; rfl))
  | run hpc =>
    rw [hpc] at hruns
    cases hruns with
    | inl hnone | inr hruns => contradiction
  | restart hpc =>
    -- The new worker replaces one that was joined.
    have hexited := hinv.worker.joined (by rw [hpc]; rfl)
    exact TaskPool.Event.quiet rfl rfl rfl (hidle (by rw [hexited]; rfl))
  | _ => exact TaskPool.Event.quiet rfl rfl rfl (hstay rfl)

theorem Transition.unresolved [Fintype ι] (hinv : Inv s) (h : Transition cfg s a s') {c : ι}
    {t : Nat} (ht : t ∈ (s'.producers c).unresolved)
    : t ∈ (s.producers c).unresolved ∨
        (t = s.submittedTasks ∧ a.client = some c ∧ s'.submittedTasks = s.submittedTasks + 1) := by
  have hupdate (i : ι) (pc : ProducerPc) (hpc : pc.unresolved ≤ (s.producers i).unresolved)
      (ht : t ∈ (update s.producers i pc c).unresolved)
      : t ∈ (s.producers c).unresolved := by
    rcases update_cases (P := fun pc : ProducerPc => t ∈ pc.unresolved) ht with ⟨rfl, hnew⟩ | hold
    . exact mem_of_le hpc hnew
    . exact hold
  have hnone (i : ι) (pc : ProducerPc) (hpc : pc.unresolved = 0)
      (ht : t ∈ (update s.producers i pc c).unresolved)
      : t ∈ (s.producers c).unresolved := by
    apply hupdate i pc _ ht
    rw [hpc]
    exact zero_le _
  cases h with
  | producerMove hmove => exact .inl (hupdate _ _ (le_of_eq hmove.unresolved) ht)
  | count | uncount | completeDropped | completeStopped | leave => exact .inl (hnone _ _ rfl ht)
  | @ticket i spurious hpc =>
    change t ∈ (update s.producers i _ c).unresolved at ht
    rcases update_cases (P := fun pc : ProducerPc => t ∈ pc.unresolved) ht with ⟨rfl, hnew⟩ | hold
    . exact .inr ⟨mem_singleton.mp hnew, rfl, rfl⟩
    . exact .inl hold
  | @push i spurious t' policy pc hpc =>
    left
    apply hupdate _ _ _ ht
    have hvalid := hinv.tickets.valid i
    rw [hpc] at hvalid ⊢
    rw [← pushStep_unresolved s.ring spurious policy hvalid.2.1 hvalid.2.2]
    exact le_add_right _ _
  | drop hpc =>
    left
    apply hupdate _ _ _ ht
    rw [hpc]
    exact le_refl _
  | _ => exact .inl ht

theorem Transition.preparing (h : Transition cfg s a s') {c : ι}
    (hpc : (s.producers c).preparing = true)
    : (s'.producers c).preparing = true ∨
        (a.client = some c ∧ s'.submittedTasks = s.submittedTasks + 1) := by
  have hupdate (i : ι) (pc : ProducerPc)
      (hkeep : (s.producers i).preparing = true → pc.preparing = true)
      : (update s.producers i pc c).preparing = true := by
    by_cases hsame : c = i
    . rw [hsame] at hpc
      rw [hsame, update_self]
      exact hkeep hpc
    . rw [update_of_ne hsame]
      exact hpc
  have hpast (i : ι) (pc pc' : ProducerPc) (hi : s.producers i = pc) (hnot : pc.preparing = false)
      : (update s.producers i pc' c).preparing = true := by
    apply hupdate
    rw [hi, hnot]
    simp
  cases h with
  | producerMove hmove => exact .inl (hupdate _ _ hmove.preparing)
  | count | uncount => exact .inl (hupdate _ _ (fun _ => rfl))
  | @ticket i spurious hi =>
    by_cases hsame : c = i
    . rw [hsame]
      exact .inr ⟨rfl, rfl⟩
    . left
      change (update s.producers i _ c).preparing = true
      rw [update_of_ne hsame]
      exact hpc
  | push hi | drop hi | completeDropped hi | completeStopped hi | leave hi =>
    exact .inl (hpast _ _ _ hi rfl)
  | _ => exact .inl hpc

theorem run_of_step {spurious : Bool} {t : Nat} (htask : s.worker.task = some t)
    (h : step cfg s (.worker spurious) = some s')
    : ∃ budget, s.worker = .run budget t ∧
        s' = { s with worker := .finish budget t, executed := s.executed ++ [t] } := by
  unfold WorkerPc.task at htask
  split at htask
  . next budget t' hw =>
    cases htask
    dsimp only [step, workerStep] at h
    rw [hw] at h
    cases h
    exact ⟨budget, hw, rfl⟩
  . contradiction

theorem pool_lawful (ι : Type) [DecidableEq ι] [Fintype ι] (cfg : Config)
    : (pool ι cfg).Lawful where
  client_addTask _ := rfl
  runs_addTask _ := rfl
  runs_wait _ := rfl
  running_mem := by
    intro s t ht
    change s.worker.task = some t at ht
    apply List.mem_append_left
    unfold WorkerPc.task at ht
    split at ht
    . next hw =>
      cases ht
      rw [hw]
      exact List.mem_singleton_self _
    . contradiction
  inHand_idle := by
    intro s c hidle
    change (decide (s.producers c = .idle) && (s.waiters c).free) = true at hidle
    rw [Bool.and_eq_true, decide_eq_true_eq] at hidle
    change (s.producers c).unresolved = 0
    rw [hidle.1]
    rfl
  preparing_idle := by
    intro s c hidle
    change (decide (s.producers c = .idle) && (s.waiters c).free) = true at hidle
    rw [Bool.and_eq_true, decide_eq_true_eq] at hidle
    change (s.producers c).preparing = false
    rw [hidle.1]
    rfl
  conserved := by
    intro s reach
    have hinv := reachable_inv reach
    change threadSum ProducerPc.unresolved s.producers
      + ((s.worker.running ++ s.claimed.drop s.popped.length : List Nat) : Multiset Nat)
      + s.executed + ((s.dropped ++ s.stopped : List Nat) : Multiset Nat)
        = range s.submittedTasks
    have hresults := hinv.tickets.results
    rw [← hinv.tickets.tickets, WorkerPc.uncompleted_eq]
    simp only [← coe_add]
    calc threadSum ProducerPc.unresolved s.producers
            + ((s.worker.running : Multiset Nat) + s.claimed.drop s.popped.length) + s.executed
            + ((s.dropped : Multiset Nat) + s.stopped)
      _ = ((s.executed : Multiset Nat) + s.dropped + s.stopped) + s.worker.running
            + s.claimed.drop s.popped.length + threadSum ProducerPc.unresolved s.producers := by
        abel
      _ = _ := by
        rw [hresults]
        abel
  event := by
    intro s a s' reach hstep
    have hinv := reachable_inv reach
    cases htask : s.worker.task with
    | none => exact (Transition.of_step hstep).event hinv (.inl htask)
    | some t =>
      cases hruns : a.runs with
      | false => exact (Transition.of_step hstep).event hinv (.inr hruns)
      | true =>
        cases a with
        | worker spurious =>
          obtain ⟨budget, _, rfl⟩ := @run_of_step ι cfg s s' _ spurious t htask hstep
          exact .run rfl htask rfl rfl rfl
        | _ => contradiction
  inHand_step := by
    intro s a s' c t reach hstep ht
    exact (Transition.of_step hstep).unresolved (reachable_inv reach) ht
  addTask_step := by
    intro s c s' hstep
    right
    change step cfg s (.addTask c true) = some s' at hstep
    dsimp only [step] at hstep
    split at hstep
    . cases hstep
      change (update s.producers c .enter c).preparing = true
      rw [update_self]
      rfl
    . contradiction
    . contradiction
  preparing_step := by
    intro s a s' c hstep hpreparing
    exact (Transition.of_step hstep).preparing hpreparing

end LogIt.MpscExecutor
