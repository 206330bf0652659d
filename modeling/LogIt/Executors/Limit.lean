import Mathlib.Data.Fintype.Card
import LogIt.Cooperative.Impl.Executor
import LogIt.Deque.Lemmas.Transition
import LogIt.Lib.QueueView
import LogIt.Mpsc.Lemmas.Invariant

/-!
This module contains the comparison of the queue limits of all executors.
-/

namespace LogIt.DequeExecutor

def view (ι : Type) : QueueView (State ι) where
  limit s := s.maxQueueSize
  queued s := s.tasksQueue.length
  enqueued s := s.enqueued.length
  dropped s := s.refused.length + s.evicted.length
  dropCounter s := s.droppedTasks

def WithinLimit {ι : Type} (s : State ι) (a : Action ι) : Prop :=
  match a with
  | .addLock c =>
    match s.clients c with
    | .addTask _ =>
      s.overflowPolicy = .dropOldest → s.stopFlag = false → 0 < s.maxQueueSize →
        s.tasksQueue.length ≤ s.maxQueueSize
    | _ => True
  | _ => True

instance {ι : Type} (s : State ι) (a : Action ι) : Decidable (WithinLimit s a) := by
  unfold WithinLimit
  repeat' split
  all_goals infer_instance

variable {ι : Type} [DecidableEq ι] [Fintype ι] {v : Variant} {s s' : State ι} {a : Action ι}

theorem Transition.honours (h : Transition v s a s') (hok : WithinLimit s a)
    : (view ι).Honours s s' := by
  have hnotify : ∀ (r : State ι) target, r.notifyOne target = some s' →
      (view ι).enqueued s' = (view ι).enqueued r ∧ (view ι).dropped s' = (view ι).dropped r ∧
        (view ι).dropCounter s' = (view ι).dropCounter r := by
    intro r target h
    rcases State.notifyOne_cases h with ⟨hs, _⟩ | ⟨hs, _⟩ | ⟨c, hs, _⟩
    all_goals
      rw [hs]
      exact ⟨rfl, rfl, rfl⟩
  cases h with
  | dropNewest hc hlimit =>
    apply QueueView.Honours.of_pos hlimit
    intro hlt
    exact absurd hlt (Nat.lt_irrefl _)
  | dropOldest hc hqueue hstop hlimit hpolicy =>
    apply QueueView.Honours.of_pos hlimit
    intro _
    have hlength : s.tasksQueue.length ≤ s.maxQueueSize := by
      simp only [WithinLimit, hc] at hok
      exact hok hpolicy hstop hlimit
    rw [hqueue] at hlength
    simpa [view, State.pushBack, State.setClient, State.dropOldest, hqueue] using hlength
  | push hc hroom hstop hlimit =>
    apply QueueView.Honours.of_enqueue
    . rfl
    . exact Nat.le_refl _
    . intro hpos
      have hlt := hlimit hpos
      simp only [view, State.pushBack, State.setClient, List.length_append, List.length_singleton]
      exact hlt
  | resetDrops => exact .of_eq rfl rfl (Nat.zero_le _)
  | addNotify hc h | notifyOne hv hw h | spurious h =>
    obtain ⟨henqueued, hdropped, hcounter⟩ := hnotify _ _ h
    exact .of_eq henqueued hdropped (Nat.le_of_eq hcounter)
  | finish =>
    unfold State.workerFinish
    dsimp only
    split
    . exact .of_eq rfl rfl (Nat.le_refl _)
    . exact .of_eq rfl rfl (Nat.le_refl _)
  | _ => exact .of_eq rfl rfl (Nat.le_refl _)

theorem queue_limit (v : Variant)
    : (system ι v).StepsVia WithinLimit (view ι).Honours := by
  intro s a s' _ hok hstep
  exact (Transition.of_step hstep).honours hok

end LogIt.DequeExecutor

namespace LogIt.CooperativeExecutor

open DequeExecutor (Variant)

def view : QueueView State where
  limit s := s.maxQueueSize
  queued s := s.tasks.length
  enqueued s := s.enqueued.length
  dropped s := s.refused.length + s.evicted.length
  dropCounter s := s.droppedTasks

def WithinLimit (v : Variant) (s : State) (a : Action) : Prop :=
  match a, s.stack with
  | .advance, .addTask _ :: _ =>
    s.overflowPolicy = .dropOldest → s.rejects v = false → 0 < s.maxQueueSize →
      s.tasks.length ≤ s.maxQueueSize
  | _, _ => True

variable {v : Variant} {s s' : State} {a : Action} {stack : List Frame} {t : Nat}

theorem length_dropOldest (s : State) : s.dropOldest.tasks.length = s.tasks.length - 1 := by
  unfold State.dropOldest
  split
  . next hnil => simp [hnil]
  . next hcons => simp [hcons]

theorem honours_emplaceBack (hroom : ¬ s.full) : view.Honours s (s.emplaceBack stack t) := by
  apply QueueView.Honours.of_enqueue
  . rfl
  . exact Nat.le_refl _
  . intro hlimit
    simp only [State.full, not_and, Nat.not_le] at hroom
    simp only [view, State.emplaceBack, List.length_append, List.length_singleton]
    exact hroom hlimit

theorem honours_dropOldest (hfull : s.full) (hlength : s.tasks.length ≤ s.maxQueueSize)
    : view.Honours s (s.dropOldest.emplaceBack stack t) := by
  apply QueueView.Honours.of_pos
  . exact hfull.1
  . intro _
    have hpos : 0 < s.tasks.length := Nat.lt_of_lt_of_le hfull.1 hfull.2
    simp only [view, State.emplaceBack, List.length_append, List.length_singleton,
      length_dropOldest]
    omega

theorem honours_addTask
    (hlength : s.overflowPolicy = .dropOldest → s.rejects v = false →
      0 < s.maxQueueSize → s.tasks.length ≤ s.maxQueueSize)
    : view.Honours s (s.addTask v stack t) := by
  unfold State.addTask
  split
  . exact .of_eq rfl rfl (Nat.le_refl _)
  . next haccepts =>
    split
    . next hfull =>
      split
      . apply QueueView.Honours.of_pos hfull.1
        intro hlt
        exact absurd hlt (Nat.lt_irrefl _)
      . next hpolicy => exact honours_dropOldest hfull (hlength hpolicy (by simpa using haccepts) hfull.1)
      . exact .of_eq rfl rfl (Nat.le_refl _)
    . next hroom => exact honours_emplaceBack hroom

theorem honours_drain : view.Honours s (s.drain stack) := by
  unfold State.drain
  split
  . exact .of_eq rfl rfl (Nat.le_refl _)
  . exact .of_eq rfl rfl (Nat.le_refl _)

theorem honours_unwind : view.Honours s ({ s with executed := executed }.unwind stack) := by
  unfold State.unwind
  split
  . exact .of_eq rfl rfl (Nat.le_refl _)
  . exact .of_eq rfl rfl (Nat.le_refl _)
  . exact .of_eq rfl rfl (Nat.le_refl _)

theorem honours_step (hstep : step v s a = some s') (hok : WithinLimit v s a)
    : view.Honours s s' := by
  cases a with simp only [step] at hstep
  | advance =>
    split at hstep
    . next hstack =>
      cases hstep
      apply honours_addTask
      simpa only [WithinLimit, hstack] using hok
    . cases hstep
      exact .of_eq rfl rfl (Nat.le_refl _)
    . cases hstep
      exact .of_eq rfl rfl (Nat.le_refl _)
    . cases hstep
      exact honours_drain
    . contradiction
    . contradiction
  | taskThrow =>
    split at hstep
    . cases hstep
      exact honours_unwind
    . cases hstep
      exact .of_eq rfl rfl (Nat.le_refl _)
    . contradiction
  | resetDroppedTasks =>
    split at hstep
    . cases hstep
      exact .of_eq rfl rfl (Nat.zero_le _)
    . contradiction
  | _ =>
    -- The other steps leave the queue and the counters as they are.
    repeat' split at hstep
    all_goals first
      | contradiction
      | (cases hstep
         exact .of_eq rfl rfl (Nat.le_refl _))

theorem queue_limit (v : Variant) : (system v).StepsVia (WithinLimit v) view.Honours := by
  intro s a s' _ hok hstep
  exact honours_step hstep hok

end LogIt.CooperativeExecutor

namespace LogIt.MpscExecutor

def view (ι κ : Type) : QueueView (State ι κ) where
  limit s := s.maxQueueSize
  queued s := s.ring.enqueuePos - s.ring.dequeuePos
  enqueued s := s.accepted.length
  dropped s := s.dropped.length
  dropCounter s := s.droppedTasks

def WithinCapacity {ι κ : Type} (s : State ι κ) (a : Action ι κ) : Prop :=
  match a with
  | .producer i spurious =>
    match s.producers i with
    | .push _ policy (.readSeq _ pos) =>
      s.maxQueueSize = 0 → (s.ring.cell pos).seq < pos → policy = .block
    | .push _ _ (.cas _ pos) =>
      s.maxQueueSize = 1 → s.ring.enqueuePos = pos → spurious = false →
        s.ring.dequeuePos = s.ring.enqueuePos
    | _ => True
  | _ => True

def ProducerPc.dropping (pc : ProducerPc) : Bool :=
  match pc with
  | .push _ _ (.returned _ _) | .drop _ | .complete _ .dropped => true
  | _ => false

variable {ι κ : Type} {s s' : State ι κ} {cfg : Config} {a : Action ι κ}

theorem ProducerMove.dropping (h : ProducerMove s pc pc') : pc'.dropping = false := by
  cases h <;> rfl

theorem ProducerPc.admitted_of_dropping {pc : ProducerPc} (h : pc.dropping = true)
    : pc.admitted = true := by
  cases pc with
  | push t policy pc => rfl
  | drop t => rfl
  | complete t refusal => rfl
  | _ => contradiction

structure LimitInv (cfg : Config) (s : State ι κ) : Prop where
  cap : s.ring.cap = max 2 (if s.maxQueueSize = 0 then cfg.defaultRingCap else s.maxQueueSize)
  keeps : s.maxQueueSize = 0 → ∀ i, (s.producers i).dropping = false

theorem cap_new (capacity : Nat) : (.new capacity : MpscRingAny Nat Nat).cap = max 2 capacity := by
  unfold MpscRingAny.new
  dsimp only
  split
  . omega
  . omega

theorem LimitInv.init : LimitInv cfg (MpscExecutor.init cfg : State ι κ) where
  cap := by
    rw [MpscExecutor.init]
    apply cap_new
  keeps _ _ := rfl

theorem LimitInv.maxQueueSize_pos (h : LimitInv cfg s) (hdropping : (s.producers i).dropping = true)
    : 0 < s.maxQueueSize := by
  apply Nat.pos_of_ne_zero
  intro hzero
  rw [h.keeps hzero i] at hdropping
  contradiction

section Step

theorem dropping_afterPush (h : LimitInv cfg s) (hpc : s.producers i = .push t policy pc)
    (hok : WithinCapacity s (.producer i spurious)) (hzero : s.maxQueueSize = 0)
    : (afterPush t policy (s.ring.pushStep spurious pc).2).dropping = false := by
  cases pc with
  | readSeq v pos =>
    simp only [WithinCapacity, hpc] at hok
    simp only [MpscRingAny.pushStep]
    split
    . rfl
    . split
      . next hfull =>
        have hblock : policy = .block := by
          apply hok hzero
          simp only [SizeT.diff] at hfull
          omega
        rw [hblock]
        rfl
      . rfl
  | cas v pos =>
    simp only [MpscRingAny.pushStep]
    split
    . rfl
    . rfl
  | returned ok v =>
    have hkeeps := h.keeps hzero i
    rw [hpc] at hkeeps
    contradiction
  | _ => rfl

variable [DecidableEq ι]

theorem LimitInv.keeps_update (h : LimitInv cfg s) (hpc : s.maxQueueSize = 0 → pc.dropping = false)
    : s.maxQueueSize = 0 → ∀ j, (Function.update s.producers i pc j).dropping = false := by
  intro hzero j
  by_cases hj : j = i
  . rw [hj, Function.update_self]
    exact hpc hzero
  . rw [Function.update_of_ne hj]
    exact h.keeps hzero j

variable [DecidableEq κ] [Fintype ι]

theorem LimitInv.step (h : LimitInv cfg s) (hinv : Inv s) (hok : WithinCapacity s a)
    (hstep : Transition cfg s a s')
    : LimitInv cfg s' := by
  cases hstep with
  | producerMove hmove => exact ⟨h.cap, h.keeps_update (fun _ => hmove.dropping)⟩
  | count | uncount | ticket | completeDropped | completeStopped | leave =>
    exact ⟨h.cap, h.keeps_update (fun _ => rfl)⟩
  | push hpc =>
    constructor
    . dsimp only [State.setProducer]
      rw [MpscRingAny.pushStep_cap]
      exact h.cap
    . apply h.keeps_update
      exact dropping_afterPush h hpc hok
  | drop hpc =>
    refine ⟨h.cap, h.keeps_update ?_⟩
    intro hzero
    exact absurd hzero (Nat.ne_of_gt (h.maxQueueSize_pos (by rw [hpc]; rfl)))
  | pop =>
    refine ⟨?_, h.keeps⟩
    dsimp only
    rw [MpscRingAny.popStep_cap]
    exact h.cap
  | swap hpc =>
    constructor
    . apply cap_new
    . -- The ring is replaced while no producer is in the gate.
      intro _ i
      rw [← Bool.not_eq_true]
      intro hdropping
      have hout := (hinv.at_swap hpc).1 i
      rw [ProducerPc.admitted_of_dropping hdropping] at hout
      contradiction
  | _ => exact ⟨h.cap, h.keeps⟩

omit [DecidableEq ι] [DecidableEq κ] [Fintype ι] in
theorem RingInv.queued_le (h : RingInv s) : (view ι κ).queued s ≤ s.ring.cap := by
  have hdeq := MpscRingAny.Inv.dequeuePos_eq h
  have henq := MpscRingAny.Inv.enqueuePos_le h
  simp only [view]
  omega

omit [DecidableEq ι] [DecidableEq κ] [Fintype ι] in
theorem exists_cas_of_claims {ring : MpscRingAny Nat Nat} {spurious : Bool} {pc : PushPc Nat Nat}
    (h : pc.claims (ring.pushStep spurious pc).2 ≠ [])
    : ∃ v pos, pc = .cas v pos ∧ ring.enqueuePos = pos ∧ spurious = false := by
  cases pc with
  | cas v pos =>
    refine ⟨v, pos, rfl, ?_⟩
    simp only [MpscRingAny.pushStep] at h
    split at h
    . next hcas => exact hcas
    . contradiction
  | _ => contradiction

omit [DecidableEq κ] [Fintype ι] in
theorem honours_push {i : ι} {spurious : Bool} {t : Nat} {policy : QueuePolicy}
    {pc : PushPc Nat Nat} (h : LimitInv cfg s) (hring : RingInv s')
    (hpc : s.producers i = .push t policy pc) (hok : WithinCapacity s (.producer i spurious))
    (hs' : s' = { s.setProducer i (afterPush t policy (s.ring.pushStep spurious pc).2) with
      ring := (s.ring.pushStep spurious pc).1
      claimed := s.claimed ++ pc.claims (s.ring.pushStep spurious pc).2
      accepted := s.accepted ++ pc.claims (s.ring.pushStep spurious pc).2 })
    : (view ι κ).Honours s s' where
  bounded := by
    intro hlimit henqueued
    simp only [view] at hlimit
    have hclaims : pc.claims (s.ring.pushStep spurious pc).2 ≠ [] := by
      intro hnil
      rw [hs', hnil] at henqueued
      simp [view] at henqueued
    obtain ⟨v, pos, hcas, hpos, hspurious⟩ := exists_cas_of_claims hclaims
    have hcap : s'.ring.cap = max 2 s.maxQueueSize := by
      rw [hs']
      dsimp only [State.setProducer]
      rw [MpscRingAny.pushStep_cap, h.cap, if_neg (Nat.ne_of_gt hlimit)]
    by_cases hone : s.maxQueueSize = 1
    . -- The ring has two cells then, but only one of them is used.
      simp only [WithinCapacity, hpc, hcas] at hok
      have hempty := hok hone hpos hspurious
      rw [hs']
      simp only [view, State.setProducer, hcas, MpscRingAny.pushStep, hpos, hspurious, and_self,
        if_true, hempty, hone, SizeT.add]
      omega
    . have hqueued := hring.queued_le
      rw [hcap] at hqueued
      simp only [view] at hqueued ⊢
      omega
  unbounded := by
    intro _
    rw [hs']
    exact ⟨rfl, Nat.le_refl _⟩

omit [Fintype ι] in
theorem Transition.honours (hstep : Transition cfg s a s') (h : LimitInv cfg s) (hring : RingInv s')
    (hok : WithinCapacity s a)
    : (view ι κ).Honours s s' := by
  cases hstep with
  | push hpc => exact honours_push h hring hpc hok rfl
  | drop hpc | completeDropped hpc =>
    apply QueueView.Honours.of_pos
    . exact h.maxQueueSize_pos (by rw [hpc]; rfl)
    . intro hlt
      exact absurd hlt (Nat.lt_irrefl _)
  | resetDrops => exact .of_eq rfl rfl (Nat.zero_le _)
  | _ => exact .of_eq rfl rfl (Nat.le_refl _)

theorem queue_limit (cfg : Config)
    : (system ι κ cfg).StepsVia WithinCapacity (view ι κ).Honours := by
  intro s a s' reach hok hstep
  have hinv : LimitInv cfg s := by
    apply reach.invariant (LimitInv cfg) .init
    intro s a s' reach hinv hok hstep
    exact hinv.step (reachable_inv reach.reachable) hok (.of_step hstep)
  have hring := (reachable_inv (reach.reachable.step hstep)).ring
  exact (Transition.of_step hstep).honours hinv hring hok

end Step
end LogIt.MpscExecutor

namespace LogIt

open List

open DequeExecutor (Variant)

theorem queue_limit_uniform (ι κ : Type) [DecidableEq ι] [DecidableEq κ] [Fintype ι]
    (cfg : MpscExecutor.Config)
    : (∀ v : Variant, (DequeExecutor.system ι v).StepsVia DequeExecutor.WithinLimit
        (DequeExecutor.view ι).Honours) ∧
      (MpscExecutor.system ι κ cfg).StepsVia MpscExecutor.WithinCapacity
        (MpscExecutor.view ι κ).Honours ∧
      (∀ v : Variant, (CooperativeExecutor.system v).StepsVia (CooperativeExecutor.WithinLimit v)
        CooperativeExecutor.view.Honours) := by
  refine ⟨?_, ?_, ?_⟩
  . exact DequeExecutor.queue_limit
  . exact MpscExecutor.queue_limit cfg
  . exact CooperativeExecutor.queue_limit

theorem queue_limit_uniform_dropOldest
    : ∃ s s', (DequeExecutor.system (Fin 1) .taskExecutor).ReachableVia DequeExecutor.WithinLimit s ∧
        (DequeExecutor.system (Fin 1) .taskExecutor).step s (.addLock 0) = some s' ∧
        s.maxQueueSize = 1 ∧ s.tasksQueue = [0] ∧ s'.tasksQueue = [1] ∧
        (DequeExecutor.view (Fin 1)).Honours s s' := by
  have hrun : ∃ s, (DequeExecutor.system (Fin 1) .taskExecutor).ReachableVia
      DequeExecutor.WithinLimit s ∧ s.maxQueueSize = 1 ∧ s.tasksQueue = [0] ∧
      DequeExecutor.WithinLimit s (.addLock 0) ∧
      ((DequeExecutor.system (Fin 1) .taskExecutor).step s (.addLock 0)).any
        (fun s' => decide (s'.tasksQueue = [1])) = true := by
    apply Lts.exists_reachableVia _ _
      [.setQueuePolicy .dropOldest, .setMaxQueueSize 0 1, .addTask 0 true, .addLock 0,
        .addNotify 0 .nobody, .addTask 0 true]
    decide +kernel
  obtain ⟨s, reach, hlimit, hqueue, hok, hstep⟩ := hrun
  rw [Option.any_eq_true] at hstep
  obtain ⟨s', hstep, hqueue'⟩ := hstep
  refine ⟨s, s', reach, hstep, hlimit, hqueue, by simpa using hqueue', ?_⟩
  exact (queue_limit_uniform (Fin 1) (Fin 1) .default).1 .taskExecutor s _ s' reach hok hstep

theorem queue_limit_differs
    : (∀ v : Variant, ∃ s s', (DequeExecutor.system (Fin 2) v).Reachable s ∧
        (DequeExecutor.system (Fin 2) v).step s (.addLock 0) = some s' ∧
        ¬ (DequeExecutor.view (Fin 2)).Honours s s') ∧
      (∃ s s', (MpscExecutor.system (Fin 1) (Fin 1) .default).Reachable s ∧
        (MpscExecutor.system (Fin 1) (Fin 1) .default).step s (.producer 0 false) = some s' ∧
        ¬ (MpscExecutor.view (Fin 1) (Fin 1)).Honours s s') ∧
      (∃ s s', (MpscExecutor.system (Fin 1) (Fin 1) ⟨2048, 2⟩).Reachable s ∧
        (MpscExecutor.system (Fin 1) (Fin 1) ⟨2048, 2⟩).step s (.producer 0 false) = some s' ∧
        ¬ (MpscExecutor.view (Fin 1) (Fin 1)).Honours s s') ∧
      (∀ v : Variant, ∃ s s', (CooperativeExecutor.system v).Reachable s ∧
        (CooperativeExecutor.system v).step s .advance = some s' ∧
        ¬ CooperativeExecutor.view.Honours s s') := by
  refine ⟨?_, ?_, ?_, ?_⟩
  . intro v
    apply Lts.exists_step _
      [.setQueuePolicy .dropOldest, .addTask 0 true, .addLock 0, .addNotify 0 .nobody,
        .addTask 0 true, .addLock 0, .addNotify 0 .nobody, .setMaxQueueSize 1 1, .addTask 0 true]
    cases v with
    | taskExecutor | singleThreadExecutor => decide +kernel
  . -- The ring for a limit of one task has two cells.
    apply Lts.exists_step _
      (flatten [[.setMaxQueueSize 1], replicate 8 .lifecycle,
        replicate 8 (.worker false), replicate 6 .lifecycle, [.addTask 0 true],
        replicate 13 (.producer 0 false), [.addTask 0 true],
        replicate 9 (.producer 0 false)])
    decide +kernel
  . -- Without a limit the third task is dropped by a ring of two cells.
    apply Lts.exists_step _
      (flatten [[.setQueuePolicy .dropNewest, .addTask 0 true],
        replicate 13 (.producer 0 false), [.addTask 0 true],
        replicate 13 (.producer 0 false), [.addTask 0 true],
        replicate 9 (.producer 0 false)])
    decide +kernel
  . intro v
    apply Lts.exists_step _
      [.setQueuePolicy .dropOldest, .addTask true, .advance, .advance, .addTask true, .advance,
        .setMaxQueueSize 1, .addTask true]
    cases v with
    | taskExecutor | singleThreadExecutor => decide +kernel

end LogIt
