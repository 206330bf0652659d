import LogIt.Lib.ThreadSum
import LogIt.Deque.Lemmas.Transition

namespace LogIt.DequeExecutor
namespace ClientPc

variable (pc : ClientPc)

def producerParked : Bool :=
  match pc with
  | .addParked _ => true
  | _ => false

def producerWoken : Bool :=
  match pc with
  | .addWoken _ => true
  | _ => false

def waiterParked : Bool :=
  match pc with
  | .waitParked _ => true
  | _ => false

def unblocked : Bool :=
  !pc.producerParked && !pc.producerWoken

theorem producerParked_wake : pc.wake.producerParked = false := by
  cases pc <;> rfl

theorem producerWoken_wake
    : pc.wake.producerWoken.toNat = pc.producerWoken.toNat + pc.producerParked.toNat := by
  cases pc <;> rfl

end ClientPc

def Slots (parked woken limit length owed : Nat) : Prop :=
  (0 < parked + woken → 0 < limit) ∧ (parked = 0 ∨ limit - length ≤ woken + owed)

variable {ι : Type} [Fintype ι]

def State.parkedProducers (s : State ι) : Nat :=
  threadSum (fun pc => pc.producerParked.toNat) s.clients

def State.wokenProducers (s : State ι) : Nat :=
  threadSum (fun pc => pc.producerWoken.toNat) s.clients

def Released (s : State ι) : Prop :=
  s.stopFlag = false →
    Slots s.parkedProducers s.wokenProducers s.maxQueueSize s.tasksQueue.length
      s.worker.notifies.toNat

section Counts

variable {s : State ι}

theorem parkedProducers_eq_zero : s.parkedProducers = 0 ↔ ∀ c, (s.clients c).producerParked = false := by
  unfold State.parkedProducers
  rw [threadSum_eq_zero_iff]
  simp

theorem wokenProducers_eq_zero : s.wokenProducers = 0 ↔ ∀ c, (s.clients c).producerWoken = false := by
  unfold State.wokenProducers
  rw [threadSum_eq_zero_iff]
  simp

theorem parkedProducers_notifyAll : s.notifyAll.parkedProducers = 0 := by
  rw [parkedProducers_eq_zero]
  intro c
  exact (s.clients c).producerParked_wake

theorem wokenProducers_notifyAll
    : s.notifyAll.wokenProducers = s.wokenProducers + s.parkedProducers := by
  unfold State.wokenProducers State.parkedProducers threadSum
  rw [← Finset.sum_add_distrib]
  apply Finset.sum_congr rfl
  intro c _
  exact (s.clients c).producerWoken_wake

theorem Released.notifyAll (h : Released s) : Released s.notifyAll := by
  intro hstop
  obtain ⟨hlimit, _⟩ := h hstop
  rw [parkedProducers_notifyAll, wokenProducers_notifyAll]
  exact ⟨fun hpos => hlimit (by omega), .inl rfl⟩

variable [DecidableEq ι] {c : ι} {pc : ClientPc}

theorem parkedProducers_setClient (s : State ι) (c : ι) (pc : ClientPc)
    : (s.setClient c pc).parkedProducers + (s.clients c).producerParked.toNat
        = s.parkedProducers + pc.producerParked.toNat :=
  threadSum_update _ _ _ _

theorem wokenProducers_setClient (s : State ι) (c : ι) (pc : ClientPc)
    : (s.setClient c pc).wokenProducers + (s.clients c).producerWoken.toNat
        = s.wokenProducers + pc.producerWoken.toNat :=
  threadSum_update _ _ _ _

theorem Released.setClient (h : Released s) (hold : (s.clients c).unblocked = true)
    (hnew : pc.unblocked = true)
    : Released (s.setClient c pc) := by
  have hparked := parkedProducers_setClient s c pc
  have hwoken := wokenProducers_setClient s c pc
  simp only [ClientPc.unblocked, Bool.and_eq_true, Bool.not_eq_true'] at hold hnew
  rw [hold.1, hnew.1] at hparked
  rw [hold.2, hnew.2] at hwoken
  intro hstop
  rw [Nat.add_right_cancel hparked, Nat.add_right_cancel hwoken]
  exact h hstop

theorem Released.wakeClient (h : Released s) (c : ι)
    : Released (s.setClient c (s.clients c).wake) := by
  have hcount := parkedProducers_setClient s c (s.clients c).wake
  have hwoken := wokenProducers_setClient s c (s.clients c).wake
  rw [ClientPc.producerParked_wake] at hcount
  rw [ClientPc.producerWoken_wake] at hwoken
  intro hstop
  obtain ⟨hlimit, hslots⟩ := h hstop
  simp only [Bool.toNat_false] at hcount
  constructor
  . intro hpos
    exact hlimit (by omega)
  . cases hslots with
    | inl hzero => exact .inl (by omega)
    | inr hle =>
      right
      simp only [State.setClient] at hle hwoken ⊢
      omega

theorem Released.notifyOne (h : Released s) (hnotify : s.notifyOne target = some s')
    : Released s' := by
  rcases State.notifyOne_cases hnotify with ⟨rfl, _⟩ | ⟨rfl, hparked⟩ | ⟨c, rfl, _⟩
  . exact h
  . intro hstop
    have hslots := h hstop
    rw [hparked] at hslots
    exact hslots
  . exact h.wakeClient c

end Counts

def ProducersInformed (s : State ι) (a : Action ι) : Prop :=
  match a with
  | .setMaxQueueSize _ 0 => ∀ c, (s.clients c).unblocked = true
  | .setMaxQueueSize _ size =>
    (∀ c, (s.clients c).producerParked = false) ∨ size ≤ s.maxQueueSize ∨
      size ≤ s.tasksQueue.length
  | .workerNotify _ =>
    (∃ c, (s.clients c).producerParked = true) → ∀ c, (s.clients c).waiterParked = false
  | _ => True

instance (s : State ι) (a : Action ι) : Decidable (ProducersInformed s a) :=
  match a with
  | .setMaxQueueSize _ 0 => inferInstanceAs (Decidable (∀ c, (s.clients c).unblocked = true))
  | .setMaxQueueSize _ (size + 1) =>
    inferInstanceAs (Decidable ((∀ c, (s.clients c).producerParked = false) ∨
      size + 1 ≤ s.maxQueueSize ∨ size + 1 ≤ s.tasksQueue.length))
  | .workerNotify _ =>
    inferInstanceAs (Decidable ((∃ c, (s.clients c).producerParked = true) →
      ∀ c, (s.clients c).waiterParked = false))
  | .addTask .. | .addLock .. | .addNotify .. | .wait .. | .waitLock .. | .waitReturn ..
  | .limitNotify .. | .setQueuePolicy .. | .resetDroppedTasks | .shutdown .. | .shutdownNotify ..
  | .shutdownJoin .. | .workerLock | .workerRun | .workerFinish | .spuriousWakeup .. =>
    isTrue trivial

section Step

variable {s s' : State ι} {a : Action ι} {c : ι} {t : Nat}

theorem Released.setLimit (h : Released s) (hok : ProducersInformed s (.setMaxQueueSize c size))
    : Released { s with maxQueueSize := size } := by
  intro hstop
  obtain ⟨_, hslots⟩ := h hstop
  have hp : State.parkedProducers { s with maxQueueSize := size } = s.parkedProducers := rfl
  have hw : State.wokenProducers { s with maxQueueSize := size } = s.wokenProducers := rfl
  rw [hp, hw]
  dsimp only
  cases size with
  | zero =>
    have hnone : s.parkedProducers = 0 ∧ s.wokenProducers = 0 := by
      rw [parkedProducers_eq_zero, wokenProducers_eq_zero]
      simp only [ProducersInformed, ClientPc.unblocked, Bool.and_eq_true, Bool.not_eq_true'] at hok
      exact ⟨fun c => (hok c).1, fun c => (hok c).2⟩
    exact ⟨fun hpos => by omega, .inl hnone.1⟩
  | succ size =>
    refine ⟨fun _ => by omega, ?_⟩
    rcases hok with hnone | hle | hle
    . exact .inl (parkedProducers_eq_zero.mpr hnone)
    . exact hslots.imp_right (by omega)
    . exact .inr (by omega)

theorem Released.frame (h : Released s) (hclients : s'.clients = s.clients)
    (hlength : s'.tasksQueue = s.tasksQueue) (hlimit : s'.maxQueueSize = s.maxQueueSize)
    (hstop : s'.stopFlag = s.stopFlag) (hw : s'.worker.notifies = s.worker.notifies)
    : Released s' := by
  unfold Released State.parkedProducers State.wokenProducers
  rw [hclients, hlength, hlimit, hstop, hw]
  exact h

theorem Released.of_stop (hstop : s.stopFlag = true) : Released s := by
  intro hrun
  rw [hstop] at hrun
  contradiction

variable [DecidableEq ι]

section

variable (h : Released s) (hc : s.clients c = .addTask t ∨ s.clients c = .addWoken t)

include h hc

theorem Released.parkProducer (hfirst : s.clients c = .addTask t → 0 < s.maxQueueSize)
    (hroom : s.hasRoom .taskExecutor = false)
    : Released (s.setClient c (.addParked t)) := by
  have hwoken := wokenProducers_setClient s c (.addParked t)
  simp only [State.hasRoom, Bool.or_eq_false_iff, decide_eq_false_iff_not] at hroom
  intro hstop
  obtain ⟨hlimit, _⟩ := h hstop
  refine ⟨?_, .inr (by simp only [State.setClient]; omega)⟩
  intro _
  cases hc with
  | inl hc => exact hfirst hc
  | inr hc =>
    rw [hc] at hwoken
    simp only [ClientPc.producerWoken, Bool.toNat_true, Bool.toNat_false] at hwoken
    exact hlimit (by omega)

theorem Released.pushBack (hroom : s.clients c = .addWoken t → s.hasRoom .taskExecutor = true)
    : Released (s.pushBack c t) := by
  have hparked := parkedProducers_setClient s c (.addNotify t)
  have hwoken := wokenProducers_setClient s c (.addNotify t)
  intro hstop
  obtain ⟨hlimit, hslots⟩ := h hstop
  have hlength : (s.pushBack c t).tasksQueue.length = s.tasksQueue.length + 1 := by
    simp [State.pushBack]
  have hp : (s.pushBack c t).parkedProducers = (s.setClient c (.addNotify t)).parkedProducers := rfl
  have hw : (s.pushBack c t).wokenProducers = (s.setClient c (.addNotify t)).wokenProducers := rfl
  have hl : (s.pushBack c t).maxQueueSize = s.maxQueueSize := rfl
  have ho : (s.pushBack c t).worker = s.worker := rfl
  rw [hlength, hp, hw, hl, ho]
  cases hc with
  | inl hc =>
    rw [hc] at hparked hwoken
    simp only [ClientPc.producerParked, ClientPc.producerWoken, Bool.toNat_false,
      Nat.add_zero] at hparked hwoken
    rw [hparked, hwoken]
    exact ⟨hlimit, hslots.imp_right (by omega)⟩
  | inr hc =>
    -- The woken producer takes the slot it was woken for.
    have hfree := hroom hc
    simp only [State.hasRoom, Bool.or_eq_true, decide_eq_true_eq] at hfree
    have hfree : s.tasksQueue.length < s.maxQueueSize := by
      cases hfree with
      | inl hfree => exact hfree
      | inr hfree =>
        have : s.stopFlag = false := hstop
        rw [this] at hfree
        contradiction
    rw [hc] at hparked hwoken
    simp only [ClientPc.producerParked, ClientPc.producerWoken, Bool.toNat_false, Bool.toNat_true,
      Nat.add_zero] at hparked hwoken
    exact ⟨fun _ => by omega, hslots.imp (by omega) (by omega)⟩

end

theorem Released.dropOldest (h : Released s) (hc : s.clients c = .addTask t)
    (hqueue : s.tasksQueue = old :: ts)
    : Released (s.dropOldest.pushBack c t) := by
  have hset : Released (s.setClient c (.addNotify t)) := h.setClient (by rw [hc]; rfl) rfl
  have heq : s.dropOldest = { s with
      tasksQueue := ts, droppedTasks := s.droppedTasks + 1, evicted := s.evicted ++ [old] } := by
    simp [State.dropOldest, hqueue]
  have hlength : (ts ++ [t]).length = s.tasksQueue.length := by simp [hqueue]
  intro hstop
  rw [heq] at hstop ⊢
  have hslots := hset hstop
  simp only [State.pushBack]
  rw [hlength]
  exact hslots

theorem Released.of_owed {target : Target ι}
    (h : s.stopFlag = false →
      Slots s.parkedProducers s.wokenProducers s.maxQueueSize s.tasksQueue.length 1)
    (hw : s.worker.notifies = false) (hw' : s.worker ≠ .parked)
    (hok : (∃ c, (s.clients c).producerParked = true) → ∀ c, (s.clients c).waiterParked = false)
    (hnotify : s.notifyOne target = some s')
    : Released s' := by
  have hnone : (∀ c, (s.clients c).producerParked = false) → Released s := by
    intro hnone hstop
    exact ⟨(h hstop).1, .inl (parkedProducers_eq_zero.mpr hnone)⟩
  rcases State.notifyOne_cases hnotify with ⟨rfl, _, hnobody⟩ | ⟨_, hparked⟩ | ⟨c, rfl, hparked⟩
  . apply hnone
    intro c
    have hc := hnobody c
    cases hpc : s'.clients c with
    | addParked t =>
      rw [hpc] at hc
      contradiction
    | _ => rfl
  . exact absurd hparked hw'
  . cases hpc : s.clients c with
    | addParked t =>
      intro hstop
      have hcount := parkedProducers_setClient s c (.addWoken t)
      have hwoken := wokenProducers_setClient s c (.addWoken t)
      obtain ⟨hlimit, hslots⟩ := h hstop
      simp only [hpc, ClientPc.producerParked, ClientPc.producerWoken, Bool.toNat_false,
        Bool.toNat_true, Nat.add_zero] at hcount hwoken
      have hlength : (s.setClient c (.addWoken t)).tasksQueue = s.tasksQueue := rfl
      have hmax : (s.setClient c (.addWoken t)).maxQueueSize = s.maxQueueSize := rfl
      have howed : (s.setClient c (.addWoken t)).worker = s.worker := rfl
      simp only [ClientPc.wake, hlength, hmax, howed, hw, Bool.toNat_false]
      exact ⟨fun hpos => hlimit (by omega), hslots.imp (by omega) (by omega)⟩
    | waitParked before =>
      rw [← hpc]
      apply Released.wakeClient
      apply hnone
      intro c'
      rw [← Bool.not_eq_true]
      intro hproducer
      have hwaiter := hok ⟨c', hproducer⟩ c
      rw [hpc] at hwaiter
      contradiction
    | _ =>
      rw [hpc] at hparked
      contradiction

theorem Released.step (h : Released s) (hok : ProducersInformed s a)
    (hstep : Transition .taskExecutor s a s')
    : Released s' := by
  cases hstep with
  | skip => exact h
  | @call c hc =>
    have hset : Released (s.setClient c (.addTask s.submitted)) :=
      h.setClient (by rw [hc]; rfl) rfl
    exact hset.frame rfl rfl rfl rfl rfl
  | reject _ hstop | exit _ hstop => exact .of_stop hstop
  | @dropNewest c t hc | @shutdownJoin c onWorker hc =>
    have hset : Released (s.setClient c .idle) := h.setClient (by rw [hc]; rfl) rfl
    exact hset.frame rfl rfl rfl rfl rfl
  | dropOldest hc hqueue => exact h.dropOldest hc hqueue
  | push hc hroom => exact h.pushBack hc hroom
  | parkProducer hc hfirst hroom => exact h.parkProducer hc hfirst hroom
  | @addNotify c t target s' hc hnotify =>
    have hset : Released (s.setClient c .idle) := h.setClient (by rw [hc]; rfl) rfl
    refine Released.notifyOne ?_ hnotify
    exact hset.frame rfl rfl rfl rfl rfl
  | wait hc | waitReturn hc | shutdownAgain hc => exact h.setClient (by rw [hc]; rfl) rfl
  | waitDone hc | parkWaiter hc => exact h.setClient (by cases hc with | _ hc => rw [hc]; rfl) rfl
  | setLimit => exact h.setLimit hok
  | setLimitNotify _ hv | notifyAll hv => contradiction
  | @limitNotify c hc =>
    have hset : Released (s.setClient c .idle) := h.setClient (by rw [hc]; rfl) rfl
    exact hset.notifyAll
  | setPolicy | resetDrops => exact h.frame rfl rfl rfl rfl rfl
  | shutdown => exact .of_stop rfl
  | @shutdownNotify c onWorker hc =>
    have hset : Released (s.setClient c (.shutdownJoin onWorker)) :=
      h.setClient (by rw [hc]; rfl) rfl
    exact hset.notifyAll
  | @pop t ts hw hqueue =>
    intro hstop
    obtain ⟨hlimit, hslots⟩ := h hstop
    have howed : s.worker.notifies = false := by
      cases hw with
      | inl hw | inr hw => rw [hw]; rfl
    rw [hqueue, List.length_cons, howed, Bool.toNat_false] at hslots
    refine ⟨hlimit, hslots.imp_right ?_⟩
    intro hle
    have hslot : s.maxQueueSize - ts.length ≤ s.wokenProducers + 1 := by omega
    exact hslot
  | parkWorker hw =>
    refine h.frame rfl rfl rfl rfl ?_
    cases hw with
    | inl hw | inr hw => rw [hw]; rfl
  | notifyOne _ hw hnotify =>
    refine Released.of_owed ?_ ?_ ?_ ?_ hnotify
    . intro hstop
      have hslots := h hstop
      rw [hw] at hslots
      exact hslots
    . rfl
    . simp
    . exact hok
  | run hw => exact h.frame rfl rfl rfl rfl (by rw [hw]; rfl)
  | finish hw =>
    have hready : Released { s with activeTasks := s.activeTasks - 1, worker := .ready } :=
      h.frame rfl rfl rfl rfl (by rw [hw]; rfl)
    unfold State.workerFinish
    dsimp only
    split
    . exact hready.notifyAll
    . exact hready
  | spurious hnotify => exact h.notifyOne hnotify

end Step

theorem no_producer_parked (ι : Type) [DecidableEq ι] [Fintype ι] (s : State ι)
    (h : (system ι .taskExecutor).ReachableVia ProducersInformed s) (hquiet : s.Quiet)
    (hstop : s.stopFlag = false)
    (hroom : s.maxQueueSize = 0 ∨ s.tasksQueue.length < s.maxQueueSize)
    : ∀ c t, s.clients c ≠ .addParked t := by
  have hreleased : Released s := by
    apply h.invariant Released
    . intro _
      have hzero : (init : State ι).parkedProducers = 0 := by
        rw [parkedProducers_eq_zero]
        intro c
        rfl
      have hzero' : (init : State ι).wokenProducers = 0 := by
        rw [wokenProducers_eq_zero]
        intro c
        rfl
      exact ⟨fun hpos => absurd hpos (by simp only [system]; omega), .inl hzero⟩
    . intro s a s' _ hreleased hok hstep
      exact hreleased.step hok (.of_step hstep)
  have hwoken : s.wokenProducers = 0 := by
    rw [wokenProducers_eq_zero]
    intro c
    have hc := (hquiet.1 c).2
    cases hpc : s.clients c with
    | addWoken t =>
      rw [hpc] at hc
      contradiction
    | _ => rfl
  obtain ⟨hlimit, hslots⟩ := hreleased hstop
  rw [hquiet.2.1, hwoken] at hslots
  have hparked : s.parkedProducers = 0 := by
    simp only [Bool.toNat_false] at hslots
    omega
  intro c t hc
  have hnone := parkedProducers_eq_zero.mp hparked c
  rw [hc] at hnone
  contradiction

theorem no_producer_parked_after_pop
    : ∃ s : State (Fin 1), ((system (Fin 1) .taskExecutor).ReachableVia ProducersInformed s ∧
        s.Quiet ∧ s.stopFlag = false ∧ s.tasksQueue.length < s.maxQueueSize ∧
        s.executed = [0, 1]) ∧ ∀ c t, s.clients c ≠ .addParked t := by
  have hrun : ∃ s : State (Fin 1), (system (Fin 1) .taskExecutor).ReachableVia ProducersInformed s ∧
      s.Quiet ∧ s.stopFlag = false ∧ s.tasksQueue.length < s.maxQueueSize ∧
      s.executed = [0, 1] := by
    apply Lts.exists_reachableVia _ ProducersInformed [
      .setMaxQueueSize 0 1, .addTask 0 true, .addLock 0, .addNotify 0 .nobody,
      .addTask 0 true, .addLock 0,
      .workerLock, .workerNotify (.client 0), .addLock 0, .addNotify 0 .nobody,
      .workerRun, .workerFinish, .workerLock, .workerNotify .nobody, .workerRun, .workerFinish]
    decide
  obtain ⟨s, hreach, hquiet, hstop, hroom, hexecuted⟩ := hrun
  exact ⟨s, ⟨hreach, hquiet, hstop, hroom, hexecuted⟩,
    no_producer_parked (Fin 1) s hreach hquiet hstop (.inr hroom)⟩

theorem producer_parked_unbounded
    : ∃ s : State (Fin 2),
        (system (Fin 2) .taskExecutor).ReachableVia (fun _ a => a.spurious = false) s ∧
        s.Quiet ∧ s.stopFlag = false ∧ s.maxQueueSize = 0 ∧ s.tasksQueue = [] ∧
        s.worker = .parked ∧ s.clients 1 = .addParked 1 := by
  apply Lts.exists_reachableVia _ _ [
    .setMaxQueueSize 0 1, .addTask 0 true, .addLock 0, .addNotify 0 .nobody,
    .addTask 1 true, .addLock 1, .setMaxQueueSize 0 0,
    .workerLock, .workerNotify (.client 1), .addLock 1,
    .workerRun, .workerFinish, .addLock 1, .workerLock]
  decide

end LogIt.DequeExecutor
