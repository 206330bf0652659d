import LogIt.Lib.ThreadSum
import LogIt.Deque.Lemmas.Transition

namespace LogIt.DequeExecutor

open List

def ClientPc.unsettled (pc : ClientPc) : Multiset Nat :=
  match pc with
  | .addTask t | .addParked t | .addWoken t => {t}
  | _ => 0

@[simp]
theorem ClientPc.unsettled_wake (pc : ClientPc) : pc.wake.unsettled = pc.unsettled := by
  cases pc <;> rfl

def ClientPc.Justified (pc : ClientPc) (enqueued finished : List Nat) : Prop :=
  match pc with
  | .addNotify t => t ∈ enqueued
  | .wait before | .waitParked before | .waitWoken before => before ⊆ enqueued
  | .waitReturned before false => before ⊆ finished
  | _ => True

theorem ClientPc.Justified.mono {pc : ClientPc} (h : pc.Justified enqueued finished)
    (h1 : enqueued ⊆ enqueued') (h2 : finished ⊆ finished')
    : pc.Justified enqueued' finished' := by
  unfold Justified at h ⊢
  split
  . exact h1 h
  . exact fun _ hx => h1 (h hx)
  . exact fun _ hx => h1 (h hx)
  . exact fun _ hx => h1 (h hx)
  . exact fun _ hx => h2 (h hx)
  . trivial

theorem ClientPc.Justified.wake {pc : ClientPc} (h : pc.Justified enqueued finished)
    : pc.wake.Justified enqueued finished := by
  cases pc with
  | addParked t => trivial
  | waitParked before => exact h
  | _ => exact h

namespace WorkerPc

section

variable (pc : WorkerPc)

def held : List Nat :=
  match pc with
  | .popNotify t | .running t => [t]
  | _ => []

def entered : List Nat :=
  match pc with
  | .running t => [t]
  | _ => []

def active : Nat :=
  match pc with
  | .popNotify _ | .running _ | .finishing => 1
  | _ => 0

@[simp]
theorem held_wake : pc.wake.held = pc.held := by
  cases pc <;> rfl

@[simp]
theorem entered_wake : pc.wake.entered = pc.entered := by
  cases pc <;> rfl

@[simp]
theorem active_wake : pc.wake.active = pc.active := by
  cases pc <;> rfl

end

theorem wake_eq_exited {pc : WorkerPc} : pc.wake = .exited ↔ pc = .exited := by
  cases pc <;> simp [wake]

theorem between {pc : WorkerPc} (h : pc = .ready ∨ pc = .woken)
    : pc.held = [] ∧ pc.entered = [] ∧ pc.active = 0 := by
  cases h with
  | inl h | inr h => simp [h, held, entered, active]

end WorkerPc

variable {ι : Type} [Fintype ι]

structure Inv (s : State ι) : Prop where
  submissions : (s.enqueued : Multiset Nat) + s.refused + s.rejected
    + threadSum ClientPc.unsettled s.clients = Multiset.range s.submitted
  tasks : (s.executed : Multiset Nat) + s.worker.held + s.tasksQueue + s.evicted = s.enqueued
  started : s.started = s.executed ++ s.worker.entered
  order : (s.executed ++ s.worker.held ++ s.tasksQueue).Sublist s.enqueued
  active : s.activeTasks = s.worker.active
  returned : ∀ t ∈ s.returned, t ∈ s.enqueued ∨ t ∈ s.refused ∨ t ∈ s.rejected
  exited : s.worker = .exited → s.tasksQueue = [] ∧ s.stopFlag = true
  drops : s.dropsReset = false → s.droppedTasks = s.refused.length + s.evicted.length
  clients : ∀ c, (s.clients c).Justified s.enqueued (s.executed ++ s.evicted)

namespace Inv

variable {v : Variant} {s s' : State ι} {c : ι} {pc : ClientPc} {t : Nat}

theorem init : Inv (DequeExecutor.init : State ι) := by
  constructor
  case submissions => exact Submissions.init rfl
  all_goals simp [DequeExecutor.init, WorkerPc.held, WorkerPc.entered, WorkerPc.active,
    ClientPc.Justified]

theorem configure (h : Inv s) (size : Nat) (policy : QueuePolicy) (done locked stop : Bool)
    (hstop : s.stopFlag = true → stop = true)
    : Inv { s with
        maxQueueSize := size, overflowPolicy := policy, shutdownDone := done,
        lifecycleLocked := locked, stopFlag := stop } where
  __ := h
  exited := fun hexited => ⟨(h.exited hexited).1, hstop (h.exited hexited).2⟩

theorem dropOldest (h : Inv s) : Inv s.dropOldest := by
  unfold State.dropOldest
  split
  . exact h
  . next old ts hqueue =>
    constructor
    case submissions => exact h.submissions
    case tasks =>
      rw [← h.tasks, hqueue]
      simp only [← Multiset.coe_add, ← Multiset.cons_coe, ← Multiset.singleton_add]
      abel
    case started => exact h.started
    case order =>
      have horder := h.order
      rw [hqueue] at horder
      exact ((List.Sublist.refl _).append (sublist_cons_self old ts)).trans horder
    case active => exact h.active
    case returned => exact h.returned
    case exited =>
      intro hexited
      have := (h.exited hexited).1
      simp [hqueue] at this
    case drops =>
      intro hreset
      have := h.drops hreset
      simp only [length_append, length_singleton]
      omega
    case clients =>
      intro c
      apply (h.clients c).mono (List.Subset.refl _)
      rw [← append_assoc]
      exact subset_append_left _ _

theorem notifyAll (h : Inv s) : Inv s.notifyAll where
  __ := h
  submissions := by
    simp only [State.notifyAll]
    rw [threadSum_map]
    simp only [ClientPc.unsettled_wake]
    exact h.submissions
  tasks := by simpa [State.notifyAll] using h.tasks
  started := by simpa [State.notifyAll] using h.started
  order := by simpa [State.notifyAll] using h.order
  active := by simpa [State.notifyAll] using h.active
  exited := fun hexited => h.exited (WorkerPc.wake_eq_exited.mp hexited)
  clients := fun c => (h.clients c).wake

theorem setWorker {pc : WorkerPc} (h : Inv s) (hheld : pc.held = s.worker.held)
    (hentered : pc.entered = s.worker.entered) (hactive : pc.active = s.worker.active)
    (hexited : pc = .exited → s.tasksQueue = [] ∧ s.stopFlag = true)
    : Inv { s with worker := pc } where
  __ := h
  tasks := by simpa [hheld] using h.tasks
  started := by simpa [hentered] using h.started
  order := by simpa [hheld] using h.order
  active := by simpa [hactive] using h.active
  exited := hexited

theorem pop {ts : List Nat} (h : Inv s) (hw : s.worker = .ready ∨ s.worker = .woken)
    (hqueue : s.tasksQueue = t :: ts)
    : Inv { s with
        tasksQueue := ts, activeTasks := s.activeTasks + 1, worker := .popNotify t } := by
  obtain ⟨hheld, hentered, hactive⟩ := WorkerPc.between hw
  constructor
  case submissions => exact h.submissions
  case tasks =>
    rw [← h.tasks, hqueue, hheld]
    simp only [WorkerPc.held, ← Multiset.cons_coe, ← Multiset.singleton_add, Multiset.coe_nil]
    abel
  case started =>
    have := h.started
    rw [hentered] at this
    exact this
  case order =>
    have := h.order
    rw [hheld, hqueue] at this
    simpa [WorkerPc.held] using this
  case active =>
    have := h.active
    rw [hactive] at this
    simp [this, WorkerPc.active]
  case returned => exact h.returned
  case exited => simp
  case drops => exact h.drops
  case clients => exact h.clients

theorem start (h : Inv s) (hw : s.worker = .popNotify t)
    : Inv { s with worker := .running t, started := s.started ++ [t] } where
  __ := h
  tasks := by simpa [hw, WorkerPc.held] using h.tasks
  started := by simpa [hw, WorkerPc.entered] using h.started
  order := by simpa [hw, WorkerPc.held] using h.order
  active := by simpa [hw, WorkerPc.active] using h.active
  exited := by simp

theorem run (h : Inv s) (hw : s.worker = .running t)
    : Inv { s with worker := .finishing, executed := s.executed ++ [t] } where
  __ := h
  tasks := by
    rw [← h.tasks, hw]
    simp only [WorkerPc.held, ← Multiset.coe_add, Multiset.coe_nil, add_zero]
  started := by simpa [hw, WorkerPc.entered] using h.started
  order := by simpa [hw, WorkerPc.held] using h.order
  active := by simpa [hw, WorkerPc.active] using h.active
  exited := by simp
  clients := by
    intro c
    apply (h.clients c).mono (List.Subset.refl _)
    intro x hx
    simp only [mem_append] at hx ⊢
    exact hx.imp_left .inl

theorem workerFinish (h : Inv s) (hw : s.worker = .finishing) : Inv s.workerFinish := by
  have hready : Inv { s with activeTasks := s.activeTasks - 1, worker := .ready } := by
    constructor
    case submissions => exact h.submissions
    case tasks => simpa [hw, WorkerPc.held] using h.tasks
    case started => simpa [hw, WorkerPc.entered] using h.started
    case order => simpa [hw, WorkerPc.held] using h.order
    case active =>
      have := h.active
      simp only [hw, WorkerPc.active] at this
      simp [this, WorkerPc.active]
    case returned => exact h.returned
    case exited => simp
    case drops => exact h.drops
    case clients => exact h.clients
  unfold State.workerFinish
  dsimp only
  split
  . exact hready.notifyAll
  . exact hready

section Clients

variable [DecidableEq ι]

omit [Fintype ι] in
theorem justified_update {clients : ι → ClientPc} (h : ∀ c, (clients c).Justified enqueued finished)
    (h1 : enqueued ⊆ enqueued') (h2 : finished ⊆ finished') (hpc : pc.Justified enqueued' finished')
    : ∀ c', (Function.update clients c pc c').Justified enqueued' finished' := by
  rw [Function.forall_update_iff clients (fun _ x => x.Justified enqueued' finished')]
  exact ⟨hpc, fun c' _ => (h c').mono h1 h2⟩

theorem setClient (h : Inv s) (huns : pc.unsettled = (s.clients c).unsettled)
    (hpc : pc.Justified s.enqueued (s.executed ++ s.evicted))
    : Inv (s.setClient c pc) where
  __ := h
  submissions := Submissions.update h.submissions huns
  clients := justified_update h.clients (List.Subset.refl _) (List.Subset.refl _) hpc

theorem call (h : Inv s) (hc : s.clients c = .idle)
    : Inv { s.setClient c (.addTask s.submitted) with submitted := s.submitted + 1 } where
  __ := h
  submissions := Submissions.call h.submissions (by rw [hc]; rfl) rfl
  clients := justified_update h.clients (List.Subset.refl _) (List.Subset.refl _) trivial

section Settle

variable (huns : (s.clients c).unsettled = {t})

include huns

theorem reject (h : Inv s) : Inv (s.reject c t) where
  __ := h
  submissions := by
    apply Submissions.settle h.submissions huns rfl
    simp only [State.reject, State.setClient, ← Multiset.coe_add, Multiset.coe_singleton]
    abel
  returned := by
    intro x hx
    cases mem_append.mp hx with
    | inl hx => exact (h.returned x hx).imp_right (Or.imp_right (mem_append_left [t]))
    | inr hx => exact .inr (.inr (mem_append_right _ hx))
  clients := justified_update h.clients (List.Subset.refl _) (List.Subset.refl _) trivial

theorem dropNewest (h : Inv s) : Inv (s.dropNewest c t) where
  __ := h
  submissions := by
    apply Submissions.settle h.submissions huns rfl
    simp only [State.dropNewest, State.setClient, ← Multiset.coe_add, Multiset.coe_singleton]
    abel
  returned := by
    intro x hx
    cases mem_append.mp hx with
    | inl hx => exact (h.returned x hx).imp_right (Or.imp_left (mem_append_left [t]))
    | inr hx => exact .inr (.inl (mem_append_right _ hx))
  drops := by
    intro hreset
    have := h.drops hreset
    simp only [State.dropNewest, State.setClient, length_append, length_singleton]
    omega
  clients := justified_update h.clients (List.Subset.refl _) (List.Subset.refl _) trivial

theorem pushBack (h : Inv s) (hstop : s.stopFlag = false) : Inv (s.pushBack c t) where
  __ := h
  submissions := by
    apply Submissions.settle h.submissions huns rfl
    simp only [State.pushBack, State.setClient, ← Multiset.coe_add, Multiset.coe_singleton]
    abel
  tasks := by
    simp only [State.pushBack, State.setClient, ← Multiset.coe_add, Multiset.coe_singleton]
    rw [← h.tasks]
    abel
  order := by
    simp only [State.pushBack, State.setClient]
    rw [← append_assoc]
    exact h.order.append (List.Sublist.refl [t])
  returned := by
    intro x hx
    exact (h.returned x hx).imp_left (mem_append_left [t])
  exited := by
    intro hexited
    have := h.exited hexited
    simp [hstop] at this
  clients := by
    apply justified_update h.clients (subset_append_left _ _) (List.Subset.refl _)
    simp [ClientPc.Justified]

end Settle

theorem notifyOne (h : Inv s) (hnotify : s.notifyOne target = some s') : Inv s' := by
  rcases State.notifyOne_cases hnotify with ⟨rfl, _⟩ | ⟨rfl, hw⟩ | ⟨c, rfl, _⟩
  . exact h
  . apply h.setWorker
    all_goals simp [hw, WorkerPc.held, WorkerPc.entered, WorkerPc.active]
  . exact h.setClient (by simp) (h.clients c).wake

end Clients
end Inv
end LogIt.DequeExecutor
