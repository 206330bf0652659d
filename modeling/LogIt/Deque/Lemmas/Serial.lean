import LogIt.Deque.Lemmas.Conservation
import LogIt.Lib.SerialExecutor

namespace LogIt.DequeExecutor

open Multiset Option SerialExecutor Function

variable {ι μ : Type} {author : Nat → Option μ}

def ClientPc.phase (author : Nat → Option μ) (pc : ClientPc) : Phase μ :=
  match pc with
  | .idle => .idle
  | .addTask t | .addParked t | .addWoken t => .sending (author t)
  | .wait _ | .waitParked _ | .waitWoken _ => .waiting
  | .shutdownNotify false | .shutdownJoin false => .closing
  | _ => .leaving

def State.view (author : Nat → Option μ) (s : State ι) : View ι μ where
  pending := (s.worker.held ++ s.tasksQueue).filterMap author
  phase c := (s.clients c).phase author
  stopped := s.stopFlag

theorem ClientPc.phase_wake (pc : ClientPc) : pc.wake.phase author = pc.phase author := by
  cases pc with
  | _ => rfl

theorem ClientPc.phase_congr {author' : Nat → Option μ} {pc : ClientPc}
    (h : ∀ t ∈ pc.unsettled, author t = author' t)
    : pc.phase author = pc.phase author' := by
  cases pc with
  | addTask t | addParked t | addWoken t =>
    exact congrArg Phase.sending (h t (mem_singleton_self t))
  | shutdownNotify onWorker | shutdownJoin onWorker => cases onWorker <;> rfl
  | _ => rfl

theorem ClientPc.phase_eq_idle {pc : ClientPc} : pc.phase author = .idle ↔ pc = .idle := by
  cases pc with
  | shutdownNotify onWorker | shutdownJoin onWorker => cases onWorker <;> simp [phase]
  | _ => simp [phase]

theorem State.view_notifyAll (s : State ι) : s.notifyAll.view author = s.view author := by
  unfold view notifyAll
  simp only [WorkerPc.held_wake, ClientPc.phase_wake]

variable [DecidableEq ι] {v : Variant} {s s' : State ι}

theorem State.view_setClient (s : State ι) (c : ι) (pc : ClientPc)
    : (s.setClient c pc).view author = (s.view author).setPhase c (pc.phase author) := by
  unfold view setClient View.setPhase
  simp only [View.mk.injEq, true_and, and_true]
  exact comp_update (ClientPc.phase author) s.clients c pc

theorem State.view_notifyOne [Fintype ι] (h : s.notifyOne target = some s')
    : s'.view author = s.view author := by
  rcases State.notifyOne_cases h with ⟨rfl, _⟩ | ⟨rfl, hparked⟩ | ⟨c, rfl, _⟩
  . rfl
  . unfold view
    rw [hparked]
    rfl
  . rw [view_setClient]
    exact View.setPhase_eq_self (ClientPc.phase_wake _).symm

section Author

variable [Fintype ι]

omit [DecidableEq ι] in
theorem Inv.lt_submitted (h : Inv s) (ht : t ∈ s.worker.held ++ s.tasksQueue)
    : t < s.submitted := by
  have hmem : t ∈ (s.enqueued : Multiset Nat) := by
    rw [← h.tasks]
    simp only [List.mem_append] at ht
    simp only [mem_add, mem_coe]
    tauto
  rw [← mem_range, ← h.submissions]
  simp only [mem_add]
  tauto

omit [DecidableEq ι] in
theorem Inv.unsettled_lt_submitted (h : Inv s) (ht : t ∈ (s.clients c).unsettled)
    : t < s.submitted := by
  rw [← mem_range, ← h.submissions]
  apply mem_add.mpr
  right
  exact mem_of_le (Finset.single_le_sum (fun _ _ => zero_le _) (Finset.mem_univ c)) ht

omit [DecidableEq ι] in
theorem State.view_update (h : Inv s) (m : Option μ)
    : s.view (update author s.submitted m) = s.view author := by
  have hother {t : Nat} (ht : t < s.submitted)
      : update author s.submitted m t = author t :=
    update_of_ne (Nat.ne_of_lt ht) m author
  unfold view
  simp only [View.mk.injEq, and_true]
  constructor
  . apply List.filterMap_congr
    intro t ht
    exact hother (h.lt_submitted ht)
  . funext c
    apply ClientPc.phase_congr
    intro t ht
    exact hother (h.unsettled_lt_submitted ht)

end Author

section Step

variable {a : Action ι} {c : ι} {t : Nat}

theorem State.view_pushBack (s : State ι) (c : ι) (t : Nat)
    : (s.pushBack c t).view author
        = { (s.view author).setPhase c .leaving with
            pending := (s.view author).pending ++ (author t).toList } := by
  unfold pushBack view
  simp only [View.mk.injEq]
  refine ⟨?_, ?_, rfl⟩
  . rw [← List.append_assoc, List.filterMap_append]
    cases hauthor : author t with
    | some m | none => simp [hauthor, setClient]
  . exact congrArg View.phase (view_setClient s c (.addNotify t))

theorem reject_view (hc : (s.view author).phase c = .sending (author t)) (hstop : s.stopFlag = true)
    : View.Step (s.view author) none ((s.reject c t).view author) := by
  have hreject : (s.reject c t).view author = (s.view author).setPhase c .idle :=
    State.view_setClient s c .idle
  rw [hreject]
  exact .reject hc hstop

theorem waitForRoom_view (hc : (s.view author).phase c = .sending (author t))
    : View.Step (s.view author) none ((s.waitForRoom v c t).view author) := by
  unfold State.waitForRoom
  by_cases hroom : s.hasRoom v = true
  . rw [if_pos hroom]
    by_cases hstop : s.stopFlag = true
    . rw [if_pos hstop]
      exact reject_view hc hstop
    . rw [if_neg hstop, State.view_pushBack]
      exact .enqueue hc
  . rw [if_neg hroom]
    have hpark : (s.setClient c (.addParked t)).view author = s.view author := by
      rw [State.view_setClient]
      exact View.setPhase_eq_self hc
    rw [hpark]
    exact .quiet

theorem addTask_view (hblock : s.overflowPolicy = .block)
    (hc : (s.view author).phase c = .sending (author t))
    : View.Step (s.view author) none ((s.addTask v c t).view author) := by
  unfold State.addTask
  by_cases hstop : s.stopFlag = true
  . rw [if_pos hstop]
    exact reject_view hc hstop
  . rw [if_neg hstop, hblock]
    by_cases hfull : 0 < s.maxQueueSize ∧ s.maxQueueSize ≤ s.tasksQueue.length
    . rw [if_pos hfull]
      exact waitForRoom_view hc
    . rw [if_neg hfull, State.view_pushBack]
      exact .enqueue hc

variable [Fintype ι]

theorem addLock_view (hblock : s.overflowPolicy = .block) (hstep : step v s (.addLock c) = some s')
    : View.Step (s.view author) none (s'.view author) := by
  have hphase : (s.view author).phase c = (s.clients c).phase author := rfl
  simp only [step] at hstep
  split at hstep
  . next t hc =>
    rw [hc] at hphase
    rw [← some.inj hstep]
    exact addTask_view hblock hphase
  . next t hc =>
    rw [hc] at hphase
    rw [← some.inj hstep]
    exact waitForRoom_view hphase
  . contradiction

omit [DecidableEq ι] in
theorem Inv.pending_of_exited (h : Inv s) (hw : s.worker = .exited)
    : (s.view author).pending = [] := by
  unfold State.view
  rw [hw, (h.exited hw).1]
  rfl

omit [DecidableEq ι] in
theorem Inv.pending_of_drained (h : Inv s) (hstop : v = .taskExecutor → s.stopFlag = false)
    (hdrained : s.drained v = true)
    : (s.view author).pending = [] := by
  have hidle : s.tasksQueue = [] ∧ s.activeTasks = 0 := by
    cases v with
    | taskExecutor => simpa [State.drained, hstop rfl] using hdrained
    | singleThreadExecutor => simpa [State.drained] using hdrained
  have hactive := h.active
  rw [hidle.2] at hactive
  unfold State.view
  rw [hidle.1]
  cases hw : s.worker with
  | popNotify t | running t => simp [hw, WorkerPc.active] at hactive
  | _ => rfl

theorem shutdownJoin_view (hinv : Inv s) (hstep : step v s (.shutdownJoin c) = some s')
    : View.Step (s.view author) none (s'.view author) := by
  simp only [step] at hstep
  cases hc : s.clients c with
  | shutdownJoin onWorker =>
    have hphase : (s.view author).phase c = (ClientPc.shutdownJoin onWorker).phase author :=
      congrArg (ClientPc.phase author) hc
    rw [hc] at hstep
    dsimp only at hstep
    obtain ⟨hjoin, hstep⟩ := ite_none_right_eq_some.mp hstep
    have hview : s'.view author = (s.view author).setPhase c .idle := by
      rw [← some.inj hstep]
      exact State.view_setClient s c .idle
    rw [hview]
    cases onWorker with
    | true => exact .leave hphase
    | false => exact .closed hphase (hinv.pending_of_exited (by simpa using hjoin))
  | _ =>
    rw [hc] at hstep
    contradiction

theorem workerRun_view (hstep : step v s .workerRun = some s')
    : View.Step (s.view author) (s.output author .workerRun) (s'.view author) := by
  simp only [step] at hstep
  split at hstep
  . next t hw =>
    rw [← some.inj hstep]
    unfold State.output
    rw [hw]
    apply View.Step.run
    unfold State.view
    rw [hw]
    cases hauthor : author t with
    | some m | none => simp [WorkerPc.held, hauthor]
  . contradiction

theorem step_view (hinv : Inv s) (hblock : s.overflowPolicy = .block)
    (hstop : v = .taskExecutor → s.stopFlag = false) (hcalls : a.calls = false)
    (hstep : step v s a = some s')
    : View.Step (s.view author) (s.output author a) (s'.view author) := by
  have hquiet (h : s'.view author = s.view author)
      : View.Step (s.view author) none (s'.view author) := by
    rw [h]
    exact .quiet
  have hphase {c : ι} {pc : ClientPc} (hc : s.clients c = pc)
      : (s.view author).phase c = pc.phase author :=
    congrArg (ClientPc.phase author) hc
  have hwaiting {c : ι} {before : List Nat}
      (hc : s.clients c = .wait before ∨ s.clients c = .waitWoken before)
      : (s.view author).phase c = .waiting :=
    hc.elim hphase hphase
  cases Transition.of_step hstep with
  | skip =>
    cases a with
    | workerRun => exact workerRun_view hstep
    | _ => exact .quiet
  | call | wait | setLimit | setLimitNotify | shutdown | shutdownAgain => contradiction
  | reject | dropNewest | dropOldest | push | parkProducer => exact addLock_view hblock hstep
  | @addNotify c _ _ _ hc hnotify =>
    have hview : s'.view author = (s.view author).setPhase c .idle :=
      (State.view_notifyOne hnotify).trans (State.view_setClient s c .idle)
    rw [hview]
    exact .leave (hphase hc)
  | waitDone hc hdrained =>
    rw [State.view_setClient]
    exact .waited (hwaiting hc) (hinv.pending_of_drained hstop hdrained)
  | parkWaiter hc =>
    apply hquiet
    rw [State.view_setClient]
    exact View.setPhase_eq_self (hwaiting hc)
  | waitReturn hc =>
    rw [State.view_setClient]
    exact .leave (hphase hc)
  | limitNotify hc =>
    rw [State.view_notifyAll, State.view_setClient]
    exact .leave (hphase hc)
  | setPolicy | resetDrops => exact .quiet
  | @shutdownNotify _ onWorker hc =>
    apply hquiet
    rw [State.view_notifyAll, State.view_setClient]
    apply View.setPhase_eq_self
    rw [hphase hc]
    cases onWorker <;> rfl
  | shutdownJoin => exact shutdownJoin_view hinv hstep
  | exit hw | parkWorker hw =>
    apply hquiet
    unfold State.view
    rw [(WorkerPc.between hw).1]
    rfl
  | pop hw hqueue =>
    apply hquiet
    unfold State.view
    rw [(WorkerPc.between hw).1, hqueue]
    rfl
  | notifyOne hv hw hnotify =>
    apply hquiet
    rw [State.view_notifyOne hnotify]
    unfold State.view
    rw [hw]
    rfl
  | notifyAll hv hw =>
    apply hquiet
    rw [State.view_notifyAll]
    unfold State.view
    rw [hw]
    rfl
  | run => exact workerRun_view hstep
  | finish hw =>
    have hview : { s with activeTasks := s.activeTasks - 1, worker := .ready }.view author
        = s.view author := by
      unfold State.view
      rw [hw]
      rfl
    apply hquiet
    unfold State.workerFinish
    dsimp only
    split
    . rw [State.view_notifyAll]
      exact hview
    . exact hview
  | spurious hnotify => exact hquiet (State.view_notifyOne hnotify)

end Step

section Calls

variable [Fintype ι] {a : Action ι} {c : ι}

def Action.keepsAll (v : Variant) (a : Action ι) : Bool :=
  match a with
  | .setQueuePolicy policy => decide (policy = .block)
  | .shutdown _ _ => decide (v = .singleThreadExecutor)
  | _ => true

structure Serial (v : Variant) (author : Nat → Option μ) (s : State ι) : Prop where
  inv : Inv s
  policy : s.overflowPolicy = .block
  running : v = .taskExecutor → s.stopFlag = false
  author : ∀ t, s.submitted ≤ t → author t = none

omit [DecidableEq ι] in
theorem Serial.init (capacity : Nat)
    : Serial v (fun _ => (none : Option μ))
        ({ DequeExecutor.init with maxQueueSize := capacity } : State ι) where
  inv := Inv.init.configure capacity .block false false false (fun h => h)
  policy := rfl
  running _ := rfl
  author _ _ := rfl

theorem State.notifyOne_settings {r : State ι} {target : Target ι} (h : r.notifyOne target = some s')
    : s'.overflowPolicy = r.overflowPolicy ∧ s'.stopFlag = r.stopFlag ∧
      s'.submitted = r.submitted := by
  rcases State.notifyOne_cases h with ⟨rfl, _⟩ | ⟨rfl, _⟩ | ⟨c, rfl, _⟩
  . exact ⟨rfl, rfl, rfl⟩
  . exact ⟨rfl, rfl, rfl⟩
  . exact ⟨rfl, rfl, rfl⟩

theorem Transition.settings (h : Transition v s a s') (ha : a.keepsAll v = true)
    (hpolicy : s.overflowPolicy = .block)
    : s'.overflowPolicy = .block ∧ (v = .taskExecutor → s'.stopFlag = s.stopFlag) ∧
      s.submitted ≤ s'.submitted := by
  have hnotified {r : State ι} {target : Target ι} (hnotify : r.notifyOne target = some s')
      (hr : r.overflowPolicy = s.overflowPolicy) (hstop : r.stopFlag = s.stopFlag)
      (hsubmitted : r.submitted = s.submitted)
      : s'.overflowPolicy = .block ∧ (v = .taskExecutor → s'.stopFlag = s.stopFlag) ∧
        s.submitted ≤ s'.submitted := by
    obtain ⟨h1, h2, h3⟩ := State.notifyOne_settings hnotify
    refine ⟨(h1.trans hr).trans hpolicy, fun _ => h2.trans hstop, ?_⟩
    rw [h3, hsubmitted]
  cases h with
  | call => exact ⟨hpolicy, fun _ => rfl, Nat.le_succ _⟩
  | dropOldest _ hqueue =>
    have hs : s.dropOldest = { s with
        tasksQueue := s.tasksQueue.tail
        droppedTasks := s.droppedTasks + 1
        evicted := s.evicted ++ [s.tasksQueue.headI] } := by
      simp only [State.dropOldest, hqueue]
      rfl
    rw [hs]
    exact ⟨hpolicy, fun _ => rfl, Nat.le_refl _⟩
  | addNotify _ hnotify | notifyOne _ _ hnotify | spurious hnotify =>
    exact hnotified hnotify rfl rfl rfl
  | setPolicy => exact ⟨of_decide_eq_true ha, fun _ => rfl, Nat.le_refl _⟩
  | shutdown =>
    refine ⟨hpolicy, ?_, Nat.le_refl _⟩
    intro hv
    rw [hv] at ha
    contradiction
  | finish =>
    unfold State.workerFinish
    dsimp only
    split
    . exact ⟨hpolicy, fun _ => rfl, Nat.le_refl _⟩
    . exact ⟨hpolicy, fun _ => rfl, Nat.le_refl _⟩
  | _ => exact ⟨hpolicy, fun _ => rfl, Nat.le_refl _⟩

theorem Serial.step (h : Serial v author s) (ha : a.keepsAll v = true)
    (hstep : DequeExecutor.step v s a = some s')
    : Serial v author s' := by
  have htransition := Transition.of_step hstep
  obtain ⟨hpolicy, hstop, hsubmitted⟩ := htransition.settings ha h.policy
  constructor
  . exact h.inv.step htransition
  . exact hpolicy
  . intro hv
    rw [hstop hv]
    exact h.running hv
  . intro t ht
    exact h.author t (hsubmitted.trans ht)

theorem idle_of_call (hcalls : a.calls = true) (hclient : a.client = some c)
    (hstep : step v s a = some s')
    : s.clients c = .idle := by
  cases a with simp only [step] at hstep
  | addTask c' callable =>
    cases hclient
    split at hstep
    . next hc => exact hc
    . next hc => exact hc
    . contradiction
  | wait c' =>
    cases hclient
    split at hstep
    . next hc => exact hc
    . contradiction
  | setMaxQueueSize c' size =>
    cases hclient
    split at hstep
    . contradiction
    . next hidle => simpa using (not_or.mp hidle).2
  | shutdown c' onWorker =>
    cases hclient
    split at hstep
    . contradiction
    . next hidle => simpa using (not_or.mp (not_or.mp hidle).2).1
  | _ => contradiction

theorem step_addTask (hc : s.clients c = .idle) (hstep : step v s (.addTask c true) = some s')
    : s' = { s.setClient c (.addTask s.submitted) with submitted := s.submitted + 1 } := by
  simp only [step, hc] at hstep
  exact (some.inj hstep).symm

theorem step_wait (hc : s.clients c = .idle) (hstep : step v s (.wait c) = some s')
    : s' = s.setClient c (.wait s.enqueued) := by
  simp only [step, hc] at hstep
  exact (some.inj hstep).symm

theorem step_shutdown (hstep : step v s (.shutdown c onWorker) = some s')
    : s' = s.shutdown v c onWorker := by
  simp only [step] at hstep
  split at hstep
  . contradiction
  . exact (some.inj hstep).symm

theorem Serial.send (h : Serial v author s) (m : Option μ)
    (hstep : DequeExecutor.step v s (.addTask c true) = some s')
    : Serial v (update author s.submitted m) s' ∧
      s'.view (update author s.submitted m)
        = (s.view author).setPhase c (.sending m) := by
  have hserial := h.step rfl hstep
  have hs' := step_addTask (idle_of_call rfl rfl hstep) hstep
  constructor
  . refine ⟨hserial.inv, hserial.policy, hserial.running, ?_⟩
    intro t ht
    rw [hs'] at ht
    have ht : s.submitted + 1 ≤ t := ht
    rw [update_of_ne (by omega)]
    exact h.author t (by omega)
  . have hphase : (ClientPc.addTask s.submitted).phase (update author s.submitted m)
        = .sending m := by
      change Phase.sending (update author s.submitted m s.submitted) = _
      rw [update_self]
    rw [hs', ← State.view_update h.inv m, ← hphase]
    exact State.view_setClient s c (.addTask s.submitted)

theorem wait_view (hstep : step v s (.wait c) = some s')
    : s'.view author = (s.view author).setPhase c .waiting := by
  rw [step_wait (idle_of_call rfl rfl hstep) hstep]
  exact State.view_setClient s c _

theorem shutdown_view (hstep : step v s (.shutdown c false) = some s')
    : s'.view author = { (s.view author).setPhase c .closing with stopped := s'.stopFlag } := by
  have hclosing (pc : ClientPc) (hpc : pc.phase author = .closing)
      : (s.setClient c pc).view author = (s.view author).setPhase c .closing := by
    rw [← hpc]
    exact State.view_setClient s c pc
  have hnotify := hclosing (.shutdownNotify false) rfl
  have hjoin := hclosing (.shutdownJoin false) rfl
  rw [step_shutdown hstep]
  unfold State.shutdown
  cases v with
  | taskExecutor => exact congrArg (fun w : View ι μ => { w with stopped := true }) hnotify
  | singleThreadExecutor =>
    dsimp only
    split
    . exact hjoin
    . exact congrArg (fun w : View ι μ => { w with stopped := true }) hnotify

theorem Serial.call (h : Serial v author s) (hcalls : a.calls = true)
    (hshutdown : ∀ c onWorker, a ≠ .shutdown c onWorker) (hstep : DequeExecutor.step v s a = some s')
    : ∃ c p, a.client = some c ∧ (∀ m, p ≠ .sending (some m)) ∧
      s'.view author = (s.view author).setPhase c p := by
  have hphase {c : ι} (hc : s.clients c = .idle)
      : s.view author = (s.view author).setPhase c .idle :=
    (View.setPhase_eq_self (congrArg (ClientPc.phase author) hc)).symm
  cases a with
  | addTask c callable =>
    have hc := idle_of_call rfl rfl hstep
    cases callable with
    | true =>
      rw [step_addTask hc hstep]
      refine ⟨c, .sending (author s.submitted), rfl, ?_, State.view_setClient s c (.addTask s.submitted)⟩
      rw [h.author s.submitted (Nat.le_refl _)]
      simp
    | false =>
      simp only [DequeExecutor.step, hc] at hstep
      rw [← some.inj hstep]
      exact ⟨c, .idle, rfl, by simp, hphase hc⟩
  | wait c => exact ⟨c, .waiting, rfl, by simp, wait_view hstep⟩
  | setMaxQueueSize c size =>
    have hc := idle_of_call rfl rfl hstep
    cases Transition.of_step hstep with
    | skip | setLimit => exact ⟨c, .idle, rfl, by simp, hphase hc⟩
    | setLimitNotify => exact ⟨c, .leaving, rfl, by simp, State.view_setClient s c .limitNotify⟩
  | shutdown c onWorker => exact absurd rfl (hshutdown c onWorker)
  | _ => contradiction

end Calls
end LogIt.DequeExecutor
