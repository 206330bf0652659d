import Mathlib.Algebra.Order.Group.Multiset
import Mathlib.Data.Multiset.Range
import Mathlib.Tactic.Abel
import LogIt.Cooperative.Impl.Executor

namespace LogIt.CooperativeExecutor

open List

open DequeExecutor (Variant)

inductive Transition (v : Variant) (s : State) : Action → State → Prop where
  | reject {t stack} (hstack : s.stack = .addTask t :: stack) (hrejects : s.rejects v = true)
    : Transition v s .advance { s with rejected := s.rejected ++ [t], stack := stack }
  | refuse {t stack} (hstack : s.stack = .addTask t :: stack)
      (hpolicy : s.overflowPolicy = .dropNewest)
    : Transition v s .advance (s.dropNewest stack t)
  | evict {t oldest stack rest}
      (hstack : s.stack = .addTask t :: stack) (hpolicy : s.overflowPolicy = .dropOldest)
      (htasks : s.tasks = oldest :: rest)
    : Transition v s .advance
        ({ s with
          tasks := rest
          droppedTasks := s.droppedTasks + 1
          evicted := s.evicted ++ [oldest] }.emplaceBack stack t)
  | block {t stack} (hstack : s.stack = .addTask t :: stack)
    : Transition v s .advance { s with stack := .drain :: .addDrain t :: stack }
  | accept {t stack} (hstack : s.stack = .addTask t :: stack)
    : Transition v s .advance (s.emplaceBack stack t)
  | retry {t stack} (hstack : s.stack = .addDrain t :: stack)
    : Transition v s .advance { s with stack := .addTask t :: stack }
  | schedule {t stack} (hstack : s.stack = .addSchedule t :: stack)
    : Transition v s .advance { s with callbacks := s.callbacks + 1, stack := stack }
  | drained {stack} (hstack : s.stack = .drain :: stack) (htasks : s.tasks = [])
    : Transition v s .advance { s with scheduled := false, stack := stack }
  | start {t stack rest} (hstack : s.stack = .drain :: stack) (htasks : s.tasks = t :: rest)
    : Transition v s .advance { s with tasks := rest, stack := .task t :: .drain :: stack }
  | finish {a t stack} (hstack : s.stack = .task t :: stack)
    : Transition v s a { s with stack := stack, executed := s.executed ++ [t] }
  | unwind {t stack} (hv : v = .taskExecutor) (hstack : s.stack = .task t :: stack)
    : Transition v s .taskThrow ({ s with executed := s.executed ++ [t] }.unwind stack)
  | callback {callbacks} (hstack : s.stack = []) (hcallbacks : s.callbacks = callbacks + 1)
    : Transition v s .callback { s with callbacks := callbacks, stack := [.drain] }
  | call : Transition v s (.addTask true)
      { s with stack := .addTask s.submitted :: s.stack, submitted := s.submitted + 1 }
  | drain {a shutdownRequested} : Transition v s a
        { s with shutdownRequested := shutdownRequested, stack := .drain :: s.stack }
  | configure {a maxQueueSize droppedTasks policy} : Transition v s a
        { s with
          maxQueueSize := maxQueueSize
          droppedTasks := droppedTasks
          overflowPolicy := policy }

variable {v : Variant} {s s' : State} {a : Action} {stack : List Frame} {t : Nat}

theorem Transition.of_addTask (hstack : s.stack = .addTask t :: stack)
    : Transition v s .advance (s.addTask v stack t) := by
  unfold State.addTask
  split
  . next hrejects => exact .reject hstack hrejects
  . split
    . next hfull =>
      split
      . next hpolicy => exact .refuse hstack hpolicy
      . next hpolicy =>
        -- The limit is positive, so a full queue has an oldest task.
        cases htasks : s.tasks with
        | nil =>
          have hpos := Nat.lt_of_lt_of_le hfull.1 hfull.2
          rw [htasks] at hpos
          contradiction
        | cons oldest rest =>
          have hdrop : s.dropOldest = { s with
              tasks := rest
              droppedTasks := s.droppedTasks + 1
              evicted := s.evicted ++ [oldest] } := by
            unfold State.dropOldest
            rw [htasks]
          rw [hdrop]
          exact .evict hstack hpolicy htasks
      . exact .block hstack
    . exact .accept hstack

theorem Transition.of_drain (hstack : s.stack = .drain :: stack)
    : Transition v s .advance (s.drain stack) := by
  unfold State.drain
  split
  . next htasks => exact .drained hstack htasks
  . next htasks => exact .start hstack htasks

theorem Transition.of_step (hstep : step v s a = some s') : Transition v s a s' := by
  cases a with simp only [step] at hstep
  | advance =>
    split at hstep
    . next hstack =>
      cases hstep
      exact .of_addTask hstack
    . next hstack =>
      cases hstep
      exact .retry hstack
    . next hstack =>
      cases hstep
      exact .schedule hstack
    . next hstack =>
      cases hstep
      exact .of_drain hstack
    . contradiction
    . contradiction
  | taskReturn =>
    split at hstep
    . next hstack =>
      cases hstep
      exact .finish hstack
    . contradiction
  | taskThrow =>
    split at hstep
    . next hstack =>
      cases hstep
      exact .unwind rfl hstack
    . next hstack =>
      cases hstep
      exact .finish hstack
    . contradiction
  | callback =>
    split at hstep
    . next hstack hcallbacks =>
      cases hstep
      exact .callback hstack hcallbacks
    . contradiction
  | addTask callable =>
    split at hstep
    . contradiction
    . split at hstep
      . next hcallable =>
        cases hstep
        rw [hcallable]
        exact .call
      . cases hstep
        exact .configure
  | _ =>
    repeat' split at hstep
    all_goals first
      | contradiction
      | (cases hstep
         first
           | exact .drain
           | exact .configure)

def Frame.drains (frame : Frame) : Bool :=
  match frame with
  | .drain | .addSchedule _ => true
  | _ => false

def State.Pending (s : State) : Prop :=
  0 < s.callbacks ∨ ∃ frame ∈ s.stack, frame.drains = true

instance (s : State) : Decidable s.Pending :=
  inferInstanceAs (Decidable (_ ∨ _))

structure Covered (s : State) : Prop where
  tasks : s.tasks ≠ [] → s.Pending
  scheduled : s.scheduled = true → s.Pending

def ThrowsCovered (v : Variant) (s : State) (a : Action) : Prop :=
  match a, v, s.stack with
  | .taskThrow, .taskExecutor, .task _ :: stack =>
    (s.unwind stack).abandoned = s.abandoned ∧
      ((s.unwind stack).Pending ∨ s.tasks = [] ∧ s.scheduled = false)
  | _, _, _ => True

instance (v : Variant) (s : State) (a : Action) : Decidable (ThrowsCovered v s a) := by
  unfold ThrowsCovered
  split <;> infer_instance

theorem State.Pending.mono (h : s.Pending) (hcallbacks : s.callbacks ≤ s'.callbacks)
    (hstack : ∀ frame ∈ s.stack, frame.drains = true → frame ∈ s'.stack)
    : s'.Pending := by
  cases h with
  | inl hpos => exact .inl (Nat.lt_of_lt_of_le hpos hcallbacks)
  | inr hframe =>
    obtain ⟨frame, hframe, hdrains⟩ := hframe
    exact .inr ⟨frame, hstack frame hframe hdrains, hdrains⟩

theorem State.Pending.pop (h : s.Pending) (hstack : s.stack = frame :: stack)
    (hdrains : frame.drains = false) (hcallbacks : s.callbacks ≤ s'.callbacks)
    (hstack' : stack ⊆ s'.stack)
    : s'.Pending := by
  apply h.mono hcallbacks
  intro frame' hframe' hdrains'
  rw [hstack] at hframe'
  cases mem_cons.mp hframe' with
  | inl heq =>
    rw [heq, hdrains] at hdrains'
    contradiction
  | inr hrest => exact hstack' hrest

theorem State.pending_of_mem (hframe : frame ∈ s.stack) (hdrains : frame.drains = true)
    : s.Pending :=
  .inr ⟨frame, hframe, hdrains⟩

theorem unwind_executed
    : { s with executed := executed }.unwind stack
      = { s.unwind stack with executed := executed } := by
  unfold State.unwind
  split <;> rfl

theorem unwind_eq
    : s.unwind stack
      = { s with stack := (s.unwind stack).stack, abandoned := (s.unwind stack).abandoned } := by
  unfold State.unwind
  split <;> rfl

theorem Covered.of_pending (h : s.Pending) : Covered s where
  tasks _ := h
  scheduled _ := h

theorem Covered.of_idle (htasks : s.tasks = []) (hscheduled : s.scheduled = false)
    : Covered s := by
  refine ⟨fun hne => absurd htasks hne, ?_⟩
  rw [hscheduled]
  intro htrue
  contradiction

theorem Covered.mono (h : Covered s) (htasks : s'.tasks = s.tasks)
    (hscheduled : s'.scheduled = s.scheduled) (hpending : s.Pending → s'.Pending)
    : Covered s' where
  tasks := by
    rw [htasks]
    exact hpending ∘ h.tasks
  scheduled := by
    rw [hscheduled]
    exact hpending ∘ h.scheduled

theorem pending_emplaceBack (h : s.scheduled = true → { s with stack := stack }.Pending)
    : (s.emplaceBack stack t).Pending := by
  unfold State.emplaceBack
  by_cases hscheduled : s.scheduled = true
  . rw [if_pos hscheduled]
    exact h hscheduled
  . rw [if_neg hscheduled]
    exact State.pending_of_mem mem_cons_self rfl

theorem Covered.pop (h : Covered s) (hstack : s.stack = frame :: stack)
    (hdrains : frame.drains = false) (htasks : s'.tasks = s.tasks)
    (hscheduled : s'.scheduled = s.scheduled) (hcallbacks : s.callbacks ≤ s'.callbacks)
    (hstack' : stack ⊆ s'.stack)
    : Covered s' :=
  h.mono htasks hscheduled (fun hpending => hpending.pop hstack hdrains hcallbacks hstack')

theorem Covered.step (h : Covered s) (hok : ThrowsCovered v s a) (htrans : Transition v s a s')
    : Covered s' := by
  cases htrans with
  | reject hstack | refuse hstack | finish hstack =>
    exact h.pop hstack rfl rfl rfl (Nat.le_refl _) (List.Subset.refl _)
  | evict hstack | accept hstack =>
    apply Covered.of_pending
    apply pending_emplaceBack
    intro hscheduled
    exact (h.scheduled hscheduled).pop hstack rfl (Nat.le_refl _) (List.Subset.refl _)
  | block | callback | drain =>
    apply Covered.of_pending
    exact State.pending_of_mem mem_cons_self rfl
  | retry hstack => exact h.pop hstack rfl rfl rfl (Nat.le_refl _) (subset_cons_self _ _)
  | schedule =>
    apply Covered.of_pending
    exact .inl (Nat.succ_pos _)
  | drained _ htasks => exact .of_idle htasks rfl
  | start =>
    apply Covered.of_pending
    exact State.pending_of_mem (mem_cons_of_mem _ mem_cons_self) rfl
  | unwind hv hstack =>
    rw [hv] at hok
    simp only [ThrowsCovered, hstack] at hok
    rw [unwind_executed]
    cases hok.2 with
    | inl hpending => exact .of_pending hpending
    | inr hidle =>
      rw [unwind_eq]
      exact .of_idle hidle.1 hidle.2
  | call =>
    refine h.mono rfl rfl ?_
    intro hpending
    exact hpending.mono (Nat.le_refl _) (fun _ hframe _ => mem_cons_of_mem _ hframe)
  | configure => exact ⟨h.tasks, h.scheduled⟩

theorem reachable_covered (reach : (system v).ReachableVia (ThrowsCovered v) s) : Covered s := by
  apply reach.invariant Covered
  . exact .of_idle rfl rfl
  . intro s a s' _ hinv hok hstep
    exact hinv.step hok (.of_step hstep)

def Frame.holds (frame : Frame) : Option Nat :=
  match frame with
  | .addTask t | .addDrain t | .task t => some t
  | .addSchedule _ | .drain => none

def State.places (s : State) : Multiset Nat :=
  s.tasks + s.executed + s.stack.filterMap Frame.holds +
    (s.refused + s.evicted + s.rejected + s.abandoned)

theorem places_emplaceBack
    : (s.emplaceBack stack t).places = { s with stack := stack }.places + {t} := by
  have hstack : (s.emplaceBack stack t).stack.filterMap Frame.holds
      = stack.filterMap Frame.holds := by
    unfold State.emplaceBack
    split <;> rfl
  unfold State.places
  rw [hstack]
  simp only [State.emplaceBack, ← Multiset.coe_add, Multiset.coe_singleton]
  abel

theorem places_unwind : (s.unwind stack).places = { s with stack := stack }.places := by
  unfold State.unwind
  split
  . simp only [State.places, filterMap_cons, Frame.holds, ← Multiset.coe_add,
      ← Multiset.cons_coe, ← Multiset.singleton_add]
    abel
  . rfl
  . rfl

theorem places_step (htrans : Transition v s a s') (h : s.places = Multiset.range s.submitted)
    : s'.places = Multiset.range s'.submitted := by
  have hpop {frame : Frame} {stack : List Frame} {t : Nat} (hstack : s.stack = frame :: stack)
      (hholds : frame.holds = some t) : s.places = { s with stack := stack }.places + {t} := by
    unfold State.places
    rw [hstack, filterMap_cons, hholds]
    simp only [← Multiset.cons_coe, ← Multiset.singleton_add]
    abel
  cases htrans with
  | @reject t stack hstack | @finish _ t stack hstack =>
    rw [← h, hpop hstack rfl]
    simp only [State.places, ← Multiset.coe_add, Multiset.coe_singleton]
    abel
  | @refuse t stack hstack =>
    show _ = Multiset.range s.submitted
    rw [← h, hpop hstack rfl]
    simp only [State.places, State.dropNewest, ← Multiset.coe_add, Multiset.coe_singleton]
    abel
  | @evict t oldest stack rest hstack _ htasks =>
    show _ = Multiset.range s.submitted
    rw [places_emplaceBack, ← h, hpop hstack rfl]
    simp only [State.places, htasks, ← Multiset.cons_coe, ← Multiset.singleton_add,
      ← Multiset.coe_add]
    abel
  | @block t stack hstack | @retry t stack hstack | @schedule t stack hstack
  | @drained stack hstack htasks =>
    rw [← h]
    simp only [State.places, hstack, filterMap_cons, Frame.holds]
  | @accept t stack hstack =>
    show _ = Multiset.range s.submitted
    rw [places_emplaceBack, ← h, hpop hstack rfl]
  | @start t stack rest hstack htasks =>
    rw [← h]
    simp only [State.places, hstack, htasks, filterMap_cons, Frame.holds, ← Multiset.cons_coe,
      ← Multiset.singleton_add]
    abel
  | @unwind t stack _ hstack =>
    have hsubmitted : ({ s with executed := s.executed ++ [t] }.unwind stack).submitted
        = s.submitted := by rw [unwind_eq]
    rw [hsubmitted, places_unwind, ← h, hpop hstack rfl]
    simp only [State.places, ← Multiset.coe_add, Multiset.coe_singleton]
    abel
  | callback hstack =>
    rw [← h]
    simp only [State.places, hstack, filterMap_cons, filterMap_nil, Frame.holds]
  | call =>
    show _ = Multiset.range (s.submitted + 1)
    rw [Multiset.range_succ, ← h, ← Multiset.singleton_add]
    simp only [State.places, filterMap_cons, Frame.holds, ← Multiset.cons_coe,
      ← Multiset.singleton_add]
    abel
  | drain =>
    rw [← h]
    simp only [State.places, filterMap_cons, Frame.holds]
  | configure => exact h

theorem reachable_places (reach : (system v).Reachable s)
    : s.places = Multiset.range s.submitted := by
  apply reach.invariant (fun s => s.places = Multiset.range s.submitted)
  . rfl
  . intro s a s' _ hinv hstep
    exact places_step (.of_step hstep) hinv

structure NoLoss (v : Variant) (s s' : State) : Prop where
  refused : s.overflowPolicy = .block → s'.refused = s.refused
  evicted : s.overflowPolicy = .block → s'.evicted = s.evicted
  rejected : s.rejects v = false → s'.rejected = s.rejected
  abandoned : s'.abandoned = s.abandoned

theorem noLoss_step (hok : ThrowsCovered v s a) (htrans : Transition v s a s')
    : NoLoss v s s' := by
  have hsame {s' : State} (hrefused : s'.refused = s.refused) (hevicted : s'.evicted = s.evicted)
      (hrejected : s'.rejected = s.rejected) (habandoned : s'.abandoned = s.abandoned)
      : NoLoss v s s' :=
    ⟨fun _ => hrefused, fun _ => hevicted, fun _ => hrejected, habandoned⟩
  cases htrans with
  | reject _ hrejects =>
    refine ⟨fun _ => rfl, fun _ => rfl, ?_, rfl⟩
    rw [hrejects]
    intro hfalse
    contradiction
  | refuse _ hpolicy =>
    refine ⟨?_, fun _ => rfl, fun _ => rfl, rfl⟩
    rw [hpolicy]
    intro hblock
    contradiction
  | evict _ hpolicy =>
    refine ⟨fun _ => rfl, ?_, fun _ => rfl, rfl⟩
    rw [hpolicy]
    intro hblock
    contradiction
  | @unwind t stack hv hstack =>
    rw [hv] at hok
    simp only [ThrowsCovered, hstack] at hok
    rw [unwind_executed, unwind_eq]
    exact hsame rfl rfl rfl hok.1
  | _ => exact hsame rfl rfl rfl rfl

theorem work_never_stranded (v : Variant)
    : (∀ s, (system v).ReachableVia (ThrowsCovered v) s →
        (s.stack = [] → s.tasks ≠ [] → 0 < s.callbacks) ∧
        s.places = Multiset.range s.submitted) ∧
      (system v).StepsVia (ThrowsCovered v) (NoLoss v) := by
  refine ⟨?_, ?_⟩
  . intro s reach
    refine ⟨?_, reachable_places reach.reachable⟩
    intro hstack htasks
    cases (reachable_covered reach).tasks htasks with
    | inl hpos => exact hpos
    | inr hframe =>
      rw [hstack] at hframe
      obtain ⟨frame, hframe, _⟩ := hframe
      contradiction
  . intro s a s' _ hok hstep
    exact noLoss_step hok (.of_step hstep)

theorem work_never_stranded_wait
    : ∃ s, ((system .taskExecutor).ReachableVia (ThrowsCovered .taskExecutor) s ∧
        s.stack = [] ∧ s.tasks = [1]) ∧ 0 < s.callbacks := by
  have hrun : ∃ s, (system .taskExecutor).ReachableVia (ThrowsCovered .taskExecutor) s ∧
      s.stack = [] ∧ s.tasks = [1] := by
    apply Lts.exists_reachableVia _ _
      [.addTask true, .advance, .advance, .addTask true, .advance, .wait, .advance, .taskThrow]
    decide
  obtain ⟨s, reach, hstack, htasks⟩ := hrun
  refine ⟨s, ⟨reach, hstack, htasks⟩, ?_⟩
  apply ((work_never_stranded .taskExecutor).1 s reach).1 hstack
  rw [htasks]
  exact nofun

theorem throwing_task_strands_work
    : (∃ s, (system .taskExecutor).Reachable s ∧
        s.stack = [] ∧ s.tasks = [1] ∧ s.callbacks = 0 ∧ s.scheduled = true) ∧
      ∃ s, (system .taskExecutor).Reachable s ∧
        s.overflowPolicy = .block ∧ s.stack = [] ∧ s.tasks = [] ∧ s.abandoned = [1] := by
  refine ⟨?_, ?_⟩
  . apply Lts.exists_reachable (system .taskExecutor)
      [.addTask true, .advance, .advance, .addTask true, .advance, .callback, .advance, .taskThrow]
    decide
  . apply Lts.exists_reachable (system .taskExecutor)
      [.setMaxQueueSize 1, .addTask true, .advance, .advance, .addTask true, .advance, .advance,
        .taskThrow]
    decide

end LogIt.CooperativeExecutor
