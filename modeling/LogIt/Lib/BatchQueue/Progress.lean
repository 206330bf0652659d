import Mathlib.Data.Prod.Lex
import Mathlib.Order.WithBot
import LogIt.Lib.BatchQueue.Transition

/-!
This module contains the progress of a batch queue.
-/

namespace BatchQueue

open List

variable {ι ε ω χ ξ : Type} [DecidableEq ι]

def Fair {sys : Lts (State ι ε ω) (Action ι χ ξ)} (run : sys.Run) : Prop :=
  ∀ n, ∃ m, n ≤ m ∧ ((run.state m).worker = .exited ∨ (run.state m).worker = .terminated ∨
    ∃ x, run.action m = some (.worker x))

structure NoWedge (sys : Lts (State ι ε ω) (Action ι χ ξ)) : Prop where
  enqueues : ∀ s c r s', sys.Reachable s → s.clients c = .log r → s.queue = [] →
    s.stopping = false → sys.step s (.logLock c) = some s' → s'.queue = [r]
  takes : ∀ s x s', sys.Reachable s → s.worker = .take → s.queue ≠ [] →
    sys.step s (.worker x) = some s' → s'.queue.length < s.queue.length
  returns : ∀ run : sys.Run, Fair run → (run.state 0).stopping = true →
    ∃ n, (run.state n).worker = .exited

section Measure

variable {ρ : Type} [Preorder ρ]

def Consumer.Decreases (consumer : Consumer ε ω χ ξ) (rank : ω → ρ) : Prop :=
  ∀ e w x w', (consumer.work e w x).2 = some w' → rank w' < rank w

def WorkerPc.distance (rank : ω → ρ) (pc : WorkerPc ω) : Nat ×ₗ WithBot ρ :=
  match pc with
  | .working _ w => toLex (4, rank w)
  | .finishing => toLex (3, ⊥)
  | .reserve => toLex (2, ⊥)
  | .take => toLex (1, ⊥)
  | .exited | .terminated => toLex (0, ⊥)

def State.measure (rank : ω → ρ) (s : State ι ε ω) : Nat ×ₗ Nat ×ₗ WithBot ρ :=
  toLex (s.queue.length, s.worker.distance rank)

variable {cfg : Config} {consumer : Consumer ε ω χ ξ} {rank : ω → ρ} {s s' : State ι ε ω}
  {a : Action ι χ ξ}

omit [DecidableEq ι] in
theorem State.measure_lt_of_worker (hqueue : s'.queue = s.queue)
    (hworker : s'.worker.distance rank < s.worker.distance rank)
    : s'.measure rank < s.measure rank := by
  apply Prod.Lex.toLex_lt_toLex.mpr
  right
  exact ⟨by rw [hqueue], hworker⟩

theorem distance_lt (h : phase' < phase)
    : (toLex (phase', r') : Nat ×ₗ WithBot ρ) < toLex (phase, r) :=
  Prod.Lex.toLex_lt_toLex.mpr (.inl h)

theorem Transition.measure (hdecreases : consumer.Decreases rank)
    (hbatch : 1 ≤ cfg.maxBatchSize) (hreserves : cfg.reserves = true) (hstopped : s.stopping = true)
    (hstep : Transition cfg consumer s a s')
    : s'.measure rank < s.measure rank ∨
      (s'.measure rank = s.measure rank ∧ a.isWorker = false) := by
  cases hstep with
  -- A queue that is stopped takes no record, and its worker does not wait for one.
  | push _ hstop | again _ hstop =>
    rw [hstopped] at hstop
    contradiction
  | terminate _ hreserves' =>
    rw [hreserves] at hreserves'
    contradiction
  | reserve hw | exit hw | finish hw =>
    left
    apply State.measure_lt_of_worker
    . rfl
    . rw [hw]
      exact distance_lt (by decide)
  | take hw hqueue =>
    left
    apply Prod.Lex.toLex_lt_toLex.mpr
    left
    have hlength := length_pos_iff.mpr hqueue
    rw [State.advance_queue, length_drop]
    omega
  | @work x batch w hw =>
    left
    apply State.measure_lt_of_worker
    . exact State.advance_queue _ _ _
    . rw [hw]
      cases hwork : (consumer.work s.env w x).2 with
      | some w' =>
        apply Prod.Lex.toLex_lt_toLex.mpr
        exact .inr ⟨rfl, WithBot.coe_lt_coe.mpr (hdecreases _ _ _ _ hwork)⟩
      | none => exact distance_lt (by decide)
  | skip ha => exact .inr ⟨rfl, ha⟩
  | refuse _ _ ha => exact .inr ⟨rfl, ha⟩
  | _ => exact .inr ⟨rfl, rfl⟩

end Measure

section NoWedge

variable {cfg : Config} {consumer : Consumer ε ω χ ξ} {s s' : State ι ε ω} {a : Action ι χ ξ}

theorem Transition.stopping (hstep : Transition cfg consumer s a s') (hstop : s.stopping = true)
    : s'.stopping = true := by
  cases hstep with
  | stopAtOnce => rfl
  | stopLock => rfl
  | take | work => rw [State.advance_stopping]; exact hstop
  | _ => exact hstop

theorem Transition.not_terminated (hstep : Transition cfg consumer s a s')
    (hreserves : cfg.reserves = true) (h : s.worker ≠ .terminated)
    : s'.worker ≠ .terminated := by
  cases hstep with
  | terminate _ hreserves' =>
    rw [hreserves] at hreserves'
    contradiction
  | reserve | exit | again | finish => simp
  | take | work =>
    unfold State.advance
    split <;> simp
  | _ => exact h

theorem reachable_not_terminated (hreserves : cfg.reserves = true)
    (h : (system ι cfg consumer).Reachable s)
    : s.worker ≠ .terminated := by
  apply h.invariant (fun s => s.worker ≠ .terminated)
  . simp [system, init]
  . intro s a s' _ hinv hstep
    exact (Transition.of_step hstep).not_terminated hreserves hinv

theorem returns_of_decreases {ρ : Type} [Preorder ρ] [WellFoundedLT ρ] {rank : ω → ρ}
    (hdecreases : consumer.Decreases rank) (hbatch : 1 ≤ cfg.maxBatchSize)
    (hreserves : cfg.reserves = true) (run : (system ι cfg consumer).Run) (hfair : Fair run)
    (hstop : (run.state 0).stopping = true)
    : ∃ n, (run.state n).worker = .exited := by
  have hstopped (n : Nat) := run.invariant hstop
    (fun s a s' _ hinv hstep => (Transition.of_step hstep).stopping hinv) n
  apply run.eventually (State.measure rank) (fun s => s.worker = .exited)
  . intro n
    right
    have hnext := run.next n
    split at hnext
    . cases (Transition.of_step hnext).measure hdecreases hbatch hreserves (hstopped n).2 with
      | inl hlt => exact le_of_lt hlt
      | inr heq => exact le_of_eq heq.1
    . rw [hnext]
  . intro n
    obtain ⟨m, hm, hworker⟩ := hfair n
    refine ⟨m, hm, ?_⟩
    cases hworker with
    | inl hexited => exact .inl hexited
    | inr hworker =>
      right
      cases hworker with
      | inl hterminated =>
        exact absurd hterminated (reachable_not_terminated hreserves (hstopped m).1)
      | inr haction =>
        obtain ⟨x, hx⟩ := haction
        have hstep := Transition.of_step (run.step_of_action hx)
        cases hstep.measure hdecreases hbatch hreserves (hstopped m).2 with
        | inl hlt => exact hlt
        | inr heq => cases heq.2

theorem step_logLock (hc : s.clients c = .log r) (hworker : s.worker.isTerminated = false)
    : (system ι cfg consumer).step s (.logLock c) = some (s.log cfg c r) := by
  dsimp only [system, step]
  rw [hworker, hc]
  rfl

theorem step_take (hw : s.worker = .take)
    : (system ι cfg consumer).step s (.worker x) = some (s.take cfg consumer) := by
  dsimp only [system, step, workerStep]
  rw [hw]
  rfl

omit [DecidableEq ι] in
theorem State.take_queue (hqueue : s.queue ≠ [])
    : (s.take cfg consumer).queue = s.queue.drop cfg.maxBatchSize := by
  have hempty : s.queue.isEmpty = false := by simpa using hqueue
  unfold State.take
  rw [hempty, Bool.and_false]
  simp only [Bool.false_eq_true, if_false, State.advance_queue]

theorem State.log_queue (hqueue : s.queue = []) (hstop : s.stopping = false)
    : (s.log cfg c r).queue = if cfg.full 0 = true then [] else [r] := by
  unfold State.log
  rw [hstop, hqueue]
  simp only [Bool.false_eq_true, if_false, length_nil]
  split
  . split
    . exact hqueue
    . exact hqueue
  . simp only [State.push, hqueue, nil_append]

theorem State.log_worker : (s.log cfg c r).worker = s.worker := by
  unfold State.log
  split
  . rfl
  . split
    . split
      . rfl
      . rfl
    . rfl

theorem step_reserve (hw : s.worker = .reserve)
    : (system ι cfg consumer).step s (.worker x)
        = some { s with worker := if cfg.reserves then .take else .terminated } := by
  dsimp only [system, step, workerStep]
  rw [hw]
  cases cfg.reserves with
  | true => rfl
  | false => rfl

theorem step_of_take (hbatch : 1 ≤ cfg.maxBatchSize) (hw : s.worker = .take) (hqueue : s.queue ≠ [])
    (hstep : (system ι cfg consumer).step s (.worker x) = some s')
    : s'.queue.length < s.queue.length := by
  have hlength := length_pos_iff.mpr hqueue
  rw [step_take hw] at hstep
  cases hstep
  rw [State.take_queue hqueue, length_drop]
  omega

omit [DecidableEq ι] in
theorem isTerminated_of_ne (h : s.worker ≠ .terminated) : s.worker.isTerminated = false := by
  cases hw : s.worker with
  | terminated => exact absurd hw h
  | _ => rfl

section Converse

variable [Inhabited ι]

def logged (consumer : Consumer ε ω χ ξ) : State ι ε ω :=
  { (init ι consumer).setClient default (.log 0) with submitted := 1 }

theorem reachable_logged : (system ι cfg consumer).Reachable (logged consumer) :=
  Lts.Reachable.init.step (a := .log default) rfl

theorem clients_logged : (logged consumer : State ι ε ω).clients default = .log 0 :=
  Function.update_self ..

theorem step_logged
    : (system ι cfg consumer).step (logged consumer) (.logLock default)
        = some ((logged consumer).log cfg default 0) :=
  step_logLock clients_logged rfl

theorem NoWedge.full (h : NoWedge (system ι cfg consumer)) : cfg.full 0 = false := by
  have hqueue := h.enqueues _ default 0 _ reachable_logged clients_logged rfl rfl step_logged
  rw [State.log_queue rfl rfl] at hqueue
  cases hfull : cfg.full 0 with
  | false => rfl
  | true =>
    rw [hfull, if_pos rfl] at hqueue
    contradiction

theorem exists_stopping
    : ∃ s, (system ι cfg consumer).Reachable s ∧ s.stopping = true ∧ s.worker = .reserve := by
  have hstop : (system ι cfg consumer).Reachable ((init ι consumer).setClient default .stop) :=
    Lts.Reachable.init.step (a := .stop default) rfl
  have hclient : ((init ι consumer).setClient default .stop).clients default = .stop :=
    Function.update_self ..
  have henter : (system ι cfg consumer).Reachable
      (((init ι consumer).setClient default .stop).stopEnter cfg default) := by
    apply hstop.step (a := .stopEnter default)
    dsimp only [system, step]
    rw [hclient]
    rfl
  cases hatomic : cfg.atomicStop with
  | true =>
    refine ⟨_, henter, ?_, ?_⟩
    . simp [State.stopEnter, hatomic, init, State.setClient]
    . simp [State.stopEnter, hatomic, init, State.setClient]
  | false =>
    have hlocked : (((init ι consumer).setClient default .stop).stopEnter cfg default).clients default
        = .stopLock := by
      simp [State.stopEnter, hatomic, init, State.setClient]
    have hlock : (system ι cfg consumer).Reachable
        { (((init ι consumer).setClient default .stop).stopEnter cfg default).setClient default
          .stopJoin with stopping := true } := by
      apply henter.step (a := .stopLock default)
      dsimp only [system, step]
      rw [hlocked]
      simp [State.stopEnter, hatomic, init, State.setClient, WorkerPc.isTerminated]
    refine ⟨_, hlock, rfl, ?_⟩
    simp [State.stopEnter, hatomic, init, State.setClient]

variable [Inhabited χ]

theorem NoWedge.maxBatchSize (h : NoWedge (system ι cfg consumer)) (hreserves : cfg.reserves = true)
    : 1 ≤ cfg.maxBatchSize := by
  have hreach : (system ι cfg consumer).Reachable ((logged consumer).log cfg default 0) :=
    reachable_logged.step step_logged
  have hqueue : ((logged consumer : State ι ε ω).log cfg default 0).queue = [0] := by
    rw [State.log_queue rfl rfl, h.full]
    rfl
  have hreserve : (system ι cfg consumer).step ((logged consumer).log cfg default 0)
      (.worker default) = some { (logged consumer).log cfg default 0 with worker := .take } := by
    have hstep := @step_reserve ι ε ω χ ξ _ cfg consumer ((logged consumer).log cfg default 0)
      default State.log_worker
    rw [hreserves] at hstep
    exact hstep
  have htaken := h.takes _ default _ (hreach.step hreserve) rfl (by simp [hqueue]) (step_take rfl)
  rw [State.take_queue (by simp [hqueue])] at htaken
  simp only [hqueue, length_drop, length_singleton] at htaken
  omega

theorem NoWedge.reserves (h : NoWedge (system ι cfg consumer)) : cfg.reserves = true := by
  cases hreserves : cfg.reserves with
  | true => rfl
  | false =>
    obtain ⟨s, hreach, hstop, hw⟩ := @exists_stopping ι ε ω χ ξ _ cfg consumer _
    have hterminate : (system ι cfg consumer).step s (.worker default)
        = some { s with worker := .terminated } := by
      have hstep := @step_reserve ι ε ω χ ξ _ cfg consumer s default hw
      rw [hreserves] at hstep
      exact hstep
    have hfair : Fair (Lts.Run.once hreach hterminate) := by
      intro n
      exact ⟨n + 1, Nat.le_succ n, .inr (.inl rfl)⟩
    cases Lts.Run.once_cases (P := fun r : State ι ε ω => r.worker = .exited)
        (h.returns _ hfair hstop) with
    | inl hexited =>
      rw [hw] at hexited
      contradiction
    | inr hexited => cases hexited

theorem noWedge_iff {ρ : Type} [Preorder ρ] [WellFoundedLT ρ] {rank : ω → ρ}
    (hdecreases : consumer.Decreases rank)
    : NoWedge (system ι cfg consumer)
      ↔ cfg.full 0 = false ∧ 1 ≤ cfg.maxBatchSize ∧ cfg.reserves = true := by
  constructor
  . intro h
    exact ⟨h.full, h.maxBatchSize h.reserves, h.reserves⟩
  . rintro ⟨hfull, hbatch, hreserves⟩
    constructor
    . intro s c r s' reach hc hqueue hstop hstep
      rw [step_logLock hc (isTerminated_of_ne (reachable_not_terminated hreserves reach))] at hstep
      cases hstep
      rw [State.log_queue hqueue hstop, hfull]
      rfl
    . intro s x s' _ hw hqueue hstep
      exact step_of_take hbatch hw hqueue hstep
    . intro run hfair hstop
      exact returns_of_decreases hdecreases hbatch hreserves run hfair hstop

end Converse
end NoWedge
end BatchQueue
