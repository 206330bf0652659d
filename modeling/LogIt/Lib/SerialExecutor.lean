import Mathlib.Logic.Function.Basic

/-!
This module contains what an executor with one worker and a lossless queue shows of the tasks of one
of its users. The tasks of this user carry messages, those of the others do not.
-/

namespace SerialExecutor

open Function

inductive Phase (μ : Type) where
  | idle
  | sending (m : Option μ)
  | waiting
  | closing
  | leaving

structure View (ι μ : Type) where
  pending : List μ
  phase : ι → Phase μ
  stopped : Bool

namespace View

variable {ι μ : Type} [DecidableEq ι]

def setPhase (v : View ι μ) (c : ι) (p : Phase μ) : View ι μ :=
  { v with phase := Function.update v.phase c p }

inductive Step (v : View ι μ) : Option μ → View ι μ → Prop where
  | quiet : Step v none v
  | enqueue {c : ι} {m : Option μ} (hc : v.phase c = .sending m)
    : Step v none { v.setPhase c .leaving with pending := v.pending ++ m.toList }
  | reject {c : ι} {m : Option μ} (hc : v.phase c = .sending m) (hstop : v.stopped = true)
    : Step v none (v.setPhase c .idle)
  | waited {c : ι} (hc : v.phase c = .waiting) (hpending : v.pending = [])
    : Step v none (v.setPhase c .leaving)
  | closed {c : ι} (hc : v.phase c = .closing) (hpending : v.pending = [])
    : Step v none (v.setPhase c .idle)
  | leave {c : ι} (hc : v.phase c = .leaving) : Step v none (v.setPhase c .idle)
  | run {m : Option μ} {rest : List μ} (hpending : v.pending = m.toList ++ rest)
    : Step v m { v with pending := rest }

section

variable (v : View ι μ) (c : ι) (p : Phase μ)

@[simp]
theorem setPhase_pending : (v.setPhase c p).pending = v.pending :=
  rfl

@[simp]
theorem setPhase_stopped : (v.setPhase c p).stopped = v.stopped :=
  rfl

@[simp]
theorem setPhase_phase_self : (v.setPhase c p).phase c = p := by
  change update v.phase c p c = p
  rw [update_self]

end

theorem setPhase_phase_of_ne (v : View ι μ) (h : c' ≠ c) (p : Phase μ)
    : (v.setPhase c p).phase c' = v.phase c' := by
  change update v.phase c p c' = v.phase c'
  rw [update_of_ne h]

theorem setPhase_eq_self {v : View ι μ} (h : v.phase c = p) : v.setPhase c p = v := by
  unfold setPhase
  rw [← h, update_eq_self]

end View
end SerialExecutor
