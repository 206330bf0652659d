import Mathlib.Logic.Function.Basic
import LogIt.Lib.Lts

/-!
This module contains threads that work on a shared memory, and a rule for their invariants in the
style of rely and guarantee.
-/

namespace Threads

structure State (M ι κ : Type) where
  shared : M
  pc : ι → κ

variable {M ι κ α : Type} [DecidableEq ι]

def system (init : M) (start : κ) (step : M → ι → κ → α → Option (M × κ))
    : Lts (State M ι κ) (ι × α) where
  init := { shared := init, pc := fun _ => start }
  step s action :=
    match step s.shared action.1 (s.pc action.1) action.2 with
    | none => none
    | some result => some { shared := result.1, pc := Function.update s.pc action.1 result.2 }

variable {init : M} {start : κ} {step : M → ι → κ → α → Option (M × κ)} {s s' : State M ι κ}

theorem of_step {action : ι × α} (h : (system init start step).step s action = some s')
    : ∃ m pc, step s.shared action.1 (s.pc action.1) action.2 = some (m, pc)
        ∧ s' = { shared := m, pc := Function.update s.pc action.1 pc } := by
  dsimp only [system] at h
  split at h
  . contradiction
  . next result hresult =>
    cases h
    exact ⟨result.1, result.2, hresult, rfl⟩

theorem invariant {Global : M → Prop} {Local : M → ι → κ → Prop} {Rely : ι → M → M → Prop}
    (hinit : Global init) (hstart : ∀ i, Local init i start)
    (hstep : ∀ m i pc a m' pc', Global m → Local m i pc → step m i pc a = some (m', pc') →
      Global m' ∧ Local m' i pc' ∧ ∀ j, j ≠ i → Rely j m m')
    (hrely : ∀ m m' j pc, Rely j m m' → Local m j pc → Local m' j pc)
    (h : (system init start step).Reachable s)
    : Global s.shared ∧ ∀ i, Local s.shared i (s.pc i) := by
  apply h.invariant (fun s => Global s.shared ∧ ∀ i, Local s.shared i (s.pc i)) ⟨hinit, hstart⟩
  intro s action s' _ hinv h
  obtain ⟨m, pc, hresult, rfl⟩ := of_step h
  obtain ⟨hglobal, hlocal, hothers⟩ := hstep _ _ _ _ _ _ hinv.1 (hinv.2 action.1) hresult
  refine ⟨hglobal, ?_⟩
  intro j
  dsimp only
  by_cases hj : j = action.1
  . rw [hj, Function.update_self]
    exact hlocal
  . rw [Function.update_of_ne hj]
    exact hrely _ _ _ _ (hothers j hj) (hinv.2 j)

end Threads
