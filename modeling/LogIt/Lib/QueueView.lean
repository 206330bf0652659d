import Mathlib.Order.Basic

/-!
This module contains what a queue with a limit shows to its users, whatever it is made of.
-/

structure QueueView (σ : Type) where
  limit : σ → Nat
  queued : σ → Nat
  enqueued : σ → Nat
  dropped : σ → Nat
  dropCounter : σ → Nat

namespace QueueView

variable {σ : Type} {view : QueueView σ} {s s' : σ}

structure Honours (view : QueueView σ) (s s' : σ) : Prop where
  bounded : 0 < view.limit s → view.enqueued s < view.enqueued s' → view.queued s' ≤ view.limit s
  unbounded : view.limit s = 0 →
    view.dropped s' = view.dropped s ∧ view.dropCounter s' ≤ view.dropCounter s

instance : Decidable (view.Honours s s') :=
  decidable_of_iff
    ((0 < view.limit s → view.enqueued s < view.enqueued s' → view.queued s' ≤ view.limit s) ∧
      (view.limit s = 0 →
        view.dropped s' = view.dropped s ∧ view.dropCounter s' ≤ view.dropCounter s))
    ⟨fun h => ⟨h.1, h.2⟩, fun h => ⟨h.bounded, h.unbounded⟩⟩

theorem Honours.of_eq (henqueued : view.enqueued s' = view.enqueued s)
    (hdropped : view.dropped s' = view.dropped s)
    (hcounter : view.dropCounter s' ≤ view.dropCounter s)
    : view.Honours s s' where
  bounded := by
    intro _ hlt
    omega
  unbounded _ := ⟨hdropped, hcounter⟩

theorem Honours.of_pos (hlimit : 0 < view.limit s)
    (hqueued : view.enqueued s < view.enqueued s' → view.queued s' ≤ view.limit s)
    : view.Honours s s' where
  bounded _ := hqueued
  unbounded := by
    intro hzero
    omega

theorem Honours.of_enqueue (hdropped : view.dropped s' = view.dropped s)
    (hcounter : view.dropCounter s' ≤ view.dropCounter s)
    (hqueued : 0 < view.limit s → view.queued s' ≤ view.limit s)
    : view.Honours s s' where
  bounded hlimit _ := hqueued hlimit
  unbounded _ := ⟨hdropped, hcounter⟩

end QueueView
