import Mathlib.Data.Finset.Card
import LogIt.Ring.Lemmas.Calls

namespace LogIt

open Function

variable {ι α : Type}

def PushPc.arg (pc : PushPc Nat α) : Option α :=
  match pc with
  | .load v | .readSeq v _ | .cas v _ | .construct v _ => some v
  | .returned _ v => v
  | _ => none

namespace MpscRingAny

variable {ring : MpscRingAny Nat α} {spurious : Bool}

theorem pushStep_cap : (ring.pushStep spurious pc).1.cap = ring.cap := by
  cases pc with
  | readSeq v pos =>
    simp only [pushStep]
    split
    . rfl
    . split <;> rfl
  | cas v pos =>
    simp only [pushStep]
    split <;> rfl
  | _ => rfl

theorem pushStep_arg (h : (ring.pushStep spurious pc).2.arg = some v) : pc.arg = some v := by
  cases pc with
  | readSeq w pos =>
    simp only [pushStep] at h
    split at h
    . exact h
    . split at h <;> exact h
  | cas w pos =>
    simp only [pushStep] at h
    split at h <;> exact h
  | construct w pos | publish pos => simp [pushStep, PushPc.arg] at h
  | _ => exact h

theorem popStep_cap : (ring.popStep spurious pc).1.cap = ring.cap := by
  cases pc with
  | readSeq pos | cas pos =>
    simp only [popStep]
    split <;> rfl
  | _ => rfl

end MpscRingAny

namespace MpscRingAny.Concurrent

section

variable {s : State ι α} (h : Inv s.ring s.producers s.consumer s.claimed s.popped)

include h

theorem construct_not_live (hpc : s.producers i = .construct v pos)
    : (s.ring.cell pos).storage = none := by
  have hpush := h.push i
  simp only [hpc, PushInv] at hpush
  simp [hpush]

theorem taken_live (hpc : s.consumer = .move pos ∨ ∃ out, s.consumer = .destroy pos out)
    : (s.ring.cell pos).storage.isSome := by
  have hpop := h.pop
  have hlen := h.popped_length_le
  have henq := h.enqueuePos_eq
  have htaken : pos = s.popped.length ∧ (s.ring.cell pos).seq = pos + 1 ∧ s.consumer.taken = 1 ∧
      ¬ s.consumer.Emptied pos := by
    cases hpc with
    | inl hpc =>
      simp only [hpc, PopInv] at hpop
      refine ⟨hpop.1, hpop.2, ?_⟩
      simp [hpc, PopPc.taken, PopPc.Emptied]
    | inr hpc =>
      obtain ⟨out, hpc⟩ := hpc
      simp only [hpc, PopInv] at hpop
      refine ⟨hpop.1, hpop.2.1, ?_⟩
      simp [hpc, PopPc.taken, PopPc.Emptied]
  obtain ⟨hpos, hseq, htaken, hemptied⟩ := htaken
  rw [h.published (by omega) (by omega) hseq hemptied]
  rw [List.getElem?_eq_getElem (by omega)]
  rfl

end

variable [DecidableEq ι]

theorem inv_step {s : State ι α} (h : Inv s.ring s.producers s.consumer s.claimed s.popped)
    (hstep : step s a = some s')
    : Inv s'.ring s'.producers s'.consumer s'.claimed s'.popped := by
  cases a with
  | tryPush i v =>
    simp only [step] at hstep
    split at hstep
    . contradiction
    . next hcall =>
      injection hstep with hstep
      subst hstep
      apply h.push_local
      . intro p
        cases hpc : s.producers i <;> simp_all [PushPc.inCall, PushPc.Owns]
      . simp [PushPc.Owns]
      . trivial
  | push i spurious =>
    injection hstep with hstep
    subst hstep
    exact h.pushStep spurious i
  | tryPop =>
    simp only [step] at hstep
    split at hstep
    . contradiction
    . next hcall =>
      injection hstep with hstep
      subst hstep
      apply h.pop_local
      . cases hpc : s.consumer <;> simp_all [PopPc.inCall, PopPc.taken]
      . cases hpc : s.consumer <;> simp_all [PopPc.inCall, PopPc.Emptied]
      . trivial
  | pop spurious =>
    injection hstep with hstep
    subst hstep
    exact h.popStep spurious

theorem reachable_inv (h : (system ι α capacity).Reachable s)
    : Inv s.ring s.producers s.consumer s.claimed s.popped := by
  apply h.invariant (fun s => Inv s.ring s.producers s.consumer s.claimed s.popped)
  . exact Inv.new capacity
  . intro s a s' _ hinv hstep
    exact inv_step hinv hstep

structure Frame (capacity : Nat) (s : State ι α) : Prop where
  cap_eq : s.ring.cap = capacity
  arg_eq : ∀ i v, (s.producers i).arg = some v → s.args i = some v

theorem frame_step {capacity : Nat} {s s' : State ι α} {a : Action ι α} (h : Frame capacity s)
    (hstep : step s a = some s')
    : Frame capacity s' := by
  cases a with
  | tryPush i v =>
    simp only [step] at hstep
    split at hstep
    . contradiction
    . injection hstep with hstep
      subst hstep
      refine ⟨h.cap_eq, ?_⟩
      intro j w hw
      dsimp only at hw ⊢
      by_cases hj : j = i
      . subst hj
        simpa [PushPc.arg] using hw
      . rw [update_of_ne hj] at hw ⊢
        exact h.arg_eq j w hw
  | push i spurious =>
    injection hstep with hstep
    subst hstep
    refine ⟨?_, ?_⟩
    . rw [pushStep_cap]
      exact h.cap_eq
    . intro j w hw
      dsimp only at hw
      by_cases hj : j = i
      . subst hj
        rw [update_self] at hw
        exact h.arg_eq j w (pushStep_arg hw)
      . rw [update_of_ne hj] at hw
        exact h.arg_eq j w hw
  | tryPop =>
    simp only [step] at hstep
    split at hstep
    . contradiction
    . injection hstep with hstep
      subst hstep
      exact ⟨h.cap_eq, h.arg_eq⟩
  | pop spurious =>
    injection hstep with hstep
    subst hstep
    refine ⟨?_, h.arg_eq⟩
    rw [popStep_cap]
    exact h.cap_eq

theorem reachable_frame {capacity : Nat} (hcap : 2 ≤ capacity) {s : State ι α}
    (h : (system ι α capacity).Reachable s)
    : Frame capacity s := by
  apply h.invariant (Frame capacity)
  . refine ⟨?_, ?_⟩
    . have : ¬ capacity < 2 := by omega
      simp [system, init, MpscRingAny.new, this]
    . simp [system, init, PushPc.arg]
  . intro s a s' _ hframe hstep
    exact frame_step hframe hstep

theorem push_returned_false {s : State ι α}
    (h : Inv s.ring s.producers s.consumer s.claimed s.popped)
    (hstep : step s (.push i spurious) = some s') (hcall : (s.producers i).inCall = true)
    (hret : s'.producers i = .returned false v)
    : s.claimed.length = s.popped.length + s.ring.cap ∧ v = (s.producers i).arg ∧ v.isSome := by
  have hpush := h.push i
  injection hstep with hstep
  subst hstep
  simp only [update_self] at hret
  cases hpc : s.producers i with
  | readSeq w pos =>
    simp only [hpc, PushInv] at hpush
    simp only [hpc, MpscRingAny.pushStep, SizeT.diff_nat] at hret
    split at hret
    . simp at hret
    . split at hret
      . simp only [PushPc.returned.injEq, true_and] at hret
        refine ⟨?_, ?_, ?_⟩
        . rw [← h.enqueuePos_eq]
          exact h.full_of_seq_lt hpush (by omega)
        . simp [← hret, PushPc.arg]
        . simp [← hret]
      . simp at hret
  | cas w pos =>
    simp only [hpc, MpscRingAny.pushStep] at hret
    split at hret <;> simp at hret
  | idle | returned ok w => simp [hpc, PushPc.inCall] at hcall
  | _ => simp [hpc, MpscRingAny.pushStep] at hret

theorem bounded_fifo (capacity : Nat) (hcap : 2 ≤ capacity) (s : State ι α)
    (h : (system ι α capacity).Reachable s)
    : s.popped <+: s.claimed.map some ∧
      (∀ i v pos, s.producers i = .construct v pos → (s.ring.cell pos).storage = none) ∧
      (∀ pos, (s.consumer = .move pos ∨ ∃ out, s.consumer = .destroy pos out) →
        (s.ring.cell pos).storage.isSome) ∧
      ((Finset.range s.ring.cap).filter (fun i => (s.ring.cells i).storage.isSome)).card ≤ capacity ∧
      s.claimed.length ≤ s.popped.length + capacity ∧
      (∀ i spurious s' v, (system ι α capacity).step s (.push i spurious) = some s' →
        (s.producers i).inCall → s'.producers i = .returned false v →
        s.claimed.length = s.popped.length + capacity ∧ v = s.args i ∧ v.isSome) := by
  have hinv := reachable_inv h
  have hframe := reachable_frame hcap h
  refine ⟨?_, ?_, ?_, ?_, ?_, ?_⟩
  . rw [hinv.popped_eq]
    apply List.IsPrefix.map
    exact List.take_prefix _ _
  . intro i v pos hpc
    exact construct_not_live hinv hpc
  . intro pos hpc
    exact taken_live hinv hpc
  . apply Nat.le_trans (Finset.card_filter_le _ _)
    rw [Finset.card_range, hframe.cap_eq]
  . rw [← hinv.enqueuePos_eq, ← hframe.cap_eq]
    exact hinv.enqueuePos_le
  . intro i spurious s' v hstep hcall hret
    obtain ⟨hfull, hv, hsome⟩ := push_returned_false hinv hstep hcall hret
    rw [← hframe.cap_eq]
    refine ⟨hfull, ?_, hsome⟩
    cases v with
    | none => simp at hsome
    | some v => exact (hframe.arg_eq i v hv.symm).symm

theorem bounded_fifo_two_producers
    : ∃ s : State Bool Nat, (system Bool Nat 2).Reachable s ∧ s.popped = [some 7] ∧
        s.claimed = [7, 8] ∧ s.popped <+: s.claimed.map some := by
  obtain ⟨s, hs, hpopped, hclaimed⟩ := Lts.exists_reachable (system Bool Nat 2)
    (P := fun s => s.popped = [some 7] ∧ s.claimed = [7, 8])
    [.tryPush true 7, .push true false, .push true false, .push true true, .push true false,
      .push true false, .tryPush false 8, .push false false, .push false false, .push false false,
      .push false false, .push false false, .push true false, .push true false,
      .tryPush true 9, .push true false, .push true false,
      .tryPop, .pop false, .pop false, .pop false, .pop false, .pop false, .pop false]
    (by decide)
  exact ⟨s, hs, hpopped, hclaimed, (bounded_fifo 2 (by decide) s hs).1⟩

end MpscRingAny.Concurrent

end LogIt
