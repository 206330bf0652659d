import Mathlib.Algebra.BigOperators.Pi
import Mathlib.Algebra.Order.BigOperators.Group.Finset
import Mathlib.Data.Fintype.BigOperators
import Mathlib.Tactic.Abel

/-!
This module contains sums over the local states of a finite family of threads, and the accounting of
numbered calls: the number of a call is either settled or still with the thread that makes the call.
-/

variable {ι κ M : Type} [Fintype ι]

def threadSum [AddCommMonoid M] (f : κ → M) (pc : ι → κ) : M :=
  ∑ i, f (pc i)

theorem threadSum_map [AddCommMonoid M] (f : κ → M) (g : κ → κ) (pc : ι → κ)
    : threadSum f (fun i => g (pc i)) = threadSum (fun x => f (g x)) pc :=
  rfl

theorem threadSum_const_zero [AddCommMonoid M] {f : κ → M} (h : f x = 0)
    : threadSum f (fun _ : ι => x) = 0 := by
  unfold threadSum
  simp [h]

section Update

omit [Fintype ι] in
theorem update_cases [DecidableEq ι] {P : κ → Prop} {pc : ι → κ} (h : P (Function.update pc i x j))
    : (j = i ∧ P x) ∨ P (pc j) := by
  by_cases hsame : j = i
  . rw [hsame, Function.update_self] at h
    exact .inl ⟨hsame, h⟩
  . rw [Function.update_of_ne hsame] at h
    exact .inr h

variable [DecidableEq ι] [AddCommMonoid M]

theorem threadSum_update (f : κ → M) (pc : ι → κ) (i : ι) (x : κ)
    : threadSum f (Function.update pc i x) + f (pc i) = threadSum f pc + f x := by
  have herase : ∑ j ∈ Finset.univ.erase i, f (Function.update pc i x j)
      = ∑ j ∈ Finset.univ.erase i, f (pc j) := by
    apply Finset.sum_congr rfl
    intro j hj
    rw [Function.update_of_ne (Finset.ne_of_mem_erase hj)]
  unfold threadSum
  rw [← Finset.add_sum_erase _ _ (Finset.mem_univ i)]
  rw [← Finset.add_sum_erase _ (fun j => f (pc j)) (Finset.mem_univ i)]
  rw [herase, Function.update_self]
  rw [add_comm (f x), add_comm (f (pc i)), add_right_comm]

theorem threadSum_update_eq [IsRightCancelAdd M] {f : κ → M} {pc : ι → κ} (h : f x = f (pc i))
    : threadSum f (Function.update pc i x) = threadSum f pc := by
  have := threadSum_update f pc i x
  rw [h] at this
  exact add_right_cancel this

end Update

section Ordered

variable [AddCommMonoid M] [PartialOrder M] [CanonicallyOrderedAdd M]

theorem le_threadSum [IsOrderedAddMonoid M] (f : κ → M) (pc : ι → κ) (i : ι)
    : f (pc i) ≤ threadSum f pc := by
  unfold threadSum
  apply Finset.single_le_sum (f := fun j => f (pc j))
  . intro _ _
    exact zero_le
  . exact Finset.mem_univ i

theorem threadSum_eq_zero_iff [IsOrderedAddMonoid M] {f : κ → M} {pc : ι → κ}
    : threadSum f pc = 0 ↔ ∀ i, f (pc i) = 0 := by
  unfold threadSum
  rw [Finset.sum_eq_zero_iff]
  simp

end Ordered

variable {ι κ : Type} [Fintype ι]

def Submissions (unsettled : κ → Multiset Nat) (pcs : ι → κ) (settled : Multiset Nat)
    (submitted : Nat) : Prop :=
  settled + threadSum unsettled pcs = Multiset.range submitted

namespace Submissions

variable {unsettled : κ → Multiset Nat} {pcs : ι → κ} {settled settled' : Multiset Nat}
  {submitted : Nat} {i : ι} {pc : κ} {r : Nat}

theorem init (h : unsettled pc = 0) : Submissions unsettled (fun _ : ι => pc) 0 0 := by
  unfold Submissions
  rw [threadSum_const_zero h]
  rfl

theorem nodup (h : Submissions unsettled pcs settled submitted) : settled.Nodup := by
  apply Multiset.nodup_of_le _ (Multiset.nodup_range submitted)
  rw [← h]
  exact Multiset.le_add_right _ _

variable [DecidableEq ι]

section

variable (h : Submissions unsettled pcs settled submitted)

include h

theorem update (hpc : unsettled pc = unsettled (pcs i))
    : Submissions unsettled (Function.update pcs i pc) settled submitted := by
  unfold Submissions
  rw [threadSum_update_eq hpc]
  exact h

theorem call (hold : unsettled (pcs i) = 0) (hnew : unsettled pc = {submitted})
    : Submissions unsettled (Function.update pcs i pc) settled (submitted + 1) := by
  have hsum := threadSum_update unsettled pcs i pc
  rw [hold, hnew, add_zero] at hsum
  unfold Submissions at h ⊢
  rw [hsum, ← add_assoc, h, Multiset.range_succ, ← Multiset.singleton_add, add_comm]

theorem settle (hold : unsettled (pcs i) = {r}) (hnew : unsettled pc = 0)
    (hsettled : settled' = settled + {r})
    : Submissions unsettled (Function.update pcs i pc) settled' submitted := by
  have hsum := threadSum_update unsettled pcs i pc
  rw [hold, hnew, add_zero] at hsum
  unfold Submissions at h ⊢
  rw [hsettled, ← h, ← hsum]
  abel

end

end Submissions
