import Mathlib.Data.Fintype.BigOperators
import Mathlib.Data.Multiset.Range
import Mathlib.Tactic.Abel
import LogIt.Lib.Lts

/-!
This module contains what an executor of numbered tasks shows to its clients.
-/

structure TaskPool (ι σ α : Type) where
  sys : Lts σ α
  addTask : ι → α
  wait : ι → α
  client : α → Option ι
  calls : α → Bool
  runs : α → Bool
  idle : σ → ι → Bool
  preparing : σ → ι → Bool
  inHand : σ → ι → Multiset Nat
  issued : σ → Nat
  unfinished : σ → List Nat
  running : σ → Option Nat
  executed : σ → List Nat
  discarded : σ → List Nat

namespace TaskPool

open Multiset

variable {ι σ α : Type} {pool : TaskPool ι σ α} {s s' : σ} {a : α}

inductive Event (pool : TaskPool ι σ α) (s : σ) (a : α) (s' : σ) : Prop where
  | keep {lost : Multiset Nat} (hissued : pool.issued s' = pool.issued s)
      (hexecuted : pool.executed s' = pool.executed s)
      (hdiscarded : (pool.discarded s' : Multiset Nat) = pool.discarded s + lost)
      (hrunning : ∀ t, pool.running s = some t → pool.runs a = false ∧ pool.running s' = some t)
  | issue {c : ι} (hclient : pool.client a = some c) (hissued : pool.issued s' = pool.issued s + 1)
      (hexecuted : pool.executed s' = pool.executed s)
      (hdiscarded : pool.discarded s' = pool.discarded s)
      (hrunning : ∀ t, pool.running s = some t → pool.runs a = false ∧ pool.running s' = some t)
  | run {t : Nat} (hruns : pool.runs a = true) (hrunning : pool.running s = some t)
      (hissued : pool.issued s' = pool.issued s)
      (hexecuted : pool.executed s' = pool.executed s ++ [t])
      (hdiscarded : pool.discarded s' = pool.discarded s)

theorem Event.quiet (hissued : pool.issued s' = pool.issued s)
    (hexecuted : pool.executed s' = pool.executed s)
    (hdiscarded : pool.discarded s' = pool.discarded s)
    (hrunning : ∀ t, pool.running s = some t → pool.runs a = false ∧ pool.running s' = some t)
    : pool.Event s a s' := by
  apply @Event.keep ι σ α pool s a s' 0 hissued hexecuted _ hrunning
  rw [hdiscarded, add_zero]

structure Lawful [Fintype ι] (pool : TaskPool ι σ α) : Prop where
  client_addTask : ∀ c, pool.client (pool.addTask c) = some c
  runs_addTask : ∀ c, pool.runs (pool.addTask c) = false
  runs_wait : ∀ c, pool.runs (pool.wait c) = false
  running_mem : ∀ s t, pool.running s = some t → t ∈ pool.unfinished s
  inHand_idle : ∀ s c, pool.idle s c = true → pool.inHand s c = 0
  preparing_idle : ∀ s c, pool.idle s c = true → pool.preparing s c = false
  conserved : ∀ s, pool.sys.Reachable s →
    ∑ c, pool.inHand s c + pool.unfinished s + pool.executed s + pool.discarded s
      = Multiset.range (pool.issued s)
  event : ∀ s a s', pool.sys.Reachable s → pool.sys.step s a = some s' → Event pool s a s'
  inHand_step : ∀ s a s' c t, pool.sys.Reachable s → pool.sys.step s a = some s' →
    t ∈ pool.inHand s' c → t ∈ pool.inHand s c ∨
      (t = pool.issued s ∧ pool.client a = some c ∧ pool.issued s' = pool.issued s + 1)
  addTask_step : ∀ s c s', pool.sys.step s (pool.addTask c) = some s' →
    pool.issued s' = pool.issued s + 1 ∨ pool.preparing s' c = true
  preparing_step : ∀ s a s' c, pool.sys.step s a = some s' → pool.preparing s c = true →
    pool.preparing s' c = true ∨ (pool.client a = some c ∧ pool.issued s' = pool.issued s + 1)

section Live

variable [Fintype ι]

def live (pool : TaskPool ι σ α) (s : σ) : Multiset Nat :=
  ∑ c, pool.inHand s c + pool.unfinished s

namespace Lawful

variable (h : pool.Lawful)
include h

theorem live_add (reach : pool.sys.Reachable s)
    : pool.live s + (pool.executed s + pool.discarded s) = range (pool.issued s) := by
  rw [← h.conserved s reach, ← add_assoc]
  rfl

section

variable (reach : pool.sys.Reachable s) (reach' : pool.sys.Reachable s')

include reach reach'

theorem live_balance {new gone : Multiset Nat}
    (hnew : range (pool.issued s') = range (pool.issued s) + new)
    (hgone : (pool.executed s' + pool.discarded s' : Multiset Nat) = pool.executed s + pool.discarded s + gone)
    : pool.live s' + gone = pool.live s + new := by
  have hbefore := h.live_add reach
  have hafter := h.live_add reach'
  rw [hnew, ← hbefore, hgone] at hafter
  apply add_right_cancel (b := (pool.executed s + pool.discarded s : Multiset Nat))
  rw [add_right_comm (pool.live s), ← hafter]
  abel

theorem live_keep (hissued : pool.issued s' = pool.issued s)
    (hexecuted : pool.executed s' = pool.executed s)
    (hdiscarded : (pool.discarded s' : Multiset Nat) = pool.discarded s + lost)
    : pool.live s' + lost = pool.live s := by
  rw [← add_zero (pool.live s)]
  apply h.live_balance reach reach'
  . rw [hissued, add_zero]
  . rw [hexecuted, hdiscarded, add_assoc]

theorem live_issue (hissued : pool.issued s' = pool.issued s + 1)
    (hexecuted : pool.executed s' = pool.executed s)
    (hdiscarded : pool.discarded s' = pool.discarded s)
    : pool.live s' = pool.live s + {pool.issued s} := by
  rw [← add_zero (pool.live s')]
  apply h.live_balance reach reach'
  . rw [hissued, range_succ, ← singleton_add, add_comm]
  . rw [hexecuted, hdiscarded, add_zero]

theorem live_run (hissued : pool.issued s' = pool.issued s)
    (hexecuted : pool.executed s' = pool.executed s ++ [t])
    (hdiscarded : pool.discarded s' = pool.discarded s)
    : pool.live s' + {t} = pool.live s := by
  rw [← add_zero (pool.live s)]
  apply h.live_balance reach reach'
  . rw [hissued, add_zero]
  . rw [hexecuted, hdiscarded, ← coe_add, coe_singleton, add_right_comm]

end

theorem lt_issued_of_mem_live (reach : pool.sys.Reachable s) (ht : t ∈ pool.live s)
    : t < pool.issued s := by
  rw [← mem_range, ← h.live_add reach]
  exact mem_add.mpr (Or.inl ht)

theorem not_mem_discarded_of_lost (reach' : pool.sys.Reachable s')
    (hdiscarded : (pool.discarded s' : Multiset Nat) = pool.discarded s + lost) (ht : t ∈ lost)
    : t ∉ pool.discarded s := by
  have hnodup : (pool.discarded s + lost : Multiset Nat).Nodup := by
    rw [← hdiscarded]
    apply nodup_of_le _ (nodup_range (pool.issued s'))
    rw [← h.live_add reach', ← add_assoc]
    exact le_add_left _ _
  intro hmem
  exact disjoint_left.mp (nodup_add.mp hnodup).2.2 hmem ht

end Lawful
end Live
end TaskPool
