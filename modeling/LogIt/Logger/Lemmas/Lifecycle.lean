import LogIt.Logger.Lemmas.Guarantee
import Mathlib.Data.List.Nodup

namespace LogIt.Logger

open List

variable {ι : Type} [DecidableEq ι] {s s' : Threads.State (Registry ι) ι Pc}

def Pc.logging (pc : Pc) : Option Nat :=
  match pc with
  | .log _ (p :: _) _ .logging => some p
  | _ => none

def Pc.logCall (pc : Pc) : Option (LogRecord × List Nat) :=
  match pc with
  | .log record _ invoked _ => some (record, invoked)
  | _ => none

section

variable (h : (system ι).Reachable s)

include h

theorem assertions_of_reachable : Global s.shared ∧ ∀ i, Local s.shared i (s.pc i) := by
  apply Threads.invariant _ _ _ _ h
  . exact fun i m m' => Rely i m m'
  . refine ⟨fun _ => ⟨rfl, rfl, rfl⟩, ?_, prefix_rfl, ?_⟩
    . intro strategies hsnapshot
      contradiction
    . intro hreturned
      contradiction
  . intro _
    trivial
  . intro m i pc choice m' pc' hglobal hlocal hstep
    obtain ⟨hguarantee, hlocal'⟩ := sound_step hglobal hlocal hstep
    exact ⟨hguarantee.global, hlocal', hguarantee.rely⟩
  . intro m m' j pc hrely hlocal
    exact hlocal.rely hrely

theorem advances_of_step (hstep : (system ι).step s action = some s')
    : Advances s.shared s'.shared := by
  obtain ⟨hglobal, hlocal⟩ := assertions_of_reachable h
  obtain ⟨m, pc, hresult, rfl⟩ := Threads.of_step hstep
  exact (sound_step hglobal (hlocal action.1) hresult).1.advances

theorem size_of_returned (hreturned : s.shared.firstReturned = true)
    (hrun : ((system ι).startingAt s).Reachable s')
    : s'.shared.size = s.shared.size := by
  have hinv : (system ι).Reachable s' ∧ s'.shared.firstReturned = true
      ∧ s'.shared.size = s.shared.size := by
    apply hrun.invariant (fun t => (system ι).Reachable t ∧ t.shared.firstReturned = true
      ∧ t.shared.size = s.shared.size)
    . exact ⟨h, hreturned, rfl⟩
    . rintro t action t' _ ⟨hreach, hreturned, hsize⟩ hstep
      have hadvances := advances_of_step hreach hstep
      have hcopied := ((assertions_of_reachable hreach).1.returned hreturned).1
      refine ⟨hreach.step hstep, hadvances.firstReturned hreturned, ?_⟩
      rw [hadvances.size_eq hcopied, hsize]
  exact hinv.2.2

theorem count_shutdownCalls (hreturned : s.shared.firstReturned = true) (hp : p < s.shared.size)
    : s.shared.shutdownCalls.count p = 1 := by
  rw [((assertions_of_reachable h).1.returned hreturned).2]
  exact count_eq_one_of_mem nodup_range (mem_range.mpr hp)

theorem dispatching_of_logging (hlogging : (s.pc i).logging = some p)
    : Dispatching s.shared i .logging p := by
  have hlocal := (assertions_of_reachable h).2 i
  unfold Pc.logging at hlogging
  split at hlogging
  . next hpc =>
    rw [hpc] at hlocal
    cases hlogging
    exact dispatching_of_local hlocal (by decide)
  . contradiction

theorem selected_of_logCall (hcall : (s.pc i).logCall = some (record, invoked))
    : Selected record s.shared.size invoked := by
  have hlocal := (assertions_of_reachable h).2 i
  unfold Pc.logCall at hcall
  split at hcall
  . next hpc =>
    rw [hpc] at hlocal
    cases hcall
    exact hlocal.1.sublist (sublist_append_left _ _)
  . contradiction

end

theorem registry_lifecycle (ι : Type) [DecidableEq ι] (s : Threads.State (Registry ι) ι Pc)
    (h : (system ι).Reachable s)
    : (s.shared.firstReturned = true →
        (∀ p < s.shared.size, s.shared.shutdownCalls.count p = 1)
          ∧ ∀ s', ((system ι).startingAt s).Reachable s' → s'.shared.size = s.shared.size)
      ∧ s.shared.shutdownCalls.Nodup
      ∧ (∀ i p, (s.pc i).logging = some p →
        (s.shared.strategies p).concurrentDispatch = false → p ∉ s.shared.shutdownCalls)
      ∧ (∀ i j p, (s.pc i).logging = some p → (s.pc j).logging = some p →
        (s.shared.strategies p).concurrentDispatch = false → i = j)
      ∧ ∀ i record invoked, (s.pc i).logCall = some (record, invoked) →
        invoked.Pairwise (· < ·) ∧ (∀ p ∈ invoked, p < s.shared.size)
          ∧ (record.targeted = true → ∀ p ∈ invoked, (p : Int) = record.loggerIndex) := by
  refine ⟨?_, ?_, ?_, ?_, ?_⟩
  . intro hreturned
    exact ⟨fun p hp => count_shutdownCalls h hreturned hp,
      fun s' hrun => size_of_returned h hreturned hrun⟩
  . exact (assertions_of_reachable h).1.calls.sublist.nodup nodup_range
  . intro i p hlogging hconcurrent
    exact (dispatching_of_logging h hlogging).allowed hconcurrent rfl
  . intro i j p hi hj hconcurrent
    have howner := (dispatching_of_logging h hi).owns hconcurrent
    rw [(dispatching_of_logging h hj).owns hconcurrent] at howner
    exact (Option.some.inj howner).symm
  . intro i record invoked hcall
    have hselected := selected_of_logCall h hcall
    refine ⟨?_, hselected.registered, ?_⟩
    . apply List.Pairwise.sublist hselected.receivers
      unfold LogRecord.receivers
      split
      . exact pairwise_singleton _ _
      . exact pairwise_lt_range
    . intro htargeted p hp
      have hmem := hselected.receivers.subset hp
      unfold LogRecord.receivers at hmem
      rw [if_pos htargeted] at hmem
      rw [mem_singleton.mp hmem]
      exact Int.toNat_of_nonneg (of_decide_eq_true htargeted)

def lateRecordRun : List (Fin 2 × Choice) :=
  let registration : Registration := {
    supportsConcurrentLog := false
    supportsConcurrentFormat := none
    singleMode := false }
  let record : LogRecord := {
    loggerIndex := -1
    rawMode := false
    logLevel := MdbxLogger.LogLevel.info }
  List.flatten [
    [(0, .call (.addLogger registration))], List.replicate 6 (0, .run),
    [(1, .call (.log record)), (1, .run), (0, .call .shutdown)], List.replicate 10 (0, .run),
    List.replicate 3 (1, .run)]

theorem registry_lifecycle_late_record
    : ∃ s, (system (Fin 2)).Reachable s ∧ s.shared.firstReturned = true ∧ s.shared.size = 1
        ∧ s.shared.shutdownCalls.count 0 = 1 := by
  have hrun : ∃ s, (system (Fin 2)).Reachable s
      ∧ s.shared.firstReturned = true ∧ s.shared.size = 1 := by
    apply (system (Fin 2)).exists_reachable lateRecordRun
    decide +kernel
  obtain ⟨s, hreach, hreturned, hsize⟩ := hrun
  refine ⟨s, hreach, hreturned, hsize, ?_⟩
  apply ((registry_lifecycle (Fin 2) s hreach).1 hreturned).1
  omega

end LogIt.Logger
