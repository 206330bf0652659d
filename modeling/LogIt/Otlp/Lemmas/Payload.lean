import LogIt.Lib.BatchQueue.Accounting
import LogIt.Otlp.Impl.Payload

namespace LogIt.OtlpPayloadLogger

open Otlp List

variable {build : List Nat → List UInt8} {cfg : Config}

def remaining (current : Option (List Nat × List (List Nat))) : List (List Nat) :=
  match current with
  | some (_, chunks) => chunks
  | none => []

structure Delivers (build : List Nat → List UInt8) (e : Exports) (finished : List (List Nat))
    (current : Option (List Nat × List (List Nat))) : Prop where
  payloads : e.payloads = e.delivered.map build
  records : ∃ part, e.delivered.flatten = finished.flatten ++ part ∧
    part ++ (remaining current).flatten = BatchQueue.heldOf current

theorem Delivers.of_none (h : Delivers build e finished none)
    : e.delivered.flatten = finished.flatten := by
  obtain ⟨part, hdelivered, hpart⟩ := h.records
  simp only [remaining, BatchQueue.heldOf, flatten_nil, append_nil] at hpart
  rw [hdelivered, hpart, append_nil]

theorem keeps_delivers : (consumer build cfg).Keeps (Delivers build) where
  init := by
    refine ⟨rfl, [], rfl, rfl⟩
  start := by
    intro e finished batch w h hstart
    simp only [consumer] at hstart
    split at hstart
    . contradiction
    . cases hstart
      refine ⟨h.payloads, [], ?_, ?_⟩
      . rw [h.of_none, append_nil]
      . simp only [remaining, BatchQueue.heldOf, flatten_payloadChunks, nil_append]
  skip := by
    intro e finished batch h hstart
    simp only [consumer] at hstart
    split at hstart
    . next hempty =>
      rw [List.isEmpty_iff] at hempty
      refine ⟨h.payloads, [], ?_, rfl⟩
      simp [h.of_none, hempty]
    . contradiction
  work := by
    intro e finished batch w x w' h hwork
    cases w with
    | nil => contradiction
    | cons chunk chunks =>
      cases hwork
      obtain ⟨part, hdelivered, hpart⟩ := h.records
      refine ⟨?_, part ++ chunk, ?_, ?_⟩
      . simp [consumer, h.payloads]
      . simp [consumer, hdelivered]
      . simpa [remaining, BatchQueue.heldOf] using hpart
  done := by
    intro e finished batch w x h hwork
    cases w with
    | nil =>
      obtain ⟨part, hdelivered, hpart⟩ := h.records
      simp only [remaining, BatchQueue.heldOf, flatten_nil, append_nil] at hpart
      refine ⟨h.payloads, [], ?_, rfl⟩
      simp [consumer, hdelivered, hpart]
    | cons chunk chunks => contradiction
  outside := by
    intro e finished current _ h
    exact h
  close := by
    intro e finished _ h
    exact h

variable {ι : Type} [DecidableEq ι] [Fintype ι]

theorem records_delivered_once (maxSize : Nat) (build : List Nat → List UInt8) (cfg : Config)
    (s : State ι) (h : (system ι maxSize build cfg).ReachableVia BatchQueue.StopsOnce s)
    : (s.batches.flatten ++ s.queue = s.accepted ∧ (s.accepted ++ s.refused).Nodup) ∧
      (s.env.payloads = s.env.delivered.map build ∧
        s.env.delivered.flatten ++ (remaining s.worker.current).flatten ++ s.queue = s.accepted ∧
        (s.worker = .exited → s.env.delivered.flatten = s.accepted)) ∧
      s.dropped = s.refused.length ∧
      (s.stopReturned = true → s.queue = []) ∧
      ∀ c before, s.clients c = .waitReturned before →
        ∀ r ∈ before, r ∈ s.env.delivered.flatten := by
  have hinv := BatchQueue.reachable_inv h.reachable
  have hdelivers := keeps_delivers.reachable h.reachable
  obtain ⟨part, hdelivered, hpart⟩ := hdelivers.records
  rw [BatchQueue.heldOf_current] at hpart
  refine ⟨⟨hinv.flatten_batches, hinv.settled_nodup⟩, ⟨hdelivers.payloads, ?_, ?_⟩, hinv.dropped,
    BatchQueue.queue_of_stopReturned h, ?_⟩
  . rw [hdelivered, ← hinv.order, ← hpart]
    simp
  . intro hw
    rw [hw] at hdelivers
    rw [hdelivers.of_none, hinv.accepted_of_exited hw]
  . intro c before hc r hr
    have hfinished := hinv.clients c
    rw [hc] at hfinished
    rw [hdelivered]
    exact mem_append_left _ (hfinished hr)

theorem records_delivered_once_throwing
    : ∃ s : State (Fin 2), ((system (Fin 2) (2 ^ 32) (fun rs => rs.map UInt8.ofNat)
          .default).ReachableVia BatchQueue.StopsOnce s ∧
        s.accepted = [0] ∧ s.clients 1 = .waitReturned [0] ∧ s.stopReturned = true ∧
        s.env.failedExports = 1) ∧
        s.queue = [] ∧ s.dropped = s.refused.length ∧ ∀ r ∈ [0], r ∈ s.env.delivered.flatten := by
  have hrun : ∃ s : State (Fin 2), (system (Fin 2) (2 ^ 32) (fun rs => rs.map UInt8.ofNat)
      .default).ReachableVia BatchQueue.StopsOnce s ∧
      s.accepted = [0] ∧ s.clients 1 = .waitReturned [0] ∧ s.stopReturned = true ∧
      s.env.failedExports = 1 := by
    apply Lts.exists_reachableVia _ _
      [.log 0, .logLock 0, .worker false, .worker false, .wait 1, .worker true, .worker false,
        .worker false, .waitLock 1, .stop 0, .stopEnter 0, .worker false, .worker false, .stopJoin 0,
        .stopClose 0 false]
    decide
  obtain ⟨s, reach, hstate⟩ := hrun
  have honce := records_delivered_once (2 ^ 32) (fun rs => rs.map UInt8.ofNat) .default s reach
  refine ⟨s, ⟨reach, hstate⟩, honce.2.2.2.1 hstate.2.2.1, honce.2.2.1, ?_⟩
  exact honce.2.2.2.2 1 [0] hstate.2.1

theorem stop_returns_early
    : ∃ s : State (Fin 2), (system (Fin 2) (2 ^ 32) (fun rs => rs.map UInt8.ofNat)
        .default).Reachable s ∧ s.stopReturned = true ∧ s.queue = [0] := by
  apply Lts.exists_reachable _
    [.log 0, .logLock 0, .stop 0, .stopEnter 0, .stop 1, .stopEnter 1]
  decide

end LogIt.OtlpPayloadLogger
