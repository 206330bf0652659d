import LogIt.Lib.BatchQueue.Progress
import LogIt.Mdbx.Impl.Logger
import LogIt.Otlp.Impl.Payload
import LogIt.Otlp.Lemmas.HttpProgress

/-!
This module contains the progress of the three loggers that export batches.
-/

namespace LogIt
namespace OtlpPayloadLogger

theorem consumer_decreases (build : List Nat → List UInt8) (cfg : Config)
    : (consumer build cfg).Decreases List.length := by
  intro e chunks throws chunks' hwork
  cases chunks with
  | nil => contradiction
  | cons chunk chunks =>
    cases hwork
    exact Nat.lt_succ_self _

variable {ι : Type} [DecidableEq ι] [Inhabited ι]

theorem noWedge_iff (maxSize : Nat) (build : List Nat → List UInt8) (cfg : Config)
    : BatchQueue.NoWedge (system ι maxSize build cfg)
      ↔ 1 ≤ cfg.maxQueueSize ∧ 1 ≤ cfg.maxBatchSize ∧ cfg.maxBatchSize ≤ maxSize := by
  unfold system
  rw [BatchQueue.noWedge_iff (consumer_decreases build cfg)]
  simp only [queueConfig, decide_eq_false_iff_not, decide_eq_true_eq, Nat.not_le, Nat.lt_iff_add_one_le,
    Nat.zero_add]

end OtlpPayloadLogger

namespace MdbxLogger

def WritePc.rank (pc : WritePc) : Nat ×ₗ Nat :=
  match pc with
  | .write _ => toLex (2, 0)
  | .publish _ => toLex (1, 0)
  | .notify calls => toLex (0, calls.length)

theorem Env.write_publish {items : Nat → MdbxLogItem} {e : Env}
    (h : (e.write cfg items batch world).2 = some pc)
    : ∃ snapshots, pc = .publish snapshots := by
  unfold Env.write at h
  split at h
  . cases h
    exact ⟨_, rfl⟩
  . contradiction

theorem consumer_decreases (cfg : Config) (items : Nat → MdbxLogItem) (tables : Tables)
    (sessionId : UInt64)
    : (consumer cfg items tables sessionId).Decreases WritePc.rank := by
  intro e pc world pc' hwork
  apply Prod.Lex.toLex_lt_toLex.mpr
  cases pc with
  | write batch =>
    obtain ⟨snapshots, rfl⟩ := Env.write_publish hwork
    left
    exact Nat.one_lt_two
  | publish snapshots =>
    cases hwork
    left
    exact Nat.zero_lt_one
  | notify calls =>
    cases calls with
    | nil => contradiction
    | cons call calls =>
      have hpc : pc' = .notify calls := by
        simp only [consumer] at hwork
        split at hwork
        . cases hwork
          rfl
        . cases hwork
          rfl
      rw [hpc]
      right
      exact ⟨rfl, Nat.lt_succ_self _⟩

theorem Config.maxBatchSize_normalize (cfg : Config)
    : cfg.normalize.maxBatchSize = max cfg.maxBatchSize 1 := by
  unfold Config.normalize
  split
  . next hzero => rw [hzero, Nat.zero_max]
  . omega

theorem queueConfig_full_zero (maxSize : Nat) (cfg : Config)
    : (queueConfig maxSize cfg).full 0 = false := by
  simp only [queueConfig, Nat.le_zero_eq]
  by_cases hzero : cfg.maxQueueSize = 0
  . simp [hzero]
  . simp [hzero]

instance : Inhabited Answer := ⟨⟨none, 0, 0, 0, false⟩⟩

variable {ι : Type} [DecidableEq ι] [Inhabited ι]

theorem noWedge_iff (maxSize : Nat) (cfg : Config) (items : Nat → MdbxLogItem) (tables : Tables)
    (sessionId : UInt64)
    : BatchQueue.NoWedge (system ι maxSize cfg items tables sessionId)
      ↔ max cfg.maxBatchSize 1 ≤ maxSize := by
  unfold system
  rw [BatchQueue.noWedge_iff (consumer_decreases cfg.normalize items tables sessionId),
    queueConfig_full_zero]
  simp only [queueConfig, Config.maxBatchSize_normalize, decide_eq_true_eq, true_and]
  omega

end MdbxLogger

theorem exporters_noWedge_iff (ι : Type) [DecidableEq ι] [Inhabited ι] (maxSize : Nat)
    (build : List Nat → List UInt8) (payload : OtlpPayloadLogger.Config)
    (http : OtlpHttpLogger.Config) (mdbx : MdbxLogger.Config)
    (items : Nat → MdbxLogger.MdbxLogItem) (tables : MdbxLogger.Tables) (sessionId : UInt64)
    : (BatchQueue.NoWedge (OtlpPayloadLogger.system ι maxSize build payload)
        ↔ 1 ≤ payload.maxQueueSize ∧ 1 ≤ payload.maxBatchSize ∧ payload.maxBatchSize ≤ maxSize) ∧
      (OtlpHttpLogger.NoWedge
          (OtlpHttpLogger.system ι maxSize build { http with cancelOnShutdown := false })
        ↔ 1 ≤ http.maxQueueSize ∧ 1 ≤ http.maxBatchSize ∧ http.maxBatchSize ≤ maxSize) ∧
      (BatchQueue.NoWedge (MdbxLogger.system ι maxSize mdbx items tables sessionId)
        ↔ max mdbx.maxBatchSize 1 ≤ maxSize) := by
  refine ⟨?_, ?_, ?_⟩
  . exact OtlpPayloadLogger.noWedge_iff maxSize build payload
  . exact OtlpHttpLogger.noWedge_iff rfl
  . exact MdbxLogger.noWedge_iff maxSize mdbx items tables sessionId

theorem zero_limits_wedge
    : (let sys := OtlpPayloadLogger.system (Fin 1) (2 ^ 32) (fun rs => rs.map UInt8.ofNat)
          { OtlpPayloadLogger.Config.default with maxBatchSize := 0 };
        ¬ BatchQueue.NoWedge sys ∧
        ∃ s s', sys.run sys.init [.log 0, .logLock 0, .stop 0, .stopEnter 0] = some s ∧
          sys.run s [.worker false, .worker false, .worker false] = some s' ∧
          s.stopping = true ∧ (s.queue, s.worker) = ([0], .reserve) ∧
          (s'.queue, s'.worker) = ([0], .reserve)) ∧
      (let sys := OtlpHttpLogger.system (Fin 1) (2 ^ 32) (fun rs => rs.map UInt8.ofNat)
          { OtlpHttpLogger.Config.default with maxBatchSize := 0 };
        ¬ OtlpHttpLogger.NoWedge sys ∧
        ∃ s, sys.run sys.init [.log 0, .logEnter 0, .logLock 0, .logNotify 0, .stop 0, .stopEnter 0]
            = some s ∧
          sys.run s [.worker ⟨false, false⟩, .worker ⟨false, false⟩] = some s ∧
          s.stopping = true ∧ (s.queue, s.worker) = ([0], .reserve)) ∧
      (let sys := OtlpPayloadLogger.system (Fin 1) (2 ^ 32) (fun rs => rs.map UInt8.ofNat)
          { OtlpPayloadLogger.Config.default with maxQueueSize := 0 };
        ¬ BatchQueue.NoWedge sys ∧
        ∃ s, sys.run sys.init [.log 0, .logLock 0] = some s ∧ s.refused = [0]) ∧
      (let sys := OtlpHttpLogger.system (Fin 1) (2 ^ 32) (fun rs => rs.map UInt8.ofNat)
          { OtlpHttpLogger.Config.default with maxQueueSize := 0 };
        ¬ OtlpHttpLogger.NoWedge sys ∧
        ∃ s, sys.run sys.init [.log 0, .logEnter 0, .logLock 0] = some s ∧ s.refused = [0]) := by
  refine ⟨⟨?_, _, _, rfl, rfl, rfl, rfl, rfl⟩, ⟨?_, _, rfl, rfl, rfl, rfl⟩, ⟨?_, _, rfl, rfl⟩,
    ⟨?_, _, rfl, rfl⟩⟩
  . rw [OtlpPayloadLogger.noWedge_iff]
    decide
  . rw [OtlpHttpLogger.noWedge_iff rfl]
    decide
  . rw [OtlpPayloadLogger.noWedge_iff]
    decide
  . rw [OtlpHttpLogger.noWedge_iff rfl]
    decide

end LogIt
