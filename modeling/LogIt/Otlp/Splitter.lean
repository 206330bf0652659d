import Mathlib.Data.List.Basic

/-!
This module contains the function that splits a batch into payloads. The serializer is a parameter.
-/

namespace LogIt.Otlp

variable {α : Type}

structure SplitState (α : Type) where
  chunks : List (List α)
  currentPayload : List α

variable (build : List α → List UInt8) (maxPayloadBytes : Nat)

def splitItem (s : SplitState α) (item : α) : SplitState α :=
  let candidatePayload := s.currentPayload ++ [item]
  if (build candidatePayload).length ≤ maxPayloadBytes then
    { s with currentPayload := candidatePayload }
  else if s.currentPayload.isEmpty then
    -- Single oversized record: emit it as its own chunk anyway.
    { s with chunks := s.chunks ++ [candidatePayload] }
  else
    -- Close current chunk and start a new one with this record.
    { chunks := s.chunks ++ [s.currentPayload], currentPayload := [item] }

def payloadChunks (batch : List α) : List (List α) :=
  if maxPayloadBytes = 0 then
    [batch]
  else
    let s := batch.foldl (splitItem build maxPayloadBytes) ⟨[], []⟩
    if s.currentPayload.isEmpty then
      s.chunks
    else
      s.chunks ++ [s.currentPayload]

def buildOtlpLogsJsonPayloadChunks (batch : List α) : List (List UInt8) :=
  (payloadChunks build maxPayloadBytes batch).map build

end LogIt.Otlp

namespace LogIt.Otlp

variable {α : Type} (build : List α → List UInt8) (maxPayloadBytes : Nat)

theorem flatten_splitItem (s : SplitState α) (item : α)
    : (splitItem build maxPayloadBytes s item).chunks.flatten
        ++ (splitItem build maxPayloadBytes s item).currentPayload
      = s.chunks.flatten ++ s.currentPayload ++ [item] := by
  simp only [splitItem]
  split
  . simp
  . split
    . next hempty =>
      rw [List.isEmpty_iff] at hempty
      simp [hempty]
    . simp

theorem flatten_foldl_splitItem (batch : List α) (s : SplitState α)
    : (batch.foldl (splitItem build maxPayloadBytes) s).chunks.flatten
        ++ (batch.foldl (splitItem build maxPayloadBytes) s).currentPayload
      = s.chunks.flatten ++ s.currentPayload ++ batch := by
  induction batch generalizing s with
  | nil => simp
  | cons item batch ih =>
    rw [List.foldl_cons, ih, flatten_splitItem]
    simp

theorem flatten_payloadChunks (batch : List α)
    : (payloadChunks build maxPayloadBytes batch).flatten = batch := by
  unfold payloadChunks
  split
  . simp
  . have hsplit := flatten_foldl_splitItem build maxPayloadBytes batch ⟨[], []⟩
    dsimp only at hsplit ⊢
    split
    . next hempty =>
      rw [List.isEmpty_iff] at hempty
      rw [hempty] at hsplit
      simpa using hsplit
    . simpa using hsplit

end LogIt.Otlp
