import LogIt.Lib.BatchQueue.Basic
import LogIt.Otlp.Splitter

/-!
This module contains the `OtlpPayloadLogger` in its asynchronous mode, which is a batch queue. A
record is named by the number of its `log()` call, and `build` is the payload for the given records.
-/

namespace LogIt.OtlpPayloadLogger

open Otlp

structure Config where
  maxQueueSize : Nat
  maxBatchSize : Nat
  maxPayloadBytes : Nat
  dropOnOverflow : Bool

def Config.default : Config where
  maxQueueSize := 1024
  maxBatchSize := 256
  maxPayloadBytes := 1024 * 1024
  dropOnOverflow := true

def queueConfig (maxSize : Nat) (cfg : Config) : BatchQueue.Config where
  full n := decide (cfg.maxQueueSize ≤ n)
  dropOnOverflow := cfg.dropOnOverflow
  maxBatchSize := cfg.maxBatchSize
  reserves := decide (cfg.maxBatchSize ≤ maxSize)
  atomicStop := true

/--
`delivered` is history: the records of the payloads that were passed to `on_payload`.
-/
structure Exports where
  payloads : List (List UInt8)
  failedExports : Nat
  delivered : List (List Nat)

def consumer (build : List Nat → List UInt8) (cfg : Config)
    : BatchQueue.Consumer Exports (List (List Nat)) Bool Empty where
  init := ⟨[], 0, []⟩
  start batch :=
    if batch.isEmpty then none else some (payloadChunks build cfg.maxPayloadBytes batch)
  work e chunks throws :=
    match chunks with
    | [] => (e, none)
    | chunk :: chunks =>
      let e := {
        payloads := e.payloads ++ [build chunk]
        failedExports := if throws then e.failedExports + 1 else e.failedExports
        delivered := e.delivered ++ [chunk]
      }
      (e, some chunks)
  outside e _ := e
  close e _ := e

abbrev State (ι : Type) :=
  BatchQueue.State ι Exports (List (List Nat))

abbrev Action (ι : Type) :=
  BatchQueue.Action ι Bool Empty

def system (ι : Type) [DecidableEq ι] (maxSize : Nat) (build : List Nat → List UInt8) (cfg : Config)
    : Lts (State ι) (Action ι) :=
  BatchQueue.system ι (queueConfig maxSize cfg) (consumer build cfg)

end LogIt.OtlpPayloadLogger
