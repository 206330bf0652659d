import LogIt.Lib.BatchQueue.Basic
import LogIt.Mdbx.Impl.Store

/-!
This module contains the `MdbxLogger` in its asynchronous mode: a batch queue whose batches are
written in one transaction each and then passed to the subscribers. The calls of `on_error` do not
throw. A record is named by the number of its `log()` call.
-/

namespace LogIt.MdbxLogger

def queueConfig (maxSize : Nat) (cfg : Config) : BatchQueue.Config where
  full n := decide (0 < cfg.maxQueueSize) && decide (cfg.maxQueueSize ≤ n)
  dropOnOverflow := cfg.dropOnOverflow
  maxBatchSize := cfg.maxBatchSize
  reserves := decide (cfg.maxBatchSize ≤ maxSize)
  atomicStop := false

structure BatchOutcome where
  batch : List Nat
  written : Option (List Written)

/--
The fields from `outcomes` on are history: `published` are the subscribers and the snapshots of each
batch, `received` are the calls of the subscribers.
-/
structure Env where
  store : Store
  callbacks : List Nat
  nextCallbackId : Nat
  errors : List String
  outcomes : List BatchOutcome
  published : List (List Nat × List LogRecordSnapshot)
  received : List (Nat × LogRecordSnapshot)
  sessionEndFailures : Nat

inductive WritePc where
  | write (batch : List Nat)
  -- about to copy the subscribers
  | publish (snapshots : List LogRecordSnapshot)
  -- in the loops over the snapshots and the copied subscribers
  | notify (calls : List (Nat × LogRecordSnapshot))

inductive Subscription where
  | addLogCallback
  | removeLogCallback (id : Nat)

def Env.report (cfg : Config) (e : Env) (text : String) (thrown : Thrown) : Env :=
  if cfg.reportsErrors then
    match thrown with
    | .std what => { e with errors := e.errors ++ [text ++ ": " ++ what] }
    | .other => { e with errors := e.errors ++ [text] }
  else
    e

def notifications (callbacks : List Nat) (snapshots : List LogRecordSnapshot)
    : List (Nat × LogRecordSnapshot) :=
  snapshots.flatMap (fun snapshot => callbacks.map (fun callback => (callback, snapshot)))

def Env.write (cfg : Config) (items : Nat → MdbxLogItem) (e : Env) (batch : List Nat)
    (world : World) : Env × Option WritePc :=
  match writeBatch cfg (batch.map items) world e.store with
  | (.ok written, store) =>
    let e := { e with store := store, outcomes := e.outcomes ++ [BatchOutcome.mk batch (some written)] }
    (e, some (.publish (written.map (fun w => toLogRecordSnapshot w.record))))
  | (.error thrown, store) =>
    let e := { e with store := store, outcomes := e.outcomes ++ [BatchOutcome.mk batch none] }
    (e.report cfg "MdbxLogger write error" thrown, none)

def Env.close (cfg : Config) (e : Env) (world : World) : Env :=
  match transaction (updateSessionEnd cfg) world e.store with
  | (.ok _, store) => { e with store := store }
  | (.error _, store) =>
    { e with
      store := { store with failedWrites := store.failedWrites + 1 }
      sessionEndFailures := e.sessionEndFailures + 1
    }

/--
A subscriber that throws is reported to `on_error`.
-/
def consumer (cfg : Config) (items : Nat → MdbxLogItem) (tables : Tables) (sessionId : UInt64)
    : BatchQueue.Consumer Env WritePc World Subscription where
  init := {
    store := ⟨tables, fun _ => none, sessionId, 0, 0⟩
    callbacks := []
    nextCallbackId := 1
    errors := []
    outcomes := []
    published := []
    received := []
    sessionEndFailures := 0
  }
  start batch := if batch.isEmpty then none else some (.write batch)
  work e pc world :=
    match pc with
    | .write batch => e.write cfg items batch world
    | .publish snapshots =>
      let e := { e with published := e.published ++ [(e.callbacks, snapshots)] }
      (e, some (.notify (notifications e.callbacks snapshots)))
    | .notify [] => (e, none)
    | .notify (call :: calls) =>
      let e := { e with received := e.received ++ [call] }
      match (world 0).throws with
      | some thrown => (e.report cfg "MdbxLogger callback error" thrown, some (.notify calls))
      | none => (e, some (.notify calls))
  outside e subscription :=
    match subscription with
    | .addLogCallback =>
      { e with
        callbacks := e.callbacks ++ [e.nextCallbackId]
        nextCallbackId := e.nextCallbackId + 1
      }
    | .removeLogCallback id => { e with callbacks := e.callbacks.erase id }
  close e world := e.close cfg world

abbrev State (ι : Type) :=
  BatchQueue.State ι Env WritePc

abbrev Action (ι : Type) :=
  BatchQueue.Action ι World Subscription

def system (ι : Type) [DecidableEq ι] (maxSize : Nat) (cfg : Config) (items : Nat → MdbxLogItem)
    (tables : Tables) (sessionId : UInt64) : Lts (State ι) (Action ι) :=
  BatchQueue.system ι (queueConfig maxSize cfg.normalize)
    (consumer cfg.normalize items tables sessionId)

end LogIt.MdbxLogger
