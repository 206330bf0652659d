import LogIt.Mdbx.Impl.Logger

/-!
This module contains the part of the `MdbxLogger` that calls the functions of its user, each of
which may throw. An exception that leaves `write_batch` ends the worker and with it the process in
the asynchronous mode, and reaches the caller of `log()` in the synchronous mode.
-/

namespace LogIt.MdbxLogger

/--
The exceptions of the subscriber and of the `on_error` that is called for it.
-/
structure Reaction where
  subscriber : Option Thrown
  onError : Option Thrown

/--
`escaped` is the exception that has left the worker. `thrown` is history.
-/
structure CallbackEnv extends Env where
  escaped : Option Thrown
  thrown : List Thrown

abbrev CallbackM :=
  Fallible Thrown CallbackEnv

def endWith (outcome : Option Thrown) : CallbackM Unit :=
  match outcome with
  | some thrown => throw thrown
  | none => pure ()

def onError (outcome : Option Thrown) (text : String) : CallbackM Unit := do
  modify (fun e => { e with errors := e.errors ++ [text], thrown := e.thrown ++ outcome.toList })
  endWith outcome

def report (cfg : Config) (outcome : Option Thrown) (text : String) (thrown : Thrown)
    : CallbackM Unit :=
  if cfg.reportsErrors then
    match thrown with
    | .std what => onError outcome (text ++ ": " ++ what)
    | .other => onError outcome text
  else
    pure ()

def callSubscriber (outcome : Option Thrown) (call : Nat × LogRecordSnapshot) : CallbackM Unit := do
  modify (fun e => { e with received := e.received ++ [call] })
  endWith outcome

def notifyCallback (cfg : Config) (reaction : Reaction) (call : Nat × LogRecordSnapshot)
    : CallbackM Unit :=
  tryCatch (callSubscriber reaction.subscriber call)
    (report cfg reaction.onError "MdbxLogger callback error")

def copyCallbacks (snapshots : List LogRecordSnapshot) : CallbackM (List (Nat × LogRecordSnapshot)) := do
  let e ← get
  set { e with published := e.published ++ [(e.callbacks, snapshots)] }
  return notifications e.callbacks snapshots

def notifyAll (cfg : Config) (reactions : Nat → Reaction)
    : List (Nat × LogRecordSnapshot) → CallbackM Unit
  | [] => pure ()
  | call :: calls => do
    notifyCallback cfg (reactions 0) call
    notifyAll cfg (fun n => reactions (n + 1)) calls

def notifyCallbacks (cfg : Config) (reactions : Nat → Reaction)
    (snapshots : List LogRecordSnapshot) : CallbackM Unit := do
  let calls ← copyCallbacks snapshots
  notifyAll cfg reactions calls

section

variable (cfg : Config) (items : Nat → MdbxLogItem) (batch : List Nat) (world : World)

def writeRecords
    : CallbackM (List LogRecordSnapshot) := do
  let e ← get
  match writeBatch cfg (batch.map items) world e.store with
  | (.ok written, store) =>
    set { e with
      store := store
      outcomes := e.outcomes ++ [BatchOutcome.mk batch (some written)]
    }
    return written.map (fun w => toLogRecordSnapshot w.record)
  | (.error thrown, store) =>
    set { e with store := store, outcomes := e.outcomes ++ [BatchOutcome.mk batch none] }
    throw thrown

def tryWriteRecords (outcome : Option Thrown) : CallbackM (Option (List LogRecordSnapshot)) :=
  tryCatch
    (do
      let snapshots ← writeRecords cfg items batch world
      return some snapshots)
    (fun thrown => do
      report cfg outcome "MdbxLogger write error" thrown
      return none)

def writeAndNotify (outcome : Option Thrown) (reactions : Nat → Reaction) : CallbackM Unit :=
  if batch.isEmpty then
    pure ()
  else do
    let snapshots ← tryWriteRecords cfg items batch world outcome
    match snapshots with
    | some snapshots => notifyCallbacks cfg reactions snapshots
    | none => pure ()

end

structure SyncState where
  env : CallbackEnv
  stopping : Bool
  dropped : Nat

def SyncState.log (cfg : Config) (items : Nat → MdbxLogItem) (r : Nat) (world : World)
    (outcome : Option Thrown) (reactions : Nat → Reaction) (s : SyncState)
    : Except Thrown Unit × SyncState :=
  if s.stopping then
    (.ok (), { s with dropped := s.dropped + 1 })
  else
    let result := (writeAndNotify cfg items [r] world outcome reactions).exec s.env
    (result.1, { s with env := result.2 })

def workStep (cfg : Config) (items : Nat → MdbxLogItem) (pc : WritePc) (world : World)
    (outcome : Option Thrown) : CallbackM (Option WritePc) :=
  match pc with
  | .write batch => do
    let snapshots ← tryWriteRecords cfg items batch world outcome
    return snapshots.map WritePc.publish
  | .publish snapshots => do
    let calls ← copyCallbacks snapshots
    return some (.notify calls)
  | .notify [] => return none
  | .notify (call :: calls) => do
    notifyCallback cfg ⟨(world 0).throws, outcome⟩ call
    return some (.notify calls)

def CallbackEnv.perform (e : CallbackEnv) (m : CallbackM (Option WritePc))
    : CallbackEnv × Option WritePc :=
  match m.exec e with
  | (.ok pc, e) => (e, pc)
  | (.error thrown, e) => ({ e with escaped := some thrown }, none)

def throwingConsumer (cfg : Config) (items : Nat → MdbxLogItem) (tables : Tables)
    (sessionId : UInt64)
    : BatchQueue.Consumer CallbackEnv WritePc (World × Option Thrown) Subscription where
  init := {
    toEnv := (consumer cfg items tables sessionId).init
    escaped := none
    thrown := []
  }
  start := (consumer cfg items tables sessionId).start
  work e pc x := e.perform (workStep cfg items pc x.1 x.2)
  outside e subscription :=
    { e with toEnv := (consumer cfg items tables sessionId).outside e.toEnv subscription }
  close e x := { e with toEnv := e.toEnv.close cfg x.1 }

abbrev ThrowingState (ι : Type) :=
  BatchQueue.State ι CallbackEnv WritePc

abbrev ThrowingAction (ι : Type) :=
  BatchQueue.Action ι (World × Option Thrown) Subscription

/--
A step in which an exception leaves the worker ends the process there.
-/
def throwingStep {ι : Type} [DecidableEq ι] (maxSize : Nat) (cfg : Config)
    (items : Nat → MdbxLogItem) (tables : Tables) (sessionId : UInt64) (s : ThrowingState ι)
    (a : ThrowingAction ι) : Option (ThrowingState ι) :=
  match BatchQueue.step (queueConfig maxSize cfg) (throwingConsumer cfg items tables sessionId) s a
  with
  | some s' =>
    if s'.env.escaped.isSome then
      some { s with env := s'.env, worker := .terminated }
    else
      some s'
  | none => none

def throwingSystem (ι : Type) [DecidableEq ι] (maxSize : Nat) (cfg : Config)
    (items : Nat → MdbxLogItem) (tables : Tables) (sessionId : UInt64)
    : Lts (ThrowingState ι) (ThrowingAction ι) where
  init := BatchQueue.init ι (throwingConsumer cfg.normalize items tables sessionId)
  step := throwingStep maxSize cfg.normalize items tables sessionId

end LogIt.MdbxLogger
