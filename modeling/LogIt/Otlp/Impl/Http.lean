import Mathlib.Logic.Function.Basic
import LogIt.Lib.Lts
import LogIt.Otlp.Splitter

/-!
This module contains the `OtlpHttpLogger` in its asynchronous mode. A critical section of the state
mutex is one step, and notifications do not appear: a waiting thread may look at its predicate at
any time.

The HTTP client calls the callback of a request once if `post` has returned true for it, and never
otherwise. A record is named by the number of its `log()` call, and `build` is the payload for the
records with the given numbers.
-/

namespace LogIt.OtlpHttpLogger

open Otlp

structure Config where
  maxQueueSize : Nat
  maxBatchSize : Nat
  maxInFlightRequests : Nat
  maxPayloadBytes : Nat
  compresses : Bool
  dropOnOverflow : Bool
  cancelOnShutdown : Bool

def Config.default : Config where
  maxQueueSize := 8192
  maxBatchSize := 256
  maxInFlightRequests := 1
  maxPayloadBytes := 1024 * 1024
  compresses := false
  dropOnOverflow := true
  cancelOnShutdown := false

def Config.normalize (cfg : Config) : Config :=
  if cfg.maxInFlightRequests = 0 then
    { cfg with maxInFlightRequests := 1 }
  else
    cfg

/--
`before` are the records that were queued when `wait()` was called.
-/
inductive ClientPc where
  | idle
  -- `log()` is about to lock the lifecycle mutex
  | log (r : Nat)
  -- `log()` holds the lifecycle mutex and is about to lock the state mutex
  | logInside (r : Nat)
  -- `log()` has queued its record and still holds the lifecycle mutex
  | logNotify (r : Nat)
  -- `log()` waits for room
  | logParked (r : Nat)
  -- `log()` is about to lock the lifecycle mutex again
  | logRelock (r : Nat)
  | wait (before : List Nat)
  | waitReturned (before : List Nat)
  | stop
  | stopJoin
  | stopRequests
  deriving DecidableEq

def ClientPc.free (pc : ClientPc) : Bool :=
  match pc with
  | .idle | .waitReturned _ => true
  | _ => false

/--
A chunk is kept as the records in it, `rest` are the chunks after it.
-/
inductive WorkerPc where
  | reserve
  | take
  -- at the head of the loop over the chunks
  | submit (chunks : List (List Nat))
  -- about to wait for a free request
  | acquire (chunk : List Nat) (rest : List (List Nat))
  -- about to call `post`
  | post (chunk : List Nat) (rest : List (List Nat))
  -- `post` has failed
  | postFailed (chunk : List Nat) (rest : List (List Nat))
  | exited
  -- an exception has left the worker, which ends the whole process
  | terminated
  deriving DecidableEq

/--
`outstanding` are the requests that were posted and not answered. The fields from `submitted` on are
history: `refused` were dropped by `log()` and `cleared` by `stop()`, and the `discarded` chunks
were given up.
-/
structure State (ι : Type) where
  queue : List Nat
  stopping : Bool
  lifecycleLocked : Bool
  httpInFlight : Nat
  failedExports : Nat
  dropped : Nat
  worker : WorkerPc
  clients : ι → ClientPc
  outstanding : List (List Nat)
  submitted : Nat
  queued : List Nat
  refused : List Nat
  cleared : List Nat
  returned : List Nat
  answered : List (List Nat)
  discarded : List (List Nat)
  badResponses : Nat
  compressionFailures : Nat
  stopReturned : Bool

structure Outcome where
  compressionFails : Bool
  postFails : Bool

inductive Action (ι : Type) where
  -- `c` calls `log()`
  | log (c : ι)
  -- `c` locks the lifecycle mutex in `log()`, for the first time or after its wait
  | logEnter (c : ι)
  | logLock (c : ι)
  -- `c` leaves `log()` after having queued its record
  | logNotify (c : ι)
  -- `c` waits for room and looks at the queue
  | logWake (c : ι)
  | wait (c : ι)
  | waitLock (c : ι)
  | stop (c : ι)
  | stopEnter (c : ι)
  | stopJoin (c : ι)
  -- `c` has waited for the requests that are in flight
  | stopRequests (c : ι)
  | worker (outcome : Outcome)
  -- the client invokes the callback of the `i`-th outstanding request
  | respond (i : Nat) (ok : Bool)

section Step

variable {ι : Type} [DecidableEq ι]

namespace State

def setClient (s : State ι) (c : ι) (pc : ClientPc) : State ι :=
  { s with clients := Function.update s.clients c pc }

def refuse (s : State ι) (c : ι) (r : Nat) : State ι :=
  { s.setClient c .idle with
    lifecycleLocked := false
    dropped := s.dropped + 1
    refused := s.refused ++ [r]
    returned := s.returned ++ [r]
  }

def logEnter (s : State ι) (c : ι) (r : Nat) : State ι :=
  if s.stopping then
    s.refuse c r
  else
    { s.setClient c (.logInside r) with lifecycleLocked := true }

def logLock (cfg : Config) (s : State ι) (c : ι) (r : Nat) : State ι :=
  if s.stopping then
    s.refuse c r
  else if cfg.maxQueueSize ≤ s.queue.length then
    if cfg.dropOnOverflow then
      s.refuse c r
    else
      { s.setClient c (.logParked r) with lifecycleLocked := false }
  else
    { s.setClient c (.logNotify r) with queue := s.queue ++ [r], queued := s.queued ++ [r] }

def stopEnter (cfg : Config) (s : State ι) (c : ι) : State ι :=
  if s.stopping then
    { s.setClient c .idle with stopReturned := true }
  else if cfg.cancelOnShutdown then
    { s.setClient c .stopJoin with
      stopping := true
      dropped := s.dropped + s.queue.length
      cleared := s.cleared ++ s.queue
      queue := []
    }
  else
    { s.setClient c .stopJoin with stopping := true }

def take (build : List Nat → List UInt8) (cfg : Config) (s : State ι) : State ι :=
  if s.stopping && cfg.cancelOnShutdown then
    { s with worker := .exited }
  else if s.stopping && s.queue.isEmpty && s.httpInFlight == 0 then
    { s with worker := .exited }
  else if s.queue.isEmpty || decide (cfg.maxInFlightRequests ≤ s.httpInFlight) then
    { s with worker := .reserve }
  else
    let batch := s.queue.take cfg.maxBatchSize
    let s := { s with queue := s.queue.drop cfg.maxBatchSize }
    if batch.isEmpty then
      { s with worker := .reserve }
    else
      { s with worker := .submit (payloadChunks build cfg.maxPayloadBytes batch) }

def acquire (cfg : Config) (s : State ι) (chunk : List Nat) (rest : List (List Nat)) : State ι :=
  if s.stopping && cfg.cancelOnShutdown then
    { s with
      failedExports := s.failedExports + 1
      discarded := s.discarded ++ [chunk]
      worker := .submit rest
    }
  else if s.httpInFlight < cfg.maxInFlightRequests then
    { s with httpInFlight := s.httpInFlight + 1, worker := .post chunk rest }
  else
    s

end State

section

variable (maxSize : Nat) (build : List Nat → List UInt8) (cfg : Config) (s : State ι)

def workerStep (outcome : Outcome) : Option (State ι) :=
  match s.worker with
  | .reserve =>
    if cfg.maxBatchSize ≤ maxSize then
      some { s with worker := .take }
    else
      some { s with worker := .terminated }
  | .take => some (s.take build cfg)
  | .submit [] => some { s with worker := .reserve }
  | .submit (chunk :: rest) =>
    if cfg.compresses && outcome.compressionFails then
      -- Compression failed: fallback to uncompressed payload.
      some { s with
        failedExports := s.failedExports + 1
        compressionFailures := s.compressionFailures + 1
        worker := .acquire chunk rest
      }
    else
      some { s with worker := .acquire chunk rest }
  | .acquire chunk rest => some (s.acquire cfg chunk rest)
  | .post chunk rest =>
    if outcome.postFails then
      some { s with worker := .postFailed chunk rest }
    else
      some { s with outstanding := s.outstanding ++ [chunk], worker := .submit rest }
  | .postFailed chunk rest =>
    some { s with
      failedExports := s.failedExports + 1
      httpInFlight := s.httpInFlight - 1
      discarded := s.discarded ++ [chunk]
      worker := .submit rest
    }
  | .exited | .terminated => none

def step (a : Action ι) : Option (State ι) :=
  if s.worker = .terminated then
    none
  else
    match a with
    | .log c =>
      if (s.clients c).free then
        some { s.setClient c (.log s.submitted) with submitted := s.submitted + 1 }
      else
        none
    | .logEnter c =>
      if s.lifecycleLocked then
        none
      else
        match s.clients c with
        | .log r | .logRelock r => some (s.logEnter c r)
        | _ => none
    | .logLock c =>
      match s.clients c with
      | .logInside r => some (s.logLock cfg c r)
      | _ => none
    | .logNotify c =>
      match s.clients c with
      | .logNotify r =>
        some { s.setClient c .idle with lifecycleLocked := false, returned := s.returned ++ [r] }
      | _ => none
    | .logWake c =>
      match s.clients c with
      | .logParked r =>
        if s.stopping || decide (s.queue.length < cfg.maxQueueSize) then
          some (s.setClient c (.logRelock r))
        else
          some s
      | _ => none
    | .wait c =>
      if (s.clients c).free then
        some (s.setClient c (.wait s.queued))
      else
        none
    | .waitLock c =>
      match s.clients c with
      | .wait before =>
        if s.queue.isEmpty && s.httpInFlight == 0 then
          some (s.setClient c (.waitReturned before))
        else
          some s
      | _ => none
    | .stop c =>
      if (s.clients c).free then
        some (s.setClient c .stop)
      else
        none
    | .stopEnter c =>
      if s.lifecycleLocked then
        none
      else
        match s.clients c with
        | .stop => some (s.stopEnter cfg c)
        | _ => none
    | .stopJoin c =>
      match s.clients c, s.worker with
      | .stopJoin, .exited => some (s.setClient c .stopRequests)
      | _, _ => none
    | .stopRequests c =>
      match s.clients c with
      | .stopRequests => some { s.setClient c .idle with stopReturned := true }
      | _ => none
    | .worker outcome => workerStep maxSize build cfg s outcome
    | .respond i ok =>
      match s.outstanding[i]? with
      | some chunk =>
        some { s with
          outstanding := s.outstanding.eraseIdx i
          answered := s.answered ++ [chunk]
          httpInFlight := s.httpInFlight - 1
          failedExports := if ok then s.failedExports else s.failedExports + 1
          badResponses := if ok then s.badResponses else s.badResponses + 1
        }
      | none => none

end

def init (ι : Type) : State ι where
  queue := []
  stopping := false
  lifecycleLocked := false
  httpInFlight := 0
  failedExports := 0
  dropped := 0
  worker := .reserve
  clients _ := .idle
  outstanding := []
  submitted := 0
  queued := []
  refused := []
  cleared := []
  returned := []
  answered := []
  discarded := []
  badResponses := 0
  compressionFailures := 0
  stopReturned := false

def system (ι : Type) [DecidableEq ι] (maxSize : Nat) (build : List Nat → List UInt8) (cfg : Config)
    : Lts (State ι) (Action ι) where
  init := init ι
  step := step maxSize build cfg.normalize

end Step
end LogIt.OtlpHttpLogger
