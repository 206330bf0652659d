import Mathlib.Logic.Function.Basic
import LogIt.Lib.Lts

/-!
This module contains a bounded queue whose records are handed in batches to one worker. What the
worker does with a batch is a parameter.

A critical section is one step. Notifications do not appear: the waits loop on a predicate and the
one of the worker is timed, so a waiting thread may look at its predicate at any time.
-/

namespace BatchQueue

structure Config where
  full : Nat → Bool
  dropOnOverflow : Bool
  maxBatchSize : Nat
  reserves : Bool
  atomicStop : Bool

structure Consumer (ε ω χ ξ : Type) where
  init : ε
  start : List Nat → Option ω
  work : ε → ω → χ → ε × Option ω
  outside : ε → ξ → ε
  close : ε → χ → ε

inductive ClientPc where
  | idle
  | log (r : Nat)
  | logParked (r : Nat)
  | wait (before : List Nat)
  | waitReturned (before : List Nat)
  | stop
  | stopLock
  | stopJoin
  | stopClose
  deriving DecidableEq

def ClientPc.free (pc : ClientPc) : Bool :=
  match pc with
  | .idle | .waitReturned _ => true
  | _ => false

inductive WorkerPc (ω : Type) where
  | reserve
  | take
  | working (batch : List Nat) (w : ω)
  | finishing
  | exited
  -- an exception has left the worker, which ends the whole process
  | terminated
  deriving DecidableEq

def WorkerPc.isTerminated {ω : Type} (pc : WorkerPc ω) : Bool :=
  match pc with
  | .terminated => true
  | _ => false

def WorkerPc.isExited {ω : Type} (pc : WorkerPc ω) : Bool :=
  match pc with
  | .exited => true
  | _ => false

structure State (ι ε ω : Type) where
  queue : List Nat
  stopRequested : Bool
  stopping : Bool
  idle : Bool
  dropped : Nat
  worker : WorkerPc ω
  clients : ι → ClientPc
  env : ε
  submitted : Nat
  accepted : List Nat
  refused : List Nat
  finished : List (List Nat)
  stopReturned : Bool

inductive Action (ι χ ξ : Type) where
  -- `c` calls `log`
  | log (c : ι)
  -- `c` enters the critical section of `log`
  | logLock (c : ι)
  -- `c` waits for room and looks at the queue
  | logWake (c : ι)
  | wait (c : ι)
  | waitLock (c : ι)
  | stop (c : ι)
  -- `c` looks whether another thread has stopped the queue before
  | stopEnter (c : ι)
  | stopLock (c : ι)
  | stopJoin (c : ι)
  | stopClose (c : ι) (x : χ)
  | worker (x : χ)
  | outside (x : ξ)

section Step

variable {ι ε ω χ ξ : Type} [DecidableEq ι]

namespace State

def setClient (s : State ι ε ω) (c : ι) (pc : ClientPc) : State ι ε ω :=
  { s with clients := Function.update s.clients c pc }

def refuse (s : State ι ε ω) (c : ι) (r : Nat) : State ι ε ω :=
  { s.setClient c .idle with dropped := s.dropped + 1, refused := s.refused ++ [r] }

def push (s : State ι ε ω) (c : ι) (r : Nat) : State ι ε ω :=
  { s.setClient c .idle with queue := s.queue ++ [r], accepted := s.accepted ++ [r] }

section

variable (cfg : Config) (s : State ι ε ω) (c : ι)

def log (r : Nat) : State ι ε ω :=
  if s.stopping then
    s.refuse c r
  else if cfg.full s.queue.length then
    if cfg.dropOnOverflow then
      s.refuse c r
    else
      s.setClient c (.logParked r)
  else
    s.push c r

def logWake (r : Nat) : State ι ε ω :=
  if s.stopping then
    s.refuse c r
  else if cfg.full s.queue.length then
    s
  else
    s.push c r

def stopEnter : State ι ε ω :=
  if s.stopRequested then
    { s.setClient c .idle with stopReturned := true }
  else if cfg.atomicStop then
    { s.setClient c .stopJoin with stopRequested := true, stopping := true }
  else
    { s.setClient c .stopLock with stopRequested := true }

end

section

variable (s : State ι ε ω) (batch : List Nat) (w : Option ω)

def advance : State ι ε ω :=
  match w with
  | some w => { s with worker := .working batch w }
  | none => { s with worker := .finishing, finished := s.finished ++ [batch] }

omit [DecidableEq ι] in
@[simp]
theorem advance_queue : (s.advance batch w).queue = s.queue := by
  cases w with
  | some w => rfl
  | none => rfl

omit [DecidableEq ι] in
@[simp]
theorem advance_stopping : (s.advance batch w).stopping = s.stopping := by
  cases w with
  | some w => rfl
  | none => rfl

omit [DecidableEq ι] in
@[simp]
theorem advance_stopReturned : (s.advance batch w).stopReturned = s.stopReturned := by
  cases w with
  | some w => rfl
  | none => rfl

omit [DecidableEq ι] in
@[simp]
theorem advance_env : (s.advance batch w).env = s.env := by
  cases w with
  | some w => rfl
  | none => rfl

end

def take (cfg : Config) (consumer : Consumer ε ω χ ξ) (s : State ι ε ω) : State ι ε ω :=
  if s.stopping && s.queue.isEmpty then
    { s with idle := true, worker := .exited }
  else if s.queue.isEmpty then
    { s with worker := .reserve }
  else
    let batch := s.queue.take cfg.maxBatchSize
    { s with idle := false, queue := s.queue.drop cfg.maxBatchSize }.advance batch
      (consumer.start batch)

end State

variable (cfg : Config) (consumer : Consumer ε ω χ ξ) (s : State ι ε ω)

def workerStep (x : χ) : Option (State ι ε ω) :=
  match s.worker with
  | .reserve =>
    if cfg.reserves then
      some { s with worker := .take }
    else
      some { s with worker := .terminated }
  | .take => some (s.take cfg consumer)
  | .working batch w =>
    let res := consumer.work s.env w x
    some ({ s with env := res.1 }.advance batch res.2)
  | .finishing => some { s with idle := true, worker := .reserve }
  | .exited | .terminated => none

def step (a : Action ι χ ξ) : Option (State ι ε ω) :=
  if s.worker.isTerminated then
    none
  else
    match a with
    | .log c =>
      if (s.clients c).free then
        some { s.setClient c (.log s.submitted) with submitted := s.submitted + 1 }
      else
        none
    | .logLock c =>
      match s.clients c with
      | .log r => some (s.log cfg c r)
      | _ => none
    | .logWake c =>
      match s.clients c with
      | .logParked r => some (s.logWake cfg c r)
      | _ => none
    | .wait c =>
      if (s.clients c).free then
        some (s.setClient c (.wait s.accepted))
      else
        none
    | .waitLock c =>
      match s.clients c with
      | .wait before =>
        if s.queue.isEmpty && s.idle then
          some (s.setClient c (.waitReturned before))
        else
          some s
      | _ => none
    | .stop c =>
      if (s.clients c).free then
        some (s.setClient c .stop)
      else
        none
    | .stopEnter c =>
      match s.clients c with
      | .stop => some (s.stopEnter cfg c)
      | _ => none
    | .stopLock c =>
      match s.clients c with
      | .stopLock => some { s.setClient c .stopJoin with stopping := true }
      | _ => none
    | .stopJoin c =>
      match s.clients c, s.worker with
      | .stopJoin, .exited => some (s.setClient c .stopClose)
      | _, _ => none
    | .stopClose c x =>
      match s.clients c with
      | .stopClose =>
        some { s.setClient c .idle with env := consumer.close s.env x, stopReturned := true }
      | _ => none
    | .worker x => workerStep cfg consumer s x
    | .outside x => some { s with env := consumer.outside s.env x }

end Step

section System

variable {ε ω χ ξ : Type}

def init (ι : Type) (consumer : Consumer ε ω χ ξ) : State ι ε ω where
  queue := []
  stopRequested := false
  stopping := false
  idle := true
  dropped := 0
  worker := .reserve
  clients _ := .idle
  env := consumer.init
  submitted := 0
  accepted := []
  refused := []
  finished := []
  stopReturned := false

def system (ι : Type) [DecidableEq ι] (cfg : Config) (consumer : Consumer ε ω χ ξ)
    : Lts (State ι ε ω) (Action ι χ ξ) where
  init := init ι consumer
  step := step cfg consumer

end System
end BatchQueue
