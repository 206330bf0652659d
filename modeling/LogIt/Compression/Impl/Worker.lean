import LogIt.Compression.Impl.Files
import LogIt.Lib.Lts

/-!
This module contains the threads of a `CompressionWorker` whose type is not `NONE`. A critical
section is one step, with its notifications.
-/

namespace LogIt.Compression
namespace Worker

open FileLogger (Name)

inductive WorkerPc where
  -- about to lock the mutex in `run`
  | loop
  | parked
  | woken
  | compressing (src : Name)
  -- about to clear `m_busy`
  | finishing
  | exited
  deriving DecidableEq

def WorkerPc.wake (pc : WorkerPc) : WorkerPc :=
  match pc with
  | .parked => .woken
  | pc => pc

/--
`before` are the paths that were enqueued when `wait()` locked the mutex.
-/
inductive ClientPc where
  | idle
  | parked (before : List Name)
  | woken (before : List Name)
  | returned (before : List Name)
  deriving DecidableEq

def ClientPc.wake (pc : ClientPc) : ClientPc :=
  match pc with
  | .parked before => .woken before
  | pc => pc

/--
The fields from `enqueued` on are history. `late` are the paths that were enqueued after the worker
had left its loop.
-/
structure State (ι : Type) where
  queue : List Name
  stop : Bool
  busy : Bool
  worker : WorkerPc
  clients : ι → ClientPc
  joined : Bool
  enqueued : List Name
  called : List Name
  processed : List Name
  atDestructor : List Name
  late : List Name

inductive Action (ι : Type) where
  | enqueue (path : Name)
  | wait (c : ι)
  -- a woken thread locks the mutex again
  | waitCheck (c : ι)
  | waitSpurious (c : ι)
  -- the critical section of the destructor
  | destroy
  | join
  -- the worker locks the mutex and checks its condition
  | workerCheck
  | workerSpurious
  -- `compress_file` returns
  | compressed
  | workerFinish

section Step

variable {ι : Type}

def State.idle (s : State ι) : Bool :=
  s.queue.isEmpty && !s.busy

def State.take (s : State ι) : State ι :=
  match s.queue with
  | [] => if s.stop then { s with worker := .exited } else { s with worker := .parked }
  | src :: queue =>
    { s with
      queue := queue
      busy := true
      worker := .compressing src
      called := s.called ++ [src]
    }

def State.finish (s : State ι) : State ι :=
  { s with
    busy := false
    worker := .loop
    clients := fun c => if s.queue.isEmpty then (s.clients c).wake else s.clients c
  }

variable [DecidableEq ι]

def State.check (s : State ι) (c : ι) (before : List Name) : State ι :=
  let pc := if s.idle then .returned before else .parked before
  { s with clients := Function.update s.clients c pc }

def step (s : State ι) (a : Action ι) : Option (State ι) :=
  if s.joined then
    none
  else
    match a with
    | .enqueue path =>
      some { s with
        queue := s.queue ++ [path]
        worker := s.worker.wake
        enqueued := s.enqueued ++ [path]
        late := if s.worker = .exited then s.late ++ [path] else s.late
      }
    | .wait c =>
      match s.clients c with
      | .idle | .returned _ => some (s.check c s.enqueued)
      | _ => none
    | .waitCheck c =>
      match s.clients c with
      | .woken before => some (s.check c before)
      | _ => none
    | .waitSpurious c => some { s with clients := Function.update s.clients c (s.clients c).wake }
    | .destroy =>
      if s.stop then
        none
      else
        some { s with stop := true, worker := s.worker.wake, atDestructor := s.enqueued }
    | .join => if s.stop && s.worker = .exited then some { s with joined := true } else none
    | .workerCheck =>
      match s.worker with
      | .loop | .woken => some s.take
      | _ => none
    | .workerSpurious => some { s with worker := s.worker.wake }
    | .compressed =>
      match s.worker with
      | .compressing src => some { s with worker := .finishing, processed := s.processed ++ [src] }
      | _ => none
    | .workerFinish =>
      match s.worker with
      | .finishing => some s.finish
      | _ => none

end Step

def init {ι : Type} : State ι where
  queue := []
  stop := false
  busy := false
  worker := .loop
  clients _ := .idle
  joined := false
  enqueued := []
  called := []
  processed := []
  atDestructor := []
  late := []

def system (ι : Type) [DecidableEq ι] : Lts (State ι) (Action ι) where
  init := init
  step := step

end Worker
end LogIt.Compression
