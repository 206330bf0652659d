import Mathlib.Data.Fintype.Basic
import LogIt.Lib.Lts

/-!
This module contains the executors that keep their tasks in a deque: the native
`SingleThreadExecutor` and the `TaskExecutor` without the ring. A critical section is one step, a
notification after the mutex was released is another.

The calls of a task are those of a client whose steps all fall between its start and its end.
-/

namespace LogIt

inductive QueuePolicy where
  | dropNewest
  | dropOldest
  | block
  deriving DecidableEq

namespace DequeExecutor

inductive Variant where
  | taskExecutor
  | singleThreadExecutor
  deriving DecidableEq

/--
Tasks are named by the number of their `add_task` call. `before` were enqueued when `wait()` was
called.
-/
inductive ClientPc where
  | idle
  | addTask (t : Nat)
  | addParked (t : Nat)
  | addWoken (t : Nat)
  | addNotify (t : Nat)
  | wait (before : List Nat)
  | waitParked (before : List Nat)
  | waitWoken (before : List Nat)
  | waitReturned (before : List Nat) (stopped : Bool)
  | limitNotify
  | shutdownNotify (onWorker : Bool)
  | shutdownJoin (onWorker : Bool)
  deriving DecidableEq

namespace ClientPc

def parked (pc : ClientPc) : Bool :=
  match pc with
  | .addParked _ | .waitParked _ => true
  | _ => false

def woken (pc : ClientPc) : Bool :=
  match pc with
  | .addWoken _ | .waitWoken _ => true
  | _ => false

def notifies (pc : ClientPc) : Bool :=
  match pc with
  | .addNotify _ | .limitNotify | .shutdownNotify _ => true
  | _ => false

def wake (pc : ClientPc) : ClientPc :=
  match pc with
  | .addParked t => .addWoken t
  | .waitParked before => .waitWoken before
  | pc => pc

end ClientPc

inductive WorkerPc where
  | ready
  | parked
  | woken
  | popNotify (t : Nat)
  | running (t : Nat)
  | finishing
  | exited
  deriving DecidableEq

def WorkerPc.notifies (pc : WorkerPc) : Bool :=
  match pc with
  | .popNotify _ => true
  | _ => false

def WorkerPc.wake (pc : WorkerPc) : WorkerPc :=
  match pc with
  | .parked => .woken
  | pc => pc

/--
The fields from `submitted` on are history: `refused` were dropped by `DropNewest`, `evicted` by
`DropOldest`, `rejected` came after the stop.
-/
structure State (ι : Type) where
  tasksQueue : List Nat
  stopFlag : Bool
  shutdownDone : Bool
  lifecycleLocked : Bool
  maxQueueSize : Nat
  overflowPolicy : QueuePolicy
  droppedTasks : Nat
  activeTasks : Nat
  worker : WorkerPc
  clients : ι → ClientPc
  submitted : Nat
  enqueued : List Nat
  started : List Nat
  executed : List Nat
  refused : List Nat
  evicted : List Nat
  rejected : List Nat
  returned : List Nat
  dropsReset : Bool

inductive Target (ι : Type) where
  | nobody
  | worker
  | client (c : ι)

inductive Action (ι : Type) where
  -- `c` calls `add_task` with a task that may be an empty function
  | addTask (c : ι) (callable : Bool)
  -- `c` enters the critical section of `add_task`, for the first time or after a wakeup
  | addLock (c : ι)
  -- `c` notifies after having pushed its task
  | addNotify (c : ι) (target : Target ι)
  -- `c` calls `wait()`
  | wait (c : ι)
  -- `c` enters the critical section of `wait()`, for the first time or after a wakeup
  | waitLock (c : ι)
  -- `c` goes on after `wait()`
  | waitReturn (c : ι)
  | setMaxQueueSize (c : ι) (size : Nat)
  | limitNotify (c : ι)
  | setQueuePolicy (policy : QueuePolicy)
  | resetDroppedTasks
  | shutdown (c : ι) (onWorker : Bool)
  | shutdownNotify (c : ι)
  | shutdownJoin (c : ι)
  -- the worker enters the critical section that takes a task
  | workerLock
  | workerNotify (target : Target ι)
  -- the task of the worker ends
  | workerRun
  -- the worker enters the critical section after its task
  | workerFinish
  -- a parked thread wakes up without having been notified
  | spuriousWakeup (target : Target ι)

def Action.client {ι : Type} (a : Action ι) : Option ι :=
  match a with
  | .addTask c _ | .addLock c | .addNotify c _ | .wait c | .waitLock c | .waitReturn c
  | .setMaxQueueSize c _ | .limitNotify c | .shutdown c _ | .shutdownNotify c | .shutdownJoin c =>
    some c
  | _ => none

def Action.calls {ι : Type} (a : Action ι) : Bool :=
  match a with
  | .addTask _ _ | .wait _ | .setMaxQueueSize _ _ | .shutdown _ _ => true
  | _ => false

def Action.spurious {ι : Type} (a : Action ι) : Bool :=
  match a with
  | .spuriousWakeup _ => true
  | _ => false

namespace State

variable {ι : Type} [DecidableEq ι]

def hasRoom (v : Variant) (s : State ι) : Bool :=
  match v with
  | .taskExecutor => decide (s.tasksQueue.length < s.maxQueueSize) || s.stopFlag
  | .singleThreadExecutor =>
    s.maxQueueSize == 0 || decide (s.tasksQueue.length < s.maxQueueSize) || s.stopFlag

def drained (v : Variant) (s : State ι) : Bool :=
  match v with
  | .taskExecutor => (s.tasksQueue.isEmpty && s.activeTasks == 0) || s.stopFlag
  | .singleThreadExecutor => s.tasksQueue.isEmpty && s.activeTasks == 0

def setClient (s : State ι) (c : ι) (pc : ClientPc) : State ι :=
  { s with clients := Function.update s.clients c pc }

def notifyAll (s : State ι) : State ι :=
  { s with clients := fun c => (s.clients c).wake, worker := s.worker.wake }

def notifyOne [Fintype ι] (s : State ι) (target : Target ι) : Option (State ι) :=
  match target with
  | .nobody =>
    if s.worker ≠ .parked ∧ ∀ c, (s.clients c).parked = false then
      some s
    else
      none
  | .worker =>
    if s.worker = .parked then
      some { s with worker := s.worker.wake }
    else
      none
  | .client c =>
    if (s.clients c).parked then
      some (s.setClient c (s.clients c).wake)
    else
      none

def reject (s : State ι) (c : ι) (t : Nat) : State ι :=
  { s.setClient c .idle with rejected := s.rejected ++ [t], returned := s.returned ++ [t] }

def dropNewest (s : State ι) (c : ι) (t : Nat) : State ι :=
  { s.setClient c .idle with
    droppedTasks := s.droppedTasks + 1
    refused := s.refused ++ [t]
    returned := s.returned ++ [t]
  }

def dropOldest (s : State ι) : State ι :=
  match s.tasksQueue with
  | [] => s
  | t :: ts =>
    { s with tasksQueue := ts, droppedTasks := s.droppedTasks + 1, evicted := s.evicted ++ [t] }

def pushBack (s : State ι) (c : ι) (t : Nat) : State ι :=
  { s.setClient c (.addNotify t) with
    tasksQueue := s.tasksQueue ++ [t]
    enqueued := s.enqueued ++ [t]
  }

def waitForRoom (v : Variant) (s : State ι) (c : ι) (t : Nat) : State ι :=
  if s.hasRoom v then
    if s.stopFlag then
      s.reject c t
    else
      s.pushBack c t
  else
    s.setClient c (.addParked t)

def addTask (v : Variant) (s : State ι) (c : ι) (t : Nat) : State ι :=
  if s.stopFlag then
    s.reject c t
  else if 0 < s.maxQueueSize ∧ s.maxQueueSize ≤ s.tasksQueue.length then
    match s.overflowPolicy with
    | .dropNewest => s.dropNewest c t
    | .dropOldest => s.dropOldest.pushBack c t
    | .block => s.waitForRoom v c t
  else
    s.pushBack c t

def workerTake (s : State ι) : State ι :=
  if !s.tasksQueue.isEmpty || s.stopFlag then
    if s.stopFlag && s.tasksQueue.isEmpty then
      { s with worker := .exited }
    else
      match s.tasksQueue with
      -- Only the `SingleThreadExecutor` tests for this, and neither of them gets here.
      | [] => { s with worker := .ready }
      | t :: ts =>
        { s with tasksQueue := ts, activeTasks := s.activeTasks + 1, worker := .popNotify t }
  else
    { s with worker := .parked }

def workerFinish (s : State ι) : State ι :=
  let s := { s with activeTasks := s.activeTasks - 1, worker := .ready }
  if s.tasksQueue.isEmpty && s.activeTasks == 0 then
    s.notifyAll
  else
    s

def shutdown (v : Variant) (s : State ι) (c : ι) (onWorker : Bool) : State ι :=
  match v with
  | .taskExecutor =>
    { s.setClient c (.shutdownNotify onWorker) with lifecycleLocked := true, stopFlag := true }
  | .singleThreadExecutor =>
    if s.shutdownDone then
      s.setClient c (.shutdownJoin onWorker)
    else
      { s.setClient c (.shutdownNotify onWorker) with shutdownDone := true, stopFlag := true }

end State

section Step

variable {ι : Type} [DecidableEq ι] [Fintype ι]

def step (v : Variant) (s : State ι) (a : Action ι) : Option (State ι) :=
  match a with
  | .addTask c callable =>
    match s.clients c, callable with
    | .idle, true => some { s.setClient c (.addTask s.submitted) with submitted := s.submitted + 1 }
    | .idle, false => some s
    | _, _ => none
  | .addLock c =>
    match s.clients c with
    | .addTask t => some (s.addTask v c t)
    | .addWoken t => some (s.waitForRoom v c t)
    | _ => none
  | .addNotify c target =>
    match s.clients c with
    | .addNotify t => { s.setClient c .idle with returned := s.returned ++ [t] }.notifyOne target
    | _ => none
  | .wait c =>
    match s.clients c with
    | .idle => some (s.setClient c (.wait s.enqueued))
    | _ => none
  | .waitLock c =>
    match s.clients c with
    | .wait before | .waitWoken before =>
      if s.drained v then
        some (s.setClient c (.waitReturned before s.stopFlag))
      else
        some (s.setClient c (.waitParked before))
    | _ => none
  | .waitReturn c =>
    match s.clients c with
    | .waitReturned _ _ => some (s.setClient c .idle)
    | _ => none
  | .setMaxQueueSize c size =>
    if s.lifecycleLocked = true ∨ s.clients c ≠ .idle then
      none
    else if s.stopFlag then
      some s
    else
      match v with
      | .taskExecutor => some { s with maxQueueSize := size }
      | .singleThreadExecutor => some { s.setClient c .limitNotify with maxQueueSize := size }
  | .limitNotify c =>
    match s.clients c with
    | .limitNotify => some (s.setClient c .idle).notifyAll
    | _ => none
  | .setQueuePolicy policy =>
    if s.lifecycleLocked then
      none
    else if s.stopFlag then
      some s
    else
      some { s with overflowPolicy := policy }
  | .resetDroppedTasks => some { s with droppedTasks := 0, dropsReset := true }
  | .shutdown c onWorker =>
    -- A task that shuts its `TaskExecutor` down makes the worker join itself, which throws.
    if s.lifecycleLocked = true ∨ s.clients c ≠ .idle ∨ (onWorker = true ∧ v = .taskExecutor) then
      none
    else
      some (s.shutdown v c onWorker)
  | .shutdownNotify c =>
    match s.clients c with
    | .shutdownNotify onWorker => some (s.setClient c (.shutdownJoin onWorker)).notifyAll
    | _ => none
  | .shutdownJoin c =>
    match s.clients c with
    | .shutdownJoin onWorker =>
      if onWorker = true ∨ s.worker = .exited then
        some { s.setClient c .idle with lifecycleLocked := false }
      else
        none
    | _ => none
  | .workerLock =>
    match s.worker with
    | .ready | .woken => some s.workerTake
    | _ => none
  | .workerNotify target =>
    match s.worker with
    | .popNotify t =>
      let s := { s with worker := .running t, started := s.started ++ [t] }
      match v with
      | .taskExecutor => s.notifyOne target
      | .singleThreadExecutor => some s.notifyAll
    | _ => none
  | .workerRun =>
    match s.worker with
    | .running t => some { s with worker := .finishing, executed := s.executed ++ [t] }
    | _ => none
  | .workerFinish =>
    match s.worker with
    | .finishing => some s.workerFinish
    | _ => none
  | .spuriousWakeup target => s.notifyOne target

def init : State ι where
  tasksQueue := []
  stopFlag := false
  shutdownDone := false
  lifecycleLocked := false
  maxQueueSize := 0
  overflowPolicy := .block
  droppedTasks := 0
  activeTasks := 0
  worker := .ready
  clients _ := .idle
  submitted := 0
  enqueued := []
  started := []
  executed := []
  refused := []
  evicted := []
  rejected := []
  returned := []
  dropsReset := false

def system (ι : Type) [DecidableEq ι] [Fintype ι] (v : Variant) : Lts (State ι) (Action ι) where
  init := init
  step := step v

end Step

/--
The message of the task that the step ends.
-/
def State.output {ι μ : Type} (message : Nat → Option μ) (s : State ι) (a : Action ι) : Option μ :=
  match a, s.worker with
  | .workerRun, .running t => message t
  | _, _ => none

def State.Quiet {ι : Type} (s : State ι) : Prop :=
  (∀ c, (s.clients c).notifies = false ∧ (s.clients c).woken = false) ∧
    s.worker.notifies = false ∧ s.worker ≠ .woken

instance {ι : Type} [Fintype ι] (s : State ι) : Decidable s.Quiet :=
  inferInstanceAs (Decidable (_ ∧ _))

end DequeExecutor
end LogIt
