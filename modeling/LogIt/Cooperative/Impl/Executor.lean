import LogIt.Deque.Impl.Executor

/-!
This module contains the executors of the Emscripten builds without threads, whose tasks are drained
by callbacks of the browser loop. There is one thread, so that the state of a run is the call stack.

A task that runs may call the executor. An exception leaves the functions on the stack up to the
task that has called them, which may throw in turn.
-/

namespace LogIt.CooperativeExecutor

open DequeExecutor (Variant)

inductive Frame where
  -- `add_task` is about to enter its critical section
  | addTask (t : Nat)
  -- `add_task` has called `drain` to make room
  | addDrain (t : Nat)
  -- `add_task` is about to schedule a callback
  | addSchedule (t : Nat)
  -- `drain` is about to enter its critical section
  | drain
  -- a task that `drain` has called
  | task (t : Nat)
  deriving DecidableEq

/--
The stack has the innermost function first. The fields from `submitted` on are history: `refused`
were dropped by `DropNewest`, `evicted` by `DropOldest`, `rejected` came after the shutdown, and an
exception has left the `add_task` of the `abandoned` ones.
-/
structure State where
  tasks : List Nat
  maxQueueSize : Nat
  overflowPolicy : QueuePolicy
  droppedTasks : Nat
  scheduled : Bool
  shutdownRequested : Bool
  callbacks : Nat
  stack : List Frame
  submitted : Nat
  enqueued : List Nat
  executed : List Nat
  refused : List Nat
  evicted : List Nat
  rejected : List Nat
  abandoned : List Nat

inductive Action where
  -- call `add_task` with a task that may be an empty function
  | addTask (callable : Bool)
  | wait
  | shutdown
  | setMaxQueueSize (size : Nat)
  | setQueuePolicy (policy : QueuePolicy)
  | resetDroppedTasks
  -- the innermost function of the executor takes its next step
  | advance
  -- the task that runs returns
  | taskReturn
  -- the task that runs throws
  | taskThrow
  -- the browser loop runs a pending callback
  | callback

namespace State

def callerRuns (s : State) : Bool :=
  match s.stack with
  | [] | .task _ :: _ => true
  | _ => false

def rejects (v : Variant) (s : State) : Bool :=
  match v with
  | .taskExecutor => false
  | .singleThreadExecutor => s.shutdownRequested

def full (s : State) : Prop :=
  0 < s.maxQueueSize ∧ s.maxQueueSize ≤ s.tasks.length

instance (s : State) : Decidable s.full :=
  inferInstanceAs (Decidable (_ ∧ _))

def dropNewest (s : State) (stack : List Frame) (t : Nat) : State :=
  { s with droppedTasks := s.droppedTasks + 1, refused := s.refused ++ [t], stack := stack }

def dropOldest (s : State) : State :=
  match s.tasks with
  | [] => s
  | t :: ts =>
    { s with tasks := ts, droppedTasks := s.droppedTasks + 1, evicted := s.evicted ++ [t] }

def emplaceBack (s : State) (stack : List Frame) (t : Nat) : State :=
  { s with
    tasks := s.tasks ++ [t]
    enqueued := s.enqueued ++ [t]
    scheduled := true
    stack := if s.scheduled then stack else .addSchedule t :: stack
  }

def addTask (v : Variant) (s : State) (stack : List Frame) (t : Nat) : State :=
  if s.rejects v then
    { s with rejected := s.rejected ++ [t], stack := stack }
  else if s.full then
    match s.overflowPolicy with
    | .dropNewest => s.dropNewest stack t
    | .dropOldest => s.dropOldest.emplaceBack stack t
    | .block => { s with stack := .drain :: .addDrain t :: stack }
  else
    s.emplaceBack stack t

def drain (s : State) (stack : List Frame) : State :=
  match s.tasks with
  | [] => { s with scheduled := false, stack := stack }
  | t :: ts => { s with tasks := ts, stack := .task t :: .drain :: stack }

def unwind (s : State) (stack : List Frame) : State :=
  match stack with
  | .drain :: .addDrain t :: stack => { s with stack := stack, abandoned := s.abandoned ++ [t] }
  | .drain :: stack => { s with stack := stack }
  | stack => { s with stack := stack }

end State

def step (v : Variant) (s : State) (a : Action) : Option State :=
  match a with
  | .advance =>
    match s.stack with
    | .addTask t :: stack => some (s.addTask v stack t)
    | .addDrain t :: stack => some { s with stack := .addTask t :: stack }
    | .addSchedule _ :: stack => some { s with callbacks := s.callbacks + 1, stack := stack }
    | .drain :: stack => some (s.drain stack)
    | .task _ :: _ | [] => none
  | .taskReturn =>
    match s.stack with
    | .task t :: stack => some { s with stack := stack, executed := s.executed ++ [t] }
    | _ => none
  | .taskThrow =>
    match s.stack, v with
    | .task t :: stack, .taskExecutor =>
      some ({ s with executed := s.executed ++ [t] }.unwind stack)
    -- `drain_state` suppresses the exceptions of user tasks.
    | .task t :: stack, .singleThreadExecutor =>
      some { s with stack := stack, executed := s.executed ++ [t] }
    | _, _ => none
  | .callback =>
    match s.stack, s.callbacks with
    | [], callbacks + 1 => some { s with callbacks := callbacks, stack := [.drain] }
    | _, _ => none
  | .addTask callable =>
    if s.callerRuns = false then
      none
    else if callable then
      some { s with stack := .addTask s.submitted :: s.stack, submitted := s.submitted + 1 }
    else
      some s
  | .wait =>
    if s.callerRuns then
      some { s with stack := .drain :: s.stack }
    else
      none
  | .shutdown =>
    if s.callerRuns = false then
      none
    else
      match v with
      | .taskExecutor => some { s with stack := .drain :: s.stack }
      | .singleThreadExecutor =>
        if s.shutdownRequested then
          some s
        else
          some { s with shutdownRequested := true, stack := .drain :: s.stack }
  | .setMaxQueueSize size =>
    if s.callerRuns = false then
      none
    else if s.rejects v then
      some s
    else
      some { s with maxQueueSize := size }
  | .setQueuePolicy policy =>
    if s.callerRuns = false then
      none
    else if s.rejects v then
      some s
    else
      some { s with overflowPolicy := policy }
  | .resetDroppedTasks =>
    if s.callerRuns then
      some { s with droppedTasks := 0 }
    else
      none

def init : State where
  tasks := []
  maxQueueSize := 0
  overflowPolicy := .block
  droppedTasks := 0
  scheduled := false
  shutdownRequested := false
  callbacks := 0
  stack := []
  submitted := 0
  enqueued := []
  executed := []
  refused := []
  evicted := []
  rejected := []
  abandoned := []

def system (v : Variant) : Lts State Action where
  init := init
  step := step v

end LogIt.CooperativeExecutor
