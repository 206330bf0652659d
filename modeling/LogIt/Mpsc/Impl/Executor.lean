import LogIt.Deque.Impl.Executor
import LogIt.Ring.Impl.Basic

/-!
This module contains the `TaskExecutor` that is built with `LOGIT_USE_MPSC_RING`. Every access to a
shared atomic is one step, and so is every section that holds a mutex for one access.

Notifications do not appear: the waits are timed or loop on a predicate, so a waiting thread may
look at its predicate at any time. The calls of a task are those of a producer or waiter whose steps
all fall between its start and its end.
-/

namespace LogIt.MpscExecutor

structure Config where
  drainBudget : Nat
  defaultRingCap : Nat

def Config.default : Config where
  drainBudget := 2048
  defaultRingCap := 1024

inductive Refusal where
  | dropped
  | stopped
  deriving DecidableEq

/--
A submission is named by the ticket it has reserved.
-/
inductive ProducerPc where
  | idle
  -- `enter_producer_`: about to load `m_resizing`
  | enter
  -- about to increment `m_active_producers`
  | count
  -- about to load `m_resizing` again
  | recheck
  -- about to decrement `m_active_producers` because of a resize
  | backOff
  -- about to increment `m_submitted_tasks`
  | ticket
  | checkStop (t : Nat)
  | loadPolicy (t : Nat)
  -- about to compare `m_active_tasks` with the limit
  | checkLimit (t : Nat) (policy : QueuePolicy)
  -- in `try_push`
  | push (t : Nat) (policy : QueuePolicy) (pc : PushPc Nat Nat)
  -- about to increment `m_dropped_tasks`
  | drop (t : Nat)
  -- about to execute `complete_task_`
  | complete (t : Nat) (refusal : Refusal)
  -- about to execute `leave_producer_`
  | leave (t : Nat)
  deriving DecidableEq

/--
`budget` are the pops left, `drained` is `drained_any`.
-/
inductive WorkerPc where
  | loop
  | drain (budget : Nat) (drained : Bool)
  -- in `try_pop`
  | pop (budget : Nat) (drained : Bool) (pc : PopPc Nat Nat)
  | popFail (drained : Bool)
  | run (budget : Nat) (t : Nat)
  -- about to execute `complete_task_`
  | finish (budget : Nat) (t : Nat)
  | release (budget : Nat)
  | testEmpty (drained : Bool)
  | testActive (drained : Bool)
  | testStop (drained : Bool)
  | tail (drained : Bool)
  | sleepStop
  | sleepEmpty
  | exited
  deriving DecidableEq

/--
Where the holder of `m_lifecycle_mutex` is.
-/
inductive LifecyclePc where
  | free
  | resizeCheck (size : Nat)
  | resizeFlag (size : Nat)
  -- in `wait_until_producers_paused_`
  | resizePause (size : Nat)
  -- in `wait_until_idle_`: about to load the target
  | idleLoad (size : Nat)
  | idleWait (size target : Nat)
  | idleStop (size : Nat)
  | idleDone (size : Nat)
  | resizeStop (size : Nat)
  | resizeJoin (size : Nat)
  | resizeSwap (size : Nat)
  | resizeZero
  | resizeClear
  | resizeStart
  | resizeReopen
  | resizeAbort
  | shutdownStop
  | shutdownJoin
  deriving DecidableEq

/--
`before` are the submissions whose `add_task` had returned when `wait()` was called.
-/
inductive WaiterPc where
  | idle
  | load (before : List Nat)
  | wait (before : List Nat) (target : Nat)
  | testStop (before : List Nat)
  | testDone (before : List Nat)
  | returned (before : List Nat)
  deriving DecidableEq

/--
The fields from `claimed` on are history. `claimed` and `popped` belong to the current ring,
`ringCount` and `workerCount` count the rings and workers made so far, and `resizeFrom` is what they
and the limit were when the latest `set_max_queue_size` was called.
-/
structure State (ι κ : Type) where
  ring : MpscRingAny Nat Nat
  resizing : Bool
  activeProducers : Nat
  stopFlag : Bool
  maxQueueSize : Nat
  overflowPolicy : QueuePolicy
  droppedTasks : Nat
  activeTasks : Nat
  submittedTasks : Nat
  completedTasks : Nat
  producers : ι → ProducerPc
  worker : WorkerPc
  lifecycle : LifecyclePc
  waiters : κ → WaiterPc
  claimed : List Nat
  popped : List (Option Nat)
  accepted : List Nat
  executed : List Nat
  completions : List Nat
  dropped : List Nat
  stopped : List Nat
  returned : List Nat
  shutdownRequested : Bool
  shutdownReturned : Bool
  ringCount : Nat
  workerCount : Nat
  resizeFrom : Nat × Nat × Nat

inductive Action (ι κ : Type) where
  -- `i` calls `add_task` with a task that may be an empty function
  | addTask (i : ι) (callable : Bool)
  -- `i` takes its next step in `add_task`
  | producer (i : ι) (spurious : Bool)
  | worker (spurious : Bool)
  -- `k` calls `wait()`
  | wait (k : κ)
  -- `k` takes its next step in `wait()`
  | waiter (k : κ)
  | setMaxQueueSize (size : Nat)
  | shutdown
  -- the holder of the lifecycle mutex takes its next step
  | lifecycle
  -- the deadline of a resize expires
  | expire
  | setQueuePolicy (policy : QueuePolicy)
  | resetDroppedTasks

section Step

variable {ι κ : Type} [DecidableEq ι] [DecidableEq κ]

def State.setProducer (s : State ι κ) (i : ι) (pc : ProducerPc) : State ι κ :=
  { s with producers := Function.update s.producers i pc }

def State.setWaiter (s : State ι κ) (k : κ) (pc : WaiterPc) : State ι κ :=
  { s with waiters := Function.update s.waiters k pc }

def afterPush (t : Nat) (policy : QueuePolicy) (pc : PushPc Nat Nat) : ProducerPc :=
  match pc with
  | .returned true _ => .leave t
  | .returned false _ =>
    match policy with
    | .dropNewest | .dropOldest => .drop t
    | .block => .checkStop t
  | pc => .push t policy pc

def producerStep (s : State ι κ) (i : ι) (spurious : Bool) : Option (State ι κ) :=
  match s.producers i with
  | .idle => none
  | .enter =>
    if s.resizing then
      some s
    else
      some (s.setProducer i .count)
  | .count => some { s.setProducer i .recheck with activeProducers := s.activeProducers + 1 }
  | .recheck =>
    if s.resizing then
      some (s.setProducer i .backOff)
    else
      some (s.setProducer i .ticket)
  | .backOff => some { s.setProducer i .enter with activeProducers := s.activeProducers - 1 }
  | .ticket =>
    some { s.setProducer i (.checkStop s.submittedTasks) with
      submittedTasks := s.submittedTasks + 1
    }
  | .checkStop t =>
    if s.stopFlag then
      some (s.setProducer i (.complete t .stopped))
    else
      some (s.setProducer i (.loadPolicy t))
  | .loadPolicy t => some (s.setProducer i (.checkLimit t s.overflowPolicy))
  | .checkLimit t policy =>
    if policy = .block ∧ 0 < s.maxQueueSize ∧ s.maxQueueSize ≤ s.activeTasks then
      some (s.setProducer i (.checkStop t))
    else
      some (s.setProducer i (.push t policy (.load t)))
  | .push t policy pc =>
    let res := s.ring.pushStep spurious pc
    some { s.setProducer i (afterPush t policy res.2) with
      ring := res.1
      claimed := s.claimed ++ pc.claims res.2
      accepted := s.accepted ++ pc.claims res.2
    }
  | .drop t =>
    some { s.setProducer i (.complete t .dropped) with droppedTasks := s.droppedTasks + 1 }
  | .complete t .dropped =>
    some { s.setProducer i (.leave t) with
      completedTasks := s.completedTasks + 1
      completions := s.completions ++ [t]
      dropped := s.dropped ++ [t]
    }
  | .complete t .stopped =>
    some { s.setProducer i (.leave t) with
      completedTasks := s.completedTasks + 1
      completions := s.completions ++ [t]
      stopped := s.stopped ++ [t]
    }
  | .leave t =>
    some { s.setProducer i .idle with
      activeProducers := s.activeProducers - 1
      returned := s.returned ++ [t]
    }

def workerStep (cfg : Config) (s : State ι κ) (spurious : Bool) : Option (State ι κ) :=
  match s.worker with
  | .loop => some { s with worker := .drain cfg.drainBudget false }
  | .drain 0 drained => some { s with worker := .testEmpty drained }
  | .drain (budget + 1) drained =>
    some { s with activeTasks := s.activeTasks + 1, worker := .pop budget drained .load }
  | .pop budget drained pc =>
    let res := s.ring.popStep spurious pc
    let s := { s with ring := res.1, popped := s.popped ++ pc.pops res.2 }
    match res.2 with
    | .returned true (some t) => some { s with worker := .run budget t }
    -- `try_pop` never succeeds without an element.
    | .returned true none => none
    | .returned false _ => some { s with worker := .popFail drained }
    | pc => some { s with worker := .pop budget drained pc }
  | .popFail drained =>
    some { s with activeTasks := s.activeTasks - 1, worker := .testEmpty drained }
  | .run budget t => some { s with worker := .finish budget t, executed := s.executed ++ [t] }
  | .finish budget t =>
    some { s with
      worker := .release budget
      completedTasks := s.completedTasks + 1
      completions := s.completions ++ [t]
    }
  | .release budget =>
    some { s with activeTasks := s.activeTasks - 1, worker := .drain budget true }
  | .testEmpty drained =>
    if s.ring.empty then
      some { s with worker := .testActive drained }
    else
      some { s with worker := .tail drained }
  | .testActive drained =>
    if s.activeTasks = 0 then
      some { s with worker := .testStop drained }
    else
      some { s with worker := .tail drained }
  | .testStop drained =>
    if s.stopFlag then
      some { s with worker := .exited }
    else
      some { s with worker := .tail drained }
  | .tail drained =>
    if drained then
      some { s with worker := .loop }
    else
      some { s with worker := .sleepStop }
  | .sleepStop =>
    if s.stopFlag then
      some { s with worker := .sleepEmpty }
    else
      some { s with worker := .loop }
  | .sleepEmpty =>
    if s.ring.empty then
      some { s with worker := .exited }
    else
      some { s with worker := .loop }
  | .exited => none

def waiterStep (s : State ι κ) (k : κ) : Option (State ι κ) :=
  match s.waiters k with
  | .idle | .returned _ => none
  | .load before => some (s.setWaiter k (.wait before s.submittedTasks))
  | .wait before target =>
    if target ≤ s.completedTasks ∨ s.stopFlag = true then
      some (s.setWaiter k (.testStop before))
    else
      some s
  | .testStop before =>
    if s.stopFlag then
      some (s.setWaiter k (.returned before))
    else
      some (s.setWaiter k (.testDone before))
  | .testDone before =>
    if s.submittedTasks ≤ s.completedTasks then
      some (s.setWaiter k (.returned before))
    else
      some (s.setWaiter k (.load before))

def lifecycleStep (cfg : Config) (s : State ι κ) : Option (State ι κ) :=
  match s.lifecycle with
  | .free => none
  | .resizeCheck size =>
    if s.stopFlag then
      some { s with lifecycle := .free }
    else
      some { s with lifecycle := .resizeFlag size }
  | .resizeFlag size => some { s with resizing := true, lifecycle := .resizePause size }
  | .resizePause size =>
    if s.activeProducers = 0 then
      some { s with lifecycle := .idleLoad size }
    else
      some s
  | .idleLoad size => some { s with lifecycle := .idleWait size s.submittedTasks }
  | .idleWait size target =>
    if target ≤ s.completedTasks ∨ s.stopFlag = true then
      some { s with lifecycle := .idleStop size }
    else
      some s
  | .idleStop size =>
    if s.stopFlag then
      some { s with lifecycle := .resizeStop size }
    else
      some { s with lifecycle := .idleDone size }
  | .idleDone size =>
    if s.submittedTasks ≤ s.completedTasks then
      some { s with lifecycle := .resizeStop size }
    else
      some { s with lifecycle := .idleLoad size }
  | .resizeStop size => some { s with stopFlag := true, lifecycle := .resizeJoin size }
  | .resizeJoin size =>
    match s.worker with
    | .exited => some { s with lifecycle := .resizeSwap size }
    | _ => none
  | .resizeSwap size =>
    some { s with
      maxQueueSize := size
      ring := .new (if size = 0 then cfg.defaultRingCap else size)
      claimed := []
      popped := []
      ringCount := s.ringCount + 1
      lifecycle := .resizeZero
    }
  | .resizeZero => some { s with activeTasks := 0, lifecycle := .resizeClear }
  | .resizeClear => some { s with stopFlag := false, lifecycle := .resizeStart }
  | .resizeStart =>
    some { s with worker := .loop, workerCount := s.workerCount + 1, lifecycle := .resizeReopen }
  | .resizeReopen | .resizeAbort => some { s with resizing := false, lifecycle := .free }
  | .shutdownStop =>
    some { s with stopFlag := true, shutdownRequested := true, lifecycle := .shutdownJoin }
  | .shutdownJoin =>
    match s.worker with
    | .exited => some { s with shutdownReturned := true, lifecycle := .free }
    | _ => none

def step (cfg : Config) (s : State ι κ) (a : Action ι κ) : Option (State ι κ) :=
  match a with
  | .addTask i callable =>
    match s.producers i, callable with
    | .idle, true => some (s.setProducer i .enter)
    | .idle, false => some s
    | _, _ => none
  | .producer i spurious => producerStep s i spurious
  | .worker spurious => workerStep cfg s spurious
  | .wait k =>
    match s.waiters k with
    | .idle | .returned _ => some (s.setWaiter k (.load s.returned))
    | _ => none
  | .waiter k => waiterStep s k
  | .setMaxQueueSize size =>
    match s.lifecycle with
    | .free =>
      some { s with
        lifecycle := .resizeCheck size
        resizeFrom := (s.ringCount, s.workerCount, s.maxQueueSize)
      }
    | _ => none
  | .shutdown =>
    match s.lifecycle with
    | .free => some { s with lifecycle := .shutdownStop }
    | _ => none
  | .lifecycle => lifecycleStep cfg s
  | .expire =>
    match s.lifecycle with
    | .resizePause _ | .idleWait _ _ | .idleDone _ => some { s with lifecycle := .resizeAbort }
    | _ => none
  | .setQueuePolicy policy =>
    match s.lifecycle with
    | .free =>
      if s.stopFlag then
        some s
      else
        some { s with overflowPolicy := policy }
    | _ => none
  | .resetDroppedTasks => some { s with droppedTasks := 0 }

def init (cfg : Config) : State ι κ where
  ring := .new cfg.defaultRingCap
  resizing := false
  activeProducers := 0
  stopFlag := false
  maxQueueSize := 0
  overflowPolicy := .block
  droppedTasks := 0
  activeTasks := 0
  submittedTasks := 0
  completedTasks := 0
  producers _ := .idle
  worker := .loop
  lifecycle := .free
  waiters _ := .idle
  claimed := []
  popped := []
  accepted := []
  executed := []
  completions := []
  dropped := []
  stopped := []
  returned := []
  shutdownRequested := false
  shutdownReturned := false
  ringCount := 1
  workerCount := 1
  resizeFrom := (1, 1, 0)

def system (ι κ : Type) [DecidableEq ι] [DecidableEq κ] (cfg : Config)
    : Lts (State ι κ) (Action ι κ) where
  init := init cfg
  step := step cfg

end Step
end LogIt.MpscExecutor
