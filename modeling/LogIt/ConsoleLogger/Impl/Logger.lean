import LogIt.Executors.Impl.Routes

/-!
This module contains what the threads of a `ConsoleLogger` do with its executors. A call of
`write_colored_message` is one step. `m_mutex` is only left locked between steps by a thread that
configures the executor.

A message is named by its thread and the number of `log()` calls of the thread before. A wait for
the condition variable is a step that cannot be made before there are no pending enqueues.
-/

namespace LogIt.ConsoleLogger

/--
`before` are the messages whose `log()` had returned when `wait()` was called.
-/
inductive ClientPc (ι : Type) where
  | idle
  -- in `log()` with `m_pending_enqueues` incremented, about to call `add_task`
  | log (r : Route) (m : ι × Nat)
  -- in the `add_task` of `log()`
  | logAdding (r : Route) (m : ι × Nat)
  -- in `set_config`, about to apply the configuration
  | config (config : AsyncConfig)
  -- about to call `set_max_queue_size`
  | limit
  -- in `set_max_queue_size` and after it about to call `set_queue_policy`
  | policy
  -- about to shut an executor down that the logger does not use anymore
  | close (i : Nat)
  | closing (i : Nat)
  -- in `wait()`, about to copy the executor
  | wait (before : List (ι × Nat))
  -- about to call the `wait()` of the executor
  | waitCall (r : Route) (before : List (ι × Nat))
  | waiting (r : Route) (before : List (ι × Nat))
  | waitReturned (before : List (ι × Nat))
  -- in `shutdown()`, after the flag was set
  | shutdown
  -- about to call the `wait()` of the global executor
  | shutdownWait
  | shutdownWaiting
  deriving DecidableEq

def ClientPc.free {ι : Type} (pc : ClientPc ι) : Bool :=
  match pc with
  | .idle | .waitReturned _ => true
  | _ => false

/--
`logged` and `returned` are history.
-/
structure State (ι : Type) where
  executors : Executors ι (ι × Nat)
  config : AsyncConfig
  executor : Option Nat
  shutdown : Bool
  pendingEnqueues : Nat
  mutexLocked : Bool
  clients : ι → ClientPc ι
  logged : ι → Nat
  returned : List (ι × Nat)

inductive Action (ι : Type) where
  -- the critical section of `log()`
  | log (c : ι)
  | logAdd (c : ι)
  | logReturn (c : ι)
  | setConfig (c : ι) (config : AsyncConfig)
  -- the critical section of `set_config`
  | configSwitch (c : ι)
  | limit (c : ι)
  | policy (c : ι)
  | close (c : ι)
  | closed (c : ι)
  | wait (c : ι)
  -- the critical section of `wait()`
  | waitLock (c : ι)
  | waitCall (c : ι)
  | waitReturn (c : ι)
  | shutdown (c : ι)
  -- the critical section of `shutdown()`
  | shutdownLock (c : ι)
  | shutdownWait (c : ι)
  | shutdownWaited (c : ι)
  -- a step of an executor
  | exec (r : Route) (a : DequeExecutor.Action ι)

section Step

variable {ι : Type} [DecidableEq ι]

namespace State

variable (s : State ι)

def route : Option Route :=
  s.config.route s.executor

def setClient (c : ι) (pc : ClientPc ι) : State ι :=
  { s with clients := Function.update s.clients c pc }

def calls (c : ι) : Bool :=
  (s.clients c).free && s.executors.idle .global c

def settled : Bool :=
  !s.mutexLocked && s.pendingEnqueues == 0

def accept (c : ι) : State ι :=
  let m := (c, s.logged c)
  let logged := Function.update s.logged c (s.logged c + 1)
  match s.route with
  | none =>
    { s.setClient c .idle with
      executors := s.executors.write m
      logged := logged
      returned := s.returned ++ [m]
    }
  | some r =>
    { s.setClient c (.log r m) with
      pendingEnqueues := s.pendingEnqueues + 1
      logged := logged
    }

def switch (c : ι) (config : AsyncConfig) : State ι :=
  if config.ownsExecutor then
    match s.executor with
    | some _ => { s.setClient c .limit with config := config, mutexLocked := true }
    | none =>
      { s.setClient c .limit with
        config := config
        executors := s.executors.create
        executor := some s.executors.created
        mutexLocked := true
      }
  else
    match s.executor with
    | some i => { s.setClient c (.close i) with config := config, executor := none }
    | none => { s.setClient c .idle with config := config }

def admits (r : Route) (a : DequeExecutor.Action ι) : Bool :=
  s.executors.admits (fun c => !(s.clients c).free) r a
    && !(s.mutexLocked && ((s.executors.exec r).output (s.executors.message r) a).isSome)

end State

variable [Fintype ι]

def step (s : State ι) (a : Action ι) : Option (State ι) :=
  match a with
  | .log c =>
    if s.calls c && !s.mutexLocked then
      if s.shutdown then
        some (s.setClient c .idle)
      else
        some (s.accept c)
    else
      none
  | .logAdd c =>
    match s.clients c with
    | .log r m =>
      (s.executors.send r c m).map (fun x => { s.setClient c (.logAdding r m) with executors := x })
    | _ => none
  | .logReturn c =>
    match s.clients c with
    | .logAdding r m =>
      if s.executors.idle r c && !s.mutexLocked then
        some { s.setClient c .idle with
          pendingEnqueues := s.pendingEnqueues - 1
          returned := s.returned ++ [m]
        }
      else
        none
    | _ => none
  | .setConfig c config =>
    if s.calls c && !s.mutexLocked then
      if s.shutdown then
        some (s.setClient c .idle)
      else
        some (s.setClient c (.config config))
    else
      none
  | .configSwitch c =>
    match s.clients c with
    | .config config =>
      if s.settled then
        some (s.switch c config)
      else
        none
    | _ => none
  | .limit c =>
    match s.clients c, s.executor with
    | .limit, some i =>
      (s.executors.act (.dedicated i) (.setMaxQueueSize c s.config.queueCapacity)).map
        (fun x => { s.setClient c .policy with executors := x })
    | _, _ => none
  | .policy c =>
    match s.clients c, s.executor with
    | .policy, some i =>
      if s.executors.idle (.dedicated i) c then
        (s.executors.act (.dedicated i) (.setQueuePolicy s.config.queuePolicy)).map
          (fun x => { s.setClient c .idle with executors := x, mutexLocked := false })
      else
        none
    | _, _ => none
  | .close c =>
    match s.clients c with
    | .close i =>
      (s.executors.act (.dedicated i) (.shutdown c false)).map
        (fun x => { s.setClient c (.closing i) with executors := x })
    | _ => none
  | .closed c =>
    match s.clients c with
    | .closing i =>
      if s.executors.idle (.dedicated i) c then
        some (s.setClient c .idle)
      else
        none
    | _ => none
  | .wait c =>
    if s.calls c then
      some (s.setClient c (.wait s.returned))
    else
      none
  | .waitLock c =>
    match s.clients c with
    | .wait before =>
      if s.settled then
        match s.route with
        | none => some (s.setClient c (.waitReturned before))
        | some r => some (s.setClient c (.waitCall r before))
      else
        none
    | _ => none
  | .waitCall c =>
    match s.clients c with
    | .waitCall r before =>
      (s.executors.act r (.wait c)).map
        (fun x => { s.setClient c (.waiting r before) with executors := x })
    | _ => none
  | .waitReturn c =>
    match s.clients c with
    | .waiting r before =>
      if s.executors.idle r c then
        some (s.setClient c (.waitReturned before))
      else
        none
    | _ => none
  | .shutdown c =>
    if s.calls c then
      if s.shutdown then
        some (s.setClient c .idle)
      else
        some { s.setClient c .shutdown with shutdown := true }
    else
      none
  | .shutdownLock c =>
    match s.clients c with
    | .shutdown =>
      if s.settled then
        match s.executor with
        | some i => some { s.setClient c (.close i) with executor := none }
        | none => some (s.setClient c (if s.config.async then .shutdownWait else .idle))
      else
        none
    | _ => none
  | .shutdownWait c =>
    match s.clients c with
    | .shutdownWait =>
      (s.executors.act .global (.wait c)).map
        (fun x => { s.setClient c .shutdownWaiting with executors := x })
    | _ => none
  | .shutdownWaited c =>
    match s.clients c with
    | .shutdownWaiting =>
      if s.executors.idle .global c then
        some (s.setClient c .idle)
      else
        none
    | _ => none
  | .exec r a =>
    if s.admits r a then
      (s.executors.act r a).map (fun x => { s with executors := x })
    else
      none

end Step

section System

variable {ι : Type}

def initWith (config : AsyncConfig) (executors : Executors ι (ι × Nat)) (executor : Option Nat)
    : State ι where
  executors := executors
  config := config
  executor := executor
  shutdown := false
  pendingEnqueues := 0
  mutexLocked := false
  clients _ := .idle
  logged _ := 0
  returned := []

def init (config : AsyncConfig) : State ι :=
  if config.ownsExecutor then
    initWith config (Executors.initDedicated config) (some 0)
  else
    initWith config Executors.init none

def system (ι : Type) [DecidableEq ι] [Fintype ι] (config : AsyncConfig)
    : Lts (State ι) (Action ι) where
  init := init config
  step := step

end System
end LogIt.ConsoleLogger
