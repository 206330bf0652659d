import LogIt.Executors.Impl.Routes

/-!
This module contains what the threads of a `FileLogger` do with its executors. A call of `write_log`
is one step and does not fail. A thread that waits for `m_lifecycle_mutex` does not appear until it
gets it, and `m_mutex` is only left locked between steps by the threads that reconfigure the
executor.

A message is named by the number of its `log()` call.
-/

namespace LogIt.FileLogger
namespace Lifecycle

/--
`before` are the messages that were accepted when `wait()` was called.
-/
inductive ClientPc where
  | idle
  -- in `log()`, about to write or to call `add_task`
  | log (m : Nat)
  -- in the `add_task` of `log()`
  | logAdding (m : Nat)
  -- in `set_config`, about to wait for the executor
  | config (config : AsyncConfig)
  -- in the `wait()` of `set_config`
  | configWaiting (config : AsyncConfig)
  -- in `set_config`, about to switch
  | configSwitch (config : AsyncConfig)
  -- about to call `set_max_queue_size`
  | limit
  -- in `set_max_queue_size` and after it about to call `set_queue_policy`
  | policy
  -- in `set_config`, about to shut the old executor down
  | configClose (i : Nat)
  | configClosing (i : Nat)
  -- in the `wait()` of the executor
  | waiting (before : List Nat)
  | waitReturned (before : List Nat)
  -- in `shutdown()`, after the flag was set
  | shutdown
  -- in the `shutdown()` of the executor
  | closing (i : Nat)
  -- in the `wait()` that `shutdown()` calls
  | shutdownWaiting
  deriving DecidableEq

namespace ClientPc

def free (pc : ClientPc) : Bool :=
  match pc with
  | .idle | .waitReturned _ => true
  | _ => false

def holds (pc : ClientPc) : Bool :=
  match pc with
  | .log _ | .logAdding _ | .config _ | .configWaiting _ | .configSwitch _ | .limit | .policy
  | .waiting _ | .shutdownWaiting => true
  | _ => false

end ClientPc

/--
The fields from `logged` on are history. `accepted` have passed the shutdown check, and
`shutdownFinished` says that the `shutdown()` that has set the flag has returned.
-/
structure State (ι : Type) where
  executors : Executors ι Nat
  config : AsyncConfig
  executor : Option Nat
  shutdown : Bool
  lifecycle : Option ι
  mutexLocked : Bool
  clients : ι → ClientPc
  logged : Nat
  accepted : List Nat
  shutdownReturned : Bool
  shutdownFinished : Bool

inductive Action (ι : Type) where
  -- `c` calls `log()` and locks the lifecycle mutex
  | log (c : ι)
  | logRun (c : ι)
  | logReturn (c : ι)
  | setConfig (c : ι) (config : AsyncConfig)
  | configWait (c : ι)
  | configWaited (c : ι)
  | configSwitch (c : ι)
  | setQueueConfig (c : ι) (capacity : Nat) (policy : QueuePolicy)
  | limit (c : ι)
  | policy (c : ι)
  | configClose (c : ι)
  | configClosed (c : ι)
  | wait (c : ι)
  | waitReturn (c : ι)
  | shutdown (c : ι)
  | shutdownRun (c : ι)
  | shutdownClosed (c : ι)
  | shutdownWaited (c : ι)
  -- a step of an executor
  | exec (r : Route) (a : DequeExecutor.Action ι)

section Step

variable {ι : Type} [DecidableEq ι]

namespace State

def route (s : State ι) : Option Route :=
  s.config.route s.executor

section

variable (s : State ι) (c : ι)

def setClient (pc : ClientPc) : State ι :=
  { s with clients := Function.update s.clients c pc }

def enters : Bool :=
  (s.clients c).free && s.executors.idle .global c && s.lifecycle.isNone

def lock (pc : ClientPc) : State ι :=
  { s.setClient c pc with lifecycle := some c }

def unlock (pc : ClientPc) : State ι :=
  { s.setClient c pc with lifecycle := none }

def switch (config : AsyncConfig) : State ι :=
  if config.ownsExecutor then
    match s.executor with
    | some _ => { s.setClient c .limit with config := config, mutexLocked := true }
    | none =>
      { s.setClient c .limit with
        config := config
        executors := s.executors.create
        executor := some s.executors.created
        mutexLocked := true
      }
  else
    match s.executor with
    | some i => { s.unlock c (.configClose i) with config := config, executor := none }
    | none => { s.unlock c .idle with config := config }

def finish : State ι :=
  { s.setClient c .idle with shutdownReturned := true, shutdownFinished := true }

end

def admits (s : State ι) (r : Route) (a : DequeExecutor.Action ι) : Bool :=
  s.executors.admits (fun c => !(s.clients c).free) r a
    && !(s.mutexLocked && ((s.executors.exec r).output (s.executors.message r) a).isSome)

end State

variable [Fintype ι]

def step (s : State ι) (a : Action ι) : Option (State ι) :=
  match a with
  | .log c =>
    if s.enters c then
      if s.shutdown then
        some { s.setClient c .idle with logged := s.logged + 1 }
      else
        some { s.lock c (.log s.logged) with
          logged := s.logged + 1
          accepted := s.accepted ++ [s.logged]
        }
    else
      none
  | .logRun c =>
    match s.clients c, s.route with
    | .log m, none =>
      if s.mutexLocked then
        none
      else
        some { s.unlock c .idle with executors := s.executors.write m }
    | .log m, some r =>
      (s.executors.send r c m).map (fun x => { s.setClient c (.logAdding m) with executors := x })
    | _, _ => none
  | .logReturn c =>
    match s.clients c, s.route with
    | .logAdding _, some r =>
      if s.executors.idle r c then
        some (s.unlock c .idle)
      else
        none
    | _, _ => none
  | .setConfig c config =>
    if s.enters c then
      if s.shutdown then
        some (s.setClient c .idle)
      else
        some (s.lock c (.config config))
    else
      none
  | .configWait c =>
    match s.clients c, s.route with
    | .config config, none => some (s.setClient c (.configSwitch config))
    | .config config, some r =>
      (s.executors.act r (.wait c)).map
        (fun x => { s.setClient c (.configWaiting config) with executors := x })
    | _, _ => none
  | .configWaited c =>
    match s.clients c, s.route with
    | .configWaiting config, some r =>
      if s.executors.idle r c then
        some (s.setClient c (.configSwitch config))
      else
        none
    | _, _ => none
  | .configSwitch c =>
    match s.clients c with
    | .configSwitch config =>
      if s.mutexLocked then
        none
      else
        some (s.switch c config)
    | _ => none
  | .setQueueConfig c capacity policy =>
    if s.enters c then
      if s.shutdown then
        some (s.setClient c .idle)
      else if s.mutexLocked then
        none
      else
        let config := { s.config with queueCapacity := capacity, queuePolicy := policy }
        match s.executor with
        | none => some { s.setClient c .idle with config := config }
        | some _ => some { s.lock c .limit with config := config, mutexLocked := true }
    else
      none
  | .limit c =>
    match s.clients c, s.executor with
    | .limit, some i =>
      (s.executors.act (.dedicated i) (.setMaxQueueSize c s.config.queueCapacity)).map
        (fun x => { s.setClient c .policy with executors := x })
    | _, _ => none
  | .policy c =>
    match s.clients c, s.executor with
    | .policy, some i =>
      if s.executors.idle (.dedicated i) c then
        (s.executors.act (.dedicated i) (.setQueuePolicy s.config.queuePolicy)).map
          (fun x => { s.unlock c .idle with executors := x, mutexLocked := false })
      else
        none
    | _, _ => none
  | .configClose c =>
    match s.clients c with
    | .configClose i =>
      (s.executors.act (.dedicated i) (.shutdown c false)).map
        (fun x => { s.setClient c (.configClosing i) with executors := x })
    | _ => none
  | .configClosed c =>
    match s.clients c with
    | .configClosing i =>
      if s.executors.idle (.dedicated i) c then
        some (s.setClient c .idle)
      else
        none
    | _ => none
  | .wait c =>
    if s.enters c then
      match s.route with
      | none => some (s.setClient c (.waitReturned s.accepted))
      | some r =>
        (s.executors.act r (.wait c)).map
          (fun x => { s.lock c (.waiting s.accepted) with executors := x })
    else
      none
  | .waitReturn c =>
    match s.clients c, s.route with
    | .waiting before, some r =>
      if s.executors.idle r c then
        some (s.unlock c (.waitReturned before))
      else
        none
    | _, _ => none
  | .shutdown c =>
    if s.enters c then
      if s.shutdown then
        some { s.setClient c .idle with shutdownReturned := true }
      else
        some { s.setClient c .shutdown with shutdown := true }
    else
      none
  | .shutdownRun c =>
    match s.clients c, s.executor with
    | .shutdown, some i =>
      (s.executors.act (.dedicated i) (.shutdown c false)).map
        (fun x => { s.setClient c (.closing i) with executors := x })
    | .shutdown, none =>
      if s.config.async then
        -- This is the `wait()` of the logger, which locks the lifecycle mutex again.
        if s.lifecycle.isNone then
          (s.executors.act .global (.wait c)).map
            (fun x => { s.lock c .shutdownWaiting with executors := x })
        else
          none
      else
        some (s.finish c)
    | _, _ => none
  | .shutdownClosed c =>
    match s.clients c with
    | .closing i =>
      if s.executors.idle (.dedicated i) c then
        some (s.finish c)
      else
        none
    | _ => none
  | .shutdownWaited c =>
    match s.clients c with
    | .shutdownWaiting =>
      if s.executors.idle .global c then
        some { s.finish c with lifecycle := none }
      else
        none
    | _ => none
  | .exec r a =>
    if s.admits r a then
      (s.executors.act r a).map (fun x => { s with executors := x })
    else
      none

end Step

section System

variable {ι : Type}

def initWith (config : AsyncConfig) (executors : Executors ι Nat) (executor : Option Nat)
    : State ι where
  executors := executors
  config := config
  executor := executor
  shutdown := false
  lifecycle := none
  mutexLocked := false
  clients _ := .idle
  logged := 0
  accepted := []
  shutdownReturned := false
  shutdownFinished := false

def init (config : AsyncConfig) : State ι :=
  if config.ownsExecutor then
    initWith config (Executors.initDedicated config) (some 0)
  else
    initWith config Executors.init none

def system (ι : Type) [DecidableEq ι] [Fintype ι] (config : AsyncConfig)
    : Lts (State ι) (Action ι) where
  init := init config
  step := step

end System
end Lifecycle
end LogIt.FileLogger
