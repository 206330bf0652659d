import LogIt.Deque.Impl.Executor

/-!
This module contains the executors that a logger can pass its messages to: the global `TaskExecutor`
and the `SingleThreadExecutor`s that it creates for itself, both with a deque. What the logger does
with them is added by the loggers, all other steps are here.
-/

namespace LogIt

structure AsyncConfig where
  async : Bool
  useDedicatedExecutor : Bool
  queueCapacity : Nat
  queuePolicy : QueuePolicy
  deriving DecidableEq

def AsyncConfig.ownsExecutor (config : AsyncConfig) : Bool :=
  config.async && config.useDedicatedExecutor

/--
The dedicated executors are named by the order in which they were created.
-/
inductive Route where
  | global
  | dedicated (i : Nat)
  deriving DecidableEq

def Route.variant (r : Route) : DequeExecutor.Variant :=
  match r with
  | .global => .taskExecutor
  | .dedicated _ => .singleThreadExecutor

def AsyncConfig.route (config : AsyncConfig) (executor : Option Nat) : Option Route :=
  if config.async then
    match executor with
    | some i => some (.dedicated i)
    | none => some .global
  else
    none

/--
`message` is what a task writes if it is one of the logger. `written` is history.
-/
structure Executors (ι μ : Type) where
  exec : Route → DequeExecutor.State ι
  created : Nat
  message : Route → Nat → Option μ
  written : List μ

namespace Executors

variable {ι μ : Type} [DecidableEq ι] [Fintype ι]

def init : Executors ι μ where
  exec _ := DequeExecutor.init
  created := 0
  message _ _ := none
  written := []

def initDedicated (config : AsyncConfig) : Executors ι μ where
  exec := Function.update (fun _ => DequeExecutor.init) (.dedicated 0)
    { DequeExecutor.init with
      maxQueueSize := config.queueCapacity
      overflowPolicy := config.queuePolicy
    }
  created := 1
  message _ _ := none
  written := []

variable (x : Executors ι μ)

def act (r : Route) (a : DequeExecutor.Action ι) : Option (Executors ι μ) :=
  match DequeExecutor.step r.variant (x.exec r) a with
  | some exec =>
    some { x with
      exec := Function.update x.exec r exec
      written := x.written ++ ((x.exec r).output (x.message r) a).toList
    }
  | none => none

def setMessage (r : Route) (t : Nat) (m : μ) : Executors ι μ :=
  { x with message := Function.update x.message r (Function.update (x.message r) t (some m)) }

def send (r : Route) (c : ι) (m : μ) : Option (Executors ι μ) :=
  (x.setMessage r (x.exec r).submitted m).act r (.addTask c true)

def create : Executors ι μ :=
  { x with
    exec := Function.update x.exec (.dedicated x.created) DequeExecutor.init
    created := x.created + 1
    message := Function.update x.message (.dedicated x.created) (fun _ => none)
  }

def write (m : μ) : Executors ι μ :=
  { x with written := x.written ++ [m] }

def idle (r : Route) (c : ι) : Bool :=
  decide ((x.exec r).clients c = .idle)

/--
Only the logger calls its own executors, and a thread in a call of the logger makes no other calls.
-/
def admits (busy : ι → Bool) (r : Route) (a : DequeExecutor.Action ι) : Bool :=
  match r, a with
  | .global, a => !a.calls || !a.client.any busy
  | .dedicated _, .setQueuePolicy _ => false
  | .dedicated _, .resetDroppedTasks => false
  | .dedicated i, a => decide (i < x.created) && !a.calls

end Executors
end LogIt
