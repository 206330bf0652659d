import LogIt.Lib.Threads
import LogIt.Mdbx.Impl.Codec

/-!
This module contains the registry of `Logger.hpp` with several threads. Each access to a shared
atomic, each lock and unlock of a mutex and each entry to and return from a backend is one step.

The only reader of `m_loggers_mx` here is the one `shutdown()` that goes on, so it makes no
difference whether the mutex can be shared.
-/

namespace LogIt.Logger

open MdbxLogger (LogLevel)

structure LoggerStrategy where
  singleMode : Bool
  enabled : Bool
  concurrentDispatch : Bool
  deriving DecidableEq

/--
What the logger and the formatter, if there is one, say about concurrent calls.
-/
structure Registration where
  supportsConcurrentLog : Bool
  supportsConcurrentFormat : Option Bool
  singleMode : Bool

def Registration.strategy (registration : Registration) : LoggerStrategy where
  singleMode := registration.singleMode
  enabled := true
  concurrentDispatch :=
    registration.supportsConcurrentLog && registration.supportsConcurrentFormat.getD true

structure LogRecord where
  loggerIndex : Int
  rawMode : Bool
  logLevel : LogLevel

def LogRecord.targeted (record : LogRecord) : Bool :=
  decide (0 ≤ record.loggerIndex)

inductive Flag where
  | enabled (value : Bool)
  | singleMode (value : Bool)

def Flag.store (flag : Flag) (strategy : LoggerStrategy) : LoggerStrategy :=
  match flag with
  | .enabled value => { strategy with enabled := value }
  | .singleMode value => { strategy with singleMode := value }

inductive Operation where
  | addLogger (registration : Registration)
  | setLoggerEnabled (index : Int) (enabled : Bool)
  | setLoggerSingleMode (index : Int) (singleMode : Bool)
  | log (record : LogRecord)
  | shutdown

inductive LogPhase where
  -- at the head of the loop, about to lock `exec_mx`
  | next
  -- about to load `m_shutdown`
  | check
  -- about to load `single_mode`
  | singleMode
  -- about to load `enabled`
  | enabled
  -- about to ask the backend for its level
  | level
  -- about to format the record and to call the backend
  | format
  -- in the `log()` of the backend
  | logging
  -- about to unlock `exec_mx` and to go on
  | leave
  -- about to unlock `exec_mx` because of an exception
  | throwing
  deriving DecidableEq

inductive ShutdownPhase where
  -- at the head of the loop, about to lock `exec_mx`
  | next
  -- about to call the `shutdown()` of the backend
  | enter
  -- in the `shutdown()` of the backend
  | inside
  -- about to unlock `exec_mx` and to go on
  | leave
  -- about to unlock `exec_mx` because of an exception
  | throwing
  deriving DecidableEq

/--
A strategy is given by its position in `m_loggers`. `invoked` are those whose backend this call of
`log` has called so far.
-/
inductive Pc where
  | idle
  -- `add_logger` is about to load `m_shutdown` for the first time
  | addStart (registration : Registration)
  | addLock (strategy : LoggerStrategy)
  -- `add_logger` is about to load `m_shutdown` again, with the registry locked
  | addCheck (strategy : LoggerStrategy)
  | addPush (strategy : LoggerStrategy)
  | addPublish
  -- `set_logger_enabled` or `set_logger_single_mode` is about to load `m_shutdown`
  | setStart (index : Int) (flag : Flag)
  | setLock (index : Int) (flag : Flag)
  | setStore (index : Int) (flag : Flag)
  -- about to unlock the registry and to return
  | unlock
  | logStart (record : LogRecord)
  -- `log` is about to load the snapshot
  | logLoad (record : LogRecord)
  | log (record : LogRecord) (rest invoked : List Nat) (phase : LogPhase)
  -- `shutdown` is about to exchange `m_shutdown`
  | shutdownStart
  | shutdownLock
  -- `shutdown` is about to copy `m_loggers`, with the registry locked
  | shutdownCopy
  | shutdownUnlock (rest : List Nat)
  | shutdown (rest : List Nat) (phase : ShutdownPhase)
  -- `shutdown` is about to shut down the `TaskExecutor`
  | shutdownExecutor

def Operation.start (operation : Operation) : Pc :=
  match operation with
  | .addLogger registration => .addStart registration
  | .setLoggerEnabled index value => .setStart index (.enabled value)
  | .setLoggerSingleMode index value => .setStart index (.singleMode value)
  | .log record => .logStart record
  | .shutdown => .shutdownStart

/--
`m_loggers` has `size` elements, which are never removed. The last four fields are history: the
thread that has found `m_shutdown` unset, whether it has copied `m_loggers`, the calls of
`shutdown()` of a backend in their order, and whether it has returned.
-/
structure Registry (ι : Type) where
  isShutdown : Bool
  size : Nat
  strategies : Nat → LoggerStrategy
  snapshot : Option (List Nat)
  registryOwner : Option ι
  execOwner : Nat → Option ι
  first : Option ι
  copied : Bool
  shutdownCalls : List Nat
  firstReturned : Bool

namespace Registry

variable {ι : Type}

def new (ι : Type) : Registry ι where
  isShutdown := false
  size := 0
  strategies _ := { singleMode := false, enabled := true, concurrentDispatch := false }
  snapshot := none
  registryOwner := none
  execOwner _ := none
  first := none
  copied := false
  shutdownCalls := []
  firstReturned := false

variable (m : Registry ι)

def pushBack (strategy : LoggerStrategy) : Registry ι :=
  { m with
    size := m.size + 1
    strategies := Function.update m.strategies m.size strategy }

def loggers : List Nat :=
  List.range m.size

def publishStrategySnapshotLocked : Registry ι :=
  { m with snapshot := some m.loggers }

def storeFlag (index : Int) (flag : Flag) : Registry ι :=
  if 0 ≤ index ∧ index < m.size then
    { m with
      strategies :=
        Function.update m.strategies index.toNat (flag.store (m.strategies index.toNat)) }
  else
    m

def setRegistryOwner (owner : Option ι) : Registry ι :=
  { m with registryOwner := owner }

def setExecOwner (p : Nat) (owner : Option ι) : Registry ι :=
  { m with execOwner := Function.update m.execOwner p owner }

def lockRegistry (i : ι) (pc : Pc) : Option (Registry ι × Pc) :=
  match m.registryOwner with
  | none => some (m.setRegistryOwner (some i), pc)
  | some _ => none

def lockExec (i : ι) (p : Nat) (pc : Pc) : Option (Registry ι × Pc) :=
  match m.execOwner p with
  | none => some (m.setExecOwner p (some i), pc)
  | some _ => none

def unlockDispatch (p : Nat) : Registry ι :=
  if (m.strategies p).concurrentDispatch then m else m.setExecOwner p none

end Registry

def dispatch (snapshot : Option (List Nat)) (record : LogRecord) : Pc :=
  match snapshot with
  | none => .idle
  | some strategies =>
    if record.targeted then
      match strategies[record.loggerIndex.toNat]? with
      | none => .idle
      | some p => .log record [p] [] .next
    else
      .log record strategies [] .next

inductive Choice where
  | call (operation : Operation)
  | run
  | throw
  | level (level : LogLevel)

section Step

variable {ι : Type}

section

variable (m : Registry ι)

def runLog (i : ι) (record : LogRecord) (rest invoked : List Nat)
    (phase : LogPhase) : Option (Registry ι × Pc) :=
  match rest with
  | [] => some (m, .idle)
  | p :: tail =>
    match phase with
    | .next =>
      if (m.strategies p).concurrentDispatch then
        some (m, .log record rest invoked .check)
      else
        m.lockExec i p (.log record rest invoked .check)
    | .check => some (m, .log record rest invoked (if m.isShutdown then .leave else .singleMode))
    | .singleMode =>
      let skips := !record.targeted && (m.strategies p).singleMode
      some (m, .log record rest invoked (if skips then .leave else .enabled))
    | .enabled =>
      some (m, .log record rest invoked (if (m.strategies p).enabled then .level else .leave))
    | .level => none
    | .format => some (m, .log record rest (invoked ++ [p]) .logging)
    | .logging => some (m, .log record rest invoked .leave)
    | .leave => some (m.unlockDispatch p, .log record tail invoked .next)
    | .throwing => some (m.unlockDispatch p, .idle)

def runShutdown (i : ι) (rest : List Nat) (phase : ShutdownPhase) : Option (Registry ι × Pc) :=
  match rest with
  | [] => some (m, .shutdownExecutor)
  | p :: tail =>
    match phase with
    | .next => m.lockExec i p (.shutdown rest .enter)
    | .enter => some ({ m with shutdownCalls := m.shutdownCalls ++ [p] }, .shutdown rest .inside)
    | .inside => some (m, .shutdown rest .leave)
    | .leave => some (m.setExecOwner p none, .shutdown tail .next)
    | .throwing => some (m.setExecOwner p none, .idle)

def run (i : ι) (pc : Pc) : Option (Registry ι × Pc) :=
  match pc with
  | .idle => none
  | .addStart registration =>
    some (m, if m.isShutdown then .idle else .addLock registration.strategy)
  | .addLock strategy => m.lockRegistry i (.addCheck strategy)
  | .addCheck strategy => some (m, if m.isShutdown then .unlock else .addPush strategy)
  | .addPush strategy => some (m.pushBack strategy, .addPublish)
  | .addPublish => some (m.publishStrategySnapshotLocked, .unlock)
  | .setStart index flag => some (m, if m.isShutdown then .idle else .setLock index flag)
  | .setLock index flag => m.lockRegistry i (.setStore index flag)
  | .setStore index flag => some (m.storeFlag index flag, .unlock)
  | .unlock => some (m.setRegistryOwner none, .idle)
  | .logStart record => some (m, if m.isShutdown then .idle else .logLoad record)
  | .logLoad record => some (m, dispatch m.snapshot record)
  | .log record rest invoked phase => runLog m i record rest invoked phase
  | .shutdownStart =>
    if m.isShutdown then
      some (m, .idle)
    else
      some ({ m with isShutdown := true, first := some i }, .shutdownLock)
  | .shutdownLock => m.lockRegistry i .shutdownCopy
  | .shutdownCopy => some ({ m with copied := true }, .shutdownUnlock m.loggers)
  | .shutdownUnlock rest => some (m.setRegistryOwner none, .shutdown rest .next)
  | .shutdown rest phase => runShutdown m i rest phase
  | .shutdownExecutor => some ({ m with firstReturned := true }, .idle)

/--
The exception of an allocation, of the formatter or of the backend.
-/
def throw (pc : Pc) : Option (Registry ι × Pc) :=
  match pc with
  | .addStart _ => some (m, .idle)
  | .addPush _ => some (m, .unlock)
  | .addPublish => some (m, .unlock)
  | .log record rest invoked .format =>
    if record.rawMode then none else some (m, .log record rest invoked .throwing)
  | .log record rest invoked .logging => some (m, .log record rest invoked .throwing)
  | .shutdownCopy => some (m, .unlock)
  | .shutdown rest .inside => some (m, .shutdown rest .throwing)
  | _ => none

def readLevel (pc : Pc) (level : LogLevel) : Option (Registry ι × Pc) :=
  match pc with
  | .log record rest invoked .level =>
    let skips := !record.rawMode && decide (record.logLevel.value < level.value)
    some (m, .log record rest invoked (if skips then .leave else .format))
  | _ => none

def step (i : ι) (pc : Pc) (choice : Choice) : Option (Registry ι × Pc) :=
  match choice with
  | .call operation =>
    match pc with
    | .idle => some (m, operation.start)
    | _ => none
  | .run => run m i pc
  | .throw => throw m pc
  | .level level => readLevel m pc level

end

variable (ι) [DecidableEq ι]

def system : Lts (Threads.State (Registry ι) ι Pc) (ι × Choice) :=
  Threads.system (Registry.new ι) .idle step

end Step
end LogIt.Logger
