import Mathlib.Logic.Function.Basic
import LogIt.Lib.TaskPool

/-!
This module contains the `UniqueFileLogger` in its asynchronous mode on top of an executor. A
critical section of `m_thread_log_info_mutex` is one step. A thread that waits for one of the other
mutexes does not appear until it gets it.

The executor may have other users, whose calls are steps of the executor alone. `set_config` is not
part of the model.
-/

namespace LogIt.UniqueFileLogger

abbrev Path : Type := List Char

def getFileName (path : Path) : Path :=
  (path.reverse.takeWhile (fun c => c ≠ '/' && c ≠ '\\')).reverse

structure ThreadLogInfo where
  pendingLogs : Int
  lastFilePath : Path
  lastFileName : Path
  deriving DecidableEq

def ThreadLogInfo.new : ThreadLogInfo where
  pendingLogs := 0
  lastFilePath := []
  lastFileName := []

def notAvailable : Path :=
  ['N', 'o', 't', ' ', 'a', 'v', 'a', 'i', 'l', 'a', 'b', 'l', 'e']

def ThreadLogInfo.finish (info : ThreadLogInfo) (path : Path) : ThreadLogInfo :=
  if path.isEmpty then
    { pendingLogs := info.pendingLogs - 1
      lastFilePath := notAvailable
      lastFileName := notAvailable }
  else
    { pendingLogs := info.pendingLogs - 1
      lastFilePath := path
      lastFileName := getFileName path }

/--
`thread` is the `thread_id` of the record that is logged.
-/
inductive ClientPc (ι : Type) where
  | idle
  -- `log()` is about to increment the counter
  | logCount (thread : ι)
  -- `log()` is about to call `add_task`
  | logAdd (thread : ι)
  -- `log()` is in `add_task`, before or after its task was issued
  | logAdding (thread : ι) (issued : Bool)
  -- in the `wait()` of the executor, and after it possibly in `clear_logs`
  | waiting (clears : Bool)
  -- `clear_logs` is about to lock the lifecycle mutex
  | clear
  -- `clear_logs` is about to lock the file mutex and to remove the files
  | clearFiles
  -- `clear_logs` is about to erase the thread infos
  | clearInfo
  deriving DecidableEq

inductive TaskPc (ι : Type) where
  | idle
  -- the file is written, and its path is empty if that has failed
  | wrote (thread : ι) (path : Path)
  -- the counter is decremented
  | updated (thread : ι)
  deriving DecidableEq

/--
`author` is the `thread_id` of the record that a task writes, if it is one of this logger.
-/
structure State (ι σ : Type) where
  exec : σ
  shutdown : Bool
  lifecycleLocked : Bool
  mutexLocked : Bool
  threadLogInfo : ι → Option ThreadLogInfo
  clients : ι → ClientPc ι
  task : TaskPc ι
  author : Nat → Option ι

inductive Action (ι α : Type) where
  -- `c` calls `log()` with a record of `thread` and locks the lifecycle mutex
  | log (c thread : ι)
  | logCount (c : ι)
  | logAdd (c : ι)
  | logReturn (c : ι)
  -- `c` calls `wait()` or `clear_logs` and waits for the executor with the lifecycle mutex locked
  | wait (c : ι) (clears : Bool)
  | waitReturn (c : ι)
  | clear (c : ι)
  | clearFiles (c : ι) (fails : Bool)
  | clearInfo (c : ι)
  | shutdown (c : ι)
  -- a step of the executor
  | exec (a : α)
  -- the task locks the file mutex and writes its file
  | taskWrite (path : Path)
  | taskUpdate

section Step

variable {ι σ α : Type} [DecidableEq ι]

namespace State

def setClient (s : State ι σ) (c : ι) (pc : ClientPc ι) : State ι σ :=
  { s with clients := Function.update s.clients c pc }

def count (s : State ι σ) (c : ι) (thread : ι) : State ι σ :=
  let info := (s.threadLogInfo thread).getD .new
  { s.setClient c (.logAdd thread) with
    threadLogInfo := Function.update s.threadLogInfo thread
      (some { info with pendingLogs := info.pendingLogs + 1 })
  }

def update (s : State ι σ) (thread : ι) (path : Path) : State ι σ :=
  match s.threadLogInfo thread with
  | none => { s with task := .updated thread }
  | some info =>
    { s with
      task := .updated thread
      threadLogInfo := Function.update s.threadLogInfo thread (some (info.finish path))
    }

variable (pool : TaskPool ι σ α) (s : State ι σ) (a : α)

def advance (exec : σ) : State ι σ :=
  if pool.issued exec = pool.issued s.exec then
    { s with exec := exec }
  else
    match pool.client a with
    | none => { s with exec := exec }
    | some c =>
      match s.clients c with
      | .logAdding thread false =>
        { s.setClient c (.logAdding thread true) with
          exec := exec
          author := Function.update s.author (pool.issued s.exec) (some thread)
        }
      | _ => { s with exec := exec }

def execute : Option (State ι σ) :=
  match pool.sys.step s.exec a with
  | none => none
  | some exec => some (s.advance pool a exec)

def endsTask : Bool :=
  match pool.runs a, pool.running s.exec with
  | true, some t => (s.author t).isSome
  | _, _ => false

def interferes : Bool :=
  match pool.calls a, pool.client a with
  | true, some c => decide (s.clients c ≠ .idle)
  | _, _ => false

end State

def step (pool : TaskPool ι σ α) (s : State ι σ) (a : Action ι α) : Option (State ι σ) :=
  match a with
  | .log c thread =>
    if s.lifecycleLocked = true ∨ s.clients c ≠ .idle then
      none
    else if s.shutdown then
      some s
    else
      some { s.setClient c (.logCount thread) with lifecycleLocked := true }
  | .logCount c =>
    match s.clients c with
    | .logCount thread => some (s.count c thread)
    | _ => none
  | .logAdd c =>
    match s.clients c with
    | .logAdd thread => (s.setClient c (.logAdding thread false)).execute pool (pool.addTask c)
    | _ => none
  | .logReturn c =>
    match s.clients c with
    | .logAdding _ _ =>
      if pool.idle s.exec c then
        some { s.setClient c .idle with lifecycleLocked := false }
      else
        none
    | _ => none
  | .wait c clears =>
    if s.lifecycleLocked = true ∨ s.clients c ≠ .idle then
      none
    else
      { s.setClient c (.waiting clears) with lifecycleLocked := true }.execute pool (pool.wait c)
  | .waitReturn c =>
    match s.clients c with
    | .waiting clears =>
      if pool.idle s.exec c then
        some { s.setClient c (if clears then .clear else .idle) with lifecycleLocked := false }
      else
        none
    | _ => none
  | .clear c =>
    match s.clients c with
    | .clear =>
      if s.lifecycleLocked then
        none
      else if s.shutdown then
        some (s.setClient c .idle)
      else
        some { s.setClient c .clearFiles with lifecycleLocked := true }
    | _ => none
  | .clearFiles c fails =>
    match s.clients c with
    | .clearFiles =>
      if s.mutexLocked then
        none
      else if fails then
        some { s.setClient c .idle with lifecycleLocked := false }
      else
        some { s.setClient c .clearInfo with mutexLocked := true }
    | _ => none
  | .clearInfo c =>
    match s.clients c with
    | .clearInfo =>
      some { s.setClient c .idle with
        threadLogInfo := fun _ => none
        mutexLocked := false
        lifecycleLocked := false
      }
    | _ => none
  | .shutdown c =>
    if s.lifecycleLocked = true ∨ s.clients c ≠ .idle then
      none
    else
      some { s with shutdown := true }
  | .exec a =>
    if s.interferes pool a then
      none
    else if s.endsTask pool a then
      match s.task with
      | .updated _ => { s with task := .idle, mutexLocked := false }.execute pool a
      | _ => none
    else
      s.execute pool a
  | .taskWrite path =>
    match s.task, pool.running s.exec with
    | .idle, some t =>
      match s.author t with
      | some thread =>
        if s.mutexLocked then
          none
        else
          some { s with task := .wrote thread path, mutexLocked := true }
      | none => none
    | _, _ => none
  | .taskUpdate =>
    match s.task with
    | .wrote thread path => some (s.update thread path)
    | _ => none

def init (ι : Type) (pool : TaskPool ι σ α) : State ι σ where
  exec := pool.sys.init
  shutdown := false
  lifecycleLocked := false
  mutexLocked := false
  threadLogInfo _ := none
  clients _ := .idle
  task := .idle
  author _ := none

def system (pool : TaskPool ι σ α) : Lts (State ι σ) (Action ι α) where
  init := init ι pool
  step := step pool

end Step

section Getters

variable {ι σ : Type}

def getLastLogFile (field : ThreadLogInfo → Path) (s : State ι σ) (thread : ι) : Option Path :=
  match s.threadLogInfo thread with
  | none => some []
  | some info => if info.pendingLogs = 0 then some (field info) else none

def getLastLogFileName (s : State ι σ) (thread : ι) : Option Path :=
  getLastLogFile ThreadLogInfo.lastFileName s thread

def getLastLogFilePath (s : State ι σ) (thread : ι) : Option Path :=
  getLastLogFile ThreadLogInfo.lastFilePath s thread

end Getters
end LogIt.UniqueFileLogger
