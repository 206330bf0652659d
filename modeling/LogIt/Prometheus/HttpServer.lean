import Mathlib.Data.Fintype.Basic
import LogIt.Lib.Threads

/-!
This module contains the calls that start and stop the server of `PrometheusHttpServerLogger`. The HTTP
library is a list of server threads, of which a stop of the server ends those that listen.
-/

namespace LogIt.PrometheusHttpServerLogger

open List

inductive Phase where
  | starting
  | listening
  | ended
  deriving DecidableEq

/--
`serverThread` is the thread that `m_server_thread` can join, and `reassigned` whether it was assigned
while it had one.
-/
structure Logger where
  running : Bool
  serverThread : Option Nat
  threads : List Phase
  reassigned : Bool

inductive Pc where
  | idle
  -- in `start`, before `m_running` is set, before the thread is made and before it is assigned
  | starting
  | spawning
  | assigning (thread : Nat)
  -- in `stop`, before the server is stopped, before `joinable` and in `join`
  | stopping
  | stopped
  | joining (thread : Nat)
  deriving DecidableEq

/--
`stop` is also what `shutdown` and the destructor call. `listen` is a step of a server thread.
-/
inductive Action where
  | start
  | stop
  | next
  | listen (thread : Nat)

def serverStop (threads : List Phase) : List Phase :=
  threads.map (fun phase => if phase = .listening then .ended else phase)

def step {ι : Type} (m : Logger) (_ : ι) (pc : Pc) (action : Action) : Option (Logger × Pc) :=
  match action, pc with
  | .listen thread, pc =>
    if m.threads[thread]? = some .starting then
      some ({ m with threads := m.threads.set thread .listening }, pc)
    else
      none
  | .start, .idle => some (m, if m.running then .idle else .starting)
  | .stop, .idle => some ({ m with running := false }, if m.running then .stopping else .idle)
  | .next, .starting => some ({ m with running := true }, .spawning)
  | .next, .spawning =>
    some ({ m with threads := m.threads ++ [.starting] }, .assigning m.threads.length)
  | .next, .assigning thread =>
    some ({ m with
      serverThread := some thread, reassigned := m.reassigned || m.serverThread.isSome }, .idle)
  | .next, .stopping => some ({ m with threads := serverStop m.threads }, .stopped)
  | .next, .stopped => some (m, m.serverThread.elim .idle .joining)
  | .next, .joining thread =>
    if m.threads[thread]? = some .ended then
      some ({ m with serverThread := none }, .idle)
    else
      none
  | _, _ => none

def system (ι : Type) [DecidableEq ι] : Lts (Threads.State Logger ι Pc) (ι × Action) :=
  Threads.system { running := false, serverThread := none, threads := [], reassigned := false } .idle
    step

/--
The last conjunct is that no thread waits for a server that no stop can end.
-/
def Safe {ι : Type} (s : Threads.State Logger ι Pc) : Prop :=
  s.shared.threads.countP (· != .ended) ≤ 1 ∧ s.shared.reassigned = false
    ∧ ∀ i thread, s.pc i = .joining thread → s.shared.threads[thread]? ≠ some .ended →
        ∃ j, s.pc j = .stopping

/--
The server listens before it is stopped.
-/
def Listens {ι : Type} (s : Threads.State Logger ι Pc) (action : ι × Action) : Prop :=
  match action.2 with
  | .stop => Phase.starting ∉ s.shared.threads
  | _ => True

/--
What `m_running`, `m_server_thread` and the last server thread are at each point of a call, if `n` server
threads have ended before.
-/
inductive Fits (n : Nat) : Bool → Option Nat → Pc → Option Phase → Prop where
  | idle : Fits n false none .idle none
  | starting : Fits n false none .starting none
  | spawning : Fits n true none .spawning none
  | assigning (h : phase ≠ .ended) : Fits n true none (.assigning n) (some phase)
  | serving (h : phase ≠ .ended) : Fits n true (some n) .idle (some phase)
  | stopping : Fits n false (some n) .stopping (some .listening)
  | stopped : Fits n false (some n) .stopped (some .ended)
  | joining : Fits n false (some n) (.joining n) (some .ended)

def Inv (m : Logger) (pc : Pc) : Prop :=
  ∃ (n : Nat) (last : Option Phase), m.threads = replicate n .ended ++ last.toList
    ∧ Fits n m.running m.serverThread pc last ∧ m.reassigned = false

theorem last_of_starting {last : Option Phase}
    (h : (replicate n .ended ++ last.toList)[i]? = some .starting)
    : i = n ∧ last = some .starting := by
  rw [getElem?_append] at h
  split at h
  . rw [getElem?_replicate] at h
    simp at h
  . cases last with
    | none => simp at h
    | some phase =>
      simp [getElem?_singleton] at *
      exact ⟨by omega, h.2⟩

theorem Inv.step {ι : Type} {i : ι} (h : Inv m pc)
    (hlistens : action = .stop → Phase.starting ∉ m.threads)
    (hstep : step m i pc action = some (m', pc'))
    : Inv m' pc' := by
  unfold PrometheusHttpServerLogger.step at hstep
  obtain ⟨running, serverThread, threads, reassigned⟩ := m
  obtain ⟨n, last, rfl, hfits, rfl⟩ := h
  split at hstep
  . next thread =>
    obtain ⟨hphase, hstep⟩ := Option.ite_none_right_eq_some.mp hstep
    cases hstep
    obtain ⟨rfl, rfl⟩ := last_of_starting hphase
    refine ⟨thread, some .listening, (set_append_right _ _ (by simp)).trans (by simp), ?_, rfl⟩
    cases hfits with
    | assigning => exact .assigning (by simp)
    | serving => exact .serving (by simp)
  . cases hstep
    cases hfits with
    | idle => exact ⟨n, none, rfl, .starting, rfl⟩
    | serving h => exact ⟨n, _, rfl, .serving h, rfl⟩
  . cases hstep
    cases hfits with
    | idle => exact ⟨n, none, rfl, .idle, rfl⟩
    | @serving phase h =>
      cases phase with
      | starting => simp at hlistens
      | listening => exact ⟨n, _, rfl, .stopping, rfl⟩
      | ended => contradiction
  . cases hstep
    cases hfits
    exact ⟨n, none, rfl, .spawning, rfl⟩
  . cases hstep
    cases hfits
    refine ⟨n, some .starting, by simp, ?_, rfl⟩
    rw [Option.toList_none, append_nil, length_replicate]
    exact .assigning (by simp)
  . cases hstep
    cases hfits with
    | assigning h => exact ⟨_, _, rfl, .serving h, rfl⟩
  . cases hstep
    cases hfits
    exact ⟨_, some .ended, by simp [serverStop], .stopped, rfl⟩
  . cases hstep
    cases hfits
    exact ⟨_, _, rfl, .joining, rfl⟩
  . obtain ⟨hended, hstep⟩ := Option.ite_none_right_eq_some.mp hstep
    cases hstep
    cases hfits
    exact ⟨n + 1, none, by simp [replicate_succ'], .idle, rfl⟩
  . contradiction

instance {ι : Type} (s : Threads.State Logger ι Pc) (action : ι × Action)
    : Decidable (Listens s action) := by
  unfold Listens
  split <;> infer_instance

end LogIt.PrometheusHttpServerLogger
