import LogIt.Lib.BatchQueue.Basic

/-!
This module contains the list of what a step of a batch queue can do.
-/

namespace BatchQueue

variable {ι ε ω χ ξ : Type} [DecidableEq ι]

def Action.isWorker (a : Action ι χ ξ) : Bool :=
  match a with
  | .worker _ => true
  | _ => false

variable (cfg : Config) (consumer : Consumer ε ω χ ξ) (s : State ι ε ω) in
inductive Transition : Action ι χ ξ → State ι ε ω → Prop where
  -- a thread that goes on waiting
  | skip {a} (ha : a.isWorker = false) : Transition a s
  | log {c} (hc : (s.clients c).free = true) : Transition (.log c)
        { s.setClient c (.log s.submitted) with submitted := s.submitted + 1 }
  | refuse {a c r} (hc : s.clients c = .log r ∨ s.clients c = .logParked r)
      (hrefuse : s.stopping = true ∨ cfg.full s.queue.length = true) (ha : a.isWorker = false)
    : Transition a (s.refuse c r)
  | park {c r} (hc : s.clients c = .log r) (hfull : cfg.full s.queue.length = true)
    : Transition (.logLock c) (s.setClient c (.logParked r))
  | push {a c r}
      (hc : s.clients c = .log r ∨ s.clients c = .logParked r) (hstop : s.stopping = false)
      (ha : a.isWorker = false)
    : Transition a (s.push c r)
  | wait {c} (hc : (s.clients c).free = true)
    : Transition (.wait c) (s.setClient c (.wait s.accepted))
  | waitDone {c before} (hc : s.clients c = .wait before)
      (hqueue : s.queue = []) (hidle : s.idle = true)
    : Transition (.waitLock c) (s.setClient c (.waitReturned before))
  | stop {c} (hc : (s.clients c).free = true) : Transition (.stop c) (s.setClient c .stop)
  | stopAgain {c} (hc : s.clients c = .stop) (hrequested : s.stopRequested = true)
    : Transition (.stopEnter c) { s.setClient c .idle with stopReturned := true }
  | stopAtOnce {c} (hc : s.clients c = .stop) (hrequested : s.stopRequested = false)
    : Transition (.stopEnter c)
        { s.setClient c .stopJoin with stopRequested := true, stopping := true }
  | stopRequest {c} (hc : s.clients c = .stop) (hrequested : s.stopRequested = false)
    : Transition (.stopEnter c) { s.setClient c .stopLock with stopRequested := true }
  | stopLock {c} (hc : s.clients c = .stopLock)
    : Transition (.stopLock c) { s.setClient c .stopJoin with stopping := true }
  | stopJoin {c} (hc : s.clients c = .stopJoin) (hw : s.worker = .exited)
    : Transition (.stopJoin c) (s.setClient c .stopClose)
  | stopClose {c x} (hc : s.clients c = .stopClose) : Transition (.stopClose c x)
        { s.setClient c .idle with env := consumer.close s.env x, stopReturned := true }
  | reserve {x} (hw : s.worker = .reserve) (hreserves : cfg.reserves = true)
    : Transition (.worker x) { s with worker := .take }
  | terminate {x} (hw : s.worker = .reserve) (hreserves : cfg.reserves = false)
    : Transition (.worker x) { s with worker := .terminated }
  | exit {x} (hw : s.worker = .take) (hstop : s.stopping = true) (hqueue : s.queue = [])
    : Transition (.worker x) { s with idle := true, worker := .exited }
  | again {x} (hw : s.worker = .take) (hstop : s.stopping = false) (hqueue : s.queue = [])
    : Transition (.worker x) { s with worker := .reserve }
  | take {x} (hw : s.worker = .take) (hqueue : s.queue ≠ []) : Transition (.worker x)
        ({ s with idle := false, queue := s.queue.drop cfg.maxBatchSize }.advance
          (s.queue.take cfg.maxBatchSize) (consumer.start (s.queue.take cfg.maxBatchSize)))
  | work {x batch w} (hw : s.worker = .working batch w)
    : Transition (.worker x) ({ s with env := (consumer.work s.env w x).1 }.advance batch
          (consumer.work s.env w x).2)
  | finish {x} (hw : s.worker = .finishing)
    : Transition (.worker x) { s with idle := true, worker := .reserve }
  | outside {x} : Transition (.outside x) { s with env := consumer.outside s.env x }

variable {cfg : Config} {consumer : Consumer ε ω χ ξ} {s s' : State ι ε ω} {a : Action ι χ ξ}

theorem Transition.of_log (hc : s.clients c = .log r)
    : Transition cfg consumer s (.logLock c) (s.log cfg c r) := by
  unfold State.log
  split
  . next hstop => exact .refuse (.inl hc) (.inl hstop) rfl
  . next hstop =>
    split
    . next hfull =>
      split
      . exact .refuse (.inl hc) (.inr hfull) rfl
      . exact .park hc hfull
    . exact .push (.inl hc) (by simpa using hstop) rfl

theorem Transition.of_logWake (hc : s.clients c = .logParked r)
    : Transition cfg consumer s (.logWake c) (s.logWake cfg c r) := by
  unfold State.logWake
  split
  . next hstop => exact .refuse (.inr hc) (.inl hstop) rfl
  . next hstop =>
    split
    . exact .skip rfl
    . exact .push (.inr hc) (by simpa using hstop) rfl

theorem Transition.of_stopEnter (hc : s.clients c = .stop)
    : Transition cfg consumer s (.stopEnter c) (s.stopEnter cfg c) := by
  unfold State.stopEnter
  split
  . next hrequested => exact .stopAgain hc hrequested
  . next hrequested =>
    split
    . exact .stopAtOnce hc (by simpa using hrequested)
    . exact .stopRequest hc (by simpa using hrequested)

theorem Transition.of_take (hw : s.worker = .take)
    : Transition cfg consumer s (.worker x) (s.take cfg consumer) := by
  unfold State.take
  split
  . next hexit =>
    simp only [Bool.and_eq_true, List.isEmpty_iff] at hexit
    exact .exit hw hexit.1 hexit.2
  . next hstay =>
    simp only [Bool.and_eq_true, List.isEmpty_iff, not_and] at hstay
    split
    . next hempty =>
      rw [List.isEmpty_iff] at hempty
      apply Transition.again hw _ hempty
      rw [← Bool.not_eq_true]
      intro hstop
      exact hstay hstop hempty
    . next hqueue =>
      apply Transition.take hw
      simpa using hqueue

theorem Transition.of_workerStep (h : workerStep cfg consumer s x = some s')
    : Transition cfg consumer s (.worker x) s' := by
  unfold workerStep at h
  split at h
  . next hw =>
    split at h
    . next hreserves =>
      cases h
      exact .reserve hw hreserves
    . next hreserves =>
      cases h
      exact .terminate hw (by simpa using hreserves)
  . next hw =>
    cases h
    exact .of_take hw
  . next hw =>
    cases h
    exact .work hw
  . next hw =>
    cases h
    exact .finish hw
  . contradiction
  . contradiction

theorem Transition.of_step (h : step cfg consumer s a = some s')
    : Transition cfg consumer s a s' := by
  unfold step at h
  split at h
  . contradiction
  . cases a with dsimp only at h
    | log c =>
      split at h
      . next hc =>
        cases h
        exact .log hc
      . contradiction
    | logLock c =>
      split at h
      . next hc =>
        cases h
        exact .of_log hc
      . contradiction
    | logWake c =>
      split at h
      . next hc =>
        cases h
        exact .of_logWake hc
      . contradiction
    | wait c =>
      split at h
      . next hc =>
        cases h
        exact .wait hc
      . contradiction
    | waitLock c =>
      split at h
      . next hc =>
        split at h
        . next hdone =>
          simp only [Bool.and_eq_true, List.isEmpty_iff] at hdone
          cases h
          exact .waitDone hc hdone.1 hdone.2
        . cases h
          exact .skip rfl
      . contradiction
    | stop c =>
      split at h
      . next hc =>
        cases h
        exact .stop hc
      . contradiction
    | stopEnter c =>
      split at h
      . next hc =>
        cases h
        exact .of_stopEnter hc
      . contradiction
    | stopLock c =>
      split at h
      . next hc =>
        cases h
        exact .stopLock hc
      . contradiction
    | stopJoin c =>
      split at h
      . next hc hw =>
        cases h
        exact .stopJoin hc hw
      . contradiction
    | stopClose c x =>
      split at h
      . next hc =>
        cases h
        exact .stopClose hc
      . contradiction
    | worker x => exact .of_workerStep h
    | outside x =>
      cases h
      exact .outside

end BatchQueue
