import LogIt.Otlp.Impl.Http

namespace LogIt.OtlpHttpLogger

open Otlp

variable {ι : Type} [DecidableEq ι]

def Action.isClient (a : Action ι) : Bool :=
  match a with
  | .worker _ | .respond _ _ => false
  | _ => true

variable (maxSize : Nat) (build : List Nat → List UInt8) (cfg : Config) (s : State ι) in
inductive Transition : Action ι → State ι → Prop where
  -- a thread that goes on waiting
  | skip {a} (ha : a.isClient = true ∨ (∃ outcome, a = .worker outcome) ∧
        (∃ chunk rest, s.worker = .acquire chunk rest) ∧
        cfg.maxInFlightRequests ≤ s.httpInFlight)
    : Transition a s
  | log {c} (hc : (s.clients c).free = true) : Transition (.log c)
        { s.setClient c (.log s.submitted) with submitted := s.submitted + 1 }
  | refuse {a c r}
      (hc : s.clients c = .log r ∨ s.clients c = .logRelock r ∨ s.clients c = .logInside r)
      (ha : a.isClient = true)
    : Transition a (s.refuse c r)
  | enter {c r} (hc : s.clients c = .log r ∨ s.clients c = .logRelock r)
    : Transition (.logEnter c) { s.setClient c (.logInside r) with lifecycleLocked := true }
  | park {c r} (hc : s.clients c = .logInside r) : Transition (.logLock c)
        { s.setClient c (.logParked r) with lifecycleLocked := false }
  | push {c r} (hc : s.clients c = .logInside r) (hstop : s.stopping = false)
    : Transition (.logLock c)
        { s.setClient c (.logNotify r) with queue := s.queue ++ [r], queued := s.queued ++ [r] }
  | leave {c r} (hc : s.clients c = .logNotify r) : Transition (.logNotify c)
        { s.setClient c .idle with lifecycleLocked := false, returned := s.returned ++ [r] }
  | wake {c r} (hc : s.clients c = .logParked r)
    : Transition (.logWake c) (s.setClient c (.logRelock r))
  | wait {c} (hc : (s.clients c).free = true)
    : Transition (.wait c) (s.setClient c (.wait s.queued))
  | waitDone {c before} (hc : s.clients c = .wait before)
      (hqueue : s.queue = []) (hflight : s.httpInFlight = 0)
    : Transition (.waitLock c) (s.setClient c (.waitReturned before))
  | stop {c} (hc : (s.clients c).free = true) : Transition (.stop c) (s.setClient c .stop)
  | stopAgain {c} (hc : s.clients c = .stop) (hstop : s.stopping = true)
    : Transition (.stopEnter c) { s.setClient c .idle with stopReturned := true }
  | stopCancel {c} (hc : s.clients c = .stop) (hstop : s.stopping = false)
      (hcancel : cfg.cancelOnShutdown = true)
    : Transition (.stopEnter c) { s.setClient c .stopJoin with
          stopping := true
          dropped := s.dropped + s.queue.length
          cleared := s.cleared ++ s.queue
          queue := [] }
  | stopDrain {c} (hc : s.clients c = .stop) (hstop : s.stopping = false)
      (hcancel : cfg.cancelOnShutdown = false)
    : Transition (.stopEnter c) { s.setClient c .stopJoin with stopping := true }
  | stopJoin {c} (hc : s.clients c = .stopJoin) (hw : s.worker = .exited)
    : Transition (.stopJoin c) (s.setClient c .stopRequests)
  | stopRequests {c} (hc : s.clients c = .stopRequests)
    : Transition (.stopRequests c) { s.setClient c .idle with stopReturned := true }
  | reserve {outcome} (hw : s.worker = .reserve)
    : Transition (.worker outcome) { s with worker := .take }
  | terminate {outcome} (hw : s.worker = .reserve) (hsize : maxSize < cfg.maxBatchSize)
    : Transition (.worker outcome) { s with worker := .terminated }
  | exit {outcome} (hw : s.worker = .take) (hstop : s.stopping = true)
      (hexit : cfg.cancelOnShutdown = true ∨ (s.queue = [] ∧ s.httpInFlight = 0))
    : Transition (.worker outcome) { s with worker := .exited }
  | again {outcome} (hw : s.worker = .take)
      (hwait : s.stopping = true → cfg.maxBatchSize ≠ 0 → cfg.maxInFlightRequests ≠ 0 →
        s.httpInFlight ≠ 0)
    : Transition (.worker outcome) { s with worker := .reserve }
  | take {outcome} (hw : s.worker = .take) (hqueue : s.queue ≠ [])
    : Transition (.worker outcome) { s with
          queue := s.queue.drop cfg.maxBatchSize
          worker := .submit
            (payloadChunks build cfg.maxPayloadBytes (s.queue.take cfg.maxBatchSize)) }
  | submitted {outcome} (hw : s.worker = .submit [])
    : Transition (.worker outcome) { s with worker := .reserve }
  | compressFail {outcome chunk rest} (hw : s.worker = .submit (chunk :: rest))
    : Transition (.worker outcome) { s with
          failedExports := s.failedExports + 1
          compressionFailures := s.compressionFailures + 1
          worker := .acquire chunk rest }
  | compress {outcome chunk rest} (hw : s.worker = .submit (chunk :: rest))
    : Transition (.worker outcome) { s with worker := .acquire chunk rest }
  | cancel {outcome chunk rest}
      (hw : s.worker = .acquire chunk rest) (hcancel : cfg.cancelOnShutdown = true)
    : Transition (.worker outcome) { s with
          failedExports := s.failedExports + 1
          discarded := s.discarded ++ [chunk]
          worker := .submit rest }
  | acquire {outcome chunk rest}
      (hw : s.worker = .acquire chunk rest) (hflight : s.httpInFlight < cfg.maxInFlightRequests)
    : Transition (.worker outcome)
        { s with httpInFlight := s.httpInFlight + 1, worker := .post chunk rest }
  | post {outcome chunk rest} (hw : s.worker = .post chunk rest) : Transition (.worker outcome)
        { s with outstanding := s.outstanding ++ [chunk], worker := .submit rest }
  | postFail {outcome chunk rest} (hw : s.worker = .post chunk rest)
    : Transition (.worker outcome) { s with worker := .postFailed chunk rest }
  | postFailed {outcome chunk rest} (hw : s.worker = .postFailed chunk rest)
    : Transition (.worker outcome) { s with
          failedExports := s.failedExports + 1
          httpInFlight := s.httpInFlight - 1
          discarded := s.discarded ++ [chunk]
          worker := .submit rest }
  | respond {i ok chunk} (hchunk : s.outstanding[i]? = some chunk)
    : Transition (.respond i ok) { s with
          outstanding := s.outstanding.eraseIdx i
          answered := s.answered ++ [chunk]
          httpInFlight := s.httpInFlight - 1
          failedExports := if ok then s.failedExports else s.failedExports + 1
          badResponses := if ok then s.badResponses else s.badResponses + 1 }

variable {maxSize : Nat} {build : List Nat → List UInt8} {cfg : Config} {s s' : State ι}

theorem Transition.of_logEnter (hc : s.clients c = .log r ∨ s.clients c = .logRelock r)
    : Transition maxSize build cfg s (.logEnter c) (s.logEnter c r) := by
  unfold State.logEnter
  split
  . apply Transition.refuse _ rfl
    exact hc.imp_right .inl
  . exact .enter hc

theorem Transition.of_logLock (hc : s.clients c = .logInside r)
    : Transition maxSize build cfg s (.logLock c) (s.logLock cfg c r) := by
  unfold State.logLock
  split
  . exact .refuse (.inr (.inr hc)) rfl
  . next hstop =>
    split
    . split
      . exact .refuse (.inr (.inr hc)) rfl
      . exact .park hc
    . exact .push hc (by simpa using hstop)

theorem Transition.of_stopEnter (hc : s.clients c = .stop)
    : Transition maxSize build cfg s (.stopEnter c) (s.stopEnter cfg c) := by
  unfold State.stopEnter
  split
  . next hstop => exact .stopAgain hc hstop
  . next hstop =>
    split
    . next hcancel => exact .stopCancel hc (by simpa using hstop) hcancel
    . next hcancel => exact .stopDrain hc (by simpa using hstop) (by simpa using hcancel)

theorem Transition.of_take (hw : s.worker = .take)
    : Transition maxSize build cfg s (.worker outcome) (s.take build cfg) := by
  unfold State.take
  split
  . next hexit =>
    simp only [Bool.and_eq_true] at hexit
    exact .exit hw hexit.1 (.inl hexit.2)
  . split
    . next hexit =>
      simp only [Bool.and_eq_true, List.isEmpty_iff, beq_iff_eq] at hexit
      exact .exit hw hexit.1.1 (.inr ⟨hexit.1.2, hexit.2⟩)
    . next hstay =>
      simp only [Bool.and_eq_true, List.isEmpty_iff, beq_iff_eq, not_and] at hstay
      split
      . next hbusy =>
        simp only [Bool.or_eq_true, List.isEmpty_iff, decide_eq_true_eq] at hbusy
        apply Transition.again hw
        intro hstop _ hflight
        cases hbusy with
        | inl hempty => exact hstay ⟨hstop, hempty⟩
        | inr hbusy => omega
      . next hready =>
        simp only [Bool.or_eq_true, List.isEmpty_iff, not_or] at hready
        dsimp only
        split
        . next hbatch =>
          -- A batch of a queue that is not empty is only empty if no batch may have a record.
          rw [List.isEmpty_iff, List.take_eq_nil_iff] at hbatch
          have hzero : cfg.maxBatchSize = 0 := by
            cases hbatch with
            | inl hzero => exact hzero
            | inr hempty => exact absurd hempty hready.1
          rw [hzero]
          exact .again hw (fun _ hbatch => absurd hzero hbatch)
        . exact .take hw hready.1

theorem Transition.of_workerStep (h : workerStep maxSize build cfg s outcome = some s')
    : Transition maxSize build cfg s (.worker outcome) s' := by
  unfold workerStep at h
  split at h
  . next hw =>
    split at h
    . cases h
      exact .reserve hw
    . next hsize =>
      cases h
      exact .terminate hw (by omega)
  . next hw =>
    cases h
    exact .of_take hw
  . next hw =>
    cases h
    exact .submitted hw
  . next hw =>
    split at h
    . cases h
      exact .compressFail hw
    . cases h
      exact .compress hw
  . next hw =>
    cases h
    unfold State.acquire
    split
    . next hcancel =>
      rw [Bool.and_eq_true] at hcancel
      exact .cancel hw hcancel.2
    . split
      . next hflight => exact .acquire hw hflight
      . next hflight => exact .skip (.inr ⟨⟨_, rfl⟩, ⟨_, _, hw⟩, by omega⟩)
  . next hw =>
    split at h
    . cases h
      exact .postFail hw
    . cases h
      exact .post hw
  . next hw =>
    cases h
    exact .postFailed hw
  . contradiction
  . contradiction

theorem Transition.of_step (h : step maxSize build cfg s a = some s')
    : Transition maxSize build cfg s a s' := by
  unfold step at h
  split at h
  . contradiction
  . cases a with dsimp only at h
    | log c =>
      split at h
      . next hc =>
        cases h
        exact .log hc
      . contradiction
    | logEnter c =>
      split at h
      . contradiction
      . split at h
        . next hc =>
          cases h
          exact .of_logEnter (.inl hc)
        . next hc =>
          cases h
          exact .of_logEnter (.inr hc)
        . contradiction
    | logLock c =>
      split at h
      . next hc =>
        cases h
        exact .of_logLock hc
      . contradiction
    | logNotify c =>
      split at h
      . next hc =>
        cases h
        exact .leave hc
      . contradiction
    | logWake c =>
      split at h
      . next hc =>
        split at h
        . cases h
          exact .wake hc
        . cases h
          exact .skip (.inl rfl)
      . contradiction
    | wait c =>
      split at h
      . next hc =>
        cases h
        exact .wait hc
      . contradiction
    | waitLock c =>
      split at h
      . next hc =>
        split at h
        . next hdone =>
          simp only [Bool.and_eq_true, List.isEmpty_iff, beq_iff_eq] at hdone
          cases h
          exact .waitDone hc hdone.1 hdone.2
        . cases h
          exact .skip (.inl rfl)
      . contradiction
    | stop c =>
      split at h
      . next hc =>
        cases h
        exact .stop hc
      . contradiction
    | stopEnter c =>
      split at h
      . contradiction
      . split at h
        . next hc =>
          cases h
          exact .of_stopEnter hc
        . contradiction
    | stopJoin c =>
      split at h
      . next hc hw =>
        cases h
        exact .stopJoin hc hw
      . contradiction
    | stopRequests c =>
      split at h
      . next hc =>
        cases h
        exact .stopRequests hc
      . contradiction
    | worker outcome => exact .of_workerStep h
    | respond i ok =>
      split at h
      . next hchunk =>
        cases h
        exact .respond hchunk
      . contradiction

end LogIt.OtlpHttpLogger
