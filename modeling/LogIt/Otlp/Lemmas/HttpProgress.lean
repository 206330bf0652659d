import Mathlib.Data.Prod.Lex
import LogIt.Otlp.Lemmas.HttpInvariant

namespace LogIt.OtlpHttpLogger

open Otlp List

variable {ι : Type} {maxSize : Nat} {build : List Nat → List UInt8} {cfg : Config}
  {s s' : State ι} {a : Action ι}

def Fair {sys : Lts (State ι) (Action ι)} (run : sys.Run) : Prop :=
  (∀ n, ∃ m, n ≤ m ∧ ((run.state m).worker = .exited ∨ (run.state m).worker = .terminated ∨
    ∃ outcome, run.action m = some (.worker outcome))) ∧
  ∀ n, (run.state n).outstanding ≠ [] → ∃ m, n ≤ m ∧ ∃ i ok, run.action m = some (.respond i ok)

structure NoWedge (sys : Lts (State ι) (Action ι)) : Prop where
  enqueues : ∀ s c r s', sys.Reachable s → s.clients c = .logInside r → s.queue = [] →
    s.stopping = false → sys.step s (.logLock c) = some s' → s'.queue = [r]
  takes : ∀ s outcome s', sys.Reachable s → s.worker = .take → s.queue ≠ [] → s.outstanding = [] →
    sys.step s (.worker outcome) = some s' → s'.queue.length < s.queue.length
  returns : ∀ run : sys.Run, Fair run → (run.state 0).stopping = true →
    ∃ n, (run.state n).worker = .exited

def WorkerPc.distance (pc : WorkerPc) : Nat :=
  match pc with
  | .submit chunks => 4 * chunks.length + 1
  | .acquire _ rest => 4 * rest.length + 4
  | .post _ rest => 4 * rest.length + 3
  | .postFailed _ rest => 4 * rest.length + 2
  | _ => 0

def State.phase (s : State ι) : Nat :=
  if s.outstanding = [] then
    match s.worker with
    | .reserve => 2
    | .take => 1
    | _ => 0
  else
    0

def State.measure (s : State ι) : Nat ×ₗ Nat ×ₗ Nat ×ₗ Nat :=
  toLex (s.queue.length, toLex (s.worker.distance, toLex (s.outstanding.length, s.phase)))

theorem State.measure_lt_of_queue (h : s'.queue.length < s.queue.length)
    : s'.measure < s.measure :=
  Prod.Lex.toLex_lt_toLex.mpr (.inl h)

theorem State.measure_lt_of_distance (hqueue : s'.queue = s.queue)
    (h : s'.worker.distance < s.worker.distance)
    : s'.measure < s.measure := by
  apply Prod.Lex.toLex_lt_toLex.mpr
  right
  refine ⟨by rw [hqueue], ?_⟩
  exact Prod.Lex.toLex_lt_toLex.mpr (.inl h)

theorem State.measure_lt_of_outstanding (hqueue : s'.queue = s.queue)
    (hworker : s'.worker = s.worker) (h : s'.outstanding.length < s.outstanding.length)
    : s'.measure < s.measure := by
  apply Prod.Lex.toLex_lt_toLex.mpr
  right
  refine ⟨by rw [hqueue], ?_⟩
  apply Prod.Lex.toLex_lt_toLex.mpr
  right
  refine ⟨by rw [hworker], ?_⟩
  exact Prod.Lex.toLex_lt_toLex.mpr (.inl h)

theorem State.measure_lt_of_phase (hqueue : s'.queue = s.queue)
    (hdistance : s'.worker.distance = s.worker.distance)
    (houtstanding : s'.outstanding = s.outstanding) (h : s'.phase < s.phase)
    : s'.measure < s.measure := by
  unfold State.measure
  rw [hqueue, hdistance, houtstanding]
  apply Prod.Lex.toLex_lt_toLex.mpr
  refine .inr ⟨rfl, ?_⟩
  apply Prod.Lex.toLex_lt_toLex.mpr
  refine .inr ⟨rfl, ?_⟩
  apply Prod.Lex.toLex_lt_toLex.mpr
  exact .inr ⟨rfl, h⟩

def Idles (s : State ι) (a : Action ι) (s' : State ι) : Prop :=
  s'.measure = s.measure ∧ (a.isClient = true ∨ (∃ outcome, a = .worker outcome) ∧ s.outstanding ≠ [])

theorem Idles.of_loop (hbusy : s.outstanding ≠ []) (hdistance : worker.distance = s.worker.distance)
    : Idles s (.worker outcome) { s with worker := worker } := by
  refine ⟨?_, .inr ⟨⟨outcome, rfl⟩, hbusy⟩⟩
  unfold State.measure State.phase
  simp only [hbusy, if_false, hdistance]

theorem Requests.outstanding_ne_nil (h : Requests cfg s) (hposting : s.worker.posting = [])
    (hflight : s.httpInFlight ≠ 0)
    : s.outstanding ≠ [] := by
  intro hempty
  have hinFlight := h.inFlight
  rw [hempty, hposting] at hinFlight
  exact hflight hinFlight

variable [DecidableEq ι]

theorem Transition.progress (hbatch : cfg.maxBatchSize ≠ 0) (hsize : cfg.maxBatchSize ≤ maxSize)
    (hflight : cfg.maxInFlightRequests ≠ 0) (hcancel : cfg.cancelOnShutdown = false)
    (hstopped : s.stopping = true) (hrequests : Requests cfg s)
    (hstep : Transition maxSize build cfg s a s')
    : s'.measure < s.measure ∨ Idles s a s' := by
  cases hstep with
  | skip ha =>
    -- The only step of the worker that changes nothing waits for a free request.
    right
    cases ha with
    | inl hclient => exact ⟨rfl, .inl hclient⟩
    | inr hwait =>
      obtain ⟨houtcome, ⟨chunk, rest, hw⟩, hbusy⟩ := hwait
      refine ⟨rfl, .inr ⟨houtcome, hrequests.outstanding_ne_nil ?_ (by omega)⟩⟩
      rw [hw]
      rfl
  | refuse _ ha => exact .inr ⟨rfl, .inl ha⟩
  -- After the stop no record comes in.
  | push _ hstop | stopCancel _ hstop | stopDrain _ hstop =>
    rw [hstopped] at hstop
    contradiction
  | terminate _ hsize' => omega
  | cancel _ hcancel' =>
    rw [hcancel] at hcancel'
    contradiction
  | reserve hw =>
    -- This is a step towards the return only if the round is not to be repeated.
    by_cases hempty : s.outstanding = []
    . left
      apply State.measure_lt_of_phase
      . rfl
      . rw [hw]
        rfl
      . rfl
      . unfold State.phase
        rw [if_pos hempty, if_pos hempty, hw]
        exact Nat.one_lt_two
    . right
      apply Idles.of_loop hempty
      rw [hw]
      rfl
  | exit hw hstop hexit =>
    left
    cases hexit with
    | inl hcancel' =>
      rw [hcancel] at hcancel'
      contradiction
    | inr hdrained =>
      have hempty := hrequests.outstanding_eq_nil hdrained.2
      apply State.measure_lt_of_phase
      . rfl
      . rw [hw]
        rfl
      . rfl
      . unfold State.phase
        rw [if_pos hempty, if_pos hempty, hw]
        exact Nat.zero_lt_one
  | again hw hwait =>
    right
    apply Idles.of_loop
    . apply hrequests.outstanding_ne_nil _ (hwait hstopped hbatch hflight)
      rw [hw]
      rfl
    . rw [hw]
      rfl
  | take hw hqueue =>
    left
    apply State.measure_lt_of_queue
    have hlength := length_pos_iff.mpr hqueue
    rw [length_drop]
    omega
  | respond hchunk =>
    left
    obtain ⟨hi, _⟩ := List.getElem?_eq_some_iff.mp hchunk
    apply State.measure_lt_of_outstanding
    . rfl
    . rfl
    . rw [List.length_eraseIdx_of_lt hi]
      omega
  | submitted hw =>
    left
    apply State.measure_lt_of_distance
    . rfl
    . rw [hw]
      exact Nat.zero_lt_one
  | compressFail hw | compress hw =>
    left
    apply State.measure_lt_of_distance
    . rfl
    . rw [hw]
      simp only [WorkerPc.distance, length_cons]
      omega
  | acquire hw | post hw | postFail hw | postFailed hw =>
    left
    apply State.measure_lt_of_distance
    . rfl
    . rw [hw]
      simp only [WorkerPc.distance]
      omega
  | _ => exact .inr ⟨rfl, .inl rfl⟩

theorem Transition.stopping (hstep : Transition maxSize build cfg s a s') (hstop : s.stopping = true)
    : s'.stopping = true := by
  cases hstep with
  | stopCancel => rfl
  | stopDrain => rfl
  | _ => exact hstop

theorem Transition.not_terminated (hstep : Transition maxSize build cfg s a s')
    (hsize : cfg.maxBatchSize ≤ maxSize) (h : s.worker ≠ .terminated)
    : s'.worker ≠ .terminated := by
  cases hstep with
  | terminate _ hsize' => omega
  | reserve | exit | again | take | submitted | compressFail | compress | cancel | acquire
  | post | postFail | postFailed => simp
  | _ => exact h

@[simp]
theorem Config.maxQueueSize_normalize (cfg : Config)
    : cfg.normalize.maxQueueSize = cfg.maxQueueSize := by
  unfold Config.normalize
  split
  . rfl
  . rfl

@[simp]
theorem Config.maxBatchSize_normalize (cfg : Config)
    : cfg.normalize.maxBatchSize = cfg.maxBatchSize := by
  unfold Config.normalize
  split
  . rfl
  . rfl

@[simp]
theorem Config.cancelOnShutdown_normalize (cfg : Config)
    : cfg.normalize.cancelOnShutdown = cfg.cancelOnShutdown := by
  unfold Config.normalize
  split
  . rfl
  . rfl

theorem Config.maxInFlightRequests_normalize_ne_zero (cfg : Config)
    : cfg.normalize.maxInFlightRequests ≠ 0 := by
  unfold Config.normalize
  split
  . exact Nat.one_ne_zero
  . next h => exact h

theorem reachable_not_terminated (hsize : cfg.maxBatchSize ≤ maxSize)
    (h : (system ι maxSize build cfg).Reachable s)
    : s.worker ≠ .terminated := by
  apply h.invariant (fun s => s.worker ≠ .terminated)
  . simp [system, init]
  . intro s a s' _ hinv hstep
    apply (Transition.of_step hstep).not_terminated _ hinv
    rw [Config.maxBatchSize_normalize]
    exact hsize

section

variable (hbatch : 1 ≤ cfg.maxBatchSize) (hsize : cfg.maxBatchSize ≤ maxSize)
  (hcancel : cfg.cancelOnShutdown = false)

include hbatch hsize hcancel

theorem step_progress (hreach : (system ι maxSize build cfg).Reachable s)
    (hstopped : s.stopping = true) (hstep : (system ι maxSize build cfg).step s a = some s')
    : s'.measure < s.measure ∨ Idles s a s' := by
  apply (Transition.of_step hstep).progress
  . rw [Config.maxBatchSize_normalize]
    omega
  . rw [Config.maxBatchSize_normalize]
    exact hsize
  . exact cfg.maxInFlightRequests_normalize_ne_zero
  . rw [Config.cancelOnShutdown_normalize]
    exact hcancel
  . exact hstopped
  . exact reachable_requests hreach

theorem worker_returns (run : (system ι maxSize build cfg).Run) (hfair : Fair run)
    (hstop : (run.state 0).stopping = true)
    : ∃ n, (run.state n).worker = .exited := by
  have hstopped (n : Nat) := run.invariant hstop
    (fun s a s' _ hinv hstep => (Transition.of_step hstep).stopping hinv) n
  have hprogress {n : Nat} {a : Action ι} (ha : run.action n = some a) :=
    step_progress hbatch hsize hcancel (hstopped n).1 (hstopped n).2 (run.step_of_action ha)
  apply run.eventually State.measure (fun s => s.worker = .exited)
  . intro n
    right
    cases ha : run.action n with
    | some a =>
      cases hprogress ha with
      | inl hlt => exact le_of_lt hlt
      | inr hidles => exact le_of_eq hidles.1
    | none =>
      have hnext := run.next n
      rw [ha] at hnext
      rw [hnext]
  . intro n
    obtain ⟨m, hm, hworker⟩ := hfair.1 n
    rcases hworker with hexited | hterminated | ⟨outcome, ha⟩
    . exact ⟨m, hm, .inl hexited⟩
    . exact absurd hterminated (reachable_not_terminated hsize (hstopped m).1)
    . cases hprogress ha with
      | inl hlt => exact ⟨m, hm, .inr hlt⟩
      | inr hidles =>
        -- The worker goes round, so a response is missing. Fairness gives one.
        have hbusy : (run.state m).outstanding ≠ [] := by
          cases hidles.2 with
          | inl hclient => cases hclient
          | inr hwaits => exact hwaits.2
        obtain ⟨m', hm', i, ok, ha'⟩ := hfair.2 m hbusy
        refine ⟨m', hm.trans hm', .inr ?_⟩
        cases hprogress ha' with
        | inl hlt => exact hlt
        | inr hidles' =>
          cases hidles'.2 with
          | inl hclient => cases hclient
          | inr hwaits =>
            obtain ⟨outcome, houtcome⟩ := hwaits.1
            cases houtcome

end

theorem step_logLock (hc : s.clients c = .logInside r) (hworker : s.worker ≠ .terminated)
    : (system ι maxSize build cfg).step s (.logLock c) = some (s.logLock cfg.normalize c r) := by
  dsimp only [system, step]
  rw [if_neg hworker, hc]

theorem step_worker (hworker : s.worker ≠ .terminated)
    : (system ι maxSize build cfg).step s (.worker outcome)
        = workerStep maxSize build cfg.normalize s outcome := by
  dsimp only [system, step]
  rw [if_neg hworker]

theorem State.logLock_queue (hqueue : s.queue = []) (hstop : s.stopping = false)
    : (s.logLock cfg c r).queue = if cfg.maxQueueSize = 0 then [] else [r] := by
  unfold State.logLock
  simp only [hstop, hqueue, Bool.false_eq_true, if_false, length_nil, Nat.le_zero_eq]
  split
  . split
    . exact hqueue
    . exact hqueue
  . rfl

theorem State.logLock_worker : (s.logLock cfg c r).worker = s.worker := by
  unfold State.logLock
  split
  . rfl
  . split
    . split
      . rfl
      . rfl
    . rfl

omit [DecidableEq ι] in
theorem State.take_queue (hqueue : s.queue ≠ []) (hflight : s.httpInFlight < cfg.maxInFlightRequests)
    (hstay : s.stopping = false ∨ cfg.cancelOnShutdown = false)
    : (s.take build cfg).queue = s.queue.drop cfg.maxBatchSize := by
  have hempty : s.queue.isEmpty = false := by simpa using hqueue
  have hstay : (s.stopping && cfg.cancelOnShutdown) = false := Bool.and_eq_false_iff.mpr hstay
  have hflight : ¬ cfg.maxInFlightRequests ≤ s.httpInFlight := by omega
  unfold State.take
  simp only [hstay, hempty, hflight, Bool.and_false, Bool.false_and, Bool.false_eq_true, if_false,
    Bool.false_or, decide_false]
  split
  . rfl
  . rfl

theorem step_reserve (hw : s.worker = .reserve)
    : (system ι maxSize build cfg).step s (.worker outcome)
        = some { s with worker := if cfg.maxBatchSize ≤ maxSize then .take else .terminated } := by
  rw [step_worker (by rw [hw]; simp)]
  unfold workerStep
  rw [hw]
  dsimp only
  rw [Config.maxBatchSize_normalize]
  split
  . rfl
  . rfl

theorem step_take (hw : s.worker = .take)
    : (system ι maxSize build cfg).step s (.worker outcome)
        = some (s.take build cfg.normalize) := by
  rw [step_worker (by rw [hw]; simp)]
  unfold workerStep
  rw [hw]

theorem take_queue_normalize (hcancel : cfg.cancelOnShutdown = false)
    (hreach : (system ι maxSize build cfg).Reachable s) (hw : s.worker = .take)
    (hqueue : s.queue ≠ []) (hidle : s.outstanding = [])
    : (s.take build cfg.normalize).queue = s.queue.drop cfg.maxBatchSize := by
  have hflight : s.httpInFlight = 0 := by
    by_contra hflight
    apply (reachable_requests hreach).outstanding_ne_nil _ hflight hidle
    rw [hw]
    rfl
  have hmax := cfg.maxInFlightRequests_normalize_ne_zero
  rw [State.take_queue hqueue (by omega), Config.maxBatchSize_normalize]
  right
  rw [Config.cancelOnShutdown_normalize]
  exact hcancel

section Converse

variable [Inhabited ι]

def entered (ι : Type) [DecidableEq ι] [Inhabited ι] : State ι :=
  let s := { (init ι).setClient default (.log 0) with submitted := 1 }
  { s.setClient default (.logInside 0) with lifecycleLocked := true }

theorem reachable_entered : (system ι maxSize build cfg).Reachable (entered ι) := by
  have hlog : (system ι maxSize build cfg).Reachable
      { (init ι).setClient default (.log 0) with submitted := 1 } :=
    Lts.Reachable.init.step (a := .log default) rfl
  apply hlog.step (a := .logEnter default)
  simp [system, step, init, entered, State.setClient, State.logEnter]

theorem clients_entered : (entered ι).clients default = .logInside 0 :=
  Function.update_self ..

theorem step_entered
    : (system ι maxSize build cfg).step (entered ι) (.logLock default)
        = some ((entered ι).logLock cfg.normalize default 0) := by
  apply step_logLock clients_entered
  simp [entered, init, State.setClient]

theorem logLock_entered_queue
    : ((entered ι).logLock cfg.normalize default 0).queue
        = if cfg.maxQueueSize = 0 then [] else [0] := by
  rw [State.logLock_queue rfl rfl, Config.maxQueueSize_normalize]

theorem NoWedge.maxQueueSize (h : NoWedge (system ι maxSize build cfg)) : 1 ≤ cfg.maxQueueSize := by
  have hqueue := h.enqueues _ default 0 _ reachable_entered clients_entered rfl rfl step_entered
  rw [logLock_entered_queue] at hqueue
  split at hqueue
  . contradiction
  . omega

theorem exists_stopping (hcancel : cfg.cancelOnShutdown = false)
    : ∃ s, (system ι maxSize build cfg).Reachable s ∧ s.stopping = true ∧ s.worker = .reserve ∧
        s.outstanding = [] := by
  have hstop : (system ι maxSize build cfg).Reachable ((init ι).setClient default .stop) :=
    Lts.Reachable.init.step (a := .stop default) rfl
  have henter : (system ι maxSize build cfg).Reachable
      (((init ι).setClient default .stop).stopEnter cfg.normalize default) := by
    apply hstop.step (a := .stopEnter default)
    simp [system, step, init, State.setClient]
  refine ⟨_, henter, ?_, ?_, ?_⟩
  . simp [State.stopEnter, hcancel, init, State.setClient]
  . simp [State.stopEnter, hcancel, init, State.setClient]
  . simp [State.stopEnter, hcancel, init, State.setClient]

section

variable (h : NoWedge (system ι maxSize build cfg)) (hcancel : cfg.cancelOnShutdown = false)

include h hcancel

theorem NoWedge.reserves : cfg.maxBatchSize ≤ maxSize := by
  by_contra hsize
  obtain ⟨s, hreach, hstop, hw, hidle⟩ := @exists_stopping ι maxSize build cfg _ _ hcancel
  have hterminate : (system ι maxSize build cfg).step s (.worker ⟨false, false⟩)
      = some { s with worker := .terminated } := by
    rw [step_reserve hw, if_neg hsize]
  have hfair : Fair (Lts.Run.once hreach hterminate) := by
    constructor
    . intro n
      exact ⟨n + 1, Nat.le_succ n, .inr (.inl rfl)⟩
    . intro n hbusy
      cases n with
      | zero | succ n => exact absurd hidle hbusy
  cases Lts.Run.once_cases (P := fun r : State ι => r.worker = .exited)
      (h.returns _ hfair hstop) with
  | inl hexited =>
    rw [hw] at hexited
    contradiction
  | inr hexited => cases hexited

theorem NoWedge.maxBatchSize : 1 ≤ cfg.maxBatchSize := by
  let s := (entered ι).logLock cfg.normalize default 0
  have hqueue : s.queue = [0] := by
    have hroom := h.maxQueueSize
    rw [logLock_entered_queue, if_neg (by omega)]
  have houtstanding : s.outstanding = [] := by
    simp only [s, State.logLock]
    split
    . rfl
    . split
      . split
        . rfl
        . rfl
      . rfl
  have hreserve : (system ι maxSize build cfg).step s (.worker ⟨false, false⟩)
      = some { s with worker := .take } := by
    rw [step_reserve State.logLock_worker, if_pos (h.reserves hcancel)]
  have hreach := (reachable_entered.step step_entered).step hreserve
  have htaken := h.takes _ ⟨false, false⟩ _ hreach rfl (by simp [hqueue]) houtstanding
    (step_take rfl)
  rw [take_queue_normalize hcancel hreach rfl (by simp [hqueue]) houtstanding] at htaken
  simp only [hqueue, length_drop, length_singleton] at htaken
  omega

end

theorem noWedge_iff (hcancel : cfg.cancelOnShutdown = false)
    : NoWedge (system ι maxSize build cfg)
      ↔ 1 ≤ cfg.maxQueueSize ∧ 1 ≤ cfg.maxBatchSize ∧ cfg.maxBatchSize ≤ maxSize := by
  constructor
  . intro h
    exact ⟨h.maxQueueSize, h.maxBatchSize hcancel, h.reserves hcancel⟩
  . rintro ⟨hroom, hbatch, hsize⟩
    constructor
    . intro s c r s' hreach hc hqueue hstop hstep
      rw [step_logLock hc (reachable_not_terminated hsize hreach)] at hstep
      cases hstep
      rw [State.logLock_queue hqueue hstop, Config.maxQueueSize_normalize, if_neg (by omega)]
    . intro s outcome s' hreach hw hqueue hidle hstep
      have hlength := length_pos_iff.mpr hqueue
      rw [step_take hw] at hstep
      cases hstep
      rw [take_queue_normalize hcancel hreach hw hqueue hidle, length_drop]
      omega
    . intro run hfair hstop
      exact worker_returns hbatch hsize hcancel run hfair hstop

end Converse
end LogIt.OtlpHttpLogger
