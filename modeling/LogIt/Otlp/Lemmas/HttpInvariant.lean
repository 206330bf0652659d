import LogIt.Lib.ThreadSum
import LogIt.Otlp.Lemmas.HttpTransition

namespace LogIt.OtlpHttpLogger

open Function Otlp List

def ClientPc.unsettled (pc : ClientPc) : Multiset Nat :=
  match pc with
  | .log r | .logInside r | .logParked r | .logRelock r => {r}
  | _ => 0

theorem ClientPc.unsettled_of_free {pc : ClientPc} (h : pc.free = true) : pc.unsettled = 0 := by
  cases pc with
  | idle => rfl
  | waitReturned before => rfl
  | _ => contradiction

namespace WorkerPc

def held (pc : WorkerPc) : List (List Nat) :=
  match pc with
  | .submit chunks => chunks
  | .acquire chunk rest | .post chunk rest | .postFailed chunk rest => chunk :: rest
  | _ => []

def posting (pc : WorkerPc) : List (List Nat) :=
  match pc with
  | .post chunk _ | .postFailed chunk _ => [chunk]
  | _ => []

end WorkerPc

variable {ι : Type} {maxSize : Nat} {build : List Nat → List UInt8} {cfg : Config}
  {s s' : State ι} {a : Action ι}

structure Records [Fintype ι] (s : State ι) : Prop where
  submissions : Submissions ClientPc.unsettled s.clients (s.queued + s.refused) s.submitted
  queued : (s.cleared : Multiset Nat) + s.queue + s.worker.held.flatten + s.outstanding.flatten
    + s.answered.flatten + s.discarded.flatten = s.queued
  dropped : s.dropped = s.refused.length + s.cleared.length
  leaving : ∀ c r, s.clients c = .logNotify r → r ∈ s.queued
  returned : ∀ r ∈ s.returned, r ∈ s.queued ∨ r ∈ s.refused

namespace Records

variable [Fintype ι]

theorem init : Records (OtlpHttpLogger.init ι) := by
  constructor
  case submissions => exact Submissions.init rfl
  all_goals simp [OtlpHttpLogger.init, WorkerPc.held]

section Clients

variable [DecidableEq ι] {c : ι} {pc : ClientPc} {r : Nat}

omit [Fintype ι] in
theorem leaving_update {clients : ι → ClientPc} {queued queued' : List Nat}
    (h : ∀ c r, clients c = .logNotify r → r ∈ queued) (hqueued : queued ⊆ queued')
    (hpc : ∀ r, pc = .logNotify r → r ∈ queued')
    : ∀ c' r, update clients c pc c' = .logNotify r → r ∈ queued' := by
  intro c' r hc'
  by_cases heq : c' = c
  . rw [heq, update_self] at hc'
    exact hpc r hc'
  . rw [update_of_ne heq] at hc'
    exact hqueued (h c' r hc')

variable (h : Records s)

include h

theorem setClient (huns : pc.unsettled = (s.clients c).unsettled) (hpc : ∀ r, pc ≠ .logNotify r)
    : Records (s.setClient c pc) where
  __ := h
  submissions := h.submissions.update huns
  leaving := by
    apply leaving_update h.leaving (List.Subset.refl _)
    intro r hr
    exact absurd hr (hpc r)

theorem log (hc : (s.clients c).free = true)
    : Records { s.setClient c (.log s.submitted) with submitted := s.submitted + 1 } where
  __ := h
  submissions := h.submissions.call (ClientPc.unsettled_of_free hc) rfl
  leaving := by
    apply leaving_update h.leaving (List.Subset.refl _)
    simp

theorem refuse (huns : (s.clients c).unsettled = {r}) : Records (s.refuse c r) where
  submissions := by
    apply h.submissions.settle huns rfl
    simp only [State.refuse, State.setClient, ← Multiset.coe_add, Multiset.coe_singleton]
    abel
  queued := h.queued
  dropped := by
    have hdropped := h.dropped
    simp only [State.refuse, State.setClient, length_append, length_singleton]
    omega
  leaving := by
    apply leaving_update h.leaving (List.Subset.refl _)
    simp
  returned := by
    intro x hx
    cases mem_append.mp hx with
    | inl hx => exact (h.returned x hx).imp_right (mem_append_left [r])
    | inr hx => exact .inr (mem_append_right _ hx)

theorem push (hc : s.clients c = .logInside r)
    : Records { s.setClient c (.logNotify r) with
        queue := s.queue ++ [r], queued := s.queued ++ [r] } where
  submissions := by
    have huns : (s.clients c).unsettled = {r} := by
      rw [hc]
      rfl
    apply h.submissions.settle huns rfl
    simp only [State.setClient, ← Multiset.coe_add, Multiset.coe_singleton]
    abel
  queued := by
    simp only [State.setClient, ← Multiset.coe_add]
    rw [← h.queued]
    abel
  dropped := h.dropped
  leaving := by
    apply leaving_update h.leaving (subset_append_left _ _)
    intro x hx
    cases hx
    simp
  returned := by
    intro x hx
    exact (h.returned x hx).imp_left (mem_append_left _)

theorem leave (hc : s.clients c = .logNotify r)
    : Records { s.setClient c .idle with
        lifecycleLocked := false, returned := s.returned ++ [r] } where
  __ := h
  submissions := by
    apply h.submissions.update
    rw [hc]
    rfl
  leaving := by
    apply leaving_update h.leaving (List.Subset.refl _)
    simp
  returned := by
    intro x hx
    rw [mem_append, mem_singleton] at hx
    cases hx with
    | inl hx => exact h.returned x hx
    | inr hx =>
      rw [hx]
      exact .inl (h.leaving c r hc)

end Clients

theorem move (h : Records s) {queue : List Nat} {worker : WorkerPc}
    {outstanding answered discarded : List (List Nat)}
    {httpInFlight failedExports badResponses compressionFailures : Nat}
    (hmove : (queue : Multiset Nat) + worker.held.flatten + outstanding.flatten + answered.flatten
        + discarded.flatten
      = s.queue + s.worker.held.flatten + s.outstanding.flatten + s.answered.flatten
        + s.discarded.flatten)
    : Records { s with
        queue := queue
        worker := worker
        outstanding := outstanding
        answered := answered
        discarded := discarded
        httpInFlight := httpInFlight
        failedExports := failedExports
        badResponses := badResponses
        compressionFailures := compressionFailures } where
  __ := h
  queued := by
    have hqueued := h.queued
    simp only [add_assoc] at hmove hqueued ⊢
    rw [hmove]
    exact hqueued

theorem clear (h : Records s)
    : Records { s with
        stopping := true
        dropped := s.dropped + s.queue.length
        cleared := s.cleared ++ s.queue
        queue := [] } where
  __ := h
  queued := by
    rw [← h.queued, ← Multiset.coe_add]
    simp
  dropped := by
    have hdropped := h.dropped
    simp only [length_append]
    omega

end Records

theorem flatten_eraseIdx {chunks : List (List Nat)} {i : Nat} {chunk : List Nat}
    (h : chunks[i]? = some chunk)
    : (chunk : Multiset Nat) + (chunks.eraseIdx i).flatten = chunks.flatten := by
  obtain ⟨hi, hchunk⟩ := List.getElem?_eq_some_iff.mp h
  have hperm := (List.getElem_cons_eraseIdx_perm hi).flatten
  rw [hchunk, List.flatten_cons] at hperm
  rw [Multiset.coe_add, Multiset.coe_eq_coe]
  exact hperm

theorem Records.step [DecidableEq ι] [Fintype ι] (h : Records s)
    (hstep : Transition maxSize build cfg s a s')
    : Records s' := by
  cases hstep with
  | skip => exact h
  | log hc => exact h.log hc
  | @refuse _ c r hc =>
    apply h.refuse
    rcases hc with hc | hc | hc
    all_goals
      rw [hc]
      rfl
  | @enter c r hc =>
    have hset : Records (s.setClient c (.logInside r)) := by
      apply h.setClient
      . cases hc with
        | inl hc | inr hc =>
          rw [hc]
          rfl
      . simp
    exact { hset with }
  | @park c r hc =>
    have hset : Records (s.setClient c (.logParked r)) := h.setClient (by rw [hc]; rfl) (by simp)
    exact { hset with }
  | push hc => exact h.push hc
  | leave hc => exact h.leave hc
  | wake hc | waitDone hc | stopJoin hc => exact h.setClient (by rw [hc]; rfl) (by simp)
  | wait hc | stop hc => exact h.setClient (ClientPc.unsettled_of_free hc).symm (by simp)
  | @stopAgain c hc | @stopRequests c hc =>
    have hset : Records (s.setClient c .idle) := h.setClient (by rw [hc]; rfl) (by simp)
    exact { hset with }
  | @stopCancel c hc =>
    have hset : Records (s.setClient c .stopJoin) := h.setClient (by rw [hc]; rfl) (by simp)
    exact hset.clear
  | @stopDrain c hc =>
    have hset : Records (s.setClient c .stopJoin) := h.setClient (by rw [hc]; rfl) (by simp)
    exact { hset with }
  | reserve hw | terminate hw | exit hw | again hw | submitted hw | compressFail hw
  | compress hw | acquire hw | postFail hw =>
    apply h.move
    rw [hw]
    rfl
  | take hw =>
    have hqueue : ((s.queue.take cfg.maxBatchSize : List Nat) : Multiset Nat)
        + s.queue.drop cfg.maxBatchSize = s.queue := by
      rw [Multiset.coe_add, take_append_drop]
    apply h.move
    simp only [hw, WorkerPc.held, flatten_payloadChunks, flatten_nil]
    generalize s.queue.take cfg.maxBatchSize = batch at hqueue ⊢
    generalize s.queue.drop cfg.maxBatchSize = rest at hqueue ⊢
    rw [← hqueue, Multiset.coe_nil, add_zero]
    abel
  | cancel hw | post hw | postFailed hw =>
    apply h.move
    simp only [hw, WorkerPc.held, flatten_append, List.flatten_cons, flatten_nil,
      ← Multiset.coe_add]
    abel
  | respond hchunk =>
    apply h.move
    rw [← flatten_eraseIdx hchunk]
    simp only [flatten_append, List.flatten_cons, flatten_nil, ← Multiset.coe_add]
    abel

structure Requests (cfg : Config) (s : State ι) : Prop where
  inFlight : s.httpInFlight = s.outstanding.length + s.worker.posting.length
  bounded : s.httpInFlight ≤ cfg.maxInFlightRequests
  failed : s.failedExports = s.discarded.length + s.badResponses + s.compressionFailures

namespace Requests

theorem outstanding_eq_nil (h : Requests cfg s) (hflight : s.httpInFlight = 0)
    : s.outstanding = [] := by
  have hinFlight := h.inFlight
  apply eq_nil_of_length_eq_zero
  omega

theorem init : Requests cfg (OtlpHttpLogger.init ι) := by
  constructor
  all_goals simp [OtlpHttpLogger.init, WorkerPc.posting]

theorem setWorker (h : Requests cfg s) (hworker : worker.posting = s.worker.posting)
    : Requests cfg { s with queue := queue, worker := worker } where
  __ := h
  inFlight := by
    rw [hworker]
    exact h.inFlight

theorem respond (h : Requests cfg s) {i : Nat} {ok : Bool} {chunk : List Nat}
    (hchunk : s.outstanding[i]? = some chunk)
    : Requests cfg { s with
        outstanding := s.outstanding.eraseIdx i
        answered := s.answered ++ [chunk]
        httpInFlight := s.httpInFlight - 1
        failedExports := if ok then s.failedExports else s.failedExports + 1
        badResponses := if ok then s.badResponses else s.badResponses + 1 } := by
  obtain ⟨hi, _⟩ := List.getElem?_eq_some_iff.mp hchunk
  have hinFlight := h.inFlight
  have hbounded := h.bounded
  have hfailed := h.failed
  constructor
  . simp only [length_eraseIdx_of_lt hi]
    omega
  . dsimp only
    omega
  . cases ok with
    | true => exact hfailed
    | false =>
      simp only [Bool.false_eq_true, if_false]
      omega

theorem step [DecidableEq ι] (h : Requests cfg s) (hstep : Transition maxSize build cfg s a s')
    : Requests cfg s' := by
  have hinFlight := h.inFlight
  have hbounded := h.bounded
  have hfailed := h.failed
  cases hstep with
  | reserve hw | terminate hw | exit hw | again hw | take hw | submitted hw | compress hw
  | postFail hw => exact h.setWorker (by rw [hw]; rfl)
  | compressFail hw =>
    rw [hw] at hinFlight
    refine ⟨hinFlight, hbounded, ?_⟩
    dsimp only
    omega
  | cancel hw =>
    rw [hw] at hinFlight
    refine ⟨hinFlight, hbounded, ?_⟩
    simp only [length_append, length_singleton]
    omega
  | acquire hw hflight =>
    refine ⟨?_, hflight, hfailed⟩
    simp only [hw, WorkerPc.posting, length_nil, length_singleton] at hinFlight ⊢
    omega
  | post hw =>
    refine ⟨?_, hbounded, hfailed⟩
    simp only [hw, WorkerPc.posting, length_nil, length_singleton,
      length_append] at hinFlight ⊢
    omega
  | postFailed hw =>
    simp only [hw, WorkerPc.posting, length_singleton] at hinFlight
    constructor
    . simp only [WorkerPc.posting, length_nil]
      omega
    . dsimp only
      omega
    . simp only [length_append, length_singleton]
      omega
  | respond hchunk => exact h.respond hchunk
  | _ => exact ⟨hinFlight, hbounded, hfailed⟩

end Requests

structure Stopped (cfg : Config) (s : State ι) : Prop where
  exited : s.worker = .exited → s.stopping = true ∧ s.queue = []
  cancelled : cfg.cancelOnShutdown = true → s.stopping = true → s.queue = []
  joined : ∀ c, s.clients c = .stopRequests → s.worker = .exited

namespace Stopped

theorem init : Stopped cfg (OtlpHttpLogger.init ι) := by
  constructor
  all_goals simp [OtlpHttpLogger.init]

theorem running (h : Stopped cfg s) (hold : s.worker ≠ .exited) (hnew : s'.worker ≠ .exited)
    (hqueue : s'.queue = s.queue) (hstop : s'.stopping = s.stopping)
    (hclients : s'.clients = s.clients)
    : Stopped cfg s' where
  exited hexited := absurd hexited hnew
  cancelled := by
    rw [hqueue, hstop]
    exact h.cancelled
  joined := by
    intro c hc
    rw [hclients] at hc
    exact absurd (h.joined c hc) hold

theorem joined_update [DecidableEq ι] (h : Stopped cfg s)
    (hpc : pc = .stopRequests → s.worker = .exited)
    : ∀ c', update s.clients c pc c' = .stopRequests → s.worker = .exited := by
  intro c' hc'
  by_cases heq : c' = c
  . rw [heq, update_self] at hc'
    exact hpc hc'
  . rw [update_of_ne heq] at hc'
    exact h.joined c' hc'

theorem step [DecidableEq ι] (h : Stopped cfg s) (hstep : Transition maxSize build cfg s a s')
    : Stopped cfg s' := by
  cases hstep with
  | skip => exact h
  | push hc hstop =>
    constructor
    . intro hexited
      have hstopping := (h.exited hexited).1
      rw [hstop] at hstopping
      contradiction
    . intro _ hstopping
      dsimp only [State.setClient] at hstopping
      rw [hstop] at hstopping
      contradiction
    . exact h.joined_update (by simp)
  | stopJoin hc hw => exact ⟨h.exited, h.cancelled, h.joined_update (fun _ => hw)⟩
  | stopCancel hc =>
    refine ⟨?_, ?_, h.joined_update (by simp)⟩
    . intro _
      exact ⟨rfl, rfl⟩
    . intro _ _
      rfl
  | stopDrain hc hstop hcancel =>
    refine ⟨?_, ?_, h.joined_update (by simp)⟩
    . intro hexited
      exact ⟨rfl, (h.exited hexited).2⟩
    . intro hcancel'
      rw [hcancel] at hcancel'
      contradiction
  | exit hw hstop hexit =>
    refine ⟨?_, h.cancelled, fun _ _ => rfl⟩
    intro _
    refine ⟨hstop, ?_⟩
    cases hexit with
    | inl hcancel => exact h.cancelled hcancel hstop
    | inr hempty => exact hempty.1
  | take hw =>
    refine ⟨by simp, ?_, ?_⟩
    . intro hcancel hstop
      dsimp only at hstop ⊢
      rw [h.cancelled hcancel hstop, drop_nil]
    . intro c hc
      have hexited := h.joined c hc
      rw [hw] at hexited
      contradiction
  | reserve hw | terminate hw | again hw | submitted hw | compress hw | postFail hw
  | compressFail hw | acquire hw | cancel hw | post hw | postFailed hw =>
    exact h.running (by simp [hw]) (by simp) rfl rfl rfl
  | respond => exact ⟨h.exited, h.cancelled, h.joined⟩
  | _ => exact ⟨h.exited, h.cancelled, h.joined_update (by simp)⟩

end Stopped

section Reachable

variable [DecidableEq ι]

theorem reachable_requests (h : (system ι maxSize build cfg).Reachable s)
    : Requests cfg.normalize s := by
  apply h.invariant (Requests cfg.normalize) .init
  intro s a s' _ hinv hstep
  exact hinv.step (.of_step hstep)

variable [Fintype ι]

structure Inv (cfg : Config) (s : State ι) : Prop where
  records : Records s
  requests : Requests cfg s
  stopped : Stopped cfg s

theorem reachable_inv (h : (system ι maxSize build cfg).Reachable s) : Inv cfg.normalize s := by
  apply h.invariant (Inv cfg.normalize) ⟨.init, .init, .init⟩
  intro s a s' _ hinv hstep
  have htransition := Transition.of_step hstep
  exact ⟨hinv.records.step htransition, hinv.requests.step htransition,
    hinv.stopped.step htransition⟩

end Reachable
end LogIt.OtlpHttpLogger
