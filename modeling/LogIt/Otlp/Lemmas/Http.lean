import LogIt.Otlp.Lemmas.HttpInvariant

namespace LogIt.OtlpHttpLogger

open List Multiset

variable {ι : Type} {build : List Nat → List UInt8} {cfg : Config} {s s' : State ι}
  {a : Action ι} {maxSize : Nat}

theorem Config.maxInFlightRequests_normalize (cfg : Config)
    : cfg.normalize.maxInFlightRequests = max cfg.maxInFlightRequests 1 := by
  unfold Config.normalize
  split
  . next hzero => rw [hzero]; rfl
  . omega

def State.places (s : State ι) : List (List Nat) :=
  [s.refused ++ s.cleared, s.queue, s.worker.held.flatten, s.outstanding.flatten,
    s.answered.flatten, s.discarded.flatten]

theorem Records.perm_places [Fintype ι] (h : Records s)
    : (s.places.flatten : Multiset Nat) = s.queued + s.refused := by
  rw [← h.queued]
  simp only [State.places, flatten_cons, flatten_nil, append_nil,
    ← coe_add]
  abel

theorem Records.nodup_places [Fintype ι] (h : Records s) : s.places.flatten.Nodup := by
  rw [← coe_nodup, h.perm_places]
  exact h.submissions.nodup

theorem Records.mem_places [Fintype ι] (h : Records s) (hr : r ∈ s.returned)
    : r ∈ s.places.flatten := by
  rw [← mem_coe, h.perm_places, mem_add, mem_coe, mem_coe]
  exact h.returned r hr

section Stop

variable [DecidableEq ι]

def StopsOnce (s : State ι) (a : Action ι) : Prop :=
  match a with
  | .stopEnter c => s.clients c = .stop → s.stopping = true → s.queue = []
  | _ => True

instance (s : State ι) (a : Action ι) : Decidable (StopsOnce s a) := by
  unfold StopsOnce
  split <;> infer_instance

theorem queue_of_stopReturned [Fintype ι]
    (h : (system ι maxSize build cfg).ReachableVia StopsOnce s) (hreturned : s.stopReturned = true)
    : s.queue = [] := by
  have hinv : s.stopReturned = true → s.stopping = true ∧ s.queue = [] := by
    apply h.invariant (fun s => s.stopReturned = true → s.stopping = true ∧ s.queue = [])
    . simp [system, init]
    . intro s a s' reach hinv hok hstep
      cases Transition.of_step hstep with
      | push hc hstop =>
        intro hreturned
        have hstopping := (hinv hreturned).1
        rw [hstop] at hstopping
        contradiction
      | stopAgain hc hstop =>
        intro _
        exact ⟨hstop, hok hc hstop⟩
      | stopRequests hc =>
        intro _
        have hstopped := (reachable_inv reach.reachable).stopped
        exact hstopped.exited (hstopped.joined _ hc)
      | stopCancel => exact fun _ => ⟨rfl, rfl⟩
      | stopDrain => exact fun hreturned => ⟨rfl, (hinv hreturned).2⟩
      | take =>
        intro hreturned
        obtain ⟨hstop, hqueue⟩ := hinv hreturned
        refine ⟨hstop, ?_⟩
        rw [hqueue, drop_nil]
      | _ => exact hinv
  exact (hinv hreturned).2

theorem records_accounted [Fintype ι] (maxSize : Nat) (build : List Nat → List UInt8) (cfg : Config)
    (s : State ι) (h : (system ι maxSize build cfg).ReachableVia StopsOnce s)
    : (s.httpInFlight ≤ max cfg.maxInFlightRequests 1 ∧
        s.httpInFlight = s.outstanding.length + s.worker.posting.length) ∧
      (s.places.flatten.Nodup ∧ ∀ r ∈ s.returned, r ∈ s.places.flatten) ∧
      s.dropped = (s.refused ++ s.cleared).length ∧
      s.failedExports = s.discarded.length + s.badResponses + s.compressionFailures ∧
      (s.stopReturned = true → s.queue = []) := by
  have hinv := reachable_inv h.reachable
  refine ⟨⟨?_, hinv.requests.inFlight⟩, ⟨hinv.records.nodup_places, fun r => hinv.records.mem_places⟩,
    ?_, hinv.requests.failed, queue_of_stopReturned h⟩
  . rw [← Config.maxInFlightRequests_normalize]
    exact hinv.requests.bounded
  . rw [length_append]
    exact hinv.records.dropped

theorem records_accounted_cancelled
    : ∃ s : State (Fin 2), ((system (Fin 2) (2 ^ 32) (fun rs => rs.map UInt8.ofNat)
          { Config.default with cancelOnShutdown := true }).ReachableVia StopsOnce s ∧
        s.outstanding = [[0]] ∧ s.cleared = [1] ∧ s.returned = [0, 1] ∧ s.stopReturned = true) ∧
        s.httpInFlight = 1 ∧ s.dropped = 1 ∧ s.queue = [] ∧ ∀ r ∈ [0, 1], r ∈ s.places.flatten := by
  have hrun : ∃ s : State (Fin 2), (system (Fin 2) (2 ^ 32) (fun rs => rs.map UInt8.ofNat)
      { Config.default with cancelOnShutdown := true }).ReachableVia StopsOnce s ∧
      s.outstanding = [[0]] ∧ s.cleared = [1] ∧ s.returned = [0, 1] ∧ s.stopReturned = true ∧
      s.worker = .exited ∧ s.refused = [] := by
    apply Lts.exists_reachableVia _ _
      [.log 0, .logEnter 0, .logLock 0, .logNotify 0, .worker ⟨false, false⟩,
        .worker ⟨false, false⟩, .worker ⟨false, false⟩, .worker ⟨false, false⟩,
        .worker ⟨false, false⟩, .log 1, .logEnter 1, .logLock 1, .logNotify 1, .stop 0,
        .stopEnter 0, .worker ⟨false, false⟩, .worker ⟨false, false⟩, .worker ⟨false, false⟩,
        .stopJoin 0, .stopRequests 0]
    decide
  obtain ⟨s, reach, houtstanding, hcleared, hreturned, hstop, hworker, hrefused⟩ := hrun
  have haccounted := records_accounted (2 ^ 32) (fun rs => rs.map UInt8.ofNat) _ s reach
  obtain ⟨⟨_, hflight⟩, ⟨_, hplaces⟩, hdropped, _, hqueue⟩ := haccounted
  rw [houtstanding, hworker] at hflight
  rw [hrefused, hcleared] at hdropped
  rw [hreturned] at hplaces
  exact ⟨s, ⟨reach, houtstanding, hcleared, hreturned, hstop⟩, hflight, hdropped, hqueue hstop,
    hplaces⟩

theorem stop_overtakes
    : ∃ s : State (Fin 2), (system (Fin 2) (2 ^ 32) (fun rs => rs.map UInt8.ofNat)
        .default).Reachable s ∧ s.stopReturned = true ∧ s.queue = [0] := by
  apply Lts.exists_reachable _
    [.log 0, .logEnter 0, .logLock 0, .logNotify 0, .stop 0, .stopEnter 0, .stop 1, .stopEnter 1]
  decide

end Stop

section Wait

def ClientPc.Barred (s : State ι) (pc : ClientPc) : Prop :=
  match pc with
  | .wait before => before ⊆ s.queued
  | .waitReturned before => before ⊆ s.answered.flatten ++ s.discarded.flatten
  | .stop => False
  | _ => True

theorem ClientPc.Barred.mono {pc : ClientPc} (h : pc.Barred s) (hqueued : s.queued ⊆ s'.queued)
    (hanswered : s.answered.flatten ⊆ s'.answered.flatten)
    (hdiscarded : s.discarded.flatten ⊆ s'.discarded.flatten)
    : pc.Barred s' := by
  cases pc with
  | wait before => exact List.Subset.trans h hqueued
  | waitReturned before =>
    apply List.Subset.trans h
    apply append_subset_of_subset_of_subset
    . exact subset_append_of_subset_left _ hanswered
    . exact subset_append_of_subset_right _ hdiscarded
  | stop => exact h
  | _ => trivial

def WaitsForWorker (s : State ι) (a : Action ι) : Prop :=
  match a with
  | .stop _ => False
  | .waitLock c =>
    match s.clients c with
    | .wait before => s.queue = [] → s.httpInFlight = 0 → ∀ r ∈ before, r ∉ s.worker.held.flatten
    | _ => True
  | _ => True

instance (s : State ι) (a : Action ι) : Decidable (WaitsForWorker s a) := by
  unfold WaitsForWorker
  split
  . infer_instance
  . split <;> infer_instance
  . infer_instance

structure Barrier (s : State ι) : Prop where
  clients : ∀ c, (s.clients c).Barred s
  cleared : s.cleared = []

theorem Inv.settled_of_drained [Fintype ι] (h : Inv cfg s) (hcleared : s.cleared = [])
    (hqueue : s.queue = []) (hflight : s.httpInFlight = 0) (hr : r ∈ s.queued)
    (hworker : r ∉ s.worker.held.flatten)
    : r ∈ s.answered.flatten ++ s.discarded.flatten := by
  have houtstanding := h.requests.outstanding_eq_nil hflight
  -- Of the places of a queued record only the last two are left.
  rw [← mem_coe, ← h.records.queued, hcleared, hqueue, houtstanding] at hr
  simp only [mem_add, mem_coe, flatten_nil, not_mem_nil, hworker,
    or_false, false_or] at hr
  exact mem_append.mpr hr

theorem Barrier.frame (h : Barrier s) (hclients : s'.clients = s.clients)
    (hcleared : s'.cleared = s.cleared) (hqueued : s'.queued = s.queued)
    (hanswered : s.answered.flatten ⊆ s'.answered.flatten)
    (hdiscarded : s.discarded.flatten ⊆ s'.discarded.flatten)
    : Barrier s' where
  clients := by
    intro c
    rw [hclients]
    apply (h.clients c).mono _ hanswered hdiscarded
    rw [hqueued]
    exact List.Subset.refl _
  cleared := by
    rw [hcleared]
    exact h.cleared

theorem Barrier.not_stop (h : Barrier s) (c : ι) : s.clients c ≠ .stop := by
  intro hc
  have hstop := h.clients c
  rw [hc] at hstop
  exact hstop

variable [DecidableEq ι]

theorem Barrier.update (h : Barrier s) (hclients : s'.clients = Function.update s.clients c pc)
    (hpc : pc.Barred s') (hcleared : s'.cleared = s.cleared) (hqueued : s.queued ⊆ s'.queued)
    (hanswered : s'.answered = s.answered) (hdiscarded : s'.discarded = s.discarded)
    : Barrier s' where
  clients := by
    intro c'
    rw [hclients]
    by_cases heq : c' = c
    . rw [heq, Function.update_self]
      exact hpc
    . rw [Function.update_of_ne heq]
      apply (h.clients c').mono hqueued
      . rw [hanswered]
        exact List.Subset.refl _
      . rw [hdiscarded]
        exact List.Subset.refl _
  cleared := by
    rw [hcleared]
    exact h.cleared

theorem Barrier.step [Fintype ι] (hinv : Inv cfg s) (h : Barrier s) (hok : WaitsForWorker s a)
    (hstep : Transition maxSize build cfg s a s')
    : Barrier s' := by
  cases hstep with
  | skip => exact h
  | wait =>
    refine h.update rfl ?_ rfl (List.Subset.refl _) rfl rfl
    exact List.Subset.refl _
  | @waitDone c before hc hqueue hflight =>
    have hbefore := h.clients c
    rw [hc] at hbefore
    simp only [WaitsForWorker, hc] at hok
    refine h.update rfl ?_ rfl (List.Subset.refl _) rfl rfl
    intro r hr
    exact hinv.settled_of_drained h.cleared hqueue hflight (hbefore hr) (hok hqueue hflight r hr)
  | stop => exact hok.elim
  | stopAgain hc | stopCancel hc | stopDrain hc => exact absurd hc (h.not_stop _)
  | push => exact h.update rfl trivial rfl (subset_append_left _ _) rfl rfl
  | log | refuse | enter | park | leave | wake | stopJoin | stopRequests =>
    exact h.update rfl trivial rfl (List.Subset.refl _) rfl rfl
  | respond =>
    refine h.frame rfl rfl rfl ?_ (List.Subset.refl _)
    simp
  | cancel | postFailed =>
    refine h.frame rfl rfl rfl (List.Subset.refl _) ?_
    simp
  | _ => exact h.frame rfl rfl rfl (List.Subset.refl _) (List.Subset.refl _)

theorem reachable_barrier [Fintype ι]
    (h : (system ι maxSize build cfg).ReachableVia WaitsForWorker s)
    : Barrier s := by
  apply h.invariant Barrier
  . exact ⟨fun _ => trivial, rfl⟩
  . intro s a s' reach hbarrier hok hstep
    exact hbarrier.step (reachable_inv reach.reachable) hok (Transition.of_step hstep)

theorem wait_exports [Fintype ι] (maxSize : Nat) (build : List Nat → List UInt8) (cfg : Config)
    (s : State ι) (h : (system ι maxSize build cfg).ReachableVia WaitsForWorker s) (c : ι)
    (before : List Nat) (hreturned : s.clients c = .waitReturned before)
    : (∀ r ∈ before, (∃ chunk ∈ s.answered, r ∈ chunk) ∨ ∃ chunk ∈ s.discarded, r ∈ chunk) ∧
      s.failedExports = s.discarded.length + s.badResponses + s.compressionFailures := by
  refine ⟨?_, (reachable_inv h.reachable).requests.failed⟩
  intro r hr
  have hbarred := (reachable_barrier h).clients c
  rw [hreturned] at hbarred
  have hr := hbarred hr
  rw [mem_append, mem_flatten, mem_flatten] at hr
  exact hr

theorem wait_exports_failing
    : ∃ s : State (Fin 2), ((system (Fin 2) (2 ^ 32) (fun rs => rs.map UInt8.ofNat)
          { Config.default with maxBatchSize := 1 }).ReachableVia WaitsForWorker s ∧
        s.clients 1 = .waitReturned [0, 1]) ∧
      (∀ r ∈ [0, 1], (∃ chunk ∈ s.answered, r ∈ chunk) ∨ ∃ chunk ∈ s.discarded, r ∈ chunk) ∧
      s.failedExports = 2 := by
  have hrun : ∃ s : State (Fin 2), (system (Fin 2) (2 ^ 32) (fun rs => rs.map UInt8.ofNat)
      { Config.default with maxBatchSize := 1 }).ReachableVia WaitsForWorker s ∧
      s.clients 1 = .waitReturned [0, 1] ∧ s.discarded = [[1]] ∧ s.badResponses = 1 ∧
      s.compressionFailures = 0 := by
    apply Lts.exists_reachableVia _ _
      [.log 0, .logEnter 0, .logLock 0, .logNotify 0, .log 0, .logEnter 0, .logLock 0, .logNotify 0,
        .wait 1, .worker ⟨false, false⟩, .worker ⟨false, false⟩, .worker ⟨false, false⟩,
        .worker ⟨false, false⟩, .worker ⟨false, false⟩, .waitLock 1, .respond 0 false,
        .worker ⟨false, false⟩, .worker ⟨false, false⟩, .worker ⟨false, false⟩,
        .worker ⟨false, false⟩, .worker ⟨false, false⟩, .worker ⟨false, true⟩,
        .worker ⟨false, false⟩, .waitLock 1]
    decide
  obtain ⟨s, reach, hreturned, hdiscarded, hbad, hcompression⟩ := hrun
  have hexports := wait_exports (2 ^ 32) (fun rs => rs.map UInt8.ofNat) _ s reach 1 [0, 1] hreturned
  obtain ⟨hsettled, hfailed⟩ := hexports
  rw [hdiscarded, hbad, hcompression] at hfailed
  exact ⟨s, ⟨reach, hreturned⟩, hsettled, hfailed⟩

theorem wait_misses_batch
    : ∃ s : State (Fin 2), (system (Fin 2) (2 ^ 32) (fun rs => rs.map UInt8.ofNat)
        .default).Reachable s ∧ s.stopping = false ∧ s.clients 1 = .waitReturned [0] ∧
        s.worker = .submit [[0]] ∧ s.outstanding = [] ∧ s.answered = [] ∧ s.discarded = [] := by
  apply Lts.exists_reachable _
    [.log 0, .logEnter 0, .logLock 0, .logNotify 0, .wait 1, .worker ⟨false, false⟩,
      .worker ⟨false, false⟩, .waitLock 1]
  decide

end Wait
end LogIt.OtlpHttpLogger
