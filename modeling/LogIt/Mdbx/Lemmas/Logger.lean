import LogIt.Lib.BatchQueue.Accounting
import LogIt.Mdbx.Impl.Logger
import LogIt.Mdbx.Lemmas.Store

namespace LogIt.MdbxLogger

open List

variable {cfg : Config} {items : Nat → MdbxLogItem} {tables : Tables} {sessionId : UInt64} {e : Env}

namespace Env

def committed (e : Env) : List (List Written) :=
  e.outcomes.filterMap BatchOutcome.written

def failedBatches (e : Env) : Nat :=
  e.outcomes.countP (fun outcome => outcome.written.isNone)

end Env

section Current

variable (current : Option (List Nat × WritePc))

def unwritten : List Nat :=
  match current with
  | some (_, .write batch) => batch
  | _ => []

def unpublished : List (List LogRecordSnapshot) :=
  match current with
  | some (_, .publish snapshots) => [snapshots]
  | _ => []

def pendingCalls : List (Nat × LogRecordSnapshot) :=
  match current with
  | some (_, .notify calls) => calls
  | _ => []

end Current

def snapshotsOf (written : List Written) : List LogRecordSnapshot :=
  written.map (fun w => toLogRecordSnapshot w.record)

structure Persisted (cfg : Config) (items : Nat → MdbxLogItem) (tables : Tables)
    (sessionId : UInt64) (e : Env) : Prop where
  records : e.store.tables.records.entries.Perm
    (e.committed.flatten.map Written.recordEntry ++ tables.records.entries)
  payloads : e.store.tables.payloads.entries.Perm
    (e.committed.flatten.filterMap Written.payloadEntry ++ tables.payloads.entries)
  stores : ∀ outcome ∈ e.outcomes, ∀ written, outcome.written = some written →
    List.Forall₂ (Stores cfg sessionId) (outcome.batch.map items) written
  sessionId : e.store.sessionId = sessionId
  failures : e.store.failedWrites
    = e.failedBatches + e.store.compressionFailures + e.sessionEndFailures

structure Progress (e : Env) (finished : List (List Nat)) (current : Option (List Nat × WritePc))
    : Prop where
  batches : e.outcomes.flatMap BatchOutcome.batch ++ unwritten current
    = finished.flatten ++ BatchQueue.heldOf current
  held : unwritten current = [] ∨ unwritten current = BatchQueue.heldOf current
  published : e.published.map Prod.snd ++ unpublished current = e.committed.map snapshotsOf
  received : e.received ++ pendingCalls current
    = e.published.flatMap (fun batch => notifications batch.1 batch.2)

theorem Env.report_eq (cfg : Config) (e : Env) (text : String) (thrown : Thrown)
    : ∃ errors, e.report cfg text thrown = { e with errors := errors } := by
  unfold Env.report
  split
  . split
    . exact ⟨_, rfl⟩
    . exact ⟨_, rfl⟩
  . exact ⟨e.errors, rfl⟩

inductive Works (cfg : Config) (items : Nat → MdbxLogItem) (e : Env)
    : WritePc → Env → Option WritePc → Prop where
  | commit {batch store written} (hwrote : WroteAll cfg (batch.map items) e.store store written)
      (hadvances : e.store.Advances store)
    : Works cfg items e (.write batch)
        { e with store := store, outcomes := e.outcomes ++ [⟨batch, some written⟩] }
        (some (.publish (snapshotsOf written)))
  | fail {batch store errors} (hfailed : Failed e.store store) : Works cfg items e (.write batch)
        { e with store := store, outcomes := e.outcomes ++ [⟨batch, none⟩], errors := errors } none
  | publish {snapshots} : Works cfg items e (.publish snapshots)
        { e with published := e.published ++ [(e.callbacks, snapshots)] }
        (some (.notify (notifications e.callbacks snapshots)))
  | call {call calls}
      {errors}
    : Works cfg items e (.notify (call :: calls))
        { e with received := e.received ++ [call], errors := errors } (some (.notify calls))
  | done : Works cfg items e (.notify []) e none

theorem Works.of_work (pc : WritePc) (world : World)
    : Works cfg items e pc ((consumer cfg items tables sessionId).work e pc world).1
        ((consumer cfg items tables sessionId).work e pc world).2 := by
  cases pc with
  | write batch =>
    have hspec := writeBatch_spec cfg (batch.map items) world e.store
    dsimp only [consumer, Env.write]
    split
    . next hbatch =>
      rw [hbatch] at hspec
      exact .commit hspec.1 hspec.2
    . next thrown store hbatch =>
      rw [hbatch] at hspec
      obtain ⟨errors, hreport⟩ := Env.report_eq cfg
        { e with store := store, outcomes := e.outcomes ++ [⟨batch, none⟩] }
        "MdbxLogger write error" thrown
      rw [hreport]
      exact .fail hspec
  | publish snapshots => exact .publish
  | notify calls =>
    cases calls with
    | nil => exact .done
    | cons call calls =>
      dsimp only [consumer]
      split
      . next thrown _ =>
        obtain ⟨errors, hreport⟩ := Env.report_eq cfg
          { e with received := e.received ++ [call] } "MdbxLogger callback error" thrown
        rw [hreport]
        exact .call
      . exact .call

namespace Persisted

theorem init : Persisted cfg items tables sessionId (consumer cfg items tables sessionId).init where
  records := List.Perm.refl _
  payloads := List.Perm.refl _
  stores := by
    intro outcome houtcome
    contradiction
  sessionId := rfl
  failures := rfl

variable (h : Persisted cfg items tables sessionId e)

include h

theorem congr (hstore : e'.store = e.store)
    (houtcomes : e'.outcomes = e.outcomes) (hend : e'.sessionEndFailures = e.sessionEndFailures)
    : Persisted cfg items tables sessionId e' := by
  have hcommitted : e'.committed = e.committed := by
    unfold Env.committed
    rw [houtcomes]
  have hfailed : e'.failedBatches = e.failedBatches := by
    unfold Env.failedBatches
    rw [houtcomes]
  constructor
  . rw [hstore, hcommitted]
    exact h.records
  . rw [hstore, hcommitted]
    exact h.payloads
  . rw [houtcomes]
    exact h.stores
  . rw [hstore]
    exact h.sessionId
  . rw [hstore, hfailed, hend]
    exact h.failures

theorem commit (hwrote : WroteAll cfg (batch.map items) e.store store written)
    (hadvances : e.store.Advances store)
    : Persisted cfg items tables sessionId
        { e with store := store, outcomes := e.outcomes ++ [⟨batch, some written⟩] } := by
  constructor
  . -- The entries of the batch are put in front, and the history has them at its end.
    apply hwrote.perm_records.trans
    apply (h.records.append_left _).trans
    simp only [Env.committed, filterMap_append, filterMap_cons, filterMap_nil,
      flatten_append, flatten_cons, flatten_nil, append_nil, map_append]
    rw [← append_assoc]
    exact perm_append_comm.append_right _
  . apply hwrote.perm_payloads.trans
    apply (h.payloads.append_left _).trans
    simp only [Env.committed, filterMap_append, filterMap_cons, filterMap_nil,
      flatten_append, flatten_cons, flatten_nil, append_nil]
    rw [← append_assoc]
    exact perm_append_comm.append_right _
  . intro outcome houtcome written' hwritten
    cases mem_append.mp houtcome with
    | inl houtcome => exact h.stores outcome houtcome written' hwritten
    | inr houtcome =>
      rw [mem_singleton.mp houtcome] at hwritten ⊢
      cases hwritten
      rw [← h.sessionId]
      exact hwrote.stores
  . rw [hadvances.sessionId]
    exact h.sessionId
  . have hbefore := h.failures
    have hafter := hadvances.failures
    simp only [Env.failedBatches, countP_append, countP_singleton,
      Option.isNone_some] at hbefore ⊢
    simp only [Bool.false_eq_true, if_false]
    omega

theorem fail (hfailed : Failed e.store store)
    : Persisted cfg items tables sessionId
        { e with store := store, outcomes := e.outcomes ++ [⟨batch, none⟩] } := by
  have hcommitted : (e.outcomes ++ [BatchOutcome.mk batch none]).filterMap BatchOutcome.written
      = e.committed := by
    simp [Env.committed]
  constructor
  . dsimp only [Env.committed]
    rw [hfailed.tables, hcommitted]
    exact h.records
  . dsimp only [Env.committed]
    rw [hfailed.tables, hcommitted]
    exact h.payloads
  . intro outcome houtcome written hwritten
    cases mem_append.mp houtcome with
    | inl houtcome => exact h.stores outcome houtcome written hwritten
    | inr houtcome =>
      rw [mem_singleton.mp houtcome] at hwritten
      contradiction
  . rw [hfailed.sessionId]
    exact h.sessionId
  . have hbefore := h.failures
    have hafter := hfailed.failures
    simp only [Env.failedBatches, countP_append, countP_singleton,
      Option.isNone_none] at hbefore ⊢
    simp only [if_true]
    omega

theorem close : Persisted cfg items tables sessionId (e.close cfg world) := by
  have hsessions := (SessionProgram.updateSessionEnd cfg).transaction world e.store
  unfold Env.close
  split
  . next htransaction =>
    rw [htransaction] at hsessions
    obtain ⟨sessions, hstore⟩ := hsessions
    dsimp only at hstore
    rw [hstore]
    exact ⟨h.records, h.payloads, h.stores, h.sessionId, h.failures⟩
  . next htransaction =>
    rw [htransaction] at hsessions
    obtain ⟨sessions, hstore⟩ := hsessions
    have hfailures := h.failures
    dsimp only at hstore
    rw [hstore]
    refine ⟨h.records, h.payloads, h.stores, h.sessionId, ?_⟩
    dsimp only [Env.failedBatches] at hfailures ⊢
    omega

end Persisted

theorem Persisted.work (h : Persisted cfg items tables sessionId e)
    (hwork : Works cfg items e pc e' pc')
    : Persisted cfg items tables sessionId e' := by
  cases hwork with
  | commit hwrote hadvances => exact h.commit hwrote hadvances
  | fail hfailed => exact Persisted.congr (h.fail hfailed) rfl rfl rfl
  | publish | call => exact h.congr rfl rfl rfl
  | done => exact h

theorem keeps_persisted
    : (consumer cfg items tables sessionId).Keeps
        (fun e _ _ => Persisted cfg items tables sessionId e) := by
  apply BatchQueue.Consumer.Keeps.of_env .init
  . intro e pc world h
    exact h.work (Works.of_work pc world)
  . intro e subscription h
    cases subscription with
    | addLogCallback | removeLogCallback id => exact h.congr rfl rfl rfl
  . intro e world h
    exact h.close

theorem Env.close_eq (cfg : Config) (e : Env) (world : World)
    : ∃ store failures, e.close cfg world =
        { e with store := store, sessionEndFailures := failures } := by
  unfold Env.close
  split
  . exact ⟨_, _, rfl⟩
  . exact ⟨_, _, rfl⟩

theorem Progress.finished_subset (h : Progress e finished current)
    : finished.flatten ⊆ e.outcomes.flatMap BatchOutcome.batch := by
  have hbatches := h.batches
  cases h.held with
  | inl hwritten =>
    rw [hwritten, append_nil] at hbatches
    rw [hbatches]
    exact subset_append_left _ _
  | inr hheld =>
    rw [hheld] at hbatches
    rw [append_cancel_right hbatches]
    exact List.Subset.refl _

theorem Progress.work (h : Progress e finished (some (batch, pc)))
    (hwork : Works cfg items e pc e' (some pc'))
    : Progress e' finished (some (batch, pc')) := by
  obtain ⟨hbatches, _, hpublished, hreceived⟩ := h
  cases hwork with
  | commit =>
    refine ⟨?_, .inl rfl, ?_, hreceived⟩
    . simpa [unwritten, BatchQueue.heldOf] using hbatches
    . simpa [unpublished, Env.committed] using hpublished
  | publish =>
    refine ⟨hbatches, .inl rfl, ?_, ?_⟩
    . simpa [unpublished, Env.committed] using hpublished
    . simpa [pendingCalls] using hreceived
  | call =>
    refine ⟨hbatches, .inl rfl, hpublished, ?_⟩
    simpa [pendingCalls] using hreceived

theorem Progress.done (h : Progress e finished (some (batch, pc)))
    (hwork : Works cfg items e pc e' none)
    : Progress e' (finished ++ [batch]) none := by
  obtain ⟨hbatches, _, hpublished, hreceived⟩ := h
  cases hwork with
  | fail =>
    -- A batch that failed is not published, and no call is pending for it.
    refine ⟨?_, .inl rfl, ?_, hreceived⟩
    . simpa [unwritten, BatchQueue.heldOf] using hbatches
    . simpa [unpublished, Env.committed] using hpublished
  | done =>
    refine ⟨?_, .inl rfl, hpublished, hreceived⟩
    simpa [unwritten, BatchQueue.heldOf] using hbatches

theorem keeps_progress : (consumer cfg items tables sessionId).Keeps Progress where
  init := ⟨rfl, .inl rfl, rfl, rfl⟩
  start := by
    intro e finished batch pc h hstart
    simp only [consumer] at hstart
    split at hstart
    . contradiction
    . cases hstart
      refine ⟨?_, .inr rfl, h.published, h.received⟩
      simpa [unwritten, BatchQueue.heldOf] using h.batches
  skip := by
    intro e finished batch h hstart
    simp only [consumer] at hstart
    split at hstart
    . next hempty =>
      rw [List.isEmpty_iff] at hempty
      refine ⟨?_, .inl rfl, h.published, h.received⟩
      simpa [hempty, BatchQueue.heldOf] using h.batches
    . contradiction
  work := by
    intro e finished batch pc world pc' h hwork
    have hworks := @Works.of_work cfg items tables sessionId e pc world
    rw [hwork] at hworks
    exact h.work hworks
  done := by
    intro e finished batch pc world h hwork
    have hworks := @Works.of_work cfg items tables sessionId e pc world
    rw [hwork] at hworks
    exact h.done hworks
  outside := by
    intro e finished current subscription h
    cases subscription with
    | addLogCallback | removeLogCallback id => exact ⟨h.batches, h.held, h.published, h.received⟩
  close := by
    intro e finished world h
    obtain ⟨store, failures, hclose⟩ := Env.close_eq cfg e world
    dsimp only [consumer]
    rw [hclose]
    exact ⟨h.batches, h.held, h.published, h.received⟩

structure Subscribed (e : Env) : Prop where
  nodup : e.callbacks.Nodup
  lt : ∀ id ∈ e.callbacks, id < e.nextCallbackId
  published : ∀ batch ∈ e.published, batch.1.Nodup

theorem Subscribed.work (h : Subscribed e) (hwork : Works cfg items e pc e' pc')
    : Subscribed e' := by
  cases hwork with
  | publish =>
    refine ⟨h.nodup, h.lt, ?_⟩
    intro batch hbatch
    cases mem_append.mp hbatch with
    | inl hbatch => exact h.published batch hbatch
    | inr hbatch =>
      rw [mem_singleton.mp hbatch]
      exact h.nodup
  | _ => exact ⟨h.nodup, h.lt, h.published⟩

theorem keeps_subscribed
    : (consumer cfg items tables sessionId).Keeps (fun e _ _ => Subscribed e) := by
  apply BatchQueue.Consumer.Keeps.of_env
  . constructor
    all_goals simp [consumer]
  . intro e pc world h
    exact h.work (@Works.of_work cfg items tables sessionId e pc world)
  . intro e subscription h
    cases subscription with
    | addLogCallback =>
      refine ⟨?_, ?_, h.published⟩
      . apply nodup_append.mpr
        refine ⟨h.nodup, nodup_singleton _, ?_⟩
        intro id hid new hnew
        have hlt := h.lt id hid
        rw [mem_singleton.mp hnew]
        omega
      . intro id hid
        dsimp only [consumer] at hid ⊢
        cases mem_append.mp hid with
        | inl hid =>
          have hlt := h.lt id hid
          omega
        | inr hid =>
          rw [mem_singleton.mp hid]
          omega
    | removeLogCallback id =>
      refine ⟨h.nodup.erase id, ?_, h.published⟩
      intro id' hid'
      exact h.lt id' (mem_of_mem_erase hid')
  . intro e world h
    obtain ⟨store, failures, hclose⟩ := Env.close_eq cfg e world
    dsimp only [consumer]
    rw [hclose]
    exact ⟨h.nodup, h.lt, h.published⟩

theorem filter_calls {callbacks : List Nat} (hnodup : callbacks.Nodup)
    (snapshot : LogRecordSnapshot) (id : Nat)
    : ((callbacks.map (fun callback => (callback, snapshot))).filter
        (fun call => call.1 = id)).map Prod.snd = if id ∈ callbacks then [snapshot] else [] := by
  rw [filter_map, map_map]
  have hfilter : callbacks.filter ((fun call : Nat × LogRecordSnapshot => decide (call.1 = id)) ∘
      fun callback => (callback, snapshot)) = replicate (callbacks.count id) id := by
    rw [← filter_eq]
    rfl
  rw [hfilter]
  split
  . next hmem =>
    rw [count_eq_one_of_mem hnodup hmem]
    rfl
  . next hmem =>
    rw [count_eq_zero_of_not_mem hmem]
    rfl

theorem filter_notifications {callbacks : List Nat} (hnodup : callbacks.Nodup)
    (snapshots : List LogRecordSnapshot) (id : Nat)
    : ((notifications callbacks snapshots).filter (fun call => call.1 = id)).map Prod.snd
        = if id ∈ callbacks then snapshots else [] := by
  induction snapshots with
  | nil =>
    unfold notifications
    split <;> rfl
  | cons snapshot snapshots ih =>
    unfold notifications at ih ⊢
    rw [flatMap_cons, filter_append, map_append, ih, filter_calls hnodup]
    split <;> rfl

theorem Subscribed.received {batches : List (List Nat × List LogRecordSnapshot)}
    (h : ∀ batch ∈ batches, batch.1.Nodup) (id : Nat)
    : ((batches.flatMap (fun batch => notifications batch.1 batch.2)).filter
        (fun call => call.1 = id)).map Prod.snd
      = (batches.filter (fun batch => id ∈ batch.1)).flatMap Prod.snd := by
  induction batches with
  | nil => rfl
  | cons batch batches ih =>
    have hbatch := h batch (mem_cons_self ..)
    have hrest := ih (fun batch hbatch => h batch (mem_cons_of_mem _ hbatch))
    rw [flatMap_cons, filter_append, map_append, hrest,
      filter_notifications hbatch, filter_cons]
    by_cases hid : id ∈ batch.1
    . simp [hid]
    . simp [hid]

variable {ι : Type} [DecidableEq ι] [Fintype ι]

theorem batches_persisted (maxSize : Nat) (cfg : Config) (items : Nat → MdbxLogItem)
    (tables : Tables) (sessionId : UInt64) (s : State ι)
    (h : (system ι maxSize cfg items tables sessionId).ReachableVia BatchQueue.StopsOnce s)
    : (s.env.outcomes.flatMap BatchOutcome.batch ++ unwritten s.worker.current ++ s.queue
          = s.accepted ∧
        (s.accepted ++ s.refused).Nodup) ∧
      Persisted cfg.normalize items tables sessionId s.env ∧
      (s.env.published.map Prod.snd ++ unpublished s.worker.current
          = s.env.committed.map snapshotsOf ∧
        ∀ id, ((s.env.received ++ pendingCalls s.worker.current).filter
            (fun call => call.1 = id)).map Prod.snd
          = (s.env.published.filter (fun batch => id ∈ batch.1)).flatMap Prod.snd) ∧
      s.dropped = s.refused.length ∧
      (∀ c before, s.clients c = .waitReturned before →
        ∀ r ∈ before, ∃ outcome ∈ s.env.outcomes, r ∈ outcome.batch) ∧
      (s.stopReturned = true → s.queue = []) := by
  have hinv := BatchQueue.reachable_inv h.reachable
  have hprogress := keeps_progress.reachable h.reachable
  have hsubscribed := keeps_subscribed.reachable h.reachable
  have hbatches := hprogress.batches
  rw [BatchQueue.heldOf_current] at hbatches
  refine ⟨⟨?_, hinv.settled_nodup⟩, keeps_persisted.reachable h.reachable,
    ⟨hprogress.published, ?_⟩, hinv.dropped, ?_, BatchQueue.queue_of_stopReturned h⟩
  . rw [hbatches]
    exact hinv.order
  . intro id
    rw [hprogress.received]
    exact Subscribed.received hsubscribed.published id
  . intro c before hc r hr
    have hfinished := hinv.clients c
    rw [hc] at hfinished
    exact mem_flatMap.mp (hprogress.finished_subset (hfinished hr))

theorem batches_persisted_failing
    : ∃ s : State (Fin 2), ((system (Fin 2) (2 ^ 32) { Config.default with maxBatchSize := 1 } itemOf
          .empty 7).ReachableVia BatchQueue.StopsOnce s ∧
        s.accepted = [0, 1] ∧ s.env.outcomes.map (fun outcome => outcome.written.isSome) = [false, true] ∧
        s.clients 1 = .waitReturned [0, 1] ∧ s.stopReturned = true ∧ s.env.callbacks = [1]) ∧
      s.queue = [] ∧ s.dropped = s.refused.length ∧
      s.env.store.failedWrites = s.env.failedBatches + s.env.store.compressionFailures
        + s.env.sessionEndFailures ∧
      ∀ r ∈ [0, 1], ∃ outcome ∈ s.env.outcomes, r ∈ outcome.batch := by
  have hrun : ∃ s : State (Fin 2), (system (Fin 2) (2 ^ 32)
        { Config.default with maxBatchSize := 1 } itemOf .empty 7).ReachableVia BatchQueue.StopsOnce s ∧
      s.accepted = [0, 1] ∧ s.env.outcomes.map (fun outcome => outcome.written.isSome) = [false, true] ∧
      s.clients 1 = .waitReturned [0, 1] ∧ s.stopReturned = true ∧ s.env.callbacks = [1] := by
    apply Lts.exists_reachableVia _ _
      [.outside .addLogCallback, .log 0, .logLock 0, .log 0, .logLock 0, .wait 1,
        .worker (worldThrowingAt none), .worker (worldThrowingAt none),
        .worker (worldThrowingAt (some 3)), .worker (worldThrowingAt none),
        .worker (worldThrowingAt none), .worker (worldThrowingAt none),
        .worker (worldThrowingAt none), .worker (worldThrowingAt none),
        .worker (worldThrowingAt (some 0)), .worker (worldThrowingAt none),
        .worker (worldThrowingAt none), .waitLock 1, .stop 0, .stopEnter 0, .stopLock 0,
        .worker (worldThrowingAt none), .worker (worldThrowingAt none), .stopJoin 0,
        .stopClose 0 (worldThrowingAt none)]
    decide +kernel
  obtain ⟨s, reach, hstate⟩ := hrun
  have hpersisted := batches_persisted (2 ^ 32) _ itemOf .empty 7 s reach
  obtain ⟨_, hpersisted, _, hdropped, hwait, hqueue⟩ := hpersisted
  refine ⟨s, ⟨reach, hstate⟩, hqueue hstate.2.2.2.1, hdropped, hpersisted.failures, ?_⟩
  exact hwait 1 [0, 1] hstate.2.2.1

theorem shutdown_returns_early
    : ∃ s : State (Fin 2), (system (Fin 2) (2 ^ 32) .default itemOf .empty 7).Reachable s ∧
        s.stopReturned = true ∧ s.queue = [0] := by
  apply Lts.exists_reachable _
    [.log 0, .logLock 0, .stop 0, .stopEnter 0, .stopLock 0, .stop 1, .stopEnter 1]
  decide

end LogIt.MdbxLogger
