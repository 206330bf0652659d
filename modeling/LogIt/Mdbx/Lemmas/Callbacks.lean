import LogIt.Lib.BatchQueue.Progress
import LogIt.Mdbx.Impl.Callbacks
import LogIt.Mdbx.Lemmas.Logger

namespace LogIt.MdbxLogger

variable {cfg : Config} {items : Nat → MdbxLogItem} {α β : Type}

def SameThrown (e e' : CallbackEnv) : Prop :=
  e'.thrown = e.thrown ∧ e'.escaped = e.escaped

def Guarded (cfg : Config) (m : CallbackM α) : Prop :=
  ∀ e, m.wp (fun _ e' => SameThrown e e')
    (fun t e' => e'.thrown = e.thrown ++ [t] ∧ e'.escaped = e.escaped ∧ cfg.reportsErrors = true) e

theorem SameThrown.refl (e : CallbackEnv) : SameThrown e e :=
  ⟨rfl, rfl⟩

theorem Guarded.pure (a : α) : Guarded cfg (Pure.pure a : CallbackM α) :=
  SameThrown.refl

theorem Guarded.bind {f : α → CallbackM β} (hm : Guarded cfg m) (hf : ∀ a, Guarded cfg (f a))
    : Guarded cfg (m >>= f) := by
  intro e
  apply (hm e).seq
  intro a e' ⟨hthrown, hescaped⟩
  apply (hf a e').mono
  . intro _ e'' h
    exact ⟨h.1.trans hthrown, h.2.trans hescaped⟩
  . intro t e'' h
    rw [hthrown, hescaped] at h
    exact h

theorem Guarded.tryCatch {m : CallbackM α} {handler : Thrown → CallbackM α}
    (hm : Fallible.Preserves SameThrown m) (hhandler : ∀ t, Guarded cfg (handler t))
    : Guarded cfg (MonadExcept.tryCatch m handler) := by
  intro e
  refine Fallible.wp_tryCatch.mpr ((hm e).mono (fun _ _ h => h) ?_)
  intro t e' ⟨hthrown, hescaped⟩
  have h := hhandler t e'
  unfold SameThrown at h
  rw [hthrown, hescaped] at h
  exact h

theorem Guarded.error_iff (h : Guarded cfg m) (e : CallbackEnv) (t : Thrown)
    : (m.exec e).1 = .error t ↔ (m.exec e).2.thrown = e.thrown ++ [t] := by
  cases hexec : m.exec e with
  | mk result e' =>
    cases result with
    | ok a => simp [((h e).ok hexec).1]
    | error t' => simp [((h e).error hexec).1]

theorem endWith_preserves (outcome : Option Thrown)
    : Fallible.Preserves SameThrown (endWith outcome) := by
  cases outcome with
  | some t => exact Fallible.Preserves.throw SameThrown.refl t
  | none => exact Fallible.Preserves.pure SameThrown.refl ()

theorem guarded_onError (hreports : cfg.reportsErrors = true) (outcome : Option Thrown)
    (text : String)
    : Guarded cfg (onError outcome text) := by
  intro e
  unfold onError
  rw [Fallible.wp_bind, Fallible.wp_modify]
  cases outcome with
  | some t => exact ⟨rfl, rfl, hreports⟩
  | none => exact ⟨List.append_nil _, rfl⟩

theorem guarded_report (outcome : Option Thrown) (text : String) (t : Thrown)
    : Guarded cfg (report cfg outcome text t) := by
  unfold report
  by_cases hreports : cfg.reportsErrors = true
  . rw [if_pos hreports]
    cases t with
    | std what | other => exact guarded_onError hreports outcome _
  . rw [if_neg hreports]
    exact Guarded.pure ()

theorem guarded_notifyCallback (reaction : Reaction) (call : Nat × LogRecordSnapshot)
    : Guarded cfg (notifyCallback cfg reaction call) := by
  apply Guarded.tryCatch
  . intro e
    unfold callSubscriber
    rw [Fallible.wp_bind, Fallible.wp_modify]
    exact endWith_preserves _ _
  . exact guarded_report _ _

theorem guarded_copyCallbacks (snapshots : List LogRecordSnapshot)
    : Guarded cfg (copyCallbacks snapshots) :=
  SameThrown.refl

theorem guarded_notifyAll (reactions : Nat → Reaction) (calls : List (Nat × LogRecordSnapshot))
    : Guarded cfg (notifyAll cfg reactions calls) := by
  induction calls generalizing reactions with
  | nil => exact Guarded.pure ()
  | cons call calls ih => exact (guarded_notifyCallback _ call).bind (fun _ => ih _)

section

variable (batch : List Nat) (world : World)

theorem writeRecords_preserves
    : Fallible.Preserves SameThrown (writeRecords cfg items batch world) := by
  intro e
  unfold writeRecords
  rw [Fallible.wp_bind, Fallible.wp_get]
  cases writeBatch cfg (batch.map items) world e.store with
  | mk result store =>
    cases result with
    | ok written | error t => exact SameThrown.refl e

theorem guarded_tryWriteRecords (outcome : Option Thrown)
    : Guarded cfg (tryWriteRecords cfg items batch world outcome) := by
  apply Guarded.tryCatch
  . intro e
    rw [Fallible.wp_bind]
    exact writeRecords_preserves batch world e
  . intro t
    exact (guarded_report _ _ t).bind (fun _ => Guarded.pure none)

theorem guarded_writeAndNotify (outcome : Option Thrown) (reactions : Nat → Reaction)
    : Guarded cfg (writeAndNotify cfg items batch world outcome reactions) := by
  unfold writeAndNotify
  by_cases hempty : batch.isEmpty = true
  . rw [if_pos hempty]
    exact Guarded.pure ()
  . rw [if_neg hempty]
    apply (guarded_tryWriteRecords batch world outcome).bind
    intro snapshots
    cases snapshots with
    | some snapshots =>
      exact (guarded_copyCallbacks snapshots).bind (fun _ => guarded_notifyAll _ _)
    | none => exact Guarded.pure ()

end

theorem guarded_workStep (pc : WritePc) (world : World) (outcome : Option Thrown)
    : Guarded cfg (workStep cfg items pc world outcome) := by
  cases pc with
  | write batch => exact (guarded_tryWriteRecords batch world _).bind (fun _ => Guarded.pure _)
  | publish snapshots => exact (guarded_copyCallbacks snapshots).bind (fun _ => Guarded.pure _)
  | notify calls =>
    cases calls with
    | nil => exact Guarded.pure none
    | cons call calls => exact (guarded_notifyCallback _ call).bind (fun _ => Guarded.pure _)

section Worker

variable {tables : Tables} {sessionId : UInt64}

structure Escapes (cfg : Config) (e : CallbackEnv) : Prop where
  escaped : e.escaped = none ↔ e.thrown = []
  reports : cfg.reportsErrors = false → e.thrown = []

theorem Escapes.perform (h : Escapes cfg e) (hm : Guarded cfg m) : Escapes cfg (e.perform m).1 := by
  unfold CallbackEnv.perform
  cases hexec : m.exec e with
  | mk result e' =>
    cases result with
    | ok pc =>
      obtain ⟨hthrown, hescaped⟩ := (hm e).ok hexec
      constructor
      . simp only [hthrown, hescaped]
        exact h.escaped
      . simp only [hthrown]
        exact h.reports
    | error t =>
      obtain ⟨hthrown, _, hreports⟩ := (hm e).error hexec
      constructor
      . simp [hthrown]
      . intro hsilent
        rw [hreports] at hsilent
        contradiction

theorem keeps_escapes
    : (throwingConsumer cfg items tables sessionId).Keeps (fun e _ _ => Escapes cfg e) := by
  apply BatchQueue.Consumer.Keeps.of_env
  . exact ⟨Iff.intro (fun _ => rfl) (fun _ => rfl), fun _ => rfl⟩
  . intro e pc x h
    exact h.perform (guarded_workStep pc x.1 x.2)
  . intro e subscription h
    exact ⟨h.escaped, h.reports⟩
  . intro e x h
    exact ⟨h.escaped, h.reports⟩

variable {ι : Type} [DecidableEq ι] {maxSize : Nat} {s s' : ThrowingState ι}

theorem busy_of_escapes {a : ThrowingAction ι}
    (hstep : BatchQueue.Transition (queueConfig maxSize cfg)
      (throwingConsumer cfg items tables sessionId) s a s')
    (h : s.env.escaped = none) (h' : s'.env.escaped.isSome = true)
    : s.worker.busy = true := by
  cases hstep with
  | work hw =>
    rw [hw]
    rfl
  | take =>
    rw [BatchQueue.State.advance_env, h] at h'
    contradiction
  | _ =>
    have h'' : s.env.escaped.isSome = true := h'
    rw [h] at h''
    contradiction

abbrev queueSystem (ι : Type) [DecidableEq ι] (maxSize : Nat) (cfg : Config)
    (items : Nat → MdbxLogItem) (tables : Tables) (sessionId : UInt64)
    : Lts (ThrowingState ι) (ThrowingAction ι) :=
  BatchQueue.system ι (queueConfig maxSize cfg) (throwingConsumer cfg items tables sessionId)

structure Ended (maxSize : Nat) (cfg : Config) (items : Nat → MdbxLogItem) (tables : Tables)
    (sessionId : UInt64) (s last next : ThrowingState ι) : Prop where
  reachable : (queueSystem ι maxSize cfg items tables sessionId).Reachable last
  reachable_next : (queueSystem ι maxSize cfg items tables sessionId).Reachable next
  busy : last.worker.busy = true
  escaped : next.env.escaped.isSome = true
  eq : s = { last with env := next.env, worker := .terminated }

theorem throwingStep_cases (hstep : throwingStep maxSize cfg items tables sessionId s a = some s')
    : ∃ t, (queueSystem ι maxSize cfg items tables sessionId).step s a = some t ∧
      (t.env.escaped = none ∧ s' = t ∨
        t.env.escaped.isSome = true ∧ s' = { s with env := t.env, worker := .terminated }) := by
  unfold throwingStep at hstep
  cases hqueue : BatchQueue.step (queueConfig maxSize cfg)
      (throwingConsumer cfg items tables sessionId) s a with
  | none =>
    rw [hqueue] at hstep
    contradiction
  | some t =>
    rw [hqueue] at hstep
    refine ⟨t, hqueue, ?_⟩
    cases hescaped : t.env.escaped with
    | none =>
      simp only [hescaped, Option.isSome_none, Bool.false_eq_true, if_false] at hstep
      exact .inl ⟨rfl, (Option.some.inj hstep).symm⟩
    | some thrown =>
      simp only [hescaped, Option.isSome_some, if_true] at hstep
      exact .inr ⟨rfl, (Option.some.inj hstep).symm⟩

theorem reachable_cases (reach : (throwingSystem ι maxSize cfg items tables sessionId).Reachable s)
    : ((queueSystem ι maxSize cfg.normalize items tables sessionId).Reachable s
        ∧ s.env.escaped = none) ∨
      ∃ last next, Ended maxSize cfg.normalize items tables sessionId s last next := by
  apply reach.invariant
  . exact .inl ⟨.init, rfl⟩
  . intro s a s' _ hcases hstep
    obtain ⟨t, hqueue, ht⟩ := throwingStep_cases hstep
    cases hcases with
    | inl h =>
      obtain ⟨reach, hescaped⟩ := h
      cases ht with
      | inl ht =>
        rw [ht.2]
        exact .inl ⟨reach.step hqueue, ht.1⟩
      | inr ht =>
        refine .inr ⟨s, t, reach, reach.step hqueue, ?_, ht.1, ht.2⟩
        exact busy_of_escapes (.of_step hqueue) hescaped ht.1
    | inr h =>
      -- nothing happens after the end of the process
      obtain ⟨last, next, hended⟩ := h
      rw [hended.eq] at hqueue
      contradiction

end Worker

section Exceptions

variable {ι : Type} [DecidableEq ι] [Fintype ι] {maxSize : Nat} {tables : Tables}
  {sessionId : UInt64} {s : ThrowingState ι}

theorem Config.normalize_reportsErrors (cfg : Config)
    : cfg.normalize.reportsErrors = cfg.reportsErrors := by
  unfold Config.normalize
  split
  . rfl
  . rfl

theorem SyncState.log_error_iff (r : Nat) (world : World) (outcome : Option Thrown)
    (reactions : Nat → Reaction) (s : SyncState) (t : Thrown)
    : (s.log cfg items r world outcome reactions).1 = .error t ↔
        (s.log cfg items r world outcome reactions).2.env.thrown = s.env.thrown ++ [t] := by
  unfold SyncState.log
  by_cases hstop : s.stopping = true
  . simp [hstop]
  . rw [if_neg hstop]
    exact (guarded_writeAndNotify [r] world outcome reactions).error_iff s.env t

theorem Ended.worker (h : Ended maxSize cfg items tables sessionId s last next)
    : s.worker = .terminated ∧ s.idle = false ∧ Escapes cfg s.env ∧ s.env.escaped.isSome = true := by
  have hidle := (BatchQueue.reachable_inv h.reachable).idle
  have hescapes : Escapes cfg next.env := keeps_escapes.reachable h.reachable_next
  rw [h.busy] at hidle
  rw [h.eq]
  exact ⟨rfl, hidle, hescapes, h.escaped⟩

theorem worker_ended_iff (maxSize : Nat) (cfg : Config) (items : Nat → MdbxLogItem)
    (tables : Tables) (sessionId : UInt64) (hreserve : cfg.normalize.maxBatchSize ≤ maxSize)
    (s : ThrowingState ι)
    (reach : (throwingSystem ι maxSize cfg items tables sessionId).Reachable s)
    : (s.worker = .terminated ↔ s.env.thrown ≠ []) ∧
      (s.worker = .exited → s.stopping = true ∧ s.queue = []) ∧
      (s.idle = false ∧ s.worker.busy = false ↔ s.env.thrown ≠ []) ∧
      (cfg.reportsErrors = false → s.env.thrown = []) ∧
      (∀ (e : CallbackEnv) (batch : List Nat) (world : World) (outcome : Option Thrown)
          (reactions : Nat → Reaction) (t : Thrown),
        ((writeAndNotify cfg items batch world outcome reactions).exec e).1 = .error t ↔
          ((writeAndNotify cfg items batch world outcome reactions).exec e).2.thrown
            = e.thrown ++ [t]) ∧
      ∀ (logger : SyncState) (r : Nat) (world : World) (outcome : Option Thrown)
          (reactions : Nat → Reaction) (t : Thrown),
        (logger.log cfg items r world outcome reactions).1 = .error t ↔
          (logger.log cfg items r world outcome reactions).2.env.thrown
            = logger.env.thrown ++ [t] := by
  have hbatch (batch : List Nat) (world : World) (outcome : Option Thrown)
      (reactions : Nat → Reaction)
      : Guarded cfg (writeAndNotify cfg items batch world outcome reactions) :=
    guarded_writeAndNotify batch world outcome reactions
  cases reachable_cases reach with
  | inl h =>
    obtain ⟨reach, hescaped⟩ := h
    have hinv := BatchQueue.reachable_inv reach
    have hescapes : Escapes cfg.normalize s.env := keeps_escapes.reachable reach
    have hthrown := hescapes.escaped.mp hescaped
    have hworker := BatchQueue.reachable_not_terminated (decide_eq_true hreserve) reach
    have hidle : ¬ (s.idle = false ∧ s.worker.busy = false) := by
      rw [hinv.idle]
      simp
    refine ⟨by simp [hworker, hthrown], ?_, by simp [hidle, hthrown], fun _ => hthrown, ?_, ?_⟩
    . intro hexited
      exact (hinv.exited hexited).symm
    . intro e batch world outcome reactions
      exact (hbatch batch world outcome reactions).error_iff e
    . intro logger r world outcome reactions
      exact logger.log_error_iff r world outcome reactions
  | inr h =>
    obtain ⟨last, next, hended⟩ := h
    obtain ⟨hworker, hidle, hescapes, hescaped⟩ := hended.worker
    have hthrown : s.env.thrown ≠ [] := by
      intro hthrown
      rw [hescapes.escaped.mpr hthrown] at hescaped
      contradiction
    have hreports := hescapes.reports
    rw [Config.normalize_reportsErrors] at hreports
    refine ⟨by simp [hworker, hthrown], by simp [hworker], ?_, hreports, ?_, ?_⟩
    . simp [hworker, hidle, hthrown, BatchQueue.WorkerPc.busy]
    . intro e batch world outcome reactions
      exact (hbatch batch world outcome reactions).error_iff e
    . intro logger r world outcome reactions
      exact logger.log_error_iff r world outcome reactions

def reportingConfig : Config :=
  { Config.default with reportsErrors := true }

def throwingRun : List (ThrowingAction (Fin 1)) :=
  [.outside .addLogCallback, .log 0, .logLock 0, .worker (worldThrowingAt none, none),
    .worker (worldThrowingAt none, none), .worker (worldThrowingAt none, none),
    .worker (worldThrowingAt none, none), .worker (worldThrowingAt (some 0), some .other)]

theorem worker_ended_iff_throwing
    : ∃ s : ThrowingState (Fin 1),
        (throwingSystem (Fin 1) (2 ^ 32) reportingConfig itemOf .empty 7).Reachable s ∧
        s.env.thrown = [.other] ∧ s.worker = .terminated := by
  have hrun : ∃ s : ThrowingState (Fin 1),
      (throwingSystem (Fin 1) (2 ^ 32) reportingConfig itemOf .empty 7).Reachable s ∧
        s.env.thrown = [.other] := by
    apply Lts.exists_reachable _ throwingRun
    decide +kernel
  obtain ⟨s, reach, hthrown⟩ := hrun
  have hended := worker_ended_iff (2 ^ 32) reportingConfig itemOf .empty 7 (by decide) s reach
  refine ⟨s, reach, hthrown, hended.1.mpr ?_⟩
  rw [hthrown]
  exact List.cons_ne_nil _ _

theorem on_error_leaves_worker
    : (∃ s : ThrowingState (Fin 1),
        (throwingSystem (Fin 1) (2 ^ 32) reportingConfig itemOf .empty 7).Reachable s ∧
          s.worker.isTerminated = true ∧ s.idle = false ∧ s.stopping = false) ∧
      ((SyncState.mk (throwingConsumer reportingConfig itemOf .empty 7).init false 0).log
        reportingConfig itemOf 0 (worldThrowingAt (some 0)) (some .other)
        (fun _ => ⟨none, none⟩)).1 = .error .other := by
  constructor
  . apply Lts.exists_reachable _ throwingRun
    decide +kernel
  . rfl

end Exceptions
end LogIt.MdbxLogger
