import LogIt.Lib.BatchQueue.Transition
import LogIt.Lib.ThreadSum

/-!
This module contains the accounting of the records of a batch queue, and the rule for invariants of
what is done with its batches.
-/

namespace BatchQueue

open List Multiset

def ClientPc.unsettled (pc : ClientPc) : Multiset Nat :=
  match pc with
  | .log r | .logParked r => {r}
  | _ => 0

theorem ClientPc.unsettled_of_free {pc : ClientPc} (h : pc.free = true) : pc.unsettled = 0 := by
  cases pc with
  | idle => rfl
  | waitReturned before => rfl
  | _ => contradiction

def ClientPc.Justified (pc : ClientPc) (accepted finished : List Nat) (exited : Bool) : Prop :=
  match pc with
  | .wait before => before ⊆ accepted
  | .waitReturned before => before ⊆ finished
  | .stopClose => exited = true
  | _ => True

theorem ClientPc.Justified.mono {pc : ClientPc} (h : pc.Justified accepted finished exited)
    (h1 : accepted ⊆ accepted') (h2 : finished ⊆ finished') (h3 : exited = true → exited' = true)
    : pc.Justified accepted' finished' exited' := by
  cases pc with
  | wait before => exact fun _ hx => h1 (h hx)
  | waitReturned before => exact fun _ hx => h2 (h hx)
  | stopClose => exact h3 h
  | _ => trivial

namespace WorkerPc

variable {ω : Type}

def held (pc : WorkerPc ω) : List Nat :=
  match pc with
  | .working batch _ => batch
  | _ => []

def busy (pc : WorkerPc ω) : Bool :=
  match pc with
  | .working _ _ | .finishing => true
  | _ => false

end WorkerPc

variable {ι ε ω χ ξ : Type}

structure Inv [Fintype ι] (s : State ι ε ω) : Prop where
  submissions : Submissions ClientPc.unsettled s.clients (s.accepted + s.refused) s.submitted
  order : s.finished.flatten ++ s.worker.held ++ s.queue = s.accepted
  dropped : s.dropped = s.refused.length
  idle : s.idle = !s.worker.busy
  exited : s.worker = .exited → s.queue = [] ∧ s.stopping = true
  clients : ∀ c, (s.clients c).Justified s.accepted s.finished.flatten s.worker.isExited

namespace Inv

variable [Fintype ι] {cfg : Config} {consumer : Consumer ε ω χ ξ} {s s' : State ι ε ω} {c : ι}
  {pc : ClientPc} {r : Nat}

theorem init : Inv (BatchQueue.init ι consumer) := by
  constructor
  case submissions => exact Submissions.init rfl
  all_goals simp [BatchQueue.init, WorkerPc.held, WorkerPc.busy, ClientPc.Justified]

theorem settled_nodup (h : Inv s) : (s.accepted ++ s.refused).Nodup := by
  rw [← coe_nodup, ← coe_add]
  exact h.submissions.nodup

theorem frame (h : Inv s) {stopRequested stopping stopReturned : Bool} {env : ε}
    (hstop : s.stopping = true → stopping = true)
    : Inv { s with
        stopRequested := stopRequested
        stopping := stopping
        env := env
        stopReturned := stopReturned } where
  __ := h
  exited := fun hexited => ⟨(h.exited hexited).1, hstop (h.exited hexited).2⟩

theorem justified_of_running (h : Inv s) {finished : List Nat} {exited : Bool}
    (hexited : s.worker.isExited = false) (hfinished : s.finished.flatten ⊆ finished) (c : ι)
    : (s.clients c).Justified s.accepted finished exited := by
  apply (h.clients c).mono (List.Subset.refl _) hfinished
  rw [hexited]
  intro hfalse
  contradiction

theorem setWorker (h : Inv s) {worker worker' : WorkerPc ω} {idle : Bool} (hw : s.worker = worker)
    (hheld : worker'.held = worker.held) (hidle : idle = !worker'.busy)
    (hexited : worker' = .exited → s.queue = [] ∧ s.stopping = true)
    (hold : worker.isExited = false)
    : Inv { s with idle := idle, worker := worker' } where
  __ := h
  order := by
    dsimp only
    rw [hheld, ← hw]
    exact h.order
  idle := hidle
  exited := hexited
  clients := by
    rw [← hw] at hold
    exact h.justified_of_running hold (List.Subset.refl _)

theorem advance (h : Inv s) {worker : WorkerPc ω} {batch rest : List Nat} {w : Option ω} {env : ε}
    {idle : Bool} (hw : s.worker = worker) (hidle : idle = false)
    (hexited : worker.isExited = false) (hbatch : batch ++ rest = worker.held ++ s.queue)
    : Inv ({ s with idle := idle, queue := rest, env := env }.advance batch w) := by
  rw [← hw] at hexited hbatch
  have horder : s.finished.flatten ++ batch ++ rest = s.accepted := by
    rw [append_assoc, hbatch, ← append_assoc]
    exact h.order
  cases w with
  | some w =>
    exact ⟨h.submissions, horder, h.dropped, hidle, by simp [State.advance],
      h.justified_of_running hexited (List.Subset.refl _)⟩
  | none =>
    refine ⟨h.submissions, ?_, h.dropped, hidle, by simp [State.advance],
      h.justified_of_running hexited ?_⟩
    . simpa [State.advance, WorkerPc.held] using horder
    . simp [State.advance]

section Clients

variable [DecidableEq ι]

omit [Fintype ι] in
theorem justified_update {clients : ι → ClientPc} {accepted accepted' finished : List Nat}
    {exited : Bool} (h : ∀ c, (clients c).Justified accepted finished exited)
    (haccepted : accepted ⊆ accepted') (hpc : pc.Justified accepted' finished exited)
    : ∀ c', (Function.update clients c pc c').Justified accepted' finished exited := by
  rw [Function.forall_update_iff clients (fun _ x => x.Justified accepted' finished exited)]
  refine ⟨hpc, ?_⟩
  intro c' _
  apply (h c').mono haccepted
  . exact List.Subset.refl _
  . exact id

theorem setClient (h : Inv s) (huns : pc.unsettled = (s.clients c).unsettled)
    (hpc : pc.Justified s.accepted s.finished.flatten s.worker.isExited)
    : Inv (s.setClient c pc) where
  __ := h
  submissions := h.submissions.update huns
  clients := justified_update h.clients (List.Subset.refl _) hpc

theorem call (h : Inv s) (hc : (s.clients c).free = true)
    : Inv { s.setClient c (.log s.submitted) with submitted := s.submitted + 1 } where
  __ := h
  submissions := h.submissions.call (ClientPc.unsettled_of_free hc) rfl
  clients := justified_update h.clients (List.Subset.refl _) trivial

theorem refuse (h : Inv s) (huns : (s.clients c).unsettled = {r}) : Inv (s.refuse c r) where
  __ := h
  submissions := by
    apply h.submissions.settle huns rfl
    simp only [State.refuse, State.setClient, ← coe_add, coe_singleton]
    abel
  dropped := by
    simp only [State.refuse, State.setClient, length_append, length_singleton]
    rw [h.dropped]
  clients := justified_update h.clients (List.Subset.refl _) trivial

theorem push (h : Inv s) (huns : (s.clients c).unsettled = {r}) (hstop : s.stopping = false)
    : Inv (s.push c r) where
  __ := h
  submissions := by
    apply h.submissions.settle huns rfl
    simp only [State.push, State.setClient, ← coe_add, coe_singleton]
    abel
  order := by
    simp only [State.push, State.setClient]
    rw [← append_assoc, h.order]
  exited := by
    intro hexited
    have hstopping := (h.exited hexited).2
    rw [hstop] at hstopping
    contradiction
  clients := justified_update h.clients (subset_append_left _ _) trivial

omit [Fintype ι] [DecidableEq ι] in
theorem unsettled_of_logging (hc : s.clients c = .log r ∨ s.clients c = .logParked r)
    : (s.clients c).unsettled = {r} := by
  cases hc with
  | inl hc | inr hc =>
    rw [hc]
    rfl

theorem step (h : Inv s) (hstep : Transition cfg consumer s a s') : Inv s' := by
  cases hstep with
  | skip => exact h
  | log hc => exact h.call hc
  | refuse hc => exact h.refuse (unsettled_of_logging hc)
  | park hc => exact h.setClient (by rw [hc]; rfl) trivial
  | push hc hstop => exact h.push (unsettled_of_logging hc) hstop
  | wait hc => exact h.setClient (ClientPc.unsettled_of_free hc).symm (List.Subset.refl _)
  | @waitDone c before hc hqueue hidle =>
    apply h.setClient
    . rw [hc]
      rfl
    . -- Nothing is in the queue or in the hands of the worker.
      have hbefore := h.clients c
      rw [hc] at hbefore
      have hheld : s.worker.held = [] := by
        have hbusy := h.idle
        rw [hidle] at hbusy
        cases hw : s.worker with
        | working batch w => simp [hw, WorkerPc.busy] at hbusy
        | _ => rfl
      have horder := h.order
      rw [hheld, hqueue, append_nil, append_nil] at horder
      rw [← horder] at hbefore
      exact hbefore
  | stop hc => exact h.setClient (ClientPc.unsettled_of_free hc).symm trivial
  | @stopAgain c hc | @stopClose c x hc =>
    have hset : Inv (s.setClient c .idle) := h.setClient (by rw [hc]; rfl) trivial
    exact hset.frame id
  | @stopAtOnce c hc | @stopLock c hc =>
    have hset : Inv (s.setClient c .stopJoin) := h.setClient (by rw [hc]; rfl) trivial
    exact hset.frame (fun _ => rfl)
  | @stopRequest c hc =>
    have hset : Inv (s.setClient c .stopLock) := h.setClient (by rw [hc]; rfl) trivial
    exact hset.frame id
  | stopJoin hc hw => exact h.setClient (by rw [hc]; rfl) (by rw [hw]; rfl)
  | reserve hw | terminate hw | again hw =>
    exact h.setWorker hw rfl (by rw [h.idle, hw]; rfl) (by simp) rfl
  | exit hw hstop hqueue => exact h.setWorker hw rfl rfl (fun _ => ⟨hqueue, hstop⟩) rfl
  | take hw => exact h.advance hw rfl rfl (take_append_drop _ _)
  | work hw => exact h.advance hw (by rw [h.idle, hw]; rfl) rfl rfl
  | finish hw => exact h.setWorker hw rfl rfl (by simp) rfl
  | outside => exact h.frame id

end Clients
end Inv

section Reachable

variable {cfg : Config} {consumer : Consumer ε ω χ ξ} {s s' : State ι ε ω}

theorem Inv.exited_of_stopClose [Fintype ι] (h : Inv s) (hc : s.clients c = .stopClose)
    : s.worker = .exited := by
  have hclose := h.clients c
  rw [hc] at hclose
  cases hw : s.worker with
  | exited => rfl
  | _ => simp [hw, ClientPc.Justified, WorkerPc.isExited] at hclose

variable [DecidableEq ι]

theorem reachable_inv [Fintype ι] (h : (system ι cfg consumer).Reachable s) : Inv s := by
  apply h.invariant Inv Inv.init
  intro s a s' _ hinv hstep
  exact hinv.step (.of_step hstep)

def StopsOnce (s : State ι ε ω) (a : Action ι χ ξ) : Prop :=
  match a with
  | .stopEnter c => s.clients c = .stop → s.stopRequested = true → s.stopping = true ∧ s.queue = []
  | _ => True

instance (s : State ι ε ω) (a : Action ι χ ξ) : Decidable (StopsOnce s a) := by
  unfold StopsOnce
  split <;> infer_instance

theorem queue_of_stopReturned [Fintype ι]
    (h : (system ι cfg consumer).ReachableVia StopsOnce s) (hreturned : s.stopReturned = true)
    : s.queue = [] := by
  have hinv : s.stopReturned = true → s.stopping = true ∧ s.queue = [] := by
    apply h.invariant (fun s => s.stopReturned = true → s.stopping = true ∧ s.queue = [])
    . simp [system, init]
    . intro s a s' reach hinv hok hstep
      cases Transition.of_step hstep with
      | push hc hstop =>
        intro hreturned
        have hstopping := (hinv hreturned).1
        rw [hstop] at hstopping
        contradiction
      | stopAgain hc hrequested =>
        intro _
        exact hok hc hrequested
      | stopClose hc =>
        intro _
        have hinv := reachable_inv reach.reachable
        exact (hinv.exited (hinv.exited_of_stopClose hc)).symm
      | stopAtOnce | stopLock => exact fun hreturned => ⟨rfl, (hinv hreturned).2⟩
      | take hw hqueue =>
        intro hreturned
        rw [State.advance_stopReturned] at hreturned
        exact absurd (hinv hreturned).2 hqueue
      | work => simpa using hinv
      | _ => exact hinv
  exact (hinv hreturned).2

end Reachable
end BatchQueue

namespace BatchQueue

variable {ι ε ω χ ξ : Type}

def WorkerPc.current (pc : WorkerPc ω) : Option (List Nat × ω) :=
  match pc with
  | .working batch w => some (batch, w)
  | _ => none

def heldOf (current : Option (List Nat × ω)) : List Nat :=
  match current with
  | some (batch, _) => batch
  | none => []

theorem heldOf_current (pc : WorkerPc ω) : heldOf pc.current = pc.held := by
  cases pc with
  | _ => rfl

def State.batches (s : State ι ε ω) : List (List Nat) :=
  s.finished ++ (s.worker.current.map Prod.fst).toList

structure Consumer.Keeps (consumer : Consumer ε ω χ ξ)
    (J : ε → List (List Nat) → Option (List Nat × ω) → Prop) : Prop where
  init : J consumer.init [] none
  start : ∀ e finished batch w, J e finished none → consumer.start batch = some w →
    J e finished (some (batch, w))
  skip : ∀ e finished batch, J e finished none → consumer.start batch = none →
    J e (finished ++ [batch]) none
  work : ∀ e finished batch w x w', J e finished (some (batch, w)) →
    (consumer.work e w x).2 = some w' → J (consumer.work e w x).1 finished (some (batch, w'))
  done : ∀ e finished batch w x, J e finished (some (batch, w)) →
    (consumer.work e w x).2 = none → J (consumer.work e w x).1 (finished ++ [batch]) none
  outside : ∀ e finished current x, J e finished current →
    J (consumer.outside e x) finished current
  close : ∀ e finished x, J e finished none → J (consumer.close e x) finished none

theorem Consumer.Keeps.of_env {consumer : Consumer ε ω χ ξ} {P : ε → Prop} (hinit : P consumer.init)
    (hwork : ∀ e w x, P e → P (consumer.work e w x).1)
    (houtside : ∀ e x, P e → P (consumer.outside e x))
    (hclose : ∀ e x, P e → P (consumer.close e x))
    : consumer.Keeps (fun e _ _ => P e) where
  init := hinit
  start := by
    intro e _ batch w h _
    exact h
  skip := by
    intro e _ batch h _
    exact h
  work := by
    intro e _ _ w x w' h _
    exact hwork e w x h
  done := by
    intro e _ _ w x h _
    exact hwork e w x h
  outside := by
    intro e _ _ x h
    exact houtside e x h
  close := by
    intro e _ x h
    exact hclose e x h

variable [Fintype ι] {cfg : Config} {consumer : Consumer ε ω χ ξ}
  {s s' : State ι ε ω} {J : ε → List (List Nat) → Option (List Nat × ω) → Prop}

theorem Inv.flatten_batches (h : Inv s) : s.batches.flatten ++ s.queue = s.accepted := by
  rw [← h.order]
  unfold State.batches
  cases s.worker with
  | working batch w => simp [WorkerPc.current, WorkerPc.held]
  | _ => simp [WorkerPc.current, WorkerPc.held]

theorem Inv.accepted_of_exited (h : Inv s) (hw : s.worker = .exited)
    : s.accepted = s.finished.flatten := by
  have horder := h.order
  rw [hw, (h.exited hw).1] at horder
  simpa [WorkerPc.held] using horder.symm

variable [DecidableEq ι]

theorem Consumer.Keeps.step (h : consumer.Keeps J) (hinv : Inv s)
    (hstep : Transition cfg consumer s a s') (hJ : J s.env s.finished s.worker.current)
    : J s'.env s'.finished s'.worker.current := by
  cases hstep with
  | stopClose hc =>
    have hw := hinv.exited_of_stopClose hc
    rw [hw] at hJ
    dsimp only [State.setClient]
    rw [hw]
    exact h.close _ _ _ hJ
  | reserve hw | terminate hw | exit hw | again hw | finish hw =>
    rw [hw] at hJ
    exact hJ
  | take hw =>
    rw [hw] at hJ
    cases hstart : consumer.start (s.queue.take cfg.maxBatchSize) with
    | some w => exact h.start _ _ _ _ hJ hstart
    | none => exact h.skip _ _ _ hJ hstart
  | @work x batch w hw =>
    rw [hw] at hJ
    cases hwork : (consumer.work s.env w x).2 with
    | some w' => exact h.work _ _ _ _ _ _ hJ hwork
    | none => exact h.done _ _ _ _ _ hJ hwork
  | outside => exact h.outside _ _ _ _ hJ
  | _ => exact hJ

theorem Consumer.Keeps.reachable (h : consumer.Keeps J)
    (reach : (system ι cfg consumer).Reachable s)
    : J s.env s.finished s.worker.current := by
  apply reach.invariant (fun s => J s.env s.finished s.worker.current) h.init
  intro s a s' reach hJ hstep
  exact h.step (reachable_inv reach) (.of_step hstep) hJ

end BatchQueue
