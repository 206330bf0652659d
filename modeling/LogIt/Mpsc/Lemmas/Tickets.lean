import LogIt.Lib.ThreadSum
import LogIt.Mpsc.Lemmas.Ring

namespace LogIt.MpscExecutor

open Multiset

def ProducerPc.unresolved (pc : ProducerPc) : Multiset Nat :=
  match pc with
  | .checkStop t | .loadPolicy t | .checkLimit t _ | .drop t | .complete t _ => {t}
  | .push _ _ (.construct _ _) | .push _ _ (.publish _) => 0
  | .push t _ _ => {t}
  | _ => 0

def ProducerPc.Valid (submitted : Nat) (pc : ProducerPc) : Prop :=
  match pc with
  | .checkStop t | .loadPolicy t | .checkLimit t _ | .drop t | .complete t _ | .leave t =>
    t < submitted
  | .push t _ pc => t < submitted ∧ pc.inCall = true ∧ ∀ v, pc.arg = some v → v = t
  | _ => True

theorem ProducerPc.Valid.mono {pc : ProducerPc} (h : pc.Valid submitted)
    (hle : submitted ≤ submitted')
    : pc.Valid submitted' := by
  unfold Valid at h ⊢
  split
  case h_7 => exact ⟨by omega, h.2⟩
  case h_8 => trivial
  all_goals
    dsimp only at h
    omega

namespace WorkerPc

def uncompleted (pc : WorkerPc) : List Nat :=
  match pc with
  | .run _ t | .finish _ t => [t]
  | _ => []

def running (pc : WorkerPc) : List Nat :=
  match pc with
  | .run _ t => [t]
  | _ => []

def finishing (pc : WorkerPc) : List Nat :=
  match pc with
  | .finish _ t => [t]
  | _ => []

def InCall (pc : WorkerPc) : Prop :=
  match pc with
  | .pop _ _ pc => pc.inCall = true
  | _ => True

end WorkerPc

section Moves

variable {ι κ : Type} {s : State ι κ}

theorem ProducerMove.unresolved (h : ProducerMove s pc pc') : pc'.unresolved = pc.unresolved := by
  cases h <;> rfl

theorem ProducerMove.valid (h : ProducerMove s pc pc') (hvalid : pc.Valid submitted)
    : pc'.Valid submitted := by
  cases h with
  | tryPush => exact ⟨hvalid, rfl, by simp [PushPc.arg]⟩
  | call | enter | backOff | passGate => trivial
  | _ => exact hvalid

theorem WorkerMove.held (h : WorkerMove s pc pc')
    : pc'.uncompleted = pc.uncompleted ∧ pc'.running = pc.running ∧
      pc'.finishing = pc.finishing ∧ pc'.InCall := by
  cases h <;> exact ⟨rfl, rfl, rfl, by simp [WorkerPc.InCall, PopPc.inCall]⟩

end Moves

section Calls

variable {ring : MpscRingAny Nat Nat} {spurious : Bool}

theorem pushStep_unresolved (ring : MpscRingAny Nat Nat) (spurious : Bool) (policy : QueuePolicy)
    (hcall : pc.inCall = true) (harg : ∀ v, pc.arg = some v → v = t)
    : (afterPush t policy (ring.pushStep spurious pc).2).unresolved
        + (pc.claims (ring.pushStep spurious pc).2 : Multiset Nat)
        = (ProducerPc.push t policy pc).unresolved := by
  cases pc with
  | idle | returned ok v => contradiction
  | load v => rfl
  | readSeq v pos =>
    simp only [MpscRingAny.pushStep]
    split
    . rfl
    . split
      . cases policy <;> rfl
      . rfl
  | cas v pos =>
    simp only [MpscRingAny.pushStep]
    split
    . rw [harg v rfl]
      rfl
    . rfl
  | construct v pos => rfl
  | publish pos => rfl

theorem pushStep_valid (hvalid : (ProducerPc.push t policy pc).Valid submitted)
    : (afterPush t policy (ring.pushStep spurious pc).2).Valid submitted := by
  obtain ⟨ht, hcall, harg⟩ := hvalid
  have harg' : ∀ v, (ring.pushStep spurious pc).2.arg = some v → v = t := by
    intro v hv
    exact harg v (MpscRingAny.pushStep_arg hv)
  cases hres : (ring.pushStep spurious pc).2 with
  | idle =>
    -- No step of a call leads back to `idle`.
    cases pc with
    | idle => contradiction
    | readSeq v pos =>
      simp only [MpscRingAny.pushStep] at hres
      split at hres
      . contradiction
      . split at hres <;> contradiction
    | cas v pos =>
      simp only [MpscRingAny.pushStep] at hres
      split at hres <;> contradiction
    | _ => contradiction
  | returned ok v =>
    cases ok with
    | true => exact ht
    | false => cases policy <;> exact ht
  | _ =>
    rw [hres] at harg'
    exact ⟨ht, rfl, harg'⟩

theorem popStep_success (hcall : pc.inCall = true)
    (h : (ring.popStep spurious pc).2 = .returned true out)
    : ∃ pos, pc = .release pos out := by
  cases pc with
  | readSeq pos | cas pos =>
    simp only [MpscRingAny.popStep] at h
    split at h <;> simp at h
  | release pos out' =>
    simp only [MpscRingAny.popStep, PopPc.returned.injEq, true_and] at h
    exact ⟨pos, by rw [h]⟩
  | returned ok out' => contradiction
  | _ => simp [MpscRingAny.popStep] at h

theorem popStep_pops (ring : MpscRingAny Nat Nat) (spurious : Bool) (pc : PopPc Nat Nat)
    (h : ∀ out, (ring.popStep spurious pc).2 ≠ .returned true out)
    : pc.pops (ring.popStep spurious pc).2 = [] := by
  cases pc with
  | release pos out => exact absurd rfl (h out)
  | _ => rfl

end Calls

variable {ι κ : Type} [Fintype ι]

structure Tickets (s : State ι κ) : Prop where
  completed : s.completedTasks = s.completions.length
  tickets : (s.completions : Multiset Nat) + s.worker.uncompleted + s.claimed.drop s.popped.length
    + threadSum ProducerPc.unresolved s.producers = Multiset.range s.submittedTasks
  results : (s.executed : Multiset Nat) + s.dropped + s.stopped
    = (s.completions : Multiset Nat) + s.worker.finishing
  order : s.accepted = s.executed ++ s.worker.running ++ s.claimed.drop s.popped.length
  valid : ∀ i, (s.producers i).Valid s.submittedTasks
  inCall : s.worker.InCall
  returned : ∀ t ∈ s.returned, t < s.submittedTasks

namespace Tickets

variable {s s' : State ι κ}

theorem init (cfg : Config) : Tickets (MpscExecutor.init cfg : State ι κ) := by
  constructor
  case tickets =>
    simp only [MpscExecutor.init]
    rw [threadSum_const_zero (by rfl : ProducerPc.unresolved .idle = 0)]
    rfl
  all_goals simp [MpscExecutor.init, WorkerPc.finishing, WorkerPc.running, WorkerPc.InCall,
    ProducerPc.Valid]

section

variable (h : Tickets s)

include h

theorem card_eq
    : s.completedTasks + (s.worker.uncompleted.length + (s.claimed.drop s.popped.length).length
        + (threadSum ProducerPc.unresolved s.producers).card) = s.submittedTasks := by
  have hcard := congrArg card h.tickets
  simp only [card_add, coe_card, card_range] at hcard
  rw [h.completed]
  omega

theorem completed_le : s.completedTasks ≤ s.submittedTasks := by
  have := h.card_eq
  omega

theorem quiet (hdone : s.submittedTasks ≤ s.completedTasks)
    : s.worker.uncompleted = [] ∧ s.claimed.drop s.popped.length = [] ∧
      ∀ i, (s.producers i).unresolved = 0 := by
  have hcard := h.card_eq
  refine ⟨List.eq_nil_of_length_eq_zero (by omega), List.eq_nil_of_length_eq_zero (by omega), ?_⟩
  rw [← threadSum_eq_zero_iff (f := ProducerPc.unresolved)]
  exact card_eq_zero.mp (by omega)

theorem finished (hdone : s.submittedTasks ≤ s.completedTasks) (ht : t < s.submittedTasks)
    : t ∈ s.executed ∨ t ∈ s.dropped ∨ t ∈ s.stopped := by
  obtain ⟨huncompleted, hpending, hunresolved⟩ := h.quiet hdone
  have hmem : t ∈ range s.submittedTasks := mem_range.mpr ht
  rw [← h.tickets, huncompleted, hpending, threadSum_eq_zero_iff.mpr hunresolved] at hmem
  have hmem : t ∈ (s.completions : Multiset Nat) + s.worker.finishing := by
    rw [mem_add]
    left
    simpa using hmem
  rw [← h.results] at hmem
  simpa [or_assoc] using hmem

theorem setWorker (hmove : WorkerMove s s.worker pc)
    : Tickets { s with activeTasks := active, worker := pc } := by
  obtain ⟨huncompleted, hrunning, hfinishing, hcall⟩ := hmove.held
  refine { h with tickets := ?tickets, results := ?results, order := ?order, inCall := ?inCall }
  case tickets => simpa [huncompleted] using h.tickets
  case results => simpa [hfinishing] using h.results
  case order => simpa [hrunning] using h.order
  case inCall => exact hcall

theorem take (hheld : s.worker.uncompleted = []) (hrunning : s.worker.running = [])
    (hfinishing : s.worker.finishing = []) (hhead : s.claimed[s.popped.length]? = some t)
    : Tickets { s with
        ring := ring, popped := s.popped ++ [some t], worker := .run budget t } := by
  obtain ⟨hlt, hget⟩ := List.getElem?_eq_some_iff.mp hhead
  have hdrop : s.claimed.drop s.popped.length = t :: s.claimed.drop (s.popped ++ [some t]).length := by
    rw [List.length_append, List.length_singleton, List.drop_eq_getElem_cons hlt, hget]
  refine { h with tickets := ?tickets, results := ?results, order := ?order, inCall := ?inCall }
  case tickets =>
    rw [← h.tickets, hdrop, hheld]
    simp only [WorkerPc.uncompleted, ← cons_coe, ← singleton_add,
      coe_nil]
    abel
  case results =>
    have := h.results
    rw [hfinishing] at this
    exact this
  case order =>
    rw [h.order, hdrop, hrunning]
    simp [WorkerPc.running]
  case inCall => trivial

theorem pop (hring : RingInv s) (hpc : s.worker = .pop budget drained pc)
    (hafter : AfterPop budget drained (s.ring.popStep spurious pc).2 pc')
    : Tickets { s with
        ring := (s.ring.popStep spurious pc).1
        popped := s.popped ++ pc.pops (s.ring.popStep spurious pc).2
        worker := pc' } := by
  have hcall := h.inCall
  rw [hpc] at hcall
  -- The steps of `try_pop` that hand out nothing.
  have hquiet : pc.pops (s.ring.popStep spurious pc).2 = [] → pc'.uncompleted = [] →
      pc'.running = [] → pc'.finishing = [] → pc'.InCall → Tickets { s with
        ring := (s.ring.popStep spurious pc).1
        popped := s.popped ++ pc.pops (s.ring.popStep spurious pc).2
        worker := pc' } := by
    intro hpops huncompleted hrunning hfinishing hin
    have htickets := h.tickets
    have hresults := h.results
    have horder := h.order
    simp only [hpc, WorkerPc.uncompleted, WorkerPc.running, WorkerPc.finishing] at htickets hresults horder
    rw [hpops, List.append_nil]
    exact {
      completed := h.completed
      tickets := by simpa [huncompleted] using htickets
      results := by simpa [hfinishing] using hresults
      order := by simpa [hrunning] using horder
      valid := h.valid
      inCall := hin
      returned := h.returned }
  have hpops := popStep_pops s.ring spurious pc
  generalize hres : (s.ring.popStep spurious pc).2 = res at hafter hquiet hpops ⊢
  cases hafter with
  | @run t =>
    obtain ⟨pos, rfl⟩ := popStep_success hcall hres
    have hpop := MpscRingAny.Inv.pop hring
    rw [hpc] at hpop
    simp only [WorkerPc.ringPc, MpscRingAny.PopInv] at hpop
    have hhead : s.claimed[s.popped.length]? = some t := by
      rw [← hpop.1]
      exact hpop.2.2.symm
    exact h.take (by rw [hpc]; rfl) (by rw [hpc]; rfl) (by rw [hpc]; rfl) hhead
  | fail => exact hquiet (hpops (by simp)) rfl rfl rfl trivial
  | goOn hin =>
    cases hin with
    | inl hin =>
      refine hquiet (hpops ?_) rfl rfl rfl hin
      rintro out rfl
      contradiction
    | inr hidle =>
      -- No step of a call leads back to `idle`.
      exfalso
      rw [hidle] at hres
      cases pc with
      | idle => contradiction
      | readSeq pos | cas pos =>
        simp only [MpscRingAny.popStep] at hres
        split at hres <;> contradiction
      | _ => contradiction

theorem run (hpc : s.worker = .run budget t)
    : Tickets { s with worker := .finish budget t, executed := s.executed ++ [t] } where
  __ := h
  tickets := by simpa [hpc, WorkerPc.uncompleted] using h.tickets
  results := by
    have hresults := h.results
    simp only [hpc, WorkerPc.finishing, coe_nil, add_zero] at hresults
    simp only [WorkerPc.finishing, ← coe_add]
    rw [← hresults]
    abel
  order := by simpa [hpc, WorkerPc.running] using h.order
  inCall := trivial

theorem finish (hpc : s.worker = .finish budget t)
    : Tickets { s with
        worker := .release budget
        completedTasks := s.completedTasks + 1
        completions := s.completions ++ [t] } where
  __ := h
  completed := by simp [h.completed]
  tickets := by
    have htickets := h.tickets
    simp only [hpc, WorkerPc.uncompleted] at htickets
    simp only [WorkerPc.uncompleted, ← coe_add, coe_nil, add_zero]
    exact htickets
  results := by
    have hresults := h.results
    simp only [hpc, WorkerPc.finishing] at hresults
    simp only [WorkerPc.finishing, ← coe_add, coe_nil, add_zero]
    exact hresults
  order := by simpa [hpc, WorkerPc.running] using h.order
  inCall := trivial

end

theorem configure {resizing stop requested done : Bool}
    {producers limit drops active ringCount workerCount : Nat} {policy : QueuePolicy}
    {lifecycle : LifecyclePc} {waiters : κ → WaiterPc} {resizeFrom : Nat × Nat × Nat} (h : Tickets s)
    : Tickets { s with
        resizing := resizing
        activeProducers := producers
        stopFlag := stop
        maxQueueSize := limit
        overflowPolicy := policy
        droppedTasks := drops
        activeTasks := active
        lifecycle := lifecycle
        waiters := waiters
        shutdownRequested := requested
        shutdownReturned := done
        ringCount := ringCount
        workerCount := workerCount
        resizeFrom := resizeFrom } where
  __ := h

theorem swap (h : Tickets s) (hpending : s.claimed.drop s.popped.length = [])
    : Tickets { s with ring := ring, claimed := [], popped := [] } where
  __ := h
  tickets := by simpa [hpending] using h.tickets
  order := by simpa [hpending] using h.order

theorem restart (h : Tickets s) (hexited : s.worker = .exited)
    : Tickets { s with worker := .loop } where
  __ := h
  tickets := by simpa [hexited, WorkerPc.uncompleted] using h.tickets
  results := by simpa [hexited, WorkerPc.finishing] using h.results
  order := by simpa [hexited, WorkerPc.running] using h.order
  inCall := trivial

section Producers

variable [DecidableEq ι] {i : ι} {pc : ProducerPc} {t : Nat}

omit [Fintype ι] in
theorem valid_update {producers : ι → ProducerPc} (h : ∀ j, (producers j).Valid submitted)
    (hpc : pc.Valid submitted)
    : ∀ j, (Function.update producers i pc j).Valid submitted := by
  rw [Function.forall_update_iff producers (fun _ x => x.Valid submitted)]
  exact ⟨hpc, fun j _ => h j⟩

theorem setProducer (h : Tickets s) (hsame : pc.unresolved = (s.producers i).unresolved)
    (hvalid : pc.Valid s.submittedTasks)
    : Tickets (s.setProducer i pc) where
  __ := h
  tickets := by
    simp only [State.setProducer]
    rw [threadSum_update_eq hsame]
    exact h.tickets
  valid := valid_update h.valid hvalid

theorem ticket (h : Tickets s) (hpc : s.producers i = .ticket)
    : Tickets { s.setProducer i (.checkStop s.submittedTasks) with
        submittedTasks := s.submittedTasks + 1 } where
  __ := h
  tickets := by
    have hsum := threadSum_update ProducerPc.unresolved s.producers i (.checkStop s.submittedTasks)
    rw [hpc] at hsum
    simp only [ProducerPc.unresolved, add_zero] at hsum
    simp only [State.setProducer]
    rw [hsum, ← add_assoc, h.tickets, range_succ, ← singleton_add, add_comm]
  valid := by
    apply valid_update
    . intro j
      exact (h.valid j).mono (Nat.le_succ _)
    . exact Nat.lt_succ_self _
  returned := fun x hx => Nat.lt_succ_of_lt (h.returned x hx)

theorem push {spurious : Bool} {policy : QueuePolicy} {pc : PushPc Nat Nat} (h : Tickets s)
    (hring : RingInv s) (hpc : s.producers i = .push t policy pc)
    : Tickets { s.setProducer i (afterPush t policy (s.ring.pushStep spurious pc).2) with
        ring := (s.ring.pushStep spurious pc).1
        claimed := s.claimed ++ pc.claims (s.ring.pushStep spurious pc).2
        accepted := s.accepted ++ pc.claims (s.ring.pushStep spurious pc).2 } := by
  have hvalid := h.valid i
  rw [hpc] at hvalid
  have hle : s.popped.length ≤ s.claimed.length := by
    have := MpscRingAny.Inv.popped_length_le hring
    omega
  have hdrop : (s.claimed ++ pc.claims (s.ring.pushStep spurious pc).2).drop s.popped.length
      = s.claimed.drop s.popped.length ++ pc.claims (s.ring.pushStep spurious pc).2 :=
    List.drop_append_of_le_length hle
  refine { h with tickets := ?tickets, order := ?order, valid := ?valid }
  case tickets =>
    have hsum := threadSum_update ProducerPc.unresolved s.producers i
      (afterPush t policy (s.ring.pushStep spurious pc).2)
    have hclaim := pushStep_unresolved s.ring spurious policy hvalid.2.1 hvalid.2.2
    rw [hpc, ← hclaim, add_comm _ (ofList _), ← add_assoc] at hsum
    have hsum := add_right_cancel hsum
    simp only [State.setProducer]
    rw [hdrop, ← h.tickets, ← hsum, ← coe_add]
    abel
  case order =>
    simp only [State.setProducer]
    rw [hdrop, h.order]
    simp
  case valid => exact valid_update h.valid (pushStep_valid hvalid)

theorem unresolved_complete (hpc : s.producers i = .complete t refusal)
    : threadSum ProducerPc.unresolved (Function.update s.producers i (.leave t)) + {t}
        = threadSum ProducerPc.unresolved s.producers := by
  have hsum := threadSum_update ProducerPc.unresolved s.producers i (.leave t)
  rw [hpc] at hsum
  simpa [ProducerPc.unresolved] using hsum

theorem complete {refusal : Refusal} {dropped stopped : List Nat} (h : Tickets s)
    (hpc : s.producers i = .complete t refusal)
    (hrefused : (dropped : Multiset Nat) + stopped = s.dropped + s.stopped + {t})
    : Tickets { s.setProducer i (.leave t) with
        completedTasks := s.completedTasks + 1
        completions := s.completions ++ [t]
        dropped
        stopped } where
  __ := h
  completed := by simp [h.completed]
  tickets := by
    have htickets := h.tickets
    rw [← unresolved_complete hpc] at htickets
    simp only [State.setProducer, ← coe_add, coe_singleton]
    rw [← htickets]
    abel
  results := by
    simp only [State.setProducer, ← coe_add, coe_singleton]
    rw [add_assoc, hrefused, add_right_comm (s.completions : Multiset Nat), ← h.results]
    abel
  valid := by
    have hvalid := h.valid i
    rw [hpc] at hvalid
    exact valid_update h.valid hvalid

theorem leave (h : Tickets s) (hpc : s.producers i = .leave t)
    : Tickets { s.setProducer i .idle with
        activeProducers := producers
        returned := s.returned ++ [t] } := by
  have hset : Tickets (s.setProducer i .idle) := h.setProducer (by rw [hpc]; rfl) trivial
  have hvalid := h.valid i
  rw [hpc] at hvalid
  exact { hset with
    returned := by
      intro x hx
      simp only [List.mem_append, List.mem_singleton] at hx
      cases hx with
      | inl hx => exact h.returned x hx
      | inr hx =>
        rw [hx]
        exact hvalid }

end Producers

section Step

variable [DecidableEq ι] [DecidableEq κ] {cfg : Config} {a : Action ι κ}

theorem step (h : Tickets s) (hring : RingInv s)
    (hswap : ∀ size, s.lifecycle = .resizeSwap size → s.claimed.drop s.popped.length = [])
    (hrestart : s.lifecycle = .resizeStart → s.worker = .exited) (hstep : Transition cfg s a s')
    : Tickets s' := by
  cases hstep with
  | skip => exact h
  | producerMove hmove => exact h.setProducer hmove.unresolved (hmove.valid (h.valid _))
  | @count i _ hpc =>
    have hset : Tickets (s.setProducer i .recheck) := h.setProducer (by rw [hpc]; rfl) trivial
    exact hset.configure
  | @uncount i _ hpc =>
    have hset : Tickets (s.setProducer i .enter) := h.setProducer (by rw [hpc]; rfl) trivial
    exact hset.configure
  | ticket hpc => exact h.ticket hpc
  | push hpc => exact h.push hring hpc
  | @drop i _ t hpc =>
    have hvalid := h.valid i
    rw [hpc] at hvalid
    have hset : Tickets (s.setProducer i (.complete t .dropped)) :=
      h.setProducer (by rw [hpc]; rfl) hvalid
    exact hset.configure
  | completeDropped hpc =>
    apply h.complete hpc
    rw [← coe_add, coe_singleton, add_right_comm]
    rfl
  | completeStopped hpc =>
    apply h.complete hpc
    rw [← coe_add, coe_singleton, add_assoc]
    rfl
  | leave hpc => exact h.leave hpc
  | workerMove hmove => exact h.setWorker hmove
  | pop hpc hafter => exact h.pop hring hpc hafter
  | run hpc => exact h.run hpc
  | finish hpc => exact h.finish hpc
  | waiterMove => exact h.configure
  | swap hpc => exact (h.swap (hswap _ hpc)).configure
  | restart hpc => exact (h.restart (hrestart hpc)).configure
  | _ => exact h.configure

end Step
end Tickets
end LogIt.MpscExecutor
