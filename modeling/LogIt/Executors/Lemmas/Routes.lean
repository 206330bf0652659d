import LogIt.Deque.Lemmas.Serial
import LogIt.Executors.Impl.Routes

namespace LogIt
namespace AsyncConfig

variable {config : AsyncConfig} {executor : Option Nat} {i : Nat} {r : Route}

theorem eq_of_route_some (hexecutor : executor = some i) (hroute : config.route executor = some r)
    : r = .dedicated i := by
  unfold route at hroute
  rw [hexecutor] at hroute
  split at hroute
  . exact (Option.some.inj hroute).symm
  . contradiction

theorem eq_of_route_none (hroute : config.route none = some r) : r = .global := by
  unfold route at hroute
  split at hroute
  . exact (Option.some.inj hroute).symm
  . contradiction

theorem route_some (hasync : config.async = true) (hexecutor : executor = some i)
    : config.route executor = some (.dedicated i) := by
  unfold route
  rw [hasync, hexecutor]
  rfl

theorem executor_of_route (h : config.route executor = some (.dedicated i)) : executor = some i := by
  cases hexecutor : executor with
  | none =>
    rw [hexecutor] at h
    exact absurd (eq_of_route_none h) (by simp)
  | some j =>
    cases eq_of_route_some hexecutor h
    rfl

end AsyncConfig

namespace Executors

open SerialExecutor DequeExecutor

variable {ι μ : Type}

def view (x : Executors ι μ) (r : Route) : View ι μ :=
  (x.exec r).view (x.message r)

theorem idle_iff {x : Executors ι μ} : x.idle r c = true ↔ (x.view r).phase c = .idle := by
  unfold idle
  rw [decide_eq_true_iff]
  exact ClientPc.phase_eq_idle.symm

theorem admits_call {x : Executors ι μ} {busy : ι → Bool} (h : x.admits busy r a = true)
    (hcalls : a.calls = true)
    : r = .global ∧ ∀ c, a.client = some c → busy c = false := by
  cases r with
  | global =>
    refine ⟨rfl, ?_⟩
    intro c hc
    have hbusy : (!a.calls || !a.client.any busy) = true := h
    simpa [hcalls, hc] using hbusy
  | dedicated i =>
    cases a with
    | setQueuePolicy policy | resetDroppedTasks => contradiction
    | _ => simp [admits, hcalls] at h

theorem view_create_self (x : Executors ι μ)
    : x.create.view (.dedicated x.created)
        = (DequeExecutor.init : DequeExecutor.State ι).view (fun _ => (none : Option μ)) := by
  unfold view create
  simp only [Function.update_self]

theorem view_create_of_ne (x : Executors ι μ) (h : r ≠ .dedicated x.created)
    : x.create.view r = x.view r := by
  unfold view create
  simp only [Function.update_of_ne h]

variable [Fintype ι]

def Sound (x : Executors ι μ) : Prop :=
  ∀ r, Serial r.variant (x.message r) (x.exec r)

structure Changes (x : Executors ι μ) (r : Route) (out : Option μ) (w : View ι μ)
    (x' : Executors ι μ) : Prop where
  sound : x'.Sound
  here : x'.view r = w
  elsewhere : ∀ r', r' ≠ r → x'.view r' = x.view r'
  created : x'.created = x.created
  written : x'.written = x.written ++ out.toList

theorem Changes.phase_eq {x : Executors ι μ} (h : x.Changes r out w x')
    (hphase : w.phase c = (x.view r).phase c) (r' : Route)
    : (x'.view r').phase c = (x.view r').phase c := by
  by_cases hr : r' = r
  . rw [hr, h.here]
    exact hphase
  . rw [h.elsewhere r' hr]

section Keeps

structure Keeps (x x' : Executors ι μ) (c : ι) : Prop where
  sound : x'.Sound
  written : x'.written = x.written
  created : x'.created = x.created
  pending : ∀ r, (x'.view r).pending = (x.view r).pending
  phase : ∀ r c', c' ≠ c → (x'.view r).phase c' = (x.view r).phase c'

theorem Keeps.of_eq {x : Executors ι μ} (hsound : x.Sound) (h : x' = x) : x.Keeps x' c := by
  rw [h]
  exact ⟨hsound, rfl, rfl, fun _ => rfl, fun _ _ _ => rfl⟩

variable [DecidableEq ι]

namespace Changes

variable {x x' : Executors ι μ} {r : Route} {c : ι} {p : Phase μ} {stopped : Bool}

section

variable (h : x.Changes r none { (x.view r).setPhase c p with stopped := stopped } x')

include h

theorem keeps
    : x.Keeps x' c where
  __ := h
  written := by
    rw [h.written]
    exact List.append_nil _
  pending r' := by
    by_cases hr : r' = r
    . rw [hr, h.here]
      rfl
    . rw [h.elsewhere r' hr]
  phase r' c' hc := by
    by_cases hr : r' = r
    . rw [hr, h.here]
      exact View.setPhase_phase_of_ne _ hc p
    . rw [h.elsewhere r' hr]

theorem phase_self : (x'.view r).phase c = p := by
  rw [h.here]
  exact View.setPhase_phase_self _ c p

theorem silent (hsilent : ∀ r m, (x.view r).phase c ≠ .sending (some m))
    (hp : ∀ m, p ≠ .sending (some m)) (r' : Route) (m : μ)
    : (x'.view r').phase c ≠ .sending (some m) := by
  by_cases hr : r' = r
  . rw [hr, h.phase_self]
    exact hp m
  . rw [h.elsewhere r' hr]
    exact hsilent r' m

end

end Changes
end Keeps

theorem init_sound : (init : Executors ι μ).Sound := by
  intro r
  exact Serial.init 0

theorem initDedicated_sound (hpolicy : config.queuePolicy = .block)
    : (initDedicated config : Executors ι μ).Sound := by
  intro r
  unfold initDedicated
  by_cases hr : r = .dedicated 0
  . rw [hr, hpolicy]
    simp only [Function.update_self]
    exact Serial.init config.queueCapacity
  . simp only [Function.update_of_ne hr]
    exact Serial.init 0

def Unused (w : View ι μ) : Prop :=
  w.pending = [] ∧ w.stopped = false ∧ ∀ c, w.phase c = .idle

omit [Fintype ι] in
theorem init_unused (r : Route) : Unused ((init : Executors ι μ).view r) :=
  ⟨rfl, rfl, fun _ => rfl⟩

omit [Fintype ι] in
theorem initDedicated_unused (config : AsyncConfig) (r : Route)
    : Unused ((initDedicated config : Executors ι μ).view r) := by
  unfold view initDedicated
  by_cases hr : r = .dedicated 0
  . rw [hr]
    simp only [Function.update_self]
    exact ⟨rfl, rfl, fun _ => rfl⟩
  . simp only [Function.update_of_ne hr]
    exact ⟨rfl, rfl, fun _ => rfl⟩

theorem create_sound {x : Executors ι μ} (h : x.Sound) : x.create.Sound := by
  intro r
  by_cases hr : r = .dedicated x.created
  . rw [hr]
    unfold create
    simp only [Function.update_self]
    exact Serial.init 0
  . unfold create
    simp only [Function.update_of_ne hr]
    exact h r

structure Switched (x : Executors ι μ) (executor : Option Nat) (config : AsyncConfig)
    (x' : Executors ι μ) (executor' : Option Nat) : Prop where
  sound : x'.Sound
  written : x'.written = x.written
  created : x.created ≤ x'.created
  view : ∀ r, x'.view r = x.view r ∨ r = .dedicated x.created ∧ Unused (x'.view r)
  running : ∀ r, config.route executor' = some r → (x'.view r).stopped = false
  owned : ∀ i, executor' = some i → config.async = true ∧ i < x'.created
  fresh : ∀ i, i < x.created → executor' = some i → executor = some i

section Switched

variable {x : Executors ι μ} {executor : Option Nat} {config : AsyncConfig}

theorem Switched.keep (h : x.Sound) (hasync : config.async = true) (hcreated : i < x.created)
    (hrunning : (x.view (.dedicated i)).stopped = false)
    : x.Switched (some i) config x (some i) := by
  refine ⟨h, rfl, Nat.le_refl _, fun _ => .inl rfl, ?_, ?_, fun _ _ hj => hj⟩
  . intro r hroute
    rw [AsyncConfig.eq_of_route_some rfl hroute]
    exact hrunning
  . intro j hj
    cases hj
    exact ⟨hasync, hcreated⟩

theorem Switched.create (h : x.Sound) (hasync : config.async = true)
    : x.Switched executor config x.create (some x.created) := by
  refine ⟨create_sound h, rfl, Nat.le_succ _, ?_, ?_, ?_, ?_⟩
  . intro r
    by_cases hr : r = .dedicated x.created
    . right
      rw [hr, view_create_self]
      exact ⟨rfl, rfl, rfl, fun _ => rfl⟩
    . exact .inl (x.view_create_of_ne hr)
  . intro r hroute
    rw [AsyncConfig.eq_of_route_some rfl hroute]
    exact congrArg View.stopped x.view_create_self
  . intro j hj
    cases hj
    exact ⟨hasync, Nat.lt_succ_self _⟩
  . intro j hlt hj
    cases hj
    exact absurd hlt (Nat.lt_irrefl _)

theorem Switched.drop (h : x.Sound) : x.Switched executor config x none := by
  refine ⟨h, rfl, Nat.le_refl _, fun _ => .inl rfl, ?_, by simp, by simp⟩
  intro r hroute
  rw [AsyncConfig.eq_of_route_none hroute]
  exact (h .global).running rfl

end Switched

variable {x x' : Executors ι μ} {r : Route} {a : DequeExecutor.Action ι} {c : ι}

omit [Fintype ι] in
theorem output_of_calls (hcalls : a.calls = true)
    : (x.exec r).output (x.message r) a = none := by
  cases a with
  | workerRun => contradiction
  | _ => rfl

variable [DecidableEq ι]

theorem act_eq (hact : x.act r a = some x')
    : ∃ exec, DequeExecutor.step r.variant (x.exec r) a = some exec ∧
      x' = { x with
        exec := Function.update x.exec r exec
        written := x.written ++ ((x.exec r).output (x.message r) a).toList } := by
  unfold act at hact
  cases hstep : DequeExecutor.step r.variant (x.exec r) a with rw [hstep] at hact
  | none => contradiction
  | some exec => exact ⟨exec, rfl, (Option.some.inj hact).symm⟩

theorem act_changes (h : x.Sound) (ha : a.keepsAll r.variant = true) (hact : x.act r a = some x')
    : ∃ exec, DequeExecutor.step r.variant (x.exec r) a = some exec ∧
      x.Changes r ((x.exec r).output (x.message r) a) (exec.view (x.message r)) x' := by
  obtain ⟨exec, hstep, rfl⟩ := act_eq hact
  refine ⟨exec, hstep, ?_, ?_, ?_, rfl, rfl⟩
  . intro r'
    by_cases hr : r' = r
    . rw [hr]
      simp only [Function.update_self]
      exact (h r).step ha hstep
    . simp only [Function.update_of_ne hr]
      exact h r'
  . unfold view
    simp only [Function.update_self]
  . intro r' hr
    unfold view
    simp only [Function.update_of_ne hr]

theorem act_wait (h : x.Sound) (hact : x.act r (.wait c) = some x')
    : x.Changes r none ((x.view r).setPhase c .waiting) x' := by
  obtain ⟨exec, hstep, hchanges⟩ := act_changes h rfl hact
  rw [wait_view hstep] at hchanges
  exact hchanges

theorem act_shutdown (h : x.Sound) (hact : x.act (.dedicated i) (.shutdown c false) = some x')
    : ∃ stopped, x.Changes (.dedicated i) none
        { (x.view (.dedicated i)).setPhase c .closing with stopped := stopped } x' := by
  obtain ⟨exec, hstep, hchanges⟩ := act_changes h rfl hact
  rw [shutdown_view hstep] at hchanges
  exact ⟨_, hchanges⟩

theorem act_setQueuePolicy (h : x.Sound) (hpolicy : policy = .block)
    (hact : x.act r (.setQueuePolicy policy) = some x')
    : x.Changes r none (x.view r) x' := by
  have hkeeps : (DequeExecutor.Action.setQueuePolicy policy : DequeExecutor.Action ι).keepsAll
      r.variant = true :=
    decide_eq_true hpolicy
  obtain ⟨exec, hstep, hchanges⟩ := act_changes h hkeeps hact
  cases Transition.of_step hstep with
  | skip | setPolicy => exact hchanges

theorem act_call (h : x.Sound) (ha : a.keepsAll r.variant = true) (hcalls : a.calls = true)
    (hshutdown : ∀ c onWorker, a ≠ .shutdown c onWorker) (hact : x.act r a = some x')
    : ∃ c p, a.client = some c ∧ (x.view r).phase c = .idle ∧ (∀ m, p ≠ .sending (some m)) ∧
      x.Changes r none ((x.view r).setPhase c p) x' := by
  obtain ⟨exec, hstep, hchanges⟩ := act_changes h ha hact
  obtain ⟨c, p, hclient, hp, hview⟩ := (h r).call hcalls hshutdown hstep
  rw [hview, output_of_calls hcalls] at hchanges
  exact ⟨c, p, hclient, congrArg (ClientPc.phase _) (idle_of_call hcalls hclient hstep), hp, hchanges⟩

inductive Effect (x : Executors ι μ) (r : Route) (x' : Executors ι μ) : Prop where
  | output (hchanges : x.Changes r out { x.view r with pending := rest } x')
      (hpending : (x.view r).pending = out.toList ++ rest)
  | enqueue {c : ι} (hphase : (x.view r).phase c = .sending (some m))
      (hchanges : x.Changes r none
        { (x.view r).setPhase c .leaving with pending := (x.view r).pending ++ [m] } x')
  | reject {c : ι} (hphase : (x.view r).phase c = .sending (some m))
      (hstopped : (x.view r).stopped = true)
  | endPhase {c : ι} (hchanges : x.Changes r none ((x.view r).setPhase c p) x')
      (hp : ∀ m, p ≠ .sending (some m)) (hsending : ∀ m, (x.view r).phase c ≠ .sending (some m))
      (hends : (x.view r).phase c = .waiting ∨ (x.view r).phase c = .closing →
        (x.view r).pending = [])

theorem Effect.of_step (hstep : View.Step (x.view r) out w) (hchanges : x.Changes r out w x')
    : x.Effect r x' := by
  cases hstep with
  | quiet => exact .output hchanges rfl
  | run hpending => exact .output hchanges hpending
  | @enqueue c m hc =>
    cases m with
    | some m => exact .enqueue hc hchanges
    | none =>
      rw [Option.toList_none, List.append_nil] at hchanges
      exact .endPhase hchanges (by simp) (by simp [hc]) (by simp [hc])
  | @reject c m hc hstop =>
    cases m with
    | some m => exact .reject hc hstop
    | none => exact .endPhase hchanges (by simp) (by simp [hc]) (by simp [hc])
  | waited hc hpending | closed hc hpending =>
    exact .endPhase hchanges (by simp) (by simp [hc]) (fun _ => hpending)
  | leave hc => exact .endPhase hchanges (by simp) (by simp [hc]) (by simp [hc])

theorem act_effect (h : x.Sound) (ha : a.keepsAll r.variant = true)
    (hadmits : x.admits busy r a = true) (hact : x.act r a = some x')
    : x.Effect r x' := by
  cases hcalls : a.calls with
  | false =>
    obtain ⟨exec, hstep, hchanges⟩ := act_changes h ha hact
    exact .of_step (step_view (h r).inv (h r).policy (h r).running hcalls hstep) hchanges
  | true =>
    obtain ⟨hglobal, _⟩ := admits_call hadmits hcalls
    have hshutdown : ∀ c onWorker, a ≠ .shutdown c onWorker := by
      intro c onWorker hshutdown
      rw [hshutdown, hglobal] at ha
      contradiction
    obtain ⟨c, p, _, hidle, hp, hchanges⟩ := act_call h ha hcalls hshutdown hact
    exact .endPhase hchanges hp (by simp [hidle]) (by simp [hidle])

theorem send_changes (h : x.Sound) (hsend : x.send r c m = some x')
    : x.Changes r none ((x.view r).setPhase c (.sending (some m))) x' := by
  obtain ⟨exec, hstep, rfl⟩ := act_eq hsend
  obtain ⟨hserial, hview⟩ := (h r).send (some m) hstep
  refine ⟨?_, ?_, ?_, rfl, rfl⟩
  . intro r'
    by_cases hr : r' = r
    . rw [hr]
      simp only [setMessage, Function.update_self]
      exact hserial
    . simp only [setMessage, Function.update_of_ne hr]
      exact h r'
  . unfold view
    simp only [setMessage, Function.update_self]
    exact hview
  . intro r' hr
    unfold view
    simp only [setMessage, Function.update_of_ne hr]

end Executors
end LogIt
