import LogIt.FileLogger.Lemmas.LifecycleSwitch

namespace LogIt.FileLogger
namespace Lifecycle

open SerialExecutor

variable {ι : Type} [Fintype ι] {s s' : State ι} {c : ι}

theorem Inv.initWith {config : AsyncConfig} {x : Executors ι Nat} {executor : Option Nat}
    (hsound : x.Sound) (hunused : ∀ r, Executors.Unused (x.view r)) (hwritten : x.written = [])
    (hpolicy : config.queuePolicy = .block)
    (hexecutor : ∀ i, executor = some i → config.async = true ∧ i < x.created)
    : Inv (Lifecycle.initWith config x executor) := by
  constructor
  case sound => exact hsound
  case clients =>
    intro c
    refine ⟨trivial, by simp [ClientPc.holds, Lifecycle.initWith], ?_⟩
    intro r m hphase
    have hphase : (x.view r).phase c = .sending (some m) := hphase
    rw [(hunused r).2.2 c] at hphase
    contradiction
  case unlocked =>
    intro _
    have hpending : (Lifecycle.initWith config x executor).pending = [] := by
      unfold State.pending
      split
      . exact (hunused _).1
      . rfl
    unfold State.total
    rw [hpending, List.append_nil]
    exact hwritten.symm
  case queued => exact fun r hr => absurd (hunused r).1 hr
  case stopped =>
    intro r hr
    have hr : (x.view r).stopped = true := hr
    rw [(hunused r).2.1] at hr
    contradiction
  case executor => exact hexecutor
  case policy => exact hpolicy
  case returned => exact fun hreturned => absurd hreturned (by simp [Lifecycle.initWith])
  case finished => exact fun hfinished => absurd hfinished (by simp [Lifecycle.initWith])

theorem Inv.init {config : AsyncConfig} (hpolicy : config.queuePolicy = .block)
    : Inv (Lifecycle.init config : State ι) := by
  unfold Lifecycle.init
  by_cases howns : config.ownsExecutor = true
  . rw [if_pos howns]
    apply Inv.initWith (Executors.initDedicated_sound hpolicy) (Executors.initDedicated_unused config)
      rfl hpolicy
    intro i hi
    cases hi
    exact ⟨(Bool.and_eq_true_iff.mp howns).1, Nat.one_pos⟩
  . rw [if_neg howns]
    exact Inv.initWith Executors.init_sound Executors.init_unused rfl hpolicy (by simp)

variable [DecidableEq ι]

def Action.blocks (a : Action ι) : Bool :=
  match a with
  | .setConfig _ config => decide (config.queuePolicy = .block)
  | .setQueueConfig _ _ queuePolicy => decide (queuePolicy = .block)
  | .exec r a => a.keepsAll r.variant
  | _ => true

theorem Inv.step (h : Inv s) (ha : a.blocks = true) (hstep : Lifecycle.step s a = some s')
    : Inv s' := by
  cases a with
  | log c => exact h.log hstep
  | logRun c => exact h.logRun hstep
  | logReturn c => exact h.logReturn hstep
  | setConfig c config => exact h.setConfig (of_decide_eq_true ha) hstep
  | configWait c => exact h.configWait hstep
  | configWaited c => exact h.configWaited hstep
  | configSwitch c => exact h.configSwitch hstep
  | setQueueConfig c capacity policy => exact h.setQueueConfig (of_decide_eq_true ha) hstep
  | limit c => exact h.limit hstep
  | policy c => exact h.policyStep hstep
  | configClose c => exact h.configClose hstep
  | configClosed c => exact h.configClosed hstep
  | wait c => exact h.wait hstep
  | waitReturn c => exact h.waitReturn hstep
  | shutdown c => exact h.shutdownCall hstep
  | shutdownRun c => exact h.shutdownRun hstep
  | shutdownClosed c => exact h.shutdownClosed hstep
  | shutdownWaited c => exact h.shutdownWaited hstep
  | exec r a => exact h.exec ha hstep

theorem reachable_inv (hpolicy : config.queuePolicy = .block)
    (reach : (system ι config).ReachableVia (fun _ a => a.blocks = true) s)
    : Inv s := by
  apply reach.invariant Inv (Inv.init hpolicy)
  intro s a s' _ hinv ha hstep
  exact hinv.step ha hstep

def ClientPc.inHand (pc : ClientPc) (phase : Option (Phase Nat)) : List Nat :=
  match pc, phase with
  | .log m, _ => [m]
  | .logAdding _, some (.sending (some m)) => [m]
  | _, _ => []

def State.inHand (s : State ι) : List Nat :=
  match s.lifecycle with
  | some c => (s.clients c).inHand (s.route.map (fun r => s.phase r c))
  | none => []

omit [DecidableEq ι] [Fintype ι] in
theorem Knows.accepted (h : Knows s c pc) (hholds : pc.holds = true)
    : s.accepted = s.total ++ pc.inHand (s.route.map (fun r => s.phase r c)) := by
  have hsettled (haccepted : s.accepted = s.total) : s.accepted = s.total ++ [] := by
    rw [List.append_nil]
    exact haccepted
  cases pc with
  | log m => exact h.2
  | logAdding m =>
    obtain ⟨_, r, hroute, hmessage⟩ := h
    rw [hroute]
    cases hmessage with
    | inl hsending =>
      rw [Option.map_some, hsending.1]
      exact hsending.2
    | inr hdone =>
      rw [Option.map_some]
      cases hphase : s.phase r c with
      | sending m' =>
        cases m' with
        | some m' => exact absurd hphase (hdone.1 m')
        | none => exact hsettled hdone.2
      | _ => exact hsettled hdone.2
  | config config | configWaiting config | configSwitch config | shutdownWaiting =>
    exact hsettled h.2.1
  | limit | policy => exact hsettled h.2
  | waiting before => exact hsettled h.1
  | _ => contradiction

omit [DecidableEq ι] in
theorem Inv.accepted (h : Inv s)
    : s.accepted = s.executors.written ++ s.pending ++ s.inHand := by
  change s.accepted = s.total ++ s.inHand
  unfold State.inHand
  cases hlock : s.lifecycle with
  | none =>
    rw [List.append_nil]
    exact h.unlocked hlock
  | some c =>
    have hclient := h.clients c
    exact hclient.knows.accepted (hclient.owner.mpr hlock)

omit [DecidableEq ι] in
theorem Inv.inHand_of_shutdown (h : Inv s) (hshutdown : s.shutdown = true) : s.inHand = [] := by
  unfold State.inHand
  cases hlock : s.lifecycle with
  | none => rfl
  | some c =>
    have hknows := (h.clients c).knows
    cases hc : s.clients c with
    | log m | logAdding m =>
      rw [hc] at hknows
      exact absurd (hshutdown.symm.trans hknows.1) (by simp)
    | _ =>
      dsimp only
      rw [hc]
      rfl

theorem messages_kept (config : AsyncConfig) (hpolicy : config.queuePolicy = .block) (s : State ι)
    (reach : (system ι config).ReachableVia (fun _ a => a.blocks = true) s)
    : s.accepted = s.executors.written ++ s.pending ++ s.inHand ∧
      (∀ c before, s.clients c = .waitReturned before → before <+: s.executors.written) ∧
      (s.shutdownFinished = true → s.executors.written = s.accepted) ∧
      (s.shutdownReturned = true → ∀ c s', Lifecycle.step s (.log c) = some s' →
        s'.accepted = s.accepted ∧ s'.executors = s.executors ∧ s'.clients c = .idle) := by
  have hinv := reachable_inv hpolicy reach
  refine ⟨hinv.accepted, ?_, ?_, ?_⟩
  . intro c before hc
    have hknows := (hinv.clients c).knows
    rw [hc] at hknows
    exact hknows
  . intro hfinished
    obtain ⟨hshutdown, hpending⟩ := hinv.finished hfinished
    have haccepted := hinv.accepted
    rw [hpending, hinv.inHand_of_shutdown hshutdown, List.append_nil, List.append_nil] at haccepted
    exact haccepted.symm
  . intro hreturned c s' hstep
    simp only [Lifecycle.step, hinv.returned hreturned, if_true] at hstep
    obtain ⟨_, hstep⟩ := Option.ite_none_right_eq_some.mp hstep
    cases hstep
    refine ⟨rfl, rfl, ?_⟩
    change Function.update s.clients c ClientPc.idle c = _
    rw [Function.update_self]

def dedicatedConfig : AsyncConfig where
  async := true
  useDedicatedExecutor := true
  queueCapacity := 0
  queuePolicy := .block

def synchronousConfig : AsyncConfig :=
  { dedicatedConfig with async := false }

theorem messages_kept_switching
    : ∃ s : State (Fin 2), ((system (Fin 2) dedicatedConfig).ReachableVia
          (fun _ a => a.blocks = true) s ∧
        s.accepted = [0, 1] ∧ s.shutdownFinished = true ∧ s.clients 0 = .waitReturned [0, 1]) ∧
      s.executors.written = [0, 1] ∧ [0, 1] <+: s.executors.written := by
  have hrun : ∃ s : State (Fin 2), (system (Fin 2) dedicatedConfig).ReachableVia
        (fun _ a => a.blocks = true) s ∧
      s.accepted = [0, 1] ∧ s.shutdownFinished = true ∧ s.clients 0 = .waitReturned [0, 1] := by
    apply Lts.exists_reachableVia _ _
      [.log 0, .logRun 0, .exec (.dedicated 0) (.addLock 0),
        .exec (.dedicated 0) (.addNotify 0 .nobody), .logReturn 0,
        .setConfig 1 synchronousConfig, .configWait 1, .exec (.dedicated 0) (.waitLock 1),
        .exec (.dedicated 0) .workerLock, .exec (.dedicated 0) (.workerNotify .nobody),
        .exec (.dedicated 0) .workerRun, .exec (.dedicated 0) .workerFinish,
        .exec (.dedicated 0) (.waitLock 1), .exec (.dedicated 0) (.waitReturn 1), .configWaited 1,
        .configSwitch 1, .log 0, .logRun 0, .shutdown 0, .shutdownRun 0, .wait 0]
    decide +kernel
  obtain ⟨s, reach, hstate⟩ := hrun
  obtain ⟨_, hwait, hshutdown, _⟩ := messages_kept dedicatedConfig rfl s reach
  refine ⟨s, ⟨reach, hstate⟩, ?_, hwait 0 [0, 1] hstate.2.2⟩
  rw [hshutdown hstate.2.1]
  exact hstate.1

theorem second_shutdown_returns_early
    : ∃ s : State (Fin 2), (system (Fin 2) dedicatedConfig).ReachableVia
        (fun _ a => a.blocks = true) s ∧
      s.shutdownReturned = true ∧ s.accepted = [0] ∧ s.executors.written = [] := by
  apply Lts.exists_reachableVia _ _
    [.log 0, .logRun 0, .exec (.dedicated 0) (.addLock 0),
      .exec (.dedicated 0) (.addNotify 0 .nobody), .logReturn 0, .shutdown 0, .shutdownRun 0,
      .shutdown 1]
  decide +kernel

end Lifecycle
end LogIt.FileLogger
