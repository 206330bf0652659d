import LogIt.ConsoleLogger.Lemmas.Calls
import LogIt.ConsoleLogger.Lemmas.Executors

namespace LogIt.ConsoleLogger

open Function SerialExecutor List

variable {ι : Type} [DecidableEq ι] {s s' : State ι} {c : ι}

section Run

def Action.blocks (a : Action ι) : Bool :=
  match a with
  | .setConfig _ config => decide (config.queuePolicy = .block)
  | .shutdown _ => false
  | .exec r a => a.keepsAll r.variant
  | _ => true

def State.undivided (s : State ι) (a : Action ι) : Bool :=
  match a with
  | .log c => s.executors.routes.all
      (fun r => decide (s.route = some r) || (own c (s.queued r)).isEmpty)
  | .waitLock c =>
    match s.clients c with
    | .wait before => s.executors.routes.all
        (fun r => decide (s.route = some r) || (s.queued r).all (fun m => decide (m ∉ before)))
    | _ => true
  | _ => true

variable [Fintype ι]

theorem Inv.queued_of_not_mem (h : Inv s) (hr : r ∉ s.executors.routes) : s.queued r = [] :=
  (h.unused r hr).1

theorem Inv.undivided_log_iff (h : Inv s)
    : s.undivided (.log c) = true ↔ ∀ r, s.route ≠ some r → own c (s.queued r) = [] := by
  simp only [State.undivided, all_eq_true, Bool.or_eq_true, decide_eq_true_iff,
    List.isEmpty_iff]
  constructor
  . intro hall r hroute
    by_cases hr : r ∈ s.executors.routes
    . exact (hall r hr).resolve_left hroute
    . rw [h.queued_of_not_mem hr]
      rfl
  . intro hown r _
    by_cases hroute : s.route = some r
    . exact .inl hroute
    . exact .inr (hown r hroute)

theorem Inv.undivided_waitLock_iff (h : Inv s) (hc : s.clients c = .wait before)
    : s.undivided (.waitLock c) = true ↔
        ∀ r, s.route ≠ some r → ∀ m ∈ s.queued r, m ∉ before := by
  simp only [State.undivided, hc, all_eq_true, Bool.or_eq_true, decide_eq_true_iff]
  constructor
  . intro hall r hroute
    by_cases hr : r ∈ s.executors.routes
    . exact (hall r hr).resolve_left hroute
    . rw [h.queued_of_not_mem hr]
      simp
  . intro hown r _
    by_cases hroute : s.route = some r
    . exact .inl hroute
    . exact .inr (hown r hroute)

theorem Inv.shutdownStep (h : Inv s) (hc : s.clients c = pc)
    (hpc : pc = .shutdown ∨ pc = .shutdownWait ∨ pc = .shutdownWaiting)
    : False := by
  have hknows := (h.clients c).knows
  rw [hc] at hknows
  rcases hpc with rfl | rfl | rfl
  all_goals exact hknows

theorem Inv.step (h : Inv s) (ha : a.blocks = true) (hs : s.undivided a = true)
    (hstep : ConsoleLogger.step s a = some s')
    : Inv s' := by
  cases a with
  | log c => exact h.log (h.undivided_log_iff.mp hs) hstep
  | logAdd c => exact h.logAdd hstep
  | logReturn c => exact h.logReturn hstep
  | setConfig c config => exact h.setConfig (of_decide_eq_true ha) hstep
  | configSwitch c => exact h.configSwitch hstep
  | limit c => exact h.limit hstep
  | policy c => exact h.policyStep hstep
  | close c => exact h.close hstep
  | closed c => exact h.closed hstep
  | wait c => exact h.wait hstep
  | waitLock c => exact h.waitLock (fun _ hc => (h.undivided_waitLock_iff hc).mp hs) hstep
  | waitCall c => exact h.waitCall hstep
  | waitReturn c => exact h.waitReturn hstep
  | shutdown c => contradiction
  | shutdownLock c | shutdownWait c | shutdownWaited c =>
    simp only [ConsoleLogger.step] at hstep
    split at hstep
    . next hc => exact absurd (h.shutdownStep hc (by simp)) id
    . contradiction
  | exec r a => exact h.exec ha hstep

theorem Inv.initWith {config : AsyncConfig} {x : Executors ι (ι × Nat)} {executor : Option Nat}
    (hsound : x.Sound) (hunused : ∀ r, Executors.Unused (x.view r)) (hwritten : x.written = [])
    (hpolicy : config.queuePolicy = .block)
    (hexecutor : ∀ i, executor = some i → config.async = true ∧ i < x.created)
    : Inv (ConsoleLogger.initWith config x executor) where
  sound := hsound
  clients := by
    intro c
    refine ⟨trivial, ⟨.global, ?_, ?_⟩, ?_⟩
    . intro r _
      change own c (x.view r).pending = []
      rw [(hunused r).1]
      rfl
    . change messages c 0 = own c x.written ++ own c (x.view .global).pending ++ []
      rw [hwritten, (hunused .global).1]
      rfl
    . intro r m hphase
      have hphase : (x.view r).phase c = .sending (some m) := hphase
      rw [(hunused r).2.2 c] at hphase
      contradiction
  returned := by
    intro m hm
    contradiction
  unused := fun r _ => hunused r
  running := fun r _ => (hunused r).2.1
  executor := hexecutor
  policy := hpolicy
  live := rfl
  pendingEnqueues := (threadSum_const_zero rfl).symm

theorem Inv.init {config : AsyncConfig} (hpolicy : config.queuePolicy = .block)
    : Inv (ConsoleLogger.init config : State ι) := by
  unfold ConsoleLogger.init
  by_cases howns : config.ownsExecutor = true
  . rw [if_pos howns]
    apply Inv.initWith (Executors.initDedicated_sound hpolicy) (Executors.initDedicated_unused config)
      rfl hpolicy
    intro i hi
    cases hi
    exact ⟨(Bool.and_eq_true_iff.mp howns).1, Nat.one_pos⟩
  . rw [if_neg howns]
    exact Inv.initWith Executors.init_sound Executors.init_unused rfl hpolicy (by simp)

theorem reachable_inv (hpolicy : config.queuePolicy = .block)
    (reach : (system ι config).ReachableVia (fun s a => a.blocks = true ∧ s.undivided a = true) s)
    : Inv s := by
  apply reach.invariant Inv (Inv.init hpolicy)
  intro s a s' _ hinv ha hstep
  exact hinv.step ha.1 ha.2 hstep

end Run

section Synchronous

variable [Fintype ι]

theorem Inv.not_written (h : Inv s) (hm : m ∈ s.queued r) : m ∉ s.executors.written := by
  intro hwritten
  obtain ⟨r', hand, hordered⟩ := (h.clients m.1).ordered
  have hmem {l : List (ι × Nat)} (hl : m ∈ l) : m ∈ own m.1 l :=
    mem_filter.mpr ⟨hl, decide_eq_true rfl⟩
  have hr : r = r' := by
    by_contra hne
    have hnil := hordered.elsewhere r hne
    have hin := hmem hm
    rw [hnil] at hin
    contradiction
  have hnodup := nodup_messages m.1 (s.logged m.1)
  rw [hordered.messages, ← hr, append_assoc, nodup_append] at hnodup
  exact hnodup.2.2 m (hmem hwritten) m (mem_append_left _ (hmem hm)) rfl

theorem Inv.log_overtakes (h : Inv s) (hroute : s.route = none)
    (hstep : ConsoleLogger.step s (.log c) = some s')
    (hinitial : own c s'.executors.written <+: messages c (s'.logged c)) (r : Route)
    : own c (s.queued r) = [] := by
  simp only [ConsoleLogger.step] at hstep
  by_cases hcalls : (s.calls c && !s.mutexLocked) = true
  . have hc := State.enqueues_of_calls (Bool.and_eq_true_iff.mp hcalls).1
    rw [if_pos hcalls, h.live] at hstep
    cases hstep
    obtain ⟨r', hordered⟩ := (Order.iff_of_enqueues hc).mp (h.clients c).order
    unfold State.accept at hinitial
    rw [hroute] at hinitial
    have hinitial : own c (s.executors.written ++ [(c, s.logged c)]) <+:
        messages c (update s.logged c (s.logged c + 1) c) := hinitial
    have hm : own c [(c, s.logged c)] = [(c, s.logged c)] := own_self rfl
    rw [update_self, messages_succ, hordered.messages, own_append, hm, append_nil,
      append_assoc, prefix_append_right_inj] at hinitial
    by_cases hr : r = r'
    . rw [hr]
      cases hqueued : own c (s.queued r') with
      | nil => rfl
      | cons m rest =>
        -- The new message would be one of those that were logged before.
        rw [hqueued] at hinitial
        obtain ⟨_, heq⟩ := hinitial
        have hm : (c, s.logged c) = m := (cons.inj heq).1
        have hmem : m ∈ messages c (s.logged c) := by
          rw [hordered.messages, hqueued]
          simp
        rw [← hm] at hmem
        simp [messages] at hmem
    . exact hordered.elsewhere r hr
  . rw [if_neg hcalls] at hstep
    contradiction

theorem waitLock_written (hc : s.clients c = .wait before) (hroute : s.route = none)
    (hstep : step s (.waitLock c) = some s')
    : s'.executors.written = s.executors.written ∧ s'.clients c = .waitReturned before := by
  simp only [step, hc, hroute] at hstep
  obtain ⟨_, hstep⟩ := Option.ite_none_right_eq_some.mp hstep
  cases hstep
  refine ⟨rfl, ?_⟩
  change update s.clients c _ c = _
  rw [update_self]

end Synchronous

section Result

variable [Fintype ι]

theorem messages_ordered (config : AsyncConfig) (hpolicy : config.queuePolicy = .block) (s : State ι)
    (reach : (system ι config).ReachableVia (fun s a => a.blocks = true ∧ s.undivided a = true) s)
    : (∀ c, own c s.executors.written <+: messages c (s.logged c)) ∧
      (∀ c before, s.clients c = .waitReturned before → ∀ m ∈ before, m ∈ s.executors.written) ∧
      (∀ c s', s.route = none → step s (.log c) = some s' →
        (own c s'.executors.written <+: messages c (s'.logged c) ↔ s.undivided (.log c) = true)) ∧
      (∀ c before s', s.route = none → s.clients c = .wait before →
        step s (.waitLock c) = some s' →
        s'.clients c = .waitReturned before ∧
          ((∀ m ∈ before, m ∈ s'.executors.written) ↔ s.undivided (.waitLock c) = true)) := by
  have hinv := reachable_inv hpolicy reach
  have hordered {t : State ι} (h : Inv t) (c : ι)
      : own c t.executors.written <+: messages c (t.logged c) := by
    obtain ⟨r, hand, hordered⟩ := (h.clients c).ordered
    exact hordered.written_isPrefix
  refine ⟨hordered hinv, ?_, ?_, ?_⟩
  . intro c before hc
    have hknows := (hinv.clients c).knows
    rw [hc] at hknows
    exact hknows
  . intro c s' hroute hstep
    constructor
    . intro hinitial
      rw [hinv.undivided_log_iff]
      exact fun r _ => hinv.log_overtakes hroute hstep hinitial r
    . intro hundivided
      exact hordered (hinv.step rfl hundivided hstep) c
  . intro c before s' hroute hc hstep
    obtain ⟨hwritten, hreturned⟩ := waitLock_written hc hroute hstep
    refine ⟨hreturned, ?_⟩
    constructor
    . intro hall
      rw [hinv.undivided_waitLock_iff hc]
      intro r _ m hm hbefore
      have hin := hall m hbefore
      rw [hwritten] at hin
      exact hinv.not_written hm hin
    . intro hundivided
      have hknows := ((hinv.step rfl hundivided hstep).clients c).knows
      rw [hreturned] at hknows
      exact hknows

def dedicatedConfig : AsyncConfig where
  async := true
  useDedicatedExecutor := true
  queueCapacity := 0
  queuePolicy := .block

def synchronousConfig : AsyncConfig :=
  { dedicatedConfig with async := false }

theorem messages_ordered_switching
    : ∃ s : State (Fin 2), ((system (Fin 2) dedicatedConfig).ReachableVia
          (fun s a => a.blocks = true ∧ s.undivided a = true) s ∧
        s.clients 0 = .waitReturned [(0, 0), (0, 1)] ∧ s.logged 0 = 2) ∧
      own 0 s.executors.written <+: messages 0 2 ∧ (0, 1) ∈ s.executors.written := by
  have hrun : ∃ s : State (Fin 2), (system (Fin 2) dedicatedConfig).ReachableVia
        (fun s a => a.blocks = true ∧ s.undivided a = true) s ∧
      s.clients 0 = .waitReturned [(0, 0), (0, 1)] ∧ s.logged 0 = 2 := by
    apply Lts.exists_reachableVia _ _
      [.log 0, .logAdd 0, .exec (.dedicated 0) (.addLock 0),
        .exec (.dedicated 0) (.addNotify 0 .nobody), .logReturn 0, .setConfig 1 synchronousConfig,
        .configSwitch 1, .exec (.dedicated 0) .workerLock,
        .exec (.dedicated 0) (.workerNotify .nobody), .exec (.dedicated 0) .workerRun, .log 0,
        .wait 0, .waitLock 0]
    decide +kernel
  obtain ⟨s, reach, hwait, hlogged⟩ := hrun
  obtain ⟨horder, hbarrier, _⟩ := messages_ordered dedicatedConfig rfl s reach
  refine ⟨s, ⟨reach, hwait, hlogged⟩, ?_, hbarrier 0 _ hwait (0, 1) (by simp)⟩
  have hinitial := horder 0
  rw [hlogged] at hinitial
  exact hinitial

theorem set_config_overtakes
    : ∃ s : State (Fin 2), (system (Fin 2) dedicatedConfig).ReachableVia
          (fun _ a => a.blocks = true) s ∧
        s.executors.written = [(0, 1)] ∧ s.logged 0 = 2 ∧
        s.clients 0 = .waitReturned [(0, 0), (0, 1)] := by
  apply Lts.exists_reachableVia _ _
    [.log 0, .logAdd 0, .exec (.dedicated 0) (.addLock 0),
      .exec (.dedicated 0) (.addNotify 0 .nobody), .logReturn 0, .setConfig 1 synchronousConfig,
      .configSwitch 1, .log 0, .wait 0, .waitLock 0]
  decide +kernel

end Result
end LogIt.ConsoleLogger
