import LogIt.ConsoleLogger.Lemmas.Order

namespace LogIt.ConsoleLogger

open Function Option SerialExecutor List

variable {ι : Type} {s s' : State ι} {c : ι}

theorem State.enqueues_of_calls (h : s.calls c = true) : (s.clients c).enqueues = 0 := by
  have hfree := (Bool.and_eq_true_iff.mp h).1
  cases hc : s.clients c with
  | log r m | logAdding r m =>
    rw [hc] at hfree
    contradiction
  | _ => rfl

variable [DecidableEq ι]

theorem State.Ordered.log {t : State ι} (h : s.Ordered c r [])
    (hwritten : t.executors.written = s.executors.written) (hqueued : ∀ r, t.queued r = s.queued r)
    (hlogged : t.logged c = s.logged c + 1)
    : t.Ordered c r [(c, s.logged c)] := by
  constructor
  . intro r' hr
    rw [hqueued]
    exact h.elsewhere r' hr
  . rw [hlogged, hwritten, hqueued, messages_succ, h.messages, append_nil]

variable [Fintype ι]

theorem Inv.logWrite (h : Inv s) (hc : (s.clients c).enqueues = 0)
    (hqueued : ∀ r, own c (s.queued r) = []) (hroute : s.route = none)
    : Inv (s.accept c) := by
  have hclient := h.clients c
  obtain ⟨r, hordered⟩ := (Order.iff_of_enqueues hc).mp hclient.order
  unfold State.accept
  rw [hroute]
  dsimp only
  refine h.move h.sound rfl ?_ ?_ ?_ ?_ h.unused h.running h.executor h.policy h.live
  . rw [hc]
    rfl
  . intro c' hne
    constructor
    . exact fun _ => rfl
    . intro r' hand hordered'
      apply hordered'.congr
      . exact update_of_ne hne _ _
      . change own c' (s.executors.written ++ [(c, s.logged c)]) = _
        rw [own_append, own_other (Ne.symm hne), append_nil]
      . exact fun _ => rfl
    . exact fun r' m hm => hm.imp_left (mem_append_left _)
    . exact fun m hm => mem_append_left _ hm
    . exact fun m hm => mem_append_left _ hm
    . exact fun _ => rfl
    . exact Nat.le_refl _
    . exact fun _ _ hi => hi
  . refine ⟨trivial, ⟨r, hordered.elsewhere, ?_⟩, ?_⟩
    . change messages c (update s.logged c (s.logged c + 1) c) =
        own c (s.executors.written ++ [(c, s.logged c)]) ++ own c (s.queued r) ++ []
      have hm : own c [(c, s.logged c)] = [(c, s.logged c)] := own_self rfl
      rw [update_self, messages_succ, hordered.messages, own_append, hm, hqueued]
      simp
    . intro r' m hphase
      exact absurd hphase (hclient.silent_of_enqueues hc r' m)
  . intro m hm
    cases mem_append.mp hm with
    | inl hold =>
      obtain ⟨r', hr'⟩ := h.returned m hold
      exact ⟨r', hr'.imp_left (mem_append_left _)⟩
    | inr hnew => exact ⟨r, .inl (mem_append_right _ hnew)⟩

theorem Inv.logEnqueue (h : Inv s) (hc : (s.clients c).enqueues = 0)
    (hqueued : ∀ r', r' ≠ r → own c (s.queued r') = []) (hroute : s.route = some r)
    : Inv (s.accept c) := by
  have hclient := h.clients c
  obtain ⟨r', hordered⟩ := (Order.iff_of_enqueues hc).mp hclient.order
  unfold State.accept
  rw [hroute]
  dsimp only
  refine h.byOwn (.of_executors h.sound rfl rfl rfl rfl) rfl ?_ ?_ (fun _ hm => hm) h.returned ?_
  . rw [hc]
    rfl
  . intro c' hne
    exact update_of_ne hne _ _
  . refine ⟨hroute, ?_, ?_⟩
    . exact (hordered.reroute hqueued).log rfl (fun _ => rfl) (update_self c _ s.logged)
    . intro r'' m hphase
      exact absurd hphase (hclient.silent_of_enqueues hc r'' m)

theorem Inv.log (h : Inv s)
    (hqueued : ∀ r, s.route ≠ some r → own c (s.queued r) = [])
    (hstep : step s (.log c) = some s')
    : Inv s' := by
  simp only [step] at hstep
  by_cases hcalls : (s.calls c && !s.mutexLocked) = true
  . have hc := State.enqueues_of_calls (Bool.and_eq_true_iff.mp hcalls).1
    rw [if_pos hcalls, h.live] at hstep
    cases hstep
    cases hroute : s.route with
    | none =>
      rw [hroute] at hqueued
      exact h.logWrite hc (fun r => hqueued r (by simp)) hroute
    | some r =>
      refine h.logEnqueue hc (fun r' hr => hqueued r' ?_) hroute
      rw [hroute]
      simp [Ne.symm hr]
  . rw [if_neg hcalls] at hstep
    contradiction

theorem Inv.logAdd (h : Inv s) (hstep : step s (.logAdd c) = some s') : Inv s' := by
  simp only [step] at hstep
  have hclient := h.clients c
  split at hstep
  . next r m hc =>
    rw [hc] at hclient
    obtain ⟨x, hsend, rfl⟩ := map_eq_some_iff.mp hstep
    have hchanges := Executors.send_changes h.sound hsend
    have hown : Own s { s.setClient c (.logAdding r m) with executors := x } c :=
      .of_changes (h.mem_routes hclient.knows) hchanges (fun _ => rfl) rfl rfl rfl
    have hphase : (x.view r).phase c = .sending (some m) := hchanges.phase_self
    refine h.byOwn hown rfl ?_ (fun _ _ => rfl) (fun _ hm => hm) h.returned ?_
    . rw [hc]
      rfl
    . refine ⟨hclient.knows, .inl ⟨hphase, hown.ordered rfl hclient.order⟩, ?_⟩
      intro r' m' hphase'
      by_cases hr : r' = r
      . rw [hr] at hphase' ⊢
        have hm : Phase.sending (some m) = .sending (some m') := hphase.symm.trans hphase'
        cases hm
        rfl
      . have hold : s.phase r' c = .sending (some m') := by
          unfold State.phase
          rw [← hchanges.elsewhere r' hr]
          exact hphase'
        exact absurd hold (hclient.silent (by simp) r' m')
  . contradiction

theorem Inv.logReturn (h : Inv s) (hstep : step s (.logReturn c) = some s') : Inv s' := by
  simp only [step] at hstep
  have hclient := h.clients c
  split at hstep
  . next r m hc =>
    rw [hc] at hclient
    have hcount := h.enqueues_le c
    rw [hc] at hcount
    obtain ⟨hidle, hstep⟩ := ite_none_right_eq_some.mp hstep
    cases hstep
    have hphase : s.phase r c = .idle := Executors.idle_iff.mp (Bool.and_eq_true_iff.mp hidle).1
    have hdone : s.Ordered c r [] ∧ s.Kept r m := by
      have horder : Order s c (.logAdding r m) := hclient.order
      cases horder with
      | inl hsending =>
        rw [hphase] at hsending
        exact absurd hsending.1 (by simp)
      | inr hdone => exact hdone.2
    refine h.byOwn (.of_executors h.sound rfl rfl rfl rfl) rfl ?_ (fun _ _ => rfl) ?_ ?_ ?_
    . rw [hc]
      exact Nat.sub_add_cancel hcount
    . exact fun _ hm => mem_append_left _ hm
    . intro m' hm'
      cases mem_append.mp hm' with
      | inl hold => exact h.returned m' hold
      | inr hnew =>
        rw [mem_singleton.mp hnew]
        exact ⟨r, hdone.2⟩
    . refine ⟨trivial, ⟨r, hdone.1.congr rfl rfl (fun _ => rfl)⟩, ?_⟩
      intro r' m' hphase'
      have hadding := hclient.hands r' m' hphase'
      cases hadding
      have hphase' : s.phase r c = .sending (some m) := hphase'
      rw [hphase] at hphase'
      contradiction
  . contradiction

theorem Inv.setConfig (h : Inv s) (hpolicy : config.queuePolicy = .block)
    (hstep : step s (.setConfig c config) = some s')
    : Inv s' := by
  simp only [step] at hstep
  obtain ⟨hcalls, hstep⟩ := ite_none_right_eq_some.mp hstep
  rw [h.live] at hstep
  cases hstep
  exact h.turn (State.enqueues_of_calls (Bool.and_eq_true_iff.mp hcalls).1) rfl hpolicy

omit [DecidableEq ι] [Fintype ι] in
theorem State.pending_of_settled (h : s.settled = true) : s.pendingEnqueues = 0 := by
  have hpending := (Bool.and_eq_true_iff.mp h).2
  exact beq_iff_eq.mp hpending

theorem Inv.view_switched {config : AsyncConfig} {x : Executors ι (ι × Nat)} {executor : Option Nat}
    (h : Inv s) (hswitched : s.executors.Switched s.executor config x executor) (r : Route)
    : x.view r = s.executors.view r ∨
        (Executors.Unused (x.view r) ∧ Executors.Unused (s.executors.view r)) := by
  cases hswitched.view r with
  | inl hsame => exact .inl hsame
  | inr hnew =>
    refine .inr ⟨hnew.2, h.unused r ?_⟩
    rw [hnew.1, Executors.dedicated_mem_routes]
    exact Nat.lt_irrefl _

variable (h : Inv s)

include h

theorem Inv.reroute (hsettled : s.settled = true)
    (hswitched : s.executors.Switched s.executor s'.config s'.executors s'.executor)
    (hc : (s.clients c).enqueues = 0) (hpc : pc.enqueues = 0)
    (hclients : s'.clients = update s.clients c pc)
    (hpending : s'.pendingEnqueues = s.pendingEnqueues) (hlogged : s'.logged = s.logged)
    (hreturned : s'.returned = s.returned) (hpolicy : s'.config.queuePolicy = .block)
    (hlive : s'.shutdown = s.shutdown) (hknows : Knows s' c pc)
    : Inv s' := by
  have hwritten := hswitched.written
  have hphase (r : Route) (c' : ι) : s'.phase r c' = s.phase r c' := by
    unfold State.phase
    cases h.view_switched hswitched r with
    | inl hsame => rw [hsame]
    | inr hunused => rw [hunused.1.2.2 c', hunused.2.2.2 c']
  have hqueued (r : Route) : s'.queued r = s.queued r := by
    unfold State.queued
    cases h.view_switched hswitched r with
    | inl hsame => rw [hsame]
    | inr hunused => rw [hunused.1.1, hunused.2.1]
  have hordered {c' : ι} {r : Route} {hand : List (ι × Nat)} (hold : s.Ordered c' r hand)
      : s'.Ordered c' r hand := by
    apply hold.congr
    . rw [hlogged]
    . rw [hwritten]
    . intro r'
      rw [hqueued]
  have hkept {r : Route} {m : ι × Nat} (hold : s.Kept r m) : s'.Kept r m := by
    unfold State.Kept
    rw [hwritten, hqueued]
    exact hold
  apply h.move hswitched.sound hclients
  . rw [hc, hpc, hpending]
  . intro c' _
    constructor
    . exact fun r => hphase r c'
    . exact fun r hand => hordered
    . exact fun r m => hkept
    . rw [hwritten]
      exact fun _ hm => hm
    . rw [hreturned]
      exact fun _ hm => hm
    . rw [State.pending_of_settled hsettled]
      intro hpos
      contradiction
    . exact hswitched.created
    . exact hswitched.fresh
  . obtain ⟨r, hold⟩ := (Order.iff_of_enqueues hc).mp (h.clients c).order
    refine ⟨hknows, (Order.iff_of_enqueues hpc).mpr ⟨r, hordered hold⟩, ?_⟩
    intro r' m hsending
    rw [hphase] at hsending
    exact absurd hsending ((h.clients c).silent_of_enqueues hc r' m)
  . rw [hreturned]
    intro m hm
    obtain ⟨r, hold⟩ := h.returned m hm
    exact ⟨r, hkept hold⟩
  . intro r hr
    cases h.view_switched hswitched r with
    | inl hsame =>
      rw [hsame]
      exact h.unused r (fun hmem => hr (Executors.routes_mono hswitched.created hmem))
    | inr hunused => exact hunused.1
  . exact hswitched.running
  . exact hswitched.owned
  . exact hpolicy
  . rw [hlive]
    exact h.live

theorem Inv.switch (hc : s.clients c = .config config) (hsettled : s.settled = true)
    : Inv (s.switch c config) := by
  have hpolicy : config.queuePolicy = .block := by
    have hknows := (h.clients c).knows
    rw [hc] at hknows
    exact hknows
  have hold : (s.clients c).enqueues = 0 := by
    rw [hc]
    rfl
  unfold State.switch
  by_cases howns : config.ownsExecutor = true
  . rw [if_pos howns]
    have hasync : config.async = true := (Bool.and_eq_true_iff.mp howns).1
    cases hexecutor : s.executor with
    | some i =>
      have hi := h.executor i hexecutor
      have hswitched := Executors.Switched.keep h.sound hasync hi.2
        (h.running _ (AsyncConfig.route_some hi.1 hexecutor))
      rw [← hexecutor] at hswitched
      exact h.reroute hsettled hswitched hold rfl rfl rfl rfl rfl hpolicy rfl trivial
    | none =>
      exact h.reroute hsettled (.create h.sound hasync) hold rfl rfl rfl rfl rfl hpolicy rfl trivial
  . rw [if_neg howns]
    cases hexecutor : s.executor with
    | some i =>
      exact h.reroute hsettled (.drop h.sound) hold rfl rfl rfl rfl rfl hpolicy rfl
        ⟨by simp, (h.executor i hexecutor).2⟩
    | none =>
      have hswitched : s.executors.Switched s.executor config s.executors s.executor := by
        rw [hexecutor]
        exact .drop h.sound
      exact h.reroute hsettled hswitched hold rfl rfl rfl rfl rfl hpolicy rfl trivial

theorem Inv.configSwitch (hstep : step s (.configSwitch c) = some s') : Inv s' := by
  simp only [step] at hstep
  split at hstep
  . next config hc =>
    obtain ⟨hsettled, hstep⟩ := ite_none_right_eq_some.mp hstep
    cases hstep
    exact h.switch hc hsettled
  . contradiction

theorem Inv.limit (hstep : step s (.limit c) = some s') : Inv s' := by
  simp only [step] at hstep
  split at hstep
  . next i hc hexecutor =>
    obtain ⟨x, hact, rfl⟩ := map_eq_some_iff.mp hstep
    obtain ⟨c', p, hc', _, hp, hchanges⟩ := Executors.act_call h.sound rfl rfl (by simp) hact
    cases hc'
    exact h.call (Executors.dedicated_mem_routes.mpr (h.executor i hexecutor).2) hchanges
      (fun _ => rfl) hp rfl rfl rfl rfl rfl rfl rfl (by rw [hc]; rfl) rfl (fun _ _ => trivial)
  . contradiction

theorem Inv.policyStep (hstep : step s (.policy c) = some s') : Inv s' := by
  simp only [step] at hstep
  split at hstep
  . next i hc hexecutor =>
    obtain ⟨hidle, hstep⟩ := ite_none_right_eq_some.mp hstep
    obtain ⟨x, hact, rfl⟩ := map_eq_some_iff.mp hstep
    have hchanges := Executors.act_setQueuePolicy h.sound h.policy hact
    rw [← View.setPhase_eq_self (Executors.idle_iff.mp hidle)] at hchanges
    exact h.call (Executors.dedicated_mem_routes.mpr (h.executor i hexecutor).2) hchanges
      (fun _ => rfl) (by simp) rfl rfl rfl rfl rfl rfl rfl (by rw [hc]; rfl) rfl
      (fun _ _ => trivial)
  . contradiction

theorem Inv.close (hstep : step s (.close c) = some s') : Inv s' := by
  simp only [step] at hstep
  split at hstep
  . next i hc =>
    have hknows := (h.clients c).knows
    rw [hc] at hknows
    obtain ⟨x, hact, rfl⟩ := map_eq_some_iff.mp hstep
    obtain ⟨stopped, hchanges⟩ := Executors.act_shutdown h.sound hact
    refine h.call (Executors.dedicated_mem_routes.mpr hknows.2) hchanges ?_ (by simp) rfl rfl rfl rfl
      rfl rfl rfl (by rw [hc]; rfl) rfl ?_
    . intro hroute
      exact absurd (AsyncConfig.executor_of_route hroute) hknows.1
    . intro hown _
      refine ⟨hknows.1, ?_⟩
      rw [hown.keeps.created]
      exact hknows.2
  . contradiction

theorem Inv.closed (hstep : step s (.closed c) = some s') : Inv s' := by
  simp only [step] at hstep
  split at hstep
  . next i hc =>
    obtain ⟨_, hstep⟩ := ite_none_right_eq_some.mp hstep
    cases hstep
    exact h.turn (by rw [hc]; rfl) rfl trivial
  . contradiction

theorem Inv.wait (hstep : step s (.wait c) = some s') : Inv s' := by
  simp only [step] at hstep
  obtain ⟨hcalls, hstep⟩ := ite_none_right_eq_some.mp hstep
  cases hstep
  exact h.turn (State.enqueues_of_calls hcalls) rfl (fun _ hm => hm)

theorem Inv.waitLock (hqueued : ∀ before, s.clients c = .wait before → ∀ r, s.route ≠ some r →
      ∀ m ∈ s.queued r, m ∉ before)
    (hstep : step s (.waitLock c) = some s')
    : Inv s' := by
  simp only [step] at hstep
  split at hstep
  . next before hc =>
    have hknows := (h.clients c).knows
    rw [hc] at hknows
    have hold : (s.clients c).enqueues = 0 := by
      rw [hc]
      rfl
    obtain ⟨_, hstep⟩ := ite_none_right_eq_some.mp hstep
    have hkept (m : ι × Nat) (hm : m ∈ before)
        : m ∈ s.executors.written ∨ ∃ r, s.route = some r ∧ m ∈ s.queued r := by
      obtain ⟨r, hr⟩ := h.returned m (hknows m hm)
      cases hr with
      | inl hwritten => exact .inl hwritten
      | inr hpending =>
        by_cases hroute : s.route = some r
        . exact .inr ⟨r, hroute, hpending⟩
        . exact absurd hm (hqueued before hc r hroute m hpending)
    split at hstep
    . next hroute =>
      cases hstep
      refine h.turn hold rfl ?_
      intro m hm
      refine (hkept m hm).resolve_right ?_
      rintro ⟨r, hr, _⟩
      rw [hroute] at hr
      contradiction
    . next r hroute =>
      cases hstep
      refine h.turn hold rfl ⟨h.mem_routes hroute, ?_⟩
      intro m hm
      refine (hkept m hm).imp_right ?_
      rintro ⟨r', hr', hpending⟩
      rw [hroute] at hr'
      cases hr'
      exact hpending
  . contradiction

theorem Inv.waitCall (hstep : step s (.waitCall c) = some s') : Inv s' := by
  simp only [step] at hstep
  split at hstep
  . next r before hc =>
    have hknows := (h.clients c).knows
    rw [hc] at hknows
    obtain ⟨x, hact, rfl⟩ := map_eq_some_iff.mp hstep
    refine h.call hknows.1 (Executors.act_wait h.sound hact) (fun _ => rfl) (by simp) rfl rfl rfl rfl rfl
      rfl rfl (by rw [hc]; rfl) rfl ?_
    intro hown hphase
    exact .inl ⟨hphase, fun m hm => hown.kept (hknows.2 m hm)⟩
  . contradiction

theorem Inv.waitReturn (hstep : step s (.waitReturn c) = some s') : Inv s' := by
  simp only [step] at hstep
  split at hstep
  . next r before hc =>
    have hknows := (h.clients c).knows
    rw [hc] at hknows
    obtain ⟨hidle, hstep⟩ := ite_none_right_eq_some.mp hstep
    cases hstep
    have hphase : s.phase r c = .idle := Executors.idle_iff.mp hidle
    refine h.turn (by rw [hc]; rfl) rfl ?_
    cases hknows with
    | inl hwaiting =>
      rw [hphase] at hwaiting
      exact absurd hwaiting.1 (by simp)
    | inr hdone => exact hdone
  . contradiction

end LogIt.ConsoleLogger
