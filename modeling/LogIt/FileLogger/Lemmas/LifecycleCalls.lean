import LogIt.FileLogger.Lemmas.Lifecycle

namespace LogIt.FileLogger
namespace Lifecycle

open Option SerialExecutor

variable {ι : Type} {s s' : State ι} {c : ι}

theorem State.enters_iff
    : s.enters c = true ↔
        (s.clients c).free = true ∧ s.executors.idle .global c = true ∧ s.lifecycle = none := by
  unfold State.enters
  rw [Bool.and_eq_true, Bool.and_eq_true, isNone_iff_eq_none, and_assoc]

theorem ClientPc.not_adding_of_free {pc : ClientPc} (h : pc.free = true) (m : Nat)
    : pc ≠ .logAdding m := by
  intro hpc
  rw [hpc] at h
  contradiction

theorem State.enter_owner (hlock : s.lifecycle = none) (c' : ι) (hc : c' ≠ c)
    : some c = some c' ↔ s.lifecycle = some c' := by
  rw [hlock]
  simp [Ne.symm hc]

theorem State.leave_owner (hlock : s.lifecycle = some c) (c' : ι) (hc : c' ≠ c)
    : (none : Option ι) = some c' ↔ s.lifecycle = some c' := by
  rw [hlock]
  simp [Ne.symm hc]

theorem State.locked {P : Prop} (hlock : s.lifecycle = some c) (hnone : s.lifecycle = none) : P := by
  rw [hlock] at hnone
  contradiction

theorem State.Waits.pending (h : s.Waits c) (hroute : s.route = some r)
    (hidle : s.executors.idle r c = true)
    : s.pending = [] := by
  obtain ⟨r', hr', hwaits⟩ := h
  rw [hroute] at hr'
  cases hr'
  cases hwaits with
  | inl hphase =>
    have hphase' : s.phase r c = .idle := Executors.idle_iff.mp hidle
    rw [hphase] at hphase'
    contradiction
  | inr hpending => exact hpending

theorem State.pending_of_sync (hroute : s.route = none) : s.pending = [] := by
  unfold State.pending
  rw [hroute]

theorem State.accepted_eq_written (hsettled : s.accepted = s.total) (hpending : s.pending = [])
    : s.accepted = s.executors.written := by
  rw [hsettled]
  unfold State.total
  rw [hpending, List.append_nil]

variable [Fintype ι]

theorem Inv.silent_of_enters (h : Inv s) (henters : s.enters c = true) (r : Route) (m : Nat)
    : s.phase r c ≠ .sending (some m) :=
  (h.clients c).silent (ClientPc.not_adding_of_free (State.enters_iff.mp henters).1) r m

variable [DecidableEq ι]

theorem Inv.enter {logged : Nat} {live : Option (State ι)} (h : Inv s)
    (hstep : (if s.enters c then
      if s.shutdown then some { s.setClient c .idle with logged := logged } else live
      else none) = some s')
    : Inv s' ∨ (s.enters c = true ∧ s.lifecycle = none ∧ s.shutdown = false ∧ live = some s') := by
  obtain ⟨henters, hstep⟩ := ite_none_right_eq_some.mp hstep
  have hlock := (State.enters_iff.mp henters).2.2
  split at hstep
  . cases hstep
    refine .inl (h.turn rfl ⟨rfl, rfl, rfl, rfl, rfl, rfl⟩ rfl (fun _ _ => .rfl)
      (h.silent_of_enters henters) trivial ?_ h.unlocked)
    simp [ClientPc.holds, State.setClient, hlock]
  . next hshutdown => exact .inr ⟨henters, hlock, eq_false_of_ne_true hshutdown, hstep⟩

theorem Inv.log (h : Inv s) (hstep : step s (.log c) = some s') : Inv s' := by
  simp only [step] at hstep
  obtain hrefused | ⟨henters, hlock, hlive, hstep⟩ := h.enter hstep
  . exact hrefused
  . cases hstep
    refine h.own (.of_executors h.sound rfl rfl rfl) rfl (State.enter_owner hlock) ?_ id h.policy
      ⟨⟨hlive, ?_⟩, ?_, ?_⟩ (State.locked rfl) h.returned h.finished
    . intro c' _ hother
      rw [hlock] at hother
      contradiction
    . exact congrArg (· ++ [s.logged]) (h.unlocked hlock)
    . simp [ClientPc.holds, State.lock]
    . intro r m hphase
      exact absurd hphase (h.silent_of_enters henters r m)

theorem Inv.logWrite (h : Inv s) (hc : s.clients c = .log m) (hroute : s.route = none)
    : Inv { s.unlock c .idle with executors := s.executors.write m } := by
  have hclient := h.clients c
  rw [hc] at hclient
  have hlock := hclient.owner.mp rfl
  have hlive := hclient.knows.1
  refine { h with clients := ?clients, unlocked := ?unlocked, finished := ?finished }
  case clients =>
    intro c'
    by_cases hsame : c' = c
    . rw [hsame]
      simp only [State.unlock, State.setClient, Function.update_self]
      refine ⟨trivial, by simp [ClientPc.holds], ?_⟩
      intro r m' hphase
      exact absurd hphase (hclient.silent (by simp) r m')
    . simp only [State.unlock, State.setClient, Function.update_of_ne hsame]
      apply (h.clients c').frame
      constructor
      case phase => exact fun _ => rfl
      case owner => exact State.leave_owner hlock c' hsame
      case written => exact List.prefix_append _ _
      case created => exact Nat.le_refl _
      case executor => exact fun _ _ hi => hi
      case shutdown =>
        intro hs
        rw [hlive] at hs
        contradiction
      case inside =>
        intro hother
        rw [hlock] at hother
        exact absurd (some.inj hother).symm hsame
  case unlocked =>
    intro _
    have haccepted := hclient.knows.2
    unfold State.total at haccepted
    rw [State.pending_of_sync hroute, List.append_nil] at haccepted
    have hroute' : State.route { s.unlock c .idle with executors := s.executors.write m } = none :=
      hroute
    unfold State.total
    rw [State.pending_of_sync hroute', List.append_nil]
    exact haccepted
  case finished =>
    intro hfinished
    have hs := (h.finished hfinished).1
    rw [hlive] at hs
    contradiction

theorem Inv.logSend {m : Nat} {r : Route} {x : Executors ι Nat} (h : Inv s)
    (hc : s.clients c = .log m) (hroute : s.route = some r)
    (hsend : s.executors.send r c m = some x)
    : Inv { s.setClient c (.logAdding m) with executors := x } := by
  have hclient := h.clients c
  rw [hc] at hclient
  have hchanges := Executors.send_changes h.sound hsend
  have hown : Own s { s.setClient c (.logAdding m) with executors := x } c :=
    .of_phase hchanges rfl rfl
  have hphase : (x.view r).phase c = .sending (some m) := hchanges.phase_self
  refine h.move hown ⟨rfl, rfl, rfl, rfl, rfl, rfl⟩ rfl (fun _ _ => .rfl)
    ⟨⟨hclient.knows.1, r, hroute, .inl ⟨hphase, ?_⟩⟩, hclient.owner, ?_⟩
    (State.locked (hclient.owner.mp rfl))
  . rw [hown.total]
    exact hclient.knows.2
  . intro r' m' hphase'
    by_cases hr : r' = r
    . have hm : Phase.sending (some m) = .sending (some m') := by
        rw [← hphase, ← hr]
        exact hphase'
      cases hm
      rw [hr]
      exact ⟨rfl, hroute⟩
    . have hold : s.phase r' c = .sending (some m') := by
        unfold State.phase
        rw [← hchanges.elsewhere r' hr]
        exact hphase'
      exact absurd hold (hclient.silent (by simp) r' m')

theorem Inv.logRun (h : Inv s) (hstep : step s (.logRun c) = some s') : Inv s' := by
  simp only [step] at hstep
  split at hstep
  . next m hc hroute =>
    obtain ⟨_, hstep⟩ := ite_none_left_eq_some.mp hstep
    cases hstep
    exact h.logWrite hc hroute
  . next m r hc hroute =>
    obtain ⟨x, hsend, rfl⟩ := map_eq_some_iff.mp hstep
    exact h.logSend hc hroute hsend
  . contradiction

theorem Inv.logReturn (h : Inv s) (hstep : step s (.logReturn c) = some s') : Inv s' := by
  simp only [step] at hstep
  have hclient := h.clients c
  split at hstep
  . next m r hc hroute =>
    rw [hc] at hclient
    have hlock := hclient.owner.mp rfl
    obtain ⟨_, r', hroute', hmessage⟩ := hclient.knows
    rw [hroute] at hroute'
    cases hroute'
    obtain ⟨hidle, hstep⟩ := ite_none_right_eq_some.mp hstep
    cases hstep
    have hphase : s.phase r c = .idle := Executors.idle_iff.mp hidle
    rw [hphase] at hmessage
    refine h.turn rfl ⟨rfl, rfl, rfl, rfl, rfl, rfl⟩ rfl (State.leave_owner hlock) ?_ trivial
      (by simp [ClientPc.holds, State.unlock]) ?_
    . intro r' m' hphase'
      have hroute' := (hclient.hands r' m' hphase').2
      rw [hroute] at hroute'
      cases hroute'
      rw [hphase] at hphase'
      contradiction
    . intro _
      exact (hmessage.resolve_left (by simp)).2
  . contradiction

theorem Inv.setConfig {config : AsyncConfig} (h : Inv s) (hpolicy : config.queuePolicy = .block)
    (hstep : step s (.setConfig c config) = some s')
    : Inv s' := by
  simp only [step] at hstep
  obtain hrefused | ⟨henters, hlock, hlive, hstep⟩ := h.enter hstep
  . exact hrefused
  . cases hstep
    exact h.turn rfl ⟨rfl, rfl, rfl, rfl, rfl, rfl⟩ rfl (State.enter_owner hlock)
      (h.silent_of_enters henters)
      ⟨hlive, h.unlocked hlock, hpolicy⟩
      (by simp [ClientPc.holds, State.lock]) (State.locked rfl)

theorem Inv.configWait (h : Inv s) (hstep : step s (.configWait c) = some s') : Inv s' := by
  simp only [step] at hstep
  have hclient := h.clients c
  split at hstep
  . next config hc hroute =>
    rw [hc] at hclient
    have hsilent := hclient.silent (by simp)
    obtain ⟨hlive, hsettled, hpolicy⟩ := hclient.knows
    cases hstep
    exact h.turn rfl ⟨rfl, rfl, rfl, rfl, rfl, rfl⟩ rfl (fun _ _ => .rfl) hsilent
      ⟨hlive, hsettled, hpolicy, State.pending_of_sync hroute⟩ hclient.owner
      (State.locked (hclient.owner.mp rfl))
  . next config r hc hroute =>
    rw [hc] at hclient
    have hsilent := hclient.silent (by simp)
    obtain ⟨hlive, hsettled, hpolicy⟩ := hclient.knows
    obtain ⟨x, hact, rfl⟩ := map_eq_some_iff.mp hstep
    refine h.call (Executors.act_wait h.sound hact) (fun hstopped _ => .inl hstopped) (by simp)
      ⟨rfl, rfl, rfl, rfl, rfl, rfl⟩ rfl (fun _ _ => .rfl) hsilent ?_ hclient.owner
      (State.locked (hclient.owner.mp rfl))
    intro htotal hphase
    exact ⟨hlive, hsettled.trans htotal.symm, hpolicy, r, hroute, .inl hphase⟩
  . contradiction

theorem Inv.configWaited (h : Inv s) (hstep : step s (.configWaited c) = some s') : Inv s' := by
  simp only [step] at hstep
  have hclient := h.clients c
  split at hstep
  . next config r hc hroute =>
    rw [hc] at hclient
    obtain ⟨hlive, hsettled, hpolicy, hwaits⟩ := hclient.knows
    obtain ⟨hidle, hstep⟩ := ite_none_right_eq_some.mp hstep
    cases hstep
    exact h.turn rfl ⟨rfl, rfl, rfl, rfl, rfl, rfl⟩ rfl (fun _ _ => .rfl)
      (hclient.silent (by simp)) ⟨hlive, hsettled, hpolicy, hwaits.pending hroute hidle⟩
      hclient.owner (State.locked (hclient.owner.mp rfl))
  . contradiction

theorem Inv.setQueueConfig {capacity : Nat} {policy : QueuePolicy} (h : Inv s)
    (hpolicy : policy = .block) (hstep : step s (.setQueueConfig c capacity policy) = some s')
    : Inv s' := by
  simp only [step] at hstep
  obtain hrefused | ⟨henters, hlock, hlive, hstep⟩ := h.enter hstep
  . exact hrefused
  . obtain ⟨_, hstep⟩ := ite_none_left_eq_some.mp hstep
    split at hstep
    . cases hstep
      refine h.own (.of_executors h.sound rfl rfl rfl) rfl (fun _ _ => .rfl)
        (fun _ _ _ => ⟨rfl, rfl⟩) id hpolicy ⟨trivial, ?_, ?_⟩ h.unlocked h.returned h.finished
      . simp [ClientPc.holds, State.setClient, hlock]
      . intro r m hphase
        exact absurd hphase (h.silent_of_enters henters r m)
    . cases hstep
      refine h.own (.of_executors h.sound rfl rfl rfl) rfl (State.enter_owner hlock)
        (fun _ _ _ => ⟨rfl, rfl⟩) id hpolicy
        ⟨⟨hlive, h.unlocked hlock⟩, ?_, ?_⟩ (State.locked rfl) h.returned
        h.finished
      . simp [ClientPc.holds, State.lock]
      . intro r m hphase
        exact absurd hphase (h.silent_of_enters henters r m)

variable (h : Inv s)

include h

theorem Inv.limit (hstep : step s (.limit c) = some s') : Inv s' := by
  simp only [step] at hstep
  have hclient := h.clients c
  split at hstep
  . next i hc hexecutor =>
    rw [hc] at hclient
    obtain ⟨x, hact, rfl⟩ := map_eq_some_iff.mp hstep
    obtain ⟨c', p, hc', _, hp, hchanges⟩ := Executors.act_call h.sound rfl rfl (by simp) hact
    cases hc'
    refine h.call hchanges (fun hstopped _ => .inl hstopped) hp ⟨rfl, rfl, rfl, rfl, rfl, rfl⟩ rfl
      (fun _ _ => .rfl) (hclient.silent (by simp)) ?_ hclient.owner
      (State.locked (hclient.owner.mp rfl))
    intro htotal _
    exact ⟨hclient.knows.1, hclient.knows.2.trans htotal.symm⟩
  . contradiction

theorem Inv.policyStep (hstep : step s (.policy c) = some s') : Inv s' := by
  simp only [step] at hstep
  have hclient := h.clients c
  split at hstep
  . next i hc hexecutor =>
    rw [hc] at hclient
    obtain ⟨hidle, hstep⟩ := ite_none_right_eq_some.mp hstep
    obtain ⟨x, hact, rfl⟩ := map_eq_some_iff.mp hstep
    have hchanges := Executors.act_setQueuePolicy h.sound h.policy hact
    rw [← View.setPhase_eq_self (Executors.idle_iff.mp hidle)] at hchanges
    exact h.call hchanges (fun hstopped _ => .inl hstopped) (by simp)
      ⟨rfl, rfl, rfl, rfl, rfl, rfl⟩ rfl (State.leave_owner (hclient.owner.mp rfl))
      (hclient.silent (by simp)) (fun _ _ => trivial) (by simp [ClientPc.holds, State.unlock])
      (fun _ => hclient.knows.2)
  . contradiction

theorem Inv.configClose (hstep : step s (.configClose c) = some s') : Inv s' := by
  simp only [step] at hstep
  have hclient := h.clients c
  split at hstep
  . next i hc =>
    rw [hc] at hclient
    obtain ⟨x, hact, rfl⟩ := map_eq_some_iff.mp hstep
    obtain ⟨stopped, hchanges⟩ := Executors.act_shutdown h.sound hact
    refine h.call hchanges ?_ (by simp) ⟨rfl, rfl, rfl, rfl, rfl, rfl⟩ rfl (fun _ _ => .rfl)
      (hclient.silent (by simp)) ?_ hclient.owner h.unlocked
    . intro _ hroute
      exact absurd (AsyncConfig.executor_of_route hroute) hclient.knows.1
    . intro _ _
      refine ⟨hclient.knows.1, ?_⟩
      change i < x.created
      rw [hchanges.created]
      exact hclient.knows.2
  . contradiction

theorem Inv.configClosed (hstep : step s (.configClosed c) = some s') : Inv s' := by
  simp only [step] at hstep
  have hclient := h.clients c
  split at hstep
  . next i hc =>
    rw [hc] at hclient
    obtain ⟨_, hstep⟩ := ite_none_right_eq_some.mp hstep
    cases hstep
    exact h.turn rfl ⟨rfl, rfl, rfl, rfl, rfl, rfl⟩ rfl (fun _ _ => .rfl)
      (hclient.silent (by simp)) trivial hclient.owner h.unlocked
  . contradiction

theorem Inv.wait (hstep : step s (.wait c) = some s') : Inv s' := by
  simp only [step] at hstep
  obtain ⟨henters, hstep⟩ := ite_none_right_eq_some.mp hstep
  have hlock := (State.enters_iff.mp henters).2.2
  have hsilent := h.silent_of_enters henters
  have hsettled := h.unlocked hlock
  split at hstep
  . next hroute =>
    cases hstep
    refine h.turn rfl ⟨rfl, rfl, rfl, rfl, rfl, rfl⟩ rfl (fun _ _ => .rfl) hsilent ?_ ?_
      h.unlocked
    . change s.accepted <+: s.executors.written
      rw [State.accepted_eq_written hsettled (State.pending_of_sync hroute)]
    . simp [ClientPc.holds, State.setClient, hlock]
  . next r hroute =>
    obtain ⟨x, hact, rfl⟩ := map_eq_some_iff.mp hstep
    refine h.call (Executors.act_wait h.sound hact) (fun hstopped _ => .inl hstopped) (by simp)
      ⟨rfl, rfl, rfl, rfl, rfl, rfl⟩ rfl (State.enter_owner hlock) hsilent ?_
      (by simp [ClientPc.holds, State.lock]) (State.locked rfl)
    intro htotal hphase
    exact ⟨hsettled.trans htotal.symm, rfl, r, hroute, .inl hphase⟩

theorem Inv.waitReturn (hstep : step s (.waitReturn c) = some s') : Inv s' := by
  simp only [step] at hstep
  have hclient := h.clients c
  split at hstep
  . next before r hc hroute =>
    rw [hc] at hclient
    obtain ⟨hsettled, hbefore, hwaits⟩ := hclient.knows
    obtain ⟨hidle, hstep⟩ := ite_none_right_eq_some.mp hstep
    cases hstep
    refine h.turn rfl ⟨rfl, rfl, rfl, rfl, rfl, rfl⟩ rfl
      (State.leave_owner (hclient.owner.mp rfl)) (hclient.silent (by simp)) ?_
      (by simp [ClientPc.holds, State.unlock]) (fun _ => hsettled)
    change before <+: s.executors.written
    rw [hbefore, State.accepted_eq_written hsettled (hwaits.pending hroute hidle)]
  . contradiction

theorem Inv.shutdownCall (hstep : step s (.shutdown c) = some s') : Inv s' := by
  simp only [step] at hstep
  obtain ⟨henters, hstep⟩ := ite_none_right_eq_some.mp hstep
  have hlock := (State.enters_iff.mp henters).2.2
  have hhands (r : Route) (m : Nat) (pc : ClientPc) (hphase : s.phase r c = .sending (some m))
      : pc = .logAdding m ∧ s.route = some r :=
    absurd hphase (h.silent_of_enters henters r m)
  by_cases hshutdown : s.shutdown = true
  . rw [if_pos hshutdown] at hstep
    cases hstep
    refine h.own (.of_executors h.sound rfl rfl rfl) rfl (fun _ _ => .rfl)
      (fun _ _ _ => ⟨rfl, rfl⟩) id h.policy ⟨trivial, ?_, fun r m hphase => hhands r m _ hphase⟩
      h.unlocked (fun _ => hshutdown) h.finished
    simp [ClientPc.holds, State.setClient, hlock]
  . rw [if_neg hshutdown] at hstep
    cases hstep
    refine h.own (.of_executors h.sound rfl rfl rfl) rfl (fun _ _ => .rfl) ?_ (fun _ => rfl)
      h.policy ⟨rfl, ?_, fun r m hphase => hhands r m _ hphase⟩ h.unlocked (fun _ => rfl)
      (fun hfinished => ⟨rfl, (h.finished hfinished).2⟩)
    . intro c' _ hother
      rw [hlock] at hother
      contradiction
    . simp [ClientPc.holds, State.setClient, hlock]

theorem Inv.finish (hc : (s.clients c).holds = false)
    (hpc : ∀ m, s.clients c ≠ .logAdding m) (hshutdown : s.shutdown = true)
    (hpending : s.pending = [])
    : Inv (s.finish c) := by
  have hclient := h.clients c
  have hsilent := hclient.silent hpc
  have howner := hclient.owner
  rw [hc] at howner
  exact h.own (.of_executors h.sound rfl rfl rfl) rfl (fun _ _ => .rfl) (fun _ _ _ => ⟨rfl, rfl⟩) id
    h.policy ⟨trivial, howner, fun r m hphase => absurd hphase (hsilent r m)⟩ h.unlocked
    (fun _ => hshutdown) (fun _ => ⟨hshutdown, hpending⟩)

theorem Inv.shutdownRun (hstep : step s (.shutdownRun c) = some s') : Inv s' := by
  simp only [step] at hstep
  have hclient := h.clients c
  split at hstep
  . next i hc hexecutor =>
    rw [hc] at hclient
    have hsilent := hclient.silent (by simp)
    have hshutdown : s.shutdown = true := hclient.knows
    obtain ⟨x, hact, rfl⟩ := map_eq_some_iff.mp hstep
    obtain ⟨stopped, hchanges⟩ := Executors.act_shutdown h.sound hact
    have hroute : s.route = some (.dedicated i) :=
      AsyncConfig.route_some (h.executor i hexecutor).1 hexecutor
    exact h.call hchanges (fun _ _ => .inr hshutdown) (by simp) ⟨rfl, rfl, rfl, rfl, rfl, rfl⟩ rfl
      (fun _ _ => .rfl) hsilent (fun _ hphase => ⟨hshutdown, hroute, .inl hphase⟩)
      hclient.owner h.unlocked
  . next hc hexecutor =>
    rw [hc] at hclient
    have hsilent := hclient.silent (by simp)
    have hshutdown : s.shutdown = true := hclient.knows
    by_cases hasync : s.config.async = true
    . rw [if_pos hasync] at hstep
      cases hlock : s.lifecycle with rw [hlock] at hstep
      | some c' => contradiction
      | none =>
        obtain ⟨x, hact, rfl⟩ := map_eq_some_iff.mp hstep
        have hroute : s.route = some .global := by
          unfold State.route AsyncConfig.route
          rw [hasync, hexecutor]
          rfl
        refine h.call (Executors.act_wait h.sound hact) (fun hstopped _ => .inl hstopped)
          (by simp) ⟨rfl, rfl, rfl, rfl, rfl, rfl⟩ rfl (State.enter_owner hlock) hsilent ?_
          (by simp [ClientPc.holds, State.lock]) (State.locked rfl)
        intro htotal hphase
        exact ⟨hshutdown, (h.unlocked hlock).trans htotal.symm, hroute, .global, hroute,
          .inl hphase⟩
    . rw [if_neg hasync] at hstep
      cases hstep
      have hroute : s.route = none := by
        unfold State.route AsyncConfig.route
        rw [if_neg hasync]
      exact h.finish (by rw [hc]; rfl) (by simp [hc]) hshutdown (State.pending_of_sync hroute)
  . contradiction

theorem Inv.shutdownClosed (hstep : step s (.shutdownClosed c) = some s') : Inv s' := by
  simp only [step] at hstep
  have hclient := h.clients c
  split at hstep
  . next i hc =>
    rw [hc] at hclient
    obtain ⟨hshutdown, _, hclosing⟩ := hclient.knows
    obtain ⟨hidle, hstep⟩ := ite_none_right_eq_some.mp hstep
    cases hstep
    have hphase : s.phase (.dedicated i) c = .idle := Executors.idle_iff.mp hidle
    rw [hphase] at hclosing
    exact h.finish (by rw [hc]; rfl) (by simp [hc]) hshutdown (hclosing.resolve_left (by simp))
  . contradiction

theorem Inv.shutdownWaited (hstep : step s (.shutdownWaited c) = some s') : Inv s' := by
  simp only [step] at hstep
  have hclient := h.clients c
  split at hstep
  . next hc =>
    rw [hc] at hclient
    have hsilent := hclient.silent (by simp)
    obtain ⟨hshutdown, hsettled, hroute, hwaits⟩ := hclient.knows
    obtain ⟨hidle, hstep⟩ := ite_none_right_eq_some.mp hstep
    cases hstep
    exact h.own (.of_executors h.sound rfl rfl rfl) rfl (State.leave_owner (hclient.owner.mp rfl))
      (fun _ _ _ => ⟨rfl, rfl⟩) id h.policy
      ⟨trivial, by simp [ClientPc.holds], fun r m hphase => absurd hphase (hsilent r m)⟩
      (fun _ => hsettled) (fun _ => hshutdown) (fun _ => ⟨hshutdown, hwaits.pending hroute hidle⟩)
  . contradiction

end Lifecycle
end LogIt.FileLogger
