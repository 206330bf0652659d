import LogIt.FileLogger.Lemmas.LifecycleCalls

namespace LogIt.FileLogger
namespace Lifecycle

open Function List SerialExecutor

variable {ι : Type} {s s' : State ι} {c : ι}

theorem Client.of_outside (h : Client s c' pc) (hlock : s.lifecycle ≠ some c')
    (hlive : s.shutdown = false) (hlock' : s'.lifecycle ≠ some c')
    (hwritten : s'.executors.written = s.executors.written)
    (hcreated : s.executors.created ≤ s'.executors.created)
    (hexecutor : ∀ i, i < s.executors.created → s'.executor = some i → s.executor = some i)
    (hphase : ∀ r, s'.phase r c' = s.phase r c' ∨ s'.phase r c' = .idle)
    : Client s' c' pc := by
  have hholds : pc.holds ≠ true := fun hholds => hlock (h.owner.mp hholds)
  refine ⟨?_, ⟨fun hpc => absurd hpc hholds, fun hpc => absurd hpc hlock'⟩, ?_⟩
  . apply h.knows.map
    . exact fun hpc => absurd hpc hholds
    . intro m hpc
      rw [hpc] at hholds
      exact absurd rfl hholds
    . exact hexecutor
    . exact hcreated
    . rw [hwritten]
    . intro hs
      rw [hlive] at hs
      contradiction
    . intro i hs
      rw [hlive] at hs
      contradiction
  . intro r m hsending
    cases hphase r with
    | inl hsame =>
      rw [hsame] at hsending
      have hpc := (h.hands r m hsending).1
      rw [hpc] at hholds
      exact absurd rfl hholds
    | inr hidle =>
      rw [hidle] at hsending
      contradiction

variable [Fintype ι]

theorem Inv.queued_of_pending (h : Inv s) (hpending : s.pending = []) (r : Route)
    : s.queued r = [] := by
  by_contra hqueued
  have hroute := h.queued r hqueued
  rw [State.pending_of_route hroute] at hpending
  exact hqueued hpending

theorem Inv.running (h : Inv s) (hlive : s.shutdown = false) (hi : s.executor = some i)
    : (s.executors.view (.dedicated i)).stopped = false := by
  by_contra hstopped
  have hroute : s.route = some (.dedicated i) := AsyncConfig.route_some (h.executor i hi).1 hi
  rw [h.stopped _ (eq_true_of_ne_false hstopped) hroute] at hlive
  contradiction

theorem Knows.endPhase (h : Knows s c pc) (hown : Own s s' c) (haccepted : s'.accepted = s.accepted)
    (hshutdown : s'.shutdown = s.shutdown) (hhere : s'.phase r c = p)
    (helsewhere : ∀ r', r' ≠ r → s'.phase r' c = s.phase r' c) (hp : ∀ m, p ≠ .sending (some m))
    (hsending : ∀ m, s.phase r c ≠ .sending (some m))
    (hends : s.phase r c = .waiting ∨ s.phase r c = .closing → s.queued r = [])
    : Knows s' c pc := by
  have hdone (r' : Route) (q : Phase Nat) (hq : q = .waiting ∨ q = .closing)
      (hroute : s.route = some r') (hphase : s.phase r' c = q ∨ s.pending = [])
      : s'.phase r' c = q ∨ s'.pending = [] := by
    rw [hown.pending]
    cases hphase with
    | inl hphase =>
      by_cases hr : r' = r
      . right
        rw [State.pending_of_route hroute, hr]
        rw [hr] at hphase
        rw [← hphase] at hq
        exact hends hq
      . left
        rw [helsewhere r' hr]
        exact hphase
    | inr hpending => exact .inr hpending
  apply h.map
  . intro _
    refine ⟨hshutdown, haccepted, hown.total, hown.pending.trans, ?_⟩
    rintro ⟨r', hroute, hwaits⟩
    exact ⟨r', hown.route.trans hroute, hdone r' .waiting (.inl rfl) hroute hwaits⟩
  . intro m hpc
    rw [hpc] at h ⊢
    obtain ⟨hlive, r', hroute, hmessage⟩ := h
    refine ⟨hshutdown.trans hlive, r', hown.route.trans hroute, ?_⟩
    rw [haccepted, hown.total]
    by_cases hr : r' = r
    . rw [hr] at hmessage ⊢
      right
      rw [hhere]
      exact ⟨hp, (hmessage.resolve_left (fun hleft => hsending m hleft.1)).2⟩
    . rw [helsewhere r' hr]
      exact hmessage
  . intro i _ hi
    rw [← hown.executor]
    exact hi
  . rw [hown.keeps.created]
  . rw [hown.keeps.written]
  . exact fun hs => ⟨hshutdown.trans hs, hown.route⟩
  . intro i _ hroute hclosing
    exact hdone (.dedicated i) .closing (.inr rfl) hroute hclosing

theorem Frame.of_changes {out : Option Nat} {w : View ι Nat}
    (hchanges : s.executors.Changes r out w x) (hphase : w.phase c = s.phase r c)
    (hshutdown : s.shutdown = true → s.pending = [] → State.pending { s with executors := x } = [])
    (hinside : s.lifecycle = some c → State.total { s with executors := x } = s.total ∧
      (s.pending = [] → State.pending { s with executors := x } = []))
    : Frame s { s with executors := x } c where
  phase := hchanges.phase_eq hphase
  owner := .rfl
  written := by
    change s.executors.written <+: x.written
    rw [hchanges.written]
    exact prefix_append _ _
  created := Nat.le_of_eq hchanges.created.symm
  executor := fun _ _ hi => hi
  shutdown := fun hs => ⟨hs, rfl, hshutdown hs⟩
  inside := fun hlock => ⟨rfl, rfl, (hinside hlock).1, rfl, (hinside hlock).2⟩

theorem Inv.changes (h : Inv s) (hchanges : s.executors.Changes r out w x)
    (hstopped : w.stopped = (s.executors.view r).stopped)
    (hqueued : w.pending ≠ [] → s.route = some r)
    (hclients : ∀ c, Client { s with executors := x } c (s.clients c))
    (hunlocked : s.lifecycle = none → s.accepted = State.total { s with executors := x })
    (hfinished : s.shutdown = true → s.pending = [] → State.pending { s with executors := x } = [])
    : Inv { s with executors := x } where
  sound := hchanges.sound
  clients := hclients
  unlocked := hunlocked
  queued := by
    intro r' hr'
    have hr' : (x.view r').pending ≠ [] := hr'
    by_cases hr : r' = r
    . rw [hr, hchanges.here] at hr'
      rw [hr]
      exact hqueued hr'
    . rw [hchanges.elsewhere r' hr] at hr'
      exact h.queued r' hr'
  stopped := by
    intro r' hr'
    have hr' : (x.view r').stopped = true := hr'
    apply h.stopped r'
    by_cases hr : r' = r
    . rw [hr, hchanges.here, hstopped] at hr'
      rw [hr]
      exact hr'
    . rw [hchanges.elsewhere r' hr] at hr'
      exact hr'
  executor := by
    intro i hi
    change _ ∧ i < x.created
    rw [hchanges.created]
    exact h.executor i hi
  policy := h.policy
  returned := h.returned
  finished := by
    intro hdone
    obtain ⟨hs, hpending⟩ := h.finished hdone
    exact ⟨hs, hfinished hs hpending⟩

theorem Inv.pending_split (h : Inv s)
    (hchanges : s.executors.Changes r out { s.executors.view r with pending := rest } x)
    (hqueued : s.queued r = out.toList ++ rest)
    : s.pending = out.toList ++ State.pending { s with executors := x } := by
  by_cases hr : s.route = some r
  . have hr' : State.route { s with executors := x } = some r := hr
    rw [State.pending_of_route hr, State.pending_of_route hr', hqueued]
    exact congrArg (out.toList ++ View.pending ·) hchanges.here.symm
  . have hempty : s.queued r = [] := by
      by_contra hne
      exact hr (h.queued r hne)
    rw [hqueued, append_eq_nil_iff] at hempty
    rw [hempty.1, nil_append]
    cases hroute : s.route with
    | none =>
      unfold State.pending
      rw [hroute, show State.route { s with executors := x } = none from hroute]
    | some r' =>
      have hne : r' ≠ r := by
        intro hsame
        rw [hsame] at hroute
        exact hr hroute
      have hroute' : State.route { s with executors := x } = some r' := hroute
      rw [State.pending_of_route hroute, State.pending_of_route hroute']
      exact congrArg View.pending (hchanges.elsewhere r' hne).symm

theorem Inv.output (h : Inv s)
    (hchanges : s.executors.Changes r out { s.executors.view r with pending := rest } x)
    (hqueued : s.queued r = out.toList ++ rest)
    : Inv { s with executors := x } := by
  have hsplit := h.pending_split hchanges hqueued
  have htotal : State.total { s with executors := x } = s.total := by
    unfold State.total
    rw [hsplit, ← append_assoc]
    exact congrArg (· ++ _) hchanges.written
  have hempty (hpending : s.pending = []) : State.pending { s with executors := x } = [] := by
    rw [hsplit, append_eq_nil_iff] at hpending
    exact hpending.2
  apply h.changes hchanges rfl
  . intro hrest
    apply h.queued
    rw [hqueued]
    exact append_ne_nil_of_right_ne_nil _ hrest
  . intro c
    exact (h.clients c).frame
      (.of_changes hchanges rfl (fun _ => hempty) (fun _ => ⟨htotal, hempty⟩))
  . exact fun hlock => (h.unlocked hlock).trans htotal.symm
  . exact fun _ => hempty

theorem Inv.not_rejected (h : Inv s) (hphase : s.phase r c = .sending (some m))
    (hstopped : (s.executors.view r).stopped = true)
    : False := by
  have hclient := h.clients c
  obtain ⟨hc, hroute⟩ := hclient.hands r m hphase
  rw [hc] at hclient
  have hlive := hclient.knows.1
  rw [h.stopped r hstopped hroute] at hlive
  contradiction

variable [DecidableEq ι]

theorem Inv.reroute (h : Inv s) (hlock : s.lifecycle = some c)
    (hsilent : ∀ r m, s.phase r c ≠ .sending (some m)) (hlive : s.shutdown = false)
    (hsettled : s.accepted = s.total) (hpending : s.pending = [])
    (hswitched : s.executors.Switched s.executor s'.config s'.executors s'.executor)
    (hclients : s'.clients = update s.clients c pc)
    (hpolicy : s'.config.queuePolicy = .block) (haccepted : s'.accepted = s.accepted)
    (hshutdown : s'.shutdown = s.shutdown) (hreturned : s'.shutdownReturned = s.shutdownReturned)
    (hfinished : s'.shutdownFinished = s.shutdownFinished)
    (hlock' : ∀ c', c' ≠ c → s'.lifecycle ≠ some c')
    (hknows : s'.accepted = s'.total → Knows s' c pc)
    (howner : pc.holds = true ↔ s'.lifecycle = some c)
    : Inv s' := by
  have hphase (r : Route) (c' : ι) : s'.phase r c' = s.phase r c' ∨ s'.phase r c' = .idle := by
    cases hswitched.view r with
    | inl hsame => exact .inl (congrArg (fun w : View ι Nat => w.phase c') hsame)
    | inr hnew => exact .inr (hnew.2.2.2 c')
  have hempty (r : Route) : s'.queued r = [] := by
    cases hswitched.view r with
    | inl hsame => exact (congrArg View.pending hsame).trans (h.queued_of_pending hpending r)
    | inr hnew => exact hnew.2.1
  have hpending' : s'.pending = [] := by
    unfold State.pending
    split
    . exact hempty _
    . rfl
  have hsettled' : s'.accepted = s'.total := by
    unfold State.total
    rw [haccepted, hswitched.written, hpending', append_nil]
    exact State.accepted_eq_written hsettled hpending
  constructor
  case sound => exact hswitched.sound
  case clients =>
    intro c'
    rw [hclients]
    by_cases hc : c' = c
    . rw [hc, update_self]
      refine ⟨hknows hsettled', howner, ?_⟩
      intro r m hsending
      cases hphase r c with
      | inl hsame =>
        rw [hsame] at hsending
        exact absurd hsending (hsilent r m)
      | inr hidle =>
        rw [hidle] at hsending
        contradiction
    . rw [update_of_ne hc]
      have hother : s.lifecycle ≠ some c' := by
        rw [hlock]
        simp [Ne.symm hc]
      exact (h.clients c').of_outside hother hlive (hlock' c' hc) hswitched.written
        hswitched.created hswitched.fresh (fun r => hphase r c')
  case unlocked => exact fun _ => hsettled'
  case queued =>
    intro r hr
    exact absurd (hempty r) hr
  case stopped =>
    intro r hr hroute
    rw [hswitched.running r hroute] at hr
    contradiction
  case executor => exact hswitched.owned
  case policy => exact hpolicy
  case returned =>
    rw [hreturned, hshutdown]
    exact h.returned
  case finished =>
    intro hdone
    rw [hfinished] at hdone
    exact ⟨hshutdown.trans (h.finished hdone).1, hpending'⟩

theorem Inv.switch (h : Inv s) (hc : s.clients c = .configSwitch config)
    : Inv (s.switch c config) := by
  have hclient := h.clients c
  rw [hc] at hclient
  have hsilent := hclient.silent (by simp)
  have hlock := hclient.owner.mp rfl
  obtain ⟨hlive, hsettled, hpolicy, hpending⟩ := hclient.knows
  have hother (c' : ι) (hne : c' ≠ c) : s.lifecycle ≠ some c' := by
    rw [hlock]
    simp [Ne.symm hne]
  unfold State.switch
  by_cases howns : config.ownsExecutor = true
  . rw [if_pos howns]
    have hasync : config.async = true := (Bool.and_eq_true_iff.mp howns).1
    cases hexecutor : s.executor with
    | some i =>
      have hswitched := Executors.Switched.keep h.sound hasync (h.executor i hexecutor).2
        (h.running hlive hexecutor)
      rw [← hexecutor] at hswitched
      refine h.reroute hlock hsilent hlive hsettled hpending hswitched rfl hpolicy rfl rfl rfl rfl
        hother (fun hsettled' => ⟨hlive, hsettled'⟩) ?_
      simp [ClientPc.holds, State.setClient, hlock]
    | none =>
      refine h.reroute hlock hsilent hlive hsettled hpending (.create h.sound hasync) rfl hpolicy rfl
        rfl rfl rfl hother (fun hsettled' => ⟨hlive, hsettled'⟩) ?_
      simp [ClientPc.holds, State.setClient, hlock]
  . rw [if_neg howns]
    cases hexecutor : s.executor with
    | some i =>
      exact h.reroute hlock hsilent hlive hsettled hpending (.drop h.sound) rfl hpolicy rfl rfl rfl rfl
        (by simp [State.unlock]) (fun _ => ⟨by simp, (h.executor i hexecutor).2⟩)
        (by simp [ClientPc.holds, State.unlock])
    | none =>
      have hswitched : s.executors.Switched s.executor config s.executors s.executor := by
        rw [hexecutor]
        exact .drop h.sound
      exact h.reroute hlock hsilent hlive hsettled hpending hswitched rfl hpolicy rfl rfl rfl rfl
        (by simp [State.unlock]) (fun _ => trivial) (by simp [ClientPc.holds, State.unlock])

theorem Inv.configSwitch (h : Inv s) (hstep : step s (.configSwitch c) = some s') : Inv s' := by
  simp only [step] at hstep
  split at hstep
  . next config hc =>
    obtain ⟨_, hstep⟩ := Option.ite_none_left_eq_some.mp hstep
    cases hstep
    exact h.switch hc
  . contradiction

section Executors

variable {x : Executors ι Nat} {r : Route}

theorem Inv.endPhase (h : Inv s)
    (hchanges : s.executors.Changes r none ((s.executors.view r).setPhase c p) x)
    (hp : ∀ m, p ≠ .sending (some m)) (hsending : ∀ m, s.phase r c ≠ .sending (some m))
    (hends : s.phase r c = .waiting ∨ s.phase r c = .closing → s.queued r = [])
    : Inv { s with executors := x } := by
  have hclient := h.clients c
  have hown : Own s { s with executors := x } c := .of_phase hchanges rfl rfl
  have hhere : (x.view r).phase c = p := hchanges.phase_self
  have helsewhere (r' : Route) (hr : r' ≠ r) : (x.view r').phase c = s.phase r' c :=
    congrArg (fun w : View ι Nat => w.phase c) (hchanges.elsewhere r' hr)
  refine h.move hown ⟨rfl, rfl, rfl, rfl, rfl, rfl⟩ (update_eq_self c s.clients).symm
    (fun _ _ => .rfl) ⟨?_, hclient.owner, ?_⟩ h.unlocked
  . exact hclient.knows.endPhase hown rfl rfl hhere helsewhere hp hsending hends
  . intro r' m hphase
    have hphase : (x.view r').phase c = .sending (some m) := hphase
    by_cases hr : r' = r
    . rw [hr, hhere] at hphase
      exact absurd hphase (hp m)
    . rw [helsewhere r' hr] at hphase
      exact hclient.hands r' m hphase

theorem Inv.enqueue {m : Nat} (h : Inv s) (hphase : s.phase r c = .sending (some m))
    (hchanges : s.executors.Changes r none
      { (s.executors.view r).setPhase c .leaving with pending := s.queued r ++ [m] } x)
    : Inv { s with executors := x } := by
  have hclient := h.clients c
  obtain ⟨hc, hroute⟩ := hclient.hands r m hphase
  rw [hc] at hclient
  have hlock := hclient.owner.mp rfl
  obtain ⟨hlive, r', hroute', hmessage⟩ := hclient.knows
  rw [hroute] at hroute'
  cases hroute'
  have hdown {P : Prop} (hs : s.shutdown = true) : P := by
    rw [hlive] at hs
    contradiction
  have hphase' : (x.view r).phase c = .leaving := by
    rw [hchanges.here]
    exact View.setPhase_phase_self _ c _
  have hsettled : s.accepted = State.total { s with executors := x } := by
    have hroute' : State.route { s with executors := x } = some r := hroute
    have hqueued : State.queued { s with executors := x } r = s.queued r ++ [m] :=
      congrArg View.pending hchanges.here
    have hwritten : x.written = s.executors.written := by
      rw [hchanges.written]
      exact append_nil _
    refine (hmessage.resolve_right (fun hdone => hdone.1 m hphase)).2.trans ?_
    unfold State.total
    rw [State.pending_of_route hroute, State.pending_of_route hroute', hqueued, append_assoc]
    exact congrArg (· ++ _) hwritten.symm
  apply h.changes hchanges rfl
  . exact fun _ => hroute
  . intro c'
    by_cases hsame : c' = c
    . rw [hsame, hc]
      refine ⟨⟨hlive, r, hroute, .inr ⟨?_, hsettled⟩⟩, hclient.owner, ?_⟩
      . intro m'
        change (x.view r).phase c ≠ _
        rw [hphase']
        simp
      . intro r' m' hsending
        have hsending : (x.view r').phase c = .sending (some m') := hsending
        by_cases hr : r' = r
        . rw [hr, hphase'] at hsending
          contradiction
        . rw [hchanges.elsewhere r' hr] at hsending
          have hroute' := (hclient.hands r' m' hsending).2
          rw [hroute] at hroute'
          exact absurd (Option.some.inj hroute').symm hr
    . apply (h.clients c').frame
      apply Frame.of_changes hchanges (View.setPhase_phase_of_ne _ hsame _) hdown
      intro hother
      rw [hlock] at hother
      exact absurd (Option.some.inj hother).symm hsame
  . exact State.locked hlock
  . exact hdown

theorem Inv.exec (h : Inv s) (ha : a.keepsAll r.variant = true)
    (hstep : step s (.exec r a) = some s')
    : Inv s' := by
  simp only [step] at hstep
  obtain ⟨hadmits, hstep⟩ := Option.ite_none_right_eq_some.mp hstep
  obtain ⟨x, hact, rfl⟩ := Option.map_eq_some_iff.mp hstep
  cases Executors.act_effect h.sound ha (Bool.and_eq_true_iff.mp hadmits).1 hact with
  | output hchanges hpending => exact h.output hchanges hpending
  | enqueue hphase hchanges => exact h.enqueue hphase hchanges
  | reject hphase hstopped => exact absurd (h.not_rejected hphase hstopped) id
  | endPhase hchanges hp hsending hends => exact h.endPhase hchanges hp hsending hends

end Executors
end Lifecycle
end LogIt.FileLogger
