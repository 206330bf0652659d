import LogIt.ConsoleLogger.Lemmas.Order

namespace LogIt.ConsoleLogger

open SerialExecutor List

variable {ι : Type} [DecidableEq ι] [Fintype ι] {s s' : State ι} {c : ι}

section Executors

variable {x : Executors ι (ι × Nat)} {r : Route}

theorem Client.endPhase (h : Client s c pc) (hown : Own s s' c) (hlogged : s'.logged = s.logged)
    (hreturned : s'.returned = s.returned) (hhere : s'.phase r c = p)
    (helsewhere : ∀ r', r' ≠ r → s'.phase r' c = s.phase r' c) (hp : ∀ m, p ≠ .sending (some m))
    (hsending : ∀ m, s.phase r c ≠ .sending (some m))
    (hends : s.phase r c = .waiting → s.queued r = [])
    : Client s' c pc := by
  have hordered {r' : Route} {hand : List (ι × Nat)} (hold : s.Ordered c r' hand)
      : s'.Ordered c r' hand :=
    hown.ordered (congrFun hlogged c) hold
  refine ⟨?_, ?_, ?_⟩
  . have hknows := h.knows
    cases pc with
    | idle | limit | policy => trivial
    | log r' m | logAdding r' m => exact hown.route.trans hknows
    | config config | shutdown | shutdownWait | shutdownWaiting => exact hknows
    | close i | closing i =>
      unfold Knows
      rw [hown.executor, hown.keeps.created]
      exact hknows
    | wait before =>
      unfold Knows
      rw [hreturned]
      exact hknows
    | waitCall r' before =>
      exact ⟨Executors.routes_mono (Nat.le_of_eq hown.keeps.created.symm) hknows.1,
        fun m hm => hown.kept (hknows.2 m hm)⟩
    | waiting r' before =>
      cases hknows with
      | inl hwaiting =>
        by_cases hr : r' = r
        . right
          intro m hm
          rw [hown.keeps.written]
          refine (hwaiting.2 m hm).resolve_right ?_
          rw [hr] at hwaiting ⊢
          rw [hends hwaiting.1]
          exact not_mem_nil
        . exact .inl ⟨(helsewhere r' hr).trans hwaiting.1, fun m hm => hown.kept (hwaiting.2 m hm)⟩
      | inr hdone =>
        right
        rw [hown.keeps.written]
        exact hdone
    | waitReturned before =>
      unfold Knows
      rw [hown.keeps.written]
      exact hknows
  . have horder := h.order
    cases pc with
    | log r' m => exact hordered horder
    | logAdding r' m =>
      by_cases hr : r' = r
      . rw [hr] at horder ⊢
        have hdone := horder.resolve_left (fun hleft => hsending m hleft.1)
        refine .inr ⟨?_, hordered hdone.2.1, hown.kept hdone.2.2⟩
        rw [hhere]
        exact hp
      . cases horder with
        | inl hleft => exact .inl ⟨(helsewhere r' hr).trans hleft.1, hordered hleft.2⟩
        | inr hdone =>
          refine .inr ⟨?_, hordered hdone.2.1, hown.kept hdone.2.2⟩
          rw [helsewhere r' hr]
          exact hdone.1
    | _ =>
      obtain ⟨r', hold⟩ := horder
      exact ⟨r', hordered hold⟩
  . intro r' m hphase
    by_cases hr : r' = r
    . rw [hr, hhere] at hphase
      exact absurd hphase (hp m)
    . rw [helsewhere r' hr] at hphase
      exact h.hands r' m hphase

theorem Inv.endPhase (h : Inv s) (hr : r ∈ s.executors.routes)
    (hchanges : s.executors.Changes r none ((s.executors.view r).setPhase c p) x)
    (hp : ∀ m, p ≠ .sending (some m)) (hsending : ∀ m, s.phase r c ≠ .sending (some m))
    (hends : s.phase r c = .waiting → s.queued r = [])
    : Inv { s with executors := x } := by
  have hown : Own s { s with executors := x } c :=
    .of_changes hr hchanges (fun _ => rfl) rfl rfl rfl
  refine h.byOwn hown (Function.update_eq_self c s.clients).symm rfl (fun _ _ => rfl)
    (fun _ hm => hm) h.returned ?_
  exact (h.clients c).endPhase hown rfl rfl hchanges.phase_self
    (fun r' hr' => congrArg (fun w : View ι (ι × Nat) => w.phase c) (hchanges.elsewhere r' hr'))
    hp hsending hends

theorem Inv.changes (h : Inv s) (hr : r ∈ s.executors.routes)
    (hchanges : s.executors.Changes r out w x) (hstopped : w.stopped = (s.executors.view r).stopped)
    (hkept : ∀ r' m, s.Kept r' m → State.Kept { s with executors := x } r' m)
    (hclients : ∀ c, Client { s with executors := x } c (s.clients c))
    : Inv { s with executors := x } where
  sound := hchanges.sound
  clients := hclients
  returned := by
    intro m hm
    obtain ⟨r', hold⟩ := h.returned m hm
    exact ⟨r', hkept r' m hold⟩
  unused := by
    intro r' hr'
    unfold Executors.routes at hr'
    rw [hchanges.created] at hr'
    have hne : r' ≠ r := by
      intro hsame
      rw [hsame] at hr'
      exact hr' hr
    rw [hchanges.elsewhere r' hne]
    exact h.unused r' hr'
  running := by
    intro r' hroute
    by_cases hsame : r' = r
    . rw [hsame] at hroute ⊢
      rw [hchanges.here, hstopped]
      exact h.running r hroute
    . rw [hchanges.elsewhere r' hsame]
      exact h.running r' hroute
  executor := by
    intro i hi
    change _ ∧ i < x.created
    rw [hchanges.created]
    exact h.executor i hi
  policy := h.policy
  live := h.live
  pendingEnqueues := h.pendingEnqueues

omit [DecidableEq ι] in
theorem State.Kept.changes (h : s.Kept r' m) (hchanges : s.executors.Changes r out w x)
    (hqueued : m ∈ s.queued r → m ∈ out.toList ∨ m ∈ w.pending)
    : State.Kept { s with executors := x } r' m := by
  unfold State.Kept State.queued
  rw [hchanges.written, mem_append]
  cases h with
  | inl hwritten => exact .inl (.inl hwritten)
  | inr hpending =>
    by_cases hr : r' = r
    . rw [hr] at hpending ⊢
      rw [hchanges.here]
      exact (hqueued hpending).imp_left .inr
    . rw [hchanges.elsewhere r' hr]
      exact .inr hpending

theorem Frame.of_changes (hchanges : s.executors.Changes r out w x)
    (hphase : w.phase c = s.phase r c)
    (hkept : ∀ r' m, s.Kept r' m → State.Kept { s with executors := x } r' m)
    (horder : ∀ r' hand, s.Ordered c r' hand → State.Ordered { s with executors := x } c r' hand)
    : Frame s { s with executors := x } c where
  phase := hchanges.phase_eq hphase
  order := horder
  kept := hkept
  written := by
    intro m hm
    change m ∈ x.written
    rw [hchanges.written]
    exact mem_append_left _ hm
  returned := fun _ hm => hm
  route := fun _ => rfl
  created := Nat.le_of_eq hchanges.created.symm
  executor := fun _ _ hi => hi

theorem State.Ordered.output (h : s.Ordered c r' hand)
    (hchanges : s.executors.Changes r out { s.executors.view r with pending := rest } x)
    (hqueued : s.queued r = out.toList ++ rest)
    : State.Ordered { s with executors := x } c r' hand := by
  have hhere : State.queued { s with executors := x } r = rest := congrArg View.pending hchanges.here
  have helsewhere (r'' : Route) (hr : r'' ≠ r)
      : State.queued { s with executors := x } r'' = s.queued r'' :=
    congrArg View.pending (hchanges.elsewhere r'' hr)
  have hsplit : own c (s.queued r) = own c out.toList ++ own c rest := by
    rw [hqueued, own_append]
  constructor
  . intro r'' hr''
    by_cases hr : r'' = r
    . have hnil := h.elsewhere r'' hr''
      rw [hr, hsplit, append_eq_nil_iff] at hnil
      rw [hr, hhere]
      exact hnil.2
    . rw [helsewhere r'' hr]
      exact h.elsewhere r'' hr''
  . change ConsoleLogger.messages c (s.logged c) = own c x.written ++ _ ++ hand
    rw [hchanges.written, own_append, h.messages]
    by_cases hr : r' = r
    . rw [hr, hhere, hsplit]
      simp only [append_assoc]
    . have hnil := h.elsewhere r (Ne.symm hr)
      rw [hsplit, append_eq_nil_iff] at hnil
      rw [helsewhere r' hr, hnil.1, append_nil]

theorem Inv.output (h : Inv s) (hr : r ∈ s.executors.routes)
    (hchanges : s.executors.Changes r out { s.executors.view r with pending := rest } x)
    (hqueued : s.queued r = out.toList ++ rest)
    : Inv { s with executors := x } := by
  have hkept (r' : Route) (m : ι × Nat) (hold : s.Kept r' m)
      : State.Kept { s with executors := x } r' m := by
    apply hold.changes hchanges
    rw [hqueued]
    exact mem_append.mp
  apply h.changes hr hchanges rfl hkept
  intro c
  exact (h.clients c).frame (h.enqueues_le c)
    (.of_changes hchanges rfl hkept (fun r' hand hold => hold.output hchanges hqueued))

omit [Fintype ι] in
theorem State.Ordered.enqueue {m : ι × Nat} {t : State ι} (h : s.Ordered c r [m])
    (hwritten : t.executors.written = s.executors.written) (hlogged : t.logged = s.logged)
    (hhere : t.queued r = s.queued r ++ [m]) (helsewhere : ∀ r', r' ≠ r → t.queued r' = s.queued r')
    : t.Ordered c r [] := by
  have hm : m.1 = c := h.fst_of_mem_hand (mem_singleton_self m)
  constructor
  . intro r' hr
    rw [helsewhere r' hr]
    exact h.elsewhere r' hr
  . rw [hlogged, hwritten, hhere, own_append, own_self hm, h.messages]
    simp

theorem Inv.enqueue {m : ι × Nat} (h : Inv s) (hphase : s.phase r c = .sending (some m))
    (hchanges : s.executors.Changes r none
      { (s.executors.view r).setPhase c .leaving with pending := s.queued r ++ [m] } x)
    : Inv { s with executors := x } := by
  have hclient := h.clients c
  have hc := hclient.hands r m hphase
  rw [hc] at hclient
  have hsending : s.Ordered c r [m] := by
    have horder : Order s c (.logAdding r m) := hclient.order
    cases horder with
    | inl hleft => exact hleft.2
    | inr hdone => exact absurd hphase (hdone.1 m)
  have hhere : State.queued { s with executors := x } r = s.queued r ++ [m] :=
    congrArg View.pending hchanges.here
  have helsewhere (r' : Route) (hr : r' ≠ r)
      : State.queued { s with executors := x } r' = s.queued r' :=
    congrArg View.pending (hchanges.elsewhere r' hr)
  have hwritten : x.written = s.executors.written := by
    rw [hchanges.written]
    exact append_nil _
  have hphase' : (x.view r).phase c = .leaving := by
    rw [hchanges.here]
    exact View.setPhase_phase_self _ c _
  have hkept (r' : Route) (m' : ι × Nat) (hold : s.Kept r' m')
      : State.Kept { s with executors := x } r' m' :=
    hold.changes hchanges (fun hm' => .inr (mem_append_left _ hm'))
  apply h.changes (h.mem_routes hclient.knows) hchanges rfl hkept
  intro c'
  by_cases hsame : c' = c
  . rw [hsame, hc]
    refine ⟨hclient.knows, .inr ⟨?_, hsending.enqueue hwritten rfl hhere helsewhere, ?_⟩, ?_⟩
    . intro m'
      change (x.view r).phase c ≠ _
      rw [hphase']
      simp
    . right
      rw [hhere]
      exact mem_append_right _ (mem_singleton_self m)
    . intro r' m' hphase''
      have hphase'' : (x.view r').phase c = .sending (some m') := hphase''
      by_cases hr : r' = r
      . rw [hr, hphase'] at hphase''
        contradiction
      . rw [hchanges.elsewhere r' hr] at hphase''
        exact hclient.hands r' m' hphase''
  . refine (h.clients c').frame (h.enqueues_le c') (.of_changes hchanges ?_ hkept ?_)
    . exact View.setPhase_phase_of_ne _ hsame _
    . intro r' hand hold
      refine hold.congr rfl (congrArg (own c') hwritten) ?_
      intro r''
      by_cases hr : r'' = r
      . have hm : m.1 ≠ c' := by
          rw [hsending.fst_of_mem_hand (mem_singleton_self m)]
          exact Ne.symm hsame
        rw [hr, hhere, own_append, own_other hm, append_nil]
      . rw [helsewhere r'' hr]

theorem Inv.exec (h : Inv s) (ha : a.keepsAll r.variant = true)
    (hstep : step s (.exec r a) = some s')
    : Inv s' := by
  simp only [step] at hstep
  obtain ⟨hadmits, hstep⟩ := Option.ite_none_right_eq_some.mp hstep
  obtain ⟨x, hact, rfl⟩ := Option.map_eq_some_iff.mp hstep
  have hexecutors := (Bool.and_eq_true_iff.mp hadmits).1
  have hr : r ∈ s.executors.routes := Executors.mem_routes_of_admits hexecutors
  cases Executors.act_effect h.sound ha hexecutors hact with
  | output hchanges hpending => exact h.output hr hchanges hpending
  | enqueue hphase hchanges => exact h.enqueue hphase hchanges
  | @reject m c hphase hstopped =>
    -- The executor in use is not stopped, so it rejects no message.
    have hclient := h.clients c
    rw [hclient.hands r m hphase] at hclient
    rw [h.running r hclient.knows] at hstopped
    contradiction
  | endPhase hchanges hp hsending hends =>
    exact h.endPhase hr hchanges hp hsending (fun hwaiting => hends (.inl hwaiting))

end Executors
end LogIt.ConsoleLogger
