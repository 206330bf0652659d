import LogIt.Executors.Lemmas.Routes
import LogIt.FileLogger.Impl.Lifecycle

namespace LogIt.FileLogger
namespace Lifecycle

open Function SerialExecutor

variable {ι : Type}

namespace State

def phase (s : State ι) (r : Route) (c : ι) : Phase Nat :=
  (s.executors.view r).phase c

def queued (s : State ι) (r : Route) : List Nat :=
  (s.executors.view r).pending

def pending (s : State ι) : List Nat :=
  match s.route with
  | some r => s.queued r
  | none => []

def total (s : State ι) : List Nat :=
  s.executors.written ++ s.pending

def Waits (s : State ι) (c : ι) : Prop :=
  ∃ r, s.route = some r ∧ (s.phase r c = .waiting ∨ s.pending = [])

theorem pending_of_route {s : State ι} (h : s.route = some r) : s.pending = s.queued r := by
  unfold pending
  rw [h]

end State

def Knows (s : State ι) (c : ι) (pc : ClientPc) : Prop :=
  match pc with
  | .idle => True
  | .log m => s.shutdown = false ∧ s.accepted = s.total ++ [m]
  | .logAdding m =>
    s.shutdown = false ∧ ∃ r, s.route = some r ∧
      ((s.phase r c = .sending (some m) ∧ s.accepted = s.total ++ [m]) ∨
        ((∀ m', s.phase r c ≠ .sending (some m')) ∧ s.accepted = s.total))
  | .config config => s.shutdown = false ∧ s.accepted = s.total ∧ config.queuePolicy = .block
  | .configWaiting config =>
    s.shutdown = false ∧ s.accepted = s.total ∧ config.queuePolicy = .block ∧ s.Waits c
  | .configSwitch config =>
    s.shutdown = false ∧ s.accepted = s.total ∧ config.queuePolicy = .block ∧ s.pending = []
  | .limit | .policy => s.shutdown = false ∧ s.accepted = s.total
  | .configClose i | .configClosing i => s.executor ≠ some i ∧ i < s.executors.created
  | .waiting before => s.accepted = s.total ∧ before = s.accepted ∧ s.Waits c
  | .waitReturned before => before <+: s.executors.written
  | .shutdown => s.shutdown = true
  | .closing i =>
    s.shutdown = true ∧ s.route = some (.dedicated i) ∧
      (s.phase (.dedicated i) c = .closing ∨ s.pending = [])
  | .shutdownWaiting =>
    s.shutdown = true ∧ s.accepted = s.total ∧ s.route = some .global ∧ s.Waits c

structure Client (s : State ι) (c : ι) (pc : ClientPc) : Prop where
  knows : Knows s c pc
  owner : pc.holds = true ↔ s.lifecycle = some c
  hands : ∀ r m, s.phase r c = .sending (some m) → pc = .logAdding m ∧ s.route = some r

structure Frame (s s' : State ι) (c : ι) : Prop where
  phase : ∀ r, s'.phase r c = s.phase r c
  owner : s'.lifecycle = some c ↔ s.lifecycle = some c
  written : s.executors.written <+: s'.executors.written
  created : s.executors.created ≤ s'.executors.created
  executor : ∀ i, i < s.executors.created → s'.executor = some i → s.executor = some i
  shutdown : s.shutdown = true →
    s'.shutdown = true ∧ s'.route = s.route ∧ (s.pending = [] → s'.pending = [])
  inside : s.lifecycle = some c →
    s'.shutdown = s.shutdown ∧ s'.accepted = s.accepted ∧ s'.total = s.total ∧
      s'.route = s.route ∧ (s.pending = [] → s'.pending = [])

theorem State.Waits.frame {s s' : State ι} (h : s.Waits c)
    (hphase : ∀ r, s'.phase r c = s.phase r c) (hroute : s'.route = s.route)
    (hpending : s.pending = [] → s'.pending = [])
    : s'.Waits c := by
  obtain ⟨r, hr, hwaits⟩ := h
  refine ⟨r, hroute.trans hr, ?_⟩
  rw [hphase]
  exact hwaits.imp_right hpending

section

variable {s s' : State ι} {c : ι} {pc : ClientPc}

theorem Knows.map (h : Knows s c pc)
    (hinside : pc.holds = true → s'.shutdown = s.shutdown ∧ s'.accepted = s.accepted ∧ s'.total = s.total ∧ (s.pending = [] → s'.pending = []) ∧ (s.Waits c → s'.Waits c))
    (hadding : ∀ m, pc = .logAdding m → Knows s' c pc)
    (hexecutor : ∀ i, i < s.executors.created → s'.executor = some i → s.executor = some i)
    (hcreated : s.executors.created ≤ s'.executors.created)
    (hwritten : s.executors.written <+: s'.executors.written)
    (hshutdown : s.shutdown = true → s'.shutdown = true ∧ s'.route = s.route)
    (hclosing : ∀ i, s.shutdown = true → s.route = some (.dedicated i) → s.phase (.dedicated i) c = .closing ∨ s.pending = [] → s'.phase (.dedicated i) c = .closing ∨ s'.pending = [])
    : Knows s' c pc := by
  have hlive (hholds : pc.holds = true) (h : s.shutdown = false) : s'.shutdown = false :=
    (hinside hholds).1.trans h
  have hsettled (hholds : pc.holds = true) (h : s.accepted = s.total) : s'.accepted = s'.total := by
    obtain ⟨_, haccepted, htotal, _⟩ := hinside hholds
    rw [haccepted, htotal]
    exact h
  cases pc with
  | idle => trivial
  | log m =>
    obtain ⟨_, haccepted, htotal, _⟩ := hinside rfl
    refine ⟨hlive rfl h.1, ?_⟩
    rw [haccepted, htotal]
    exact h.2
  | logAdding m => exact hadding m rfl
  | config config => exact ⟨hlive rfl h.1, hsettled rfl h.2.1, h.2.2⟩
  | configWaiting config =>
    exact ⟨hlive rfl h.1, hsettled rfl h.2.1, h.2.2.1, (hinside rfl).2.2.2.2 h.2.2.2⟩
  | configSwitch config =>
    exact ⟨hlive rfl h.1, hsettled rfl h.2.1, h.2.2.1, (hinside rfl).2.2.2.1 h.2.2.2⟩
  | limit | policy => exact ⟨hlive rfl h.1, hsettled rfl h.2⟩
  | configClose i | configClosing i =>
    exact ⟨fun hi => h.1 (hexecutor i h.2 hi), Nat.lt_of_lt_of_le h.2 hcreated⟩
  | waiting before =>
    exact ⟨hsettled rfl h.1, h.2.1.trans (hinside rfl).2.1.symm, (hinside rfl).2.2.2.2 h.2.2⟩
  | waitReturned before => exact List.IsPrefix.trans h hwritten
  | shutdown => exact (hshutdown h).1
  | closing i =>
    obtain ⟨hshutdown', hroute⟩ := hshutdown h.1
    exact ⟨hshutdown', hroute.trans h.2.1, hclosing i h.1 h.2.1 h.2.2⟩
  | shutdownWaiting =>
    obtain ⟨hshutdown', hroute⟩ := hshutdown h.1
    exact ⟨hshutdown', hsettled rfl h.2.1, hroute.trans h.2.2.1, (hinside rfl).2.2.2.2 h.2.2.2⟩

theorem Knows.frame (h : Knows s c pc) (howner : pc.holds = true → s.lifecycle = some c)
    (hframe : Frame s s' c)
    : Knows s' c pc := by
  apply h.map
  . intro hholds
    obtain ⟨hshutdown, haccepted, htotal, hroute, hpending⟩ := hframe.inside (howner hholds)
    exact ⟨hshutdown, haccepted, htotal, hpending,
      fun hwaits => hwaits.frame hframe.phase hroute hpending⟩
  . intro m hpc
    rw [hpc] at h howner ⊢
    obtain ⟨hshutdown, haccepted, htotal, hroute, _⟩ := hframe.inside (howner rfl)
    obtain ⟨hlive, r, hr, hmessage⟩ := h
    refine ⟨hshutdown.trans hlive, r, hroute.trans hr, ?_⟩
    rw [hframe.phase, haccepted, htotal]
    exact hmessage
  . exact hframe.executor
  . exact hframe.created
  . exact hframe.written
  . intro hs
    exact ⟨(hframe.shutdown hs).1, (hframe.shutdown hs).2.1⟩
  . intro i hs _ hclosing
    rw [hframe.phase]
    exact hclosing.imp_right (hframe.shutdown hs).2.2

theorem Client.frame (h : Client s c pc) (hframe : Frame s s' c)
    : Client s' c pc where
  knows := h.knows.frame h.owner.mp hframe
  owner := h.owner.trans hframe.owner.symm
  hands := by
    intro r m hphase
    rw [hframe.phase] at hphase
    obtain ⟨hpc, hroute⟩ := h.hands r m hphase
    refine ⟨hpc, ?_⟩
    have howner := h.owner.mp (by rw [hpc]; rfl)
    rw [(hframe.inside howner).2.2.2.1]
    exact hroute

end

variable [Fintype ι]

structure Inv (s : State ι) : Prop where
  sound : s.executors.Sound
  clients : ∀ c, Client s c (s.clients c)
  unlocked : s.lifecycle = none → s.accepted = s.total
  queued : ∀ r, s.queued r ≠ [] → s.route = some r
  stopped : ∀ r, (s.executors.view r).stopped = true → s.route = some r → s.shutdown = true
  executor : ∀ i, s.executor = some i → s.config.async = true ∧ i < s.executors.created
  policy : s.config.queuePolicy = .block
  returned : s.shutdownReturned = true → s.shutdown = true
  finished : s.shutdownFinished = true → s.shutdown = true ∧ s.pending = []

section Own

/-
The steps of one thread that leave the queues and the route alone.
-/

structure Own (s s' : State ι) (c : ι) : Prop where
  keeps : s.executors.Keeps s'.executors c
  executor : s'.executor = s.executor
  async : s'.config.async = s.config.async
  stopped : ∀ r, (s'.executors.view r).stopped = true → s'.route = some r →
    (s.executors.view r).stopped = true ∨ s'.shutdown = true

namespace Own

variable {s s' : State ι} {c : ι}

theorem route (h : Own s s' c) : s'.route = s.route := by
  unfold State.route AsyncConfig.route
  rw [h.async, h.executor]

theorem queued (h : Own s s' c) (r : Route) : s'.queued r = s.queued r :=
  h.keeps.pending r

theorem pending (h : Own s s' c) : s'.pending = s.pending := by
  unfold State.pending
  rw [h.route]
  simp only [h.queued]

theorem total (h : Own s s' c) : s'.total = s.total := by
  unfold State.total
  rw [h.keeps.written, h.pending]

theorem of_executors (hsound : s.executors.Sound) (hexecutors : s'.executors = s.executors)
    (hexecutor : s'.executor = s.executor) (hasync : s'.config.async = s.config.async)
    : Own s s' c where
  keeps := .of_eq hsound hexecutors
  executor := hexecutor
  async := hasync
  stopped r hstopped _ := by
    rw [hexecutors] at hstopped
    exact .inl hstopped

variable [DecidableEq ι]

theorem of_changes {r : Route} {p : Phase Nat} {stopped : Bool}
    (hchanges : s.executors.Changes r none
      { (s.executors.view r).setPhase c p with stopped := stopped } s'.executors)
    (hexecutor : s'.executor = s.executor) (hasync : s'.config.async = s.config.async)
    (hstopped : stopped = true → s'.route = some r →
      (s.executors.view r).stopped = true ∨ s'.shutdown = true)
    : Own s s' c where
  keeps := hchanges.keeps
  executor := hexecutor
  async := hasync
  stopped r' hstopped' hroute := by
    by_cases hr : r' = r
    . rw [hr, hchanges.here] at hstopped'
      rw [hr] at hroute ⊢
      exact hstopped hstopped' hroute
    . rw [hchanges.elsewhere r' hr] at hstopped'
      exact .inl hstopped'

theorem of_phase
    (hchanges : s.executors.Changes r none ((s.executors.view r).setPhase c p) s'.executors)
    (hexecutor : s'.executor = s.executor) (hasync : s'.config.async = s.config.async)
    : Own s s' c :=
  of_changes hchanges hexecutor hasync (fun hstopped _ => .inl hstopped)

end Own

variable {s s' : State ι} {c : ι} {pc : ClientPc}

omit [Fintype ι] in
theorem Client.silent (h : Client s c pc) (hpc : ∀ m, pc ≠ .logAdding m) (r : Route) (m : Nat)
    : s.phase r c ≠ .sending (some m) := by
  intro hphase
  exact hpc m (h.hands r m hphase).1

variable [DecidableEq ι]

theorem Inv.own (h : Inv s) (hown : Own s s' c)
    (hclients : s'.clients = update s.clients c pc)
    (howner : ∀ c', c' ≠ c → (s'.lifecycle = some c' ↔ s.lifecycle = some c'))
    (hothers : ∀ c', c' ≠ c → s.lifecycle = some c' →
      s'.shutdown = s.shutdown ∧ s'.accepted = s.accepted)
    (hshutdown : s.shutdown = true → s'.shutdown = true)
    (hpolicy : s'.config.queuePolicy = .block)
    (hself : Client s' c pc) (hunlocked : s'.lifecycle = none → s'.accepted = s'.total)
    (hreturned : s'.shutdownReturned = true → s'.shutdown = true)
    (hfinished : s'.shutdownFinished = true → s'.shutdown = true ∧ s'.pending = [])
    : Inv s' where
  sound := hown.keeps.sound
  clients := by
    intro c'
    rw [hclients]
    by_cases hc : c' = c
    . rw [hc, update_self]
      exact hself
    . rw [update_of_ne hc]
      apply (h.clients c').frame
      constructor
      . exact fun r => hown.keeps.phase r c' hc
      . exact howner c' hc
      . rw [hown.keeps.written]
      . rw [hown.keeps.created]
      . intro i _ hi
        rw [← hown.executor]
        exact hi
      . intro hs
        refine ⟨hshutdown hs, hown.route, ?_⟩
        rw [hown.pending]
        exact id
      . intro hlock
        obtain ⟨h1, h2⟩ := hothers c' hc hlock
        refine ⟨h1, h2, hown.total, hown.route, ?_⟩
        rw [hown.pending]
        exact id
  unlocked := hunlocked
  queued := by
    intro r hr
    rw [hown.queued] at hr
    rw [hown.route]
    exact h.queued r hr
  stopped := by
    intro r hr hroute
    cases hown.stopped r hr hroute with
    | inl hold =>
      rw [hown.route] at hroute
      exact hshutdown (h.stopped r hold hroute)
    | inr hnew => exact hnew
  executor := by
    intro i hi
    rw [hown.executor] at hi
    rw [hown.async, hown.keeps.created]
    exact h.executor i hi
  policy := hpolicy
  returned := hreturned
  finished := hfinished

structure SameFlags (s s' : State ι) : Prop where
  config : s'.config = s.config
  executor : s'.executor = s.executor
  accepted : s'.accepted = s.accepted
  shutdown : s'.shutdown = s.shutdown
  returned : s'.shutdownReturned = s.shutdownReturned
  finished : s'.shutdownFinished = s.shutdownFinished

theorem Inv.move (h : Inv s) (hown : Own s s' c) (hsame : SameFlags s s')
    (hclients : s'.clients = update s.clients c pc)
    (howner : ∀ c', c' ≠ c → (s'.lifecycle = some c' ↔ s.lifecycle = some c'))
    (hself : Client s' c pc) (hunlocked : s'.lifecycle = none → s.accepted = s.total)
    : Inv s' := by
  apply h.own hown hclients howner
  . exact fun _ _ _ => ⟨hsame.shutdown, hsame.accepted⟩
  . rw [hsame.shutdown]
    exact id
  . rw [hsame.config]
    exact h.policy
  . exact hself
  . rw [hsame.accepted, hown.total]
    exact hunlocked
  . rw [hsame.returned, hsame.shutdown]
    exact h.returned
  . rw [hsame.finished, hsame.shutdown, hown.pending]
    exact h.finished

theorem Inv.turn (h : Inv s) (hexecutors : s'.executors = s.executors) (hsame : SameFlags s s')
    (hclients : s'.clients = update s.clients c pc)
    (howner : ∀ c', c' ≠ c → (s'.lifecycle = some c' ↔ s.lifecycle = some c'))
    (hsilent : ∀ r m, s.phase r c ≠ .sending (some m))
    (hknows : Knows s' c pc) (hholds : pc.holds = true ↔ s'.lifecycle = some c)
    (hunlocked : s'.lifecycle = none → s.accepted = s.total)
    : Inv s' := by
  have hown : Own s s' c :=
    .of_executors h.sound hexecutors hsame.executor (congrArg AsyncConfig.async hsame.config)
  refine h.move hown hsame hclients howner ⟨hknows, hholds, ?_⟩ hunlocked
  intro r m hphase
  unfold State.phase at hphase
  rw [hexecutors] at hphase
  exact absurd hphase (hsilent r m)

theorem Inv.call {r : Route} {p : Phase Nat} {stopped : Bool} (h : Inv s)
    (hchanges : s.executors.Changes r none
      { (s.executors.view r).setPhase c p with stopped := stopped } s'.executors)
    (hstopped : stopped = true → s'.route = some r →
      (s.executors.view r).stopped = true ∨ s'.shutdown = true)
    (hp : ∀ m, p ≠ .sending (some m)) (hsame : SameFlags s s')
    (hclients : s'.clients = update s.clients c pc)
    (howner : ∀ c', c' ≠ c → (s'.lifecycle = some c' ↔ s.lifecycle = some c'))
    (hsilent : ∀ r m, s.phase r c ≠ .sending (some m))
    (hknows : s'.total = s.total → s'.phase r c = p → Knows s' c pc)
    (hholds : pc.holds = true ↔ s'.lifecycle = some c)
    (hunlocked : s'.lifecycle = none → s.accepted = s.total)
    : Inv s' := by
  have hown : Own s s' c :=
    .of_changes hchanges hsame.executor (congrArg AsyncConfig.async hsame.config) hstopped
  refine h.move hown hsame hclients howner ⟨hknows hown.total hchanges.phase_self, hholds, ?_⟩
    hunlocked
  intro r' m hphase
  exact absurd hphase (hchanges.silent hsilent hp r' m)

end Own
end Lifecycle
end LogIt.FileLogger
