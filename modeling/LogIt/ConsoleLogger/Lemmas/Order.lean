import LogIt.ConsoleLogger.Impl.Logger
import LogIt.Executors.Lemmas.Routes

namespace LogIt
namespace Executors

variable {ι μ : Type}

def routes (x : Executors ι μ) : List Route :=
  .global :: (List.range x.created).map .dedicated

theorem global_mem_routes (x : Executors ι μ) : .global ∈ x.routes :=
  List.mem_cons_self

theorem dedicated_mem_routes {x : Executors ι μ} : .dedicated i ∈ x.routes ↔ i < x.created := by
  simp [routes]

theorem routes_mono {x x' : Executors ι μ} (h : x.created ≤ x'.created) (hr : r ∈ x.routes)
    : r ∈ x'.routes := by
  cases r with
  | global => exact x'.global_mem_routes
  | dedicated i =>
    rw [dedicated_mem_routes] at hr ⊢
    exact Nat.lt_of_lt_of_le hr h

theorem mem_routes_of_admits {x : Executors ι μ} {busy : ι → Bool} {r : Route}
    {a : DequeExecutor.Action ι} (h : x.admits busy r a = true)
    : r ∈ x.routes := by
  cases r with
  | global => exact x.global_mem_routes
  | dedicated i =>
    cases a with
    | setQueuePolicy policy | resetDroppedTasks => contradiction
    | _ =>
      rw [dedicated_mem_routes]
      exact of_decide_eq_true (Bool.and_eq_true_iff.mp h).1

end Executors

namespace ConsoleLogger

open SerialExecutor

variable {ι : Type}

namespace State

def phase (s : State ι) (r : Route) (c : ι) : Phase (ι × Nat) :=
  (s.executors.view r).phase c

def queued (s : State ι) (r : Route) : List (ι × Nat) :=
  (s.executors.view r).pending

def Kept (s : State ι) (r : Route) (m : ι × Nat) : Prop :=
  m ∈ s.executors.written ∨ m ∈ s.queued r

end State

def ClientPc.enqueues (pc : ClientPc ι) : Nat :=
  match pc with
  | .log _ _ | .logAdding _ _ => 1
  | _ => 0

def Knows (s : State ι) (c : ι) (pc : ClientPc ι) : Prop :=
  match pc with
  | .idle | .limit | .policy => True
  | .log r _ | .logAdding r _ => s.route = some r
  | .config config => config.queuePolicy = .block
  | .close i | .closing i => s.executor ≠ some i ∧ i < s.executors.created
  | .wait before => ∀ m ∈ before, m ∈ s.returned
  | .waitCall r before => r ∈ s.executors.routes ∧ ∀ m ∈ before, s.Kept r m
  | .waiting r before =>
    (s.phase r c = .waiting ∧ ∀ m ∈ before, s.Kept r m) ∨ ∀ m ∈ before, m ∈ s.executors.written
  | .waitReturned before => ∀ m ∈ before, m ∈ s.executors.written
  | .shutdown | .shutdownWait | .shutdownWaiting => False

section Order

variable [DecidableEq ι]

def own (c : ι) (l : List (ι × Nat)) : List (ι × Nat) :=
  l.filter (fun m => decide (m.1 = c))

def messages (c : ι) (n : Nat) : List (ι × Nat) :=
  (List.range n).map (fun k => (c, k))

theorem own_append (c : ι) (l l' : List (ι × Nat)) : own c (l ++ l') = own c l ++ own c l' :=
  List.filter_append _ _

theorem own_self {m : ι × Nat} (h : m.1 = c) : own c [m] = [m] := by
  simp [own, h]

theorem own_other {m : ι × Nat} (h : m.1 ≠ c) : own c [m] = [] := by
  simp [own, h]

omit [DecidableEq ι] in
theorem messages_succ (c : ι) (n : Nat) : messages c (n + 1) = messages c n ++ [(c, n)] := by
  unfold messages
  rw [List.range_succ, List.map_append]
  rfl

omit [DecidableEq ι] in
theorem fst_of_mem_messages {c : ι} {n : Nat} {m : ι × Nat} (h : m ∈ messages c n) : m.1 = c := by
  unfold messages at h
  obtain ⟨k, _, rfl⟩ := List.mem_map.mp h
  rfl

omit [DecidableEq ι] in
theorem nodup_messages (c : ι) (n : Nat) : (messages c n).Nodup := by
  apply List.nodup_range.map
  intro k k' h
  exact (Prod.mk.inj h).2

structure State.Ordered (s : State ι) (c : ι) (r : Route) (hand : List (ι × Nat)) : Prop where
  elsewhere : ∀ r', r' ≠ r → own c (s.queued r') = []
  messages : messages c (s.logged c) = own c s.executors.written ++ own c (s.queued r) ++ hand

def Order (s : State ι) (c : ι) (pc : ClientPc ι) : Prop :=
  match pc with
  | .log r m => s.Ordered c r [m]
  | .logAdding r m =>
    (s.phase r c = .sending (some m) ∧ s.Ordered c r [m]) ∨
      ((∀ m', s.phase r c ≠ .sending (some m')) ∧ s.Ordered c r [] ∧ s.Kept r m)
  | _ => ∃ r, s.Ordered c r []

theorem Order.iff_of_enqueues {pc : ClientPc ι} (h : pc.enqueues = 0)
    : Order s c pc ↔ ∃ r, s.Ordered c r [] := by
  cases pc with
  | log r m | logAdding r m => contradiction
  | _ => rfl

namespace State.Ordered

variable {s s' : State ι} {c : ι} {r : Route} {hand : List (ι × Nat)}

variable (h : s.Ordered c r hand)

include h

theorem congr (hlogged : s'.logged c = s.logged c)
    (hwritten : own c s'.executors.written = own c s.executors.written)
    (hqueued : ∀ r, own c (s'.queued r) = own c (s.queued r))
    : s'.Ordered c r hand where
  elsewhere r' hr := (hqueued r').trans (h.elsewhere r' hr)
  messages := by
    rw [hlogged, hwritten, hqueued]
    exact h.messages

theorem reroute (helsewhere : ∀ r'', r'' ≠ r' → own c (s.queued r'') = [])
    : s.Ordered c r' hand := by
  by_cases hr : r' = r
  . rw [hr]
    exact h
  . refine ⟨helsewhere, ?_⟩
    rw [h.messages, helsewhere r (Ne.symm hr), h.elsewhere r' hr]

theorem fst_of_mem_hand (hm : m ∈ hand) : m.1 = c := by
  have hmem : m ∈ ConsoleLogger.messages c (s.logged c) := by
    rw [h.messages]
    exact List.mem_append_right _ hm
  exact fst_of_mem_messages hmem

theorem written_isPrefix : own c s.executors.written <+: ConsoleLogger.messages c (s.logged c) := by
  rw [h.messages, List.append_assoc]
  exact List.prefix_append _ _

end State.Ordered

structure Client (s : State ι) (c : ι) (pc : ClientPc ι) : Prop where
  knows : Knows s c pc
  order : Order s c pc
  hands : ∀ r m, s.phase r c = .sending (some m) → pc = .logAdding r m

section

variable {s : State ι} {c : ι} {pc : ClientPc ι} (h : Client s c pc)

include h

theorem Client.ordered : ∃ r hand, s.Ordered c r hand := by
  have horder := h.order
  cases pc with
  | log r m => exact ⟨r, _, horder⟩
  | logAdding r m =>
    cases horder with
    | inl hsending => exact ⟨r, _, hsending.2⟩
    | inr hdone => exact ⟨r, _, hdone.2.1⟩
  | _ =>
    obtain ⟨r, hordered⟩ := horder
    exact ⟨r, [], hordered⟩

theorem Client.silent (hpc : ∀ r m, pc ≠ .logAdding r m) (r : Route) (m : ι × Nat)
    : s.phase r c ≠ .sending (some m) :=
  fun hphase => hpc r m (h.hands r m hphase)

theorem Client.silent_of_enqueues (hpc : pc.enqueues = 0) (r : Route) (m : ι × Nat)
    : s.phase r c ≠ .sending (some m) := by
  apply h.silent
  intro r' m' hadding
  rw [hadding] at hpc
  contradiction

end

structure Frame (s s' : State ι) (c : ι) : Prop where
  phase : ∀ r, s'.phase r c = s.phase r c
  order : ∀ r hand, s.Ordered c r hand → s'.Ordered c r hand
  kept : ∀ r m, s.Kept r m → s'.Kept r m
  written : ∀ m ∈ s.executors.written, m ∈ s'.executors.written
  returned : ∀ m ∈ s.returned, m ∈ s'.returned
  route : 0 < s.pendingEnqueues → s'.route = s.route
  created : s.executors.created ≤ s'.executors.created
  executor : ∀ i, i < s.executors.created → s'.executor = some i → s.executor = some i

section

variable {s s' : State ι} {c : ι} {pc : ClientPc ι}

theorem Knows.frame (h : Knows s c pc) (hcount : pc.enqueues ≤ s.pendingEnqueues)
    (hframe : Frame s s' c)
    : Knows s' c pc := by
  cases pc with
  | idle | limit | policy => trivial
  | log r m | logAdding r m => exact (hframe.route hcount).trans h
  | config config | shutdown | shutdownWait | shutdownWaiting => exact h
  | close i | closing i =>
    exact ⟨fun hi => h.1 (hframe.executor i h.2 hi), Nat.lt_of_lt_of_le h.2 hframe.created⟩
  | wait before => exact fun m hm => hframe.returned m (h m hm)
  | waitCall r before =>
    exact ⟨Executors.routes_mono hframe.created h.1, fun m hm => hframe.kept r m (h.2 m hm)⟩
  | waiting r before =>
    cases h with
    | inl hwaiting =>
      exact .inl ⟨(hframe.phase r).trans hwaiting.1, fun m hm => hframe.kept r m (hwaiting.2 m hm)⟩
    | inr hdone => exact .inr (fun m hm => hframe.written m (hdone m hm))
  | waitReturned before => exact fun m hm => hframe.written m (h m hm)

theorem Order.frame (h : Order s c pc) (hframe : Frame s s' c) : Order s' c pc := by
  cases pc with
  | log r m => exact hframe.order r _ h
  | logAdding r m =>
    cases h with
    | inl hsending => exact .inl ⟨(hframe.phase r).trans hsending.1, hframe.order r _ hsending.2⟩
    | inr hdone =>
      refine .inr ⟨?_, hframe.order r _ hdone.2.1, hframe.kept r m hdone.2.2⟩
      rw [hframe.phase]
      exact hdone.1
  | _ =>
    obtain ⟨r, hordered⟩ := h
    exact ⟨r, hframe.order r _ hordered⟩

theorem Client.frame (h : Client s c pc) (hcount : pc.enqueues ≤ s.pendingEnqueues)
    (hframe : Frame s s' c)
    : Client s' c pc where
  knows := h.knows.frame hcount hframe
  order := h.order.frame hframe
  hands := by
    intro r m hphase
    rw [hframe.phase] at hphase
    exact h.hands r m hphase

end

end Order

section Inv

variable [DecidableEq ι] [Fintype ι]

structure Inv (s : State ι) : Prop where
  sound : s.executors.Sound
  clients : ∀ c, Client s c (s.clients c)
  returned : ∀ m ∈ s.returned, ∃ r, s.Kept r m
  unused : ∀ r, r ∉ s.executors.routes → Executors.Unused (s.executors.view r)
  running : ∀ r, s.route = some r → (s.executors.view r).stopped = false
  executor : ∀ i, s.executor = some i → s.config.async = true ∧ i < s.executors.created
  policy : s.config.queuePolicy = .block
  live : s.shutdown = false
  pendingEnqueues : s.pendingEnqueues = threadSum ClientPc.enqueues s.clients

variable {s s' : State ι} {c : ι} {pc : ClientPc ι}

theorem Inv.enqueues_le (h : Inv s) (c : ι) : (s.clients c).enqueues ≤ s.pendingEnqueues := by
  rw [h.pendingEnqueues]
  exact le_threadSum ClientPc.enqueues s.clients c

theorem Inv.mem_routes (h : Inv s) (hroute : s.route = some r) : r ∈ s.executors.routes := by
  cases r with
  | global => exact s.executors.global_mem_routes
  | dedicated i =>
    exact Executors.dedicated_mem_routes.mpr (h.executor i (AsyncConfig.executor_of_route hroute)).2

theorem Inv.move (h : Inv s) (hsound : s'.executors.Sound)
    (hclients : s'.clients = Function.update s.clients c pc)
    (hcount : s'.pendingEnqueues + (s.clients c).enqueues = s.pendingEnqueues + pc.enqueues)
    (hframe : ∀ c', c' ≠ c → Frame s s' c') (hself : Client s' c pc)
    (hreturned : ∀ m ∈ s'.returned, ∃ r, s'.Kept r m)
    (hunused : ∀ r, r ∉ s'.executors.routes → Executors.Unused (s'.executors.view r))
    (hrunning : ∀ r, s'.route = some r → (s'.executors.view r).stopped = false)
    (hexecutor : ∀ i, s'.executor = some i → s'.config.async = true ∧ i < s'.executors.created)
    (hpolicy : s'.config.queuePolicy = .block) (hlive : s'.shutdown = false)
    : Inv s' where
  sound := hsound
  clients := by
    intro c'
    rw [hclients]
    by_cases hc : c' = c
    . rw [hc, Function.update_self]
      exact hself
    . rw [Function.update_of_ne hc]
      exact (h.clients c').frame (h.enqueues_le c') (hframe c' hc)
  returned := hreturned
  unused := hunused
  running := hrunning
  executor := hexecutor
  policy := hpolicy
  live := hlive
  pendingEnqueues := by
    have hsum := threadSum_update ClientPc.enqueues s.clients c pc
    rw [hclients]
    have hold := h.pendingEnqueues
    omega

structure Own (s s' : State ι) (c : ι) : Prop where
  keeps : s.executors.Keeps s'.executors c
  config : s'.config = s.config
  executor : s'.executor = s.executor
  shutdown : s'.shutdown = s.shutdown
  stopped : ∀ r, s'.route = some r →
    (s'.executors.view r).stopped = (s.executors.view r).stopped
  unused : ∀ r, r ∉ s.executors.routes → s'.executors.view r = s.executors.view r

namespace Own

omit [DecidableEq ι] in
theorem route (h : Own s s' c) : s'.route = s.route := by
  unfold State.route
  rw [h.config, h.executor]

omit [DecidableEq ι] in
theorem queued (h : Own s s' c) (r : Route) : s'.queued r = s.queued r :=
  h.keeps.pending r

omit [DecidableEq ι] in
theorem kept (h : Own s s' c) (hm : s.Kept r m) : s'.Kept r m := by
  unfold State.Kept
  rw [h.keeps.written, h.queued]
  exact hm

theorem ordered (h : Own s s' c) (hlogged : s'.logged c' = s.logged c')
    (hordered : s.Ordered c' r hand)
    : s'.Ordered c' r hand := by
  apply hordered.congr hlogged
  . rw [h.keeps.written]
  . intro r'
    rw [h.queued]

omit [DecidableEq ι] in
theorem of_executors (hsound : s.executors.Sound) (hexecutors : s'.executors = s.executors)
    (hconfig : s'.config = s.config) (hexecutor : s'.executor = s.executor)
    (hshutdown : s'.shutdown = s.shutdown)
    : Own s s' c where
  keeps := .of_eq hsound hexecutors
  config := hconfig
  executor := hexecutor
  shutdown := hshutdown
  stopped r _ := by rw [hexecutors]
  unused r _ := by rw [hexecutors]

theorem of_changes {r : Route} {p : Phase (ι × Nat)} {stopped : Bool} (hr : r ∈ s.executors.routes)
    (hchanges : s.executors.Changes r none
      { (s.executors.view r).setPhase c p with stopped := stopped } s'.executors)
    (hstopped : s'.route = some r → stopped = (s.executors.view r).stopped)
    (hconfig : s'.config = s.config) (hexecutor : s'.executor = s.executor)
    (hshutdown : s'.shutdown = s.shutdown)
    : Own s s' c where
  keeps := hchanges.keeps
  config := hconfig
  executor := hexecutor
  shutdown := hshutdown
  stopped r' hroute := by
    by_cases hsame : r' = r
    . rw [hsame] at hroute ⊢
      rw [hchanges.here]
      exact hstopped hroute
    . rw [hchanges.elsewhere r' hsame]
  unused r' hr' := by
    apply hchanges.elsewhere
    intro hsame
    rw [hsame] at hr'
    exact hr' hr

end Own

theorem Inv.byOwn (h : Inv s) (hown : Own s s' c)
    (hclients : s'.clients = Function.update s.clients c pc)
    (hcount : s'.pendingEnqueues + (s.clients c).enqueues = s.pendingEnqueues + pc.enqueues)
    (hlogged : ∀ c', c' ≠ c → s'.logged c' = s.logged c')
    (hreturned : ∀ m ∈ s.returned, m ∈ s'.returned)
    (hkept : ∀ m ∈ s'.returned, ∃ r, s.Kept r m) (hself : Client s' c pc)
    : Inv s' := by
  apply h.move hown.keeps.sound hclients hcount
  . intro c' hc
    constructor
    . exact fun r => hown.keeps.phase r c' hc
    . exact fun r hand => hown.ordered (hlogged c' hc)
    . exact fun r m => hown.kept
    . rw [hown.keeps.written]
      exact fun m hm => hm
    . exact hreturned
    . exact fun _ => hown.route
    . rw [hown.keeps.created]
    . rw [hown.executor]
      exact fun _ _ hi => hi
  . exact hself
  . intro m hm
    obtain ⟨r, hr⟩ := hkept m hm
    exact ⟨r, hown.kept hr⟩
  . intro r hr
    unfold Executors.routes at hr
    rw [hown.keeps.created] at hr
    rw [hown.unused r hr]
    exact h.unused r hr
  . intro r hroute
    rw [hown.stopped r hroute]
    rw [hown.route] at hroute
    exact h.running r hroute
  . rw [hown.config, hown.executor, hown.keeps.created]
    exact h.executor
  . rw [hown.config]
    exact h.policy
  . rw [hown.shutdown]
    exact h.live

theorem Inv.turn (h : Inv s) (hold : (s.clients c).enqueues = 0) (hnew : pc.enqueues = 0)
    (hknows : Knows s c pc)
    : Inv (s.setClient c pc) := by
  have hclient := h.clients c
  have hown : Own s (s.setClient c pc) c := .of_executors h.sound rfl rfl rfl rfl
  apply h.byOwn hown rfl
  . rw [hold, hnew]
    rfl
  . exact fun _ _ => rfl
  . exact fun _ hm => hm
  . exact h.returned
  . obtain ⟨r, hordered⟩ := (Order.iff_of_enqueues hold).mp hclient.order
    refine ⟨?_, (Order.iff_of_enqueues hnew).mpr ⟨r, hown.ordered rfl hordered⟩, ?_⟩
    . cases pc with
      | _ => exact hknows
    . intro r' m hphase
      exact absurd hphase (hclient.silent_of_enqueues hold r' m)

theorem Inv.call {r : Route} {p : Phase (ι × Nat)} {stopped : Bool} (h : Inv s)
    (hr : r ∈ s.executors.routes)
    (hchanges : s.executors.Changes r none
      { (s.executors.view r).setPhase c p with stopped := stopped } s'.executors)
    (hstopped : s'.route = some r → stopped = (s.executors.view r).stopped)
    (hp : ∀ m, p ≠ .sending (some m)) (hconfig : s'.config = s.config)
    (hexecutor : s'.executor = s.executor) (hshutdown : s'.shutdown = s.shutdown)
    (hclients : s'.clients = Function.update s.clients c pc)
    (hpending : s'.pendingEnqueues = s.pendingEnqueues) (hlogged : s'.logged = s.logged)
    (hreturned : s'.returned = s.returned) (hold : (s.clients c).enqueues = 0)
    (hnew : pc.enqueues = 0) (hknows : Own s s' c → s'.phase r c = p → Knows s' c pc)
    : Inv s' := by
  have hclient := h.clients c
  have hown : Own s s' c := .of_changes hr hchanges hstopped hconfig hexecutor hshutdown
  apply h.byOwn hown hclients
  . rw [hold, hnew, hpending]
  . intro c' _
    rw [hlogged]
  . rw [hreturned]
    exact fun _ hm => hm
  . rw [hreturned]
    exact h.returned
  . obtain ⟨r', hordered⟩ := (Order.iff_of_enqueues hold).mp hclient.order
    have hordered' := hown.ordered (congrFun hlogged c) hordered
    refine ⟨hknows hown hchanges.phase_self, (Order.iff_of_enqueues hnew).mpr ⟨r', hordered'⟩, ?_⟩
    intro r'' m hphase
    exact absurd hphase (hchanges.silent (hclient.silent_of_enqueues hold) hp r'' m)

end Inv
end ConsoleLogger
end LogIt
