import LogIt.Logger.Impl.Registry

namespace LogIt.Logger

variable {ι : Type}

def LogPhase.remaining (phase : LogPhase) (rest : List Nat) : List Nat :=
  match phase with
  | .logging | .leave | .throwing => rest.tail
  | _ => rest

def LogPhase.allowed (phase : LogPhase) : Bool :=
  match phase with
  | .singleMode | .enabled | .level | .format | .logging => true
  | _ => false

def ShutdownPhase.remaining (phase : ShutdownPhase) (rest : List Nat) : List Nat :=
  match phase with
  | .next | .enter => rest
  | _ => rest.tail

def LogRecord.receivers (record : LogRecord) (size : Nat) : List Nat :=
  if record.targeted then [record.loggerIndex.toNat] else List.range size

structure Selected (record : LogRecord) (size : Nat) (strategies : List Nat) : Prop where
  receivers : strategies.Sublist (record.receivers size)
  registered : ∀ p ∈ strategies, p < size

structure Dispatching (m : Registry ι) (i : ι) (phase : LogPhase) (p : Nat) : Prop where
  registered : p < m.size
  owns : (m.strategies p).concurrentDispatch = false → m.execOwner p = some i
  allowed : (m.strategies p).concurrentDispatch = false → phase.allowed = true →
    p ∉ m.shutdownCalls

structure Closing (m : Registry ι) (i : ι) (copied : Bool) : Prop where
  first : m.first = some i
  copied : m.copied = copied

def Local (m : Registry ι) (i : ι) (pc : Pc) : Prop :=
  match pc with
  | .addCheck _ | .addPublish | .setStore _ _ | .unlock => m.registryOwner = some i
  | .addPush _ => m.registryOwner = some i ∧ m.copied = false
  | .log record rest invoked phase =>
    Selected record m.size (invoked ++ phase.remaining rest)
      ∧ (phase ≠ .next → ∀ p ∈ rest.head?, Dispatching m i phase p)
  | .shutdownLock => Closing m i false ∧ m.shutdownCalls = []
  | .shutdownCopy => m.registryOwner = some i ∧ Closing m i false ∧ m.shutdownCalls = []
  | .shutdownUnlock rest =>
    m.registryOwner = some i ∧ Closing m i true ∧ m.shutdownCalls ++ rest = m.loggers
  | .shutdown rest phase =>
    Closing m i true ∧ m.shutdownCalls ++ phase.remaining rest = m.loggers
      ∧ (phase ≠ .next → ∀ p ∈ rest.head?, m.execOwner p = some i)
  | .shutdownExecutor => Closing m i true ∧ m.shutdownCalls = m.loggers
  | _ => True

structure Global (m : Registry ι) : Prop where
  opened : m.isShutdown = false → m.first = none ∧ m.copied = false ∧ m.shutdownCalls = []
  snapshot : ∀ strategies, m.snapshot = some strategies → ∃ n ≤ m.size, strategies = List.range n
  calls : m.shutdownCalls <+: m.loggers
  returned : m.firstReturned = true → m.copied = true ∧ m.shutdownCalls = m.loggers

section Rely

structure Advances (m m' : Registry ι) : Prop where
  size_le : m.size ≤ m'.size
  size_eq : m.copied = true → m'.size = m.size
  concurrentDispatch : ∀ p < m.size,
    (m'.strategies p).concurrentDispatch = (m.strategies p).concurrentDispatch
  firstReturned : m.firstReturned = true → m'.firstReturned = true

structure Rely (i : ι) (m m' : Registry ι) : Prop extends Advances m m' where
  registryOwner : m.registryOwner = some i → m'.registryOwner = some i ∧ m'.copied = m.copied
  execOwner : ∀ p, m.execOwner p = some i →
    m'.execOwner p = some i ∧ (p ∈ m'.shutdownCalls → p ∈ m.shutdownCalls)
  first : m.first = some i → m'.first = some i ∧ m'.copied = m.copied
    ∧ m'.shutdownCalls = m.shutdownCalls

variable {i : ι} {m m' : Registry ι}

theorem Selected.mono (h : Selected record size strategies) (hsize : size ≤ size')
    : Selected record size' strategies where
  receivers := by
    apply h.receivers.trans
    unfold LogRecord.receivers
    split
    . exact List.Sublist.refl _
    . exact List.range_sublist.mpr hsize
  registered p hp := Nat.lt_of_lt_of_le (h.registered p hp) hsize

theorem Selected.sublist (h : Selected record size strategies)
    (hsub : strategies'.Sublist strategies)
    : Selected record size strategies' where
  receivers := hsub.trans h.receivers
  registered p hp := h.registered p (hsub.subset hp)

variable (hrely : Rely i m m')

include hrely

theorem Dispatching.rely (h : Dispatching m i phase p) : Dispatching m' i phase p where
  registered := Nat.lt_of_lt_of_le h.registered hrely.size_le
  owns hp := by
    rw [hrely.concurrentDispatch p h.registered] at hp
    exact (hrely.execOwner p (h.owns hp)).1
  allowed hp hphase := by
    rw [hrely.concurrentDispatch p h.registered] at hp
    intro hcall
    exact h.allowed hp hphase ((hrely.execOwner p (h.owns hp)).2 hcall)

theorem Closing.rely {copied : Bool} (h : Closing m i copied)
    : Closing m' i copied ∧ m'.shutdownCalls = m.shutdownCalls := by
  obtain ⟨hfirst, hcopied, hcalls⟩ := hrely.first h.first
  exact ⟨⟨hfirst, hcopied.trans h.copied⟩, hcalls⟩

theorem Closing.loggers_eq (h : Closing m i true) : m'.loggers = m.loggers := by
  unfold Registry.loggers
  rw [hrely.size_eq h.copied]

theorem Local.rely (h : Local m i pc) : Local m' i pc := by
  cases pc with
  | addCheck strategy | addPublish | setStore index flag | unlock => exact (hrely.registryOwner h).1
  | addPush strategy =>
    obtain ⟨howner, hcopied⟩ := hrely.registryOwner h.1
    exact ⟨howner, hcopied.trans h.2⟩
  | log record rest invoked phase =>
    refine ⟨h.1.mono hrely.size_le, ?_⟩
    intro hphase p hp
    exact (h.2 hphase p hp).rely hrely
  | shutdownLock =>
    obtain ⟨hclosing, hcalls⟩ := h.1.rely hrely
    exact ⟨hclosing, hcalls.trans h.2⟩
  | shutdownCopy =>
    obtain ⟨howner, hclosing, hcalls⟩ := h
    obtain ⟨hclosing', hcalls'⟩ := hclosing.rely hrely
    exact ⟨(hrely.registryOwner howner).1, hclosing', hcalls'.trans hcalls⟩
  | shutdownUnlock rest =>
    obtain ⟨howner, hclosing, hcalls⟩ := h
    obtain ⟨hclosing', hcalls'⟩ := hclosing.rely hrely
    refine ⟨(hrely.registryOwner howner).1, hclosing', ?_⟩
    rw [hcalls', hcalls, hclosing.loggers_eq hrely]
  | shutdown rest phase =>
    obtain ⟨hclosing, hcalls, howner⟩ := h
    obtain ⟨hclosing', hcalls'⟩ := hclosing.rely hrely
    refine ⟨hclosing', ?_, ?_⟩
    . rw [hcalls', hcalls, hclosing.loggers_eq hrely]
    . intro hphase p hp
      exact (hrely.execOwner p (howner hphase p hp)).1
  | shutdownExecutor =>
    obtain ⟨hclosing, hcalls⟩ := h
    obtain ⟨hclosing', hcalls'⟩ := hclosing.rely hrely
    refine ⟨hclosing', ?_⟩
    rw [hcalls', hcalls, hclosing.loggers_eq hrely]
  | idle | addStart registration | addLock strategy | setStart index flag | setLock index flag
  | logStart record | logLoad record | shutdownStart => trivial

end Rely
end LogIt.Logger

namespace LogIt.Logger

open Function

variable {ι : Type} {m : Registry ι} {i : ι} {p : Nat}

structure Guarantee (m : Registry ι) (i : ι) (m' : Registry ι) : Prop where
  global : Global m'
  advances : Advances m m'
  rely : ∀ j, j ≠ i → Rely j m m'

/-! One lemma for each way in which the memory changes. -/

theorem Advances.of_eq (hsize : m'.size = m.size) (hstrategies : m'.strategies = m.strategies)
    (hreturned : m.firstReturned = true → m'.firstReturned = true)
    : Advances m m' where
  size_le := Nat.le_of_eq hsize.symm
  size_eq _ := hsize
  concurrentDispatch p _ := by rw [hstrategies]
  firstReturned := hreturned

theorem Advances.rely (h : Advances m m') (hregistry : m'.registryOwner = m.registryOwner)
    (hexec : m'.execOwner = m.execOwner) (hfirst : m'.first = m.first)
    (hcopied : m'.copied = m.copied) (hcalls : m'.shutdownCalls = m.shutdownCalls)
    : Rely j m m' where
  toAdvances := h
  registryOwner howner := ⟨hregistry.trans howner, hcopied⟩
  execOwner p howner := by
    rw [hexec, hcalls]
    exact ⟨howner, id⟩
  first h := ⟨hfirst.trans h, hcopied, hcalls⟩

theorem Guarantee.refl (hglobal : Global m) : Guarantee m i m where
  global := hglobal
  advances := Advances.of_eq rfl rfl id
  rely _ _ := by
    apply Advances.rely
    . exact Advances.of_eq rfl rfl id
    all_goals rfl

theorem Guarantee.setRegistryOwner (hglobal : Global m)
    (howner : ∀ j, j ≠ i → m.registryOwner ≠ some j)
    : Guarantee m i (m.setRegistryOwner owner) where
  global := ⟨hglobal.opened, hglobal.snapshot, hglobal.calls, hglobal.returned⟩
  advances := Advances.of_eq rfl rfl id
  rely j hj := {
    toAdvances := Advances.of_eq rfl rfl id
    registryOwner h := absurd h (howner j hj)
    execOwner _ h := ⟨h, id⟩
    first h := ⟨h, rfl, rfl⟩ }

theorem Guarantee.setExecOwner (hglobal : Global m) (howner : ∀ j, j ≠ i → m.execOwner p ≠ some j)
    : Guarantee m i (m.setExecOwner p owner) where
  global := ⟨hglobal.opened, hglobal.snapshot, hglobal.calls, hglobal.returned⟩
  advances := Advances.of_eq rfl rfl id
  rely j hj := {
    toAdvances := Advances.of_eq rfl rfl id
    registryOwner h := ⟨h, rfl⟩
    execOwner q h := by
      have hq : q ≠ p := by
        rintro rfl
        exact howner j hj h
      refine ⟨?_, id⟩
      exact (update_of_ne hq _ _).trans h
    first h := ⟨h, rfl, rfl⟩ }

theorem loggers_pushBack (strategy : LoggerStrategy)
    : (m.pushBack strategy).loggers = m.loggers ++ [m.size] := by
  exact List.range_succ

theorem Advances.pushBack (hcopied : m.copied = false) (strategy : LoggerStrategy)
    : Advances m (m.pushBack strategy) where
  size_le := Nat.le_succ _
  size_eq h := by
    rw [hcopied] at h
    contradiction
  concurrentDispatch p hp := by
    unfold Registry.pushBack
    dsimp only
    rw [update_of_ne (Nat.ne_of_lt hp)]
  firstReturned := id

theorem Guarantee.pushBack (hglobal : Global m) (hcopied : m.copied = false)
    (strategy : LoggerStrategy)
    : Guarantee m i (m.pushBack strategy) where
  global := {
    opened := hglobal.opened
    snapshot := by
      intro strategies h
      obtain ⟨n, hn, hstrategies⟩ := hglobal.snapshot strategies h
      exact ⟨n, Nat.le_succ_of_le hn, hstrategies⟩
    calls := by
      rw [loggers_pushBack]
      exact hglobal.calls.trans (List.prefix_append _ _)
    returned := by
      intro h
      have hreturned := (hglobal.returned h).1
      rw [hcopied] at hreturned
      contradiction }
  advances := Advances.pushBack hcopied strategy
  rely _ _ := (Advances.pushBack hcopied strategy).rely rfl rfl rfl rfl rfl

theorem Guarantee.publish (hglobal : Global m)
    : Guarantee m i m.publishStrategySnapshotLocked where
  global := {
    opened := hglobal.opened
    snapshot := by
      intro strategies h
      cases h
      exact ⟨m.size, Nat.le_refl _, rfl⟩
    calls := hglobal.calls
    returned := hglobal.returned }
  advances := Advances.of_eq rfl rfl id
  rely _ _ := by
    apply Advances.rely
    . exact Advances.of_eq rfl rfl id
    all_goals rfl

theorem concurrentDispatch_store (flag : Flag) (strategy : LoggerStrategy)
    : (flag.store strategy).concurrentDispatch = strategy.concurrentDispatch := by
  cases flag with
  | enabled value => rfl
  | singleMode value => rfl

theorem Guarantee.storeFlag (hglobal : Global m) (index : Int) (flag : Flag)
    : Guarantee m i (m.storeFlag index flag) := by
  unfold Registry.storeFlag
  split
  . have hadvances : Advances m { m with
        strategies := update m.strategies index.toNat
          (flag.store (m.strategies index.toNat)) } := by
      refine ⟨Nat.le_refl _, fun _ => rfl, ?_, id⟩
      intro p _
      dsimp only
      by_cases hp : p = index.toNat
      . rw [hp, update_self, concurrentDispatch_store]
      . rw [update_of_ne hp]
    refine ⟨⟨hglobal.opened, hglobal.snapshot, hglobal.calls, hglobal.returned⟩, hadvances, ?_⟩
    intro j _
    exact hadvances.rely rfl rfl rfl rfl rfl
  . exact Guarantee.refl hglobal

theorem Guarantee.exchange (hglobal : Global m) (hopen : m.isShutdown = false)
    : Guarantee m i { m with isShutdown := true, first := some i } where
  global := {
    opened h := by contradiction
    snapshot := hglobal.snapshot
    calls := hglobal.calls
    returned := hglobal.returned }
  advances := Advances.of_eq rfl rfl id
  rely j _ := {
    toAdvances := Advances.of_eq rfl rfl id
    registryOwner h := ⟨h, rfl⟩
    execOwner _ h := ⟨h, id⟩
    first h := by
      rw [(hglobal.opened hopen).1] at h
      contradiction }

theorem Closing.isShutdown {copied : Bool} (h : Closing m i copied) (hglobal : Global m)
    : m.isShutdown = true := by
  rw [← Bool.not_eq_false]
  intro hopen
  have hfirst := (hglobal.opened hopen).1
  rw [h.first] at hfirst
  contradiction

theorem Closing.not_first {copied : Bool} (h : Closing m i copied) {j : ι} (hj : j ≠ i)
    : m.first ≠ some j := by
  rw [h.first]
  intro hfirst
  exact hj (Option.some.inj hfirst).symm

theorem Guarantee.copy (hglobal : Global m) (hclosing : Closing m i false)
    (howner : m.registryOwner = some i)
    : Guarantee m i { m with copied := true } where
  global := {
    opened h := by
      have hshutdown := hclosing.isShutdown hglobal
      rw [show m.isShutdown = false from h] at hshutdown
      contradiction
    snapshot := hglobal.snapshot
    calls := hglobal.calls
    returned h := ⟨rfl, (hglobal.returned h).2⟩ }
  advances := Advances.of_eq rfl rfl id
  rely j hj := {
    toAdvances := Advances.of_eq rfl rfl id
    registryOwner h := by
      rw [howner] at h
      exact absurd (Option.some.inj h).symm hj
    execOwner _ h := ⟨h, id⟩
    first h := absurd h (hclosing.not_first hj) }

theorem Guarantee.enter (hglobal : Global m) (hclosing : Closing m i true)
    (howner : m.execOwner p = some i) (hcalls : m.shutdownCalls ++ p :: tail = m.loggers)
    : Guarantee m i { m with shutdownCalls := m.shutdownCalls ++ [p] } where
  global := {
    opened h := by
      have hshutdown := hclosing.isShutdown hglobal
      rw [show m.isShutdown = false from h] at hshutdown
      contradiction
    snapshot := hglobal.snapshot
    calls := by
      refine ⟨tail, ?_⟩
      rw [List.append_assoc]
      exact hcalls
    returned h := by
      have hreturned := (hglobal.returned h).2
      rw [← hcalls] at hreturned
      simp at hreturned }
  advances := Advances.of_eq rfl rfl id
  rely j hj := {
    toAdvances := Advances.of_eq rfl rfl id
    registryOwner h := ⟨h, rfl⟩
    execOwner q h := by
      refine ⟨h, ?_⟩
      intro hcall
      cases List.mem_append.mp hcall with
      | inl hcall => exact hcall
      | inr hcall =>
        rw [List.mem_singleton.mp hcall, howner] at h
        exact absurd (Option.some.inj h).symm hj
    first h := absurd h (hclosing.not_first hj) }

theorem Guarantee.leave (hglobal : Global m) (hclosing : Closing m i true)
    (hcalls : m.shutdownCalls = m.loggers)
    : Guarantee m i { m with firstReturned := true } where
  global := {
    opened := hglobal.opened
    snapshot := hglobal.snapshot
    calls := hglobal.calls
    returned _ := ⟨hclosing.copied, hcalls⟩ }
  advances := Advances.of_eq rfl rfl (fun _ => rfl)
  rely _ _ := by
    apply Advances.rely
    . exact Advances.of_eq rfl rfl (fun _ => rfl)
    all_goals rfl

section Steps

variable {m' : Registry ι} {pc pc' : Pc}

def Sound (m : Registry ι) (i : ι) (m' : Registry ι) (pc' : Pc) : Prop :=
  Guarantee m i m' ∧ Local m' i pc'

section

variable (hglobal : Global m)

include hglobal

theorem sound_lockRegistry (h : m.lockRegistry i pc = some (m', pc'))
    (hlocal : Local (m.setRegistryOwner (some i)) i pc)
    : Sound m i m' pc' := by
  unfold Registry.lockRegistry at h
  split at h
  . next hfree =>
    cases h
    refine ⟨Guarantee.setRegistryOwner hglobal ?_, hlocal⟩
    intro j _
    rw [hfree]
    exact Option.some_ne_none j |>.symm
  . contradiction

theorem sound_unlockRegistry (howner : m.registryOwner = some i)
    (hlocal : Local (m.setRegistryOwner none) i pc)
    : Sound m i (m.setRegistryOwner none) pc := by
  refine ⟨Guarantee.setRegistryOwner hglobal ?_, hlocal⟩
  intro j hj
  rw [howner]
  intro h
  exact hj (Option.some.inj h).symm

theorem sound_lockExec (h : m.lockExec i p pc = some (m', pc'))
    (hlocal : Local (m.setExecOwner p (some i)) i pc)
    : Sound m i m' pc' := by
  unfold Registry.lockExec at h
  split at h
  . next hfree =>
    cases h
    refine ⟨Guarantee.setExecOwner hglobal ?_, hlocal⟩
    intro j _
    rw [hfree]
    exact Option.some_ne_none j |>.symm
  . contradiction

theorem guarantee_unlockExec (howner : m.execOwner p = some i)
    : Guarantee m i (m.setExecOwner p none) := by
  apply Guarantee.setExecOwner hglobal
  intro j hj
  rw [howner]
  intro h
  exact hj (Option.some.inj h).symm

theorem guarantee_unlockDispatch (h : Dispatching m i phase p)
    : Guarantee m i (m.unlockDispatch p) := by
  unfold Registry.unlockDispatch
  split
  . exact Guarantee.refl hglobal
  . next hconcurrent => exact guarantee_unlockExec hglobal (h.owns (by simpa using hconcurrent))

end

theorem size_unlockDispatch : (m.unlockDispatch p).size = m.size := by
  unfold Registry.unlockDispatch
  split
  . rfl
  . rfl

section Log

variable {record : LogRecord} {rest invoked : List Nat} {phase : LogPhase}

theorem Dispatching.of_phase (h : Dispatching m i phase p)
    (hphase : phase'.allowed = true → phase.allowed = true)
    : Dispatching m i phase' p where
  __ := h
  allowed hp hallowed := h.allowed hp (hphase hallowed)

theorem sound_phase (hglobal : Global m) (h : Local m i (.log record rest invoked phase))
    (hnext : phase ≠ .next) (hremaining : (phase'.remaining rest).Sublist (phase.remaining rest))
    (hallowed : phase'.allowed = true → phase.allowed = true)
    : Sound m i m (.log record rest invoked phase') := by
  refine ⟨Guarantee.refl hglobal, h.1.sublist (hremaining.append_left _), ?_⟩
  intro _ q hq
  exact (h.2 hnext q hq).of_phase hallowed

theorem dispatching_of_local (h : Local m i (.log record (p :: tail) invoked phase))
    (hnext : phase ≠ .next)
    : Dispatching m i phase p :=
  h.2 hnext p rfl

theorem local_check (h : Local m i (.log record (p :: tail) invoked .next))
    (hsize : m'.size = m.size)
    (howner : (m'.strategies p).concurrentDispatch = false → m'.execOwner p = some i)
    : Local m' i (.log record (p :: tail) invoked .check) := by
  refine ⟨?_, ?_⟩
  . rw [hsize]
    exact h.1
  . intro _ q hq
    cases hq
    refine ⟨?_, howner, ?_⟩
    . rw [hsize]
      apply h.1.registered
      simp [LogPhase.remaining]
    . intro _ hallowed
      contradiction

theorem sound_runLog (hglobal : Global m) (h : Local m i (.log record rest invoked phase))
    (hrun : runLog m i record rest invoked phase = some (m', pc'))
    : Sound m i m' pc' := by
  cases rest with
  | nil =>
    cases hrun
    exact ⟨Guarantee.refl hglobal, trivial⟩
  | cons p tail =>
    have htail : tail.Sublist (p :: tail) := List.sublist_cons_self p tail
    cases phase with
    | next =>
      dsimp only [runLog] at hrun
      split at hrun
      . next hconcurrent =>
        cases hrun
        refine ⟨Guarantee.refl hglobal, local_check h rfl ?_⟩
        rw [hconcurrent]
        exact Bool.noConfusion
      . apply sound_lockExec hglobal hrun
        apply local_check h
        . rfl
        . intro _
          exact update_self _ _ _
    | check =>
      cases hrun
      split
      . exact sound_phase hglobal h (by decide) htail id
      . next hopen =>
        -- The load finds `m_shutdown` unset, so no backend was shut down before it.
        have hcalls := (hglobal.opened (by simpa using hopen)).2.2
        refine ⟨Guarantee.refl hglobal, h.1, ?_⟩
        intro _ q hq
        have hdispatching := h.2 (by decide) q hq
        refine ⟨hdispatching.registered, hdispatching.owns, ?_⟩
        intro _ _
        rw [hcalls]
        exact List.not_mem_nil
    | singleMode =>
      cases hrun
      split
      . exact sound_phase hglobal h (by decide) htail (fun _ => rfl)
      . exact sound_phase hglobal h (by decide) (List.Sublist.refl _) (fun _ => rfl)
    | enabled =>
      cases hrun
      split
      . exact sound_phase hglobal h (by decide) (List.Sublist.refl _) (fun _ => rfl)
      . exact sound_phase hglobal h (by decide) htail (fun _ => rfl)
    | level => contradiction
    | format =>
      cases hrun
      refine ⟨Guarantee.refl hglobal, ?_, ?_⟩
      . rw [List.append_assoc]
        exact h.1
      . intro _ q hq
        exact (h.2 (by decide) q hq).of_phase (fun _ => rfl)
    | logging =>
      cases hrun
      exact sound_phase hglobal h (by decide) (List.Sublist.refl _) (fun _ => rfl)
    | leave =>
      cases hrun
      refine ⟨guarantee_unlockDispatch hglobal (dispatching_of_local h (by decide)), ?_, ?_⟩
      . rw [size_unlockDispatch]
        exact h.1
      . intro hnext
        contradiction
    | throwing =>
      cases hrun
      exact ⟨guarantee_unlockDispatch hglobal (dispatching_of_local h (by decide)), trivial⟩

end Log

section Shutdown

variable {rest : List Nat} {phase : ShutdownPhase}

theorem sound_runShutdown (hglobal : Global m) (h : Local m i (.shutdown rest phase))
    (hrun : runShutdown m i rest phase = some (m', pc'))
    : Sound m i m' pc' := by
  obtain ⟨hclosing, hcalls, howner⟩ := h
  cases rest with
  | nil =>
    cases hrun
    refine ⟨Guarantee.refl hglobal, hclosing, ?_⟩
    rw [← hcalls]
    cases phase <;> simp [ShutdownPhase.remaining]
  | cons p tail =>
    cases phase with
    | next =>
      apply sound_lockExec hglobal hrun
      refine ⟨⟨hclosing.first, hclosing.copied⟩, hcalls, ?_⟩
      intro _ q hq
      cases hq
      exact update_self _ _ _
    | enter =>
      cases hrun
      refine ⟨Guarantee.enter hglobal hclosing (howner (by decide) p rfl) hcalls,
        ⟨hclosing.first, hclosing.copied⟩, ?_, ?_⟩
      . dsimp only [ShutdownPhase.remaining]
        rw [List.append_assoc]
        exact hcalls
      . intro _
        exact howner (by decide)
    | inside =>
      cases hrun
      refine ⟨Guarantee.refl hglobal, hclosing, hcalls, ?_⟩
      intro _
      exact howner (by decide)
    | leave =>
      cases hrun
      refine ⟨guarantee_unlockExec hglobal (howner (by decide) p rfl),
        ⟨hclosing.first, hclosing.copied⟩, hcalls, ?_⟩
      intro hnext
      contradiction
    | throwing =>
      cases hrun
      exact ⟨guarantee_unlockExec hglobal (howner (by decide) p rfl), trivial⟩

end Shutdown

theorem local_dispatch (hglobal : Global m) (record : LogRecord)
    : Local m i (dispatch m.snapshot record) := by
  unfold dispatch
  split
  . trivial
  . next strategies hsnapshot =>
    obtain ⟨n, hn, rfl⟩ := hglobal.snapshot strategies hsnapshot
    split
    . next htargeted =>
      split
      . trivial
      . next p hp =>
        obtain ⟨hlt, hp⟩ := List.getElem?_eq_some_iff.mp hp
        rw [List.getElem_range] at hp
        rw [List.length_range] at hlt
        refine ⟨⟨?_, ?_⟩, ?_⟩
        . unfold LogRecord.receivers
          rw [if_pos htargeted, hp]
          exact List.Sublist.refl _
        . intro q hq
          have hq : q = p := List.mem_singleton.mp hq
          omega
        . intro hnext
          contradiction
    . next htargeted =>
      refine ⟨⟨?_, ?_⟩, ?_⟩
      . unfold LogRecord.receivers
        rw [if_neg htargeted]
        exact List.range_sublist.mpr hn
      . intro q hq
        have hq : q < n := List.mem_range.mp hq
        omega
      . intro hnext
        contradiction

section

variable (hglobal : Global m) (h : Local m i pc)

include hglobal h

theorem sound_run (hrun : run m i pc = some (m', pc')) : Sound m i m' pc' := by
  cases pc with
  | idle => contradiction
  | addStart registration | setStart index flag | logStart record =>
    cases hrun
    refine ⟨Guarantee.refl hglobal, ?_⟩
    split
    . trivial
    . trivial
  | addLock strategy | setLock index flag => exact sound_lockRegistry hglobal hrun rfl
  | addCheck strategy =>
    cases hrun
    refine ⟨Guarantee.refl hglobal, ?_⟩
    split
    . exact h
    . next hopen => exact ⟨h, (hglobal.opened (by simpa using hopen)).2.1⟩
  | addPush strategy =>
    cases hrun
    exact ⟨Guarantee.pushBack hglobal h.2 strategy, h.1⟩
  | addPublish =>
    cases hrun
    exact ⟨Guarantee.publish hglobal, h⟩
  | setStore index flag =>
    cases hrun
    refine ⟨Guarantee.storeFlag hglobal index flag, ?_⟩
    unfold Registry.storeFlag
    split
    . exact h
    . exact h
  | unlock =>
    cases hrun
    exact sound_unlockRegistry hglobal h trivial
  | logLoad record =>
    cases hrun
    exact ⟨Guarantee.refl hglobal, local_dispatch hglobal record⟩
  | log record rest invoked phase => exact sound_runLog hglobal h hrun
  | shutdownStart =>
    dsimp only [run] at hrun
    split at hrun
    . cases hrun
      exact ⟨Guarantee.refl hglobal, trivial⟩
    . next hopen =>
      cases hrun
      have hopen : m.isShutdown = false := by simpa using hopen
      obtain ⟨_, hcopied, hcalls⟩ := hglobal.opened hopen
      exact ⟨Guarantee.exchange hglobal hopen, ⟨rfl, hcopied⟩, hcalls⟩
  | shutdownLock => exact sound_lockRegistry hglobal hrun ⟨rfl, ⟨h.1.first, h.1.copied⟩, h.2⟩
  | shutdownCopy =>
    cases hrun
    obtain ⟨howner, hclosing, hcalls⟩ := h
    refine ⟨Guarantee.copy hglobal hclosing howner, howner, ⟨hclosing.first, rfl⟩, ?_⟩
    dsimp only
    rw [hcalls]
    rfl
  | shutdownUnlock rest =>
    cases hrun
    obtain ⟨howner, hclosing, hcalls⟩ := h
    apply sound_unlockRegistry hglobal howner
    refine ⟨⟨hclosing.first, hclosing.copied⟩, hcalls, ?_⟩
    intro hnext
    contradiction
  | shutdown rest phase => exact sound_runShutdown hglobal h hrun
  | shutdownExecutor =>
    cases hrun
    exact ⟨Guarantee.leave hglobal h.1 h.2, trivial⟩

theorem sound_throw (hthrow : throw m pc = some (m', pc')) : Sound m i m' pc' := by
  unfold throw at hthrow
  split at hthrow
  . cases hthrow
    exact ⟨Guarantee.refl hglobal, trivial⟩
  . cases hthrow
    exact ⟨Guarantee.refl hglobal, h.1⟩
  . cases hthrow
    exact ⟨Guarantee.refl hglobal, h⟩
  . split at hthrow
    . contradiction
    . cases hthrow
      exact sound_phase hglobal h (by decide) (List.tail_sublist _) (fun _ => rfl)
  . cases hthrow
    exact sound_phase hglobal h (by decide) (List.Sublist.refl _) (fun _ => rfl)
  . cases hthrow
    exact ⟨Guarantee.refl hglobal, h.1⟩
  . cases hthrow
    obtain ⟨hclosing, hcalls, howner⟩ := h
    refine ⟨Guarantee.refl hglobal, hclosing, hcalls, ?_⟩
    intro _
    exact howner (by decide)
  . contradiction

theorem sound_readLevel (hread : readLevel m pc level = some (m', pc')) : Sound m i m' pc' := by
  unfold readLevel at hread
  split at hread
  . cases hread
    split
    . exact sound_phase hglobal h (by decide) (List.tail_sublist _) (fun _ => rfl)
    . exact sound_phase hglobal h (by decide) (List.Sublist.refl _) (fun _ => rfl)
  . contradiction

theorem sound_step (hstep : step m i pc choice = some (m', pc')) : Sound m i m' pc' := by
  cases choice with
  | call operation =>
    dsimp only [step] at hstep
    split at hstep
    . cases hstep
      refine ⟨Guarantee.refl hglobal, ?_⟩
      cases operation <;> trivial
    . contradiction
  | run => exact sound_run hglobal h hstep
  | throw => exact sound_throw hglobal h hstep
  | level level => exact sound_readLevel hglobal h hstep

end

end Steps
end LogIt.Logger
