import LogIt.UniqueFileLogger.Lemmas.Invariant

namespace LogIt.UniqueFileLogger

open Option Function Multiset

variable {ι σ α : Type} [DecidableEq ι]

def ClientPc.inLog (thread : ι) (pc : ClientPc ι) : Bool :=
  match pc with
  | .logAdd thread' | .logAdding thread' _ => decide (thread' = thread)
  | _ => false

def ClientPc.unissued (thread : ι) (pc : ClientPc ι) : Nat :=
  match pc with
  | .logAdd thread' | .logAdding thread' false => if thread' = thread then 1 else 0
  | _ => 0

theorem ClientPc.unissued_of_inLog {pc : ClientPc ι} {thread : ι} (h : pc.inLog thread = false)
    : pc.unissued thread = 0 := by
  cases pc with
  | logAdd thread' => simpa [ClientPc.inLog, ClientPc.unissued] using h
  | logAdding thread' issued =>
    cases issued with
    | true => rfl
    | false => simpa [ClientPc.inLog, ClientPc.unissued] using h
  | _ => rfl

namespace State

def outstandingTasks (pool : TaskPool ι σ α) (s : State ι σ) : List Nat :=
  match s.task, pool.running s.exec with
  | .updated _, some t => (pool.unfinished s.exec).erase t
  | _, _ => pool.unfinished s.exec

def outstanding (pool : TaskPool ι σ α) (s : State ι σ) (thread : ι) : Nat :=
  (s.outstandingTasks pool).countP (fun t => decide (s.author t = some thread))

def updatedBy (s : State ι σ) (thread : ι) : Nat :=
  match s.task with
  | .updated thread' => if thread' = thread then 1 else 0
  | _ => 0

def endedBy (pool : TaskPool ι σ α) (s : State ι σ) (a : α) (thread : ι) : Nat :=
  match pool.runs a, pool.running s.exec with
  | true, some t => if s.author t = some thread then 1 else 0
  | _, _ => 0

end State

def Spares (pool : TaskPool ι σ α) (s s' : State ι σ) : Prop :=
  ∀ t ∈ pool.discarded s'.exec,
    t ∈ pool.discarded s.exec ∨ (s.author t).bind s.threadLogInfo = none

def Fresh (pool : TaskPool ι σ α) (s : State ι σ) (a : Action ι α) : Prop :=
  match a with
  | .logCount c =>
    match s.clients c with
    | .logCount thread => s.threadLogInfo thread = none → s.outstanding pool thread = 0
    | _ => True
  | _ => True

def KeepsCount (pool : TaskPool ι σ α) (s : State ι σ) (a : Action ι α) : Prop :=
  (match step pool s a with
    | some s' => Spares pool s s'
    | none => True) ∧
  Fresh pool s a

instance (pool : TaskPool ι σ α) (s : State ι σ) (a : Action ι α)
    : Decidable (KeepsCount pool s a) := by
  unfold KeepsCount Spares Fresh
  repeat' split
  all_goals infer_instance

section Count

variable {pool : TaskPool ι σ α} {s s' : State ι σ}

theorem not_inLog_of_logCount (hinv : Inv pool s) (hc : s.clients c = .logCount thread)
    (thread' : ι) (c' : ι)
    : (s.clients c').inLog thread' = false := by
  cases hlog : (s.clients c').inLog thread' with
  | false => rfl
  | true =>
    have hlocks : (s.clients c').locks = true := by
      unfold ClientPc.inLog at hlog
      split at hlog
      . next hc' => rw [hc']; rfl
      . next hc' => rw [hc']; rfl
      . contradiction
    have hsame := hinv.exclusive.unique c' c hlocks (by rw [hc]; rfl)
    rw [hsame, hc] at hlog
    contradiction

theorem endedBy_of_endsTask (h : s.endsTask pool a = false) (thread : ι)
    : s.endedBy pool a thread = 0 := by
  unfold State.endsTask at h
  unfold State.endedBy
  split
  . next t hruns hrunning =>
    rw [hruns, hrunning] at h
    dsimp only at h
    rw [isSome_eq_false_iff, isNone_iff_eq_none] at h
    rw [h]
    rfl
  . rfl

theorem endedBy_of_updated (hrunning : Running pool s) (h : s.endsTask pool a = true)
    (htask : s.task = .updated thread) (thread' : ι)
    : s.endedBy pool a thread' = s.updatedBy thread' := by
  obtain ⟨t, ht, hauthor⟩ := hrunning thread (.inl htask)
  unfold State.endsTask at h
  unfold State.endedBy State.updatedBy
  rw [htask]
  rw [ht] at h ⊢
  cases hruns : pool.runs a with
  | true => simp only [hauthor, some.injEq]
  | false =>
    rw [hruns] at h
    contradiction

variable [Fintype ι]

section

variable (pool : TaskPool ι σ α) (s : State ι σ)

def State.liveOf (thread : ι) : Nat :=
  (pool.live s.exec).countP (fun t => s.author t = some thread)

def State.load (thread : ι) : Nat :=
  s.liveOf pool thread + threadSum (ClientPc.unissued thread) s.clients

def Exact : Prop :=
  ∀ thread info, s.threadLogInfo thread = some info →
    info.pendingLogs + s.updatedBy thread = s.load pool thread

end

theorem load_issue (hpool : pool.Lawful) (htasks : Tasks pool s)
    (hlive : pool.live exec = pool.live s.exec + {pool.issued s.exec})
    (hc : s.clients c = .logAdding thread' false) (thread : ι)
    : State.load pool
        { s.setClient c (.logAdding thread' true) with
          exec := exec
          author := update s.author (pool.issued s.exec) (some thread') } thread
      = s.load pool thread := by
  have hunissued :=
    threadSum_update (ClientPc.unissued thread) s.clients c (.logAdding thread' true)
  rw [hc] at hunissued
  -- The new number has no task yet, so the authors of the live tasks stay as they are.
  have hothers : (pool.live s.exec).countP (fun t =>
        update s.author (pool.issued s.exec) (some thread') t = some thread)
      = s.liveOf pool thread := by
    apply countP_congr rfl
    intro t ht
    rw [htasks.author_issue hpool ht]
  unfold State.load State.liveOf
  dsimp only [State.setClient]
  rw [hlive, countP_add, hothers, ← cons_zero, countP_cons]
  simp only [ClientPc.unissued, update_self, some.injEq, countP_zero]
    at hunissued ⊢
  unfold State.liveOf
  omega

theorem load_exec (thread : ι)
    : State.load pool { s with exec := exec } thread
        = (pool.live exec).countP (fun t => s.author t = some thread)
          + threadSum (ClientPc.unissued thread) s.clients :=
  rfl

theorem load_advance (hpool : pool.Lawful) (htasks : Tasks pool s)
    (hexec : pool.sys.step s.exec a = some exec)
    : ∃ lost : Multiset Nat,
        (pool.discarded exec : Multiset Nat) = pool.discarded s.exec + lost ∧
        ∀ thread, (s.advance pool a exec).load pool thread
          + lost.countP (fun t => s.author t = some thread) + s.endedBy pool a thread
            = s.load pool thread := by
  have hreach := htasks.reach.step hexec
  have hended (thread : ι) (hrunning : ∀ t, pool.running s.exec = some t →
      pool.runs a = false ∧ pool.running exec = some t)
      : s.endedBy pool a thread = 0 := by
    unfold State.endedBy
    split
    . next hruns hrun =>
      rw [(hrunning _ hrun).1] at hruns
      contradiction
    . rfl
  cases hpool.event s.exec a exec htasks.reach hexec with
  | @keep lost hissued hexecuted hdiscarded hrunning =>
    refine ⟨lost, hdiscarded, ?_⟩
    intro thread
    have hlive := hpool.live_keep htasks.reach hreach hissued hexecuted hdiscarded
    have heq : s.advance pool a exec = { s with exec := exec } := by
      unfold State.advance
      rw [if_pos hissued]
    rw [heq, hended thread hrunning, load_exec, State.load, State.liveOf, ← hlive,
      countP_add]
    omega
  | @issue c hclient hissued hexecuted hdiscarded hrunning =>
    refine ⟨0, by rw [hdiscarded, add_zero], ?_⟩
    intro thread
    have hlive := hpool.live_issue htasks.reach hreach hissued hexecuted hdiscarded
    rw [hended thread hrunning, countP_zero, add_zero, add_zero]
    cases s.advance_cases pool a exec with
    | inl hnone =>
      -- A task that is not one of `log()` has no author and is in no load.
      rw [hnone.1, load_exec, hlive, countP_add, ← cons_zero,
        countP_cons]
      simp [State.load, State.liveOf, htasks.author _ (Nat.le_refl _)]
    | inr hissue =>
      obtain ⟨c', thread', _, _, hc', heq⟩ := hissue
      rw [heq]
      exact load_issue hpool htasks hlive hc' thread
  | @run t hruns hrunning hissued hexecuted hdiscarded =>
    refine ⟨0, by rw [hdiscarded, add_zero], ?_⟩
    intro thread
    have hlive := hpool.live_run htasks.reach hreach hissued hexecuted hdiscarded
    have heq : s.advance pool a exec = { s with exec := exec } := by
      unfold State.advance
      rw [if_pos hissued]
    have hended' : s.endedBy pool a thread = if s.author t = some thread then 1 else 0 := by
      simp only [State.endedBy, hruns, hrunning]
    rw [heq, hended', load_exec, State.load, State.liveOf, ← hlive, countP_add,
      ← cons_zero, countP_cons, countP_zero]
    omega

theorem spares_iff (hpool : pool.Lawful) (hreach : pool.sys.Reachable s'.exec)
    (hlost : (pool.discarded s'.exec : Multiset Nat) = pool.discarded s.exec + lost)
    : Spares pool s s' ↔ ∀ thread info, s.threadLogInfo thread = some info →
        lost.countP (fun t => s.author t = some thread) = 0 := by
  constructor
  . intro h thread info hinfo
    rw [countP_eq_zero]
    intro t ht hauthor
    have hmem : t ∈ (pool.discarded s'.exec : Multiset Nat) := by
      rw [hlost]
      exact mem_add.mpr (.inr ht)
    cases h t hmem with
    | inl hold => exact hpool.not_mem_discarded_of_lost hreach hlost ht hold
    | inr hnone =>
      rw [hauthor, bind_some, hinfo] at hnone
      contradiction
  . intro h t ht
    rw [← mem_coe, hlost] at ht
    cases mem_add.mp ht with
    | inl hold => exact .inl hold
    | inr hnew =>
      right
      cases hauthor : s.author t with
      | none => rfl
      | some thread =>
        rw [bind_some]
        cases hinfo : s.threadLogInfo thread with
        | none => rfl
        | some info =>
          have hzero := h thread info hinfo
          rw [countP_eq_zero] at hzero
          exact absurd hauthor (hzero t hnew)

theorem exact_advance_iff (hpool : pool.Lawful) (htasks : Tasks pool s) {a : α} {exec : σ}
    (hexec : pool.sys.step s.exec a = some exec)
    (hexact : ∀ thread info, s.threadLogInfo thread = some info →
      info.pendingLogs + s.updatedBy thread + s.endedBy pool a thread = s.load pool thread)
    : Exact pool (s.advance pool a exec) ↔ Spares pool s (s.advance pool a exec) := by
  obtain ⟨lost, hlost, hload⟩ := load_advance hpool htasks hexec
  rw [← @State.advance_exec ι σ α _ pool s a exec] at hlost
  rw [spares_iff hpool (htasks.advance hpool hexec).reach hlost]
  unfold Exact
  rw [State.advance_threadLogInfo]
  have hiff : ∀ thread info, s.threadLogInfo thread = some info →
      (info.pendingLogs + (s.advance pool a exec).updatedBy thread
          = (s.advance pool a exec).load pool thread
        ↔ lost.countP (fun t => s.author t = some thread) = 0) := by
    intro thread info hinfo
    have hbefore := hexact thread info hinfo
    have hafter := hload thread
    have hupdated : (s.advance pool a exec).updatedBy thread = s.updatedBy thread := by
      unfold State.updatedBy
      rw [State.advance_task]
    rw [hupdated]
    omega
  constructor
  . intro h thread info hinfo
    exact (hiff thread info hinfo).mp (h thread info hinfo)
  . intro h thread info hinfo
    exact (hiff thread info hinfo).mpr (h thread info hinfo)

theorem outstanding_add (hpool : pool.Lawful) (hinv : Inv pool s)
    (hout : ∀ c, (s.clients c).inLog thread = false)
    : s.outstanding pool thread + s.updatedBy thread = s.load pool thread := by
  have hunissued : threadSum (ClientPc.unissued thread) s.clients = 0 :=
    threadSum_eq_zero_iff.mpr (fun c => ClientPc.unissued_of_inLog (hout c))
  have hinHand : (∑ c, pool.inHand s.exec c).countP (fun t => s.author t = some thread) = 0 := by
    rw [countP_eq_zero]
    intro t ht hauthor
    obtain ⟨c, _, hc⟩ := mem_sum.mp ht
    have hlog := hout c
    rw [hinv.tasks.inHand c t thread hc hauthor] at hlog
    simp [ClientPc.inLog] at hlog
  have hlive : s.liveOf pool thread
      = (pool.unfinished s.exec).countP (fun t => decide (s.author t = some thread)) := by
    unfold State.liveOf TaskPool.live
    rw [countP_add, hinHand, Nat.zero_add, coe_countP]
  unfold State.load
  rw [hunissued, hlive, Nat.add_zero]
  unfold State.outstanding State.outstandingTasks State.updatedBy
  split
  . next thread' t htask hrunning =>
    -- The task that has updated its counter is left out of the list and is in `updatedBy` instead.
    obtain ⟨t', hrunning', hauthor⟩ := hinv.running thread' (.inl htask)
    rw [hrunning] at hrunning'
    cases hrunning'
    rw [(List.perm_cons_erase (hpool.running_mem s.exec t hrunning)).countP_eq, List.countP_cons,
      htask]
    simp [hauthor]
  . next hother =>
    split
    . next thread' htask =>
      obtain ⟨t, hrunning, _⟩ := hinv.running thread' (.inl htask)
      exact absurd hrunning (hother thread' t htask)
    . rfl

omit [DecidableEq ι] [Fintype ι] in
theorem Spares.of_eq (h : s'.exec = s.exec) : Spares pool s s' := by
  intro t ht
  rw [h] at ht
  exact .inl ht

theorem Exact.update (h : Exact pool s) (hexec : s'.exec = s.exec) (hauthor : s'.author = s.author)
    (hinfo : s'.threadLogInfo = s.threadLogInfo) (htask : s'.task = s.task)
    (hclients : s'.clients = update s.clients c pc)
    (hpc : ∀ thread, pc.unissued thread = (s.clients c).unissued thread)
    : Exact pool s' := by
  intro thread info
  unfold State.load State.liveOf State.updatedBy
  rw [hexec, hauthor, hinfo, htask, hclients, threadSum_update_eq (hpc thread)]
  exact h thread info

theorem load_count (hc : s.clients c = .logCount thread) (thread' : ι)
    : (s.count c thread).load pool thread'
        = s.load pool thread' + if thread = thread' then 1 else 0 := by
  have hunissued := threadSum_update (ClientPc.unissued thread') s.clients c (.logAdd thread)
  rw [hc] at hunissued
  simp only [ClientPc.unissued] at hunissued
  have hload : (s.count c thread).load pool thread' = s.liveOf pool thread'
      + threadSum (ClientPc.unissued thread') (update s.clients c (.logAdd thread)) := rfl
  rw [hload]
  unfold State.load
  omega

theorem exact_count_iff (hpool : pool.Lawful) (hinv : Inv pool s) (hexact : Exact pool s)
    (hc : s.clients c = .logCount thread)
    : Exact pool (s.count c thread)
        ↔ (s.threadLogInfo thread = none → s.outstanding pool thread = 0) := by
  have houtstanding := outstanding_add hpool hinv (not_inLog_of_logCount hinv hc thread)
  have hnew : (s.count c thread).threadLogInfo thread
      = some { (s.threadLogInfo thread).getD .new with
          pendingLogs := ((s.threadLogInfo thread).getD .new).pendingLogs + 1 } :=
    update_self ..
  constructor
  . intro h hnone
    have hcounted := h thread _ hnew
    rw [load_count hc thread, if_pos rfl, hnone] at hcounted
    simp only [getD_none, ThreadLogInfo.new] at hcounted
    change (0 + 1 : Int) + s.updatedBy thread = _ at hcounted
    omega
  . intro hfresh thread' info' hinfo'
    change _ + ((s.updatedBy thread' : Nat) : Int) = _
    rw [load_count hc thread']
    by_cases hsame : thread = thread'
    . rw [← hsame, hnew] at hinfo'
      cases hinfo'
      rw [← hsame, if_pos rfl]
      cases hinfo : s.threadLogInfo thread with
      | none =>
        have hzero := hfresh hinfo
        simp only [getD_none, ThreadLogInfo.new]
        omega
      | some info =>
        have hbefore := hexact thread info hinfo
        simp only [getD_some]
        omega
    . have hother : (s.count c thread).threadLogInfo thread' = s.threadLogInfo thread' :=
        update_of_ne (Ne.symm hsame) _ _
      rw [hother] at hinfo'
      have hbefore := hexact thread' info' hinfo'
      rw [if_neg hsame]
      omega

theorem ThreadLogInfo.pendingLogs_finish (info : ThreadLogInfo) (path : Path)
    : (info.finish path).pendingLogs = info.pendingLogs - 1 := by
  unfold ThreadLogInfo.finish
  split
  . rfl
  . rfl

theorem Exact.updateTask (h : Exact pool s) (htask : s.task = .wrote thread path)
    : Exact pool (s.update thread path) := by
  have hbefore (thread' : ι) : s.updatedBy thread' = 0 := by
    unfold State.updatedBy
    rw [htask]
  intro thread' info' hinfo'
  have hload : (s.update thread path).load pool thread' = s.load pool thread' := by
    obtain ⟨infos, heq⟩ := s.update_eq thread path
    rw [heq]
    rfl
  have hafter : (s.update thread path).updatedBy thread' = if thread = thread' then 1 else 0 := by
    obtain ⟨infos, heq⟩ := s.update_eq thread path
    rw [heq]
    rfl
  rw [hload, hafter]
  by_cases hsame : thread = thread'
  . rw [if_pos hsame]
    rw [← hsame] at hinfo' ⊢
    unfold State.update at hinfo'
    split at hinfo'
    . next hnone =>
      change s.threadLogInfo thread = _ at hinfo'
      rw [hnone] at hinfo'
      contradiction
    . next info hinfo =>
      dsimp only at hinfo'
      rw [update_self] at hinfo'
      cases hinfo'
      have hexact := h thread info hinfo
      rw [hbefore] at hexact
      rw [ThreadLogInfo.pendingLogs_finish]
      omega
  . rw [if_neg hsame, ← hbefore thread']
    apply h thread' info'
    rw [← hinfo']
    unfold State.update
    split
    . rfl
    . exact (update_of_ne (Ne.symm hsame) _ _).symm

theorem Transition.exact_iff (hpool : pool.Lawful) (hinv : Inv pool s) (hexact : Exact pool s)
    (hstep : Transition pool s a s')
    : Exact pool s' ↔ Spares pool s s' ∧ Fresh pool s a := by
  have hquiet (hexec : s'.exec = s.exec) (hfresh : Fresh pool s a) (hexact' : Exact pool s')
      : Exact pool s' ↔ Spares pool s s' ∧ Fresh pool s a :=
    iff_of_true hexact' ⟨.of_eq hexec, hfresh⟩
  cases hstep with
  | skip | shutdown => exact hquiet rfl trivial hexact
  | enter hc | clearRefused hc | clear hc | clearFail hc | clearFiles hc =>
    apply hquiet rfl trivial
    exact hexact.update rfl rfl rfl rfl rfl (by simp [hc, ClientPc.unissued])
  | count hc =>
    rw [exact_count_iff hpool hinv hexact hc]
    simp only [Fresh, hc]
    exact (and_iff_right (.of_eq rfl)).symm
  | @add c thread exec hc hexec =>
    have hmoved : Exact pool (s.setClient c (.logAdding thread false)) :=
      hexact.update rfl rfl rfl rfl rfl (by simp [hc, ClientPc.unissued])
    have htasks : Tasks pool (s.setClient c (.logAdding thread false)) :=
      hinv.tasks.update rfl rfl rfl (.inl (by simp [hc]))
    rw [exact_advance_iff hpool htasks hexec]
    . exact (and_iff_left trivial).symm
    . intro thread' info hinfo
      rw [endedBy_of_endsTask (by simp [State.endsTask, hpool.runs_addTask]), ← hmoved _ _ hinfo]
      omega
  | @wait c clears exec hc hlock hexec =>
    have hmoved : Exact pool { s.setClient c (.waiting clears) with lifecycleLocked := true } :=
      hexact.update rfl rfl rfl rfl rfl (by simp [hc, ClientPc.unissued])
    have htasks : Tasks pool { s.setClient c (.waiting clears) with lifecycleLocked := true } :=
      hinv.tasks.update rfl rfl rfl (.inl (by simp [hc]))
    rw [exact_advance_iff hpool htasks hexec]
    . exact (and_iff_left trivial).symm
    . intro thread' info hinfo
      rw [endedBy_of_endsTask (by simp [State.endsTask, hpool.runs_wait]), ← hmoved _ _ hinfo]
      omega
  | exec hends hexec =>
    rw [exact_advance_iff hpool hinv.tasks hexec]
    . exact (and_iff_left trivial).symm
    . intro thread info hinfo
      rw [endedBy_of_endsTask hends, ← hexact _ _ hinfo]
      omega
  | @finish a exec thread hends htask hexec =>
    have htasks : Tasks pool { s with task := .idle, mutexLocked := false } :=
      ⟨hinv.tasks.reach, hinv.tasks.author, hinv.tasks.inHand⟩
    rw [exact_advance_iff hpool htasks hexec]
    . exact (and_iff_left trivial).symm
    . intro thread' info hinfo
      have hbefore := hexact thread' info hinfo
      rw [← endedBy_of_updated hinv.running hends htask] at hbefore
      change info.pendingLogs + ((0 : Nat) : Int) + s.endedBy pool a thread' = s.load pool thread'
      omega
  | @leave c thread issued hc hidle =>
    apply hquiet rfl trivial
    refine hexact.update rfl rfl rfl rfl rfl ?_
    intro thread'
    cases issued with
    | true => rw [hc]; rfl
    | false =>
      -- `add_task` does not return before it has issued the task.
      have hpreparing := hinv.preparing c thread hc
      rw [hpool.preparing_idle s.exec c hidle] at hpreparing
      contradiction
  | @waitReturn c clears hc =>
    apply hquiet rfl trivial
    refine hexact.update rfl rfl rfl rfl rfl ?_
    intro thread
    cases clears with
    | true | false => rw [hc]; rfl
  | clearInfo hc =>
    apply hquiet rfl trivial
    intro thread info hinfo
    contradiction
  | write htask =>
    apply hquiet rfl trivial
    intro thread info hinfo
    have hbefore := hexact thread info hinfo
    unfold State.updatedBy at hbefore
    rw [htask] at hbefore
    exact hbefore
  | @update thread path htask =>
    apply hquiet _ trivial (hexact.updateTask htask)
    obtain ⟨infos, heq⟩ := s.update_eq thread path
    rw [heq]

theorem reachable_exact (hpool : pool.Lawful)
    (h : (system pool).ReachableVia (KeepsCount pool) s)
    : Exact pool s := by
  apply h.invariant (Exact pool)
  . intro thread info hinfo
    contradiction
  . intro s a s' reach hexact hok hstep
    have hinv := reachable_inv hpool reach.reachable
    change step pool s a = some s' at hstep
    unfold KeepsCount at hok
    rw [hstep] at hok
    exact ((Transition.of_step hstep).exact_iff hpool hinv hexact).mpr hok

structure Counted (pool : TaskPool ι σ α) (s : State ι σ) : Prop where
  pending : ∀ thread info, s.threadLogInfo thread = some info →
    (∀ c, (s.clients c).inLog thread = false) → info.pendingLogs = s.outstanding pool thread
  getters : ∀ thread, (∀ c, (s.clients c).inLog thread = false) →
    s.outstanding pool thread = 0 →
    getLastLogFileName s thread ≠ none ∧ getLastLogFilePath s thread ≠ none

omit [DecidableEq ι] [Fintype ι] in
theorem getLastLogFile_ne_none {field : ThreadLogInfo → Path}
    (h : ∀ info, s.threadLogInfo thread = some info → info.pendingLogs = 0)
    : getLastLogFile field s thread ≠ none := by
  unfold getLastLogFile
  split
  . simp
  . next info hinfo =>
    rw [if_pos (h info hinfo)]
    simp

theorem Exact.counted (hpool : pool.Lawful) (hinv : Inv pool s) (h : Exact pool s)
    : Counted pool s := by
  have hpending : ∀ thread info, s.threadLogInfo thread = some info →
      (∀ c, (s.clients c).inLog thread = false) →
      info.pendingLogs = s.outstanding pool thread := by
    intro thread info hinfo hout
    have hexact := h thread info hinfo
    rw [← outstanding_add hpool hinv hout] at hexact
    omega
  constructor
  . exact hpending
  . intro thread hout hnone
    have hzero (info : ThreadLogInfo) (hinfo : s.threadLogInfo thread = some info)
        : info.pendingLogs = 0 := by
      rw [hpending thread info hinfo hout, hnone]
      rfl
    exact ⟨getLastLogFile_ne_none hzero, getLastLogFile_ne_none hzero⟩

end Count
end LogIt.UniqueFileLogger
