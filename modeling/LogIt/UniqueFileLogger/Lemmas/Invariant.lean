import LogIt.Lib.ThreadSum
import LogIt.UniqueFileLogger.Impl.Logger

namespace LogIt.UniqueFileLogger

variable {ι σ α : Type} [DecidableEq ι]

variable (pool : TaskPool ι σ α) (s : State ι σ) in
inductive Transition : Action ι α → State ι σ → Prop where
  -- `log()` after the shutdown
  | skip {c thread} : Transition (.log c thread) s
  | enter {c thread} (hc : s.clients c = .idle) (hlock : s.lifecycleLocked = false)
    : Transition (.log c thread) { s.setClient c (.logCount thread) with lifecycleLocked := true }
  | count {c thread} (hc : s.clients c = .logCount thread)
    : Transition (.logCount c) (s.count c thread)
  | add {c thread exec} (hc : s.clients c = .logAdd thread)
      (hexec : pool.sys.step s.exec (pool.addTask c) = some exec)
    : Transition (.logAdd c)
        ((s.setClient c (.logAdding thread false)).advance pool (pool.addTask c) exec)
  | leave {c thread issued} (hc : s.clients c = .logAdding thread issued)
      (hidle : pool.idle s.exec c = true)
    : Transition (.logReturn c) { s.setClient c .idle with lifecycleLocked := false }
  | wait {c clears exec} (hc : s.clients c = .idle)
      (hlock : s.lifecycleLocked = false) (hexec : pool.sys.step s.exec (pool.wait c) = some exec)
    : Transition (.wait c clears)
        ({ s.setClient c (.waiting clears) with lifecycleLocked := true }.advance pool (pool.wait c)
          exec)
  | waitReturn {c clears} (hc : s.clients c = .waiting clears) : Transition (.waitReturn c)
        { s.setClient c (if clears then .clear else .idle) with lifecycleLocked := false }
  | clearRefused {c} (hc : s.clients c = .clear) : Transition (.clear c) (s.setClient c .idle)
  | clear {c} (hc : s.clients c = .clear) (hlock : s.lifecycleLocked = false)
    : Transition (.clear c) { s.setClient c .clearFiles with lifecycleLocked := true }
  | clearFail {c} (hc : s.clients c = .clearFiles)
    : Transition (.clearFiles c true) { s.setClient c .idle with lifecycleLocked := false }
  | clearFiles {c} (hc : s.clients c = .clearFiles)
    : Transition (.clearFiles c false) { s.setClient c .clearInfo with mutexLocked := true }
  | clearInfo {c} (hc : s.clients c = .clearInfo) : Transition (.clearInfo c)
        { s.setClient c .idle with
          threadLogInfo := fun _ => none
          mutexLocked := false
          lifecycleLocked := false }
  | shutdown {c} : Transition (.shutdown c) { s with shutdown := true }
  | exec {a exec} (hends : s.endsTask pool a = false) (hexec : pool.sys.step s.exec a = some exec)
    : Transition (.exec a) (s.advance pool a exec)
  | finish {a exec thread} (hends : s.endsTask pool a = true)
      (htask : s.task = .updated thread) (hexec : pool.sys.step s.exec a = some exec)
    : Transition (.exec a) ({ s with task := .idle, mutexLocked := false }.advance pool a exec)
  | write {t thread path} (htask : s.task = .idle)
      (hrunning : pool.running s.exec = some t) (hauthor : s.author t = some thread)
    : Transition (.taskWrite path) { s with task := .wrote thread path, mutexLocked := true }
  | update {thread path} (htask : s.task = .wrote thread path)
    : Transition .taskUpdate (s.update thread path)

variable {pool : TaskPool ι σ α} {s s' : State ι σ} {a : Action ι α}

theorem State.execute_eq_some {a : α} (h : s.execute pool a = some s')
    : ∃ exec, pool.sys.step s.exec a = some exec ∧ s' = s.advance pool a exec := by
  unfold State.execute at h
  split at h
  . contradiction
  . next exec hexec =>
    cases h
    exact ⟨exec, hexec, rfl⟩

theorem Transition.of_exec {a : α} (h : step pool s (.exec a) = some s')
    : Transition pool s (.exec a) s' := by
  dsimp only [step] at h
  split at h
  . contradiction
  . split at h
    . next hends =>
      split at h
      . next htask =>
        obtain ⟨exec, hexec, rfl⟩ := State.execute_eq_some h
        exact .finish hends htask hexec
      . contradiction
    . next hends =>
      obtain ⟨exec, hexec, rfl⟩ := State.execute_eq_some h
      exact .exec (by simpa using hends) hexec

theorem Transition.of_step (h : step pool s a = some s') : Transition pool s a s' := by
  cases a with dsimp only [step] at h
  | log c thread =>
    split at h
    . contradiction
    . next hfree =>
      simp only [ne_eq, not_or, Bool.not_eq_true, not_not] at hfree
      split at h
      . cases h
        exact .skip
      . cases h
        exact .enter hfree.2 hfree.1
  | logCount c =>
    split at h
    . next hc =>
      cases h
      exact .count hc
    . contradiction
  | logAdd c =>
    split at h
    . next hc =>
      obtain ⟨exec, hexec, rfl⟩ := State.execute_eq_some h
      exact .add hc hexec
    . contradiction
  | logReturn c =>
    split at h
    . next hc =>
      split at h
      . next hidle =>
        cases h
        exact .leave hc hidle
      . contradiction
    . contradiction
  | wait c clears =>
    split at h
    . contradiction
    . next hfree =>
      simp only [ne_eq, not_or, Bool.not_eq_true, not_not] at hfree
      obtain ⟨exec, hexec, rfl⟩ := State.execute_eq_some h
      exact .wait hfree.2 hfree.1 hexec
  | waitReturn c =>
    split at h
    . next hc =>
      split at h
      . cases h
        exact .waitReturn hc
      . contradiction
    . contradiction
  | clear c =>
    split at h
    . next hc =>
      split at h
      . contradiction
      . next hlock =>
        split at h
        . cases h
          exact .clearRefused hc
        . cases h
          exact .clear hc (by simpa using hlock)
    . contradiction
  | clearFiles c fails =>
    split at h
    . next hc =>
      split at h
      . contradiction
      . cases fails with
        | true =>
          cases h
          exact .clearFail hc
        | false =>
          cases h
          exact .clearFiles hc
    . contradiction
  | clearInfo c =>
    split at h
    . next hc =>
      cases h
      exact .clearInfo hc
    . contradiction
  | shutdown c =>
    split at h
    . contradiction
    . cases h
      exact .shutdown
  | exec a => exact .of_exec h
  | taskWrite path =>
    split at h
    . next htask hrunning =>
      split at h
      . next hauthor =>
        split at h
        . contradiction
        . cases h
          exact .write htask hrunning hauthor
      . contradiction
    . contradiction
  | taskUpdate =>
    split at h
    . next htask =>
      cases h
      exact .update htask
    . contradiction

theorem State.advance_cases (pool : TaskPool ι σ α) (s : State ι σ) (a : α) (exec : σ)
    : (s.advance pool a exec = { s with exec := exec } ∧
        (pool.issued exec = pool.issued s.exec ∨
          ∀ c thread, pool.client a = some c → s.clients c ≠ .logAdding thread false)) ∨
      ∃ c thread, pool.issued exec ≠ pool.issued s.exec ∧ pool.client a = some c ∧
        s.clients c = .logAdding thread false ∧
        s.advance pool a exec =
          { s.setClient c (.logAdding thread true) with
            exec := exec
            author := Function.update s.author (pool.issued s.exec) (some thread) } := by
  unfold State.advance
  split
  . next hissued => exact .inl ⟨rfl, .inl hissued⟩
  . next hissued =>
    split
    . next hclient =>
      refine .inl ⟨rfl, .inr ?_⟩
      intro c thread hc
      rw [hclient] at hc
      contradiction
    . next c hclient =>
      split
      . next thread hc => exact .inr ⟨c, thread, hissued, hclient, hc, rfl⟩
      . next hother =>
        refine .inl ⟨rfl, .inr ?_⟩
        intro c' thread hc'
        rw [hclient] at hc'
        cases hc'
        exact hother thread

theorem State.update_eq (s : State ι σ) (thread : ι) (path : Path)
    : ∃ infos, s.update thread path
        = { s with task := .updated thread, threadLogInfo := infos } := by
  unfold State.update
  split
  . exact ⟨s.threadLogInfo, rfl⟩
  . exact ⟨_, rfl⟩

section Advance

variable {a : α} {exec : σ}

theorem State.advance_exec : (s.advance pool a exec).exec = exec := by
  rcases s.advance_cases pool a exec with ⟨heq, _⟩ | ⟨_, _, _, _, _, heq⟩
  . rw [heq]
  . rw [heq]

theorem State.advance_lifecycleLocked
    : (s.advance pool a exec).lifecycleLocked = s.lifecycleLocked := by
  rcases s.advance_cases pool a exec with ⟨heq, _⟩ | ⟨_, _, _, _, _, heq⟩
  . rw [heq]
  . rw [heq]
    rfl

theorem State.advance_task : (s.advance pool a exec).task = s.task := by
  rcases s.advance_cases pool a exec with ⟨heq, _⟩ | ⟨_, _, _, _, _, heq⟩
  . rw [heq]
  . rw [heq]
    rfl

theorem State.advance_threadLogInfo
    : (s.advance pool a exec).threadLogInfo = s.threadLogInfo := by
  rcases s.advance_cases pool a exec with ⟨heq, _⟩ | ⟨_, _, _, _, _, heq⟩
  . rw [heq]
  . rw [heq]
    rfl

end Advance
end LogIt.UniqueFileLogger

namespace LogIt.UniqueFileLogger

open Function

variable {ι σ α : Type} {pool : TaskPool ι σ α} {s s' : State ι σ}

def ClientPc.locks (pc : ClientPc ι) : Bool :=
  match pc with
  | .idle | .clear => false
  | _ => true

structure Exclusive (clients : ι → ClientPc ι) (locked : Bool) : Prop where
  held : ∀ c, (clients c).locks = true → locked = true
  unique : ∀ c c', (clients c).locks = true → (clients c').locks = true → c = c'

namespace Exclusive

variable {clients : ι → ClientPc ι} {locked : Bool} {c : ι} {pc : ClientPc ι}

theorem init : Exclusive (fun _ : ι => .idle) false where
  held := by simp [ClientPc.locks]
  unique := by simp [ClientPc.locks]

variable [DecidableEq ι]

theorem relabel (h : Exclusive clients locked) (hpc : pc.locks = (clients c).locks)
    : Exclusive (Function.update clients c pc) locked := by
  have hlocks (c' : ι) : (Function.update clients c pc c').locks = (clients c').locks := by
    by_cases heq : c' = c
    . rw [heq, update_self, hpc]
    . rw [Function.update_of_ne heq]
  constructor
  . intro c'
    rw [hlocks]
    exact h.held c'
  . intro c' c''
    rw [hlocks, hlocks]
    exact h.unique c' c''

theorem acquire (h : Exclusive clients false) : Exclusive (Function.update clients c pc) true where
  held _ _ := rfl
  unique := by
    have honly (c' : ι) (hlocks : (Function.update clients c pc c').locks = true) : c' = c := by
      by_contra hne
      rw [Function.update_of_ne hne] at hlocks
      have hheld := h.held c' hlocks
      contradiction
    intro c' c'' hlocks hlocks'
    rw [honly c' hlocks, honly c'' hlocks']

theorem release (h : Exclusive clients locked) (hc : (clients c).locks = true)
    (hpc : pc.locks = false)
    : Exclusive (Function.update clients c pc) false := by
  have hnone (c' : ι) : (Function.update clients c pc c').locks ≠ true := by
    intro hlocks
    by_cases heq : c' = c
    . rw [heq, update_self, hpc] at hlocks
      contradiction
    . rw [Function.update_of_ne heq] at hlocks
      exact heq (h.unique c' c hlocks hc)
  constructor
  . intro c' hlocks
    exact absurd hlocks (hnone c')
  . intro c' _ hlocks
    exact absurd hlocks (hnone c')

theorem advance {a : α} {exec : σ} (h : Exclusive s.clients locked)
    : Exclusive (s.advance pool a exec).clients locked := by
  cases s.advance_cases pool a exec with
  | inl hnone =>
    rw [hnone.1]
    exact h
  | inr hissue =>
    obtain ⟨c, thread, _, _, hc, heq⟩ := hissue
    rw [heq]
    apply h.relabel
    rw [hc]
    rfl

end Exclusive

section Preparing

def Preparing (pool : TaskPool ι σ α) (exec : σ) (clients : ι → ClientPc ι) : Prop :=
  ∀ c thread, clients c = .logAdding thread false → pool.preparing exec c = true

variable [DecidableEq ι]

theorem Preparing.update (h : Preparing pool exec clients)
    (hpc : ∀ thread, pc ≠ .logAdding thread false)
    : Preparing pool exec (Function.update clients c pc) := by
  intro c' thread hc'
  rcases update_cases (P := fun x : ClientPc ι => x = .logAdding thread false) hc' with
    ⟨_, hc'⟩ | hc'
  . exact absurd hc' (hpc thread)
  . exact h c' thread hc'

theorem Preparing.of_advance {a : α} {exec : σ}
    (h : ∀ c thread, s.clients c = .logAdding thread false → pool.preparing exec c = true ∨
      (pool.client a = some c ∧ pool.issued exec = pool.issued s.exec + 1))
    : Preparing pool exec (s.advance pool a exec).clients := by
  intro c thread hc
  cases s.advance_cases pool a exec with
  | inl hnone =>
    rw [hnone.1] at hc
    cases h c thread hc with
    | inl hpreparing => exact hpreparing
    | inr hissue =>
      cases hnone.2 with
      | inl hissued => omega
      | inr hother => exact absurd hc (hother c thread hissue.1)
  | inr hissue =>
    obtain ⟨c', thread', _, hclient, _, heq⟩ := hissue
    rw [heq] at hc
    dsimp only [State.setClient] at hc
    by_cases hsame : c = c'
    . rw [hsame, update_self] at hc
      cases hc
    . rw [Function.update_of_ne hsame] at hc
      cases h c thread hc with
      | inl hpreparing => exact hpreparing
      | inr hissue =>
        rw [hclient] at hissue
        exact absurd (Option.some.inj hissue.1).symm hsame

end Preparing

structure Tasks (pool : TaskPool ι σ α) (s : State ι σ) : Prop where
  reach : pool.sys.Reachable s.exec
  author : ∀ t, pool.issued s.exec ≤ t → s.author t = none
  inHand : ∀ c t thread, t ∈ pool.inHand s.exec c → s.author t = some thread →
    s.clients c = .logAdding thread true

namespace Tasks

theorem update [DecidableEq ι] (h : Tasks pool s) (hexec : s'.exec = s.exec)
    (hauthor : s'.author = s.author) (hclients : s'.clients = Function.update s.clients c pc)
    (hc : (∀ thread, s.clients c ≠ .logAdding thread true) ∨ pool.inHand s.exec c = 0)
    : Tasks pool s' := by
  constructor
  . rw [hexec]
    exact h.reach
  . rw [hexec, hauthor]
    exact h.author
  . intro c' t thread
    rw [hexec, hauthor, hclients]
    intro ht hthread
    have hc' := h.inHand c' t thread ht hthread
    have hne : c' ≠ c := by
      intro heq
      rw [heq] at hc' ht
      cases hc with
      | inl hc => exact hc thread hc'
      | inr hc =>
        rw [hc] at ht
        exact Multiset.notMem_zero t ht
    rw [Function.update_of_ne hne]
    exact hc'

theorem init : Tasks pool (UniqueFileLogger.init ι pool) where
  reach := .init
  author _ _ := rfl
  inHand := by
    intro c t thread _ hauthor
    contradiction

variable [Fintype ι]

theorem author_issue (hpool : pool.Lawful) (h : Tasks pool s) (ht : t ∈ pool.live s.exec)
    : Function.update s.author (pool.issued s.exec) (some thread) t = s.author t := by
  have hlt := hpool.lt_issued_of_mem_live h.reach ht
  exact Function.update_of_ne (by omega) _ _

theorem mem_live_of_inHand (ht : t ∈ pool.inHand exec c) : t ∈ pool.live exec := by
  apply Multiset.mem_add.mpr
  left
  exact Multiset.mem_sum.mpr ⟨c, Finset.mem_univ c, ht⟩

section

variable (hpool : pool.Lawful) (h : Tasks pool s) {a : α} {exec : σ}
  (hexec : pool.sys.step s.exec a = some exec)

include hpool h hexec

theorem issued_le : pool.issued s.exec ≤ pool.issued exec := by
  cases hpool.event s.exec a exec h.reach hexec with
  | keep hissued | run _ _ hissued => exact Nat.le_of_eq hissued.symm
  | issue _ hissued => omega

theorem issued_of_ne (hne : pool.issued exec ≠ pool.issued s.exec)
    : pool.issued exec = pool.issued s.exec + 1 := by
  cases hpool.event s.exec a exec h.reach hexec with
  | keep hissued | run _ _ hissued => exact absurd hissued hne
  | issue _ hissued => exact hissued

end

theorem advance [DecidableEq ι] (hpool : pool.Lawful) (h : Tasks pool s) {a : α} {exec : σ}
    (hexec : pool.sys.step s.exec a = some exec)
    : Tasks pool (s.advance pool a exec) := by
  cases s.advance_cases pool a exec with
  | inl hnone =>
    rw [hnone.1]
    constructor
    . exact h.reach.step hexec
    . intro t ht
      exact h.author t (Nat.le_trans (h.issued_le hpool hexec) ht)
    . intro c t thread ht hauthor
      cases hpool.inHand_step s.exec a exec c t h.reach hexec ht with
      | inl hold => exact h.inHand c t thread hold hauthor
      | inr hnew =>
        -- The task was issued now, but not for a `log()`.
        change s.author t = some thread at hauthor
        rw [h.author t (Nat.le_of_eq hnew.1.symm)] at hauthor
        contradiction
  | inr hissue =>
    obtain ⟨c, thread, hne, hclient, hc, heq⟩ := hissue
    have hissued := h.issued_of_ne hpool hexec hne
    rw [heq]
    constructor
    . exact h.reach.step hexec
    . intro t ht
      dsimp only at ht ⊢
      rw [Function.update_of_ne (by omega)]
      exact h.author t (by omega)
    . intro c' t thread' ht hauthor
      dsimp only [State.setClient] at ht hauthor ⊢
      cases hpool.inHand_step s.exec a exec c' t h.reach hexec ht with
      | inl hold =>
        rw [h.author_issue hpool (mem_live_of_inHand hold)] at hauthor
        have hc' := h.inHand c' t thread' hold hauthor
        have hother : c' ≠ c := by
          intro hsame
          rw [hsame, hc] at hc'
          cases hc'
        rw [Function.update_of_ne hother]
        exact hc'
      | inr hnew =>
        obtain ⟨hnumber, hclient', _⟩ := hnew
        rw [hclient] at hclient'
        cases hclient'
        rw [hnumber, update_self] at hauthor
        cases hauthor
        rw [update_self]

end Tasks

def Running (pool : TaskPool ι σ α) (s : State ι σ) : Prop :=
  ∀ thread, (s.task = .updated thread ∨ ∃ path, s.task = .wrote thread path) →
    ∃ t, pool.running s.exec = some t ∧ s.author t = some thread

theorem Running.of_idle (h : s.task = .idle) : Running pool s := by
  intro thread htask
  rw [h] at htask
  simp at htask

theorem mem_live_of_running [Fintype ι] (hpool : pool.Lawful) (h : pool.running exec = some t)
    : t ∈ pool.live exec :=
  Multiset.mem_add.mpr (.inr (hpool.running_mem exec t h))

theorem Running.advance [DecidableEq ι] [Fintype ι] (hpool : pool.Lawful)
    (htasks : Tasks pool s) (h : Running pool s) {a : α} {exec : σ}
    (hends : s.endsTask pool a = false) (hexec : pool.sys.step s.exec a = some exec)
    : Running pool (s.advance pool a exec) := by
  have hrunning : ∀ t thread, pool.running s.exec = some t → s.author t = some thread →
      pool.running exec = some t := by
    intro t thread ht hauthor
    cases hpool.event s.exec a exec htasks.reach hexec with
    | keep _ _ _ hrunning | issue _ _ _ _ hrunning => exact (hrunning t ht).2
    | run hruns _ => simp [State.endsTask, hruns, ht, hauthor] at hends
  cases s.advance_cases pool a exec with
  | inl hnone =>
    rw [hnone.1]
    intro thread htask
    obtain ⟨t, ht, hauthor⟩ := h thread htask
    exact ⟨t, hrunning t thread ht hauthor, hauthor⟩
  | inr hissue =>
    obtain ⟨c, thread', _, _, _, heq⟩ := hissue
    rw [heq]
    intro thread htask
    obtain ⟨t, ht, hauthor⟩ := h thread htask
    refine ⟨t, hrunning t thread ht hauthor, ?_⟩
    rw [← hauthor]
    exact htasks.author_issue hpool (mem_live_of_running hpool ht)

section Step

variable [DecidableEq ι]

structure Inv (pool : TaskPool ι σ α) (s : State ι σ) : Prop where
  tasks : Tasks pool s
  running : Running pool s
  exclusive : Exclusive s.clients s.lifecycleLocked
  preparing : Preparing pool s.exec s.clients

namespace Inv

omit [DecidableEq ι] in
theorem init : Inv pool (UniqueFileLogger.init ι pool) where
  tasks := .init
  running := .of_idle rfl
  exclusive := .init
  preparing := by
    intro c thread hc
    contradiction

theorem update (h : Inv pool s) (hexec : s'.exec = s.exec) (hauthor : s'.author = s.author)
    (htask : s'.task = s.task) (hclients : s'.clients = Function.update s.clients c pc)
    (hc : (∀ thread, s.clients c ≠ .logAdding thread true) ∨ pool.inHand s.exec c = 0)
    (hpc : ∀ thread, pc ≠ .logAdding thread false)
    (hexclusive : Exclusive (Function.update s.clients c pc) s'.lifecycleLocked)
    : Inv pool s' where
  tasks := h.tasks.update hexec hauthor hclients hc
  running := by
    unfold Running
    rw [htask, hexec, hauthor]
    exact h.running
  exclusive := by
    rw [hclients]
    exact hexclusive
  preparing := by
    rw [hexec, hclients]
    exact h.preparing.update hpc

variable [Fintype ι]

section

variable (hpool : pool.Lawful) (h : Inv pool s)

include hpool h

omit [DecidableEq ι] in
theorem preparing_step {a : α} {exec : σ}
    (hexec : pool.sys.step s.exec a = some exec) (c thread : ι)
    (hc : s.clients c = .logAdding thread false)
    : pool.preparing exec c = true ∨
        (pool.client a = some c ∧ pool.issued exec = pool.issued s.exec + 1) :=
  hpool.preparing_step s.exec a exec c hexec (h.preparing c thread hc)

theorem add (hc : s.clients c = .logAdd thread)
    (hexec : pool.sys.step s.exec (pool.addTask c) = some exec)
    : Inv pool ((s.setClient c (.logAdding thread false)).advance pool (pool.addTask c) exec) := by
  have htasks : Tasks pool (s.setClient c (.logAdding thread false)) := by
    refine h.tasks.update rfl rfl rfl (.inl ?_)
    rw [hc]
    simp
  constructor
  . exact htasks.advance hpool hexec
  . apply Running.advance hpool htasks h.running _ hexec
    simp [State.endsTask, hpool.runs_addTask]
  . rw [State.advance_lifecycleLocked]
    apply Exclusive.advance
    apply h.exclusive.relabel
    rw [hc]
    rfl
  . rw [State.advance_exec]
    apply Preparing.of_advance
    intro c' thread' hc'
    by_cases hsame : c' = c
    . rw [hsame]
      cases hpool.addTask_step s.exec c exec hexec with
      | inl hissued => exact .inr ⟨hpool.client_addTask c, hissued⟩
      | inr hpreparing => exact .inl hpreparing
    . change Function.update s.clients c _ c' = _ at hc'
      rw [Function.update_of_ne hsame] at hc'
      exact h.preparing_step hpool hexec c' thread' hc'

theorem exec {a : α} {exec : σ}
    (hends : s.endsTask pool a = false) (hexec : pool.sys.step s.exec a = some exec)
    : Inv pool (s.advance pool a exec) := by
  constructor
  . exact h.tasks.advance hpool hexec
  . exact Running.advance hpool h.tasks h.running hends hexec
  . rw [State.advance_lifecycleLocked]
    exact h.exclusive.advance
  . rw [State.advance_exec]
    exact Preparing.of_advance (h.preparing_step hpool hexec)

theorem finish {a : α} {exec : σ} (hexec : pool.sys.step s.exec a = some exec)
    : Inv pool ({ s with task := .idle, mutexLocked := false }.advance pool a exec) := by
  have htasks : Tasks pool { s with task := .idle, mutexLocked := false } :=
    ⟨h.tasks.reach, h.tasks.author, h.tasks.inHand⟩
  constructor
  . exact htasks.advance hpool hexec
  . apply Running.of_idle
    rw [State.advance_task]
  . rw [State.advance_lifecycleLocked]
    apply Exclusive.advance
    exact h.exclusive
  . rw [State.advance_exec]
    exact Preparing.of_advance (h.preparing_step hpool hexec)

end

theorem step (hpool : pool.Lawful) {a : Action ι α} (h : Inv pool s)
    (hstep : Transition pool s a s')
    : Inv pool s' := by
  cases hstep with
  | skip => exact h
  | enter hc hlock | clear hc hlock =>
    have hfree := h.exclusive
    rw [hlock] at hfree
    exact h.update rfl rfl rfl rfl (.inl (by simp [hc])) (by simp) hfree.acquire
  | count hc | clearRefused hc | clearFiles hc =>
    refine h.update rfl rfl rfl rfl (.inl (by simp [hc])) (by simp) ?_
    apply h.exclusive.relabel
    rw [hc]
    rfl
  | add hc hexec => exact h.add hpool hc hexec
  | leave hc hidle =>
    refine h.update rfl rfl rfl rfl (.inr (hpool.inHand_idle _ _ hidle)) (by simp) ?_
    apply h.exclusive.release _ rfl
    rw [hc]
    rfl
  | @wait c clears exec hc hlock hexec =>
    have hfree := h.exclusive
    rw [hlock] at hfree
    have hinv : Inv pool { s.setClient c (.waiting clears) with lifecycleLocked := true } :=
      h.update rfl rfl rfl rfl (.inl (by simp [hc])) (by simp) hfree.acquire
    exact hinv.exec hpool (by simp [State.endsTask, hpool.runs_wait]) hexec
  | @waitReturn c clears hc =>
    refine h.update rfl rfl rfl rfl (.inl (by simp [hc])) ?_ ?_
    . intro thread
      cases clears with
      | true => simp
      | false => simp
    . apply h.exclusive.release
      . rw [hc]
        rfl
      . cases clears with
        | true => rfl
        | false => rfl
  | clearFail hc | clearInfo hc =>
    refine h.update rfl rfl rfl rfl (.inl (by simp [hc])) (by simp) ?_
    apply h.exclusive.release _ rfl
    rw [hc]
    rfl
  | shutdown => exact ⟨⟨h.tasks.reach, h.tasks.author, h.tasks.inHand⟩, h.running, h.exclusive,
      h.preparing⟩
  | exec hends hexec => exact h.exec hpool hends hexec
  | finish _ _ hexec => exact h.finish hpool hexec
  | @write t thread path htask hrunning hauthor =>
    refine ⟨⟨h.tasks.reach, h.tasks.author, h.tasks.inHand⟩, ?_, h.exclusive, h.preparing⟩
    intro thread' htask'
    have hsame : thread = thread' := by simpa using htask'
    rw [← hsame]
    exact ⟨t, hrunning, hauthor⟩
  | @update thread path htask =>
    obtain ⟨infos, heq⟩ := s.update_eq thread path
    rw [heq]
    refine ⟨⟨h.tasks.reach, h.tasks.author, h.tasks.inHand⟩, ?_, h.exclusive, h.preparing⟩
    intro thread' htask'
    have hsame : thread = thread' := by simpa using htask'
    rw [← hsame]
    exact h.running thread (.inr ⟨path, htask⟩)

end Inv

theorem reachable_inv [Fintype ι] (hpool : pool.Lawful) (h : (system pool).Reachable s)
    : Inv pool s := by
  apply h.invariant (Inv pool) .init
  intro s a s' _ hinv hstep
  exact hinv.step hpool (.of_step hstep)

end Step
end LogIt.UniqueFileLogger
