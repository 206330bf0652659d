import LogIt.Mpsc.Lemmas.Transition
import LogIt.Ring.Lemmas.Fifo

namespace LogIt.MpscExecutor

open Function

def ProducerPc.ringPc (pc : ProducerPc) : PushPc Nat Nat :=
  match pc with
  | .push _ _ pc => pc
  | _ => .idle

def WorkerPc.ringPc (pc : WorkerPc) : PopPc Nat Nat :=
  match pc with
  | .pop _ _ pc => pc
  | _ => .idle

variable {ι κ : Type} {s s' : State ι κ}

def RingInv (s : State ι κ) : Prop :=
  MpscRingAny.Inv s.ring (fun i => (s.producers i).ringPc) s.worker.ringPc s.claimed s.popped

theorem ProducerMove.ringPc (h : ProducerMove s pc pc')
    : pc.ringPc = .idle ∧ (pc'.ringPc = .idle ∨ ∃ t, pc'.ringPc = .load t) := by
  cases h with
  | tryPush => exact ⟨rfl, .inr ⟨_, rfl⟩⟩
  | _ => exact ⟨rfl, .inl rfl⟩

theorem WorkerMove.ringPc (h : WorkerMove s pc pc')
    : pc.ringPc = .idle ∧ (pc'.ringPc = .idle ∨ pc'.ringPc = .load) := by
  cases h with
  | tryPop => exact ⟨rfl, .inr rfl⟩
  | _ => exact ⟨rfl, .inl rfl⟩

namespace RingInv

theorem setWorker (h : RingInv s) (hold : s.worker.ringPc = .idle)
    (hnew : pc.ringPc = .idle ∨ pc.ringPc = .load)
    : RingInv { s with worker := pc } := by
  unfold RingInv at h ⊢
  dsimp only
  rw [hold] at h
  cases hnew with rw [hnew]
  | inl hnew => exact h
  | inr hnew =>
    apply h.pop_local
    . rfl
    . simp [PopPc.Emptied]
    . trivial

theorem pop (h : RingInv s) (hpc : s.worker = .pop budget drained pc)
    (hafter : AfterPop budget drained (s.ring.popStep spurious pc).2 pc')
    : RingInv { s with
        ring := (s.ring.popStep spurious pc).1
        popped := s.popped ++ pc.pops (s.ring.popStep spurious pc).2
        worker := pc' } := by
  unfold RingInv at h ⊢
  rw [hpc] at h
  have hstep := h.popStep spurious
  dsimp only [WorkerPc.ringPc] at hstep ⊢
  generalize (s.ring.popStep spurious pc).2 = res at hafter hstep ⊢
  cases hafter with
  | run | fail =>
    apply hstep.pop_local
    . rfl
    . simp [PopPc.Emptied]
    . trivial
  | goOn => exact hstep

variable [DecidableEq ι] {i : ι}

omit κ s s' in
theorem ringPc_update (producers : ι → ProducerPc) (i : ι) (pc : ProducerPc)
    : (fun j => (update producers i pc j).ringPc)
        = update (fun j => (producers j).ringPc) i pc.ringPc := by
  funext j
  by_cases hj : j = i
  . subst hj
    simp
  . simp [hj]

theorem setProducer (h : RingInv s) (hold : (s.producers i).ringPc = .idle)
    (hnew : pc.ringPc = .idle ∨ ∃ t, pc.ringPc = .load t)
    : RingInv (s.setProducer i pc) := by
  unfold RingInv State.setProducer
  dsimp only
  rw [ringPc_update]
  apply MpscRingAny.Inv.push_local h
  . simp [hold, PushPc.Owns]
  . rcases hnew with hnew | ⟨t, hnew⟩
    . simp [hnew, PushPc.Owns]
    . simp [hnew, PushPc.Owns]
  . rcases hnew with hnew | ⟨t, hnew⟩
    . rw [hnew]
      trivial
    . rw [hnew]
      trivial

theorem ringPc_afterPush (t : Nat) (policy : QueuePolicy) (pc : PushPc Nat Nat)
    : (afterPush t policy pc).ringPc = pc ∨
      ((afterPush t policy pc).ringPc = .idle ∧ ∃ ok v, pc = .returned ok v) := by
  cases pc with
  | returned ok v =>
    right
    refine ⟨?_, ok, v, rfl⟩
    cases ok with
    | true => rfl
    | false => cases policy <;> rfl
  | _ => exact .inl rfl

theorem push (h : RingInv s) (hpc : s.producers i = .push t policy pc)
    : RingInv { s.setProducer i (afterPush t policy (s.ring.pushStep spurious pc).2) with
        ring := (s.ring.pushStep spurious pc).1
        claimed := s.claimed ++ pc.claims (s.ring.pushStep spurious pc).2
        accepted := s.accepted ++ pc.claims (s.ring.pushStep spurious pc).2 } := by
  have hstep := MpscRingAny.Inv.pushStep h spurious i
  rw [hpc] at hstep
  dsimp only [ProducerPc.ringPc] at hstep
  unfold RingInv State.setProducer
  dsimp only
  rw [ringPc_update]
  cases ringPc_afterPush t policy (s.ring.pushStep spurious pc).2 with
  | inl hsame =>
    rw [hsame]
    exact hstep
  | inr hreturned =>
    obtain ⟨hidle, ok, v, hres⟩ := hreturned
    have htwice : update (fun j => (s.producers j).ringPc) i .idle
        = update (update (fun j => (s.producers j).ringPc) i
          (s.ring.pushStep spurious pc).2) i .idle :=
      (update_idem _ _ _).symm
    rw [hidle, htwice]
    apply hstep.push_local
    . simp [hres, PushPc.Owns]
    . simp [PushPc.Owns]
    . trivial

end RingInv

theorem RingInv.drained_of_empty (h : RingInv s) (hempty : s.ring.empty = true)
    (hidle : s.worker.ringPc = .idle) (howns : ∀ i p, ¬ (s.producers i).ringPc.Owns p)
    : s.popped.length = s.claimed.length := by
  unfold RingInv at h
  rw [hidle] at h
  have hcap := h.two_le_cap
  have henq := h.enqueuePos_eq
  have hdeq := h.dequeuePos_eq
  have hle := h.dequeuePos_le
  simp only [PopPc.taken, Nat.add_zero] at hdeq
  by_contra hne
  cases h.held s.popped.length (Nat.le_refl _) (by omega) with
  | inl hown =>
    obtain ⟨i, hi⟩ := hown
    exact howns i _ hi
  | inr hpub =>
    have hnot : ¬ s.ring.cap = 0 := by omega
    simp [MpscRingAny.empty, hnot, hdeq, hpub.1] at hempty

theorem RingInv.drained_of_drop (h : RingInv s) (hpending : s.claimed.drop s.popped.length = [])
    : s.popped.length = s.claimed.length := by
  unfold RingInv at h
  have henq := h.enqueuePos_eq
  have hdeq := h.dequeuePos_eq
  have hle := h.dequeuePos_le
  have hge := List.drop_eq_nil_iff.mp hpending
  omega

theorem RingInv.storage_eq_none (h : RingInv s) (hdrained : s.popped.length = s.claimed.length)
    (i : Nat) (hi : i < s.ring.cap)
    : (s.ring.cells i).storage = none := by
  unfold RingInv at h
  have henq := h.enqueuePos_eq
  obtain ⟨p, hp1, hp2, hp3⟩ :=
    MpscRingAny.exists_mod_cap_eq s.popped.length i s.ring.cap (by omega)
  have hfree := h.free p (by omega) hp2
  rw [MpscRingAny.cell, SizeT.toNat_nat, hp3, Nat.mod_eq_of_lt hi] at hfree
  rw [hfree]

end LogIt.MpscExecutor
