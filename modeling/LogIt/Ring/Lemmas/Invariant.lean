import Mathlib.Data.List.Basic
import Mathlib.Tactic.Ring
import LogIt.Ring.Impl.Basic

namespace LogIt

variable {ι α : Type}

@[simp] theorem SizeT.ofNat_nat (n : Nat) : (SizeT.ofNat n : Nat) = n := rfl
@[simp] theorem SizeT.toNat_nat (n : Nat) : SizeT.toNat n = n := rfl
@[simp] theorem SizeT.add_nat (a n : Nat) : SizeT.add a n = a + n := rfl
@[simp] theorem SizeT.diff_nat (a b : Nat) : SizeT.diff a b = (a : Int) - (b : Int) := rfl

def PushPc.Owns (pc : PushPc Nat α) (p : Nat) : Prop :=
  match pc with
  | .construct _ pos => pos = p
  | .publish pos => pos = p
  | _ => False

theorem PushPc.Owns.unique {pc : PushPc Nat α} (hp : pc.Owns p) (hq : pc.Owns q) : p = q := by
  cases pc with
  | construct v pos | publish pos => exact hp.symm.trans hq
  | _ => exact hp.elim

def PopPc.taken (pc : PopPc Nat α) : Nat :=
  match pc with
  | .move _ | .destroy _ _ | .release _ _ => 1
  | _ => 0

def PopPc.Emptied (pc : PopPc Nat α) (p : Nat) : Prop :=
  match pc with
  | .release pos _ => pos = p
  | _ => False

namespace MpscRingAny

theorem mod_cap_inj (lo : Nat) {cap p q : Nat} (hp1 : lo ≤ p) (hp2 : p < lo + cap) (hq1 : lo ≤ q)
    (hq2 : q < lo + cap) (h : p % cap = q % cap)
    : p = q := by
  apply Nat.ModEq.eq_of_abs_lt h
  rw [abs_lt]
  omega

theorem exists_mod_cap_eq (lo p cap : Nat) (hcap : 0 < cap)
    : ∃ q, lo ≤ q ∧ q < lo + cap ∧ q % cap = p % cap := by
  refine ⟨lo + (p + (cap - lo % cap)) % cap, by omega, ?_, ?_⟩
  . have := Nat.mod_lt (p + (cap - lo % cap)) hcap
    omega
  . have hlt := Nat.mod_lt lo hcap
    have hdiv := Nat.div_add_mod lo cap
    have heq : lo + (p + (cap - lo % cap)) = p + cap * (lo / cap + 1) := by
      rw [Nat.mul_add]
      omega
    rw [Nat.add_mod, Nat.mod_mod, ← Nat.add_mod, heq, Nat.add_mul_mod_self_left]

section Cell

variable (ring : MpscRingAny Nat α)

section

variable (pos : Nat) (c : Cell Nat α)

@[simp]
theorem setCell_cap : (ring.setCell pos c).cap = ring.cap := rfl

@[simp]
theorem setCell_enqueuePos
    : (ring.setCell pos c).enqueuePos = ring.enqueuePos := rfl

@[simp]
theorem setCell_dequeuePos
    : (ring.setCell pos c).dequeuePos = ring.dequeuePos := rfl

@[simp]
theorem cell_setCell_self : (ring.setCell pos c).cell pos = c := by
  simp [cell, setCell]

end

theorem cell_setCell_of_mod_eq (h : p % ring.cap = pos % ring.cap)
    : (ring.setCell pos c).cell p = c := by
  simp [cell, setCell, h]

theorem cell_setCell_of_ne {lo pos p : Nat} {c : Cell Nat α} (hpos1 : lo ≤ pos)
    (hpos2 : pos < lo + ring.cap) (hp1 : lo ≤ p) (hp2 : p < lo + ring.cap) (hne : p ≠ pos)
    : (ring.setCell pos c).cell p = ring.cell p := by
  have : p % ring.cap ≠ pos % ring.cap := by
    intro h
    exact hne (mod_cap_inj lo hp1 hp2 hpos1 hpos2 h)
  simp [cell, setCell, this]

end Cell

section

variable (ring : MpscRingAny Nat α) (claimed : List α) (released : Nat)

def PushInv (pc : PushPc Nat α) : Prop :=
  match pc with
  | .readSeq _ pos => pos ≤ ring.enqueuePos
  | .cas _ pos => pos ≤ ring.enqueuePos ∧ pos < released + ring.cap
  | .construct v pos =>
    released ≤ pos ∧ pos < ring.enqueuePos ∧ claimed[pos]? = some v ∧ ring.cell pos = ⟨pos, none⟩
  | .publish pos => released ≤ pos ∧ pos < ring.enqueuePos ∧ ring.cell pos = ⟨pos, claimed[pos]?⟩
  | _ => True

def PopInv (pc : PopPc Nat α) : Prop :=
  match pc with
  | .readSeq pos => pos = ring.dequeuePos
  | .cas pos => pos = ring.dequeuePos ∧ pos < ring.enqueuePos ∧ (ring.cell pos).seq = pos + 1
  | .move pos => pos = released ∧ (ring.cell pos).seq = pos + 1
  | .destroy pos out => pos = released ∧ (ring.cell pos).seq = pos + 1 ∧ out = claimed[pos]?
  | .release pos out => pos = released ∧ ring.cell pos = ⟨pos + 1, none⟩ ∧ out = claimed[pos]?
  | _ => True

end

structure Inv (ring : MpscRingAny Nat α) (producers : ι → PushPc Nat α) (consumer : PopPc Nat α)
    (claimed : List α) (popped : List (Option α)) : Prop where
  two_le_cap : 2 ≤ ring.cap
  enqueuePos_eq : ring.enqueuePos = claimed.length
  dequeuePos_eq : ring.dequeuePos = popped.length + consumer.taken
  dequeuePos_le : ring.dequeuePos ≤ ring.enqueuePos
  enqueuePos_le : ring.enqueuePos ≤ popped.length + ring.cap
  popped_eq : popped = (claimed.take popped.length).map some
  free : ∀ p, ring.enqueuePos ≤ p → p < popped.length + ring.cap → ring.cell p = ⟨p, none⟩
  held : ∀ p, popped.length ≤ p → p < ring.enqueuePos →
    (∃ i, (producers i).Owns p) ∨
      ((ring.cell p).seq = p + 1 ∧ (¬ consumer.Emptied p → (ring.cell p).storage = claimed[p]?))
  push : ∀ i, PushInv ring claimed popped.length (producers i)
  pop : PopInv ring claimed popped.length consumer
  owner : ∀ i j p, (producers i).Owns p → (producers j).Owns p → i = j

namespace Inv

variable {ring : MpscRingAny Nat α} {producers : ι → PushPc Nat α} {consumer : PopPc Nat α}
  {claimed : List α} {popped : List (Option α)}

theorem new (capacity : Nat)
    : Inv (.new capacity) (fun _ : ι => PushPc.idle) (PopPc.idle : PopPc Nat α) [] [] := by
  have hcap : 2 ≤ (MpscRingAny.new capacity : MpscRingAny Nat α).cap := by
    unfold MpscRingAny.new
    dsimp
    split <;> omega
  constructor
  case two_le_cap => exact hcap
  case free =>
    intro p _ hp
    simp only [List.length_nil, Nat.zero_add] at hp
    simp only [cell, SizeT.toNat_nat, Nat.mod_eq_of_lt hp]
    simp [MpscRingAny.new]
  all_goals simp [MpscRingAny.new, PopPc.taken, PushInv, PopInv, PushPc.Owns]

section

variable (h : Inv ring producers consumer claimed popped)

include h

theorem owns_seq (howns : (producers i).Owns p)
    : popped.length ≤ p ∧ p < ring.enqueuePos ∧ (ring.cell p).seq = p := by
  have hpush := h.push i
  cases hpc : producers i with
  | construct v pos | publish pos =>
    simp only [hpc, PushPc.Owns, PushInv] at howns hpush
    subst howns
    simp [hpush]
  | _ => simp [hpc, PushPc.Owns] at howns

theorem popped_length_le : popped.length + consumer.taken ≤ claimed.length := by
  have h1 := h.dequeuePos_eq
  have h2 := h.dequeuePos_le
  have h3 := h.enqueuePos_eq
  omega

theorem not_owns_of_seq (hseq : (ring.cell p).seq = p + 1) (i : ι) : ¬ (producers i).Owns p := by
  intro howns
  have := (h.owns_seq howns).2.2
  omega

theorem seq_eq (hp1 : popped.length ≤ p) (hp2 : p < popped.length + ring.cap)
    : (ring.cell p).seq = p ∨ (p < ring.enqueuePos ∧ (ring.cell p).seq = p + 1) := by
  by_cases hp : p < ring.enqueuePos
  . cases h.held p hp1 hp with
    | inl hown =>
      obtain ⟨i, hi⟩ := hown
      left
      exact (h.owns_seq hi).2.2
    | inr hpub =>
      right
      exact ⟨hp, hpub.1⟩
  . left
    rw [h.free p (by omega) hp2]

theorem seq_cases (pos : Nat)
    : ∃ p, popped.length ≤ p ∧ p < popped.length + ring.cap ∧ p % ring.cap = pos % ring.cap ∧
        ((ring.cell pos).seq = p ∨ (p < ring.enqueuePos ∧ (ring.cell pos).seq = p + 1)) := by
  have hcap := h.two_le_cap
  obtain ⟨p, hp1, hp2, hp3⟩ := exists_mod_cap_eq popped.length pos ring.cap (by omega)
  have hcell : ring.cell pos = ring.cell p := by
    simp only [cell, SizeT.toNat_nat, hp3]
  refine ⟨p, hp1, hp2, hp3, ?_⟩
  rw [hcell]
  exact h.seq_eq hp1 hp2

theorem lt_of_seq_eq {pos : Nat} (hseq : (ring.cell pos).seq = pos)
    : pos < popped.length + ring.cap := by
  have hcap := h.two_le_cap
  obtain ⟨p, _, hp2, hp3, hp4⟩ := h.seq_cases pos
  cases hp4 with
  | inl hp4 => omega
  | inr hp4 =>
    -- `pos` and `p = pos - 1` would share a cell.
    have := mod_cap_inj p (Nat.le_refl p) (by omega) (by omega) (by omega) hp3
    omega

theorem full_of_seq_lt {pos : Nat} (hpos : pos ≤ ring.enqueuePos) (hseq : (ring.cell pos).seq < pos)
    : ring.enqueuePos = popped.length + ring.cap := by
  have hbound := h.enqueuePos_le
  obtain ⟨p, hp1, hp2, hp3, hp4⟩ := h.seq_cases pos
  have hlt : p < pos := by omega
  -- `pos` is a later round of the cell that stands for `p`.
  have hround : p + ring.cap ≤ pos := by
    apply Nat.le_of_not_lt
    intro hround
    have := mod_cap_inj p (Nat.le_refl p) (by omega) (by omega) hround hp3
    omega
  omega

theorem published (hp1 : popped.length ≤ p) (hp2 : p < ring.enqueuePos)
    (hseq : (ring.cell p).seq = p + 1) (hemptied : ¬ consumer.Emptied p)
    : (ring.cell p).storage = claimed[p]? := by
  cases h.held p hp1 hp2 with
  | inl hown =>
    obtain ⟨i, hi⟩ := hown
    exact absurd hi (h.not_owns_of_seq hseq i)
  | inr hpub => exact hpub.2 hemptied

theorem cell_setCell_of_owns (howns : (producers i).Owns pos) (c : Cell Nat α)
    (hp1 : popped.length ≤ p) (hp2 : p < popped.length + ring.cap) (hne : p ≠ pos)
    : (ring.setCell pos c).cell p = ring.cell p := by
  have hbound := h.enqueuePos_le
  obtain ⟨hpos1, hpos2, _⟩ := h.owns_seq howns
  exact cell_setCell_of_ne ring hpos1 (by omega) hp1 hp2 hne

theorem pushInv_setCell (howns : (producers i).Owns pos) (c : Cell Nat α) (hne : j ≠ i)
    : PushInv (ring.setCell pos c) claimed popped.length (producers j) := by
  have hbound := h.enqueuePos_le
  have hpush := h.push j
  have hother : ∀ p, (producers j).Owns p → p ≠ pos := by
    intro p hj hp
    subst hp
    exact hne (h.owner j i p hj howns)
  cases hpc : producers j with
  | construct v p | publish p =>
    simp only [hpc, PushInv, PushPc.Owns] at hpush hother ⊢
    rw [h.cell_setCell_of_owns howns c hpush.1 (by omega) (hother p rfl)]
    exact hpush
  | _ =>
    rw [hpc] at hpush
    exact hpush

theorem popInv_setCell (howns : (producers i).Owns pos) (c : Cell Nat α)
    : PopInv (ring.setCell pos c) claimed popped.length consumer := by
  have hcap := h.two_le_cap
  have hdeq := h.dequeuePos_eq
  have hbound := h.enqueuePos_le
  have hpop := h.pop
  have hcell : ∀ p, (ring.cell p).seq = p + 1 → popped.length ≤ p → p < popped.length + ring.cap →
      (ring.setCell pos c).cell p = ring.cell p := by
    intro p hseq hp1 hp2
    apply h.cell_setCell_of_owns howns c hp1 hp2
    intro hp
    subst hp
    exact h.not_owns_of_seq hseq i howns
  cases consumer with
  | cas p =>
    simp only [PopInv, PopPc.taken] at hpop hdeq ⊢
    rw [hcell p hpop.2.2 (by omega) (by omega)]
    exact hpop
  | move p =>
    simp only [PopInv] at hpop ⊢
    rw [hcell p hpop.2 (by omega) (by omega)]
    exact hpop
  | destroy p out =>
    simp only [PopInv] at hpop ⊢
    rw [hcell p hpop.2.1 (by omega) (by omega)]
    exact hpop
  | release p out =>
    simp only [PopInv] at hpop ⊢
    rw [hcell p (by simp [hpop.2.1]) (by omega) (by omega)]
    exact hpop
  | _ => exact hpop

end

theorem pushInv_claim (henq : ring.enqueuePos = claimed.length)
    (hpc : PushInv ring claimed released pc)
    : PushInv { ring with enqueuePos := ring.enqueuePos + 1 } (claimed ++ [v]) released pc := by
  cases pc with
  | readSeq w pos | cas w pos =>
    simp only [PushInv] at hpc ⊢
    omega
  | construct w pos =>
    simp only [PushInv] at hpc ⊢
    obtain ⟨h1, h2, h3, h4⟩ := hpc
    refine ⟨h1, by omega, ?_, h4⟩
    rw [List.getElem?_append_left (by omega)]
    exact h3
  | publish pos =>
    simp only [PushInv] at hpc ⊢
    obtain ⟨h1, h2, h3⟩ := hpc
    refine ⟨h1, by omega, ?_⟩
    rw [List.getElem?_append_left (by omega)]
    exact h3
  | _ => trivial

theorem popInv_claim (h : Inv ring producers consumer claimed popped)
    : PopInv { ring with enqueuePos := ring.enqueuePos + 1 } (claimed ++ [v]) popped.length
        consumer := by
  have hlen := h.popped_length_le
  have hpop := h.pop
  cases consumer with
  | cas pos =>
    simp only [PopInv] at hpop ⊢
    refine ⟨hpop.1, by omega, hpop.2.2⟩
  | destroy pos out | release pos out =>
    simp only [PopInv, PopPc.taken] at hpop hlen ⊢
    rw [List.getElem?_append_left (by omega)]
    exact hpop
  | _ => exact hpop

end Inv
end MpscRingAny
end LogIt
