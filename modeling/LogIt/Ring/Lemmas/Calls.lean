import LogIt.Ring.Lemmas.Invariant

namespace LogIt

open List Function

variable {ι α : Type} [DecidableEq ι]

namespace MpscRingAny
namespace Inv

variable {ring : MpscRingAny Nat α} {producers : ι → PushPc Nat α} {consumer : PopPc Nat α}
  {claimed : List α} {popped : List (Option α)}

theorem owns_update_of_ne (hne : j ≠ i)
    : (update producers i pc j).Owns p ↔ (producers j).Owns p := by
  rw [update_of_ne hne]

theorem exists_owns_update (hold : ¬ (producers i).Owns p) (h : ∃ j, (producers j).Owns p)
    : ∃ j, (update producers i pc j).Owns p := by
  obtain ⟨j, hj⟩ := h
  have hne : j ≠ i := by
    intro hji
    subst hji
    exact hold hj
  exact ⟨j, (owns_update_of_ne hne).mpr hj⟩

theorem owner_update (howner : ∀ j k p, (producers j).Owns p → (producers k).Owns p → j = k)
    (hnew : ∀ k p, k ≠ i → pc.Owns p → ¬ (producers k).Owns p)
    : ∀ j k p, (update producers i pc j).Owns p →
        (update producers i pc k).Owns p → j = k := by
  intro j k p
  by_cases hj : j = i <;> by_cases hk : k = i
  . simp [hj, hk]
  . rw [owns_update_of_ne hk, hj, update_self]
    intro hp hp'
    exact absurd hp' (hnew k p hk hp)
  . rw [owns_update_of_ne hj, hk, update_self]
    intro hp hp'
    exact absurd hp (hnew j p hj hp')
  . rw [owns_update_of_ne hj, owns_update_of_ne hk]
    exact howner j k p

section

variable (h : Inv ring producers consumer claimed popped)

include h

theorem push_local (hold : ∀ p, ¬ (producers i).Owns p) (hnew : ∀ p, ¬ pc.Owns p)
    (hpush : PushInv ring claimed popped.length pc)
    : Inv ring (update producers i pc) consumer claimed popped := by
  have howns : ∀ j p, (update producers i pc j).Owns p ↔ (producers j).Owns p := by
    intro j p
    by_cases hj : j = i
    . subst hj
      simp [hold p, hnew p]
    . exact owns_update_of_ne hj
  refine { h with held := ?_, push := ?_, owner := ?_ }
  . intro p hp1 hp2
    simp only [howns]
    exact h.held p hp1 hp2
  . intro j
    by_cases hj : j = i
    . subst hj
      simpa using hpush
    . rw [update_of_ne hj]
      exact h.push j
  . intro j k p
    simp only [howns]
    exact h.owner j k p

theorem push_claim (hpc : producers i = .cas v pos) (hpos : ring.enqueuePos = pos)
    : Inv { ring with enqueuePos := pos + 1 } (update producers i (.construct v pos))
        consumer (claimed ++ [v]) popped := by
  subst hpos
  have henq := h.enqueuePos_eq
  have hlen := h.popped_length_le
  have hdeq := h.dequeuePos_le
  have hroom := h.push i
  simp only [hpc, PushInv, Nat.le_refl, true_and] at hroom
  have hold : ∀ p, ¬ (producers i).Owns p := by
    intro p
    simp [hpc, PushPc.Owns]
  constructor
  case two_le_cap => exact h.two_le_cap
  case enqueuePos_eq => simp [henq]
  case dequeuePos_eq => exact h.dequeuePos_eq
  case dequeuePos_le =>
    dsimp
    omega
  case enqueuePos_le =>
    dsimp
    omega
  case popped_eq =>
    rw [take_append_of_le_length (by omega)]
    exact h.popped_eq
  case free =>
    intro p hp1 hp2
    dsimp at hp1 hp2
    exact h.free p (by omega) hp2
  case held =>
    intro p hp1 hp2
    dsimp at hp2
    by_cases hp : p = ring.enqueuePos
    . left
      refine ⟨i, ?_⟩
      simp [PushPc.Owns, hp]
    . cases h.held p hp1 (by omega) with
      | inl hj => exact .inl (exists_owns_update (hold p) hj)
      | inr hcell =>
        right
        rw [getElem?_append_left (by omega)]
        exact hcell
  case push =>
    intro j
    by_cases hj : j = i
    . subst hj
      rw [update_self]
      refine ⟨by omega, by simp, ?_, ?_⟩
      . simp [henq]
      . exact h.free _ (Nat.le_refl _) (by omega)
    . rw [update_of_ne hj]
      exact pushInv_claim henq (h.push j)
  case pop => exact popInv_claim h
  case owner =>
    apply owner_update h.owner
    intro k p _ hp hk
    have := (h.owns_seq hk).2.1
    simp only [PushPc.Owns] at hp
    omega

theorem push_write (howns : (producers i).Owns pos) (hnew : ∀ p, pc.Owns p → p = pos)
    (hpush : PushInv (ring.setCell pos c) claimed popped.length pc)
    (hpub : pc.Owns pos ∨ (c.seq = pos + 1 ∧ c.storage = claimed[pos]?))
    : Inv (ring.setCell pos c) (update producers i pc) consumer claimed popped := by
  have hbound := h.enqueuePos_le
  obtain ⟨hpos1, hpos2, _⟩ := h.owns_seq howns
  refine { h with free := ?free, held := ?held, push := ?push, pop := ?pop, owner := ?owner }
  case free =>
    intro p hp1 hp2
    simp only [setCell_enqueuePos, setCell_cap] at hp1 hp2
    rw [h.cell_setCell_of_owns howns c (by omega) hp2 (by omega)]
    exact h.free p hp1 hp2
  case held =>
    intro p hp1 hp2
    simp only [setCell_enqueuePos] at hp2
    by_cases hp : p = pos
    . subst hp
      cases hpub with
      | inl hpub =>
        left
        exact ⟨i, by simpa using hpub⟩
      | inr hpub =>
        right
        simp [hpub]
    . rw [h.cell_setCell_of_owns howns c hp1 (by omega) hp]
      cases h.held p hp1 hp2 with
      | inl hj => exact .inl (exists_owns_update (fun hi => hp (hi.unique howns)) hj)
      | inr hcell =>
        right
        exact hcell
  case push =>
    intro j
    by_cases hj : j = i
    . subst hj
      rw [update_self]
      exact hpush
    . rw [update_of_ne hj]
      exact h.pushInv_setCell howns c hj
  case pop => exact h.popInv_setCell howns c
  case owner =>
    apply owner_update h.owner
    intro k p hk hp howns'
    rw [hnew p hp] at howns'
    exact hk (h.owner k i pos howns' howns)

theorem pushStep (spurious : Bool) (i : ι)
    : Inv (ring.pushStep spurious (producers i)).1
        (update producers i (ring.pushStep spurious (producers i)).2) consumer
        (claimed ++ (producers i).claims (ring.pushStep spurious (producers i)).2) popped := by
  have hpush := h.push i
  cases hpc : producers i with
  | idle | load v | returned ok v =>
    simp only [MpscRingAny.pushStep, PushPc.claims, append_nil]
    apply h.push_local <;> simp [hpc, PushPc.Owns, PushInv]
  | readSeq v pos =>
    simp only [hpc, PushInv] at hpush
    simp only [MpscRingAny.pushStep, SizeT.diff_nat]
    split
    . next hdiff =>
      simp only [PushPc.claims, append_nil]
      have hseq : (ring.cell pos).seq = pos := by omega
      apply h.push_local
      . simp [hpc, PushPc.Owns]
      . simp [PushPc.Owns]
      . exact ⟨hpush, h.lt_of_seq_eq hseq⟩
    . split
      all_goals
        simp only [PushPc.claims, append_nil]
        apply h.push_local <;> simp [hpc, PushPc.Owns, PushInv]
  | cas v pos =>
    simp only [MpscRingAny.pushStep]
    split
    . next hcas =>
      simp only [PushPc.claims]
      exact h.push_claim hpc hcas.1
    . simp only [PushPc.claims, append_nil]
      apply h.push_local <;> simp [hpc, PushPc.Owns, PushInv]
  | construct v pos =>
    simp only [hpc, PushInv] at hpush
    simp only [MpscRingAny.pushStep, PushPc.claims, append_nil, setStorage]
    apply h.push_write
    . simp [hpc, PushPc.Owns]
    . simp [PushPc.Owns]
    . refine ⟨hpush.1, hpush.2.1, ?_⟩
      simp [hpush]
    . simp [PushPc.Owns]
  | publish pos =>
    simp only [hpc, PushInv] at hpush
    simp only [MpscRingAny.pushStep, PushPc.claims, append_nil, setSeq]
    apply h.push_write
    . simp [hpc, PushPc.Owns]
    . simp [PushPc.Owns]
    . trivial
    . right
      simp [hpush]

end

end Inv
end MpscRingAny
end LogIt

namespace LogIt

open List

variable {ι α : Type}

namespace MpscRingAny
namespace Inv

variable {ring : MpscRingAny Nat α} {producers : ι → PushPc Nat α} {consumer : PopPc Nat α}
  {claimed : List α} {popped : List (Option α)}

theorem pop_local (h : Inv ring producers consumer claimed popped)
    (htaken : pc.taken = consumer.taken) (hemptied : ∀ p, pc.Emptied p ↔ consumer.Emptied p)
    (hpop : PopInv ring claimed popped.length pc)
    : Inv ring producers pc claimed popped := by
  refine { h with dequeuePos_eq := ?_, held := ?_, pop := hpop }
  . rw [htaken]
    exact h.dequeuePos_eq
  . simp only [hemptied]
    exact h.held

theorem pop_take (h : Inv ring producers (.cas pos) claimed popped)
    : Inv { ring with dequeuePos := pos + 1 } producers (.move pos) claimed popped := by
  have hdeq := h.dequeuePos_eq
  have hpop := h.pop
  simp only [PopInv, PopPc.taken] at hpop hdeq
  refine { h with dequeuePos_eq := ?_, dequeuePos_le := ?_, pop := ?_ }
  . simp only [PopPc.taken]
    omega
  . dsimp
    omega
  . refine ⟨by omega, ?_⟩
    exact hpop.2.2

theorem pop_move (h : Inv ring producers (.move pos) claimed popped)
    : Inv ring producers (.destroy pos (ring.cell pos).storage) claimed popped := by
  have hlen := h.popped_length_le
  have henq := h.enqueuePos_eq
  have hpop := h.pop
  simp only [PopInv, PopPc.taken] at hpop hlen
  apply h.pop_local
  . rfl
  . simp [PopPc.Emptied]
  . refine ⟨hpop.1, hpop.2, ?_⟩
    apply h.published
    . omega
    . omega
    . exact hpop.2
    . simp [PopPc.Emptied]

section

variable (h : Inv ring producers consumer claimed popped) {c : Cell Nat α}

include h

theorem cell_setCell_taken (hp1 : popped.length < p) (hp2 : p < popped.length + ring.cap)
    : (ring.setCell popped.length c).cell p = ring.cell p := by
  have hcap := h.two_le_cap
  exact cell_setCell_of_ne ring (Nat.le_refl _) (by omega) (by omega) hp2 (by omega)

theorem pushInv_setCell_taken (hseq : (ring.cell popped.length).seq = popped.length + 1)
    : PushInv (ring.setCell popped.length c) claimed popped.length (producers i) := by
  have hbound := h.enqueuePos_le
  have hpush := h.push i
  have hne : ¬ (producers i).Owns popped.length := h.not_owns_of_seq hseq i
  cases hpc : producers i with
  | construct v p | publish p =>
    simp only [hpc, PushInv, PushPc.Owns] at hpush hne ⊢
    rw [h.cell_setCell_taken (by omega) (by omega)]
    exact hpush
  | _ =>
    rw [hpc] at hpush
    exact hpush

end

theorem pop_destroy (h : Inv ring producers (.destroy pos out) claimed popped)
    : Inv (ring.setStorage pos none) producers (.release pos out) claimed popped := by
  have hlen := h.popped_length_le
  have henq := h.enqueuePos_eq
  have hbound := h.enqueuePos_le
  have hpop := h.pop
  simp only [PopInv, PopPc.taken] at hpop hlen
  obtain ⟨hpos, hseq, hout⟩ := hpop
  subst hpos
  simp only [setStorage]
  refine { h with free := ?_, held := ?_, push := ?_, pop := ?_ }
  . intro p hp1 hp2
    simp only [setCell_enqueuePos, setCell_cap] at hp1 hp2
    rw [h.cell_setCell_taken (by omega) hp2]
    exact h.free p hp1 hp2
  . intro p hp1 hp2
    simp only [setCell_enqueuePos] at hp2
    by_cases hp : p = popped.length
    . subst hp
      right
      simp [hseq, PopPc.Emptied]
    . rw [h.cell_setCell_taken (by omega) (by omega)]
      cases h.held p hp1 hp2 with
      | inl hown => exact .inl hown
      | inr hpub =>
        right
        refine ⟨hpub.1, ?_⟩
        intro _
        exact hpub.2 (by simp [PopPc.Emptied])
  . intro i
    exact h.pushInv_setCell_taken hseq
  . refine ⟨rfl, ?_, hout⟩
    simp [hseq]

theorem pop_release (h : Inv ring producers (.release pos out) claimed popped)
    : Inv (ring.setSeq pos (pos + ring.cap)) producers (.returned true out) claimed
        (popped ++ [out]) := by
  have hlen := h.popped_length_le
  have henq := h.enqueuePos_eq
  have hdeq := h.dequeuePos_eq
  have hbound := h.enqueuePos_le
  have hpop := h.pop
  simp only [PopInv, PopPc.taken] at hpop hlen hdeq
  obtain ⟨hpos, hcell, hout⟩ := hpop
  subst hpos
  have hseq : (ring.cell popped.length).seq = popped.length + 1 := by
    simp [hcell]
  simp only [setSeq]
  constructor
  case two_le_cap => exact h.two_le_cap
  case enqueuePos_eq => exact h.enqueuePos_eq
  case dequeuePos_eq => simpa [PopPc.taken] using hdeq
  case dequeuePos_le => exact h.dequeuePos_le
  case enqueuePos_le =>
    simp only [setCell_enqueuePos, setCell_cap, length_append, length_singleton]
    omega
  case popped_eq =>
    have hlt : popped.length < claimed.length := by omega
    rw [length_append, length_singleton, take_add_one, map_append]
    rw [← h.popped_eq, hout, getElem?_eq_getElem hlt]
    rfl
  case free =>
    intro p hp1 hp2
    simp only [setCell_enqueuePos, setCell_cap, length_append, length_singleton]
      at hp1 hp2
    by_cases hp : p = popped.length + ring.cap
    . subst hp
      rw [cell_setCell_of_mod_eq]
      . simp [hcell]
      . simp
    . rw [h.cell_setCell_taken (by omega) (by omega)]
      exact h.free p hp1 (by omega)
  case held =>
    intro p hp1 hp2
    simp only [setCell_enqueuePos, length_append, length_singleton] at hp1 hp2
    rw [h.cell_setCell_taken (by omega) (by omega)]
    cases h.held p (by omega) hp2 with
    | inl hown => exact .inl hown
    | inr hpub =>
      right
      refine ⟨hpub.1, ?_⟩
      intro _
      apply hpub.2
      simp only [PopPc.Emptied]
      omega
  case push =>
    intro i
    have hpush := h.pushInv_setCell_taken (c := ⟨popped.length + ring.cap, none⟩) (i := i) hseq
    have hne : ¬ (producers i).Owns popped.length := h.not_owns_of_seq hseq i
    rw [hcell, length_append, length_singleton]
    cases hpc : producers i with
    | cas v p =>
      simp only [hpc, PushInv, setCell_cap] at hpush ⊢
      omega
    | construct v p | publish p =>
      simp only [hpc, PushInv, PushPc.Owns] at hpush hne ⊢
      exact ⟨by omega, hpush.2⟩
    | _ =>
      rw [hpc] at hpush
      exact hpush
  case pop => trivial
  case owner => exact h.owner

theorem popStep (h : Inv ring producers consumer claimed popped) (spurious : Bool)
    : Inv (ring.popStep spurious consumer).1 producers (ring.popStep spurious consumer).2 claimed
        (popped ++ consumer.pops (ring.popStep spurious consumer).2) := by
  have hdeq := h.dequeuePos_eq
  have hpop := h.pop
  cases consumer with
  | idle | returned ok out =>
    simp only [MpscRingAny.popStep, PopPc.pops, append_nil]
    exact h
  | load =>
    simp only [MpscRingAny.popStep, PopPc.pops, append_nil]
    apply h.pop_local <;> simp [PopPc.taken, PopPc.Emptied, PopInv]
  | readSeq pos =>
    simp only [PopInv, PopPc.taken] at hpop hdeq
    simp only [MpscRingAny.popStep, SizeT.diff_nat, SizeT.add_nat]
    split
    . next hdiff =>
      simp only [PopPc.pops, append_nil]
      have hseq : (ring.cell pos).seq = pos + 1 := by omega
      apply h.pop_local
      . rfl
      . simp [PopPc.Emptied]
      . refine ⟨hpop, ?_, hseq⟩
        have hcap := h.two_le_cap
        cases h.seq_eq (p := pos) (by omega) (by omega) with
        | inl hfree => omega
        | inr hpub => exact hpub.1
    . simp only [PopPc.pops, append_nil]
      apply h.pop_local <;> simp [PopPc.taken, PopPc.Emptied, PopInv]
  | cas pos =>
    simp only [MpscRingAny.popStep, SizeT.add_nat]
    split
    . simp only [PopPc.pops, append_nil]
      exact h.pop_take
    . simp only [PopPc.pops, append_nil]
      apply h.pop_local <;> simp [PopPc.taken, PopPc.Emptied, PopInv]
  | move pos =>
    simp only [MpscRingAny.popStep, PopPc.pops, append_nil]
    exact h.pop_move
  | destroy pos out =>
    simp only [MpscRingAny.popStep, PopPc.pops, append_nil]
    exact h.pop_destroy
  | release pos out =>
    simp only [MpscRingAny.popStep, PopPc.pops, SizeT.add_nat]
    exact h.pop_release

end Inv
end MpscRingAny
end LogIt
