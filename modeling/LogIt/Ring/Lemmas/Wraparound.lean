import Mathlib.Tactic.Ring
import LogIt.Ring.Impl.Basic

namespace LogIt

open Function

variable {α : Type} {w : Nat}

namespace MpscRingAny

theorem diff_ofNat {a b : Nat} (h1 : (b : Int) - a ≤ 2 ^ (w - 1)) (h2 : (a : Int) - b < 2 ^ (w - 1))
    (hw : 0 < w)
    : SizeT.diff (BitVec.ofNat w a) (BitVec.ofNat w b) = (a : Int) - (b : Int) := by
  have hpow : (2 : Int) ^ w = 2 * 2 ^ (w - 1) := by
    rw [← Int.pow_succ']
    congr 1
    omega
  have hbmod : SizeT.diff (BitVec.ofNat w a) (BitVec.ofNat w b)
      = ((a : Int) - (b : Int)).bmod (2 ^ w) := by
    simp only [SizeT.diff, BitVec.toInt_sub, BitVec.toInt_ofNat']
    rw [← Int.sub_bmod]
  rw [hbmod]
  apply Int.bmod_eq_of_le
  . push_cast
    omega
  . push_cast
    omega

theorem diff_self (a : BitVec w) : SizeT.diff a a = 0 := by
  simp [SizeT.diff]

theorem add_ofNat (a n : Nat) : SizeT.add (BitVec.ofNat w a) n = BitVec.ofNat w (a + n) := by
  simp only [SizeT.add]
  rw [BitVec.ofNat_add]

def Fits (w cap p : Nat) : Prop :=
  cap ∣ 2 ^ w ∨ p < 2 ^ w

theorem Fits.mod_mod {cap p : Nat} (h : Fits w cap p)
    : (BitVec.ofNat w p).toNat % cap = p % cap := by
  rw [BitVec.toNat_ofNat]
  cases h with
  | inl h => exact Nat.mod_mod_of_dvd p h
  | inr h => rw [Nat.mod_eq_of_lt h]

variable {ring : MpscRingAny (BitVec w) α}

theorem cell_ofNat {p : Nat} (h : Fits w ring.cap p)
    : ring.cell (BitVec.ofNat w p) = ring.cells (p % ring.cap) := by
  simp only [cell, SizeT.toNat, h.mod_mod]

theorem setCell_ofNat {p : Nat} (h : Fits w ring.cap p) (c : Cell (BitVec w) α)
    : ring.setCell (BitVec.ofNat w p) c
        = { ring with cells := update ring.cells (p % ring.cap) c } := by
  simp only [setCell, SizeT.toNat, h.mod_mod]

theorem setSeq_setStorage (pos seq : BitVec w) (storage : Option α)
    : (ring.setStorage pos storage).setSeq pos seq = ring.setCell pos ⟨seq, storage⟩ := by
  simp [setSeq, setStorage, setCell, cell]

section Steps

variable {v : α} {pos : BitVec w}

theorem tryPush_go_cas (hpos : ring.enqueuePos = pos)
    (hdiff : SizeT.diff (ring.cell pos).seq pos = 0) (failures n : Nat)
    : tryPush.go (2 * failures + 3 + n) failures ring (.cas v pos)
        = some
          ((({ ring with enqueuePos := SizeT.add pos 1 }.setStorage pos (some v)).setSeq pos
            (SizeT.add pos 1)), true) := by
  induction failures with
  | zero =>
    have hfuel : 2 * 0 + 3 + n = n + 1 + 1 + 1 := by omega
    rw [hfuel]
    simp [tryPush.go, pushStep, hpos]
  | succ failures ih =>
    have hfuel : 2 * (failures + 1) + 3 + n = (2 * failures + 3 + n) + 1 + 1 := by omega
    rw [hfuel]
    simp only [tryPush.go, pushStep, Nat.zero_lt_succ, decide_true, Bool.true_eq_false, and_false,
      if_false, Nat.add_sub_cancel, hpos, hdiff, if_true]
    exact ih

theorem tryPush_of_diff_eq_zero
    (hdiff : SizeT.diff (ring.cell ring.enqueuePos).seq ring.enqueuePos = 0)
    (hfuel : 2 * failures + 5 ≤ fuel)
    : ring.tryPush fuel failures v
        = some
          ((({ ring with enqueuePos := SizeT.add ring.enqueuePos 1 }.setStorage ring.enqueuePos
            (some v)).setSeq ring.enqueuePos (SizeT.add ring.enqueuePos 1)), true) := by
  obtain ⟨n, rfl⟩ := Nat.exists_eq_add_of_le hfuel
  have hfuel : 2 * failures + 5 + n = (2 * failures + 3 + n) + 1 + 1 := by omega
  rw [hfuel]
  simp only [tryPush, tryPush.go, pushStep, hdiff, if_true]
  exact tryPush_go_cas rfl hdiff failures n

theorem tryPush_of_diff_neg (hdiff : SizeT.diff (ring.cell ring.enqueuePos).seq ring.enqueuePos < 0)
    (hfuel : 2 ≤ fuel)
    : ring.tryPush fuel failures v = some (ring, false) := by
  obtain ⟨n, rfl⟩ := Nat.exists_eq_add_of_le hfuel
  have hne : ¬ SizeT.diff (ring.cell ring.enqueuePos).seq ring.enqueuePos = 0 := by omega
  have hfuel : 2 + n = n + 1 + 1 := by omega
  rw [hfuel]
  simp only [tryPush, tryPush.go, pushStep, hne, hdiff, if_true, if_false]

theorem tryPush_of_diff_pos
    (hdiff : 0 < SizeT.diff (ring.cell ring.enqueuePos).seq ring.enqueuePos) (fuel failures : Nat)
    : ring.tryPush fuel failures v = none := by
  have hne : ¬ SizeT.diff (ring.cell ring.enqueuePos).seq ring.enqueuePos = 0 := by omega
  have hneg : ¬ SizeT.diff (ring.cell ring.enqueuePos).seq ring.enqueuePos < 0 := by omega
  unfold tryPush
  induction fuel using Nat.twoStepInduction with
  | zero => rfl
  | one => rfl
  | more fuel ih _ =>
    simp only [tryPush.go, pushStep, hne, hneg, if_false]
    exact ih

theorem tryPop_go_cas (hpos : ring.dequeuePos = pos)
    (hdiff : SizeT.diff (ring.cell pos).seq (SizeT.add pos 1) = 0) (failures n : Nat)
    : tryPop.go (3 * failures + 4 + n) failures ring (.cas pos)
        = some
          ((({ ring with dequeuePos := SizeT.add pos 1 }.setStorage pos none).setSeq pos
            (SizeT.add pos ring.cap)), true, (ring.cell pos).storage) := by
  induction failures with
  | zero =>
    have hfuel : 3 * 0 + 4 + n = n + 1 + 1 + 1 + 1 := by omega
    rw [hfuel]
    simp only [tryPop.go, popStep, hpos, Nat.lt_irrefl, decide_false, and_self, if_true]
    rfl
  | succ failures ih =>
    have hfuel : 3 * (failures + 1) + 4 + n = (3 * failures + 4 + n) + 1 + 1 + 1 := by omega
    rw [hfuel]
    simp only [tryPop.go, popStep, Nat.zero_lt_succ, decide_true, Bool.true_eq_false, and_false,
      if_false, Nat.add_sub_cancel, hpos, hdiff, if_true]
    exact ih

theorem tryPop_of_diff_eq_zero
    (hdiff : SizeT.diff (ring.cell ring.dequeuePos).seq (SizeT.add ring.dequeuePos 1) = 0)
    (hfuel : 3 * failures + 6 ≤ fuel)
    : ring.tryPop fuel failures
        = some
          ((({ ring with dequeuePos := SizeT.add ring.dequeuePos 1 }.setStorage ring.dequeuePos
            none).setSeq ring.dequeuePos (SizeT.add ring.dequeuePos ring.cap)), true,
            (ring.cell ring.dequeuePos).storage) := by
  obtain ⟨n, rfl⟩ := Nat.exists_eq_add_of_le hfuel
  have hfuel : 3 * failures + 6 + n = (3 * failures + 4 + n) + 1 + 1 := by omega
  rw [hfuel]
  simp only [tryPop, tryPop.go, popStep, hdiff, if_true]
  exact tryPop_go_cas rfl hdiff failures n

theorem tryPop_of_diff_ne_zero
    (hdiff : SizeT.diff (ring.cell ring.dequeuePos).seq (SizeT.add ring.dequeuePos 1) ≠ 0)
    (hfuel : 2 ≤ fuel)
    : ring.tryPop fuel failures = some (ring, false, none) := by
  obtain ⟨n, rfl⟩ := Nat.exists_eq_add_of_le hfuel
  have hfuel : 2 + n = n + 1 + 1 := by omega
  rw [hfuel]
  simp only [tryPop, tryPop.go, popStep, hdiff, if_false]

end Steps

structure Matches (ring : MpscRingAny (BitVec w) α) (deq : Nat) (queue : IdealQueue α) : Prop where
  cap_eq : ring.cap = queue.cap
  enqueuePos_eq : ring.enqueuePos = BitVec.ofNat w (deq + queue.elems.length)
  dequeuePos_eq : ring.dequeuePos = BitVec.ofNat w deq
  length_le : queue.elems.length ≤ queue.cap
  held : ∀ k x, queue.elems[k]? = some x →
    ring.cells ((deq + k) % ring.cap) = ⟨BitVec.ofNat w (deq + k + 1), some x⟩
  free : ∀ k, queue.elems.length ≤ k → k < queue.cap →
    ring.cells ((deq + k) % ring.cap) = ⟨BitVec.ofNat w (deq + k), none⟩

namespace Matches

variable {deq : Nat} {queue : IdealQueue α} {fuel failures : Nat} {v : α}

theorem new {cap : Nat} (hcap : 2 ≤ cap)
    : Matches (.new cap : MpscRingAny (BitVec w) α) 0 ⟨cap, []⟩ := by
  have hnot : ¬ cap < 2 := by omega
  constructor
  case free =>
    intro k _ hk
    dsimp at hk
    simp [MpscRingAny.new, hnot, Nat.mod_eq_of_lt hk, SizeT.ofNat]
  all_goals simp [MpscRingAny.new, hnot, SizeT.ofNat]

theorem offset_inj (cap deq : Nat) (hj : j < cap) (hk : k < cap)
    (h : (deq + j) % cap = (deq + k) % cap)
    : j = k := by
  have hmod : j ≡ k [MOD cap] := Nat.ModEq.add_left_cancel' deq h
  have := hmod.eq_of_lt_of_lt hj hk
  exact this

theorem two_lt_width (hw : queue.cap < 2 ^ (w - 1)) (hcap : 2 ≤ queue.cap) : 2 < w := by
  by_contra hle
  have hpow : 2 ^ (w - 1) ≤ 2 ^ 1 := Nat.pow_le_pow_right (by omega) (by omega)
  omega

theorem push_lt (h : Matches ring deq queue) (hlen : queue.elems.length < queue.cap)
    (hfit : Fits w queue.cap (deq + queue.elems.length)) (failures : Nat) (v : α)
    : ∃ ring', (∀ fuel, 2 * failures + 5 ≤ fuel → ring.tryPush fuel failures v = some (ring', true)) ∧
        Matches ring' deq { queue with elems := queue.elems ++ [v] } := by
  have hfit : Fits w ring.cap (deq + queue.elems.length) := by
    rw [h.cap_eq]
    exact hfit
  have hfree := h.free queue.elems.length (Nat.le_refl _) hlen
  have hdiff : SizeT.diff (ring.cell ring.enqueuePos).seq ring.enqueuePos = 0 := by
    rw [h.enqueuePos_eq, cell_ofNat hfit, hfree, diff_self]
  refine ⟨_, fun fuel hfuel => tryPush_of_diff_eq_zero hdiff hfuel, ?_⟩
  rw [setSeq_setStorage, h.enqueuePos_eq, add_ofNat, setCell_ofNat (by exact hfit)]
  constructor
  case cap_eq => exact h.cap_eq
  case enqueuePos_eq => simp [Nat.add_assoc]
  case dequeuePos_eq => exact h.dequeuePos_eq
  case length_le =>
    simp only [List.length_append, List.length_singleton]
    omega
  case held =>
    intro k x hx
    have hk : k ≤ queue.elems.length := by
      have := (List.getElem?_eq_some_iff.mp hx).1
      simp only [List.length_append, List.length_singleton] at this
      omega
    dsimp only at hx ⊢
    by_cases hlast : k = queue.elems.length
    . subst hlast
      simp only [List.getElem?_concat_length, Option.some.injEq] at hx
      simp [hx]
    . rw [update_of_ne]
      . apply h.held
        rw [← hx, List.getElem?_append_left (by omega)]
      . intro heq
        have hcap := h.cap_eq
        exact hlast (offset_inj _ _ (by omega) (by omega) heq)
  case free =>
    intro k hk1 hk2
    simp only [List.length_append, List.length_singleton] at hk1
    dsimp only at hk2 ⊢
    rw [update_of_ne]
    . exact h.free k (by omega) hk2
    . intro heq
      have hcap := h.cap_eq
      have := offset_inj _ _ (by omega) (by omega) heq
      omega

theorem push_full (h : Matches ring deq queue) (hw : queue.cap < 2 ^ (w - 1)) (hcap : 2 ≤ queue.cap)
    (hlen : ¬ queue.elems.length < queue.cap)
    (hfit : Fits w queue.cap (deq + queue.elems.length)) (hfuel : 2 ≤ fuel)
    : ring.tryPush fuel failures v = some (ring, false) := by
  have hwidth := two_lt_width hw hcap
  have hle := h.length_le
  have hfit : Fits w ring.cap (deq + queue.elems.length) := by
    rw [h.cap_eq]
    exact hfit
  apply tryPush_of_diff_neg _ hfuel
  -- The head of the queue sits in the cell of the position one round later.
  obtain ⟨x, hx⟩ : ∃ x, queue.elems[0]? = some x := by
    rw [List.getElem?_eq_getElem (by omega)]
    exact ⟨_, rfl⟩
  have hhead := h.held 0 x hx
  have hround : (deq + queue.elems.length) % ring.cap = (deq + 0) % ring.cap := by
    have : queue.elems.length = ring.cap := by
      have := h.cap_eq
      omega
    rw [this]
    simp
  have hcast : (queue.cap : Int) < 2 ^ (w - 1) := by exact_mod_cast hw
  rw [h.enqueuePos_eq, cell_ofNat hfit, hround, hhead]
  rw [diff_ofNat]
  all_goals
    push_cast
    omega

theorem pop_cons (h : Matches ring deq queue) (hq : queue.elems = x :: xs)
    (hfit : Fits w queue.cap deq) (failures : Nat)
    : ∃ ring', (∀ fuel, 3 * failures + 6 ≤ fuel →
          ring.tryPop fuel failures = some (ring', true, some x)) ∧
        Matches ring' (deq + 1) { queue with elems := xs } := by
  have hlen := h.length_le
  rw [hq, List.length_cons] at hlen
  have hfit : Fits w ring.cap deq := by
    rw [h.cap_eq]
    exact hfit
  have hhead := h.held 0 x (by simp [hq])
  rw [Nat.add_zero] at hhead
  have hdiff : SizeT.diff (ring.cell ring.dequeuePos).seq (SizeT.add ring.dequeuePos 1) = 0 := by
    rw [h.dequeuePos_eq, cell_ofNat hfit, hhead, add_ofNat, diff_self]
  have hout : (ring.cell ring.dequeuePos).storage = some x := by
    rw [h.dequeuePos_eq, cell_ofNat hfit, hhead]
  refine ⟨_, fun fuel hfuel => (tryPop_of_diff_eq_zero hdiff hfuel).trans (by rw [hout]), ?_⟩
  rw [setSeq_setStorage, h.dequeuePos_eq, add_ofNat, add_ofNat, setCell_ofNat (by exact hfit)]
  have hcap := h.cap_eq
  have hother : ∀ k, k < queue.cap → (deq + 1 + k) % ring.cap = deq % ring.cap → k + 1 = ring.cap := by
    intro k hk heq
    by_contra hne
    have hinj : k + 1 = 0 := by
      apply offset_inj ring.cap deq (by omega) (by omega)
      rw [← Nat.add_assoc, Nat.add_right_comm, heq, Nat.add_zero]
    omega
  constructor
  case cap_eq => exact h.cap_eq
  case enqueuePos_eq =>
    have := h.enqueuePos_eq
    rw [hq, List.length_cons] at this
    dsimp only
    rw [this]
    congr 1
    omega
  case dequeuePos_eq => rfl
  case length_le =>
    dsimp only
    omega
  case held =>
    intro k y hy
    dsimp only at hy ⊢
    have hk := (List.getElem?_eq_some_iff.mp hy).1
    rw [update_of_ne]
    . have := h.held (k + 1) y (by simpa [hq] using hy)
      rw [Nat.add_right_comm, Nat.add_assoc deq k 1]
      rw [this]
    . intro heq
      have := hother k (by omega) heq
      omega
  case free =>
    intro k hk1 hk2
    dsimp only at hk1 hk2 ⊢
    by_cases hlast : k + 1 = ring.cap
    . have hpos : deq + 1 + k = deq + ring.cap := by omega
      rw [hpos]
      simp
    . rw [update_of_ne]
      . have := h.free (k + 1) (by rw [hq, List.length_cons]; omega) (by omega)
        rw [Nat.add_right_comm, Nat.add_assoc deq k 1]
        exact this
      . intro heq
        exact hlast (hother k hk2 heq)

theorem ofNat_two_pow_add (w n : Nat) : BitVec.ofNat w (2 ^ w + n) = BitVec.ofNat w n := by
  apply BitVec.eq_of_toNat_eq
  rw [BitVec.toNat_ofNat, BitVec.toNat_ofNat, Nat.add_mod_left]

theorem ofNat_two_pow (w : Nat) : BitVec.ofNat w (2 ^ w) = BitVec.ofNat w 0 :=
  ofNat_two_pow_add w 0

theorem cell_wrapped (h : Matches ring (2 ^ w) queue) (hq : queue.elems = []) (hcap : 0 < queue.cap)
    (hdvd : ¬ queue.cap ∣ 2 ^ w)
    : ring.cell (BitVec.ofNat w (2 ^ w))
        = ⟨BitVec.ofNat w (queue.cap - 2 ^ w % queue.cap), none⟩ := by
  have hlt : 2 ^ w % queue.cap < queue.cap := Nat.mod_lt _ hcap
  have hcell := h.free (queue.cap - 2 ^ w % queue.cap) (by simp [hq]) (by omega)
  have hidx : (2 ^ w + (queue.cap - 2 ^ w % queue.cap)) % queue.cap = 0 := by
    have hdiv := Nat.div_add_mod (2 ^ w) queue.cap
    have heq : 2 ^ w + (queue.cap - 2 ^ w % queue.cap) = queue.cap * (2 ^ w / queue.cap + 1) := by
      rw [Nat.mul_add]
      omega
    rw [heq, Nat.mul_mod_right]
  rw [h.cap_eq, hidx, ofNat_two_pow_add] at hcell
  rw [ofNat_two_pow, cell_ofNat (Or.inr (Nat.two_pow_pos w)), Nat.zero_mod, hcell]

section

variable (h : Matches ring (2 ^ w) queue) (hq : queue.elems = []) (hw : queue.cap < 2 ^ (w - 1))
  (hcap : 2 ≤ queue.cap) (hdvd : ¬ queue.cap ∣ 2 ^ w)

include h hq hw hcap hdvd

theorem push_wrapped (fuel failures : Nat) (v : α) : ring.tryPush fuel failures v = none := by
  have hwidth := two_lt_width hw hcap
  have hlt : 2 ^ w % queue.cap < queue.cap := Nat.mod_lt _ (by omega)
  have hcast : (queue.cap : Int) < 2 ^ (w - 1) := by exact_mod_cast hw
  apply tryPush_of_diff_pos
  rw [h.enqueuePos_eq, hq, List.length_nil, Nat.add_zero, h.cell_wrapped hq (by omega) hdvd,
    ofNat_two_pow]
  rw [diff_ofNat]
  all_goals
    push_cast
    omega

theorem diff_pop_wrapped
    : SizeT.diff (ring.cell ring.dequeuePos).seq (SizeT.add ring.dequeuePos 1) = 0 ↔
      queue.cap ∣ 2 ^ w + 1 := by
  have hwidth := two_lt_width hw hcap
  have hlt : 2 ^ w % queue.cap < queue.cap := Nat.mod_lt _ (by omega)
  have hcast : (queue.cap : Int) < 2 ^ (w - 1) := by exact_mod_cast hw
  have hone : BitVec.ofNat w (2 ^ w + 1) = BitVec.ofNat w 1 := by
    apply BitVec.eq_of_toNat_eq
    simp
  rw [h.dequeuePos_eq, h.cell_wrapped hq (by omega) hdvd, add_ofNat, hone]
  rw [diff_ofNat (by push_cast; omega) (by push_cast; omega) (by omega)]
  have hmod : queue.cap ∣ 2 ^ w + 1 ↔ 2 ^ w % queue.cap + 1 = queue.cap := by
    rw [Nat.dvd_iff_mod_eq_zero, ← Nat.mod_add_mod]
    constructor
    . intro hzero
      by_contra hne
      rw [Nat.mod_eq_of_lt (by omega)] at hzero
      omega
    . intro hlast
      rw [hlast, Nat.mod_self]
  rw [hmod]
  generalize 2 ^ w % queue.cap = r at hlt ⊢
  omega

end

end Matches
end MpscRingAny
end LogIt
