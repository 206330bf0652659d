import Mathlib.Algebra.Group.Int.Defs
import Mathlib.Algebra.Group.Nat.Defs
import Mathlib.Data.Int.Init

/-!
This module contains the integer types of a machine, as seen from the mathematical integers.
-/

namespace LogIt

structure MachineInteger where
  bits : Nat
  signed : Bool
  deriving DecidableEq

namespace MachineInteger

variable (type : MachineInteger)

def cast (n : Int) : Int :=
  if type.signed then
    n.bmod (2 ^ type.bits)
  else
    n % 2 ^ type.bits

def Fits (n : Int) : Prop :=
  if type.signed then
    -2 ^ type.bits ≤ 2 * n ∧ 2 * n < 2 ^ type.bits
  else
    0 ≤ n ∧ n < 2 ^ type.bits

instance (n : Int) : Decidable (type.Fits n) :=
  inferInstanceAs (Decidable (ite _ _ _))

theorem bmod_eq_self_iff {n : Int} {m : Nat} (hm : 0 < m)
    : n.bmod m = n ↔ -m ≤ 2 * n ∧ 2 * n < m := by
  constructor
  . intro h
    have hle := Int.le_bmod (x := n) hm
    have hlt := Int.bmod_lt (x := n) hm
    omega
  . intro h
    apply Int.bmod_eq_of_le_mul_two
    . omega
    . omega

theorem cast_eq_self_iff (n : Int)
    : type.cast n = n ↔ type.Fits n := by
  unfold cast Fits
  split
  . rw [bmod_eq_self_iff (Nat.two_pow_pos _)]
    simp
  . constructor
    . intro h
      rw [← h]
      have hpos : (0 : Int) < 2 ^ type.bits := Int.pow_pos (by decide)
      exact ⟨Int.emod_nonneg _ (Int.ne_of_gt hpos), Int.emod_lt_of_pos _ hpos⟩
    . intro h
      exact Int.emod_eq_of_lt h.1 h.2

theorem toInt_eq_cast (value : Int64)
    : value.toInt = cast ⟨64, true⟩ value.toInt := by
  symm
  rw [cast_eq_self_iff]
  have hle := value.le_toInt
  have hlt := value.toInt_lt
  simp only [Fits, if_true]
  omega

theorem toInt_toInt32_eq_cast (value : Int64)
    : value.toInt32.toInt = cast ⟨32, true⟩ value.toInt := by
  rw [Int64.toInt_toInt32]
  rfl

theorem toNat_eq_cast (value : UInt64)
    : (value.toNat : Int) = cast ⟨64, false⟩ value.toNat := by
  symm
  rw [cast_eq_self_iff]
  have hlt := value.toNat_lt
  simp only [Fits, Bool.false_eq_true, if_false]
  omega

theorem toNat_toUInt32_eq_cast (value : UInt64)
    : (value.toUInt32.toNat : Int) = cast ⟨32, false⟩ value.toNat := by
  rw [UInt64.toNat_toUInt32]
  rfl

theorem toNat_toUInt16_eq_cast (value : UInt64)
    : (value.toUInt16.toNat : Int) = cast ⟨16, false⟩ value.toNat := by
  rw [UInt64.toNat_toUInt16]
  rfl

end MachineInteger
end LogIt
