import Mathlib.Algebra.Group.Nat.Defs

/-!
This module contains the macros that limit how often a call site emits. The variables of a call site
are the state, and a run is the list of its calls.
-/

namespace LogIt.RateLimit

/--
`LOGIT_EVERY_N` with the counter of the call site.
-/
def everyN (n count : UInt32) : Bool × UInt32 :=
  let count := count + 1
  (count % n == 0, count)

def everyNCount (n : UInt32) : Nat → UInt32
  | 0 => 0
  | calls + 1 => (everyN n (everyNCount n calls)).2

/--
The calls are numbered from 1.
-/
def everyNEmits (n : UInt32) (ordinal : Nat) : Bool :=
  (everyN n (everyNCount n (ordinal - 1))).1

/--
`LOGIT_THROTTLE` with the time of the last emission.
-/
def throttle (periodMs last now : Int64) : Bool × Int64 :=
  if periodMs ≤ now - last then (true, now) else (false, last)

def throttleRun (periodMs last : Int64) : List Int64 → List Bool
  | [] => []
  | now :: times =>
    let result := throttle periodMs last now
    result.1 :: throttleRun periodMs result.2 times

def throttleEmits (periodMs : Int64) (times : List Int64) : List Bool :=
  throttleRun periodMs 0 times

/--
The schedule by the time of the last emitting call, if there is one.
-/
def schedule (periodMs : Int) (last : Option Int) : List Int → List Bool
  | [] => []
  | now :: times =>
    match last with
    | none => true :: schedule periodMs (some now) times
    | some emitted =>
      if periodMs ≤ now - emitted then
        true :: schedule periodMs (some now) times
      else
        false :: schedule periodMs (some emitted) times

theorem everyNCount_eq (n : UInt32) (calls : Nat) : everyNCount n calls = UInt32.ofNat calls := by
  induction calls with
  | zero => rfl
  | succ calls ih =>
    unfold everyNCount everyN
    rw [ih]
    simp

theorem everyNEmits_iff (n : UInt32) (calls : Nat)
    : everyNEmits n (calls + 1) = true ↔ n.toNat ∣ (calls + 1) % 2 ^ 32 := by
  unfold everyNEmits everyN
  rw [everyNCount_eq, Nat.add_sub_cancel]
  dsimp only
  rw [beq_iff_eq, ← UInt32.toNat_inj, UInt32.toNat_mod, UInt32.toNat_add, Nat.dvd_iff_mod_eq_zero]
  simp

theorem everyNEmits_all_iff (n : UInt32)
    : (∀ calls, everyNEmits n (calls + 1) = true ↔ n.toNat ∣ calls + 1) ↔ n.toNat ∣ 2 ^ 32 := by
  simp only [everyNEmits_iff]
  constructor
  . intro h
    have hlast := h (2 ^ 32 - 1)
    rw [Nat.sub_add_cancel Nat.one_le_two_pow, Nat.mod_self] at hlast
    exact hlast.mp (Nat.dvd_zero _)
  . intro h calls
    exact Nat.dvd_mod_iff h

theorem le_sub_iff_of_nonneg {periodMs now last : Int64} (hnow : 0 ≤ now) (hlast : 0 ≤ last)
    : periodMs ≤ now - last ↔ periodMs.toInt ≤ now.toInt - last.toInt := by
  rw [Int64.le_iff_toInt_le, Int64.toInt_zero] at hnow hlast
  have := now.toInt_lt
  have := last.toInt_lt
  rw [Int64.le_iff_toInt_le, Int64.toInt_sub, Int.bmod_eq_of_le]
  . omega
  . omega

theorem throttleRun_eq_schedule {periodMs last : Int64} {times : List Int64} (hlast : 0 ≤ last)
    (htimes : ∀ now ∈ times, 0 ≤ now)
    : throttleRun periodMs last times
        = schedule periodMs.toInt (some last.toInt) (times.map Int64.toInt) := by
  induction times generalizing last with
  | nil => rfl
  | cons now times ih =>
    rw [List.forall_mem_cons] at htimes
    unfold throttleRun throttle
    simp only [List.map_cons, schedule, le_sub_iff_of_nonneg htimes.1 hlast]
    split
    . rw [ih htimes.1 htimes.2]
    . rw [ih hlast htimes.2]

theorem throttleEmits_eq_schedule_iff (htimes : ∀ now ∈ first :: times, 0 ≤ now)
    : throttleEmits periodMs (first :: times)
        = schedule periodMs.toInt none ((first :: times).map Int64.toInt) ↔ periodMs ≤ first := by
  rw [List.forall_mem_cons] at htimes
  unfold throttleEmits throttleRun throttle
  rw [Int64.sub_zero, List.map_cons, schedule]
  split
  . next hperiod =>
    dsimp only
    rw [throttleRun_eq_schedule htimes.1 htimes.2]
    simp [hperiod]
  . next hperiod => simp [hperiod]

theorem rate_limit_iff (periodMs first : Int64) (times : List Int64) (n : UInt32)
    (htimes : ∀ now ∈ first :: times, 0 ≤ now)
    : (throttleEmits periodMs (first :: times)
        = schedule periodMs.toInt none ((first :: times).map Int64.toInt) ↔ periodMs ≤ first) ∧
      ((∀ calls, everyNEmits n (calls + 1) = true ↔ n.toNat ∣ calls + 1) ↔ n.toNat ∣ 2 ^ 32) :=
  ⟨throttleEmits_eq_schedule_iff htimes, everyNEmits_all_iff n⟩

theorem rate_limit_on_schedule
    : throttleEmits 10 [12, 15, 22] = schedule 10 none [12, 15, 22] ∧
      ∀ calls, everyNEmits 4 (calls + 1) = true ↔ 4 ∣ calls + 1 := by
  have h := rate_limit_iff 10 12 [15, 22] 4 (by simp)
  exact ⟨h.1.mpr (by decide), h.2.mpr (by decide)⟩

theorem rate_limit_off_schedule
    : throttleEmits 10 [5, 7] = [false, false] ∧ schedule 10 none [5, 7] = [true, false] ∧
      everyNEmits 3 (2 ^ 32) = true ∧ ¬ 3 ∣ 2 ^ 32 := by
  refine ⟨by decide, by decide, ?_, by decide⟩
  rw [← Nat.sub_add_cancel Nat.one_le_two_pow, everyNEmits_iff]
  decide

end LogIt.RateLimit
