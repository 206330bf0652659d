import LogIt.Ring.Lemmas.Wraparound

namespace LogIt

open Option

variable {α : Type} {w : Nat}

namespace IdealQueue

open MpscRingAny

theorem call_cap (queue : IdealQueue α) (c : Call α)
    : (queue.call c).1.cap = queue.cap := by
  cases c with
  | push v failures | pop failures =>
    simp only [IdealQueue.call]
    split <;> rfl

theorem calls_append_singleton (queue : IdealQueue α) (cs : List (Call α)) (c : Call α)
    : (queue.calls (cs ++ [c])).2 = (queue.calls cs).2 ++ [((queue.calls cs).1.call c).2] := by
  induction cs generalizing queue with
  | nil => rfl
  | cons d cs ih => simp [IdealQueue.calls, ih]

end IdealQueue

namespace MpscRingAny

variable {ring : MpscRingAny (BitVec w) α}

def SafeFor (w cap n : Nat) : Prop :=
  cap ∣ 2 ^ w ∨ n < 2 ^ w ∨ (n = 2 ^ w ∧ ¬ cap ∣ 2 ^ w + 1)

theorem SafeFor.mono {cap m n : Nat} (h : SafeFor w cap n) (hle : m ≤ n) : SafeFor w cap m := by
  rcases h with h | h | ⟨h, hdvd⟩
  . exact .inl h
  . exact .inr (.inl (by omega))
  . by_cases heq : m = 2 ^ w
    . exact .inr (.inr ⟨heq, hdvd⟩)
    . exact .inr (.inl (by omega))

theorem SafeFor.fits {cap n : Nat} (h : SafeFor w cap (n + 1)) : Fits w cap n := by
  rcases h with h | h | ⟨h, _⟩
  . exact .inl h
  . exact .inr (by omega)
  . exact .inr (by omega)

def Call.pushes (c : Call α) : Nat :=
  match c with
  | .push _ _ => 1
  | .pop _ => 0

def pushCount (cs : List (Call α)) : Nat :=
  (cs.map Call.pushes).sum

namespace Matches

variable {deq : Nat} {queue : IdealQueue α}

section

variable (h : Matches ring deq queue) (hw : queue.cap < 2 ^ (w - 1)) (hcap : 2 ≤ queue.cap)

include h hw hcap

theorem pop_nil (hq : queue.elems = []) (hsafe : SafeFor w queue.cap deq) (failures : Nat)
    (hfuel : 2 ≤ fuel)
    : ring.tryPop fuel failures = some (ring, false, none) := by
  apply tryPop_of_diff_ne_zero _ hfuel
  by_cases hwrap : deq = 2 ^ w ∧ ¬ queue.cap ∣ 2 ^ w
  . obtain ⟨rfl, hdvd⟩ := hwrap
    intro hzero
    have hnext := (h.diff_pop_wrapped hq hw hcap hdvd).mp hzero
    rcases hsafe with hsafe | hsafe | ⟨_, hsafe⟩
    . exact hdvd hsafe
    . omega
    . exact hsafe hnext
  . have hfit : Fits w ring.cap deq := by
      rw [h.cap_eq]
      rcases hsafe with hsafe | hsafe | ⟨heq, _⟩
      . exact .inl hsafe
      . exact .inr hsafe
      . exact .inl (by
          by_contra hdvd
          exact hwrap ⟨heq, hdvd⟩)
    have hwidth := two_lt_width hw hcap
    have hfree := h.free 0 (by simp [hq]) (by omega)
    rw [Nat.add_zero] at hfree
    have hpow : (1 : Int) ≤ 2 ^ (w - 1) := by
      exact_mod_cast Nat.one_le_two_pow
    rw [h.dequeuePos_eq, cell_ofNat hfit, hfree, add_ofNat]
    rw [diff_ofNat]
    all_goals
      push_cast
      omega

theorem call_eq (c : Call α) (hsafe : SafeFor w queue.cap (deq + queue.elems.length + c.pushes))
    : ∃ ring' deq' n, (∀ fuel, n ≤ fuel → ring.call fuel c = some (ring', (queue.call c).2)) ∧
        Matches ring' deq' (queue.call c).1 ∧
        deq' + (queue.call c).1.elems.length ≤ deq + queue.elems.length + c.pushes := by
  cases c with
  | push v failures =>
    have hfit : Fits w queue.cap (deq + queue.elems.length) := hsafe.fits
    by_cases hlen : queue.elems.length < queue.cap
    . obtain ⟨ring', hpush, hmatch⟩ := h.push_lt hlen hfit failures v
      refine ⟨ring', deq, 2 * failures + 5, ?_, ?_, ?_⟩
      . intro fuel hfuel
        simp [call, IdealQueue.call, hlen, hpush fuel hfuel]
      . simpa [IdealQueue.call, hlen] using hmatch
      . simp [IdealQueue.call, hlen, Call.pushes, Nat.add_assoc]
    . refine ⟨ring, deq, 2, ?_, ?_, ?_⟩
      . intro fuel hfuel
        simp [call, IdealQueue.call, hlen, h.push_full hw hcap hlen hfit hfuel]
      . simpa [IdealQueue.call, hlen] using h
      . simp [IdealQueue.call, hlen]
  | pop failures =>
    cases hq : queue.elems with
    | nil =>
      have hsafe := hsafe.mono (show deq ≤ _ by omega)
      refine ⟨ring, deq, 2, ?_, ?_, ?_⟩
      . intro fuel hfuel
        simp [call, IdealQueue.call, hq, h.pop_nil hw hcap hq hsafe failures hfuel]
      . simpa [IdealQueue.call, hq] using h
      . simp [IdealQueue.call, hq]
    | cons x xs =>
      have hfit : Fits w queue.cap deq := by
        apply SafeFor.fits
        apply hsafe.mono
        simp [hq]
        omega
      obtain ⟨ring', hpop, hmatch⟩ := h.pop_cons hq hfit failures
      refine ⟨ring', deq + 1, 3 * failures + 6, ?_, ?_, ?_⟩
      . intro fuel hfuel
        simp [call, IdealQueue.call, hq, hpop fuel hfuel]
      . simpa [IdealQueue.call, hq] using hmatch
      . simp only [IdealQueue.call, hq, List.length_cons]
        omega

end

end Matches

theorem Matches.calls_eq (h : Matches ring deq queue) (hw : queue.cap < 2 ^ (w - 1))
    (hcap : 2 ≤ queue.cap) (cs : List (Call α))
    (hsafe : SafeFor w queue.cap (deq + queue.elems.length + pushCount cs))
    : ∃ ring' n, ∀ fuel, n ≤ fuel → ring.calls fuel cs = some (ring', (queue.calls cs).2) := by
  induction cs generalizing ring deq queue with
  | nil =>
    refine ⟨ring, 0, ?_⟩
    intro fuel _
    rfl
  | cons c cs ih =>
    have hcount : pushCount (c :: cs) = c.pushes + pushCount cs := by
      simp [pushCount]
    rw [hcount] at hsafe
    obtain ⟨ring1, deq1, n1, hcall, hmatch, hpos⟩ := h.call_eq hw hcap c (hsafe.mono (by omega))
    have hcap1 := queue.call_cap c
    have hsafe1 := hsafe.mono (show deq1 + (queue.call c).1.elems.length + pushCount cs ≤ _ by omega)
    obtain ⟨ring2, n2, hcalls⟩ := ih hmatch (by rwa [hcap1]) (by rwa [hcap1]) (by rwa [hcap1])
    refine ⟨ring2, max n1 n2, ?_⟩
    intro fuel hfuel
    have h1 := hcall fuel (by omega)
    have h2 := hcalls fuel (by omega)
    simp [calls, IdealQueue.calls, h1, h2]

theorem tryPush_go_mono (h : tryPush.go fuel failures ring pc = some res) (n : Nat)
    : tryPush.go (fuel + n) failures ring pc = some res := by
  induction fuel generalizing failures ring pc with
  | zero =>
    cases pc with
    | returned ok v => simpa [tryPush.go] using h
    | _ => simp [tryPush.go] at h
  | succ fuel ih =>
    rw [Nat.add_right_comm]
    cases pc with
    | returned ok v => simpa [tryPush.go] using h
    | _ => exact ih h

theorem tryPop_go_mono (h : tryPop.go fuel failures ring pc = some res) (n : Nat)
    : tryPop.go (fuel + n) failures ring pc = some res := by
  induction fuel generalizing failures ring pc with
  | zero =>
    cases pc with
    | returned ok v => simpa [tryPop.go] using h
    | _ => simp [tryPop.go] at h
  | succ fuel ih =>
    rw [Nat.add_right_comm]
    cases pc with
    | returned ok v => simpa [tryPop.go] using h
    | _ => exact ih h

theorem call_mono (h : ring.call fuel c = some res) (n : Nat)
    : ring.call (fuel + n) c = some res := by
  cases c with simp only [call, map_eq_some_iff] at h ⊢
  | push v failures =>
    obtain ⟨r, hr, hres⟩ := h
    exact ⟨r, tryPush_go_mono hr n, hres⟩
  | pop failures =>
    obtain ⟨r, hr, hres⟩ := h
    exact ⟨r, tryPop_go_mono hr n, hres⟩

theorem calls_mono (h : ring.calls fuel cs = some res) (n : Nat)
    : ring.calls (fuel + n) cs = some res := by
  induction cs generalizing ring res with
  | nil => exact h
  | cons c cs ih =>
    simp only [calls] at h ⊢
    cases hc : ring.call fuel c with
    | none => simp [hc] at h
    | some r =>
      rw [call_mono hc n]
      simp only [hc, map_eq_some_iff] at h ⊢
      obtain ⟨rest, hrest, hres⟩ := h
      exact ⟨rest, ih hrest, hres⟩

theorem calls_append (fuel : Nat) (cs ds : List (Call α))
    : ring.calls fuel (cs ++ ds)
        = (ring.calls fuel cs).bind fun res =>
          (res.1.calls fuel ds).map fun rest => (rest.1, res.2 ++ rest.2) := by
  induction cs generalizing ring with
  | nil => simp [calls]
  | cons c cs ih =>
    simp only [List.cons_append, calls]
    cases ring.call fuel c with
    | none => rfl
    | some r =>
      dsimp only
      rw [ih]
      cases r.1.calls fuel cs with
      | none => rfl
      | some r' =>
        dsimp only [bind_some, map_some]
        cases r'.1.calls fuel ds <;> rfl

def rounds (v : α) (n : Nat) : List (Call α) :=
  match n with
  | 0 => []
  | n + 1 => .push v 0 :: .pop 0 :: rounds v n

theorem Matches.rounds {deq cap : Nat} (h : Matches ring deq ⟨cap, []⟩) (hcap : 2 ≤ cap) (v : α)
    {n : Nat} (hn : deq + n ≤ 2 ^ w)
    : ∃ ring', Matches ring' (deq + n) ⟨cap, []⟩ ∧
        ∀ fuel, 6 ≤ fuel → ∃ res, ring.calls fuel (rounds v n) = some (ring', res) := by
  induction n generalizing ring deq with
  | zero =>
    refine ⟨ring, h, ?_⟩
    intro fuel _
    exact ⟨[], rfl⟩
  | succ n ih =>
    obtain ⟨ring1, hpush, h1⟩ := h.push_lt (by dsimp; omega) (.inr (by dsimp; omega)) 0 v
    obtain ⟨ring2, hpop, h2⟩ := h1.pop_cons rfl (.inr (by omega)) 0
    obtain ⟨ring3, h3, hrounds⟩ := ih h2 (by omega)
    refine ⟨ring3, ?_, ?_⟩
    . have heq : deq + (n + 1) = deq + 1 + n := by omega
      rw [heq]
      exact h3
    . intro fuel hfuel
      obtain ⟨res, hres⟩ := hrounds fuel hfuel
      have hpush := hpush fuel (by omega)
      have hpop := hpop fuel (by omega)
      simp [MpscRingAny.rounds, calls, call, hpush, hpop, hres]

section Divergence

variable {cap : Nat}

theorem pushCount_rounds (v : α) (n : Nat) : pushCount (rounds v n) = n := by
  induction n with
  | zero => rfl
  | succ n ih =>
    simp only [pushCount] at ih
    simp only [pushCount, rounds, List.map_cons, List.sum_cons, ih, Call.pushes]
    omega

theorem ideal_calls_rounds (hcap : 2 ≤ cap) (v : α) (n : Nat)
    : ((⟨cap, []⟩ : IdealQueue α).calls (rounds v n)).1 = ⟨cap, []⟩ := by
  have hpos : 0 < cap := by omega
  induction n with
  | zero => rfl
  | succ n ih => simp [rounds, IdealQueue.calls, IdealQueue.call, hpos, ih]

def wrapHistory (w : Nat) (v : α) : List (Call α) :=
  rounds v (2 ^ w) ++ [.push v 0]

variable (hcap : 2 ≤ cap) (hw : cap < 2 ^ (w - 1)) (hdvd : ¬ cap ∣ 2 ^ w)

include hcap hw hdvd

theorem calls_wrapHistory (v : α) (fuel : Nat)
    : (.new cap : MpscRingAny (BitVec w) α).calls fuel (wrapHistory w v) = none := by
  obtain ⟨ring', hmatch, hrounds⟩ := (Matches.new (w := w) (α := α) hcap).rounds hcap v
    (n := 2 ^ w) (by omega)
  rw [Nat.zero_add] at hmatch
  cases hcalls : (.new cap : MpscRingAny (BitVec w) α).calls fuel (wrapHistory w v) with
  | none => rfl
  | some res =>
    -- More fuel changes nothing, so the rounds may be taken to have returned.
    have hmono := calls_mono hcalls 6
    obtain ⟨rs, hrs⟩ := hrounds (fuel + 6) (by omega)
    rw [wrapHistory, calls_append, hrs] at hmono
    simp [calls, call, hmatch.push_wrapped rfl hw hcap hdvd] at hmono

theorem calls_pop_wrapped (hnext : cap ∣ 2 ^ w + 1) (v : α) (fuel : Nat)
    : ((.new cap : MpscRingAny (BitVec w) α).calls fuel (rounds v (2 ^ w) ++ [.pop 0])).map Prod.snd
        ≠ some (IdealQueue.calls ⟨cap, []⟩ (rounds v (2 ^ w) ++ [.pop 0])).2 := by
  obtain ⟨ring', hmatch, hrounds⟩ := (Matches.new (w := w) (α := α) hcap).rounds hcap v
    (n := 2 ^ w) (by omega)
  rw [Nat.zero_add] at hmatch
  intro heq
  obtain ⟨res, hres, hsnd⟩ := map_eq_some_iff.mp heq
  have hmono := calls_mono hres 6
  obtain ⟨rs, hrs⟩ := hrounds (fuel + 6) (by omega)
  have hdiff := (hmatch.diff_pop_wrapped rfl hw hcap hdvd).mpr hnext
  have hpop : ring'.tryPop (fuel + 6) 0 = _ := tryPop_of_diff_eq_zero hdiff (by omega)
  rw [calls_append, hrs] at hmono
  simp only [calls, call, hpop, bind_some, map_some, some.injEq] at hmono
  rw [← hmono, IdealQueue.calls_append_singleton, ideal_calls_rounds hcap] at hsnd
  have hlast := (List.append_inj' hsnd rfl).2
  simp [IdealQueue.call] at hlast

end Divergence

theorem calls_eq_ideal_iff [Inhabited α] (w cap : Nat) (hcap : 2 ≤ cap) (hw : cap < 2 ^ (w - 1))
    : ((∀ cs : List (Call α), ∃ fuel,
        ((.new cap : MpscRingAny (BitVec w) α).calls fuel cs).map Prod.snd
          = some (IdealQueue.calls ⟨cap, []⟩ cs).2) ↔ cap ∣ 2 ^ w) ∧
      ∀ n, (∀ cs : List (Call α), pushCount cs ≤ n → ∃ fuel,
        ((.new cap : MpscRingAny (BitVec w) α).calls fuel cs).map Prod.snd
          = some (IdealQueue.calls ⟨cap, []⟩ cs).2) ↔ SafeFor w cap n := by
  have hok : ∀ cs : List (Call α), SafeFor w cap (pushCount cs) → ∃ fuel,
      ((.new cap : MpscRingAny (BitVec w) α).calls fuel cs).map Prod.snd
        = some (IdealQueue.calls ⟨cap, []⟩ cs).2 := by
    intro cs hsafe
    obtain ⟨ring', n, hcalls⟩ := (Matches.new (w := w) (α := α) hcap).calls_eq hw hcap cs
      (by simpa using hsafe)
    refine ⟨n, ?_⟩
    rw [hcalls n (Nat.le_refl n)]
    rfl
  have hcount : ∀ c : Call α, pushCount (rounds default (2 ^ w) ++ [c]) = 2 ^ w + c.pushes := by
    intro c
    have := pushCount_rounds (default : α) (2 ^ w)
    simp only [pushCount] at this
    simp [pushCount, this]
  constructor
  . constructor
    . intro h
      by_contra hdvd
      obtain ⟨fuel, hfuel⟩ := h (wrapHistory w default)
      rw [calls_wrapHistory hcap hw hdvd] at hfuel
      simp at hfuel
    . intro hdvd cs
      exact hok cs (.inl hdvd)
  . intro n
    constructor
    . intro h
      by_contra hsafe
      simp only [SafeFor, not_or, not_and, not_not, Nat.not_lt] at hsafe
      obtain ⟨hdvd, hn, hnext⟩ := hsafe
      by_cases heq : n = 2 ^ w
      . obtain ⟨fuel, hfuel⟩ := h (rounds default (2 ^ w) ++ [.pop 0])
          (by rw [hcount, heq, Call.pushes, Nat.add_zero])
        exact calls_pop_wrapped hcap hw hdvd (hnext heq) default fuel hfuel
      . obtain ⟨fuel, hfuel⟩ := h (wrapHistory w default)
          (by rw [wrapHistory, hcount, Call.pushes]; omega)
        rw [calls_wrapHistory hcap hw hdvd] at hfuel
        simp at hfuel
    . intro hsafe cs hle
      exact hok cs (hsafe.mono hle)

theorem calls_eq_ideal_four
    : 4 ∣ 2 ^ 4 ∧ ∃ fuel,
        ((.new 4 : MpscRingAny (BitVec 4) Nat).calls fuel (wrapHistory 4 0)).map Prod.snd
          = some (IdealQueue.calls ⟨4, []⟩ (wrapHistory 4 0)).2 := by
  refine ⟨by decide, ?_⟩
  exact (calls_eq_ideal_iff 4 4 (by decide) (by decide)).1.mpr (by decide) (wrapHistory 4 0)

theorem calls_ne_ideal_thousand
    : ¬ ∃ fuel, ((.new 1000 : MpscRingAny (BitVec 32) Nat).calls fuel (wrapHistory 32 0)).map Prod.snd
        = some (IdealQueue.calls ⟨1000, []⟩ (wrapHistory 32 0)).2 := by
  intro ⟨fuel, hfuel⟩
  rw [calls_wrapHistory (by decide) (by decide) (by decide)] at hfuel
  simp at hfuel

end MpscRingAny
end LogIt
