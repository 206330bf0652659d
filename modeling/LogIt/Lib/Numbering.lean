import Mathlib.Data.List.Basic
import Mathlib.Data.List.Count
import Mathlib.Data.List.Pairwise
import Mathlib.Data.List.Range
import Mathlib.Data.UInt
import Mathlib.Order.Basic

/-!
This module contains the numbering of the equal elements of a list, and the search for a free index
with a counter of 32 bits that wraps around.
-/

variable {α : Type} [BEq α]

def numberFrom (seen : List α) (keys : List α) : List (α × Nat) :=
  match keys with
  | [] => []
  | key :: keys => (key, seen.count key) :: numberFrom (seen ++ [key]) keys

def numbered (keys : List α) : List (α × Nat) :=
  numberFrom [] keys

theorem numberFrom_append (seen keys keys' : List α)
    : numberFrom seen (keys ++ keys') = numberFrom seen keys ++ numberFrom (seen ++ keys) keys' := by
  induction keys generalizing seen with
  | nil => simp [numberFrom]
  | cons key keys ih => simp [numberFrom, ih]

theorem numbered_append (keys keys' : List α)
    : numbered (keys ++ keys') = numbered keys ++ numberFrom keys keys' := by
  unfold numbered
  rw [numberFrom_append, List.nil_append]

theorem numbered_concat (keys : List α) (key : α)
    : numbered (keys ++ [key]) = numbered keys ++ [(key, keys.count key)] := by
  rw [numbered_append]
  rfl

theorem map_fst_numbered (keys : List α) : (numbered keys).map Prod.fst = keys := by
  induction keys using List.reverseRecOn with
  | nil => rfl
  | append_singleton keys key ih => simp [numbered_concat, ih]

theorem length_numbered (keys : List α) : (numbered keys).length = keys.length := by
  rw [← List.length_map, map_fst_numbered]

variable [LawfulBEq α]

theorem mem_numbered {keys : List α} {key : α} {n : Nat}
    : (key, n) ∈ numbered keys ↔ n < keys.count key := by
  induction keys using List.reverseRecOn with
  | nil => simp [numbered, numberFrom]
  | append_singleton keys last ih =>
    rw [numbered_concat, List.mem_append, ih, List.count_append, List.mem_singleton]
    by_cases hkey : last = key
    . subst hkey
      simp only [Prod.mk.injEq, true_and, List.count_singleton_self]
      omega
    . have hne : ¬ key = last := fun h => hkey h.symm
      simp [hkey, hne]

theorem pairwise_numbered {lt : α → α → Prop} {keys : List α}
    (hsorted : keys.Pairwise (fun a b => a = b ∨ lt a b))
    : (numbered keys).Pairwise (fun a b => lt a.1 b.1 ∨ a.1 = b.1 ∧ a.2 < b.2) := by
  induction keys using List.reverseRecOn with
  | nil => exact List.Pairwise.nil
  | append_singleton keys key ih =>
    rw [List.pairwise_append] at hsorted
    rw [numbered_concat, List.pairwise_append]
    refine ⟨ih hsorted.1, List.pairwise_singleton _ _, ?_⟩
    rintro ⟨k, n⟩ ha b hb
    rw [List.mem_singleton.mp hb]
    rw [mem_numbered] at ha
    have hmem : k ∈ keys := List.count_pos_iff.mp (by omega)
    cases hsorted.2.2 k hmem key (List.mem_singleton.mpr rfl) with
    | inl heq =>
      subst heq
      exact .inr ⟨rfl, ha⟩
    | inr hlt => exact .inl hlt

theorem numberFrom_replicate (seen : List α) (key : α) (n : Nat)
    : numberFrom seen (List.replicate n key)
        = (List.range n).map (fun i => (key, seen.count key + i)) := by
  induction n generalizing seen with
  | zero => rfl
  | succ n ih =>
    rw [List.replicate_succ, List.range_succ_eq_map, numberFrom, ih]
    simp [Function.comp_def, Nat.add_comm, Nat.add_left_comm]

theorem numbered_append_replicate {keys : List α} {key : α} (n : Nat) (hnew : key ∉ keys)
    : numbered (keys ++ List.replicate n key)
        = numbered keys ++ (List.range n).map (fun i => (key, i)) := by
  rw [numbered_append, numberFrom_replicate, List.count_eq_zero_of_not_mem hnew]
  simp

theorem eq_append_replicate (lt : α → α → Prop) (hirrefl : ∀ a, ¬ lt a a)
    (htrans : ∀ a b c, lt a b → lt b c → lt a c)
    (hsorted : keys.Pairwise (fun a b => a = b ∨ lt a b)) (hmax : ∀ a ∈ keys, a = key ∨ lt a key)
    : ∃ front, key ∉ front ∧ keys = front ++ List.replicate (keys.count key) key := by
  induction keys with
  | nil => exact ⟨[], by simp, by simp⟩
  | cons a keys ih =>
    rw [List.pairwise_cons] at hsorted
    obtain ⟨front, hfront, hkeys⟩ := ih hsorted.2 (fun b hb => hmax b (List.mem_cons_of_mem _ hb))
    by_cases ha : a = key
    . -- Nothing but the largest element follows its first occurrence.
      subst ha
      have hall : ∀ b ∈ a :: keys, b = a := by
        intro b hb
        rw [List.mem_cons] at hb
        cases hb with
        | inl heq => exact heq
        | inr hb =>
          cases hmax b (List.mem_cons_of_mem _ hb) with
          | inl heq => exact heq
          | inr hlt =>
            cases hsorted.1 b hb with
            | inl heq => exact heq.symm
            | inr hgt => exact absurd (htrans _ _ _ hlt hgt) (hirrefl b)
      refine ⟨[], by simp, ?_⟩
      have hcount : (a :: keys).count a = (a :: keys).length :=
        List.count_eq_length.mpr (fun b hb => (hall b hb).symm)
      rw [hcount, List.nil_append]
      exact List.eq_replicate_of_mem hall
    . refine ⟨a :: front, ?_, ?_⟩
      . simp only [List.mem_cons, not_or]
        exact ⟨fun h => ha h.symm, hfront⟩
      . rw [List.count_cons_of_ne (by exact ha), List.cons_append, ← hkeys]

theorem List.count_add_idxOf_le (keys : List α) (key : α)
    : keys.count key + keys.idxOf key ≤ keys.length := by
  induction keys with
  | nil => exact Nat.le_refl _
  | cons a keys ih =>
    by_cases heq : a = key
    . subst heq
      rw [List.idxOf_cons_self, Nat.add_zero]
      exact List.count_le_length
    . rw [List.count_cons_of_ne heq, List.idxOf_cons_ne keys heq, List.length_cons]
      omega

theorem List.idxOf_le_of_drop {keys : List α} (h : keys.drop i = key :: rest)
    : keys.idxOf key ≤ i := by
  have hlen : (keys.take i).length ≤ i := List.length_take_le i keys
  rw [← List.take_append_drop i keys, h]
  by_cases hmem : key ∈ keys.take i
  . rw [List.idxOf_append_of_mem hmem]
    have := List.idxOf_lt_length_of_mem hmem
    omega
  . rw [List.idxOf_append_of_notMem hmem, List.idxOf_cons_self]
    exact hlen

theorem drop_idxOf_numbered {keys : List α} {key : α} (hmem : key ∈ keys)
    : ∃ rest, (numbered keys).drop (keys.idxOf key) = (key, 0) :: rest ∧
        ∀ n < keys.count key, (key, n) ∈ (key, 0) :: rest := by
  obtain ⟨front, back, rfl, hfront⟩ := List.eq_append_cons_of_mem hmem
  have hzero : front.count key = 0 := List.count_eq_zero_of_not_mem hfront
  have hnumbered : numbered (front ++ key :: back)
      = numbered front ++ (key, 0) :: numberFrom (front ++ [key]) back := by
    rw [numbered_append, numberFrom, hzero]
  refine ⟨numberFrom (front ++ [key]) back, ?_, ?_⟩
  . rw [hnumbered, List.idxOf_append_of_notMem hfront, List.idxOf_cons_self]
    exact List.drop_left' (length_numbered front)
  . intro n hn
    rw [← mem_numbered, hnumbered, List.mem_append, mem_numbered, hzero] at hn
    exact hn.resolve_left (Nat.not_lt_zero n)

def freeIndex (taken : UInt32 → Bool) (fuel : Nat) (idx : UInt32) : Option UInt32 :=
  match fuel with
  | 0 => none
  | fuel + 1 =>
    if taken idx then
      freeIndex taken fuel (idx + 1)
    else
      some idx

theorem UInt32.add_ofNat_succ (idx : UInt32) (n : Nat)
    : idx + UInt32.ofNat (n + 1) = idx + 1 + UInt32.ofNat n := by
  rw [UInt32.ofNat_add, UInt32.add_assoc, UInt32.add_comm (UInt32.ofNat n)]
  rfl

theorem freeIndex_taken_succ {taken : UInt32 → Bool} {n : Nat} {idx : UInt32}
    (htaken : ∀ i < n + 1, taken (idx + UInt32.ofNat i) = true)
    : taken idx = true ∧ ∀ i < n, taken (idx + 1 + UInt32.ofNat i) = true := by
  constructor
  . have hzero := htaken 0 (by omega)
    rwa [show idx + UInt32.ofNat 0 = idx from UInt32.add_zero idx] at hzero
  . intro i hi
    have hsucc := htaken (i + 1) (by omega)
    rwa [UInt32.add_ofNat_succ] at hsucc

theorem freeIndex_eq_some {taken : UInt32 → Bool} {n fuel : Nat} {idx : UInt32}
    (htaken : ∀ i < n, taken (idx + UInt32.ofNat i) = true)
    (hfree : taken (idx + UInt32.ofNat n) = false) (hfuel : n < fuel)
    : freeIndex taken fuel idx = some (idx + UInt32.ofNat n) := by
  induction n generalizing fuel idx with
  | zero =>
    obtain ⟨fuel, rfl⟩ := Nat.exists_eq_succ_of_ne_zero (by omega : fuel ≠ 0)
    have hzero : idx + UInt32.ofNat 0 = idx := UInt32.add_zero idx
    rw [hzero] at hfree ⊢
    simp [freeIndex, hfree]
  | succ n ih =>
    obtain ⟨fuel, rfl⟩ := Nat.exists_eq_succ_of_ne_zero (by omega : fuel ≠ 0)
    obtain ⟨hidx, hnext⟩ := freeIndex_taken_succ htaken
    rw [UInt32.add_ofNat_succ] at hfree ⊢
    unfold freeIndex
    rw [if_pos hidx]
    exact ih hnext hfree (by omega)

theorem freeIndex_eq_none {taken : UInt32 → Bool} {fuel : Nat} {idx : UInt32}
    (htaken : ∀ i < fuel, taken (idx + UInt32.ofNat i) = true)
    : freeIndex taken fuel idx = none := by
  induction fuel generalizing idx with
  | zero => rfl
  | succ fuel ih =>
    obtain ⟨hidx, hnext⟩ := freeIndex_taken_succ htaken
    unfold freeIndex
    rw [if_pos hidx]
    exact ih hnext
