import Mathlib.Data.List.Pairwise
import Mathlib.Data.List.Sort

/-!
This module contains sorting as `std::sort` specifies it: any arrangement by a strict weak order.
-/

structure StrictWeakOrder {α : Type} (lt : α → α → Prop) : Prop where
  asymm : ∀ {a b}, lt a b → ¬ lt b a
  negTrans : ∀ {a b c}, ¬ lt a b → ¬ lt b c → ¬ lt a c

def LexKey {α β : Type} [DecidableEq β] (key : α → β) (r : β → β → Prop) (lt : α → α → Prop) (a b : α)
    : Prop :=
  if key a ≠ key b then r (key a) (key b) else lt a b

namespace StrictWeakOrder

variable {α β : Type} {lt : α → α → Prop}

theorem ofKey [IsStrictTotalOrder β r] (key : α → β)
    : StrictWeakOrder (fun a b => r (key a) (key b)) where
  asymm := asymm_of r
  negTrans := by
    intro a b c hab hbc hac
    rcases trichotomous_of r (key a) (key b) with h | h | h
    . exact hab h
    . rw [h] at hac
      exact hbc hac
    . exact hbc (trans_of r h hac)

variable [DecidableEq β] {key : α → β} {r : β → β → Prop} {a b : α}

theorem lexKey_of_eq (h : key a = key b) : LexKey key r lt a b ↔ lt a b := by
  unfold LexKey
  rw [if_neg (not_not_intro h)]

theorem lexKey_of_ne (h : key a ≠ key b) : LexKey key r lt a b ↔ r (key a) (key b) := by
  unfold LexKey
  rw [if_pos h]

variable [IsStrictTotalOrder β r]

theorem lexKey (h : StrictWeakOrder lt) : StrictWeakOrder (LexKey key r lt) := by
  constructor
  . intro a b hab
    by_cases hkey : key a = key b
    . rw [lexKey_of_eq hkey] at hab
      rw [lexKey_of_eq hkey.symm]
      exact h.asymm hab
    . rw [lexKey_of_ne hkey] at hab
      rw [lexKey_of_ne (Ne.symm hkey)]
      exact asymm_of r hab
  . intro a b c hab hbc hac
    by_cases hkab : key a = key b
    . by_cases hkbc : key b = key c
      . rw [lexKey_of_eq hkab] at hab
        rw [lexKey_of_eq hkbc] at hbc
        rw [lexKey_of_eq (hkab.trans hkbc)] at hac
        exact h.negTrans hab hbc hac
      . rw [lexKey_of_ne hkbc] at hbc
        rw [lexKey_of_ne (hkab ▸ hkbc), hkab] at hac
        exact hbc hac
    . rw [lexKey_of_ne hkab] at hab
      by_cases hkbc : key b = key c
      . rw [lexKey_of_ne (hkbc ▸ hkab), ← hkbc] at hac
        exact hab hac
      . -- All three steps compare keys, and the keys are totally ordered.
        rw [lexKey_of_ne hkbc] at hbc
        have hba := (trichotomous_of r (key a) (key b)).resolve_left hab |>.resolve_left hkab
        have hcb := (trichotomous_of r (key b) (key c)).resolve_left hbc |>.resolve_left hkbc
        have hca := trans_of r hcb hba
        have hne : key a ≠ key c := by
          intro heq
          rw [heq] at hca
          exact irrefl_of r _ hca
        rw [lexKey_of_ne hne] at hac
        exact asymm_of r hac hca

theorem ties_lexKey (hab : ¬ LexKey key r lt a b) (hba : ¬ LexKey key r lt b a)
    : key a = key b ∧ ¬ lt a b ∧ ¬ lt b a := by
  by_cases hkey : key a = key b
  . rw [lexKey_of_eq hkey] at hab
    rw [lexKey_of_eq hkey.symm] at hba
    exact ⟨hkey, hab, hba⟩
  . rw [lexKey_of_ne hkey] at hab
    rw [lexKey_of_ne (Ne.symm hkey)] at hba
    rcases trichotomous_of r (key a) (key b) with h | h | h
    . contradiction
    . contradiction
    . contradiction

end StrictWeakOrder

structure Sorter (α : Type) where
  sort : (lt : α → α → Prop) → [DecidableRel lt] → List α → List α
  perm : ∀ (lt : α → α → Prop) [DecidableRel lt] (l : List α), (sort lt l).Perm l
  pairwise : ∀ {lt : α → α → Prop} [DecidableRel lt] (l : List α), StrictWeakOrder lt →
    (sort lt l).Pairwise (fun a b => ¬ lt b a)

namespace Sorter

variable {α : Type} {lt : α → α → Prop} [DecidableRel lt] {l newest : List α}

def insertion (arrange : List α → List α) (harrange : ∀ l, (arrange l).Perm l) : Sorter α where
  sort lt _ l := (arrange l).insertionSort (fun a b => ¬ lt b a)
  perm lt _ l := (List.perm_insertionSort _ _).trans (harrange l)
  pairwise := by
    intro lt _ l hlt
    have : Std.Total (fun a b => ¬ lt b a) := by
      constructor
      intro a b
      by_cases hab : lt b a
      . exact .inr (hlt.asymm hab)
      . exact .inl hab
    have : IsTrans α (fun a b => ¬ lt b a) := by
      constructor
      intro a b c hab hbc
      exact hlt.negTrans hbc hab
    exact List.pairwise_insertionSort _ _

theorem length_sort (S : Sorter α) : (S.sort lt l).length = l.length :=
  (S.perm lt l).length_eq

theorem mem_sort (S : Sorter α) : a ∈ S.sort lt l ↔ a ∈ l :=
  (S.perm lt l).mem_iff

theorem eq_of_take_perm {l₁ l₂ : List α} (h : ∀ n, (l₁.take n).Perm (l₂.take n)) : l₁ = l₂ := by
  induction l₁ generalizing l₂ with
  | nil =>
    have := (h l₂.length).length_eq
    rw [List.take_nil, List.take_length] at this
    exact (List.eq_nil_of_length_eq_zero this.symm).symm
  | cons a l₁ ih =>
    cases l₂ with
    | nil =>
      have := (h 1).length_eq
      simp at this
    | cons b l₂ =>
      have hhead : a = b := by simpa using h 1
      rw [hhead] at h ⊢
      rw [ih]
      intro n
      exact (h (n + 1)).cons_inv

theorem not_both_sublist (hnodup : l.Nodup) (hab : [a, b].Sublist l) (hba : [b, a].Sublist l)
    : False := by
  induction l with
  | nil => simp at hab
  | cons c l ih =>
    rw [List.nodup_cons] at hnodup
    cases hab with
    | cons _ hab =>
      cases hba with
      | cons _ hba => exact ih hnodup.2 hab hba
      | cons_cons _ hba =>
        apply hnodup.1
        exact hab.subset (by simp)
    | cons_cons _ hab =>
      cases hba with
      | cons _ hba | cons_cons _ hba =>
        apply hnodup.1
        exact hba.subset (by simp)

theorem take_reverse_length_sub (limit : Nat)
    : newest.reverse.take (newest.length - limit) = (newest.drop limit).reverse := by
  rw [List.take_reverse]
  by_cases hle : limit ≤ newest.length
  . rw [Nat.sub_sub_self hle]
  . rw [List.drop_eq_nil_of_le (by omega), List.drop_eq_nil_of_le (by omega)]

theorem sort_eq_reverse (S : Sorter α) (hlt : StrictWeakOrder lt) (hperm : newest.Perm l)
    (hnewest : newest.Pairwise (fun a b => lt b a))
    : S.sort lt l = newest.reverse := by
  have hsorted : newest.reverse.Pairwise (fun a b => ¬ lt b a) := by
    rw [List.pairwise_reverse]
    exact hnewest.imp hlt.asymm
  have hties : ∀ a ∈ newest, ∀ b ∈ newest, a ≠ b → lt a b ∨ lt b a := by
    intro a ha b hb hne
    have : Std.Symm (fun a b => lt a b ∨ lt b a) := ⟨fun _ _ => Or.symm⟩
    have hsymm : newest.Pairwise (fun a b => lt a b ∨ lt b a) := hnewest.imp .inr
    exact hsymm.forall ha hb hne
  refine List.Perm.eq_of_pairwise ?_ (S.pairwise l hlt) hsorted
    ((S.perm lt l).trans (hperm.symm.trans (List.reverse_perm newest).symm))
  intro a b ha hb hab hba
  by_contra hne
  rw [S.mem_sort, ← hperm.mem_iff] at ha
  rw [List.mem_reverse] at hb
  cases hties a ha b hb hne with
  | inl h => exact hba h
  | inr h => exact hab h

theorem take_sort_perm_drop_iff (hlt : StrictWeakOrder lt) (hperm : newest.Perm l)
    (hnodup : l.Nodup)
    : (∀ (S : Sorter α) (limit : Nat),
        ((S.sort lt l).take (l.length - limit)).Perm (newest.drop limit)) ↔
      newest.Pairwise (fun a b => lt b a) := by
  constructor
  . intro h
    classical
    -- An implementation that sees the elements in the other order leaves ties in it.
    let S : Sorter α := insertion (fun l' => if newest.Perm l' then newest else l')
      (fun l' => by split <;> [assumption; rfl])
    have hsort : S.sort lt l = newest.insertionSort (fun a b => ¬ lt b a) := by
      change List.insertionSort _ (if newest.Perm l then newest else l) = _
      rw [if_pos hperm]
    have hreverse : S.sort lt l = newest.reverse := by
      apply eq_of_take_perm
      intro n
      have htake : (S.sort lt l).take n = (S.sort lt l).take (l.length - (l.length - n)) := by
        have hlength : (S.sort lt l).length = l.length := S.length_sort
        rw [← hlength]
        by_cases hle : n ≤ (S.sort lt l).length
        . rw [Nat.sub_sub_self hle]
        . rw [List.take_of_length_le (by omega), List.take_of_length_le (by omega)]
      rw [htake, List.take_reverse, hperm.length_eq]
      exact (h S (l.length - n)).trans (List.reverse_perm _).symm
    rw [List.pairwise_iff_forall_sublist]
    intro a b hsub
    by_contra hab
    apply not_both_sublist (hperm.nodup_iff.mpr hnodup) hsub
    have hstable : [a, b].Sublist newest.reverse := by
      rw [← hreverse, hsort]
      exact List.pair_sublist_insertionSort hab hsub
    rw [← List.reverse_sublist]
    exact hstable
  . intro hnewest S limit
    rw [S.sort_eq_reverse hlt hperm hnewest, ← hperm.length_eq, take_reverse_length_sub]
    exact List.reverse_perm _

end Sorter
