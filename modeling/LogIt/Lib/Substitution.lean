import Mathlib.Data.List.Infix

/-!
This module contains the replacement of the first occurrence of a pattern in a list.
-/

namespace Substitution

open List

variable {α : Type}

theorem prefix_of_prefix_append (hq : q ∉ pattern) (h : pattern <+: x ++ q :: y)
    : pattern <+: x := by
  by_cases hlen : pattern.length ≤ x.length
  . exact prefix_of_prefix_length_le h (prefix_append x _) hlen
  . have hx : x ++ [q] <+: pattern := by
      have hxq : x ++ [q] <+: x ++ q :: y := ⟨y, by simp⟩
      apply prefix_of_prefix_length_le hxq h
      rw [length_append, length_singleton]
      omega
    exact absurd (hx.mem (mem_append_right x mem_cons_self)) hq

theorem exists_first (hpattern : pattern ≠ []) (h : pattern <:+: s)
    : ∃ x y, s = x ++ pattern ++ y ∧ ¬ pattern <:+: x := by
  induction s with
  | nil => exact absurd (infix_nil.mp h) hpattern
  | cons c s ih =>
    by_cases hhere : pattern <+: c :: s
    . obtain ⟨y, hy⟩ := hhere
      exact ⟨[], y, hy.symm, fun hnil => hpattern (infix_nil.mp hnil)⟩
    . obtain ⟨x, y, rfl, hx⟩ := ih ((infix_cons_iff.mp h).resolve_left hhere)
      refine ⟨c :: x, y, rfl, ?_⟩
      rw [infix_cons_iff, not_or]
      refine ⟨fun hinitial => hhere ?_, hx⟩
      rw [append_assoc, ← cons_append]
      exact hinitial.trans (prefix_append _ _)

variable [DecidableEq α]

def replaceFirst (pattern replacement s : List α) : List α :=
  match s with
  | [] => []
  | c :: s =>
    if pattern <+: c :: s then
      replacement ++ (c :: s).drop pattern.length
    else
      c :: replaceFirst pattern replacement s

def occurrences (pattern s : List α) : Nat :=
  match s with
  | [] => 0
  | c :: s => (if pattern <+: c :: s then 1 else 0) + occurrences pattern s

section Occurrences

variable {pattern : List α}

theorem occurrences_eq_zero_iff (hpattern : pattern ≠ []) (s : List α)
    : occurrences pattern s = 0 ↔ ¬ pattern <:+: s := by
  induction s with
  | nil => simp [occurrences, hpattern]
  | cons c s ih =>
    unfold occurrences
    rw [infix_cons_iff, not_or, ← ih]
    split
    . next h => refine iff_of_false (by omega) (fun hnot => hnot.1 h)
    . next h =>
      rw [Nat.zero_add]
      exact ⟨fun hzero => ⟨h, hzero⟩, And.right⟩

theorem occurrences_append_le (pattern x y : List α)
    : occurrences pattern x + occurrences pattern y ≤ occurrences pattern (x ++ y) := by
  induction x with
  | nil => exact Nat.le_of_eq (Nat.zero_add _)
  | cons c x ih =>
    rw [cons_append, occurrences, occurrences]
    by_cases h : pattern <+: c :: x
    . have happend : pattern <+: c :: (x ++ y) := h.trans (prefix_append (c :: x) y)
      rw [if_pos h, if_pos happend]
      omega
    . rw [if_neg h]
      omega

theorem occurrences_pos (hpattern : pattern ≠ []) (h : pattern <:+: s)
    : 0 < occurrences pattern s := by
  rw [Nat.pos_iff_ne_zero, Ne, occurrences_eq_zero_iff hpattern]
  exact not_not_intro h

end Occurrences

section Replace

variable {pattern : List α} (replacement : List α)

theorem replaceFirst_of_absent (h : ¬ pattern <:+: s) : replaceFirst pattern replacement s = s := by
  induction s with
  | nil => rfl
  | cons c s ih =>
    rw [infix_cons_iff, not_or] at h
    rw [replaceFirst, if_neg h.1, ih h.2]

theorem replaceFirst_append_of_present (hpattern : pattern ≠ []) (h : pattern <:+: x) (y : List α)
    : replaceFirst pattern replacement (x ++ y) = replaceFirst pattern replacement x ++ y := by
  induction x with
  | nil => exact absurd (infix_nil.mp h) hpattern
  | cons c x ih =>
    by_cases hhere : pattern <+: c :: x
    . have happend : pattern <+: c :: (x ++ y) := hhere.trans (prefix_append (c :: x) y)
      rw [cons_append, replaceFirst, if_pos happend, replaceFirst, if_pos hhere, append_assoc,
        ← cons_append, drop_append_of_le_length hhere.length_le]
    . have hrest := (infix_cons_iff.mp h).resolve_left hhere
      have happend : ¬ pattern <+: c :: (x ++ y) := by
        intro hboth
        have hlen : pattern.length ≤ (c :: x).length :=
          Nat.le_succ_of_le hrest.length_le
        exact hhere (prefix_of_prefix_length_le hboth (prefix_append (c :: x) y) hlen)
      rw [cons_append, replaceFirst, if_neg happend, replaceFirst, if_neg hhere, ih hrest]
      rfl

theorem replaceFirst_append_of_absent (hq : q ∉ pattern) (h : ¬ pattern <:+: x) (y : List α)
    : replaceFirst pattern replacement (x ++ q :: y) =
        x ++ q :: replaceFirst pattern replacement y := by
  induction x with
  | nil =>
    have hnot : ¬ pattern <+: q :: y := by
      intro hinitial
      have hnil := prefix_of_prefix_append (x := []) hq hinitial
      exact h hnil.isInfix
    rw [nil_append, replaceFirst, if_neg hnot]
    rfl
  | cons c x ih =>
    rw [infix_cons_iff, not_or] at h
    have hnot : ¬ pattern <+: c :: (x ++ q :: y) :=
      fun hboth => h.1 (prefix_of_prefix_append (x := c :: x) hq hboth)
    rw [cons_append, replaceFirst, if_neg hnot, ih h.2]
    rfl

theorem replaceFirst_append_self (hq : q ∉ p) (h : ¬ q :: p <:+: x) (y : List α)
    : replaceFirst (q :: p) replacement (x ++ (q :: p) ++ y) = x ++ replacement ++ y := by
  induction x with
  | nil =>
    have hhere : q :: p <+: q :: (p ++ y) := prefix_append (q :: p) y
    rw [nil_append, nil_append, cons_append, replaceFirst, if_pos hhere,
      ← cons_append, drop_left]
  | cons c x ih =>
    rw [infix_cons_iff, not_or] at h
    have hnot : ¬ q :: p <+: c :: (x ++ (q :: p) ++ y) := by
      intro hboth
      rw [cons_prefix_cons] at hboth
      obtain ⟨rfl, hp⟩ := hboth
      rw [append_assoc, cons_append] at hp
      exact h.1 (cons_prefix_cons.mpr ⟨rfl, prefix_of_prefix_append hq hp⟩)
    rw [cons_append, cons_append, replaceFirst, if_neg hnot, ih h.2]
    rfl

end Replace
end Substitution
