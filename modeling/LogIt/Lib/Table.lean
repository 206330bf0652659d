import Mathlib.Data.List.Pairwise

/-!
This module contains key-value tables that are iterated in the order of their keys.
-/

structure Table (κ ν : Type) [LT κ] where
  entries : List (κ × ν)
  sorted : entries.Pairwise (fun a b => a.1 < b.1)

namespace Table

open List

variable {κ ν : Type} [LT κ]

def empty : Table κ ν where
  entries := []
  sorted := List.Pairwise.nil

def range [LE κ] [DecidableLE κ] (table : Table κ ν) (first last : κ) : List (κ × ν) :=
  table.entries.filter (fun entry => first ≤ entry.1 ∧ entry.1 ≤ last)

def visit {m : Type → Type} [Monad m] (callback : κ → ν → m Bool) : List (κ × ν) → m Unit
  | [] => pure ()
  | entry :: entries => do
    if ← callback entry.1 entry.2 then
      visit callback entries
    else
      pure ()

def forEachRange {m : Type → Type} [Monad m] [LE κ] [DecidableLE κ] (table : Table κ ν)
    (first last : κ) (callback : κ → ν → m Bool) : m Unit :=
  visit callback (table.range first last)

def count (table : Table κ ν) : Nat :=
  table.entries.length

section Find

variable [DecidableEq κ]

def find? (table : Table κ ν) (key : κ) : Option ν :=
  (table.entries.find? (fun entry => entry.1 = key)).map Prod.snd

def contains (table : Table κ ν) (key : κ) : Bool :=
  (table.find? key).isSome

theorem contains_eq_false_iff {table : Table κ ν}
    : table.contains key = false ↔ table.find? key = none := by
  simp [contains]

end Find

section Assign

variable [DecidableLT κ]

def assignEntry (key : κ) (value : ν) : List (κ × ν) → List (κ × ν)
  | [] => [(key, value)]
  | entry :: entries =>
    if entry.1 < key then
      entry :: assignEntry key value entries
    else if key < entry.1 then
      (key, value) :: entry :: entries
    else
      (key, value) :: entries

theorem mem_assignEntry {key : κ} {value : ν} {entry : κ × ν} {entries : List (κ × ν)}
    (h : entry ∈ assignEntry key value entries)
    : entry = (key, value) ∨ entry ∈ entries := by
  induction entries with
  | nil =>
    left
    simpa [assignEntry] using h
  | cons head entries ih =>
    unfold assignEntry at h
    split at h
    . cases mem_cons.mp h with
      | inl h => exact .inr (mem_cons.mpr (.inl h))
      | inr h => exact (ih h).imp_right (mem_cons_of_mem _)
    . split at h
      . exact mem_cons.mp h
      . exact (mem_cons.mp h).imp_right (mem_cons_of_mem _)

variable [LE κ] [Std.IsLinearOrder κ] [Std.LawfulOrderLT κ]

theorem sorted_assignEntry (key : κ) (value : ν) {entries : List (κ × ν)}
    (h : entries.Pairwise (fun a b => a.1 < b.1))
    : (assignEntry key value entries).Pairwise (fun a b => a.1 < b.1) := by
  induction h with
  | nil => exact pairwise_singleton _ _
  | @cons head entries hhead hentries ih =>
    unfold assignEntry
    split
    . next hlt =>
      apply List.Pairwise.cons _ ih
      intro entry hentry
      cases mem_assignEntry hentry with
      | inl hentry =>
        rw [hentry]
        exact hlt
      | inr hentry => exact hhead entry hentry
    . next hge =>
      split
      . next hlt =>
        apply List.Pairwise.cons _ (List.Pairwise.cons hhead hentries)
        intro entry hentry
        cases mem_cons.mp hentry with
        | inl hentry =>
          rw [hentry]
          exact hlt
        | inr hentry => exact Std.lt_trans hlt (hhead entry hentry)
      . next hle =>
        have hkey : key = head.1 := Std.le_antisymm (Std.not_lt.mp hge) (Std.not_lt.mp hle)
        apply List.Pairwise.cons _ hentries
        rw [hkey]
        exact hhead

def assign (table : Table κ ν) (key : κ) (value : ν) : Table κ ν where
  entries := assignEntry key value table.entries
  sorted := sorted_assignEntry key value table.sorted

end Assign

section Lemmas

variable [DecidableEq κ] [LE κ] [Std.LawfulOrderLT κ] {table : Table κ ν}
  {key : κ} {value : ν}

theorem mem_entries_iff : (key, value) ∈ table.entries ↔ table.find? key = some value := by
  obtain ⟨entries, sorted⟩ := table
  unfold find?
  induction sorted with
  | nil => simp
  | @cons head entries hhead hentries ih =>
    rw [mem_cons, find?_cons, ih]
    by_cases hkey : head.1 = key
    . have hentries : (entries.find? (fun entry => entry.1 = key)) = none := by
        rw [find?_eq_none]
        intro entry hentry hsame
        have hlt := hhead entry hentry
        simp only [decide_eq_true_eq] at hsame
        rw [hkey, hsame] at hlt
        exact Std.lt_irrefl hlt
      rw [hentries]
      simp only [hkey, decide_true, Option.map_some, Option.map_none, reduceCtorEq, or_false,
        Option.some.injEq]
      constructor
      . intro h
        rw [← h]
      . intro h
        rw [← h, ← hkey]
    . have hne : (key, value) ≠ head := by
        intro h
        rw [← h] at hkey
        exact hkey rfl
      simp [hkey, hne]

variable [Std.IsLinearOrder κ]

variable [DecidableLT κ]

theorem find?_assign (table : Table κ ν) (key key' : κ) (value : ν)
    : (table.assign key value).find? key' = if key' = key then some value else table.find? key' := by
  obtain ⟨entries, sorted⟩ := table
  unfold find? assign
  dsimp only
  induction sorted with
  | nil =>
    simp only [assignEntry, find?_cons, find?_nil]
    by_cases hkey : key' = key
    . simp [hkey]
    . simp [hkey, Ne.symm hkey]
  | @cons head entries hhead hentries ih =>
    unfold assignEntry
    split
    . next hlt =>
      simp only [find?_cons]
      by_cases hhead : head.1 = key'
      . have hne : key' ≠ key := by
          intro h
          rw [hhead, h] at hlt
          exact Std.lt_irrefl hlt
        simp [hhead, hne]
      . simpa [hhead] using ih
    . next hge =>
      split
      . rw [find?_cons]
        by_cases hkey : key' = key
        . simp [hkey]
        . simp [hkey, Ne.symm hkey]
      . next hle =>
        have hsame : key = head.1 := Std.le_antisymm (Std.not_lt.mp hge) (Std.not_lt.mp hle)
        simp only [find?_cons]
        by_cases hkey : key' = key
        . simp [hkey]
        . simp [hkey, Ne.symm hkey, ← hsame]

theorem contains_assign (table : Table κ ν) (key key' : κ) (value : ν)
    : (table.assign key value).contains key' = true ↔ key' = key ∨ table.contains key' = true := by
  unfold contains
  rw [find?_assign]
  split
  . next hkey => simp [hkey]
  . next hkey => simp [hkey]

theorem perm_entries_assign (h : table.find? key = none)
    : (table.assign key value).entries.Perm ((key, value) :: table.entries) := by
  obtain ⟨entries, sorted⟩ := table
  unfold assign
  dsimp only
  unfold find? at h
  dsimp only at h
  clear sorted
  induction entries with
  | nil => exact List.Perm.refl _
  | cons head entries ih =>
    simp only [Option.map_eq_none_iff, find?_eq_none, mem_cons, decide_eq_true_eq] at h ih
    unfold assignEntry
    split
    . have hperm := ih (fun entry hentry => h entry (.inr hentry))
      exact (hperm.cons head).trans (List.Perm.swap _ _ _)
    . next hge =>
      split
      . exact List.Perm.refl _
      . next hle =>
        have hsame : key = head.1 := Std.le_antisymm (Std.not_lt.mp hge) (Std.not_lt.mp hle)
        exact absurd hsame.symm (h head (.inl rfl))

end Lemmas

section Lookup

variable [BEq κ] [LawfulBEq κ] [LE κ] [Std.IsLinearOrder κ] [Std.LawfulOrderLT κ] [DecidableLT κ]

theorem lookup_assignEntry (key key' : κ) (value : ν) (entries : List (κ × ν))
    : (assignEntry key value entries).lookup key'
        = if key' == key then some value else entries.lookup key' := by
  induction entries with
  | nil =>
    rw [assignEntry, lookup_cons]
    cases key' == key with
    | true => rfl
    | false => rfl
  | cons head entries ih =>
    obtain ⟨headKey, headValue⟩ := head
    unfold assignEntry
    split
    . next hlt =>
      rw [lookup_cons, lookup_cons]
      cases hhead : key' == headKey with
      | true =>
        have hne : key' ≠ key := by
          intro h
          rw [← eq_of_beq hhead, h] at hlt
          exact Std.lt_irrefl hlt
        rw [beq_false_of_ne hne]
        rfl
      | false => exact ih
    . next hge =>
      split
      . rw [lookup_cons]
        cases key' == key with
        | true => rfl
        | false => rfl
      . next hle =>
        have hsame : key = headKey := Std.le_antisymm (Std.not_lt.mp hge) (Std.not_lt.mp hle)
        rw [lookup_cons, lookup_cons, ← hsame]
        cases key' == key with
        | true => rfl
        | false => rfl

end Lookup
end Table
