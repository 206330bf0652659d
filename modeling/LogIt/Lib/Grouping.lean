import Mathlib.Data.List.Induction

/-!
This module contains the grouping of a list by a key, in the order of the first appearance of the
keys.
-/

namespace Grouping

open List

variable {α κ : Type} [DecidableEq κ] (key : α → κ)

def groups (items : List α) : List (κ × List α) :=
  (items.map key).eraseDups.map (fun k => (k, items.filter (fun a => key a = k)))

def add (groups : List (κ × List α)) (a : α) : List (κ × List α) :=
  if key a ∈ groups.map Prod.fst then
    groups.map (fun group => if group.1 = key a then (group.1, group.2 ++ [a]) else group)
  else
    groups ++ [(key a, [a])]

theorem nodup_eraseDups (ks : List κ) : ks.eraseDups.Nodup := by
  induction ks using reverseRecOn with
  | nil => simp
  | append_singleton ks k ih =>
    rw [eraseDups_append]
    by_cases h : k ∈ ks
    . simpa [removeAll, h] using ih
    . simp only [removeAll, nodup_append]
      simpa [h, eraseDups_cons] using And.intro ih (fun a ha (heq : a = k) => h (heq ▸ ha))

theorem map_fst_groups (items : List α)
    : (groups key items).map Prod.fst = (items.map key).eraseDups := by
  simp [groups, Function.comp_def]

theorem nodup_map_fst_groups (items : List α) : ((groups key items).map Prod.fst).Nodup := by
  rw [map_fst_groups]
  exact nodup_eraseDups _

theorem mem_map_fst_groups : k ∈ (groups key items).map Prod.fst ↔ ∃ a ∈ items, key a = k := by
  rw [map_fst_groups, mem_eraseDups, mem_map]

theorem filter_append_singleton
    : (items ++ [a]).filter (fun b => key b = k)
      = if k = key a then items.filter (fun b => key b = k) ++ [a]
        else items.filter (fun b => key b = k) := by
  by_cases h : k = key a
  . simp [h]
  . simp [h, Ne.symm h]

theorem groups_append_singleton (items : List α) (a : α)
    : groups key (items ++ [a]) = add key (groups key items) a := by
  simp only [groups, filter_append_singleton, add, map_append, eraseDups_append,
    map_map, Function.comp_def, map_id', mem_eraseDups]
  split
  . next hmem =>
    have herase : ([a].map key).removeAll (items.map key) = [] := by
      simpa [removeAll] using hmem
    simp only [herase, eraseDups_nil, map_nil, append_nil]
    exact map_congr_left (fun k _ => by split <;> rfl)
  . next hmem =>
    have herase : ([a].map key).removeAll (items.map key) = [key a] := by
      simpa [removeAll] using hmem
    have hnone : items.filter (fun b => key b = key a) = [] := by
      rw [filter_eq_nil_iff]
      intro b hb heq
      exact hmem (mem_map.mpr ⟨b, hb, by simpa using heq⟩)
    rw [herase]
    simp only [eraseDups_cons, filter_nil, eraseDups_nil, map_cons,
      map_nil, if_true, hnone, nil_append]
    congr 1
    refine map_congr_left (fun k hk => ?_)
    rw [if_neg]
    rintro rfl
    exact hmem (mem_eraseDups.mp hk)

theorem ne_nil_of_mem_groups (h : group ∈ groups key items) : group.2 ≠ [] := by
  obtain ⟨k, hk, rfl⟩ := mem_map.mp h
  obtain ⟨a, ha, rfl⟩ := mem_map.mp (mem_eraseDups.mp hk)
  exact ne_nil_of_mem (mem_filter.mpr ⟨ha, by simp⟩)

theorem modify_of_findIdx? {β : Type} {p : β → Bool} {f : β → β} {l : List β} {i : Nat}
    (hone : l.Pairwise (fun a b => p a → ¬p b)) (hfind : l.findIdx? p = some i)
    : l.modify i f = l.map (fun b => if p b then f b else b) := by
  induction l generalizing i with
  | nil => simp at hfind
  | cons b l ih =>
    obtain ⟨hb, hone⟩ := pairwise_cons.mp hone
    rw [findIdx?_cons] at hfind
    split at hfind
    . next hp =>
      obtain rfl := Option.some.inj hfind
      have htail : l.map (fun b => if p b then f b else b) = l.map id :=
        map_congr_left (fun a ha => if_neg (hb a ha hp))
      simp [hp, htail]
    . next hp =>
      obtain ⟨j, hj, rfl⟩ := Option.map_eq_some_iff.mp hfind
      rw [modify_succ_cons, map_cons, if_neg hp, ih hone hj]

theorem flatMap_snd_add {groups : List (κ × List α)} (hnodup : (groups.map Prod.fst).Nodup)
    : ((add key groups a).flatMap Prod.snd).Perm (groups.flatMap Prod.snd ++ [a]) := by
  unfold add
  split
  . next hmem =>
    induction groups with
    | nil => simp at hmem
    | cons group groups ih =>
      obtain ⟨hgroup, hnodup⟩ := nodup_cons.mp hnodup
      by_cases heq : group.1 = key a
      . have htail : groups.map (fun g => if g.1 = key a then (g.1, g.2 ++ [a]) else g)
            = groups.map id := by
          refine map_congr_left (fun g hg => if_neg (fun h => hgroup ?_))
          exact heq ▸ h ▸ mem_map_of_mem hg
        simp only [map_cons, if_pos heq, htail, map_id, flatMap_cons,
          append_assoc]
        exact List.Perm.append_left _ perm_append_comm
      . have hmem : key a ∈ groups.map Prod.fst :=
          (mem_cons.mp hmem).resolve_left (Ne.symm heq)
        simp only [map_cons, if_neg heq, flatMap_cons, append_assoc]
        exact List.Perm.append_left _ (ih hnodup hmem)
  . simp

theorem flatMap_snd_groups (items : List α)
    : ((groups key items).flatMap Prod.snd).Perm items := by
  induction items using reverseRecOn with
  | nil => exact List.Perm.nil
  | append_singleton items a ih =>
    rw [groups_append_singleton]
    exact (flatMap_snd_add key (nodup_map_fst_groups key items)).trans (ih.append_right [a])

end Grouping
