import Mathlib.Data.List.AList

/-!
This module contains directories: finite maps from file names to contents. `Lists` says which files
a directory holds, whatever their order.
-/

abbrev Directory (ν β : Type) : Type :=
  AList fun _ : ν => List β

namespace Directory

open List

abbrev File (ν β : Type) : Type :=
  Sigma fun _ : ν => List β

variable {ν β : Type} [DecidableEq ν]

section

variable (d : Directory ν β)

def openAppend (name : ν) : Directory ν β :=
  match d.lookup name with
  | some _ => d
  | none => d.insert name []

def append (name : ν) (bytes : List β) : Directory ν β :=
  match d.lookup name with
  | some content => d.insert name (content ++ bytes)
  | none => d

def rename (src dst : ν) : Option (Directory ν β) :=
  match d.lookup src with
  | some content => some ((d.erase src).insert dst content)
  | none => none

def copy (src dst : ν) : Option (Directory ν β) :=
  match d.lookup src with
  | some content => some (d.insert dst content)
  | none => none

def remove (name : ν) : Directory ν β :=
  d.erase name

end

section Lookup

variable {d d' : Directory ν β} {name other src dst : ν} {content : List β}

theorem lookup_openAppend (d : Directory ν β) (name : ν)
    : (d.openAppend name).lookup name = some ((d.lookup name).getD []) := by
  unfold openAppend
  cases h : d.lookup name with
  | some content => exact h
  | none => exact AList.lookup_insert d

theorem lookup_openAppend_ne (hne : other ≠ name) : (d.openAppend name).lookup other = d.lookup other := by
  unfold openAppend
  cases d.lookup name with
  | some content => rfl
  | none => exact AList.lookup_insert_ne hne

theorem lookup_append (h : d.lookup name = some content) (bytes : List β)
    : (d.append name bytes).lookup name = some (content ++ bytes) := by
  unfold append
  rw [h]
  exact AList.lookup_insert d

theorem lookup_append_ne (hne : other ≠ name) (bytes : List β)
    : (d.append name bytes).lookup other = d.lookup other := by
  unfold append
  cases d.lookup name with
  | some content => exact AList.lookup_insert_ne hne
  | none => rfl

theorem lookup_remove_ne (hne : other ≠ name) : (d.remove name).lookup other = d.lookup other :=
  AList.lookup_erase_ne hne

theorem rename_eq_some (h : d.rename src dst = some d')
    : ∃ content, d.lookup src = some content ∧ d' = (d.erase src).insert dst content := by
  unfold rename at h
  cases hcontent : d.lookup src with rw [hcontent] at h
  | none => contradiction
  | some content => exact ⟨content, rfl, (Option.some.inj h).symm⟩

theorem rename_eq_none (h : d.rename src dst = none) : d.lookup src = none := by
  unfold rename at h
  cases hcontent : d.lookup src with
  | none => rfl
  | some content =>
    rw [hcontent] at h
    contradiction

theorem lookup_rename_src (h : d.rename src dst = some d') (hne : src ≠ dst)
    : d'.lookup src = none := by
  obtain ⟨content, _, rfl⟩ := rename_eq_some h
  rw [AList.lookup_insert_ne hne]
  exact AList.lookup_erase _ _

theorem lookup_rename_ne (h : d.rename src dst = some d') (hsrc : other ≠ src) (hdst : other ≠ dst)
    : d'.lookup other = d.lookup other := by
  obtain ⟨content, _, rfl⟩ := rename_eq_some h
  rw [AList.lookup_insert_ne hdst]
  exact AList.lookup_erase_ne hsrc

theorem lookup_copy_ne (h : d.copy src dst = some d') (hdst : other ≠ dst)
    : d'.lookup other = d.lookup other := by
  unfold copy at h
  split at h
  . rw [← Option.some.inj h]
    exact AList.lookup_insert_ne hdst
  . contradiction

theorem lookup_foldl_remove {names : List ν} (h : other ∉ names)
    : (names.foldl remove d).lookup other = d.lookup other := by
  induction names generalizing d with
  | nil => rfl
  | cons name names ih =>
    rw [mem_cons, not_or] at h
    rw [foldl_cons, ih h.2, lookup_remove_ne h.1]

theorem mem_foldl_remove {names : List ν} : name ∈ names.foldl remove d ↔ name ∉ names ∧ name ∈ d := by
  induction names generalizing d with
  | nil => simp
  | cons other names ih =>
    rw [foldl_cons, ih, mem_cons, not_or]
    unfold remove
    rw [AList.mem_erase, and_left_comm, and_assoc]

theorem lookup_foldl_remove_or (names : List ν)
    : (names.foldl remove d).lookup other = d.lookup other ∨
        (names.foldl remove d).lookup other = none := by
  induction names generalizing d with
  | nil => exact Or.inl rfl
  | cons name names ih =>
    rw [foldl_cons]
    by_cases heq : other = name
    . right
      have hnone : (d.remove name).lookup other = none := by
        rw [heq]
        exact AList.lookup_erase _ _
      cases ih (d := d.remove name) with
      | inl h => rw [h, hnone]
      | inr h => exact h
    . have hsame := lookup_remove_ne (d := d) heq
      rw [← hsame]
      exact ih

end Lookup

def Lists (d : Directory ν β) (files : List (File ν β)) : Prop :=
  d.entries.Perm files

namespace Lists

variable {d : Directory ν β} {files files' : List (File ν β)} {name src : ν}
  {content bytes : List β}

section

variable (h : d.Lists files)

include h

omit [DecidableEq ν] in
theorem of_perm (hperm : files.Perm files') : d.Lists files' :=
  h.trans hperm

omit [DecidableEq ν] in
theorem nodupKeys : files.NodupKeys :=
  (perm_nodupKeys h).mp d.nodupKeys

omit [DecidableEq ν] in
theorem mem_iff : name ∈ d ↔ name ∈ files.keys :=
  (h.map Sigma.fst).mem_iff

theorem lookup_eq (hmem : ⟨name, content⟩ ∈ files) : d.lookup name = some content := by
  rw [← Option.mem_def]
  apply mem_dlookup d.nodupKeys
  exact List.Perm.mem_iff h |>.mpr hmem

theorem lookup_eq_none (hnew : name ∉ files.keys) : d.lookup name = none := by
  rw [AList.lookup_eq_none, h.mem_iff]
  exact hnew

end

theorem remove (h : d.Lists (⟨name, content⟩ :: files)) : (d.remove name).Lists files := by
  have herase : (kerase name d.entries).Perm (kerase name (⟨name, content⟩ :: files)) :=
    List.Perm.kerase d.nodupKeys h
  have hfiles : kerase name (⟨name, content⟩ :: files) = files := kerase_cons_eq rfl
  rw [hfiles] at herase
  exact herase

theorem insert_new (h : d.Lists files) (hnew : name ∉ files.keys)
    : Directory.Lists (d.insert name content) (⟨name, content⟩ :: files) := by
  unfold Lists
  rw [AList.entries_insert_of_notMem (by rw [h.mem_iff]; exact hnew)]
  exact h.cons _

theorem insert_old (h : d.Lists (⟨name, content⟩ :: files))
    : Directory.Lists (d.insert name bytes) (⟨name, bytes⟩ :: files) := by
  unfold Lists
  rw [AList.entries_insert]
  exact h.remove.cons _

theorem openAppend (h : d.Lists files) (hnew : name ∉ files.keys)
    : (d.openAppend name).Lists (⟨name, []⟩ :: files) := by
  unfold Directory.openAppend
  rw [h.lookup_eq_none hnew]
  exact h.insert_new hnew

theorem append (h : d.Lists (⟨name, content⟩ :: files))
    : (d.append name bytes).Lists (⟨name, content ++ bytes⟩ :: files) := by
  unfold Directory.append
  rw [h.lookup_eq (mem_cons_self ..)]
  exact h.insert_old

theorem rename (h : d.Lists (⟨src, content⟩ :: files)) (dst : ν) (hnew : dst ∉ files.keys)
    : ∃ d', d.rename src dst = some d' ∧ d'.Lists (⟨dst, content⟩ :: files) := by
  unfold Directory.rename
  rw [h.lookup_eq (mem_cons_self ..)]
  exact ⟨_, rfl, h.remove.insert_new hnew⟩

theorem copy (h : d.Lists files) (hmem : ⟨src, content⟩ ∈ files) (dst : ν)
    (hnew : dst ∉ files.keys)
    : ∃ d', d.copy src dst = some d' ∧ d'.Lists (⟨dst, content⟩ :: files) := by
  unfold Directory.copy
  rw [h.lookup_eq hmem]
  exact ⟨_, rfl, h.insert_new hnew⟩

end Lists
end Directory
