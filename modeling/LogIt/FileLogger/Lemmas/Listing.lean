import Mathlib.Data.Char
import Mathlib.Data.List.Lex
import LogIt.FileLogger.Lemmas.Tree

namespace LogIt.FileLogger

open List

theorem sortsBefore_eq (base : Name)
    : sortsBefore base
        = LexKey (fun name => (extract base name).1) (· < ·)
            (fun a b => (extract base a).2 < (extract base b).2) := by
  funext a b
  unfold sortsBefore LexKey
  dsimp only
  rw [ite_not]

theorem strictWeakOrder_sortsBefore (base : Name) : StrictWeakOrder (sortsBefore base) := by
  rw [sortsBefore_eq]
  apply StrictWeakOrder.lexKey
  exact StrictWeakOrder.ofKey (r := (· < ·)) (fun name => (extract base name).2)

theorem newerFirst_eq
    : newerFirst =
        LexKey (fun a => a.dayStartMs) (· > ·) (
        LexKey (fun a => a.isCurrent) (· > ·) (
        LexKey (fun a => (makeFileSortKey a).kindRank) (· > ·) (
        LexKey (fun a => (makeFileSortKey a).primary) (· > ·) (
        LexKey (fun a => (makeFileSortKey a).secondary) (· > ·) (
        LexKey (fun a => (makeFileSortKey a).artifactName) (· > ·) (
        LexKey (fun a => a.isCompressed) (· < ·)
          (fun a b => normalizePathSeparators a.path > normalizePathSeparators b.path))))))) := by
  have hgt : ∀ x y : Bool, (x = true ∧ y = false) = (x > y) := by decide
  have hlt : ∀ x y : Bool, (x = false ∧ y = true) = (x < y) := by decide
  funext a b
  unfold newerFirst LexKey
  dsimp only
  rw [hgt, hlt]
  by_cases hname : (makeFileSortKey a).artifactName = (makeFileSortKey b).artifactName
  . simp only [hname, true_and, ne_eq, not_true_eq_false, if_false]
  . simp only [hname, false_and, ne_eq, not_false_eq_true, if_true, if_false]

theorem strictWeakOrder_newerFirst : StrictWeakOrder newerFirst := by
  rw [newerFirst_eq]
  repeat apply StrictWeakOrder.lexKey
  exact StrictWeakOrder.ofKey (r := (· > ·)) (fun a : LogFileInfo => normalizePathSeparators a.path)

theorem path_eq_of_ties (hab : ¬ newerFirst a b) (hba : ¬ newerFirst b a)
    : normalizePathSeparators a.path = normalizePathSeparators b.path := by
  rw [newerFirst_eq] at hab hba
  have hday := StrictWeakOrder.ties_lexKey hab hba
  have hcurrent := StrictWeakOrder.ties_lexKey hday.2.1 hday.2.2
  have hkind := StrictWeakOrder.ties_lexKey hcurrent.2.1 hcurrent.2.2
  have hprimary := StrictWeakOrder.ties_lexKey hkind.2.1 hkind.2.2
  have hsecondary := StrictWeakOrder.ties_lexKey hprimary.2.1 hprimary.2.2
  have hname := StrictWeakOrder.ties_lexKey hsecondary.2.1 hsecondary.2.2
  have hcompressed := StrictWeakOrder.ties_lexKey hname.2.1 hname.2.2
  apply le_antisymm
  . exact not_lt.mp hcompressed.2.1
  . exact not_lt.mp hcompressed.2.2

section Agreement

structure RotatedName (base name : Name) : Prop where
  isValid : isValidLogFilename name = true
  date : name.take 10 = base
  notCurrent : name ≠ base ++ logSuffix

instance (base name : Name) : Decidable (RotatedName base name) :=
  decidable_of_iff (isValidLogFilename name = true ∧ name.take 10 = base ∧ name ≠ base ++ logSuffix)
    ⟨fun h => ⟨h.1, h.2.1, h.2.2⟩, fun h => ⟨h.isValid, h.date, h.notCurrent⟩⟩

structure RotatedFile (C : Calendar) (dir currentPath base : Name) (info : LogFileInfo) : Prop where
  rotatedName : RotatedName base info.name
  isInfo : tryMakeLogFileInfo C dir currentPath info.name = some info

variable {C : Calendar} {dir currentPath base : Name} {a b info : LogFileInfo} {names : List Name}

theorem RotatedName.exists_info (h : RotatedName base name) (C : Calendar) (dir currentPath : Name)
    : ∃ info, tryMakeLogFileInfo C dir currentPath name = some info ∧
        info.name = name ∧ info.path = dir ++ '/' :: name := by
  unfold tryMakeLogFileInfo
  rw [if_pos h.isValid]
  exact ⟨_, rfl, rfl, rfl⟩

section

variable (C : Calendar) (dir currentPath : Name) (hnames : ∀ name ∈ names, RotatedName base name)

include hnames

theorem RotatedFile.of_mem (info : LogFileInfo)
    (h : info ∈ names.filterMap (tryMakeLogFileInfo C dir currentPath))
    : RotatedFile C dir currentPath base info := by
  obtain ⟨name, hname, hinfo⟩ := mem_filterMap.mp h
  obtain ⟨info', hinfo', rfl, _⟩ := (hnames name hname).exists_info C dir currentPath
  rw [hinfo', Option.some.injEq] at hinfo
  rw [← hinfo]
  exact ⟨hnames _ hname, hinfo'⟩

theorem map_name_infos
    : (names.filterMap (tryMakeLogFileInfo C dir currentPath)).map LogFileInfo.name = names := by
  induction names with
  | nil => rfl
  | cons name names ih =>
    rw [forall_mem_cons] at hnames
    obtain ⟨info, hinfo, hname, _⟩ := hnames.1.exists_info C dir currentPath
    rw [filterMap_cons, hinfo]
    dsimp only
    rw [map_cons, ih hnames.2, hname]

end

theorem RotatedFile.path_eq (h : RotatedFile C dir currentPath base info)
    : info.path = dir ++ '/' :: info.name := by
  obtain ⟨info', hinfo, _, hpath⟩ := h.rotatedName.exists_info C dir currentPath
  rw [h.isInfo, Option.some.injEq] at hinfo
  rw [← hinfo] at hpath
  exact hpath

theorem normalizePathSeparators_append (x y : Name)
    : normalizePathSeparators (x ++ '/' :: y)
        = normalizePathSeparators x ++ '/' :: normalizePathSeparators y := by
  unfold normalizePathSeparators
  rw [map_append, map_cons]
  rfl

theorem normalizePathSeparators_eq_self (h : isValidLogFilename name = true)
    : normalizePathSeparators name = name := by
  unfold normalizePathSeparators
  conv => rhs; rw [← map_id name]
  apply map_congr_left
  intro c hc
  exact if_neg (not_separator_of_isValid h hc).2

theorem RotatedFile.newerFirst_or (ha : RotatedFile C dir currentPath base a)
    (hb : RotatedFile C dir currentPath base b) (hne : a ≠ b)
    : newerFirst a b ∨ newerFirst b a := by
  by_contra hties
  rw [not_or] at hties
  have hpath := path_eq_of_ties hties.1 hties.2
  rw [ha.path_eq, hb.path_eq, normalizePathSeparators_append, normalizePathSeparators_append,
    append_cancel_left_eq, cons.injEq,
    normalizePathSeparators_eq_self ha.rotatedName.isValid,
    normalizePathSeparators_eq_self hb.rotatedName.isValid] at hpath
  apply hne
  rw [← Option.some.injEq, ← ha.isInfo, ← hb.isInfo, hpath.2]

def DeletedBefore (a b : FileSortKey) : Prop :=
  a.retained.1 < b.retained.1 ∨ a.retained.1 = b.retained.1 ∧ a.retained.2 < b.retained.2

instance (a b : FileSortKey) : Decidable (DeletedBefore a b) :=
  inferInstanceAs (Decidable (_ ∨ _ ∧ _))

theorem RotatedFile.sortsBefore_iff (ha : RotatedFile C dir currentPath base a)
    (hb : RotatedFile C dir currentPath base b)
    : sortsBefore base a.name b.name ↔ DeletedBefore (makeFileSortKey a) (makeFileSortKey b) := by
  obtain ⟨_, _, hnameA⟩ := exists_logName ha.rotatedName.isValid
  obtain ⟨_, _, hnameB⟩ := exists_logName hb.rotatedName.isValid
  rw [ha.rotatedName.date] at hnameA
  rw [hb.rotatedName.date] at hnameB
  unfold sortsBefore DeletedBefore
  rw [hnameA.extract_eq, hnameB.extract_eq]
  dsimp only
  split
  . omega
  . omega

def listedAs (info : LogFileInfo) : ListedFile :=
  ⟨[info.name], info.name⟩

theorem enforceRotationRetention_infos {infos : List LogFileInfo}
    (hinfos : ∀ info ∈ infos, RotatedFile C dir currentPath base info) (S : Sorter ListedFile)
    (maxFiles : Nat)
    : (Tree.ofNames (infos.map LogFileInfo.name)).enforceRotationRetention S .cpp17 base maxFiles dir
        = ((S.sort (fun a b => sortsBefore base a.name b.name) (infos.map listedAs)).take
            ((infos.map listedAs).length - maxFiles)).map ListedFile.location := by
  have hall : (listedFiles .cpp17 dir (Tree.ofNames (infos.map LogFileInfo.name))).filter
      (fun f => base.isPrefixOf f.name && f.name != base ++ logSuffix) = infos.map listedAs := by
    unfold listedFiles
    dsimp only
    rw [regularFiles_ofNames, map_map]
    apply filter_eq_self.mpr
    intro f hf
    obtain ⟨info, hinfo, rfl⟩ := mem_map.mp hf
    have hname := (hinfos info hinfo).rotatedName
    have htake := take_prefix 10 info.name
    rw [hname.date] at htake
    rw [Bool.and_eq_true, isPrefixOf_iff_prefix, bne_iff_ne]
    exact ⟨htake, hname.notCurrent⟩
  unfold Tree.enforceRotationRetention
  dsimp only
  rw [hall, S.length_sort]
  split
  . next hle =>
    rw [Nat.sub_eq_zero_of_le hle]
    rfl
  . rfl

theorem perm_of_locations {l l' : List ListedFile} (hl : ∀ f ∈ l, f.location = [f.name])
    (hl' : ∀ f ∈ l', f.location = [f.name])
    (h : (l.map ListedFile.location).Perm (l'.map ListedFile.location))
    : l.Perm l' := by
  have hback : ∀ l : List ListedFile, (∀ f ∈ l, f.location = [f.name]) →
      (l.map ListedFile.location).map (fun loc => ListedFile.mk loc (loc.headD [])) = l := by
    intro l hl
    rw [map_map]
    conv => rhs; rw [← map_id l]
    apply map_congr_left
    intro f hf
    have hlocation := hl f hf
    cases f with
    | mk location name =>
      dsimp only at hlocation
      rw [hlocation]
      rfl
  rw [← hback l hl, ← hback l' hl']
  exact h.map _

theorem pairwise_newest_iff {newest : List LogFileInfo}
    (hinfos : ∀ info ∈ infos, RotatedFile C dir currentPath base info) (hnodup : infos.Nodup)
    (hperm : newest.Perm infos) (hsorted : newest.Pairwise (fun a b => ¬ newerFirst b a))
    : newest.Pairwise (fun a b => sortsBefore base b.name a.name) ↔
        ∀ a ∈ infos, ∀ b ∈ infos, newerFirst a b →
          DeletedBefore (makeFileSortKey b) (makeFileSortKey a) := by
  constructor
  . intro h a ha b hb hab
    rw [← (hinfos b hb).sortsBefore_iff (hinfos a ha)]
    have hsymm : Std.Symm (fun a b : LogFileInfo => (newerFirst a b → sortsBefore base b.name a.name) ∧
        (newerFirst b a → sortsBefore base a.name b.name)) := ⟨fun _ _ => And.symm⟩
    have hpairs : newest.Pairwise (fun a b => (newerFirst a b → sortsBefore base b.name a.name) ∧
        (newerFirst b a → sortsBefore base a.name b.name)) := by
      apply h.imp₂ _ hsorted
      intro a b hbefore hnot
      exact ⟨fun _ => hbefore, fun hnewer => absurd hnewer hnot⟩
    have hne : a ≠ b := by
      rintro rfl
      exact strictWeakOrder_newerFirst.asymm hab hab
    exact (hpairs.forall (hperm.mem_iff.mpr ha) (hperm.mem_iff.mpr hb) hne).1 hab
  . intro h
    apply (hsorted.and (hperm.nodup_iff.mpr hnodup)).imp_of_mem
    rintro a b ha hb ⟨hnot, hne⟩
    rw [hperm.mem_iff] at ha hb
    rw [(hinfos b hb).sortsBefore_iff (hinfos a ha)]
    apply h a ha b hb
    exact ((hinfos a ha).newerFirst_or (hinfos b hb) hne).resolve_right hnot

end Agreement
end LogIt.FileLogger
