import LogIt.FileLogger.Lemmas.ValidNames

namespace LogIt.FileLogger

open List

theorem takeWhile_append_stop {p : Char → Bool} (x y : Name) (hc : p c = false)
    : (x ++ c :: y).takeWhile p = x.takeWhile p := by
  induction x with
  | nil => simp [hc]
  | cons a x ih => rw [cons_append, takeWhile_cons, takeWhile_cons, ih]

theorem afterSeparator_searchPath (path name : Name)
    : afterSeparator (Tree.searchPath path ++ name) = afterSeparator name := by
  have hends : ∃ x c, Tree.searchPath path = x ++ [c] ∧ (c = '/' ∨ c = '\\') := by
    unfold Tree.searchPath
    split
    . exact ⟨path, '/', rfl, .inl rfl⟩
    . next h =>
      rw [not_and_or, not_not, not_not] at h
      cases h with
      | inl h =>
        obtain ⟨x, hx⟩ := getLast?_eq_some_iff.mp h
        exact ⟨x, '/', hx, .inl rfl⟩
      | inr h =>
        obtain ⟨x, hx⟩ := getLast?_eq_some_iff.mp h
        exact ⟨x, '\\', hx, .inr rfl⟩
  obtain ⟨x, c, hpath, hc⟩ := hends
  unfold afterSeparator
  rw [hpath, append_assoc, singleton_append, reverse_append, reverse_cons,
    append_assoc, singleton_append, takeWhile_append_stop]
  cases hc with
  | inl hc | inr hc => simp [hc]

theorem afterSeparator_eq_self (h : ∀ c ∈ name, c ≠ '/' ∧ c ≠ '\\')
    : afterSeparator name = name := by
  unfold afterSeparator
  rw [takeWhile_eq_self_iff.mpr, reverse_reverse]
  intro c hc
  exact decide_eq_true (h c (mem_reverse.mp hc))

def lastName (location : List Name) : Name :=
  afterSeparator (location.getLast?.getD [])

def SeenAs (std : Standard) (tree : Tree) (location : List Name) (name : Name) : Prop :=
  match std with
  | .cpp17 => name ∈ tree.regularFiles ∧ location = [name]
  | .cpp11 => location ∈ tree.files ∧ name = lastName location

namespace Tree

theorem ne_nil_of_mem_files {tree : Tree} (h : location ∈ tree.files) : location ≠ [] := by
  induction tree with
  | nil => contradiction
  | file name rest ih =>
    unfold files at h
    cases h with
    | head => simp
    | tail _ h => exact ih h
  | other name rest ih => exact ih h
  | directory name entries rest _ ih =>
    unfold files at h
    rw [mem_append, mem_map] at h
    rcases h with ⟨inner, _, rfl⟩ | h
    . simp
    . exact ih h

theorem singleton_mem_files {tree : Tree} : [name] ∈ tree.files ↔ name ∈ tree.regularFiles := by
  induction tree with
  | nil => simp [files, regularFiles]
  | file name' rest ih => simp [files, regularFiles, ih]
  | other _ _ ih => exact ih
  | directory name' entries rest _ ih =>
    unfold files regularFiles
    rw [mem_append, ih]
    constructor
    . rintro (h | h)
      . -- What is in a subdirectory has a location of at least two parts.
        obtain ⟨inner, hinner, heq⟩ := mem_map.mp h
        simp only [cons.injEq] at heq
        exact absurd heq.2 (ne_nil_of_mem_files hinner)
      . exact h
    . exact .inr

theorem map_getListFiles (tree : Tree) (location : List Name) (path : Name)
    : (tree.getListFiles location path).map
          (fun f => ListedFile.mk f.location (afterSeparator f.path))
        = tree.files.map (fun inner => ⟨location ++ inner, lastName inner⟩) := by
  induction tree generalizing location path with
  | nil => rfl
  | file name rest ih => simp [getListFiles, files, ih, afterSeparator_searchPath, lastName]
  | other _ _ ih => exact ih location path
  | directory name entries rest ihe ih =>
    unfold getListFiles files
    rw [map_append, map_append, ihe, ih, map_map]
    congr 1
    apply map_congr_left
    intro inner hinner
    have hlast : (name.chars :: inner).getLast? = inner.getLast? := by
      rw [getLast?_cons, getLast?_eq_some_getLast (ne_nil_of_mem_files hinner)]
      rfl
    simp [lastName, hlast]

theorem mem_listedFiles : f ∈ listedFiles std dir tree ↔ SeenAs std tree f.location f.name := by
  unfold listedFiles SeenAs
  cases std with
  | cpp17 =>
    rw [mem_map]
    constructor
    . rintro ⟨name, hname, rfl⟩
      exact ⟨hname, rfl⟩
    . rintro ⟨hname, hlocation⟩
      refine ⟨f.name, hname, ?_⟩
      rw [← hlocation]
  | cpp11 =>
    dsimp only
    rw [map_getListFiles, mem_map]
    constructor
    . rintro ⟨location, hlocation, rfl⟩
      exact ⟨hlocation, rfl⟩
    . rintro ⟨hlocation, hname⟩
      refine ⟨f.location, hlocation, ?_⟩
      rw [← hname, nil_append]

end Tree

section Retention

def OwnRotatedFile (base : Name) (tree : Tree) (location : List Name) : Prop :=
  ∃ name ∈ tree.regularFiles, location = [name] ∧ isValidLogFilename name = true ∧
    base.IsPrefix name ∧ name ≠ base ++ logSuffix

variable {S : Sorter ListedFile} {std : Standard} {base dir : Name} {tree : Tree}
  {location : List Name} {name : Name}

theorem SeenAs.eq_of_singleton (h : SeenAs std tree [name'] name)
    (hvalid : isValidLogFilename name' = true)
    : name = name' := by
  cases std with
  | cpp17 =>
    have := h.2
    simp only [cons.injEq, and_true] at this
    exact this.symm
  | cpp11 =>
    have hlast : lastName [name'] = afterSeparator name' := rfl
    rw [h.2, hlast, afterSeparator_eq_self]
    intro c hc
    exact not_separator_of_isValid hvalid hc

theorem SeenAs.mem_regularFiles (h : SeenAs std tree [name] name) : name ∈ tree.regularFiles := by
  cases std with
  | cpp17 => exact h.1
  | cpp11 => exact Tree.singleton_mem_files.mp h.1

theorem mem_retention_candidates
    : f ∈ (listedFiles std dir tree).filter
          (fun f => base.isPrefixOf f.name && f.name != base ++ logSuffix) ↔
        SeenAs std tree f.location f.name ∧ base.IsPrefix f.name ∧ f.name ≠ base ++ logSuffix := by
  rw [mem_filter, Tree.mem_listedFiles, Bool.and_eq_true, isPrefixOf_iff_prefix,
    bne_iff_ne]

theorem exists_of_mem_retention
    (h : location ∈ tree.enforceRotationRetention S std base maxFiles dir)
    : ∃ name, SeenAs std tree location name ∧ base.IsPrefix name ∧ name ≠ base ++ logSuffix := by
  unfold Tree.enforceRotationRetention at h
  dsimp only at h
  split at h
  . contradiction
  . obtain ⟨f, hf, rfl⟩ := mem_map.mp h
    have hmem := S.mem_sort.mp (mem_of_mem_take hf)
    exact ⟨f.name, mem_retention_candidates.mp hmem⟩

theorem mem_retention_zero (hseen : SeenAs std tree location name) (hbase : base.IsPrefix name)
    (hne : name ≠ base ++ logSuffix)
    : location ∈ tree.enforceRotationRetention S std base 0 dir := by
  have hmem : ListedFile.mk location name ∈ (listedFiles std dir tree).filter
      (fun f => base.isPrefixOf f.name && f.name != base ++ logSuffix) :=
    mem_retention_candidates.mpr ⟨hseen, hbase, hne⟩
  unfold Tree.enforceRotationRetention
  dsimp only
  rw [if_neg]
  . rw [Nat.sub_zero, take_length]
    exact mem_map.mpr ⟨_, S.mem_sort.mpr hmem, rfl⟩
  . rw [Nat.le_zero, length_eq_zero_iff]
    exact ne_nil_of_mem hmem

end Retention

section Age

def ExpiredLog (C : Calendar) (currentDateTs days : Int) (tree : Tree) (location : List Name)
    : Prop :=
  ∃ name ∈ tree.regularFiles, location = [name] ∧ isValidLogFilename name = true ∧
    C.ts (name.take 10) < currentDateTs - 86400 * days

variable {std : Standard} {C : Calendar} {currentDateTs days : Int} {dir : Name} {tree : Tree}
  {location : List Name}

theorem mem_removeOldLogs
    : location ∈ tree.removeOldLogs std C currentDateTs days dir ↔
        ∃ name, SeenAs std tree location name ∧ isValidLogFilename name = true ∧
          C.ts (name.take 10) < currentDateTs - 86400 * days := by
  unfold Tree.removeOldLogs
  dsimp only
  rw [mem_map]
  constructor
  . rintro ⟨f, hf, rfl⟩
    rw [mem_filter, Tree.mem_listedFiles, Bool.and_eq_true, decide_eq_true_eq] at hf
    exact ⟨f.name, hf⟩
  . rintro ⟨name, hseen, hvalid, hold⟩
    refine ⟨⟨location, name⟩, ?_, rfl⟩
    rw [mem_filter, Tree.mem_listedFiles, Bool.and_eq_true, decide_eq_true_eq]
    exact ⟨hseen, hvalid, hold⟩

theorem ExpiredLog.mem_removeOldLogs (h : ExpiredLog C currentDateTs days tree location)
    : location ∈ tree.removeOldLogs std C currentDateTs days dir := by
  obtain ⟨name, hname, rfl, hvalid, hold⟩ := h
  refine FileLogger.mem_removeOldLogs.mpr ⟨name, ?_, hvalid, hold⟩
  cases std with
  | cpp17 => exact ⟨hname, rfl⟩
  | cpp11 =>
    have hlast : lastName [name] = afterSeparator name := rfl
    refine ⟨Tree.singleton_mem_files.mpr hname, ?_⟩
    rw [hlast, afterSeparator_eq_self]
    intro c hc
    exact not_separator_of_isValid hvalid hc

theorem current_not_mem_removeOldLogs (hdays : 0 ≤ days) (hdated : C.Dated currentDateTs)
    : [C.date currentDateTs ++ logSuffix] ∉ tree.removeOldLogs std C currentDateTs days dir := by
  intro h
  obtain ⟨name, hseen, hvalid, hold⟩ := FileLogger.mem_removeOldLogs.mp h
  have hname : name = C.date currentDateTs ++ logSuffix := by
    cases std with
    | cpp17 =>
      have := hseen.2
      simp only [cons.injEq, and_true] at this
      exact this.symm
    | cpp11 =>
      have hlast : lastName [C.date currentDateTs ++ logSuffix]
          = afterSeparator (C.date currentDateTs ++ logSuffix) := rfl
      rw [hseen.2, hlast, afterSeparator_eq_self]
      intro c hc
      apply IsNameChar.not_separator
      rw [mem_append] at hc
      cases hc with
      | inl hc =>
        cases hdated.plain c hc with
        | inl hdigit => exact .inl hdigit
        | inr hhyphen => simp [IsNameChar, hhyphen]
      | inr hc =>
        right
        simp only [logSuffix, mem_cons, not_mem_nil, or_false] at hc ⊢
        tauto
  rw [hname] at hvalid hold
  rw [hdated.ts_eq hvalid] at hold
  omega

theorem age_deletion_exact (C : Calendar) (currentDateTs days : Int) (dir : Name) (tree : Tree)
    : (∀ location, location ∈ tree.removeOldLogs .cpp17 C currentDateTs days dir ↔
        ExpiredLog C currentDateTs days tree location) ∧
      ((∀ location, location ∈ tree.removeOldLogs .cpp11 C currentDateTs days dir ↔
          ExpiredLog C currentDateTs days tree location) ↔
        ∀ location ∈ tree.files, isValidLogFilename (lastName location) = true →
          C.ts ((lastName location).take 10) < currentDateTs - 86400 * days →
          location = [lastName location]) ∧
      (0 ≤ days → C.Dated currentDateTs → ∀ std,
        [C.date currentDateTs ++ logSuffix]
          ∉ tree.removeOldLogs std C currentDateTs days dir) := by
  refine ⟨?_, ⟨?_, ?_⟩, ?_⟩
  . intro location
    refine ⟨?_, ExpiredLog.mem_removeOldLogs⟩
    intro h
    obtain ⟨name, hseen, hvalid, hold⟩ := mem_removeOldLogs.mp h
    exact ⟨name, hseen.1, hseen.2, hvalid, hold⟩
  . intro h location hlocation hvalid hold
    have hseen : SeenAs .cpp11 tree location (lastName location) := ⟨hlocation, rfl⟩
    obtain ⟨name, _, rfl, hvalid', _⟩ :=
      (h location).mp (mem_removeOldLogs.mpr ⟨lastName location, hseen, hvalid, hold⟩)
    rw [hseen.eq_of_singleton hvalid']
  . intro h location
    refine ⟨?_, ExpiredLog.mem_removeOldLogs⟩
    intro hmem
    obtain ⟨name, ⟨hlocation, rfl⟩, hvalid, hold⟩ := mem_removeOldLogs.mp hmem
    have heq := h location hlocation hvalid hold
    refine ⟨lastName location, ?_, heq, hvalid, hold⟩
    rw [heq] at hlocation
    exact Tree.singleton_mem_files.mp hlocation
  . intro hdays hdated std
    exact current_not_mem_removeOldLogs hdays hdated

theorem age_deletion_enters_subdirectory
    : ∃ tree : Tree, ["saved".toList, "2020-01-01.log".toList]
          ∈ tree.removeOldLogs .cpp11 TimeShield.gregorian.calendar 1704067200 30 "logs".toList ∧
        tree.removeOldLogs .cpp17 TimeShield.gregorian.calendar 1704067200 30 "logs".toList = [] ∧
        ¬ ExpiredLog TimeShield.gregorian.calendar 1704067200 30 tree
          ["saved".toList, "2020-01-01.log".toList] := by
  refine ⟨.directory ⟨"saved".toList, by decide⟩ (Tree.ofNames ["2020-01-01.log".toList]) .nil,
    by decide, by decide, ?_⟩
  rintro ⟨name, _, hlocation, _⟩
  simp at hlocation

end Age

theorem regularFiles_ofNames (names : List Name) : (Tree.ofNames names).regularFiles = names := by
  induction names with
  | nil => rfl
  | cons name names ih =>
    change name :: (Tree.ofNames names).regularFiles = name :: names
    rw [ih]

theorem flatten_locations (names : List Name)
    : ((names.map (fun name => ListedFile.mk [name] name)).map ListedFile.location).flatten
        = names := by
  induction names with
  | nil => rfl
  | cons name names ih =>
    rw [map_cons, map_cons, flatten_cons, ih]
    rfl

theorem removeOldLogs_eq_tree (T : TimeShield) (l : Logger) (dir : Name)
    : (removeOldLogs T l).dir
        = ((Tree.ofNames l.dir.keys).removeOldLogs .cpp17 T.calendar l.currentDateTs
            l.config.autoDeleteDays dir).flatten.foldl Directory.remove l.dir := by
  unfold removeOldLogs Tree.removeOldLogs listedFiles
  dsimp only
  rw [regularFiles_ofNames, filter_map, flatten_locations]
  rfl

theorem enforceRotationRetention_eq_tree (base : Name) (maxFiles : Nat) (d : Dir) (dir : Name)
    : enforceRotationRetention base maxFiles d
        = ((Tree.ofNames d.keys).enforceRotationRetention
            (Sorter.insertion id (fun _ => List.Perm.refl _)) .cpp17 base maxFiles
            dir).flatten.foldl Directory.remove d := by
  unfold enforceRotationRetention Tree.enforceRotationRetention listedFiles Sorter.insertion
  dsimp only [id]
  rw [regularFiles_ofNames, filter_map, length_map]
  have hfilter : d.keys.filter ((fun f : ListedFile => base.isPrefixOf f.name &&
      f.name != base ++ logSuffix) ∘ (fun name => ListedFile.mk [name] name))
        = d.keys.filter (fun name => base.isPrefixOf name && name != base ++ logSuffix) := rfl
  rw [hfilter]
  by_cases hle : (d.keys.filter
      (fun name => base.isPrefixOf name && name != base ++ logSuffix)).length ≤ maxFiles
  . rw [if_pos hle, if_pos hle]
    rfl
  . rw [if_neg hle, if_neg hle]
    rw [← map_insertionSort (r := fun a b => ¬ sortsBefore base b a), length_map,
      ← map_take, flatten_locations]
    intro a _ b _
    rfl

end LogIt.FileLogger
