import LogIt.FileLogger.Lemmas.Names

namespace LogIt.FileLogger

def rotationKeys (T : TimeShield) (config : Config) (size : UInt64) (calls : List Call)
    : List Name :=
  match calls with
  | [] => []
  | call :: calls =>
    if rotates config size call then
      rotationKey T config.naming call.tsMs :: rotationKeys T config call.add calls
    else
      rotationKeys T config (size + call.add) calls

def kept {α : Type} (config : Config) (rotated : List α) : List α :=
  if 0 < config.maxRotatedFiles then
    rotated.drop (rotated.length - config.maxRotatedFiles.toNat)
  else
    rotated

def retained (config : Config) (base : Name) (dir : Dir) : Dir :=
  if 0 < config.maxRotatedFiles then
    enforceRotationRetention base config.maxRotatedFiles.toNat dir
  else
    dir

theorem kept_map {α β : Type} (config : Config) (f : α → β) (rotated : List α)
    : (kept config rotated).map f = kept config (rotated.map f) := by
  unfold kept
  split
  . rw [List.map_drop, List.length_map]
  . rfl

theorem kept_sublist {α : Type} (config : Config) (rotated : List α)
    : (kept config rotated).Sublist rotated := by
  unfold kept
  split
  . exact List.drop_sublist _ _
  . exact List.Sublist.refl _

section Compress

variable {config : Config} {dir : Dir} {files : List LogFile} {name : Name} {content : List UInt8}

theorem replace_lists {suffix : Name} (hsuffix : suffix ≠ [])
    (h : dir.Lists (⟨name, content⟩ :: files)) (hdst : name ++ suffix ∉ files.keys)
    (htmp : name ++ suffix ++ tmpSuffix ∉ files.keys)
    : (compressFile.replace name dir (name ++ suffix)).Lists
        (⟨name ++ suffix, content⟩ :: files) := by
  obtain ⟨dir', hcopy, h'⟩ := h.copy (List.mem_cons_self ..) (name ++ suffix ++ tmpSuffix)
    (by simpa [hsuffix] using htmp)
  obtain ⟨dir'', hrename, h''⟩ := h'.rename (name ++ suffix) (by simpa [hsuffix] using hdst)
  unfold compressFile.replace
  dsimp only
  rw [hcopy]
  dsimp only
  rw [hrename]
  exact (h''.of_perm (List.Perm.swap _ _ _)).remove

theorem compressFile_lists (hcompress : config.compress ≠ .externalCmd)
    (h : dir.Lists (⟨name, content⟩ :: files))
    (hdst : name ++ config.compress.suffix ∉ files.keys)
    (htmp : name ++ config.compress.suffix ++ tmpSuffix ∉ files.keys)
    : (compressFile config name dir).Lists (⟨name ++ config.compress.suffix, content⟩ :: files) := by
  unfold compressFile
  split
  . next htype =>
    rw [htype]
    simpa [CompressType.suffix] using h
  . contradiction
  . next htype => exact replace_lists (by simp [htype, CompressType.suffix, gzSuffix]) h hdst htmp
  . next htype => exact replace_lists (by simp [htype, CompressType.suffix, zstSuffix]) h hdst htmp

end Compress

section Step

variable {T : TimeShield} {config : Config} {day : Nat} {l : Logger} {call : Call}
  {files : List LogFile} {content : List UInt8}

theorem removeOldLogs_eq (hdated : T.Dated day) (hdate : l.currentDateTs = day)
    (hdays : 0 ≤ l.config.autoDeleteDays)
    (hnames : ∀ name ∈ l.dir, name.take 10 = T.toIso8601Date day)
    : removeOldLogs T l = l := by
  have hold : l.dir.keys.filter (fun name => isValidLogFilename name &&
      decide (T.ts (name.take 10) < l.currentDateTs - 86400 * l.config.autoDeleteDays)) = [] := by
    rw [List.filter_eq_nil_iff]
    intro name hname
    rw [hnames name hname, hdated.ts_eq, hdate, Bool.and_eq_true, decide_eq_true_eq]
    omega
  unfold removeOldLogs
  dsimp only
  rw [hold]
  rfl

theorem writeLog_eq (hday : T.startOfDay (T.msToSec call.timestampMs) = l.currentDateTs)
    : writeLog T l call
        = (if rotates l.config l.currentFileSize call then
            rotateCurrentFile T l call.tsMs
          else
            .ok l).map (fun l => removeOldLogs T (writeMessage l call)) := by
  simp [writeLog, hday]

theorem rotateCurrentFile_eq {name : Name} {tsMs : Nat}
    (hcompress : l.config.compress ≠ .externalCmd)
    (hlists : l.dir.Lists (⟨createFilePath T l.currentDateTs, content⟩ :: files))
    (hmake : makeRotatedName l.config (T.toIso8601Date l.currentDateTs) l.dir T tsMs = some name)
    (hname : name ∉ createFilePath T l.currentDateTs :: files.keys)
    (hdst : name ++ l.config.compress.suffix ∉ createFilePath T l.currentDateTs :: files.keys)
    (htmp : name ++ l.config.compress.suffix ++ tmpSuffix
      ∉ createFilePath T l.currentDateTs :: files.keys)
    : ∃ dir : Dir,
        dir.Lists (⟨createFilePath T l.currentDateTs, []⟩ ::
          ⟨name ++ l.config.compress.suffix, content⟩ :: files) ∧
        rotateCurrentFile T l tsMs = .ok { l with
          dir := retained l.config (T.toIso8601Date l.currentDateTs) dir
          file := some (createFilePath T l.currentDateTs)
          currentFileSize := 0
          rotated := l.rotated ++ [⟨name ++ l.config.compress.suffix, content⟩] } := by
  have hlookup := hlists.lookup_eq (List.mem_cons_self ..)
  obtain ⟨dir, hrename, hdir⟩ := hlists.rename name (by simp at hname; exact hname.2)
  have hopen : (dir.openAppend (createFilePath T l.currentDateTs)).Lists
      (⟨createFilePath T l.currentDateTs, []⟩ :: ⟨name, content⟩ :: files) := by
    apply hdir.openAppend
    simp only [List.keys_cons, List.mem_cons, not_or] at hname ⊢
    exact ⟨fun h => hname.1 h.symm, List.notMem_keys_of_nodupKeys_cons hlists.nodupKeys⟩
  have hcomp := compressFile_lists hcompress (hopen.of_perm (List.Perm.swap _ _ _)) hdst htmp
  refine ⟨_, hcomp.of_perm (List.Perm.swap _ _ _), ?_⟩
  unfold rotateCurrentFile
  dsimp only
  rw [hmake]
  dsimp only
  rw [show T.toIso8601Date l.currentDateTs ++ logSuffix = createFilePath T l.currentDateTs from rfl,
    hrename]
  dsimp only
  rw [hlookup]
  rfl

end Step

structure Inv (T : TimeShield) (config : Config) (day : Nat) (l : Logger) (keys : List Name)
    (written : List UInt8) : Prop where
  config_eq : l.config = config
  date_eq : l.currentDateTs = day
  file_eq : l.file = some (createFilePath T day)
  valid : ∀ key ∈ keys, ValidKey config.naming key
  names_eq : l.rotated.keys
    = (numbered keys).map (fun a => artifactName config (T.toIso8601Date day) a.1 a.2)
  files : ∃ content, l.dir.Lists (⟨createFilePath T day, content⟩ :: kept config l.rotated) ∧
    l.rotated.flatMap Sigma.snd ++ content = written

section Files

variable {T : TimeShield} {config : Config} {day : Nat} {dir : Dir} {files : List LogFile}
  {content : List UInt8}

theorem take_createFilePath (hdated : T.Dated day)
    : (createFilePath T day).take 10 = T.toIso8601Date day :=
  List.take_left' hdated.length_eq

theorem take_of_lists (config : Config) (hdated : T.Dated day)
    (hlists : dir.Lists (⟨createFilePath T day, content⟩ :: files))
    (hfiles : ∀ name ∈ files.keys, ∃ key n, name = artifactName config (T.toIso8601Date day) key n)
    : ∀ name ∈ dir, name.take 10 = T.toIso8601Date day := by
  intro name hname
  rw [hlists.mem_iff, List.keys_cons, List.mem_cons] at hname
  cases hname with
  | inl heq =>
    rw [heq]
    exact take_createFilePath hdated
  | inr hmem =>
    obtain ⟨key, n, heq⟩ := hfiles name hmem
    rw [heq]
    exact take_artifactName _ _ _ _ hdated.length_eq

theorem writeMessage_lists (l : Logger) (call : Call) (hdated : T.Dated day)
    (hdays : 0 ≤ l.config.autoDeleteDays) (hdate : l.currentDateTs = day)
    (hfile : l.file = some (createFilePath T day))
    (hlists : l.dir.Lists (⟨createFilePath T day, content⟩ :: files))
    (hfiles : ∀ name ∈ files.keys,
      ∃ key n, name = artifactName l.config (T.toIso8601Date day) key n)
    : removeOldLogs T (writeMessage l call) = { l with
        dir := l.dir.append (createFilePath T day) call.line
        currentFileSize := l.currentFileSize + call.add } ∧
      (l.dir.append (createFilePath T day) call.line).Lists
        (⟨createFilePath T day, content ++ call.line⟩ :: files) := by
  have hlists' : (l.dir.append (createFilePath T day) call.line).Lists
      (⟨createFilePath T day, content ++ call.line⟩ :: files) := hlists.append
  have hwrite : writeMessage l call = { l with
      dir := l.dir.append (createFilePath T day) call.line
      currentFileSize := l.currentFileSize + call.add } := by
    unfold writeMessage
    rw [hfile]
  refine ⟨?_, hlists'⟩
  rw [hwrite]
  exact removeOldLogs_eq hdated hdate hdays (take_of_lists l.config hdated hlists' hfiles)

theorem artifactName_ne_tmp (base key : Name) (n : Nat) (name : Name)
    : artifactName config base key n ≠ name ++ tmpSuffix := by
  unfold artifactName
  by_cases hsuffix : config.compress.suffix = []
  . rw [hsuffix, List.append_nil]
    exact slotName_ne_append config base key n name (by decide) (by decide)
  . intro h
    have hlast := congrArg List.getLast? h
    rw [List.getLast?_append_of_ne_nil _ hsuffix,
      List.getLast?_append_of_ne_nil _ (by decide : tmpSuffix ≠ [])] at hlast
    cases htype : config.compress with
    | none | externalCmd => simp [htype, CompressType.suffix] at hsuffix
    | gzip | zstd =>
      rw [htype] at hlast
      contradiction

theorem createFilePath_ne_tmp (name : Name) : createFilePath T day ≠ name ++ tmpSuffix := by
  intro h
  have hlast := congrArg List.getLast? h
  unfold createFilePath at hlast
  rw [List.getLast?_append_of_ne_nil _ (by decide : logSuffix ≠ []),
    List.getLast?_append_of_ne_nil _ (by decide : tmpSuffix ≠ [])] at hlast
  contradiction

end Files

namespace Inv

variable {T : TimeShield} {config : Config} {day : Nat} {l : Logger} {keys : List Name}
  {written : List UInt8} {call : Call}

theorem artifact_of_mem (h : Inv T config day l keys written) (hname : name ∈ l.rotated.keys)
    : ∃ key n, name = artifactName config (T.toIso8601Date day) key n := by
  rw [h.names_eq, List.mem_map] at hname
  obtain ⟨a, _, ha⟩ := hname
  exact ⟨a.1, a.2, ha.symm⟩

theorem artifact_of_mem_kept (h : Inv T config day l keys written)
    (hname : name ∈ (kept config l.rotated).keys)
    : ∃ key n, name = artifactName config (T.toIso8601Date day) key n :=
  h.artifact_of_mem (((kept_sublist config l.rotated).map Sigma.fst).subset hname)

theorem start (config : Config) (hdated : T.Dated day) (hdays : 0 ≤ config.autoDeleteDays)
    (hday : T.startOfDay (T.msToSec tsMs) = day)
    : Inv T config day (startLogging T config tsMs) [] [] ∧
      (startLogging T config tsMs).currentFileSize = 0 := by
  have hempty : Directory.Lists (∅ : Dir) [] := List.Perm.refl _
  have hlists : (Directory.openAppend (∅ : Dir) (createFilePath T day)).Lists
      [⟨createFilePath T day, []⟩] := hempty.openAppend (by simp)
  have hsize := hlists.lookup_eq (List.mem_cons_self ..)
  unfold startLogging
  dsimp only
  rw [hday, removeOldLogs_eq hdated rfl hdays
    (take_of_lists config hdated hlists (by simp))]
  unfold openLogFile
  dsimp only
  rw [hsize]
  refine ⟨{
    config_eq := rfl
    date_eq := rfl
    file_eq := rfl
    valid := fun _ hkey => nomatch hkey
    names_eq := rfl
    files := ⟨[], ?_, rfl⟩ }, rfl⟩
  unfold kept
  simpa using hlists

section

variable (h : Inv T config day l keys written)

include h

theorem keys_kept
    : (kept config l.rotated).keys = (kept config (numbered keys)).map
        (fun a => artifactName config (T.toIso8601Date day) a.1 a.2) := by
  have hnames := h.names_eq
  unfold List.keys at hnames ⊢
  rw [kept_map, hnames, kept_map]

theorem artifactName_mem_iff (hslots : ∀ key, keys.count key ≤ slots config.naming)
    (hkey : ValidKey config.naming key) (hn : n < slots config.naming)
    : artifactName config (T.toIso8601Date day) key n ∈ l.dir ↔
        (key, n) ∈ kept config (numbered keys) := by
  obtain ⟨content, hlists, _⟩ := h.files
  rw [hlists.mem_iff, List.keys_cons, h.keys_kept, List.mem_cons, List.mem_map]
  constructor
  . rintro (heq | ⟨⟨key', n'⟩, hmem, heq⟩)
    . exact absurd heq (artifactName_ne_current _ _ _ _)
    . have hcount := mem_numbered.mp ((kept_sublist _ _).subset hmem)
      have hle := hslots key'
      have hkey' := h.valid key' (List.count_pos_iff.mp (by omega))
      obtain ⟨rfl, rfl⟩ := artifactName_inj config _ hkey' hkey (by omega) hn heq
      exact hmem
  . intro hmem
    exact Or.inr ⟨(key, n), hmem, rfl⟩

theorem slotName_not_mem (hsuffix : config.compress.suffix ≠ []) (key : Name) (n : Nat)
    : slotName config (T.toIso8601Date day) key n ∉ l.dir := by
  obtain ⟨content, hlists, _⟩ := h.files
  rw [hlists.mem_iff, List.keys_cons, List.mem_cons, not_or]
  refine ⟨slotName_ne_current _ _ _ _, ?_⟩
  intro hmem
  obtain ⟨key', n', heq⟩ := h.artifact_of_mem_kept hmem
  refine slotName_ne_append config _ key n _ hsuffix ?_ heq
  cases htype : config.compress with
  | none | externalCmd => simp [htype, CompressType.suffix] at hsuffix
  | gzip => decide
  | zstd => decide

theorem writeLog_append (hdated : T.Dated day) (hdays : 0 ≤ config.autoDeleteDays)
    (hday : T.startOfDay (T.msToSec call.timestampMs) = day)
    (hrotates : ¬ rotates config l.currentFileSize call)
    : ∃ l', writeLog T l call = .ok l' ∧ Inv T config day l' keys (written ++ call.line) ∧
        l'.currentFileSize = l.currentFileSize + call.add := by
  obtain ⟨content, hlists, hwritten⟩ := h.files
  have hconfig := h.config_eq
  subst hconfig
  obtain ⟨hwrite, hlists'⟩ := writeMessage_lists l call hdated hdays h.date_eq h.file_eq hlists
    (fun _ hname => h.artifact_of_mem_kept hname)
  have hok : writeLog T l call = .ok { l with
      dir := l.dir.append (createFilePath T day) call.line
      currentFileSize := l.currentFileSize + call.add } := by
    rw [writeLog_eq (hday.trans h.date_eq.symm), if_neg hrotates, Except.map, hwrite]
  refine ⟨_, hok, {
    config_eq := rfl
    date_eq := h.date_eq
    file_eq := h.file_eq
    valid := h.valid
    names_eq := h.names_eq
    files := ⟨_, hlists', ?_⟩ }, rfl⟩
  rw [← List.append_assoc, hwritten]

theorem writeLog_rotate (hdated : T.Dated day) (hdays : 0 ≤ config.autoDeleteDays)
    (hcompress : config.compress ≠ .externalCmd)
    (hday : T.startOfDay (T.msToSec call.timestampMs) = day)
    (hrotates : rotates config l.currentFileSize call) {key : Name} {n : Nat}
    (hmake : makeRotatedName config (T.toIso8601Date day) l.dir T call.tsMs = some (slotName config (T.toIso8601Date day) key n))
    (hfree : slotName config (T.toIso8601Date day) key n ∉ l.dir)
    (hnew : artifactName config (T.toIso8601Date day) key n ∉ l.dir)
    : ∃ content, ∃ dir : Dir, l.rotated.flatMap Sigma.snd ++ content = written ∧
        dir.Lists (⟨createFilePath T day, []⟩ :: (kept config l.rotated ++
          [⟨artifactName config (T.toIso8601Date day) key n, content⟩])) ∧
        ∀ files, (∀ file ∈ files, file ∈ kept config l.rotated ++
            [⟨artifactName config (T.toIso8601Date day) key n, content⟩]) →
          (retained config (T.toIso8601Date day) dir).Lists
            (⟨createFilePath T day, []⟩ :: files) →
          ∃ l', writeLog T l call = .ok l' ∧ l'.config = config ∧ l'.currentDateTs = day ∧
            l'.file = some (createFilePath T day) ∧ l'.currentFileSize = call.add ∧
            l'.rotated = l.rotated ++
              [⟨artifactName config (T.toIso8601Date day) key n, content⟩] ∧
            l'.dir.Lists (⟨createFilePath T day, call.line⟩ :: files) := by
  obtain ⟨content, hlists, hwritten⟩ := h.files
  have hconfig := h.config_eq
  subst hconfig
  have hdate := h.date_eq
  subst hdate
  have htmp : artifactName l.config (T.toIso8601Date l.currentDateTs) key n ++ tmpSuffix
      ∉ createFilePath T l.currentDateTs :: (kept l.config l.rotated).keys := by
    simp only [List.mem_cons, not_or]
    refine ⟨fun heq => createFilePath_ne_tmp _ heq.symm, ?_⟩
    intro hmem
    obtain ⟨key', n', heq⟩ := h.artifact_of_mem_kept hmem
    exact artifactName_ne_tmp _ _ _ _ heq.symm
  rw [hlists.mem_iff] at hfree hnew
  obtain ⟨dir, hdir, hrotate⟩ := rotateCurrentFile_eq hcompress hlists hmake hfree hnew htmp
  refine ⟨content, dir, hwritten, hdir.of_perm ?_, ?_⟩
  . exact List.Perm.cons _ (List.perm_append_singleton _ _).symm
  . intro files hfiles hretained
    have hartifacts : ∀ name ∈ files.keys,
        ∃ key n, name = artifactName l.config (T.toIso8601Date l.currentDateTs) key n := by
      intro name hname
      obtain ⟨file, hfile, rfl⟩ := List.mem_map.mp hname
      have hmem := hfiles file hfile
      rw [List.mem_append, List.mem_singleton] at hmem
      cases hmem with
      | inl hmem => exact h.artifact_of_mem_kept (List.mem_map_of_mem hmem)
      | inr heq => exact ⟨key, n, by rw [heq]⟩
    obtain ⟨hwrite, hlists'⟩ := writeMessage_lists { l with
      dir := retained l.config (T.toIso8601Date l.currentDateTs) dir
      file := some (createFilePath T l.currentDateTs)
      currentFileSize := 0
      rotated := l.rotated ++
        [⟨artifactName l.config (T.toIso8601Date l.currentDateTs) key n, content⟩] }
      call hdated hdays rfl rfl hretained hartifacts
    have hok := writeLog_eq hday
    rw [if_pos hrotates, hrotate, Except.map] at hok
    exact ⟨_, hok.trans (congrArg Except.ok hwrite), rfl, rfl, rfl, UInt64.zero_add _, rfl, hlists'⟩

theorem valid_concat (hkey : ValidKey config.naming key)
    : ∀ key' ∈ keys ++ [key], ValidKey config.naming key' := by
  intro key' hmem
  rw [List.mem_append, List.mem_singleton] at hmem
  cases hmem with
  | inl hmem => exact h.valid key' hmem
  | inr heq =>
    rw [heq]
    exact hkey

theorem concat {l' : Logger} {key : Name} {content : List UInt8} (hkey : ValidKey config.naming key)
    (hwritten : l.rotated.flatMap Sigma.snd ++ content = written) (hconfig : l'.config = config)
    (hdate : l'.currentDateTs = day) (hfile : l'.file = some (createFilePath T day))
    (hrotated : l'.rotated = l.rotated ++ [⟨artifactName config (T.toIso8601Date day) key (keys.count key), content⟩])
    (hlists : l'.dir.Lists (⟨createFilePath T day, call.line⟩ :: kept config l'.rotated))
    : Inv T config day l' (keys ++ [key]) (written ++ call.line) where
  config_eq := hconfig
  date_eq := hdate
  file_eq := hfile
  valid := h.valid_concat hkey
  names_eq := by
    have hnames := h.names_eq
    unfold List.keys at hnames ⊢
    rw [hrotated, numbered_concat, List.map_append, List.map_append, hnames]
    rfl
  files := by
    refine ⟨_, hlists, ?_⟩
    rw [hrotated, List.flatMap_append, List.flatMap_singleton, hwritten]

end

end Inv

section Run

variable {T : TimeShield} {config : Config} {day : Nat}

section

variable (T : TimeShield) (config : Config) (day : Nat) (Good : List Name → Prop)

def KeepsInv : Prop :=
  ∀ l keys written call, Inv T config day l keys written →
    T.startOfDay (T.msToSec call.timestampMs) = day → rotates config l.currentFileSize call →
    Good (keys ++ [rotationKey T config.naming call.tsMs]) →
    ∃ l', writeLog T l call = .ok l' ∧
      Inv T config day l' (keys ++ [rotationKey T config.naming call.tsMs])
        (written ++ call.line) ∧
      l'.currentFileSize = call.add

def Violates (l : Logger) (calls : List Call) (all : List Name) : Prop :=
  ∃ front call back l' keys written, calls = front ++ call :: back ∧
    writeLogs T l front = .ok l' ∧ Inv T config day l' keys written ∧ Good keys ∧
    rotates config l'.currentFileSize call ∧
    ¬ Good (keys ++ [rotationKey T config.naming call.tsMs]) ∧
    keys ++ [rotationKey T config.naming call.tsMs] <+: all

end

variable {Good : List Name → Prop} {l : Logger} {keys : List Name} {written : List UInt8}
  {calls : List Call}

theorem Violates.cons (h : Violates T config day Good l' calls all)
    (hok : writeLog T l call = .ok l')
    : Violates T config day Good l (call :: calls) all := by
  obtain ⟨front, c, back, l₂, keys, written, rfl, hrun, hfound⟩ := h
  refine ⟨call :: front, c, back, l₂, keys, written, rfl, ?_, hfound⟩
  rw [writeLogs, hok]
  exact hrun

theorem Violates.not_good (h : Violates T config day Good l calls all)
    (hfront : ∀ ks ks', Good (ks ++ ks') → Good ks)
    : ¬ Good all := by
  obtain ⟨front, call, back, l', keys, written, _, _, _, _, _, hbad, rest, rfl⟩ := h
  intro hgood
  exact hbad (hfront _ _ hgood)

theorem Inv.writeLogs (h : Inv T config day l keys written) (hdated : T.Dated day)
    (hdays : 0 ≤ config.autoDeleteDays)
    (hcalls : ∀ call ∈ calls, T.startOfDay (T.msToSec call.timestampMs) = day)
    (hkeeps : KeepsInv T config day Good) (hgood : Good keys)
    : (∃ l', FileLogger.writeLogs T l calls = .ok l' ∧
        Inv T config day l' (keys ++ rotationKeys T config l.currentFileSize calls)
          (written ++ calls.flatMap Call.line) ∧
        Good (keys ++ rotationKeys T config l.currentFileSize calls)) ∨
      Violates T config day Good l calls
        (keys ++ rotationKeys T config l.currentFileSize calls) := by
  induction calls generalizing l keys written with
  | nil =>
    refine .inl ⟨l, rfl, ?_⟩
    simpa [rotationKeys] using ⟨h, hgood⟩
  | cons call calls ih =>
    have hday := hcalls call (List.mem_cons_self ..)
    have hrest := fun c hc => hcalls c (List.mem_cons_of_mem call hc)
    unfold rotationKeys FileLogger.writeLogs
    rw [List.flatMap_cons, ← List.append_assoc]
    by_cases hrotates : rotates config l.currentFileSize call
    . rw [if_pos hrotates, List.append_cons]
      by_cases hnext : Good (keys ++ [rotationKey T config.naming call.tsMs])
      . obtain ⟨l', hok, h', hsize⟩ := hkeeps l keys written call h hday hrotates hnext
        rw [hok, ← hsize]
        exact (ih h' hrest hnext).imp_right (.cons · hok)
      . exact .inr ⟨[], call, calls, l, keys, written, rfl, rfl, h, hgood, hrotates, hnext,
          List.prefix_append _ _⟩
    . rw [if_neg hrotates]
      obtain ⟨l', hok, h', hsize⟩ := h.writeLog_append hdated hdays hday hrotates
      rw [hok, ← hsize]
      exact (ih h' hrest hgood).imp_right (.cons · hok)

theorem writeLogs_cons (h : writeLogs T l (call :: calls) = .ok l')
    : ∃ l₁, writeLog T l call = .ok l₁ ∧ writeLogs T l₁ calls = .ok l' := by
  unfold writeLogs at h
  split at h
  . next l₁ hok => exact ⟨l₁, hok, h⟩
  . contradiction

theorem writeLogs_append (h : writeLogs T l (front ++ back) = .ok l')
    : ∃ l₁, writeLogs T l front = .ok l₁ ∧ writeLogs T l₁ back = .ok l' := by
  induction front generalizing l with
  | nil => exact ⟨l, rfl, h⟩
  | cons call front ih =>
    obtain ⟨l₁, hok, hrest⟩ := writeLogs_cons h
    simp only [writeLogs, hok]
    exact ih hrest

theorem exists_ok {x : Except Failure Logger} [DecidablePred P]
    (h : x.toOption.any (fun l => decide (P l)) = true)
    : ∃ l, x = .ok l ∧ P l := by
  cases x with
  | error e => contradiction
  | ok l => exact ⟨l, rfl, of_decide_eq_true h⟩

end Run
end LogIt.FileLogger
