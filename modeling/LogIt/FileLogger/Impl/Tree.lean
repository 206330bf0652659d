import LogIt.FileLogger.Impl.Names
import LogIt.Lib.Sorting

/-!
This module contains what the `FileLogger` sees of a log directory with entries of any kind, in both
language modes. A symbolic link counts as what it refers to.
-/

namespace LogIt.FileLogger

inductive Standard where
  | cpp11
  | cpp17
  deriving DecidableEq

/--
With a backslash at its end, `get_list_files` would not find the entries of the subdirectory.
-/
structure DirName where
  chars : Name
  notBackslash : chars.getLast? ≠ some '\\'

/--
The entries are in the order in which they are read.
-/
inductive Tree where
  | nil
  | file (name : Name) (rest : Tree)
  | other (name : Name) (rest : Tree)
  | directory (name : DirName) (entries rest : Tree)

structure FoundFile where
  location : List Name
  path : Name

structure ListedFile where
  location : List Name
  name : Name

namespace Tree

def regularFiles (tree : Tree) : List Name :=
  match tree with
  | nil => []
  | file name rest => name :: rest.regularFiles
  | other _ rest => rest.regularFiles
  | directory _ _ rest => rest.regularFiles

def files (tree : Tree) : List (List Name) :=
  match tree with
  | nil => []
  | file name rest => [name] :: rest.files
  | other _ rest => rest.files
  | directory name entries rest => entries.files.map (name.chars :: ·) ++ rest.files

def searchPath (path : Name) : Name :=
  if path.getLast? ≠ some '/' ∧ path.getLast? ≠ some '\\' then path ++ ['/'] else path

def getListFiles (location : List Name) (path : Name) (tree : Tree) : List FoundFile :=
  match tree with
  | nil => []
  | file name rest =>
    ⟨location ++ [name], searchPath path ++ name⟩ :: getListFiles location path rest
  | other _ rest => getListFiles location path rest
  | directory name entries rest =>
    getListFiles (location ++ [name.chars]) (searchPath path ++ name.chars) entries
      ++ getListFiles location path rest

def ofNames (names : List Name) : Tree :=
  names.foldr file nil

end Tree

def afterSeparator (path : Name) : Name :=
  (path.reverse.takeWhile (fun c => c ≠ '/' ∧ c ≠ '\\')).reverse

def listedFiles (std : Standard) (dir : Name) (tree : Tree) : List ListedFile :=
  match std with
  | .cpp17 => tree.regularFiles.map (fun name => ⟨[name], name⟩)
  | .cpp11 => (tree.getListFiles [] dir).map (fun f => ⟨f.location, afterSeparator f.path⟩)

namespace Tree

def enforceRotationRetention (S : Sorter ListedFile) (std : Standard) (base : Name) (maxFiles : Nat)
    (dir : Name) (tree : Tree)
    : List (List Name) :=
  let files := (listedFiles std dir tree).filter
    (fun f => base.isPrefixOf f.name && f.name != base ++ logSuffix)
  if files.length ≤ maxFiles then
    []
  else
    let files := S.sort (fun a b => sortsBefore base a.name b.name) files
    (files.take (files.length - maxFiles)).map ListedFile.location

def removeOldLogs (std : Standard) (C : Calendar) (currentDateTs autoDeleteDays : Int) (dir : Name)
    (tree : Tree)
    : List (List Name) :=
  let thresholdTs := currentDateTs - 86400 * autoDeleteDays
  let old := (listedFiles std dir tree).filter
    (fun f => isValidLogFilename f.name && decide (C.ts (f.name.take 10) < thresholdTs))
  old.map ListedFile.location

end Tree

structure LogFileInfo where
  path : Name
  name : Name
  dayStartMs : Int
  isCurrent : Bool
  isCompressed : Bool

structure FileSortKey where
  kindRank : Int := 0
  primary : Int := 0
  secondary : Int := 0
  artifactName : Name

def isCompressedLogFilename (filename : Name) : Bool :=
  gzSuffix.isSuffixOf filename || zstSuffix.isSuffixOf filename

/--
The file is directly inside the log directory `dir`.
-/
def tryMakeLogFileInfo (C : Calendar) (dir currentPath name : Name) : Option LogFileInfo :=
  let path := dir ++ '/' :: name
  if isValidLogFilename name then
    some {
      path
      name
      dayStartMs := 1000 * C.ts (name.take 10)
      isCurrent := path = currentPath
      isCompressed := isCompressedLogFilename name
    }
  else
    none

def makeFileSortKey (info : LogFileInfo) : FileSortKey :=
  let plainName := stripCompressionSuffix info.name
  if 15 < plainName.length ∧ plainName[10]? = some '_' then
    let rest := (plainName.drop 11).take (plainName.length - 15)
    {
      kindRank := 2
      primary := strtoll (rest.takeWhile (· ≠ '.'))
      secondary := if '.' ∈ rest then strtoll ((rest.dropWhile (· ≠ '.')).drop 1) else 0
      artifactName := plainName
    }
  else if 15 < plainName.length ∧ plainName[10]? = some '.' then
    {
      kindRank := 1
      primary := strtoll ((plainName.drop 11).take (plainName.length - 15))
      artifactName := plainName
    }
  else
    { artifactName := plainName }

def normalizePathSeparators (path : Name) : Name :=
  path.map (fun c => if c = '\\' then '/' else c)

def newerFirst (lhs rhs : LogFileInfo) : Prop :=
  let lhsKey := makeFileSortKey lhs
  let rhsKey := makeFileSortKey rhs
  if lhs.dayStartMs ≠ rhs.dayStartMs then
    lhs.dayStartMs > rhs.dayStartMs
  else if lhs.isCurrent ≠ rhs.isCurrent then
    lhs.isCurrent = true ∧ rhs.isCurrent = false
  else if lhsKey.kindRank ≠ rhsKey.kindRank then
    lhsKey.kindRank > rhsKey.kindRank
  else if lhsKey.primary ≠ rhsKey.primary then
    lhsKey.primary > rhsKey.primary
  else if lhsKey.secondary ≠ rhsKey.secondary then
    lhsKey.secondary > rhsKey.secondary
  else if lhsKey.artifactName = rhsKey.artifactName ∧ lhs.isCompressed ≠ rhs.isCompressed then
    lhs.isCompressed = false ∧ rhs.isCompressed = true
  else if lhsKey.artifactName ≠ rhsKey.artifactName then
    lhsKey.artifactName > rhsKey.artifactName
  else
    normalizePathSeparators lhs.path > normalizePathSeparators rhs.path

instance (lhs rhs : LogFileInfo) : Decidable (newerFirst lhs rhs) := by
  unfold newerFirst
  infer_instance

def sortLogFilesNewestFirst (S : Sorter LogFileInfo) (files : List LogFileInfo)
    : List LogFileInfo :=
  S.sort newerFirst files

end LogIt.FileLogger
