import Mathlib.Algebra.Group.Nat.Defs

/-!
This module contains the functions on texts: `format()` over the library's `vsnprintf`,
`format_tags()` with its default separators, and `make_relative()` before C++17.
-/

namespace LogIt.Utils

/--
What `vsnprintf` answers for a format and its arguments, whatever the buffer.
-/
inductive Vsnprintf where
  | printed (text : List UInt8)
  | failed (res : Int) (negative : res < 0)

def vsnprintf (outcome : Vsnprintf) (size : Nat) : Int × List UInt8 :=
  match outcome with
  | .printed text => (text.length, text.take (size - 1) ++ [0])
  | .failed res _ => (res, [])

def toInt (size : Nat) : Int :=
  (BitVec.ofNat 32 size).toInt

def cString (buffer : List UInt8) : List UInt8 :=
  buffer.takeWhile (fun c => c != 0)

inductive FormatEnd where
  | returned (text : List UInt8)
  | lengthError
  | looping
  deriving DecidableEq

/--
`sizes` are the buffers in the order they were allocated.
-/
structure FormatRun where
  result : FormatEnd
  sizes : List Nat
  deriving DecidableEq

def formatLoop (outcome : Vsnprintf) (rounds size : Nat) : FormatRun :=
  match rounds with
  | 0 => ⟨.looping, [size]⟩
  | rounds + 1 =>
    let (res, buffer) := vsnprintf outcome size
    if 0 ≤ res ∧ res < toInt size then
      ⟨.returned (cString buffer), [size]⟩
    else
      let next := if res < 0 then size * 2 % 2 ^ 64 else res.toNat + 1
      if 2 ^ 63 ≤ next then
        ⟨.lengthError, [size]⟩
      else
        let run := formatLoop outcome rounds next
        ⟨run.result, size :: run.sizes⟩

/--
`format()` when it is left alone after `rounds` iterations.
-/
def format (outcome : Vsnprintf) (rounds : Nat) : FormatRun :=
  formatLoop outcome rounds 1024

abbrev Text := List Char

def needQuote (s : Text) : Bool :=
  s.contains ' ' || s.contains '='

def escapeQuotes : Text → Text
  | [] => []
  | c :: s => (if c = '"' then ['\\', c] else [c]) ++ escapeQuotes s

def formatValue (v : Text) : Text :=
  if needQuote v then '"' :: escapeQuotes v ++ ['"'] else v

def formatPair (kv : Text × Text) : Text :=
  kv.1 ++ '=' :: formatValue kv.2

def formatPairs : List (Text × Text) → Text
  | [] => []
  | [kv] => formatPair kv
  | kv :: tags => formatPair kv ++ ' ' :: formatPairs tags

def formatTags (tags : List (Text × Text)) : Text :=
  if tags.isEmpty then [] else ' ' :: '|' :: ' ' :: formatPairs tags

structure PathComponents where
  root : Text
  components : List Text

def isSeparator (c : Char) : Bool :=
  c == '/' || c == '\\'

/--
The loop of `split_path()`. There are not more rounds than characters.
-/
def splitComponents (rounds : Nat) (path : Text) : List Text :=
  match rounds with
  | 0 => []
  | rounds + 1 =>
    let path := path.dropWhile isSeparator
    let component := path.takeWhile (fun c => !isSeparator c)
    let rest := path.dropWhile (fun c => !isSeparator c)
    if component.isEmpty then
      splitComponents rounds rest
    else
      component :: splitComponents rounds rest

def components (path : Text) : List Text :=
  splitComponents path.length path

def isAlpha (c : Char) : Bool :=
  decide ('A' ≤ c ∧ c ≤ 'Z') || decide ('a' ≤ c ∧ c ≤ 'z')

def splitPath (path : Text) : PathComponents :=
  match path with
  | [] => ⟨[], []⟩
  | [c] => if isSeparator c then ⟨['/'], []⟩ else ⟨[], components [c]⟩
  | c :: d :: rest =>
    if isSeparator c then
      ⟨['/'], components (d :: rest)⟩
    else if isAlpha c && d == ':' then
      match rest with
      | [] => ⟨[c, d], []⟩
      | e :: rest => if isSeparator e then ⟨[c, d], components rest⟩ else ⟨[c, d], components (e :: rest)⟩
    else
      ⟨[], components (c :: d :: rest)⟩

def commonSize : List Text → List Text → Nat
  | c :: file, d :: base => if c = d then commonSize file base + 1 else 0
  | _, _ => 0

def joinComponents : List Text → Text
  | [] => []
  | [c] => c
  | c :: cs => c ++ '/' :: joinComponents cs

def makeRelative (filePath basePath : Text) : Text :=
  if basePath.isEmpty then
    filePath
  else
    let file := splitPath filePath
    let base := splitPath basePath
    if file.root ≠ base.root then
      filePath
    else
      let common := commonSize file.components base.components
      let relative := List.replicate (base.components.length - common) ['.', '.']
        ++ file.components.drop common
      if relative.isEmpty then ['.'] else joinComponents relative

end LogIt.Utils
