import Mathlib.Data.List.Basic

/-!
This module contains the argument expressions of a logging macro: words, literals and parentheses, and
the search for the names of the arguments. The text is read backwards, an iterator is a position in
it, and `none` is undefined behaviour.
-/

namespace LogIt.ArgumentUtils

structure Word where
  chars : List Char
  nonempty : chars ≠ []
  plain : ∀ c ∈ chars, c ∉ [',', '(', ')', '"', '\'', '<', '>', '\\']

inductive Quote where
  | double
  | single
  deriving DecidableEq

def Quote.char (quote : Quote) : Char :=
  match quote with
  | .double => '"'
  | .single => '\''

theorem Quote.char_ne_space (quote : Quote) : quote.char ≠ ' ' := by
  cases quote with
  | double => decide
  | single => decide

inductive LiteralChar where
  | plain (c : Char)
  | escaped (c : Char)
  deriving DecidableEq

def LiteralChar.text (c : LiteralChar) : List Char :=
  match c with
  | .plain c => [c]
  | .escaped c => ['\\', c]

structure Literal where
  quote : Quote
  body : List LiteralChar
  closed : ∀ c, .plain c ∈ body → c ≠ quote.char ∧ c ≠ '\\'

def Literal.text (l : Literal) : List Char :=
  l.quote.char :: l.body.flatMap LiteralChar.text ++ [l.quote.char]

inductive Piece where
  | word (w : Word)
  | literal (l : Literal)
  | paren (args : List (List Piece))

inductive Token where
  | word (w : Word)
  | literal (l : Literal)
  | opening
  | closing
  | comma

def Token.text (t : Token) : List Char :=
  match t with
  | .word w => w.chars
  | .literal l => l.text
  | .opening => ['(']
  | .closing => [')']
  | .comma => [',']

mutual

def Piece.tokens : Piece → List Token
  | .word w => [.word w]
  | .literal l => [.literal l]
  | .paren args => .opening :: (argsTokens args ++ [.closing])

def piecesTokens : List Piece → List Token
  | [] => []
  | p :: ps => p.tokens ++ piecesTokens ps

def argsTokens : List (List Piece) → List Token
  | [] => []
  | e :: [] => piecesTokens e
  | e :: es => piecesTokens e ++ .comma :: argsTokens es

end

def piecesText (pieces : List Piece) : List Char :=
  (piecesTokens pieces).flatMap Token.text

structure Expression where
  pieces : List Piece
  nonempty : pieces ≠ []
  leading : (piecesText pieces).head? ≠ some ' '
  trailing : (piecesText pieces).getLast? ≠ some ' '

namespace Expression

def tokens (e : Expression) : List Token :=
  piecesTokens e.pieces

def text (e : Expression) : List Char :=
  piecesText e.pieces

def ofWord (w : Word) (hleading : w.chars.head? ≠ some ' ')
    (htrailing : w.chars.getLast? ≠ some ' ') : Expression where
  pieces := [.word w]
  nonempty := by simp
  leading := by simpa [piecesText, piecesTokens, Piece.tokens, Token.text] using hleading
  trailing := by simpa [piecesText, piecesTokens, Piece.tokens, Token.text] using htrailing

def ofLiteral (l : Literal) : Expression where
  pieces := [.literal l]
  nonempty := by simp
  leading := by
    simp [piecesText, piecesTokens, Piece.tokens, Token.text, Literal.text, Quote.char_ne_space]
  trailing := by
    simp only [piecesText, piecesTokens, Piece.tokens, Token.text, Literal.text, List.append_nil,
      List.flatMap_cons, List.flatMap_nil]
    rw [List.getLast?_concat]
    simp [Quote.char_ne_space]

end Expression

def joinNames : List (List Char) → List Char
  | [] => []
  | name :: [] => name
  | name :: names => name ++ ',' :: ' ' :: joinNames names

def quotationLength (quote : Char) : List Char → Nat
  | c :: d :: rest =>
    if c = quote ∧ d ≠ '\\' then
      0
    else
      quotationLength quote (d :: rest) + 1
  | _ => 0

def skipQuotation (text : List Char) (leftCut : Nat) : Nat :=
  match text.drop leftCut with
  | c :: d :: rest =>
    if c = '"' ∧ d ≠ '\\' then
      leftCut + 1 + quotationLength '"' (d :: rest) + 1
    else if c = '\'' ∧ d ≠ '\\' then
      leftCut + 1 + quotationLength '\'' (d :: rest) + 1
    else
      leftCut
  | _ => leftCut

def isSpace (c : Char) : Bool :=
  c = ' ' || c = '\t' || c = '\n' || c = '\r' || c = '\x0c' || c = '\x0b'

def skipSpaces (text : List Char) (rightIt : Nat) : Nat → Option Nat
  | 0 => some 0
  | leftIt + 1 =>
    if leftIt + 1 = rightIt then
      some (leftIt + 1)
    else
      match text[leftIt + 1]? with
      | some c => if isSpace c then skipSpaces text rightIt leftIt else some (leftIt + 1)
      | none => none

def isClosingTemplate (text : List Char) (leftIt rightIt : Nat) : Option Bool := do
  let c ← text[leftIt]?
  if c ≠ '>' ∨ leftIt = rightIt then
    return false
  else
    let leftIt ← skipSpaces text rightIt (leftIt - 1)
    let c ← text[leftIt]?
    if c = ':' ∧ leftIt ≠ rightIt then
      let d ← text[leftIt - 1]?
      return d = ':'
    else
      return false

def trimLeading (text : List Char) : Nat → Option Nat
  | 0 => none
  | eIt + 1 =>
    match text[eIt]? with
    | some c => if c = ' ' then trimLeading text eIt else some (eIt + 1)
    | none => none

def trimTrailing (text : List Char) (rightCut : Nat) : Option Nat :=
  let rightCut := rightCut + ((text.drop rightCut).takeWhile (· = ' ')).length
  if rightCut < text.length then
    some rightCut
  else
    none

def cut (text : List Char) (leftCut rightCut : Nat) : Option (List Char) := do
  let eIt ← trimLeading text leftCut
  let rightCut ← trimTrailing text rightCut
  if rightCut ≤ eIt then
    return ((text.take eIt).drop rightCut).reverse
  else
    none

structure SplitState where
  rightCut : Nat
  leftCut : Nat
  parenthesisCount : Int
  angleBracketCount : Int
  result : List (List Char)

inductive Pass where
  | finished (result : List (List Char))
  | next (s : SplitState)

def splitVisit (text : List Char) (s : SplitState) : Option Pass :=
  if s.leftCut = text.length then do
    let name ← cut text s.leftCut s.rightCut
    return .finished (name :: s.result)
  else do
    let c ← text[s.leftCut]?
    if c = ',' ∧ s.parenthesisCount = 0 ∧ s.angleBracketCount = 0 then
      let name ← cut text s.leftCut s.rightCut
      return .next { s with
        result := name :: s.result
        rightCut := s.leftCut + 1
        leftCut := s.leftCut + 1
      }
    else if c = ')' then
      return .next { s with
        parenthesisCount := s.parenthesisCount + 1
        leftCut := s.leftCut + 1
      }
    else if c = '(' then
      return .next { s with
        parenthesisCount := s.parenthesisCount - 1
        leftCut := s.leftCut + 1
      }
    else
      let closing ← isClosingTemplate text s.leftCut s.rightCut
      if closing then
        return .next { s with
          angleBracketCount := s.angleBracketCount + 1
          leftCut := s.leftCut + 1
        }
      else if c = '<' ∧ 0 < s.angleBracketCount then
        return .next { s with
          angleBracketCount := s.angleBracketCount - 1
          leftCut := s.leftCut + 1
        }
      else
        return .next { s with leftCut := s.leftCut + 1 }

def splitLoop (text : List Char) : Nat → SplitState → Option (List (List Char))
  | 0, _ => none
  | fuel + 1, s =>
    match splitVisit text { s with leftCut := skipQuotation text s.leftCut } with
    | some (.finished result) => some result
    | some (.next s) => splitLoop text fuel s
    | none => none

def splitArguments (allNames : List Char) : Option (List (List Char)) :=
  if allNames = [] then
    some []
  else
    splitLoop allNames.reverse (allNames.length + 1) {
      rightCut := 0
      leftCut := 0
      parenthesisCount := 0
      angleBracketCount := 0
      result := []
    }

def argsToArray {α : Type} : List (List Char) → List α → Option (List (List Char × α))
  | _, [] => some []
  | [], _ :: _ => none
  | name :: names, arg :: args => do
    let tail ← argsToArray names args
    return (name, arg) :: tail

def print {α : Type} (argNames : List Char) (args : List α) : Option (List (List Char × α)) :=
  if args = [] then
    some []
  else do
    let varNames ← splitArguments argNames
    argsToArray varNames args

end LogIt.ArgumentUtils
