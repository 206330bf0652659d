import LogIt.Lib.TextReader

/-!
This module contains a parser and a printer for JSON texts, and that it parses what is printed. The
texts are bytes, each as the character with its number.
-/

namespace JsonText

open TextReader List

def isAtomChar (c : Char) : Bool :=
  c.isAlphanum || c = '+' || c = '-' || c = '.'

def dropDigits (s : List Char) : Option (List Char) :=
  if s.head?.any Char.isDigit then some (s.dropWhile Char.isDigit) else none

def dropInteger (s : List Char) : Option (List Char) :=
  match strip ['0'] s with
  | some s => some s
  | none => dropDigits s

def dropFraction (s : List Char) : Option (List Char) :=
  match strip ['.'] s with
  | some s => dropDigits s
  | none => some s

def dropExponent (s : List Char) : Option (List Char) :=
  match s with
  | [] => some []
  | c :: s =>
    if c = 'e' ∨ c = 'E' then
      dropDigits ((strip ['+'] s).getD ((strip ['-'] s).getD s))
    else
      none

def isNumber (s : List Char) : Bool :=
  s.all isAtomChar
    && ((dropInteger ((strip ['-'] s).getD s)).bind dropFraction).bind dropExponent = some []

inductive Value where
  | null
  | bool (b : Bool)
  | number (token : { s : List Char // isNumber s })
  | string (s : List Char)
  | array (elements : List Value)
  | object (members : List (List Char × Value))

def isSpace (c : Char) : Bool :=
  c = ' ' || c = '\t' || c = '\n' || c = '\r'

def skipSpaces (s : List Char) : List Char :=
  s.dropWhile isSpace

def hexValue (c : Char) : Option Nat :=
  if c.isDigit then
    some (c.toNat - '0'.toNat)
  else if 'a' ≤ c ∧ c ≤ 'f' then
    some (c.toNat - 'a'.toNat + 10)
  else if 'A' ≤ c ∧ c ≤ 'F' then
    some (c.toNat - 'A'.toNat + 10)
  else
    none

def readHex (s : List Char) : Option Nat :=
  s.foldlM (fun n c => (hexValue c).map (16 * n + ·)) 0

/--
The bytes of a code unit in UTF-8.
-/
def utf8 (n : Nat) : List Char :=
  if n < 0x80 then
    [Char.ofNat n]
  else if n < 0x800 then
    [Char.ofNat (0xc0 + n / 64), Char.ofNat (0x80 + n % 64)]
  else
    [Char.ofNat (0xe0 + n / 4096), Char.ofNat (0x80 + n / 64 % 64), Char.ofNat (0x80 + n % 64)]

def simpleEscapes : List (Char × Char) :=
  [('"', '"'), ('\\', '\\'), ('/', '/'), ('b', '\x08'), ('f', '\x0c'), ('n', '\n'), ('r', '\r'),
    ('t', '\t')]

def readEscape (s : List Char) : Option (List Char × List Char) :=
  match s with
  | [] => none
  | c :: s =>
    if c = 'u' then
      if s.length < 4 then none else (readHex (s.take 4)).map (fun n => (utf8 n, s.drop 4))
    else
      (simpleEscapes.lookup c).map (fun e => ([e], s))

def readChar (s : List Char) : Option (List Char × List Char) :=
  match s with
  | [] => none
  | c :: s =>
    if c = '\\' then
      readEscape s
    else if c.toNat < 0x20 then
      none
    else
      some ([c], s)

def atom (token : List Char) : Option Value :=
  if token = "null".toList then
    some .null
  else if token = "true".toList then
    some (.bool true)
  else if token = "false".toList then
    some (.bool false)
  else if h : isNumber token then
    some (.number ⟨token, h⟩)
  else
    none

def readSequence {α : Type} (item : List Char → Option (α × List Char)) (close : Char)
    (s : List Char) : Option (List α × List Char) :=
  match readSeparated item ',' close s with
  | some r => some r
  | none => (strip [close] (skipSpaces s)).map (fun s => ([], s))

section

variable (value : List Char → Option (Value × List Char)) (s : List Char)

def readMember
    : Option ((List Char × Value) × List Char) := do
  let s ← strip ['"'] (skipSpaces s)
  let (key, s) ← readDelimited readChar '"' s
  let s ← strip [':'] (skipSpaces s)
  let (v, s) ← value s
  return ((key, v), s)

def readToken : Option (Value × List Char) :=
  if s.head? = some '"' then
    (readDelimited readChar '"' s.tail).map (fun r => (.string r.1, r.2))
  else if s.head? = some '[' then
    (readSequence value ']' s.tail).map (fun r => (.array r.1, r.2))
  else if s.head? = some '\x7b' then
    (readSequence (readMember value) '\x7d' s.tail).map (fun r => (.object r.1, r.2))
  else
    (atom (s.takeWhile isAtomChar)).map (fun v => (v, s.dropWhile isAtomChar))

end

def parseValue : Nat → List Char → Option (Value × List Char)
  | 0, _ => none
  | depth + 1, s =>
    (readToken (parseValue depth) (skipSpaces s)).map (fun r => (r.1, skipSpaces r.2))

def parse (s : List Char) : Option Value :=
  (parseValue (s.length + 1) s).bind (fun r => if r.2 = [] then some r.1 else none)

section Print

variable (escape : Char → List Char) (gap : List Char)

def quote (s : List Char) : List Char :=
  '"' :: s.flatMap escape ++ ['"']

def joined (texts : List (List Char)) : List Char :=
  match texts with
  | [] => []
  | text :: texts => text ++ texts.flatMap (fun text => ',' :: gap ++ text)

omit escape in
theorem flatten_mapIdx {α : Type} (text : α → List Char) (xs : List α)
    : (xs.mapIdx fun i x => (if i ≠ 0 then ',' :: gap else []) ++ text x).flatten
        = joined gap (xs.map text) := by
  cases xs with
  | nil => rfl
  | cons x xs =>
    have hmap : (xs.mapIdx fun _ x => ',' :: gap ++ text x)
        = xs.map (fun x => ',' :: gap ++ text x) := by
      apply ext_getElem <;> simp
    rw [mapIdx_cons, flatten_cons, map_cons, joined, flatMap_map, flatMap_def,
      ← hmap]
    rfl

def print (v : Value) : List Char :=
  match v with
  | .null => "null".toList
  | .bool true => "true".toList
  | .bool false => "false".toList
  | .number token => token.val
  | .string s => quote escape s
  | .array elements => '[' :: joined gap (elements.map print) ++ [']']
  | .object members =>
    '\x7b' :: joined gap (members.map (fun m => quote escape m.1 ++ ':' :: gap ++ print m.2))
      ++ ['\x7d']
decreasing_by
  . decreasing_tactic
  . next hm =>
    have := List.sizeOf_lt_of_mem hm
    cases m
    simp only [Value.object.sizeOf_spec, Prod.mk.sizeOf_spec] at this ⊢
    omega

end Print

section RoundTrip

variable {escape : Char → List Char} {gap : List Char}

def Delimited (rest : List Char) : Prop :=
  rest = [] ∨ ∃ s, rest = ',' :: s ∨ rest = ']' :: s ∨ rest = '\x7d' :: s

theorem delimited_cons {close c : Char} (hclose : close = ']' ∨ close = '\x7d')
    (hc : c ∈ [',', close]) (rest : List Char) : Delimited (c :: rest) := by
  right
  use rest
  grind

theorem skipSpaces_of_delimited (h : Delimited rest) : skipSpaces rest = rest := by
  obtain rfl | ⟨s, rfl | rfl | rfl⟩ := h <;> rfl

theorem skipSpaces_append (hg : ∀ c ∈ g, isSpace c) (s : List Char)
    : skipSpaces (g ++ s) = skipSpaces s :=
  dropWhile_append_of_pos hg

theorem parseValue_gap (hg : ∀ c ∈ g, isSpace c) (depth : Nat) (s : List Char)
    : parseValue depth (g ++ s) = parseValue depth s := by
  cases depth with
  | zero => rfl
  | succ depth => rw [parseValue, parseValue, skipSpaces_append hg]

theorem parseValue_of_token (hc : isSpace c = false) (hrest : Delimited rest)
    (h : readToken (parseValue depth) (c :: s) = some (v, rest))
    : parseValue (depth + 1) (c :: s) = some (v, rest) := by
  rw [parseValue, skipSpaces, dropWhile_cons_of_neg (by simp [hc]), h, Option.map_some,
    skipSpaces_of_delimited hrest]

theorem parseValue_atom (hall : token.all isAtomChar = true) (hatom : atom token = some v)
    (hrest : Delimited rest)
    : parseValue (depth + 1) (token ++ rest) = some (v, rest) := by
  have hstop : rest.takeWhile isAtomChar = [] ∧ rest.dropWhile isAtomChar = rest := by
    obtain rfl | ⟨s, rfl | rfl | rfl⟩ := hrest <;> exact ⟨rfl, rfl⟩
  cases token with
  | nil => contradiction
  | cons c token =>
    rw [all_eq_true] at hall
    have hc := hall c mem_cons_self
    have hne : ∀ d, isAtomChar d = false → c ≠ d := by
      rintro d hd rfl
      rw [hc] at hd
      contradiction
    apply parseValue_of_token _ hrest
    . have htake : (c :: (token ++ rest)).takeWhile isAtomChar = c :: token := by
        rw [← cons_append, takeWhile_append_of_pos hall, hstop.1, append_nil]
      have hdrop : (c :: (token ++ rest)).dropWhile isAtomChar = rest := by
        rw [← cons_append, dropWhile_append_of_pos hall, hstop.2]
      simp [readToken, htake, hdrop, hatom, hne '"' rfl, hne '[' rfl, hne '\x7b' rfl]
    . simp [isSpace, hne ' ' rfl, hne '\t' rfl, hne '\n' rfl, hne '\r' rfl]

theorem atom_number (token : { s : List Char // isNumber s })
    : atom token.val = some (.number token) := by
  have hne : ∀ s, isNumber s = false → token.val ≠ s := by
    intro s hs heq
    rw [← heq, token.property] at hs
    contradiction
  simp only [atom, if_neg (hne "null".toList rfl), if_neg (hne "true".toList rfl),
    if_neg (hne "false".toList rfl), dif_pos token.property]

theorem readSequence_joined {α : Type} {item : List Char → Option (α × List Char)} {close : Char}
    (hclose : ',' ≠ close) (hspace : isSpace close = false)
    (hempty : ∀ s, item (close :: s) = none) (text : α → List Char) (xs : List α)
    (rest : List Char)
    (hitem : ∀ x ∈ xs, ∀ g ∈ [[], gap], ∀ c ∈ [',', close], ∀ rest,
      item (g ++ text x ++ c :: rest) = some (x, c :: rest))
    : readSequence item close (joined gap (xs.map text) ++ close :: rest) = some (xs, rest) := by
  cases xs with
  | nil =>
    have hnone : readSeparated item ',' close (close :: rest) = none := by
      rw [readSeparated, length_cons, readItems, hempty]
    rw [map_nil, joined, nil_append, readSequence, hnone, skipSpaces,
      dropWhile_cons_of_neg (by simp [hspace])]
    simp
  | cons x xs =>
    have hitems := readSeparated_join hclose text id gap x xs rest hitem
    rw [map_id] at hitems
    rw [readSequence, map_cons, joined, flatMap_map, hitems]

theorem length_le_joined (gap : List Char) (h : text ∈ texts)
    : text.length ≤ (joined gap texts).length := by
  cases texts with
  | nil => contradiction
  | cons t texts =>
    rw [joined, length_append]
    cases mem_cons.mp h with
    | inl h =>
      rw [h]
      omega
    | inr h =>
      have hsub : (',' :: gap ++ text).Sublist (texts.flatMap (fun t => ',' :: gap ++ t)) :=
        sublist_flatten_of_mem (mem_map_of_mem h)
      have := hsub.length_le
      simp only [length_append, length_cons] at this
      omega

section

variable (hescape : Escapes readChar '"' escape) (hgap : ∀ c ∈ gap, isSpace c) (v : Value)

include hescape hgap

theorem parseValue_print (hdepth : (print escape gap v).length < depth) (hrest : Delimited rest)
    : parseValue depth (print escape gap v ++ rest) = some (v, rest) := by
  have hgaps : ∀ g ∈ [[], gap], ∀ c ∈ g, isSpace c := by simpa using hgap
  induction depth generalizing v rest with
  | zero => contradiction
  | succ depth ih =>
    cases v with
    | null =>
      rw [print]
      exact parseValue_atom (by decide) rfl hrest
    | bool b =>
      cases b with
      | false | true =>
        rw [print]
        exact parseValue_atom (by decide) rfl hrest
    | number token =>
      rw [print]
      have hall := token.property
      rw [isNumber, Bool.and_eq_true] at hall
      exact parseValue_atom hall.1 (atom_number token) hrest
    | string s =>
      rw [print, quote, cons_append, cons_append, append_assoc]
      apply parseValue_of_token rfl hrest
      exact congrArg (Option.map (fun r => (Value.string r.1, r.2)))
        (readDelimited_flatMap hescape s rest)
    | array elements =>
      rw [print, length_append, length_cons] at hdepth
      rw [print, cons_append, cons_append, append_assoc]
      apply parseValue_of_token rfl hrest
      refine congrArg (Option.map (fun r => (Value.array r.1, r.2))) (?_ :
        readSequence (parseValue depth) ']' _ = some (elements, rest))
      refine readSequence_joined (by decide) rfl ?_ (print escape gap) elements rest ?_
      . intro s
        cases depth <;> rfl
      . intro x hx g hg c hc rest
        have hlt := length_le_joined gap (mem_map_of_mem (f := print escape gap) hx)
        rw [append_assoc, parseValue_gap (hgaps g hg)]
        exact ih x (by omega) (delimited_cons (.inl rfl) hc rest)
    | object members =>
      rw [print, length_append, length_cons] at hdepth
      rw [print, cons_append, cons_append, append_assoc]
      apply parseValue_of_token rfl hrest
      refine congrArg (Option.map (fun r => (Value.object r.1, r.2))) (?_ :
        readSequence (readMember (parseValue depth)) '\x7d' _ = some (members, rest))
      refine readSequence_joined (by decide) rfl (fun _ => rfl) _ members rest ?_
      rintro ⟨key, x⟩ hx g hg c hc rest
      have hlt := length_le_joined gap (mem_map_of_mem
        (f := fun m => quote escape m.1 ++ ':' :: gap ++ print escape gap m.2) hx)
      rw [length_append] at hlt
      dsimp only at hlt
      have hvalue := ih x (by omega) (delimited_cons (.inr rfl) hc rest)
      have hquote : ∀ s, skipSpaces ('"' :: s) = '"' :: s := fun _ => rfl
      have hcolon : ∀ s, skipSpaces (':' :: s) = ':' :: s := fun _ => rfl
      simp only [readMember, quote, append_assoc, skipSpaces_append (hgaps g hg),
        cons_append, nil_append, hquote, strip_cons_self, Option.bind_eq_bind,
        Option.bind_some, readDelimited_flatMap hescape, hcolon, parseValue_gap hgap, hvalue]
      rfl

theorem parse_print : parse (print escape gap v) = some v := by
  have h := parseValue_print hescape hgap v (Nat.lt_succ_self _) (.inl rfl)
  rw [append_nil] at h
  rw [parse, h]
  rfl

end

end RoundTrip

end JsonText
