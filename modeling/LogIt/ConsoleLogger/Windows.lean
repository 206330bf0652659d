import LogIt.Formatter.Impl.Instruction

/-!
This module contains the writer for the Windows console. A position in the message is the text from
there on.
-/

namespace LogIt.ConsoleLogger.Windows

open Formatter (Text TextColor esc)

inductive StoiError where
  | invalidArgument
  | outOfRange
  deriving DecidableEq

def isSpace (c : Char) : Bool :=
  c = ' ' || ('\t'.toNat ≤ c.toNat && c.toNat ≤ '\r'.toNat)

def stoi (s : Text) : Except StoiError Int :=
  let s := s.dropWhile isSpace
  let digits := (if s.head? = some '-' ∨ s.head? = some '+' then s.tail else s).takeWhile Char.isDigit
  let n : Int := digits.foldl (fun n c => 10 * n + (c.toNat - '0'.toNat)) 0
  let value := if s.head? = some '-' then -n else n
  if digits = [] then
    .error .invalidArgument
  else if value < -2147483648 ∨ 2147483647 < value then
    .error .outOfRange
  else
    .ok value

def textColorToWinColor (color : TextColor) : Nat :=
  match color with
  | .black => 0
  | .darkRed => 4
  | .darkGreen => 2
  | .darkYellow => 6
  | .darkBlue => 1
  | .darkMagenta => 5
  | .darkCyan => 3
  | .lightGray => 7
  | .darkGray => 8
  | .red => 12
  | .green => 10
  | .yellow => 14
  | .blue => 9
  | .magenta => 13
  | .cyan => 11
  | .white => 15

def winColors : List (Int × Nat) :=
  [(30, 0), (31, 4), (32, 2), (33, 6), (34, 1), (35, 5), (36, 3), (37, 7), (90, 8), (91, 12),
    (92, 10), (93, 14), (94, 9), (95, 13), (96, 11), (97, 15)]

inductive ConsoleOutput where
  | text (s : Text)
  | attribute (color : Nat)
  deriving DecidableEq

def colorFromAnsiCode (defaultColor : TextColor) (code : Int) : Nat :=
  (winColors.lookup code).getD (textColorToWinColor defaultColor)

def findAnsi (s : Text) : Option (Text × Text) :=
  match s with
  | [] => none
  | c :: s =>
    if c = esc ∧ s.head? = some '[' then
      some ([], s.tail)
    else
      (findAnsi s).map (fun r => (c :: r.1, r.2))

/--
The text before the next sequence, and if it is complete its code and what comes after it.
-/
def nextSequence (s : Text) : Option (Text × Option (Text × Text)) :=
  match findAnsi s with
  | none => none
  | some (before, after) =>
    match after.dropWhile (· ≠ 'm') with
    | [] => some (before, none)
    | _ :: rest => some (before, some (after.takeWhile (· ≠ 'm'), rest))

theorem length_findAnsi (h : findAnsi s = some (before, after)) : after.length < s.length := by
  induction s generalizing before with
  | nil => contradiction
  | cons c s ih =>
    rw [findAnsi] at h
    split at h
    . cases h
      simp only [List.length_tail, List.length_cons]
      omega
    . obtain ⟨⟨before', after'⟩, hs, heq⟩ := Option.map_eq_some_iff.mp h
      cases heq
      exact Nat.lt_succ_of_lt (ih hs)

theorem length_nextSequence (h : nextSequence s = some (before, some (code, rest)))
    : rest.length < s.length := by
  unfold nextSequence at h
  split at h
  . contradiction
  . next before' after hfind =>
    split at h
    . cases h
    . next c rest' hdrop =>
      cases h
      have hsuffix := (List.dropWhile_suffix (l := after) (· ≠ 'm')).length_le
      rw [hdrop, List.length_cons] at hsuffix
      have := length_findAnsi hfind
      omega

def output (s : Text) : List ConsoleOutput :=
  if s = [] then [] else [.text s]

def writeFrom (defaultColor : TextColor) (s : Text) : List ConsoleOutput × Option StoiError :=
  match _h : nextSequence s with
  | none => (output s, none)
  | some (before, none) => (output before ++ output s, none)
  | some (before, some (code, rest)) =>
    match stoi code with
    | .error e => (output before, some e)
    | .ok n =>
      let r := writeFrom defaultColor rest
      (output before ++ .attribute (colorFromAnsiCode defaultColor n) :: r.1, r.2)
termination_by s.length
decreasing_by exact length_nextSequence _h

def handleAnsiColorsWindows (defaultColor : TextColor) (message : Text)
    : List ConsoleOutput × Option StoiError :=
  match writeFrom defaultColor message with
  | (outputs, some e) => (outputs, some e)
  | (outputs, none) =>
    (outputs ++ (if message = [] then [] else [.text ['\n']])
      ++ [.attribute (textColorToWinColor defaultColor)], none)

def printed (outputs : List ConsoleOutput) : Text :=
  outputs.flatMap fun
    | .text s => s
    | .attribute _ => []

def withoutSequences (s : Text) : Text :=
  match _h : nextSequence s with
  | some (before, some (_, rest)) => before ++ withoutSequences rest
  | _ => s
termination_by s.length
decreasing_by exact length_nextSequence _h

/--
The codes of the complete sequences are numbers, and nothing stands between the last one of them and
an incomplete one.
-/
inductive Printable : Text → Prop
  | plain {s : Text} (h : nextSequence s = none) : Printable s
  | incomplete {s : Text} (h : nextSequence s = some ([], none)) : Printable s
  | complete {s before code rest : Text} {n : Int}
      (h : nextSequence s = some (before, some (code, rest))) (hcode : stoi code = .ok n)
      (hrest : Printable rest) : Printable s

@[simp]
theorem printed_output (s : Text) : printed (output s) = s := by
  unfold output
  split
  . next h => simp [h, printed]
  . simp [printed]

@[simp]
theorem printed_attribute (color : Nat) (outputs : List ConsoleOutput)
    : printed (.attribute color :: outputs) = printed outputs :=
  rfl

theorem printed_append (a b : List ConsoleOutput) : printed (a ++ b) = printed a ++ printed b :=
  List.flatMap_append

theorem writeFrom_iff (defaultColor : TextColor) (s : Text)
    : ((writeFrom defaultColor s).2 = none
        ∧ printed (writeFrom defaultColor s).1 = withoutSequences s) ↔ Printable s := by
  rw [writeFrom, withoutSequences]
  split
  . next h =>
    rw [h]
    simpa using Printable.plain h
  . next before h =>
    rw [h]
    simp only [printed_append, printed_output, true_and, List.append_left_eq_self]
    constructor
    . rintro rfl
      exact .incomplete h
    . intro hprintable
      cases hprintable with
      | plain h' | complete h' => simp [h] at h'
      | incomplete h' => simpa [h] using h'
  . next before code rest h =>
    rw [h]
    have hiff : Printable s ↔ (∃ n, stoi code = .ok n) ∧ Printable rest := by
      constructor
      . intro hprintable
        cases hprintable with
        | plain h' | incomplete h' => simp [h] at h'
        | complete h' hcode hrest =>
          rw [h] at h'
          cases h'
          exact ⟨⟨_, hcode⟩, hrest⟩
      . rintro ⟨⟨n, hcode⟩, hrest⟩
        exact .complete h hcode hrest
    rw [hiff]
    cases hcode : stoi code with
    | error e => simp
    | ok n =>
      have hlt := length_nextSequence h
      have ih := writeFrom_iff defaultColor rest
      simpa [printed_append] using ih
termination_by s.length
decreasing_by assumption

theorem message_printed_once_iff (defaultColor : TextColor) (message : Text)
    : ((handleAnsiColorsWindows defaultColor message).2 = none
        ∧ printed (handleAnsiColorsWindows defaultColor message).1
          = withoutSequences message ++ (if message = [] then [] else ['\n']))
      ↔ Printable message := by
  rw [← writeFrom_iff defaultColor message, handleAnsiColorsWindows]
  rcases writeFrom defaultColor message with ⟨outputs, _ | e⟩
  . by_cases h : message = [] <;> simp [h, printed]
  . simp

theorem message_printed_once_red
    : printed (handleAnsiColorsWindows .white ('a' :: TextColor.red.toString ++ ['b'])).1
      = withoutSequences ('a' :: TextColor.red.toString ++ ['b']) ++ ['\n'] :=
  ((message_printed_once_iff .white _).mpr
    (.complete (by rfl) (by rfl) (.plain (by rfl)))).2

theorem message_not_printed_once
    : (handleAnsiColorsWindows .white [esc, '[', 'm']).2 = some .invalidArgument
      ∧ printed (handleAnsiColorsWindows .white ['a', esc, '[', '1']).1
        = ['a', 'a', esc, '[', '1', '\n'] := by
  constructor
  . rw [handleAnsiColorsWindows, writeFrom]
    rfl
  . rw [handleAnsiColorsWindows, writeFrom]
    rfl

end LogIt.ConsoleLogger.Windows
