import Mathlib.Data.List.Infix
import LogIt.Formatter.Impl.Instruction

namespace LogIt.Formatter

open List

def HasEscape (s : Text) : Prop :=
  [esc, '['] <:+: s

def IsSequence (s : Text) : Prop :=
  ∃ body letter, s = esc :: '[' :: (body ++ [letter]) ∧ isLetter letter = true ∧
    ∀ c ∈ body, isLetter c = false

def inSequenceAfter (inEscapeSequence : Bool) (input : Text) : Bool :=
  match inEscapeSequence, input with
  | inEscapeSequence, [] => inEscapeSequence
  | true, c :: input => inSequenceAfter (!isLetter c) input
  | false, '\x1b' :: '[' :: input => inSequenceAfter true input
  | false, _ :: input => inSequenceAfter false input

def Joins (s : Text) : Prop :=
  ∃ before sequences after, sequences ≠ [] ∧ (∀ q ∈ sequences, IsSequence q) ∧
    s = before ++ esc :: (sequences.flatten ++ '[' :: after) ∧ inSequenceAfter false before = false

theorem removeFrom_true (c : Char) (s : Text)
    : removeFrom true (c :: s) = removeFrom (!isLetter c) s := by
  rw [removeFrom]

theorem removeFrom_escape (s : Text) : removeFrom false (esc :: '[' :: s) = removeFrom true s := by
  rw [esc, removeFrom]

theorem removeFrom_false {c : Char} {s : Text} (h : ¬ (c = esc ∧ s.head? = some '['))
    : removeFrom false (c :: s) = c :: removeFrom false s := by
  rw [removeFrom]
  intro rest hc hs
  rw [hc, hs] at h
  exact h ⟨rfl, rfl⟩

theorem inSequenceAfter_false {c : Char} {s : Text} (h : ¬ (c = esc ∧ s.head? = some '['))
    : inSequenceAfter false (c :: s) = inSequenceAfter false s := by
  rw [inSequenceAfter]
  intro rest hc hs
  rw [hc, hs] at h
  exact h ⟨rfl, rfl⟩

theorem escape_or (c : Char) (s : Text)
    : (∃ rest, c = esc ∧ s = '[' :: rest) ∨ ¬ (c = esc ∧ s.head? = some '[') := by
  by_cases h : c = esc ∧ s.head? = some '['
  . left
    cases s with
    | nil => simp at h
    | cons d rest =>
      rw [head?_cons, Option.some.injEq] at h
      exact ⟨rest, h.1, by rw [h.2]⟩
  . exact Or.inr h

theorem removeFrom_append {x : Text} (hx : x.head? ≠ some '[') (inSequence : Bool) (s : Text)
    : removeFrom inSequence (s ++ x)
        = removeFrom inSequence s ++ removeFrom (inSequenceAfter inSequence s) x := by
  induction inSequence, s using removeFrom.induct with
  | case1 inSequence =>
    cases inSequence with
    | _ => rfl
  | case2 c s ih =>
    rw [cons_append, removeFrom_true, removeFrom_true, inSequenceAfter]
    exact ih
  | case3 s ih =>
    change removeFrom false (esc :: '[' :: (s ++ x)) = removeFrom false (esc :: '[' :: s) ++ _
    rw [removeFrom_escape, removeFrom_escape, inSequenceAfter]
    exact ih
  | case4 c s hno ih =>
    have hs : ¬ (c = esc ∧ s.head? = some '[') := by
      rintro ⟨hc, hhead⟩
      cases s with
      | nil => simp at hhead
      | cons d rest =>
        rw [head?_cons, Option.some.injEq] at hhead
        exact hno rest hc (by rw [hhead])
    have hsx : ¬ (c = esc ∧ (s ++ x).head? = some '[') := by
      rintro ⟨hc, hhead⟩
      cases s with
      | nil => exact hx hhead
      | cons d rest => exact hs ⟨hc, hhead⟩
    rw [cons_append, removeFrom_false hsx, removeFrom_false hs, inSequenceAfter_false hs, ih]
    rfl

theorem removeFrom_body {body s : Text} {letter : Char} (hletter : isLetter letter = true)
    (hbody : ∀ c ∈ body, isLetter c = false)
    : removeFrom true (body ++ letter :: s) = removeFrom false s := by
  induction body with
  | nil =>
    rw [nil_append, removeFrom_true, hletter]
    rfl
  | cons c body ih =>
    rw [forall_mem_cons] at hbody
    rw [cons_append, removeFrom_true, hbody.1]
    exact ih hbody.2

theorem removeFrom_sequence (h : IsSequence q) (s : Text)
    : removeFrom false (q ++ s) = removeFrom false s := by
  obtain ⟨body, letter, rfl, hletter, hbody⟩ := h
  rw [cons_append, cons_append, removeFrom_escape, append_assoc]
  exact removeFrom_body hletter hbody

theorem removeFrom_sequences {sequences : List Text} (h : ∀ q ∈ sequences, IsSequence q) (s : Text)
    : removeFrom false (sequences.flatten ++ s) = removeFrom false s := by
  induction sequences with
  | nil => rfl
  | cons q sequences ih =>
    rw [forall_mem_cons] at h
    rw [flatten_cons, append_assoc, removeFrom_sequence h.1]
    exact ih h.2

theorem head?_sequences (h : ∀ q ∈ sequences, IsSequence q) (hne : sequences ≠ []) (s : Text)
    : (sequences.flatten ++ s).head? = some esc := by
  cases sequences with
  | nil => contradiction
  | cons q sequences =>
    obtain ⟨body, letter, rfl, _⟩ := h q mem_cons_self
    rfl

theorem hasEscape_of_joins {s : Text} (h : Joins s) : HasEscape (removeAnsiEscapeCodes s) := by
  obtain ⟨before, sequences, after, hne, hsequences, rfl, hbefore⟩ := h
  have hhead := head?_sequences hsequences hne ('[' :: after)
  have hno : ¬ (esc = esc ∧ (sequences.flatten ++ '[' :: after).head? = some '[') := by
    rw [hhead]
    decide
  have hbracket : ¬ ('[' = esc ∧ after.head? = some '[') := by
    rintro ⟨hc, _⟩
    exact absurd hc (by decide)
  refine ⟨removeFrom false before, removeFrom false after, ?_⟩
  unfold removeAnsiEscapeCodes
  rw [removeFrom_append (by simp [esc]), hbefore, removeFrom_false hno,
    removeFrom_sequences hsequences, removeFrom_false hbracket]
  simp

theorem exists_sequences (inSequence : Bool) (s rest : Text)
    (h : removeFrom inSequence s = '[' :: rest)
    : ∃ (sequences : List Text) (after : Text), (∀ q ∈ sequences, IsSequence q) ∧
        (inSequence = false → s = sequences.flatten ++ '[' :: after) ∧
        (inSequence = true → ∃ body letter, isLetter letter = true ∧
          (∀ c ∈ body, isLetter c = false) ∧
          s = body ++ letter :: (sequences.flatten ++ '[' :: after)) := by
  induction inSequence, s using removeFrom.induct with
  | case1 inSequence =>
    cases inSequence with
    | _ => contradiction
  | case2 c s ih =>
    rw [removeFrom_true] at h
    obtain ⟨sequences, after, hsequences, hfalse, htrue⟩ := ih h
    refine ⟨sequences, after, hsequences, by simp, fun _ => ?_⟩
    cases hc : isLetter c with
    | true =>
      rw [hc] at hfalse
      exact ⟨[], c, hc, by simp, by rw [hfalse rfl]; rfl⟩
    | false =>
      rw [hc] at htrue
      obtain ⟨body, letter, hletter, hbody, rfl⟩ := htrue rfl
      exact ⟨c :: body, letter, hletter, forall_mem_cons.mpr ⟨hc, hbody⟩, rfl⟩
  | case3 s ih =>
    obtain ⟨sequences, after, hsequences, _, htrue⟩ := ih h
    obtain ⟨body, letter, hletter, hbody, rfl⟩ := htrue rfl
    refine ⟨(esc :: '[' :: (body ++ [letter])) :: sequences, after, ?_, fun _ => ?_, by simp⟩
    . exact forall_mem_cons.mpr ⟨⟨body, letter, rfl, hletter, hbody⟩, hsequences⟩
    . simp [esc]
  | case4 c s hno ih =>
    rw [removeFrom] at h
    . rw [cons.injEq] at h
      refine ⟨[], s, by simp, fun _ => ?_, by simp⟩
      rw [h.1]
      rfl
    . exact hno

theorem exists_joins (inSequence : Bool) (s before after : Text)
    (h : removeFrom inSequence s = before ++ esc :: '[' :: after)
    : ∃ before sequences after, sequences ≠ [] ∧ (∀ q ∈ sequences, IsSequence q) ∧
        s = before ++ esc :: (sequences.flatten ++ '[' :: after) ∧
        inSequenceAfter inSequence before = false := by
  induction inSequence, s using removeFrom.induct generalizing before with
  | case1 inSequence =>
    cases inSequence with
    | _ => simp [removeFrom] at h
  | case2 c s ih =>
    rw [removeFrom_true] at h
    obtain ⟨before', sequences, after', hne, hsequences, rfl, hbefore⟩ := ih before h
    exact ⟨c :: before', sequences, after', hne, hsequences, rfl, hbefore⟩
  | case3 s ih =>
    obtain ⟨before', sequences, after', hne, hsequences, rfl, hbefore⟩ := ih before h
    exact ⟨esc :: '[' :: before', sequences, after', hne, hsequences, rfl, hbefore⟩
  | case4 c s hno ih =>
    rw [removeFrom] at h
    . cases before with
      | nil =>
        -- The escape character is the one that is kept here, and the bracket is the next one.
        rw [nil_append, cons.injEq] at h
        obtain ⟨sequences, after', hsequences, hs, _⟩ := exists_sequences false s after h.2
        refine ⟨[], sequences, after', ?_, hsequences, ?_, rfl⟩
        . intro hnil
          rw [hnil] at hs
          exact hno after' h.1 (hs rfl)
        . rw [h.1, hs rfl]
          rfl
      | cons d before =>
        rw [cons_append, cons.injEq] at h
        obtain ⟨before', sequences, after', hne, hsequences, rfl, hbefore⟩ := ih before h.2
        refine ⟨c :: before', sequences, after', hne, hsequences, rfl, ?_⟩
        rw [inSequenceAfter]
        . exact hbefore
        . intro rest hc hrest
          rw [hrest] at hno
          exact hno _ hc rfl
    . exact hno

theorem joins_of_hasEscape (h : HasEscape (removeAnsiEscapeCodes s)) : Joins s := by
  obtain ⟨before, after, h⟩ := h
  apply exists_joins false s before after
  rw [← removeAnsiEscapeCodes, ← h]
  simp

theorem hasEscape_iff_joins (s : Text) : HasEscape (removeAnsiEscapeCodes s) ↔ Joins s :=
  ⟨joins_of_hasEscape, hasEscape_of_joins⟩

theorem removeFrom_eq_self (h : ¬ HasEscape s) : removeFrom false s = s := by
  induction s with
  | nil => rfl
  | cons c s ih =>
    have hno : ¬ (c = esc ∧ s.head? = some '[') := by
      rintro ⟨hc, hhead⟩
      obtain ⟨rest, rfl⟩ := head?_eq_some_iff.mp hhead
      rw [hc] at h
      exact h ⟨[], rest, rfl⟩
    rw [removeFrom_false hno, ih]
    exact fun hs => h (hs.trans (suffix_cons c s).isInfix)

theorem length_removeFrom (inSequence : Bool) (s : Text)
    : (removeFrom inSequence s).length ≤ s.length := by
  induction inSequence, s using removeFrom.induct with
  | case1 inSequence =>
    cases inSequence with
    | _ => exact Nat.le_refl _
  | case2 c s ih =>
    rw [removeFrom_true]
    exact Nat.le_succ_of_le ih
  | case3 s ih =>
    change (removeFrom true s).length ≤ s.length + 2
    omega
  | case4 c s hno ih =>
    rw [removeFrom, length_cons, length_cons]
    . omega
    . exact hno

theorem length_removeFrom_lt (h : HasEscape s) : (removeFrom false s).length < s.length := by
  obtain ⟨before, after, rfl⟩ := h
  have hle := length_removeFrom
  induction before with
  | nil =>
    change (removeFrom false (esc :: '[' :: after)).length < after.length + 2
    rw [removeFrom_escape]
    have := hle true after
    omega
  | cons c before ih =>
    rcases escape_or c (before ++ [esc, '['] ++ after) with ⟨rest, hc, hrest⟩ | hno
    . rw [cons_append, cons_append, hc, hrest, removeFrom_escape, length_cons,
        length_cons]
      have := hle true rest
      omega
    . rw [cons_append, cons_append, removeFrom_false hno, length_cons,
        length_cons]
      omega

theorem removeAnsiEscapeCodes_eq_self_iff (s : Text) : removeAnsiEscapeCodes s = s ↔ ¬ HasEscape s := by
  constructor
  . intro heq h
    have hlt := length_removeFrom_lt h
    rw [removeAnsiEscapeCodes] at heq
    rw [heq] at hlt
    exact Nat.lt_irrefl _ hlt
  . exact removeFrom_eq_self

theorem stripping_complete_iff (s : Text)
    : (¬ HasEscape (removeAnsiEscapeCodes s) ↔ ¬ Joins s) ∧
      (removeAnsiEscapeCodes (removeAnsiEscapeCodes s) = removeAnsiEscapeCodes s ↔ ¬ Joins s) ∧
      (¬ HasEscape s → removeAnsiEscapeCodes s = s) := by
  refine ⟨?_, ?_, (removeAnsiEscapeCodes_eq_self_iff s).mpr⟩
  . rw [hasEscape_iff_joins]
  . rw [removeAnsiEscapeCodes_eq_self_iff, hasEscape_iff_joins]

theorem stripping_complete_red
    : removeAnsiEscapeCodes (TextColor.red.toString ++ ['x']) = ['x'] ∧
      ¬ Joins (TextColor.red.toString ++ ['x']) := by
  refine ⟨by decide, ?_⟩
  rw [← (stripping_complete_iff _).2.1]
  decide

theorem stripping_leaves_escape
    : removeAnsiEscapeCodes (esc :: TextColor.red.toString ++ ['[', 'm']) = [esc, '[', 'm'] ∧
      HasEscape [esc, '[', 'm'] ∧ removeAnsiEscapeCodes [esc, '[', 'm'] = [] := by
  refine ⟨by decide, ⟨[], ['m'], rfl⟩, by decide⟩

end LogIt.Formatter
