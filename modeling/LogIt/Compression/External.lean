import LogIt.Formatter.Impl.Instruction
import LogIt.Lib.Substitution

/-!
This module contains the command of an external compressor, and how a POSIX shell reads a word in
double quotes.
-/

namespace LogIt.Compression
namespace External

open Formatter (Text decimal)
open Substitution (replaceFirst)

def fileMark : Text :=
  ['\x7b', 'f', 'i', 'l', 'e', '\x7d']

def levelMark : Text :=
  ['\x7b', 'l', 'e', 'v', 'e', 'l', '\x7d']

def quote : Char :=
  '\x22'

def quoted (src : Text) : Text :=
  quote :: src ++ [quote]

def compressFileExternal (src cmdTpl : Text) (level : Int) : Option Text :=
  if cmdTpl.isEmpty then
    none
  else
    let cmd := replaceFirst fileMark (quoted src) cmdTpl
    some (replaceFirst levelMark (decimal level) cmd)

/--
The characters that a backslash in double quotes quotes. A newline is removed with it.
-/
def quotable : List Char :=
  ['$', '\x60', quote, '\\', '\n']

/--
The rest of a word behind an opening double quote up to the closing one, and whether a backslash
comes before it. It is `none` if the quotes are not closed there or the shell expands something.
-/
def inQuotes (backslash : Bool) (word : Text) : Option Text :=
  match word with
  | [] => none
  | c :: word =>
    if backslash then
      if c = '\n' then
        inQuotes false word
      else if c ∈ quotable then
        (inQuotes false word).map (c :: ·)
      else
        (inQuotes false word).map ('\\' :: c :: ·)
    else if c = quote then
      if word.isEmpty then some [] else none
    else if c = '$' || c = '\x60' then
      none
    else if c = '\\' then
      inQuotes true word
    else
      (inQuotes false word).map (c :: ·)

def doubleQuoted (word : Text) : Option Text :=
  match word with
  | [] => none
  | c :: word => if c = quote then inQuotes false word else none

end External

namespace External

open List

open Formatter (Text decimal)
open Substitution

section Template

variable (file level : Text)

def expandFrom (skip : Nat) (tpl : Text) : Text :=
  match tpl, skip with
  | [], _ => []
  | _ :: tpl, skip + 1 => expandFrom skip tpl
  | c :: tpl, 0 =>
    if fileMark <+: c :: tpl then
      file ++ expandFrom 5 tpl
    else if levelMark <+: c :: tpl then
      level ++ expandFrom 6 tpl
    else
      c :: expandFrom 0 tpl

def expand (tpl : Text) : Text :=
  expandFrom file level 0 tpl

theorem expandFrom_eq (skip : Nat) (tpl : Text)
    : expandFrom file level skip tpl = expand file level (tpl.drop skip) := by
  induction tpl generalizing skip with
  | nil =>
    rw [drop_nil]
    cases skip with
    | _ => rfl
  | cons c tpl ih =>
    cases skip with
    | zero => rfl
    | succ skip =>
      rw [expandFrom, ih]
      rfl

theorem expand_cons (c : Char) (tpl : Text)
    : expand file level (c :: tpl) =
        if fileMark <+: c :: tpl then
          file ++ expand file level (tpl.drop 5)
        else if levelMark <+: c :: tpl then
          level ++ expand file level (tpl.drop 6)
        else
          c :: expand file level tpl := by
  unfold expand
  rw [expandFrom, expandFrom_eq, expandFrom_eq]
  rfl

theorem expand_of_absent {tpl : Text} (hfile : ¬ fileMark <:+: tpl) (hlevel : ¬ levelMark <:+: tpl)
    : expand file level tpl = tpl := by
  induction tpl with
  | nil => rfl
  | cons c tpl ih =>
    rw [infix_cons_iff, not_or] at hfile hlevel
    rw [expand_cons, if_neg hfile.1, if_neg hlevel.1, ih hfile.2 hlevel.2]

theorem expand_eq_replaceFirst {tpl : Text} (hfile : ¬ fileMark <:+: tpl)
    (hlevel : occurrences levelMark tpl ≤ 1)
    : expand file level tpl = replaceFirst levelMark level tpl := by
  induction tpl with
  | nil => rfl
  | cons c tpl ih =>
    rw [infix_cons_iff, not_or] at hfile
    rw [occurrences] at hlevel
    rw [expand_cons, if_neg hfile.1, replaceFirst]
    by_cases hhere : levelMark <+: c :: tpl
    . rw [if_pos hhere] at hlevel
      have habsent : ¬ levelMark <:+: tpl := by
        rw [← occurrences_eq_zero_iff (by decide)]
        omega
      have hdrop {mark : Text} (h : ¬ mark <:+: tpl) : ¬ mark <:+: tpl.drop 6 :=
        fun hmark => h (hmark.trans (drop_suffix 6 tpl).isInfix)
      rw [if_pos hhere, if_pos hhere, expand_of_absent file level (hdrop hfile.2) (hdrop habsent)]
      rfl
    . rw [if_neg hhere, if_neg hhere, ih hfile.2 (by omega)]

theorem expand_append_fileMark (a b : Text)
    : expand file level (a ++ fileMark ++ b) = expand file level a ++ file ++ expand file level b := by
  have hmark {p : Text} {c : Char} {a rest : Text} (hp : '\x7b' ∉ p)
      : '\x7b' :: p <+: c :: (a ++ '\x7b' :: rest) ↔ '\x7b' :: p <+: c :: a := by
    rw [cons_prefix_cons, cons_prefix_cons]
    constructor
    . exact fun h => ⟨h.1, prefix_of_prefix_append hp h.2⟩
    . exact fun h => ⟨h.1, h.2.trans (prefix_append _ _)⟩
  induction hlen : a.length using Nat.strong_induction_on generalizing a with
  | _ n ih =>
    cases a with
    | nil =>
      rw [nil_append]
      have hhere : fileMark <+: '\x7b' :: (['f', 'i', 'l', 'e', '\x7d'] ++ b) :=
        prefix_append fileMark b
      show expand file level ('\x7b' :: (['f', 'i', 'l', 'e', '\x7d'] ++ b)) = _
      rw [expand_cons, if_pos hhere]
      rfl
    | cons c a =>
      have hfile : fileMark <+: c :: (a ++ fileMark ++ b) ↔ fileMark <+: c :: a := by
        rw [append_assoc]
        exact hmark (by decide)
      have hlevel : levelMark <+: c :: (a ++ fileMark ++ b) ↔ levelMark <+: c :: a := by
        rw [append_assoc]
        exact hmark (by decide)
      have hdrop (n : Nat) (hn : n ≤ a.length)
          : (a ++ fileMark ++ b).drop n = a.drop n ++ fileMark ++ b := by
        rw [append_assoc, drop_append_of_le_length hn, append_assoc]
      rw [length_cons] at hlen
      rw [cons_append, cons_append, expand_cons, expand_cons]
      by_cases hisFile : fileMark <+: c :: a
      . have hle : 5 ≤ a.length := Nat.le_of_succ_le_succ hisFile.length_le
        rw [if_pos (hfile.mpr hisFile), if_pos hisFile, hdrop 5 hle,
          ih (a.drop 5).length (by rw [length_drop]; omega) (a.drop 5) rfl]
        simp only [append_assoc]
      . rw [if_neg (fun h => hisFile (hfile.mp h)), if_neg hisFile]
        by_cases hisLevel : levelMark <+: c :: a
        . have hle : 6 ≤ a.length := Nat.le_of_succ_le_succ hisLevel.length_le
          rw [if_pos (hlevel.mpr hisLevel), if_pos hisLevel, hdrop 6 hle,
            ih (a.drop 6).length (by rw [length_drop]; omega) (a.drop 6) rfl]
          simp only [append_assoc]
        . rw [if_neg (fun h => hisLevel (hlevel.mp h)), if_neg hisLevel, ih a.length (by omega) a rfl]
          rfl

end Template

def Literal (s : Text) : Prop :=
  (∀ c ∈ s, c ≠ quote ∧ c ≠ '$' ∧ c ≠ '\x60') ∧
  ∀ a b, s = a ++ '\\' :: b → ∃ c rest, b = c :: rest ∧ c ≠ '\\' ∧ c ≠ '\n'

theorem literal_nil : Literal [] := by
  refine ⟨by simp, ?_⟩
  intro a b h
  simp at h

theorem literal_cons (c : Char) (s : Text)
    : Literal (c :: s) ↔ (c ≠ quote ∧ c ≠ '$' ∧ c ≠ '\x60') ∧
        (c = '\\' → ∃ d rest, s = d :: rest ∧ d ≠ '\\' ∧ d ≠ '\n') ∧ Literal s := by
  unfold Literal
  rw [forall_mem_cons]
  constructor
  . rintro ⟨⟨hc, hs⟩, hbackslash⟩
    refine ⟨hc, ?_, hs, ?_⟩
    . rintro rfl
      exact hbackslash [] s rfl
    . intro a b heq
      exact hbackslash (c :: a) b (by rw [heq, cons_append])
  . rintro ⟨hc, hfirst, hs, hbackslash⟩
    refine ⟨⟨hc, hs⟩, ?_⟩
    intro a b heq
    cases a with
    | nil =>
      rw [nil_append, cons.injEq] at heq
      rw [← heq.2]
      exact hfirst heq.1
    | cons d a =>
      rw [cons_append, cons.injEq] at heq
      exact hbackslash a b heq.2

theorem literal_of_ne_backslash (h : c ≠ '\\') (s : Text)
    : Literal (c :: s) ↔ (c ≠ quote ∧ c ≠ '$' ∧ c ≠ '\x60') ∧ Literal s := by
  rw [literal_cons]
  exact and_congr_right (fun _ => and_iff_right (fun hc => absurd hc h))

theorem notMem_quotable (c : Char)
    : c ∉ quotable ↔ (c ≠ quote ∧ c ≠ '$' ∧ c ≠ '\x60') ∧ c ≠ '\\' ∧ c ≠ '\n' := by
  unfold quotable
  simp only [mem_cons, not_mem_nil, or_false, not_or]
  tauto

theorem literal_backslash (c : Char) (s : Text)
    : Literal ('\\' :: c :: s) ↔ c ∉ quotable ∧ Literal s := by
  rw [literal_cons, notMem_quotable]
  constructor
  . rintro ⟨_, hfirst, hrest⟩
    obtain ⟨d, rest, heq, hne⟩ := hfirst rfl
    cases heq
    rw [literal_of_ne_backslash hne.1] at hrest
    exact ⟨⟨hrest.1, hne⟩, hrest.2⟩
  . rintro ⟨⟨hc, hne⟩, hs⟩
    refine ⟨by decide, fun _ => ⟨c, s, rfl, hne⟩, ?_⟩
    exact (literal_of_ne_backslash hne.1 s).mpr ⟨hc, hs⟩

theorem inQuotes_literal
    : (Literal s → inQuotes false (s ++ [quote]) = some s) ∧
      (Literal ('\\' :: s) → inQuotes true (s ++ [quote]) = some ('\\' :: s)) := by
  induction s with
  | nil =>
    refine ⟨fun _ => rfl, fun h => ?_⟩
    rw [literal_cons] at h
    obtain ⟨d, rest, hnil, _⟩ := h.2.1 rfl
    contradiction
  | cons c s ih =>
    rw [cons_append, inQuotes, inQuotes]
    constructor
    . intro h
      rw [if_neg (by decide)]
      by_cases hc : c = '\\'
      . rw [hc] at h ⊢
        exact ih.2 h
      . rw [literal_of_ne_backslash hc] at h
        obtain ⟨⟨hquote, hdollar, hback⟩, hs⟩ := h
        rw [if_neg hquote, if_neg (by simp [hdollar, hback]), if_neg hc, ih.1 hs]
        rfl
    . intro h
      rw [literal_backslash] at h
      have hne := ((notMem_quotable c).mp h.1).2.2
      rw [if_pos rfl, if_neg hne, if_neg h.1, ih.1 h.2]
      rfl

theorem length_inQuotes
    : (inQuotes false (s ++ [quote]) = some t →
        t.length ≤ s.length ∧ (t.length = s.length → Literal s)) ∧
      (inQuotes true (s ++ [quote]) = some t →
        t.length ≤ s.length + 1 ∧ (t.length = s.length + 1 → Literal ('\\' :: s))) := by
  induction s generalizing t with
  | nil =>
    constructor
    . intro h
      cases h
      exact ⟨Nat.le_refl _, fun _ => literal_nil⟩
    . intro h
      simp [inQuotes, quotable, quote] at h
  | cons c s ih =>
    rw [cons_append, inQuotes, inQuotes, length_cons]
    constructor
    . rw [if_neg (by decide)]
      split
      . simp
      . next hquote =>
        split
        . exact nofun
        . next hexpands =>
          simp only [Bool.or_eq_true, decide_eq_true_eq, not_or] at hexpands
          split
          . next hc =>
            rw [hc]
            exact ih.2
          . next hc =>
            rw [Option.map_eq_some_iff]
            rintro ⟨t, ht, rfl⟩
            obtain ⟨hle, hliteral⟩ := ih.1 ht
            rw [length_cons, literal_of_ne_backslash hc]
            exact ⟨by omega, fun hlen => ⟨⟨hquote, hexpands⟩, hliteral (by omega)⟩⟩
    . rw [if_pos rfl]
      split
      . intro h
        have hle := (ih.1 h).1
        exact ⟨by omega, by omega⟩
      . split
        . rw [Option.map_eq_some_iff]
          rintro ⟨t, ht, rfl⟩
          have hle := (ih.1 ht).1
          rw [length_cons]
          exact ⟨by omega, by omega⟩
        . next hquotable =>
          rw [Option.map_eq_some_iff]
          rintro ⟨t, ht, rfl⟩
          obtain ⟨hle, hliteral⟩ := ih.1 ht
          rw [length_cons, length_cons, literal_backslash]
          exact ⟨by omega, fun hlen => ⟨hquotable, hliteral (by omega)⟩⟩

theorem doubleQuoted_eq_iff (src : Text) : doubleQuoted (quoted src) = some src ↔ Literal src := by
  have heq : doubleQuoted (quoted src) = inQuotes false (src ++ [quote]) := rfl
  rw [heq]
  exact ⟨fun h => (length_inQuotes.1 h).2 rfl, inQuotes_literal.1⟩

section Command

variable {src tpl : Text}

theorem decimal_cons (level : Int) : ∃ d rest, decimal level = d :: rest ∧ d ≠ '\x7b' := by
  unfold decimal
  split
  . exact ⟨'-', _, rfl, by decide⟩
  . cases h : Nat.toDigits 10 level.natAbs with
    | nil => exact absurd h Nat.toDigits_ne_nil
    | cons d rest =>
      refine ⟨d, rest, rfl, ?_⟩
      rintro rfl
      have hdigit := Nat.isDigit_of_mem_toDigits (b := 10) (n := level.natAbs) (c := '\x7b')
        (by decide) (by decide) (by rw [h]; exact mem_cons_self)
      contradiction

theorem replaceFirst_fileMark {a : Text} (ha : ¬ fileMark <:+: a) (b : Text)
    : replaceFirst fileMark (quoted src) (a ++ fileMark ++ b) = a ++ quote :: (src ++ quote :: b) := by
  have hself := replaceFirst_append_self (quoted src) (q := '\x7b')
    (p := ['f', 'i', 'l', 'e', '\x7d']) (by decide) ha b
  refine hself.trans ?_
  simp [quoted]

theorem replaceFirst_levelMark (level : Text) (a b : Text)
    : replaceFirst levelMark level (a ++ quote :: (src ++ quote :: b)) =
        if levelMark <:+: a then
          replaceFirst levelMark level a ++ quote :: (src ++ quote :: b)
        else if levelMark <:+: src then
          a ++ quote :: (replaceFirst levelMark level src ++ quote :: b)
        else
          a ++ quote :: (src ++ quote :: replaceFirst levelMark level b) := by
  have hquote : quote ∉ levelMark := by decide
  have hne : levelMark ≠ [] := by decide
  split
  . next ha => exact replaceFirst_append_of_present level hne ha _
  . next ha =>
    rw [replaceFirst_append_of_absent level hquote ha]
    split
    . next hsrc => rw [replaceFirst_append_of_present level hne hsrc]
    . next hsrc => rw [replaceFirst_append_of_absent level hquote hsrc]

theorem replaceFirst_ne (h : levelMark <:+: src) (level : Int) (b b' : Text)
    : replaceFirst levelMark (decimal level) src ++ b ≠ src ++ b' := by
  obtain ⟨x, y, rfl, hx⟩ := exists_first (by decide) h
  have hself := replaceFirst_append_self (decimal level) (q := '\x7b')
    (p := ['l', 'e', 'v', 'e', 'l', '\x7d']) (by decide) hx y
  obtain ⟨d, rest, hdecimal, hd⟩ := decimal_cons level
  rw [hdecimal] at hself
  intro heq
  rw [hdecimal] at heq
  rw [show replaceFirst levelMark (d :: rest) (x ++ levelMark ++ y) = x ++ d :: rest ++ y from hself]
    at heq
  simp only [append_assoc, append_cancel_left_eq] at heq
  exact hd (cons.inj heq).1

theorem occurrences_parts (mark a b : Text)
    : occurrences mark a + occurrences mark fileMark + occurrences mark b ≤
        occurrences mark (a ++ fileMark ++ b) := by
  have hfirst := occurrences_append_le mark a fileMark
  have hboth := occurrences_append_le mark (a ++ fileMark) b
  omega

theorem replaceFirst_eq_expand_iff {a b : Text} (level : Int)
    (hfile : occurrences fileMark (a ++ fileMark ++ b) ≤ 1)
    (hlevel : occurrences levelMark (a ++ fileMark ++ b) ≤ 1)
    : replaceFirst levelMark (decimal level) (replaceFirst fileMark (quoted src) (a ++ fileMark ++ b)) =
        expand (quoted src) (decimal level) (a ++ fileMark ++ b) ↔
      (levelMark <:+: src → levelMark <:+: a) := by
  have hparts := occurrences_parts fileMark a b
  have hlevels := occurrences_parts levelMark a b
  have hself : occurrences fileMark fileMark = 1 := by decide
  have hne : levelMark ≠ [] := by decide
  have ha : ¬ fileMark <:+: a := by
    rw [← occurrences_eq_zero_iff (by decide)]
    omega
  have hb : ¬ fileMark <:+: b := by
    rw [← occurrences_eq_zero_iff (by decide)]
    omega
  have hexpand : expand (quoted src) (decimal level) (a ++ fileMark ++ b) =
      replaceFirst levelMark (decimal level) a ++
        quote :: (src ++ quote :: replaceFirst levelMark (decimal level) b) := by
    rw [expand_append_fileMark, expand_eq_replaceFirst _ _ ha (by omega),
      expand_eq_replaceFirst _ _ hb (by omega)]
    simp [quoted]
  rw [hexpand, replaceFirst_fileMark ha, replaceFirst_levelMark]
  by_cases hinA : levelMark <:+: a
  . have hinB : ¬ levelMark <:+: b := by
      have hpos := occurrences_pos hne hinA
      rw [← occurrences_eq_zero_iff hne]
      omega
    rw [if_pos hinA, replaceFirst_of_absent _ hinB]
    exact iff_of_true rfl (fun _ => hinA)
  . rw [if_neg hinA, replaceFirst_of_absent _ hinA]
    by_cases hsrc : levelMark <:+: src
    . rw [if_pos hsrc]
      refine iff_of_false ?_ (fun h => hinA (h hsrc))
      intro heq
      rw [append_cancel_left_eq, cons.injEq] at heq
      exact replaceFirst_ne hsrc level _ _ heq.2
    . rw [if_neg hsrc]
      exact iff_of_true rfl (fun h => absurd h hsrc)

end Command
end External
end LogIt.Compression
