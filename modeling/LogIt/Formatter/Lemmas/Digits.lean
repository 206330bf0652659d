import LogIt.Formatter.Lemmas.Items
import LogIt.Lib.MachineInteger

namespace LogIt.Formatter

open List

section Number

def isAlignment (c : Char) : Bool :=
  c = '-' || c = '='

/--
The digits and alignment characters that `readSpec` reads.
-/
def readFlags (pattern : Text) : Text :=
  match pattern with
  | [] => []
  | c :: pattern =>
    if c.isDigit || c = '-' || c = '=' then
      c :: if pattern.head? = some '!' then [] else readFlags pattern
    else
      []

/--
The number that the digits behind `%` denote.
-/
def widthNumber (pattern : Text) : Nat :=
  Nat.ofDigitChars 10 ((readFlags pattern).filter (!isAlignment ·)) 0

/--
Whether the sums that are formed for the width are values of `int`.
-/
def sumsFit (spec : Spec) (flags : Text) : Bool :=
  match flags with
  | [] => true
  | c :: flags =>
    (isAlignment c ||
      decide (MachineInteger.Fits ⟨32, true⟩ (spec.width * 10 + (c.toNat - '0'.toNat : Nat)))) &&
    sumsFit (spec.flag c) flags

theorem width_readSpec (spec : Spec) (pattern : Text)
    : (readSpec spec pattern).1.width = ((readFlags pattern).foldl Spec.flag spec).width := by
  induction pattern generalizing spec with
  | nil => rfl
  | cons c pattern ih =>
    rw [readSpec_cons, readFlags]
    split
    . split
      . rfl
      . exact ih _
    . rfl

theorem le_ofDigitChars (digits : Text) (n : Nat) : n ≤ Nat.ofDigitChars 10 digits n := by
  induction digits generalizing n with
  | nil => exact Nat.le_refl n
  | cons c digits ih =>
    rw [Nat.ofDigitChars_cons]
    exact Nat.le_trans (by omega) (ih _)

theorem sumsFit_iff (spec : Spec) {n : Nat} (hwidth : spec.width = n) (hn : n < 2 ^ 31) (flags : Text)
    : (sumsFit spec flags = true ↔
        Nat.ofDigitChars 10 (flags.filter (!isAlignment ·)) n < 2 ^ 31) ∧
      (sumsFit spec flags = true →
        (flags.foldl Spec.flag spec).width
          = Nat.ofDigitChars 10 (flags.filter (!isAlignment ·)) n) := by
  induction flags generalizing spec n with
  | nil => exact ⟨iff_of_true rfl hn, fun _ => hwidth⟩
  | cons c flags ih =>
    rw [sumsFit, foldl_cons]
    by_cases hc : isAlignment c = true
    . have hflag : (spec.flag c).width = n := by
        rw [← hwidth]
        rcases Bool.or_eq_true_iff.mp hc with h | h
        . rw [of_decide_eq_true h]
          rfl
        . rw [of_decide_eq_true h]
          rfl
      rw [filter_cons_of_neg (by simp [hc]), hc]
      exact ih _ hflag hn
    . have hflag : spec.flag c = spec.digit c := by
        rw [isAlignment, Bool.or_eq_true_iff, decide_eq_true_eq, decide_eq_true_eq, not_or] at hc
        rw [Spec.flag, if_neg hc.1, if_neg hc.2]
      have hsum : spec.width * 10 + (c.toNat - '0'.toNat : Nat)
          = (10 * n + (c.toNat - '0'.toNat) : Nat) := by
        rw [hwidth]
        omega
      rw [filter_cons_of_pos (by simp [hc]), Nat.ofDigitChars_cons, Bool.not_eq_true _ |>.mp hc,
        Bool.false_or, hsum]
      generalize 10 * n + (c.toNat - '0'.toNat) = m at hsum ⊢
      have hfits : MachineInteger.Fits ⟨32, true⟩ m ↔ m < 2 ^ 31 := by
        simp only [MachineInteger.Fits, if_true]
        omega
      by_cases hm : m < 2 ^ 31
      . have hdigit : (spec.digit c).width = m := by
          unfold Spec.digit
          dsimp only
          rw [hsum]
          apply Int.bmod_eq_of_le_mul_two
          . omega
          . omega
        rw [decide_eq_true (hfits.mpr hm), hflag]
        exact ih _ hdigit hm
      . rw [decide_eq_false (mt hfits.mp hm), Bool.false_and]
        have hle := le_ofDigitChars (flags.filter (!isAlignment ·)) m
        refine ⟨iff_of_false Bool.false_ne_true (by omega), ?_⟩
        intro h
        contradiction

theorem sumsFit_readFlags_iff (text : Text)
    : sumsFit {} (readFlags text) = true ↔ widthNumber text < 2 ^ 31 :=
  (sumsFit_iff {} rfl (by decide) _).1

theorem width_eq_widthNumber {text : Text} (h : widthNumber text < 2 ^ 31)
    : (readSpec {} text).1.width = widthNumber text := by
  rw [width_readSpec]
  exact (sumsFit_iff {} rfl (by decide) _).2 ((sumsFit_readFlags_iff text).mpr h)

end Number

section Directives

/--
What the loop reads behind a `%`, and what it leaves.
-/
def readDirective (text : Text) : Item × Text :=
  match readSpec {} text with
  | (_, []) => (.percent, [])
  | (spec, next :: text) => (.placeholder spec (readToken next text).1, (readToken next text).2)

/--
The texts behind each `%` at which the loop of `readItems` stops.
-/
def behind (rounds : Nat) (pattern : Text) : List Text :=
  match rounds, pattern with
  | 0, _ => []
  | _, [] => []
  | rounds + 1, c :: pattern =>
    if c = '%' then
      pattern :: behind rounds (readDirective pattern).2
    else
      behind rounds pattern

/--
The texts behind each `%` that the compiler reads, also in the bodies of `%N(...)`.
-/
def directives (depth : Nat) (pattern : Text) : List Text :=
  match depth with
  | 0 => []
  | depth + 1 =>
    (behind pattern.length pattern).flatMap fun text =>
      text :: match (readDirective text).1 with
        | .placeholder _ (.noArgs params) => directives depth params
        | _ => []

def isField (text : Text) : Bool :=
  match (readDirective text).1 with
  | .placeholder _ (.field _ _) => true
  | _ => false

/--
The widths that are not zero, in the order of the instructions.
-/
def widths (instructions : List FormatInstruction) : List Int :=
  (instructions.map (·.width)).filter (· ≠ 0)

def Item.widths (body : Text → List FormatInstruction) (item : Item) : List Int :=
  match item with
  | .placeholder spec (.field _ _) => [spec.width].filter (· ≠ 0)
  | .placeholder _ (.noArgs params) => Formatter.widths (body params)
  | _ => []

variable {context : CompileContext} {body : Text → List FormatInstruction}

theorem widths_append (xs ys : List FormatInstruction)
    : widths (xs ++ ys) = widths xs ++ widths ys := by
  unfold widths
  rw [map_append, filter_append]

theorem widths_flush (s : CompileState)
    : widths (s.flush context).instructions = widths s.instructions := by
  unfold CompileState.flush
  split
  . rfl
  . exact (widths_append _ _).trans (append_nil _)

theorem widths_step (s : CompileState) (item : Item)
    : widths (s.step context body item).instructions
        = widths s.instructions ++ item.widths body := by
  cases item with
  | text c => exact (append_nil _).symm
  | percent => exact (widths_flush s).trans (append_nil _).symm
  | placeholder spec token =>
    rw [← widths_flush s]
    cases token with
    | field type key | color type | noArgs params => exact widths_append _ _
    | _ => exact (append_nil _).symm

theorem widths_foldl (s : CompileState) (items : List Item)
    : widths (items.foldl (CompileState.step context body) s).instructions
        = widths s.instructions ++ items.flatMap (Item.widths body) := by
  induction items generalizing s with
  | nil => exact (append_nil _).symm
  | cons item items ih => rw [foldl_cons, ih, widths_step, flatMap_cons, append_assoc]

theorem flatMap_readItems (rounds : Nat) (pattern : Text)
    : (readItems rounds pattern).flatMap (Item.widths body)
        = (behind rounds pattern).flatMap (fun text => (readDirective text).1.widths body) := by
  induction rounds generalizing pattern with
  | zero => rfl
  | succ rounds ih =>
    cases pattern with
    | nil => rfl
    | cons c pattern =>
      rw [readItems, behind]
      split
      . rw [flatMap_cons, ← ih]
        unfold readDirective
        cases readSpec {} pattern with
        | mk spec rest =>
          cases rest with
          | nil =>
            cases rounds with
            | _ => rfl
          | cons next rest => rfl
      . exact ih pattern

theorem widths_compileWithin (depth : Nat) (context : CompileContext) (pattern : Text)
    : widths (compileWithin depth context pattern)
        = (((directives depth pattern).filter isField).map
          (fun text => (readSpec {} text).1.width)).filter (· ≠ 0) := by
  induction depth generalizing context pattern with
  | zero => rfl
  | succ depth ih =>
    rw [compileWithin, widths_flush, widths_foldl, items, flatMap_readItems, directives,
      filter_flatMap, map_flatMap, filter_flatMap]
    apply flatMap_congr
    intro text _
    rw [filter_cons, isField]
    cases hitem : (readDirective text).1 with
    | text c | percent => rfl
    | placeholder spec token =>
      cases token with
      | field type key =>
        have hspec : spec = (readSpec {} text).1 := by
          unfold readDirective at hitem
          split at hitem
          . contradiction
          . next heq =>
            rw [heq]
            exact (Item.placeholder.inj hitem).1.symm
        rw [hspec]
        rfl
      | noArgs params => exact ih _ params
      | _ => rfl

theorem widths_read_iff (pattern : Text) (context : CompileContext)
    : ((∀ text ∈ directives (pattern.length + 1) pattern, sumsFit {} (readFlags text) = true) ∧
        widths (compile pattern context) =
          (((directives (pattern.length + 1) pattern).filter isField).map
            (fun text => (widthNumber text : Int))).filter (· ≠ 0) ∧
        ∀ i ∈ compile pattern context, 0 ≤ i.width) ↔
      ∀ text ∈ directives (pattern.length + 1) pattern, widthNumber text < 2 ^ 31 := by
  constructor
  . intro h text htext
    exact (sumsFit_readFlags_iff text).mp (h.1 text htext)
  . intro h
    have hwidths : widths (compile pattern context) =
        (((directives (pattern.length + 1) pattern).filter isField).map
          (fun text => (widthNumber text : Int))).filter (· ≠ 0) := by
      rw [compile, widths_compileWithin]
      congr 1
      apply map_congr_left
      intro text htext
      exact width_eq_widthNumber (h text (mem_filter.mp htext).1)
    refine ⟨fun text htext => (sumsFit_readFlags_iff text).mpr (h text htext), hwidths, ?_⟩
    intro i hi
    by_cases hzero : i.width = 0
    . exact Int.le_of_eq hzero.symm
    . have hmem : i.width ∈ widths (compile pattern context) :=
        mem_filter.mpr ⟨mem_map_of_mem hi, decide_eq_true hzero⟩
      rw [hwidths] at hmem
      obtain ⟨text, _, heq⟩ := mem_map.mp (mem_filter.mp hmem).1
      rw [← heq]
      exact Int.natCast_nonneg _

theorem widths_overflow
    : widthNumber ['2', '1', '4', '7', '4', '8', '3', '6', '4', '8', 'v'] = 2147483648 ∧
      sumsFit {} (readFlags ['2', '1', '4', '7', '4', '8', '3', '6', '4', '8', 'v']) = false ∧
      (compile ['%', '2', '1', '4', '7', '4', '8', '3', '6', '4', '8', 'v'] .default).map (·.width)
        = [-2147483648] := by
  decide +kernel

end Directives
end LogIt.Formatter
