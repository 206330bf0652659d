import Mathlib.Algebra.Ring.Int.Defs
import Mathlib.Data.List.Induction
import LogIt.Arguments.Impl.Split

namespace LogIt.ArgumentUtils

open List

section Quotation

def Separated (rest : List Char) : Prop :=
  ∀ c ∈ rest.head?, c ≠ '"' ∧ c ≠ '\'' ∧ c ≠ '\\'

variable {text rest : List Char} {i : Nat}

theorem quotationLength_append {quote : Char} {body : List LiteralChar} (hquote : quote ≠ '\\')
    (hbody : ∀ c, .plain c ∈ body → c ≠ quote ∧ c ≠ '\\') (hrest : Separated rest)
    : quotationLength quote ((body.flatMap LiteralChar.text).reverse ++ quote :: rest)
        = (body.flatMap LiteralChar.text).length := by
  induction body using reverseRecOn with
  | nil =>
    cases rest with
    | nil => rfl
    | cons d rest => simp [quotationLength, (hrest d rfl).2.2]
  | append_singleton body c ih =>
    have hih := ih (by
      intro c hc
      apply hbody
      simp [hc])
    -- There is a further character at each step, because the opening quote is still to come.
    obtain ⟨d, tail, hd⟩ : ∃ d tail, (body.flatMap LiteralChar.text).reverse ++ quote :: rest
        = d :: tail := by
      cases hrev : (body.flatMap LiteralChar.text).reverse with
      | nil | cons d tail => exact ⟨_, _, rfl⟩
    rw [hd] at hih
    rw [flatMap_append, reverse_append, append_assoc, hd]
    cases c with
    | plain c =>
      have hc := hbody c (by simp)
      simp [LiteralChar.text, quotationLength, hc.1, hih]
    | escaped c => simp [LiteralChar.text, quotationLength, hquote.symm, hih]

theorem skipQuotation_of_separated (h : Separated (text.drop i)) : skipQuotation text i = i := by
  unfold skipQuotation
  split
  . next c d rest hdrop =>
    rw [hdrop] at h
    have hc := h c rfl
    simp [hc.1, hc.2.1]
  . rfl

def Literal.Clean (l : Literal) : Prop :=
  l.body.getLast? ≠ some (.escaped '\\')

theorem Literal.getLast_ne {l : Literal} (hclean : l.Clean)
    (hc : (l.body.flatMap LiteralChar.text).getLast? = some c)
    : c ≠ '\\' := by
  obtain ⟨quote, body, hclosed⟩ := l
  induction body using reverseRecOn with
  | nil => simp at hc
  | append_singleton body last ih =>
    rw [flatMap_append] at hc
    cases last with
    | plain d =>
      simp [LiteralChar.text] at hc
      rw [← hc]
      exact (hclosed d (by simp)).2
    | escaped d =>
      simp [LiteralChar.text] at hc
      rw [← hc]
      intro hd
      apply hclean
      simp [hd]

theorem skipQuotation_literal {l : Literal} (hclean : l.Clean) (hrest : Separated rest)
    (htext : text.drop i = l.text.reverse ++ rest)
    : skipQuotation text i = i + l.text.length := by
  have hlength : quotationLength l.quote.char
      ((l.body.flatMap LiteralChar.text).reverse ++ l.quote.char :: rest)
      = (l.body.flatMap LiteralChar.text).length := by
    apply quotationLength_append
    . cases l.quote <;> decide
    . apply l.closed
    . apply hrest
  have hreverse : l.text.reverse ++ rest
      = l.quote.char :: ((l.body.flatMap LiteralChar.text).reverse ++ l.quote.char :: rest) := by
    simp [Literal.text]
  obtain ⟨d, tail, hd⟩ : ∃ d tail, (l.body.flatMap LiteralChar.text).reverse
      ++ l.quote.char :: rest = d :: tail := by
    cases hrev : (l.body.flatMap LiteralChar.text).reverse with
    | nil | cons d tail => exact ⟨_, _, rfl⟩
  have hne : d ≠ '\\' := by
    cases hrev : (l.body.flatMap LiteralChar.text).reverse with rw [hrev] at hd
    | nil =>
      simp at hd
      rw [← hd.1]
      cases l.quote <;> decide
    | cons e tail' =>
      simp at hd
      apply l.getLast_ne hclean
      rw [← head?_reverse, hrev]
      simp [hd.1]
  unfold skipQuotation
  rw [htext, hreverse, hd]
  rw [hd] at hlength
  have htotal : l.text.length = (l.body.flatMap LiteralChar.text).length + 2 := by
    simp [Literal.text]
  cases hquote : l.quote with
  | double | single =>
    rw [hquote] at hlength
    simp only [Quote.char] at hlength ⊢
    simp [hne, hlength, htotal]
    omega

end Quotation

section Loop

variable {text rest : List Char} {s s' : SplitState} {c : Char}

def Advances (text : List Char) (s s' : SplitState) : Prop :=
  ∃ passes, s.leftCut + passes ≤ s'.leftCut ∧
    ∀ fuel, splitLoop text (fuel + passes) s = splitLoop text fuel s'

theorem Advances.refl : Advances text s s := by
  refine ⟨0, Nat.le_refl _, ?_⟩
  intro fuel
  rfl

theorem Advances.trans (h : Advances text s s') (h' : Advances text s' s'')
    : Advances text s s'' := by
  obtain ⟨passes, hle, hloop⟩ := h
  obtain ⟨passes', hle', hloop'⟩ := h'
  refine ⟨passes' + passes, by omega, ?_⟩
  intro fuel
  rw [← Nat.add_assoc, hloop, hloop']

section

variable {i : Nat} (h : text.drop i = c :: rest)

include h

theorem lt_length_of_drop : i < text.length := by
  have := congrArg length h
  simp at this
  omega

theorem getElem?_of_drop : text[i]? = some c := by
  have hget : (text.drop i)[0]? = text[i + 0]? := getElem?_drop
  rw [h] at hget
  exact hget.symm

theorem drop_succ_of_drop : text.drop (i + 1) = rest := by
  rw [← drop_drop, h]
  rfl

end

theorem Advances.of_visit (htext : text.drop s.leftCut = c :: rest) (hsep : Separated (c :: rest))
    (hvisit : splitVisit text s = some (.next s')) (hcut : s'.leftCut = s.leftCut + 1)
    : Advances text s s' := by
  refine ⟨1, by omega, ?_⟩
  intro fuel
  rw [← htext] at hsep
  simp [splitLoop, skipQuotation_of_separated hsep, hvisit]

theorem isClosingTemplate_of_ne (htext : text.drop i = c :: rest) (hc : c ≠ '>')
    : isClosingTemplate text i j = some false := by
  simp [isClosingTemplate, getElem?_of_drop htext, hc]

theorem Advances.skip (htext : text.drop s.leftCut = c :: rest)
    (hc : c ∉ ['(', ')', '"', '\'', '<', '>', '\\']) (hcomma : c = ',' → s.parenthesisCount ≠ 0)
    : Advances text s { s with leftCut := s.leftCut + 1 } := by
  simp only [mem_cons, not_mem_nil, or_false, not_or] at hc
  obtain ⟨hopening, hclosing, hdouble, hsingle, hless, hgreater, hbackslash⟩ := hc
  apply Advances.of_visit htext
  . intro d hd
    cases hd
    exact ⟨hdouble, hsingle, hbackslash⟩
  . have hcut : ¬ (c = ',' ∧ s.parenthesisCount = 0 ∧ s.angleBracketCount = 0) := by
      intro h
      apply hcomma h.1
      exact h.2.1
    have hlt := lt_length_of_drop htext
    unfold splitVisit
    rw [if_neg (by omega), getElem?_of_drop htext]
    simp [hcut, hopening, hclosing, hless, isClosingTemplate_of_ne htext hgreater]
  . rfl

theorem Advances.word (htext : text.drop s.leftCut = cs ++ rest)
    (hcs : ∀ c ∈ cs, c ∉ [',', '(', ')', '"', '\'', '<', '>', '\\'])
    : Advances text s { s with leftCut := s.leftCut + cs.length } := by
  induction cs generalizing s with
  | nil => apply Advances.refl
  | cons c cs ih =>
    have hc := hcs c (by simp)
    simp only [mem_cons, not_or] at hc
    have hfirst : Advances text s { s with leftCut := s.leftCut + 1 } := by
      apply Advances.skip htext
      . simp only [mem_cons, not_or]
        exact hc.2
      . intro heq
        exact absurd heq hc.1
    apply hfirst.trans
    have hrest := ih (s := { s with leftCut := s.leftCut + 1 }) (drop_succ_of_drop htext) (by
      intro d hd
      apply hcs
      simp [hd])
    simp only [length_cons]
    rw [show s.leftCut + (cs.length + 1) = s.leftCut + 1 + cs.length by omega]
    exact hrest

theorem Advances.literal {l : Literal} (hclean : l.Clean) (hrest : Separated rest)
    (htext : text.drop s.leftCut = l.text.reverse ++ rest)
    : Advances text s { s with leftCut := s.leftCut + l.text.length } := by
  refine ⟨0, by simp, ?_⟩
  intro fuel
  cases fuel with
  | zero => rfl
  | succ fuel =>
    have hdrop : text.drop (s.leftCut + l.text.length) = rest := by
      rw [← drop_drop, htext]
      simp
    have hskip : skipQuotation text (s.leftCut + l.text.length) = s.leftCut + l.text.length := by
      apply skipQuotation_of_separated
      rw [hdrop]
      exact hrest
    simp [splitLoop, skipQuotation_literal hclean hrest htext, hskip]

end Loop

section Tokens

variable {text rest : List Char} {s s' : SplitState}

def Token.isLiteral (t : Token) : Bool :=
  match t with
  | .literal _ => true
  | _ => false

def Token.delta (t : Token) : Int :=
  match t with
  | .closing => 1
  | .opening => -1
  | _ => 0

def Token.Clean (t : Token) : Prop :=
  match t with
  | .literal l => l.Clean
  | _ => True

theorem Token.separated {t : Token} (h : t.isLiteral = false)
    : Separated (t.text.reverse ++ rest) := by
  intro c hc
  cases t with
  | word w =>
    have hmem : c ∈ w.chars := by
      cases hrev : w.chars.reverse with
      | nil =>
        have := w.nonempty
        simp_all
      | cons d tail =>
        simp only [Token.text, hrev, cons_append, head?_cons, Option.mem_def,
          Option.some.injEq] at hc
        rw [← mem_reverse, hrev, hc]
        simp
    have hplain := w.plain c hmem
    simp only [mem_cons, not_or] at hplain
    exact ⟨hplain.2.2.2.1, hplain.2.2.2.2.1, hplain.2.2.2.2.2.2.2.1⟩
  | literal l => contradiction
  | opening | closing | comma =>
    cases hc
    decide

theorem Advances.token {t : Token} (hclean : t.Clean)
    (htext : text.drop s.leftCut = t.text.reverse ++ rest)
    (hrest : t.isLiteral = true → Separated rest) (hcomma : t = .comma → s.parenthesisCount ≠ 0)
    : Advances text s { s with
        leftCut := s.leftCut + t.text.length
        parenthesisCount := s.parenthesisCount + t.delta
      } := by
  cases t with
  | word w =>
    simp only [Token.delta, Int.add_zero]
    rw [← length_reverse]
    apply Advances.word htext
    intro c hc
    apply w.plain
    rw [← mem_reverse]
    exact hc
  | literal l =>
    simp only [Token.delta, Int.add_zero]
    apply Advances.literal hclean (hrest rfl) htext
  | opening | closing =>
    apply Advances.of_visit htext
    . intro d hd
      cases hd
      decide
    . have hlt := lt_length_of_drop htext
      unfold splitVisit
      rw [if_neg (by omega), getElem?_of_drop htext]
      simp [Token.text, Token.delta, Int.sub_eq_add_neg]
    . rfl
  | comma =>
    simp only [Token.delta, Int.add_zero]
    apply Advances.skip htext
    . decide
    . intro _
      apply hcomma rfl

def Guarded (d : Int) (ts : List Token) : Prop :=
  match ts with
  | [] => True
  | t :: ts => (t = .comma → d ≠ 0) ∧ Guarded (d + t.delta) ts

structure CleanTokens (ts : List Token) : Prop where
  clean : ∀ t ∈ ts, t.Clean
  apart : ts.IsChain (fun t t' => t.isLiteral = false ∨ t'.isLiteral = false)

theorem Advances.tokens (hclean : CleanTokens ts)
    (htext : text.drop s.leftCut = ts.flatMap (fun t => t.text.reverse) ++ rest)
    (hrest : Separated rest) (hguarded : Guarded s.parenthesisCount ts)
    : Advances text s { s with
        leftCut := s.leftCut + (ts.flatMap (fun t => t.text.reverse)).length
        parenthesisCount := s.parenthesisCount + (ts.map Token.delta).sum
      } := by
  induction ts generalizing s with
  | nil =>
    simp only [flatMap_nil, length_nil, Nat.add_zero, map_nil, sum_nil,
      Int.add_zero]
    apply Advances.refl
  | cons t ts ih =>
    rw [flatMap_cons, append_assoc] at htext
    have hfirst : Advances text s { s with
        leftCut := s.leftCut + t.text.length
        parenthesisCount := s.parenthesisCount + t.delta } := by
      apply Advances.token (hclean.clean t (by simp)) htext
      . intro hliteral
        cases ts with
        | nil => exact hrest
        | cons t' ts =>
          have hapart := hclean.apart
          rw [isChain_cons_cons, hliteral] at hapart
          simp only [Bool.true_eq_false, false_or] at hapart
          rw [flatMap_cons, append_assoc]
          apply Token.separated hapart.1
      . apply hguarded.1
    apply hfirst.trans
    have hnext := ih (s := { s with
        leftCut := s.leftCut + t.text.length
        parenthesisCount := s.parenthesisCount + t.delta }) {
      clean := by
        intro t' ht'
        apply hclean.clean
        simp [ht']
      apart := hclean.apart.of_cons
    } (by
      simp only
      rw [← drop_drop, htext, ← length_reverse, drop_left]) hguarded.2
    simp only [flatMap_cons, length_append, length_reverse, map_cons,
      sum_cons]
    rw [← Nat.add_assoc, ← Int.add_assoc]
    exact hnext

end Tokens
end LogIt.ArgumentUtils
