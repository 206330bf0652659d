import Mathlib.Data.List.Chain
import LogIt.Arguments.Lemmas.Scan

namespace LogIt.ArgumentUtils

open List

theorem guarded_append
    : Guarded d (ts ++ ts') ↔ Guarded d ts ∧ Guarded (d + (ts.map Token.delta).sum) ts' := by
  induction ts generalizing d with
  | nil => simp [Guarded]
  | cons t ts ih => simp [Guarded, ih, Int.add_assoc, and_assoc]

theorem sum_delta_reverse (ts : List Token)
    : (ts.reverse.map Token.delta).sum = (ts.map Token.delta).sum := by
  rw [map_reverse, sum_reverse]

mutual

theorem guarded_piece (p : Piece) (hd : 0 ≤ d)
    : Guarded d p.tokens.reverse ∧ (p.tokens.map Token.delta).sum = 0 :=
  match p with
  | .word w => by simp [Piece.tokens, Guarded, Token.delta]
  | .literal l => by simp [Piece.tokens, Guarded, Token.delta]
  | .paren args => by
    have hargs := guarded_args args (d := d + 1) (by omega)
    simp only [Piece.tokens, reverse_cons, reverse_append, reverse_nil,
      nil_append, cons_append]
    constructor
    . refine ⟨by simp, ?_⟩
      rw [guarded_append]
      exact ⟨hargs.1, by simp [Guarded]⟩
    . simp [Token.delta, hargs.2]

theorem guarded_pieces (ps : List Piece) (hd : 0 ≤ d)
    : Guarded d (piecesTokens ps).reverse ∧ ((piecesTokens ps).map Token.delta).sum = 0 :=
  match ps with
  | [] => by simp [piecesTokens, Guarded]
  | p :: ps => by
    have hps := guarded_pieces ps hd
    have hp := guarded_piece p hd
    simp only [piecesTokens, reverse_append, map_append, sum_append]
    rw [guarded_append, sum_delta_reverse, hps.2]
    simp [hps.1, hp]

theorem guarded_args (es : List (List Piece)) (hd : 0 < d)
    : Guarded d (argsTokens es).reverse ∧ ((argsTokens es).map Token.delta).sum = 0 :=
  match es with
  | [] => by simp [argsTokens, Guarded]
  | e :: [] => by
    simp only [argsTokens]
    apply guarded_pieces
    omega
  | e :: e' :: es => by
    have hes := guarded_args (e' :: es) hd
    have he := guarded_pieces e (d := d) (by omega)
    simp only [argsTokens, reverse_append, reverse_cons, append_assoc,
      map_append, map_cons, sum_append, sum_cons, singleton_append]
    rw [guarded_append, sum_delta_reverse, hes.2]
    simp only [Guarded, Token.delta, Int.add_zero]
    refine ⟨⟨hes.1, ?_, he.1⟩, ?_⟩
    . intro _
      omega
    . simp [he.2]

end

section Cut

variable {text rest : List Char} {s : SplitState} {rightCut : Nat}

theorem trimLeading_of_ne (h : text[i]? = some c) (hc : c ≠ ' ')
    : trimLeading text (i + 1) = some (i + 1) := by
  simp [trimLeading, h, hc]

theorem trimLeading_space (h : text[i]? = some ' ')
    : trimLeading text (i + 1) = trimLeading text i := by
  simp [trimLeading, h]

variable (e : Expression)

theorem Expression.text_ne_nil : e.text ≠ [] := by
  obtain ⟨pieces, hne, _, _⟩ := e
  cases pieces with
  | nil => contradiction
  | cons p ps =>
    cases p with
    | word w =>
      simp [Expression.text, piecesText, piecesTokens, Piece.tokens, Token.text, w.nonempty]
    | literal l =>
      simp [Expression.text, piecesText, piecesTokens, Piece.tokens, Token.text, Literal.text]
    | paren args => simp [Expression.text, piecesText, piecesTokens, Piece.tokens, Token.text]

theorem Expression.text_eq_cons : ∃ c tail, e.text = c :: tail ∧ c ≠ ' ' := by
  have hleading := e.leading
  cases htext : e.text with
  | nil => exact absurd htext e.text_ne_nil
  | cons c tail =>
    refine ⟨c, tail, rfl, ?_⟩
    intro hc
    apply hleading
    rw [show piecesText e.pieces = e.text from rfl, htext, hc]
    rfl

theorem Expression.reverse_eq_cons : ∃ c tail, e.text.reverse = c :: tail ∧ c ≠ ' ' := by
  have htrailing := e.trailing
  cases htext : e.text.reverse with
  | nil =>
    rw [reverse_eq_nil_iff] at htext
    exact absurd htext e.text_ne_nil
  | cons c tail =>
    refine ⟨c, tail, rfl, ?_⟩
    intro hc
    apply htrailing
    rw [show piecesText e.pieces = e.text from rfl, ← head?_reverse, htext, hc]
    rfl

theorem cut_expression (hblanks : blanks = [] ∨ blanks = [' '])
    (htext : text.drop rightCut = e.text.reverse ++ (blanks ++ rest))
    : cut text (rightCut + e.text.length + blanks.length) rightCut = some e.text := by
  obtain ⟨first, tail, hfirst, hleading⟩ := e.text_eq_cons
  obtain ⟨last, init, hlast, htrailing⟩ := e.reverse_eq_cons
  have hlength : e.text.length = tail.length + 1 := by
    rw [hfirst]
    rfl
  have hget : text[rightCut + tail.length]? = some first := by
    rw [← getElem?_drop, htext, hfirst]
    simp
  have hleadingTrim : trimLeading text (rightCut + e.text.length + blanks.length)
      = some (rightCut + e.text.length) := by
    have hstop : trimLeading text (rightCut + e.text.length) = some (rightCut + e.text.length) := by
      rw [hlength, ← Nat.add_assoc]
      apply trimLeading_of_ne hget hleading
    cases hblanks with
    | inl hnil =>
      rw [hnil]
      exact hstop
    | inr hspace =>
      rw [hspace, length_singleton, trimLeading_space]
      . exact hstop
      . rw [← getElem?_drop, htext, hspace]
        rw [getElem?_append_right (by simp)]
        simp
  have htrailingTrim : trimTrailing text rightCut = some rightCut := by
    have hdrop : text.drop rightCut = last :: (init ++ (blanks ++ rest)) := by
      rw [htext, hlast]
      rfl
    have hlt := lt_length_of_drop hdrop
    simp [trimTrailing, hdrop, htrailing, hlt]
  unfold cut
  rw [hleadingTrim, htrailingTrim]
  simp only [Option.bind_eq_bind, Option.bind_some, Nat.le_add_right, if_true, Option.pure_def,
    Option.some.injEq]
  rw [drop_take, htext, Nat.add_sub_cancel_left, ← length_reverse, take_left,
    reverse_reverse]

end Cut

section Split

variable {text rest : List Char} {s s' : SplitState}

def Expression.Clean (e : Expression) : Prop :=
  CleanTokens e.tokens

theorem Expression.reverse_text (e : Expression)
    : e.text.reverse = e.tokens.reverse.flatMap (fun t => t.text.reverse) := by
  rw [Expression.text, piecesText, reverse_flatMap]
  rfl

theorem CleanTokens.reverse (h : CleanTokens ts) : CleanTokens ts.reverse where
  clean := by
    intro t ht
    apply h.clean
    rw [← mem_reverse]
    exact ht
  apart := by
    rw [isChain_reverse]
    apply h.apart.imp
    intro t t' ht
    exact ht.symm

theorem Advances.expression (e : Expression) (hclean : e.Clean)
    (htext : text.drop s.leftCut = e.text.reverse ++ rest) (hrest : Separated rest)
    (hparen : s.parenthesisCount = 0)
    : Advances text s { s with leftCut := s.leftCut + e.text.length } := by
  have hguarded := guarded_pieces e.pieces (d := 0) (Int.le_refl 0)
  have hadvances := Advances.tokens (s := s) hclean.reverse (by
    rw [htext, e.reverse_text]) hrest (by
    rw [hparen]
    exact hguarded.1)
  rw [← e.reverse_text, sum_delta_reverse, Expression.tokens, hguarded.2] at hadvances
  simpa using hadvances

theorem Advances.splitLoop_eq (h : Advances text s s') (hend : s'.leftCut ≤ text.length)
    (hfuel : text.length < s.leftCut + fuel)
    : ∃ fuel', text.length < s'.leftCut + fuel' ∧
        splitLoop text fuel s = splitLoop text fuel' s' := by
  obtain ⟨passes, hle, hloop⟩ := h
  refine ⟨fuel - passes, by omega, ?_⟩
  rw [← hloop, Nat.sub_add_cancel (by omega)]

def joinReversed : List (List Char) → List Char
  | [] => []
  | name :: [] => name.reverse
  | name :: names => name.reverse ++ ' ' :: ',' :: joinReversed names

theorem joinReversed_append (hne : names ≠ []) (name : List Char)
    : joinReversed (names ++ [name]) = joinReversed names ++ ' ' :: ',' :: name.reverse := by
  induction names with
  | nil => contradiction
  | cons n names ih =>
    cases names with
    | nil => simp [joinReversed]
    | cons n' names =>
      have := ih (by simp)
      simp [joinReversed] at this ⊢
      exact this

theorem reverse_joinNames (names : List (List Char))
    : (joinNames names).reverse = joinReversed names.reverse := by
  induction names with
  | nil => rfl
  | cons name names ih =>
    cases names with
    | nil => rfl
    | cons n names =>
      rw [reverse_cons, joinReversed_append (by simp), ← ih]
      simp [joinNames]

theorem splitLoop_last (e : Expression) (hclean : e.Clean)
    (htext : text.drop s.leftCut = e.text.reverse) (hparen : s.parenthesisCount = 0)
    (hcut : s.rightCut = s.leftCut) (hfuel : text.length < s.leftCut + fuel)
    : splitLoop text fuel s = some (e.text :: s.result) := by
  have hlength : text.length = s.leftCut + e.text.length := by
    have := congrArg length htext
    obtain ⟨c, tail, hcons, _⟩ := e.text_eq_cons
    simp [hcons] at this ⊢
    omega
  have hadvances : Advances text s { s with leftCut := s.leftCut + e.text.length } := by
    apply Advances.expression e hclean _ _ hparen
    . exact []
    . simpa using htext
    . simp [Separated]
  obtain ⟨fuel', hfuel', hloop⟩ := hadvances.splitLoop_eq (by simp [hlength]) hfuel
  have hcutName : cut text (s.leftCut + e.text.length + ([] : List Char).length) s.leftCut
      = some e.text := by
    have htext' : drop s.leftCut text = e.text.reverse ++ ([] ++ []) := by
      simpa using htext
    exact cut_expression e (.inl rfl) htext'
  have hskip : skipQuotation text (s.leftCut + e.text.length) = s.leftCut + e.text.length := by
    apply skipQuotation_of_separated
    simp [← hlength, Separated]
  have hvisit : splitVisit text { s with leftCut := s.leftCut + e.text.length }
      = some (.finished (e.text :: s.result)) := by
    unfold splitVisit
    rw [if_pos hlength.symm]
    simp only
    rw [hcut]
    simp only [length_nil, Nat.add_zero] at hcutName
    rw [hcutName]
    rfl
  rw [hloop]
  cases fuel' with
  | zero =>
    simp only at hfuel'
    omega
  | succ fuel' =>
    unfold splitLoop
    simp only
    rw [hskip, hvisit]

theorem splitLoop_comma (e : Expression) (hclean : e.Clean)
    (htext : text.drop s.leftCut = e.text.reverse ++ ' ' :: ',' :: rest)
    (hparen : s.parenthesisCount = 0) (hangle : s.angleBracketCount = 0)
    (hcut : s.rightCut = s.leftCut) (hfuel : text.length < s.leftCut + fuel)
    : ∃ fuel', text.length < s.leftCut + e.text.length + 2 + fuel' ∧
        splitLoop text fuel s = splitLoop text fuel' { s with
          rightCut := s.leftCut + e.text.length + 2
          leftCut := s.leftCut + e.text.length + 2
          result := e.text :: s.result
        } := by
  have hspace : text.drop (s.leftCut + e.text.length) = ' ' :: ',' :: rest := by
    rw [← drop_drop, htext, ← length_reverse, drop_left]
  have hcomma := drop_succ_of_drop hspace
  have hlt := lt_length_of_drop hcomma
  have hname : Advances text s { s with leftCut := s.leftCut + e.text.length } := by
    apply Advances.expression e hclean htext _ hparen
    intro c hc
    cases hc
    decide
  have hblank : Advances text { s with leftCut := s.leftCut + e.text.length }
      { s with leftCut := s.leftCut + e.text.length + 1 } := by
    apply Advances.skip hspace
    . decide
    . intro h
      contradiction
  have hcutName : cut text (s.leftCut + e.text.length + 1) s.leftCut = some e.text := by
    apply cut_expression e (.inr rfl) htext
  have hseparator : Advances text { s with leftCut := s.leftCut + e.text.length + 1 } { s with
      rightCut := s.leftCut + e.text.length + 2
      leftCut := s.leftCut + e.text.length + 2
      result := e.text :: s.result } := by
    apply Advances.of_visit hcomma
    . intro c hc
      cases hc
      decide
    . unfold splitVisit
      rw [if_neg (by simp only; omega)]
      simp only
      rw [getElem?_of_drop hcomma, hcut, hcutName]
      simp [hparen, hangle]
    . rfl
  -- The loop passes the name, the space and the comma, which cuts the name off.
  have hall := (hname.trans hblank).trans hseparator
  exact hall.splitLoop_eq (by simp only; omega) hfuel

theorem splitLoop_expressions (hne : es ≠ []) (hclean : ∀ e ∈ es, e.Clean)
    (htext : text.drop s.leftCut = joinReversed (es.map Expression.text))
    (hparen : s.parenthesisCount = 0) (hangle : s.angleBracketCount = 0)
    (hcut : s.rightCut = s.leftCut) (hfuel : text.length < s.leftCut + fuel)
    : splitLoop text fuel s = some ((es.map Expression.text).reverse ++ s.result) := by
  -- The expressions are met from the last one to the first one, each of them at depth zero.
  induction es generalizing s fuel with
  | nil => contradiction
  | cons e es ih =>
    cases es with
    | nil =>
      simp only [map_cons, map_nil, joinReversed] at htext
      rw [splitLoop_last e (hclean e (by simp)) htext hparen hcut hfuel]
      rfl
    | cons e' es =>
      simp only [map_cons, joinReversed] at htext
      obtain ⟨fuel', hfuel', hloop⟩ :=
        splitLoop_comma e (hclean e (by simp)) htext hparen hangle hcut hfuel
      rw [hloop, ih]
      . simp
      . simp
      . intro d hd
        apply hclean
        simp at hd ⊢
        exact .inr hd
      . simp only [Nat.add_assoc]
        rw [← drop_drop, htext, ← length_reverse, ← drop_drop, drop_left]
        rfl
      . exact hparen
      . exact hangle
      . rfl
      . exact hfuel'

theorem splitArguments_joinNames (hne : es ≠ []) (hclean : ∀ e ∈ es, e.Clean)
    : splitArguments (joinNames (es.map Expression.text)) = some (es.map Expression.text) := by
  have hnonempty : joinNames (es.map Expression.text) ≠ [] := by
    cases es with
    | nil => contradiction
    | cons e es =>
      cases es with
      | nil => apply e.text_ne_nil
      | cons e' es => simp [joinNames]
  have hloop : splitLoop (joinReversed (es.reverse.map Expression.text))
      ((joinNames (es.map Expression.text)).length + 1) ⟨0, 0, 0, 0, []⟩
      = some ((es.reverse.map Expression.text).reverse ++ []) := by
    apply splitLoop_expressions
    . simpa using hne
    . intro e he
      apply hclean
      simpa using he
    . rfl
    . rfl
    . rfl
    . rfl
    . rw [map_reverse, ← reverse_joinNames]
      simp
  unfold splitArguments
  rw [if_neg hnonempty, reverse_joinNames, ← map_reverse, hloop]
  simp

theorem argsToArray_eq_zip {α : Type} {names : List (List Char)} {args : List α}
    (hlength : args.length = names.length) : argsToArray names args = some (names.zip args) := by
  induction names generalizing args with
  | nil =>
    rw [length_nil, length_eq_zero_iff] at hlength
    rw [hlength]
    rfl
  | cons name names ih =>
    cases args with
    | nil => contradiction
    | cons arg args =>
      have htail := ih (Nat.succ.inj hlength)
      simp [argsToArray, htail]

theorem split_arguments_finds_names {α : Type} {es : List Expression} {args : List α}
    (hne : es ≠ []) (hclean : ∀ e ∈ es, e.Clean) (hargs : args.length = es.length)
    : splitArguments (joinNames (es.map Expression.text)) = some (es.map Expression.text) ∧
      print (joinNames (es.map Expression.text)) args
        = some ((es.map Expression.text).zip args) := by
  have hsplit := splitArguments_joinNames hne hclean
  refine ⟨hsplit, ?_⟩
  unfold print
  rw [hsplit, if_neg]
  . apply argsToArray_eq_zip
    simpa using hargs
  . intro hnil
    rw [hnil, length_nil] at hargs
    exact hne (length_eq_zero_iff.mp hargs.symm)

theorem split_arguments_finds_names_escaped_quote
    : splitArguments "x, \"a\\\"\"".toList = some ["x".toList, "\"a\\\"\"".toList] ∧
      print "x, \"a\\\"\"".toList [1, 2] = some [("x".toList, 1), ("\"a\\\"\"".toList, 2)] := by
  let x := Expression.ofWord ⟨['x'], by simp, by simp⟩ (by decide) (by decide)
  let a := Expression.ofLiteral ⟨.double, [.plain 'a', .escaped '"'], by
    simp [Quote.char]⟩
  have hclean : ∀ e ∈ [x, a], e.Clean := by
    intro e he
    simp only [mem_cons, not_mem_nil, or_false] at he
    rcases he with rfl | rfl
    . exact ⟨by simp [x, Expression.ofWord, Expression.tokens, piecesTokens, Piece.tokens,
        Token.Clean], by simp [x, Expression.ofWord, Expression.tokens, piecesTokens,
        Piece.tokens]⟩
    . exact ⟨by simp [a, Expression.ofLiteral, Expression.tokens, piecesTokens, Piece.tokens,
        Token.Clean, Literal.Clean], by simp [a, Expression.ofLiteral, Expression.tokens,
        piecesTokens, Piece.tokens]⟩
  exact @split_arguments_finds_names Nat [x, a] [1, 2] (by simp) hclean rfl

theorem split_arguments_misses_name
    : ∃ es : List Expression, es.map Expression.text = ["x".toList, "\"a\\\\\"".toList] ∧
        splitArguments (joinNames (es.map Expression.text)) = some ["x, \"a\\\\\"".toList] ∧
        print (joinNames (es.map Expression.text)) [1, 2] = none := by
  let x := Expression.ofWord ⟨['x'], by simp, by simp⟩ (by decide) (by decide)
  let a := Expression.ofLiteral ⟨.double, [.plain 'a', .escaped '\\'], by
    simp [Quote.char]⟩
  refine ⟨[x, a], ?_, ?_, ?_⟩
  . decide
  . decide
  . decide

end Split
end LogIt.ArgumentUtils
