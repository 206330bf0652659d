import Mathlib.Data.List.Infix
import LogIt.Formatter.Impl.Compiler

namespace LogIt.Formatter

open List

def Plain (s : Text) : Prop :=
  ∀ c ∈ s, c ≠ '(' ∧ c ≠ ')' ∧ c ≠ '\x7b' ∧ c ≠ '\x7d'

-- Not the instance for all characters, of which there are too many.
instance (s : Text) : Decidable (Plain s) :=
  List.decidableBAll _ s

def Closed (s : Text) : Prop :=
  s = [] ∨ s.getLast? = some ' '

instance (s : Text) : Decidable (Closed s) :=
  inferInstanceAs (Decidable (s = [] ∨ s.getLast? = some ' '))

theorem Plain.of_suffix {s t : Text} (h : Plain s) (hsuffix : t <:+ s) : Plain t :=
  fun c hc => h c (hsuffix.mem hc)

def Local {α : Type} (read : Text → α × Text) : Prop :=
  ∀ s, Plain s → ∃ a t, t <:+ s ∧ ∀ rest, read (s ++ ' ' :: rest) = (a, t ++ ' ' :: rest)

theorem local_mk {α : Type} (a : α) : Local (Prod.mk a) :=
  fun s _ => ⟨a, s, suffix_rfl, fun _ => rfl⟩

theorem local_ifNext (hc : c ≠ ' ') (long short : Token) : Local (ifNext c long short) := by
  intro s _
  cases s with
  | nil =>
    refine ⟨short, [], suffix_rfl, fun rest => ?_⟩
    rw [nil_append, ifNext, if_neg (Ne.symm hc)]
  | cons d s =>
    by_cases hd : d = c
    . refine ⟨long, s, suffix_cons d s, fun rest => ?_⟩
      rw [cons_append, ifNext, if_pos hd]
    . refine ⟨short, d :: s, suffix_rfl, fun rest => ?_⟩
      rw [cons_append, ifNext, if_neg hd]

theorem local_readFile : Local readFile := by
  intro s _
  by_cases hn : ∃ t, s = 'n' :: t
  . obtain ⟨t, rfl⟩ := hn
    exact ⟨.ofType .fileName, t, suffix_cons _ t, fun rest => rfl⟩
  . by_cases hfn : ∃ t, s = 'f' :: 'n' :: t
    . obtain ⟨t, rfl⟩ := hfn
      exact ⟨.ofType .fullFileName, t, (suffix_cons _ t).trans (suffix_cons _ _),
        fun rest => rfl⟩
    . refine ⟨.ofType .fileName, s, suffix_rfl, fun rest => ?_⟩
      rw [readFile]
      . intro t ht
        cases s with
        | nil => simp at ht
        | cons c s =>
          cases s with
          | nil => simp at ht
          | cons d s =>
            simp only [cons_append, cons.injEq] at ht
            exact hfn ⟨s, by rw [ht.1, ht.2.1]⟩
      . intro t ht
        cases s with
        | nil => simp at ht
        | cons c s =>
          rw [cons_append, cons.injEq] at ht
          exact hn ⟨s, by rw [ht.1]⟩

theorem ne_cons_of_plain {s t rest : Text} {c : Char} (hs : Plain s) (hc : c = '(' ∨ c = '\x7b')
    (h : s ++ ' ' :: rest = c :: t)
    : False := by
  cases s with
  | nil =>
    rw [nil_append, cons.injEq] at h
    rcases hc with rfl | rfl
    all_goals exact absurd h.1 (by decide)
  | cons d s =>
    rw [cons_append, cons.injEq] at h
    have hd := hs d mem_cons_self
    rcases hc with rfl | rfl
    . exact hd.1 h.1
    . exact hd.2.2.1 h.1

theorem local_readKey : Local readKey := by
  intro s hs
  refine ⟨.ofType .mappedDiagnosticContext, s, suffix_rfl, fun rest => ?_⟩
  rw [readKey]
  intro t ht
  exact ne_cons_of_plain hs (.inr rfl) ht

theorem local_readNoArgs : Local readNoArgs := by
  intro s hs
  refine ⟨.nothing, s, suffix_rfl, fun rest => ?_⟩
  rw [readNoArgs]
  intro c t ht
  exact ne_cons_of_plain hs (.inl rfl) ht

theorem local_readToken (next : Char) : Local (readToken next) := by
  unfold readToken
  split
  all_goals first
    | exact local_mk _
    | exact local_ifNext (by decide) _ _
    | exact local_readKey
    | exact local_readFile
    | exact local_readNoArgs

theorem readSpec_cons (spec : Spec) (c : Char) (s : Text)
    : readSpec spec (c :: s) =
      if c.isDigit || c = '-' || c = '=' then
        if s.head? = some '!' then ({ spec.flag c with truncate := true }, s.tail)
        else readSpec (spec.flag c) s
      else
        (spec, c :: s) := by
  by_cases htruncate : ∃ t, s = '!' :: t
  . obtain ⟨t, rfl⟩ := htruncate
    rw [readSpec]
    rfl
  . have hhead : s.head? ≠ some '!' := by
      cases s with
      | nil => simp
      | cons d t =>
        rw [head?_cons]
        exact fun h => htruncate ⟨t, by rw [Option.some.inj h]⟩
    rw [if_neg hhead, readSpec]
    exact fun t ht => htruncate ⟨t, ht⟩

theorem local_readSpec (spec : Spec) : Local (readSpec spec) := by
  intro s hs
  induction s generalizing spec with
  | nil =>
    refine ⟨spec, [], suffix_rfl, fun rest => ?_⟩
    rw [nil_append, readSpec_cons, if_neg (by decide)]
  | cons c s ih =>
    by_cases hflag : (c.isDigit || decide (c = '-') || decide (c = '=')) = true
    . have hhead (rest : Text) : (s ++ ' ' :: rest).head? = some ((s ++ [' ']).head (by simp)) := by
        cases s with
        | _ => rfl
      by_cases htruncate : (s ++ [' ']).head (by simp) = '!'
      . cases s with
        | nil => exact absurd htruncate (by decide)
        | cons d t =>
          refine ⟨{ spec.flag c with truncate := true }, t,
            (suffix_cons _ t).trans (suffix_cons _ _), fun rest => ?_⟩
          rw [cons_append, readSpec_cons, if_pos hflag, hhead, if_pos (by rw [htruncate])]
          rfl
      . obtain ⟨spec', t, hsuffix, hread⟩ := ih (spec.flag c) (hs.of_suffix (suffix_cons c s))
        refine ⟨spec', t, hsuffix.trans (suffix_cons c s), fun rest => ?_⟩
        rw [cons_append, readSpec_cons, if_pos hflag, hhead,
          if_neg (fun h => htruncate (Option.some.inj h)), hread]
    . refine ⟨spec, c :: s, suffix_rfl, fun rest => ?_⟩
      rw [cons_append, readSpec_cons, if_neg hflag]

theorem suffix_ifNext (c : Char) (long short : Token) (s : Text)
    : (ifNext c long short s).2 <:+ s := by
  unfold ifNext
  split
  . exact suffix_rfl
  . split
    . exact suffix_cons _ _
    . exact suffix_rfl

theorem suffix_readFile (s : Text) : (readFile s).2 <:+ s := by
  unfold readFile
  split
  . exact (suffix_cons _ _).trans (suffix_cons _ _)
  . exact suffix_cons _ _
  . exact suffix_rfl

theorem suffix_readKey (s : Text) : (readKey s).2 <:+ s := by
  unfold readKey
  split
  . split
    . exact ((drop_suffix _ _).trans (dropWhile_suffix _)).trans (suffix_cons _ _)
    . exact suffix_rfl
  . exact suffix_rfl

theorem suffix_readNoArgs (s : Text) : (readNoArgs s).2 <:+ s := by
  unfold readNoArgs
  split
  . split
    . exact ((drop_suffix _ _).trans (dropWhile_suffix _)).trans (suffix_cons _ _)
    . exact suffix_cons _ _
  . exact suffix_rfl

theorem suffix_readToken (next : Char) (s : Text) : (readToken next s).2 <:+ s := by
  unfold readToken
  split
  all_goals first
    | exact suffix_rfl
    | exact suffix_ifNext _ _ _ s
    | exact suffix_readKey s
    | exact suffix_readFile s
    | exact suffix_readNoArgs s

theorem suffix_readSpec (spec : Spec) (s : Text) : (readSpec spec s).2 <:+ s := by
  induction s generalizing spec with
  | nil => exact suffix_rfl
  | cons c s ih =>
    rw [readSpec_cons]
    split
    . split
      . exact (tail_suffix s).trans (suffix_cons c s)
      . exact (ih _).trans (suffix_cons c s)
    . exact suffix_rfl

theorem readItems_eq (hn : s.length ≤ n) (hm : s.length ≤ m) : readItems n s = readItems m s := by
  induction n generalizing m s with
  | zero =>
    rw [length_eq_zero_iff.mp (Nat.le_zero.mp hn)]
    cases m with
    | _ => rfl
  | succ n ih =>
    cases s with
    | nil =>
      cases m with
      | _ => rfl
    | cons c s =>
      cases m with
      | zero => simp at hm
      | succ m =>
        rw [length_cons] at hn hm
        rw [readItems, readItems]
        split
        . have hspec := (suffix_readSpec {} s).length_le
          cases hread : readSpec {} s with
          | mk spec t =>
            rw [hread] at hspec
            cases t with
            | nil => rfl
            | cons next t =>
              have htoken := (suffix_readToken next t).length_le
              rw [length_cons] at hspec
              dsimp only
              rw [ih (m := m) (by omega) (by omega)]
        . rw [ih (m := m) (by omega) (by omega)]

theorem items_text (hc : c ≠ '%') (s : Text) : items (c :: s) = .text c :: items s := by
  unfold items
  rw [length_cons, readItems, if_neg hc]

theorem items_placeholder {spec : Spec} {token : Token} {next : Char} {s t rest : Text}
    (hspec : readSpec {} s = (spec, next :: t)) (htoken : readToken next t = (token, rest))
    : items ('%' :: s) = .placeholder spec token :: items rest := by
  have hs := (suffix_readSpec {} s).length_le
  have ht := (suffix_readToken next t).length_le
  rw [hspec, length_cons] at hs
  rw [htoken] at ht
  have hrest : rest.length ≤ s.length := Nat.le_trans ht (Nat.le_of_succ_le hs)
  unfold items
  rw [length_cons, readItems, if_pos rfl, hspec]
  dsimp only
  rw [htoken, readItems_eq hrest (Nat.le_refl _)]

theorem items_append_space (s rest : Text) (hs : Plain s)
    : items (s ++ ' ' :: rest) = items (s ++ [' ']) ++ items rest := by
  induction hlen : s.length using Nat.strong_induction_on generalizing s with
  | _ n ih =>
    cases s with
    | nil =>
      rw [nil_append, nil_append, items_text (by decide), items_text (by decide)]
      rfl
    | cons c s =>
      have hs' : Plain s := hs.of_suffix (suffix_cons c s)
      rw [length_cons] at hlen
      by_cases hc : c = '%'
      . rw [hc, cons_append, cons_append]
        obtain ⟨spec, t, ht, hspec⟩ := local_readSpec {} s hs'
        cases t with
        | nil =>
          rw [items_placeholder (hspec rest) rfl, items_placeholder (hspec []) rfl]
          rfl
        | cons next t =>
          have ht' : Plain t := (hs'.of_suffix ht).of_suffix (suffix_cons next t)
          obtain ⟨token, u, hu, htoken⟩ := local_readToken next t ht'
          have hlt := ht.length_le
          have hle := hu.length_le
          rw [length_cons] at hlt
          rw [items_placeholder (hspec rest) (htoken rest), items_placeholder (hspec []) (htoken []),
            ih u.length (by omega) u (ht'.of_suffix hu) rfl]
          rfl
      . rw [cons_append, cons_append, items_text hc, items_text hc,
          ih s.length (by omega) s hs' rfl]
        rfl

theorem items_append (rest : Text) (ha : Plain a) (hclosed : Closed a)
    : items (a ++ rest) = items a ++ items rest := by
  cases hclosed with
  | inl hnil =>
    rw [hnil]
    rfl
  | inr hlast =>
    obtain ⟨s, rfl⟩ := getLast?_eq_some_iff.mp hlast
    rw [append_assoc]
    exact items_append_space s rest (fun c hc => ha c (mem_append_left _ hc))

theorem items_noArgs (b : Text) (hp : Plain p)
    : items (['%', 'N', '('] ++ p ++ [')'] ++ b) = .placeholder {} (.noArgs p) :: items b := by
  have hne : ∀ c ∈ p, (decide (c ≠ ')')) = true := fun c hc => decide_eq_true (hp c hc).2.1
  have htake : (p ++ ')' :: b).takeWhile (· ≠ ')') = p := by
    rw [takeWhile_append_of_pos hne, takeWhile_cons_of_neg (by simp), append_nil]
  have hdrop : (p ++ ')' :: b).dropWhile (· ≠ ')') = ')' :: b := by
    rw [dropWhile_append_of_pos hne, dropWhile_cons_of_neg (by simp)]
  have hread : readNoArgs ('(' :: (p ++ ')' :: b)) = (.noArgs p, b) := by
    cases hcons : p ++ ')' :: b with
    | nil => simp at hcons
    | cons c rest =>
      have hmem : ')' ∈ c :: rest := by
        rw [← hcons]
        simp
      rw [readNoArgs, if_pos hmem, ← hcons, htake, hdrop]
      rfl
  rw [append_assoc, append_assoc]
  exact items_placeholder rfl hread

theorem readToken_ne_noArgs {next : Char} (hs : Plain s) (params : Text)
    : (readToken next s).1 ≠ .noArgs params := by
  have hif (c : Char) (long short : Token) (hlong : long ≠ .noArgs params)
      (hshort : short ≠ .noArgs params)
      : (ifNext c long short s).1 ≠ .noArgs params := by
    unfold ifNext
    split
    . exact hshort
    . split
      . exact hlong
      . exact hshort
  have hkey : (readKey s).1 ≠ .noArgs params := by
    unfold readKey
    split
    . split
      . simp
      . simp [Token.ofType]
    . simp [Token.ofType]
  have hfile : (readFile s).1 ≠ .noArgs params := by
    unfold readFile
    split
    all_goals simp [Token.ofType]
  have hno : (readNoArgs s).1 ≠ .noArgs params := by
    unfold readNoArgs
    split
    . exact absurd rfl (hs '(' mem_cons_self).1
    . simp
  unfold readToken
  split
  all_goals first
    | exact hif _ _ _ (by simp [Token.ofType]) (by simp [Token.ofType])
    | exact hkey
    | exact hfile
    | exact hno
    | simp [Token.ofType]

theorem noArgs_notMem_items (hs : Plain s) (spec : Spec) (params : Text)
    : .placeholder spec (.noArgs params) ∉ items s := by
  induction hlen : s.length using Nat.strong_induction_on generalizing s with
  | _ n ih =>
    cases s with
    | nil => exact not_mem_nil
    | cons c s =>
      have hs' : Plain s := hs.of_suffix (suffix_cons c s)
      rw [length_cons] at hlen
      by_cases hc : c = '%'
      . rw [hc]
        have hsuffix := suffix_readSpec {} s
        cases hspec : readSpec {} s with
        | mk spec' t =>
          rw [hspec] at hsuffix
          cases t with
          | nil =>
            unfold items
            rw [length_cons, readItems, if_pos rfl, hspec]
            simp
          | cons next t =>
            have ht : Plain t := (hs'.of_suffix hsuffix).of_suffix (suffix_cons next t)
            have htoken := suffix_readToken next t
            have hle := htoken.length_le
            have hlt := hsuffix.length_le
            rw [length_cons] at hlt
            rw [items_placeholder hspec rfl, mem_cons]
            rintro (heq | hmem)
            . rw [Item.placeholder.injEq] at heq
              exact readToken_ne_noArgs ht params heq.2.symm
            . exact ih _ (by omega) (ht.of_suffix htoken) rfl hmem
      . rw [items_text hc, mem_cons]
        rintro (heq | hmem)
        . contradiction
        . exact ih s.length (by omega) hs' rfl hmem

end LogIt.Formatter
