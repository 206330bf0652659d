import LogIt.Utils.Impl.Text
import LogIt.FileLogger.Lemmas.Names

namespace LogIt.Utils

open List

/--
A value that is written as it is does not look like a quoted one, and the closing quote of a quoted
one does not look like an escaped one.
-/
def Readable (v : Text) : Prop :=
  if needQuote v then v.getLast? ≠ some '\\' else v.head? ≠ some '"'

instance (v : Text) : Decidable (Readable v) :=
  inferInstanceAs (Decidable (ite _ _ _))

def ValidKey (k : Text) : Prop :=
  k ≠ [] ∧ k.all (fun c => !([' ', '=', '"', '\\'].contains c)) = true

instance (k : Text) : Decidable (ValidKey k) :=
  inferInstanceAs (Decidable (_ ∧ _))

/--
What comes behind a value.
-/
inductive Delimited : Text → Prop where
  | nil : Delimited []
  | space (rest : Text) : Delimited (' ' :: rest)

theorem escapeQuotes_eq_quote (h : escapeQuotes v ++ '"' :: rest = '"' :: rest')
    : v = [] ∧ rest = rest' := by
  cases v with
  | nil => simpa [escapeQuotes] using h
  | cons c w =>
    unfold escapeQuotes at h
    split at h
    . simp at h
    . next hc =>
      simp at h
      exact absurd h.1 hc

theorem getLast?_tail (h : (c :: w).getLast? ≠ some '\\') : w.getLast? ≠ some '\\' := by
  cases w with
  | nil => nofun
  | cons d w => rwa [getLast?_cons_cons] at h

theorem escapeQuotes_inj (hv : v.getLast? ≠ some '\\') (hv' : v'.getLast? ≠ some '\\')
    (h : escapeQuotes v ++ '"' :: rest = escapeQuotes v' ++ '"' :: rest')
    : v = v' ∧ rest = rest' := by
  induction v generalizing v' with
  | nil =>
    obtain ⟨hnil, hrest⟩ := escapeQuotes_eq_quote h.symm
    exact ⟨hnil.symm, hrest.symm⟩
  | cons c w ih =>
    cases v' with
    | nil => exact escapeQuotes_eq_quote h
    | cons c' w' =>
      have ih := ih (getLast?_tail hv) (getLast?_tail hv')
      unfold escapeQuotes at h
      split at h
      . next hc =>
        split at h
        . next hc' =>
          simp only [cons_append, nil_append, cons.injEq, true_and] at h
          obtain ⟨hw, hrest⟩ := ih h.2
          exact ⟨by rw [hc, hc', hw], hrest⟩
        . -- An escaped quote would be a backslash at the end of the other value.
          simp only [hc, cons_append, nil_append, cons.injEq] at h
          rw [(escapeQuotes_eq_quote h.2.symm).1, ← h.1] at hv'
          contradiction
      . split at h
        . next hc' =>
          simp only [hc', cons_append, nil_append, cons.injEq] at h
          rw [(escapeQuotes_eq_quote h.2).1, h.1] at hv
          contradiction
        . simp only [cons_append, nil_append, cons.injEq] at h
          obtain ⟨hw, hrest⟩ := ih h.2
          exact ⟨by rw [h.1, hw], hrest⟩

theorem not_needQuote (h : needQuote v = false) : ' ' ∉ v := by
  unfold needQuote at h
  simpa using (Bool.or_eq_false_iff.mp h).1

theorem plain_inj (hv : ' ' ∉ v) (hv' : ' ' ∉ v') (hrest : Delimited rest)
    (hrest' : Delimited rest') (h : v ++ rest = v' ++ rest')
    : v = v' ∧ rest = rest' := by
  cases hrest with
  | nil =>
    cases hrest' with
    | nil => simpa using h
    | space more' =>
      rw [append_nil] at h
      rw [h] at hv
      simp at hv
  | space more =>
    cases hrest' with
    | nil =>
      rw [append_nil] at h
      rw [← h] at hv'
      simp at hv'
    | space more' =>
      obtain ⟨hvv, hmore⟩ := FileLogger.append_cons_inj hv hv' h
      rw [hvv, hmore]
      exact ⟨rfl, rfl⟩

theorem not_quote_head (hv : v.head? ≠ some '"') (hrest : Delimited rest)
    : (v ++ rest).head? ≠ some '"' := by
  cases v with
  | nil =>
    cases hrest with
    | nil | space => simp
  | cons c v => exact hv

theorem formatValue_inj (hv : Readable v) (hv' : Readable v') (hrest : Delimited rest)
    (hrest' : Delimited rest') (h : formatValue v ++ rest = formatValue v' ++ rest')
    : v = v' ∧ rest = rest' := by
  unfold Readable at hv hv'
  unfold formatValue at h
  cases hq : needQuote v with
  | true =>
    rw [if_pos hq] at hv h
    cases hq' : needQuote v' with
    | true =>
      rw [if_pos hq'] at hv' h
      simp only [cons_append, append_assoc, nil_append, cons.injEq,
        true_and] at h
      exact escapeQuotes_inj hv hv' h
    | false =>
      rw [if_neg (by simp [hq'])] at hv' h
      have := not_quote_head hv' hrest'
      rw [← h] at this
      simp at this
  | false =>
    rw [if_neg (by simp [hq])] at hv h
    cases hq' : needQuote v' with
    | true =>
      rw [if_pos hq'] at h
      have := not_quote_head hv hrest
      rw [h] at this
      simp at this
    | false =>
      rw [if_neg (by simp [hq'])] at h
      exact plain_inj (not_needQuote hq) (not_needQuote hq') hrest hrest' h

theorem ValidKey.not_mem (h : ValidKey k) : '=' ∉ k := by
  intro hc
  have := all_eq_true.mp h.2 _ hc
  contradiction

theorem formatPair_inj (hk : ValidKey kv.1) (hk' : ValidKey kv'.1) (hv : Readable kv.2)
    (hv' : Readable kv'.2) (hrest : Delimited rest) (hrest' : Delimited rest')
    (h : formatPair kv ++ rest = formatPair kv' ++ rest')
    : kv = kv' ∧ rest = rest' := by
  unfold formatPair at h
  rw [append_assoc, append_assoc] at h
  obtain ⟨hkey, hvalue⟩ := FileLogger.append_cons_inj hk.not_mem hk'.not_mem h
  obtain ⟨hvalue, hrest⟩ := formatValue_inj hv hv' hrest hrest' hvalue
  exact ⟨Prod.ext hkey hvalue, hrest⟩

/--
The pairs behind the first one.
-/
def formatMore : List (Text × Text) → Text
  | [] => []
  | kv :: tags => ' ' :: formatPairs (kv :: tags)

theorem formatPairs_cons (kv : Text × Text) (tags : List (Text × Text))
    : formatPairs (kv :: tags) = formatPair kv ++ formatMore tags := by
  cases tags with
  | nil => rw [formatPairs, formatMore, append_nil]
  | cons kv' tags => rfl

theorem delimited_formatMore (tags : List (Text × Text)) : Delimited (formatMore tags) := by
  cases tags with
  | nil => exact .nil
  | cons kv tags => exact .space _

theorem formatMore_inj (htags : ∀ kv ∈ tags, ValidKey kv.1 ∧ Readable kv.2)
    (htags' : ∀ kv ∈ tags', ValidKey kv.1 ∧ Readable kv.2) (h : formatMore tags = formatMore tags')
    : tags = tags' := by
  induction tags generalizing tags' with
  | nil =>
    cases tags' with
    | nil => rfl
    | cons kv' tags' => contradiction
  | cons kv tags ih =>
    cases tags' with
    | nil => contradiction
    | cons kv' tags' =>
      rw [forall_mem_cons] at htags htags'
      rw [formatMore, formatMore, formatPairs_cons, formatPairs_cons, cons.injEq] at h
      obtain ⟨hkv, hmore⟩ := formatPair_inj htags.1.1 htags'.1.1 htags.1.2 htags'.1.2
        (delimited_formatMore _) (delimited_formatMore _) h.2
      rw [hkv, ih htags.2 htags'.2 hmore]

end LogIt.Utils
