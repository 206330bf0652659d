import Mathlib.Data.List.TakeWhile
import LogIt.Utils.Impl.Text

namespace LogIt.Utils

open List

/--
Following the components of a path from a directory. There is nothing above the root.
-/
def resolve (dir : List Text) : List Text → Option (List Text)
  | [] => some dir
  | c :: cs =>
    if c = ['.', '.'] then
      if dir.isEmpty then none else resolve dir.dropLast cs
    else if c = ['.'] then
      resolve dir cs
    else
      resolve (dir ++ [c]) cs

def Component (c : Text) : Prop :=
  c ≠ [] ∧ ∀ x ∈ c, isSeparator x = false

theorem component_of_mem_splitComponents {rounds : Nat} {path c : Text}
    (h : c ∈ splitComponents rounds path)
    : Component c := by
  induction rounds generalizing path with
  | zero => contradiction
  | succ rounds ih =>
    unfold splitComponents at h
    dsimp only at h
    split at h
    . exact ih h
    . next hne =>
      cases mem_cons.mp h with
      | inl h =>
        rw [h]
        refine ⟨by simpa using hne, ?_⟩
        intro x hx
        simpa using mem_takeWhile_imp hx
      | inr h => exact ih h

theorem component_of_mem_splitPath {path c : Text} (h : c ∈ (splitPath path).components)
    : Component c := by
  have hsome : ∃ rounds rest, c ∈ splitComponents rounds rest := by
    unfold splitPath at h
    repeat' split at h
    all_goals first | contradiction | exact ⟨_, _, h⟩
  obtain ⟨rounds, rest, h⟩ := hsome
  exact component_of_mem_splitComponents h

theorem splitComponents_nil (rounds : Nat) : splitComponents rounds [] = [] := by
  induction rounds with
  | zero => rfl
  | succ _ ih => exact ih

theorem splitComponents_append (rest : Text) (rounds : Nat) (hc : Component c)
    (hrest : ∀ x ∈ rest.head?, isSeparator x = true)
    : splitComponents (rounds + 1) (c ++ rest) = c :: splitComponents rounds rest := by
  obtain ⟨hne, hc⟩ := hc
  have hdrop : (c ++ rest).dropWhile isSeparator = c ++ rest := by
    cases c with
    | nil => contradiction
    | cons x c =>
      rw [cons_append, dropWhile_cons_of_neg]
      simp [hc x]
  have hkeep : ∀ x ∈ c, (!isSeparator x) = true := by
    intro x hx
    rw [hc x hx]
    rfl
  have hstop : rest.takeWhile (fun x => !isSeparator x) = [] ∧
      rest.dropWhile (fun x => !isSeparator x) = rest := by
    cases rest with
    | nil => exact ⟨rfl, rfl⟩
    | cons x rest => simp [hrest x rfl]
  rw [splitComponents, hdrop, takeWhile_append_of_pos hkeep, dropWhile_append_of_pos hkeep,
    hstop.1, hstop.2, append_nil, if_neg (by simpa using hne)]

theorem splitComponents_separator (rounds : Nat) (hx : isSeparator x = true)
    : splitComponents rounds (x :: path) = splitComponents rounds path := by
  cases rounds with
  | zero => rfl
  | succ rounds =>
    unfold splitComponents
    rw [dropWhile_cons_of_pos hx]

theorem splitComponents_joinComponents {rounds : Nat} {cs : List Text} (hcs : ∀ c ∈ cs, Component c)
    (h : cs.length ≤ rounds)
    : splitComponents rounds (joinComponents cs) = cs := by
  induction cs generalizing rounds with
  | nil => exact splitComponents_nil rounds
  | cons c cs ih =>
    rw [forall_mem_cons] at hcs
    cases rounds with
    | zero => contradiction
    | succ rounds =>
      have ih := ih hcs.2 (Nat.le_of_succ_le_succ h)
      cases cs with
      | nil =>
        have hone := splitComponents_append [] rounds hcs.1 nofun
        rw [append_nil, splitComponents_nil] at hone
        exact hone
      | cons d cs =>
        rw [joinComponents, splitComponents_append _ _ hcs.1 (by rintro _ ⟨⟩; rfl),
          splitComponents_separator _ rfl, ih]
        nofun

theorem length_le_length_joinComponents {cs : List Text} (hcs : ∀ c ∈ cs, Component c)
    : cs.length ≤ (joinComponents cs).length := by
  induction cs with
  | nil => exact Nat.le_refl _
  | cons c cs ih =>
    rw [forall_mem_cons] at hcs
    have hc := length_pos_iff.mpr hcs.1.1
    have ih := ih hcs.2
    cases cs with
    | nil => exact hc
    | cons d cs =>
      rw [joinComponents]
      . simp only [length_append, length_cons] at ih ⊢
        omega
      . nofun

theorem commonSize_spec (file base : List Text)
    : commonSize file base ≤ base.length ∧
      file.take (commonSize file base) = base.take (commonSize file base) := by
  induction file generalizing base with
  | nil => simp [commonSize]
  | cons c file ih =>
    cases base with
    | nil => simp [commonSize]
    | cons d base =>
      unfold commonSize
      split
      . next heq =>
        simp only [length_cons, take_succ_cons, heq, cons.injEq, true_and]
        exact ⟨Nat.succ_le_succ (ih base).1, (ih base).2⟩
      . simp

theorem resolve_replicate {dir : List Text} (h : ups ≤ dir.length) (cs : List Text)
    : resolve dir (replicate ups ['.', '.'] ++ cs)
        = resolve (dir.take (dir.length - ups)) cs := by
  induction ups generalizing dir with
  | zero => simp
  | succ ups ih =>
    have hne : dir.isEmpty = false := by
      cases dir with
      | nil => contradiction
      | cons => rfl
    rw [replicate_succ, cons_append, resolve, if_pos rfl, hne, if_neg Bool.false_ne_true,
      ih (by rw [length_dropLast]; omega), dropLast_eq_take, length_take,
      take_take]
    congr 2
    omega

theorem resolve_names {cs : List Text} (h : ∀ c ∈ cs, c ≠ ['.'] ∧ c ≠ ['.', '.']) (dir : List Text)
    : resolve dir cs = some (dir ++ cs) := by
  induction cs generalizing dir with
  | nil => rw [resolve, append_nil]
  | cons c cs ih =>
    rw [forall_mem_cons] at h
    rw [resolve, if_neg h.1.2, if_neg h.1.1, ih h.2, append_assoc]
    rfl

theorem makeRelative_resolve (f b : Text) (hb : b ≠ [])
    (hroot : (splitPath f).root = (splitPath b).root)
    (hnames : ∀ c ∈ (splitPath f).components ++ (splitPath b).components,
      c ≠ ['.'] ∧ c ≠ ['.', '.'])
    : resolve (splitPath b).components (components (makeRelative f b))
        = some (splitPath f).components := by
  obtain ⟨hle, hcommon⟩ := commonSize_spec (splitPath f).components (splitPath b).components
  have hfile : ∀ c ∈ (splitPath f).components, Component c := by
    intro c
    exact component_of_mem_splitPath
  generalize hsize : commonSize (splitPath f).components (splitPath b).components = common
    at hle hcommon
  unfold makeRelative
  rw [if_neg (by simpa using hb)]
  dsimp only
  rw [if_neg (not_not_intro hroot), hsize]
  split
  . next hempty =>
    -- Both paths are the same directory.
    simp only [List.isEmpty_iff, List.append_eq_nil_iff, List.replicate_eq_nil_iff,
      List.drop_eq_nil_iff] at hempty
    rw [List.take_of_length_le hempty.2, List.take_of_length_le (by omega)] at hcommon
    rw [hcommon]
    rfl
  . have hcomponents : ∀ c ∈ replicate ((splitPath b).components.length - common) ['.', '.']
        ++ (splitPath f).components.drop common, Component c := by
      intro c hc
      cases mem_append.mp hc with
      | inl hc =>
        rw [eq_of_mem_replicate hc]
        exact ⟨by decide, by simp [isSeparator]⟩
      | inr hc => exact hfile c (mem_of_mem_drop hc)
    unfold components
    rw [splitComponents_joinComponents hcomponents (length_le_length_joinComponents hcomponents),
      resolve_replicate (Nat.sub_le _ _), Nat.sub_sub_self hle, ← hcommon, resolve_names]
    . rw [take_append_drop]
    . intro c hc
      exact hnames c (mem_append_left _ (mem_of_mem_drop hc))

theorem makeRelative_resolve_mixed
    : makeRelative "/a//x\\y".toList "/a/b/".toList = "../x/y".toList ∧
      resolve [['a'], ['b']] (components "../x/y".toList) = some [['a'], ['x'], ['y']] := by
  have h := makeRelative_resolve "/a//x\\y".toList "/a/b/".toList (by decide) (by decide +kernel)
    (by decide +kernel)
  refine ⟨by decide +kernel, h⟩

end LogIt.Utils
