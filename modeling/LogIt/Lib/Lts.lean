import Mathlib.Data.Option.Basic
import Mathlib.Order.WellFounded

/-!
This module contains labelled transition systems with the induction principle for their invariants,
and their infinite runs with the rule for showing that they reach something.
-/

structure Lts (σ α : Type) where
  init : σ
  step : σ → α → Option σ

namespace Lts

variable {σ α : Type} {sys : Lts σ α} {ok : σ → α → Prop}

inductive ReachableVia (sys : Lts σ α) (ok : σ → α → Prop) : σ → Prop where
  | init : ReachableVia sys ok sys.init
  | step {s s' : σ} {a : α} (reach : ReachableVia sys ok s) (hok : ok s a)
      (hstep : sys.step s a = some s') : ReachableVia sys ok s'

def Reachable (sys : Lts σ α) (s : σ) : Prop :=
  sys.ReachableVia (fun _ _ => True) s

theorem Reachable.init : sys.Reachable sys.init :=
  ReachableVia.init

theorem Reachable.step (reach : sys.Reachable s) (hstep : sys.step s a = some s')
    : sys.Reachable s' :=
  ReachableVia.step reach trivial hstep

theorem ReachableVia.reachable (h : sys.ReachableVia ok s) : sys.Reachable s := by
  induction h with
  | init => exact .init
  | step _ _ hstep ih => exact ih.step hstep

def startingAt (sys : Lts σ α) (s : σ) : Lts σ α :=
  { sys with init := s }

theorem ReachableVia.invariant (h : sys.ReachableVia ok s) (Inv : σ → Prop) (hinit : Inv sys.init)
    (hkeep : ∀ s a s', sys.ReachableVia ok s → Inv s → ok s a → sys.step s a = some s' → Inv s')
    : Inv s := by
  induction h with
  | init => exact hinit
  | step reach hok hstep ih => exact hkeep _ _ _ reach ih hok hstep

theorem Reachable.invariant (h : sys.Reachable s) (Inv : σ → Prop) (hinit : Inv sys.init)
    (hkeep : ∀ s a s', sys.Reachable s → Inv s → sys.step s a = some s' → Inv s')
    : Inv s := by
  apply ReachableVia.invariant h Inv hinit
  intro s a s' reach hinv _ hstep
  exact hkeep s a s' reach hinv hstep

def StepsVia (sys : Lts σ α) (ok : σ → α → Prop) (P : σ → σ → Prop) : Prop :=
  ∀ s a s', sys.ReachableVia ok s → ok s a → sys.step s a = some s' → P s s'

def runVia (sys : Lts σ α) (ok : σ → α → Prop) [∀ s a, Decidable (ok s a)]
    : σ → List α → Option σ
  | s, [] => some s
  | s, a :: as =>
    if ok s a then
      match sys.step s a with
      | some s' => runVia sys ok s' as
      | none => none
    else
      none

theorem runVia_cons [∀ s a, Decidable (ok s a)]
    : sys.runVia ok s (a :: as) = some s' ↔
        ok s a ∧ ∃ t, sys.step s a = some t ∧ sys.runVia ok t as = some s' := by
  simp only [Lts.runVia]
  by_cases hok : ok s a
  . rw [if_pos hok]
    cases sys.step s a with
    | none => simp
    | some t => simp [hok]
  . rw [if_neg hok]
    simp [hok]

theorem ReachableVia.runVia [∀ s a, Decidable (ok s a)] (reach : sys.ReachableVia ok s)
    (h : sys.runVia ok s as = some s')
    : sys.ReachableVia ok s' := by
  induction as generalizing s with
  | nil =>
    simp only [Lts.runVia, Option.some.injEq] at h
    rw [← h]
    exact reach
  | cons a as ih =>
    obtain ⟨hok, t, hstep, hrun⟩ := runVia_cons.mp h
    exact ih (reach.step hok hstep) hrun

theorem exists_reachableVia (sys : Lts σ α) (ok : σ → α → Prop) [∀ s a, Decidable (ok s a)]
    [DecidablePred P] (as : List α)
    (h : (sys.runVia ok sys.init as).any (fun s => decide (P s)) = true)
    : ∃ s, sys.ReachableVia ok s ∧ P s := by
  rw [Option.any_eq_true] at h
  obtain ⟨s, hs, hp⟩ := h
  refine ⟨s, ReachableVia.init.runVia hs, ?_⟩
  simpa using hp

def run (sys : Lts σ α) (s : σ) (as : List α) : Option σ :=
  sys.runVia (fun _ _ => True) s as

theorem exists_reachable (sys : Lts σ α) [DecidablePred P] (as : List α)
    (h : (sys.run sys.init as).any (fun s => decide (P s)) = true)
    : ∃ s, sys.Reachable s ∧ P s := by
  exact exists_reachableVia sys _ as h

theorem exists_step (sys : Lts σ α) [DecidableRel P] (as : List α) (a : α)
    (h : (sys.run sys.init as).any (fun s => (sys.step s a).any (fun s' => decide (P s s'))) = true)
    : ∃ s s', sys.Reachable s ∧ sys.step s a = some s' ∧ P s s' := by
  rw [Option.any_eq_true] at h
  obtain ⟨s, hs, h⟩ := h
  rw [Option.any_eq_true] at h
  obtain ⟨s', hs', hp⟩ := h
  refine ⟨s, s', Reachable.init.runVia hs, hs', ?_⟩
  simpa using hp

end Lts

namespace Lts

variable {σ α : Type} {sys : Lts σ α}

structure Run (sys : Lts σ α) where
  state : Nat → σ
  action : Nat → Option α
  start : sys.Reachable (state 0)
  next : ∀ n, match action n with
    | some a => sys.step (state n) a = some (state (n + 1))
    | none => state (n + 1) = state n

namespace Run

def once {s s' : σ} {a : α} (reach : sys.Reachable s) (hstep : sys.step s a = some s')
    : Run sys where
  state n := match n with
    | 0 => s
    | _ + 1 => s'
  action n := match n with
    | 0 => some a
    | _ + 1 => none
  start := reach
  next n := match n with
    | 0 => hstep
    | _ + 1 => rfl

theorem once_cases {s s' : σ} {a : α} {reach : sys.Reachable s} {hstep : sys.step s a = some s'}
    {P : σ → Prop} (h : ∃ n, P ((once reach hstep).state n))
    : P s ∨ P s' := by
  obtain ⟨n, hn⟩ := h
  cases n with
  | zero => exact .inl hn
  | succ n => exact .inr hn

variable (run : Run sys)

theorem step_of_action (h : run.action n = some a)
    : sys.step (run.state n) a = some (run.state (n + 1)) := by
  have hnext := run.next n
  rw [h] at hnext
  exact hnext

theorem invariant {Inv : σ → Prop} (hstart : Inv (run.state 0))
    (hkeep : ∀ s a s', sys.Reachable s → Inv s → sys.step s a = some s' → Inv s') (n : Nat)
    : sys.Reachable (run.state n) ∧ Inv (run.state n) := by
  induction n with
  | zero => exact ⟨run.start, hstart⟩
  | succ n ih =>
    have hnext := run.next n
    split at hnext
    . exact ⟨ih.1.step hnext, hkeep _ _ _ ih.1 ih.2 hnext⟩
    . rw [hnext]
      exact ih

theorem eventually {β : Type} [Preorder β] [WellFoundedLT β] (measure : σ → β) (done : σ → Prop)
    (hmono : ∀ n, done (run.state n) ∨ measure (run.state (n + 1)) ≤ measure (run.state n))
    (hprogress : ∀ n, ∃ m, n ≤ m ∧
      (done (run.state m) ∨ measure (run.state (m + 1)) < measure (run.state m)))
    : ∃ n, done (run.state n) := by
  by_contra hnever
  rw [not_exists] at hnever
  have hle (n k : Nat) : measure (run.state (n + k)) ≤ measure (run.state n) := by
    induction k with
    | zero => exact le_refl _
    | succ k ih =>
      cases hmono (n + k) with
      | inl hdone => exact absurd hdone (hnever _)
      | inr hstep => exact hstep.trans ih
  have hnone (b : β) : ∀ n, measure (run.state n) ≠ b := by
    induction b using WellFoundedLT.induction with
    | ind b ih =>
      intro n hn
      obtain ⟨m, hm, hlt⟩ := hprogress n
      cases hlt with
      | inl hdone => exact hnever m hdone
      | inr hlt =>
        have hfrom := hle n (m - n)
        rw [Nat.add_sub_cancel' hm, hn] at hfrom
        exact ih _ (lt_of_lt_of_le hlt hfrom) (m + 1) rfl
  exact hnone _ 0 rfl

end Run
end Lts
