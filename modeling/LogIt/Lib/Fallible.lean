import Mathlib.Control.Basic

/-!
This module contains programs whose effects stay when they throw, and the rules for their pre- and
postconditions.
-/

abbrev Fallible (ε σ : Type) := ExceptT ε (StateM σ)

namespace Fallible

variable {ε σ α β : Type}

def exec (m : Fallible ε σ α) (s : σ) : Except ε α × σ :=
  m s

def wp (m : Fallible ε σ α) (Q : α → σ → Prop) (E : ε → σ → Prop) (s : σ) : Prop :=
  match m.exec s with
  | (.ok a, s') => Q a s'
  | (.error e, s') => E e s'

variable {m : Fallible ε σ α} {f : α → Fallible ε σ β} {Q Q' : α → σ → Prop}
  {E E' : ε → σ → Prop} {s s' : σ}

theorem wp_pure : (pure a : Fallible ε σ α).wp Q E s ↔ Q a s := by
  rfl

theorem wp_throw : (throw e : Fallible ε σ α).wp Q E s ↔ E e s := by
  rfl

theorem wp_get {Q : σ → σ → Prop} : (get : Fallible ε σ σ).wp Q E s ↔ Q s s := by
  rfl

theorem wp_set {Q : PUnit → σ → Prop}
    : (set s' : Fallible ε σ PUnit).wp Q E s ↔ Q PUnit.unit s' := by
  rfl

theorem wp_modify {Q : PUnit → σ → Prop} {f : σ → σ}
    : (modify f : Fallible ε σ PUnit).wp Q E s ↔ Q PUnit.unit (f s) := by
  rfl

theorem exec_bind
    : (m >>= f).exec s = match m.exec s with
      | (.ok a, s') => (f a).exec s'
      | (.error e, s') => (.error e, s') := by
  change (ExceptT.bindCont f (m.exec s).1) (m.exec s).2 = _
  obtain ⟨result, s'⟩ := m.exec s
  cases result with
  | ok a => rfl
  | error e => rfl

theorem wp_bind {Q : β → σ → Prop}
    : (m >>= f).wp Q E s ↔ m.wp (fun a s' => (f a).wp Q E s') E s := by
  unfold wp
  rw [exec_bind]
  obtain ⟨result, s'⟩ := m.exec s
  cases result with
  | ok a => rfl
  | error e => rfl

theorem exec_tryCatch
    : (tryCatch m h).exec s = match m.exec s with
      | (.ok a, s') => (.ok a, s')
      | (.error e, s') => (h e).exec s' := by
  change (match (m.exec s).1 with
    | .ok a => (pure (Except.ok a) : StateM σ (Except ε α))
    | .error e => h e) (m.exec s).2 = _
  obtain ⟨result, s'⟩ := m.exec s
  cases result with
  | ok a => rfl
  | error e => rfl

theorem wp_tryCatch : (tryCatch m h).wp Q E s ↔ m.wp Q (fun e s' => (h e).wp Q E s') s := by
  unfold wp
  rw [exec_tryCatch]
  obtain ⟨result, s'⟩ := m.exec s
  cases result with
  | ok a => rfl
  | error e => rfl

theorem wp_ite [Decidable c]
    : (if c then m else m').wp Q E s ↔ if c then m.wp Q E s else m'.wp Q E s := by
  split <;> rfl

theorem wp.mono (h : m.wp Q E s) (hQ : ∀ a s', Q a s' → Q' a s')
    (hE : ∀ e s', E e s' → E' e s')
    : m.wp Q' E' s := by
  unfold wp at h ⊢
  split
  . next hexec =>
    rw [hexec] at h
    exact hQ _ _ h
  . next hexec =>
    rw [hexec] at h
    exact hE _ _ h

theorem wp.bind {Q : β → σ → Prop} (h : m.wp Q' E' s)
    (hf : ∀ a s', Q' a s' → (f a).wp Q E s') (hE : ∀ e s', E' e s' → E e s')
    : (m >>= f).wp Q E s :=
  wp_bind.mpr (h.mono hf hE)

theorem wp.seq {Q : β → σ → Prop} (h : m.wp Q' E s) (hf : ∀ a s', Q' a s' → (f a).wp Q E s')
    : (m >>= f).wp Q E s :=
  h.bind hf (fun _ _ h => h)

theorem wp.ok (h : m.wp Q E s) (hexec : m.exec s = (.ok a, s')) : Q a s' := by
  unfold wp at h
  rw [hexec] at h
  exact h

theorem wp.error (h : m.wp Q E s) (hexec : m.exec s = (.error e, s')) : E e s' := by
  unfold wp at h
  rw [hexec] at h
  exact h

theorem exec_eq_ok (h : (m.exec s).1.toOption = some a) : m.exec s = (.ok a, (m.exec s).2) := by
  cases hexec : m.exec s with
  | mk result s' =>
    rw [hexec] at h
    cases result with
    | ok b => rw [Option.some.inj h]
    | error e => contradiction

def Preserves (R : σ → σ → Prop) (m : Fallible ε σ α) : Prop :=
  ∀ s, m.wp (fun _ s' => R s s') (fun _ s' => R s s') s

theorem Preserves.pure {R : σ → σ → Prop} (hrefl : ∀ s, R s s) (a : α)
    : Preserves R (Pure.pure a : Fallible ε σ α) :=
  hrefl

theorem Preserves.throw {R : σ → σ → Prop} (hrefl : ∀ s, R s s) (e : ε)
    : Preserves R (MonadExcept.throw e : Fallible ε σ α) :=
  hrefl

theorem Preserves.bind {R : σ → σ → Prop} (htrans : ∀ {s s' s''}, R s s' → R s' s'' → R s s'')
    (hm : Preserves R m) (hf : ∀ a, Preserves R (f a))
    : Preserves R (m >>= f) := by
  intro s
  apply (hm s).seq
  intro a s' hfirst
  exact (hf a s').mono (fun _ _ h => htrans hfirst h) (fun _ _ h => htrans hfirst h)

end Fallible
