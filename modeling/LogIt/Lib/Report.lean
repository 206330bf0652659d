import Mathlib.Data.List.Basic

/-!
This module contains programs that add messages to a list while they compute a value.
-/

structure Report (ε α : Type) where
  value : α
  messages : List ε

namespace Report

variable {ε α β : Type}

instance : Monad (Report ε) where
  pure a := ⟨a, []⟩
  bind r f := ⟨(f r.value).value, r.messages ++ (f r.value).messages⟩

def add (message : ε) : Report ε PUnit :=
  ⟨⟨⟩, [message]⟩

def all : List (Report ε Bool) → Report ε Bool
  | [] => pure true
  | check :: checks => do
    let valid ← check
    let others ← all checks
    pure (others && valid)

@[simp]
theorem value_pure (a : α) : (pure a : Report ε α).value = a := by
  rfl

@[simp]
theorem messages_pure (a : α) : (pure a : Report ε α).messages = [] := by
  rfl

@[simp]
theorem value_bind (r : Report ε α) (f : α → Report ε β)
    : (r >>= f).value = (f r.value).value := by
  rfl

@[simp]
theorem messages_bind (r : Report ε α) (f : α → Report ε β)
    : (r >>= f).messages = r.messages ++ (f r.value).messages := by
  rfl

@[simp]
theorem messages_add (message : ε) : (add message).messages = [message] := by
  rfl

theorem messages_forM (f : α → Report ε PUnit) (l : List α)
    : (forM l f).messages = l.flatMap (fun a => (f a).messages) := by
  induction l with
  | nil => rfl
  | cons a l ih => rw [List.forM_cons, messages_bind, List.flatMap_cons, ih]

theorem value_all : (all checks).value = true ↔ ∀ check ∈ checks, check.value = true := by
  induction checks with
  | nil => simp [all]
  | cons check checks ih =>
    simp only [all, value_bind, value_pure, Bool.and_eq_true, List.forall_mem_cons]
    rw [ih]
    exact and_comm

def Quiet (check : Report ε Bool) : Prop :=
  check.value = true → check.messages = []

theorem Quiet.eq_pure {check : Report ε Bool} (h : check.Quiet) (hvalue : check.value = true)
    : check = Pure.pure true := by
  have hmessages := h hvalue
  cases check
  cases hvalue
  cases hmessages
  rfl

theorem Quiet.pure (a : Bool) : Quiet (Pure.pure a : Report ε Bool) := by
  intro _
  rfl

theorem Quiet.of_value {check : Report ε Bool} (h : check.value = false) : check.Quiet := by
  intro hvalue
  rw [h] at hvalue
  cases hvalue

theorem Quiet.nil : (all ([] : List (Report ε Bool))).Quiet :=
  Quiet.pure true

theorem Quiet.cons (h : check.Quiet) (h' : (all checks).Quiet) : (all (check :: checks)).Quiet := by
  intro hvalue
  simp only [Report.all, value_bind, value_pure, Bool.and_eq_true] at hvalue
  simp only [Report.all, messages_bind, messages_pure, List.append_nil]
  rw [h hvalue.2, h' hvalue.1]
  rfl

theorem Quiet.all {checks : List (Report ε Bool)} (h : ∀ check ∈ checks, check.Quiet)
    : (Report.all checks).Quiet := by
  induction checks with
  | nil => exact Quiet.nil
  | cons check checks ih =>
    rw [List.forall_mem_cons] at h
    exact Quiet.cons h.1 (ih h.2)

theorem Quiet.map {checks : List β} {f : β → Report ε Bool} (h : ∀ b, (f b).Quiet)
    : (Report.all (checks.map f)).Quiet := by
  apply Quiet.all
  rw [List.forall_mem_map]
  intro b _
  exact h b

end Report

structure Rounds (ε β : Type) where
  results : List β
  thrown : Option ε

def rounds {ε α β : Type} (f : Nat → α → Except ε β) : Nat → List α → Rounds ε β
  | _, [] => ⟨[], none⟩
  | index, a :: as =>
    match f index a with
    | .error e => ⟨[], some e⟩
    | .ok b => ⟨b :: (rounds f (index + 1) as).results, (rounds f (index + 1) as).thrown⟩

def visited {ε α β : Type} (f : Nat → α → Except ε β) : Nat → List α → List α
  | _, [] => []
  | index, a :: as =>
    match f index a with
    | .error _ => [a]
    | .ok _ => a :: visited f (index + 1) as

section Rounds

variable {ε α β : Type} {f : Nat → α → Except ε β} {index : Nat} {as : List α}

theorem exists_of_rounds_results (h : (rounds f index as).results[i]? = some b)
    : ∃ a, as[i]? = some a ∧ f (index + i) a = .ok b := by
  induction as generalizing index i with
  | nil => simp [rounds] at h
  | cons a as ih =>
    rw [rounds] at h
    split at h
    . simp at h
    . next hb =>
      cases i with
      | zero =>
        rw [List.getElem?_cons_zero, Option.some.injEq] at h
        rw [h] at hb
        exact ⟨a, rfl, hb⟩
      | succ i =>
        rw [List.getElem?_cons_succ] at h ⊢
        rw [Nat.add_comm i 1, ← Nat.add_assoc]
        exact ih h

theorem exists_of_mem_rounds (h : b ∈ (rounds f index as).results) : ∃ i a, f i a = .ok b := by
  obtain ⟨i, hi⟩ := List.getElem?_of_mem h
  obtain ⟨a, _, hf⟩ := exists_of_rounds_results hi
  exact ⟨index + i, a, hf⟩

theorem length_of_rounds (h : (rounds f index as).thrown = none)
    : (rounds f index as).results.length = as.length := by
  induction as generalizing index with
  | nil => rfl
  | cons a as ih =>
    rw [rounds] at h ⊢
    split
    . next hb =>
      rw [hb] at h
      cases h
    . next hb =>
      rw [hb] at h
      rw [List.length_cons, List.length_cons, ih h]

theorem getElem?_of_rounds (h : (rounds f index as).thrown = none) (ha : as[i]? = some a)
    : ∃ b, (rounds f index as).results[i]? = some b ∧ f (index + i) a = .ok b := by
  have hlt : i < (rounds f index as).results.length := by
    rw [length_of_rounds h]
    exact (List.getElem?_eq_some_iff.mp ha).1
  obtain ⟨b, hb⟩ : ∃ b, (rounds f index as).results[i]? = some b := by
    rw [List.getElem?_eq_getElem hlt]
    exact ⟨_, rfl⟩
  obtain ⟨a', ha', hf⟩ := exists_of_rounds_results hb
  rw [ha, Option.some.injEq] at ha'
  rw [← ha'] at hf
  exact ⟨b, hb, hf⟩

theorem exists_of_rounds_thrown (h : (rounds f index as).thrown = some e)
    : ∃ i a, as[i]? = some a ∧ f (index + i) a = .error e := by
  induction as generalizing index with
  | nil => cases h
  | cons a as ih =>
    rw [rounds] at h
    split at h
    . next hb =>
      cases h
      exact ⟨0, a, rfl, hb⟩
    . obtain ⟨i, a', ha', hf⟩ := ih h
      rw [Nat.add_assoc, Nat.add_comm 1 i] at hf
      exact ⟨i + 1, a', ha', hf⟩

theorem visited_subset (h : a ∈ visited f index as) : a ∈ as := by
  induction as generalizing index with
  | nil => cases h
  | cons head as ih =>
    rw [visited] at h
    split at h
    . rw [List.mem_singleton] at h
      rw [h]
      exact List.mem_cons_self
    . cases List.mem_cons.mp h with
      | inl h =>
        rw [h]
        exact List.mem_cons_self
      | inr h => exact List.mem_cons_of_mem _ (ih h)

end Rounds
