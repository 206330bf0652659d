import Mathlib.Data.List.Basic

/-!
This module contains readers for escaped texts and separated items, and that they read back what was
written.
-/

namespace TextReader

open List

variable {α β γ : Type} [DecidableEq α]

def strip (w s : List α) : Option (List α) :=
  if w.isPrefixOf s then some (s.drop w.length) else none

@[simp]
theorem strip_append (w s : List α) : strip w (w ++ s) = some s := by
  simp [strip]

@[simp]
theorem strip_cons_self (c : α) (s : List α) : strip [c] (c :: s) = some s :=
  strip_append [c] s

theorem strip_cons_of_ne (h : c ≠ d) (w s : List α) : strip (c :: w) (d :: s) = none := by
  simp [strip, h]

def readUntil (next : List α → Option (List α × List α)) (delimiter : α)
    : Nat → List α → Option (List α × List α)
  | 0, _ => none
  | _ + 1, [] => none
  | fuel + 1, c :: s =>
    if c = delimiter then
      some ([], s)
    else
      match next (c :: s) with
      | none => none
      | some (cs, s) => (readUntil next delimiter fuel s).map (fun r => (cs ++ r.1, r.2))

structure Escapes (next : List α → Option (List α × List α)) (delimiter : α) (escape : α → List α)
    : Prop where
  next_escape : ∀ c rest, next (escape c ++ rest) = some ([c], rest)
  head_escape : ∀ c, ∃ d tail, escape c = d :: tail ∧ d ≠ delimiter

theorem readUntil_flatMap {next : List α → Option (List α × List α)}
    (h : Escapes next delimiter escape) (s rest : List α) (hfuel : s.length < fuel)
    : readUntil next delimiter fuel (s.flatMap escape ++ delimiter :: rest) = some (s, rest) := by
  induction s generalizing fuel with
  | nil =>
    cases fuel with
    | zero => contradiction
    | succ fuel => simp [readUntil]
  | cons c s ih =>
    cases fuel with
    | zero => contradiction
    | succ fuel =>
      obtain ⟨d, tail, heq, hd⟩ := h.head_escape c
      have hnext := h.next_escape c (s.flatMap escape ++ delimiter :: rest)
      rw [heq, cons_append] at hnext
      rw [flatMap_cons, append_assoc, heq, cons_append, readUntil, if_neg hd, hnext]
      dsimp only
      rw [ih (Nat.lt_of_succ_lt_succ hfuel)]
      rfl

def readDelimited (next : List α → Option (List α × List α)) (delimiter : α) (s : List α)
    : Option (List α × List α) :=
  readUntil next delimiter s.length s

omit [DecidableEq α] in
theorem length_le_flatMap {next : List α → Option (List α × List α)}
    (h : Escapes next delimiter escape) (s : List α)
    : s.length ≤ (s.flatMap escape).length := by
  induction s with
  | nil => exact Nat.le_refl 0
  | cons c s ih =>
    obtain ⟨d, tail, heq, -⟩ := h.head_escape c
    simp only [flatMap_cons, heq, length_append, length_cons]
    omega

theorem readDelimited_flatMap {next : List α → Option (List α × List α)}
    (h : Escapes next delimiter escape) (s rest : List α)
    : readDelimited next delimiter (s.flatMap escape ++ delimiter :: rest) = some (s, rest) := by
  apply readUntil_flatMap h
  have := length_le_flatMap h s
  simp only [length_append, length_cons]
  omega

def readItems (item : List α → Option (β × List α)) (separator close : α)
    : Nat → List α → Option (List β × List α)
  | 0, _ => none
  | fuel + 1, s =>
    match item s with
    | none => none
    | some (_, []) => none
    | some (b, c :: s) =>
      if c = close then
        some ([b], s)
      else if c = separator then
        (readItems item separator close fuel s).map (fun r => (b :: r.1, r.2))
      else
        none

def readSeparated (item : List α → Option (β × List α)) (separator close : α) (s : List α)
    : Option (List β × List α) :=
  readItems item separator close s.length s

section

variable {item : List α → Option (β × List α)} {separator close : α} (hne : separator ≠ close)

include hne

theorem readItems_join {text : γ → List α} {value : γ → β} {gap : List α} {x : γ} {xs : List γ}
    (rest : List α) {fuel : Nat}
    (hitem : ∀ y ∈ x :: xs, ∀ g ∈ [[], gap], ∀ c ∈ [separator, close], ∀ rest, item (g ++ text y ++ c :: rest) = some (value y, c :: rest))
    (hfuel : xs.length < fuel)
    : readItems item separator close fuel
        (text x ++ xs.flatMap (fun y => separator :: gap ++ text y) ++ close :: rest)
      = some ((x :: xs).map value, rest) := by
  -- The induction is over texts that may start with the gap, as all but the first one do.
  suffices hgap : ∀ g ∈ [[], gap], readItems item separator close fuel
      (g ++ text x ++ xs.flatMap (fun y => separator :: gap ++ text y) ++ close :: rest)
      = some ((x :: xs).map value, rest) by
    exact hgap [] (by simp)
  induction xs generalizing x fuel with
  | nil =>
    intro g hg
    cases fuel with
    | zero => contradiction
    | succ fuel =>
      rw [flatMap_nil, append_nil, readItems,
        hitem x (by simp) g hg close (by simp) rest]
      simp
  | cons y ys ih =>
    intro g hg
    cases fuel with
    | zero => contradiction
    | succ fuel =>
      have hys := ih (fun z hz => hitem z (mem_cons_of_mem _ hz))
        (Nat.lt_of_succ_lt_succ hfuel) gap (by simp)
      rw [flatMap_cons, append_assoc, cons_append, cons_append,
        cons_append, readItems, hitem x (by simp) g hg separator (by simp) _]
      dsimp only
      rw [if_neg hne, if_pos rfl, hys]
      rfl

theorem readSeparated_join (text : γ → List α) (value : γ → β) (gap : List α) (x : γ) (xs : List γ)
    (rest : List α)
    (hitem : ∀ y ∈ x :: xs, ∀ g ∈ [[], gap], ∀ c ∈ [separator, close], ∀ rest, item (g ++ text y ++ c :: rest) = some (value y, c :: rest))
    : readSeparated item separator close
        (text x ++ xs.flatMap (fun y => separator :: gap ++ text y) ++ close :: rest)
      = some ((x :: xs).map value, rest) := by
  apply readItems_join hne rest hitem
  have hlength : xs.length ≤ (xs.flatMap (fun y => separator :: gap ++ text y)).length := by
    induction xs with
    | nil => exact Nat.le_refl 0
    | cons y ys ih =>
      have := ih (fun z hz => hitem z (by grind))
      simp only [flatMap_cons, length_append, length_cons]
      omega
  simp only [length_append, length_cons]
  omega

end

end TextReader
