import Mathlib.Data.List.TakeWhile
import LogIt.Utils.Impl.Text

namespace LogIt.Utils

theorem toInt_of_lt (h : size < 2 ^ 31) : toInt size = size := by
  unfold toInt
  rw [BitVec.toInt_ofNat', Int.bmod_eq_of_le]
  . omega
  . omega

theorem cString_append_zero (h : 0 ∉ text) : cString (text ++ [0]) = text := by
  unfold cString
  rw [List.takeWhile_append_of_pos]
  . simp
  . intro c hc
    rw [bne_iff_ne]
    rintro rfl
    exact h hc

/--
A buffer that is large enough ends the loop.
-/
theorem formatLoop_fits {text : List UInt8} (hsize : size < 2 ^ 31) (hfits : text.length < size)
    (rounds : Nat)
    : formatLoop (.printed text) (rounds + 1) size = ⟨.returned (cString (text ++ [0])), [size]⟩ := by
  unfold formatLoop vsnprintf
  rw [toInt_of_lt hsize]
  dsimp only
  rw [if_pos (by omega), List.take_of_length_le (by omega)]

theorem format_printed {text : List UInt8} (h : text.length < 2 ^ 31 - 1)
    : format (.printed text) 2
        = ⟨.returned (cString (text ++ [0])),
            if text.length < 1024 then [1024] else [1024, text.length + 1]⟩ := by
  unfold format
  by_cases hfits : text.length < 1024
  . rw [formatLoop_fits (by omega) hfits, if_pos hfits]
  . rw [formatLoop, vsnprintf, toInt_of_lt (by omega)]
    dsimp only
    have hres : ¬ (text.length : Int) < 0 := by omega
    rw [if_neg (by omega), if_neg hres, Int.toNat_natCast, if_neg (by omega)]
    rw [formatLoop_fits (by omega) (by omega), if_neg hfits]

theorem formatLoop_failed_ne (negative : res < 0) (rounds size : Nat) (text : List UInt8)
    : (formatLoop (.failed res negative) rounds size).result ≠ .returned text := by
  induction rounds generalizing size with
  | zero => nofun
  | succ rounds ih =>
    have hres : ¬ (0 ≤ res ∧ res < toInt size) := by omega
    unfold formatLoop vsnprintf
    dsimp only
    rw [if_neg hres, if_pos negative]
    split
    . nofun
    . exact ih _

/--
`n` is the result of `vsnprintf` if there is no error.
-/
theorem format_returns_iff (outcome : Vsnprintf)
    (hint : ∀ text, outcome = .printed text → text.length < 2 ^ 31 - 1)
    : ((∃ text, (format outcome 2).result = .returned text) ↔ ∃ text, outcome = .printed text) ∧
      (∀ text, outcome = .printed text →
        (∀ size ∈ (format outcome 2).sizes, size ≤ max 1024 (text.length + 1)) ∧
        (0 ∉ text → (format outcome 2).result = .returned text)) ∧
      ((∃ res negative, outcome = .failed res negative) →
        ∀ rounds text, (format outcome rounds).result ≠ .returned text) := by
  cases outcome with
  | printed text =>
    rw [format_printed (hint text rfl)]
    refine ⟨⟨fun _ => ⟨text, rfl⟩, fun _ => ⟨_, rfl⟩⟩, ?_, nofun⟩
    rintro _ ⟨⟩
    constructor
    . intro size hsize
      dsimp only at hsize
      split at hsize
      . simp at hsize
        omega
      . simp at hsize
        omega
    . intro hzero
      rw [cString_append_zero hzero]
  | failed res negative =>
    have hnever := fun rounds => formatLoop_failed_ne negative rounds 1024
    refine ⟨⟨?_, nofun⟩, nofun, fun _ => hnever⟩
    rintro ⟨text, htext⟩
    exact absurd htext (hnever 2 text)

theorem format_returns_hello
    : (format (.printed [104, 105]) 2).result = .returned [104, 105] :=
  ((format_returns_iff (.printed [104, 105]) (by rintro _ ⟨⟩; decide)).2.1 _ rfl).2 (by decide)

theorem format_loops_on_error
    : (∀ rounds text, (format (.failed (-1) (by decide)) rounds).result ≠ .returned text) ∧
      (format (.failed (-1) (by decide)) 20).result = .looping ∧
      2 ^ 30 ∈ (format (.failed (-1) (by decide)) 20).sizes := by
  refine ⟨fun rounds => formatLoop_failed_ne (by decide) rounds 1024, ?_, ?_⟩
  . decide +kernel
  . decide +kernel

end LogIt.Utils
