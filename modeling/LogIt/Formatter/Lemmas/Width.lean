import LogIt.Formatter.Impl.Instruction

namespace LogIt.Formatter

open List

theorem sizeT_eq (hpos : 0 < width) (hint : width < 2 ^ 31) : sizeT width = width.toNat := by
  unfold sizeT
  rw [Int.emod_eq_of_lt]
  . omega
  . omega

namespace FormatInstruction

def IsPathLike (type : FormatType) : Prop :=
  type = .fileName ∨ type = .fullFileName ∨ type = .sourceFileAndLine ∨ type = .functionName

theorem extendEnd_eq {width lineSize : Int} {keepEnd missing : Nat}
    (hmissing : lineSize + missing = width) (hle : missing ≤ keepEnd)
    : extendEnd width lineSize keepEnd = keepEnd - missing := by
  induction missing generalizing lineSize keepEnd with
  | zero =>
    cases keepEnd with
    | zero => rfl
    | succ keepEnd =>
      rw [extendEnd, if_neg (by omega)]
      rfl
  | succ missing ih =>
    cases keepEnd with
    | zero => omega
    | succ keepEnd =>
      rw [extendEnd, if_pos (by omega), ih (by omega) (by omega)]
      omega

theorem shorten_of_le {width : Int} (hpos : 0 < width) (hle : width ≤ 3) (result : Text)
    : shorten width result = replicate width.toNat '.' := by
  unfold shorten
  rw [if_pos (show width ≤ (placeholder.length : Int) from hle), sizeT_eq hpos (by omega)]
  have hcases : width = 1 ∨ width = 2 ∨ width = 3 := by
    omega
  rcases hcases with rfl | rfl | rfl
  all_goals rfl

theorem shorten_of_lt {width : Int} {result : Text} (hlt : 3 < width)
    (hlen : width.toNat < result.length)
    : ∃ start middle last, result = start ++ middle ++ last ∧
        shorten width result = start ++ placeholder ++ last ∧
        start.length + 3 + last.length = width.toNat ∧
        start.length ≤ last.length ∧ last.length ≤ start.length + 1 := by
  have hkeep : ∃ keepSize missing : Nat, ((width - 3) / 2).toNat = keepSize ∧
      (2 * keepSize + 3 : Int) + missing = width ∧ missing ≤ 1 := by
    refine ⟨((width - 3) / 2).toNat, (width - 3 - 2 * ((width - 3) / 2)).toNat, rfl, ?_, ?_⟩
    . omega
    . omega
  obtain ⟨keepSize, missing, hkeepSize, hmissing, hle⟩ := hkeep
  have hend := extendEnd_eq hmissing (show missing ≤ result.length - keepSize by omega)
  have hsplit : result = result.take keepSize
      ++ (result.drop keepSize).take (result.length - keepSize - missing - keepSize)
      ++ result.drop (result.length - keepSize - missing) := by
    have hdrop : result.drop (result.length - keepSize - missing)
        = (result.drop keepSize).drop (result.length - keepSize - missing - keepSize) := by
      rw [drop_drop]
      congr 1
      omega
    rw [append_assoc, hdrop, take_append_drop, take_append_drop]
  refine ⟨_, _, _, hsplit, ?_, ?_, ?_, ?_⟩
  . unfold shorten
    rw [if_neg (show ¬ width ≤ (placeholder.length : Int) by simp [placeholder]; omega)]
    simp only [placeholder, length_cons, length_nil, Nat.zero_add, Nat.reduceAdd] at hend ⊢
    rw [show ((3 : Nat) : Int) = 3 from rfl, hkeepSize, hend]
  all_goals
    rw [length_take, length_drop]
    omega

variable {i : FormatInstruction}

theorem aligned_of_lt (hpos : 0 < i.width) (hint : i.width < 2 ^ 31)
    (hlt : result.length < i.width.toNat)
    : (i.leftAlign = true →
        i.aligned result = result ++ replicate (i.width.toNat - result.length) ' ') ∧
      (i.leftAlign = false → i.centerAlign = false →
        i.aligned result = replicate (i.width.toNat - result.length) ' ' ++ result) ∧
      (i.leftAlign = false → i.centerAlign = true →
        ∃ left right, i.aligned result = replicate left ' ' ++ result ++ replicate right ' ' ∧
          left + result.length + right = i.width.toNat ∧ left ≤ right) := by
  have hpad : 0 < i.width ∧ result.length < i.width.toNat := ⟨hpos, hlt⟩
  unfold aligned
  rw [sizeT_eq hpos hint, if_pos hpad]
  refine ⟨?_, ?_, ?_⟩
  . intro hleft
    rw [hleft]
    rfl
  . intro hleft hcenter
    rw [hleft, hcenter]
    rfl
  . intro hleft hcenter
    rw [hleft, hcenter]
    refine ⟨(i.width.toNat - result.length) / 2, _, rfl, ?_, ?_⟩
    . omega
    . omega

theorem aligned_of_le (hpos : 0 < i.width) (hint : i.width < 2 ^ 31)
    (hle : i.width.toNat ≤ result.length)
    : i.aligned result = result := by
  unfold aligned
  rw [sizeT_eq hpos hint, if_neg (by omega)]

theorem length_aligned (result : Text) (hpos : 0 < i.width) (hint : i.width < 2 ^ 31)
    : (i.aligned result).length = max result.length i.width.toNat := by
  by_cases hlt : result.length < i.width.toNat
  . obtain ⟨hleft, hright, hcenter⟩ := aligned_of_lt hpos hint hlt
    cases hl : i.leftAlign with
    | true =>
      rw [hleft hl, length_append, length_replicate]
      omega
    | false =>
      cases hc : i.centerAlign with
      | false =>
        rw [hright hl hc, length_append, length_replicate]
        omega
      | true =>
        obtain ⟨left, right, heq, hlen, _⟩ := hcenter hl hc
        rw [heq, length_append, length_append, length_replicate, length_replicate]
        omega
  . rw [aligned_of_le hpos hint (by omega)]
    omega

theorem truncated_of_le (hpos : 0 < i.width) (hint : i.width < 2 ^ 31)
    (h : i.truncate = false ∨ result.length ≤ i.width.toNat)
    : i.truncated result = result := by
  unfold truncated
  rw [sizeT_eq hpos hint]
  cases h with
  | inl htruncate =>
    rw [htruncate]
    rfl
  | inr hle =>
    rw [decide_eq_false (by omega), Bool.and_false]
    rfl

section

variable {result : Text} (hpos : 0 < i.width) (hint : i.width < 2 ^ 31)
  (htruncate : i.truncate = true) (hlt : i.width.toNat < result.length)

include hpos hint htruncate hlt

theorem truncated_of_pathLike (htype : IsPathLike i.type)
    : i.truncated result = shorten i.width result := by
  unfold truncated
  rw [sizeT_eq hpos hint, htruncate, decide_eq_true hlt]
  rcases htype with h | h | h | h
  all_goals
    rw [h]
    rfl

theorem truncated_of_not_pathLike (htype : ¬ IsPathLike i.type)
    : i.truncated result = result.take i.width.toNat := by
  unfold truncated
  rw [sizeT_eq hpos hint, htruncate, decide_eq_true hlt]
  unfold IsPathLike at htype
  cases h : i.type with
  | fileName | fullFileName | sourceFileAndLine | functionName => simp [h] at htype
  | _ => rfl

theorem length_truncated_of_lt : (i.truncated result).length = i.width.toNat := by
  by_cases htype : IsPathLike i.type
  . rw [truncated_of_pathLike hpos hint htruncate hlt htype]
    by_cases hle : i.width ≤ 3
    . rw [shorten_of_le hpos hle, length_replicate]
    . obtain ⟨start, middle, last, _, heq, hlen, _⟩ := shorten_of_lt (by omega) hlt
      rw [heq, length_append, length_append]
      exact hlen
  . rw [truncated_of_not_pathLike hpos hint htruncate hlt htype, length_take]
    omega

end

section Apply

variable (build : Build) (time : TimeShield) (record : LogRecord) (dt : DateTime)

theorem apply_eq (hcontext : i.context = .default) (hstart : i.type ≠ .startColor)
    (hend : i.type ≠ .endColor)
    : i.apply build time record dt = i.aligned (i.truncated (i.value build time record dt)) := by
  have hmarker : i.marker build record = [] := by
    unfold marker
    split
    . contradiction
    . contradiction
    . rfl
  unfold apply
  rw [hcontext, hmarker, if_neg (by simp)]
  rfl

theorem width_law (hcontext : i.context = .default) (hstart : i.type ≠ .startColor)
    (hend : i.type ≠ .endColor) (hpos : 0 < i.width) (hint : i.width < 2 ^ 31) (r : Text) (w : Nat)
    (out : Text) (hr : r = i.value build time record dt) (hw : w = i.width.toNat)
    (hout : out = i.apply build time record dt)
    : (i.truncate = false → out.length = max r.length w) ∧
      (i.truncate = true → out.length = w) ∧
      (r.length < w →
        (i.leftAlign = true → out = r ++ List.replicate (w - r.length) ' ') ∧
        (i.leftAlign = false → i.centerAlign = false →
          out = List.replicate (w - r.length) ' ' ++ r) ∧
        (i.leftAlign = false → i.centerAlign = true →
          ∃ left right, out = List.replicate left ' ' ++ r ++ List.replicate right ' ' ∧
            left + r.length + right = w ∧ left ≤ right)) ∧
      (w < r.length → i.truncate = true →
        (¬ IsPathLike i.type → out = r.take w) ∧
        (IsPathLike i.type → w ≤ 3 → out = List.replicate w '.') ∧
        (IsPathLike i.type → 3 < w →
          ∃ start middle last, r = start ++ middle ++ last ∧ out = start ++ ['.', '.', '.'] ++ last ∧
            start.length ≤ last.length + 1 ∧ last.length ≤ start.length + 1)) := by
  subst hr hw hout
  rw [apply_eq build time record dt hcontext hstart hend]
  generalize i.value build time record dt = r
  refine ⟨?_, ?_, ?_, ?_⟩
  . intro htruncate
    rw [truncated_of_le hpos hint (.inl htruncate), length_aligned r hpos hint]
  . intro htruncate
    rw [length_aligned _ hpos hint]
    by_cases hle : r.length ≤ i.width.toNat
    . rw [truncated_of_le hpos hint (.inr hle)]
      omega
    . rw [length_truncated_of_lt hpos hint htruncate (by omega), Nat.max_self]
  . intro hlt
    rw [truncated_of_le hpos hint (.inr (by omega))]
    exact aligned_of_lt hpos hint hlt
  . intro hlt htruncate
    have hlen := length_truncated_of_lt hpos hint htruncate hlt
    rw [aligned_of_le hpos hint (Nat.le_of_eq hlen.symm)]
    refine ⟨?_, ?_, ?_⟩
    . exact truncated_of_not_pathLike hpos hint htruncate hlt
    . intro htype hle
      rw [truncated_of_pathLike hpos hint htruncate hlt htype]
      exact shorten_of_le hpos (by omega) r
    . intro htype hgt
      rw [truncated_of_pathLike hpos hint htruncate hlt htype]
      obtain ⟨start, middle, last, hsplit, heq, _, hle, hge⟩ :=
        shorten_of_lt (show 3 < i.width by omega) hlt
      exact ⟨start, middle, last, hsplit, heq, by omega, hge⟩

theorem width_law_truncated
    : ∃ (i : FormatInstruction) (time : TimeShield) (record : LogRecord) (dt : DateTime),
        i.value .standard time record dt = ['a', '/', 'b', '/', 'c', '/', 'd', '/', 'e'] ∧
        (i.apply .standard time record dt).length = 8 := by
  refine ⟨{
      context := .default
      type := .fullFileName
      staticText := []
      width := 8
      leftAlign := true
      centerAlign := false
      truncate := true
      stripAnsi := false
      contextKey := []
    }, {
      toDateTimeMs := fun _ => ⟨1970, 1, 1, 0, 0, 0, 0⟩
      msToSec := fun ms => ms / 1000
      monthShort := fun _ => []
      monthFull := fun _ => []
      weekdayShort := fun _ _ _ => []
      weekdayFull := fun _ _ _ => []
    }, {
      logLevel := .info
      timestampMs := 0
      file := ['a', '/', 'b', '/', 'c', '/', 'd', '/', 'e']
      line := 1
      function := []
      format := []
      argsArray := []
      threadId := []
      printMode := false
      fmtMode := false
      context := none
    }, ⟨1970, 1, 1, 0, 0, 0, 0⟩, rfl, ?_⟩
  exact (width_law .standard _ _ _ rfl (by simp) (by simp) (by decide) (by decide) _ 8 _ rfl rfl
    rfl).2.1 rfl

end Apply
end FormatInstruction
end LogIt.Formatter
