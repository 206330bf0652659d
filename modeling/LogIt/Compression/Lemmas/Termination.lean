import LogIt.Compression.Lemmas.Stream

namespace LogIt.Compression

open List

section Gzip

variable {lib : Zlib}

theorem writeGzip_ne_running (h : content.length < fuel) (out : lib.GzFile)
    : writeGzip lib fuel out content ≠ .running := by
  induction fuel generalizing out content with
  | zero => contradiction
  | succ fuel ih =>
    have hsize : 0 < gzipBufferSize := by decide
    unfold writeGzip
    dsimp only
    split
    . intro h
      contradiction
    . split
      . intro h
        contradiction
      . split
        . intro h
          contradiction
        . next hfull =>
          rw [length_take] at hfull
          apply ih
          rw [length_drop]
          omega

end Gzip

section Zstd

variable {lib : Zstd} (faults : Faults)

theorem streamChunk_round {pending : lib.CCtx → Nat}
    (hprogress : ∀ cctx input directive result, (directive = .end ∨ input ≠ []) →
      lib.compressStream2 cctx input lib.cStreamOutSize directive = some result →
      directive = .end ∧ result.ret = 0 ∧ input.drop result.consumed = [] ∨
        (input.drop result.consumed).length < input.length ∨ pending result.cctx < pending cctx)
    (last : Bool) (cctx : lib.CCtx) (zin bytes : List UInt8)
    : (∃ chunk, chunk ≠ .running ∧
        ∀ fuel, streamChunk lib faults last (fuel + 1) cctx zin bytes = chunk) ∨
      ∃ cctx' zin' bytes', (zin'.length < zin.length ∨
          zin'.length ≤ zin.length ∧ pending cctx' < pending cctx) ∧
        ∀ fuel, streamChunk lib faults last (fuel + 1) cctx zin bytes =
          streamChunk lib faults last fuel cctx' zin' bytes' := by
  by_cases hempty : (zin.isEmpty && !last) = true
  . refine .inl ⟨.next cctx bytes, nofun, fun fuel => ?_⟩
    rw [streamChunk, if_pos hempty]
  . cases hcall : lib.compressStream2 cctx zin lib.cStreamOutSize
        (if last then .end else .continue) with
    | none =>
      refine .inl ⟨.failed, nofun, fun fuel => ?_⟩
      rw [streamChunk, if_neg hempty, hcall]
    | some result =>
      by_cases hwrite : faults.write bytes.length = true
      . refine .inl ⟨.failed, nofun, fun fuel => ?_⟩
        rw [streamChunk, if_neg hempty, hcall]
        exact if_pos hwrite
      . by_cases hdone : (last && result.ret == 0 && (zin.drop result.consumed).isEmpty) = true
        . refine .inl ⟨.done (bytes ++ result.output), nofun, fun fuel => ?_⟩
          rw [streamChunk, if_neg hempty, hcall]
          dsimp only
          rw [if_neg hwrite, if_pos hdone]
        . by_cases hnext : (!last && (zin.drop result.consumed).isEmpty) = true
          . refine .inl ⟨.next result.cctx (bytes ++ result.output), nofun, fun fuel => ?_⟩
            rw [streamChunk, if_neg hempty, hcall]
            dsimp only
            rw [if_neg hwrite, if_neg hdone, if_pos hnext]
          . refine .inr ⟨result.cctx, zin.drop result.consumed, bytes ++ result.output, ?_,
              fun fuel => ?_⟩
            . have hdirective : (if last then EndDirective.end else .continue) = .end ∨ zin ≠ [] := by
                cases last with
                | true => exact .inl rfl
                | false =>
                  refine .inr (fun hnil => hempty ?_)
                  rw [hnil]
                  rfl
              cases hprogress cctx zin _ result hdirective hcall with
              | inl hcomplete =>
                obtain ⟨hend, hret, hnil⟩ := hcomplete
                cases last with
                | true => simp [hret, hnil] at hdone
                | false => contradiction
              | inr hless =>
                rw [length_drop] at hless ⊢
                omega
            . rw [streamChunk, if_neg hempty, hcall]
              dsimp only
              rw [if_neg hwrite, if_neg hdone, if_neg hnext]

theorem streamChunk_settles (hprogresses : lib.Progresses) (last : Bool) (cctx : lib.CCtx)
    (zin bytes : List UInt8)
    : ∃ rounds chunk, chunk ≠ .running ∧
        ∀ fuel, rounds ≤ fuel → streamChunk lib faults last fuel cctx zin bytes = chunk := by
  obtain ⟨pending, hprogress⟩ := hprogresses.progress
  induction hlength : zin.length using Nat.strong_induction_on generalizing cctx zin bytes with
  | _ length ihLength =>
    induction hpending : pending cctx using Nat.strong_induction_on generalizing cctx zin bytes with
    | _ held ihPending =>
      cases streamChunk_round faults hprogress last cctx zin bytes with
      | inl hlast =>
        obtain ⟨chunk, hchunk, heq⟩ := hlast
        refine ⟨1, chunk, hchunk, ?_⟩
        intro fuel hfuel
        obtain ⟨fuel, rfl⟩ := Nat.exists_eq_add_of_le' hfuel
        exact heq fuel
      | inr hround =>
        obtain ⟨cctx', zin', bytes', hless, heq⟩ := hround
        have hrest : ∃ rounds chunk, chunk ≠ .running ∧
            ∀ fuel, rounds ≤ fuel → streamChunk lib faults last fuel cctx' zin' bytes' = chunk := by
          by_cases hshorter : zin'.length < length
          . exact ihLength _ hshorter cctx' zin' bytes' rfl
          . exact ihPending (pending cctx') (by omega) cctx' zin' bytes' (by omega) rfl
        obtain ⟨rounds, chunk, hchunk, hsettled⟩ := hrest
        refine ⟨rounds + 1, chunk, hchunk, ?_⟩
        intro fuel hfuel
        obtain ⟨fuel, rfl⟩ := Nat.exists_eq_add_of_le' (Nat.le_trans (Nat.le_add_left 1 rounds) hfuel)
        rw [heq, hsettled fuel (by omega)]

theorem streamFile_settles (hprogresses : lib.Progresses) (cctx : lib.CCtx)
    (content bytes : List UInt8)
    : ∃ rounds outcome, outcome ≠ .running ∧
        ∀ fuel, rounds ≤ fuel → streamFile lib faults fuel cctx content bytes = outcome := by
  induction hlength : content.length using Nat.strong_induction_on generalizing cctx content bytes with
  | _ length ih =>
    obtain ⟨rounds, chunk, hchunk, hsettled⟩ := streamChunk_settles faults hprogresses
      (decide ((content.take lib.cStreamInSize).length < lib.cStreamInSize)) cctx
      (content.take lib.cStreamInSize) bytes
    cases chunk with
    | running => contradiction
    | failed =>
      refine ⟨rounds + 1, .failed, nofun, ?_⟩
      intro fuel hfuel
      obtain ⟨fuel, rfl⟩ := Nat.exists_eq_add_of_le' (Nat.le_trans (Nat.le_add_left 1 rounds) hfuel)
      rw [streamFile, hsettled (fuel + 1) (by omega)]
    | next cctx' bytes' =>
      have hshorter : (content.drop lib.cStreamInSize).length < length := by
        have hsize := hprogresses.chunk
        by_cases hlast : (content.take lib.cStreamInSize).length < lib.cStreamInSize
        . rw [decide_eq_true hlast] at hsettled
          exact absurd (hsettled rounds (Nat.le_refl _)) streamChunk_not_next
        . rw [length_take] at hlast
          rw [length_drop]
          omega
      obtain ⟨rounds', outcome, houtcome, hrest⟩ := ih _ hshorter cctx' _ bytes' rfl
      refine ⟨max rounds rounds' + 1, outcome, houtcome, ?_⟩
      intro fuel hfuel
      obtain ⟨fuel, rfl⟩ := Nat.exists_eq_add_of_le' (Nat.le_trans (Nat.le_add_left 1 _) hfuel)
      rw [streamFile, hsettled (fuel + 1) (by omega)]
      exact hrest fuel (by omega)
    | done bytes' =>
      refine ⟨rounds + 1, if faults.flush then .failed else .done bytes', ?_, ?_⟩
      . cases faults.flush with
        | _ => exact nofun
      . intro fuel hfuel
        obtain ⟨fuel, rfl⟩ := Nat.exists_eq_add_of_le' (Nat.le_trans (Nat.le_add_left 1 rounds) hfuel)
        rw [streamFile, hsettled (fuel + 1) (by omega)]

theorem streamChunk_ne_failed (hwrite : ∀ n, faults.write n = false)
    (hcalls : ∀ cctx input directive,
      lib.compressStream2 cctx input lib.cStreamOutSize directive ≠ none)
    (last : Bool) (fuel : Nat) (cctx : lib.CCtx) (zin bytes : List UInt8)
    : streamChunk lib faults last fuel cctx zin bytes ≠ .failed := by
  induction fuel generalizing cctx zin bytes with
  | zero =>
    intro h
    contradiction
  | succ fuel ih =>
    rw [streamChunk]
    split
    . intro h
      contradiction
    . split
      . next hcall => exact absurd hcall (hcalls _ _ _)
      . rw [hwrite]
        dsimp only
        split
        . contradiction
        . split
          . intro h
            contradiction
          . split
            . intro h
              contradiction
            . exact ih _ _ _

end Zstd

namespace Source

section Zstd

variable {lib : Zstd} {faults : StreamFaults}

theorem streamFile_error_running (hwrite : ∀ n, faults.write n = false)
    (hcalls : ∀ cctx input directive,
      lib.compressStream2 cctx input lib.cStreamOutSize directive ≠ none)
    (fuel : Nat) (cctx : lib.CCtx) (delivered bytes : List UInt8)
    : streamFile lib faults fuel cctx { source := ⟨delivered, true⟩ } bytes = .running := by
  induction fuel generalizing cctx delivered bytes with
  | zero => rfl
  | succ fuel ih =>
    rw [streamFile, read_open]
    simp only [Bool.not_true, Bool.and_false]
    split
    . rfl
    . next heq => exact absurd heq (streamChunk_ne_failed _ hwrite hcalls _ _ _ _ _)
    . by_cases hlast : delivered.length < lib.cStreamInSize
      . exact streamFile_failed _ _ (decide_eq_true hlast) rfl _
      . rw [decide_eq_false hlast]
        exact ih _ _ _
    . next heq => exact absurd heq streamChunk_not_done

theorem compressFileZstd_returns (hprogresses : lib.Progresses) (content : List UInt8) (level : Int)
    : ∃ fuel, compressFileZstd lib faults fuel ⟨content, false⟩ level ≠ .running := by
  unfold compressFileZstd
  split
  . exact ⟨0, nofun⟩
  . cases lib.createCCtx with
    | none => exact ⟨0, nofun⟩
    | some cctx =>
      obtain ⟨rounds, outcome, houtcome, hsettled⟩ := streamFile_settles faults.toFaults hprogresses
        (lib.setCompressionLevel cctx (clampLevel level 1 19)) content []
      refine ⟨rounds, ?_⟩
      dsimp only
      rw [streamFile_eq, hsettled rounds (Nat.le_refl _)]
      cases outcome with
      | running => contradiction
      | _ => exact nofun

end Zstd

theorem compressFileGzip_returns (faults : StreamFaults) (source : Source) (level : Int)
    : ∃ fuel, compressFileGzip lib faults fuel source level ≠ .running := by
  refine ⟨source.delivered.length + 1, ?_⟩
  rw [compressFileGzip_eq]
  unfold Compression.compressFileGzip
  split
  . exact nofun
  . split
    . exact nofun
    . next out _ =>
      have hwrite := writeGzip_ne_running (Nat.lt_succ_self source.delivered.length) out
      split
      . contradiction
      . exact nofun
      . split
        . exact nofun
        . exact nofun

theorem storingZstd_progresses : storingZstd.Progresses where
  chunk := by decide
  progress := by
    refine ⟨fun _ => 0, ?_⟩
    intro cctx input directive result hinput hcall
    cases directive with
    | «end» =>
      cases hcall
      exact .inl ⟨rfl, rfl, drop_length⟩
    | «continue» =>
      cases hcall
      have hne : input ≠ [] := hinput.resolve_left nofun
      rw [drop_length]
      exact .inr (.inl (length_pos_iff.mpr hne))

end Source
end LogIt.Compression
