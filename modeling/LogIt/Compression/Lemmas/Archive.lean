import LogIt.Compression.Impl.Files

namespace LogIt.Compression

open List

open FileLogger (Name Dir CompressType gzSuffix zstSuffix tmpSuffix)

section Gzip

variable {lib : Zlib} {out out' : lib.GzFile} {stream : lib.Stream}
  {content input output before : List UInt8} {fuel : Nat}

theorem writeGzip_wrote (h : writeGzip lib fuel out content = .done out')
    (hwrote : lib.Wrote out before)
    : lib.Wrote out' (before ++ content) := by
  fun_induction writeGzip lib fuel out content generalizing before with
  | case2 _ content =>
    rename_i hempty
    rw [List.isEmpty_iff, List.take_eq_nil_iff] at hempty
    cases h
    rw [hempty.resolve_left (by decide), List.append_nil]
    exact hwrote
  | case4 _ content =>
    rename_i hgzwrite hwritten hlast
    have hchunk : lib.Wrote _ (before ++ content.take gzipBufferSize) :=
      hwrote.gzwrite hwritten hgzwrite
    rw [length_take] at hlast
    rw [List.take_of_length_le (by omega)] at hchunk
    cases h
    exact hchunk
  | case5 =>
    rename_i hgzwrite hwritten _ ih
    have hrest := ih h (hwrote.gzwrite hwritten hgzwrite)
    rw [append_assoc, take_append_drop] at hrest
    exact hrest
  | _ => contradiction

theorem compressFileGzip_wrote (h : compressFileGzip lib faults fuel content level = .done bytes)
    : ∃ out, lib.Wrote out content ∧ lib.gzclose out = some bytes := by
  unfold compressFileGzip at h
  split at h
  . contradiction
  . split at h
    . contradiction
    . next out hopen =>
      split at h
      . contradiction
      . contradiction
      . next out' hwrite =>
        split at h
        . contradiction
        . next bytes' hclose =>
          cases h
          exact ⟨out', writeGzip_wrote hwrite (.gzopen hopen), hclose⟩

theorem inflateLoop_of_inflates (h : lib.Inflates inflateBufferSize stream input content)
    : ∃ rounds, ∀ fuel, rounds ≤ fuel → ∀ output,
        inflateLoop lib fuel stream input output = some (true, output ++ content) := by
  induction h with
  | streamEnd hret =>
    refine ⟨1, ?_⟩
    intro fuel hfuel output
    obtain ⟨fuel, rfl⟩ := Nat.exists_eq_add_of_le hfuel
    rw [Nat.add_comm, inflateLoop]
    simp only [hret]
  | ok hret hprogress _ ih =>
    obtain ⟨rounds, ih⟩ := ih
    refine ⟨rounds + 1, ?_⟩
    intro fuel hfuel output
    obtain ⟨fuel, rfl⟩ := Nat.exists_eq_add_of_le hfuel
    rw [show rounds + 1 + fuel = rounds + fuel + 1 by omega, inflateLoop]
    simp only [hret]
    rw [if_neg (by tauto), ih _ (Nat.le_add_right _ _), append_assoc]

theorem decompressStringGzip_eq (hdoc : lib.Documented)
    (h : compressFileGzip lib faults fuel content level = .done bytes)
    (hsize : bytes.length < 2 ^ 32)
    : ∃ rounds, ∀ fuel, rounds ≤ fuel →
        decompressStringGzip lib fuel bytes = some (true, content) := by
  obtain ⟨out, hwrote, hclose⟩ := compressFileGzip_wrote h
  have hinflates := hdoc.inflates out content bytes hwrote hclose inflateBufferSize (by decide)
  obtain ⟨rounds, hrounds⟩ := inflateLoop_of_inflates hinflates
  refine ⟨rounds, ?_⟩
  intro fuel hfuel
  unfold decompressStringGzip
  rw [Nat.mod_eq_of_lt hsize, take_length, hrounds fuel hfuel, nil_append]

end Gzip

section Zstd

variable {lib : Zstd} {faults : Faults} {fuel : Nat} {cctx cctx' : lib.CCtx}
  {zin content before bytes bytes' : List UInt8} {first : Option (EndDirective × List UInt8)}

theorem streamChunk_next
    (h : streamChunk lib faults false fuel cctx zin bytes = .next cctx' bytes')
    (hstreams : lib.Streams first before bytes false cctx)
    : ∃ first', lib.Streams first' (before ++ zin) bytes' false cctx' ∧
        (first' = first ∧ zin = [] ∨ ∃ input, first' = first.or (some (.continue, input))) := by
  fun_induction streamChunk lib faults false fuel cctx zin bytes generalizing before first with
  | case2 _ zin _ _ hempty =>
    simp only [Bool.not_false, Bool.and_true, List.isEmpty_iff] at hempty
    cases h
    refine ⟨first, ?_, .inl ⟨rfl, hempty⟩⟩
    rw [hempty, List.append_nil]
    exact hstreams
  | case6 _ zin _ _ _ _ hcall =>
    rename_i hconsumed
    have hcalled := hstreams.compressStream2 hcall
    rw [Bool.not_false, Bool.true_and, List.isEmpty_iff, List.drop_eq_nil_iff] at hconsumed
    rw [List.take_of_length_le hconsumed] at hcalled
    injection h with hcctx hbytes
    subst hcctx hbytes
    exact ⟨_, hcalled, .inr ⟨zin, rfl⟩⟩
  | case7 _ zin _ _ _ _ hcall =>
    rename_i ih
    obtain ⟨first', hfirst', hcase⟩ := ih h (hstreams.compressStream2 hcall)
    rw [append_assoc, take_append_drop] at hfirst'
    refine ⟨first', hfirst', .inr ⟨zin, ?_⟩⟩
    cases hcase with
    | inl hsame => exact hsame.1
    | inr hor =>
      obtain ⟨input, hor⟩ := hor
      rw [hor, Option.or_assoc]
      rfl
  | _ => contradiction

theorem streamChunk_not_done
    : streamChunk lib faults false fuel cctx zin bytes ≠ .done bytes' := by
  fun_induction streamChunk lib faults false fuel cctx zin bytes with
  | case5 _ _ _ _ _ _ _ _ => contradiction
  | case7 => assumption
  | _ => exact nofun

theorem streamChunk_not_next
    : streamChunk lib faults true fuel cctx zin bytes ≠ .next cctx' bytes' := by
  fun_induction streamChunk lib faults true fuel cctx zin bytes with
  | case2 _ _ _ _ hempty => simp at hempty
  | case6 => contradiction
  | case7 => assumption
  | _ => exact nofun

theorem streamChunk_done
    (h : streamChunk lib faults true fuel cctx zin bytes = .done bytes')
    (hstreams : lib.Streams first before bytes false cctx)
    : ∃ cctx', lib.Streams (first.or (some (.end, zin))) (before ++ zin) bytes' true cctx' := by
  fun_induction streamChunk lib faults true fuel cctx zin bytes generalizing before first with
  | case5 _ zin _ _ _ result hcall =>
    rename_i hcomplete
    have hcalled : lib.Streams _ _ _
        (true && result.ret == 0 && (zin.drop result.consumed).isEmpty) _ :=
      hstreams.compressStream2 hcall
    rw [hcomplete] at hcalled
    rw [Bool.and_eq_true, List.isEmpty_iff, List.drop_eq_nil_iff] at hcomplete
    rw [List.take_of_length_le hcomplete.2] at hcalled
    injection h with hbytes
    subst hbytes
    exact ⟨_, hcalled⟩
  | case7 _ _ _ _ _ _ hcall =>
    rename_i hincomplete _ ih
    have hcalled := hstreams.compressStream2 hcall
    rw [Bool.not_eq_true] at hincomplete
    obtain ⟨cctx', hrest⟩ := ih h (hincomplete ▸ hcalled)
    rw [append_assoc, take_append_drop, Option.or_assoc] at hrest
    exact ⟨cctx', hrest⟩
  | _ => contradiction

theorem streamFile_done (h : streamFile lib faults fuel cctx content bytes = .done bytes')
    (hstreams : lib.Streams first before bytes false cctx)
    (hfirst : first = none ∨ ∃ input, first = some (.continue, input))
    : ∃ first' cctx', lib.Streams first' (before ++ content) bytes' true cctx' ∧
        ((first = none ∧ content.length < lib.cStreamInSize ∧ first' = some (.end, content)) ∨
          ((lib.cStreamInSize ≤ content.length ∨ first ≠ none) ∧
            ∃ input, first' = some (.continue, input))) := by
  induction fuel generalizing cctx content bytes before first with
  | zero => contradiction
  | succ fuel ih =>
    unfold streamFile at h
    dsimp only at h
    by_cases hlast : (content.take lib.cStreamInSize).length < lib.cStreamInSize
    . rw [decide_eq_true hlast] at h
      rw [length_take] at hlast
      have hlt : content.length < lib.cStreamInSize := by omega
      rw [List.take_of_length_le (by omega)] at h
      split at h
      . contradiction
      . contradiction
      . next hchunk => exact absurd hchunk streamChunk_not_next
      . next hchunk =>
        obtain ⟨cctx', hdone⟩ := streamChunk_done hchunk hstreams
        split at h
        . contradiction
        . cases h
          refine ⟨_, cctx', hdone, ?_⟩
          cases hfirst with
          | inl hnone =>
            rw [hnone]
            exact .inl ⟨rfl, hlt, rfl⟩
          | inr hsome =>
            obtain ⟨input, hsome⟩ := hsome
            rw [hsome]
            exact .inr ⟨.inr nofun, input, rfl⟩
    . rw [decide_eq_false hlast] at h
      rw [length_take] at hlast
      have hle : lib.cStreamInSize ≤ content.length := by omega
      split at h
      . contradiction
      . contradiction
      . next cctx₁ bytes₁ hchunk =>
        obtain ⟨first₁, hstreams₁, hcase⟩ := streamChunk_next hchunk hstreams
        have hfirst₁ : first₁ = none ∨ ∃ input, first₁ = some (.continue, input) := by
          cases hcase with
          | inl hsame =>
            rw [hsame.1]
            exact hfirst
          | inr hor =>
            obtain ⟨input, hor⟩ := hor
            right
            cases hfirst with
            | inl hnone =>
              rw [hnone] at hor
              exact ⟨input, hor⟩
            | inr hsome =>
              obtain ⟨input', hsome⟩ := hsome
              rw [hsome] at hor
              exact ⟨input', hor⟩
        obtain ⟨first', cctx', hdone, hstarted⟩ := ih h hstreams₁ hfirst₁
        rw [append_assoc, take_append_drop] at hdone
        refine ⟨first', cctx', hdone, .inr ⟨.inl hle, ?_⟩⟩
        cases hstarted with
        | inr hcontinue => exact hcontinue.2
        | inl hend =>
          -- A chunk that is not the last one has been passed, so the frame has been started.
          obtain ⟨hnone, hlt, _⟩ := hend
          cases hcase with
          | inl hsame =>
            rw [List.take_eq_nil_iff] at hsame
            rw [length_drop] at hlt
            cases hsame.2 with
            | inl hzero => omega
            | inr hnil =>
              rw [hnil, length_nil] at hle
              omega
          | inr hor =>
            obtain ⟨input, hor⟩ := hor
            rw [hnone] at hor
            cases hfirst with
            | inl hnone' =>
              rw [hnone'] at hor
              contradiction
            | inr hsome =>
              obtain ⟨input', hsome⟩ := hsome
              rw [hsome] at hor
              contradiction
      . next hchunk => exact absurd hchunk streamChunk_not_done

theorem decompressStringZstd_eq_iff (hdoc : lib.Documented)
    (h : compressFileZstd lib faults fuel content level = .done bytes)
    : decompressStringZstd lib bytes = (true, content) ↔ content.length < lib.cStreamInSize := by
  unfold compressFileZstd at h
  split at h
  . contradiction
  . split at h
    . contradiction
    . next cctx hcreate =>
      obtain ⟨first, cctx', hstreams, hcase⟩ := streamFile_done h (.create hcreate) (.inl rfl)
      rw [nil_append] at hstreams
      unfold decompressStringZstd
      cases hcase with
      | inl hend =>
        obtain ⟨_, hlt, rfl⟩ := hend
        rw [hdoc.declared content bytes cctx' hstreams]
        dsimp only
        rw [hdoc.decompress _ content bytes cctx' hstreams _ (Nat.le_refl _)]
        simp [hlt]
      | inr hcontinue =>
        obtain ⟨hle, input, rfl⟩ := hcontinue
        have hle : lib.cStreamInSize ≤ content.length := by simpa using hle
        rw [hdoc.undeclared input content bytes cctx' hstreams]
        simp [Nat.not_lt.mpr hle]

end Zstd

section Files

variable {libs : Libraries} {faults : Faults} {fuel : Nat} {type : CompressType} {src : Name}
  {level : Int} {externalCmd : Name → Int → Dir → Bool × Dir} {dir dir' : Dir}

theorem suffix_ne_nil (htype : type = .gzip ∨ type = .zstd) : type.suffix ≠ [] := by
  rcases htype with rfl | rfl
  . exact nofun
  . exact nofun

theorem compressFile_archive (htype : type = .gzip ∨ type = .zstd)
    (h : compressFile libs faults fuel type src level externalCmd dir = some (true, dir'))
    : ∃ bytes, archive libs faults fuel type (dir.lookup src) level = .done bytes ∧
        dir'.lookup (src ++ type.suffix) = some bytes := by
  have hne : src ++ type.suffix ≠ src := by
    intro hsame
    exact suffix_ne_nil htype (append_right_eq_self.mp hsame)
  rcases htype with rfl | rfl
  all_goals
    unfold compressFile at h
    dsimp only at h
    split at h
    . contradiction
    . cases h
    . next bytes harchive =>
      refine ⟨bytes, harchive, ?_⟩
      split at h
      . cases h
      . unfold Directory.rename at h
        rw [AList.lookup_insert] at h
        cases h
        unfold Directory.remove
        rw [AList.lookup_erase_ne hne, AList.lookup_insert]

theorem isSuffixOf_append (suffix : Name) : suffix.isSuffixOf (src ++ suffix) = true := by
  rw [isSuffixOf_iff_suffix]
  exact suffix_append _ _

theorem not_gzSuffix_isSuffixOf : gzSuffix.isSuffixOf (src ++ zstSuffix) = false := by
  unfold isSuffixOf
  rw [reverse_append]
  rfl

end Files

theorem archive_read_back (libs : Libraries) (hdoc : libs.Documented) (faults : Faults) (fuel : Nat)
    (type : CompressType) (htype : type = .gzip ∨ type = .zstd) (src : Name) (level : Int)
    (externalCmd : Name → Int → Dir → Bool × Dir) (dir dir' : Dir) (content : List UInt8)
    (hsrc : dir.lookup src = some content)
    (h : compressFile libs faults fuel type src level externalCmd dir = some (true, dir'))
    : ∃ bytes, dir'.lookup (src ++ type.suffix) = some bytes ∧
        (type = .gzip → bytes.length < 2 ^ 32 → ∃ rounds, ∀ fuel, rounds ≤ fuel →
          decompressStringBySuffix libs fuel (src ++ type.suffix) bytes = some (true, content)) ∧
        (type = .zstd → ∀ fuel,
          (decompressStringBySuffix libs fuel (src ++ type.suffix) bytes = some (true, content)
            ↔ content.length < libs.zstd.cStreamInSize)) := by
  obtain ⟨bytes, harchive, hlookup⟩ := compressFile_archive htype h
  rw [hsrc] at harchive
  refine ⟨bytes, hlookup, ?_, ?_⟩
  . rintro rfl hsize
    obtain ⟨rounds, hrounds⟩ := decompressStringGzip_eq hdoc.zlib harchive hsize
    refine ⟨rounds, ?_⟩
    intro fuel hfuel
    have hgz : gzSuffix.isSuffixOf (src ++ CompressType.gzip.suffix) = true :=
      isSuffixOf_append gzSuffix
    unfold decompressStringBySuffix
    rw [if_pos hgz]
    exact hrounds fuel hfuel
  . rintro rfl fuel
    have hgz : ¬gzSuffix.isSuffixOf (src ++ CompressType.zstd.suffix) = true := by
      rw [Bool.not_eq_true]
      exact not_gzSuffix_isSuffixOf
    have hzst : zstSuffix.isSuffixOf (src ++ CompressType.zstd.suffix) = true :=
      isSuffixOf_append zstSuffix
    rw [← decompressStringZstd_eq_iff hdoc.zstd harchive]
    unfold decompressStringBySuffix
    rw [if_neg hgz, if_pos hzst, Option.some.injEq]

def storingZlib : Zlib where
  GzFile := List UInt8
  gzopen _ := some []
  gzwrite out chunk := (chunk.length, out ++ chunk)
  gzclose out := some out
  Stream := Unit
  inflateInit := ()
  inflate _ input room :=
    if input.length ≤ room then
      ⟨.streamEnd, input.length, input, ()⟩
    else
      ⟨.ok, room, input.take room, ()⟩

theorem storingZlib_wrote (h : storingZlib.Wrote out content) : out = content := by
  induction h with
  | gzopen hopen =>
    cases hopen
    rfl
  | gzwrite _ _ hwrite ih =>
    cases hwrite
    rw [ih]

theorem storingZlib_inflates (hroom : 0 < room) (content : List UInt8)
    : storingZlib.Inflates room () content content := by
  induction hlength : content.length using Nat.strongRecOn generalizing content with
  | ind length ih =>
    by_cases hfits : content.length ≤ room
    . have hcall : storingZlib.inflate () content room
          = ⟨.streamEnd, content.length, content, ()⟩ := by
        simp [storingZlib, hfits]
      have hend := @Zlib.Inflates.streamEnd storingZlib room () content (by rw [hcall])
      rw [hcall] at hend
      exact hend
    . have hcall : storingZlib.inflate () content room = ⟨.ok, room, content.take room, ()⟩ := by
        simp [storingZlib, hfits]
      have hrest : storingZlib.Inflates room () (content.drop room) (content.drop room) := by
        apply ih (content.drop room).length
        . rw [length_drop]
          omega
        . rfl
      have hok := @Zlib.Inflates.ok storingZlib room () content (content.drop room) (by rw [hcall])
      rw [hcall, take_append_drop] at hok
      exact hok (.inl (Nat.ne_of_gt hroom)) hrest

def storingZstd : Zstd where
  CCtx := Option EndDirective × List UInt8
  createCCtx := some (none, [])
  setCompressionLevel cctx _ := cctx
  cStreamInSize := 2
  cStreamOutSize := 2
  compressStream2 cctx input _ directive :=
    let first := cctx.1.or (some directive)
    match directive with
    | .continue => some ⟨0, input.length, [], (first, cctx.2 ++ input)⟩
    | .end =>
      let flag := if first = some .end then 1 else 0
      some ⟨0, input.length, flag :: (cctx.2 ++ input), (first, cctx.2 ++ input)⟩
  getFrameContentSize bytes :=
    match bytes with
    | [] => .error
    | flag :: content => if flag = 1 then .known content.length else .unknown
  decompress room bytes :=
    match bytes with
    | [] => none
    | _ :: content => if content.length ≤ room then some content else none

theorem storingZstd_streams (h : storingZstd.Streams first content bytes complete cctx)
    : cctx = (first.map Prod.fst, content) ∧
      bytes = if complete then
          (if first.map Prod.fst = some .end then 1 else 0) :: content
        else
          [] := by
  induction h with
  | create hcreate =>
    cases hcreate
    exact ⟨rfl, rfl⟩
  | @compressStream2 first content bytes input cctx room directive result _ hcall ih =>
    obtain ⟨rfl, hbytes⟩ := ih
    rw [hbytes]
    cases directive with
    | «continue» =>
      cases hcall
      refine ⟨?_, rfl⟩
      rw [take_length]
      cases first with
      | none => rfl
      | some call => rfl
    | «end» =>
      cases hcall
      rw [take_length, drop_length]
      cases first with
      | none | some call => exact ⟨rfl, rfl⟩

def storingLibraries : Libraries :=
  ⟨storingZlib, storingZstd⟩

theorem storingLibraries_documented : storingLibraries.Documented where
  zlib := by
    refine ⟨?_⟩
    intro out content bytes hwrote hclose room hroom
    cases hclose
    rw [storingZlib_wrote hwrote]
    exact storingZlib_inflates hroom content
  zstd := by
    refine ⟨?_, ?_, ?_⟩
    . intro first content bytes cctx hstreams room hroom
      rw [(storingZstd_streams hstreams).2]
      simp [storingLibraries, storingZstd, hroom]
    . intro content bytes cctx hstreams
      rw [(storingZstd_streams hstreams).2]
      simp [storingLibraries, storingZstd]
    . intro input content bytes cctx hstreams
      rw [(storingZstd_streams hstreams).2]
      simp [storingLibraries, storingZstd]

def noFaults : Faults :=
  ⟨false, false, fun _ => false, false, false⟩

theorem archive_read_back_small
    : (∃ bytes rounds, decompressStringBySuffix storingLibraries rounds ['a', '.', 'g', 'z'] bytes
        = some (true, [7])) ∧
      ∃ bytes, decompressStringBySuffix storingLibraries 0 ['a', '.', 'z', 's', 't'] bytes
        = some (true, [7]) := by
  refine ⟨?_, ?_⟩
  . obtain ⟨bytes, hbytes, hgzip, _⟩ := archive_read_back storingLibraries
      storingLibraries_documented noFaults 1 .gzip (.inl rfl) ['a'] 6
      (fun _ _ dir => (false, dir)) (AList.singleton ['a'] [7]) _ [7] rfl rfl
    cases hbytes
    obtain ⟨rounds, hread⟩ := hgzip rfl (by decide)
    exact ⟨_, rounds, hread rounds (Nat.le_refl _)⟩
  . obtain ⟨bytes, _, _, hzstd⟩ := archive_read_back storingLibraries
      storingLibraries_documented noFaults 1 .zstd (.inr rfl) ['a'] 3
      (fun _ _ dir => (false, dir)) (AList.singleton ['a'] [7]) _ [7] rfl rfl
    exact ⟨bytes, (hzstd rfl 0).mpr (by decide)⟩

theorem full_buffer_archive_unreadable
    : storingLibraries.Documented ∧
      ∃ dir bytes, compressFile storingLibraries noFaults 3 .zstd ['a'] 3
            (fun _ _ dir => (false, dir)) (AList.singleton ['a'] [7, 8]) = some (true, dir) ∧
          dir.lookup ['a', '.', 'z', 's', 't'] = some bytes ∧
          decompressStringBySuffix storingLibraries 0 ['a', '.', 'z', 's', 't'] bytes
            = some (false, []) :=
  ⟨storingLibraries_documented, _, _, rfl, rfl, rfl⟩

end LogIt.Compression
