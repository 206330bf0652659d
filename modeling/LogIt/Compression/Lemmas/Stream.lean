import LogIt.Compression.Lemmas.Archive

namespace LogIt.Compression

open List

open FileLogger (Name Dir CompressType gzSuffix zstSuffix tmpSuffix)

def Outcome.map {α β : Type} (f : α → β) (o : Outcome α) : Outcome β :=
  match o with
  | .running => .running
  | .failed => .failed
  | .done result => .done (f result)

namespace Source

theorem read_open (source : Source) (n : Nat)
    : Ifstream.read { source := source } n =
        (source.delivered.take n, {
          source := { source with delivered := source.delivered.drop n }
          eof := decide (source.delivered.length < n) && !source.error
          fail := decide (source.delivered.length < n)
        }) := by
  have hlen : (source.delivered.take n).length < n ↔ source.delivered.length < n := by
    rw [length_take]
    omega
  unfold Ifstream.read
  rw [if_neg (by simp)]
  simp only [hlen]

theorem read_failed {s : Ifstream} (h : s.fail = true) (n : Nat) : s.read n = ([], s) := by
  unfold Ifstream.read
  rw [if_pos h]

section Gzip

variable {lib : Zlib}

theorem writeGzip_eq (fuel : Nat) (out : lib.GzFile) (source : Source)
    : writeGzip lib fuel out { source := source } =
        Compression.writeGzip lib fuel out source.delivered := by
  induction fuel generalizing out source with
  | zero => rfl
  | succ fuel ih =>
    have hlast (out : lib.GzFile) (s : Ifstream) (hs : s.fail = true)
        : writeGzip lib fuel out s = .done out := by
      unfold writeGzip
      rw [if_pos hs]
    have hnil : (source.delivered.take gzipBufferSize).isEmpty = true → source.delivered = [] := by
      intro hempty
      rw [List.isEmpty_iff, List.take_eq_nil_iff] at hempty
      exact hempty.resolve_left (by decide)
    unfold writeGzip Compression.writeGzip
    rw [if_neg (by simp), read_open]
    dsimp only
    split
    . next hempty => exact hlast _ _ (by rw [hnil hempty]; rfl)
    . split
      . rfl
      . by_cases hshort : source.delivered.length < gzipBufferSize
        . rw [if_pos (by rw [length_take]; omega)]
          exact hlast _ _ (decide_eq_true hshort)
        . rw [if_neg (by rw [length_take]; omega), decide_eq_false hshort]
          exact ih _ _

theorem compressFileGzip_eq (faults : StreamFaults) (fuel : Nat) (source : Source) (level : Int)
    : compressFileGzip lib faults fuel source level =
        Compression.compressFileGzip lib faults.toFaults fuel source.delivered level := by
  unfold compressFileGzip Compression.compressFileGzip
  split
  . rfl
  . cases lib.gzopen (clampLevel level 1 9) with
    | none => rfl
    | some out =>
      dsimp only
      rewrite [writeGzip_eq]
      rfl

end Gzip

section Zstd

variable {lib : Zstd} {faults : StreamFaults}

section

variable (fuel : Nat) (cctx : lib.CCtx)

theorem streamFile_eq (content bytes : List UInt8)
    : streamFile lib faults fuel cctx { source := ⟨content, false⟩ } bytes =
        (Compression.streamFile lib faults.toFaults fuel cctx content bytes).map faults.stored := by
  induction fuel generalizing cctx content bytes with
  | zero => rfl
  | succ fuel ih =>
    have hlen : (content.take lib.cStreamInSize).length < lib.cStreamInSize ↔
        content.length < lib.cStreamInSize := by
      rw [length_take]
      omega
    unfold streamFile Compression.streamFile
    rw [read_open]
    simp only [hlen, Bool.not_false, Bool.and_true]
    by_cases hlast : content.length < lib.cStreamInSize
    . rw [decide_eq_true hlast]
      cases heq : streamChunk lib faults.toFaults true (fuel + 1) cctx
        (content.take lib.cStreamInSize) bytes with
      | running => rfl
      | failed => rfl
      | next cctx bytes => exact absurd heq streamChunk_not_next
      | done bytes =>
        dsimp only
        cases faults.flush with
        | _ => rfl
    . rw [decide_eq_false hlast]
      cases heq : streamChunk lib faults.toFaults false (fuel + 1) cctx
        (content.take lib.cStreamInSize) bytes with
      | running => rfl
      | failed => rfl
      | next cctx bytes => exact ih _ _ _
      | done bytes => exact absurd heq streamChunk_not_done

theorem streamFile_failed {s : Ifstream} (hfail : s.fail = true) (heof : s.eof = false)
    (bytes : List UInt8)
    : streamFile lib faults fuel cctx s bytes = .running := by
  induction fuel with
  | zero => rfl
  | succ fuel ih =>
    unfold streamFile
    rw [read_failed hfail]
    dsimp only
    rw [heof]
    exact ih

theorem streamFile_error_not_done (delivered bytes : List UInt8) (result : List UInt8)
    : streamFile lib faults fuel cctx { source := ⟨delivered, true⟩ } bytes ≠ .done result := by
  induction fuel generalizing cctx delivered bytes with
  | zero => exact nofun
  | succ fuel ih =>
    unfold streamFile
    rw [read_open]
    simp only [Bool.not_true, Bool.and_false]
    split
    . exact nofun
    . exact nofun
    . by_cases hlast : delivered.length < lib.cStreamInSize
      . rw [streamFile_failed _ _ (decide_eq_true hlast) rfl]
        exact nofun
      . rw [decide_eq_false hlast]
        exact ih _ _ _
    . next heq => exact absurd heq streamChunk_not_done

end

theorem compressFileZstd_eq (fuel : Nat) (content : List UInt8) (level : Int)
    : compressFileZstd lib faults fuel ⟨content, false⟩ level =
        (Compression.compressFileZstd lib faults.toFaults fuel content level).map faults.stored := by
  unfold compressFileZstd Compression.compressFileZstd
  split
  . rfl
  . cases lib.createCCtx with
    | none => rfl
    | some cctx => exact streamFile_eq _ _ _ _

theorem compressFileZstd_streams
    (h : Compression.compressFileZstd lib faults.toFaults fuel content level = .done bytes)
    : ∃ first cctx, lib.Streams first content bytes true cctx := by
  unfold Compression.compressFileZstd at h
  split at h
  . contradiction
  . split at h
    . contradiction
    . next cctx hcreate =>
      obtain ⟨first, cctx', hstreams, _⟩ := streamFile_done h (.create hcreate) (.inl rfl)
      exact ⟨first, cctx', hstreams⟩

theorem compressFileZstd_error_not_done (fuel : Nat) (delivered : List UInt8) (level : Int)
    (result : List UInt8)
    : compressFileZstd lib faults fuel ⟨delivered, true⟩ level ≠ .done result := by
  unfold compressFileZstd
  split
  . exact nofun
  . split
    . exact nofun
    . exact streamFile_error_not_done _ _ _ _ _

end Zstd

section Files

def Complete (libs : Libraries) (type : CompressType) (content bytes : List UInt8) : Prop :=
  match type with
  | .gzip => ∃ out, libs.zlib.Wrote out content ∧ libs.zlib.gzclose out = some bytes
  | _ => ∃ first cctx, libs.zstd.Streams first content bytes true cctx

def Reads (source : Source) (content : List UInt8) : Prop :=
  source.delivered <+: content ∧ (source.error = false → source.delivered = content)

variable {libs : Libraries} {faults : StreamFaults} {fuel : Nat} {type : CompressType} {src : Name}
  {level : Int} {externalCmd : Name → Int → Dir → Bool × Dir} {read : List UInt8 → Source}
  {dir dir' : Dir}

theorem archive_complete (hclose : type = .zstd → faults.close = none)
    (htype : type = .gzip ∨ type = .zstd)
    (h : archive libs faults fuel type (some source) level = .done bytes)
    : Complete libs type source.delivered bytes ∧ (type = .zstd → source.error = false) := by
  rcases htype with rfl | rfl
  . unfold archive at h
    dsimp only at h
    rw [compressFileGzip_eq] at h
    exact ⟨compressFileGzip_wrote h, nofun⟩
  . unfold archive at h
    dsimp only at h
    obtain ⟨delivered, error⟩ := source
    cases error with
    | true => exact absurd h (compressFileZstd_error_not_done _ _ _ _)
    | false =>
      have hstored : faults.stored = id := by
        funext bytes
        unfold StreamFaults.stored
        rw [hclose rfl]
        rfl
      rw [compressFileZstd_eq, hstored] at h
      refine ⟨?_, fun _ => rfl⟩
      cases hdone : Compression.compressFileZstd libs.zstd faults.toFaults fuel delivered level with
      | running | failed =>
        rw [hdone] at h
        contradiction
      | done result =>
        rw [hdone] at h
        cases h
        exact compressFileZstd_streams hdone

theorem src_ne_tmp (htype : type = .gzip ∨ type = .zstd) : src ≠ src ++ type.suffix ++ tmpSuffix := by
  intro hsame
  rw [append_assoc] at hsame
  have hnil := append_right_eq_self.mp hsame.symm
  exact suffix_ne_nil htype (append_eq_nil_iff.mp hnil).1

theorem compressFile_cases (htype : type = .gzip ∨ type = .zstd)
    (h : compressFile libs faults fuel type src level externalCmd read dir = some (ok, dir'))
    : ok = false ∧ dir' = dir.remove (src ++ type.suffix ++ tmpSuffix) ∨
      ok = true ∧ ∃ bytes,
        archive libs faults fuel type ((dir.lookup src).map read) level = .done bytes ∧
        dir'.lookup (src ++ type.suffix) = some bytes ∧ dir'.lookup src = none := by
  have hne : src ++ type.suffix ≠ src := by
    intro hsame
    exact suffix_ne_nil htype (append_right_eq_self.mp hsame)
  rcases htype with rfl | rfl
  all_goals
    unfold compressFile at h
    dsimp only at h
    split at h
    . contradiction
    . cases h
      exact .inl ⟨rfl, rfl⟩
    . next bytes harchive =>
      split at h
      . cases h
        exact .inl ⟨rfl, rfl⟩
      . unfold Directory.rename at h
        rw [AList.lookup_insert] at h
        cases h
        refine .inr ⟨rfl, bytes, harchive, ?_, AList.lookup_erase _ _⟩
        unfold Directory.remove
        rw [AList.lookup_erase_ne hne, AList.lookup_insert]

theorem inflates_unique {lib : Zlib} {room : Nat} {stream : lib.Stream}
    {input content content' : List UInt8} (h : lib.Inflates room stream input content)
    (h' : lib.Inflates room stream input content')
    : content = content' := by
  induction h generalizing content' with
  | streamEnd hret =>
    cases h' with
    | streamEnd _ => rfl
    | ok hret' _ _ =>
      rw [hret] at hret'
      contradiction
  | ok hret _ _ ih =>
    cases h' with
    | streamEnd hret' =>
      rw [hret] at hret'
      contradiction
    | ok _ _ hrest => rw [ih hrest]

theorem complete_unique (hdoc : libs.zlib.Documented) (h : Complete libs .gzip content bytes)
    (h' : Complete libs .gzip content' bytes)
    : content = content' := by
  obtain ⟨out, hwrote, hclose⟩ := h
  obtain ⟨out', hwrote', hclose'⟩ := h'
  exact inflates_unique (hdoc.inflates out content bytes hwrote hclose 1 Nat.one_pos)
    (hdoc.inflates out' content' bytes hwrote' hclose' 1 Nat.one_pos)

end Files
end Source
end LogIt.Compression
