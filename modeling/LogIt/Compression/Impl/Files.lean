import LogIt.FileLogger.Impl.Rotation

/-!
This module contains the interfaces of zlib and zstd with what their documentations say, and the
compression and decompression of log files, also of a file whose reads can fail and whose target can
fail to be closed. The loops run for at most the given number of rounds.
-/

namespace LogIt.Compression

inductive InflateReturn where
  | ok
  | streamEnd
  | error
  deriving DecidableEq

structure Inflated (σ : Type) where
  ret : InflateReturn
  consumed : Nat
  output : List UInt8
  stream : σ

/--
`gzclose` gives the content of the file if it succeeds. `inflate` gets the size of its buffer.
-/
structure Zlib where
  GzFile : Type
  gzopen : Int → Option GzFile
  gzwrite : GzFile → List UInt8 → Nat × GzFile
  gzclose : GzFile → Option (List UInt8)
  Stream : Type
  inflateInit : Stream
  inflate : Stream → List UInt8 → Nat → Inflated Stream

namespace Zlib

inductive Wrote (lib : Zlib) : lib.GzFile → List UInt8 → Prop where
  | gzopen {level : Int} {file : lib.GzFile} (hopen : lib.gzopen level = some file)
    : Wrote lib file []
  | gzwrite {file file' : lib.GzFile} {content chunk : List UInt8} {written : Nat}
      (hfile : Wrote lib file content) (hwritten : written ≠ 0)
      (hwrite : lib.gzwrite file chunk = (written, file'))
    : Wrote lib file' (content ++ chunk)

inductive Inflates (lib : Zlib) (room : Nat) : lib.Stream → List UInt8 → List UInt8 → Prop where
  | streamEnd {stream : lib.Stream} {input : List UInt8}
      (hret : (lib.inflate stream input room).ret = .streamEnd)
    : Inflates lib room stream input (lib.inflate stream input room).output
  | ok {stream : lib.Stream} {input rest : List UInt8}
      (hret : (lib.inflate stream input room).ret = .ok)
      (hprogress : (lib.inflate stream input room).consumed ≠ 0 ∨
        (lib.inflate stream input room).output ≠ [])
      (hrest : Inflates lib room (lib.inflate stream input room).stream
        (input.drop (lib.inflate stream input room).consumed) rest)
    : Inflates lib room stream input ((lib.inflate stream input room).output ++ rest)

structure Documented (lib : Zlib) : Prop where
  inflates : ∀ file content bytes, lib.Wrote file content → lib.gzclose file = some bytes →
    ∀ room, 0 < room → lib.Inflates room lib.inflateInit bytes content

end Zlib

inductive EndDirective where
  | continue
  | end
  deriving DecidableEq

inductive ContentSize where
  | error
  | unknown
  | known (size : Nat)
  deriving DecidableEq

structure Streamed (σ : Type) where
  ret : Nat
  consumed : Nat
  output : List UInt8
  cctx : σ

/--
The calls give `none` if they return an error.
-/
structure Zstd where
  CCtx : Type
  createCCtx : Option CCtx
  setCompressionLevel : CCtx → Int → CCtx
  cStreamInSize : Nat
  cStreamOutSize : Nat
  compressStream2 : CCtx → List UInt8 → Nat → EndDirective → Option (Streamed CCtx)
  getFrameContentSize : List UInt8 → ContentSize
  decompress : Nat → List UInt8 → Option (List UInt8)

namespace Zstd

/--
The calls for one frame: the directive and the input of the first one, the content consumed, what
was written, and whether the frame is complete.
-/
inductive Streams (lib : Zstd)
    : Option (EndDirective × List UInt8) → List UInt8 → List UInt8 → Bool → lib.CCtx → Prop where
  | create {cctx : lib.CCtx} {level : Int} (hcreate : lib.createCCtx = some cctx)
    : Streams lib none [] [] false (lib.setCompressionLevel cctx level)
  | compressStream2 {first : Option (EndDirective × List UInt8)} {content bytes input : List UInt8}
      {cctx : lib.CCtx} {room : Nat} {directive : EndDirective} {result : Streamed lib.CCtx}
      (hstreams : Streams lib first content bytes false cctx)
      (hcall : lib.compressStream2 cctx input room directive = some result)
    : Streams lib (first.or (some (directive, input))) (content ++ input.take result.consumed)
        (bytes ++ result.output)
        (directive == .end && result.ret == 0 && (input.drop result.consumed).isEmpty) result.cctx

structure Documented (lib : Zstd) : Prop where
  decompress : ∀ first content bytes cctx, lib.Streams first content bytes true cctx →
    ∀ room, content.length ≤ room → lib.decompress room bytes = some content
  declared : ∀ content bytes cctx, lib.Streams (some (.end, content)) content bytes true cctx →
    lib.getFrameContentSize bytes = .known content.length
  undeclared : ∀ input content bytes cctx,
    lib.Streams (some (.continue, input)) content bytes true cctx →
    lib.getFrameContentSize bytes = .unknown

structure Progresses (lib : Zstd) : Prop where
  chunk : 0 < lib.cStreamInSize
  progress : ∃ pending : lib.CCtx → Nat, ∀ cctx input directive result,
    (directive = .end ∨ input ≠ []) →
    lib.compressStream2 cctx input lib.cStreamOutSize directive = some result →
    directive = .end ∧ result.ret = 0 ∧ input.drop result.consumed = [] ∨
      (input.drop result.consumed).length < input.length ∨ pending result.cctx < pending cctx

end Zstd

structure Libraries where
  zlib : Zlib
  zstd : Zstd

structure Libraries.Documented (libs : Libraries) : Prop where
  zlib : libs.zlib.Documented
  zstd : libs.zstd.Documented

open FileLogger (Name Dir CompressType gzSuffix zstSuffix tmpSuffix)

/--
The calls that fail. Writes are named by the number of bytes written before.
-/
structure Faults where
  openSource : Bool
  openTarget : Bool
  write : Nat → Bool
  flush : Bool
  rename : Bool

inductive Outcome (α : Type) where
  | running
  | failed
  | done (result : α)
  deriving DecidableEq

def clampLevel (v lo hi : Int) : Int :=
  if v < lo then
    lo
  else if hi < v then
    hi
  else
    v

def gzipBufferSize : Nat :=
  256 * 1024

def writeGzip (lib : Zlib) (fuel : Nat) (out : lib.GzFile) (content : List UInt8)
    : Outcome lib.GzFile :=
  match fuel with
  | 0 => .running
  | fuel + 1 =>
    let buf := content.take gzipBufferSize
    if buf.isEmpty then
      .done out
    else
      let (written, out) := lib.gzwrite out buf
      if written = 0 then
        .failed
      else if buf.length < gzipBufferSize then
        .done out
      else
        writeGzip lib fuel out (content.drop gzipBufferSize)

def compressFileGzip (lib : Zlib) (faults : Faults) (fuel : Nat) (content : List UInt8) (level : Int)
    : Outcome (List UInt8) :=
  if faults.openSource then
    .failed
  else
    match lib.gzopen (clampLevel level 1 9) with
    | none => .failed
    | some out =>
      match writeGzip lib fuel out content with
      | .running => .running
      | .failed => .failed
      | .done out =>
        match lib.gzclose out with
        | none => .failed
        | some bytes => .done bytes

inductive Chunk (lib : Zstd) where
  | running
  | failed
  | next (cctx : lib.CCtx) (bytes : List UInt8)
  | done (bytes : List UInt8)

def streamChunk (lib : Zstd) (faults : Faults) (last : Bool) (fuel : Nat) (cctx : lib.CCtx)
    (zin bytes : List UInt8) : Chunk lib :=
  match fuel with
  | 0 => .running
  | fuel + 1 =>
    if zin.isEmpty && !last then
      .next cctx bytes
    else
      match lib.compressStream2 cctx zin lib.cStreamOutSize (if last then .end else .continue) with
      | none => .failed
      | some result =>
        if faults.write bytes.length then
          .failed
        else
          let zin := zin.drop result.consumed
          let bytes := bytes ++ result.output
          if last && result.ret == 0 && zin.isEmpty then
            .done bytes
          else if !last && zin.isEmpty then
            .next result.cctx bytes
          else
            streamChunk lib faults last fuel result.cctx zin bytes

/--
The end of the file is noticed by the first read that does not fill the buffer.
-/
def streamFile (lib : Zstd) (faults : Faults) (fuel : Nat) (cctx : lib.CCtx)
    (content bytes : List UInt8) : Outcome (List UInt8) :=
  match fuel with
  | 0 => .running
  | fuel + 1 =>
    let inBuf := content.take lib.cStreamInSize
    let last := decide (inBuf.length < lib.cStreamInSize)
    match streamChunk lib faults last (fuel + 1) cctx inBuf bytes with
    | .running => .running
    | .failed => .failed
    | .next cctx bytes => streamFile lib faults fuel cctx (content.drop lib.cStreamInSize) bytes
    | .done bytes => if faults.flush then .failed else .done bytes

def compressFileZstd (lib : Zstd) (faults : Faults) (fuel : Nat) (content : List UInt8) (level : Int)
    : Outcome (List UInt8) :=
  if faults.openSource || faults.openTarget then
    .failed
  else
    match lib.createCCtx with
    | none => .failed
    | some cctx =>
      streamFile lib faults fuel (lib.setCompressionLevel cctx (clampLevel level 1 19)) content []

section

variable (libs : Libraries) (faults : Faults) (fuel : Nat) (type : CompressType)

def archive (source : Option (List UInt8)) (level : Int) : Outcome (List UInt8) :=
  match source with
  | none => .failed
  | some content =>
    match type with
    | .gzip => compressFileGzip libs.zlib faults fuel content level
    | _ => compressFileZstd libs.zstd faults fuel content level

def compressFile (src : Name)
    (level : Int) (externalCmd : Name → Int → Dir → Bool × Dir) (dir : Dir)
    : Option (Bool × Dir) :=
  match type with
  | .none => some (true, dir)
  | .externalCmd => some (externalCmd src level dir)
  | .gzip | .zstd =>
    let dst := src ++ type.suffix
    let tmp := dst ++ tmpSuffix
    match archive libs faults fuel type (dir.lookup src) level with
    | .running => none
    | .failed => some (false, dir.remove tmp)
    | .done bytes =>
      if faults.rename then
        some (false, dir.remove tmp)
      else
        match Directory.rename (dir.insert tmp bytes) tmp dst with
        | none => some (false, dir.remove tmp)
        | some dir => some (true, dir.remove src)

end

def inflateBufferSize : Nat :=
  32768

def inflateLoop (lib : Zlib) (fuel : Nat) (stream : lib.Stream) (input output : List UInt8)
    : Option (Bool × List UInt8) :=
  match fuel with
  | 0 => none
  | fuel + 1 =>
    let result := lib.inflate stream input inflateBufferSize
    match result.ret with
    | .error => some (false, [])
    | .ok =>
      if result.consumed = 0 ∧ result.output = [] then
        some (false, [])
      else
        inflateLoop lib fuel result.stream (input.drop result.consumed) (output ++ result.output)
    | .streamEnd => some (true, output ++ result.output)

/--
The size of the input is cast to an `uInt` of 32 bits.
-/
def decompressStringGzip (lib : Zlib) (fuel : Nat) (input : List UInt8)
    : Option (Bool × List UInt8) :=
  inflateLoop lib fuel lib.inflateInit (input.take (input.length % 2 ^ 32)) []

def decompressStringZstd (lib : Zstd) (input : List UInt8) : Bool × List UInt8 :=
  match lib.getFrameContentSize input with
  | .error | .unknown => (false, [])
  | .known dSize =>
    match lib.decompress dSize input with
    | none => (false, [])
    | some output => (true, output)

def decompressStringBySuffix (libs : Libraries) (fuel : Nat) (filename : Name) (input : List UInt8)
    : Option (Bool × List UInt8) :=
  if gzSuffix.isSuffixOf filename then
    decompressStringGzip libs.zlib fuel input
  else if zstSuffix.isSuffixOf filename then
    some (decompressStringZstd libs.zstd input)
  else
    some (false, [])

open FileLogger (Name Dir CompressType tmpSuffix)

structure Source where
  delivered : List UInt8
  error : Bool
  deriving DecidableEq

/--
`fail` is `failbit` or `badbit`.
-/
structure Ifstream where
  source : Source
  eof : Bool := false
  fail : Bool := false

def Ifstream.read (s : Ifstream) (n : Nat) : List UInt8 × Ifstream :=
  if s.fail then
    ([], s)
  else
    let buf := s.source.delivered.take n
    (buf, {
      source := { s.source with delivered := s.source.delivered.drop n }
      eof := decide (buf.length < n) && !s.source.error
      fail := decide (buf.length < n)
    })

/--
If the target of zstd is not closed without an error, only `close` bytes of it are stored, which its
destructor does not report.
-/
structure StreamFaults extends Faults where
  close : Option Nat

def StreamFaults.stored (faults : StreamFaults) (bytes : List UInt8) : List UInt8 :=
  match faults.close with
  | none => bytes
  | some n => bytes.take n

namespace Source

def writeGzip (lib : Zlib) (fuel : Nat) (out : lib.GzFile) (s : Ifstream) : Outcome lib.GzFile :=
  if s.fail then
    .done out
  else
    match fuel with
    | 0 => .running
    | fuel + 1 =>
      let (buf, s) := s.read gzipBufferSize
      if buf.isEmpty then
        writeGzip lib fuel out s
      else
        let (written, out) := lib.gzwrite out buf
        if written = 0 then
          .failed
        else
          writeGzip lib fuel out s

def compressFileGzip (lib : Zlib) (faults : StreamFaults) (fuel : Nat) (source : Source) (level : Int)
    : Outcome (List UInt8) :=
  if faults.openSource then
    .failed
  else
    match lib.gzopen (clampLevel level 1 9) with
    | none => .failed
    | some out =>
      match writeGzip lib fuel out { source := source } with
      | .running => .running
      | .failed => .failed
      | .done out =>
        match lib.gzclose out with
        | none => .failed
        | some bytes => .done bytes

def streamFile (lib : Zstd) (faults : StreamFaults) (fuel : Nat) (cctx : lib.CCtx) (s : Ifstream)
    (bytes : List UInt8) : Outcome (List UInt8) :=
  match fuel with
  | 0 => .running
  | fuel + 1 =>
    let (inBuf, s) := s.read lib.cStreamInSize
    match streamChunk lib faults.toFaults s.eof (fuel + 1) cctx inBuf bytes with
    | .running => .running
    | .failed => .failed
    | .next cctx bytes => streamFile lib faults fuel cctx s bytes
    | .done bytes => if faults.flush then .failed else .done (faults.stored bytes)

def compressFileZstd (lib : Zstd) (faults : StreamFaults) (fuel : Nat) (source : Source) (level : Int)
    : Outcome (List UInt8) :=
  if faults.openSource || faults.openTarget then
    .failed
  else
    match lib.createCCtx with
    | none => .failed
    | some cctx =>
      streamFile lib faults fuel (lib.setCompressionLevel cctx (clampLevel level 1 19))
        { source := source } []

variable (libs : Libraries) (faults : StreamFaults) (fuel : Nat) (type : CompressType)

def archive (source : Option Source) (level : Int) : Outcome (List UInt8) :=
  match source with
  | none => .failed
  | some source =>
    match type with
    | .gzip => compressFileGzip libs.zlib faults fuel source level
    | _ => compressFileZstd libs.zstd faults fuel source level

def compressFile (src : Name) (level : Int) (externalCmd : Name → Int → Dir → Bool × Dir)
    (read : List UInt8 → Source) (dir : Dir)
    : Option (Bool × Dir) :=
  match type with
  | .none => some (true, dir)
  | .externalCmd => some (externalCmd src level dir)
  | .gzip | .zstd =>
    let dst := src ++ type.suffix
    let tmp := dst ++ tmpSuffix
    match archive libs faults fuel type ((dir.lookup src).map read) level with
    | .running => none
    | .failed => some (false, dir.remove tmp)
    | .done bytes =>
      if faults.rename then
        some (false, dir.remove tmp)
      else
        match Directory.rename (dir.insert tmp bytes) tmp dst with
        | none => some (false, dir.remove tmp)
        | some dir => some (true, dir.remove src)

end Source
end LogIt.Compression
