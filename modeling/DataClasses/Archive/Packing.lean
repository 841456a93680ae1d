import DataClasses.Archive.Bzip2
import DataClasses.Archive.Inflate
import DataClasses.Archive.Xz
import DataClasses.Archive.Zstd.Frame

/-!
# Methods of packing

The methods by which the entries of an archive may be packed, and what is told of data that is
not packed so.
-/

set_option autoImplicit false

namespace DataClasses

inductive Packing where
  | plain
  | deflated
  | deflatedWide
  | bzip2
  | lzma
  | xz
  | zstd
  deriving DecidableEq, Repr

inductive PackingFlaw where
  | noDeflated
  | noDeflatedWide
  | noBzip2Head
  | noBzip2
  | bzip2CutOff
  | lzmaHeadLength (length : Nat)
  | noLzma
  | noXzHead
  | noXz
  | noZstdHead
  | noZstd
  | zstdCutOff
  | cutOff
  deriving DecidableEq, Repr

def PackingFlaw.message : PackingFlaw → String
  | noDeflated => "corrupt deflate stream"
  | noDeflatedWide => "invalid deflate64"
  | noBzip2Head => "bzip2: bz2 header missing"
  | noBzip2 => "bzip2: invalid data"
  | bzip2CutOff => "decompression not finished but EOF reached"
  | lzmaHeadLength length => "unexpected LZMA properties size of " ++ toString length
  | noLzma => "LZMA data is corrupt"
  | noXzHead => "invalid XZ magic bytes"
  | noXz => "XZ data is corrupt"
  | noZstdHead => "Unknown frame descriptor"
  | noZstd => "Data corruption detected"
  | zstdCutOff => "incomplete frame"
  | cutOff => "failed to fill whole buffer"

namespace Packing

open Unpacking

def ofNumber? : Nat → Option Packing
  | 0 => some plain
  | 8 => some deflated
  | 9 => some deflatedWide
  | 12 => some bzip2
  | 14 => some lzma
  | 93 => some zstd
  | 95 => some xz
  | _ => none

def bzip2Flaw : Halt → PackingFlaw
  | .foreign => .noBzip2Head
  | .corrupt => .noBzip2
  | .dataEnds _ => .bzip2CutOff

def lzmaFlaw : Lzma.Flaw → PackingFlaw
  | .headLength length => .lzmaHeadLength length
  | .stop (.dataEnds _) => .cutOff
  | .stop _ => .noLzma

def xzFlaw : Halt → PackingFlaw
  | .foreign => .noXzHead
  | .corrupt => .noXz
  | .dataEnds _ => .cutOff

def zstdFlaw : Halt → PackingFlaw
  | .foreign => .noZstdHead
  | .corrupt => .noZstd
  | .dataEnds _ => .zstdCutOff

def inflate (pieces : Inflate.Pieces) (data : ByteArray) (flaw : PackingFlaw) :
    Except PackingFlaw ByteArray :=
  match Inflate.unpack? pieces data with
  | some content => .ok content
  | none => .error flaw

def unpack (method : Packing) (size : Nat) (data : ByteArray) : Except PackingFlaw ByteArray :=
  match method with
  | plain => .ok data
  | deflated => inflate .usual data .noDeflated
  | deflatedWide => inflate .wide data .noDeflatedWide
  | bzip2 => (Bzip2.unpack data).mapError bzip2Flaw
  | lzma => (Lzma.unpack size data).mapError lzmaFlaw
  | xz => (Xz.unpack data).mapError xzFlaw
  | zstd => (Zstd.unpack data).mapError zstdFlaw

end Packing
end DataClasses
