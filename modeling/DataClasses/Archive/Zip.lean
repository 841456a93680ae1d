import DataClasses.Archive.Basic
import DataClasses.Checksum

/-!
# Archive files

Archives as bytes: each content behind a header of its own, then a listing that repeats the
headers and says where they stand, and at the end a record of where the listing stands.
-/

set_option autoImplicit false

namespace DataClasses.Archive

/-- The bytes of a number, the least first. -/
def littleEndian : Nat → Nat → List UInt8
  | 0, _ => []
  | width + 1, n => n.toUInt8 :: littleEndian width (n / 256)

/-- The number in some bytes from an offset on, the least first. What is behind the end counts
as zero. -/
def numberAt (file : ByteArray) (offset : Nat) : Nat → Nat
  | 0 => 0
  | width + 1 => (file[offset]?.getD 0).toNat + 256 * numberAt file (offset + 1) width

def localSignature : Nat := 0x04034b50
def listingSignature : Nat := 0x02014b50
def endSignature : Nat := 0x06054b50
def wideEndSignature : Nat := 0x06064b50
def wideEndPlaceSignature : Nat := 0x07064b50

/-- What the two headers of an entry have in common: the version and method that reading needs,
a fixed date, the checksum and the sizes. Names are in UTF-8. -/
def commonHeader (name content : ByteArray) : List UInt8 :=
  littleEndian 2 20 ++ littleEndian 2 0x800 ++ littleEndian 2 0 ++ littleEndian 2 0 ++
    littleEndian 2 0x21 ++ littleEndian 4 (Crc32.ofBytes content).toNat ++
    littleEndian 4 content.size ++ littleEndian 4 content.size ++
    littleEndian 2 name.size ++ littleEndian 2 0

def localEntry (name content : ByteArray) : List UInt8 :=
  littleEndian 4 localSignature ++ commonHeader name content ++ name.data.toList ++
    content.data.toList

def listedEntry (name content : ByteArray) (offset : Nat) : List UInt8 :=
  littleEndian 4 listingSignature ++ littleEndian 2 0x0314 ++ commonHeader name content ++
    littleEndian 2 0 ++ littleEndian 2 0 ++ littleEndian 2 0 ++
    littleEndian 4 (0o100644 * 65536) ++ littleEndian 4 offset ++ name.data.toList

def listing : Nat → Archive → List UInt8
  | _, [] => []
  | offset, (name, content) :: rest =>
    listedEntry name.toUTF8 content offset ++
      listing (offset + (localEntry name.toUTF8 content).length) rest

def toBytes (archive : Archive) : ByteArray :=
  let contents := archive.flatMap fun entry => localEntry entry.1.toUTF8 entry.2
  let listed := listing 0 archive
  let count := littleEndian 2 archive.length
  (contents ++ listed ++ littleEndian 4 endSignature ++ littleEndian 4 0 ++ count ++ count ++
    littleEndian 4 listed.length ++ littleEndian 4 contents.length ++
    littleEndian 2 0).toByteArray

end DataClasses.Archive
