import DataClasses.Archive.Listing
import DataClasses.Archive.Packing
import DataClasses.Failure

/-!
# Archives as they are read

The entries of an archive file, packed as they stand there. An entry is unpacked when it is asked
for, and what is wrong with it is told only then.
-/

set_option autoImplicit false

namespace DataClasses

/-- An entry that cannot be got at, since it has no header, is locked, or is packed by an unknown
method; or its data with the method, the size and the checksum that are told of it. -/
inductive PackedEntry where
  | closed
  | packed (method : Packing) (data : ByteArray) (size checksum : Nat)

namespace PackedEntry

open Archive

/-- The entry that a listing tells. Its data ends with the file at the latest. -/
def ofListed (file : ByteArray) (e : ListedEntry) : PackedEntry :=
  if e.isLocked || e.isSealed || file.size < e.header + 30 ||
      numberAt file e.header 4 != localSignature then .closed
  else
    let start := e.header + 30 + numberAt file (e.header + 26) 2 + numberAt file (e.header + 28) 2
    let data := file.extract start (min file.size (start + e.packedSize))
    match Packing.ofNumber? e.method with
    | some method => .packed method data e.size e.checksum
    | none => .closed

def ofContent (content : ByteArray) : PackedEntry :=
  .packed .plain content content.size (Crc32.ofBytes content).toNat

inductive Fault where
  | closed
  | file (fault : FileFault)

def unpack : PackedEntry → Except Fault (ByteArray × Nat)
  | closed => .error .closed
  | packed method data size checksum =>
    match method.unpack size data with
    | .ok content => .ok (content, checksum)
    | .error flaw => .error (.file (.other flaw.message))

def verified {α : Type} (content : ByteArray) (checksum : Nat) (value : α) : Except Fault α :=
  if (Crc32.ofBytes content).toNat == checksum then .ok value
  else .error (.file (.other "Invalid checksum"))

def bytes (e : PackedEntry) : Except Fault ByteArray := do
  let (content, checksum) ← e.unpack
  verified content checksum content

/-- The content of an entry as text; that it is text is looked at before its checksum. -/
def text (e : PackedEntry) : Except Fault String := do
  let (content, checksum) ← e.unpack
  match String.fromUTF8? content with
  | some text => verified content checksum text
  | none => .error (.file .notText)

end PackedEntry

abbrev PackedArchive := Entries PackedEntry

namespace PackedArchive

def names (archive : PackedArchive) : List String := archive.map (·.1)

/-- The archive that a file holds. Of several entries of one name it has the last one, at the
place of the first. -/
def ofBytes (file : ByteArray) : Except ArchiveFault PackedArchive :=
  (ListingPlace.entriesOf file).map fun entries =>
    entries.foldl (fun archive e => Entries.put archive e.name (.ofListed file e)) []

def ofArchive (archive : Archive) : PackedArchive :=
  archive.map fun entry => (entry.1, .ofContent entry.2)

end PackedArchive
end DataClasses
