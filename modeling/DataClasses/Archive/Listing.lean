import DataClasses.Archive.Extra
import DataClasses.Archive.Zip
import DataClasses.Text.Decoded

/-!
# Listings of archives

The listing of an archive file: where it stands, and its entries. The record of its place is
looked for from the end of the file. What stands before the beginning of the archive is passed
over, so all places count from there. If numbers are too wide for the record, there is a
second one with wider numbers before it.
-/

set_option autoImplicit false

namespace DataClasses

/-- Where a listing stands: the place at which the archive begins, that of the first entry, how
many entries there are, and whether all is on one disk. -/
structure ListingPlace where
  origin : Nat
  start : Nat
  count : Nat
  onOneDisk : Bool

namespace ListingPlace

open Archive

def decode (isUtf8 : Bool) (bytes : List UInt8) : String :=
  if isUtf8 then Text.Repaired.decode bytes else Text.Page437.decode bytes

def entryAt (file : ByteArray) (origin place : Nat) : Except ArchiveFault (ListedEntry × Nat) := do
  if file.size < place + 46 then throw (.invalid .entryCutOff)
  if numberAt file place 4 != listingSignature then throw (.invalid .noEntry)
  let flags := numberAt file (place + 8) 2
  let nameEnd := place + 46 + numberAt file (place + 28) 2
  let extraEnd := nameEnd + numberAt file (place + 30) 2
  let commentEnd := extraEnd + numberAt file (place + 32) 2
  if file.size < commentEnd then throw (.invalid .fieldCutOff)
  let bytes (start stop : Nat) : List UInt8 := (file.extract start stop).data.toList
  let rawName := bytes (place + 46) nameEnd
  let e : ListedEntry :=
    { rawName
      name := decode (flags.testBit 11) rawName
      comment := decode (flags.testBit 11) (bytes extraEnd commentEnd)
      isLocked := flags.testBit 0
      method := numberAt file (place + 10) 2
      checksum := numberAt file (place + 16) 4
      size := numberAt file (place + 24) 4
      packedSize := numberAt file (place + 20) 4
      header := numberAt file (place + 42) 4 }
  let e ← e.extended (bytes nameEnd extraEnd)
  if 1 <<< 64 ≤ e.header + origin then throw (.invalid .entryOutOfRange)
  pure ({ e with header := e.header + origin }, commentEnd)

def entriesFrom (file : ByteArray) (origin : Nat) :
    Nat → Nat → Except ArchiveFault (List ListedEntry)
  | 0, _ => .ok []
  | count + 1, place => do
    let (e, next) ← entryAt file origin place
    let rest ← entriesFrom file origin count next
    pure (e :: rest)

def entries (file : ByteArray) (l : ListingPlace) : Except ArchiveFault (List ListedEntry) :=
  if 1 <<< 64 ≤ l.start then .error (.invalid .listingOutOfRange)
  else if !l.onOneDisk then .error (.unsupported .severalDisks)
  else if 1 <<< 63 ≤ l.start then .error (.file "Invalid argument (os error 22)")
  else entriesFrom file l.origin l.count l.start

def signaturePlaces (file : ByteArray) (signature first stop : Nat) : List Nat :=
  ((List.range (stop - first)).map (first + ·)).filter fun i => numberAt file i 4 == signature

/-- What is wrong with a wide record at a place, if something is. `stop` is the place of the
note that leads to it. -/
def wideFlaw? (file : ByteArray) (place stop : Nat) : Option ArchiveFlaw :=
  let length := numberAt file (place + 4) 8
  if file.size < place + 56 then some .wideEndCutOff
  else if length < 44 then some .wideEndTooShort
  else if stop - place < length + 12 then some .wideEndTooLong
  else if numberAt file (place + 20) 4 != numberAt file (stop + 4) 4 then some .wideEndOnOtherDisk
  else if length + 12 != stop - place then some .wideEndLength
  else if place < 46 * numberAt file (place + 32) 8 + numberAt file (place + 48) 8 then
    some .wideEndCount
  else none

def firstWide (file : ByteArray) (stop : Nat) :
    Option ArchiveFlaw → List Nat → Except ArchiveFlaw Nat
  | flaw, [] => .error (flaw.getD .noWideEnd)
  | _, place :: rest =>
    match wideFlaw? file place stop with
    | none => .ok place
    | some flaw => firstWide file stop (some flaw) rest

def ofWide (file : ByteArray) (place noted : Nat) : Except ArchiveFault ListingPlace := do
  let count := numberAt file (place + 32) 8
  if count < numberAt file (place + 24) 8 then throw (.invalid .moreHereThanAll)
  if numberAt file (place + 12) 2 < numberAt file (place + 14) 2 then
    throw (.invalid .newerThanWriter)
  let origin := place - noted
  pure
    { origin, count
      start := numberAt file (place + 48) 8 + origin
      onOneDisk := numberAt file (place + 16) 4 == numberAt file (place + 20) 4 }

def widePlace (file : ByteArray) (note : Nat) : Except ArchiveFlaw (Nat × Nat) := do
  let noted := numberAt file (note + 8) 8
  if note ≤ noted then throw .wideEndTooFar
  if 1 < numberAt file (note + 16) 4 then throw .wideEndOnSeveralDisks
  let place ← firstWide file note none (signaturePlaces file wideEndSignature noted note)
  pure (place, noted)

def unreadable? (file : ByteArray) (place : Nat) : Option ArchiveFlaw :=
  if file.size < place + 22 then some .endCutOff
  else if file.size < place + 22 + numberAt file (place + 20) 2 then some .commentCutOff
  else none

def note? (file : ByteArray) (place : Nat) : Option Nat :=
  let isFull := numberAt file (place + 10) 2 == 0xffff || numberAt file (place + 16) 4 == 0xffffffff
  if isFull && 20 ≤ place && numberAt file (place - 20) 4 == wideEndPlaceSignature then
    some (place - 20)
  else none

def ofNarrow (file : ByteArray) (place : Nat) : Except ArchiveFlaw ListingPlace :=
  let noted := numberAt file (place + 16) 4
  let withOrigin (origin : Nat) : ListingPlace :=
    { origin
      start := noted + origin
      count := numberAt file (place + 8) 2
      onOneDisk := numberAt file (place + 4) 2 == numberAt file (place + 6) 2 }
  if numberAt file (place + 10) 2 == 0 then .ok (withOrigin (place - noted))
  else if place ≤ noted then .error .listingTooFar
  else
    match signaturePlaces file listingSignature noted place with
    | first :: _ => .ok (withOrigin (first - noted))
    | [] => .error .noListing

def follow (file : ByteArray) (place : Nat) :
    Except ArchiveFlaw (Except ArchiveFault (List ListedEntry)) :=
  match note? file place with
  | some note => do
    let (wide, noted) ← widePlace file note
    pure ((ofWide file wide noted).bind (entries file))
  | none => (ofNarrow file place).map (entries file)

/-- Looks for a record before a place. What is told when none is good is the fault of the last
listing, or else that of the last record; a record that cannot be read is told when nothing
else is. -/
def search (file : ByteArray) :
    Nat → Option ArchiveFault → Option ArchiveFlaw → Except ArchiveFault (List ListedEntry)
  | 0, listing, record => .error (listing.getD (.invalid (record.getD .noEnd)))
  | place + 1, listing, record =>
    if numberAt file place 4 != endSignature then search file place listing record
    else
      match unreadable? file place with
      | some flaw => search file place listing (record.or (some flaw))
      | none =>
        match follow file place with
        | .error flaw => search file place listing (some flaw)
        | .ok (.error fault) => search file place (some fault) record
        | .ok (.ok entries) => .ok entries

def entriesOf (file : ByteArray) : Except ArchiveFault (List ListedEntry) :=
  search file file.size none none

end ListingPlace
end DataClasses
