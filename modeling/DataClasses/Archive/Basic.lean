import DataClasses.Entries

/-!
# Archives

Named contents in the order of their writing, and what can be wrong with an archive: it is no good by
its form, it asks for what is not supported, or the file cannot be read.
-/

set_option autoImplicit false

namespace DataClasses

inductive ArchiveFlaw where
  | noEnd
  | endCutOff
  | commentCutOff
  | listingTooFar
  | noListing
  | entryCutOff
  | noEntry
  | fieldCutOff
  | wideEndTooFar
  | noWideEnd
  | wideEndCutOff
  | wideEndTooShort
  | wideEndTooLong
  | wideEndOnSeveralDisks
  | wideEndOnOtherDisk
  | wideEndLength
  | wideEndCount
  | moreHereThanAll
  | newerThanWriter
  | listingOutOfRange
  | entryOutOfRange
  | extraHeadCutOff
  | extraCutOff
  | wideNumberCutOff
  | wideNumberLength
  | sealCutOff
  | sealVendor
  | sealVersion
  | sealStrength
  | noSeal
  | otherNameTooShort
  | otherNameChecksum
  | otherNameNotText
  | repeatedName (name : String)
  deriving DecidableEq, Repr

def ArchiveFlaw.message : ArchiveFlaw → String
  | noEnd => "Could not find EOCD"
  | endCutOff => "Unexpected end of zip::spec::Zip32CDEBlock"
  | commentCutOff => "EOCD comment exceeds file boundary"
  | listingTooFar => "Invalid CDFH offset in EOCD"
  | noListing => "No CDFH found"
  | entryCutOff => "Unexpected end of zip::types::ZipCentralEntryBlock"
  | noEntry => "Invalid Central Directory header"
  | fieldCutOff => "Variable-length field extends beyond file boundary"
  | wideEndTooFar => "Invalid EOCD64 Locator CD offset"
  | noWideEnd => "Could not find EOCD64"
  | wideEndCutOff => "Unexpected end of zip::spec::Zip64CDEBlock"
  | wideEndTooShort => "Low EOCD64 record size"
  | wideEndTooLong => "EOCD64 extends beyond EOCD64 locator"
  | wideEndOnSeveralDisks => "Multi-disk ZIP files are not supported"
  | wideEndOnOtherDisk => "Invalid EOCD64: inconsistency with Locator data"
  | wideEndLength => "Invalid EOCD64: inconsistent length"
  | wideEndCount => "Invalid EOCD64: inconsistent number of files"
  | moreHereThanAll => "ZIP64 footer indicates more files on this disk than in the whole archive"
  | newerThanWriter =>
    "ZIP64 footer indicates a new version is needed to extract this archive than the version " ++
      "that wrote it"
  | listingOutOfRange => "Invalid central directory size or offset"
  | entryOutOfRange => "Archive header is too large"
  | extraHeadCutOff => "Extra field header truncated"
  | extraCutOff => "Extra field content truncated"
  | wideNumberCutOff => "ZIP64 extra field truncated"
  | wideNumberLength => "ZIP64 extra-data field is the wrong length"
  | sealCutOff => "AES extra field truncated"
  | sealVendor => "Invalid AES vendor"
  | sealVersion => "Invalid AES vendor version"
  | sealStrength => "Invalid AES encryption strength"
  | noSeal => "AES encryption without AES extra data field"
  | otherNameTooShort => "Unicode extra field is too small"
  | otherNameChecksum => "CRC32 checksum failed on Unicode extra field"
  | otherNameNotText => "Invalid UTF-8"
  | repeatedName name => "Duplicate filename: " ++ name

inductive ArchiveNeed where
  | severalDisks
  | sealLength
  | timesLength
  | timesTag
  | timesSize
  deriving DecidableEq, Repr

def ArchiveNeed.message : ArchiveNeed → String
  | severalDisks => "Support for multi-disk files is not implemented"
  | sealLength => "AES extra data field has an unsupported length"
  | timesLength => "NTFS extra field has an unsupported length"
  | timesTag => "NTFS extra field has an unsupported attribute tag"
  | timesSize => "NTFS extra field has an unsupported attribute size"

inductive ArchiveFault where
  | invalid (flaw : ArchiveFlaw)
  | unsupported (need : ArchiveNeed)
  | file (message : String)
  deriving DecidableEq, Repr

namespace ArchiveFault

def message : ArchiveFault → String
  | invalid flaw => "invalid Zip archive: " ++ flaw.message
  | unsupported need => "unsupported Zip archive: " ++ need.message
  | file message => "i/o error: " ++ message

def tooShort : ArchiveFault := file "failed to fill whole buffer"

end ArchiveFault

abbrev Archive := Entries ByteArray

namespace Archive

def repeated? : List String → List String → Option String
  | _, [] => none
  | before, name :: rest =>
    if before.contains name then some name else repeated? (name :: before) rest

def ofEntries (entries : List (String × ByteArray)) : Except ArchiveFault Archive :=
  match repeated? [] (entries.map (·.1)) with
  | some name => .error (.invalid (.repeatedName name))
  | none => .ok entries

end Archive
end DataClasses
