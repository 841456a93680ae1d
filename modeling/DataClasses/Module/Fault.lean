import DataClasses.Archive.Basic
import DataClasses.Failure
import DataClasses.Json.Fault

/-!
# What can be wrong with a module

Why a module cannot be written or opened, and how a caller sees it.
-/

set_option autoImplicit false

namespace DataClasses

inductive ManifestFault where
  | noFormatVersion
  | unknownFormatVersion (version : String)
  | noName
  | noVersion
  | noMetadata
  | otherChecksum (path : String)
  deriving DecidableEq, Repr

def ManifestFault.message : ManifestFault → String
  | noFormatVersion => "module_version is required"
  | unknownFormatVersion version => "unsupported module_version " ++ version
  | noName => "assembly.name is required"
  | noVersion => "assembly.version is required"
  | noMetadata => "metadata.json must be listed in files"
  | otherChecksum path => "file " ++ path ++ ": checksum must be sha256"

inductive ModuleFault where
  | file (fault : FileFault)
  | json (fault : Json.Fault)
  | archive (fault : ArchiveFault)
  | invalidManifest (fault : ManifestFault)
  | checksumMismatch (path expected actual : String)
  | noManifest
  | missingEntry (path : String)
  deriving DecidableEq, Repr

namespace ModuleFault

def message : ModuleFault → String
  | file fault => "I/O error: " ++ fault.message
  | json fault => "JSON error: " ++ fault.message
  | archive fault => "Archive error: " ++ fault.message
  | invalidManifest fault => "Invalid manifest: " ++ fault.message
  | checksumMismatch path expected actual =>
    "Checksum mismatch for " ++ path ++ ": expected " ++ expected ++ ", got " ++ actual
  | noManifest => "Missing required file: manifest.json not found in module"
  | missingEntry path => "Missing required file: File not found in module: " ++ path

def toFailure : ModuleFault → Failure
  | file fault => .file fault
  | fault => .moduleFault fault.message

end ModuleFault
end DataClasses
