import DataClasses.Checksum
import DataClasses.Json.Printer
import DataClasses.Module.Fault
import DataClasses.Module.Options
import DataClasses.Settings.Shape

/-!
# Manifests

What a module says about itself: its name, what it was made for and how, the libraries it
refers to, and the checksums of all its other entries.
-/

set_option autoImplicit false

namespace DataClasses

namespace Checksum

def mark : String := "sha256:"

def ofBytes (bytes : ByteArray) : String := mark ++ Sha256.hex bytes

def isMarked (checksum : String) : Bool := mark.toList.isPrefixOf checksum.toList

/-- Whether bytes have a recorded checksum, which may be written without the mark. -/
def verifies (bytes : ByteArray) (checksum : String) : Bool :=
  if isMarked checksum then ofBytes bytes == checksum else Sha256.hex bytes == checksum

end Checksum

structure ReferenceEntry where
  name : String
  version : String
  source : String
  deriving DecidableEq, Repr

structure Manifest where
  formatVersion : String
  name : String
  version : String
  runtime : Runtime
  library : JsonLibrary
  options : BuildOptions
  generator : String
  references : List ReferenceEntry
  checksums : Entries String
  deriving DecidableEq, Repr

namespace Manifest

def entryName : String := "manifest.json"
def metadataName : String := "metadata.json"

def currentFormat : String := "1.0"

def moduleVersion : String := "1.0.0.0"

def generatorName : String := "classforge 0.3.0"

def start (name version : String) (runtime : Runtime) (library : JsonLibrary)
    (options : BuildOptions) : Manifest where
  formatVersion := currentFormat
  name := name
  version := version
  runtime := runtime
  library := library
  options := options
  generator := generatorName
  references := []
  checksums := []

def majorPart (version : String) : List Char := version.toList.takeWhile (· != '.')

def fault? (m : Manifest) : Option ManifestFault :=
  if m.formatVersion.isEmpty then some .noFormatVersion
  else if majorPart m.formatVersion != majorPart currentFormat then
    some (.unknownFormatVersion m.formatVersion)
  else if m.name.isEmpty then some .noName
  else if m.version.isEmpty then some .noVersion
  else if !m.checksums.has metadataName then some .noMetadata
  else (m.checksums.find? fun entry => !Checksum.isMarked entry.2).map fun entry =>
    .otherChecksum entry.1

def referenceJson (r : ReferenceEntry) : Json :=
  .obj [("name", .str r.name), ("version", .str r.version), ("source", .str r.source)]

def toJson (m : Manifest) : Json :=
  .obj [("module_version", .str m.formatVersion),
    ("assembly", .obj [("name", .str m.name), ("version", .str m.version)]),
    ("target_framework", .str m.runtime.moniker),
    ("json_library", .str m.library.assemblyName),
    ("options", m.options.toJson),
    ("generator", .str m.generator),
    ("references", .arr (m.references.map referenceJson)),
    ("files", .obj (m.checksums.map fun entry => (entry.1, .obj [("checksum", .str entry.2)])))]

def text (m : Manifest) : String := m.toJson.pretty

def schema : Json.Schema :=
  .record "ModuleManifest"
    [("module_version", .text, none),
     ("assembly", .record "AssemblyInfo" [("name", .text, none), ("version", .text, none)], none),
     ("target_framework", Settings.runtimeSchema, none),
     ("json_library", Settings.librarySchema, none),
     ("options", BuildOptions.schema, none),
     ("generator", .text, none),
     ("references", .list (.record "ReferenceInfo"
        [("name", .text, none), ("version", .text, none), ("source", .text, none)]),
      some (.arr [])),
     ("files", .dictionary (.record "FileInfo" [("checksum", .text, none)]), some (.obj []))]

def referenceOfJson (v : Json) : ReferenceEntry where
  name := (v.member "name").text
  version := (v.member "version").text
  source := (v.member "source").text

def ofJson (v : Json) : Manifest where
  formatVersion := (v.member "module_version").text
  name := ((v.member "assembly").member "name").text
  version := ((v.member "assembly").member "version").text
  runtime := (Runtime.ofMoniker? (v.member "target_framework").text).getD .netStandard21
  library := (JsonLibrary.ofName? (v.member "json_library").text).getD .systemText
  options := .ofJson (v.member "options")
  generator := (v.member "generator").text
  references := (v.member "references").items.map referenceOfJson
  checksums := (v.member "files").entries.map fun entry =>
    (entry.1, (entry.2.member "checksum").text)

def ofText (text : String) : Except ModuleFault Manifest :=
  match schema.parse text with
  | .ok v => .ok (ofJson v)
  | .error fault => .error (.json fault)

end Manifest
end DataClasses
