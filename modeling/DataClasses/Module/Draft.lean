import DataClasses.Files.Tree
import DataClasses.Module.Manifest
import DataClasses.TypeTable.Data

/-!
# Modules in the making

A manifest with the entries it lists. The archive of a module begins with the manifest and
has the entries in the order in which they were added.
-/

set_option autoImplicit false

namespace DataClasses

structure ModuleDraft where
  manifest : Manifest
  entries : List (String × ByteArray) := []

namespace ModuleDraft

def sourceFolder : String := "source/"

def add (d : ModuleDraft) (path : String) (content : ByteArray) : ModuleDraft where
  manifest :=
    { d.manifest with
      checksums := d.manifest.checksums.put path (Checksum.ofBytes content) }
  entries := d.entries ++ [(path, content)]

def addTypes (d : ModuleDraft) (table : TypeTable) : ModuleDraft :=
  d.add Manifest.metadataName table.toJson.pretty.toUTF8

def addSource (d : ModuleDraft) (fileName source : String) : ModuleDraft :=
  d.add (sourceFolder ++ fileName) source.toUTF8

def archive (d : ModuleDraft) : Except ModuleFault Archive :=
  match d.manifest.fault? with
  | some fault => .error (.invalidManifest fault)
  | none =>
    match Archive.ofEntries ((Manifest.entryName, d.manifest.text.toUTF8) :: d.entries) with
    | .error fault => .error (.archive fault)
    | .ok archive => .ok archive

def write (d : ModuleDraft) (files : Files) (path : String) : Except ModuleFault Unit × Files :=
  match d.archive with
  | .error fault => (.error fault, files)
  | .ok archive =>
    match files.writeDeep path (.packed archive) with
    | (.error fault, files) => (.error (.file fault), files)
    | (.ok (), files) => (.ok (), files)

end ModuleDraft
end DataClasses
