import DataClasses.Module.Draft

/-!
# Opened modules

A module that is opened has a manifest as it should be, and all the entries that this lists,
with the checksums that it records.
-/

set_option autoImplicit false

namespace DataClasses

structure OpenedModule where
  manifest : Manifest
  archive : PackedArchive

namespace OpenedModule

/-- What is told of an entry that cannot be read. One that is closed is as good as missing. -/
def entryFault (missing : ModuleFault) : PackedEntry.Fault → ModuleFault
  | .closed => missing
  | .file fault => .file fault

def readEntry {α : Type} (archive : PackedArchive) (path : String) (missing : ModuleFault)
    (read : PackedEntry → Except PackedEntry.Fault α) : Except ModuleFault α :=
  match archive.get? path with
  | none => .error missing
  | some entry => (read entry).mapError (entryFault missing)

def contentOf (archive : PackedArchive) (path : String) : Except ModuleFault ByteArray :=
  readEntry archive path (.missingEntry path) PackedEntry.bytes

def verify (archive : PackedArchive) : Entries String → Except ModuleFault Unit
  | [] => .ok ()
  | (path, checksum) :: rest => do
    let content ← contentOf archive path
    if Checksum.verifies content checksum then verify archive rest
    else throw (.checksumMismatch path checksum (Checksum.ofBytes content))

def ofArchive (archive : PackedArchive) : Except ModuleFault OpenedModule := do
  let text ← readEntry archive Manifest.entryName .noManifest PackedEntry.text
  let manifest ← Manifest.ofText text
  match manifest.fault? with
  | some fault => throw (.invalidManifest fault)
  | none =>
    verify archive manifest.checksums
    pure ⟨manifest, archive⟩

def load (files : Files) (path : String) : Except ModuleFault OpenedModule :=
  match files.read path with
  | .error .isDirectory => .error (.archive (.file FileFault.isDirectory.message))
  | .error fault => .error (.file fault)
  | .ok content =>
    match content.archive? with
    | .error fault => .error (.archive fault)
    | .ok archive => ofArchive archive

def bytes (m : OpenedModule) (path : String) : Except ModuleFault ByteArray :=
  contentOf m.archive path

def text (m : OpenedModule) (path : String) : Except ModuleFault String :=
  readEntry m.archive path (.missingEntry path) PackedEntry.text

def types (m : OpenedModule) : Except ModuleFault TypeTable := do
  let text ← m.text Manifest.metadataName
  match TypeTable.ofText text with
  | .ok table => pure table
  | .error fault => throw (.json fault)

def firstSource? (m : OpenedModule) : Option String :=
  m.archive.names.find? fun name => ModuleDraft.sourceFolder.toList.isPrefixOf name.toList

def source? (m : OpenedModule) : Except ModuleFault (Option String) :=
  match m.firstSource? with
  | none => .ok none
  | some path => (m.text path).map some

end OpenedModule
end DataClasses
