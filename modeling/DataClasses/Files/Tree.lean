import DataClasses.Archive.Packed
import DataClasses.Failure
import DataClasses.Files.Path

/-!
# File trees

Folders and files as a value. What a file holds is bytes, or the entries of an archive,
which as text is not readable.
-/

set_option autoImplicit false

namespace DataClasses

inductive Content where
  | plain (bytes : ByteArray)
  | packed (archive : Archive)

def Content.ofText (text : String) : Content := .plain text.toUTF8

def Content.text? : Content → Except FileFault String
  | plain bytes =>
    match String.fromUTF8? bytes with
    | some s => .ok s
    | none => .error .notText
  | packed _ => .error .notText

def Content.archive? : Content → Except ArchiveFault PackedArchive
  | plain bytes => PackedArchive.ofBytes bytes
  | packed archive => .ok (.ofArchive archive)

inductive Node where
  | file (content : Content)
  | folder (entries : List (String × Node))

abbrev Files := Entries Node

namespace Files

def find : Files → List String → Except FileFault Node
  | files, [] => .ok (.folder files)
  | files, name :: rest =>
    match Entries.get? files name with
    | none => .error .notFound
    | some (.folder entries) => find entries rest
    | some (.file content) => if rest.isEmpty then .ok (.file content) else .error .notDirectory

def read (files : Files) (path : String) : Except FileFault Content :=
  if path.isEmpty then .error .notFound
  else
    let p := Path.ofText path
    match find files p.names with
    | .error fault => .error fault
    | .ok (.folder _) => .error .isDirectory
    | .ok (.file content) => if p.asFolder then .error .notDirectory else .ok content

def readText (files : Files) (path : String) : Except FileFault String :=
  (read files path).bind Content.text?

def exists? (files : Files) (path : String) : Bool :=
  !path.isEmpty &&
    match find files (Path.ofText path).names with
    | .error _ => false
    | .ok (.folder _) => true
    | .ok (.file _) => !(Path.ofText path).asFolder

/-- Puts a file into a folder that is there. No file can be put where only a folder can
be. -/
def place (content : Content) (asFolder : Bool) : Files → List String → Except FileFault Files
  | _, [] => .error .isDirectory
  | files, [name] =>
    match Entries.get? files name with
    | some (.folder _) => .error .isDirectory
    | _ =>
      if asFolder then .error .isDirectory else .ok (Entries.put files name (.file content))
  | files, name :: rest =>
    match Entries.get? files name with
    | none => .error .notFound
    | some (.file _) => .error .notDirectory
    | some (.folder entries) =>
      (place content asFolder entries rest).map fun sub => Entries.put files name (.folder sub)

def dotsFault (files : Files) (names : List String) : FileFault :=
  match find files names with
  | .error fault => fault
  | .ok (.folder _) => .isDirectory
  | .ok (.file _) => .notDirectory

def write (files : Files) (path : String) (content : Content) : Except FileFault Files :=
  if path.isEmpty then .error .notFound
  else
    let p := Path.ofText path
    if p.ending == .dots then .error (dotsFault files p.names)
    else place content p.asFolder files p.names

def makeFolders : Files → List String → Except FileFault Files
  | files, [] => .ok files
  | files, name :: rest =>
    match Entries.get? files name with
    | none => (makeFolders [] rest).map fun sub => Entries.put files name (.folder sub)
    | some (.folder entries) =>
      (makeFolders entries rest).map fun sub => Entries.put files name (.folder sub)
    | some (.file _) => .error (if rest.isEmpty then .alreadyExists else .notDirectory)

/-- Writes a file into a folder that is made if it is missing. The folder stays also if the
file cannot be written. -/
def writeDeep (files : Files) (path : String) (content : Content) :
    Except FileFault Unit × Files :=
  match makeFolders files (Path.ofText path).names.dropLast with
  | .error fault => (.error fault, files)
  | .ok files =>
    match write files path content with
    | .error fault => (.error fault, files)
    | .ok files => (.ok (), files)

def removeAt : Files → List String → Option Files
  | _, [] => none
  | files, [name] =>
    match Entries.get? files name with
    | some (.file _) => some (Entries.erase files name)
    | _ => none
  | files, name :: rest =>
    match Entries.get? files name with
    | some (.folder entries) =>
      (removeAt entries rest).map fun sub => Entries.put files name (.folder sub)
    | _ => none

def remove? (files : Files) (path : String) : Option Files :=
  let p := Path.ofText path
  if p.asFolder then none else removeAt files p.names

end Files
end DataClasses
