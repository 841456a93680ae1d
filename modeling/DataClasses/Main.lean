import DataClasses.Command.Run

/-!
# The program

Loads the files that a command line names, runs the command on them, and writes the file that
it leaves.
-/

set_option autoImplicit false

namespace DataClasses

def folderCode : UInt32 := 21

def nodeAt (path : String) : IO (Option Node) := do
  try
    let bytes ← IO.FS.readBinFile path
    return some (.file (.plain bytes))
  catch e =>
    match e with
    | .inappropriateType _ code _ =>
      return if code == folderCode then some (.folder []) else none
    | _ => return none

def place (files : Files) (path : String) : Option Node → Files
  | some (.file content) => (files.writeDeep path content).2
  | some (.folder _) => (files.makeFolders (Path.ofText path).names).toOption.getD files
  | none => files

def loadPath (files : Files) (path : String) : IO Files :=
  (Path.wayTo path).foldlM (fun files part => return place files part (← nodeAt part)) files

def loadAll (paths : List String) : IO Files := paths.foldlM loadPath []

def Content.bytes : Content → ByteArray
  | .plain bytes => bytes
  | .packed archive => archive.toBytes

def store (files : Files) (path : String) : IO Unit := do
  match files.read path with
  | .error _ => return
  | .ok content =>
    let folder := Path.parentText path
    if !folder.isEmpty then IO.FS.createDirAll folder
    IO.FS.writeBinFile path content.bytes

def report (o : Outcome) : IO UInt32 := do
  IO.print o.output
  IO.eprint o.errors
  return o.exit.toUInt32

def perform (command : Command) : IO UInt32 := do
  let output := command.output?
  let compiler : Compiler := {}
  let before ← loadAll (compiler.systemPath :: command.inputs ++ output.toList)
  let (outcome, after) := command.run before
  if outcome.exit == 0 then output.forM (store after)
  report outcome

end DataClasses

def main (arguments : List String) : IO UInt32 :=
  match DataClasses.Command.ofArguments arguments with
  | .ok command => DataClasses.perform command
  | .error stop => DataClasses.report stop.outcome
