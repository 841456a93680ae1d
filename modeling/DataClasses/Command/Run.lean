import DataClasses.Command.Basic
import DataClasses.Compiler.Basic
import DataClasses.Generation
import DataClasses.Module.Opened
import DataClasses.Settings.Load

/-!
# Running commands

What a command prints, how it ends, and which files it leaves. A failure is printed with what
was being done and with its causes, the first of which may have causes of its own.
-/

set_option autoImplicit false

namespace DataClasses

structure Outcome where
  exit : Nat := 0
  output : String := ""
  errors : String := ""
  deriving DecidableEq, Repr

structure Trouble where
  message : String
  causes : List String
  deriving DecidableEq, Repr

def FileFault.causes (f : FileFault) : List String := [f.message]

def Failure.causes : Failure → List String
  | .file fault => (Failure.file fault).message :: fault.causes
  | failure => [failure.message]

def ArchiveFault.causes : ArchiveFault → List String
  | .file message => [(ArchiveFault.file message).message, message]
  | fault => [fault.message]

def ModuleFault.causes : ModuleFault → List String
  | .file fault => (ModuleFault.file fault).message :: fault.causes
  | .json fault => [(ModuleFault.json fault).message, fault.message]
  | .archive fault => (ModuleFault.archive fault).message :: fault.causes
  | fault => [fault.message]

namespace Trouble

def indented (indent text : String) : String := ("\n" ++ indent).intercalate (text.splitOn "\n")

def numbered : Nat → List String → List String
  | _, [] => []
  | n, cause :: rest =>
    ("    " ++ toString n ++ ": " ++ indented "       " cause) :: numbered (n + 1) rest

def causeLines : List String → List String
  | [cause] => ["    " ++ indented "    " cause]
  | causes => numbered 0 causes

def text (t : Trouble) : String :=
  "Error: " ++ t.message ++
    (if t.causes.isEmpty then ""
    else "\n\nCaused by:\n" ++ "\n".intercalate (causeLines t.causes)) ++ "\n"

def outcome (t : Trouble) : Outcome := { exit := 1, errors := t.text }

end Trouble

namespace Command

def override (c : Choices) (s : Settings) : Settings where
  runtime := c.runtime.getD s.runtime
  library := c.library.getD s.library
  container := c.container.getD s.container
  rootClass := c.rootClass.getD s.rootClass
  capitalizeNames := !c.keepCase && s.capitalizeNames
  accessors := !c.fields && s.accessors
  constructors := c.constructors || s.constructors
  annotations := !c.noAnnotations && s.annotations
  documentation := c.documentation || s.documentation
  optimize := !c.debug && s.optimize

def doing {ε α : Type} (what : String) (causes : ε → List String) :
    Except ε α → Except Trouble α
  | .ok a => .ok a
  | .error e => .error ⟨what, causes e⟩

def settings (files : Files) (c : Choices) : Except Trouble Settings :=
  match c.file with
  | none => .ok (override c {})
  | some path =>
    (doing ("Failed to load settings: " ++ path) Failure.causes (Settings.load files path)).map
      (override c)

def readSource (files : Files) (path : String) : Except Trouble String :=
  doing ("Failed to read source: " ++ path) FileFault.causes (files.readText path)

def register (files : Files) : Catalog → List String → Except Trouble Catalog
  | catalog, [] => .ok catalog
  | catalog, path :: rest =>
    (doing ("Failed to register reference: " ++ path) Failure.causes
      (catalog.register files path)).bind fun registered => register files registered.2 rest

def compiler (files : Files) (references : List String) : Except Trouble Compiler :=
  (register files .builtIn references).map fun catalog => { catalog }

def checkMark : String := "✓ "

def finish (result : Except Trouble Outcome) : Outcome :=
  match result with
  | .ok outcome => outcome
  | .error trouble => trouble.outcome

def generated (files : Files) (input : String) (c : Choices) : Except Trouble String := do
  let s ← settings files c
  let sample ← doing ("Failed to read JSON sample: " ++ input) FileFault.causes (files.readText input)
  doing ("Failed to generate classes from " ++ input) Failure.causes (sourceFor sample s)

def writeSource (files : Files) (path source : String) : Outcome × Files :=
  match files.makeFolders (Path.ofText path).names.dropLast with
  | .error fault =>
    ((⟨"Failed to create output directory: " ++ Path.parentText path, fault.causes⟩ :
      Trouble).outcome, files)
  | .ok files =>
    match files.write path (.ofText source) with
    | .error fault => ((⟨"Failed to write source: " ++ path, fault.causes⟩ : Trouble).outcome, files)
    | .ok files => ({ errors := checkMark ++ "Generated " ++ path ++ "\n" }, files)

def generateSource (files : Files) (input : String) (output : Option String) (c : Choices) :
    Outcome × Files :=
  match generated files input c, output with
  | .error trouble, _ => (trouble.outcome, files)
  | .ok source, none => ({ output := source }, files)
  | .ok source, some path => writeSource files path source

def checkSource (files : Files) (source : String) (references : List String) (c : Choices) : Outcome :=
  finish do
    let s ← settings files c
    let text ← readSource files source
    let compiler ← compiler files references
    let failures ← doing ("Failed to check " ++ source) Failure.causes
      ((compiler.validate text s).run files {}).1
    if failures.isEmpty then
      pure { output := checkMark ++ source ++ " compiles for " ++ s.runtime.displayName ++ "\n" }
    else pure { exit := 1, errors := reportText failures s.runtime ++ "\n" }

def written (path : String) (s : Settings) : String :=
  checkMark ++ "Module written: " ++ path ++ "\n" ++
    "  Assembly: " ++ s.container ++ "\n" ++
    "  Target:   " ++ s.runtime.displayName ++ "\n" ++
    "  JSON:     " ++ s.library.assemblyName ++ "\n"

def compilation (files : Files) (source : String) (references : List String) (c : Choices) :
    Except Trouble (Settings × String × Compiler) := do
  let s ← settings files c
  let text ← readSource files source
  let compiler ← compiler files references
  pure (s, text, compiler)

def compileSource (files : Files) (source output : String) (references : List String) (c : Choices) :
    Outcome × Files :=
  match compilation files source references c with
  | .error trouble => (trouble.outcome, files)
  | .ok (s, text, compiler) =>
    match compiler.compile text output s { files } with
    | (.ok (), w) => ({ output := written output s }, w.files)
    | (.error (.compilation _ report), w) => ({ exit := 1, errors := report ++ "\n" }, w.files)
    | (.error failure, w) =>
      ((⟨"Failed to compile " ++ source, failure.causes⟩ : Trouble).outcome, w.files)

def memberWord : MemberKind → String
  | .enumValue => "value"
  | kind => kind.name

def memberText (m : MemberEntry) : String :=
  "  " ++ memberWord m.kind ++ " " ++ m.name ++
    (match m.typeName with
    | some name => ": " ++ name
    | none => "") ++
    (match m.key with
    | some key => " (\"" ++ key ++ "\")"
    | none => "") ++ "\n"

def typeText (t : TypeEntry) : String :=
  t.kind.name ++ " " ++ t.fullName ++ "\n" ++ String.join (t.members.map memberText)

def manifestText (m : Manifest) : String :=
  "Module: " ++ m.name ++ " " ++ m.version ++ "\n" ++
    "  Target:       " ++ m.runtime.displayName ++ "\n" ++
    "  JSON library: " ++ m.library.assemblyName ++ "\n" ++
    "  Build:        " ++ m.options.optimization.name ++ "\n" ++
    "  References:\n" ++
    String.join (m.references.map fun r => "    " ++ r.name ++ " " ++ r.version ++ "\n")

def plainTrouble (fault : ModuleFault) : Trouble := ⟨fault.message, fault.causes.drop 1⟩

def moduleText (m : OpenedModule) (table : TypeTable) : Outcome :=
  match m.source? with
  | .error fault => { (plainTrouble fault).outcome with output := manifestText m.manifest }
  | .ok source =>
    { output := manifestText m.manifest ++
        (if source.isSome then "  Embedded source: yes\n" else "") ++ "\n" ++
        String.join (table.types.map typeText) }

def inspectModule (files : Files) (path : String) (asJson : Bool) : Outcome :=
  finish do
    let m ← doing ("Failed to open module: " ++ path) ModuleFault.causes (OpenedModule.load files path)
    let table ← doing "Failed to read type table" ModuleFault.causes m.types
    pure (if asJson then { output := table.toJson.pretty ++ "\n" } else moduleText m table)

def run (files : Files) : Command → Outcome × Files
  | .generate input output c => generateSource files input output c
  | .check source references c => (checkSource files source references c, files)
  | .compile source output references c => compileSource files source output references c
  | .inspect path asJson => (inspectModule files path asJson, files)

end Command

def Stop.outcome : Stop → Outcome
  | .help none => { output := rootHelp }
  | .help (some command) => { output := command.help }
  | .version => { output := programVersion ++ "\n" }
  | .nothingAsked => { exit := 2, errors := rootHelp }
  | stop =>
    { exit := 2
      errors := "error: " ++ stop.message ++ "\n\nFor more information, try '--help'.\n" }

def runArguments (files : Files) (arguments : List String) : Outcome × Files :=
  match Command.ofArguments arguments with
  | .ok command => command.run files
  | .error stop => (stop.outcome, files)

end DataClasses
