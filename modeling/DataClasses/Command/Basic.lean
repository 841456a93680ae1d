import DataClasses.Command.Reading

/-!
# Commands

What can be asked for on a command line: classes for a sample, what is wrong with a source, a
module of a source, or what is in a module. What is said about the commands and their switches
follows at the end.
-/

set_option autoImplicit false

namespace DataClasses

structure Choices where
  file : Option String
  runtime : Option Runtime
  library : Option JsonLibrary
  container : Option String
  rootClass : Option String
  fields : Bool
  keepCase : Bool
  noAnnotations : Bool
  constructors : Bool
  documentation : Bool
  debug : Bool
  deriving DecidableEq, Repr

inductive Command where
  | generate (input : String) (output : Option String) (choices : Choices)
  | check (source : String) (references : List String) (choices : Choices)
  | compile (source output : String) (references : List String) (choices : Choices)
  | inspect (path : String) (asJson : Bool)
  deriving DecidableEq, Repr

namespace Command

def inputs : Command → List String
  | generate input _ c => input :: c.file.toList
  | check source references c => source :: references ++ c.file.toList
  | compile source _ references c => source :: references ++ c.file.toList
  | inspect path _ => [path]

def output? : Command → Option String
  | generate _ output _ => output
  | compile _ output _ _ => some output
  | _ => none

end Command

namespace Switch

def flag (long purpose : String) : Switch := ⟨none, long, .flag, purpose, "", false⟩

def choice (long valueName purpose : String) (kind : ValueKind) : Switch :=
  ⟨none, long, .single kind, purpose, valueName, false⟩

def needed (short : Char) (long valueName purpose : String) : Switch :=
  ⟨some short, long, .single .path, purpose, valueName, true⟩

def verbose : Switch :=
  ⟨some 'v', "verbose", .counter, "Increase log verbosity (-v info, -vv debug, -vvv trace)", "",
    false⟩

def help (command : Option CommandName) : Switch :=
  ⟨some 'h', "help", .ending (.help command), "Print help", "", false⟩

def version : Switch := ⟨some 'V', "version", .ending .version, "Print version", "", false⟩

def source : Switch := needed 's' "source" "SOURCE" "C# source file"

def references : Switch :=
  ⟨some 'r', "reference", .several .path, "Additional reference metadata files", "REFERENCES", false⟩

def settings : List Switch :=
  [choice "settings" "FILE" "Settings file (.toml or .json)" .path,
   choice "runtime" "RUNTIME"
     ("Target runtime moniker (" ++ ", ".intercalate (Runtime.all.map Runtime.moniker) ++ ")")
     .runtime,
   choice "json-library" "JSON_LIBRARY" "JSON library (System.Text.Json or Newtonsoft.Json)" .library,
   choice "namespace" "NAMESPACE" "Namespace wrapping the generated classes" .text,
   choice "root-class" "ROOT_CLASS" "Name of the root class" .text,
   flag "fields" "Emit public fields instead of properties",
   flag "keep-case" "Keep member names as written in the JSON",
   flag "no-annotations" "Leave out serialization annotations",
   flag "constructors" "Emit a default constructor in every class",
   flag "docs" "Emit XML documentation comments",
   flag "debug" "Debug build: no optimization, source embedded in the module"]

end Switch

def CommandName.ownSwitches : CommandName → List Switch
  | .generate =>
    [Switch.needed 'i' "input" "INPUT" "JSON sample file",
     ⟨some 'o', "output", .single .path, "Output file for the generated source (default: stdout)",
       "OUTPUT", false⟩] ++ Switch.settings
  | .check => [Switch.source, Switch.references] ++ Switch.settings
  | .compile =>
    [Switch.source, Switch.needed 'o' "output" "OUTPUT" "Output module path", Switch.references] ++
      Switch.settings
  | .inspect =>
    [Switch.needed 'm' "module" "MODULE" "Module file",
     Switch.flag "json" "Print the type table as JSON"]

def CommandName.switches (name : CommandName) : List Switch :=
  name.ownSwitches ++ [Switch.verbose, Switch.help (some name)]

def rootSwitches : List Switch := [Switch.verbose, Switch.help none, Switch.version]

namespace Command

def choices (r : Reading) : Choices where
  file := r.value? "settings"
  runtime := (r.value? "runtime").bind Runtime.ofMoniker?
  library := (r.value? "json-library").bind JsonLibrary.ofName?
  container := r.value? "namespace"
  rootClass := r.value? "root-class"
  fields := r.isOn "fields"
  keepCase := r.isOn "keep-case"
  noAnnotations := r.isOn "no-annotations"
  constructors := r.isOn "constructors"
  documentation := r.isOn "docs"
  debug := r.isOn "debug"

def ofReading (r : Reading) : CommandName → Command
  | .generate => .generate ((r.value? "input").getD "") (r.value? "output") (choices r)
  | .check => .check ((r.value? "source").getD "") (r.values "reference") (choices r)
  | .compile =>
    .compile ((r.value? "source").getD "") ((r.value? "output").getD "") (r.values "reference")
      (choices r)
  | .inspect => .inspect ((r.value? "module").getD "") (r.isOn "json")

def ofRest (name : CommandName) (rest : List String) : Except Stop Command := do
  let r ← rest.foldlM (Reading.step name.switches .unexpected) {}
  let r ← Reading.finish name.switches r
  pure (ofReading r name)

def helpWord : String := "help"

def helpFor : List String → Stop
  | [] => .help none
  | name :: rest =>
    match CommandName.ofName? name, rest with
    | some command, [] => .help (some command)
    | some _, other :: _ => .unknownCommand other
    | none, _ => if name == helpWord then .help none else .unknownCommand name

def strayAtRoot (onlyValues : Bool) (argument : String) : Stop :=
  if onlyValues && (argument == helpWord || (CommandName.ofName? argument).isSome) then
    .unexpected argument
  else .unknownCommand argument

def ofRoot : Reading → List String → Except Stop Command
  | r, [] => .error (if r.given.isEmpty then .nothingAsked else .noCommand)
  | r, argument :: rest =>
    if r.onlyValues then .error (strayAtRoot true argument)
    else if argument == helpWord then .error (helpFor rest)
    else
      match CommandName.ofName? argument with
      | some name => ofRest name rest
      | none =>
        (Reading.step rootSwitches (strayAtRoot false) r argument).bind fun r => ofRoot r rest

def ofArguments (arguments : List String) : Except Stop Command := ofRoot {} arguments

end Command

def columns (rows : List (String × String)) : String :=
  let width := rows.foldl (fun n row => max n row.1.length) 0
  String.join (rows.map fun row =>
    "  " ++ row.1 ++ String.ofList (List.replicate (width + 2 - row.1.length) ' ') ++ row.2 ++ "\n")

namespace Switch

def row (s : Switch) : String × String :=
  ((match s.short with
    | some c => "-" ++ String.ofList [c] ++ ", "
    | none => "    ") ++ s.shown, s.purpose)

def rows (switches : List Switch) : String := "\nOptions:\n" ++ columns (switches.map row)

end Switch

def programPurpose : String := "Generate C# data classes from JSON samples"

def programVersion : String := "classforge 0.3.0"

def rootHelp : String :=
  programPurpose ++ "\n\nUsage: classforge [OPTIONS] <COMMAND>\n\nCommands:\n" ++
    columns (CommandName.all.map (fun c => (c.name, c.purpose)) ++
      [(Command.helpWord, "Print this message or the help of the given subcommand(s)")]) ++
    Switch.rows rootSwitches

def CommandName.help (c : CommandName) : String :=
  let needed := (c.switches.filter (·.required)).map fun s => " " ++ s.shown
  c.purpose ++ "\n\nUsage: classforge " ++ c.name ++ " [OPTIONS]" ++ String.join needed ++ "\n" ++
    Switch.rows c.switches

end DataClasses
