import DataClasses.Settings.Basic

/-!
# Switches

What a command line may say, and the ways in which reading it can end without a command.
-/

set_option autoImplicit false

namespace DataClasses

inductive CommandName where
  | generate
  | check
  | compile
  | inspect
  deriving DecidableEq, Repr

namespace CommandName

def all : List CommandName := [generate, check, compile, inspect]

def name : CommandName → String
  | generate => "generate"
  | check => "check"
  | compile => "compile"
  | inspect => "inspect"

def purpose : CommandName → String
  | generate => "Generate C# source from a JSON sample"
  | check => "Report compiler diagnostics for a source file"
  | compile => "Compile a source file into a module"
  | inspect => "Print a module's manifest and type table"

def ofName? (name : String) : Option CommandName := all.find? (·.name == name)

end CommandName

/-- How the reading of a command line ends if not with a command. Switches are given as they
are shown. -/
inductive Stop where
  | help (command : Option CommandName)
  | version
  | nothingAsked
  | noCommand
  | unknownCommand (argument : String)
  | unexpected (argument : String)
  | noValue (switch : String)
  | invalidValue (value switch reason : String)
  | unneededValue (value switch : String)
  | repeated (switch : String)
  | missing (switches : List String)
  deriving DecidableEq, Repr

namespace Stop

def message : Stop → String
  | help _ => ""
  | version => ""
  | nothingAsked => ""
  | noCommand => "'classforge' requires a subcommand but one was not provided"
  | unknownCommand argument => "unrecognized subcommand '" ++ argument ++ "'"
  | unexpected argument => "unexpected argument '" ++ argument ++ "' found"
  | noValue switch => "a value is required for '" ++ switch ++ "' but none was supplied"
  | invalidValue value switch reason =>
    "invalid value '" ++ value ++ "' for '" ++ switch ++ "': " ++ reason
  | unneededValue value switch =>
    "unexpected value '" ++ value ++ "' for '" ++ switch ++ "' found; no more were expected"
  | repeated switch => "the argument '" ++ switch ++ "' cannot be used multiple times"
  | missing switches =>
    "the following required arguments were not provided:" ++
      String.join (switches.map ("\n  " ++ ·))

end Stop

inductive ValueKind where
  | text
  | path
  | runtime
  | library
  deriving DecidableEq, Repr

namespace ValueKind

def refusal? (kind : ValueKind) (switch value : String) : Option Stop :=
  match kind with
  | text => none
  | path => if value.isEmpty then some (.noValue switch) else none
  | runtime =>
    if (Runtime.ofMoniker? value).isSome then none
    else
      some (.invalidValue value switch ("unknown runtime '" ++ value ++ "' (expected one of: " ++
        ", ".intercalate (Runtime.all.map Runtime.moniker) ++ ")"))
  | library =>
    if (JsonLibrary.ofName? value).isSome then none
    else
      some (.invalidValue value switch ("unknown JSON library '" ++ value ++
        "' (expected System.Text.Json or Newtonsoft.Json)"))

end ValueKind

/-- What a switch does: it is on, it counts, it has a value, it has values, or it ends the
reading. -/
inductive SwitchKind where
  | flag
  | counter
  | single (value : ValueKind)
  | several (value : ValueKind)
  | ending (stop : Stop)
  deriving DecidableEq, Repr

structure Switch where
  short : Option Char
  long : String
  kind : SwitchKind
  purpose : String
  valueName : String := ""
  required : Bool := false
  deriving DecidableEq, Repr

namespace Switch

def takesValue (s : Switch) : Bool :=
  match s.kind with
  | .single _ => true
  | .several _ => true
  | _ => false

def shown (s : Switch) : String :=
  "--" ++ s.long ++
    match s.kind with
    | .single _ => " <" ++ s.valueName ++ ">"
    | .several _ => " <" ++ s.valueName ++ ">"
    | .counter => "..."
    | _ => ""

end Switch
end DataClasses
