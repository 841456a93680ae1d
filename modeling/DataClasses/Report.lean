import DataClasses.Diagnostic
import DataClasses.Settings.Basic

/-!
# Reports

The text that people read about a failed compilation. If a name was not found, it begins
with what could be installed.
-/

set_option autoImplicit false

namespace DataClasses

structure Report where
  missing : List Diagnostic
  other : List Diagnostic
  text : String
  deriving DecidableEq, Repr

namespace Report

def downloadPage : String := "https://dotnet.microsoft.com/download/dotnet-framework"

def advice (runtime : Runtime) : String :=
  "Some required components may not be installed on this machine.\n" ++
    if runtime.needsInstallation then
      "Compiling for " ++ runtime.displayName ++
        " requires that framework version to be installed.\n" ++
        "Please install " ++ runtime.displayName ++ " from " ++ downloadPage
    else "Compiling for " ++ runtime.moniker ++ " may require additional libraries."

def entry (d : Diagnostic) : String :=
  "\n\n" ++ d.code ++ ": " ++ d.message ++ " (line " ++ toString d.line ++ ")"

def ofDiagnostics (ds : List Diagnostic) (runtime : Runtime) : Report :=
  let missing := ds.filter (·.isMissingName)
  { missing
    other := ds.filter (!·.isMissingName)
    text := "Compilation errors:" ++
      (if missing.isEmpty then "" else "\n\n" ++ advice runtime) ++
      String.join (ds.map entry) }

def hasMissing (r : Report) : Bool := !r.missing.isEmpty

end Report

def reportText (ds : List Diagnostic) (runtime : Runtime) : String :=
  (Report.ofDiagnostics ds runtime).text

end DataClasses
