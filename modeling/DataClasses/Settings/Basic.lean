/-!
# Settings

The platform a module is made for, the library that reads its JSON, and the choices
about the shape of the generated classes.
-/

set_option autoImplicit false

namespace DataClasses

inductive Runtime where
  | netStandard20
  | netStandard21
  | netFramework48
  | net60
  | net70
  | net80
  | net90
  deriving DecidableEq, Repr

namespace Runtime

def all : List Runtime :=
  [netStandard20, netStandard21, netFramework48, net60, net70, net80, net90]

def moniker : Runtime → String
  | netStandard20 => "netstandard2.0"
  | netStandard21 => "netstandard2.1"
  | netFramework48 => "net48"
  | net60 => "net6.0"
  | net70 => "net7.0"
  | net80 => "net8.0"
  | net90 => "net9.0"

def displayName : Runtime → String
  | netStandard20 => ".NET Standard 2.0"
  | netStandard21 => ".NET Standard 2.1"
  | netFramework48 => ".NET Framework 4.8"
  | net60 => ".NET 6.0"
  | net70 => ".NET 7.0"
  | net80 => ".NET 8.0"
  | net90 => ".NET 9.0"

def ofMoniker? (name : String) : Option Runtime := all.find? (·.moniker == name)

/-- Only the framework proper is part of the system; every other platform comes with
its libraries. -/
def needsInstallation (r : Runtime) : Bool := r == netFramework48

theorem mem_all (r : Runtime) : r ∈ all := by cases r <;> decide

theorem ofMoniker?_moniker (r : Runtime) : ofMoniker? r.moniker = some r := by
  cases r <;> decide

end Runtime

inductive JsonLibrary where
  | newtonsoft
  | systemText
  deriving DecidableEq, Repr

namespace JsonLibrary

def all : List JsonLibrary := [newtonsoft, systemText]

def assemblyName : JsonLibrary → String
  | newtonsoft => "Newtonsoft.Json"
  | systemText => "System.Text.Json"

def namespaces : JsonLibrary → List String
  | newtonsoft => ["Newtonsoft.Json", "Newtonsoft.Json.Serialization"]
  | systemText => ["System.Text.Json", "System.Text.Json.Serialization"]

def keyAttribute : JsonLibrary → String
  | newtonsoft => "JsonProperty"
  | systemText => "JsonPropertyName"

def shortName : JsonLibrary → String
  | newtonsoft => "newtonsoft"
  | systemText => "system-text-json"

def ofName? (name : String) : Option JsonLibrary :=
  all.find? fun l => name == l.assemblyName || name == l.shortName

end JsonLibrary

/-- The choices of one run. `container` is the namespace of the generated classes and
the name of the module made of them. -/
structure Settings where
  runtime : Runtime := .netStandard21
  library : JsonLibrary := .systemText
  container : String := "RpaJsonModels"
  rootClass : String := "Root"
  capitalizeNames : Bool := true
  accessors : Bool := true
  constructors : Bool := false
  annotations : Bool := true
  documentation : Bool := false
  optimize : Bool := true
  deriving DecidableEq, Repr

end DataClasses
