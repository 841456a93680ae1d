import DataClasses.Failure
import DataClasses.Json.Typed
import DataClasses.Settings.Basic

/-!
# Settings as data

The keys under which settings are written, and settings from JSON text. A key that is not
written leaves its setting at the default, and an empty text leaves all of them.
-/

set_option autoImplicit false

namespace DataClasses.Settings

open Json (Schema)

def runtimeSchema : Schema := .choice (Runtime.all.map Runtime.moniker)
def librarySchema : Schema := .choice (JsonLibrary.all.map JsonLibrary.assemblyName)

def toJson (s : Settings) : Json :=
  .obj [("target_runtime", .str s.runtime.moniker),
    ("json_library", .str s.library.assemblyName),
    ("namespace", .str s.container),
    ("root_class_name", .str s.rootClass),
    ("use_naming_convention", .bool s.capitalizeNames),
    ("use_accessor_style", .bool s.accessors),
    ("generate_default_constructor", .bool s.constructors),
    ("generate_serialization_annotations", .bool s.annotations),
    ("generate_documentation", .bool s.documentation),
    ("optimize_output", .bool s.optimize)]

def schema : Schema :=
  let default := toJson {}
  let field (name : String) (schema : Schema) := (name, schema, some (default.member name))
  .record "GenerationSettings"
    [field "target_runtime" runtimeSchema,
     field "json_library" librarySchema,
     field "namespace" .text,
     field "root_class_name" .text,
     field "use_naming_convention" .flag,
     field "use_accessor_style" .flag,
     field "generate_default_constructor" .flag,
     field "generate_serialization_annotations" .flag,
     field "generate_documentation" .flag,
     field "optimize_output" .flag]

def ofJson (v : Json) : Settings where
  runtime := (Runtime.ofMoniker? (v.member "target_runtime").text).getD .netStandard21
  library := (JsonLibrary.ofName? (v.member "json_library").text).getD .systemText
  container := (v.member "namespace").text
  rootClass := (v.member "root_class_name").text
  capitalizeNames := (v.member "use_naming_convention").isTrue
  accessors := (v.member "use_accessor_style").isTrue
  constructors := (v.member "generate_default_constructor").isTrue
  annotations := (v.member "generate_serialization_annotations").isTrue
  documentation := (v.member "generate_documentation").isTrue
  optimize := (v.member "optimize_output").isTrue

def ofJsonText (text : String) : Except Failure Settings :=
  if text.isEmpty then .ok {}
  else
    match schema.parse text with
    | .ok v => .ok (ofJson v)
    | .error fault => .error (.invalidInput ("invalid settings JSON: " ++ fault.message))

end DataClasses.Settings
