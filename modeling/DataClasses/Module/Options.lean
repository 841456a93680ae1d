import DataClasses.Json.Schema

/-!
# Build options

How a module is built. A module that is built for finding faults carries its source.
-/

set_option autoImplicit false

namespace DataClasses

inductive Optimization where
  | release
  | debug
  deriving DecidableEq, Repr

namespace Optimization

def all : List Optimization := [release, debug]

def name : Optimization → String
  | release => "Release"
  | debug => "Debug"

def ofName? (name : String) : Option Optimization := all.find? (·.name == name)

end Optimization

structure BuildOptions where
  optimization : Optimization
  warningLevel : UInt8 := 4
  warningsAsErrors : Bool
  deterministic : Bool := true
  allowUnsafe : Bool := true
  platform : String := "AnyCpu"
  deriving DecidableEq, Repr

namespace BuildOptions

def choose (optimize warningsAsErrors : Bool) : BuildOptions where
  optimization := if optimize then .release else .debug
  warningsAsErrors := warningsAsErrors

def embedsSource (o : BuildOptions) : Bool := o.optimization == .debug

def toJson (o : BuildOptions) : Json :=
  .obj [("optimization", .str o.optimization.name),
    ("warning_level", .integer o.warningLevel.toNat),
    ("warnings_as_errors", .bool o.warningsAsErrors),
    ("deterministic", .bool o.deterministic),
    ("allow_unsafe", .bool o.allowUnsafe),
    ("platform", .str o.platform)]

def schema : Json.Schema :=
  .record "CompilationOptions"
    [("optimization", .choice (Optimization.all.map Optimization.name), none),
     ("warning_level", .byte, none),
     ("warnings_as_errors", .flag, none),
     ("deterministic", .flag, none),
     ("allow_unsafe", .flag, none),
     ("platform", .text, none)]

def ofJson (v : Json) : BuildOptions where
  optimization := (Optimization.ofName? (v.member "optimization").text).getD .release
  warningLevel := (v.member "warning_level").natural.toUInt8
  warningsAsErrors := (v.member "warnings_as_errors").isTrue
  deterministic := (v.member "deterministic").isTrue
  allowUnsafe := (v.member "allow_unsafe").isTrue
  platform := (v.member "platform").text

end BuildOptions
end DataClasses
