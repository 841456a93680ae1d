import DataClasses.Files.Tree
import DataClasses.Reference.Libraries
import DataClasses.Reference.Platforms

/-!
# The catalog of libraries

The libraries that compilations may use, by name. A library that is registered from a file
takes the place of one of the same name and is used by every compilation.
-/

set_option autoImplicit false

namespace DataClasses

inductive ReferenceSource where
  | builtIn (assembly : Assembly)
  | file (path : String)
  deriving DecidableEq, Repr

namespace ReferenceSource

def path : ReferenceSource → String
  | builtIn a => a.source
  | file path => path

def load (files : Files) : ReferenceSource → Except Failure Assembly
  | builtIn a => .ok a
  | file path =>
    match files.readText path with
    | .error fault => .error (.reference path ("cannot read file: " ++ fault.message))
    | .ok text => Assembly.ofText path text

end ReferenceSource

structure Catalog where
  libraries : Entries ReferenceSource
  registered : List String
  hasPlatforms : Bool

namespace Catalog

def baseNames : List String :=
  ["System.Runtime", "System.Collections", "System.Linq", "System.ObjectModel",
   "System.Runtime.Serialization.Primitives", "System.ComponentModel.Primitives"]

def builtIn : Catalog where
  libraries := Assembly.libraries.map fun a => (a.name, .builtIn a)
  registered := []
  hasPlatforms := true

def empty : Catalog := ⟨[], [], false⟩

def lookup? (c : Catalog) (name : String) : Option ReferenceSource := c.libraries.get? name

def register (c : Catalog) (files : Files) (path : String) : Except Failure (String × Catalog) :=
  (ReferenceSource.load files (.file path)).map fun a =>
    (a.name,
      { c with
        libraries := c.libraries.put a.name (.file path)
        registered := if c.registered.contains a.name then c.registered
          else c.registered ++ [a.name] })

def remove (c : Catalog) (name : String) : Catalog :=
  { c with
    libraries := c.libraries.erase name
    registered := c.registered.filter (· != name) }

def baseSources (c : Catalog) : List ReferenceSource := baseNames.filterMap c.lookup?

def registeredSources (c : Catalog) : List ReferenceSource := c.registered.filterMap c.lookup?

def runtimeSources (c : Catalog) (r : Runtime) : List ReferenceSource :=
  if c.hasPlatforms then (Assembly.ofRuntime r).map .builtIn else []

end Catalog
end DataClasses
