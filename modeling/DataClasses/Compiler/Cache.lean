import DataClasses.Module.Options
import DataClasses.Reference.Catalog

/-!
# What a compiler keeps

Libraries that have been loaded, options that have been chosen, and the libraries of
platforms. What is kept is not made again, also where it would now be different. A build that
fails keeps what it has got so far.
-/

set_option autoImplicit false

namespace DataClasses

structure Cache where
  assemblies : Entries Assembly := []
  options : List (Bool × BuildOptions) := []
  platforms : List (Runtime × List Assembly) := []

abbrev Build (α : Type) := ReaderT Files (ExceptT Failure (StateM Cache)) α

namespace Build

def fail {α : Type} (failure : Failure) : Build α := throw failure

def assembly (source : ReferenceSource) : Build Assembly := do
  match (← get).assemblies.get? source.path with
  | some a => pure a
  | none =>
    match source.load (← read) with
    | .error failure => fail failure
    | .ok a =>
      modify fun cache => { cache with assemblies := cache.assemblies.put source.path a }
      pure a

def assemblies : List ReferenceSource → Build (List Assembly)
  | [] => pure []
  | source :: rest => do
    let a ← assembly source
    let others ← assemblies rest
    pure (a :: others)

def options (optimize warningsAsErrors : Bool) : Build BuildOptions := do
  match (← get).options.lookup optimize with
  | some o => pure o
  | none =>
    let o := BuildOptions.choose optimize warningsAsErrors
    modify fun cache => { cache with options := (optimize, o) :: cache.options }
    pure o

def platform (r : Runtime) (resolve : Build (List Assembly)) : Build (List Assembly) := do
  match (← get).platforms.lookup r with
  | some found => pure found
  | none =>
    let found ← resolve
    modify fun cache => { cache with platforms := (r, found) :: cache.platforms }
    pure found

end Build
end DataClasses
