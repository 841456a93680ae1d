import DataClasses.Failure
import DataClasses.Identifier.Basic
import DataClasses.Text.Basic
import DataClasses.Toml.Shape

/-!
# Reference assemblies

What a library exports: its name and version and, namespace by namespace, the names of
its types. A generic type has its number of parameters behind a grave accent.
-/

set_option autoImplicit false

namespace DataClasses

structure ExportedNamespace where
  name : String
  types : List String
  deriving DecidableEq, Repr

structure Assembly where
  name : String
  version : String
  namespaces : List ExportedNamespace
  source : String
  deriving DecidableEq, Repr

structure ExportedType where
  scope : String
  name : String
  arity : Nat
  deriving DecidableEq, Repr

namespace Assembly

def arityLimit : Nat := 1 <<< 64

def unsigned? (digits : List Char) : Option Nat :=
  if digits.isEmpty || !digits.all Char.isDigit then none
  else
    let n := Nat.ofDigitChars 10 digits 0
    if n < arityLimit then some n else none

def number? (cs : List Char) : Option Nat :=
  match cs with
  | '+' :: rest => unsigned? rest
  | _ => unsigned? cs

/-- The name and the number of type parameters of an exported type. What is behind a
grave accent and no number counts as none. -/
def splitArity (raw : String) : String × Nat :=
  let cs := raw.toList
  let name := String.ofList (cs.takeWhile (· != '`'))
  match cs.dropWhile (· != '`') with
  | [] => (name, 0)
  | _ :: suffix => (name, (number? suffix).getD 0)

def isSimpleName (name : String) : Bool := Identifier.isIdentifier name.toList

def isDottedName (name : String) : Bool := (Text.dottedParts name).all isSimpleName

/-- Whether an exported type is well written: a name, and a number of parameters that is
not zero if there is a grave accent. -/
def isTypeName (raw : String) : Bool :=
  let (name, arity) := splitArity raw
  isSimpleName name && !(raw.toList.contains '`' && arity == 0)

def namespaceFault? (n : ExportedNamespace) : Option String :=
  if !isDottedName n.name then some ("invalid namespace '" ++ n.name ++ "'")
  else
    (n.types.find? (!isTypeName ·)).map fun raw =>
      "invalid type '" ++ raw ++ "' in namespace '" ++ n.name ++ "'"

def fault? (a : Assembly) : Option String :=
  if !isDottedName a.name then some ("invalid assembly name '" ++ a.name ++ "'")
  else if Text.allBlank a.version then some "version is required"
  else a.namespaces.findSome? namespaceFault?

def schema : Json.Schema :=
  .record "ReferenceAssembly"
    [("name", .text, none),
     ("version", .text, none),
     ("namespace", .list (.record "ReferenceNamespace"
        [("name", .text, none), ("types", .list .text, some (.arr []))]), some (.arr []))]

def ofJson (source : String) (v : Json) : Assembly where
  name := (v.member "name").text
  version := (v.member "version").text
  namespaces := (v.member "namespace").items.map fun n =>
    ⟨(n.member "name").text, (n.member "types").items.map Json.text⟩
  source := source

def ofText (path text : String) : Except Failure Assembly :=
  match Toml.read schema text with
  | .error fault => .error (.reference path fault.message)
  | .ok v =>
    let a := ofJson path v
    match fault? a with
    | some message => .error (.reference path message)
    | none => .ok a

def exports (a : Assembly) : List ExportedType :=
  a.namespaces.flatMap fun n =>
    n.types.map fun raw =>
      let (name, arity) := splitArity raw
      ⟨n.name, name, arity⟩

def sameVersion (a b : Assembly) : Bool := a.name == b.name && a.version == b.version

/-- The first assembly of each name and version. -/
def distinctVersions : List Assembly → List Assembly
  | [] => []
  | a :: rest => a :: (distinctVersions rest).filter fun b => !a.sameVersion b

end Assembly
end DataClasses
