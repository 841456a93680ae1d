import DataClasses.Declaration.Basic
import DataClasses.Reference.Assembly
import DataClasses.TypeTable.Basic

/-!
# Known names

The namespaces and types that references export and a source declares. All that is asked
about them is whether they are there, so their order and repetitions do not matter.
-/

set_option autoImplicit false

namespace DataClasses.Binding

structure Symbols where
  namespaces : List String
  types : List (String × Nat)
  deriving DecidableEq, Repr

inductive Probe where
  | found
  | otherArity (least : Nat)
  | missing
  deriving DecidableEq, Repr

namespace Symbols

def append (a b : Symbols) : Symbols := ⟨a.namespaces ++ b.namespaces, a.types ++ b.types⟩

def beginnings (outer : String) : List String → List String
  | [] => []
  | part :: rest =>
    let current := joinNames outer part
    current :: beginnings current rest

def ofNamespace (name : String) : List String := beginnings "" (Text.dottedParts name)

def ofAssembly (a : Assembly) : Symbols where
  namespaces := a.namespaces.flatMap fun n => ofNamespace n.name
  types := a.exports.map fun t => (joinNames t.scope t.name, t.arity)

def ofAssemblies (references : List Assembly) : Symbols where
  namespaces := references.flatMap fun a => (ofAssembly a).namespaces
  types := references.flatMap fun a => (ofAssembly a).types

def isNamespace (s : Symbols) (name : String) : Bool := s.namespaces.contains name

def arities (s : Symbols) (name : String) : List Nat :=
  (s.types.filter (·.1 == name)).map (·.2)

def probe (s : Symbols) (name : String) (arity : Nat) : Probe :=
  let known := s.arities name
  if known.contains arity then .found
  else
    match known.min? with
    | some least => .otherArity least
    | none => .missing

def hasType (s : Symbols) (name : String) (arity : Nat) : Bool := s.probe name arity == .found

/-- The name with the least number of type parameters under which a type is known, if
there is none with the number that is asked for. -/
def otherArity? (s : Symbols) (arity : Nat) (name : String) : Option (String × Nat) :=
  match s.probe name arity with
  | .otherArity least => some (name, least)
  | _ => none

end Symbols

structure Declared where
  container : String
  name : String
  arity : Nat
  isPartial : Bool
  isOutermost : Bool
  line : Nat
  deriving DecidableEq, Repr

def Declared.fullName (d : Declared) : String := joinNames d.container d.name

/-- The types among members and inside of them, but none without a name nor what is inside
of it. -/
def declaredMembers (container : String) : List Member → List Declared
  | [] => []
  | .nested head members :: rest =>
    (if head.name.isEmpty then []
      else
        ⟨container, head.name, head.typeParameters.length, head.isPartial, false, head.line⟩ ::
          declaredMembers (joinNames container head.name) members) ++
      declaredMembers container rest
  | _ :: rest => declaredMembers container rest

def declaredType (container : String) (head : TypeHead) (members : List Member) :
    List Declared :=
  if head.name.isEmpty then []
  else
    ⟨container, head.name, head.typeParameters.length, head.isPartial, true, head.line⟩ ::
      declaredMembers (joinNames container head.name) members

def scopeName (outer : String) (name : DottedName) : String :=
  if name.parts.isEmpty then outer else joinNames outer name.text

def declaredTypes (container : String) : List Declaration → List Declared
  | [] => []
  | .scope head members :: rest =>
    declaredTypes (scopeName container head.name) members ++ declaredTypes container rest
  | .type head members :: rest => declaredType container head members ++ declaredTypes container rest

def declaredScopes (container : String) : List Declaration → List String
  | [] => []
  | .scope head members :: rest =>
    let full := scopeName container head.name
    (if full.isEmpty then [] else Symbols.ofNamespace full) ++
      declaredScopes full members ++ declaredScopes container rest
  | .type _ _ :: rest => declaredScopes container rest

def Symbols.ofUnit (u : SourceUnit) : Symbols where
  namespaces := declaredScopes "" u.members
  types := (declaredTypes "" u.members).map fun d => (d.fullName, d.arity)

end DataClasses.Binding
