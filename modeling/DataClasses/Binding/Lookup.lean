import DataClasses.Binding.Problem
import DataClasses.Binding.Symbols

/-!
# Looking up names

What a name means where it is written: a type parameter, a type inside an enclosing type,
or what the enclosing namespaces give, from the innermost outwards. In each of these its
own members come before the names given by imports, and these before imported types.
-/

set_option autoImplicit false

namespace DataClasses.Binding

inductive Meaning where
  | scope (name : String)
  | type (name : String)
  | typeParameter (name : String)
  | native (name : String)
  deriving DecidableEq, Repr

structure Scope where
  name : String
  imported : List String := []
  aliases : Entries Meaning := []
  deriving DecidableEq, Repr

structure Place where
  scopes : List Scope := []
  enclosing : List String := []
  typeParameters : List String := []
  deriving DecidableEq, Repr

def Place.scopeName (p : Place) : String := (p.scopes.head?.map Scope.name).getD ""

def nativeTypes : List String := ["dynamic", "nint", "nuint"]

abbrev Lookup := Except Problem Meaning

def importedTypes (symbols : Symbols) (scope : Scope) (name : String) (arity : Nat) :
    List String :=
  (scope.imported.map (joinNames · name)).filter (symbols.hasType · arity)

def inScope (symbols : Symbols) (name : String) (arity : Nat) (scope : Scope) :
    Option Lookup :=
  let full := joinNames scope.name name
  if symbols.hasType full arity then some (.ok (.type full))
  else if arity == 0 && symbols.isNamespace full then some (.ok (.scope full))
  else
    match (if arity == 0 then scope.aliases.get? name else none) with
    | some meaning => some (.ok meaning)
    | none =>
      match importedTypes symbols scope name arity with
      | [] => none
      | [only] => some (.ok (.type only))
      | first :: second :: _ => some (.error (.ambiguous name first second))

def inEnclosing (symbols : Symbols) (name : String) (arity : Nat) (enclosing : String) :
    Option Lookup :=
  let full := joinNames enclosing name
  if symbols.hasType full arity then some (.ok (.type full)) else none

def candidates (place : Place) (name : String) : List String :=
  place.enclosing.map (joinNames · name) ++
    place.scopes.flatMap fun scope =>
      joinNames scope.name name :: scope.imported.map (joinNames · name)

def lookupSimple (symbols : Symbols) (place : Place) (name : String) (arity : Nat) : Lookup :=
  if arity == 0 && place.typeParameters.contains name then .ok (.typeParameter name)
  else
    match (place.enclosing.findSome? (inEnclosing symbols name arity)).orElse
        fun _ => place.scopes.findSome? (inScope symbols name arity) with
    | some result => result
    | none =>
      if arity == 0 && nativeTypes.contains name then .ok (.native name)
      else
        match (candidates place name).findSome? (symbols.otherArity? arity) with
        | some (full, known) => .error (.ofArity full known)
        | none => .error (.unknown name)

def lookupInside (symbols : Symbols) (outer : Meaning) (name : String) (arity : Nat) : Lookup :=
  match outer with
  | .scope scope =>
    let full := joinNames scope name
    match symbols.probe full arity with
    | .found => .ok (.type full)
    | .otherArity known =>
      if arity == 0 && symbols.isNamespace full then .ok (.scope full)
      else .error (.ofArity full known)
    | .missing =>
      if arity == 0 && symbols.isNamespace full then .ok (.scope full)
      else .error (.notInNamespace name scope)
  | .type type =>
    let full := joinNames type name
    match symbols.probe full arity with
    | .found => .ok (.type full)
    | .otherArity known => .error (.ofArity full known)
    | .missing => .error (.notInType name type)
  | .typeParameter type => .error (.notInType name type)
  | .native type => .error (.notInType name type)

def lookupRoot (symbols : Symbols) (name : String) (arity : Nat) : Lookup :=
  if symbols.hasType name arity then .ok (.type name)
  else if arity == 0 && symbols.isNamespace name then .ok (.scope name)
  else .error (.notAtRoot name)

def lookupFirst (symbols : Symbols) (place : Place) (fromRoot : Bool) (part : String × Nat) :
    Lookup :=
  if fromRoot then lookupRoot symbols part.1 part.2 else lookupSimple symbols place part.1 part.2

def lookupRest (symbols : Symbols) (outer : Meaning) (rest : List (String × Nat)) : Lookup :=
  rest.foldlM (fun outer part => lookupInside symbols outer part.1 part.2) outer

def lookup (symbols : Symbols) (place : Place) (parts : List (String × Nat)) (fromRoot : Bool) :
    Lookup :=
  match parts with
  | [] => .error (.unknown "")
  | part :: rest => do
    let first ← lookupFirst symbols place fromRoot part
    lookupRest symbols first rest

end DataClasses.Binding
