import DataClasses.Diagnostic
import DataClasses.Text.Basic
import DataClasses.TypeTable.Basic

/-!
# What can be wrong with names

The faults of a source that follows the grammar, with their codes and wording.
-/

set_option autoImplicit false

namespace DataClasses.Binding

inductive Problem where
  | unknown (name : String)
  | notInNamespace (name scope : String)
  | notInType (name type : String)
  | notAtRoot (name : String)
  | notGeneric (name : String)
  | wrongArity (name : String) (arity : Nat)
  | ambiguous (name first second : String)
  | namespaceAsType (name : String)
  | notAnAttribute (name : String)
  | staticImportOfNamespace (name : String)
  | importOfType (name : String)
  | repeatedImport (name : String)
  | repeatedType (scope name : String)
  | repeatedMember (type name : String)
  | namedLikeType (name : String)
  | voidField
  | voidProperty (name : String)
  | repeatedAccessor
  | noAccessor (name : String)
  deriving DecidableEq, Repr

def genericText (name : String) (arity : Nat) : String :=
  match arity with
  | 0 => name
  | 1 => name ++ "<T>"
  | n => name ++ "<" ++ ", ".intercalate ((List.range n).map fun i => "T" ++ toString (i + 1)) ++ ">"

def lastPart (name : String) : String := (Text.dottedParts name).getLast?.getD name

namespace Problem

def code : Problem → String
  | unknown _ => "CS0246"
  | notInNamespace _ _ => "CS0234"
  | notInType _ _ => "CS0426"
  | notAtRoot _ => "CS0400"
  | notGeneric _ => "CS0308"
  | wrongArity _ _ => "CS0305"
  | ambiguous _ _ _ => "CS0104"
  | namespaceAsType _ => "CS0118"
  | notAnAttribute _ => "CS0616"
  | staticImportOfNamespace _ => "CS7007"
  | importOfType _ => "CS0138"
  | repeatedImport _ => "CS0105"
  | repeatedType _ _ => "CS0101"
  | repeatedMember _ _ => "CS0102"
  | namedLikeType _ => "CS0542"
  | voidField => "CS0670"
  | voidProperty _ => "CS0547"
  | repeatedAccessor => "CS1007"
  | noAccessor _ => "CS0548"

def message : Problem → String
  | unknown name =>
    "The type or namespace name '" ++ name ++
      "' could not be found (are you missing a using directive or an assembly reference?)"
  | notInNamespace name scope =>
    "The type or namespace name '" ++ name ++ "' does not exist in the namespace '" ++ scope ++
      "' (are you missing an assembly reference?)"
  | notInType name type =>
    "The type name '" ++ name ++ "' does not exist in the type '" ++ type ++ "'"
  | notAtRoot name =>
    "The type or namespace name '" ++ name ++
      "' could not be found in the global namespace (are you missing an assembly reference?)"
  | notGeneric name =>
    "The non-generic type '" ++ name ++ "' cannot be used with type arguments"
  | wrongArity name arity =>
    "Using the generic type '" ++ genericText (lastPart name) arity ++ "' requires " ++
      toString arity ++ " type arguments"
  | ambiguous name first second =>
    "'" ++ name ++ "' is an ambiguous reference between '" ++ first ++ "' and '" ++ second ++ "'"
  | namespaceAsType name => "'" ++ name ++ "' is a namespace but is used like a type"
  | notAnAttribute name => "'" ++ name ++ "' is not an attribute class"
  | staticImportOfNamespace name =>
    "A 'using static' directive can only be applied to types; '" ++ name ++
      "' is a namespace not a type"
  | importOfType name =>
    "A 'using namespace' directive can only be applied to namespaces; '" ++ name ++
      "' is a type not a namespace. Consider a 'using static' directive instead"
  | repeatedImport name =>
    "The using directive for '" ++ name ++ "' appeared previously in this namespace"
  | repeatedType scope name =>
    "The namespace '" ++ (if scope.isEmpty then "<global namespace>" else scope) ++
      "' already contains a definition for '" ++ name ++ "'"
  | repeatedMember type name =>
    "The type '" ++ type ++ "' already contains a definition for '" ++ name ++ "'"
  | namedLikeType name => "'" ++ name ++ "': member names cannot be the same as their enclosing type"
  | voidField => "Field cannot have void type"
  | voidProperty name => "'" ++ name ++ "': property or indexer cannot have void type"
  | repeatedAccessor => "Property accessor already defined"
  | noAccessor name => "'" ++ name ++ "': property or indexer must have at least one accessor"

def severity : Problem → Severity
  | repeatedImport _ => .warning
  | _ => .error

def onLine (line : Nat) (p : Problem) : Diagnostic := ⟨p.code, p.message, p.severity, line, false⟩

def ofArity (name : String) (arity : Nat) : Problem :=
  if arity == 0 then notGeneric name else wrongArity name arity

end Problem

structure Reported (α : Type) where
  value : α
  reports : List Diagnostic := []

instance : Monad Reported where
  pure a := ⟨a, []⟩
  bind x f :=
    let y := f x.value
    ⟨y.value, x.reports ++ y.reports⟩

def say (reports : List Diagnostic) : Reported Unit := ⟨(), reports⟩

def sayIf (condition : Bool) (line : Nat) (p : Problem) : Reported Unit :=
  say (if condition then [p.onLine line] else [])

end DataClasses.Binding
