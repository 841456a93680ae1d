import DataClasses.Declaration.Basic

/-!
# Type tables

The types of a module with their members, in the order of their declarations.
-/

set_option autoImplicit false

namespace DataClasses

inductive MemberKind where
  | field
  | property
  | method
  | constructor
  | enumValue
  deriving DecidableEq, Repr

structure MemberEntry where
  name : String
  kind : MemberKind
  typeName : Option String := none
  key : Option String := none
  deriving DecidableEq, Repr

/-- A type. The name of a type inside others has their names before its own. -/
structure TypeEntry where
  scope : String
  name : String
  kind : TypeKind
  typeParameters : List String
  baseTypes : List String
  members : List MemberEntry
  deriving DecidableEq, Repr

/-- A dotted name of two parts, the first of which may be missing. -/
def joinNames (outer name : String) : String := if outer.isEmpty then name else outer ++ "." ++ name

namespace TypeEntry

def fullName (t : TypeEntry) : String := joinNames t.scope t.name

def member? (t : TypeEntry) (name : String) : Option MemberEntry :=
  t.members.find? (·.name == name)

def sameType (t u : TypeEntry) : Bool :=
  t.scope == u.scope && t.name == u.name && t.typeParameters.length == u.typeParameters.length

def merge (t u : TypeEntry) : TypeEntry :=
  { t with
    members := t.members ++ u.members
    baseTypes := u.baseTypes.foldl
      (fun acc b => if acc.contains b then acc else acc ++ [b]) t.baseTypes }

end TypeEntry

structure TypeTable where
  types : List TypeEntry
  deriving DecidableEq, Repr

namespace TypeTable

/-- Puts an entry at the end, or adds it to the first one about the same type. -/
def insert : List TypeEntry → TypeEntry → List TypeEntry
  | [], u => [u]
  | t :: rest, u => if t.sameType u then t.merge u :: rest else t :: insert rest u

def ofEntries (entries : List TypeEntry) : TypeTable := ⟨entries.foldl insert []⟩

def find? (table : TypeTable) (fullName : String) : Option TypeEntry :=
  table.types.find? (·.fullName == fullName)

def scopes (table : TypeTable) : List String :=
  table.types.foldl (fun acc t => if acc.contains t.scope then acc else acc ++ [t.scope]) []

end TypeTable
end DataClasses
