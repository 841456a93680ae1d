import DataClasses.ClassTree.Basic
import DataClasses.Identifier.Naming
import DataClasses.Json.Value
import DataClasses.Settings.Basic
import DataClasses.Timestamp

/-!
# Classes from a sample

Every object of a document becomes a class, named after the member that holds it. A list
has the type of its first element. Where two objects ask for one name, the class has the
place of the first and the members of the one that was finished last.
-/

set_option autoImplicit false

namespace DataClasses.ClassTree

def numbered (name : String) (k : Nat) : String := name ++ "_" ++ toString k

/-- The name, and the name with the suffixes `_2`, `_3`, …, of which there are as many as names
in use. -/
def candidateNames (used : List String) (name : String) : List String :=
  name :: (List.range used.length).map fun k => numbered name (k + 2)

def freeName (used : List String) (name : String) : String :=
  ((candidateNames used name).find? (!used.contains ·)).getD name

def memberNames (capitalize : Bool) (used : List String) : List String → List String
  | [] => []
  | key :: keys =>
    let name := freeName used (Identifier.capitalize capitalize (Identifier.sanitize key))
    name :: memberNames capitalize (used ++ [name]) keys

def namesOf (capitalize : Bool) (members : List (String × Json)) : List String :=
  memberNames capitalize [] (members.map (·.1))

/-- The classes found so far by name. A class whose members are still being read has its
place but no members yet. -/
abbrev Found := Entries (Option ClassShape)

def reserve (found : Found) (name : String) : Found :=
  if found.has name then found else found.put name none

mutual

def typeOf (capitalize : Bool) (name : String) : Json → Found → MemberType × Found
  | .null, found => (.primitive .object, found)
  | .bool _, found => (.primitive .boolean, found)
  | .integer _, found => (.primitive .integer, found)
  | .float _, found => (.primitive .float, found)
  | .str s, found =>
    (.primitive (if Timestamp.isTimestamp s then .timestamp else .text), found)
  | .arr items, found => listType capitalize (Identifier.singular name) items found
  | .obj members, found =>
    let names := namesOf capitalize members
    let (properties, found) := propertiesOf capitalize names members (reserve found name)
    (.classNamed name, found.put name (some ⟨name, false, properties⟩))

def listType (capitalize : Bool) (name : String) : List Json → Found → MemberType × Found
  | [], found => (.listOf (.primitive .object), found)
  | .arr inner :: _, found =>
    let (type, found) := listType capitalize name inner found
    (.listOf type, found)
  | item :: _, found =>
    let (type, found) := typeOf capitalize name item found
    (.listOf type, found)

def propertiesOf (capitalize : Bool) :
    List String → List (String × Json) → Found → List Property × Found
  | name :: names, (key, value) :: members, found =>
    let (type, found) := typeOf capitalize name value found
    let (properties, found) := propertiesOf capitalize names members found
    (⟨key, name, type⟩ :: properties, found)
  | _, _, found => ([], found)

end

def rootMembers : Json → Entries Json
  | .obj members => members
  | .arr (.obj members :: _) => members
  | _ => []

def ofDocument (document : Json) (settings : Settings) : ClassTree :=
  let members := rootMembers document
  let names := namesOf settings.capitalizeNames members
  let (properties, found) := propertiesOf settings.capitalizeNames names members []
  { root := ⟨settings.rootClass, true, properties⟩
    others := found.filterMap (·.2) }

end DataClasses.ClassTree
