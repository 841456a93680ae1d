import DataClasses.Json.Decode
import DataClasses.Json.Printer
import DataClasses.Json.Typed
import DataClasses.TypeTable.Basic

/-!
# Type tables as data

The value of a type table. What is empty or missing is left out, apart from the members.
-/

set_option autoImplicit false

namespace DataClasses

def MemberKind.all : List MemberKind := [.field, .property, .method, .constructor, .enumValue]

def MemberKind.name : MemberKind → String
  | .field => "field"
  | .property => "property"
  | .method => "method"
  | .constructor => "constructor"
  | .enumValue => "enum_value"

def MemberKind.ofName? (name : String) : Option MemberKind :=
  MemberKind.all.find? (·.name == name)

def optionalText (key : String) : Option String → Entries Json
  | some s => [(key, .str s)]
  | none => []

def someTexts (key : String) (texts : List String) : Entries Json :=
  if texts.isEmpty then [] else [(key, .arr (texts.map .str))]

namespace MemberEntry

def toJson (m : MemberEntry) : Json :=
  .obj ([("name", .str m.name), ("kind", .str m.kind.name)] ++
    optionalText "type_name" m.typeName ++ optionalText "serialized_name" m.key)

def schema : Json.Schema :=
  .record "MemberEntry"
    [("name", .text, none),
     ("kind", .choice (MemberKind.all.map MemberKind.name), none),
     ("type_name", .optional .text, some .null),
     ("serialized_name", .optional .text, some .null)]

def ofJson (v : Json) : MemberEntry where
  name := (v.member "name").text
  kind := (MemberKind.ofName? (v.member "kind").text).getD .field
  typeName := (v.member "type_name").text?
  key := (v.member "serialized_name").text?

end MemberEntry

namespace TypeEntry

def toJson (t : TypeEntry) : Json :=
  .obj ([("namespace", .str t.scope), ("name", .str t.name), ("kind", .str t.kind.name)] ++
    someTexts "type_parameters" t.typeParameters ++ someTexts "base_types" t.baseTypes ++
    [("members", .arr (t.members.map MemberEntry.toJson))])

def schema : Json.Schema :=
  .record "TypeEntry"
    [("namespace", .text, none),
     ("name", .text, none),
     ("kind", .choice (TypeKind.all.map TypeKind.name), none),
     ("type_parameters", .list .text, some (.arr [])),
     ("base_types", .list .text, some (.arr [])),
     ("members", .list MemberEntry.schema, some (.arr []))]

def ofJson (v : Json) : TypeEntry where
  scope := (v.member "namespace").text
  name := (v.member "name").text
  kind := (TypeKind.ofName? (v.member "kind").text).getD .plainClass
  typeParameters := (v.member "type_parameters").items.map Json.text
  baseTypes := (v.member "base_types").items.map Json.text
  members := (v.member "members").items.map MemberEntry.ofJson

end TypeEntry

namespace TypeTable

def toJson (table : TypeTable) : Json := .obj [("types", .arr (table.types.map TypeEntry.toJson))]

def schema : Json.Schema := .record "TypeTable" [("types", .list TypeEntry.schema, none)]

def ofJson (v : Json) : TypeTable := ⟨(v.member "types").items.map TypeEntry.ofJson⟩

def ofText (text : String) : Except Json.Fault TypeTable := (schema.parse text).map ofJson

def ofValue (v : Json) : Except String TypeTable := (schema.decode Json.format v).map ofJson

end TypeTable
end DataClasses
