import DataClasses.Entries
import DataClasses.Number.Binary64

/-!
# JSON values

A document as a value. The members of an object keep their order, and a repeated key
has the place of its first and the value of its last occurrence.
-/

set_option autoImplicit false

namespace DataClasses

inductive Json where
  | null
  | bool (value : Bool)
  | integer (value : Int)
  | float (value : Binary64)
  | str (value : String)
  | arr (items : List Json)
  | obj (members : List (String × Json))
  deriving Inhabited, Repr

namespace Json

def kind : Json → String
  | null => "null"
  | bool _ => "boolean"
  | integer _ => "integer"
  | float _ => "float"
  | str _ => "string"
  | arr _ => "array"
  | obj _ => "object"

def members? : Json → Option (Entries Json)
  | obj members => some members
  | _ => none

def member (value : Json) (key : String) : Json :=
  match value with
  | obj members => (Entries.get? members key).getD null
  | _ => null

def text : Json → String
  | str s => s
  | _ => ""

def isTrue : Json → Bool
  | bool b => b
  | _ => false

def items : Json → List Json
  | arr items => items
  | _ => []

def entries : Json → Entries Json
  | obj members => members
  | _ => []

def natural : Json → Nat
  | integer n => n.toNat
  | _ => 0

def text? : Json → Option String
  | str s => some s
  | _ => none

end Json
end DataClasses
