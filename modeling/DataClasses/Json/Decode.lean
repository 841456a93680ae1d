import DataClasses.Json.Schema

/-!
# Values by a schema

The normal form of a value that is there already, or a message about where it departs
from its schema. The values may be of any type that shows itself one layer at a time; the
entries of a table are looked at in the order in which it shows them.
-/

set_option autoImplicit false

namespace DataClasses.Json

inductive View (ν : Type) where
  | null
  | bool (value : Bool)
  | integer (value : Int)
  | float (text : String)
  | str (value : String)
  | arr (items : List ν)
  | obj (members : List (String × ν))
  | fault (message : String)

structure Format (ν : Type) where
  view : ν → View ν
  choice : ν → Except String (String × Option ν)
  nothing : ν → Except String Unit
  skip : ν → Except String Unit
  mayExceed : Bool

def View.found {ν : Type} : View ν → Except String Found
  | null => .ok .null
  | bool b => .ok (.bool b)
  | integer n => .ok (.integer n)
  | float text => .ok (.float text)
  | str s => .ok (.str s)
  | arr _ => .ok .sequence
  | obj _ => .ok .map
  | fault message => .error message

def View.refuse {ν α : Type} (v : View ν) (expected : String) : Except String α := do
  throw (invalidType (← v.found) expected)

abbrev Decoder (ν : Type) := ν → Except String Json

variable {ν : Type}

def decodeText : View ν → Except String Json
  | .str s => .ok (.str s)
  | v => v.refuse "a string"

def decodeFlag : View ν → Except String Json
  | .bool b => .ok (.bool b)
  | v => v.refuse "a boolean"

def decodeByte : View ν → Except String Json
  | .integer n => byteOf n
  | v => v.refuse "u8"

def decodeOptional (inner : Decoder ν) (value : ν) : View ν → Except String Json
  | .null => .ok .null
  | _ => inner value

def knownVariant (names : List String) (name : String) : Except String Unit :=
  if names.contains name then .ok () else .error (unknownVariant name names)

def decodeChoice (format : Format ν) (names : List String) (value : ν) :
    Except String Json := do
  let (name, content) ← format.choice value
  knownVariant names name
  match content with
  | some c => format.nothing c
  | none => pure ()
  pure (.str name)

def decodeList (element : Decoder ν) : View ν → Except String Json
  | .arr items => (items.mapM element).map .arr
  | v => v.refuse "a sequence"

def decodeDictionary (element : Decoder ν) : View ν → Except String Json
  | .obj members => (members.mapM fun m => (element m.2).map fun v => (m.1, v)).map .obj
  | v => v.refuse "a map"

def decodeFields (format : Format ν) (fields : List (Field (Decoder ν))) :
    List (String × ν) → Except String (Entries Json)
  | [] => .ok []
  | (key, value) :: members =>
    match fields.find? (·.name == key) with
    | none => do
      format.skip value
      decodeFields format fields members
    | some f => do
      let v ← f.reader value
      let rest ← decodeFields format fields members
      pure ((key, v) :: rest)

/-- The elements of a list as the values of fields, and the elements left over. -/
def decodeElements (name : String) (count : Nat) :
    List (Field (Decoder ν)) → Nat → List ν → Except String (Entries Json × List ν)
  | [], _, items => .ok ([], items)
  | f :: fields, i, item :: items => do
    let v ← f.reader item
    let (rest, left) ← decodeElements name count fields (i + 1) items
    pure ((f.name, v) :: rest, left)
  | f :: fields, i, [] =>
    match f.fallback with
    | some v => do
      let (rest, left) ← decodeElements name count fields (i + 1) []
      pure ((f.name, v) :: rest, left)
    | none => .error (invalidLength i (recordWithLength name count))

def decodeRecord (format : Format ν) (name : String) (fields : List (Field (Decoder ν))) :
    View ν → Except String Json
  | .obj members => do
    let written ← decodeFields format fields members
    (fill written fields).map .obj
  | .arr items => do
    let (all, left) ← decodeElements name fields.length fields 0 items
    if left.isEmpty || format.mayExceed then pure (.obj all)
    else .error (invalidLength items.length "fewer elements in array")
  | v => v.refuse (recordText name)

mutual

def Schema.decode (format : Format ν) : Schema → Decoder ν
  | .text => fun value => decodeText (format.view value)
  | .flag => fun value => decodeFlag (format.view value)
  | .byte => fun value => decodeByte (format.view value)
  | .optional inner => fun value =>
    decodeOptional (inner.decode format) value (format.view value)
  | .choice names => decodeChoice format names
  | .list element => fun value => decodeList (element.decode format) (format.view value)
  | .dictionary element => fun value =>
    decodeDictionary (element.decode format) (format.view value)
  | .record name fields => fun value =>
    decodeRecord format name (fieldDecoders format fields) (format.view value)

def fieldDecoders (format : Format ν) :
    List (String × Schema × Option Json) → List (Field (Decoder ν))
  | [] => []
  | (name, schema, fallback) :: fields =>
    ⟨name, schema.decode format, fallback⟩ :: fieldDecoders format fields

end

def view : Json → View Json
  | .null => .null
  | .bool b => .bool b
  | .integer n => .integer n
  | .float x => .float x.shortestText
  | .str s => .str s
  | .arr items => .arr items
  | .obj members => .obj members

def choice : Json → Except String (String × Option Json)
  | .str name => .ok (name, none)
  | .obj [(name, content)] => .ok (name, some content)
  | .obj _ => .error (invalidValue .map "map with a single key")
  | v => (view v).refuse "string or map"

def nothing : Json → Except String Unit
  | .null => .ok ()
  | v => (view v).refuse "unit"

def format : Format Json := ⟨view, choice, nothing, fun _ => .ok (), false⟩

end DataClasses.Json
