import DataClasses.Json.Value
import DataClasses.Number.Decimal
import DataClasses.Text.Visible

/-!
# Shapes of values

A schema says what a value has to look like. Reading by a schema gives the value in a
normal form: a record is an object of all its fields in the order of the schema, those
that were not written with their defaults.
-/

set_option autoImplicit false

namespace DataClasses.Json

inductive Schema where
  | text
  | flag
  | byte
  | optional (inner : Schema)
  | choice (names : List String)
  | list (element : Schema)
  | dictionary (element : Schema)
  | record (name : String) (fields : List (String × Schema × Option Json))

inductive Found where
  | null
  | bool (value : Bool)
  | integer (value : Int)
  | float (text : String)
  | str (value : String)
  | sequence
  | map

def integerText (n : Int) : String :=
  "integer `" ++ toString n ++ "`" ++
    if -(Int.ofNat (1 <<< 63)) ≤ n && n < Int.ofNat (1 <<< 64) then ""
    else if n < Int.ofNat (1 <<< 127) then " as i128"
    else " as u128"

def Found.describe : Found → String
  | null => "null"
  | bool b => "boolean `" ++ (if b then "true" else "false") ++ "`"
  | integer n => integerText n
  | float text => "floating point `" ++ text ++ "`"
  | str s => "string " ++ Text.visible s
  | sequence => "sequence"
  | map => "map"

def invalidType (found : Found) (expected : String) : String :=
  "invalid type: " ++ found.describe ++ ", expected " ++ expected

def invalidValue (found : Found) (expected : String) : String :=
  "invalid value: " ++ found.describe ++ ", expected " ++ expected

def missingField (name : String) : String := "missing field `" ++ name ++ "`"

def duplicateField (name : String) : String := "duplicate field `" ++ name ++ "`"

def invalidLength (length : Nat) (expected : String) : String :=
  "invalid length " ++ toString length ++ ", expected " ++ expected

def oneOf (names : List String) : String :=
  match names.map fun n => "`" ++ n ++ "`" with
  | [a] => a
  | [a, b] => a ++ " or " ++ b
  | all => "one of " ++ ", ".intercalate all

def unknownVariant (name : String) (names : List String) : String :=
  "unknown variant `" ++ name ++ "`, expected " ++ oneOf names

def recordText (name : String) : String := "struct " ++ name

def recordWithLength (name : String) (count : Nat) : String :=
  recordText name ++ " with " ++ toString count ++
    (if count == 1 then " element" else " elements")

structure Field (ρ : Type) where
  name : String
  reader : ρ
  fallback : Option Json

def fill {ρ : Type} (written : Entries Json) : List (Field ρ) → Except String (Entries Json)
  | [] => .ok []
  | f :: fields =>
    match (Entries.get? written f.name).orElse fun _ => f.fallback with
    | some v => (fill written fields).map ((f.name, v) :: ·)
    | none => .error (missingField f.name)

def byteOf (n : Int) : Except String Json :=
  if 0 ≤ n && n ≤ 255 then .ok (.integer n) else .error (invalidValue (.integer n) "u8")

end DataClasses.Json
