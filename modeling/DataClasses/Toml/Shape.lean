import DataClasses.Json.Decode
import DataClasses.Toml.Document

/-!
# TOML by a schema

What a TOML text says in the normal form of a schema. Tables show their entries sorted by
key.
-/

set_option autoImplicit false

namespace DataClasses.Toml

open Json (View Format Schema)

def sorted (entries : Table) : Table := entries.mergeSort fun a b => decide (a.1 ≤ b.1)

def view : Toml → View Toml
  | .str s => .str s
  | .integer n => .integer n
  | .float text => .float text
  | .bool b => .bool b
  | .moment text => .obj [("moment", .str text)]
  | .arr items => .arr items
  | .table _ entries => .obj (sorted entries)
  | .tables items => .arr (items.map (.table .header))
  | .unreadable => .fault "number out of range"

def choice : Toml → Except String (String × Option Toml)
  | .str name => .ok (name, none)
  | .table _ [(name, content)] => .ok (name, some content)
  | _ => .error "wanted string or table"

def nothing : Toml → Except String Unit
  | .arr [] => .ok ()
  | .table _ [] => .ok ()
  | _ => .error "expected empty table"

mutual

def isReadable : Toml → Bool
  | .unreadable => false
  | .arr items => areReadable items
  | .table _ entries => haveReadable entries
  | .tables items => allHaveReadable items
  | _ => true

def areReadable : List Toml → Bool
  | [] => true
  | v :: rest => isReadable v && areReadable rest

def haveReadable : List (String × Toml) → Bool
  | [] => true
  | (_, v) :: rest => isReadable v && haveReadable rest

def allHaveReadable : List (List (String × Toml)) → Bool
  | [] => true
  | entries :: rest => haveReadable entries && allHaveReadable rest

end

def skip (v : Toml) : Except String Unit :=
  if isReadable v then .ok () else .error "number out of range"

def format : Format Toml := ⟨view, choice, nothing, skip, true⟩

def read (schema : Schema) (text : String) : Except Fault Json :=
  match parse text with
  | .error fault => .error fault
  | .ok entries => (schema.decode format (.table .header entries)).mapError .shape

def isTold (message : String) : Bool :=
  ["missing field", "unknown variant", "invalid type"].any fun start =>
    start.toList.isPrefixOf message.toList

def lastLine (message : String) : String :=
  String.ofList (message.toList.reverse.takeWhile (· != '\n')).reverse

def Fault.message : Fault → String
  | form => "TOML error: syntax"
  | longKey => "recursion limit\n"
  | shape message =>
    let line := lastLine message
    "TOML error: " ++ (if isTold line then line else "syntax")

end DataClasses.Toml
