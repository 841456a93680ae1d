import DataClasses.Json.Value
import DataClasses.Number.Decimal
import DataClasses.Text.Basic

/-!
# JSON text

Values as text: on one line without blanks, or one entry a line with indentation.
-/

set_option autoImplicit false

namespace DataClasses.Json

def quoteChar (c : Char) : List Char :=
  match c with
  | '"' => ['\\', '"']
  | '\\' => ['\\', '\\']
  | '\x08' => ['\\', 'b']
  | '\x0c' => ['\\', 'f']
  | '\n' => ['\\', 'n']
  | '\r' => ['\\', 'r']
  | '\t' => ['\\', 't']
  | _ => if c.toNat < 32 then '\\' :: 'u' :: Text.hexDigits 4 c.toNat else [c]

def quote (text : String) : String :=
  String.ofList ('"' :: text.toList.flatMap quoteChar ++ ['"'])

def boolText (b : Bool) : String := if b then "true" else "false"

mutual

def compact : Json → String
  | .null => "null"
  | .bool b => boolText b
  | .integer n => toString n
  | .float x => x.shortestText
  | .str s => quote s
  | .arr items => "[" ++ ",".intercalate (compactItems items) ++ "]"
  | .obj members => "\x7b" ++ ",".intercalate (compactMembers members) ++ "\x7d"

def compactItems : List Json → List String
  | [] => []
  | v :: rest => compact v :: compactItems rest

def compactMembers : List (String × Json) → List String
  | [] => []
  | (k, v) :: rest => (quote k ++ ":" ++ compact v) :: compactMembers rest

end

def newline (depth : Nat) : String := "\n" ++ String.ofList (List.replicate (2 * depth) ' ')

/-- Entries one a line between brackets; no entries stand on the line of the brackets. -/
def block (opening closing : String) (depth : Nat) (entries : List String) : String :=
  if entries.isEmpty then opening ++ closing
  else
    opening ++ newline (depth + 1) ++ ("," ++ newline (depth + 1)).intercalate entries ++
      newline depth ++ closing

mutual

def prettyAt (depth : Nat) : Json → String
  | .null => "null"
  | .bool b => boolText b
  | .integer n => toString n
  | .float x => x.shortestText
  | .str s => quote s
  | .arr items => block "[" "]" depth (prettyItems (depth + 1) items)
  | .obj members => block "\x7b" "\x7d" depth (prettyMembers (depth + 1) members)

def prettyItems (depth : Nat) : List Json → List String
  | [] => []
  | v :: rest => prettyAt depth v :: prettyItems depth rest

def prettyMembers (depth : Nat) : List (String × Json) → List String
  | [] => []
  | (k, v) :: rest => (quote k ++ ": " ++ prettyAt depth v) :: prettyMembers depth rest

end

def pretty (v : Json) : String := prettyAt 0 v

end DataClasses.Json
