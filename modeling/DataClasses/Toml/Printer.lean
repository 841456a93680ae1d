import DataClasses.Json.Value
import DataClasses.Text.Basic

/-!
# TOML text of simple tables

Each string is written in the first of the forms that need no escapes: between double
quotes, between single quotes, over several lines. If each form needs some, it is
escaped.
-/

set_option autoImplicit false

namespace DataClasses.Toml

def longestRun (c : Char) : List Char → Nat → Nat
  | [], run => run
  | d :: cs, run => if d == c then longestRun c cs (run + 1) else max run (longestRun c cs 0)

def needsEscape (c : Char) : Bool :=
  (c.toNat < 32 && c != '\t' && c != '\n') || c.toNat == 127

def escapeChar (c : Char) : List Char :=
  match c with
  | '\x08' => ['\\', 'b']
  | '\t' => ['\\', 't']
  | '\x0c' => ['\\', 'f']
  | '\r' => ['\\', 'r']
  | '\n' => ['\\', 'n']
  | '"' => ['\\', '"']
  | '\\' => ['\\', '\\']
  | _ =>
    if needsEscape c then '\\' :: 'u' :: (Text.hexDigits 4 c.toNat).map Char.toUpper else [c]

def escapeLines : Nat → List Char → List Char
  | _, [] => []
  | run, c :: cs =>
    if c == '"' then
      if run < 2 then c :: escapeLines (run + 1) cs else '\\' :: c :: escapeLines 0 cs
    else if c == '\n' then c :: escapeLines 0 cs
    else escapeChar c ++ escapeLines 0 cs

def enclose (quotes : String) (newline : Bool) (body : List Char) : String :=
  quotes ++ (if newline then "\n" else "") ++ String.ofList body ++ quotes

def quote (text : String) : String :=
  let cs := text.toList
  let codes := cs.any needsEscape
  let backslash := cs.contains '\\'
  let lines := cs.contains '\n'
  let single := longestRun '\'' cs 0
  let double := longestRun '"' cs 0
  if !codes && !backslash && double == 0 && !lines then enclose "\"" false (cs.flatMap escapeChar)
  else if !codes && single == 0 && !lines then enclose "'" false cs
  else if !codes && !backslash && double ≤ 2 then enclose "\"\"\"" lines (escapeLines 0 cs)
  else if !codes && single ≤ 2 then enclose "'''" lines cs
  else if lines then enclose "\"\"\"" true (escapeLines 0 cs)
  else enclose "\"" false (cs.flatMap escapeChar)

def scalarLine : Json → String
  | .str s => quote s
  | .bool b => if b then "true" else "false"
  | .integer n => toString n
  | _ => ""

def ofEntries (entries : Entries Json) : String :=
  String.join (entries.map fun e => e.1 ++ " = " ++ scalarLine e.2 ++ "\n")

end DataClasses.Toml
