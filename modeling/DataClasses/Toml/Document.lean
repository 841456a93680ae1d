import DataClasses.Toml.Scalar

/-!
# TOML documents

The table of a TOML text. Lists and tables between braces may stand in each other up to a
depth of 80.
-/

set_option autoImplicit false

namespace DataClasses.Toml

open Scan

def isBareKey (c : Char) : Bool := c.isAlphanum || c == '-' || c == '_'

def simpleKey : Scan String := do
  match ← peek? with
  | some '"' =>
    drop 1
    basicRest
  | some '\'' =>
    drop 1
    literalRest
  | _ =>
    let cs ← takeWhile isBareKey
    if cs.isEmpty then fail else pure (String.ofList cs)

def depthLimit : Nat := 80

def keyParts : Scan (List String) :=
  loop id (fun acc => do
    blanks
    let acc := acc ++ [← simpleKey]
    blanks
    match ← peek? with
    | some '.' =>
      drop 1
      pure (.again acc)
    | _ => pure (.done acc)) []

def keyPath : Scan (List String) := do
  let path ← keyParts
  if depthLimit < path.length then modify fun s => { s with longKey := true }
  pure path

/-- Makes a change to a table that may be refused. Behind a key of too many parts it does not
matter any more what the tables hold. -/
def change (edit : Table → Option Table) (table : Table) : Scan Table := do
  match edit table with
  | some t => pure t
  | none => if (← get).longKey then pure table else refuse

def assignment (value : Scan Toml) : Scan (List String × Toml) := do
  let path ← keyPath
  expect ['=']
  blanks
  pure (path, ← value)

def elements (value : Scan Toml) : Scan Toml :=
  loop Toml.arr (fun acc => do
    gap
    match ← peek? with
    | some ']' =>
      drop 1
      pure (.done (.arr acc))
    | _ =>
      let acc := acc ++ [← value]
      gap
      match ← peek? with
      | some ',' =>
        drop 1
        pure (.again acc)
      | some ']' =>
        drop 1
        pure (.done (.arr acc))
      | _ => fail) []

def inlineEntries (value : Scan Toml) : Scan Toml :=
  loop (Toml.table .inline) (fun acc => do
    gap
    match ← peek? with
    | some '}' =>
      drop 1
      pure (.done (.table .inline acc))
    | _ =>
      let (path, v) ← assignment value
      let acc ← change (assign path v .header) acc
      gap
      match ← peek? with
      | some ',' =>
        drop 1
        pure (.again acc)
      | some '}' =>
        drop 1
        pure (.done (.table .inline acc))
      | _ => fail) []

def valueWith (inner : Option (Scan Toml)) : Scan Toml := do
  match ← peek?, inner with
  | some '[', some element =>
    drop 1
    elements element
  | some '{', some element =>
    drop 1
    inlineEntries element
  | some '[', none => fail
  | some '{', none => fail
  | _, _ =>
    match ← string? with
    | some s => pure (.str s)
    | none => scalar

def value : Nat → Scan Toml
  | 0 => valueWith none
  | room + 1 => valueWith (some (value room))

def header (opening closing : List Char) : Scan (List String) := do
  expect opening
  let path ← keyPath
  expect closing
  restOfLine
  pure path

def line (root : Table) (current : List String) : Scan (Table × List String) := do
  blanks
  if ← startsWith ['[', '['] then
    let path ← header ['[', '['] [']', ']']
    pure (← change (openElement path) root, path)
  else if ← startsWith ['['] then
    let path ← header ['['] [']']
    pure (← change (openTable path) root, path)
  else
    match ← peek? with
    | some c =>
      if c == '#' || c == '\n' || c == '\r' then
        restOfLine
        pure (root, current)
      else
        let (path, v) ← assignment (value depthLimit)
        restOfLine
        let root ← change (within false current (assign path v) .header) root
        pure (root, current)
    | none => pure (root, current)

def lines : Scan Table :=
  loop (fun x => x.1) (fun x => do
    if (← rest).isEmpty then pure (.done x.1)
    else
      let y ← line x.1 x.2
      pure (.again y)) (([] : Table), ([] : List String))

def parse (text : String) : Except Fault Table :=
  let cs := match text.toList with
    | '\ufeff' :: cs => cs
    | cs => cs
  match lines { rest := cs } with
  | .error fault => .error fault
  | .ok (root, left) => if left.longKey then .error .longKey else .ok root

end DataClasses.Toml
