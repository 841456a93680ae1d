import DataClasses.Entries

/-!
# TOML values

A TOML document as a tree of tables. Each table knows how it came to be, since that
decides whether it may still grow.
-/

set_option autoImplicit false

namespace DataClasses

/-- How a table was introduced: by its own header, by the header of a table below it, by
a dotted key, or between braces. -/
inductive TableOrigin where
  | header
  | implied
  | dotted
  | inline
  deriving DecidableEq, Repr

/-- A value. What is written like a number and has no digits, or is too large, is
`unreadable`; that matters only to those who look at it. -/
inductive Toml where
  | str (value : String)
  | integer (value : Int)
  | float (text : String)
  | bool (value : Bool)
  | moment (text : String)
  | arr (items : List Toml)
  | table (origin : TableOrigin) (entries : List (String × Toml))
  | tables (items : List (List (String × Toml)))
  | unreadable
  deriving Inhabited, Repr

namespace Toml

abbrev Table := Entries Toml

/-- Changes the table at the end of a path. Tables that are missing on the way are made:
by a dotted key if `dotted`, and otherwise as implied by a header. A dotted key does not
enter a table that has a header, and nothing enters a table between braces. -/
def within (dotted : Bool) :
    List String → (TableOrigin → Table → Option Table) → TableOrigin → Table → Option Table
  | [], edit, origin, entries => edit origin entries
  | key :: path, edit, _, entries =>
    match Entries.get? entries key with
    | none =>
      let origin : TableOrigin := if dotted then .dotted else .implied
      (within dotted path edit origin []).map fun sub => Entries.put entries key (.table origin sub)
    | some (.table origin sub) =>
      if origin == .inline || (dotted && origin == .header) then none
      else
        (within dotted path edit origin sub).map fun sub =>
          Entries.put entries key (.table origin sub)
    | some (.tables items) =>
      match items.getLast? with
      | none => none
      | some last =>
        (within dotted path edit .header last).map fun sub =>
          Entries.put entries key (.tables (items.dropLast ++ [sub]))
    | some _ => none

/-- Gives a dotted key its value; neither the key nor a table with a header in its path may
be there. -/
def assign (path : List String) (value : Toml) (origin : TableOrigin) (entries : Table) :
    Option Table :=
  match path.getLast? with
  | none => none
  | some key =>
    within true path.dropLast (fun o es =>
      if (o == .dotted) == path.dropLast.isEmpty || Entries.has es key then none
      else some (Entries.put es key value)) origin entries

/-- Opens the table of a header. It may be implied by a header before, but not be there. -/
def openTable (path : List String) (root : Table) : Option Table :=
  match path.getLast? with
  | none => none
  | some key =>
    within false path.dropLast (fun _ es =>
      match Entries.get? es key with
      | none => some (Entries.put es key (.table .header []))
      | some (.table .implied sub) => some (Entries.put es key (.table .header sub))
      | some _ => none) .header root

def openElement (path : List String) (root : Table) : Option Table :=
  match path.getLast? with
  | none => none
  | some key =>
    within false path.dropLast (fun _ es =>
      match Entries.get? es key with
      | none => some (Entries.put es key (.tables [[]]))
      | some (.tables items) => some (Entries.put es key (.tables (items ++ [[]])))
      | some _ => none) .header root

end Toml
end DataClasses
