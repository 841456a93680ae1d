/-!
# Paths

A path as the names it goes through, and the name and extension of what it leads to.
-/

set_option autoImplicit false

namespace DataClasses

/-- How a path ends: with a name, with a slash behind one, or with dots, which stand for a
folder. -/
inductive PathEnd where
  | name
  | slash
  | dots
  deriving DecidableEq, Repr

structure Path where
  names : List String
  ending : PathEnd
  deriving DecidableEq, Repr

namespace Path

def asFolder (p : Path) : Bool := p.ending != .name

def walk : List String → List String → List String
  | acc, [] => acc.reverse
  | acc, ".." :: rest => walk (acc.drop 1) rest
  | acc, name :: rest => walk (name :: acc) rest

def isDots (name : String) : Bool := name == "." || name == ".."

def partsOf (text : String) : List String := (text.toList.splitOn '/').map String.ofList

def ofText (text : String) : Path :=
  let parts := partsOf text
  let named := parts.filter (· != "")
  { names := walk [] (named.filter (· != "."))
    ending :=
      if named.getLast?.all isDots then .dots
      else if parts.getLast? == some "" then .slash
      else .name }

def fileName? (text : String) : Option String := (ofText text).names.getLast?

def parentText (text : String) : String :=
  let trimmed := text.toList.reverse.dropWhile (· == '/')
  let parent := (trimmed.dropWhile (· != '/')).dropWhile (· == '/')
  if parent.isEmpty && trimmed.contains '/' then "/" else String.ofList parent.reverse

def wayTo (text : String) : List String :=
  let names := partsOf text
  (List.range names.length).filterMap fun n =>
    let part := "/".intercalate (names.take (n + 1))
    if part.isEmpty then none else some part

/-- The characters behind the last point of a name, unless the name begins with it. -/
def extension? (text : String) : Option String :=
  (fileName? text).bind fun name =>
    let back := name.toList.reverse
    match back.dropWhile (· != '.') with
    | [] => none
    | [_] => none
    | _ => some (String.ofList (back.takeWhile (· != '.')).reverse)

end Path
end DataClasses
