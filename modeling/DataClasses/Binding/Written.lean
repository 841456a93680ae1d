import DataClasses.Binding.Lookup

/-!
# Written types, attributes and imports

The full names of the types that are written in a source, the keys that attributes carry,
and the scopes that imports open.
-/

set_option autoImplicit false

namespace DataClasses.Binding

def Meaning.asType (line : Nat) : Meaning → Reported (Option String)
  | .type name => pure (some name)
  | .typeParameter name => pure (some name)
  | .native name => pure (some name)
  | .scope name => do
    say [(Problem.namespaceAsType name).onLine line]
    pure none

def withArguments (name : String) (arguments : List String) : String :=
  if arguments.isEmpty then name else name ++ "<" ++ ", ".intercalate arguments ++ ">"

def allOf (values : List (Option String)) : Option (List String) := values.mapM id

def partsWritten (segments : List (String × List TypeExpr)) : List (String × Nat) :=
  segments.map fun s => (s.1, s.2.length)

def bindName (symbols : Symbols) (place : Place) (segments : List (String × List TypeExpr))
    (fromRoot : Bool) (line : Nat) : Reported (Option String) :=
  match lookup symbols place (partsWritten segments) fromRoot with
  | .error problem => ⟨none, [problem.onLine line]⟩
  | .ok meaning => meaning.asType line

mutual

def bindType (symbols : Symbols) (place : Place) : TypeExpr → Reported (Option String)
  | .predefined keyword _ => pure (some keyword)
  | .named segments fromRoot line => do
    let arguments ← bindSegments symbols place segments
    let name ← bindName symbols place segments fromRoot line
    pure (name.bind fun n => (allOf arguments).map (withArguments n))
  | .array element rank => do
    let e ← bindType symbols place element
    pure (e.map fun n => n ++ "[" ++ String.ofList (List.replicate (rank - 1) ',') ++ "]")
  | .nullable inner => do
    let i ← bindType symbols place inner
    pure (i.map (· ++ "?"))
  | .tuple elements _ => do
    let es ← bindTypes symbols place elements
    pure ((allOf es).map fun ns => "(" ++ ", ".intercalate ns ++ ")")

def bindTypes (symbols : Symbols) (place : Place) :
    List TypeExpr → Reported (List (Option String))
  | [] => pure []
  | t :: rest => do
    let n ← bindType symbols place t
    let ns ← bindTypes symbols place rest
    pure (n :: ns)

def bindSegments (symbols : Symbols) (place : Place) :
    List (String × List TypeExpr) → Reported (List (Option String))
  | [] => pure []
  | (_, arguments) :: rest => do
    let ns ← bindTypes symbols place arguments
    let ms ← bindSegments symbols place rest
    pure (ns ++ ms)

end

def attributeSuffix : List Char := "Attribute".toList

def isAttributeName (name : String) : Bool := attributeSuffix.isSuffixOf name.toList

def keyAttributes : List String := ["JsonProperty", "JsonPropertyName"]

def attributeStem (name : String) : String :=
  if isAttributeName name then
    String.ofList (name.toList.take (name.toList.length - attributeSuffix.length))
  else name

/-- The names by which an attribute may be known: with the suffix first. -/
def attributeCandidates (name : String) : List String :=
  if isAttributeName name then [name] else [name ++ "Attribute", name]

/-- What looking for an attribute has come to: a class that is no attribute, if one was
found, and the reports. -/
structure AttributeSearch where
  other : Option String := none
  reports : List Diagnostic := []

/-- Looks for an attribute under each of its names. Nothing is reported if it is found. -/
def searchAttribute (symbols : Symbols) (place : Place) (outer : List String) (line : Nat) :
    List String → AttributeSearch → List Diagnostic
  | [], search =>
    match search.other with
    | some name => [(Problem.notAnAttribute name).onLine line]
    | none => search.reports
  | name :: rest, search =>
    let goOn := searchAttribute symbols place outer line rest
    match lookup symbols place ((outer ++ [name]).map fun part => (part, 0)) false with
    | .ok (.type full) =>
      if isAttributeName full then []
      else goOn { search with other := search.other.or (some full) }
    | .ok (.scope full) =>
      goOn { search with
        reports := search.reports ++ [(Problem.namespaceAsType full).onLine line] }
    | .ok _ => goOn search
    | .error problem => goOn { search with reports := search.reports ++ [problem.onLine line] }

def attributeReports (symbols : Symbols) (place : Place) (a : Attribute) : List Diagnostic :=
  match a.name.parts.getLast? with
  | none => []
  | some last =>
    searchAttribute symbols place a.name.parts.dropLast a.line (attributeCandidates last) {}

def attributeKey? (a : Attribute) : Option String :=
  match a.name.parts.getLast? with
  | none => none
  | some last => if keyAttributes.contains (attributeStem last) then a.argument else none

/-- The key that attributes carry; the last one counts. -/
def bindAttributes (symbols : Symbols) (place : Place) (attributes : List Attribute) :
    Reported (Option String) :=
  ⟨(attributes.filterMap attributeKey?).getLast?,
    attributes.flatMap (attributeReports symbols place)⟩

def bindImport (scope : Scope) (i : Import) (meaning : Meaning) : Reported Scope :=
  match i.shortName with
  | some name => pure { scope with aliases := scope.aliases.put name meaning }
  | none =>
    match meaning, i.isStatic with
    | .scope full, false =>
      if scope.imported.contains full then
        ⟨scope, [(Problem.repeatedImport i.target.text).onLine i.line]⟩
      else pure { scope with imported := scope.imported ++ [full] }
    | .scope _, true => ⟨scope, [(Problem.staticImportOfNamespace i.target.text).onLine i.line]⟩
    | _, true => pure scope
    | _, false => ⟨scope, [(Problem.importOfType i.target.text).onLine i.line]⟩

def bindImportsInto (symbols : Symbols) (place : Place) : Scope → List Import → Reported Scope
  | scope, [] => pure scope
  | scope, i :: rest => do
    if i.target.parts.isEmpty then bindImportsInto symbols place scope rest
    else
      match lookup symbols place (i.target.parts.map fun part => (part, 0)) false with
      | .error problem =>
        say [problem.onLine i.line]
        bindImportsInto symbols place scope rest
      | .ok meaning =>
        let scope ← bindImport scope i meaning
        bindImportsInto symbols place scope rest

def bindImports (symbols : Symbols) (outer : Place) (name : String) (imports : List Import) :
    Reported Scope :=
  let scope : Scope := { name }
  bindImportsInto symbols { outer with scopes := scope :: outer.scopes } scope imports

end DataClasses.Binding
