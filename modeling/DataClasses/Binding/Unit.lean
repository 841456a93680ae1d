import DataClasses.Binding.Member

/-!
# Binding a source

The type table of a source and what is wrong with its names, given the libraries it may
refer to.
-/

set_option autoImplicit false

namespace DataClasses

namespace Binding

structure Container where
  scope : String
  full : String
  outer : String

def Place.into (place : Place) (head : TypeHead) (full : String) : Place :=
  { place with
    enclosing := full :: place.enclosing
    typeParameters := place.typeParameters ++ head.typeParameters }

def Container.into (c : Container) (head : TypeHead) : Container where
  scope := c.scope
  full := joinNames c.full head.name
  outer := joinNames c.outer head.name

def bindBases (symbols : Symbols) (place : Place) (bases : List TypeExpr) :
    Reported (List String) := do
  let names ← bindTypes symbols place bases
  pure (names.filterMap id)

def bindHead (symbols : Symbols) (place : Place) (c : Container) (head : TypeHead)
    (members : List Member) : Reported TypeEntry := do
  let inner := c.into head
  let place := place.into head inner.full
  let _ ← bindAttributes symbols place head.attributes
  let bases ← bindBases symbols place head.bases
  let parameters ← bindRecordParameters symbols place head.parameters
  let entries ← bindMembers symbols place head inner.full [] members
  pure ⟨c.scope, inner.outer, head.kind, head.typeParameters, bases, parameters ++ entries⟩

mutual

def bindInner (symbols : Symbols) (place : Place) (c : Container) :
    Member → Reported (List TypeEntry)
  | .nested head members => do
    if head.name.isEmpty then pure []
    else
      let entry ← bindHead symbols place c head members
      let inner := c.into head
      let inside ← bindNested symbols (place.into head inner.full) inner members
      pure (entry :: inside)
  | _ => pure []

def bindNested (symbols : Symbols) (place : Place) (c : Container) :
    List Member → Reported (List TypeEntry)
  | [] => pure []
  | member :: rest => do
    let entries ← bindInner symbols place c member
    let others ← bindNested symbols place c rest
    pure (entries ++ others)

end

def bindOutermost (symbols : Symbols) (place : Place) (head : TypeHead) (members : List Member) :
    Reported (List TypeEntry) :=
  let scope := place.scopeName
  bindInner symbols place ⟨scope, scope, ""⟩ (.nested head members)

def openScopes (place : Place) : String → List String → Place × String
  | current, [] => (place, current)
  | current, [part] => (place, joinNames current part)
  | current, part :: rest =>
    let full := joinNames current part
    openScopes { place with scopes := { name := full } :: place.scopes } full rest

def bindDeclarations (symbols : Symbols) (place : Place) :
    List Declaration → Reported (List TypeEntry)
  | [] => pure []
  | .scope head members :: rest => do
    let (around, full) := openScopes place place.scopeName head.name.parts
    let scope ← bindImports symbols around full head.imports
    let inside ← bindDeclarations symbols { around with scopes := scope :: around.scopes } members
    let others ← bindDeclarations symbols place rest
    pure (inside ++ others)
  | .type head members :: rest => do
    let entries ← bindOutermost symbols place head members
    let others ← bindDeclarations symbols place rest
    pure (entries ++ others)

def firstLike (before : List Declared) (d : Declared) : Option Declared :=
  before.find? fun e => e.fullName == d.fullName && e.arity == d.arity

/-- The repeated declarations of types in namespaces. Parts of one type may share a name. -/
def repeatedTypes (before : List Declared) : List Declared → List Diagnostic
  | [] => []
  | d :: rest =>
    match firstLike before d with
    | none => repeatedTypes (before ++ [d]) rest
    | some first =>
      (if d.isOutermost && !(first.isPartial && d.isPartial) then
        [(Problem.repeatedType d.container d.name).onLine d.line] else []) ++
        repeatedTypes before rest

def bindUnit (symbols : Symbols) (u : SourceUnit) : Reported (List TypeEntry) := do
  say (repeatedTypes [] (declaredTypes "" u.members))
  let root ← bindImports symbols {} "" u.imports
  bindDeclarations symbols { scopes := [root] } u.members

def distinct (reports : List Diagnostic) : List Diagnostic :=
  reports.foldl (fun acc d => if acc.contains d then acc else acc ++ [d]) []

end Binding

structure Binding where
  diagnostics : List Diagnostic
  table : TypeTable

def SourceUnit.symbols (u : SourceUnit) (references : List Assembly) : Binding.Symbols :=
  (Binding.Symbols.ofAssemblies references).append (Binding.Symbols.ofUnit u)

def SourceUnit.bind (u : SourceUnit) (references : List Assembly) : Binding :=
  let bound := Binding.bindUnit (u.symbols references) u
  ⟨Binding.distinct bound.reports, .ofEntries bound.value⟩

end DataClasses
