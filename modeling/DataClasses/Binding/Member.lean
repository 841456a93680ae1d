import DataClasses.Binding.Written

/-!
# Members of a type

The entries of a type's members, and whether their names are free.
-/

set_option autoImplicit false

namespace DataClasses.Binding

/-- How a name is used in a type. Several methods, and several parts of one type, may share
a name. -/
inductive NameUse where
  | method
  | partialType
  | other
  deriving DecidableEq, Repr

def NameUse.mayShare (first second : NameUse) : Bool :=
  first == second && first != .other

/-- The names that were used so far in a type, each as it was used first. -/
abbrev UsedNames := Entries NameUse

structure NameClaim where
  name : String
  use : NameUse
  line : Nat
  deriving DecidableEq, Repr

def claimProblems (head : TypeHead) (full : String) (used : UsedNames) (c : NameClaim) :
    List Diagnostic :=
  if c.name.isEmpty then []
  else
    (if c.name == head.name && head.kind != .enum then [(Problem.namedLikeType c.name).onLine c.line]
      else []) ++
    match used.get? c.name with
    | none => []
    | some first =>
      if first.mayShare c.use then [] else [(Problem.repeatedMember full c.name).onLine c.line]

def claim (used : UsedNames) (c : NameClaim) : UsedNames :=
  if c.name.isEmpty || used.has c.name then used else used.put c.name c.use

def claimAll (head : TypeHead) (full : String) : UsedNames → List NameClaim → Reported UsedNames
  | used, [] => pure used
  | used, c :: rest => do
    say (claimProblems head full used c)
    claimAll head full (claim used c) rest

def repeatedAccessors : List String → List String → List String
  | _, [] => []
  | before, a :: rest =>
    if before.contains a then a :: repeatedAccessors before rest
    else repeatedAccessors (a :: before) rest

def bindParameters (symbols : Symbols) (place : Place) : List Parameter → Reported Unit
  | [] => pure ()
  | p :: rest => do
    let _ ← bindAttributes symbols place p.attributes
    let _ ← bindType symbols place p.type
    bindParameters symbols place rest

def bindRecordParameters (symbols : Symbols) (place : Place) :
    List Parameter → Reported (List MemberEntry)
  | [] => pure []
  | p :: rest => do
    let key ← bindAttributes symbols place p.attributes
    let typeName ← bindType symbols place p.type
    let entries ← bindRecordParameters symbols place rest
    pure (⟨p.name, .property, typeName, key⟩ :: entries)

def claims : Member → List NameClaim
  | .field d => d.names.map fun name => ⟨name, .other, d.line⟩
  | .property d => [⟨d.name, .other, d.line⟩]
  | .method d => [⟨d.name, .method, d.line⟩]
  | .constructor _ => []
  | .enumValue d => [⟨d.name, .other, d.line⟩]
  | .nested head _ => [⟨head.name, if head.isPartial then .partialType else .other, head.line⟩]

def bindField (symbols : Symbols) (place : Place) (d : FieldDecl) :
    Reported (List MemberEntry) := do
  let key ← bindAttributes symbols place d.attributes
  let typeName ← bindType symbols place d.type
  sayIf d.type.isVoid d.line .voidField
  pure (d.names.map fun name => ⟨name, .field, typeName, key⟩)

def bindProperty (symbols : Symbols) (place : Place) (full : String) (d : PropertyDecl) :
    Reported (List MemberEntry) := do
  let key ← bindAttributes symbols place d.attributes
  let typeName ← bindType symbols place d.type
  let name := full ++ "." ++ d.name
  sayIf d.type.isVoid d.line (.voidProperty name)
  say ((repeatedAccessors [] d.accessors).map fun _ => Problem.repeatedAccessor.onLine d.line)
  sayIf (d.accessors.isEmpty && !d.isExpression) d.line (.noAccessor name)
  pure [⟨d.name, .property, typeName, key⟩]

def bindReturn (symbols : Symbols) (place : Place) : Option TypeExpr → Reported (Option String)
  | some t => if t.isVoid then pure none else bindType symbols place t
  | none => pure none

def bindMethod (symbols : Symbols) (place : Place) (d : MethodDecl) :
    Reported (List MemberEntry) := do
  let inner := { place with typeParameters := place.typeParameters ++ d.typeParameters }
  let _ ← bindAttributes symbols inner d.attributes
  let typeName ← bindReturn symbols inner d.returns
  bindParameters symbols inner d.parameters
  pure [⟨d.name, .method, typeName, none⟩]

def bindConstructor (symbols : Symbols) (place : Place) (d : MethodDecl) :
    Reported (List MemberEntry) := do
  let _ ← bindAttributes symbols place d.attributes
  bindParameters symbols place d.parameters
  pure [⟨d.name, .constructor, none, none⟩]

def bindEnumValue (symbols : Symbols) (place : Place) (full : String) (d : EnumValueDecl) :
    Reported (List MemberEntry) := do
  let key ← bindAttributes symbols place d.attributes
  pure [⟨d.name, .enumValue, some full, key⟩]

def bindMember (symbols : Symbols) (place : Place) (full : String) :
    Member → Reported (List MemberEntry)
  | .field d => bindField symbols place d
  | .property d => bindProperty symbols place full d
  | .method d => bindMethod symbols place d
  | .constructor d => bindConstructor symbols place d
  | .enumValue d => bindEnumValue symbols place full d
  | .nested _ _ => pure []

def bindMembers (symbols : Symbols) (place : Place) (head : TypeHead) (full : String) :
    UsedNames → List Member → Reported (List MemberEntry)
  | _, [] => pure []
  | used, m :: rest => do
    let entries ← bindMember symbols place full m
    let used ← claimAll head full used (claims m)
    let others ← bindMembers symbols place head full used rest
    pure (entries ++ others)

end DataClasses.Binding
