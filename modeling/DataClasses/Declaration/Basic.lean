/-!
# Declarations

What a source text declares: imports, namespaces, types and their members, and the types
that are written in them. Bodies, initial values and most arguments of attributes are
left out.
-/

set_option autoImplicit false

namespace DataClasses

structure DottedName where
  parts : List String
  line : Nat
  deriving DecidableEq, Repr

namespace DottedName

def text (n : DottedName) : String := ".".intercalate n.parts

def last (n : DottedName) : String := n.parts.getLast?.getD ""

end DottedName

structure Import where
  target : DottedName
  shortName : Option String
  isStatic : Bool
  isGlobal : Bool
  line : Nat
  deriving DecidableEq, Repr

structure Attribute where
  name : DottedName
  argument : Option String
  line : Nat
  deriving DecidableEq, Repr

inductive TypeExpr where
  | predefined (keyword : String) (line : Nat)
  | named (segments : List (String × List TypeExpr)) (fromRoot : Bool) (line : Nat)
  | array (element : TypeExpr) (rank : Nat)
  | nullable (inner : TypeExpr)
  | tuple (elements : List TypeExpr) (line : Nat)
  deriving Inhabited, Repr

namespace TypeExpr

def line : TypeExpr → Nat
  | predefined _ line => line
  | named _ _ line => line
  | array element _ => element.line
  | nullable inner => inner.line
  | tuple _ line => line

def isVoid : TypeExpr → Bool
  | predefined keyword _ => keyword == "void"
  | _ => false

mutual

def text : TypeExpr → String
  | predefined keyword _ => keyword
  | named segments fromRoot _ =>
    (if fromRoot then "global::" else "") ++ ".".intercalate (segmentTexts segments)
  | array element rank => text element ++ "[" ++ String.ofList (List.replicate (rank - 1) ',') ++ "]"
  | nullable inner => text inner ++ "?"
  | tuple elements _ => "(" ++ ", ".intercalate (texts elements) ++ ")"

def texts : List TypeExpr → List String
  | [] => []
  | t :: rest => text t :: texts rest

def segmentTexts : List (String × List TypeExpr) → List String
  | [] => []
  | (name, arguments) :: rest =>
    (name ++ if arguments.isEmpty then "" else "<" ++ ", ".intercalate (texts arguments) ++ ">") ::
      segmentTexts rest

end

end TypeExpr

structure Parameter where
  attributes : List Attribute
  type : TypeExpr
  name : String
  line : Nat
  deriving Repr

inductive TypeKind where
  | plainClass
  | struct
  | interface
  | enum
  | record
  deriving DecidableEq, Repr

namespace TypeKind

def all : List TypeKind := [.plainClass, .struct, .interface, .enum, .record]

def name : TypeKind → String
  | .plainClass => "class"
  | .struct => "struct"
  | .interface => "interface"
  | .enum => "enum"
  | .record => "record"

def ofName? (name : String) : Option TypeKind := all.find? (·.name == name)

end TypeKind

structure FieldDecl where
  attributes : List Attribute
  modifiers : List String
  type : TypeExpr
  names : List String
  line : Nat
  deriving Repr

/-- A property; `isExpression` says that it is given by an expression alone. -/
structure PropertyDecl where
  attributes : List Attribute
  modifiers : List String
  type : TypeExpr
  name : String
  accessors : List String
  isExpression : Bool
  line : Nat
  deriving Repr

/-- A method or a constructor. A constructor returns nothing, nor does a method whose
return type is missing. -/
structure MethodDecl where
  attributes : List Attribute
  modifiers : List String
  returns : Option TypeExpr
  name : String
  typeParameters : List String
  parameters : List Parameter
  line : Nat
  deriving Repr

structure EnumValueDecl where
  attributes : List Attribute
  name : String
  line : Nat
  deriving Repr

structure TypeHead where
  kind : TypeKind
  name : String
  typeParameters : List String
  modifiers : List String
  attributes : List Attribute
  bases : List TypeExpr
  parameters : List Parameter
  line : Nat
  deriving Repr

def TypeHead.isPartial (h : TypeHead) : Bool := h.modifiers.contains "partial"

inductive Member where
  | field (d : FieldDecl)
  | property (d : PropertyDecl)
  | method (d : MethodDecl)
  | constructor (d : MethodDecl)
  | enumValue (d : EnumValueDecl)
  | nested (head : TypeHead) (members : List Member)
  deriving Repr

def Member.line : Member → Nat
  | field d => d.line
  | property d => d.line
  | method d => d.line
  | constructor d => d.line
  | enumValue d => d.line
  | nested head _ => head.line

/-- A namespace declaration without its members; `isWholeFile` says that it has no braces
and reaches to the end of the text. -/
structure ScopeHead where
  name : DottedName
  imports : List Import
  isWholeFile : Bool
  line : Nat
  deriving Repr

inductive Declaration where
  | scope (head : ScopeHead) (members : List Declaration)
  | type (head : TypeHead) (members : List Member)
  deriving Repr

structure SourceUnit where
  imports : List Import
  members : List Declaration
  deriving Repr

end DataClasses
