/-!
# Class trees

The classes that a document asks for: a root and the others, each with its members in
order.
-/

set_option autoImplicit false

namespace DataClasses

/-- The types that need no class of their own. `object` stands for a value about which
the sample says nothing. -/
inductive Primitive where
  | integer
  | float
  | text
  | boolean
  | timestamp
  | object
  deriving DecidableEq, Repr

def Primitive.spelling : Primitive → String
  | integer => "int"
  | float => "double"
  | text => "string"
  | boolean => "bool"
  | timestamp => "DateTime"
  | object => "object"

inductive MemberType where
  | primitive (kind : Primitive)
  | classNamed (name : String)
  | listOf (element : MemberType)
  deriving DecidableEq, Repr

def MemberType.class? : MemberType → Option String
  | primitive _ => none
  | classNamed name => some name
  | listOf element => element.class?

structure Property where
  key : String
  name : String
  type : MemberType
  deriving DecidableEq, Repr

structure ClassShape where
  name : String
  isRoot : Bool
  properties : List Property
  deriving DecidableEq, Repr

def ClassShape.property? (c : ClassShape) (name : String) : Option Property :=
  c.properties.find? (·.name == name)

structure ClassTree where
  root : ClassShape
  others : List ClassShape
  deriving DecidableEq, Repr

namespace ClassTree

def classes (tree : ClassTree) : List ClassShape := tree.root :: tree.others

def find? (tree : ClassTree) (name : String) : Option ClassShape :=
  tree.others.find? (·.name == name)

end ClassTree
end DataClasses
