import DataClasses.Declaration.Basic

/-!
# Declarations without their lines

What a source declares, apart from the lines on which it stands. Two sources of different layout
declare the same just if they agree in this.
-/

set_option autoImplicit false

namespace DataClasses

def DottedName.unlined (n : DottedName) : DottedName := { n with line := 0 }

def Import.unlined (i : Import) : Import := { i with target := i.target.unlined, line := 0 }

def Attribute.unlined (a : Attribute) : Attribute := { a with name := a.name.unlined, line := 0 }

namespace TypeExpr

mutual

def unlined : TypeExpr → TypeExpr
  | predefined keyword _ => predefined keyword 0
  | named segments fromRoot _ => named (unlinedSegments segments) fromRoot 0
  | array element rank => array (unlined element) rank
  | nullable inner => nullable (unlined inner)
  | tuple elements _ => tuple (unlinedList elements) 0

def unlinedList : List TypeExpr → List TypeExpr
  | [] => []
  | t :: rest => unlined t :: unlinedList rest

def unlinedSegments : List (String × List TypeExpr) → List (String × List TypeExpr)
  | [] => []
  | (name, arguments) :: rest => (name, unlinedList arguments) :: unlinedSegments rest

end

end TypeExpr

def Parameter.unlined (p : Parameter) : Parameter :=
  { p with attributes := p.attributes.map (·.unlined), type := p.type.unlined, line := 0 }

def FieldDecl.unlined (d : FieldDecl) : FieldDecl :=
  { d with attributes := d.attributes.map (·.unlined), type := d.type.unlined, line := 0 }

def PropertyDecl.unlined (d : PropertyDecl) : PropertyDecl :=
  { d with attributes := d.attributes.map (·.unlined), type := d.type.unlined, line := 0 }

def MethodDecl.unlined (d : MethodDecl) : MethodDecl :=
  { d with
    attributes := d.attributes.map (·.unlined)
    returns := d.returns.map (·.unlined)
    parameters := d.parameters.map (·.unlined)
    line := 0 }

def EnumValueDecl.unlined (d : EnumValueDecl) : EnumValueDecl :=
  { d with attributes := d.attributes.map (·.unlined), line := 0 }

def TypeHead.unlined (h : TypeHead) : TypeHead :=
  { h with
    attributes := h.attributes.map (·.unlined)
    bases := h.bases.map (·.unlined)
    parameters := h.parameters.map (·.unlined)
    line := 0 }

namespace Member

mutual

def unlined : Member → Member
  | field d => field d.unlined
  | property d => property d.unlined
  | method d => method d.unlined
  | constructor d => constructor d.unlined
  | enumValue d => enumValue d.unlined
  | nested head members => nested head.unlined (unlinedList members)

def unlinedList : List Member → List Member
  | [] => []
  | m :: rest => unlined m :: unlinedList rest

end

end Member

def ScopeHead.unlined (h : ScopeHead) : ScopeHead :=
  { h with name := h.name.unlined, imports := h.imports.map (·.unlined), line := 0 }

namespace Declaration

mutual

def unlined : Declaration → Declaration
  | scope head members => scope head.unlined (unlinedList members)
  | type head members => type head.unlined (Member.unlinedList members)

def unlinedList : List Declaration → List Declaration
  | [] => []
  | d :: rest => unlined d :: unlinedList rest

end

end Declaration

def SourceUnit.unlined (u : SourceUnit) : SourceUnit where
  imports := u.imports.map (·.unlined)
  members := Declaration.unlinedList u.members

end DataClasses
