import DataClasses.Declaration.Basic
import DataClasses.Token.Basic

/-!
# What stands in a text

Tokens and declarations whose lines are lines of a text and whose names are names in it.
-/

set_option autoImplicit false

namespace DataClasses

structure Extent where
  hasLine : Nat → Prop
  hasName : String → Prop

variable {e : Extent}

structure Token.StandsIn (e : Extent) (t : Token) : Prop where
  line : e.hasLine t.line
  name : ∀ name ∈ t.identifier?, e.hasName name

theorem Token.StandsIn.of_name? {t : Token} (h : t.StandsIn e) {name : String}
    (hname : t.name? = some name) : e.hasName name := by
  refine h.name name ?_
  rw [name?] at hname
  rw [identifier?]
  split at hname
  · split at hname
    · exact hname
    · cases hname
  · cases hname

theorem Token.StandsIn.of_isWord {t : Token} (h : t.StandsIn e) {word : String}
    (hword : t.isWord word = true) : e.hasName word := by
  apply h.name word
  rw [identifier?, beq_iff_eq.mp hword]
  exact rfl

structure DottedName.StandsIn (e : Extent) (n : DottedName) : Prop where
  parts : ∀ part ∈ n.parts, e.hasName part
  line : e.hasLine n.line

structure Import.StandsIn (e : Extent) (i : Import) : Prop where
  target : i.target.StandsIn e
  line : e.hasLine i.line

structure Attribute.StandsIn (e : Extent) (a : Attribute) : Prop where
  name : a.name.StandsIn e
  line : e.hasLine a.line

namespace TypeExpr

mutual

def StandsIn (e : Extent) : TypeExpr → Prop
  | predefined keyword line => e.hasName keyword ∧ e.hasLine line
  | named segments _ line => e.hasLine line ∧ SegmentsStandIn e segments
  | array element _ => StandsIn e element
  | nullable inner => StandsIn e inner
  | tuple elements line => e.hasLine line ∧ AllStandIn e elements

def AllStandIn (e : Extent) : List TypeExpr → Prop
  | [] => True
  | t :: rest => StandsIn e t ∧ AllStandIn e rest

def SegmentsStandIn (e : Extent) : List (String × List TypeExpr) → Prop
  | [] => True
  | (name, arguments) :: rest =>
    (name ≠ "" → e.hasName name) ∧ AllStandIn e arguments ∧ SegmentsStandIn e rest

end

theorem allStandIn_iff {ts : List TypeExpr} : AllStandIn e ts ↔ ∀ t ∈ ts, t.StandsIn e := by
  induction ts with
  | nil => simp [AllStandIn]
  | cons t ts ih => simp [AllStandIn, ih]

theorem segmentsStandIn_iff {segments : List (String × List TypeExpr)} :
    SegmentsStandIn e segments ↔
      ∀ s ∈ segments, (s.1 ≠ "" → e.hasName s.1) ∧ AllStandIn e s.2 := by
  induction segments with
  | nil => simp [SegmentsStandIn]
  | cons s segments ih => simp [SegmentsStandIn, ih, and_assoc]

theorem StandsIn.hasLine {t : TypeExpr} (h : t.StandsIn e) : e.hasLine t.line := by
  fun_induction line t with
  | case1 => exact h.2
  | case2 => exact h.1
  | case3 element rank ih => exact ih h
  | case4 inner ih => exact ih h
  | case5 => exact h.1

end TypeExpr

structure Parameter.StandsIn (e : Extent) (p : Parameter) : Prop where
  attributes : ∀ a ∈ p.attributes, a.StandsIn e
  type : p.type.StandsIn e
  line : e.hasLine p.line

structure FieldDecl.StandsIn (e : Extent) (d : FieldDecl) : Prop where
  attributes : ∀ a ∈ d.attributes, a.StandsIn e
  type : d.type.StandsIn e
  names : ∀ name ∈ d.names, e.hasName name
  line : e.hasLine d.line

structure PropertyDecl.StandsIn (e : Extent) (d : PropertyDecl) : Prop where
  attributes : ∀ a ∈ d.attributes, a.StandsIn e
  type : d.type.StandsIn e
  name : e.hasName d.name
  line : e.hasLine d.line

structure MethodDecl.StandsIn (e : Extent) (d : MethodDecl) : Prop where
  attributes : ∀ a ∈ d.attributes, a.StandsIn e
  returns : ∀ t ∈ d.returns, t.StandsIn e
  parameters : ∀ p ∈ d.parameters, p.StandsIn e
  line : e.hasLine d.line

structure EnumValueDecl.StandsIn (e : Extent) (d : EnumValueDecl) : Prop where
  attributes : ∀ a ∈ d.attributes, a.StandsIn e
  name : e.hasName d.name
  line : e.hasLine d.line

structure TypeHead.StandsIn (e : Extent) (h : TypeHead) : Prop where
  name : h.name ≠ "" → e.hasName h.name
  attributes : ∀ a ∈ h.attributes, a.StandsIn e
  bases : ∀ t ∈ h.bases, t.StandsIn e
  parameters : ∀ p ∈ h.parameters, p.StandsIn e
  line : e.hasLine h.line

namespace Member

mutual

def StandsIn (e : Extent) : Member → Prop
  | field d => d.StandsIn e
  | property d => d.StandsIn e
  | method d => (d.name ≠ "" → e.hasName d.name) ∧ d.StandsIn e
  | constructor d => d.StandsIn e
  | enumValue d => d.StandsIn e
  | nested head members => head.StandsIn e ∧ AllStandIn e members

def AllStandIn (e : Extent) : List Member → Prop
  | [] => True
  | m :: rest => StandsIn e m ∧ AllStandIn e rest

end

theorem allStandIn_iff {ms : List Member} : AllStandIn e ms ↔ ∀ m ∈ ms, m.StandsIn e := by
  induction ms with
  | nil => simp [AllStandIn]
  | cons m ms ih => simp [AllStandIn, ih]

end Member

structure ScopeHead.StandsIn (e : Extent) (h : ScopeHead) : Prop where
  name : h.name.StandsIn e
  imports : ∀ i ∈ h.imports, i.StandsIn e
  line : e.hasLine h.line

namespace Declaration

mutual

def StandsIn (e : Extent) : Declaration → Prop
  | scope head members => head.StandsIn e ∧ AllStandIn e members
  | type head members => (Member.nested head members).StandsIn e

def AllStandIn (e : Extent) : List Declaration → Prop
  | [] => True
  | d :: rest => StandsIn e d ∧ AllStandIn e rest

end

theorem allStandIn_iff {ds : List Declaration} : AllStandIn e ds ↔ ∀ d ∈ ds, d.StandsIn e := by
  induction ds with
  | nil => simp [AllStandIn]
  | cons d ds ih => simp [AllStandIn, ih]

end Declaration

structure SourceUnit.StandsIn (e : Extent) (u : SourceUnit) : Prop where
  imports : ∀ i ∈ u.imports, i.StandsIn e
  members : ∀ d ∈ u.members, d.StandsIn e

end DataClasses
