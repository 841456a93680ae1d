import DataClasses.Proofs.Compilation.Generated
import DataClasses.Proofs.Declaration.Unlined

/-!
# Generated source reads back as its tree

What the source of a class tree is to be read as, whatever its lines, and that it is read so.
-/

set_option autoImplicit false

namespace DataClasses

open Identifier (IsName isKeyword)

theorem MemberType.unlined_expr (line : Nat) (t : MemberType) :
    (t.expr line).unlined = t.expr 0 := by
  induction t with
  | primitive kind => cases kind <;> rfl
  | classNamed name => rfl
  | listOf element ih => rw [MemberType.expr, TypeExpr.unlined, ih]; rfl

namespace ClassTree

variable {tree : ClassTree} {settings : Settings}

def keyAttributes (settings : Settings) (p : Property) : List Attribute :=
  if settings.annotations then [⟨⟨[settings.library.keyAttribute], 0⟩, some p.key, 0⟩] else []

def propertyMember (settings : Settings) (p : Property) : Member :=
  if settings.accessors then
    .property ⟨keyAttributes settings p, ["public"], p.type.expr 0, p.name, ["get", "set"], false, 0⟩
  else .field ⟨keyAttributes settings p, ["public"], p.type.expr 0, [p.name], 0⟩

def constructorMembers (settings : Settings) (c : ClassShape) : List Member :=
  if settings.constructors then [.constructor ⟨[], ["public"], none, c.name, [], [], 0⟩] else []

def classDeclaration (settings : Settings) (c : ClassShape) : Declaration :=
  .type ⟨.plainClass, c.name, [], ["public"], [], [], [], 0⟩
    (constructorMembers settings c ++ c.properties.map (propertyMember settings))

def importOf (name : String) : Import := ⟨⟨Text.dottedParts name, 0⟩, none, false, false, 0⟩

def unitOf (tree : ClassTree) (settings : Settings) : SourceUnit where
  imports := (baseImports ++ settings.library.namespaces).map importOf
  members :=
    [.scope ⟨⟨Text.dottedParts settings.container, 0⟩, [], false, 0⟩
      (tree.classes.map (classDeclaration settings))]

theorem unlined_annotations (n : Nat) (p : Property) :
    (annotations settings n p).map (·.unlined) = keyAttributes settings p := by
  rw [annotations, keyAttributes]
  split <;> rfl

theorem unlined_declared (n : Nat) {p : Property} (h : p.type ≠ .classNamed "record") :
    (declared settings n p).unlined = propertyMember settings p := by
  simp only [declared, propertyMember, if_neg h]
  split
  · simp only [Member.unlined, PropertyDecl.unlined, unlined_annotations, MemberType.unlined_expr]
  · simp only [Member.unlined, FieldDecl.unlined, unlined_annotations, MemberType.unlined_expr]

theorem unlined_declaredFrom {ps : List Property} (h : ∀ p ∈ ps, p.type ≠ .classNamed "record")
    (n : Nat) :
    Member.unlinedList (declaredFrom settings n ps) = ps.map (propertyMember settings) := by
  induction ps generalizing n with
  | nil => rfl
  | cons p ps ih =>
    rw [declaredFrom, Member.unlinedList, unlined_declared n (h p List.mem_cons_self),
      ih fun q hq => h q (List.mem_cons_of_mem _ hq)]
    rfl

theorem unlined_classMembers {c : ClassShape} (h : ∀ p ∈ c.properties, p.type ≠ .classNamed "record")
    (n : Nat) :
    Member.unlinedList (classMembers settings n c) =
      constructorMembers settings c ++ c.properties.map (propertyMember settings) := by
  rw [classMembers, constructorMembers]
  split
  · rw [Member.unlinedList, unlined_declaredFrom h]
    rfl
  · exact unlined_declaredFrom h n

theorem unlined_declaredClasses {cs : List ClassShape}
    (h : ∀ c ∈ cs, ∀ p ∈ c.properties, p.type ≠ .classNamed "record") (n : Nat) :
    Declaration.unlinedList (declaredClasses settings n cs) = cs.map (classDeclaration settings) := by
  induction cs generalizing n with
  | nil => rfl
  | cons c cs ih =>
    rw [declaredClasses, declaredClass, Declaration.unlinedList, Declaration.unlined,
      unlined_classMembers (h c List.mem_cons_self),
      ih fun d hd => h d (List.mem_cons_of_mem _ hd)]
    rfl

theorem unlined_declaredImports (names : List String) (n : Nat) :
    (declaredImports n names).map (·.unlined) = names.map importOf := by
  induction names generalizing n with
  | nil => rfl
  | cons name names ih =>
    rw [declaredImports, List.map_cons, ih]
    rfl

theorem unlined_declaredSource
    (h : ∀ c ∈ tree.classes, ∀ p ∈ c.properties, p.type ≠ .classNamed "record") :
    (declaredSource tree settings).unlined = unitOf tree settings := by
  rw [declaredSource, SourceUnit.unlined, unlined_declaredImports]
  simp only [Declaration.unlinedList, Declaration.unlined, unlined_declaredClasses h]
  rfl

/-- A tree whose names, those of classes that are referred to among them, are identifiers, whose
members have no class with the name of a contextual word as their type, and whose lists are not too
deep, with a namespace of plain identifiers. -/
structure Readable (tree : ClassTree) (settings : Settings) : Prop where
  named : ∀ c ∈ tree.classes, IsName c.name ∧
    ∀ p ∈ c.properties, IsName p.name ∧ ∀ n ∈ p.type.class?, IsName n
  notWord : ∀ c ∈ tree.classes, ∀ p ∈ c.properties, ∀ n, p.type = .classNamed n →
    n ∉ contextualWords
  depth : ∀ c ∈ tree.classes, ∀ p ∈ c.properties, p.type.depth ≤ 125
  container : ∀ part ∈ Text.dottedParts settings.container, IsName part ∧ isKeyword part = false

theorem Readable.accepts (h : tree.Readable settings) : ∀ c ∈ tree.classes, Accepts settings c :=
  fun c hc p hp => accepted_of_notWord (h.depth c hc p hp) (h.notWord c hc p hp)

/-- The source of a readable tree is read without a report, and as that tree. -/
theorem ofSource_unlined (h : tree.Readable settings) :
    (SourceUnit.ofSource (source tree settings)).2 = [] ∧
      (SourceUnit.ofSource (source tree settings)).1.unlined = unitOf tree settings := by
  have hrecord : ∀ c ∈ tree.classes, ∀ p ∈ c.properties, p.type ≠ .classNamed "record" :=
    fun c hc p hp heq => h.notWord c hc p hp "record" heq List.mem_cons_self
  rw [ofSource_accepted h.container h.named h.accepts]
  exact ⟨rfl, unlined_declaredSource hrecord⟩

def noteTree : ClassTree :=
  ⟨⟨"Note", true,
      [⟨"a \"quoted\"\nkey", "class", .listOf (.listOf (.classNamed "record"))⟩,
       ⟨"", "At", .primitive .timestamp⟩]⟩,
    [⟨"record", false, [⟨"\\", "get", .classNamed "namespace"⟩]⟩]⟩

def noteSettings : Settings :=
  { library := .newtonsoft, container := "My.Notes", rootClass := "Note", accessors := false,
    constructors := true, documentation := true }

theorem noteTree_readable : noteTree.Readable noteSettings where
  named := by decide
  notWord := by simp [classes, noteTree, contextualWords]
  depth := by decide
  container := by decide

theorem noteTree_unlined :
    noteTree.Readable noteSettings ∧
      (SourceUnit.ofSource (source noteTree noteSettings)).2 = [] ∧
      (SourceUnit.ofSource (source noteTree noteSettings)).1.unlined =
        unitOf noteTree noteSettings :=
  ⟨noteTree_readable, ofSource_unlined noteTree_readable⟩

end ClassTree
end DataClasses
