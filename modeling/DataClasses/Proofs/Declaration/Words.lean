import DataClasses.Proofs.Declaration.Extent
import DataClasses.Proofs.Declaration.Inside

/-!
# The words of a unit

The words in a unit that names are made of: those that are looked up, and those that namespaces and
types are declared with.
-/

set_option autoImplicit false

namespace DataClasses

variable {e : Extent} {w : String}

def Extent.HasWords (e : Extent) (words : List String) : Prop := ∀ w ∈ words, w ≠ "" → e.hasName w

namespace Extent.HasWords

theorem cons {words : List String} (hw : w ≠ "" → e.hasName w) (h : e.HasWords words) :
    e.HasWords (w :: words) :=
  List.forall_mem_cons.mpr ⟨hw, h⟩

theorem append {first second : List String} (h : e.HasWords first) (h' : e.HasWords second) :
    e.HasWords (first ++ second) :=
  List.forall_mem_append.mpr ⟨h, h'⟩

theorem flatMap {α : Type} {items : List α} {words : α → List String}
    (h : ∀ a ∈ items, e.HasWords (words a)) : e.HasWords (items.flatMap words) := by
  intro w hw
  obtain ⟨a, ha, hw⟩ := List.mem_flatMap.mp hw
  exact h a ha w hw

end Extent.HasWords

namespace TypeExpr

mutual

def words : TypeExpr → List String
  | predefined _ _ => []
  | named segments _ _ => segmentWords segments
  | array element _ => words element
  | nullable inner => words inner
  | tuple elements _ => allWords elements

def allWords : List TypeExpr → List String
  | [] => []
  | t :: rest => words t ++ allWords rest

def segmentWords : List (String × List TypeExpr) → List String
  | [] => []
  | (name, arguments) :: rest => name :: (allWords arguments ++ segmentWords rest)

end

theorem mem_allWords {ts : List TypeExpr} : w ∈ allWords ts ↔ ∃ t ∈ ts, w ∈ t.words := by
  induction ts with
  | nil => simp [allWords]
  | cons t ts ih => simp [allWords, ih]

theorem mem_segmentWords {segments : List (String × List TypeExpr)} :
    w ∈ segmentWords segments ↔ ∃ s ∈ segments, w = s.1 ∨ ∃ t ∈ s.2, w ∈ t.words := by
  induction segments with
  | nil => simp [segmentWords]
  | cons s segments ih => simp [segmentWords, ih, mem_allWords, or_assoc]

theorem words_stand {t : TypeExpr} (h : t.StandsIn e) : e.HasWords t.words := by
  induction t using induct with
  | predefined keyword line => exact List.forall_mem_nil _
  | named segments fromRoot line ih =>
    intro w hw hne
    obtain ⟨s, hs, hword⟩ := mem_segmentWords.mp hw
    obtain ⟨hname, harguments⟩ := segmentsStandIn_iff.mp h.2 s hs
    rcases hword with rfl | ⟨t, ht, hword⟩
    · exact hname hne
    · exact ih s hs t ht (allStandIn_iff.mp harguments t ht) w hword hne
  | array element rank ih => exact ih h
  | nullable inner ih => exact ih h
  | tuple elements line ih =>
    intro w hw hne
    obtain ⟨t, ht, hword⟩ := mem_allWords.mp hw
    exact ih t ht (allStandIn_iff.mp h.2 t ht) w hword hne

end TypeExpr

def Attribute.words (a : Attribute) : List String := a.name.parts

def Import.words (i : Import) : List String := i.target.parts

def Parameter.words (p : Parameter) : List String := p.attributes.flatMap (·.words) ++ p.type.words

def MethodDecl.words (d : MethodDecl) : List String :=
  d.attributes.flatMap (·.words) ++ d.returns.toList.flatMap (·.words) ++
    d.parameters.flatMap (·.words)

def TypeHead.words (h : TypeHead) : List String :=
  h.name :: (h.attributes.flatMap (·.words) ++ h.bases.flatMap (·.words) ++
    h.parameters.flatMap (·.words))

def ScopeHead.words (h : ScopeHead) : List String := h.name.parts ++ h.imports.flatMap (·.words)

namespace Member

mutual

def words : Member → List String
  | field d => d.attributes.flatMap (·.words) ++ d.type.words
  | property d => d.attributes.flatMap (·.words) ++ d.type.words
  | method d => d.words
  | constructor d => d.words
  | enumValue d => d.attributes.flatMap (·.words)
  | nested head members => head.words ++ allWords members

def allWords : List Member → List String
  | [] => []
  | m :: rest => words m ++ allWords rest

end

end Member

namespace Declaration

mutual

def words : Declaration → List String
  | scope head members => head.words ++ allWords members
  | type head members => (Member.nested head members).words

def allWords : List Declaration → List String
  | [] => []
  | d :: rest => words d ++ allWords rest

end

end Declaration

def SourceUnit.words (u : SourceUnit) : List String :=
  u.imports.flatMap (·.words) ++ Declaration.allWords u.members

theorem DottedName.StandsIn.hasWords {n : DottedName} (h : n.StandsIn e) : e.HasWords n.parts :=
  fun w hw _ => h.parts w hw

theorem Attribute.words_stand {attributes : List Attribute} (h : ∀ a ∈ attributes, a.StandsIn e) :
    e.HasWords (attributes.flatMap (·.words)) :=
  .flatMap fun a ha => (h a ha).name.hasWords

theorem Import.words_stand {imports : List Import} (h : ∀ i ∈ imports, i.StandsIn e) :
    e.HasWords (imports.flatMap (·.words)) :=
  .flatMap fun i hi => (h i hi).target.hasWords

theorem Parameter.words_stand {parameters : List Parameter} (h : ∀ p ∈ parameters, p.StandsIn e) :
    e.HasWords (parameters.flatMap (·.words)) :=
  .flatMap fun p hp => (Attribute.words_stand (h p hp).attributes).append
    (TypeExpr.words_stand (h p hp).type)

theorem MethodDecl.words_stand {d : MethodDecl} (h : d.StandsIn e) : e.HasWords d.words := by
  apply Extent.HasWords.append
  · apply (Attribute.words_stand h.attributes).append
    apply Extent.HasWords.flatMap
    intro t ht
    exact TypeExpr.words_stand (h.returns t (Option.mem_toList.mp ht))
  · exact Parameter.words_stand h.parameters

theorem TypeHead.words_stand {head : TypeHead} (h : head.StandsIn e) : e.HasWords head.words := by
  apply Extent.HasWords.cons h.name
  apply Extent.HasWords.append
  · apply (Attribute.words_stand h.attributes).append
    apply Extent.HasWords.flatMap
    intro t ht
    exact TypeExpr.words_stand (h.bases t ht)
  · exact Parameter.words_stand h.parameters

theorem ScopeHead.words_stand {head : ScopeHead} (h : head.StandsIn e) : e.HasWords head.words :=
  h.name.hasWords.append (Import.words_stand h.imports)

namespace Member

mutual

theorem words_stand : (m : Member) → m.StandsIn e → e.HasWords m.words
  | .field _, h => (Attribute.words_stand (FieldDecl.StandsIn.attributes h)).append
    (TypeExpr.words_stand (FieldDecl.StandsIn.type h))
  | .property _, h => (Attribute.words_stand (PropertyDecl.StandsIn.attributes h)).append
    (TypeExpr.words_stand (PropertyDecl.StandsIn.type h))
  | .method _, h => MethodDecl.words_stand h.2
  | .constructor _, h => MethodDecl.words_stand h
  | .enumValue _, h => Attribute.words_stand (EnumValueDecl.StandsIn.attributes h)
  | .nested _ members, h => (TypeHead.words_stand h.1).append (allWords_stand members h.2)

theorem allWords_stand : (ms : List Member) → AllStandIn e ms → e.HasWords (allWords ms)
  | [], _ => List.forall_mem_nil _
  | m :: rest, h => (words_stand m h.1).append (allWords_stand rest h.2)

end

end Member

namespace Declaration

mutual

theorem words_stand : (d : Declaration) → d.StandsIn e → e.HasWords d.words
  | .scope _ members, h => (ScopeHead.words_stand h.1).append (allWords_stand members h.2)
  | .type head members, h => Member.words_stand (.nested head members) h

theorem allWords_stand : (ds : List Declaration) → AllStandIn e ds → e.HasWords (allWords ds)
  | [], _ => List.forall_mem_nil _
  | d :: rest, h => (words_stand d h.1).append (allWords_stand rest h.2)

end

end Declaration

/-- What is read from a text has its words from there. -/
theorem SourceUnit.words_stand {u : SourceUnit} (h : u.StandsIn e) : e.HasWords u.words :=
  (Import.words_stand h.imports).append
    (Declaration.allWords_stand u.members (Declaration.allStandIn_iff.mpr h.members))

end DataClasses
