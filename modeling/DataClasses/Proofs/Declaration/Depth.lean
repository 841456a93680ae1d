import DataClasses.Declaration.Basic

/-!
# How deep declarations are

The number of namespaces, type declarations and types on the longest path down into a source. What
stands for a construct that was passed over, a declaration with nothing in it, is not counted.
-/

set_option autoImplicit false

namespace DataClasses

namespace TypeExpr

def marks : TypeExpr → Nat
  | predefined _ _ => 0
  | named _ _ _ => 0
  | array element _ => element.marks + 1
  | nullable inner => inner.marks + 1
  | tuple _ _ => 0

mutual

/-- The length of the longest path down, where `mark` gives the length for a type with one more mark
from that of the type and the number of its marks. -/
def longest (mark : Nat → Nat → Nat) : TypeExpr → Nat
  | predefined _ _ => 1
  | named segments _ _ => longestSegment mark segments + 1
  | array element _ => mark (longest mark element) element.marks
  | nullable inner => mark (longest mark inner) inner.marks
  | tuple elements _ => longestOf mark elements + 1

def longestOf (mark : Nat → Nat → Nat) : List TypeExpr → Nat
  | [] => 0
  | t :: rest => max (longest mark t) (longestOf mark rest)

def longestSegment (mark : Nat → Nat → Nat) : List (String × List TypeExpr) → Nat
  | [] => 0
  | (_, arguments) :: rest => max (longestOf mark arguments) (longestSegment mark rest)

end

def depth (t : TypeExpr) : Nat := t.longest fun inner _ => inner + 1

/-- The same, with the marks behind a type counted only for the path that ends with it, not for those
that go on to its arguments or elements. -/
def level (t : TypeExpr) : Nat := t.longest fun inner marks => max inner (marks + 2)

def inner : TypeExpr → List TypeExpr
  | predefined _ _ => []
  | named segments _ _ => segments.flatMap (·.2)
  | array element _ => element.inner
  | nullable inner => inner.inner
  | tuple elements _ => elements

mutual

def MarksLeaves : TypeExpr → Prop
  | predefined _ _ => True
  | named segments _ _ => SegmentsMarkLeaves segments
  | array element _ => element.inner = []
  | nullable inner => inner.inner = []
  | tuple elements _ => AllMarkLeaves elements

def AllMarkLeaves : List TypeExpr → Prop
  | [] => True
  | t :: rest => MarksLeaves t ∧ AllMarkLeaves rest

def SegmentsMarkLeaves : List (String × List TypeExpr) → Prop
  | [] => True
  | (_, arguments) :: rest => AllMarkLeaves arguments ∧ SegmentsMarkLeaves rest

end

section

variable {mark : Nat → Nat → Nat} {n : Nat}

theorem longestOf_le_iff {ts : List TypeExpr} :
    longestOf mark ts ≤ n ↔ ∀ t ∈ ts, t.longest mark ≤ n := by
  induction ts with
  | nil => simp [longestOf]
  | cons t ts ih => rw [longestOf, Nat.max_le, ih, List.forall_mem_cons]

theorem longestSegment_le_iff {segments : List (String × List TypeExpr)} :
    longestSegment mark segments ≤ n ↔ ∀ s ∈ segments, longestOf mark s.2 ≤ n := by
  induction segments with
  | nil => simp [longestSegment]
  | cons s segments ih => rw [longestSegment, Nat.max_le, ih, List.forall_mem_cons]

theorem longestSegment_eq_zero {segments : List (String × List TypeExpr)}
    (h : segments.flatMap (·.2) = []) : longestSegment mark segments = 0 := by
  rw [← Nat.le_zero, longestSegment_le_iff]
  intro s hs
  rw [List.flatMap_eq_nil_iff.mp h s hs]
  exact Nat.le_refl 0

/-- With nothing inside, the path goes through all marks. -/
theorem longest_of_inner_nil (hmark : ∀ k, mark (k + 1) k = k + 2) (t : TypeExpr)
    (h : t.inner = []) : t.longest mark = t.marks + 1 := by
  fun_induction inner t with
  | case1 => rfl
  | case2 segments => simp [longest, marks, longestSegment_eq_zero h]
  | case3 element rank ih => rw [longest, marks, ih h, hmark]
  | case4 inner ih => rw [longest, marks, ih h, hmark]
  | case5 elements =>
    subst h
    rfl

end

mutual

/-- How marks are counted makes a difference only where something is inside of the type with them. -/
theorem longest_eq_of_marksLeaves {mark other : Nat → Nat → Nat}
    (hmark : ∀ k, mark (k + 1) k = k + 2) (hother : ∀ k, other (k + 1) k = k + 2) :
    (t : TypeExpr) → t.MarksLeaves → t.longest mark = t.longest other
  | predefined _ _, _ => rfl
  | named segments _ _, h =>
    congrArg (· + 1) (longestSegment_eq_of_markLeaves hmark hother segments h)
  | array element _, h => by
    rw [longest, longest, longest_of_inner_nil hmark element h,
      longest_of_inner_nil hother element h, hmark, hother]
  | nullable inner, h => by
    rw [longest, longest, longest_of_inner_nil hmark inner h,
      longest_of_inner_nil hother inner h, hmark, hother]
  | tuple elements _, h => congrArg (· + 1) (longestOf_eq_of_markLeaves hmark hother elements h)

theorem longestOf_eq_of_markLeaves {mark other : Nat → Nat → Nat}
    (hmark : ∀ k, mark (k + 1) k = k + 2) (hother : ∀ k, other (k + 1) k = k + 2) :
    (ts : List TypeExpr) → AllMarkLeaves ts → longestOf mark ts = longestOf other ts
  | [], _ => rfl
  | t :: ts, h => by
    rw [longestOf, longestOf, longest_eq_of_marksLeaves hmark hother t h.1,
      longestOf_eq_of_markLeaves hmark hother ts h.2]

theorem longestSegment_eq_of_markLeaves {mark other : Nat → Nat → Nat}
    (hmark : ∀ k, mark (k + 1) k = k + 2) (hother : ∀ k, other (k + 1) k = k + 2) :
    (segments : List (String × List TypeExpr)) → SegmentsMarkLeaves segments →
      longestSegment mark segments = longestSegment other segments
  | [], _ => rfl
  | (_, arguments) :: rest, h => by
    rw [longestSegment, longestSegment, longestOf_eq_of_markLeaves hmark hother arguments h.1,
      longestSegment_eq_of_markLeaves hmark hother rest h.2]

end

theorem depth_eq_level {t : TypeExpr} (h : t.MarksLeaves) : t.depth = t.level :=
  longest_eq_of_marksLeaves (fun _ => rfl) (fun k => by simp) t h

end TypeExpr

def deepest (f : TypeExpr → Nat) (ts : List TypeExpr) : Nat := (ts.map f).foldr max 0

theorem deepest_le_iff {f : TypeExpr → Nat} {ts : List TypeExpr} {n : Nat} :
    deepest f ts ≤ n ↔ ∀ t ∈ ts, f t ≤ n := by
  induction ts with
  | nil => simp [deepest]
  | cons t ts ih => simpa [deepest, Nat.max_le] using fun _ => ih

def MethodDecl.types (d : MethodDecl) : List TypeExpr := d.returns.toList ++ d.parameters.map (·.type)

namespace TypeHead

def types (h : TypeHead) : List TypeExpr := h.bases ++ h.parameters.map (·.type)

def isEmpty (h : TypeHead) (members : List Member) : Bool :=
  h.kind == .plainClass && h.name.isEmpty && h.typeParameters.isEmpty &&
    h.types.isEmpty && members.isEmpty

end TypeHead

namespace Member

mutual

def depthBy (f : TypeExpr → Nat) : Member → Nat
  | field d => f d.type
  | property d => f d.type
  | method d => deepest f d.types
  | constructor d => deepest f d.types
  | enumValue _ => 0
  | nested head members =>
    if head.isEmpty members then 0 else max (deepest f head.types) (listDepthBy f members) + 1

def listDepthBy (f : TypeExpr → Nat) : List Member → Nat
  | [] => 0
  | m :: rest => max (depthBy f m) (listDepthBy f rest)

end

mutual

def types : Member → List TypeExpr
  | field d => [d.type]
  | property d => [d.type]
  | method d => d.types
  | constructor d => d.types
  | enumValue _ => []
  | nested head members => head.types ++ listTypes members

def listTypes : List Member → List TypeExpr
  | [] => []
  | m :: rest => types m ++ listTypes rest

end

end Member

def ScopeHead.isEmpty (h : ScopeHead) (members : List Declaration) : Bool :=
  h.imports.isEmpty && !h.isWholeFile && members.isEmpty

namespace Declaration

mutual

def depthBy (f : TypeExpr → Nat) : Declaration → Nat
  | scope head members => if head.isEmpty members then 0 else listDepthBy f members + 1
  | type head members => (Member.nested head members).depthBy f

def listDepthBy (f : TypeExpr → Nat) : List Declaration → Nat
  | [] => 0
  | d :: rest => max (depthBy f d) (listDepthBy f rest)

end

mutual

def types : Declaration → List TypeExpr
  | scope _ members => listTypes members
  | type head members => (Member.nested head members).types

def listTypes : List Declaration → List TypeExpr
  | [] => []
  | d :: rest => types d ++ listTypes rest

end

end Declaration

def SourceUnit.depthBy (f : TypeExpr → Nat) (u : SourceUnit) : Nat := Declaration.listDepthBy f u.members

def SourceUnit.types (u : SourceUnit) : List TypeExpr := Declaration.listTypes u.members

section

variable {f g : TypeExpr → Nat} {n : Nat}

theorem Member.listDepthBy_le_iff {ms : List Member} :
    Member.listDepthBy f ms ≤ n ↔ ∀ m ∈ ms, m.depthBy f ≤ n := by
  induction ms with
  | nil => simp [Member.listDepthBy]
  | cons m ms ih => rw [Member.listDepthBy, Nat.max_le, ih, List.forall_mem_cons]

theorem Declaration.listDepthBy_le_iff {ds : List Declaration} :
    Declaration.listDepthBy f ds ≤ n ↔ ∀ d ∈ ds, d.depthBy f ≤ n := by
  induction ds with
  | nil => simp [Declaration.listDepthBy]
  | cons d ds ih => rw [Declaration.listDepthBy, Nat.max_le, ih, List.forall_mem_cons]

theorem deepest_congr {ts : List TypeExpr} (h : ∀ t ∈ ts, f t = g t) : deepest f ts = deepest g ts := by
  rw [deepest, deepest, List.map_congr_left h]

mutual

theorem Member.depthBy_congr :
    (m : Member) → (∀ t ∈ m.types, f t = g t) → m.depthBy f = m.depthBy g
  | .field d, h => h d.type List.mem_cons_self
  | .property d, h => h d.type List.mem_cons_self
  | .method _, h => deepest_congr h
  | .constructor _, h => deepest_congr h
  | .enumValue _, _ => rfl
  | .nested head members, h => by
    rw [Member.depthBy, Member.depthBy, deepest_congr fun t ht => h t (List.mem_append_left _ ht),
      Member.listDepthBy_congr members fun t ht => h t (List.mem_append_right _ ht)]

theorem Member.listDepthBy_congr :
    (ms : List Member) → (∀ t ∈ Member.listTypes ms, f t = g t) →
      Member.listDepthBy f ms = Member.listDepthBy g ms
  | [], _ => rfl
  | m :: ms, h => by
    rw [Member.listDepthBy, Member.listDepthBy,
      Member.depthBy_congr m fun t ht => h t (List.mem_append_left _ ht),
      Member.listDepthBy_congr ms fun t ht => h t (List.mem_append_right _ ht)]

end

mutual

theorem Declaration.depthBy_congr :
    (d : Declaration) → (∀ t ∈ d.types, f t = g t) → d.depthBy f = d.depthBy g
  | .scope _ members, h => by
    rw [Declaration.depthBy, Declaration.depthBy, Declaration.listDepthBy_congr members h]
  | .type head members, h => Member.depthBy_congr (.nested head members) h

theorem Declaration.listDepthBy_congr :
    (ds : List Declaration) → (∀ t ∈ Declaration.listTypes ds, f t = g t) →
      Declaration.listDepthBy f ds = Declaration.listDepthBy g ds
  | [], _ => rfl
  | d :: ds, h => by
    rw [Declaration.listDepthBy, Declaration.listDepthBy,
      Declaration.depthBy_congr d fun t ht => h t (List.mem_append_left _ ht),
      Declaration.listDepthBy_congr ds fun t ht => h t (List.mem_append_right _ ht)]

end

/-- Where marks stand only behind types with no others in them, it makes no difference how they are
counted. -/
theorem SourceUnit.depth_eq_level {u : SourceUnit} (h : ∀ t ∈ u.types, t.MarksLeaves) :
    u.depthBy TypeExpr.depth = u.depthBy TypeExpr.level :=
  Declaration.listDepthBy_congr u.members fun t ht => TypeExpr.depth_eq_level (h t ht)

end

end DataClasses
