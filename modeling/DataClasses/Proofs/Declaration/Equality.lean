import DataClasses.Declaration.Basic

/-!
# Declarations can be compared

Whether two types, members or declarations are the same is decided part by part.
-/

set_option autoImplicit false

namespace DataClasses

namespace TypeExpr

mutual

def same : TypeExpr → TypeExpr → Bool
  | predefined keyword line, predefined keyword' line' => keyword == keyword' && line == line'
  | named segments fromRoot line, named segments' fromRoot' line' =>
    segmentsSame segments segments' && fromRoot == fromRoot' && line == line'
  | array element rank, array element' rank' => same element element' && rank == rank'
  | nullable inner, nullable inner' => same inner inner'
  | tuple elements line, tuple elements' line' => allSame elements elements' && line == line'
  | _, _ => false

def allSame : List TypeExpr → List TypeExpr → Bool
  | [], [] => true
  | t :: ts, u :: us => same t u && allSame ts us
  | _, _ => false

def segmentsSame : List (String × List TypeExpr) → List (String × List TypeExpr) → Bool
  | [], [] => true
  | (name, ts) :: rest, (name', us) :: rest' => name == name' && allSame ts us && segmentsSame rest rest'
  | _, _ => false

end

mutual

theorem same_iff : (t u : TypeExpr) → (same t u = true ↔ t = u)
  | predefined _ _, u => by cases u <;> simp [same]
  | named segments _ _, u => by cases u <;> simp [same, segmentsSame_iff segments, and_assoc]
  | array element _, u => by cases u <;> simp [same, same_iff element]
  | nullable inner, u => by cases u <;> simp [same, same_iff inner]
  | tuple elements _, u => by cases u <;> simp [same, allSame_iff elements]

theorem allSame_iff : (ts us : List TypeExpr) → (allSame ts us = true ↔ ts = us)
  | [], us => by cases us <;> simp [allSame]
  | t :: ts, us => by cases us <;> simp [allSame, same_iff t, allSame_iff ts]

theorem segmentsSame_iff :
    (ss us : List (String × List TypeExpr)) → (segmentsSame ss us = true ↔ ss = us)
  | [], us => by cases us <;> simp [segmentsSame]
  | (name, ts) :: rest, [] => by simp [segmentsSame]
  | (name, ts) :: rest, (name', us) :: rest' => by
    simp [segmentsSame, allSame_iff ts, segmentsSame_iff rest]

end

instance : DecidableEq TypeExpr := fun t u => decidable_of_iff _ (same_iff t u)

end TypeExpr

deriving instance DecidableEq for Parameter
deriving instance DecidableEq for FieldDecl
deriving instance DecidableEq for PropertyDecl
deriving instance DecidableEq for MethodDecl
deriving instance DecidableEq for EnumValueDecl
deriving instance DecidableEq for TypeHead

namespace Member

mutual

def same : Member → Member → Bool
  | field d, field d' => d == d'
  | property d, property d' => d == d'
  | method d, method d' => d == d'
  | constructor d, constructor d' => d == d'
  | enumValue d, enumValue d' => d == d'
  | nested head members, nested head' members' => head == head' && allSame members members'
  | _, _ => false

def allSame : List Member → List Member → Bool
  | [], [] => true
  | m :: ms, n :: ns => same m n && allSame ms ns
  | _, _ => false

end

mutual

theorem same_iff : (m n : Member) → (same m n = true ↔ m = n)
  | field _, n => by cases n <;> simp [same]
  | property _, n => by cases n <;> simp [same]
  | method _, n => by cases n <;> simp [same]
  | constructor _, n => by cases n <;> simp [same]
  | enumValue _, n => by cases n <;> simp [same]
  | nested _ members, n => by cases n <;> simp [same, allSame_iff members]

theorem allSame_iff : (ms ns : List Member) → (allSame ms ns = true ↔ ms = ns)
  | [], ns => by cases ns <;> simp [allSame]
  | m :: ms, ns => by cases ns <;> simp [allSame, same_iff m, allSame_iff ms]

end

instance : DecidableEq Member := fun m n => decidable_of_iff _ (same_iff m n)

end Member

deriving instance DecidableEq for ScopeHead

namespace Declaration

mutual

def same : Declaration → Declaration → Bool
  | scope head members, scope head' members' => head == head' && allSame members members'
  | type head members, type head' members' => head == head' && members == members'
  | _, _ => false

def allSame : List Declaration → List Declaration → Bool
  | [], [] => true
  | d :: ds, e :: es => same d e && allSame ds es
  | _, _ => false

end

mutual

theorem same_iff : (d e : Declaration) → (same d e = true ↔ d = e)
  | scope _ members, e => by cases e <;> simp [same, allSame_iff members]
  | type _ _, e => by cases e <;> simp [same]

theorem allSame_iff : (ds es : List Declaration) → (allSame ds es = true ↔ ds = es)
  | [], es => by cases es <;> simp [allSame]
  | d :: ds, es => by cases es <;> simp [allSame, same_iff d, allSame_iff ds]

end

instance : DecidableEq Declaration := fun d e => decidable_of_iff _ (same_iff d e)

end Declaration

deriving instance DecidableEq for SourceUnit

end DataClasses
