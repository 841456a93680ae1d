import DataClasses.Proofs.Binding.Sources
import DataClasses.Proofs.TypeTable.Groups

/-!
# The type declarations of a source

The type declarations of a source in the order in which they begin, the entries that they are bound to,
and what is reported of the names of their members.
-/

set_option autoImplicit false

namespace DataClasses

open Binding

/-- A type declaration where it stands. The site counts down to it, the innermost number first; around
it are types with their numbers of type parameters, the outermost first. -/
structure TypePart where
  site : List Nat
  scope : String
  around : List (String × Nat)
  head : TypeHead
  members : List Member

def TypeHead.level (h : TypeHead) : String × Nat := (h.name, h.typeParameters.length)

def Member.shown : Member → List (String × MemberKind)
  | field d => d.names.map (·, .field)
  | property d => [(d.name, .property)]
  | method d => [(d.name, .method)]
  | constructor d => [(d.name, .constructor)]
  | enumValue d => [(d.name, .enumValue)]
  | nested _ _ => []

namespace TypePart

def dotted (path : List (String × Nat)) : String := (path.map (·.1)).foldl joinNames ""

theorem dotted_concat (path : List (String × Nat)) (level : String × Nat) :
    dotted (path ++ [level]) = joinNames (dotted path) level.1 := by
  simp [dotted]

def name (p : TypePart) : String := dotted (p.around ++ [p.head.level])

def identity (p : TypePart) : String × String × Nat := (p.scope, p.name, p.head.typeParameters.length)

def shown (p : TypePart) : List (String × MemberKind) :=
  p.head.parameters.map (fun q => (q.name, .property)) ++ p.members.flatMap Member.shown

end TypePart

namespace Member

mutual

/-- The type declarations that begin with a member; what has no name is left out with all in it. -/
def partsIn (scope : String) (around : List (String × Nat)) (site : List Nat) :
    Member → List TypePart
  | nested head members =>
    if head.name.isEmpty then []
    else ⟨site, scope, around, head, members⟩ :: allPartsIn scope (around ++ [head.level]) site 0 members
  | _ => []

def allPartsIn (scope : String) (around : List (String × Nat)) (site : List Nat) :
    Nat → List Member → List TypePart
  | _, [] => []
  | i, m :: rest => partsIn scope around (i :: site) m ++ allPartsIn scope around site (i + 1) rest

end

end Member

namespace Declaration

mutual

def partsIn (outer : String) (site : List Nat) : Declaration → List TypePart
  | scope head members => allPartsIn (head.name.parts.foldl joinNames outer) site 0 members
  | type head members => (Member.nested head members).partsIn outer [] site

def allPartsIn (outer : String) (site : List Nat) : Nat → List Declaration → List TypePart
  | _, [] => []
  | i, d :: rest => partsIn outer (i :: site) d ++ allPartsIn outer site (i + 1) rest

end

end Declaration

def SourceUnit.parts (u : SourceUnit) : List TypePart := Declaration.allPartsIn "" [] 0 u.members

namespace Binding

structure EntryOf (t : TypeEntry) (p : TypePart) : Prop where
  identity : t.identity = p.identity
  kind : t.kind = p.head.kind
  typeParameters : t.typeParameters = p.head.typeParameters
  members : t.members.map (fun m => (m.name, m.kind)) = p.shown

variable (symbols : Symbols)

theorem bindMember_shown (place : Place) (full : String) (m : Member) :
    (bindMember symbols place full m).value.map (fun e => (e.name, e.kind)) = m.shown := by
  cases m with
  | field d =>
    change (d.names.map _).map _ = d.names.map _
    rw [List.map_map]
    rfl
  | property d => rfl
  | method d => rfl
  | constructor d => rfl
  | enumValue d => rfl
  | nested head members => rfl

theorem bindMembers_shown (place : Place) (head : TypeHead) (full : String) (used : UsedNames)
    (members : List Member) :
    (bindMembers symbols place head full used members).value.map (fun e => (e.name, e.kind)) =
      members.flatMap Member.shown := by
  induction members generalizing used with
  | nil => rfl
  | cons m members ih =>
    rw [bindMembers, Reported.bind_value, Reported.bind_value, Reported.bind_value,
      Reported.pure_value, List.map_append, bindMember_shown, ih, List.flatMap_cons]

theorem bindRecordParameters_shown (place : Place) (parameters : List Parameter) :
    (bindRecordParameters symbols place parameters).value.map (fun e => (e.name, e.kind)) =
      parameters.map fun q => (q.name, .property) := by
  induction parameters with
  | nil => rfl
  | cons q parameters ih =>
    rw [bindRecordParameters]
    simpa using ih

theorem bindHead_entryOf (place : Place) {c : Container} {around : List (String × Nat)}
    (houter : c.outer = TypePart.dotted around) (head : TypeHead) (members : List Member)
    (site : List Nat) :
    EntryOf (bindHead symbols place c head members).value ⟨site, c.scope, around, head, members⟩ := by
  refine ⟨?_, rfl, rfl, ?_⟩
  · change (c.scope, joinNames c.outer head.name, head.typeParameters.length) =
      (c.scope, TypePart.dotted (around ++ [head.level]), head.typeParameters.length)
    rw [TypePart.dotted_concat, houter]
    rfl
  · change (((bindRecordParameters symbols _ head.parameters).value ++
      (bindMembers symbols _ head _ [] members).value).map fun e => (e.name, e.kind)) = _
    rw [List.map_append, bindRecordParameters_shown, bindMembers_shown]
    rfl

theorem claimAll_append (head : TypeHead) (full : String) (used : UsedNames)
    (first second : List NameClaim) :
    (claimAll head full used (first ++ second)).reports =
      (claimAll head full used first).reports ++
        (claimAll head full (claimAll head full used first).value second).reports := by
  induction first generalizing used with
  | nil => rfl
  | cons c first ih =>
    rw [List.cons_append, claimAll, claimAll, Reported.bind_reports, Reported.bind_reports,
      Reported.bind_value, ih, List.append_assoc]

/-- The names that the members of a type claim are looked at in order. -/
theorem claims_reported (place : Place) (head : TypeHead) (full : String) (used : UsedNames)
    (members : List Member) :
    ∀ d ∈ (claimAll head full used (members.flatMap claims)).reports,
      d ∈ (bindMembers symbols place head full used members).reports := by
  induction members generalizing used with
  | nil => simp [claimAll]
  | cons m members ih =>
    intro d hd
    rw [List.flatMap_cons, claimAll_append] at hd
    rw [bindMembers, Reported.bind_reports, Reported.bind_reports, Reported.bind_reports]
    rcases List.mem_append.mp hd with hd | hd
    · exact List.mem_append_right _ (List.mem_append_left _ hd)
    · exact List.mem_append_right _ (List.mem_append_right _ (List.mem_append_left _ (ih _ d hd)))

def claimsOf (p : TypePart) (full : String) : Reported UsedNames :=
  claimAll p.head full [] (p.members.flatMap claims)

theorem bindHead_claims (place : Place) (c : Container) (around : List (String × Nat)) (head : TypeHead)
    (members : List Member) (site : List Nat) :
    ∀ d ∈ (claimsOf ⟨site, c.scope, around, head, members⟩ (c.into head).full).reports,
      d ∈ (bindHead symbols place c head members).reports := by
  intro d hd
  have hmembers := claims_reported symbols (place.into head (c.into head).full) head (c.into head).full
    [] members d hd
  rw [bindHead, Reported.bind_reports, Reported.bind_reports, Reported.bind_reports,
    Reported.bind_reports]
  exact List.mem_append_right _ (List.mem_append_right _ (List.mem_append_right _
    (List.mem_append_left _ hmembers)))

end Binding

end DataClasses
