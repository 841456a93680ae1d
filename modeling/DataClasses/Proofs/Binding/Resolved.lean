import DataClasses.Proofs.Binding.Merging
import DataClasses.Proofs.Binding.Placed
import DataClasses.Proofs.Binding.Types

/-!
# Types that are resolved

The members of a table with the types that are written for them. Where no error is reported, each of
these has been found, with all that stands inside of it; a type that is not found has an error reported.
-/

set_option autoImplicit false

namespace DataClasses

open Binding

/-- A member as it is declared: the type that is written for it, and the place at which the names in
that are looked up. A method that returns nothing has none. -/
structure DeclaredMember where
  name : String
  kind : MemberKind
  place : Place
  type : Option TypeExpr

def returned (returns : Option TypeExpr) : Option TypeExpr := returns.filter (!·.isVoid)

def Member.declares (place : Place) : Member → List DeclaredMember
  | field d => d.names.map fun name => ⟨name, .field, place, some d.type⟩
  | property d => [⟨d.name, .property, place, some d.type⟩]
  | method d =>
    [⟨d.name, .method, { place with typeParameters := place.typeParameters ++ d.typeParameters },
      returned d.returns⟩]
  | constructor d => [⟨d.name, .constructor, place, none⟩]
  | enumValue d => [⟨d.name, .enumValue, place, none⟩]
  | nested _ _ => []

def PlacedPart.declares (p : PlacedPart) : List DeclaredMember :=
  p.head.parameters.map (fun q => ⟨q.name, .property, p.inside, some q.type⟩) ++
    p.members.flatMap (·.declares p.inside)

namespace Binding

structure EntryFor (symbols : Symbols) (full : String) (d : DeclaredMember) (m : MemberEntry) : Prop where
  name : m.name = d.name
  kind : m.kind = d.kind
  typed : ∀ t ∈ d.type, m.typeName = (bindType symbols d.place t).value
  untyped : d.type = none → m.typeName = none ∨ m.typeName = some full

structure Enters (symbols : Symbols) (full : String) (ds : List DeclaredMember)
    (x : Reported (List MemberEntry)) : Prop where
  entries : List.Forall₂ (EntryFor symbols full) ds x.value
  reports : ∀ d ∈ ds, ∀ t ∈ d.type, (bindType symbols d.place t).reports ⊆ x.reports

variable (symbols : Symbols) (place : Place) (full : String)

theorem bindField_enters (d : FieldDecl) :
    Enters symbols full (Member.declares place (.field d)) (bindField symbols place d) := by
  constructor
  · change List.Forall₂ _ (d.names.map _) (d.names.map _)
    rw [List.forall₂_map_left_iff, List.forall₂_map_right_iff, List.forall₂_same]
    intro name _
    refine ⟨rfl, rfl, ?_, nofun⟩
    intro t ht
    cases ht
    rfl
  · intro member hmember t ht
    obtain ⟨name, -, rfl⟩ := List.mem_map.mp hmember
    cases ht
    intro report hreport
    exact List.mem_append_right _ (List.mem_append_left _ hreport)

theorem bindProperty_enters (d : PropertyDecl) :
    Enters symbols full (Member.declares place (.property d)) (bindProperty symbols place full d) := by
  constructor
  · refine .cons ⟨rfl, rfl, ?_, nofun⟩ .nil
    intro t ht
    cases ht
    rfl
  · intro member hmember t ht
    cases List.mem_singleton.mp hmember
    cases ht
    intro report hreport
    exact List.mem_append_right _ (List.mem_append_left _ hreport)

theorem bindReturn_some {returns : Option TypeExpr} {t : TypeExpr} (h : returned returns = some t) :
    bindReturn symbols place returns = bindType symbols place t := by
  obtain ⟨hreturns, hvoid⟩ := Option.filter_eq_some_iff.mp h
  rw [hreturns, bindReturn, if_neg (by simpa using hvoid)]

theorem bindReturn_none {returns : Option TypeExpr} (h : returned returns = none) :
    bindReturn symbols place returns = pure none := by
  cases returns with
  | none => rfl
  | some t =>
    have hvoid : t.isVoid = true := by simpa [returned, Option.filter_some] using h
    rw [bindReturn, if_pos hvoid]

theorem bindMethod_enters (d : MethodDecl) :
    Enters symbols full (Member.declares place (.method d)) (bindMethod symbols place d) := by
  constructor
  · refine .cons ⟨rfl, rfl, ?_, ?_⟩ .nil
    · intro t ht
      exact congrArg Reported.value (bindReturn_some symbols _ ht)
    · intro hnone
      exact .inl (congrArg Reported.value (bindReturn_none symbols _ hnone))
  · intro member hmember t ht
    cases List.mem_singleton.mp hmember
    intro report hreport
    apply List.mem_append_right
    apply List.mem_append_left
    rw [bindReturn_some symbols _ ht]
    exact hreport

theorem bindMember_enters (m : Member) :
    Enters symbols full (m.declares place) (bindMember symbols place full m) := by
  cases m with
  | field d => exact bindField_enters symbols place full d
  | property d => exact bindProperty_enters symbols place full d
  | method d => exact bindMethod_enters symbols place full d
  | constructor d =>
    refine ⟨.cons ⟨rfl, rfl, nofun, fun _ => .inl rfl⟩ .nil, ?_⟩
    intro member hmember t ht
    cases List.mem_singleton.mp hmember
    cases ht
  | enumValue d =>
    refine ⟨.cons ⟨rfl, rfl, nofun, fun _ => .inr rfl⟩ .nil, ?_⟩
    intro member hmember t ht
    cases List.mem_singleton.mp hmember
    cases ht
  | nested head members => exact ⟨.nil, by simp [Member.declares]⟩

theorem bindMembers_enters (head : TypeHead) (used : UsedNames) (ms : List Member) :
    Enters symbols full (ms.flatMap (·.declares place)) (bindMembers symbols place head full used ms) := by
  induction ms generalizing used with
  | nil => exact ⟨.nil, by simp⟩
  | cons m ms ih =>
    obtain ⟨hentries, hreports⟩ := bindMember_enters symbols place full m
    obtain ⟨hothers, hbehind⟩ := ih (claimAll head full used (claims m)).value
    rw [List.flatMap_cons, bindMembers]
    refine ⟨List.rel_append hentries hothers, ?_⟩
    intro d hd t ht report hreport
    rcases List.mem_append.mp hd with hd | hd
    · exact List.mem_append_left _ (hreports d hd t ht hreport)
    · exact List.mem_append_right _ (List.mem_append_right _
        (List.mem_append_left _ (hbehind d hd t ht hreport)))

theorem bindRecordParameters_enters (parameters : List Parameter) :
    Enters symbols full (parameters.map fun q => ⟨q.name, .property, place, some q.type⟩)
      (bindRecordParameters symbols place parameters) := by
  induction parameters with
  | nil => exact ⟨.nil, by simp⟩
  | cons q parameters ih =>
    rw [List.map_cons, bindRecordParameters]
    constructor
    · refine .cons ⟨rfl, rfl, ?_, fun hnone => absurd hnone (Option.some_ne_none _)⟩ ih.entries
      intro t ht
      cases ht
      rfl
    · intro d hd t ht report hreport
      rcases List.mem_cons.mp hd with rfl | hd
      · cases ht
        exact List.mem_append_right _ (List.mem_append_left _ hreport)
      · exact List.mem_append_right _ (List.mem_append_right _
          (List.mem_append_left _ (ih.reports d hd t ht hreport)))

end Binding

namespace PlacedPart

variable (symbols : Symbols) (p : PlacedPart)

/-- The members of a type are entered as they are declared. -/
theorem bound_entries :
    List.Forall₂ (EntryFor symbols p.full) p.declares (p.bound symbols).value.members :=
  List.rel_append (bindRecordParameters_enters symbols p.inside p.full p.head.parameters).entries
    (bindMembers_enters symbols p.inside p.full p.head [] p.members).entries

theorem bound_reports {d : DeclaredMember} (hd : d ∈ p.declares) {t : TypeExpr} (ht : t ∈ d.type) :
    (bindType symbols d.place t).reports ⊆ (p.bound symbols).reports := by
  intro report hreport
  rcases List.mem_append.mp hd with hd | hd
  · exact List.mem_append_right _ (List.mem_append_right _ (List.mem_append_left _
      ((bindRecordParameters_enters symbols p.inside p.full p.head.parameters).reports d hd t ht hreport)))
  · exact List.mem_append_right _ (List.mem_append_right _ (List.mem_append_right _
      (List.mem_append_left _
        ((bindMembers_enters symbols p.inside p.full p.head [] p.members).reports d hd t ht hreport))))

end PlacedPart

def SourceUnit.declaredIn (u : SourceUnit) (references : List Assembly) (t : TypeEntry) :
    List DeclaredMember :=
  ((u.placed references).filter (·.identity == t.identity)).flatMap (·.declares)

structure DeclaredMember.ResolvedBy (d : DeclaredMember) (m : MemberEntry) : Prop where
  name : m.name = d.name
  kind : m.kind = d.kind
  type : d.type.isSome = true → m.typeName.isSome = true

namespace PlacedPart

variable {p : PlacedPart} {d : DeclaredMember}

inductive Declares (p : PlacedPart) : DeclaredMember → Prop where
  | parameter {q : Parameter} (hq : q ∈ p.head.parameters) :
      Declares p ⟨q.name, .property, p.inside, some q.type⟩
  | field {f : FieldDecl} {name : String} (hf : .field f ∈ p.members) :
      Declares p ⟨name, .field, p.inside, some f.type⟩
  | property {f : PropertyDecl} (hf : .property f ∈ p.members) :
      Declares p ⟨f.name, .property, p.inside, some f.type⟩
  | method {f : MethodDecl} (hf : .method f ∈ p.members) :
      Declares p ⟨f.name, .method,
        { p.inside with typeParameters := p.inside.typeParameters ++ f.typeParameters },
        returned f.returns⟩
  | constructor {name : String} : Declares p ⟨name, .constructor, p.inside, none⟩
  | enumValue {name : String} : Declares p ⟨name, .enumValue, p.inside, none⟩

theorem declares_of_mem (hd : d ∈ p.declares) : p.Declares d := by
  rcases List.mem_append.mp hd with hd | hd
  · obtain ⟨q, hq, rfl⟩ := List.mem_map.mp hd
    exact .parameter hq
  · obtain ⟨m, hm, hd⟩ := List.mem_flatMap.mp hd
    cases m with
    | field f =>
      obtain ⟨name, -, rfl⟩ := List.mem_map.mp hd
      exact .field hm
    | property f =>
      cases List.mem_singleton.mp hd
      exact .property hm
    | method f =>
      cases List.mem_singleton.mp hd
      exact .method hm
    | constructor f =>
      cases List.mem_singleton.mp hd
      exact .constructor
    | enumValue f =>
      cases List.mem_singleton.mp hd
      exact .enumValue
    | nested head members => cases hd

/-- Fields and properties have a type. -/
theorem declares_typed (hd : d ∈ p.declares) (hkind : d.kind = .field ∨ d.kind = .property) :
    d.type.isSome = true := by
  cases declares_of_mem hd with
  | parameter hq => rfl
  | field hf => rfl
  | property hf => rfl
  | method hf => rcases hkind with hkind | hkind <;> cases hkind
  | constructor => rcases hkind with hkind | hkind <;> cases hkind
  | enumValue => rcases hkind with hkind | hkind <;> cases hkind

end PlacedPart

theorem forall₂_flatMap {α β γ : Type} {r : β → γ → Prop} {f : α → List β}
    {g : α → List γ} {l : List α}
    (h : ∀ a ∈ l, List.Forall₂ r (f a) (g a)) : List.Forall₂ r (l.flatMap f) (l.flatMap g) := by
  induction l with
  | nil => exact .nil
  | cons a l ih =>
    obtain ⟨ha, hl⟩ := List.forall_mem_cons.mp h
    exact List.rel_append ha (ih hl)

theorem exists_of_mem_right {α β : Type} {r : α → β → Prop} {l : List α} {k : List β}
    (h : List.Forall₂ r l k) {b : β} (hb : b ∈ k) : ∃ a ∈ l, r a b := by
  induction h with
  | nil => cases hb
  | cons hab _ ih =>
    rcases List.mem_cons.mp hb with rfl | hb
    · exact ⟨_, List.mem_cons_self, hab⟩
    · obtain ⟨a, ha, hab⟩ := ih hb
      exact ⟨a, List.mem_cons_of_mem _ ha, hab⟩

namespace SourceUnit

variable (u : SourceUnit) (references : List Assembly)

/-- What is reported of the type of a member is reported of the source. -/
theorem type_reported {p : PlacedPart} (hp : p ∈ u.placed references) {d : DeclaredMember}
    (hd : d ∈ p.declares) {t : TypeExpr} (ht : t ∈ d.type) :
    (bindType (u.symbols references) d.place t).reports ⊆ (u.bind references).diagnostics :=
  fun _ hreport => u.placed_reported references hp (p.bound_reports _ hd ht hreport)

/-- Where no error is reported, all types of members are found. -/
theorem type_resolved (h : ∀ d ∈ (u.bind references).diagnostics, d.severity ≠ .error) {p : PlacedPart}
    (hp : p ∈ u.placed references) {d : DeclaredMember} (hd : d ∈ p.declares) {t : TypeExpr}
    (ht : t ∈ d.type) : (bindType (u.symbols references) d.place t).value.isSome = true := by
  by_contra hnone
  rw [Bool.not_eq_true, Option.isSome_eq_false_iff, Option.isNone_iff_eq_none] at hnone
  obtain ⟨report, hreport, herror⟩ := exists_error _ _ hnone
  exact h report (u.type_reported references hp hd ht hreport) herror

/-- The members of a type of the table are entered as they are declared. -/
theorem table_declared {t : TypeEntry} (ht : t ∈ (u.bind references).table.types) :
    List.Forall₂ (fun d m => ∃ p ∈ u.placed references, d ∈ p.declares ∧
      EntryFor (u.symbols references) p.full d m) (u.declaredIn references t) t.members := by
  rw [u.members_placed references ht]
  apply forall₂_flatMap
  intro p hp
  have hentries := p.bound_entries (u.symbols references)
  apply List.Forall₂.imp _ ((List.forall₂_and_left _ _).mpr ⟨fun d hd => hd, hentries⟩)
  intro d m hd
  exact ⟨p, List.mem_of_mem_filter hp, hd⟩

theorem resolved_of_entry (h : ∀ d ∈ (u.bind references).diagnostics, d.severity ≠ .error)
    {p : PlacedPart}
    (hp : p ∈ u.placed references) {d : DeclaredMember} (hd : d ∈ p.declares) {m : MemberEntry}
    (hm : EntryFor (u.symbols references) p.full d m) : d.ResolvedBy m := by
  refine ⟨hm.name, hm.kind, ?_⟩
  intro hsome
  obtain ⟨t, ht⟩ := Option.isSome_iff_exists.mp hsome
  rw [hm.typed t ht]
  exact u.type_resolved references h hp hd ht

/-- Where no error is reported, every field and every property of the table has a type, and so has every
method that returns something. At whatever depth a type stands inside of the type of a member, an error
is reported if it is not found. -/
theorem types_resolved :
    ((∀ d ∈ (u.bind references).diagnostics, d.severity ≠ .error) →
      ∀ t ∈ (u.bind references).table.types,
        (∀ m ∈ t.members, m.kind = .field ∨ m.kind = .property → m.typeName.isSome = true) ∧
          List.Forall₂ DeclaredMember.ResolvedBy (u.declaredIn references t) t.members) ∧
      ∀ p ∈ u.placed references, ∀ d ∈ p.declares, ∀ t ∈ d.type, ∀ s, s.IsInside t →
        (bindType (u.symbols references) d.place s).value = none →
          ∃ report ∈ (u.bind references).diagnostics, report.severity = .error ∧
            report ∈ (bindType (u.symbols references) d.place s).reports := by
  constructor
  · intro h t ht
    have hdeclared := u.table_declared references ht
    constructor
    · intro m hm hkind
      obtain ⟨d, -, p, hp, hd, hentry⟩ := exists_of_mem_right hdeclared hm
      have hresolved := u.resolved_of_entry references h hp hd hentry
      exact hresolved.type (PlacedPart.declares_typed hd (hresolved.kind ▸ hkind))
    · apply hdeclared.imp
      rintro d m ⟨p, hp, hd, hentry⟩
      exact u.resolved_of_entry references h hp hd hentry
  · intro p hp d hd t ht s hs hnone
    obtain ⟨report, hreport, herror⟩ := exists_error _ _ hnone
    exact ⟨report, u.type_reported references hp hd ht (reports_inside _ _ hs hreport), herror, hreport⟩

def nodeType (line : Nat) : TypeExpr := .named [("Node", [])] false line

def fieldOf (type : TypeExpr) (name : String) (line : Nat) : Member :=
  .field { attributes := [], modifiers := [], type, names := [name], line }

def plainMethod (returns : TypeExpr) (name : String) (line : Nat) : Member :=
  .method { attributes := [], modifiers := [], returns := some returns, name, typeParameters := [],
            parameters := [], line }

def nodeUnit : SourceUnit where
  imports := []
  members :=
    [.type (plainHead [] "Node" [] 1)
      [fieldOf (.array (nodeType 2) 1) "next" 2,
        plainMethod (.nullable (nodeType 3)) "First" 3, plainMethod (.predefined "void" 4) "Clear" 4]]

theorem node_silent : ∀ d ∈ (nodeUnit.bind []).diagnostics, d.severity ≠ .error := by
  have hnone : (nodeUnit.bind []).diagnostics = [] := by
    simp only [nodeUnit, fieldOf, plainMethod, bind, symbols, Symbols.ofUnit, bindUnit, bindDeclarations,
      declaredScopes, declaredTypes, declaredType, declaredMembers]
    decide +kernel
  rw [hnone]
  exact List.forall_mem_nil _

theorem node_resolved :
    (∀ d ∈ (nodeUnit.bind []).diagnostics, d.severity ≠ .error) ∧
      ∀ t ∈ (nodeUnit.bind []).table.types,
        (∀ m ∈ t.members, m.kind = .field ∨ m.kind = .property → m.typeName.isSome = true) ∧
          List.Forall₂ DeclaredMember.ResolvedBy (nodeUnit.declaredIn [] t) t.members :=
  ⟨node_silent, (types_resolved nodeUnit []).1 node_silent⟩

end SourceUnit

end DataClasses
