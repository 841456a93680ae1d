import DataClasses.Proofs.Binding.Reported
import DataClasses.Proofs.Binding.Symbols
import DataClasses.Proofs.Compiler.Agreement
import DataClasses.Proofs.Declaration.Extent

/-!
# Where problems with names are reported

Every problem with a name is reported on the line of what is bound: of a type, an attribute, an
import, a member or the declaration around it.
-/

set_option autoImplicit false

namespace DataClasses

namespace Binding

variable {α β : Type} {e : Extent}

def AllLined (e : Extent) (reports : List Diagnostic) : Prop := ∀ d ∈ reports, e.hasLine d.line

def Reported.Lined (e : Extent) (x : Reported α) : Prop := AllLined e x.reports

theorem allLined_nil : AllLined e [] := nofun

theorem AllLined.append {first second : List Diagnostic} (h : AllLined e first)
    (h' : AllLined e second) : AllLined e (first ++ second) :=
  List.forall_mem_append.mpr ⟨h, h'⟩

theorem report_lined {line : Nat} (hline : e.hasLine line) (p : Problem) :
    AllLined e [p.onLine line] :=
  List.forall_mem_singleton.mpr hline

theorem pure_lined (a : α) : (pure a : Reported α).Lined e := allLined_nil

theorem say_lined {reports : List Diagnostic} (h : AllLined e reports) : (say reports).Lined e := h

theorem Reported.Lined.bind {x : Reported α} {f : α → Reported β} (hx : x.Lined e)
    (hf : ∀ a, (f a).Lined e) : (x >>= f).Lined e := AllLined.append hx (hf x.value)

theorem sayIf_lined (condition : Bool) {line : Nat} (hline : e.hasLine line) (p : Problem) :
    (sayIf condition line p).Lined e := by
  cases condition with
  | true => exact report_lined hline p
  | false => exact allLined_nil

theorem asType_lined {line : Nat} (hline : e.hasLine line) (m : Meaning) :
    (m.asType line).Lined e := by
  cases m with
  | scope name => exact (say_lined (report_lined hline _)).bind fun _ => pure_lined _
  | type name => exact pure_lined _
  | typeParameter name => exact pure_lined _
  | native name => exact pure_lined _

variable (symbols : Symbols) (place : Place)

theorem bindName_lined (segments : List (String × List TypeExpr)) (fromRoot : Bool) {line : Nat}
    (hline : e.hasLine line) : (bindName symbols place segments fromRoot line).Lined e := by
  rw [bindName]
  split
  · exact report_lined hline _
  · exact asType_lined hline _

mutual

theorem bindType_lined : (t : TypeExpr) → t.StandsIn e → (bindType symbols place t).Lined e
  | .predefined _ _, _ => pure_lined _
  | .named segments fromRoot _, h => (bindSegments_lined segments h.2).bind fun _ =>
    (bindName_lined symbols place segments fromRoot h.1).bind fun _ => pure_lined _
  | .array element _, h => (bindType_lined element h).bind fun _ => pure_lined _
  | .nullable inner, h => (bindType_lined inner h).bind fun _ => pure_lined _
  | .tuple elements _, h => (bindTypes_lined elements h.2).bind fun _ => pure_lined _

theorem bindTypes_lined :
    (ts : List TypeExpr) → TypeExpr.AllStandIn e ts → (bindTypes symbols place ts).Lined e
  | [], _ => pure_lined _
  | t :: rest, h => (bindType_lined t h.1).bind fun _ => (bindTypes_lined rest h.2).bind fun _ =>
    pure_lined _

theorem bindSegments_lined : (segments : List (String × List TypeExpr)) →
    TypeExpr.SegmentsStandIn e segments → (bindSegments symbols place segments).Lined e
  | [], _ => pure_lined _
  | (_, arguments) :: rest, h => (bindTypes_lined arguments h.2.1).bind fun _ =>
    (bindSegments_lined rest h.2.2).bind fun _ => pure_lined _

end

theorem searchAttribute_lined (outer : List String) {line : Nat} (hline : e.hasLine line)
    (names : List String) {search : AttributeSearch} (hsearch : AllLined e search.reports) :
    AllLined e (searchAttribute symbols place outer line names search) := by
  induction names generalizing search with
  | nil =>
    rw [searchAttribute]
    split
    · exact report_lined hline _
    · exact hsearch
  | cons name names ih =>
    rw [searchAttribute]
    split
    · split
      · exact allLined_nil
      · exact ih hsearch
    · exact ih (hsearch.append (report_lined hline _))
    · exact ih hsearch
    · exact ih (hsearch.append (report_lined hline _))

theorem attributeReports_lined {a : Attribute} (h : a.StandsIn e) :
    AllLined e (attributeReports symbols place a) := by
  rw [attributeReports]
  split
  · exact allLined_nil
  · exact searchAttribute_lined symbols place _ h.line _ allLined_nil

theorem bindAttributes_lined {attributes : List Attribute} (h : ∀ a ∈ attributes, a.StandsIn e) :
    (bindAttributes symbols place attributes).Lined e := by
  intro d hd
  obtain ⟨a, ha, hd⟩ := List.mem_flatMap.mp hd
  exact attributeReports_lined symbols place (h a ha) d hd

theorem bindImport_lined (scope : Scope) {i : Import} (h : i.StandsIn e) (meaning : Meaning) :
    (bindImport scope i meaning).Lined e := by
  unfold bindImport
  split
  · exact pure_lined _
  · split
    · split
      · exact report_lined h.line _
      · exact pure_lined _
    · exact report_lined h.line _
    · exact pure_lined _
    · exact report_lined h.line _

theorem bindImportsInto_lined {imports : List Import} (h : ∀ i ∈ imports, i.StandsIn e) (scope : Scope) :
    (bindImportsInto symbols place scope imports).Lined e := by
  induction imports generalizing scope with
  | nil => exact pure_lined _
  | cons i imports ih =>
    obtain ⟨hi, himports⟩ := List.forall_mem_cons.mp h
    rw [bindImportsInto]
    split
    · exact ih himports scope
    · split
      · exact (say_lined (report_lined hi.line _)).bind fun _ => ih himports scope
      · exact (bindImport_lined scope hi _).bind (ih himports)

theorem bindImports_lined (name : String) {imports : List Import} (h : ∀ i ∈ imports, i.StandsIn e) :
    (bindImports symbols place name imports).Lined e :=
  bindImportsInto_lined symbols _ h _

theorem bindParameters_lined {parameters : List Parameter} (h : ∀ p ∈ parameters, p.StandsIn e) :
    (bindParameters symbols place parameters).Lined e := by
  induction parameters with
  | nil => exact pure_lined _
  | cons p parameters ih =>
    obtain ⟨hp, hparameters⟩ := List.forall_mem_cons.mp h
    exact (bindAttributes_lined symbols place hp.attributes).bind fun _ =>
      (bindType_lined symbols place p.type hp.type).bind fun _ => ih hparameters

theorem bindRecordParameters_lined {parameters : List Parameter} (h : ∀ p ∈ parameters, p.StandsIn e) :
    (bindRecordParameters symbols place parameters).Lined e := by
  induction parameters with
  | nil => exact pure_lined _
  | cons p parameters ih =>
    obtain ⟨hp, hparameters⟩ := List.forall_mem_cons.mp h
    exact (bindAttributes_lined symbols place hp.attributes).bind fun _ =>
      (bindType_lined symbols place p.type hp.type).bind fun _ => (ih hparameters).bind fun _ =>
      pure_lined _

theorem bindField_lined {d : FieldDecl} (h : d.StandsIn e) : (bindField symbols place d).Lined e :=
  (bindAttributes_lined symbols place h.attributes).bind fun _ =>
    (bindType_lined symbols place d.type h.type).bind fun _ => (sayIf_lined _ h.line _).bind fun _ =>
    pure_lined _

theorem bindProperty_lined (full : String) {d : PropertyDecl} (h : d.StandsIn e) :
    (bindProperty symbols place full d).Lined e := by
  refine (bindAttributes_lined symbols place h.attributes).bind fun _ =>
    (bindType_lined symbols place d.type h.type).bind fun _ => (sayIf_lined _ h.line _).bind fun _ =>
    (say_lined ?_).bind fun _ => (sayIf_lined _ h.line _).bind fun _ => pure_lined _
  intro repeated hrepeated
  obtain ⟨_, -, rfl⟩ := List.mem_map.mp hrepeated
  exact h.line

theorem bindReturn_lined {returns : Option TypeExpr} (h : ∀ t ∈ returns, t.StandsIn e) :
    (bindReturn symbols place returns).Lined e := by
  cases returns with
  | none => exact pure_lined _
  | some t =>
    rw [bindReturn]
    split
    · exact pure_lined _
    · exact bindType_lined symbols place t (h t rfl)

theorem bindMethod_lined {d : MethodDecl} (h : d.StandsIn e) : (bindMethod symbols place d).Lined e :=
  (bindAttributes_lined symbols _ h.attributes).bind fun _ =>
    (bindReturn_lined symbols _ h.returns).bind fun _ =>
    (bindParameters_lined symbols _ h.parameters).bind fun _ => pure_lined _

theorem bindConstructor_lined {d : MethodDecl} (h : d.StandsIn e) :
    (bindConstructor symbols place d).Lined e :=
  (bindAttributes_lined symbols place h.attributes).bind fun _ =>
    (bindParameters_lined symbols place h.parameters).bind fun _ => pure_lined _

theorem bindMember_lined (full : String) {m : Member} (h : m.StandsIn e) :
    (bindMember symbols place full m).Lined e := by
  cases m with
  | field d => exact bindField_lined symbols place h
  | property d => exact bindProperty_lined symbols place full h
  | method d => exact bindMethod_lined symbols place h.2
  | constructor d => exact bindConstructor_lined symbols place h
  | enumValue d =>
    exact (bindAttributes_lined symbols place (EnumValueDecl.StandsIn.attributes h)).bind fun _ =>
      pure_lined _
  | nested head members => exact pure_lined _

/-- A member claims its names on its own line. -/
theorem claims_lined {m : Member} (h : m.StandsIn e) : ∀ c ∈ claims m, e.hasLine c.line := by
  intro c hc
  cases m with
  | field d =>
    obtain ⟨name, -, rfl⟩ := List.mem_map.mp hc
    exact FieldDecl.StandsIn.line h
  | property d =>
    rw [List.mem_singleton.mp hc]
    exact PropertyDecl.StandsIn.line h
  | method d =>
    rw [List.mem_singleton.mp hc]
    exact h.2.line
  | constructor d => cases hc
  | enumValue d =>
    rw [List.mem_singleton.mp hc]
    exact EnumValueDecl.StandsIn.line h
  | nested head members =>
    rw [List.mem_singleton.mp hc]
    exact h.1.line

theorem claimAll_lined (head : TypeHead) (full : String) {cs : List NameClaim}
    (h : ∀ c ∈ cs, e.hasLine c.line) (used : UsedNames) : (claimAll head full used cs).Lined e := by
  intro d hd
  obtain ⟨c, hc, rfl | rfl⟩ := claimAll_mem d hd
  · exact h c hc
  · exact h c hc

theorem bindMembers_lined (head : TypeHead) (full : String) {members : List Member}
    (h : ∀ m ∈ members, m.StandsIn e) (used : UsedNames) :
    (bindMembers symbols place head full used members).Lined e := by
  induction members generalizing used with
  | nil => exact pure_lined _
  | cons m members ih =>
    obtain ⟨hm, hmembers⟩ := List.forall_mem_cons.mp h
    exact (bindMember_lined symbols place full hm).bind fun _ =>
      (claimAll_lined head full (claims_lined hm) used).bind fun _ => (ih hmembers _).bind fun _ =>
      pure_lined _

theorem bindHead_lined (c : Container) {head : TypeHead} (hhead : head.StandsIn e) {members : List Member}
    (hmembers : ∀ m ∈ members, m.StandsIn e) : (bindHead symbols place c head members).Lined e := by
  have hbases : (bindBases symbols (place.into head (c.into head).full) head.bases).Lined e :=
    (bindTypes_lined symbols _ _ (TypeExpr.allStandIn_iff.mpr hhead.bases)).bind fun _ => pure_lined _
  exact (bindAttributes_lined symbols _ hhead.attributes).bind fun _ => hbases.bind fun _ =>
    (bindRecordParameters_lined symbols _ hhead.parameters).bind fun _ =>
    (bindMembers_lined symbols _ head _ hmembers []).bind fun _ => pure_lined _

mutual

theorem bindInner_lined (place : Place) (c : Container) :
    (m : Member) → m.StandsIn e → (bindInner symbols place c m).Lined e
  | .nested head members, h => by
    rw [bindInner]
    split
    · exact pure_lined _
    · exact (bindHead_lined symbols place c h.1 (Member.allStandIn_iff.mp h.2)).bind fun _ =>
        (bindNested_lined _ _ members h.2).bind fun _ => pure_lined _
  | .field _, _ => pure_lined _
  | .property _, _ => pure_lined _
  | .method _, _ => pure_lined _
  | .constructor _, _ => pure_lined _
  | .enumValue _, _ => pure_lined _

theorem bindNested_lined (place : Place) (c : Container) :
    (ms : List Member) → Member.AllStandIn e ms → (bindNested symbols place c ms).Lined e
  | [], _ => pure_lined _
  | m :: rest, h => (bindInner_lined place c m h.1).bind fun _ =>
    (bindNested_lined place c rest h.2).bind fun _ => pure_lined _

end

theorem bindDeclarations_lined (place : Place) :
    (ds : List Declaration) → Declaration.AllStandIn e ds → (bindDeclarations symbols place ds).Lined e
  | [], _ => by
    rw [bindDeclarations]
    exact pure_lined _
  | .scope head members :: rest, h => by
    rw [bindDeclarations]
    exact (bindImports_lined symbols _ _ h.1.1.imports).bind fun _ =>
      (bindDeclarations_lined _ members h.1.2).bind fun _ =>
      (bindDeclarations_lined place rest h.2).bind fun _ => pure_lined _
  | .type head members :: rest, h => by
    rw [bindDeclarations]
    exact (bindInner_lined symbols place _ (.nested head members) h.1).bind fun _ =>
      (bindDeclarations_lined place rest h.2).bind fun _ => pure_lined _

theorem declaredMembers_lined (container : String) (ms : List Member) (h : Member.AllStandIn e ms) :
    ∀ d ∈ declaredMembers container ms, e.hasLine d.line := by
  fun_induction declaredMembers container ms with
  | case1 => simp
  | case2 container head members rest ihInside ih =>
    refine List.forall_mem_append.mpr ⟨?_, ih h.2⟩
    split
    · simp
    · exact List.forall_mem_cons.mpr ⟨h.1.1.line, ihInside h.1.2⟩
  | case3 container m rest _ ih => exact ih h.2

theorem declaredType_lined (container : String) {head : TypeHead} {members : List Member}
    (h : (Member.nested head members).StandsIn e) :
    ∀ d ∈ declaredType container head members, e.hasLine d.line := by
  rw [declaredType]
  split
  · simp
  · exact List.forall_mem_cons.mpr ⟨h.1.line, declaredMembers_lined _ members h.2⟩

theorem declaredTypes_lined (container : String) (ds : List Declaration)
    (h : Declaration.AllStandIn e ds) : ∀ d ∈ declaredTypes container ds, e.hasLine d.line := by
  fun_induction declaredTypes container ds with
  | case1 => simp
  | case2 container head members rest ihInside ih =>
    exact List.forall_mem_append.mpr ⟨ihInside h.1.2, ih h.2⟩
  | case3 container head members rest ih =>
    exact List.forall_mem_append.mpr ⟨declaredType_lined container h.1, ih h.2⟩

theorem repeatedTypes_lined {ds : List Declared} (h : ∀ d ∈ ds, e.hasLine d.line)
    (before : List Declared) : AllLined e (repeatedTypes before ds) := by
  intro report hreport
  obtain ⟨d, hd, rfl⟩ := repeatedTypes_mem report hreport
  exact h d hd

theorem bindUnit_lined {u : SourceUnit} (h : u.StandsIn e) : (bindUnit symbols u).Lined e := by
  have hmembers := Declaration.allStandIn_iff.mpr h.members
  exact (say_lined (repeatedTypes_lined (declaredTypes_lined "" u.members hmembers) [])).bind fun _ =>
    (bindImports_lined symbols _ _ h.imports).bind fun _ =>
    bindDeclarations_lined symbols _ u.members hmembers

end Binding

/-- All that is wrong with the names of a unit is reported on its lines. -/
theorem SourceUnit.bind_lined {e : Extent} {u : SourceUnit} (h : u.StandsIn e)
    (references : List Assembly) : ∀ d ∈ (u.bind references).diagnostics, e.hasLine d.line :=
  fun d hd => Binding.bindUnit_lined _ h d (Binding.mem_distinct.mp hd)

end DataClasses
