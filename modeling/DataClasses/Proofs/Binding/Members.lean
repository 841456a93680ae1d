import DataClasses.Proofs.Binding.Lookups
import DataClasses.Proofs.Entries

/-!
# Binding the members of generated source

Every member gets an entry with its name, its key and the full name of its type. Nothing is reported
of a class if no two of its members share a name and none is called like the class.
-/

set_option autoImplicit false

namespace DataClasses

open ClassTree

def MemberType.nameIn (container timestamp : String) : MemberType → String
  | .primitive .timestamp => timestamp
  | .primitive kind => kind.spelling
  | .classNamed name => joinNames container name
  | .listOf element => element.nameIn container timestamp ++ "[]"

namespace Binding

open Identifier (IsName)

section

variable {tree : ClassTree} {settings : Settings} {other : String}

def timestampIn (tree : ClassTree) (settings : Settings) : String :=
  meantBy tree settings "DateTime" "System"

theorem lookup_simple {symbols : Symbols} {place : Place} {name full : String}
    (h : lookupSimple symbols place name 0 = .ok (.type full)) :
    lookup symbols place [(name, 0)] false = .ok (.type full) := by
  rw [lookup, lookupFirst, if_neg Bool.false_ne_true, h]
  rfl

theorem bindType_name {symbols : Symbols} {place : Place} {name full : String}
    (h : lookupSimple symbols place name 0 = .ok (.type full)) (line : Nat) :
    bindType symbols place (.named [(name, [])] false line) = pure (some full) := by
  have hname : bindName symbols place [(name, [])] false line = pure (some full) := by
    rw [bindName, show partsWritten [(name, [])] = [(name, 0)] from rfl, lookup_simple h]
    rfl
  have hsegments : bindSegments symbols place [(name, [])] = pure [] := by
    simp only [bindSegments, bindTypes]
    rfl
  rw [bindType, hsegments, Reported.bind_pure, hname]
  rfl

theorem bindType_expr (hb : Bindable tree settings) (hother : IsName other) (line : Nat) {t : MemberType}
    (ht : ∀ n ∈ t.class?, n ∈ tree.classes.map (·.name)) :
    bindType (symbolsOf tree settings) (classPlace settings other) (t.expr line) =
      pure (some (t.nameIn settings.container (timestampIn tree settings))) := by
  induction t with
  | primitive kind =>
    cases kind with
    | timestamp => exact bindType_name (lookup_wanted hb (wanted_timestamp settings) hother) line
    | integer | float | text | boolean | object =>
      rw [MemberType.expr, bindType]
      · rfl
      · simp
  | classNamed name => exact bindType_name (lookup_class hb (ht name rfl) hother) line
  | listOf element ih =>
    have hbrackets (name : String) :
        name ++ "[" ++ String.ofList (List.replicate (1 - 1) ',') ++ "]" = name ++ "[]" := by
      rw [String.append_assoc, String.append_assoc]
      rfl
    rw [MemberType.expr, bindType, ih ht, Reported.bind_pure]
    simp only [hbrackets]
    rfl

theorem expr_not_void (line : Nat) (t : MemberType) : (t.expr line).isVoid = false := by
  cases t with
  | primitive kind => cases kind <;> rfl
  | classNamed name => rfl
  | listOf element => rfl

theorem bindName_line (symbols : Symbols) (place : Place) (segments : List (String × List TypeExpr))
    (fromRoot : Bool) (m n : Nat) : (bindName symbols place segments fromRoot m).value =
      (bindName symbols place segments fromRoot n).value := by
  rw [bindName, bindName]
  split
  · rfl
  · next meaning _ => cases meaning <;> rfl

theorem bindType_line (symbols : Symbols) (place : Place) (t : MemberType) (m n : Nat) :
    (bindType symbols place (t.expr m)).value = (bindType symbols place (t.expr n)).value := by
  have hname (name : String) : (bindType symbols place (.named [(name, [])] false m)).value =
      (bindType symbols place (.named [(name, [])] false n)).value := by
    rw [bindType, bindType]
    simp only [Reported.bind_value, bindName_line symbols place _ _ m n]
  induction t with
  | primitive kind =>
    cases kind with
    | timestamp => exact hname "DateTime"
    | integer | float | text | boolean | object => simp [MemberType.expr, bindType]
  | classNamed name => exact hname name
  | listOf element ih =>
    rw [MemberType.expr, MemberType.expr, bindType, bindType, Reported.bind_value, Reported.bind_value, ih]

def keyOf (settings : Settings) (p : Property) : Option String :=
  if settings.annotations then some p.key else none

theorem bindAttributes_value (symbols : Symbols) (place : Place) (settings : Settings) (n : Nat)
    (p : Property) : (bindAttributes symbols place (annotations settings n p)).value = keyOf settings p := by
  have hkey : attributeStem settings.library.keyAttribute ∈ keyAttributes := by
    cases settings.library <;> decide
  rw [annotations, keyOf]
  split
  · simp [bindAttributes, attributeKey?, hkey]
  · rfl

theorem isAttributeName_append (text : String) : isAttributeName (text ++ "Attribute") = true := by
  rw [isAttributeName, List.isSuffixOf_iff_suffix, String.toList_append]
  exact List.suffix_append text.toList attributeSuffix

theorem isAttributeName_joinNames (outer : String) (l : JsonLibrary) :
    isAttributeName (joinNames outer (attributeType l)) = true := by
  by_cases houter : outer = ""
  · rw [houter, joinNames_empty]
    exact isAttributeName_append _
  · rw [joinNames_of_ne houter, attributeType, ← String.append_assoc]
    exact isAttributeName_append _

/-- The attribute of a member is known: that of the library, or else a class of its name. -/
theorem bindAttributes_reports (hb : Bindable tree settings) (hother : IsName other) (n : Nat)
    (p : Property) :
    (bindAttributes (symbolsOf tree settings) (classPlace settings other)
      (annotations settings n p)).reports = [] := by
  have hlookup := lookup_simple (lookup_wanted hb (wanted_attribute settings) hother)
  have hcandidates : attributeCandidates settings.library.keyAttribute =
      [attributeType settings.library, settings.library.keyAttribute] := by
    cases settings.library <;> decide
  have hsuffix (name : String) : isAttributeName (meantBy tree settings (attributeType settings.library)
      name) = true := by
    rw [meantBy]
    split
    · exact isAttributeName_joinNames _ _
    · exact isAttributeName_joinNames _ _
  rw [annotations]
  split
  · simp [bindAttributes, attributeReports, hcandidates, searchAttribute, hlookup, hsuffix]
  · rfl

def memberKind (settings : Settings) : MemberKind :=
  if settings.accessors then .property else .field

def memberEntry (settings : Settings) (typeName : Option String) (p : Property) : MemberEntry :=
  ⟨p.name, memberKind settings, typeName, keyOf settings p⟩

variable {p : Property}

theorem declared_cases (h : IsPlain settings p) (n : Nat) :
    let m := declarationLineFrom settings n
    let attributes := annotations settings n p
    settings.accessors = true ∧
        declared settings n p =
          .property ⟨attributes, ["public"], p.type.expr m, p.name, ["get", "set"], false, m⟩ ∨
      settings.accessors = false ∧
        declared settings n p = .field ⟨attributes, ["public"], p.type.expr m, [p.name], m⟩ := by
  cases haccessors : settings.accessors with
  | true => exact .inl ⟨rfl, by simp only [declared, haccessors, if_true]⟩
  | false =>
    have hrecord : p.type ≠ .classNamed "record" := by
      intro heq
      exact absurd (h heq) (by simp [haccessors])
    exact .inr ⟨rfl, by simp only [declared, haccessors, hrecord, Bool.false_eq_true, if_false]⟩

theorem bindMember_value (symbols : Symbols) (place : Place) (full : String) (h : IsPlain settings p)
    (n : Nat) :
    (bindMember symbols place full (declared settings n p)).value =
      [memberEntry settings
        (bindType symbols place (p.type.expr (declarationLineFrom settings n))).value p] := by
  have hkey := bindAttributes_value symbols place settings n p
  rcases declared_cases h n with ⟨haccessors, hdeclared⟩ | ⟨haccessors, hdeclared⟩
  · simp [hdeclared, bindMember, bindProperty, memberEntry, memberKind, haccessors, hkey]
  · simp [hdeclared, bindMember, bindField, memberEntry, memberKind, haccessors, hkey]

theorem bindMember_reports (hb : Bindable tree settings) (hother : IsName other) (full : String)
    (h : IsPlain settings p) (ht : ∀ n ∈ p.type.class?, n ∈ tree.classes.map (·.name)) (n : Nat) :
    (bindMember (symbolsOf tree settings) (classPlace settings other) full
      (declared settings n p)).reports = [] := by
  have hattributes := bindAttributes_reports hb hother n p
  have htype := bindType_expr hb hother (declarationLineFrom settings n) ht
  have hvoid := expr_not_void (declarationLineFrom settings n) p.type
  rcases declared_cases h n with ⟨-, hdeclared⟩ | ⟨-, hdeclared⟩
  · simp [hdeclared, bindMember, bindProperty, hattributes, htype, hvoid, repeatedAccessors]
  · simp [hdeclared, bindMember, bindField, hattributes, htype, hvoid]

theorem claims_declared (settings : Settings) (n : Nat) (p : Property) :
    claims (declared settings n p) = [⟨p.name, .other, declarationLineFrom settings n⟩] := by
  rw [declared]
  split
  · rfl
  · split
    · rfl
    · rfl

def Exclusive (used : UsedNames) : Prop := ∀ entry ∈ used, entry.2 = .other

theorem claimProblems_verdict {head : TypeHead} {used : UsedNames} {name : String} (full : String)
    (line : Nat) (hkind : head.kind ≠ .enum) (hname : name ≠ "") (hused : Exclusive used) :
    Verdict (claimProblems head full used ⟨name, .other, line⟩)
      (name ≠ head.name ∧ name ∉ used.map (·.1)) := by
  have hempty : name.isEmpty = false := by simpa using hname
  rw [claimProblems, ← Entries.get?_eq_none_iff]
  simp only [hempty, Bool.false_eq_true, if_false]
  refine .append (.report rfl (by simp [hkind])) ?_
  cases hget : used.get? name with
  | none => exact .silent rfl
  | some first =>
    have hfirst : first = .other := hused _ (Entries.mem_of_get? hget)
    exact ⟨by simp [hfirst, NameUse.mayShare], by simp [hfirst, NameUse.mayShare, Problem.onLine,
      Problem.severity]⟩

theorem claim_spec {used : UsedNames} {name : String} (line : Nat) (hname : name ≠ "")
    (hused : Exclusive used) :
    Exclusive (claim used ⟨name, .other, line⟩) ∧
      ∀ x, x ∈ (claim used ⟨name, .other, line⟩).map (·.1) ↔
        x = name ∨ x ∈ used.map (·.1) := by
  have hempty : name.isEmpty = false := by simpa using hname
  rw [claim]
  simp only [hempty, Bool.false_or]
  split
  · next hhas =>
    have hmem := Entries.has_iff.mp hhas
    refine ⟨hused, fun x => ⟨.inr, ?_⟩⟩
    rintro (rfl | hx)
    · exact hmem
    · exact hx
  · refine ⟨fun entry hentry => ?_, fun x => Entries.mem_keys_put⟩
    rcases Entries.mem_put hentry with rfl | hentry
    · rfl
    · exact hused entry hentry

section

variable {symbols : Symbols} {place : Place} {full : String} {ps : List Property}

theorem bindMembers_value (head : TypeHead) (hplain : ∀ p ∈ ps, IsPlain settings p) (used : UsedNames)
    (n : Nat) :
    (bindMembers symbols place head full used (declaredFrom settings n ps)).value =
      ps.map fun p => memberEntry settings (bindType symbols place (p.type.expr 0)).value p := by
  induction ps generalizing used n with
  | nil => simp [declaredFrom, bindMembers]
  | cons p ps ih =>
    have hrest := ih (fun q hq => hplain q (by simp [hq]))
    rw [declaredFrom, bindMembers]
    simp only [Reported.bind_value, Reported.pure_value, hrest,
      bindMember_value symbols place full (hplain p (by simp)) n, bindType_line symbols place p.type _ 0]
    rfl

/-- Nothing is reported of members that have names of their own, none of them that of the type. -/
theorem bindMembers_verdict (head : TypeHead) (hkind : head.kind ≠ .enum)
    (hnames : ∀ p ∈ ps, p.name ≠ "")
    (hsilent : ∀ p ∈ ps, ∀ n, (bindMember symbols place full (declared settings n p)).reports = [])
    (used : UsedNames) (hused : Exclusive used) (n : Nat) :
    Verdict (bindMembers symbols place head full used (declaredFrom settings n ps)).reports
      ((ps.map (·.name)).Nodup ∧ ∀ p ∈ ps, p.name ≠ head.name ∧ p.name ∉ used.map (·.1)) := by
  induction ps generalizing used n with
  | nil => exact .silent (by simp)
  | cons p ps ih =>
    have hname := hnames p (by simp)
    obtain ⟨hnext, hkeys⟩ := claim_spec (declarationLineFrom settings n) hname hused
    have hrest := ih (fun q hq => hnames q (by simp [hq])) (fun q hq => hsilent q (by simp [hq])) _ hnext
      (n + (propertyLines settings p).length + 1)
    have hproblems := claimProblems_verdict full (declarationLineFrom settings n) hkind hname hused
    have hreports :
        (bindMembers symbols place head full used (declaredFrom settings n (p :: ps))).reports =
          claimProblems head full used ⟨p.name, .other, declarationLineFrom settings n⟩ ++
            (bindMembers symbols place head full
              (claim used ⟨p.name, .other, declarationLineFrom settings n⟩)
              (declaredFrom settings (n + (propertyLines settings p).length + 1) ps)).reports := by
      rw [declaredFrom, bindMembers]
      simp [claims_declared, claimAll, hsilent p (by simp)]
    rw [hreports]
    refine (hproblems.append hrest).congr ?_
    rw [List.map_cons, List.nodup_cons, List.forall_mem_cons]
    simp only [hkeys]
    constructor
    · rintro ⟨hfree, hnodup, hothers⟩
      refine ⟨⟨?_, hnodup⟩, hfree,
        fun q hq => ⟨(hothers q hq).1, fun hmem => (hothers q hq).2 (.inr hmem)⟩⟩
      intro hmem
      obtain ⟨q, hq, heq⟩ := List.mem_map.mp hmem
      exact (hothers q hq).2 (.inl heq)
    · rintro ⟨⟨hnew, hnodup⟩, hfree, hothers⟩
      refine ⟨hfree, hnodup, fun q hq => ⟨(hothers q hq).1, ?_⟩⟩
      rintro (heq | hmem)
      · exact hnew (heq ▸ List.mem_map_of_mem hq)
      · exact (hothers q hq).2 hmem

end

end

end Binding
end DataClasses
