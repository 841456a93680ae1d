import DataClasses.Proofs.Binding.References
import DataClasses.Proofs.TypeTable.Groups

/-!
# The order of declarations

The order in which namespaces and types are declared does not matter where no two types have one full
name and one number of type parameters: the same is reported, and the table has the same types.
-/

set_option autoImplicit false

namespace DataClasses

open Binding

namespace Declaration

inductive Rearranged : List Declaration → List Declaration → Prop where
  | here {ds es : List Declaration} (h : ds.Perm es) : Rearranged ds es
  | inside {ms ns : List Declaration} (before : List Declaration) (head : ScopeHead)
      (after : List Declaration) (h : Rearranged ms ns) :
      Rearranged (before ++ scope head ms :: after) (before ++ scope head ns :: after)

structure Collects {α γ : Type} (f : γ → List Declaration → List α) : Prop where
  nil : ∀ place, f place [] = []
  cons : ∀ place d ds, f place (d :: ds) = f place [d] ++ f place ds
  scope : ∀ place head, ∃ inner, ∀ ms, f place [scope head ms] = f place [scope head []] ++ f inner ms

namespace Collects

variable {α γ : Type} {f : γ → List Declaration → List α} (hf : Collects f)

include hf

theorem eq_flatMap (place : γ) (ds : List Declaration) : f place ds = ds.flatMap fun d => f place [d] := by
  induction ds with
  | nil => exact hf.nil place
  | cons d ds ih => rw [hf.cons, ih, List.flatMap_cons]

/-- The same is collected in another order. -/
theorem perm {ds es : List Declaration} (h : Rearranged ds es) (place : γ) :
    (f place ds).Perm (f place es) := by
  induction h generalizing place with
  | here h =>
    rw [hf.eq_flatMap, hf.eq_flatMap place]
    exact h.flatMap_right _
  | @inside ms ns before head after h ih =>
    obtain ⟨inner, hscope⟩ := hf.scope place head
    rw [hf.eq_flatMap, hf.eq_flatMap place, List.flatMap_append, List.flatMap_append, List.flatMap_cons,
      List.flatMap_cons, hscope ms, hscope ns]
    exact (((ih inner).append_left _).append_right _).append_left _

end Collects

end Declaration

open Declaration (Rearranged Collects)

namespace Binding

theorem declaredTypes_collects : Collects declaredTypes where
  nil _ := by rw [declaredTypes]
  cons container d ds := by
    cases d with
    | scope head members => simp only [declaredTypes, List.append_nil]
    | type head members => simp only [declaredTypes, List.append_nil]
  scope container head := by
    refine ⟨scopeName container head.name, fun ms => ?_⟩
    simp only [declaredTypes, List.append_nil, List.nil_append]

theorem declaredScopes_collects : Collects declaredScopes where
  nil _ := by rw [declaredScopes]
  cons container d ds := by
    cases d with
    | scope head members => simp only [declaredScopes, List.append_nil, List.append_assoc]
    | type head members => simp only [declaredScopes, List.nil_append]
  scope container head := by
    refine ⟨scopeName container head.name, fun ms => ?_⟩
    simp only [declaredScopes, List.append_nil]

variable (symbols : Symbols)

theorem entries_collects : Collects fun place ds => (bindDeclarations symbols place ds).value where
  nil _ := by simp only [bindDeclarations, Reported.pure_value]
  cons place d ds := by
    cases d with
    | scope head members =>
      simp only [bindDeclarations_scope, bindDeclarations, Reported.bind_value, Reported.pure_value,
        List.append_nil]
    | type head members =>
      simp only [bindDeclarations, Reported.bind_value, Reported.pure_value, List.append_nil]
  scope place head := by
    refine ⟨head.inside symbols place, fun ms => ?_⟩
    simp only [bindDeclarations_scope, bindDeclarations, Reported.bind_value, Reported.pure_value,
      List.append_nil, List.nil_append]

theorem reports_collects : Collects fun place ds => (bindDeclarations symbols place ds).reports where
  nil _ := by simp only [bindDeclarations, Reported.pure_reports]
  cons place d ds := by
    cases d with
    | scope head members =>
      simp only [bindDeclarations_scope, bindDeclarations, Reported.bind_reports, Reported.pure_reports,
        List.append_nil, List.append_assoc]
    | type head members =>
      simp only [bindDeclarations, Reported.bind_reports, Reported.pure_reports, List.append_nil]
  scope place head := by
    refine ⟨head.inside symbols place, fun ms => ?_⟩
    simp only [bindDeclarations_scope, bindDeclarations, Reported.bind_reports, Reported.pure_reports,
      List.append_nil]

end Binding

namespace SourceUnit

variable {u : SourceUnit} {members : List Declaration} (h : Rearranged u.members members)
  (references : List Assembly)

def TypesDiffer (u : SourceUnit) : Prop := ((declaredTypes "" u.members).map Declared.identity).Nodup

theorem repeatedTypes_of_differ (hdiffer : u.TypesDiffer) :
    repeatedTypes [] (declaredTypes "" u.members) = [] :=
  repeatedTypes_of_distinct hdiffer

section

include h

theorem differ_rearranged (hdiffer : u.TypesDiffer) : TypesDiffer { u with members } :=
  ((declaredTypes_collects.perm h "").map Declared.identity).nodup hdiffer

/-- The same names are known, so each name means the same everywhere. -/
theorem symbols_rearranged (reach : String → Prop) :
    (u.symbols references).AgreeOn reach (SourceUnit.symbols { u with members } references) := by
  have hscopes := declaredScopes_collects.perm h ""
  have htypes := (declaredTypes_collects.perm h "").map fun d => (d.fullName, d.arity)
  constructor
  · intro full _
    rw [symbols, symbols, Symbols.mem_namespaces_append, Symbols.mem_namespaces_append]
    exact or_congr_right hscopes.mem_iff
  · intro full _ arity
    rw [symbols, symbols, Symbols.mem_types_append, Symbols.mem_types_append]
    exact or_congr_right htypes.mem_iff

theorem bindUnit_rearranged (hdiffer : u.TypesDiffer) :
    (bindUnit (SourceUnit.symbols { u with members } references) { u with members }).value.Perm
        (bindUnit (u.symbols references) u).value ∧
      (bindUnit (SourceUnit.symbols { u with members } references) { u with members }).reports.Perm
        (bindUnit (u.symbols references) u).reports := by
  have hwords : Closed (fun _ => True) u.words :=
    ⟨trivial, fun _ _ _ _ => trivial, fun _ _ _ _ => trivial⟩
  rw [bindUnit_agree (symbols_rearranged h references _) hwords]
  generalize SourceUnit.symbols { u with members } references = known
  have hunit (v : SourceUnit) (hv : v.TypesDiffer) :
      (bindUnit known v).reports = (bindImports known {} "" v.imports).reports ++
        (bindDeclarations known (v.rootPlace known) v.members).reports := by
    rw [bindUnit, repeatedTypes_of_differ hv]
    rfl
  constructor
  · exact ((entries_collects known).perm h (u.rootPlace known)).symm
  · rw [hunit u hdiffer, hunit _ (differ_rearranged h hdiffer)]
    exact ((reports_collects known).perm h (u.rootPlace known)).symm.append_left _

end

/-- Types that differ in full name or number of type parameters are different types of the table. -/
theorem identities_of_differ {e : Extent} (he : ∀ name, e.hasName name → Identifier.IsName name)
    (hu : u.StandsIn e) (hdiffer : u.TypesDiffer) : (u.parts.map (·.identity)).Nodup := by
  rw [TypesDiffer, declaredTypes_eq he "" [] 0 u.members (Declaration.allStandIn_iff.mpr hu.members),
    List.map_map] at hdiffer
  change (u.parts.map (Declared.identity ∘ TypePart.declared)).Nodup at hdiffer
  rw [List.Nodup, List.pairwise_map] at hdiffer ⊢
  refine hdiffer.imp_of_mem ?_
  intro p q hp hq hne heq
  obtain ⟨haround, hlevel⟩ := TypePart.names_eq he (u.parts_stand hu p hp) (u.parts_stand hu q hq) heq
  apply hne
  simp only [TypeHead.level, Prod.mk.injEq] at hlevel
  have hscope : p.scope = q.scope := congrArg Prod.fst heq
  simp only [Function.comp_apply, Declared.identity, Declared.fullName, TypePart.declared, haround, hscope,
    hlevel]

/-- Entries of different types make up the table as they are. -/
theorem types_of_nodup
    (hnodup : ((bindUnit (u.symbols references) u).value.map (·.identity)).Nodup) :
    (u.bind references).table.types = (bindUnit (u.symbols references) u).value := by
  have happart : (bindUnit (u.symbols references) u).value.Pairwise fun t t' => t.sameType t' = false := by
    refine (List.pairwise_map.mp hnodup).imp ?_
    intro t t' hne
    rw [TypeTable.sameType_eq, beq_eq_false_iff_ne]
    exact hne.symm
  exact congrArg TypeTable.types (TypeTable.ofEntries_distinct happart)

/-- The order of declarations does not matter where no two types have one full name and one number
of type parameters: in another order of all of them, or of those in one namespace, a source has the
same reports and the same types in its table, whatever its references are. -/
theorem bind_rearranged (source : String) (references : List Assembly) {members : List Declaration}
    (h : Rearranged (ofSource source).1.members members) (hdiffer : (ofSource source).1.TypesDiffer) :
    (SourceUnit.bind { (ofSource source).1 with members } references).diagnostics.Perm
        ((ofSource source).1.bind references).diagnostics ∧
      (SourceUnit.bind { (ofSource source).1 with members } references).table.types.Perm
        ((ofSource source).1.bind references).table.types := by
  obtain ⟨hstands, -⟩ := SourceUnit.ofSource_stands source
  obtain ⟨hentries, hreports⟩ := bindUnit_rearranged h references hdiffer
  have hnodup := identities_of_differ (fun _ hname => hname) hstands hdiffer
  rw [← identities_eq ((ofSource source).1.bound_records references).entries] at hnodup
  refine ⟨distinct_perm hreports, ?_⟩
  rw [types_of_nodup references hnodup,
    types_of_nodup references ((hentries.map (·.identity)).nodup_iff.mpr hnodup)]
  exact hentries

def simpleType (name : String) (line : Nat) : TypeExpr := .named [(name, [])] false line

def leafClass : Declaration :=
  .type (plainHead [] "Leaf" [] 2) [fieldOf (simpleType "Node" 2) "up" 2, fieldOf (simpleType "Coin" 2) "a" 2]

def nodeClass : Declaration :=
  .type (plainHead [] "Node" [] 3)
    [fieldOf (simpleType "Leaf" 3) "down" 3, fieldOf (simpleType "Money" 3) "b" 3]

def tillUnit (inside : List Declaration) : SourceUnit where
  imports := []
  members :=
    [.scope ⟨⟨["Acme"], 1⟩, [], false, 1⟩ inside,
      .scope ⟨⟨["Shop"], 4⟩, [⟨⟨["Acme"], 4⟩, none, false, false, 4⟩], false, 4⟩
        [.type (plainHead [] "Till" [] 4) [fieldOf (simpleType "Node" 4) "first" 4]]]

def tillSource : String :=
  "namespace Acme \x7b\nclass Leaf \x7b Node up; Coin a; \x7d\n" ++
    "class Node \x7b Leaf down; Money b; \x7d \x7d\n" ++
    "namespace Shop \x7b using Acme; class Till \x7b Node first; \x7d \x7d\n"

theorem ofSource_till : SourceUnit.ofSource tillSource = (tillUnit [leafClass, nodeClass], []) := by
  decide +kernel

theorem till_rearranged :
    Rearranged (tillUnit [leafClass, nodeClass]).members (tillUnit [nodeClass, leafClass]).members :=
  .inside [] _ _ (.here (.swap _ _ _))

theorem till_identities :
    (declaredTypes "" (tillUnit [leafClass, nodeClass]).members).map Declared.identity =
      [("Acme.Leaf", 0), ("Acme.Node", 0), ("Shop.Till", 0)] := by
  simp only [tillUnit, leafClass, nodeClass, fieldOf, declaredTypes, declaredType, declaredMembers]
  decide +kernel

theorem till_bind_rearranged :
    Rearranged (ofSource tillSource).1.members (tillUnit [nodeClass, leafClass]).members ∧
      (ofSource tillSource).1.TypesDiffer ∧
      (SourceUnit.bind
          { (ofSource tillSource).1 with members := (tillUnit [nodeClass, leafClass]).members }
          []).diagnostics.Perm ((ofSource tillSource).1.bind []).diagnostics ∧
      (SourceUnit.bind
          { (ofSource tillSource).1 with members := (tillUnit [nodeClass, leafClass]).members }
          []).table.types.Perm ((ofSource tillSource).1.bind []).table.types := by
  have hrearranged : Rearranged (ofSource tillSource).1.members
      (tillUnit [nodeClass, leafClass]).members := by
    rw [ofSource_till]
    exact till_rearranged
  have hdiffer : (ofSource tillSource).1.TypesDiffer := by
    rw [ofSource_till, TypesDiffer, till_identities]
    decide
  exact ⟨hrearranged, hdiffer, bind_rearranged tillSource [] hrearranged hdiffer⟩

end SourceUnit

end DataClasses
